import Micromag.Shell.Text
import Micromag.Text.Basic

/-!
# Arithmetic of the shell

An expression over signed words of 64 bits has the operators of C. Names stand for variables, whose
values are numbers; a missing value is zero. Assignments change variables.
-/

namespace Micromag.Shell

/-- A piece of an expression. -/
inductive SumToken where
  /-- A number. -/
  | number (n : Int)
  /-- The name of a variable. -/
  | name (text : Text)
  /-- An operator. -/
  | sign (text : String)
deriving DecidableEq, Repr

/-- Why an expression has no value. -/
inductive SumFault where
  /-- It is not well formed, or a divisor is zero; the sentence says which. -/
  | expression (sentence : String)
  /-- The value of a variable is no number. -/
  | variable (value : Text)
deriving DecidableEq, Repr

/-- Variables that an expression reads and changes. -/
structure SumState where
  /-- The pieces that are left. -/
  tokens : List SumToken
  /-- The values of variables. -/
  value : Text → Text
  /-- Assignments, the latest first. -/
  changes : List (Text × Int) := []
  /-- The result is of no interest: nothing is assigned, and nothing is a fault. -/
  idle : Bool := false

/-- Evaluation of an expression. -/
abbrev Sum (α : Type) := StateT SumState (Except SumFault) α

namespace Sum

/-- A number as a signed word of 64 bits. -/
def wrap (n : Int) : Int := n.bmod (2 ^ 64)

/-- The signs of operators, longer ones first. -/
def signs : List String :=
  ["<<=", ">>=", "<<", ">>", "<=", ">=", "==", "!=", "&&", "||", "+=", "-=", "*=", "/=", "%=",
    "&=", "^=", "|=", "+", "-", "*", "/", "%", "<", ">", "=", "!", "~", "&", "^", "|", "?", ":",
    "(", ")"]

/-- The value of a digit. -/
def digit? (base : Nat) (c : Char) : Option Nat :=
  let n :=
    if c.isDigit then c.toNat - 48
    else if 'a' ≤ c ∧ c ≤ 'f' then c.toNat - 87
    else if 'A' ≤ c ∧ c ≤ 'F' then c.toNat - 55
    else base
  if n < base then some n else none

/-- The number of digits in a base. -/
def ofDigits? (base : Nat) (text : Text) : Option Int :=
  if text.isEmpty then none
  else
    (text.foldlM (fun n c => (digit? base c).map (base * n + ·)) 0).map fun n : Nat => (n : Int)

/-- The number of a text: decimal, octal behind a zero, hexadecimal behind a zero and an x. -/
def number? : Text → Option Int
  | '0' :: 'x' :: rest => ofDigits? 16 rest
  | '0' :: 'X' :: rest => ofDigits? 16 rest
  | '0' :: c :: rest => ofDigits? 8 (c :: rest)
  | text => ofDigits? 10 text

/-- The number of a text with a sign and blanks around it. -/
def signed? (text : Text) : Option Int :=
  match Micromag.Text.trim text with
  | '-' :: rest => (number? rest).map fun n => -n
  | '+' :: rest => number? rest
  | text => number? text

/-- The pieces of an expression. -/
def tokens? : Nat → Text → Option (List SumToken)
  | 0, _ => none
  | _ + 1, [] => some []
  | fuel + 1, c :: rest =>
    let text := c :: rest
    if " \t\n".toList.contains c then tokens? fuel rest
    else if c.isDigit then do
      let digits := text.takeWhile Char.isAlphanum
      let n ← number? digits
      return .number n :: (← tokens? fuel (text.drop digits.length))
    else if Text.startsName c then do
      let name := text.takeWhile Text.inName
      return .name name :: (← tokens? fuel (text.drop name.length))
    else do
      let sign ← signs.find? fun sign => sign.toList.isPrefixOf text
      return .sign sign :: (← tokens? fuel (text.drop sign.length))

/-- The next piece. -/
def peek : Sum (Option SumToken) := do return (← get).tokens.head?

/-- Pass over a piece. -/
def skip : Sum Unit := modify fun state => { state with tokens := state.tokens.drop 1 }

/-- Pass over an operator if it comes next. -/
def accept (sign : String) : Sum Bool := do
  if (← peek) = some (.sign sign) then
    skip
    return true
  else return false

/-- The value of a variable. -/
def valueOf (name : Text) : Sum Int := do
  let state ← get
  match state.changes.lookup name with
  | some n => return n
  | none =>
    let text := state.value name
    if (Micromag.Text.trim text).isEmpty then return 0
    else
      match signed? text with
      | some n => return wrap n
      | none => throw (.variable text)

/-- Set a variable. -/
def assign (name : Text) (n : Int) : Sum Int := do
  modify fun state =>
    if state.idle then state else { state with changes := (name, n) :: state.changes }
  return n

/-- Evaluate without interest in the result if a condition holds. -/
def idleIf (condition : Bool) (sum : Sum Int) : Sum Int := do
  let before := (← get).idle
  modify ({ · with idle := before || condition })
  let n ← sum
  modify ({ · with idle := before })
  return n

/-- A quotient, unless the divisor is zero. -/
def quotient (divide : Int → Int → Int) (a b : Int) : Sum Int := do
  if b ≠ 0 then return wrap (divide a b)
  else if (← get).idle then return 0
  else throw (.expression "division by zero")

/-- A truth value as a number. -/
def ofBool (b : Bool) : Int := if b then 1 else 0

/-- An operation on two numbers. -/
def operate (sign : String) (a b : Int) : Sum Int :=
  let bits (f : BitVec 64 → BitVec 64 → BitVec 64) : Int :=
    (f (BitVec.ofInt 64 a) (BitVec.ofInt 64 b)).toInt
  match sign with
  | "+" => return wrap (a + b)
  | "-" => return wrap (a - b)
  | "*" => return wrap (a * b)
  | "/" => quotient Int.tdiv a b
  | "%" => quotient Int.tmod a b
  | "<<" => return bits fun x y => x <<< (y.toNat % 64)
  | ">>" => return bits fun x y => x.sshiftRight (y.toNat % 64)
  | "<" => return ofBool (a < b)
  | ">" => return ofBool (b < a)
  | "<=" => return ofBool (a ≤ b)
  | ">=" => return ofBool (b ≤ a)
  | "==" => return ofBool (a = b)
  | "!=" => return ofBool (a ≠ b)
  | "&" => return bits (· &&& ·)
  | "^" => return bits (· ^^^ ·)
  | "|" => return bits (· ||| ·)
  | "&&" => return ofBool (a ≠ 0 && b ≠ 0)
  | "||" => return ofBool (a ≠ 0 || b ≠ 0)
  | _ => throw (.expression "bad operator")

/-- The operators by rank, weaker ones first. -/
def ranks : List (List String) :=
  [["||"], ["&&"], ["|"], ["^"], ["&"], ["==", "!="], ["<", ">", "<=", ">="], ["<<", ">>"],
    ["+", "-"], ["*", "/", "%"]]

/-- The operator of a rank that comes next. -/
def acceptAny : List String → Sum (Option String)
  | [] => return none
  | sign :: rest => do if ← accept sign then return some sign else acceptAny rest

/-- Operands of a rank joined behind a first one. -/
def joined (signs : List String) (operand : Sum Int) (first : Int) : Nat → Sum Int
  | 0 => return first
  | fuel + 1 => do
    match ← acceptAny signs with
    | none => return first
    | some sign => do
      let settled := (sign = "&&" && first = 0) || (sign = "||" && first ≠ 0)
      let second ← idleIf settled operand
      joined signs operand (← operate sign first second) fuel

/-- An expression of operators of some ranks. -/
def ranked (operand : Sum Int) : List (List String) → Sum Int
  | [] => operand
  | signs :: rest => do
    let first ← ranked operand rest
    joined signs (ranked operand rest) first ((← get).tokens.length + 1)

/-- A number, a variable, an expression in parentheses, or a sign in front of one of them. -/
def primary (whole own : Sum Int) : Sum Int := do
  match ← peek with
  | some (.number n) => skip; return wrap n
  | some (.name name) => skip; valueOf name
  | some (.sign "(") =>
    skip
    let n ← whole
    if ← accept ")" then return n else throw (.expression "expecting ')'")
  | some (.sign "-") => skip; return wrap (-(← own))
  | some (.sign "+") => skip; own
  | some (.sign "!") => skip; return ofBool ((← own) = 0)
  | some (.sign "~") => skip; return -(← own) - 1
  | _ => throw (.expression "expecting primary")

/-- The assignment that comes next: its variable and its operator. -/
def assignment? : Sum (Option (Text × String)) := do
  match (← get).tokens with
  | .name name :: .sign sign :: _ =>
    if sign = "=" then return some (name, "")
    else if ["+=", "-=", "*=", "/=", "%=", "<<=", ">>=", "&=", "^=", "|="].contains sign then
      return some (name, String.ofList (sign.toList.dropLast))
    else return none
  | _ => return none

/-- An expression, down to a depth. -/
def expression : Nat → Sum Int
  | 0 => throw (.expression "too deep")
  | depth + 1 => do
    match ← assignment? with
    | some (name, sign) =>
      skip
      skip
      let n ← expression depth
      if sign.isEmpty then assign name n
      else assign name (← operate sign (← valueOf name) n)
    | none =>
      let condition ← ranked (unary depth depth) ranks
      if ← accept "?" then
        let yes ← idleIf (condition = 0) (expression depth)
        if !(← accept ":") then throw (.expression "expecting ':'")
        let no ← idleIf (condition ≠ 0) (expression depth)
        return if condition ≠ 0 then yes else no
      else return condition
where
  /-- An operand with signs in front of it. -/
  unary (depth : Nat) : Nat → Sum Int
    | 0 => throw (.expression "too deep")
    | signs + 1 => primary (expression depth) (unary depth signs)

/-- The value of an expression and the assignments in it, the first one first. -/
def evaluate (value : Text → Text) (text : Text) : Except SumFault (Int × List (Text × Int)) := do
  match tokens? (text.length + 1) text with
  | none => throw (.expression "expecting EOF")
  | some [] => return (0, [])
  | some tokens =>
    let (n, state) ← (expression (tokens.length + 1)).run { tokens, value }
    if !state.tokens.isEmpty then throw (.expression "expecting EOF")
    return (n, state.changes.reverse)

end Sum

end Micromag.Shell
