import Micromag.Shell.Arithmetic
import Micromag.Shell.Regular
import Micromag.Shell.Tool.Basic

/-!
# Tests and expressions

A test is a condition on texts, numbers and files. An expression computes a number or compares, and
each of its operands is an argument of its own.
-/

namespace Micromag.Shell.Tool

open Work

/-! ## Tests -/

/-- Reading a test: the arguments from the last one that was read; a fault is a sentence. -/
abbrev Testing (α : Type) := StateT (List Text) (Except String) α

namespace Testing

/-- Operators on one argument. -/
def unarySigns : List String :=
  ["-n", "-z", "-e", "-f", "-d", "-r", "-w", "-x", "-s", "-h", "-L", "-t", "-p", "-b", "-c", "-S",
    "-u", "-g", "-k", "-O", "-G"]

/-- Operators on two arguments. -/
def binarySigns : List String :=
  ["=", "!=", "<", ">", "-eq", "-ne", "-lt", "-le", "-gt", "-ge", "-nt", "-ot", "-ef"]

/-- A test of one argument. -/
def unary (files : FileSystem) (sign : String) (operand : Text) : Bool :=
  let path := operand.string
  match sign with
  | "-n" => !operand.isEmpty
  | "-z" => operand.isEmpty
  | "-e" | "-r" | "-w" | "-O" | "-G" => files.exists? path
  | "-f" => files.isFile path
  | "-d" => files.isDirectory path
  | "-x" => files.isRunnable path || match files.nodeOf path with
    | .ok (_, .directory) => true
    | .ok (place, _) => programHomes.contains place.dropLast
    | .error _ => false
  | "-s" => match files.nodeOf path with
    | .ok (_, .file content) => !content.isEmpty
    | .ok (_, .directory) => true
    | _ => false
  | "-h" | "-L" => match files.locate path true with
    | .ok ⟨_, some (.link _)⟩ => true
    | _ => false
  | _ => false

/-- A number of a test. -/
def number (text : Text) : Except String Int :=
  let digits := Micromag.Text.trim text
  let unsigned := match digits with
    | '-' :: rest => rest
    | '+' :: rest => rest
    | digits => digits
  let value : Option Int := (Text.toNat? unsigned).map fun n =>
    if digits.head? = some '-' then -(n : Int) else n
  match value with
  | some n =>
    if -(2 ^ 63) ≤ n && n < 2 ^ 63 then return n else throw s!"Illegal number: {Text.string text}"
  | none => throw s!"Illegal number: {Text.string text}"

/-- A test of two arguments. -/
def binary (files : FileSystem) (sign : String) (left right : Text) : Except String Bool := do
  let compare (test : Int → Int → Bool) : Except String Bool := do
    return test (← number left) (← number right)
  let serials := (files.serialOf? left.string, files.serialOf? right.string)
  match sign with
  | "=" => return left = right
  | "!=" => return left ≠ right
  | "<" => return left.map Char.toNat < right.map Char.toNat
  | ">" => return right.map Char.toNat < left.map Char.toNat
  | "-eq" => compare fun a b => a = b
  | "-ne" => compare fun a b => a ≠ b
  | "-lt" => compare fun a b => a < b
  | "-le" => compare fun a b => a ≤ b
  | "-gt" => compare fun a b => b < a
  | "-ge" => compare fun a b => b ≤ a
  | "-nt" => return match serials with
    | (some a, some b) => b < a
    | (some _, none) => true
    | _ => false
  | "-ot" => return match serials with
    | (some a, some b) => a < b
    | (none, some _) => true
    | _ => false
  | _ => return serials.1.isSome && serials.1 = serials.2

/-- What an argument is in a test. -/
inductive Role where
  /-- There is no argument. -/
  | missing
  /-- A text that is tested. -/
  | operand
  /-- An opening parenthesis. -/
  | opening
  /-- A closing parenthesis. -/
  | closing
  /-- The sign of the opposite result. -/
  | opposite
  /-- The sign between tests that must both hold. -/
  | both
  /-- The sign between tests of which one must hold. -/
  | either
  /-- An operator on one argument. -/
  | unary (sign : String)
  /-- An operator on two arguments. -/
  | binary (sign : String)
deriving DecidableEq, Repr

/-- The role of a sign. -/
def signRole (text : Text) : Role :=
  let sign := text.string
  if unarySigns.contains sign then .unary sign
  else if binarySigns.contains sign then .binary sign
  else
    match sign with
    | "!" => .opposite
    | "-a" => .both
    | "-o" => .either
    | "(" => .opening
    | ")" => .closing
    | _ => .operand

/-- Whether a sign in front of arguments is a text that is tested: nothing follows it, or it is
compared with something. -/
def standsAlone : List Text → Bool
  | [] => true
  | [_] => false
  | sign :: _ :: _ => match signRole sign with
    | .binary _ => true
    | _ => false

/-- The role of the first of some arguments. -/
def roleOf : List Text → Role
  | [] => .missing
  | text :: rest =>
    match signRole text with
    | .unary sign => if standsAlone rest then .operand else .unary sign
    | .opening => if rest.isEmpty then .operand else .opening
    | role => role

/-- Go on to the next argument: its role. -/
def advance : Testing Role := do
  modify (·.drop 1)
  return roleOf (← get)

/-- The role of the next argument. -/
def ahead : Testing Role := do return roleOf ((← get).drop 1)

/-- The argument that was read last. -/
def current : Testing Text := do return (← get).headD []

/-- The argument behind an operator, which must be there. -/
def behind (sign : String) : Testing Text := do
  let _ ← advance
  match ← get with
  | [] => throw s!"{sign}: argument expected"
  | text :: _ => return text

/-- A test that is not joined to others, whose first argument has a role. A test in parentheses is
read by a given reader. -/
def primary (files : FileSystem) (inner : Role → Testing Bool) : Role → Testing Bool
  | .missing => return false
  | .opening => do
    match ← advance with
    | .closing => return false
    | role =>
      let result ← inner role
      if (← advance) = .closing then return result else throw "closing paren expected"
  | .unary sign => do return unary files sign (← behind sign)
  | _ => do
    let left ← current
    match ← ahead with
    | .binary sign =>
      let _ ← advance
      binary files sign left (← behind sign)
    | _ => return !left.isEmpty

/-- A test, perhaps with the opposite result. -/
def perhapsOpposite (files : FileSystem) (inner : Role → Testing Bool) :
    Nat → Role → Testing Bool
  | fuel + 1, .opposite => do
    match ← ahead with
    | .missing => return true
    | _ => return !(← perhapsOpposite files inner fuel (← advance))
  | _, role => primary files inner role

/-- Tests joined by a sign. -/
def joined (sign : Role) (combine : Bool → Bool → Bool) (operand : Role → Testing Bool) :
    Nat → Role → Testing Bool
  | 0, role => operand role
  | fuel + 1, role => do
    let first ← operand role
    if (← ahead) = sign then
      let _ ← advance
      return combine first (← joined sign combine operand fuel (← advance))
    else return first

/-- A test with parentheses down to a depth, of at most a number of arguments. -/
def test (files : FileSystem) (fuel : Nat) : Nat → Role → Testing Bool
  | 0 => fun _ => throw "argument expected"
  | depth + 1 =>
    joined .either (· || ·)
      (joined .both (· && ·) (perhapsOpposite files (test files fuel depth) fuel) fuel) fuel

/-- The arguments of a test without parentheses around all of them and signs in front of them, with
the role of the first, and whether the result is the opposite. Of three arguments with an operator
in the middle the outer ones are texts. -/
def peel (opposite : Bool) : List Text → Bool × Role × List Text
  | [a, b, c] =>
    match signRole b with
    | .binary _ => (opposite, .operand, [a, b, c])
    | _ =>
      if a = ['('] && c = [')'] then (opposite, roleOf [b], [b])
      else if a = ['!'] then (true, roleOf [b, c], [b, c])
      else (opposite, roleOf [a, b, c], [a, b, c])
  | [a, b, c, d] =>
    if a = ['('] && d = [')'] then (opposite, roleOf [b, c], [b, c])
    else if a = ['!'] then peel true [b, c, d]
    else (opposite, roleOf [a, b, c, d], [a, b, c, d])
  | arguments => (opposite, roleOf arguments, arguments)
termination_by arguments => arguments.length

/-- The result of a test. All arguments must have been read. -/
def evaluate (files : FileSystem) (arguments : List Text) : Except String Bool := do
  if arguments.isEmpty then return false
  else
    let (opposite, role, arguments) := peel false arguments
    let fuel := arguments.length + 1
    let (result, rest) ← (test files fuel fuel role).run arguments
    match rest with
    | last :: _ :: _ =>
      throw ((if last.isEmpty then "" else s!"{Text.string last}: ") ++ "unexpected operator")
    | _ => return result != opposite

end Testing

/-! ## Expressions -/

/-- Reading an expression: the arguments that are left; a fault is a sentence. -/
abbrev Computing (α : Type) := StateT (List Text) (Except String) α

namespace Computing

/-- The number of an operand. -/
def number (text : Text) : Except String Int :=
  match text with
  | '-' :: rest => match Text.toNat? rest with
    | some n => .ok (-(n : Int))
    | none => .error "non-integer argument"
  | _ => match Text.toNat? text with
    | some n => .ok n
    | none => .error "non-integer argument"

/-- A truth value as an operand. -/
def ofBool (b : Bool) : Text := if b then ['1'] else ['0']

/-- Whether an operand counts as false. -/
def isFalse (text : Text) : Bool := text.isEmpty || text = ['0']

/-- The start of a text that an expression matches: its first group, or its length. -/
def matched (text pattern : Text) : Text :=
  match Regular.ofText? false pattern with
  | none => []
  | some regular =>
    let hasGroup := ((Micromag.Text.splitOn '\\' pattern).drop 1).any (·.head? = some '(')
    match Regular.run false (40 * (text.length + 50)) regular ⟨[], text⟩ [] fun after groups =>
      some (after, groups) with
    | some (after, groups) =>
      if hasGroup then (groups.lookup 1).getD [] else Text.ofNat (text.length - after.left.length)
    | none => if hasGroup then [] else ['0']

/-- The result of an operator. -/
def operate (sign : String) (left right : Text) : Except String Text := do
  let arithmetic (f : Int → Int → Int) : Except String Text := do
    return Text.ofInt (f (← number left) (← number right))
  let divide (f : Int → Int → Int) : Except String Text := do
    if (← number right) = 0 then throw "division by zero" else arithmetic f
  let compare (numbers : Int → Int → Bool) (texts : List Nat → List Nat → Bool) : Text :=
    match number left, number right with
    | .ok a, .ok b => ofBool (numbers a b)
    | _, _ => ofBool (texts (left.map Char.toNat) (right.map Char.toNat))
  match sign with
  | "+" => arithmetic (· + ·)
  | "-" => arithmetic (· - ·)
  | "*" => arithmetic (· * ·)
  | "/" => divide Int.tdiv
  | "%" => divide Int.tmod
  | "<" => return compare (· < ·) (· < ·)
  | "<=" => return compare (· ≤ ·) fun a b => !decide (b < a)
  | "=" | "==" => return compare (· == ·) (· == ·)
  | "!=" => return compare (· != ·) (· != ·)
  | ">=" => return compare (fun a b => b ≤ a) fun a b => !decide (a < b)
  | ">" => return compare (fun a b => b < a) fun a b => b < a
  | ":" => return matched left right
  | "|" => return if isFalse left then (if isFalse right then ['0'] else right) else left
  | _ => return if isFalse left || isFalse right then ['0'] else left

/-- The operators by rank, weaker ones first. -/
def ranks : List (List String) :=
  [["|"], ["&"], ["<", "<=", "=", "==", "!=", ">=", ">"], ["+", "-"], ["*", "/", "%"], [":"]]

/-- Operands of a rank joined behind a first one. -/
def joined (signs : List String) (operand : Computing Text) (first : Text) : Nat → Computing Text
  | 0 => return first
  | fuel + 1 => do
    match ← get with
    | next :: rest =>
      if signs.contains (Text.string next) then
        set rest
        if rest.isEmpty then throw s!"syntax error: missing argument after '{Text.string next}'"
        joined signs operand (← operate next.string first (← operand)) fuel
      else return first
    | [] => return first

/-- An expression of operators of some ranks. -/
def ranked (operand : Computing Text) : List (List String) → Computing Text
  | [] => operand
  | signs :: rest => do
    joined signs (ranked operand rest) (← ranked operand rest) ((← get).length + 1)

/-- An expression with parentheses down to a depth. -/
def expression : Nat → Computing Text
  | 0 => throw "syntax error"
  | depth + 1 => ranked (do
    match ← get with
    | ['('] :: rest =>
      set rest
      let value ← expression depth
      match ← get with
      | [')'] :: rest => set rest; return value
      | _ => throw "syntax error: expecting ')'"
    | ['l', 'e', 'n', 'g', 't', 'h'] :: text :: rest =>
      set rest
      return Text.ofNat text.length
    | ['i', 'n', 'd', 'e', 'x'] :: text :: chars :: rest =>
      set rest
      return Text.ofNat (position chars text)
    | ['s', 'u', 'b', 's', 't', 'r'] :: text :: start :: count :: rest =>
      set rest
      return part text start count
    | value :: rest => set rest; return value
    | [] => throw "syntax error: missing argument") ranks
where
  /-- The place of the first character that is one of some characters; zero if there is none. -/
  position (chars text : Text) : Nat :=
    let before := text.takeWhile fun c => !chars.contains c
    if before.length = text.length then 0 else before.length + 1
  /-- The part of a text from a place, counted from one, with a number of characters. -/
  part (text start count : Text) : Text :=
    match Text.toNat? start, Text.toNat? count with
    | some (start + 1), some count => (text.drop start).take count
    | _, _ => []

end Computing

/-- Compute an expression. -/
def expr : Tool := fun arguments => do
  match (Computing.expression 16).run arguments with
  | .ok (value, []) =>
    sayLine value
    return if Computing.isFalse value then 1 else 0
  | .ok (_, extra :: _) =>
    warn s!"expr: syntax error: unexpected argument '{extra.string}'"
    return 2
  | .error sentence =>
    warn s!"expr: {sentence}"
    return 2

end Micromag.Shell.Tool
