import Micromag.Shell.Text

/-!
# Commands

A script of the shell is read into commands. Words keep their parts until they are expanded: text,
which may be quoted, parameters, the output of commands, and arithmetic.
-/

namespace Micromag.Shell

/-- Where a redirection leads. -/
inductive RedirectionKind where
  /-- Read from a file. -/
  | input
  /-- Write to a file from its start. -/
  | output
  /-- Write to the end of a file. -/
  | append
  /-- Read and write a file. -/
  | both
  /-- Stand for another descriptor. -/
  | duplicate
  /-- Read a text of the script itself. -/
  | document
deriving DecidableEq, Repr, Inhabited

mutual

/-- A part of a word. -/
inductive WordPart where
  /-- Text. -/
  | literal (quoted : Bool) (text : Text)
  /-- The value of a parameter, changed in some way. -/
  | parameter (quoted : Bool) (name : Text) (change : Change)
  /-- The output of a command. -/
  | substitution (quoted : Bool) (command : Command)
  /-- The value of an arithmetic expression. -/
  | arithmetic (quoted : Bool) (expression : List WordPart)

/-- What is done to the value of a parameter. Some changes also apply to an empty value. -/
inductive Change where
  /-- Nothing. -/
  | none
  /-- Its length is taken. -/
  | length
  /-- A word stands in for a missing value. -/
  | default (onEmpty : Bool) (word : List WordPart)
  /-- A word becomes a missing value. -/
  | assign (onEmpty : Bool) (word : List WordPart)
  /-- A missing value is a fault. -/
  | require (onEmpty : Bool) (word : List WordPart)
  /-- A word takes the place of a value. -/
  | alternative (onEmpty : Bool) (word : List WordPart)
  /-- A part that matches a pattern is cut off. -/
  | trim (atEnd longest : Bool) (pattern : List WordPart)

/-- A command. -/
inductive Command where
  /-- Assignments and words, on a line of the script. -/
  | simple (line : Nat) (assignments : List (Text × List WordPart)) (words : List (List WordPart))
      (redirections : List Redirection)
  /-- Commands of which each reads what the one before writes. -/
  | pipeline (stages : List Command)
  /-- A command with the opposite result. -/
  | negate (command : Command)
  /-- A second command if the first succeeds. -/
  | whenTrue (first second : Command)
  /-- A second command if the first fails. -/
  | whenFalse (first second : Command)
  /-- One command after the other. -/
  | sequence (commands : List Command)
  /-- A command that is not waited for. -/
  | background (command : Command)
  /-- A command in a shell of its own. -/
  | subshell (command : Command)
  /-- One of two commands. -/
  | branch (condition yes no : Command)
  /-- A command again and again while a condition holds, or until it does. -/
  | loop (untilTrue : Bool) (condition body : Command)
  /-- A command for each of some words, or for each argument. -/
  | each (name : Text) (words : Option (List (List WordPart))) (body : Command)
  /-- The command of the first pattern that a word matches. -/
  | choose (word : List WordPart) (cases : List (List (List WordPart) × Command))
  /-- The definition of a function. -/
  | define (name : Text) (body : Command)
  /-- A command with redirections. -/
  | redirected (command : Command) (redirections : List Redirection)

/-- A redirection of a descriptor. -/
inductive Redirection where
  /-- The descriptor, where it leads, and the word that says where. -/
  | mk (descriptor : Nat) (kind : RedirectionKind) (target : List WordPart)

end

instance : Inhabited WordPart := ⟨.literal false []⟩

instance : Inhabited Change := ⟨.none⟩

instance : Inhabited Command := ⟨.sequence []⟩

instance : Inhabited Redirection := ⟨.mk 0 .input []⟩

/-- A word of a script. -/
abbrev Word := List WordPart

/-- Neighbouring texts of one kind put together. -/
def Word.merged : Word → Word
  | .literal q a :: .literal r b :: rest =>
    if q = r then Word.merged (.literal q (a ++ b) :: rest)
    else .literal q a :: Word.merged (.literal r b :: rest)
  | part :: rest => part :: Word.merged rest
  | [] => []
termination_by word => word.length

end Micromag.Shell
