import Micromag.Shell.Tool.Lines

/-!
# Tools for files

Copying, moving, linking, making and removing files and directories, and taking paths apart.
-/

namespace Micromag.Shell.Tool

open Work

/-- A path with a name added to it. -/
def below (directory : String) (path : Text) : String :=
  Path.join directory ((Path.fileName? path.string).getD "")

/-- The path that a file gets at a target: in it, if it is a directory. -/
def targetPath (target : Text) (source : Text) : Work String := do
  if ← look (·.isDirectory target.string) then return below target.string source
  else return target.string

/-- Apply an action to all operands but the last, with the last as their target. -/
def towardsLast (tool : String) (operands : List Text) (action : Text → Text → Work Nat) :
    Work Nat := do
  match operands.reverse with
  | [] => misuse tool "missing file operand"
  | [only] => misuse tool s!"missing destination file operand after '{only.string}'"
  | target :: sources =>
    if 2 < operands.length && !(← look (·.isDirectory target.string)) then
      warn s!"{tool}: target '{target.string}' is not a directory"
      return 1
    else forEach sources.reverse fun source => action source target

/-- Lines with their numbers in front of them, and the number of the next line. -/
def numbered (n : Nat) : List Text → Text × Nat
  | [] => ([], n)
  | line :: rest =>
    let digits := Text.ofNat n
    let (text, next) := numbered (n + 1) rest
    (List.replicate (6 - digits.length) ' ' ++ digits ++ '\t' :: line ++ text, next)

/-- Write the contents of files. -/
def cat : Tool := fun arguments => do
  let arguments := argumentsOf "" arguments
  let mut next := 1
  let mut status := 0
  for path in (if arguments.operands.isEmpty then [['-']] else arguments.operands) do
    match ← contentOf path with
    | .ok content =>
      if arguments.has 'n' then
        let (text, after) := numbered next (wholeLines content)
        say text
        next := after
      else say content
    | .error cause =>
      warn s!"cat: {Text.string path}: {cause.text}"
      status := 1
  return status

/-- Copy what is below one path to another path. -/
def copyTree (source target : String) : Nat → Work Nat
  | 0 => return 1
  | fuel + 1 => do
    if ← look (·.isDirectory source) then
      if !(← look (·.isDirectory target)) then
        let _ ← change (·.makeDirectory target)
      let names ← look fun files => ((files.list source).toOption.getD []).map (·.1)
      forEach names fun name => copyTree (Path.join source name) (Path.join target name) fuel
    else
      attempt s!"cp: cannot create regular file '{target}'" fun files => do
        files.writeFile target (← files.contentOf source)

/-- Copy files. -/
def cp : Tool := fun arguments => do
  let arguments := argumentsOf "" arguments
  let deep := arguments.has 'r' || arguments.has 'R' || arguments.has 'a'
  towardsLast "cp" arguments.operands fun source target => do
    let path ← targetPath target source
    match ← look (·.nodeOf source.string) with
    | .error cause =>
      warn s!"cp: cannot stat '{source.string}': {cause.text}"
      return 1
    | .ok (_, .directory) =>
      if deep then copyTree source.string path 64
      else
        warn s!"cp: -r not specified; omitting directory '{source.string}'"
        return 1
    | .ok (place, _) =>
      if (← look (·.nodeOf path)).toOption.any (·.1 = place) then
        warn s!"cp: '{source.string}' and '{path}' are the same file"
        return 1
      else
        attempt s!"cp: cannot create regular file '{path}'" fun files => do
          files.writeFile path (← files.contentOf source.string)

/-- Move what a path leads to. -/
def moveNode (source target : String) (files : FileSystem) : Except FileFault FileSystem := do
  let from_ ← files.locate (FileSystem.trimSlashes source) true
  match from_.node with
  | none => .error .absent
  | some _ =>
    let into ← files.locate (FileSystem.trimSlashes target) true
    return { files with tree := files.tree.move from_.place into.place }

/-- Move files. -/
def mv : Tool := fun arguments => do
  let arguments := argumentsOf "" arguments
  towardsLast "mv" arguments.operands fun source target => do
    let path ← targetPath target source
    match ← look (·.locate source.string true) with
    | .ok ⟨place, some _⟩ =>
      if (← look (·.locate path true)).toOption.any (·.place = place) then
        warn s!"mv: '{source.string}' and '{path}' are the same file"
        return 1
      else
        attempt s!"mv: cannot move '{source.string}' to '{path}'"
          (moveNode source.string path)
    | _ =>
      warn s!"mv: cannot stat '{source.string}': No such file or directory"
      return 1

/-- Link files. -/
def ln : Tool := fun arguments => do
  let arguments := argumentsOf "" arguments
  let symbolic := arguments.has 's'
  let operands := match arguments.operands with
    | [only] => [only, ['.']]
    | operands => operands
  towardsLast "ln" operands fun source target => do
    let path ← targetPath target source
    if arguments.has 'f' then
      let _ ← change (·.removeFile path)
    if symbolic then
      attempt s!"ln: failed to create symbolic link '{path}'"
        (·.makeLink path source.string)
    else if !(← look (·.exists? source.string)) then
      warn s!"ln: failed to access '{source.string}': No such file or directory"
      return 1
    else
      attempt s!"ln: failed to create hard link '{path}'" fun files => do
        files.writeFile path (← files.contentOf source.string)

/-- Remove files. -/
def rm : Tool := fun arguments => do
  let arguments := argumentsOf "" arguments
  let deep := arguments.has 'r' || arguments.has 'R'
  if arguments.operands.isEmpty && !arguments.has 'f' then misuse "rm" "missing operand"
  else forEach arguments.operands fun path => do
    match ← look (·.locate path.string true) with
    | .ok ⟨_, some .directory⟩ =>
      if deep then attempt s!"rm: cannot remove '{path.string}'" (·.removeTree path.string)
      else
        warn s!"rm: cannot remove '{path.string}': Is a directory"
        return 1
    | .ok ⟨_, some _⟩ =>
      attempt s!"rm: cannot remove '{path.string}'" (·.removeFile path.string)
    | .ok ⟨_, none⟩ | .error .absent =>
      if arguments.has 'f' then return 0
      warn s!"rm: cannot remove '{path.string}': No such file or directory"
      return 1
    | .error cause =>
      warn s!"rm: cannot remove '{path.string}': {cause.text}"
      return 1

/-- Make directories. -/
def mkdir : Tool := fun arguments => do
  let arguments := argumentsOf "m" arguments
  if arguments.operands.isEmpty then misuse "mkdir" "missing operand"
  else forEach arguments.operands fun path =>
    let what := s!"mkdir: cannot create directory '{path.string}'"
    if arguments.has 'p' then
      attempt what fun files =>
        match files.makeDirectories path.string with
        | (made, .ok _) => .ok made
        | (_, .error cause) => .error cause
    else attempt what (·.makeDirectory path.string)

/-- Remove empty directories. -/
def rmdir : Tool := fun arguments => do
  forEach (argumentsOf "" arguments).operands fun path =>
    attempt s!"rmdir: failed to remove '{path.string}'" fun files => do
      let found ← files.list path.string
      if found.isEmpty then files.removeTree path.string else .error .notEmpty

/-- Make files that are not there. -/
def touch : Tool := fun arguments => do
  forEach (argumentsOf "dtr" arguments).operands fun path => do
    if ← look (·.exists? path.string) then return 0
    else attempt s!"touch: cannot touch '{path.string}'" (·.writeFile path.string [])

/-- The names in a directory, in order. -/
def namesIn (files : FileSystem) (path : String) (hidden : Bool) : List Text :=
  let names := ((files.list path).toOption.getD []).map fun entry => Text.ofString entry.1
  let shown := if hidden then names else names.filter (·.head? ≠ some '.')
  shown.mergeSort fun a b => decide (a.map Char.toNat ≤ b.map Char.toNat)

/-- List files and directories. -/
def ls : Tool := fun arguments => do
  let arguments := argumentsOf "" arguments
  let operands := if arguments.operands.isEmpty then [['.']] else arguments.operands
  let hidden := arguments.has 'a' || arguments.has 'A'
  let dots : List Text := if arguments.has 'a' then [['.'], ['.', '.']] else []
  let many := 1 < operands.length
  let isPlain (path : Text) : Work Bool := do
    return arguments.has 'd' || !(← look (·.isDirectory path.string))
  let mut status := 0
  let mut shown := false
  for path in operands do
    if !(← look (·.exists? (Text.string path))) then
      warn s!"ls: cannot access '{Text.string path}': No such file or directory"
      status := 2
    else if ← isPlain path then
      sayLine path
      shown := true
  for path in operands do
    if (← look (·.exists? (Text.string path))) && !(← isPlain path) then
      if shown then sayLine []
      if many then sayLine (path ++ [':'])
      let names ← look (namesIn · (Text.string path) hidden)
      say (Text.ofLines (dots ++ names))
      shown := true
  return status

/-- The last name of a path, without slashes behind it. -/
def lastName (path : Text) : Text :=
  let trimmed := (path.reverse.dropWhile (· = '/')).reverse
  if trimmed.isEmpty then (if path.isEmpty then [] else ['/'])
  else (trimmed.reverse.takeWhile (· ≠ '/')).reverse

/-- The path of the directory that a path leads into. -/
def directoryName (path : Text) : Text :=
  let trimmed := path.reverse.dropWhile (· = '/')
  let parent := (trimmed.dropWhile (· ≠ '/')).dropWhile (· = '/')
  if !parent.isEmpty then parent.reverse
  else if path.head? = some '/' then ['/'] else ['.']

/-- A text without an end, unless nothing would be left. -/
def withoutEnd (ending text : Text) : Text :=
  if ending.isSuffixOf text && ending ≠ text then text.take (text.length - ending.length) else text

/-- Write the last names of paths. -/
def basename : Tool := fun arguments => do
  let arguments := argumentsOf "s" arguments
  match arguments.has 'a' || arguments.has 's', arguments.operands with
  | _, [] => misuse "basename" "missing operand"
  | true, paths =>
    for path in paths do
      sayLine (withoutEnd ((arguments.value? 's').getD []) (lastName path))
    return 0
  | false, [path] => sayLine (lastName path); return 0
  | false, [path, ending] => sayLine (withoutEnd ending (lastName path)); return 0
  | false, _ :: _ :: extra :: _ => misuse "basename" s!"extra operand '{extra.string}'"

/-- Write the directories of paths. -/
def dirname : Tool := fun arguments => do
  match (argumentsOf "" arguments).operands with
  | [] => misuse "dirname" "missing operand"
  | paths =>
    for path in paths do
      sayLine (directoryName path)
    return 0

/-- Write the targets of links. -/
def readlink : Tool := fun arguments => do
  let arguments := argumentsOf "" arguments
  let follows := arguments.has 'f' || arguments.has 'e' || arguments.has 'm'
  forEach arguments.operands fun path => do
    match ← look (·.locate path.string (!follows)) with
    | .ok ⟨_, some (.link target)⟩ => sayLine (Text.ofString target); return 0
    | .ok ⟨place, _⟩ =>
      if follows then
        sayLine (Text.ofString (FileSystem.pathOf place))
        return 0
      else return 1
    | .error _ => return 1

/-- Whether a mode lets files be carried out, if it says anything about that. -/
def modeAllows? (mode : Text) : Option Bool :=
  match mode.filter fun c => !"ugoa".toList.contains c with
  | '+' :: rights => if rights.contains 'x' then some true else none
  | '-' :: rights => if rights.contains 'x' then some false else none
  | '=' :: rights => some (rights.contains 'x')
  | digits => (digits.reverse.drop 2).head?.map fun c => c.toNat % 2 = 1

/-- Change the modes of files. -/
def chmod : Tool := fun arguments => do
  match arguments with
  | [] => misuse "chmod" "missing operand"
  | [mode] => misuse "chmod" s!"missing operand after '{mode.string}'"
  | mode :: paths => forEach paths fun path => do
    let allow (files : FileSystem) : Except FileFault FileSystem :=
      files.setRunnable path.string ((modeAllows? mode).getD (files.isRunnable path.string))
    match ← change allow with
    | none => return 0
    | some cause =>
      warn s!"chmod: cannot access '{path.string}': {cause.text}"
      return 1

/-- Write the input to the output and to files. -/
def tee : Tool := fun arguments => do
  let arguments := argumentsOf "" arguments
  let text ← readInput
  say text
  forEach arguments.operands fun path =>
    attempt s!"tee: {path.string}" fun files =>
      let before := if arguments.has 'a' then (files.contentOf path.string).toOption.getD [] else []
      files.writeFile path.string (before ++ Text.toBytes text)

end Micromag.Shell.Tool
