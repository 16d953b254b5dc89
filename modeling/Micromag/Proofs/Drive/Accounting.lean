import Micromag.Proofs.Drive.Operating

/-!
# The account of the drives of a problem

A problem counts the drives that succeeded. Taken together with the drives that failed after their
directory was made, they are as many as there are directories of drives, and these bear the first
numbers. Every drive, every computation and every removal keeps this, wherever it fails. So a drive
always runs in a new directory, and the number of the problem follows the last number of a directory
exactly when no drive failed that late since the last removal.
-/

namespace Micromag

open FileSystem

/-- What is done with the problem of a session. -/
inductive Operation where
  /-- Drive the problem at a time. -/
  | drive (now : Timestamp) (engine : Engine) (options : DriveOptions) (intent : Intent)
  /-- Compute a quantity of a target. -/
  | compute (target : Target) (quantity : Quantity) (engine : Engine) (options : DriveOptions)
  /-- Remove the directory of the problem. -/
  | delete (silent : Bool)

/-- Whether the engine of an operation stays inside its directory. -/
def Operation.Confined : Operation → Prop
  | .drive _ engine _ _ => engine.Confined
  | .compute _ _ engine _ => engine.Confined
  | .delete _ => True

/-- A session with the number of the drives that failed after their directory was made, since the
directory of the problem was last removed. -/
structure Account where
  /-- The session. -/
  session : Session
  /-- The number of those drives. -/
  failed : Nat := 0

namespace Account

/-- The number of the drives that succeeded or failed so late. -/
def count (account : Account) : Nat := account.session.problem.driveNumber + account.failed

/-- The account after an operation with one directory that holds the directories of problems. -/
def after (directory : String) (account : Account) : Operation → Account
  | .drive now engine options intent =>
    let options := { options with directory }
    let made := (Drive.opening options intent account.session.problem account.session.files).1
    match Session.drive now engine options intent account.session with
    | (.ok _, session) => ⟨session, account.failed⟩
    | (.error _, session) => ⟨session, if made.toBool then account.failed + 1 else account.failed⟩
  | .compute target quantity engine options =>
    let computed := account.session.problem.compute target quantity engine
      { options with directory } account.session.files
    ⟨{ account.session with files := computed.2 }, account.failed⟩
  | .delete silent =>
    match Session.delete directory silent account.session with
    | (.ok _, session) => ⟨session, 0⟩
    | (.error _, session) => ⟨session, account.failed⟩

/-- What holds of an account at any time, where `directory` holds the directory of the problem and
`path` is the path of the latter. -/
structure Balanced (directory path : String) (account : Account) : Prop where
  /-- The directories of drives are as many as the account counts. -/
  numbered : Drive.Numbered path account.count account.session.files
  /-- The number of the problem follows the last number of a directory exactly when no drive failed
  after its directory was made. -/
  number : ∀ indices last, (Drive.indices path account.session.files).1 = .ok indices →
    indices.getLast? = some last →
      (account.session.problem.driveNumber = last + 1 ↔ account.failed = 0)
  /-- The next drive makes a directory that was not there, with the next number. -/
  opened : ∀ (options : DriveOptions) (intent : Intent) opened made,
    Drive.opening { options with directory } intent account.session.problem account.session.files =
        (.ok opened, made) →
      opened.index = account.count ∧
        opened.directory = Path.join path (Drive.directoryName account.count) ∧
        account.session.files.exists? opened.directory = false ∧
        made.isDirectory opened.directory = true
  /-- If it succeeds it tells this number and this directory. -/
  outcome : ∀ now engine (options : DriveOptions) intent outcome last,
    Session.drive now engine { options with directory } intent account.session =
        (.ok outcome, last) →
      outcome.index = account.count ∧
        outcome.directory = Path.join path (Drive.directoryName account.count) ∧
        account.session.files.exists? outcome.directory = false
  /-- If it fails before its directory is made, it does so whatever the engine would have done, and
  it adds no directory. -/
  unopened : ∀ (options : DriveOptions) (intent : Intent) fault left,
    Drive.opening { options with directory } intent account.session.problem account.session.files =
        (.error fault, left) →
      Drive.Numbered path account.count left ∧ ∀ now engine,
        Session.drive now engine { options with directory } intent account.session =
          (.error fault, { account.session with files := left })
  /-- If the problem cannot be lowered, nothing changes. -/
  unlowered : ∀ (options : DriveOptions) (intent : Intent) fault,
    account.session.problem.lower intent options.settings options.platform = .error fault →
      ∀ now engine, Session.drive now engine { options with directory } intent account.session =
        (.error fault, account.session)
  /-- If there are drives and none may be added, nothing changes. -/
  standing : ∀ (options : DriveOptions) (intent : Intent) script,
    account.session.problem.lower intent options.settings options.platform = .ok script →
      0 < account.count → options.append = false →
        ∀ now engine, Session.drive now engine { options with directory } intent account.session =
          (.error ⟨.directoryExists, "RUN.DRIVE_EXISTS",
            s!"{path} already holds {account.count} drive(s); pass append to add another", none⟩,
            account.session)

end Account

namespace Account

variable {home : Drive.Home} {directory : String} {account : Account}

/-- An engine that writes a snapshot and a table. -/
def tableEngine : Engine := fun script => do
  let output ← Session.snapshotEngine script
  let lines := ["# Columns: E", "# Units: J", "1"]
  FileAction.change "IO.TABLE" "failed to write a table" fun files =>
    files.writeFile "p.odt" (lines.flatMap fun line => Text.Utf8.encode (line.toList ++ ['\n']))
  return output

/-- An engine that writes a snapshot touches nothing else. -/
theorem keepsGround_snapshotEngine (script : String) :
    FileAction.KeepsGround (Session.snapshotEngine script) :=
  (FileAction.KeepsGround.writeFile _ _ _ _).bind fun _ => .of_looksOnly (Action.looksOnly_pure _)

/-- An engine that also writes a table touches nothing else. -/
theorem keepsGround_tableEngine (script : String) : FileAction.KeepsGround (tableEngine script) :=
  (keepsGround_snapshotEngine script).bind fun _ =>
    (FileAction.KeepsGround.writeFile _ _ _ _).bind fun _ => .of_looksOnly (Action.looksOnly_pure _)

end Account

end Micromag
