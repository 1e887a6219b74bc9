/-
Baselib.Tasks.ScanDirectoryTask — the scan of a directory tree by tasks
which push one another: `tasks/utils/ScanDirectoryTask.h`.

A file system says for each path what opening it as a directory gives: an
error, or the entries in the order they are listed, with the error, if any,
which ends the listing. A symbolic link is an entry of its own kind, so
where it leads is not part of the model. The tree is finite, and a directory
lists a name once.

A task lists its directory under its lock in one section, and then pushes a
task for each directory it saw, one at a time and without the lock, while
others run. A label is such a section, for the task of that number.
-/
import Baselib.Lib.Checked
import Baselib.Lib.Forest
import Baselib.Lib.Slots
import Baselib.Lib.Transition

namespace Baselib.Tasks.ScanDirectory

open Lib

abbrev Path := List String

abbrev ErrorCode := Nat

inductive FileType where
  | regular
  | directory
  | symlink
  /-- `fs::is_other` -/
  | other
  deriving DecidableEq

/-- `fs::directory_entry`, with what `symlink_status()` gives. -/
structure DirectoryEntry where
  path : Path
  symlinkStatus : Except ErrorCode FileType
  deriving DecidableEq

structure Listing where
  entries : List (String × Except ErrorCode FileType)
  /-- What `++it` throws after the last of them. -/
  error : Option ErrorCode

def Listing.entriesOf (listing : Listing) (path : Path) : List DirectoryEntry :=
  listing.entries.map fun entry => ⟨path ++ [entry.1], entry.2⟩

/-- A finite directory tree. -/
structure FileSystem where
  openDirectory : Path → Except ErrorCode Listing
  depth : Nat
  length_le : ∀ path listing, openDirectory path = .ok listing → path.length ≤ depth
  nodup : ∀ path listing, openDirectory path = .ok listing →
    (listing.entries.map Prod.fst).Nodup

/-- `DirectoryScannerControlToken`; `isEntryAllowed` may throw. -/
structure Control where
  isErrorAllowed : ErrorCode → Bool
  isEntryAllowed : DirectoryEntry → Except ErrorCode Bool

/-- The exception a task fails with. -/
inductive Failure where
  /-- "Cannot open directory ..." -/
  | cannotOpenDirectory (path : Path) (ec : ErrorCode)
  /-- "Path ... not a regular file, directory or a symlink" -/
  | notRegular (path : Path)
  | symlinkStatus (ec : ErrorCode)
  | isEntryAllowed (ec : ErrorCode)
  | increment (ec : ErrorCode)
  deriving DecidableEq

/-! ## One directory -/

/-- `m_entries`, `dirsToScan` and the exception of the section. -/
structure Scan where
  entries : List DirectoryEntry
  dirsToScan : List Path
  failure : Option Failure
  deriving DecidableEq

def Scan.add (scan : Scan) (entry : DirectoryEntry) (type : FileType) : Scan :=
  { scan with
    dirsToScan :=
      if type = .directory then scan.dirsToScan ++ [entry.path] else scan.dirsToScan
    entries := scan.entries ++ [entry] }

/-- The loop over the entries. -/
def scanLoop (cbControl : Option Control) (error : Option ErrorCode) :
    List DirectoryEntry → Scan → Scan
  | [], scan => { scan with failure := error.map .increment }
  | entry :: rest, scan =>
    match entry.symlinkStatus with
    | .error ec => { scan with failure := some (.symlinkStatus ec) }
    | .ok type =>
      match cbControl with
      | some control =>
        match control.isEntryAllowed entry with
        | .error ec => { scan with failure := some (.isEntryAllowed ec) }
        | .ok false => scanLoop cbControl error rest scan
        | .ok true => scanLoop cbControl error rest (scan.add entry type)
      | none =>
        if type = .other then { scan with failure := some (.notRegular entry.path) }
        else scanLoop cbControl error rest (scan.add entry type)

/-- What `onExecute` does under the lock. -/
def scanDirectory (fs : FileSystem) (cbControl : Option Control) (path : Path) : Scan :=
  match fs.openDirectory path with
  | .error ec =>
    if cbControl.any (·.isErrorAllowed ec) then ⟨[], [], none⟩
    else ⟨[], [], some (.cannotOpenDirectory path ec)⟩
  | .ok listing => scanLoop cbControl listing.error (listing.entriesOf path) ⟨[], [], none⟩

/-! ## The tasks -/

inductive Phase where
  | scheduled
  /-- With the directories it has still to push a task for. -/
  | pushing (dirsToScan : List Path)
  | ready
  deriving DecidableEq

structure Task where
  path : Path
  phase : Phase := .scheduled
  entries : List DirectoryEntry := []
  failure : Option Failure := none
  deriving DecidableEq

inductive Label where
  | execute (k : Nat)
  | push (k : Nat)
  | finish (k : Nat)

section

variable (fs : FileSystem) (cbControl : Option Control)

/-- The section under the lock: after an exception the task is ready, and
pushes nothing. -/
def Task.execute (task : Task) : Task :=
  let scan := scanDirectory fs cbControl task.path
  { task with
    phase := if scan.failure.isSome then .ready else .pushing scan.dirsToScan
    entries := scan.entries
    failure := scan.failure }

/-- The state is the list of the tasks there have been. -/
def step (tasks : List Task) : Label → Option (List Task)
  | .execute k =>
    match tasks[k]? with
    | some ⟨path, .scheduled, entries, failure⟩ =>
      some (tasks.set k (Task.execute fs cbControl ⟨path, .scheduled, entries, failure⟩))
    | _ => none
  | .push k =>
    match tasks[k]? with
    | some ⟨path, .pushing (dir :: dirs), entries, failure⟩ =>
      some (tasks.set k ⟨path, .pushing dirs, entries, failure⟩ ++ [{ path := dir }])
    | _ => none
  | .finish k =>
    match tasks[k]? with
    | some ⟨path, .pushing [], entries, failure⟩ =>
      some (tasks.set k ⟨path, .ready, entries, failure⟩)
    | _ => none

end

/-- The scan is seeded with one task. -/
def init (root : Path) : List Task := [{ path := root }]

def Finished (tasks : List Task) : Prop := ∀ task ∈ tasks, task.phase = .ready

/-- The entries of all tasks. -/
def reported (tasks : List Task) : List DirectoryEntry := tasks.flatMap Task.entries

end Baselib.Tasks.ScanDirectory
