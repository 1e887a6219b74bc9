/-
Baselib.Tasks.ScanDirectoryTaskTheorems — what the tasks report together.

The reference is stated over the file system alone: the directories which
are reached from the root through listings read to their end, and the
allowed entries which are read in them. The loop over one directory gives
its part of it (`mem_scanDirectory_entries`). A task which is scheduled
stands for all that is collected below its directory, and a section of a
task only moves this to its entries and to other tasks
(`Collecting.step`), so in whatever order they run the tasks end with what is
collected below the root.
-/
import Mathlib.Algebra.BigOperators.Ring.List
import Mathlib.Algebra.Ring.Nat
import Mathlib.Data.List.Nodup
import Mathlib.Data.List.TakeWhile
import Baselib.Tasks.ScanDirectoryTask

namespace Baselib.Tasks.ScanDirectory

open Lib Transition List

variable {path : Path} {tasks : List Task} {entry : DirectoryEntry}

section

variable (cbControl : Option Control)

/-- The entry is passed without an exception. -/
def Readable (entry : DirectoryEntry) : Bool :=
  match entry.symlinkStatus, cbControl with
  | .error _, _ => false
  | .ok _, some control => (control.isEntryAllowed entry).isOk
  | .ok type, none => decide (type ≠ .other)

/-- The entry is allowed by the control token, or by default. -/
def Allowed (entry : DirectoryEntry) : Bool :=
  match entry.symlinkStatus, cbControl with
  | .error _, _ => false
  | .ok _, some control =>
    match control.isEntryAllowed entry with
    | .ok allowed => allowed
    | .error _ => false
  | .ok type, none => decide (type ≠ .other)

/-- A directory which is not a symbolic link to one. -/
def IsDirectory (entry : DirectoryEntry) : Bool :=
  match entry.symlinkStatus with
  | .ok type => decide (type = .directory)
  | .error _ => false

/-- The allowed ones among the entries read before the first exception. -/
def readEntries (entries : List DirectoryEntry) : List DirectoryEntry :=
  (entries.takeWhile (Readable cbControl)).filter (Allowed cbControl)

/-! ## The loop over one directory -/

/-- What an entry adds to the scan. -/
def Scan.extend (scan : Scan) (entry : DirectoryEntry) : Scan :=
  if Allowed cbControl entry then
    { scan with
      entries := scan.entries ++ [entry]
      dirsToScan :=
        if IsDirectory entry then scan.dirsToScan ++ [entry.path] else scan.dirsToScan }
  else scan

/-- The loop goes on behind an entry which can be read, and fails at any
other. -/
theorem scanLoop_cons (error : Option ErrorCode) (entry : DirectoryEntry)
    (rest : List DirectoryEntry) (scan : Scan) :
    (Readable cbControl entry = true ∧
      scanLoop cbControl error (entry :: rest) scan =
        scanLoop cbControl error rest (scan.extend cbControl entry)) ∨
    (Readable cbControl entry = false ∧ ∃ failure,
      scanLoop cbControl error (entry :: rest) scan = { scan with failure := some failure }) := by
  rw [scanLoop]
  cases hstatus : entry.symlinkStatus with
  | error ec => exact .inr ⟨by simp [Readable, hstatus], _, rfl⟩
  | ok type =>
    cases cbControl with
    | none =>
      by_cases hother : type = .other
      · exact .inr ⟨by simp [Readable, hstatus, hother], .notRegular entry.path, if_pos hother⟩
      · refine .inl ⟨by simp [Readable, hstatus, hother], ?_⟩
        simp [hother, Scan.add, Scan.extend, Allowed, IsDirectory, hstatus]
    | some control =>
      cases hallowed : control.isEntryAllowed entry with
      | error ec =>
        exact .inr ⟨by simp [Readable, hstatus, hallowed, Except.isOk, Except.toBool],
          .isEntryAllowed ec, by simp only [hallowed]⟩
      | ok allowed =>
        refine .inl ⟨by simp [Readable, hstatus, hallowed, Except.isOk, Except.toBool], ?_⟩
        cases allowed with
        | false => simp [Scan.extend, Allowed, hstatus, hallowed]
        | true => simp [Scan.add, Scan.extend, Allowed, IsDirectory, hstatus, hallowed]

theorem scanLoop_eq (error : Option ErrorCode) (entries : List DirectoryEntry) :
    ∀ scan : Scan, scan.failure = none →
      (scanLoop cbControl error entries scan).entries =
          scan.entries ++ readEntries cbControl entries ∧
        (scanLoop cbControl error entries scan).dirsToScan =
          scan.dirsToScan ++
            ((readEntries cbControl entries).filter IsDirectory).map DirectoryEntry.path ∧
        ((scanLoop cbControl error entries scan).failure = none ↔
          (∀ entry ∈ entries, Readable cbControl entry = true) ∧ error = none) := by
  induction entries with
  | nil =>
    intro scan _
    simp [scanLoop, readEntries]
  | cons entry rest ih =>
    intro scan hscan
    rcases scanLoop_cons cbControl error entry rest scan with
      ⟨hread, heq⟩ | ⟨hread, failure, heq⟩
    · have hextend : (scan.extend cbControl entry).failure = none := by
        unfold Scan.extend
        split <;> exact hscan
      obtain ⟨hentries, hdirs, hfailure⟩ := ih _ hextend
      have hreadEntries : readEntries cbControl (entry :: rest) =
          (if Allowed cbControl entry then [entry] else []) ++ readEntries cbControl rest := by
        rw [readEntries, takeWhile_cons_of_pos hread, filter_cons]
        split <;> rfl
      rw [heq, hentries, hdirs, hfailure, hreadEntries]
      simp only [forall_mem_cons, hread, true_and, and_true]
      unfold Scan.extend
      by_cases hallowed : Allowed cbControl entry
      · by_cases hdir : IsDirectory entry
        · simp [hallowed, hdir]
        · simp [hallowed, hdir]
      · simp [hallowed]
    · have hreadEntries : readEntries cbControl (entry :: rest) = [] := by
        rw [readEntries, takeWhile_cons_of_neg (by simp [hread])]
        rfl
      rw [heq, hreadEntries]
      simp [hread]

end

/-! ## The reference -/

section

variable (fs : FileSystem) (cbControl : Option Control)

/-- The directory is opened and its listing is read to its end. -/
def ListedAs (path : Path) (listing : Listing) : Prop :=
  fs.openDirectory path = .ok listing ∧ listing.error = none ∧
    ∀ entry ∈ listing.entriesOf path, Readable cbControl entry = true

/-- The directories which are reached from the root: each is an allowed real
directory in the listing, read to its end, of one which is reached. -/
inductive Reached (root : Path) : Path → Prop where
  | root : Reached root root
  | sub {path : Path} {listing : Listing} {entry : DirectoryEntry} :
      Reached root path → ListedAs fs cbControl path listing →
      entry ∈ listing.entriesOf path → Allowed cbControl entry = true →
      IsDirectory entry = true → Reached root entry.path

/-- An allowed entry which is read in the listing of a directory which is
reached. -/
def Reports (root : Path) (entry : DirectoryEntry) : Prop :=
  ∃ path listing, Reached fs cbControl root path ∧ fs.openDirectory path = .ok listing ∧
    entry ∈ readEntries cbControl (listing.entriesOf path)

/-- The directories for which the scan of one schedules tasks. -/
def children (path : Path) : List Path :=
  let scan := scanDirectory fs cbControl path
  if scan.failure.isSome then [] else scan.dirsToScan

theorem scanDirectory_of_error {ec : ErrorCode} (h : fs.openDirectory path = .error ec) :
    (scanDirectory fs cbControl path).entries = [] ∧ children fs cbControl path = [] := by
  simp only [children, scanDirectory, h]
  split <;> exact ⟨rfl, rfl⟩

theorem scanDirectory_of_ok {listing : Listing} (h : fs.openDirectory path = .ok listing) :
    (scanDirectory fs cbControl path).entries = readEntries cbControl (listing.entriesOf path) ∧
      ((scanDirectory fs cbControl path).failure = none ↔ ListedAs fs cbControl path listing) ∧
      (scanDirectory fs cbControl path).dirsToScan =
        ((readEntries cbControl (listing.entriesOf path)).filter IsDirectory).map
          DirectoryEntry.path := by
  have hscan : scanDirectory fs cbControl path =
      scanLoop cbControl listing.error (listing.entriesOf path) ⟨[], [], none⟩ := by
    rw [scanDirectory, h]
  obtain ⟨hentries, hdirs, hfailure⟩ :=
    scanLoop_eq cbControl listing.error (listing.entriesOf path) ⟨[], [], none⟩ rfl
  rw [hscan, hentries, hdirs, hfailure]
  refine ⟨rfl, ⟨fun hread => ⟨h, hread.2, hread.1⟩, fun hlisted => ⟨hlisted.2.2, hlisted.2.1⟩⟩, rfl⟩

/-- What the tasks of one directory report, by the file system. -/
theorem mem_scanDirectory_entries : entry ∈ (scanDirectory fs cbControl path).entries ↔
      ∃ listing, fs.openDirectory path = .ok listing ∧
        entry ∈ readEntries cbControl (listing.entriesOf path) := by
  cases hopen : fs.openDirectory path with
  | error ec =>
    rw [(scanDirectory_of_error fs cbControl hopen).1]
    simp
  | ok listing =>
    rw [(scanDirectory_of_ok fs cbControl hopen).1]
    simp

theorem readEntries_of_readable {entries : List DirectoryEntry}
    (h : ∀ entry ∈ entries, Readable cbControl entry = true) :
    readEntries cbControl entries = entries.filter (Allowed cbControl) := by
  rw [readEntries, takeWhile_eq_self_iff.mpr h]

theorem mem_children {dir : Path} : dir ∈ children fs cbControl path ↔
      ∃ listing, ListedAs fs cbControl path listing ∧
        ∃ entry ∈ listing.entriesOf path, Allowed cbControl entry = true ∧
          IsDirectory entry = true ∧ entry.path = dir := by
  cases hopen : fs.openDirectory path with
  | error ec =>
    rw [(scanDirectory_of_error fs cbControl hopen).2]
    simp [ListedAs, hopen]
  | ok listing =>
    obtain ⟨-, hfailure, hdirs⟩ := scanDirectory_of_ok fs cbControl hopen
    have honly : ∀ listing', ListedAs fs cbControl path listing' → listing' = listing := by
      intro listing' hlisted
      exact Except.ok.inj (hlisted.1.symm.trans hopen)
    by_cases hlisted : ListedAs fs cbControl path listing
    · have hnone := hfailure.mpr hlisted
      have hsome : ((scanDirectory fs cbControl path).failure.isSome) = false := by rw [hnone]; rfl
      simp only [children, hsome, Bool.false_eq_true, if_false, hdirs,
        readEntries_of_readable cbControl hlisted.2.2, mem_map, mem_filter]
      constructor
      · rintro ⟨entry, ⟨⟨hmem, hallowed⟩, hdir⟩, hpath⟩
        exact ⟨listing, hlisted, entry, hmem, hallowed, hdir, hpath⟩
      · rintro ⟨listing', hlisted', entry, hmem, hallowed, hdir, hpath⟩
        obtain rfl := honly listing' hlisted'
        exact ⟨entry, ⟨⟨hmem, hallowed⟩, hdir⟩, hpath⟩
    · have hsome : ((scanDirectory fs cbControl path).failure.isSome) = true := by
        rw [Option.isSome_iff_ne_none]
        exact mt hfailure.mp hlisted
      simp only [children, hsome, if_true, not_mem_nil, false_iff]
      rintro ⟨listing', hlisted', -⟩
      exact hlisted (honly listing' hlisted' ▸ hlisted')

theorem mem_entriesOf {listing : Listing} :
    entry ∈ listing.entriesOf path → ∃ name, entry.path = path ++ [name] := by
  rw [Listing.entriesOf, mem_map]
  rintro ⟨e, -, rfl⟩
  exact ⟨e.1, rfl⟩

/-- The directories which are scanned, each below the one which schedules
it. -/
def scanForest : Forest Path where
  children := children fs cbControl
  height path := fs.depth + 1 - path.length
  descends path dir hdir := by
    obtain ⟨listing, hlisted, entry, hmem, -, -, rfl⟩ := (mem_children fs cbControl).mp hdir
    obtain ⟨name, hname⟩ := mem_entriesOf hmem
    have hle := fs.length_le path listing hlisted.1
    rw [hname, length_append, length_singleton]
    omega

/-- The entries a task reports of its directory. -/
def emit (path : Path) : List DirectoryEntry := (scanDirectory fs cbControl path).entries

theorem reached_iff_below {root : Path} :
    Reached fs cbControl root path ↔ (scanForest fs cbControl).Below root path := by
  constructor
  · intro h
    induction h with
    | root => exact .refl
    | sub _ hlisted hmem hallowed hdir ih =>
      exact ih.tail ((mem_children fs cbControl).mpr
        ⟨_, hlisted, _, hmem, hallowed, hdir, rfl⟩)
  · intro h
    induction h with
    | refl => exact .root
    | tail _ hstep ih =>
      obtain ⟨listing, hlisted, entry, hmem, hallowed, hdir, rfl⟩ :=
        (mem_children fs cbControl).mp hstep
      exact ih.sub hlisted hmem hallowed hdir

/-- What is collected below the root is the reference. -/
theorem mem_collected_iff {root : Path} :
    entry ∈ (scanForest fs cbControl).collected (emit fs cbControl) root ↔
      Reports fs cbControl root entry := by
  rw [Forest.mem_collected]
  simp only [emit, mem_scanDirectory_entries, ← reached_iff_below, Reports]
  constructor
  · rintro ⟨path, hreached, listing, hopen, hmem⟩
    exact ⟨path, listing, hreached, hopen, hmem⟩
  · rintro ⟨path, listing, hreached, hopen, hmem⟩
    exact ⟨path, hreached, listing, hopen, hmem⟩

/-! ## Nothing is reported twice -/

theorem nodup_paths {listing : Listing} (hopen : fs.openDirectory path = .ok listing) :
    ((listing.entriesOf path).map DirectoryEntry.path).Nodup := by
  have hnames := fs.nodup path listing hopen
  have hinj : Function.Injective fun name : String => path ++ [name] := by
    intro a b hab
    simpa using hab
  have hmap : (listing.entriesOf path).map DirectoryEntry.path =
      (listing.entries.map Prod.fst).map fun name => path ++ [name] := by
    simp [Listing.entriesOf]
  rw [hmap]
  exact hnames.map hinj

theorem readEntries_sublist (entries : List DirectoryEntry) :
    (readEntries cbControl entries).Sublist entries :=
  filter_sublist.trans (takeWhile_sublist _)

theorem nodup_emit (path : Path) : (emit fs cbControl path).Nodup := by
  cases hopen : fs.openDirectory path with
  | error ec =>
    rw [emit, (scanDirectory_of_error fs cbControl hopen).1]
    exact nodup_nil
  | ok listing =>
    rw [emit, (scanDirectory_of_ok fs cbControl hopen).1]
    exact (nodup_paths fs hopen).of_map.sublist (readEntries_sublist cbControl _)

theorem nodup_children (path : Path) : (children fs cbControl path).Nodup := by
  cases hopen : fs.openDirectory path with
  | error ec =>
    rw [(scanDirectory_of_error fs cbControl hopen).2]
    exact nodup_nil
  | ok listing =>
    simp only [children]
    split
    · exact nodup_nil
    · rw [(scanDirectory_of_ok fs cbControl hopen).2.2]
      exact (nodup_paths fs hopen).sublist
        ((filter_sublist.trans (readEntries_sublist cbControl _)).map _)

theorem path_of_mem_emit
    (h : entry ∈ emit fs cbControl path) : ∃ name, entry.path = path ++ [name] := by
  obtain ⟨listing, -, hmem⟩ := (mem_scanDirectory_entries fs cbControl).mp h
  exact mem_entriesOf ((readEntries_sublist cbControl _).subset hmem)

theorem path_of_mem_children {dir : Path} (h : dir ∈ children fs cbControl path) :
    ∃ name, dir = path ++ [name] := by
  obtain ⟨listing, -, entry, hmem, -, -, rfl⟩ := (mem_children fs cbControl).mp h
  exact mem_entriesOf hmem

/-- The entries below a directory are all different, and behind its path. -/
theorem nodup_collected (root : Path) :
    ((scanForest fs cbControl).collected (emit fs cbControl) root).Nodup ∧
      ∀ entry ∈ (scanForest fs cbControl).collected (emit fs cbControl) root,
        ∃ name rest, entry.path = root ++ name :: rest := by
  induction root using (scanForest fs cbControl).children_induction with
  | h root ih =>
    have hbelow : ∀ dir ∈ children fs cbControl root,
        ∀ entry ∈ (scanForest fs cbControl).collected (emit fs cbControl) dir,
          ∃ name name' rest, dir = root ++ [name] ∧
            entry.path = root ++ name :: name' :: rest := by
      intro dir hdir entry hentry
      obtain ⟨name, rfl⟩ := path_of_mem_children fs cbControl hdir
      obtain ⟨name', rest, hpath⟩ := (ih _ hdir).2 entry hentry
      exact ⟨name, name', rest, rfl, by simpa using hpath⟩
    rw [Forest.collected_eq]
    refine ⟨nodup_append.mpr ⟨nodup_emit fs cbControl root, ?_, ?_⟩, ?_⟩
    · refine nodup_flatMap.mpr ⟨fun dir hdir => (ih dir hdir).1, ?_⟩
      refine (nodup_children fs cbControl root).imp_of_mem ?_
      intro dir dir' hdir hdir' hne entry hentry hentry'
      obtain ⟨name, name₁, rest, rfl, hpath⟩ := hbelow dir hdir entry hentry
      obtain ⟨name', name₂, rest', rfl, hpath'⟩ := hbelow dir' hdir' entry hentry'
      rw [hpath] at hpath'
      have hname := append_cancel_left hpath'
      simp only [List.cons.injEq] at hname
      exact hne (by rw [hname.1])
    · rintro entry hentry entry' hentry' rfl
      obtain ⟨dir, hdir, hbelowDir⟩ := mem_flatMap.mp hentry'
      obtain ⟨name, hpath⟩ := path_of_mem_emit fs cbControl hentry
      obtain ⟨name', name₁, rest, -, hpath'⟩ := hbelow dir hdir entry hbelowDir
      rw [hpath] at hpath'
      have hlength := congrArg List.length hpath'
      simp only [length_append, length_cons, length_nil] at hlength
      omega
    · intro entry hentry
      rcases mem_append.mp hentry with hentry | hentry
      · obtain ⟨name, hpath⟩ := path_of_mem_emit fs cbControl hentry
        exact ⟨name, [], hpath⟩
      · obtain ⟨dir, hdir, hbelowDir⟩ := mem_flatMap.mp hentry
        obtain ⟨name, name', rest, -, hpath⟩ := hbelow dir hdir entry hbelowDir
        exact ⟨name, name' :: rest, hpath⟩

/-! ## The tasks -/

/-- The directories a task is still to scan or to push a task for. -/
def Task.remaining (task : Task) : List Path :=
  match task.phase with
  | .scheduled => [task.path]
  | .pushing dirs => dirs
  | .ready => []

/-- What a task has reported, and what will be of the directories it is
still to hand on. -/
def Task.total (task : Task) : List DirectoryEntry :=
  task.entries ++ task.remaining.flatMap
    ((scanForest fs cbControl).collected (emit fs cbControl))

/-- A task which is scheduled has reported nothing; one which was executed
has the outcome of its scan. -/
structure Sound (root : Path) (task : Task) : Prop where
  scheduled : task.phase = .scheduled → task.entries = [] ∧ task.failure = none
  executed : task.phase ≠ .scheduled →
    task.entries = emit fs cbControl task.path ∧
      task.failure = (scanDirectory fs cbControl task.path).failure
  reached : Reached fs cbControl root task.path
  pushing : ∀ dirs, task.phase = .pushing dirs → ∀ dir ∈ dirs,
    dir ∈ children fs cbControl task.path

structure Collecting (root : Path) (tasks : List Task) : Prop where
  sound : ∀ task ∈ tasks, Sound fs cbControl root task
  total : (tasks.flatMap (Task.total fs cbControl)).Perm
    ((scanForest fs cbControl).collected (emit fs cbControl) root)

theorem Collecting.init (root : Path) : Collecting fs cbControl root (init root) where
  sound task htask := by
    obtain rfl := mem_singleton.mp htask
    exact ⟨fun _ => ⟨rfl, rfl⟩, fun h => absurd rfl h, .root, nofun⟩
  total := by
    simp [ScanDirectory.init, Task.total, Task.remaining]

variable {fs cbControl} {root : Path}

theorem Reached.child {dir : Path} (h : Reached fs cbControl root path)
    (hdir : dir ∈ children fs cbControl path) : Reached fs cbControl root dir :=
  (reached_iff_below fs cbControl).mpr (((reached_iff_below fs cbControl).mp h).tail hdir)

/-- Rewriting one task, and adding others, keeps what is collected when the
new tasks make up for the old one. -/
theorem Collecting.rewrite {k : Nat} {task task' : Task} {added : List Task}
    (h : Collecting fs cbControl root tasks) (hk : tasks[k]? = some task)
    (hsound : ∀ t ∈ task' :: added, Sound fs cbControl root t)
    (htotal : ((task' :: added).flatMap (Task.total fs cbControl)).Perm
      (task.total fs cbControl)) :
    Collecting fs cbControl root (tasks.set k task' ++ added) where
  sound t ht := by
    rcases mem_append.mp ht with ht | ht
    · rcases mem_or_eq_of_mem_set ht with ht | rfl
      · exact h.sound t ht
      · exact hsound t (by simp)
    · exact hsound t (by simp [ht])
  total := by
    have hold := Slots.perm_cons_eraseIdx hk
    have hnew : (tasks.set k task' ++ added).Perm ((task' :: added) ++ tasks.eraseIdx k) := by
      refine ((Slots.set_perm hk task').append_right added).trans ?_
      rw [cons_append, cons_append]
      exact perm_append_comm.cons _
    have hmoved := hnew.flatMap_right (Task.total fs cbControl)
    have hback := hold.flatMap_right (Task.total fs cbControl)
    have hsplit : ((task' :: added) ++ tasks.eraseIdx k).flatMap (Task.total fs cbControl) =
        (task' :: added).flatMap (Task.total fs cbControl) ++
          (tasks.eraseIdx k).flatMap (Task.total fs cbControl) := flatMap_append
    rw [hsplit] at hmoved
    rw [flatMap_cons] at hback
    exact (hmoved.trans (htotal.append_right _)).trans (hback.symm.trans h.total)

/-- The section under the lock turns the directory of the task into its
entries and the directories it is to push. -/
theorem total_execute {task : Task} (hphase : task.phase = .scheduled)
    (hsound : Sound fs cbControl root task) :
    (task.execute fs cbControl).total fs cbControl = task.total fs cbControl := by
  have hentries := (hsound.scheduled hphase).1
  have hremaining : (task.execute fs cbControl).remaining = children fs cbControl task.path := by
    by_cases hfailure : (scanDirectory fs cbControl task.path).failure.isSome = true
    · simp only [Task.execute, Task.remaining, children, hfailure, if_true]
    · simp only [Task.execute, Task.remaining, children, hfailure, Bool.false_eq_true, if_false]
  rw [Task.total, hremaining, Task.total, hentries, nil_append]
  simp only [Task.remaining, hphase, flatMap_singleton]
  rw [Forest.collected_eq]
  rfl

theorem Sound.execute {task : Task} (hsound : Sound fs cbControl root task) :
    Sound fs cbControl root (task.execute fs cbControl) where
  scheduled h := by
    simp only [Task.execute] at h
    split at h <;> cases h
  executed _ := ⟨rfl, rfl⟩
  reached := hsound.reached
  pushing dirs h dir hdir := by
    have hchildren : dir ∈ children fs cbControl task.path := by
      by_cases hfailure : (scanDirectory fs cbControl task.path).failure.isSome = true
      · simp [Task.execute, hfailure] at h
      · simp only [Task.execute, hfailure, Bool.false_eq_true, if_false, Phase.pushing.injEq] at h
        simpa only [children, hfailure, Bool.false_eq_true, if_false, h] using hdir
    exact hchildren

theorem Collecting.step {tasks' : List Task} {l : Label}
    (h : Collecting fs cbControl root tasks) (hstep : step fs cbControl tasks l = some tasks') :
    Collecting fs cbControl root tasks' := by
  cases l with
  | execute k =>
    simp only [ScanDirectory.step] at hstep
    split at hstep
    · next path entries failure hk =>
        cases hstep
        have hsound := h.sound _ (mem_of_getElem? hk)
        have hrewrite := @Collecting.rewrite _ _ _ _ _ _ _ [] h hk (by
          simpa using hsound.execute) (by
          simpa using .of_eq (total_execute rfl hsound))
        rwa [append_nil] at hrewrite
    · cases hstep
  | push k =>
    simp only [ScanDirectory.step] at hstep
    split at hstep
    · next path dir dirs entries failure hk =>
        cases hstep
        have hsound := h.sound _ (mem_of_getElem? hk)
        refine h.rewrite hk ?_ ?_
        · rintro t ht
          rcases mem_cons.mp ht with rfl | ht
          · exact ⟨nofun, fun _ => hsound.executed nofun, hsound.reached, fun _ hdirs d hd =>
              hsound.pushing _ rfl d (by cases hdirs; exact mem_cons_of_mem _ hd)⟩
          · obtain rfl := mem_singleton.mp ht
            exact ⟨fun _ => ⟨rfl, rfl⟩, fun hne => absurd rfl hne,
              hsound.reached.child (hsound.pushing _ rfl dir mem_cons_self), nofun⟩
        · simp only [flatMap_cons, flatMap_nil, Task.total, Task.remaining,
            append_nil, nil_append, append_assoc]
          exact perm_append_comm.append_left _
    · cases hstep
  | finish k =>
    simp only [ScanDirectory.step] at hstep
    split at hstep
    · next path entries failure hk =>
        cases hstep
        have hsound := h.sound _ (mem_of_getElem? hk)
        have hrewrite := @Collecting.rewrite _ _ _ _ _ _ ⟨path, .ready, entries, failure⟩ [] h hk
          (by
            intro t ht
            obtain rfl := mem_singleton.mp ht
            exact ⟨nofun, fun _ => hsound.executed nofun, hsound.reached, nofun⟩)
          (by simp [Task.total, Task.remaining])
        rwa [append_nil] at hrewrite
    · cases hstep

theorem run_collecting {labels : List Label}
    (hrun : run (step fs cbControl) (init root) labels = some tasks) :
    Collecting fs cbControl root tasks :=
  run_invariant (fun _ _ _ h _ hstep => Collecting.step h hstep)
    (Collecting.init fs cbControl root) along_true hrun

/-! ## Every run ends -/

/-- The directories which are scanned from one. -/
def directories (fs : FileSystem) (cbControl : Option Control) (path : Path) : Nat :=
  ((scanForest fs cbControl).collected (fun path => [path]) path).length

theorem directories_eq (fs : FileSystem) (cbControl : Option Control) (path : Path) :
    directories fs cbControl path =
      ((children fs cbControl path).map (directories fs cbControl)).sum + 1 := by
  rw [directories, Forest.collected_eq, length_append, length_flatMap, Nat.add_comm]
  rfl

/-- The steps which a task and those it is to push have left. -/
def stepsLeft (fs : FileSystem) (cbControl : Option Control) (task : Task) : Nat :=
  match task.phase with
  | .scheduled => 3 * directories fs cbControl task.path - 1
  | .pushing dirs => (dirs.map fun dir => 3 * directories fs cbControl dir).sum + 1
  | .ready => 0

theorem stepsLeft_execute (fs : FileSystem) (cbControl : Option Control) {task : Task}
    (hphase : task.phase = .scheduled) :
    stepsLeft fs cbControl (task.execute fs cbControl) + 1 ≤ stepsLeft fs cbControl task := by
  have hscheduled : stepsLeft fs cbControl task = 3 * directories fs cbControl task.path - 1 := by
    simp only [stepsLeft, hphase]
  rw [hscheduled, directories_eq]
  by_cases hfailure : (scanDirectory fs cbControl task.path).failure.isSome = true
  · simp only [stepsLeft, Task.execute, hfailure, if_true]
    omega
  · have hchildren : children fs cbControl task.path =
        (scanDirectory fs cbControl task.path).dirsToScan := by
      simp only [children, hfailure, Bool.false_eq_true, if_false]
    simp only [stepsLeft, Task.execute, hfailure, Bool.false_eq_true, if_false, hchildren]
    have hsum := sum_map_mul_left (scanDirectory fs cbControl task.path).dirsToScan
      (directories fs cbControl) 3
    omega

theorem stepsLeft_step {tasks' : List Task} {l : Label}
    (hstep : step fs cbControl tasks l = some tasks') :
    (tasks'.map (stepsLeft fs cbControl)).sum + 1 ≤
      (tasks.map (stepsLeft fs cbControl)).sum := by
  cases l with
  | execute k =>
    simp only [step] at hstep
    split at hstep
    · next path entries failure hk =>
        cases hstep
        have hset := Slots.sum_set_add (stepsLeft fs cbControl) hk
          (Task.execute fs cbControl ⟨path, .scheduled, entries, failure⟩)
        have hless := @stepsLeft_execute fs cbControl ⟨path, .scheduled, entries, failure⟩ rfl
        omega
    · cases hstep
  | push k =>
    simp only [step] at hstep
    split at hstep
    · next path dir dirs entries failure hk =>
        cases hstep
        have hset := Slots.sum_set_add (stepsLeft fs cbControl) hk
          ⟨path, .pushing dirs, entries, failure⟩
        have hpos := directories_eq fs cbControl dir
        rw [map_append, sum_append, map_singleton, sum_singleton]
        simp only [stepsLeft, map_cons, sum_cons] at hset ⊢
        omega
    · cases hstep
  | finish k =>
    simp only [step] at hstep
    split at hstep
    · next path entries failure hk =>
        cases hstep
        have hset := Slots.sum_set_add (stepsLeft fs cbControl) hk
          ⟨path, .ready, entries, failure⟩
        simp only [stepsLeft, map_nil, sum_nil] at hset ⊢
        omega
    · cases hstep

/-- A run has at most three steps for each directory. -/
theorem length_le {labels : List Label}
    (hrun : run (step fs cbControl) (init root) labels = some tasks) :
    labels.length < 3 * directories fs cbControl root := by
  have hcosts := @run_potential _ _ _ (fun _ => True) _ (fun _ => 1) (fun _ => 0)
    (fun _ _ _ _ _ => trivial) (fun _ _ _ _ hstep => stepsLeft_step hstep) _ _ _ trivial hrun
  have hpos := directories_eq fs cbControl root
  simp only [init, map_singleton, sum_singleton, stepsLeft, map_const',
    sum_replicate_nat, Nat.mul_one, Nat.mul_zero] at hcosts
  omega

/-- While a task is not ready, some step is possible. -/
theorem exists_step (h : ¬ Finished tasks) :
    ∃ l tasks', step fs cbControl tasks l = some tasks' := by
  simp only [Finished, not_forall] at h
  obtain ⟨⟨path, phase, entries, failure⟩, hmem, hphase⟩ := h
  obtain ⟨k, hk⟩ := getElem?_of_mem hmem
  cases phase with
  | scheduled => exact ⟨.execute k, _, by simp only [step, hk]; rfl⟩
  | pushing dirs =>
    cases dirs with
    | nil => exact ⟨.finish k, _, by simp only [step, hk]; rfl⟩
    | cons dir dirs => exact ⟨.push k, _, by simp only [step, hk]; rfl⟩
  | ready => exact absurd rfl hphase

/-! ## What the tasks report -/

theorem Reached.exists_append (h : Reached fs cbControl root path) :
    ∃ rest, path = root ++ rest := by
  induction h with
  | root => exact ⟨[], by simp⟩
  | sub _ _ hmem _ _ ih =>
    obtain ⟨rest, rfl⟩ := ih
    obtain ⟨name, hname⟩ := mem_entriesOf hmem
    exact ⟨rest ++ [name], by rw [hname, append_assoc]⟩

theorem symlinkStatus_of_isDirectory (h : IsDirectory entry = true) :
    entry.symlinkStatus = .ok .directory := by
  unfold IsDirectory at h
  split at h
  · next type hstatus => rw [hstatus, of_decide_eq_true h]
  · cases h

/-- A scan which failed has no task for a directory it had seen. -/
theorem Collecting.not_child_of_failed
    (h : Collecting fs cbControl root tasks) {task task' : Task} (htask : task ∈ tasks)
    (hfailed : task.failure ≠ none) (htask' : task' ∈ tasks) (name : String) :
    task'.path ≠ task.path ++ [name] := by
  intro hpath
  have hsound := h.sound task htask
  have hfailure : (scanDirectory fs cbControl task.path).failure ≠ none := by
    by_cases hphase : task.phase = .scheduled
    · exact absurd (hsound.scheduled hphase).2 hfailed
    · rwa [← (hsound.executed hphase).2]
  have hreached := (h.sound task' htask').reached
  rw [hpath] at hreached
  obtain ⟨rest, hrest⟩ := hsound.reached.exists_append
  generalize hchild : task.path ++ [name] = child at hreached
  cases hreached with
  | root =>
    have hlength := congrArg List.length (hrest ▸ hchild)
    simp only [length_append, length_singleton] at hlength
    omega
  | sub _ hlisted hmem _ _ =>
    obtain ⟨name', hname'⟩ := mem_entriesOf hmem
    rw [hname'] at hchild
    obtain ⟨hsame, -⟩ := append_inj' hchild rfl
    rw [← hsame] at hlisted
    exact hfailure (((scanDirectory_of_ok fs cbControl hlisted.1).2.1).mpr hlisted)

/-- Every order of the sections ends, after at most three for each directory,
and the tasks then have reported every allowed entry which is read in a
directory reached from the root, and each once. A task is only made for the
root and for real directories, and none below a directory whose scan failed. -/
theorem scan_complete {labels : List Label} {tasks : List Task}
    (hrun : run (step fs cbControl) (init root) labels = some tasks) :
    labels.length < 3 * directories fs cbControl root ∧
    (¬ Finished tasks → ∃ l tasks', step fs cbControl tasks l = some tasks') ∧
    (Finished tasks → (reported tasks).Nodup ∧
      ∀ entry, entry ∈ reported tasks ↔ Reports fs cbControl root entry) ∧
    (∀ task ∈ tasks, task.path = root ∨ ∃ path listing entry,
      Reached fs cbControl root path ∧ ListedAs fs cbControl path listing ∧
        entry ∈ listing.entriesOf path ∧ entry.path = task.path ∧
        entry.symlinkStatus = .ok .directory) ∧
    (∀ task ∈ tasks, task.failure ≠ none → ∀ task' ∈ tasks, ∀ name,
      task'.path ≠ task.path ++ [name]) := by
  have hcollecting := run_collecting hrun
  refine ⟨length_le hrun, exists_step, fun hfinished => ?_, fun task htask => ?_,
    fun task htask hfailed task' htask' =>
      hcollecting.not_child_of_failed htask hfailed htask'⟩
  · have hreported : tasks.flatMap (Task.total fs cbControl) = reported tasks := by
      refine List.flatMap_congr fun task htask => ?_
      simp only [Task.total, Task.remaining, hfinished task htask, List.flatMap_nil,
        List.append_nil]
    have hperm := hcollecting.total
    rw [hreported] at hperm
    exact ⟨hperm.nodup_iff.mpr (nodup_collected fs cbControl root).1,
      fun entry => hperm.mem_iff.trans (mem_collected_iff fs cbControl)⟩
  · have hreached := (hcollecting.sound task htask).reached
    generalize hpath : task.path = path at hreached
    cases hreached with
    | root => exact .inl rfl
    | sub hparent hlisted hmem _ hdir =>
      exact .inr ⟨_, _, _, hparent, hlisted, hmem, rfl, symlinkStatus_of_isDirectory hdir⟩

/-- A tree with a directory, and a link back to the root. -/
def linkedTree : FileSystem where
  openDirectory path :=
    if path = [] then .ok ⟨[("a", .ok .directory), ("back", .ok .symlink)], none⟩
    else if path = ["a"] then .ok ⟨[("x", .ok .regular)], none⟩
    else .error 2
  depth := 1
  length_le path listing h := by
    split_ifs at h with hroot ha
    · simp [hroot]
    · simp [ha]
  nodup path listing h := by
    split_ifs at h with hroot ha
    · cases h
      decide
    · cases h
      decide

theorem scan_complete_linkedTree :
    ∃ tasks, run (step linkedTree none) (init [])
        [.execute 0, .push 0, .execute 1, .finish 0, .finish 1] = some tasks ∧
      (reported tasks).Nodup ∧ Reports linkedTree none [] ⟨["back"], .ok .symlink⟩ ∧
      Reports linkedTree none [] ⟨["a", "x"], .ok .regular⟩ := by
  have hrun : run (step linkedTree none) (init [])
      [.execute 0, .push 0, .execute 1, .finish 0, .finish 1] =
      some [⟨[], .ready, [⟨["a"], .ok .directory⟩, ⟨["back"], .ok .symlink⟩], none⟩,
        ⟨["a"], .ready, [⟨["a", "x"], .ok .regular⟩], none⟩] := by
    decide
  obtain ⟨hnodup, hmem⟩ := (scan_complete hrun).2.2.1 (by unfold Finished; decide)
  exact ⟨_, hrun, hnodup, (hmem _).mp (by decide), (hmem _).mp (by decide)⟩

/-! ## A listing which fails part-way -/

/-- A directory which is allowed and can be opened, though the listing it is
in may not be read to its end. -/
inductive Openable (fs : FileSystem) (cbControl : Option Control) (root : Path) : Path → Prop where
  | root : Openable fs cbControl root root
  | sub {path : Path} {listing : Listing} {entry : DirectoryEntry} :
      Openable fs cbControl root path → fs.openDirectory path = .ok listing →
      entry ∈ listing.entriesOf path → Allowed cbControl entry = true →
      IsDirectory entry = true → Openable fs cbControl root entry.path

/-- The listing of the root fails behind its only entry. -/
def brokenTree : FileSystem where
  openDirectory path :=
    if path = [] then .ok ⟨[("a", .ok .directory)], some 5⟩
    else if path = ["a"] then .ok ⟨[("x", .ok .regular)], none⟩
    else .error 2
  depth := 1
  length_le path listing h := by
    split_ifs at h with hroot ha
    · simp [hroot]
    · simp [ha]
  nodup path listing h := by
    split_ifs at h with hroot ha
    · cases h
      decide
    · cases h
      decide

/-- The entry in the directory which was seen is not reported, though both
directories can be opened. -/
theorem brokenTree_unscanned :
    ∃ tasks listing, run (step brokenTree none) (init []) [.execute 0] = some tasks ∧
      Finished tasks ∧ Openable brokenTree none [] ["a"] ∧
      brokenTree.openDirectory ["a"] = .ok listing ∧
      ⟨["a", "x"], .ok .regular⟩ ∈ listing.entriesOf ["a"] ∧
      Allowed none ⟨["a", "x"], .ok .regular⟩ = true ∧
      ⟨["a", "x"], .ok .regular⟩ ∉ reported tasks := by
  refine ⟨[⟨[], .ready, [⟨["a"], .ok .directory⟩], some (.increment 5)⟩],
    ⟨[("x", .ok .regular)], none⟩, by decide, by unfold Finished; decide, ?_, rfl, by decide,
    by decide, by decide⟩
  exact @Openable.sub _ _ _ _ _ ⟨["a"], .ok .directory⟩ .root rfl (by decide) (by decide)
    (by decide)

end

end Baselib.Tasks.ScanDirectory
