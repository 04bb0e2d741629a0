import CargoUnikernel.Library.Inodes
import CargoUnikernel.Library.Text
import CargoUnikernel.Library.Transition
import Mathlib.Data.List.Nodup

/-
  The embedded files, written into the cache directory.

  Every process writes the files in place and leaves the
  marker at the end. One that finds the marker writes
  nothing. Directories and permissions are left out.

  Main declarations:
    * `Dir.entries`, `Embedded`, `restored`
    * `Pc`, `advance`, `system`
    * `Embedded.Complete`, `Alone`
    * `invariant_of_alone`
    * `complete_of_marker`
-/

------------------------------------------------------------
-- What Is Embedded
------------------------------------------------------------

namespace CargoUnikernel

namespace Assets

open Transition

/- The names on the way from the top of a tree. -/
abbrev Path := List Text

/- The contents of a file. -/
abbrev Bytes := List UInt8

/- A directory that is embedded in the program. -/
inductive Dir
| mk (files : List (Path × Bytes)) (dirs : List Dir)

mutual

/- The files in the order in which they are extracted. -/
def Dir.entries : Dir → List (Path × Bytes)
| .mk files dirs => files ++ entriesOf dirs

/- The files of some directories, one after another. -/
def entriesOf : List Dir → List (Path × Bytes)
| [] => []
| dir :: dirs => dir.entries ++ entriesOf dirs

end

/- A manifest is packaged under another name. -/
def manifestName : Text := "Cargo.toml.dist".toList

/- The name that cargo looks for. -/
def restoredName : Text := "Cargo.toml".toList

/- The last name on the path is the packaged one. -/
def IsManifest (path : Path) : Prop :=
  path.getLast? = some manifestName

instance (path : Path) : Decidable (IsManifest path) := by
  unfold IsManifest
  infer_instance

/- What an extracted file is called in the end. -/
def restored (path : Path) : Path :=
  if IsManifest path then
    path.dropLast ++ [restoredName]
  else
    path

/- Two trees in which no two files end up as one. -/
structure Embedded where
  build : Dir
  guest : Dir
  build_distinct : (build.entries.map Prod.fst).Nodup
  guest_distinct :
    (guest.entries.map fun entry =>
      restored entry.1).Nodup

/-
  A file of one of the two directories that are unpacked.
-/
inductive Loc
| build (path : Path)
| guest (path : Path)
deriving DecidableEq

/- All that `extract` writes. -/
def Embedded.writes (assets : Embedded) :
    List (Loc × Bytes) :=
  assets.build.entries.map (fun e => (.build e.1, e.2)) ++
    assets.guest.entries.map fun e => (.guest e.1, e.2)

/- The files by inodes, as a rename moves them. -/
abbrev Files := Inodes Loc UInt8

/- A file of either tree under its final name. -/
def Embedded.expected (assets : Embedded) :
    Loc → Option Bytes
| .build path => assets.build.entries.lookup path
| .guest path =>
    (assets.guest.entries.map fun e =>
      (restored e.1, e.2)).lookup path

/- The two trees hold the embedded files and no others. -/
def Embedded.Complete
    (assets : Embedded) (files : Files) : Prop :=
  ∀ loc, files.content loc = assets.expected loc

/-
  The order in which a process lists the directories. Each
  is listed once, and those of the embedded files are among
  them.
-/
structure Listing (assets : Embedded) where
  dirs : Nat → List Path
  distinct : ∀ p, (dirs p).Nodup
  covers :
    ∀ p, ∀ entry ∈ assets.guest.entries,
      entry.1.dropLast ∈ dirs p

------------------------------------------------------------
-- Processes
------------------------------------------------------------

/- Where a process is in `materialize`. -/
inductive Pc
| start
| opening (todo : List (Loc × Bytes))
| filling
    (file : Nat) (bytes : Bytes) (todo : List (Loc × Bytes))
| walking (dirs found : List Path)
| restoring (found : List Path)
| marking
| done
| failed

/- Past the check of the marker and not at the end. -/
def Pc.Active : Pc → Prop
| .start | .done | .failed => False
| _ => True

/- The unpacked files, and whether the marker is there. -/
structure Cache where
  files : Files
  complete : Bool

/- The packaged manifest of a directory. -/
def manifestIn (dir : Path) : Loc :=
  .guest (dir ++ [manifestName])

/- The manifest that cargo looks for. -/
def restoredIn (dir : Path) : Loc :=
  .guest (dir ++ [restoredName])

/- A listing of the directory has the manifest in it. -/
def listed (files : Files) (dir : Path) : Bool :=
  (files.names (manifestIn dir)).isSome

section

variable {assets : Embedded} (listing : Listing assets)

/- One file-system operation of process `p`. -/
def advance (p : Nat) (cache : Cache) :
    Pc → Option (Cache × Pc)
| .start =>
    if cache.complete then
      some (cache, .done)
    else
      some (cache, .opening assets.writes)
| .opening [] =>
    some (cache, .walking (listing.dirs p) [])
| .opening ((loc, bytes) :: todo) =>
    let opened := cache.files.openTruncate loc
    some
      ({ cache with files := opened.1 },
        .filling opened.2 bytes todo)
| .filling file bytes todo =>
    some
      ({ cache with files := cache.files.write file bytes },
        .opening todo)
| .walking [] found => some (cache, .restoring found)
| .walking (dir :: dirs) found =>
    some
      (cache,
        .walking dirs
          (if listed cache.files dir then
            found ++ [dir]
          else
            found))
| .restoring [] => some (cache, .marking)
| .restoring (dir :: found) =>
    match cache.files.rename (manifestIn dir)
        (restoredIn dir) with
    | some files =>
        some ({ cache with files := files }, .restoring found)
    | none => some (cache, .failed)
| .marking => some ({ cache with complete := true }, .done)
| .done => none
| .failed => none

/- What all processes share, and where each of them is. -/
structure State where
  cache : Cache
  pcs : Nat → Pc

/- Nothing was written, and no process has begun. -/
def initial : State where
  cache := { files := .empty, complete := false }
  pcs := fun _ => .start

/- One process is at another point. -/
def State.setPc (s : State) (p : Nat) (pc : Pc) : State :=
  { s with pcs := fun q => if q = p then pc else s.pcs q }

/- A process goes on, or it is killed. -/
inductive Event
| step (p : Nat)
| kill (p : Nat)

/- A step of one process; a kill leaves the files. -/
def step (s : State) : Event → Option State
| .step p =>
    (advance listing p s.cache (s.pcs p)).map fun next =>
      { s with cache := next.1 }.setPc p next.2
| .kill p => some (s.setPc p .failed)

/- Any number of processes, one operation at a time. -/
def system : System State Event where
  init s := s = initial
  step := step listing

end

/-
  No process gets past the check while another one is
  between the check and its end.
-/
def Alone (s : State) : Event → Prop
| .step p =>
    s.pcs p = .start → s.cache.complete = false →
      ∀ q, ¬ (s.pcs q).Active
| .kill _ => True

------------------------------------------------------------
-- Names and Their Restored Forms
------------------------------------------------------------

/- The path is its directory's and the name. -/
theorem eq_of_isManifest
    {path : Path} (hManifest : IsManifest path) :
    path.dropLast ++ [manifestName] = path :=
  List.dropLast_append_getLast? manifestName hManifest

/- The packaged name makes a manifest. -/
theorem isManifest_append (dir : Path) :
    IsManifest (dir ++ [manifestName]) := by
  unfold IsManifest
  exact List.getLast?_concat

/- A manifest is restored in its directory. -/
theorem restored_manifest (dir : Path) :
    restored (dir ++ [manifestName]) =
      dir ++ [restoredName] := by
  unfold restored
  rw [if_pos (isManifest_append dir),
    List.dropLast_concat]

/- Other files keep their names. -/
theorem restored_of_not_isManifest
    {path : Path} (hOther : ¬ IsManifest path) :
    restored path = path := by
  unfold restored
  rw [if_neg hOther]

/- Nothing that was restored is a manifest. -/
theorem not_isManifest_restored (path : Path) :
    ¬ IsManifest (restored path) := by
  by_cases hManifest : IsManifest path
  · unfold restored
    rw [if_pos hManifest]
    unfold IsManifest
    rw [List.getLast?_concat]
    have hNames : restoredName ≠ manifestName := by
      decide
    intro hEq
    exact hNames (Option.some.inj hEq)
  · rw [restored_of_not_isManifest hManifest]
    exact hManifest

/- The two names are not one file. -/
theorem manifestIn_ne_restoredIn (dir other : Path) :
    manifestIn dir ≠ restoredIn other := by
  intro hEq
  apply not_isManifest_restored (other ++ [manifestName])
  rw [restored_manifest]
  unfold manifestIn restoredIn at hEq
  rw [← Loc.guest.inj hEq]
  exact isManifest_append dir

/- The first of two entries is never hidden by another. -/
theorem lookup_of_nodup
    {entries : List (Path × Bytes)}
    (hNodup : (entries.map Prod.fst).Nodup)
    {entry : Path × Bytes} (hMem : entry ∈ entries) :
    entries.lookup entry.1 = some entry.2 := by
  induction entries with
  | nil => cases hMem
  | cons first rest ih =>
      rw [List.map_cons, List.nodup_cons] at hNodup
      rcases first with ⟨path, bytes⟩
      rcases List.mem_cons.1 hMem with hFirst | hRest
      · rw [hFirst]
        exact List.lookup_cons_self
      · have hOther : entry.1 ≠ path := by
          intro hEq
          apply hNodup.1
          rw [← hEq]
          exact List.mem_map.2 ⟨entry, hRest, rfl⟩
        rw [List.lookup_cons, beq_false_of_ne hOther]
        exact ih hNodup.2 hRest

/- What is not listed is not found. -/
theorem lookup_eq_none
    {entries : List (Path × Bytes)} {path : Path}
    (hAbsent : ∀ entry ∈ entries, entry.1 ≠ path) :
    entries.lookup path = none := by
  rw [List.lookup_eq_none_iff]
  intro entry hMem
  exact bne_iff_ne.2 (Ne.symm (hAbsent entry hMem))

------------------------------------------------------------
-- What the Trees Hold on the Way
------------------------------------------------------------

/- These files are there, whole. -/
def Written
    (files : Files) (entries : List (Loc × Bytes)) : Prop :=
  ∀ entry ∈ entries, files.content entry.1 = some entry.2

/- Manifests in the given directories wait to be renamed. -/
structure Restoring
    (assets : Embedded) (files : Files)
    (waiting : List Path) : Prop where
  build :
    ∀ entry ∈ assets.build.entries,
      files.content (.build entry.1) = some entry.2
  extracted :
    ∀ entry ∈ assets.guest.entries,
      (IsManifest entry.1 → entry.1.dropLast ∈ waiting) →
        files.content (.guest entry.1) = some entry.2
  moved :
    ∀ entry ∈ assets.guest.entries,
      IsManifest entry.1 → entry.1.dropLast ∉ waiting →
        files.content (.guest entry.1) = none ∧
          files.content (.guest (restored entry.1)) =
            some entry.2

/- Nothing is there but embedded and restored files. -/
def Confined (assets : Embedded) (files : Files) : Prop :=
  ∀ loc, files.content loc ≠ none →
    (∃ entry ∈ assets.writes, entry.1 = loc) ∨
      ∃ entry ∈ assets.guest.entries,
        loc = .guest (restored entry.1)

section

variable {assets : Embedded} {listing : Listing assets}
variable {files : Files}

/- What is written is what is embedded. -/
theorem mem_writes_build_iff {path : Path} {bytes : Bytes} :
    (Loc.build path, bytes) ∈ assets.writes ↔
      (path, bytes) ∈ assets.build.entries := by
  unfold Embedded.writes
  simp

theorem mem_writes_guest_iff {path : Path} {bytes : Bytes} :
    (Loc.guest path, bytes) ∈ assets.writes ↔
      (path, bytes) ∈ assets.guest.entries := by
  unfold Embedded.writes
  simp

/- No file is written twice. -/
theorem nodup_writes (assets : Embedded) :
    (assets.writes.map Prod.fst).Nodup := by
  have hGuest :
      (assets.guest.entries.map Prod.fst).Nodup := by
    have hDistinct := assets.guest_distinct
    rw [← Function.comp_def restored Prod.fst,
      ← List.map_map] at hDistinct
    exact List.Nodup.of_map restored hDistinct
  unfold Embedded.writes
  rw [List.map_append, List.map_map, List.map_map]
  apply List.Nodup.append
  · have hBuild :
        (assets.build.entries.map Prod.fst).map Loc.build =
          assets.build.entries.map
            (Prod.fst ∘ fun e => (Loc.build e.1, e.2)) := by
      rw [List.map_map]
      rfl
    rw [← hBuild]
    exact
      assets.build_distinct.map fun _ _ hEq =>
        Loc.build.inj hEq
  · have hGuestLocs :
        (assets.guest.entries.map Prod.fst).map Loc.guest =
          assets.guest.entries.map
            (Prod.fst ∘ fun e => (Loc.guest e.1, e.2)) := by
      rw [List.map_map]
      rfl
    rw [← hGuestLocs]
    exact hGuest.map fun _ _ hEq => Loc.guest.inj hEq
  · intro loc hBuild hGuest
    rw [List.mem_map] at hBuild hGuest
    rcases hBuild with ⟨_, _, rfl⟩
    rcases hGuest with ⟨_, _, hEq⟩
    cases hEq

/- Where nothing waits any more, the trees are complete. -/
theorem complete_of_restoring
    (hConfined : Confined assets files)
    (hRestoring : Restoring assets files []) :
    assets.Complete files := by
  intro loc
  cases loc with
  | build path =>
      unfold Embedded.expected
      dsimp only
      by_cases hEntry :
          ∃ entry ∈ assets.build.entries, entry.1 = path
      · rcases hEntry with ⟨entry, hMem, rfl⟩
        rw [lookup_of_nodup assets.build_distinct hMem]
        exact hRestoring.build entry hMem
      · push Not at hEntry
        rw [lookup_eq_none hEntry]
        by_contra hContent
        rcases hConfined _ hContent with
          ⟨⟨loc, bytes⟩, hMem, hLoc⟩ | ⟨_, _, hLoc⟩
        · dsimp only at hLoc
          rw [hLoc, mem_writes_build_iff] at hMem
          exact hEntry _ hMem rfl
        · cases hLoc
  | guest path =>
      unfold Embedded.expected
      dsimp only
      by_cases hEntry :
          ∃ entry ∈ assets.guest.entries,
            restored entry.1 = path
      · rcases hEntry with ⟨entry, hMem, rfl⟩
        have hDistinct :
            ((assets.guest.entries.map fun e =>
              (restored e.1, e.2)).map Prod.fst).Nodup := by
          rw [List.map_map]
          exact assets.guest_distinct
        have hLookup :=
          lookup_of_nodup hDistinct
            (List.mem_map_of_mem hMem)
        rw [hLookup]
        by_cases hManifest : IsManifest entry.1
        · exact
            (hRestoring.moved entry hMem hManifest
              List.not_mem_nil).2
        · rw [restored_of_not_isManifest hManifest]
          exact
            hRestoring.extracted entry hMem
              fun hIs => absurd hIs hManifest
      · push Not at hEntry
        have hAbsent :
            ∀ e ∈ assets.guest.entries.map fun e =>
                (restored e.1, e.2),
              e.1 ≠ path := by
          intro e hMem
          rw [List.mem_map] at hMem
          rcases hMem with ⟨entry, hMem, rfl⟩
          exact hEntry entry hMem
        rw [lookup_eq_none hAbsent]
        by_contra hContent
        rcases hConfined _ hContent with
          ⟨⟨loc, bytes⟩, hMem, hLoc⟩ | ⟨entry, hMem, hLoc⟩
        · dsimp only at hLoc
          rw [hLoc, mem_writes_guest_iff] at hMem
          by_cases hManifest : IsManifest path
          · exact
              hContent
                (hRestoring.moved _ hMem hManifest
                  List.not_mem_nil).1
          · exact
              hEntry _ hMem
                (restored_of_not_isManifest hManifest)
        · exact hEntry entry hMem (Loc.guest.inj hLoc).symm

------------------------------------------------------------
-- Single Operations
------------------------------------------------------------

section

variable {files changed : Files}

/- A write to an embedded file. -/
theorem confined_of_frame
    {loc : Loc} (hMem : ∃ entry ∈ assets.writes, entry.1 = loc)
    (hFrame : ∀ m, m ≠ loc → changed.content m = files.content m)
    (hConfined : Confined assets files) :
    Confined assets changed := by
  intro m hContent
  by_cases hSame : m = loc
  · rw [hSame]
    exact Or.inl hMem
  · rw [hFrame m hSame] at hContent
    exact hConfined m hContent

/- Other files stay as they were written. -/
theorem written_of_frame
    {loc : Loc} {entries : List (Loc × Bytes)}
    (hOther : ∀ entry ∈ entries, entry.1 ≠ loc)
    (hFrame : ∀ m, m ≠ loc → changed.content m = files.content m)
    (hWritten : Written files entries) :
    Written changed entries := by
  intro entry hMem
  rw [hFrame entry.1 (hOther entry hMem)]
  exact hWritten entry hMem

/- Only the file that is opened is cut. -/
theorem content_openTruncate_of_ne
    {loc m : Loc} (hOther : m ≠ loc) :
    (files.openTruncate loc).1.content m = files.content m := by
  rw [Inodes.content_openTruncate, if_neg hOther]

/- What is written next was not written before. -/
theorem ne_of_writes_eq
    {written todo : List (Loc × Bytes)} {loc : Loc}
    {bytes : Bytes}
    (hWrites : assets.writes = written ++ (loc, bytes) :: todo) :
    ∀ entry ∈ written, entry.1 ≠ loc := by
  intro entry hMem hEq
  have hNodup := nodup_writes assets
  rw [hWrites, List.map_append, List.map_cons] at hNodup
  have hDisjoint := List.disjoint_of_nodup_append hNodup
  have hWritten : loc ∈ written.map Prod.fst :=
    List.mem_map.2 ⟨entry, hMem, hEq⟩
  exact hDisjoint hWritten List.mem_cons_self

/- What comes next is among the writes. -/
theorem mem_writes_of_eq
    {written todo : List (Loc × Bytes)}
    {entry : Loc × Bytes}
    (hWrites : assets.writes = written ++ entry :: todo) :
    entry ∈ assets.writes := by
  rw [hWrites]
  exact List.mem_append_right _ List.mem_cons_self

/- A listed manifest is one of the embedded ones. -/
theorem exists_entry_of_listed
    (hConfined : Confined assets files)
    {dir : Path} (hListed : listed files dir = true) :
    ∃ entry ∈ assets.guest.entries,
      entry.1 = dir ++ [manifestName] := by
  have hContent : files.content (manifestIn dir) ≠ none := by
    rw [Ne, Inodes.content_eq_none_iff]
    exact Option.isSome_iff_ne_none.1 hListed
  rcases hConfined _ hContent with
    ⟨⟨loc, bytes⟩, hMem, hLoc⟩ | ⟨entry, _, hLoc⟩
  · dsimp only at hLoc
    unfold manifestIn at hLoc
    rw [hLoc, mem_writes_guest_iff] at hMem
    exact ⟨_, hMem, rfl⟩
  · apply absurd (isManifest_append dir)
    unfold manifestIn at hLoc
    rw [Loc.guest.inj hLoc]
    exact not_isManifest_restored entry.1

/- A manifest that was written is listed. -/
theorem listed_of_written
    (hWritten : Written files assets.writes)
    {entry : Path × Bytes}
    (hMem : entry ∈ assets.guest.entries)
    (hManifest : IsManifest entry.1) :
    listed files entry.1.dropLast = true := by
  have hContent :=
    hWritten _ (mem_writes_guest_iff.2 hMem)
  unfold listed manifestIn
  rw [eq_of_isManifest hManifest, Option.isSome_iff_ne_none,
    Ne, ← Inodes.content_eq_none_iff, hContent]
  exact Option.some_ne_none _

/- After the extraction, every manifest waits. -/
theorem restoring_of_written
    (hWritten : Written files assets.writes)
    {waiting : List Path}
    (hWaiting :
      ∀ entry ∈ assets.guest.entries,
        IsManifest entry.1 → entry.1.dropLast ∈ waiting) :
    Restoring assets files waiting where
  build := by
    intro entry hMem
    exact hWritten _ (mem_writes_build_iff.2 hMem)
  extracted := by
    intro entry hMem _
    exact hWritten _ (mem_writes_guest_iff.2 hMem)
  moved := by
    intro entry hMem hManifest hNot
    exact absurd (hWaiting entry hMem hManifest) hNot

/- No file is embedded under the name of a restored one. -/
theorem ne_restoredIn
    {entry manifest : Path × Bytes} {dir : Path}
    (hMem : entry ∈ assets.guest.entries)
    (hManifestMem : manifest ∈ assets.guest.entries)
    (hManifest : manifest.1 = dir ++ [manifestName]) :
    Loc.guest entry.1 ≠ restoredIn dir := by
  intro hEq
  have hPath : entry.1 = dir ++ [restoredName] :=
    Loc.guest.inj hEq
  have hRestored : restored manifest.1 = entry.1 := by
    rw [hManifest, restored_manifest, hPath]
  have hOther : ¬ IsManifest entry.1 := by
    rw [← hRestored]
    exact not_isManifest_restored manifest.1
  have hSame :
      restored manifest.1 = restored entry.1 := by
    rw [hRestored, restored_of_not_isManifest hOther]
  have hEntries :=
    List.inj_on_of_nodup_map assets.guest_distinct
      hManifestMem hMem hSame
  apply hOther
  rw [← hEntries, hManifest]
  exact isManifest_append dir

/- One manifest less waits. -/
theorem restoring_move
    {dir : Path} {waiting : List Path}
    (hFresh : dir ∉ waiting)
    {manifest : Path × Bytes}
    (hMem : manifest ∈ assets.guest.entries)
    (hPath : manifest.1 = dir ++ [manifestName])
    (hRestoring : Restoring assets files (dir :: waiting)) :
    Restoring assets
      (files.move (manifestIn dir) (restoredIn dir))
      waiting where
  build := by
    intro entry hEntry
    rw [Inodes.content_move, if_neg Loc.noConfusion,
      if_neg Loc.noConfusion]
    exact hRestoring.build entry hEntry
  extracted := by
    intro entry hEntry hWaiting
    have hOther : Loc.guest entry.1 ≠ manifestIn dir := by
      intro hEq
      have hPath : entry.1 = dir ++ [manifestName] :=
        Loc.guest.inj hEq
      rw [hPath, List.dropLast_concat] at hWaiting
      exact hFresh (hWaiting (isManifest_append dir))
    rw [Inodes.content_move,
      if_neg (ne_restoredIn hEntry hMem hPath), if_neg hOther]
    apply hRestoring.extracted entry hEntry
    intro hManifest
    exact List.mem_cons_of_mem _ (hWaiting hManifest)
  moved := by
    intro entry hEntry hManifest hNot
    rw [Inodes.content_move,
      if_neg (ne_restoredIn hEntry hMem hPath),
      Inodes.content_move]
    have hRestored :
        restored entry.1 =
          entry.1.dropLast ++ [restoredName] := by
      unfold restored
      rw [if_pos hManifest]
    by_cases hDir : entry.1.dropLast = dir
    · have hLoc : Loc.guest entry.1 = manifestIn dir := by
        unfold manifestIn
        rw [← hDir, eq_of_isManifest hManifest]
      have hNew :
          Loc.guest (restored entry.1) = restoredIn dir := by
        unfold restoredIn
        rw [hRestored, hDir]
      rw [if_pos hLoc, if_pos hNew, ← hLoc]
      constructor
      · rfl
      · apply hRestoring.extracted entry hEntry
        intro _
        rw [hDir]
        exact List.mem_cons_self
    · have hStill : entry.1.dropLast ∉ dir :: waiting := by
        rw [List.mem_cons, not_or]
        exact ⟨hDir, hNot⟩
      have hLoc : Loc.guest entry.1 ≠ manifestIn dir := by
        intro hEq
        apply hDir
        rw [Loc.guest.inj hEq, List.dropLast_concat]
      have hNew :
          Loc.guest (restored entry.1) ≠ restoredIn dir := by
        intro hEq
        apply hDir
        have hPaths := Loc.guest.inj hEq
        rw [hRestored] at hPaths
        exact (List.append_inj' hPaths rfl).1
      have hOld :
          Loc.guest (restored entry.1) ≠ manifestIn dir := by
        rw [hRestored]
        exact (manifestIn_ne_restoredIn dir _).symm
      rw [if_neg hLoc, if_neg hNew, if_neg hOld]
      exact hRestoring.moved entry hEntry hManifest hStill

/- A restored manifest is where it belongs. -/
theorem confined_move
    {dir : Path} {manifest : Path × Bytes}
    (hMem : manifest ∈ assets.guest.entries)
    (hPath : manifest.1 = dir ++ [manifestName])
    (hConfined : Confined assets files) :
    Confined assets
      (files.move (manifestIn dir) (restoredIn dir)) := by
  intro loc hContent
  rw [Inodes.content_move] at hContent
  by_cases hNew : loc = restoredIn dir
  · apply Or.inr
    refine ⟨manifest, hMem, ?_⟩
    rw [hNew, hPath, restored_manifest]
    rfl
  · rw [if_neg hNew] at hContent
    by_cases hOld : loc = manifestIn dir
    · rw [if_pos hOld] at hContent
      exact absurd rfl hContent
    · rw [if_neg hOld] at hContent
      exact hConfined loc hContent

end

------------------------------------------------------------
-- The Way of One Process
------------------------------------------------------------

/- How far a process has come, if no other is active. -/
def Progress
    (listing : Listing assets) (p : Nat) (files : Files) :
    Pc → Prop
| .opening todo =>
    ∃ written,
      assets.writes = written ++ todo ∧ Written files written
| .filling file bytes todo =>
    ∃ written loc,
      assets.writes = written ++ (loc, bytes) :: todo ∧
        Written files written ∧
        files.names loc = some file ∧ files.data file = []
| .walking dirs found =>
    Written files assets.writes ∧
      ∃ walked,
        listing.dirs p = walked ++ dirs ∧
          found = walked.filter (listed files)
| .restoring found =>
    found.Nodup ∧
      (∀ dir ∈ found,
        ∃ entry ∈ assets.guest.entries,
          entry.1 = dir ++ [manifestName]) ∧
      Restoring assets files found
| .marking => assets.Complete files
| .start | .done | .failed => True

/- Who does nothing has nothing to show. -/
theorem progress_of_not_active
    (p : Nat) (files : Files)
    {pc : Pc} (hIdle : ¬ pc.Active) :
    Progress listing p files pc := by
  cases pc with
  | start => trivial
  | done => trivial
  | failed => trivial
  | _ => exact absurd trivial hIdle

/- What one operation of an active process preserves. -/
structure Advanced
    (listing : Listing assets) (p : Nat)
    (cache : Cache) (pc : Pc) : Prop where
  confined : Confined assets cache.files
  progress : Progress listing p cache.files pc
  marked :
    cache.complete = true →
      assets.Complete cache.files ∧ ¬ pc.Active

section

variable {p : Nat} {cache next : Cache} {pc pc' : Pc}

/- As long as there is no marker, the two trees suffice. -/
theorem advanced_of_unmarked
    (hUnmarked : cache.complete = false)
    (hConfined : Confined assets cache.files)
    (hProgress : Progress listing p cache.files pc) :
    Advanced listing p cache pc where
  confined := hConfined
  progress := hProgress
  marked := by
    intro hComplete
    rw [hUnmarked] at hComplete
    cases hComplete

/- The four kinds of steps, one by one. -/
theorem advanced_opening
    {todo : List (Loc × Bytes)}
    (hUnmarked : cache.complete = false)
    (hConfined : Confined assets cache.files)
    (hProgress :
      Progress listing p cache.files (.opening todo))
    (hAdvance :
      advance listing p cache (.opening todo) =
        some (next, pc')) :
    Advanced listing p next pc' := by
  rcases hProgress with ⟨written, hWrites, hWritten⟩
  cases todo with
  | nil =>
      cases hAdvance
      rw [List.append_nil] at hWrites
      rw [← hWrites] at hWritten
      apply advanced_of_unmarked hUnmarked hConfined
      exact ⟨hWritten, [], rfl, rfl⟩
  | cons entry todo =>
      rcases entry with ⟨loc, bytes⟩
      cases hAdvance
      have hOpened :
          ∀ m, m ≠ loc →
            (cache.files.openTruncate loc).1.content m =
              cache.files.content m :=
        fun m => content_openTruncate_of_ne
      have hNamed :=
        Inodes.names_openTruncate cache.files loc loc
      rw [if_pos rfl] at hNamed
      apply advanced_of_unmarked
      · exact hUnmarked
      · exact
          confined_of_frame
            ⟨_, mem_writes_of_eq hWrites, rfl⟩ hOpened
            hConfined
      · exact
          ⟨written, loc, hWrites,
            written_of_frame (ne_of_writes_eq hWrites) hOpened
              hWritten,
            hNamed, Inodes.data_openTruncate _ _⟩

/- A file is filled with its bytes. -/
theorem advanced_filling
    {file : Nat} {bytes : Bytes} {todo : List (Loc × Bytes)}
    (hUnmarked : cache.complete = false)
    (hConfined : Confined assets cache.files)
    (hProgress :
      Progress listing p cache.files
        (.filling file bytes todo))
    (hAdvance :
      advance listing p cache (.filling file bytes todo) =
        some (next, pc')) :
    Advanced listing p next pc' := by
  rcases hProgress with
    ⟨written, loc, hWrites, hWritten, hNamed, hEmpty⟩
  cases hAdvance
  have hContent := Inodes.content_write hNamed hEmpty bytes
  have hFilled :
      ∀ m, m ≠ loc →
        (cache.files.write file bytes).content m =
          cache.files.content m := by
    intro m hOther
    rw [hContent, if_neg hOther]
  apply advanced_of_unmarked
  · exact hUnmarked
  · exact
      confined_of_frame ⟨_, mem_writes_of_eq hWrites, rfl⟩
        hFilled hConfined
  · refine ⟨written ++ [(loc, bytes)], ?_, ?_⟩
    · rw [hWrites, List.append_assoc, List.singleton_append]
    · intro entry hMem
      rcases List.mem_append.1 hMem with hOld | hNew
      · exact
          written_of_frame (ne_of_writes_eq hWrites) hFilled
            hWritten entry hOld
      · rw [List.mem_singleton.1 hNew, hContent, if_pos rfl]

/- A directory is listed. -/
theorem advanced_walking
    {dirs found : List Path}
    (hUnmarked : cache.complete = false)
    (hConfined : Confined assets cache.files)
    (hProgress :
      Progress listing p cache.files (.walking dirs found))
    (hAdvance :
      advance listing p cache (.walking dirs found) =
        some (next, pc')) :
    Advanced listing p next pc' := by
  rcases hProgress with ⟨hWritten, walked, hWalked, hFound⟩
  cases dirs with
  | nil =>
      cases hAdvance
      rw [List.append_nil] at hWalked
      rw [← hWalked] at hFound
      apply advanced_of_unmarked hUnmarked hConfined
      refine ⟨?_, ?_, ?_⟩
      · rw [hFound]
        exact (listing.distinct p).filter _
      · intro dir hDir
        rw [hFound, List.mem_filter] at hDir
        exact exists_entry_of_listed hConfined hDir.2
      · apply restoring_of_written hWritten
        intro entry hMem hManifest
        rw [hFound, List.mem_filter]
        exact
          ⟨listing.covers p entry hMem,
            listed_of_written hWritten hMem hManifest⟩
  | cons dir dirs =>
      cases hAdvance
      apply advanced_of_unmarked hUnmarked hConfined
      refine ⟨hWritten, walked ++ [dir], ?_, ?_⟩
      · rw [hWalked, List.append_assoc,
          List.singleton_append]
      · rw [List.filter_append, ← hFound,
          List.filter_singleton]
        by_cases hListed : listed cache.files dir
        · simp [hListed]
        · simp [hListed]

/- A manifest is renamed. -/
theorem advanced_restoring
    {found : List Path}
    (hUnmarked : cache.complete = false)
    (hConfined : Confined assets cache.files)
    (hProgress :
      Progress listing p cache.files (.restoring found))
    (hAdvance :
      advance listing p cache (.restoring found) =
        some (next, pc')) :
    Advanced listing p next pc' := by
  rcases hProgress with ⟨hNodup, hManifests, hRestoring⟩
  cases found with
  | nil =>
      cases hAdvance
      apply advanced_of_unmarked hUnmarked hConfined
      exact complete_of_restoring hConfined hRestoring
  | cons dir found =>
      rw [List.nodup_cons] at hNodup
      rcases hManifests dir List.mem_cons_self with
        ⟨manifest, hMem, hPath⟩
      have hContent :
          cache.files.content (manifestIn dir) =
            some manifest.2 := by
        have hExtracted := hRestoring.extracted manifest hMem
        rw [hPath, List.dropLast_concat] at hExtracted
        exact hExtracted fun _ => List.mem_cons_self
      have hRename :=
        Inodes.rename_of_content hContent (restoredIn dir)
      simp only [advance, hRename, Option.some.injEq,
        Prod.mk.injEq] at hAdvance
      rcases hAdvance with ⟨rfl, rfl⟩
      apply advanced_of_unmarked
      · exact hUnmarked
      · exact confined_move hMem hPath hConfined
      · refine ⟨hNodup.2, ?_, ?_⟩
        · intro other hOther
          exact
            hManifests other (List.mem_cons_of_mem _ hOther)
        · exact
            restoring_move hNodup.1 hMem hPath hRestoring

/- An active process keeps to its way. -/
theorem advanced_of_advance
    (hUnmarked : cache.complete = false)
    (hConfined : Confined assets cache.files)
    (hProgress : Progress listing p cache.files pc)
    (hActive : pc.Active)
    (hAdvance : advance listing p cache pc = some (next, pc')) :
    Advanced listing p next pc' := by
  cases pc with
  | start => exact absurd hActive id
  | opening todo =>
      exact
        advanced_opening hUnmarked hConfined hProgress
          hAdvance
  | filling file bytes todo =>
      exact
        advanced_filling hUnmarked hConfined hProgress
          hAdvance
  | walking dirs found =>
      exact
        advanced_walking hUnmarked hConfined hProgress
          hAdvance
  | restoring found =>
      exact
        advanced_restoring hUnmarked hConfined hProgress
          hAdvance
  | marking =>
      cases hAdvance
      exact
        { confined := hConfined
          progress := trivial
          marked := fun _ => ⟨hProgress, id⟩ }
  | done => exact absurd hActive id
  | failed => exact absurd hActive id

/- A process that begins writes all, or finds the marker. -/
theorem advance_start
    (hAdvance : advance listing p cache .start = some (next, pc')) :
    next = cache ∧
      (cache.complete = true ∧ pc' = .done ∨
        cache.complete = false ∧
          pc' = .opening assets.writes) := by
  unfold advance at hAdvance
  dsimp only at hAdvance
  by_cases hComplete : cache.complete = true
  · rw [if_pos hComplete] at hAdvance
    cases hAdvance
    exact ⟨rfl, Or.inl ⟨hComplete, rfl⟩⟩
  · rw [if_neg hComplete] at hAdvance
    cases hAdvance
    rw [Bool.not_eq_true] at hComplete
    exact ⟨rfl, Or.inr ⟨hComplete, rfl⟩⟩

end

end

------------------------------------------------------------
-- All Processes
------------------------------------------------------------

/-
  At most one process is writing, and the marker is there
  only when none is and the trees are complete.
-/
structure Invariant
    {assets : Embedded} (listing : Listing assets)
    (s : State) : Prop where
  confined : Confined assets s.cache.files
  exclusive :
    ∀ p q, (s.pcs p).Active → (s.pcs q).Active → p = q
  progress :
    ∀ p, Progress listing p s.cache.files (s.pcs p)
  marked :
    s.cache.complete = true →
      assets.Complete s.cache.files ∧
        ∀ p, ¬ (s.pcs p).Active

section

variable {assets : Embedded} {listing : Listing assets}

@[simp] theorem setPc_cache (s : State) (p : Nat) (pc : Pc) :
    (s.setPc p pc).cache = s.cache := rfl

@[simp] theorem setPc_self (s : State) (p : Nat) (pc : Pc) :
    (s.setPc p pc).pcs p = pc := by
  simp [State.setPc]

@[simp] theorem setPc_of_ne
    (s : State) {p q : Nat} (pc : Pc) (hOther : q ≠ p) :
    (s.setPc p pc).pcs q = s.pcs q := by
  simp [State.setPc, hOther]

/- Nothing is there, and no process has begun. -/
theorem invariant_initial : Invariant listing initial where
  confined := by
    intro loc hContent
    exact absurd (Inodes.content_empty loc) hContent
  exclusive := by
    intro p q hActive
    exact absurd hActive id
  progress := by
    intro p
    trivial
  marked := by
    intro hComplete
    cases hComplete

/-
  One process is set to `pc`, on a cache it has changed,
  while no other one is active.
-/
theorem invariant_setPc
    {s : State} {p : Nat} {cache : Cache} {pc : Pc}
    (hAlone : ∀ q, q ≠ p → ¬ (s.pcs q).Active)
    (hConfined : Confined assets cache.files)
    (hProgress : Progress listing p cache.files pc)
    (hMarked :
      cache.complete = true →
        assets.Complete cache.files ∧ ¬ pc.Active) :
    Invariant listing ({ s with cache := cache }.setPc p pc) where
  confined := hConfined
  exclusive := by
    intro q r hQ hR
    by_cases hQp : q = p
    · by_cases hRp : r = p
      · rw [hQp, hRp]
      · rw [setPc_of_ne _ _ hRp] at hR
        exact absurd hR (hAlone r hRp)
    · rw [setPc_of_ne _ _ hQp] at hQ
      exact absurd hQ (hAlone q hQp)
  progress := by
    intro q
    by_cases hQp : q = p
    · rw [hQp, setPc_self]
      exact hProgress
    · rw [setPc_of_ne _ _ hQp]
      exact progress_of_not_active q _ (hAlone q hQp)
  marked := by
    intro hComplete
    rcases hMarked hComplete with ⟨hAll, hIdle⟩
    refine ⟨hAll, ?_⟩
    intro q
    by_cases hQp : q = p
    · rw [hQp, setPc_self]
      exact hIdle
    · rw [setPc_of_ne _ _ hQp]
      exact hAlone q hQp

/- A process that ends leaves the invariant as it was. -/
theorem invariant_end
    {s : State} {p : Nat} {pc : Pc}
    (hInvariant : Invariant listing s) (hIdle : ¬ pc.Active) :
    Invariant listing (s.setPc p pc) where
  confined := hInvariant.confined
  exclusive := by
    intro q r hQ hR
    by_cases hQp : q = p
    · rw [hQp, setPc_self] at hQ
      exact absurd hQ hIdle
    · by_cases hRp : r = p
      · rw [hRp, setPc_self] at hR
        exact absurd hR hIdle
      · rw [setPc_of_ne _ _ hQp] at hQ
        rw [setPc_of_ne _ _ hRp] at hR
        exact hInvariant.exclusive q r hQ hR
  progress := by
    intro q
    by_cases hQp : q = p
    · rw [hQp, setPc_self]
      exact progress_of_not_active p _ hIdle
    · rw [setPc_of_ne _ _ hQp]
      exact hInvariant.progress q
  marked := by
    intro hComplete
    rcases hInvariant.marked hComplete with ⟨hAll, hNone⟩
    refine ⟨hAll, ?_⟩
    intro q
    by_cases hQp : q = p
    · rw [hQp, setPc_self]
      exact hIdle
    · rw [setPc_of_ne _ _ hQp]
      exact hNone q

/- A step that meets the condition keeps the invariant. -/
theorem invariant_step
    {s t : State} {e : Event}
    (hInvariant : Invariant listing s) (hAlone : Alone s e)
    (hStep : step listing s e = some t) :
    Invariant listing t := by
  cases e with
  | kill p =>
      cases hStep
      exact invariant_end hInvariant id
  | step p =>
      unfold step at hStep
      dsimp only at hStep
      rw [Option.map_eq_some_iff] at hStep
      rcases hStep with ⟨⟨cache, pc⟩, hAdvance, rfl⟩
      by_cases hActive : (s.pcs p).Active
      · have hOthers : ∀ q, q ≠ p → ¬ (s.pcs q).Active := by
          intro q hQp hQ
          exact hQp (hInvariant.exclusive q p hQ hActive)
        have hUnmarked : s.cache.complete = false := by
          rw [← Bool.not_eq_true]
          intro hComplete
          exact (hInvariant.marked hComplete).2 p hActive
        have hAdvanced :=
          advanced_of_advance hUnmarked hInvariant.confined
            (hInvariant.progress p) hActive hAdvance
        exact
          invariant_setPc hOthers hAdvanced.confined
            hAdvanced.progress hAdvanced.marked
      · cases hPc : s.pcs p with
        | start =>
            rw [hPc] at hAdvance
            rcases advance_start hAdvance with
              ⟨rfl, ⟨_, rfl⟩ | ⟨hUnmarked, rfl⟩⟩
            · exact invariant_end hInvariant id
            · have hNone := hAlone hPc hUnmarked
              apply invariant_setPc
              · intro q _
                exact hNone q
              · exact hInvariant.confined
              · refine ⟨[], rfl, ?_⟩
                intro entry hMem
                cases hMem
              · intro hComplete
                rw [hUnmarked] at hComplete
                cases hComplete
        | done =>
            rw [hPc] at hAdvance
            cases hAdvance
        | failed =>
            rw [hPc] at hAdvance
            cases hAdvance
        | _ =>
            rw [hPc] at hActive
            exact absurd trivial hActive

/- Every step that meets the condition keeps it. -/
theorem invariant_of_alone
    {s : State}
    (hReach : (system listing).ReachableUnder Alone s) :
    Invariant listing s := by
  apply hReach.invariant
  · intro s hInit
    rw [hInit]
    exact invariant_initial
  · intro s e t hInvariant hAlone hStep
    exact invariant_step hInvariant hAlone hStep

/-
  As long as processes that find no marker do not overlap,
  the marker is there only beside complete trees.
-/
theorem complete_of_marker
    {s : State}
    (hReach : (system listing).ReachableUnder Alone s)
    (hMarker : s.cache.complete = true) :
    assets.Complete s.cache.files :=
  ((invariant_of_alone hReach).marked hMarker).1

/- A process may go on while no other one is in between. -/
theorem reachable_of_turn
    {s t : State} {p n : Nat}
    (hReach : (system listing).ReachableUnder Alone s)
    (hIdle : ∀ q, q ≠ p → ¬ (s.pcs q).Active)
    (hRun :
      (system listing).run s (List.replicate n (.step p)) =
        some t) :
    (system listing).ReachableUnder Alone t ∧
      ∀ q, q ≠ p → ¬ (t.pcs q).Active := by
  refine
    hReach.run_of_invariant
      (P := fun u => ∀ q, q ≠ p → ¬ (u.pcs q).Active)
      ?_ hIdle hRun
  intro event hMem u next hOthers hStep
  rw [List.eq_of_mem_replicate hMem] at hStep ⊢
  constructor
  · intro hStart _ q
    by_cases hSame : q = p
    · rw [hSame, hStart]
      exact id
    · exact hOthers q hSame
  · have hMapped : step listing u (.step p) = some next :=
      hStep
    unfold step at hMapped
    dsimp only at hMapped
    rw [Option.map_eq_some_iff] at hMapped
    rcases hMapped with ⟨after, _, rfl⟩
    intro q hOther
    rw [setPc_of_ne _ _ hOther]
    exact hOthers q hOther

end

------------------------------------------------------------
-- One Process, and Two
------------------------------------------------------------

/- A script and a manifest. -/
def sampleAssets : Embedded where
  build :=
    .mk [(["build_kernel.sh".toList], [0x23, 0x21])] []
  guest := .mk [(["Cargo.toml.dist".toList], [0x5b])] []
  build_distinct := by
    decide
  guest_distinct := by
    decide

/- All processes list the directory alike. -/
def sampleListing : Listing sampleAssets where
  dirs := fun _ => [[]]
  distinct := by
    intro p
    decide
  covers := by
    intro p
    decide

/-
  One process is killed with a file half written, and then
  another one goes from its check to its end.
-/
theorem complete_of_marker_killed :
    ∃ s,
      (system sampleListing).run initial
            (List.replicate 3 (.step 1) ++
              .kill 1 :: List.replicate 11 (.step 0)) =
          some s ∧
        sampleAssets.Complete s.cache.files := by
  have hRun :
      ∃ s t,
        (system sampleListing).run initial
              (List.replicate 3 (.step 1)) = some s ∧
          (s.pcs 1).Active ∧
          (system sampleListing).run (s.setPc 1 .failed)
              (List.replicate 11 (.step 0)) = some t ∧
          t.cache.complete = true :=
    ⟨_, _, rfl, trivial, rfl, rfl⟩
  rcases hRun with ⟨s, t, hFirst, _, hSecond, hMarker⟩
  have hWaiting : ∀ q, q ≠ 1 → ¬ (initial.pcs q).Active :=
    fun _ _ => id
  rcases reachable_of_turn (.start rfl) hWaiting hFirst with
    ⟨hReach, hIdle⟩
  have hKill : Alone s (.kill 1) := trivial
  have hKilled :
      (system sampleListing).ReachableUnder Alone
        (s.setPc 1 .failed) :=
    .next hReach hKill rfl
  have hNone :
      ∀ q, q ≠ 0 → ¬ ((s.setPc 1 .failed).pcs q).Active := by
    intro q _
    by_cases hSame : q = 1
    · rw [hSame, setPc_self]
      exact id
    · rw [setPc_of_ne _ _ hSame]
      exact hIdle q hSame
  refine ⟨t, ?_, ?_⟩
  · rw [System.run_append, hFirst]
    exact hSecond
  · exact
      complete_of_marker
        (reachable_of_turn hKilled hNone hSecond).1 hMarker

/-
  Two processes find no marker, one of them ends, and the
  other one opens its first file.
-/
def overlappingRun : List Event :=
  .step 1 :: List.replicate 11 (.step 0) ++ [.step 1]

/- One process cuts a file that another has marked. -/
theorem truncated_beside_marker :
    ∃ s,
      (system sampleListing).Reachable s ∧
        s.cache.complete = true ∧
        ¬ sampleAssets.Complete s.cache.files := by
  have hRun :
      ∃ s,
        (system sampleListing).run initial overlappingRun =
            some s ∧
          s.cache.complete = true ∧
          s.cache.files.content
              (.build ["build_kernel.sh".toList]) =
            some [] :=
    ⟨_, rfl, rfl, rfl⟩
  rcases hRun with ⟨s, hRun, hMarker, hEmpty⟩
  refine ⟨s, .run (.start rfl) hRun, hMarker, ?_⟩
  intro hComplete
  have hScript := hComplete (.build ["build_kernel.sh".toList])
  rw [hEmpty] at hScript
  cases hScript

end Assets

end CargoUnikernel
