import CargoUnikernel.Guest.Shutdown.Scrub

/-
  The scrub stays in its tree.

  Other actors change names and contents as they like between
  any two calls. What is opened is pinned: it was an entry,
  and no link, of a directory that was pinned before. Each
  call of the walk is relative to what is pinned, and zeros
  only go over pinned files.

  Main declarations:
    * `Pinned`, `Opened`, `Confined`
    * `scrubEntry_confined`, `scrubOpenDir_confined`
    * `scrub_confined`
-/

------------------------------------------------------------
-- What Is Pinned
------------------------------------------------------------

namespace CargoUnikernel

namespace Guest

namespace Shutdown

namespace Scrub

open Streams Calls Calls.Script

/- What was called, in which states, with what answers. -/
abbrev History (Ino : Type) :=
  List (Event (FileSystem Ino) (Request Ino) Answer)

/- The name is an entry of the directory, for the inode. -/
def IsEntry
    {Ino : Type} (s : FileSystem Ino)
    (dir : Ino) (name : Name) (ino : Ino) : Prop :=
  ¬ IsDots name ∧ (s.entries dir).lookup name = some ino

section

variable {Ino : Type}
variable (type : Ino → FileType) (start : Nat)

/-
  The directories that have been opened, and at what depth:
  the root where its path named it itself, and entries of
  what was opened, each when it was an entry.
-/
inductive Pinned (past : History Ino) : Ino → Nat → Prop
| root {s : FileSystem Ino} {ino : Ino}
    (hOpened : ⟨s, .openDir, some ino⟩ ∈ past)
    (hRoot : s.root = some ino)
    (hType : type ino = .directory) :
    Pinned past ino start
| child {s : FileSystem Ino} {dir ino : Ino} {name : Name}
    {depth : Nat}
    (hDir : Pinned past dir depth)
    (hOpened : ⟨s, .openAt dir name .directory, some ino⟩ ∈
      past)
    (hEntry : IsEntry s dir name ino)
    (hType : type ino = .directory) :
    Pinned past ino (depth + 1)

/- Pinned, and not too deep to be read. -/
def Walked (past : History Ino) (dir : Ino) : Prop :=
  ∃ depth < maxScrubDepth, Pinned type start past dir depth

/- An entry of what is walked, and no link, once opened. -/
def Opened (past : History Ino) (file : Ino) : Prop :=
  ∃ s dir name,
    Walked type start past dir ∧
      ⟨s, .openAt dir name .writable, some file⟩ ∈ past ∧
      IsEntry s dir name file ∧
      type file ≠ .symlink

/- What may be called after what has happened. -/
def Confined (past : History Ino) : Request Ino → Prop
| .openDir => past = []
| .openAt fd name _ =>
    Walked type start past fd ∧ ¬ IsDots name
| .readFrom fd => Walked type start past fd
| .metadata file => Opened type start past file
| .writeZeros file _ =>
    type file = .regularFile ∧ Opened type start past file
| .syncData file =>
    type file = .regularFile ∧ Opened type start past file
| .unlinkAt fd name _ =>
    Walked type start past fd ∧ ¬ IsDots name
| .enter fd depth =>
    Pinned type start past fd depth ∧
      depth ≤ max start maxScrubDepth

end

section

variable {Ino : Type}
variable {type : Ino → FileType} {start : Nat}

/- What is pinned stays so. -/
theorem Pinned.mono
    {past more : History Ino} (hMore : past <+: more)
    {ino : Ino} {depth : Nat}
    (hPinned : Pinned type start past ino depth) :
    Pinned type start more ino depth := by
  induction hPinned with
  | root hOpened hRoot hType =>
      exact .root (hMore.subset hOpened) hRoot hType
  | child hDir hOpened hEntry hType ih =>
      exact .child ih (hMore.subset hOpened) hEntry hType

/- What was walked stays walked. -/
theorem Walked.mono
    {past more : History Ino} (hMore : past <+: more)
    {dir : Ino} (hWalked : Walked type start past dir) :
    Walked type start more dir := by
  rcases hWalked with ⟨depth, hDepth, hPinned⟩
  exact ⟨depth, hDepth, hPinned.mono hMore⟩

/- What was opened stays opened. -/
theorem Opened.mono
    {past more : History Ino} (hMore : past <+: more)
    {file : Ino} (hOpened : Opened type start past file) :
    Opened type start more file := by
  rcases hOpened with
    ⟨s, dir, name, hWalked, hMem, hEntry, hType⟩
  exact
    ⟨s, dir, name, hWalked.mono hMore, hMore.subset hMem,
      hEntry, hType⟩

/- A name that is no dots resolves to an entry. -/
theorem isEntry_of_resolve
    {s : FileSystem Ino} {dir ino : Ino} {name : Name}
    (hName : ¬ IsDots name)
    (hResolve : s.resolve dir name = some ino) :
    IsEntry s dir name ino := by
  refine ⟨hName, ?_⟩
  unfold IsDots at hName
  rw [not_or] at hName
  unfold FileSystem.resolve at hResolve
  rw [if_neg hName.1, if_neg hName.2] at hResolve
  exact hResolve

/- Only directories are opened as such. -/
theorem type_of_admits_directory
    {ino : Ino}
    (hAdmits : OpenMode.directory.admits (type ino) = true) :
    type ino = .directory := by
  unfold OpenMode.admits at hAdmits
  simpa using hAdmits

/- A link is opened in no way. -/
theorem type_of_admits_writable
    {ino : Ino}
    (hAdmits : OpenMode.writable.admits (type ino) = true) :
    type ino ≠ .symlink := by
  unfold OpenMode.admits at hAdmits
  simp only [Bool.and_eq_true, bne_iff_ne] at hAdmits
  exact hAdmits.2

------------------------------------------------------------
-- The Parts of the Walk
------------------------------------------------------------

variable [DecidableEq Ino]

/- Whatever comes of its calls, a walk makes only such. -/
abbrev Stays
    {α : Type} (type : Ino → FileType) (start : Nat)
    (walk : Walk Ino α) (past : History Ino) : Prop :=
  Licensed (Possible type) (Confined type start)
    (fun _ _ => True) walk past

/- Zeros only go over what is a file. -/
theorem overwriteFile_confined
    {past : History Ino} {file : Ino}
    (hOpened : Opened type start past file) :
    Stays type start (overwriteFile file) past := by
  unfold overwriteFile
  apply licensed_call hOpened
  rintro before (_ | found) after ⟨_, hFound⟩
  · trivial
  · dsimp only
    split
    · rename_i hFile
      have hType : type file = .regularFile := by
        rw [(hFound found rfl).1] at hFile
        simpa using hFile
      apply licensed_call
      · exact ⟨hType, hOpened.mono (List.prefix_append _ _)⟩
      · intro before answer after _
        split
        · refine ⟨⟨hType, ?_⟩, fun _ _ _ _ => trivial⟩
          rw [List.append_assoc]
          exact hOpened.mono (List.prefix_append _ _)
        · trivial
    · trivial

/- Names are taken from directories that were walked. -/
theorem unlink_confined
    {past : History Ino} {fd : Ino} {name : Name}
    (hWalked : Walked type start past fd)
    (hName : ¬ IsDots name) (removeDir : Bool) :
    Stays type start (unlink fd name removeDir) past := by
  unfold unlink
  apply licensed_call
  · exact ⟨hWalked, hName⟩
  · intro before answer after _
    trivial

/- A child that is opened is pinned one level deeper. -/
theorem scrubChildDir_confined
    {scrubChild : Ino → Walk Ino Unit}
    {past : History Ino} {fd : Ino} {name : Name}
    {depth : Nat}
    (hPinned : Pinned type start past fd depth)
    (hDepth : depth < maxScrubDepth)
    (hName : ¬ IsDots name)
    (hChild :
      ∀ child past,
        Pinned type start past child (depth + 1) →
          Stays type start (scrubChild child) past) :
    Stays type start (scrubChildDir scrubChild fd name)
      past := by
  unfold scrubChildDir
  apply licensed_call
  · exact ⟨⟨depth, hDepth, hPinned⟩, hName⟩
  rintro before (_ | child) after ⟨_, hFound⟩
  · trivial
  · rcases hFound child rfl with ⟨hResolve, hAdmits⟩
    have hNow :=
      hPinned.mono
        (List.prefix_append past
          [⟨before, .openAt fd name .directory, some child⟩])
    have hThere :
        Pinned type start
          (past ++
            [⟨before, .openAt fd name .directory,
              some child⟩])
          child (depth + 1) := by
      apply Pinned.child hNow
      · exact List.mem_append_right _ List.mem_cons_self
      · exact isEntry_of_resolve hName hResolve
      · exact type_of_admits_directory hAdmits
    apply licensed_seq (hChild child _ hThere)
    intro _ more hMore _
    apply licensed_seq
    · exact
        unlink_confined ⟨depth, hDepth, hNow.mono hMore⟩
          hName true
    · intro _ _ _ _
      trivial

omit [DecidableEq Ino] in

/- A file is opened by the directory it is in. -/
theorem opened_of_answer
    {past : History Ino} {fd file : Ino} {name : Name}
    {before : FileSystem Ino}
    (hWalked : Walked type start past fd)
    (hName : ¬ IsDots name)
    (hResolve : before.resolve fd name = some file)
    (hAdmits : OpenMode.writable.admits (type file) = true) :
    Opened type start
      (past ++
        [⟨before, .openAt fd name .writable, some file⟩])
      file :=
  ⟨before, fd, name, hWalked.mono (List.prefix_append _ _),
    List.mem_append_right _ List.mem_cons_self,
    isEntry_of_resolve hName hResolve,
    type_of_admits_writable hAdmits⟩

/- So only such files are zeroed. -/
theorem scrubFile_confined
    {past : History Ino} {fd : Ino} {name : Name}
    (hWalked : Walked type start past fd)
    (hName : ¬ IsDots name) :
    Stays type start (scrubFile fd name) past := by
  unfold scrubFile
  apply licensed_call
  · exact ⟨hWalked, hName⟩
  rintro before (_ | file) after ⟨_, hFound⟩
  · trivial
  · rcases hFound file rfl with ⟨hResolve, hAdmits⟩
    apply licensed_seq
    · exact
        overwriteFile_confined
          (opened_of_answer hWalked hName hResolve hAdmits)
    · intro _ more hMore _
      apply unlink_confined _ hName
      exact
        hWalked.mono ((List.prefix_append _ _).trans hMore)

/- Or unlinked, where the type is not known. -/
theorem scrubProbed_confined
    {past : History Ino} {fd : Ino} {name : Name}
    (hWalked : Walked type start past fd)
    (hName : ¬ IsDots name) :
    Stays type start (scrubProbed fd name) past := by
  unfold scrubProbed
  apply licensed_call
  · exact ⟨hWalked, hName⟩
  rintro before (_ | file) after ⟨_, hFound⟩
  · trivial
  · rcases hFound file rfl with ⟨hResolve, hAdmits⟩
    apply licensed_seq
    · exact
        overwriteFile_confined
          (opened_of_answer hWalked hName hResolve hAdmits)
    · intro overwritten more hMore _
      split
      · apply unlink_confined _ hName
        exact
          hWalked.mono ((List.prefix_append _ _).trans hMore)
      · trivial

/- Whatever type was reported, and whatever is there now. -/
theorem scrubEntry_confined
    {scrubChild : Ino → Walk Ino Unit}
    {past : History Ino} {fd : Ino} {depth : Nat}
    (hPinned : Pinned type start past fd depth)
    (hDepth : depth < maxScrubDepth)
    (hChild :
      ∀ child past,
        Pinned type start past child (depth + 1) →
          Stays type start (scrubChild child) past)
    (entry : DirEntry) :
    Stays type start (scrubEntry scrubChild fd entry)
      past := by
  have hWalked : Walked type start past fd :=
    ⟨depth, hDepth, hPinned⟩
  unfold scrubEntry
  split
  · trivial
  · rename_i hName
    split
    · apply licensed_seq
      · exact
          scrubChildDir_confined hPinned hDepth hName hChild
      · intro _ _ _ _
        trivial
    · exact scrubFile_confined hWalked hName
    · exact unlink_confined hWalked hName false
    · apply licensed_seq
      · exact
          scrubChildDir_confined hPinned hDepth hName hChild
      · intro isDir more hMore _
        split
        · trivial
        · exact scrubProbed_confined (hWalked.mono hMore) hName
    · trivial

------------------------------------------------------------
-- The Whole Walk
------------------------------------------------------------

/- The directories below are walked one level deeper. -/
theorem scrubLevels_confined
    (left depth : Nat)
    (hStart : depth + left ≤ max start maxScrubDepth)
    (hLeft : 0 < left → depth + left ≤ maxScrubDepth)
    {past : History Ino} {fd : Ino}
    (hPinned : Pinned type start past fd depth) :
    Stays type start (scrubLevels left depth fd) past := by
  induction left generalizing depth past fd with
  | zero =>
      exact ⟨⟨hPinned, by omega⟩, fun _ _ _ _ => trivial⟩
  | succ left ih =>
      have hBound := hLeft (Nat.succ_pos left)
      apply licensed_call
      · exact ⟨hPinned, by omega⟩
      intro before _ after _
      have hNow :=
        hPinned.mono
          (List.prefix_append past
            [⟨before, .enter fd depth, ()⟩])
      unfold scrubEntries
      apply licensed_call
      · exact ⟨depth, by omega, hNow⟩
      rintro again (_ | entries) after _
      · trivial
      · have hLoop :
            Licensed (Possible type) (Confined type start)
              (fun _ more => past <+: more)
              (forM entries
                (scrubEntry (scrubLevels left (depth + 1)) fd))
              (past ++ [⟨before, .enter fd depth, ()⟩] ++
                [⟨again, .readFrom fd, some entries⟩]) := by
          apply licensed_forM
          · intro entry _ more hMore
            apply licensed_mono _
              (licensed_extends
                (scrubEntry_confined (hPinned.mono hMore)
                  (by omega) _ entry))
            · intro _ further hFurther
              exact hMore.trans hFurther.1
            · intro child more hChild
              exact
                ih (depth + 1) (by omega) (fun _ => by omega)
                  hChild
          · rw [List.append_assoc]
            exact List.prefix_append _ _
        exact licensed_mono (fun _ _ _ => trivial) hLoop

/- By induction on the levels that are left. -/
theorem scrubOpenDir_confined
    {past : History Ino} {fd : Ino} {depth : Nat}
    (hStart : depth ≤ max start maxScrubDepth)
    (hPinned : Pinned type start past fd depth) :
    Stays type start (scrubOpenDir fd depth) past := by
  apply scrubLevels_confined _ _ _ _ hPinned
  · omega
  · intro hLeft
    omega

/- From the first directory on. -/
theorem scrubDir_confined :
    Stays type start (scrubDir start) [] := by
  unfold scrubDir
  apply licensed_call
  · rfl
  rintro before (_ | fd) after ⟨_, hFound⟩
  · trivial
  · rcases hFound fd rfl with ⟨hRoot, hAdmits⟩
    apply scrubOpenDir_confined (Nat.le_max_left _ _)
    exact
      .root (List.mem_append_right _ List.mem_cons_self) hRoot
        (type_of_admits_directory hAdmits)

/-
  In any run of the scrub, among any others, every call is
  confined to what has been pinned before it.
-/
theorem scrub_confined
    {s t : FileSystem Ino} {trace : History Ino}
    {rest : Walk Ino Unit}
    (hRuns :
      Runs (Possible type) (fun _ _ => True) (scrubDir start)
        s trace rest t)
    {earlier later : History Ino}
    {event : Event (FileSystem Ino) (Request Ino) Answer}
    (hTrace : trace = earlier ++ event :: later) :
    Confined type start earlier event.request :=
  licensed_of_runs scrubDir_confined hRuns hTrace

end

------------------------------------------------------------
-- A Name That Was Taken
------------------------------------------------------------

/- A directory, two files, and a link. -/
def sampleType : Nat → FileType
| 0 => .directory
| 1 | 2 => .regularFile
| _ => .symlink

/- The root with one entry, of a byte. -/
def oneEntry (ino : Nat) : FileSystem Nat where
  root := some 0
  entries := fun dir => if dir = 0 then [([0x61], ino)] else []
  parent := fun _ => 0
  content := fun _ => [0x07]

/- The entry is read as one file, and is another by then. -/
def takenHistory : History Nat :=
  [⟨oneEntry 1, .openDir, some 0⟩,
    ⟨oneEntry 1, .enter 0 0, ()⟩,
    ⟨oneEntry 1, .readFrom 0,
      some [⟨[0x61], .regularFile⟩]⟩,
    ⟨oneEntry 2, .openAt 0 [0x61] .writable, some 2⟩,
    ⟨oneEntry 3, .metadata 2, some ⟨true, 1⟩⟩]

/- The other file is zeroed, not what a link leads to. -/
theorem scrub_confined_taken :
    Confined sampleType 0 takenHistory
      (.writeZeros 2 1) := by
  have hRun :
      ∃ done rest t,
        Runs (Possible sampleType) (fun _ _ => True)
          (scrubDir 0) (oneEntry 1)
          (takenHistory ++
            [⟨oneEntry 3, .writeZeros 2 1, done⟩])
          rest t := by
    apply Exists.intro
    apply Exists.intro
    apply Exists.intro
    apply Runs.call trivial
    · refine ⟨rfl, ?_⟩
      rintro ino ⟨rfl⟩
      exact ⟨rfl, rfl⟩
    apply Runs.call trivial
    · exact rfl
    apply Runs.call trivial
    · exact rfl
    apply Runs.call trivial
    · refine ⟨rfl, ?_⟩
      rintro ino ⟨rfl⟩
      exact ⟨rfl, rfl⟩
    apply Runs.call trivial
    · refine ⟨rfl, ?_⟩
      rintro found ⟨rfl⟩
      exact ⟨rfl, rfl⟩
    apply Runs.call trivial
    · exact ⟨[], rfl, rfl⟩
    exact .stop _ _
  rcases hRun with ⟨done, rest, t, hRun⟩
  exact scrub_confined hRun rfl

end Scrub

end Shutdown

end Guest

end CargoUnikernel
