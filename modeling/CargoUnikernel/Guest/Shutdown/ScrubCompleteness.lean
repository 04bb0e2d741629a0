import CargoUnikernel.Guest.Shutdown.ScrubTree

/-
  What the scrub of a tree leaves behind.

  Every file is overwritten and then removed, under either
  type that is reported for it. A link that is reported as
  one is removed. A link of unknown type cannot be opened,
  and nothing else is tried: it stays, and so does every
  directory above it.

  Main declarations:
    * `Scrubbed`, `Complete`, `After`
    * `after_scrubEntry_file`, `after_scrubEntry_dir`
    * `after_forM_listing`, `after_scrubLevels`
    * `complete_iff`
-/

------------------------------------------------------------
-- Completeness
------------------------------------------------------------

namespace CargoUnikernel

namespace Guest

namespace Shutdown

namespace Scrub

open Streams Calls Calls.Script

section

variable {Ino : Type}

/-
  Removed, with its bytes all zero and as many as before,
  after zeros were written over all of them.
-/
def Scrubbed
    (trace : History Ino) (file : Ino)
    (bytes : List UInt8) : Prop :=
  ∃ earlier later s dir name,
    trace =
        earlier ++ ⟨s, .unlinkAt dir name false, true⟩ ::
          later ∧
      IsEntry s dir name file ∧
      s.content file = List.replicate bytes.length 0 ∧
      ∃ t,
        ⟨t, .writeZeros file bytes.length, true⟩ ∈ earlier ∧
          t.content file = bytes

/- The root is empty, and every file was scrubbed. -/
def Complete
    {α : Type} (tree : Tree Ino)
    (outcome :
      Outcome (FileSystem Ino) (Request Ino) Answer α) :
    Prop :=
  outcome.state.entries tree.root = [] ∧
    ∀ file ∈ tree.below.files,
      Scrubbed outcome.trace file.1 file.2

/-
  What a part of the walk does: the directory's entries are
  these now, only its own inodes have changed otherwise, and
  the files are scrubbed.
-/
structure After
    {α : Type} (s : FileSystem Ino) (dir : Ino)
    (own : List Ino) (entries : List (Name × Ino))
    (files : List (Ino × List UInt8))
    (outcome :
      Outcome (FileSystem Ino) (Request Ino) Answer α) :
    Prop where
  entries_eq : outcome.state.entries dir = entries
  frame :
    ∀ ino, ino ≠ dir → ino ∉ own →
      outcome.state.entries ino = s.entries ino ∧
        outcome.state.content ino = s.content ino
  scrubbed :
    ∀ file ∈ files, Scrubbed outcome.trace file.1 file.2

/- An entry between others, which have other names. -/
structure Between
    (s : FileSystem Ino) (dir : Ino)
    (kept : List (Name × Ino)) (name : Name) (ino : Ino)
    (more : List (Name × Ino)) : Prop where
  entries_eq : s.entries dir = kept ++ (name, ino) :: more
  not_dots : ¬ IsDots name
  not_kept : name ∉ kept.map Prod.fst
  not_more : name ∉ more.map Prod.fst

/- What happened before does not matter. -/
theorem Scrubbed.append_left
    {trace : History Ino} {file : Ino} {bytes : List UInt8}
    (hScrubbed : Scrubbed trace file bytes)
    (before : History Ino) :
    Scrubbed (before ++ trace) file bytes := by
  rcases hScrubbed with
    ⟨earlier, later, s, dir, name, rfl, hEntry, hZero, t,
      hMem, hBytes⟩
  exact
    ⟨before ++ earlier, later, s, dir, name,
      (List.append_assoc _ _ _).symm, hEntry, hZero, t,
      List.mem_append_right _ hMem, hBytes⟩

/- Nor does what happens after. -/
theorem Scrubbed.append_right
    {trace : History Ino} {file : Ino} {bytes : List UInt8}
    (hScrubbed : Scrubbed trace file bytes)
    (after : History Ino) :
    Scrubbed (trace ++ after) file bytes := by
  rcases hScrubbed with
    ⟨earlier, later, s, dir, name, rfl, hEntry, hZero, t,
      hMem, hBytes⟩
  exact
    ⟨earlier, later ++ after, s, dir, name,
      List.append_assoc _ _ _, hEntry, hZero, t, hMem,
      hBytes⟩

namespace After

variable {s : FileSystem Ino} {dir : Ino} {own : List Ino}
variable {entries : List (Name × Ino)}
variable {files : List (Ino × List UInt8)}

/- One part after another. -/
theorem append
    {α β : Type} {entries' : List (Name × Ino)}
    {own' : List Ino} {files' : List (Ino × List UInt8)}
    {first :
      Outcome (FileSystem Ino) (Request Ino) Answer α}
    {second :
      Outcome (FileSystem Ino) (Request Ino) Answer β}
    (hFirst : After s dir own entries files first)
    (hSecond :
      After first.state dir own' entries' files' second) :
    After s dir (own ++ own') entries' (files ++ files')
      (⟨second.value, second.state,
          first.trace ++ second.trace⟩ :
        Outcome (FileSystem Ino) (Request Ino) Answer β) := by
  constructor
  · exact hSecond.entries_eq
  · intro ino hDir hOwn
    rw [List.mem_append, not_or] at hOwn
    have hFrame := hFirst.frame ino hDir hOwn.1
    have hFrame' := hSecond.frame ino hDir hOwn.2
    exact
      ⟨hFrame'.1.trans hFrame.1, hFrame'.2.trans hFrame.2⟩
  · intro file hMem
    rw [List.mem_append] at hMem
    rcases hMem with hMem | hMem
    · exact (hFirst.scrubbed file hMem).append_right _
    · exact (hSecond.scrubbed file hMem).append_left _

/- More calls around it that change nothing. -/
theorem wrap
    {α β : Type}
    {outcome :
      Outcome (FileSystem Ino) (Request Ino) Answer α}
    (hAfter : After s dir own entries files outcome)
    (before after : History Ino) (value : β) :
    After s dir own entries files
      (⟨value, outcome.state,
          before ++ (outcome.trace ++ after)⟩ :
        Outcome (FileSystem Ino) (Request Ino) Answer β) := by
  refine ⟨hAfter.entries_eq, hAfter.frame, ?_⟩
  intro file hMem
  apply Scrubbed.append_left
  exact (hAfter.scrubbed file hMem).append_right _

end After

namespace Between

variable {s : FileSystem Ino} {dir ino : Ino} {name : Name}
variable {kept more : List (Name × Ino)}

/- The entry is found, for what comes before it stays. -/
theorem lookup
    (hBetween : Between s dir kept name ino more) :
    (s.entries dir).lookup name = some ino := by
  have hNone : kept.lookup name = none := by
    rw [List.lookup_eq_none_iff]
    intro entry hMem
    rw [bne_iff_ne]
    intro hEq
    apply hBetween.not_kept
    rw [hEq]
    exact List.mem_map_of_mem hMem
  rw [hBetween.entries_eq, List.lookup_append, hNone,
    Option.none_or, List.lookup_cons_self]

/- So it is an entry of the directory. -/
theorem isEntry
    (hBetween : Between s dir kept name ino more) :
    IsEntry s dir name ino :=
  ⟨hBetween.not_dots, hBetween.lookup⟩

/- And its name leads to it. -/
theorem resolve
    (hBetween : Between s dir kept name ino more) :
    s.resolve dir name = some ino := by
  have hDots := hBetween.not_dots
  unfold IsDots at hDots
  rw [not_or] at hDots
  unfold FileSystem.resolve
  rw [if_neg hDots.1, if_neg hDots.2]
  exact hBetween.lookup

/- Removed, it leaves the others. -/
theorem filter
    (hBetween : Between s dir kept name ino more) :
    ((s.entries dir).filter fun entry => entry.1 ≠ name) =
      kept ++ more := by
  have hOthers :
      ∀ others : List (Name × Ino),
        name ∉ others.map Prod.fst →
          others.filter (fun entry => entry.1 ≠ name) =
            others := by
    intro others hNot
    rw [List.filter_eq_self]
    intro entry hMem
    rw [decide_eq_true_eq]
    intro hEq
    apply hNot
    rw [← hEq]
    exact List.mem_map_of_mem hMem
  rw [hBetween.entries_eq, List.filter_append,
    List.filter_cons_of_neg (by simp),
    hOthers kept hBetween.not_kept,
    hOthers more hBetween.not_more]

end Between

------------------------------------------------------------
-- Single Calls
------------------------------------------------------------

variable [DecidableEq Ino]

/- What the changes of a file system leave alone. -/
theorem entries_removeEntry_self
    (s : FileSystem Ino) (dir : Ino) (name : Name) :
    (s.removeEntry dir name).entries dir =
      (s.entries dir).filter fun entry => entry.1 ≠ name :=
  Function.update_self ..

theorem entries_removeEntry_of_ne
    (s : FileSystem Ino) {dir ino : Ino} (hOther : ino ≠ dir)
    (name : Name) :
    (s.removeEntry dir name).entries ino = s.entries ino :=
  Function.update_of_ne hOther ..

theorem content_setContent_self
    (s : FileSystem Ino) (file : Ino) (bytes : List UInt8) :
    (s.setContent file bytes).content file = bytes :=
  Function.update_self ..

theorem content_setContent_of_ne
    (s : FileSystem Ino) {file ino : Ino}
    (hOther : ino ≠ file) (bytes : List UInt8) :
    (s.setContent file bytes).content ino = s.content ino :=
  Function.update_of_ne hOther ..

variable {host : Host Ino} {s : FileSystem Ino}
variable {dir ino : Ino} {name : Name}

/- A file that may be opened is. -/
theorem exec_openAt_of_admits
    {mode : OpenMode}
    (hResolve : s.resolve dir name = some ino)
    (hAdmits : mode.admits (host.type ino) = true) :
    exec host.handler (openAt dir name mode) s =
      ⟨some ino, s, [⟨s, .openAt dir name mode, some ino⟩]⟩ := by
  have hFound :
      (s.resolve dir name).filter
          (fun ino => mode.admits (host.type ino)) =
        some ino := by
    rw [hResolve, Option.filter_some, if_pos hAdmits]
  unfold openAt
  rw [exec_perform]
  unfold Host.handler
  dsimp only
  rw [hFound]

/- Another one is refused, and nothing changes. -/
theorem exec_openAt_of_not_admits
    {mode : OpenMode}
    (hResolve : s.resolve dir name = some ino)
    (hAdmits : mode.admits (host.type ino) = false) :
    exec host.handler (openAt dir name mode) s =
      ⟨none, s, [⟨s, .openAt dir name mode, none⟩]⟩ := by
  have hNone :
      (s.resolve dir name).filter
          (fun ino => mode.admits (host.type ino)) =
        none := by
    rw [hResolve, Option.filter_some, hAdmits]
    rfl
  unfold openAt
  rw [exec_perform]
  unfold Host.handler
  dsimp only
  rw [hNone]

/- A name that may be unlinked is gone. -/
theorem exec_unlink_of_may
    {removeDir : Bool}
    (hMay :
      mayUnlink host.type s dir name removeDir = true) :
    exec host.handler (unlink dir name removeDir) s =
      ⟨(), s.removeEntry dir name,
        [⟨s, .unlinkAt dir name removeDir, true⟩]⟩ := by
  unfold unlink unlinkAt
  rw [exec_bind, exec_perform]
  unfold Host.handler
  dsimp only
  rw [if_pos hMay]
  rfl

/- Another one stays. -/
theorem exec_unlink_of_not_may
    {removeDir : Bool}
    (hMay :
      mayUnlink host.type s dir name removeDir = false) :
    exec host.handler (unlink dir name removeDir) s =
      ⟨(), s,
        [⟨s, .unlinkAt dir name removeDir, false⟩]⟩ := by
  unfold unlink unlinkAt
  rw [exec_bind, exec_perform]
  unfold Host.handler
  dsimp only
  rw [if_neg (by simp [hMay])]
  rfl

/- A file is all zeros when every call has done its part. -/
theorem content_zeroed
    {calls : List WriteCall} {bytes : List UInt8}
    (hDone :
      (zeroed calls bytes.length bytes).ending = .done) :
    (zeroed calls bytes.length bytes).sink.content =
      List.replicate bytes.length 0 := by
  rcases @WriteZeros.writeZeros_from_start scrubChunk calls
      bytes with
    ⟨count, hContent, hAll⟩
  unfold zeroed at hDone ⊢
  rw [hContent, hAll hDone]
  exact zeroPrefix_of_le (Nat.le_refl _)

------------------------------------------------------------
-- Single Entries
------------------------------------------------------------

variable {kept more : List (Name × Ino)}

/- The file's bytes are zero, and as many as before. -/
def blanked (s : FileSystem Ino) (file : Ino) :
    FileSystem Ino :=
  s.setContent file
    (List.replicate (s.content file).length 0)

omit [DecidableEq Ino] in

/- A directory has to be empty. -/
theorem mayUnlink_of_lookup
    {type : Ino → FileType}
    (hLookup : (s.entries dir).lookup name = some ino)
    (removeDir : Bool) :
    mayUnlink type s dir name removeDir =
      if removeDir then
        type ino == .directory && (s.entries ino).isEmpty
      else
        type ino != .directory := by
  unfold mayUnlink
  rw [hLookup]

/- A file that is open is overwritten as it is. -/
theorem exec_overwriteFile
    (hType : host.type ino = .regularFile)
    (hWrites :
      (zeroed (host.writes ino) (s.content ino).length
        (s.content ino)).ending = .done) :
    exec host.handler (overwriteFile ino) s =
      ⟨true, blanked s ino,
        [⟨s, .metadata ino,
            some ⟨true, (s.content ino).length⟩⟩,
          ⟨s, .writeZeros ino (s.content ino).length, true⟩,
          ⟨blanked s ino, .syncData ino, true⟩]⟩ := by
  have hFound :
      host.handler s (.metadata ino) =
        (some ⟨true, (s.content ino).length⟩, s) := by
    unfold Host.handler
    dsimp only
    rw [hType]
    rfl
  have hWritten :
      host.handler s (.writeZeros ino (s.content ino).length) =
        (true, blanked s ino) := by
    unfold Host.handler
    dsimp only
    rw [hWrites, content_zeroed hWrites]
    rfl
  unfold overwriteFile metadata writeZeros syncData
  rw [exec_bind, exec_perform, hFound]
  dsimp only
  rw [if_pos rfl, exec_bind, exec_perform, hWritten]
  dsimp only
  rw [if_pos rfl, exec_perform]
  rfl

/- A file that is opened for writing goes overwritten. -/
theorem after_scrubFile
    (hBetween : Between s dir kept name ino more)
    (hType : host.type ino = .regularFile)
    (hWrites :
      (zeroed (host.writes ino) (s.content ino).length
        (s.content ino)).ending = .done)
    {walk : Walk Ino Unit}
    (hWalk :
      walk = scrubFile dir name ∨
        walk = scrubProbed dir name) :
    After s dir [ino] (kept ++ more)
      [(ino, s.content ino)] (exec host.handler walk s) := by
  have hOpen :
      exec host.handler (openAt dir name .writable) s =
        ⟨some ino, s,
          [⟨s, .openAt dir name .writable, some ino⟩]⟩ := by
    apply exec_openAt_of_admits hBetween.resolve
    rw [hType]
    rfl
  have hLookup :
      ((blanked s ino).entries dir).lookup name = some ino :=
    hBetween.lookup
  have hMay :
      mayUnlink host.type (blanked s ino) dir name false =
        true := by
    rw [mayUnlink_of_lookup hLookup, hType]
    rfl
  have hExec :
      exec host.handler walk s =
        ⟨(), (blanked s ino).removeEntry dir name,
          [⟨s, .openAt dir name .writable, some ino⟩,
              ⟨s, .metadata ino,
                some ⟨true, (s.content ino).length⟩⟩,
              ⟨s, .writeZeros ino (s.content ino).length,
                true⟩,
              ⟨blanked s ino, .syncData ino, true⟩] ++
            [⟨blanked s ino, .unlinkAt dir name false,
              true⟩]⟩ := by
    rcases hWalk with rfl | rfl
    · unfold scrubFile
      rw [exec_bind, hOpen]
      dsimp only
      rw [exec_bind, exec_overwriteFile hType hWrites]
      dsimp only
      rw [exec_unlink_of_may hMay]
      rfl
    · unfold scrubProbed
      rw [exec_bind, hOpen]
      dsimp only
      rw [exec_bind, exec_overwriteFile hType hWrites]
      dsimp only
      rw [if_pos rfl, exec_unlink_of_may hMay]
      rfl
  rw [hExec]
  constructor
  · rw [entries_removeEntry_self]
    exact hBetween.filter
  · intro other hDir hOwn
    rw [List.mem_singleton] at hOwn
    refine ⟨?_, ?_⟩
    · exact entries_removeEntry_of_ne _ hDir name
    · exact content_setContent_of_ne s hOwn _
  · intro file hMem
    rw [List.mem_singleton] at hMem
    subst hMem
    refine
      ⟨_, [], blanked s ino, dir, name, rfl,
        hBetween.isEntry, content_setContent_self s ino _, s,
        ?_, rfl⟩
    simp

/- An open of what is no directory as one is refused. -/
theorem exec_scrubChildDir_of_ne
    (scrubChild : Ino → Walk Ino Unit)
    (hResolve : s.resolve dir name = some ino)
    (hType : host.type ino ≠ .directory) :
    exec host.handler (scrubChildDir scrubChild dir name) s =
      ⟨false, s, [⟨s, .openAt dir name .directory, none⟩]⟩ := by
  have hNone :
      exec host.handler (openAt dir name .directory) s =
        ⟨none, s, [⟨s, .openAt dir name .directory, none⟩]⟩ := by
    apply exec_openAt_of_not_admits hResolve
    unfold OpenMode.admits
    simpa using hType
  unfold scrubChildDir
  rw [exec_bind, hNone]
  rfl

/- Under either type, a file is overwritten and removed. -/
theorem after_scrubEntry_file
    (scrubChild : Ino → Walk Ino Unit)
    (hBetween : Between s dir kept name ino more)
    (hType : host.type ino = .regularFile)
    (hWrites :
      (zeroed (host.writes ino) (s.content ino).length
        (s.content ino)).ending = .done) :
    After s dir [ino] (kept ++ more)
      [(ino, s.content ino)]
      (exec host.handler
        (scrubEntry scrubChild dir (host.report (name, ino)))
        s) := by
  unfold scrubEntry Host.report
  dsimp only
  rw [if_neg hBetween.not_dots]
  cases host.unreported ino with
  | false =>
      rw [if_neg Bool.false_ne_true, hType]
      exact
        after_scrubFile hBetween hType hWrites (Or.inl rfl)
  | true =>
      have hOther : host.type ino ≠ .directory := by
        rw [hType]
        exact FileType.noConfusion
      have hAfter :=
        after_scrubFile hBetween hType hWrites (Or.inr rfl)
      rw [if_pos rfl]
      dsimp only
      rw [exec_bind,
        exec_scrubChildDir_of_ne scrubChild hBetween.resolve
          hOther]
      have hWrapped :=
        hAfter.wrap [⟨s, .openAt dir name .directory, none⟩]
          [] ()
      rw [List.append_nil] at hWrapped
      exact hWrapped

/- A link that is reported is removed, and else it stays. -/
theorem after_scrubEntry_link
    (scrubChild : Ino → Walk Ino Unit)
    (hBetween : Between s dir kept name ino more)
    (hType : host.type ino = .symlink) :
    After s dir [ino]
      (if host.unreported ino then
        kept ++ (name, ino) :: more
      else
        kept ++ more)
      []
      (exec host.handler
        (scrubEntry scrubChild dir (host.report (name, ino)))
        s) := by
  unfold scrubEntry Host.report
  dsimp only
  rw [if_neg hBetween.not_dots]
  cases host.unreported ino with
  | false =>
      have hMay :
          mayUnlink host.type s dir name false = true := by
        rw [mayUnlink_of_lookup hBetween.lookup, hType]
        rfl
      simp only [Bool.false_eq_true, if_false]
      rw [hType]
      dsimp only
      rw [exec_unlink_of_may hMay]
      constructor
      · rw [entries_removeEntry_self]
        exact hBetween.filter
      · intro other hDir _
        exact ⟨entries_removeEntry_of_ne _ hDir name, rfl⟩
      · intro file hMem
        cases hMem
  | true =>
      have hOther : host.type ino ≠ .directory := by
        rw [hType]
        exact FileType.noConfusion
      have hRefused :
          exec host.handler (openAt dir name .writable) s =
            ⟨none, s,
              [⟨s, .openAt dir name .writable, none⟩]⟩ := by
        apply exec_openAt_of_not_admits hBetween.resolve
        rw [hType]
        rfl
      simp only [if_true]
      rw [exec_bind,
        exec_scrubChildDir_of_ne scrubChild hBetween.resolve
          hOther]
      dsimp only
      unfold scrubProbed
      rw [if_neg Bool.false_ne_true, exec_bind, hRefused]
      constructor
      · exact hBetween.entries_eq
      · intro other _ _
        exact ⟨rfl, rfl⟩
      · intro file hMem
        cases hMem

/- A directory is walked, and removed if that empties it. -/
theorem after_scrubChildDir
    {scrubChild : Ino → Walk Ino Unit} {own : List Ino}
    {entries : List (Name × Ino)}
    {files : List (Ino × List UInt8)}
    (hBetween : Between s dir kept name ino more)
    (hType : host.type ino = .directory)
    (hOther : dir ≠ ino) (hOwn : dir ∉ own)
    (hChild :
      After s ino own entries files
        (exec host.handler (scrubChild ino) s)) :
    (exec host.handler (scrubChildDir scrubChild dir name)
          s).value = true ∧
      After s dir (ino :: own)
        (if entries = [] then
          kept ++ more
        else
          kept ++ (name, ino) :: more)
        files
        (exec host.handler (scrubChildDir scrubChild dir name)
          s) := by
  have hOpen :
      exec host.handler (openAt dir name .directory) s =
        ⟨some ino, s,
          [⟨s, .openAt dir name .directory, some ino⟩]⟩ := by
    apply exec_openAt_of_admits hBetween.resolve
    rw [hType]
    rfl
  have hSame := (hChild.frame dir hOther hOwn).1
  have hAfter :
      Between (exec host.handler (scrubChild ino) s).state dir
        kept name ino more := by
    refine ⟨?_, hBetween.not_dots, hBetween.not_kept,
      hBetween.not_more⟩
    rw [hSame, hBetween.entries_eq]
  have hMay :
      mayUnlink host.type
          (exec host.handler (scrubChild ino) s).state dir name
          true =
        entries.isEmpty := by
    rw [mayUnlink_of_lookup hAfter.lookup, if_pos rfl, hType,
      hChild.entries_eq]
    rfl
  unfold scrubChildDir
  rw [exec_bind, hOpen]
  dsimp only
  rw [exec_bind]
  refine ⟨?_, ?_⟩
  · rw [exec_bind]
    rfl
  by_cases hNil : entries = []
  · rw [if_pos hNil, exec_bind,
      exec_unlink_of_may (by rw [hMay, hNil]; rfl)]
    constructor
    · dsimp only [Script.pure_eq, exec_done]
      rw [entries_removeEntry_self]
      exact hAfter.filter
    · intro other hDir hNot
      rw [List.mem_cons, not_or] at hNot
      have hFrame := hChild.frame other hNot.1 hNot.2
      dsimp only [Script.pure_eq, exec_done]
      rw [entries_removeEntry_of_ne _ hDir]
      exact hFrame
    · intro file hMem
      apply Scrubbed.append_left
      exact (hChild.scrubbed file hMem).append_right _
  · have hNot : entries.isEmpty = false := by
      rw [← Bool.not_eq_true, List.isEmpty_iff]
      exact hNil
    rw [if_neg hNil, exec_bind,
      exec_unlink_of_not_may (by rw [hMay, hNot])]
    constructor
    · exact hAfter.entries_eq
    · intro other hDir hNotOwn
      rw [List.mem_cons, not_or] at hNotOwn
      exact hChild.frame other hNotOwn.1 hNotOwn.2
    · intro file hMem
      apply Scrubbed.append_left
      exact (hChild.scrubbed file hMem).append_right _

/- A directory is scrubbed, and then unlinked. -/
theorem after_scrubEntry_dir
    {scrubChild : Ino → Walk Ino Unit} {own : List Ino}
    {entries : List (Name × Ino)}
    {files : List (Ino × List UInt8)}
    (hBetween : Between s dir kept name ino more)
    (hType : host.type ino = .directory)
    (hOther : dir ≠ ino) (hOwn : dir ∉ own)
    (hChild :
      After s ino own entries files
        (exec host.handler (scrubChild ino) s)) :
    After s dir (ino :: own)
      (if entries = [] then
        kept ++ more
      else
        kept ++ (name, ino) :: more)
      files
      (exec host.handler
        (scrubEntry scrubChild dir (host.report (name, ino)))
        s) := by
  rcases after_scrubChildDir hBetween hType hOther hOwn hChild
    with ⟨hOpened, hAfter⟩
  have hWrapped := hAfter.wrap [] [] ()
  have hExec :
      exec host.handler
          (scrubEntry scrubChild dir
            (host.report (name, ino))) s =
        ⟨(),
          (exec host.handler
            (scrubChildDir scrubChild dir name) s).state,
          (exec host.handler
              (scrubChildDir scrubChild dir name) s).trace ++
            []⟩ := by
    unfold scrubEntry Host.report
    dsimp only
    rw [if_neg hBetween.not_dots]
    cases host.unreported ino with
    | false =>
        rw [if_neg Bool.false_ne_true, hType]
        exact exec_bind _ _ _
    | true =>
        rw [if_pos rfl]
        dsimp only
        rw [exec_bind, hOpened, if_pos rfl]
        rfl
  rw [hExec]
  exact hWrapped

------------------------------------------------------------
-- Whole Directories
------------------------------------------------------------

/- The forest is there, after entries that are kept. -/
structure Ready
    (host : Host Ino) (s : FileSystem Ino) (dir : Ino)
    (kept : List (Name × Ino)) (forest : Forest Ino)
    (left : Nat) : Prop where
  stored : forest.Stored host.type s
  entries_eq : s.entries dir = kept ++ forest.listing
  distinct : (dir :: forest.inos).Nodup
  named : forest.Named
  not_kept : ∀ name ∈ forest.names, name ∉ kept.map Prod.fst
  height_le : forest.height ≤ left + 1
  writes :
    ∀ file ∈ forest.files,
      (zeroed (host.writes file.1) file.2.length
        file.2).ending = .done

omit [DecidableEq Ino] in
/- After an entry, the rest is there as it was. -/
theorem Ready.next
    {α : Type} {own : List Ino} {rest : Forest Ino}
    {files : List (Ino × List UInt8)} {left : Nat}
    {outcome :
      Outcome (FileSystem Ino) (Request Ino) Answer α}
    (hAfter :
      After s dir own (kept ++ rest.listing) files outcome)
    (hStored : rest.Stored host.type s)
    (hDistinct : (dir :: (own ++ rest.inos)).Nodup)
    (hNamed : rest.Named)
    (hNotKept :
      ∀ name ∈ rest.names, name ∉ kept.map Prod.fst)
    (hHeight : rest.height ≤ left + 1)
    (hWrites :
      ∀ file ∈ rest.files,
        (zeroed (host.writes file.1) file.2.length
          file.2).ending = .done) :
    Ready host outcome.state dir kept rest left := by
  rw [List.nodup_cons, List.mem_append, not_or,
    List.nodup_append] at hDistinct
  rcases hDistinct with ⟨hDir, _, hRest, hApart⟩
  refine
    ⟨?_, hAfter.entries_eq, ?_, hNamed, hNotKept, hHeight,
      hWrites⟩
  · apply hStored.congr
    intro ino hMem
    apply hAfter.frame
    · intro hEq
      rw [hEq] at hMem
      exact hDir.2 hMem
    · intro hOwn
      exact hApart ino hOwn ino hMem rfl
  · rw [List.nodup_cons]
    exact ⟨hDir.2, hRest⟩

/- Entering a directory that is read changes nothing yet. -/
theorem exec_scrubEntries
    (scrubChild : Ino → Walk Ino Unit) (dir : Ino)
    (s : FileSystem Ino) :
    exec host.handler (scrubEntries scrubChild dir) s =
      ⟨(exec host.handler
            (forM ((s.entries dir).map host.report)
              (scrubEntry scrubChild dir)) s).value,
        (exec host.handler
            (forM ((s.entries dir).map host.report)
              (scrubEntry scrubChild dir)) s).state,
        ⟨s, .readFrom dir,
            some (host.reports (s.entries dir))⟩ ::
          (exec host.handler
            (forM ((s.entries dir).map host.report)
              (scrubEntry scrubChild dir)) s).trace⟩ := by
  unfold scrubEntries readFrom
  rw [exec_bind, exec_perform]
  rfl

omit [DecidableEq Ino] in
/- A name that is kept is none of the others. -/
theorem not_kept_concat
    {names : List Name}
    (hOthers : ∀ other ∈ names, other ∉ kept.map Prod.fst)
    (hName : name ∉ names) :
    ∀ other ∈ names,
      other ∉ (kept ++ [(name, ino)]).map Prod.fst := by
  intro other hMem hKept
  rw [List.map_append, List.mem_append] at hKept
  rcases hKept with hKept | hLast
  · exact hOthers other hMem hKept
  · rw [List.map_cons, List.map_nil,
      List.mem_singleton] at hLast
    rw [hLast] at hMem
    exact hName hMem

/- The note of the depth changes nothing. -/
theorem exec_enter
    (dir : Ino) (depth : Nat) (s : FileSystem Ino) :
    exec host.handler (enter dir depth) s =
      ⟨(), s, [⟨s, .enter dir depth, ()⟩]⟩ :=
  rfl

/- One turn of the loop, and then the others. -/
theorem after_forM_cons
    {own own' : List Ino}
    {files files' : List (Ino × List UInt8)}
    {entries entries' : List (Name × Ino)}
    {body : DirEntry → Walk Ino Unit}
    {entry : DirEntry} {reports : List DirEntry}
    (hHead :
      After s dir own entries files
        (exec host.handler (body entry) s))
    (hRest :
      After (exec host.handler (body entry) s).state dir own'
        entries' files'
        (exec host.handler (forM reports body)
          (exec host.handler (body entry) s).state)) :
    After s dir (own ++ own') entries' (files ++ files')
      (exec host.handler (forM (entry :: reports) body)
        s) := by
  rw [List.forM_cons, exec_bind]
  exact hHead.append hRest

/- One level deeper, if the loop does its part there. -/
theorem after_scrubLevels
    {forest : Forest Ino} {left depth : Nat}
    (hReady : Ready host s dir [] forest left)
    (hHeight : forest.height ≤ left)
    (hLoop :
      ∀ {more : Nat},
        Ready host s dir [] forest more →
          After s dir forest.inos
            (forest.leftover host.unreported).listing
            forest.files
            (exec host.handler
              (forM (forest.listing.map host.report)
                (scrubEntry (scrubLevels more (depth + 1))
                  dir))
              s)) :
    After s dir forest.inos
      (forest.leftover host.unreported).listing forest.files
      (exec host.handler (scrubLevels left depth dir) s) := by
  have hEntries := hReady.entries_eq
  rw [List.nil_append] at hEntries
  cases left with
  | zero =>
      have hNil : forest = .nil :=
        Forest.height_eq_zero_iff.1 (Nat.le_zero.1 hHeight)
      subst hNil
      refine ⟨hEntries, fun _ _ _ => ⟨rfl, rfl⟩, ?_⟩
      intro file hMem
      cases hMem
  | succ left =>
      have hInner : Ready host s dir [] forest left :=
        { hReady with height_le := hHeight }
      have hAfter := hLoop hInner
      rw [← hEntries] at hAfter
      unfold scrubLevels
      rw [exec_bind, exec_enter]
      dsimp only
      rw [exec_scrubEntries]
      have hWrapped :=
        hAfter.wrap
          [⟨s, .enter dir depth, ()⟩,
            ⟨s, .readFrom dir,
              some (host.reports (s.entries dir))⟩]
          [] ()
      rw [List.append_nil] at hWrapped
      exact hWrapped

omit [DecidableEq Ino] in
/- What is in a directory is ready where that is walked. -/
theorem Ready.children
    {children rest : Forest Ino} {left : Nat}
    (hReady :
      Ready host s dir kept (.dir name ino children rest)
        left) :
    Ready host s ino [] children left ∧
      children.height ≤ left ∧ rest.height ≤ left + 1 := by
  rcases hReady.stored with ⟨_, hEntries, hChildren, _⟩
  have hDistinct := hReady.distinct
  unfold Forest.inos at hDistinct
  simp only [List.nodup_cons, List.nodup_append] at hDistinct
  rcases hDistinct with ⟨_, ⟨hIno, hBelow, _⟩⟩
  have hHeights := hReady.height_le
  unfold Forest.height at hHeights
  refine ⟨?_, by omega, by omega⟩
  refine
    ⟨hChildren, hEntries, ?_, hReady.named.2.2.1, ?_, ?_, ?_⟩
  · apply List.nodup_cons.2
    refine ⟨?_, hBelow⟩
    intro hMem
    exact hIno (List.mem_append_left _ hMem)
  · intro other _ hMem
    cases hMem
  · omega
  · intro file hMem
    exact hReady.writes file (List.mem_append_left _ hMem)

omit [DecidableEq Ino] in

/- A directory is not among its own entries. -/
theorem Ready.apart
    {children rest : Forest Ino} {left : Nat}
    (hReady :
      Ready host s dir kept (.dir name ino children rest)
        left) :
    dir ≠ ino ∧ dir ∉ children.inos := by
  have hDistinct := hReady.distinct
  unfold Forest.inos at hDistinct
  rw [List.nodup_cons, List.mem_cons, List.mem_append,
    not_or, not_or] at hDistinct
  exact ⟨hDistinct.1.1, hDistinct.1.2.1⟩

/-
  The loop over a directory, whose parts are as the forest's:
  a file, a link, or a directory that is a level deeper.
-/
theorem after_forM_listing
    {forest : Forest Ino} {left depth : Nat}
    (hReady : Ready host s dir kept forest left) :
    After s dir forest.inos
      (kept ++ (forest.leftover host.unreported).listing)
      forest.files
      (exec host.handler
        (forM (forest.listing.map host.report)
          (scrubEntry (scrubLevels left depth) dir))
        s) := by
  induction forest generalizing s dir kept left depth with
  | nil =>
      refine
        ⟨hReady.entries_eq, fun _ _ _ => ⟨rfl, rfl⟩, ?_⟩
      intro file hMem
      cases hMem
  | file name ino bytes rest ih =>
      rcases hReady.stored with ⟨hType, hContent, hRest⟩
      rcases hReady.named with ⟨hDots, hMore, hNamed⟩
      have hBetween :
          Between s dir kept name ino rest.listing :=
        ⟨hReady.entries_eq, hDots,
          hReady.not_kept name List.mem_cons_self, hMore⟩
      have hWrites :=
        hReady.writes (ino, bytes) List.mem_cons_self
      rw [← hContent] at hWrites
      have hHead :=
        after_scrubEntry_file (scrubLevels left depth)
          hBetween hType hWrites
      rw [hContent] at hHead
      have hNext :=
        Ready.next hHead hRest hReady.distinct hNamed
          (fun other hMem =>
            hReady.not_kept other
              (List.mem_cons_of_mem _ hMem))
          ((Nat.le_max_right _ _).trans hReady.height_le)
          (fun file hMem =>
            hReady.writes file (List.mem_cons_of_mem _ hMem))
      exact after_forM_cons hHead (ih hNext)
  | link name ino rest ih =>
      rcases hReady.stored with ⟨hType, hRest⟩
      rcases hReady.named with ⟨hDots, hMore, hNamed⟩
      have hBetween :
          Between s dir kept name ino rest.listing :=
        ⟨hReady.entries_eq, hDots,
          hReady.not_kept name List.mem_cons_self, hMore⟩
      have hHead :=
        after_scrubEntry_link (scrubLevels left depth)
          hBetween hType
      have hHeight :=
        (Nat.le_max_right _ _).trans hReady.height_le
      have hOthers :
          ∀ other ∈ rest.names,
            other ∉ kept.map Prod.fst :=
        fun other hMem =>
          hReady.not_kept other (List.mem_cons_of_mem _ hMem)
      unfold Forest.leftover
      cases hReported : host.unreported ino with
      | false =>
          rw [hReported, if_neg Bool.false_ne_true] at hHead
          rw [if_neg Bool.false_ne_true]
          have hNext :=
            Ready.next hHead hRest hReady.distinct hNamed
              hOthers hHeight hReady.writes
          exact after_forM_cons hHead (ih hNext)
      | true =>
          rw [hReported, if_pos rfl, List.append_cons] at hHead
          rw [if_pos rfl]
          have hNext :=
            Ready.next hHead hRest hReady.distinct hNamed
              (not_kept_concat hOthers hMore) hHeight
              hReady.writes
          have hAll := after_forM_cons hHead (ih hNext)
          rw [← List.append_cons] at hAll
          exact hAll
  | dir name ino children rest ihChildren ihRest =>
      rcases hReady.stored with
        ⟨hType, hEntries, hChildren, hRest⟩
      rcases hReady.named with
        ⟨hDots, hMore, hBelow, hNamed⟩
      have hBetween :
          Between s dir kept name ino rest.listing :=
        ⟨hReady.entries_eq, hDots,
          hReady.not_kept name List.mem_cons_self, hMore⟩
      rcases hReady.children with
        ⟨hBelowReady, hBelowHeight, hHeight⟩
      rcases hReady.apart with ⟨hOther, hDirBelow⟩
      have hChild :
          After s ino children.inos
            (children.leftover host.unreported).listing
            children.files
            (exec host.handler (scrubLevels left depth ino)
              s) := by
        apply after_scrubLevels hBelowReady hBelowHeight
        intro more hInner
        have hAfter :=
          @ihChildren s ino [] more (depth + 1) hInner
        rw [List.nil_append] at hAfter
        exact hAfter
      have hHead :=
        after_scrubEntry_dir hBetween hType hOther hDirBelow
          hChild
      have hOthers :
          ∀ other ∈ rest.names,
            other ∉ kept.map Prod.fst :=
        fun other hMem =>
          hReady.not_kept other (List.mem_cons_of_mem _ hMem)
      have hWrites :
          ∀ file ∈ rest.files,
            (zeroed (host.writes file.1) file.2.length
              file.2).ending = .done :=
        fun file hMem =>
          hReady.writes file (List.mem_append_right _ hMem)
      unfold Forest.leftover
      split
      · rename_i hNil
        have hListing :=
          Forest.listing_eq_nil_iff.2 hNil
        rw [if_pos hListing] at hHead
        have hNext :=
          Ready.next hHead hRest hReady.distinct hNamed hOthers
            hHeight hWrites
        exact after_forM_cons hHead (ihRest hNext)
      · rename_i hLeft
        have hListing :
            (children.leftover host.unreported).listing ≠
              [] := by
          rw [ne_eq, Forest.listing_eq_nil_iff]
          exact hLeft
        rw [if_neg hListing, List.append_cons] at hHead
        have hNext :=
          Ready.next hHead hRest hReady.distinct hNamed
            (not_kept_concat hOthers hMore) hHeight hWrites
        have hAll := after_forM_cons hHead (ihRest hNext)
        rw [← List.append_cons] at hAll
        exact hAll

------------------------------------------------------------
-- The Whole Scrub
------------------------------------------------------------

variable {tree : Tree Ino}

/- All that a scrub of a tree leaves, to its full depth. -/
theorem after_scrubDir
    (hStored : tree.StoredIn host.type s)
    (hHeight : tree.below.height ≤ maxScrubDepth)
    (hWrites :
      ∀ file ∈ tree.below.files,
        (zeroed (host.writes file.1) file.2.length
          file.2).ending = .done) :
    After s tree.root tree.below.inos
      (tree.below.leftover host.unreported).listing
      tree.below.files
      (exec host.handler (scrubDir 0) s) := by
  have hRoot :
      host.handler s .openDir = (some tree.root, s) := by
    unfold Host.handler
    dsimp only
    rw [hStored.root_eq, Option.filter_some,
      hStored.root_type]
    rfl
  have hReady :
      Ready host s tree.root [] tree.below maxScrubDepth := by
    refine
      ⟨hStored.stored, hStored.entries_eq, tree.distinct,
        tree.named, ?_, Nat.le_succ_of_le hHeight, hWrites⟩
    intro other _ hMem
    cases hMem
  have hAfter :
      After s tree.root tree.below.inos
        (tree.below.leftover host.unreported).listing
        tree.below.files
        (exec host.handler (scrubOpenDir tree.root 0) s) := by
    apply after_scrubLevels hReady hHeight
    intro more hInner
    have hLoop := @after_forM_listing _ _ _ _ _ _ _ more 1 hInner
    rw [List.nil_append] at hLoop
    exact hLoop
  have hWrapped :=
    hAfter.wrap [⟨s, .openDir, some tree.root⟩] [] ()
  rw [List.append_nil] at hWrapped
  unfold scrubDir openDir
  rw [exec_bind, exec_perform, hRoot]
  exact hWrapped

/-
  For every tree that is not too deep, and every choice of
  what is reported: the scrub is complete exactly if the
  types of all links are reported.
-/
theorem complete_iff
    (hStored : tree.StoredIn host.type s)
    (hDepth : tree.below.height < maxScrubDepth)
    (hWrites :
      ∀ file ∈ tree.below.files,
        (zeroed (host.writes file.1) file.2.length
          file.2).ending = .done) :
    Complete tree (exec host.handler (scrubDir 0) s) ↔
      ∀ link ∈ tree.below.links,
        host.unreported link = false := by
  have hAfter :=
    after_scrubDir hStored (Nat.le_of_lt hDepth) hWrites
  unfold Complete
  rw [hAfter.entries_eq, Forest.listing_eq_nil_iff,
    Forest.leftover_eq_nil_iff]
  constructor
  · intro hComplete
    exact hComplete.1
  · intro hReported
    exact ⟨hReported, hAfter.scrubbed⟩

end

------------------------------------------------------------
-- A Link of Unknown Type
------------------------------------------------------------

/- A file and a link to it, each by its own number. -/
def linkTree : Tree Nat where
  root := 0
  below :=
    .file [0x61] 1 [0x07]
      (.dir [0x62] 4 (.link [0x63] 3 .nil) .nil)
  distinct := by
    decide
  named := by
    simp [Forest.Named, Forest.names, Forest.listing, IsDots,
      dot, dotDot]

/- Two directories, a file, and a link. -/
def linkType : Nat → FileType
| 0 | 4 => .directory
| 1 => .regularFile
| _ => .symlink

/- The link is in a directory besides the file. -/
def linkSystem : FileSystem Nat where
  root := some 0
  entries := fun dir =>
    if dir = 0 then
      [([0x61], 1), ([0x62], 4)]
    else if dir = 4 then
      [([0x63], 3)]
    else
      []
  parent := fun _ => 0
  content := fun _ => [0x07]

/- The file system holds the tree. -/
theorem linkTree_stored :
    linkTree.StoredIn linkType linkSystem := by
  constructor
  · rfl
  · rfl
  · rfl
  · exact ⟨rfl, rfl, rfl, rfl, ⟨rfl, trivial⟩, trivial⟩

/- The types that are not given, and files of one byte. -/
def linkHost (unreported : Nat → Bool) : Host Nat where
  type := linkType
  unreported := unreported
  writes := fun _ => [.wrote 1]

/- Its file can be zeroed. -/
theorem linkTree_writes :
    ∀ file ∈ linkTree.below.files,
      (zeroed [.wrote 1] file.2.length
        file.2).ending = .done := by
  intro file hMem
  rw [List.mem_singleton.1 hMem]
  have hChunk : min 1 scrubChunk = 1 := by
    decide
  have hZeros : List.replicate scrubChunk (0 : UInt8) ≠ [] := by
    rw [ne_eq, List.replicate_eq_nil_iff]
    decide
  unfold zeroed WriteZeros.writeZeros
  simp [hZeros, WriteZeros.writeZerosLoop, hChunk, writeAll,
    List.take_replicate]

/- With the link reported, though the file is not. -/
theorem complete_reported :
    Complete linkTree
      (exec (linkHost fun ino => ino == 1).handler
        (scrubDir 0) linkSystem) := by
  apply
    (complete_iff linkTree_stored (by decide)
      linkTree_writes).2
  intro link hMem
  rw [List.mem_singleton.1 hMem]
  rfl

/- Unreported it stays, and its directory does. -/
theorem unknown_link_stays :
    linkTree.StoredIn linkType linkSystem ∧
      linkTree.below.height < maxScrubDepth ∧
      ¬ Complete linkTree
        (exec (linkHost fun ino => ino == 3).handler
          (scrubDir 0) linkSystem) := by
  refine ⟨linkTree_stored, by decide, ?_⟩
  rintro ⟨hEmpty, _⟩
  have hAfter :=
    @after_scrubDir Nat _ (linkHost fun ino => ino == 3)
      linkSystem linkTree linkTree_stored (by decide)
      linkTree_writes
  have hBoth : [(([0x62] : Name), 4)] = [] :=
    hAfter.entries_eq.symm.trans hEmpty
  cases hBoth

end Scrub

end Shutdown

end Guest

end CargoUnikernel
