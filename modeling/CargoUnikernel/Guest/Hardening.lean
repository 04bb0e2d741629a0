import CargoUnikernel.Guest.Landlock

/-
  The sysctls a project adds, as the guest writes them.

  A key is written only where it is confined to `/proc/sys/`.
  What the file system answers is not known, and changes only
  what is counted and warned of.

  Main declarations:
    * `writeSysctl`, `applyExtra`, `isSysctlPath`
    * `applyExtra_written`, `applyExtra_world`
    * `sysctlRoot_prefix_locate`
-/

------------------------------------------------------------
-- Writing
------------------------------------------------------------

namespace CargoUnikernel

namespace Guest

namespace Hardening

open Landlock (follow locate)

/- What `std::fs::write` returns. -/
inductive WriteResult
| ok
| notFound
| failed
deriving DecidableEq

/- What the init says of a setting it could not make. -/
inductive Warning
| refusingToWrite (path : Text)
| failedToSet (path val : Text)
deriving DecidableEq

/- The files, what is counted, and what was written. -/
structure State (World : Type) where
  world : World
  applied : UInt32
  absent : UInt32
  warnings : List Warning
  written : List (Text × Text)

section

variable {World : Type}

/- A whole file is written, as the file system has it. -/
abbrev FsWrite (World : Type) : Type :=
  World → Text → Text → WriteResult × World

variable (fsWrite : FsWrite World)

/- One more warning. -/
def State.warn
    (s : State World) (warning : Warning) : State World :=
  { s with warnings := s.warnings ++ [warning] }

/- A knob that is missing is no failure. -/
def writeSysctl
    (path val : Text) (s : State World) : State World :=
  let result := fsWrite s.world path val
  let s :=
    { s with
      world := result.2
      written := s.written ++ [(path, val)] }
  match result.1 with
  | .ok => { s with applied := s.applied + 1 }
  | .notFound => { s with absent := s.absent + 1 }
  | .failed => s.warn (.failedToSet path val)

/- Below `/proc/sys/`, and never up again. -/
def isSysctlPath (path : Text) : Bool :=
  "/proc/sys/".toList.isPrefixOf path &&
    !(Text.split '/' path).any fun part =>
      part = "..".toList

/- What is refused does not stop the rest. -/
def applyExtra :
    List (Text × Text) → State World → State World
| [], s => s
| (path, val) :: extra, s =>
    if !isSysctlPath path then
      applyExtra extra (s.warn (.refusingToWrite path))
    else
      applyExtra extra (writeSysctl fsWrite path val s)

end

------------------------------------------------------------
-- What Is Written
------------------------------------------------------------

section

variable {World : Type} {fsWrite : FsWrite World}

@[simp] theorem writeSysctl_written
    (path val : Text) (s : State World) :
    (writeSysctl fsWrite path val s).written =
      s.written ++ [(path, val)] := by
  unfold writeSysctl
  dsimp only
  split <;> rfl

@[simp] theorem writeSysctl_world
    (path val : Text) (s : State World) :
    (writeSysctl fsWrite path val s).world =
      (fsWrite s.world path val).2 := by
  unfold writeSysctl
  dsimp only
  split <;> rfl

/- What was warned of before still is. -/
theorem warnings_subset_writeSysctl
    (path val : Text) (s : State World) :
    s.warnings ⊆ (writeSysctl fsWrite path val s).warnings := by
  unfold writeSysctl
  dsimp only
  split
  · exact List.Subset.refl _
  · exact List.Subset.refl _
  · exact List.subset_append_left _ _

/- The pairs whose key is confined. -/
def accepted (extra : List (Text × Text)) :
    List (Text × Text) :=
  extra.filter fun pair => isSysctlPath pair.1

/- A pair is accepted by its path. -/
theorem accepted_cons
    (pair : Text × Text) (extra : List (Text × Text)) :
    accepted (pair :: extra) =
      if isSysctlPath pair.1 then
        pair :: accepted extra
      else
        accepted extra :=
  List.filter_cons

/- What is written is what is accepted, in order. -/
theorem applyExtra_written
    (extra : List (Text × Text)) (s : State World) :
    (applyExtra fsWrite extra s).written =
      s.written ++ accepted extra := by
  induction extra generalizing s with
  | nil => simp [applyExtra, accepted]
  | cons pair extra ih =>
      unfold applyExtra
      by_cases hPath : isSysctlPath pair.1 = true
      · simp [accepted_cons, hPath, ih]
      · simp [accepted_cons, hPath, ih, State.warn]

/- The files change by those writes alone, in that order. -/
theorem applyExtra_world
    (extra : List (Text × Text)) (s : State World) :
    (applyExtra fsWrite extra s).world =
      (accepted extra).foldl
        (fun world pair => (fsWrite world pair.1 pair.2).2)
        s.world := by
  induction extra generalizing s with
  | nil => rfl
  | cons pair extra ih =>
      unfold applyExtra
      by_cases hPath : isSysctlPath pair.1 = true
      · simp [accepted_cons, hPath, ih]
      · simp [accepted_cons, hPath, ih, State.warn]

/- No warning is taken back. -/
theorem warnings_subset_applyExtra
    (extra : List (Text × Text)) (s : State World) :
    s.warnings ⊆ (applyExtra fsWrite extra s).warnings := by
  induction extra generalizing s with
  | nil => exact List.Subset.refl _
  | cons pair extra ih =>
      unfold applyExtra
      split
      · intro warning hMem
        exact ih _ (List.mem_append_left _ hMem)
      · intro warning hMem
        exact ih _ (warnings_subset_writeSysctl _ _ _ hMem)

/- A pair that is not written is warned of. -/
theorem warned_of_not_sysctlPath
    {extra : List (Text × Text)} (s : State World)
    {pair : Text × Text} (hMem : pair ∈ extra)
    (hPath : ¬isSysctlPath pair.1) :
    .refusingToWrite pair.1 ∈
      (applyExtra fsWrite extra s).warnings := by
  induction extra generalizing s with
  | nil => cases hMem
  | cons other extra ih =>
      unfold applyExtra
      rcases List.mem_cons.1 hMem with rfl | hMem
      · rw [if_pos (by simpa using hPath)]
        apply warnings_subset_applyExtra
        exact List.mem_append_right _ List.mem_cons_self
      · split
        · exact ih _ hMem
        · exact ih _ hMem

end

------------------------------------------------------------
-- Confinement
------------------------------------------------------------

/- In terms of the path's parts. -/
theorem isSysctlPath_iff (path : Text) :
    isSysctlPath path = true ↔
      "/proc/sys/".toList <+: path ∧
        "..".toList ∉ Text.split '/' path := by
  unfold isSysctlPath
  rw [Bool.and_eq_true, List.isPrefixOf_iff_prefix,
    Bool.not_eq_true', List.any_eq_false]
  simp only [decide_eq_true_eq]
  constructor
  · intro hPath
    refine ⟨hPath.1, ?_⟩
    intro hMem
    exact hPath.2 _ hMem rfl
  · intro hPath
    refine ⟨hPath.1, ?_⟩
    intro part hPart hUp
    exact hPath.2 (hUp ▸ hPart)

/- Without a step up, a path stays beneath where it is. -/
theorem prefix_foldl_follow
    {parts : List Text} (hUp : "..".toList ∉ parts)
    (here : Landlock.Path) :
    here <+: parts.foldl follow here := by
  induction parts generalizing here with
  | nil => exact List.prefix_rfl
  | cons part parts ih =>
      rw [List.mem_cons, not_or] at hUp
      rw [List.foldl_cons]
      have hStep : here <+: follow here part := by
        unfold follow
        split
        · exact List.prefix_rfl
        · rw [if_neg (Ne.symm hUp.1)]
          exact List.prefix_append _ _
      exact hStep.trans (ih hUp.2 _)

/- `/proc/sys`. -/
def sysctlRoot : Landlock.Path :=
  ["proc".toList, "sys".toList]

/- The first three parts of such a path. -/
theorem split_procSys (rest : Text) :
    Text.split '/' ("/proc/sys/".toList ++ rest) =
      [[], "proc".toList, "sys".toList] ++
        Text.split '/' rest := by
  have hParts :
      "/proc/sys/".toList ++ rest =
        [] ++ '/' :: ("proc".toList ++
          '/' :: ("sys".toList ++ '/' :: rest)) :=
    rfl
  unfold Text.split
  rw [hParts, List.splitOn_append_cons_self_of_not_mem,
    List.splitOn_append_cons_self_of_not_mem,
    List.splitOn_append_cons_self_of_not_mem]
  · rfl
  · decide
  · decide
  · decide

/- What is accepted leads to `/proc/sys` or beneath it. -/
theorem sysctlRoot_prefix_locate
    {path : Text} (hPath : isSysctlPath path = true) :
    sysctlRoot <+: locate path := by
  rcases (isSysctlPath_iff path).1 hPath with
    ⟨⟨rest, rfl⟩, hUp⟩
  unfold locate
  rw [split_procSys] at hUp ⊢
  rw [List.mem_append, not_or] at hUp
  rw [List.foldl_append]
  exact prefix_foldl_follow hUp.2 sysctlRoot

end Hardening

end Guest

end CargoUnikernel
