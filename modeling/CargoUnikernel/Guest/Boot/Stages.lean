import CargoUnikernel.Guest.Boot.Machine

/-
  How far a boot has come.

  A stage is a table of mounts and some marks of what was
  done besides. Names lead elsewhere only on the volume, so
  a path that is not on it is where it says. Most calls leave
  the stage as it is.

  Main declarations:
    * `LinksOnVolume`, `landed_eq`
    * `Marks`, `Stage`
    * `Request.isQuiet`, `Stage.of_quiet`
-/

------------------------------------------------------------
-- Places
------------------------------------------------------------

namespace CargoUnikernel

namespace Guest

namespace Boot

open Landlock (locate)

/- The places that the init mounts at and works in. -/
def procDir : Path := [['p', 'r', 'o', 'c']]
def sysDir : Path := [['s', 'y', 's']]
def devDir : Path := [['d', 'e', 'v']]
def tmpDir : Path := [['t', 'm', 'p']]
def runDir : Path := [['r', 'u', 'n']]
def shmDir : Path := [['d', 'e', 'v'], ['s', 'h', 'm']]
def ptsDir : Path := [['d', 'e', 'v'], ['p', 't', 's']]
def varDir : Path := [['v', 'a', 'r']]
def varTmpDir : Path := [['v', 'a', 'r'], ['t', 'm', 'p']]
def etcDir : Path := [['e', 't', 'c']]
def payloadRoot : Path := [['p', 'a', 'y', 'l', 'o', 'a', 'd']]

/- They are where their paths lead. -/
theorem locate_proc : locate "/proc".toList = procDir := rfl
theorem locate_sys : locate "/sys".toList = sysDir := rfl
theorem locate_dev : locate "/dev".toList = devDir := rfl
theorem locate_tmp : locate "/tmp".toList = tmpDir := rfl
theorem locate_run : locate "/run".toList = runDir := rfl
theorem locate_shm : locate "/dev/shm".toList = shmDir := rfl
theorem locate_var : locate "/var".toList = varDir := rfl

theorem locate_payloadDir : locate payloadDir = payloadRoot :=
  rfl

/- A path that the volume has no name on the way to. -/
def IsOffVolume (path : Path) : Prop :=
  varDir <+: path → path = varDir

/- What is not below `/var` is not on the volume. -/
theorem isOffVolume_of_not_beneath
    {path : Path} (hPrefix : varDir.isPrefixOf path = false) :
    IsOffVolume path := by
  intro hVar
  rw [List.isPrefixOf_iff_prefix.2 hVar] at hPrefix
  cases hPrefix

/- Names lead elsewhere only on the volume. -/
def LinksOnVolume (s : Machine) : Prop :=
  ∀ link, s.entry link = .symlink →
    varDir <+: link ∧ link ≠ varDir

/- A path off the volume meets no link. -/
theorem no_link_above
    {s : Machine} {path link : Path}
    (hLinks : LinksOnVolume s) (hOff : IsOffVolume path)
    (hPrefix : link <+: path) :
    s.entry link ≠ .symlink := by
  intro hLink
  rcases hLinks link hLink with ⟨hVar, hNot⟩
  rw [hOff (hVar.trans hPrefix)] at hPrefix
  exact hNot (hPrefix.eq_of_length_le hVar.length_le)

/- So it is reached under its own name. -/
theorem landed_eq
    {s : Machine} {path landed : Path}
    (hLinks : LinksOnVolume s) (hOff : IsOffVolume path)
    (hLands : s.Lands path landed) :
    landed = path := by
  rcases hLands with hSame | ⟨link, hPrefix, hLink⟩
  · exact hSame
  · exact absurd hLink (no_link_above hLinks hOff hPrefix)

/- Its own name may be one of the volume. -/
theorem landedNoFollow_eq
    {s : Machine} {path landed : Path}
    (hLinks : LinksOnVolume s)
    (hOff : IsOffVolume path.dropLast)
    (hLands : s.LandsNoFollow path landed) :
    landed = path := by
  rcases hLands with hSame | ⟨link, hPrefix, hLink⟩
  · exact hSame
  · exact absurd hLink (no_link_above hLinks hOff hPrefix)

------------------------------------------------------------
-- Stages
------------------------------------------------------------

/- What a boot has done besides mounting. -/
structure Marks where
  rootSealed : Bool
  filtered : Bool
  handlesSigterm : Bool
  seeded : Bool
  ids : Nat × Nat
  owned : List Path

/- What is known of the machine between two stages. -/
structure Stage
    (table : Table) (marks : Marks) (s : Machine) : Prop where
  mounts : s.mounts = table
  links : LinksOnVolume s
  rootSealed : s.rootSealed = marks.rootSealed
  filtered : marks.filtered = true → s.filtered = true
  handlesSigterm :
    marks.handlesSigterm = true → s.handlesSigterm = true
  seeded : s.seeded = marks.seeded
  owned : ∀ dir ∈ marks.owned, s.owner dir = some marks.ids
  unwiped : s.wipeStarted = false

section

variable {table : Table} {marks : Marks} {s t : Machine}

/- What the table says can be reached can be. -/
theorem Stage.reaches
    {path : Path} (hStage : Stage table marks s)
    (hReaches : Boot.reaches table path = true) :
    s.Reaches path := by
  unfold Machine.Reaches
  rwa [hStage.mounts]

/- What the table says can be written can be. -/
theorem Stage.writes
    {path : Path} (hStage : Stage table marks s)
    (hWritable : writable table marks.rootSealed path = true) :
    s.Writes path := by
  unfold Machine.Writes
  rwa [hStage.mounts, hStage.rootSealed]

/- What the table says can be executed can be. -/
theorem Stage.executes
    {path : Path} (hStage : Stage table marks s)
    (hExecutable : executable table path = true) :
    s.Executes path := by
  unfold Machine.Executes
  rwa [hStage.mounts]

/- A new directory is no name that leads elsewhere. -/
theorem Stage.makesDirectory
    {path : Path} (hStage : Stage table marks s)
    (hMakes : s.MakesDirectory path t) :
    Stage table marks t := by
  rcases hMakes with ⟨landed, _, _, hMakes⟩
  rw [hMakes]
  refine { hStage with links := ?_ }
  intro link hLink
  apply hStage.links
  have hLink :
      Function.update s.entry landed .directory link =
        .symlink := hLink
  by_cases hSame : link = landed
  · rw [hSame, Function.update_self] at hLink
    cases hLink
  · rwa [Function.update_of_ne hSame] at hLink

/- The calls that leave a stage as it is. -/
def Request.isQuiet : Request → Bool
| .act (.mount _ _ _ _ _) | .act (.mountBind _ _)
| .act (.mountRemount _ _ _) | .act (.chown _ _ _)
| .act (.unmount _) | .poll | .swapWipeStarted => false
| _ => true

/- An action that is none of a stage's own keeps it. -/
theorem Stage.of_effect
    {action : Action} (hStage : Stage table marks s)
    (hQuiet : (Request.act action).isQuiet = true)
    (hEffect : action.Effect s t) :
    Stage table marks t := by
  cases action with
  | createDirAll path =>
      rcases hEffect with hSame | hMakes
      · rwa [hSame]
      · exact hStage.makesDirectory hMakes
  | createDir path => exact hStage.makesDirectory hEffect
  | sendBatch batch =>
      rw [show t = _ from hEffect]
      exact { hStage with filtered := fun _ => rfl }
  | signalSigterm =>
      rw [show t = _ from hEffect]
      exact { hStage with handlesSigterm := fun _ => rfl }
  | killAll =>
      rw [show t = _ from hEffect]
      exact { hStage with }
  | reboot halt =>
      rw [show t = _ from hEffect]
      exact { hStage with }
  | mount source target fstype flags data => cases hQuiet
  | mountBind source target => cases hQuiet
  | mountRemount target flags data => cases hQuiet
  | chown path uid gid => cases hQuiet
  | unmount path => cases hQuiet
  | write path contents =>
      rw [show t = s from hEffect.2]
      exact hStage
  | _ =>
      rw [show t = s from hEffect]
      exact hStage

/- So does a request, whatever the answer. -/
theorem Stage.of_quiet
    {request : Request} {answer : Answer request}
    (hStage : Stage table marks s)
    (hQuiet : request.isQuiet = true)
    (hProceeds : Proceeds s request answer t) :
    Stage table marks t := by
  cases request with
  | act action =>
      cases answer with
      | error errno =>
          rw [show t = s from hProceeds]
          exact hStage
      | ok done => exact hStage.of_effect hQuiet hProceeds.2
  | ask query =>
      rw [show t = s from hProceeds.2]
      exact hStage
  | poll => cases hQuiet
  | swapWipeStarted => cases hQuiet
  | scrubDir path =>
      rw [show t = _ from hProceeds]
      exact { hStage with }
  | spawn launch =>
      cases answer with
      | error errno =>
          rw [show t = s from hProceeds]
          exact hStage
      | ok pid =>
          rw [show t = s from hProceeds.2]
          exact hStage

end

end Boot

end Guest

end CargoUnikernel
