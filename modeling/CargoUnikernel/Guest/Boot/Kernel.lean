import CargoUnikernel.Guest.Boot.Outcomes

/-
  A kernel that the init can run on.

  It grants what it is willing to and what is ready, and no
  more. The devices are as a boot would have them. All that
  it does is possible.

  Main declarations:
    * `Kernel`, `Kernel.act`, `Kernel.tell`
    * `Kernel.serve`, `Kernel.possible_serve`
    * `Kernel.run`, `Kernel.runs_handle`, `Kernel.runs_run`
    * `firstSession`, `start_firstMachine`
-/

------------------------------------------------------------
-- What Is Ready
------------------------------------------------------------

namespace CargoUnikernel

namespace Guest

namespace Boot

open Calls
open Landlock (locate)

instance decidableReaches (s : Machine) (path : Path) :
    Decidable (s.Reaches path) :=
  inferInstanceAs (Decidable (_ = true))

instance decidableWrites (s : Machine) (path : Path) :
    Decidable (s.Writes path) :=
  inferInstanceAs (Decidable (_ = true))

instance decidableExecutes (s : Machine) (path : Path) :
    Decidable (s.Executes path) :=
  inferInstanceAs (Decidable (_ = true))

instance decidableHasParent (s : Machine) (path : Path) :
    Decidable (s.HasParent path) :=
  inferInstanceAs (Decidable (_ → _))

instance decidableActionReady (s : Machine) :
    (action : Action) → Decidable (action.Ready s)
| .createDirAll path | .createDir path | .chown path _ _
| .write path _ | .setPermissions path _ =>
    inferInstanceAs (Decidable (s.Writes (locate path)))
| .mount source (.path text) fstype _ _ =>
    inferInstanceAs
      (Decidable
        ((fstype = .ext4 → s.Reaches (locate source)) ∧
          s.Reaches (locate text)))
| .mount source (.fd _) fstype _ _ =>
    inferInstanceAs
      (Decidable
        ((fstype = .ext4 → s.Reaches (locate source)) ∧
          s.Reaches selfFd))
| .mountBind source target =>
    inferInstanceAs
      (Decidable
        (s.Reaches (locate source) ∧
          s.Reaches (locate target)))
| .mountRemount target _ _ =>
    inferInstanceAs
      (Decidable
        (MountTable.IsMountPoint s.mounts (locate target)))
| .mlockall | .setNotDumpable | .sendBatch _
| .signalSigterm | .setNonblocking _
| .landlockCreateRuleset _ _ _ | .landlockAddRule _ _
| .unmount _ | .killAll | .sync | .reboot _ =>
    inferInstanceAs (Decidable True)

instance decidableLaunchReady
    (s : Machine) (launch : Launch) :
    Decidable (launch.Ready s) :=
  inferInstanceAs
    (Decidable
      (s.Executes (locate launch.program) ∧
        (launch.nullStdio = true →
          s.Reaches (locate "/dev/null".toList))))

------------------------------------------------------------
-- A Kernel
------------------------------------------------------------

/-
  What it is willing to do, the files that it has, and the
  names that are in its directories. A wipe is in time or it
  is not.
-/
structure Kernel where
  grants : Action → Bool
  hasFile : Text → Bool
  read : Text → Except Errno Text
  names : List Text
  areNames : ∀ name ∈ names, IsFileName name
  wipesInTime : Bool

namespace Kernel

/- The errors that this kernel answers. -/
def eperm : Errno := 1
def enoent : Errno := 2
def einval : Errno := 22

/- Where a mount is asked to be. -/
def targetPath : Target → Path
| .path text => locate text
| .fd directory => directory

/- A new file system has nothing but its root. -/
def mounted
    (s : Machine) (landed : Path) (path : Path) : Entry :=
  if landed.isPrefixOf path then
    if path = landed then .directory else .absent
  else
    s.entry path

/- What comes of a call that is ready. -/
def effect (s : Machine) : Action → Except Errno Machine
| .sendBatch _ => .ok { s with filtered := true }
| .createDir path =>
    if s.entry (locate path) = .absent then
      .ok
        { s with
          entry :=
            Function.update s.entry (locate path) .directory }
    else
      .error eexist
| .mount _ target fstype flags data =>
    .ok
      { s with
        mounts :=
          { target := targetPath target
            kind := ⟨fstype, data.getD []⟩
            flags := flags.toFlags } :: s.mounts
        entry := mounted s (targetPath target) }
| .mountBind source target =>
    .ok
      { s with
        mounts :=
          MountTable.bind s.mounts (locate source)
            (locate target)
        entry := fun path =>
          if (locate target).isPrefixOf path then
            s.entry
              (locate source ++
                path.drop (locate target).length)
          else
            s.entry path }
| .mountRemount target flags data =>
    .ok
      { s with
        mounts :=
          MountTable.update (remounted flags data) s.mounts
            (locate target)
        rootSealed :=
          s.rootSealed ||
            sealsRoot s.mounts (locate target) flags }
| .signalSigterm => .ok { s with handlesSigterm := true }
| .write path _ =>
    if s.HasParent (locate path) then .ok s else .error enoent
| .chown path uid gid =>
    .ok
      { s with
        owner :=
          Function.update s.owner (locate path)
            (some (uid, gid)) }
| .killAll => .ok { s with killed := true }
| .unmount path =>
    if MountTable.IsMountPoint s.mounts (locate path) then
      .ok
        { s with
          mounts :=
            MountTable.unmount s.mounts (locate path) }
    else
      .error einval
| .reboot _ => .ok { s with poweredOff := true }
| _ => .ok s

/- An action that is allowed and ready has its effect. -/
def act
    (kernel : Kernel) (s : Machine) (action : Action) :
    Except Errno Machine :=
  if kernel.grants action = false then
    .error eperm
  else if action.Ready s then
    effect s action
  else
    .error einval

/- Only directories are opened. -/
def opened (s : Machine) (path : Path) : Except Errno Path :=
  if s.entry path = .directory then
    .ok path
  else
    .error enoent

/- The directories have no entries. -/
def tell
    (kernel : Kernel) (s : Machine) :
    (query : Query) → query.Answer
| .processId => s.pid
| .openNoFollow path => opened s (locate path)
| .deviceCarriesOurMarker => .ok true
| .wipeAndFormat => .ok ()
| .readDir _ => .ok (kernel.names.map .ok)
| .readToString path => kernel.read path
| .fileExists path | .openFile path => kernel.hasFile path
| .now => (0 : Nat)
| .sleep => ()
| .ioctl _ _ arg => .ok arg
| .buildBaselineDenylist => true
| .landlockAbi => (Landlock.minAbi : Int)
| .landlockOpen _ => .ok .directory
| .reap | .testKill => false
| .spawnWatcher | .armWipeDeadline => true
| .wipeDeadlineReached => !kernel.wipesInTime

/- A request with the answer and what becomes of it. -/
def serve
    (kernel : Kernel) (s : Machine) :
    (request : Request) → Answer request × Machine
| .act action =>
    match kernel.act s action with
    | .ok t => (.ok (), t)
    | .error errno => (.error errno, s)
| .ask query => (kernel.tell s query, s)
| .poll => (.events true, { s with seeded := true })
| .swapWipeStarted =>
    (s.wipeStarted, { s with wipeStarted := true })
| .scrubDir path =>
    ((), { s with scrubbed := locate path :: s.scrubbed })
| .spawn launch =>
    if launch.Ready s then
      (.ok 2, s)
    else
      (.error einval, s)

------------------------------------------------------------
-- What It Does Is Possible
------------------------------------------------------------

/- No name leads elsewhere beneath a new mount. -/
theorem newEntries_mounted
    {s t : Machine} {landed : Path} (fstype : FsType)
    (hEntry : t.entry = mounted s landed) :
    NewEntries fstype s t landed := by
  unfold NewEntries
  rw [hEntry]
  constructor
  · intro path hOff
    unfold mounted
    rw [← List.isPrefixOf_iff_prefix] at hOff
    exact if_neg hOff
  · intro path hOn hLink
    unfold mounted at hLink
    rw [← List.isPrefixOf_iff_prefix] at hOn
    rw [if_pos hOn] at hLink
    split at hLink
    · cases hLink
    · cases hLink

/- What this kernel does is what an action may do. -/
theorem effect_of_effect
    {s t : Machine} {action : Action}
    (hEffect : effect s action = .ok t) :
    action.Effect s t := by
  have hSame {u : Machine}
      (hOk : (Except.ok u : Except Errno Machine) = .ok t) :
      t = u :=
    (Except.ok.inj hOk).symm
  cases action with
  | createDirAll path => exact .inl (hSame hEffect)
  | createDir path =>
      simp only [effect] at hEffect
      split at hEffect
      · next hAbsent =>
          exact ⟨_, .inl rfl, hAbsent, hSame hEffect⟩
      · cases hEffect
  | mount source target fstype flags data =>
      refine ⟨targetPath target, ?_, ?_, ?_⟩
      · cases target with
        | path text => exact .inl rfl
        | fd directory => rfl
      · rw [hSame hEffect]
        exact newEntries_mounted fstype rfl
      · rw [hSame hEffect]
  | mountBind source target =>
      exact ⟨_, _, .inl rfl, .inl rfl, hSame hEffect⟩
  | mountRemount target flags data =>
      exact ⟨_, .inl rfl, hSame hEffect⟩
  | chown path uid gid =>
      exact ⟨_, .inl rfl, hSame hEffect⟩
  | write path contents =>
      simp only [effect] at hEffect
      split at hEffect
      · next hParent => exact ⟨hParent, hSame hEffect⟩
      · cases hEffect
  | unmount path =>
      simp only [effect] at hEffect
      split at hEffect
      · next hPoint =>
          exact ⟨_, .inl rfl, hPoint, hSame hEffect⟩
      · cases hEffect
  | _ => exact hSame hEffect

/- What it opens is a directory. -/
theorem consistent_opened
    {s : Machine} {path : Text} {answer : Except Errno Path}
    (hOpened : opened s (locate path) = answer) :
    Query.Consistent s (.openNoFollow path) answer := by
  cases answer with
  | error errno => exact trivial
  | ok directory =>
      unfold opened at hOpened
      split at hOpened
      · next hDirectory =>
          cases hOpened
          exact ⟨hDirectory, .inl rfl⟩
      · cases hOpened

/- What it tells agrees with the machine. -/
theorem consistent_tell
    (kernel : Kernel) (s : Machine) (query : Query) :
    query.Consistent s (kernel.tell s query) := by
  cases query with
  | processId => rfl
  | openNoFollow path =>
      exact consistent_opened rfl
  | readDir path =>
      intro name hMem
      rcases List.mem_map.1 hMem with ⟨other, hOther, hSame⟩
      rw [← Except.ok.inj hSame]
      exact kernel.areNames other hOther
  | ioctl inet6 request arg => exact ⟨rfl, fun _ => rfl⟩
  | _ => exact trivial

/- Every request is served as the model allows. -/
theorem proceeds_serve
    (kernel : Kernel) (s : Machine) (request : Request) :
    Proceeds s request (kernel.serve s request).1
      (kernel.serve s request).2 := by
  cases request with
  | act action =>
      simp only [serve]
      cases hAct : kernel.act s action with
      | error errno => rfl
      | ok t =>
          unfold act at hAct
          split at hAct
          · cases hAct
          · split at hAct
            · next hReady =>
                exact ⟨hReady, effect_of_effect hAct⟩
            · cases hAct
  | ask query => exact ⟨consistent_tell kernel s query, rfl⟩
  | spawn launch =>
      simp only [serve]
      split
      · next hReady => exact ⟨hReady, rfl⟩
      · rfl
  | swapWipeStarted => exact ⟨rfl, rfl⟩
  | poll => rfl
  | scrubDir path => rfl

/- The same, and what it refuses is kept. -/
def handle
    (kernel : Kernel) (s : Session) (request : Request) :
    Answer request × Session :=
  let reply := kernel.serve s.machine request
  ⟨reply.1,
    { machine := reply.2
      refused :=
        if refuses request reply.1 then
          ⟨request, reply.1⟩ :: s.refused
        else
          s.refused }⟩

/- A run of the init on the kernel. -/
def run
    (kernel : Kernel) (image : Image) (turns : Nat)
    (s : Session) :
    Calls.Outcome Session Request Answer (Except Stop End) :=
  exec kernel.handle (main image turns) s

/- So to run on this kernel is to run. -/
theorem runs_handle
    {α : Type} (kernel : Kernel)
    (script : Script Request Answer α) (s : Session) :
    Runs Possible Eq script s
      (exec kernel.handle script s).trace
      (.done (exec kernel.handle script s).value)
      (exec kernel.handle script s).state := by
  apply runs_exec
  · intro now request
    exact ⟨kernel.proceeds_serve now.machine request, rfl⟩
  · intro now
    rfl

/- In particular the whole init. -/
theorem runs_run
    (kernel : Kernel) (image : Image) (turns : Nat)
    (s : Session) :
    Runs Possible Eq (main image turns) s
      (kernel.run image turns s).trace
      (.done (kernel.run image turns s).value)
      (kernel.run image turns s).state :=
  kernel.runs_handle (main image turns) s

/- It grants all that is ready. -/
def willing : Kernel where
  grants := fun _ => true
  hasFile := fun _ => true
  read := fun _ => .error enoent
  names := []
  areNames := List.forall_mem_nil _
  wipesInTime := true

/- Nothing can be done. -/
def unwilling : Kernel :=
  { willing with grants := fun _ => false }

/- Nothing can be made executable. -/
def strict : Kernel :=
  { willing with
    grants := fun
      | .setPermissions _ _ => false
      | _ => true }

/- The same, and the wipe takes too long. -/
def slow : Kernel :=
  { strict with wipesInTime := false }

/- An interface besides the loopback. -/
def eth0 : Text := "eth0".toList

/- The name can be that of a directory. -/
theorem isFileName_eth0 : IsFileName eth0 where
  noSlash := by decide
  noNul := by decide
  nonempty := by decide
  notDot := by decide
  notUp := by decide

/- All that is ready is granted, and there is a link. -/
def wired : Kernel :=
  { willing with
    names := [eth0]
    areNames := by
      intro name hMem
      rw [List.mem_singleton.1 hMem]
      exact isFileName_eth0 }

end Kernel

------------------------------------------------------------
-- Where It Starts
------------------------------------------------------------

/- A root file system that is read and written. -/
def plainRoot : Root where
  options := []
  noSuid := false
  noDev := false
  noExec := false

/- The root is mounted, and nothing is done yet. -/
def firstMachine : Machine where
  pid := 1
  mounts := [plainRoot.mount]
  entry := fun _ => .absent
  rootSealed := false
  owner := fun _ => none
  filtered := false
  handlesSigterm := false
  seeded := false
  wipeStarted := false
  killed := false
  scrubbed := []
  poweredOff := false

/- A boot before its first call. -/
def firstSession : Session where
  machine := firstMachine
  refused := []

/- A boot can start there. -/
theorem start_firstMachine : Start firstMachine where
  mounts := ⟨plainRoot, rfl⟩
  plain := nofun
  unsealed := rfl
  unseeded := rfl
  unwiped := rfl

/- An init that is built with no features and no exports. -/
def plainImage : Image where
  features := []
  constant := BuildScript.constant []
  payload := rfl
  app := rfl

/- The boot has ended with the machine off. -/
def isPoweredOff : Except Stop End → Bool
| .ok (.poweredOff _) => true
| _ => false

/- The boot has come to the app's supervision. -/
def isWatching : Except Stop End → Bool
| .ok (.watching _) => true
| _ => false

/- A test on what was computed, as an equation. -/
theorem eq_ok_of_isOk
    {ended : Except Stop Unit} (hOk : ended.isOk = true) :
    ended = .ok () := by
  cases ended with
  | error stopped => cases hOk
  | ok done => rfl

theorem poweredOff_of_isPoweredOff
    {ended : Except Stop End}
    (hEnded : isPoweredOff ended = true) :
    ∃ failure, ended = .ok (.poweredOff failure) := by
  unfold isPoweredOff at hEnded
  split at hEnded
  · next failure => exact ⟨failure, rfl⟩
  · cases hEnded

theorem watching_of_isWatching
    {ended : Except Stop End}
    (hEnded : isWatching ended = true) :
    ∃ appPid, ended = .ok (.watching appPid) := by
  unfold isWatching at hEnded
  split at hEnded
  · next appPid => exact ⟨appPid, rfl⟩
  · cases hEnded

end Boot

end Guest

end CargoUnikernel
