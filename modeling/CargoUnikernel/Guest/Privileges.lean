import CargoUnikernel.Guest.Baked
import CargoUnikernel.Guest.Seccomp
import CargoUnikernel.Library.CallChains
import Mathlib.Logic.Function.Basic

/-
  How the app's process gives up its privileges.

  The closures run one after another between the fork and the
  exec, and the first failure is the end. Each call has to be
  made while the process may still make it. A call may fail
  at any time; but dropping a capability is answered `EINVAL`
  only if the kernel does not have that capability.

  Main declarations:
    * `Process`, `Privileged`, `effect`, `Possible`
    * `dropPrivileges`, `preExec`, `spawnApp`
    * `Dropped`, `Fine`, `CompleteOrNotExecuted`
    * `complete_or_not_executed`
    * `installArchGate_attaches`
-/

------------------------------------------------------------
-- The Process
------------------------------------------------------------

namespace CargoUnikernel

namespace Guest

namespace Privileges

open Baked Calls CallChains Seccomp

/- An error of the kernel. -/
abbrev Errno := Nat

/- What a capability that is not known is answered. -/
def einval : Errno := 22

/- The capabilities that the calls ask for. -/
def capSetgid : Nat := 6
def capSetuid : Nat := 7
def capSetpcap : Nat := 8
def capSysAdmin : Nat := 21
def capSysResource : Nat := 24

/- What the app's process is limited in. -/
inductive Resource
| nofile
| nproc
| memlock
| as
deriving DecidableEq

/- The ids of one kind: three that may differ. -/
structure Ids where
  real : Nat
  effective : Nat
  saved : Nat
deriving DecidableEq

/- Both limits of a resource. -/
structure Rlimit where
  current : Nat
  maximum : Nat

/- What the kernel keeps of a process, as far as it is used. -/
structure Process where
  uid : Ids
  gid : Ids
  groups : List Nat
  bounding : Nat → Bool
  permitted : Nat → Bool
  effective : Nat → Bool
  keepCaps : Bool
  noSetuidFixup : Bool
  noNewPrivs : Bool
  rlimit : Resource → Rlimit
  mdwe : Nat
  rulesets : List Int
  filters : Filters

/- The calls of the closures, and the exec after them. -/
inductive Request
| setrlimit (resource : Resource) (limit : Rlimit)
| capbsetDrop (cap : Nat)
| setgroups (groups : List Nat)
| setgid (gid : Nat)
| setuid (uid : Nat)
| setMdwe (bits : Nat)
| setNoNewPrivs
| landlockRestrictSelf (rulesetFd : Int)
| setSeccomp (program : Program)
| execve

------------------------------------------------------------
-- The Kernel
------------------------------------------------------------

namespace Ids

/- All three of them the same. -/
def all (id : Nat) : Ids :=
  { real := id
    effective := id
    saved := id }

/- One of them is root's. -/
def hasZero (ids : Ids) : Bool :=
  ids.real = 0 || ids.effective = 0 || ids.saved = 0

/- All of them, or else the effective one alone. -/
def set (ids : Ids) (privileged : Bool) (id : Nat) : Ids :=
  if privileged then all id else { ids with effective := id }

end Ids

/- Whether a process has the privilege that a call needs. -/
def Privileged (s : Process) : Request → Prop
| .setrlimit resource limit =>
    limit.maximum ≤ (s.rlimit resource).maximum ∨
      s.effective capSysResource = true
| .capbsetDrop _ => s.effective capSetpcap = true
| .setgroups _ => s.effective capSetgid = true
| .setgid gid =>
    s.effective capSetgid = true ∨ gid = s.gid.real ∨
      gid = s.gid.saved
| .setuid uid =>
    s.effective capSetuid = true ∨ uid = s.uid.real ∨
      uid = s.uid.saved
| .landlockRestrictSelf _ | .setSeccomp _ =>
    s.noNewPrivs = true ∨ s.effective capSysAdmin = true
| .setMdwe _ | .setNoNewPrivs | .execve => True

/- What becomes of the capabilities with other user ids. -/
def setuidFixup (old : Ids) (s : Process) : Process :=
  if s.noSetuidFixup then
    s
  else
    let left := old.hasZero && !s.uid.hasZero && !s.keepCaps
    let permitted := fun cap => s.permitted cap && !left
    let effective := fun cap => s.effective cap && !left
    { s with
      permitted := permitted
      effective :=
        if old.effective = 0 ∧ s.uid.effective ≠ 0 then
          fun _ => false
        else if old.effective ≠ 0 ∧ s.uid.effective = 0 then
          permitted
        else
          effective }

/- What a call does when it succeeds. -/
def effect (s : Process) : Request → Process
| .setrlimit resource limit =>
    { s with rlimit := Function.update s.rlimit resource limit }
| .capbsetDrop cap =>
    { s with bounding := Function.update s.bounding cap false }
| .setgroups groups => { s with groups := groups }
| .setgid gid =>
    { s with gid := s.gid.set (s.effective capSetgid) gid }
| .setuid uid =>
    setuidFixup s.uid
      { s with uid := s.uid.set (s.effective capSetuid) uid }
| .setMdwe bits => { s with mdwe := bits }
| .setNoNewPrivs => { s with noNewPrivs := true }
| .landlockRestrictSelf rulesetFd =>
    { s with rulesets := rulesetFd :: s.rulesets }
| .setSeccomp program =>
    { s with filters := program :: s.filters }
| .execve => s

/-
  A call may fail with any error at all, and changes nothing
  then. The one exception is a capability that there is.
-/
def Possible
    (lastCap : Nat) (s : Process) (request : Request)
    (answer : Except Errno Unit) (t : Process) : Prop :=
  match answer with
  | .ok () =>
      Privileged s request ∧ t = effect s request ∧
        ∀ cap, request = .capbsetDrop cap → cap ≤ lastCap
  | .error errno =>
      t = s ∧
        ∀ cap, request = .capbsetDrop cap →
          cap ≤ lastCap → errno ≠ einval

------------------------------------------------------------
-- The Closures
------------------------------------------------------------

/- An error of the system, or one that is made of a text. -/
inductive IoError
| os (errno : Errno)
| other (text : Text)

namespace IoError

/- The kernel's error, if it is one. -/
def rawOsError : IoError → Option Errno
| .os errno => some errno
| .other _ => none

end IoError

/- A closure that runs before the exec. -/
abbrev Closure := Chain Request Errno IoError

/- No call is left to make. -/
def succeed : Closure := .done (.ok ())

/- A call whose failure is the closure's. -/
def call (request : Request) : Closure :=
  syscall .os request

/- Both limits, so that neither can be raised. -/
def setRlimit (resource : Resource) (value : Nat) : Closure :=
  call
    (.setrlimit resource
      { current := value
        maximum := value })

/- Zero leaves the address space unlimited. -/
def applyResourceLimits (limits : ResourceLimits) : Closure :=
  (setRlimit .nofile limits.nofile).andThen
    ((setRlimit .nproc limits.nproc).andThen
      ((setRlimit .memlock limits.memlockBytes).andThen
        (if limits.addressSpaceBytes > 0 then
          setRlimit .as limits.addressSpaceBytes
        else
          succeed)))

/- `EINVAL` is passed over, any other error is the end. -/
def dropBounding : List Nat → Closure
| [] => succeed
| cap :: caps =>
    .call (.capbsetDrop cap) fun answer =>
      match answer with
      | .ok () => dropBounding caps
      | .error errno =>
          if (IoError.os errno).rawOsError ≠ some einval then
            .done (.error (.os errno))
          else
            dropBounding caps

/- Capabilities, groups, and only then the ids. -/
def dropPrivileges (uid gid : Nat) : Closure :=
  (dropBounding (List.range 64)).andThen
    ((call (.setgroups [])).andThen
      ((call (.setgid gid)).andThen (call (.setuid uid))))

/- No memory becomes executable later. -/
def prMdweRefuseExecGain : Nat := 1

/- Left out where the config accepts the danger. -/
def setMdwe (dangerAllowWriteExecute : Bool) : Closure :=
  if dangerAllowWriteExecute then
    succeed
  else
    call (.setMdwe prMdweRefuseExecGain)

/- Landlock asks for the same bit as seccomp. -/
def restrictSelf (rulesetFd : Int) : Closure :=
  (call .setNoNewPrivs).andThen
    (call (.landlockRestrictSelf rulesetFd))

/- The filter that kills calls of another architecture. -/
def installArchGate : Closure :=
  (call .setNoNewPrivs).andThen
    (call (.setSeccomp archGateProgram))

/- What the closures are given, with ids that are accepted. -/
structure App where
  limits : ResourceLimits
  uid : Nat
  gid : Nat
  dangerAllowWriteExecute : Bool
  rulesetFd : Option Int
  seccompProgram : Program
  accepted : validateAppIds uid gid = .ok ()

section

variable (applyFilter : Program → Chain Request Errno Text)

/- The gate first, and then the crate's filter. -/
def installBaselineDenylist (program : Program) : Closure :=
  installArchGate.andThen
    ((applyFilter program).mapError .other)

/- Both filters are there, or the closure fails. -/
def installSeccompBaseline (program : Program) : Closure :=
  installBaselineDenylist applyFilter program

/- The closures in the order in which they are registered. -/
def preExec (app : App) : Closure :=
  (applyResourceLimits app.limits).andThen
    ((dropPrivileges app.uid app.gid).andThen
      ((setMdwe app.dangerAllowWriteExecute).andThen
        ((match app.rulesetFd with
          | none => succeed
          | some rulesetFd => restrictSelf rulesetFd).andThen
          (installSeccompBaseline applyFilter
            app.seccompProgram))))

/- The child, from the fork to the exec. -/
def spawnApp (app : App) : Closure :=
  (preExec applyFilter app).andThen (call .execve)

end

------------------------------------------------------------
-- What Is Given Up
------------------------------------------------------------

/-
  Root with every capability that the kernel has; there is no
  kernel without the first of them.
-/
structure Root (lastCap : Nat) (s : Process) : Prop where
  uid : s.uid = .all 0
  effective :
    ∀ cap, cap ≤ lastCap ∨ cap ≤ capSysResource →
      s.effective cap = true
  bounding : ∀ cap, s.bounding cap = true → cap ≤ lastCap

/- What a process is that has given up everything. -/
structure Dropped (app : App) (s : Process) : Prop where
  bounding : ∀ cap, s.bounding cap = false
  groups : s.groups = []
  uid : s.uid = .all app.uid
  gid : s.gid = .all app.gid
  uidNonzero : app.uid ≠ 0
  gidNonzero : app.gid ≠ 0

/- No failure, or one for a capability that there is not. -/
def Fine
    (lastCap : Nat) (link : Link Process Request Errno) :
    Prop :=
  link.answer = .ok () ∨
    ∃ cap, lastCap < cap ∧ link.request = .capbsetDrop cap ∧
      link.answer = .error einval

/- The call has its privilege; the exec has all before it. -/
def May
    (lastCap : Nat) (app : App)
    (past : List (Link Process Request Errno)) (s : Process)
    (request : Request) : Prop :=
  Privileged s request ∧
    (request = .execve →
      (∀ link ∈ past, Fine lastCap link) ∧ Dropped app s)

/- A rule of pre- and postconditions for closures. -/
abbrev ClosureTriple
    (lastCap : Nat) (app : App) (Pre : Process → Prop)
    (closure : Closure) (Post : Process → Prop) : Prop :=
  Triple (Possible lastCap) (Fine lastCap) (May lastCap app)
    Pre closure Post

section

variable {lastCap : Nat} {app : App}
variable {Pre Post : Process → Prop}

/- One call that is none of the exec. -/
theorem call_triple
    {request : Request}
    (hNot : request ≠ .execve)
    (hPrivileged : ∀ s, Pre s → Privileged s request)
    (hPost : ∀ s, Pre s → Post (effect s request)) :
    ClosureTriple lastCap app Pre (call request) Post := by
  unfold call
  apply triple_syscall
  · intro past s hPre _
    refine ⟨hPrivileged s hPre, ?_⟩
    intro hExec
    exact absurd hExec hNot
  · intro s
    exact Or.inl rfl
  · intro s t hPre hPossible
    rw [hPossible.2.1]
    exact hPost s hPre

/- The first capabilities, by which the calls are allowed. -/
def Capable (s : Process) : Prop :=
  ∀ cap, cap ≤ capSysResource → s.effective cap = true

/- A process of root's may do all of this. -/
theorem Root.capable
    {s : Process}
    (hRoot : Root lastCap s) : Capable s := by
  intro cap hCap
  exact hRoot.effective cap (Or.inr hCap)

/- Limits are lowered before anything is given up. -/
theorem setRlimit_triple
    (resource : Resource) (value : Nat) :
    ClosureTriple lastCap app (Root lastCap)
      (setRlimit resource value) (Root lastCap) := by
  unfold setRlimit
  apply call_triple
  · intro hExec
    cases hExec
  · intro s hRoot
    apply Or.inr
    exact hRoot.capable capSysResource (Nat.le_refl _)
  · intro s hRoot
    exact ⟨hRoot.uid, hRoot.effective, hRoot.bounding⟩

/- All four of them. -/
theorem applyResourceLimits_triple
    (limits : ResourceLimits) :
    ClosureTriple lastCap app (Root lastCap)
      (applyResourceLimits limits) (Root lastCap) := by
  unfold applyResourceLimits
  apply triple_andThen (setRlimit_triple _ _)
  apply triple_andThen (setRlimit_triple _ _)
  apply triple_andThen (setRlimit_triple _ _)
  split
  · exact setRlimit_triple _ _
  · apply triple_done
    intro s hRoot
    exact hRoot

------------------------------------------------------------
-- Dropping Privileges
------------------------------------------------------------

/- What is left to drop is what there is. -/
structure Dropping
    (lastCap : Nat) (caps : List Nat) (s : Process) :
    Prop where
  capable : Capable s
  bounding :
    ∀ cap, s.bounding cap = true → cap ∈ caps ∧ cap ≤ lastCap

/- One capability after the other is dropped. -/
theorem Dropping.effect
    {cap : Nat} {caps : List Nat} {s : Process}
    (hDropping : Dropping lastCap (cap :: caps) s) :
    Dropping lastCap caps (effect s (.capbsetDrop cap)) := by
  refine ⟨hDropping.capable, ?_⟩
  intro other hOther
  by_cases hSame : other = cap
  · subst hSame
    simp [Privileges.effect] at hOther
  · have hStill : s.bounding other = true := by
      simpa [Privileges.effect, hSame] using hOther
    have hLeft := hDropping.bounding other hStill
    refine ⟨?_, hLeft.2⟩
    exact (List.mem_cons.1 hLeft.1).resolve_left hSame

/- A capability that there is not is not in the set. -/
theorem Dropping.skip
    {cap : Nat} {caps : List Nat} {s : Process}
    (hDropping : Dropping lastCap (cap :: caps) s)
    (hUndefined : lastCap < cap) :
    Dropping lastCap caps s := by
  refine ⟨hDropping.capable, ?_⟩
  intro other hOther
  have hLeft := hDropping.bounding other hOther
  refine ⟨?_, hLeft.2⟩
  apply (List.mem_cons.1 hLeft.1).resolve_left
  have hDefined := hLeft.2
  omega

/- By induction on those that are left. -/
theorem dropBounding_triple (caps : List Nat) :
    ClosureTriple lastCap app (Dropping lastCap caps)
      (dropBounding caps) (Dropping lastCap []) := by
  induction caps with
  | nil =>
      apply triple_done
      intro s hDropping
      exact hDropping
  | cons cap caps ih =>
      intro past s hDropping hPast
      constructor
      · constructor
        · exact hDropping.capable capSetpcap (by decide)
        · intro hExec
          cases hExec
      · intro answer after hPossible
        cases answer with
        | ok done =>
            rw [hPossible.2.1]
            apply ih _ _ hDropping.effect
            exact forall_mem_snoc hPast (Or.inl rfl)
        | error errno =>
            by_cases hErrno : errno = einval
            · subst hErrno
              have hUndefined : lastCap < cap := by
                by_contra hDefined
                exact
                  hPossible.2 cap rfl (by omega) rfl
              rw [hPossible.1]
              simp only [IoError.rawOsError, ne_eq,
                not_true_eq_false, if_false]
              apply ih _ _ (hDropping.skip hUndefined)
              apply forall_mem_snoc hPast
              exact Or.inr ⟨cap, hUndefined, rfl, rfl⟩
            · have hOther :
                  (IoError.os errno).rawOsError ≠
                    some einval := by
                simpa [IoError.rawOsError] using hErrno
              simp only [if_pos hOther]
              intro hOk
              cases hOk

/- The process, once its groups are gone. -/
structure WithoutGroups
    (lastCap : Nat) (s : Process) : Prop
    extends Dropping lastCap [] s where
  groups : s.groups = []

/- And once it has the app's group. -/
structure WithGid
    (lastCap : Nat) (app : App) (s : Process) : Prop
    extends WithoutGroups lastCap s where
  gid : s.gid = .all app.gid

/- Ids that were read are not root's. -/
theorem App.nonzero (app : App) :
    app.uid ≠ 0 ∧ app.gid ≠ 0 := by
  have hAccepted := app.accepted
  unfold validateAppIds at hAccepted
  rw [Fallible.reject_eq_ok_iff] at hAccepted
  omega

/- Other user ids touch the capabilities alone. -/
theorem setuidFixup_frame (old : Ids) (s : Process) :
    (setuidFixup old s).uid = s.uid ∧
      (setuidFixup old s).gid = s.gid ∧
      (setuidFixup old s).groups = s.groups ∧
      (setuidFixup old s).bounding = s.bounding := by
  unfold setuidFixup
  split
  · exact ⟨rfl, rfl, rfl, rfl⟩
  · exact ⟨rfl, rfl, rfl, rfl⟩

/- From the last step of the closure: no privilege is left. -/
theorem WithGid.dropped
    {s : Process}
    (hWithGid : WithGid lastCap app s) :
    Dropped app (effect s (.setuid app.uid)) := by
  have hCapable :=
    hWithGid.capable capSetuid (by decide)
  have hFrame :=
    setuidFixup_frame s.uid
      { s with
        uid := s.uid.set (s.effective capSetuid) app.uid }
  simp only [effect]
  constructor
  · intro cap
    rw [hFrame.2.2.2]
    by_contra hCap
    have hLeft :=
      hWithGid.bounding cap (Bool.eq_true_of_not_eq_false hCap)
    exact List.not_mem_nil hLeft.1
  · rw [hFrame.2.2.1]
    exact hWithGid.groups
  · rw [hFrame.1]
    simp [Ids.set, hCapable]
  · rw [hFrame.2.1]
    exact hWithGid.gid
  · exact app.nonzero.1
  · exact app.nonzero.2

/- The kernel's capabilities are among the first 64. -/
theorem Root.dropping
    {s : Process}
    (hLast : lastCap ≤ 63)
    (hRoot : Root lastCap s) :
    Dropping lastCap (List.range 64) s := by
  refine ⟨hRoot.capable, ?_⟩
  intro cap hCap
  have hDefined := hRoot.bounding cap hCap
  refine ⟨?_, hDefined⟩
  rw [List.mem_range]
  omega

/- Capabilities, groups and both ids. -/
theorem dropPrivileges_triple
    (hLast : lastCap ≤ 63) :
    ClosureTriple lastCap app (Root lastCap)
      (dropPrivileges app.uid app.gid) (Dropped app) := by
  have hBounding :
      ClosureTriple lastCap app (Root lastCap)
        (dropBounding (List.range 64))
        (Dropping lastCap []) := by
    intro past s hRoot
    exact dropBounding_triple _ past s (hRoot.dropping hLast)
  have hGroups :
      ClosureTriple lastCap app (Dropping lastCap [])
        (call (.setgroups [])) (WithoutGroups lastCap) := by
    apply call_triple
    · intro hExec
      cases hExec
    · intro s hDropping
      exact hDropping.capable capSetgid (by decide)
    · intro s hDropping
      exact ⟨⟨hDropping.capable, hDropping.bounding⟩, rfl⟩
  have hGid :
      ClosureTriple lastCap app (WithoutGroups lastCap)
        (call (.setgid app.gid)) (WithGid lastCap app) := by
    apply call_triple
    · intro hExec
      cases hExec
    · intro s hWithout
      exact
        Or.inl (hWithout.capable capSetgid (by decide))
    · intro s hWithout
      have hCapable :=
        hWithout.capable capSetgid (by decide)
      refine
        ⟨⟨⟨hWithout.capable, hWithout.bounding⟩,
            hWithout.groups⟩,
          ?_⟩
      simp [effect, Ids.set, hCapable]
  have hUid :
      ClosureTriple lastCap app (WithGid lastCap app)
        (call (.setuid app.uid)) (Dropped app) := by
    apply call_triple
    · intro hExec
      cases hExec
    · intro s hWithGid
      exact
        Or.inl (hWithGid.capable capSetuid (by decide))
    · intro s hWithGid
      exact hWithGid.dropped
  unfold dropPrivileges
  apply triple_andThen hBounding
  apply triple_andThen hGroups
  exact triple_andThen hGid hUid

------------------------------------------------------------
-- After the Drop
------------------------------------------------------------

/- The calls that only take more away. -/
def Confines : Request → Prop
| .setMdwe _ | .setNoNewPrivs => True
| .landlockRestrictSelf _ | .setSeccomp _ => True
| _ => False

/- What confines a process gives nothing back. -/
theorem Dropped.effect
    {s : Process} {request : Request}
    (hDropped : Dropped app s)
    (hConfines : Confines request) :
    Dropped app (effect s request) := by
  cases request <;>
    first
    | exact { hDropped with }
    | cases hConfines

/- Filters and rulesets may be added without a privilege. -/
structure Confined (app : App) (s : Process) : Prop
    extends Dropped app s where
  noNewPrivs : s.noNewPrivs = true

/- Nor does it take the confinement away. -/
theorem Confined.effect
    {s : Process} {request : Request}
    (hConfined : Confined app s)
    (hConfines : Confines request) :
    Confined app (effect s request) := by
  refine ⟨hConfined.toDropped.effect hConfines, ?_⟩
  cases request <;>
    first
    | exact hConfined.noNewPrivs
    | rfl
    | cases hConfines

/- And the process may go on to confine itself. -/
theorem Confined.privileged
    {s : Process} {request : Request}
    (hConfined : Confined app s)
    (hConfines : Confines request) :
    Privileged s request := by
  cases request <;>
    first
    | exact Or.inl hConfined.noNewPrivs
    | exact hConfines
    | cases hConfines

/- None of these calls is the exec. -/
theorem Confines.not_execve
    {request : Request}
    (hConfines : Confines request) :
    request ≠ .execve := by
  intro hExec
  subst hExec
  cases hConfines

/- From here on the process is confined. -/
theorem setNoNewPrivs_triple :
    ClosureTriple lastCap app (Dropped app)
      (call .setNoNewPrivs) (Confined app) := by
  apply call_triple
  · intro hExec
    cases hExec
  · intro s _
    trivial
  · intro s hDropped
    refine ⟨hDropped.effect trivial, ?_⟩
    rfl

/- And it stays so. -/
theorem confined_triple
    {request : Request}
    (hConfines : Confines request) :
    ClosureTriple lastCap app (Confined app) (call request)
      (Confined app) := by
  apply call_triple hConfines.not_execve
  · intro s hConfined
    exact hConfined.privileged hConfines
  · intro s hConfined
    exact hConfined.effect hConfines

/- With or without the protection. -/
theorem setMdwe_triple (dangerAllowWriteExecute : Bool) :
    ClosureTriple lastCap app (Dropped app)
      (setMdwe dangerAllowWriteExecute) (Dropped app) := by
  unfold setMdwe
  split
  · apply triple_done
    intro s hDropped
    exact hDropped
  · apply call_triple
    · intro hExec
      cases hExec
    · intro s _
      trivial
    · intro s hDropped
      exact hDropped.effect trivial

/- The ruleset is applied to a confined process. -/
theorem restrictSelf_triple (rulesetFd : Int) :
    ClosureTriple lastCap app (Dropped app)
      (restrictSelf rulesetFd) (Dropped app) := by
  have hConfines :
      Confines (.landlockRestrictSelf rulesetFd) := trivial
  unfold restrictSelf
  apply triple_andThen setNoNewPrivs_triple
  apply
    triple_consequence _ (confined_triple hConfines) _
  · intro s hConfined
    exact hConfined
  · intro s hConfined
    exact hConfined.toDropped

/- So is the filter. -/
theorem installArchGate_triple :
    ClosureTriple lastCap app (Dropped app) installArchGate
      (Confined app) := by
  have hConfines : Confines (.setSeccomp archGateProgram) :=
    trivial
  unfold installArchGate
  apply triple_andThen setNoNewPrivs_triple
  exact confined_triple hConfines

/- The gate is attached as it is where filters are judged. -/
theorem installArchGate_attaches (filters : Filters) :
    ClosureTriple lastCap app
      (fun s => s.filters = filters) installArchGate
      (fun s =>
        Seccomp.installArchGate filters = .ok s.filters) := by
  have hGate :
      Seccomp.installArchGate filters =
        .ok (archGateProgram :: filters) :=
    attach_of_checked checked_archGateProgram filters
  have hNoNewPrivs :
      ClosureTriple lastCap app
        (fun s => s.filters = filters) (call .setNoNewPrivs)
        (fun s =>
          s.noNewPrivs = true ∧ s.filters = filters) := by
    apply call_triple
    · intro hExec
      cases hExec
    · intro s _
      trivial
    · intro s hFilters
      exact ⟨rfl, hFilters⟩
  unfold installArchGate
  apply triple_andThen hNoNewPrivs
  apply call_triple
  · intro hExec
    cases hExec
  · intro s hBoth
    exact Or.inl hBoth.1
  · intro s hBoth
    rw [hGate, ← hBoth.2]
    rfl

------------------------------------------------------------
-- The Filter of the App
------------------------------------------------------------

/- The calls by which a filter is applied. -/
def Applies (program : Program) (request : Request) : Prop :=
  request = .setNoNewPrivs ∨ request = .setSeccomp program

/-
  The crate makes these calls and no other, and it succeeds
  only if they do.
-/
def Documented
    (lastCap : Nat)
    (applyFilter : Program → Chain Request Errno Text) :
    Prop :=
  ∀ program past s,
    Guarded (Possible lastCap)
      (fun _ _ request => Applies program request)
      (fun result more _ =>
        result = .ok () →
          ∀ link ∈ more, link ∈ past ∨ link.answer = .ok ())
      (applyFilter program) past s

/- The crate's calls confine the process. -/
theorem Applies.confines
    {program : Program} {request : Request}
    (hApplies : Applies program request) :
    Confines request := by
  rcases hApplies with hRequest | hRequest
  · rw [hRequest]
    trivial
  · rw [hRequest]
    trivial

/- A confined process may make them. -/
theorem Confined.may
    {past : List (Link Process Request Errno)} {s : Process}
    {request : Request}
    (hConfined : Confined app s)
    (hConfines : Confines request) :
    May lastCap app past s request := by
  refine ⟨hConfined.privileged hConfines, ?_⟩
  intro hExec
  exact absurd hExec hConfines.not_execve

/- And it is confined after them, failed or not. -/
theorem Confined.of_possible
    {s t : Process} {request : Request}
    {answer : Except Errno Unit}
    (hConfined : Confined app s)
    (hConfines : Confines request)
    (hPossible : Possible lastCap s request answer t) :
    Confined app t := by
  cases answer with
  | ok done =>
      rw [hPossible.2.1]
      exact hConfined.effect hConfines
  | error errno =>
      rw [hPossible.1]
      exact hConfined

variable {applyFilter : Program → Chain Request Errno Text}

/- What is documented of the crate, as a rule. -/
theorem applyFilter_triple
    (hApply : Documented lastCap applyFilter)
    (program : Program) :
    Triple (Possible lastCap) (Fine lastCap)
      (May lastCap app) (Confined app) (applyFilter program)
      (Dropped app) := by
  intro past s hConfined hPast
  have hGuarded :
      Guarded (Possible lastCap) (May lastCap app)
        (fun result more t =>
          (result = .ok () →
            ∀ link ∈ more,
              link ∈ past ∨ link.answer = .ok ()) ∧
            Confined app t)
        (applyFilter program) past s := by
    apply guarded_invariant _ _ (hApply program past s)
      hConfined
    · intro past s request hConfined hApplies
      exact hConfined.may hApplies.confines
    · intro past s request answer after hConfined hApplies
      exact hConfined.of_possible hApplies.confines
  apply guarded_mono _ hGuarded
  intro result more t hBoth hOk
  refine ⟨?_, hBoth.2.toDropped⟩
  intro link hMem
  rcases hBoth.1 hOk link hMem with hOld | hNew
  · exact hPast link hOld
  · exact Or.inl hNew

/- The gate, and then the crate's filter. -/
theorem installSeccompBaseline_triple
    (hApply : Documented lastCap applyFilter)
    (program : Program) :
    ClosureTriple lastCap app (Dropped app)
      (installSeccompBaseline applyFilter program)
      (Dropped app) := by
  unfold installSeccompBaseline installBaselineDenylist
  apply triple_andThen installArchGate_triple
  apply triple_mapError
  exact applyFilter_triple hApply program

------------------------------------------------------------
-- The Whole Chain
------------------------------------------------------------

/- All that comes before the exec. -/
theorem preExec_triple
    (hLast : lastCap ≤ 63)
    (hApply : Documented lastCap applyFilter) :
    ClosureTriple lastCap app (Root lastCap)
      (preExec applyFilter app) (Dropped app) := by
  unfold preExec
  apply triple_andThen (applyResourceLimits_triple _)
  apply triple_andThen (dropPrivileges_triple hLast)
  apply triple_andThen (setMdwe_triple _)
  have hSeccomp :
      ClosureTriple lastCap app (Dropped app)
        (installSeccompBaseline applyFilter
          app.seccompProgram)
        (Dropped app) :=
    installSeccompBaseline_triple hApply app.seccompProgram
  cases app.rulesetFd with
  | none =>
      apply triple_andThen _ hSeccomp
      apply triple_done
      intro s hDropped
      exact hDropped
  | some rulesetFd =>
      exact
        triple_andThen (restrictSelf_triple rulesetFd)
          hSeccomp

/- The exec is the one call that asks for all of it. -/
theorem execve_triple :
    ClosureTriple lastCap app (Dropped app) (call .execve)
      (Dropped app) := by
  unfold call
  apply triple_syscall
  · intro past s hDropped hPast
    refine ⟨trivial, ?_⟩
    intro _
    exact ⟨hPast, hDropped⟩
  · intro s
    exact Or.inl rfl
  · intro s t hDropped hPossible
    rw [hPossible.2.1]
    exact hDropped

/- And the exec, which finds everything given up. -/
theorem spawnApp_triple
    (hLast : lastCap ≤ 63)
    (hApply : Documented lastCap applyFilter) :
    ClosureTriple lastCap app (Root lastCap)
      (spawnApp applyFilter app) (Dropped app) := by
  unfold spawnApp
  exact
    triple_andThen (preExec_triple hLast hApply)
      execve_triple

end

/- A run of one closure, with the calls it made. -/
abbrev ChildRuns
    (lastCap : Nat) (closure : Closure) (s : Process)
    (trace : List (Link Process Request Errno))
    (rest : Closure) (t : Process) : Prop :=
  Runs (Possible lastCap) Eq closure s trace rest t

/- Of every run, whatever call fails. -/
structure CompleteOrNotExecuted
    (lastCap : Nat)
    (applyFilter : Program → Chain Request Errno Text)
    (app : App) (s : Process) : Prop where
  /- All of it is given up where the closure says so. -/
  dropped :
    ∀ trace t,
      ChildRuns lastCap (dropPrivileges app.uid app.gid) s
          trace succeed t →
        Dropped app t
  /- No call comes after the privilege that it needs. -/
  privileged :
    ∀ trace rest t,
      ChildRuns lastCap (spawnApp applyFilter app) s trace
          rest t →
        ∀ link ∈ trace, Privileged link.before link.request
  /- A failure is the end, with an error. -/
  failed :
    ∀ trace result t,
      ChildRuns lastCap (preExec applyFilter app) s trace
          (.done result) t →
        (∃ link ∈ trace, ¬ Fine lastCap link) →
          ∃ error, result = .error error
  /- The exec is made after all the rest, without failures. -/
  executed :
    ∀ trace rest t,
      ChildRuns lastCap (spawnApp applyFilter app) s trace
          rest t →
        ∀ earlier link later,
          trace = earlier ++ link :: later →
            link.request = .execve →
              (∀ other ∈ earlier, Fine lastCap other) ∧
                Dropped app link.before

/-
  Whatever fails, the app is not run with more than it
  should have.
-/
theorem complete_or_not_executed
    {lastCap : Nat}
    {applyFilter : Program → Chain Request Errno Text}
    {app : App} {s : Process}
    (hLast : lastCap ≤ 63)
    (hApply : Documented lastCap applyFilter)
    (hRoot : Root lastCap s) :
    CompleteOrNotExecuted lastCap applyFilter app s := by
  have hDrop :
      ClosureTriple lastCap app (Root lastCap)
        (dropPrivileges app.uid app.gid) (Dropped app) :=
    dropPrivileges_triple hLast
  have hChain :
      ClosureTriple lastCap app (Root lastCap)
        (preExec applyFilter app) (Dropped app) :=
    preExec_triple hLast hApply
  have hChild :
      ClosureTriple lastCap app (Root lastCap)
        (spawnApp applyFilter app) (Dropped app) :=
    spawnApp_triple hLast hApply
  constructor
  · intro trace t hRuns
    exact ((triple_of_runs hDrop hRoot hRuns).2 rfl).2
  · intro trace rest t hRuns link hMem
    have hMade := (triple_of_runs hChild hRoot hRuns).1
    rcases List.mem_iff_append.1 hMem with
      ⟨earlier, later, hTrace⟩
    exact (hMade earlier link later hTrace).1
  · intro trace result t hRuns hBad
    have hEnd := (triple_of_runs hChain hRoot hRuns).2
    cases result with
    | error error => exact ⟨error, rfl⟩
    | ok done =>
        rcases hBad with ⟨link, hMem, hNotFine⟩
        exact absurd ((hEnd rfl).1 link hMem) hNotFine
  · intro trace rest t hRuns earlier link later hTrace hExec
    have hMade := (triple_of_runs hChild hRoot hRuns).1
    exact (hMade earlier link later hTrace).2 hExec

/- The crate in short: two calls, and a text for a failure. -/
def twoCalls (program : Program) :
    Chain Request Errno Text :=
  (syscall (fun _ => []) .setNoNewPrivs).andThen
    (syscall (fun _ => []) (.setSeccomp program))

/- A crate that makes both calls. -/
theorem documented_twoCalls (lastCap : Nat) :
    Documented lastCap twoCalls := by
  intro program past s
  refine ⟨Or.inl rfl, ?_⟩
  intro first mid hFirst
  cases first with
  | error errno =>
      intro hOk
      cases hOk
  | ok done =>
      refine ⟨Or.inr rfl, ?_⟩
      intro second after hSecond
      cases second with
      | error errno =>
          intro hOk
          cases hOk
      | ok done =>
          intro _ link hMem
          simp only [List.mem_append, List.mem_singleton]
            at hMem
          rcases hMem with (hOld | hFirst) | hSecond
          · exact Or.inl hOld
          · rw [hFirst]
            exact Or.inr rfl
          · rw [hSecond]
            exact Or.inr rfl

/- Limits that leave the address space alone. -/
def plainLimits : ResourceLimits :=
  { nofile := 1024
    nproc := 512
    memlockBytes := 8 * mib
    addressSpaceBytes := 0 }

/- An app that is restricted by all means. -/
def plainApp : App :=
  { limits := plainLimits
    uid := 1000
    gid := 1000
    dangerAllowWriteExecute := false
    rulesetFd := some 5
    seccompProgram := archGateProgram
    accepted := rfl }

/- As it is after the fork, with 41 capabilities. -/
def forked : Process :=
  { uid := .all 0
    gid := .all 0
    groups := [0]
    bounding := fun cap => cap ≤ 40
    permitted := fun cap => cap ≤ 40
    effective := fun cap => cap ≤ 40
    keepCaps := false
    noSetuidFixup := false
    noNewPrivs := false
    rlimit := fun _ =>
      { current := 1024
        maximum := 4096 }
    mdwe := 0
    rulesets := []
    filters := [] }

/- A child of root's. -/
theorem root_forked : Root 40 forked := by
  constructor
  · rfl
  · intro cap hCap
    have hDefined : cap ≤ 40 := by
      unfold capSysResource at hCap
      omega
    exact decide_eq_true hDefined
  · intro cap hCap
    exact of_decide_eq_true hCap

/- It forks, and executes its app. -/
theorem complete_or_not_executed_forked :
    CompleteOrNotExecuted 40 twoCalls plainApp forked :=
  complete_or_not_executed (by decide)
    (documented_twoCalls 40) root_forked

/- A kernel that does what it is asked, if it knows how. -/
def obey (s : Process) (request : Request) :
    Except Errno Unit × Process :=
  match request with
  | .capbsetDrop cap =>
      if cap ≤ 40 then
        (.ok (), effect s request)
      else
        (.error einval, s)
  | _ => (.ok (), effect s request)

/- All of the calls are made, 23 of them in vain. -/
example :
    let outcome :=
      exec obey (spawnApp twoCalls plainApp) forked
    outcome.value = .ok () ∧
      outcome.trace.length = 78 ∧
      outcome.trace.countP (fun link => !link.answer.isOk) =
        23 := by
  refine ⟨rfl, ?_⟩
  decide

end Privileges

end Guest

end CargoUnikernel
