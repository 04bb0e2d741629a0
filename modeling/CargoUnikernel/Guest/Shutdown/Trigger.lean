import CargoUnikernel.Library.Transition
import Mathlib.Tactic.Common

/-
  The SIGTERM handler and the thread that waits for it.

  `on_sigterm` stores a flag, loads the write end of a
  self-pipe and, where one is published, writes a byte to
  it. `wait_for_trigger` builds the pipe, publishes its
  write end, reads the flag once and then sleeps in
  `epoll_wait`; each of its fallible calls may divert it to
  `wait_for_trigger_polling`. Any number of handler runs
  interleave with the watcher, the atomics sequentially
  consistent.

  Main declarations:
    * `Setup`, `State`, `onSigterm`, `waitForTrigger`
    * `system`
    * `Invariant` and `Invariant.of_reachable`
    * `no_lost_sigterm`
    * `watcher_woken`
-/

------------------------------------------------------------
-- Threads and Shared Memory
------------------------------------------------------------

namespace CargoUnikernel

namespace Guest

namespace Shutdown

namespace Trigger

/-
  What the operating system hands out: the descriptors of
  the input devices and of the self-pipe, and how many
  bytes a pipe holds before a write answers `EAGAIN`.
-/
structure Setup where
  devices : List Nat
  sigtermReadFd : Nat
  sigtermWriteFd : Nat
  pipeCapacity : Nat
  pipeCapacity_pos : 0 < pipeCapacity

/- Where one run of `on_sigterm` stands. -/
inductive HandlerPc
| notDelivered
| entered
| stored
| loaded (fd : Int)
| done
deriving DecidableEq

/-
  Where the watcher stands: the next call it makes in
  `wait_for_trigger`, or in the polling loop, whose points
  are the last three before `returned`.
-/
inductive WatcherPc
| notSpawned
| epollCreate
| createPipe
| setNonblockingRead
| setNonblockingWrite
| registerPipe
| publish
| checkReceived
| registerDevice (index : Nat)
| epollWait
| handleEvents (events : List Nat)
| pollReceived
| pollDevice (index : Nat)
| pollSleep
| returned
deriving DecidableEq

/-
  The two atomics, the self-pipe and every thread. No step
  reads the pipe, so the bytes in it are only counted.
-/
structure State where
  sigtermReceived : Bool
  sigtermPipeWriteFd : Int
  pipeRegistered : Bool
  pipeBytes : Nat
  handlers : Nat → HandlerPc
  watcher : WatcherPc

/- Memory when `arm_shutdown_triggers` has returned. -/
def State.armed : State where
  sigtermReceived := false
  sigtermPipeWriteFd := -1
  pipeRegistered := false
  pipeBytes := 0
  handlers := fun _ => .notDelivered
  watcher := .notSpawned

/- Move one handler run to another point. -/
def State.setHandler
    (s : State) (i : Nat) (pc : HandlerPc) : State :=
  { s with handlers := Function.update s.handlers i pc }

/- What a call of the watcher answers. -/
inductive Outcome
| ok
| err
| ready (events : List Nat)
| pressed (powerButton : Bool)

/- A step of one handler run or of the watcher. -/
inductive Event
| handler (i : Nat)
| watcher (outcome : Outcome)

------------------------------------------------------------
-- The Handler
------------------------------------------------------------

/-
  One byte written to the non-blocking pipe; a full pipe
  answers `EAGAIN` and is left as it is.
-/
def writePipe (setup : Setup) (s : State) : State :=
  if s.pipeBytes < setup.pipeCapacity then
    { s with pipeBytes := s.pipeBytes + 1 }
  else
    s

/- The steps of handler run `i`. -/
def onSigterm
    (setup : Setup) (s : State) (i : Nat) : Option State :=
  match s.handlers i with
  | .notDelivered => some (s.setHandler i .entered)
  | .entered =>
      some
        ({ s with sigtermReceived := true }.setHandler
          i .stored)
  | .stored =>
      some (s.setHandler i (.loaded s.sigtermPipeWriteFd))
  | .loaded fd =>
      -- A descriptor other than the pipe's own would send
      -- the byte elsewhere.
      if 0 ≤ fd ∧ fd = setup.sigtermWriteFd then
        some ((writePipe setup s).setHandler i .done)
      else
        some (s.setHandler i .done)
  | .done => none

@[simp] theorem handlers_setHandler
    (s : State) (i j : Nat) (pc : HandlerPc) :
    (s.setHandler i pc).handlers j =
      if j = i then pc else s.handlers j := by
  simp [State.setHandler, Function.update_apply]

@[simp] theorem watcher_writePipe
    (setup : Setup) (s : State) :
    (writePipe setup s).watcher = s.watcher := by
  unfold writePipe
  split <;> rfl

@[simp] theorem sigtermReceived_writePipe
    (setup : Setup) (s : State) :
    (writePipe setup s).sigtermReceived =
      s.sigtermReceived := by
  unfold writePipe
  split <;> rfl

/- A full pipe holds a byte, and a write adds one. -/
theorem pipeBytes_writePipe_pos
    (setup : Setup) (s : State) :
    0 < (writePipe setup s).pipeBytes := by
  have hCapacity := setup.pipeCapacity_pos
  unfold writePipe
  split
  · exact Nat.succ_pos s.pipeBytes
  · omega

------------------------------------------------------------
-- The Watcher
------------------------------------------------------------

/- Move the watcher to another point. -/
def State.goto (s : State) (pc : WatcherPc) : State :=
  { s with watcher := pc }

/- The next device to register, or the `epoll` loop. -/
def registerFrom (setup : Setup) (i : Nat) : WatcherPc :=
  if i < setup.devices.length then
    .registerDevice i
  else
    .epollWait

/- The next device to poll, or the sleep between rounds. -/
def pollFrom (setup : Setup) (i : Nat) : WatcherPc :=
  if i < setup.devices.length then
    .pollDevice i
  else
    .pollSleep

/-
  What `epoll_wait` may report: registered descriptors
  only, the self-pipe only while it holds a byte.
-/
def Reportable
    (setup : Setup) (s : State) (events : List Nat) : Prop :=
  ∀ fd ∈ events,
    fd ∈ setup.devices ∨
      fd = setup.sigtermReadFd ∧ s.pipeRegistered ∧
        0 < s.pipeBytes

instance (setup : Setup) (s : State) (events : List Nat) :
    Decidable (Reportable setup s events) :=
  inferInstanceAs (Decidable (∀ _ ∈ events, _))

/- The body of the loop over the reported events. -/
def handleEvent
    (setup : Setup) (s : State)
    (fd : Nat) (rest : List Nat) :
    Outcome → Option State
| .ok =>
    if fd = setup.sigtermReadFd then
      some (s.goto .returned)
    else if fd ∈ setup.devices then
      none
    else
      some (s.goto (.handleEvents rest))
| .pressed powerButton =>
    if fd ≠ setup.sigtermReadFd ∧ fd ∈ setup.devices then
      some
        (s.goto
          (if powerButton then
            .returned
          else
            .handleEvents rest))
    else
      none
| _ => none

/- The steps of `wait_for_trigger` and of its fallback. -/
def waitForTrigger
    (setup : Setup) (s : State) (outcome : Outcome) :
    Option State :=
  match s.watcher, outcome with
  | .notSpawned, .ok => some (s.goto .epollCreate)
  | .epollCreate, .ok => some (s.goto .createPipe)
  | .epollCreate, .err => some (s.goto .pollReceived)
  | .createPipe, .ok => some (s.goto .setNonblockingRead)
  | .createPipe, .err => some (s.goto .pollReceived)
  | .setNonblockingRead, .ok =>
      some (s.goto .setNonblockingWrite)
  | .setNonblockingRead, .err => some (s.goto .pollReceived)
  | .setNonblockingWrite, .ok => some (s.goto .registerPipe)
  | .setNonblockingWrite, .err =>
      some (s.goto .pollReceived)
  | .registerPipe, .ok =>
      some ({ s with pipeRegistered := true }.goto .publish)
  | .registerPipe, .err => some (s.goto .pollReceived)
  | .publish, .ok =>
      some
        ({ s with
            sigtermPipeWriteFd := setup.sigtermWriteFd }.goto
          .checkReceived)
  | .checkReceived, .ok =>
      some
        (s.goto
          (if s.sigtermReceived then
            .returned
          else
            registerFrom setup 0))
  | .registerDevice i, .ok =>
      some (s.goto (registerFrom setup (i + 1)))
  | .registerDevice _, .err => some (s.goto .pollReceived)
  -- An interrupted wait loops back into another one.
  | .epollWait, .err => some s
  | .epollWait, .ready events =>
      if Reportable setup s events then
        some (s.goto (.handleEvents events))
      else
        none
  | .handleEvents [], .ok => some (s.goto .epollWait)
  | .handleEvents (fd :: rest), outcome =>
      handleEvent setup s fd rest outcome
  | .pollReceived, .ok =>
      some
        (s.goto
          (if s.sigtermReceived then
            .returned
          else
            pollFrom setup 0))
  | .pollDevice i, .pressed powerButton =>
      some
        (s.goto
          (if powerButton then
            .returned
          else
            pollFrom setup (i + 1)))
  | .pollSleep, .ok => some (s.goto .pollReceived)
  | _, _ => none

/- Handlers and watcher in any order. -/
def step (setup : Setup) (s : State) : Event → Option State
| .handler i => onSigterm setup s i
| .watcher outcome => waitForTrigger setup s outcome

/- The interleavings, from the moment the handler is set. -/
def system (setup : Setup) :
    Transition.System State Event where
  init := fun s => s = State.armed
  step := step setup

------------------------------------------------------------
-- Phases
------------------------------------------------------------

/- The handler run has stored the flag. -/
def HandlerPc.HasStored : HandlerPc → Prop
| .notDelivered | .entered => False
| .stored | .loaded _ | .done => True

/- The watcher has yet to read the flag for the first time. -/
def WatcherPc.BeforeCheck : WatcherPc → Prop
| .notSpawned | .epollCreate | .createPipe
| .setNonblockingRead | .setNonblockingWrite
| .registerPipe | .publish | .checkReceived => True
| _ => False

/- The watcher runs `wait_for_trigger_polling`. -/
def WatcherPc.Polling : WatcherPc → Prop
| .pollReceived | .pollDevice _ | .pollSleep => True
| _ => False

/- The watcher read the flag as unset and relies on `epoll`. -/
def WatcherPc.Waiting : WatcherPc → Prop
| .registerDevice _ | .epollWait | .handleEvents _ => True
| _ => False

/- The self-pipe has been registered and published. -/
def WatcherPc.HasPublished (pc : WatcherPc) : Prop :=
  pc = .checkReceived ∨ pc.Waiting

/- Every point of the watcher lies in one of these phases. -/
theorem WatcherPc.phase (pc : WatcherPc) :
    pc = .returned ∨ pc.BeforeCheck ∨ pc.Polling ∨
      pc.Waiting := by
  cases pc <;> simp [BeforeCheck, Polling, Waiting]

/- Both loops over the devices stay in their own phase. -/
theorem waiting_registerFrom (setup : Setup) (i : Nat) :
    (registerFrom setup i).Waiting := by
  unfold registerFrom
  split <;> trivial

/- The loop begins where devices are polled. -/
theorem polling_pollFrom (setup : Setup) (i : Nat) :
    (pollFrom setup i).Polling := by
  unfold pollFrom
  split <;> trivial

/- There the pipe was not published yet. -/
theorem WatcherPc.Polling.not_hasPublished
    {pc : WatcherPc} (hPolling : pc.Polling) :
    ¬ pc.HasPublished := by
  cases pc <;> simp_all [Polling, HasPublished, Waiting]

------------------------------------------------------------
-- What a Step Can Do
------------------------------------------------------------

/-
  A handler step moves one run along and touches the shared
  memory in one of four ways.
-/
theorem onSigterm_cases
    {setup : Setup} {s t : State} {i : Nat}
    (hStep : onSigterm setup s i = some t) :
    (s.handlers i = .notDelivered ∧
        t = s.setHandler i .entered) ∨
      (s.handlers i = .entered ∧
        t =
          { s with sigtermReceived := true }.setHandler
            i .stored) ∨
      (s.handlers i = .stored ∧
        t =
          s.setHandler i (.loaded s.sigtermPipeWriteFd)) ∨
      (∃ fd, s.handlers i = .loaded fd ∧
        t =
          (if 0 ≤ fd ∧ fd = setup.sigtermWriteFd then
            writePipe setup s
          else
            s).setHandler i .done) := by
  unfold onSigterm at hStep
  split at hStep
  case h_1 hPc =>
      exact .inl ⟨hPc, by simpa using hStep.symm⟩
  case h_2 hPc =>
      exact .inr (.inl ⟨hPc, by simpa using hStep.symm⟩)
  case h_3 hPc =>
      exact .inr (.inr (.inl
        ⟨hPc, by simpa using hStep.symm⟩))
  case h_4 fd hPc =>
      refine .inr (.inr (.inr ⟨fd, hPc, ?_⟩))
      split at hStep
      case isTrue hFd =>
          rw [if_pos hFd]
          simpa using hStep.symm
      case isFalse hFd =>
          rw [if_neg hFd]
          simpa using hStep.symm
  case h_5 => cases hStep

/- An event of the loop ends it or leaves the rest of it. -/
theorem handleEvent_cases
    {setup : Setup} {s t : State}
    {fd : Nat} {rest : List Nat} {outcome : Outcome}
    (hStep : handleEvent setup s fd rest outcome = some t) :
    t = s.goto .returned ∨
      t = s.goto (.handleEvents rest) := by
  unfold handleEvent at hStep
  split at hStep
  case h_1 =>
      split_ifs at hStep
      · exact .inl (by simpa using hStep.symm)
      · exact .inr (by simpa using hStep.symm)
  case h_2 powerButton =>
      split_ifs at hStep
      · exact .inl (by simpa using hStep.symm)
      · exact .inr (by simpa using hStep.symm)
  case h_3 => cases hStep

/- A move that neither publishes nor begins to wait. -/
def PlainMove (s : State) (pc : WatcherPc) : Prop :=
  pc ≠ .publish ∧
    (pc.HasPublished → s.watcher.Waiting ∧ pc.Waiting)

/- Moves that touch nothing but the watcher. -/
theorem plainMove_of_polling
    {s : State} {pc : WatcherPc} (hPolling : pc.Polling) :
    PlainMove s pc :=
  ⟨by rintro rfl; exact hPolling,
    fun hPublished =>
      absurd hPublished hPolling.not_hasPublished⟩

theorem plainMove_of_waiting
    {s : State} {pc : WatcherPc}
    (hBefore : s.watcher.Waiting) (hAfter : pc.Waiting) :
    PlainMove s pc :=
  ⟨by rintro rfl; exact hAfter,
    fun _ => ⟨hBefore, hAfter⟩⟩

theorem plainMove_returned (s : State) :
    PlainMove s .returned :=
  ⟨nofun, fun hPublished => by
    simp [WatcherPc.HasPublished,
      WatcherPc.Waiting] at hPublished⟩

/-
  A watcher step registers the pipe, publishes it, reads
  the flag after publishing it, or only moves along: it
  begins to wait on `epoll` nowhere but at that read, and
  a wait ends in another point of the wait, in the polling
  loop or in the return.
-/
theorem waitForTrigger_cases
    {setup : Setup} {s t : State} {outcome : Outcome}
    (hStep : waitForTrigger setup s outcome = some t) :
    (s.watcher = .registerPipe ∧
        t = { s with pipeRegistered := true }.goto
          .publish) ∨
      (s.watcher = .publish ∧
        t =
          { s with
            sigtermPipeWriteFd :=
              setup.sigtermWriteFd }.goto
            .checkReceived) ∨
      (s.watcher = .checkReceived ∧
        t =
          s.goto
            (if s.sigtermReceived then
              .returned
            else
              registerFrom setup 0)) ∨
      (∃ pc, t = s.goto pc ∧ PlainMove s pc) := by
  have hMove :
      ∀ pc, some (s.goto pc) = some t → PlainMove s pc →
        ∃ pc, t = s.goto pc ∧ PlainMove s pc :=
    fun pc hEq hPlain =>
      ⟨pc, (Option.some.inj hEq).symm, hPlain⟩
  unfold waitForTrigger at hStep
  split at hStep
  -- The calls before the registration of the pipe.
  case h_1 | h_2 | h_4 | h_6 | h_8 =>
      refine .inr (.inr (.inr (hMove _ hStep ?_)))
      simp [PlainMove, WatcherPc.HasPublished,
        WatcherPc.Waiting]
  -- The falls back to polling, and the end of a round.
  case h_3 | h_5 | h_7 | h_9 | h_11 | h_15 | h_22 =>
      exact .inr (.inr (.inr
        (hMove _ hStep (plainMove_of_polling trivial))))
  case h_10 hPc =>
      exact .inl ⟨hPc, (Option.some.inj hStep).symm⟩
  case h_12 hPc =>
      exact .inr (.inl ⟨hPc, (Option.some.inj hStep).symm⟩)
  case h_13 hPc =>
      exact .inr (.inr (.inl
        ⟨hPc, (Option.some.inj hStep).symm⟩))
  -- The devices, and the loop over `epoll_wait`.
  case h_14 i hPc =>
      exact .inr (.inr (.inr (hMove _ hStep
        (plainMove_of_waiting (by rw [hPc]; trivial)
          (waiting_registerFrom setup (i + 1))))))
  case h_16 hPc =>
      refine .inr (.inr (.inr (hMove s.watcher hStep ?_)))
      exact plainMove_of_waiting
        (by rw [hPc]; trivial) (by rw [hPc]; trivial)
  case h_17 events hPc =>
      split_ifs at hStep
      exact .inr (.inr (.inr (hMove _ hStep
        (plainMove_of_waiting (by rw [hPc]; trivial)
          trivial))))
  case h_18 hPc =>
      exact .inr (.inr (.inr (hMove _ hStep
        (plainMove_of_waiting (by rw [hPc]; trivial)
          trivial))))
  case h_19 fd rest outcome hPc =>
      rcases handleEvent_cases hStep with hNext | hNext
      · exact .inr (.inr (.inr
          ⟨_, hNext, plainMove_returned s⟩))
      · exact .inr (.inr (.inr
          ⟨_, hNext,
            plainMove_of_waiting (by rw [hPc]; trivial)
              trivial⟩))
  -- The polling loop.
  case h_20 =>
      refine .inr (.inr (.inr (hMove _ hStep ?_)))
      split
      · exact plainMove_returned s
      · exact plainMove_of_polling
          (polling_pollFrom setup 0)
  case h_21 i powerButton _ =>
      refine .inr (.inr (.inr (hMove _ hStep ?_)))
      split
      · exact plainMove_returned s
      · exact plainMove_of_polling
          (polling_pollFrom setup (i + 1))
  case h_23 => cases hStep

------------------------------------------------------------
-- The Invariant
------------------------------------------------------------

/-
  What holds of every interleaving. The last two fields
  speak of a watcher that read the flag as unset: at that
  read no handler had stored it yet, so every handler that
  loads the descriptor afterwards finds it published.
-/
structure Invariant (setup : Setup) (s : State) : Prop where
  received_of_stored :
    ∀ i, (s.handlers i).HasStored → s.sigtermReceived
  registered :
    s.watcher = .publish ∨ s.watcher.HasPublished →
      s.pipeRegistered
  published :
    s.watcher.HasPublished →
      s.sigtermPipeWriteFd = setup.sigtermWriteFd
  loaded_of_waiting :
    s.watcher.Waiting → ∀ i fd,
      s.handlers i = .loaded fd → fd = setup.sigtermWriteFd
  byte_of_waiting :
    s.watcher.Waiting → ∀ i,
      s.handlers i = .done → 0 < s.pipeBytes

namespace Invariant

variable {setup : Setup} {s t : State}

/- The invariant holds when the handler is set. -/
theorem armed : Invariant setup State.armed where
  received_of_stored := fun _ hStored => hStored.elim
  registered := by
    simp [State.armed, WatcherPc.HasPublished,
      WatcherPc.Waiting]
  published := by
    simp [State.armed, WatcherPc.HasPublished,
      WatcherPc.Waiting]
  loaded_of_waiting := fun hWaiting => hWaiting.elim
  byte_of_waiting := fun hWaiting => hWaiting.elim

/- Storing the flag breaks nothing. -/
theorem receive (hInv : Invariant setup s) :
    Invariant setup { s with sigtermReceived := true } where
  received_of_stored := fun _ _ => rfl
  registered := hInv.registered
  published := hInv.published
  loaded_of_waiting := hInv.loaded_of_waiting
  byte_of_waiting := hInv.byte_of_waiting

/- A write leaves no fewer bytes in the pipe. -/
theorem writePipe (hInv : Invariant setup s) :
    Invariant setup (writePipe setup s) := by
  unfold Trigger.writePipe
  split
  case isTrue =>
      exact
        { received_of_stored := hInv.received_of_stored
          registered := hInv.registered
          published := hInv.published
          loaded_of_waiting := hInv.loaded_of_waiting
          byte_of_waiting := fun _ _ _ =>
            Nat.succ_pos s.pipeBytes }
  case isFalse => exact hInv

/- A handler may move to a point whose promises hold. -/
theorem setHandler
    (hInv : Invariant setup s)
    (i : Nat) {pc : HandlerPc}
    (hStored : pc.HasStored → s.sigtermReceived)
    (hLoaded :
      s.watcher.Waiting → ∀ fd,
        pc = .loaded fd → fd = setup.sigtermWriteFd)
    (hDone :
      s.watcher.Waiting → pc = .done → 0 < s.pipeBytes) :
    Invariant setup (s.setHandler i pc) where
  received_of_stored := by
    intro j hPc
    by_cases hEq : j = i
    · subst hEq
      exact hStored (by simpa using hPc)
    · exact hInv.received_of_stored j
        (by simpa [hEq] using hPc)
  registered := hInv.registered
  published := hInv.published
  loaded_of_waiting := by
    intro hWaiting j fd hPc
    by_cases hEq : j = i
    · subst hEq
      exact hLoaded hWaiting fd (by simpa using hPc)
    · exact hInv.loaded_of_waiting hWaiting j fd
        (by simpa [hEq] using hPc)
  byte_of_waiting := by
    intro hWaiting j hPc
    by_cases hEq : j = i
    · subst hEq
      exact hDone hWaiting (by simpa using hPc)
    · exact hInv.byte_of_waiting hWaiting j
        (by simpa [hEq] using hPc)

/- Every step of a handler keeps the invariant. -/
theorem onSigterm
    (hInv : Invariant setup s) {i : Nat}
    (hStep : onSigterm setup s i = some t) :
    Invariant setup t := by
  rcases onSigterm_cases hStep with
    ⟨-, rfl⟩ | ⟨-, rfl⟩ | ⟨hPc, rfl⟩ | ⟨fd, hPc, rfl⟩
  · exact hInv.setHandler i False.elim nofun nofun
  · exact hInv.receive.setHandler i (fun _ => rfl)
      nofun nofun
  · have hReceived : s.sigtermReceived = true :=
      hInv.received_of_stored i (by rw [hPc]; trivial)
    refine hInv.setHandler i (fun _ => hReceived) ?_ nofun
    -- A wait implies a published descriptor, so the load
    -- cannot have found the sentinel.
    intro hWaiting fd hFd
    have hPublished :
        s.sigtermPipeWriteFd = setup.sigtermWriteFd :=
      hInv.published (.inr hWaiting)
    cases hFd
    exact hPublished
  · have hReceived : s.sigtermReceived = true :=
      hInv.received_of_stored i (by rw [hPc]; trivial)
    split
    case isTrue =>
        refine hInv.writePipe.setHandler i
          (fun _ => by simpa using hReceived) nofun ?_
        intro _ _
        exact pipeBytes_writePipe_pos setup s
    case isFalse hFd =>
        refine hInv.setHandler i (fun _ => hReceived)
          nofun ?_
        intro hWaiting _
        have hLoaded : fd = setup.sigtermWriteFd :=
          hInv.loaded_of_waiting hWaiting i fd hPc
        exact absurd ⟨by omega, hLoaded⟩ hFd

/- A plain move of the watcher keeps the invariant. -/
theorem goto
    (hInv : Invariant setup s) {pc : WatcherPc}
    (hPlain : PlainMove s pc) :
    Invariant setup (s.goto pc) where
  received_of_stored := hInv.received_of_stored
  registered := by
    rintro (hPublish | hPublished)
    · exact absurd hPublish hPlain.1
    · exact hInv.registered
        (.inr (.inr (hPlain.2 hPublished).1))
  published := fun hPublished =>
    hInv.published (.inr (hPlain.2 hPublished).1)
  loaded_of_waiting := fun hWaiting =>
    hInv.loaded_of_waiting (hPlain.2 (.inr hWaiting)).1
  byte_of_waiting := fun hWaiting =>
    hInv.byte_of_waiting (hPlain.2 (.inr hWaiting)).1

/-
  The watcher begins to wait only where it reads the flag
  as unset, and then no handler has got past its store.
-/
theorem checkReceived
    (hInv : Invariant setup s)
    (hPc : s.watcher = .checkReceived) :
    Invariant setup
      (s.goto
        (if s.sigtermReceived then
          .returned
        else
          registerFrom setup 0)) := by
  have hNone :
      s.sigtermReceived = false →
        ∀ i, ¬ (s.handlers i).HasStored := by
    intro hUnset i hStored
    have hSet := hInv.received_of_stored i hStored
    simp [hUnset] at hSet
  split
  case isTrue => exact hInv.goto (plainMove_returned s)
  case isFalse hUnset =>
      have hNone := hNone (by simpa using hUnset)
      exact
        { received_of_stored := hInv.received_of_stored
          registered := fun _ =>
            hInv.registered (.inr (.inl hPc))
          published := fun _ => hInv.published (.inl hPc)
          loaded_of_waiting := fun _ i fd hLoaded =>
            absurd
              (show (s.handlers i).HasStored by
                rw [show s.handlers i = .loaded fd
                  from hLoaded]
                trivial)
              (hNone i)
          byte_of_waiting := fun _ i hDone =>
            absurd
              (show (s.handlers i).HasStored by
                rw [show s.handlers i = .done from hDone]
                trivial)
              (hNone i) }

/- Every step of the watcher keeps the invariant. -/
theorem waitForTrigger
    (hInv : Invariant setup s) {outcome : Outcome}
    (hStep : waitForTrigger setup s outcome = some t) :
    Invariant setup t := by
  rcases waitForTrigger_cases hStep with
    ⟨-, rfl⟩ | ⟨hPc, rfl⟩ | ⟨hPc, rfl⟩ | ⟨pc, rfl, hPlain⟩
  · exact
      { received_of_stored := hInv.received_of_stored
        registered := fun _ => rfl
        published := by
          rintro (hCheck | hWaiting)
          · cases hCheck
          · exact hWaiting.elim
        loaded_of_waiting := fun hWaiting => hWaiting.elim
        byte_of_waiting := fun hWaiting => hWaiting.elim }
  · exact
      { received_of_stored := hInv.received_of_stored
        registered := fun _ => hInv.registered (.inl hPc)
        published := fun _ => rfl
        loaded_of_waiting := fun hWaiting => hWaiting.elim
        byte_of_waiting := fun hWaiting => hWaiting.elim }
  · exact hInv.checkReceived hPc
  · exact hInv.goto hPlain

/- The invariant holds across any interleaving. -/
theorem of_reachable
    (hReach : (system setup).Reachable s) :
    Invariant setup s := by
  refine hReach.invariant ?_ ?_
  · rintro s rfl
    exact Invariant.armed
  · intro s event t hInv _ hStep
    cases event with
    | handler i => exact hInv.onSigterm hStep
    | watcher outcome => exact hInv.waitForTrigger hStep

end Invariant

------------------------------------------------------------
-- No Lost Signal
------------------------------------------------------------

/-
  Once a handler run has completed, the watcher never
  sleeps in `epoll_wait` over an empty self-pipe: it has
  returned, it has yet to read the flag, it polls the flag,
  or a byte is readable on the registered pipe.
-/
theorem no_lost_sigterm
    (setup : Setup) {s : State} (i : Nat)
    (hReach : (system setup).Reachable s)
    (hDone : s.handlers i = .done) :
    ¬ (s.watcher = .epollWait ∧ s.pipeBytes = 0) ∧
      (s.watcher = .returned ∨
        s.watcher.BeforeCheck ∨
        s.watcher.Polling ∨
        (s.pipeRegistered ∧ 0 < s.pipeBytes)) := by
  have hInv := Invariant.of_reachable hReach
  constructor
  · rintro ⟨hWait, hEmpty⟩
    have hByte : 0 < s.pipeBytes :=
      hInv.byte_of_waiting (by rw [hWait]; trivial) i hDone
    omega
  · rcases s.watcher.phase with
      hReturned | hBefore | hPolling | hWaiting
    · exact .inl hReturned
    · exact .inr (.inl hBefore)
    · exact .inr (.inr (.inl hPolling))
    · exact .inr (.inr (.inr
        ⟨hInv.registered (.inr (.inr hWaiting)),
          hInv.byte_of_waiting hWaiting i hDone⟩))

/- One input device, and a pipe of the usual capacity. -/
def oneDevice : Setup where
  devices := [5]
  sigtermReadFd := 3
  sigtermWriteFd := 4
  pipeCapacity := 65536
  pipeCapacity_pos := by decide

/-
  The watcher reads the flag as unset and falls asleep,
  then a handler runs to its end.
-/
def signalWhileAsleep : List Event :=
  List.replicate 9 (.watcher .ok) ++
    List.replicate 4 (.handler 0)

/- A signal that finds the watcher asleep wakes it. -/
theorem no_lost_sigterm_asleep :
    ∃ s,
      (system oneDevice).run State.armed
          signalWhileAsleep = some s ∧
        s.watcher = .epollWait ∧
        s.handlers 0 = .done ∧
        ¬ (s.watcher = .epollWait ∧ s.pipeBytes = 0) ∧
        (s.watcher = .returned ∨
          s.watcher.BeforeCheck ∨
          s.watcher.Polling ∨
          (s.pipeRegistered ∧ 0 < s.pipeBytes)) :=
  ⟨_, rfl, rfl, rfl,
    no_lost_sigterm oneDevice 0
      (Transition.System.Reachable.run (.start rfl)
        (show (system oneDevice).run State.armed
          signalWhileAsleep = some _ from rfl))
      rfl⟩

/-
  A watcher asleep when a handler has completed has a
  wake-up to take, and the wake-up ends its wait.
-/
theorem watcher_woken
    (setup : Setup) {s : State} (i : Nat)
    (hReach : (system setup).Reachable s)
    (hDone : s.handlers i = .done)
    (hAsleep : s.watcher = .epollWait) :
    (system setup).run s
        [.watcher (.ready [setup.sigtermReadFd]),
          .watcher .ok] =
      some (s.goto .returned) := by
  have hInv := Invariant.of_reachable hReach
  have hWaiting : s.watcher.Waiting := by
    rw [hAsleep]
    trivial
  have hReportable :
      Reportable setup s [setup.sigtermReadFd] := by
    intro fd hFd
    exact .inr
      ⟨by simpa using hFd,
        hInv.registered (.inr (.inr hWaiting)),
        hInv.byte_of_waiting hWaiting i hDone⟩
  simp [Transition.System.run_cons, system, step,
    waitForTrigger, hAsleep, hReportable, handleEvent,
    State.goto]

end Trigger

end Shutdown

end Guest

end CargoUnikernel
