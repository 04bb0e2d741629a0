import CargoUnikernel.Library.Transition
import Mathlib.Tactic.Common
import Mathlib.Data.List.Basic

/-
  The watchdog, the shutdown watcher and the wipe deadline.

  The main thread of init runs `watchdog_loop`, the watcher
  runs `wait_for_trigger` and then
  `run_graceful_shutdown`; both end in
  `kill_wipe_and_power_off`, which arms a third thread.
  Children exit, and orphans arrive, at any moment, and
  both threads reap with `wait(-1)`.

  Main declarations:
    * `State`, `Event`
    * `killWipeAndPowerOff`, `watchdogLoop`
    * `runGracefulShutdown`
    * `system`
    * `WipeStep`, `WaitStep`, `MainStep`, `WatcherStep`
    * `step_cases`
-/

------------------------------------------------------------
-- Threads and Shared State
------------------------------------------------------------

namespace CargoUnikernel

namespace Guest

namespace Shutdown

namespace Supervision

/-
  An entry of the process table whose parent is init. A
  child that has exited stays until someone waits on it.
-/
structure Child where
  pid : Nat
  isApp : Bool
  exited : Bool
deriving DecidableEq

/- What `wait(-1)` gave. -/
inductive WaitResult
| exited (child : Child)
| noChild
| otherErr
deriving DecidableEq

/- Where a thread stands in `kill_wipe_and_power_off`. -/
inductive WipePc
| swapStarted
| armDeadline
| killAll
| waitForExits
| wipeState
| finalMessage
| powerOff
deriving DecidableEq

/-
  Where the main thread stands in `watchdog_loop`. A fatal
  error carries the wait result its message reports.
-/
inductive MainPc
| wait
| readFlag (result : WaitResult)
| decide (result : WaitResult) (shuttingDown : Bool)
| retry
| fatalShutdown (result : WaitResult)
| killWipe (pc : WipePc)
deriving DecidableEq

/- Where the watcher stands, from `wait_for_trigger` on. -/
inductive WatcherPc
| waitForTrigger
| setFlag
| signalApp
| grace
| killWipe (pc : WipePc)
deriving DecidableEq

/- The thread `arm_wipe_deadline` spawns. -/
inductive Deadline
| absent
| sleeping
| elapsed
deriving DecidableEq

/-
  The process table, the two atomics and the threads. The
  last two fields only record what has happened: a wipe ran
  to its end, and a fatal error was raised after some
  thread had started one.
-/
structure State where
  children : List Child
  shutdownInProgress : Bool
  wipeStarted : Bool
  deadline : Deadline
  poweredOff : Bool
  main : MainPc
  watcher : WatcherPc
  wipeFinished : Bool
  fatalDuringWipe : Bool
deriving DecidableEq

/- Init has spawned the app and started the watcher. -/
def State.booted (appPid : Nat) : State where
  children := [⟨appPid, true, false⟩]
  shutdownInProgress := false
  wipeStarted := false
  deadline := .absent
  poweredOff := false
  main := .wait
  watcher := .waitForTrigger
  wipeFinished := false
  fatalDuringWipe := false

/- What a call of a thread answers. -/
inductive Outcome
| ok
| err
| reaped (pid : Nat)
| noChild
| alive
| timedOut

/-
  A child exits, an orphan is handed to init, or a thread
  takes a step.
-/
inductive Event
| exit (pid : Nat)
| orphan (pid : Nat) (exited : Bool)
| main (outcome : Outcome)
| watcher (outcome : Outcome)
| deadline

------------------------------------------------------------
-- The Process Table
------------------------------------------------------------

/- The process with this pid exits. -/
def Child.exit (pid : Nat) (child : Child) : Child :=
  if child.pid = pid then
    { child with exited := true }
  else
    child

/- An exited child leaves the table when waited on. -/
def reap
    (children : List Child) (pid : Nat) :
    Option (Child × List Child) :=
  (children.find? fun child =>
      child.pid = pid && child.exited).map
    fun child => (child, children.erase child)

/- A blocking `wait(-1)`. -/
def waitAny
    (children : List Child) :
    Outcome → Option (WaitResult × List Child)
| .reaped pid =>
    (reap children pid).map fun reaped =>
      (.exited reaped.1, reaped.2)
| .noChild =>
    if children = [] then
      some (.noChild, children)
    else
      none
| .err => some (.otherErr, children)
| _ => none

------------------------------------------------------------
-- The Threads
------------------------------------------------------------

/-
  `kill_wipe_and_power_off`, shared by both callers: the
  state after the step and the caller's next point. The
  processes it kills leave by the exits of other events.
-/
def killWipeAndPowerOff
    (s : State) :
    WipePc → Outcome → Option (State × WipePc)
| .swapStarted, .ok =>
    if s.wipeStarted then
      some (s, .powerOff)
    else
      some ({ s with wipeStarted := true }, .armDeadline)
| .armDeadline, .ok =>
    some ({ s with deadline := .sleeping }, .killAll)
| .armDeadline, .err => some (s, .powerOff)
| .killAll, .ok => some (s, .waitForExits)
-- The bounded loop of `wait_for_processes_to_exit`.
| .waitForExits, .reaped pid =>
    (reap s.children pid).map fun reaped =>
      ({ s with children := reaped.2 }, .waitForExits)
| .waitForExits, .ok => some (s, .wipeState)
| .wipeState, .ok =>
    some ({ s with wipeFinished := true }, .finalMessage)
| .finalMessage, .ok => some (s, .powerOff)
| .powerOff, .ok =>
    some ({ s with poweredOff := true }, .powerOff)
| _, _ => none

/-
  Whether the watchdog treats what it waited for as a
  compromise.
-/
def isCompromise (appPid : Nat) :
    WaitResult → Bool → Bool
| .exited child, shuttingDown =>
    child.pid == appPid && !shuttingDown
| .noChild, shuttingDown => !shuttingDown
| .otherErr, _ => false

/- Where the watchdog goes when it has no compromise. -/
def afterWait : WaitResult → MainPc
| .exited _ => .wait
| .noChild => .retry
| .otherErr => .retry

/- The steps of `watchdog_loop` and of its fatal path. -/
def watchdogLoop
    (appPid : Nat) (s : State) (outcome : Outcome) :
    Option State :=
  match s.main, outcome with
  | .wait, outcome =>
      (waitAny s.children outcome).map fun waited =>
        { s with
          children := waited.2
          main := .readFlag waited.1 }
  | .readFlag result, .ok =>
      some
        { s with
          main := .decide result s.shutdownInProgress }
  | .decide result shuttingDown, .ok =>
      if isCompromise appPid result shuttingDown then
        some
          { s with
            main := .fatalShutdown result
            fatalDuringWipe :=
              s.fatalDuringWipe || s.wipeStarted }
      else
        some { s with main := afterWait result }
  | .retry, .ok => some { s with main := .wait }
  -- `wipe_and_power_off` sets the flag before it kills.
  | .fatalShutdown _, .ok =>
      some
        { s with
          shutdownInProgress := true
          main := .killWipe .swapStarted }
  | .killWipe pc, outcome =>
      (killWipeAndPowerOff s pc outcome).map fun next =>
        { next.1 with main := .killWipe next.2 }
  | _, _ => none

/-
  The steps of the watcher: `wait_for_trigger` returns, the
  flag is set, the app is signalled and given its grace
  period, and the wipe follows. `process_alive` answers
  true while the app's pid is in the process table.
-/
def runGracefulShutdown
    (appPid : Nat) (s : State) (outcome : Outcome) :
    Option State :=
  match s.watcher, outcome with
  | .waitForTrigger, .ok => some { s with watcher := .setFlag }
  | .setFlag, .ok =>
      some
        { s with
          shutdownInProgress := true
          watcher := .signalApp }
  | .signalApp, .ok => some { s with watcher := .grace }
  | .grace, .alive => some s
  | .grace, .timedOut =>
      some { s with watcher := .killWipe .swapStarted }
  | .grace, .ok =>
      if ∀ child ∈ s.children, child.pid ≠ appPid then
        some { s with watcher := .killWipe .swapStarted }
      else
        none
  | .killWipe pc, outcome =>
      (killWipeAndPowerOff s pc outcome).map fun next =>
        { next.1 with watcher := .killWipe next.2 }
  | _, _ => none

/- The steps of the deadline thread. -/
def wipeDeadline (s : State) : Option State :=
  match s.deadline with
  | .absent => none
  | .sleeping => some { s with deadline := .elapsed }
  | .elapsed => some { s with poweredOff := true }

/- Nothing runs on a machine that is powered off. -/
def step (appPid : Nat) (s : State) :
    Event → Option State
| event =>
  if s.poweredOff then
    none
  else
    match event with
    | .exit pid =>
        some
          { s with children := s.children.map (.exit pid) }
    | .orphan pid exited =>
        if ∀ child ∈ s.children, child.pid ≠ pid then
          some
            { s with
              children := s.children ++
                [⟨pid, false, exited⟩] }
        else
          none
    | .main outcome => watchdogLoop appPid s outcome
    | .watcher outcome => runGracefulShutdown appPid s outcome
    | .deadline => wipeDeadline s

/- The interleavings, from the moment all threads exist. -/
def system (appPid : Nat) :
    Transition.System State Event where
  init := fun s => s = State.booted appPid
  step := step appPid

/- The main thread has called `fatal_shutdown`. -/
def MainPc.Fatal : MainPc → Prop
| .fatalShutdown _ | .killWipe _ => True
| _ => False

------------------------------------------------------------
-- What a Step Can Do
------------------------------------------------------------

/- Reaping removes one exited child. -/
theorem reap_eq_some
    {children rest : List Child} {pid : Nat} {child : Child}
    (hReap : reap children pid = some (child, rest)) :
    child ∈ children ∧ child.exited ∧
      rest = children.erase child := by
  unfold reap at hReap
  rcases Option.map_eq_some_iff.mp hReap with
    ⟨found, hFound, hPair⟩
  cases hPair
  have hProps := List.find?_some hFound
  simp only [Bool.and_eq_true] at hProps
  exact ⟨List.mem_of_find?_eq_some hFound, hProps.2, rfl⟩

/-
  What `wait(-1)` can do to the table: report and remove an
  exited child, report an empty table, or fail.
-/
inductive WaitStep (children : List Child) :
    WaitResult → List Child → Prop
| exited {child : Child} :
    child ∈ children →
      WaitStep children (.exited child)
        (children.erase child)
| noChild :
    children = [] → WaitStep children .noChild children
| otherErr : WaitStep children .otherErr children

/- What each thread's function can do, said once. -/
theorem waitStep_of_waitAny
    {children rest : List Child} {outcome : Outcome}
    {result : WaitResult}
    (hWait : waitAny children outcome = some (result, rest)) :
    WaitStep children result rest := by
  unfold waitAny at hWait
  split at hWait
  case h_1 pid =>
      rcases Option.map_eq_some_iff.mp hWait with
        ⟨⟨child, left⟩, hReap, hPair⟩
      cases hPair
      rcases reap_eq_some hReap with ⟨hMem, -, hRest⟩
      rw [hRest]
      exact .exited hMem
  case h_2 =>
      split_ifs at hWait with hEmpty
      cases hWait
      exact .noChild hEmpty
  case h_3 =>
      cases hWait
      exact .otherErr
  case h_4 => cases hWait

/- A thread passes a point of the tail that changes nothing. -/
inductive WipePc.Passes : WipePc → WipePc → Prop
| killed : Passes .killAll .waitForExits
| settled : Passes .waitForExits .wipeState
| logged : Passes .finalMessage .powerOff

/- What a step of the shared tail can do. -/
inductive WipeStep (s : State) :
    WipePc → State → WipePc → Prop
| second :
    s.wipeStarted = true →
      WipeStep s .swapStarted s .powerOff
| first :
    s.wipeStarted = false →
      WipeStep s .swapStarted
        { s with wipeStarted := true } .armDeadline
| armed :
    WipeStep s .armDeadline
      { s with deadline := .sleeping } .killAll
| unarmed : WipeStep s .armDeadline s .powerOff
| reaped {child : Child} :
    child ∈ s.children →
      WipeStep s .waitForExits
        { s with children := s.children.erase child }
        .waitForExits
| wiped :
    WipeStep s .wipeState
      { s with wipeFinished := true } .finalMessage
| off :
    WipeStep s .powerOff
      { s with poweredOff := true } .powerOff
| pass {pc next : WipePc} :
    pc.Passes next → WipeStep s pc s next

theorem wipeStep_of_killWipeAndPowerOff
    {s t : State} {pc next : WipePc} {outcome : Outcome}
    (hStep :
      killWipeAndPowerOff s pc outcome = some (t, next)) :
    WipeStep s pc t next := by
  unfold killWipeAndPowerOff at hStep
  split at hStep
  case h_1 =>
      split_ifs at hStep with hStarted
      · cases hStep
        exact .second hStarted
      · cases hStep
        exact .first (by simpa using hStarted)
  case h_2 => cases hStep; exact .armed
  case h_3 => cases hStep; exact .unarmed
  case h_4 => cases hStep; exact .pass .killed
  case h_5 pid =>
      rcases Option.map_eq_some_iff.mp hStep with
        ⟨⟨child, rest⟩, hReap, hPair⟩
      cases hPair
      rcases reap_eq_some hReap with ⟨hMem, -, hRest⟩
      rw [hRest]
      exact .reaped hMem
  case h_6 => cases hStep; exact .pass .settled
  case h_7 => cases hStep; exact .wiped
  case h_8 => cases hStep; exact .pass .logged
  case h_9 => cases hStep; exact .off
  case h_10 => cases hStep

/- What a step of the main thread can do. -/
inductive MainStep (appPid : Nat) (s : State) : State → Prop
| waited {result : WaitResult} {rest : List Child} :
    s.main = .wait →
      WaitStep s.children result rest →
        MainStep appPid s
          { s with
            children := rest
            main := .readFlag result }
| readFlag {result : WaitResult} :
    s.main = .readFlag result →
      MainStep appPid s
        { s with
          main := .decide result s.shutdownInProgress }
| compromise {result : WaitResult} {shuttingDown : Bool} :
    s.main = .decide result shuttingDown →
      isCompromise appPid result shuttingDown = true →
        MainStep appPid s
          { s with
            main := .fatalShutdown result
            fatalDuringWipe :=
              s.fatalDuringWipe || s.wipeStarted }
| ignored {result : WaitResult} {shuttingDown : Bool} :
    s.main = .decide result shuttingDown →
      isCompromise appPid result shuttingDown = false →
        MainStep appPid s { s with main := afterWait result }
| retried :
    s.main = .retry →
      MainStep appPid s { s with main := .wait }
| fatal {result : WaitResult} :
    s.main = .fatalShutdown result →
      MainStep appPid s
        { s with
          shutdownInProgress := true
          main := .killWipe .swapStarted }
| killWipe {t : State} {pc next : WipePc} :
    s.main = .killWipe pc → WipeStep s pc t next →
      MainStep appPid s { t with main := .killWipe next }

theorem mainStep_of_watchdogLoop
    {appPid : Nat} {s t : State} {outcome : Outcome}
    (hStep : watchdogLoop appPid s outcome = some t) :
    MainStep appPid s t := by
  unfold watchdogLoop at hStep
  split at hStep
  case h_1 _ hMain =>
      rcases Option.map_eq_some_iff.mp hStep with
        ⟨⟨result, rest⟩, hWait, rfl⟩
      exact .waited hMain (waitStep_of_waitAny hWait)
  case h_2 hMain => cases hStep; exact .readFlag hMain
  case h_3 hMain =>
      split_ifs at hStep with hCompromise
      · cases hStep
        exact .compromise hMain hCompromise
      · cases hStep
        exact .ignored hMain (by simpa using hCompromise)
  case h_4 hMain => cases hStep; exact .retried hMain
  case h_5 hMain => cases hStep; exact .fatal hMain
  case h_6 pc _ hMain =>
      rcases Option.map_eq_some_iff.mp hStep with
        ⟨⟨u, next⟩, hTail, rfl⟩
      exact .killWipe hMain
        (wipeStep_of_killWipeAndPowerOff hTail)
  case h_7 => cases hStep

/- What a step of the watcher can do. -/
inductive WatcherStep (s : State) : State → Prop
| triggered :
    s.watcher = .waitForTrigger →
      WatcherStep s { s with watcher := .setFlag }
| setFlag :
    s.watcher = .setFlag →
      WatcherStep s
        { s with
          shutdownInProgress := true
          watcher := .signalApp }
| signalled :
    s.watcher = .signalApp →
      WatcherStep s { s with watcher := .grace }
| alive : s.watcher = .grace → WatcherStep s s
| graceOver :
    s.watcher = .grace →
      WatcherStep s
        { s with watcher := .killWipe .swapStarted }
| killWipe {t : State} {pc next : WipePc} :
    s.watcher = .killWipe pc → WipeStep s pc t next →
      WatcherStep s { t with watcher := .killWipe next }

theorem watcherStep_of_runGracefulShutdown
    {appPid : Nat} {s t : State} {outcome : Outcome}
    (hStep : runGracefulShutdown appPid s outcome = some t) :
    WatcherStep s t := by
  unfold runGracefulShutdown at hStep
  split at hStep
  case h_1 hWatcher => cases hStep; exact .triggered hWatcher
  case h_2 hWatcher => cases hStep; exact .setFlag hWatcher
  case h_3 hWatcher => cases hStep; exact .signalled hWatcher
  case h_4 hWatcher => cases hStep; exact .alive hWatcher
  case h_5 hWatcher => cases hStep; exact .graceOver hWatcher
  case h_6 hWatcher =>
      split_ifs at hStep
      cases hStep
      exact .graceOver hWatcher
  case h_7 pc _ hWatcher =>
      rcases Option.map_eq_some_iff.mp hStep with
        ⟨⟨u, next⟩, hTail, rfl⟩
      exact .killWipe hWatcher
        (wipeStep_of_killWipeAndPowerOff hTail)
  case h_8 => cases hStep

/- What a step of the machine can do. -/
inductive MachineStep (appPid : Nat) (s : State) :
    Event → State → Prop
| exit (pid : Nat) :
    MachineStep appPid s (.exit pid)
      { s with children := s.children.map (.exit pid) }
| orphan {pid : Nat} {exited : Bool} :
    (∀ child ∈ s.children, child.pid ≠ pid) →
      MachineStep appPid s (.orphan pid exited)
        { s with
          children := s.children ++ [⟨pid, false, exited⟩] }
| main {t : State} {outcome : Outcome} :
    MainStep appPid s t →
      MachineStep appPid s (.main outcome) t
| watcher {t : State} {outcome : Outcome} :
    WatcherStep s t →
      MachineStep appPid s (.watcher outcome) t
| elapse :
    s.deadline = .sleeping →
      MachineStep appPid s .deadline
        { s with deadline := .elapsed }
| deadlineOff :
    s.deadline = .elapsed →
      MachineStep appPid s .deadline
        { s with poweredOff := true }

/- A step is one of the threads', or of the machine's. -/
theorem step_cases
    {appPid : Nat} {s t : State} {event : Event}
    (hStep : step appPid s event = some t) :
    s.poweredOff = false ∧ MachineStep appPid s event t := by
  unfold step at hStep
  split_ifs at hStep with hOff
  refine ⟨by simpa using hOff, ?_⟩
  cases event with
  | exit pid => cases hStep; exact .exit pid
  | orphan pid exited =>
      dsimp only at hStep
      split_ifs at hStep with hFresh
      cases hStep
      exact .orphan hFresh
  | main outcome => exact .main (mainStep_of_watchdogLoop hStep)
  | watcher outcome =>
      exact .watcher (watcherStep_of_runGracefulShutdown hStep)
  | deadline =>
      dsimp only [wipeDeadline] at hStep
      split at hStep
      case h_1 => cases hStep
      case h_2 hDeadline => cases hStep; exact .elapse hDeadline
      case h_3 hDeadline =>
          cases hStep
          exact .deadlineOff hDeadline

end Supervision

end Shutdown

end Guest

end CargoUnikernel
