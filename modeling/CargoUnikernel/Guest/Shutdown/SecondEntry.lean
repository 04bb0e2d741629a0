import CargoUnikernel.Guest.Shutdown.WipeInterlock
import Mathlib.Tactic.Common

/-
  Which power-offs cut a wipe short.

  The second thread to reach the interlock powers the
  machine off at once. That is meant for fatal errors
  raised while a wipe runs, but a stop request taken during
  the wipe of a fatal error gets there the same way.

  Main declarations:
    * `NotCutShort`
    * `NoSecondEntrant`
    * `wipe_not_cut_short`
    * `sigterm_cuts_fatal_wipe_short`
-/

------------------------------------------------------------
-- The Property and Its Condition
------------------------------------------------------------

namespace CargoUnikernel

namespace Guest

namespace Shutdown

namespace Supervision

/-
  With a deadline armed, the machine is off only after the
  wipe has ended, after the deadline has passed, or after a
  fatal error raised while the wipe ran.
-/
def NotCutShort (s : State) : Prop :=
  s.poweredOff = true → s.deadline ≠ .absent →
    s.wipeFinished = true ∨
      s.deadline = .elapsed ∨
      s.fatalDuringWipe = true

/- The fatal path of the main thread has yet to be wiped. -/
def MainPc.WipePending : MainPc → Prop
| .fatalShutdown _ | .killWipe .swapStarted
| .killWipe .armDeadline | .killWipe .killAll
| .killWipe .waitForExits | .killWipe .wipeState => True
| _ => False

/- The main thread is about to raise a fatal error. -/
def MainPc.Raising (appPid : Nat) : MainPc → Prop
| .decide result shuttingDown =>
    isCompromise appPid result shuttingDown = true
| _ => False

/-
  The watcher takes no stop request while a fatal error
  waits for its wipe, and the watchdog raises no fatal
  error between a stop request and the wipe it leads to.
-/
def NoSecondEntrant
    (appPid : Nat) (s : State) : Event → Prop
| .watcher _ =>
    s.watcher = .waitForTrigger → s.main.WipePending →
      s.deadline = .elapsed
| .main _ =>
    s.main.Raising appPid →
      s.watcher = .waitForTrigger ∨ s.wipeStarted = true
| _ => True

/-
  What the condition preserves: the two threads are never
  both on their way to a wipe unless nothing is left to be
  cut short, and neither is a thread about to power off.
-/
structure Orderly (s : State) : Prop where
  sound : (view s).Sound
  overlap :
    s.watcher ≠ .waitForTrigger → s.main.Fatal →
      (view s).Settled
  ending :
    ∀ thread, s.tail thread = some .powerOff →
      (view s).Settled
  off : s.poweredOff = true → (view s).Settled

/- Where all is in order, no wipe was cut. -/
theorem Orderly.notCutShort
    {s : State} (hOrderly : Orderly s) : NotCutShort s := by
  intro hOff hArmed
  rcases hOrderly.off hOff with
    hFinished | hElapsed | hFatal | ⟨-, hAbsent, -⟩
  · exact .inl hFinished
  · exact .inr (.inl hElapsed)
  · exact .inr (.inr hFatal)
  · exact absurd hAbsent hArmed

/- So it is at the beginning. -/
theorem Orderly.booted (appPid : Nat) :
    Orderly (State.booted appPid) where
  sound :=
    .start (fun thread => by cases thread <;> rfl)
      rfl rfl rfl
  overlap := fun hWatcher => absurd rfl hWatcher
  ending := fun thread hTail => by
    cases thread <;> cases hTail
  off := nofun

/- Where everything is settled, all of it holds. -/
theorem Orderly.of_settled
    {s : State}
    (hSound : (view s).Sound) (hSettled : (view s).Settled) :
    Orderly s where
  sound := hSound
  overlap := fun _ _ => hSettled
  ending := fun _ _ => hSettled
  off := fun _ => hSettled

/-
  An unsettled state that is orderly has no thread about to
  power off and one of the two threads still outside.
-/
theorem Orderly.of_unsettled
    {s : State}
    (hSound : (view s).Sound)
    (hOutside :
      s.watcher = .waitForTrigger ∨ ¬ s.main.Fatal)
    (hEnding : ∀ thread, s.tail thread ≠ some .powerOff)
    (hOn : s.poweredOff = false) :
    Orderly s where
  sound := hSound
  overlap := by
    intro hWatcher hMain
    rcases hOutside with hWaiting | hCalm
    · exact absurd hWaiting hWatcher
    · exact absurd hMain hCalm
  ending := fun thread hTail =>
    absurd hTail (hEnding thread)
  off := by simp [hOn]

------------------------------------------------------------
-- One Step
------------------------------------------------------------

/- A main thread outside its fatal path is not in the tail. -/
theorem tail_main_of_calm
    {s : State} (hCalm : ¬ s.main.Fatal) : s.tail .main = none := by
  show s.main.tail = none
  cases hMain : s.main with
  | killWipe pc =>
      rw [hMain] at hCalm
      exact absurd trivial hCalm
  | _ => rfl

/- A watcher that waits is in no wipe. -/
theorem tail_watcher_of_waiting
    {s : State}
    (hWaiting : s.watcher = .waitForTrigger) :
    s.tail .watcher = none := by
  show s.watcher.tail = none
  rw [hWaiting]
  rfl

namespace Orderly

variable {appPid : Nat} {s t : State}

/-
  A step of the tail settles the interlock or keeps clear
  of the power-off, provided the other thread is outside.
-/
theorem wipeStep
    {thread : Thread} {pc next : WipePc}
    (hOrderly : Orderly s)
    (hAlone :
      (view s).Settled ∨
        ∀ other, other ≠ thread → s.tail other = none)
    (hTail : s.tail thread = some pc)
    (hStep : WipeStep s pc t next) :
    ((view t).goto thread next).Settled ∨
      (next ≠ .powerOff ∧ t.poweredOff = s.poweredOff) := by
  have hView := interlockStep_of_wipeStep hTail hStep
  cases hStep with
  | second hSet =>
      rcases hAlone with hSettled | hAlone
      · exact .inl (hSettled.step hOrderly.sound hView)
      -- The flag was set by some thread past the swap.
      rcases hOrderly.sound.owned hSet with
        ⟨owner, point, hOwner, hPast⟩
      have hOwner : s.tail owner = some point := hOwner
      by_cases hEq : owner = thread
      · subst hEq
        rw [hTail] at hOwner
        cases hOwner
        exact absurd rfl hPast
      · rw [hAlone owner hEq] at hOwner
        cases hOwner
  | first => exact .inr ⟨nofun, rfl⟩
  | armed => exact .inr ⟨nofun, rfl⟩
  | unarmed =>
      exact .inl (hOrderly.sound.settled_of_unarmed hTail)
  | reaped => exact .inr ⟨nofun, rfl⟩
  | wiped => exact .inl (.inl rfl)
  | off =>
      exact .inl
        ((hOrderly.ending thread hTail).step hOrderly.sound
          hView)
  | pass hPass =>
      cases hPass with
      | killed => exact .inr ⟨nofun, rfl⟩
      | settled => exact .inr ⟨nofun, rfl⟩
      | logged =>
          have hFinished :=
            hOrderly.sound.finished thread hTail
          exact .inl (.inl hFinished)

/- The main thread enters its fatal path alone or excused. -/
theorem mainStep
    (hOrderly : Orderly s)
    (hUnsettled : ¬ (view s).Settled)
    (hOn : s.poweredOff = false)
    (hOk :
      s.main.Raising appPid →
        s.watcher = .waitForTrigger ∨ s.wipeStarted = true)
    (hStep : MainStep appPid s t) :
    Orderly t := by
  have hSound := hOrderly.sound.step
    (interlockStep_of_mainStep hStep)
  have hWatcherTail :
      ∀ u : State, u.watcher = s.watcher →
        u.tail .watcher ≠ some .powerOff := by
    intro u hSame hTail
    have hEq : u.tail .watcher = s.tail .watcher := by
      show u.watcher.tail = s.watcher.tail
      rw [hSame]
    exact hUnsettled (hOrderly.ending .watcher (hEq ▸ hTail))
  -- Moves outside the fatal path.
  have hCalm :
      ∀ u : State, (view u).Sound → u.watcher = s.watcher →
        u.poweredOff = s.poweredOff → ¬ u.main.Fatal →
          Orderly u := by
    intro u hSound hSame hPower hCalm
    refine .of_unsettled hSound (.inr hCalm)
      (fun thread => ?_) (hPower.trans hOn)
    cases thread with
    | main => simp [tail_main_of_calm hCalm]
    | watcher => exact hWatcherTail u hSame
  have hAlone :
      s.main.Fatal → s.watcher = .waitForTrigger := by
    intro hFatal
    by_contra hWatcher
    exact hUnsettled (hOrderly.overlap hWatcher hFatal)
  cases hStep with
  | waited => exact hCalm _ hSound rfl rfl id
  | readFlag => exact hCalm _ hSound rfl rfl id
  | @ignored result _ _ _ =>
      exact hCalm _ hSound rfl rfl (by cases result <;> exact id)
  | retried => exact hCalm _ hSound rfl rfl id
  | compromise hMain hCompromise =>
      rcases hOk (by rw [hMain]; exact hCompromise) with
        hWaiting | hSet
      · refine .of_unsettled hSound (.inl hWaiting)
          (fun thread => ?_) hOn
        cases thread with
        | main => nofun
        | watcher => exact hWatcherTail _ rfl
      · refine .of_settled hSound (.inr (.inr (.inl ?_)))
        show (s.fatalDuringWipe || s.wipeStarted) = true
        simp [hSet]
  | fatal hMain =>
      refine .of_unsettled hSound
        (.inl (hAlone (by rw [hMain]; trivial)))
        (fun thread => ?_) hOn
      cases thread with
      | main => nofun
      | watcher => exact hWatcherTail _ rfl
  | @killWipe u pc next hMain hTail =>
      have hWaiting := hAlone (by rw [hMain]; trivial)
      have hPc : s.tail .main = some pc := by
        show s.main.tail = some pc
        rw [hMain]
        rfl
      have hOthers :
          ∀ other, other ≠ .main → s.tail other = none := by
        intro other hOther
        cases other with
        | main => exact absurd rfl hOther
        | watcher => exact tail_watcher_of_waiting hWaiting
      have hSame : u.watcher = s.watcher := by
        cases hTail <;> rfl
      rcases hOrderly.wipeStep (.inr hOthers) hPc hTail with
        hSettled | ⟨hNext, hPower⟩
      · rw [← view_main] at hSettled
        exact .of_settled hSound hSettled
      · refine .of_unsettled hSound
          (.inl (hSame.trans hWaiting))
          (fun thread => ?_) (hPower.trans hOn)
        cases thread with
        | main => exact fun hTail => hNext (by cases hTail; rfl)
        | watcher => exact hWatcherTail _ hSame

/- The watcher takes a stop request only where none is due. -/
theorem watcherStep
    (hOrderly : Orderly s)
    (hUnsettled : ¬ (view s).Settled)
    (hOn : s.poweredOff = false)
    (hOk :
      s.watcher = .waitForTrigger → s.main.WipePending →
        s.deadline = .elapsed)
    (hStep : WatcherStep s t) :
    Orderly t := by
  have hSound := hOrderly.sound.step
    (interlockStep_of_watcherStep hStep)
  have hCalm : ¬ s.main.Fatal := by
    intro hFatal
    have hWaiting : s.watcher = .waitForTrigger := by
      by_contra hWatcher
      exact hUnsettled (hOrderly.overlap hWatcher hFatal)
    have hPending : ¬ s.main.WipePending := fun hPending =>
      hUnsettled (.inr (.inl (hOk hWaiting hPending)))
    have hPast :
        s.tail .main = some .finalMessage ∨
          s.tail .main = some .powerOff := by
      show s.main.tail = _ ∨ s.main.tail = _
      cases hMain : s.main with
      | fatalShutdown result =>
          exact absurd (by rw [hMain]; trivial) hPending
      | killWipe pc =>
          rw [hMain] at hPending
          cases pc with
          | finalMessage => exact .inl rfl
          | powerOff => exact .inr rfl
          | _ => exact absurd trivial hPending
      | _ =>
          rw [hMain] at hFatal
          exact hFatal.elim
    rcases hPast with hWiped | hLeaving
    · exact hUnsettled
        (.inl (hOrderly.sound.finished .main hWiped))
    · exact hUnsettled (hOrderly.ending .main hLeaving)
  have hMainTail :
      ∀ u : State, u.main = s.main → u.tail .main = none :=
    fun u hSame => tail_main_of_calm (by rwa [hSame])
  have hOutside :
      ∀ u : State, (view u).Sound → u.main = s.main →
        u.poweredOff = s.poweredOff →
        u.watcher.tail ≠ some .powerOff → Orderly u := by
    intro u hSound hSame hPower hTail
    refine .of_unsettled hSound (.inr (by rwa [hSame]))
      (fun thread => ?_) (hPower.trans hOn)
    cases thread with
    | main => simp [hMainTail u hSame]
    | watcher => exact hTail
  cases hStep with
  | triggered => exact hOutside _ hSound rfl rfl nofun
  | setFlag => exact hOutside _ hSound rfl rfl nofun
  | signalled => exact hOutside _ hSound rfl rfl nofun
  | alive => exact hOrderly
  | graceOver => exact hOutside _ hSound rfl rfl nofun
  | @killWipe u pc next hWatcher hTail =>
      have hPc : s.tail .watcher = some pc := by
        show s.watcher.tail = some pc
        rw [hWatcher]
        rfl
      have hOthers :
          ∀ other, other ≠ .watcher →
            s.tail other = none := by
        intro other hOther
        cases other with
        | main => exact hMainTail s rfl
        | watcher => exact absurd rfl hOther
      have hSame : u.main = s.main := by
        cases hTail <;> rfl
      rcases hOrderly.wipeStep (.inr hOthers) hPc hTail with
        hSettled | ⟨hNext, hPower⟩
      · rw [← view_watcher] at hSettled
        exact .of_settled hSound hSettled
      · exact hOutside _ hSound hSame hPower
          fun hTail => hNext (by cases hTail; rfl)

/- A permitted step keeps the threads apart. -/
theorem step
    {event : Event}
    (hOrderly : Orderly s)
    (hOk : NoSecondEntrant appPid s event)
    (hStep : step appPid s event = some t) :
    Orderly t := by
  have hView := interlockStep_of_step hStep
  have hSound := hOrderly.sound.step hView
  by_cases hSettled : (view s).Settled
  · exact .of_settled hSound
      (hSettled.step hOrderly.sound hView)
  rcases step_cases hStep with ⟨hOn, hMachine⟩
  cases hMachine with
  | exit =>
      exact { hOrderly with sound := hSound }
  | orphan =>
      exact { hOrderly with sound := hSound }
  | main hMain =>
      exact hOrderly.mainStep hSettled hOn hOk hMain
  | watcher hWatcher =>
      exact hOrderly.watcherStep hSettled hOn hOk hWatcher
  | elapse => exact .of_settled hSound (.inr (.inl rfl))
  | deadlineOff hElapsed =>
      exact absurd (.inr (.inl hElapsed)) hSettled

/- By induction on the run. -/
theorem of_reachable
    (hReach :
      (system appPid).ReachableUnder
        (NoSecondEntrant appPid) s) :
    Orderly s := by
  refine hReach.invariant ?_ ?_
  · rintro s rfl
    exact Orderly.booted appPid
  · intro s event t hOrderly hOk hStep
    exact hOrderly.step hOk hStep

end Orderly

------------------------------------------------------------
-- What an Excluded Step Leads To
------------------------------------------------------------

/- Some continuation cuts a wipe short. -/
def LeadsToCut (appPid : Nat) (s : State) : Prop :=
  ∃ events t,
    (system appPid).run s events = some t ∧ ¬ NotCutShort t

/- What leads to a state that leads to a cut does too. -/
theorem LeadsToCut.step
    {appPid : Nat} {s t : State} (event : Event)
    (hStep : step appPid s event = some t)
    (hCut : LeadsToCut appPid t) :
    LeadsToCut appPid s := by
  rcases hCut with ⟨events, u, hRun, hShort⟩
  refine ⟨event :: events, u, ?_, hShort⟩
  rw [Transition.System.run_cons_eq_some_iff]
  exact ⟨t, hStep, hRun⟩

/-
  What the two records say: a finished wipe has a thread
  leaving it, and a fatal error was raised during a wipe
  only where the watcher had started one.
-/
structure Recorded (s : State) : Prop where
  sound : (view s).Sound
  finishedBy : (view s).FinishedBy
  fatal :
    s.fatalDuringWipe = true →
      s.wipeStarted = true ∧ s.watcher ≠ .waitForTrigger

/- A started wipe never becomes unstarted. -/
theorem wipeStarted_of_wipeStep
    {s t : State} {pc next : WipePc}
    (hStep : WipeStep s pc t next)
    (hSet : s.wipeStarted = true) :
    t.wipeStarted = true := by
  cases hStep <;> first | exact hSet | rfl

/- A step of the wipe is no fatal error. -/
theorem fatalDuringWipe_of_wipeStep
    {s t : State} {pc next : WipePc}
    (hStep : WipeStep s pc t next) :
    t.fatalDuringWipe = s.fatalDuringWipe := by
  cases hStep <;> rfl

/- Nor is it the watcher's, if it is the main thread's. -/
theorem watcher_of_wipeStep
    {s t : State} {pc next : WipePc}
    (hStep : WipeStep s pc t next) :
    t.watcher = s.watcher := by
  cases hStep <;> rfl

/- Every entrant is on record. -/
theorem Recorded.step
    {appPid : Nat} {s t : State} {event : Event}
    (hRecorded : Recorded s)
    (hStep : step appPid s event = some t) :
    Recorded t := by
  have hView := interlockStep_of_step hStep
  refine
    ⟨hRecorded.sound.step hView,
      hRecorded.finishedBy.step hView, ?_⟩
  cases (step_cases hStep).2 with
  | exit => exact hRecorded.fatal
  | orphan => exact hRecorded.fatal
  | main hMain =>
      cases hMain with
      | waited => exact hRecorded.fatal
      | readFlag => exact hRecorded.fatal
      | ignored => exact hRecorded.fatal
      | retried => exact hRecorded.fatal
      | fatal => exact hRecorded.fatal
      | compromise hPc _ =>
          intro hRaised
          rcases Bool.or_eq_true _ _ ▸ hRaised with
            hBefore | hSet
          · exact hRecorded.fatal hBefore
          -- The main thread is outside the tail, so it is
          -- the watcher that started the wipe.
          refine ⟨hSet, fun hWaiting => ?_⟩
          rcases hRecorded.sound.owned hSet with
            ⟨thread, pc, hTail, -⟩
          cases thread with
          | main =>
              have hTail : s.main.tail = some pc := hTail
              rw [hPc] at hTail
              cases hTail
          | watcher =>
              rw [show (view s).tail .watcher = none from
                tail_watcher_of_waiting hWaiting] at hTail
              cases hTail
      | killWipe _ hTail =>
          intro hRaised
          have hRaised :=
            (fatalDuringWipe_of_wipeStep hTail).symm.trans
              hRaised
          rcases hRecorded.fatal hRaised with
            ⟨hSet, hWatcher⟩
          have hStarted := wipeStarted_of_wipeStep hTail hSet
          have hSame := watcher_of_wipeStep hTail
          exact ⟨hStarted, fun hWaiting =>
            hWatcher (hSame.symm.trans hWaiting)⟩
  | watcher hWatcher =>
      cases hWatcher with
      | triggered =>
          exact fun hRaised =>
            ⟨(hRecorded.fatal hRaised).1, nofun⟩
      | setFlag =>
          exact fun hRaised =>
            ⟨(hRecorded.fatal hRaised).1, nofun⟩
      | signalled =>
          exact fun hRaised =>
            ⟨(hRecorded.fatal hRaised).1, nofun⟩
      | alive => exact hRecorded.fatal
      | graceOver =>
          exact fun hRaised =>
            ⟨(hRecorded.fatal hRaised).1, nofun⟩
      | killWipe _ hTail =>
          intro hRaised
          have hRaised :=
            (fatalDuringWipe_of_wipeStep hTail).symm.trans
              hRaised
          have hStarted := wipeStarted_of_wipeStep hTail
            (hRecorded.fatal hRaised).1
          exact ⟨hStarted, nofun⟩
  | elapse => exact hRecorded.fatal
  | deadlineOff => exact hRecorded.fatal

/- In every state that can be reached. -/
theorem Recorded.of_reachable
    {appPid : Nat} {s : State}
    (hReach : (system appPid).Reachable s) :
    Recorded s := by
  refine hReach.invariant ?_ ?_
  · rintro s rfl
    exact
      { sound := (Orderly.booted appPid).sound
        finishedBy := nofun
        fatal := nofun }
  · intro s event t hRecorded _ hStep
    exact hRecorded.step hStep

/- The machine is on, and nothing excuses a power-off. -/
structure Exposed (s : State) : Prop where
  on : s.poweredOff = false
  unfinished : s.wipeFinished = false
  calm : s.fatalDuringWipe = false

/- The watcher is on its way to the interlock. -/
def WatcherPc.Coming : WatcherPc → Prop
| .setFlag | .signalApp | .grace
| .killWipe .swapStarted => True
| _ => False

/-
  Under a running deadline, a watcher that arrives at the
  interlock another thread holds powers the machine off.
-/
theorem leadsToCut_of_arrived
    {s : State} (appPid : Nat)
    (hExposed : Exposed s)
    (hStarted : s.wipeStarted = true)
    (hSleeping : s.deadline = .sleeping)
    (hWatcher : s.watcher = .killWipe .swapStarted) :
    LeadsToCut appPid s := by
  let off : State :=
    { s with watcher := .killWipe .powerOff, poweredOff := true }
  refine ⟨[.watcher .ok, .watcher .ok], off, ?_, ?_⟩
  · simp [Transition.System.run_cons, system, step,
      runGracefulShutdown, killWipeAndPowerOff, hExposed.on,
      hStarted, hWatcher, off]
  · intro hNot
    have hArmed : off.deadline ≠ .absent := by
      simp [off, hSleeping]
    rcases hNot rfl hArmed with
      hFinished | hElapsed | hFatal
    · simp [off, hExposed.unfinished] at hFinished
    · simp [off, hSleeping] at hElapsed
    · simp [off, hExposed.calm] at hFatal

/- The same from anywhere on its way. -/
theorem leadsToCut_of_armed
    {s : State} (appPid : Nat)
    (hExposed : Exposed s)
    (hStarted : s.wipeStarted = true)
    (hSleeping : s.deadline = .sleeping)
    (hComing : s.watcher.Coming) :
    LeadsToCut appPid s := by
  have hGrace :
      ∀ u : State, Exposed u → u.wipeStarted = true →
        u.deadline = .sleeping → u.watcher = .grace →
          LeadsToCut appPid u := by
    intro u hExposed hStarted hSleeping hWatcher
    have hArrived := leadsToCut_of_arrived
      (s := { u with watcher := .killWipe .swapStarted })
      appPid { hExposed with } hStarted hSleeping rfl
    refine hArrived.step (.watcher .timedOut) ?_
    simp [step, runGracefulShutdown, hExposed.on, hWatcher]
  have hSignal :
      ∀ u : State, Exposed u → u.wipeStarted = true →
        u.deadline = .sleeping → u.watcher = .signalApp →
          LeadsToCut appPid u := by
    intro u hExposed hStarted hSleeping hWatcher
    have hNext := hGrace { u with watcher := .grace }
      { hExposed with } hStarted hSleeping rfl
    refine hNext.step (.watcher .ok) ?_
    simp [step, runGracefulShutdown, hExposed.on, hWatcher]
  cases hWatcher : s.watcher with
  | setFlag =>
      have hNext := hSignal
        { s with
          shutdownInProgress := true
          watcher := .signalApp }
        { hExposed with } hStarted hSleeping rfl
      refine hNext.step (.watcher .ok) ?_
      simp [step, runGracefulShutdown, hExposed.on, hWatcher]
  | signalApp =>
      exact hSignal s hExposed hStarted hSleeping hWatcher
  | grace =>
      exact hGrace s hExposed hStarted hSleeping hWatcher
  | killWipe pc =>
      rw [hWatcher] at hComing
      cases pc with
      | swapStarted =>
          exact leadsToCut_of_arrived appPid hExposed hStarted
            hSleeping hWatcher
      | _ => exact hComing.elim
  | waitForTrigger =>
      rw [hWatcher] at hComing
      exact hComing.elim

/- While the watcher is coming, only the main thread swaps. -/
theorem main_of_started
    {s : State}
    (hSound : (view s).Sound)
    (hComing : s.watcher.Coming)
    (hSet : s.wipeStarted = true) :
    ∃ pc, s.tail .main = some pc ∧ pc ≠ .swapStarted := by
  rcases hSound.owned hSet with ⟨thread, pc, hTail, hPast⟩
  have hTail : s.tail thread = some pc := hTail
  cases thread with
  | main => exact ⟨pc, hTail, hPast⟩
  | watcher =>
      have hTail : s.watcher.tail = some pc := hTail
      cases hWatcher : s.watcher with
      | killWipe point =>
          rw [hWatcher] at hTail hComing
          cases hTail
          cases pc with
          | swapStarted => exact absurd rfl hPast
          | _ => exact hComing.elim
      | _ =>
          rw [hWatcher] at hTail
          cases hTail

/-
  A fatal error waiting for its wipe is cut short by a
  watcher on its way: the main thread gets to the interlock
  and arms the deadline, and the watcher follows.
-/
theorem leadsToCut_of_pending
    {s : State} (appPid : Nat)
    (hExposed : Exposed s)
    (hSound : (view s).Sound)
    (hComing : s.watcher.Coming)
    (hPending : s.main.WipePending)
    (hDeadline : s.deadline ≠ .elapsed) :
    LeadsToCut appPid s := by
  have hArm :
      ∀ u : State, Exposed u → u.wipeStarted = true →
        u.watcher.Coming → u.main = .killWipe .armDeadline →
          LeadsToCut appPid u := by
    intro u hExposed hStarted hComing hMain
    have hNext := leadsToCut_of_armed
      (s :=
        { u with
          deadline := .sleeping
          main := .killWipe .killAll })
      appPid { hExposed with } hStarted rfl hComing
    refine hNext.step (.main .ok) ?_
    simp [step, watchdogLoop, killWipeAndPowerOff,
      hExposed.on, hMain]
  have hSwap :
      ∀ u : State, Exposed u → u.wipeStarted = false →
        u.watcher.Coming → u.main = .killWipe .swapStarted →
          LeadsToCut appPid u := by
    intro u hExposed hFresh hComing hMain
    have hNext := hArm
      { u with
        wipeStarted := true
        main := .killWipe .armDeadline }
      { hExposed with } rfl hComing rfl
    refine hNext.step (.main .ok) ?_
    simp [step, watchdogLoop, killWipeAndPowerOff,
      hExposed.on, hMain, hFresh]
  have hUnstarted :
      s.tail .main = none ∨
        s.tail .main = some .swapStarted →
          s.wipeStarted = false := by
    intro hTail
    by_contra hSet
    rcases main_of_started hSound hComing
      (by simpa using hSet) with ⟨pc, hPc, hPast⟩
    rcases hTail with hNone | hSwap
    · simp [hNone] at hPc
    · rw [hSwap] at hPc
      cases hPc
      exact hPast rfl
  have hBody :
      ∀ pc, s.main = .killWipe pc → pc.InBody →
        LeadsToCut appPid s := by
    intro pc hMain hIn
    have hTail : (view s).tail .main = some pc := by
      show s.main.tail = some pc
      rw [hMain]
      rfl
    have hArmed : s.deadline ≠ .absent :=
      hSound.armed .main pc hTail hIn
    have hStarted : s.wipeStarted = true :=
      hSound.started .main pc hTail
        (by rintro rfl; exact hIn)
    have hSleeping : s.deadline = .sleeping := by
      cases hWhen : s.deadline with
      | sleeping => rfl
      | absent => exact absurd hWhen hArmed
      | elapsed => exact absurd hWhen hDeadline
    exact leadsToCut_of_armed appPid hExposed hStarted
      hSleeping hComing
  cases hMain : s.main with
  | fatalShutdown result =>
      have hFresh := hUnstarted
        (.inl (show s.main.tail = none by rw [hMain]; rfl))
      have hNext := hSwap
        { s with
          shutdownInProgress := true
          main := .killWipe .swapStarted }
        { hExposed with } hFresh hComing rfl
      refine hNext.step (.main .ok) ?_
      simp [step, watchdogLoop, hExposed.on, hMain]
  | killWipe pc =>
      cases pc with
      | swapStarted =>
          have hFresh := hUnstarted (.inr
            (show s.main.tail = _ by rw [hMain]; rfl))
          exact hSwap s hExposed hFresh hComing hMain
      | armDeadline =>
          have hStarted : s.wipeStarted = true :=
            hSound.started .main .armDeadline
              (show s.main.tail = _ by rw [hMain]; rfl)
              nofun
          exact hArm s hExposed hStarted hComing hMain
      | killAll => exact hBody _ hMain trivial
      | waitForExits => exact hBody _ hMain trivial
      | wipeState => exact hBody _ hMain trivial
      | finalMessage =>
          rw [hMain] at hPending
          exact hPending.elim
      | powerOff =>
          rw [hMain] at hPending
          exact hPending.elim
  | _ =>
      rw [hMain] at hPending
      exact hPending.elim

/- Taking a stop request while a fatal error is pending. -/
theorem leadsToCut_of_trigger
    {appPid : Nat} {s t : State}
    (hRecorded : Recorded s)
    (hOn : s.poweredOff = false)
    (hWaiting : s.watcher = .waitForTrigger)
    (hPending : s.main.WipePending)
    (hDeadline : s.deadline ≠ .elapsed)
    (hStep : WatcherStep s t) :
    LeadsToCut appPid t := by
  have hUnfinished : s.wipeFinished = false := by
    by_contra hSet
    have hFinished : s.wipeFinished = true := by
      simpa using hSet
    rcases hRecorded.finishedBy hFinished with
      ⟨thread, pc, hTail, hLeaving⟩
    have hTail : s.tail thread = some pc := hTail
    cases thread with
    | watcher =>
        rw [tail_watcher_of_waiting hWaiting] at hTail
        cases hTail
    | main =>
        have hTail : s.main.tail = some pc := hTail
        cases hMain : s.main with
        | killWipe point =>
            rw [hMain] at hTail hPending
            cases hTail
            cases pc <;> first
              | exact hLeaving.elim
              | exact hPending.elim
        | _ =>
            rw [hMain] at hTail
            cases hTail
  have hCalm : s.fatalDuringWipe = false := by
    by_contra hFatal
    exact (hRecorded.fatal (by simpa using hFatal)).2 hWaiting
  cases hStep with
  | triggered =>
      have hView :
          view { s with watcher := .setFlag } = view s :=
        view_watcher_of_tail s (by rw [hWaiting]; rfl)
      exact leadsToCut_of_pending appPid
        ⟨hOn, hUnfinished, hCalm⟩
        (hView.symm ▸ hRecorded.sound)
        trivial hPending hDeadline
  | setFlag hWatcher => simp [hWaiting] at hWatcher
  | signalled hWatcher => simp [hWaiting] at hWatcher
  | alive hWatcher => simp [hWaiting] at hWatcher
  | graceOver hWatcher => simp [hWaiting] at hWatcher
  | killWipe hWatcher => simp [hWaiting] at hWatcher

/- Raising a fatal error between a stop request and its wipe. -/
theorem leadsToCut_of_raise
    {appPid : Nat} {s t : State}
    (hRecorded : Recorded s)
    (hOn : s.poweredOff = false)
    (hRaising : s.main.Raising appPid)
    (hWatcher : s.watcher ≠ .waitForTrigger)
    (hFresh : s.wipeStarted = false)
    (hStep : MainStep appPid s t)
    (hSound : (view t).Sound) :
    LeadsToCut appPid t := by
  rcases hRecorded.sound.fresh hFresh with
    ⟨hAbsent, hUnfinished⟩
  have hAbsent : s.deadline = .absent := hAbsent
  have hCalm : s.fatalDuringWipe = false := by
    by_contra hFatal
    have hSet := (hRecorded.fatal (by simpa using hFatal)).1
    simp [hFresh] at hSet
  have hComing : s.watcher.Coming := by
    cases hPc : s.watcher with
    | waitForTrigger => exact absurd hPc hWatcher
    | killWipe pc =>
        have hSwap : pc = .swapStarted :=
          hRecorded.sound.swapStarted_of_fresh hFresh
            (show (view s).tail .watcher = some pc by
              show s.watcher.tail = _
              rw [hPc]
              rfl)
        rw [hSwap]
        trivial
    | _ => trivial
  cases hStep with
  | compromise hMain hCompromise =>
      refine leadsToCut_of_pending appPid
        ⟨hOn, hUnfinished, ?_⟩ hSound hComing trivial ?_
      · show (s.fatalDuringWipe || s.wipeStarted) = false
        simp [hCalm, hFresh]
      · show s.deadline ≠ .elapsed
        simp [hAbsent]
  | ignored hMain hCompromise =>
      rw [hMain] at hRaising
      exact absurd
        (hCompromise.symm.trans hRaising) nofun
  | waited hMain => rw [hMain] at hRaising; exact hRaising.elim
  | readFlag hMain => rw [hMain] at hRaising; exact hRaising.elim
  | retried hMain => rw [hMain] at hRaising; exact hRaising.elim
  | fatal hMain => rw [hMain] at hRaising; exact hRaising.elim
  | killWipe hMain =>
      rw [hMain] at hRaising
      exact hRaising.elim

/- The condition excludes nothing that is harmless. -/
theorem leadsToCut_of_excluded
    {appPid : Nat} {s t : State} {event : Event}
    (hReach : (system appPid).Reachable s)
    (hStep : step appPid s event = some t)
    (hExcluded : ¬ NoSecondEntrant appPid s event) :
    LeadsToCut appPid t := by
  have hRecorded := Recorded.of_reachable hReach
  rcases step_cases hStep with ⟨hOn, hMachine⟩
  cases hMachine with
  | exit => exact absurd trivial hExcluded
  | orphan => exact absurd trivial hExcluded
  | elapse => exact absurd trivial hExcluded
  | deadlineOff => exact absurd trivial hExcluded
  | watcher hWatcher =>
      simp only [NoSecondEntrant, Classical.not_imp] at hExcluded
      rcases hExcluded with ⟨hWaiting, hPending, hDeadline⟩
      exact leadsToCut_of_trigger hRecorded hOn hWaiting
        hPending hDeadline hWatcher
  | main hMain =>
      simp only [NoSecondEntrant, Classical.not_imp, not_or,
        Bool.not_eq_true] at hExcluded
      rcases hExcluded with ⟨hRaising, hWaiting, hFresh⟩
      exact leadsToCut_of_raise hRecorded hOn hRaising
        hWaiting hFresh hMain
        (hRecorded.step hStep).sound

------------------------------------------------------------
-- The Result
------------------------------------------------------------

/-
  No wipe is cut short in a run whose steps let no second
  thread on its way to the interlock; and after any step
  that lets one, some continuation cuts a wipe short.
-/
theorem wipe_not_cut_short (appPid : Nat) :
    (∀ s,
      (system appPid).ReachableUnder
          (NoSecondEntrant appPid) s →
        NotCutShort s) ∧
      ∀ s event t,
        (system appPid).Reachable s →
        step appPid s event = some t →
        ¬ NoSecondEntrant appPid s event →
          ∃ events u,
            (system appPid).run t events = some u ∧
              ¬ NotCutShort u :=
  ⟨fun _ hReach => (Orderly.of_reachable hReach).notCutShort,
    fun _ _ _ hReach hStep hExcluded =>
      leadsToCut_of_excluded hReach hStep hExcluded⟩

/-
  The app exits on its own, the watchdog owns the wipe, and
  a stop request arrives before the wipe has begun to clear
  anything.
-/
def sigtermDuringFatalWipe : List Event :=
  [.exit 100, .main (.reaped 100)] ++
    List.replicate 6 (.main .ok) ++
    List.replicate 6 (.watcher .ok)

/- The machine is off, and the wipe has not been started. -/
theorem sigterm_cuts_fatal_wipe_short :
    ∃ s,
      (system 100).run (State.booted 100)
          sigtermDuringFatalWipe = some s ∧
        s.main = .killWipe .waitForExits ∧
        s.deadline = .sleeping ∧
        ¬ NotCutShort s := by
  refine ⟨_, rfl, rfl, rfl, fun hNot => ?_⟩
  rcases hNot rfl nofun with hCut | hCut | hCut <;> cases hCut

end Supervision

end Shutdown

end Guest

end CargoUnikernel
