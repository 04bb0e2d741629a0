import CargoUnikernel.Guest.Shutdown.WipeInterlock
import Mathlib.Tactic.Common
import Mathlib.Data.List.Nodup

/-
  What the watchdog makes of the exits of its children.

  Two threads reap with `wait(-1)`, pids are reused, and a
  stop request may arrive at any moment. The watchdog
  reports a compromise for the exit of the app and for
  nothing else, and only where no stop request was seen.

  Main declarations:
    * `Table`, the process table with one app in it
    * `Watch` and `Watch.of_reachable`
    * `StopSeen` and `StopSeen.step`
    * `Supervised` and `supervision`
-/

------------------------------------------------------------
-- The Process Table
------------------------------------------------------------

namespace CargoUnikernel

namespace Guest

namespace Shutdown

namespace Supervision

/- Pids in use are distinct, and the app keeps its own. -/
structure Table
    (appPid : Nat) (children : List Child) : Prop where
  distinct : (children.map Child.pid).Nodup
  app :
    ∀ child ∈ children, child.isApp = true →
      child.pid = appPid

/- The app has been waited on. -/
def AppReaped (children : List Child) : Prop :=
  ∀ child ∈ children, child.isApp = false

namespace Table

variable {appPid : Nat} {children : List Child}

/- Children with one pid are one child. -/
theorem eq_of_pid
    (hTable : Table appPid children)
    {a b : Child}
    (hA : a ∈ children) (hB : b ∈ children)
    (hPid : a.pid = b.pid) :
    a = b :=
  List.inj_on_of_nodup_map hTable.distinct hA hB hPid

/- A child that was waited for is no longer there. -/
theorem erase
    (hTable : Table appPid children) (child : Child) :
    Table appPid (children.erase child) where
  distinct :=
    hTable.distinct.sublist (List.erase_sublist.map _)
  app := fun other hOther =>
    hTable.app other (List.mem_of_mem_erase hOther)

/- An exit changes no pid. -/
theorem exit (hTable : Table appPid children) (pid : Nat) :
    Table appPid (children.map (Child.exit pid)) where
  distinct := by
    have hSame : Child.pid ∘ Child.exit pid = Child.pid := by
      funext child
      simp only [Function.comp, Child.exit]
      split <;> rfl
    rw [List.map_map, hSame]
    exact hTable.distinct
  app := by
    intro child hChild hApp
    rcases List.mem_map.mp hChild with ⟨old, hOld, rfl⟩
    have hOldApp : old.isApp = true := by
      simpa [Child.exit, apply_ite Child.isApp] using hApp
    have hPid := hTable.app old hOld hOldApp
    simpa [Child.exit, apply_ite Child.pid] using hPid

/- A child of a dead process becomes one of the init's. -/
theorem orphan
    (hTable : Table appPid children)
    {pid : Nat} (exited : Bool)
    (hFresh : ∀ child ∈ children, child.pid ≠ pid) :
    Table appPid (children ++ [⟨pid, false, exited⟩]) where
  distinct := by
    rw [List.map_append, List.map_singleton]
    refine hTable.distinct.append (List.nodup_singleton _) ?_
    intro used hUsed hNew
    rcases List.mem_map.mp hUsed with ⟨child, hChild, rfl⟩
    exact hFresh child hChild (by simpa using hNew)
  app := by
    intro child hChild hApp
    rcases List.mem_append.mp hChild with hOld | hNew
    · exact hTable.app child hOld hApp
    · simp only [List.mem_singleton] at hNew
      simp [hNew] at hApp

/- Once the app is waited on, no app is left. -/
theorem appReaped_erase
    (hTable : Table appPid children)
    {child : Child}
    (hChild : child ∈ children)
    (hApp : child.isApp = true) :
    AppReaped (children.erase child) := by
  intro other hOther
  by_contra hOtherApp
  have hMem := List.mem_of_mem_erase hOther
  have hEq : other = child :=
    hTable.eq_of_pid hMem hChild
      ((hTable.app other hMem (by simpa using hOtherApp)).trans
        (hTable.app child hChild hApp).symm)
  have hNodup : children.Nodup := hTable.distinct.of_map _
  exact (hNodup.mem_erase_iff.mp hOther).1 hEq

end Table

/- An app that was reaped is not reaped twice. -/
theorem AppReaped.erase
    {children : List Child}
    (hReaped : AppReaped children) (child : Child) :
    AppReaped (children.erase child) :=
  fun other hOther =>
    hReaped other (List.mem_of_mem_erase hOther)

/- Waiting on another child leaves the app where it was. -/
theorem appReaped_of_erase
    {children : List Child} {child : Child}
    (hOther : child.isApp = false)
    (hReaped : AppReaped (children.erase child)) :
    AppReaped children := by
  intro other hMem
  by_cases hEq : other = child
  · rw [hEq]
    exact hOther
  · exact hReaped other ((List.mem_erase_of_ne hEq).mpr hMem)

@[simp] theorem appReaped_exit
    (children : List Child) (pid : Nat) :
    AppReaped (children.map (Child.exit pid)) ↔
      AppReaped children := by
  simp [AppReaped, Child.exit, apply_ite Child.isApp]

@[simp] theorem appReaped_orphan
    (children : List Child) (pid : Nat) (exited : Bool) :
    AppReaped (children ++ [⟨pid, false, exited⟩]) ↔
      AppReaped children := by
  simp [AppReaped, or_imp, forall_and]

------------------------------------------------------------
-- What the Watchdog Holds
------------------------------------------------------------

/-
  With the flag as given, the result is no reason for a
  fatal error unless it is the exit of the app.
-/
def Excused
    (appPid : Nat) (flag : Bool) : WaitResult → Prop
| .exited child =>
    child.isApp = false → child.pid = appPid → flag = true
| .noChild => flag = true
| .otherErr => True

/- The result is the exit of the app. -/
def WaitResult.IsApp : WaitResult → Prop
| .exited child => child.isApp = true
| _ => False

/- The wait result the watchdog has yet to judge. -/
def MainPc.result : MainPc → Option WaitResult
| .readFlag result | .decide result _ => some result
| _ => none

/-
  The watchdog has collected the exit of the app and has
  not read the flag as set since.
-/
def MainPc.HoldsApp : MainPc → Prop
| .readFlag result => result.IsApp
| .decide result shuttingDown =>
    result.IsApp ∧ shuttingDown = false
| _ => False

/- A compromise the result does not excuse is the app's. -/
theorem isApp_of_isCompromise
    {appPid : Nat} {flag : Bool} {result : WaitResult}
    (hExcused : Excused appPid flag result)
    (hCompromise : isCompromise appPid result flag = true) :
    result.IsApp := by
  cases result with
  | exited child =>
      simp only [isCompromise, Bool.and_eq_true, beq_iff_eq,
        Bool.not_eq_true'] at hCompromise
      by_contra hIsApp
      have hOther : child.isApp = false := by
        simpa [WaitResult.IsApp] using hIsApp
      have hSet := hExcused hOther hCompromise.1
      simp [hSet] at hCompromise
  | noChild =>
      have hSet : flag = true := hExcused
      simp [isCompromise, hSet] at hCompromise
  | otherErr => cases hCompromise

/-
  What holds of the watchdog in every interleaving. The
  app leaves the table once; if the watchdog collects it,
  it either reports a compromise or reads the flag as set,
  and the watcher collects nothing before setting it.
-/
structure Watch (appPid : Nat) (s : State) : Prop where
  table : Table appPid s.children
  flagged :
    s.watcher = .waitForTrigger ∨ s.watcher = .setFlag ∨
      s.shutdownInProgress = true
  flagCause :
    s.shutdownInProgress = true →
      s.watcher = .waitForTrigger ∨ s.watcher = .setFlag →
        s.main.Fatal
  collected :
    AppReaped s.children →
      s.main.HoldsApp ∨ s.main.Fatal ∨
        s.shutdownInProgress = true
  read :
    ∀ result, s.main = .readFlag result →
      Excused appPid s.shutdownInProgress result
  decided :
    ∀ result shuttingDown,
      s.main = .decide result shuttingDown →
        Excused appPid shuttingDown result ∧
          (shuttingDown = true →
            s.shutdownInProgress = true)
  heldPid :
    ∀ child, s.main.result = some (.exited child) →
      child.isApp = true → child.pid = appPid
  held : s.main.HoldsApp → AppReaped s.children
  raised :
    ∀ result, s.main = .fatalShutdown result → result.IsApp
  gone : s.main.Fatal → AppReaped s.children

/- What a step of the tail leaves alone. -/
structure TailFrame (s t : State) : Prop where
  main : t.main = s.main
  watcher : t.watcher = s.watcher
  flag : t.shutdownInProgress = s.shutdownInProgress
  table :
    ∀ appPid, Table appPid s.children →
      Table appPid t.children
  reaped : AppReaped s.children → AppReaped t.children

/- A step of the wipe changes little else. -/
theorem tailFrame_of_wipeStep
    {s t : State} {pc next : WipePc}
    (hStep : WipeStep s pc t next) : TailFrame s t := by
  cases hStep with
  | reaped =>
      exact
        ⟨rfl, rfl, rfl, fun _ hTable => hTable.erase _,
          fun hReaped => hReaped.erase _⟩
  | _ => exact ⟨rfl, rfl, rfl, fun _ => id, id⟩

namespace Watch

variable {appPid : Nat} {s t : State}

/- The invariant holds when the app was started. -/
theorem booted (appPid : Nat) :
    Watch appPid (State.booted appPid) where
  table :=
    { distinct := List.nodup_singleton appPid
      app := fun child hChild _ => by
        simp only [State.booted, List.mem_singleton] at hChild
        rw [hChild] }
  flagged := .inl rfl
  flagCause := nofun
  collected := fun hReaped =>
    absurd (hReaped _ (List.mem_singleton.mpr rfl)) nofun
  read := nofun
  decided := nofun
  heldPid := nofun
  held := False.elim
  raised := nofun
  gone := False.elim

/- Changes of the table that keep the app where it is. -/
theorem tableStep
    {children : List Child}
    (hWatch : Watch appPid s)
    (hTable : Table appPid children)
    (hReaped : AppReaped children ↔ AppReaped s.children) :
    Watch appPid { s with children := children } :=
  { hWatch with
    table := hTable
    collected := fun hNone =>
      hWatch.collected (hReaped.mp hNone)
    held := fun hHolds => hReaped.mpr (hWatch.held hHolds)
    gone := fun hFatal => hReaped.mpr (hWatch.gone hFatal) }

/-
  The watchdog waits: while it holds nothing, an app that
  is already gone was collected under a set flag.
-/
theorem waited
    {result : WaitResult} {rest : List Child}
    (hWatch : Watch appPid s)
    (hMain : s.main = .wait)
    (hWait : WaitStep s.children result rest) :
    Watch appPid
      { s with
        children := rest
        main := .readFlag result } := by
  have hFlag :
      AppReaped s.children → s.shutdownInProgress = true := by
    intro hReaped
    rcases hWatch.collected hReaped with
      hHolds | hFatal | hSet
    · rw [hMain] at hHolds
      exact hHolds.elim
    · rw [hMain] at hFatal
      exact hFatal.elim
    · exact hSet
  have hUnset :
      s.shutdownInProgress = true →
        s.watcher = .waitForTrigger ∨ s.watcher = .setFlag →
          False := by
    intro hSet hEarly
    have hFatal := hWatch.flagCause hSet hEarly
    rw [hMain] at hFatal
    exact hFatal
  cases hWait with
  | @exited child hChild =>
      exact
        { table := hWatch.table.erase child
          flagged := hWatch.flagged
          flagCause := fun hSet hEarly =>
            (hUnset hSet hEarly).elim
          collected := by
            intro hReaped
            by_cases hApp : child.isApp = true
            · exact .inl hApp
            · exact .inr (.inr (hFlag
                (appReaped_of_erase (by simpa using hApp)
                  hReaped)))
          read := by
            intro _ hResult
            cases hResult
            intro hOther hPid
            -- A reused pid: the app has left the table.
            apply hFlag
            intro other hMem
            by_contra hApp
            have hApp : other.isApp = true := by
              simpa using hApp
            have hEq : other = child :=
              hWatch.table.eq_of_pid hMem hChild
                ((hWatch.table.app other hMem hApp).trans
                  hPid.symm)
            simp [hEq, hOther] at hApp
          decided := nofun
          heldPid := by
            intro _ hResult hApp
            cases hResult
            exact hWatch.table.app child hChild hApp
          held := fun hApp =>
            hWatch.table.appReaped_erase hChild hApp
          raised := nofun
          gone := False.elim }
  | noChild hEmpty =>
      have hReaped : AppReaped s.children := by
        simp [hEmpty, AppReaped]
      exact
        { table := hWatch.table
          flagged := hWatch.flagged
          flagCause := fun hSet hEarly =>
            (hUnset hSet hEarly).elim
          collected := fun _ => .inr (.inr (hFlag hReaped))
          read := by
            intro _ hResult
            cases hResult
            exact hFlag hReaped
          decided := nofun
          heldPid := nofun
          held := False.elim
          raised := nofun
          gone := False.elim }
  | otherErr =>
      exact
        { table := hWatch.table
          flagged := hWatch.flagged
          flagCause := fun hSet hEarly =>
            (hUnset hSet hEarly).elim
          collected := fun hReaped =>
            .inr (.inr (hFlag hReaped))
          read := by
            intro _ hResult
            cases hResult
            trivial
          decided := nofun
          heldPid := nofun
          held := False.elim
          raised := nofun
          gone := False.elim }

/- The flag the watchdog reads is the one it judges by. -/
theorem readFlag
    {result : WaitResult}
    (hWatch : Watch appPid s)
    (hMain : s.main = .readFlag result) :
    Watch appPid
      { s with
        main := .decide result s.shutdownInProgress } where
  table := hWatch.table
  flagged := hWatch.flagged
  flagCause := by
    intro hSet hEarly
    have hFatal := hWatch.flagCause hSet hEarly
    rw [hMain] at hFatal
    exact hFatal.elim
  collected := by
    intro hReaped
    rcases hWatch.collected hReaped with
      hHolds | hFatal | hSet
    · rw [hMain] at hHolds
      by_cases hSet : s.shutdownInProgress = true
      · exact .inr (.inr hSet)
      · exact .inl ⟨hHolds, by simpa using hSet⟩
    · rw [hMain] at hFatal
      exact hFatal.elim
    · exact .inr (.inr hSet)
  read := nofun
  decided := by
    intro _ _ hDecide
    cases hDecide
    exact ⟨hWatch.read result hMain, id⟩
  heldPid := fun child hResult hApp =>
    hWatch.heldPid child
      (by rw [hMain]; exact hResult) hApp
  held := fun hHolds =>
    hWatch.held (by rw [hMain]; exact hHolds.1)
  raised := nofun
  gone := False.elim

/- A compromise is always the app's. -/
theorem compromise
    {result : WaitResult} {shuttingDown raised : Bool}
    (hWatch : Watch appPid s)
    (hMain : s.main = .decide result shuttingDown)
    (hCompromise :
      isCompromise appPid result shuttingDown = true) :
    Watch appPid
      { s with
        main := .fatalShutdown result
        fatalDuringWipe := raised } := by
  have hApp : result.IsApp :=
    isApp_of_isCompromise
      (hWatch.decided result shuttingDown hMain).1 hCompromise
  have hUnset : shuttingDown = false := by
    cases result with
    | exited child =>
        simp only [isCompromise, Bool.and_eq_true,
          Bool.not_eq_true'] at hCompromise
        exact hCompromise.2
    | noChild => exact hApp.elim
    | otherErr => exact hApp.elim
  exact
    { table := hWatch.table
      flagged := hWatch.flagged
      flagCause := fun _ _ => trivial
      collected := fun _ => .inr (.inl trivial)
      read := nofun
      decided := nofun
      heldPid := nofun
      held := False.elim
      raised := by
        intro _ hRaised
        cases hRaised
        exact hApp
      gone := fun _ =>
        hWatch.held (by rw [hMain]; exact ⟨hApp, hUnset⟩) }

/- Back to waiting with nothing in hand. -/
theorem release
    {pc : MainPc}
    (hWatch : Watch appPid s)
    (hCalm : ¬ s.main.Fatal)
    (hFlag : s.main.HoldsApp → s.shutdownInProgress = true)
    (hPc : pc = .wait ∨ pc = .retry) :
    Watch appPid { s with main := pc } where
  table := hWatch.table
  flagged := hWatch.flagged
  flagCause := fun hSet hEarly =>
    absurd (hWatch.flagCause hSet hEarly) hCalm
  collected := by
    intro hReaped
    rcases hWatch.collected hReaped with
      hHolds | hFatal | hSet
    · exact .inr (.inr (hFlag hHolds))
    · exact absurd hFatal hCalm
    · exact .inr (.inr hSet)
  read := by rcases hPc with rfl | rfl <;> nofun
  decided := by rcases hPc with rfl | rfl <;> nofun
  heldPid := by rcases hPc with rfl | rfl <;> nofun
  held := by rcases hPc with rfl | rfl <;> exact False.elim
  raised := by rcases hPc with rfl | rfl <;> nofun
  gone := by rcases hPc with rfl | rfl <;> exact False.elim

/- What is ignored was not the app's, or the flag was set. -/
theorem ignored
    {result : WaitResult} {shuttingDown : Bool}
    (hWatch : Watch appPid s)
    (hMain : s.main = .decide result shuttingDown)
    (hIgnored :
      isCompromise appPid result shuttingDown = false) :
    Watch appPid { s with main := afterWait result } := by
  refine hWatch.release ?_ ?_ ?_
  · rw [hMain]
    exact id
  · intro hHolds
    rw [hMain] at hHolds
    rcases hHolds with ⟨hApp, hUnset⟩
    cases result with
    | exited child =>
        have hPid := hWatch.heldPid child
          (by rw [hMain]; rfl) hApp
        simp [isCompromise, hPid, hUnset] at hIgnored
    | noChild => exact hApp.elim
    | otherErr => exact hApp.elim
  · cases result with
    | exited child => exact .inl rfl
    | noChild => exact .inr rfl
    | otherErr => exact .inr rfl

/- The fatal path, outside the tail and inside it. -/
theorem fatalPath
    {pc : WipePc}
    (hWatch : Watch appPid s)
    (hMain : s.main.Fatal)
    (flag : Bool)
    (hFlag : s.shutdownInProgress = true → flag = true) :
    Watch appPid
      { s with
        shutdownInProgress := flag
        main := .killWipe pc } where
  table := hWatch.table
  flagged := by
    rcases hWatch.flagged with hWait | hSetFlag | hSet
    · exact .inl hWait
    · exact .inr (.inl hSetFlag)
    · exact .inr (.inr (hFlag hSet))
  flagCause := fun _ _ => trivial
  collected := fun _ => .inr (.inl trivial)
  read := nofun
  decided := nofun
  heldPid := nofun
  held := False.elim
  raised := nofun
  gone := fun _ => hWatch.gone hMain

/- The tail only takes children out of the table. -/
theorem tailStep
    {pc next : WipePc}
    (hWatch : Watch appPid s)
    (hSafe :
      s.main.Fatal ∨ s.shutdownInProgress = true)
    (hTail : WipeStep s pc t next) :
    Watch appPid t := by
  have hFrame := tailFrame_of_wipeStep hTail
  exact
    { table := hFrame.table appPid hWatch.table
      flagged := by
        rw [hFrame.watcher, hFrame.flag]
        exact hWatch.flagged
      flagCause := by
        rw [hFrame.watcher, hFrame.flag, hFrame.main]
        exact hWatch.flagCause
      collected := by
        rw [hFrame.flag, hFrame.main]
        intro _
        exact .inr hSafe
      read := by
        rw [hFrame.flag, hFrame.main]
        exact hWatch.read
      decided := by
        rw [hFrame.flag, hFrame.main]
        exact hWatch.decided
      heldPid := by
        rw [hFrame.main]
        exact hWatch.heldPid
      held := by
        rw [hFrame.main]
        exact fun hHolds => hFrame.reaped (hWatch.held hHolds)
      raised := by
        rw [hFrame.main]
        exact hWatch.raised
      gone := by
        rw [hFrame.main]
        exact fun hFatal => hFrame.reaped (hWatch.gone hFatal) }

/- Every step of the main thread keeps it. -/
theorem mainStep
    (hWatch : Watch appPid s)
    (hStep : MainStep appPid s t) :
    Watch appPid t := by
  cases hStep with
  | waited hMain hWait => exact hWatch.waited hMain hWait
  | readFlag hMain => exact hWatch.readFlag hMain
  | compromise hMain hCompromise =>
      exact hWatch.compromise hMain hCompromise
  | ignored hMain hIgnored =>
      exact hWatch.ignored hMain hIgnored
  | retried hMain =>
      refine hWatch.release ?_ ?_ (.inl rfl)
      · rw [hMain]
        exact id
      · intro hHolds
        rw [hMain] at hHolds
        exact hHolds.elim
  | fatal hMain =>
      exact hWatch.fatalPath (by rw [hMain]; trivial) true
        fun _ => rfl
  | @killWipe u pc next hMain hTail =>
      have hFatal : s.main.Fatal := by
        rw [hMain]
        trivial
      have hFrame := tailFrame_of_wipeStep hTail
      exact (hWatch.tailStep (.inl hFatal) hTail).fatalPath
        (by rw [hFrame.main]; exact hFatal)
        u.shutdownInProgress id

/- A later point of the watcher, under a set flag. -/
theorem watcherMoves
    {pc : WatcherPc}
    (hWatch : Watch appPid s)
    (hSet : s.shutdownInProgress = true)
    (hLate : pc ≠ .waitForTrigger ∧ pc ≠ .setFlag) :
    Watch appPid { s with watcher := pc } :=
  { hWatch with
    flagged := .inr (.inr hSet)
    flagCause := by
      rintro - (hWait | hSetFlag)
      · exact absurd hWait hLate.1
      · exact absurd hSetFlag hLate.2 }

/- Past `setFlag` the flag is set. -/
theorem flag_of_late
    (hWatch : Watch appPid s)
    (hLate :
      s.watcher ≠ .waitForTrigger ∧ s.watcher ≠ .setFlag) :
    s.shutdownInProgress = true := by
  rcases hWatch.flagged with hWait | hSetFlag | hSet
  · exact absurd hWait hLate.1
  · exact absurd hSetFlag hLate.2
  · exact hSet

/- Setting the flag excuses whatever is read after it. -/
theorem setFlag
    (hWatch : Watch appPid s) :
    Watch appPid
      { s with
        shutdownInProgress := true
        watcher := .signalApp } where
  table := hWatch.table
  flagged := .inr (.inr rfl)
  flagCause := by rintro - (hWait | hSetFlag) <;> contradiction
  collected := fun _ => .inr (.inr rfl)
  read := by
    intro result _
    cases result with
    | exited child => exact fun _ _ => rfl
    | noChild => exact rfl
    | otherErr => trivial
  decided := fun result flag hDecide =>
    ⟨(hWatch.decided result flag hDecide).1, fun _ => rfl⟩
  heldPid := hWatch.heldPid
  held := hWatch.held
  raised := hWatch.raised
  gone := hWatch.gone

/- So does every step of the watcher. -/
theorem watcherStep
    (hWatch : Watch appPid s)
    (hStep : WatcherStep s t) :
    Watch appPid t := by
  have hLate :
      ∀ pc, s.watcher = pc →
        pc ≠ .waitForTrigger ∧ pc ≠ .setFlag →
          s.shutdownInProgress = true :=
    fun pc hWatcher hLate =>
      hWatch.flag_of_late (hWatcher.symm ▸ hLate)
  cases hStep with
  | triggered hWatcher =>
      exact
        { hWatch with
          flagged := .inr (.inl rfl)
          flagCause := fun hSet _ =>
            hWatch.flagCause hSet (.inl hWatcher) }
  | setFlag => exact hWatch.setFlag
  | signalled hWatcher =>
      exact hWatch.watcherMoves
        (hLate _ hWatcher ⟨nofun, nofun⟩) ⟨nofun, nofun⟩
  | alive => exact hWatch
  | graceOver hWatcher =>
      exact hWatch.watcherMoves
        (hLate _ hWatcher ⟨nofun, nofun⟩) ⟨nofun, nofun⟩
  | killWipe hWatcher hTail =>
      have hSet := hLate _ hWatcher ⟨nofun, nofun⟩
      have hFrame := tailFrame_of_wipeStep hTail
      exact (hWatch.tailStep (.inr hSet) hTail).watcherMoves
        (hFrame.flag.trans hSet) ⟨nofun, nofun⟩

/- Every step keeps what is known of the watchdog. -/
theorem step
    {event : Event}
    (hWatch : Watch appPid s)
    (hStep : step appPid s event = some t) :
    Watch appPid t := by
  cases (step_cases hStep).2 with
  | exit pid =>
      exact hWatch.tableStep (hWatch.table.exit pid)
        (appReaped_exit s.children pid)
  | @orphan pid exited hFresh =>
      exact hWatch.tableStep
        (hWatch.table.orphan exited hFresh)
        (appReaped_orphan s.children pid exited)
  | main hMain => exact hWatch.mainStep hMain
  | watcher hWatcher => exact hWatch.watcherStep hWatcher
  | elapse => exact { hWatch with }
  | deadlineOff => exact { hWatch with }

/- So it holds in every state that can be reached. -/
theorem of_reachable
    (hReach : (system appPid).Reachable s) :
    Watch appPid s := by
  refine hReach.invariant ?_ ?_
  · rintro s rfl
    exact Watch.booted appPid
  · intro s event t hWatch _ hStep
    exact hWatch.step hStep

end Watch

------------------------------------------------------------
-- After a Stop Request
------------------------------------------------------------

/-
  The flag is set, and the watchdog is neither in its fatal
  path nor about to enter it.
-/
structure StopSeen (appPid : Nat) (s : State) : Prop where
  flag : s.shutdownInProgress = true
  calm : ¬ s.main.Fatal
  judged :
    ∀ result shuttingDown,
      s.main = .decide result shuttingDown →
        isCompromise appPid result shuttingDown = false

/- A set flag is a reason to report nothing. -/
theorem isCompromise_of_flag
    (appPid : Nat) (result : WaitResult) :
    isCompromise appPid result true = false := by
  cases result <;> simp [isCompromise]

namespace StopSeen

variable {appPid : Nat} {s t : State}

/- Nothing the watchdog does leads it to its fatal path. -/
theorem mainStep
    (hSeen : StopSeen appPid s)
    (hStep : MainStep appPid s t) :
    StopSeen appPid t := by
  cases hStep with
  | waited => exact ⟨hSeen.flag, id, nofun⟩
  | @readFlag result hMain =>
      refine ⟨hSeen.flag, id, ?_⟩
      intro _ _ hDecide
      cases hDecide
      rw [hSeen.flag]
      exact isCompromise_of_flag appPid result
  | compromise hMain hCompromise =>
      have hJudged := hSeen.judged _ _ hMain
      exact absurd (hJudged.symm.trans hCompromise) nofun
  | @ignored result _ _ _ =>
      refine ⟨hSeen.flag, ?_, ?_⟩
      · cases result <;> exact id
      · cases result <;> nofun
  | retried => exact ⟨hSeen.flag, id, nofun⟩
  | fatal hMain =>
      exact absurd (by rw [hMain]; trivial) hSeen.calm
  | killWipe hMain =>
      exact absurd (by rw [hMain]; trivial) hSeen.calm

theorem watcherStep
    (hSeen : StopSeen appPid s)
    (hStep : WatcherStep s t) :
    StopSeen appPid t := by
  have hKeep :
      ∀ u : State, u.main = s.main →
        u.shutdownInProgress = true → StopSeen appPid u := by
    intro u hMain hFlag
    exact
      ⟨hFlag, by rw [hMain]; exact hSeen.calm,
        by rw [hMain]; exact hSeen.judged⟩
  cases hStep with
  | triggered => exact hKeep _ rfl hSeen.flag
  | setFlag => exact hKeep _ rfl rfl
  | signalled => exact hKeep _ rfl hSeen.flag
  | alive => exact hSeen
  | graceOver => exact hKeep _ rfl hSeen.flag
  | killWipe _ hTail =>
      have hFrame := tailFrame_of_wipeStep hTail
      exact hKeep _ hFrame.main (hFrame.flag.trans hSeen.flag)

/- Whatever happens, a stop that was seen was seen. -/
theorem step
    {event : Event}
    (hSeen : StopSeen appPid s)
    (hStep : step appPid s event = some t) :
    StopSeen appPid t := by
  cases (step_cases hStep).2 with
  | main hMain => exact hSeen.mainStep hMain
  | watcher hWatcher => exact hSeen.watcherStep hWatcher
  | exit => exact { hSeen with }
  | orphan => exact { hSeen with }
  | elapse => exact { hSeen with }
  | deadlineOff => exact { hSeen with }

end StopSeen

/- With the app alive, setting the flag is seen in time. -/
theorem stopSeen_of_watch
    {appPid : Nat} {s t : State} {outcome : Outcome}
    (hWatch : Watch appPid s)
    (hAlive : ¬ AppReaped s.children)
    (hPc : s.watcher = .setFlag)
    (hStep :
      step appPid s (.watcher outcome) = some t) :
    StopSeen appPid t := by
  have hSeen :
      StopSeen appPid { s with shutdownInProgress := true } := by
    refine ⟨rfl, fun hFatal => hAlive (hWatch.gone hFatal), ?_⟩
    intro result flag hDecide
    have hDecide : s.main = .decide result flag := hDecide
    by_contra hCompromise
    have hCompromise :
        isCompromise appPid result flag = true := by
      simpa using hCompromise
    have hApp := isApp_of_isCompromise
      (hWatch.decided result flag hDecide).1 hCompromise
    have hUnset : flag = false := by
      by_contra hSet
      rw [show flag = true by simpa using hSet,
        isCompromise_of_flag] at hCompromise
      cases hCompromise
    exact hAlive
      (hWatch.held (by rw [hDecide]; exact ⟨hApp, hUnset⟩))
  rcases step_cases hStep with ⟨-, hMachine⟩
  cases hMachine with
  | watcher hWatcher =>
      cases hWatcher with
      | setFlag => exact { hSeen with }
      | triggered hOther => simp [hPc] at hOther
      | signalled hOther => simp [hPc] at hOther
      | alive hOther => simp [hPc] at hOther
      | graceOver hOther => simp [hPc] at hOther
      | killWipe hOther => simp [hPc] at hOther

------------------------------------------------------------
-- Without a Stop Request
------------------------------------------------------------

/-
  The watchdog has judged this exit a compromise: it is
  about to report it, or it already has.
-/
def Condemned
    (child : Child) (s : State) : Prop :=
  s.main = .decide (.exited child) false ∨ s.main.Fatal

/- No other thread changes a judgement once it is made. -/
theorem Condemned.step
    {appPid : Nat} {child : Child} {s t : State}
    {event : Event}
    (hCondemned : Condemned child s)
    (hPid : child.pid = appPid)
    (hStep : step appPid s event = some t) :
    Condemned child t := by
  have hKeep :
      ∀ u : State, u.main = s.main → Condemned child u := by
    intro u hMain
    unfold Condemned
    rw [hMain]
    exact hCondemned
  cases (step_cases hStep).2 with
  | exit => exact hKeep _ rfl
  | orphan => exact hKeep _ rfl
  | elapse => exact hKeep _ rfl
  | deadlineOff => exact hKeep _ rfl
  | watcher hWatcher =>
      cases hWatcher with
      | killWipe _ hTail =>
          exact hKeep _ (tailFrame_of_wipeStep hTail).main
      | _ => exact hKeep _ rfl
  | main hMain =>
      rcases hCondemned with hDecide | hFatal
      · cases hMain with
        | compromise => exact .inr trivial
        | ignored hOther hIgnored =>
            rw [hDecide] at hOther
            cases hOther
            simp [isCompromise, hPid] at hIgnored
        | waited hOther => simp [hDecide] at hOther
        | readFlag hOther => simp [hDecide] at hOther
        | retried hOther => simp [hDecide] at hOther
        | fatal hOther => simp [hDecide] at hOther
        | killWipe hOther => simp [hDecide] at hOther
      · cases hMain with
        | fatal => exact .inr trivial
        | killWipe => exact .inr trivial
        | waited hOther => rw [hOther] at hFatal; exact hFatal.elim
        | readFlag hOther =>
            rw [hOther] at hFatal
            exact hFatal.elim
        | compromise hOther =>
            rw [hOther] at hFatal
            exact hFatal.elim
        | ignored hOther =>
            rw [hOther] at hFatal
            exact hFatal.elim
        | retried hOther =>
            rw [hOther] at hFatal
            exact hFatal.elim

/- The exit of a child can be waited on. -/
theorem wait_enabled
    {appPid : Nat} {s : State} {child : Child}
    (hTable : Table appPid s.children)
    (hOn : s.poweredOff = false)
    (hMain : s.main = .wait)
    (hChild : child ∈ s.children)
    (hExited : child.exited = true) :
    ∃ t, step appPid s (.main (.reaped child.pid)) = some t ∧
      t.main = .readFlag (.exited child) := by
  have hFind :
      s.children.find? (fun other =>
        other.pid = child.pid && other.exited) =
          some child := by
    cases hFound : s.children.find? (fun other =>
        other.pid = child.pid && other.exited) with
    | none =>
        have hNone := List.find?_eq_none.mp hFound child hChild
        simp [hExited] at hNone
    | some other =>
        have hProps := List.find?_some hFound
        simp only [Bool.and_eq_true, decide_eq_true_eq]
          at hProps
        rw [hTable.eq_of_pid (List.mem_of_find?_eq_some hFound)
          hChild hProps.1]
  refine
    ⟨{ s with
        children := s.children.erase child
        main := .readFlag (.exited child) }, ?_, rfl⟩
  simp [step, watchdogLoop, hOn, hMain, waitAny, reap, hFind]

------------------------------------------------------------
-- The Supervision Invariant
------------------------------------------------------------

/-
  What init promises about its one supervised process, over
  every interleaving of its threads with exits, orphans and
  stop requests.
-/
structure Supervised (appPid : Nat) : Prop where
  /- One thread at most wipes, in a whole run. -/
  singleOwner :
    ∀ s events t a b p q,
      (system appPid).Reachable s →
      s.tail a = some p → p.InBody →
      (system appPid).run s events = some t →
      t.tail b = some q → q.InBody →
        b = a
  /- It wipes under an armed deadline. -/
  armedFirst :
    ∀ s a p,
      (system appPid).Reachable s →
      s.tail a = some p → p.InBody →
        s.deadline ≠ .absent
  /- A stop request seen while the app, alive or just dead,
  is yet to be waited on. -/
  stopIsNoCompromise :
    ∀ s child outcome t events u,
      (system appPid).Reachable s →
      child ∈ s.children → child.isApp = true →
      s.watcher = .setFlag →
      step appPid s (.watcher outcome) = some t →
      (system appPid).run t events = some u →
        ¬ u.main.Fatal
  /- An exit of the app can be waited on, -/
  appExitSeen :
    ∀ s child,
      (system appPid).Reachable s →
      s.poweredOff = false → s.main = .wait →
      child ∈ s.children → child.isApp = true →
      child.exited = true →
        ∃ t,
          step appPid s (.main (.reaped child.pid)) =
              some t ∧
            t.main = .readFlag (.exited child)
  /- nobody but the watchdog takes it before a request, -/
  appExitKept :
    ∀ s,
      (system appPid).Reachable s →
      s.watcher = .waitForTrigger →
      AppReaped s.children →
        s.main.HoldsApp ∨ s.main.Fatal
  /- and with the flag read as unset it is a compromise. -/
  appExitIsFatal :
    ∀ s child outcome t events u,
      (system appPid).Reachable s →
      s.main = .readFlag (.exited child) →
      child.isApp = true →
      s.shutdownInProgress = false →
      step appPid s (.main outcome) = some t →
      (system appPid).run t events = some u →
        u.main.Fatal ∨
          u.main = .decide (.exited child) false ∧
            (u.poweredOff = false →
              ∃ v,
                step appPid u (.main .ok) = some v ∧
                  v.main = .fatalShutdown (.exited child))
  /- Nothing else is: no orphan, and no empty table. -/
  onlyTheApp :
    ∀ s result,
      (system appPid).Reachable s →
      s.main = .fatalShutdown result →
        ∃ child, result = .exited child ∧
          child.isApp = true

/- The watchdog judges by the flag it has read. -/
theorem condemned_of_readFlag
    {appPid : Nat} {s t : State} {child : Child}
    {outcome : Outcome}
    (hMain : s.main = .readFlag (.exited child))
    (hUnset : s.shutdownInProgress = false)
    (hStep : step appPid s (.main outcome) = some t) :
    Condemned child t := by
  cases (step_cases hStep).2 with
  | main hMachine =>
      cases hMachine with
      | readFlag hOther =>
          rw [hMain] at hOther
          cases hOther
          exact .inl (by rw [hUnset])
      | waited hOther => simp [hMain] at hOther
      | compromise hOther => simp [hMain] at hOther
      | ignored hOther => simp [hMain] at hOther
      | retried hOther => simp [hMain] at hOther
      | fatal hOther => simp [hMain] at hOther
      | killWipe hOther => simp [hMain] at hOther

/- All parts of it, in every reachable state. -/
theorem supervision (appPid : Nat) : Supervised appPid where
  singleOwner := by
    intro s events t a b p q hReach hTail hBody hRun hOther hIn
    have hOwned : (view s).OwnedBy a :=
      (sound_of_reachable hReach).ownedBy hTail hBody.owns
    have hLater : (view t).OwnedBy a :=
      (system appPid).run_preserves
        (P := fun u => (view u).OwnedBy a)
        (fun _ _ _ hBefore hNext =>
          Interlock.OwnedBy.step hBefore
            (interlockStep_of_step hNext))
        hOwned hRun
    exact hLater.2 b q hOther hIn.owns
  armedFirst := fun s a p hReach hTail hBody =>
    (sound_of_reachable hReach).armed a p hTail hBody
  stopIsNoCompromise := by
    intro s child outcome t events u hReach hChild hApp hPc
      hStep hRun
    have hAlive : ¬ AppReaped s.children := fun hReaped => by
      simp [hReaped child hChild] at hApp
    have hSeen :=
      stopSeen_of_watch (Watch.of_reachable hReach) hAlive
        hPc hStep
    have hLater : StopSeen appPid u :=
      (system appPid).run_preserves
        (fun _ _ _ hBefore hNext =>
          StopSeen.step hBefore hNext)
        hSeen hRun
    exact hLater.calm
  appExitSeen := by
    intro s child hReach hOn hMain hChild _ hExited
    exact wait_enabled (Watch.of_reachable hReach).table hOn
      hMain hChild hExited
  appExitKept := by
    intro s hReach hWaiting hReaped
    have hWatch := Watch.of_reachable hReach
    rcases hWatch.collected hReaped with
      hHolds | hFatal | hSet
    · exact .inl hHolds
    · exact .inr hFatal
    · exact .inr (hWatch.flagCause hSet (.inl hWaiting))
  appExitIsFatal := by
    intro s child outcome t events u hReach hMain hApp hUnset
      hStep hRun
    have hPid : child.pid = appPid :=
      (Watch.of_reachable hReach).heldPid child
        (by rw [hMain]; rfl) hApp
    have hLater : Condemned child u :=
      (system appPid).run_preserves
        (fun _ _ _ hBefore hNext =>
          Condemned.step hBefore hPid hNext)
        (condemned_of_readFlag hMain hUnset hStep) hRun
    rcases hLater with hDecide | hFatal
    · refine .inr ⟨hDecide, fun hOn => ?_⟩
      let v : State :=
        { u with
          main := .fatalShutdown (.exited child)
          fatalDuringWipe :=
            u.fatalDuringWipe || u.wipeStarted }
      refine ⟨v, ?_, rfl⟩
      simp [step, watchdogLoop, hOn, hDecide, isCompromise,
        hPid, v]
    · exact .inl hFatal
  onlyTheApp := by
    intro s result hReach hMain
    have hApp := (Watch.of_reachable hReach).raised result hMain
    cases result with
    | exited child => exact ⟨child, rfl, hApp⟩
    | noChild => exact hApp.elim
    | otherErr => exact hApp.elim

end Supervision

end Shutdown

end Guest

end CargoUnikernel
