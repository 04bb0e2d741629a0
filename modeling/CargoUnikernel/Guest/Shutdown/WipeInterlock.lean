import CargoUnikernel.Guest.Shutdown.Supervision
import Mathlib.Tactic.Common

/-
  The single-entry interlock of `kill_wipe_and_power_off`.

  An interlock is what the threads in the shared tail can
  see of each other: their points in it, the swapped flag,
  the deadline and what has been recorded. It is stated
  over any type of threads; the supervision model refines
  it by its two.

  Main declarations:
    * `Interlock`, `Interlock.Step`
    * `Interlock.Sound` and `Interlock.Sound.step`
    * `Interlock.Settled` and `Interlock.Settled.step`
    * `view` and `interlockStep_of_machineStep`
-/

------------------------------------------------------------
-- The Interlock
------------------------------------------------------------

namespace CargoUnikernel

namespace Guest

namespace Shutdown

namespace Supervision

/- The thread holds the interlock and has not powered off. -/
def WipePc.Owns : WipePc → Prop
| .swapStarted | .powerOff => False
| _ => True

/- The kill-and-wipe body, between arming and powering off. -/
def WipePc.InBody : WipePc → Prop
| .killAll | .waitForExits | .wipeState
| .finalMessage => True
| _ => False

/- The thread has nothing left to wipe. -/
def WipePc.Leaving : WipePc → Prop
| .finalMessage | .powerOff => True
| _ => False

/- Who is in the body has won the swap. -/
theorem WipePc.InBody.owns
    {pc : WipePc} (hBody : pc.InBody) : pc.Owns := by
  cases pc <;> trivial

/- Who passes on has won it as well. -/
theorem WipePc.Passes.owns
    {pc next : WipePc} (hPass : pc.Passes next) :
    pc.Owns := by
  cases hPass <;> trivial

/- What the threads in the shared tail can see. -/
structure Interlock (ι : Type) where
  tail : ι → Option WipePc
  wipeStarted : Bool
  deadline : Deadline
  poweredOff : Bool
  wipeFinished : Bool
  fatalDuringWipe : Bool

namespace Interlock

variable {ι : Type}
variable {v w : Interlock ι}

section Moves

variable [DecidableEq ι]

/- Move one thread to a point of the tail. -/
def goto
    (v : Interlock ι) (a : ι) (pc : WipePc) :
    Interlock ι :=
  { v with tail := Function.update v.tail a (some pc) }

/- A point after the move is the new one or an old one. -/
theorem tail_goto_cases
    {a b : ι} {pc q : WipePc}
    (hTail : (v.goto a pc).tail b = some q) :
    (b = a ∧ q = pc) ∨ (b ≠ a ∧ v.tail b = some q) := by
  by_cases hEq : b = a
  · subst hEq
    exact .inl ⟨rfl, by simpa [goto, eq_comm] using hTail⟩
  · exact .inr ⟨hEq, by simpa [goto, hEq] using hTail⟩

/- The thread that moves is where it moves to. -/
theorem tail_goto_self (a : ι) (pc : WipePc) :
    (v.goto a pc).tail a = some pc := by
  simp [goto]

theorem tail_goto_of_ne
    {a b : ι} (pc : WipePc) (hNe : b ≠ a) :
    (v.goto a pc).tail b = v.tail b := by
  simp [goto, hNe]

/- What a step does to the interlock. -/
inductive Step (v : Interlock ι) : Interlock ι → Prop
| idle : Step v v
| raise {raised : Bool} :
    (v.wipeStarted = true → raised = true) →
    (v.fatalDuringWipe = true → raised = true) →
      Step v { v with fatalDuringWipe := raised }
| enter {a : ι} :
    v.tail a = none → Step v (v.goto a .swapStarted)
| second {a : ι} :
    v.tail a = some .swapStarted → v.wipeStarted = true →
      Step v (v.goto a .powerOff)
| first {a : ι} :
    v.tail a = some .swapStarted → v.wipeStarted = false →
      Step v
        ({ v with wipeStarted := true }.goto
          a .armDeadline)
| armed {a : ι} :
    v.tail a = some .armDeadline →
      Step v
        ({ v with deadline := .sleeping }.goto a .killAll)
| unarmed {a : ι} :
    v.tail a = some .armDeadline →
      Step v (v.goto a .powerOff)
| wiped {a : ι} :
    v.tail a = some .wipeState →
      Step v
        ({ v with wipeFinished := true }.goto
          a .finalMessage)
| pass {a : ι} {pc next : WipePc} :
    v.tail a = some pc → pc.Passes next →
      Step v (v.goto a next)
| off {a : ι} :
    v.tail a = some .powerOff →
      Step v { v with poweredOff := true }
| elapse :
    v.deadline = .sleeping →
      Step v { v with deadline := .elapsed }
| deadlineOff :
    v.deadline = .elapsed →
      Step v { v with poweredOff := true }

end Moves

------------------------------------------------------------
-- Single Ownership
------------------------------------------------------------

/-
  The interlock works: whoever is past the swap finds the
  flag set, one thread at most owns the wipe, and its body
  runs under an armed deadline only.
-/
structure Sound (v : Interlock ι) : Prop where
  started :
    ∀ a pc, v.tail a = some pc → pc ≠ .swapStarted →
      v.wipeStarted = true
  owned :
    v.wipeStarted = true →
      ∃ a pc, v.tail a = some pc ∧ pc ≠ .swapStarted
  exclusive :
    ∀ a b p q, v.tail a = some p → v.tail b = some q →
      p.Owns → q.Owns → a = b
  armed :
    ∀ a pc, v.tail a = some pc → pc.InBody →
      v.deadline ≠ .absent
  unarmed :
    ∀ a, v.tail a = some .armDeadline →
      v.deadline = .absent
  fresh :
    v.wipeStarted = false →
      v.deadline = .absent ∧ v.wipeFinished = false
  finished :
    ∀ a, v.tail a = some .finalMessage →
      v.wipeFinished = true

/- Before any thread enters the tail. -/
theorem Sound.start
    (hTail : ∀ a, v.tail a = none)
    (hStarted : v.wipeStarted = false)
    (hDeadline : v.deadline = .absent)
    (hFinished : v.wipeFinished = false) :
    v.Sound where
  started := by simp [hTail]
  owned := by simp [hStarted]
  exclusive := by simp [hTail]
  armed := by simp [hTail]
  unarmed := by simp [hTail]
  fresh := fun _ => ⟨hDeadline, hFinished⟩
  finished := by simp [hTail]

/- No thread is past the swap while the flag is unset. -/
theorem Sound.swapStarted_of_fresh
    (hSound : v.Sound) (hFresh : v.wipeStarted = false)
    {a : ι} {pc : WipePc} (hTail : v.tail a = some pc) :
    pc = .swapStarted := by
  by_contra hPast
  have hSet := hSound.started a pc hTail hPast
  simp [hFresh] at hSet

variable [DecidableEq ι]

/-
  A thread moves and nothing else changes: enough that the
  point it moves to finds what it promises.
-/
theorem Sound.goto
    (hSound : v.Sound) {a : ι} {next : WipePc}
    (hStarted : next ≠ .swapStarted → v.wipeStarted = true)
    (hEnter : next = .swapStarted → v.tail a = none)
    (hOwns :
      next.Owns → ∃ pc, v.tail a = some pc ∧ pc.Owns)
    (hBody : next.InBody → v.deadline ≠ .absent)
    (hArm : next ≠ .armDeadline)
    (hFinished :
      next = .finalMessage → v.wipeFinished = true) :
    (v.goto a next).Sound where
  started := by
    intro b pc hTail hPast
    rcases tail_goto_cases hTail with
      ⟨-, rfl⟩ | ⟨-, hOld⟩
    · exact hStarted hPast
    · exact hSound.started b pc hOld hPast
  owned := by
    intro hSet
    rcases hSound.owned hSet with ⟨b, pc, hOld, hPast⟩
    by_cases hSwap : next = .swapStarted
    · have hNe : b ≠ a := by
        rintro rfl
        simp [hEnter hSwap] at hOld
      exact ⟨b, pc, by rwa [tail_goto_of_ne next hNe], hPast⟩
    · exact ⟨a, next, tail_goto_self a next, hSwap⟩
  exclusive := by
    intro b c p q hB hC hP hQ
    rcases tail_goto_cases hB with
      ⟨rfl, rfl⟩ | ⟨-, hOldB⟩
    · rcases hOwns hP with ⟨pc, hOldB, hPc⟩
      rcases tail_goto_cases hC with
        ⟨rfl, -⟩ | ⟨-, hOldC⟩
      · rfl
      · exact hSound.exclusive b c pc q hOldB hOldC hPc hQ
    · rcases tail_goto_cases hC with
        ⟨rfl, rfl⟩ | ⟨-, hOldC⟩
      · rcases hOwns hQ with ⟨pc, hOldC, hPc⟩
        exact hSound.exclusive b c p pc hOldB hOldC hP hPc
      · exact hSound.exclusive b c p q hOldB hOldC hP hQ
  armed := by
    intro b pc hTail hIn
    rcases tail_goto_cases hTail with
      ⟨-, rfl⟩ | ⟨-, hOld⟩
    · exact hBody hIn
    · exact hSound.armed b pc hOld hIn
  unarmed := by
    intro b hTail
    rcases tail_goto_cases hTail with
      ⟨-, hNext⟩ | ⟨-, hOld⟩
    · exact absurd hNext.symm hArm
    · exact hSound.unarmed b hOld
  fresh := hSound.fresh
  finished := by
    intro b hTail
    rcases tail_goto_cases hTail with
      ⟨-, hNext⟩ | ⟨-, hOld⟩
    · exact hFinished hNext.symm
    · exact hSound.finished b hOld

/- The first thread to swap becomes the owner. -/
theorem Sound.first
    (hSound : v.Sound) (a : ι)
    (hFresh : v.wipeStarted = false) :
    ({ v with wipeStarted := true }.goto
      a .armDeadline).Sound where
  started := fun _ _ _ _ => rfl
  owned := fun _ =>
    ⟨a, .armDeadline, tail_goto_self a .armDeadline, nofun⟩
  exclusive := by
    intro b c p q hB hC hP hQ
    rcases tail_goto_cases hB with
      ⟨rfl, -⟩ | ⟨-, hOldB⟩
    · rcases tail_goto_cases hC with
        ⟨rfl, -⟩ | ⟨-, hOldC⟩
      · rfl
      · have hSwap :=
          hSound.swapStarted_of_fresh hFresh hOldC
        exact absurd hQ (by simp [hSwap, WipePc.Owns])
    · have hSwap :=
        hSound.swapStarted_of_fresh hFresh hOldB
      exact absurd hP (by simp [hSwap, WipePc.Owns])
  armed := by
    intro b pc hTail hIn
    rcases tail_goto_cases hTail with
      ⟨-, rfl⟩ | ⟨-, hOld⟩
    · exact hIn.elim
    · exact hSound.armed b pc hOld hIn
  unarmed := fun _ _ => (hSound.fresh hFresh).1
  fresh := nofun
  finished := by
    intro b hTail
    rcases tail_goto_cases hTail with
      ⟨-, hNext⟩ | ⟨-, hOld⟩
    · cases hNext
    · exact hSound.finished b hOld

/- The owner arms the deadline and enters the body. -/
theorem Sound.arm
    (hSound : v.Sound) {a : ι}
    (hPc : v.tail a = some .armDeadline) :
    ({ v with deadline := .sleeping }.goto
      a .killAll).Sound where
  started := by
    intro b pc _ _
    exact hSound.started a _ hPc nofun
  owned := fun _ =>
    ⟨a, .killAll, tail_goto_self a .killAll, nofun⟩
  exclusive := by
    have hOnly :
        ∀ b q, v.tail b = some q → q.Owns → b = a :=
      fun b q hB hQ =>
        hSound.exclusive b a q _ hB hPc hQ trivial
    intro b c p q hB hC hP hQ
    have hA : b = a := by
      rcases tail_goto_cases hB with ⟨hEq, -⟩ | ⟨-, hOld⟩
      · exact hEq
      · exact hOnly b p hOld hP
    have hC : c = a := by
      rcases tail_goto_cases hC with ⟨hEq, -⟩ | ⟨-, hOld⟩
      · exact hEq
      · exact hOnly c q hOld hQ
    rw [hA, hC]
  armed := fun _ _ _ _ => nofun
  unarmed := by
    intro b hTail
    rcases tail_goto_cases hTail with
      ⟨-, hNext⟩ | ⟨hNe, hOld⟩
    · cases hNext
    · exact absurd
        (hSound.exclusive b a _ _ hOld hPc trivial trivial)
        hNe
  fresh := by
    intro hFresh
    have hSet := hSound.started a _ hPc nofun
    exact absurd (hSet.symm.trans hFresh) nofun
  finished := by
    intro b hTail
    rcases tail_goto_cases hTail with
      ⟨-, hNext⟩ | ⟨-, hOld⟩
    · cases hNext
    · exact hSound.finished b hOld

/- Every step keeps the interlock sound. -/
theorem Sound.step
    (hSound : v.Sound) (hStep : v.Step w) : w.Sound := by
  cases hStep with
  | idle => exact hSound
  | raise => exact { hSound with }
  | enter hNone =>
      exact hSound.goto (absurd rfl) (fun _ => hNone)
        False.elim False.elim nofun nofun
  | second _ hSet =>
      exact hSound.goto (fun _ => hSet) nofun
        False.elim False.elim nofun nofun
  | first _ hFresh => exact hSound.first _ hFresh
  | armed hPc => exact hSound.arm hPc
  | @unarmed a hPc =>
      have hSet := hSound.started a _ hPc nofun
      exact hSound.goto (fun _ => hSet) nofun
        False.elim False.elim nofun nofun
  | @wiped a hPc =>
      have hSet := hSound.started a _ hPc nofun
      have hArmed := hSound.armed a _ hPc trivial
      have hWiped :
          Sound { v with wipeFinished := true } :=
        { hSound with
          fresh := fun hFresh => by
            simp [hSet] at hFresh
          finished := fun _ _ => rfl }
      exact hWiped.goto (fun _ => hSet) nofun
        (fun _ => ⟨_, hPc, trivial⟩) (fun _ => hArmed)
        nofun (fun _ => rfl)
  | @pass a pc next hPc hPass =>
      have hSet : v.wipeStarted = true :=
        hSound.started a _ hPc (by cases hPass <;> nofun)
      have hArmed : v.deadline ≠ .absent :=
        hSound.armed a _ hPc (by cases hPass <;> trivial)
      exact hSound.goto (fun _ => hSet)
        (by cases hPass <;> nofun)
        (fun _ => ⟨pc, hPc, hPass.owns⟩)
        (fun _ => hArmed)
        (by cases hPass <;> nofun)
        (by cases hPass <;> nofun)
  | off => exact { hSound with }
  | elapse hSleeping =>
      exact
        { hSound with
          armed := fun _ _ _ _ => nofun
          unarmed := fun a hPc => by
            have hAbsent := hSound.unarmed a hPc
            simp [hSleeping] at hAbsent
          fresh := fun hFresh => by
            have hAbsent := (hSound.fresh hFresh).1
            simp [hSleeping] at hAbsent }
  | deadlineOff => exact { hSound with }

------------------------------------------------------------
-- One Owner for a Whole Run
------------------------------------------------------------

/- The wipe belongs to `a`: no other thread owns it. -/
def OwnedBy (v : Interlock ι) (a : ι) : Prop :=
  v.wipeStarted = true ∧
    ∀ b pc, v.tail b = some pc → pc.Owns → b = a

omit [DecidableEq ι] in

/- There is one owner, and it is this thread. -/
theorem Sound.ownedBy
    (hSound : v.Sound) {a : ι} {pc : WipePc}
    (hTail : v.tail a = some pc) (hOwns : pc.Owns) :
    v.OwnedBy a :=
  ⟨hSound.started a pc hTail
      (by rintro rfl; exact hOwns),
    fun b q hB hQ =>
      hSound.exclusive b a q pc hB hTail hQ hOwns⟩

/- A move keeps the owner unless it takes the interlock. -/
theorem OwnedBy.goto
    {a b : ι} {next : WipePc}
    (hOwned : v.OwnedBy a)
    (hOwns :
      next.Owns → ∃ pc, v.tail b = some pc ∧ pc.Owns) :
    (v.goto b next).OwnedBy a := by
  refine ⟨hOwned.1, fun c q hTail hQ => ?_⟩
  rcases tail_goto_cases hTail with ⟨rfl, rfl⟩ | ⟨-, hOld⟩
  · rcases hOwns hQ with ⟨pc, hOld, hPc⟩
    exact hOwned.2 c pc hOld hPc
  · exact hOwned.2 c q hOld hQ

/- The owner of the wipe never changes. -/
theorem OwnedBy.step
    {a : ι}
    (hOwned : v.OwnedBy a) (hStep : v.Step w) :
    w.OwnedBy a := by
  cases hStep with
  | idle => exact hOwned
  | raise => exact hOwned
  | enter => exact hOwned.goto False.elim
  | second => exact hOwned.goto False.elim
  | first _ hFresh =>
      have hSet := hOwned.1
      simp [hFresh] at hSet
  | armed hPc =>
      have hArmed :
          OwnedBy { v with deadline := .sleeping } a :=
        hOwned
      exact hArmed.goto fun _ => ⟨_, hPc, trivial⟩
  | unarmed => exact hOwned.goto False.elim
  | wiped hPc =>
      have hWiped :
          OwnedBy { v with wipeFinished := true } a :=
        hOwned
      exact hWiped.goto fun _ => ⟨_, hPc, trivial⟩
  | pass hPc hPass =>
      exact hOwned.goto fun _ => ⟨_, hPc, hPass.owns⟩
  | off => exact hOwned
  | elapse => exact hOwned
  | deadlineOff => exact hOwned

------------------------------------------------------------
-- What Excuses a Power-Off
------------------------------------------------------------

/-
  Nothing is left that a power-off could cut short: the
  wipe has ended, its deadline has passed, a fatal error
  was raised since it began, or no deadline was armed for
  it and none will be.
-/
def Settled (v : Interlock ι) : Prop :=
  v.wipeFinished = true ∨
    v.deadline = .elapsed ∨
    v.fatalDuringWipe = true ∨
    (v.wipeStarted = true ∧ v.deadline = .absent ∧
      ∀ a, v.tail a ≠ some .armDeadline)

/- A move other than to the arming keeps what is settled. -/
theorem Settled.goto
    {a : ι} {next : WipePc}
    (hSettled : v.Settled) (hArm : next ≠ .armDeadline) :
    (v.goto a next).Settled := by
  rcases hSettled with
    hFinished | hElapsed | hFatal | ⟨hSet, hAbsent, hNone⟩
  · exact .inl hFinished
  · exact .inr (.inl hElapsed)
  · exact .inr (.inr (.inl hFatal))
  · refine .inr (.inr (.inr ⟨hSet, hAbsent, ?_⟩))
    intro b hTail
    rcases tail_goto_cases hTail with
      ⟨-, hNext⟩ | ⟨-, hOld⟩
    · exact hArm hNext.symm
    · exact hNone b hOld

/- What is settled stays settled. -/
theorem Settled.step
    (hSettled : v.Settled) (hSound : v.Sound)
    (hStep : v.Step w) :
    w.Settled := by
  cases hStep with
  | idle => exact hSettled
  | raise _ hKeep =>
      rcases hSettled with
        hFinished | hElapsed | hFatal | hAbandoned
      · exact .inl hFinished
      · exact .inr (.inl hElapsed)
      · exact .inr (.inr (.inl (hKeep hFatal)))
      · exact .inr (.inr (.inr hAbandoned))
  | enter => exact hSettled.goto nofun
  | second => exact hSettled.goto nofun
  | @first a _ hFresh =>
      -- Only a recorded fatal error settles an interlock
      -- that no thread has taken.
      rcases hSound.fresh hFresh with ⟨hAbsent, hUnfinished⟩
      rcases hSettled with
        hFinished | hElapsed | hFatal | ⟨hSet, -, -⟩
      · simp [hUnfinished] at hFinished
      · simp [hAbsent] at hElapsed
      · exact .inr (.inr (.inl hFatal))
      · simp [hFresh] at hSet
  | @armed a hPc =>
      have hAbsent := hSound.unarmed a hPc
      rcases hSettled with
        hFinished | hElapsed | hFatal | ⟨-, -, hNone⟩
      · exact .inl hFinished
      · simp [hAbsent] at hElapsed
      · exact .inr (.inr (.inl hFatal))
      · exact absurd hPc (hNone a)
  | unarmed => exact hSettled.goto nofun
  | @wiped a hPc => exact .inl rfl
  | pass _ hPass =>
      exact hSettled.goto (by cases hPass <;> nofun)
  | off => exact hSettled
  | elapse => exact .inr (.inl rfl)
  | deadlineOff => exact hSettled

/- A failed arming leaves nothing to cut short. -/
theorem Sound.settled_of_unarmed
    (hSound : v.Sound) {a : ι}
    (hPc : v.tail a = some .armDeadline) :
    (v.goto a .powerOff).Settled := by
  refine .inr (.inr (.inr
    ⟨hSound.started a _ hPc nofun,
      hSound.unarmed a hPc, ?_⟩))
  intro b hTail
  rcases tail_goto_cases hTail with
    ⟨-, hNext⟩ | ⟨hNe, hOld⟩
  · cases hNext
  · exact hNe
      (hSound.exclusive b a _ _ hOld hPc trivial trivial)

/- A finished wipe has a thread that is leaving it. -/
def FinishedBy (v : Interlock ι) : Prop :=
  v.wipeFinished = true →
    ∃ a pc, v.tail a = some pc ∧ pc.Leaving

/- A thread that leaves has finished the wipe. -/
theorem FinishedBy.goto
    {a : ι} {next : WipePc}
    (hBy : v.FinishedBy)
    (hLeaving :
      next.Leaving ∨
        ∀ pc, v.tail a = some pc → ¬ pc.Leaving) :
    (v.goto a next).FinishedBy := by
  intro hFinished
  rcases hLeaving with hNext | hStays
  · exact ⟨a, next, tail_goto_self a next, hNext⟩
  · rcases hBy hFinished with ⟨b, pc, hOld, hPc⟩
    have hNe : b ≠ a := by
      rintro rfl
      exact hStays pc hOld hPc
    exact ⟨b, pc, by rwa [tail_goto_of_ne next hNe], hPc⟩

/- By cases on what the thread does. -/
theorem FinishedBy.step
    (hBy : v.FinishedBy) (hStep : v.Step w) :
    w.FinishedBy := by
  have hOld :
      ∀ {a : ι} {old : WipePc}, v.tail a = some old →
        ¬ old.Leaving → ∀ pc, v.tail a = some pc →
          ¬ pc.Leaving := by
    intro a old hPc hNot pc hTail
    rw [hPc] at hTail
    cases hTail
    exact hNot
  cases hStep with
  | idle => exact hBy
  | raise => exact hBy
  | enter hNone =>
      exact hBy.goto (.inr (by simp [hNone]))
  | second => exact hBy.goto (.inl trivial)
  | first hPc =>
      have hTaken :
          FinishedBy { v with wipeStarted := true } := hBy
      exact hTaken.goto (.inr (hOld hPc id))
  | armed hPc =>
      have hArmed :
          FinishedBy { v with deadline := .sleeping } := hBy
      exact hArmed.goto (.inr (hOld hPc id))
  | unarmed => exact hBy.goto (.inl trivial)
  | @wiped a _ =>
      exact fun _ =>
        ⟨a, .finalMessage, tail_goto_self a _, trivial⟩
  | pass hPc hPass =>
      cases hPass with
      | killed => exact hBy.goto (.inr (hOld hPc id))
      | settled => exact hBy.goto (.inr (hOld hPc id))
      | logged => exact hBy.goto (.inl trivial)
  | off => exact hBy
  | elapse => exact hBy
  | deadlineOff => exact hBy

end Interlock

------------------------------------------------------------
-- The Two Threads
------------------------------------------------------------

/- The threads that may enter the tail. -/
inductive Thread
| main
| watcher
deriving DecidableEq

/- The point of a thread, once it is in the tail. -/
def MainPc.tail : MainPc → Option WipePc
| .killWipe pc => some pc
| _ => none

/- Where the watcher is in its wipe, if it is in one. -/
def WatcherPc.tail : WatcherPc → Option WipePc
| .killWipe pc => some pc
| _ => none

/- Where a thread is in its wipe, if it is in one. -/
def State.tail (s : State) : Thread → Option WipePc
| .main => s.main.tail
| .watcher => s.watcher.tail

/- The interlock a state of the supervision shows. -/
def view (s : State) : Interlock Thread where
  tail := s.tail
  wipeStarted := s.wipeStarted
  deadline := s.deadline
  poweredOff := s.poweredOff
  wipeFinished := s.wipeFinished
  fatalDuringWipe := s.fatalDuringWipe

/- A move of the main thread is one of the interlock. -/
theorem view_main (s : State) (pc : WipePc) :
    view { s with main := .killWipe pc } =
      (view s).goto .main pc := by
  simp only [view, Interlock.goto, Interlock.mk.injEq,
    and_true]
  funext thread
  cases thread <;> rfl

/- So is a move of the watcher. -/
theorem view_watcher (s : State) (pc : WipePc) :
    view { s with watcher := .killWipe pc } =
      (view s).goto .watcher pc := by
  simp only [view, Interlock.goto, Interlock.mk.injEq,
    and_true]
  funext thread
  cases thread <;> rfl

/- A move outside the tail does not show. -/
theorem view_main_of_tail
    (s : State) {pc : MainPc}
    (hTail : pc.tail = s.main.tail) :
    view { s with main := pc } = view s := by
  simp only [view, Interlock.mk.injEq, and_true]
  funext thread
  cases thread
  · exact hTail
  · rfl

/- A move outside the wipe is none. -/
theorem view_watcher_of_tail
    (s : State) {pc : WatcherPc}
    (hTail : pc.tail = s.watcher.tail) :
    view { s with watcher := pc } = view s := by
  simp only [view, Interlock.mk.injEq, and_true]
  funext thread
  cases thread
  · rfl
  · exact hTail

/- A thread that stays where it is changes nothing. -/
theorem Interlock.goto_eq_self
    {ι : Type} [DecidableEq ι]
    {v : Interlock ι} {a : ι} {pc : WipePc}
    (hTail : v.tail a = some pc) :
    v.goto a pc = v := by
  simp [Interlock.goto, ← hTail]

/- A step of the tail is a step of the interlock. -/
theorem interlockStep_of_wipeStep
    {s t : State} {a : Thread} {pc next : WipePc}
    (hTail : (view s).tail a = some pc)
    (hStep : WipeStep s pc t next) :
    (view s).Step ((view t).goto a next) := by
  cases hStep with
  | second hSet => exact .second hTail hSet
  | first hFresh => exact .first hTail hFresh
  | armed => exact .armed hTail
  | unarmed => exact .unarmed hTail
  | reaped =>
      have hSame := Interlock.goto_eq_self hTail
      exact hSame.symm ▸ .idle
  | wiped => exact .wiped hTail
  | off =>
      have hSame :
          Interlock.goto
              { view s with poweredOff := true } a .powerOff =
            { view s with poweredOff := true } :=
        Interlock.goto_eq_self hTail
      exact hSame.symm ▸ .off hTail
  | pass hPass => exact .pass hTail hPass

/-
  A step of the main thread moves it within the tail, into
  it, or outside it; there it may record a fatal error.
-/
theorem interlockStep_of_mainStep
    {appPid : Nat} {s t : State}
    (hStep : MainStep appPid s t) :
    (view s).Step (view t) := by
  have hOutside :
      ∀ u pc, view u = view s → s.main.tail = none →
        pc.tail = none → u.main = s.main →
          (view s).Step (view { u with main := pc }) := by
    intro u pc hView hTail hNone hMain
    have hSame : view { u with main := pc } = view u :=
      view_main_of_tail u (by rw [hNone, hMain, hTail])
    rw [hSame, hView]
    exact .idle
  cases hStep with
  | @waited result rest hMain _ =>
      exact hOutside { s with children := rest } _ rfl
        (by rw [hMain]; rfl) rfl rfl
  | readFlag hMain =>
      exact hOutside s _ rfl (by rw [hMain]; rfl) rfl rfl
  | @compromise result shuttingDown hMain _ =>
      let raised := s.fatalDuringWipe || s.wipeStarted
      have hSame :
          view { s with
            fatalDuringWipe := raised
            main := .fatalShutdown result } =
            view { s with fatalDuringWipe := raised } :=
        view_main_of_tail { s with fatalDuringWipe := raised }
          (by rw [hMain]; rfl)
      show (view s).Step (view _)
      rw [hSame]
      refine .raise (fun hSet => ?_) (fun hSet => ?_)
      · have hSet : s.wipeStarted = true := hSet
        simp [raised, hSet]
      · have hSet : s.fatalDuringWipe = true := hSet
        simp [raised, hSet]
  | @ignored result _ hMain _ =>
      exact hOutside s _ rfl (by rw [hMain]; rfl)
        (by cases result <;> rfl) rfl
  | retried hMain =>
      exact hOutside s _ rfl (by rw [hMain]; rfl) rfl rfl
  | fatal hMain =>
      have hNone : (view s).tail .main = none := by
        show s.main.tail = none
        rw [hMain]
        rfl
      exact
        (view_main { s with shutdownInProgress := true }
          .swapStarted) ▸ .enter hNone
  | @killWipe u pc next hMain hTail =>
      have hPc : (view s).tail .main = some pc := by
        show s.main.tail = some pc
        rw [hMain]
        rfl
      rw [view_main u next]
      exact interlockStep_of_wipeStep hPc hTail

/- The same for the watcher. -/
theorem interlockStep_of_watcherStep
    {s t : State} (hStep : WatcherStep s t) :
    (view s).Step (view t) := by
  have hOutside :
      ∀ u pc, view u = view s → s.watcher.tail = none →
        pc.tail = none → u.watcher = s.watcher →
          (view s).Step (view { u with watcher := pc }) := by
    intro u pc hView hTail hNone hWatcher
    have hSame : view { u with watcher := pc } = view u :=
      view_watcher_of_tail u
        (by rw [hNone, hWatcher, hTail])
    rw [hSame, hView]
    exact .idle
  cases hStep with
  | triggered hWatcher =>
      exact hOutside s _ rfl (by rw [hWatcher]; rfl) rfl rfl
  | setFlag hWatcher =>
      exact hOutside { s with shutdownInProgress := true }
        _ rfl (by rw [hWatcher]; rfl) rfl rfl
  | signalled hWatcher =>
      exact hOutside s _ rfl (by rw [hWatcher]; rfl) rfl rfl
  | alive => exact .idle
  | graceOver hWatcher =>
      have hNone : (view s).tail .watcher = none := by
        show s.watcher.tail = none
        rw [hWatcher]
        rfl
      exact (view_watcher s .swapStarted) ▸ .enter hNone
  | @killWipe u pc next hWatcher hTail =>
      have hPc : (view s).tail .watcher = some pc := by
        show s.watcher.tail = some pc
        rw [hWatcher]
        rfl
      rw [view_watcher u next]
      exact interlockStep_of_wipeStep hPc hTail

/- Every step of the machine is one of the interlock. -/
theorem interlockStep_of_step
    {appPid : Nat} {s t : State} {event : Event}
    (hStep : step appPid s event = some t) :
    (view s).Step (view t) := by
  cases (step_cases hStep).2 with
  | exit => exact .idle
  | orphan => exact .idle
  | main hMain => exact interlockStep_of_mainStep hMain
  | watcher hWatcher =>
      exact interlockStep_of_watcherStep hWatcher
  | elapse hDeadline => exact .elapse hDeadline
  | deadlineOff hDeadline => exact .deadlineOff hDeadline

/- The interlock is sound in every reachable state. -/
theorem sound_of_reachable
    {appPid : Nat} {s : State}
    (hReach : (system appPid).Reachable s) :
    (view s).Sound := by
  refine hReach.invariant (P := fun s => (view s).Sound)
    (fun s hStart => ?_)
    (fun s event t hSound _ hStep => ?_)
  · cases hStart
    exact .start (fun thread => by cases thread <;> rfl)
      rfl rfl rfl
  · exact Interlock.Sound.step hSound
      (interlockStep_of_step hStep)

end Supervision

end Shutdown

end Guest

end CargoUnikernel
