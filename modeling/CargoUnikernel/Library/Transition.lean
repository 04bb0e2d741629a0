import Mathlib.Tactic.Common

/-
  Guarded transition systems and their invariants.

  A system is a set of initial states and a step function
  that answers `none` where an event is not enabled, so the
  same definition replays a concrete run and carries the
  induction over all of them. `ReachableUnder` restricts
  the steps of a run by a condition on the state before the
  step and the event taken.

  Main declarations:
    * `System`, `System.run`
    * `System.ReachableUnder` and `System.Reachable`
    * `System.ReachableUnder.invariant`
    * `System.run_preserves`
-/

------------------------------------------------------------
-- Systems and Runs
------------------------------------------------------------

namespace Transition

/- Initial states and a guarded, executable step. -/
structure System (σ ε : Type) where
  init : σ → Prop
  step : σ → ε → Option σ

namespace System

variable {σ ε : Type}
variable (sys : System σ ε)

/- Replay a list of events, stopping at a disabled one. -/
def run (s : σ) : List ε → Option σ
| [] => some s
| e :: es => (sys.step s e).bind fun t => run t es

@[simp] theorem run_nil (s : σ) :
    sys.run s [] = some s := rfl

theorem run_cons (s : σ) (e : ε) (es : List ε) :
    sys.run s (e :: es) =
      (sys.step s e).bind fun t => sys.run t es := rfl

/- A nonempty replay is a first step and the rest. -/
theorem run_cons_eq_some_iff
    {s u : σ} {e : ε} {es : List ε} :
    sys.run s (e :: es) = some u ↔
      ∃ t, sys.step s e = some t ∧
        sys.run t es = some u := by
  simp [run_cons, Option.bind_eq_some_iff]

/- Replaying a concatenation replays its parts in turn. -/
theorem run_append (s : σ) (es fs : List ε) :
    sys.run s (es ++ fs) =
      (sys.run s es).bind fun t => sys.run t fs := by
  induction es generalizing s with
  | nil => rfl
  | cons e es ih =>
      rw [List.cons_append, run_cons, run_cons,
        Option.bind_assoc]
      congr 1
      funext t
      exact ih t

/- What every step preserves, every replay preserves. -/
theorem run_preserves
    {P : σ → Prop}
    (hStep :
      ∀ s e t, P s → sys.step s e = some t → P t)
    {s u : σ} {es : List ε}
    (hStart : P s)
    (hRun : sys.run s es = some u) :
    P u := by
  induction es generalizing s with
  | nil =>
      cases hRun
      exact hStart
  | cons e es ih =>
      rcases sys.run_cons_eq_some_iff.mp hRun with
        ⟨t, hFirst, hRest⟩
      exact ih (hStep s e t hStart hFirst) hRest

------------------------------------------------------------
-- Reachability
------------------------------------------------------------

/- States reached by steps that each meet a condition. -/
inductive ReachableUnder
    (ok : σ → ε → Prop) : σ → Prop
| start {s : σ} :
    sys.init s → ReachableUnder ok s
| next {s t : σ} {e : ε} :
    ReachableUnder ok s → ok s e →
      sys.step s e = some t → ReachableUnder ok t

/- States reached by any steps. -/
abbrev Reachable : σ → Prop :=
  sys.ReachableUnder fun _ _ => True

variable {sys}

/-
  A property of the initial states that every permitted
  step preserves holds of every state so reached.
-/
theorem ReachableUnder.invariant
    {ok : σ → ε → Prop} {P : σ → Prop}
    (hInit : ∀ s, sys.init s → P s)
    (hStep :
      ∀ s e t, P s → ok s e →
        sys.step s e = some t → P t)
    {s : σ}
    (hReach : sys.ReachableUnder ok s) :
    P s := by
  induction hReach with
  | start hStart => exact hInit _ hStart
  | next _ hOk hNext ih => exact hStep _ _ _ ih hOk hNext

/- Dropping the condition on steps keeps reachability. -/
theorem ReachableUnder.reachable
    {ok : σ → ε → Prop} {s : σ}
    (hReach : sys.ReachableUnder ok s) :
    sys.Reachable s := by
  induction hReach with
  | start hStart => exact .start hStart
  | next _ _ hNext ih => exact .next ih trivial hNext

/-
  A replay of events that meet the condition wherever some
  property holds, which they keep.
-/
theorem ReachableUnder.run_of_invariant
    {ok : σ → ε → Prop} {P : σ → Prop}
    {s u : σ} {es : List ε}
    (hStep :
      ∀ e ∈ es, ∀ s t, P s → sys.step s e = some t →
        ok s e ∧ P t)
    (hStart : P s)
    (hReach : sys.ReachableUnder ok s)
    (hRun : sys.run s es = some u) :
    sys.ReachableUnder ok u ∧ P u := by
  induction es generalizing s with
  | nil =>
      cases hRun
      exact ⟨hReach, hStart⟩
  | cons e es ih =>
      rcases sys.run_cons_eq_some_iff.mp hRun with
        ⟨t, hFirst, hRest⟩
      rcases hStep e List.mem_cons_self s t hStart hFirst with
        ⟨hOk, hNext⟩
      apply ih _ hNext (.next hReach hOk hFirst) hRest
      intro f hMem
      exact hStep f (List.mem_cons_of_mem e hMem)

/- A replay of events that meet the condition in any state. -/
theorem ReachableUnder.run_of_mem
    {ok : σ → ε → Prop} {s u : σ} {es : List ε}
    (hOk : ∀ e ∈ es, ∀ s, ok s e)
    (hReach : sys.ReachableUnder ok s)
    (hRun : sys.run s es = some u) :
    sys.ReachableUnder ok u :=
  (hReach.run_of_invariant
    (fun e hMem s _ _ _ => ⟨hOk e hMem s, trivial⟩) trivial
    hRun).1

/- A replay by steps that all meet the condition anyway. -/
theorem ReachableUnder.run_of_forall
    {ok : σ → ε → Prop} (hOk : ∀ s e, ok s e)
    {s u : σ} {es : List ε}
    (hReach : sys.ReachableUnder ok s)
    (hRun : sys.run s es = some u) :
    sys.ReachableUnder ok u :=
  hReach.run_of_mem (fun e _ s => hOk s e) hRun

/- A replay from a reachable state stays reachable. -/
theorem Reachable.run
    {s u : σ} {es : List ε}
    (hReach : sys.Reachable s)
    (hRun : sys.run s es = some u) :
    sys.Reachable u :=
  hReach.run_of_forall (fun _ _ => trivial) hRun

end System

end Transition
