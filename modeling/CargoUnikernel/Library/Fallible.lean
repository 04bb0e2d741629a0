import Mathlib.Data.List.Forall2
import Mathlib.Tactic.Common

/-
  Computations that may fail, one step after another.

  A step that checks fails with the error it names. A run of
  steps succeeds when every step does.

  Main declarations:
    * `reject`, `reject_eq_ok_iff`
    * `bind_eq_ok_iff`, `forM_eq_ok_iff`, `mapM_eq_ok_iff`
    * `exists_item_of_mapM`, `exists_result_of_mapM`
-/

------------------------------------------------------------
-- Checks
------------------------------------------------------------

namespace Fallible

variable {ε α β : Type}

/- Fail where the condition holds. -/
def reject
    (bad : Prop) [Decidable bad] (error : ε) :
    Except ε Unit :=
  if bad then .error error else .ok ()

@[simp] theorem reject_eq_ok_iff
    (bad : Prop) [Decidable bad] (error : ε) :
    reject bad error = .ok () ↔ ¬ bad := by
  unfold reject
  by_cases hBad : bad
  · simp [hBad]
  · simp [hBad]

------------------------------------------------------------
-- Runs of Steps
------------------------------------------------------------

/- A step that succeeded is followed by the next. -/
@[simp] theorem ok_bind
    (a : α) (next : α → Except ε β) :
    (Except.ok a >>= next) = next a := rfl

@[simp] theorem error_bind
    (error : ε) (next : α → Except ε β) :
    (Except.error error >>= next) = .error error := rfl

/- Both steps succeed, the second on the first's result. -/
theorem bind_eq_ok_iff
    (step : Except ε α) (next : α → Except ε β) (b : β) :
    (step >>= next) = .ok b ↔
      ∃ a, step = .ok a ∧ next a = .ok b := by
  cases step with
  | error error => simp [bind, Except.bind]
  | ok a => simp [bind, Except.bind]

/- The same for a step that returns nothing. -/
@[simp] theorem unit_bind_eq_ok_iff
    (step : Except ε Unit) (next : Unit → Except ε β)
    (b : β) :
    (step >>= next) = .ok b ↔
      step = .ok () ∧ next () = .ok b := by
  rw [bind_eq_ok_iff]
  constructor
  · rintro ⟨⟨⟩, hStep, hNext⟩
    exact ⟨hStep, hNext⟩
  · intro hBoth
    exact ⟨(), hBoth⟩

@[simp] theorem forM_eq_ok_iff
    (items : List α) (step : α → Except ε Unit) :
    forM items step = .ok () ↔
      ∀ item ∈ items, step item = .ok () := by
  induction items with
  | nil => simp [pure, Except.pure]
  | cons item items ih =>
      rw [List.forM_cons, unit_bind_eq_ok_iff, ih]
      simp

/- Each item's result, in the order of the items. -/
theorem mapM_eq_ok_iff
    (step : α → Except ε β) (items : List α)
    (results : List β) :
    items.mapM step = .ok results ↔
      List.Forall₂ (fun item result => step item = .ok result)
        items results := by
  induction items generalizing results with
  | nil => simp [pure, Except.pure, eq_comm]
  | cons item items ih =>
      rw [List.mapM_cons, bind_eq_ok_iff,
        List.forall₂_cons_left_iff]
      constructor
      · rintro ⟨result, hStep, hRest⟩
        rw [bind_eq_ok_iff] at hRest
        rcases hRest with ⟨rest, hRest, hResults⟩
        cases hResults
        exact ⟨result, rest, hStep, (ih rest).1 hRest, rfl⟩
      · rintro ⟨result, rest, hStep, hRest, rfl⟩
        refine ⟨result, hStep, ?_⟩
        rw [bind_eq_ok_iff]
        exact ⟨rest, (ih rest).2 hRest, rfl⟩

/- Every result is that of an item, -/
theorem exists_item_of_mapM
    {step : α → Except ε β} {items : List α}
    {results : List β}
    (hRun : items.mapM step = .ok results)
    {result : β} (hMem : result ∈ results) :
    ∃ item ∈ items, step item = .ok result := by
  rw [mapM_eq_ok_iff] at hRun
  induction hRun with
  | nil => exact absurd hMem List.not_mem_nil
  | @cons item _ items _ hStep _ ih =>
      rcases List.mem_cons.1 hMem with rfl | hRest
      · exact ⟨item, List.mem_cons_self, hStep⟩
      · rcases ih hRest with ⟨other, hOther, hResult⟩
        exact ⟨other, List.mem_cons_of_mem item hOther,
          hResult⟩

/- and every item has a result. -/
theorem exists_result_of_mapM
    {step : α → Except ε β} {items : List α}
    {results : List β}
    (hRun : items.mapM step = .ok results)
    {item : α} (hMem : item ∈ items) :
    ∃ result, step item = .ok result := by
  rw [mapM_eq_ok_iff] at hRun
  induction hRun with
  | nil => exact absurd hMem List.not_mem_nil
  | @cons item result _ _ hStep _ ih =>
      rcases List.mem_cons.1 hMem with rfl | hRest
      · exact ⟨result, hStep⟩
      · exact ih hRest

/- A result that is there, without the reason if it is not. -/
theorem toOption_eq_some_iff
    {ε α : Type} {step : Except ε α} {a : α} :
    step.toOption = some a ↔ step = .ok a := by
  cases step with
  | error error => simp [Except.toOption]
  | ok b => simp [Except.toOption]

end Fallible
