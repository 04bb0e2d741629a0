import Mathlib.Data.List.Basic
import Mathlib.Logic.Relation

/-
  Lists of parts that are joined with nothing between them.

  Once they are joined, where a part ends cannot be seen. So
  the parts of one list give what those of another give
  exactly if the one arises from the other by moving ends:
  cutting a part in two, joining two neighbours, and putting
  in or leaving out a part that has nothing in it.

  Main declarations:
    * `Cut`, `Recut`
    * `flatten_eq_iff_recut`
-/

------------------------------------------------------------
-- Moving the Ends of Parts
------------------------------------------------------------

namespace Cuts

variable {α : Type}

/- One more end among the parts. -/
inductive Cut : List (List α) → List (List α) → Prop
| inside (before : List (List α)) (left right : List α)
    (after : List (List α)) :
    Cut (before ++ (left ++ right) :: after)
      (before ++ left :: right :: after)
| empty (before after : List (List α)) :
    Cut (before ++ after) (before ++ [] :: after)

/- Some ends put in and others left out, in any order. -/
def Recut : List (List α) → List (List α) → Prop :=
  Relation.EqvGen Cut

variable {parts others : List (List α)}

theorem Cut.flatten_eq (hCut : Cut parts others) :
    parts.flatten = others.flatten := by
  cases hCut with
  | inside before left right after => simp
  | empty before after => simp

/- A part that stands before both changes nothing. -/
theorem Cut.cons (part : List α) (hCut : Cut parts others) :
    Cut (part :: parts) (part :: others) := by
  cases hCut with
  | inside before left right after =>
      exact .inside (part :: before) left right after
  | empty before after => exact .empty (part :: before) after

theorem Recut.cons
    (part : List α) (hRecut : Recut parts others) :
    Recut (part :: parts) (part :: others) := by
  induction hRecut with
  | rel _ _ hCut => exact .rel _ _ (hCut.cons part)
  | refl => exact .refl _
  | symm _ _ _ ih => exact .symm _ _ ih
  | trans _ _ _ _ _ ihFirst ihSecond =>
      exact .trans _ _ _ ihFirst ihSecond

/- All parts can be joined into one. -/
theorem recut_flatten (parts : List (List α)) :
    Recut parts [parts.flatten] := by
  induction parts with
  | nil => exact .rel _ _ (.empty [] [])
  | cons part parts ih =>
      have hTwo := Recut.cons part ih
      have hOne :
          Recut [(part :: parts).flatten]
            [part, parts.flatten] :=
        .rel _ _ (.inside [] part parts.flatten [])
      exact .trans _ _ _ hTwo (.symm _ _ hOne)

/- What is joined is the same where only ends are moved. -/
theorem flatten_eq_iff_recut :
    parts.flatten = others.flatten ↔ Recut parts others := by
  constructor
  · intro hSame
    have hOthers := recut_flatten others
    rw [← hSame] at hOthers
    exact .trans _ _ _ (recut_flatten parts)
      (.symm _ _ hOthers)
  · intro hRecut
    induction hRecut with
    | rel _ _ hCut => exact hCut.flatten_eq
    | refl => rfl
    | symm _ _ _ ih => exact ih.symm
    | trans _ _ _ _ _ ihFirst ihSecond =>
        exact ihFirst.trans ihSecond

end Cuts
