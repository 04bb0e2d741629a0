import Mathlib.Data.List.Basic
import Mathlib.Data.List.Nodup
import Mathlib.Tactic.Common

/-
  Tables in which the last write to a key counts.

  A table keeps the keys in the order of their first writes
  and the value of each. What it holds after a list of
  writes is said apart from it, by the position of the last
  write to a key.

  Main declarations:
    * `LastWrite`, `lastWritten`
    * `WriteTable`, `WriteTable.write`, `WriteTable.writeAll`
    * `WriteTable.value_writeAll_iff`
    * `WriteTable.mem_entries_iff`
-/

------------------------------------------------------------
-- The Last Write to a Key
------------------------------------------------------------

section

variable {κ ν : Type}

/- A write to the key that no later one overrides. -/
inductive LastWrite
    (key : κ) (value : ν) : List (κ × ν) → Prop
| here {later : List (κ × ν)} :
    (∀ write ∈ later, write.1 ≠ key) →
      LastWrite key value ((key, value) :: later)
| there {first : κ × ν} {later : List (κ × ν)} :
    LastWrite key value later →
      LastWrite key value (first :: later)

theorem LastWrite.append_right
    {key : κ} {value : ν} {later : List (κ × ν)}
    (before : List (κ × ν))
    (hLast : LastWrite key value later) :
    LastWrite key value (before ++ later) := by
  induction before with
  | nil => exact hLast
  | cons first before ih => exact .there ih

theorem LastWrite.append_left
    {key : κ} {value : ν} {before later : List (κ × ν)}
    (hLast : LastWrite key value before)
    (hLater : ∀ write ∈ later, write.1 ≠ key) :
    LastWrite key value (before ++ later) := by
  induction hLast with
  | @here between hBetween =>
      apply LastWrite.here
      intro write hWrite
      rcases List.mem_append.1 hWrite with hFirst | hSecond
      · exact hBetween write hFirst
      · exact hLater write hSecond
  | there _ ih => exact .there ih

/- The value that a key is left with, if it has one. -/
def lastWritten [DecidableEq κ] (key : κ) :
    List (κ × ν) → Option ν
| [] => none
| write :: later =>
    match lastWritten key later with
    | some value => some value
    | none =>
        if write.1 = key then some write.2 else none

theorem ne_of_lastWritten
    [DecidableEq κ] {key : κ} {writes : List (κ × ν)}
    (hNone : lastWritten key writes = none) :
    ∀ write ∈ writes, write.1 ≠ key := by
  induction writes with
  | nil => exact nofun
  | cons first later ih =>
      unfold lastWritten at hNone
      split at hNone
      · cases hNone
      · next hLater =>
          split at hNone
          · cases hNone
          · next hFirst =>
              rw [List.forall_mem_cons]
              exact ⟨hFirst, ih hLater⟩

theorem lastWrite_of_lastWritten
    [DecidableEq κ] {key : κ} {value : ν}
    {writes : List (κ × ν)}
    (hValue : lastWritten key writes = some value) :
    LastWrite key value writes := by
  induction writes with
  | nil => cases hValue
  | cons first later ih =>
      unfold lastWritten at hValue
      split at hValue
      · next hLater =>
          cases hValue
          exact .there (ih hLater)
      · next hLater =>
          split at hValue
          · next hFirst =>
              cases hValue
              rw [← hFirst]
              apply LastWrite.here
              rw [hFirst]
              exact ne_of_lastWritten hLater
          · cases hValue

theorem LastWrite.mem
    {key : κ} {value : ν} {writes : List (κ × ν)}
    (hLast : LastWrite key value writes) :
    (key, value) ∈ writes := by
  induction hLast with
  | here => exact List.mem_cons_self
  | there _ ih => exact List.mem_cons_of_mem _ ih

end

------------------------------------------------------------
-- Tables
------------------------------------------------------------

/- The keys in the order of their first writes, with values. -/
structure WriteTable (κ ν : Type) where
  order : List κ
  value : κ → Option ν
  nodup : order.Nodup
  mem_order :
    ∀ key, key ∈ order ↔ (value key).isSome = true

namespace WriteTable

variable {κ ν : Type}

/- Nothing is written. -/
def empty : WriteTable κ ν where
  order := []
  value := fun _ => none
  nodup := List.nodup_nil
  mem_order := by simp

section Write

variable [DecidableEq κ]

/- A key that is new goes to the end of the order. -/
def orderAfter (t : WriteTable κ ν) (key : κ) : List κ :=
  if (t.value key).isSome then t.order else t.order ++ [key]

/- The last value counts, the first place stays. -/
def write
    (t : WriteTable κ ν) (key : κ) (value : ν) :
    WriteTable κ ν where
  order := t.orderAfter key
  value := fun other =>
    if other = key then some value else t.value other
  nodup := by
    unfold orderAfter
    split
    · exact t.nodup
    · rename_i hNew
      rw [← t.mem_order] at hNew
      exact List.nodup_append.2
        ⟨t.nodup, List.nodup_singleton key, by
          intro other hOther last hLast hSame
          rw [List.mem_singleton] at hLast
          exact hNew (hLast ▸ hSame ▸ hOther)⟩
  mem_order := by
    intro other
    unfold orderAfter
    by_cases hSame : other = key
    · rw [if_pos hSame, hSame]
      split
      · rename_i hOld
        simpa [t.mem_order] using hOld
      · simp
    · rw [if_neg hSame]
      split
      · exact t.mem_order other
      · rw [List.mem_append, List.mem_singleton,
          or_iff_left hSame]
        exact t.mem_order other

@[simp] theorem value_write
    (t : WriteTable κ ν) (key other : κ) (value : ν) :
    (t.write key value).value other =
      if other = key then some value else t.value other := rfl

/- All the writes, in turn. -/
def writeAll (t : WriteTable κ ν) :
    List (κ × ν) → WriteTable κ ν
| [] => t
| (key, value) :: later => (t.write key value).writeAll later

theorem writeAll_append
    (t : WriteTable κ ν) (before after : List (κ × ν)) :
    t.writeAll (before ++ after) =
      (t.writeAll before).writeAll after := by
  induction before generalizing t with
  | nil => rfl
  | cons first before ih => exact ih (t.write first.1 first.2)

/- A key has the value of the last write to it. -/
theorem value_writeAll_iff
    (t : WriteTable κ ν) (writes : List (κ × ν))
    {key : κ} {value : ν} :
    (t.writeAll writes).value key = some value ↔
      LastWrite key value writes ∨
        (∀ write ∈ writes, write.1 ≠ key) ∧
          t.value key = some value := by
  induction writes generalizing t with
  | nil =>
      have hNever : ¬ LastWrite key value [] := by
        intro hLast
        cases hLast
      simp [writeAll, hNever]
  | cons first later ih =>
      rcases first with ⟨name, given⟩
      rw [writeAll, ih, value_write]
      constructor
      · rintro (hLast | ⟨hNone, hValue⟩)
        · exact .inl (.there hLast)
        · by_cases hSame : key = name
          · rw [if_pos hSame, Option.some.injEq] at hValue
            rw [hSame, ← hValue]
            rw [hSame] at hNone
            exact .inl (.here hNone)
          · rw [if_neg hSame] at hValue
            refine .inr ⟨?_, hValue⟩
            intro write hWrite
            rcases List.mem_cons.1 hWrite with rfl | hLater
            · exact Ne.symm hSame
            · exact hNone write hLater
      · rintro (hLast | ⟨hNone, hValue⟩)
        · cases hLast with
          | here hLater => exact .inr ⟨hLater, if_pos rfl⟩
          | there hLast => exact .inl hLast
        · refine .inr ⟨?_, ?_⟩
          · intro write hWrite
            exact hNone write (List.mem_cons_of_mem _ hWrite)
          · have hOther := hNone _ List.mem_cons_self
            rw [if_neg (Ne.symm hOther)]
            exact hValue

theorem value_writeAll_empty_iff
    (writes : List (κ × ν)) {key : κ} {value : ν} :
    ((empty : WriteTable κ ν).writeAll writes).value key =
        some value ↔
      LastWrite key value writes := by
  rw [value_writeAll_iff]
  simp [empty]

end Write

------------------------------------------------------------
-- The Entries in Order
------------------------------------------------------------

/- Each key with its value, in the order of the keys. -/
def entries (t : WriteTable κ ν) : List (κ × ν) :=
  t.order.filterMap fun key =>
    (t.value key).map fun value => (key, value)

theorem mem_entries_iff
    (t : WriteTable κ ν) {key : κ} {value : ν} :
    (key, value) ∈ t.entries ↔ t.value key = some value := by
  unfold entries
  rw [List.mem_filterMap]
  constructor
  · rintro ⟨other, _, hOther⟩
    rw [Option.map_eq_some_iff] at hOther
    rcases hOther with ⟨given, hGiven, hEq⟩
    cases hEq
    exact hGiven
  · intro hValue
    refine ⟨key, ?_, ?_⟩
    · rw [t.mem_order, hValue]
      rfl
    · rw [hValue]
      rfl

end WriteTable
