import Mathlib.Tactic.Common

/-
  Named files whose contents outlive their names.

  A name leads to an inode, and the inode has the contents.
  A file that is open for writing is known by its inode, so
  a write goes where the file has gone since it was opened.
  No two names share an inode.

  Main declarations:
    * `Inodes`, `Inodes.content`
    * `openTruncate`, `write`, `rename`
    * `content_openTruncate`, `content_write`,
      `content_rename`
-/

------------------------------------------------------------
-- Inodes
------------------------------------------------------------

/- New inodes are numbered in order. -/
structure Inodes (L B : Type) where
  names : L → Option Nat
  data : Nat → List B
  next : Nat
  injective :
    ∀ l m i, names l = some i → names m = some i → l = m
  bounded : ∀ l i, names l = some i → i < next

namespace Inodes

variable {L B : Type}

/- No names, and no inodes given out. -/
def empty : Inodes L B where
  names := fun _ => none
  data := fun _ => []
  next := 0
  injective := by
    intro l m i hNone
    cases hNone
  bounded := by
    intro l i hNone
    cases hNone

/- What is read under a name. -/
def content (fs : Inodes L B) (l : L) : Option (List B) :=
  (fs.names l).map fs.data

@[simp] theorem content_empty (l : L) :
    (empty : Inodes L B).content l = none := rfl

theorem content_eq_none_iff
    (fs : Inodes L B) (l : L) :
    fs.content l = none ↔ fs.names l = none := by
  unfold content
  exact Option.map_eq_none_iff

------------------------------------------------------------
-- Writing
------------------------------------------------------------

/- One inode has other data, under all its names. -/
def setData
    (fs : Inodes L B) (i : Nat) (bytes : List B) :
    Inodes L B :=
  { fs with
    data := fun j => if j = i then bytes else fs.data j }

/- Another name is not affected by what one name holds. -/
theorem content_setData
    [DecidableEq L]
    {fs : Inodes L B} {l : L} {i : Nat}
    (hNamed : fs.names l = some i) (bytes : List B) (m : L) :
    (fs.setData i bytes).content m =
      if m = l then some bytes else fs.content m := by
  unfold content setData
  dsimp only
  by_cases hSame : m = l
  · rw [if_pos hSame, hSame, hNamed]
    simp
  · rw [if_neg hSame]
    cases hOther : fs.names m with
    | none => rfl
    | some j =>
        have hInode : j ≠ i := by
          intro hEq
          rw [hEq] at hOther
          exact hSame (fs.injective m l i hOther hNamed)
        simp [hInode]

/- Write from the start of an open file. -/
def write
    (fs : Inodes L B) (i : Nat) (bytes : List B) :
    Inodes L B :=
  fs.setData i (bytes ++ (fs.data i).drop bytes.length)

@[simp] theorem names_write
    (fs : Inodes L B) (i : Nat) (bytes : List B) :
    (fs.write i bytes).names = fs.names := rfl

/- A write to a file that was just truncated. -/
theorem content_write
    [DecidableEq L]
    {fs : Inodes L B} {l : L} {i : Nat}
    (hNamed : fs.names l = some i) (hEmpty : fs.data i = [])
    (bytes : List B) (m : L) :
    (fs.write i bytes).content m =
      if m = l then some bytes else fs.content m := by
  unfold write
  rw [content_setData hNamed, hEmpty, List.drop_nil,
    List.append_nil]

------------------------------------------------------------
-- Opening
------------------------------------------------------------

variable [DecidableEq L]

/- A new file under a name. -/
def create (fs : Inodes L B) (l : L) : Inodes L B where
  names := fun m => if m = l then some fs.next else fs.names m
  data := fun j => if j = fs.next then [] else fs.data j
  next := fs.next + 1
  injective := by
    intro m n i hM hN
    by_cases hMl : m = l
    · by_cases hNl : n = l
      · rw [hMl, hNl]
      · simp only [hMl, if_true, hNl, if_false] at hM hN
        have hBound := fs.bounded n i hN
        simp only [Option.some.injEq] at hM
        omega
    · by_cases hNl : n = l
      · simp only [hMl, if_false, hNl, if_true] at hM hN
        have hBound := fs.bounded m i hM
        simp only [Option.some.injEq] at hN
        omega
      · simp only [hMl, if_false, hNl] at hM hN
        exact fs.injective m n i hM hN
  bounded := by
    intro m i hM
    by_cases hMl : m = l
    · simp only [hMl, if_true, Option.some.injEq] at hM
      omega
    · simp only [hMl, if_false] at hM
      have hBound := fs.bounded m i hM
      omega

/- Open for writing, creating the file or emptying it. -/
def openTruncate
    (fs : Inodes L B) (l : L) : Inodes L B × Nat :=
  match fs.names l with
  | some i => (fs.setData i [], i)
  | none => (fs.create l, fs.next)

theorem names_openTruncate (fs : Inodes L B) (l m : L) :
    (fs.openTruncate l).1.names m =
      if m = l then
        some (fs.openTruncate l).2
      else
        fs.names m := by
  unfold openTruncate
  split
  · rename_i i hName
    by_cases hSame : m = l
    · rw [if_pos hSame, hSame]
      exact hName
    · rw [if_neg hSame]
      rfl
  · rfl

theorem data_openTruncate (fs : Inodes L B) (l : L) :
    (fs.openTruncate l).1.data (fs.openTruncate l).2 = [] := by
  unfold openTruncate
  split
  · simp [setData]
  · simp [create]

theorem content_openTruncate (fs : Inodes L B) (l m : L) :
    (fs.openTruncate l).1.content m =
      if m = l then some [] else fs.content m := by
  unfold openTruncate
  split
  · rename_i i hName
    exact content_setData hName [] m
  · unfold content create
    dsimp only
    by_cases hSame : m = l
    · simp [hSame]
    · simp only [hSame, if_false]
      cases hOther : fs.names m with
      | none => rfl
      | some j =>
          have hBound := fs.bounded m j hOther
          have hInode : j ≠ fs.next := by
            omega
          simp [hInode]

------------------------------------------------------------
-- Renaming
------------------------------------------------------------

/- The new name is taken over, the old one is free. -/
def move (fs : Inodes L B) (old new : L) : Inodes L B where
  names := fun m =>
    if m = new then
      fs.names old
    else if m = old then
      none
    else
      fs.names m
  data := fs.data
  next := fs.next
  injective := by
    intro m n i hM hN
    have hOrigin : ∀ l,
        (if l = new then
            fs.names old
          else if l = old then
            none
          else
            fs.names l) = some i →
          l = new ∧ fs.names old = some i ∨
            l ≠ old ∧ fs.names l = some i := by
      intro l hL
      by_cases hNew : l = new
      · rw [if_pos hNew] at hL
        exact Or.inl ⟨hNew, hL⟩
      · rw [if_neg hNew] at hL
        by_cases hOld : l = old
        · rw [if_pos hOld] at hL
          cases hL
        · rw [if_neg hOld] at hL
          exact Or.inr ⟨hOld, hL⟩
    rcases hOrigin m hM with ⟨hMNew, hMOld⟩ | ⟨hMNot, hMSame⟩
    · rcases hOrigin n hN with ⟨hNNew, _⟩ | ⟨hNNot, hNSame⟩
      · rw [hMNew, hNNew]
      · exact absurd (fs.injective n old i hNSame hMOld) hNNot
    · rcases hOrigin n hN with ⟨_, hNOld⟩ | ⟨_, hNSame⟩
      · exact absurd (fs.injective m old i hMSame hNOld) hMNot
      · exact fs.injective m n i hMSame hNSame
  bounded := by
    intro m i hM
    by_cases hNew : m = new
    · rw [if_pos hNew] at hM
      exact fs.bounded old i hM
    · rw [if_neg hNew] at hM
      by_cases hOld : m = old
      · rw [if_pos hOld] at hM
        cases hM
      · rw [if_neg hOld] at hM
        exact fs.bounded m i hM

/- Only a file that is there can be renamed. -/
def rename
    (fs : Inodes L B) (old new : L) : Option (Inodes L B) :=
  if fs.names old = none then none else some (fs.move old new)

theorem content_move (fs : Inodes L B) (old new m : L) :
    (fs.move old new).content m =
      if m = new then
        fs.content old
      else if m = old then
        none
      else
        fs.content m := by
  unfold content move
  dsimp only
  by_cases hNew : m = new
  · rw [if_pos hNew, if_pos hNew]
  · rw [if_neg hNew, if_neg hNew]
    by_cases hOld : m = old
    · rw [if_pos hOld, if_pos hOld]
      rfl
    · rw [if_neg hOld, if_neg hOld]

theorem rename_of_content
    {fs : Inodes L B} {old : L} {bytes : List B}
    (hOld : fs.content old = some bytes) (new : L) :
    fs.rename old new = some (fs.move old new) := by
  have hNamed : fs.names old ≠ none := by
    intro hNone
    rw [← content_eq_none_iff, hOld] at hNone
    cases hNone
  unfold rename
  rw [if_neg hNamed]

end Inodes
