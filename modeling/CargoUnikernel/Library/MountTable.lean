import Mathlib.Data.List.Infix
import Mathlib.Tactic.Common

/-
  Tables of mounts.

  A table lists the newest mount first. A path is in the
  newest mount whose target it is at or beneath, so a mount
  hides what older ones have there. What is done to a path
  as a mount point is done to the mount that the path is in.

  Main declarations:
    * `Flags`, `Mount`, `Table`
    * `covering`, `IsMountPoint`
    * `bind`, `update`, `unmount`
    * `forall_mem_update`, `unmount_sublist`
-/

------------------------------------------------------------
-- Mounts
------------------------------------------------------------

namespace MountTable

/- What is refused on a mount. -/
structure Flags where
  readOnly : Bool
  noSuid : Bool
  noDev : Bool
  noExec : Bool
deriving DecidableEq

/- A file system of some kind, and where it is. -/
structure Mount (Name Kind : Type) where
  target : List Name
  kind : Kind
  flags : Flags
deriving DecidableEq

/- The newest first. -/
abbrev Table (Name Kind : Type) := List (Mount Name Kind)

section

variable {Name Kind : Type} [DecidableEq Name]

/- The mount a path is in. -/
def covering (table : Table Name Kind) (path : List Name) :
    Option (Mount Name Kind) :=
  table.find? fun mount => mount.target.isPrefixOf path

/- The path is the target of the mount it is in. -/
def IsMountPoint
    (table : Table Name Kind) (path : List Name) : Prop :=
  ∃ mount, covering table path = some mount ∧
    mount.target = path

instance decidableIsMountPoint
    (table : Table Name Kind) (path : List Name) :
    Decidable (IsMountPoint table path) :=
  decidable_of_iff
    ((covering table path).any
      (fun mount => mount.target == path) = true)
    (by
      unfold IsMountPoint
      rw [Option.any_eq_true]
      simp only [beq_iff_eq])

/- The same files at one more place. -/
def bind
    (table : Table Name Kind) (source target : List Name) :
    Table Name Kind :=
  match covering table source with
  | none => table
  | some mount => { mount with target := target } :: table

/- The mount that a path is in is changed. -/
def update
    (change : Mount Name Kind → Mount Name Kind) :
    Table Name Kind → List Name → Table Name Kind
| [], _ => []
| mount :: table, path =>
    if mount.target.isPrefixOf path then
      change mount :: table
    else
      mount :: update change table path

/- The mount that a path is in is taken away. -/
def unmount :
    Table Name Kind → List Name → Table Name Kind
| [], _ => []
| mount :: table, path =>
    if mount.target.isPrefixOf path then
      table
    else
      mount :: unmount table path

------------------------------------------------------------
-- The Mount of a Path
------------------------------------------------------------

variable {table : Table Name Kind}
variable {mount : Mount Name Kind} {path : List Name}

theorem covering_cons_of_beneath
    (hPrefix : mount.target <+: path) :
    covering (mount :: table) path = some mount := by
  unfold covering
  rw [List.find?_cons_of_pos]
  exact List.isPrefixOf_iff_prefix.2 hPrefix

------------------------------------------------------------
-- Changes
------------------------------------------------------------

variable {change : Mount Name Kind → Mount Name Kind}

theorem update_cons_of_beneath
    (hPrefix : mount.target <+: path) :
    update change (mount :: table) path =
      change mount :: table := by
  rw [update, if_pos (List.isPrefixOf_iff_prefix.2 hPrefix)]

theorem update_cons_of_not_beneath
    (hPrefix : ¬mount.target <+: path) :
    update change (mount :: table) path =
      mount :: update change table path := by
  rw [update, if_neg]
  rwa [List.isPrefixOf_iff_prefix]

/- A property that the change keeps. -/
theorem forall_mem_update
    {Property : Mount Name Kind → Prop}
    (hChange :
      ∀ mount, Property mount → Property (change mount))
    (hAll : ∀ mount ∈ table, Property mount) :
    ∀ mount ∈ update change table path, Property mount := by
  induction table with
  | nil => exact hAll
  | cons first table ih =>
      rw [List.forall_mem_cons] at hAll
      by_cases hPrefix : first.target <+: path
      · rw [update_cons_of_beneath hPrefix,
          List.forall_mem_cons]
        exact ⟨hChange first hAll.1, hAll.2⟩
      · rw [update_cons_of_not_beneath hPrefix,
          List.forall_mem_cons]
        exact ⟨hAll.1, ih hAll.2⟩

/- What is left was there, in the same order. -/
theorem unmount_sublist
    (table : Table Name Kind) (path : List Name) :
    (unmount table path).Sublist table := by
  induction table with
  | nil => exact List.Sublist.refl _
  | cons first table ih =>
      unfold unmount
      split
      · exact List.sublist_cons_self first table
      · exact ih.cons_cons first

end

end MountTable
