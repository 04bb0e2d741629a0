import Mathlib.Tactic.Common
import Mathlib.Data.List.Basic

/-
  Text as a list of characters.

  Joining with a separator, splitting at one, the first
  occurrence of one, and lines. Each way of taking text
  apart comes with the condition under which it gives back
  what was put together.

  Main declarations:
    * `Text.join`, `Text.entries`, `Text.entries_join`
    * `Text.splitOnce`, `Text.splitOnce_append`
    * `Text.stripPrefix`
    * `Text.unlines`, `Text.lines`, `Text.lines_unlines_iff`
    * `Text.records`, `Text.records_unlines`
    * `Text.trim`
-/

------------------------------------------------------------
-- Joining and Splitting
------------------------------------------------------------

abbrev Text := List Char

namespace Text

instance : LawfulBEq Text := inferInstance

/- The parts with a separator between any two. -/
def join (sep : Char) (parts : List Text) : Text :=
  [sep].intercalate parts

/- The parts between the separators, at least one. -/
def split (sep : Char) (s : Text) : List Text :=
  s.splitOn sep

/- The parts that are not empty. -/
def entries (sep : Char) (s : Text) : List Text :=
  (split sep s).filter fun part => part ≠ []

theorem join_cons_cons
    (sep : Char) (part next : Text) (parts : List Text) :
    join sep (part :: next :: parts) =
      part ++ sep :: join sep (next :: parts) := by
  simp [join, List.intercalate]

theorem split_join
    {sep : Char} {parts : List Text}
    (hFree : ∀ part ∈ parts, sep ∉ part)
    (hNonempty : parts ≠ []) :
    split sep (join sep parts) = parts :=
  List.splitOn_intercalate sep hFree hNonempty

/- A separator divides a text, whatever is on its sides. -/
theorem entries_append_cons
    (sep : Char) (before after : Text) :
    entries sep (before ++ sep :: after) =
      entries sep before ++ entries sep after := by
  unfold entries split
  rw [List.splitOn_append_cons_self, List.filter_append]

/- Joined texts have the entries of each. -/
theorem entries_join_eq_flatMap
    (sep : Char) (parts : List Text) :
    entries sep (join sep parts) =
      parts.flatMap (entries sep) := by
  induction parts with
  | nil => rfl
  | cons part parts ih =>
      cases parts with
      | nil => simp [join, List.intercalate]
      | cons next parts =>
          rw [join_cons_cons, entries_append_cons, ih,
            ← List.flatMap_cons]

/- The same text is joined from the same parts only. -/
theorem join_inj
    {sep : Char} {parts others : List Text}
    (hParts : ∀ part ∈ parts, sep ∉ part)
    (hOthers : ∀ part ∈ others, sep ∉ part)
    (hNonempty : parts ≠ []) (hOthersNonempty : others ≠ [])
    (hJoin : join sep parts = join sep others) :
    parts = others := by
  rw [← split_join hParts hNonempty, hJoin,
    split_join hOthers hOthersNonempty]

/- Parts that are not empty do not join to nothing. -/
theorem eq_nil_of_join
    {sep : Char} {parts : List Text}
    (hNonempty : ∀ part ∈ parts, part ≠ [])
    (hJoin : join sep parts = []) :
    parts = [] := by
  cases parts with
  | nil => rfl
  | cons part parts =>
      have hPart := hNonempty part List.mem_cons_self
      cases parts with
      | nil =>
          exact absurd (by simpa [join] using hJoin) hPart
      | cons next parts =>
          rw [join_cons_cons] at hJoin
          exact absurd (List.append_eq_nil_iff.1 hJoin).1 hPart

/- Only the empty parts are lost. -/
theorem entries_join
    {sep : Char} {parts : List Text}
    (hFree : ∀ part ∈ parts, sep ∉ part) :
    entries sep (join sep parts) =
      parts.filter fun part => part ≠ [] := by
  cases parts with
  | nil => rfl
  | cons part parts =>
      unfold entries
      rw [split_join hFree (List.cons_ne_nil part parts)]

/- What is not the separator comes from a part. -/
theorem mem_join_iff
    {sep c : Char} (hSep : c ≠ sep) (parts : List Text) :
    c ∈ join sep parts ↔ ∃ part ∈ parts, c ∈ part := by
  induction parts with
  | nil => simp [join]
  | cons part parts ih =>
      cases parts with
      | nil => simp [join, List.intercalate]
      | cons next parts =>
          rw [join_cons_cons, List.mem_append, List.mem_cons,
            ih]
          simp [hSep]

/- A part has no separator in it. -/
theorem not_mem_of_mem_split
    {sep : Char} {s part : Text}
    (hPart : part ∈ split sep s) :
    sep ∉ part := by
  unfold split at hPart
  induction s generalizing part with
  | nil =>
      rw [List.splitOn_nil, List.mem_singleton] at hPart
      rw [hPart]
      exact List.not_mem_nil
  | cons c s ih =>
      rw [List.splitOn_cons_eq_if_modifyHead] at hPart
      split at hPart
      · rcases List.mem_cons.1 hPart with rfl | hRest
        · exact List.not_mem_nil
        · exact ih hRest
      · rename_i hOther
        obtain ⟨first, rest, hSplit⟩ :=
          List.exists_cons_of_ne_nil
            (List.splitOn_ne_nil sep s)
        rw [hSplit, List.modifyHead_cons] at hPart
        rw [hSplit] at ih
        rcases List.mem_cons.1 hPart with rfl | hRest
        · have hFirst := ih List.mem_cons_self
          have hHead : sep ≠ c := by
            intro hSame
            exact hOther (by simp [hSame])
          simp [hHead, hFirst]
        · exact ih (List.mem_cons_of_mem _ hRest)

------------------------------------------------------------
-- The First Separator
------------------------------------------------------------

/- What is before the first separator and what is after. -/
def splitOnce (sep : Char) : Text → Option (Text × Text)
| [] => none
| c :: cs =>
    if c = sep then
      some ([], cs)
    else
      (splitOnce sep cs).map fun halves =>
        (c :: halves.1, halves.2)

theorem splitOnce_append
    {sep : Char} {before : Text}
    (hFree : sep ∉ before) (after : Text) :
    splitOnce sep (before ++ sep :: after) =
      some (before, after) := by
  induction before with
  | nil => simp [splitOnce]
  | cons c cs ih =>
      rw [List.mem_cons, not_or] at hFree
      rw [List.cons_append, splitOnce,
        if_neg (Ne.symm hFree.1), ih hFree.2]
      rfl

theorem eq_of_splitOnce
    {sep : Char} {s before after : Text}
    (hSplit : splitOnce sep s = some (before, after)) :
    s = before ++ sep :: after := by
  induction s generalizing before with
  | nil => simp [splitOnce] at hSplit
  | cons c cs ih =>
      unfold splitOnce at hSplit
      split at hSplit
      case isTrue hSame =>
          simp only [Option.some.injEq, Prod.mk.injEq]
            at hSplit
          rw [← hSplit.1, ← hSplit.2, hSame]
          rfl
      case isFalse =>
          rw [Option.map_eq_some_iff] at hSplit
          rcases hSplit with ⟨⟨first, rest⟩, hRest, hEq⟩
          cases hEq
          rw [ih hRest]
          rfl

/- It is the first one that divides the text. -/
theorem not_mem_of_splitOnce
    {sep : Char} {s before after : Text}
    (hSplit : splitOnce sep s = some (before, after)) :
    sep ∉ before := by
  induction s generalizing before with
  | nil => simp [splitOnce] at hSplit
  | cons c cs ih =>
      unfold splitOnce at hSplit
      split at hSplit
      case isTrue =>
          cases hSplit
          exact List.not_mem_nil
      case isFalse hOther =>
          rw [Option.map_eq_some_iff] at hSplit
          rcases hSplit with ⟨⟨first, rest⟩, hRest, hEq⟩
          cases hEq
          rw [List.mem_cons, not_or]
          exact ⟨Ne.symm hOther, ih hRest⟩

/- A text without the separator is its only entry. -/
theorem entries_of_not_mem
    {sep : Char} {s : Text}
    (hFree : sep ∉ s) (hNonempty : s ≠ []) :
    entries sep s = [s] := by
  have hJoin :
      entries sep (join sep [s]) =
        [s].filter fun part => part ≠ [] := by
    apply entries_join
    simpa using hFree
  simpa [join, List.intercalate, hNonempty] using hJoin

------------------------------------------------------------
-- Prefixes
------------------------------------------------------------

/- What follows the prefix, where the text has it. -/
def stripPrefix : Text → Text → Option Text
| [], s => some s
| _ :: _, [] => none
| c :: word, d :: s =>
    if c = d then stripPrefix word s else none

theorem stripPrefix_eq_some_iff
    {word s rest : Text} :
    stripPrefix word s = some rest ↔ s = word ++ rest := by
  induction word generalizing s with
  | nil => simp [stripPrefix, eq_comm]
  | cons c word ih =>
      cases s with
      | nil => simp [stripPrefix]
      | cons d s =>
          unfold stripPrefix
          by_cases hSame : c = d
          · rw [if_pos hSame, ih, hSame]
            simp
          · rw [if_neg hSame]
            simp [Ne.symm hSame]

@[simp] theorem stripPrefix_append (word rest : Text) :
    stripPrefix word (word ++ rest) = some rest :=
  stripPrefix_eq_some_iff.2 rfl

------------------------------------------------------------
-- Lines
------------------------------------------------------------

/- Each line with its newline. -/
def unlines (ls : List Text) : Text :=
  ls.flatMap fun line => line ++ ['\n']

/- The lines that a newline ends. -/
def lines (s : Text) : List Text :=
  (split '\n' s).dropLast

theorem split_unlines
    {ls : List Text}
    (hFree : ∀ line ∈ ls, '\n' ∉ line) :
    split '\n' (unlines ls) = ls ++ [[]] := by
  induction ls with
  | nil => rfl
  | cons line ls ih =>
      have hHere := hFree line List.mem_cons_self
      have hRest := ih fun other hMem =>
        hFree other (List.mem_cons_of_mem line hMem)
      have hText :
          unlines (line :: ls) = line ++ '\n' :: unlines ls := by
        simp [unlines]
      unfold split at hRest ⊢
      rw [hText, List.splitOn_append_cons_self_of_not_mem hHere,
        hRest, List.cons_append]

/- Lines are read back when none has a newline in it. -/
theorem lines_unlines_iff (ls : List Text) :
    lines (unlines ls) = ls ↔ ∀ line ∈ ls, '\n' ∉ line := by
  constructor
  · intro hLines line hMem
    rw [← hLines] at hMem
    exact not_mem_of_mem_split (List.dropLast_subset _ hMem)
  · intro hFree
    unfold lines
    rw [split_unlines hFree, List.dropLast_concat]

/- The lines, the last one also where no newline ends it. -/
def records (s : Text) : List Text :=
  if (split '\n' s).getLast? = some [] then
    lines s
  else
    split '\n' s

theorem mem_split_of_mem_records
    {s line : Text} (hLine : line ∈ records s) :
    line ∈ split '\n' s := by
  unfold records lines at hLine
  split at hLine
  · exact List.dropLast_subset _ hLine
  · exact hLine

/- Only an empty line at the end is no line. -/
theorem mem_records_iff
    {s line : Text} (hNonempty : line ≠ []) :
    line ∈ records s ↔ line ∈ split '\n' s := by
  constructor
  · exact mem_split_of_mem_records
  · intro hLine
    unfold records lines
    split
    · rename_i hLast
      have hParts := List.dropLast_append_getLast? [] hLast
      rw [← hParts, List.mem_append,
        List.mem_singleton] at hLine
      exact hLine.resolve_right hNonempty
    · exact hLine

theorem not_mem_of_mem_records
    {s line : Text} (hLine : line ∈ records s) :
    '\n' ∉ line :=
  not_mem_of_mem_split (mem_split_of_mem_records hLine)

theorem records_unlines
    {ls : List Text}
    (hFree : ∀ line ∈ ls, '\n' ∉ line) :
    records (unlines ls) = ls := by
  unfold records
  rw [split_unlines hFree, List.getLast?_concat, if_pos rfl]
  exact (lines_unlines_iff ls).2 hFree

/- Characters that are no newline are dropped in each line. -/
theorem split_filter
    {sep : Char} {keep : Char → Bool}
    (hSep : keep sep = true) (s : Text) :
    split sep (s.filter keep) =
      (split sep s).map fun part => part.filter keep := by
  unfold split
  induction s with
  | nil => rfl
  | cons c s ih =>
      by_cases hSame : c = sep
      · rw [hSame, List.filter_cons_of_pos hSep,
          List.splitOn_cons_eq_if_modifyHead,
          List.splitOn_cons_eq_if_modifyHead, if_pos (by simp),
          if_pos (by simp), ih]
        rfl
      · obtain ⟨first, rest, hSplit⟩ :=
          List.exists_cons_of_ne_nil (List.splitOn_ne_nil sep s)
        have hOther : ¬ (c == sep) = true := by
          simp [hSame]
        rw [hSplit, List.map_cons] at ih
        rw [List.splitOn_cons_eq_if_modifyHead c s,
          if_neg hOther, hSplit, List.modifyHead_cons,
          List.map_cons]
        by_cases hKeep : keep c = true
        · rw [List.filter_cons_of_pos hKeep,
            List.splitOn_cons_eq_if_modifyHead,
            if_neg hOther, ih, List.modifyHead_cons,
            List.filter_cons_of_pos hKeep]
        · rw [List.filter_cons_of_neg hKeep, ih,
            List.filter_cons_of_neg hKeep]

------------------------------------------------------------
-- White Space
------------------------------------------------------------

/- The characters with the property `White_Space`. -/
def isWhitespace (c : Char) : Bool :=
  let n := c.toNat
  (9 ≤ n && n ≤ 13) || n == 0x20 || n == 0x85 || n == 0xa0 ||
    n == 0x1680 || (0x2000 ≤ n && n ≤ 0x200a) ||
    n == 0x2028 || n == 0x2029 || n == 0x202f ||
    n == 0x205f || n == 0x3000

/- Without the white space at both ends. -/
def trim (s : Text) : Text :=
  ((s.dropWhile isWhitespace).reverse.dropWhile
    isWhitespace).reverse

/- No white space is the last of it. -/
def EndsSolid (s : Text) : Prop :=
  ∀ c, s.getLast? = some c → isWhitespace c = false

instance (s : Text) : Decidable (EndsSolid s) :=
  decidable_of_iff
    ((s.getLast?.all fun c => !isWhitespace c) = true)
    (by
      unfold EndsSolid
      cases s.getLast? with
      | none => simp
      | some c => simp)

/- The end of a text is where the end of its last part is. -/
theorem EndsSolid.append_cons
    {c : Char} {s : Text} (hSolid : isWhitespace c = false)
    (hEnd : EndsSolid s) (front : Text) :
    EndsSolid (front ++ c :: s) := by
  intro last hLast
  rw [List.getLast?_append_of_ne_nil _
    (List.cons_ne_nil _ _)] at hLast
  cases s with
  | nil =>
      rw [List.getLast?_singleton, Option.some.injEq] at hLast
      rw [← hLast, hSolid]
  | cons first rest =>
      apply hEnd
      rwa [List.getLast?_cons_cons] at hLast

/- There is nothing to drop at either end. -/
theorem trim_of_solid
    {s : Text}
    (hFirst : ∀ c, s.head? = some c → isWhitespace c = false)
    (hLast : EndsSolid s) :
    trim s = s := by
  have hFront : s.dropWhile isWhitespace = s := by
    cases s with
    | nil => rfl
    | cons c rest =>
        exact List.dropWhile_cons_of_neg
          (by simp [hFirst c rfl])
  have hBack :
      s.reverse.dropWhile isWhitespace = s.reverse := by
    cases hEnd : s.reverse with
    | nil => rfl
    | cons last rest =>
        have hSolid : isWhitespace last = false := by
          apply hLast
          rw [← List.head?_reverse, hEnd]
          rfl
        exact List.dropWhile_cons_of_neg (by simp [hSolid])
  unfold trim
  rw [hFront, hBack, List.reverse_reverse]

end Text
