import CargoUnikernel.Library.Text
import Mathlib.Data.List.Infix

/-
  Text as lines of words.

  Words are what white space separates, however much of it
  there is. Lines end with a newline, or with a carriage
  return and a newline. A pattern without a newline occurs
  in a text exactly when it occurs in one of its lines.

  Main declarations:
    * `Text.words`, `Text.Separated`, `Text.words_of_separated`
    * `Text.unwords`, `Text.separated_unwords`
    * `Text.recordsCr`, `Text.recordsCr_unlines`
    * `Text.split_unlines_eq_flatMap`
    * `Text.infix_unlines_iff`
-/

------------------------------------------------------------
-- Words
------------------------------------------------------------

namespace Text

/- The pieces between white space that are not empty. -/
def words (s : Text) : List Text :=
  (s.splitOnP isWhitespace).filter fun piece => piece ≠ []

/- Nothing but white space. -/
def Blank (s : Text) : Prop :=
  ∀ c ∈ s, isWhitespace c = true

/- Something, and no white space. -/
def Solid (s : Text) : Prop :=
  s ≠ [] ∧ ∀ c ∈ s, isWhitespace c = false

/- What a test of every character gives for a word. -/
theorem solid_of_all
    {s : Text} (hNonempty : s ≠ [])
    (hAll : s.all (fun c => !isWhitespace c) = true) :
    Solid s := by
  refine ⟨hNonempty, ?_⟩
  intro c hMem
  simpa using List.all_eq_true.1 hAll c hMem

/- White space comes first, unless nothing does. -/
def Breaks : Text → Prop
| [] => True
| c :: _ => isWhitespace c = true

/- Words with white space before, between and after them. -/
inductive Separated : List Text → Text → Prop
| blank {gap : Text} : Blank gap → Separated [] gap
| word {gap word rest : Text} {more : List Text} :
    Blank gap → Solid word → Breaks rest →
      Separated more rest →
      Separated (word :: more) (gap ++ word ++ rest)

/- White space divides a text, whatever is on its sides. -/
theorem words_append_cons
    {c : Char} (hSpace : isWhitespace c = true)
    (before after : Text) :
    words (before ++ c :: after) =
      words before ++ words after := by
  unfold words
  rw [List.splitOnP_append_cons _ _ hSpace,
    List.filter_append]

@[simp] theorem words_nil : words [] = [] := rfl

theorem words_cons_of_isWhitespace
    {c : Char} (hSpace : isWhitespace c = true) (s : Text) :
    words (c :: s) = words s :=
  words_append_cons hSpace [] s

theorem words_append_of_blank
    {gap : Text} (hBlank : Blank gap) (s : Text) :
    words (gap ++ s) = words s := by
  induction gap with
  | nil => rfl
  | cons c gap ih =>
      have hSpace := hBlank c List.mem_cons_self
      have hGap : Blank gap := fun d hMem =>
        hBlank d (List.mem_cons_of_mem c hMem)
      rw [List.cons_append, words_cons_of_isWhitespace hSpace,
        ih hGap]

theorem words_of_solid
    {word : Text} (hSolid : Solid word) :
    words word = [word] := by
  unfold words
  rw [List.splitOnP_eq_singleton hSolid.2]
  simp [hSolid.1]

theorem words_append_of_breaks
    {word rest : Text}
    (hSolid : Solid word) (hBreaks : Breaks rest) :
    words (word ++ rest) = word :: words rest := by
  cases rest with
  | nil =>
      rw [List.append_nil, words_of_solid hSolid]
      rfl
  | cons c rest =>
      rw [words_append_cons hBreaks, words_of_solid hSolid,
        words_cons_of_isWhitespace hBreaks]
      rfl

/- The words are read back, however they are separated. -/
theorem words_of_separated
    {parts : List Text} {s : Text}
    (hSeparated : Separated parts s) :
    words s = parts := by
  induction hSeparated with
  | blank hBlank =>
      have hWords := words_append_of_blank hBlank []
      rwa [List.append_nil] at hWords
  | word hBlank hSolid hBreaks _ ih =>
      rw [List.append_assoc, words_append_of_blank hBlank,
        words_append_of_breaks hSolid hBreaks, ih]

/- Each word with a space after it. -/
def unwords (parts : List Text) : Text :=
  parts.flatMap fun part => part ++ [' ']

theorem blank_append
    {front back : Text}
    (hFront : Blank front) (hBack : Blank back) :
    Blank (front ++ back) := by
  intro c hMem
  rcases List.mem_append.1 hMem with hMem | hMem
  · exact hFront c hMem
  · exact hBack c hMem

/- There can be more white space before the words. -/
theorem Separated.append_left
    {gap s : Text} {parts : List Text}
    (hGap : Blank gap) (hSeparated : Separated parts s) :
    Separated parts (gap ++ s) := by
  cases hSeparated with
  | blank hBlank => exact .blank (blank_append hGap hBlank)
  | word hBlank hSolid hBreaks hMore =>
      rw [← List.append_assoc, ← List.append_assoc]
      exact .word (blank_append hGap hBlank) hSolid hBreaks
        hMore

theorem separated_unwords
    {parts : List Text} (hSolid : ∀ part ∈ parts, Solid part) :
    Separated parts (unwords parts) := by
  have hNone : Blank [] := by
    intro c hMem
    simp at hMem
  have hSpace : Blank [' '] := by
    intro c hMem
    rw [List.mem_singleton.1 hMem]
    decide
  induction parts with
  | nil => exact .blank hNone
  | cons part parts ih =>
      have hHere := hSolid part List.mem_cons_self
      have hRest := ih fun other hMem =>
        hSolid other (List.mem_cons_of_mem part hMem)
      have hText :
          unwords (part :: parts) =
            [] ++ part ++ ([' '] ++ unwords parts) := by
        simp [unwords]
      rw [hText]
      exact .word hNone hHere rfl (hRest.append_left hSpace)

theorem newline_not_mem_unwords
    {parts : List Text} (hSolid : ∀ part ∈ parts, Solid part) :
    '\n' ∉ unwords parts := by
  intro hMem
  rcases List.mem_flatMap.1 hMem with ⟨part, hPart, hChar⟩
  rw [List.mem_append, List.mem_singleton] at hChar
  rcases hChar with hChar | hSpace
  · have hSpace := (hSolid part hPart).2 '\n' hChar
    exact absurd hSpace (by decide)
  · exact absurd hSpace (by decide)

------------------------------------------------------------
-- Lines
------------------------------------------------------------

/- Without the carriage return at the end. -/
def dropReturn (line : Text) : Text :=
  if line.getLast? = some '\r' then line.dropLast else line

/-
  The lines, each without its newline and a carriage return
  before that; a last line that no newline ends is kept as
  it is, unless it is empty.
-/
def recordsCr (s : Text) : List Text :=
  (lines s).map dropReturn ++
    (split '\n' s).getLast?.toList.filter fun line =>
      line ≠ []

/- Whole lines come back, less their carriage returns. -/
theorem recordsCr_unlines
    {ls : List Text}
    (hFree : ∀ line ∈ ls, '\n' ∉ line) :
    recordsCr (unlines ls) = ls.map dropReturn := by
  unfold recordsCr
  rw [(lines_unlines_iff ls).2 hFree, split_unlines hFree,
    List.getLast?_concat]
  simp

/- No line has the newline that ends it. -/
theorem newline_not_mem_of_mem_recordsCr
    {s line : Text} (hLine : line ∈ recordsCr s) :
    '\n' ∉ line := by
  unfold recordsCr at hLine
  rcases List.mem_append.1 hLine with hWhole | hLast
  · rcases List.mem_map.1 hWhole with ⟨whole, hMem, rfl⟩
    have hFree :=
      not_mem_of_mem_split (List.mem_of_mem_dropLast hMem)
    unfold dropReturn
    split
    · intro hIn
      exact hFree (List.mem_of_mem_dropLast hIn)
    · exact hFree
  · have hMem := (List.mem_filter.1 hLast).1
    rw [Option.mem_toList] at hMem
    exact not_mem_of_mem_split (List.mem_of_getLast? hMem)

/- A carriage return is white space like any other. -/
theorem words_dropReturn (line : Text) :
    words (dropReturn line) = words line := by
  unfold dropReturn
  split
  · rename_i hLast
    have hLine := List.dropLast_append_getLast? _ hLast
    have hReturn : isWhitespace '\r' = true := by
      decide
    have hWords :=
      words_append_cons hReturn line.dropLast []
    rw [hLine, words_nil, List.append_nil] at hWords
    exact hWords.symm
  · rfl

/- Whole lines split into the lines of each. -/
theorem split_unlines_eq_flatMap (ls : List Text) :
    split '\n' (unlines ls) =
      ls.flatMap (split '\n') ++ [[]] := by
  induction ls with
  | nil => rfl
  | cons line ls ih =>
      have hText :
          unlines (line :: ls) = line ++ '\n' :: unlines ls := by
        simp [unlines]
      unfold split at ih ⊢
      rw [hText, List.splitOn_append_cons_self, ih,
        List.flatMap_cons, List.append_assoc]

theorem unlines_append (front back : List Text) :
    unlines (front ++ back) = unlines front ++ unlines back :=
  List.flatMap_append

/- What stands before a text stands on its first line. -/
theorem split_append_of_not_mem
    {sep : Char} {front : Text} (hFree : sep ∉ front)
    (s : Text) :
    ∃ first,
      split sep s = first :: (split sep s).tail ∧
        split sep (front ++ s) =
          (front ++ first) :: (split sep s).tail := by
  have hSome : split sep s ≠ [] := List.splitOn_ne_nil sep s
  rcases List.exists_cons_of_ne_nil hSome with
    ⟨first, rest, hSplit⟩
  refine ⟨first, by rw [hSplit, List.tail_cons], ?_⟩
  rw [hSplit, List.tail_cons]
  induction front with
  | nil => exact hSplit
  | cons c front ih =>
      rw [List.mem_cons, not_or] at hFree
      have hHere := ih hFree.2
      have hOther : (c == sep) = false :=
        beq_false_of_ne (Ne.symm hFree.1)
      unfold split at hHere ⊢
      rw [List.cons_append,
        List.splitOn_cons_eq_if_modifyHead, hHere, hOther,
        if_neg Bool.false_ne_true]
      rfl

------------------------------------------------------------
-- Patterns
------------------------------------------------------------

/- A pattern without the separator is on one side of it. -/
theorem infix_append_cons_iff
    {pattern : Text} {sep : Char} (hFree : sep ∉ pattern)
    (before after : Text) :
    pattern <:+: before ++ sep :: after ↔
      pattern <:+: before ∨ pattern <:+: after := by
  constructor
  · intro hInfix
    rcases List.infix_append_iff.1 hInfix with
      hBefore | hAfter | ⟨front, back, hEq, hFront, hBack⟩
    · exact Or.inl hBefore
    · rcases List.infix_cons_iff.1 hAfter with hHead | hTail
      · cases pattern with
        | nil => exact Or.inl (List.nil_infix)
        | cons c pattern =>
            have hSame := (List.cons_prefix_cons.1 hHead).1
            rw [hSame] at hFree
            exact absurd List.mem_cons_self hFree
      · exact Or.inr hTail
    · cases back with
      | nil =>
          rw [List.append_nil] at hEq
          rw [hEq]
          exact Or.inl hFront.isInfix
      | cons c back =>
          have hSame := (List.cons_prefix_cons.1 hBack).1
          rw [hEq, hSame] at hFree
          simp at hFree
  · rintro (hBefore | hAfter)
    · exact hBefore.trans (List.infix_append [] before _)
    · have hTail : after <:+: before ++ sep :: after :=
        List.infix_append_of_infix_right
          (List.infix_cons (List.infix_refl after))
      exact hAfter.trans hTail

/- So it occurs in whole lines when it occurs in one. -/
theorem infix_unlines_iff
    {pattern : Text} (hFree : '\n' ∉ pattern)
    (hNonempty : pattern ≠ []) (ls : List Text) :
    pattern <:+: unlines ls ↔
      ∃ line ∈ ls, pattern <:+: line := by
  induction ls with
  | nil => simp [unlines, hNonempty]
  | cons line ls ih =>
      have hText :
          unlines (line :: ls) = line ++ '\n' :: unlines ls := by
        simp [unlines]
      rw [hText, infix_append_cons_iff hFree, ih]
      simp

end Text
