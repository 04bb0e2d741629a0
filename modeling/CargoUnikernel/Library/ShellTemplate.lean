import CargoUnikernel.Library.Shell
import Mathlib.Data.List.Forall2

/-
  Scripts made of literal text and quoted values.

  Where no value stands in quotes or after a dollar sign,
  the script is taken apart as its literal text says: each
  value is a part of one word, and the tokens are the same
  for other values.

  Main declarations:
    * `Piece`, `Fragment`, `concat`, `render`
    * `Quoting.afterPieces`, `Whole`
    * `Item`, `tokens`
    * `lex_render`, `data_tokens`, `tokens_mask`
    * `SameButData`
    * `Covered`, `covered_labelled`
-/

------------------------------------------------------------
-- Pieces
------------------------------------------------------------

namespace Shell

/- A part of a script, a value being quoted. -/
inductive Piece
| literal (text : String)
| value (text : Text)

/- A part of a script. -/
abbrev Fragment := List Piece

instance : Coe String Fragment :=
  ⟨fun text => [.literal text]⟩

/- A value, as it is written into a script. -/
def quoted (value : Text) : Fragment :=
  [.value value]

/- Parts one after another. -/
def concat (parts : List Fragment) : Fragment :=
  parts.flatten

namespace Piece

/- Literals as they are, and values in quotes. -/
def text : Piece → Text
| .literal text => text.toList
| .value text => shellQuote text

/- The value, where it is one. -/
def data : Piece → List Text
| .literal _ => []
| .value text => [text]

/- What is left of it without its data. -/
def mask : Piece → Piece
| .literal text => .literal text
| .value _ => .value []

end Piece

/- The script itself. -/
def render (pieces : List Piece) : Text :=
  pieces.flatMap Piece.text

namespace Quoting

/- A value is quoted where quotes can be opened only. -/
def afterPiece (quoting : Quoting) : Piece → Quoting
| .literal text => quoting.after text.toList
| .value _ => if quoting.opens then .word else .beyond

/- How a reader is quoted after some pieces. -/
def afterPieces
    (quoting : Quoting) (pieces : List Piece) : Quoting :=
  pieces.foldl afterPiece quoting

@[simp] theorem afterPieces_nil (quoting : Quoting) :
    quoting.afterPieces [] = quoting := rfl

theorem afterPieces_cons
    (quoting : Quoting) (piece : Piece)
    (pieces : List Piece) :
    quoting.afterPieces (piece :: pieces) =
      (quoting.afterPiece piece).afterPieces pieces := rfl

/- Pieces are read one after the other. -/
theorem afterPieces_append
    (quoting : Quoting) (pieces more : List Piece) :
    quoting.afterPieces (pieces ++ more) =
      (quoting.afterPieces pieces).afterPieces more :=
  List.foldl_append

/- What is beyond the quoting stays there. -/
theorem afterPiece_beyond (piece : Piece) :
    Quoting.beyond.afterPiece piece = .beyond := by
  cases piece with
  | literal text => exact after_beyond text.toList
  | value text => rfl

/- However many pieces follow. -/
theorem afterPieces_beyond (pieces : List Piece) :
    Quoting.beyond.afterPieces pieces = .beyond := by
  induction pieces with
  | nil => rfl
  | cons piece pieces ih =>
      rw [afterPieces_cons, afterPiece_beyond]
      exact ih

/- What does not end beyond was never there. -/
theorem afterPiece_ne_beyond
    {quoting : Quoting} {piece : Piece} {pieces : List Piece}
    (hWithin :
      quoting.afterPieces (piece :: pieces) ≠ .beyond) :
    quoting.afterPiece piece ≠ .beyond := by
  intro hBeyond
  apply hWithin
  rw [afterPieces_cons, hBeyond, afterPieces_beyond]

/- A value stands where a word may. -/
theorem opens_of_afterPiece
    {quoting : Quoting} {text : Text}
    (hWithin : quoting.afterPiece (.value text) ≠ .beyond) :
    quoting.opens = true := by
  by_contra hCloses
  exact hWithin (if_neg hCloses)

/- The quoted text leads to the same place. -/
theorem after_text
    {quoting : Quoting} {piece : Piece}
    (hWithin : quoting.afterPiece piece ≠ .beyond) :
    quoting.after piece.text = quoting.afterPiece piece := by
  cases piece with
  | literal text => rfl
  | value text =>
      have hOpens := opens_of_afterPiece hWithin
      rw [Piece.text, after_shellQuote hOpens]
      exact (if_pos hOpens).symm

/- The text is quoted as its pieces are. -/
theorem after_render
    {pieces : List Piece} {quoting : Quoting}
    (hWithin : quoting.afterPieces pieces ≠ .beyond) :
    quoting.after (render pieces) =
      quoting.afterPieces pieces := by
  induction pieces generalizing quoting with
  | nil => rfl
  | cons piece pieces ih =>
      have hPiece := after_text (afterPiece_ne_beyond hWithin)
      unfold render at ih ⊢
      rw [List.flatMap_cons, after_append, hPiece]
      exact ih hWithin

end Quoting

------------------------------------------------------------
-- Parsing Pieces
------------------------------------------------------------

/- A part of a word: a character, in quotes or not, or a
   whole value. -/
inductive Item
| char (quotes : Bool) (c : Char)
| value (text : Text)
deriving DecidableEq

namespace Item

/- The text of an item. -/
def plain : Item → Text
| .char _ c => [c]
| .value text => text

/- The values in it. -/
def data : Item → List Text
| .char _ _ => []
| .value text => [text]

/- Every value is emptied. -/
def mask : Item → List Item
| .char quotes c => [.char quotes c]
| .value _ => [.value []]

end Item

namespace Lexer

/- A value is added to the word that its quotes are in. -/
def readPiece (s : Lexer Item) : Piece → Lexer Item
| .literal text => text.toList.foldl (step Item.char) s
| .value text =>
    if s.quoting.opens then
      { s.step Item.char '\'' with
        quoting := .word
        word := (s.step Item.char '\'').word ++ [.value text] }
    else
      { s with quoting := .beyond }

/- Reading a piece follows its quoting. -/
theorem quoting_readPiece (s : Lexer Item) (piece : Piece) :
    (s.readPiece piece).quoting =
      s.quoting.afterPiece piece := by
  cases piece with
  | literal text =>
      exact quoting_foldl_step Item.char text.toList s
  | value text =>
      rw [readPiece, Quoting.afterPiece]
      split
      · rfl
      · rfl

/- And so for all of them. -/
theorem quoting_foldl_readPiece
    (pieces : List Piece) (s : Lexer Item) :
    (pieces.foldl readPiece s).quoting =
      s.quoting.afterPieces pieces := by
  induction pieces generalizing s with
  | nil => rfl
  | cons piece pieces ih =>
      rw [List.foldl_cons, ih, quoting_readPiece,
        Quoting.afterPieces_cons]

end Lexer

/- The tokens, with each value in the word it is in. -/
def tokens (pieces : List Piece) : List (Token Item) :=
  (pieces.foldl Lexer.readPiece {}).tokens

------------------------------------------------------------
-- The Tokens of the Text
------------------------------------------------------------

namespace Lexer

theorem plain_char (quotes : Bool) (c : Char) :
    (Item.char quotes c).plain = [unquoted quotes c] := rfl

/- The characters of the quoted value end up in one word. -/
theorem spread_readPiece_value
    {s : Lexer Item} (hOpens : s.quoting.opens = true)
    (text : Text) :
    (s.readPiece (.value text)).spread Item.plain =
      (shellQuote text).foldl (step unquoted)
        (s.spread Item.plain) := by
  have hStep := spread_step plain_char s '\''
  rw [foldl_step_shellQuote (s.spread Item.plain) hOpens,
    ← hStep, readPiece, if_pos hOpens]
  simp [spread, Item.plain]

/- A piece is read as the characters it stands for. -/
theorem spread_readPiece
    {s : Lexer Item} {piece : Piece}
    (hWithin : s.quoting.afterPiece piece ≠ .beyond) :
    (s.readPiece piece).spread Item.plain =
      piece.text.foldl (step unquoted) (s.spread Item.plain) := by
  cases piece with
  | literal text =>
      exact spread_foldl_step plain_char text.toList s
  | value text =>
      exact spread_readPiece_value
        (Quoting.opens_of_afterPiece hWithin) text

/- And so are all of them in turn. -/
theorem spread_foldl_readPiece
    {pieces : List Piece} {s : Lexer Item}
    (hWithin : s.quoting.afterPieces pieces ≠ .beyond) :
    (pieces.foldl readPiece s).spread Item.plain =
      (render pieces).foldl (step unquoted)
        (s.spread Item.plain) := by
  induction pieces generalizing s with
  | nil => rfl
  | cons piece pieces ih =>
      have hPiece :=
        spread_readPiece
          (Quoting.afterPiece_ne_beyond hWithin)
      have hRest :
          (s.readPiece piece).quoting.afterPieces pieces ≠
            .beyond := by
        rw [quoting_readPiece]
        exact hWithin
      unfold render at ih ⊢
      rw [List.foldl_cons, ih hRest, hPiece,
        List.flatMap_cons, List.foldl_append]

end Lexer

------------------------------------------------------------
-- The Values in the Tokens
------------------------------------------------------------

/- The values in a word. -/
def Token.data : Token Item → List Text
| .word contents => contents.flatMap Item.data
| .control _ => []

/- No word is being read. -/
def Quoting.Between : Quoting → Prop
| .blank | .operator _ | .comment => True
| .word | .dollar | .parameter | .escaped | .single
| .double | .doubleDollar | .doubleParameter
| .doubleEscaped | .beyond => False

/- Where a word ends, nothing is added to the next. -/
def Reading.Ends (before : Quoting) (reading : Reading) :
    Prop :=
  reading.next.Between →
    reading.adds = [] ∧
      (reading.closes = true ∨ before.Between)

/- A word that has begun has not ended. -/
theorem not_between_readBegun (c : Char) :
    ¬ (readBegun c).next.Between := by
  unfold readBegun
  split_ifs <;> exact id

/- A blank adds nothing to a word. -/
theorem adds_readBlank
    {c : Char} (hBetween : (readBlank c).next.Between) :
    (readBlank c).adds = [] := by
  unfold readBlank at hBetween ⊢
  split_ifs at hBetween ⊢
  · rfl
  · rfl
  · rfl
  · rfl
  · exact absurd hBetween (not_between_readBegun c)

/- A word ends only at what ends words. -/
theorem ends_readWord (quoting : Quoting) (c : Char) :
    (readWord c).Ends quoting := by
  intro hBetween
  unfold readWord at hBetween ⊢
  split_ifs at hBetween ⊢
  · exact ⟨adds_readBlank hBetween, Or.inl rfl⟩
  · exact absurd hBetween (not_between_readBegun c)

/- An operator ends by itself. -/
theorem ends_readOperator (symbol c : Char) :
    (readOperator symbol c).Ends (.operator symbol) := by
  intro hBetween
  unfold readOperator at hBetween ⊢
  split_ifs at hBetween ⊢
  · exact ⟨rfl, Or.inr trivial⟩
  · exact ⟨rfl, Or.inr trivial⟩
  · exact ⟨adds_readBlank hBetween, Or.inr trivial⟩

/- So whatever is read ends as it should. -/
theorem ends_read (quoting : Quoting) (c : Char) :
    (read quoting c).Ends quoting := by
  cases quoting with
  | blank =>
      intro hBetween
      exact ⟨adds_readBlank hBetween, Or.inr trivial⟩
  | operator symbol => exact ends_readOperator symbol c
  | word => exact ends_readWord .word c
  | dollar =>
      rw [read, readDollar]
      split_ifs
      · exact False.elim
      · exact False.elim
      · exact ends_readWord .dollar c
  | comment =>
      rw [read, readComment]
      split_ifs
      · exact fun _ => ⟨rfl, Or.inr trivial⟩
      · exact fun _ => ⟨rfl, Or.inr trivial⟩
  | parameter =>
      rw [read, readParameter]
      split_ifs <;> exact False.elim
  | escaped =>
      rw [read, readEscaped]
      split_ifs <;> exact False.elim
  | single =>
      rw [read, readSingle]
      split_ifs <;> exact False.elim
  | double =>
      rw [read, readDouble]
      split_ifs <;> exact False.elim
  | doubleDollar =>
      rw [read, readDoubleDollar, readDouble]
      split_ifs <;> exact False.elim
  | doubleParameter =>
      rw [read, readParameter]
      split_ifs <;> exact False.elim
  | doubleEscaped =>
      rw [read, readDoubleEscaped]
      split_ifs <;> exact False.elim
  | beyond => exact False.elim

namespace Lexer

/- The values read so far. -/
def data (s : Lexer Item) : List Text :=
  s.tokens.flatMap Token.data ++ s.word.flatMap Item.data

/- Between words, there is nothing in the word. -/
def Tidy (s : Lexer Item) : Prop :=
  s.quoting.Between → s.word = []

/- Characters of the script are no data. -/
theorem data_step (s : Lexer Item) (c : Char) :
    (s.step Item.char c).data = s.data := by
  have hAdds (quotes : Bool) (adds : Text) :
      (adds.map (Item.char quotes)).flatMap Item.data =
        [] := by
    rw [List.flatMap_map]
    exact List.flatMap_eq_nil_iff.2 (fun _ _ => rfl)
  have hEmits (emits : List Control) :
      (emits.map Token.control).flatMap Token.data = [] := by
    rw [List.flatMap_map]
    exact List.flatMap_eq_nil_iff.2 (fun _ _ => rfl)
  unfold step carryOut data
  cases (read s.quoting c).closes with
  | true => simp [hAdds, hEmits, Token.data]
  | false => simp [hAdds, hEmits]

/- A lexer with no word begun has none left over. -/
theorem tidy_step
    {s : Lexer Item} (hTidy : s.Tidy) (c : Char) :
    (s.step Item.char c).Tidy := by
  intro hBetween
  rcases ends_read s.quoting c hBetween with ⟨hAdds, hEnds⟩
  unfold step carryOut
  rw [hAdds, List.map_nil, List.append_nil]
  rcases hEnds with hCloses | hBefore
  · exact if_pos hCloses
  · rw [hTidy hBefore]
    exact ite_self []

/- Nor are whole texts of it. -/
theorem data_foldl_step (text : Text) (s : Lexer Item) :
    (text.foldl (step Item.char) s).data = s.data := by
  induction text generalizing s with
  | nil => rfl
  | cons c text ih => rw [List.foldl_cons, ih, data_step]

/- And so over a text. -/
theorem tidy_foldl_step
    (text : Text) {s : Lexer Item} (hTidy : s.Tidy) :
    (text.foldl (step Item.char) s).Tidy := by
  induction text generalizing s with
  | nil => exact hTidy
  | cons c text ih => exact ih (tidy_step hTidy c)

/- Each piece adds its value, and nothing else is one. -/
theorem data_readPiece
    {s : Lexer Item} {piece : Piece}
    (hWithin : s.quoting.afterPiece piece ≠ .beyond) :
    (s.readPiece piece).data = s.data ++ piece.data := by
  cases piece with
  | literal text =>
      rw [readPiece, data_foldl_step]
      exact (List.append_nil s.data).symm
  | value text =>
      have hOpens := Quoting.opens_of_afterPiece hWithin
      rw [readPiece, if_pos hOpens, ← data_step s '\'']
      simp [data, Item.data, Piece.data]

/- And over a piece. -/
theorem tidy_readPiece
    {s : Lexer Item} (hTidy : s.Tidy) (piece : Piece) :
    (s.readPiece piece).Tidy := by
  cases piece with
  | literal text => exact tidy_foldl_step text.toList hTidy
  | value text =>
      rw [readPiece]
      split
      · exact False.elim
      · exact False.elim

/- The data read is that of the pieces, in order. -/
theorem data_foldl_readPiece
    {pieces : List Piece} {s : Lexer Item}
    (hWithin : s.quoting.afterPieces pieces ≠ .beyond) :
    (pieces.foldl readPiece s).data =
      s.data ++ pieces.flatMap Piece.data := by
  induction pieces generalizing s with
  | nil => simp
  | cons piece pieces ih =>
      have hPiece :=
        data_readPiece (Quoting.afterPiece_ne_beyond hWithin)
      have hRest :
          (s.readPiece piece).quoting.afterPieces pieces ≠
            .beyond := by
        rw [quoting_readPiece]
        exact hWithin
      rw [List.foldl_cons, ih hRest, hPiece,
        List.flatMap_cons, List.append_assoc]

/- And over all pieces. -/
theorem tidy_foldl_readPiece
    (pieces : List Piece) {s : Lexer Item}
    (hTidy : s.Tidy) :
    (pieces.foldl readPiece s).Tidy := by
  induction pieces generalizing s with
  | nil => exact hTidy
  | cons piece pieces ih =>
      exact ih (tidy_readPiece hTidy piece)

end Lexer

------------------------------------------------------------
-- Whole Fragments
------------------------------------------------------------

/- A fragment that starts and ends between words. -/
def Whole (pieces : List Piece) : Prop :=
  Quoting.blank.afterPieces pieces = .blank

theorem whole_nil : Whole [] := rfl

/- Whole fragments, one after the other. -/
theorem whole_append
    {pieces more : List Piece}
    (hPieces : Whole pieces) (hMore : Whole more) :
    Whole (pieces ++ more) := by
  unfold Whole at *
  rw [Quoting.afterPieces_append, hPieces, hMore]

/- A whole fragment never leaves the quoting. -/
theorem Whole.within
    {pieces : List Piece} (hWhole : Whole pieces) :
    Quoting.blank.afterPieces pieces ≠ .beyond := by
  rw [hWhole]
  intro hBeyond
  cases hBeyond

/- And its text ends between words. -/
theorem Whole.after_render
    {pieces : List Piece} (hWhole : Whole pieces) :
    Quoting.blank.after (render pieces) = .blank := by
  rw [Quoting.after_render hWhole.within, hWhole]

namespace Lexer

/- Between words only the tokens are left. -/
theorem eq_of_blank
    {s : Lexer Item} (hBlank : s.quoting = .blank)
    (hTidy : s.Tidy) :
    s = ⟨.blank, [], s.tokens⟩ := by
  rcases s with ⟨quoting, word, tokens⟩
  have hWord : word = [] := by
    apply hTidy
    rw [hBlank]
    trivial
  subst hWord
  subst hBlank
  rfl

end Lexer

/- Between words, what was read are the tokens. -/
theorem foldl_readPiece_of_whole
    {pieces : List Piece} (hWhole : Whole pieces) :
    pieces.foldl Lexer.readPiece {} =
      ⟨.blank, [], tokens pieces⟩ := by
  apply Lexer.eq_of_blank
  · rw [Lexer.quoting_foldl_readPiece]
    exact hWhole
  · exact Lexer.tidy_foldl_readPiece pieces (fun _ => rfl)

/- The text has the tokens that its pieces say. -/
theorem lex_render
    {pieces : List Piece} (hWhole : Whole pieces) :
    lex (render pieces) =
      some
        ((tokens pieces).map (Token.spread Item.plain)) := by
  have hFold :=
    @Lexer.spread_foldl_readPiece pieces {} hWhole.within
  rw [foldl_readPiece_of_whole hWhole] at hFold
  exact (congrArg Lexer.done hFold).symm

/- The values are found in the words, and in their order. -/
theorem data_tokens
    {pieces : List Piece} (hWhole : Whole pieces) :
    (tokens pieces).flatMap Token.data =
      pieces.flatMap Piece.data := by
  have hData :=
    @Lexer.data_foldl_readPiece pieces {} hWhole.within
  rw [foldl_readPiece_of_whole hWhole] at hData
  simpa [Lexer.data] using hData

------------------------------------------------------------
-- Other Values
------------------------------------------------------------

namespace Lexer

theorem mask_char (quotes : Bool) (c : Char) :
    (Item.char quotes c).mask = [Item.char quotes c] := rfl

/- Hiding the data commutes with reading a piece. -/
theorem spread_mask_readPiece
    (s : Lexer Item) (piece : Piece) :
    (s.readPiece piece).spread Item.mask =
      (s.spread Item.mask).readPiece piece.mask := by
  cases piece with
  | literal text =>
      exact spread_foldl_step mask_char text.toList s
  | value text =>
      have hStep := spread_step mask_char s '\''
      have hSame :
          (s.spread Item.mask).quoting = s.quoting := rfl
      rw [readPiece, Piece.mask, readPiece, hSame, ← hStep]
      by_cases hOpens : s.quoting.opens = true
      · rw [if_pos hOpens, if_pos hOpens]
        simp [spread, Item.mask]
      · rw [if_neg hOpens, if_neg hOpens]
        rfl

/- And with reading all of them. -/
theorem spread_mask_foldl_readPiece
    (pieces : List Piece) (s : Lexer Item) :
    (pieces.foldl readPiece s).spread Item.mask =
      (pieces.map Piece.mask).foldl readPiece
        (s.spread Item.mask) := by
  induction pieces generalizing s with
  | nil => rfl
  | cons piece pieces ih =>
      rw [List.foldl_cons, ih, spread_mask_readPiece,
        List.map_cons, List.foldl_cons]

end Lexer

/- Without its data, a token. -/
def Token.mask (token : Token Item) : Token Item :=
  token.spread Item.mask

/- The tokens without data are those of masked pieces. -/
theorem tokens_mask (pieces : List Piece) :
    tokens (pieces.map Piece.mask) =
      (tokens pieces).map Token.mask :=
  (congrArg Lexer.tokens
    (Lexer.spread_mask_foldl_readPiece pieces {})).symm

/- Fragments with the same literal text, and values in the
   same places. -/
def SameButData (fragment other : Fragment) : Prop :=
  fragment.map Piece.mask = other.map Piece.mask

/- Fragments alike but for their data, put together. -/
theorem SameButData.append
    {fragment other more others : Fragment}
    (hFragment : SameButData fragment other)
    (hMore : SameButData more others) :
    SameButData (fragment ++ more) (other ++ others) := by
  unfold SameButData at *
  rw [List.map_append, List.map_append, hFragment, hMore]

/- However many they are. -/
theorem sameButData_concat
    {fragments others : List Fragment}
    (hSame : List.Forall₂ SameButData fragments others) :
    SameButData (concat fragments) (concat others) := by
  unfold concat
  induction hSame with
  | nil => rfl
  | cons hHead _ ih => exact hHead.append ih

/- And entry by entry of two lists. -/
theorem sameButData_flatMap
    {α β : Type} {entries : List α} {others : List β}
    {f : α → Fragment} {g : β → Fragment}
    (hSame :
      List.Forall₂ (fun a b => SameButData (f a) (g b))
        entries others) :
    SameButData (entries.flatMap f) (others.flatMap g) := by
  apply sameButData_concat
  exact List.forall₂_map_left_iff.2
    (List.forall₂_map_right_iff.2 hSame)

/- The words and operators are the same but for the data. -/
theorem SameButData.tokens
    {fragment other : Fragment}
    (hSame : SameButData fragment other) :
    (tokens fragment).map Token.mask =
      (tokens other).map Token.mask := by
  rw [← tokens_mask, ← tokens_mask]
  exact congrArg Shell.tokens hSame

------------------------------------------------------------
-- Where Data is Read
------------------------------------------------------------

/- In single quotes, or an escaped quote. -/
def ReadAsData (quoting : Quoting) (c : Char) : Prop :=
  (quoting = .single ∧ c ≠ '\'') ∨
    (quoting = .escaped ∧ c = '\'')

/- Every character that is marked is read as data. -/
def Covered : Quoting → List (Char × Bool) → Prop
| _, [] => True
| quoting, (c, isData) :: rest =>
    (isData = true → ReadAsData quoting c) ∧
      Covered (read quoting c).next rest

/- A text is covered where its parts are. -/
theorem covered_append
    (quoting : Quoting) (text more : List (Char × Bool)) :
    Covered quoting (text ++ more) ↔
      Covered quoting text ∧
        Covered (quoting.after (text.map Prod.fst)) more := by
  induction text generalizing quoting with
  | nil => simp [Covered]
  | cons entry text ih =>
      rcases entry with ⟨c, isData⟩
      rw [List.cons_append, Covered, Covered, ih,
        and_assoc]
      rfl

/- The characters of a value are marked in its quoted text. -/
def labelledQuote (value : Text) : List (Char × Bool) :=
  value.flatMap fun c =>
    if c = '\'' then
      [('\'', false), ('\\', false), ('\'', true),
        ('\'', false)]
    else
      [(c, true)]

/- Each character, and whether it is of a value. -/
def Piece.labelled : Piece → List (Char × Bool)
| .literal text => text.toList.map fun c => (c, false)
| .value text =>
    ('\'', false) :: (labelledQuote text ++ [('\'', false)])

/- The labels are no part of the text. -/
theorem fst_labelledQuote (value : Text) :
    (labelledQuote value).map Prod.fst =
      escapeQuotes value := by
  unfold labelledQuote escapeQuotes
  rw [List.map_flatMap]
  congr 1
  funext c
  split
  · rfl
  · rfl

@[simp] theorem Piece.fst_labelled (piece : Piece) :
    piece.labelled.map Prod.fst = piece.text := by
  cases piece with
  | literal text =>
      simp [Piece.labelled, Piece.text, Function.comp_def]
  | value text =>
      simp [Piece.labelled, Piece.text, shellQuote,
        fst_labelledQuote]

/- What is no data needs no quotes. -/
theorem covered_of_not_data
    (text : Text) (quoting : Quoting) :
    Covered quoting (text.map fun c => (c, false)) := by
  induction text generalizing quoting with
  | nil => trivial
  | cons c text ih =>
      exact ⟨fun hData => Bool.noConfusion hData, ih _⟩

/- A quoted value is covered, and its quotes closed. -/
theorem covered_labelledQuote (value : Text) :
    Covered .single (labelledQuote value) ∧
      Quoting.single.after
        ((labelledQuote value).map Prod.fst) = .single := by
  induction value with
  | nil => exact ⟨trivial, rfl⟩
  | cons c value ih =>
      have hHead :
          labelledQuote (c :: value) =
            (if c = '\'' then
              [('\'', false), ('\\', false), ('\'', true),
                ('\'', false)]
            else
              [(c, true)]) ++ labelledQuote value :=
        List.flatMap_cons
      rw [hHead, covered_append, List.map_append,
        Quoting.after_append]
      by_cases hQuote : c = '\''
      · subst hQuote
        refine ⟨⟨?_, ih.1⟩, ih.2⟩
        simp [Covered, ReadAsData, read, readSingle, readWord,
          readBegun, isBlank, isOperator]
      · rw [if_neg hQuote]
        have hNext : (read .single c).next = .single := by
          rw [read, readSingle_of_ne hQuote]
        have hAfter :
            Quoting.single.after
              ([(c, true)].map Prod.fst) = .single :=
          hNext
        rw [hAfter]
        refine ⟨⟨⟨?_, trivial⟩, ih.1⟩, ih.2⟩
        exact fun _ => Or.inl ⟨rfl, hQuote⟩

/- So every piece is covered. -/
theorem covered_piece
    {quoting : Quoting} {piece : Piece}
    (hWithin : quoting.afterPiece piece ≠ .beyond) :
    Covered quoting piece.labelled := by
  cases piece with
  | literal text =>
      exact covered_of_not_data text.toList quoting
  | value text =>
      have hOpens := Quoting.opens_of_afterPiece hWithin
      refine ⟨fun hData => Bool.noConfusion hData, ?_⟩
      rw [next_of_opens hOpens, covered_append]
      refine ⟨(covered_labelledQuote text).1, ?_⟩
      exact ⟨fun hData => Bool.noConfusion hData, trivial⟩

/- All data of a script is read as data. -/
theorem covered_labelled
    {pieces : List Piece} {quoting : Quoting}
    (hWithin : quoting.afterPieces pieces ≠ .beyond) :
    Covered quoting (pieces.flatMap Piece.labelled) := by
  induction pieces generalizing quoting with
  | nil => trivial
  | cons piece pieces ih =>
      have hPiece := Quoting.afterPiece_ne_beyond hWithin
      rw [List.flatMap_cons, covered_append,
        Piece.fst_labelled, Quoting.after_text hPiece]
      exact ⟨covered_piece hPiece, ih hWithin⟩

/- The labelled pieces spell the text. -/
theorem fst_labelled (pieces : List Piece) :
    (pieces.flatMap Piece.labelled).map Prod.fst =
      render pieces := by
  unfold render
  rw [List.map_flatMap]
  simp only [Piece.fst_labelled]

end Shell
