import CargoUnikernel.Library.ShellTemplate

/-
  Where the names of commands stand in a script.

  A command is named by the first word that is not reserved
  and not an assignment. Where no name is made of values, a
  script runs the same commands for all values.

  Main declarations:
    * `Position`, `Position.after`, `commandNames`
    * `commandNames_eq_of_mask`
    * `tokens_append`
    * `Moves`, `Moves.append`
    * `Spelled`, `moves_of_readSpelled`
    * `IsPlain`, `moves_around`
-/

------------------------------------------------------------
-- Positions
------------------------------------------------------------

namespace Shell

/- What the next word of a script is. After a closing
   parenthesis, there is none. -/
inductive Position
| command
| argument
| target (back : Position)
| closed
| beyond
deriving DecidableEq

/- The text of a word that nothing in is quoted. -/
def bareText : List Item → Option Text
| [] => some []
| .char false c :: items =>
    (bareText items).map fun text => c :: text
| .char true _ :: _ => none
| .value _ :: _ => none

/- The words that a command can follow. -/
def reserved : List Text :=
  [['!'], ['\x7b'], ['\x7d'], ['i', 'f'],
    ['t', 'h', 'e', 'n'], ['e', 'l', 'i', 'f'],
    ['e', 'l', 's', 'e'], ['f', 'i'], ['d', 'o'],
    ['d', 'o', 'n', 'e'], ['w', 'h', 'i', 'l', 'e'],
    ['u', 'n', 't', 'i', 'l']]

/- The words that are followed by other things. -/
def reservedBeyond : List Text :=
  [['f', 'o', 'r'], ['c', 'a', 's', 'e'], ['i', 'n'],
    ['e', 's', 'a', 'c']]

/- The word is one of these, and it is not quoted. -/
def isReserved (words : List Text) (items : List Item) :
    Bool :=
  match bareText items with
  | some text => words.contains text
  | none => false

/- What a variable's name is made of. -/
def isNameChar (c : Char) : Bool :=
  c.isAlphanum || c == '_'

/- The rest of a name, and an equals sign. -/
def assigns : List Item → Bool
| .char false c :: items =>
    c == '=' || (isNameChar c && assigns items)
| .char true _ :: _ => false
| .value _ :: _ => false
| [] => false

/- A name, an equals sign, and then anything. -/
def isAssignment : List Item → Bool
| .char false c :: items =>
    isNameChar c && !c.isDigit && assigns items
| .char true _ :: _ => false
| .value _ :: _ => false
| [] => false

/- The item stands for a value. -/
def Item.isValue : Item → Bool
| .char _ _ => false
| .value _ => true

/- A word that is not the name of a command. -/
def precedesCommand (items : List Item) : Bool :=
  isReserved reserved items || isAssignment items

/- A name is not made of values. -/
def isName (items : List Item) : Bool :=
  !isReserved reservedBeyond items &&
    !items.any Item.isValue

/- The operator is followed by a file. -/
def isRedirection : Text → Bool
| '<' :: _ => true
| '>' :: _ => true
| _ => false

namespace Position

/- What comes next is not known. -/
def isBeyond : Position → Bool
| .beyond => true
| .command | .argument | .target _ | .closed => false

/- What an operator or a newline makes of the position. -/
def afterControl (position : Position) : Control → Position
| .newline => .command
| .operator symbols =>
    if isRedirection symbols then
      .target position
    else if symbols = [')'] then
      .closed
    else
      .command

/- What a word makes of the position. -/
def afterWord (items : List Item) : Position → Position
| .command =>
    if precedesCommand items then
      .command
    else if isName items then
      .argument
    else
      .beyond
| .argument => .argument
| .target back => back
| .closed => .beyond
| .beyond => .beyond

/- A token, in the position it finds. -/
def step (position : Position) : Token Item → Position
| .word items => position.afterWord items
| .control kind =>
    if position.isBeyond then
      .beyond
    else
      position.afterControl kind

/- All the tokens, from a position on. -/
def after
    (position : Position) (tokens : List (Token Item)) :
    Position :=
  tokens.foldl step position

/- Tokens are passed one after the other. -/
theorem after_append
    (position : Position) (tokens more : List (Token Item)) :
    position.after (tokens ++ more) =
      (position.after tokens).after more :=
  List.foldl_append

/- Beyond what is followed there is no way back. -/
theorem step_beyond (token : Token Item) :
    Position.beyond.step token = .beyond := by
  cases token with
  | word items => rfl
  | control kind => rfl

/- However many tokens follow. -/
theorem after_beyond (tokens : List (Token Item)) :
    Position.beyond.after tokens = .beyond := by
  induction tokens with
  | nil => rfl
  | cons token tokens ih =>
      unfold after at ih ⊢
      rw [List.foldl_cons, step_beyond]
      exact ih

/- The name of a command, where a token is one. -/
def nameOf (position : Position) :
    Token Item → List (List Item)
| .word items =>
    if position = .command ∧ precedesCommand items = false then
      [items]
    else
      []
| .control _ => []

end Position

/- The names of the commands, in their order. -/
def commandNames :
    Position → List (Token Item) → List (List Item)
| _, [] => []
| position, token :: tokens =>
    position.nameOf token ++
      commandNames (position.step token) tokens

------------------------------------------------------------
-- Names and Values
------------------------------------------------------------

@[simp] theorem bareText_mask (items : List Item) :
    bareText (items.flatMap Item.mask) = bareText items := by
  induction items with
  | nil => rfl
  | cons item items ih =>
      rw [List.flatMap_cons]
      cases item with
      | char quotes c =>
          cases quotes with
          | false => exact congrArg (Option.map (c :: ·)) ih
          | true => rfl
      | value text => rfl

@[simp] theorem isReserved_mask
    (words : List Text) (items : List Item) :
    isReserved words (items.flatMap Item.mask) =
      isReserved words items := by
  unfold isReserved
  rw [bareText_mask]

/- Whether a word assigns does not turn on its data. -/
theorem assigns_mask (items : List Item) :
    assigns (items.flatMap Item.mask) = assigns items := by
  induction items with
  | nil => rfl
  | cons item items ih =>
      rw [List.flatMap_cons]
      cases item with
      | char quotes c =>
          cases quotes with
          | false =>
              exact congrArg
                (fun rest => c == '=' || (isNameChar c && rest))
                ih
          | true => rfl
      | value text => rfl

@[simp] theorem isAssignment_mask (items : List Item) :
    isAssignment (items.flatMap Item.mask) =
      isAssignment items := by
  cases items with
  | nil => rfl
  | cons item items =>
      rw [List.flatMap_cons]
      cases item with
      | char quotes c =>
          cases quotes with
          | false =>
              exact congrArg
                (fun rest =>
                  isNameChar c && !c.isDigit && rest)
                (assigns_mask items)
          | true => rfl
      | value text => rfl

@[simp] theorem any_isValue_mask (items : List Item) :
    (items.flatMap Item.mask).any Item.isValue =
      items.any Item.isValue := by
  induction items with
  | nil => rfl
  | cons item items ih =>
      rw [List.flatMap_cons, List.any_append, ih,
        List.any_cons]
      cases item with
      | char quotes c => rfl
      | value text => rfl

@[simp] theorem precedesCommand_mask (items : List Item) :
    precedesCommand (items.flatMap Item.mask) =
      precedesCommand items := by
  unfold precedesCommand
  rw [isReserved_mask, isAssignment_mask]

@[simp] theorem isName_mask (items : List Item) :
    isName (items.flatMap Item.mask) = isName items := by
  unfold isName
  rw [isReserved_mask, any_isValue_mask]

/- A name is the same without its data, as it has none. -/
theorem mask_of_isName
    {items : List Item} (hName : isName items = true) :
    items.flatMap Item.mask = items := by
  have hNone : ∀ item ∈ items, item.isValue = false := by
    unfold isName at hName
    simpa using (Bool.and_eq_true_iff.1 hName).2
  clear hName
  induction items with
  | nil => rfl
  | cons item items ih =>
      have hRest :=
        ih fun other hMem =>
          hNone other (List.mem_cons_of_mem item hMem)
      rw [List.flatMap_cons, hRest]
      cases item with
      | char quotes c => rfl
      | value text =>
          exact Bool.noConfusion
            (hNone (.value text) List.mem_cons_self)

namespace Position

/- Nor does the position after a token. -/
theorem step_mask
    (position : Position) (token : Token Item) :
    position.step token.mask = position.step token := by
  cases token with
  | control kind => rfl
  | word items =>
      cases position with
      | command =>
          unfold step Token.mask Token.spread afterWord
          simp only [precedesCommand_mask, isName_mask]
      | argument => rfl
      | target back => rfl
      | closed => rfl
      | beyond => rfl

/- Nor that after all of them. -/
theorem after_mask
    (position : Position) (tokens : List (Token Item)) :
    position.after (tokens.map Token.mask) =
      position.after tokens := by
  unfold after
  rw [List.foldl_map]
  simp only [step_mask]

/- The name of a command may hold data. -/
theorem nameOf_mask
    (position : Position) (token : Token Item) :
    position.nameOf token.mask =
      (position.nameOf token).map
        (List.flatMap Item.mask) := by
  cases token with
  | control kind => rfl
  | word items =>
      unfold nameOf Token.mask Token.spread
      simp only [precedesCommand_mask]
      split
      · rfl
      · rfl

/- What is taken for a name is one, or leads beyond. -/
theorem isName_of_mem_nameOf
    {position : Position} {token : Token Item}
    (hWithin : position.step token ≠ .beyond)
    {name : List Item} (hMem : name ∈ position.nameOf token) :
    isName name = true := by
  cases token with
  | control kind => exact absurd hMem List.not_mem_nil
  | word items =>
      rw [nameOf] at hMem
      split at hMem
      case isFalse => exact absurd hMem List.not_mem_nil
      case isTrue hCommand =>
          rw [List.mem_singleton] at hMem
          subst hMem
          rcases hCommand with ⟨rfl, hPrecedes⟩
          by_contra hName
          apply hWithin
          unfold step afterWord
          simp only [hPrecedes, hName, if_false,
            Bool.false_eq_true]

end Position

/- So the names are found at the same tokens. -/
theorem commandNames_mask
    (tokens : List (Token Item)) (position : Position) :
    commandNames position (tokens.map Token.mask) =
      (commandNames position tokens).map
        (List.flatMap Item.mask) := by
  induction tokens generalizing position with
  | nil => rfl
  | cons token tokens ih =>
      rw [List.map_cons, commandNames, commandNames,
        Position.nameOf_mask, Position.step_mask, ih,
        List.map_append]

/- No value is in the name of a command. -/
theorem isName_of_mem_commandNames
    {tokens : List (Token Item)} {position : Position}
    (hWithin : position.after tokens ≠ .beyond)
    {name : List Item}
    (hMem : name ∈ commandNames position tokens) :
    isName name = true := by
  induction tokens generalizing position with
  | nil => exact absurd hMem List.not_mem_nil
  | cons token tokens ih =>
      rw [commandNames, List.mem_append] at hMem
      rcases hMem with hHead | hRest
      · apply Position.isName_of_mem_nameOf _ hHead
        intro hBeyond
        apply hWithin
        unfold Position.after
        rw [List.foldl_cons, hBeyond]
        exact Position.after_beyond tokens
      · exact ih hWithin hRest

/- But within the script no name holds any. -/
theorem map_mask_commandNames
    {tokens : List (Token Item)} {position : Position}
    (hWithin : position.after tokens ≠ .beyond) :
    (commandNames position tokens).map
        (List.flatMap Item.mask) =
      commandNames position tokens := by
  have hSame :
      ∀ name ∈ commandNames position tokens,
        name.flatMap Item.mask = id name := by
    intro name hMem
    exact mask_of_isName
      (isName_of_mem_commandNames hWithin hMem)
  rw [List.map_congr_left hSame, List.map_id]

/- Scripts that differ in their data run the same commands. -/
theorem commandNames_eq_of_mask
    {tokens others : List (Token Item)}
    {position : Position}
    (hTokens : position.after tokens ≠ .beyond)
    (hOthers : position.after others ≠ .beyond)
    (hMask :
      tokens.map Token.mask = others.map Token.mask) :
    commandNames position tokens =
      commandNames position others := by
  rw [← map_mask_commandNames hTokens,
    ← map_mask_commandNames hOthers, ← commandNames_mask,
    ← commandNames_mask, hMask]

------------------------------------------------------------
-- Fragments in Sequence
------------------------------------------------------------

namespace Lexer

/- Some tokens more, before those that were read. -/
def precede
    (before : List (Token Item)) (s : Lexer Item) :
    Lexer Item :=
  { s with tokens := before ++ s.tokens }

/- Tokens read before are only kept. -/
theorem step_precede
    (before : List (Token Item)) (s : Lexer Item) (c : Char) :
    (s.precede before).step Item.char c =
      (s.step Item.char c).precede before := by
  simp only [step, carryOut, precede, List.append_assoc]
  rfl

/- Whatever text is read. -/
theorem foldl_step_precede
    (before : List (Token Item)) (text : Text)
    (s : Lexer Item) :
    text.foldl (step Item.char) (s.precede before) =
      (text.foldl (step Item.char) s).precede before := by
  induction text generalizing s with
  | nil => rfl
  | cons c text ih =>
      rw [List.foldl_cons, step_precede, ih]
      rfl

/- Whatever piece is read. -/
theorem readPiece_precede
    (before : List (Token Item)) (s : Lexer Item)
    (piece : Piece) :
    (s.precede before).readPiece piece =
      (s.readPiece piece).precede before := by
  cases piece with
  | literal text =>
      exact foldl_step_precede before text.toList s
  | value text =>
      have hSame :
          (s.precede before).quoting = s.quoting := rfl
      rw [readPiece, readPiece, hSame, step_precede]
      split
      · rfl
      · rfl

/- Whatever pieces are read. -/
theorem foldl_readPiece_precede
    (before : List (Token Item)) (pieces : List Piece)
    (s : Lexer Item) :
    pieces.foldl readPiece (s.precede before) =
      (pieces.foldl readPiece s).precede before := by
  induction pieces generalizing s with
  | nil => rfl
  | cons piece pieces ih =>
      rw [List.foldl_cons, readPiece_precede, ih]
      rfl

end Lexer

/- The tokens of whole fragments, put together. -/
theorem tokens_append
    {pieces : List Piece} (hWhole : Whole pieces)
    (more : List Piece) :
    tokens (pieces ++ more) =
      tokens pieces ++ tokens more := by
  have hStart :
      (⟨.blank, [], tokens pieces⟩ : Lexer Item) =
        Lexer.precede (tokens pieces) {} := by
    simp [Lexer.precede]
  have hFold :
      (pieces ++ more).foldl Lexer.readPiece {} =
        (more.foldl Lexer.readPiece {}).precede
          (tokens pieces) := by
    rw [List.foldl_append, foldl_readPiece_of_whole hWhole,
      hStart, Lexer.foldl_readPiece_precede]
  exact congrArg Lexer.tokens hFold

/- A whole fragment, by the position that it leads to. -/
structure Moves
    (before : Position) (fragment : Fragment)
    (position : Position) : Prop where
  whole : Whole fragment
  position : before.after (tokens fragment) = position

theorem moves_nil (position : Position) :
    Moves position [] position :=
  ⟨whole_nil, rfl⟩

/- One fragment takes up where another ends. -/
theorem Moves.append
    {before between position : Position}
    {fragment more : Fragment}
    (hFragment : Moves before fragment between)
    (hMore : Moves between more position) :
    Moves before (fragment ++ more) position := by
  constructor
  · exact whole_append hFragment.whole hMore.whole
  · rw [tokens_append hFragment.whole, Position.after_append,
      hFragment.position, hMore.position]

/- Lines after each other, whatever there are. -/
theorem moves_concat
    {position : Position} {fragments : List Fragment}
    (hMoves :
      ∀ fragment ∈ fragments,
        Moves position fragment position) :
    Moves position (concat fragments) position := by
  unfold concat
  induction fragments with
  | nil => exact moves_nil position
  | cons fragment fragments ih =>
      rw [List.flatten_cons]
      apply (hMoves fragment List.mem_cons_self).append
      apply ih
      intro other hMem
      exact hMoves other (List.mem_cons_of_mem _ hMem)

/- Fragments that return to a position, in a row. -/
theorem moves_flatMap
    {α : Type} {position : Position}
    {entries : List α} {f : α → Fragment}
    (hMoves :
      ∀ entry ∈ entries, Moves position (f entry) position) :
    Moves position (entries.flatMap f) position := by
  apply moves_concat
  intro fragment hMem
  rcases List.mem_map.1 hMem with ⟨entry, hEntry, rfl⟩
  exact hMoves entry hEntry

------------------------------------------------------------
-- Literal Text
------------------------------------------------------------

/- Pieces with their literal text spelled out, so that a
   reading can be computed, whatever the values are. -/
inductive Spelled : List Piece → List (Option Text) → Prop
| nil : Spelled [] []
| literal {text : Text} {pieces : List Piece}
    {spelled : List (Option Text)} :
    Spelled pieces spelled →
      Spelled (.literal (String.ofList text) :: pieces)
        (some text :: spelled)
| value {text : Text} {pieces : List Piece}
    {spelled : List (Option Text)} :
    Spelled pieces spelled →
      Spelled (.value text :: pieces) (none :: spelled)

/- What a reading has to remember of what it has read. -/
structure Track where
  quoting : Quoting
  position : Position
  word : List Item

namespace Track

/- The character is read, and the position follows. -/
def step (t : Track) (c : Char) : Track :=
  let reading := read t.quoting c
  { quoting := reading.next
    position :=
      (if reading.closes then
        t.position.afterWord t.word
      else
        t.position).after (reading.emits.map .control)
    word :=
      (if reading.closes then [] else t.word) ++
        reading.adds.map (.char t.quoting.quotes) }

/- A quoted value, of which only the quotes are read. -/
def readValue (t : Track) : Track :=
  if t.quoting.opens then
    { t.step '\'' with
      quoting := .word
      word := (t.step '\'').word ++ [.value []] }
  else
    { t with quoting := .beyond }

/- A step is taken when the one before it was computed. -/
def readText : Track → Text → Option Track
| t, [] => some t
| t, c :: text =>
    if t.position.isBeyond then
      none
    else
      (t.step c).readText text

/- Texts and values, in turn. -/
def readSpelled : Track → List (Option Text) → Option Track
| t, [] => some t
| t, some text :: spelled =>
    (t.readText text).bind fun t => t.readSpelled spelled
| t, none :: spelled => t.readValue.readSpelled spelled

end Track

namespace Lexer

/- What is left of a reader that has come so far. -/
def track (before : Position) (s : Lexer Item) : Track where
  quoting := s.quoting
  position := before.after s.tokens
  word := s.word

/- The track follows each character, -/
theorem track_step
    (before : Position) (s : Lexer Item) (c : Char) :
    (s.step Item.char c).track before =
      (s.track before).step c := by
  unfold step carryOut track Track.step
  simp only [Position.after_append]
  split
  · rfl
  · rfl

/- each value, -/
theorem track_readValue
    (before : Position) (s : Lexer Item) :
    (s.readPiece (.value [])).track before =
      (s.track before).readValue := by
  have hSame : (s.track before).quoting = s.quoting := rfl
  rw [readPiece, Track.readValue, hSame, ← track_step]
  split
  · rfl
  · rfl

/- and so a text, -/
theorem track_of_readText
    {before : Position} {text : Text} {s : Lexer Item}
    {t : Track}
    (hRead : (s.track before).readText text = some t) :
    (text.foldl (step Item.char) s).track before = t := by
  induction text generalizing s with
  | nil => exact Option.some.inj hRead
  | cons c text ih =>
      rw [Track.readText] at hRead
      split at hRead
      · cases hRead
      · rw [← track_step] at hRead
        exact ih hRead

/- and pieces whose texts are spelled out. -/
theorem track_of_readSpelled
    {pieces : List Piece} {spelled : List (Option Text)}
    (hSpelled : Spelled pieces spelled)
    {before : Position} {s : Lexer Item} {t : Track}
    (hRead :
      ((s.spread Item.mask).track before).readSpelled
        spelled = some t) :
    ((pieces.foldl readPiece s).spread Item.mask).track
        before = t := by
  induction hSpelled generalizing s with
  | nil => exact Option.some.inj hRead
  | @literal text pieces spelled _ ih =>
      rw [Track.readSpelled, Option.bind_eq_some_iff] at hRead
      rcases hRead with ⟨between, hText, hRest⟩
      apply ih
      rw [spread_mask_readPiece, Piece.mask, readPiece,
        String.toList_ofList, track_of_readText hText]
      exact hRest
  | value _ ih =>
      rw [Track.readSpelled, ← track_readValue] at hRead
      apply ih
      rw [spread_mask_readPiece]
      exact hRead

end Lexer

/- Between words, at a given position. -/
def Track.isAt (t : Track) (position : Position) : Bool :=
  t.quoting = .blank && t.position = position

/- Where a spelled text leads, computed. -/
def Track.leadsTo
    (t : Track) (spelled : List (Option Text))
    (position : Position) : Bool :=
  (t.readSpelled spelled).any fun t => t.isAt position

/- So the spelled fragment moves as its track does. -/
theorem moves_of_readSpelled
    {before position : Position}
    {fragment : Fragment} {spelled : List (Option Text)}
    (hSpelled : Spelled fragment spelled)
    (hMoves :
      Track.leadsTo ⟨.blank, before, []⟩ spelled position =
        true) :
    Moves before fragment position := by
  unfold Track.leadsTo at hMoves
  rw [Option.any_eq_true] at hMoves
  rcases hMoves with ⟨t, hRead, hAt⟩
  have hTrack :=
    @Lexer.track_of_readSpelled fragment spelled hSpelled
      before {} t hRead
  unfold Track.isAt at hAt
  simp only [Bool.and_eq_true, decide_eq_true_eq] at hAt
  rcases hAt with ⟨hBlank, hPosition⟩
  constructor
  · have hQuoting := congrArg Track.quoting hTrack
    unfold Whole
    rw [← Lexer.quoting_foldl_readPiece fragment {}]
    exact hQuoting.trans hBlank
  · rw [← hPosition, ← hTrack]
    exact (before.after_mask (tokens fragment)).symm

------------------------------------------------------------
-- Plain Text
------------------------------------------------------------

/- What separates words or quotes, and what starts other
   things than a word. -/
def special : Text :=
  [' ', '\t', '\n', '&', '|', ';', '<', '>', '(', ')', '#',
    '\'', '\"', '\\', '$', '\x60']

/- Characters that mean nothing to the shell. -/
def isPlain (c : Char) : Bool :=
  !special.contains c

/- A word that needs no quotes, or a part of one. -/
def IsPlain (text : Text) : Prop :=
  text ≠ [] ∧ ∀ c ∈ text, isPlain c = true

/- The same, as a check of a literal. -/
def isPlainText (text : Text) : Bool :=
  !text.isEmpty && text.all isPlain

/- The check decides plain texts. -/
theorem isPlain_of_isPlainText
    {text : Text} (hText : isPlainText text = true) :
    IsPlain text := by
  unfold isPlainText at hText
  simp only [Bool.and_eq_true, Bool.not_eq_true',
    List.isEmpty_eq_false_iff, List.all_eq_true] at hText
  exact hText

/- Plain characters after a plain text. -/
theorem isPlain_append
    {text more : Text} (hText : IsPlain text)
    (hMore : ∀ c ∈ more, isPlain c = true) :
    IsPlain (text ++ more) := by
  constructor
  · exact List.append_ne_nil_of_left_ne_nil hText.1 more
  · intro c hMem
    rcases List.mem_append.1 hMem with hLeft | hRight
    · exact hText.2 c hLeft
    · exact hMore c hRight

/- The characters of a literal, spelled out. -/
theorem isPlain_ofList
    {text : Text} (hText : isPlainText text = true) :
    IsPlain (String.ofList text).toList := by
  rw [String.toList_ofList]
  exact isPlain_of_isPlainText hText

/- Digits are plain. -/
theorem isPlain_of_isDigit
    {c : Char} (hDigit : c.isDigit = true) :
    isPlain c = true := by
  have hSpecial :
      special.all (fun c => !c.isDigit) = true := rfl
  unfold isPlain
  by_contra hContains
  have hMem : c ∈ special := by
    simpa using hContains
  have hOther := List.all_eq_true.1 hSpecial c hMem
  rw [hDigit] at hOther
  cases hOther

/- A plain character begins a word, -/
theorem readBegun_of_isPlain
    {c : Char} (hPlain : isPlain c = true) :
    readBegun c = { next := .word, adds := [c] } := by
  simp [isPlain, special] at hPlain
  simp [readBegun, hPlain]

/- also after a blank, -/
theorem readBlank_of_isPlain
    {c : Char} (hPlain : isPlain c = true) :
    readBlank c = { next := .word, adds := [c] } := by
  rw [← readBegun_of_isPlain hPlain]
  simp [isPlain, special] at hPlain
  simp [readBlank, isBlank, isOperator, hPlain]

/- and goes on with one. -/
theorem readWord_of_isPlain
    {c : Char} (hPlain : isPlain c = true) :
    readWord c = { next := .word, adds := [c] } := by
  rw [← readBegun_of_isPlain hPlain]
  simp [isPlain, special] at hPlain
  simp [readWord, isBlank, isOperator, hPlain]

namespace Track

/- So a plain text is one word. -/
theorem readText_of_isPlain
    {text : Text} (hPlain : ∀ c ∈ text, isPlain c = true)
    (word : List Item) :
    ∃ longer,
      readText ⟨.word, .argument, word⟩ text =
        some ⟨.word, .argument, longer⟩ := by
  induction text generalizing word with
  | nil => exact ⟨word, rfl⟩
  | cons c text ih =>
      have hRead :=
        readWord_of_isPlain (hPlain c List.mem_cons_self)
      have hStep :
          step ⟨.word, .argument, word⟩ c =
            ⟨.word, .argument, word ++ [.char false c]⟩ := by
        simp [step, read, hRead, Position.after,
          Quoting.quotes]
      rw [readText, hStep]
      apply ih
      intro other hMem
      exact hPlain other (List.mem_cons_of_mem c hMem)

/- Plain text is a word, or goes on with one. -/
theorem readText_plain
    {text : Text} (hPlain : IsPlain text)
    {quoting : Quoting}
    (hQuoting : quoting = .blank ∨ quoting = .word)
    (word : List Item) :
    ∃ longer,
      readText ⟨quoting, .argument, word⟩ text =
        some ⟨.word, .argument, longer⟩ := by
  rcases hPlain with ⟨hNonempty, hPlain⟩
  cases text with
  | nil => exact absurd rfl hNonempty
  | cons c text =>
      have hFirst := hPlain c List.mem_cons_self
      have hStep :
          step ⟨quoting, .argument, word⟩ c =
            ⟨.word, .argument, word ++ [.char false c]⟩ := by
        rcases hQuoting with rfl | rfl
        · simp [step, read, readBlank_of_isPlain hFirst,
            Position.after, Quoting.quotes]
        · simp [step, read, readWord_of_isPlain hFirst,
            Position.after, Quoting.quotes]
      rw [readText, hStep]
      apply readText_of_isPlain
      intro other hMem
      exact hPlain other (List.mem_cons_of_mem c hMem)

/- Spelled texts are read one after the other. -/
theorem readSpelled_append
    (spelled more : List (Option Text)) (t : Track) :
    t.readSpelled (spelled ++ more) =
      (t.readSpelled spelled).bind
        fun t => t.readSpelled more := by
  induction spelled generalizing t with
  | nil => rfl
  | cons text spelled ih =>
      cases text with
      | none => exact ih t.readValue
      | some text =>
          rw [List.cons_append, readSpelled, readSpelled,
            Option.bind_assoc]
          simp only [ih]

/- An argument is being read, or is about to be. -/
def inArgument (t : Track) : Bool :=
  (t.quoting = .blank || t.quoting = .word) &&
    t.position = .argument

end Track

/- And spell pieces put together. -/
theorem Spelled.append
    {pieces more : List Piece}
    {spelled others : List (Option Text)}
    (hPieces : Spelled pieces spelled)
    (hMore : Spelled more others) :
    Spelled (pieces ++ more) (spelled ++ others) := by
  induction hPieces with
  | nil => exact hMore
  | literal _ ih => exact .literal ih
  | value _ ih => exact .value ih

/- Plain text in an argument, whatever it is. -/
theorem moves_around
    {before position : Position}
    {first last : Fragment} {text : Text}
    {spelledFirst spelledLast : List (Option Text)}
    (hPlain : IsPlain text)
    (hFirst : Spelled first spelledFirst)
    (hLast : Spelled last spelledLast)
    (hBefore :
      (Track.readSpelled ⟨.blank, before, []⟩
        spelledFirst).any Track.inArgument = true)
    (hAfter :
      ∀ word,
        Track.leadsTo ⟨.word, .argument, word⟩ spelledLast
          position = true) :
    Moves before
      (first ++ .literal (String.ofList text) :: last)
      position := by
  apply moves_of_readSpelled (hFirst.append (.literal hLast))
  rw [Option.any_eq_true] at hBefore
  rcases hBefore with ⟨⟨_, _, word⟩, hRead, hArgument⟩
  unfold Track.inArgument at hArgument
  simp only [Bool.and_eq_true, Bool.or_eq_true,
    decide_eq_true_eq] at hArgument
  rcases hArgument with ⟨hQuoting, rfl⟩
  obtain ⟨word, hText⟩ :=
    Track.readText_plain hPlain hQuoting word
  have hRest := hAfter word
  unfold Track.leadsTo at hRest ⊢
  rw [Track.readSpelled_append, hRead, Option.bind_some,
    Track.readSpelled, hText, Option.bind_some]
  exact hRest

end Shell
