import CargoUnikernel.Library.Text

/-
  How a POSIX shell takes a script apart.

  A character is read by what came before it: between words,
  in an operator, in a word, in quotes or in a comment. The
  commands of a substitution are read where they stand.
  What is read by rules of its own (here-documents,
  backquotes, arithmetic, substitutions and quotes inside
  other quotes, joined lines) is beyond this reading.

  Main declarations:
    * `Quoting`, `Reading`, `read`, `Quoting.after`
    * `Token`, `Lexer`, `Lexer.step`, `lex`
    * `shellQuote`, `foldl_step_shellQuote`
    * `Lexer.spread`, `spread_foldl_step`
-/

------------------------------------------------------------
-- Reading a Character
------------------------------------------------------------

namespace Shell

/- Where in the script a character is. -/
inductive Quoting
| blank
| operator (symbol : Char)
| word
| dollar
| parameter
| escaped
| single
| double
| doubleDollar
| doubleParameter
| doubleEscaped
| comment
| beyond
deriving DecidableEq

/- The tokens that are not words. -/
inductive Control
| operator (symbols : Text)
| newline
deriving DecidableEq

/- What reading a character does. -/
structure Reading where
  next : Quoting
  closes : Bool := false
  emits : List Control := []
  adds : Text := []

/- What separates words. -/
def isBlank (c : Char) : Bool :=
  c == ' ' || c == '\t'

/- The characters that operators are made of. -/
def isOperator (c : Char) : Bool :=
  c == '&' || c == '|' || c == ';' || c == '<' ||
    c == '>' || c == '(' || c == ')'

/- In a word and not quoted, what does not end the word. -/
def readBegun (c : Char) : Reading :=
  if c = '\'' then
    { next := .single }
  else if c = '\"' then
    { next := .double }
  else if c = '\\' then
    { next := .escaped }
  else if c = '$' then
    { next := .dollar, adds := [c] }
  else if c = '\x60' then
    { next := .beyond }
  else
    { next := .word, adds := [c] }

/- Between words. -/
def readBlank (c : Char) : Reading :=
  if isBlank c then
    { next := .blank }
  else if c = '\n' then
    { next := .blank, emits := [.newline] }
  else if isOperator c then
    { next := .operator c }
  else if c = '#' then
    { next := .comment }
  else
    readBegun c

/- In a word and not quoted. -/
def readWord (c : Char) : Reading :=
  if isBlank c || c == '\n' || isOperator c then
    { readBlank c with closes := true }
  else
    readBegun c

/- Two characters that are one operator. -/
def extendsOperator (symbol c : Char) : Bool :=
  (symbol == '&' && c == '&') ||
    (symbol == '|' && c == '|') ||
    (symbol == ';' && c == ';') ||
    (symbol == '<' && (c == '&' || c == '>')) ||
    (symbol == '>' && (c == '&' || c == '>' || c == '|'))

/- A here-document or arithmetic. -/
def leadsBeyond (symbol c : Char) : Bool :=
  (symbol == '<' && c == '<') || (symbol == '(' && c == '(')

/- A second character, or the end of the operator. -/
def readOperator (symbol c : Char) : Reading :=
  if leadsBeyond symbol c then
    { next := .beyond }
  else if extendsOperator symbol c then
    { next := .blank, emits := [.operator [symbol, c]] }
  else
    { readBlank c with
      emits := .operator [symbol] :: (readBlank c).emits }

/- After a dollar sign in a word that is not quoted. -/
def readDollar (c : Char) : Reading :=
  if c = '\'' ∨ c = '\"' then
    { next := .beyond }
  else if c = '\x7b' then
    { next := .parameter, adds := [c] }
  else
    readWord c

/- In braces after a dollar sign, without quotes in them. -/
def readParameter (inside outside : Quoting) (c : Char) :
    Reading :=
  if c = '\x7d' then
    { next := outside, adds := [c] }
  else if c = '\'' ∨ c = '\"' ∨ c = '\\' ∨ c = '$' ∨
      c = '\x60' ∨ c = '\n' then
    { next := .beyond }
  else
    { next := inside, adds := [c] }

/- A line that goes on is beyond what is read here. -/
def readEscaped (c : Char) : Reading :=
  if c = '\n' then
    { next := .beyond }
  else
    { next := .word, adds := [c] }

/- All is literal, up to the closing quote. -/
def readSingle (c : Char) : Reading :=
  if c = '\'' then
    { next := .word }
  else
    { next := .single, adds := [c] }

/- Three characters mean something, the rest does not. -/
def readDouble (c : Char) : Reading :=
  if c = '\"' then
    { next := .word }
  else if c = '\\' then
    { next := .doubleEscaped }
  else if c = '$' then
    { next := .doubleDollar, adds := [c] }
  else if c = '\x60' then
    { next := .beyond }
  else
    { next := .double, adds := [c] }

/- A parameter in quotes; a command is beyond. -/
def readDoubleDollar (c : Char) : Reading :=
  if c = '(' then
    { next := .beyond }
  else if c = '\x7b' then
    { next := .doubleParameter, adds := [c] }
  else
    readDouble c

/- A backslash stays where it does not escape anything. -/
def readDoubleEscaped (c : Char) : Reading :=
  if c = '\n' then
    { next := .beyond }
  else if c = '$' ∨ c = '\x60' ∨ c = '\"' ∨ c = '\\' then
    { next := .double, adds := [c] }
  else
    { next := .double, adds := ['\\', c] }

/- Up to the end of the line. -/
def readComment (c : Char) : Reading :=
  if c = '\n' then
    { next := .blank, emits := [.newline] }
  else
    { next := .comment }

/- A character, in the state it finds. -/
def read : Quoting → Char → Reading
| .blank, c => readBlank c
| .operator symbol, c => readOperator symbol c
| .word, c => readWord c
| .dollar, c => readDollar c
| .parameter, c => readParameter .parameter .word c
| .escaped, c => readEscaped c
| .single, c => readSingle c
| .double, c => readDouble c
| .doubleDollar, c => readDoubleDollar c
| .doubleParameter, c =>
    readParameter .doubleParameter .double c
| .doubleEscaped, c => readDoubleEscaped c
| .comment, c => readComment c
| .beyond, _ => { next := .beyond }

/- Whether what is added to a word here is quoted. -/
def Quoting.quotes : Quoting → Bool
| .escaped | .single | .double | .doubleDollar
| .doubleParameter | .doubleEscaped => true
| .blank | .operator _ | .word | .dollar | .parameter
| .comment | .beyond => false

/- Where a text leads to. -/
def Quoting.after (quoting : Quoting) (s : Text) : Quoting :=
  s.foldl (fun quoting c => (read quoting c).next) quoting

@[simp] theorem Quoting.after_nil (quoting : Quoting) :
    quoting.after [] = quoting := rfl

@[simp] theorem Quoting.after_cons
    (quoting : Quoting) (c : Char) (s : Text) :
    quoting.after (c :: s) =
      (read quoting c).next.after s := rfl

theorem Quoting.after_append
    (quoting : Quoting) (s t : Text) :
    quoting.after (s ++ t) = (quoting.after s).after t :=
  List.foldl_append

/- Nothing leads back from beyond. -/
theorem Quoting.after_beyond (s : Text) :
    Quoting.beyond.after s = .beyond := by
  induction s with
  | nil => rfl
  | cons c s ih => exact ih

------------------------------------------------------------
-- Tokens
------------------------------------------------------------

/- A word is a list of what was put in it. -/
inductive Token (α : Type)
| word (contents : List α)
| control (kind : Control)
deriving DecidableEq

/- Where the reading is, the word that is being read, and
   the tokens before it. -/
structure Lexer (α : Type) where
  quoting : Quoting := .blank
  word : List α := []
  tokens : List (Token α) := []

namespace Lexer

variable {α β : Type}

/- What a reading does, characters being put into words by
   way of `inject`. -/
def carryOut
    (inject : Char → α) (s : Lexer α) (reading : Reading) :
    Lexer α where
  quoting := reading.next
  word :=
    (if reading.closes then [] else s.word) ++
      reading.adds.map inject
  tokens :=
    s.tokens ++
      (if reading.closes then [.word s.word] else []) ++
      reading.emits.map .control

/- The character is read, and what it gives is kept. -/
def step
    (inject : Bool → Char → α) (s : Lexer α) (c : Char) :
    Lexer α :=
  s.carryOut (inject s.quoting.quotes) (read s.quoting c)

/- All tokens, unless the text ends in quotes or beyond. -/
def done (s : Lexer α) : Option (List (Token α)) :=
  match s.quoting with
  | .blank | .comment => some s.tokens
  | .operator symbol =>
      some (s.tokens ++ [.control (.operator [symbol])])
  | .word | .dollar => some (s.tokens ++ [.word s.word])
  | .parameter | .escaped | .single | .double
  | .doubleDollar | .doubleParameter | .doubleEscaped
  | .beyond => none

@[simp] theorem quoting_step
    (inject : Bool → Char → α) (s : Lexer α) (c : Char) :
    (s.step inject c).quoting =
      (read s.quoting c).next := rfl

theorem quoting_foldl_step
    (inject : Bool → Char → α) (text : Text) (s : Lexer α) :
    (text.foldl (step inject) s).quoting =
      s.quoting.after text := by
  induction text generalizing s with
  | nil => rfl
  | cons c text ih => exact ih (s.step inject c)

end Lexer

/- A character as it is, quoted or not. -/
def unquoted (_ : Bool) (c : Char) : Char := c

/- The tokens of a text, with the quotes removed. -/
def lex (text : Text) : Option (List (Token Char)) :=
  (text.foldl (Lexer.step unquoted) {}).done

example :
    lex "a 'b c'>>\"$d\";\n".toList =
      some
        [.word ['a'], .word ['b', ' ', 'c'],
          .control (.operator ['>', '>']),
          .word ['$', 'd'], .control (.operator [';']),
          .control .newline] := by
  decide

------------------------------------------------------------
-- Quoting a Value
------------------------------------------------------------

/- Every quote is escaped outside of the quotes. -/
def escapeQuotes (value : Text) : Text :=
  value.flatMap fun c =>
    if c = '\'' then ['\'', '\\', '\'', '\''] else [c]

/- In single quotes, with those of its own escaped. -/
def shellQuote (value : Text) : Text :=
  '\'' :: (escapeQuotes value ++ ['\''])

@[simp] theorem escapeQuotes_nil : escapeQuotes [] = [] := rfl

theorem escapeQuotes_cons (c : Char) (value : Text) :
    escapeQuotes (c :: value) =
      (if c = '\'' then ['\'', '\\', '\'', '\''] else [c]) ++
        escapeQuotes value :=
  List.flatMap_cons

/- Where quotes can be opened: not after a dollar sign. -/
def Quoting.opens : Quoting → Bool
| .blank | .operator _ | .word => true
| .dollar | .parameter | .escaped | .single | .double
| .doubleDollar | .doubleParameter | .doubleEscaped
| .comment | .beyond => false

theorem next_of_opens
    {quoting : Quoting} (hOpens : quoting.opens = true) :
    (read quoting '\'').next = .single := by
  cases quoting with
  | blank => rfl
  | word => rfl
  | operator symbol =>
      have hBeyond : leadsBeyond symbol '\'' = false := by
        simp [leadsBeyond]
      have hExtends : extendsOperator symbol '\'' = false := by
        simp [extendsOperator]
      change (readOperator symbol '\'').next = .single
      unfold readOperator
      rw [hBeyond, hExtends]
      rfl
  | _ => cases hOpens

theorem readSingle_of_ne
    {c : Char} (hQuote : c ≠ '\'') :
    readSingle c = { next := .single, adds := [c] } :=
  if_neg hQuote

namespace Lexer

/- In quotes, a value is added to the word as it is. -/
theorem foldl_step_escapeQuotes
    (value word : Text) (tokens : List (Token Char)) :
    (escapeQuotes value).foldl (step unquoted)
        ⟨.single, word, tokens⟩ =
      ⟨.single, word ++ value, tokens⟩ := by
  induction value generalizing word with
  | nil => simp
  | cons c value ih =>
      rw [escapeQuotes_cons, List.foldl_append]
      have hHead :
          (if c = '\'' then
              ['\'', '\\', '\'', '\'']
            else
              [c]).foldl (step unquoted)
                ⟨.single, word, tokens⟩ =
            ⟨.single, word ++ [c], tokens⟩ := by
        split
        case isTrue hQuote =>
            subst hQuote
            simp [step, carryOut, read, readSingle, readWord,
              readBegun, readEscaped, isBlank, isOperator,
              unquoted]
        case isFalse hQuote =>
            simp [step, carryOut, read,
              readSingle_of_ne hQuote, unquoted]
      rw [hHead, ih, List.append_assoc]
      rfl

/- A quoted value, from where its quotes can be opened. -/
theorem foldl_step_shellQuote
    (s : Lexer Char) (hOpens : s.quoting.opens = true)
    (value : Text) :
    (shellQuote value).foldl (step unquoted) s =
      { s.step unquoted '\'' with
        quoting := .word
        word := (s.step unquoted '\'').word ++ value } := by
  have hOpened :
      s.step unquoted '\'' =
        ⟨.single, (s.step unquoted '\'').word,
          (s.step unquoted '\'').tokens⟩ := by
    rw [← next_of_opens hOpens]
    rfl
  unfold shellQuote
  rw [List.foldl_cons, List.foldl_append, hOpened,
    foldl_step_escapeQuotes]
  simp [step, carryOut, read, readSingle]

end Lexer

/- A quoted value is one word, the value itself. -/
theorem lex_shellQuote (value : Text) :
    lex (shellQuote value) = some [.word value] := by
  unfold lex
  rw [Lexer.foldl_step_shellQuote {} rfl value]
  rfl

theorem Quoting.after_shellQuote
    {quoting : Quoting} (hOpens : quoting.opens = true)
    (value : Text) :
    quoting.after (shellQuote value) = .word := by
  have hFold :=
    Lexer.foldl_step_shellQuote ⟨quoting, [], []⟩ hOpens value
  rw [← Lexer.quoting_foldl_step unquoted (shellQuote value)
    ⟨quoting, [], []⟩, hFold]

------------------------------------------------------------
-- Words of Other Contents
------------------------------------------------------------

variable {α β : Type}

/- Every entry of a word is replaced by some others. -/
def Token.spread (f : α → List β) : Token α → Token β
| .word contents => .word (contents.flatMap f)
| .control kind => .control kind

namespace Lexer

/- Every symbol becomes a list of others. -/
def spread (f : α → List β) (s : Lexer α) : Lexer β where
  quoting := s.quoting
  word := s.word.flatMap f
  tokens := s.tokens.map (Token.spread f)

theorem spread_carryOut
    {f : α → List β} {inject : Char → α}
    {injectTo : Char → β}
    (hInject : ∀ c, f (inject c) = [injectTo c])
    (s : Lexer α) (reading : Reading) :
    (s.carryOut inject reading).spread f =
      (s.spread f).carryOut injectTo reading := by
  have hAdds :
      (reading.adds.map inject).flatMap f =
        reading.adds.map injectTo := by
    rw [List.flatMap_map]
    simp only [hInject]
    exact List.map_eq_flatMap.symm
  unfold spread carryOut
  cases reading.closes with
  | true =>
      simp [hAdds, Token.spread, Function.comp_def]
  | false =>
      simp [hAdds, Token.spread, Function.comp_def]

/- Reading goes on in the same way after a replacement. -/
theorem spread_step
    {f : α → List β} {inject : Bool → Char → α}
    {injectTo : Bool → Char → β}
    (hInject :
      ∀ quotes c,
        f (inject quotes c) = [injectTo quotes c])
    (s : Lexer α) (c : Char) :
    (s.step inject c).spread f =
      (s.spread f).step injectTo c :=
  spread_carryOut (hInject s.quoting.quotes) s
    (read s.quoting c)

theorem spread_foldl_step
    {f : α → List β} {inject : Bool → Char → α}
    {injectTo : Bool → Char → β}
    (hInject :
      ∀ quotes c,
        f (inject quotes c) = [injectTo quotes c])
    (text : Text) (s : Lexer α) :
    (text.foldl (step inject) s).spread f =
      text.foldl (step injectTo) (s.spread f) := by
  induction text generalizing s with
  | nil => rfl
  | cons c text ih =>
      rw [List.foldl_cons, List.foldl_cons, ih,
        spread_step hInject]

end Lexer

end Shell
