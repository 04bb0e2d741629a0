import CargoUnikernel.Library.Fallible
import CargoUnikernel.Library.LastWrite
import CargoUnikernel.Library.Text

/-
  The Kconfig fragments as `build_kernel.sh` reads them.

  Every fragment is read line by line into one table of
  directives, where a later line overrides an earlier one
  with the same key. What a line says is defined apart from
  the way it is read, and the two are compared.

  Main declarations:
    * `Directive`, `Says`, `Malformed`
    * `readLine`, `parseFragment`, `parseFragments`
    * `parseFragments_eq_ok_iff`
    * `NulHarmless`, `value_of_parseFragments`
    * `parseFragments_of_malformed`
-/

------------------------------------------------------------
-- Keys and Directives
------------------------------------------------------------

namespace CargoUnikernel

namespace BuildKernel

/- The name of an option, with its `CONFIG_`. -/
abbrev Key := Text

/- `[[:space:]]` in the C locale. -/
def isSpace (c : Char) : Bool :=
  c = ' ' || (9 ≤ c.toNat && c.toNat ≤ 13)

/- `[A-Z0-9_]`. -/
def isSymbolChar (c : Char) : Bool :=
  ('A' ≤ c && c ≤ 'Z') || ('0' ≤ c && c ≤ '9') || c = '_'

/- `^CONFIG_[A-Z0-9_]+$`. -/
def isKey (key : Text) : Bool :=
  match Text.stripPrefix "CONFIG_".toList key with
  | some rest => rest ≠ [] && rest.all isSymbolChar
  | none => false

/- What a fragment says of an option. -/
inductive Directive
| enable
| disable
| setStr (value : Text)
| setVal (value : Text)
deriving DecidableEq, Repr

namespace Directive

/- As it is written in a fragment. -/
def text : Directive → Text
| enable => "enable".toList
| disable => "disable".toList
| setStr value => "set-str:".toList ++ value
| setVal value => "set-val:".toList ++ value

/- The patterns `enable|disable|set-str:*|set-val:*`. -/
def read (s : Text) : Option Directive :=
  if s = "enable".toList then
    some enable
  else if s = "disable".toList then
    some disable
  else
    match Text.stripPrefix "set-str:".toList s with
    | some value => some (setStr value)
    | none =>
        (Text.stripPrefix "set-val:".toList s).map setVal

/- What is written is read back. -/
theorem read_text (directive : Directive) :
    read directive.text = some directive := by
  cases directive with
  | enable => rfl
  | disable => rfl
  | setStr value => rfl
  | setVal value => rfl

/- And nothing else is read. -/
theorem read_eq_some_iff
    {s : Text} {directive : Directive} :
    read s = some directive ↔ s = directive.text := by
  constructor
  · intro hRead
    unfold read at hRead
    split at hRead
    · cases hRead
      assumption
    · split at hRead
      · cases hRead
        assumption
      · split at hRead
        · rename_i value hPrefix
          cases hRead
          exact Text.stripPrefix_eq_some_iff.1 hPrefix
        · rw [Option.map_eq_some_iff] at hRead
          rcases hRead with ⟨value, hPrefix, hEq⟩
          rw [← hEq]
          exact Text.stripPrefix_eq_some_iff.1 hPrefix
  · intro hText
    rw [hText]
    exact read_text directive

end Directive

/- A key has no character but those the pattern names. -/
theorem isSymbolChar_of_mem_key
    {key : Key} (hKey : isKey key = true)
    {c : Char} (hMem : c ∈ key) :
    isSymbolChar c = true := by
  unfold isKey at hKey
  split at hKey
  · rename_i rest hPrefix
    rw [Text.stripPrefix_eq_some_iff.1 hPrefix,
      List.mem_append] at hMem
    rw [Bool.and_eq_true, List.all_eq_true] at hKey
    have hWord :
        "CONFIG_".toList.all isSymbolChar = true := by
      decide
    rcases hMem with hWordMem | hRest
    · exact List.all_eq_true.1 hWord c hWordMem
    · exact hKey.2 c hRest
  · cases hKey

/- The first `=` ends the option's name. -/
theorem equals_not_mem_key
    {key : Key} (hKey : isKey key = true) :
    '=' ∉ key := by
  intro hMem
  have hChar := isSymbolChar_of_mem_key hKey hMem
  revert hChar
  decide

/- A line with a name is no comment. -/
theorem head_of_isKey
    {key : Key} (hKey : isKey key = true) :
    ∃ rest, key = 'C' :: rest := by
  unfold isKey at hKey
  split at hKey
  · rename_i rest hPrefix
    exact ⟨"ONFIG_".toList ++ rest,
      Text.stripPrefix_eq_some_iff.1 hPrefix⟩
  · cases hKey

------------------------------------------------------------
-- What a Line Says
------------------------------------------------------------

/- A carriage return at the end and space at both ends go. -/
def strip (line : Text) : Text :=
  let line :=
    if line.getLast? = some '\r' then line.dropLast else line
  let line := line.dropWhile isSpace
  (line.reverse.dropWhile isSpace).reverse

/- The line is `KEY=directive`. -/
def Says
    (line : Text) (key : Key) (directive : Directive) : Prop :=
  strip line = key ++ '=' :: directive.text ∧
    isKey key = true

/- The line is blank or a comment. -/
def Skipped (line : Text) : Prop :=
  strip line = [] ∨ (strip line).head? = some '#'

instance (line : Text) : Decidable (Skipped line) :=
  inferInstanceAs (Decidable (_ ∨ _))

/- The line is neither. -/
def Malformed (line : Text) : Prop :=
  ¬ Skipped line ∧ ∀ key directive, ¬ Says line key directive

/- Why a fragment is refused. -/
inductive FragmentError
| unreadable (path : Text)
| malformedLine (path line : Text)
| invalidKey (path key : Text)
| unrecognizedDirective (directive key path : Text)
deriving DecidableEq, Repr

/- One turn of the loop over the lines of a fragment. -/
def readLine
    (path line : Text) :
    Except FragmentError (Option (Key × Directive)) :=
  if Skipped line then
    .ok none
  else
    match Text.splitOnce '=' (strip line) with
    | none => .error (.malformedLine path (strip line))
    | some (key, directive) =>
        if isKey key then
          match Directive.read directive with
          | some read => .ok (some (key, read))
          | none =>
              .error (.unrecognizedDirective directive key path)
        else
          .error (.invalidKey path key)

/- A line that says something is not passed over. -/
theorem Says.not_skipped
    {line : Text} {key : Key} {directive : Directive}
    (hSays : Says line key directive) :
    ¬ Skipped line := by
  obtain ⟨rest, hKey⟩ := head_of_isKey hSays.2
  unfold Skipped
  rw [hSays.1, hKey]
  simp

/- When a line is read, and as what. -/
theorem readLine_eq_ok_some_iff
    {path line : Text} {key : Key} {directive : Directive} :
    readLine path line = .ok (some (key, directive)) ↔
      Says line key directive := by
  constructor
  · intro hRead
    unfold readLine at hRead
    split at hRead
    · cases hRead
    · split at hRead
      · cases hRead
      · rename_i hSplit
        split at hRead
        · rename_i hKey
          split at hRead
          · rename_i hDirective
            cases hRead
            rw [Directive.read_eq_some_iff] at hDirective
            refine ⟨?_, hKey⟩
            rw [Text.eq_of_splitOnce hSplit, hDirective]
          · cases hRead
        · cases hRead
  · intro hSays
    have hSplit :=
      Text.splitOnce_append (equals_not_mem_key hSays.2)
        directive.text
    unfold readLine
    rw [if_neg (Says.not_skipped hSays), hSays.1, hSplit]
    simp [hSays.2, Directive.read_text]

/- When a line is passed over. -/
theorem readLine_eq_ok_none_iff
    {path line : Text} :
    readLine path line = .ok none ↔ Skipped line := by
  constructor
  · intro hRead
    by_contra hNot
    unfold readLine at hRead
    rw [if_neg hNot] at hRead
    split at hRead
    · cases hRead
    · split at hRead
      · split at hRead
        · cases hRead
        · cases hRead
      · cases hRead
  · intro hSkipped
    exact if_pos hSkipped

/- The loop is left with an error exactly at such a line. -/
theorem not_malformed_iff
    {path line : Text} :
    ¬ Malformed line ↔ ∃ said, readLine path line = .ok said := by
  constructor
  · intro hNot
    cases hRead : readLine path line with
    | ok said => exact ⟨said, rfl⟩
    | error error =>
        refine absurd ⟨?_, ?_⟩ hNot
        · intro hSkipped
          rw [readLine_eq_ok_none_iff.2 hSkipped] at hRead
          cases hRead
        · intro key directive hSays
          rw [readLine_eq_ok_some_iff.2 hSays] at hRead
          cases hRead
  · rintro ⟨said, hRead⟩ hMalformed
    cases said with
    | none =>
        exact hMalformed.1 (readLine_eq_ok_none_iff.1 hRead)
    | some write =>
        exact hMalformed.2 _ _
          (readLine_eq_ok_some_iff.1 hRead)

/- The write that a line is, if it is one. -/
def said (line : Text) : Option (Key × Directive) :=
  match readLine [] line with
  | .ok said => said
  | .error _ => none

/- The same, for lines that may be malformed. -/
theorem said_eq_some_iff
    {line : Text} {key : Key} {directive : Directive} :
    said line = some (key, directive) ↔
      Says line key directive := by
  rw [← @readLine_eq_ok_some_iff []]
  unfold said
  split
  · rename_i hRead
    rw [hRead, Except.ok.injEq]
  · rename_i hRead
    rw [hRead]
    simp

/- No value has a newline, as no line has. -/
theorem Says.newline_not_mem
    {line : Text} {key : Key} {directive : Directive}
    (hLine : '\n' ∉ line)
    (hSays : Says line key directive) :
    '\n' ∉ key ∧ '\n' ∉ directive.text := by
  have hStrip : ∀ c ∈ strip line, c ∈ line := by
    intro c hMem
    unfold strip at hMem
    rw [List.mem_reverse] at hMem
    have hFront :=
      List.mem_reverse.1 (List.dropWhile_subset _ hMem)
    have hBack := List.dropWhile_subset _ hFront
    split at hBack
    · exact List.dropLast_subset _ hBack
    · exact hBack
  constructor
  · intro hMem
    apply hLine
    apply hStrip
    rw [hSays.1]
    exact List.mem_append_left _ hMem
  · intro hMem
    apply hLine
    apply hStrip
    rw [hSays.1]
    exact List.mem_append_right _
      (List.mem_cons_of_mem _ hMem)

------------------------------------------------------------
-- Parsing
------------------------------------------------------------

/- The last directive for an option counts. -/
abbrev Directives := WriteTable Key Directive

/- The shell's variables hold no NUL: `read` drops it. -/
def dropNul (s : Text) : Text :=
  s.filter fun c => c ≠ '\x00'

/- `while IFS= read -r line || [ -n "$line" ]`. -/
def readLines (s : Text) : List Text :=
  Text.records (dropNul s)

/- The lines of one fragment, up to the first bad one. -/
def parseLines
    (path : Text) :
    List Text → Directives →
      Except FragmentError Directives
| [], t => .ok t
| line :: lines, t => do
    match ← readLine path line with
    | none => parseLines path lines t
    | some (key, directive) =>
        parseLines path lines (t.write key directive)

section Files

/- The files that can be read, by their paths. -/
variable (files : Text → Option Text)

/- A fragment that cannot be read is an error. -/
def parseFragment
    (path : Text) (t : Directives) :
    Except FragmentError Directives :=
  match files path with
  | none => .error (.unreadable path)
  | some s => parseLines path (readLines s) t

/- One fragment after another; later ones win. -/
def parseFragments :
    List Text → Directives →
      Except FragmentError Directives
| [], t => .ok t
| path :: paths, t => do
    let u ← parseFragment files path t
    parseFragments paths u

end Files

/- What is read is what the line says. -/
theorem said_of_readLine
    {path line : Text} {write : Option (Key × Directive)}
    (hRead : readLine path line = .ok write) :
    said line = write := by
  cases write with
  | none =>
      rw [Option.eq_none_iff_forall_ne_some]
      rintro ⟨key, directive⟩ hSaid
      rw [said_eq_some_iff] at hSaid
      exact Says.not_skipped hSaid
        (readLine_eq_ok_none_iff.1 hRead)
  | some write =>
      rw [said_eq_some_iff]
      exact readLine_eq_ok_some_iff.1 hRead

/- A line that is read makes its write, if it is one. -/
theorem parseLines_cons_of_read
    {path line : Text} {write : Option (Key × Directive)}
    (hRead : readLine path line = .ok write)
    (lines : List Text) (t : Directives) :
    parseLines path (line :: lines) t =
      parseLines path lines (t.writeAll write.toList) := by
  rw [parseLines, hRead, Fallible.ok_bind]
  cases write with
  | none => rfl
  | some write => rfl

/- The lines are all read, and the writes among them made. -/
theorem parseLines_eq_ok_iff
    {path : Text} {lines : List Text} {t u : Directives} :
    parseLines path lines t = .ok u ↔
      (∀ line ∈ lines, ¬ Malformed line) ∧
        u = t.writeAll (lines.filterMap said) := by
  induction lines generalizing t with
  | nil =>
      simp [parseLines, WriteTable.writeAll, eq_comm]
  | cons line lines ih =>
      rw [List.forall_mem_cons, @not_malformed_iff path]
      cases hRead : readLine path line with
      | error error =>
          have hFail :
              parseLines path (line :: lines) t =
                .error error := by
            rw [parseLines, hRead, Fallible.error_bind]
          simp [hFail]
      | ok write =>
          have hWrites :
              (line :: lines).filterMap said =
                write.toList ++ lines.filterMap said := by
            have hSaid := said_of_readLine hRead
            cases write with
            | none => exact List.filterMap_cons_none hSaid
            | some write =>
                exact List.filterMap_cons_some hSaid
          rw [parseLines_cons_of_read hRead, ih, hWrites,
            WriteTable.writeAll_append]
          simp

------------------------------------------------------------
-- All the Fragments
------------------------------------------------------------

section Files

variable (files : Text → Option Text)

/- The lines of the fragments, as the files have them. -/
def fragmentLines (paths : List Text) : List Text :=
  paths.flatMap fun path =>
    ((files path).map (Text.split '\n')).getD []

/- The writes of the fragments, one after another. -/
def writes (paths : List Text) : List (Key × Directive) :=
  (fragmentLines files paths).filterMap said

/- Without its NULs, every line still says the same. -/
def NulHarmless (paths : List Text) : Prop :=
  ∀ line ∈ fragmentLines files paths,
    (Malformed (dropNul line) ↔ Malformed line) ∧
      said (dropNul line) = said line

/- An empty line says nothing, so that all lines are read. -/
theorem filterMap_said_records (s : Text) :
    (Text.records s).filterMap said =
      (Text.split '\n' s).filterMap said := by
  unfold Text.records Text.lines
  split
  · rename_i hLast
    have hParts := List.dropLast_append_getLast? [] hLast
    conv_rhs => rw [← hParts]
    rw [List.filterMap_append]
    have hEmpty : [([] : Text)].filterMap said = [] := by
      decide
    rw [hEmpty, List.append_nil]
  · rfl

/- An empty last line does no harm. -/
theorem malformed_records_iff (s : Text) :
    (∀ line ∈ Text.records s, ¬ Malformed line) ↔
      ∀ line ∈ Text.split '\n' s, ¬ Malformed line := by
  constructor
  · intro hRecords line hLine
    by_cases hEmpty : line = []
    · rintro ⟨hNot, _⟩
      rw [hEmpty] at hNot
      exact hNot (.inl rfl)
    · exact hRecords line ((Text.mem_records_iff hEmpty).2 hLine)
  · intro hSplit line hLine
    exact hSplit line (Text.mem_split_of_mem_records hLine)

/- The lines of a text without its NULs. -/
theorem split_dropNul (s : Text) :
    Text.split '\n' (dropNul s) =
      (Text.split '\n' s).map dropNul :=
  Text.split_filter (by decide) s

/- A fragment as the shell reads it, in terms of its lines. -/
theorem parseFragment_eq_ok_iff
    {path : Text} {t u : Directives} :
    parseFragment files path t = .ok u ↔
      ∃ s, files path = some s ∧
        (∀ line ∈ Text.split '\n' s,
          ¬ Malformed (dropNul line)) ∧
        u = t.writeAll
          (((Text.split '\n' s).map dropNul).filterMap
            said) := by
  unfold parseFragment
  cases hFile : files path with
  | none => simp
  | some s =>
      simp only [Option.some.injEq, exists_eq_left']
      rw [parseLines_eq_ok_iff, readLines,
        malformed_records_iff, filterMap_said_records,
        split_dropNul]
      simp

/- All of them, in terms of the lines of all. -/
theorem parseFragments_eq_ok_iff
    {paths : List Text} {t u : Directives} :
    parseFragments files paths t = .ok u ↔
      (∀ path ∈ paths, (files path).isSome = true) ∧
        (∀ line ∈ fragmentLines files paths,
          ¬ Malformed (dropNul line)) ∧
        u = t.writeAll
          (((fragmentLines files paths).map dropNul).filterMap
            said) := by
  induction paths generalizing t with
  | nil =>
      constructor
      · intro hParse
        cases hParse
        exact ⟨by simp, by simp [fragmentLines], rfl⟩
      · rintro ⟨_, _, hTable⟩
        rw [hTable]
        rfl
  | cons path paths ih =>
      have hLines :
          fragmentLines files (path :: paths) =
            ((files path).map (Text.split '\n')).getD [] ++
              fragmentLines files paths := rfl
      rw [parseFragments, Fallible.bind_eq_ok_iff, hLines,
        List.forall_mem_cons, List.forall_mem_append,
        List.map_append, List.filterMap_append,
        WriteTable.writeAll_append]
      constructor
      · rintro ⟨v, hFirst, hRest⟩
        rcases (parseFragment_eq_ok_iff files).1 hFirst with
          ⟨s, hFile, hHere, hTable⟩
        rcases ih.1 hRest with ⟨hPaths, hLater, hTables⟩
        rw [hFile]
        refine ⟨⟨rfl, hPaths⟩, ⟨hHere, hLater⟩, ?_⟩
        rw [hTables, hTable]
        rfl
      · rintro ⟨⟨hFile, hPaths⟩, ⟨hHere, hLater⟩, hTables⟩
        obtain ⟨s, hFile⟩ := Option.isSome_iff_exists.1 hFile
        rw [hFile] at hHere hTables
        exact ⟨_,
          (parseFragment_eq_ok_iff files).2
            ⟨s, hFile, hHere, rfl⟩,
          ih.2 ⟨hPaths, hLater, hTables⟩⟩

variable {files} {paths : List Text} {t : Directives}

/- A key has the directive of the last line with it. -/
theorem value_of_parseFragments
    (hParse :
      parseFragments files paths WriteTable.empty = .ok t)
    (hNul : NulHarmless files paths)
    {key : Key} {directive : Directive} :
    t.value key = some directive ↔
      LastWrite key directive (writes files paths) := by
  have hTable :=
    ((parseFragments_eq_ok_iff files).1 hParse).2.2
  have hSame :
      ((fragmentLines files paths).map dropNul).filterMap said =
        writes files paths := by
    unfold writes
    rw [List.filterMap_map]
    apply List.filterMap_congr
    intro line hLine
    exact (hNul line hLine).2
  rw [hTable, hSame, WriteTable.value_writeAll_empty_iff]

/- No table is read where a line is not a directive. -/
theorem parseFragments_of_malformed
    (hNul : NulHarmless files paths)
    {line : Text} (hLine : line ∈ fragmentLines files paths)
    (hMalformed : Malformed line) :
    ∃ error,
      parseFragments files paths WriteTable.empty =
        .error error := by
  cases hParse :
      parseFragments files paths WriteTable.empty with
  | error error => exact ⟨error, rfl⟩
  | ok t =>
      have hRead :=
        ((parseFragments_eq_ok_iff files).1 hParse).2.1
          line hLine
      rw [(hNul line hLine).1] at hRead
      exact absurd hMalformed hRead

/- What is in the table was said by a line. -/
theorem says_of_parseFragments
    (hParse :
      parseFragments files paths WriteTable.empty = .ok t)
    {key : Key} {directive : Directive}
    (hValue : t.value key = some directive) :
    ∃ line, '\n' ∉ line ∧ Says line key directive := by
  rw [((parseFragments_eq_ok_iff files).1 hParse).2.2,
    WriteTable.value_writeAll_empty_iff] at hValue
  rcases List.mem_filterMap.1 hValue.mem with
    ⟨line, hLine, hSaid⟩
  rcases List.mem_map.1 hLine with ⟨raw, hRaw, rfl⟩
  refine ⟨dropNul raw, ?_, said_eq_some_iff.1 hSaid⟩
  unfold fragmentLines at hRaw
  rcases List.mem_flatMap.1 hRaw with ⟨path, _, hSplit⟩
  intro hNewline
  cases hFile : files path with
  | none =>
      rw [hFile] at hSplit
      cases hSplit
  | some s =>
      rw [hFile] at hSplit
      exact Text.not_mem_of_mem_split hSplit
        (List.mem_of_mem_filter hNewline)

/- A fragment without NULs is read as it is. -/
theorem nulHarmless_of_not_mem
    (hFree :
      ∀ line ∈ fragmentLines files paths, '\x00' ∉ line) :
    NulHarmless files paths := by
  intro line hLine
  have hSame : dropNul line = line := by
    unfold dropNul
    rw [List.filter_eq_self]
    intro c hMem
    have hChar : c ≠ '\x00' := by
      intro hNul
      exact hFree line hLine (hNul ▸ hMem)
    simpa using hChar
  rw [hSame]
  exact ⟨Iff.rfl, rfl⟩

end Files

end BuildKernel

end CargoUnikernel
