import CargoUnikernel.BuildKernel.Fragments
import Mathlib.Data.List.TakeWhile

/-
  The check that every directive took.

  `verify_config` compares what `grep` finds of a key in a
  configuration with what the directive asks for, and looks
  the key up in an index of the symbols that the kernel's
  own Kconfig files declare.

  Main declarations:
    * `Satisfies`, `Declares`
    * `kconfigSymbols`, `declares_of_mem_kconfigSymbols`
    * `verifyConfig`, `verifyConfig_eq_nil_iff`
    * `verifyConfig_sound`
-/

------------------------------------------------------------
-- Settings of a Configuration
------------------------------------------------------------

namespace CargoUnikernel

namespace BuildKernel

/- The line for a key that is not set. -/
def unset (key : Key) : Text :=
  "# ".toList ++ key ++ " is not set".toList

/- The line for a key with a value. -/
def assigned (key : Key) (value : Text) : Text :=
  key ++ '=' :: value

/- In double quotes. -/
def quoted (value : Text) : Text :=
  '"' :: value ++ ['"']

/- `^($key=|# $key is not set)`. -/
def speaks (key : Key) (line : Text) : Bool :=
  (Text.stripPrefix (key ++ ['=']) line).isSome ||
    (Text.stripPrefix (unset key) line).isSome

/- The lines of a configuration that are about a key. -/
def settings (config : Text) (key : Key) : List Text :=
  (Text.records config).filter (speaks key)

/- What is found, without the newline at its end. -/
def actual (config : Text) (key : Key) : Text :=
  Text.join '\n' (settings config key)

/- The configuration has what the directive asks for. -/
def Satisfies
    (config : Text) (key : Key) : Directive → Prop
| .enable => settings config key = [assigned key ['y']]
| .disable =>
    settings config key = [] ∨
      settings config key = [unset key]
| .setStr value =>
    settings config key = [assigned key (quoted value)]
| .setVal value =>
    settings config key = [assigned key value]

/- The comparisons of `verify_config`. -/
def applied
    (config : Text) (key : Key) : Directive → Bool
| .enable => actual config key = assigned key ['y']
| .disable =>
    actual config key = [] || actual config key = unset key
| .setStr value =>
    actual config key = assigned key (quoted value)
| .setVal value => actual config key = assigned key value

/- A line with a setting is not empty. -/
theorem ne_nil_of_mem_settings
    {config : Text} {key : Key} {line : Text}
    (hLine : line ∈ settings config key) :
    line ≠ [] := by
  have hSpeaks := (List.mem_filter.1 hLine).2
  rintro rfl
  unfold speaks at hSpeaks
  cases key with
  | nil => simp [Text.stripPrefix, unset] at hSpeaks
  | cons c key => simp [Text.stripPrefix, unset] at hSpeaks

/- And it is one line. -/
theorem newline_not_mem_of_mem_settings
    {config : Text} {key : Key} {line : Text}
    (hLine : line ∈ settings config key) :
    '\n' ∉ line :=
  Text.not_mem_of_mem_records (List.mem_filter.1 hLine).1

/- Nothing is answered where nothing is set. -/
theorem actual_eq_nil_iff
    {config : Text} {key : Key} :
    actual config key = [] ↔ settings config key = [] := by
  constructor
  · intro hActual
    apply Text.eq_nil_of_join _ hActual
    intro line hLine
    exact ne_nil_of_mem_settings hLine
  · intro hSettings
    unfold actual
    rw [hSettings]
    rfl

/- One line is found exactly when it is the only one. -/
theorem actual_eq_line_iff
    {config : Text} {key : Key} {line : Text}
    (hFree : '\n' ∉ line) (hNonempty : line ≠ []) :
    actual config key = line ↔ settings config key = [line] := by
  have hLine : Text.join '\n' [line] = line := by
    simp [Text.join, List.intercalate]
  constructor
  · intro hActual
    apply Text.join_inj
    · intro part hPart
      exact newline_not_mem_of_mem_settings hPart
    · simpa using hFree
    · intro hNone
      rw [actual_eq_nil_iff.2 hNone] at hActual
      exact hNonempty hActual.symm
    · exact List.cons_ne_nil line []
    · rw [hLine]
      exact hActual
  · intro hSettings
    unfold actual
    rw [hSettings]
    exact hLine

/- The comparison of the script, as a condition. -/
theorem applied_iff
    {config : Text} {key : Key} {directive : Directive}
    (hKey : '\n' ∉ key) (hFree : '\n' ∉ directive.text) :
    applied config key directive = true ↔
      Satisfies config key directive := by
  have hAssigned :
      ∀ value, '\n' ∉ value →
        (actual config key = assigned key value ↔
          settings config key = [assigned key value]) := by
    intro value hValue
    apply actual_eq_line_iff
    · simp [assigned, hKey, hValue]
    · simp [assigned]
  unfold applied Satisfies
  cases directive with
  | enable => simpa using hAssigned ['y'] (by decide)
  | disable =>
      have hUnset :
          actual config key = unset key ↔
            settings config key = [unset key] := by
        apply actual_eq_line_iff
        · have hWords :
              '\n' ∉ "# ".toList ∧
                '\n' ∉ " is not set".toList := by
            decide
          simp only [unset, List.mem_append, hWords, hKey,
            or_self, not_false_eq_true]
        · simp [unset]
      simp [actual_eq_nil_iff, hUnset]
  | setStr value =>
      have hValue : '\n' ∉ quoted value := by
        intro hMem
        apply hFree
        have hValue : '\n' ∈ value := by
          simpa [quoted] using hMem
        exact List.mem_append_right _ hValue
      simpa using hAssigned (quoted value) hValue
  | setVal value =>
      have hValue : '\n' ∉ value := by
        intro hMem
        exact hFree (List.mem_append_right _ hMem)
      simpa using hAssigned value hValue

------------------------------------------------------------
-- Symbols of a Kernel
------------------------------------------------------------

/- What follows `[[:space:]]*(menu)?config` in a line. -/
def afterKeyword (line : Text) : Option Text :=
  (Text.stripPrefix "config".toList
      (line.dropWhile isSpace)).or
    (Text.stripPrefix "menuconfig".toList
      (line.dropWhile isSpace))

/-
  `^[[:space:]]*(menu)?config[[:space:]]+[A-Z0-9_]+$`.
-/
def isConfigLine (line : Text) : Bool :=
  match afterKeyword line with
  | none => false
  | some tail =>
      let name := tail.dropWhile isSpace
      name ≠ tail && name ≠ [] && name.all isSymbolChar

/- What awk takes to separate fields. -/
def isBlank (c : Char) : Bool :=
  c = ' ' || c = '\t'

/- The fields that `awk` splits a line into. -/
def awkFields (line : Text) : List Text :=
  (line.splitOnP isBlank).filter fun field => field ≠ []

/- What is printed for the first field that is a keyword. -/
def printedSymbol : List Text → Option Text
| [] => none
| field :: fields =>
    if field = "config".toList ∨ field = "menuconfig".toList
    then
      some ("CONFIG_".toList ++ fields.headD [])
    else
      printedSymbol fields

/- The option that a line of a Kconfig file declares. -/
def symbolOf (line : Text) : Option Text :=
  if isConfigLine line then
    printedSymbol (awkFields line)
  else
    none

/- Where it belongs, unless it is there. -/
def insertUnique (line : Text) : List Text → List Text
| [] => [line]
| first :: rest =>
    if line = first then
      first :: rest
    else if line < first then
      line :: first :: rest
    else
      first :: insertUnique line rest

/- `sort -u`. -/
def sortUnique (lines : List Text) : List Text :=
  lines.foldr insertUnique []

/- The index `.kconfig-symbols` of a tree's Kconfig files. -/
def kconfigSymbols (kconfigFiles : List Text) : Text :=
  Text.unlines (sortUnique
    ((kconfigFiles.flatMap Text.records).filterMap symbolOf))

/- A Kconfig file declares the symbol: `config NAME`. -/
def Declares
    (kconfigFiles : List Text) (key : Key) : Prop :=
  ∃ file ∈ kconfigFiles, ∃ line ∈ Text.records file,
    ∃ lead word gap name,
      line = lead ++ word ++ gap ++ name ∧
      (∀ c ∈ lead ++ gap, isSpace c = true) ∧ gap ≠ [] ∧
      (word = "config".toList ∨
        word = "menuconfig".toList) ∧
      key = "CONFIG_".toList ++ name

/- Nothing is lost and nothing is added. -/
theorem mem_insertUnique_iff
    {line other : Text} {lines : List Text} :
    other ∈ insertUnique line lines ↔
      other = line ∨ other ∈ lines := by
  induction lines with
  | nil => simp [insertUnique]
  | cons first rest ih =>
      unfold insertUnique
      split
      · rename_i hSame
        simp [hSame]
      · split
        · simp
        · rw [List.mem_cons, ih, List.mem_cons]
          exact or_left_comm

/- So for all the lines. -/
theorem mem_sortUnique_iff
    {line : Text} {lines : List Text} :
    line ∈ sortUnique lines ↔ line ∈ lines := by
  unfold sortUnique
  induction lines with
  | nil => rfl
  | cons first rest ih =>
      rw [List.foldr_cons, mem_insertUnique_iff, ih,
        List.mem_cons]

/- The pattern takes a line apart. -/
theorem exists_name_of_isConfigLine
    {line : Text} (hLine : isConfigLine line = true) :
    ∃ lead word gap name,
      line = lead ++ word ++ gap ++ name ∧
      (∀ c ∈ lead ++ gap, isSpace c = true) ∧ gap ≠ [] ∧
      (word = "config".toList ∨
        word = "menuconfig".toList) ∧
      name ≠ [] ∧ ∀ c ∈ name, isSymbolChar c = true := by
  unfold isConfigLine at hLine
  split at hLine
  · cases hLine
  · rename_i tail hTail
    simp only [Bool.and_eq_true, decide_eq_true_eq,
      List.all_eq_true] at hLine
    rcases hLine with ⟨⟨hGap, hName⟩, hSymbol⟩
    have hWord :
        ∃ word,
          (word = "config".toList ∨
            word = "menuconfig".toList) ∧
          line.dropWhile isSpace = word ++ tail := by
      unfold afterKeyword at hTail
      rw [Option.or_eq_some_iff] at hTail
      rcases hTail with hConfig | ⟨_, hMenu⟩
      · exact ⟨_, .inl rfl,
          Text.stripPrefix_eq_some_iff.1 hConfig⟩
      · exact ⟨_, .inr rfl,
          Text.stripPrefix_eq_some_iff.1 hMenu⟩
    rcases hWord with ⟨word, hWord, hRest⟩
    refine ⟨line.takeWhile isSpace, word,
      tail.takeWhile isSpace, tail.dropWhile isSpace,
      ?_, ?_, ?_, hWord, hName, hSymbol⟩
    · rw [List.append_assoc, List.append_assoc,
        List.takeWhile_append_dropWhile, ← hRest,
        List.takeWhile_append_dropWhile]
    · intro c hMem
      rcases List.mem_append.1 hMem with hLead | hBetween
      · exact List.mem_takeWhile_imp hLead
      · exact List.mem_takeWhile_imp hBetween
    · intro hNone
      apply hGap
      have hWhole :
          tail.takeWhile isSpace ++ tail.dropWhile isSpace =
            tail :=
        List.takeWhile_append_dropWhile
      rw [hNone, List.nil_append] at hWhole
      exact hWhole

/- A name at the end of a line is in its last field. -/
theorem mem_splitOnP_append
    {before name field : Text}
    (hName : ∀ c ∈ name, isBlank c = false)
    (hField : field ∈ (before ++ name).splitOnP isBlank) :
    (∃ front, front ⊆ before ∧ field = front ++ name) ∨
      field ⊆ before := by
  induction before generalizing field with
  | nil =>
      rw [List.nil_append, List.splitOnP_eq_singleton hName,
        List.mem_singleton] at hField
      exact .inl ⟨[], List.Subset.refl [], hField⟩
  | cons c before ih =>
      have hStep := List.subset_cons_self c before
      have hLater :
          ∀ other ∈ (before ++ name).splitOnP isBlank,
            (∃ front, front ⊆ c :: before ∧
                other = front ++ name) ∨
              other ⊆ c :: before := by
        intro other hOther
        rcases ih hOther with ⟨front, hFront, hEq⟩ | hOnly
        · exact .inl ⟨front, List.Subset.trans hFront hStep, hEq⟩
        · exact .inr (List.Subset.trans hOnly hStep)
      rw [List.cons_append,
        List.splitOnP_cons_eq_if_modifyHead] at hField
      split at hField
      · rcases List.mem_cons.1 hField with rfl | hRest
        · exact .inr (List.nil_subset _)
        · exact hLater field hRest
      · obtain ⟨first, rest, hSplit⟩ :=
          List.exists_cons_of_ne_nil
            (List.splitOnP_ne_nil isBlank (before ++ name))
        rw [hSplit, List.modifyHead_cons] at hField
        rw [hSplit] at hLater
        rcases List.mem_cons.1 hField with rfl | hRest
        · have hHead := List.mem_cons_self (a := c) (l := before)
          rcases hLater first List.mem_cons_self with
            ⟨front, hFront, hEq⟩ | hOnly
          · refine .inl ⟨c :: front, ?_, ?_⟩
            · exact List.cons_subset.2 ⟨hHead, hFront⟩
            · rw [hEq, List.cons_append]
          · exact .inr (List.cons_subset.2 ⟨hHead, hOnly⟩)
        · exact hLater field (List.mem_cons_of_mem first hRest)

/- A field is between blanks. -/
theorem mem_of_mem_awkFields
    {line field : Text} (hField : field ∈ awkFields line) :
    field ∈ line.splitOnP isBlank :=
  (List.mem_filter.1 hField).1

/- What is printed is the keyword's successor, or nothing. -/
theorem exists_field_of_printedSymbol
    {fields : List Text} {symbol : Text}
    (hPrinted : printedSymbol fields = some symbol) :
    ∃ name, symbol = "CONFIG_".toList ++ name ∧
      (name = [] ∨ name ∈ fields) := by
  induction fields with
  | nil => cases hPrinted
  | cons field fields ih =>
      unfold printedSymbol at hPrinted
      split at hPrinted
      · rw [Option.some.injEq] at hPrinted
        refine ⟨fields.headD [], hPrinted.symm, ?_⟩
        cases fields with
        | nil => exact .inl rfl
        | cons next fields =>
            exact .inr (List.mem_cons_of_mem field
              List.mem_cons_self)
      · rcases ih hPrinted with ⟨name, hSymbol, hName⟩
        refine ⟨name, hSymbol, ?_⟩
        rcases hName with hEmpty | hMem
        · exact .inl hEmpty
        · exact .inr (List.mem_cons_of_mem field hMem)

/- An option's name without its prefix is a symbol. -/
theorem isSymbolChar_of_isKey_append
    {name : Text}
    (hKey : isKey ("CONFIG_".toList ++ name) = true) :
    name ≠ [] ∧ ∀ c ∈ name, isSymbolChar c = true := by
  unfold isKey at hKey
  rw [Text.stripPrefix_append] at hKey
  simpa using hKey

/- No symbol has white space in it. -/
theorem isSymbolChar_of_isSpace
    {c : Char} (hSpace : isSpace c = true) :
    isSymbolChar c = false := by
  by_contra hSymbol
  rw [Bool.not_eq_false] at hSymbol
  unfold isSpace at hSpace
  unfold isSymbolChar at hSymbol
  simp only [Bool.or_eq_true, Bool.and_eq_true,
    decide_eq_true_eq, Char.le_def,
    UInt32.le_iff_toNat_le] at hSpace hSymbol
  have hToNat : c.val.toNat = c.toNat := rfl
  have hA : 'A'.val.toNat = 65 := rfl
  have h0 : '0'.val.toNat = 48 := rfl
  rcases hSpace with rfl | hSpace
  · revert hSymbol
    decide
  · rcases hSymbol with (hUpper | hDigit) | rfl
    · omega
    · omega
    · revert hSpace
      decide

/- What awk separates at is white space. -/
theorem isSpace_of_isBlank
    {c : Char} (hBlank : isBlank c = true) :
    isSpace c = true := by
  unfold isBlank at hBlank
  rw [Bool.or_eq_true, decide_eq_true_eq,
    decide_eq_true_eq] at hBlank
  rcases hBlank with rfl | rfl
  · rfl
  · rfl

/- In front of the name no character is one of a symbol. -/
theorem isSymbolChar_before
    {lead word gap : Text}
    (hSpaces : ∀ c ∈ lead ++ gap, isSpace c = true)
    (hWord :
      word = "config".toList ∨ word = "menuconfig".toList)
    {c : Char} (hMem : c ∈ lead ++ word ++ gap) :
    isSymbolChar c = false := by
  have hWords :
      ("config".toList ++ "menuconfig".toList).all
        (fun d => !isSymbolChar d) = true := by
    decide
  simp only [List.mem_append] at hMem hSpaces
  rcases hMem with (hLead | hIn) | hGap
  · exact isSymbolChar_of_isSpace (hSpaces c (.inl hLead))
  · rw [List.all_eq_true] at hWords
    have hNot := hWords c
    rw [Bool.not_eq_true'] at hNot
    rcases hWord with rfl | rfl
    · exact hNot (List.mem_append_left _ hIn)
    · exact hNot (List.mem_append_right _ hIn)
  · exact isSymbolChar_of_isSpace (hSpaces c (.inr hGap))

/- A key in the index is declared in a line of its own. -/
theorem declares_of_symbolOf
    {kconfigFiles : List Text} {file line : Text} {key : Key}
    (hFile : file ∈ kconfigFiles)
    (hLine : line ∈ Text.records file)
    (hKey : isKey key = true)
    (hSymbol : symbolOf line = some key) :
    Declares kconfigFiles key := by
  unfold symbolOf at hSymbol
  split at hSymbol
  case isFalse => cases hSymbol
  case isTrue hConfig =>
      obtain ⟨lead, word, gap, name, hText, hSpaces, hGap,
        hWord, _, hName⟩ := exists_name_of_isConfigLine hConfig
      obtain ⟨printed, hPrinted, hField⟩ :=
        exists_field_of_printedSymbol hSymbol
      rw [hPrinted] at hKey
      obtain ⟨hNonempty, hChars⟩ :=
        isSymbolChar_of_isKey_append hKey
      have hMem :=
        mem_of_mem_awkFields (hField.resolve_left hNonempty)
      have hBlank : ∀ c ∈ name, isBlank c = false := by
        intro c hC
        by_contra hIs
        rw [Bool.not_eq_false] at hIs
        have hNot :=
          isSymbolChar_of_isSpace (isSpace_of_isBlank hIs)
        rw [hName c hC] at hNot
        cases hNot
      have hNone :
          ∀ front : Text, front ⊆ lead ++ word ++ gap →
            (∀ c ∈ front, isSymbolChar c = true) →
            front = [] := by
        intro front hSub hAll
        rw [List.eq_nil_iff_forall_not_mem]
        intro c hC
        have hNot :=
          isSymbolChar_before hSpaces hWord (hSub hC)
        rw [hAll c hC] at hNot
        cases hNot
      rw [hText] at hMem
      refine ⟨file, hFile, line, hLine, lead, word, gap, name,
        hText, hSpaces, hGap, hWord, ?_⟩
      rw [hPrinted]
      rcases mem_splitOnP_append hBlank hMem with
        ⟨front, hSub, hEq⟩ | hSub
      · rw [hEq] at hChars
        have hFront :=
          hNone front hSub fun c hC =>
            hChars c (List.mem_append_left name hC)
        rw [hEq, hFront, List.nil_append]
      · exact absurd (hNone printed hSub hChars) hNonempty

/- A symbol is one line. -/
theorem newline_not_mem_of_symbolOf
    {line symbol : Text} (hLine : '\n' ∉ line)
    (hSymbol : symbolOf line = some symbol) :
    '\n' ∉ symbol := by
  unfold symbolOf at hSymbol
  split at hSymbol
  case isFalse => cases hSymbol
  case isTrue =>
      obtain ⟨name, hEq, hField⟩ :=
        exists_field_of_printedSymbol hSymbol
      have hWord : '\n' ∉ "CONFIG_".toList := by
        decide
      rw [hEq, List.mem_append, not_or]
      refine ⟨hWord, ?_⟩
      rcases hField with hEmpty | hMem
      · rw [hEmpty]
        exact List.not_mem_nil
      · intro hNewline
        have hSplit := mem_of_mem_awkFields hMem
        have hFront :=
          @mem_splitOnP_append line [] name (by simp)
            (by simpa using hSplit)
        apply hLine
        rcases hFront with ⟨front, hSub, hFront⟩ | hSub
        · rw [hFront, List.append_nil] at hNewline
          exact hSub hNewline
        · exact hSub hNewline

/- What `grep -Fqx` finds in the index is declared. -/
theorem declares_of_mem_kconfigSymbols
    {kconfigFiles : List Text} {key : Key}
    (hKey : isKey key = true)
    (hMem : key ∈ Text.records (kconfigSymbols kconfigFiles)) :
    Declares kconfigFiles key := by
  unfold kconfigSymbols at hMem
  have hSource :
      ∀ symbol,
        symbol ∈ (kconfigFiles.flatMap Text.records).filterMap
          symbolOf →
        ∃ file ∈ kconfigFiles, ∃ line ∈ Text.records file,
          symbolOf line = some symbol := by
    intro symbol hSymbol
    rcases List.mem_filterMap.1 hSymbol with
      ⟨line, hLine, hSymbol⟩
    rcases List.mem_flatMap.1 hLine with
      ⟨file, hFile, hLine⟩
    exact ⟨file, hFile, line, hLine, hSymbol⟩
  rw [Text.records_unlines] at hMem
  · rw [mem_sortUnique_iff] at hMem
    obtain ⟨file, hFile, line, hLine, hSymbol⟩ :=
      hSource key hMem
    exact declares_of_symbolOf hFile hLine hKey hSymbol
  · intro symbol hSymbol
    rw [mem_sortUnique_iff] at hSymbol
    obtain ⟨file, _, line, hLine, hSymbol⟩ :=
      hSource symbol hSymbol
    exact newline_not_mem_of_symbolOf
      (Text.not_mem_of_mem_records hLine) hSymbol

------------------------------------------------------------
-- The Check
------------------------------------------------------------

/- What is wrong with the resolved configuration. -/
inductive Complaint
| noSuchSymbol (key : Key)
| notApplied
    (key : Key) (directive : Directive)
    (expected actual : Text)
deriving DecidableEq, Repr

/- What a complaint names as expected. -/
def expected (key : Key) : Directive → Text
| .enable => assigned key ['y']
| .disable => unset key ++ " (or dependency-elided)".toList
| .setStr value => assigned key (quoted value)
| .setVal value => assigned key value

/- One turn of the loop over the keys. -/
def checkKey
    (config symbols : Text) (write : Key × Directive) :
    Option Complaint :=
  if write.1 ∉ Text.records symbols then
    some (.noSuchSymbol write.1)
  else if applied config write.1 write.2 then
    none
  else
    some (.notApplied write.1 write.2
      (expected write.1 write.2) (actual config write.1))

/- It succeeds when there is no complaint. -/
def verifyConfig
    (t : Directives) (config symbols : Text) :
    List Complaint :=
  t.entries.filterMap (checkKey config symbols)

/- When nothing is wrong with an option. -/
theorem checkKey_eq_none_iff
    {config symbols : Text} {write : Key × Directive} :
    checkKey config symbols write = none ↔
      write.1 ∈ Text.records symbols ∧
        applied config write.1 write.2 = true := by
  unfold checkKey
  split
  · rename_i hNot
    simp [hNot]
  · rename_i hMem
    split
    · rename_i hApplied
      simp [not_not.1 hMem, hApplied]
    · rename_i hNot
      simp [hNot]

/- When nothing is wrong with any. -/
theorem verifyConfig_eq_nil_iff
    {t : Directives} {config symbols : Text} :
    verifyConfig t config symbols = [] ↔
      ∀ key directive, t.value key = some directive →
        key ∈ Text.records symbols ∧
          applied config key directive = true := by
  unfold verifyConfig
  rw [List.filterMap_eq_nil_iff]
  constructor
  · intro hAll key directive hValue
    exact checkKey_eq_none_iff.1
      (hAll _ (t.mem_entries_iff.2 hValue))
  · rintro hAll ⟨key, directive⟩ hMem
    exact checkKey_eq_none_iff.2
      (hAll key directive (t.mem_entries_iff.1 hMem))

/- With the kernel's own index, every directive took. -/
theorem verifyConfig_sound
    {files : Text → Option Text} {paths : List Text}
    {t : Directives}
    (hParse :
      parseFragments files paths WriteTable.empty = .ok t)
    {config : Text} {kconfigFiles : List Text}
    (hVerify :
      verifyConfig t config (kconfigSymbols kconfigFiles) = [])
    {key : Key} {directive : Directive}
    (hValue : t.value key = some directive) :
    Satisfies config key directive ∧
      Declares kconfigFiles key := by
  obtain ⟨hMem, hApplied⟩ :=
    verifyConfig_eq_nil_iff.1 hVerify key directive hValue
  obtain ⟨line, hLine, hSays⟩ :=
    says_of_parseFragments hParse hValue
  obtain ⟨hKey, hText⟩ :=
    Says.newline_not_mem hLine hSays
  exact ⟨(applied_iff hKey hText).1 hApplied,
    declares_of_mem_kconfigSymbols hSays.2 hMem⟩

end BuildKernel

end CargoUnikernel
