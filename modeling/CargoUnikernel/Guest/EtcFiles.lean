import CargoUnikernel.Library.Words

/-
  The guest's `/etc/resolv.conf`.

  Configured nameservers are written out; without any, the
  lines of the kernel's own table that are resolver
  directives are copied. What the text has in it is then
  asked of the text as a whole, so a line of one directive
  can answer for another.

  Main declarations:
    * `resolvConfBody`, `writeResolvConf`
    * `resolvConfBody_eq`
    * `ResolvConf`, `ClearTable`, `ClearEntries`
    * `resolvConf_iff_unambiguous`
-/

------------------------------------------------------------
-- The Text
------------------------------------------------------------

namespace CargoUnikernel

namespace Guest

namespace EtcFiles

/- The directives copied from the kernel's table. -/
def pnpDirectives : List Text :=
  ["nameserver".toList, "domain".toList, "search".toList]

/- The first word of a line, if it has any. -/
def firstWord (line : Text) : Option Text :=
  (Text.words line).head?

/- The line begins with a directive that is taken over. -/
def isResolverDirective (line : Text) : Bool :=
  match firstWord line with
  | none => false
  | some first => first ∈ pnpDirectives

/- How the lines of the config's own begin. -/
def nameserverPrefix : Text := "nameserver ".toList
def searchPrefix : Text := "search ".toList

/- The line of a search domain. -/
def searchLine (search : Text) : Text :=
  searchPrefix ++ search

/- The configured nameservers. -/
def servers (nameservers : Text) : List Text :=
  Text.entries ';' nameservers

/- The lines of the kernel's table, where they are copied. -/
def copied (nameservers pnp : Text) : List Text :=
  if nameservers = [] then
    (Text.recordsCr pnp).filter isResolverDirective
  else
    []

/- The lines before the search line. -/
def directives (nameservers pnp : Text) : List Text :=
  if nameservers = [] then
    (Text.recordsCr pnp).filter isResolverDirective
  else
    (servers nameservers).map fun server =>
      nameserverPrefix ++ server

/- Empty where no resolver could be determined. -/
def resolvConfBody (nameservers search pnp : Text) : Text :=
  let body := Text.unlines (directives nameservers pnp)
  if ¬ nameserverPrefix <:+: body then
    []
  else if search ≠ [] ∧ ¬ searchPrefix <:+: body then
    body ++ searchPrefix ++ search ++ ['\n']
  else
    body

/-
  The file that is written, none where only a warning is
  logged. A table that cannot be read counts as empty.
-/
def writeResolvConf
    (nameservers search : Text) (pnp : Option Text) :
    Option Text :=
  let body := resolvConfBody nameservers search (pnp.getD [])
  if body = [] then none else some body

------------------------------------------------------------
-- The Text by Its Lines
------------------------------------------------------------

/- Whether one of the lines has the text in it. -/
def Occurs (pattern : Text) (ls : List Text) : Prop :=
  ∃ line ∈ ls, pattern <:+: line

instance (pattern : Text) (ls : List Text) :
    Decidable (Occurs pattern ls) :=
  inferInstanceAs (Decidable (∃ line ∈ ls, _))

/- The search line, where it is added. -/
def searchLines (search : Text) (ls : List Text) :
    List Text :=
  if search ≠ [] ∧ ¬ Occurs searchPrefix ls then
    [searchLine search]
  else
    []

/- What is looked for has no newline, so it is in a line. -/
theorem infix_nameserverPrefix_iff (ls : List Text) :
    nameserverPrefix <:+: Text.unlines ls ↔
      Occurs nameserverPrefix ls :=
  Text.infix_unlines_iff (by decide) (by decide) ls

theorem infix_searchPrefix_iff (ls : List Text) :
    searchPrefix <:+: Text.unlines ls ↔
      Occurs searchPrefix ls :=
  Text.infix_unlines_iff (by decide) (by decide) ls

/- The body in terms of its lines. -/
theorem resolvConfBody_eq (nameservers search pnp : Text) :
    resolvConfBody nameservers search pnp =
      if Occurs nameserverPrefix (directives nameservers pnp)
      then
        Text.unlines
          (directives nameservers pnp ++
            searchLines search (directives nameservers pnp))
      else
        [] := by
  unfold resolvConfBody searchLines
  simp only [infix_nameserverPrefix_iff,
    infix_searchPrefix_iff]
  by_cases hServer :
      Occurs nameserverPrefix (directives nameservers pnp)
  · rw [if_neg (not_not.2 hServer), if_pos hServer]
    split
    · rw [Text.unlines_append]
      simp [Text.unlines, searchLine]
    · rw [List.append_nil]
  · rw [if_pos hServer, if_neg hServer]

/- There is a body where a line looks like a server's. -/
theorem resolvConfBody_ne_nil_iff
    (nameservers search pnp : Text) :
    resolvConfBody nameservers search pnp ≠ [] ↔
      Occurs nameserverPrefix
        (directives nameservers pnp) := by
  rw [resolvConfBody_eq]
  split
  case isTrue hServer =>
      rcases hServer with ⟨line, hLine, _⟩
      constructor
      · intro _
        exact ⟨line, hLine, by assumption⟩
      · intro _ hNil
        unfold Text.unlines at hNil
        rw [List.flatMap_eq_nil_iff] at hNil
        have hEmpty := hNil line (List.mem_append_left _ hLine)
        simp at hEmpty
  case isFalse hNone =>
      constructor
      · intro hNil
        exact absurd rfl hNil
      · intro hServer
        exact absurd hServer hNone

------------------------------------------------------------
-- Configured Nameservers
------------------------------------------------------------

/- Servers of the config's own, and no others. -/
theorem directives_of_configured
    {nameservers : Text} (hConfigured : nameservers ≠ [])
    (pnp : Text) :
    directives nameservers pnp =
      (servers nameservers).map fun server =>
        nameserverPrefix ++ server := by
  unfold directives
  rw [if_neg hConfigured]

/- Otherwise what the kernel was told. -/
theorem directives_of_nil (pnp : Text) :
    directives [] pnp = copied [] pnp := by
  unfold directives copied
  rw [if_pos rfl, if_pos rfl]

/- Each entry has a line, which names it as a resolver. -/
theorem occurs_configured_iff
    {nameservers : Text} (hConfigured : nameservers ≠ [])
    (pnp : Text) :
    Occurs nameserverPrefix (directives nameservers pnp) ↔
      ∃ entry ∈ Text.split ';' nameservers, entry ≠ [] := by
  rw [directives_of_configured hConfigured]
  constructor
  · rintro ⟨line, hLine, _⟩
    rcases List.mem_map.1 hLine with ⟨entry, hEntry, _⟩
    rw [servers, Text.entries, List.mem_filter] at hEntry
    exact ⟨entry, hEntry.1, by simpa using hEntry.2⟩
  · rintro ⟨entry, hEntry, hNonempty⟩
    refine ⟨nameserverPrefix ++ entry, ?_, ?_⟩
    · apply List.mem_map_of_mem
      rw [servers, Text.entries, List.mem_filter]
      exact ⟨hEntry, by simpa using hNonempty⟩
    · exact (List.prefix_append nameserverPrefix entry).isInfix

/- What the kernel was told does not matter then. -/
theorem resolvConfBody_of_configured
    {nameservers : Text} (hConfigured : nameservers ≠ [])
    (search pnp other : Text) :
    resolvConfBody nameservers search other =
      resolvConfBody nameservers search pnp := by
  rw [resolvConfBody_eq, resolvConfBody_eq,
    directives_of_configured hConfigured,
    directives_of_configured hConfigured]

------------------------------------------------------------
-- The Search Line
------------------------------------------------------------

/- The lines within the directives. -/
def embedded (nameservers pnp : Text) : List Text :=
  (directives nameservers pnp).flatMap (Text.split '\n')

/- The line has the newlines of the domain. -/
theorem newline_mem_searchLine_iff (search : Text) :
    '\n' ∈ searchLine search ↔ '\n' ∈ search := by
  have hPrefix : '\n' ∉ searchPrefix := by
    decide
  unfold searchLine
  rw [List.mem_append]
  exact or_iff_right hPrefix

/- The line has at least its first word. -/
theorem searchLine_ne_nil (search : Text) :
    searchLine search ≠ [] := by
  have hPrefix : searchPrefix ≠ [] := by
    decide
  intro hNil
  exact hPrefix (List.append_eq_nil_iff.1 hNil).1

/- With a newline in it, it is more than one line. -/
theorem mem_split_searchLine_iff (search : Text) :
    searchLine search ∈ Text.split '\n' (searchLine search) ↔
      '\n' ∉ search := by
  rw [← newline_mem_searchLine_iff search]
  constructor
  · exact Text.not_mem_of_mem_split
  · intro hFree
    unfold Text.split
    rw [List.splitOn_eq_singleton hFree]
    exact List.mem_singleton_self _

/- A line has no newline. -/
theorem newline_not_mem_of_embedded
    {nameservers search pnp : Text}
    (hLine : searchLine search ∈ embedded nameservers pnp) :
    '\n' ∉ search := by
  rcases List.mem_flatMap.1 hLine with
    ⟨directive, _, hSplit⟩
  have hFree := Text.not_mem_of_mem_split hSplit
  rwa [newline_mem_searchLine_iff] at hFree

/- A line of the text is in a directive, or is added. -/
theorem searchLine_mem_body_iff
    {nameservers search pnp : Text}
    (hServer :
      Occurs nameserverPrefix (directives nameservers pnp)) :
    searchLine search ∈
        Text.split '\n'
          (resolvConfBody nameservers search pnp) ↔
      searchLine search ∈ embedded nameservers pnp ∨
        search ≠ [] ∧ '\n' ∉ search ∧
          ¬ Occurs searchPrefix
            (directives nameservers pnp) := by
  rw [resolvConfBody_eq, if_pos hServer,
    Text.split_unlines_eq_flatMap, List.flatMap_append]
  have hNonempty :
      searchLine search ∉ ([[]] : List Text) := by
    rw [List.mem_singleton]
    exact searchLine_ne_nil search
  rw [List.mem_append, or_iff_left hNonempty,
    List.mem_append]
  apply or_congr_right
  unfold searchLines
  by_cases hAdded :
      search ≠ [] ∧
        ¬ Occurs searchPrefix (directives nameservers pnp)
  · rw [if_pos hAdded, List.flatMap_singleton,
      mem_split_searchLine_iff]
    constructor
    · intro hFree
      exact ⟨hAdded.1, hFree, hAdded.2⟩
    · intro hAll
      exact hAll.2.1
  · rw [if_neg hAdded]
    constructor
    · intro hMem
      simp at hMem
    · intro hAll
      exact absurd ⟨hAll.1, hAll.2.2⟩ hAdded

------------------------------------------------------------
-- What the File Should Be
------------------------------------------------------------

/- The line is a directive of this name. -/
def Names (word : String) (line : Text) : Prop :=
  firstWord line = some word.toList

instance (word : String) (line : Text) :
    Decidable (Names word line) :=
  inferInstanceAs (Decidable (_ = _))

/- A configured entry, or without any a line of the table. -/
def HasResolver (nameservers pnp : Text) : Prop :=
  (∃ entry ∈ Text.split ';' nameservers, entry ≠ []) ∨
    nameservers = [] ∧
      ∃ line ∈ Text.recordsCr pnp, Names "nameserver" line

/- No line that is copied sets a search domain. -/
def NoSearchCopied (nameservers pnp : Text) : Prop :=
  nameservers = [] →
    ∀ line ∈ Text.recordsCr pnp, ¬Names "search" line

/- A line of the table, of a directive that may be copied. -/
def IsCopy (pnp line : Text) : Prop :=
  line ∈ Text.recordsCr pnp ∧
    ∃ word ∈ pnpDirectives, firstWord line = some word

/- What is promised of the resolver's configuration. -/
structure ResolvConf (nameservers search pnp : Text) :
    Prop where
  resolver :
    resolvConfBody nameservers search pnp ≠ [] ↔
      HasResolver nameservers pnp
  configured :
    nameservers ≠ [] →
      ∀ other,
        resolvConfBody nameservers search other =
          resolvConfBody nameservers search pnp
  directive :
    nameservers = [] →
      ∀ line ∈
          Text.split '\n'
            (resolvConfBody nameservers search pnp),
        line ≠ [] →
          IsCopy pnp line ∨
            line ∈ Text.split '\n' (searchLine search)
  search :
    resolvConfBody nameservers search pnp ≠ [] →
      NoSearchCopied nameservers pnp →
      (searchLine search ∈
          Text.split '\n'
            (resolvConfBody nameservers search pnp) ↔
        search ≠ [])

------------------------------------------------------------
-- What the Strings May Have in Them
------------------------------------------------------------

/- A nameserver, written with a space after the word. -/
def PlainServer (pnp : Text) : Prop :=
  ∃ line ∈ Text.recordsCr pnp,
    Names "nameserver" line ∧ nameserverPrefix <:+: line

/- A nameserver, written with no space after the word. -/
def OddServer (pnp : Text) : Prop :=
  ∃ line ∈ Text.recordsCr pnp,
    Names "nameserver" line ∧ ¬nameserverPrefix <:+: line

/- A domain that has the word and a space in its text. -/
def FalseServer (pnp : Text) : Prop :=
  ∃ line ∈ Text.recordsCr pnp,
    (Names "domain" line ∨ Names "search" line) ∧
      nameserverPrefix <:+: line

/-
  Of the kernel's table: an odd nameserver goes with a false
  one, unless there is a plain one as well; and where nothing
  sets a search domain, no line has the word in its text.
-/
structure ClearTable (search pnp : Text) : Prop where
  resolver :
    PlainServer pnp ∨ (OddServer pnp ↔ FalseServer pnp)
  search :
    PlainServer pnp ∨ FalseServer pnp →
      (∀ line ∈ Text.recordsCr pnp, ¬Names "search" line) →
        search ≠ [] →
          '\n' ∉ search ∧
            ∀ line ∈ Text.recordsCr pnp,
              Names "nameserver" line ∨ Names "domain" line →
                ¬searchPrefix <:+: line

/- A line of an entry after its first. -/
def LaterLine (nameservers line : Text) : Prop :=
  ∃ entry ∈ Text.split ';' nameservers,
    line ∈ (Text.split '\n' entry).tail

/-
  Of the configured entries: none of their later lines is an
  empty search line where no domain is configured, and where
  one is, it is a line, and an entry with the word in it has
  the whole search line already.
-/
structure ClearEntries (nameservers search : Text) :
    Prop where
  none :
    search = [] → ¬LaterLine nameservers searchPrefix
  some :
    search ≠ [] →
      '\n' ∉ search ∧
        (Occurs searchPrefix (Text.split ';' nameservers) →
          LaterLine nameservers (searchLine search))

/- No text of one line is taken for another directive. -/
structure Unambiguous (nameservers search pnp : Text) :
    Prop where
  table : nameservers = [] → ClearTable search pnp
  entries :
    (∃ entry ∈ Text.split ';' nameservers, entry ≠ []) →
      ClearEntries nameservers search

------------------------------------------------------------
-- Copied Lines
------------------------------------------------------------

/- By the words that begin a line. -/
theorem isResolverDirective_iff (line : Text) :
    isResolverDirective line = true ↔
      Names "nameserver" line ∨
        Names "domain" line ∨ Names "search" line := by
  unfold isResolverDirective Names
  cases firstWord line with
  | none => simp
  | some first => simp [pnpDirectives]

/- What is copied are the lines of these kinds. -/
theorem mem_copied_iff (pnp line : Text) :
    line ∈ copied [] pnp ↔
      line ∈ Text.recordsCr pnp ∧
        (Names "nameserver" line ∨
          Names "domain" line ∨ Names "search" line) := by
  unfold copied
  rw [if_pos rfl, List.mem_filter, isResolverDirective_iff]

/- As they are in the kernel's file. -/
theorem isCopy_of_copied
    {pnp line : Text} (hLine : line ∈ copied [] pnp) :
    IsCopy pnp line := by
  rw [mem_copied_iff] at hLine
  refine ⟨hLine.1, ?_⟩
  rcases hLine.2 with hName | hName | hName
  · exact ⟨_, by simp [pnpDirectives], hName⟩
  · exact ⟨_, by simp [pnpDirectives], hName⟩
  · exact ⟨_, by simp [pnpDirectives], hName⟩

theorem newline_not_mem_copied
    {pnp line : Text} (hLine : line ∈ copied [] pnp) :
    '\n' ∉ line :=
  Text.newline_not_mem_of_mem_recordsCr
    ((mem_copied_iff pnp line).1 hLine).1

/- Copied lines are whole, so there are none within them. -/
theorem mem_embedded_nil_iff (pnp line : Text) :
    line ∈ embedded [] pnp ↔ line ∈ copied [] pnp := by
  unfold embedded
  rw [directives_of_nil, List.mem_flatMap]
  constructor
  · rintro ⟨whole, hWhole, hLine⟩
    unfold Text.split at hLine
    rw [List.splitOn_eq_singleton
      (newline_not_mem_copied hWhole),
      List.mem_singleton] at hLine
    rwa [hLine]
  · intro hLine
    refine ⟨line, hLine, ?_⟩
    unfold Text.split
    rw [List.splitOn_eq_singleton
      (newline_not_mem_copied hLine)]
    exact List.mem_singleton_self line

/- A line that begins as a search line is one. -/
theorem names_searchLine (search : Text) :
    Names "search" (searchLine search) := by
  have hSolid : Text.Solid "search".toList :=
    Text.solid_of_all (by decide) (by decide)
  have hSpace : Text.Breaks (' ' :: search) := by
    show Text.isWhitespace ' ' = true
    decide
  have hLine :
      searchLine search =
        "search".toList ++ ' ' :: search := rfl
  unfold Names firstWord
  rw [hLine, Text.words_append_of_breaks hSolid hSpace]
  rfl

/- A line of a server, or one that only looks like it. -/
theorem occurs_copied_iff (pnp : Text) :
    Occurs nameserverPrefix (copied [] pnp) ↔
      PlainServer pnp ∨ FalseServer pnp := by
  unfold Occurs PlainServer FalseServer
  simp only [mem_copied_iff]
  grind

/- A server may be written in an odd way. -/
theorem exists_server_iff (pnp : Text) :
    (∃ line ∈ Text.recordsCr pnp, Names "nameserver" line) ↔
      PlainServer pnp ∨ OddServer pnp := by
  unfold PlainServer OddServer
  grind

------------------------------------------------------------
-- Configured Entries
------------------------------------------------------------

/- The word before an entry is no part of a search line. -/
theorem infix_server_iff (entry : Text) :
    searchPrefix <:+: nameserverPrefix ++ entry ↔
      searchPrefix <:+: entry := by
  have hServer :
      nameserverPrefix =
        ['n', 'a', 'm', 'e', 's', 'e', 'r', 'v', 'e', 'r',
          ' '] := by
    decide
  have hSearch :
      searchPrefix =
        ['s', 'e', 'a', 'r', 'c', 'h', ' '] := by
    decide
  rw [hServer, hSearch]
  simp only [List.cons_append, List.nil_append,
    List.infix_cons_iff, List.cons_prefix_cons]
  simp only [Char.reduceEq, false_and, false_or, true_and]

/- An entry that is empty has nothing in it. -/
theorem occurs_servers_iff
    {nameservers : Text} (hConfigured : nameservers ≠ [])
    (pnp : Text) :
    Occurs searchPrefix (directives nameservers pnp) ↔
      Occurs searchPrefix (Text.split ';' nameservers) := by
  have hPrefix : searchPrefix ≠ [] := by
    decide
  rw [directives_of_configured hConfigured]
  unfold Occurs servers Text.entries
  constructor
  · rintro ⟨line, hLine, hOccurs⟩
    rcases List.mem_map.1 hLine with ⟨entry, hEntry, rfl⟩
    exact
      ⟨entry, (List.mem_filter.1 hEntry).1,
        (infix_server_iff entry).1 hOccurs⟩
  · rintro ⟨entry, hEntry, hOccurs⟩
    refine
      ⟨nameserverPrefix ++ entry, ?_,
        (infix_server_iff entry).2 hOccurs⟩
    apply List.mem_map_of_mem
    rw [List.mem_filter]
    refine ⟨hEntry, ?_⟩
    rw [decide_eq_true_eq]
    rintro rfl
    exact hPrefix (List.infix_nil.1 hOccurs)

/- The first line of an entry stands after the word. -/
theorem mem_split_server_iff (search entry : Text) :
    searchLine search ∈
        Text.split '\n' (nameserverPrefix ++ entry) ↔
      searchLine search ∈ (Text.split '\n' entry).tail := by
  have hFree : '\n' ∉ nameserverPrefix := by
    decide
  rcases Text.split_append_of_not_mem hFree entry with
    ⟨first, _, hSplit⟩
  rw [hSplit, List.mem_cons]
  apply or_iff_right
  intro hSame
  have hHead := congrArg List.head? hSame
  have hSearch :
      (searchLine search).head? = some 's' := rfl
  have hServer :
      (nameserverPrefix ++ first).head? = some 'n' := rfl
  rw [hSearch, hServer] at hHead
  revert hHead
  decide

/- A server of the config's may hide a line. -/
theorem embedded_configured_iff
    {nameservers : Text} (hConfigured : nameservers ≠ [])
    (search pnp : Text) :
    searchLine search ∈ embedded nameservers pnp ↔
      LaterLine nameservers (searchLine search) := by
  unfold embedded LaterLine
  rw [directives_of_configured hConfigured, List.mem_flatMap]
  constructor
  · rintro ⟨line, hLine, hSplit⟩
    rcases List.mem_map.1 hLine with ⟨entry, hEntry, rfl⟩
    exact
      ⟨entry, (List.mem_filter.1 hEntry).1,
        (mem_split_server_iff search entry).1 hSplit⟩
  · rintro ⟨entry, hEntry, hLater⟩
    refine
      ⟨nameserverPrefix ++ entry, ?_,
        (mem_split_server_iff search entry).2 hLater⟩
    apply List.mem_map_of_mem
    unfold servers Text.entries
    rw [List.mem_filter]
    refine ⟨hEntry, ?_⟩
    rw [decide_eq_true_eq]
    rintro rfl
    simp [Text.split] at hLater

------------------------------------------------------------
-- When It Is
------------------------------------------------------------

/- When a body is written exactly where it should be. -/
theorem resolver_iff
    (nameservers search pnp : Text) :
    (resolvConfBody nameservers search pnp ≠ [] ↔
        HasResolver nameservers pnp) ↔
      (nameservers = [] →
        PlainServer pnp ∨
          (OddServer pnp ↔ FalseServer pnp)) := by
  rw [resolvConfBody_ne_nil_iff]
  unfold HasResolver
  by_cases hConfigured : nameservers = []
  · subst hConfigured
    have hNone :
        ¬ ∃ entry ∈ Text.split ';' ([] : Text),
          entry ≠ [] := by
      simp [Text.split]
    rw [or_iff_right hNone, directives_of_nil,
      occurs_copied_iff, exists_server_iff]
    simp only [true_and, forall_const]
    tauto
  · rw [occurs_configured_iff hConfigured]
    simp [hConfigured]

/- Each line is copied, or is of the line that is added. -/
theorem isCopy_of_mem_body
    {search pnp line : Text}
    (hLine :
      line ∈
        Text.split '\n' (resolvConfBody [] search pnp))
    (hSome : line ≠ []) :
    IsCopy pnp line ∨
      line ∈ Text.split '\n' (searchLine search) := by
  rw [resolvConfBody_eq] at hLine
  split at hLine
  · rw [Text.split_unlines_eq_flatMap, List.mem_append,
      List.flatMap_append, List.mem_append] at hLine
    rcases hLine with (hCopied | hAdded) | hEnd
    · exact .inl
        (isCopy_of_copied
          ((mem_embedded_nil_iff pnp line).1 hCopied))
    · unfold searchLines at hAdded
      split at hAdded
      · rw [List.flatMap_singleton] at hAdded
        exact .inr hAdded
      · cases hAdded
    · exact absurd (List.mem_singleton.1 hEnd) hSome
  · have hNil : line = [] := by
      simpa [Text.split] using hLine
    exact absurd hNil hSome

/- When the search line is there exactly if it should be. -/
theorem search_iff
    {nameservers search pnp : Text}
    (hServer :
      Occurs nameserverPrefix (directives nameservers pnp)) :
    (searchLine search ∈
        Text.split '\n'
          (resolvConfBody nameservers search pnp) ↔
        search ≠ []) ↔
      (search = [] →
          searchLine search ∉ embedded nameservers pnp) ∧
        (search ≠ [] →
          '\n' ∉ search ∧
            (Occurs searchPrefix
                (directives nameservers pnp) →
              searchLine search ∈
                embedded nameservers pnp)) := by
  rw [searchLine_mem_body_iff hServer]
  by_cases hSearch : search = []
  · simp [hSearch]
  · have hFree :
        searchLine search ∈ embedded nameservers pnp →
          '\n' ∉ search :=
      newline_not_mem_of_embedded
    simp only [hSearch, ne_eq, not_false_eq_true,
      true_and, iff_true, false_implies, true_implies]
    constructor
    · rintro (hMem | ⟨hLine, hNone⟩)
      · exact ⟨hFree hMem, fun _ => hMem⟩
      · exact ⟨hLine, fun hOccurs => absurd hOccurs hNone⟩
    · rintro ⟨hLine, hHidden⟩
      by_cases hOccurs :
          Occurs searchPrefix (directives nameservers pnp)
      · exact Or.inl (hHidden hOccurs)
      · exact Or.inr ⟨hLine, hOccurs⟩

/- Without configured entries, a matter of the table. -/
theorem search_table_iff
    {search pnp : Text}
    (hServer : Occurs nameserverPrefix (directives [] pnp))
    (hNone :
      ∀ line ∈ Text.recordsCr pnp, ¬Names "search" line) :
    (searchLine search ∈
        Text.split '\n' (resolvConfBody [] search pnp) ↔
        search ≠ []) ↔
      (search ≠ [] →
        '\n' ∉ search ∧
          ∀ line ∈ Text.recordsCr pnp,
            Names "nameserver" line ∨ Names "domain" line →
              ¬searchPrefix <:+: line) := by
  have hAbsent : searchLine search ∉ embedded [] pnp := by
    rw [mem_embedded_nil_iff, mem_copied_iff]
    intro hLine
    exact hNone _ hLine.1 (names_searchLine search)
  have hOccurs :
      Occurs searchPrefix (directives [] pnp) ↔
        ∃ line ∈ Text.recordsCr pnp,
          (Names "nameserver" line ∨ Names "domain" line) ∧
            searchPrefix <:+: line := by
    rw [directives_of_nil]
    unfold Occurs
    simp only [mem_copied_iff]
    grind
  rw [search_iff hServer, hOccurs]
  simp only [hAbsent, not_false_eq_true, implies_true,
    true_and, imp_false, not_exists, not_and]

/- And with some, a matter of these. -/
theorem search_entries_iff
    {nameservers search pnp : Text}
    (hConfigured : nameservers ≠ [])
    (hServer :
      Occurs nameserverPrefix (directives nameservers pnp)) :
    (searchLine search ∈
        Text.split '\n'
          (resolvConfBody nameservers search pnp) ↔
        search ≠ []) ↔
      ClearEntries nameservers search := by
  rw [search_iff hServer,
    embedded_configured_iff hConfigured,
    occurs_servers_iff hConfigured]
  have hEmpty : searchLine [] = searchPrefix :=
    List.append_nil searchPrefix
  constructor
  · rintro ⟨hNone, hSome⟩
    refine ⟨?_, hSome⟩
    rintro rfl
    rw [← hEmpty]
    exact hNone rfl
  · intro hClear
    refine ⟨?_, hClear.some⟩
    rintro rfl
    rw [hEmpty]
    exact hClear.none rfl

/-
  The file is as it should be exactly where no text of one
  line is taken for another directive.
-/
theorem resolvConf_iff_unambiguous
    (nameservers search pnp : Text) :
    ResolvConf nameservers search pnp ↔
      Unambiguous nameservers search pnp := by
  constructor
  · intro hFile
    constructor
    · rintro rfl
      constructor
      · exact (resolver_iff [] search pnp).1 hFile.resolver rfl
      · intro hTable hNone
        have hServer :
            Occurs nameserverPrefix (directives [] pnp) := by
          rw [directives_of_nil, occurs_copied_iff]
          exact hTable
        apply (search_table_iff hServer hNone).1
        apply hFile.search
        · exact (resolvConfBody_ne_nil_iff _ _ _).2 hServer
        · exact fun _ => hNone
    · intro hEntry
      have hConfigured : nameservers ≠ [] := by
        rintro rfl
        simp [Text.split] at hEntry
      have hServer :=
        (occurs_configured_iff hConfigured pnp).2 hEntry
      apply (search_entries_iff hConfigured hServer).1
      apply hFile.search
      · exact (resolvConfBody_ne_nil_iff _ _ _).2 hServer
      · exact fun hNil => absurd hNil hConfigured
  · intro hClear
    constructor
    · rw [resolver_iff]
      exact fun hNil => (hClear.table hNil).resolver
    · intro hConfigured other
      exact resolvConfBody_of_configured hConfigured search
        pnp other
    · rintro rfl line hLine hSome
      exact isCopy_of_mem_body hLine hSome
    · intro hBody hNone
      have hServer :=
        (resolvConfBody_ne_nil_iff _ _ _).1 hBody
      by_cases hConfigured : nameservers = []
      · subst hConfigured
        rw [search_table_iff hServer (hNone rfl)]
        apply (hClear.table rfl).search _ (hNone rfl)
        rw [directives_of_nil, occurs_copied_iff] at hServer
        exact hServer
      · rw [search_entries_iff hConfigured hServer]
        apply hClear.entries
        exact (occurs_configured_iff hConfigured pnp).1 hServer

/- A domain whose name ends a word with `search`. -/
def researchPnp : Text :=
  "domain re-search lab\nnameserver 10.0.2.3\n".toList

/- A search domain of the config's own. -/
def corpSearch : Text := "corp.example".toList

/- The configured search domain is left out. -/
theorem search_domain_lost :
    ¬ ResolvConf [] corpSearch researchPnp := by
  intro hFile
  have hBody :
      resolvConfBody [] corpSearch researchPnp ≠ [] := by
    decide
  have hNone : NoSearchCopied [] researchPnp := by
    intro _
    decide
  have hLine := (hFile.search hBody hNone).2 (by decide)
  revert hLine
  decide

end EtcFiles

end Guest

end CargoUnikernel
