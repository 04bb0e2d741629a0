import CargoUnikernel.Command.Assets
import CargoUnikernel.Library.Cuts
import CargoUnikernel.Library.Hex
import CargoUnikernel.Library.Utf8

/-
  The fingerprint of the embedded files.

  Paths and contents go into the hash one after another, with
  nothing between them. So the bytes do not tell where a path
  ends, where a file ends or where the first tree ends, and
  whatever is embedded can be taken for something else. Two
  pairs of trees are told apart exactly if moving these ends
  does not turn the one into the other.

  Main declarations:
    * `hashDir`, `fed`, `contentFingerprint`
    * `fed_eq`, `fields`, `Recuts`
    * `fed_ne_of_sizes`, `fed_unambiguous_iff`
    * `fed_ne_iff`
-/

------------------------------------------------------------
-- What Is Hashed
------------------------------------------------------------

namespace CargoUnikernel

namespace Assets

/- The bytes of a text. -/
def encodeText (text : Text) : Bytes :=
  text.flatMap String.utf8EncodeChar

/- A path as it is displayed. -/
def displayPath (path : Path) : Text :=
  Text.join '/' path

/- One file, for a hasher that has taken some bytes before. -/
def hashFile (hasher : Bytes) (file : Path × Bytes) : Bytes :=
  hasher ++ encodeText (displayPath file.1) ++ file.2

mutual

/- The files of a directory, then its directories. -/
def hashDir : Dir → Bytes → Bytes
| .mk files dirs, hasher =>
    hashDirs dirs (files.foldl hashFile hasher)

/- One directory after another. -/
def hashDirs : List Dir → Bytes → Bytes
| [], hasher => hasher
| dir :: dirs, hasher => hashDirs dirs (hashDir dir hasher)

end

/- All that the hash function is given. -/
def Embedded.fed (assets : Embedded) : Bytes :=
  hashDir assets.guest (hashDir assets.build [])

/- Two lower-case digits for every byte. -/
def hexEncode (bytes : Bytes) : Text :=
  bytes.flatMap fun byte => Hex.display false 2 byte.toNat

section

variable (sha256 : Bytes → Bytes)

/- The first eight bytes of the digest, as text. -/
def Embedded.contentFingerprint (assets : Embedded) : Text :=
  hexEncode ((sha256 assets.fed).take 8)

/- The name of the directory that `materialize` looks for. -/
def Embedded.rootName
    (version : Text) (assets : Embedded) : Text :=
  "assets-".toList ++ version ++ "-".toList ++
    assets.contentFingerprint sha256

end

------------------------------------------------------------
-- In One Line
------------------------------------------------------------

/- What one file contributes. -/
def segment (entry : Path × Bytes) : Bytes :=
  encodeText (displayPath entry.1) ++ entry.2

/- The files are fed one after another. -/
theorem foldl_hashFile
    (files : List (Path × Bytes)) (hasher : Bytes) :
    files.foldl hashFile hasher =
      hasher ++ files.flatMap segment := by
  induction files generalizing hasher with
  | nil => simp
  | cons file files ih =>
      rw [List.foldl_cons, ih, List.flatMap_cons]
      simp [hashFile, segment]

mutual

/- So a directory is fed as its entries. -/
theorem hashDir_eq :
    ∀ (dir : Dir) (hasher : Bytes),
      hashDir dir hasher =
        hasher ++ dir.entries.flatMap segment
| .mk files dirs, hasher => by
    rw [hashDir, hashDirs_eq dirs, foldl_hashFile,
      Dir.entries, List.flatMap_append, List.append_assoc]

theorem hashDirs_eq :
    ∀ (dirs : List Dir) (hasher : Bytes),
      hashDirs dirs hasher =
        hasher ++ (entriesOf dirs).flatMap segment
| [], hasher => by
    simp [hashDirs, entriesOf]
| dir :: dirs, hasher => by
    rw [hashDirs, hashDirs_eq dirs, hashDir_eq dir, entriesOf,
      List.flatMap_append, List.append_assoc]

end

/- The files of both trees, one after another. -/
theorem fed_eq (assets : Embedded) :
    assets.fed =
      (assets.build.entries ++
        assets.guest.entries).flatMap segment := by
  unfold Embedded.fed
  rw [hashDir_eq, hashDir_eq, List.nil_append,
    List.flatMap_append]

------------------------------------------------------------
-- Names
------------------------------------------------------------

/- What a file can be called. -/
structure IsName (name : Text) : Prop where
  nonempty : name ≠ []
  noSlash : '/' ∉ name
  noNul : '\x00' ∉ name
  notHere : name ≠ ".".toList
  notUp : name ≠ "..".toList

/- Every file has a path, of such names. -/
def Embedded.Named (assets : Embedded) : Prop :=
  ∀ entry ∈ assets.build.entries ++ assets.guest.entries,
    entry.1 ≠ [] ∧ ∀ name ∈ entry.1, IsName name

/- Texts one after another. -/
theorem encodeText_append (first second : Text) :
    encodeText (first ++ second) =
      encodeText first ++ encodeText second :=
  Utf8.encode_append first second

/- The bytes of a text tell it. -/
theorem encodeText_inj
    {text other : Text}
    (hBytes : encodeText text = encodeText other) :
    text = other :=
  Utf8.encode_inj hBytes

/- A text has bytes. -/
theorem encodeText_ne_nil
    {text : Text} (hText : text ≠ []) :
    encodeText text ≠ [] := by
  intro hNil
  exact hText (encodeText_inj hNil)

/- A path starts with the name it starts with. -/
theorem displayPath_cons (name : Text) (path : Path) :
    ∃ more, displayPath (name :: path) = name ++ more := by
  cases path with
  | nil => exact ⟨[], by simp [displayPath, Text.join]⟩
  | cons next path =>
      exact ⟨_, Text.join_cons_cons '/' name next path⟩

/- Paths of names are told apart when displayed. -/
theorem displayPath_inj
    {path other : Path}
    (hPath : path ≠ [] ∧ ∀ name ∈ path, IsName name)
    (hOther : other ≠ [] ∧ ∀ name ∈ other, IsName name)
    (hSame : displayPath path = displayPath other) :
    path = other := by
  apply Text.join_inj _ _ hPath.1 hOther.1 hSame
  · intro name hMem
    exact (hPath.2 name hMem).noSlash
  · intro name hMem
    exact (hOther.2 name hMem).noSlash

------------------------------------------------------------
-- Files of the Same Sizes
------------------------------------------------------------

/- Where each path and each file ends. -/
def sizes (entries : List (Path × Bytes)) : List (Nat × Nat) :=
  entries.map fun entry =>
    ((encodeText (displayPath entry.1)).length,
      entry.2.length)

/- The length is that of the sizes. -/
theorem length_flatMap_segment
    {entries others : List (Path × Bytes)}
    (hSizes : sizes entries = sizes others) :
    (entries.flatMap segment).length =
      (others.flatMap segment).length := by
  have hSums :
      ∀ entries : List (Path × Bytes),
        (entries.flatMap segment).length =
          ((sizes entries).map fun size =>
            size.1 + size.2).sum := by
    intro entries
    induction entries with
    | nil => rfl
    | cons entry entries ih =>
        rw [List.flatMap_cons, List.length_append, ih]
        simp [segment, sizes]
  rw [hSums, hSums, hSizes]

/- With the ends known, the files can be told from the bytes. -/
theorem eq_of_segments
    {entries others : List (Path × Bytes)}
    (hNamed :
      ∀ entry ∈ entries ++ others,
        entry.1 ≠ [] ∧ ∀ name ∈ entry.1, IsName name)
    (hSizes : sizes entries = sizes others)
    (hBytes :
      entries.flatMap segment = others.flatMap segment) :
    entries = others := by
  induction entries generalizing others with
  | nil =>
      cases others with
      | nil => rfl
      | cons other others => cases hSizes
  | cons entry entries ih =>
      cases others with
      | nil => cases hSizes
      | cons other others =>
          unfold sizes at hSizes
          rw [List.map_cons, List.map_cons, List.cons.injEq,
            Prod.mk.injEq] at hSizes
          rcases hSizes with ⟨⟨hPathSize, hSize⟩, hRest⟩
          rw [List.flatMap_cons, List.flatMap_cons] at hBytes
          unfold segment at hBytes
          rcases List.append_inj hBytes
            (by simp [hPathSize, hSize]) with
            ⟨hHead, hTail⟩
          rcases List.append_inj hHead hPathSize with
            ⟨hText, hContent⟩
          have hPath : entry.1 = other.1 := by
            apply displayPath_inj _ _ (encodeText_inj hText)
            · exact hNamed entry (by simp)
            · exact hNamed other (by simp)
          have hEntries : entries = others := by
            apply ih _ hRest hTail
            intro name hMem
            apply hNamed name
            rcases List.mem_append.1 hMem with hMem | hMem
            · exact
                List.mem_append_left _
                  (List.mem_cons_of_mem _ hMem)
            · exact
                List.mem_append_right _
                  (List.mem_cons_of_mem _ hMem)
          rw [Prod.ext hPath hContent, hEntries]

/- The files of both trees, in order. -/
def Embedded.listings (assets : Embedded) :
    List (Path × Bytes) × List (Path × Bytes) :=
  (assets.build.entries, assets.guest.entries)

/-
  An edit that leaves every path and every file as long as it
  was is seen.
-/
theorem fed_ne_of_sizes
    {assets other : Embedded}
    (hNamed : assets.Named) (hOther : other.Named)
    (hBuild :
      sizes assets.build.entries = sizes other.build.entries)
    (hGuest :
      sizes assets.guest.entries = sizes other.guest.entries)
    (hDiffer : assets.listings ≠ other.listings) :
    assets.fed ≠ other.fed := by
  intro hFed
  apply hDiffer
  rw [fed_eq, fed_eq, List.flatMap_append,
    List.flatMap_append] at hFed
  rcases List.append_inj hFed (length_flatMap_segment hBuild)
    with ⟨hFirst, hSecond⟩
  apply Prod.ext
  · apply eq_of_segments _ hBuild hFirst
    intro entry hMem
    rcases List.mem_append.1 hMem with hMem | hMem
    · exact hNamed entry (List.mem_append_left _ hMem)
    · exact hOther entry (List.mem_append_left _ hMem)
  · apply eq_of_segments _ hGuest hSecond
    intro entry hMem
    rcases List.mem_append.1 hMem with hMem | hMem
    · exact hNamed entry (List.mem_append_right _ hMem)
    · exact hOther entry (List.mem_append_right _ hMem)

------------------------------------------------------------
-- Any Files
------------------------------------------------------------

/- One file, in the first tree. -/
def oneInBuild (name : Text) (bytes : Bytes) : Embedded where
  build := .mk [([name], bytes)] []
  guest := .mk [] []
  build_distinct := List.nodup_singleton _
  guest_distinct := List.nodup_nil

/- And in the second. -/
def oneInGuest (name : Text) (bytes : Bytes) : Embedded where
  build := .mk [] []
  guest := .mk [([name], bytes)] []
  build_distinct := List.nodup_nil
  guest_distinct := List.nodup_singleton _

/- The name and the bytes, and nothing between them. -/
theorem fed_oneInBuild (name : Text) (bytes : Bytes) :
    (oneInBuild name bytes).fed = encodeText name ++ bytes := by
  rw [fed_eq]
  simp [oneInBuild, Dir.entries, entriesOf, segment,
    displayPath, Text.join]

theorem fed_oneInGuest (name : Text) (bytes : Bytes) :
    (oneInGuest name bytes).fed = encodeText name ++ bytes := by
  rw [fed_eq]
  simp [oneInGuest, Dir.entries, entriesOf, segment,
    displayPath, Text.join]

/- A tree with one file, properly named. -/
theorem named_oneInBuild
    {name : Text} (hName : IsName name) (bytes : Bytes) :
    (oneInBuild name bytes).Named := by
  intro entry hMem
  simp only [oneInBuild, Dir.entries, entriesOf,
    List.append_nil, List.mem_singleton] at hMem
  rw [hMem]
  simpa using hName

theorem named_oneInGuest
    {name : Text} (hName : IsName name) (bytes : Bytes) :
    (oneInGuest name bytes).Named := by
  intro entry hMem
  simp only [oneInGuest, Dir.entries, entriesOf,
    List.append_nil, List.nil_append,
    List.mem_singleton] at hMem
  rw [hMem]
  simpa using hName

/- The file is in one tree or in the other. -/
theorem listings_one_ne (name : Text) (bytes : Bytes) :
    (oneInBuild name bytes).listings ≠
      (oneInGuest name bytes).listings := by
  intro hSame
  have hBuild := congrArg Prod.fst hSame
  simp [Embedded.listings, oneInBuild, oneInGuest,
    Dir.entries, entriesOf] at hBuild

/- What is hashed starts with the name of a file, if any. -/
theorem exists_name_of_entries
    {assets : Embedded} (hNamed : assets.Named)
    (hSome :
      assets.build.entries ++ assets.guest.entries ≠ []) :
    ∃ name bytes,
      IsName name ∧ assets.fed = encodeText name ++ bytes := by
  rcases List.exists_cons_of_ne_nil hSome with
    ⟨entry, entries, hEntries⟩
  have hEntry := hNamed entry (by simp [hEntries])
  rcases List.exists_cons_of_ne_nil hEntry.1 with
    ⟨name, path, hPath⟩
  rcases displayPath_cons name path with ⟨more, hMore⟩
  refine
    ⟨name,
      encodeText more ++ (entry.2 ++ entries.flatMap segment),
      hEntry.2 name (by simp [hPath]), ?_⟩
  rw [fed_eq, hEntries, List.flatMap_cons, segment, hPath,
    hMore, encodeText_append, List.append_assoc,
    List.append_assoc]

/- Only empty trees feed nothing. -/
theorem listings_eq_of_fed_nil
    {assets : Embedded} (hNamed : assets.Named)
    (hFed : assets.fed = []) :
    assets.listings = ([], []) := by
  by_cases hSome :
      assets.build.entries ++ assets.guest.entries = []
  · rcases List.append_eq_nil_iff.1 hSome with
      ⟨hBuild, hGuest⟩
    unfold Embedded.listings
    rw [hBuild, hGuest]
  · rcases exists_name_of_entries hNamed hSome with
      ⟨name, bytes, hName, hStart⟩
    rw [hStart, List.append_eq_nil_iff] at hFed
    exact absurd hFed.1 (encodeText_ne_nil hName.nonempty)

/-
  Other files always give other bytes exactly where there are
  no files. With any file, the same bytes are those of a lone
  one, in either tree.
-/
theorem fed_unambiguous_iff
    {assets : Embedded} (hNamed : assets.Named) :
    (∀ other : Embedded,
      other.Named →
        other.listings ≠ assets.listings →
          other.fed ≠ assets.fed) ↔
      assets.build.entries = [] ∧
        assets.guest.entries = [] := by
  constructor
  · intro hUnambiguous
    rw [← List.append_eq_nil_iff]
    by_contra hSome
    rcases exists_name_of_entries hNamed hSome with
      ⟨name, bytes, hName, hFed⟩
    have hBuild :
        (oneInBuild name bytes).listings =
          assets.listings := by
      by_contra hDiffer
      apply hUnambiguous _ (named_oneInBuild hName bytes)
        hDiffer
      rw [fed_oneInBuild, hFed]
    have hGuest :
        (oneInGuest name bytes).listings =
          assets.listings := by
      by_contra hDiffer
      apply hUnambiguous _ (named_oneInGuest hName bytes)
        hDiffer
      rw [fed_oneInGuest, hFed]
    exact listings_one_ne name bytes (hBuild.trans hGuest.symm)
  · intro hNone other hOther hDiffer hFed
    apply hDiffer
    have hEmpty : assets.fed = [] := by
      rw [fed_eq, hNone.1, hNone.2]
      rfl
    rw [listings_eq_of_fed_nil hOther (hFed.trans hEmpty),
      listings_eq_of_fed_nil hNamed hEmpty]

------------------------------------------------------------
-- Two Pairs of Trees
------------------------------------------------------------

/- The texts that are hashed: each path and its contents. -/
def Embedded.fields (assets : Embedded) : List Bytes :=
  (assets.build.entries ++ assets.guest.entries).flatMap
    fun entry => [encodeText (displayPath entry.1), entry.2]

/- The fields in a row are what is fed. -/
theorem flatten_fields (assets : Embedded) :
    assets.fields.flatten = assets.fed := by
  rw [fed_eq]
  unfold Embedded.fields
  induction assets.build.entries ++ assets.guest.entries with
  | nil => rfl
  | cons entry entries ih =>
      rw [List.flatMap_cons, List.flatMap_cons,
        List.flatten_append, ih]
      simp [segment]

/-
  Moving the ends of paths and of contents turns the one into
  the other. Where the first tree ends is no part of it.
-/
def Embedded.Recuts (assets other : Embedded) : Prop :=
  Cuts.Recut assets.fields other.fields

/- Every path and every file is as long as it was. -/
structure Embedded.SameSizes
    (assets other : Embedded) : Prop where
  build :
    sizes assets.build.entries = sizes other.build.entries
  guest :
    sizes assets.guest.entries = sizes other.guest.entries

/-
  Different pairs give different bytes exactly if the one is
  not the other with ends moved; so they do where each path
  and each file has kept its length.
-/
theorem fed_ne_iff
    {assets other : Embedded}
    (hNamed : assets.Named) (hOther : other.Named)
    (hDiffer : assets.listings ≠ other.listings) :
    (assets.fed ≠ other.fed ↔ ¬assets.Recuts other) ∧
      (assets.SameSizes other → assets.fed ≠ other.fed) := by
  constructor
  · rw [← flatten_fields assets, ← flatten_fields other]
    exact not_congr Cuts.flatten_eq_iff_recut
  · intro hSizes
    exact
      fed_ne_of_sizes hNamed hOther hSizes.build hSizes.guest
        hDiffer

/- A file edited in place is told from what it was. -/
theorem fed_ne_edited :
    (oneInBuild ['a'] [98]).fed ≠
        (oneInBuild ['a'] [99]).fed ∧
      ¬(oneInBuild ['a'] [98]).Recuts
        (oneInBuild ['a'] [99]) := by
  have hName : IsName ['a'] := by
    constructor <;> decide
  have hFed :=
    fed_ne_iff (named_oneInBuild hName [98])
      (named_oneInBuild hName [99]) (by decide)
  have hSizes :
      (oneInBuild ['a'] [98]).SameSizes
        (oneInBuild ['a'] [99]) := by
    constructor
    · decide
    · rfl
  have hEdited := hFed.2 hSizes
  exact ⟨hEdited, hFed.1.1 hEdited⟩

/-
  Files `a` with `bc` and `ab` with `c`: the same directory is
  looked for, whatever the hash function is.
-/
theorem split_name_collides :
    ∃ assets other : Embedded,
      assets.Named ∧ other.Named ∧
        assets.build.entries ++ assets.guest.entries ≠
          other.build.entries ++ other.guest.entries ∧
        assets.fed = other.fed ∧
        ∀ (sha256 : Bytes → Bytes) (version : Text),
          assets.rootName sha256 version =
            other.rootName sha256 version := by
  have hFed :
      (oneInBuild ['a'] [98, 99]).fed =
        (oneInBuild ['a', 'b'] [99]).fed := by
    rw [fed_oneInBuild, fed_oneInBuild]
    decide
  refine
    ⟨oneInBuild ['a'] [98, 99], oneInBuild ['a', 'b'] [99],
      ?_, ?_, ?_, hFed, ?_⟩
  · apply named_oneInBuild
    constructor <;> decide
  · apply named_oneInBuild
    constructor <;> decide
  · decide
  · intro sha256 version
    unfold Embedded.rootName Embedded.contentFingerprint
    rw [hFed]

end Assets

end CargoUnikernel
