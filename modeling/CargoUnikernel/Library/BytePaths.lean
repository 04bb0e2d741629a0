import CargoUnikernel.Library.FileTree
import CargoUnikernel.Library.Utf8

/-
  Paths as bytes, and a directory that is mounted elsewhere.

  A file name is any bytes but the slash and the NUL. A path
  that reads as text has the same names afterwards. In any
  other path some names are changed, and none of the changed
  names is special.

  Main declarations:
    * `IsFileName`, `pathSteps`, `joinPath`, `namesPath`
    * `Machine`, `resolve`, `bindMount`
    * `pathSteps_below`, `resolve_below`
    * `splitOn_encode`, `leads_of_joinPath`
    * `replaceNames`, `encode_lossy_namesPath`
-/

------------------------------------------------------------
-- Names and Paths
------------------------------------------------------------

namespace BytePaths

open FileTree Utf8

/- What separates the names of a path. -/
def slash : UInt8 := 0x2F

/- What is said of the directory itself. -/
def dot : UInt8 := 0x2E

/- What a file can be called. -/
structure IsFileName (name : Bytes) : Prop where
  nonempty : name ≠ []
  noSlash : slash ∉ name
  noNul : 0 ∉ name
  notHere : name ≠ [dot]
  notUp : name ≠ [dot, dot]

/- What is between two slashes of a path. -/
def pieceStep (piece : Bytes) : Step Bytes :=
  if piece = [] ∨ piece = [dot] then
    .here
  else if piece = [dot, dot] then
    .up
  else
    .down piece

/- The path begins at the root. -/
def isAbsolute (path : Bytes) : Bool :=
  path.head? = some slash

/- What the path asks for, step by step. -/
def pathSteps (path : Bytes) : List (Step Bytes) :=
  (if isAbsolute path then [.root] else []) ++
    (path.splitOn slash).map pieceStep

/- An absolute path replaces the one it is joined to. -/
def joinPath (base path : Bytes) : Bytes :=
  if isAbsolute path then
    path
  else if base = [] ∨ base.getLast? = some slash then
    base ++ path
  else
    base ++ slash :: path

/- The path through some names. -/
def namesPath (names : List Bytes) : Bytes :=
  [slash].intercalate names

/- A file name is one step down. -/
theorem pieceStep_of_isFileName
    {name : Bytes} (hName : IsFileName name) :
    pieceStep name = .down name := by
  unfold pieceStep
  rw [if_neg, if_neg hName.notUp]
  rintro (hNil | hHere)
  · exact hName.nonempty hNil
  · exact hName.notHere hHere

theorem namesPath_cons_cons
    (name next : Bytes) (names : List Bytes) :
    namesPath (name :: next :: names) =
      name ++ slash :: namesPath (next :: names) := by
  unfold namesPath
  rw [List.intercalate_cons_cons, List.append_assoc]
  rfl

/- No name on the way is empty, but there may be none. -/
def belowSteps (names : List Bytes) : List (Step Bytes) :=
  if names = [] then [.here] else names.map .down

/- Names joined by slashes are the steps below. -/
theorem splitOn_namesPath
    {names : List Bytes}
    (hNames : ∀ name ∈ names, IsFileName name) :
    ((namesPath names).splitOn slash).map pieceStep =
      belowSteps names := by
  unfold belowSteps
  by_cases hNil : names = []
  · rw [if_pos hNil, hNil]
    rfl
  · rw [if_neg hNil]
    have hSplit :
        (namesPath names).splitOn slash = names :=
      List.splitOn_intercalate slash
        (fun name hMem => (hNames name hMem).noSlash) hNil
    rw [hSplit]
    apply List.map_congr_left
    intro name hMem
    exact pieceStep_of_isFileName (hNames name hMem)

/- The path of some names below a directory of the root. -/
def pathBelow (top below : Bytes) : Bytes :=
  slash :: top ++ slash :: below

/- Below a top directory, from the root. -/
theorem pathSteps_below
    {top : Bytes} {names : List Bytes}
    (hTop : IsFileName top)
    (hNames : ∀ name ∈ names, IsFileName name) :
    pathSteps (pathBelow top (namesPath names)) =
      [.root, .here, .down top] ++ belowSteps names := by
  have hSplit :
      (pathBelow top (namesPath names)).splitOn slash =
        [] :: top :: (namesPath names).splitOn slash := by
    have hFirst :=
      @List.splitOn_append_cons_self _ _ _ slash []
        (top ++ slash :: namesPath names)
    rw [List.nil_append] at hFirst
    unfold pathBelow
    rw [List.cons_append, hFirst,
      List.splitOn_append_cons_self,
      List.splitOn_eq_singleton hTop.noSlash]
    rfl
  unfold pathSteps
  rw [hSplit, List.map_cons, List.map_cons,
    splitOn_namesPath hNames, pieceStep_of_isFileName hTop]
  rfl

------------------------------------------------------------
-- Replaced Names
------------------------------------------------------------

/- A name that was read as text. -/
def replaceName (name : Bytes) : Bytes :=
  encode (lossy name)

/- A text is ASCII where its bytes are. -/
theorem isAscii_of_encode
    {text : Text} {bytes : Bytes}
    (hAscii : ∀ byte ∈ bytes, byte.toNat < 0x80)
    (hBytes : encode text = bytes) :
    ∀ c ∈ text, IsAscii c := by
  have hText : text = bytes.map ascii := by
    apply encode_inj
    rw [hBytes]
    clear hBytes
    induction bytes with
    | nil => rfl
    | cons byte bytes ih =>
        rw [List.map_cons, encode_cons,
          encodeChar_ascii (hAscii byte List.mem_cons_self),
          ← ih fun other hMem =>
            hAscii other (List.mem_cons_of_mem _ hMem)]
        rfl
  intro c hMem
  rw [hText, List.mem_map] at hMem
  rcases hMem with ⟨byte, hByte, rfl⟩
  unfold IsAscii
  rw [toNat_ascii (hAscii byte hByte)]
  exact hAscii byte hByte

/- A special name does not come from any other name. -/
theorem eq_of_replaceName
    {name special : Bytes}
    (hAscii : ∀ byte ∈ special, byte.toNat < 0x80)
    (hReplace : replaceName name = special) :
    name = special := by
  have hSame : replaceName name = name :=
    encode_lossy_of_ascii (isAscii_of_encode hAscii hReplace)
  rw [← hSame, hReplace]

/- A name of dots alone is one of the special names. -/
theorem isAscii_of_mem_dots
    {special : Bytes} {byte : UInt8}
    (hDots : ∀ other ∈ special, other = dot)
    (hMem : byte ∈ special) :
    byte.toNat < 0x80 := by
  rw [hDots byte hMem]
  decide

/- What replaces a name is a file name. -/
theorem isFileName_replaceName
    {name : Bytes} (hName : IsFileName name) :
    IsFileName (replaceName name) where
  nonempty hNil :=
    hName.nonempty
      (eq_of_replaceName (fun _ hMem => by cases hMem) hNil)
  noSlash hMem :=
    hName.noSlash (mem_of_mem_encode_lossy (by decide) hMem)
  noNul hMem :=
    hName.noNul (mem_of_mem_encode_lossy (by decide) hMem)
  notHere hHere :=
    hName.notHere
      (eq_of_replaceName
        (fun _ => isAscii_of_mem_dots (by simp)) hHere)
  notUp hUp :=
    hName.notUp
      (eq_of_replaceName
        (fun _ => isAscii_of_mem_dots (by simp)) hUp)

/- The slash is a byte of its own. -/
theorem encodeChar_slash :
    String.utf8EncodeChar (ascii slash) = [slash] :=
  encodeChar_ascii (by decide)

/- Reading a path as text reads each of its names. -/
theorem encode_lossy_namesPath (names : List Bytes) :
    encode (lossy (namesPath names)) =
      namesPath (names.map replaceName) := by
  induction names with
  | nil => rfl
  | cons name names ih =>
      cases names with
      | nil =>
          unfold namesPath
          rw [List.map_singleton, List.intercalate_singleton,
            List.intercalate_singleton]
          rfl
      | cons next names =>
          rw [List.map_cons, List.map_cons,
            namesPath_cons_cons, namesPath_cons_cons,
            lossy_append_cons (by decide), encode_append,
            encode_cons, ih, encodeChar_slash]
          rfl

/- A text has all of the names that it was read from. -/
theorem isUtf8_of_map_replaceName
    {names : List Bytes}
    (hSame : names.map replaceName = names) :
    IsUtf8 (namesPath names) := by
  rw [isUtf8_iff_lossy, encode_lossy_namesPath, hSame]

------------------------------------------------------------
-- Resolving Paths
------------------------------------------------------------

/- The place a path leads to, from a directory. -/
def resolve
    (links : Nat) (tree : Disk Bytes) (cwd : Place Bytes)
    (path : Bytes) : Except (FileError Empty) (Place Bytes) :=
  if 0 ∈ path then
    .error .invalidInput
  else if path = [] then
    .error .notFound
  else
    (walk tree links cwd (pathSteps path)).result

/- What the host accepts, and where it leads. -/
theorem resolve_eq_ok_iff
    {links : Nat} {tree : Disk Bytes} {cwd place : Place Bytes}
    {path : Bytes} :
    resolve links tree cwd path = .ok place ↔
      0 ∉ path ∧ path ≠ [] ∧
        ∃ left,
          walk tree links cwd (pathSteps path) =
            .found place left := by
  unfold resolve
  by_cases hNul : 0 ∈ path
  · rw [if_pos hNul]
    simp [hNul]
  · rw [if_neg hNul]
    by_cases hNil : path = []
    · rw [if_pos hNil]
      simp [hNil]
    · rw [if_neg hNil]
      cases walk tree links cwd (pathSteps path) with
      | found there left => simp [Walk.result, hNul, hNil]
      | missing _ _ _ => simp [Walk.result]
      | notDirectory => simp [Walk.result]
      | tooManyLinks => simp [Walk.result]

/- A file tree, and the directory a program runs in. -/
structure Machine where
  links : Nat
  tree : Disk Bytes
  cwd : Place Bytes
  named :
    ∀ place, (tree.node place).isSome →
      ∀ name ∈ place, IsFileName name
  cwd_eq : tree.node cwd = some .directory

/- The bare tree has no names to check. -/
theorem named_bare
    (place : Place Bytes)
    (hSome : ((Disk.bare (N := Bytes)).node place).isSome) :
    ∀ name ∈ place, IsFileName name := by
  intro name hMem
  cases place with
  | nil => cases hMem
  | cons first rest => cases hSome

/- An entry that is added has a file name. -/
theorem named_add
    {tree : Disk Bytes} {dir : Place Bytes} {name : Bytes}
    {entry : Node Bytes}
    (hNamed :
      ∀ place, (tree.node place).isSome →
        ∀ name ∈ place, IsFileName name)
    (hName : IsFileName name)
    (place : Place Bytes)
    (hSome : ((tree.add dir name entry).node place).isSome) :
    ∀ name ∈ place, IsFileName name := by
  by_cases hNew :
      place = dir ++ [name] ∧ tree.isDirectory dir = true ∧
        (tree.node place).isNone
  · intro other hMem
    rw [hNew.1] at hMem
    rcases List.mem_append.1 hMem with hDir | hLast
    · have hThere : (tree.node dir).isSome := by
        rw [tree.isDirectory_iff.1 hNew.2.1]
        rfl
      exact hNamed dir hThere other hDir
    · rw [List.mem_singleton.1 hLast]
      exact hName
  · unfold Disk.add at hSome
    dsimp only at hSome
    rw [if_neg hNew] at hSome
    exact hNamed place hSome

/- Where a path leads on this machine. -/
def Machine.resolve (machine : Machine) (path : Bytes) :
    Except (FileError Empty) (Place Bytes) :=
  BytePaths.resolve machine.links machine.tree machine.cwd path

/- What is resolved is real, -/
theorem Machine.isReal_of_resolve
    {machine : Machine} {path : Bytes} {place : Place Bytes}
    (hResolve : machine.resolve path = .ok place) :
    machine.tree.IsReal place := by
  rcases resolve_eq_ok_iff.1 hResolve with ⟨_, _, left, hWalk⟩
  exact walk_found_isReal (Or.inl machine.cwd_eq) hWalk

/- and every name on the way is a file name. -/
theorem Machine.named_of_resolve
    {machine : Machine} {path : Bytes} {place : Place Bytes}
    (hResolve : machine.resolve path = .ok place) :
    ∀ name ∈ place, IsFileName name :=
  machine.named place
    (machine.tree.isSome_of_isReal
      (machine.isReal_of_resolve hResolve))

------------------------------------------------------------
-- Joined Paths
------------------------------------------------------------

/- A slash ends no piece that has none. -/
theorem splitOn_append_of_not_mem
    {front : Bytes} (hFree : slash ∉ front) (path : Bytes) :
    (front ++ path).splitOn slash =
      (path.splitOn slash).modifyHead (front ++ ·) := by
  induction front with
  | nil =>
      rw [List.nil_append]
      cases path.splitOn slash with
      | nil => rfl
      | cons first rest => rfl
  | cons byte front ih =>
      rw [List.mem_cons, not_or] at hFree
      have hOther : (byte == slash) = false :=
        beq_false_of_ne (Ne.symm hFree.1)
      rw [List.cons_append,
        List.splitOn_cons_eq_if_modifyHead, ih hFree.2,
        hOther, if_neg Bool.false_ne_true,
        List.modifyHead_modifyHead]
      rfl

/- No other character has the slash among its bytes. -/
theorem slash_not_mem_encodeChar
    {c : Char} (hOther : c ≠ '/') :
    slash ∉ String.utf8EncodeChar c := by
  intro hMem
  have hText : slash ∈ encode [c] := by
    rw [encode_cons]
    exact List.mem_append_left _ hMem
  have hSlash := mem_encode (by decide) hText
  exact hOther (List.mem_singleton.1 hSlash).symm

/- The pieces of a text are those of its bytes. -/
theorem splitOn_encode (path : Text) :
    (encode path).splitOn slash =
      (Text.split '/' path).map encode := by
  induction path with
  | nil => rfl
  | cons c path ih =>
      unfold Text.split at ih ⊢
      rw [encode_cons, List.splitOn_cons_eq_if_modifyHead]
      by_cases hSlash : c = '/'
      · rw [hSlash, if_pos (beq_self_eq_true '/'),
          List.map_cons, ← ih]
        exact
          @List.splitOn_append_cons_self _ _ _ slash []
            (encode path)
      · rw [splitOn_append_of_not_mem
            (slash_not_mem_encodeChar hSlash), ih,
          beq_false_of_ne hSlash,
          if_neg Bool.false_ne_true]
        cases path.splitOn '/' with
        | nil => rfl
        | cons first rest =>
            rw [List.map_cons, List.modifyHead_cons,
              List.modifyHead_cons, List.map_cons, encode_cons]

/- A text begins at the root where its bytes do. -/
theorem isAbsolute_encode (path : Text) :
    isAbsolute (encode path) =
      decide (path.head? = some '/') := by
  cases path with
  | nil => rfl
  | cons c path =>
      unfold isAbsolute
      rw [encode_cons, List.head?_cons]
      by_cases hSlash : c = '/'
      · rw [hSlash]
        rfl
      · have hFree := slash_not_mem_encodeChar hSlash
        have hSome := @String.utf8EncodeChar_ne_nil c
        rcases List.exists_cons_of_ne_nil hSome with
          ⟨first, rest, hEncode⟩
        rw [hEncode] at hFree ⊢
        rw [List.mem_cons, not_or] at hFree
        simp [Ne.symm hFree.1, hSlash]

/- So the bytes of an absolute path are one, -/
theorem isAbsolute_encode_of_head
    {path : Text} (hAbsolute : path.head? = some '/') :
    isAbsolute (encode path) = true := by
  rw [isAbsolute_encode]
  exact decide_eq_true hAbsolute

/- and those of a relative path are not. -/
theorem isRelative_encode_of_head
    {path : Text} (hRelative : path.head? ≠ some '/') :
    isAbsolute (encode path) = false := by
  rw [isAbsolute_encode]
  exact decide_eq_false hRelative

section Joined

variable {tree : Disk Bytes}

/- An absolute path is looked up from the root. -/
theorem leads_of_absolute
    {cwd there : Place Bytes} {path : Bytes}
    (hAbsolute : isAbsolute path = true)
    (hLeads : Leads tree cwd (pathSteps path) there) :
    Leads tree [] ((path.splitOn slash).map pieceStep)
      there := by
  unfold pathSteps at hLeads
  rw [hAbsolute, if_pos rfl] at hLeads
  rcases hLeads.of_append with ⟨mid, hRoot, hRest⟩
  rw [hRoot.of_word (by simp)] at hRest
  exact hRest

/- A relative path is its pieces. -/
theorem pathSteps_relative
    {path : Bytes} (hRelative : isAbsolute path = false) :
    pathSteps path = (path.splitOn slash).map pieceStep := by
  unfold pathSteps
  rw [hRelative]
  rfl

/- The steps up to a slash, however the path goes on. -/
def frontSteps (front : Bytes) : List (Step Bytes) :=
  (if isAbsolute (front ++ [slash]) then [.root] else []) ++
    (front.splitOn slash).map pieceStep

/- The pieces after the slash follow. -/
theorem pathSteps_append_slash (front path : Bytes) :
    pathSteps (front ++ slash :: path) =
      frontSteps front ++
        (path.splitOn slash).map pieceStep := by
  have hAbsolute :
      isAbsolute (front ++ slash :: path) =
        isAbsolute (front ++ [slash]) := by
    cases front with
    | nil => rfl
    | cons byte front => rfl
  unfold pathSteps frontSteps
  rw [List.splitOn_append_cons_self, List.map_append,
    hAbsolute, List.append_assoc]

/- Where a joined path leads, its base is on the way. -/
theorem leads_of_joinPath
    {cwd there : Place Bytes} {base path : Bytes}
    (hBase : base ≠ [])
    (hRelative : isAbsolute path = false)
    (hLeads :
      Leads tree cwd (pathSteps (joinPath base path)) there) :
    ∃ mid, Leads tree cwd (pathSteps base) mid ∧
      Leads tree mid (pathSteps path) there := by
  rw [pathSteps_relative hRelative]
  unfold joinPath at hLeads
  rw [hRelative, if_neg Bool.false_ne_true] at hLeads
  by_cases hLast : base.getLast? = some slash
  · rcases List.getLast?_eq_some_iff.1 hLast with
      ⟨front, rfl⟩
    rw [if_pos (Or.inr hLast), List.append_assoc,
      List.singleton_append, pathSteps_append_slash]
      at hLeads
    rcases hLeads.of_append with ⟨mid, hFront, hRest⟩
    refine ⟨mid, ?_, hRest⟩
    -- There are pieces to follow, so it is a directory.
    have hDir : tree.isDirectory mid = true := by
      cases hSplit : path.splitOn slash with
      | nil => exact absurd hSplit (List.splitOn_ne_nil _ _)
      | cons piece pieces =>
          rw [hSplit, List.map_cons] at hRest
          exact hRest.isDirectory
    rw [pathSteps_append_slash]
    exact hFront.append (.here hDir)
  · rw [if_neg (not_or.2 ⟨hBase, hLast⟩),
      pathSteps_append_slash] at hLeads
    have hSame : frontSteps base = pathSteps base := by
      unfold frontSteps pathSteps
      cases base with
      | nil => exact absurd rfl hBase
      | cons byte base => rfl
    rw [hSame] at hLeads
    exact hLeads.of_append

end Joined

------------------------------------------------------------
-- Mounts
------------------------------------------------------------

/- A tree in which a name of the root shows another place. -/
def bindMount
    (base : Disk Bytes) (top : Bytes) (tree : Disk Bytes)
    (root : Place Bytes) : Disk Bytes where
  node place :=
    match place with
    | [] => some .directory
    | name :: rest =>
        if name = top then
          tree.node (root ++ rest)
        else
          base.node (name :: rest)
  root_eq := rfl
  parent_eq place name hSome := by
    cases place with
    | nil => rfl
    | cons first rest =>
        dsimp only [List.cons_append] at hSome ⊢
        by_cases hTop : first = top
        · rw [if_pos hTop] at hSome ⊢
          apply tree.parent_eq _ name
          rwa [List.append_assoc]
        · rw [if_neg hTop] at hSome ⊢
          exact base.parent_eq _ name hSome

/- Below the top the tree that is bound is seen. -/
theorem bindMount_node
    (base : Disk Bytes) (top : Bytes) (tree : Disk Bytes)
    (root rest : Place Bytes) :
    (bindMount base top tree root).node (top :: rest) =
      tree.node (root ++ rest) :=
  if_pos rfl

/- The root, and `.` of it, is the root. -/
theorem walk_root_here
    {links : Nat} {tree : Disk Bytes}
    (rest : List (Step Bytes)) :
    walk tree links [] (.root :: .here :: rest) =
      walk tree links [] rest := by
  have hRoot : tree.isDirectory [] = true := by
    rw [Disk.isDirectory_iff]
    exact tree.root_eq
  have hWith :
      ∀ follow,
        walkWith tree links follow [] (.root :: .here :: rest) =
          walkWith tree links follow [] rest := by
    intro follow
    rw [walkWith, if_pos hRoot, walkWith, if_pos hRoot]
  cases links with
  | zero => exact hWith _
  | succ links => exact hWith _

section Below

variable {links : Nat} {tree : Disk Bytes} {top : Bytes}
variable {names : List Bytes}

/- Names below a directory of the root lead there. -/
theorem walk_below
    (hReal : tree.IsReal (top :: names))
    (hDir : names = [] → tree.node [top] = some .directory) :
    walk tree links []
        ([.root, .here, .down top] ++ belowSteps names) =
      .found (top :: names) links := by
  have hHere :
      [Step.root, .here, .down top] ++ belowSteps names =
        .root :: .here :: ([top].map .down ++ belowSteps names) :=
    rfl
  rw [hHere, walk_root_here]
  unfold belowSteps
  by_cases hNil : names = []
  · have hTop := hDir hNil
    have hTopDir : tree.isDirectory [top] = true :=
      tree.isDirectory_iff.2 hTop
    have hFirst :
        walk tree links [] ([top].map .down) =
          .found [top] links :=
      @walk_down _ _ links [] [top] (Or.inl hTop)
    rw [if_pos hNil, hNil, walk_append, hFirst]
    have hWith :
        ∀ follow,
          walkWith tree links follow [top] [.here] =
            .found [top] links := by
      intro follow
      rw [walkWith, if_pos hTopDir]
      rfl
    cases links with
    | zero => exact hWith _
    | succ links => exact hWith _
  · rw [if_neg hNil, ← List.map_append]
    exact @walk_down _ _ links [] (top :: names) hReal

/- The words of such a path lead to its names. -/
theorem foldl_belowSteps (place : Place Bytes) :
    (belowSteps names).foldl Step.apply place =
      place ++ names := by
  have hDown :
      ∀ start : Place Bytes,
        (names.map Step.down).foldl Step.apply start =
          start ++ names := by
    induction names with
    | nil => simp
    | cons name names ih =>
        intro start
        rw [List.map_cons, List.foldl_cons, ih]
        simp [Step.apply]
  unfold belowSteps
  by_cases hNil : names = []
  · rw [if_pos hNil, hNil, List.append_nil]
    rfl
  · rw [if_neg hNil]
    exact hDown place

end Below

------------------------------------------------------------
-- A Path That Is Read as Text
------------------------------------------------------------

section Shown

variable {links : Nat} {tree : Disk Bytes} {top : Bytes}
variable {names : List Bytes}

/- The path below `top` as a text shows it. -/
def shownPath (top : Bytes) (names : List Bytes) : Bytes :=
  pathBelow top (encode (lossy (namesPath names)))

/- A link of the changed names, to the place itself. -/
def HasAlias
    (links : Nat) (tree : Disk Bytes) (top : Bytes)
    (names : List Bytes) : Prop :=
  ∃ left < links,
    walk tree links [] (pathSteps (shownPath top names)) =
      .found (top :: names) left

/- The shown path is one the host accepts. -/
theorem shownPath_valid
    (hTop : IsFileName top)
    (hNames : ∀ name ∈ names, IsFileName name) :
    0 ∉ shownPath top names ∧ shownPath top names ≠ [] := by
  constructor
  · unfold shownPath pathBelow
    rw [encode_lossy_namesPath]
    simp only [List.cons_append, List.mem_cons,
      List.mem_append, not_or]
    refine ⟨by decide, hTop.noNul, by decide, ?_⟩
    rw [← encode_lossy_namesPath]
    intro hMem
    have hNul : (0 : UInt8) ∈ namesPath names :=
      mem_of_mem_encode_lossy (by decide) hMem
    clear hMem
    induction names with
    | nil => cases hNul
    | cons name names ih =>
        have hName := hNames name List.mem_cons_self
        cases names with
        | nil =>
            unfold namesPath at hNul
            rw [List.intercalate_singleton] at hNul
            exact hName.noNul hNul
        | cons next names =>
            rw [namesPath_cons_cons] at hNul
            rcases List.mem_append.1 hNul with hHead | hRest
            · exact hName.noNul hHead
            · rcases List.mem_cons.1 hRest with hSlash | hRest
              · cases hSlash
              · exact
                  ih (fun other hMem =>
                    hNames other (List.mem_cons_of_mem _ hMem))
                    hRest
  · exact List.cons_ne_nil _ _

/-
  A path that is read as text leads where it led exactly if
  it is text, or has a link to it of the name it is read as.
-/
theorem resolve_shownPath_iff
    (hTop : IsFileName top)
    (hNames : ∀ name ∈ names, IsFileName name)
    (hReal : tree.IsReal (top :: names))
    (hDir : names = [] → tree.node [top] = some .directory) :
    resolve links tree [] (shownPath top names) =
        .ok (top :: names) ↔
      IsUtf8 (namesPath names) ∨
        HasAlias links tree top names := by
  rw [resolve_eq_ok_iff]
  constructor
  · rintro ⟨_, _, left, hWalk⟩
    rcases walk_found_links hWalk with hLess | ⟨_, hSame⟩
    · exact Or.inr ⟨left, hLess, hWalk⟩
    · left
      have hReplaced :
          ∀ name ∈ names.map replaceName,
            IsFileName name := by
        intro name hMem
        rcases List.mem_map.1 hMem with ⟨old, hOld, rfl⟩
        exact isFileName_replaceName (hNames old hOld)
      unfold shownPath at hSame
      rw [encode_lossy_namesPath,
        pathSteps_below hTop hReplaced, List.foldl_append,
        foldl_belowSteps] at hSame
      exact
        isUtf8_of_map_replaceName
          (List.cons.inj hSame).2.symm
  · intro hCases
    have hValid := shownPath_valid hTop hNames
    refine ⟨hValid.1, hValid.2, ?_⟩
    rcases hCases with hUtf8 | ⟨left, _, hWalk⟩
    · refine ⟨links, ?_⟩
      unfold shownPath
      rw [(isUtf8_iff_lossy _).1 hUtf8,
        pathSteps_below hTop hNames]
      exact walk_below hReal hDir
    · exact ⟨left, hWalk⟩

end Shown

end BytePaths
