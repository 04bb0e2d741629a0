import CargoUnikernel.Guest.Baked

/-
  The accounts of the guest: `/etc/passwd` and `/etc/group`.

  Main declarations:
    * `passwd`, `group`
    * `Account`, `Group`, `readPasswd`, `readGroup`
    * `readPasswd_passwd`, `readGroup_group`
    * `Consistent`, `accounts_consistent`
-/

------------------------------------------------------------
-- The Files
------------------------------------------------------------

namespace CargoUnikernel

namespace Guest

namespace Accounts

/- The id that belongs to nobody on Linux. -/
def nobodyId : Nat := 65534

/- Left out where the app has the id already. -/
def nobodyPasswd : Text :=
  "nobody:x:65534:65534:nobody:/:/dev/null\n".toList

/- The contents of `/etc/passwd`. -/
def passwd (uid gid : Nat) : Text :=
  let s :=
    "root:x:0:0:root:/:/dev/null\napp:x:".toList ++
      Numeral.display uid ++ ':' :: Numeral.display gid ++
      ":app:/var:/dev/null\n".toList
  if uid ≠ nobodyId then s ++ nobodyPasswd else s

/- The contents of `/etc/group`. -/
def group (gid : Nat) : Text :=
  let s :=
    "root:x:0:\napp:x:".toList ++ Numeral.display gid ++
      ":\n".toList
  if gid ≠ nobodyId then
    s ++ "nobody:x:65534:\n".toList
  else
    s

------------------------------------------------------------
-- Reading Them Back
------------------------------------------------------------

/- An entry of the first file, but for its `x`. -/
structure Account where
  name : Text
  uid : Nat
  gid : Nat
  comment : Text
  home : Text
  shell : Text

/- An entry of the second, with no members. -/
structure Group where
  name : Text
  gid : Nat

/- The seven columns, with no password. -/
def Account.columns (account : Account) : List Text :=
  [account.name, ['x'], Numeral.display account.uid,
    Numeral.display account.gid, account.comment, account.home,
    account.shell]

/- The four columns, with no password and no members. -/
def Group.columns (entry : Group) : List Text :=
  [entry.name, ['x'], Numeral.display entry.gid, []]

/- As a C library takes a line apart. -/
def readAccount (line : Text) : Option Account :=
  match Text.split ':' line with
  | [name, _, uid, gid, comment, home, shell] => do
      let uid ← Numeral.parse (2 ^ 32) uid
      let gid ← Numeral.parse (2 ^ 32) gid
      some {
        name := name
        uid := uid
        gid := gid
        comment := comment
        home := home
        shell := shell }
  | _ => none

/- One line of `/etc/group`, as libc reads it. -/
def readGroupLine (line : Text) : Option Group :=
  match Text.split ':' line with
  | [name, _, gid, _] => do
      let gid ← Numeral.parse (2 ^ 32) gid
      some { name := name, gid := gid }
  | _ => none

/- Every line has to be readable. -/
def readPasswd (s : Text) : Option (List Account) :=
  (Text.records s).mapM readAccount

/- Every line has to be readable. -/
def readGroup (s : Text) : Option (List Group) :=
  (Text.records s).mapM readGroupLine

/- What the file says of root. -/
def rootAccount : Account where
  name := "root".toList
  uid := 0
  gid := 0
  comment := "root".toList
  home := "/".toList
  shell := "/dev/null".toList

/- What the file says of the app, with its ids. -/
def appAccount (uid gid : Nat) : Account where
  name := "app".toList
  uid := uid
  gid := gid
  comment := "app".toList
  home := "/var".toList
  shell := "/dev/null".toList

/- What the file says of nobody. -/
def nobodyAccount : Account where
  name := "nobody".toList
  uid := nobodyId
  gid := nobodyId
  comment := "nobody".toList
  home := "/".toList
  shell := "/dev/null".toList

/- The group of root. -/
def rootGroup : Group where
  name := "root".toList
  gid := 0

/- The app's group, with its id. -/
def appGroup (gid : Nat) : Group where
  name := "app".toList
  gid := gid

/- The group of nobody. -/
def nobodyGroup : Group where
  name := "nobody".toList
  gid := nobodyId

/- What the files are meant to have. -/
def accounts (uid gid : Nat) : List Account :=
  [rootAccount, appAccount uid gid] ++
    if uid ≠ nobodyId then [nobodyAccount] else []

/- No two groups of one id. -/
def groups (gid : Nat) : List Group :=
  [rootGroup, appGroup gid] ++
    if gid ≠ nobodyId then [nobodyGroup] else []

/- The columns, separated by colons. -/
def Account.line (account : Account) : Text :=
  Text.join ':' account.columns

/- The columns, separated by colons. -/
def Group.line (entry : Group) : Text :=
  Text.join ':' entry.columns

/- The constant is the line of that account. -/
theorem line_nobodyAccount :
    nobodyPasswd = nobodyAccount.line ++ ['\n'] := by
  decide

/- The rest of the text is the lines of root and the app. -/
theorem lines_of_app (uid gid : Nat) :
    "root:x:0:0:root:/:/dev/null\napp:x:".toList ++
        Numeral.display uid ++ ':' :: Numeral.display gid ++
        ":app:/var:/dev/null\n".toList =
      rootAccount.line ++
        '\n' :: ((appAccount uid gid).line ++ ['\n']) := by
  have hFront :
      "root:x:0:0:root:/:/dev/null\napp:x:".toList =
        rootAccount.line ++ '\n' :: "app:x:".toList := by
    decide
  rw [hFront]
  simp [Account.line, appAccount, Account.columns, Text.join,
    List.intercalate]

/- The file is the lines of its accounts. -/
theorem passwd_eq (uid gid : Nat) :
    passwd uid gid =
      Text.unlines ((accounts uid gid).map Account.line) := by
  unfold passwd accounts
  rw [lines_of_app]
  by_cases hNobody : uid ≠ nobodyId
  · rw [if_pos hNobody, if_pos hNobody, line_nobodyAccount]
    simp [Text.unlines]
  · rw [if_neg hNobody, if_neg hNobody]
    simp [Text.unlines]

/- The file is the lines of its groups. -/
theorem group_eq (gid : Nat) :
    group gid = Text.unlines ((groups gid).map Group.line) := by
  have hFront :
      "root:x:0:\napp:x:".toList =
        rootGroup.line ++ '\n' :: "app:x:".toList := by
    decide
  have hNobodyLine :
      "nobody:x:65534:\n".toList =
        nobodyGroup.line ++ ['\n'] := by
    decide
  unfold group groups
  rw [hFront, hNobodyLine]
  by_cases hNobody : gid ≠ nobodyId
  · rw [if_pos hNobody, if_pos hNobody]
    simp [Text.unlines, Group.line, appGroup, Group.columns,
      Text.join, List.intercalate]
  · rw [if_neg hNobody, if_neg hNobody]
    simp [Text.unlines, Group.line, appGroup, Group.columns,
      Text.join, List.intercalate]

/- What must not be in a column. -/
def IsColumn (column : Text) : Prop :=
  ':' ∉ column ∧ '\n' ∉ column

instance (column : Text) : Decidable (IsColumn column) :=
  inferInstanceAs (Decidable (_ ∧ _))

/- The entry can be told apart from the rest of its file. -/
structure Account.Readable (account : Account) : Prop where
  columns : ∀ column ∈ account.columns, IsColumn column
  uid : account.uid < 2 ^ 32
  gid : account.gid < 2 ^ 32

/- What a group has to be to be read back. -/
structure Group.Readable (entry : Group) : Prop where
  columns : ∀ column ∈ entry.columns, IsColumn column
  gid : entry.gid < 2 ^ 32

/- A number has no colon and no newline. -/
theorem isColumn_display (n : Nat) :
    IsColumn (Numeral.display n) := by
  constructor
  · intro hMem
    exact absurd (Numeral.isDigit_of_mem_display hMem)
      (by decide)
  · intro hMem
    exact absurd (Numeral.isDigit_of_mem_display hMem)
      (by decide)

/- Columns do not break a line. -/
theorem newline_not_mem_line
    {columns : List Text}
    (hColumns : ∀ column ∈ columns, IsColumn column) :
    '\n' ∉ Text.join ':' columns := by
  rw [Text.mem_join_iff (by decide)]
  rintro ⟨column, hMem, hNewline⟩
  exact (hColumns column hMem).2 hNewline

/- The columns of a line are those it was made of. -/
theorem split_line
    {columns : List Text} (hNonempty : columns ≠ [])
    (hColumns : ∀ column ∈ columns, IsColumn column) :
    Text.split ':' (Text.join ':' columns) = columns :=
  Text.split_join (fun column hMem => (hColumns column hMem).1)
    hNonempty

/- A line is read back as the account. -/
theorem readAccount_line
    {account : Account} (hReadable : account.Readable) :
    readAccount account.line = some account := by
  have hNonempty : account.columns ≠ [] :=
    List.cons_ne_nil _ _
  unfold readAccount Account.line
  rw [split_line hNonempty hReadable.columns]
  unfold Account.columns
  dsimp only
  rw [Numeral.parse_display hReadable.uid,
    Numeral.parse_display hReadable.gid]
  rfl

/- A line is read back as the group. -/
theorem readGroupLine_line
    {entry : Group} (hReadable : entry.Readable) :
    readGroupLine entry.line = some entry := by
  have hNonempty : entry.columns ≠ [] :=
    List.cons_ne_nil _ _
  unfold readGroupLine Group.line
  rw [split_line hNonempty hReadable.columns]
  unfold Group.columns
  dsimp only
  rw [Numeral.parse_display hReadable.gid]
  rfl

/- Lines that are each read back are read back in turn. -/
theorem mapM_records_unlines
    {α : Type} {render : α → Text} {read : Text → Option α}
    {entries : List α}
    (hFree : ∀ entry ∈ entries, '\n' ∉ render entry)
    (hRead :
      ∀ entry ∈ entries, read (render entry) = some entry) :
    (Text.records (Text.unlines (entries.map render))).mapM
        read =
      some entries := by
  rw [Text.records_unlines]
  · clear hFree
    induction entries with
    | nil => rfl
    | cons entry entries ih =>
        rw [List.forall_mem_cons] at hRead
        rw [List.map_cons, List.mapM_cons, hRead.1,
          ih hRead.2]
        rfl
  · intro line hLine
    rcases List.mem_map.1 hLine with ⟨entry, hMem, rfl⟩
    exact hFree entry hMem

/- What the host accepts as ids makes readable accounts. -/
theorem readable_accounts
    {uid gid : Nat} (hUid : uid < 2 ^ 32)
    (hGid : gid < 2 ^ 32) :
    ∀ account ∈ accounts uid gid, account.Readable := by
  have hRoot : rootAccount.Readable :=
    ⟨by decide, by decide, by decide⟩
  have hNobody : nobodyAccount.Readable :=
    ⟨by decide, by decide, by decide⟩
  have hApp : (appAccount uid gid).Readable := by
    have hName : IsColumn "app".toList := by
      decide
    have hHome : IsColumn "/var".toList := by
      decide
    have hShell : IsColumn "/dev/null".toList := by
      decide
    refine ⟨?_, hUid, hGid⟩
    unfold Account.columns
    simp only [List.forall_mem_cons]
    exact ⟨hName, by decide, isColumn_display uid,
      isColumn_display gid, hName, hHome, hShell,
      List.forall_mem_nil _⟩
  unfold accounts
  intro account hMem
  simp only [List.cons_append, List.nil_append,
    List.mem_cons] at hMem
  rcases hMem with rfl | rfl | hMem
  · exact hRoot
  · exact hApp
  · split at hMem
    · rw [List.mem_singleton.1 hMem]
      exact hNobody
    · cases hMem

/- What the host accepts as ids makes readable groups. -/
theorem readable_groups
    {gid : Nat} (hGid : gid < 2 ^ 32) :
    ∀ entry ∈ groups gid, entry.Readable := by
  have hRoot : rootGroup.Readable :=
    ⟨by decide, by decide⟩
  have hNobody : nobodyGroup.Readable :=
    ⟨by decide, by decide⟩
  have hApp : (appGroup gid).Readable := by
    have hName : IsColumn "app".toList := by
      decide
    refine ⟨?_, hGid⟩
    unfold Group.columns
    simp only [List.forall_mem_cons]
    exact ⟨hName, by decide, isColumn_display gid, by decide,
      List.forall_mem_nil _⟩
  unfold groups
  intro entry hMem
  simp only [List.cons_append, List.nil_append,
    List.mem_cons] at hMem
  rcases hMem with rfl | rfl | hMem
  · exact hRoot
  · exact hApp
  · split at hMem
    · rw [List.mem_singleton.1 hMem]
      exact hNobody
    · cases hMem

/- The file is read back as its accounts. -/
theorem readPasswd_passwd
    {uid gid : Nat} (hUid : uid < 2 ^ 32)
    (hGid : gid < 2 ^ 32) :
    readPasswd (passwd uid gid) = some (accounts uid gid) := by
  have hReadable := readable_accounts hUid hGid
  unfold readPasswd
  rw [passwd_eq]
  apply mapM_records_unlines
  · intro account hMem
    exact newline_not_mem_line (hReadable account hMem).columns
  · intro account hMem
    exact readAccount_line (hReadable account hMem)

/- The file is read back as its groups. -/
theorem readGroup_group
    {gid : Nat} (hGid : gid < 2 ^ 32) :
    readGroup (group gid) = some (groups gid) := by
  have hReadable := readable_groups hGid
  unfold readGroup
  rw [group_eq]
  apply mapM_records_unlines
  · intro entry hMem
    exact newline_not_mem_line (hReadable entry hMem).columns
  · intro entry hMem
    exact readGroupLine_line (hReadable entry hMem)

------------------------------------------------------------
-- One Entry for Each
------------------------------------------------------------

/- No two entries clash, and the app has one of its own. -/
structure Consistent
    (uid gid : Nat) (accounts : List Account)
    (groups : List Group) : Prop where
  names : (accounts.map Account.name).Nodup
  uids : (accounts.map Account.uid).Nodup
  groupNames : (groups.map Group.name).Nodup
  gids : (groups.map Group.gid).Nodup
  grouped :
    ∀ account ∈ accounts,
      ∃ entry ∈ groups, entry.gid = account.gid
  app :
    ∃ account ∈ accounts, account.name = "app".toList ∧
      account.uid = uid ∧ account.gid = gid

/- No two accounts have one name. -/
theorem nodup_accountNames :
    ["root".toList, "app".toList, "nobody".toList].Nodup := by
  decide

/- The account of nobody is there unless the app has its id. -/
theorem nodup_ids {id : Nat} (hId : id ≠ 0) :
    ([0, id] ++ if id ≠ nobodyId then [nobodyId] else
      []).Nodup := by
  split
  · next hNobody =>
      have hRoot : nobodyId ≠ 0 := by
        decide
      simp [hId.symm, hRoot.symm, hNobody]
  · simp [hId.symm]

/- Ids other than root's make consistent files. -/
theorem consistent_accounts
    {uid gid : Nat} (hUid : uid ≠ 0) (hGid : gid ≠ 0) :
    Consistent uid gid (accounts uid gid) (groups gid) := by
  have hUids := nodup_ids hUid
  have hGids := nodup_ids hGid
  unfold accounts groups
  constructor
  case names =>
    split
    · exact nodup_accountNames
    · exact nodup_accountNames.sublist
        (List.sublist_append_left
          ["root".toList, "app".toList] ["nobody".toList])
  case groupNames =>
    split
    · exact nodup_accountNames
    · exact nodup_accountNames.sublist
        (List.sublist_append_left
          ["root".toList, "app".toList] ["nobody".toList])
  case uids =>
    rw [List.map_append, apply_ite (List.map Account.uid)]
    exact hUids
  case gids =>
    rw [List.map_append, apply_ite (List.map Group.gid)]
    exact hGids
  case grouped =>
    intro account hMem
    simp only [List.cons_append, List.nil_append,
      List.mem_cons] at hMem
    rcases hMem with rfl | rfl | hMem
    · exact ⟨rootGroup, by simp, rfl⟩
    · exact ⟨appGroup gid, by simp, rfl⟩
    · split at hMem
      · rw [List.mem_singleton.1 hMem]
        by_cases hNobody : gid = nobodyId
        · exact ⟨appGroup gid, by simp, hNobody⟩
        · exact ⟨nobodyGroup, by simp [hNobody], rfl⟩
      · cases hMem
  case app =>
    exact ⟨appAccount uid gid, by simp, rfl, rfl, rfl⟩

/-
  For every id that the init accepts, the files read back,
  with no two entries for one name or one id and a group for
  every account.
-/
theorem accounts_consistent
    {uid gid : Nat} (hUid : uid < 2 ^ 32)
    (hGid : gid < 2 ^ 32)
    (hIds : Baked.validateAppIds uid gid = .ok ()) :
    ∃ accounts groups,
      readPasswd (passwd uid gid) = some accounts ∧
        readGroup (group gid) = some groups ∧
        Consistent uid gid accounts groups := by
  unfold Baked.validateAppIds at hIds
  rw [Fallible.reject_eq_ok_iff, not_or, not_or, not_or] at hIds
  exact ⟨_, _, readPasswd_passwd hUid hGid,
    readGroup_group hGid,
    consistent_accounts hIds.1.1 hIds.2.1⟩

theorem accounts_consistent_nobody :
    ∃ accounts groups,
      readPasswd (passwd 65534 1000) = some accounts ∧
        readGroup (group 1000) = some groups ∧
        Consistent 65534 1000 accounts groups :=
  accounts_consistent (by decide) (by decide) (by rfl)

end Accounts

end Guest

end CargoUnikernel
