import CargoUnikernel.Library.Fallible
import CargoUnikernel.Pipeline.GuestInitScript

/-
  The Landlock sandbox of the app.

  A rule grants rights on a directory and everything beneath
  it, or on one file. The rights of a path are those of all
  rules that cover it together, so what no single rule
  grants has to be shown of overlapping rules as well.

  Main declarations:
    * `locate`, `GuestFiles`
    * `builtinRules`, `rulesFor`, `build`
    * `Covers`, `effective`, `has_effective_iff`
    * `has_effective_of_allows`
    * `sandbox_access_bound`
-/

------------------------------------------------------------
-- Rights
------------------------------------------------------------

namespace CargoUnikernel

namespace Guest

namespace Landlock

open Fallible BuildScript

/- `LANDLOCK_ACCESS_FS_*` from `linux/landlock.h`. -/
def fsExecute : UInt64 := (1 : UInt64) <<< 0
def fsWriteFile : UInt64 := (1 : UInt64) <<< 1
def fsReadFile : UInt64 := (1 : UInt64) <<< 2
def fsReadDir : UInt64 := (1 : UInt64) <<< 3
def fsRemoveDir : UInt64 := (1 : UInt64) <<< 4
def fsRemoveFile : UInt64 := (1 : UInt64) <<< 5
def fsMakeChar : UInt64 := (1 : UInt64) <<< 6
def fsMakeDir : UInt64 := (1 : UInt64) <<< 7
def fsMakeReg : UInt64 := (1 : UInt64) <<< 8
def fsMakeSock : UInt64 := (1 : UInt64) <<< 9
def fsMakeFifo : UInt64 := (1 : UInt64) <<< 10
def fsMakeBlock : UInt64 := (1 : UInt64) <<< 11
def fsMakeSym : UInt64 := (1 : UInt64) <<< 12
def fsRefer : UInt64 := (1 : UInt64) <<< 13
def fsTruncate : UInt64 := (1 : UInt64) <<< 14
def fsIoctlDev : UInt64 := (1 : UInt64) <<< 15

/- The first version that knows every one of them. -/
def minAbi : Nat := 5

/- Every right the interface knows about. -/
def handledAccessFs (abi : Nat) : UInt64 :=
  let access :=
    fsExecute ||| fsWriteFile ||| fsReadFile ||| fsReadDir |||
      fsRemoveDir ||| fsRemoveFile ||| fsMakeChar |||
      fsMakeDir ||| fsMakeReg ||| fsMakeSock ||| fsMakeFifo |||
      fsMakeBlock ||| fsMakeSym ||| fsRefer ||| fsTruncate
  if 5 ≤ abi then access ||| fsIoctlDev else access

/- Rights that are granted together. -/
def readAccess : UInt64 := fsReadFile ||| fsReadDir

def readExec : UInt64 := readAccess ||| fsExecute

/- All that can be done to files, but executing them. -/
def readWrite : UInt64 :=
  readAccess ||| fsWriteFile ||| fsTruncate ||| fsRemoveDir |||
    fsRemoveFile ||| fsMakeDir ||| fsMakeReg ||| fsMakeSock |||
    fsMakeFifo ||| fsMakeSym ||| fsRefer

/- Devices are opened, and neither made nor removed. -/
def devReadWrite : UInt64 := fsReadFile ||| fsWriteFile

def devRead : UInt64 := fsReadFile

def devPty : UInt64 :=
  fsReadFile ||| fsWriteFile ||| fsIoctlDev

def devAttestation : UInt64 :=
  fsReadFile ||| fsWriteFile ||| fsIoctlDev

/- Without `danger-allow-write-execute`. -/
def scratch : UInt64 := readWrite

/- What a rule can grant on a file that is no directory. -/
def fileAccess : UInt64 :=
  fsExecute ||| fsReadFile ||| fsWriteFile ||| fsTruncate |||
    fsIoctlDev

/- Some bit of the right is set. -/
def has (access right : UInt64) : Bool :=
  access &&& right != 0

/- A right of the mask, or the mask of the right. -/
theorem has_comm (access right : UInt64) :
    has access right = has right access := by
  unfold has
  rw [UInt64.and_comm]

/- Masking takes rights away. -/
theorem has_of_has_and
    {access mask right : UInt64}
    (hHas : has (access &&& mask) right = true) :
    has access right = true := by
  unfold has at hHas ⊢
  rw [bne_iff_ne] at hHas ⊢
  intro hZero
  apply hHas
  rw [UInt64.and_comm access, UInt64.and_assoc, hZero]
  exact UInt64.and_zero

/- Masks distribute. -/
theorem or_and_distrib (a b c : UInt64) :
    (a ||| b) &&& c = (a &&& c) ||| (b &&& c) := by
  apply UInt64.toNat_inj.1
  simp only [UInt64.toNat_and, UInt64.toNat_or]
  exact Nat.and_or_distrib_right ..

@[simp] theorem has_or (a b right : UInt64) :
    has (a ||| b) right = (has a right || has b right) := by
  unfold has
  rw [or_and_distrib, Bool.eq_iff_iff]
  simp only [bne_iff_ne, Bool.or_eq_true, ne_eq]
  rw [← not_and_or, not_iff_not]
  rw [← UInt64.toNat_inj, ← UInt64.toNat_inj,
    ← UInt64.toNat_inj, UInt64.toNat_or]
  exact Nat.or_eq_zero_iff

/- One of two rights. -/
theorem has_or_right (access a b : UInt64) :
    has access (a ||| b) = (has access a || has access b) := by
  rw [has_comm, has_or, has_comm a, has_comm b]

------------------------------------------------------------
-- Paths
------------------------------------------------------------

/- The names on the way from the root. -/
abbrev Path := List Text

/- One step of a path. -/
def follow (here : Path) (part : Text) : Path :=
  if part = [] ∨ part = ".".toList then
    here
  else if part = "..".toList then
    here.dropLast
  else
    here ++ [part]

/- Where a path leads. -/
def locate (path : Text) : Path :=
  (Text.split '/' path).foldl follow []

/- Whether the rights of directories apply. -/
inductive Kind
| directory
| other
deriving DecidableEq

/- The devices that the rules name. -/
def ptmx : Path := ["dev".toList, "ptmx".toList]
def pts : Path := ["dev".toList, "pts".toList]
def sevGuest : Path := ["dev".toList, "sev-guest".toList]

/-
  The files of the guest. The two device nodes that take
  control requests are no directories.
-/
structure GuestFiles where
  kind : Path → Option Kind
  ptmx_device : kind ptmx ≠ some .directory
  sevGuest_device : kind sevGuest ≠ some .directory

------------------------------------------------------------
-- Rules
------------------------------------------------------------

/- Whether an absent path is an error. -/
inductive Presence
| required
| optional
deriving DecidableEq

/- A path, its rights, and whether it has to be there. -/
structure Rule where
  path : Text
  access : UInt64
  presence : Presence

/- Without the path there is no boot. -/
def required (path : Text) (access : UInt64) : Rule where
  path := path
  access := access
  presence := .required

/- Without the path there is no rule. -/
def optional (path : String) (access : UInt64) : Rule where
  path := path.toList
  access := access
  presence := .optional

/- What every app may open. -/
def builtinRules (payloadDir : Text) (sevSnp : Bool) :
    List Rule :=
  [required payloadDir readExec,
    required "/tmp".toList scratch,
    required "/var".toList scratch,
    required "/var/tmp".toList scratch,
    required "/run".toList readWrite,
    required "/dev/shm".toList scratch,
    optional "/etc" readAccess,
    required "/proc".toList readAccess,
    optional "/sys/devices/system/cpu" readAccess,
    optional "/dev/null" devReadWrite,
    optional "/dev/zero" devReadWrite,
    optional "/dev/full" devReadWrite,
    optional "/dev/random" devRead,
    optional "/dev/urandom" devRead,
    optional "/dev/ptmx" devPty,
    optional "/dev/pts" devPty] ++
    if sevSnp then
      [optional "/dev/sev-guest" devAttestation]
    else
      []

/- The built-in rules, and the configured ones after them. -/
def rulesFor
    (payloadDir : Text) (sevSnp : Bool)
    (extraRead extraReadWrite : List Text) : List Rule :=
  builtinRules payloadDir sevSnp ++
    extraRead.map (fun path => required path readAccess) ++
    extraReadWrite.map fun path => required path readWrite

------------------------------------------------------------
-- The Ruleset
------------------------------------------------------------

/- Why there is no ruleset. -/
inductive Fatal
| abiTooOld (abi : Nat)
| nulInPath (path : Text)
| missingPath (path : Text)
deriving DecidableEq

/- Rights on one opened file or directory. -/
structure Grant where
  path : Path
  kind : Kind
  access : UInt64

/- Rights of directories are not granted on files. -/
def maskFor (kind : Kind) (access : UInt64) : UInt64 :=
  match kind with
  | .directory => access
  | .other => access &&& fileAccess

/- An absent path is skipped if it is optional. -/
def addRule (files : GuestFiles) (rule : Rule) :
    Except Fatal (Option Grant) :=
  if '\x00' ∈ rule.path then
    .error (.nulInPath rule.path)
  else
    match files.kind (locate rule.path) with
    | some kind =>
        .ok
          (some
            { path := locate rule.path
              kind := kind
              access := maskFor kind rule.access })
    | none =>
        if rule.presence = .optional then
          .ok none
        else
          .error (.missingPath rule.path)

/- What is handled at all, and what is granted. -/
structure Ruleset where
  handled : UInt64
  grants : List Grant

/- The first rule that cannot be added is the end. -/
def build
    (abi : Nat) (files : GuestFiles)
    (payloadDir : Text) (sevSnp : Bool)
    (extraRead extraReadWrite : List Text) :
    Except Fatal Ruleset := do
  reject (abi < minAbi) (.abiTooOld abi)
  let grants ←
    (rulesFor payloadDir sevSnp extraRead
      extraReadWrite).mapM (addRule files)
  .ok
    { handled := handledAccessFs abi
      grants := grants.filterMap id }

/- Only a directory has anything beneath it. -/
def Grant.covers (grant : Grant) (p : Path) : Prop :=
  match grant.kind with
  | .directory => grant.path <+: p
  | .other => grant.path = p

/-
  What is not governed is allowed, and what is governed is
  allowed where some grant on the way has it.
-/
def Ruleset.Allows
    (ruleset : Ruleset) (p : Path) (right : UInt64) : Prop :=
  has ruleset.handled right = false ∨
    ∃ grant ∈ ruleset.grants,
      grant.covers p ∧ has grant.access right = true

------------------------------------------------------------
-- Effective Rights
------------------------------------------------------------

section

variable (files : GuestFiles)

/- The rule is on the path or on a directory above it. -/
def Covers (rule : Rule) (p : Path) : Prop :=
  match files.kind (locate rule.path) with
  | none => False
  | some .directory => locate rule.path <+: p
  | some .other => locate rule.path = p

instance (rule : Rule) (p : Path) :
    Decidable (Covers files rule p) := by
  unfold Covers
  split
  all_goals infer_instance

/- All rights of all the rules that cover the path. -/
def effective (rules : List Rule) (p : Path) : UInt64 :=
  (rules.filter fun rule => decide (Covers files rule p)).foldr
    (fun rule access => rule.access ||| access) 0

variable {files}

/- A right of the union is a right of some rule. -/
theorem has_effective_iff
    (rules : List Rule) (p : Path) (right : UInt64) :
    has (effective files rules p) right = true ↔
      ∃ rule ∈ rules,
        Covers files rule p ∧
          has rule.access right = true := by
  have hFold : ∀ covering : List Rule,
      has (covering.foldr
          (fun rule access => rule.access ||| access) 0)
          right = true ↔
        ∃ rule ∈ covering, has rule.access right = true := by
    intro covering
    induction covering with
    | nil => simp [has]
    | cons rule covering ih =>
        rw [List.foldr_cons, has_or, Bool.or_eq_true, ih]
        simp
  unfold effective
  rw [hFold]
  simp only [List.mem_filter, decide_eq_true_eq, and_assoc]

/- A covered path is the rule's or beneath it. -/
theorem prefix_of_covers
    {rule : Rule} {p : Path} (hCovers : Covers files rule p) :
    locate rule.path <+: p := by
  unfold Covers at hCovers
  split at hCovers
  · exact absurd hCovers id
  · exact hCovers
  · exact hCovers ▸ List.prefix_rfl

end

------------------------------------------------------------
-- What A Built Ruleset Allows
------------------------------------------------------------

/- What a grant allows is what its rule asks for. -/
theorem covers_of_addRule
    {files : GuestFiles} {rule : Rule} {grant : Grant}
    (hAdd : addRule files rule = .ok (some grant))
    {p : Path} {right : UInt64}
    (hCovers : grant.covers p)
    (hHas : has grant.access right = true) :
    Covers files rule p ∧ has rule.access right = true := by
  unfold addRule at hAdd
  by_cases hNul : '\x00' ∈ rule.path
  · rw [if_pos hNul] at hAdd
    cases hAdd
  · rw [if_neg hNul] at hAdd
    unfold Covers
    cases hKind : files.kind (locate rule.path) with
    | none =>
        rw [hKind] at hAdd
        dsimp only at hAdd
        split at hAdd
        · cases hAdd
        · cases hAdd
    | some kind =>
        rw [hKind] at hAdd
        cases hAdd
        cases kind with
        | directory => exact ⟨hCovers, hHas⟩
        | other =>
            have hMasked :
                has (rule.access &&& fileAccess) right =
                  true := hHas
            exact ⟨hCovers, has_of_has_and hMasked⟩

/- The rights that every ruleset governs. -/
def governed : List UInt64 :=
  [fsExecute, fsWriteFile, fsReadFile, fsReadDir,
    fsRemoveDir, fsRemoveFile, fsMakeChar, fsMakeDir,
    fsMakeReg, fsMakeSock, fsMakeFifo, fsMakeBlock,
    fsMakeSym, fsRefer, fsTruncate, fsIoctlDev]

/- All that is governed is handled. -/
theorem has_handledAccessFs
    {abi : Nat} (hAbi : ¬ abi < minAbi)
    {right : UInt64} (hRight : right ∈ governed) :
    has (handledAccessFs abi) right = true := by
  have hAll :
      governed.all (has (handledAccessFs minAbi)) = true := by
    rfl
  have hMask : handledAccessFs abi = handledAccessFs minAbi := by
    have hGovernsIoctl : 5 ≤ abi := Nat.not_lt.1 hAbi
    unfold handledAccessFs minAbi
    simp only [hGovernsIoctl, if_true]
    rfl
  rw [hMask]
  exact List.all_eq_true.1 hAll right hRight

/-
  What the kernel enforces stays within the union of the
  rules, for every right there is.
-/
theorem has_effective_of_allows
    {abi : Nat} {files : GuestFiles} {payloadDir : Text}
    {sevSnp : Bool} {extraRead extraReadWrite : List Text}
    {ruleset : Ruleset}
    (hBuild :
      build abi files payloadDir sevSnp extraRead
        extraReadWrite = .ok ruleset)
    {p : Path} {right : UInt64}
    (hRight : right ∈ governed)
    (hAllows : ruleset.Allows p right) :
    has
      (effective files
        (rulesFor payloadDir sevSnp extraRead
          extraReadWrite) p)
      right = true := by
  unfold build at hBuild
  rcases (bind_eq_ok_iff _ _ _).1 hBuild with
    ⟨_, hAbi, hRest⟩
  rcases (bind_eq_ok_iff _ _ _).1 hRest with
    ⟨grants, hGrants, hOk⟩
  cases hOk
  rcases hAllows with hUngoverned | hGranted
  · have hGoverned :=
      has_handledAccessFs ((reject_eq_ok_iff _ _).1 hAbi)
        hRight
    dsimp only at hUngoverned
    rw [hGoverned] at hUngoverned
    cases hUngoverned
  · rcases hGranted with ⟨grant, hMem, hCovers, hHas⟩
    rw [List.mem_filterMap] at hMem
    rcases hMem with ⟨result, hResult, hSome⟩
    have hSome : result = some grant := hSome
    rw [hSome] at hResult
    rcases exists_item_of_mapM hGrants hResult with
      ⟨rule, hRule, hAdd⟩
    rw [has_effective_iff]
    exact ⟨rule, hRule, covers_of_addRule hAdd hCovers hHas⟩

------------------------------------------------------------
-- Where Each Right Comes From
------------------------------------------------------------

/- The rights that change what a directory holds. -/
def mutating : UInt64 :=
  fsWriteFile ||| fsTruncate ||| fsMakeReg ||| fsRefer |||
    fsRemoveFile

/- Without any of these rights, without each. -/
theorem has_eq_false_of_mem_mutating
    {access right : UInt64}
    (hNone : has access mutating = false)
    (hRight :
      right ∈
        [fsWriteFile, fsTruncate, fsMakeReg, fsRefer,
          fsRemoveFile]) :
    has access right = false := by
  unfold mutating at hNone
  simp only [has_or_right, Bool.or_eq_false_iff] at hNone
  rcases hNone with
    ⟨⟨⟨⟨hWrite, hTruncate⟩, hReg⟩, hRefer⟩, hRemove⟩
  simp only [List.mem_cons, List.not_mem_nil, or_false]
    at hRight
  rcases hRight with rfl | rfl | rfl | rfl | rfl
  · exact hWrite
  · exact hTruncate
  · exact hReg
  · exact hRefer
  · exact hRemove

/- Where the app's files are. -/
def payload : Text := "/payload".toList

/- One of the two paths is on the way to the other. -/
def Related (p q : Path) : Prop :=
  p <+: q ∨ q <+: p

instance (p q : Path) : Decidable (Related p q) := by
  unfold Related
  infer_instance

/- Two places above one are above each other. -/
theorem related_of_prefix
    {p q r : Path} (hLeft : p <+: r) (hRight : q <+: r) :
    Related p q :=
  List.prefix_or_prefix_of_prefix hLeft hRight

/- The payload's rule is the only one with execute. -/
theorem path_of_execute (sevSnp : Bool) :
    ∀ rule ∈ builtinRules payload sevSnp,
      has rule.access fsExecute = true →
        locate rule.path = locate payload := by
  cases sevSnp <;> decide

/- No built-in rule has devices made. -/
theorem not_make_of_mem_builtinRules (sevSnp : Bool) :
    ∀ rule ∈ builtinRules payload sevSnp,
      has rule.access (fsMakeChar ||| fsMakeBlock) =
        false := by
  cases sevSnp <;> decide

/- Control requests are for the three device paths. -/
theorem path_of_ioctl (sevSnp : Bool) :
    ∀ rule ∈ builtinRules payload sevSnp,
      has rule.access fsIoctlDev = true →
        locate rule.path = ptmx ∨
          locate rule.path = pts ∨
            sevSnp = true ∧ locate rule.path = sevGuest := by
  cases sevSnp <;> decide

/- No built-in writable path meets the payload. -/
theorem not_related_of_mutating (sevSnp : Bool) :
    ∀ rule ∈ builtinRules payload sevSnp,
      has rule.access mutating = true →
        ¬ Related (locate rule.path) (locate payload) := by
  cases sevSnp <;> decide

section

variable {files : GuestFiles}
variable {sevSnp : Bool} {extraRead extraReadWrite : List Text}
variable {rule : Rule}

/- A rule is built in, or has one of two fixed masks. -/
theorem mem_rulesFor_iff :
    rule ∈
        rulesFor payload sevSnp extraRead extraReadWrite ↔
      rule ∈ builtinRules payload sevSnp ∨
        (∃ path ∈ extraRead,
          rule = required path readAccess) ∨
        ∃ path ∈ extraReadWrite,
          rule = required path readWrite := by
  unfold rulesFor
  simp only [List.mem_append, List.mem_map, or_assoc,
    eq_comm (b := rule)]

/- What neither extra mask has, a built-in rule grants. -/
theorem mem_builtinRules_of_has
    {right : UInt64}
    (hRead : has readAccess right = false)
    (hReadWrite : has readWrite right = false)
    (hRule :
      rule ∈
        rulesFor payload sevSnp extraRead extraReadWrite)
    (hHas : has rule.access right = true) :
    rule ∈ builtinRules payload sevSnp := by
  rcases mem_rulesFor_iff.1 hRule with
    hBuiltin | ⟨path, _, rfl⟩ | ⟨path, _, rfl⟩
  · exact hBuiltin
  · have hHas : has readAccess right = true := hHas
    rw [hRead] at hHas
    cases hHas
  · have hHas : has readWrite right = true := hHas
    rw [hReadWrite] at hHas
    cases hHas

/- Execute is in the rights of the payload only. -/
theorem prefix_of_execute
    {p : Path}
    (hHas :
      has
        (effective files
          (rulesFor payload sevSnp extraRead extraReadWrite)
          p)
        fsExecute = true) :
    locate payload <+: p := by
  rcases (has_effective_iff _ _ _).1 hHas with
    ⟨rule, hRule, hCovers, hAccess⟩
  have hBuiltin :=
    mem_builtinRules_of_has (by decide) (by decide) hRule
      hAccess
  rw [← path_of_execute sevSnp rule hBuiltin hAccess]
  exact prefix_of_covers hCovers

/- A rule for a device covers nothing else. -/
theorem eq_device_of_covers
    {device p : Path}
    (hDevice : files.kind device ≠ some .directory)
    (hPath : locate rule.path = device)
    (hCovers : Covers files rule p) :
    p = device := by
  unfold Covers at hCovers
  rw [hPath] at hCovers
  split at hCovers
  · exact absurd hCovers id
  · exact absurd ‹_› hDevice
  · exact hCovers.symm

/- Where the devices' own commands are allowed. -/
theorem path_of_effective_ioctl
    {p : Path}
    (hHas :
      has
        (effective files
          (rulesFor payload sevSnp extraRead extraReadWrite)
          p)
        fsIoctlDev = true) :
    p = ptmx ∨ pts <+: p ∨ sevSnp = true ∧ p = sevGuest := by
  rcases (has_effective_iff _ _ _).1 hHas with
    ⟨rule, hRule, hCovers, hAccess⟩
  have hBuiltin :=
    mem_builtinRules_of_has (by decide) (by decide) hRule
      hAccess
  rcases path_of_ioctl sevSnp rule hBuiltin hAccess with
    hPtmx | hPts | ⟨hSevSnp, hSevGuest⟩
  · apply Or.inl
    exact eq_device_of_covers files.ptmx_device hPtmx
      hCovers
  · apply Or.inr
    apply Or.inl
    rw [← hPts]
    exact prefix_of_covers hCovers
  · apply Or.inr
    apply Or.inr
    constructor
    · exact hSevSnp
    · exact
        eq_device_of_covers files.sevGuest_device
          hSevGuest hCovers

/- Nowhere is a device made. -/
theorem not_make_of_effective (p : Path) :
    has
      (effective files
        (rulesFor payload sevSnp extraRead extraReadWrite)
        p)
      (fsMakeChar ||| fsMakeBlock) = false := by
  rw [← Bool.not_eq_true, has_effective_iff]
  rintro ⟨rule, hRule, _, hAccess⟩
  have hBuiltin :=
    mem_builtinRules_of_has (by decide) (by decide) hRule
      hAccess
  rw [not_make_of_mem_builtinRules sevSnp rule hBuiltin]
    at hAccess
  cases hAccess

/- A rule that lets the app change what it covers. -/
theorem not_related_of_rule
    (hApart :
      ∀ path ∈ extraReadWrite,
        ¬ Related (locate path) (locate payload))
    (hRule :
      rule ∈
        rulesFor payload sevSnp extraRead extraReadWrite)
    (hHas : has rule.access mutating = true) :
    ¬ Related (locate rule.path) (locate payload) := by
  rcases mem_rulesFor_iff.1 hRule with
    hBuiltin | ⟨path, _, rfl⟩ | ⟨path, hPath, rfl⟩
  · exact not_related_of_mutating sevSnp rule hBuiltin hHas
  · have hHas : has readAccess mutating = true := hHas
    exact absurd hHas (by decide)
  · exact hApart path hPath

/- Where the app may run a file, it may not change it. -/
theorem not_mutating_of_execute
    (hApart :
      ∀ path ∈ extraReadWrite,
        ¬ Related (locate path) (locate payload))
    {p : Path}
    (hExecute :
      has
        (effective files
          (rulesFor payload sevSnp extraRead extraReadWrite)
          p)
        fsExecute = true) :
    has
      (effective files
        (rulesFor payload sevSnp extraRead extraReadWrite)
        p)
      mutating = false := by
  rw [← Bool.not_eq_true, has_effective_iff]
  rintro ⟨rule, hRule, hCovers, hAccess⟩
  apply not_related_of_rule hApart hRule hAccess
  apply related_of_prefix (prefix_of_covers hCovers)
  exact prefix_of_execute hExecute

end

------------------------------------------------------------
-- The Access Bound
------------------------------------------------------------

/- The payload directory of every configuration. -/
theorem constant_payloadDir (config : Schema.Config) :
    constant (Pipeline.appEnvExports config) .payloadDir =
      payload :=
  Pipeline.constant_appEnvExports config .payloadDir

/-
  The effective rights of every path, with the payload
  directory that the pipeline bakes in, and that the kernel
  allows nothing else with the ruleset that is built.
-/
theorem sandbox_access_bound
    (config : Schema.Config) (files : GuestFiles)
    (sevSnp : Bool) (extraRead extraReadWrite : List Text) :
    let payloadDir :=
      constant (Pipeline.appEnvExports config) .payloadDir
    let rights :=
      effective files
        (rulesFor payloadDir sevSnp extraRead extraReadWrite)
    (∀ p,
      has (rights p) fsExecute = true →
        locate payloadDir <+: p) ∧
    (∀ p,
      has (rights p) fsIoctlDev = true →
        p = ptmx ∨ pts <+: p ∨ sevSnp = true ∧ p = sevGuest) ∧
    (∀ p,
      has (rights p) fsMakeChar = false ∧
        has (rights p) fsMakeBlock = false) ∧
    ((∀ path ∈ extraReadWrite,
        ¬ locate path <+: locate payloadDir ∧
          ¬ locate payloadDir <+: locate path) →
      ∀ p,
        has (rights p) fsExecute = true →
          ∀ right ∈
              [fsWriteFile, fsTruncate, fsMakeReg, fsRefer,
                fsRemoveFile],
            has (rights p) right = false) ∧
    ∀ abi ruleset,
      build abi files payloadDir sevSnp extraRead
          extraReadWrite =
        .ok ruleset →
        ∀ p, ∀ right ∈ governed,
          ruleset.Allows p right →
            has (rights p) right = true := by
  rw [constant_payloadDir config]
  refine ⟨?_, ?_, ?_, ?_, ?_⟩
  · intro p hExecute
    exact prefix_of_execute hExecute
  · intro p hIoctl
    exact path_of_effective_ioctl hIoctl
  · intro p
    have hMake :
        has
          (effective files
            (rulesFor payload sevSnp extraRead
              extraReadWrite) p)
          (fsMakeChar ||| fsMakeBlock) = false :=
      not_make_of_effective p
    rw [has_or_right, Bool.or_eq_false_iff] at hMake
    exact hMake
  · intro hApart p hExecute right hRight
    have hMutating :=
      not_mutating_of_execute
        (fun path hPath => not_or.2 (hApart path hPath))
        hExecute
    exact has_eq_false_of_mem_mutating hMutating hRight
  · intro abi ruleset hBuild p right hRight hAllows
    exact has_effective_of_allows hBuild hRight hAllows

/- All that is looked for is there, the devices as devices. -/
def guestFiles : GuestFiles where
  kind p :=
    if p = ptmx ∨ p = sevGuest then
      some .other
    else
      some .directory
  ptmx_device := by
    decide
  sevGuest_device := by
    decide

/- A right that is allowed, and one that is not. -/
theorem sandbox_access_bound_guest :
    ∃ ruleset,
      build 6 guestFiles payload true ["/etc".toList]
            ["/data".toList] =
          .ok ruleset ∧
        ruleset.Allows (locate "/payload/app".toList)
          fsExecute ∧
        ¬ ruleset.Allows (locate "/data/app".toList)
          fsExecute ∧
        ¬ ruleset.Allows (locate "/data/app".toList)
          fsIoctlDev := by
  have hBuild :
      ∃ ruleset,
        build 6 guestFiles payload true ["/etc".toList]
              ["/data".toList] =
            .ok ruleset ∧
          ∃ grant ∈ ruleset.grants,
            grant.covers (locate "/payload/app".toList) ∧
              has grant.access fsExecute = true :=
    ⟨_, rfl, _, List.mem_cons_self,
      ⟨["app".toList], rfl⟩, by decide⟩
  rcases hBuild with ⟨ruleset, hBuild, hGranted⟩
  have hBound :=
    sandbox_access_bound
      (Schema.casualConfigWithFormats [.cpio]) guestFiles true
      ["/etc".toList] ["/data".toList]
  rcases hBound with ⟨hExecute, hIoctl, _, _, hAllows⟩
  refine ⟨ruleset, hBuild, Or.inr hGranted, ?_, ?_⟩
  · intro hAllowed
    have hBelow :=
      hExecute _
        (hAllows 6 ruleset hBuild _ _ (by decide) hAllowed)
    revert hBelow
    decide
  · intro hAllowed
    have hDevice :=
      hIoctl _
        (hAllows 6 ruleset hBuild _ _ (by decide) hAllowed)
    revert hDevice
    decide

end Landlock

end Guest

end CargoUnikernel
