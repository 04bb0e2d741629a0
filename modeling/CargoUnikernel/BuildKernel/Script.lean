import CargoUnikernel.BuildKernel.Verification
import CargoUnikernel.Library.Transition
import Mathlib.Logic.Function.Basic

/-
  A run of `build_kernel.sh`, command by command.

  What the script derives from its environment alone is one
  function. The rest is a step for every command, with the
  answers of the programs it calls in the events. A run can
  fail or be killed at any command, and then leaves what it
  was changing in any state. Between runs, the files of a
  cache entry may be corrupted, but no checksum file that
  the script did not write fits its entry.

  Main declarations:
    * `Checksum`, `checksums_inj`
    * `prepare`, `Plan`
    * `World`, `Event`, `step`
    * `system`
-/

------------------------------------------------------------
-- What a Run Is Given
------------------------------------------------------------

namespace CargoUnikernel

namespace BuildKernel

open Fallible

/-
  The environment, the files that can be read, and what the
  programs and packages contribute to the fingerprint.
-/
structure Inputs where
  arguments : List Text
  environment : Text → Option Text
  scriptDir : Text
  files : Text → Option Text
  provenance : Text

/- `${name:-default}`. -/
def Inputs.expand
    (inputs : Inputs) (name default : String) : Text :=
  match inputs.environment name.toList with
  | some (c :: cs) => c :: cs
  | _ => default.toList

/- Why the script stops before it builds anything. -/
inductive ScriptError
| missingVersion
| usage
| tooManyArguments
| invalidVersion (version : Text)
| invalidSha256
| unsupportedVariable (name : String)
| unverifiedKernel (version : Text)
| unknownProfile (profile : Text)
| extraKconfig (path : Text)
| fragment (error : FragmentError)
deriving DecidableEq, Repr

/- The status that the script exits with, `:?` included. -/
def ScriptError.status : ScriptError → Nat
| _ => 1

------------------------------------------------------------
-- The Checks
------------------------------------------------------------

/- Of the pattern `[0-9]`. -/
def isDigit (c : Char) : Bool :=
  '0' ≤ c && c ≤ '9'

/- Of the pattern `[0-9a-fA-F]`. -/
def isHexDigit (c : Char) : Bool :=
  isDigit c || ('a' ≤ c && c ≤ 'f') || ('A' ≤ c && c ≤ 'F')

/- Digits, and at least one. -/
def isNumber (s : Text) : Bool :=
  s ≠ [] && s.all isDigit

/- `^[0-9]+\.[0-9]+(\.[0-9]+)?$`. -/
def isVersion (version : Text) : Bool :=
  let parts := Text.split '.' version
  (parts.length = 2 || parts.length = 3) && parts.all isNumber

/- `^[a-fA-F0-9]{64}$`. -/
def isSha256 (s : Text) : Bool :=
  s.length = 64 && s.all isHexDigit

/- Whether `--config-only` is asked for. -/
def parseArguments :
    List Text → Except ScriptError Bool
| [] => .ok false
| first :: rest => do
    let configOnly ←
      if first = [] then
        .ok false
      else if first = "--config-only".toList then
        .ok true
      else
        .error .usage
    reject (rest ≠ []) .tooManyArguments
    .ok configOnly

/- They would take Kbuild away from the tree that is checked. -/
def unsupportedVariables : List String :=
  ["KBUILD_OUTPUT", "KCONFIG_CONFIG", "KBUILD_KCONFIG",
    "MAKEFLAGS", "MFLAGS", "MAKEFILES"]

------------------------------------------------------------
-- The Selection of Fragments
------------------------------------------------------------

section Selection

variable (inputs : Inputs)

/- The fragment of the profile, casual unless it is set. -/
def profileFragment : Except ScriptError String :=
  let profile :=
    inputs.expand "CARGO_UNIKERNEL_PROFILE" "casual"
  if profile = "casual".toList then
    .ok "casual.config"
  else if profile = "sev-snp".toList then
    .ok "sev-snp.config"
  else
    .error (.unknownProfile profile)

/- `CATEGORY_ENV`, in the order of `CATEGORY_ORDER`. -/
def categories : List (String × String) :=
  [("legacy-subsystems.config",
      "CARGO_UNIKERNEL_KHARD_LEGACY_SUBSYSTEMS"),
    ("debug-interfaces.config",
      "CARGO_UNIKERNEL_KHARD_DEBUG_INTERFACES"),
    ("self-protection.config",
      "CARGO_UNIKERNEL_KHARD_SELF_PROTECTION"),
    ("exploit-mitigations.config",
      "CARGO_UNIKERNEL_KHARD_EXPLOIT_MITIGATIONS"),
    ("seccomp.config", "CARGO_UNIKERNEL_KHARD_SECCOMP")]

/- A switch that is off unless it is `1`. -/
def isOn (name : String) : Bool :=
  inputs.expand name "0" = ['1']

/- The names that are selected by a condition. -/
def selected (condition : Bool) (name : String) :
    List String :=
  if condition then [name] else []

/- The fragments under `kconfig/`, in their order. -/
def bundledFragments (profile : String) : List String :=
  let ipv4 := isOn inputs "CARGO_UNIKERNEL_NET_IPV4"
  let ipv6 := isOn inputs "CARGO_UNIKERNEL_NET_IPV6"
  let persistent :=
    isOn inputs "CARGO_UNIKERNEL_STORAGE_PERSISTENT"
  let firewall := isOn inputs "CARGO_UNIKERNEL_FIREWALL"
  ["base.config", profile] ++
    selected (ipv4 || ipv6) "network/common.config" ++
    selected ipv4 "network/ipv4.config" ++
    selected ipv6 "network/ipv6.config" ++
    selected (!ipv4 && !ipv6) "network/none.config" ++
    (categories.flatMap fun category =>
      selected (inputs.expand category.2 "1" ≠ ['0'])
        ("categories/" ++ category.1)) ++
    selected (isOn inputs "CARGO_UNIKERNEL_KHARD_FIPS")
      "categories/fips.config" ++
    selected persistent "storage/persistent.config" ++
    selected (!persistent) "storage/ram.config" ++
    selected firewall "network/firewall.config" ++
    selected (firewall && ipv6) "network/firewall-inet.config"

/- The user's own fragment comes last, so that it overrides. -/
def extraFragment : Except ScriptError (List Text) :=
  let path :=
    inputs.expand "CARGO_UNIKERNEL_EXTRA_KCONFIG_FILE" ""
  if path = [] then
    .ok []
  else if (inputs.files path).isSome then
    .ok [path]
  else
    .error (.extraKconfig path)

/- The bundled fragments and then the extra one. -/
def fragmentPaths : Except ScriptError (List Text) := do
  let profile ← profileFragment inputs
  let extra ← extraFragment inputs
  .ok ((bundledFragments inputs profile).map (fun name =>
    inputs.scriptDir ++ "/kconfig/".toList ++ name.toList) ++
      extra)

end Selection

------------------------------------------------------------
-- Checksums
------------------------------------------------------------

/- SHA-256 in hexadecimal, taken to be free of collisions. -/
structure Checksum where
  digest : Text → Text
  hex : ∀ s, ∀ c ∈ digest s, isHexDigit c = true
  injective : Function.Injective digest

/- `$(...)`: without NULs, and no newline at the end. -/
def captured (s : Text) : Text :=
  ((dropNul s).reverse.dropWhile (· = '\n')).reverse

/- What `sha256sum bzImage config symbols` prints. -/
def checksums
    (sum : Checksum) (image config symbols : Text) : Text :=
  Text.unlines
    [sum.digest image ++ "  bzImage".toList,
      sum.digest config ++ "  config".toList,
      sum.digest symbols ++ "  symbols".toList]

section

variable (sum : Checksum)

/- A digest is one line. -/
theorem newline_not_mem_digest (s : Text) :
    '\n' ∉ sum.digest s := by
  intro hMem
  exact absurd (sum.hex s _ hMem) (by decide)

/- And it has no NUL. -/
theorem dropNul_digest (s : Text) :
    dropNul (sum.digest s) = sum.digest s := by
  unfold dropNul
  rw [List.filter_eq_self]
  intro c hMem
  by_contra hNul
  rw [decide_eq_true_eq, not_not] at hNul
  rw [hNul] at hMem
  exact absurd (sum.hex s _ hMem) (by decide)

/- Only its last newline is lost when the text is captured. -/
theorem captured_checksums (image config symbols : Text) :
    captured (checksums sum image config symbols) =
      Text.join '\n'
        [sum.digest image ++ "  bzImage".toList,
          sum.digest config ++ "  config".toList,
          sum.digest symbols ++ "  symbols".toList] := by
  have hDrop :
      dropNul (checksums sum image config symbols) =
        checksums sum image config symbols := by
    have hAppend :
        ∀ s t, dropNul (s ++ t) = dropNul s ++ dropNul t := by
      intro s t
      exact List.filter_append s t
    unfold checksums Text.unlines
    simp only [List.flatMap_cons, List.flatMap_nil, hAppend,
      dropNul_digest]
    rfl
  unfold captured
  rw [hDrop]
  simp [checksums, Text.unlines, Text.join, List.intercalate]

/- The checksums tell the files apart. -/
theorem checksums_inj
    {image config symbols other otherConfig otherSymbols : Text}
    (hSame :
      captured (checksums sum image config symbols) =
        captured
          (checksums sum other otherConfig otherSymbols)) :
    image = other ∧ config = otherConfig ∧
      symbols = otherSymbols := by
  rw [captured_checksums, captured_checksums] at hSame
  have hFree :
      ∀ a b c : Text,
        ∀ part ∈ [sum.digest a ++ "  bzImage".toList,
          sum.digest b ++ "  config".toList,
          sum.digest c ++ "  symbols".toList],
          '\n' ∉ part := by
    intro a b c part hPart
    have hNames :
        '\n' ∉ "  bzImage".toList ∧ '\n' ∉ "  config".toList ∧
          '\n' ∉ "  symbols".toList := by
      decide
    simp only [List.mem_cons, List.not_mem_nil, or_false]
      at hPart
    rcases hPart with rfl | rfl | rfl
    · rw [List.mem_append, not_or]
      exact ⟨newline_not_mem_digest sum a, hNames.1⟩
    · rw [List.mem_append, not_or]
      exact ⟨newline_not_mem_digest sum b, hNames.2.1⟩
    · rw [List.mem_append, not_or]
      exact ⟨newline_not_mem_digest sum c, hNames.2.2⟩
  have hLines :=
    Text.join_inj (hFree _ _ _) (hFree _ _ _)
      (List.cons_ne_nil _ _) (List.cons_ne_nil _ _) hSame
  simp only [List.cons.injEq, List.append_cancel_right_eq,
    and_true] at hLines
  exact ⟨sum.injective hLines.1, sum.injective hLines.2.1,
    sum.injective hLines.2.2⟩

end

------------------------------------------------------------
-- Plans
------------------------------------------------------------

/- What a run derives from its inputs before it acts. -/
structure Plan where
  configOnly : Bool
  version : Text
  sha256 : Text
  directives : Directives
  fingerprint : Text

/- What `fingerprint_input` prints. -/
def fingerprintInput
    (version sha256 provenance : Text) (t : Directives) :
    Text :=
  version ++ '\n' :: (sha256 ++ '\n' :: (provenance ++
    Text.unlines (t.entries.map fun write =>
      assigned write.1 write.2.text)))

section

variable (sum : Checksum) (inputs : Inputs)

/- The script up to its first access of the cache. -/
def prepare : Except ScriptError Plan := do
  let version :=
    inputs.expand "CARGO_UNIKERNEL_KERNEL_VERSION" ""
  let sha256 :=
    inputs.expand "CARGO_UNIKERNEL_KERNEL_SHA256" ""
  reject (version = []) .missingVersion
  let configOnly ← parseArguments inputs.arguments
  reject (isVersion version = false) (.invalidVersion version)
  reject (isSha256 sha256 = false) .invalidSha256
  forM unsupportedVariables fun name =>
    reject (inputs.expand name "" ≠ [])
      (.unsupportedVariable name)
  reject (sha256 = []) (.unverifiedKernel version)
  let paths ← fragmentPaths inputs
  let t ←
    (parseFragments inputs.files paths
      WriteTable.empty).mapError .fragment
  let pinned := sha256.map Char.toLower
  .ok {
    configOnly := configOnly
    version := version
    sha256 := pinned
    directives := t
    fingerprint :=
      sum.digest
        (fingerprintInput version pinned inputs.provenance t) }

end

------------------------------------------------------------
-- Files
------------------------------------------------------------

/- An entry `bzimage/<fingerprint>/` of the cache. -/
structure Entry where
  bzImage : Option Text := none
  config : Option Text := none
  symbols : Option Text := none
  sums : Option Text := none
deriving DecidableEq, Repr

/- The directory `linux-kernel`. -/
structure Tree where
  kconfigFiles : List Text := []
  config : Option Text := none
  symbols : Option Text := none
  bzImage : Option Text := none
deriving DecidableEq, Repr

/- `make bzImage` on a tree, with its configuration after. -/
structure Compilation where
  kconfigFiles : List Text
  config : Text
  image : Text
deriving DecidableEq, Repr

------------------------------------------------------------
-- Commands
------------------------------------------------------------

/- The command that a run is at. -/
inductive Command
| lookup
| restoreImage
| restoreConfig
| removeEntry
| fetch
| checkTarball
| extract
| indexSymbols
| configure (rest : List (List Text))
| verify
| compile
| reverify
| stageImage
| stageConfig
| stageSymbols
| stageSums
| publish
| report

/- Where a run of the script is. -/
inductive Phase
| idle
| started (inputs : Inputs)
| running (inputs : Inputs) (plan : Plan) (command : Command)
| exited (inputs : Inputs) (status : Nat)

/-
  The files, and what has happened: the compilations that
  finished and the checksum files that were put in place,
  each with the fingerprint of its entry.
-/
structure World where
  phase : Phase
  tarballs : Text → Option Text
  entries : Text → Option Entry
  tree : Tree
  stage : Entry
  compilations : List Compilation
  written : List (Text × Text)

/- `scripts/config` with its arguments. -/
def configArguments : Key × Directive → List Text
| (key, .enable) => ["--enable".toList, key]
| (key, .disable) => ["--disable".toList, key]
| (key, .setStr value) => ["--set-str".toList, key, value]
| (key, .setVal value) => ["--set-val".toList, key, value]

/- The programs that are run on `.config`, in turn. -/
def configureCommands (t : Directives) : List (List Text) :=
  [["make".toList, "defconfig".toList],
    ["make".toList, "kvm_guest.config".toList]] ++
    t.entries.map (fun write =>
      "scripts/config".toList :: configArguments write) ++
    [["make".toList, "olddefconfig".toList]]

------------------------------------------------------------
-- Entries of the Cache
------------------------------------------------------------

/- The checksum file is that of the files beside it. -/
def Fits (sum : Checksum) (entry : Entry) (text : Text) :
    Prop :=
  ∃ image config symbols sums,
    entry.bzImage = some image ∧ entry.config = some config ∧
      entry.symbols = some symbols ∧ entry.sums = some sums ∧
      captured (checksums sum image config symbols) = text ∧
      captured sums = text

/- The text that fits an entry, where there is one. -/
def fitting (sum : Checksum) (entry : Entry) : Option Text := do
  let image ← entry.bzImage
  let config ← entry.config
  let symbols ← entry.symbols
  let sums ← entry.sums
  if captured (checksums sum image config symbols) =
      captured sums then
    some (captured sums)
  else
    none

/- An entry that is whole and passes the check is used. -/
def isHit (sum : Checksum) (plan : Plan) (entry : Entry) :
    Bool :=
  match entry.config, entry.symbols with
  | some config, some symbols =>
      (fitting sum entry).isSome &&
        verifyConfig plan.directives config symbols = []
  | _, _ => false

/- What is left of an entry that is partly removed. -/
def isRemainder : Option Entry → Option Entry → Bool
| _, none => true
| none, some _ => false
| some before, some after =>
    (after.bzImage = none || after.bzImage = before.bzImage) &&
    (after.config = none || after.config = before.config) &&
    (after.symbols = none || after.symbols = before.symbols) &&
    (after.sums = none || after.sums = before.sums)

/- A tarball that fits its digest. -/
theorem fitting_eq_some_iff
    {sum : Checksum} {entry : Entry} {text : Text} :
    fitting sum entry = some text ↔ Fits sum entry text := by
  unfold fitting Fits
  simp only [bind, Option.bind_eq_some_iff]
  constructor
  · rintro ⟨image, hImage, config, hConfig, symbols, hSymbols,
      sums, hSums, hText⟩
    split at hText
    · rename_i hSame
      rw [Option.some.injEq] at hText
      exact ⟨image, config, symbols, sums, hImage, hConfig,
        hSymbols, hSums, hSame.trans hText, hText⟩
    · cases hText
  · rintro ⟨image, config, symbols, sums, hImage, hConfig,
      hSymbols, hSums, hSame, hText⟩
    refine ⟨image, hImage, config, hConfig, symbols, hSymbols,
      sums, hSums, ?_⟩
    rw [if_pos (hSame.trans hText.symm), hText]

------------------------------------------------------------
-- Steps
------------------------------------------------------------

/-
  `completes` is a command of the script itself that ends
  well, `answers` the download or a program that leaves a
  `.config`, and `compiles` the compilation. A command that
  fails ends the run, as does `killed`, and both leave a
  tree and what remains of the entry.
-/
inductive Event
| begin (inputs : Inputs)
| completes
| answers (text : Text)
| compiles (config image : Text)
| fails (status : Nat) (tree : Tree) (left : Option Entry)
| killed (tree : Tree) (left : Option Entry)
| corrupts (fingerprint : Text) (entry : Option Entry)
| replacesTarball (version : Text) (tarball : Option Text)

namespace World

/- The run goes on with another command. -/
def goTo (w : World) (inputs : Inputs) (plan : Plan)
    (command : Command) : World :=
  { w with phase := .running inputs plan command }

/- The run ends with a status. -/
def exit (w : World) (inputs : Inputs) (status : Nat) :
    World :=
  { w with phase := .exited inputs status }

/- One entry of the cache is replaced. -/
def setEntry
    (w : World) (fingerprint : Text) (entry : Option Entry) :
    World :=
  { w with
    entries := Function.update w.entries fingerprint entry }

/- One tarball of the cache is replaced. -/
def setTarball
    (w : World) (version : Text) (tarball : Option Text) :
    World :=
  { w with
    tarballs := Function.update w.tarballs version tarball }

end World

section Steps

variable (sum : Checksum)
variable (unpack : Text → Option (List Text))

section

variable (w : World) (inputs : Inputs) (plan : Plan)

/- `verify_config .config .kconfig-symbols`. -/
def verifyTree (after : World → World) : Option World := do
  let config ← w.tree.config
  let symbols ← w.tree.symbols
  if verifyConfig plan.directives config symbols = [] then
    some (after w)
  else
    some (w.exit inputs 1)

/- The commands that are the script's own. -/
def complete : Command → Option World
| .lookup =>
    match w.entries plan.fingerprint with
    | some entry =>
        if plan.configOnly = false ∧ entry.bzImage ≠ none then
          if isHit sum plan entry then
            some (w.goTo inputs plan .restoreImage)
          else
            some (w.goTo inputs plan .removeEntry)
        else
          some (w.goTo inputs plan .fetch)
    | none => some (w.goTo inputs plan .fetch)
| .restoreImage => do
    let entry ← w.entries plan.fingerprint
    let image ← entry.bzImage
    some ({ w with tree := { w.tree with
      bzImage := some image } }.goTo inputs plan .restoreConfig)
| .restoreConfig => do
    let entry ← w.entries plan.fingerprint
    let config ← entry.config
    some ({ w with tree := { w.tree with
      config := some config } }.goTo inputs plan .report)
| .removeEntry =>
    some ((w.setEntry plan.fingerprint none).goTo
      inputs plan .fetch)
| .fetch =>
    if (w.tarballs plan.version).isSome then
      some (w.goTo inputs plan .checkTarball)
    else
      none
| .checkTarball => do
    let tarball ← w.tarballs plan.version
    if sum.digest tarball = plan.sha256 then
      some (w.goTo inputs plan .extract)
    else
      some ((w.setTarball plan.version none).exit inputs 1)
| .extract => do
    let tarball ← w.tarballs plan.version
    let files ← unpack tarball
    some ({ w with tree := { kconfigFiles := files } }.goTo
      inputs plan .indexSymbols)
| .indexSymbols =>
    some ({ w with tree := { w.tree with
      symbols := some (kconfigSymbols w.tree.kconfigFiles) }
      }.goTo inputs plan
        (.configure (configureCommands plan.directives)))
| .configure [] => some (w.goTo inputs plan .verify)
| .configure (_ :: _) => none
| .verify =>
    verifyTree w inputs plan fun u =>
      if plan.configOnly then
        u.goTo inputs plan .report
      else
        u.goTo inputs plan .compile
| .compile => none
| .reverify =>
    verifyTree w inputs plan fun u =>
      u.goTo inputs plan .stageImage
| .stageImage => do
    let image ← w.tree.bzImage
    some ({ w with stage := { bzImage := some image } }.goTo
      inputs plan .stageConfig)
| .stageConfig => do
    let config ← w.tree.config
    some ({ w with stage := { w.stage with
      config := some config } }.goTo inputs plan .stageSymbols)
| .stageSymbols => do
    let symbols ← w.tree.symbols
    some ({ w with stage := { w.stage with
      symbols := some symbols } }.goTo inputs plan .stageSums)
| .stageSums => do
    let image ← w.stage.bzImage
    let config ← w.stage.config
    let symbols ← w.stage.symbols
    some ({ w with stage := { w.stage with
      sums := some (checksums sum image config symbols) }
      }.goTo inputs plan .publish)
| .publish => do
    let sums ← w.stage.sums
    -- Into a directory that is there, `mv` moves the stage.
    let entry := (w.entries plan.fingerprint).getD w.stage
    some ({ w.setEntry plan.fingerprint (some entry) with
      written := (plan.fingerprint, captured sums) :: w.written
      }.goTo inputs plan .report)
| .report => some (w.exit inputs 0)

/- The commands that wait for another program's output. -/
def answer (text : Text) : Command → Option World
| .fetch =>
    if (w.tarballs plan.version).isSome then
      none
    else
      some ((w.setTarball plan.version (some text)).goTo
        inputs plan .checkTarball)
| .configure (_ :: rest) =>
    some ({ w with tree := { w.tree with
      config := some text } }.goTo inputs plan (.configure rest))
| _ => none

/- The compiler runs on the tree as it is. -/
def compileWith (config image : Text) : Command → Option World
| .compile =>
    some ({ w with
      tree := { w.tree with
        config := some config
        bzImage := some image }
      compilations :=
        ⟨w.tree.kconfigFiles, config, image⟩ :: w.compilations
      }.goTo inputs plan .reverify)
| _ => none

/- What a command that does not end leaves of the files. -/
def interrupt
    (tree : Tree) (left : Option Entry) :
    Command → Option World
| .removeEntry =>
    if isRemainder (w.entries plan.fingerprint) left then
      some { w.setEntry plan.fingerprint left with tree := tree }
    else
      none
| _ => some { w with tree := tree }

end

/- Whether a run holds the lock. -/
def isActive : Phase → Bool
| .idle => false
| .started _ => true
| .running _ _ _ => true
| .exited _ _ => false

/- One run at a time; between two, files may be damaged. -/
def step (w : World) : Event → Option World
| .begin inputs =>
    if isActive w.phase then
      none
    else
      some { w with phase := .started inputs }
| .corrupts fingerprint entry =>
    if isActive w.phase then
      none
    else
      match entry.bind (fitting sum) with
      | none => some (w.setEntry fingerprint entry)
      | some text =>
          if (fingerprint, text) ∈ w.written then
            some (w.setEntry fingerprint entry)
          else
            none
| .replacesTarball version tarball =>
    if isActive w.phase then
      none
    else
      some (w.setTarball version tarball)
| event =>
    match w.phase, event with
    | .started inputs, .completes =>
        match prepare sum inputs with
        | .ok plan => some (w.goTo inputs plan .lookup)
        | .error error => some (w.exit inputs error.status)
    | .started inputs, .fails status _ _ =>
        if status = 0 then none else some (w.exit inputs status)
    | .started _, .killed _ _ => some { w with phase := .idle }
    | .running inputs plan command, .completes =>
        complete sum unpack w inputs plan command
    | .running inputs plan command, .answers text =>
        answer w inputs plan text command
    | .running inputs plan command, .compiles config image =>
        compileWith w inputs plan config image command
    | .running inputs plan command, .fails status tree left =>
        if status = 0 then
          none
        else
          (interrupt w plan tree left command).map fun u =>
            u.exit inputs status
    | .running _ plan command, .killed tree left =>
        (interrupt w plan tree left command).map fun u =>
          { u with phase := .idle }
    | _, _ => none

/- Before any run: an empty cache, and any tarballs. -/
def isNew (w : World) : Prop :=
  w.phase = .idle ∧
    (∀ fingerprint, w.entries fingerprint = none) ∧
    w.compilations = [] ∧ w.written = []

/- The script as a transition system. -/
def system : Transition.System World Event where
  init := isNew
  step := step sum unpack

end Steps

end BuildKernel

end CargoUnikernel
