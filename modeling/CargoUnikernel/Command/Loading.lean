import CargoUnikernel.Schema.Validate

/-
  Where a config comes from.

  A config is read from a file and validated, or made up for
  a directory that has none. Flags of the command line are
  applied on top and the result validated again.

  Main declarations:
    * `OsStr`, `fileStem`, `parent`
    * `Files`, `Toml`
    * `load`, `detect`, `resolveForBuild`
    * `applyOverrides`
    * `validate_of_resolveForBuild`
    * `validate_of_applyOverrides`
-/

------------------------------------------------------------
-- Paths
------------------------------------------------------------

namespace CargoUnikernel

namespace Command

open Schema Fallible

/- A character, or bytes that encode none. -/
inductive OsUnit
| char (c : Char)
| invalid (bytes : List UInt8)
deriving DecidableEq

/- A string that need not be Unicode. -/
abbrev OsStr := List OsUnit

/- Every text is one. -/
def osStr (text : Text) : OsStr :=
  text.map .char

/- What is no character becomes a replacement character. -/
def OsUnit.lossy : OsUnit → Char
| .char c => c
| .invalid _ => '\uFFFD'

/- As `to_string_lossy` answers it. -/
def toStringLossy (s : OsStr) : Text :=
  s.map OsUnit.lossy

/- The two names that are not names of files. -/
def curDir : OsStr := osStr ".".toList
def parentDir : OsStr := osStr "..".toList

/- The parts of a path, `.` only in front. -/
def parts (path : OsStr) : List OsStr :=
  match path.splitOn (.char '/') with
  | [] => []
  | first :: rest =>
      (if first = [] then [] else [first]) ++
        rest.filter fun part =>
          decide (part ≠ [] ∧ part ≠ curDir)

/- The last name, unless it is one of these two. -/
def fileName (path : OsStr) : Option OsStr :=
  (parts path).getLast?.bind fun last =>
    if last = curDir ∨ last = parentDir then
      none
    else
      some last

/- What stands in front of the last dot. -/
def beforeLastDot (name : OsStr) : Option OsStr :=
  match name.reverse.dropWhile
      fun c => decide (c ≠ .char '.') with
  | [] => none
  | _ :: before => some before.reverse

/- A name that starts with its only dot is kept. -/
def stem (name : OsStr) : OsStr :=
  match beforeLastDot name with
  | some before => if before = [] then name else before
  | none => name

/- The last name, without its extension. -/
def fileStem (path : OsStr) : Option OsStr :=
  (fileName path).map stem

/- All but the last name. -/
def parent (path : OsStr) : Option OsStr :=
  let slash := OsUnit.char '/'
  if parts path = [] then
    none
  else
    some
      ((if path.head? = some slash then [slash] else []) ++
        [slash].intercalate (parts path).dropLast)

/- An absolute path replaces the one it is joined to. -/
def joinPath (dir path : OsStr) : OsStr :=
  let slash := OsUnit.char '/'
  if path.head? = some slash ∨ dir = [] then
    path
  else if dir.getLast? = some slash then
    dir ++ path
  else
    dir ++ slash :: path

------------------------------------------------------------
-- Files
------------------------------------------------------------

/- A file of the host: text, or not readable as text. -/
inductive Entry
| text (contents : Text)
| unreadable

/- What stands at each path. -/
abbrev Files := OsStr → Option Entry

/- Something is there, readable or not. -/
def Files.pathExists (files : Files) (path : OsStr) : Bool :=
  (files path).isSome

/- As `fs::read_to_string` answers it. -/
def Files.readToString
    (files : Files) (path : OsStr) : Option Text :=
  match files path with
  | some (.text contents) => some contents
  | _ => none

/- The two readings of a file that the program asks for. -/
structure Toml where
  config : Text → Option Config
  packageName : Text → Option Text

/- Why a command ends without having done its work. -/
inductive RunError
| readFailed (path : OsStr)
| parseFailed (path : OsStr)
| failedValidation (path : OsStr) (error : ValidationError)
| nothingToBuild (dir : OsStr)
| unknownFormat (other : Text)
| vcpusRequiresSevSnp
| vcpuTypeRequiresSevSnp
| invalid (error : ValidationError)
| measureRequiresSevSnp
| noBuildArtifacts (dist : OsStr)

/- An error under another name. -/
def orError
    {α β ε : Type} (error : α → ε) :
    Except α β → Except ε β
| .ok b => .ok b
| .error a => .error (error a)

@[simp] theorem orError_eq_ok_iff
    {α β ε : Type} (error : α → ε) (step : Except α β)
    (b : β) :
    orError error step = .ok b ↔ step = .ok b := by
  cases step with
  | error a => simp [orError]
  | ok a => simp [orError]

------------------------------------------------------------
-- Loading
------------------------------------------------------------

/- The two spellings of the config's file name. -/
def configFileName : OsStr :=
  osStr "Cargo-Unikernel.toml".toList

/- The older spelling. -/
def legacyConfigFileName : OsStr :=
  osStr "cargo-unikernel.toml".toList

section

variable (files : Files) (toml : Toml)

/- The older spelling counts only if the other is absent. -/
def defaultConfigPath : OsStr :=
  if files.pathExists configFileName then
    configFileName
  else if files.pathExists legacyConfigFileName then
    legacyConfigFileName
  else
    configFileName

/- A config is read, parsed and validated. -/
def load (path : OsStr) : Except RunError Config := do
  let raw ←
    (files.readToString path).elim
      (.error (.readFailed path)) .ok
  let config ←
    (toml.config raw).elim (.error (.parseFailed path)) .ok
  orError (.failedValidation path) config.validate
  .ok config

/- The directory a config is in. -/
def projectDirOf (configPath : OsStr) : OsStr :=
  match parent configPath with
  | some dir => if dir = [] then curDir else dir
  | none => curDir

------------------------------------------------------------
-- Without a Config
------------------------------------------------------------

/- The defaults of every table, for an app. -/
def buildConfig (name : Text) (app : App) : Config where
  project := { name := name }
  profile := { kind := .casual }
  app := app
  output := { formats := [.cpio] }

/- An app that is there already. -/
def binaryApp (path : Text) : App where
  mode := .binary
  binary := some { path := some path }

/- A Rust package, built in place. -/
def sourceApp : App where
  mode := .source
  source :=
    some { path := some ".".toList, toolchain := .rust }

/- A name for the project, where there is no config. -/
def appName (name : Option OsStr) : Text :=
  (name.map toStringLossy).getD "app".toList

/- A config for a project that has none. -/
def detect
    (projectDir : OsStr) (binaryOverride : Option OsStr) :
    Except RunError Config :=
  match binaryOverride with
  | some binary =>
      .ok
        (buildConfig (appName (fileStem binary))
          (binaryApp (toStringLossy binary)))
  | none =>
      let cargoToml :=
        joinPath projectDir (osStr "Cargo.toml".toList)
      match files.readToString cargoToml with
      | some raw =>
          .ok
            (buildConfig
              ((toml.packageName raw).getD
                (appName (fileName projectDir)))
              sourceApp)
      | none => .error (.nothingToBuild projectDir)

/-
  An explicit config, the default one, or a detected one.
-/
def resolveForBuild
    (explicitConfig binaryOverride : Option OsStr) :
    Except RunError (Config × OsStr) :=
  match explicitConfig with
  | some path => do
      let config ← load files toml path
      .ok (config, projectDirOf path)
  | none =>
      if files.pathExists (defaultConfigPath files) then do
        let config ←
          load files toml (defaultConfigPath files)
        .ok (config, curDir)
      else do
        let config ←
          detect files toml curDir binaryOverride
        .ok (config, curDir)

end

------------------------------------------------------------
-- Overrides
------------------------------------------------------------

/- What the command line sets in place of the config. -/
structure BuildOverrides where
  format : Option (List Text)
  profile : Option ProfileKind
  vcpus : Option UInt32
  vcpuType : Option Text

/- A format by its name. -/
def parseFormat (name : Text) :
    Except RunError OutputFormat :=
  let name := Text.trim name
  if name = "cpio".toList then
    .ok .cpio
  else if name = "uki".toList then
    .ok .uki
  else if name = "binary".toList then
    .ok .binary
  else
    .error (.unknownFormat name)

/- The formats of the command line replace the config's. -/
def overrideFormats
    (config : Config) :
    Option (List Text) → Except RunError Config
| none => .ok config
| some formats => do
    let parsed ← formats.mapM parseFormat
    .ok
      { config with
        output := { config.output with formats := parsed } }

/- A change to a section that has to be there. -/
def overrideSevSnp
    {α : Type} (missing : RunError)
    (change : α → SevSnp → SevSnp) (config : Config) :
    Option α → Except RunError Config
| none => .ok config
| some value =>
    match config.sevSnp with
    | none => .error missing
    | some sevSnp =>
        .ok { config with sevSnp := some (change value sevSnp) }

/- So does the profile. -/
def overrideProfile
    (config : Config) : Option ProfileKind → Config
| none => config
| some kind => { config with profile := { kind := kind } }

/- All overrides, and the config is validated again. -/
def applyOverrides
    (config : Config) (overrides : BuildOverrides) :
    Except RunError Config := do
  let config := overrideProfile config overrides.profile
  let config ← overrideFormats config overrides.format
  let config ←
    overrideSevSnp .vcpusRequiresSevSnp
      (fun vcpus sevSnp => { sevSnp with vcpus := vcpus })
      config overrides.vcpus
  let config ←
    overrideSevSnp .vcpuTypeRequiresSevSnp
      (fun vcpuType sevSnp =>
        { sevSnp with vcpuType := vcpuType })
      config overrides.vcpuType
  orError .invalid config.validate
  .ok config

------------------------------------------------------------
-- What Is Validated
------------------------------------------------------------

section

variable {files : Files} {toml : Toml}

/- A loaded config was validated. -/
theorem validate_of_load
    {path : OsStr} {config : Config}
    (hLoad : load files toml path = .ok config) :
    config.validate = .ok () := by
  unfold load at hLoad
  rcases (bind_eq_ok_iff _ _ _).1 hLoad with ⟨_, _, hRest⟩
  rcases (bind_eq_ok_iff _ _ _).1 hRest with ⟨_, _, hRest⟩
  rw [unit_bind_eq_ok_iff, orError_eq_ok_iff] at hRest
  rcases hRest with ⟨hValid, hEq⟩
  cases hEq
  exact hValid

/- So is every config that flags were applied to. -/
theorem validate_of_applyOverrides
    {loaded config : Config} {overrides : BuildOverrides}
    (hApply : applyOverrides loaded overrides = .ok config) :
    config.validate = .ok () := by
  unfold applyOverrides at hApply
  rcases (bind_eq_ok_iff _ _ _).1 hApply with ⟨_, _, hRest⟩
  rcases (bind_eq_ok_iff _ _ _).1 hRest with ⟨_, _, hRest⟩
  rcases (bind_eq_ok_iff _ _ _).1 hRest with ⟨_, _, hRest⟩
  rw [unit_bind_eq_ok_iff, orError_eq_ok_iff] at hRest
  rcases hRest with ⟨hValid, hEq⟩
  cases hEq
  exact hValid

/- What `project.name` may be. -/
def IsName (name : Text) : Prop :=
  name ≠ [] ∧ name.all Config.isNameChar = true

instance (name : Text) : Decidable (IsName name) := by
  unfold IsName
  infer_instance

/- A config that was made up has only its name to fail. -/
theorem validate_buildConfig_iff
    (name : Text) {app : App} (hRuntime : app.runtime = {})
    (hApp :
      (buildConfig name app).validateApp = .ok ()) :
    (buildConfig name app).validate = .ok () ↔
      IsName name := by
  have hProject :
      (buildConfig name app).validateProject = .ok () ↔
        IsName name := by
    unfold Config.validateProject buildConfig IsName
    simp only [unit_bind_eq_ok_iff, reject_eq_ok_iff, not_or,
      not_not, ne_eq, and_true]
  rw [Config.validate_eq_ok_iff, hProject]
  constructor
  · intro hValid
    exact hValid.1
  · intro hName
    have hInbound :
        ∀ entry ∈ defaultFirewallInbound,
          Config.validateInbound entry = .ok () := by
      decide
    have hKv :
        (buildConfig name app).validateKvEncoding = .ok () := by
      unfold Config.validateKvEncoding buildConfig
      rw [hRuntime]
      rfl
    have hList :
        (buildConfig name app).validateListEncoding =
          .ok () := by
      unfold Config.validateListEncoding buildConfig
      rw [hRuntime]
      rfl
    refine ⟨hName, rfl, rfl, hKv, rfl, hList, rfl, ?_, hApp,
      rfl, rfl⟩
    unfold Config.validateFirewall
    exact
      (unit_bind_eq_ok_iff _ _ _).2
        ⟨rfl, (forM_eq_ok_iff _ _).2 hInbound⟩

/- Without a binary, the name is the package's or `app`. -/
theorem detect_source_eq_ok
    {config : Config}
    (hDetect : detect files toml curDir none = .ok config) :
    ∃ raw,
      files.readToString
            (joinPath curDir (osStr "Cargo.toml".toList)) =
          some raw ∧
        config =
          buildConfig
            ((toml.packageName raw).getD "app".toList)
            sourceApp := by
  unfold detect at hDetect
  dsimp only at hDetect
  split at hDetect
  · rename_i raw hRaw
    cases hDetect
    exact ⟨raw, hRaw, rfl⟩
  · cases hDetect

end

end Command

end CargoUnikernel
