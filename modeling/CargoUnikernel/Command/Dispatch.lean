import CargoUnikernel.Command.Loading

/-
  The subcommands, and what each of them hands its config to.

  `build` applies its flags and validates the result, also
  where the config was made up. `release` has no flags and
  takes the config as it was resolved.

  Main declarations:
    * `Subcommand`, `Action`, `run`
    * `OnlyValidated`, `UnvalidatedRelease`
    * `onlyValidated_iff`
-/

------------------------------------------------------------
-- Running a Subcommand
------------------------------------------------------------

namespace CargoUnikernel

namespace Command

open Schema Fallible

/- The parsed arguments of each subcommand. -/
inductive Subcommand
| init (profile : ProfileKind) (path : Option OsStr)
| build
    (config binary : Option OsStr)
    (overrides : BuildOverrides)
| measure (config : Option OsStr)
| doctor
| githubInit (config : Option OsStr) (attestProvenance : Bool)
| release
    (config : Option OsStr) (tag : Option Text)
    (noBuild : Bool)

/- The call a subcommand ends in, with its arguments. -/
inductive Action
| scaffold (profile : ProfileKind) (dir : OsStr)
| build (config : Config) (projectDir : OsStr)
| compute (config : Config) (projectDir : OsStr)
| doctor
| githubInit (config : OsStr) (attestProvenance : Bool)
| release
    (config : Config) (projectDir : OsStr)
    (tag : Option Text) (noBuild : Bool)

/- Without the slashes it ends with. -/
def trimEndSlashes (dir : Text) : Text :=
  (dir.reverse.dropWhile fun c => c = '/').reverse

/- The output directory, without slashes at its end. -/
def distDirOf (config : Config) (projectDir : OsStr) : OsStr :=
  joinPath projectDir (osStr (trimEndSlashes config.output.dir))

/- An artifact of the project, by its extension. -/
def distArtifact
    (config : Config) (projectDir : OsStr)
    (extension : String) : OsStr :=
  joinPath (distDirOf config projectDir)
    (osStr (config.project.name ++ extension.toList))

section

variable (files : Files) (toml : Toml)

/- `measure` works on what an earlier build left. -/
def runMeasure (configPath : OsStr) :
    Except RunError Action := do
  let projectDir := projectDirOf configPath
  let loaded ← load files toml configPath
  reject (loaded.profile.kind ≠ .sevSnp)
    .measureRequiresSevSnp
  let bzimage := distArtifact loaded projectDir ".bzImage"
  let cpio := distArtifact loaded projectDir ".cpio"
  reject
    (¬ files.pathExists bzimage ∨ ¬ files.pathExists cpio)
    (.noBuildArtifacts (distDirOf loaded projectDir))
  .ok (.compute loaded projectDir)

/- What a command line leads to. -/
def run : Subcommand → Except RunError Action
| .init profile path =>
    .ok (.scaffold profile (path.getD curDir))
| .build config binary overrides => do
    let (loaded, projectDir) ←
      resolveForBuild files toml config binary
    let finalConfig ← applyOverrides loaded overrides
    .ok (.build finalConfig projectDir)
| .measure config =>
    runMeasure files toml
      (config.getD (defaultConfigPath files))
| .doctor => .ok .doctor
| .githubInit config attestProvenance =>
    .ok
      (.githubInit (config.getD (defaultConfigPath files))
        attestProvenance)
| .release config tag noBuild => do
    let (loaded, projectDir) ←
      resolveForBuild files toml config none
    .ok (.release loaded projectDir tag noBuild)

end

------------------------------------------------------------
-- What Reaches the Pipeline
------------------------------------------------------------

/- The config that is built or released. -/
def Action.consumed : Action → Option Config
| .build config _ => some config
| .release config _ _ _ => some config
| _ => none

/- Whatever the subcommand builds or releases is valid. -/
def OnlyValidated
    (files : Files) (toml : Toml)
    (subcommand : Subcommand) : Prop :=
  ∀ action config,
    run files toml subcommand = .ok action →
      action.consumed = some config →
        config.validate = .ok ()

/-
  A release without a config file, of a package that could
  not be the name of a project.
-/
structure UnvalidatedRelease
    (files : Files) (toml : Toml)
    (subcommand : Subcommand) : Prop where
  released :
    ∃ tag noBuild, subcommand = .release none tag noBuild
  absent : files.pathExists configFileName = false
  legacyAbsent : files.pathExists legacyConfigFileName = false
  misnamed :
    ∃ raw name,
      files.readToString
            (joinPath curDir (osStr "Cargo.toml".toList)) =
          some raw ∧
        toml.packageName raw = some name ∧ ¬ IsName name

section

variable {files : Files} {toml : Toml}

/- There is no config under either name. -/
theorem pathExists_defaultConfigPath_eq_false_iff :
    files.pathExists (defaultConfigPath files) = false ↔
      files.pathExists configFileName = false ∧
        files.pathExists legacyConfigFileName = false := by
  unfold defaultConfigPath
  by_cases hCanonical : files.pathExists configFileName
  · simp [hCanonical]
  · by_cases hLegacy : files.pathExists legacyConfigFileName
    · simp [hCanonical, hLegacy]
    · simp [hCanonical, hLegacy]

/- Both names a made up config falls back to are names. -/
theorem validate_detected_iff (name : Option Text) :
    (buildConfig (name.getD "app".toList)
          sourceApp).validate = .ok () ↔
      ∀ given, name = some given → IsName given := by
  rw [validate_buildConfig_iff _ rfl rfl]
  cases name with
  | none =>
      have hApp : IsName "app".toList := by
        decide
      simpa using hApp
  | some given => simp

/- A resolved config is valid, unless it was made up. -/
theorem validate_of_resolveForBuild
    {explicit : Option OsStr} {config : Config}
    {projectDir : OsStr}
    (hResolve :
      resolveForBuild files toml explicit none =
        .ok (config, projectDir)) :
    config.validate = .ok () ∨
      explicit = none ∧
        files.pathExists (defaultConfigPath files) = false ∧
        detect files toml curDir none = .ok config := by
  unfold resolveForBuild at hResolve
  cases explicit with
  | some path =>
      rcases (bind_eq_ok_iff _ _ _).1 hResolve with
        ⟨loaded, hLoad, hEq⟩
      cases hEq
      exact Or.inl (validate_of_load hLoad)
  | none =>
      dsimp only at hResolve
      by_cases hExists :
          files.pathExists (defaultConfigPath files) = true
      · rw [if_pos hExists] at hResolve
        rcases (bind_eq_ok_iff _ _ _).1 hResolve with
          ⟨loaded, hLoad, hEq⟩
        cases hEq
        exact Or.inl (validate_of_load hLoad)
      · rw [if_neg hExists] at hResolve
        rcases (bind_eq_ok_iff _ _ _).1 hResolve with
          ⟨detected, hDetect, hEq⟩
        cases hEq
        rw [Bool.not_eq_true] at hExists
        exact Or.inr ⟨rfl, hExists, hDetect⟩

/- Only a release can consume what was not validated. -/
theorem consumed_cases
    {subcommand : Subcommand} {action : Action}
    {config : Config}
    (hRun : run files toml subcommand = .ok action)
    (hConsumed : action.consumed = some config) :
    config.validate = .ok () ∨
      ∃ explicit tag noBuild projectDir,
        subcommand = .release explicit tag noBuild ∧
          resolveForBuild files toml explicit none =
            .ok (config, projectDir) := by
  cases subcommand with
  | init profile path =>
      cases hRun
      cases hConsumed
  | build explicit binary overrides =>
      rcases (bind_eq_ok_iff _ _ _).1 hRun with
        ⟨⟨loaded, projectDir⟩, _, hRest⟩
      rcases (bind_eq_ok_iff _ _ _).1 hRest with
        ⟨final, hApply, hEq⟩
      cases hEq
      cases hConsumed
      exact Or.inl (validate_of_applyOverrides hApply)
  | measure explicit =>
      unfold run runMeasure at hRun
      rcases (bind_eq_ok_iff _ _ _).1 hRun with
        ⟨loaded, _, hRest⟩
      simp only [unit_bind_eq_ok_iff] at hRest
      rcases hRest with ⟨_, _, hEq⟩
      cases hEq
      cases hConsumed
  | doctor =>
      cases hRun
      cases hConsumed
  | githubInit explicit attestProvenance =>
      cases hRun
      cases hConsumed
  | release explicit tag noBuild =>
      rcases (bind_eq_ok_iff _ _ _).1 hRun with
        ⟨⟨loaded, projectDir⟩, hResolve, hEq⟩
      cases hEq
      cases hConsumed
      exact
        Or.inr
          ⟨explicit, tag, noBuild, projectDir, rfl, hResolve⟩

/- What such a release does: it goes on with the config. -/
theorem run_of_unvalidatedRelease
    {subcommand : Subcommand}
    (hRelease : UnvalidatedRelease files toml subcommand) :
    ∃ action config,
      run files toml subcommand = .ok action ∧
        action.consumed = some config ∧
        config.validate ≠ .ok () := by
  rcases hRelease.released with ⟨tag, noBuild, rfl⟩
  rcases hRelease.misnamed with
    ⟨raw, name, hRaw, hName, hMisnamed⟩
  have hAbsent :=
    pathExists_defaultConfigPath_eq_false_iff.2
      ⟨hRelease.absent, hRelease.legacyAbsent⟩
  have hDetect :
      detect files toml curDir none =
        .ok (buildConfig name sourceApp) := by
    unfold detect
    dsimp only
    rw [hRaw]
    dsimp only
    rw [hName]
    rfl
  refine
    ⟨.release (buildConfig name sourceApp) curDir tag noBuild,
      buildConfig name sourceApp, ?_, rfl, ?_⟩
  · unfold run resolveForBuild
    simp only [hAbsent, Bool.false_eq_true, if_false, hDetect,
      ok_bind]
  · rw [Ne, validate_buildConfig_iff _ rfl rfl]
    exact hMisnamed

/-
  What is built or released was validated, except in a
  release of a misnamed package without a config.
-/
theorem onlyValidated_iff
    (files : Files) (toml : Toml) (subcommand : Subcommand) :
    OnlyValidated files toml subcommand ↔
      ¬ UnvalidatedRelease files toml subcommand := by
  constructor
  · intro hOnly hRelease
    rcases run_of_unvalidatedRelease hRelease with
      ⟨action, config, hRun, hConsumed, hInvalid⟩
    exact hInvalid (hOnly action config hRun hConsumed)
  · intro hNot action config hRun hConsumed
    rcases consumed_cases hRun hConsumed with
      hValid | ⟨explicit, tag, noBuild, dir, hEq, hResolve⟩
    · exact hValid
    · rcases validate_of_resolveForBuild hResolve with
        hValid | ⟨hExplicit, hAbsent, hDetect⟩
      · exact hValid
      · rw [pathExists_defaultConfigPath_eq_false_iff]
          at hAbsent
        rcases detect_source_eq_ok hDetect with
          ⟨raw, hRaw, rfl⟩
        rw [validate_detected_iff]
        intro name hName
        by_contra hMisnamed
        apply hNot
        rw [hExplicit] at hEq
        exact
          { released := ⟨tag, noBuild, hEq⟩
            absent := hAbsent.1
            legacyAbsent := hAbsent.2
            misnamed := ⟨raw, name, hRaw, hName, hMisnamed⟩ }

end

------------------------------------------------------------
-- A Release of a Misnamed Package
------------------------------------------------------------

/- A manifest whose package is named by a path. -/
def misnamedManifest : Text :=
  "[package]\nname = \"../other\"\n".toList

/- A manifest, and no config. -/
def misnamedFiles : Files := fun path =>
  if path = osStr "./Cargo.toml".toList then
    some (.text misnamedManifest)
  else
    none

/- The manifest names its package like a path. -/
def misnamedToml : Toml where
  config := fun _ => none
  packageName := fun raw =>
    if raw = misnamedManifest then
      some "../other".toList
    else
      none

/- A release of a project without a config. -/
theorem not_onlyValidated_of_misnamed_manifest :
    ¬ OnlyValidated misnamedFiles misnamedToml
      (.release none none false) := by
  intro hOnly
  have hInvalid :=
    hOnly
      (.release (buildConfig "../other".toList sourceApp)
        curDir none false)
      (buildConfig "../other".toList sourceApp) rfl rfl
  cases hInvalid

end Command

end CargoUnikernel
