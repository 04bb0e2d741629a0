import CargoUnikernel.Pipeline.ScriptLines
import CargoUnikernel.Schema.Shape

/-
  The build script carries the strings of a config as data.

  They are read in quotes, and a reading gives them back. For
  other strings, the script has the same words and operators
  but for the data, and it runs the same commands.

  Main declarations:
    * `sameButData_scriptStages`
    * `scriptData`, `data_scriptStages`
    * `CarriesData`, `SameScript`
    * `carriesData_of_built`, `script_carries_data`
-/

------------------------------------------------------------
-- Exports
------------------------------------------------------------

namespace CargoUnikernel

namespace Pipeline

namespace ScriptText

open Schema Guest.BuildScript Shell

/- Exports of the same names differ in their data only. -/
theorem sameButData_exports
    {α : Type} (nameOf : α → String)
    {entries others : List (α × Text)}
    (hNames :
      entries.map Prod.fst = others.map Prod.fst) :
    SameButData
      (entries.flatMap fun entry =>
        writeExport (nameOf entry.1) entry.2)
      (others.flatMap fun entry =>
        writeExport (nameOf entry.1) entry.2) := by
  induction entries generalizing others with
  | nil =>
      cases others with
      | nil => rfl
      | cons other others => cases hNames
  | cons entry entries ih =>
      cases others with
      | nil => cases hNames
      | cons other others =>
          rcases entry with ⟨name, value⟩
          rcases other with ⟨otherName, otherValue⟩
          rw [List.map_cons, List.map_cons,
            List.cons.injEq] at hNames
          rcases hNames with ⟨rfl, hNames⟩
          rw [List.flatMap_cons, List.flatMap_cons]
          apply SameButData.append
          · rfl
          · exact ih hNames

/- Whether something is exported under each name. -/
def exported (entry : Constant × Option Text) :
    Constant × Bool :=
  (entry.1, entry.2.isSome)

/- The names of what is exported. -/
theorem map_fst_filterMap_exportOf
    (table : List (Constant × Option Text)) :
    (table.filterMap exportOf).map Prod.fst =
      ((table.map exported).filter Prod.snd).map
        Prod.fst := by
  induction table with
  | nil => rfl
  | cons entry table ih =>
      rcases entry with ⟨name, value⟩
      cases value with
      | none => exact ih
      | some value => exact congrArg (List.cons name) ih

/- A list is exported if it is not empty. -/
theorem isSome_unlessEmpty
    {α : Type} (entries : List α) (value : Text) :
    (unlessEmpty entries value).isSome =
      !entries.isEmpty := by
  unfold unlessEmpty
  cases entries with
  | nil => rfl
  | cons entry entries => rfl

/- And if Landlock is on. -/
theorem isSome_landlockExport
    (config : Config) (paths : List Text) :
    (landlockExport config paths).isSome =
      (config.app.runtime.landlock.enabled &&
        !paths.isEmpty) := by
  unfold landlockExport
  cases config.app.runtime.landlock.enabled with
  | true => exact isSome_unlessEmpty paths _
  | false => rfl

section

variable {config other : Config}
variable (hShape : SameShape config other)

include hShape

/- What does not depend on the strings of a config. -/
theorem SameShape.firewallEnabled :
    Pipeline.firewallEnabled config =
      Pipeline.firewallEnabled other := by
  unfold Pipeline.firewallEnabled
  rw [hShape.network.enabled, hShape.network.mode]

/- The features do not, either. -/
theorem SameShape.initFeatures :
    Pipeline.initFeatures config =
      Pipeline.initFeatures other := by
  unfold Pipeline.initFeatures
  rw [hShape.kind, hShape.network.mode, hShape.storage,
    hShape.hardening.runtime, hShape.runtime.danger,
    hShape.runtime.landlock.enabled, hShape.runtime.console,
    hShape.logging, SameShape.firewallEnabled hShape]

/- Nor which of the addresses are there. -/
theorem SameShape.ipv6 :
    config.network.ipv6Static.isSome =
        other.network.ipv6Static.isSome ∧
      (config.network.ipv6Static.bind
          Ipv6Static.gateway).isSome =
        (other.network.ipv6Static.bind
          Ipv6Static.gateway).isSome ∧
      (config.network.ipv6Static.bind
          Ipv6Static.interface).isSome =
        (other.network.ipv6Static.bind
          Ipv6Static.interface).isSome := by
  have hRel := hShape.network.ipv6Static
  generalize config.network.ipv6Static = staticV6,
    other.network.ipv6Static = otherV6 at hRel ⊢
  cases hRel with
  | none => exact ⟨rfl, rfl, rfl⟩
  | some hStatic =>
      exact ⟨rfl, hStatic.gateway, hStatic.interface⟩

/- The same names are exported for both. -/
theorem map_exported_exportTable :
    (exportTable config).map exported =
      (exportTable other).map exported := by
  rcases SameShape.ipv6 hShape with
    ⟨hStatic, hGateway, hInterface⟩
  have hEnv := isEmpty_eq_of_length hShape.runtime.env
  have hSysctls :=
    isEmpty_eq_of_length hShape.hardening.extraSysctls
  have hRead :=
    isEmpty_eq_of_length
      hShape.runtime.landlock.extraReadPaths
  have hReadWrite :=
    isEmpty_eq_of_length
      hShape.runtime.landlock.extraReadWritePaths
  have hNameservers :=
    isEmpty_eq_of_length hShape.network.nameservers
  have hFirewall := SameShape.firewallEnabled hShape
  have hRules :
      (if Pipeline.firewallEnabled config then
          some (bakedRules config)
        else
          none).isSome =
        (if Pipeline.firewallEnabled other then
          some (bakedRules other)
        else
          none).isSome := by
    rw [hFirewall]
    split
    · rfl
    · rfl
  unfold exportTable
  simp only [List.map_cons, List.map_nil, exported,
    Option.isSome_some, Option.isSome_map,
    isSome_unlessEmpty, isSome_landlockExport, hRules,
    hStatic, hGateway, hInterface, hEnv, hSysctls, hRead,
    hReadWrite, hNameservers, hShape.network.search,
    hShape.runtime.landlock.enabled]

/- So every part of the script is alike but for its data. -/
theorem sameButData_writeExports :
    SameButData (writeExports config)
      (writeExports other) := by
  apply sameButData_exports exportName
  unfold appEnvExports
  rw [map_fst_filterMap_exportOf,
    map_fst_filterMap_exportOf,
    map_exported_exportTable hShape]

------------------------------------------------------------
-- Stages
------------------------------------------------------------

theorem sameButData_extraKconfigExport :
    SameButData (extraKconfigExport config)
      (extraKconfigExport other) := by
  have hSame :
      hasExtraKconfig config = hasExtraKconfig other := by
    unfold hasExtraKconfig
    rw [isEmpty_eq_of_length
      hShape.hardening.extraKernelConfig]
  unfold extraKconfigExport
  rw [hSame]
  rfl

theorem sameButData_scriptGuestInitBuild :
    SameButData (scriptGuestInitBuild config)
      (scriptGuestInitBuild other) := by
  have hFeatures : featureNames config = featureNames other := by
    unfold featureNames
    rw [SameShape.initFeatures hShape]
  unfold scriptGuestInitBuild cargoBuildInit initFeaturesFlag
  rw [hFeatures]
  apply sameButData_concat
  refine .cons rfl (.cons rfl (.cons ?_ (.cons rfl .nil)))
  exact sameButData_writeExports hShape

theorem sameButData_scriptRootfsAndImages :
    SameButData (scriptRootfsAndImages config)
      (scriptRootfsAndImages other) := by
  have hFormat (format : OutputFormat) :
      SameButData (scriptFormat config format)
        (scriptFormat other format) := by
    cases format with
    | _ => rfl
  unfold scriptRootfsAndImages freshRootfs rootfsModes
    ifPersistent
  rw [hShape.storage, hShape.formats]
  apply sameButData_concat
  refine .cons rfl (.cons rfl (.cons rfl (.cons rfl
    (.cons ?_ .nil))))
  apply sameButData_flatMap
  exact List.forall₂_same.2 fun format _ => hFormat format

theorem sameButData_sevSnpMeasure
    {sev otherSev : SevSnp} (hSev : SameSevSnp sev otherSev) :
    SameButData (sevSnpMeasure config sev)
      (sevSnpMeasure other otherSev) := by
  have hUseUki : useUki config sev = useUki other otherSev := by
    unfold useUki
    rw [hSev.measuredBoot, hShape.formats]
  unfold sevSnpMeasure measureVcpus measureInputs kernelArgs
  rw [hSev.vcpus, hUseUki]
  split
  · rfl
  · rfl

theorem sameButData_scriptSevSnpMeasurement :
    SameButData (scriptSevSnpMeasurement config)
      (scriptSevSnpMeasurement other) := by
  unfold scriptSevSnpMeasurement
  rw [hShape.kind]
  split
  · rfl
  · have hRel := hShape.sevSnp
    generalize config.sevSnp = sev,
      other.sevSnp = otherSev at hRel ⊢
    cases hRel with
    | none => rfl
    | some hSev =>
        apply sameButData_concat
        refine .cons rfl (.cons rfl (.cons ?_
          (.cons rfl .nil)))
        exact sameButData_sevSnpMeasure hShape hSev

end

/- The kernel's variables are the same ones. -/
theorem sameButData_scriptKernelBuild
    {valid other : ValidConfig}
    (hShape : SameShape valid.config other.config) :
    SameButData (scriptKernelBuild valid.config)
      (scriptKernelBuild other.config) := by
  apply sameButData_concat
  refine .cons ?_ (.cons ?_ (.cons rfl .nil))
  · apply sameButData_exports id
    rw [map_fst_kernelEnv, map_fst_kernelEnv]
  · exact sameButData_extraKconfigExport hShape

theorem sameButData_rustBuild
    {source otherSource : AppSource}
    (hSame : SameSource source otherSource)
    (package otherPackage : Text) :
    SameButData (rustBuild source package)
      (rustBuild otherSource otherPackage) := by
  unfold rustBuild cargoBuildLine featuresFlag
  rw [isEmpty_eq_of_length hSame.features]
  split
  · rfl
  · rfl

/- Without a command of the config's own. -/
theorem sameButData_scriptAppSource
    {config other : Config}
    (hShape : SameShape config other)
    {app otherApp : AcquiredApp}
    (hApp : AppOf config app)
    (hOther : AppOf other otherApp)
    (hWithout : WithoutCommand config) :
    ∃ fragment otherFragment,
      scriptAppSource config app = .ok fragment ∧
        scriptAppSource other otherApp = .ok otherFragment ∧
        SameButData fragment otherFragment := by
  have hMode := hShape.mode
  cases app with
  | binary path =>
      cases otherApp with
      | binary otherPath => exact ⟨_, _, rfl, rfl, rfl⟩
      | localSource package =>
          have hBinary : config.app.mode = .binary := hApp
          have hSource : other.app.mode = .source := hOther
          rw [hBinary, hSource] at hMode
          cases hMode
  | localSource package =>
      have hSource : config.app.mode = .source := hApp
      cases otherApp with
      | binary otherPath =>
          have hBinary : other.app.mode = .binary := hOther
          rw [hSource, hBinary] at hMode
          cases hMode
      | localSource otherPackage =>
          rcases hWithout with
            hBinary | ⟨source, hSome, hRust⟩
          · rw [hSource] at hBinary
            cases hBinary
          · have hRel := hShape.source
            unfold scriptAppSource
            rw [hSome] at hRel ⊢
            generalize other.app.source = otherSome at hRel ⊢
            cases hRel with
            | some hSame =>
                have hOtherRust :=
                  hSame.toolchain.symm.trans hRust
                exact ⟨_, _, scriptBuildAt_of_rust hRust _,
                  scriptBuildAt_of_rust hOtherRust _,
                  sameButData_rustBuild hSame _ _⟩

/- The whole script, stage by stage. -/
theorem sameButData_scriptStages
    {valid other : ValidConfig}
    (hShape : SameShape valid.config other.config)
    {app otherApp : AcquiredApp}
    (hApp : AppOf valid.config app)
    (hOther : AppOf other.config otherApp)
    (hWithout : WithoutCommand valid.config) :
    ∃ stages otherStages,
      scriptStages valid.config app = .ok stages ∧
        scriptStages other.config otherApp =
          .ok otherStages ∧
        SameButData (concat stages)
          (concat otherStages) := by
  obtain
    ⟨source, otherSource, hSource, hOtherSource, hSame⟩ :=
    sameButData_scriptAppSource hShape hApp hOther hWithout
  unfold scriptStages scriptAppBuild
  rw [hSource, hOtherSource]
  refine ⟨_, _, rfl, rfl, ?_⟩
  apply sameButData_concat
  refine .cons rfl (.cons ?_ (.cons ?_ (.cons ?_
    (.cons ?_ (.cons ?_ (.cons rfl .nil))))))
  · exact sameButData_scriptKernelBuild hShape
  · exact sameButData_concat (.cons hSame (.cons rfl .nil))
  · exact sameButData_scriptGuestInitBuild hShape
  · exact sameButData_scriptRootfsAndImages hShape
  · exact sameButData_scriptSevSnpMeasurement hShape

/- A command is there in both, or in neither. -/
theorem withoutCommand_of_sameShape
    {config other : Config}
    (hShape : SameShape config other)
    (hWithout : WithoutCommand config) :
    WithoutCommand other := by
  rcases hWithout with hBinary | ⟨source, hSource, hRust⟩
  · apply Or.inl
    rw [← hShape.mode, hBinary]
  · apply Or.inr
    have hRel := hShape.source
    rw [hSource] at hRel
    generalize other.app.source = otherSource at hRel
    cases hRel with
    | some hSame =>
        exact ⟨_, rfl, hSame.toolchain.symm.trans hRust⟩

------------------------------------------------------------
-- The Values of a Config
------------------------------------------------------------

/- What the app is built from, or where it already is. -/
def appData (config : Config) : AcquiredApp → List Text
| .binary path => [inContainer path]
| .localSource package =>
    match config.app.source with
    | none => []
    | some source =>
        [source.cargoProfile] ++
          (if source.features.isEmpty then
            []
          else
            [Text.join ',' source.features]) ++
          [inContainer package,
            profileDir source.cargoProfile]

/- The names of a format's files, and what a UKI holds. -/
def formatData (config : Config) : OutputFormat → List Text
| .cpio =>
    [config.project.name, inContainerDist config,
      config.project.name, config.project.name,
      inContainerDist config, config.project.name]
| .binary =>
    [inContainerDist config, config.project.name,
      inContainerDist config, config.project.name]
| .uki =>
    [config.project.name, config.project.name,
      cmdlineFor config, config.kernel.version,
      inContainerDist config, config.project.name]

/- Of the images: where they are staged and where they go. -/
def imageData (config : Config) : List Text :=
  [inContainerDist config, config.project.name,
      config.project.name] ++
    config.output.formats.flatMap (formatData config)

/- The kernel as it is measured, with its command line. -/
def kernelArgsData
    (config : Config) (sev : SevSnp) : List Text :=
  if useUki config sev then
    [inContainerDist config, config.project.name]
  else
    [config.project.name, config.project.name,
      cmdlineFor config]

/- The values of the measurement, in order. -/
def sevData (config : Config) (sev : SevSnp) : List Text :=
  [inContainerDist config, inContainerDist config,
      inContainerPath config sev.ovmf,
      inContainerDist config, sev.vcpuType,
      inContainerPath config sev.ovmf] ++
    kernelArgsData config sev ++
    [inContainerDist config,
      inContainerPath config sev.ovmf]

/- None, unless the image is measured. -/
def measurementData (config : Config) : List Text :=
  if config.profile.kind ≠ .sevSnp then
    []
  else
    match config.sevSnp with
    | none => []
    | some sev => sevData config sev

/-
  The values of a config that its script has in it, in order:
  those of the kernel's build, of the app's, those that are
  baked into the init, those of the images, and those of the
  launch measurement.
-/
def scriptData (config : Config) (app : AcquiredApp) :
    List Text :=
  (kernelEnv config).map Prod.snd ++ appData config app ++
    (appEnvExports config).map Prod.snd ++
    imageData config ++ measurementData config

/- The values of some text, in order. -/
def dataOf (fragment : Fragment) : List Text :=
  fragment.flatMap Piece.data

/- The values of some parts, in order. -/
theorem dataOf_concat (parts : List Fragment) :
    dataOf (concat parts) = parts.flatMap dataOf := by
  unfold dataOf concat
  rw [List.flatten_eq_flatMap, List.flatMap_assoc]
  rfl

theorem dataOf_flatMap
    {α : Type} (items : List α) (part : α → Fragment) :
    dataOf (items.flatMap part) =
      items.flatMap fun item => dataOf (part item) := by
  unfold dataOf
  rw [List.flatMap_assoc]

/- An export has the value that is exported, and no other. -/
theorem dataOf_exports
    {α : Type} (nameOf : α → String)
    (entries : List (α × Text)) :
    dataOf
        (entries.flatMap fun entry =>
          writeExport (nameOf entry.1) entry.2) =
      entries.map Prod.snd := by
  rw [dataOf_flatMap, List.map_eq_flatMap]
  rfl

/- Each part has exactly the values it should have. -/
theorem dataOf_scriptKernelBuild (config : Config) :
    dataOf (scriptKernelBuild config) =
      (kernelEnv config).map Prod.snd := by
  have hExtra : dataOf (extraKconfigExport config) = [] := by
    unfold extraKconfigExport
    split
    · rfl
    · rfl
  have hExports :
      dataOf (kernelExports config) =
        (kernelEnv config).map Prod.snd :=
    dataOf_exports id (kernelEnv config)
  unfold scriptKernelBuild
  rw [dataOf_concat, List.flatMap_cons, List.flatMap_cons,
    hExports, hExtra]
  exact List.append_nil _

/- The profile, the features and the package. -/
theorem dataOf_rustBuild
    (source : AppSource) (package : Text) :
    dataOf (rustBuild source package) =
      [source.cargoProfile] ++
        (if source.features.isEmpty then
          []
        else
          [Text.join ',' source.features]) ++
        [package, profileDir source.cargoProfile] := by
  unfold rustBuild cargoBuildLine featuresFlag
  split
  · rfl
  · rfl

/- The app's values, by its mode. -/
theorem dataOf_scriptAppBuild
    {config : Config} {app : AcquiredApp}
    (hApp : AppOf config app)
    (hWithout : WithoutCommand config)
    {fragment : Fragment}
    (hBuild : scriptAppBuild config app = .ok fragment) :
    dataOf fragment = appData config app := by
  unfold scriptAppBuild at hBuild
  cases hSource : scriptAppSource config app with
  | error error =>
      rw [hSource] at hBuild
      cases hBuild
  | ok source =>
      rw [hSource] at hBuild
      cases hBuild
      have hVerify : dataOf scriptVerifyStaticBinary = [] :=
        rfl
      rw [dataOf_concat, List.flatMap_cons,
        List.flatMap_cons, hVerify]
      simp only [List.flatMap_nil, List.append_nil]
      cases app with
      | binary path =>
          cases hSource
          rfl
      | localSource package =>
          rcases hWithout with
            hBinary | ⟨rustSource, hSome, hRust⟩
          · have hMode : config.app.mode = .source := hApp
            rw [hBinary] at hMode
            cases hMode
          · unfold scriptAppSource at hSource
            rw [hSome] at hSource
            dsimp only at hSource
            rw [scriptBuildAt_of_rust hRust] at hSource
            cases hSource
            unfold appData
            rw [hSome]
            exact dataOf_rustBuild rustSource _

/- The constants of the init. -/
theorem dataOf_scriptGuestInitBuild (config : Config) :
    dataOf (scriptGuestInitBuild config) =
      (appEnvExports config).map Prod.snd := by
  have hExports :
      dataOf (writeExports config) =
        (appEnvExports config).map Prod.snd :=
    dataOf_exports exportName (appEnvExports config)
  have hInit : dataOf (cargoBuildInit config) = [] := by
    unfold cargoBuildInit initFeaturesFlag
    split
    · rfl
    · rfl
  unfold scriptGuestInitBuild
  rw [dataOf_concat, List.flatMap_cons, List.flatMap_cons,
    List.flatMap_cons, List.flatMap_cons, hExports, hInit]
  exact List.append_nil _

theorem dataOf_scriptFormat
    (config : Config) (format : OutputFormat) :
    dataOf (scriptFormat config format) =
      formatData config format := by
  cases format with
  | _ => rfl

/- The paths of the images. -/
theorem dataOf_scriptRootfsAndImages (config : Config) :
    dataOf (scriptRootfsAndImages config) =
      imageData config := by
  have hFresh : dataOf (freshRootfs config) = [] := by
    unfold freshRootfs ifPersistent
    split
    · rfl
    · rfl
  have hModes : dataOf (rootfsModes config) = [] := by
    unfold rootfsModes ifPersistent
    split
    · rfl
    · rfl
  have hHashes : dataOf rootfsHashes = [] := rfl
  have hImages :
      dataOf (scriptImages config) =
        [inContainerDist config, config.project.name,
          config.project.name] :=
    rfl
  unfold scriptRootfsAndImages imageData
  rw [dataOf_concat]
  simp only [List.flatMap_cons, List.flatMap_nil,
    List.append_nil, hFresh, hHashes, hModes, hImages,
    List.nil_append, dataOf_flatMap, dataOf_scriptFormat]

/- The values of the measurement. -/
theorem dataOf_scriptSevSnpMeasurement (config : Config) :
    dataOf (scriptSevSnpMeasurement config) =
      measurementData config := by
  unfold scriptSevSnpMeasurement measurementData
  split
  · rfl
  · cases config.sevSnp with
    | none => rfl
    | some sev =>
        dsimp only
        unfold sevSnpMeasure measureInputs kernelArgs sevData
          kernelArgsData
        split
        · rfl
        · rfl

/- The values that are quoted are those of the config. -/
theorem data_scriptStages
    {config : Config} {app : AcquiredApp}
    (hApp : AppOf config app)
    (hWithout : WithoutCommand config)
    {stages : List Fragment}
    (hStages : scriptStages config app = .ok stages) :
    dataOf (concat stages) = scriptData config app := by
  unfold scriptStages at hStages
  cases hBuild : scriptAppBuild config app with
  | error error =>
      rw [hBuild] at hStages
      cases hStages
  | ok appBuild =>
      rw [hBuild] at hStages
      cases hStages
      have hHeader : dataOf scriptHeader = [] := rfl
      have hReclaim :
          dataOf scriptReclaimCacheOwnership = [] :=
        rfl
      unfold scriptData
      rw [dataOf_concat]
      simp only [List.flatMap_cons, List.flatMap_nil,
        hHeader, hReclaim, dataOf_scriptKernelBuild,
        dataOf_scriptAppBuild hApp hWithout hBuild,
        dataOf_scriptGuestInitBuild,
        dataOf_scriptRootfsAndImages,
        dataOf_scriptSevSnpMeasurement, List.append_nil,
        List.nil_append, List.append_assoc]

------------------------------------------------------------
-- Data
------------------------------------------------------------

/-
  The values in a script are those of the config. They are
  read as data, every stage ends without quotes, and the
  words give the values back.
-/
structure CarriesData
    (config : Config) (app : AcquiredApp)
    (stages : List Fragment) (script : Text) : Prop where
  text :
    ((concat stages).flatMap Piece.labelled).map Prod.fst =
      script
  values : dataOf (concat stages) = scriptData config app
  covered :
    Covered .blank ((concat stages).flatMap Piece.labelled)
  unquoted :
    ∀ stage ∈ stages,
      Quoting.blank.after (render stage) = .blank
  lexed :
    lex script =
      some
        ((tokens (concat stages)).map
          (Token.spread Item.plain))
  recovered :
    (tokens (concat stages)).flatMap Token.data =
      scriptData config app

/- Two scripts with the same text around their values, the
   same words and operators but for the values in words, and
   the same commands. -/
structure SameScript (stages others : List Fragment) :
    Prop where
  text : SameButData (concat stages) (concat others)
  words :
    (tokens (concat stages)).map Token.mask =
      (tokens (concat others)).map Token.mask
  commands :
    commandNames .command (tokens (concat stages)) =
      commandNames .command (tokens (concat others))

/- A script that reads well carries its data. -/
theorem carriesData_of_moves
    {config : Config} {app : AcquiredApp}
    {stages : List Fragment}
    (hData : dataOf (concat stages) = scriptData config app)
    (hMoves :
      ∀ stage ∈ stages, Moves .command stage .command) :
    CarriesData config app stages
      (render (concat stages)) := by
  have hWhole := (moves_concat hMoves).whole
  constructor
  · exact fst_labelled (concat stages)
  · exact hData
  · exact covered_labelled hWhole.within
  · intro stage hMem
    exact (hMoves stage hMem).whole.after_render
  · exact lex_render hWhole
  · rw [← hData]
    exact data_tokens hWhole

/- Two scripts that read well run the same commands. -/
theorem sameScript_of_moves
    {stages others : List Fragment}
    (hMoves :
      ∀ stage ∈ stages, Moves .command stage .command)
    (hOthers :
      ∀ stage ∈ others, Moves .command stage .command)
    (hSame : SameButData (concat stages) (concat others)) :
    SameScript stages others := by
  have hWithin {all : List Fragment}
      (hAll :
        ∀ stage ∈ all, Moves .command stage .command) :
      Position.command.after (tokens (concat all)) ≠
        .beyond := by
    rw [(moves_concat hAll).position]
    intro hBeyond
    cases hBeyond
  constructor
  · exact hSame
  · exact hSame.tokens
  · exact commandNames_eq_of_mask (hWithin hMoves)
      (hWithin hOthers) hSame.tokens

/- A build that ends well has run a script of that kind. -/
theorem carriesData_of_built
    {ι : Type} [DecidableEq ι] [Linked ι]
    {tools : Tools} {i : ι} {valid : ValidConfig}
    {s t : Files ι}
    (built : Built tools i valid.config s t)
    (hWithout : WithoutCommand valid.config) :
    ∃ stages script,
      generateBuildScript valid.config built.app =
          .ok script ∧
        CarriesData valid.config built.app stages script := by
  have hApp := appOf_of_acquire built.acquire_eq
  obtain ⟨stages, hStages, hMoves⟩ :=
    moves_scriptStages hApp hWithout
  have hData := data_scriptStages hApp hWithout hStages
  refine ⟨stages, render (concat stages), ?_,
    carriesData_of_moves hData hMoves⟩
  unfold generateBuildScript
  rw [hStages]
  rfl

/- The strings of a config are data in its build script. -/
theorem script_carries_data
    (valid : ValidConfig) (app : AcquiredApp)
    (hApp : AppOf valid.config app)
    (hWithout : WithoutCommand valid.config) :
    ∃ stages script,
      scriptStages valid.config app = .ok stages ∧
        generateBuildScript valid.config app = .ok script ∧
        CarriesData valid.config app stages script ∧
        ∀ (other : ValidConfig) (otherApp : AcquiredApp),
          AppOf other.config otherApp →
            SameShape valid.config other.config →
            ∃ otherStages otherScript,
              scriptStages other.config otherApp =
                  .ok otherStages ∧
                generateBuildScript other.config otherApp =
                  .ok otherScript ∧
                CarriesData other.config otherApp
                  otherStages otherScript ∧
                SameScript stages otherStages := by
  obtain ⟨stages, hStages, hMoves⟩ :=
    moves_scriptStages hApp hWithout
  have hData := data_scriptStages hApp hWithout hStages
  refine ⟨stages, render (concat stages), hStages, ?_,
    carriesData_of_moves hData hMoves, ?_⟩
  · unfold generateBuildScript
    rw [hStages]
    rfl
  · intro other otherApp hOther hShape
    have hOtherWithout :=
      withoutCommand_of_sameShape hShape hWithout
    obtain ⟨otherStages, hOtherStages, hOthers⟩ :=
      moves_scriptStages hOther hOtherWithout
    have hOtherData :=
      data_scriptStages hOther hOtherWithout hOtherStages
    obtain ⟨found, otherFound, hFound, hOtherFound, hSame⟩ :=
      sameButData_scriptStages hShape hApp hOther hWithout
    rw [hStages] at hFound
    rw [hOtherStages] at hOtherFound
    cases hFound
    cases hOtherFound
    refine ⟨otherStages, render (concat otherStages),
      hOtherStages, ?_,
      carriesData_of_moves hOtherData hOthers,
      sameScript_of_moves hMoves hOthers hSame⟩
    unfold generateBuildScript
    rw [hOtherStages]
    rfl

/- A profile that would be a command without its quotes. -/
def injectionConfig : ValidConfig where
  config :=
    { casualConfigWithFormats [.cpio] with
      app :=
        { mode := .source
          source :=
            some
              { path := some ".".toList
                toolchain := .rust
                cargoProfile :=
                  "release'; touch /tmp/injected; '".toList } } }
  valid := rfl

/- A config with nothing but a name. -/
def plainConfig : ValidConfig where
  config := casualConfigWithFormats [.cpio]
  valid := Config.validate_casual

/- A value that would be a command is none. -/
theorem script_carries_data_injection :
    ∃ stages script otherStages otherScript,
      generateBuildScript injectionConfig.config
            (.localSource []) = .ok script ∧
        generateBuildScript plainConfig.config
            (.localSource []) = .ok otherScript ∧
        CarriesData injectionConfig.config (.localSource [])
          stages script ∧
        "release'; touch /tmp/injected; '".toList ∈
          (tokens (concat stages)).flatMap Token.data ∧
        CarriesData plainConfig.config (.localSource [])
          otherStages otherScript ∧
        SameScript stages otherStages := by
  obtain ⟨stages, script, _, hScript, hCarries, hOther⟩ :=
    script_carries_data injectionConfig (.localSource []) rfl
      (Or.inr ⟨_, rfl, rfl⟩)
  obtain
    ⟨otherStages, otherScript, _, hOtherScript,
      hOtherCarries, hSame⟩ :=
    hOther plainConfig (.localSource []) rfl
      { cargoUnikernelVersion := rfl
        kind := rfl
        mode := rfl
        source := .some ⟨rfl, rfl, rfl, rfl, rfl, rfl⟩
        binary := .none
        runtime := ⟨rfl, rfl, rfl, rfl, rfl,
          ⟨rfl, rfl, rfl⟩, rfl⟩
        network := ⟨rfl, .none, rfl, rfl, rfl, rfl⟩
        storage := rfl
        kernelSha256 := rfl
        toolchain := ⟨rfl, rfl, rfl, rfl⟩
        hardening := ⟨rfl, rfl, rfl, rfl, rfl⟩
        sevSnp := .none
        formats := rfl
        release := ⟨rfl, rfl, rfl, rfl, rfl, rfl⟩
        logging := rfl }
  have hProfile :
      "release'; touch /tmp/injected; '".toList ∈
        (tokens (concat stages)).flatMap Token.data := by
    rw [hCarries.recovered]
    simp [scriptData, appData, injectionConfig]
  exact ⟨stages, script, otherStages, otherScript, hScript,
    hOtherScript, hCarries, hProfile, hOtherCarries, hSame⟩

end ScriptText

end Pipeline

end CargoUnikernel
