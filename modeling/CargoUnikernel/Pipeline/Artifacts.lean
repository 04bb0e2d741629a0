import CargoUnikernel.Pipeline.Build

/-
  What a build leaves in the output directory.

  A command that succeeds has made its targets, and none
  removes a file of the project. So a file is there after a
  build where the config asks for it, where its own app is
  built to, or where it was before.

  Main declarations:
    * `Makes`, `Produces`, `appOutput`, `Leaves`
    * `runCommands_isSome_iff`
    * `makes_generateBuildScript_iff`
    * `build_isSome_iff`, `build_of_not_leaves`
-/

------------------------------------------------------------
-- The Files a Command Makes
------------------------------------------------------------

namespace CargoUnikernel

namespace Pipeline

open Schema Interference Fallible

section Commands

variable {ι : Type} [DecidableEq ι]
variable {tools : Tools} {toolchain : Toolchain} {i : ι}

/- Writes at the places of paths, seen through the paths. -/
theorem apply_hostWrites
    (ws : Writes Path Content) (s : Files ι) (path : Path) :
    apply (hostWrites i ws) s (path.loc i) =
      apply ws (viewOf i s) path := by
  induction ws with
  | nil => rfl
  | cons entry ws ih =>
      rcases entry with ⟨dst, content⟩
      unfold hostWrites at ih ⊢
      rw [List.map_cons]
      by_cases hSame : path = dst
      · rw [hSame, apply_cons_self, apply_cons_self]
      · have hLoc : path.loc i ≠ dst.loc i := by
          rw [Ne, Path.loc_inj]
          exact hSame
        rw [apply_cons_of_ne hLoc, apply_cons_of_ne hSame, ih]

/- A command sees the host through its container. -/
theorem Command.after_loc
    (command : Command) (s : Files ι) (path : Path) :
    command.after tools toolchain i s (path.loc i) =
      apply
        (command.effect tools toolchain (viewOf i s)).writes
        (viewOf i s) path :=
  apply_hostWrites _ s path

/- What is there after a command has made something. -/
theorem isSome_apply_produce_iff
    {view : View} {dst path : Path} {content : Option Content}
    (hOk : (Effect.produce dst content).ok = true) :
    (apply (Effect.produce dst content).writes view
          path).isSome ↔
      path = dst ∨ (view path).isSome := by
  cases content with
  | none => cases hOk
  | some content =>
      by_cases hSame : path = dst
      · simp [Effect.produce, hSame, apply_cons_self]
      · simp [Effect.produce, hSame, apply_cons_of_ne hSame]

/- A redirection makes its file, whatever it says. -/
theorem isSome_apply_redirect_iff
    {view : View} {dst path : Path} {output : Option Text} :
    (apply (Effect.redirect dst output).writes view
          path).isSome ↔
      path = dst ∨ (view path).isSome := by
  by_cases hSame : path = dst
  · simp [Effect.redirect, hSame, apply_cons_self]
  · simp [Effect.redirect, hSame, apply_cons_of_ne hSame]

/- A command that succeeds has its output at its place. -/
theorem apply_produce_self
    {view : View} {dst : Path} {content : Option Content}
    (hOk : (Effect.produce dst content).ok = true) :
    apply (Effect.produce dst content).writes view dst =
      content := by
  cases content with
  | none => cases hOk
  | some content => exact apply_cons_self _ _ _ _

/- And the file has the output, if there is one. -/
theorem apply_redirect_self
    {view : View} {dst : Path} {output : Option Text}
    (hOk : (Effect.redirect dst output).ok = true) :
    apply (Effect.redirect dst output).writes view dst =
      output.map .text := by
  cases output with
  | none => cases hOk
  | some output => exact apply_cons_self _ _ _ _

/- Commands on the root file system write nothing else. -/
def Command.IsRootfs : Command → Prop
| .freshRootfs | .install _ _ | .installMke2fs
| .chmodFiles _ _ | .chmodDirs _ | .touchRootfs => True
| _ => False

/- What is done to the root file system stays in it. -/
theorem Command.workspace_not_mem_targets
    {command : Command} {file : ProjectFile}
    (hRootfs : command.IsRootfs) :
    .workspace file ∉ command.targets := by
  cases command with
  | freshRootfs => simp [targets]
  | install src rootfsFile =>
      simp [targets, installTargets]
  | installMke2fs => simp [targets, installTargets]
  | chmodFiles mode files => simp [targets]
  | chmodDirs mode => simp [targets]
  | touchRootfs => simp [targets]
  | _ => exact hRootfs.elim

/- A file of the project is made, or was there. -/
theorem Command.isSome_effect_iff
    {view : View} {command : Command} {file : ProjectFile}
    (hOk : (command.effect tools toolchain view).ok = true) :
    (apply (command.effect tools toolchain view).writes view
          (.workspace file)).isSome ↔
      .workspace file ∈ command.targets ∨
        (view (.workspace file)).isSome := by
  by_cases hRootfs : command.IsRootfs
  · have hNot : .workspace file ∉ command.targets :=
      Command.workspace_not_mem_targets hRootfs
    rw [apply_of_not_mem fun hMem =>
      hNot (written_effect tools toolchain view command hMem)]
    exact (or_iff_right hNot).symm
  · cases command with
    | freshRootfs | install _ _ | installMke2fs
    | chmodFiles _ _ | chmodDirs _ | touchRootfs =>
        exact absurd trivial hRootfs
    | verifyStaticBinary bin =>
        simp [effect, Effect.check, targets]
    | copyUnlessExists src dst =>
        simp only [effect] at hOk ⊢
        by_cases hExists : (view dst).isSome
        · rw [if_pos hExists]
          simp only [Effect.check, apply_nil, targets,
            List.mem_singleton]
          constructor
          · exact Or.inr
          · rintro (hDst | hThere)
            · rw [hDst]
              exact hExists
            · exact hThere
        · rw [if_neg hExists] at hOk ⊢
          rw [isSome_apply_produce_iff hOk]
          simp [targets]
    | sha256sum _ _ | sevSnpMeasure _ _ _ _ _ =>
        simp only [effect]
        rw [isSome_apply_redirect_iff]
        simp [targets]
    | _ =>
        simp only [effect] at hOk ⊢
        rw [isSome_apply_produce_iff hOk]
        simp [targets]

/- Some command of the list makes the file. -/
def Makes
    (file : ProjectFile) (commands : List Command) : Prop :=
  ∃ command ∈ commands, .workspace file ∈ command.targets

@[simp] theorem makes_nil (file : ProjectFile) :
    ¬ Makes file [] := by
  simp [Makes]

@[simp] theorem makes_cons_iff
    {file : ProjectFile} {command : Command}
    {commands : List Command} :
    Makes file (command :: commands) ↔
      .workspace file ∈ command.targets ∨
        Makes file commands := by
  simp [Makes]

@[simp] theorem makes_append_iff
    {file : ProjectFile} {first rest : List Command} :
    Makes file (first ++ rest) ↔
      Makes file first ∨ Makes file rest := by
  simp [Makes, or_and_right, exists_or]

/- What some of the parts make. -/
theorem makes_flatMap_iff
    {α : Type} {file : ProjectFile} {items : List α}
    {commandsOf : α → List Command} :
    Makes file (items.flatMap commandsOf) ↔
      ∃ item ∈ items, Makes file (commandsOf item) := by
  unfold Makes
  simp only [List.mem_flatMap]
  constructor
  · rintro ⟨command, ⟨item, hItem, hMem⟩, hMakes⟩
    exact ⟨item, hItem, command, hMem, hMakes⟩
  · rintro ⟨item, hItem, command, hMem, hMakes⟩
    exact ⟨command, ⟨item, hItem, hMem⟩, hMakes⟩

/- No command removes what another one has made. -/
theorem runCommands_isSome_iff
    {commands : List Command} {s t : Files ι}
    (hRun : runCommands tools toolchain i commands s = .ok t)
    (file : ProjectFile) :
    (t (.project i file)).isSome ↔
      Makes file commands ∨ (s (.project i file)).isSome := by
  induction commands generalizing s with
  | nil =>
      cases hRun
      simp
  | cons command rest ih =>
      rw [runCommands_cons_eq_ok_iff] at hRun
      have hAfter :
          (command.after tools toolchain i s
                (.project i file)).isSome ↔
            .workspace file ∈ command.targets ∨
              (s (.project i file)).isSome := by
        have hLoc :
            (.project i file : Loc ι) =
              (Path.workspace file).loc i := rfl
        rw [hLoc, Command.after_loc]
        exact Command.isSome_effect_iff hRun.1
      rw [ih hRun.2, hAfter, makes_cons_iff]
      tauto

/- What no command makes stays as it is. -/
theorem runCommands_of_not_makes
    {commands : List Command} {s t : Files ι}
    (hRun : runCommands tools toolchain i commands s = .ok t)
    {file : ProjectFile} (hMakes : ¬ Makes file commands) :
    t (.project i file) = s (.project i file) := by
  apply runCommands_of_not_target tools toolchain i hRun
  intro command hMem path hTarget hLoc
  apply hMakes
  have hPath : path = .workspace file :=
    Path.loc_injective i hLoc
  rw [hPath] at hTarget
  exact ⟨command, hMem, hTarget⟩

end Commands

------------------------------------------------------------
-- What a Script Makes
------------------------------------------------------------

/- The output format a kind of image comes with. -/
def ImageKind.format : ImageKind → OutputFormat
| .bzImage | .cpio => .cpio
| .efi => .uki
| .bin => .binary

/- What a config asks for. -/
def Produces (config : Config) : DistFile → Prop
| .image name kind =>
    name = config.project.name ∧
      kind.format ∈ config.output.formats
| .measurementTxt | .measurementJson | .ovmfCache =>
    config.profile.kind = .sevSnp

instance (config : Config) (file : DistFile) :
    Decidable (Produces config file) := by
  cases file
  all_goals unfold Produces
  all_goals infer_instance

/- Where a generic build leaves the app. -/
def genericOutput
    (links : Links) (source : AppSource) (package : Dir) :
    Option HostPath :=
  match source.toolchain with
  | .rust => none
  | .generic =>
      source.outputBinary.map (outputFile links package)

/- The output of the config's own app, if it has one. -/
def appOutput (links : Links) (config : Config) :
    Option HostPath :=
  match config.app.mode with
  | .binary => none
  | .source =>
      config.app.source.bind fun source =>
        source.path.bind fun path =>
          match packageDir links source path with
          | .inside package =>
              genericOutput links source package
          | .outside _ => none

/- The candidates among all output files. -/
def outputFiles (config : Config) : List DistFile :=
  [.image config.project.name .bzImage,
    .image config.project.name .cpio,
    .image config.project.name .efi,
    .image config.project.name .bin,
    .measurementTxt, .measurementJson, .ovmfCache]

/- What a config produces is one of the files looked at. -/
theorem mem_outputFiles
    {config : Config} {file : DistFile}
    (hProduces : Produces config file) :
    file ∈ outputFiles config := by
  cases file with
  | image name kind =>
      rw [hProduces.1]
      cases kind <;> simp [outputFiles]
  | _ => simp [outputFiles]

/- What a build of the config makes, wherever that is. -/
def Leaves
    (links : Links) (config : Config) (path : HostPath) :
    Prop :=
  appOutput links config = some path ∨
    ∃ file ∈ outputFiles config,
      Produces config file ∧
        path = outputPath links config file

instance
    (links : Links) (config : Config) (path : HostPath) :
    Decidable (Leaves links config path) := by
  unfold Leaves
  infer_instance

/- The section is there exactly for its profile. -/
theorem sevSnp_isSome_iff (config : ValidConfig) :
    config.config.sevSnp.isSome ↔
      config.config.profile.kind = .sevSnp := by
  have hProfile :=
    ((Config.validate_eq_ok_iff _).1
      config.valid).2.2.2.2.2.2.2.2.2.1
  unfold Config.validateProfile at hProfile
  cases hKind : config.config.profile.kind with
  | casual =>
      rw [hKind] at hProfile
      dsimp only at hProfile
      rw [reject_eq_ok_iff] at hProfile
      simp only [hProfile, reduceCtorEq]
  | sevSnp =>
      rw [hKind] at hProfile
      dsimp only at hProfile
      simp only [unit_bind_eq_ok_iff] at hProfile
      cases hSev : config.config.sevSnp with
      | none =>
          rw [hSev] at hProfile
          cases hProfile.2.2
      | some sev => simp

/- A valid measured image has the section. -/
theorem exists_sevSnp
    (config : ValidConfig)
    (hKind : config.config.profile.kind = .sevSnp) :
    ∃ sev, config.config.sevSnp = some sev :=
  Option.isSome_iff_exists.1 ((sevSnp_isSome_iff config).2 hKind)

section Scripts

variable {links : Links} {config : Config} {path : HostPath}

/- The output of an app that was found. -/
def outputOf (links : Links) (config : Config) :
    AcquiredApp → Option HostPath
| .binary _ => none
| .localSource package =>
    config.app.source.bind fun source =>
      genericOutput links source package

/- The commands that build the app make its output. -/
theorem makes_scriptAppBuild_iff
    {app : AcquiredApp} {built : List Command × Path}
    (hScript : scriptAppBuild links config app = .ok built) :
    Makes (.file path) built.1 ↔
      outputOf links config app = some path := by
  unfold scriptAppBuild scriptAppSource at hScript
  unfold outputOf genericOutput
  cases app with
  | binary binary =>
      cases hScript
      simp [Command.targets]
  | localSource package =>
      cases hSource : config.app.source with
      | none =>
          rw [hSource] at hScript
          cases hScript
      | some source =>
          rw [hSource] at hScript
          dsimp only at hScript
          unfold scriptBuildAt at hScript
          cases hToolchain : source.toolchain with
          | rust =>
              rw [hToolchain] at hScript
              cases hScript
              simp [Command.targets, hToolchain]
          | generic =>
              rw [hToolchain] at hScript
              dsimp only at hScript
              split at hScript
              · cases hScript
              · cases hScript
              · rename_i command output _ hOutput
                cases hScript
                simp [Command.targets, hToolchain, hOutput,
                  eq_comm]

/- A format makes the images that are of it. -/
theorem makes_scriptFormat_iff
    {appBin : Path} {format : OutputFormat} :
    Makes (.file path)
          (scriptFormat links config appBin format) ↔
      ∃ kind : ImageKind,
        kind.format = format ∧
          path =
            outputPath links config
              (.image config.project.name kind) := by
  cases format with
  | cpio =>
      simp only [scriptFormat, distImage, distFile,
        makes_cons_iff, makes_nil, or_false, Command.targets,
        List.mem_singleton, Path.workspace.injEq,
        ProjectFile.file.injEq]
      constructor
      · rintro (hFile | hFile)
        · exact ⟨.cpio, rfl, hFile⟩
        · exact ⟨.bzImage, rfl, hFile⟩
      · rintro ⟨kind, hKind, hFile⟩
        cases kind with
        | bzImage => exact Or.inr hFile
        | cpio => exact Or.inl hFile
        | efi => cases hKind
        | bin => cases hKind
  | uki =>
      simp only [scriptFormat, distImage, distFile,
        makes_cons_iff, makes_nil, or_false, Command.targets,
        List.mem_singleton, Path.workspace.injEq,
        ProjectFile.file.injEq]
      constructor
      · intro hFile
        exact ⟨.efi, rfl, hFile⟩
      · rintro ⟨kind, hKind, hFile⟩
        cases kind with
        | efi => exact hFile
        | bzImage => cases hKind
        | cpio => cases hKind
        | bin => cases hKind
  | binary =>
      simp only [scriptFormat, distImage, distFile,
        makes_cons_iff, makes_nil, or_false, Command.targets,
        List.mem_singleton, Path.workspace.injEq,
        ProjectFile.file.injEq]
      constructor
      · intro hFile
        exact ⟨.bin, rfl, hFile⟩
      · rintro ⟨kind, hKind, hFile⟩
        cases kind with
        | bin => exact hFile
        | bzImage => cases hKind
        | cpio => cases hKind
        | efi => cases hKind

/- With or without the condition. -/
theorem not_makes_ifPersistent
    {command : Command} {file : ProjectFile}
    (hRootfs : command.IsRootfs) :
    ¬ Makes file (ifPersistent config command) := by
  unfold ifPersistent
  split
  · simp [Command.workspace_not_mem_targets hRootfs]
  · exact makes_nil file

/- The root file system is under `/build`. -/
theorem not_makes_scriptRootfs
    {appBin : Path} {file : ProjectFile} :
    ¬ Makes file (scriptRootfs config appBin) := by
  have hMke2fs :
      ¬ Makes file (ifPersistent config .installMke2fs) :=
    not_makes_ifPersistent trivial
  have hChmod :
      ¬ Makes file
        (ifPersistent config (.chmodFiles 0o555 [.mke2fs])) :=
    not_makes_ifPersistent trivial
  simp [scriptRootfs, hMke2fs, hChmod, Command.targets,
    Command.installTargets]

/- Up to the formats, everything is made under `/build`. -/
theorem makes_scriptRootfsAndImages_iff
    {appBin : Path} :
    Makes (.file path)
          (scriptRootfsAndImages links config appBin) ↔
      ∃ kind : ImageKind,
        kind.format ∈ config.output.formats ∧
          path =
            outputPath links config
              (.image config.project.name kind) := by
  unfold scriptRootfsAndImages
  rw [makes_append_iff, makes_append_iff, makes_flatMap_iff]
  simp only [not_makes_scriptRootfs, false_or,
    makes_scriptFormat_iff, stagedImage, makes_cons_iff,
    makes_nil, or_false, Command.targets, List.mem_singleton,
    reduceCtorEq]
  constructor
  · rintro ⟨format, hFormat, kind, rfl, hFile⟩
    exact ⟨kind, hFormat, hFile⟩
  · rintro ⟨kind, hFormat, hFile⟩
    exact ⟨kind.format, hFormat, kind, rfl, hFile⟩

/- A measurement makes its text and copies the firmware. -/
theorem makes_scriptSevSnp_iff (sev : SevSnp) :
    Makes (.file path) (scriptSevSnp links config sev) ↔
      path = outputPath links config .ovmfCache ∨
        path = outputPath links config .measurementTxt := by
  simp only [scriptSevSnp, distFile, makes_cons_iff, makes_nil,
    or_false, Command.targets, List.mem_singleton,
    Path.workspace.injEq, ProjectFile.file.injEq, reduceCtorEq]

/- Everything but the launch measurement. -/
def scriptBefore
    (links : Links) (config : Config)
    (built : List Command × Path) : List Command :=
  scriptKernelBuild config ++ built.1 ++
    (scriptGuestInitBuild config ++
      scriptRootfsAndImages links config built.2)

/- A script has a part up to the images, and another. -/
theorem generateBuildScript_eq_ok
    {app : AcquiredApp} {script : List Command}
    (hScript :
      generateBuildScript links config app = .ok script) :
    ∃ built,
      scriptAppBuild links config app = .ok built ∧
        script =
          scriptBefore links config built ++
            scriptSevSnpMeasurement links config := by
  unfold generateBuildScript at hScript
  cases hApp : scriptAppBuild links config app with
  | error error =>
      rw [hApp] at hScript
      cases hScript
  | ok built =>
      rw [hApp] at hScript
      cases hScript
      refine ⟨built, rfl, ?_⟩
      simp only [scriptBefore, scriptImages, List.append_assoc]

/- The first part makes the app and the images. -/
theorem makes_scriptBefore_iff
    {app : AcquiredApp} {built : List Command × Path}
    (hApp : scriptAppBuild links config app = .ok built) :
    Makes (.file path) (scriptBefore links config built) ↔
      outputOf links config app = some path ∨
        ∃ kind : ImageKind,
          kind.format ∈ config.output.formats ∧
            path =
              outputPath links config
                (.image config.project.name kind) := by
  simp only [scriptBefore, makes_append_iff,
    makes_scriptAppBuild_iff hApp, scriptKernelBuild,
    scriptGuestInitBuild, makes_scriptRootfsAndImages_iff,
    makes_cons_iff, makes_nil, Command.targets,
    List.mem_singleton, reduceCtorEq, false_or]

/- The second part is only for measured images. -/
theorem makes_scriptSevSnpMeasurement_iff :
    Makes (.file path)
          (scriptSevSnpMeasurement links config) ↔
      config.profile.kind = .sevSnp ∧
        config.sevSnp.isSome ∧
          (path = outputPath links config .ovmfCache ∨
            path =
              outputPath links config .measurementTxt) := by
  unfold scriptSevSnpMeasurement
  by_cases hKind : config.profile.kind = .sevSnp
  · cases hSev : config.sevSnp with
    | none => simp [hKind]
    | some sev => simp [hKind, makes_scriptSevSnp_iff]
  · simp [hKind]

/- All that the container leaves among the host's files. -/
theorem makes_generateBuildScript_iff
    {app : AcquiredApp} {script : List Command}
    (hScript :
      generateBuildScript links config app = .ok script) :
    Makes (.file path) script ↔
      outputOf links config app = some path ∨
        (∃ kind : ImageKind,
            kind.format ∈ config.output.formats ∧
              path =
                outputPath links config
                  (.image config.project.name kind)) ∨
          config.profile.kind = .sevSnp ∧
            config.sevSnp.isSome ∧
              (path = outputPath links config .ovmfCache ∨
                path =
                  outputPath links config
                    .measurementTxt) := by
  rcases generateBuildScript_eq_ok hScript with
    ⟨built, hApp, rfl⟩
  rw [makes_append_iff, makes_scriptBefore_iff hApp,
    makes_scriptSevSnpMeasurement_iff, or_assoc]

end Scripts

------------------------------------------------------------
-- What a Build Leaves
------------------------------------------------------------

section Builds

variable {ι : Type} [Linked ι] {tools : Tools} {i : ι}

/- A place of the project is answered by its names. -/
theorem insideProject_eq_ok_iff
    {path : HostPath} {dir : Dir} :
    insideProject path = .ok dir ↔ path = .inside dir := by
  cases path with
  | inside other => simp [insideProject]
  | outside other => simp [insideProject]

/- The app that is found is the one of the config. -/
theorem outputOf_of_acquire
    {config : Config} {s : Files ι} {app : AcquiredApp}
    (hAcquire : acquire i config s = .ok app) :
    outputOf (links i) config app =
      appOutput (links i) config := by
  unfold acquire at hAcquire
  unfold appOutput
  cases hMode : config.app.mode with
  | binary =>
      rw [hMode] at hAcquire
      dsimp only at hAcquire ⊢
      unfold acquireBinary at hAcquire
      split at hAcquire
      · cases hAcquire
      · split at hAcquire
        · cases hAcquire
        · rw [unit_bind_eq_ok_iff, bind_eq_ok_iff] at hAcquire
          rcases hAcquire with ⟨_, dir, _, hApp⟩
          cases hApp
          rfl
  | source =>
      rw [hMode] at hAcquire
      dsimp only at hAcquire ⊢
      unfold acquireSource at hAcquire
      cases hSource : config.app.source with
      | none =>
          rw [hSource] at hAcquire
          cases hAcquire
      | some source =>
          rw [hSource] at hAcquire
          dsimp only at hAcquire
          cases hPath : source.path with
          | none =>
              rw [hPath] at hAcquire
              cases hAcquire
          | some path =>
              rw [hPath] at hAcquire
              dsimp only at hAcquire
              unfold acquirePackage at hAcquire
              rw [unit_bind_eq_ok_iff, bind_eq_ok_iff]
                at hAcquire
              rcases hAcquire with
                ⟨_, dir, hInside, hApp⟩
              rw [insideProject_eq_ok_iff] at hInside
              rw [unit_bind_eq_ok_iff] at hApp
              cases hApp.2
              simp [outputOf, hSource, hPath, hInside]

/- Staging writes the firmware cache, and only that. -/
theorem written_stage
    {config : Config} {s : Files ι}
    {staged : Writes (Loc ι) Content}
    (hStage : stage i config s = .ok staged) :
    staged = [] ∨
      ∃ bytes,
        staged = [(distLoc i config .ovmfCache, some bytes)] := by
  unfold stage stageOvmf at hStage
  split at hStage
  · cases hStage
    exact Or.inl rfl
  · split at hStage
    · cases hStage
      exact Or.inl rfl
    · split at hStage
      · cases hStage
      · split at hStage
        · cases hStage
        · cases hStage
          exact Or.inr ⟨_, rfl⟩

/- Only the profile it belongs to stages firmware. -/
theorem kind_of_stage_ne_nil
    {config : ValidConfig} {s : Files ι}
    {staged : Writes (Loc ι) Content}
    (hStage : stage i config.config s = .ok staged)
    (hSome : staged ≠ []) :
    config.config.profile.kind = .sevSnp := by
  unfold stage at hStage
  cases hSev : config.config.sevSnp with
  | none =>
      rw [hSev] at hStage
      cases hStage
      exact absurd rfl hSome
  | some sev =>
      rw [← sevSnp_isSome_iff, hSev]
      rfl

variable [DecidableEq ι]

omit [Linked ι] in
/- What the commands start from. -/
theorem prepared_of_ne
    (config : Config) (script : List Command) (s : Files ι)
    {loc : Loc ι}
    (hScript : loc ≠ .buildScript)
    (hKconfig : loc ≠ .extraKconfig)
    (hImage : loc ≠ .builderImage) :
    prepared tools config script s loc = s loc := by
  have hWritten :
      loc ∉ written (writeExtraKconfig config) := by
    unfold writeExtraKconfig written
    split
    · simpa using hKconfig
    · simp
  unfold prepared writeScript buildToolchainImage
  rw [apply_cons_of_ne hScript, apply_nil,
    apply_of_not_mem hWritten, apply_cons_of_ne hImage,
    apply_nil]

omit [Linked ι] in

/- Preparing the container touches no file of a project. -/
theorem prepared_fileLoc
    (config : Config) (script : List Command) (s : Files ι)
    (j : ι) (path : HostPath) :
    prepared tools config script s (fileLoc j path) =
      s (fileLoc j path) := by
  apply prepared_of_ne
  · simp [fileLoc]
  · simp [fileLoc]
  · simp [fileLoc]

/- Staging makes the firmware's file at most. -/
theorem apply_stage_isSome_iff
    {config : ValidConfig} {s : Files ι}
    {staged : Writes (Loc ι) Content}
    (hStage : stage i config.config s = .ok staged)
    (loc : Loc ι) :
    (apply staged s loc).isSome ↔
      staged ≠ [] ∧
          loc = distLoc i config.config .ovmfCache ∨
        (s loc).isSome := by
  rcases written_stage hStage with rfl | ⟨bytes, rfl⟩
  · simp
  · by_cases hLoc : loc = distLoc i config.config .ovmfCache
    · rw [hLoc, apply_cons_self]
      simp
    · rw [apply_cons_of_ne hLoc, apply_nil]
      simp [hLoc]

omit [DecidableEq ι] [Linked ι] in
@[simp] theorem fileLoc_inj
    {path other : HostPath} :
    fileLoc i path = fileLoc i other ↔ path = other := by
  simp [fileLoc]

omit [DecidableEq ι] in
@[simp] theorem fileLoc_eq_distLoc_iff
    {config : Config} {path : HostPath} {file : DistFile} :
    fileLoc i path = distLoc i config file ↔
      path = outputPath (links i) config file := by
  unfold distLoc
  exact fileLoc_inj

omit [DecidableEq ι] in
/- The output files of a config are at different places. -/
@[simp] theorem distLoc_inj
    {config : Config} {file other : DistFile} :
    distLoc i config file = distLoc i config other ↔
      file = other := by
  constructor
  · intro hLoc
    unfold distLoc at hLoc
    rw [fileLoc_inj] at hLoc
    exact DistFile.eq_of_path_eq hLoc
  · rintro rfl
    rfl

/- They are files of the project. -/
def Loc.isFile {ι : Type} : Loc ι → Bool
| .project _ (.file _) => true
| _ => false

omit [DecidableEq ι] in

/- A place that is no file is no output file. -/
theorem ne_distLoc
    {config : Config} {file : DistFile} {loc : Loc ι}
    (hOther : loc.isFile = false) :
    loc ≠ distLoc i config file := by
  rintro rfl
  cases hOther

/- What the container made, of what the config asks for. -/
theorem makes_or_staged_iff
    {config : ValidConfig} {s t : Files ι} {path : HostPath}
    (built : Built tools i config.config s t) :
    Makes (.file path) built.script ∨
          built.staged ≠ [] ∧
            path =
              outputPath (links i) config.config .ovmfCache ↔
      appOutput (links i) config.config = some path ∨
        ∃ file ∈ outputFiles config.config,
          file ≠ .measurementJson ∧
            Produces config.config file ∧
              path =
                outputPath (links i) config.config file := by
  rw [makes_generateBuildScript_iff built.script_eq,
    outputOf_of_acquire built.acquire_eq,
    sevSnp_isSome_iff config]
  have hKind := kind_of_stage_ne_nil built.stage_eq
  constructor
  · rintro ((hApp | ⟨kind, hFormat, hPath⟩ |
      ⟨hSev, _, hPath | hPath⟩) | ⟨hStaged, hPath⟩)
    · exact Or.inl hApp
    · have hProduces :
          Produces config.config
            (.image config.config.project.name kind) :=
        ⟨rfl, hFormat⟩
      exact
        Or.inr
          ⟨_, mem_outputFiles hProduces, DistFile.noConfusion,
            hProduces, hPath⟩
    · exact
        Or.inr
          ⟨.ovmfCache, mem_outputFiles hSev,
            DistFile.noConfusion, hSev, hPath⟩
    · exact
        Or.inr
          ⟨.measurementTxt, mem_outputFiles hSev,
            DistFile.noConfusion, hSev, hPath⟩
    · exact
        Or.inr
          ⟨.ovmfCache, mem_outputFiles (hKind hStaged),
            DistFile.noConfusion, hKind hStaged, hPath⟩
  · rintro (hApp | ⟨file, _, hOther, hProduces, hPath⟩)
    · exact Or.inl (Or.inl hApp)
    · left
      right
      cases file with
      | image name kind =>
          rw [hProduces.1] at hPath
          exact Or.inl ⟨kind, hProduces.2, hPath⟩
      | measurementTxt =>
          exact
            Or.inr ⟨hProduces, hProduces, Or.inr hPath⟩
      | measurementJson => exact absurd rfl hOther
      | ovmfCache =>
          exact Or.inr ⟨hProduces, hProduces, Or.inl hPath⟩

/-
  After a build, a file is there if the build leaves it, or
  if it was there before.
-/
theorem build_isSome_iff
    {config : ValidConfig} {s t : Files ι}
    (hBuild : build tools i config.config s = .ok t)
    (path : HostPath) :
    (t (fileLoc i path)).isSome ↔
      Leaves (links i) config.config path ∨
        (s (fileLoc i path)).isSome := by
  rcases build_eq_ok_iff.1 hBuild with ⟨built⟩
  rcases recordMeasurement_of_finishBuild built.finish_eq with
    ⟨artifacts, _, hRecord⟩
  have hRun :
      (built.mid (fileLoc i path)).isSome ↔
        Makes (.file path) built.script ∨
          built.staged ≠ [] ∧
              path =
                outputPath (links i) config.config
                  .ovmfCache ∨
            (s (fileLoc i path)).isSome := by
    have hMakes :=
      runCommands_isSome_iff built.run_eq (.file path)
    change (built.mid (fileLoc i path)).isSome ↔
      _ ∨ (prepared tools config.config built.script
        (apply built.staged s) (fileLoc i path)).isSome
      at hMakes
    rw [hMakes, prepared_fileLoc,
      apply_stage_isSome_iff built.stage_eq,
      fileLoc_eq_distLoc_iff]
  rw [← or_assoc, makes_or_staged_iff built] at hRun
  unfold Leaves
  by_cases hJson :
      path =
        outputPath (links i) config.config .measurementJson
  · have hLoc :
        fileLoc i path =
          distLoc i config.config .measurementJson := by
      rw [hJson]
      rfl
    by_cases hSevSnp : config.config.profile.kind = .sevSnp
    · rcases recordMeasurement_sevSnp hSevSnp hRecord with
        ⟨_, _, _, _, _, _, hEq⟩
      rw [hEq, hLoc, apply_cons_self]
      refine iff_of_true rfl (Or.inl (Or.inr ?_))
      exact
        ⟨.measurementJson, mem_outputFiles hSevSnp, hSevSnp,
          hJson⟩
    · rw [recordMeasurement_casual hSevSnp hRecord, hRun]
      refine or_congr (or_congr Iff.rfl ?_) Iff.rfl
      constructor
      · rintro ⟨file, hMem, _, hProduces, hPath⟩
        exact ⟨file, hMem, hProduces, hPath⟩
      · rintro ⟨file, hMem, hProduces, hPath⟩
        refine ⟨file, hMem, ?_, hProduces, hPath⟩
        rintro rfl
        exact hSevSnp hProduces
  · have hOther :
        fileLoc i path ≠
          distLoc i config.config .measurementJson := by
      rw [Ne, fileLoc_eq_distLoc_iff]
      exact hJson
    rw [recordMeasurement_of_ne hRecord hOther, hRun]
    refine or_congr (or_congr Iff.rfl ?_) Iff.rfl
    constructor
    · rintro ⟨file, hMem, _, hProduces, hPath⟩
      exact ⟨file, hMem, hProduces, hPath⟩
    · rintro ⟨file, hMem, hProduces, hPath⟩
      refine ⟨file, hMem, ?_, hProduces, hPath⟩
      rintro rfl
      exact hJson hPath

/- A file that a build does not leave stays as it is. -/
theorem build_of_not_leaves
    {config : ValidConfig} {s t : Files ι}
    (hBuild : build tools i config.config s = .ok t)
    {path : HostPath}
    (hNot : ¬ Leaves (links i) config.config path) :
    t (fileLoc i path) = s (fileLoc i path) := by
  rcases build_eq_ok_iff.1 hBuild with ⟨built⟩
  rcases recordMeasurement_of_finishBuild built.finish_eq with
    ⟨artifacts, _, hRecord⟩
  have hNone :
      ¬ (Makes (.file path) built.script ∨
        built.staged ≠ [] ∧
          path =
            outputPath (links i) config.config
              .ovmfCache) := by
    rw [makes_or_staged_iff built]
    rintro (hApp | ⟨file, hMem, _, hProduces, hPath⟩)
    · exact hNot (Or.inl hApp)
    · exact hNot (Or.inr ⟨file, hMem, hProduces, hPath⟩)
  rw [not_or] at hNone
  have hMid :
      built.mid (fileLoc i path) = s (fileLoc i path) := by
    change built.mid (.project i (.file path)) = _
    rw [runCommands_of_not_makes built.run_eq hNone.1]
    change prepared tools config.config built.script
      (apply built.staged s) (fileLoc i path) = _
    rw [prepared_fileLoc]
    rcases written_stage built.stage_eq with
      hNil | ⟨bytes, hStaged⟩
    · rw [hNil, apply_nil]
    · rw [hStaged, apply_cons_of_ne, apply_nil]
      rw [Ne, fileLoc_eq_distLoc_iff]
      intro hPath
      refine hNone.2 ⟨?_, hPath⟩
      rw [hStaged]
      exact List.cons_ne_nil _ _
  rw [← hMid]
  by_cases hKind : config.config.profile.kind = .sevSnp
  · apply recordMeasurement_of_ne hRecord
    rw [Ne, fileLoc_eq_distLoc_iff]
    intro hPath
    exact
      hNot
        (Or.inr
          ⟨.measurementJson, mem_outputFiles hKind, hKind,
            hPath⟩)
  · have hSame := recordMeasurement_casual hKind hRecord
    exact congrFun hSame _

end Builds

end Pipeline

end CargoUnikernel
