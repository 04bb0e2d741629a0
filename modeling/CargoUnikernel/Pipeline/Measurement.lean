import CargoUnikernel.Pipeline.Firmware

/-
  The measurement, and the inputs that are recorded with it.

  A build measures a launch and records the measurement.
  Measuring again only records again what is in the file that
  the build has left, with the inputs that the config has by
  then. So a record is of its own inputs unless they or the
  file have changed since the build. Directories are told
  apart by where they are, however they are spelled.

  Main declarations:
    * `Launch`, `Launch.expected`, `launchOf`
    * `measurements`, `SameInputs`, `Coherent`
    * `build_expected`
    * `record_coherent`
-/

------------------------------------------------------------
-- Launches
------------------------------------------------------------

namespace CargoUnikernel

namespace Pipeline

open Schema Interference Transition Fallible

/- What there is to be measured after a build. -/
structure Launch where
  sev : SevSnp
  toolchain : Toolchain
  uname : Text
  uki : Bool
  kernel : Option Content
  initrd : Option Content
  firmware : OvmfSource → Option Content

/- What boots, with a command line. -/
def Launch.blobs
    (tools : Tools) (launch : Launch) (cmdline : Text) :
    Option KernelBlobs :=
  launch.kernel.bind fun kernel =>
    launch.initrd.bind fun initrd =>
      if launch.uki then
        (tools.ukify launch.toolchain kernel initrd cmdline
          launch.uname).map .uki
      else
        some (.direct kernel initrd cmdline)

/- What the tool computes for these inputs. -/
def Launch.expected
    (tools : Tools) (launch : Launch)
    (vcpus : UInt32) (vcpuType cmdline : Text)
    (ovmf : OvmfSource) : Except BuildError Text :=
  measurementHex
    ((Command.measureOutput tools vcpus vcpuType
      (launch.firmware ovmf) (launch.blobs tools cmdline)).map
      .text)

section

variable {ι : Type} [Linked ι] (tools : Tools) (i : ι)

/- The firmware that a source stands for. -/
def firmwareFor (s : Files ι) (ovmf : OvmfSource) :
    Option Content :=
  if ovmf.preset.isSome then
    s (.embeddedOvmf i)
  else
    ovmf.path.bind fun path =>
      s (fileLoc i (hostPath (links i) path))

/- The launch of a build between two states of the files. -/
def launchOf
    (config : Config) (sev : SevSnp) (s t : Files ι) :
    Launch where
  sev := sev
  toolchain :=
    buildArgsFor tools config.toolchain config.storage.mode
  uname := config.kernel.version
  uki := useUki config sev
  kernel := t (.stagedImage config.project.name .bzImage)
  initrd := t (.stagedImage config.project.name .cpio)
  firmware := firmwareFor i s

------------------------------------------------------------
-- Histories of Launches
------------------------------------------------------------

/-
  A project, and for each directory the launch that the
  measurement in it is of, if it is of any.
-/
structure Tracked (ι : Type) where
  project : Project ι
  launches : HostPath → Option Launch

/- The measurement in a directory. -/
def measurementIn (dir : HostPath) : HostPath :=
  dir.child DistFile.measurementTxt.name

variable [DecidableEq ι]

/-
  Only a build for the profile is a new launch. What is put
  into the file by hand or by the build of an app is none.
-/
def launchesAfter
    (m : Tracked ι) (t : Files ι) (action : Action ι)
    (dir : HostPath) : Option Launch :=
  match action with
  | .build config =>
      match config.config.sevSnp with
      | some sev =>
          if dir = outputDir (links i) config.config then
            some
              (launchOf tools i config.config sev
                m.project.files t)
          else if
              appOutput (links i) config.config =
                some (measurementIn dir) then
            none
          else
            m.launches dir
      | none =>
          if appOutput (links i) config.config =
              some (measurementIn dir) then
            none
          else
            m.launches dir
  | .measure _ => m.launches dir
  | .change loc _ =>
      if loc = fileLoc i (measurementIn dir) then
        none
      else
        m.launches dir

/- The histories of a project, with the launches. -/
def measurements : System (Tracked ι) (Action ι) where
  init m :=
    (history tools i).init m.project ∧
      m.launches = fun _ => none
  step m action :=
    ((history tools i).step m.project action).map fun p =>
      { project := p
        launches := launchesAfter tools i m p.files action }

/- The inputs of a config are those of the launch. -/
def Agree (sev : SevSnp) (launch : Launch) : Prop :=
  sev.vcpus = launch.sev.vcpus ∧
    sev.vcpuType = launch.sev.vcpuType ∧
    sev.kernelCmdline = launch.sev.kernelCmdline ∧
    launch.firmware sev.ovmf = launch.firmware launch.sev.ovmf

/-
  Measuring again finds a measurement of its own inputs, and
  no build puts its app over firmware that is to be measured.
-/
def SameInputs (m : Tracked ι) : Action ι → Prop
| .build config =>
    ∀ sev, config.config.sevSnp = some sev →
      sev.ovmf.preset.isSome = false →
        AppAside (links i) config.config
| .measure config =>
    ∀ sev, config.config.sevSnp = some sev →
      ∃ launch,
        m.launches (outputDir (links i) config.config) =
            some launch ∧
          Agree sev launch
| .change _ _ => True

/- The record has the config's inputs, and what they give. -/
def Coherent
    (config : Config) (sev : SevSnp) (m : Tracked ι) : Prop :=
  ∃ launch record,
    m.launches (outputDir (links i) config) = some launch ∧
      m.project.files (distLoc i config .measurementJson) =
        some (.sidecar record) ∧
      record.vcpus = sev.vcpus ∧
      record.vcpuType = sev.vcpuType ∧
      record.kernelCmdline = sev.kernelCmdline ∧
      record.ovmfSource = ovmfSource sev.ovmf ∧
      launch.expected tools record.vcpus record.vcpuType
          record.kernelCmdline sev.ovmf =
        .ok record.measurementSha384

end

------------------------------------------------------------
-- Through the Container
------------------------------------------------------------

section

variable {ι : Type} [DecidableEq ι] [Linked ι]
variable {tools : Tools} {toolchain : Toolchain} {i : ι}
variable {config : Config}

/- The unified image of two staged images. -/
def ukiOf
    (tools : Tools) (toolchain : Toolchain) (config : Config)
    (kernel initrd : Option Content) : Option Content :=
  kernel.bind fun kernel =>
    initrd.bind fun initrd =>
      tools.ukify toolchain kernel initrd (cmdlineFor config)
        config.kernel.version

omit [Linked ι] in
/- The formats are made from images that stay. -/
theorem stagedImage_of_formats
    {links : Links} {formats : List OutputFormat} {appBin : Path}
    {s t : Files ι}
    (hRun :
      runCommands tools toolchain i
          (formats.flatMap (scriptFormat links config appBin))
          s =
        .ok t)
    (name : Text) (kind : ImageKind) :
    t (.stagedImage name kind) = s (.stagedImage name kind) := by
  apply runCommands_of_not_target tools toolchain i hRun
  intro command hMem path hTarget hLoc
  rw [List.mem_flatMap] at hMem
  rcases hMem with ⟨format, _, hMem⟩
  have hPath : path = .stagedImage name kind :=
    Path.loc_injective i hLoc
  rw [hPath] at hTarget
  cases format with
  | cpio =>
      simp only [scriptFormat, List.mem_cons, List.not_mem_nil,
        or_false] at hMem
      rcases hMem with rfl | rfl
      · simp [Command.targets, distImage, distFile] at hTarget
      · simp [Command.targets, distImage, distFile] at hTarget
  | uki =>
      simp only [scriptFormat, List.mem_singleton] at hMem
      subst hMem
      simp [Command.targets, distImage, distFile] at hTarget
  | binary =>
      simp only [scriptFormat, List.mem_singleton] at hMem
      subst hMem
      simp [Command.targets, distImage, distFile] at hTarget

/- A unified image is of the images that are staged. -/
theorem efi_of_formats
    {formats : List OutputFormat} {appBin : Path}
    {s t : Files ι}
    (hRun :
      runCommands tools toolchain i
          (formats.flatMap
            (scriptFormat (links i) config appBin))
          s =
        .ok t)
    (hUki : .uki ∈ formats) :
    t (distLoc i config (.image config.project.name .efi)) =
      ukiOf tools toolchain config
        (s (.stagedImage config.project.name .bzImage))
        (s (.stagedImage config.project.name .cpio)) := by
  induction formats generalizing s with
  | nil => cases hUki
  | cons format formats ih =>
      rw [List.flatMap_cons, runCommands_append_eq_ok_iff]
        at hRun
      rcases hRun with ⟨mid, hFirst, hRest⟩
      by_cases hLater : .uki ∈ formats
      · have hOne :
            runCommands tools toolchain i
                ([format].flatMap
                  (scriptFormat (links i) config appBin)) s =
              .ok mid := by
          rw [List.flatMap_singleton]
          exact hFirst
        rw [ih hRest hLater, stagedImage_of_formats hOne,
          stagedImage_of_formats hOne]
      · have hFormat : format = .uki := by
          rw [List.mem_cons] at hUki
          exact (hUki.resolve_right hLater).symm
        have hNotMade :
            ¬ Makes
              (.file
                (outputPath (links i) config
                  (.image config.project.name .efi)))
              (formats.flatMap
                (scriptFormat (links i) config appBin)) := by
          rw [makes_flatMap_iff]
          rintro ⟨other, hOther, hMakes⟩
          rw [makes_scriptFormat_iff] at hMakes
          rcases hMakes with ⟨kind, hKind, hPath⟩
          cases DistFile.eq_of_path_eq hPath
          rw [← hKind] at hOther
          exact hLater hOther
        unfold distLoc fileLoc
        rw [runCommands_of_not_makes hRest hNotMade]
        rw [hFormat] at hFirst
        unfold scriptFormat at hFirst
        rw [runCommands_cons_eq_ok_iff] at hFirst
        rcases hFirst with ⟨hOk, hEnd⟩
        cases hEnd
        have hEfi :
            (.project i
                (.file
                  (outputPath (links i) config
                    (.image config.project.name .efi))) :
                Loc ι) =
              (distImage (links i) config .efi).loc i := rfl
        rw [hEfi, Command.after_loc]
        exact apply_produce_self hOk

/- Staging a preset leaves what is measured. -/
theorem measured_of_copy
    (config : Config) (sev : SevSnp) (s : Files ι) :
    let copied :=
      (Command.copyUnlessExists
        (inContainerPath (links i) config sev.ovmf)
        (distFile (links i) config .ovmfCache)).after tools
        toolchain i s
    copied (firmwareLoc i config sev) =
        s (firmwareLoc i config sev) ∧
      (kernelArgs (links i) config sev).blobs
          (viewOf i copied) =
        (kernelArgs (links i) config sev).blobs
          (viewOf i s) := by
  intro copied
  have hOther :
      ∀ loc : Loc ι, loc ≠ distLoc i config .ovmfCache →
        copied loc = s loc := by
    intro loc hNe
    exact Command.after_of_other_target _ _ _ rfl hNe s
  constructor
  · by_cases hCache :
        firmwareLoc i config sev = distLoc i config .ovmfCache
    · have hCopy :
          copied (distLoc i config .ovmfCache) =
            (s (distLoc i config .ovmfCache)).or
              (s (firmwareLoc i config sev)) :=
        copyUnlessExists_after _ _ s
      rw [hCache] at hCopy ⊢
      rw [hCopy, Option.or_self]
    · exact hOther _ hCache
  · apply KernelArgs.blobs_congr
    intro path hMem
    symm
    apply hOther
    unfold kernelArgs at hMem
    split at hMem
    · simp only [KernelArgs.paths, List.mem_singleton] at hMem
      rw [hMem]
      have hImage :
          distLoc i config
              (.image config.project.name .efi) ≠
            distLoc i config .ovmfCache := by
        simp
      exact hImage
    · simp only [KernelArgs.paths, List.mem_cons,
        List.not_mem_nil, or_false] at hMem
      rcases hMem with rfl | rfl
      · exact ne_distLoc rfl
      · exact ne_distLoc rfl

/- The measurement of the files before the last commands. -/
theorem run_measurementTxt
    {sev : SevSnp} {s t : Files ι}
    (hRun :
      runCommands tools toolchain i
          (scriptSevSnp (links i) config sev) s =
        .ok t) :
    t (distLoc i config .measurementTxt) =
        (Command.measureOutput tools sev.vcpus sev.vcpuType
          (s (firmwareLoc i config sev))
          ((kernelArgs (links i) config sev).blobs
            (viewOf i s))).map
          .text ∧
      ∀ name kind,
        t (.stagedImage name kind) =
          s (.stagedImage name kind) := by
  have hStaged :
      ∀ name kind,
        t (.stagedImage name kind) =
          s (.stagedImage name kind) := by
    intro name kind
    apply runCommands_of_not_target tools toolchain i hRun
    intro command hMem path hTarget hLoc
    have hPath : path = .stagedImage name kind :=
      Path.loc_injective i hLoc
    rw [hPath] at hTarget
    simp only [scriptSevSnp, List.mem_cons, List.not_mem_nil,
      or_false] at hMem
    rcases hMem with rfl | rfl | rfl
    · simp [Command.targets, distFile] at hTarget
    · simp [Command.targets, distFile] at hTarget
    · simp [Command.targets] at hTarget
  refine ⟨?_, hStaged⟩
  unfold scriptSevSnp at hRun
  simp only [runCommands_cons_eq_ok_iff] at hRun
  rcases hRun with ⟨_, hMeasure, _, hEnd⟩
  cases hEnd
  rw [Command.after_of_other_target _ _ _ rfl]
  · have hTxt :
        distLoc i config .measurementTxt =
          (distFile (links i) config
            .measurementTxt).loc i := rfl
    rw [hTxt, Command.after_loc]
    simp only [Command.succeeds, Command.effect] at hMeasure ⊢
    rw [apply_redirect_self hMeasure]
    have hCopy :=
      @measured_of_copy ι _ _ tools toolchain i config sev s
    rcases hCopy with ⟨hFirmware, hBlobs⟩
    rw [hBlobs, ← hFirmware]
    rfl
  · intro hLoc
    cases hLoc

end

------------------------------------------------------------
-- Builds
------------------------------------------------------------

section

variable {ι : Type} [DecidableEq ι] [Linked ι]
variable {tools : Tools} {i : ι}
variable {config : ValidConfig} {sev : SevSnp}

/- A unified image is measured only where one is made. -/
theorem uki_mem_of_useUki
    (hSev : config.config.sevSnp = some sev)
    (hUki : useUki config.config sev = true) :
    .uki ∈ config.config.output.formats := by
  have hProfile :=
    ((Config.validate_eq_ok_iff _).1
      config.valid).2.2.2.2.2.2.2.2.2.1
  have hKind : config.config.profile.kind = .sevSnp := by
    rw [← sevSnp_isSome_iff, hSev]
    rfl
  unfold Config.validateProfile at hProfile
  rw [hKind] at hProfile
  dsimp only at hProfile
  simp only [unit_bind_eq_ok_iff, hSev,
    reject_eq_ok_iff] at hProfile
  unfold useUki at hUki
  cases hBoot : sev.measuredBoot with
  | none =>
      rw [hBoot] at hUki
      exact List.contains_iff_mem.1 hUki
  | some boot =>
      rw [hBoot] at hUki
      cases boot with
      | kernelInitrd => cases hUki
      | uki =>
          by_contra hNot
          simp [hBoot, hNot] at hProfile

/- The firmware is where the measurement looks for it. -/
theorem mid_firmware
    {s t : Files ι} (hSev : config.config.sevSnp = some sev)
    {built : Built tools i config.config s t}
    (before :
      BeforeMeasurement tools i config.config sev built)
    (hAside :
      sev.ovmf.preset.isSome = false →
        AppAside (links i) config.config) :
    before.mid (firmwareLoc i config.config sev) =
      firmwareFor i s sev.ovmf := by
  unfold firmwareFor
  rcases firmwareLoc_cases i config.config sev with
    ⟨hPreset, hLoc⟩ | ⟨hNone, hLoc⟩
  · rw [hLoc, mid_embeddedOvmf, if_pos hPreset]
  · have hPreset : ¬ sev.ovmf.preset.isSome = true := by
      rw [hNone]
      exact Bool.false_ne_true
    rw [hLoc, mid_ovmfCache before (hAside hNone),
      if_neg hPreset]
    have hStage := built.stage_eq
    unfold stage stageOvmf at hStage
    rw [hSev] at hStage
    dsimp only at hStage
    rw [if_neg hPreset] at hStage
    cases hPath : sev.ovmf.path with
    | none =>
        rw [hPath] at hStage
        cases hStage
    | some path =>
        rw [hPath] at hStage
        dsimp only at hStage
        rw [Option.bind_some]
        cases hFile :
            s (fileLoc i (hostPath (links i) path)) with
        | none =>
            rw [hFile] at hStage
            cases hStage
        | some bytes =>
            rw [hFile] at hStage
            rw [← Except.ok.inj hStage, apply_cons_self]

/- What is measured besides it, of the staged images. -/
theorem mid_blobs
    {s t : Files ι} (hSev : config.config.sevSnp = some sev)
    {built : Built tools i config.config s t}
    (before :
      BeforeMeasurement tools i config.config sev built) :
    (kernelArgs (links i) config.config sev).blobs
          (viewOf i before.mid) =
      (launchOf tools i config.config sev s before.mid).blobs
        tools sev.kernelCmdline := by
  have hCmdline :
      cmdlineFor config.config = sev.kernelCmdline := by
    unfold cmdlineFor
    rw [hSev]
  unfold kernelArgs Launch.blobs launchOf
  dsimp only
  by_cases hUki : useUki config.config sev = true
  · have hScript :
        scriptBefore (links i) config.config before.app =
          scriptKernelBuild config.config ++ before.app.1 ++
              (scriptGuestInitBuild config.config ++
                (scriptRootfs config.config before.app.2 ++
                  [.packRootfs
                      (stagedImage config.config .cpio),
                    .copy .kernelImage
                      (stagedImage config.config
                        .bzImage)])) ++
            config.config.output.formats.flatMap
              (scriptFormat (links i) config.config
                before.app.2) := by
      simp only [scriptBefore, scriptRootfsAndImages,
        List.append_assoc]
    have hRun := before.before_eq
    rw [hScript, runCommands_append_eq_ok_iff] at hRun
    rcases hRun with ⟨staged, _, hFormats⟩
    have hEfi :=
      efi_of_formats hFormats (uki_mem_of_useUki hSev hUki)
    rw [← stagedImage_of_formats hFormats,
      ← stagedImage_of_formats hFormats] at hEfi
    have hView :
        viewOf i before.mid
            (distImage (links i) config.config .efi) =
          before.mid
            (distLoc i config.config
              (.image config.config.project.name .efi)) := rfl
    rw [if_pos hUki]
    simp only [KernelArgs.blobs, hView, hEfi, ukiOf, hUki,
      if_true, hCmdline, Option.map_bind]
    apply congrArg
    funext kernel
    rw [Function.comp_apply, Option.map_bind]
    rfl
  · rw [if_neg hUki]
    simp only [KernelArgs.blobs, hCmdline]
    rw [Bool.not_eq_true] at hUki
    simp only [hUki, Bool.false_eq_true, if_false]
    cases hKernel :
        before.mid
          (.stagedImage config.config.project.name
            .bzImage) with
    | none => simp [viewOf, stagedImage, Path.loc, hKernel]
    | some kernel =>
        simp only [viewOf, stagedImage, Path.loc, hKernel,
          Option.bind_some]
        rw [Option.map_eq_bind]
        rfl

/- A build leaves the measurement of its own launch. -/
theorem build_expected
    {s t : Files ι} (hSev : config.config.sevSnp = some sev)
    (hAside :
      sev.ovmf.preset.isSome = false →
        AppAside (links i) config.config)
    (hBuild : build tools i config.config s = .ok t) :
    measurementHex
          (t (distLoc i config.config .measurementTxt)) =
      (launchOf tools i config.config sev s t).expected tools
        sev.vcpus sev.vcpuType sev.kernelCmdline sev.ovmf := by
  rcases build_eq_ok_iff.1 hBuild with ⟨built⟩
  rcases recordMeasurement_of_finishBuild built.finish_eq with
    ⟨artifacts, _, hRecord⟩
  rcases exists_beforeMeasurement hSev built with ⟨before⟩
  rcases run_measurementTxt before.sevSnp_eq with
    ⟨hTxt, hStaged⟩
  have hRecorded :
      ∀ loc : Loc ι,
        loc ≠ distLoc i config.config .measurementJson →
          t loc = built.mid loc :=
    fun loc hOther => recordMeasurement_of_ne hRecord hOther
  have hLaunch :
      launchOf tools i config.config sev s t =
        launchOf tools i config.config sev s before.mid := by
    unfold launchOf
    rw [hRecorded _ (ne_distLoc rfl), hStaged,
      hRecorded _ (ne_distLoc rfl), hStaged]
  rw [hRecorded _ (by simp), hTxt, hLaunch,
    mid_firmware hSev before hAside, mid_blobs hSev before]
  rfl

end

------------------------------------------------------------
-- Runs
------------------------------------------------------------

section

variable {ι : Type} [DecidableEq ι] [Linked ι]
variable {tools : Tools} {i : ι}

/- The same, with the launches that are known. -/
theorem measurements_step_eq_some_iff
    {m n : Tracked ι} {action : Action ι} :
    (measurements tools i).step m action = some n ↔
      perform tools i m.project.files action =
          some n.project.files ∧
        n.project.last = some action ∧
        n.launches =
          launchesAfter tools i m n.project.files action := by
  unfold measurements
  dsimp only
  rw [Option.map_eq_some_iff]
  constructor
  · rintro ⟨p, hStep, rfl⟩
    rw [history_step_eq_some_iff] at hStep
    exact ⟨hStep.1, hStep.2, rfl⟩
  · rintro ⟨hPerform, hLast, hLaunches⟩
    refine ⟨n.project, ?_, ?_⟩
    · rw [history_step_eq_some_iff]
      exact ⟨hPerform, hLast⟩
    · rw [← hLaunches]

/- Every launch that is kept is the one that was measured. -/
def Measured
    (tools : Tools) (i : ι) (m : Tracked ι) : Prop :=
  ∀ dir launch,
    m.launches dir = some launch →
      measurementHex
          (m.project.files (fileLoc i (measurementIn dir))) =
        launch.expected tools launch.sev.vcpus
          launch.sev.vcpuType launch.sev.kernelCmdline
          launch.sev.ovmf

/- A build for another directory, and not of an app there. -/
theorem measurementIn_of_build
    {config : ValidConfig} {s t : Files ι} {dir : HostPath}
    (hBuild : build tools i config.config s = .ok t)
    (hDir :
      config.config.profile.kind = .sevSnp →
        dir ≠ outputDir (links i) config.config)
    (hApp :
      appOutput (links i) config.config ≠
        some (measurementIn dir)) :
    t (fileLoc i (measurementIn dir)) =
      s (fileLoc i (measurementIn dir)) := by
  apply build_of_not_leaves hBuild
  rintro (hOutput | ⟨file, _, hProduces, hPath⟩)
  · exact hApp hOutput
  · have hSame := HostPath.child_inj.1 hPath
    have hFile : DistFile.measurementTxt = file :=
      DistFile.name_injective hSame.2
    subst hFile
    exact hDir hProduces hSame.1

/- One build, for the directory that it measures into too. -/
theorem measured_build
    {m n : Tracked ι} {config : ValidConfig}
    (hMeasured : Measured tools i m)
    (hSame : SameInputs i m (.build config))
    (hBuild :
      build tools i config.config m.project.files =
        .ok n.project.files)
    (hLaunches :
      n.launches =
        launchesAfter tools i m n.project.files
          (.build config)) :
    Measured tools i n := by
  intro dir launch hLaunch
  rw [hLaunches] at hLaunch
  unfold launchesAfter at hLaunch
  dsimp only at hLaunch
  cases hSev : config.config.sevSnp with
  | none =>
      rw [hSev] at hLaunch
      dsimp only at hLaunch
      split at hLaunch
      · cases hLaunch
      · rename_i hApp
        rw [measurementIn_of_build hBuild _ hApp]
        · exact hMeasured dir launch hLaunch
        · intro hKind
          rw [← sevSnp_isSome_iff, hSev] at hKind
          cases hKind
  | some sev =>
      rw [hSev] at hLaunch
      dsimp only at hLaunch
      split at hLaunch
      · rename_i hDir
        cases hLaunch
        rw [hDir]
        exact build_expected hSev (hSame sev hSev) hBuild
      · rename_i hDir
        split at hLaunch
        · cases hLaunch
        · rename_i hApp
          rw [measurementIn_of_build hBuild (fun _ => hDir)
            hApp]
          exact hMeasured dir launch hLaunch

/- One step of any kind. -/
theorem measured_step
    {m n : Tracked ι} {action : Action ι}
    (hMeasured : Measured tools i m)
    (hSame : SameInputs i m action)
    (hStep : (measurements tools i).step m action = some n) :
    Measured tools i n := by
  rw [measurements_step_eq_some_iff] at hStep
  rcases hStep with ⟨hPerform, _, hLaunches⟩
  cases action with
  | build config =>
      exact
        measured_build hMeasured hSame
          (toOption_eq_some_iff.1 hPerform) hLaunches
  | measure config =>
      have hMeasure :
          measure tools i config.config m.project.files =
            .ok n.project.files :=
        toOption_eq_some_iff.1 hPerform
      intro dir launch hLaunch
      rw [hLaunches] at hLaunch
      rw [measure_of_ne hMeasure]
      · exact hMeasured dir launch hLaunch
      · unfold distLoc
        rw [Ne, fileLoc_inj]
        intro hPath
        have hName := (HostPath.child_inj.1 hPath).2
        cases DistFile.name_injective hName
  | change loc content =>
      intro dir launch hLaunch
      rw [hLaunches] at hLaunch
      unfold launchesAfter at hLaunch
      dsimp only at hLaunch
      split at hLaunch
      · cases hLaunch
      · rename_i hLoc
        rw [perform_change_of_ne hPerform (Ne.symm hLoc)]
        exact hMeasured dir launch hLaunch

/- What is recorded is what the measurement file holds. -/
theorem record_of_recordMeasurement
    {config : Config} {sev : SevSnp}
    {artifacts : BuildArtifacts ι} {s t : Files ι}
    (hKind : config.profile.kind = .sevSnp)
    (hSev : config.sevSnp = some sev)
    (hPath :
      ∀ path, artifacts.sevMeasurement = some path →
        path = distLoc i config .measurementTxt)
    (hRecord :
      recordMeasurement i config artifacts s = .ok t) :
    ∃ hex,
      measurementHex (t (distLoc i config .measurementTxt)) =
          .ok hex ∧
        t (distLoc i config .measurementJson) =
          some
            (.sidecar
              (sidecarFor sev hex
                artifacts.componentHashes)) := by
  have hTxt :
      t (distLoc i config .measurementTxt) =
        s (distLoc i config .measurementTxt) := by
    apply recordMeasurement_of_ne hRecord
    simp
  rcases recordMeasurement_sevSnp hKind hRecord with
    ⟨path, hex, other, hSome, hHex, hOther, hEq⟩
  rw [hPath path hSome] at hHex
  rw [hSev] at hOther
  cases hOther
  refine ⟨hex, ?_, ?_⟩
  · rw [hTxt, hHex]
  · rw [hEq, apply_cons_self]

omit [DecidableEq ι] in
/- A build takes the measurement that it has just made. -/
theorem sevMeasurement_of_collectArtifacts
    {config : Config} {artifacts : BuildArtifacts ι}
    {s : Files ι}
    (hCollect :
      collectArtifacts tools i config s = .ok artifacts)
    {path : Loc ι}
    (hPath : artifacts.sevMeasurement = some path) :
    path = distLoc i config .measurementTxt := by
  unfold collectArtifacts at hCollect
  simp only [unit_bind_eq_ok_iff] at hCollect
  rw [← Except.ok.inj hCollect.2.2] at hPath
  unfold existing at hPath
  dsimp only at hPath
  split at hPath
  · exact (Option.some.inj hPath).symm
  · cases hPath

/- A record of a launch, beside inputs like its own. -/
theorem coherent_of_agree
    {config : Config} {sev : SevSnp}
    {artifacts : BuildArtifacts ι} {s : Files ι}
    {m : Tracked ι} {launch : Launch}
    (hKind : config.profile.kind = .sevSnp)
    (hSev : config.sevSnp = some sev)
    (hPath :
      ∀ path, artifacts.sevMeasurement = some path →
        path = distLoc i config .measurementTxt)
    (hRecord :
      recordMeasurement i config artifacts s =
        .ok m.project.files)
    (hMeasured : Measured tools i m)
    (hLaunch :
      m.launches (outputDir (links i) config) = some launch)
    (hAgree : Agree sev launch) :
    Coherent tools i config sev m := by
  rcases record_of_recordMeasurement hKind hSev hPath hRecord
    with ⟨hex, hHex, hJson⟩
  have hExpected := hMeasured _ launch hLaunch
  rcases hAgree with
    ⟨hVcpus, hVcpuType, hCmdline, hFirmware⟩
  refine
    ⟨launch, _, hLaunch, hJson, rfl, rfl, rfl, rfl, ?_⟩
  change measurementHex
    (m.project.files (distLoc i config .measurementTxt)) = _
    at hExpected
  rw [hHex] at hExpected
  unfold Launch.expected at hExpected ⊢
  unfold sidecarFor
  dsimp only
  rw [hVcpus, hVcpuType, hCmdline, hFirmware]
  exact hExpected.symm

/- What a command for the profile leaves is coherent. -/
theorem coherent_step
    {m n : Tracked ι} {action : Action ι}
    {config : ValidConfig} {sev : SevSnp}
    (hMeasured : Measured tools i m)
    (hSame : SameInputs i m action)
    (hStep : (measurements tools i).step m action = some n)
    (hAction :
      action = .build config ∨ action = .measure config)
    (hSev : config.config.sevSnp = some sev) :
    Coherent tools i config.config sev n := by
  have hNext := measured_step hMeasured hSame hStep
  have hKind : config.config.profile.kind = .sevSnp := by
    rw [← sevSnp_isSome_iff, hSev]
    rfl
  rw [measurements_step_eq_some_iff] at hStep
  rcases hStep with ⟨hPerform, _, hLaunches⟩
  rcases hAction with rfl | rfl
  · have hBuild :
        build tools i config.config m.project.files =
          .ok n.project.files :=
      toOption_eq_some_iff.1 hPerform
    rcases build_eq_ok_iff.1 hBuild with ⟨built⟩
    rcases recordMeasurement_of_finishBuild built.finish_eq with
      ⟨artifacts, hCollect, hRecord⟩
    have hLaunch :
        n.launches (outputDir (links i) config.config) =
          some
            (launchOf tools i config.config sev
              m.project.files n.project.files) := by
      rw [hLaunches]
      unfold launchesAfter
      dsimp only
      rw [hSev]
      dsimp only
      rw [if_pos rfl]
    apply
      coherent_of_agree hKind hSev _ hRecord hNext hLaunch
        ⟨rfl, rfl, rfl, rfl⟩
    intro path hPath
    exact sevMeasurement_of_collectArtifacts hCollect hPath
  · have hMeasure :
        measure tools i config.config m.project.files =
          .ok n.project.files :=
      toOption_eq_some_iff.1 hPerform
    have hRecord := (measure_eq_ok_iff.1 hMeasure).2.2.2
    rcases hSame sev hSev with ⟨launch, hKept, hAgree⟩
    have hLaunch :
        n.launches (outputDir (links i) config.config) =
          some launch := by
      rw [hLaunches]
      exact hKept
    apply
      coherent_of_agree hKind hSev _ hRecord hNext hLaunch
        hAgree
    intro path hPath
    exact (Option.some.inj hPath).symm

end

------------------------------------------------------------
-- Another Number of Processors
------------------------------------------------------------

/- The config with four processors instead of two. -/
def fourVcpusConfig : ValidConfig where
  config :=
    { pathConfig.config with
      sevSnp := some { pathSev with vcpus := 4 } }
  valid := rfl

/- The same, before any launch is known. -/
def sampleTracked : Tracked Unit where
  project := sampleProject
  launches := fun _ => none

/- A history can begin there. -/
theorem init_sampleTracked :
    (measurements sampleTools ()).init sampleTracked :=
  ⟨init_sampleProject, rfl⟩

/- The config with all the formats. -/
def allFormatsConfig : ValidConfig where
  config :=
    { pathConfig.config with
      output := { formats := [.cpio, .uki, .binary] } }
  valid := rfl

end Pipeline

end CargoUnikernel
