import CargoUnikernel.Pipeline.Container
import CargoUnikernel.Schema.Validate

/-
  The commands `build` and `measure` on the files of the host.

  A build stages the firmware, finds the app, makes the
  toolchain image, writes the script and runs it, and then
  looks at what came out of it. Links are followed wherever
  a path of the config is used. Directories, permissions and
  the persistent disk image are left out.

  Main declarations:
    * `stageOvmf`, `acquire`, `buildArgsFor`
    * `collectArtifacts`, `imageWrite`, `compute`
    * `build`, `measure`
    * `Built`, `build_eq_ok_iff`, `measure_eq_ok_iff`
    * `Built.outputDir_inside`
-/

------------------------------------------------------------
-- Before the Container
------------------------------------------------------------

namespace CargoUnikernel

namespace Pipeline

open Schema Interference Fallible

/- The links that each of the projects meets. -/
class Linked (ι : Type) where
  links : ι → Links

export Linked (links)

section Stages

variable {ι : Type} [Linked ι]
variable (tools : Tools) (i : ι) (config : Config)

/- One part after another, none of them out of the project. -/
def pushComponents (links : Links) :
    HostPath → List Config.Component →
      Except BuildError HostPath
| dir, [] => .ok dir
| dir, .curDir :: rest => pushComponents links dir rest
| dir, .normal name :: rest =>
    match links.follow dir name with
    | .inside path => pushComponents links (.inside path) rest
    | .outside _ => .error .unsafeOutputDir
| _, .rootDir :: _ | _, .parentDir :: _ =>
    .error .unsafeOutputDir

/- The output directory is in the project, or refused. -/
def hostDistDir : Except BuildError HostPath := do
  reject (Text.trim config.output.dir = []) .unsafeOutputDir
  pushComponents (links i) (.inside [])
    (Config.components config.output.dir)

/- A file of the host, as the project's own. -/
def fileLoc (path : HostPath) : Loc ι :=
  .project i (.file path)

/- The host's place of one of the config's output files. -/
def distLoc (file : DistFile) : Loc ι :=
  fileLoc i (outputPath (links i) config file)

/- A preset is in place, a path is copied to the cache. -/
def stageOvmf
    (ovmf : OvmfSource) (s : Files ι) :
    Except BuildError (Writes (Loc ι) Content) :=
  if ovmf.preset.isSome then
    .ok []
  else
    match ovmf.path with
    | none => .error .ovmfNeedsExactlyOneSource
    | some path =>
        match s (fileLoc i (hostPath (links i) path)) with
        | none => .error (.ovmfUnreadable path)
        | some bytes =>
            .ok [(distLoc i config .ovmfCache, some bytes)]

/- Only a measured image needs firmware. -/
def stage
    (s : Files ι) :
    Except BuildError (Writes (Loc ι) Content) :=
  match config.sevSnp with
  | none => .ok []
  | some sev => stageOvmf i config sev.ovmf s

/- The names below the project, for what is in it. -/
def insideProject : HostPath → Except BuildError Dir
| .inside path => .ok path
| .outside _ => .error .appOutsideProject

/- The file is there and below the project. -/
def acquireBinary (s : Files ι) :
    Except BuildError AcquiredApp :=
  match config.app.binary with
  | none => .error .missingAppBinary
  | some binary =>
      match binary.path with
      | none => .error .appBinaryPathRequired
      | some path => do
          let candidate := hostPath (links i) path
          reject (¬ (s (fileLoc i candidate)).isSome)
            (.appBinaryNotFound path)
          let relative ← insideProject candidate
          .ok (.binary relative)

/- The package's directory, links followed. -/
def packageDir
    (links : Links) (source : AppSource) (path : Text) :
    HostPath :=
  links.walk (hostPath links path)
    (Config.components source.packagePath)

/- What is asked of a source directory. -/
def acquirePackage
    (source : AppSource) (path : Text) (s : Files ι) :
    Except BuildError AcquiredApp := do
  let package := packageDir (links i) source path
  reject (¬ (s (.project i (.package package))).isSome)
    (.appSourceNotFound path source.packagePath)
  let relative ← insideProject package
  reject
    (source.toolchain = .rust ∧
      ¬ (s (fileLoc i
          (package.child "Cargo.toml".toList))).isSome)
    (.appSourceWithoutManifest path source.packagePath)
  .ok (.localSource relative)

/- The package that the config names. -/
def acquireSource (s : Files ι) :
    Except BuildError AcquiredApp :=
  match config.app.source with
  | none => .error .missingAppSource
  | some source =>
      match source.path with
      | none => .error .appSourcePathRequired
      | some path => acquirePackage i source path s

/- The app, by its mode. -/
def acquire (s : Files ι) : Except BuildError AcquiredApp :=
  match config.app.mode with
  | .binary => acquireBinary i config s
  | .source => acquireSource i config s

/- The overrides of the image's build arguments. -/
def buildArgsFor
    (toolchain : ToolchainPins) (mode : StorageMode) :
    Toolchain :=
  (toolchain.aptSnapshot.toList.map fun snapshot =>
    ("SNAPSHOT_TS",
      if snapshot = "latest".toList then
        tools.latestAptSnapshot
      else
        snapshot)) ++
    (toolchain.rustVersion.toList.map
      fun version => ("RUST_VERSION", version)) ++
    (toolchain.e2fsprogsVersion.toList.map
      fun version => ("E2FSPROGS_VERSION", version)) ++
    (toolchain.e2fsprogsSha256.toList.map
      fun sha256 => ("E2FSPROGS_SHA256", sha256)) ++
    [("BUILD_E2FSPROGS", envFlag (mode == .persistent))]

/- The tag is moved to the image with these arguments. -/
def buildToolchainImage : Writes (Loc ι) Content :=
  [(.builderImage,
    some
      (.toolchain
        (buildArgsFor tools config.toolchain
          config.storage.mode)))]

/- The extra fragment, with a newline after every line. -/
def writeExtraKconfig : Writes (Loc ι) Content :=
  if hasExtraKconfig config then
    [(.extraKconfig,
      some
        (.text
          (Text.join '\n' config.hardening.extraKernelConfig ++
            ['\n'])))]
  else
    []

/- The script is where the container looks for it. -/
def writeScript (script : List Command) :
    Writes (Loc ι) Content :=
  [(.buildScript, some (.script script))]

------------------------------------------------------------
-- After the Container
------------------------------------------------------------

/- Where the container leaves what, and the hashes of it. -/
structure BuildArtifacts (ι : Type) where
  bzimage : Loc ι
  cpio : Loc ι
  uki : Option (Loc ι)
  binary : Option (Loc ι)
  sevMeasurement : Option (Loc ι)
  componentHashes : ComponentHashes

/- A digest that was written as text, unless it is empty. -/
def readHashFile : Option Content → Option Text
| some (.text digest) =>
    if Text.trim digest = [] then
      none
    else
      some (Text.trim digest)
| _ => none

/- The hashes of what is there, and those on record. -/
def readHashes
    (kernel cpio : Option Content) (s : Files ι) :
    ComponentHashes where
  kernelSha256 := kernel.map tools.sha256
  cpioSha256 := cpio.map tools.sha256
  appSha256 := readHashFile (s (.hash .app))
  guestInitSha256 := readHashFile (s (.hash .guestInit))
  ovmfSha256 := readHashFile (s (.hash .ovmf))

/- Only the format `cpio` takes these two out to `dist/`. -/
def artifactLoc (kind : ImageKind) : Loc ι :=
  if .cpio ∈ config.output.formats then
    distLoc i config (.image config.project.name kind)
  else
    .stagedImage config.project.name kind

/- The place, if something is there. -/
def existing (loc : Loc ι) (s : Files ι) : Option (Loc ι) :=
  if (s loc).isSome then some loc else none

/- Kernel and archive must be there; the rest may be. -/
def collectArtifacts (s : Files ι) :
    Except BuildError (BuildArtifacts ι) := do
  let bzimage := artifactLoc i config .bzImage
  let cpio := artifactLoc i config .cpio
  let name := config.project.name
  reject (¬ (s bzimage).isSome) (.artifactMissing .bzImage)
  reject (¬ (s cpio).isSome) (.artifactMissing .cpio)
  .ok
    { bzimage := bzimage
      cpio := cpio
      uki := existing (distLoc i config (.image name .efi)) s
      binary :=
        existing (distLoc i config (.image name .bin)) s
      sevMeasurement :=
        existing (distLoc i config .measurementTxt) s
      componentHashes :=
        readHashes tools (s bzimage) (s cpio) s }

/- A format is written if what it is made of is there. -/
def imageWrite
    (artifacts : BuildArtifacts ι) (s : Files ι)
    (format : OutputFormat) : Except BuildError Unit :=
  match format with
  | .cpio =>
      reject
        (¬ (s artifacts.cpio).isSome ∨
          ¬ (s artifacts.bzimage).isSome)
        (.formatNotProduced .cpio)
  | .uki =>
      reject (¬ artifacts.uki.isSome) (.formatNotProduced .uki)
  | .binary =>
      reject (¬ artifacts.binary.isSome)
        (.formatNotProduced .binary)

/- As `is_ascii_hexdigit` has it. -/
def isAsciiHexdigit (c : Char) : Bool :=
  c.isDigit || ('a' ≤ c && c ≤ 'f') || ('A' ≤ c && c ≤ 'F')

/- The measurement in the file, without space around it. -/
def measurementHex : Option Content → Except BuildError Text
| some (.text output) =>
    let hex := Text.trim output
    if hex.length ≠ 96 ∨ ¬ hex.all isAsciiHexdigit then
      .error .measurementMalformed
    else
      .ok hex
| _ => .error .measurementMalformed

/- The one value of `[sev_snp.ovmf]` that is set. -/
def ovmfSource (ovmf : OvmfSource) : Text :=
  (ovmf.preset.or ovmf.path).getD []

/- What is recorded of a measurement. -/
def sidecarFor
    (sev : SevSnp) (hex : Text) (hashes : ComponentHashes) :
    Sidecar where
  measurementSha384 := hex
  vcpus := sev.vcpus
  vcpuType := sev.vcpuType
  kernelCmdline := sev.kernelCmdline
  ovmfSource := ovmfSource sev.ovmf
  componentSha256 := hashes

/- There is nothing to record without the section. -/
def writeSidecar
    (hex : Text) (hashes : ComponentHashes) :
    Except BuildError (Writes (Loc ι) Content) :=
  match config.sevSnp with
  | none => .error .measurementWithoutSevSnp
  | some sev =>
      .ok
        [(distLoc i config .measurementJson,
          some (.sidecar (sidecarFor sev hex hashes)))]

/- Read the measurement back and record what it is of. -/
def compute
    (artifacts : BuildArtifacts ι) (s : Files ι) :
    Except BuildError (Writes (Loc ι) Content) :=
  match artifacts.sevMeasurement with
  | none => .error .measurementNotProduced
  | some path => do
      let hex ← measurementHex (s path)
      writeSidecar i config hex artifacts.componentHashes

------------------------------------------------------------
-- Whole Commands
------------------------------------------------------------

variable [DecidableEq ι]

/- The script that is there, in the image that is tagged. -/
def runBuildContainer (s : Files ι) :
    Except BuildError (Files ι) :=
  match s .builderImage, s .buildScript with
  | some (.toolchain toolchain), some (.script commands) =>
      runCommands tools toolchain i commands s
  | _, _ => .error .noContainerImage

/- Only measured images have a record. -/
def recordMeasurement
    (artifacts : BuildArtifacts ι) (s : Files ι) :
    Except BuildError (Files ι) :=
  if config.profile.kind = .sevSnp then
    (compute i config artifacts s).map fun ws => apply ws s
  else
    .ok s

/- What comes after the container. -/
def finishBuild (s : Files ι) :
    Except BuildError (Files ι) := do
  let artifacts ← collectArtifacts tools i config s
  forM config.output.formats (imageWrite artifacts s)
  recordMeasurement i config artifacts s

/- The files that the script is run on. -/
def prepared
    (script : List Command) (s : Files ι) : Files ι :=
  apply (writeScript script)
    (apply (writeExtraKconfig config)
      (apply (buildToolchainImage tools config) s))

/- The container runs what was written for it. -/
def runReproducibleBuild
    (app : AcquiredApp) (s : Files ι) :
    Except BuildError (Files ι) := do
  let _ ← hostDistDir i config
  let script ← generateBuildScript (links i) config app
  let mid ←
    runBuildContainer tools i (prepared tools config script s)
  finishBuild tools i config mid

/- From the firmware to the record. -/
def build (s : Files ι) : Except BuildError (Files ι) := do
  let staged ← stage i config s
  let app ← acquire i config (apply staged s)
  runReproducibleBuild tools i config app (apply staged s)

/- What `measure` takes for the artifacts of a build. -/
def measuredArtifacts (s : Files ι) : BuildArtifacts ι :=
  let name := config.project.name
  let bzimage := distLoc i config (.image name .bzImage)
  let cpio := distLoc i config (.image name .cpio)
  { bzimage := bzimage
    cpio := cpio
    uki := none
    binary := none
    sevMeasurement := some (distLoc i config .measurementTxt)
    componentHashes :=
      readHashes tools (s bzimage) (s cpio) s }

/- An image that is there already is measured again. -/
def measure (s : Files ι) : Except BuildError (Files ι) := do
  let artifacts := measuredArtifacts tools i config s
  reject (config.profile.kind ≠ .sevSnp) .measureNeedsSevSnp
  reject
    (¬ (s artifacts.bzimage).isSome ∨
      ¬ (s artifacts.cpio).isSome)
    .measureNeedsBuild
  recordMeasurement i config artifacts s

------------------------------------------------------------
-- Successful Commands
------------------------------------------------------------

variable {tools i config}

omit [Linked ι] in

/- The container finds the script that was written. -/
theorem prepared_buildScript
    (script : List Command) (s : Files ι) :
    prepared tools config script s .buildScript =
      some (.script script) := by
  unfold prepared writeScript
  exact apply_cons_self _ _ _ _

omit [Linked ι] in

/- And it runs the image that was made. -/
theorem prepared_builderImage
    (script : List Command) (s : Files ι) :
    prepared tools config script s .builderImage =
      some
        (.toolchain
          (buildArgsFor tools config.toolchain
            config.storage.mode)) := by
  have hOther :
      (.builderImage : Loc ι) ≠ .buildScript := by
    intro hEq
    cases hEq
  have hKconfig :
      (.builderImage : Loc ι) ∉
        written (writeExtraKconfig config) := by
    unfold writeExtraKconfig written
    split
    · simp
    · simp
  unfold prepared writeScript
  rw [apply_cons_of_ne hOther, apply_nil,
    apply_of_not_mem hKconfig]
  exact apply_cons_self _ _ _ _

omit [Linked ι] in
/- The image and the script are the ones just written. -/
theorem runBuildContainer_prepared
    (script : List Command) (s : Files ι) :
    runBuildContainer tools i (prepared tools config script s) =
      runCommands tools
        (buildArgsFor tools config.toolchain
          config.storage.mode)
        i script (prepared tools config script s) := by
  unfold runBuildContainer
  rw [prepared_builderImage, prepared_buildScript]

/- What a build went through that has ended well. -/
structure Built
    (tools : Tools) (i : ι) (config : Config)
    (s t : Files ι) where
  staged : Writes (Loc ι) Content
  app : AcquiredApp
  script : List Command
  mid : Files ι
  stage_eq : stage i config s = .ok staged
  acquire_eq : acquire i config (apply staged s) = .ok app
  hostDistDir_eq : ∃ dir, hostDistDir i config = .ok dir
  script_eq :
    generateBuildScript (links i) config app = .ok script
  run_eq :
    runCommands tools
        (buildArgsFor tools config.toolchain
          config.storage.mode)
        i script
        (prepared tools config script (apply staged s)) =
      .ok mid
  finish_eq : finishBuild tools i config mid = .ok t

omit [Linked ι] [DecidableEq ι] in

/- What is checked part by part is where they lead. -/
theorem walk_of_pushComponents
    {links : Links} {dir found : HostPath}
    {parts : List Config.Component}
    (hPush : pushComponents links dir parts = .ok found)
    (hInside : ∃ path, dir = .inside path) :
    links.walk dir parts = found ∧
      ∃ path, found = .inside path := by
  induction parts generalizing dir with
  | nil =>
      cases hPush
      exact ⟨rfl, hInside⟩
  | cons part parts ih =>
      cases part with
      | rootDir => cases hPush
      | parentDir => cases hPush
      | curDir => exact ih hPush hInside
      | normal name =>
          unfold pushComponents at hPush
          unfold Links.walk
          cases hFollow : links.follow dir name with
          | inside path =>
              rw [hFollow] at hPush
              exact ih hPush ⟨path, rfl⟩
          | outside path =>
              rw [hFollow] at hPush
              cases hPush

/- The directory that was checked is the one that is used. -/
theorem Built.outputDir_inside
    {s t : Files ι} (built : Built tools i config s t) :
    ∃ path, outputDir (links i) config = .inside path := by
  rcases built.hostDistDir_eq with ⟨dir, hDir⟩
  unfold hostDistDir at hDir
  rw [unit_bind_eq_ok_iff] at hDir
  rcases walk_of_pushComponents hDir.2 ⟨[], rfl⟩ with
    ⟨hWalk, path, hInside⟩
  exact ⟨path, hWalk.trans hInside⟩

/- A build that ends well is one of these. -/
theorem build_eq_ok_iff
    {s t : Files ι} :
    build tools i config s = .ok t ↔
      Nonempty (Built tools i config s t) := by
  unfold build runReproducibleBuild
  simp only [bind_eq_ok_iff, runBuildContainer_prepared]
  constructor
  · rintro ⟨staged, hStage, app, hAcquire, dir, hDir, script,
      hScript, mid, hRun, hFinish⟩
    exact
      ⟨{ staged := staged
         app := app
         script := script
         mid := mid
         stage_eq := hStage
         acquire_eq := hAcquire
         hostDistDir_eq := ⟨dir, hDir⟩
         script_eq := hScript
         run_eq := hRun
         finish_eq := hFinish }⟩
  · rintro ⟨built⟩
    rcases built.hostDistDir_eq with ⟨dir, hDir⟩
    exact
      ⟨built.staged, built.stage_eq, built.app,
        built.acquire_eq, dir, hDir, built.script,
        built.script_eq, built.mid, built.run_eq,
        built.finish_eq⟩

/- The end of a build only records the measurement. -/
theorem recordMeasurement_of_finishBuild
    {s t : Files ι}
    (hFinish : finishBuild tools i config s = .ok t) :
    ∃ artifacts,
      collectArtifacts tools i config s = .ok artifacts ∧
        recordMeasurement i config artifacts s = .ok t := by
  unfold finishBuild at hFinish
  rw [bind_eq_ok_iff] at hFinish
  rcases hFinish with ⟨artifacts, hCollect, hRest⟩
  rw [unit_bind_eq_ok_iff] at hRest
  exact ⟨artifacts, hCollect, hRest.2⟩

/- A record is of what the measurement file holds. -/
theorem recordMeasurement_sevSnp
    {artifacts : BuildArtifacts ι} {s t : Files ι}
    (hKind : config.profile.kind = .sevSnp)
    (hRecord :
      recordMeasurement i config artifacts s = .ok t) :
    ∃ path hex sev,
      artifacts.sevMeasurement = some path ∧
        measurementHex (s path) = .ok hex ∧
        config.sevSnp = some sev ∧
        t =
          apply
            [(distLoc i config .measurementJson,
              some
                (.sidecar
                  (sidecarFor sev hex
                    artifacts.componentHashes)))]
            s := by
  unfold recordMeasurement at hRecord
  rw [if_pos hKind] at hRecord
  unfold compute at hRecord
  cases hPath : artifacts.sevMeasurement with
  | none =>
      rw [hPath] at hRecord
      cases hRecord
  | some path =>
      rw [hPath] at hRecord
      dsimp only at hRecord
      cases hHex : measurementHex (s path) with
      | error error =>
          rw [hHex] at hRecord
          cases hRecord
      | ok hex =>
          rw [hHex, ok_bind] at hRecord
          unfold writeSidecar at hRecord
          cases hSev : config.sevSnp with
          | none =>
              rw [hSev] at hRecord
              cases hRecord
          | some sev =>
              rw [hSev] at hRecord
              cases hRecord
              exact ⟨path, hex, sev, rfl, hHex, rfl, rfl⟩

/- There is nothing to record. -/
theorem recordMeasurement_casual
    {artifacts : BuildArtifacts ι} {s t : Files ι}
    (hKind : config.profile.kind ≠ .sevSnp)
    (hRecord :
      recordMeasurement i config artifacts s = .ok t) :
    t = s := by
  unfold recordMeasurement at hRecord
  rw [if_neg hKind] at hRecord
  cases hRecord
  rfl

/- Nothing is recorded anywhere else. -/
theorem recordMeasurement_of_ne
    {artifacts : BuildArtifacts ι} {s t : Files ι}
    (hRecord :
      recordMeasurement i config artifacts s = .ok t)
    {loc : Loc ι}
    (hOther : loc ≠ distLoc i config .measurementJson) :
    t loc = s loc := by
  by_cases hKind : config.profile.kind = .sevSnp
  · rcases recordMeasurement_sevSnp hKind hRecord with
      ⟨_, _, _, _, _, _, rfl⟩
    rw [apply_cons_of_ne hOther, apply_nil]
  · rw [recordMeasurement_casual hKind hRecord]

/- When a measurement ends well, and with what. -/
theorem measure_eq_ok_iff
    {s t : Files ι} :
    measure tools i config s = .ok t ↔
      config.profile.kind = .sevSnp ∧
        (s (distLoc i config
          (.image config.project.name .bzImage))).isSome ∧
        (s (distLoc i config
          (.image config.project.name .cpio))).isSome ∧
        recordMeasurement i config
          (measuredArtifacts tools i config s) s = .ok t := by
  unfold measure
  simp only [unit_bind_eq_ok_iff, reject_eq_ok_iff, not_or,
    not_not, and_assoc, ne_eq]
  rfl

end Stages

end Pipeline

end CargoUnikernel
