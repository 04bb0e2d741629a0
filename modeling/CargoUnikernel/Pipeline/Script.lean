import CargoUnikernel.Pipeline.GuestInitScript

/-
  The script that builds an image inside the container.

  Every stage contributes its commands, and each command
  names the files it works on by their paths in the
  container, with the links on them followed. A generic build
  command is taken to leave its output binary and nothing
  else.

  Main declarations:
    * `HostPath`, `Links`, `DistFile`, `DistFile.path`
    * `ProjectFile`, `Path`, `Command`
    * `AcquiredApp`, `cmdlineFor`
    * `scriptKernelBuild`, `scriptAppBuild`,
      `scriptGuestInitBuild`, `scriptRootfsAndImages`,
      `scriptSevSnpMeasurement`
    * `generateBuildScript`
-/

------------------------------------------------------------
-- Places
------------------------------------------------------------

namespace CargoUnikernel

namespace Pipeline

open Schema Guest.BuildScript

/- A directory or a file, by the names on the way to it. -/
abbrev Dir := List Text

/- Counted from the project, or from the root of the host. -/
inductive HostPath
| inside (path : Dir)
| outside (path : Dir)
deriving DecidableEq

/- What has a name in a directory. -/
def HostPath.child : HostPath → Text → HostPath
| .inside path, name => .inside (path ++ [name])
| .outside path, name => .outside (path ++ [name])

@[simp] theorem HostPath.child_inj
    {dir other : HostPath} {name otherName : Text} :
    dir.child name = other.child otherName ↔
      dir = other ∧ name = otherName := by
  have hLast (path otherPath : Dir) :
      path ++ [name] = otherPath ++ [otherName] ↔
        path = otherPath ∧ name = otherName := by
    constructor
    · intro hSame
      rcases List.append_inj' hSame rfl with ⟨hPath, hName⟩
      exact ⟨hPath, List.singleton_injective hName⟩
    · rintro ⟨rfl, rfl⟩
      rfl
  cases dir with
  | inside path => cases other <;> simp [child, hLast]
  | outside path => cases other <;> simp [child, hLast]

/-
  The links that a project meets: where a name leads in a
  directory that has been reached, and the directory that
  the project is in. They stay as they are.
-/
structure Links where
  follow : HostPath → Text → HostPath
  parent : Dir

namespace Links

/- Every name leads to what has it. -/
def plain : Links where
  follow := HostPath.child
  parent := []

/- The directory above; above the project is the host's. -/
def up (links : Links) : HostPath → HostPath
| .inside path =>
    if path = [] then
      .outside links.parent
    else
      .inside path.dropLast
| .outside path => .outside path.dropLast

/- Follow a path from a directory that has been reached. -/
def walk (links : Links) :
    HostPath → List Config.Component → HostPath
| here, [] => here
| _, .rootDir :: rest => links.walk (.outside []) rest
| here, .curDir :: rest => links.walk here rest
| here, .normal name :: rest =>
    links.walk (links.follow here name) rest
| here, .parentDir :: rest => links.walk (links.up here) rest

end Links

/- What an image file holds, as its extension says. -/
inductive ImageKind
| bzImage
| cpio
| efi
| bin
deriving DecidableEq

/- How the file's name ends. -/
def ImageKind.extension : ImageKind → Text
| .bzImage => ".bzImage".toList
| .cpio => ".cpio".toList
| .efi => ".efi".toList
| .bin => ".bin".toList

/- The files of an output directory. -/
inductive DistFile
| image (name : Text) (kind : ImageKind)
| measurementTxt
| measurementJson
| ovmfCache
deriving DecidableEq

namespace DistFile

/- The last name on the path to it. -/
def name : DistFile → Text
| .image name kind => name ++ kind.extension
| .measurementTxt => "sev_measurement.txt".toList
| .measurementJson => "sev_measurement.json".toList
| .ovmfCache => "OVMF.fd".toList

/- The directory that it is in. The cache has its own. -/
def dir (links : Links) (dist : HostPath) :
    DistFile → HostPath
| .ovmfCache => links.follow dist ".ovmf-cache".toList
| _ => dist

/-
  Where it is under an output directory. No link is followed
  at its own name: the builds make plain files.
-/
def path (links : Links) (dist : HostPath)
    (file : DistFile) : HostPath :=
  (file.dir links dist).child file.name

/- The names of the different files are told apart at the end. -/
def ending (file : DistFile) : Text :=
  file.name.reverse.take 2

/- The last two characters tell images from the rest. -/
theorem ending_image (name : Text) (kind : ImageKind) :
    (DistFile.image name kind).ending =
      kind.extension.reverse.take 2 := by
  unfold ending DistFile.name
  rw [List.reverse_append]
  cases kind with
  | bzImage => rfl
  | cpio => rfl
  | efi => rfl
  | bin => rfl

/- No image ends like one of the other files. -/
theorem ending_image_not_mem
    (name : Text) (kind : ImageKind) :
    (DistFile.image name kind).ending ∉
      [measurementTxt.ending, measurementJson.ending,
        ovmfCache.ending] := by
  rw [ending_image]
  cases kind with
  | bzImage => decide
  | cpio => decide
  | efi => decide
  | bin => decide

/- No two of the files have one name. -/
theorem name_injective : Function.Injective name := by
  intro file other hName
  have hEnding : file.ending = other.ending := by
    unfold ending
    rw [hName]
  cases file with
  | image fileName kind =>
      have hImage := ending_image_not_mem fileName kind
      cases other with
      | image otherName otherKind =>
          rw [ending_image, ending_image] at hEnding
          have hKind : kind = otherKind := by
            revert hEnding
            cases kind <;> cases otherKind <;> decide
          rw [hKind] at hName ⊢
          rw [List.append_cancel_right hName]
      | _ => exact absurd (by simp [hEnding]) hImage
  | _ =>
      cases other with
      | image otherName otherKind =>
          have hImage :=
            ending_image_not_mem otherName otherKind
          exact absurd (by simp [← hEnding]) hImage
      | _ => first | rfl | exact absurd hEnding (by decide)

/- Two output files at one place are the same file. -/
theorem eq_of_path_eq
    {links other : Links} {dist otherDist : HostPath}
    {file otherFile : DistFile}
    (hPath :
      file.path links dist =
        otherFile.path other otherDist) :
    file = otherFile :=
  name_injective (HostPath.child_inj.1 hPath).2

end DistFile

/- A file, or a directory with all the sources in it. -/
inductive ProjectFile
| file (path : HostPath)
| package (path : HostPath)
deriving DecidableEq

/- What a hash file under `/build-meta` is the hash of. -/
inductive HashFile
| app
| guestInit
| ovmf
deriving DecidableEq

/- The files of the root file system. -/
inductive RootfsFile
| init
| app
| mke2fs
deriving DecidableEq

/- Its directories, the last of them for `mke2fs` only. -/
inductive RootfsDir
| proc
| sys
| dev
| tmp
| run
| payload
| sbin
deriving DecidableEq

/- A directory or a file of the root file system. -/
inductive RootfsEntry
| dir (dir : RootfsDir)
| file (file : RootfsFile)
deriving DecidableEq

/-
  Files as the container sees them. An entry of the root file
  system has a mode and a modification time besides.
-/
inductive Path
| workspace (file : ProjectFile)
| embeddedOvmf
| kernelImage
| guestInit
| appTarget
| rootfs (file : RootfsFile)
| rootfsMode (entry : RootfsEntry)
| rootfsTime (entry : RootfsEntry)
| stagedImage (name : Text) (kind : ImageKind)
| hash (file : HashFile)
| extraKconfig
deriving DecidableEq

------------------------------------------------------------
-- Commands
------------------------------------------------------------

/- The boot that a launch measurement predicts. -/
inductive KernelArgs
| uki (kernel : Path)
| direct (kernel initrd : Path) (append : Text)

/- The commands of the script that work on files. -/
inductive Command
| buildKernel (env : List (String × Text)) (kconfig : Bool)
| cargoBuild
    (profile : Text) (features : List Text) (package : Dir)
| buildCommand
    (packages : List Text) (command : Text)
    (package : Dir) (output : HostPath)
| verifyStaticBinary (bin : Path)
| buildGuestInit
    (features : List Feature) (exports : Environment)
| freshRootfs
| install (src : Path) (file : RootfsFile)
| installMke2fs
| chmodFiles (mode : Nat) (files : List RootfsFile)
| chmodDirs (mode : Nat)
| touchRootfs
| copy (src dst : Path)
| copyUnlessExists (src dst : Path)
| sha256sum (src : Path) (file : HashFile)
| packRootfs (output : Path)
| ukify
    (linux initrd : Path) (cmdline uname : Text)
    (output : Path)
| sevSnpMeasure
    (vcpus : UInt32) (vcpuType : Text) (ovmf : Path)
    (kernelArgs : KernelArgs) (output : Path)

------------------------------------------------------------
-- Errors
------------------------------------------------------------

/- Why a build, a measurement or its script fails. -/
inductive BuildError
| ovmfNeedsExactlyOneSource
| ovmfUnreadable (path : Text)
| missingAppBinary
| appBinaryPathRequired
| appBinaryNotFound (path : Text)
| missingAppSource
| appSourcePathRequired
| appSourceNotFound (path packagePath : Text)
| appSourceWithoutManifest (path packagePath : Text)
| appOutsideProject
| genericToolchainNeedsBuildCommand
| genericToolchainNeedsOutputBinary
| unsafeOutputDir
| noContainerImage
| containerBuildFailed
| artifactMissing (kind : ImageKind)
| formatNotProduced (format : OutputFormat)
| measurementNotProduced
| measurementMalformed
| measurementWithoutSevSnp
| measureNeedsSevSnp
| measureNeedsBuild
| nothingToRelease

------------------------------------------------------------
-- The Kernel
------------------------------------------------------------

/- How the app was found. -/
inductive AcquiredApp
| binary (path : Dir)
| localSource (packagePath : Dir)

/- The profile, as the kernel's script knows it. -/
def profileEnvValue : ProfileKind → Text
| .casual => "casual".toList
| .sevSnp => "sev-snp".toList

/- How the scripts are told of a condition. -/
def envFlag (condition : Bool) : Text :=
  if condition then "1".toList else "0".toList

/- The families that the kernel needs. -/
def networkEnvVars (mode : NetworkMode) :
    List (String × Text) :=
  [("CARGO_UNIKERNEL_NET_IPV4", envFlag mode.hasIpv4),
    ("CARGO_UNIKERNEL_NET_IPV6", envFlag mode.hasIpv6)]

/- Each category is on unless it is turned off. -/
def hardeningEnvVars (kh : KernelHardening) :
    List (String × Text) :=
  [("CARGO_UNIKERNEL_KHARD_LEGACY_SUBSYSTEMS",
      envFlag (kh.disableLegacySubsystems.getD true)),
    ("CARGO_UNIKERNEL_KHARD_DEBUG_INTERFACES",
      envFlag (kh.disableDebugInterfaces.getD true)),
    ("CARGO_UNIKERNEL_KHARD_SELF_PROTECTION",
      envFlag (kh.kernelSelfProtection.getD true)),
    ("CARGO_UNIKERNEL_KHARD_EXPLOIT_MITIGATIONS",
      envFlag (kh.exploitMitigations.getD true)),
    ("CARGO_UNIKERNEL_KHARD_SECCOMP",
      envFlag (kh.seccomp.getD true))]

/- All variables of the kernel's script. -/
def kernelEnv (config : Config) : List (String × Text) :=
  [("CARGO_UNIKERNEL_PROFILE",
      profileEnvValue config.profile.kind),
    ("CARGO_UNIKERNEL_KERNEL_VERSION",
      config.kernel.version)] ++
    config.kernel.sha256ForBuild.toList.map
      (fun sha256 => ("CARGO_UNIKERNEL_KERNEL_SHA256", sha256)) ++
    networkEnvVars config.network.mode ++
    hardeningEnvVars config.hardening.kernel ++
    [("CARGO_UNIKERNEL_KHARD_FIPS",
        envFlag config.hardening.kernel.fips),
      ("CARGO_UNIKERNEL_STORAGE_PERSISTENT",
        envFlag (config.storage.mode == .persistent)),
      ("CARGO_UNIKERNEL_FIREWALL",
        envFlag (firewallEnabled config))]

/- An extra fragment is named where there is one. -/
def hasExtraKconfig (config : Config) : Bool :=
  !config.hardening.extraKernelConfig.isEmpty

/- The kernel's script, with its variables. -/
def scriptKernelBuild (config : Config) : List Command :=
  [.buildKernel (kernelEnv config) (hasExtraKconfig config)]

------------------------------------------------------------
-- The App and the Guest Init
------------------------------------------------------------

/- Where a path of the config leads on the host. -/
def hostPath (links : Links) (path : Text) : HostPath :=
  links.walk (.inside []) (Config.components path)

/- The output of a generic build in its package. -/
def outputFile
    (links : Links) (package : Dir) (output : Text) :
    HostPath :=
  links.walk (.inside package) (Config.components output)

/- The commands, and what `APP_BIN` is after them. -/
def scriptBuildAt
    (links : Links) (source : AppSource) (package : Dir) :
    Except BuildError (List Command × Path) :=
  match source.toolchain with
  | .rust =>
      .ok
        ([.cargoBuild source.cargoProfile source.features
          package], .appTarget)
  | .generic =>
      match source.buildCommand, source.outputBinary with
      | none, _ => .error .genericToolchainNeedsBuildCommand
      | some _, none =>
          .error .genericToolchainNeedsOutputBinary
      | some command, some output =>
          .ok
            ([.buildCommand source.extraAptPackages command
              package (outputFile links package output)],
              .workspace
                (.file (outputFile links package output)))

/- A binary is taken as it is, a package is built. -/
def scriptAppSource
    (links : Links) (config : Config) (app : AcquiredApp) :
    Except BuildError (List Command × Path) :=
  match app with
  | .binary path =>
      .ok ([], .workspace (.file (.inside path)))
  | .localSource package =>
      match config.app.source with
      | none => .error .missingAppSource
      | some source => scriptBuildAt links source package

/- The app, and a look at whether it is linked statically. -/
def scriptAppBuild
    (links : Links) (config : Config) (app : AcquiredApp) :
    Except BuildError (List Command × Path) :=
  (scriptAppSource links config app).map fun built =>
    (built.1 ++ [.verifyStaticBinary built.2], built.2)

/- The init, with its features and its constants. -/
def scriptGuestInitBuild (config : Config) : List Command :=
  [.buildGuestInit (initFeatures config)
    (appEnvExports config)]

------------------------------------------------------------
-- The Command Line
------------------------------------------------------------

/- What every casual command line ends with. -/
def casualCmdlineSuffix : Text :=
  ("quiet loglevel=3 panic=-1 random.trust_cpu=off " ++
    "random.trust_bootloader=off page_alloc.shuffle=1 " ++
    "lockdown=integrity transparent_hugepage=madvise " ++
    "init_on_alloc=1 init_on_free=1").toList

/- The kernel asks for an IPv4 address itself. -/
def networkCmdlineFragment (mode : NetworkMode) : Text :=
  if mode.hasIpv4 then "ip=dhcp ".toList else []

/- The command line of an image that is not measured. -/
def casualCmdline (mode : NetworkMode) : Text :=
  "console=ttyS0 ".toList ++ networkCmdlineFragment mode ++
    casualCmdlineSuffix

/- A measured image has the one of its section. -/
def cmdlineFor (config : Config) : Text :=
  match config.sevSnp with
  | some sev => sev.kernelCmdline
  | none => casualCmdline config.network.mode

------------------------------------------------------------
-- The Root File System and the Images
------------------------------------------------------------

/- A normal part of the output directory's path. -/
def normal? : Config.Component → Option Text
| .normal name => some name
| _ => none

/- The output directory, without `.` and slashes. -/
def distDir (config : Config) : Dir :=
  (Config.components config.output.dir).filterMap normal?

/- Where the output directory is, links followed. -/
def outputDir (links : Links) (config : Config) : HostPath :=
  hostPath links config.output.dir

/- Where the host has a file of the output directory. -/
def outputPath
    (links : Links) (config : Config) (file : DistFile) :
    HostPath :=
  file.path links (outputDir links config)

/- One of the config's output files. -/
def distFile
    (links : Links) (config : Config) (file : DistFile) :
    Path :=
  .workspace (.file (outputPath links config file))

/- An image in the output directory. -/
def distImage
    (links : Links) (config : Config) (kind : ImageKind) :
    Path :=
  distFile links config (.image config.project.name kind)

/- An image before it is copied there. -/
def stagedImage (config : Config) (kind : ImageKind) : Path :=
  .stagedImage config.project.name kind

/-
  A file that is copied onto itself stays as it is, and the
  script goes on.
-/
def scriptFormat
    (links : Links) (config : Config) (appBin : Path) :
    OutputFormat → List Command
| .cpio =>
    [.copy (stagedImage config .cpio)
        (distImage links config .cpio),
      .copy (stagedImage config .bzImage)
        (distImage links config .bzImage)]
| .binary => [.copy appBin (distImage links config .bin)]
| .uki =>
    [.ukify (stagedImage config .bzImage)
      (stagedImage config .cpio) (cmdlineFor config)
      config.kernel.version (distImage links config .efi)]

/- Only a persistent image has `mke2fs`. -/
def ifPersistent
    (config : Config) (command : Command) : List Command :=
  if config.storage.mode = .persistent then [command] else []

/- The files of the image, their hashes, modes and times. -/
def scriptRootfs
    (config : Config) (appBin : Path) : List Command :=
  [.freshRootfs, .install .guestInit .init,
    .install appBin .app] ++
    ifPersistent config .installMke2fs ++
    [.sha256sum (.rootfs .init) .guestInit,
      .sha256sum (.rootfs .app) .app,
      .chmodFiles 0o555 [.init, .app]] ++
    ifPersistent config (.chmodFiles 0o555 [.mke2fs]) ++
    [.chmodDirs 0o755, .touchRootfs]

/- The archive, the kernel, and what the formats ask for. -/
def scriptRootfsAndImages
    (links : Links) (config : Config) (appBin : Path) :
    List Command :=
  scriptRootfs config appBin ++
    [.packRootfs (stagedImage config .cpio),
      .copy .kernelImage (stagedImage config .bzImage)] ++
    config.output.formats.flatMap
      (scriptFormat links config appBin)

------------------------------------------------------------
-- The Launch Measurement
------------------------------------------------------------

/- A preset is where it is, a path is where it was staged. -/
def inContainerPath
    (links : Links) (config : Config) (ovmf : OvmfSource) :
    Path :=
  if ovmf.preset.isSome then
    .embeddedOvmf
  else
    distFile links config .ovmfCache

/- What boots the guest, as the config says or implies. -/
def useUki (config : Config) (sev : SevSnp) : Bool :=
  match sev.measuredBoot with
  | some .uki => true
  | some .kernelInitrd => false
  | none => config.output.formats.contains .uki

/- Measured is what is booted. -/
def kernelArgs
    (links : Links) (config : Config) (sev : SevSnp) :
    KernelArgs :=
  if useUki config sev then
    .uki (distImage links config .efi)
  else
    .direct (stagedImage config .bzImage)
      (stagedImage config .cpio) (cmdlineFor config)

/- The firmware, the measurement and its hash. -/
def scriptSevSnp
    (links : Links) (config : Config) (sev : SevSnp) :
    List Command :=
  [.copyUnlessExists (inContainerPath links config sev.ovmf)
      (distFile links config .ovmfCache),
    .sevSnpMeasure sev.vcpus sev.vcpuType
      (inContainerPath links config sev.ovmf)
      (kernelArgs links config sev)
      (distFile links config .measurementTxt),
    .sha256sum (inContainerPath links config sev.ovmf) .ovmf]

/- Only for images that are measured. -/
def scriptSevSnpMeasurement
    (links : Links) (config : Config) : List Command :=
  if config.profile.kind ≠ .sevSnp then
    []
  else
    match config.sevSnp with
    | none => []
    | some sev => scriptSevSnp links config sev

------------------------------------------------------------
-- The Script
------------------------------------------------------------

/- Everything after the app is found. -/
def scriptImages
    (links : Links) (config : Config) (appBin : Path) :
    List Command :=
  scriptGuestInitBuild config ++
    scriptRootfsAndImages links config appBin ++
    scriptSevSnpMeasurement links config

/- The script, with its paths as the links lead them. -/
def generateBuildScript
    (links : Links) (config : Config) (app : AcquiredApp) :
    Except BuildError (List Command) :=
  (scriptAppBuild links config app).map fun built =>
    scriptKernelBuild config ++ built.1 ++
      scriptImages links config built.2

end Pipeline

end CargoUnikernel
