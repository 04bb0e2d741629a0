import CargoUnikernel.Library.ShellTemplate
import CargoUnikernel.Pipeline.Script
import Mathlib.Data.List.DropRight

/-
  The text of the script that builds an image.

  Every stage writes its lines, and each value of the config
  is quoted where it is put into one. A generic build command
  is the one text of a config that is not quoted.

  Main declarations:
    * `writeln`, `writeExport`
    * `scriptKernelBuild`, `scriptAppBuild`,
      `scriptGuestInitBuild`, `scriptRootfsAndImages`,
      `scriptSevSnpMeasurement`,
      `scriptReclaimCacheOwnership`
    * `scriptStages`, `generateBuildScript`
    * `generateBuildScript_fails_alike`
-/

------------------------------------------------------------
-- Lines
------------------------------------------------------------

namespace CargoUnikernel

namespace Pipeline

namespace ScriptText

open Schema Guest.BuildScript Shell

/- A line of the script. -/
def writeln (parts : List Fragment) : Fragment :=
  concat parts ++ [.literal "\n"]

/- A variable is exported with a value. -/
def writeExport (name : String) (value : Text) : Fragment :=
  writeln ["export ", name, "=", quoted value]

/- One unit of code, so that builds agree. -/
def rustflagsExport : Fragment :=
  "export RUSTFLAGS=\"-C codegen-units=1\"\n"

/- A path without the slashes at its end. -/
def trimEndSlashes (path : Text) : Text :=
  path.rdropWhile fun c => c = '/'

/- The output directory, as the container sees it. -/
def inContainerDist (config : Config) : Text :=
  "/workspace/".toList ++ trimEndSlashes config.output.dir

/- A path in the project, as the container sees it. -/
def inContainer (path : Dir) : Text :=
  "/workspace/".toList ++ Text.join '/' path

/- What stands before the stages. -/
def scriptHeader : Fragment :=
  concat
    ["#!/bin/bash\nset -euo pipefail\n\n",
      "export SOURCE_DATE_EPOCH=0\n",
      "export GIT_ALLOW_PROTOCOL=file:git:http:https:ssh\n",
      "mkdir -p /build\ncd /build\n\n"]

------------------------------------------------------------
-- The Kernel
------------------------------------------------------------

/- Where the extra fragment is, if there is one. -/
def extraKconfigExport (config : Config) : Fragment :=
  if hasExtraKconfig config then
    concat
      ["export CARGO_UNIKERNEL_EXTRA_KCONFIG_FILE=",
        "\"/build-meta/generated/extra-kconfig.config\"\n"]
  else
    []

/- The variables of the kernel's script. -/
def kernelExports (config : Config) : Fragment :=
  (kernelEnv config).flatMap fun entry =>
    writeExport entry.1 entry.2

/- The kernel's script, with its variables. -/
def scriptKernelBuild (config : Config) : Fragment :=
  concat
    [kernelExports config, extraKconfigExport config,
      "/assets/kernel/build_kernel.sh\n\n"]

------------------------------------------------------------
-- The App
------------------------------------------------------------

/- The artifacts of the `dev` profile are under `debug`. -/
def profileDir (cargoProfile : Text) : Text :=
  if cargoProfile = "dev".toList then
    "debug".toList
  else
    cargoProfile

/- The package's features, in one argument. -/
def featuresFlag (source : AppSource) : Fragment :=
  if source.features.isEmpty then
    []
  else
    concat
      [" --features ", quoted (Text.join ',' source.features)]

/- The package is built for the guest. -/
def cargoBuildLine
    (source : AppSource) (package : Text) : Fragment :=
  writeln
    ["CARGO_TARGET_DIR=/tmp/cargo-target-app ",
      "cargo build --locked --profile ",
      quoted source.cargoProfile,
      " --target x86_64-unknown-linux-musl",
      featuresFlag source,
      " --manifest-path ", quoted package, "/Cargo.toml"]

/- The one executable that the build left behind. -/
def appCandidates (source : AppSource) : Fragment :=
  writeln
    ["mapfile -t APP_CANDIDATES < <(find ",
      "/tmp/cargo-target-app/x86_64-unknown-linux-musl/",
      quoted (profileDir source.cargoProfile),
      " -maxdepth 1 -type f -executable -print | sort)\n",
      "if [ \"$\x7b#APP_CANDIDATES[@]\x7d\" -ne 1 ]; then\n",
      "    echo \"Expected exactly one app binary, ",
      "found $\x7b#APP_CANDIDATES[@]\x7d\" >&2\n",
      "    printf '  %s\\n' \"$\x7bAPP_CANDIDATES[@]\x7d\" ",
      ">&2\n",
      "    exit 1\n",
      "fi\n",
      "APP_BIN=$\x7bAPP_CANDIDATES[0]\x7d"]

/- Packages of the config's own, before the build. -/
def aptInstall (packages : List Text) : Fragment :=
  if packages.isEmpty then
    []
  else
    writeln
      ["apt-get update && apt-get install -y ",
        concat ((packages.map quoted).intersperse " ")]

/- The build command is written as it is. -/
def genericBuild
    (source : AppSource) (package command output : Text) :
    Fragment :=
  concat
    [aptInstall source.extraAptPackages,
      writeln
        ["(cd ", quoted package, " && ",
          String.ofList command, ")"],
      writeln
        ["APP_BIN=", quoted package, "/", quoted output]]

/- The package, and the search for what was built. -/
def rustBuild
    (source : AppSource) (package : Text) : Fragment :=
  concat
    [rustflagsExport, cargoBuildLine source package,
      appCandidates source]

/- As the toolchain of the source says. -/
def scriptBuildAt
    (source : AppSource) (package : Text) :
    Except BuildError Fragment :=
  match source.toolchain with
  | .rust => .ok (rustBuild source package)
  | .generic =>
      match source.buildCommand, source.outputBinary with
      | none, _ => .error .genericToolchainNeedsBuildCommand
      | some _, none =>
          .error .genericToolchainNeedsOutputBinary
      | some command, some output =>
          .ok (genericBuild source package command output)

/- Cargo needs nothing of the config's own. -/
theorem scriptBuildAt_of_rust
    {source : AppSource} (hRust : source.toolchain = .rust)
    (package : Text) :
    scriptBuildAt source package =
      .ok (rustBuild source package) := by
  unfold scriptBuildAt
  rw [hRust]

/- A line of an error message. -/
def echoError (message : Fragment) : Fragment :=
  concat ["echo \"", message, "\" >&2\n"]

/- The texts that are printed for a dynamic binary. -/
def errorRule : Fragment :=
  concat
    ["===================================",
      "==================================="]

/- What is said of an app that needs a dynamic linker. -/
def dynamicallyLinked : Fragment :=
  concat
    [echoError "",
      echoError errorRule,
      echoError
        (concat
          ["ERROR: app binary is dynamically linked ",
            "— this image cannot boot it."]),
      echoError errorRule,
      echoError
        (concat
          ["The unikernel guest ships no dynamic linker ",
            "and no shared libraries at"]),
      echoError
        (concat
          ["all (only your app binary and a tiny init) ",
            "— a dynamically-linked app"]),
      echoError "would fail to even start after boot."]

/- The libraries an ELF names as needed. -/
def neededLibraries : Fragment :=
  concat
    [echoError "",
      echoError
        (concat
          ["This binary requires these shared libraries ",
            "at runtime:"]),
      echoError "$NEEDED"]

/- What to do about a binary that is linked to others. -/
def howToLink : Fragment :=
  concat
    [echoError "",
      echoError "Statically link your app instead, e.g.:",
      echoError
        (concat
          ["  Rust:  --target x86_64-unknown-linux-musl ",
            "(already the default here)"]),
      echoError "  Go:    CGO_ENABLED=0 go build",
      echoError "  C/C++: gcc -static ...",
      echoError
        "  Zig:   zig build -Dtarget=x86_64-linux-musl",
      echoError
        (concat
          ["If this pulls in OpenSSL specifically, ",
            "switch to a statically-linked build"]),
      echoError
        (concat
          ["(e.g. a vendored/static openssl-sys feature) ",
            "or a pure-Rust TLS stack (e.g."]),
      echoError
        (concat
          ["rustls) — a dynamically-linked OpenSSL cannot ",
            "be satisfied by this image."]),
      echoError errorRule]

/- An app that needs a dynamic linker fails the build. -/
def scriptVerifyStaticBinary : Fragment :=
  concat
    ["\nif readelf -l \"$APP_BIN\" 2>/dev/null | ",
      "grep -q 'INTERP' || ",
      "readelf -d \"$APP_BIN\" 2>/dev/null | ",
      "grep -q 'NEEDED'; then\n",
      "NEEDED=$(readelf -d \"$APP_BIN\" 2>/dev/null | ",
      "grep NEEDED | sed -E 's/.*\\[(.*)\\].*/  - \\1/')\n",
      dynamicallyLinked,
      "if [ -n \"$NEEDED\" ]; then\n",
      neededLibraries,
      "fi\n",
      howToLink,
      "exit 1\nfi\n"]

/- A binary is taken as it is, a package is built. -/
def scriptAppSource
    (config : Config) (app : AcquiredApp) :
    Except BuildError Fragment :=
  match app with
  | .localSource package =>
      match config.app.source with
      | none => .error .missingAppSource
      | some source =>
          scriptBuildAt source (inContainer package)
  | .binary path =>
      .ok (writeln ["APP_BIN=", quoted (inContainer path)])

/- Whatever it is, it has to be static. -/
def scriptAppBuild
    (config : Config) (app : AcquiredApp) :
    Except BuildError Fragment :=
  (scriptAppSource config app).map fun source =>
    concat [source, scriptVerifyStaticBinary]

------------------------------------------------------------
-- The Guest Init
------------------------------------------------------------

/- The features, as cargo knows them. -/
def featureName : Feature → String
| .sevSnp => "sev-snp"
| .netIpv4 => "net-ipv4"
| .netIpv6 => "net-ipv6"
| .storagePersistent => "storage-persistent"
| .hardeningNetSpoofing => "hardening-net-spoofing"
| .hardeningIcmp => "hardening-icmp"
| .hardeningTcp => "hardening-tcp"
| .hardeningInfoLeak => "hardening-info-leak"
| .hardeningPtraceBpf => "hardening-ptrace-bpf"
| .hardeningKexecFs => "hardening-kexec-fs"
| .dangerAllowWriteExecute => "danger-allow-write-execute"
| .procSubsetPid => "proc-subset-pid"
| .landlock => "landlock"
| .firewall => "firewall"
| .appConsole => "app-console"
| .logging => "logging"

/- The names are the script's own, so they are not quoted. -/
def featureNames (config : Config) : Text :=
  Text.join ','
    ((initFeatures config).map fun feature =>
      (featureName feature).toList)

/- The init's features, which are no data. -/
def initFeaturesFlag (config : Config) : Fragment :=
  if featureNames config = [] then
    []
  else
    concat
      ["--features ", String.ofList (featureNames config)]

/- The init is built for the guest. -/
def cargoBuildInit (config : Config) : Fragment :=
  concat
    ["cargo build --locked --release ",
      "--target x86_64-unknown-linux-musl ",
      "--manifest-path /assets-guest/Cargo.toml ",
      initFeaturesFlag config, "\n\n"]

/- The name of a constant's variable. -/
def exportName (name : Constant) : String :=
  "CARGO_UNIKERNEL_" ++ name.suffix

/- The constants, as variables of the build. -/
def writeExports (config : Config) : Fragment :=
  (appEnvExports config).flatMap fun entry =>
    writeExport (exportName entry.1) entry.2

/- The init, with its features and its constants. -/
def scriptGuestInitBuild (config : Config) : Fragment :=
  concat
    ["export CARGO_TARGET_DIR=/tmp/cargo-target\n",
      rustflagsExport, writeExports config,
      cargoBuildInit config]

------------------------------------------------------------
-- The Root File System and the Images
------------------------------------------------------------

/- Some lines for persistent storage only. -/
def ifPersistent
    (config : Config) (lines : Fragment) : Fragment :=
  if config.storage.mode = .persistent then lines else []

/- The root file system is made anew. -/
def freshRootfs (config : Config) : Fragment :=
  concat
    ["\nrm -rf /build/rootfs && ",
      "mkdir -p /build/rootfs/proc /build/rootfs/sys ",
      "/build/rootfs/dev /build/rootfs/tmp ",
      "/build/rootfs/run /build/rootfs/payload\n",
      "cp /tmp/cargo-target/x86_64-unknown-linux-musl/",
      "release/cargo-unikernel-init /build/rootfs/init\n",
      "cp \"$APP_BIN\" /build/rootfs/payload/app\n",
      ifPersistent config
        (concat
          ["mkdir -p /build/rootfs/sbin && ",
            "cp /opt/e2fsprogs/sbin/mke2fs ",
            "/build/rootfs/sbin/mke2fs\n"])]

/- What went into it is put on record. -/
def rootfsHashes : Fragment :=
  concat
    ["sha256sum /build/rootfs/init | cut -d' ' -f1 > ",
      "/build-meta/guest-init.sha256\n",
      "sha256sum /build/rootfs/payload/app | ",
      "cut -d' ' -f1 > /build-meta/app.sha256\n"]

/- Its modes and times do not depend on the host. -/
def rootfsModes (config : Config) : Fragment :=
  concat
    ["chmod 555 /build/rootfs/init ",
      "/build/rootfs/payload/app\n",
      ifPersistent config
        "chmod 555 /build/rootfs/sbin/mke2fs\n",
      "find /build/rootfs -type d ",
      "-exec chmod 755 \x7b\x7d +\n",
      "find /build/rootfs -exec touch -h -d @0 \x7b\x7d +\n"]

/- A file in the output directory, named for the project. -/
def distPath
    (config : Config) (extension : String) : Fragment :=
  concat
    [quoted (inContainerDist config), "/",
      quoted config.project.name, extension]

/- The same file where the build leaves it. -/
def stagedPath
    (config : Config) (extension : String) : Fragment :=
  concat
    ["/build-meta/", quoted config.project.name, extension]

/- It is archived, and the kernel put beside it. -/
def scriptImages (config : Config) : Fragment :=
  concat
    [writeln ["mkdir -p ", quoted (inContainerDist config)],
      writeln
        ["(cd /build/rootfs && find . -mindepth 1 | ",
          "LC_ALL=C sort | ",
          "cpio -o -H newc -R 0:0 --reproducible) > ",
          stagedPath config ".cpio"],
      writeln
        ["cp /build/linux-kernel/arch/x86/boot/bzImage ",
          stagedPath config ".bzImage"]]

/- What a format asks for. -/
def scriptFormat (config : Config) : OutputFormat → Fragment
| .cpio =>
    writeln
      ["cp ", stagedPath config ".cpio", " ",
        distPath config ".cpio", " && cp ",
        stagedPath config ".bzImage", " ",
        distPath config ".bzImage"]
| .binary =>
    writeln
      ["cp \"$APP_BIN\" ", distPath config ".bin",
        " && chmod 555 ", distPath config ".bin"]
| .uki =>
    writeln
      ["PYTHONHASHSEED=0 ukify build --linux=",
        stagedPath config ".bzImage", " --initrd=",
        stagedPath config ".cpio", " --cmdline=",
        quoted (cmdlineFor config), " --uname=",
        quoted config.kernel.version, " --output=",
        distPath config ".efi"]

/- The archive, the kernel, and what the formats ask for. -/
def scriptRootfsAndImages (config : Config) : Fragment :=
  concat
    [freshRootfs config, rootfsHashes, rootfsModes config,
      scriptImages config,
      config.output.formats.flatMap (scriptFormat config)]

------------------------------------------------------------
-- The Launch Measurement
------------------------------------------------------------

/- Where the firmware is for the measurement. -/
def inContainerPath
    (config : Config) (ovmf : OvmfSource) : Text :=
  if ovmf.preset.isSome then
    "/assets/ovmf/OVMF.amdsev.fd".toList
  else
    inContainerDist config ++ "/.ovmf-cache/OVMF.fd".toList

/- The tool is fetched once. -/
def cloneSevSnpMeasure : Fragment :=
  writeln
    ["if [ ! -d /build/sev-snp-measure ]; then ",
      "git clone --depth 1 ",
      "https://github.com/virtee/sev-snp-measure.git ",
      "/build/sev-snp-measure; fi"]

/-
  The firmware is put beside the images, if it is not there.
-/
def stageOvmf
    (config : Config) (ovmf : OvmfSource) : Fragment :=
  let dist := quoted (inContainerDist config)
  writeln
    ["mkdir -p ", dist, "/.ovmf-cache && [ -f ", dist,
      "/.ovmf-cache/OVMF.fd ] || cp ",
      quoted (inContainerPath config ovmf), " ", dist,
      "/.ovmf-cache/OVMF.fd"]

/- Measured is what is booted. -/
def kernelArgs
    (config : Config) (sev : SevSnp) : Fragment :=
  if useUki config sev then
    concat ["--kernel=", distPath config ".efi"]
  else
    concat
      ["--kernel=", stagedPath config ".bzImage",
        " --initrd=", stagedPath config ".cpio",
        " --append=", quoted (cmdlineFor config)]

/- The command, and the number of its guest's processors. -/
def measureVcpus (sev : SevSnp) : Fragment :=
  concat
    ["python3 /build/sev-snp-measure/sev-snp-measure.py ",
      "--mode snp --vcpus=",
      String.ofList (Numeral.display sev.vcpus.toNat), " "]

/- The rest of its line. -/
def measureInputs
    (config : Config) (sev : SevSnp) : Fragment :=
  writeln
    ["--vcpu-type=", quoted sev.vcpuType, " --ovmf=",
      quoted (inContainerPath config sev.ovmf), " ",
      kernelArgs config sev, " | tr -d '\\n' > ",
      quoted (inContainerDist config),
      "/sev_measurement.txt"]

/- The tool is run, and its answer kept. -/
def sevSnpMeasure
    (config : Config) (sev : SevSnp) : Fragment :=
  measureVcpus sev ++ measureInputs config sev

/- The firmware's digest is put on record. -/
def ovmfHash (config : Config) (ovmf : OvmfSource) :
    Fragment :=
  writeln
    ["sha256sum ", quoted (inContainerPath config ovmf),
      " | cut -d' ' -f1 > /build-meta/ovmf.sha256"]

/- Only for images that are measured. -/
def scriptSevSnpMeasurement (config : Config) : Fragment :=
  if config.profile.kind ≠ .sevSnp then
    []
  else
    match config.sevSnp with
    | none => []
    | some sev =>
        concat
          [cloneSevSnpMeasure, stageOvmf config sev.ovmf,
            sevSnpMeasure config sev,
            ovmfHash config sev.ovmf]

------------------------------------------------------------
-- The Script
------------------------------------------------------------

/- The caches go back to the user whose build it is. -/
def scriptReclaimCacheOwnership : Fragment :=
  concat
    ["\nif [ -n \"$\x7bCARGO_UNIKERNEL_HOST_UID:-\x7d\" ] ",
      "&& [ -n \"$\x7bCARGO_UNIKERNEL_HOST_GID:-\x7d\" ]; ",
      "then\n",
      "    chown -R \"$CARGO_UNIKERNEL_HOST_UID:",
      "$CARGO_UNIKERNEL_HOST_GID\" ",
      "/build /build-meta /root/.cache/ccache ",
      "/root/.cargo/registry /root/.cargo/git ",
      "/tmp/cargo-target 2>/dev/null || true\n",
      "fi\n"]

/- What each stage writes. -/
def scriptStages
    (config : Config) (app : AcquiredApp) :
    Except BuildError (List Fragment) :=
  (scriptAppBuild config app).map fun appBuild =>
    [scriptHeader, scriptKernelBuild config, appBuild,
      scriptGuestInitBuild config,
      scriptRootfsAndImages config,
      scriptSevSnpMeasurement config,
      scriptReclaimCacheOwnership]

/- The script, as it is written to its file. -/
def generateBuildScript
    (config : Config) (app : AcquiredApp) :
    Except BuildError Text :=
  (scriptStages config app).map fun stages =>
    render (concat stages)

------------------------------------------------------------
-- The Text and the Commands
------------------------------------------------------------

/- Why there is no script. -/
def failure {α : Type} : Except BuildError α →
    Option BuildError
| .ok _ => none
| .error error => some error

/- A function of the result does not change the error. -/
theorem failure_map
    {α β : Type} (f : α → β) (x : Except BuildError α) :
    failure (x.map f) = failure x := by
  cases x with
  | ok value => rfl
  | error error => rfl

/- The text fails where the commands do. -/
theorem failure_scriptBuildAt
    (links : Links) (source : AppSource) (package : Dir) :
    failure (scriptBuildAt source (inContainer package)) =
      failure
        (Pipeline.scriptBuildAt links source package) := by
  unfold scriptBuildAt Pipeline.scriptBuildAt
  cases source.toolchain with
  | rust => rfl
  | generic =>
      cases source.buildCommand with
      | none => rfl
      | some command =>
          cases source.outputBinary with
          | none => rfl
          | some output => rfl

/- There is a text exactly where there are commands. -/
theorem generateBuildScript_fails_alike
    (links : Links) (config : Config) (app : AcquiredApp) :
    failure (generateBuildScript config app) =
      failure
        (Pipeline.generateBuildScript links config app) := by
  unfold generateBuildScript scriptStages scriptAppBuild
    Pipeline.generateBuildScript Pipeline.scriptAppBuild
  simp only [failure_map]
  cases app with
  | binary path => rfl
  | localSource package =>
      unfold scriptAppSource Pipeline.scriptAppSource
      cases config.app.source with
      | none => rfl
      | some source =>
          exact failure_scriptBuildAt links source package

end ScriptText

end Pipeline

end CargoUnikernel
