import CargoUnikernel.Library.Text

/-
  The parsed contents of a `Cargo-Unikernel.toml`.

  Every table is a structure under its name in the file. The
  defaults of its fields are those of a table left out.

  Main declarations:
    * `BTreeMap`
    * `Config`
    * `Kernel.sha256ForBuild`
    * `casualConfigWithFormats`, `sevSnpConfigWithFormats`
-/

------------------------------------------------------------
-- Ordered Maps
------------------------------------------------------------

namespace CargoUnikernel

/- The entries of an ordered map, in the order of keys. -/
structure BTreeMap (K V : Type) [LT K] where
  entries : List (K × V)
  sorted : entries.Pairwise fun a b => a.1 < b.1

namespace BTreeMap

variable {K V : Type} [LT K]

/- No keys at all. -/
def empty : BTreeMap K V where
  entries := []
  sorted := List.Pairwise.nil

/- One key and its value. -/
def single (key : K) (value : V) : BTreeMap K V where
  entries := [(key, value)]
  sorted := List.pairwise_singleton _ (key, value)

/- The keys, in ascending order. -/
def keys (map : BTreeMap K V) : List K :=
  map.entries.map Prod.fst

end BTreeMap

namespace Schema

------------------------------------------------------------
-- Project and Profile
------------------------------------------------------------

/- Whether the init writes to the console. -/
structure Logging where
  enabled : Bool := false

/- The `[project]` section. -/
structure Project where
  name : Text
  cargoUnikernelVersion : Option Text := none

/- The version of the running binary. -/
def cliVersion : Text :=
  "0.0.1".toList

/- What the image is booted on. -/
inductive ProfileKind
| casual
| sevSnp
deriving DecidableEq

/- The `[profile]` section. -/
structure Profile where
  kind : ProfileKind

------------------------------------------------------------
-- The App
------------------------------------------------------------

/- The app is built with the image, or brought along. -/
inductive AppMode
| source
| binary
deriving DecidableEq

/- How an app's source is built. -/
inductive Toolchain
| rust
| generic
deriving DecidableEq

/-
  The `[app.source]` section; a package path is below the
  path, and a build command is for the generic toolchain.
-/
structure AppSource where
  path : Option Text := none
  toolchain : Toolchain
  packagePath : Text := ".".toList
  cargoProfile : Text := "release".toList
  features : List Text := []
  buildCommand : Option Text := none
  outputBinary : Option Text := none
  extraAptPackages : List Text := []

/- The `[app.binary]` section. -/
structure AppBinary where
  path : Option Text := none

/- What the app may open, besides what every app may. -/
structure LandlockConfig where
  enabled : Bool := true
  extraReadPaths : List Text := []
  extraReadWritePaths : List Text := []

/- No memory cap where `maxMemoryMb` is zero. -/
structure AppLimits where
  maxOpenFiles : UInt64 := 65536
  maxProcesses : UInt64 := 2048
  maxMemoryMb : UInt64 := 0
  maxLockedMemoryMb : UInt64 := 64

/- Protections that the app can do without. -/
structure DangerRuntime where
  allowWriteExecute : Bool := false

/-
  The `[app.runtime]` section; the ids default to nobody's.
-/
structure AppRuntime where
  env : BTreeMap Text Text := .empty
  uid : UInt32 := 65534
  gid : UInt32 := 65534
  danger : DangerRuntime := {}
  limits : AppLimits := {}
  landlock : LandlockConfig := {}
  console : Bool := false

/- The `[app]` section. -/
structure App where
  mode : AppMode
  source : Option AppSource := none
  binary : Option AppBinary := none
  runtime : AppRuntime := {}

------------------------------------------------------------
-- The Network
------------------------------------------------------------

/- The address families the guest speaks. -/
inductive NetworkMode
| ipv4
| ipv6
| dual
| none
deriving DecidableEq

namespace NetworkMode

/- Whether the mode includes IPv4. -/
def hasIpv4 : NetworkMode → Bool
| .ipv4 | .dual => true
| .ipv6 | .none => false

/- Whether the mode includes IPv6. -/
def hasIpv6 : NetworkMode → Bool
| .ipv6 | .dual => true
| .ipv4 | .none => false

/- Whether there is a network at all. -/
def hasAny : NetworkMode → Bool
| .none => false
| .ipv4 | .ipv6 | .dual => true

end NetworkMode

/- Ports of one protocol: numbers and ranges in a list. -/
structure InboundPorts where
  proto : Text
  ports : Text

/- Web traffic, unless the config says otherwise. -/
def defaultFirewallInbound : List InboundPorts :=
  [{ proto := "tcp".toList, ports := "80".toList },
    { proto := "tcp".toList, ports := "443".toList },
    { proto := "udp".toList, ports := "443".toList }]

/- On unless it is turned off; the default opens TCP 443. -/
structure Firewall where
  enabled : Bool := true
  inbound : List InboundPorts := defaultFirewallInbound

/-
  An address of the guest's own, instead of one by SLAAC.
-/
structure Ipv6Static where
  address : Text
  prefixLen : UInt8 := 64
  gateway : Option Text := none
  interface : Option Text := none

/- The `[network]` section. -/
structure Network where
  mode : NetworkMode := .ipv4
  ipv6Static : Option Ipv6Static := none
  nameservers : List Text := []
  search : Option Text := none
  firewall : Firewall := {}

------------------------------------------------------------
-- Storage, Kernel and Toolchain
------------------------------------------------------------

/- Whether the guest's data outlives a boot. -/
inductive StorageMode
| ram
| persistent
deriving DecidableEq

/- How large the file systems in memory may grow. -/
structure TmpfsSizes where
  tmpMb : UInt64 := 64
  runMb : UInt64 := 16
  shmMb : UInt64 := 64
  varTmpMb : UInt64 := 64

/- The `[storage]` section. -/
structure Storage where
  mode : StorageMode := .ram
  sizeMib : UInt32 := 4096
  tmpfs : TmpfsSizes := {}

/- The version that is built unless another one is given. -/
def defaultKernelVersion : Text :=
  "6.18.51".toList

/- The checksum of the default version. -/
def defaultKernelSha256 : Text :=
  ("ba2f60f858bf4d1f929101faa356c93d" ++
    "c8b925b17aaa9f95eabd4627758df613").toList

/- The version, and the digest its tarball must have. -/
structure Kernel where
  version : Text := defaultKernelVersion
  sha256 : Option Text := some defaultKernelSha256

/- Only the default version has a checksum of its own. -/
def Kernel.sha256ForBuild (kernel : Kernel) : Option Text :=
  kernel.sha256.or
    (if kernel.version = defaultKernelVersion then
      some defaultKernelSha256
    else
      none)

/-
  What the toolchain image is made from, as far as it is
  pinned.
-/
structure ToolchainPins where
  aptSnapshot : Option Text := none
  rustVersion : Option Text := none
  e2fsprogsVersion : Option Text := none
  e2fsprogsSha256 : Option Text := none

------------------------------------------------------------
-- Hardening
------------------------------------------------------------

/- What a switch that is not set defaults to. -/
inductive HardeningLevel
| default
| strict
deriving DecidableEq

/- Switches for fragments of the kernel's configuration. -/
structure KernelHardening where
  disableLegacySubsystems : Option Bool := none
  disableDebugInterfaces : Option Bool := none
  kernelSelfProtection : Option Bool := none
  exploitMitigations : Option Bool := none
  seccomp : Option Bool := none
  fips : Bool := false

/- Switches for what the init writes at boot. -/
structure RuntimeHardening where
  networkSpoofingProtection : Option Bool := none
  icmpHardening : Option Bool := none
  tcpHardening : Option Bool := none
  infoLeakRestriction : Option Bool := none
  ptraceAndBpfRestriction : Option Bool := none
  kexecAndFsProtection : Option Bool := none
  procSubsetPid : Bool := false

/- The `[hardening]` section. -/
structure Hardening where
  level : HardeningLevel := .default
  kernel : KernelHardening := {}
  runtime : RuntimeHardening := {}
  extraSysctls : BTreeMap Text Text := .empty
  extraKernelConfig : List Text := []

------------------------------------------------------------
-- Confidential Computing
------------------------------------------------------------

/- The firmware: one that is built in, or a file. -/
structure OvmfSource where
  preset : Option Text := none
  path : Option Text := none
deriving DecidableEq

/- What the launch measurement covers. -/
inductive MeasuredBoot
| uki
| kernelInitrd
deriving DecidableEq

/- The `[sev_snp]` section. -/
structure SevSnp where
  vcpus : UInt32
  vcpuType : Text
  kernelCmdline : Text
  ovmf : OvmfSource
  measuredBoot : Option MeasuredBoot := none

------------------------------------------------------------
-- Output and Release
------------------------------------------------------------

/- The forms an image comes in. -/
inductive OutputFormat
| cpio
| uki
| binary
deriving DecidableEq

/- The `[output]` section. -/
structure Output where
  formats : List OutputFormat
  dir : Text := "dist/".toList

/- What can be attached to a release. -/
inductive ReleaseAsset
| bzimage
| cpio
| uki
| binary
| measurement
| ovmf
deriving DecidableEq

/- The `[release]` section. -/
structure Release where
  assets : Option (List ReleaseAsset) := none
  title : Option Text := none
  notes : Option Text := none
  notesFile : Option Text := none
  draft : Bool := false
  prerelease : Bool := false

------------------------------------------------------------
-- The Config
------------------------------------------------------------

/- The whole of `Cargo-Unikernel.toml`. -/
structure Config where
  project : Project
  profile : Profile
  app : App
  network : Network := {}
  storage : Storage := {}
  kernel : Kernel := {}
  toolchain : ToolchainPins := {}
  hardening : Hardening := {}
  sevSnp : Option SevSnp := none
  output : Output
  release : Release := {}
  logging : Logging := {}

/- A valid config with the given output formats. -/
def casualConfigWithFormats
    (formats : List OutputFormat) : Config where
  project := { name := "test-app".toList }
  profile := { kind := .casual }
  app :=
    { mode := .source
      source :=
        some
          { path := some ".".toList
            toolchain := .rust } }
  output := { formats := formats }

/- The same for the confidential profile. -/
def sevSnpConfigWithFormats
    (formats : List OutputFormat) : Config :=
  { casualConfigWithFormats formats with
    profile := { kind := .sevSnp }
    project :=
      { name := "test-app".toList
        cargoUnikernelVersion := some cliVersion }
    sevSnp :=
      some
        { vcpus := 2
          vcpuType := "EPYC-v3".toList
          kernelCmdline := "console=ttyS0".toList
          ovmf := { preset := some "builtin".toList } } }

end Schema

end CargoUnikernel
