import CargoUnikernel.Schema.Config

/-
  Configs that differ only in the contents of strings.

  Choices, switches and numbers are the same, an option is
  set in both or in neither, and lists and maps are of the
  same length.

  Main declarations:
    * `SameShape`
-/

------------------------------------------------------------
-- Parts of a Config
------------------------------------------------------------

namespace CargoUnikernel

namespace Schema

/- Alike but for the strings of the source section. -/
structure SameSource (source other : AppSource) : Prop where
  path : source.path.isSome = other.path.isSome
  toolchain : source.toolchain = other.toolchain
  features : source.features.length = other.features.length
  buildCommand :
    source.buildCommand.isSome = other.buildCommand.isSome
  outputBinary :
    source.outputBinary.isSome = other.outputBinary.isSome
  extraAptPackages :
    source.extraAptPackages.length =
      other.extraAptPackages.length

/- As many paths of each kind. -/
structure SameLandlock
    (landlock other : LandlockConfig) : Prop where
  enabled : landlock.enabled = other.enabled
  extraReadPaths :
    landlock.extraReadPaths.length =
      other.extraReadPaths.length
  extraReadWritePaths :
    landlock.extraReadWritePaths.length =
      other.extraReadWritePaths.length

/- Alike but for the variables and the paths. -/
structure SameRuntime (runtime other : AppRuntime) : Prop where
  env : runtime.env.entries.length = other.env.entries.length
  uid : runtime.uid = other.uid
  gid : runtime.gid = other.gid
  danger : runtime.danger = other.danger
  limits : runtime.limits = other.limits
  landlock : SameLandlock runtime.landlock other.landlock
  console : runtime.console = other.console

/- Alike but for the addresses and the interface's name. -/
structure SameIpv6 (staticV6 other : Ipv6Static) : Prop where
  prefixLen : staticV6.prefixLen = other.prefixLen
  gateway : staticV6.gateway.isSome = other.gateway.isSome
  interface :
    staticV6.interface.isSome = other.interface.isSome

/- Alike but for names, addresses and ports. -/
structure SameNetwork (network other : Network) : Prop where
  mode : network.mode = other.mode
  ipv6Static :
    Option.Rel SameIpv6 network.ipv6Static other.ipv6Static
  nameservers :
    network.nameservers.length = other.nameservers.length
  search : network.search.isSome = other.search.isSome
  enabled : network.firewall.enabled = other.firewall.enabled
  inbound :
    network.firewall.inbound.length =
      other.firewall.inbound.length

/- The same pins are set, to whatever. -/
structure SameToolchain (pins other : ToolchainPins) :
    Prop where
  aptSnapshot :
    pins.aptSnapshot.isSome = other.aptSnapshot.isSome
  rustVersion :
    pins.rustVersion.isSome = other.rustVersion.isSome
  e2fsprogsVersion :
    pins.e2fsprogsVersion.isSome =
      other.e2fsprogsVersion.isSome
  e2fsprogsSha256 :
    pins.e2fsprogsSha256.isSome = other.e2fsprogsSha256.isSome

/-
  Alike but for the sysctls and the lines of the kernel's
  configuration.
-/
structure SameHardening (hardening other : Hardening) :
    Prop where
  level : hardening.level = other.level
  kernel : hardening.kernel = other.kernel
  runtime : hardening.runtime = other.runtime
  extraSysctls :
    hardening.extraSysctls.entries.length =
      other.extraSysctls.entries.length
  extraKernelConfig :
    hardening.extraKernelConfig.length =
      other.extraKernelConfig.length

/-
  Alike but for the processor's name, the command line and
  the firmware.
-/
structure SameSevSnp (sev other : SevSnp) : Prop where
  vcpus : sev.vcpus = other.vcpus
  preset : sev.ovmf.preset.isSome = other.ovmf.preset.isSome
  path : sev.ovmf.path.isSome = other.ovmf.path.isSome
  measuredBoot : sev.measuredBoot = other.measuredBoot

/- Alike but for the texts of the release. -/
structure SameRelease (release other : Release) : Prop where
  assets : release.assets = other.assets
  title : release.title.isSome = other.title.isSome
  notes : release.notes.isSome = other.notes.isSome
  notesFile :
    release.notesFile.isSome = other.notesFile.isSome
  draft : release.draft = other.draft
  prerelease : release.prerelease = other.prerelease

------------------------------------------------------------
-- Configs
------------------------------------------------------------

/- Either both or neither say where the app is. -/
def SameBinary (binary other : AppBinary) : Prop :=
  binary.path.isSome = other.path.isSome

/- Two configs that differ in their strings only. -/
structure SameShape (config other : Config) : Prop where
  cargoUnikernelVersion :
    config.project.cargoUnikernelVersion.isSome =
      other.project.cargoUnikernelVersion.isSome
  kind : config.profile.kind = other.profile.kind
  mode : config.app.mode = other.app.mode
  source :
    Option.Rel SameSource config.app.source other.app.source
  binary :
    Option.Rel SameBinary config.app.binary other.app.binary
  runtime : SameRuntime config.app.runtime other.app.runtime
  network : SameNetwork config.network other.network
  storage : config.storage = other.storage
  kernelSha256 :
    config.kernel.sha256.isSome = other.kernel.sha256.isSome
  toolchain : SameToolchain config.toolchain other.toolchain
  hardening : SameHardening config.hardening other.hardening
  sevSnp : Option.Rel SameSevSnp config.sevSnp other.sevSnp
  formats : config.output.formats = other.output.formats
  release : SameRelease config.release other.release
  logging : config.logging = other.logging

/- Lists of one length are empty together. -/
theorem isEmpty_eq_of_length
    {α β : Type} {entries : List α} {others : List β}
    (hLength : entries.length = others.length) :
    entries.isEmpty = others.isEmpty := by
  cases entries with
  | nil =>
      cases others with
      | nil => rfl
      | cons other others => cases hLength
  | cons entry entries =>
      cases others with
      | nil => cases hLength
      | cons other others => rfl

end Schema

end CargoUnikernel
