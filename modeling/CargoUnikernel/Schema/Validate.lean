import CargoUnikernel.Library.Fallible
import CargoUnikernel.Library.Numeral
import CargoUnikernel.Schema.Config
import CargoUnikernel.Schema.Ipv6

/-
  The checks a config has to pass before anything in it is
  acted on. Each table is checked by a function of its own,
  and the first check that fails is the error.

  Main declarations:
    * `ValidationError`, `Config.validate`
    * `ValidConfig`
    * `Config.validate_eq_ok_iff`, and lemmas for each table
-/

------------------------------------------------------------
-- Errors
------------------------------------------------------------

namespace CargoUnikernel

namespace Schema

open Fallible

/- What each error names is what its message quotes. -/
inductive ValidationError
| missingAppSource
| appSourcePathRequired
| missingAppBinary
| appBinaryPathRequired
| latestAptSnapshotNotAllowedForSevSnp
| genericToolchainNeedsBuildCommandAndOutputBinary
| rustToolchainCannotSetGenericFields
| sevSnpSectionRequiresSevSnpProfile
| missingSevSnpSection
| ovmfNeedsExactlyOneSource
| emptyOutputFormats
| emptyReleaseAssets
| releaseNotesAndNotesFileBothSet
| toolVersionMismatch (pinned running : Text)
| sevSnpRequiresPinnedCliVersion (running : Text)
| invalidProjectName (name : Text)
| sevSnpVcpusMustBePositive (vcpus : UInt32)
| sevSnpVcpuTypeMustNotBeEmpty
| measuredBootUkiNeedsUkiOutputFormat
| kernelSha256Required (version : Text)
| firewallProtoUnknown (proto : Text)
| firewallPortsUnusable (ports : Text)
| firewallRequiresNetwork
| ipv6StaticRequiresIpv6
| ipv6StaticAddressUnparseable (address : Text)
| ipv6StaticAddressNotRoutable (address : Text)
| ipv6StaticPrefixLenOutOfRange (prefixLen : UInt8)
| ipv6StaticGatewayUnparseable (gateway : Text)
| storageSizeMustBePositive (sizeMib : UInt32)
| unsafeOutputDir (dir : Text)
| unrepresentableKvPair (table : String) (key : Text)
| appRuntimeIdMustNotBeRoot (field : String)
| extraSysctlNotUnderProcSys (key : Text)
| unrepresentableListEntry (table : String) (entry : Text)
deriving DecidableEq

/- The first check that fails is reported. -/
abbrev Validation := Except ValidationError Unit

------------------------------------------------------------
-- Project, Storage and Kernel
------------------------------------------------------------

namespace Config

/- Letters, digits, `-` and `_`. -/
def isNameChar (c : Char) : Bool :=
  c.isAlphanum || c == '-' || c == '_'

/- The name is a name, and the version is this one. -/
def validateProject (config : Config) : Validation := do
  let name := config.project.name
  reject (name = [] ∨ ¬ name.all isNameChar)
    (.invalidProjectName name)
  match config.project.cargoUnikernelVersion with
  | some pinned =>
      reject (pinned ≠ cliVersion)
        (.toolVersionMismatch pinned cliVersion)
  | none => .ok ()

/- An image of no size is refused. -/
def validateStorage (config : Config) : Validation :=
  reject (config.storage.sizeMib = 0)
    (.storageSizeMustBePositive config.storage.sizeMib)

/- Another version needs a digest of its own. -/
def validateKernel (config : Config) : Validation :=
  reject (config.kernel.sha256ForBuild = none)
    (.kernelSha256Required config.kernel.version)

------------------------------------------------------------
-- Encodings
------------------------------------------------------------

/- One pair of a map that travels as `key=value` pairs. -/
def validateKvPair
    (table : String) (pair : Text × Text) : Validation :=
  reject (';' ∈ pair.1 ∨ '=' ∈ pair.1 ∨ ';' ∈ pair.2)
    (.unrepresentableKvPair table pair.1)

/- The pairs survive being joined. -/
def validateKvEncoding (config : Config) : Validation := do
  forM config.app.runtime.env.entries
    (validateKvPair "app.runtime.env")
  forM config.hardening.extraSysctls.entries
    (validateKvPair "hardening.extra_sysctls")

/- A path under `/proc/sys/` that does not climb out. -/
def validateExtraSysctlPaths (config : Config) :
    Validation :=
  forM config.hardening.extraSysctls.keys fun key =>
    reject
      (¬ "/proc/sys/".toList.isPrefixOf key ∨
        "..".toList ∈ Text.split '/' key)
      (.extraSysctlNotUnderProcSys key)

/- One entry of a list that travels as `;`-joined text. -/
def validateListEntry
    (table : String) (entry : Text) : Validation :=
  reject (';' ∈ entry)
    (.unrepresentableListEntry table entry)

/- The entries survive being joined. -/
def validateListEncoding (config : Config) : Validation := do
  forM config.app.runtime.landlock.extraReadPaths
    (validateListEntry
      "app.runtime.landlock.extra_read_paths")
  forM config.app.runtime.landlock.extraReadWritePaths
    (validateListEntry
      "app.runtime.landlock.extra_read_write_paths")
  forM config.network.nameservers
    (validateListEntry "network.nameservers")

------------------------------------------------------------
-- The Network
------------------------------------------------------------

/- Nothing off the link can reach the address. -/
def isUnreachable (address : Ipv6Addr) : Bool :=
  address.isLoopback || address.isMulticast ||
    address.isUnspecified ||
    address.firstSegment &&& 0xffc0 == 0xfe80

/- The address is one that others can reach. -/
def validateIpv6Address (staticV6 : Ipv6Static) :
    Validation :=
  match Ipv6Addr.parse staticV6.address with
  | none =>
      .error (.ipv6StaticAddressUnparseable staticV6.address)
  | some address =>
      reject (isUnreachable address)
        (.ipv6StaticAddressNotRoutable staticV6.address)

/- What it needs is there, and it can be read. -/
def validateIpv6Static (config : Config) : Validation :=
  match config.network.ipv6Static with
  | none => .ok ()
  | some staticV6 => do
      reject (¬ config.network.mode.hasIpv6)
        .ipv6StaticRequiresIpv6
      validateIpv6Address staticV6
      reject
        (staticV6.prefixLen = 0 ∨ staticV6.prefixLen > 128)
        (.ipv6StaticPrefixLenOutOfRange staticV6.prefixLen)
      match staticV6.gateway with
      | some gateway =>
          reject (Ipv6Addr.parse gateway = none)
            (.ipv6StaticGatewayUnparseable gateway)
      | none => .ok ()

/- A port, or both ends of a range. -/
def portsOf (ports : Text) : Option (Nat × Nat) :=
  let ends :=
    (Text.splitOnce '-' ports).getD (ports, ports)
  (Numeral.parse (2 ^ 16) ends.1).bind fun first =>
    (Numeral.parse (2 ^ 16) ends.2).map fun last =>
      (first, last)

/- A known protocol, and ports in order. -/
def validateInbound (entry : InboundPorts) : Validation := do
  reject
    (entry.proto ≠ "tcp".toList ∧ entry.proto ≠ "udp".toList)
    (.firewallProtoUnknown entry.proto)
  match portsOf entry.ports with
  | none => .error (.firewallPortsUnusable entry.ports)
  | some (first, last) =>
      reject (first = 0 ∨ last < first)
        (.firewallPortsUnusable entry.ports)

/- Nothing is asked of a firewall that is off. -/
def validateFirewall (config : Config) : Validation :=
  let firewall := config.network.firewall
  if ¬ firewall.enabled then
    .ok ()
  else do
    reject (¬ config.network.mode.hasAny)
      .firewallRequiresNetwork
    forM firewall.inbound validateInbound

------------------------------------------------------------
-- The App
------------------------------------------------------------

/- What the toolchain needs is set. -/
def validateSource (source : AppSource) : Validation := do
  reject (source.path = none) .appSourcePathRequired
  match source.toolchain with
  | .generic =>
      reject
        (source.buildCommand = none ∨
          source.outputBinary = none)
        .genericToolchainNeedsBuildCommandAndOutputBinary
  | .rust =>
      reject
        (source.buildCommand ≠ none ∨
          source.outputBinary ≠ none ∨
          source.extraAptPackages ≠ [])
        .rustToolchainCannotSetGenericFields

/- No ids of root's, and the section of the mode. -/
def validateApp (config : Config) : Validation := do
  reject (config.app.runtime.uid = 0)
    (.appRuntimeIdMustNotBeRoot "uid")
  reject (config.app.runtime.gid = 0)
    (.appRuntimeIdMustNotBeRoot "gid")
  match config.app.mode with
  | .source =>
      match config.app.source with
      | none => .error .missingAppSource
      | some source => validateSource source
  | .binary =>
      match config.app.binary with
      | none => .error .missingAppBinary
      | some binary =>
          reject (binary.path = none) .appBinaryPathRequired

------------------------------------------------------------
-- Profile, Output and Release
------------------------------------------------------------

/- What a measured image needs is set. -/
def validateProfile (config : Config) : Validation :=
  match config.profile.kind with
  | .casual =>
      reject config.sevSnp.isSome
        .sevSnpSectionRequiresSevSnpProfile
  | .sevSnp => do
      reject (config.project.cargoUnikernelVersion = none)
        (.sevSnpRequiresPinnedCliVersion cliVersion)
      reject
        (config.toolchain.aptSnapshot = some "latest".toList)
        .latestAptSnapshotNotAllowedForSevSnp
      match config.sevSnp with
      | none => .error .missingSevSnpSection
      | some sevSnp => do
          reject (sevSnp.vcpus = 0)
            (.sevSnpVcpusMustBePositive sevSnp.vcpus)
          reject (Text.trim sevSnp.vcpuType = [])
            .sevSnpVcpuTypeMustNotBeEmpty
          reject
            (sevSnp.ovmf.preset.isSome =
              sevSnp.ovmf.path.isSome)
            .ovmfNeedsExactlyOneSource
          reject
            (sevSnp.measuredBoot = some .uki ∧
              .uki ∉ config.output.formats)
            .measuredBootUkiNeedsUkiOutputFormat

/- The parts of a path, as the standard library takes them. -/
inductive Component
| rootDir
| curDir
| parentDir
| normal (name : Text)
deriving DecidableEq

/- A name, or `..`; empty parts and `.` are none. -/
def component? (part : Text) : Option Component :=
  if part = [] ∨ part = ".".toList then
    none
  else if part = "..".toList then
    some .parentDir
  else
    some (.normal part)

/- `.` counts at the start of a relative path only. -/
def components (path : Text) : List Component :=
  let parts := Text.split '/' path
  (if path.head? = some '/' then [.rootDir] else []) ++
    (if parts.head? = some ".".toList then
      [.curDir]
    else
      []) ++
    parts.filterMap component?

/- The directory stays in the project by its name. -/
def validateOutputAndRelease (config : Config) :
    Validation := do
  reject (config.output.formats = []) .emptyOutputFormats
  reject
    (Text.trim config.output.dir = [] ∨
      .parentDir ∈ components config.output.dir ∨
      .rootDir ∈ components config.output.dir)
    (.unsafeOutputDir config.output.dir)
  reject (config.release.assets = some [])
    .emptyReleaseAssets
  reject
    (config.release.notes ≠ none ∧
      config.release.notesFile ≠ none)
    .releaseNotesAndNotesFileBothSet

------------------------------------------------------------
-- All Checks
------------------------------------------------------------

/- All the checks, in this order. -/
def validate (config : Config) : Validation := do
  config.validateProject
  config.validateStorage
  config.validateKernel
  config.validateKvEncoding
  config.validateExtraSysctlPaths
  config.validateListEncoding
  config.validateIpv6Static
  config.validateFirewall
  config.validateApp
  config.validateProfile
  config.validateOutputAndRelease

end Config

------------------------------------------------------------
-- Valid Configs
------------------------------------------------------------

/- A config that passed every check. -/
structure ValidConfig where
  config : Config
  valid : config.validate = .ok ()

namespace Config

/- The config that most of the examples are made from. -/
theorem validate_casual :
    (casualConfigWithFormats [.cpio]).validate = .ok () :=
  rfl

theorem validate_eq_ok_iff (config : Config) :
    config.validate = .ok () ↔
      config.validateProject = .ok () ∧
        config.validateStorage = .ok () ∧
        config.validateKernel = .ok () ∧
        config.validateKvEncoding = .ok () ∧
        config.validateExtraSysctlPaths = .ok () ∧
        config.validateListEncoding = .ok () ∧
        config.validateIpv6Static = .ok () ∧
        config.validateFirewall = .ok () ∧
        config.validateApp = .ok () ∧
        config.validateProfile = .ok () ∧
        config.validateOutputAndRelease = .ok () := by
  unfold validate
  simp only [unit_bind_eq_ok_iff]

/- A pair that the guest reads back as it is. -/
def IsKvPair (pair : Text × Text) : Prop :=
  ';' ∉ pair.1 ∧ '=' ∉ pair.1 ∧ ';' ∉ pair.2

theorem validateKvPair_eq_ok_iff
    (table : String) (pair : Text × Text) :
    validateKvPair table pair = .ok () ↔ IsKvPair pair := by
  unfold validateKvPair IsKvPair
  simp only [reject_eq_ok_iff, not_or]

theorem validateKvEncoding_eq_ok_iff (config : Config) :
    config.validateKvEncoding = .ok () ↔
      (∀ pair ∈ config.app.runtime.env.entries,
          IsKvPair pair) ∧
        ∀ pair ∈ config.hardening.extraSysctls.entries,
          IsKvPair pair := by
  unfold validateKvEncoding
  simp only [unit_bind_eq_ok_iff, forM_eq_ok_iff,
    validateKvPair_eq_ok_iff]

/- A protocol, and ports in order from one on. -/
def IsInbound (entry : InboundPorts) : Prop :=
  (entry.proto = "tcp".toList ∨ entry.proto = "udp".toList) ∧
    ∃ first last,
      portsOf entry.ports = some (first, last) ∧
        0 < first ∧ first ≤ last

theorem validateInbound_eq_ok_iff (entry : InboundPorts) :
    validateInbound entry = .ok () ↔ IsInbound entry := by
  unfold validateInbound IsInbound
  rw [unit_bind_eq_ok_iff, reject_eq_ok_iff]
  apply and_congr
  · rw [not_and_or, not_not, not_not]
  · cases hPorts : portsOf entry.ports with
    | none => simp
    | some ports =>
        rcases ports with ⟨first, last⟩
        simp only [reject_eq_ok_iff, Option.some.injEq,
          Prod.mk.injEq]
        constructor
        · intro hOrder
          exact ⟨first, last, ⟨rfl, rfl⟩, by omega⟩
        · rintro ⟨_, _, ⟨rfl, rfl⟩, hOrder⟩
          omega

/- Both ends of what is accepted are numerals. -/
theorem parse_of_portsOf
    {ports : Text} {first last : Nat}
    (hPorts : portsOf ports = some (first, last)) :
    Numeral.parse (2 ^ 16)
          ((Text.splitOnce '-' ports).getD (ports, ports)).1 =
        some first ∧
      Numeral.parse (2 ^ 16)
          ((Text.splitOnce '-' ports).getD (ports, ports)).2 =
        some last := by
  unfold portsOf at hPorts
  rw [Option.bind_eq_some_iff] at hPorts
  rcases hPorts with ⟨first, hFirst, hLast⟩
  rw [Option.map_eq_some_iff] at hLast
  rcases hLast with ⟨last, hLast, hEnds⟩
  cases hEnds
  exact ⟨hFirst, hLast⟩

/- A port or a range is digits, a dash and plus signs. -/
theorem mem_of_portsOf
    {ports : Text} {first last : Nat}
    (hPorts : portsOf ports = some (first, last))
    {c : Char} (hMem : c ∈ ports) :
    c = '-' ∨ c = '+' ∨ c.isDigit = true := by
  rcases parse_of_portsOf hPorts with ⟨hFirst, hLast⟩
  cases hSplit : Text.splitOnce '-' ports with
  | none =>
      rw [hSplit] at hFirst
      exact Or.inr (Numeral.mem_of_parse hFirst hMem)
  | some halves =>
      rw [hSplit] at hFirst hLast
      rw [Text.eq_of_splitOnce hSplit, List.mem_append,
        List.mem_cons] at hMem
      rcases hMem with hMem | hDash | hMem
      · exact Or.inr (Numeral.mem_of_parse hFirst hMem)
      · exact Or.inl hDash
      · exact Or.inr (Numeral.mem_of_parse hLast hMem)

theorem validateFirewall_eq_ok
    {config : Config}
    (hValid : config.validateFirewall = .ok ())
    (hEnabled : config.network.firewall.enabled = true) :
    ∀ entry ∈ config.network.firewall.inbound,
      IsInbound entry := by
  unfold validateFirewall at hValid
  simp only [hEnabled, not_true, if_false,
    unit_bind_eq_ok_iff, forM_eq_ok_iff,
    validateInbound_eq_ok_iff] at hValid
  exact hValid.2

theorem validateApp_eq_ok
    {config : Config}
    (hValid : config.validateApp = .ok ()) :
    config.app.runtime.uid ≠ 0 ∧
      config.app.runtime.gid ≠ 0 := by
  unfold validateApp at hValid
  simp only [unit_bind_eq_ok_iff, reject_eq_ok_iff] at hValid
  exact ⟨hValid.1, hValid.2.1⟩

/- Addresses that parse, where there is a static one. -/
theorem validateIpv6Static_eq_ok
    {config : Config} {staticV6 : Ipv6Static}
    (hValid : config.validateIpv6Static = .ok ())
    (hStatic : config.network.ipv6Static = some staticV6) :
    (∃ address,
        Ipv6Addr.parse staticV6.address = some address) ∧
      ∀ gateway, staticV6.gateway = some gateway →
        ∃ address, Ipv6Addr.parse gateway = some address := by
  unfold validateIpv6Static at hValid
  rw [hStatic] at hValid
  simp only [unit_bind_eq_ok_iff] at hValid
  rcases hValid with ⟨_, hAddress, _, hGateway⟩
  constructor
  · cases hParse : Ipv6Addr.parse staticV6.address with
    | none =>
        rw [validateIpv6Address, hParse] at hAddress
        cases hAddress
    | some address => exact ⟨address, rfl⟩
  · intro gateway hSome
    rw [hSome, reject_eq_ok_iff] at hGateway
    exact Option.ne_none_iff_exists'.1 hGateway

end Config

end Schema

end CargoUnikernel
