import CargoUnikernel.Guest.BuildScript
import CargoUnikernel.Library.Numeral
import CargoUnikernel.Schema.Validate

/-
  What the host exports for the guest's build script.

  Numbers are displayed, lists and maps travel as `;`-joined
  text, and what the config leaves empty is not exported.

  Main declarations:
    * `Feature`, `initFeatures`
    * `encodePathList`, `encodeKvPairs`, `encodeInbound`
    * `exportTable`, `appEnvExports`
    * `bakedValue`, `constant_appEnvExports`
-/

------------------------------------------------------------
-- Features
------------------------------------------------------------

namespace CargoUnikernel

namespace Pipeline

open Schema Guest.BuildScript

/- The cargo features of the guest init. -/
inductive Feature
| sevSnp
| netIpv4
| netIpv6
| storagePersistent
| hardeningNetSpoofing
| hardeningIcmp
| hardeningTcp
| hardeningInfoLeak
| hardeningPtraceBpf
| hardeningKexecFs
| dangerAllowWriteExecute
| procSubsetPid
| landlock
| firewall
| appConsole
| logging
deriving DecidableEq

/- The firewall is for a guest with a network. -/
def firewallEnabled (config : Config) : Bool :=
  config.network.firewall.enabled && config.network.mode.hasAny

/- A feature under a condition. -/
def featureIf (condition : Bool) (feature : Feature) :
    List Feature :=
  if condition then [feature] else []

/- A hardening toggle is on unless it is turned off. -/
def initFeatures (config : Config) : List Feature :=
  let rh := config.hardening.runtime
  featureIf (config.profile.kind == .sevSnp) .sevSnp ++
    featureIf config.network.mode.hasIpv4 .netIpv4 ++
    featureIf config.network.mode.hasIpv6 .netIpv6 ++
    featureIf (config.storage.mode == .persistent)
      .storagePersistent ++
    featureIf (rh.networkSpoofingProtection.getD true)
      .hardeningNetSpoofing ++
    featureIf (rh.icmpHardening.getD true) .hardeningIcmp ++
    featureIf (rh.tcpHardening.getD true) .hardeningTcp ++
    featureIf (rh.infoLeakRestriction.getD true)
      .hardeningInfoLeak ++
    featureIf (rh.ptraceAndBpfRestriction.getD true)
      .hardeningPtraceBpf ++
    featureIf (rh.kexecAndFsProtection.getD true)
      .hardeningKexecFs ++
    featureIf config.app.runtime.danger.allowWriteExecute
      .dangerAllowWriteExecute ++
    featureIf rh.procSubsetPid .procSubsetPid ++
    featureIf config.app.runtime.landlock.enabled .landlock ++
    featureIf (firewallEnabled config) .firewall ++
    featureIf config.app.runtime.console .appConsole ++
    featureIf config.logging.enabled .logging

@[simp] theorem mem_featureIf
    (condition : Bool) (feature other : Feature) :
    other ∈ featureIf condition feature ↔
      condition = true ∧ other = feature := by
  cases condition <;> simp [featureIf]

/- The feature is the config's switch. -/
theorem firewall_mem_initFeatures_iff (config : Config) :
    .firewall ∈ initFeatures config ↔
      firewallEnabled config = true := by
  simp [initFeatures]

------------------------------------------------------------
-- Encodings
------------------------------------------------------------

/- Entries are separated by `;`. -/
def encodePathList (entries : List Text) : Text :=
  Text.join ';' entries

/- A key and its value, with `=` between them. -/
def encodeKvPair (pair : Text × Text) : Text :=
  pair.1 ++ '=' :: pair.2

/- Pairs are separated by `;`. -/
def encodeKvPairs (pairs : BTreeMap Text Text) : Text :=
  Text.join ';' (pairs.entries.map encodeKvPair)

/- A protocol and its ports, such as `tcp:443`. -/
def encodeInbound (entry : InboundPorts) : Text :=
  entry.proto ++ ':' :: entry.ports

/- The firewall's entries, separated by `;`. -/
def bakedRules (config : Config) : Text :=
  Text.join ';'
    (config.network.firewall.inbound.map encodeInbound)

/- An address with its prefix, such as `fd00::1/64`. -/
def encodeIpv6Static (staticV6 : Ipv6Static) : Text :=
  staticV6.address ++ '/' ::
    Numeral.display staticV6.prefixLen.toNat

------------------------------------------------------------
-- Exports
------------------------------------------------------------

/- A list is exported where it has entries. -/
def unlessEmpty
    {α : Type} (entries : List α) (value : Text) :
    Option Text :=
  if entries.isEmpty then none else some value

/- Landlock's paths are exported where it is on. -/
def landlockExport
    (config : Config) (paths : List Text) : Option Text :=
  if config.app.runtime.landlock.enabled then
    unlessEmpty paths (encodePathList paths)
  else
    none

/- What is exported under each name, in this order, if at all. -/
def exportTable (config : Config) :
    List (Constant × Option Text) :=
  let runtime := config.app.runtime
  let limits := runtime.limits
  let staticV6 := config.network.ipv6Static
  let sysctls := config.hardening.extraSysctls
  let tmpfs := config.storage.tmpfs
  let network := config.network
  [(.appUid, some (Numeral.display runtime.uid.toNat)),
    (.appGid, some (Numeral.display runtime.gid.toNat)),
    (.appEnv,
      unlessEmpty runtime.env.entries
        (encodeKvPairs runtime.env)),
    (.limitNofile,
      some (Numeral.display limits.maxOpenFiles.toNat)),
    (.limitNproc,
      some (Numeral.display limits.maxProcesses.toNat)),
    (.limitAsMb,
      some (Numeral.display limits.maxMemoryMb.toNat)),
    (.limitMemlockMb,
      some (Numeral.display limits.maxLockedMemoryMb.toNat)),
    (.ipv6Static, staticV6.map encodeIpv6Static),
    (.ipv6Gateway, staticV6.bind Ipv6Static.gateway),
    (.ipv6Iface, staticV6.bind Ipv6Static.interface),
    (.extraSysctls,
      unlessEmpty sysctls.entries (encodeKvPairs sysctls)),
    (.tmpfsTmpMb, some (Numeral.display tmpfs.tmpMb.toNat)),
    (.tmpfsRunMb, some (Numeral.display tmpfs.runMb.toNat)),
    (.tmpfsShmMb, some (Numeral.display tmpfs.shmMb.toNat)),
    (.tmpfsVarTmpMb,
      some (Numeral.display tmpfs.varTmpMb.toNat)),
    (.landlockRo,
      landlockExport config runtime.landlock.extraReadPaths),
    (.landlockRw,
      landlockExport config
        runtime.landlock.extraReadWritePaths),
    (.firewallRules,
      if firewallEnabled config then
        some (bakedRules config)
      else
        none),
    (.nameservers,
      unlessEmpty network.nameservers
        (encodePathList network.nameservers)),
    (.dnsSearch, network.search)]

/- A variable that has a value. -/
def exportOf (entry : Constant × Option Text) :
    Option (Constant × Text) :=
  entry.2.map fun value => (entry.1, value)

/- What is exported before the init is built. -/
def appEnvExports (config : Config) : Environment :=
  (exportTable config).filterMap exportOf

------------------------------------------------------------
-- What the Guest Finds
------------------------------------------------------------

/- The table of exports, entry by entry. -/
theorem filterMap_exportOf_some
    (name : Constant) (value : Text)
    (table : List (Constant × Option Text)) :
    ((name, some value) :: table).filterMap exportOf =
      (name, value) :: table.filterMap exportOf := rfl

theorem filterMap_exportOf_none
    (name : Constant)
    (table : List (Constant × Option Text)) :
    ((name, none) :: table).filterMap exportOf =
      table.filterMap exportOf := rfl

/- A name that stands once is found where it stands. -/
theorem lookup_filterMap_exportOf
    {table : List (Constant × Option Text)}
    (hNodup : (table.map Prod.fst).Nodup)
    (name : Constant) :
    (table.filterMap exportOf).lookup name =
      (table.lookup name).join := by
  induction table with
  | nil => rfl
  | cons entry table ih =>
      rcases entry with ⟨other, value⟩
      rw [List.map_cons, List.nodup_cons] at hNodup
      rcases hNodup with ⟨hOther, hRest⟩
      by_cases hName : name = other
      · subst hName
        cases value with
        | some value =>
            rw [filterMap_exportOf_some,
              List.lookup_cons_self, List.lookup_cons_self]
            rfl
        | none =>
            have hNone : table.lookup name = none := by
              apply List.lookup_eq_none_iff.2
              intro entry hMem
              apply bne_iff_ne.2
              intro hSame
              exact hOther (List.mem_map.2
                ⟨entry, hMem, hSame.symm⟩)
            rw [filterMap_exportOf_none, ih hRest, hNone,
              List.lookup_cons_self]
            rfl
      · have hBeq := beq_false_of_ne hName
        cases value with
        | some value =>
            rw [filterMap_exportOf_some, List.lookup_cons,
              List.lookup_cons, hBeq]
            exact ih hRest
        | none =>
            rw [filterMap_exportOf_none, List.lookup_cons,
              hBeq]
            exact ih hRest

/- Every constant is exported once. -/
theorem nodup_exportTable (config : Config) :
    ((exportTable config).map Prod.fst).Nodup := by
  unfold exportTable
  simp only [List.map_cons, List.map_nil]
  decide

/- What an empty list encodes to is the default anyway. -/
theorem getD_unlessEmpty
    {α : Type} {entries : List α} {value : Text}
    (hEmpty : entries = [] → value = []) :
    (unlessEmpty entries value).getD [] = value := by
  unfold unlessEmpty
  cases entries with
  | nil => exact (hEmpty rfl).symm
  | cons entry entries => rfl

/- Each constant as a function of the config. -/
def bakedValue (config : Config) : Constant → Text
| .payloadDir => "/payload".toList
| .appPath => "/payload/app".toList
| .appUid => Numeral.display config.app.runtime.uid.toNat
| .appGid => Numeral.display config.app.runtime.gid.toNat
| .appEnv => encodeKvPairs config.app.runtime.env
| .ipv6Static =>
    (config.network.ipv6Static.map encodeIpv6Static).getD []
| .ipv6Gateway =>
    (config.network.ipv6Static.bind
      Ipv6Static.gateway).getD []
| .ipv6Iface =>
    (config.network.ipv6Static.bind
      Ipv6Static.interface).getD []
| .extraSysctls => encodeKvPairs config.hardening.extraSysctls
| .limitNofile =>
    Numeral.display
      config.app.runtime.limits.maxOpenFiles.toNat
| .limitNproc =>
    Numeral.display
      config.app.runtime.limits.maxProcesses.toNat
| .limitAsMb =>
    Numeral.display
      config.app.runtime.limits.maxMemoryMb.toNat
| .limitMemlockMb =>
    Numeral.display
      config.app.runtime.limits.maxLockedMemoryMb.toNat
| .tmpfsTmpMb =>
    Numeral.display config.storage.tmpfs.tmpMb.toNat
| .tmpfsRunMb =>
    Numeral.display config.storage.tmpfs.runMb.toNat
| .tmpfsShmMb =>
    Numeral.display config.storage.tmpfs.shmMb.toNat
| .tmpfsVarTmpMb =>
    Numeral.display config.storage.tmpfs.varTmpMb.toNat
| .firewallRules =>
    if firewallEnabled config then bakedRules config else []
| .landlockRo =>
    if config.app.runtime.landlock.enabled then
      encodePathList
        config.app.runtime.landlock.extraReadPaths
    else
      []
| .landlockRw =>
    if config.app.runtime.landlock.enabled then
      encodePathList
        config.app.runtime.landlock.extraReadWritePaths
    else
      []
| .nameservers => encodePathList config.network.nameservers
| .dnsSearch => config.network.search.getD []

/- No pairs are exported as no variable. -/
theorem getD_encodeKvPairs (pairs : BTreeMap Text Text) :
    (unlessEmpty pairs.entries (encodeKvPairs pairs)).getD
        [] =
      encodeKvPairs pairs := by
  apply getD_unlessEmpty
  intro hEmpty
  unfold encodeKvPairs
  rw [hEmpty]
  rfl

/- No entries are exported as no variable. -/
theorem getD_encodePathList (paths : List Text) :
    (unlessEmpty paths (encodePathList paths)).getD [] =
      encodePathList paths := by
  apply getD_unlessEmpty
  intro hEmpty
  rw [hEmpty]
  rfl

/- Paths are exported only where Landlock is on. -/
theorem getD_landlockExport
    (config : Config) (paths : List Text) :
    (landlockExport config paths).getD [] =
      if config.app.runtime.landlock.enabled then
        encodePathList paths
      else
        [] := by
  unfold landlockExport
  split
  · exact getD_encodePathList paths
  · rfl

/- A constant is the value that was exported. -/
theorem constant_appEnvExports
    (config : Config) (name : Constant) :
    constant (appEnvExports config) name =
      bakedValue config name := by
  unfold constant value appEnvExports
  rw [lookup_filterMap_exportOf (nodup_exportTable config)]
  cases name with
  | appEnv => exact getD_encodeKvPairs config.app.runtime.env
  | extraSysctls =>
      exact getD_encodeKvPairs config.hardening.extraSysctls
  | nameservers =>
      exact getD_encodePathList config.network.nameservers
  | landlockRo => exact getD_landlockExport config _
  | landlockRw => exact getD_landlockExport config _
  | firewallRules =>
      have hLookup :
          (exportTable config).lookup .firewallRules =
            some
              (if firewallEnabled config then
                some (bakedRules config)
              else
                none) := rfl
      rw [hLookup]
      unfold bakedValue
      split
      · rfl
      · rfl
  | _ => rfl

end Pipeline

end CargoUnikernel
