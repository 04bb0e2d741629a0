import CargoUnikernel.Agreement.Addresses
import CargoUnikernel.Guest.Boot.Guarantees
import CargoUnikernel.Guest.Boot.StaticAddress
import CargoUnikernel.Guest.Firewall.Policy

/-
  What becomes of a valid config on the machine.

  The init that is built of it hands the kernel the filter
  that was configured, and the app the environment, the ids
  and the limits that were. What is mounted in memory is no
  larger than was asked for.

  Main declarations:
    * `Enforces`, `enforces_of_buildBatch`
    * `ReachesApp`
    * `config_reaches_machine`
    * `planOf`, `static_address_assigned`
-/

------------------------------------------------------------
-- The Filter
------------------------------------------------------------

namespace CargoUnikernel

namespace Agreement

open Fallible Schema Pipeline
open Calls (Event)
open Guest.Baked Guest.Boot
open Guest.Firewall (Admits Batch Rule)
open NfTables Netlink

/-
  The kernel finds one chain in the batch, and lets in the
  packets that the rules admit and no others.
-/
def Enforces (batch : Batch) (rules : List Rule) : Prop :=
  ∃ messages ruleset id chain,
    decodeMessages batch.bytes = some messages ∧
      commit messages = some ruleset ∧
      ruleset.chains = [(id, chain)] ∧
      ∀ packet regs,
        chain.verdict packet regs = .accept ↔
          Admits rules packet

/- A batch that was built is the policy it was built for. -/
theorem enforces_of_buildBatch
    {netIpv6 : Bool} {rules : List Rule} {batch : Batch}
    (hBatch :
      Guest.Firewall.buildBatch netIpv6 rules = .ok batch) :
    Enforces batch rules := by
  rw [Guest.Firewall.buildBatch_eq_ok,
    Except.ok.injEq] at hBatch
  subst hBatch
  refine
    ⟨_, _, _, _,
      Guest.Firewall.decodeMessages_batch netIpv6 rules,
      Guest.Firewall.commit_batch netIpv6 rules, rfl, ?_⟩
  intro packet regs
  rw [← Guest.Firewall.accepts_decisions_iff]
  exact
    runRules_eq_accept_iff
      (Guest.Firewall.decides_filters rules packet) regs

------------------------------------------------------------
-- The App
------------------------------------------------------------

/- What the app of a config is started with, and where. -/
structure ReachesApp
    (config : Config) (launch : Launch) (s : Machine) :
    Prop where
  program : launch.program = appPath
  ids : launch.child.ids = idsOf config
  limits : launch.child.limits = limitsOf config
  env : launch.child.env = config.app.runtime.env.entries
  sized :
    ∀ sized ∈
        [(tmpDir, (decodedOf config).mounts.tmp),
          (runDir, (decodedOf config).mounts.run),
          (shmDir, (decodedOf config).mounts.shm),
          (varTmpDir, (decodedOf config).mounts.varTmp)],
      AllOn s.mounts sized.1 fun mount =>
        mount.target = sized.1 ∧
          mount.kind = ⟨.tmpfs, sized.2⟩

section

variable (valid : ValidConfig)

/- The constants are the config's values. -/
theorem constant_of (config : Config) :
    (Image.of config).constant = bakedValue config :=
  funext (constant_appEnvExports config)

/- The feature is the config's switch. -/
theorem has_firewall_of (config : Config) :
    (Image.of config).has .firewall =
      firewallEnabled config := by
  unfold Image.has
  rw [Bool.eq_iff_iff, decide_eq_true_iff]
  exact firewall_mem_initFeatures_iff _

/- The child is the one that was configured. -/
theorem child_of_spawnApp
    {child : Child}
    (hChild :
      Guest.Baked.spawnApp (bakedValue valid.config) =
        .ok child) :
    child =
      { limits := limitsOf valid.config
        ids := idsOf valid.config
        env := valid.config.app.runtime.env.entries } := by
  have hParts :=
    (Config.validate_eq_ok_iff valid.config).1 valid.valid
  rcases Config.validateApp_eq_ok hParts.2.2.2.2.2.2.2.2.1 with
    ⟨hUid, hGid⟩
  unfold Guest.Baked.spawnApp at hChild
  simp only [bind_eq_ok_iff] at hChild
  rcases hChild with
    ⟨limits, hLimits, ids, hIds, env, hEnv, hSame⟩
  rw [validEnv] at hEnv
  cases hSame
  cases hEnv
  rw [((resourceLimits_eq_ok_iff _ _).1 hLimits).2,
    ((appIds_eq_ok_iff hUid hGid _).1 hIds).2]

/- What a sealed launch says of the config. -/
theorem reachesApp_of_sealed
    {launch : Launch} {s : Machine}
    (hSealed :
      Sealed (Image.of valid.config) launch s) :
    ReachesApp valid.config launch s := by
  have hChild := hSealed.child
  rw [constant_of] at hChild
  have hLaunched := child_of_spawnApp valid hChild
  rcases hSealed.sized with ⟨data, hDecoded, hSized⟩
  rw [constant_of, prepareSystemEnv_eq] at hDecoded
  cases hDecoded
  constructor
  · rw [hSealed.isLaunch]
    rfl
  · rw [hLaunched]
  · rw [hLaunched]
  · rw [hLaunched]
  · exact hSized

/- A batch that is sent with care is the config's. -/
theorem enforces_of_careful
    {batch : Batch} {s : Machine}
    (hCareful :
      (Request.act (.sendBatch batch)).Careful
        (Image.of valid.config) s) :
    Enforces batch
      (valid.config.network.firewall.inbound.map
        inboundRule) := by
  rcases hCareful with ⟨hEnabled, rules, hRules, hBatch⟩
  rw [has_firewall_of] at hEnabled
  have hValid := validRules valid
  unfold firewallRules decodedOf at hValid
  simp only [hEnabled, if_true] at hValid
  rw [constant_of, hValid, Except.ok.injEq] at hRules
  subst hRules
  exact enforces_of_buildBatch hBatch

/-
  In every run of the init of a valid config, whatever the
  kernel answers, the filter is that of the config, and so is
  all that the app is started with; if only its values come
  through the build script as they are.
-/
theorem config_reaches_machine
    {image : Image} (hBuilt : image.BuiltFrom valid.config)
    (hIntact : Intact valid.config)
    {turns : Nat} {s t : Session} {trace : List BootEvent}
    {rest :
      Calls.Script Request Answer (Except Stop End)}
    (hStart : Start s.machine)
    (hRuns : BootRuns image turns s trace rest t) :
    ∀ event ∈ trace,
      (∀ batch,
          event.request = .act (.sendBatch batch) →
            Enforces batch
              (valid.config.network.firewall.inbound.map
                inboundRule)) ∧
        ∀ launch,
          event.request = .spawn launch →
            ReachesApp valid.config launch
              event.before.machine := by
  rcases hBuilt.eq_of hIntact with rfl
  intro event hMem
  have hCareful :=
    ((allowed_of_runs hStart hRuns).1 event hMem).2
  constructor
  · intro batch hRequest
    rw [hRequest] at hCareful
    exact enforces_of_careful valid hCareful
  · intro launch hRequest
    rw [hRequest] at hCareful
    exact reachesApp_of_sealed valid hCareful

end

/- A config for an app that has no network. -/
def plainConfig : Config :=
  { runtimeConfig 65534 0 with
    network :=
      { mode := .none
        firewall := { enabled := false } }
    hardening :=
      { runtime :=
          { networkSpoofingProtection := some false
            icmpHardening := some false
            tcpHardening := some false
            infoLeakRestriction := some false
            ptraceAndBpfRestriction := some false
            kexecAndFsProtection := some false } } }

/- Nothing in the config can be cut. -/
theorem intact_plainConfig : Intact plainConfig :=
  @intact_of_all ⟨plainConfig, by rfl⟩ (by decide)

/- A boot that comes to the app. -/
theorem plainConfig_reaches_machine :
    isWatching
          (Kernel.willing.run (Image.of plainConfig) 1
            firstSession).value =
        true ∧
      ∀ event ∈
          (Kernel.willing.run (Image.of plainConfig) 1
            firstSession).trace,
        (∀ batch,
            event.request = .act (.sendBatch batch) →
              Enforces batch
                (plainConfig.network.firewall.inbound.map
                  inboundRule)) ∧
          ∀ launch,
            event.request = .spawn launch →
              ReachesApp plainConfig launch
                event.before.machine := by
  constructor
  · decide
  · exact config_reaches_machine ⟨plainConfig, by rfl⟩
      (Image.builtFrom_of intact_plainConfig)
      intact_plainConfig start_firstMachine
      (Kernel.willing.runs_run (Image.of plainConfig) 1
        firstSession)

------------------------------------------------------------
-- The Static Address
------------------------------------------------------------

/- The address of a config, and where it is to go. -/
def planOf (staticV6 : Ipv6Static) (address : Ipv6Addr) :
    Plan where
  address := address
  prefixLen := staticV6.prefixLen.toNat
  gateway := staticV6.gateway.bind Ipv6Addr.parse
  interface := staticV6.interface.getD []

/- The exports say what was configured. -/
theorem reads_planOf
    {config : Config} {staticV6 : Ipv6Static}
    {address : Ipv6Addr}
    (hStatic : config.network.ipv6Static = some staticV6)
    (hAccepted : Accepted staticV6 address) :
    (planOf staticV6 address).Reads
      ((Image.of config).constant .ipv6Static)
      ((Image.of config).constant .ipv6Gateway)
      ((Image.of config).constant .ipv6Iface) := by
  rw [constant_of]
  unfold bakedValue
  rw [hStatic]
  constructor
  · exact parseStaticV6_encodeIpv6Static hAccepted
  · exact lt_trans staticV6.prefixLen.toNat_lt (by decide)
  · change
      Ipv6Addr.parse (staticV6.gateway.getD []) =
        staticV6.gateway.bind Ipv6Addr.parse
    cases staticV6.gateway with
    | none => decide
    | some gateway => rfl
  · rfl

/-
  In every run of the bring-up, whatever the kernel answers
  and whatever is done between its calls, the address that is
  asked for is the one of the config, on the interface of
  the config or else the first that was listed. The route is
  the one through the gateway of the config, and comes after
  the address. At the end everything has been asked for.
-/
theorem static_address_assigned
    (valid : ValidConfig) {staticV6 : Ipv6Static}
    (hStatic :
      valid.config.network.ipv6Static = some staticV6)
    {image : Image} (hBuilt : image.BuiltFrom valid.config)
    (hIntact : Intact valid.config)
    {Between : Session → Session → Prop} {s t : Session}
    {trace : History}
    {rest :
      Calls.Script Request Answer (Except Stop Unit)}
    (hRuns :
      Calls.Runs Possible Between
        (configureStaticIpv6 (image.constant .ipv6Static)
          (image.constant .ipv6Gateway)
          (image.constant .ipv6Iface))
        s trace rest t) :
    ∃ address,
      Ipv6Addr.parse staticV6.address = some address ∧
        (∀ earlier event later,
            trace = earlier ++ event :: later →
              StaticCall (planOf staticV6 address) earlier
                event.request) ∧
          (rest = .done (.ok ()) →
            Assigned (planOf staticV6 address) trace) := by
  rcases hBuilt.eq_of hIntact with rfl
  have hParts :=
    (Config.validate_eq_ok_iff valid.config).1 valid.valid
  rcases accepted_of_validate hParts.2.2.2.2.2.2.1 hStatic with
    ⟨address, hAccepted⟩
  have hBoth :=
    Procedures.logged_of_runs
      (logged_configureStaticIpv6
        (reads_planOf hStatic hAccepted))
      trivial hRuns
  refine ⟨address, hAccepted.parsed, hBoth.1, ?_⟩
  intro hRest
  exact hBoth.2 () hRest

/- A config with an address, a gateway and an interface. -/
def gatewayStatic : Ipv6Static where
  address := "2001:db8::1".toList
  gateway := some "fe80::1".toList
  interface := some "eth0".toList

/- IPv6 alone, with an address and a gateway of its own. -/
def gatewayConfig : Config :=
  { casualConfigWithFormats [.cpio] with
    network := { mode := .ipv6
                 ipv6Static := some gatewayStatic } }

/- Nothing in the config can be cut. -/
theorem intact_gatewayConfig : Intact gatewayConfig :=
  @intact_of_all ⟨gatewayConfig, by rfl⟩ (by decide)

/- Its bring-up on a kernel that grants everything. -/
def gatewayRun :
    Calls.Outcome Session Request Answer (Except Stop Unit) :=
  Calls.exec Kernel.willing.handle
    (configureStaticIpv6
      ((Image.of gatewayConfig).constant .ipv6Static)
      ((Image.of gatewayConfig).constant .ipv6Gateway)
      ((Image.of gatewayConfig).constant .ipv6Iface))
    firstSession

/- A run in which the address and the route are set. -/
theorem gatewayConfig_assigned :
    gatewayRun.value = .ok () ∧
      ∃ address,
        Ipv6Addr.parse gatewayStatic.address = some address ∧
          (∀ earlier event later,
              gatewayRun.trace = earlier ++ event :: later →
                StaticCall (planOf gatewayStatic address)
                  earlier event.request) ∧
            Assigned (planOf gatewayStatic address)
              gatewayRun.trace := by
  have hEnd : gatewayRun.value = .ok () := by
    apply eq_ok_of_isOk
    decide
  have hRuns :=
    Kernel.willing.runs_handle
      (configureStaticIpv6
        ((Image.of gatewayConfig).constant .ipv6Static)
        ((Image.of gatewayConfig).constant .ipv6Gateway)
        ((Image.of gatewayConfig).constant .ipv6Iface))
      firstSession
  rcases
    static_address_assigned ⟨gatewayConfig, by rfl⟩ rfl
      (Image.builtFrom_of intact_gatewayConfig)
      intact_gatewayConfig hRuns with
    ⟨address, hParse, hCalls, hDone⟩
  refine ⟨hEnd, address, hParse, hCalls, hDone ?_⟩
  exact congrArg Calls.Script.done hEnd

end Agreement

end CargoUnikernel
