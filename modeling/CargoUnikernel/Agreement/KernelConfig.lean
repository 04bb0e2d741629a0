import CargoUnikernel.Agreement.Booted
import CargoUnikernel.BuildKernel.Repair
import CargoUnikernel.Pipeline.Script

/-
  Whether the kernel has what its init relies on.

  The features of the init and the options of its kernel come
  from one config in two ways: as features of a crate, and as
  switches of a script that selects fragments, in which the
  last line for an option counts.

  Main declarations:
    * `Symbol`, `Fragment`, `Fragment.directives`
    * `selection`, `bundledFragments_eq`
    * `needs`, `LeftOpen`, `settled_of_mem_needs`
    * `BuildsFor`, `lastWrite_of_mem_needs`
    * `unsaid_of_leftOpen`
    * `rendered`, `filterMap_said_rendered`
    * `kernel_matches_init`
-/

------------------------------------------------------------
-- Options
------------------------------------------------------------

namespace CargoUnikernel

namespace Agreement

open BuildKernel
open Pipeline
open Schema

/- The options that the init depends on. -/
inductive Symbol
| procFs
| sysfs
| tmpfs
| devtmpfs
| unix98Ptys
| seccomp
| seccompFilter
| virtioNet
| inet
| ipv6
| ipPnp
| ipPnpDhcp
| virtioBlk
| ext4Fs
| netfilter
| nfTables
| nfTablesInet
| nfTablesIpv4
| nfConntrack
| nftCt
| sevGuest
| securityLandlock
deriving DecidableEq

/- The option, as the kernel's configuration has it. -/
def Symbol.key : Symbol → Key
| .procFs => "CONFIG_PROC_FS".toList
| .sysfs => "CONFIG_SYSFS".toList
| .tmpfs => "CONFIG_TMPFS".toList
| .devtmpfs => "CONFIG_DEVTMPFS".toList
| .unix98Ptys => "CONFIG_UNIX98_PTYS".toList
| .seccomp => "CONFIG_SECCOMP".toList
| .seccompFilter => "CONFIG_SECCOMP_FILTER".toList
| .virtioNet => "CONFIG_VIRTIO_NET".toList
| .inet => "CONFIG_INET".toList
| .ipv6 => "CONFIG_IPV6".toList
| .ipPnp => "CONFIG_IP_PNP".toList
| .ipPnpDhcp => "CONFIG_IP_PNP_DHCP".toList
| .virtioBlk => "CONFIG_VIRTIO_BLK".toList
| .ext4Fs => "CONFIG_EXT4_FS".toList
| .netfilter => "CONFIG_NETFILTER".toList
| .nfTables => "CONFIG_NF_TABLES".toList
| .nfTablesInet => "CONFIG_NF_TABLES_INET".toList
| .nfTablesIpv4 => "CONFIG_NF_TABLES_IPV4".toList
| .nfConntrack => "CONFIG_NF_CONNTRACK".toList
| .nftCt => "CONFIG_NFT_CT".toList
| .sevGuest => "CONFIG_SEV_GUEST".toList
| .securityLandlock => "CONFIG_SECURITY_LANDLOCK".toList

/- All of the options that matter here. -/
def symbols : List Symbol :=
  [.procFs, .sysfs, .tmpfs, .devtmpfs, .unix98Ptys, .seccomp,
    .seccompFilter, .virtioNet, .inet, .ipv6, .ipPnp,
    .ipPnpDhcp, .virtioBlk, .ext4Fs, .netfilter, .nfTables,
    .nfTablesInet, .nfTablesIpv4, .nfConntrack, .nftCt,
    .sevGuest, .securityLandlock]

/- The option that a key stands for, if it is one of these. -/
def symbolAt (key : Key) : Option Symbol :=
  symbols.find? fun symbol => symbol.key = key

/- What is written of these options. -/
def about (writes : List (Key × Directive)) :
    List (Symbol × Directive) :=
  writes.filterMap fun write =>
    (symbolAt write.1).map fun symbol => (symbol, write.2)

/- The list has all of them. -/
theorem mem_symbols (symbol : Symbol) : symbol ∈ symbols := by
  cases symbol with
  | _ => decide

/- No two of them are one option. -/
theorem nodup_keys : (symbols.map Symbol.key).Nodup := by
  decide

/- A key that no other has finds what it is the key of. -/
theorem find?_key
    {α κ : Type} [DecidableEq κ] {key : α → κ} {xs : List α}
    (hNodup : (xs.map key).Nodup) {x : α} (hMem : x ∈ xs) :
    (xs.find? fun other => key other = key x) = some x := by
  cases hFound : xs.find? fun other => key other = key x with
  | none =>
      have hNone := List.find?_eq_none.1 hFound x hMem
      simp at hNone
  | some other =>
      have hKey : key other = key x := by
        simpa using List.find?_some hFound
      have hOther := List.mem_of_find?_eq_some hFound
      rw [List.inj_on_of_nodup_map hNodup hOther hMem hKey]

/- A key belongs to one of them at most. -/
theorem symbolAt_eq_some_iff
    {key : Key} {symbol : Symbol} :
    symbolAt key = some symbol ↔ symbol.key = key := by
  constructor
  · intro hFound
    simpa using List.find?_some hFound
  · rintro rfl
    exact find?_key nodup_keys (mem_symbols symbol)

/- A write of an option is among what is about it. -/
theorem mem_about
    {writes : List (Key × Directive)} {symbol : Symbol}
    {directive : Directive}
    (hMem : (symbol.key, directive) ∈ writes) :
    (symbol, directive) ∈ about writes := by
  have hSymbol : symbolAt symbol.key = some symbol :=
    symbolAt_eq_some_iff.2 rfl
  unfold about
  rw [List.mem_filterMap]
  exact ⟨_, hMem, by rw [hSymbol, Option.map_some]⟩

/- What counts of the options counts of their keys. -/
theorem lastWrite_of_about
    {writes : List (Key × Directive)} {symbol : Symbol}
    {directive : Directive}
    (hLast : LastWrite symbol directive (about writes)) :
    LastWrite symbol.key directive writes := by
  induction writes with
  | nil => cases hLast
  | cons write writes ih =>
      unfold about at hLast
      rw [List.filterMap_cons] at hLast
      cases hSymbol : symbolAt write.1 with
      | none =>
          rw [hSymbol] at hLast
          exact .there (ih hLast)
      | some other =>
          rw [hSymbol] at hLast
          have hKey := symbolAt_eq_some_iff.1 hSymbol
          rcases write with ⟨key, given⟩
          cases hLast with
          | there hLater => exact .there (ih hLater)
          | here hLater =>
              rw [hKey]
              apply LastWrite.here
              rintro ⟨name, value⟩ hWrite rfl
              apply hLater (symbol, value) _ rfl
              exact
                List.mem_filterMap.2 ⟨_, hWrite, by
                  rw [hSymbol]
                  rfl⟩

------------------------------------------------------------
-- Fragments
------------------------------------------------------------

/- The fragments under `kconfig/`. -/
inductive Fragment
| base
| casual
| sevSnp
| common
| ipv4
| ipv6
| none
| legacySubsystems
| debugInterfaces
| selfProtection
| exploitMitigations
| seccomp
| fips
| persistent
| ram
| firewall
| firewallInet
deriving DecidableEq

namespace Fragment

/- The file below `kconfig/` that it is read from. -/
def name : Fragment → String
| base => "base.config"
| casual => "casual.config"
| sevSnp => "sev-snp.config"
| common => "network/common.config"
| ipv4 => "network/ipv4.config"
| ipv6 => "network/ipv6.config"
| none => "network/none.config"
| legacySubsystems => "categories/legacy-subsystems.config"
| debugInterfaces => "categories/debug-interfaces.config"
| selfProtection => "categories/self-protection.config"
| exploitMitigations =>
    "categories/exploit-mitigations.config"
| seccomp => "categories/seccomp.config"
| fips => "categories/fips.config"
| persistent => "storage/persistent.config"
| ram => "storage/ram.config"
| firewall => "network/firewall.config"
| firewallInet => "network/firewall-inet.config"

open Directive in
/- Its lines about the options of the init, in order. -/
def directives : Fragment → List (Symbol × Directive)
| base =>
    [(.procFs, enable), (.sysfs, enable), (.tmpfs, enable),
      (.devtmpfs, enable), (.unix98Ptys, enable),
      (.ipv6, disable), (.ipPnp, disable),
      (.seccomp, enable), (.seccompFilter, enable)]
| sevSnp => [(.sevGuest, enable)]
| common => [(.inet, enable)]
| ipv4 =>
    [(.virtioNet, enable), (.ipPnp, enable),
      (.ipPnpDhcp, enable)]
| ipv6 => [(.virtioNet, enable), (.ipv6, enable)]
| none =>
    [(.virtioNet, disable), (.inet, disable),
      (.ipv6, disable)]
| legacySubsystems => [(.netfilter, disable)]
| selfProtection => [(.securityLandlock, enable)]
| seccomp => [(.seccomp, enable), (.seccompFilter, enable)]
| persistent => [(.virtioBlk, enable), (.ext4Fs, enable)]
| ram => [(.virtioBlk, disable), (.ext4Fs, disable)]
| firewall =>
    [(.netfilter, enable), (.nfTables, enable),
      (.nfTablesInet, disable), (.nfTablesIpv4, enable),
      (.nfConntrack, enable), (.nftCt, enable)]
| firewallInet => [(.nfTablesInet, enable)]
| casual | debugInterfaces | exploitMitigations | fips => []

end Fragment

/- Fragments, each with whether it is selected. -/
abbrev Selection := List (Bool × Fragment)

/- The files of the fragments that are chosen. -/
def names (chosen : Selection) : List String :=
  (chosen.filter Prod.fst).map fun entry => entry.2.name

/- What the chosen fragments say, in their order. -/
def gathered (chosen : Selection) : List (Symbol × Directive) :=
  (chosen.filter Prod.fst).flatMap fun entry => entry.2.directives

/- What an option is left as. -/
def settled (symbol : Symbol) :
    Selection → Option Directive
| [] => none
| (isChosen, fragment) :: later =>
    match settled symbol later with
    | some directive => some directive
    | none =>
        match lastWritten symbol fragment.directives with
        | some directive =>
            if isChosen then some directive else none
        | none => none

/- What the first fragment says comes first. -/
theorem gathered_cons
    (isChosen : Bool) (fragment : Fragment)
    (later : Selection) :
    gathered ((isChosen, fragment) :: later) =
      (if isChosen then fragment.directives else []) ++
        gathered later := by
  cases isChosen with
  | false => rfl
  | true => rfl

/- Its file comes first, if it is chosen. -/
theorem names_cons
    (isChosen : Bool) (fragment : Fragment)
    (later : Selection) :
    names ((isChosen, fragment) :: later) =
      selected isChosen fragment.name ++ names later := by
  cases isChosen with
  | false => rfl
  | true => rfl

/- What settles nothing says nothing of the option. -/
theorem ne_of_settled
    {symbol : Symbol} {chosen : Selection}
    (hNone : settled symbol chosen = none) :
    ∀ write ∈ gathered chosen, write.1 ≠ symbol := by
  induction chosen with
  | nil => exact nofun
  | cons first later ih =>
      rcases first with ⟨isChosen, fragment⟩
      unfold settled at hNone
      rw [gathered_cons]
      intro write hWrite
      split at hNone
      · cases hNone
      · next hLater =>
          rcases List.mem_append.1 hWrite with hHere | hThere
          · split at hHere
            · next hChosen =>
                split at hNone
                · rw [if_pos hChosen] at hNone
                  cases hNone
                · next hFragment =>
                    exact
                      ne_of_lastWritten hFragment write hHere
            · cases hHere
          · exact ih hLater write hThere

/- What settles an option is the last to say it. -/
theorem lastWrite_of_settled
    {symbol : Symbol} {directive : Directive}
    {chosen : Selection}
    (hValue : settled symbol chosen = some directive) :
    LastWrite symbol directive (gathered chosen) := by
  induction chosen with
  | nil => cases hValue
  | cons first later ih =>
      rcases first with ⟨isChosen, fragment⟩
      unfold settled at hValue
      rw [gathered_cons]
      split at hValue
      · next hLater =>
          cases hValue
          exact (ih hLater).append_right _
      · next hLater =>
          split at hValue
          · next hFragment =>
              split at hValue
              · next hChosen =>
                  cases hValue
                  rw [if_pos hChosen]
                  exact
                    (lastWrite_of_lastWritten
                        hFragment).append_left
                      (ne_of_settled hLater)
              · cases hValue
          · cases hValue

------------------------------------------------------------
-- The Selection of a Config
------------------------------------------------------------

/- The switches of a kernel build. -/
structure Switches where
  sevSnp : Bool
  ipv4 : Bool
  ipv6 : Bool
  legacySubsystems : Bool
  debugInterfaces : Bool
  selfProtection : Bool
  exploitMitigations : Bool
  seccomp : Bool
  fips : Bool
  persistent : Bool
  firewall : Bool

/- The switches that the host sets for a config. -/
def Switches.of (config : Config) : Switches :=
  let kh := config.hardening.kernel
  { sevSnp := config.profile.kind == .sevSnp
    ipv4 := config.network.mode.hasIpv4
    ipv6 := config.network.mode.hasIpv6
    legacySubsystems := kh.disableLegacySubsystems.getD true
    debugInterfaces := kh.disableDebugInterfaces.getD true
    selfProtection := kh.kernelSelfProtection.getD true
    exploitMitigations := kh.exploitMitigations.getD true
    seccomp := kh.seccomp.getD true
    fips := kh.fips
    persistent := config.storage.mode == .persistent
    firewall := firewallEnabled config }

/- In the order in which the script applies them. -/
def selection (switches : Switches) : Selection :=
  [(true, .base),
    (!switches.sevSnp, .casual),
    (switches.sevSnp, .sevSnp),
    (switches.ipv4 || switches.ipv6, .common),
    (switches.ipv4, .ipv4),
    (switches.ipv6, .ipv6),
    (!switches.ipv4 && !switches.ipv6, .none),
    (switches.legacySubsystems, .legacySubsystems),
    (switches.debugInterfaces, .debugInterfaces),
    (switches.selfProtection, .selfProtection),
    (switches.exploitMitigations, .exploitMitigations),
    (switches.seccomp, .seccomp),
    (switches.fips, .fips),
    (switches.persistent, .persistent),
    (!switches.persistent, .ram),
    (switches.firewall, .firewall),
    (switches.firewall && switches.ipv6, .firewallInet)]

/- The environment has all that the build script exports. -/
def Exports (config : Config) (inputs : Inputs) : Prop :=
  ∀ entry ∈ kernelEnv config,
    inputs.environment entry.1.toList = some entry.2

section

variable {config : Config} {inputs : Inputs}

/- A variable that is exported is read by the script. -/
theorem expand_of_exports
    (hExports : Exports config inputs)
    {name : String} {c : Char} {cs : Text}
    (hMem : (name, c :: cs) ∈ kernelEnv config)
    (default : String) :
    inputs.expand name default = c :: cs := by
  unfold Inputs.expand
  rw [hExports _ hMem]

/- So a switch is on exactly if the config says so. -/
theorem isOn_of_exports
    (hExports : Exports config inputs)
    {name : String} {condition : Bool}
    (hMem : (name, envFlag condition) ∈ kernelEnv config) :
    isOn inputs name = condition := by
  cases condition with
  | false =>
      unfold isOn
      rw [expand_of_exports hExports hMem]
      rfl
  | true =>
      unfold isOn
      rw [expand_of_exports hExports hMem]
      rfl

/- A category is on unless it is `0`. -/
theorem category_of_exports
    (hExports : Exports config inputs)
    {name : String} {condition : Bool}
    (hMem : (name, envFlag condition) ∈ kernelEnv config) :
    decide (inputs.expand name "1" ≠ ['0']) = condition := by
  cases condition with
  | false =>
      rw [expand_of_exports hExports hMem]
      rfl
  | true =>
      rw [expand_of_exports hExports hMem]
      rfl

/- The fragment of the config's profile. -/
theorem profileFragment_of_exports
    (hExports : Exports config inputs) :
    profileFragment inputs =
      .ok
        (if config.profile.kind == .sevSnp then
          "sev-snp.config"
        else
          "casual.config") := by
  have hMem :
      ("CARGO_UNIKERNEL_PROFILE",
          profileEnvValue config.profile.kind) ∈
        kernelEnv config := by
    simp [kernelEnv]
  unfold profileFragment
  cases hKind : config.profile.kind with
  | casual =>
      rw [hKind] at hMem
      rw [expand_of_exports hExports hMem]
      rfl
  | sevSnp =>
      rw [hKind] at hMem
      rw [expand_of_exports hExports hMem]
      rfl

/- The categories, by the config's switches. -/
theorem categories_of_exports
    (hExports : Exports config inputs) :
    (categories.flatMap fun category =>
        selected
          (decide (inputs.expand category.2 "1" ≠ ['0']))
          ("categories/" ++ category.1)) =
      names
        [((Switches.of config).legacySubsystems,
            .legacySubsystems),
          ((Switches.of config).debugInterfaces,
            .debugInterfaces),
          ((Switches.of config).selfProtection,
            .selfProtection),
          ((Switches.of config).exploitMitigations,
            .exploitMitigations),
          ((Switches.of config).seccomp, .seccomp)] := by
  unfold categories
  simp only [List.flatMap_cons, List.flatMap_nil]
  have hLegacy :=
    @category_of_exports config inputs hExports
      "CARGO_UNIKERNEL_KHARD_LEGACY_SUBSYSTEMS"
      (Switches.of config).legacySubsystems
      (by simp [kernelEnv, hardeningEnvVars, Switches.of])
  have hDebug :=
    @category_of_exports config inputs hExports
      "CARGO_UNIKERNEL_KHARD_DEBUG_INTERFACES"
      (Switches.of config).debugInterfaces
      (by simp [kernelEnv, hardeningEnvVars, Switches.of])
  have hProtection :=
    @category_of_exports config inputs hExports
      "CARGO_UNIKERNEL_KHARD_SELF_PROTECTION"
      (Switches.of config).selfProtection
      (by simp [kernelEnv, hardeningEnvVars, Switches.of])
  have hMitigations :=
    @category_of_exports config inputs hExports
      "CARGO_UNIKERNEL_KHARD_EXPLOIT_MITIGATIONS"
      (Switches.of config).exploitMitigations
      (by simp [kernelEnv, hardeningEnvVars, Switches.of])
  have hSeccomp :=
    @category_of_exports config inputs hExports
      "CARGO_UNIKERNEL_KHARD_SECCOMP"
      (Switches.of config).seccomp
      (by simp [kernelEnv, hardeningEnvVars, Switches.of])
  rw [hLegacy, hDebug, hProtection, hMitigations, hSeccomp]
  simp only [names_cons]
  rfl

/- The script selects what the config asks for. -/
theorem bundledFragments_eq
    (hExports : Exports config inputs) :
    bundledFragments inputs
        (if config.profile.kind == .sevSnp then
          "sev-snp.config"
        else
          "casual.config") =
      names (selection (Switches.of config)) := by
  have hIpv4 :
      isOn inputs "CARGO_UNIKERNEL_NET_IPV4" =
        config.network.mode.hasIpv4 :=
    isOn_of_exports hExports
      (by simp [kernelEnv, networkEnvVars])
  have hIpv6 :
      isOn inputs "CARGO_UNIKERNEL_NET_IPV6" =
        config.network.mode.hasIpv6 :=
    isOn_of_exports hExports
      (by simp [kernelEnv, networkEnvVars])
  have hFips :
      isOn inputs "CARGO_UNIKERNEL_KHARD_FIPS" =
        config.hardening.kernel.fips :=
    isOn_of_exports hExports (by simp [kernelEnv])
  have hPersistent :
      isOn inputs "CARGO_UNIKERNEL_STORAGE_PERSISTENT" =
        (config.storage.mode == .persistent) :=
    isOn_of_exports hExports (by simp [kernelEnv])
  have hFirewall :
      isOn inputs "CARGO_UNIKERNEL_FIREWALL" =
        firewallEnabled config :=
    isOn_of_exports hExports (by simp [kernelEnv])
  unfold bundledFragments
  dsimp only
  rw [hIpv4, hIpv6, hFips, hPersistent, hFirewall,
    categories_of_exports hExports]
  have hNone : names [] = [] := rfl
  unfold selection Switches.of
  simp only [names_cons, hNone, List.append_assoc,
    List.append_nil]
  cases config.profile.kind with
  | casual => rfl
  | sevSnp => rfl

end

------------------------------------------------------------
-- What the Init Relies On
------------------------------------------------------------

/- An option that is on under a condition. -/
def switch (condition : Bool) : Directive :=
  if condition then .enable else .disable

/- Only if it is wanted. -/
def needIf
    (condition : Bool) (need : Symbol × Directive) :
    List (Symbol × Directive) :=
  if condition then [need] else []

/-
  What an init with the features of a config relies on, and
  what it does without. The filter is a table of the family
  `inet` where the init knows of IPv6, and of `ip` elsewhere.
-/
def needs (config : Config) : List (Symbol × Directive) :=
  let has := fun feature =>
    decide (feature ∈ initFeatures config)
  let net := has .netIpv4 || has .netIpv6
  [(.procFs, .enable), (.sysfs, .enable), (.tmpfs, .enable),
    (.devtmpfs, .enable), (.unix98Ptys, .enable),
    (.seccomp, .enable), (.seccompFilter, .enable),
    (.virtioNet, switch net), (.inet, switch net),
    (.ipv6, switch (has .netIpv6)),
    (.ipPnp, switch (has .netIpv4)),
    (.virtioBlk, switch (has .storagePersistent)),
    (.ext4Fs, switch (has .storagePersistent))] ++
    needIf (has .netIpv4) (.ipPnpDhcp, .enable) ++
    needIf (has .firewall) (.netfilter, .enable) ++
    needIf (has .firewall) (.nfTables, .enable) ++
    needIf (has .firewall) (.nfConntrack, .enable) ++
    needIf (has .firewall) (.nftCt, .enable) ++
    needIf (has .firewall)
      (.nfTablesInet, switch (has .netIpv6)) ++
    needIf (has .firewall && !has .netIpv6)
      (.nfTablesIpv4, .enable) ++
    needIf
      (!has .firewall &&
        config.hardening.kernel.disableLegacySubsystems.getD
          true)
      (.netfilter, .disable) ++
    needIf (has .sevSnp) (.sevGuest, .enable) ++
    needIf (has .landlock) (.securityLandlock, .enable)

/-
  Landlock is among the kernel's own protections, and what
  the init does with it is not asked there. So without these
  an init may rely on it, and no fragment has it.
-/
def LeftOpen (config : Config) (symbol : Symbol) : Prop :=
  symbol = .securityLandlock ∧
    config.hardening.kernel.kernelSelfProtection.getD true =
      false

/- A need under a condition that holds is met. -/
theorem settled_of_mem_needIf
    {condition : Bool} {need other : Symbol × Directive}
    {chosen : Selection}
    (hSettled :
      condition = true →
        settled need.1 chosen = some need.2)
    (hMem : other ∈ needIf condition need) :
    settled other.1 chosen = some other.2 := by
  unfold needIf at hMem
  split at hMem
  · next hCondition =>
      rw [List.mem_singleton.1 hMem]
      exact hSettled hCondition
  · cases hMem

/- Each need is settled by the selection of the config. -/
theorem settled_of_mem_needs
    {config : Config} {need : Symbol × Directive}
    (hMem : need ∈ needs config)
    (hAsked : ¬ LeftOpen config need.1) :
    settled need.1 (selection (Switches.of config)) =
      some need.2 := by
  have hIpv4 :
      decide (.netIpv4 ∈ initFeatures config) =
        (Switches.of config).ipv4 := by
    simp [initFeatures, Switches.of]
  have hIpv6 :
      decide (.netIpv6 ∈ initFeatures config) =
        (Switches.of config).ipv6 := by
    simp [initFeatures, Switches.of]
  have hPersistent :
      decide (.storagePersistent ∈ initFeatures config) =
        (Switches.of config).persistent := by
    simp [initFeatures, Switches.of, beq_eq_decide]
  have hFirewall :
      decide (.firewall ∈ initFeatures config) =
        (Switches.of config).firewall := by
    simp [initFeatures, Switches.of]
  have hSevSnp :
      decide (.sevSnp ∈ initFeatures config) =
        (Switches.of config).sevSnp := by
    simp [initFeatures, Switches.of, beq_eq_decide]
  have hLegacy :
      config.hardening.kernel.disableLegacySubsystems.getD
          true =
        (Switches.of config).legacySubsystems := rfl
  have hProtection :
      need.1 = .securityLandlock →
        (Switches.of config).selfProtection = true := by
    intro hLandlock
    cases hOn : (Switches.of config).selfProtection with
    | true => rfl
    | false => exact absurd ⟨hLandlock, hOn⟩ hAsked
  unfold needs at hMem
  dsimp only at hMem
  rw [hIpv4, hIpv6, hPersistent, hFirewall, hSevSnp, hLegacy]
    at hMem
  clear hAsked hIpv4 hIpv6 hPersistent hFirewall hSevSnp
    hLegacy
  generalize Switches.of config = switches at hMem hProtection ⊢
  rcases switches with
    ⟨sevSnp, ipv4, ipv6, legacy, debug, protection, exploit,
      seccomp, fips, persistent, firewall⟩
  simp only [List.mem_append] at hMem
  rcases hMem with
    (((((((((hMem | hMem) | hMem) | hMem) | hMem) | hMem) |
      hMem) | hMem) | hMem) | hMem) | hMem
  · simp only [List.mem_cons, List.not_mem_nil, or_false] at hMem
    rcases hMem with
      rfl | rfl | rfl | rfl | rfl | rfl | rfl | rfl | rfl | rfl |
        rfl | rfl | rfl
    · rfl
    · rfl
    · rfl
    · rfl
    · rfl
    · cases seccomp with
      | _ => rfl
    · cases seccomp with
      | _ => rfl
    · cases ipv4 with
      | _ =>
          cases ipv6 with
          | _ => rfl
    · cases ipv4 with
      | _ =>
          cases ipv6 with
          | _ => rfl
    · cases ipv4 with
      | _ =>
          cases ipv6 with
          | _ => rfl
    · cases ipv4 with
      | _ => rfl
    · cases persistent with
      | _ => rfl
    · cases persistent with
      | _ => rfl
  · apply settled_of_mem_needIf _ hMem
    rintro rfl
    cases ipv6 with
    | _ => rfl
  · apply settled_of_mem_needIf _ hMem
    rintro rfl
    rfl
  · apply settled_of_mem_needIf _ hMem
    rintro rfl
    rfl
  · apply settled_of_mem_needIf _ hMem
    rintro rfl
    rfl
  · apply settled_of_mem_needIf _ hMem
    rintro rfl
    rfl
  · apply settled_of_mem_needIf _ hMem
    rintro rfl
    cases ipv6 with
    | _ => rfl
  · apply settled_of_mem_needIf _ hMem
    intro hCondition
    cases firewall with
    | false => cases hCondition
    | true => rfl
  · apply settled_of_mem_needIf _ hMem
    intro hCondition
    cases firewall with
    | true => cases hCondition
    | false =>
        cases hCondition
        rfl
  · apply settled_of_mem_needIf _ hMem
    rintro rfl
    rfl
  · have hNeed : need.1 = .securityLandlock := by
      unfold needIf at hMem
      split at hMem
      · rw [List.mem_singleton.1 hMem]
      · cases hMem
    rcases hProtection hNeed with rfl
    apply settled_of_mem_needIf _ hMem
    intro _
    rfl

------------------------------------------------------------
-- The Kernel and the Init
------------------------------------------------------------

/- Where the script finds a fragment. -/
def fragmentPath (inputs : Inputs) (fragment : Fragment) :
    Text :=
  inputs.scriptDir ++ "/kconfig/".toList ++
    fragment.name.toList

/- A kernel build of a config, with the bundled fragments. -/
structure BuildsFor (config : Config) (inputs : Inputs) :
    Prop where
  arguments : inputs.arguments = []
  exports : Exports config inputs
  bundled :
    ∀ fragment,
      about
          (writes inputs.files
            [fragmentPath inputs fragment]) =
        fragment.directives

/- The user's own fragment has a line for the option. -/
def Overridden (inputs : Inputs) (symbol : Symbol) : Prop :=
  ∃ paths directive, extraFragment inputs = .ok paths ∧
    (symbol.key, directive) ∈ writes inputs.files paths

/- The image is that of a kernel that has what is needed. -/
def Supports (config : Config) (inputs : Inputs) (w : World) :
    Prop :=
  ∃ c ∈ w.compilations, w.tree.bzImage = some c.image ∧
    ∀ need ∈ needs config,
      ¬ Overridden inputs need.1 →
        ¬ LeftOpen config need.1 →
          Satisfies c.config need.1.key need.2

/- The fragments are read one after another. -/
theorem writes_append
    (files : Text → Option Text) (paths more : List Text) :
    writes files (paths ++ more) =
      writes files paths ++ writes files more := by
  unfold writes fragmentLines
  rw [List.flatMap_append, List.filterMap_append]

/- What is said of these options, in order. -/
theorem about_append (writes more : List (Key × Directive)) :
    about (writes ++ more) = about writes ++ about more :=
  List.filterMap_append

/- The files say what their fragments say. -/
theorem about_writes
    {config : Config} {inputs : Inputs}
    (hBuilds : BuildsFor config inputs)
    (chosen : Selection) :
    about
        (writes inputs.files
          ((names chosen).map fun name =>
            inputs.scriptDir ++ "/kconfig/".toList ++
              name.toList)) =
      gathered chosen := by
  induction chosen with
  | nil => rfl
  | cons first later ih =>
      rcases first with ⟨isChosen, fragment⟩
      rw [names_cons, gathered_cons, List.map_append,
        writes_append, about_append, ih]
      congr 1
      cases isChosen with
      | false => rfl
      | true => exact hBuilds.bundled fragment

/- The fragments that are chosen, and the extra one. -/
theorem fragmentPaths_of_builds
    {config : Config} {inputs : Inputs} {paths : List Text}
    (hBuilds : BuildsFor config inputs)
    (hPaths : fragmentPaths inputs = .ok paths) :
    ∃ extra, extraFragment inputs = .ok extra ∧
      paths =
        ((names (selection (Switches.of config))).map
            fun name =>
              inputs.scriptDir ++ "/kconfig/".toList ++
                name.toList) ++
          extra := by
  unfold fragmentPaths at hPaths
  rw [profileFragment_of_exports hBuilds.exports,
    Fallible.ok_bind, Fallible.bind_eq_ok_iff] at hPaths
  rcases hPaths with ⟨extra, hExtra, hPaths⟩
  rw [bundledFragments_eq hBuilds.exports] at hPaths
  exact ⟨extra, hExtra, (Except.ok.inj hPaths).symm⟩

/- Each need is the last word of the fragments on it. -/
theorem lastWrite_of_mem_needs
    {config : Config} {inputs : Inputs} {paths : List Text}
    {need : Symbol × Directive}
    (hBuilds : BuildsFor config inputs)
    (hPaths : fragmentPaths inputs = .ok paths)
    (hMem : need ∈ needs config)
    (hKept : ¬ Overridden inputs need.1)
    (hAsked : ¬ LeftOpen config need.1) :
    LastWrite need.1.key need.2
      (writes inputs.files paths) := by
  rcases fragmentPaths_of_builds hBuilds hPaths with
    ⟨extra, hExtra, rfl⟩
  rw [writes_append]
  apply LastWrite.append_left
  · apply lastWrite_of_about
    rw [about_writes hBuilds]
    exact
      lastWrite_of_settled (settled_of_mem_needs hMem hAsked)
  · rintro ⟨key, directive⟩ hWrite rfl
    exact hKept ⟨extra, directive, hExtra, hWrite⟩

/- What is left open has no line in a bundled fragment. -/
theorem unsaid_of_leftOpen
    {config : Config} {inputs : Inputs} {paths : List Text}
    {symbol : Symbol}
    (hBuilds : BuildsFor config inputs)
    (hPaths : fragmentPaths inputs = .ok paths)
    (hOpen : LeftOpen config symbol)
    (hKept : ¬ Overridden inputs symbol) :
    ∀ write ∈ writes inputs.files paths,
      write.1 ≠ symbol.key := by
  rcases hOpen with ⟨rfl, hOff⟩
  rcases fragmentPaths_of_builds hBuilds hPaths with
    ⟨extra, hExtra, rfl⟩
  rintro ⟨key, directive⟩ hWrite hKey
  have hSame : key = Symbol.securityLandlock.key := hKey
  rw [hSame, writes_append] at hWrite
  rcases List.mem_append.1 hWrite with hBundled | hUser
  · have hNone :
        settled .securityLandlock
            (selection (Switches.of config)) =
          none := by
      have hSwitch :
          (Switches.of config).selfProtection = false := hOff
      generalize Switches.of config = switches at hSwitch ⊢
      rcases switches with
        ⟨sevSnp, ipv4, ipv6, legacy, debug, protection,
          exploit, seccomp, fips, persistent, firewall⟩
      cases hSwitch
      rfl
    have hSaid := mem_about hBundled
    rw [about_writes hBuilds] at hSaid
    exact ne_of_settled hNone _ hSaid rfl
  · exact hKept ⟨extra, directive, hExtra, hUser⟩

------------------------------------------------------------
-- Fragments as Files
------------------------------------------------------------

/- All the fragments that come with the script. -/
def fragments : List Fragment :=
  [.base, .casual, .sevSnp, .common, .ipv4, .ipv6, .none,
    .legacySubsystems, .debugInterfaces, .selfProtection,
    .exploitMitigations, .seccomp, .fips, .persistent, .ram,
    .firewall, .firewallInet]

/- A fragment with nothing but these lines. -/
def rendered (fragment : Fragment) : Text :=
  Text.unlines
    (fragment.directives.map fun write =>
      assigned write.1.key write.2.text)

/- The list has all of them. -/
theorem mem_fragments (fragment : Fragment) :
    fragment ∈ fragments := by
  cases fragment with
  | _ => decide

/- No two of them are one file. -/
theorem nodup_names : (fragments.map Fragment.name).Nodup := by
  simp [fragments, Fragment.name]

/- Each of them is an option's name. -/
theorem isKey_key (symbol : Symbol) :
    isKey symbol.key = true := by
  have hAll :
      ∀ symbol ∈ symbols, isKey symbol.key = true := by
    decide
  exact hAll symbol (mem_symbols symbol)

/- The fragments turn options on and off, and no more. -/
theorem enable_or_disable
    {fragment : Fragment} {write : Symbol × Directive}
    (hMem : write ∈ fragment.directives) :
    write.2 = .enable ∨ write.2 = .disable := by
  revert write
  cases fragment with
  | _ => decide

/- A word that ends in `e` is left as it is. -/
theorem text_of_switch
    {directive : Directive}
    (hSwitch : directive = .enable ∨ directive = .disable) :
    ∃ front, directive.text = front ++ ['e'] := by
  rcases hSwitch with rfl | rfl
  · exact ⟨"enabl".toList, by decide⟩
  · exact ⟨"disabl".toList, by decide⟩

/- A line without white space at its ends. -/
theorem strip_eq_self
    {first last : Char} {middle : Text}
    (hFirst : isSpace first = false)
    (hLast : isSpace last = false) (hReturn : last ≠ '\r') :
    strip (first :: middle ++ [last]) =
      first :: middle ++ [last] := by
  unfold strip
  rw [List.getLast?_concat, if_neg]
  · dsimp only
    rw [List.cons_append, List.dropWhile_cons_of_neg,
      ← List.cons_append, List.reverse_append,
      List.reverse_singleton, List.singleton_append,
      List.dropWhile_cons_of_neg, ← List.singleton_append,
      List.reverse_append, List.reverse_reverse]
    · rfl
    · simp [hLast]
    · simp [hFirst]
  · simpa using hReturn

/- Each line of a fragment is read as it was written. -/
theorem said_assigned
    {symbol : Symbol} {directive : Directive}
    (hSwitch : directive = .enable ∨ directive = .disable) :
    said (assigned symbol.key directive.text) =
      some (symbol.key, directive) := by
  have hKey := isKey_key symbol
  rcases head_of_isKey hKey with ⟨rest, hHead⟩
  rcases text_of_switch hSwitch with ⟨front, hText⟩
  rw [said_eq_some_iff]
  refine ⟨?_, hKey⟩
  have hLine :
      assigned symbol.key directive.text =
        'C' :: (rest ++ '=' :: front) ++ ['e'] := by
    unfold assigned
    rw [hHead, hText]
    simp
  rw [hLine, strip_eq_self rfl rfl (by decide), ← hLine]
  rfl

/- The lines are lines, and the shell drops nothing of them. -/
theorem not_mem_assigned
    {symbol : Symbol} {directive : Directive} {c : Char}
    (hSwitch : directive = .enable ∨ directive = .disable)
    (hChar : c = '\n' ∨ c = '\x00') :
    c ∉ assigned symbol.key directive.text := by
  intro hMem
  unfold assigned at hMem
  rcases List.mem_append.1 hMem with hKey | hRest
  · have hSymbol :=
      isSymbolChar_of_mem_key (isKey_key symbol) hKey
    rcases hChar with rfl | rfl
    · exact absurd hSymbol (by decide)
    · exact absurd hSymbol (by decide)
  · revert hRest
    rcases hChar with rfl | rfl
    · rcases hSwitch with rfl | rfl
      · decide
      · decide
    · rcases hSwitch with rfl | rfl
      · decide
      · decide

/- The lines of a fragment, and what they are about. -/
theorem mem_lines_iff
    {fragment : Fragment} {line : Text} :
    line ∈ Text.split '\n' (rendered fragment) ↔
      line = [] ∨
        ∃ write ∈ fragment.directives,
          assigned write.1.key write.2.text = line := by
  unfold rendered
  rw [Text.split_unlines, List.mem_append,
    List.mem_singleton, or_comm, List.mem_map]
  intro line hMem
  rcases List.mem_map.1 hMem with ⟨write, hWrite, rfl⟩
  exact
    not_mem_assigned (enable_or_disable hWrite) (.inl rfl)

/- The lines of a fragment can be read. -/
theorem nul_not_mem_rendered
    {fragment : Fragment} {line : Text}
    (hLine : line ∈ Text.split '\n' (rendered fragment)) :
    '\x00' ∉ line := by
  rcases mem_lines_iff.1 hLine with rfl | ⟨write, hMem, rfl⟩
  · exact List.not_mem_nil
  · exact not_mem_assigned (enable_or_disable hMem) (.inr rfl)

/- And none of them is malformed. -/
theorem not_malformed_rendered
    {fragment : Fragment} {line : Text}
    (hLine : line ∈ Text.split '\n' (rendered fragment)) :
    ¬ Malformed line := by
  rcases mem_lines_iff.1 hLine with rfl | ⟨write, hMem, rfl⟩
  · intro hMalformed
    exact hMalformed.1 (.inl rfl)
  · intro hMalformed
    exact
      hMalformed.2 _ _
        (said_eq_some_iff.1
          (said_assigned (enable_or_disable hMem)))

/- A fragment that is written out reads back. -/
theorem filterMap_said_rendered (fragment : Fragment) :
    (Text.split '\n' (rendered fragment)).filterMap said =
      fragment.directives.map fun write =>
        (write.1.key, write.2) := by
  have hFree :
      ∀ line ∈
          fragment.directives.map fun write =>
            assigned write.1.key write.2.text,
        '\n' ∉ line := by
    intro line hMem
    rcases List.mem_map.1 hMem with ⟨write, hWrite, rfl⟩
    exact
      not_mem_assigned (enable_or_disable hWrite) (.inl rfl)
  have hEmpty : [([] : Text)].filterMap said = [] := by
    decide
  unfold rendered
  rw [Text.split_unlines hFree, List.filterMap_append,
    hEmpty, List.append_nil, List.filterMap_map,
    ← List.filterMap_eq_map]
  apply List.filterMap_congr
  intro write hWrite
  exact said_assigned (enable_or_disable hWrite)

/- The options are found by their names. -/
theorem about_keyed (writes : List (Symbol × Directive)) :
    about (writes.map fun write => (write.1.key, write.2)) =
      writes := by
  unfold about
  rw [List.filterMap_map]
  induction writes with
  | nil => rfl
  | cons write writes ih =>
      have hSymbol :
          symbolAt write.1.key = some write.1 :=
        symbolAt_eq_some_iff.2 rfl
      rw [List.filterMap_cons, Function.comp_apply, hSymbol,
        ih]
      rfl

------------------------------------------------------------
-- A Build
------------------------------------------------------------

/- A config without a network, for a kernel of its own. -/
def builtConfig : Config :=
  { Agreement.plainConfig with
    kernel :=
      { version := "6.18.33".toList
        sha256 := some tarballDigest } }

/- The fragment that a path leads to. -/
def fragmentAt (path : Text) : Option Fragment :=
  fragments.find? fun fragment =>
    "/assets".toList ++ "/kconfig/".toList ++
      fragment.name.toList = path

/- The inputs of a build, with no other variables. -/
def builtInputs : Inputs where
  arguments := []
  environment := fun name =>
    (kernelEnv builtConfig).lookup (String.ofList name)
  scriptDir := "/assets".toList
  files := fun path => (fragmentAt path).map rendered
  provenance := []

/- The writes of its fragments. -/
def builtWrites : List (Key × Directive) :=
  (gathered (selection (Switches.of builtConfig))).map
    fun write => (write.1.key, write.2)

/- What is planned for these inputs. -/
def builtPlan : Plan where
  configOnly := false
  version := "6.18.33".toList
  sha256 := tarballDigest
  directives := WriteTable.empty.writeAll builtWrites
  fingerprint :=
    plainDigest
      (fingerprintInput "6.18.33".toList tarballDigest []
        (WriteTable.empty.writeAll builtWrites))

/- The options that are set by the programs of the build. -/
def builtText : Text :=
  Text.unlines
    (((needs builtConfig).filter fun need =>
      need.2 = .enable).map fun need =>
        assigned need.1.key ['y'])

/- A kernel with nothing but these options. -/
def unpackOptions (_ : Text) : Option (List Text) :=
  some
    [Text.unlines
      ((needs builtConfig).map fun need =>
        "config ".toList ++
          need.1.key.drop "CONFIG_".toList.length)]

/- The run after the inputs have been checked. -/
def builtEvents : List Event :=
  List.replicate 5 .completes ++
    List.replicate 18 (.answers builtText) ++
    [.completes, .completes,
      .compiles builtText "bzImage".toList] ++
    List.replicate 7 .completes

/- The inputs have what the host exports. -/
theorem exports_builtInputs :
    Exports builtConfig builtInputs := by
  intro entry hEntry
  change
    (kernelEnv builtConfig).lookup
        (String.ofList entry.1.toList) =
      some entry.2
  rw [String.ofList_toList]
  have hSha :
      builtConfig.kernel.sha256ForBuild =
        some tarballDigest := rfl
  revert entry
  simp [kernelEnv, hSha, networkEnvVars, hardeningEnvVars,
    List.lookup_cons]

/- The names that are exported. -/
theorem exportedNames_eq :
    (kernelEnv builtConfig).map Prod.fst =
      ["CARGO_UNIKERNEL_PROFILE",
        "CARGO_UNIKERNEL_KERNEL_VERSION",
        "CARGO_UNIKERNEL_KERNEL_SHA256",
        "CARGO_UNIKERNEL_NET_IPV4",
        "CARGO_UNIKERNEL_NET_IPV6",
        "CARGO_UNIKERNEL_KHARD_LEGACY_SUBSYSTEMS",
        "CARGO_UNIKERNEL_KHARD_DEBUG_INTERFACES",
        "CARGO_UNIKERNEL_KHARD_SELF_PROTECTION",
        "CARGO_UNIKERNEL_KHARD_EXPLOIT_MITIGATIONS",
        "CARGO_UNIKERNEL_KHARD_SECCOMP",
        "CARGO_UNIKERNEL_KHARD_FIPS",
        "CARGO_UNIKERNEL_STORAGE_PERSISTENT",
        "CARGO_UNIKERNEL_FIREWALL"] :=
  rfl

/- No other name is exported. -/
theorem expand_builtInputs
    {name : String}
    (hOther : name ∉ (kernelEnv builtConfig).map Prod.fst) :
    builtInputs.expand name "" = [] := by
  have hNone : (kernelEnv builtConfig).lookup name = none := by
    rw [List.lookup_eq_none_iff]
    intro entry hEntry
    have hName : name ≠ entry.1 := by
      rintro rfl
      exact hOther (List.mem_map_of_mem hEntry)
    simpa using hName
  have hEnv : builtInputs.environment name.toList = none := by
    change
      (kernelEnv builtConfig).lookup
          (String.ofList name.toList) =
        none
    rw [String.ofList_toList, hNone]
  unfold Inputs.expand
  rw [hEnv]
  rfl

/- Every fragment is where the script looks. -/
theorem fragmentAt_path (fragment : Fragment) :
    fragmentAt (fragmentPath builtInputs fragment) =
      some fragment := by
  have hFound :=
    find?_key nodup_names (mem_fragments fragment)
  have hPath :
      fragmentPath builtInputs fragment =
        "/assets".toList ++ "/kconfig/".toList ++
          fragment.name.toList := rfl
  unfold fragmentAt
  rw [hPath]
  simpa only [List.append_cancel_left_eq, String.toList_inj]
    using hFound

/- And it says what it should. -/
theorem files_path (fragment : Fragment) :
    builtInputs.files (fragmentPath builtInputs fragment) =
      some (rendered fragment) := by
  change Option.map rendered (fragmentAt _) = _
  rw [fragmentAt_path]
  rfl

/- So it is a build for this config. -/
theorem buildsFor_builtInputs :
    BuildsFor builtConfig builtInputs where
  arguments := rfl
  exports := exports_builtInputs
  bundled := by
    intro fragment
    unfold writes fragmentLines
    rw [List.flatMap_singleton, files_path]
    change
      about
          ((Text.split '\n' (rendered fragment)).filterMap
            said) =
        _
    rw [filterMap_said_rendered, about_keyed]

/- The fragments of this build. -/
theorem fragmentPaths_builtInputs :
    fragmentPaths builtInputs =
      .ok
        (((selection (Switches.of builtConfig)).filter
            Prod.fst).map fun entry =>
          fragmentPath builtInputs entry.2) := by
  have hExtra : extraFragment builtInputs = .ok [] := by
    have hNone :=
      @expand_builtInputs "CARGO_UNIKERNEL_EXTRA_KCONFIG_FILE"
        (by simp [exportedNames_eq])
    unfold extraFragment
    rw [hNone]
    rfl
  unfold fragmentPaths
  rw [profileFragment_of_exports exports_builtInputs,
    Fallible.ok_bind, hExtra, Fallible.ok_bind,
    bundledFragments_eq exports_builtInputs, List.append_nil]
  unfold names
  rw [List.map_map]
  rfl

/- And the lines in them. -/
theorem fragmentLines_builtInputs (chosen : Selection) :
    fragmentLines builtInputs.files
        ((chosen.filter Prod.fst).map fun entry =>
          fragmentPath builtInputs entry.2) =
      (chosen.filter Prod.fst).flatMap fun entry =>
        Text.split '\n' (rendered entry.2) := by
  unfold fragmentLines
  rw [List.flatMap_map]
  apply List.flatMap_congr
  intro entry _
  rw [files_path]
  rfl

/- The shell reads the fragments as they were written. -/
theorem parseFragments_builtInputs (chosen : Selection) :
    parseFragments builtInputs.files
        ((chosen.filter Prod.fst).map fun entry =>
          fragmentPath builtInputs entry.2)
        WriteTable.empty =
      .ok
        (WriteTable.empty.writeAll
          ((gathered chosen).map fun write =>
            (write.1.key, write.2))) := by
  rw [parseFragments_eq_ok_iff, fragmentLines_builtInputs]
  have hLines :
      ∀ line ∈
          (chosen.filter Prod.fst).flatMap fun entry =>
            Text.split '\n' (rendered entry.2),
        dropNul line = line ∧ ¬ Malformed line := by
    intro line hLine
    rcases List.mem_flatMap.1 hLine with ⟨entry, _, hMem⟩
    refine ⟨?_, not_malformed_rendered hMem⟩
    have hFree := nul_not_mem_rendered hMem
    unfold dropNul
    rw [List.filter_eq_self]
    intro c hChar
    have hOther : c ≠ '\x00' := by
      rintro rfl
      exact hFree hChar
    exact decide_eq_true hOther
  refine ⟨?_, ?_, ?_⟩
  · intro path hPath
    rcases List.mem_map.1 hPath with ⟨entry, _, rfl⟩
    rw [files_path]
    rfl
  · intro line hLine
    rw [(hLines line hLine).1]
    exact (hLines line hLine).2
  · rw [List.map_congr_left
      fun line hLine => (hLines line hLine).1]
    rw [List.map_id', List.filterMap_flatMap]
    unfold gathered
    rw [List.map_flatMap]
    congr 1
    apply List.flatMap_congr
    intro entry _
    exact (filterMap_said_rendered entry.2).symm

/- The script comes to this plan. -/
theorem prepare_builtInputs :
    prepare plainChecksum builtInputs = .ok builtPlan := by
  have hVersion :
      builtInputs.expand "CARGO_UNIKERNEL_KERNEL_VERSION" "" =
        "6.18.33".toList :=
    @expand_of_exports _ _ exports_builtInputs
      "CARGO_UNIKERNEL_KERNEL_VERSION" '6'
      ".18.33".toList (by simp [kernelEnv, builtConfig]) ""
  have hSha :
      builtInputs.expand "CARGO_UNIKERNEL_KERNEL_SHA256" "" =
        tarballDigest :=
    @expand_of_exports _ _ exports_builtInputs
      "CARGO_UNIKERNEL_KERNEL_SHA256" 'c'
      (tarballDigest.drop 1)
      (by
        have hSum :
            builtConfig.kernel.sha256ForBuild =
              some ('c' :: tarballDigest.drop 1) := by
          decide
        simp [kernelEnv, hSum]) ""
  unfold prepare
  dsimp only
  rw [hVersion, hSha]
  simp only [Fallible.bind_eq_ok_iff]
  refine ⟨(), ?_, false, rfl, (), ?_, (), ?_, (), ?_, (), ?_,
    _, fragmentPaths_builtInputs, builtPlan.directives, ?_, ?_⟩
  · decide
  · decide
  · decide
  · rw [Fallible.forM_eq_ok_iff]
    intro name hName
    rw [Fallible.reject_eq_ok_iff, not_not]
    apply expand_builtInputs
    rw [exportedNames_eq]
    revert name
    simp [unsupportedVariables]
  · decide
  · rw [parseFragments_builtInputs]
    rfl
  · have hLower :
        tarballDigest.map Char.toLower = tarballDigest := by
      decide
    rw [hLower]
    rfl

/- Nothing else is in the environment. -/
theorem harmless_builtInputs : Harmless builtInputs := by
  intro paths hPaths
  rw [fragmentPaths_builtInputs, Except.ok.injEq] at hPaths
  rw [← hPaths]
  apply nulHarmless_of_not_mem
  rw [fragmentLines_builtInputs]
  intro line hLine
  rcases List.mem_flatMap.1 hLine with ⟨entry, _, hMem⟩
  exact nul_not_mem_rendered hMem

/- Once the inputs are checked, the build goes through. -/
theorem build_goes_through :
    ((system plainChecksum unpackOptions).run
      (newWorld.goTo builtInputs builtPlan .lookup)
        builtEvents).any hasSucceeded = true := by
  decide

/- Every event of the run goes on. -/
theorem goes_builtEvents :
    ∀ event ∈ builtEvents, Goes event := by
  intro event hMem
  simp only [builtEvents, List.mem_append,
    List.mem_replicate, List.mem_cons, List.not_mem_nil,
    or_false] at hMem
  rcases hMem with ((⟨_, rfl⟩ | ⟨_, rfl⟩) | hEnd) | ⟨_, rfl⟩
  · trivial
  · trivial
  · rcases hEnd with rfl | rfl | rfl
    · trivial
    · trivial
    · trivial
  · trivial

theorem harmless_of_goes
    {event : Event} (hGoes : Goes event) (w : World) :
    BeginsHarmless w event := by
  cases event with
  | begin inputs => cases hGoes
  | _ => trivial

/- A run that is prepared looks the image up. -/
theorem step_checked
    {sum : Checksum} {unpack : Text → Option (List Text)}
    {w : World} {inputs : Inputs} {plan : Plan}
    (hPhase : w.phase = .started inputs)
    (hPrepare : prepare sum inputs = .ok plan) :
    (system sum unpack).step w .completes =
      some (w.goTo inputs plan .lookup) := by
  unfold system
  simp only [step, hPhase, hPrepare]

/- A world that the build leaves, and how it is reached. -/
theorem exists_built :
    ∃ w,
      (system plainChecksum unpackOptions).ReachableUnder
          BeginsHarmless w ∧
        w.phase = .exited builtInputs 0 := by
  rcases (Option.any_eq_true _ _).1 build_goes_through with
    ⟨w, hRun, hSucceeded⟩
  have hNew :
      (system plainChecksum unpackOptions).init newWorld :=
    ⟨rfl, fun _ => rfl, rfl, rfl⟩
  have hBegin :
      (system plainChecksum unpackOptions).step newWorld
          (.begin builtInputs) =
        some { newWorld with phase := .started builtInputs } :=
    rfl
  have hHarmless :
      BeginsHarmless newWorld (.begin builtInputs) :=
    harmless_builtInputs
  have hStarted :
      (system plainChecksum unpackOptions).ReachableUnder
        BeginsHarmless
        { newWorld with phase := .started builtInputs } :=
    .next (.start hNew) hHarmless hBegin
  have hLookup :
      (system plainChecksum unpackOptions).ReachableUnder
        BeginsHarmless
        (newWorld.goTo builtInputs builtPlan .lookup) := by
    have hChecked :=
      @step_checked plainChecksum unpackOptions
        { newWorld with phase := .started builtInputs }
        builtInputs builtPlan rfl prepare_builtInputs
    have hAny :
        BeginsHarmless
          { newWorld with phase := .started builtInputs }
          .completes :=
      trivial
    exact .next hStarted hAny hChecked
  refine ⟨w, ?_, ?_⟩
  · apply Transition.System.ReachableUnder.run_of_mem _ hLookup
      hRun
    intro event hEvent v
    exact harmless_of_goes (goes_builtEvents event hEvent) v
  · have hIn :
        InRepair plainChecksum none builtInputs builtPlan
          (newWorld.goTo builtInputs builtPlan .lookup) :=
      ⟨rfl, rfl, rfl⟩
    have hEnd :=
      run_mends prepare_builtInputs rfl goes_builtEvents hIn
        hRun
    unfold InRepair at hEnd
    unfold hasSucceeded at hSucceeded
    split at hSucceeded
    · next hExited =>
        rw [hExited] at hEnd ⊢
        rw [hEnd.1, of_decide_eq_true hSucceeded]
    · cases hSucceeded

/-
  However the builds before went, a build that ends well
  leaves the image of a kernel that has what the init with
  the features of the config relies on, unless the user's
  fragment asked otherwise. That it has landlock is asked for
  only along with the kernel's own protections: without them
  no fragment has a line for it.
-/
theorem kernel_matches_init
    {sum : Checksum} {unpack : Text → Option (List Text)}
    {w : World} {config : Config} {inputs : Inputs}
    (hReach :
      (system sum unpack).ReachableUnder BeginsHarmless w)
    (hExited : w.phase = .exited inputs 0)
    (hBuilds : BuildsFor config inputs) :
    Supports config inputs w ∧
      ∀ symbol, LeftOpen config symbol →
        ¬ Overridden inputs symbol →
          ∀ paths, fragmentPaths inputs = .ok paths →
            ∀ write ∈ writes inputs.files paths,
              write.1 ≠ symbol.key := by
  refine ⟨?_, fun symbol hOpen hKept paths hPaths =>
    unsaid_of_leftOpen hBuilds hPaths hOpen hKept⟩
  have hBuild : parseArguments inputs.arguments = .ok false := by
    rw [hBuilds.arguments]
    rfl
  have hSound := sound_of_reachableUnder hReach
  rcases hSound.took inputs hExited hBuild with
    ⟨paths, c, hPaths, hRan, hImage, _, hTook⟩
  refine ⟨c, hRan, hImage, ?_⟩
  intro need hNeed hKept hAsked
  have hLast :=
    lastWrite_of_mem_needs hBuilds hPaths hNeed hKept hAsked
  exact (hTook need.1.key need.2 hLast).1

/- A build that ends, with all that its init needs. -/
theorem builtConfig_matches_init :
    ∃ w, w.phase = .exited builtInputs 0 ∧
      Supports builtConfig builtInputs w := by
  rcases exists_built with ⟨w, hReach, hExited⟩
  exact ⟨w, hExited,
    (kernel_matches_init hReach hExited
      buildsFor_builtInputs).1⟩

end Agreement

end CargoUnikernel
