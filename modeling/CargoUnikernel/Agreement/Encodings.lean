import CargoUnikernel.Agreement.Constants

/-
  What the host's checks of maps and firewall entries are
  worth to the guest that decodes them.

  A map passes its check exactly when the guest decodes its
  encoding to the same entries. A firewall entry passes
  exactly when the guest makes a rule of it, unless a
  separator in it makes it a different entry altogether.

  Main declarations:
    * `parsePairs_encodeKvPairs_iff`, `kv_round_trip`
    * `Serves`, `rule_encodeInbound_isSome_iff`
    * `firewall_agreement`
-/

------------------------------------------------------------
-- Key-Value Pairs
------------------------------------------------------------

namespace CargoUnikernel

namespace Agreement

open Schema Pipeline Fallible
open Guest.BuildScript Guest.Baked Guest.Firewall

/- A decoded pair has no separator where it would matter. -/
theorem isKvPair_of_parsePair
    {what : String} {raw part : Text} {pair : Text × Text}
    (hPart : part ∈ Text.entries ';' raw)
    (hParse : parsePair what part = .ok pair) :
    Config.IsKvPair pair := by
  have hFree : ';' ∉ part := by
    apply Text.not_mem_of_mem_split
    exact (List.mem_filter.1 hPart).1
  unfold parsePair at hParse
  split at hParse
  case h_1 halves hSplit =>
      cases hParse
      have hKey := Text.not_mem_of_splitOnce hSplit
      rw [Text.eq_of_splitOnce hSplit] at hFree
      simp only [List.mem_append, List.mem_cons,
        not_or] at hFree
      exact ⟨hFree.1, hKey, hFree.2.2⟩
  case h_2 => cases hParse

/- Exactly the pairs without such separators come back. -/
theorem parsePairs_encodeKvPairs_iff
    (pairs : BTreeMap Text Text) (what : String) :
    parsePairs (encodeKvPairs pairs) what =
        .ok pairs.entries ↔
      ∀ pair ∈ pairs.entries, Config.IsKvPair pair := by
  constructor
  · intro hParse pair hMem
    rcases exists_item_of_mapM hParse hMem with
      ⟨part, hPart, hPair⟩
    exact isKvPair_of_parsePair hPart hPair
  · intro hPairs
    exact parsePairs_encodeKvPairs hPairs what

/-
  The check of a map passes exactly when the guest decodes
  the map's encoding to its entries in order, and the check
  of a config exactly when that goes for both its maps.
-/
theorem kv_round_trip :
    (∀ (pairs : BTreeMap Text Text) (table what : String),
      forM pairs.entries (Config.validateKvPair table) =
          .ok () ↔
        parsePairs (encodeKvPairs pairs) what =
          .ok pairs.entries) ∧
      ∀ config : Config,
        config.validateKvEncoding = .ok () ↔
          parsePairs (encodeKvPairs config.app.runtime.env)
              "[app.runtime].env" =
            .ok config.app.runtime.env.entries ∧
          parsePairs
              (encodeKvPairs config.hardening.extraSysctls)
              "[hardening].extra_sysctls" =
            .ok config.hardening.extraSysctls.entries := by
  constructor
  · intro pairs table what
    rw [parsePairs_encodeKvPairs_iff, forM_eq_ok_iff]
    simp only [Config.validateKvPair_eq_ok_iff]
  · intro config
    rw [Config.validateKvEncoding_eq_ok_iff,
      parsePairs_encodeKvPairs_iff,
      parsePairs_encodeKvPairs_iff]

------------------------------------------------------------
-- Firewall Entries
------------------------------------------------------------

/- The rule is the one the host's check read. -/
def Serves (entry : InboundPorts) (rule : Rule) : Prop :=
  (entry.proto = "tcp".toList ∧ rule.protocol = ipprotoTcp ∨
      entry.proto = "udp".toList ∧
        rule.protocol = ipprotoUdp) ∧
    Config.portsOf entry.ports =
      some (rule.firstPort.toNat, rule.lastPort.toNat) ∧
    1 ≤ rule.firstPort.toNat ∧
    rule.firstPort.toNat ≤ rule.lastPort.toNat

/- Ports that were read fit 16 bits. -/
theorem lt_of_portsOf
    {ports : Text} {first last : Nat}
    (hPorts : Config.portsOf ports = some (first, last)) :
    first < 2 ^ 16 ∧ last < 2 ^ 16 := by
  rcases Config.parse_of_portsOf hPorts with
    ⟨hFirst, hLast⟩
  exact ⟨Numeral.lt_of_parse (by omega) hFirst,
    Numeral.lt_of_parse (by omega) hLast⟩

/- The rule serves what the entry names. -/
theorem serves_inboundRule
    {entry : InboundPorts} (hEntry : Config.IsInbound entry) :
    Serves entry (inboundRule entry) := by
  rcases hEntry with
    ⟨hProto, first, last, hPorts, hPositive, hOrder⟩
  rcases lt_of_portsOf hPorts with ⟨hFirst, hLast⟩
  have hFirstPort :
      (inboundRule entry).firstPort.toNat = first := by
    simp only [inboundRule, hPorts, Option.getD_some]
    exact UInt16.toNat_ofNat_of_lt' hFirst
  have hLastPort :
      (inboundRule entry).lastPort.toNat = last := by
    simp only [inboundRule, hPorts, Option.getD_some]
    exact UInt16.toNat_ofNat_of_lt' hLast
  unfold Serves
  rw [hFirstPort, hLastPort]
  refine ⟨?_, hPorts, hPositive, hOrder⟩
  rcases hProto with hTcp | hUdp
  · refine Or.inl ⟨hTcp, ?_⟩
    simp [inboundRule, hTcp]
  · refine Or.inr ⟨hUdp, ?_⟩
    simp [inboundRule, hUdp]

/- An entry that makes a rule has passed the check. -/
theorem isInbound_of_rule
    {entry : InboundPorts} {rule : Rule}
    (hColon : ':' ∉ entry.proto)
    (hRule : rule? (encodeInbound entry) = some rule) :
    Config.IsInbound entry := by
  unfold rule? encodeInbound at hRule
  rw [Text.splitOnce_append hColon] at hRule
  simp only [Option.bind_eq_bind, Option.bind_some,
    Option.bind_eq_some_iff] at hRule
  rcases hRule with
    ⟨protocol, hProtocol, first, hFirst, last, hLast, hRule⟩
  constructor
  · unfold protocol? at hProtocol
    split at hProtocol
    case isTrue hTcp => exact Or.inl hTcp
    case isFalse =>
        split at hProtocol
        case isTrue hUdp => exact Or.inr hUdp
        case isFalse => cases hProtocol
  · split at hRule
    case isTrue => cases hRule
    case isFalse hUsable =>
        refine ⟨first, last, ?_, by omega, by omega⟩
        simp only [Config.portsOf, hFirst, hLast,
          Option.bind_some, Option.map_some]

/- Exactly such entries make a rule. -/
theorem parseRule_encodeInbound_iff
    {entry : InboundPorts} (hColon : ':' ∉ entry.proto) :
    (∃ rule, parseRule (encodeInbound entry) = .ok rule) ↔
      Config.validateInbound entry = .ok () := by
  rw [Config.validateInbound_eq_ok_iff]
  unfold parseRule
  constructor
  · rintro ⟨rule, hParse⟩
    split at hParse
    case h_1 rule hRule =>
        exact isInbound_of_rule hColon hRule
    case h_2 => cases hParse
  · intro hEntry
    rw [rule_encodeInbound hEntry]
    exact ⟨_, rfl⟩

/- What is exported where the firewall is on. -/
theorem exported_rules
    {config : Config}
    (hEnabled : config.network.firewall.enabled = true)
    (hMode : config.network.mode ≠ .none) :
    constant (appEnvExports config) .firewallRules =
      bakedRules config := by
  have hAny : config.network.mode.hasAny = true := by
    cases hNetwork : config.network.mode with
    | none => exact absurd hNetwork hMode
    | _ => rfl
  rw [constant_appEnvExports]
  unfold bakedValue firewallEnabled
  rw [hEnabled, hAny]
  rfl

/-
  The guest serves, in order, the entries of a firewall that
  passes the host's check. An entry that does not pass, and
  has no separator in the wrong place, ends the boot.
-/
theorem firewall_agreement
    {config : Config}
    (hEnabled : config.network.firewall.enabled = true)
    (hMode : config.network.mode ≠ .none) :
    (config.validateFirewall = .ok () →
      ∃ rules,
        parseRules
            (constant (appEnvExports config)
              .firewallRules) =
          .ok rules ∧
        List.Forall₂ Serves config.network.firewall.inbound
          rules) ∧
      ∀ entry ∈ config.network.firewall.inbound,
        Config.validateInbound entry ≠ .ok () →
          ';' ∉ entry.proto → ';' ∉ entry.ports →
          ':' ∉ entry.proto →
          ∃ fatal,
            parseRules
                (constant (appEnvExports config)
                  .firewallRules) =
              .error fatal := by
  rw [exported_rules hEnabled hMode]
  constructor
  · intro hValid
    have hInbound :=
      Config.validateFirewall_eq_ok hValid hEnabled
    refine ⟨_, parseRules_bakedRules hInbound, ?_⟩
    rw [List.forall₂_map_right_iff, List.forall₂_same]
    intro entry hMem
    exact serves_inboundRule (hInbound entry hMem)
  · intro entry hMem hInvalid hProto hPorts hColon
    have hPart :
        encodeInbound entry ∈
          Text.entries ';' (bakedRules config) := by
      unfold bakedRules
      rw [Text.entries_join_eq_flatMap, List.mem_flatMap]
      refine ⟨encodeInbound entry,
        List.mem_map_of_mem hMem, ?_⟩
      rw [Text.entries_of_not_mem]
      · exact List.mem_singleton_self _
      · simp [encodeInbound, hProto, hPorts]
      · simp [encodeInbound]
    cases hParse : parseRules (bakedRules config) with
    | error fatal => exact ⟨fatal, rfl⟩
    | ok rules =>
        have hRule := exists_result_of_mapM hParse hPart
        rw [parseRule_encodeInbound_iff hColon] at hRule
        exact absurd hRule hInvalid

/- The default config's guest serves web traffic. -/
theorem firewall_agreement_casual :
    (∃ rules,
        parseRules
            (constant
              (appEnvExports (casualConfigWithFormats [.cpio]))
              .firewallRules) =
          .ok rules ∧
        List.Forall₂ Serves defaultFirewallInbound rules) := by
  have hMode :
      (casualConfigWithFormats [.cpio]).network.mode ≠ .none := by
    decide
  exact (firewall_agreement rfl hMode).1 rfl

end Agreement

end CargoUnikernel
