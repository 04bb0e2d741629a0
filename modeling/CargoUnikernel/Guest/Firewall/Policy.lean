import CargoUnikernel.Guest.Firewall.Batch
import Mathlib.Data.List.Forall2
import Mathlib.Tactic.Common

/-
  The packets the installed ruleset admits.

  The kernel decodes the batch to one chain whose rules are
  the fixed ones and one for each configured rule. Run over
  any packet, in any initial registers, the chain accepts
  what the policy admits and drops everything else.

  Main declarations:
    * `installed`, `commit_batch`
    * `Admits`
    * `decides_portFilter` and its siblings
    * `buildBatch_enforces_policy`
-/

------------------------------------------------------------
-- What the Kernel Decodes
------------------------------------------------------------

namespace CargoUnikernel

namespace Guest

namespace Firewall

open Netlink NfTables

/- The rules of the chain, as the kernel runs them. -/
def loopbackFilter : List Expr :=
  [.metaLoad .iifname 1, .cmp .eq 1 loName,
    .immediate .accept]

/- The connection's state has one of the bits. -/
def ctStateFilter (mask : UInt32) (verdict : Verdict) :
    List Expr :=
  [.ctState 1,
    .bitwise 1 1 4 (Bytes.ofNatLe 4 mask.toNat)
      (Bytes.ofNatLe 4 0),
    .cmp .neq 1 (Bytes.ofNatLe 4 0), .immediate verdict]

/- A message of one family, protocol and type. -/
def icmpFilter (family protocol icmpType : UInt8) :
    List Expr :=
  [.metaLoad .nfproto 1, .cmp .eq 1 [family],
    .metaLoad .l4proto 1, .cmp .eq 1 [protocol],
    .payload 1 0 1, .cmp .eq 1 [icmpType],
    .immediate .accept]

/- A port of one protocol, or a range of them. -/
def portFilter (rule : Rule) : List Expr :=
  [.metaLoad .l4proto 1, .cmp .eq 1 [rule.protocol],
    .payload 1 2 2,
    if rule.firstPort = rule.lastPort then
      .cmp .eq 1 (Bytes.ofNatBe 2 rule.firstPort.toNat)
    else
      .range 1 (Bytes.ofNatBe 2 rule.firstPort.toNat)
        (Bytes.ofNatBe 2 rule.lastPort.toNat),
    .immediate .accept]

/- The rules that come before the configured ones. -/
def fixedFilters : List (List Expr) :=
  [loopbackFilter,
    ctStateFilter (ctStateEstablished ||| ctStateRelated)
      .accept,
    ctStateFilter ctStateInvalid .drop] ++
  icmpv6AllowedTypes.map
    (icmpFilter nfprotoIpv6 ipprotoIcmpv6) ++
  [icmpFilter nfprotoIpv4 ipprotoIcmp icmpv4DestUnreach]

/- A configured rule decodes to its filter. -/
theorem decodeExprs_portExprs (rule : Rule) :
    decodeExprs (portExprs rule) =
      some (portFilter rule) := by
  unfold portExprs portFilter portTestAttr
  split <;> rfl

/- Each list of attributes decodes to its rule. -/
theorem decodeExprs_batch (rules : List Rule) :
    List.Forall₂
      (fun exprs filter => decodeExprs exprs = some filter)
      (fixedExprs ++ rules.map portExprs)
      (fixedFilters ++ rules.map portFilter) := by
  have hPorts :
      List.Forall₂
        (fun exprs filter => decodeExprs exprs = some filter)
        (rules.map portExprs) (rules.map portFilter) := by
    induction rules with
    | nil => exact .nil
    | cons rule rules ih =>
        exact .cons (decodeExprs_portExprs rule) ih
  have hIcmp :
      ∀ family protocol icmpType,
        decodeExprs (icmpExprs family protocol icmpType) =
          some (icmpFilter family protocol icmpType) :=
    fun _ _ _ => rfl
  simp only [fixedExprs, fixedFilters, icmpv6AllowedTypes,
    List.map_cons, List.map_nil, List.cons_append,
    List.nil_append]
  exact .cons rfl (.cons rfl (.cons rfl
    (.cons (hIcmp _ _ _) (.cons (hIcmp _ _ _)
    (.cons (hIcmp _ _ _) (.cons (hIcmp _ _ _)
    (.cons (hIcmp _ _ _) (.cons (hIcmp _ _ _)
    (.cons (hIcmp _ _ _) hPorts)))))))))

------------------------------------------------------------
-- The Installed Chain
------------------------------------------------------------

/- The chain's name among the kernel's chains. -/
def chainId (netIpv6 : Bool) : ChainId where
  family := tableFamily netIpv6
  table := tableName
  chain := chainName

/- A drop-policy chain on the local-in hook. -/
def inputChain (filters : List (List Expr)) : Chain where
  hook := nfInetLocalIn
  priority := filterPriority
  policy := .drop
  rules := filters

/- One table with that one chain. -/
def installed
    (netIpv6 : Bool) (filters : List (List Expr)) :
    Ruleset where
  tables := [(tableFamily netIpv6, tableName)]
  chains := [(chainId netIpv6, inputChain filters)]

/- A rule's message appends the rule it decodes to. -/
theorem apply_ruleDraft
    {netIpv6 : Bool} {exprs : List Attr} {filter : List Expr}
    (hDecode : decodeExprs exprs = some filter)
    (filters : List (List Expr)) (seq : UInt32) :
    (installed netIpv6 filters).apply
        ((ruleDraft netIpv6 exprs).message seq) =
      some (installed netIpv6 (filters ++ [filter])) := by
  let message := (ruleDraft netIpv6 exprs).message seq
  have hTable :
      (leaf? 1 message.attrs).map cString = some tableName :=
    rfl
  have hChain :
      (leaf? 2 message.attrs).map cString = some chainName :=
    rfl
  have hExprs :
      (nest? 4 message.attrs).bind decodeExprs =
        some filter :=
    hDecode
  have hAppend : (message.flags &&& appendFlag != 0) = true :=
    show
      ((nlmFRequest ||| nlmFAck ||| nlmFCreate |||
        nlmFAppend) &&& appendFlag != 0) = true
    by decide
  show newRule (installed netIpv6 filters) message = _
  simp only [newRule, hTable, hChain, hExprs, hAppend,
    Option.bind_eq_bind, Option.bind_some]
  simp [installed, chainId, inputChain, Chain.add,
    message, ruleDraft, Draft.message]

/- The rules' messages append their rules in order. -/
theorem applyAll_ruleDrafts
    (netIpv6 : Bool) {exprss : List (List Attr)}
    {rules : List (List Expr)}
    (hDecode :
      List.Forall₂
        (fun exprs filter => decodeExprs exprs = some filter)
        exprss rules)
    (filters : List (List Expr)) (seq : UInt32) :
    applyAll (installed netIpv6 filters)
        (numbered seq
          (exprss.map (ruleDraft netIpv6) ++
            [markerDraft nfnlMsgBatchEnd])) =
      some (installed netIpv6 (filters ++ rules)) := by
  induction hDecode generalizing filters seq with
  | nil =>
      rw [List.append_nil]
      rfl
  | @cons exprs filter exprss rules hRule _ ih =>
      have hType :
          ((ruleDraft netIpv6 exprs).message
            (tick seq)).type ≠ 17 :=
        show nftMsg nftMsgNewrule ≠ 17 by decide
      rw [List.map_cons, List.cons_append, numbered, applyAll,
        if_neg hType, apply_ruleDraft hRule, Option.bind_some,
        ih, List.append_assoc, List.singleton_append]

/- The batch makes the table, the chain and the rules. -/
theorem commit_batch (netIpv6 : Bool) (rules : List Rule) :
    commit (batchMessages netIpv6 rules) =
      some
        (installed netIpv6
          (fixedFilters ++ rules.map portFilter)) := by
  have hTable :
      ∀ seq,
        Ruleset.empty.apply
            ((tableDraft netIpv6).message seq) =
          some
            { tables := [(tableFamily netIpv6, tableName)]
              chains := [] } :=
    fun _ => rfl
  have hChain :
      ∀ seq,
        Ruleset.apply
            { tables := [(tableFamily netIpv6, tableName)]
              chains := [] }
            ((chainDraft netIpv6).message seq) =
          some (installed netIpv6 []) := by
    intro seq
    cases netIpv6 <;> rfl
  have hRules := applyAll_ruleDrafts netIpv6
    (decodeExprs_batch rules) []
  let begun := tick 0
  let tabled := tick begun
  let chained := tick tabled
  have hBatch :
      batchMessages netIpv6 rules =
        (markerDraft nfnlMsgBatchBegin).message begun ::
          (tableDraft netIpv6).message tabled ::
          (chainDraft netIpv6).message chained ::
          numbered chained
            ((fixedExprs ++ rules.map portExprs).map
                (ruleDraft netIpv6) ++
              [markerDraft nfnlMsgBatchEnd]) := rfl
  have hMarker :
      ((markerDraft nfnlMsgBatchBegin).message begun).type =
          16 ∧
        ((markerDraft nfnlMsgBatchBegin).message
          begun).resId = 10 :=
    ⟨rfl, rfl⟩
  have hNotEnd :
      ((tableDraft netIpv6).message tabled).type ≠ 17 ∧
        ((chainDraft netIpv6).message chained).type ≠ 17 :=
    show
      nftMsg nftMsgNewtable ≠ 17 ∧
        nftMsg nftMsgNewchain ≠ 17
    by decide
  rw [hBatch, commit, if_pos hMarker, applyAll,
    if_neg hNotEnd.1, hTable, Option.bind_some, applyAll,
    if_neg hNotEnd.2, hChain, Option.bind_some, hRules,
    List.nil_append]

------------------------------------------------------------
-- The Policy
------------------------------------------------------------

/- The connection's state has some of these bits. -/
def HasState (packet : Packet) (bits : UInt32) : Prop :=
  packet.ctState &&& bits ≠ 0

/- The type of an ICMP message, the first byte of it. -/
def icmpType (packet : Packet) : Option UInt8 :=
  packet.transport.head?

/- The destination port, the second halfword of the header. -/
def destinationPort (packet : Packet) : Option Nat :=
  match packet.transport with
  | _ :: _ :: high :: low :: _ =>
      some (high.toNat * 256 + low.toNat)
  | _ => none

/- An ICMP message of one family, protocol and type. -/
def IsIcmp
    (packet : Packet)
    (family protocol type : UInt8) : Prop :=
  packet.nfproto = family ∧ packet.l4proto = protocol ∧
    icmpType packet = some type

/- The port lies in the rule's range. -/
def InRange (rule : Rule) (packet : Packet) : Prop :=
  ∃ port,
    destinationPort packet = some port ∧
      rule.firstPort.toNat ≤ port ∧
      port ≤ rule.lastPort.toNat

/- The packet is for a port the rule opens. -/
def Opens (rule : Rule) (packet : Packet) : Prop :=
  packet.l4proto = rule.protocol ∧ InRange rule packet

/-
  What the guest answers to: itself, the connections it has
  opened (`established` is bit 2, `related` bit 4), and,
  unless conntrack finds the packet `invalid` (bit 1), the
  ICMPv6 and ICMP messages IP does not work without and the
  ports that were configured.
-/
def Admits (rules : List Rule) (packet : Packet) : Prop :=
  packet.iifname.bytes = ascii "lo" ∨
    (HasState packet 2 ∨ HasState packet 4) ∨
    (¬ HasState packet 1 ∧
      ((∃ type ∈ [2, 130, 133, 134, 135, 136],
          IsIcmp packet 10 58 type) ∨
        IsIcmp packet 2 1 3 ∨
        ∃ rule ∈ rules, Opens rule packet))

------------------------------------------------------------
-- What Each Rule Decides
------------------------------------------------------------

/- Strings of one length compare equal if they are. -/
theorem holds_eq_iff
    {a b : List UInt8} (hLength : a.length = b.length) :
    CmpOp.eq.holds (Bytes.memcmp a b) = true ↔ a = b := by
  simp [CmpOp.holds, Bytes.memcmp_eq_eq_iff hLength]

/- Two padded interface names agree only if the names do. -/
theorem padded_eq_iff (name : IfName) :
    name.bytes ++ List.replicate (16 - name.bytes.length) 0 =
        loName ↔
      name.bytes = ascii "lo" := by
  constructor
  · intro hPadded
    have hName :
        cString
            (name.bytes ++
              List.replicate (16 - name.bytes.length) 0) =
          name.bytes := by
      have hShort := name.short
      obtain ⟨n, hPad⟩ :
          ∃ n, 16 - name.bytes.length = n + 1 :=
        ⟨15 - name.bytes.length, by omega⟩
      have hAll :
          ∀ byte ∈ name.bytes, (byte != 0) = true := by
        intro byte hByte
        rw [bne_iff_ne]
        rintro rfl
        exact name.noNul hByte
      rw [hPad, List.replicate_succ, cString,
        List.takeWhile_append_of_pos hAll]
      simp
    rw [← hName, hPadded]
    rfl
  · intro hName
    rw [hName]
    rfl

/- What each of the filters decides. -/
theorem decides_loopbackFilter (packet : Packet) :
    Decides packet loopbackFilter
      (packet.iifname.bytes = ascii "lo") .accept := by
  have hShort := packet.iifname.short
  have hLength :
      (packet.metaValue .iifname).length = loName.length := by
    show (_ ++ List.replicate _ _).length = 16
    rw [List.length_append, List.length_replicate]
    omega
  have hRule :=
    (decides_immediate packet .accept).metaCmp .iifname .eq
      loName hLength.symm.le
  refine hRule.congr ?_
  rw [List.take_of_length_le hLength.le,
    holds_eq_iff hLength, and_true]
  exact padded_eq_iff packet.iifname

/- Some bit of the mask is set. -/
theorem decides_ctStateFilter
    (packet : Packet) (mask : UInt32) (verdict : Verdict) :
    Decides packet (ctStateFilter mask verdict)
      (HasState packet mask) verdict := by
  have hRule :=
    (decides_immediate packet verdict).ctMask
      (Bytes.length_ofNatLe 4 mask.toNat)
      (Bytes.length_ofNatLe 4 0) (Bytes.length_ofNatLe 4 0)
  refine hRule.congr ?_
  rw [masked_ne_zero_iff, and_true]
  rfl

/- A one-byte field compared with a byte. -/
theorem holds_fillWords (a b : UInt8) :
    CmpOp.eq.holds
          (Bytes.memcmp ((fillWords [a]).take 1) [b]) =
        true ↔
      a = b := by
  have hRead : (fillWords [a]).take 1 = [a] := rfl
  have hLength : [a].length = [b].length := rfl
  rw [hRead, holds_eq_iff hLength, List.singleton_inj]

/- Loading a one-byte field and comparing it with a byte. -/
theorem decides_byteField
    {packet : Packet} {rest : List Expr} {c : Prop}
    {verdict : Verdict} {key : MetaKey} {field : UInt8}
    (hRule : Decides packet rest c verdict)
    (hField : packet.metaValue key = fillWords [field])
    (value : UInt8) :
    Decides packet
      (.metaLoad key 1 :: .cmp .eq 1 [value] :: rest)
      (field = value ∧ c) verdict := by
  have hLength :
      [value].length ≤ (packet.metaValue key).length := by
    rw [hField, fillWords, List.length_append]
    exact Nat.le_add_right 1 _
  refine (hRule.metaCmp key .eq [value] hLength).congr ?_
  rw [hField, List.length_singleton, holds_fillWords]

/- The type is the first byte that is loaded. -/
theorem load_icmpType (packet : Packet) (type : UInt8) :
    packet.load 0 1 = some [type] ↔
      icmpType packet = some type := by
  cases hBytes : packet.transport with
  | nil => simp [Packet.load, icmpType, hBytes]
  | cons byte bytes =>
      simp [Packet.load, icmpType, hBytes]

/- Family, protocol and type are all as given. -/
theorem decides_icmpFilter
    (packet : Packet) (family protocol type : UInt8) :
    Decides packet (icmpFilter family protocol type)
      (IsIcmp packet family protocol type) .accept := by
  have hType :=
    (decides_immediate packet .accept).payloadCmp 0 [type]
  have hProtocol := decides_byteField hType
    (show packet.metaValue .l4proto = _ from rfl) protocol
  have hFamily := decides_byteField hProtocol
    (show packet.metaValue .nfproto = _ from rfl) family
  refine hFamily.congr ?_
  rw [List.length_singleton, load_icmpType, and_true]
  rfl

/- The bytes of the port field, as a number. -/
theorem load_destinationPort (packet : Packet) :
    (∀ bytes, packet.load 2 2 = some bytes →
        destinationPort packet =
          some (Bytes.toNatBe bytes)) ∧
      (packet.load 2 2 = none →
        destinationPort packet = none) := by
  match hBytes : packet.transport with
  | [] | [_] | [_, _] | [_, _, _] =>
      simp [Packet.load, destinationPort, hBytes]
  | _ :: _ :: high :: low :: rest =>
      constructor
      · intro bytes hLoad
        have hPair : bytes = [high, low] := by
          simpa [Packet.load, hBytes, eq_comm] using hLoad
        simp [destinationPort, hBytes, hPair, Bytes.toNatBe,
          Bytes.toNatLe]
        omega
      · simp [Packet.load, hBytes]

/- Two bytes are enough for a port. -/
theorem toNatBe_port (port : UInt16) :
    Bytes.toNatBe (Bytes.ofNatBe 2 port.toNat) =
      port.toNat := by
  have hBound := port.toNat_lt
  exact Bytes.toNatBe_ofNatBe (by omega)

/- One port is a range of one. -/
theorem load_port_iff
    (packet : Packet) {rule : Rule}
    (hSame : rule.firstPort = rule.lastPort) :
    packet.load 2 2 =
        some (Bytes.ofNatBe 2 rule.firstPort.toNat) ↔
      InRange rule packet := by
  unfold InRange
  rw [← hSame]
  rcases load_destinationPort packet with ⟨hSome, hNone⟩
  cases hLoad : packet.load 2 2 with
  | none => simp [hNone hLoad]
  | some bytes =>
      have hLength := Packet.length_of_load hLoad
      rw [hSome bytes hLoad, Option.some.injEq]
      constructor
      · intro hBytes
        rw [hBytes, toNatBe_port]
        exact ⟨_, rfl, le_refl _, le_refl _⟩
      · rintro ⟨port, hPort, hFirst, hLast⟩
        cases hPort
        refine Bytes.toNatBe_inj (by simp [hLength]) ?_
        rw [toNatBe_port]
        omega

/- A range test reads the port as a number. -/
theorem load_range_iff (packet : Packet) (rule : Rule) :
    (∃ bytes,
        packet.load 2 2 = some bytes ∧
          rule.firstPort.toNat ≤ Bytes.toNatBe bytes ∧
          Bytes.toNatBe bytes ≤ rule.lastPort.toNat) ↔
      InRange rule packet := by
  unfold InRange
  rcases load_destinationPort packet with ⟨hSome, hNone⟩
  cases hLoad : packet.load 2 2 with
  | none => simp [hNone hLoad]
  | some bytes => simp [hSome bytes hLoad]

/- One port or a range, for one protocol. -/
theorem decides_portFilter
    (packet : Packet) (rule : Rule) :
    Decides packet (portFilter rule)
      (Opens rule packet) .accept := by
  have hAccept := decides_immediate packet .accept
  have hProto :
      packet.metaValue .l4proto =
        fillWords [packet.l4proto] := rfl
  unfold portFilter
  split
  case isTrue hSame =>
      have hTest := hAccept.payloadCmp 2
        (Bytes.ofNatBe 2 rule.firstPort.toNat)
      rw [Bytes.length_ofNatBe, load_port_iff packet hSame,
        and_true] at hTest
      exact decides_byteField hTest hProto rule.protocol
  case isFalse =>
      have hTest := hAccept.payloadRange 2
        (Bytes.ofNatBe 2 rule.firstPort.toNat)
        (Bytes.ofNatBe 2 rule.lastPort.toNat)
        (by rw [Bytes.length_ofNatBe, Bytes.length_ofNatBe])
      rw [Bytes.length_ofNatBe, and_true, toNatBe_port,
        toNatBe_port, load_range_iff packet] at hTest
      exact decides_byteField hTest hProto rule.protocol

------------------------------------------------------------
-- What the Chain Decides
------------------------------------------------------------

/- What the rules that follow the state tests accept. -/
def services (rules : List Rule) (packet : Packet) :
    List Prop :=
  icmpv6AllowedTypes.map
      (IsIcmp packet nfprotoIpv6 ipprotoIcmpv6) ++
    [IsIcmp packet nfprotoIpv4 ipprotoIcmp
      icmpv4DestUnreach] ++
    rules.map fun rule => Opens rule packet

/- What each rule of the chain decides, in order. -/
def decisions (rules : List Rule) (packet : Packet) :
    List (Prop × Verdict) :=
  [(packet.iifname.bytes = ascii "lo", .accept),
    (HasState packet (ctStateEstablished ||| ctStateRelated),
      .accept),
    (HasState packet ctStateInvalid, .drop)] ++
  (services rules packet).map fun c => (c, .accept)

/- Filters of one kind decide conditions of one kind. -/
theorem decides_map
    {α : Type} {packet : Packet}
    {filter : α → List Expr} {condition : α → Prop}
    (hDecide :
      ∀ a, Decides packet (filter a) (condition a) .accept)
    (items : List α) :
    List.Forall₂
      (fun filter decision =>
        Decides packet filter decision.1 decision.2)
      (items.map filter)
      (items.map fun a => (condition a, Verdict.accept)) := by
  rw [List.forall₂_map_left_iff, List.forall₂_map_right_iff,
    List.forall₂_same]
  intro a _
  exact hDecide a

/- The filters in a row, each with its decision. -/
theorem decides_filters
    (rules : List Rule) (packet : Packet) :
    List.Forall₂
      (fun filter decision =>
        Decides packet filter decision.1 decision.2)
      (fixedFilters ++ rules.map portFilter)
      (decisions rules packet) := by
  have hIcmpv6 := decides_map
    (decides_icmpFilter packet nfprotoIpv6 ipprotoIcmpv6)
    icmpv6AllowedTypes
  have hIcmp := decides_map
    (decides_icmpFilter packet nfprotoIpv4 ipprotoIcmp)
    [icmpv4DestUnreach]
  have hPorts := decides_map (decides_portFilter packet) rules
  have hServices :=
    List.rel_append (List.rel_append hIcmpv6 hIcmp) hPorts
  simp only [List.map_cons, List.map_nil] at hIcmp
  refine
    .cons (decides_loopbackFilter packet)
      (.cons (decides_ctStateFilter packet _ .accept)
        (.cons (decides_ctStateFilter packet _ .drop) ?_))
  rw [services, List.map_append, List.map_append,
    List.map_map, List.map_map]
  exact hServices

/- Two bits at once are the one or the other. -/
theorem hasState_or_iff (packet : Packet) (a b : UInt32) :
    HasState packet (a ||| b) ↔
      HasState packet a ∨ HasState packet b := by
  have hSpread :
      packet.ctState &&& (a ||| b) =
        packet.ctState &&& a ||| packet.ctState &&& b :=
    UInt32.toBitVec_inj.1 BitVec.and_or_distrib_left
  unfold HasState
  rw [hSpread, ne_eq, UInt32.or_eq_zero_iff, not_and_or]

/- A test is only reached where those before it fail. -/
theorem first_match_iff (a b c : Prop) :
    a ∨ ¬ a ∧ (b ∨ ¬ b ∧ c) ↔ a ∨ b ∨ c := by
  by_cases hA : a
  · simp only [hA, true_or]
  · by_cases hB : b
    · simp only [hA, hB, not_false_iff, true_and, true_or]
    · simp only [hA, hB, not_false_iff, true_and, false_or]

/- The conditions in a row are the policy. -/
theorem accepts_decisions_iff
    (rules : List Rule) (packet : Packet) :
    Accepts .drop (decisions rules packet) ↔
      Admits rules packet := by
  have hServices :=
    accepts_append .drop (services rules packet) []
  have hNone : ¬ Accepts .drop [] := Verdict.noConfusion
  rw [List.append_nil, or_iff_left hNone] at hServices
  have hMembers :
      (∃ c ∈ services rules packet, c) ↔
        (∃ type ∈ [2, 130, 133, 134, 135, 136],
            IsIcmp packet 10 58 type) ∨
          IsIcmp packet 2 1 3 ∨
          ∃ rule ∈ rules, Opens rule packet := by
    simp only [services, List.mem_append, List.mem_map,
      List.mem_singleton, or_and_right, exists_or,
      exists_eq_left, exists_exists_and_eq_and, or_assoc]
    rfl
  have hRelated := hasState_or_iff packet ctStateEstablished
    ctStateRelated
  simp only [decisions, List.cons_append, List.nil_append,
    Accepts, hServices, hMembers, hRelated, and_true,
    reduceCtorEq, and_false, false_or]
  exact first_match_iff _ _ _

/- There is no third verdict. -/
theorem eq_drop_iff (verdict : Verdict) :
    verdict = .drop ↔ ¬ verdict = .accept := by
  cases verdict <;> simp

/-
  The kernel decodes every batch to a single chain on the
  local-in hook. It accepts the packets the policy admits
  and drops every other packet, whatever the registers held.
-/
theorem buildBatch_enforces_policy
    (netIpv6 : Bool) (rules : List Rule) :
    ∃ batch messages ruleset id chain,
      buildBatch netIpv6 rules = .ok batch ∧
        decodeMessages batch.bytes = some messages ∧
        commit messages = some ruleset ∧
        ruleset.chains = [(id, chain)] ∧
        chain.hook = nfInetLocalIn ∧
        ∀ packet regs,
          (chain.verdict packet regs = .accept ↔
              Admits rules packet) ∧
            (chain.verdict packet regs = .drop ↔
              ¬ Admits rules packet) := by
  refine
    ⟨_, _, _, _, _, buildBatch_eq_ok netIpv6 rules,
      decodeMessages_batch netIpv6 rules,
      commit_batch netIpv6 rules, rfl, rfl, ?_⟩
  intro packet regs
  have hAccept :
      (inputChain
            (fixedFilters ++ rules.map portFilter)).verdict
          packet regs =
        .accept ↔
        Admits rules packet := by
    rw [← accepts_decisions_iff]
    exact runRules_eq_accept_iff (decides_filters rules packet)
      regs
  refine ⟨hAccept, ?_⟩
  rw [← hAccept]
  exact eq_drop_iff _

/- The first interface that is not the loopback. -/
def eth0 : IfName where
  bytes := ascii "eth0"
  short := by decide
  noNul := by decide

/- A TCP segment of a new connection, from port 50000. -/
def segmentTo (high low : UInt8) : Packet where
  iifname := eth0
  ctState := 8
  nfproto := nfprotoIpv4
  l4proto := 6
  transport := [195, 80, high, low]

/- A guest that serves port 443 hears that and no other. -/
example :
    let chain :=
      inputChain
        (fixedFilters ++ [portFilter ⟨6, 443, 443⟩])
    chain.verdict (segmentTo 1 187) (fun _ => []) =
        .accept ∧
      chain.verdict (segmentTo 0 22) (fun _ => []) =
        .drop := by
  decide

end Firewall

end Guest

end CargoUnikernel
