import CargoUnikernel.Guest.Firewall.Batch

/-
  The batch as a stream of netlink messages.

  The bytes are exactly the encoding of the messages they
  decode to: the markers, the table, the chain, the fixed
  rules and one rule for each configured one. The messages
  are numbered from one on, and those between the markers
  are the ones that are acknowledged.

  Main declarations:
    * `Message.draft`, `asksAck`, `isMarker`
    * `seqs_numbered`, `lastSeq_eq`
    * `Framed`, `buildBatch_framed`
-/

------------------------------------------------------------
-- Numbers
------------------------------------------------------------

namespace CargoUnikernel

namespace Guest

namespace Firewall

open Netlink

/- A message without its number. -/
def draftOf (message : Message) : Draft where
  type := message.type
  flags := message.flags
  family := message.family
  resId := message.resId
  attrs := message.attrs

/- The numbers can be taken away again. -/
theorem draftOf_numbered (seq : UInt32) (drafts : List Draft) :
    (numbered seq drafts).map draftOf = drafts := by
  induction drafts generalizing seq with
  | nil => rfl
  | cons draft drafts ih =>
      rw [numbered, List.map_cons, ih]
      rfl

/- Below the last number, the counter goes up by one. -/
theorem toNat_tick
    {seq : UInt32} (hRoom : seq.toNat + 1 < 2 ^ 32) :
    (tick seq).toNat = seq.toNat + 1 := by
  unfold tick
  rw [if_pos hRoom, UInt32.toNat_add]
  exact Nat.mod_eq_of_lt hRoom

/- The numbers go on without a gap, while there are any. -/
theorem seqs_numbered
    {seq : UInt32} {drafts : List Draft}
    (hRoom : seq.toNat + drafts.length < 2 ^ 32) :
    (numbered seq drafts).map (fun message =>
        message.seq.toNat) =
      List.range' (seq.toNat + 1) drafts.length := by
  induction drafts generalizing seq with
  | nil => rfl
  | cons draft drafts ih =>
      rw [List.length_cons] at hRoom
      have hTick : (tick seq).toNat = seq.toNat + 1 :=
        toNat_tick (by omega)
      rw [numbered, List.map_cons, ih (by omega),
        List.length_cons, List.range'_succ, hTick]
      congr 1

/- As long as the numbers do not wrap around. -/
theorem lastSeq_eq
    {seq : UInt32} {drafts : List Draft}
    (hRoom : seq.toNat + drafts.length < 2 ^ 32) :
    (lastSeq seq drafts).toNat =
      seq.toNat + drafts.length := by
  induction drafts generalizing seq with
  | nil => rfl
  | cons draft drafts ih =>
      rw [List.length_cons] at hRoom
      have hTick : (tick seq).toNat = seq.toNat + 1 :=
        toNat_tick (by omega)
      rw [lastSeq, ih (by omega), hTick, List.length_cons]
      omega

/- Two markers, the table, the chain, ten fixed rules. -/
theorem length_batchDrafts
    (netIpv6 : Bool) (rules : List Rule) :
    (batchDrafts netIpv6 rules).length =
      rules.length + 14 := by
  simp only [batchDrafts, fixedExprs, icmpv6AllowedTypes,
    List.length_append, List.length_map, List.length_cons,
    List.length_nil]
  omega

------------------------------------------------------------
-- Acknowledgements
------------------------------------------------------------

/- The flags ask for an acknowledgement. -/
def hasAck (flags : UInt16) : Bool :=
  flags &&& nlmFAck != 0

/- The kernel is to acknowledge the message. -/
def asksAck (message : Message) : Bool :=
  hasAck message.flags

/- The message begins or ends the batch. -/
def isMarker (message : Message) : Prop :=
  message.type = nfnlMsgBatchBegin ∨
    message.type = nfnlMsgBatchEnd

/- A draft asks for an answer exactly when it is no marker. -/
def Draft.acked (draft : Draft) : Bool :=
  hasAck draft.flags

/- Only what is in between asks for an answer. -/
theorem acked_marker (type : UInt16) :
    (markerDraft type).acked = false := by
  change hasAck nlmFRequest = false
  decide

theorem acked_table (netIpv6 : Bool) :
    (tableDraft netIpv6).acked = true := by
  change hasAck
    (nlmFRequest ||| nlmFAck ||| nlmFCreate ||| nlmFExcl) =
      true
  decide

theorem acked_chain (netIpv6 : Bool) :
    (chainDraft netIpv6).acked = true :=
  acked_table netIpv6

theorem acked_rule (netIpv6 : Bool) (exprs : List Attr) :
    (ruleDraft netIpv6 exprs).acked = true := by
  change hasAck
    (nlmFRequest ||| nlmFAck ||| nlmFCreate |||
      nlmFAppend) = true
  decide

/- Of a batch, the markers alone do not. -/
theorem acked_iff_of_mem
    {netIpv6 : Bool} {rules : List Rule} {draft : Draft}
    (hMem : draft ∈ batchDrafts netIpv6 rules) :
    draft.acked = false ↔
      draft.type = nfnlMsgBatchBegin ∨
        draft.type = nfnlMsgBatchEnd := by
  simp only [batchDrafts, List.mem_append, List.mem_cons,
    List.mem_map, List.not_mem_nil, or_false] at hMem
  rcases hMem with
    ((rfl | rfl | rfl) | ⟨exprs, _, rfl⟩) | rfl
  · rw [acked_marker]
    simp [markerDraft]
  · rw [acked_table]
    simp only [tableDraft]
    decide
  · rw [acked_chain]
    simp only [chainDraft]
    decide
  · rw [acked_rule]
    simp only [ruleDraft]
    decide
  · rw [acked_marker]
    simp [markerDraft]

/- All messages but the two markers. -/
theorem countP_acked
    (netIpv6 : Bool) (rules : List Rule) :
    (batchDrafts netIpv6 rules).countP Draft.acked =
      rules.length + 12 := by
  have hRules : ∀ exprs : List (List Attr),
      (exprs.map (ruleDraft netIpv6)).countP Draft.acked =
        exprs.length := by
    intro exprs
    rw [List.countP_map, List.countP_eq_length]
    intro expressions _
    exact acked_rule netIpv6 expressions
  have hFixed : fixedExprs.length = 10 := rfl
  simp only [batchDrafts, List.countP_append, hRules,
    List.countP_cons, List.countP_nil, acked_marker,
    acked_table, acked_chain, List.length_append,
    List.length_map, hFixed]
  simp only [Bool.false_eq_true, if_false, if_true]
  omega

------------------------------------------------------------
-- The Stream
------------------------------------------------------------

/- What the bytes of a batch are, read as netlink. -/
structure Framed
    (netIpv6 : Bool) (rules : List Rule)
    (batch : Batch) (messages : List Message) : Prop where
  decoded : decodeMessages batch.bytes = some messages
  exact : encodeMessages messages = batch.bytes
  aligned : ∀ message ∈ messages, 4 ∣ message.encode.length
  covered : ∀ message ∈ messages, message.fits = true
  contents :
    messages.map draftOf =
      [markerDraft nfnlMsgBatchBegin, tableDraft netIpv6,
        chainDraft netIpv6] ++
      fixedExprs.map (ruleDraft netIpv6) ++
      rules.map
        (fun rule => ruleDraft netIpv6 (portExprs rule)) ++
      [markerDraft nfnlMsgBatchEnd]
  fixed : fixedExprs.length = 10
  policy :
    be32 nftaChainPolicy nfDrop ∈ (chainDraft netIpv6).attrs
  hook :
    .nest nftaChainHook
        [be32 nftaHookHooknum nfInetLocalIn,
          be32 nftaHookPriority filterPriority] ∈
      (chainDraft netIpv6).attrs
  numbers :
    messages.map (fun message => message.seq.toNat) =
      List.range' 1 (rules.length + 14)
  acks :
    ∀ message ∈ messages,
      asksAck message = false ↔ isMarker message
  counted : batch.ackable = messages.countP asksAck

/- Fewer rules than numbers make a well-formed batch. -/
theorem buildBatch_framed
    (netIpv6 : Bool) (rules : List Rule)
    (hCount : rules.length < 2 ^ 32 - 20) :
    ∃ batch messages,
      buildBatch netIpv6 rules = .ok batch ∧
        Framed netIpv6 rules batch messages := by
  have hDrafts := length_batchDrafts netIpv6 rules
  have hRoom :
      (0 : UInt32).toNat +
          (batchDrafts netIpv6 rules).length <
        2 ^ 32 := by
    rw [hDrafts]
    change 0 + (rules.length + 14) < 2 ^ 32
    omega
  have hLast := lastSeq_eq hRoom
  have hContents :=
    draftOf_numbered 0 (batchDrafts netIpv6 rules)
  have hCounted :
      (numbered 0 (batchDrafts netIpv6 rules)).countP
          asksAck =
        rules.length + 12 := by
    rw [← countP_acked netIpv6 rules, ← hContents,
      List.countP_map, hContents]
    rfl
  refine ⟨_, batchMessages netIpv6 rules,
    buildBatch_eq_ok netIpv6 rules, ?_⟩
  constructor
  case decoded => exact decodeMessages_batch netIpv6 rules
  case exact => rfl
  case aligned =>
      intro message _
      exact message.four_dvd_length_encode
  case covered =>
      apply fits_numbered
      exact fits_of_emits (emits_batchEmitters netIpv6 rules)
  case contents =>
      unfold batchMessages
      rw [hContents]
      simp only [batchDrafts, List.map_append, List.map_map,
        Function.comp_def, List.append_assoc]
  case fixed => rfl
  case policy => simp [chainDraft]
  case hook => simp [chainDraft]
  case numbers =>
      unfold batchMessages
      rw [seqs_numbered hRoom, hDrafts]
      rfl
  case acks =>
      intro message hMem
      have hDraft :
          draftOf message ∈ batchDrafts netIpv6 rules := by
        rw [← hContents]
        exact List.mem_map_of_mem hMem
      exact acked_iff_of_mem hDraft
  case counted =>
      unfold batchMessages
      rw [hCounted, hLast, hDrafts]
      change 0 + (rules.length + 14) - 2 = rules.length + 12
      omega

/- The batch of a guest that serves one port. -/
theorem buildBatch_framed_https :
    ∃ batch messages,
      buildBatch true [⟨ipprotoTcp, 443, 443⟩] = .ok batch ∧
        Framed true [⟨ipprotoTcp, 443, 443⟩] batch
          messages := by
  apply buildBatch_framed
  simp

end Firewall

end Guest

end CargoUnikernel
