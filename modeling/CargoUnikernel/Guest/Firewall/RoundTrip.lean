import CargoUnikernel.Guest.Firewall.NlBuf

/-
  Any attribute tree through the buffer and back.

  Whatever the lengths are, what was there before stays, and
  whole words are appended. The buffer overflows exactly when
  a length does not fit, and else the tree is read back.

  Main declarations:
    * `Appends`
    * `emit_appends`, `emitAll_appends`
    * `message_appends`
    * `attribute_trees_round_trip`
-/

------------------------------------------------------------
-- Patched Lengths
------------------------------------------------------------

namespace CargoUnikernel

namespace Guest

namespace Firewall

namespace NlBuf

open Netlink

/-
  Bytes were appended, whole words of them, and the buffer has
  overflowed if it had before or something was too long.
-/
structure Appends
    (buf out : NlBuf) (tail : List UInt8) (long : Prop) :
    Prop where
  bytes : out.bytes = buf.bytes ++ tail
  aligned : 4 ∣ tail.length
  overflowed :
    out.overflowed = true ↔ buf.overflowed = true ∨ long

/- The bytes over which others are written are replaced. -/
theorem bytes_overwrite
    {mid : NlBuf} {front old new rest : List UInt8}
    (hMid : mid.bytes = front ++ (old ++ rest))
    (hLength : old.length = new.length) :
    (mid.overwrite front.length new).bytes =
      front ++ (new ++ rest) := by
  have hDrop :
      (front ++ (old ++ rest)).drop
          (front.length + new.length) =
        rest := by
    rw [← hLength, ← List.append_assoc,
      ← List.length_append, List.drop_left]
  unfold overwrite
  rw [hMid, List.take_left, hDrop, List.append_assoc]

/- What is put to aligned bytes is aligned. -/
theorem pad_of_bytes
    {mid : NlBuf} {front tail : List UInt8}
    (hMid : mid.bytes = front ++ tail)
    (hFront : 4 ∣ front.length) (hTail : 4 ∣ tail.length) :
    mid.pad = mid := by
  apply pad_of_dvd
  rw [hMid, List.length_append]
  exact Nat.dvd_add hFront hTail

/- A length is written over zeros, or else it is too long. -/
theorem patched_appends
    {mid : NlBuf} {front rest : List UInt8}
    {width limit value : Nat}
    (hMid :
      mid.bytes =
        front ++ (Bytes.ofNatLe width 0 ++ rest)) :
    let patched :=
      if value < limit then
        if front.length + width ≤ mid.bytes.length then
          mid.overwrite front.length (Bytes.ofNatLe width value)
        else
          mid.overflow
      else
        mid.overflow
    ∃ lead,
      patched.bytes = front ++ (lead ++ rest) ∧
        lead.length = width ∧
        (patched.overflowed = true ↔
          mid.overflowed = true ∨ limit ≤ value) ∧
        (value < limit → lead = Bytes.ofNatLe width value) := by
  have hRoom : front.length + width ≤ mid.bytes.length := by
    simp only [hMid, List.length_append, Bytes.length_ofNatLe]
    omega
  dsimp only
  by_cases hShort : value < limit
  · rw [if_pos hShort, if_pos hRoom]
    refine ⟨_, bytes_overwrite hMid ?_, ?_, ?_, fun _ => rfl⟩
    · rw [Bytes.length_ofNatLe, Bytes.length_ofNatLe]
    · rw [Bytes.length_ofNatLe]
    · constructor
      · intro hOverflowed
        exact .inl hOverflowed
      · intro hEither
        rcases hEither with hOverflowed | hLong
        · exact hOverflowed
        · omega
  · rw [if_neg hShort]
    refine ⟨_, hMid, Bytes.length_ofNatLe width 0, ?_, ?_⟩
    · constructor
      · intro _
        right
        omega
      · intro _
        rfl
    · intro hLess
      omega

/- The end of a nested attribute writes how long it was. -/
theorem endNested_appends
    {mid : NlBuf} {front type content : List UInt8}
    (hFront : 4 ∣ front.length)
    (hType : type.length = 2) (hContent : 4 ∣ content.length)
    (hMid :
      mid.bytes =
        front ++ (Bytes.ofNatLe 2 0 ++ (type ++ content))) :
    ∃ lead,
      (mid.endNested front.length).bytes =
          front ++ (lead ++ (type ++ content)) ∧
        lead.length = 2 ∧
        ((mid.endNested front.length).overflowed = true ↔
          mid.overflowed = true ∨
            2 ^ 16 ≤ 4 + content.length) ∧
        (4 + content.length < 2 ^ 16 →
          lead = Bytes.ofNatLe 2 (4 + content.length)) := by
  have hTail :
      4 ∣
        (Bytes.ofNatLe 2 0 ++ (type ++ content)).length := by
    simp only [List.length_append, Bytes.length_ofNatLe, hType]
    omega
  have hValue :
      mid.bytes.length - front.length =
        4 + content.length := by
    simp only [hMid, List.length_append,
      Bytes.length_ofNatLe, hType]
    omega
  unfold endNested
  rw [pad_of_bytes hMid hFront hTail]
  dsimp only
  rw [hValue]
  exact patched_appends hMid

/- The end of a message does the same, with a wider length. -/
theorem endMsg_appends
    {mid : NlBuf} {front body : List UInt8}
    (hFront : 4 ∣ front.length) (hBody : 4 ∣ body.length)
    (hMid :
      mid.bytes = front ++ (Bytes.ofNatLe 4 0 ++ body)) :
    ∃ lead,
      (mid.endMsg front.length).bytes =
          front ++ (lead ++ body) ∧
        lead.length = 4 ∧
        ((mid.endMsg front.length).overflowed = true ↔
          mid.overflowed = true ∨
            2 ^ 32 ≤ 4 + body.length) ∧
        (4 + body.length < 2 ^ 32 →
          lead = Bytes.ofNatLe 4 (4 + body.length)) := by
  have hTail : 4 ∣ (Bytes.ofNatLe 4 0 ++ body).length := by
    simp only [List.length_append, Bytes.length_ofNatLe]
    omega
  have hValue :
      mid.bytes.length - front.length = 4 + body.length := by
    simp only [hMid, List.length_append,
      Bytes.length_ofNatLe]
    omega
  unfold endMsg
  rw [pad_of_bytes hMid hFront hTail]
  dsimp only
  rw [hValue]
  exact patched_appends hMid

------------------------------------------------------------
-- Any Tree
------------------------------------------------------------

/- Some length of the attributes does not fit 16 bits. -/
def TooLong (lengths : List Nat) : Prop :=
  ∃ n ∈ lengths, 65535 < n

/- A length of either part. -/
theorem tooLong_append (first second : List Nat) :
    TooLong (first ++ second) ↔
      TooLong first ∨ TooLong second := by
  unfold TooLong
  simp only [List.mem_append, or_and_right, exists_or]

theorem tooLong_cons (n : Nat) (lengths : List Nat) :
    TooLong (n :: lengths) ↔ 65535 < n ∨ TooLong lengths := by
  unfold TooLong
  constructor
  · intro hSome
    rcases hSome with ⟨m, hMem, hLong⟩
    rcases List.mem_cons.1 hMem with rfl | hMem
    · exact .inl hLong
    · exact .inr ⟨m, hMem, hLong⟩
  · intro hEither
    rcases hEither with hLong | hSome
    · exact ⟨n, List.mem_cons_self, hLong⟩
    · rcases hSome with ⟨m, hMem, hLong⟩
      exact ⟨m, List.mem_cons_of_mem n hMem, hLong⟩

/- Otherwise every length fits sixteen bits. -/
theorem not_tooLong_iff (lengths : List Nat) :
    ¬TooLong lengths ↔ ∀ n ∈ lengths, n < 2 ^ 16 := by
  unfold TooLong
  constructor
  · intro hNone n hMem
    by_contra hLong
    exact hNone ⟨n, hMem, by omega⟩
  · intro hAll hSome
    rcases hSome with ⟨n, hMem, hLong⟩
    have hShort := hAll n hMem
    omega

/- A leaf is put encoded, or left out as too long. -/
theorem putAttr_appends
    {buf : NlBuf} (type : UInt16) (payload : List UInt8)
    (hAligned : 4 ∣ buf.bytes.length) :
    ∃ tail,
      Appends buf (buf.putAttr type payload) tail
          (TooLong (Attr.leaf type payload).lengths) ∧
        (¬TooLong (Attr.leaf type payload).lengths →
          tail = (Attr.leaf type payload).encode) := by
  have hLengths :
      TooLong (Attr.leaf type payload).lengths ↔
        65535 < 4 + payload.length := by
    simp [TooLong, Attr.lengths]
  rw [hLengths]
  by_cases hShort : 4 + payload.length < 2 ^ 16
  · refine ⟨_, ?_, fun _ => rfl⟩
    rw [putAttr_of_lt type hAligned hShort]
    refine ⟨rfl, Attr.four_dvd_length_encode _, ?_⟩
    constructor
    · intro hOverflowed
      exact .inl hOverflowed
    · intro hEither
      rcases hEither with hOverflowed | hLong
      · exact hOverflowed
      · omega
  · refine ⟨[], ?_, ?_⟩
    · unfold putAttr
      rw [if_neg hShort]
      refine ⟨(List.append_nil _).symm, by simp, ?_⟩
      constructor
      · intro _
        right
        omega
      · intro _
        rfl
    · intro hLess
      omega

mutual

/-
  By recursion on the tree. What comes before a nested length
  is patched is what its children have appended; where none
  of them was too long, that is their encoding.
-/
theorem emit_appends :
    ∀ (attr : Attr) {buf : NlBuf},
      4 ∣ buf.bytes.length →
        ∃ tail,
          Appends buf (buf.emit attr) tail
              (TooLong attr.lengths) ∧
            (¬TooLong attr.lengths → tail = attr.encode)
| .leaf type payload, buf, hAligned => by
    rw [emit_leaf]
    exact putAttr_appends type payload hAligned
| .nest type children, buf, hAligned => by
    have hInner :
        4 ∣ (buf.beginNested type).2.bytes.length := by
      simp [beginNested]
      omega
    rcases emitAll_appends children hInner with
      ⟨content, hContent, hEncoded⟩
    have hMid :
        ((buf.beginNested type).2.emitAll children).bytes =
          buf.bytes ++
            (Bytes.ofNatLe 2 0 ++
              (Bytes.ofNatLe 2 (type ||| nestedFlag).toNat ++
                content)) := by
      rw [hContent.bytes]
      simp [beginNested, put]
    rcases endNested_appends hAligned
      (Bytes.length_ofNatLe 2 _) hContent.aligned hMid with
      ⟨lead, hBytes, hLead, hOverflowed, hPatched⟩
    have hLengths :
        TooLong (Attr.nest type children).lengths ↔
          TooLong (allLengths children) ∨
            2 ^ 16 ≤ 4 + content.length := by
      rw [Attr.lengths, tooLong_cons]
      by_cases hLong : TooLong (allLengths children)
      · simp only [hLong, or_true, true_or]
      · rw [hEncoded hLong]
        simp only [hLong, or_false, false_or]
        omega
    rw [emit_nest]
    unfold nested
    refine ⟨_, ⟨hBytes, ?_, ?_⟩, ?_⟩
    · have hWords := hContent.aligned
      simp only [List.length_append, Bytes.length_ofNatLe,
        hLead]
      omega
    · have hBefore :
          ((buf.beginNested type).2.emitAll
                children).overflowed =
              true ↔
            buf.overflowed = true ∨
              TooLong (allLengths children) :=
        hContent.overflowed
      rw [hLengths, ← or_assoc, ← hBefore]
      exact hOverflowed
    · intro hShort
      rw [hLengths, not_or] at hShort
      rw [hPatched (by omega), hEncoded hShort.1, Attr.encode,
        List.append_assoc]

/- Attributes are appended, or an overflow is marked. -/
theorem emitAll_appends :
    ∀ (attrs : List Attr) {buf : NlBuf},
      4 ∣ buf.bytes.length →
        ∃ tail,
          Appends buf (buf.emitAll attrs) tail
              (TooLong (allLengths attrs)) ∧
            (¬TooLong (allLengths attrs) →
              tail = encodeAll attrs)
| [], buf, _ => by
    refine ⟨[], ⟨?_, ?_, ?_⟩, ?_⟩
    · simp
    · simp
    · simp [allLengths, TooLong]
    · simp
| attr :: attrs, buf, hAligned => by
    rcases emit_appends attr hAligned with
      ⟨first, hFirst, hFirstEncoded⟩
    have hNext : 4 ∣ (buf.emit attr).bytes.length := by
      rw [hFirst.bytes, List.length_append]
      exact Nat.dvd_add hAligned hFirst.aligned
    rcases emitAll_appends attrs hNext with
      ⟨rest, hRest, hRestEncoded⟩
    rw [emitAll_cons, allLengths, tooLong_append]
    refine ⟨first ++ rest, ⟨?_, ?_, ?_⟩, ?_⟩
    · rw [hRest.bytes, hFirst.bytes, List.append_assoc]
    · rw [List.length_append]
      exact Nat.dvd_add hFirst.aligned hRest.aligned
    · rw [hRest.overflowed, hFirst.overflowed, or_assoc]
    · intro hShort
      rw [not_or] at hShort
      rw [hFirstEncoded hShort.1, hRestEncoded hShort.2,
        encodeAll_cons]

end

------------------------------------------------------------
-- Any Message
------------------------------------------------------------

/- The fields of a header after its length. -/
def headerFields
    (msgType flags : UInt16) (seq : UInt32) : List UInt8 :=
  Bytes.ofNatLe 2 msgType.toNat ++
    Bytes.ofNatLe 2 flags.toNat ++
    Bytes.ofNatLe 4 seq.toNat ++
    Bytes.ofNatLe 4 0

/- Type, flags, number and port. -/
theorem length_headerFields
    (msgType flags : UInt16) (seq : UInt32) :
    (headerFields msgType flags seq).length = 12 := by
  simp [headerFields]

/- The length of a message with so much before its tree. -/
def messageLength
    (header : List UInt8) (attrs : List Attr) : Nat :=
  16 + header.length + (encodeAll attrs).length

/- What is too long for its field, in a message. -/
def MessageTooLong
    (header : List UInt8) (attrs : List Attr) : Prop :=
  TooLong (allLengths attrs) ∨
    2 ^ 32 ≤ messageLength header attrs

/- A message that holds a header of its own and a tree. -/
def treeMessage
    (buf : NlBuf) (msgType flags : UInt16) (seq : UInt32)
    (header : List UInt8) (attrs : List Attr) : NlBuf :=
  buf.message msgType flags seq fun inner =>
    (inner.put header).emitAll attrs

/- A message is appended, or an overflow is marked. -/
theorem treeMessage_appends
    {buf : NlBuf} (hAligned : 4 ∣ buf.bytes.length)
    (msgType flags : UInt16) (seq : UInt32)
    {header : List UInt8} (hHeader : 4 ∣ header.length)
    (attrs : List Attr) :
    ∃ tail,
      Appends buf
          (buf.treeMessage msgType flags seq header attrs)
          tail (MessageTooLong header attrs) ∧
        (¬MessageTooLong header attrs →
          tail =
            Bytes.ofNatLe 4 (messageLength header attrs) ++
              (headerFields msgType flags seq ++
                (header ++ encodeAll attrs))) := by
  have hFields := length_headerFields msgType flags seq
  have hStart :
      (((buf.beginMsg msgType flags seq).2.put
          header).bytes) =
        buf.bytes ++
          (Bytes.ofNatLe 4 0 ++
            (headerFields msgType flags seq ++ header)) := by
    simp [beginMsg, put, headerFields]
  have hInner :
      4 ∣
        ((buf.beginMsg msgType flags seq).2.put
          header).bytes.length := by
    simp only [hStart, List.length_append,
      Bytes.length_ofNatLe, hFields]
    omega
  rcases emitAll_appends attrs hInner with
    ⟨content, hContent, hEncoded⟩
  have hWords := hContent.aligned
  have hMid :
      (((buf.beginMsg msgType flags seq).2.put
          header).emitAll attrs).bytes =
        buf.bytes ++
          (Bytes.ofNatLe 4 0 ++
            (headerFields msgType flags seq ++
              (header ++ content))) := by
    rw [hContent.bytes, hStart]
    simp only [List.append_assoc]
  have hBody :
      4 ∣
        (headerFields msgType flags seq ++
          (header ++ content)).length := by
    simp only [List.length_append, hFields]
    omega
  rcases endMsg_appends hAligned hBody hMid with
    ⟨lead, hBytes, hLead, hOverflowed, hPatched⟩
  have hLength :
      4 +
          (headerFields msgType flags seq ++
            (header ++ content)).length =
        16 + header.length + content.length := by
    simp only [List.length_append, hFields]
    omega
  rw [hLength] at hOverflowed hPatched
  have hLong :
      MessageTooLong header attrs ↔
        TooLong (allLengths attrs) ∨
          2 ^ 32 ≤ 16 + header.length + content.length := by
    unfold MessageTooLong messageLength
    by_cases hTree : TooLong (allLengths attrs)
    · simp only [hTree, true_or]
    · rw [hEncoded hTree]
  refine ⟨_, ⟨hBytes, ?_, ?_⟩, ?_⟩
  · simp only [List.length_append, hLead] at hBody ⊢
    omega
  · have hBefore :
        (((buf.beginMsg msgType flags seq).2.put
              header).emitAll attrs).overflowed =
            true ↔
          buf.overflowed = true ∨
            TooLong (allLengths attrs) :=
      hContent.overflowed
    rw [hLong, ← or_assoc, ← hBefore]
    exact hOverflowed
  · intro hShort
    rw [hLong, not_or] at hShort
    rw [hPatched (by omega), hEncoded hShort.1]
    rfl

------------------------------------------------------------
-- And Back
------------------------------------------------------------

/- The tree of the first message, after so many bytes of it. -/
def readTree (skip : Nat) (bytes : List UInt8) :
    Option (List Attr × List UInt8) :=
  (splitMessage bytes).bind fun parts =>
    (decodeAttrs (parts.1.drop (12 + skip))).map
      fun attrs => (attrs, parts.2)

/- What is appended is read back, whatever follows. -/
theorem readTree_encoded
    {header : List UInt8} (hHeader : 4 ∣ header.length)
    {attrs : List Attr} (hTyped : allTyped attrs = true)
    (hShort : ¬MessageTooLong header attrs)
    (msgType flags : UInt16) (seq : UInt32)
    (rest : List UInt8) :
    readTree header.length
        (Bytes.ofNatLe 4 (messageLength header attrs) ++
            (headerFields msgType flags seq ++
              (header ++ encodeAll attrs)) ++
          rest) =
      some (attrs, rest) := by
  unfold MessageTooLong at hShort
  rw [not_or, not_tooLong_iff] at hShort
  have hFits := (allFit_iff attrs).2 ⟨hTyped, hShort.1⟩
  have hFields := length_headerFields msgType flags seq
  have hWords := four_dvd_length_encodeAll attrs
  have hLength :
      (Bytes.ofNatLe 4 (messageLength header attrs) ++
          (headerFields msgType flags seq ++
            (header ++ encodeAll attrs))).length =
        messageLength header attrs := by
    simp only [List.length_append, Bytes.length_ofNatLe,
      hFields, messageLength]
    omega
  have hDivides : 4 ∣ messageLength header attrs := by
    unfold messageLength
    omega
  have hLead :
      (Bytes.ofNatLe 4 (messageLength header attrs) ++
            (headerFields msgType flags seq ++
              (header ++ encodeAll attrs)) ++
          rest).take 4 =
        Bytes.ofNatLe 4 (messageLength header attrs) := by
    rw [List.append_assoc]
    exact List.take_left' (Bytes.length_ofNatLe 4 _)
  have hValue :
      Bytes.toNatLe
          (Bytes.ofNatLe 4 (messageLength header attrs)) =
        messageLength header attrs :=
    Bytes.toNatLe_ofNatLe (by omega)
  have hTree :
      (((Bytes.ofNatLe 4 (messageLength header attrs) ++
                (headerFields msgType flags seq ++
                  (header ++ encodeAll attrs)) ++
              rest).take
            (messageLength header attrs)).drop 4).drop
          (12 + header.length) =
        encodeAll attrs := by
    rw [List.take_left' hLength,
      List.drop_left' (Bytes.length_ofNatLe 4 _),
      ← List.append_assoc]
    apply List.drop_left'
    rw [List.length_append, hFields]
  have hRest :
      (Bytes.ofNatLe 4 (messageLength header attrs) ++
            (headerFields msgType flags seq ++
              (header ++ encodeAll attrs)) ++
          rest).drop
          (messageLength header attrs) =
        rest :=
    List.drop_left' hLength
  unfold readTree splitMessage
  rw [hLead, hValue, if_pos, Option.bind_some, hTree,
    decodeAttrs_encodeAll hFits, align_of_dvd hDivides, hRest]
  · rfl
  · rw [List.length_append, hLength]
    unfold messageLength
    omega

/-
  A buffer refuses a message exactly when it had overflowed
  before or a length does not fit. Else the tree is read back
  from what was appended. What was there before stays, and
  the buffer stays a whole number of words, in any case.
-/
theorem attribute_trees_round_trip
    {buf : NlBuf} (hAligned : 4 ∣ buf.bytes.length)
    (msgType flags : UInt16) (seq : UInt32)
    {header : List UInt8} (hHeader : 4 ∣ header.length)
    {attrs : List Attr} (hTyped : allTyped attrs = true) :
    (∃ appended,
      (buf.treeMessage msgType flags seq header
            attrs).bytes =
          buf.bytes ++ appended ∧
        4 ∣
          (buf.treeMessage msgType flags seq header
            attrs).bytes.length) ∧
      ((∃ error,
          (buf.treeMessage msgType flags seq header
              attrs).finish =
            .error error) ↔
        buf.overflowed = true ∨
          (∃ n ∈ allLengths attrs, 65535 < n) ∨
          2 ^ 32 ≤ messageLength header attrs) ∧
      ∀ bytes,
        (buf.treeMessage msgType flags seq header
            attrs).finish =
          .ok bytes →
        ∃ appended,
          bytes = buf.bytes ++ appended ∧
            ∀ rest,
              readTree header.length (appended ++ rest) =
                some (attrs, rest) := by
  rcases treeMessage_appends hAligned msgType flags seq hHeader
    attrs with ⟨tail, hTail, hEncoded⟩
  refine ⟨⟨tail, hTail.bytes, ?_⟩, ?_, ?_⟩
  · rw [hTail.bytes, List.length_append]
    exact Nat.dvd_add hAligned hTail.aligned
  · apply Iff.trans _ hTail.overflowed
    unfold finish
    split
    · rename_i hOverflowed
      simp [hOverflowed]
    · rename_i hOverflowed
      simp [hOverflowed]
  · intro bytes hFinish
    unfold finish at hFinish
    split at hFinish
    · cases hFinish
    · rename_i hOverflowed
      rw [hTail.overflowed, not_or] at hOverflowed
      refine ⟨tail, ?_, ?_⟩
      · rw [← hTail.bytes]
        exact (Except.ok.inj hFinish).symm
      · intro rest
        rw [hEncoded hOverflowed.2]
        exact
          readTree_encoded hHeader hTyped hOverflowed.2 msgType
            flags seq rest

/- A nested attribute with a leaf of three bytes. -/
theorem attribute_trees_round_trip_nested :
    ∃ bytes,
      (NlBuf.empty.treeMessage 16 1 1 [2, 0, 0, 10]
            [.nest 4 [.leaf 1 [7, 8, 9]]]).finish =
          .ok bytes ∧
        readTree 4 bytes =
          some ([.nest 4 [.leaf 1 [7, 8, 9]]], []) := by
  have hRound :=
    @attribute_trees_round_trip NlBuf.empty ⟨0, rfl⟩ 16 1 1
      [2, 0, 0, 10] ⟨1, rfl⟩ [.nest 4 [.leaf 1 [7, 8, 9]]]
      (by simp [allTyped, Attr.typed])
  cases hFinish :
      (NlBuf.empty.treeMessage 16 1 1 [2, 0, 0, 10]
        [.nest 4 [.leaf 1 [7, 8, 9]]]).finish with
  | error error =>
      have hLong := hRound.2.1.1 ⟨error, hFinish⟩
      simp [NlBuf.empty, allLengths, Attr.lengths,
        messageLength, align] at hLong
  | ok bytes =>
      rcases hRound.2.2 bytes hFinish with
        ⟨appended, hBytes, hRead⟩
      refine ⟨bytes, rfl, ?_⟩
      have hWhole := hRead []
      rw [List.append_nil] at hWhole
      rw [hBytes]
      exact hWhole

end NlBuf

end Firewall

end Guest

end CargoUnikernel
