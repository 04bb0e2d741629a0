import CargoUnikernel.Guest.Firewall.Batch
import CargoUnikernel.Library.Fallible

/-
  Sending the batch and reading the kernel's answers.

  The answers come in datagrams, several or none in one. The
  install counts acknowledgements until there are as many as
  the batch asks for, and fails on the first answer that is
  a rejection or no message at all.

  Main declarations:
    * `splitMessage`, `checkReply`, `sendBatch`
    * `Reads`, `drain_sound`, `receive_sound`
    * `Answer`, `drain_successes`, `drain_rejection`
    * `acknowledgement_accounting`
-/

------------------------------------------------------------
-- Replies
------------------------------------------------------------

namespace CargoUnikernel

namespace Guest

namespace Firewall

namespace Transport

open Fallible

open Netlink (align padding)

/- The type of a verdict, and the size of a header. -/
def nlmsgError : Nat := 2
def nlmsgHdrLen : Nat := 16

/- Why a batch may not have been installed. -/
inductive TransportError
| socket
| recv
| malformedLength
| lengthOverflow
| truncatedPadding
| truncatedHeader
| truncatedError
| rejected (seq : Nat) (code : Nat)

/- A message and what follows it, none in a short rest. -/
def splitMessage (reply : List UInt8) :
    Except TransportError (Option (List UInt8 × List UInt8)) :=
  if reply.length < nlmsgHdrLen then
    .ok none
  else
    let len := Bytes.toNatLe (reply.take 4)
    if len < nlmsgHdrLen ∨ reply.length < len then
      .error .malformedLength
    else if reply.length < align len ∧ len ≠ reply.length then
      .error .truncatedPadding
    else
      .ok
        (some
          (reply.take len,
            reply.drop (min (align len) reply.length)))

/- The fields of a reply that decide what it counts for. -/
def replyType (message : List UInt8) : Nat :=
  Bytes.toNatLe ((message.drop 4).take 2)

/- The bits of the error code of an error reply. -/
def errorCode (message : List UInt8) : Nat :=
  Bytes.toNatLe ((message.drop nlmsgHdrLen).take 4)

/- The number of the rejected message, where it is echoed. -/
def rejectedSeq (message : List UInt8) : Nat :=
  if message.length < nlmsgHdrLen + 16 then
    0
  else
    Bytes.toNatLe ((message.drop (nlmsgHdrLen + 12)).take 4)

/- One for an acknowledgement, none for other types. -/
def checkReply (message : List UInt8) :
    Except TransportError Nat :=
  if message.length < 6 then
    .error .truncatedHeader
  else if replyType message ≠ nlmsgError then
    .ok 0
  else if message.length < nlmsgHdrLen + 4 then
    .error .truncatedError
  else if errorCode message = 0 then
    .ok 1
  else
    .error (.rejected (rejectedSeq message) (errorCode message))

/- What is split off, and what is left. -/
theorem splitMessage_eq_some
    {reply message rest : List UInt8}
    (hSplit : splitMessage reply = .ok (some (message, rest))) :
    let len := Bytes.toNatLe (reply.take 4)
    nlmsgHdrLen ≤ len ∧ len ≤ reply.length ∧
      (align len ≤ reply.length ∨ len = reply.length) ∧
      message = reply.take len ∧
      rest = reply.drop (min (align len) reply.length) := by
  intro len
  unfold splitMessage at hSplit
  split at hSplit
  case isTrue => cases hSplit
  case isFalse =>
      dsimp only at hSplit
      split at hSplit
      case isTrue => cases hSplit
      case isFalse hLen =>
          split at hSplit
          case isTrue => cases hSplit
          case isFalse hPadding =>
              cases hSplit
              rw [not_or, not_lt, not_lt] at hLen
              rw [not_and_or, not_lt, not_not] at hPadding
              exact ⟨hLen.1, hLen.2, hPadding, rfl, rfl⟩

/- Less than a header is no message. -/
theorem length_of_none
    {reply : List UInt8}
    (hSplit : splitMessage reply = .ok none) :
    reply.length < nlmsgHdrLen := by
  unfold splitMessage at hSplit
  split at hSplit
  case isTrue hShort => exact hShort
  case isFalse =>
      dsimp only at hSplit
      split at hSplit
      case isTrue => cases hSplit
      case isFalse =>
          split at hSplit
          · cases hSplit
          · cases hSplit

/- Something is split off each time. -/
theorem length_rest_lt
    {reply message rest : List UInt8}
    (hSplit : splitMessage reply = .ok (some (message, rest))) :
    rest.length < reply.length := by
  rcases splitMessage_eq_some hSplit with
    ⟨hHeader, hLen, _, _, hRest⟩
  have hAlign := Netlink.le_align (Bytes.toNatLe (reply.take 4))
  rw [hRest, List.length_drop]
  unfold nlmsgHdrLen at hHeader
  omega

------------------------------------------------------------
-- Reading Until All Are Acknowledged
------------------------------------------------------------

/- Count the acknowledgements of one datagram. -/
def drain (acks : Nat) (reply : List UInt8) :
    Except TransportError Nat :=
  match _hSplit : splitMessage reply with
  | .error error => .error error
  | .ok none => .ok acks
  | .ok (some (message, rest)) => do
      let more ← checkReply message
      drain (acks + more) rest
termination_by reply.length
decreasing_by exact length_rest_lt _hSplit

/- The size of the buffer a datagram is received into. -/
def bufferSize : Nat := 8192

/-
  Receive while acknowledgements are missing. After the last
  datagram the socket's timeout ends the wait.
-/
def receive (ackable : Nat) :
    Nat → List (List UInt8) → Except TransportError Unit
| acks, [] =>
    if acks < ackable then .error .recv else .ok ()
| acks, datagram :: datagrams =>
    if acks < ackable then do
      let acks ← drain acks (datagram.take bufferSize)
      receive ackable acks datagrams
    else
      .ok ()

/- With what comes of opening the socket and sending on it. -/
def sendBatch
    (batch : Batch) (sent : Except TransportError Unit)
    (datagrams : List (List UInt8)) :
    Except TransportError Unit := do
  sent
  receive batch.ackable 0 datagrams

/- The three ways the loop goes on. -/
theorem drain_none
    {acks : Nat} {reply : List UInt8}
    (hSplit : splitMessage reply = .ok none) :
    drain acks reply = .ok acks := by
  rw [drain]
  split
  all_goals simp_all

theorem drain_some
    {acks : Nat} {reply message rest : List UInt8}
    (hSplit : splitMessage reply = .ok (some (message, rest))) :
    drain acks reply =
      (checkReply message >>= fun more =>
        drain (acks + more) rest) := by
  rw [drain]
  split
  all_goals simp_all

theorem drain_error
    {acks : Nat} {reply : List UInt8} {error : TransportError}
    (hSplit : splitMessage reply = .error error) :
    drain acks reply = .error error := by
  rw [drain]
  split
  all_goals simp_all

------------------------------------------------------------
-- What Was Read
------------------------------------------------------------

/- A message whose length field is its length. -/
def HasLength (message : List UInt8) : Prop :=
  nlmsgHdrLen ≤ message.length ∧
    Bytes.toNatLe (message.take 4) = message.length

/- Padding to the boundary, or the end of the datagram. -/
def Pads (message pad rest : List UInt8) : Prop :=
  message.length + pad.length = align message.length ∨
    pad = [] ∧ rest = []

/-
  A datagram as its messages, each with its padding, and
  less than a header after them.
-/
inductive Reads : List UInt8 → List (List UInt8) → Prop
| done {rest : List UInt8} :
    rest.length < nlmsgHdrLen → Reads rest []
| more
    {message pad rest : List UInt8}
    {messages : List (List UInt8)} :
    HasLength message → Pads message pad rest →
      Reads rest messages →
      Reads (message ++ pad ++ rest) (message :: messages)

/- An error reply in full. -/
def IsVerdict (message : List UInt8) : Prop :=
  replyType message = nlmsgError

instance (message : List UInt8) :
    Decidable (IsVerdict message) :=
  inferInstanceAs (Decidable (_ = _))

/- Neither a rejection nor too short for a verdict. -/
def Harmless (message : List UInt8) : Prop :=
  IsVerdict message →
    nlmsgHdrLen + 4 ≤ message.length ∧ errorCode message = 0

/- The number of verdicts among the messages. -/
def verdicts (messages : List (List UInt8)) : Nat :=
  messages.countP fun message => decide (IsVerdict message)

/- A message that is accepted rejects nothing. -/
theorem checkReply_eq_ok
    {message : List UInt8} {more : Nat}
    (hCheck : checkReply message = .ok more) :
    Harmless message ∧ more = verdicts [message] := by
  unfold checkReply at hCheck
  split at hCheck
  case isTrue => cases hCheck
  case isFalse =>
      split at hCheck
      case isTrue hType =>
          cases hCheck
          constructor
          · intro hVerdict
            exact absurd hVerdict hType
          · simp [verdicts, IsVerdict, hType]
      case isFalse hType =>
          rw [not_not] at hType
          split at hCheck
          case isTrue => cases hCheck
          case isFalse hLength =>
              split at hCheck
              case isTrue hCode =>
                  cases hCheck
                  constructor
                  · intro _
                    exact ⟨Nat.le_of_not_lt hLength, hCode⟩
                  · simp [verdicts, IsVerdict, hType]
              case isFalse => cases hCheck

/- Verdicts are counted one by one. -/
theorem verdicts_cons
    (message : List UInt8) (messages : List (List UInt8)) :
    verdicts (message :: messages) =
      verdicts [message] + verdicts messages := by
  unfold verdicts
  rw [← List.countP_append]
  rfl

/- A message that was split off is there, with its padding. -/
theorem reads_of_splitMessage
    {reply message rest : List UInt8}
    {messages : List (List UInt8)}
    (hSplit : splitMessage reply = .ok (some (message, rest)))
    (hRest : Reads rest messages) :
    Reads reply (message :: messages) := by
  rcases splitMessage_eq_some hSplit with
    ⟨hHeader, hLen, hAligned, hMessage, hEnd⟩
  have hLength :
      message.length = Bytes.toNatLe (reply.take 4) := by
    rw [hMessage, List.length_take]
    exact Nat.min_eq_left hLen
  have hHasLength : HasLength message := by
    unfold HasLength
    rw [hLength]
    refine ⟨hHeader, ?_⟩
    rw [hMessage, List.take_take]
    congr 2
    unfold nlmsgHdrLen at hHeader
    omega
  by_cases hWhole :
      align (Bytes.toNatLe (reply.take 4)) ≤ reply.length
  · rw [Nat.min_eq_left hWhole] at hEnd
    have hReply :
        reply =
          message ++
            (reply.drop message.length).take
              (align message.length - message.length) ++
            rest := by
      have hLe := Netlink.le_align message.length
      rw [hEnd, ← hLength]
      conv_lhs =>
        rw [← List.take_append_drop message.length reply,
          ← List.take_append_drop
            (align message.length - message.length)
            (reply.drop message.length)]
      rw [List.drop_drop, ← List.append_assoc]
      congr 2
      · rw [hMessage, ← hLength]
        simp
      · omega
    rw [hReply]
    refine .more hHasLength (Or.inl ?_) hRest
    have hLe := Netlink.le_align message.length
    rw [List.length_take, List.length_drop]
    rw [← hLength] at hWhole
    omega
  · have hEq := hAligned.resolve_left hWhole
    rw [Nat.min_eq_right (by omega), List.drop_length]
      at hEnd
    have hReply : message = reply := by
      rw [hMessage, hEq, List.take_length]
    have hMore := Reads.more hHasLength
      (Or.inr ⟨Eq.refl [], hEnd⟩) hRest
    rw [hEnd, List.append_nil, List.append_nil,
      hReply] at hMore
    rw [hReply]
    exact hMore

/- A datagram is drained of harmless messages only. -/
theorem drain_sound
    {acks total : Nat} {reply : List UInt8}
    (hDrain : drain acks reply = .ok total) :
    ∃ messages,
      Reads reply messages ∧
        (∀ message ∈ messages, Harmless message) ∧
        total = acks + verdicts messages := by
  induction hLength : reply.length
    using Nat.strong_induction_on generalizing acks reply with
  | h length ih =>
      cases hSplit : splitMessage reply with
      | error error =>
          rw [drain_error hSplit] at hDrain
          cases hDrain
      | ok split =>
          cases split with
          | none =>
              rw [drain_none hSplit] at hDrain
              cases hDrain
              refine ⟨[], .done (length_of_none hSplit), ?_, rfl⟩
              simp
          | some halves =>
              rcases halves with ⟨message, rest⟩
              rw [drain_some hSplit, bind_eq_ok_iff] at hDrain
              rcases hDrain with ⟨more, hCheck, hDrain⟩
              rcases checkReply_eq_ok hCheck with
                ⟨hHarmless, hMore⟩
              have hLt := length_rest_lt hSplit
              rcases ih rest.length (hLength ▸ hLt) hDrain rfl
                with ⟨messages, hReads, hAll, hTotal⟩
              refine ⟨message :: messages,
                reads_of_splitMessage hSplit hReads, ?_, ?_⟩
              · intro other hMem
                rcases List.mem_cons.1 hMem with rfl | hMem
                · exact hHarmless
                · exact hAll other hMem
              · rw [verdicts_cons, ← hMore, hTotal]
                omega

/- What is in the buffer after each of some receptions. -/
def received (datagrams : List (List UInt8)) :
    List (List UInt8) :=
  datagrams.map fun datagram => datagram.take bufferSize

/- So is every datagram before the wait ends well. -/
theorem receive_sound
    {ackable acks : Nat} {datagrams : List (List UInt8)}
    (hReceive : receive ackable acks datagrams = .ok ()) :
    ∃ count messages,
      List.Forall₂ Reads (received (datagrams.take count))
          messages ∧
        (∀ message ∈ messages.flatten, Harmless message) ∧
        ackable ≤ acks + verdicts messages.flatten := by
  induction datagrams generalizing acks with
  | nil =>
      unfold receive at hReceive
      split at hReceive
      case isTrue => cases hReceive
      case isFalse hDone =>
          refine ⟨0, [], .nil, by simp, ?_⟩
          omega
  | cons datagram datagrams ih =>
      unfold receive at hReceive
      split at hReceive
      case isFalse hDone =>
          refine ⟨0, [], .nil, by simp, ?_⟩
          omega
      case isTrue =>
          rw [bind_eq_ok_iff] at hReceive
          rcases hReceive with ⟨total, hDrain, hReceive⟩
          rcases drain_sound hDrain with
            ⟨first, hReads, hFirst, hTotal⟩
          rcases ih hReceive with
            ⟨count, messages, hRest, hAll, hEnough⟩
          refine ⟨count + 1, first :: messages,
            .cons hReads hRest, ?_, ?_⟩
          · intro message hMem
            rw [List.flatten_cons, List.mem_append] at hMem
            exact hMem.elim (hFirst message) (hAll message)
          · unfold verdicts at hTotal hEnough ⊢
            rw [List.flatten_cons, List.countP_append]
            omega

------------------------------------------------------------
-- A Kernel That Answers
------------------------------------------------------------

/- An error reply with its code, or another message. -/
inductive Answer
| verdict
    (flags : UInt16) (seq pid code : UInt32)
    (echo : List UInt8)
| other
    (type flags : UInt16) (seq pid : UInt32)
    (payload : List UInt8)
    (isOther : type.toNat ≠ nlmsgError)

namespace Answer

/- The type in the header. -/
def type : Answer → Nat
| .verdict _ _ _ _ _ => nlmsgError
| .other type _ _ _ _ _ => type.toNat

/- Flags, numbers and payload. -/
def afterType : Answer → List UInt8
| .verdict flags seq pid code echo =>
    Bytes.ofNatLe 2 flags.toNat ++ Bytes.ofNatLe 4 seq.toNat ++
      Bytes.ofNatLe 4 pid.toNat ++
      Bytes.ofNatLe 4 code.toNat ++ echo
| .other _ flags seq pid payload _ =>
    Bytes.ofNatLe 2 flags.toNat ++ Bytes.ofNatLe 4 seq.toNat ++
      Bytes.ofNatLe 4 pid.toNat ++ payload

/- The length, the type and the rest. -/
def message (answer : Answer) : List UInt8 :=
  Bytes.ofNatLe 4 (6 + answer.afterType.length) ++
    Bytes.ofNatLe 2 answer.type ++ answer.afterType

/- A message is padded for the next one. -/
def encode (answer : Answer) : List UInt8 :=
  answer.message ++ padding answer.message.length

/- The error code, of an answer that has one. -/
def code? : Answer → Option UInt32
| .verdict _ _ _ code _ => some code
| .other _ _ _ _ _ _ => none

end Answer

/- One datagram of answers. -/
def datagramOf (answers : List Answer) : List UInt8 :=
  answers.flatMap Answer.encode

/- The codes of the verdicts, in their order. -/
def codes (answers : List Answer) : List UInt32 :=
  answers.filterMap Answer.code?

namespace Answer

/- The type fits its field. -/
theorem type_lt (answer : Answer) : answer.type < 256 ^ 2 := by
  cases answer with
  | verdict => simp [type, nlmsgError]
  | other type _ _ _ _ _ =>
      have hType := type.toNat_lt
      simp only [Answer.type]
      omega

/- The length in the header is the message's. -/
theorem length_message (answer : Answer) :
    answer.message.length = 6 + answer.afterType.length := by
  simp only [message, List.length_append,
    Bytes.length_ofNatLe]

/- There is room for a header. -/
theorem header_le_length (answer : Answer) :
    nlmsgHdrLen ≤ answer.message.length := by
  rw [length_message]
  cases answer with
  | verdict | other =>
      simp only [afterType, List.length_append,
        Bytes.length_ofNatLe, nlmsgHdrLen]
      omega

/- Padding goes up to the next boundary. -/
theorem length_encode (answer : Answer) :
    answer.encode.length = align answer.message.length := by
  have hLe := Netlink.le_align answer.message.length
  simp only [encode, List.length_append,
    Netlink.length_padding]
  omega

/- The fields are read back from the header. -/
theorem replyType_message (answer : Answer) :
    replyType answer.message = answer.type := by
  have hDrop :
      answer.message.drop 4 =
        Bytes.ofNatLe 2 answer.type ++ answer.afterType := by
    unfold message
    rw [List.append_assoc,
      List.drop_left' (Bytes.length_ofNatLe 4 _)]
  unfold replyType
  rw [hDrop, List.take_left' (Bytes.length_ofNatLe 2 _),
    Bytes.toNatLe_ofNatLe answer.type_lt]

/- And the code from behind it. -/
theorem errorCode_verdict
    (flags : UInt16) (seq pid code : UInt32)
    (echo : List UInt8) :
    errorCode (verdict flags seq pid code echo).message =
      code.toNat := by
  have hCode := code.toNat_lt
  let header : List UInt8 :=
    Bytes.ofNatLe 4
        (6 + (verdict flags seq pid code echo).afterType.length) ++
      Bytes.ofNatLe 2 nlmsgError ++
      Bytes.ofNatLe 2 flags.toNat ++
      Bytes.ofNatLe 4 seq.toNat ++ Bytes.ofNatLe 4 pid.toNat
  have hHeader : header.length = nlmsgHdrLen := by
    simp only [header, List.length_append,
      Bytes.length_ofNatLe, nlmsgHdrLen]
  have hMessage :
      (verdict flags seq pid code echo).message =
        header ++ (Bytes.ofNatLe 4 code.toNat ++ echo) := by
    simp only [message, afterType, type, header,
      List.append_assoc]
  unfold errorCode
  rw [hMessage, List.drop_left' hHeader,
    List.take_left' (Bytes.length_ofNatLe 4 _),
    Bytes.toNatLe_ofNatLe (by omega)]

/- One for a success, an error for a rejection. -/
theorem checkReply_message (answer : Answer) :
    match answer.code? with
    | none => checkReply answer.message = .ok 0
    | some code =>
        if code = 0 then
          checkReply answer.message = .ok 1
        else
          ∃ error, checkReply answer.message = .error error := by
  have hHeader := answer.header_le_length
  have hType := answer.replyType_message
  have hLong : ¬ answer.message.length < 6 := by
    unfold nlmsgHdrLen at hHeader
    omega
  cases answer with
  | other type flags seq pid payload isOther =>
      simp only [code?]
      unfold checkReply
      rw [if_neg hLong, hType, if_pos]
      exact isOther
  | verdict flags seq pid code echo =>
      have hFull :
          ¬ (verdict flags seq pid code echo).message.length <
            nlmsgHdrLen + 4 := by
        rw [length_message]
        simp only [afterType, List.length_append,
          Bytes.length_ofNatLe, nlmsgHdrLen]
        omega
      have hCode := errorCode_verdict flags seq pid code echo
      have hVerdict :
          ¬ (verdict flags seq pid code echo).type ≠
            nlmsgError := not_not.2 rfl
      simp only [code?]
      unfold checkReply
      rw [if_neg hLong, hType, if_neg hVerdict, if_neg hFull,
        hCode]
      by_cases hZero : code = 0
      · rw [if_pos hZero, hZero]
        rfl
      · rw [if_neg hZero, if_neg]
        · exact ⟨_, rfl⟩
        · intro hNat
          exact hZero (UInt32.toNat_inj.1 hNat)

/- An answer is split off with its padding. -/
theorem splitMessage_encode
    {answer : Answer} {rest : List UInt8}
    (hFits : answer.message.length < 2 ^ 32) :
    splitMessage (answer.encode ++ rest) =
      .ok (some (answer.message, rest)) := by
  have hHeader := answer.header_le_length
  have hLe := Netlink.le_align answer.message.length
  have hLength :
      Bytes.toNatLe ((answer.encode ++ rest).take 4) =
        answer.message.length := by
    unfold encode
    conv_lhs =>
      rw [message, List.append_assoc, List.append_assoc,
        List.append_assoc,
        List.take_left' (Bytes.length_ofNatLe 4 _)]
    rw [Bytes.toNatLe_ofNatLe, length_message]
    rw [← length_message]
    omega
  have hTotal :
      (answer.encode ++ rest).length =
        align answer.message.length + rest.length := by
    rw [List.length_append, length_encode]
  have hTake :
      (answer.encode ++ rest).take answer.message.length =
        answer.message := by
    unfold encode
    rw [List.append_assoc, List.take_left]
  have hDrop :
      (answer.encode ++ rest).drop
          (min (align answer.message.length)
            (answer.encode ++ rest).length) = rest := by
    rw [Nat.min_eq_left (by omega), ← length_encode,
      List.drop_left]
  unfold splitMessage
  rw [if_neg (by omega), hLength]
  dsimp only
  rw [if_neg (by omega), if_neg (by omega), hTake, hDrop]

end Answer

/- What is no verdict has no code. -/
theorem codes_cons_none
    {answer : Answer} (hCode : answer.code? = none)
    (answers : List Answer) :
    codes (answer :: answers) = codes answers := by
  simp [codes, hCode]

theorem codes_cons_some
    {answer : Answer} {code : UInt32}
    (hCode : answer.code? = some code)
    (answers : List Answer) :
    codes (answer :: answers) = code :: codes answers := by
  simp [codes, hCode]

/- The messages' lengths fit their fields. -/
def Fit (answers : List Answer) : Prop :=
  ∀ answer ∈ answers, answer.message.length < 2 ^ 32

/- The first answer is checked, then the others. -/
theorem drain_cons
    {answer : Answer} {answers : List Answer} (acks : Nat)
    (hFits : Fit (answer :: answers)) :
    drain acks (datagramOf (answer :: answers)) =
      (checkReply answer.message >>= fun more =>
        drain (acks + more) (datagramOf answers)) :=
  drain_some
    (Answer.splitMessage_encode
      (hFits answer List.mem_cons_self))

/- Where all answers are successes, each one counts. -/
theorem drain_successes
    {answers : List Answer} (acks : Nat)
    (hFits : Fit answers)
    (hZero : ∀ code ∈ codes answers, code = 0) :
    drain acks (datagramOf answers) =
      .ok (acks + (codes answers).length) := by
  induction answers generalizing acks with
  | nil =>
      apply drain_none
      rfl
  | cons answer answers ih =>
      have hRest := fun acks => ih acks fun other hMem =>
        hFits other (List.mem_cons_of_mem answer hMem)
      have hCheck := answer.checkReply_message
      rw [drain_cons acks hFits]
      cases hCode : answer.code? with
      | none =>
          rw [codes_cons_none hCode] at hZero ⊢
          rw [hCode] at hCheck
          dsimp only at hCheck
          rw [hCheck, ok_bind, hRest _ hZero]
          rfl
      | some code =>
          rw [codes_cons_some hCode] at hZero ⊢
          rw [hCode] at hCheck
          dsimp only at hCheck
          rw [if_pos (hZero code List.mem_cons_self)] at hCheck
          rw [hCheck, ok_bind, hRest _ fun other hMem =>
            hZero other (List.mem_cons_of_mem code hMem),
            List.length_cons]
          congr 1
          omega

/- Where one is a rejection, the datagram is an error. -/
theorem drain_rejection
    {answers : List Answer} (acks : Nat)
    (hFits : Fit answers)
    (hNonzero : ∃ code ∈ codes answers, code ≠ 0) :
    ∃ error, drain acks (datagramOf answers) =
      .error error := by
  induction answers generalizing acks with
  | nil =>
      rcases hNonzero with ⟨code, hMem, _⟩
      exact absurd hMem List.not_mem_nil
  | cons answer answers ih =>
      have hRest := fun acks => ih acks fun other hMem =>
        hFits other (List.mem_cons_of_mem answer hMem)
      have hCheck := answer.checkReply_message
      rw [drain_cons acks hFits]
      cases hCode : answer.code? with
      | none =>
          rw [codes_cons_none hCode] at hNonzero
          rw [hCode] at hCheck
          dsimp only at hCheck
          rw [hCheck, ok_bind]
          exact hRest _ hNonzero
      | some code =>
          rw [codes_cons_some hCode] at hNonzero
          rw [hCode] at hCheck
          dsimp only at hCheck
          by_cases hZero : code = 0
          · rw [if_pos hZero] at hCheck
            rw [hCheck, ok_bind]
            apply hRest
            simpa [hZero] using hNonzero
          · rw [if_neg hZero] at hCheck
            rcases hCheck with ⟨error, hCheck⟩
            rw [hCheck, error_bind]
            exact ⟨error, rfl⟩

/- The datagrams fit the buffer they are received into. -/
def FitBuffer (groups : List (List Answer)) : Prop :=
  ∀ group ∈ groups, (datagramOf group).length ≤ bufferSize

/- A datagram that fits has messages that fit. -/
theorem fit_of_fitBuffer
    {group : List Answer}
    (hFits : (datagramOf group).length ≤ bufferSize) :
    Fit group := by
  intro answer hMem
  have hSublist : answer.encode.length ≤
      (datagramOf group).length := by
    rcases List.mem_iff_append.1 hMem with
      ⟨before, after, hGroup⟩
    rw [hGroup, datagramOf, List.flatMap_append,
      List.flatMap_cons]
    simp only [List.length_append]
    omega
  have hLe := Netlink.le_align answer.message.length
  rw [Answer.length_encode] at hSublist
  unfold bufferSize at hFits
  omega

/- The codes of a datagram, then those of the rest. -/
theorem codes_flatten_cons
    (group : List Answer) (groups : List (List Answer)) :
    codes (group :: groups).flatten =
      codes group ++ codes groups.flatten := by
  simp [codes]

/- Enough successes end the wait well, in any grouping. -/
theorem receive_successes
    {ackable acks : Nat} {groups : List (List Answer)}
    (hFits : FitBuffer groups)
    (hZero : ∀ code ∈ codes groups.flatten, code = 0)
    (hEnough :
      ackable ≤ acks + (codes groups.flatten).length) :
    receive ackable acks (groups.map datagramOf) =
      .ok () := by
  induction groups generalizing acks with
  | nil =>
      have hDone : ¬ acks < ackable := by
        simpa [codes] using hEnough
      rw [List.map_nil, receive, if_neg hDone]
  | cons group groups ih =>
      have hGroup := hFits group List.mem_cons_self
      rw [codes_flatten_cons] at hZero hEnough
      rw [List.length_append] at hEnough
      rw [List.map_cons, receive]
      by_cases hMore : acks < ackable
      · rw [if_pos hMore, List.take_of_length_le hGroup,
          drain_successes acks (fit_of_fitBuffer hGroup)
            fun code hMem =>
              hZero code (List.mem_append_left _ hMem),
          ok_bind]
        refine ih ?_ ?_ ?_
        · intro other hMem
          exact hFits other (List.mem_cons_of_mem group hMem)
        · intro code hMem
          exact hZero code (List.mem_append_right _ hMem)
        · omega
      · rw [if_neg hMore]

/- A rejection among the awaited answers is not missed. -/
theorem receive_rejection
    {ackable acks : Nat} {groups : List (List Answer)}
    (hFits : FitBuffer groups)
    (hNonzero : ∃ code ∈ codes groups.flatten, code ≠ 0)
    (hAwaited :
      acks + (codes groups.flatten).length ≤ ackable) :
    ∃ error, receive ackable acks (groups.map datagramOf) =
      .error error := by
  induction groups generalizing acks with
  | nil =>
      rcases hNonzero with ⟨code, hMem, _⟩
      exact absurd hMem List.not_mem_nil
  | cons group groups ih =>
      have hGroup := hFits group List.mem_cons_self
      have hSome :
          0 < (codes (group :: groups).flatten).length := by
        rcases hNonzero with ⟨code, hMem, _⟩
        exact List.length_pos_of_mem hMem
      have hMore : acks < ackable := by omega
      rw [codes_flatten_cons] at hNonzero hAwaited
      rw [List.length_append] at hAwaited
      rw [List.map_cons, receive, if_pos hMore,
        List.take_of_length_le hGroup]
      by_cases hHere : ∃ code ∈ codes group, code ≠ 0
      · rcases drain_rejection acks (fit_of_fitBuffer hGroup)
          hHere with ⟨error, hDrain⟩
        rw [hDrain, error_bind]
        exact ⟨error, rfl⟩
      · push Not at hHere
        rw [drain_successes acks (fit_of_fitBuffer hGroup)
          hHere, ok_bind]
        refine ih ?_ ?_ ?_
        · intro other hMem
          exact hFits other (List.mem_cons_of_mem group hMem)
        · rcases hNonzero with ⟨code, hMem, hCode⟩
          rcases List.mem_append.1 hMem with hMem | hMem
          · exact absurd (hHere code hMem) hCode
          · exact ⟨code, hMem, hCode⟩
        · omega

/-
  When each acknowledged message is answered once, in any
  grouping, the batch is sent exactly if no answer rejects.
  Whatever is received, it is sent only after as many
  acknowledgements as it asks for, and nothing amiss.
-/
theorem acknowledgement_accounting (batch : Batch) :
    (∀ groups : List (List Answer), FitBuffer groups →
      (codes groups.flatten).length = batch.ackable →
      (sendBatch batch (.ok ()) (groups.map datagramOf) =
          .ok () ↔
        ∀ code ∈ codes groups.flatten, code = 0)) ∧
      ∀ sent datagrams,
        sendBatch batch sent datagrams = .ok () →
          ∃ count messages,
            List.Forall₂ Reads
                (received (datagrams.take count)) messages ∧
              (∀ message ∈ messages.flatten,
                Harmless message) ∧
              batch.ackable ≤ verdicts messages.flatten := by
  constructor
  · intro groups hFits hCount
    unfold sendBatch
    rw [ok_bind]
    constructor
    · intro hSent
      by_contra hSome
      push Not at hSome
      have hAwaited :
          0 + (codes groups.flatten).length ≤
            batch.ackable := by
        omega
      rcases receive_rejection hFits hSome hAwaited with
        ⟨error, hError⟩
      rw [hError] at hSent
      cases hSent
    · intro hZero
      exact receive_successes hFits hZero (by omega)
  · intro sent datagrams hSent
    unfold sendBatch at hSent
    rw [unit_bind_eq_ok_iff] at hSent
    rcases receive_sound hSent.2 with
      ⟨count, messages, hReads, hHarmless, hEnough⟩
    rw [Nat.zero_add] at hEnough
    exact ⟨count, messages, hReads, hHarmless, hEnough⟩

/- Three verdicts over two datagrams, one of them open. -/
def threeVerdicts (code : UInt32) : List (List Answer) :=
  [[.verdict 0 1 0 0 [],
      .other 3 2 1 0 [0xaa] (by decide)],
    [.verdict 0 2 0 code [0x01, 0x02],
      .verdict 0 3 0 0 []]]

/- All are accepted, or the second one is not. -/
theorem acknowledgement_accounting_three :
    sendBatch ⟨[], 3⟩ (.ok ())
          ((threeVerdicts 0).map datagramOf) =
        .ok () ∧
      sendBatch ⟨[], 3⟩ (.ok ())
          ((threeVerdicts 22).map datagramOf) ≠
        .ok () := by
  have hAccepted : FitBuffer (threeVerdicts 0) := by
    unfold FitBuffer
    decide
  have hRejected : FitBuffer (threeVerdicts 22) := by
    unfold FitBuffer
    decide
  have hCodes (code : UInt32) :
      codes (threeVerdicts code).flatten = [0, code, 0] := rfl
  have hAnswered := (acknowledgement_accounting ⟨[], 3⟩).1
  constructor
  · apply (hAnswered (threeVerdicts 0) hAccepted rfl).2
    rw [hCodes]
    simp
  · rw [Ne, hAnswered (threeVerdicts 22) hRejected rfl, hCodes]
    simp

end Transport

end Firewall

end Guest

end CargoUnikernel
