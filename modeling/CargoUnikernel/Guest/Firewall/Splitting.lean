import CargoUnikernel.Guest.Firewall.Transport

/-
  Splitting a reply with the accesses and the arithmetic of
  the machine, and the loop over what remains.

  Each access to a slice and each conversion and addition
  can fail, and the code has something to fall back on for
  each. What the fall-backs are makes no difference, so none
  is ever taken. The loop ends on every reply, and takes
  a concatenation of messages apart again.

  Main declarations:
    * `Fallbacks`, `splitMessageWith`
    * `splitMessageWith_eq`
    * `splitAll`, `splitAll_isSome`
    * `Concatenates`, `splitAll_of_concatenates`
    * `splitMessage_inverts_concatenation`
-/

------------------------------------------------------------
-- Accesses and Arithmetic
------------------------------------------------------------

namespace CargoUnikernel

namespace Guest

namespace Firewall

namespace Splitting

open Netlink (align padding)
open Transport

/- What a split is: a message and the remainder. -/
abbrev Split :=
  Except TransportError (Option (List UInt8 × List UInt8))

/- A length of the machine, 64 bits wide. -/
def wordSize : Nat := 2 ^ 64

/- `get(..stop)` and `get(start..)`. -/
def getTo (bytes : List UInt8) (stop : Nat) :
    Option (List UInt8) :=
  if stop ≤ bytes.length then some (bytes.take stop) else none

/-
  The bytes from a place on, if it is not behind the end.
-/
def getFrom (bytes : List UInt8) (start : Nat) :
    Option (List UInt8) :=
  if start ≤ bytes.length then some (bytes.drop start) else none

/- A number of 32 bits as a `usize`. -/
def tryFrom (n : Nat) : Option Nat :=
  if n < wordSize then some n else none

/- A sum, if it is a `usize`. -/
def checkedAdd (a b : Nat) : Option Nat :=
  if a + b < wordSize then some (a + b) else none

/- Messages begin at multiples of it. -/
def nlmsgAlignTo : Nat := 4

/- The complement of a machine word. -/
def complement (n : Nat) : Nat :=
  wordSize - 1 - n

/-
  What is used where a slice is out of range, a number too
  wide or a sum overflows.
-/
structure Fallbacks where
  lenBytes : Split
  len : Nat
  alignedLen : Split
  header : Split
  rest : List UInt8

/- Those of the source. -/
def fallbacks : Fallbacks where
  lenBytes := .ok none
  len := 0
  alignedLen := .error .lengthOverflow
  header := .error .malformedLength
  rest := []

/- The length, once its four bytes are there. -/
def lengthField
    (fallbacks : Fallbacks) (lenBytes : List UInt8) : Nat :=
  (tryFrom (Bytes.toNatLe lenBytes)).getD fallbacks.len

/- The length with its padding. -/
def alignedLength (len : Nat) : Option Nat :=
  (checkedAdd len (nlmsgAlignTo - 1)).map fun n =>
    n &&& complement (nlmsgAlignTo - 1)

/- `split_message`, with every access it makes. -/
def splitMessageWith
    (fallbacks : Fallbacks) (reply : List UInt8) : Split :=
  if reply.length < nlmsgHdrLen then
    .ok none
  else
    match getTo reply 4 with
    | none => fallbacks.lenBytes
    | some lenBytes =>
        if lengthField fallbacks lenBytes < nlmsgHdrLen ∨
            reply.length < lengthField fallbacks lenBytes then
          .error .malformedLength
        else
          match alignedLength (lengthField fallbacks lenBytes) with
          | none => fallbacks.alignedLen
          | some alignedLen =>
              if reply.length < alignedLen ∧
                  lengthField fallbacks lenBytes ≠
                    reply.length then
                .error .truncatedPadding
              else
                match
                  getTo reply (lengthField fallbacks lenBytes)
                with
                | none => fallbacks.header
                | some header =>
                    .ok
                      (some
                        (header,
                          (getFrom reply
                              (min alignedLen reply.length)).getD
                            fallbacks.rest))

/- Masking the low bits rounds down to the boundary. -/
theorem and_complement
    {n : Nat} (hWord : n < wordSize) :
    n &&& complement (nlmsgAlignTo - 1) = n / 4 * 4 := by
  have hQuotient :
      (n &&& complement (nlmsgAlignTo - 1)) / 2 ^ 2 =
        n / 2 ^ 2 := by
    have hMask :
        complement (nlmsgAlignTo - 1) / 2 ^ 2 = 2 ^ 62 - 1 := by
      decide
    rw [Nat.and_div_two_pow, hMask,
      Nat.and_two_pow_sub_one_eq_mod, Nat.mod_eq_of_lt]
    unfold wordSize at hWord
    omega
  have hRemainder :
      (n &&& complement (nlmsgAlignTo - 1)) % 2 ^ 2 = 0 := by
    have hMask :
        complement (nlmsgAlignTo - 1) % 2 ^ 2 = 0 := by
      decide
    rw [Nat.and_mod_two_pow, hMask, Nat.and_zero]
  omega

/- A length field has no more than 32 bits. -/
theorem length_field_lt (reply : List UInt8) :
    Bytes.toNatLe (reply.take 4) < 2 ^ 32 := by
  have hLt := Bytes.toNatLe_lt (reply.take 4)
  have hPow :
      256 ^ (reply.take 4).length ≤ 256 ^ 4 := by
    apply Nat.pow_le_pow_right (by omega)
    exact List.length_take_le 4 reply
  omega

/- So its conversion and its padding stay in range. -/
theorem lengthField_eq
    (fallbacks : Fallbacks) (reply : List UInt8) :
    lengthField fallbacks (reply.take 4) =
      Bytes.toNatLe (reply.take 4) := by
  have hLt := length_field_lt reply
  unfold lengthField tryFrom
  rw [if_pos, Option.getD_some]
  unfold wordSize
  omega

/- No length of 32 bits is out of range. -/
theorem alignedLength_eq
    {len : Nat} (hLen : len < 2 ^ 32) :
    alignedLength len = some (align len) := by
  have hSum : len + (nlmsgAlignTo - 1) < wordSize := by
    unfold nlmsgAlignTo wordSize
    omega
  unfold alignedLength checkedAdd
  rw [if_pos hSum, Option.map_some, and_complement hSum]
  rfl

/- Whatever the fall-backs are, the split is the same. -/
theorem splitMessageWith_eq
    (fallbacks : Fallbacks) (reply : List UInt8) :
    splitMessageWith fallbacks reply = splitMessage reply := by
  unfold splitMessageWith splitMessage
  by_cases hShort : reply.length < nlmsgHdrLen
  · rw [if_pos hShort, if_pos hShort]
  · rw [if_neg hShort, if_neg hShort]
    have hBytes : getTo reply 4 = some (reply.take 4) := by
      unfold getTo
      rw [if_pos]
      unfold nlmsgHdrLen at hShort
      omega
    simp only [hBytes, lengthField_eq,
      alignedLength_eq (length_field_lt reply)]
    by_cases hLen :
        Bytes.toNatLe (reply.take 4) < nlmsgHdrLen ∨
          reply.length < Bytes.toNatLe (reply.take 4)
    · rw [if_pos hLen, if_pos hLen]
    · rw [if_neg hLen, if_neg hLen]
      have hHeader :
          getTo reply (Bytes.toNatLe (reply.take 4)) =
            some
              (reply.take (Bytes.toNatLe (reply.take 4))) := by
        unfold getTo
        rw [if_pos]
        omega
      have hRest :
          getFrom reply
              (min (align (Bytes.toNatLe (reply.take 4)))
                reply.length) =
            some
              (reply.drop
                (min (align (Bytes.toNatLe (reply.take 4)))
                  reply.length)) := by
        unfold getFrom
        rw [if_pos]
        exact Nat.min_le_right _ _
      rw [hHeader, hRest, Option.getD_some]

------------------------------------------------------------
-- The Loop
------------------------------------------------------------

/- How a loop over a reply ends, short of running on. -/
abbrev Ending := Except TransportError (List UInt8)

/-
  The messages split off in turn, and how it ended: with an
  error, or with a remainder that holds no further message.
-/
def splitAll (fallbacks : Fallbacks) :
    Nat → List UInt8 → Option (List (List UInt8) × Ending)
| 0, _ => none
| fuel + 1, reply =>
    match splitMessageWith fallbacks reply with
    | .error error => some ([], .error error)
    | .ok none => some ([], .ok reply)
    | .ok (some (message, rest)) =>
        (splitAll fallbacks fuel rest).map fun ended =>
          (message :: ended.1, ended.2)

/- The loop makes no more turns than the reply has bytes. -/
theorem splitAll_isSome
    (fallbacks : Fallbacks)
    {fuel : Nat} {reply : List UInt8}
    (hFuel : reply.length < fuel) :
    (splitAll fallbacks fuel reply).isSome := by
  induction fuel generalizing reply with
  | zero => omega
  | succ fuel ih =>
      unfold splitAll
      rw [splitMessageWith_eq]
      cases hSplit : splitMessage reply with
      | error error => rfl
      | ok split =>
          cases split with
          | none => rfl
          | some halves =>
              rcases halves with ⟨message, rest⟩
              have hLt := length_rest_lt hSplit
              simp only [Option.isSome_map]
              apply ih
              omega

------------------------------------------------------------
-- Concatenations
------------------------------------------------------------

/- Each message with its padding. -/
def padded (messages : List (List UInt8)) : List UInt8 :=
  messages.flatMap fun message =>
    message ++ padding message.length

/- The same, or without the padding of the last. -/
def Concatenates
    (messages : List (List UInt8)) (reply : List UInt8) :
    Prop :=
  reply = padded messages ∨
    ∃ front last,
      messages = front ++ [last] ∧ reply = padded front ++ last

/- A message in front is split off, with its padding. -/
theorem splitMessage_append
    {message pad rest : List UInt8}
    (hLength : HasLength message)
    (hPads : Pads message pad rest) :
    splitMessage (message ++ pad ++ rest) =
      .ok (some (message, rest)) := by
  rcases hLength with ⟨hHeader, hField⟩
  unfold nlmsgHdrLen at hHeader
  have hLe := Netlink.le_align message.length
  have hLen :
      Bytes.toNatLe ((message ++ pad ++ rest).take 4) =
        message.length := by
    rw [List.append_assoc,
      List.take_append_of_le_length (by omega)]
    exact hField
  have hTotal :
      (message ++ pad ++ rest).length =
        message.length + pad.length + rest.length := by
    rw [List.length_append, List.length_append]
  have hPadding :
      ¬ ((message ++ pad ++ rest).length <
          align message.length ∧
        message.length ≠ (message ++ pad ++ rest).length) := by
    rcases hPads with hWhole | ⟨hPad, hRest⟩
    · omega
    · rw [hPad, hRest]
      simp
  have hEnd :
      (message ++ pad ++ rest).drop
          (min (align message.length)
            (message ++ pad ++ rest).length) = rest := by
    rcases hPads with hWhole | ⟨hPad, hRest⟩
    · rw [Nat.min_eq_left (by omega), ← hWhole,
        ← List.length_append, List.drop_left]
    · rw [hPad, hRest]
      simpa using hLe
  unfold splitMessage
  rw [if_neg (by unfold nlmsgHdrLen; omega), hLen]
  dsimp only
  rw [if_neg (by unfold nlmsgHdrLen; omega), if_neg hPadding,
    hEnd, List.append_assoc, List.take_left]

/- A reply of one more message begins with it. -/
theorem concatenates_cons
    {message reply : List UInt8}
    {messages : List (List UInt8)}
    (hReply : Concatenates (message :: messages) reply) :
    ∃ pad rest,
      reply = message ++ pad ++ rest ∧
        Pads message pad rest ∧ Concatenates messages rest := by
  rcases hReply with hReply | ⟨front, last, hFront, hReply⟩
  · have hLe := Netlink.le_align message.length
    refine ⟨padding message.length, padded messages, ?_,
      Or.inl ?_, Or.inl rfl⟩
    · rw [hReply]
      rfl
    · rw [Netlink.length_padding]
      omega
  · cases front with
    | nil =>
        simp only [List.nil_append, List.cons.injEq] at hFront
        refine ⟨[], [], ?_, Or.inr ⟨rfl, rfl⟩, Or.inl ?_⟩
        · simp [hReply, hFront.1, padded]
        · rw [hFront.2]
          rfl
    | cons first front =>
        simp only [List.cons_append, List.cons.injEq] at hFront
        have hLe := Netlink.le_align message.length
        refine ⟨padding message.length, padded front ++ last,
          ?_, Or.inl ?_,
          Or.inr ⟨front, last, hFront.2, rfl⟩⟩
        · rw [hReply, hFront.1]
          simp only [padded, List.flatMap_cons,
            List.append_assoc]
        · rw [Netlink.length_padding]
          omega

/- The messages come back in order, and then none. -/
theorem splitAll_of_concatenates
    (fallbacks : Fallbacks)
    {fuel : Nat} {reply : List UInt8}
    {messages : List (List UInt8)}
    (hMessages : ∀ message ∈ messages, HasLength message)
    (hReply : Concatenates messages reply)
    (hFuel : reply.length < fuel) :
    splitAll fallbacks fuel reply =
      some (messages, .ok []) := by
  induction messages generalizing fuel reply with
  | nil =>
      have hNil : reply = [] := by
        rcases hReply with hReply | ⟨front, last, hFront, _⟩
        · exact hReply
        · simp at hFront
      cases fuel with
      | zero => omega
      | succ fuel =>
          rw [hNil]
          unfold splitAll
          rw [splitMessageWith_eq]
          rfl
  | cons message messages ih =>
      rcases concatenates_cons hReply with
        ⟨pad, rest, hEq, hPads, hRest⟩
      have hLength := hMessages message List.mem_cons_self
      have hSplit := splitMessage_append hLength hPads
      rw [← hEq] at hSplit
      have hLt := length_rest_lt hSplit
      cases fuel with
      | zero => omega
      | succ fuel =>
          have hMore : splitAll fallbacks fuel rest =
              some (messages, .ok []) := by
            apply ih
            · intro other hMem
              exact hMessages other
                (List.mem_cons_of_mem message hMem)
            · exact hRest
            · omega
          unfold splitAll
          rw [splitMessageWith_eq, hSplit]
          simp only [hMore, Option.map_some]

------------------------------------------------------------
-- Errors
------------------------------------------------------------

/-
  A length field below a header, or beyond the reply, or
  with more data after padding that is cut off.
-/
def Malformed (reply : List UInt8) : Prop :=
  Bytes.toNatLe (reply.take 4) < nlmsgHdrLen ∨
    reply.length < Bytes.toNatLe (reply.take 4) ∨
    Bytes.toNatLe (reply.take 4) < reply.length ∧
      reply.length < align (Bytes.toNatLe (reply.take 4))

instance (reply : List UInt8) : Decidable (Malformed reply) :=
  inferInstanceAs (Decidable (_ ∨ _ ∨ _ ∧ _))

/- Nothing is split off less than a header. -/
theorem splitMessage_eq_none_iff (reply : List UInt8) :
    splitMessage reply = .ok none ↔
      reply.length < nlmsgHdrLen := by
  constructor
  · exact length_of_none
  · intro hShort
    unfold splitMessage
    rw [if_pos hShort]

/- With a header there, malformed is an error. -/
theorem splitMessage_error_iff
    {reply : List UInt8}
    (hHeader : nlmsgHdrLen ≤ reply.length) :
    (∃ error, splitMessage reply = .error error) ↔
      Malformed reply := by
  unfold splitMessage Malformed
  rw [if_neg (by omega)]
  dsimp only
  by_cases hLen :
      Bytes.toNatLe (reply.take 4) < nlmsgHdrLen ∨
        reply.length < Bytes.toNatLe (reply.take 4)
  · rw [if_pos hLen]
    constructor
    · intro _
      omega
    · intro _
      exact ⟨_, rfl⟩
  · rw [if_neg hLen]
    by_cases hPadding :
        reply.length < align (Bytes.toNatLe (reply.take 4)) ∧
          Bytes.toNatLe (reply.take 4) ≠ reply.length
    · rw [if_pos hPadding]
      constructor
      · intro _
        omega
      · intro _
        exact ⟨_, rfl⟩
    · rw [if_neg hPadding]
      constructor
      · intro hError
        rcases hError with ⟨error, hError⟩
        cases hError
      · intro hMalformed
        omega

------------------------------------------------------------
-- Splitting Inverts Concatenation
------------------------------------------------------------

/-
  The split falls back on nothing, gets shorter each time
  and so comes to an end, and takes every concatenation of
  messages apart. What is malformed is an error, unless less
  than a header remains: that ends the loop.
-/
theorem splitMessage_inverts_concatenation
    (fallbacks : Fallbacks) (reply : List UInt8) :
    splitMessageWith fallbacks reply = splitMessage reply ∧
      (∀ message rest,
        splitMessageWith fallbacks reply =
            .ok (some (message, rest)) →
          rest.length < reply.length) ∧
      (∀ fuel, reply.length < fuel →
        (splitAll fallbacks fuel reply).isSome) ∧
      (∀ messages,
        (∀ message ∈ messages, HasLength message) →
        Concatenates messages reply →
        ∀ fuel, reply.length < fuel →
          splitAll fallbacks fuel reply =
            some (messages, .ok [])) ∧
      (nlmsgHdrLen ≤ reply.length →
        ((∃ error,
            splitMessageWith fallbacks reply = .error error) ↔
          Malformed reply)) ∧
      (splitMessageWith fallbacks reply = .ok none ↔
        reply.length < nlmsgHdrLen) := by
  rw [splitMessageWith_eq]
  refine ⟨rfl, ?_, ?_, ?_, ?_, ?_⟩
  · intro message rest hSplit
    exact length_rest_lt hSplit
  · intro fuel hFuel
    exact splitAll_isSome fallbacks hFuel
  · intro messages hMessages hReply fuel hFuel
    exact splitAll_of_concatenates fallbacks hMessages hReply
      hFuel
  · exact splitMessage_error_iff
  · exact splitMessage_eq_none_iff reply

/- A message of seventeen bytes, and a short one unpadded. -/
def longMessage : List UInt8 :=
  Bytes.ofNatLe 4 17 ++ List.replicate 13 0

/- A message with a header and nothing more. -/
def shortMessage : List UInt8 :=
  Bytes.ofNatLe 4 16 ++ List.replicate 12 0

/- Two messages, the first of them padded. -/
theorem splitMessage_inverts_two :
    splitAll fallbacks 37
        (longMessage ++ padding 17 ++ shortMessage) =
      some ([longMessage, shortMessage], .ok []) := by
  have hAll := splitMessage_inverts_concatenation fallbacks
    (longMessage ++ padding 17 ++ shortMessage)
  apply hAll.2.2.2.1 [longMessage, shortMessage]
  · intro message hMem
    simp only [List.mem_cons, List.not_mem_nil, or_false]
      at hMem
    rcases hMem with rfl | rfl
    · unfold HasLength
      decide
    · unfold HasLength
      decide
  · right
    refine ⟨[longMessage], shortMessage, rfl, ?_⟩
    simp [padded, longMessage]
  · decide

/- A length field beyond the end, in less than a header. -/
def shortTail : List UInt8 :=
  Bytes.ofNatLe 4 16 ++ List.replicate 11 0

/- It is no error, though the field is beyond the reply. -/
theorem malformed_short_tail_ends :
    Malformed shortTail ∧
      ¬ ∃ error,
        splitMessageWith fallbacks shortTail =
          .error error := by
  constructor
  · decide
  · rintro ⟨error, hError⟩
    rw [splitMessageWith_eq,
      (splitMessage_eq_none_iff shortTail).2 (by decide)]
      at hError
    cases hError

end Splitting

end Firewall

end Guest

end CargoUnikernel
