import CargoUnikernel.Library.Netlink
import Mathlib.Tactic.Common

/-
  The netlink message buffer of the firewall.

  Lengths are patched in once their content is known, and a
  length that does not fit latches `overflowed`, which
  `finish` refuses. On a buffer that starts aligned, what
  the calls build is the encoding of an attribute tree.

  Main declarations:
    * `NlBuf` and its operations
    * `NlBuf.emit`, `NlBuf.emitAll`
    * `NlBuf.emitAll_eq_put`
    * `NlBuf.message_eq_put`
-/

------------------------------------------------------------
-- The Buffer
------------------------------------------------------------

namespace CargoUnikernel

namespace Guest

namespace Firewall

open Netlink

/- The bytes so far, and whether a length did not fit. -/
structure NlBuf where
  bytes : List UInt8
  overflowed : Bool
deriving DecidableEq

/- `NlBuf::default()`. -/
def NlBuf.empty : NlBuf where
  bytes := []
  overflowed := false

namespace NlBuf

/- Bytes at the end. -/
def put (buf : NlBuf) (bytes : List UInt8) : NlBuf :=
  { buf with bytes := buf.bytes ++ bytes }

/- Pads to the next 4-byte boundary. -/
def pad (buf : NlBuf) : NlBuf :=
  buf.put (padding buf.bytes.length)

/- Something did not fit its length field. -/
def overflow (buf : NlBuf) : NlBuf :=
  { buf with overflowed := true }

/- Overwrites the bytes from an offset on. -/
def overwrite
    (buf : NlBuf) (offset : Nat) (bytes : List UInt8) :
    NlBuf :=
  { buf with
    bytes := buf.bytes.take offset ++ bytes ++
      buf.bytes.drop (offset + bytes.length) }

/- Patches a length, or latches `overflowed`. -/
def patchU32
    (buf : NlBuf) (offset value : Nat) : NlBuf :=
  if value < 2 ^ 32 then
    if offset + 4 ≤ buf.bytes.length then
      buf.overwrite offset (Bytes.ofNatLe 4 value)
    else
      buf.overflow
  else
    buf.overflow

/- A length is put where room was left for it. -/
def patchU16
    (buf : NlBuf) (offset value : Nat) : NlBuf :=
  if value < 2 ^ 16 then
    if offset + 2 ≤ buf.bytes.length then
      buf.overwrite offset (Bytes.ofNatLe 2 value)
    else
      buf.overflow
  else
    buf.overflow

/- Starts a message; its length goes to the offset returned. -/
def beginMsg
    (buf : NlBuf)
    (msgType flags : UInt16) (seq : UInt32) :
    Nat × NlBuf :=
  (buf.bytes.length,
    ((((buf.put (Bytes.ofNatLe 4 0)).put
      (Bytes.ofNatLe 2 msgType.toNat)).put
      (Bytes.ofNatLe 2 flags.toNat)).put
      (Bytes.ofNatLe 4 seq.toNat)).put
      (Bytes.ofNatLe 4 0))

/- The message's length includes its header and padding. -/
def endMsg (buf : NlBuf) (offset : Nat) : NlBuf :=
  let padded := buf.pad
  padded.patchU32 offset (padded.bytes.length - offset)

/- `res_id` is big-endian, unlike the header's fields. -/
def putNfgenmsg
    (buf : NlBuf) (family : UInt8) (resId : UInt16) :
    NlBuf :=
  (buf.put [family, 0]).put (Bytes.ofNatBe 2 resId.toNat)

/- An attribute whose length fits sixteen bits. -/
def putAttr
    (buf : NlBuf)
    (attrType : UInt16) (payload : List UInt8) :
    NlBuf :=
  if 4 + payload.length < 2 ^ 16 then
    (((buf.put (Bytes.ofNatLe 2 (4 + payload.length))).put
      (Bytes.ofNatLe 2 attrType.toNat)).put payload).pad
  else
    buf.overflow

/- Scalar attributes are big-endian. -/
def putBe32
    (buf : NlBuf) (attrType : UInt16) (value : UInt32) :
    NlBuf :=
  buf.putAttr attrType (Bytes.ofNatBe 4 value.toNat)

/- A string attribute ends in a NUL. -/
def putStr
    (buf : NlBuf)
    (attrType : UInt16) (value : List UInt8) :
    NlBuf :=
  buf.putAttr attrType (value ++ [0])

/- The header of a nest, with its length left open. -/
def beginNested
    (buf : NlBuf) (attrType : UInt16) : Nat × NlBuf :=
  (buf.bytes.length,
    (buf.put (Bytes.ofNatLe 2 0)).put
      (Bytes.ofNatLe 2 (attrType ||| nestedFlag).toNat))

/- The nest's length, up to the end of the buffer. -/
def endNested (buf : NlBuf) (offset : Nat) : NlBuf :=
  let padded := buf.pad
  padded.patchU16 offset (padded.bytes.length - offset)

/- The bytes of a buffer no length of which overflowed. -/
def finish (buf : NlBuf) : Except String (List UInt8) :=
  if buf.overflowed then
    .error
      "firewall ruleset exceeded netlink's message limits"
  else
    .ok buf.bytes

/- What a closure emits between a nested begin and its end. -/
def nested
    (buf : NlBuf) (attrType : UInt16)
    (data : NlBuf → NlBuf) :
    NlBuf :=
  (data (buf.beginNested attrType).2).endNested
    (buf.beginNested attrType).1

/- The same for a message. -/
def message
    (buf : NlBuf)
    (msgType flags : UInt16) (seq : UInt32)
    (data : NlBuf → NlBuf) :
    NlBuf :=
  (data (buf.beginMsg msgType flags seq).2).endMsg
    (buf.beginMsg msgType flags seq).1

mutual

/- Emits an attribute tree. -/
def emit (buf : NlBuf) : Attr → NlBuf
| .leaf type payload => buf.putAttr type payload
| .nest type children =>
    (emitAll (buf.beginNested type).2 children).endNested
      (buf.beginNested type).1

/- Attributes one after another. -/
def emitAll (buf : NlBuf) : List Attr → NlBuf
| [] => buf
| attr :: attrs => emitAll (emit buf attr) attrs

end

@[simp] theorem emit_leaf
    (buf : NlBuf) (type : UInt16) (payload : List UInt8) :
    buf.emit (.leaf type payload) =
      buf.putAttr type payload := by
  simp [emit]

@[simp] theorem emit_nest
    (buf : NlBuf) (type : UInt16) (children : List Attr) :
    buf.emit (.nest type children) =
      buf.nested type fun inner => inner.emitAll children := by
  simp [emit, nested]

@[simp] theorem emitAll_nil (buf : NlBuf) :
    buf.emitAll [] = buf := by
  simp [emitAll]

@[simp] theorem emitAll_cons
    (buf : NlBuf) (attr : Attr) (attrs : List Attr) :
    buf.emitAll (attr :: attrs) =
      (buf.emit attr).emitAll attrs := by
  simp [emitAll]

------------------------------------------------------------
-- Emission Is Encoding
------------------------------------------------------------

@[simp] theorem put_put
    (buf : NlBuf) (xs ys : List UInt8) :
    (buf.put xs).put ys = buf.put (xs ++ ys) := by
  simp [put]

@[simp] theorem put_nil (buf : NlBuf) :
    buf.put [] = buf := by
  simp [put]

@[simp] theorem length_put
    (buf : NlBuf) (bytes : List UInt8) :
    (buf.put bytes).bytes.length =
      buf.bytes.length + bytes.length := by
  simp [put]

/- What is aligned needs no padding. -/
theorem pad_of_dvd
    {buf : NlBuf} (hAligned : 4 ∣ buf.bytes.length) :
    buf.pad = buf := by
  simp [pad, padding_of_dvd hAligned]

/- Overwriting what was put at an offset puts the new bytes. -/
theorem overwrite_put
    (buf : NlBuf) {old new : List UInt8} (rest : List UInt8)
    (hLength : old.length = new.length) :
    (buf.put (old ++ rest)).overwrite buf.bytes.length new =
      buf.put (new ++ rest) := by
  have hDrop :
      (buf.bytes ++ (old ++ rest)).drop
          (buf.bytes.length + new.length) = rest := by
    rw [← hLength, ← List.append_assoc,
      ← List.length_append, List.drop_left]
  simp only [overwrite, put, List.take_left, hDrop,
    List.append_assoc]

/- A leaf whose length fits is put encoded. -/
theorem putAttr_of_lt
    {buf : NlBuf} (type : UInt16) {payload : List UInt8}
    (hAligned : 4 ∣ buf.bytes.length)
    (hLength : 4 + payload.length < 2 ^ 16) :
    buf.putAttr type payload =
      buf.put (Attr.leaf type payload).encode := by
  have hPad :
      padding (buf.bytes.length +
          (Bytes.ofNatLe 2 (4 + payload.length) ++
            (Bytes.ofNatLe 2 type.toNat ++
              payload)).length) =
        padding payload.length := by
    simp only [List.length_append, Bytes.length_ofNatLe]
    rw [padding_add hAligned,
      show 2 + (2 + payload.length) = 4 + payload.length by
        omega,
      padding_add (by decide)]
  simp only [putAttr, if_pos hLength, pad, put_put, length_put,
    Attr.encode, List.append_assoc, hPad]

/- An attribute that fits is put as it is encoded. -/
theorem putAttr_eq_put
    {buf : NlBuf} {type : UInt16} {payload : List UInt8}
    (hAligned : 4 ∣ buf.bytes.length)
    (hFits : (Attr.leaf type payload).fits = true) :
    buf.putAttr type payload =
      buf.put (Attr.leaf type payload).encode := by
  simp only [Attr.fits, Bool.and_eq_true,
    decide_eq_true_eq] at hFits
  exact putAttr_of_lt type hAligned hFits.2

/- A nested attribute patches its own header. -/
theorem nested_eq_put
    {buf : NlBuf} {type : UInt16} {content : List UInt8}
    {data : NlBuf → NlBuf}
    (hAligned : 4 ∣ buf.bytes.length)
    (hContent : 4 ∣ content.length)
    (hLength : 4 + content.length < 2 ^ 16)
    (hData :
      ∀ inner : NlBuf, 4 ∣ inner.bytes.length →
        data inner = inner.put content) :
    buf.nested type data =
      buf.put
        (Bytes.ofNatLe 2 (4 + content.length) ++
          Bytes.ofNatLe 2 (type ||| nestedFlag).toNat ++
          content) := by
  have hInner :
      data (buf.beginNested type).2 =
        buf.put
          (Bytes.ofNatLe 2 0 ++
            (Bytes.ofNatLe 2 (type ||| nestedFlag).toNat ++
              content)) := by
    rw [hData _ (by simp [beginNested]; omega)]
    simp [beginNested]
  have hPadded :
      4 ∣
        (buf.put
          (Bytes.ofNatLe 2 0 ++
            (Bytes.ofNatLe 2 (type ||| nestedFlag).toNat ++
              content))).bytes.length := by
    simp only [length_put, List.length_append,
      Bytes.length_ofNatLe]
    omega
  have hValue :
      buf.bytes.length + (2 + (2 + content.length)) -
          buf.bytes.length =
        4 + content.length := by
    omega
  have hRoom :
      buf.bytes.length + 2 ≤
        buf.bytes.length + (2 + (2 + content.length)) := by
    omega
  unfold nested
  rw [hInner]
  simp only [beginNested, endNested, pad_of_dvd hPadded,
    patchU16, length_put, List.length_append,
    Bytes.length_ofNatLe, hValue, if_pos hLength, if_pos hRoom]
  rw [overwrite_put buf _ (by simp), List.append_assoc]

mutual

/- A tree that fits is put encoded. -/
theorem emit_eq_put :
    ∀ (attr : Attr) {buf : NlBuf},
      4 ∣ buf.bytes.length → attr.fits = true →
        buf.emit attr = buf.put attr.encode
| .leaf type payload, buf, hAligned, hFits => by
    rw [emit_leaf, putAttr_eq_put hAligned hFits]
| .nest type children, buf, hAligned, hFits => by
    simp only [Attr.fits, Bool.and_eq_true,
      decide_eq_true_eq] at hFits
    rw [emit_nest]
    simp only [Attr.encode]
    exact nested_eq_put hAligned
      (four_dvd_length_encodeAll children) hFits.1.2
      fun _ hInner => emitAll_eq_put children hInner hFits.2

/- So are attributes one after another. -/
theorem emitAll_eq_put :
    ∀ (attrs : List Attr) {buf : NlBuf},
      4 ∣ buf.bytes.length → allFit attrs = true →
        buf.emitAll attrs = buf.put (encodeAll attrs)
| [], buf, _, _ => by simp
| attr :: attrs, buf, hAligned, hFits => by
    rw [allFit_cons, Bool.and_eq_true] at hFits
    have hAttr := emit_eq_put attr hAligned hFits.1
    have hNext : 4 ∣ (buf.put attr.encode).bytes.length := by
      rw [length_put]
      exact Nat.dvd_add hAligned attr.four_dvd_length_encode
    rw [emitAll_cons, hAttr,
      emitAll_eq_put attrs hNext hFits.2, put_put,
      encodeAll_cons]

end

/- A message that fits is put encoded. -/
theorem message_eq_put
    {buf : NlBuf} (message : Message)
    {data : NlBuf → NlBuf}
    (hAligned : 4 ∣ buf.bytes.length)
    (hFits : message.fits = true)
    (hData :
      ∀ inner : NlBuf, 4 ∣ inner.bytes.length →
        data inner =
          (inner.putNfgenmsg message.family
            message.resId).emitAll message.attrs) :
    buf.message message.type message.flags message.seq data =
      buf.put message.encode := by
  simp only [Message.fits, Bool.and_eq_true,
    decide_eq_true_eq] at hFits
  have hInner :
      data
          (buf.beginMsg message.type message.flags
            message.seq).2 =
        buf.put (Bytes.ofNatLe 4 0 ++ message.body) := by
    rw [hData _ (by simp [beginMsg]; omega),
      emitAll_eq_put _
        (by simp [beginMsg, putNfgenmsg]; omega) hFits.1]
    simp [beginMsg, putNfgenmsg, Message.body,
      List.append_assoc]
  have hPadded :
      4 ∣
        (buf.put
          (Bytes.ofNatLe 4 0 ++ message.body)).bytes.length := by
    have hEncoded := message.four_dvd_length_encode
    simp only [Message.encode, List.length_append,
      Bytes.length_ofNatLe] at hEncoded
    simp only [length_put, List.length_append,
      Bytes.length_ofNatLe]
    omega
  have hValue :
      buf.bytes.length + (4 + message.body.length) -
          buf.bytes.length =
        4 + message.body.length := by
    omega
  have hRoom :
      buf.bytes.length + 4 ≤
        buf.bytes.length + (4 + message.body.length) := by
    omega
  unfold NlBuf.message
  rw [hInner]
  simp only [beginMsg, endMsg, pad_of_dvd hPadded, patchU32,
    length_put, List.length_append, Bytes.length_ofNatLe,
    hValue, if_pos hFits.2, if_pos hRoom]
  rw [overwrite_put buf _ (by simp), Message.encode]

end NlBuf

end Firewall

end Guest

end CargoUnikernel
