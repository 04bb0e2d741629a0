import CargoUnikernel.Library.Bytes
import Mathlib.Tactic.Common
import Mathlib.Tactic.Ring
import Mathlib.Data.Nat.Bitwise

/-
  Netlink messages and the attribute trees they carry.

  Every length counts its own header but not the padding
  after it, and everything starts on a 4-byte boundary. The
  headers are in the host's byte order, little-endian here.
  A nested attribute announces itself by a flag in its
  type, which leaves 14 bits to the type proper.

  Main declarations:
    * `Attr`, `Attr.encode`, `decodeAttrs`
    * `decodeAttrs_encodeAll`
    * `Message`, `Message.encode`, `decodeMessages`
    * `decodeMessages_encode`
-/

------------------------------------------------------------
-- Alignment
------------------------------------------------------------

namespace Netlink

/- The next multiple of four. -/
def align (n : Nat) : Nat :=
  (n + 3) / 4 * 4

/- Zeros up to the next multiple of four. -/
def padding (n : Nat) : List UInt8 :=
  List.replicate (align n - n) 0

/- Alignment only adds, -/
theorem le_align (n : Nat) : n ≤ align n := by
  unfold align
  omega

/- and less than four. -/
theorem align_lt (n : Nat) : align n < n + 4 := by
  unfold align
  omega

/- What is aligned stays. -/
theorem align_of_dvd {n : Nat} (hAligned : 4 ∣ n) :
    align n = n := by
  unfold align
  omega

/- The result is aligned. -/
theorem four_dvd_align (n : Nat) : 4 ∣ align n :=
  ⟨(n + 3) / 4, Nat.mul_comm _ _⟩

/- An aligned part is left out of it. -/
theorem align_add {n : Nat} (hAligned : 4 ∣ n) (m : Nat) :
    align (n + m) = n + align m := by
  unfold align
  omega

@[simp] theorem length_padding (n : Nat) :
    (padding n).length = align n - n := by
  simp [padding]

/- No padding where none is needed. -/
theorem padding_of_dvd {n : Nat} (hAligned : 4 ∣ n) :
    padding n = [] := by
  simp [padding, align_of_dvd hAligned]

/- And none for an aligned part. -/
theorem padding_add
    {n : Nat} (hAligned : 4 ∣ n) (m : Nat) :
    padding (n + m) = padding m := by
  unfold padding
  rw [align_add hAligned]
  congr 1
  omega

------------------------------------------------------------
-- Attribute Trees
------------------------------------------------------------

/- `NLA_F_NESTED`, and the bits below both flags. -/
def nestedFlag : UInt16 := 0x8000

/- The bits of a type without those that are flags. -/
def typeMask : UInt16 := 0x3fff

/- A payload under a type, or a list of attributes under one. -/
inductive Attr
| leaf (type : UInt16) (payload : List UInt8)
| nest (type : UInt16) (children : List Attr)

mutual

/- Header, content and padding. -/
def Attr.encode : Attr → List UInt8
| .leaf type payload =>
    Bytes.ofNatLe 2 (4 + payload.length) ++
      Bytes.ofNatLe 2 type.toNat ++ payload ++
      padding payload.length
| .nest type children =>
    Bytes.ofNatLe 2 (4 + (encodeAll children).length) ++
      Bytes.ofNatLe 2 (type ||| nestedFlag).toNat ++
      encodeAll children

/- Attributes one after another. -/
def encodeAll : List Attr → List UInt8
| [] => []
| attr :: attrs => attr.encode ++ encodeAll attrs

end

@[simp] theorem encodeAll_nil : encodeAll [] = [] := by
  simp [encodeAll]

@[simp] theorem encodeAll_cons
    (attr : Attr) (attrs : List Attr) :
    encodeAll (attr :: attrs) =
      attr.encode ++ encodeAll attrs := by
  simp [encodeAll]

mutual

/- Every type has 14 bits and every length has 16. -/
def Attr.fits : Attr → Bool
| .leaf type payload =>
    decide (type.toNat < 2 ^ 14) &&
      decide (4 + payload.length < 2 ^ 16)
| .nest type children =>
    decide (type.toNat < 2 ^ 14) &&
      decide (4 + (encodeAll children).length < 2 ^ 16) &&
      allFit children

/- All of their lengths fit the length field. -/
def allFit : List Attr → Bool
| [] => true
| attr :: attrs => attr.fits && allFit attrs

end

@[simp] theorem allFit_nil : allFit [] = true := by
  simp [allFit]

@[simp] theorem allFit_cons
    (attr : Attr) (attrs : List Attr) :
    allFit (attr :: attrs) = (attr.fits && allFit attrs) := by
  simp [allFit]

mutual

/- The length fields of a tree, one for each attribute. -/
def Attr.lengths : Attr → List Nat
| .leaf _ payload => [4 + payload.length]
| .nest _ children =>
    (4 + (encodeAll children).length) :: allLengths children

/- The lengths in all their headers. -/
def allLengths : List Attr → List Nat
| [] => []
| attr :: attrs => attr.lengths ++ allLengths attrs

end

mutual

/- Every type has 14 bits. -/
def Attr.typed : Attr → Bool
| .leaf type _ => decide (type.toNat < 2 ^ 14)
| .nest type children =>
    decide (type.toNat < 2 ^ 14) && allTyped children

/- All of their types leave the flags alone. -/
def allTyped : List Attr → Bool
| [] => true
| attr :: attrs => attr.typed && allTyped attrs

end

mutual

/- A tree fits when its types do and its lengths do. -/
theorem Attr.fits_iff :
    ∀ attr : Attr,
      attr.fits = true ↔
        attr.typed = true ∧ ∀ n ∈ attr.lengths, n < 2 ^ 16
| .leaf type payload => by
    simp [Attr.fits, Attr.typed, Attr.lengths]
| .nest type children => by
    have hChildren := allFit_iff children
    simp only [Attr.fits, Attr.typed, Attr.lengths,
      Bool.and_eq_true, decide_eq_true_eq,
      List.forall_mem_cons, hChildren]
    tauto

/- Every type and every length fits its field. -/
theorem allFit_iff :
    ∀ attrs : List Attr,
      allFit attrs = true ↔
        allTyped attrs = true ∧
          ∀ n ∈ allLengths attrs, n < 2 ^ 16
| [] => by simp [allTyped, allLengths]
| attr :: attrs => by
    have hAttr := attr.fits_iff
    have hAttrs := allFit_iff attrs
    simp only [allFit_cons, allTyped, allLengths,
      Bool.and_eq_true, List.forall_mem_append, hAttr, hAttrs]
    tauto

end

mutual

/- An attribute ends on the boundary it starts on. -/
theorem Attr.four_dvd_length_encode :
    ∀ attr : Attr, 4 ∣ attr.encode.length
| .leaf _ payload => by
    have hPad := four_dvd_align (4 + payload.length)
    have hAlign :=
      align_add (n := 4) (by decide) payload.length
    have hLe := le_align payload.length
    simp only [Attr.encode, List.length_append,
      Bytes.length_ofNatLe, length_padding]
    omega
| .nest _ children => by
    have hChildren := four_dvd_length_encodeAll children
    simp only [Attr.encode, List.length_append,
      Bytes.length_ofNatLe]
    omega

/- Attributes end at a multiple of four. -/
theorem four_dvd_length_encodeAll :
    ∀ attrs : List Attr, 4 ∣ (encodeAll attrs).length
| [] => by simp
| attr :: attrs => by
    rw [encodeAll_cons, List.length_append]
    exact Nat.dvd_add attr.four_dvd_length_encode
      (four_dvd_length_encodeAll attrs)

end

------------------------------------------------------------
-- Decoding Attributes
------------------------------------------------------------

/- The first attribute's raw type and payload, and the rest. -/
def splitAttr :
    List UInt8 → Option (UInt16 × List UInt8 × List UInt8)
| l₀ :: l₁ :: t₀ :: t₁ :: rest =>
    let length := Bytes.toNatLe [l₀, l₁]
    if 4 ≤ length ∧ length - 4 ≤ rest.length then
      some
        (UInt16.ofNat (Bytes.toNatLe [t₀, t₁]),
          rest.take (length - 4),
          rest.drop (align (length - 4)))
    else
      none
| _ => none

/-
  The attributes of a byte string. Fuel bounds the nesting
  and the number of attributes together; the length of the
  string is always enough.
-/
def decodeAttrsWithin : Nat → List UInt8 → Option (List Attr)
| 0, _ => none
| _ + 1, [] => some []
| fuel + 1, byte :: bytes =>
    match splitAttr (byte :: bytes) with
    | none => none
    | some (type, payload, rest) =>
        match decodeAttrsWithin fuel rest with
        | none => none
        | some attrs =>
            if type &&& nestedFlag = 0 then
              some (.leaf (type &&& typeMask) payload :: attrs)
            else
              (decodeAttrsWithin fuel payload).map
                fun children =>
                  .nest (type &&& typeMask) children :: attrs

/- The attributes of a whole payload. -/
def decodeAttrs (bytes : List UInt8) : Option (List Attr) :=
  decodeAttrsWithin (bytes.length + 1) bytes

/- Masks distribute over flags. -/
theorem or_and_distrib (a b c : UInt16) :
    (a ||| b) &&& c = (a &&& c) ||| (b &&& c) := by
  apply UInt16.toNat_inj.mp
  simp only [UInt16.toNat_and, UInt16.toNat_or]
  exact Nat.and_or_distrib_right ..

/- A 14-bit type carries no flag, -/
theorem leaf_type
    {type : UInt16} (hType : type.toNat < 2 ^ 14) :
    type &&& nestedFlag = 0 ∧ type &&& typeMask = type := by
  constructor
  · apply UInt16.toNat_inj.mp
    rw [UInt16.toNat_and]
    show type.toNat &&& 2 ^ 15 = 0
    rw [Nat.and_two_pow, Nat.testBit_lt_two_pow (by omega)]
    rfl
  · apply UInt16.toNat_inj.mp
    rw [UInt16.toNat_and]
    show type.toNat &&& (2 ^ 14 - 1) = type.toNat
    rw [Nat.and_two_pow_sub_one_eq_mod]
    exact Nat.mod_eq_of_lt hType

/- and a flag put on it is read off and masked off again. -/
theorem nested_type
    {type : UInt16} (hType : type.toNat < 2 ^ 14) :
    (type ||| nestedFlag) &&& nestedFlag ≠ 0 ∧
      (type ||| nestedFlag) &&& typeMask = type := by
  have hAnd : nestedFlag &&& typeMask = 0 := by decide
  constructor
  · rw [or_and_distrib, (leaf_type hType).1]
    decide
  · rw [or_and_distrib, (leaf_type hType).2, hAnd]
    simp

/- Sixteen bits are two bytes, the low one first. -/
theorem ofNatLe_two (n : Nat) :
    Bytes.ofNatLe 2 n =
      [UInt8.ofNat n, UInt8.ofNat (n / 256)] := rfl

/- A header says where its payload and the rest begin. -/
theorem splitAttr_header
    (type : UInt16) {payload : List UInt8}
    (rest : List UInt8)
    (hLength : 4 + payload.length < 2 ^ 16) :
    splitAttr
        (Bytes.ofNatLe 2 (4 + payload.length) ++
          Bytes.ofNatLe 2 type.toNat ++ payload ++
          padding payload.length ++ rest) =
      some (type, payload, rest) := by
  have hValue :
      Bytes.toNatLe (Bytes.ofNatLe 2 (4 + payload.length)) =
        4 + payload.length :=
    Bytes.toNatLe_ofNatLe (by omega)
  have hType :
      UInt16.ofNat
          (Bytes.toNatLe (Bytes.ofNatLe 2 type.toNat)) =
        type := by
    rw [Bytes.toNatLe_ofNatLe (by have := type.toNat_lt; omega)]
    exact UInt16.ofNat_toNat
  have hDrop :
      (payload ++ (padding payload.length ++ rest)).drop
          (align payload.length) = rest := by
    have hPadded :
        (payload ++ padding payload.length).length =
          align payload.length := by
      have hLe := le_align payload.length
      simp only [List.length_append, length_padding]
      omega
    rw [← List.append_assoc, ← hPadded, List.drop_left]
  rw [ofNatLe_two] at hValue hType
  simp only [ofNatLe_two, List.cons_append, List.nil_append,
    List.append_assoc, splitAttr] at hValue hType ⊢
  simp only [hValue, hType, Nat.add_sub_cancel_left, hDrop,
    List.take_left, List.length_append, Nat.le_add_right,
    and_self, if_true]

/- A leaf is split off by its length. -/
theorem splitAttr_leaf
    (type : UInt16) {payload : List UInt8}
    (rest : List UInt8)
    (hLength : 4 + payload.length < 2 ^ 16) :
    splitAttr ((Attr.leaf type payload).encode ++ rest) =
      some (type, payload, rest) := by
  simpa [Attr.encode] using
    splitAttr_header type rest hLength

/- So is a nest. -/
theorem splitAttr_nest
    (type : UInt16) {children : List Attr}
    (rest : List UInt8)
    (hLength : 4 + (encodeAll children).length < 2 ^ 16) :
    splitAttr ((Attr.nest type children).encode ++ rest) =
      some
        (type ||| nestedFlag, encodeAll children, rest) := by
  have hPad : padding (encodeAll children).length = [] :=
    padding_of_dvd (four_dvd_length_encodeAll children)
  simpa [Attr.encode, hPad] using
    splitAttr_header (type ||| nestedFlag) rest hLength

/- Decoding some bytes decodes their first attribute. -/
theorem decodeAttrsWithin_succ
    {fuel : Nat} {bytes : List UInt8} (hSome : bytes ≠ []) :
    decodeAttrsWithin (fuel + 1) bytes =
      match splitAttr bytes with
      | none => none
      | some (type, payload, rest) =>
          match decodeAttrsWithin fuel rest with
          | none => none
          | some attrs =>
              if type &&& nestedFlag = 0 then
                some
                  (.leaf (type &&& typeMask) payload :: attrs)
              else
                (decodeAttrsWithin fuel payload).map
                  fun children =>
                    .nest (type &&& typeMask) children ::
                      attrs := by
  cases bytes with
  | nil => exact absurd rfl hSome
  | cons byte bytes => rfl

/- Sizes, and what fits them, node by node. -/
@[simp] theorem Attr.length_encode_leaf
    (type : UInt16) (payload : List UInt8) :
    (Attr.leaf type payload).encode.length =
      4 + align payload.length := by
  have hLe := le_align payload.length
  simp only [Attr.encode, List.length_append,
    Bytes.length_ofNatLe, length_padding]
  omega

@[simp] theorem Attr.length_encode_nest
    (type : UInt16) (children : List Attr) :
    (Attr.nest type children).encode.length =
      4 + (encodeAll children).length := by
  simp only [Attr.encode, List.length_append,
    Bytes.length_ofNatLe]

@[simp] theorem Attr.fits_leaf
    (type : UInt16) (payload : List UInt8) :
    (Attr.leaf type payload).fits =
      (decide (type.toNat < 2 ^ 14) &&
        decide (4 + payload.length < 2 ^ 16)) := by
  simp [Attr.fits]

@[simp] theorem Attr.fits_nest
    (type : UInt16) (children : List Attr) :
    (Attr.nest type children).fits =
      (decide (type.toNat < 2 ^ 14) &&
        decide (4 + (encodeAll children).length < 2 ^ 16) &&
        allFit children) := by
  simp [Attr.fits]

/- The header alone has four bytes. -/
theorem Attr.four_le_length_encode (attr : Attr) :
    4 ≤ attr.encode.length := by
  cases attr <;>
    simp only [Attr.encode, List.length_append,
      Bytes.length_ofNatLe] <;>
    omega

/- The tree that was encoded is the tree that is decoded. -/
theorem decodeAttrsWithin_encodeAll
    {fuel : Nat} {attrs : List Attr}
    (hFits : allFit attrs = true)
    (hFuel : (encodeAll attrs).length < fuel) :
    decodeAttrsWithin fuel (encodeAll attrs) = some attrs := by
  induction fuel generalizing attrs with
  | zero => omega
  | succ fuel ih =>
      cases attrs with
      | nil => simp [decodeAttrsWithin]
      | cons attr attrs =>
          have hHead := attr.four_le_length_encode
          rw [allFit_cons, Bool.and_eq_true] at hFits
          rw [encodeAll_cons, List.length_append] at hFuel
          have hSome : attr.encode ++ encodeAll attrs ≠ [] := by
            intro hNil
            have hLength := congrArg List.length hNil
            simp only [List.length_append,
              List.length_nil] at hLength
            omega
          have hRest :
              decodeAttrsWithin fuel (encodeAll attrs) =
                some attrs :=
            ih hFits.2 (by omega)
          rw [encodeAll_cons, decodeAttrsWithin_succ hSome]
          cases attr with
          | leaf type payload =>
              have hAttr := hFits.1
              simp only [Attr.fits, Bool.and_eq_true,
                decide_eq_true_eq] at hAttr
              rcases leaf_type hAttr.1 with ⟨hPlain, hMask⟩
              simp [splitAttr_leaf type _ hAttr.2, hRest,
                hPlain, hMask]
          | nest type children =>
              have hAttr := hFits.1
              simp only [Attr.fits, Bool.and_eq_true,
                decide_eq_true_eq] at hAttr
              rcases hAttr with ⟨⟨hType, hLength⟩, hChildren⟩
              rcases nested_type hType with ⟨hFlag, hMask⟩
              have hInner :
                  decodeAttrsWithin fuel (encodeAll children) =
                    some children := by
                refine ih hChildren ?_
                simp only [Attr.encode, List.length_append,
                  Bytes.length_ofNatLe] at hFuel
                omega
              simp [splitAttr_nest type _ hLength, hRest,
                hInner, hFlag, hMask]

/- A list of trees is read back. -/
theorem decodeAttrs_encodeAll
    {attrs : List Attr} (hFits : allFit attrs = true) :
    decodeAttrs (encodeAll attrs) = some attrs :=
  decodeAttrsWithin_encodeAll hFits (Nat.lt_succ_self _)

------------------------------------------------------------
-- Messages
------------------------------------------------------------

/-
  A `struct nlmsghdr` from user space, the `struct nfgenmsg`
  after it, and the attributes after that.
-/
structure Message where
  type : UInt16
  flags : UInt16
  seq : UInt32
  family : UInt8
  resId : UInt16
  attrs : List Attr

namespace Message

/- Everything after the length field. -/
def body (message : Message) : List UInt8 :=
  Bytes.ofNatLe 2 message.type.toNat ++
    Bytes.ofNatLe 2 message.flags.toNat ++
    Bytes.ofNatLe 4 message.seq.toNat ++
    Bytes.ofNatLe 4 0 ++
    [message.family, 0] ++
    Bytes.ofNatBe 2 message.resId.toNat ++
    encodeAll message.attrs

/- The length counts itself. -/
def encode (message : Message) : List UInt8 :=
  Bytes.ofNatLe 4 (4 + message.body.length) ++ message.body

/- All lengths fit their fields. -/
def fits (message : Message) : Bool :=
  allFit message.attrs &&
    decide (4 + message.body.length < 2 ^ 32)

/- The body is its header and its attributes. -/
theorem length_body (message : Message) :
    message.body.length =
      16 + (encodeAll message.attrs).length := by
  simp only [body, List.length_append, Bytes.length_ofNatLe,
    Bytes.length_ofNatBe, List.length_cons, List.length_nil]

/- Messages end at a multiple of four. -/
theorem four_dvd_length_encode (message : Message) :
    4 ∣ message.encode.length := by
  have hAttrs := four_dvd_length_encodeAll message.attrs
  simp only [encode, List.length_append, Bytes.length_ofNatLe,
    length_body]
  omega

end Message

/- The body of the first message, and the rest. -/
def splitMessage (bytes : List UInt8) :
    Option (List UInt8 × List UInt8) :=
  let length := Bytes.toNatLe (bytes.take 4)
  if 16 ≤ length ∧ length ≤ bytes.length then
    some
      ((bytes.take length).drop 4, bytes.drop (align length))
  else
    none

/- The fields of a message, after its length. -/
def decodeBody (body : List UInt8) : Option Message :=
  match body with
  | t₀ :: t₁ :: f₀ :: f₁ :: s₀ :: s₁ :: s₂ :: s₃ ::
      _ :: _ :: _ :: _ :: family :: _ :: r₀ :: r₁ :: rest =>
      (decodeAttrs rest).map fun attrs =>
        { type := UInt16.ofNat (Bytes.toNatLe [t₀, t₁])
          flags := UInt16.ofNat (Bytes.toNatLe [f₀, f₁])
          seq := UInt32.ofNat (Bytes.toNatLe [s₀, s₁, s₂, s₃])
          family := family
          resId := UInt16.ofNat (Bytes.toNatBe [r₀, r₁])
          attrs := attrs }
  | _ => none

/- The messages of a byte string, as `decodeAttrsWithin`. -/
def decodeMessagesWithin :
    Nat → List UInt8 → Option (List Message)
| 0, _ => none
| _ + 1, [] => some []
| fuel + 1, byte :: bytes =>
    match splitMessage (byte :: bytes) with
    | none => none
    | some (body, rest) =>
        match decodeBody body, decodeMessagesWithin fuel rest with
        | some message, some messages =>
            some (message :: messages)
        | _, _ => none

/- The messages of a whole datagram. -/
def decodeMessages (bytes : List UInt8) :
    Option (List Message) :=
  decodeMessagesWithin (bytes.length + 1) bytes

/- A message is split off by its length. -/
theorem splitMessage_encode
    {message : Message} (rest : List UInt8)
    (hFits : message.fits = true) :
    splitMessage (message.encode ++ rest) =
      some (message.body, rest) := by
  simp only [Message.fits, Bool.and_eq_true,
    decide_eq_true_eq] at hFits
  have hLength : message.encode.length =
      4 + message.body.length := by
    simp [Message.encode]
  have hHeader :
      (message.encode ++ rest).take 4 =
        Bytes.ofNatLe 4 (4 + message.body.length) := by
    rw [Message.encode, List.append_assoc,
      List.take_left' (Bytes.length_ofNatLe 4 _)]
  have hValue :
      Bytes.toNatLe
          (Bytes.ofNatLe 4 (4 + message.body.length)) =
        message.encode.length := by
    rw [Bytes.toNatLe_ofNatLe (by omega), hLength]
  have hBody :
      ((message.encode ++ rest).take
          message.encode.length).drop 4 = message.body := by
    rw [List.take_left, Message.encode,
      List.drop_left' (Bytes.length_ofNatLe 4 _)]
  have hLarge : 16 ≤ message.encode.length := by
    rw [hLength, Message.length_body]
    omega
  have hRest :
      (message.encode ++ rest).drop
          (align message.encode.length) = rest := by
    rw [align_of_dvd message.four_dvd_length_encode,
      List.drop_left]
  simp only [splitMessage, hHeader, hValue, hBody, hRest,
    hLarge, List.length_append, Nat.le_add_right, and_self,
    if_true]

/- Bytes of a fixed-width number give the number back. -/
theorem ofNat_toNatLe_two (n : UInt16) :
    UInt16.ofNat (Bytes.toNatLe (Bytes.ofNatLe 2 n.toNat)) =
      n := by
  have hBound := n.toNat_lt
  rw [Bytes.toNatLe_ofNatLe (by omega), UInt16.ofNat_toNat]

/- Sixteen bits survive the network's order. -/
theorem ofNat_toNatBe_two (n : UInt16) :
    UInt16.ofNat (Bytes.toNatBe (Bytes.ofNatBe 2 n.toNat)) =
      n := by
  have hBound := n.toNat_lt
  rw [Bytes.toNatBe_ofNatBe (by omega), UInt16.ofNat_toNat]

/- And thirty-two the machine's. -/
theorem ofNat_toNatLe_four (n : UInt32) :
    UInt32.ofNat (Bytes.toNatLe (Bytes.ofNatLe 4 n.toNat)) =
      n := by
  have hBound := n.toNat_lt
  rw [Bytes.toNatLe_ofNatLe (by omega), UInt32.ofNat_toNat]

/- The body is read back. -/
theorem decodeBody_body
    {message : Message} (hFits : message.fits = true) :
    decodeBody message.body = some message := by
  simp only [Message.fits, Bool.and_eq_true] at hFits
  have hType := ofNat_toNatLe_two message.type
  have hFlags := ofNat_toNatLe_two message.flags
  have hSeq := ofNat_toNatLe_four message.seq
  have hRes := ofNat_toNatBe_two message.resId
  simp only [Bytes.ofNatLe, Bytes.ofNatBe,
    List.reverse_cons, List.reverse_nil, List.nil_append,
    List.cons_append] at hType hFlags hSeq hRes
  simp only [Message.body, Bytes.ofNatLe, Bytes.ofNatBe,
    List.reverse_cons, List.reverse_nil, List.nil_append,
    List.cons_append, decodeBody,
    decodeAttrs_encodeAll hFits.1, Option.map_some,
    hType, hFlags, hSeq, hRes]

/- A batch is the concatenation of its messages. -/
def encodeMessages (messages : List Message) : List UInt8 :=
  messages.flatMap Message.encode

@[simp] theorem encodeMessages_nil :
    encodeMessages [] = [] := rfl

@[simp] theorem encodeMessages_cons
    (message : Message) (messages : List Message) :
    encodeMessages (message :: messages) =
      message.encode ++ encodeMessages messages := by
  simp [encodeMessages]

/- So is a list of messages, with fuel for its bytes. -/
theorem decodeMessagesWithin_encode
    {fuel : Nat} {messages : List Message}
    (hFits : ∀ message ∈ messages, message.fits = true)
    (hFuel : (encodeMessages messages).length < fuel) :
    decodeMessagesWithin fuel (encodeMessages messages) =
      some messages := by
  induction fuel generalizing messages with
  | zero => omega
  | succ fuel ih =>
      cases messages with
      | nil => rfl
      | cons message messages =>
          have hLarge : 16 ≤ message.encode.length := by
            simp only [Message.encode, List.length_append,
              Bytes.length_ofNatLe, Message.length_body]
            omega
          have hMessage :=
            hFits message (List.mem_cons_self ..)
          rw [encodeMessages_cons, List.length_append] at hFuel
          have hRest :
              decodeMessagesWithin fuel
                  (encodeMessages messages) =
                some messages :=
            ih
              (fun other hOther =>
                hFits other (List.mem_cons_of_mem _ hOther))
              (by omega)
          rw [encodeMessages_cons]
          have hSplit := splitMessage_encode
            (encodeMessages messages) hMessage
          cases hBytes :
              message.encode ++ encodeMessages messages with
          | nil =>
              have hLength := congrArg List.length hBytes
              simp only [List.length_append,
                List.length_nil] at hLength
              omega
          | cons byte bytes =>
              rw [hBytes] at hSplit
              simp [decodeMessagesWithin, hSplit,
                decodeBody_body hMessage, hRest]

/- The messages that were sent are the messages received. -/
theorem decodeMessages_encode
    {messages : List Message}
    (hFits : ∀ message ∈ messages, message.fits = true) :
    decodeMessages (encodeMessages messages) =
      some messages :=
  decodeMessagesWithin_encode hFits (Nat.lt_succ_self _)

end Netlink
