import CargoUnikernel.Library.Text
import Mathlib.Tactic.Common
import Mathlib.Data.List.Basic

/-
  Bytes that are read as text.

  What is not the start of any character becomes a replacement
  character, with as many of the bytes as could have been one.
  The bytes are read one after another, and what has been read
  of a character is kept until it is complete.

  Main declarations:
    * `encode`, `IsUtf8`, `encode_inj`
    * `Pending`, `next`, `decodeFrom`, `lossy`
    * `lossy_encode`, `lossy_append_cons`
    * `isUtf8_iff_lossy`, `encode_lossy_of_ascii`
-/

------------------------------------------------------------
-- Encoding
------------------------------------------------------------

namespace Utf8

/- A string of any bytes. -/
abbrev Bytes := List UInt8

/- The bytes of a text. -/
def encode (text : Text) : Bytes :=
  text.flatMap String.utf8EncodeChar

/- The bytes are those of some text. -/
def IsUtf8 (bytes : Bytes) : Prop :=
  ∃ text, encode text = bytes

@[simp] theorem encode_nil : encode [] = [] := rfl

theorem encode_cons (c : Char) (text : Text) :
    encode (c :: text) =
      String.utf8EncodeChar c ++ encode text :=
  List.flatMap_cons

/- The bytes of two texts are those of each in turn. -/
theorem encode_append (first second : Text) :
    encode (first ++ second) =
      encode first ++ encode second :=
  List.flatMap_append

/- Texts are told apart by their bytes. -/
theorem encode_inj
    {text other : Text}
    (hBytes : encode text = encode other) :
    text = other := by
  have hUtf8 : text.utf8Encode = other.utf8Encode :=
    congrArg List.toByteArray hBytes
  have hString : String.ofList text = String.ofList other := by
    rw [← String.toByteArray_inj, String.toByteArray_ofList,
      String.toByteArray_ofList, hUtf8]
  exact String.ofList_injective hString

/- A character of one byte. -/
def IsAscii (c : Char) : Prop := c.toNat < 0x80

/- The character of a byte below 128. -/
def ascii (byte : UInt8) : Char := Char.ofNat byte.toNat

/- A character of one byte has the byte's number. -/
theorem toNat_ascii
    {byte : UInt8} (hByte : byte.toNat < 0x80) :
    (ascii byte).toNat = byte.toNat := by
  have hValid : byte.toNat.isValidChar := Or.inl (by omega)
  unfold ascii Char.ofNat
  rw [dif_pos hValid]
  unfold Char.ofNatAux Char.toNat
  rfl

/- And is encoded as it. -/
theorem encodeChar_ascii
    {byte : UInt8} (hByte : byte.toNat < 0x80) :
    String.utf8EncodeChar (ascii byte) = [byte] := by
  have hNat : (ascii byte).val.toNat = byte.toNat :=
    toNat_ascii hByte
  unfold String.utf8EncodeChar
  dsimp only
  rw [if_pos (by omega), hNat, UInt8.ofNat_toNat]

------------------------------------------------------------
-- Reading
------------------------------------------------------------

/- What stands for bytes that are no character. -/
def replacement : Char := '\uFFFD'

/-
  A character that is not complete: what has been read of it,
  the bounds of the next byte, and how many are to follow.
-/
structure Pending where
  head : UInt8
  tail : Bytes
  low : Nat
  high : Nat
  more : Nat
  head_ge : 0x80 ≤ head.toNat
  low_ge : 0x80 ≤ low

/- What a first byte announces, unless there is none such. -/
def first (byte : UInt8) : Option (Nat × Nat × Nat) :=
  if 0xC2 ≤ byte.toNat ∧ byte.toNat ≤ 0xDF then
    some (0x80, 0xBF, 0)
  else if byte.toNat = 0xE0 then
    some (0xA0, 0xBF, 1)
  else if byte.toNat = 0xED then
    some (0x80, 0x9F, 1)
  else if 0xE1 ≤ byte.toNat ∧ byte.toNat ≤ 0xEF then
    some (0x80, 0xBF, 1)
  else if byte.toNat = 0xF0 then
    some (0x90, 0xBF, 2)
  else if byte.toNat = 0xF4 then
    some (0x80, 0x8F, 2)
  else if 0xF1 ≤ byte.toNat ∧ byte.toNat ≤ 0xF3 then
    some (0x80, 0xBF, 2)
  else
    none

/- No first byte of several is below 0x80. -/
theorem bounds_of_first
    {byte : UInt8} {low high more : Nat}
    (hFirst : first byte = some (low, high, more)) :
    0x80 ≤ byte.toNat ∧ 0x80 ≤ low := by
  unfold first at hFirst
  grind

/- The character that some bytes are. -/
def complete (bytes : Bytes) : Char :=
  (bytes.toByteArray.utf8DecodeChar? 0).getD replacement

/- A byte, where no character has begun. -/
def start (byte : UInt8) : Text × Option Pending :=
  if byte.toNat < 0x80 then
    ([ascii byte], none)
  else
    match hFirst : first byte with
    | none => ([replacement], none)
    | some (low, high, more) =>
        ([],
          some
            { head := byte
              tail := []
              low := low
              high := high
              more := more
              head_ge := (bounds_of_first hFirst).1
              low_ge := (bounds_of_first hFirst).2 })

/- One more byte of the character. -/
def Pending.after (pending : Pending) (byte : UInt8) :
    Pending :=
  { pending with
    tail := pending.tail ++ [byte]
    low := 0x80
    high := 0xBF
    more := pending.more - 1
    low_ge := Nat.le_refl _ }

/- What is read, and what is pending, after one more byte. -/
def next : Option Pending → UInt8 → Text × Option Pending
| none, byte => start byte
| some pending, byte =>
    if pending.low ≤ byte.toNat ∧
        byte.toNat ≤ pending.high then
      if pending.more = 0 then
        ([complete (pending.head :: pending.tail ++ [byte])],
          none)
      else
        ([], some (pending.after byte))
    else
      (replacement :: (start byte).1, (start byte).2)

/- What is left when there are no more bytes. -/
def flush : Option Pending → Text
| none => []
| some _ => [replacement]

/- The bytes one by one. -/
def decodeFrom : Option Pending → Bytes → Text
| pending, [] => flush pending
| pending, byte :: bytes =>
    (next pending byte).1 ++
      decodeFrom (next pending byte).2 bytes

/- The text, with what is no text replaced. -/
def lossy (bytes : Bytes) : Text := decodeFrom none bytes

------------------------------------------------------------
-- Bytes of One-Byte Characters
------------------------------------------------------------

/- A byte below 0x80 is a character at once. -/
theorem start_ascii
    {byte : UInt8} (hByte : byte.toNat < 0x80) :
    start byte = ([ascii byte], none) := by
  unfold start
  rw [if_pos hByte]

/- Such a byte is no part of another character. -/
theorem next_ascii
    {byte : UInt8} (hByte : byte.toNat < 0x80)
    (pending : Option Pending) :
    next pending byte =
      (flush pending ++ [ascii byte], none) := by
  cases pending with
  | none => exact start_ascii hByte
  | some pending =>
      have hLow := pending.low_ge
      unfold next
      dsimp only
      rw [if_neg (by omega), start_ascii hByte]
      rfl

/- At such a byte the decoding starts anew. -/
theorem decodeFrom_append_cons
    {byte : UInt8} (hByte : byte.toNat < 0x80)
    (pending : Option Pending) (before after : Bytes) :
    decodeFrom pending (before ++ byte :: after) =
      decodeFrom pending before ++
        ascii byte :: lossy after := by
  induction before generalizing pending with
  | nil =>
      rw [List.nil_append]
      unfold decodeFrom
      rw [next_ascii hByte, List.append_assoc]
      rfl
  | cons other before ih =>
      rw [List.cons_append, decodeFrom, decodeFrom, ih,
        List.append_assoc]

/- It divides what is read, whatever is on its sides. -/
theorem lossy_append_cons
    {byte : UInt8} (hByte : byte.toNat < 0x80)
    (before after : Bytes) :
    lossy (before ++ byte :: after) =
      lossy before ++ ascii byte :: lossy after :=
  decodeFrom_append_cons hByte none before after

/- The replacement is no character of one byte. -/
theorem not_isAscii_replacement : ¬ IsAscii replacement := by
  unfold IsAscii
  decide

/- Nor is any that more bytes make. -/
theorem not_isAscii_complete
    {head : UInt8} (hHead : 0x80 ≤ head.toNat)
    (tail : Bytes) :
    ¬ IsAscii (complete (head :: tail)) := by
  intro hAscii
  unfold complete at hAscii
  cases hDecode :
      ByteArray.utf8DecodeChar? (head :: tail).toByteArray 0 with
  | none =>
      rw [hDecode] at hAscii
      exact not_isAscii_replacement hAscii
  | some c =>
      rw [hDecode] at hAscii
      rcases ByteArray.exists_of_utf8DecodeChar?_eq_some hDecode
        with ⟨rest, hBytes⟩
      have hList :
          head :: tail =
            String.utf8EncodeChar c ++ rest.data.toList := by
        have hData := congrArg (fun b => b.data.toList) hBytes
        simpa using hData
      have hNat : c.val.toNat < 0x80 := hAscii
      unfold String.utf8EncodeChar at hList
      dsimp only at hList
      rw [if_pos (by omega)] at hList
      have hEq := (List.cons.inj hList).1
      rw [hEq, UInt8.toNat_ofNat'] at hHead
      omega

/- The first byte, where all that comes of it is ASCII. -/
theorem start_cases
    (byte : UInt8)
    (hAscii : ∀ c ∈ (start byte).1, IsAscii c)
    (hDone : (start byte).2 = none) :
    encode (start byte).1 = [byte] := by
  by_cases hByte : byte.toNat < 0x80
  · rw [start_ascii hByte]
    unfold encode
    rw [List.flatMap_singleton, encodeChar_ascii hByte]
  · unfold start at hAscii hDone
    rw [if_neg hByte] at hAscii hDone
    exfalso
    split at hDone
    · rename_i hFirst
      split at hAscii
      · exact
          not_isAscii_replacement
            (hAscii _ List.mem_cons_self)
      · rename_i hOther
        rw [hFirst] at hOther
        cases hOther
    · cases hDone

/- And any byte after it. -/
theorem next_cases
    (pending : Option Pending) (byte : UInt8)
    (hAscii : ∀ c ∈ (next pending byte).1, IsAscii c)
    (hDone : (next pending byte).2 = none) :
    pending = none ∧ encode (next pending byte).1 = [byte] := by
  cases pending with
  | none => exact ⟨rfl, start_cases byte hAscii hDone⟩
  | some pending =>
      exfalso
      unfold next at hAscii hDone
      dsimp only at hAscii hDone
      by_cases hRange :
          pending.low ≤ byte.toNat ∧
            byte.toNat ≤ pending.high
      · rw [if_pos hRange] at hAscii hDone
        by_cases hMore : pending.more = 0
        · rw [if_pos hMore] at hAscii
          exact
            not_isAscii_complete pending.head_ge _
              (hAscii _ List.mem_cons_self)
        · rw [if_neg hMore] at hDone
          cases hDone
      · rw [if_neg hRange] at hAscii
        exact
          not_isAscii_replacement
            (hAscii _ List.mem_cons_self)

/- So only ASCII bytes decode to an ASCII text. -/
theorem decodeFrom_of_ascii
    (pending : Option Pending) (bytes : Bytes)
    (hAscii : ∀ c ∈ decodeFrom pending bytes, IsAscii c) :
    pending = none ∧
      encode (decodeFrom pending bytes) = bytes := by
  induction bytes generalizing pending with
  | nil =>
      cases pending with
      | none => exact ⟨rfl, rfl⟩
      | some pending =>
          exfalso
          exact
            not_isAscii_replacement
              (hAscii _ List.mem_cons_self)
  | cons byte bytes ih =>
      unfold decodeFrom at hAscii ⊢
      have hRest :=
        ih (next pending byte).2 fun c hMem =>
          hAscii c (List.mem_append_right _ hMem)
      have hHead :=
        next_cases pending byte
          (fun c hMem => hAscii c (List.mem_append_left _ hMem))
          hRest.1
      refine ⟨hHead.1, ?_⟩
      rw [encode_append, hHead.2, hRest.2]
      rfl

/- Nothing else is read as a text of such characters. -/
theorem encode_lossy_of_ascii
    {bytes : Bytes}
    (hAscii : ∀ c ∈ lossy bytes, IsAscii c) :
    encode (lossy bytes) = bytes :=
  (decodeFrom_of_ascii none bytes hAscii).2

/- An ASCII character comes of its own byte, -/
theorem mem_start
    {byte : UInt8} {c : Char} (hAscii : IsAscii c)
    (hMem : c ∈ (start byte).1) :
    byte.toNat < 0x80 ∧ c = ascii byte := by
  by_cases hByte : byte.toNat < 0x80
  · rw [start_ascii hByte] at hMem
    exact ⟨hByte, List.mem_singleton.1 hMem⟩
  · exfalso
    unfold start at hMem
    rw [if_neg hByte] at hMem
    split at hMem
    · rw [List.mem_singleton.1 hMem] at hAscii
      exact not_isAscii_replacement hAscii
    · cases hMem

/- wherever the decoding stands, -/
theorem mem_next
    {pending : Option Pending} {byte : UInt8} {c : Char}
    (hAscii : IsAscii c)
    (hMem : c ∈ (next pending byte).1) :
    byte.toNat < 0x80 ∧ c = ascii byte := by
  cases pending with
  | none => exact mem_start hAscii hMem
  | some pending =>
      unfold next at hMem
      dsimp only at hMem
      by_cases hRange :
          pending.low ≤ byte.toNat ∧
            byte.toNat ≤ pending.high
      · exfalso
        rw [if_pos hRange] at hMem
        by_cases hMore : pending.more = 0
        · rw [if_pos hMore] at hMem
          rw [List.mem_singleton.1 hMem] at hAscii
          exact not_isAscii_complete pending.head_ge _ hAscii
        · rw [if_neg hMore] at hMem
          cases hMem
      · rw [if_neg hRange] at hMem
        rcases List.mem_cons.1 hMem with rfl | hStart
        · exact absurd hAscii not_isAscii_replacement
        · exact mem_start hAscii hStart

/- in any text. -/
theorem mem_decodeFrom
    {pending : Option Pending} {bytes : Bytes} {c : Char}
    (hAscii : IsAscii c)
    (hMem : c ∈ decodeFrom pending bytes) :
    ∃ byte ∈ bytes, byte.toNat < 0x80 ∧ c = ascii byte := by
  induction bytes generalizing pending with
  | nil =>
      exfalso
      cases pending with
      | none => cases hMem
      | some pending =>
          have hReplaced : c = replacement :=
            List.mem_singleton.1 hMem
          rw [hReplaced] at hAscii
          exact not_isAscii_replacement hAscii
  | cons byte bytes ih =>
      unfold decodeFrom at hMem
      rcases List.mem_append.1 hMem with hHead | hRest
      · exact
          ⟨byte, List.mem_cons_self, mem_next hAscii hHead⟩
      · rcases ih hRest with ⟨other, hOther, hByte⟩
        exact ⟨other, List.mem_cons_of_mem _ hOther, hByte⟩

------------------------------------------------------------
-- Characters of More Bytes
------------------------------------------------------------

/- The bytes that complete a pending character. -/
def Completes (low high more : Nat) (bytes : Bytes) : Prop :=
  match bytes with
  | [] => False
  | byte :: rest =>
      low ≤ byte.toNat ∧ byte.toNat ≤ high ∧
        rest.length = more ∧
        ∀ other ∈ rest,
          0x80 ≤ other.toNat ∧ other.toNat ≤ 0xBF

/- The bytes a character needs complete it. -/
theorem decodeFrom_completes
    {pending : Pending} {bytes : Bytes}
    (hBytes :
      Completes pending.low pending.high pending.more bytes)
    (after : Bytes) :
    decodeFrom (some pending) (bytes ++ after) =
      complete (pending.head :: pending.tail ++ bytes) ::
        lossy after := by
  induction bytes generalizing pending with
  | nil => cases hBytes
  | cons byte rest ih =>
      rcases hBytes with ⟨hLow, hHigh, hLength, hRest⟩
      rw [List.cons_append, decodeFrom]
      unfold next
      dsimp only
      rw [if_pos ⟨hLow, hHigh⟩]
      by_cases hMore : pending.more = 0
      · rw [hMore, List.length_eq_zero_iff] at hLength
        rw [if_pos hMore, hLength]
        rfl
      · rw [if_neg hMore, List.nil_append]
        have hAfter :
            Completes (pending.after byte).low
              (pending.after byte).high
              (pending.after byte).more rest := by
          cases rest with
          | nil =>
              exact absurd hLength.symm hMore
          | cons other rest =>
              have hOther := hRest other List.mem_cons_self
              refine ⟨hOther.1, hOther.2, ?_, ?_⟩
              · unfold Pending.after
                dsimp only
                rw [← hLength]
                rfl
              · intro last hMem
                exact hRest last (List.mem_cons_of_mem _ hMem)
        rw [ih hAfter]
        unfold Pending.after
        simp

/- The first bytes of two, -/
theorem first_two
    {byte : UInt8} (hLow : 0xC2 ≤ byte.toNat)
    (hHigh : byte.toNat ≤ 0xDF) :
    first byte = some (0x80, 0xBF, 0) := by
  unfold first
  rw [if_pos ⟨hLow, hHigh⟩]

/- of three, -/
theorem first_three
    {byte : UInt8} (hLow : 0xE0 ≤ byte.toNat)
    (hHigh : byte.toNat ≤ 0xEF) :
    first byte =
      some
        (if byte.toNat = 0xE0 then 0xA0 else 0x80,
          if byte.toNat = 0xED then 0x9F else 0xBF, 1) := by
  unfold first
  rw [if_neg (by omega)]
  by_cases hFirst : byte.toNat = 0xE0
  · rw [if_pos hFirst, if_pos hFirst, if_neg (by omega)]
  · rw [if_neg hFirst, if_neg hFirst]
    by_cases hLast : byte.toNat = 0xED
    · rw [if_pos hLast, if_pos hLast]
    · rw [if_neg hLast, if_neg hLast, if_pos (by omega)]

/- and of four. -/
theorem first_four
    {byte : UInt8} (hLow : 0xF0 ≤ byte.toNat)
    (hHigh : byte.toNat ≤ 0xF4) :
    first byte =
      some
        (if byte.toNat = 0xF0 then 0x90 else 0x80,
          if byte.toNat = 0xF4 then 0x8F else 0xBF, 2) := by
  unfold first
  rw [if_neg (by omega), if_neg (by omega),
    if_neg (by omega), if_neg (by omega)]
  by_cases hFirst : byte.toNat = 0xF0
  · rw [if_pos hFirst, if_pos hFirst, if_neg (by omega)]
  · rw [if_neg hFirst, if_neg hFirst]
    by_cases hLast : byte.toNat = 0xF4
    · rw [if_pos hLast, if_pos hLast]
    · rw [if_neg hLast, if_neg hLast, if_pos (by omega)]

/- A byte of the six lowest bits of a number. -/
theorem toNat_six_bits (n : Nat) :
    (UInt8.ofNat (n % 64 + 0x80)).toNat = n % 64 + 0x80 := by
  rw [UInt8.toNat_ofNat']
  omega

/- A character is one byte, or announced by its first one. -/
theorem encodeChar_cases (c : Char) :
    (∃ byte,
        String.utf8EncodeChar c = [byte] ∧
          byte.toNat < 0x80 ∧ ascii byte = c) ∨
      ∃ head tail low high more,
        String.utf8EncodeChar c = head :: tail ∧
          first head = some (low, high, more) ∧
          Completes low high more tail := by
  have hChar : c.val.toNat.isValidChar := c.valid
  have hValid :
      c.val.toNat < 0xD800 ∨
        0xDFFF < c.val.toNat ∧ c.val.toNat < 0x110000 :=
    hChar
  unfold String.utf8EncodeChar
  dsimp only
  by_cases hOne : c.val.toNat ≤ 0x7f
  · left
    rw [if_pos hOne]
    refine ⟨_, rfl, ?_, ?_⟩
    · rw [UInt8.toNat_ofNat']
      omega
    · unfold ascii
      rw [UInt8.toNat_ofNat', Nat.mod_eq_of_lt (by omega)]
      exact Char.ofNat_toNat c
  · right
    rw [if_neg hOne]
    by_cases hTwo : c.val.toNat ≤ 0x7ff
    · rw [if_pos hTwo]
      have hHead :
          (UInt8.ofNat (c.val.toNat / 64 % 32 + 0xc0)).toNat =
            c.val.toNat / 64 + 0xc0 := by
        rw [UInt8.toNat_ofNat']
        omega
      refine ⟨_, _, _, _, _, rfl, first_two ?_ ?_, ?_⟩
      · omega
      · omega
      · unfold Completes
        dsimp only
        rw [toNat_six_bits]
        refine ⟨by omega, by omega, rfl, ?_⟩
        intro other hMem
        cases hMem
    · rw [if_neg hTwo]
      by_cases hThree : c.val.toNat ≤ 0xffff
      · rw [if_pos hThree]
        have hHead :
            (UInt8.ofNat
                (c.val.toNat / 4096 % 16 + 0xe0)).toNat =
              c.val.toNat / 4096 + 0xe0 := by
          rw [UInt8.toNat_ofNat']
          omega
        refine ⟨_, _, _, _, _, rfl, first_three ?_ ?_, ?_⟩
        · omega
        · omega
        · unfold Completes
          dsimp only
          rw [toNat_six_bits, hHead]
          refine ⟨?_, ?_, rfl, ?_⟩
          · split <;> omega
          · split <;> omega
          · intro other hMem
            rw [List.mem_singleton.1 hMem, toNat_six_bits]
            omega
      · rw [if_neg hThree]
        have hHead :
            (UInt8.ofNat
                (c.val.toNat / 262144 % 8 + 0xf0)).toNat =
              c.val.toNat / 262144 + 0xf0 := by
          rw [UInt8.toNat_ofNat']
          omega
        refine ⟨_, _, _, _, _, rfl, first_four ?_ ?_, ?_⟩
        · omega
        · omega
        · unfold Completes
          dsimp only
          rw [toNat_six_bits, hHead]
          refine ⟨?_, ?_, rfl, ?_⟩
          · split <;> omega
          · split <;> omega
          · intro other hMem
            rcases List.mem_cons.1 hMem with rfl | hLast
            · rw [toNat_six_bits]
              omega
            · rw [List.mem_singleton.1 hLast,
                toNat_six_bits]
              omega

/- No byte that completes a character is below 0x80. -/
theorem le_of_completes
    {low high more : Nat} {bytes : Bytes}
    (hLow : 0x80 ≤ low)
    (hBytes : Completes low high more bytes) :
    ∀ byte ∈ bytes, 0x80 ≤ byte.toNat := by
  cases bytes with
  | nil => cases hBytes
  | cons first rest =>
      rcases hBytes with ⟨hFirst, _, _, hRest⟩
      intro byte hMem
      rcases List.mem_cons.1 hMem with rfl | hMem
      · omega
      · exact (hRest byte hMem).1

/- So a byte below 0x80 is a character of the text. -/
theorem mem_encode
    {text : Text} {byte : UInt8} (hByte : byte.toNat < 0x80)
    (hMem : byte ∈ encode text) :
    ascii byte ∈ text := by
  rcases List.mem_flatMap.1 hMem with ⟨c, hChar, hIn⟩
  rcases encodeChar_cases c with
    ⟨other, hEncode, _, hAscii⟩ |
      ⟨head, tail, low, high, more, hEncode, hFirst, hTail⟩
  · rw [hEncode, List.mem_singleton] at hIn
    rw [hIn, hAscii]
    exact hChar
  · exfalso
    have hBounds := bounds_of_first hFirst
    rw [hEncode] at hIn
    rcases List.mem_cons.1 hIn with rfl | hIn
    · omega
    · have hLow := le_of_completes hBounds.2 hTail byte hIn
      omega

/- Replacing leaves no such byte that was not there. -/
theorem mem_of_mem_encode_lossy
    {bytes : Bytes} {byte : UInt8} (hByte : byte.toNat < 0x80)
    (hMem : byte ∈ encode (lossy bytes)) :
    byte ∈ bytes := by
  have hAscii : IsAscii (ascii byte) := by
    unfold IsAscii
    rw [toNat_ascii hByte]
    exact hByte
  rcases mem_decodeFrom hAscii (mem_encode hByte hMem) with
    ⟨other, hOther, hRange, hSame⟩
  have hNat := congrArg Char.toNat hSame
  rw [toNat_ascii hByte, toNat_ascii hRange] at hNat
  rw [UInt8.toNat_inj.1 hNat]
  exact hOther

/- What is encoded is what the bytes make. -/
theorem complete_encodeChar (c : Char) :
    complete (String.utf8EncodeChar c) = c := by
  have hDecode :=
    @ByteArray.utf8DecodeChar?_utf8EncodeChar_append .empty c
  rw [ByteArray.append_empty] at hDecode
  unfold complete
  rw [hDecode]
  rfl

/- And nothing is lost of it. -/
theorem lossy_encodeChar_append (c : Char) (after : Bytes) :
    lossy (String.utf8EncodeChar c ++ after) =
      c :: lossy after := by
  rcases encodeChar_cases c with
    ⟨byte, hEncode, hByte, hChar⟩ |
      ⟨head, tail, low, high, more, hEncode, hFirst, hTail⟩
  · rw [hEncode, List.singleton_append]
    unfold lossy
    rw [decodeFrom, next_ascii hByte, hChar]
    rfl
  · have hHead := (bounds_of_first hFirst).1
    have hComplete := complete_encodeChar c
    rw [hEncode] at hComplete ⊢
    have hStart :
        start head =
          ([],
            some
              { head := head
                tail := []
                low := low
                high := high
                more := more
                head_ge := hHead
                low_ge := (bounds_of_first hFirst).2 }) := by
      unfold start
      rw [if_neg (by omega)]
      split
      · rename_i hNone
        rw [hFirst] at hNone
        cases hNone
      · rename_i hSome
        rw [hFirst] at hSome
        cases hSome
        rfl
    rw [List.cons_append]
    unfold lossy
    rw [decodeFrom]
    unfold next
    dsimp only
    rw [hStart, List.nil_append, decodeFrom_completes hTail]
    exact congrArg (· :: lossy after) hComplete

/- A text is read as it was. -/
theorem lossy_encode (text : Text) :
    lossy (encode text) = text := by
  induction text with
  | nil => rfl
  | cons c text ih =>
      rw [encode_cons, lossy_encodeChar_append, ih]

/- Nothing is replaced exactly where the bytes are a text. -/
theorem isUtf8_iff_lossy (bytes : Bytes) :
    IsUtf8 bytes ↔ encode (lossy bytes) = bytes := by
  constructor
  · rintro ⟨text, rfl⟩
    rw [lossy_encode]
  · intro hSame
    exact ⟨lossy bytes, hSame⟩

end Utf8
