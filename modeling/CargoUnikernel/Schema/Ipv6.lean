import CargoUnikernel.Library.Text

/-
  IPv6 addresses in text, as the standard library reads
  them: eight groups of up to four hexadecimal digits, one
  `::` for a run of zero groups, and an IPv4 address in
  place of the last two groups.

  Main declarations:
    * `Ipv6Addr.parse`
    * `Ipv6Addr.mem_of_parse`
-/

------------------------------------------------------------
-- Reading
------------------------------------------------------------

namespace CargoUnikernel

namespace Schema

/- What was read and what is left; a failure reads nothing. -/
abbrev Reader (α : Type) :=
  Text → Option (α × Text)

/- The rest, if the text begins with this character. -/
def readGivenChar (target : Char) : Text → Option Text
| [] => none
| c :: cs => if c = target then some cs else none

/- All but the first item of a row come after a separator. -/
def readSeparator
    {α : Type} (sep : Char) (index : Nat)
    (inner : Reader α) : Reader α :=
  fun s =>
    if 0 < index then
      (readGivenChar sep s).bind inner
    else
      inner s

/- The value of a digit in some radix. -/
def toDigit (radix : Nat) (c : Char) : Option Nat :=
  let digit :=
    if c.isDigit then
      some (c.toNat - '0'.toNat)
    else if 'a' ≤ c ∧ c ≤ 'z' then
      some (c.toNat - 'a'.toNat + 10)
    else if 'A' ≤ c ∧ c ≤ 'Z' then
      some (c.toNat - 'A'.toNat + 10)
    else
      none
  digit.filter fun value => value < radix

/- The digits at the front, no more than `maxDigits`. -/
def readDigits (radix maxDigits : Nat) :
    Nat → Nat → Reader (Nat × Nat)
| result, count, [] => some ((result, count), [])
| result, count, c :: cs =>
    match toDigit radix c with
    | none => some ((result, count), c :: cs)
    | some digit =>
        if maxDigits < count + 1 then
          none
        else
          readDigits radix maxDigits
            (result * radix + digit) (count + 1) cs

/- A number below `bound`, which its type can hold. -/
def readNumber
    (radix maxDigits bound : Nat)
    (allowZeroPrefix : Bool) : Reader Nat :=
  fun s =>
    (readDigits radix maxDigits 0 0 s).bind fun read =>
      let result := read.1.1
      let count := read.1.2
      if count = 0 then
        none
      else if
        !allowZeroPrefix && s.head? == some '0' &&
          decide (1 < count)
      then
        none
      else if result < bound then
        some (result, read.2)
      else
        none

/- The octets from this index on. -/
def readOctets : Nat → Nat → Reader (List Nat)
| _, 0, s => some ([], s)
| index, left + 1, s =>
    (readSeparator '.' index (readNumber 10 3 256 false)
        s).bind fun octet =>
      (readOctets (index + 1) left octet.2).bind fun octets =>
        some (octet.1 :: octets.1, octets.2)

/- Four octets, as the two groups they stand for. -/
def readIpv4Addr : Reader (List Nat) :=
  fun s =>
    (readOctets 0 4 s).bind fun read =>
      match read.1 with
      | [one, two, three, four] =>
          some
            ([one * 256 + two, three * 256 + four], read.2)
      | _ => none

/-
  Groups into a slice of `limit`, `left` of them to come,
  and whether an IPv4 address was the last of them.
-/
def readGroups (limit : Nat) :
    Nat → Text → List Nat × Bool × Text
| 0, s => ([], false, s)
| left + 1, s =>
    let index := limit - (left + 1)
    let ipv4 :=
      if index < limit - 1 then
        readSeparator ':' index readIpv4Addr s
      else
        none
    match ipv4 with
    | some (groups, rest) => (groups, true, rest)
    | none =>
        match
          readSeparator ':' index
            (readNumber 16 4 65536 true) s
        with
        | some (group, rest) =>
            let (groups, more) := readGroups limit left rest
            (group :: groups, more)
        | none => ([], false, s)

/- All eight groups, or those on both sides of `::`. -/
def readIpv6Addr : Reader (List Nat) :=
  fun s =>
    let (head, headIpv4, rest) := readGroups 8 8 s
    if head.length = 8 then
      some (head, rest)
    else if headIpv4 then
      none
    else
      (readGivenChar ':' rest).bind fun rest =>
        (readGivenChar ':' rest).bind fun rest =>
          let limit := 8 - (head.length + 1)
          let (tail, _, rest) := readGroups limit limit rest
          let zeros := 8 - head.length - tail.length
          some (head ++ List.replicate zeros 0 ++ tail, rest)

------------------------------------------------------------
-- Addresses
------------------------------------------------------------

/- Eight segments of sixteen bits. -/
structure Ipv6Addr where
  segments : Vector UInt16 8
deriving DecidableEq

namespace Ipv6Addr

/- The whole text has to be an address. -/
def parse (s : Text) : Option Ipv6Addr :=
  match readIpv6Addr s with
  | some (groups, []) =>
      some
        { segments :=
            Vector.ofFn fun i =>
              UInt16.ofNat (groups.getD i 0) }
  | _ => none

/- The address is `::`. -/
def isUnspecified (address : Ipv6Addr) : Bool :=
  address.segments == Vector.replicate 8 0

/- The address is `::1`. -/
def isLoopback (address : Ipv6Addr) : Bool :=
  address.segments == (Vector.replicate 7 0).push 1

/- It tells the kind of most addresses. -/
def firstSegment (address : Ipv6Addr) : UInt16 :=
  address.segments[0]

/- The first byte is all ones. -/
def isMulticast (address : Ipv6Addr) : Bool :=
  address.firstSegment &&& 0xff00 == 0xff00

end Ipv6Addr

------------------------------------------------------------
-- The Characters of an Address
------------------------------------------------------------

/- The characters an address is written with. -/
def IsAddressChar (c : Char) : Prop :=
  c = ':' ∨ c = '.' ∨ (toDigit 16 c).isSome

/- What was taken from the front is of these characters. -/
def Takes (s rest : Text) : Prop :=
  ∃ used, s = used ++ rest ∧ ∀ c ∈ used, IsAddressChar c

theorem Takes.refl (s : Text) : Takes s s := by
  refine ⟨[], rfl, ?_⟩
  simp

theorem Takes.trans
    {s between rest : Text}
    (hFirst : Takes s between) (hThen : Takes between rest) :
    Takes s rest := by
  rcases hFirst with ⟨first, rfl, hFirst⟩
  rcases hThen with ⟨second, rfl, hSecond⟩
  refine ⟨first ++ second, by rw [List.append_assoc], ?_⟩
  intro c hMem
  rcases List.mem_append.1 hMem with hMem | hMem
  · exact hFirst c hMem
  · exact hSecond c hMem

theorem Takes.cons
    {c : Char} {s rest : Text}
    (hChar : IsAddressChar c) (hRest : Takes s rest) :
    Takes (c :: s) rest := by
  rcases hRest with ⟨used, rfl, hUsed⟩
  refine ⟨c :: used, rfl, ?_⟩
  intro other hMem
  rcases List.mem_cons.1 hMem with rfl | hMem
  · exact hChar
  · exact hUsed other hMem

/- A reader takes address characters only. -/
def TakesOnly {α : Type} (reader : Reader α) : Prop :=
  ∀ s a rest, reader s = some (a, rest) → Takes s rest

theorem takes_of_readGivenChar
    {target : Char} (hTarget : IsAddressChar target)
    {s rest : Text}
    (hRead : readGivenChar target s = some rest) :
    Takes s rest := by
  cases s with
  | nil => simp [readGivenChar] at hRead
  | cons c cs =>
      rw [readGivenChar] at hRead
      split at hRead
      case isTrue hSame =>
          cases hRead
          rw [hSame]
          exact Takes.cons hTarget (Takes.refl _)
      case isFalse => cases hRead

theorem takesOnly_readSeparator
    {α : Type} {sep : Char} {inner : Reader α}
    (hSep : IsAddressChar sep) (hInner : TakesOnly inner)
    (index : Nat) :
    TakesOnly (readSeparator sep index inner) := by
  intro s a rest hRead
  unfold readSeparator at hRead
  split at hRead
  · rw [Option.bind_eq_some_iff] at hRead
    rcases hRead with ⟨between, hChar, hRest⟩
    exact (takes_of_readGivenChar hSep hChar).trans
      (hInner _ _ _ hRest)
  · exact hInner _ _ _ hRead

/- Decimal digits are hexadecimal ones. -/
theorem isSome_toDigit_of_le
    {radix : Nat} (hRadix : radix ≤ 16) {c : Char}
    {digit : Nat} (hDigit : toDigit radix c = some digit) :
    (toDigit 16 c).isSome := by
  unfold toDigit at hDigit ⊢
  rw [Option.filter_eq_some_iff] at hDigit
  rcases hDigit with ⟨hValue, hBound⟩
  rw [decide_eq_true_eq] at hBound
  rw [hValue, Option.filter_some,
    if_pos (decide_eq_true (by omega))]
  rfl

theorem takesOnly_readDigits
    {radix : Nat} (hRadix : radix ≤ 16)
    (maxDigits result count : Nat) :
    TakesOnly (readDigits radix maxDigits result count) := by
  intro s
  induction s generalizing result count with
  | nil =>
      intro read rest hRead
      cases hRead
      exact Takes.refl _
  | cons c cs ih =>
      intro read rest hRead
      unfold readDigits at hRead
      split at hRead
      · cases hRead
        exact Takes.refl _
      case h_2 digit hDigit =>
          split at hRead
          · cases hRead
          · have hHex := isSome_toDigit_of_le hRadix hDigit
            exact Takes.cons (Or.inr (Or.inr hHex))
              (ih _ _ _ _ hRead)

theorem takesOnly_readNumber
    {radix : Nat} (hRadix : radix ≤ 16)
    (maxDigits bound : Nat) (allowZeroPrefix : Bool) :
    TakesOnly
      (readNumber radix maxDigits bound allowZeroPrefix) := by
  intro s n rest hRead
  unfold readNumber at hRead
  rw [Option.bind_eq_some_iff] at hRead
  rcases hRead with ⟨⟨read, left⟩, hDigits, hNumber⟩
  have hTakes :=
    takesOnly_readDigits hRadix maxDigits 0 0 s read left
      hDigits
  simp only at hNumber
  split at hNumber
  · cases hNumber
  · split at hNumber
    · cases hNumber
    · split at hNumber
      · cases hNumber
        exact hTakes
      · cases hNumber

theorem takesOnly_readOctets (index left : Nat) :
    TakesOnly (readOctets index left) := by
  induction left generalizing index with
  | zero =>
      intro s octets rest hRead
      cases hRead
      exact Takes.refl _
  | succ left ih =>
      intro s octets rest hRead
      unfold readOctets at hRead
      rw [Option.bind_eq_some_iff] at hRead
      rcases hRead with ⟨⟨octet, between⟩, hOctet, hRead⟩
      rw [Option.bind_eq_some_iff] at hRead
      rcases hRead with ⟨⟨others, last⟩, hOthers, hRead⟩
      cases hRead
      have hNumber := takesOnly_readNumber
        (show 10 ≤ 16 by omega) 3 256 false
      have hFirst := takesOnly_readSeparator
        (Or.inr (Or.inl rfl)) hNumber index _ _ _ hOctet
      exact hFirst.trans (ih _ _ _ _ hOthers)

theorem takesOnly_readIpv4Addr : TakesOnly readIpv4Addr := by
  intro s groups rest hRead
  unfold readIpv4Addr at hRead
  rw [Option.bind_eq_some_iff] at hRead
  rcases hRead with ⟨⟨octets, left⟩, hOctets, hRead⟩
  have hTakes := takesOnly_readOctets 0 4 s octets left hOctets
  split at hRead
  · cases hRead
    exact hTakes
  · cases hRead

theorem takes_readGroups (limit left : Nat) (s : Text) :
    Takes s (readGroups limit left s).2.2 := by
  induction left generalizing s with
  | zero => exact Takes.refl s
  | succ left ih =>
      have hSep : IsAddressChar ':' := Or.inl rfl
      unfold readGroups
      simp only
      split
      case h_1 ipv4 groups rest hIpv4 =>
          split at hIpv4
          · exact takesOnly_readSeparator hSep
              takesOnly_readIpv4Addr _ _ _ _ hIpv4
          · cases hIpv4
      case h_2 =>
          split
          case h_1 group rest hGroup =>
              have hNumber := takesOnly_readNumber
                (Nat.le_refl 16) 4 65536 true
              have hFirst := takesOnly_readSeparator hSep
                hNumber _ _ _ _ hGroup
              exact hFirst.trans (ih rest)
          case h_2 => exact Takes.refl s

theorem takesOnly_readIpv6Addr : TakesOnly readIpv6Addr := by
  intro s groups rest hRead
  have hHead := takes_readGroups 8 8 s
  unfold readIpv6Addr at hRead
  simp only at hRead
  split at hRead
  · cases hRead
    exact hHead
  · split at hRead
    · cases hRead
    · rw [Option.bind_eq_some_iff] at hRead
      rcases hRead with ⟨first, hFirst, hRead⟩
      rw [Option.bind_eq_some_iff] at hRead
      rcases hRead with ⟨second, hSecond, hRead⟩
      cases hRead
      have hColon : IsAddressChar ':' := Or.inl rfl
      apply hHead.trans
      apply (takes_of_readGivenChar hColon hFirst).trans
      apply (takes_of_readGivenChar hColon hSecond).trans
      exact takes_readGroups _ _ second

/- An address is written in address characters. -/
theorem Ipv6Addr.mem_of_parse
    {s : Text} {address : Ipv6Addr}
    (hParse : Ipv6Addr.parse s = some address) :
    ∀ c ∈ s, IsAddressChar c := by
  unfold parse at hParse
  split at hParse
  case h_1 groups hRead =>
      rcases takesOnly_readIpv6Addr _ _ _ hRead with
        ⟨used, hText, hUsed⟩
      rw [hText, List.append_nil]
      exact hUsed
  case h_2 => cases hParse

end Schema

end CargoUnikernel
