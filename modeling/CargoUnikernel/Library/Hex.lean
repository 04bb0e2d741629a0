import CargoUnikernel.Library.Words

/-
  Hexadecimal numbers, written with a least width and read
  as `from_str_radix` does.

  A number that fits the bound is read back from either case
  and with any number of zeros before it, so two numbers
  written with one width are told apart by their text.

  Main declarations:
    * `Hex.display`, `Hex.parse`
    * `Hex.parse_display`, `Hex.display_inj`
    * `Hex.solid_display`
-/

------------------------------------------------------------
-- Digits
------------------------------------------------------------

namespace Hex

/- The value of a digit, in either case. -/
def digit? (c : Char) : Option Nat :=
  if '0' ≤ c ∧ c ≤ '9' then
    some (c.toNat - '0'.toNat)
  else if 'a' ≤ c ∧ c ≤ 'f' then
    some (c.toNat - 'a'.toNat + 10)
  else if 'A' ≤ c ∧ c ≤ 'F' then
    some (c.toNat - 'A'.toNat + 10)
  else
    none

/- A digit in one of the two cases. -/
def digitChar (upper : Bool) (d : Nat) : Char :=
  if upper then (Nat.digitChar d).toUpper else Nat.digitChar d

/- Every step of the sum is checked against the bound. -/
def parseDigits (bound : Nat) : Nat → Text → Option Nat
| sum, [] => some sum
| sum, c :: cs =>
    (digit? c).bind fun digit =>
      if sum * 16 + digit < bound then
        parseDigits bound (sum * 16 + digit) cs
      else
        none

/- At least one digit, after an optional plus sign. -/
def parse (bound : Nat) : Text → Option Nat
| [] => none
| ['+'] => none
| '+' :: cs => parseDigits bound 0 cs
| cs => parseDigits bound 0 cs

/- No leading zeros. -/
def digits (upper : Bool) (n : Nat) : Text :=
  if _hSmall : n < 16 then
    [digitChar upper n]
  else
    digits upper (n / 16) ++ [digitChar upper (n % 16)]

/- With zeros up to the width, as `%0wX` and `%0wx` do. -/
def display (upper : Bool) (width n : Nat) : Text :=
  let cs := digits upper n
  List.replicate (width - cs.length) '0' ++ cs

theorem digit?_digitChar
    (upper : Bool) {d : Nat} (hDigit : d < 16) :
    digit? (digitChar upper d) = some d := by
  have hAll :
      ∀ upper : Bool, ∀ d : Fin 16,
        digit? (digitChar upper d) = some d.val := by
    decide
  exact hAll upper ⟨d, hDigit⟩

/- A digit is neither a sign nor white space. -/
theorem digitChar_ne_plus
    (upper : Bool) {d : Nat} (hDigit : d < 16) :
    digitChar upper d ≠ '+' := by
  intro hPlus
  have hRead := digit?_digitChar upper hDigit
  rw [hPlus] at hRead
  exact absurd hRead (by simp [digit?])

/- No digit is a blank. -/
theorem isWhitespace_digitChar
    (upper : Bool) {d : Nat} (hDigit : d < 16) :
    Text.isWhitespace (digitChar upper d) = false := by
  have hAll :
      ∀ upper : Bool, ∀ d : Fin 16,
        Text.isWhitespace (digitChar upper d) = false := by
    decide
  exact hAll upper ⟨d, hDigit⟩

------------------------------------------------------------
-- What Is Written
------------------------------------------------------------

/- All of a numeral is digits. -/
theorem mem_digits
    {upper : Bool} {n : Nat} {c : Char}
    (hMem : c ∈ digits upper n) :
    ∃ d, d < 16 ∧ c = digitChar upper d := by
  induction n using Nat.strong_induction_on with
  | h n ih =>
      rw [digits] at hMem
      split at hMem
      · rename_i hSmall
        rw [List.mem_singleton] at hMem
        exact ⟨n, hSmall, hMem⟩
      · rw [List.mem_append, List.mem_singleton] at hMem
        rcases hMem with hFront | hLast
        · exact ih (n / 16) (by omega) hFront
        · exact ⟨n % 16, by omega, hLast⟩

/- Every number has a digit. -/
theorem digits_ne_nil (upper : Bool) (n : Nat) :
    digits upper n ≠ [] := by
  rw [digits]
  split
  · exact List.cons_ne_nil _ _
  · simp

/- So is a numeral that is filled up. -/
theorem mem_display
    {upper : Bool} {width n : Nat} {c : Char}
    (hMem : c ∈ display upper width n) :
    ∃ d, d < 16 ∧ c = digitChar upper d := by
  unfold display at hMem
  rw [List.mem_append] at hMem
  rcases hMem with hZero | hDigit
  · have hEq := List.eq_of_mem_replicate hZero
    refine ⟨0, by omega, ?_⟩
    cases upper with
    | false => exact hEq
    | true => exact hEq
  · exact mem_digits hDigit

/- And it is not empty either. -/
theorem display_ne_nil (upper : Bool) (width n : Nat) :
    display upper width n ≠ [] := by
  unfold display
  intro hNil
  exact digits_ne_nil upper n (List.append_eq_nil_iff.1 hNil).2

/- A numeral is one word. -/
theorem solid_display (upper : Bool) (width n : Nat) :
    Text.Solid (display upper width n) := by
  refine ⟨display_ne_nil upper width n, ?_⟩
  intro c hMem
  rcases mem_display hMem with ⟨d, hDigit, rfl⟩
  exact isWhitespace_digitChar upper hDigit

/- Zero fills the width. -/
theorem display_zero
    (upper : Bool) {width : Nat} (hWidth : 0 < width) :
    display upper width 0 = List.replicate width '0' := by
  have hDigits : digits upper 0 = ['0'] := by
    rw [digits]
    cases upper with
    | false => rfl
    | true => rfl
  unfold display
  rw [hDigits]
  obtain ⟨less, rfl⟩ := Nat.exists_eq_add_of_lt hWidth
  rw [Nat.zero_add]
  exact (List.replicate_succ').symm

------------------------------------------------------------
-- What Is Read
------------------------------------------------------------

/- The second part is read on from where the first ended. -/
theorem parseDigits_append
    (bound sum : Nat) (front back : Text) :
    parseDigits bound sum (front ++ back) =
      (parseDigits bound sum front).bind fun read =>
        parseDigits bound read back := by
  induction front generalizing sum with
  | nil => rfl
  | cons c front ih =>
      rw [List.cons_append, parseDigits, parseDigits]
      cases digit? c with
      | none => rfl
      | some digit =>
          simp only [Option.bind_some]
          split
          · exact ih _
          · rfl

/- One digit is read as its value. -/
theorem parseDigits_digit
    {bound sum d : Nat} (upper : Bool) (hDigit : d < 16)
    (hBound : sum * 16 + d < bound) :
    parseDigits bound sum [digitChar upper d] =
      some (sum * 16 + d) := by
  rw [parseDigits, digit?_digitChar upper hDigit,
    Option.bind_some, if_pos hBound, parseDigits]

/- The digits are read back. -/
theorem parseDigits_digits
    {bound n : Nat} (upper : Bool) (hBound : n < bound) :
    parseDigits bound 0 (digits upper n) = some n := by
  induction n using Nat.strong_induction_on with
  | h n ih =>
      rw [digits]
      split
      · rename_i hSmall
        rw [parseDigits_digit upper hSmall (by omega)]
        simp
      · rw [parseDigits_append,
          ih (n / 16) (by omega) (by omega), Option.bind_some,
          parseDigits_digit upper (by omega) (by omega)]
        congr 1
        omega

/- Zeros in front do not count. -/
theorem parseDigits_zeros
    {bound : Nat} (hBound : 0 < bound)
    (count : Nat) (cs : Text) :
    parseDigits bound 0 (List.replicate count '0' ++ cs) =
      parseDigits bound 0 cs := by
  induction count with
  | zero => rfl
  | succ count ih =>
      have hZero : digit? '0' = some 0 := by
        decide
      rw [List.replicate_succ, List.cons_append, parseDigits,
        hZero, Option.bind_some, if_pos (by omega)]
      exact ih

/- Without a sign it is the digits that are read. -/
theorem parse_of_head_ne
    {bound : Nat} {cs : Text} (hNonempty : cs ≠ [])
    (hPlus : '+' ∉ cs) :
    parse bound cs = parseDigits bound 0 cs := by
  unfold parse
  split
  · exact absurd rfl hNonempty
  · exact absurd List.mem_cons_self hPlus
  · exact absurd List.mem_cons_self hPlus
  · rfl

/- A number that fits is read back, whatever its width. -/
theorem parse_display
    {bound n : Nat} (upper : Bool) (width : Nat)
    (hBound : n < bound) :
    parse bound (display upper width n) = some n := by
  have hPlus : '+' ∉ display upper width n := by
    intro hMem
    rcases mem_display hMem with ⟨d, hDigit, hEq⟩
    exact digitChar_ne_plus upper hDigit hEq.symm
  rw [parse_of_head_ne (display_ne_nil upper width n) hPlus]
  unfold display
  rw [parseDigits_zeros (by omega),
    parseDigits_digits upper hBound]

/- Numbers are told apart by their numerals. -/
theorem display_inj
    {upper : Bool} {width a b : Nat} :
    display upper width a = display upper width b ↔
      a = b := by
  constructor
  · intro hText
    have hA :=
      @parse_display (a + b + 1) a upper width (by omega)
    have hB :=
      @parse_display (a + b + 1) b upper width (by omega)
    rw [hText, hB] at hA
    exact (Option.some.inj hA).symm
  · intro hEq
    rw [hEq]

end Hex
