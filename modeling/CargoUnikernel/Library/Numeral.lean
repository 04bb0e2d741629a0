import CargoUnikernel.Library.Text
import Mathlib.Algebra.Group.Nat.Defs

/-
  Decimal numerals.

  A number is displayed without leading zeros. A bounded
  one is parsed digit by digit, a plus sign is allowed, and
  a step past the bound is an error.

  Main declarations:
    * `Numeral.display`, `Numeral.parse`
    * `Numeral.parse_display`
    * `Numeral.mem_of_parse`
-/

------------------------------------------------------------
-- Displaying and Parsing
------------------------------------------------------------

namespace Numeral

/- A number in decimal digits. -/
def display (n : Nat) : Text :=
  Nat.toDigits 10 n

/- The value of a decimal digit. -/
def digit? (c : Char) : Option Nat :=
  if c.isDigit then some (c.toNat - '0'.toNat) else none

/- Every step of the sum is checked against the bound. -/
def parseDigits (bound : Nat) : Nat → Text → Option Nat
| sum, [] => some sum
| sum, c :: cs =>
    (digit? c).bind fun digit =>
      if sum * 10 + digit < bound then
        parseDigits bound (sum * 10 + digit) cs
      else
        none

/- At least one digit, after an optional plus sign. -/
def parse (bound : Nat) : Text → Option Nat
| [] => none
| ['+'] => none
| '+' :: cs => parseDigits bound 0 cs
| cs => parseDigits bound 0 cs

------------------------------------------------------------
-- The Round Trip
------------------------------------------------------------

/- Reading on never makes the number smaller. -/
theorem le_ofDigitChars (cs : Text) (sum : Nat) :
    sum ≤ Nat.ofDigitChars 10 cs sum := by
  induction cs generalizing sum with
  | nil => exact Nat.le_of_eq Nat.ofDigitChars_nil.symm
  | cons c cs ih =>
      rw [Nat.ofDigitChars_cons]
      have hRest := ih (10 * sum + (c.toNat - '0'.toNat))
      omega

theorem parseDigits_eq_ofDigitChars
    {bound : Nat} {cs : Text}
    (hDigits : ∀ c ∈ cs, c.isDigit = true)
    {sum : Nat}
    (hBound : Nat.ofDigitChars 10 cs sum < bound) :
    parseDigits bound sum cs =
      some (Nat.ofDigitChars 10 cs sum) := by
  induction cs generalizing sum with
  | nil => rw [parseDigits, Nat.ofDigitChars_nil]
  | cons c cs ih =>
      have hDigit := hDigits c List.mem_cons_self
      rw [Nat.ofDigitChars_cons, Nat.mul_comm] at hBound ⊢
      have hStep :=
        le_ofDigitChars cs (sum * 10 + (c.toNat - '0'.toNat))
      rw [parseDigits, digit?, if_pos hDigit,
        Option.bind_some, if_pos (by omega)]
      apply ih _ hBound
      intro other hMem
      exact hDigits other (List.mem_cons_of_mem c hMem)

theorem isDigit_of_mem_display
    {n : Nat} {c : Char} (hMem : c ∈ display n) :
    c.isDigit = true :=
  Nat.isDigit_of_mem_toDigits (by decide) (by decide) hMem

/- A number below the bound is read back. -/
theorem parse_display
    {bound n : Nat} (hBound : n < bound) :
    parse bound (display n) = some n := by
  have hValue : Nat.ofDigitChars 10 (display n) 0 = n :=
    Nat.ofDigitChars_ten_toDigits
  have hDigits : ∀ c ∈ display n, c.isDigit = true :=
    fun c hMem => isDigit_of_mem_display hMem
  have hParse :
      parseDigits bound 0 (display n) = some n := by
    rw [parseDigits_eq_ofDigitChars hDigits (by omega), hValue]
  unfold parse
  split
  case h_1 hEmpty => exact absurd hEmpty Nat.toDigits_ne_nil
  case h_2 hPlus =>
      rw [hPlus] at hDigits
      exact absurd (hDigits '+' (by simp)) (by decide)
  case h_3 hPlus =>
      rw [hPlus] at hDigits
      exact absurd (hDigits '+' (by simp)) (by decide)
  case h_4 => exact hParse

/- Every step was checked against the bound. -/
theorem lt_of_parseDigits
    {bound sum n : Nat} {cs : Text}
    (hSum : sum < bound)
    (hParse : parseDigits bound sum cs = some n) :
    n < bound := by
  induction cs generalizing sum with
  | nil =>
      cases hParse
      exact hSum
  | cons c cs ih =>
      unfold parseDigits at hParse
      rw [Option.bind_eq_some_iff] at hParse
      rcases hParse with ⟨digit, _, hParse⟩
      split at hParse
      case isTrue hStep => exact ih hStep hParse
      case isFalse => cases hParse

theorem lt_of_parse
    {bound n : Nat} {s : Text}
    (hBound : 0 < bound)
    (hParse : parse bound s = some n) :
    n < bound := by
  unfold parse at hParse
  split at hParse
  · cases hParse
  · cases hParse
  · exact lt_of_parseDigits hBound hParse
  · exact lt_of_parseDigits hBound hParse

------------------------------------------------------------
-- The Characters of a Numeral
------------------------------------------------------------

theorem isDigit_of_parseDigits
    {bound sum n : Nat} {cs : Text}
    (hParse : parseDigits bound sum cs = some n) :
    ∀ c ∈ cs, c.isDigit = true := by
  induction cs generalizing sum with
  | nil => simp
  | cons c cs ih =>
      unfold parseDigits digit? at hParse
      split at hParse
      case isTrue hDigit =>
          rw [Option.bind_some] at hParse
          split at hParse
          · simpa [hDigit] using ih hParse
          · cases hParse
      case isFalse => cases hParse

/- What parses is digits and at most a plus sign. -/
theorem mem_of_parse
    {bound n : Nat} {s : Text}
    (hParse : parse bound s = some n)
    {c : Char} (hMem : c ∈ s) :
    c = '+' ∨ c.isDigit = true := by
  unfold parse at hParse
  split at hParse
  · cases hParse
  · cases hParse
  · rcases List.mem_cons.1 hMem with hPlus | hRest
    · exact Or.inl hPlus
    · exact Or.inr (isDigit_of_parseDigits hParse c hRest)
  · exact Or.inr (isDigit_of_parseDigits hParse c hMem)

end Numeral
