import Mathlib.Tactic.Common
import Mathlib.Tactic.Ring
import Mathlib.Algebra.Order.Ring.Nat

/-
  Fixed-width numbers as bytes, in either byte order.

  Main declarations:
    * `ofNatLe`, `toNatLe` and their big-endian forms
    * `toNatLe_ofNatLe`, `toNatBe_ofNatBe`
    * `memcmp` and `memcmp_eq_compare`
-/

------------------------------------------------------------
-- Little and Big Endian
------------------------------------------------------------

namespace Bytes

/- The low bytes of a number, least significant first. -/
def ofNatLe : Nat → Nat → List UInt8
| 0, _ => []
| width + 1, n => UInt8.ofNat n :: ofNatLe width (n / 256)

/- The number whose least significant byte comes first. -/
def toNatLe : List UInt8 → Nat
| [] => 0
| byte :: bytes => byte.toNat + 256 * toNatLe bytes

/- The same, most significant byte first. -/
def ofNatBe (width n : Nat) : List UInt8 :=
  (ofNatLe width n).reverse

/- The value of a big-endian number. -/
def toNatBe (bytes : List UInt8) : Nat :=
  toNatLe bytes.reverse

@[simp] theorem length_ofNatLe (width n : Nat) :
    (ofNatLe width n).length = width := by
  induction width generalizing n with
  | zero => rfl
  | succ width ih => simp [ofNatLe, ih]

@[simp] theorem length_ofNatBe (width n : Nat) :
    (ofNatBe width n).length = width := by
  simp [ofNatBe]

/- A number that fits its width is read back. -/
theorem toNatLe_ofNatLe
    {width n : Nat} (hFits : n < 256 ^ width) :
    toNatLe (ofNatLe width n) = n := by
  induction width generalizing n with
  | zero =>
      simp only [pow_zero, Nat.lt_one_iff] at hFits
      simp [ofNatLe, toNatLe, hFits]
  | succ width ih =>
      have hRest : n / 256 < 256 ^ width := by
        rw [Nat.div_lt_iff_lt_mul (by decide)]
        rwa [pow_succ] at hFits
      simp only [ofNatLe, toNatLe, ih hRest,
        UInt8.toNat_ofNat']
      omega

theorem toNatBe_ofNatBe
    {width n : Nat} (hFits : n < 256 ^ width) :
    toNatBe (ofNatBe width n) = n := by
  simpa [toNatBe, ofNatBe] using toNatLe_ofNatLe hFits

/- A byte string denotes less than its length allows. -/
theorem toNatLe_lt (bytes : List UInt8) :
    toNatLe bytes < 256 ^ bytes.length := by
  induction bytes with
  | nil => simp [toNatLe]
  | cons byte bytes ih =>
      have hByte := byte.toNat_lt
      simp only [toNatLe, List.length_cons, pow_succ]
      omega

theorem toNatBe_lt (bytes : List UInt8) :
    toNatBe bytes < 256 ^ bytes.length := by
  simpa [toNatBe] using toNatLe_lt bytes.reverse

theorem toNatLe_append (front back : List UInt8) :
    toNatLe (front ++ back) =
      toNatLe front + 256 ^ front.length * toNatLe back := by
  induction front with
  | nil => simp [toNatLe]
  | cons byte front ih =>
      simp only [List.cons_append, toNatLe, ih,
        List.length_cons, pow_succ]
      ring

/- The first byte is the most significant one. -/
theorem toNatBe_cons (byte : UInt8) (bytes : List UInt8) :
    toNatBe (byte :: bytes) =
      byte.toNat * 256 ^ bytes.length + toNatBe bytes := by
  simp only [toNatBe, List.reverse_cons, toNatLe_append,
    toNatLe, List.length_reverse]
  ring

/- One length and one number make one byte string. -/
theorem toNatLe_inj
    {a b : List UInt8}
    (hLength : a.length = b.length)
    (hValue : toNatLe a = toNatLe b) :
    a = b := by
  induction a generalizing b with
  | nil =>
      cases b with
      | nil => rfl
      | cons _ _ => simp at hLength
  | cons x a ih =>
      cases b with
      | nil => simp at hLength
      | cons y b =>
          have hX := x.toNat_lt
          have hY := y.toNat_lt
          simp only [toNatLe] at hValue
          have hByte : x = y :=
            UInt8.toNat_inj.mp (by omega)
          have hRest : a = b :=
            ih (by simpa using hLength) (by omega)
          rw [hByte, hRest]

theorem toNatBe_inj
    {a b : List UInt8}
    (hLength : a.length = b.length)
    (hValue : toNatBe a = toNatBe b) :
    a = b := by
  have hReverse : a.reverse = b.reverse :=
    toNatLe_inj (by simpa using hLength) hValue
  simpa using congrArg List.reverse hReverse

/- Bitwise operations act byte by byte. -/
theorem zipWith_and_ofNatLe (width a b : Nat) :
    List.zipWith (· &&& ·) (ofNatLe width a)
        (ofNatLe width b) =
      ofNatLe width (a &&& b) := by
  induction width generalizing a b with
  | zero => rfl
  | succ width ih =>
      have hRest : a / 256 &&& b / 256 = (a &&& b) / 256 :=
        (Nat.and_div_two_pow (n := 8) ..).symm
      simp only [ofNatLe, List.zipWith_cons_cons, ih,
        UInt8.ofNat_and, hRest]

theorem zipWith_xor_ofNatLe (width a b : Nat) :
    List.zipWith (· ^^^ ·) (ofNatLe width a)
        (ofNatLe width b) =
      ofNatLe width (a ^^^ b) := by
  induction width generalizing a b with
  | zero => rfl
  | succ width ih =>
      have hRest : a / 256 ^^^ b / 256 = (a ^^^ b) / 256 :=
        (Nat.xor_div_two_pow (n := 8) ..).symm
      simp only [ofNatLe, List.zipWith_cons_cons, ih,
        UInt8.ofNat_xor, hRest]

/- Numbers that fit are told apart by their bytes. -/
theorem ofNatLe_inj
    {width a b : Nat}
    (hA : a < 256 ^ width) (hB : b < 256 ^ width) :
    ofNatLe width a = ofNatLe width b ↔ a = b := by
  constructor
  · intro hBytes
    have hValue := congrArg toNatLe hBytes
    rwa [toNatLe_ofNatLe hA, toNatLe_ofNatLe hB] at hValue
  · intro hEq
    rw [hEq]

------------------------------------------------------------
-- Comparison of Byte Strings
------------------------------------------------------------

/- The first difference of two strings of one length. -/
def memcmp : List UInt8 → List UInt8 → Ordering
| x :: a, y :: b => (compare x.toNat y.toNat).then (memcmp a b)
| _, _ => .eq

/- On big-endian numbers it compares the numbers. -/
theorem memcmp_eq_compare
    {a b : List UInt8} (hLength : a.length = b.length) :
    memcmp a b = compare (toNatBe a) (toNatBe b) := by
  induction a generalizing b with
  | nil =>
      cases b with
      | nil => rfl
      | cons _ _ => simp at hLength
  | cons x a ih =>
      cases b with
      | nil => simp at hLength
      | cons y b =>
          have hLength : a.length = b.length := by
            simpa using hLength
          have hA := toNatBe_lt a
          have hB := toNatBe_lt b
          rw [memcmp, ih hLength, toNatBe_cons, toNatBe_cons,
            ← hLength]
          rw [← hLength] at hB
          rcases Nat.lt_trichotomy x.toNat y.toNat with
            hLt | hEq | hGt
          · have hLead :
                (x.toNat + 1) * 256 ^ a.length ≤
                  y.toNat * 256 ^ a.length :=
              Nat.mul_le_mul_right _ hLt
            have hWhole :
                x.toNat * 256 ^ a.length + toNatBe a <
                  y.toNat * 256 ^ a.length + toNatBe b := by
              rw [Nat.add_mul] at hLead
              omega
            rw [Nat.compare_eq_lt.mpr hLt,
              Nat.compare_eq_lt.mpr hWhole]
            rfl
          · rw [hEq, Nat.compare_eq_eq.mpr rfl]
            simp only [Ordering.eq_then, Nat.compare_eq_ite_lt,
              Nat.add_lt_add_iff_left]
          · have hLead :
                (y.toNat + 1) * 256 ^ a.length ≤
                  x.toNat * 256 ^ a.length :=
              Nat.mul_le_mul_right _ hGt
            have hWhole :
                y.toNat * 256 ^ a.length + toNatBe b <
                  x.toNat * 256 ^ a.length + toNatBe a := by
              rw [Nat.add_mul] at hLead
              omega
            rw [Nat.compare_eq_gt.mpr hGt,
              Nat.compare_eq_gt.mpr hWhole]
            rfl

theorem memcmp_eq_eq_iff
    {a b : List UInt8} (hLength : a.length = b.length) :
    memcmp a b = .eq ↔ a = b := by
  rw [memcmp_eq_compare hLength, Nat.compare_eq_eq]
  exact ⟨toNatBe_inj hLength, fun hEq => by rw [hEq]⟩

end Bytes
