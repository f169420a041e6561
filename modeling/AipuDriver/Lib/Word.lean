import Mathlib.Data.Nat.Bitwise
import Mathlib.Data.Nat.ModEq

/-!
# Unsigned words and mask alignment

Machine words are natural numbers below `2 ^ w`; `wrap w` reduces a result to a word and `wrapSub w`
is the subtraction of words.  `maskAlign w x a` is the usual C idiom `(x + (a - 1)) & ~(a - 1)` on
words of width `w`.  For a power of two it rounds up; for any other `a` it still returns a word
between `x` and `x + (a - 1)` (`le_maskAlign`, `maskAlign_le`), which keeps the low zero bits that
`a` has (`maskAlign_mod_two_pow`).  It is the word of the number `maskUp x a`, which has no width
(`maskAlign_eq_wrap`).
-/

namespace Word

/-- Reduce a natural number to a word of width `w`. -/
def wrap (w n : ℕ) : ℕ := n % 2 ^ w

/-- Subtraction of words of width `w`. -/
def wrapSub (w a b : ℕ) : ℕ := (a + 2 ^ w - b) % 2 ^ w

/-- The word `(x + (a - 1)) & ~(a - 1)`. -/
def maskAlign (w x a : ℕ) : ℕ :=
  let mask := wrapSub w a 1
  wrap w (x + mask) &&& (2 ^ w - 1 - mask)

/-- The word of width `v` made from the low `w` bits of `n` by sign extension. -/
def signExtend (w v n : ℕ) : ℕ :=
  if wrap w n < 2 ^ (w - 1) then wrap w n else wrap w n + (2 ^ v - 2 ^ w)

/-- Reducing a word changes nothing. -/
theorem wrap_of_lt {w n : ℕ} (h : n < 2 ^ w) : wrap w n = n := Nat.mod_eq_of_lt h

/-- A reduced number is a word. -/
theorem wrap_lt (w n : ℕ) : wrap w n < 2 ^ w := Nat.mod_lt _ (Nat.two_pow_pos w)

/-- Reducing never increases a number. -/
theorem wrap_le (w n : ℕ) : wrap w n ≤ n := Nat.mod_le _ _

/-- The subtraction of words is the exact one when it does not go below zero. -/
theorem wrapSub_of_le {w a b : ℕ} (ha : a < 2 ^ w) (h : b ≤ a) : wrapSub w a b = a - b := by
  have : a + 2 ^ w - b = a - b + 2 ^ w := by omega
  rw [wrapSub, this, Nat.add_mod_right, Nat.mod_eq_of_lt (by omega)]

/-- A sum of words is the exact one when it is no less than one of them. -/
theorem wrap_add_of_le {w a b : ℕ} (ha : a < 2 ^ w) (hb : b < 2 ^ w) (h : a ≤ wrap w (a + b)) :
    wrap w (a + b) = a + b := by
  refine wrap_of_lt ?_
  by_contra hwraps
  have hwrap : wrap w (a + b) = a + b - 2 ^ w := by
    rw [wrap, Nat.mod_eq_sub_mod (by omega), Nat.mod_eq_of_lt (by omega)]
  omega

/-- Subtracting a word other than zero changes a number. -/
theorem wrapSub_ne {w a b : ℕ} (hb : 0 < b) (hlt : b < 2 ^ w) : wrapSub w a b ≠ a := by
  intro h
  have ha : wrapSub w a b < 2 ^ w := Nat.mod_lt _ (Nat.two_pow_pos w)
  rcases Nat.lt_or_ge a b with hab | hab
  · rw [wrapSub, Nat.mod_eq_of_lt (by omega)] at h
    omega
  · rw [wrapSub_of_le (h ▸ ha) hab] at h
    omega

/-- A reduced number is congruent to the number. -/
theorem wrap_modEq (w n : ℕ) : wrap w n ≡ n [MOD 2 ^ w] := Nat.mod_modEq n (2 ^ w)

/-- The difference of words and the word that was subtracted are congruent to the other one. -/
theorem wrapSub_add_modEq {w a b : ℕ} (h : b ≤ a + 2 ^ w) : wrapSub w a b + b ≡ a [MOD 2 ^ w] := by
  calc wrapSub w a b + b ≡ (a + 2 ^ w - b) + b [MOD 2 ^ w] := (Nat.mod_modEq _ _).add_right b
    _ = a + 2 ^ w := Nat.sub_add_cancel h
    _ ≡ a [MOD 2 ^ w] := Nat.add_mod_right a (2 ^ w)

/-- A difference of words is a word. -/
theorem wrapSub_lt (w a b : ℕ) : wrapSub w a b < 2 ^ w := Nat.mod_lt _ (Nat.two_pow_pos w)

/-- The bits of a word outside `m` and those in `m` add up to the word. -/
theorem and_compl_add_and {w y m : ℕ} (hy : y < 2 ^ w) (hm : m < 2 ^ w) :
    (y &&& (2 ^ w - 1 - m)) + (y &&& m) = y := by
  have hsplit : (BitVec.ofNat w y) = (BitVec.ofNat w y &&& ~~~BitVec.ofNat w m) +
      (BitVec.ofNat w y &&& BitVec.ofNat w m) := by
    rw [BitVec.add_eq_or_of_and_eq_zero]
    · ext i
      simp only [BitVec.getElem_or, BitVec.getElem_and, BitVec.getElem_not]
      cases (BitVec.ofNat w m)[i] <;> simp
    · ext i
      simp only [BitVec.getElem_and, BitVec.getElem_not, BitVec.getElem_zero]
      cases (BitVec.ofNat w m)[i] <;> simp
  have hor : (y &&& (2 ^ w - 1 - m)) + (y &&& m) =
      (BitVec.ofNat w y &&& ~~~BitVec.ofNat w m).toNat +
        (BitVec.ofNat w y &&& BitVec.ofNat w m).toNat := by
    simp only [BitVec.toNat_and, BitVec.toNat_not, BitVec.toNat_ofNat, Nat.mod_eq_of_lt hy,
      Nat.mod_eq_of_lt hm]
  have hdisj : (BitVec.ofNat w y &&& ~~~BitVec.ofNat w m) &&&
      (BitVec.ofNat w y &&& BitVec.ofNat w m) = 0#w := by
    ext i
    simp only [BitVec.getElem_and, BitVec.getElem_not, BitVec.getElem_zero]
    cases (BitVec.ofNat w m)[i] <;> simp
  rw [hor, ← BitVec.toNat_add_of_and_eq_zero hdisj, ← hsplit, BitVec.toNat_ofNat,
    Nat.mod_eq_of_lt hy]

/-- Clearing the bits of `m` takes at most `m` away. -/
theorem le_and_compl_add {w y m : ℕ} (hy : y < 2 ^ w) (hm : m < 2 ^ w) :
    y ≤ (y &&& (2 ^ w - 1 - m)) + m := by
  calc y = (y &&& (2 ^ w - 1 - m)) + (y &&& m) := (and_compl_add_and hy hm).symm
    _ ≤ (y &&& (2 ^ w - 1 - m)) + m := Nat.add_le_add_left Nat.and_le_right _

/-- Subtracting one from the word zero gives the greatest word. -/
theorem wrapSub_zero_one (w : ℕ) : wrapSub w 0 1 = 2 ^ w - 1 := by
  have := Nat.two_pow_pos w
  rw [wrapSub, Nat.zero_add, Nat.mod_eq_of_lt (by omega)]

section MaskAlign

variable {w x a : ℕ}

/-- Mask alignment never exceeds the word it masks. -/
theorem maskAlign_le_wrap : maskAlign w x a ≤ wrap w (x + wrapSub w a 1) := Nat.and_le_left

/-- Without overflow the mask is `a - 1` and the sum is exact. -/
theorem maskAlign_eq (ha : 0 < a) (hx : x + (a - 1) < 2 ^ w) :
    maskAlign w x a = (x + (a - 1)) &&& (2 ^ w - 1 - (a - 1)) := by
  have hmask : wrapSub w a 1 = a - 1 := by
    rcases Nat.lt_or_ge a (2 ^ w) with h | h
    · exact wrapSub_of_le h ha
    · have : a + 2 ^ w - 1 = a - 1 + 2 ^ w := by omega
      rw [wrapSub, this, Nat.add_mod_right, Nat.mod_eq_of_lt (by omega)]
  rw [maskAlign, hmask, wrap_of_lt hx]

/-- The number `(x + (a - 1)) & ~(a - 1)`, without a width. -/
def maskUp (x a : ℕ) : ℕ := x + (a - 1) - ((x + (a - 1)) &&& (a - 1))

/-- Masking an unbounded number never rounds down. -/
theorem le_maskUp (x a : ℕ) : x ≤ maskUp x a := by
  have : (x + (a - 1)) &&& (a - 1) ≤ a - 1 := Nat.and_le_right
  unfold maskUp
  omega

/-- It adds at most `a - 1`. -/
theorem maskUp_le (x a : ℕ) : maskUp x a ≤ x + (a - 1) := Nat.sub_le _ _

/-- Mask alignment is the masked number, reduced to a word. -/
theorem maskAlign_eq_wrap (ha : 0 < a) (haw : a ≤ 2 ^ w) :
    maskAlign w x a = wrap w (maskUp x a) := by
  have hmask : wrapSub w a 1 = a - 1 := by
    have : a + 2 ^ w - 1 = a - 1 + 2 ^ w := by omega
    rw [wrapSub, this, Nat.add_mod_right, Nat.mod_eq_of_lt (by omega)]
  have hlow : (x + (a - 1)) &&& (a - 1) = wrap w (x + (a - 1)) &&& (a - 1) := by
    have hle : (x + (a - 1)) &&& (a - 1) ≤ a - 1 := Nat.and_le_right
    calc (x + (a - 1)) &&& (a - 1) = ((x + (a - 1)) &&& (a - 1)) % 2 ^ w :=
      (Nat.mod_eq_of_lt (by omega)).symm
      _ = wrap w (x + (a - 1)) &&& ((a - 1) % 2 ^ w) := Nat.and_mod_two_pow
      _ = wrap w (x + (a - 1)) &&& (a - 1) := by rw [Nat.mod_eq_of_lt (by omega)]
  have hword := wrap_lt w (x + (a - 1))
  have hsum := and_compl_add_and (m := a - 1) hword (by omega)
  have hdiv : 2 ^ w * ((x + (a - 1)) / 2 ^ w) + wrap w (x + (a - 1)) = x + (a - 1) :=
    Nat.div_add_mod _ _
  -- the sum and the masked word differ by a multiple of `2 ^ w` and by the bits of the mask
  have hup : maskUp x a = (wrap w (x + (a - 1)) &&& (2 ^ w - 1 - (a - 1))) + 2 ^ w *
      ((x + (a - 1)) / 2 ^ w) := by
    rw [maskUp, hlow]
    omega
  rw [maskAlign, hmask, hup]
  exact ((Nat.add_mul_mod_self_left _ _ _).trans (Nat.mod_eq_of_lt (by omega))).symm

/-- Mask alignment never rounds down. -/
theorem le_maskAlign (ha : 0 < a) (hx : x + (a - 1) < 2 ^ w) : x ≤ maskAlign w x a := by
  rw [maskAlign_eq ha hx]
  have := le_and_compl_add (m := a - 1) hx (by omega)
  omega

/-- Mask alignment adds at most `a - 1`. -/
theorem maskAlign_le (ha : 0 < a) (hx : x + (a - 1) < 2 ^ w) :
    maskAlign w x a ≤ x + (a - 1) := by
  rw [maskAlign_eq ha hx]
  exact Nat.and_le_left

/-- Mask alignment keeps a multiple of a power of two that is no less than `a`, whatever `a` is. -/
theorem maskAlign_of_two_pow_dvd {k : ℕ} (ha : 0 < a) (hak : a ≤ 2 ^ k) (hk : 2 ^ k ∣ x)
    (hx : x + (a - 1) < 2 ^ w) : maskAlign w x a = x := by
  obtain ⟨q, rfl⟩ := hk
  have hlow : (2 ^ k * q + (a - 1)) &&& (a - 1) = a - 1 := by
    apply Nat.eq_of_testBit_eq
    intro i
    rw [Nat.testBit_and, Nat.testBit_two_pow_mul_add _ (by omega)]
    split
    · simp
    · have : (a - 1).testBit i = false :=
        Nat.testBit_eq_false_of_lt ((by omega : a - 1 < 2 ^ k).trans_le
          (Nat.pow_le_pow_right (by decide) (by omega)))
      simp [this]
  have hsum := and_compl_add_and (m := a - 1) hx (by omega)
  rw [hlow] at hsum
  rw [maskAlign_eq ha hx]
  omega

/-- Mask alignment clears the low bits that `a` has clear, also when the sum overflows. -/
theorem maskAlign_mod_two_pow {k : ℕ} (ha : 0 < a) (haw : a ≤ 2 ^ w) (hk : 2 ^ k ∣ a) :
    maskAlign w x a % 2 ^ k = 0 := by
  have hmask : wrapSub w a 1 = a - 1 := by
    have : a + 2 ^ w - 1 = a - 1 + 2 ^ w := by omega
    rw [wrapSub, this, Nat.add_mod_right, Nat.mod_eq_of_lt (by omega)]
  rw [maskAlign, hmask, ← Nat.and_two_pow_sub_one_eq_mod]
  apply Nat.eq_of_testBit_eq
  intro i
  obtain ⟨q, rfl⟩ := hk
  have hq : 0 < q := Nat.pos_of_mul_pos_left ha
  have hlow : i < k → (2 ^ k * q - 1).testBit i = true := by
    intro hi
    have hsplit : 2 ^ k * q - 1 = 2 ^ k * (q - 1) + (2 ^ k - 1) := by
      obtain ⟨r, rfl⟩ : ∃ r, q = r + 1 := ⟨q - 1, by omega⟩
      have hpos := Nat.two_pow_pos k
      simp only [Nat.add_sub_cancel, Nat.mul_add, Nat.mul_one]
      omega
    have hpos := Nat.two_pow_pos k
    rw [hsplit, Nat.testBit_two_pow_mul_add _ (by omega)]
    simp [hi]
  simp only [Nat.testBit_and, Nat.zero_testBit, Bool.and_eq_false_imp]
  intro hbits
  rw [Nat.testBit_two_pow_sub_one]
  have hw : 2 ^ w - 1 - (2 ^ k * q - 1) = 2 ^ w - ((2 ^ k * q - 1) + 1) := by omega
  rw [Bool.and_eq_true, hw, Nat.testBit_two_pow_sub_succ (by omega)] at hbits
  rcases Nat.lt_or_ge i k with hi | hi
  · simp [hlow hi] at hbits
  · simp [hi]

end MaskAlign

end Word
