import AipuDriver.Lib.UnusedId
import AipuDriver.Lib.Word
import Mathlib.Algebra.Order.Floor.Div

/-!
# Rounding up

`roundUp n a` is the least multiple of `a` that is no less than `n`, on exact numbers.  Two ways to
compute it on words agree with it as long as the result is a word: the mask of `Word.maskAlign` for
a power of two (`maskAlign_eq_roundUp`), and the search through the multiples, one after the other
(`firstUnused_multiple`).
-/

namespace RoundUp

open UnusedId Word

variable {n a : ℕ}

/-- The least multiple of `a` from `n` on; `n` itself when there is none. -/
def roundUp (n a : ℕ) : ℕ := if a = 0 then n else a * (n ⌈/⌉ a)

/-- Rounding up is not rounding down. -/
theorem le_roundUp (n a : ℕ) : n ≤ roundUp n a := by
  unfold roundUp
  split
  · exact le_rfl
  next ha => exact le_smul_ceilDiv (Nat.pos_of_ne_zero ha)

/-- The result is a multiple. -/
theorem dvd_roundUp (ha : a ≠ 0) : a ∣ roundUp n a := by
  rw [roundUp, if_neg ha]
  exact dvd_mul_right a _

/-- No multiple before it is as great. -/
theorem roundUp_le {m : ℕ} (hm : a ∣ m) (h : n ≤ m) : roundUp n a ≤ m := by
  unfold roundUp
  split
  · exact h
  next ha =>
    obtain ⟨q, rfl⟩ := hm
    exact Nat.mul_le_mul_left a ((ceilDiv_le_iff_le_mul (Nat.pos_of_ne_zero ha)).mpr h)

/-- Something is rounded up to a multiple other than zero. -/
theorem le_roundUp_of_pos (hn : 0 < n) (ha : a ≠ 0) : a ≤ roundUp n a :=
  Nat.le_of_dvd (hn.trans_le (le_roundUp n a)) (dvd_roundUp ha)

/-- It is the least of the multiples from `n` on. -/
theorem isLeast_roundUp (n : ℕ) (ha : a ≠ 0) : IsLeast {m | a ∣ m ∧ n ≤ m} (roundUp n a) :=
  ⟨⟨dvd_roundUp ha, le_roundUp n a⟩, fun _ hm => roundUp_le hm.1 hm.2⟩

/-- The result is below a bound when there is a multiple from `n` on below it. -/
theorem roundUp_lt_iff {m : ℕ} (ha : a ≠ 0) (hm : 0 < m) :
    roundUp n a < m ↔ n ≤ (m - 1) / a * a := by
  constructor
  · intro h
    obtain ⟨q, hq⟩ := dvd_roundUp (n := n) ha
    have hle : q ≤ (m - 1) / a := by
      rw [Nat.le_div_iff_mul_le (Nat.pos_of_ne_zero ha), Nat.mul_comm, ← hq]
      omega
    calc n ≤ roundUp n a := le_roundUp n a
      _ = q * a := by rw [hq, Nat.mul_comm]
      _ ≤ (m - 1) / a * a := Nat.mul_le_mul_right a hle
  · intro h
    have hround := roundUp_le (dvd_mul_left a ((m - 1) / a)) h
    have hlast := Nat.div_mul_le_self (m - 1) a
    omega

/-- For a power of two, masking is rounding up. -/
theorem maskUp_two_pow (n k : ℕ) : maskUp n (2 ^ k) = roundUp n (2 ^ k) := by
  have hpos := Nat.two_pow_pos k
  have hsum : n + 2 ^ k - 1 = n + (2 ^ k - 1) := Nat.add_sub_assoc hpos n
  have hdiv := Nat.div_add_mod (n + (2 ^ k - 1)) (2 ^ k)
  rw [maskUp, Nat.and_two_pow_sub_one_eq_mod, roundUp, if_neg hpos.ne',
    Nat.ceilDiv_eq_add_pred_div, hsum]
  omega

/-- The mask rounds up when the result is a word. -/
theorem maskAlign_eq_roundUp {w k : ℕ} (hk : k ≤ w) (h : roundUp n (2 ^ k) < 2 ^ w) :
    maskAlign w n (2 ^ k) = roundUp n (2 ^ k) := by
  rw [maskAlign_eq_wrap (Nat.two_pow_pos k) (Nat.pow_le_pow_right (by decide) hk), maskUp_two_pow,
    wrap_of_lt h]

/-- The search through the multiples rounds up when the result is a word. -/
theorem firstUnused_multiple {w fuel i : ℕ} (h : roundUp n a < 2 ^ w)
    (hfound : firstUnused (fun i => wrap w (i * a) < n) (2 ^ w) fuel 0 = some i) :
    wrap w (i * a) = roundUp n a ∧ a ∣ wrap w (i * a) := by
  obtain ⟨k, -, hi, hge, hbefore⟩ := (firstUnused_eq_some (Nat.two_pow_pos w)).mp hfound
  rw [Nat.zero_add] at hi
  rw [decide_eq_false_iff_not, Nat.not_lt] at hge
  rcases Nat.eq_zero_or_pos a with rfl | ha
  · rw [Nat.mul_zero, wrap, Nat.zero_mod] at hge ⊢
    obtain rfl := Nat.le_zero.mp hge
    exact ⟨rfl, dvd_rfl⟩
  · have hround : roundUp n a = (n ⌈/⌉ a) * a := by rw [roundUp, if_neg ha.ne', Nat.mul_comm]
    have hmul : ∀ l ≤ n ⌈/⌉ a, wrap w (l * a) = l * a ∧ l < 2 ^ w := by
      intro l hl
      have hle : l * a < 2 ^ w := (Nat.mul_le_mul_right a hl).trans_lt (hround ▸ h)
      exact ⟨wrap_of_lt hle, (Nat.le_mul_of_pos_right l ha).trans_lt hle⟩
    -- the search stops at the quotient, not before and not after it
    have hk : k ≤ n ⌈/⌉ a := by
      by_contra hlt
      have hused := hbefore (n ⌈/⌉ a) (by omega)
      obtain ⟨hwrap, hword⟩ := hmul _ le_rfl
      rw [decide_eq_true_iff, Nat.zero_add, Nat.mod_eq_of_lt hword, hwrap, ← hround] at hused
      exact absurd (le_roundUp n a) (by omega)
    obtain ⟨hwrap, hword⟩ := hmul k hk
    rw [Nat.mod_eq_of_lt hword] at hi
    rw [hi, hwrap] at hge ⊢
    have hkq : n ⌈/⌉ a ≤ k := (ceilDiv_le_iff_le_mul ha).mpr (by rw [Nat.mul_comm]; exact hge)
    refine ⟨?_, dvd_mul_left a k⟩
    rw [hround, Nat.le_antisymm hk hkq]

/-- The search ends when the result is a word. -/
theorem exists_firstUnused_multiple {w : ℕ} (ha : a ≠ 0) (h : roundUp n a < 2 ^ w) :
    ∃ i, firstUnused (fun i => wrap w (i * a) < n) (2 ^ w) (2 ^ w) 0 = some i := by
  have hround : roundUp n a = (n ⌈/⌉ a) * a := by rw [roundUp, if_neg ha, Nat.mul_comm]
  have hword : n ⌈/⌉ a < 2 ^ w :=
    (Nat.le_mul_of_pos_right _ (Nat.pos_of_ne_zero ha)).trans_lt (hround ▸ h)
  refine exists_firstUnused_of_free (Nat.two_pow_pos w) hword ?_
  rw [decide_eq_false_iff_not, Nat.not_lt, Nat.zero_add, Nat.mod_eq_of_lt hword, ← hround,
    wrap_of_lt h]
  exact le_roundUp n a

end RoundUp
