import AipuDriver.Lib.ByteReader
import Mathlib.Data.Nat.Bitwise

/-!
# Replacing bits of a memory

The bits of a memory of bytes follow each other, so that the bits of a little-endian word stand in
their order from eight times its address on.  A `WordPatch` replaces the bits of a mask in a word by
those of a value.  Patches that select different bits do not disturb each other, also when their
words overlap: after all of them each selected bit is the one of its patch, and the other bits are
as before (`applyAll_selected`, `applyAll_kept`).
-/

namespace WordPatch

open ByteReader

/-! ## Bits -/

/-- A bit of a memory. -/
def memoryBit (mem : Memory) (k : ℕ) : Bool := (mem (k / 8)).toNat.testBit (k % 8)

/-- A little-endian word of 32 bits is stored. -/
def storeWord (mem : Memory) (p value : ℕ) : Memory :=
  fun q => if p ≤ q ∧ q < p + 4 then UInt8.ofNat (value / 2 ^ (8 * (q - p))) else mem q

/-- Bytes are copied one after the other, from another memory. -/
def copyBytes (source mem : Memory) (dest src : ℕ) : ℕ → Memory
  | 0 => mem
  | n + 1 => fun q => if q = dest + n then source (src + n) else copyBytes source mem dest src n q

section Bits

variable {mem mem' source : Memory}

/-- A byte is its bits. -/
theorem byte_ext {q : ℕ} (h : ∀ r < 8, memoryBit mem (8 * q + r) = memoryBit mem' (8 * q + r)) :
    mem q = mem' q := by
  rw [← UInt8.toNat_inj]
  refine Nat.eq_of_testBit_eq fun r => ?_
  by_cases hr : r < 8
  · have hbit := h r hr
    unfold memoryBit at hbit
    rwa [show (8 * q + r) / 8 = q by omega, show (8 * q + r) % 8 = r by omega] at hbit
  · have hpow : 2 ^ 8 ≤ 2 ^ r := Nat.pow_le_pow_right (by decide) (Nat.not_lt.mp hr)
    rw [Nat.testBit_lt_two_pow ((mem q).toNat_lt.trans_le hpow),
      Nat.testBit_lt_two_pow ((mem' q).toNat_lt.trans_le hpow)]

/-- A bit of a number, by its byte. -/
theorem testBit_byte (n i : ℕ) {r : ℕ} (hr : r < 8) :
    (n / 2 ^ (8 * i) % 2 ^ 8).testBit r = n.testBit (8 * i + r) := by
  rw [Nat.testBit_mod_two_pow, Nat.testBit_div_two_pow, decide_eq_true hr, Bool.true_and,
    Nat.add_comm]

/-- The bits of a word that is stored. -/
theorem memoryBit_storeWord (p value k : ℕ) :
    memoryBit (storeWord mem p value) k =
      if 8 * p ≤ k ∧ k < 8 * p + 32 then value.testBit (k - 8 * p) else memoryBit mem k := by
  have hmod : k % 8 < 8 := Nat.mod_lt _ (by decide)
  unfold memoryBit storeWord
  by_cases hk : 8 * p ≤ k ∧ k < 8 * p + 32
  · rw [if_pos hk, if_pos (by omega), UInt8.toNat_ofNat', testBit_byte _ _ hmod]
    congr 1
    omega
  · rw [if_neg hk, if_neg (by omega)]

/-- The bits of a word in memory. -/
theorem testBit_word (p : ℕ) {j : ℕ} (hj : j < 32) :
    (mem.word p).toNat.testBit j = memoryBit mem (8 * p + j) := by
  have hmod : j % 8 < 8 := Nat.mod_lt _ (by decide)
  have hbyte : (mem.word p).toNat / 2 ^ (8 * (j / 8)) % 2 ^ 8 = (mem (p + j / 8)).toNat := by
    have h0 := (mem p).toNat_lt
    have h1 := (mem (p + 1)).toNat_lt
    have h2 := (mem (p + 2)).toNat_lt
    have h3 := (mem (p + 3)).toNat_lt
    rw [Memory.word, UInt32.toNat_ofNat']
    obtain hi | hi | hi | hi : j / 8 = 0 ∨ j / 8 = 1 ∨ j / 8 = 2 ∨ j / 8 = 3 := by omega
    · simp only [hi, Nat.mul_zero, Nat.add_zero]
      omega
    all_goals
      rw [hi]
      omega
  have hplace := testBit_byte (mem.word p).toNat (j / 8) hmod
  rw [hbyte, show 8 * (j / 8) + j % 8 = j by omega] at hplace
  unfold memoryBit
  rw [← hplace, show (8 * p + j) / 8 = p + j / 8 by omega, show (8 * p + j) % 8 = j % 8 by omega]

/-- What bytes are after a copy. -/
theorem copyBytes_apply (dest src n q : ℕ) :
    copyBytes source mem dest src n q =
      if dest ≤ q ∧ q < dest + n then source (src + (q - dest)) else mem q := by
  induction n with
  | zero => rw [copyBytes, if_neg (by omega)]
  | succ n ih =>
    simp only [copyBytes, ih]
    by_cases hq : q = dest + n
    · rw [if_pos hq, if_pos (by omega), hq, Nat.add_sub_cancel_left]
    · rw [if_neg hq]
      by_cases hin : dest ≤ q ∧ q < dest + n
      · rw [if_pos hin, if_pos (by omega)]
      · rw [if_neg hin, if_neg (by omega)]

/-- The bits after a copy. -/
theorem memoryBit_copyBytes {dest src n k : ℕ} (hk : k < 8 * n) :
    memoryBit (copyBytes source mem dest src n) (8 * dest + k) =
      memoryBit source (8 * src + k) := by
  unfold memoryBit
  rw [copyBytes_apply, if_pos (by omega), show (8 * dest + k) % 8 = (8 * src + k) % 8 by omega,
    show src + ((8 * dest + k) / 8 - dest) = (8 * src + k) / 8 by omega]

end Bits

/-! ## Patches -/

/-- The bits of the mask in the word at the place are replaced by those of the value. -/
structure Patch where
  place : ℕ
  value : ℕ
  mask : ℕ

/-- The patch replaces the bit. -/
def Patch.Selects (x : Patch) (k : ℕ) : Prop :=
  8 * x.place ≤ k ∧ k < 8 * x.place + 32 ∧ x.mask.testBit (k - 8 * x.place) = true

instance (x : Patch) : DecidablePred x.Selects := fun _ => inferInstanceAs (Decidable (_ ∧ _))

/-- Two patches replace different bits. -/
def Patch.Apart (x y : Patch) : Prop := ∀ k, ¬(x.Selects k ∧ y.Selects k)

/-- The word is read, and written with the bits replaced. -/
def Patch.apply (mem : Memory) (x : Patch) : Memory :=
  storeWord mem x.place
    ((x.value &&& x.mask) ||| ((mem.word x.place).toNat &&& (2 ^ 32 - 1 - x.mask)))

/-- Patches one after the other. -/
def applyAll (mem : Memory) (l : List Patch) : Memory := l.foldl Patch.apply mem

section Patches

variable {mem mem' : Memory} {x : Patch} {l l' : List Patch} {k : ℕ}

/-- The order of two patches does not matter for the bits they replace. -/
theorem Patch.Apart.symm {y : Patch} (h : x.Apart y) : y.Apart x := fun k hk => h k hk.symm

/-- The bits after a patch. -/
theorem Patch.memoryBit_apply (hmask : x.mask < 2 ^ 32) :
    memoryBit (x.apply mem) k = if x.Selects k then x.value.testBit (k - 8 * x.place)
      else memoryBit mem k := by
  rw [Patch.apply, memoryBit_storeWord]
  by_cases hword : 8 * x.place ≤ k ∧ k < 8 * x.place + 32
  · have hj : k - 8 * x.place < 32 := by omega
    rw [if_pos hword, Nat.testBit_or, Nat.testBit_and, Nat.testBit_and, testBit_word _ hj,
      show 2 ^ 32 - 1 - x.mask = 2 ^ 32 - (x.mask + 1) by omega, Nat.testBit_two_pow_sub_succ hmask,
          decide_eq_true hj,
      show 8 * x.place + (k - 8 * x.place) = k by omega]
    by_cases hbit : x.mask.testBit (k - 8 * x.place) = true
    · rw [if_pos ⟨hword.1, hword.2, hbit⟩, hbit]
      simp
    · rw [if_neg fun hselects => hbit hselects.2.2, Bool.eq_false_iff.mpr hbit]
      simp
  · rw [if_neg hword, if_neg fun hselects => hword ⟨hselects.1, hselects.2.1⟩]

/-- Bits that no patch selects are as before. -/
theorem applyAll_kept (hmasks : ∀ x ∈ l, x.mask < 2 ^ 32) (h : ∀ x ∈ l, ¬x.Selects k) :
    memoryBit (applyAll mem l) k = memoryBit mem k := by
  induction l generalizing mem with
  | nil => rfl
  | cons x l ih =>
    rw [List.forall_mem_cons] at hmasks h
    rw [applyAll, List.foldl_cons]
    refine (ih hmasks.2 h.2).trans ?_
    rw [Patch.memoryBit_apply hmasks.1, if_neg h.1]

/-- A bit that a patch selects is the one of its value, when the patches are apart. -/
theorem applyAll_selected (hmasks : ∀ x ∈ l, x.mask < 2 ^ 32) (hapart : l.Pairwise Patch.Apart)
    (hx : x ∈ l)
    (h : x.Selects k) : memoryBit (applyAll mem l) k = x.value.testBit (k - 8 * x.place) := by
  induction l generalizing mem with
  | nil => cases hx
  | cons y l ih =>
    rw [List.forall_mem_cons] at hmasks
    rw [List.pairwise_cons] at hapart
    rw [applyAll, List.foldl_cons]
    rcases List.mem_cons.mp hx with rfl | hx
    · refine (applyAll_kept hmasks.2 fun y hy hselects => hapart.1 y hy k ⟨h, hselects⟩).trans ?_
      rw [Patch.memoryBit_apply hmasks.1, if_pos h]
    · exact ih hmasks.2 hapart.2 hx

/-- Patches that are apart give the same bit in any order, from any memories with the same bit. -/
theorem applyAll_perm (hmasks : ∀ x ∈ l, x.mask < 2 ^ 32) (hapart : l.Pairwise Patch.Apart)
    (hperm : l'.Perm l) (hsame : memoryBit mem k = memoryBit mem' k) :
    memoryBit (applyAll mem l) k = memoryBit (applyAll mem' l') k := by
  have hmasks' : ∀ x ∈ l', x.mask < 2 ^ 32 := fun x hx => hmasks x (hperm.mem_iff.mp hx)
  have hapart' : l'.Pairwise Patch.Apart := hperm.symm.pairwise hapart Patch.Apart.symm
  by_cases hselected : ∃ x ∈ l, x.Selects k
  · obtain ⟨x, hx, hselects⟩ := hselected
    rw [applyAll_selected hmasks hapart hx hselects,
      applyAll_selected hmasks' hapart' (hperm.mem_iff.mpr hx) hselects]
  · have hnone : ∀ x ∈ l, ¬x.Selects k := fun x hx hselects => hselected ⟨x, hx, hselects⟩
    rw [applyAll_kept hmasks hnone,
      applyAll_kept hmasks' fun x hx => hnone x (hperm.mem_iff.mp hx), hsame]

end Patches

end WordPatch
