import Mathlib.Data.List.Nodup
import Mathlib.Data.List.Perm.Subperm
import Mathlib.Data.List.Range
import Mathlib.Data.Nat.ModEq

/-!
# The first number that is not used

Allocators of ids often try one number after another until one is free.  `firstUnused used m n c` is
such a search modulo `m`: it starts at `c` and looks at no more than `n` numbers.  It finds the
first number that is not used (`firstUnused_eq_some`), and it finds one when `n` is greater than the
number of ids in use (`exists_firstUnused`).
-/

namespace UnusedId

variable {used : ℕ → Bool} {m n c i : ℕ}

/-- The first number from the candidate on that is not used, among the next `n` numbers modulo
`m`. -/
def firstUnused (used : ℕ → Bool) (m : ℕ) : ℕ → ℕ → Option ℕ
  | 0, _ => none
  | n + 1, cand => if used cand then firstUnused used m n ((cand + 1) % m) else some cand

/-- What the search finds: all numbers before it are used. -/
theorem firstUnused_eq_some (hc : c < m) :
    firstUnused used m n c = some i ↔
      ∃ k < n, i = (c + k) % m ∧ used i = false ∧ ∀ l < k, used ((c + l) % m) = true := by
  induction n generalizing c with
  | zero => simp [firstUnused]
  | succ n ih =>
    have hstart : c % m = c := Nat.mod_eq_of_lt hc
    have hnext : ∀ k, ((c + 1) % m + k) % m = (c + (k + 1)) % m := by
      intro k
      rw [Nat.mod_add_mod]
      congr 1
      omega
    rw [firstUnused]
    by_cases hused : used c = true
    · rw [if_pos hused, ih (Nat.mod_lt _ (by omega))]
      constructor
      · rintro ⟨k, hk, hi, hfree, hbefore⟩
        refine ⟨k + 1, by omega, by rw [hi, hnext], hfree, fun l hl => ?_⟩
        cases l with
        | zero => rwa [Nat.add_zero, hstart]
        | succ l =>
          rw [← hnext]
          exact hbefore l (by omega)
      · rintro ⟨k, hk, hi, hfree, hbefore⟩
        cases k with
        | zero =>
          rw [Nat.add_zero, hstart] at hi
          rw [hi, hused] at hfree
          cases hfree
        | succ k =>
          refine ⟨k, by omega, by rw [hi, hnext], hfree, fun l hl => ?_⟩
          rw [hnext]
          exact hbefore (l + 1) (by omega)
    · have hfree : used c = false := by simpa using hused
      rw [if_neg hused]
      constructor
      · intro h
        obtain rfl := Option.some.inj h
        exact ⟨0, by omega, by simp [hstart], hfree, by simp⟩
      · rintro ⟨k, hk, hi, -, hbefore⟩
        cases k with
        | zero => rw [hi, Nat.add_zero, hstart]
        | succ k =>
          have := hbefore 0 (by omega)
          rw [Nat.add_zero, hstart, hfree] at this
          cases this

/-- What the search finds lies less than a round ahead. -/
theorem exists_lt_of_firstUnused (hc : c < m) (h : firstUnused used m n c = some i) :
    ∃ k < m, i = (c + k) % m ∧ used i = false ∧ ∀ l < k, used ((c + l) % m) = true := by
  obtain ⟨k, -, hi, hfree, hbefore⟩ := (firstUnused_eq_some hc).mp h
  refine ⟨k, ?_, hi, hfree, hbefore⟩
  by_contra hk
  have hround : (c + (k - m)) % m = i := by
    rw [hi, show c + k = c + (k - m) + m by omega, Nat.add_mod_right]
  have hused := hbefore (k - m) (by omega)
  rw [hround, hfree] at hused
  cases hused

/-- A number that is found is not used. -/
theorem not_used_of_firstUnused (hc : c < m) (h : firstUnused used m n c = some i) :
    used i = false := by
  obtain ⟨k, -, -, hfree, -⟩ := (firstUnused_eq_some hc).mp h
  exact hfree

/-- The search ends when a number that it looks at is not used. -/
theorem exists_firstUnused_of_free {k : ℕ} (hc : c < m) (hk : k < n)
    (hfree : used ((c + k) % m) = false) :
    ∃ i, firstUnused used m n c = some i := by
  by_contra hnone
  have hall : ∀ l < n, used ((c + l) % m) = true := by
    intro l
    induction l using Nat.strong_induction_on with
    | _ l ih =>
      intro hl
      by_contra hunused
      refine hnone
        ⟨(c + l) % m, (firstUnused_eq_some hc).mpr ⟨l, hl, rfl, by simpa using hunused, ?_⟩⟩
      exact fun l' hl' => ih l' hl' (by omega)
  have hused := hall k hk
  rw [hfree] at hused
  cases hused

/-- The search ends when it looks at more numbers than are used. -/
theorem exists_firstUnused {ids : List ℕ} (hids : ∀ i, used i = true → i ∈ ids)
    (hlen : ids.length < n) (hn : n ≤ m) (hc : c < m) : ∃ i, firstUnused used m n c = some i := by
  by_contra hnone
  have hall : ∀ k < n, used ((c + k) % m) = true := by
    intro k hk
    by_contra hfree
    exact hnone (exists_firstUnused_of_free hc hk (by simpa using hfree))
  -- more different numbers than ids in use
  have hnodup : ((List.range n).map fun k => (c + k) % m).Nodup := by
    refine List.Nodup.map_on (fun k hk l hl heq => ?_) List.nodup_range
    rw [List.mem_range] at hk hl
    have hkl : k ≡ l [MOD m] := Nat.ModEq.add_left_cancel' c heq
    exact hkl.eq_of_lt_of_lt (by omega) (by omega)
  have hsub : ((List.range n).map fun k => (c + k) % m) ⊆ ids := by
    intro i hi
    obtain ⟨k, hk, rfl⟩ := List.mem_map.mp hi
    exact hids _ (hall k (List.mem_range.mp hk))
  have hle := (List.subperm_of_subset hnodup hsub).length_le
  rw [List.length_map, List.length_range] at hle
  omega

end UnusedId
