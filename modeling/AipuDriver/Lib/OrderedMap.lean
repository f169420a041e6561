import Mathlib.Data.List.Basic
import Mathlib.Order.Lattice
import Mathlib.Tactic.TypeStar

/-!
# Maps that are walked in the order of their keys

An `OrderedMap` is the list of its entries with ascending keys, so that no key has two values.  The
entries are described by membership: `mem_insert` and `mem_erase` say which ones there are after an
operation.

`visited` lists the values that a walk reads when it ends at the first value with a property, and
`exists_visited` says when such a walk comes to a value of a given kind.
-/

/-- A map whose entries are sorted by their keys. -/
structure OrderedMap (κ ν : Type*) [LinearOrder κ] where
  entries : List (κ × ν)
  sorted : entries.Pairwise fun e f => e.1 < f.1

namespace OrderedMap

variable {κ ν : Type*} [LinearOrder κ]

/-- The map without entries. -/
def empty : OrderedMap κ ν := ⟨[], .nil⟩

instance : EmptyCollection (OrderedMap κ ν) := ⟨empty⟩

/-- The value under a key. -/
def lookup (m : OrderedMap κ ν) (k : κ) :
    Option ν := (m.entries.find? fun e => e.1 = k).map Prod.snd

/-- The value is stored under the key, in the place of another one under it. -/
def insert (m : OrderedMap κ ν) (k : κ) (v : ν) : OrderedMap κ ν where
  entries := (m.entries.filter fun e => e.1 < k) ++ (k, v) :: m.entries.filter fun e => k < e.1
  sorted := by
    refine List.pairwise_append.mpr
      ⟨m.sorted.filter _, List.pairwise_cons.mpr ⟨fun e he => ?_, m.sorted.filter _⟩,
      fun e he f hf => ?_⟩
    · simpa using (List.mem_filter.mp he).2
    · have hlt : e.1 < k := by simpa using (List.mem_filter.mp he).2
      rcases List.mem_cons.mp hf with rfl | hf
      · exact hlt
      · exact hlt.trans (by simpa using (List.mem_filter.mp hf).2)

/-- The entry with the key is removed. -/
def erase (m : OrderedMap κ ν) (k : κ) : OrderedMap κ ν where
  entries := m.entries.filter fun e => e.1 ≠ k
  sorted := m.sorted.filter _

variable {m : OrderedMap κ ν} {k : κ} {v : ν} {e : κ × ν}

/-- A value that is found is the one of an entry. -/
theorem mem_of_lookup (h : m.lookup k = some v) : (k, v) ∈ m.entries := by
  obtain ⟨⟨k₁, v₁⟩, hfind, rfl⟩ := Option.map_eq_some_iff.mp h
  obtain rfl : k₁ = k := by simpa using List.find?_some hfind
  exact List.mem_of_find?_eq_some hfind

/-- No key has two values. -/
theorem eq_of_mem {v' : ν} (h : (k, v) ∈ m.entries) (h' : (k, v') ∈ m.entries) : v = v' := by
  obtain ⟨es, hsorted⟩ := m
  induction es with
  | nil => cases h
  | cons e es ih =>
    obtain ⟨hlt, hsorted'⟩ := List.pairwise_cons.mp hsorted
    rcases List.mem_cons.mp h with rfl | hv <;> rcases List.mem_cons.mp h' with heq | hv'
    · exact (Prod.mk.inj heq).2.symm
    · exact absurd (hlt _ hv') (lt_irrefl k)
    · subst heq
      exact absurd (hlt _ hv) (lt_irrefl k)
    · exact ih hsorted' hv hv'

/-- The value under a key is the one of its entry. -/
theorem lookup_eq_some_iff : m.lookup k = some v ↔ (k, v) ∈ m.entries := by
  refine ⟨mem_of_lookup, fun h => ?_⟩
  cases hfind : m.lookup k with
  | some v' => rw [eq_of_mem h (mem_of_lookup hfind)]
  | none =>
    have hall := List.find?_eq_none.mp (Option.map_eq_none_iff.mp hfind) (k, v) h
    simp at hall

/-- A key without a value has no entry. -/
theorem lookup_eq_none_iff : m.lookup k = none ↔ ∀ v, (k, v) ∉ m.entries := by
  rw [← not_iff_not, ← ne_eq, Option.ne_none_iff_exists']
  simp [lookup_eq_some_iff]

/-- The entries after an insertion. -/
theorem mem_insert : e ∈ (m.insert k v).entries ↔ e = (k, v) ∨ e.1 ≠ k ∧ e ∈ m.entries := by
  simp only [insert, List.mem_append, List.mem_filter, List.mem_cons, decide_eq_true_eq]
  constructor
  · rintro (⟨he, hlt⟩ | rfl | ⟨he, hlt⟩)
    · exact .inr ⟨hlt.ne, he⟩
    · exact .inl rfl
    · exact .inr ⟨hlt.ne', he⟩
  · rintro (rfl | ⟨hne, he⟩)
    · exact .inr (.inl rfl)
    · rcases lt_or_gt_of_ne hne with hlt | hlt
      · exact .inl ⟨he, hlt⟩
      · exact .inr (.inr ⟨he, hlt⟩)

/-- The entries after a removal. -/
theorem mem_erase : e ∈ (m.erase k).entries ↔ e.1 ≠ k ∧ e ∈ m.entries := by
  simp [erase, and_comm]

/-! ## Walks -/

/-- The values that a walk over the entries reads; it ends at the first one with `stop`. -/
def visited (stop : ν → Bool) : List (κ × ν) → List ν
  | [] => []
  | e :: es => e.2 :: if stop e.2 then [] else visited stop es

/-- A walk that ends at the values with `p` and at others with `q` comes to one with `p` iff there
is one that has no other with `q` before it. -/
theorem exists_visited {p q : ν → Bool} : (∃ v ∈ visited (fun v => p v || q v) m.entries, p v) ↔
    ∃ e ∈ m.entries, p e.2 ∧ ∀ f ∈ m.entries, f.1 < e.1 → q f.2 → p f.2 := by
  obtain ⟨es, hsorted⟩ := m
  induction es with
  | nil => simp [visited]
  | cons e es ih =>
    obtain ⟨hlt, hsorted'⟩ := List.pairwise_cons.mp hsorted
    by_cases hp : p e.2
    · -- the first entry is read
      refine iff_of_true ⟨e.2, List.mem_cons_self, hp⟩
        ⟨e, List.mem_cons_self, hp, fun f hf hlt' _ => ?_⟩
      rcases List.mem_cons.mp hf with rfl | hf
      · exact hp
      · exact absurd hlt' (hlt f hf).not_gt
    by_cases hq : q e.2
    · refine iff_of_false (by simp [visited, hp, hq]) fun ⟨f, hf, hpf, hbefore⟩ => ?_
      rcases List.mem_cons.mp hf with rfl | hf
      · exact hp hpf
      · exact hp (hbefore e List.mem_cons_self (hlt f hf) hq)
    · have hcons : visited (fun v => p v || q v) (e :: es) =
          e.2 :: visited (fun v => p v || q v) es := by
        simp [visited, hp, hq]
      rw [hcons]
      simp only [List.mem_cons, exists_eq_or_imp, hp, false_and, false_or, forall_eq_or_imp, hq,
        Bool.false_eq_true, false_imp_iff, implies_true, true_and]
      exact ih hsorted'

end OrderedMap
