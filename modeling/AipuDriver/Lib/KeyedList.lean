import Mathlib.Data.List.Basic
import Mathlib.Data.List.Find
import Mathlib.Tactic.TypeStar

/-!
# Maps whose entries know their keys

A map is the list of its entries, each a key with a value.  The values often store the key once
more. When they do (`Keyed`), the keys carry no information, and the map can be read as the list of
what the values are projected to: `lookup_eq_find?`, `values_insert`, `values_erase` and
`values_adjust` say what the operations of the map do to that list.
-/

namespace KeyedList

variable {κ α β : Type*} [DecidableEq κ]

/-- The value under a key. -/
def lookup (m : List (κ × α)) (k : κ) : Option α := (m.find? fun e => e.1 = k).map Prod.snd

/-- The value is stored under the key, and another one under it is lost. -/
def insert (m : List (κ × α)) (k : κ) (a : α) : List (κ × α) := (k, a) :: m.filter fun e => e.1 ≠ k

/-- The entry with the key is removed. -/
def erase (m : List (κ × α)) (k : κ) : List (κ × α) := m.filter fun e => e.1 ≠ k

/-- The value under the key is changed. -/
def adjust (m : List (κ × α)) (k : κ) (f : α → α) : List (κ × α) :=
  m.map fun e => if e.1 = k then (e.1, f e.2) else e

/-- The projections of the values. -/
def values (proj : α → β) (m : List (κ × α)) : List β := m.map fun e => proj e.2

/-- The projection of each value stores its key. -/
def Keyed (key : β → κ) (proj : α → β) (m : List (κ × α)) : Prop := ∀ e ∈ m, key (proj e.2) = e.1

section Lookup

variable {m : List (κ × α)} {k k' : κ} {a : α} {f : α → α}

/-- A value that is found is the one of an entry. -/
theorem mem_of_lookup (h : lookup m k = some a) : (k, a) ∈ m := by
  obtain ⟨⟨k₁, a₁⟩, hfind, rfl⟩ := Option.map_eq_some_iff.mp h
  obtain rfl : k₁ = k := by simpa using List.find?_some hfind
  exact List.mem_of_find?_eq_some hfind

/-- Only keys of entries are found. -/
theorem isSome_lookup : (lookup m k).isSome ↔ k ∈ m.map Prod.fst := by
  simp [lookup]

/-- What is found after an insertion. -/
theorem lookup_insert : lookup (insert m k a) k' = if k' = k then some a else lookup m k' := by
  rw [lookup, insert, List.find?_cons]
  split
  next hk => rw [if_pos (of_decide_eq_true hk).symm, Option.map_some]
  next hk =>
    have hne : k' ≠ k := fun h => of_decide_eq_false hk h.symm
    rw [if_neg hne, List.find?_filter, lookup]
    congr 2
    funext e
    by_cases he : e.1 = k' <;> simp [he, hne]

/-- What is found after a removal. -/
theorem lookup_erase : lookup (erase m k) k' = if k' = k then none else lookup m k' := by
  rw [lookup, erase, List.find?_filter, lookup]
  split
  next hk => simp [hk]
  next hk =>
    congr 2
    funext e
    by_cases he : e.1 = k' <;> simp [he, hk]

/-- A new entry that is removed again leaves the map as it was. -/
theorem erase_insert (hk : k ∉ m.map Prod.fst) : erase (insert m k a) k = m := by
  rw [erase, insert, List.filter_cons_of_neg (by simp), List.filter_filter]
  refine List.filter_eq_self.mpr fun e he => ?_
  have hne : e.1 ≠ k := fun h => hk (h ▸ List.mem_map_of_mem he)
  simp [hne]

/-- What is found after a change. -/
theorem lookup_adjust :
    lookup (adjust m k f) k' = (lookup m k').map fun a => if k' = k then f a else a := by
  have hkeys : (fun e : κ × α => decide (e.1 = k')) ∘
      (fun e => if e.1 = k then (e.1, f e.2) else e) = fun e => decide (e.1 = k') := by
    funext e
    by_cases he : e.1 = k <;> simp [he]
  rw [lookup, adjust, List.find?_map, hkeys, lookup]
  cases hfind : m.find? fun e => e.1 = k' with
  | none => rfl
  | some e =>
    have he : e.1 = k' := by simpa using List.find?_some hfind
    by_cases hk : k' = k <;> simp [he, hk]

end Lookup

section Values

variable {key : β → κ} {proj : α → β} {m : List (κ × α)} {k : κ} {a : α} {f : α → α} {g : β → β}

/-- An insertion keeps the keys when the new value stores its own. -/
theorem Keyed.insert (h : Keyed key proj m) (ha : key (proj a) = k) :
    Keyed key proj (insert m k a) := by
  intro e he
  rcases List.mem_cons.mp he with rfl | he
  · exact ha
  · exact h e (List.mem_of_mem_filter he)

/-- A removal keeps the keys. -/
theorem Keyed.erase (h : Keyed key proj m) : Keyed key proj (erase m k) :=
  fun e he => h e (List.mem_of_mem_filter he)

/-- A change that does not touch the keys keeps them. -/
theorem Keyed.adjust (h : Keyed key proj m) (hf : ∀ a, key (proj (f a)) = key (proj a)) :
    Keyed key proj (adjust m k f) := by
  intro e he
  obtain ⟨e', he', rfl⟩ := List.mem_map.mp he
  split
  · rw [hf]
    exact h e' he'
  · exact h e' he'

/-- A value that is found stores the key under which it was found. -/
theorem Keyed.lookup (h : Keyed key proj m) (ha : lookup m k = some a) : key (proj a) = k :=
  h _ (mem_of_lookup ha)

/-- The search for a key among the projections of the values. -/
theorem lookup_eq_find? (h : Keyed key proj m) :
    (values proj m).find? (fun b => key b = k) = (lookup m k).map proj := by
  rw [values, List.find?_map, KeyedList.lookup, Option.map_map]
  have heq : m.find? ((fun b => decide (key b = k)) ∘ fun e => proj e.2) =
      m.find? fun e => decide (e.1 = k) := by
    refine List.find?_congr fun e he => ?_
    rw [Function.comp_apply, h e he]
  rw [heq]
  rfl

/-- The projections without those that store a key. -/
theorem values_erase (h : Keyed key proj m) :
    values proj (erase m k) = (values proj m).filter fun b => key b ≠ k := by
  rw [values, KeyedList.erase, values, List.filter_map]
  congr 1
  refine List.filter_congr fun e he => ?_
  rw [Function.comp_apply, h e he]

/-- The projections after an insertion. -/
theorem values_insert (h : Keyed key proj m) :
    values proj (insert m k a) = proj a :: (values proj m).filter fun b => key b ≠ k := by
  rw [← values_erase h]
  rfl

/-- The projections after a change. -/
theorem values_adjust (h : Keyed key proj m) (hf : ∀ a, proj (f a) = g (proj a)) :
    values proj (adjust m k f) = (values proj m).map fun b => if key b = k then g b else b := by
  rw [values, KeyedList.adjust, values, List.map_map, List.map_map]
  refine List.map_congr_left fun e he => ?_
  rw [Function.comp_apply, Function.comp_apply, h e he]
  by_cases hk : e.1 = k
  · rw [if_pos hk, if_pos hk, hf]
  · rw [if_neg hk, if_neg hk]

end Values

end KeyedList
