import Mathlib.Order.Bounds.Basic
import AipuDriver.Lib.Cursor

/-!
# Searching cells whose places lie in order

Each cell of a list offers a set of places, and the places of a cell lie before those of the cells
after it. A search from the front that takes the least place of the first cell with a place takes
the least of all (`findFirst_isLeast`); from the back, with greatest places, it takes the greatest
of all (`findLast_isGreatest`).  It fails only where no cell has a place.
-/

namespace ListSearch

variable {α β : Type*} {places : α → Set β} {f : α → Option β} {l : List α} {c : Cursor α}
  {b : β}

/-- The places that the cells of a list offer. -/
def placesOf (places : α → Set β) (l : List α) : Set β := {p | ∃ x ∈ l, p ∈ places x}

/-- The places of a cell lie before those of the cells after it. -/
def InOrder [LE β] (places : α → Set β) (l : List α) : Prop :=
  l.Pairwise fun x y => ∀ p ∈ places x, ∀ q ∈ places y, p ≤ q

/-- `f` answers with a place of the cell that is extreme in the sense of `ext`, when there is a
place. -/
structure Answers (ext : Set β → β → Prop) (places : α → Set β) (f : α → Option β)
    (x : α) : Prop where
  some : ∀ b, f x = some b → ext (places x) b
  none : f x = none → places x = ∅

/-- Cells without answers have no place. -/
theorem placesOf_eq_empty {ext : Set β → β → Prop} (hf : ∀ x ∈ l, Answers ext places f x)
    (hnone : ∀ x ∈ l, f x = none) : placesOf places l = ∅ := by
  refine Set.eq_empty_of_forall_notMem ?_
  rintro p ⟨x, hx, hp⟩
  rw [(hf x hx).none (hnone x hx)] at hp
  exact hp

/-- The search from the front fails only where there is no place. -/
theorem placesOf_of_findFirst {ext : Set β → β → Prop} (hf : ∀ x ∈ l, Answers ext places f x)
    (h : findFirst f l = none) : placesOf places l = ∅ :=
  placesOf_eq_empty hf (findFirst_eq_none.mp h)

/-- The search from the back fails only where there is no place. -/
theorem placesOf_of_findLast {ext : Set β → β → Prop} (hf : ∀ x ∈ l, Answers ext places f x)
    (h : findLast f l = none) : placesOf places l = ∅ :=
  placesOf_eq_empty hf fun x hx =>
    findFirst_eq_none.mp (Option.map_eq_none_iff.mp h) x (List.mem_reverse.mpr hx)

variable [Preorder β]

/-- The search from the front takes the least place, which is one of the cell where it stops. -/
theorem findFirst_isLeast (hord : InOrder places l) (hf : ∀ x ∈ l, Answers IsLeast places f x)
    (h : findFirst f l = some (c, b)) : b ∈ places c.entry ∧ IsLeast (placesOf places l) b := by
  obtain ⟨rfl, hb, hbefore⟩ := findFirst_eq_some h
  have hleast := (hf c.entry c.entry_mem).some b hb
  refine ⟨hleast.1, ⟨c.entry, c.entry_mem, hleast.1⟩, ?_⟩
  rintro p ⟨x, hx, hp⟩
  obtain ⟨-, hafter, -⟩ := List.pairwise_append.mp hord
  rcases Cursor.mem_toList.mp hx with hpre | rfl | hpost
  · rw [(hf x hx).none (hbefore x hpre)] at hp
    exact hp.elim
  · exact hleast.2 hp
  · exact (List.pairwise_cons.mp hafter).1 x hpost b hleast.1 p hp

/-- The search from the back takes the greatest place, which is one of the cell where it stops. -/
theorem findLast_isGreatest (hord : InOrder places l) (hf : ∀ x ∈ l, Answers IsGreatest places f x)
    (h : findLast f l = some (c, b)) : b ∈ places c.entry ∧ IsGreatest (placesOf places l) b := by
  obtain ⟨rfl, hb, hafter⟩ := findLast_eq_some h
  have hgreatest := (hf c.entry c.entry_mem).some b hb
  refine ⟨hgreatest.1, ⟨c.entry, c.entry_mem, hgreatest.1⟩, ?_⟩
  rintro p ⟨x, hx, hp⟩
  obtain ⟨-, -, hbefore⟩ := List.pairwise_append.mp hord
  rcases Cursor.mem_toList.mp hx with hpre | rfl | hpost
  · exact hbefore x hpre c.entry List.mem_cons_self p hp b hgreatest.1
  · exact hgreatest.2 hp
  · rw [(hf x hx).none (hafter x hpost)] at hp
    exact hp.elim

end ListSearch
