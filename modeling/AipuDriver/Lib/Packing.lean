import Mathlib.Data.List.Basic

/-!
# Ranges one after the other

A list of items with a start `lo` and a length `len` is packed into `[a, b)` when each item begins
where the one before it ends, or later (`Packed`).  Unlike a tiling a packing may have gaps and
empty items.  A counter that only moves on packs what it gives away.
-/

namespace Packing

variable {α : Type*}

section Ranges

variable (lo len : α → ℕ)

/-- The items lie in `[a, b)`, in order and apart from each other. -/
def Packed : ℕ → ℕ → List α → Prop
  | a, b, [] => a ≤ b
  | a, b, x :: xs => a ≤ lo x ∧ Packed (lo x + len x) b xs

variable {lo len} {a b m : ℕ} {x : α} {l l' : List α}

@[simp] theorem packed_nil : Packed lo len a b [] ↔ a ≤ b := Iff.rfl

@[simp] theorem packed_cons :
    Packed lo len a b (x :: l) ↔ a ≤ lo x ∧ Packed lo len (lo x + len x) b l := Iff.rfl

/-- The interval ends where it starts or later. -/
theorem Packed.le (h : Packed lo len a b l) : a ≤ b := by
  induction l generalizing a with
  | nil => exact h
  | cons x xs ih =>
    obtain ⟨hlo, hrest⟩ := packed_cons.mp h
    exact Nat.le_trans hlo (Nat.le_trans (Nat.le_add_right _ _) (ih hrest))

/-- Two packings with a common end. -/
theorem Packed.append (h : Packed lo len a m l) (h' : Packed lo len m b l') :
    Packed lo len a b (l ++ l') := by
  induction l generalizing a with
  | nil =>
    cases l' with
    | nil => exact Nat.le_trans h h'
    | cons x xs =>
      obtain ⟨hlo, hrest⟩ := packed_cons.mp h'
      exact packed_cons.mpr ⟨Nat.le_trans h hlo, hrest⟩
  | cons x xs ih =>
    obtain ⟨hlo, hrest⟩ := packed_cons.mp h
    exact packed_cons.mpr ⟨hlo, ih hrest⟩

/-- Every item lies in the interval. -/
theorem Packed.bounds (h : Packed lo len a b l) (hx : x ∈ l) : a ≤ lo x ∧ lo x + len x ≤ b := by
  induction l generalizing a with
  | nil => cases hx
  | cons y ys ih =>
    obtain ⟨hlo, hrest⟩ := packed_cons.mp h
    rcases List.mem_cons.mp hx with rfl | hx
    · exact ⟨hlo, hrest.le⟩
    · have := ih hrest hx
      omega

/-- The items come in order and do not overlap. -/
theorem Packed.pairwise (h : Packed lo len a b l) : l.Pairwise fun x y => lo x + len x ≤ lo y := by
  induction l generalizing a with
  | nil => exact List.Pairwise.nil
  | cons y ys ih => exact List.Pairwise.cons (fun z hz => (h.2.bounds hz).1) (ih h.2)

/-- Items with the same starts and lengths are packed in the same way. -/
theorem Packed.map {f : α → α} (hlo : ∀ x, lo (f x) = lo x) (hlen : ∀ x, len (f x) = len x)
    (h : Packed lo len a b l) : Packed lo len a b (l.map f) := by
  induction l generalizing a with
  | nil => exact h
  | cons x xs ih =>
    rw [List.map_cons, Packed, hlo, hlen]
    exact ⟨h.1, ih h.2⟩

end Ranges

end Packing
