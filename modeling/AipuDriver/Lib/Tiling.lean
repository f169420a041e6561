import Mathlib.Algebra.GroupWithZero.Nat
import Mathlib.Data.List.Chain
import Mathlib.Data.List.Perm.Basic

/-!
# Tilings of an interval and their canonical form

A list of cells with a start `lo` and a length `len` tiles `[a, b)` when its cells are non-empty
and laid end to end from `a` to `b` (`Tiles`).  Cells carry a Boolean mark `free`; a tiling in
which no two neighbours are both free is determined by its marked-off (not free) cells alone: its
view as a list of triples is the *canonical form* `canonical a b occ` of the list `occ` of occupied
ranges, which fills every gap by one free cell (`Tiles.view_eq_canonical`).
-/

namespace Tiling

variable {α : Type*}

section Cells

variable (lo len : α → ℕ)

/-- `l` tiles `[a, b)`: its cells are non-empty and laid end to end from `a` to `b`. -/
def Tiles : ℕ → ℕ → List α → Prop
  | a, b, [] => a = b
  | a, b, x :: xs => lo x = a ∧ 0 < len x ∧ Tiles (a + len x) b xs

variable {lo len} {a b m : ℕ} {x y : α} {l l' pre post seg : List α}

@[simp] theorem tiles_nil : Tiles lo len a b [] ↔ a = b := Iff.rfl

@[simp] theorem tiles_cons :
    Tiles lo len a b (x :: l) ↔ lo x = a ∧ 0 < len x ∧ Tiles lo len (a + len x) b l := Iff.rfl

/-- A concatenation tiles an interval exactly when the two parts tile it up to a seam. -/
theorem tiles_append :
    Tiles lo len a b (l ++ l') ↔ ∃ m, Tiles lo len a m l ∧ Tiles lo len m b l' := by
  induction l generalizing a with
  | nil => simp
  | cons x xs ih =>
    simp only [List.cons_append, tiles_cons, ih]
    constructor
    · rintro ⟨hlo, hlen, m, h₁, h₂⟩
      exact ⟨m, ⟨hlo, hlen, h₁⟩, h₂⟩
    · rintro ⟨m, ⟨hlo, hlen, h₁⟩, h₂⟩
      exact ⟨hlo, hlen, m, h₁, h₂⟩

/-- A tiled interval ends where it starts or later. -/
theorem Tiles.le (h : Tiles lo len a b l) : a ≤ b := by
  induction l generalizing a with
  | nil => exact h.le
  | cons x xs ih => exact (Nat.le_add_right _ _).trans (ih h.2.2)

/-- Every cell of a tiling lies inside the interval. -/
theorem Tiles.bounds (h : Tiles lo len a b l) (hx : x ∈ l) : a ≤ lo x ∧ lo x + len x ≤ b := by
  induction l generalizing a with
  | nil => cases hx
  | cons y ys ih =>
    obtain ⟨hlo, hlen, hrest⟩ := h
    rcases List.mem_cons.mp hx with rfl | hx
    · exact ⟨hlo.ge, hlo ▸ hrest.le⟩
    · have := ih hrest hx
      omega

/-- Every cell of a tiling is non-empty. -/
theorem Tiles.len_pos (h : Tiles lo len a b l) (hx : x ∈ l) : 0 < len x := by
  induction l generalizing a with
  | nil => cases hx
  | cons y ys ih =>
    rcases List.mem_cons.mp hx with rfl | hx
    · exact h.2.1
    · exact ih h.2.2 hx

/-- The cells of a tiling come in order and do not overlap. -/
theorem Tiles.pairwise (h : Tiles lo len a b l) :
    l.Pairwise fun x y => lo x + len x ≤ lo y := by
  induction l generalizing a with
  | nil => exact List.Pairwise.nil
  | cons y ys ih =>
    refine List.Pairwise.cons (fun z hz => ?_) (ih h.2.2)
    rw [h.1]
    exact (h.2.2.bounds hz).1

/-- The lengths of the cells of a tiling add up to the length of the interval. -/
theorem Tiles.sum_len (h : Tiles lo len a b l) : a + (l.map len).sum = b := by
  induction l generalizing a with
  | nil => simpa using h
  | cons y ys ih =>
    rw [List.map_cons, List.sum_cons, ← Nat.add_assoc]
    exact ih h.2.2

/-- Two cells of a tiling that share a point are the same cell. -/
theorem Tiles.eq_of_overlap (h : Tiles lo len a b l) (hx : x ∈ l) (hy : y ∈ l)
    (hxy : lo x < lo y + len y) (hyx : lo y < lo x + len x) : x = y := by
  induction l generalizing a with
  | nil => cases hx
  | cons z zs ih =>
    have hrest := h.2.2
    rcases List.mem_cons.mp hx with rfl | hx'
    · rcases List.mem_cons.mp hy with rfl | hy'
      · rfl
      · have := (hrest.bounds hy').1
        have := h.1
        omega
    · rcases List.mem_cons.mp hy with rfl | hy'
      · have := (hrest.bounds hx').1
        have := h.1
        omega
      · exact ih hrest hx' hy'

/-- Replacing one cell by cells that tile it keeps the tiling. -/
theorem Tiles.splice (h : Tiles lo len a b (pre ++ x :: post))
    (hs : Tiles lo len (lo x) (lo x + len x) seg) : Tiles lo len a b (pre ++ seg ++ post) := by
  obtain ⟨m, h₁, rfl, -, h₂⟩ := tiles_append.mp h
  rw [List.append_assoc]
  exact tiles_append.mpr ⟨_, h₁, tiles_append.mpr ⟨_, hs, h₂⟩⟩

end Cells

section Canonical

variable (lo len : α → ℕ) (free : α → Bool)

/-- What a cell looks like from outside: its start, its length and its mark. -/
def view (x : α) : ℕ × ℕ × Bool := (lo x, len x, free x)

/-- The ranges of the cells that are not free, in order. -/
def occupied (l : List α) : List (ℕ × ℕ) :=
  (l.filter fun x => !free x).map fun x => (lo x, len x)

/-- No two neighbours are both free. -/
def NoFreePair (l : List α) : Prop := l.IsChain fun x y => ¬(free x = true ∧ free y = true)

/-- The list of triples that tiles `[a, b)` with the occupied ranges `occ` and one free cell in
each gap. -/
def canonical : ℕ → ℕ → List (ℕ × ℕ) → List (ℕ × ℕ × Bool)
  | a, b, [] => if a = b then [] else [(a, b - a, true)]
  | a, b, (p, n) :: occ =>
    (if a = p then [] else [(a, p - a, true)]) ++ (p, n, false) :: canonical (p + n) b occ

variable {lo len free} {a b : ℕ} {l l' : List α}

@[simp] theorem occupied_nil : occupied lo len free ([] : List α) = [] := rfl

theorem occupied_cons_free {x : α} (hx : free x = true) :
    occupied lo len free (x :: l) = occupied lo len free l := by
  simp [occupied, hx]

theorem occupied_cons_occ {x : α} (hx : free x = false) :
    occupied lo len free (x :: l) = (lo x, len x) :: occupied lo len free l := by
  simp [occupied, hx]

theorem occupied_append :
    occupied lo len free (l ++ l') = occupied lo len free l ++ occupied lo len free l' := by
  simp [occupied]

theorem mem_occupied {r : ℕ × ℕ} :
    r ∈ occupied lo len free l ↔ ∃ x ∈ l, free x = false ∧ (lo x, len x) = r := by
  simp [occupied, and_assoc]

/-- The total length of the free cells. -/
def freeLen (len : α → ℕ) (free : α → Bool) (l : List α) : ℕ := ((l.filter free).map len).sum

@[simp] theorem freeLen_cons {x : α} :
    freeLen len free (x :: l) = (if free x then len x else 0) + freeLen len free l := by
  cases hx : free x <;> simp [freeLen, hx]

/-- A free cell is no longer than all free cells. -/
theorem le_freeLen {x : α} (hx : x ∈ l) (hfree : free x = true) : len x ≤ freeLen len free l := by
  induction l with
  | nil => cases hx
  | cons y ys ih =>
    rw [freeLen_cons]
    rcases List.mem_cons.mp hx with rfl | hx
    · rw [if_pos hfree]
      exact Nat.le_add_right _ _
    · exact (ih hx).trans (Nat.le_add_left _ _)

/-- The free cells and the occupied ranges share the length of the cells out among them. -/
theorem freeLen_add_occupied :
    freeLen len free l + ((occupied lo len free l).map Prod.snd).sum = (l.map len).sum := by
  induction l with
  | nil => rfl
  | cons x xs ih =>
    cases hx : free x with
    | false =>
      rw [freeLen_cons, occupied_cons_occ hx, hx]
      simp only [List.map_cons, List.sum_cons, Bool.false_eq_true, if_false]
      omega
    | true =>
      rw [freeLen_cons, occupied_cons_free hx, hx]
      simp only [List.map_cons, List.sum_cons, if_true]
      omega

/-- In a tiling the free cells and the occupied ranges add up to the interval. -/
theorem Tiles.freeLen_add_occupied (h : Tiles lo len a b l) :
    a + freeLen len free l + ((occupied lo len free l).map Prod.snd).sum = b := by
  rw [Nat.add_assoc, Tiling.freeLen_add_occupied]
  exact h.sum_len

/-- Replacing a free cell by cells that tile it, without free neighbours among them, creates no
free neighbours. -/
theorem NoFreePair.splice {x : α} {pre post seg : List α} (h : NoFreePair free (pre ++ x :: post))
    (hx : free x = true) (hs : NoFreePair free seg) : NoFreePair free (pre ++ seg ++ post) := by
  obtain ⟨hpre, hxpost, hprex⟩ := List.isChain_append.mp h
  obtain ⟨hpost, hrest⟩ := List.isChain_cons.mp hxpost
  refine List.isChain_append.mpr ⟨List.isChain_append.mpr ⟨hpre, hs, ?_⟩, hrest, ?_⟩
  · intro y hy z _ hyz
    exact hprex y hy x rfl ⟨hyz.1, hx⟩
  · intro y _ z hz hyz
    exact hpost z hz ⟨hx, hyz.2⟩

/-- A list around a free cell has no free neighbours when its two sides have none and the cells
next to the free one are occupied. -/
theorem NoFreePair.around {x : α} {pre post : List α} (hpre : NoFreePair free pre)
    (hpost : NoFreePair free post) (hlast : ∀ y ∈ pre.getLast?, free y = false)
    (hhead : ∀ y ∈ post.head?, free y = false) : NoFreePair free (pre ++ x :: post) := by
  refine List.isChain_append.mpr ⟨hpre, List.isChain_cons.mpr ⟨?_, hpost⟩, ?_⟩
  · intro y hy hxy
    simp [hhead y hy] at hxy
  · intro y hy z _ hyz
    simp [hlast y hy] at hyz

/-- The view of a tiling without free neighbours is the canonical form of its occupied ranges. -/
theorem Tiles.view_eq_canonical (h : Tiles lo len a b l) (hc : NoFreePair free l) :
    l.map (view lo len free) = canonical a b (occupied lo len free l) := by
  induction l generalizing a with
  | nil => simp [canonical, tiles_nil.mp h]
  | cons x xs ih =>
    obtain ⟨rfl, hlen, hrest⟩ := h
    have ih := ih hrest (List.IsChain.tail hc)
    cases hx : free x with
    | false => simp [occupied_cons_occ hx, canonical, view, hx, ih]
    | true =>
      rw [occupied_cons_free hx, List.map_cons, ih]
      -- the cell after a free one is occupied, so the gap in front of it ends where it starts
      cases xs with
      | nil =>
        have hb : lo x + len x = b := by simpa using hrest
        have : b - lo x = len x := by omega
        simp [canonical, view, hx, hb, this, show lo x ≠ b by omega]
      | cons y ys =>
        have hy : free y = false := by
          have := (List.isChain_cons_cons.mp hc).1
          simpa [hx] using this
        have hlo : lo y = lo x + len x := hrest.1
        simp [occupied_cons_occ hy, canonical, view, hx, hlo, show len x ≠ 0 by omega]

/-- The occupied ranges of a tiling come in order of their starts. -/
theorem Tiles.occupied_pairwise (h : Tiles lo len a b l) :
    (occupied lo len free l).Pairwise fun r s => r.1 + r.2 ≤ s.1 ∧ 0 < r.2 := by
  refine List.pairwise_map.mpr (List.Pairwise.filter _ ?_)
  refine h.pairwise.imp_of_mem fun hx _ hle => ⟨hle, h.len_pos hx⟩

/-- The occupied ranges of a tiling are pairwise different. -/
theorem Tiles.occupied_nodup (h : Tiles lo len a b l) : (occupied lo len free l).Nodup :=
  h.occupied_pairwise.imp fun {r s} hrs heq => by
    obtain ⟨hle, hpos⟩ := hrs
    rw [heq] at hle hpos
    omega

/-- Two tilings with the same occupied ranges list them in the same order. -/
theorem Tiles.occupied_eq (h : Tiles lo len a b l) {a' b' : ℕ} (h' : Tiles lo len a' b' l')
    (hmem : ∀ r, r ∈ occupied lo len free l ↔ r ∈ occupied lo len free l') :
    occupied lo len free l = occupied lo len free l' := by
  have hperm : (occupied lo len free l).Perm (occupied lo len free l') :=
    (List.perm_ext_iff_of_nodup h.occupied_nodup h'.occupied_nodup).mpr hmem
  refine hperm.eq_of_pairwise ?_ h.occupied_pairwise h'.occupied_pairwise
  intro r s _ _ hrs hsr
  omega

/-- **Canonicity.**  Two tilings of one interval without free neighbours and with the same
occupied ranges have the same view. -/
theorem Tiles.view_eq_of_occupied (h : Tiles lo len a b l) (hc : NoFreePair free l)
    (h' : Tiles lo len a b l') (hc' : NoFreePair free l')
    (hmem : ∀ r, r ∈ occupied lo len free l ↔ r ∈ occupied lo len free l') :
    l.map (view lo len free) = l'.map (view lo len free) := by
  rw [h.view_eq_canonical hc, h'.view_eq_canonical hc', h.occupied_eq h' hmem]

end Canonical

end Tiling
