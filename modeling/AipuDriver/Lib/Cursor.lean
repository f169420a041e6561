import Mathlib.Data.List.Forall2

/-!
# Searching a list for a position

A `Cursor` is a position in a list: the entries before it, the entry itself and the entries after
it.  `findFirst f l` is the loop that runs over `l` from the front and stops at the first entry on
which `f` answers; `findLast f l` runs from the back; `seek p l` stops at the first entry that
satisfies `p`.  The specifications say that the cursor is a position of the list searched, that `f`
answers there, and that it did not answer on any entry passed before.  A test that is wrong on some
entries (`Judged`) makes a search wrong only where it meets one of them first
(`findFirst_right_iff`).
-/

namespace ListSearch

variable {α β : Type*}

/-- A position in a list. -/
structure Cursor (α : Type*) where
  /-- The entries before the position. -/
  before : List α
  /-- The entry at the position. -/
  entry : α
  /-- The entries after the position. -/
  after : List α

/-- The list of which the cursor is a position. -/
def Cursor.toList (c : Cursor α) : List α := c.before ++ c.entry :: c.after

/-- The first entry, from the front, on which `f` answers. -/
def findFirst (f : α → Option β) : List α → Option (Cursor α × β)
  | [] => none
  | x :: xs =>
    match f x with
    | some b => some (⟨[], x, xs⟩, b)
    | none => (findFirst f xs).map fun r => ({ r.1 with before := x :: r.1.before }, r.2)

/-- The first entry, from the back, on which `f` answers. -/
def findLast (f : α → Option β) (l : List α) : Option (Cursor α × β) :=
  (findFirst f l.reverse).map fun r => (⟨r.1.after.reverse, r.1.entry, r.1.before.reverse⟩, r.2)

/-- The first entry, from the front, that satisfies `p`. -/
def seek (p : α → Bool) (l : List α) : Option (Cursor α) :=
  (findFirst (fun x => if p x then some x else none) l).map Prod.fst

/-- A cursor found from the front is a position of the list, `f` answers there and at no entry
before it. -/
theorem findFirst_eq_some {f : α → Option β} {l : List α} {c : Cursor α} {b : β}
    (h : findFirst f l = some (c, b)) :
    l = c.toList ∧ f c.entry = some b ∧ ∀ x ∈ c.before, f x = none := by
  induction l generalizing c b with
  | nil => cases h
  | cons x xs ih =>
    rw [findFirst] at h
    cases hx : f x with
    | some b' =>
      obtain ⟨rfl, rfl⟩ : Cursor.mk [] x xs = c ∧ b' = b := by simpa [hx] using h
      exact ⟨rfl, hx, by simp⟩
    | none =>
      simp only [hx] at h
      obtain ⟨⟨c', b'⟩, hr, hc⟩ := Option.map_eq_some_iff.mp h
      obtain ⟨rfl, rfl⟩ := Prod.mk.injEq .. ▸ hc
      obtain ⟨hl, hf, hb⟩ := ih hr
      refine ⟨by rw [hl]; rfl, hf, ?_⟩
      intro y hy
      rcases List.mem_cons.mp hy with rfl | hy
      · exact hx
      · exact hb y hy

/-- The search from the front fails exactly when `f` answers nowhere. -/
theorem findFirst_eq_none {f : α → Option β} {l : List α} :
    findFirst f l = none ↔ ∀ x ∈ l, f x = none := by
  induction l with
  | nil => simp [findFirst]
  | cons x xs ih =>
    rw [findFirst]
    cases hx : f x <;> simp [hx, ih]

/-- A cursor found from the back is a position of the list, `f` answers there and at no entry
after it. -/
theorem findLast_eq_some {f : α → Option β} {l : List α} {c : Cursor α} {b : β}
    (h : findLast f l = some (c, b)) :
    l = c.toList ∧ f c.entry = some b ∧ ∀ x ∈ c.after, f x = none := by
  obtain ⟨⟨c', b'⟩, hr, hc⟩ := Option.map_eq_some_iff.mp h
  obtain ⟨rfl, rfl⟩ := Prod.mk.injEq .. ▸ hc
  obtain ⟨hl, hf, hb⟩ := findFirst_eq_some hr
  refine ⟨?_, hf, fun x hx => hb x (List.mem_reverse.mp hx)⟩
  rw [← List.reverse_reverse l, hl]
  simp [Cursor.toList]

/-- The cursor of a predicate search is the first position that satisfies it. -/
theorem seek_eq_some {p : α → Bool} {l : List α} {c : Cursor α} (h : seek p l = some c) :
    l = c.toList ∧ p c.entry = true ∧ ∀ x ∈ c.before, p x = false := by
  obtain ⟨⟨c', b⟩, hr, rfl⟩ := Option.map_eq_some_iff.mp h
  obtain ⟨hl, hf, hb⟩ := findFirst_eq_some hr
  refine ⟨hl, by simpa using (Option.ite_none_right_eq_some.mp hf).1, fun x hx => ?_⟩
  simpa using hb x hx

/-- A predicate search fails exactly when no entry satisfies the predicate. -/
theorem seek_eq_none {p : α → Bool} {l : List α} :
    seek p l = none ↔ ∀ x ∈ l, p x = false := by
  simp [seek, findFirst_eq_none]

/-- A predicate search succeeds when some entry satisfies the predicate. -/
theorem exists_seek {p : α → Bool} {l : List α} {x : α} (hx : x ∈ l) (hp : p x = true) :
    ∃ c, seek p l = some c := by
  cases h : seek p l with
  | some c => exact ⟨c, rfl⟩
  | none => simp [seek_eq_none.mp h x hx] at hp

/-- A predicate search stops at a position that satisfies the predicate when no position before it
does. -/
theorem seek_toList {p : α → Bool} {c : Cursor α} (hbefore : ∀ x ∈ c.before, p x = false)
    (hentry : p c.entry = true) : seek p c.toList = some c := by
  obtain ⟨before, entry, after⟩ := c
  induction before with
  | nil => simp [seek, findFirst, Cursor.toList, show p entry = true from hentry]
  | cons x before ih =>
    obtain ⟨hx, hrest⟩ := List.forall_mem_cons.mp hbefore
    obtain ⟨⟨d, b⟩, hfind, heq⟩ := Option.map_eq_some_iff.mp (ih hrest hentry)
    have hd : d = ⟨before, entry, after⟩ := heq
    have hfind : findFirst (fun x => if p x then some x else none) (before ++ entry :: after) =
        some (⟨before, entry, after⟩, b) := hd ▸ hfind
    simp [seek, findFirst, Cursor.toList, hx, hfind]

/-- The entry of a cursor belongs to its list. -/
theorem Cursor.entry_mem (c : Cursor α) : c.entry ∈ c.toList := by simp [Cursor.toList]

section Exact

variable {f : α → Option β} {P : α → β → Prop} {Good Bad : α → Prop}

/-- A test answers on the good entries, where its answer is right, and on the bad ones, where it is
wrong. -/
structure Judged (f : α → Option β) (P : α → β → Prop) (Good Bad : α → Prop) (x : α) : Prop where
  good : Good x → ∃ b, f x = some b ∧ P x b
  bad : Bad x → ∃ b, f x = some b ∧ ¬P x b
  answer : ∀ b, f x = some b → Good x ∨ Bad x

/-- A search that is right does not start at a bad entry. -/
theorem Judged.not_bad {x : α} {l : List α} (h : Judged f P Good Bad x)
    (hright : ∀ c b, findFirst f (x :: l) = some (c, b) → P c.entry b) : ¬Bad x := by
  intro hbad
  obtain ⟨b, hb, hwrong⟩ := h.bad hbad
  exact hwrong (hright ⟨[], x, l⟩ b (by rw [findFirst, hb]))

/-- A search that is right has stopped at a good entry before it comes to a bad one. -/
theorem exists_good_before {before after : List α} {x : α}
    (h : ∀ y ∈ before ++ x :: after, Judged f P Good Bad y)
    (hright : ∀ c b, findFirst f (before ++ x :: after) = some (c, b) → P c.entry b)
    (hbad : Bad x) :
    ∃ y ∈ before, Good y := by
  induction before with
  | nil => exact absurd hbad ((h x List.mem_cons_self).not_bad hright)
  | cons y before ih =>
    have hy := h y List.mem_cons_self
    cases htest : f y with
    | some b =>
      have hgood := (hy.answer b htest).resolve_right (hy.not_bad hright)
      exact ⟨y, List.mem_cons_self, hgood⟩
    | none =>
      obtain ⟨z, hz, hgood⟩ := ih (fun z hz => h z (List.mem_cons_of_mem _ hz)) fun c b hfind => by
        refine hright { c with before := y :: c.before } b ?_
        rw [List.cons_append, findFirst, htest, hfind]
        rfl
      exact ⟨z, List.mem_cons_of_mem _ hz, hgood⟩

/-- A search from the front is right, and misses no good entry, when a good entry comes before each
bad one. -/
theorem findFirst_right_iff {l : List α} (h : ∀ x ∈ l, Judged f P Good Bad x) :
    ((∀ c b, findFirst f l = some (c, b) → P c.entry b) ∧
      (findFirst f l = none → ∀ x ∈ l, ¬Good x)) ↔
      ∀ before x after, l = before ++ x :: after → Bad x → ∃ y ∈ before, Good y := by
  -- no good entry is without an answer
  have hmiss : ∀ x ∈ l, f x = none → ¬Good x := by
    intro x hx hnone hgood
    obtain ⟨b, hb, -⟩ := (h x hx).good hgood
    rw [hnone] at hb
    cases hb
  constructor
  · rintro ⟨hright, -⟩ before x after rfl hbad
    exact exists_good_before h hright hbad
  · intro hbefore
    refine ⟨fun c b hfind => ?_, fun hfind x hx => hmiss x hx (findFirst_eq_none.mp hfind x hx)⟩
    obtain ⟨rfl, hb, hpassed⟩ := findFirst_eq_some hfind
    have hentry := h c.entry c.entry_mem
    rcases hentry.answer b hb with hgood | hbad
    · obtain ⟨b', hb', hP⟩ := hentry.good hgood
      obtain rfl := Option.some.inj (hb.symm.trans hb')
      exact hP
    · obtain ⟨y, hy, hgood⟩ := hbefore c.before c.entry c.after rfl hbad
      exact absurd hgood (hmiss y (List.mem_append_left _ hy) (hpassed y hy))

/-- A search from the back looks at the entries in the other order. -/
theorem findLast_right_iff {l : List α} (h : ∀ x ∈ l, Judged f P Good Bad x) :
    ((∀ c b, findLast f l = some (c, b) → P c.entry b) ∧ (findLast f l = none → ∀ x ∈ l, ¬Good x)) ↔
      ∀ before x after, l.reverse = before ++ x :: after → Bad x → ∃ y ∈ before, Good y := by
  rw [← findFirst_right_iff fun x hx => h x (List.mem_reverse.mp hx), findLast,
    Option.map_eq_none_iff]
  refine and_congr ⟨fun hright c b hfind => ?_, fun hright c b hfind => ?_⟩ ?_
  · exact hright ⟨c.after.reverse, c.entry, c.before.reverse⟩ b (by rw [hfind, Option.map_some])
  · obtain ⟨⟨c', b'⟩, hfind', heq⟩ := Option.map_eq_some_iff.mp hfind
    obtain ⟨rfl, rfl⟩ := Prod.mk.inj heq
    exact hright c' b' hfind'
  · simp only [List.mem_reverse]

end Exact

/-- Membership in the list of a cursor. -/
theorem Cursor.mem_toList {c : Cursor α} {x : α} :
    x ∈ c.toList ↔ x ∈ c.before ∨ x = c.entry ∨ x ∈ c.after := by simp [Cursor.toList]

/-- A change of the entry tells the position, when it is one. -/
theorem Cursor.eq_of_set {c d : Cursor α} {f : α → α} (h : c.toList = d.toList)
    (hset : c.before ++ f c.entry :: c.after = d.before ++ f d.entry :: d.after)
    (hc : f c.entry ≠ c.entry) (hd : f d.entry ≠ d.entry) : c = d := by
  obtain ⟨before, x, after⟩ := c
  obtain ⟨before', y, after'⟩ := d
  unfold Cursor.toList at h
  dsimp only at h hset hc hd
  rcases List.append_eq_append_iff.mp h with ⟨l, rfl, hl⟩ | ⟨l, rfl, hl⟩
  · cases l with
    | nil =>
      obtain ⟨rfl, rfl⟩ := List.cons.inj hl
      simp
    | cons z l =>
      obtain ⟨rfl, -⟩ := List.cons.inj hl
      rw [List.append_assoc, List.append_cancel_left_eq] at hset
      exact absurd (List.cons.inj hset).1 hc
  · cases l with
    | nil =>
      obtain ⟨rfl, rfl⟩ := List.cons.inj hl
      simp
    | cons z l =>
      obtain ⟨rfl, -⟩ := List.cons.inj hl
      rw [List.append_assoc, List.append_cancel_left_eq] at hset
      exact absurd (List.cons.inj hset).1.symm hd

/-- Positions of two lists that are related entry by entry correspond. -/
theorem Cursor.transfer {R : α → β → Prop} {c : Cursor α} {l : List β}
    (h : List.Forall₂ R c.toList l) :
    ∃ d : Cursor β, l = d.toList ∧ List.Forall₂ R c.before d.before ∧ R c.entry d.entry ∧
      List.Forall₂ R c.after d.after := by
  obtain ⟨before, entry, after⟩ := c
  induction before generalizing l with
  | nil =>
    obtain ⟨y, after', hentry, hafter, rfl⟩ := List.forall₂_cons_left_iff.mp h
    exact ⟨⟨[], y, after'⟩, rfl, .nil, hentry, hafter⟩
  | cons x before ih =>
    obtain ⟨y, l', hx, hrest, rfl⟩ := List.forall₂_cons_left_iff.mp h
    obtain ⟨d, rfl, hbefore, hentry, hafter⟩ := ih hrest
    exact ⟨⟨y :: d.before, d.entry, d.after⟩, rfl, .cons hx hbefore, hentry, hafter⟩

/-! ## Searching the image of a list -/

section Image

variable {γ : Type*} (g : α → γ)

/-- The position in the image of the list. -/
def Cursor.map (c : Cursor α) : Cursor γ := ⟨c.before.map g, g c.entry, c.after.map g⟩

/-- A search in the image of a list is a search in the list. -/
theorem findFirst_map (f : γ → Option β) (l : List α) :
    findFirst f (l.map g) = (findFirst (fun x => f (g x)) l).map fun r => (r.1.map g, r.2) := by
  induction l with
  | nil => rfl
  | cons x xs ih =>
    rw [List.map_cons, findFirst, findFirst]
    cases f (g x) with
    | some b => rfl
    | none =>
      rw [ih]
      simp [Option.map_map, Function.comp_def, Cursor.map]

/-- A search from the back in the image of a list is one in the list. -/
theorem findLast_map (f : γ → Option β) (l : List α) :
    findLast f (l.map g) = (findLast (fun x => f (g x)) l).map fun r => (r.1.map g, r.2) := by
  rw [findLast, ← List.map_reverse, findFirst_map, findLast]
  simp [Option.map_map, Function.comp_def, Cursor.map]

/-- A predicate search in the image of a list is one in the list. -/
theorem seek_map (p : γ → Bool) (l : List α) :
    seek p (l.map g) = (seek (fun x => p (g x)) l).map (Cursor.map g) := by
  have hfirst : ∀ l : List α, (findFirst (fun y => if p y then some y else none) (l.map g)).map
      Prod.fst = ((findFirst (fun x => if p (g x) then some x else none) l).map Prod.fst).map
        (Cursor.map g) := by
    intro l
    induction l with
    | nil => rfl
    | cons x xs ih =>
      rw [List.map_cons, findFirst, findFirst]
      by_cases hx : p (g x) = true
      · simp [hx, Cursor.map]
      · simp only [hx, Option.map_map] at ih ⊢
        have := congrArg (Option.map fun c : Cursor γ => { c with before := g x :: c.before }) ih
        simpa [Option.map_map, Function.comp_def, Cursor.map] using this
  exact hfirst l

end Image

end ListSearch
