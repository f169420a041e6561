import Mathlib.Algebra.Group.Nat.Defs
import Mathlib.Algebra.GroupWithZero.Nat
import Mathlib.Data.List.Basic
import Mathlib.Data.List.TakeWhile

/-!
# Readers of bytes with a cursor

A reader starts at a cursor, reads ranges of bytes one after another, and ends with a value or an
error.  It tells where it stops and which ranges it has read, also when it fails.

The readers here check each range against an upper bound before they read it.  What such a reader
does is described by the lengths of the ranges that it goes through when no check fails: `Walks x ub
e p lens a` says that `x`, started at `p`, goes through ranges of the lengths `lens`, reads those
that end below `ub`, and gives the value `a`, or the error `e` when a range does not.  The rules
compose such facts: `Walks.pure`, `Walks.load`, `Walks.bind` and `Walks.iterate`.
-/

namespace ByteReader

/-! ## Bytes and words -/

/-- The contents of an address space. -/
abbrev Memory := ℕ → UInt8

/-- The little-endian word of 32 bits at an address. -/
def Memory.word (mem : Memory) (p : ℕ) : UInt32 :=
  UInt32.ofNat ((mem p).toNat + 2 ^ 8 * (mem (p + 1)).toNat + 2 ^ 16 * (mem (p + 2)).toNat +
    2 ^ 24 * (mem (p + 3)).toNat)

/-- The four bytes of a word. -/
def wordBytes (w : UInt32) : List UInt8 :=
  [UInt8.ofNat w.toNat, UInt8.ofNat (w.toNat / 2 ^ 8), UInt8.ofNat (w.toNat / 2 ^ 16),
    UInt8.ofNat (w.toNat / 2 ^ 24)]

/-- The bytes are found at the address. -/
def Memory.Holds (mem : Memory) (p : ℕ) (bytes : List UInt8) : Prop :=
  ∀ i, (h : i < bytes.length) → mem (p + i) = bytes[i]

/-- The bytes of a list, and some other bytes elsewhere. -/
def Memory.ofBytes (p : ℕ) (bytes : List UInt8) : Memory := fun i => bytes.getD (i - p) 0

/-- A memory made of bytes holds them. -/
theorem Memory.ofBytes_holds (p : ℕ) (bytes : List UInt8) :
    (Memory.ofBytes p bytes).Holds p bytes := by
  intro i hi
  simp [Memory.ofBytes, List.getD_eq_getElem?_getD, List.getElem?_eq_getElem hi]

/-- Two lists of bytes, one behind the other. -/
theorem Memory.holds_append {mem : Memory} {p : ℕ} {xs ys : List UInt8} :
    mem.Holds p (xs ++ ys) ↔ mem.Holds p xs ∧ mem.Holds (p + xs.length) ys := by
  constructor
  · intro h
    constructor
    · intro i hi
      have := h i (by simp; omega)
      rwa [List.getElem_append_left hi] at this
    · intro i hi
      have := h (xs.length + i) (by simp; omega)
      rw [List.getElem_append_right (by omega)] at this
      simpa [Nat.add_assoc] using this
  · rintro ⟨hxs, hys⟩ i hi
    rw [List.getElem_append]
    split
    · exact hxs i ‹_›
    · rename_i hge
      rw [List.length_append] at hi
      have := hys (i - xs.length) (by omega)
      rwa [show p + xs.length + (i - xs.length) = p + i by omega] at this

/-- A word that is written is read. -/
theorem Memory.word_of_holds {mem : Memory} {p : ℕ} {w : UInt32} (h : mem.Holds p (wordBytes w)) :
    mem.word p = w := by
  have h0 := h 0 (by simp [wordBytes])
  have h1 := h 1 (by simp [wordBytes])
  have h2 := h 2 (by simp [wordBytes])
  have h3 := h 3 (by simp [wordBytes])
  simp only [wordBytes, List.getElem_cons_zero, List.getElem_cons_succ, Nat.add_zero] at h0 h1 h2 h3
  rw [Memory.word, h0, h1, h2, h3]
  simp only [UInt8.toNat_ofNat']
  have hlt := w.toNat_lt
  rw [← UInt32.toNat_inj, UInt32.toNat_ofNat']
  omega

/-- The number of bytes of words. -/
theorem length_flatMap_wordBytes (ws : List UInt32) :
    (ws.flatMap wordBytes).length = 4 * ws.length := by
  induction ws with
  | nil => rfl
  | cons w ws ih =>
    rw [List.flatMap_cons, List.length_append, ih]
    simp only [wordBytes, List.length_cons, List.length_nil]
    omega

/-! ## Readers -/

/-- What a reader does: its value or error, where it stops, and the ranges it has read, as address
and length. -/
structure Outcome (ε α : Type*) where
  value : Except ε α
  cursor : ℕ
  reads : List (ℕ × ℕ)

/-- A reader starts at a cursor. -/
def Reader (ε α : Type*) := ℕ → Outcome ε α

universe u v

variable {ε : Type v} {α β σ : Type u}

/-- The reader that reads nothing. -/
protected def Reader.pure (a : α) : Reader ε α := fun p => ⟨.ok a, p, []⟩

/-- The reader that fails. -/
def Reader.fail (e : ε) : Reader ε α := fun p => ⟨.error e, p, []⟩

/-- Two readers, one after the other. -/
protected def Reader.bind (x : Reader ε α) (f : α → Reader ε β) : Reader ε β := fun p =>
  match x p with
  | ⟨.error e, p', reads⟩ => ⟨.error e, p', reads⟩
  | ⟨.ok a, p', reads⟩ =>
    match f a p' with
    | ⟨b, p'', reads'⟩ => ⟨b, p'', reads ++ reads'⟩

instance : Monad (Reader ε) where
  pure := Reader.pure
  bind := Reader.bind

/-- Nothing is read before `f`. -/
protected theorem Reader.pure_bind (a : α) (f : α → Reader ε β) : Pure.pure a >>= f = f a := by
  funext p
  change Reader.bind (Reader.pure a) f p = f a p
  simp [Reader.bind, Reader.pure]

/-- Three readers, one after the other. -/
protected theorem Reader.bind_assoc (x : Reader ε α) (f : α → Reader ε β) (g : β → Reader ε σ) :
    x >>= f >>= g = x >>= fun a => f a >>= g := by
  funext p
  change (x.bind f).bind g p = x.bind (fun a => (f a).bind g) p
  unfold Reader.bind
  rcases x p with ⟨_ | a, p', reads⟩
  · rfl
  · dsimp only
    rcases f a p' with ⟨_ | b, p'', reads'⟩
    · rfl
    · simp

/-- Go to an address. -/
def Reader.seek (p : ℕ) : Reader ε PUnit := fun _ => ⟨.ok ⟨⟩, p, []⟩

/-- Read `n` bytes at the cursor. -/
def Reader.load (n : ℕ) (decode : ℕ → α) : Reader ε α := fun p => ⟨.ok (decode p), p + n, [(p, n)]⟩

/-- Read `n` bytes at the cursor if they pass a check. -/
def Reader.loadIf (valid : ℕ → ℕ → Bool) (e : ε) (n : ℕ) (decode : ℕ → α) : Reader ε α := fun p =>
  if valid p n then Reader.load n decode p else Reader.fail e p

/-- What follows a read that is not checked. -/
theorem Reader.seek_load_run (q n : ℕ) (decode : ℕ → α) (f : α → Reader ε β) (p : ℕ) :
    (Reader.seek q >>= fun _ => Reader.load n decode >>= f) p =
      ⟨(f (decode q) (q + n)).value, (f (decode q) (q + n)).cursor,
        (q, n) :: (f (decode q) (q + n)).reads⟩ := by
  change Reader.bind (Reader.seek q) (fun _ => Reader.bind (Reader.load n decode) f) p = _
  simp [Reader.bind, Reader.seek, Reader.load]

/-- Run `body` for `n` indices from `i` on. -/
def Reader.iterate (body : ℕ → σ → Reader ε σ) : ℕ → ℕ → σ → Reader ε σ
  | 0, _, s => pure s
  | n + 1, i, s => body i s >>= Reader.iterate body n (i + 1)

/-! ## Walks -/

/-- Ranges of the lengths `lens`, one behind the other from `p` on. -/
def spans : ℕ → List ℕ → List (ℕ × ℕ)
  | _, [] => []
  | p, n :: lens => (p, n) :: spans (p + n) lens

/-- A range ends below the bound. -/
def below (ub : ℕ) (r : ℕ × ℕ) : Bool := decide (r.1 + r.2 < ub)

/-- The ranges of two lists of lengths. -/
theorem spans_append (p : ℕ) (xs ys : List ℕ) :
    spans p (xs ++ ys) = spans p xs ++ spans (p + xs.sum) ys := by
  induction xs generalizing p with
  | nil => rfl
  | cons x xs ih => simp [spans, ih, Nat.add_assoc]

/-- Ranges start where the list starts, or later. -/
theorem le_of_mem_spans {p : ℕ} {lens : List ℕ} {r : ℕ × ℕ} (h : r ∈ spans p lens) :
    p ≤ r.1 ∧ r.1 + r.2 ≤ p + lens.sum := by
  induction lens generalizing p with
  | nil => cases h
  | cons n lens ih =>
    rw [spans, List.mem_cons] at h
    rw [List.sum_cons]
    rcases h with rfl | h
    · exact ⟨Nat.le_refl _, by omega⟩
    · have := ih h
      omega

/-- Ranges that start before a place end before it if the last one does. -/
theorem spans_end_le_iff {p e : ℕ} {lens : List ℕ} (hp : p ≤ e) :
    (∀ r ∈ spans p lens, r.1 + r.2 ≤ e) ↔ p + lens.sum ≤ e := by
  constructor
  · intro h
    induction lens generalizing p with
    | nil => exact hp
    | cons n lens ih =>
      rw [List.sum_cons, ← Nat.add_assoc]
      exact ih (h (p, n) List.mem_cons_self) fun r hr => h r (List.mem_cons_of_mem _ hr)
  · intro h r hr
    exact ((le_of_mem_spans hr).2).trans h

/-- The ranges up to the first one that does not end below the bound are those that do. -/
theorem mem_takeWhile_below {p ub : ℕ} {lens : List ℕ} {r : ℕ × ℕ} :
    r ∈ (spans p lens).takeWhile (below ub) ↔ r ∈ spans p lens ∧ r.1 + r.2 < ub := by
  induction lens generalizing p with
  | nil => simp [spans]
  | cons n lens ih =>
    rw [spans, List.takeWhile_cons, List.mem_cons]
    by_cases hlt : p + n < ub
    · rw [if_pos (by simpa [below] using hlt), List.mem_cons, ih]
      constructor
      · rintro (rfl | ⟨hr, hend⟩)
        · exact ⟨.inl rfl, hlt⟩
        · exact ⟨.inr hr, hend⟩
      · rintro ⟨rfl | hr, hend⟩
        · exact .inl rfl
        · exact .inr ⟨hr, hend⟩
    · rw [if_neg (by simpa [below] using hlt)]
      constructor
      · intro hr
        cases hr
      · rintro ⟨rfl | hr, hend⟩
        · exact absurd hend hlt
        · have := (le_of_mem_spans hr).1
          omega

/-- Nothing behind an element that fails the test is taken. -/
theorem takeWhile_append_of_stop {α : Type*} {t : α → Bool} {xs ys : List α} {r : α} (hr : r ∈ xs)
    (ht : t r = false) : (xs ++ ys).takeWhile t = xs.takeWhile t := by
  induction xs with
  | nil => cases hr
  | cons x xs ih =>
    rw [List.cons_append, List.takeWhile_cons, List.takeWhile_cons]
    rcases List.mem_cons.mp hr with rfl | hr
    · simp [ht]
    · rw [ih hr]

/-- The reader `x`, started at `p`, goes through ranges of the lengths `lens` and reads those that
end below `ub`; then it gives `a`, or the error `e` if it has left one out. -/
structure Walks (x : Reader ε α) (ub : ℕ) (e : ε) (p : ℕ) (lens : List ℕ) (a : α) : Prop where
  reads : (x p).reads = (spans p lens).takeWhile (below ub)
  passes : (∀ r ∈ spans p lens, below ub r = true) →
    (x p).value = .ok a ∧ (x p).cursor = p + lens.sum
  fails : (∃ r ∈ spans p lens, below ub r = false) → (x p).value = .error e

section Rules

variable {x : Reader ε α} {f : α → Reader ε β} {ub : ℕ} {e : ε} {p : ℕ} {a : α} {b : β}

/-- Reading nothing. -/
protected theorem Walks.pure : Walks (pure a) ub e p [] a where
  reads := rfl
  passes _ := ⟨rfl, rfl⟩
  fails := by simp [spans]

/-- Reading a checked range. -/
theorem Walks.loadIf {valid : ℕ → ℕ → Bool} {n : ℕ} {decode : ℕ → α}
    (hvalid : valid p n = decide (p + n < ub)) :
    Walks (Reader.loadIf valid e n decode) ub e p [n] (decode p) := by
  by_cases hlt : p + n < ub
  · refine ⟨?_, fun _ => ?_, fun h => ?_⟩
    · simp [Reader.loadIf, Reader.load, hvalid, hlt, spans, below]
    · simp [Reader.loadIf, Reader.load, hvalid, hlt]
    · simp [spans, below] at h
      omega
  · refine ⟨?_, fun h => ?_, fun _ => ?_⟩
    · simp [Reader.loadIf, Reader.fail, hvalid, hlt, spans, below]
    · simp [spans, below] at h
      omega
    · simp [Reader.loadIf, Reader.fail, hvalid, hlt]

/-- What follows a walk that reads all its ranges starts behind them. -/
theorem Walks.run_pass {xs : List ℕ} (hx : Walks x ub e p xs a)
    (hpass : ∀ r ∈ spans p xs, below ub r = true) :
    (x >>= f) p = ⟨(f a (p + xs.sum)).value, (f a (p + xs.sum)).cursor,
      spans p xs ++ (f a (p + xs.sum)).reads⟩ := by
  obtain ⟨hvalue, hcursor⟩ := hx.passes hpass
  have hreads := hx.reads
  rw [List.takeWhile_eq_self_iff.mpr hpass] at hreads
  change x.bind f p = _
  unfold Reader.bind
  rcases hxp : x p with ⟨value, cursor, reads⟩
  rw [hxp] at hvalue hcursor hreads
  dsimp only at hvalue hcursor hreads
  subst hvalue hcursor hreads
  rfl

/-- Nothing follows a walk that fails. -/
theorem Walks.run_fail {xs : List ℕ} (hx : Walks x ub e p xs a)
    (hfail : ∃ r ∈ spans p xs, below ub r = false) :
    ((x >>= f) p).value = .error e ∧
      ((x >>= f) p).reads = (spans p xs).takeWhile (below ub) := by
  have hvalue := hx.fails hfail
  have hreads := hx.reads
  change (x.bind f p).value = _ ∧ (x.bind f p).reads = _
  unfold Reader.bind
  rcases hxp : x p with ⟨value, cursor, reads⟩
  rw [hxp] at hvalue hreads
  dsimp only at hvalue hreads
  subst hvalue hreads
  exact ⟨rfl, rfl⟩

/-- Two walks, one after the other. -/
protected theorem Walks.bind {xs ys : List ℕ} (hx : Walks x ub e p xs a)
    (hf : Walks (f a) ub e (p + xs.sum) ys b) : Walks (x >>= f) ub e p (xs ++ ys) b := by
  by_cases hpass : ∀ r ∈ spans p xs, below ub r = true
  · have hrun := hx.run_pass (f := f) hpass
    refine ⟨?_, fun h => ?_, fun h => ?_⟩
    · rw [hrun, spans_append, List.takeWhile_append_of_pos hpass, ← hf.reads]
    · rw [hrun, List.sum_append, ← Nat.add_assoc]
      exact hf.passes fun r hr => h r (by rw [spans_append]; exact List.mem_append_right _ hr)
    · rw [hrun]
      refine hf.fails ?_
      obtain ⟨r, hr, hbelow⟩ := h
      rw [spans_append, List.mem_append] at hr
      rcases hr with hr | hr
      · simp [hpass r hr] at hbelow
      · exact ⟨r, hr, hbelow⟩
  · push Not at hpass
    obtain ⟨r, hr, hbelow⟩ := hpass
    have hbelow : below ub r = false := by simpa using hbelow
    obtain ⟨hvalue, hreads⟩ := hx.run_fail (f := f) ⟨r, hr, hbelow⟩
    refine ⟨?_, fun h => ?_, fun _ => hvalue⟩
    · rw [hreads, spans_append]
      exact (takeWhile_append_of_stop hr hbelow).symm
    · have := h r (by rw [spans_append]; exact List.mem_append_left _ hr)
      simp [hbelow] at this

end Rules

/-! ## Items in a row -/

/-- The `n` items that are found one behind the other from `p` on, where `item p` is the item at `p`
and `lens` gives the lengths of the ranges of an item. -/
def itemsAt (item : ℕ → β) (lens : β → List ℕ) : ℕ → ℕ → List β
  | 0, _ => []
  | n + 1, p => item p :: itemsAt item lens n (p + (lens (item p)).sum)

/-- The number of items. -/
theorem length_itemsAt (item : ℕ → β) (lens : β → List ℕ) (n p : ℕ) :
    (itemsAt item lens n p).length = n := by
  induction n generalizing p with
  | zero => rfl
  | succ n ih => simp [itemsAt, ih]

/-- A loop goes through items when its body does. -/
theorem Walks.iterate {body : ℕ → σ → Reader ε σ} {ub lb : ℕ} {e : ε} {item : ℕ → β}
    {lens : β → List ℕ} {step : ℕ → σ → β → σ}
    (hbody : ∀ i s p, lb ≤ p → Walks (body i s) ub e p (lens (item p)) (step i s (item p)))
    (n i : ℕ) (s : σ) {p : ℕ} (hp : lb ≤ p) :
    Walks (Reader.iterate body n i s) ub e p ((itemsAt item lens n p).flatMap lens)
      ((itemsAt item lens n p).foldlIdx step s i) := by
  induction n generalizing i s p with
  | zero => exact Walks.pure
  | succ n ih =>
    rw [itemsAt, List.flatMap_cons, List.foldlIdx_cons, Reader.iterate]
    exact (hbody i s p hp).bind (ih (i + 1) _ (Nat.le_add_right_of_le hp))

/-- A loop of reads that are not checked. -/
theorem Reader.iterate_load (n : ℕ) (decode : ℕ → β) (step : σ → β → σ) (m i : ℕ) (s : σ) (p : ℕ) :
    (Reader.iterate (fun _ s => Reader.load n decode >>= fun x => pure (step s x)) m i s :
        Reader ε σ) p =
      ⟨.ok ((itemsAt decode (fun _ => [n]) m p).foldl step s),
        p + ((itemsAt decode (fun _ => [n]) m p).map fun _ => n).sum,
        spans p ((itemsAt decode (fun _ => [n]) m p).map fun _ => n)⟩ := by
  induction m generalizing i s p with
  | zero => rfl
  | succ m ih =>
    have hnext : (Reader.iterate (fun _ s => Reader.load n decode >>= fun x => pure (step s x))
        (m + 1) i s : Reader ε σ) =
        Reader.load n decode >>= fun x =>
          Reader.iterate (fun _ s => Reader.load n decode >>= fun x => pure (step s x)) m (i + 1)
            (step s x) := by
      rw [Reader.iterate, Reader.bind_assoc]
      simp only [Reader.pure_bind]
    rw [hnext]
    change Reader.bind (Reader.load n decode) _ p = _
    simp only [Reader.bind, Reader.load, ih]
    simp [itemsAt, spans, Nat.add_assoc]

/-- Items that are written one behind the other are found. -/
theorem itemsAt_of_holds {mem : Memory} {item : ℕ → β} {lens : β → List ℕ}
    (encode : β → List UInt8) (hlen : ∀ x, (encode x).length = (lens x).sum) {xs : List β}
    (hitem : ∀ x ∈ xs, ∀ p, mem.Holds p (encode x) → item p = x) {p : ℕ}
    (h : mem.Holds p (xs.flatMap encode)) : itemsAt item lens xs.length p = xs := by
  induction xs generalizing p with
  | nil => rfl
  | cons x xs ih =>
    rw [List.flatMap_cons, Memory.holds_append, hlen] at h
    rw [List.length_cons, itemsAt, hitem x List.mem_cons_self p h.1]
    rw [ih (fun y hy => hitem y (List.mem_cons_of_mem _ hy)) h.2]

end ByteReader
