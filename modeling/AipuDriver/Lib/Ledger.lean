import Mathlib.Data.List.Perm.Basic

/-!
# Ledgers of resources

A ledger lists the resources that were handed out and not given back (`held`), and the releases of
resources that were not handed out at that moment (`misused`).  `Ledger.Holds` states what a ledger
contains up to order; the rules for acquiring and releasing say how it changes, so that an account
of a whole procedure is a chain of rules.
-/

namespace ResourceLedger

variable {ρ : Type*}

/-- What was handed out, and what was given back without being handed out. -/
structure Ledger (ρ : Type*) where
  held : List ρ
  misused : List ρ
deriving DecidableEq

/-- Exactly `rs` is handed out, in any order, and the releases `bad` went wrong. -/
structure Ledger.Holds (l : Ledger ρ) (rs bad : List ρ) : Prop where
  held : l.held.Perm rs
  misused : l.misused = bad

/-- Hand out a resource. -/
def Ledger.acquire (l : Ledger ρ) (r : ρ) : Ledger ρ := { l with held := r :: l.held }

/-- Hand out a resource when the answer is yes. -/
def Ledger.acquireIf (l : Ledger ρ) (ok : Bool) (r : ρ) : Ledger ρ :=
  if ok then l.acquire r else l

/-- The resource that an answer hands out. -/
def given (ok : Bool) (r : ρ) : List ρ := if ok then [r] else []

@[simp] theorem given_true (r : ρ) : given true r = [r] := rfl

@[simp] theorem given_false (r : ρ) : given false r = [] := rfl

section Acquire

variable {l : Ledger ρ} {rs rs' bad : List ρ}

theorem Ledger.Holds.perm (h : l.Holds rs bad) (hp : rs.Perm rs') : l.Holds rs' bad :=
  ⟨h.held.trans hp, h.misused⟩

theorem Ledger.Holds.acquire (h : l.Holds rs bad) (r : ρ) : (l.acquire r).Holds (r :: rs) bad :=
  ⟨h.held.cons r, h.misused⟩

theorem Ledger.Holds.acquireIf (h : l.Holds rs bad) (ok : Bool) (r : ρ) :
    (l.acquireIf ok r).Holds (given ok r ++ rs) bad := by
  cases ok with
  | false => exact h
  | true => exact h.acquire r

end Acquire

section Release

variable [DecidableEq ρ] {l : Ledger ρ} {rs rs' bad : List ρ}

/-- Give a resource back. -/
def Ledger.release (l : Ledger ρ) (r : ρ) : Ledger ρ :=
  if r ∈ l.held then { l with held := l.held.erase r } else { l with misused := r :: l.misused }

/-- Give resources back one after the other. -/
def Ledger.releaseAll (l : Ledger ρ) : List ρ → Ledger ρ
  | [] => l
  | r :: rs => (l.release r).releaseAll rs

/-- Give back all resources of a kind at once, as their owner does. -/
def Ledger.drop (l : Ledger ρ) (kind : ρ → Bool) : Ledger ρ :=
  { l with held := l.held.filter fun r => !kind r }

/-- A release of a resource that is handed out. -/
theorem Ledger.Holds.release {r : ρ} (h : l.Holds (r :: rs) bad) : (l.release r).Holds rs bad := by
  have hmem : r ∈ l.held := h.held.mem_iff.mpr List.mem_cons_self
  unfold Ledger.release
  rw [if_pos hmem]
  refine ⟨?_, h.misused⟩
  have := h.held.erase r
  rwa [List.erase_cons_head] at this

/-- A release of a resource that is not handed out. -/
theorem Ledger.Holds.misuse {r : ρ} (h : l.Holds rs bad) (hr : r ∉ rs) :
    (l.release r).Holds rs (r :: bad) := by
  have hmem : r ∉ l.held := fun hmem => hr (h.held.mem_iff.mp hmem)
  unfold Ledger.release
  rw [if_neg hmem]
  exact ⟨h.held, by simp [h.misused]⟩

/-- Releases of resources that are handed out. -/
theorem Ledger.Holds.releaseAll (h : l.Holds (rs ++ rs') bad) :
    (l.releaseAll rs).Holds rs' bad := by
  induction rs generalizing l with
  | nil => exact h
  | cons r rs ih => exact ih h.release

omit [DecidableEq ρ] in
/-- The resources of a kind are given back. -/
theorem Ledger.Holds.drop (h : l.Holds rs bad) (kind : ρ → Bool) :
    (l.drop kind).Holds (rs.filter fun r => !kind r) bad :=
  ⟨h.held.filter _, h.misused⟩

end Release

end ResourceLedger
