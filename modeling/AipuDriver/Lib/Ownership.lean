import Mathlib.Tactic.TypeStar

/-!
# Owners of keys

`Owned keys owns` says that each key has one owner and nothing else is owned.  A key may come with
its owner (`Owned.gain`), go with it (`Owned.drop`), or be passed on to another owner
(`Owned.pass`).
-/

namespace Ownership

variable {ω κ : Type*}

/-- Each key has one owner, and only keys have owners. -/
structure Owned (keys : κ → Prop) (owns : ω → κ → Prop) : Prop where
  key : ∀ w k, owns w k → keys k
  owner : ∀ k, keys k → ∃ w, owns w k
  unique : ∀ w w' k, owns w k → owns w' k → w = w'

variable {keys keys' : κ → Prop} {owns owns' : ω → κ → Prop}

/-- The keys and the owners stay the same. -/
theorem Owned.congr (h : Owned keys owns) (hkeys : ∀ k, keys' k ↔ keys k)
    (howns : ∀ w k, owns' w k ↔ owns w k) : Owned keys' owns' := by
  obtain rfl : keys' = keys := funext fun k => propext (hkeys k)
  obtain rfl : owns' = owns := funext fun w => funext fun k => propext (howns w k)
  exact h

/-- A new key comes with its owner. -/
theorem Owned.gain (h : Owned keys owns) (w₀ : ω) {k₀ : κ} (hnew : ¬keys k₀)
    (hkeys : ∀ k, keys' k ↔ k = k₀ ∨ keys k)
    (howns : ∀ w k, owns' w k ↔ (w = w₀ ∧ k = k₀) ∨ owns w k) : Owned keys' owns' := by
  constructor
  · intro w k hw
    rcases (howns w k).mp hw with ⟨-, rfl⟩ | hw
    · exact (hkeys k).mpr (.inl rfl)
    · exact (hkeys k).mpr (.inr (h.key w k hw))
  · intro k hk
    rcases (hkeys k).mp hk with rfl | hk
    · exact ⟨w₀, (howns w₀ k).mpr (.inl ⟨rfl, rfl⟩)⟩
    · obtain ⟨w, hw⟩ := h.owner k hk
      exact ⟨w, (howns w k).mpr (.inr hw)⟩
  · intro w w' k hw hw'
    rcases (howns w k).mp hw with ⟨rfl, rfl⟩ | hw <;>
      rcases (howns w' k).mp hw' with ⟨rfl, heq⟩ | hw'
    · rfl
    · exact absurd (h.key w' k hw') hnew
    · exact absurd (heq ▸ h.key w k hw) hnew
    · exact h.unique w w' k hw hw'

/-- A key goes with its owner. -/
theorem Owned.drop (h : Owned keys owns) {k₀ : κ} (hkeys : ∀ k, keys' k ↔ k ≠ k₀ ∧ keys k)
    (howns : ∀ w k, owns' w k ↔ k ≠ k₀ ∧ owns w k) : Owned keys' owns' := by
  constructor
  · intro w k hw
    obtain ⟨hne, hw⟩ := (howns w k).mp hw
    exact (hkeys k).mpr ⟨hne, h.key w k hw⟩
  · intro k hk
    obtain ⟨hne, hk⟩ := (hkeys k).mp hk
    obtain ⟨w, hw⟩ := h.owner k hk
    exact ⟨w, (howns w k).mpr ⟨hne, hw⟩⟩
  · intro w w' k hw hw'
    exact h.unique w w' k ((howns w k).mp hw).2 ((howns w' k).mp hw').2

/-- A key is passed on to another owner. -/
theorem Owned.pass (h : Owned keys owns) (w₀ : ω) {k₀ : κ} (hold : keys k₀)
    (howns : ∀ w k, owns' w k ↔ (w = w₀ ∧ k = k₀) ∨ (k ≠ k₀ ∧ owns w k)) : Owned keys owns' := by
  constructor
  · intro w k hw
    rcases (howns w k).mp hw with ⟨-, rfl⟩ | ⟨-, hw⟩
    · exact hold
    · exact h.key w k hw
  · intro k hk
    by_cases heq : k = k₀
    · exact ⟨w₀, (howns w₀ k).mpr (.inl ⟨rfl, heq⟩)⟩
    · obtain ⟨w, hw⟩ := h.owner k hk
      exact ⟨w, (howns w k).mpr (.inr ⟨heq, hw⟩)⟩
  · intro w w' k hw hw'
    rcases (howns w k).mp hw with ⟨rfl, rfl⟩ | ⟨hne, hw⟩ <;>
      rcases (howns w' k).mp hw' with ⟨rfl, heq⟩ | ⟨hne', hw'⟩
    · rfl
    · exact absurd rfl hne'
    · exact absurd heq hne
    · exact h.unique w w' k hw hw'

end Ownership
