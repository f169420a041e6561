import AipuDriver.Lib.Transition

/-!
# Steps that come to an end

Steps that decrease a measure can be made only so often (`System.length_le_of_exec`).  If such a
step is enabled wherever the system is not done, any state leads to one where it is done
(`System.exists_exec_done`), whatever steps are chosen on the way.
-/

namespace Transition

variable {σ α ε : Type*} {S : System σ α ε} {C : σ → α → Prop} [DecidableRel C] {I : σ → Prop}
  {μ : σ → ℕ} {done : σ → Prop} {s s' : σ} {as : List α} {es : List ε}

/-- No execution of steps that decrease a measure is longer than the measure; an invariant of the
steps holds where it ends. -/
theorem System.length_le_of_exec
    (hstep : ∀ s a s' es, I s → C s a → S.step s a = some (s', es) → I s' ∧ μ s' < μ s)
    (hs : I s) (h : S.exec C s as = some (s', es)) : I s' ∧ as.length + μ s' ≤ μ s := by
  induction as generalizing s es with
  | nil =>
    obtain ⟨rfl, -⟩ := Prod.mk.inj (Option.some.inj h)
    exact ⟨hs, by simp⟩
  | cons a as ih =>
    rw [System.exec] at h
    split_ifs at h with hC
    cases hst : S.step s a with
    | none => simp [hst] at h
    | some r =>
      obtain ⟨s₁, es₁⟩ := r
      obtain ⟨hs₁, hlt⟩ := hstep s a s₁ es₁ hs hC hst
      cases hexec : S.exec C s₁ as with
      | none => simp [hst, hexec] at h
      | some r₂ =>
        obtain ⟨s₂, es₂⟩ := r₂
        simp only [hst, hexec, Option.some.injEq, Prod.mk.injEq] at h
        obtain ⟨rfl, -⟩ := h
        obtain ⟨hs₂, hle⟩ := ih hs₁ hexec
        refine ⟨hs₂, ?_⟩
        rw [List.length_cons]
        omega

/-- When a step is enabled in every state that is not done, there is an execution to one that is. -/
theorem System.exists_exec_done
    (hstep : ∀ s a s' es, I s → C s a → S.step s a = some (s', es) → I s' ∧ μ s' < μ s)
    (hprogress : ∀ s, I s → ¬done s → ∃ a, C s a ∧ (S.step s a).isSome) (hs : I s) :
    ∃ as s' es, S.exec C s as = some (s', es) ∧ I s' ∧ done s' := by
  -- the induction is on the measure, for all states
  generalize hn : μ s = n
  induction n using Nat.strongRecOn generalizing s with
  | ind n ih =>
    by_cases hdone : done s
    · exact ⟨[], s, [], rfl, hs, hdone⟩
    obtain ⟨a, hC, hsome⟩ := hprogress s hs hdone
    obtain ⟨⟨s₁, es₁⟩, hst⟩ := Option.isSome_iff_exists.mp hsome
    obtain ⟨hs₁, hlt⟩ := hstep s a s₁ es₁ hs hC hst
    obtain ⟨as, s', es, hexec, hs', hdone'⟩ := ih (μ s₁) (hn ▸ hlt) hs₁ rfl
    exact ⟨a :: as, s', es₁ ++ es, System.exec_cons hC hst hexec, hs', hdone'⟩

end Transition
