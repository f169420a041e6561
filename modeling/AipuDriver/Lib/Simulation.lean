import AipuDriver.Lib.Transition

/-!
# Forward simulations

A system `S` refines a system `T` when each of its steps is matched by steps of `T` that emit what
is left of its events.  `Simulation` packs the relation between the states, which may look at the
trace of `S`, with the two conditions on it; `Simulation.run` matches a whole run.

A map `e` that forgets part of the state is respected by a system (`System.Respects`) when states
with the same image step to states with the same image and emit the same events; no execution tells
two such states apart (`System.Respects.exec_eq`).
-/

namespace Transition

variable {σ τ α β ε δ : Type*}

section Steps

variable {S : System σ α ε} {C : σ → α → Prop} {tr tr' : List ε} {s s' s'' : σ}

/-- One step. -/
theorem System.Steps.one {a : α} (hC : C s a) (h : S.step s a = some (s', tr)) :
    S.Steps C s tr s' := System.Steps.refl.tail hC h

/-- Steps after steps. -/
theorem System.Steps.trans (h : S.Steps C s tr s') (h' : S.Steps C s' tr' s'') :
    S.Steps C s (tr ++ tr') s'' := by
  induction h' with
  | refl => simpa using h
  | tail _ hC hst ih =>
    rw [← List.append_assoc]
    exact ih.tail hC hst

end Steps

/-- A forward simulation: the steps of `S` that meet `C` are matched by steps of `T` that meet `D`,
and `g` is what is left of the events of `S`. -/
structure Simulation (S : System σ α ε) (T : System τ β δ) (C : σ → α → Prop) (D : τ → β → Prop)
    (g : ε → Option δ) where
  /-- The state of `T` that stands for a state of `S` after a trace. -/
  rel : List ε → σ → τ → Prop
  init : ∀ s, S.init s → ∃ t, T.init t ∧ rel [] s t
  step : ∀ tr s t a s' es, rel tr s t → C s a → S.step s a = some (s', es) →
    ∃ t', T.Steps D t (es.filterMap g) t' ∧ rel (tr ++ es) s' t'

/-- **Refinement.**  A run of `S` is matched by a run of `T` with the events that are left of it. -/
theorem Simulation.run {S : System σ α ε} {T : System τ β δ} {C : σ → α → Prop}
    {D : τ → β → Prop} {g : ε → Option δ} (sim : Simulation S T C D g) {tr : List ε} {s : σ}
    (h : S.Run C tr s) : ∃ t, T.Run D (tr.filterMap g) t ∧ sim.rel tr s t := by
  induction h with
  | start hs =>
    obtain ⟨t, ht, hrel⟩ := sim.init _ hs
    exact ⟨t, .start ht, hrel⟩
  | next _ hC hst ih =>
    obtain ⟨t, hrun, hrel⟩ := ih
    obtain ⟨t', hsteps, hrel'⟩ := sim.step _ _ _ _ _ _ hrel hC hst
    refine ⟨t', ?_, hrel'⟩
    rw [List.filterMap_append]
    exact hrun.steps hsteps

/-! ## Indistinguishable states -/

/-- Two optional values with the same image are both missing, or are values with the same image. -/
theorem image_eq_cases {f : σ → τ} {x y : Option σ} (h : x.map f = y.map f) :
    (x = none ∧ y = none) ∨ ∃ a b, x = some a ∧ y = some b ∧ f a = f b := by
  cases x with
  | none => exact .inl ⟨rfl, by simpa using h.symm⟩
  | some a =>
    rw [Option.map_some] at h
    obtain ⟨b, hb, heq⟩ := Option.map_eq_some_iff.mp h.symm
    exact .inr ⟨a, b, rfl, hb, heq.symm⟩

/-- States that `e` maps to the same value step, with the same events, to states that it maps to the
same value, or neither of them steps. -/
def System.Respects (S : System σ α ε) (e : σ → τ) : Prop :=
  ∀ s s' a, e s = e s' → (S.step s a).map (Prod.map e id) = (S.step s' a).map (Prod.map e id)

/-- **Indistinguishability.**  A list of actions executes from both of two such states, with the
same events and to such states again, or from neither. -/
theorem System.Respects.exec_eq {S : System σ α ε} {e : σ → τ} (h : S.Respects e) (as : List α)
    {s s' : σ} (hs : e s = e s') :
    (S.exec anyStep s as).map (Prod.map e id) = (S.exec anyStep s' as).map (Prod.map e id) := by
  induction as generalizing s s' with
  | nil => simp [System.exec, hs]
  | cons a as ih =>
    rw [System.exec, System.exec, if_pos (show anyStep s a from trivial),
      if_pos (show anyStep s' a from trivial)]
    rcases image_eq_cases (h s s' a hs) with ⟨hst, hst'⟩ | ⟨⟨t, es⟩, ⟨t', es'⟩, hst, hst', heq⟩
    · rw [hst, hst']
    obtain ⟨ht, rfl⟩ : e t = e t' ∧ es = es' := by simpa using heq
    rw [hst, hst']
    dsimp only
    rcases image_eq_cases (ih ht) with ⟨hex, hex'⟩ | ⟨⟨u, fs⟩, ⟨u', fs'⟩, hex, hex', heq⟩
    · rw [hex, hex']
    · obtain ⟨hu, rfl⟩ : e u = e u' ∧ fs = fs' := by simpa using heq
      simp [hex, hex', hu]

end Transition
