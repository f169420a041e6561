import Mathlib.Data.List.Basic

/-!
# Transition systems with an event log

A `System` has initial states and a partial step function that also emits a list of events.
`System.Run C tr s` says that `s` is reached from an initial state by steps that all meet the
step condition `C`, and that `tr` is the list of all events emitted on the way.

The rules of the module are the ones safety proofs use: `Run.invariant` (an invariant of the
trace and the state), `Run.mono` (weaken the step condition), `Run.map` (project the runs of one
system onto another one) and `run_of_exec` (a list of actions that executes gives a run).  A run may
go on from the state that it has reached: `Steps` are the steps from any state, and `Run.steps`
appends them.
-/

namespace Transition

variable {σ τ α β ε δ : Type*}

/-- A system: its initial states and its partial step function.  A step takes the state and an
action and returns the next state with the events it emits. -/
structure System (σ α ε : Type*) where
  /-- The initial states. -/
  init : σ → Prop
  /-- One step; `none` when the action is not enabled. -/
  step : σ → α → Option (σ × List ε)

/-- `S.Run C tr s`: the state `s` is reached from an initial state by steps that all meet the
condition `C`, and `tr` lists the events emitted, oldest first. -/
inductive System.Run (S : System σ α ε) (C : σ → α → Prop) : List ε → σ → Prop
  | start {s : σ} : S.init s → S.Run C [] s
  | next {tr : List ε} {s : σ} {a : α} {s' : σ} {es : List ε} :
      S.Run C tr s → C s a → S.step s a = some (s', es) → S.Run C (tr ++ es) s'

/-- The states reached by steps that all meet `C`. -/
def System.Reachable (S : System σ α ε) (C : σ → α → Prop) (s : σ) : Prop :=
  ∃ tr, S.Run C tr s

/-- The step condition that allows every step. -/
def anyStep : σ → α → Prop := fun _ _ => True

instance : DecidableRel (anyStep : σ → α → Prop) := fun _ _ => inferInstanceAs (Decidable True)

/-- The invariant rule: what holds initially and is kept by every step that meets `C` holds of
every run. -/
theorem System.Run.invariant {S : System σ α ε} {C : σ → α → Prop} {I : List ε → σ → Prop}
    (hinit : ∀ s, S.init s → I [] s)
    (hstep : ∀ tr s a s' es, I tr s → C s a → S.step s a = some (s', es) → I (tr ++ es) s')
    {tr : List ε} {s : σ} (h : S.Run C tr s) : I tr s := by
  induction h with
  | start hs => exact hinit _ hs
  | next _ hC hst ih => exact hstep _ _ _ _ _ ih hC hst

/-- The invariant rule for a property of the state alone. -/
theorem System.Run.stateInvariant {S : System σ α ε} {C : σ → α → Prop} {I : σ → Prop}
    (hinit : ∀ s, S.init s → I s)
    (hstep : ∀ s a s' es, I s → C s a → S.step s a = some (s', es) → I s')
    {tr : List ε} {s : σ} (h : S.Run C tr s) : I s :=
  h.invariant (I := fun _ s => I s) hinit fun _ _ _ _ _ hI hC hst => hstep _ _ _ _ hI hC hst

/-- A run under a condition is a run under any weaker one. -/
theorem System.Run.mono {S : System σ α ε} {C D : σ → α → Prop}
    (hCD : ∀ s a, C s a → D s a) {tr : List ε} {s : σ} (h : S.Run C tr s) : S.Run D tr s := by
  induction h with
  | start hs => exact .start hs
  | next _ hC hst ih => exact ih.next (hCD _ _ hC) hst

/-- Projection of runs: when every step of `S` is, under `f`, a step of `T` or no step at all, a
run of `S` projects to a run of `T`. -/
theorem System.Run.map {S : System σ α ε} {T : System τ β δ} {C : σ → α → Prop}
    {D : τ → β → Prop} (f : σ → τ) (g : ε → Option δ) (hinit : ∀ s, S.init s → T.init (f s))
    (hstep : ∀ s a s' es, C s a → S.step s a = some (s', es) →
      (f s' = f s ∧ es.filterMap g = []) ∨
        ∃ b, D (f s) b ∧ T.step (f s) b = some (f s', es.filterMap g))
    {tr : List ε} {s : σ} (h : S.Run C tr s) : T.Run D (tr.filterMap g) (f s) := by
  induction h with
  | start hs => exact .start (hinit _ hs)
  | next _ hC hst ih =>
    rw [List.filterMap_append]
    rcases hstep _ _ _ _ hC hst with ⟨hf, hg⟩ | ⟨b, hD, hb⟩
    · rw [hf, hg, List.append_nil]
      exact ih
    · exact ih.next hD hb

/-- `S.Steps C s tr s'`: steps that all meet the condition `C` lead from `s` to `s'`, and `tr` lists
the events emitted. -/
inductive System.Steps (S : System σ α ε) (C : σ → α → Prop) (s : σ) : List ε → σ → Prop
  | refl : S.Steps C s [] s
  | tail {tr : List ε} {s' : σ} {a : α} {s'' : σ} {es : List ε} :
      S.Steps C s tr s' → C s' a → S.step s' a = some (s'', es) → S.Steps C s (tr ++ es) s''

/-- Steps under a condition are steps under any weaker one. -/
theorem System.Steps.mono {S : System σ α ε} {C D : σ → α → Prop} (hCD : ∀ s a, C s a → D s a)
    {tr : List ε}
    {s s' : σ} (h : S.Steps C s tr s') : S.Steps D s tr s' := by
  induction h with
  | refl => exact .refl
  | tail _ hC hst ih => exact ih.tail (hCD _ _ hC) hst

/-- A run goes on. -/
theorem System.Run.steps {S : System σ α ε} {C : σ → α → Prop} {tr tr' : List ε} {s s' : σ}
    (h : S.Run C tr s) (h' : S.Steps C s tr' s') : S.Run C (tr ++ tr') s' := by
  induction h' with
  | refl => simpa using h
  | tail _ hC hst ih =>
    rw [← List.append_assoc]
    exact ih.next hC hst

/-- The invariant rule for the steps that continue a run: what holds where they start and is kept by
every step from a state that a run reaches holds where they end. -/
theorem System.Steps.invariant {S : System σ α ε} {C : σ → α → Prop} {I : List ε → σ → Prop}
    {tr tr' : List ε} {s s' : σ} (hrun : S.Run C tr s) (h : S.Steps C s tr' s') (hstart : I [] s)
    (hstep : ∀ tr₁ s₁ a s₂ es, S.Run C (tr ++ tr₁) s₁ → I tr₁ s₁ → C s₁ a →
      S.step s₁ a = some (s₂, es) → I (tr₁ ++ es) s₂) : I tr' s' := by
  induction h with
  | refl => exact hstart
  | tail hsteps hC hst ih => exact hstep _ _ _ _ _ (hrun.steps hsteps) ih hC hst

/-- Execute a list of actions, each of which must be enabled and meet `C`. -/
def System.exec (S : System σ α ε) (C : σ → α → Prop) [DecidableRel C] :
    σ → List α → Option (σ × List ε)
  | s, [] => some (s, [])
  | s, a :: as =>
    if C s a then
      match S.step s a with
      | none => none
      | some (s', es) =>
        match S.exec C s' as with
        | none => none
        | some (s'', es') => some (s'', es ++ es')
    else none

/-- A step and an execution after it. -/
theorem System.exec_cons {S : System σ α ε} {C : σ → α → Prop} [DecidableRel C] {a : α}
    {as : List α}
    {es es' : List ε} {s s' s'' : σ} (hC : C s a) (hstep : S.step s a = some (s', es))
    (hexec : S.exec C s' as = some (s'', es')) : S.exec C s (a :: as) = some (s'', es ++ es') := by
  rw [System.exec, if_pos hC, hstep]
  simp only [hexec]

/-- A list of actions that executes gives steps. -/
theorem System.steps_of_exec {S : System σ α ε} {C : σ → α → Prop} [DecidableRel C] {as : List α}
    {es : List ε} {s s' : σ} (he : S.exec C s as = some (s', es)) : S.Steps C s es s' := by
  have happend : ∀ {tr : List ε} {s₀ : σ}, S.Steps C s tr s₀ →
      S.exec C s₀ as = some (s', es) → S.Steps C s (tr ++ es) s' := by
    clear he
    induction as generalizing es with
    | nil =>
      intro tr s₀ h he
      obtain ⟨rfl, rfl⟩ : s₀ = s' ∧ [] = es := by simpa [System.exec] using he
      simpa using h
    | cons a as ih =>
      intro tr s₀ h he
      rw [System.exec] at he
      split at he
      · rename_i hC
        cases hst : S.step s₀ a with
        | none => simp [hst] at he
        | some r =>
          obtain ⟨s₁, es₁⟩ := r
          simp only [hst] at he
          cases hex : S.exec C s₁ as with
          | none => simp [hex] at he
          | some r₂ =>
            obtain ⟨s₂, es₂⟩ := r₂
            obtain ⟨rfl, rfl⟩ : s₂ = s' ∧ es₁ ++ es₂ = es := by simpa [hex] using he
            rw [← List.append_assoc]
            exact ih (h.tail hC hst) hex
      · cases he
  simpa using happend .refl he

/-- An execution extends a run by the events it emits. -/
theorem System.Run.exec {S : System σ α ε} {C : σ → α → Prop} [DecidableRel C] {as : List α}
    {tr es : List ε} {s s' : σ} (h : S.Run C tr s) (he : S.exec C s as = some (s', es)) :
    S.Run C (tr ++ es) s' := h.steps (System.steps_of_exec he)

/-- A list of actions that executes from an initial state gives a run. -/
theorem System.run_of_exec {S : System σ α ε} {C : σ → α → Prop} [DecidableRel C] {as : List α}
    {es : List ε} {s s' : σ} (hs : S.init s) (he : S.exec C s as = some (s', es)) :
    S.Run C es s' := by
  simpa using (System.Run.start hs).exec he

end Transition
