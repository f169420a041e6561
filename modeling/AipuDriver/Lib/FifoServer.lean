import AipuDriver.Lib.Transition
import Mathlib.Data.List.Perm.Basic
import Mathlib.Data.List.Nodup

/-!
# A server with a waiting line

Jobs wait in the order in which they were submitted.  The server takes the first of them while it
runs fewer than `cap` jobs, and the job that it has run longest finishes first.  A job may be
withdrawn while it waits.

`ServerInv` says what the trace of a run tells about the state: the jobs that were started are
those that have finished and then the running ones, in order, and they were started in the order of
their submission.  Every submitted job waits, runs, has finished or was withdrawn, and when no job
is submitted twice it is in one of these places only (`ServerInv.nodup`).
-/

namespace FifoServer

open Transition
open scoped List

variable {α : Type*}

/-- The jobs that wait and the jobs that run, oldest first. -/
structure Server (α : Type*) where
  waiting : List α
  running : List α
deriving DecidableEq

inductive ServerAction (α : Type*)
  | submit (job : α)
  | start
  | finish
  | withdraw (job : α)

inductive ServerEvent (α : Type*)
  | submitted (job : α)
  | started (job : α)
  | finished (job : α)
  | withdrawn (job : α)
deriving DecidableEq

/-! ## Traces -/

def ServerEvent.submission : ServerEvent α → Option α
  | .submitted j => some j
  | _ => none

def ServerEvent.start : ServerEvent α → Option α
  | .started j => some j
  | _ => none

def ServerEvent.finish : ServerEvent α → Option α
  | .finished j => some j
  | _ => none

def ServerEvent.withdrawal : ServerEvent α → Option α
  | .withdrawn j => some j
  | _ => none

/-- The jobs submitted in a trace. -/
def submissions (tr : List (ServerEvent α)) : List α := tr.filterMap ServerEvent.submission

/-- The jobs started in a trace. -/
def starts (tr : List (ServerEvent α)) : List α := tr.filterMap ServerEvent.start

/-- The jobs finished in a trace. -/
def finishes (tr : List (ServerEvent α)) : List α := tr.filterMap ServerEvent.finish

/-- The jobs withdrawn in a trace. -/
def withdrawals (tr : List (ServerEvent α)) : List α := tr.filterMap ServerEvent.withdrawal

section Snoc

variable (tr : List (ServerEvent α)) (e : ServerEvent α)

@[simp] theorem submissions_snoc :
    submissions (tr ++ [e]) = submissions tr ++ e.submission.toList := by
  cases e <;> simp [submissions, ServerEvent.submission]

@[simp] theorem starts_snoc : starts (tr ++ [e]) = starts tr ++ e.start.toList := by
  cases e <;> simp [starts, ServerEvent.start]

@[simp] theorem finishes_snoc : finishes (tr ++ [e]) = finishes tr ++ e.finish.toList := by
  cases e <;> simp [finishes, ServerEvent.finish]

@[simp] theorem withdrawals_snoc :
    withdrawals (tr ++ [e]) = withdrawals tr ++ e.withdrawal.toList := by
  cases e <;> simp [withdrawals, ServerEvent.withdrawal]

end Snoc

/-! ## Steps -/

variable [DecidableEq α]

/-- One step of a server that runs at most `cap` jobs. -/
def serverStep (cap : ℕ) (s : Server α) :
    ServerAction α → Option (Server α × List (ServerEvent α))
  | .submit j => some ({ s with waiting := s.waiting ++ [j] }, [.submitted j])
  | .start =>
    match s.waiting with
    | [] => none
    | j :: rest =>
      if s.running.length < cap then some (⟨rest, s.running ++ [j]⟩, [.started j]) else none
  | .finish =>
    match s.running with
    | [] => none
    | j :: rest => some ({ s with running := rest }, [.finished j])
  | .withdraw j =>
    if j ∈ s.waiting then some ({ s with waiting := s.waiting.erase j }, [.withdrawn j]) else none

/-- The runs of a server, which starts with no job. -/
def serverSystem (α : Type*) [DecidableEq α] (cap : ℕ) :
    System (Server α) (ServerAction α) (ServerEvent α) where
  init s := s = ⟨[], []⟩
  step := serverStep cap

variable {cap : ℕ} {tr : List (ServerEvent α)} {s s' : Server α} {a : ServerAction α}
  {es : List (ServerEvent α)}

/-- A step submits, starts, finishes or withdraws a job. -/
theorem serverStep_cases (h : serverStep cap s a = some (s', es)) :
    (∃ j, s' = { s with waiting := s.waiting ++ [j] } ∧ es = [.submitted j]) ∨
      (∃ j rest, s.waiting = j :: rest ∧ s.running.length < cap ∧
        s' = ⟨rest, s.running ++ [j]⟩ ∧ es = [.started j]) ∨
      (∃ j rest, s.running = j :: rest ∧ s' = { s with running := rest } ∧ es = [.finished j]) ∨
      ∃ j ∈ s.waiting, s' = { s with waiting := s.waiting.erase j } ∧ es = [.withdrawn j] := by
  cases a with
  | submit j =>
    obtain ⟨rfl, rfl⟩ := Prod.mk.inj (Option.some.inj h)
    exact .inl ⟨j, rfl, rfl⟩
  | start =>
    simp only [serverStep] at h
    split at h
    case h_1 => cases h
    case h_2 j rest hwaiting =>
      split_ifs at h with hcap
      obtain ⟨rfl, rfl⟩ := Prod.mk.inj (Option.some.inj h)
      exact .inr (.inl ⟨j, rest, hwaiting, hcap, rfl, rfl⟩)
  | finish =>
    simp only [serverStep] at h
    split at h
    case h_1 => cases h
    case h_2 j rest hrunning =>
      obtain ⟨rfl, rfl⟩ := Prod.mk.inj (Option.some.inj h)
      exact .inr (.inr (.inl ⟨j, rest, hrunning, rfl, rfl⟩))
  | withdraw j =>
    simp only [serverStep] at h
    split_ifs at h with hmem
    obtain ⟨rfl, rfl⟩ := Prod.mk.inj (Option.some.inj h)
    exact .inr (.inr (.inr ⟨j, hmem, rfl, rfl⟩))

/-- Over steps from any state, the jobs that run and then those that are started are the jobs that
finish and then those that run in the end. -/
theorem steps_running {C : Server α → ServerAction α → Prop}
    (h : (serverSystem α cap).Steps C s tr s') :
    s.running ++ starts tr = finishes tr ++ s'.running := by
  induction h with
  | refl => simp [starts, finishes]
  | tail _ _ hst ih =>
    obtain ⟨j, rfl, rfl⟩ | ⟨j, rest, -, -, rfl, rfl⟩ | ⟨j, rest, hhead, rfl, rfl⟩ |
      ⟨j, -, rfl, rfl⟩ := serverStep_cases hst
    · simpa [ServerEvent.start, ServerEvent.finish] using ih
    · rw [starts_snoc, ← List.append_assoc, ih]
      simp [ServerEvent.start, ServerEvent.finish]
    · rw [hhead] at ih
      simpa [ServerEvent.start, ServerEvent.finish] using ih
    · simpa [ServerEvent.start, ServerEvent.finish] using ih

/-! ## The invariant -/

/-- What the trace of a run tells about the state that it reaches. -/
structure ServerInv (cap : ℕ) (tr : List (ServerEvent α)) (s : Server α) : Prop where
  /-- The jobs started, and then the waiting ones, are in the order of submission. -/
  order : (starts tr ++ s.waiting).Sublist (submissions tr)
  /-- The jobs started are the finished ones and then the running ones. -/
  running : starts tr = finishes tr ++ s.running
  /-- Every submitted job was started, waits or was withdrawn. -/
  partition : (submissions tr).Perm (starts tr ++ s.waiting ++ withdrawals tr)
  capacity : s.running.length ≤ cap

/-- Every step keeps the invariant. -/
theorem ServerInv.step (hI : ServerInv cap tr s) (h : serverStep cap s a = some (s', es)) :
    ServerInv cap (tr ++ es) s' := by
  obtain ⟨horder, hrunning, hpart, hcap⟩ := hI
  obtain ⟨j, rfl, rfl⟩ | ⟨j, rest, hwaiting, hroom, rfl, rfl⟩ | ⟨j, rest, hhead, rfl, rfl⟩ |
    ⟨j, hmem, rfl, rfl⟩ := serverStep_cases h
  · refine ⟨?_, ?_, ?_, hcap⟩
    · simpa [ServerEvent.start, ServerEvent.submission] using
        List.Sublist.append horder (List.Sublist.refl [j])
    · simpa [ServerEvent.start, ServerEvent.finish] using hrunning
    · simp only [submissions_snoc, starts_snoc, withdrawals_snoc, ServerEvent.submission,
        ServerEvent.start, ServerEvent.withdrawal, Option.toList, List.append_nil]
      calc submissions tr ++ [j]
          ~ (starts tr ++ s.waiting ++ withdrawals tr) ++ [j] := hpart.append_right _
        _ ~ starts tr ++ s.waiting ++ ([j] ++ withdrawals tr) := by
            rw [List.append_assoc]
            exact List.perm_append_comm.append_left _
        _ = starts tr ++ (s.waiting ++ [j]) ++ withdrawals tr := by
            simp only [List.append_assoc]
  · rw [hwaiting] at horder hpart
    refine ⟨?_, ?_, ?_, ?_⟩
    · simpa [ServerEvent.start, ServerEvent.submission] using horder
    · simp [ServerEvent.start, ServerEvent.finish, hrunning]
    · simpa [ServerEvent.start, ServerEvent.submission, ServerEvent.withdrawal] using hpart
    · rw [List.length_append, List.length_singleton]
      omega
  · rw [hhead] at hrunning hcap
    refine ⟨?_, ?_, ?_, ?_⟩
    · simpa [ServerEvent.start, ServerEvent.submission] using horder
    · simpa [ServerEvent.start, ServerEvent.finish] using hrunning
    · simpa [ServerEvent.start, ServerEvent.submission, ServerEvent.withdrawal] using hpart
    · rw [List.length_cons] at hcap
      dsimp only
      omega
  · refine ⟨?_, ?_, ?_, hcap⟩
    · have hsub := (List.Sublist.refl (starts tr)).append (List.erase_sublist (a := j)
        (l := s.waiting))
      simpa [ServerEvent.start, ServerEvent.submission] using hsub.trans horder
    · simpa [ServerEvent.start, ServerEvent.finish] using hrunning
    · simp only [submissions_snoc, starts_snoc, withdrawals_snoc, ServerEvent.submission,
        ServerEvent.start, ServerEvent.withdrawal, Option.toList, List.append_nil]
      calc submissions tr
          ~ starts tr ++ s.waiting ++ withdrawals tr := hpart
        _ ~ starts tr ++ (j :: s.waiting.erase j) ++ withdrawals tr :=
            ((List.perm_cons_erase hmem).append_left _).append_right _
        _ ~ starts tr ++ s.waiting.erase j ++ (withdrawals tr ++ [j]) := by
            simp only [List.append_assoc, List.cons_append]
            refine List.Perm.append_left _ ?_
            rw [← List.append_assoc]
            exact (List.perm_append_singleton j _).symm

/-- The invariant holds of every run. -/
theorem serverSystem_inv {C : Server α → ServerAction α → Prop}
    (h : (serverSystem α cap).Run C tr s) : ServerInv cap tr s := by
  refine h.invariant ?_ fun tr s a s' es hI _ hst => hI.step hst
  rintro s rfl
  exact ⟨.slnil, rfl, .nil, Nat.zero_le _⟩

omit [DecidableEq α] in
/-- When no job is submitted twice, it is in one place only. -/
theorem ServerInv.nodup (h : ServerInv cap tr s) (hnodup : (submissions tr).Nodup) :
    (finishes tr ++ s.running ++ s.waiting ++ withdrawals tr).Nodup := by
  rw [← h.running]
  exact h.partition.nodup_iff.mp hnodup

end FifoServer
