import AipuDriver.Lib.Ownership
import AipuDriver.Umd.ContextMap

/-!
# The lifetime of contexts

`get_ctx_ref` gives the pointer to a context away and the lock back, so that nothing in the map
keeps the context alive while a function uses it.  The application has to: it calls no function on a
handle object once `AIPU_deinit_ctx` was called on it, and calls `AIPU_deinit_ctx` when no other
call on it is in progress (`KeepsHandles`).  Then no context and no handle object is used after it
was deleted, whatever the threads do with other contexts, and each is deleted once.

Each entry of the map is owned: by the thread that is creating its context, or by a handle object
that is not being closed.  `CtxRefs.Inv` says that the owner is unique.
-/

namespace Aipu

open KeyedList OrderedMap Ownership Transition

/-! ## What a thread holds -/

/-- The handle that a call of `AIPU_init_ctx` has made. -/
def ApiCall.newRef : ApiCall → Option ℕ
  | .initCtx handle => some handle
  | _ => none

/-- The handle object on which the call was made. -/
def ApiCall.obj : ApiCall → Option ℕ
  | .initCtx _ => none
  | .deinitCtx obj | .function _ obj => some obj

/-- The handle object that the call is going to delete. -/
def ApiCall.deinits : ApiCall → Option ℕ
  | .deinitCtx obj => some obj
  | _ => none

@[inherit_doc ApiCall.newRef]
def ApiPc.newRef : ApiPc → Option ℕ
  | .getCtxRef handle | .destroyNew handle _ | .newHandle handle _ => some handle
  | .enter call _ _ | .inside call _ _ => call.newRef
  | _ => none

@[inherit_doc ApiCall.obj]
def ApiPc.obj : ApiPc → Option ℕ
  | .mmapFile obj _ | .destroyOld obj | .deleteHandle obj => some obj
  | .enter call _ _ | .inside call _ _ => call.obj
  | _ => none

@[inherit_doc ApiCall.deinits]
def ApiPc.deinits : ApiPc → Option ℕ
  | .destroyOld obj | .deleteHandle obj => some obj
  | .enter call _ _ | .inside call _ _ => call.deinits
  | _ => none

/-- A call uses the handle object that it is going to delete. -/
theorem ApiPc.obj_of_deinits {pc : ApiPc} {obj : ℕ} (h : pc.deinits = some obj) :
    pc.obj = some obj := by
  cases pc with
  | enter call | inside call => cases call <;> first | exact h | cases h
  | destroyOld | deleteHandle => exact h
  | _ => cases h

/-- The pointer to a context that the thread holds. -/
def ApiPc.ctx : ApiPc → Option ℕ
  | .mmapFile _ ctx | .enter _ _ ctx | .inside _ _ ctx | .newHandle _ ctx => some ctx
  | _ => none

/-- A thread is about to delete the handle object; its context is gone. -/
def Closing (threads : List (ℕ × ApiPc)) (obj : ℕ) : Prop :=
  ∃ tid, lookup threads tid = some (.deleteHandle obj)

/-- What keeps an entry of the map. -/
inductive RefOwner
  | thread (tid : ℕ)
  | object (obj : ℕ)

/-- The entry with the handle is kept by a thread that creates its context, or by a handle object
that is not being closed. -/
def RefOwner.Keeps (threads : List (ℕ × ApiPc)) (handles : List (ℕ × ℕ)) :
    RefOwner → ℕ → Prop
  | .thread tid, handle => (lookup threads tid).bind ApiPc.newRef = some handle
  | .object obj, handle => lookup handles obj = some handle ∧ ¬Closing threads obj

/-- What a thread holds exists, and is the context of its handle. -/
structure ApiPc.Refs (data : OrderedMap ℕ ℕ) (handles : List (ℕ × ℕ)) (pc : ApiPc) : Prop where
  new : ∀ handle ctx, pc.newRef = some handle → pc.ctx = some ctx → (handle, ctx) ∈ data.entries
  obj : ∀ obj, pc.obj = some obj → ∃ handle, lookup handles obj = some handle ∧
    ∀ ctx, pc.ctx = some ctx → (handle, ctx) ∈ data.entries

/-- While a call is closing a handle object, no other call uses it. -/
def Exclusive (threads : List (ℕ × ApiPc)) : Prop :=
  ∀ tid tid' pc pc' obj, lookup threads tid = some pc → lookup threads tid' = some pc' →
    pc.deinits = some obj → pc'.obj = some obj → tid = tid'

/-- The handle is in the map. -/
def Listed (data : OrderedMap ℕ ℕ) (handle : ℕ) : Prop := ∃ ctx, (handle, ctx) ∈ data.entries

/-- Each entry of the map has one owner, and the threads hold what exists. -/
structure CtxRefs.Inv (s : CtxRefs) : Prop where
  alive : ∀ ctx, ctx ∈ s.contexts ↔ ∃ handle, (handle, ctx) ∈ s.data.entries
  values : ∀ handle handle' ctx, (handle, ctx) ∈ s.data.entries →
    (handle', ctx) ∈ s.data.entries → handle = handle'
  nodup : s.contexts.Nodup
  ctxLt : ∀ ctx ∈ s.contexts, ctx < s.nextContext
  objLt : ∀ obj handle, lookup s.handles obj = some handle → obj < s.nextObj
  refs : ∀ tid pc, lookup s.threads tid = some pc → pc.Refs s.data s.handles
  exclusive : Exclusive s.threads
  owned : Owned (Listed s.data) (RefOwner.Keeps s.threads s.handles)

/-- The application uses a handle object only while it exists and no call is closing it, and closes
it when no other call uses it; and the process ends when no call is in progress. -/
def KeepsHandles (s : CtxRefs) : ApiAction → Prop
  | .deinitCtx _ (some obj) _ =>
    (lookup s.handles obj).isSome ∧ ∀ e ∈ s.threads, e.2.obj ≠ some obj
  | .callFunction _ _ (some obj) _ _ =>
    (lookup s.handles obj).isSome ∧ ∀ e ∈ s.threads, e.2.deinits ≠ some obj
  | .exit => s.threads = []
  | _ => True

instance : DecidableRel KeepsHandles := fun s a => by
  unfold KeepsHandles
  split <;> infer_instance

/-! ## One thread moves -/

/-- The thread goes on, or its call begins or returns; the others stay where they are. -/
def Moved (threads threads' : List (ℕ × ApiPc)) (tid : ℕ) (new : Option ApiPc) : Prop :=
  ∀ tid', lookup threads' tid' = if tid' = tid then new else lookup threads tid'

section Moves

variable {threads threads' : List (ℕ × ApiPc)} {handles : List (ℕ × ℕ)} {data : OrderedMap ℕ ℕ}
  {tid tid' obj handle ctx : ℕ} {pc pc' : ApiPc} {new : Option ApiPc}

theorem moved_insert : Moved threads (insert threads tid pc) tid (some pc) := fun _ => lookup_insert

theorem moved_erase : Moved threads (erase threads tid) tid none := fun _ => lookup_erase

/-- A thread that was not deleting a handle object moves. -/
theorem Moved.closing (h : Moved threads threads' tid new)
    (hold : ∀ obj, lookup threads tid ≠ some (.deleteHandle obj)) :
    Closing threads' obj ↔ new = some (.deleteHandle obj) ∨ Closing threads obj := by
  constructor
  · rintro ⟨tid', ht⟩
    rw [h] at ht
    split at ht
    · exact .inl ht
    · exact .inr ⟨tid', ht⟩
  · rintro (ht | ⟨tid', ht⟩)
    · exact ⟨tid, by rw [h, if_pos rfl, ht]⟩
    · refine ⟨tid', ?_⟩
      rw [h, if_neg]
      · exact ht
      · rintro rfl
        exact hold obj ht

/-- The other threads keep what they kept. -/
theorem Moved.keeps_thread (h : Moved threads threads' tid new) :
    (RefOwner.thread tid').Keeps threads' handles handle ↔
      (if tid' = tid then new else lookup threads tid').bind ApiPc.newRef = some handle := by
  rw [RefOwner.Keeps, h]

/-- The calls stay exclusive when the new call does not meet another one. -/
theorem Moved.exclusive (h : Moved threads threads' tid new) (hex : Exclusive threads)
    (hnew : ∀ pc tid' pc' obj, new = some pc → tid' ≠ tid → lookup threads tid' = some pc' →
      (pc.deinits = some obj → pc'.obj ≠ some obj) ∧
        (pc'.deinits = some obj → pc.obj ≠ some obj)) : Exclusive threads' := by
  intro t t' p p' obj hp hp' hd ho
  rw [h] at hp hp'
  by_cases ht : t = tid <;> by_cases ht' : t' = tid
  · rw [ht, ht']
  · rw [if_pos ht] at hp
    rw [if_neg ht'] at hp'
    exact absurd ho ((hnew p t' p' obj hp ht' hp').1 hd)
  · rw [if_neg ht] at hp
    rw [if_pos ht'] at hp'
    exact absurd ho ((hnew p' t p obj hp' ht hp).2 hd)
  · rw [if_neg ht] at hp
    rw [if_neg ht'] at hp'
    exact hex t t' p p' obj hp hp' hd ho

/-- A call that uses no other handle object than before meets no other one. -/
theorem Exclusive.apart (hex : Exclusive threads) (hpc : lookup threads tid = some pc)
    (hobj : ∀ obj, pc'.obj = some obj → pc.obj = some obj)
    (hdeinits : ∀ obj, pc'.deinits = some obj → pc.deinits = some obj)
    {p : ApiPc} (hne : tid' ≠ tid) (hp : lookup threads tid' = some p) :
    (pc'.deinits = some obj → p.obj ≠ some obj) ∧ (p.deinits = some obj → pc'.obj ≠ some obj) := by
  constructor
  · intro hd ho
    exact hne (hex tid tid' pc p obj hpc hp (hdeinits obj hd) ho).symm
  · intro hd ho
    exact hne (hex tid' tid p pc obj hp hpc hd (hobj obj ho))

/-- A handle object that a thread uses is not being closed, unless the thread itself deletes it. -/
theorem Exclusive.not_closing (hex : Exclusive threads) (hpc : lookup threads tid = some pc)
    (hobj : pc.obj = some obj) (hne : pc ≠ .deleteHandle obj) : ¬Closing threads obj := by
  rintro ⟨tid', ht⟩
  obtain rfl := hex tid' tid _ pc obj ht hpc rfl hobj
  exact hne (Option.some.inj (hpc.symm.trans ht))

end Moves

section Invariant

variable {s s' : CtxRefs} {tid obj handle ctx : ℕ} {pc pc' : ApiPc} {es : List ApiEvent}

/-- What keeps the entry to which a pointer of a thread belongs. -/
theorem CtxRefs.Inv.owner_of_ctx (h : s.Inv) (hpc : lookup s.threads tid = some pc)
    (hctx : pc.ctx = some ctx) : ∃ handle, (handle, ctx) ∈ s.data.entries ∧
      ((RefOwner.thread tid).Keeps s.threads s.handles handle ∨
        ∃ obj, pc.obj = some obj ∧ lookup s.handles obj = some handle ∧
          (RefOwner.object obj).Keeps s.threads s.handles handle) := by
  have hrefs := h.refs tid pc hpc
  have hcase : (∃ handle, pc.newRef = some handle) ∨
      ∃ obj, pc.obj = some obj ∧ pc ≠ .deleteHandle obj := by
    cases pc with
    | enter call | inside call =>
      cases call <;> simp [ApiPc.newRef, ApiPc.obj, ApiCall.newRef, ApiCall.obj]
    | mmapFile | newHandle => simp [ApiPc.newRef, ApiPc.obj]
    | _ => cases hctx
  rcases hcase with ⟨handle, hnew⟩ | ⟨obj, hobj, hne⟩
  · exact ⟨handle, hrefs.new handle ctx hnew hctx, .inl (by rw [RefOwner.Keeps, hpc]; exact hnew)⟩
  · obtain ⟨handle, hlookup, hmem⟩ := hrefs.obj obj hobj
    exact ⟨handle, hmem ctx hctx, .inr ⟨obj, hobj, hlookup, hlookup,
      h.exclusive.not_closing hpc hobj hne⟩⟩

/-- The thread goes on at `new`, or its call begins or returns: it keeps what it kept, holds what
exists, and meets no other call. -/
structure CtxRefs.Local (s : CtxRefs) (tid : ℕ) (new : Option ApiPc) : Prop where
  newRef : new.bind ApiPc.newRef = (lookup s.threads tid).bind ApiPc.newRef
  refs : ∀ pc, new = some pc → pc.Refs s.data s.handles
  apart : ∀ pc tid' pc' obj, new = some pc → tid' ≠ tid → lookup s.threads tid' = some pc' →
    (pc.deinits = some obj → pc'.obj ≠ some obj) ∧ (pc'.deinits = some obj → pc.obj ≠ some obj)
  notDeleting : ∀ obj, lookup s.threads tid ≠ some (.deleteHandle obj)
  notDeletes : ∀ obj, new ≠ some (.deleteHandle obj)

/-- A thread moves, and nothing else changes. -/
theorem CtxRefs.Inv.moved {threads : List (ℕ × ApiPc)} {new : Option ApiPc} (h : s.Inv)
    (hmoved : Moved s.threads threads tid new) (hlocal : s.Local tid new) :
    CtxRefs.Inv { s with threads := threads } := by
  refine ⟨h.alive, h.values, h.nodup, h.ctxLt, h.objLt, ?_,
    hmoved.exclusive h.exclusive hlocal.apart, ?_⟩
  · intro tid' pc' hpc'
    rw [hmoved] at hpc'
    split at hpc'
    · exact hlocal.refs pc' hpc'
    · exact h.refs tid' pc' hpc'
  · refine h.owned.congr (fun _ => Iff.rfl) fun owner handle => ?_
    cases owner with
    | thread tid' =>
      rw [hmoved.keeps_thread]
      split
      next heq => rw [hlocal.newRef, heq, RefOwner.Keeps]
      next => rfl
    | object obj => simp [RefOwner.Keeps, hmoved.closing hlocal.notDeleting, hlocal.notDeletes]

/-- `create_ctx_ref` under a new handle, in a thread that is in no call, keeps the invariant. -/
theorem CtxRefs.Inv.create (h : s.Inv) (hfree : s.data.lookup handle = none)
    (hidle : lookup s.threads tid = none) :
    ((s.createCtxRef handle).1.goto tid (.getCtxRef handle)).Inv := by
  have hnew : ∀ ctx, (handle, ctx) ∉ s.data.entries := lookup_eq_none_iff.mp hfree
  have hmem : ∀ {e : ℕ × ℕ}, e ∈ (s.data.insert handle s.nextContext).entries ↔
      e = (handle, s.nextContext) ∨ e ∈ s.data.entries := by
    intro e
    rw [mem_insert]
    refine or_congr_right ⟨And.right, fun he => ⟨?_, he⟩⟩
    rintro rfl
    exact hnew e.2 he
  have hfresh : ∀ handle', (handle', s.nextContext) ∉ s.data.entries := fun handle' he =>
    absurd (h.ctxLt _ ((h.alive _).mpr ⟨handle', he⟩)) (Nat.lt_irrefl _)
  have hmoved : Moved s.threads (insert s.threads tid (.getCtxRef handle)) tid
      (some (.getCtxRef handle)) := moved_insert
  change CtxRefs.Inv { s with
    data := s.data.insert handle s.nextContext
    contexts := s.nextContext :: s.contexts
    nextContext := s.nextContext + 1
    threads := insert s.threads tid (.getCtxRef handle) }
  refine ⟨?_, ?_, ?_, ?_, h.objLt, ?_, ?_, ?_⟩
  · intro ctx
    simp only [List.mem_cons, hmem, h.alive, Prod.mk.injEq]
    constructor
    · rintro (rfl | ⟨handle', he⟩)
      · exact ⟨handle, .inl ⟨rfl, rfl⟩⟩
      · exact ⟨handle', .inr he⟩
    · rintro ⟨handle', ⟨-, rfl⟩ | he⟩
      · exact .inl rfl
      · exact .inr ⟨handle', he⟩
  · intro handle₁ handle₂ ctx he he'
    rcases hmem.mp he with heq | he <;> rcases hmem.mp he' with heq' | he'
    · exact (Prod.mk.inj heq).1.trans (Prod.mk.inj heq').1.symm
    · exact absurd ((Prod.mk.inj heq).2 ▸ he') (hfresh handle₂)
    · exact absurd ((Prod.mk.inj heq').2 ▸ he) (hfresh handle₁)
    · exact h.values handle₁ handle₂ ctx he he'
  · refine List.nodup_cons.mpr ⟨fun hctx => ?_, h.nodup⟩
    exact Nat.lt_irrefl _ (h.ctxLt _ hctx)
  · intro ctx hctx
    rcases List.mem_cons.mp hctx with rfl | hctx
    · exact Nat.lt_succ_self _
    · exact Nat.lt_succ_of_lt (h.ctxLt ctx hctx)
  · intro tid' pc' hpc'
    rw [hmoved] at hpc'
    split at hpc'
    · obtain rfl := Option.some.inj hpc'
      exact ⟨fun _ _ _ hctx => (by cases hctx), fun _ hobj => (by cases hobj)⟩
    · obtain ⟨hnew', hobj⟩ := h.refs tid' pc' hpc'
      refine ⟨fun handle' ctx hn hc => hmem.mpr (.inr (hnew' handle' ctx hn hc)), fun obj ho => ?_⟩
      obtain ⟨handle', hlookup, hctx⟩ := hobj obj ho
      exact ⟨handle', hlookup, fun ctx hc => hmem.mpr (.inr (hctx ctx hc))⟩
  · refine hmoved.exclusive h.exclusive fun pc tid' pc' obj hpc _ _ => ?_
    obtain rfl := Option.some.inj hpc
    exact ⟨fun hd => (by cases hd), fun _ ho => (by cases ho)⟩
  · have hunlisted : ¬Listed s.data handle := not_exists.mpr hnew
    refine h.owned.gain (.thread tid) hunlisted ?_ ?_
    · intro handle'
      simp only [Listed, hmem, Prod.mk.injEq]
      constructor
      · rintro ⟨ctx, ⟨rfl, -⟩ | he⟩
        · exact .inl rfl
        · exact .inr ⟨ctx, he⟩
      · rintro (rfl | ⟨ctx, he⟩)
        · exact ⟨s.nextContext, .inl ⟨rfl, rfl⟩⟩
        · exact ⟨ctx, .inr he⟩
    · rintro (tid' | obj) handle'
      · rw [hmoved.keeps_thread]
        split
        next heq => simp [RefOwner.Keeps, heq, hidle, ApiPc.newRef, eq_comm]
        next hne => simp [RefOwner.Keeps, hne]
      · simp [RefOwner.Keeps, hmoved.closing (fun _ => by simp [hidle])]

/-- A context is deleted, and the thread that has deleted it moves: what other threads hold is not
concerned. -/
theorem CtxRefs.Inv.destroy {threads : List (ℕ × ApiPc)} {new : Option ApiPc} (h : s.Inv)
    (hctx : s.data.lookup handle = some ctx) (hmoved : Moved s.threads threads tid new)
    {owner : RefOwner} (howner : owner.Keeps s.threads s.handles handle)
    (hthread : ∀ tid', owner = .thread tid' → tid' = tid)
    (hobject : ∀ obj, owner = .object obj → ∃ pc, lookup s.threads tid = some pc ∧
      pc.deinits = some obj)
    (hrefs : ∀ pc, new = some pc → pc.Refs (s.data.erase handle) s.handles)
    (hexcl : Exclusive threads)
    (hkeeps : ∀ (owner : RefOwner) handle', owner.Keeps threads s.handles handle' ↔
      handle' ≠ handle ∧ owner.Keeps s.threads s.handles handle') :
    CtxRefs.Inv { s with
      data := s.data.erase handle
      contexts := s.contexts.filter (· ≠ ctx)
      threads := threads } := by
  have hmem : (handle, ctx) ∈ s.data.entries := lookup_eq_some_iff.mp hctx
  refine ⟨?_, ?_, h.nodup.filter _, ?_, h.objLt, ?_, hexcl, ?_⟩
  · intro ctx'
    simp only [List.mem_filter, decide_eq_true_eq, h.alive, mem_erase]
    constructor
    · rintro ⟨⟨handle', he⟩, hne⟩
      refine ⟨handle', fun heq => hne ?_, he⟩
      exact eq_of_mem (heq ▸ he) hmem
    · rintro ⟨handle', hne, he⟩
      refine ⟨⟨handle', he⟩, ?_⟩
      rintro rfl
      exact hne (h.values handle' handle ctx' he hmem)
  · intro handle₁ handle₂ ctx' he he'
    exact h.values handle₁ handle₂ ctx' (mem_erase.mp he).2 (mem_erase.mp he').2
  · intro ctx' hctx'
    exact h.ctxLt ctx' (List.mem_of_mem_filter hctx')
  · intro tid' pc' hpc'
    rw [hmoved] at hpc'
    split at hpc'
    · exact hrefs pc' hpc'
    next hne =>
      -- the entry that goes is kept by another owner
      have hother : ∀ handle' ctx', pc'.ctx = some ctx' → (handle', ctx') ∈ s.data.entries →
          (handle', ctx') ∈ (s.data.erase handle).entries := by
        intro handle' ctx' hc he
        refine mem_erase.mpr ⟨?_, he⟩
        rintro rfl
        obtain ⟨handle₁, he₁, hkeep | ⟨obj, hobj, -, hkeep⟩⟩ := h.owner_of_ctx hpc' hc
        · obtain rfl := h.values handle₁ handle' ctx' he₁ he
          exact hne (hthread tid' (h.owned.unique _ _ _ howner hkeep))
        · obtain rfl := h.values handle₁ handle' ctx' he₁ he
          obtain ⟨pc, hpc, hd⟩ := hobject obj (h.owned.unique _ _ _ howner hkeep)
          exact hne (h.exclusive tid tid' pc pc' obj hpc hpc' hd hobj).symm
      obtain ⟨hnew, hobj⟩ := h.refs tid' pc' hpc'
      refine ⟨fun handle' ctx' hn hc => hother handle' ctx' hc (hnew handle' ctx' hn hc), ?_⟩
      intro obj ho
      obtain ⟨handle', hlookup, hctx'⟩ := hobj obj ho
      exact ⟨handle', hlookup, fun ctx' hc => hother handle' ctx' hc (hctx' ctx' hc)⟩
  · refine h.owned.drop ?_ hkeeps
    intro handle'
    simp only [Listed, mem_erase]
    constructor
    · rintro ⟨ctx', hne, he⟩
      exact ⟨hne, ctx', he⟩
    · rintro ⟨hne, ctx', he⟩
      exact ⟨ctx', hne, he⟩

/-- `AIPU_init_ctx` deletes the context that could not be initialised. -/
theorem CtxRefs.Inv.destroyNew {ret : AipuStatus} (h : s.Inv)
    (hpc : lookup s.threads tid = some (.destroyNew handle ret))
    (hctx : s.data.lookup handle = some ctx) :
    CtxRefs.Inv { s with
      data := s.data.erase handle
      contexts := s.contexts.filter (· ≠ ctx)
      threads := erase s.threads tid } := by
  have howner : (RefOwner.thread tid).Keeps s.threads s.handles handle := by
    rw [RefOwner.Keeps, hpc]
    rfl
  have hold : ∀ obj, lookup s.threads tid ≠ some (.deleteHandle obj) := by simp [hpc]
  refine h.destroy hctx moved_erase howner ?_ ?_ ?_ ?_ ?_
  · rintro tid' ⟨⟩
    rfl
  · rintro obj ⟨⟩
  · rintro pc ⟨⟩
  · refine moved_erase.exclusive h.exclusive ?_
    rintro pc tid' pc' obj ⟨⟩
  · -- all other entries have other owners
    have hother : ∀ (owner : RefOwner) handle', owner.Keeps s.threads s.handles handle' →
        (handle' = handle ↔ owner = .thread tid) := by
      intro owner handle' hkeep
      constructor
      · rintro rfl
        exact h.owned.unique _ _ _ hkeep howner
      · rintro rfl
        rw [RefOwner.Keeps, hpc] at hkeep
        exact (Option.some.inj hkeep).symm
    rintro (tid' | obj) handle'
    · rw [moved_erase.keeps_thread]
      split
      next heq =>
        subst heq
        simp only [Option.bind_none, reduceCtorEq, false_iff, not_and]
        exact fun hne hkeep => hne ((hother _ handle' hkeep).mpr rfl)
      next hne =>
        refine ⟨fun hkeep => ⟨fun heq => ?_, hkeep⟩, And.right⟩
        exact hne (RefOwner.thread.inj ((hother (.thread tid') handle' hkeep).mp heq))
    · rw [RefOwner.Keeps, RefOwner.Keeps, moved_erase.closing hold]
      simp only [reduceCtorEq, false_or]
      refine ⟨fun hkeep => ⟨fun heq => ?_, hkeep⟩, And.right⟩
      cases (hother (.object obj) handle' hkeep).mp heq

/-- `AIPU_deinit_ctx` deletes the context of the handle object. -/
theorem CtxRefs.Inv.destroyOld (h : s.Inv)
    (hpc : lookup s.threads tid = some (.destroyOld obj))
    (hobj : lookup s.handles obj = some handle) (hctx : s.data.lookup handle = some ctx) :
    CtxRefs.Inv { s with
      data := s.data.erase handle
      contexts := s.contexts.filter (· ≠ ctx)
      threads := insert s.threads tid (.deleteHandle obj) } := by
  have howner : (RefOwner.object obj).Keeps s.threads s.handles handle :=
    ⟨hobj, h.exclusive.not_closing hpc rfl (by simp)⟩
  have hold : ∀ obj', lookup s.threads tid ≠ some (.deleteHandle obj') := by simp [hpc]
  refine h.destroy hctx moved_insert howner ?_ ?_ ?_ ?_ ?_
  · rintro tid' ⟨⟩
  · rintro obj' ⟨⟩
    exact ⟨_, hpc, rfl⟩
  · rintro pc ⟨⟩
    refine ⟨fun _ _ hnew => (by cases hnew), fun obj' ho => ?_⟩
    obtain rfl := Option.some.inj ho
    exact ⟨handle, hobj, fun _ hc => by cases hc⟩
  · refine moved_insert.exclusive h.exclusive fun pc tid' pc' obj' hnew hne hpc' => ?_
    obtain rfl := Option.some.inj hnew
    exact h.exclusive.apart hpc (fun _ ho => ho) (fun _ hd => hd) hne hpc'
  · -- no other owner keeps the entry
    have hother : ∀ (owner : RefOwner) handle', owner.Keeps s.threads s.handles handle' →
        owner ≠ .object obj → handle' ≠ handle := by
      rintro owner handle' hkeep hne rfl
      exact hne (h.owned.unique _ _ _ hkeep howner)
    rintro (tid' | obj') handle'
    · rw [moved_insert.keeps_thread]
      have hsame : (if tid' = tid then some (.deleteHandle obj)
          else lookup s.threads tid').bind ApiPc.newRef =
          (lookup s.threads tid').bind ApiPc.newRef := by
        split
        next heq =>
          rw [heq, hpc]
          rfl
        next => rfl
      rw [hsame]
      exact ⟨fun hkeep => ⟨hother (.thread tid') handle' hkeep (by simp), hkeep⟩, And.right⟩
    · rw [RefOwner.Keeps, RefOwner.Keeps, moved_insert.closing hold]
      constructor
      · rintro ⟨hlookup, hnot⟩
        rw [not_or] at hnot
        refine ⟨hother (.object obj') handle' ⟨hlookup, hnot.2⟩ ?_, hlookup, hnot.2⟩
        rintro ⟨⟩
        exact hnot.1 rfl
      · rintro ⟨hne, hlookup, hnot⟩
        refine ⟨hlookup, not_or.mpr ⟨?_, hnot⟩⟩
        rintro heq
        obtain rfl := ApiPc.deleteHandle.inj (Option.some.inj heq)
        exact hne (Option.some.inj (hlookup.symm.trans hobj))

/-- `AIPU_init_ctx` hands out a handle object: it keeps the entry from now on. -/
theorem CtxRefs.Inv.newHandle (h : s.Inv)
    (hpc : lookup s.threads tid = some (.newHandle handle ctx)) :
    CtxRefs.Inv { s with
      handles := insert s.handles s.nextObj handle
      nextObj := s.nextObj + 1
      threads := erase s.threads tid } := by
  have hold : ∀ obj', lookup s.threads tid ≠ some (.deleteHandle obj') := by simp [hpc]
  have hmem : (handle, ctx) ∈ s.data.entries := (h.refs tid _ hpc).new handle ctx rfl rfl
  have hfree : lookup s.handles s.nextObj = none := by
    by_contra hsome
    obtain ⟨handle', hlookup⟩ := Option.ne_none_iff_exists'.mp hsome
    exact Nat.lt_irrefl _ (h.objLt _ _ hlookup)
  have hclosing : ¬Closing s.threads s.nextObj := by
    rintro ⟨tid', ht⟩
    obtain ⟨handle', hlookup, -⟩ := (h.refs tid' _ ht).obj s.nextObj rfl
    simp [hfree] at hlookup
  refine ⟨h.alive, h.values, h.nodup, h.ctxLt, ?_, ?_, ?_, ?_⟩
  · intro obj handle' hlookup
    rw [lookup_insert] at hlookup
    split at hlookup
    next heq => rw [heq]; exact Nat.lt_succ_self _
    next => exact Nat.lt_succ_of_lt (h.objLt obj handle' hlookup)
  · intro tid' pc' hpc'
    rw [lookup_erase] at hpc'
    split at hpc'
    · cases hpc'
    · obtain ⟨hnew, hobj⟩ := h.refs tid' pc' hpc'
      refine ⟨hnew, fun obj ho => ?_⟩
      obtain ⟨handle', hlookup, hctx⟩ := hobj obj ho
      refine ⟨handle', ?_, hctx⟩
      rw [lookup_insert, if_neg]
      · exact hlookup
      · rintro rfl
        simp [hfree] at hlookup
  · refine moved_erase.exclusive h.exclusive ?_
    rintro pc tid' pc' obj ⟨⟩
  · refine h.owned.pass (.object s.nextObj) ⟨ctx, hmem⟩ ?_
    have howner : (RefOwner.thread tid).Keeps s.threads s.handles handle := by
      rw [RefOwner.Keeps, hpc]
      rfl
    rintro (tid' | obj) handle'
    · rw [moved_erase.keeps_thread]
      simp only [reduceCtorEq, false_and, false_or]
      split
      next heq =>
        subst heq
        simp only [Option.bind_none, reduceCtorEq, RefOwner.Keeps, hpc, false_iff, not_and]
        intro hne hkeep
        exact hne (Option.some.inj hkeep).symm
      next hne =>
        refine ⟨fun hkeep => ⟨?_, hkeep⟩, And.right⟩
        rintro rfl
        exact hne (RefOwner.thread.inj (h.owned.unique _ _ _ hkeep howner))
    · rw [RefOwner.Keeps, moved_erase.closing hold, lookup_insert]
      simp only [reduceCtorEq, false_or, RefOwner.object.injEq]
      split
      next heq => simp [heq, hclosing, RefOwner.Keeps, hfree, eq_comm]
      next hne =>
        simp only [hne, false_and, false_or]
        refine ⟨fun hkeep => ⟨?_, hkeep⟩, And.right⟩
        rintro rfl
        cases h.owned.unique (.object obj) _ _ hkeep howner

/-- `AIPU_deinit_ctx` deletes the handle object. -/
theorem CtxRefs.Inv.deleteHandle (h : s.Inv)
    (hpc : lookup s.threads tid = some (.deleteHandle obj)) :
    CtxRefs.Inv { s with
      handles := erase s.handles obj
      threads := erase s.threads tid } := by
  have hclosing : ∀ obj', Closing (erase s.threads tid) obj' ↔
      obj' ≠ obj ∧ Closing s.threads obj' := by
    intro obj'
    constructor
    · rintro ⟨tid', ht⟩
      rw [lookup_erase] at ht
      split at ht
      · cases ht
      next hne =>
        refine ⟨?_, tid', ht⟩
        rintro rfl
        exact hne (h.exclusive tid' tid _ _ obj' ht hpc rfl rfl)
    · rintro ⟨hne, tid', ht⟩
      refine ⟨tid', ?_⟩
      rw [lookup_erase, if_neg]
      · exact ht
      · rintro rfl
        exact hne (ApiPc.deleteHandle.inj (Option.some.inj (ht.symm.trans hpc)))
  refine ⟨h.alive, h.values, h.nodup, h.ctxLt, ?_, ?_, ?_, ?_⟩
  · intro obj' handle' hlookup
    rw [lookup_erase] at hlookup
    split at hlookup
    · cases hlookup
    · exact h.objLt obj' handle' hlookup
  · intro tid' pc' hpc'
    rw [lookup_erase] at hpc'
    split at hpc'
    · cases hpc'
    next hne =>
      obtain ⟨hnew, hobj⟩ := h.refs tid' pc' hpc'
      refine ⟨hnew, fun obj' ho => ?_⟩
      obtain ⟨handle', hlookup, hctx⟩ := hobj obj' ho
      refine ⟨handle', ?_, hctx⟩
      rw [lookup_erase, if_neg]
      · exact hlookup
      · -- no other call uses the object
        rintro rfl
        exact hne (h.exclusive tid tid' _ pc' obj' hpc hpc' rfl ho).symm
  · refine moved_erase.exclusive h.exclusive ?_
    rintro pc tid' pc' obj' ⟨⟩
  · refine h.owned.congr (fun _ => Iff.rfl) ?_
    rintro (tid' | obj') handle'
    · rw [moved_erase.keeps_thread]
      split
      next heq => simp [heq, RefOwner.Keeps, hpc, ApiPc.newRef]
      next => rfl
    · rw [RefOwner.Keeps, RefOwner.Keeps, hclosing, lookup_erase]
      split
      next heq =>
        subst heq
        simp only [reduceCtorEq, false_and, false_iff, not_and, not_not]
        exact fun _ => ⟨tid, hpc⟩
      next hne => simp [hne]

/-! ## What a step does -/

/-- The handle object keeps the entry of the context. -/
def CtxRefs.Opens (s : CtxRefs) (obj ctx : ℕ) : Prop :=
  ∃ handle, (RefOwner.object obj).Keeps s.threads s.handles handle ∧ (handle, ctx) ∈ s.data.entries

/-- The event concerns no object that does not exist, and neither creates nor deletes one. -/
def ApiEvent.Quiet (s : CtxRefs) : ApiEvent → Prop
  | .readHandle _ alive | .deref _ alive => alive = true
  | .reached obj ctx => s.Opens obj ctx
  | .returned _ _ => True
  | _ => False

/-- What a step does, as long as the handles are kept. -/
inductive ApiMove (s : CtxRefs) : List ApiEvent → CtxRefs → Prop
  | stay {tid : ℕ} {new : Option ApiPc} {threads : List (ℕ × ApiPc)} {es : List ApiEvent}
      (hmoved : Moved s.threads threads tid new) (hlocal : s.Local tid new)
      (hes : ∀ e ∈ es, e.Quiet s) : ApiMove s es { s with threads := threads }
  | create {tid handle : ℕ} (hfree : s.data.lookup handle = none)
      (hidle : lookup s.threads tid = none) :
      ApiMove s [.newCtx s.nextContext] ((s.createCtxRef handle).1.goto tid (.getCtxRef handle))
  | destroyNew {tid handle ctx : ℕ} {ret : AipuStatus}
      (hpc : lookup s.threads tid = some (.destroyNew handle ret))
      (hctx : s.data.lookup handle = some ctx) :
      ApiMove s [.deletedCtx ctx true, .returned tid ret] { s with
        data := s.data.erase handle
        contexts := s.contexts.filter (· ≠ ctx)
        threads := erase s.threads tid }
  | destroyOld {tid obj handle ctx : ℕ} (hpc : lookup s.threads tid = some (.destroyOld obj))
      (hobj : lookup s.handles obj = some handle) (hctx : s.data.lookup handle = some ctx) :
      ApiMove s [.readHandle obj true, .deletedCtx ctx true] { s with
        data := s.data.erase handle
        contexts := s.contexts.filter (· ≠ ctx)
        threads := insert s.threads tid (.deleteHandle obj) }
  | newHandle {tid handle ctx : ℕ} (hpc : lookup s.threads tid = some (.newHandle handle ctx)) :
      ApiMove s [.opened s.nextObj ctx, .returned tid .success] { s with
        handles := insert s.handles s.nextObj handle
        nextObj := s.nextObj + 1
        threads := erase s.threads tid }
  | deleteHandle {tid obj : ℕ} (hpc : lookup s.threads tid = some (.deleteHandle obj)) :
      ApiMove s [.closed obj true, .returned tid .success] { s with
        handles := erase s.handles obj
        threads := erase s.threads tid }
  | exit (hidle : s.threads = []) :
      ApiMove s (s.data.entries.flatMap fun e => [.deref e.2 true, .deletedCtx e.2 true])
        { s with data := ∅, contexts := [], exited := true }

/-- The moves keep the invariant until the process ends. -/
theorem ApiMove.inv (h : s.Inv) (hmove : ApiMove s es s') (hexited : s'.exited = false) :
    s'.Inv := by
  cases hmove with
  | stay hmoved hlocal => exact h.moved hmoved hlocal
  | create hfree hidle => exact h.create hfree hidle
  | destroyNew hpc hctx => exact h.destroyNew hpc hctx
  | destroyOld hpc hobj hctx => exact h.destroyOld hpc hobj hctx
  | newHandle hpc => exact h.newHandle hpc
  | deleteHandle hpc => exact h.deleteHandle hpc
  | exit => cases hexited

/-- A thread that is in no call may go on as it is. -/
theorem CtxRefs.Local.idle (hidle : lookup s.threads tid = none) : s.Local tid none := by
  refine ⟨by rw [hidle], ?_, ?_, by simp [hidle], by simp⟩
  · rintro pc ⟨⟩
  · rintro pc tid' pc' obj ⟨⟩

/-- The handle object exists and is not being closed, so a call on it finds its context. -/
theorem CtxRefs.Inv.start (h : s.Inv) (stale : ℕ) (next : ℕ → ApiPc)
    (hidle : lookup s.threads tid = none) (hobj : (lookup s.handles obj).isSome)
    (hclosing : ¬Closing s.threads obj)
    (hnewRef : ∀ ctx, (next ctx).newRef = none) (hnext : ∀ ctx, (next ctx).obj = some obj)
    (hctx : ∀ ctx, (next ctx).ctx = some ctx)
    (hapart : ∀ ctx tid' pc' obj', tid' ≠ tid → lookup s.threads tid' = some pc' →
      ((next ctx).deinits = some obj' → pc'.obj ≠ some obj') ∧
        (pc'.deinits = some obj' → (next ctx).obj ≠ some obj')) :
    ∃ ctx, s.Opens obj ctx ∧ ApiMove s [.readHandle obj true, .reached obj ctx]
      (s.goto tid (next ctx)) ∧
      s.start tid obj stale next =
        (s.goto tid (next ctx), [.readHandle obj true, .reached obj ctx]) := by
  obtain ⟨handle, hlookup⟩ := Option.isSome_iff_exists.mp hobj
  have hkeep : (RefOwner.object obj).Keeps s.threads s.handles handle := ⟨hlookup, hclosing⟩
  obtain ⟨ctx, hmem⟩ := h.owned.key _ _ hkeep
  have hopens : s.Opens obj ctx := ⟨handle, hkeep, hmem⟩
  refine ⟨ctx, hopens, .stay moved_insert ⟨?_, ?_, ?_, by simp [hidle], ?_⟩ ?_, ?_⟩
  · rw [hidle]
    exact hnewRef ctx
  · rintro pc ⟨⟩
    refine ⟨fun _ _ hn => by simp [hnewRef] at hn, fun obj' ho => ?_⟩
    obtain rfl := Option.some.inj ((hnext ctx).symm.trans ho)
    refine ⟨handle, hlookup, fun ctx' hc => ?_⟩
    obtain rfl := Option.some.inj ((hctx ctx).symm.trans hc)
    exact hmem
  · rintro pc tid' pc' obj' ⟨⟩ hne hpc'
    exact hapart ctx tid' pc' obj' hne hpc'
  · intro obj' heq
    have hc := hctx ctx
    rw [Option.some.inj heq] at hc
    cases hc
  · intro e he
    rcases List.mem_cons.mp he with rfl | he
    · rfl
    · rw [List.mem_singleton.mp he]
      exact hopens
  · rw [CtxRefs.start, CtxRefs.handleOf, hlookup, Option.getD_some,
      lookup_eq_some_iff.mpr hmem]
    rfl

/-- A thread that deletes nothing goes on in its call. -/
theorem CtxRefs.Inv.localGoto (h : s.Inv) (hpc : lookup s.threads tid = some pc)
    (hold : ∀ obj, pc ≠ .deleteHandle obj) (hnew : ∀ obj, pc' ≠ .deleteHandle obj)
    (hnewRef : pc'.newRef = pc.newRef)
    (hobj : ∀ obj, pc'.obj = some obj → pc.obj = some obj)
    (hdeinits : ∀ obj, pc'.deinits = some obj → pc.deinits = some obj)
    (hctx : ∀ ctx, pc'.ctx = some ctx → pc.ctx = some ctx) : s.Local tid (some pc') := by
  refine ⟨by rw [hpc]; exact hnewRef, ?_, ?_, fun obj heq => ?_, fun obj heq => ?_⟩
  · rintro p ⟨⟩
    obtain ⟨hn, ho⟩ := h.refs tid pc hpc
    refine ⟨fun handle ctx hr hc => hn handle ctx (hnewRef ▸ hr) (hctx ctx hc), fun obj hp => ?_⟩
    obtain ⟨handle, hlookup, hmem⟩ := ho obj (hobj obj hp)
    exact ⟨handle, hlookup, fun ctx hc => hmem ctx (hctx ctx hc)⟩
  · rintro p tid' p' obj ⟨⟩ hne hp'
    exact h.exclusive.apart hpc hobj hdeinits hne hp'
  · exact hold obj (Option.some.inj (hpc.symm.trans heq))
  · exact hnew obj (Option.some.inj heq)

/-- A call that deletes nothing and has made no handle returns. -/
theorem CtxRefs.localAnswer (hpc : lookup s.threads tid = some pc)
    (hold : ∀ obj, pc ≠ .deleteHandle obj) (hnewRef : pc.newRef = none) : s.Local tid none := by
  refine ⟨by rw [hpc]; exact hnewRef.symm, ?_, ?_, fun obj heq => ?_, by simp⟩
  · rintro p ⟨⟩
  · rintro p tid' p' obj ⟨⟩
  · exact hold obj (Option.some.inj (hpc.symm.trans heq))

/-- The context that a thread holds exists. -/
theorem CtxRefs.Inv.contains (h : s.Inv) (hpc : lookup s.threads tid = some pc)
    (hctx : pc.ctx = some ctx) : s.contexts.contains ctx = true := by
  obtain ⟨handle, hmem, -⟩ := h.owner_of_ctx hpc hctx
  simpa using (h.alive ctx).mpr ⟨handle, hmem⟩

/-- What the thread does when a member function has returned. -/
theorem CtxRefs.Inv.afterMember (h : s.Inv) {call : ApiCall} {m : ContextMember}
    (hpc : lookup s.threads tid = some (.inside call m ctx)) (reply : ApiReply) :
    ApiMove s (.deref ctx true :: (s.afterMember tid m ctx reply call).2)
      (s.afterMember tid m ctx reply call).1 := by
  have hgoto : ∀ pc' : ApiPc, (∀ obj, pc' ≠ .deleteHandle obj) → pc'.newRef = call.newRef →
      (∀ obj, pc'.obj = some obj → call.obj = some obj) →
      (∀ obj, pc'.deinits = some obj → call.deinits = some obj) →
      (∀ ctx', pc'.ctx = some ctx' → ctx = ctx') →
      ApiMove s [.deref ctx true] (s.goto tid pc') := by
    intro pc' hnew hnewRef hobj hdeinits hctx
    refine .stay moved_insert
      (h.localGoto hpc (by simp) hnew hnewRef hobj hdeinits fun ctx' hc => ?_) ?_
    · exact congrArg some (hctx ctx' hc)
    · simp [ApiEvent.Quiet]
  have hanswer : ∀ ret, call.newRef = none →
      ApiMove s [.deref ctx true, .returned tid ret] (s.answer tid) := by
    intro ret hnewRef
    exact .stay moved_erase (CtxRefs.localAnswer hpc (by simp) hnewRef)
      (by simp [ApiEvent.Quiet])
  cases call with
  | initCtx handle =>
    rw [CtxRefs.afterMember]
    split
    · exact hgoto _ (by simp) rfl (by simp [ApiPc.obj]) (by simp [ApiPc.deinits])
        (fun _ hc => Option.some.inj hc)
    · exact hgoto _ (by simp) rfl (by simp [ApiPc.obj]) (by simp [ApiPc.deinits])
        (by simp [ApiPc.ctx])
  | deinitCtx obj =>
    rw [CtxRefs.afterMember]
    split
    · exact hgoto _ (by simp) rfl (fun _ ho => ho) (fun _ hd => hd) (by simp [ApiPc.ctx])
    · exact hanswer _ rfl
  | function f obj =>
    rw [CtxRefs.afterMember]
    split_ifs
    · exact hgoto _ (by simp) rfl (fun _ ho => ho) (fun _ hd => hd) (fun _ hc => Option.some.inj hc)
    · exact hanswer _ rfl
    · exact hanswer _ rfl

/-- What the next step of a thread does. -/
theorem CtxRefs.Inv.next (h : s.Inv) (hpc : lookup s.threads tid = some pc) (reply : ApiReply)
    (stale : ℕ) : ApiMove s (s.next tid reply stale pc).2 (s.next tid reply stale pc).1 := by
  cases pc with
  | getCtxRef handle =>
    have hkeep : (RefOwner.thread tid).Keeps s.threads s.handles handle := by
      rw [RefOwner.Keeps, hpc]
      rfl
    obtain ⟨ctx, hmem⟩ := h.owned.key _ _ hkeep
    rw [CtxRefs.next, lookup_eq_some_iff.mpr hmem]
    refine .stay moved_insert ⟨by rw [hpc]; rfl, ?_, ?_, by simp [hpc], by simp⟩ (by simp)
    · rintro p ⟨⟩
      refine ⟨fun handle' ctx' hn hc => ?_, fun _ ho => (by cases ho)⟩
      obtain rfl := Option.some.inj hn
      obtain rfl := Option.some.inj hc
      exact hmem
    · rintro p tid' p' obj ⟨⟩ - -
      exact ⟨fun hd => (by cases hd), fun _ ho => (by cases ho)⟩
  | mmapFile obj ctx =>
    rw [CtxRefs.next]
    split
    · exact .stay moved_insert (h.localGoto hpc (by simp) (by simp) rfl (fun _ ho => ho)
        (by simp [ApiPc.deinits, ApiCall.deinits]) (fun _ hc => hc)) (by simp)
    · exact .stay moved_erase (CtxRefs.localAnswer hpc (by simp) rfl) (by simp [ApiEvent.Quiet])
  | enter call m ctx =>
    rw [CtxRefs.next, h.contains hpc rfl]
    exact .stay moved_insert (h.localGoto hpc (by simp) (by simp) rfl (fun _ ho => ho)
      (fun _ hd => hd) (fun _ hc => hc)) (by simp [ApiEvent.Quiet])
  | inside call m ctx =>
    rw [CtxRefs.next, h.contains hpc rfl]
    exact h.afterMember hpc reply
  | destroyNew handle ret =>
    have hkeep : (RefOwner.thread tid).Keeps s.threads s.handles handle := by
      rw [RefOwner.Keeps, hpc]
      rfl
    obtain ⟨ctx, hmem⟩ := h.owned.key _ _ hkeep
    have hlookup := lookup_eq_some_iff.mpr hmem
    have halive : s.contexts.contains ctx = true := by simpa using (h.alive ctx).mpr ⟨handle, hmem⟩
    simp only [CtxRefs.next, CtxRefs.destroyCtxRef, hlookup, halive]
    exact .destroyNew hpc hlookup
  | destroyOld obj =>
    obtain ⟨handle, hobj, -⟩ := (h.refs tid _ hpc).obj obj rfl
    obtain ⟨ctx, hmem⟩ := h.owned.key (.object obj) handle
      ⟨hobj, h.exclusive.not_closing hpc rfl (by simp)⟩
    have hlookup := lookup_eq_some_iff.mpr hmem
    have halive : s.contexts.contains ctx = true := by simpa using (h.alive ctx).mpr ⟨handle, hmem⟩
    simp only [CtxRefs.next, CtxRefs.handleOf, hobj, Option.getD_some, CtxRefs.destroyCtxRef,
      hlookup, halive]
    exact .destroyOld hpc hobj hlookup
  | newHandle handle ctx => exact .newHandle hpc
  | deleteHandle obj =>
    obtain ⟨handle, hobj, -⟩ := (h.refs tid _ hpc).obj obj rfl
    simp only [CtxRefs.next, hobj]
    exact .deleteHandle hpc

/-- **Steps.**  What a step does when the handles are kept. -/
theorem apiStep_move {a : ApiAction} (h : s.Inv) (ha : KeepsHandles s a)
    (hst : apiStep s a = some (s', es)) : ApiMove s es s' := by
  have hidle : ∀ {tid}, (lookup s.threads tid).isSome ≠ true → lookup s.threads tid = none :=
    fun hne => by simpa using hne
  have hnull : ∀ {tid}, lookup s.threads tid = none →
      ApiMove s [.returned tid .errorNullPtr] s := by
    intro tid hidle
    refine .stay (fun tid' => ?_) (.idle hidle) (by simp [ApiEvent.Quiet])
    split
    next heq => rw [heq, hidle]
    next => rfl
  unfold apiStep at hst
  split at hst
  · cases hst
  cases a with
  | initCtx tid outNull =>
    dsimp only at hst
    split at hst
    · cases hst
    next hbusy =>
      rw [CtxRefs.initCtx] at hst
      split at hst
      · obtain ⟨rfl, rfl⟩ := Prod.mk.inj (Option.some.inj hst)
        exact hnull (hidle hbusy)
      · split at hst
        · cases hst
        next handle hhandle =>
          obtain ⟨rfl, rfl⟩ := Prod.mk.inj (Option.some.inj hst)
          obtain ⟨i, hi, rfl⟩ := Option.map_eq_some_iff.mp hhandle
          have hfree := UnusedId.not_used_of_firstUnused (by decide) hi
          exact .create (by simpa using hfree) (hidle hbusy)
  | deinitCtx tid target stale =>
    dsimp only at hst
    split at hst
    · cases hst
    next hbusy =>
      cases target with
      | none =>
        obtain ⟨rfl, rfl⟩ := Prod.mk.inj (Option.some.inj hst)
        exact hnull (hidle hbusy)
      | some obj =>
        -- no other call uses the object
        obtain ⟨hobj, hother⟩ := ha
        have hfree : ∀ tid' pc', lookup s.threads tid' = some pc' → pc'.obj ≠ some obj :=
          fun tid' pc' hpc' => hother (tid', pc') (KeyedList.mem_of_lookup hpc')
        have hclosing : ¬Closing s.threads obj := by
          rintro ⟨tid', ht⟩
          exact hfree tid' _ ht rfl
        obtain ⟨ctx, -, hmove, heq⟩ := h.start stale (.enter (.deinitCtx obj) .deinit)
          (hidle hbusy) hobj hclosing (fun _ => rfl)
          (fun _ => rfl) (fun _ => rfl) fun ctx tid' pc' obj' _ hpc' => by
            constructor
            · rintro ⟨⟩
              exact hfree tid' pc' hpc'
            · rintro hd ⟨⟩
              exact hfree tid' pc' hpc' (ApiPc.obj_of_deinits hd)
        rw [CtxRefs.deinitCtx, heq] at hst
        obtain ⟨rfl, rfl⟩ := Prod.mk.inj (Option.some.inj hst)
        exact hmove
  | callFunction tid f target nulls stale =>
    dsimp only at hst
    split at hst
    · cases hst
    next hbusy =>
      cases target with
      | none =>
        obtain ⟨rfl, rfl⟩ := Prod.mk.inj (Option.some.inj hst)
        exact hnull (hidle hbusy)
      | some obj =>
        rw [CtxRefs.callFunction] at hst
        split at hst
        · obtain ⟨rfl, rfl⟩ := Prod.mk.inj (Option.some.inj hst)
          exact hnull (hidle hbusy)
        -- no other call is closing the object
        obtain ⟨hobj, hother⟩ := ha
        have hfree : ∀ tid' pc', lookup s.threads tid' = some pc' → pc'.deinits ≠ some obj :=
          fun tid' pc' hpc' => hother (tid', pc') (KeyedList.mem_of_lookup hpc')
        have hfound : ∀ ctx, (f.found obj ctx).newRef = none ∧ (f.found obj ctx).obj = some obj ∧
            (f.found obj ctx).ctx = some ctx ∧ (f.found obj ctx).deinits = none := by
          intro ctx
          unfold ApiFunction.found
          split <;> exact ⟨rfl, rfl, rfl, rfl⟩
        have hclosing : ¬Closing s.threads obj := by
          rintro ⟨tid', ht⟩
          exact hfree tid' _ ht rfl
        obtain ⟨ctx, -, hmove, heq⟩ := h.start stale (f.found obj) (hidle hbusy) hobj
          hclosing (fun ctx => (hfound ctx).1)
          (fun ctx => (hfound ctx).2.1) (fun ctx => (hfound ctx).2.2.1)
          fun ctx tid' pc' obj' _ hpc' => by
            rw [(hfound ctx).2.2.2, (hfound ctx).2.1]
            constructor
            · rintro ⟨⟩
            · rintro hd ⟨⟩
              exact hfree tid' pc' hpc' hd
        rw [heq] at hst
        obtain ⟨rfl, rfl⟩ := Prod.mk.inj (Option.some.inj hst)
        exact hmove
  | next tid reply stale =>
    obtain ⟨pc, hpc, heq⟩ := Option.map_eq_some_iff.mp hst
    obtain ⟨rfl, rfl⟩ := Prod.mk.inj heq
    exact h.next hpc reply stale
  | exit =>
    obtain ⟨rfl, rfl⟩ := Prod.mk.inj (Option.some.inj hst)
    have halive : ∀ e ∈ s.data.entries, e.2 ∈ s.contexts := fun e he =>
      (h.alive e.2).mpr ⟨e.1, he⟩
    have hnone : s.contexts.filter (fun ctx => ctx ∉ s.data.entries.map Prod.snd) = [] := by
      refine List.filter_eq_nil_iff.mpr fun ctx hctx => ?_
      obtain ⟨handle, hmem⟩ := (h.alive ctx).mp hctx
      simpa using ⟨handle, hmem⟩
    have hevents : (s.data.entries.flatMap fun e =>
        [.deref e.2 (s.contexts.contains e.2), .deletedCtx e.2 (s.contexts.contains e.2)]) =
        s.data.entries.flatMap fun e => [ApiEvent.deref e.2 true, .deletedCtx e.2 true] := by
      refine List.flatMap_congr fun e he => ?_
      simp [halive e he]
    simp only [hnone, hevents]
    exact .exit ha

end Invariant

/-! ## Accounts of the objects -/

/-- The context that is created. -/
def ApiEvent.creates : ApiEvent → Option ℕ
  | .newCtx ctx => some ctx
  | _ => none

/-- The context that is deleted. -/
def ApiEvent.deletes : ApiEvent → Option ℕ
  | .deletedCtx ctx _ => some ctx
  | _ => none

/-- The handle object that is handed out, with its context. -/
def ApiEvent.opens : ApiEvent → Option (ℕ × ℕ)
  | .opened obj ctx => some (obj, ctx)
  | _ => none

/-- The handle object that is deleted. -/
def ApiEvent.closes : ApiEvent → Option ℕ
  | .closed obj _ => some obj
  | _ => none

/-- What the event uses exists. -/
def ApiEvent.Safe : ApiEvent → Prop
  | .readHandle _ alive | .deref _ alive | .deletedCtx _ alive | .closed _ alive => alive = true
  | .notFound _ => False
  | _ => True

/-- The contexts that were created. -/
def newCtxs (tr : List ApiEvent) : List ℕ := tr.filterMap ApiEvent.creates

/-- The contexts that were deleted. -/
def deletedCtxs (tr : List ApiEvent) : List ℕ := tr.filterMap ApiEvent.deletes

/-- The handle objects that were handed out, with their contexts. -/
def openedObjs (tr : List ApiEvent) : List (ℕ × ℕ) := tr.filterMap ApiEvent.opens

/-- The handle objects that were deleted. -/
def closedObjs (tr : List ApiEvent) : List ℕ := tr.filterMap ApiEvent.closes

section Accounts

variable {s s' : CtxRefs} {tid obj ctx : ℕ} {tr es : List ApiEvent}

@[simp] theorem newCtxs_append : newCtxs (tr ++ es) = newCtxs tr ++ newCtxs es :=
  List.filterMap_append

@[simp] theorem deletedCtxs_append : deletedCtxs (tr ++ es) = deletedCtxs tr ++ deletedCtxs es :=
  List.filterMap_append

@[simp] theorem openedObjs_append : openedObjs (tr ++ es) = openedObjs tr ++ openedObjs es :=
  List.filterMap_append

@[simp] theorem closedObjs_append : closedObjs (tr ++ es) = closedObjs tr ++ closedObjs es :=
  List.filterMap_append

/-- A quiet event is safe, and none of the others. -/
theorem ApiEvent.Quiet.spec {e : ApiEvent} (h : e.Quiet s) : e.Safe ∧ e.creates = none ∧
    e.deletes = none ∧ e.opens = none ∧ e.closes = none := by
  cases e <;> first | exact ⟨h, rfl, rfl, rfl, rfl⟩ | exact ⟨trivial, rfl, rfl, rfl, rfl⟩ |
    exact h.elim

/-- The objects against the trace. -/
structure ApiAccounts (tr : List ApiEvent) (s : CtxRefs) : Prop where
  inv : s.exited = false → s.Inv
  exited : s.exited = true → s.contexts = []
  safe : ∀ e ∈ tr, e.Safe
  created : newCtxs tr = List.range s.nextContext
  contexts : (newCtxs tr).Perm (s.contexts ++ deletedCtxs tr)
  opened : (openedObjs tr).map Prod.fst = List.range s.nextObj
  objects : ((openedObjs tr).map Prod.fst).Perm (s.handles.map Prod.fst ++ closedObjs tr)
  opens : ∀ obj ctx, s.Opens obj ctx → .opened obj ctx ∈ tr
  reached : ∀ obj ctx, .reached obj ctx ∈ tr → .opened obj ctx ∈ tr

/-- What a handle object opens after a move, it opened before or was handed out for. -/
theorem ApiMove.opens (h : s.Inv) (hmove : ApiMove s es s') (hopens : s'.Opens obj ctx) :
    s.Opens obj ctx ∨ .opened obj ctx ∈ es := by
  obtain ⟨handle, ⟨hlookup, hclosing⟩, hmem⟩ := hopens
  cases hmove with
  | stay hmoved hlocal =>
    rw [hmoved.closing hlocal.notDeleting, not_or] at hclosing
    exact .inl ⟨handle, ⟨hlookup, hclosing.2⟩, hmem⟩
  | @create tid handle₀ hfree hidle =>
    have hiff : Closing (insert s.threads tid (.getCtxRef handle₀)) obj ↔
        some (ApiPc.getCtxRef handle₀) = some (.deleteHandle obj) ∨ Closing s.threads obj :=
      moved_insert.closing (by simp [hidle])
    have hclosed : ¬Closing s.threads obj := fun hc => hclosing (hiff.mpr (.inr hc))
    have hkeep : (RefOwner.object obj).Keeps s.threads s.handles handle := ⟨hlookup, hclosed⟩
    obtain ⟨ctx', hmem'⟩ := h.owned.key _ _ hkeep
    rcases mem_insert.mp hmem with heq | ⟨-, hmem⟩
    · obtain rfl := (Prod.mk.inj heq).1
      exact absurd hmem' (lookup_eq_none_iff.mp hfree ctx')
    · exact .inl ⟨handle, hkeep, hmem⟩
  | destroyNew hpc hctx =>
    have hclosed : ¬Closing s.threads obj := fun hc =>
      hclosing ((moved_erase.closing (by simp [hpc])).mpr (.inr hc))
    exact .inl ⟨handle, ⟨hlookup, hclosed⟩, (mem_erase.mp hmem).2⟩
  | destroyOld hpc hobj hctx =>
    have hclosed : ¬Closing s.threads obj := fun hc =>
      hclosing ((moved_insert.closing (by simp [hpc])).mpr (.inr hc))
    exact .inl ⟨handle, ⟨hlookup, hclosed⟩, (mem_erase.mp hmem).2⟩
  | @newHandle tid handle₀ ctx₀ hpc =>
    rw [moved_erase.closing (by simp [hpc])] at hclosing
    rw [lookup_insert] at hlookup
    split at hlookup
    next heq =>
      obtain rfl := Option.some.inj hlookup
      have hold := (h.refs tid _ hpc).new handle₀ ctx₀ rfl rfl
      rw [heq, eq_of_mem hmem hold]
      exact .inr List.mem_cons_self
    next => exact .inl ⟨handle, ⟨hlookup, by simpa using hclosing⟩, hmem⟩
  | @deleteHandle tid obj₀ hpc =>
    rw [lookup_erase] at hlookup
    split at hlookup
    · cases hlookup
    next hne =>
      refine .inl ⟨handle, ⟨hlookup, ?_⟩, hmem⟩
      rintro ⟨tid', ht⟩
      refine hclosing ⟨tid', ?_⟩
      rw [lookup_erase, if_neg]
      · exact ht
      · rintro rfl
        exact hne (ApiPc.deleteHandle.inj (Option.some.inj (ht.symm.trans hpc)))
  | exit => cases hmem

/-- The keys of a map whose entry is taken away. -/
theorem keys_erase {m : List (ℕ × ℕ)} {k : ℕ} :
    (erase m k).map Prod.fst = (m.map Prod.fst).filter (· ≠ k) := by
  rw [KeyedList.erase, List.filter_map]
  rfl

/-- A number that is taken out of a list without repetition. -/
theorem perm_filter_ne {l : List ℕ} {i : ℕ} (hnodup : l.Nodup) (hi : i ∈ l) :
    l.Perm (l.filter (· ≠ i) ++ [i]) := by
  have hperm := List.perm_cons_erase hi
  rw [hnodup.erase_eq_filter] at hperm
  refine hperm.trans ((List.perm_append_singleton i _).symm.trans ?_)
  have hfilter : (fun j => j != i) = fun j => decide (j ≠ i) := by
    funext j
    by_cases h : j = i <;> simp [h]
  rw [hfilter]

/-- Events that are quiet change no account. -/
theorem quiet_accounts (hes : ∀ e ∈ es, e.Quiet s) :
    newCtxs es = [] ∧ deletedCtxs es = [] ∧ openedObjs es = [] ∧ closedObjs es = [] :=
  ⟨List.filterMap_eq_nil_iff.mpr fun e he => (hes e he).spec.2.1,
    List.filterMap_eq_nil_iff.mpr fun e he => (hes e he).spec.2.2.1,
    List.filterMap_eq_nil_iff.mpr fun e he => (hes e he).spec.2.2.2.1,
    List.filterMap_eq_nil_iff.mpr fun e he => (hes e he).spec.2.2.2.2⟩

/-- A context that is deleted goes over to those that were. -/
theorem perm_deleted {contexts created deleted : List ℕ}
    (hperm : created.Perm (contexts ++ deleted)) (hnodup : contexts.Nodup) (hctx : ctx ∈ contexts) :
    created.Perm (contexts.filter (· ≠ ctx) ++ (deleted ++ [ctx])) := by
  refine hperm.trans (((perm_filter_ne hnodup hctx).append_right _).trans ?_)
  rw [List.append_assoc]
  exact List.perm_append_comm.append_left _

/-- The contexts that exist are those of the map. -/
theorem CtxRefs.Inv.contexts_perm (h : s.Inv) :
    s.contexts.Perm (s.data.entries.map Prod.snd) := by
  have hentries : s.data.entries.Nodup := s.data.sorted.imp fun hlt heq => by simp [heq] at hlt
  have hnodup : (s.data.entries.map Prod.snd).Nodup := by
    refine hentries.map_on fun e he e' he' heq => Prod.ext ?_ heq
    obtain ⟨handle, ctx⟩ := e
    exact h.values handle e'.1 ctx he (by rw [show ctx = e'.2 from heq]; exact he')
  refine (List.perm_ext_iff_of_nodup h.nodup hnodup).mpr fun ctx => ?_
  simp [h.alive]

/-- **Moves.**  They keep the accounts. -/
theorem ApiAccounts.move (h : ApiAccounts tr s) (hrunning : s.exited = false)
    (hmove : ApiMove s es s') : ApiAccounts (tr ++ es) s' := by
  have hinv := h.inv hrunning
  have hinv' := hmove.inv hinv
  obtain ⟨-, -, hsafe, hcreated, hctxs, hopened, hobjs, hopen, hreached⟩ := h
  have hrun : s.exited = true → s'.contexts = [] := by simp [hrunning]
  -- what does not depend on the kind of move
  have hopen' : ∀ obj ctx, s'.Opens obj ctx → .opened obj ctx ∈ tr ++ es := by
    intro obj ctx ho
    rcases hmove.opens hinv ho with ho | ho
    · exact List.mem_append_left _ (hopen obj ctx ho)
    · exact List.mem_append_right _ ho
  have hreached' : (∀ obj ctx, .reached obj ctx ∈ es → s.Opens obj ctx) →
      ∀ obj ctx, .reached obj ctx ∈ tr ++ es → .opened obj ctx ∈ tr ++ es := by
    intro hes obj ctx he
    rcases List.mem_append.mp he with he | he
    · exact List.mem_append_left _ (hreached obj ctx he)
    · exact List.mem_append_left _ (hopen obj ctx (hes obj ctx he))
  have hsafe' : (∀ e ∈ es, e.Safe) → ∀ e ∈ tr ++ es, e.Safe :=
    fun hes => List.forall_mem_append.mpr ⟨hsafe, hes⟩
  cases hmove with
  | stay hmoved hlocal hes =>
    obtain ⟨hcreates, hdeletes, hopens', hcloses⟩ := quiet_accounts hes
    refine ⟨hinv', hrun, hsafe' fun e he => (hes e he).spec.1, ?_, ?_, ?_, ?_, hopen',
      hreached' fun obj ctx he => hes _ he⟩
    · simpa [hcreates] using hcreated
    · simpa [hcreates, hdeletes] using hctxs
    · simpa [hopens'] using hopened
    · simpa [hopens', hcloses] using hobjs
  | create hfree hidle =>
    refine ⟨hinv', hrun, hsafe' (by simp [ApiEvent.Safe]), ?_, ?_, ?_, ?_, hopen',
      hreached' (by simp)⟩
    · rw [newCtxs_append, hcreated]
      exact List.range_succ.symm
    · rw [newCtxs_append, deletedCtxs_append]
      refine (hctxs.append_right _).trans (List.perm_append_comm.trans ?_)
      simp [newCtxs, deletedCtxs, List.filterMap_cons, ApiEvent.creates, ApiEvent.deletes,
        CtxRefs.goto, CtxRefs.createCtxRef]
    · simpa [openedObjs, List.filterMap_cons, ApiEvent.opens, CtxRefs.goto,
        CtxRefs.createCtxRef] using hopened
    · simpa [openedObjs, closedObjs, List.filterMap_cons, ApiEvent.opens, ApiEvent.closes,
        CtxRefs.goto, CtxRefs.createCtxRef] using hobjs
  | destroyNew hpc hctx =>
    refine ⟨hinv', hrun, hsafe' (by simp [ApiEvent.Safe]), ?_, ?_, ?_, ?_, hopen',
      hreached' (by simp)⟩
    · simpa [newCtxs, List.filterMap_cons, ApiEvent.creates] using hcreated
    · have hmem := (hinv.alive _).mpr ⟨_, lookup_eq_some_iff.mp hctx⟩
      have hperm := perm_deleted hctxs hinv.nodup hmem
      simpa [newCtxs, deletedCtxs, List.filterMap_cons, ApiEvent.creates,
        ApiEvent.deletes] using hperm
    · simpa [openedObjs, List.filterMap_cons, ApiEvent.opens] using hopened
    · simpa [openedObjs, closedObjs, List.filterMap_cons, ApiEvent.opens,
        ApiEvent.closes] using hobjs
  | destroyOld hpc hobj hctx =>
    refine ⟨hinv', hrun, hsafe' (by simp [ApiEvent.Safe]), ?_, ?_, ?_, ?_, hopen',
      hreached' (by simp)⟩
    · simpa [newCtxs, List.filterMap_cons, ApiEvent.creates] using hcreated
    · have hmem := (hinv.alive _).mpr ⟨_, lookup_eq_some_iff.mp hctx⟩
      have hperm := perm_deleted hctxs hinv.nodup hmem
      simpa [newCtxs, deletedCtxs, List.filterMap_cons, ApiEvent.creates,
        ApiEvent.deletes] using hperm
    · simpa [openedObjs, List.filterMap_cons, ApiEvent.opens] using hopened
    · simpa [openedObjs, closedObjs, List.filterMap_cons, ApiEvent.opens,
        ApiEvent.closes] using hobjs
  | @newHandle tid handle ctx hpc =>
    refine ⟨hinv', hrun, hsafe' (by simp [ApiEvent.Safe]), ?_, ?_, ?_, ?_, hopen',
      hreached' (by simp)⟩
    · simpa [newCtxs, List.filterMap_cons, ApiEvent.creates] using hcreated
    · simpa [newCtxs, deletedCtxs, List.filterMap_cons, ApiEvent.creates,
        ApiEvent.deletes] using hctxs
    · rw [openedObjs_append, List.map_append, hopened]
      exact List.range_succ.symm
    · have hkeys : ∀ e ∈ s.handles, e.1 ≠ s.nextObj := by
        intro e he heq
        obtain ⟨handle', hlookup⟩ := Option.isSome_iff_exists.mp
          (isSome_lookup.mpr (List.mem_map_of_mem (f := Prod.fst) he))
        exact Nat.ne_of_lt (hinv.objLt e.1 handle' hlookup) heq
      have hinsert : (insert s.handles s.nextObj handle).map Prod.fst =
          s.nextObj :: s.handles.map Prod.fst := by
        rw [KeyedList.insert, List.filter_eq_self.mpr fun e he => by simpa using hkeys e he]
        rfl
      rw [openedObjs_append, closedObjs_append, List.map_append, hinsert]
      refine (hobjs.append_right _).trans (List.perm_append_comm.trans ?_)
      simp [openedObjs, closedObjs, List.filterMap_cons, ApiEvent.opens, ApiEvent.closes]
  | @deleteHandle tid obj hpc =>
    refine ⟨hinv', hrun, hsafe' (by simp [ApiEvent.Safe]), ?_, ?_, ?_, ?_, hopen',
      hreached' (by simp)⟩
    · simpa [newCtxs, List.filterMap_cons, ApiEvent.creates] using hcreated
    · simpa [newCtxs, deletedCtxs, List.filterMap_cons, ApiEvent.creates,
        ApiEvent.deletes] using hctxs
    · simpa [openedObjs, List.filterMap_cons, ApiEvent.opens] using hopened
    · obtain ⟨handle, hlookup, -⟩ := (hinv.refs tid _ hpc).obj obj rfl
      have hmem : obj ∈ s.handles.map Prod.fst := isSome_lookup.mp (by rw [hlookup]; rfl)
      have hnodup : (s.handles.map Prod.fst).Nodup := by
        have hall := hobjs.nodup_iff.mp (hopened ▸ List.nodup_range)
        exact (List.nodup_append.mp hall).1
      have hperm := perm_deleted hobjs hnodup hmem
      rw [← keys_erase] at hperm
      simpa [openedObjs, closedObjs, List.filterMap_cons, ApiEvent.opens,
        ApiEvent.closes] using hperm
  | exit hidle =>
    have hevents : ∀ l : List (ℕ × ℕ), let es := l.flatMap fun e =>
        [ApiEvent.deref e.2 true, .deletedCtx e.2 true]
        newCtxs es = [] ∧ deletedCtxs es = l.map Prod.snd ∧ openedObjs es = [] ∧
          closedObjs es = [] := by
      intro l
      induction l with
      | nil => exact ⟨rfl, rfl, rfl, rfl⟩
      | cons e l ih =>
        obtain ⟨hn, hd, ho, hc⟩ := ih
        exact ⟨hn, congrArg (e.2 :: ·) hd, ho, hc⟩
    obtain ⟨hn, hd, ho, hc⟩ := hevents s.data.entries
    have hmem : ∀ e ∈ s.data.entries.flatMap fun e =>
        [ApiEvent.deref e.2 true, .deletedCtx e.2 true], e.Safe ∧
          ∀ obj ctx, e ≠ .reached obj ctx := by
      intro e he
      obtain ⟨e', -, he⟩ := List.mem_flatMap.mp he
      rcases List.mem_cons.mp he with rfl | he
      · exact ⟨rfl, by simp⟩
      · rw [List.mem_singleton.mp he]
        exact ⟨rfl, by simp⟩
    refine ⟨hinv', fun _ => rfl, hsafe' fun e he => (hmem e he).1, ?_, ?_, ?_, ?_, hopen',
      hreached' fun obj ctx he => absurd rfl ((hmem _ he).2 obj ctx)⟩
    · simpa [hn] using hcreated
    · rw [newCtxs_append, deletedCtxs_append, hn, hd, List.append_nil]
      refine hctxs.trans ((hinv.contexts_perm.append_right _).trans ?_)
      exact List.perm_append_comm
    · simpa [ho] using hopened
    · simpa [ho, hc] using hobjs

/-- The invariant holds before the first call. -/
theorem CtxRefs.Inv.init : CtxRefs.Inv {} := by
  have hempty : ∀ handle ctx, (handle, ctx) ∉ (∅ : OrderedMap ℕ ℕ).entries :=
    fun _ _ => List.not_mem_nil
  have hunlisted : ∀ handle, ¬Listed ∅ handle := fun handle => not_exists.mpr (hempty handle)
  refine ⟨?_, fun _ _ _ he => absurd he (hempty _ _), .nil, by simp, by simp [KeyedList.lookup],
    ?_, ?_, ⟨?_, fun handle he => absurd he (hunlisted handle), ?_⟩⟩
  · intro ctx
    exact iff_of_false List.not_mem_nil (not_exists.mpr fun handle => hempty handle ctx)
  · intro tid pc hpc
    cases hpc
  · intro tid tid' pc pc' obj hpc
    cases hpc
  · rintro (tid | obj) handle hkeep
    · cases hkeep
    · cases hkeep.1
  · rintro (tid | obj) owner' handle hkeep
    · cases hkeep
    · cases hkeep.1

/-- The accounts hold in every run that keeps the handles. -/
theorem apiSystem_accounts (h : apiSystem.Run KeepsHandles tr s) : ApiAccounts tr s := by
  induction h with
  | start hs =>
    obtain rfl : _ = ({} : CtxRefs) := hs
    refine ⟨fun _ => .init, by simp, by simp, rfl, .nil, rfl, .nil, ?_, by simp⟩
    rintro obj ctx ⟨handle, -, he⟩
    cases he
  | @next tr s a s' es hrun ha hst ih =>
    have hrunning : s.exited = false := by
      cases hexited : s.exited with
      | false => rfl
      | true => simp [apiSystem, apiStep, hexited] at hst
    exact ih.move hrunning (apiStep_move (ih.inv hrunning) ha hst)

/-- A handle object is handed out once. -/
theorem ApiAccounts.opened_unique (h : ApiAccounts tr s) {ctx' : ℕ} (ho : .opened obj ctx ∈ tr)
    (ho' : .opened obj ctx' ∈ tr) : ctx = ctx' := by
  have hnodup : ((openedObjs tr).map Prod.fst).Nodup := h.opened ▸ List.nodup_range
  have hmem : (obj, ctx) ∈ openedObjs tr := List.mem_filterMap.mpr ⟨_, ho, rfl⟩
  have hmem' : (obj, ctx') ∈ openedObjs tr := List.mem_filterMap.mpr ⟨_, ho', rfl⟩
  exact congrArg Prod.snd (List.inj_on_of_nodup_map hnodup hmem hmem' rfl)

end Accounts

/-! ## The theorems -/

/-- **No context is used after it was deleted.**  Any number of threads call the functions of the
API, in any order of their steps, as long as the application keeps the handles: it calls no function
on a handle object that does not exist or that a call is closing, it closes one when no other call
uses it, and the process ends when no call is in progress.  Then every context and every handle
object that is read or deleted exists, so that none is deleted twice; every search for a handle
succeeds; and a call on a handle object reaches the one context that the object was handed out
for. -/
theorem contexts_never_dangle {tr : List ApiEvent} {s : CtxRefs}
    (h : apiSystem.Run KeepsHandles tr s) :
    (∀ e ∈ tr, e.Safe) ∧ (deletedCtxs tr).Nodup ∧ (closedObjs tr).Nodup ∧
      ∀ obj ctx, .reached obj ctx ∈ tr →
        .opened obj ctx ∈ tr ∧ ∀ ctx', .opened obj ctx' ∈ tr → ctx' = ctx := by
  have hacc := apiSystem_accounts h
  have hctxs : (s.contexts ++ deletedCtxs tr).Nodup :=
    hacc.contexts.nodup_iff.mp (hacc.created ▸ List.nodup_range)
  have hobjs : (s.handles.map Prod.fst ++ closedObjs tr).Nodup :=
    hacc.objects.nodup_iff.mp (hacc.opened ▸ List.nodup_range)
  refine ⟨hacc.safe, (List.nodup_append.mp hctxs).2.1, (List.nodup_append.mp hobjs).2.1, ?_⟩
  intro obj ctx hreached
  have hopened := hacc.reached obj ctx hreached
  exact ⟨hopened, fun ctx' hopened' => hacc.opened_unique hopened' hopened⟩

/-- A thread opens a context.  Another one fails to initialise a second context, while two threads
use the first one; then one of these closes it. -/
def openUseClose : List ApiAction :=
  [.initCtx 0 false, .next 0 {} 0, .initCtx 3 false, .next 0 {} 0, .next 3 {} 0, .next 0 {} 0,
    .next 3 {} 0, .next 0 {} 0, .next 3 { ret := .errorOpenDevFail } 0,
    .callFunction 1 .flushJob (some 0) [] 0, .callFunction 2 .getJobStatus (some 0) [] 0,
    .next 3 {} 0, .next 1 {} 0, .next 2 {} 0, .next 2 {} 0, .next 1 {} 0,
    .deinitCtx 2 (some 0) 0, .next 2 {} 0, .next 2 {} 0]

/-- The second context is deleted, then the first one. -/
theorem contexts_never_dangle_sample :
    ∃ tr s, apiSystem.Run KeepsHandles tr s ∧ .reached 0 0 ∈ tr ∧ deletedCtxs tr = [1, 0] ∧
      closedObjs tr = [0] ∧ ∀ e ∈ tr, e.Safe := by
  obtain ⟨s, tr, hexec, hreached, hdeleted, hclosed⟩ : ∃ s tr,
      apiSystem.exec KeepsHandles {} (openUseClose ++ [.next 2 {} 0, .next 2 {} 0]) = some (s, tr) ∧
      .reached 0 0 ∈ tr ∧ deletedCtxs tr = [1, 0] ∧ closedObjs tr = [0] :=
    ⟨_, _, rfl, by decide, rfl, rfl⟩
  have hrun := System.run_of_exec rfl hexec
  exact ⟨tr, s, hrun, hreached, hdeleted, hclosed, (contexts_never_dangle hrun).1⟩

/-- **No context is lost.**  In such a run each context that was created exists or was deleted; when
no call is in progress, each context that exists belongs to exactly one handle object, and each
handle object has its context, so that failed initialisations and closed handles leave nothing
behind; and none is left when the process has ended. -/
theorem contexts_not_lost {tr : List ApiEvent} {s : CtxRefs}
    (h : apiSystem.Run KeepsHandles tr s) :
    (newCtxs tr).Perm (s.contexts ++ deletedCtxs tr) ∧ (s.exited = true → s.contexts = []) ∧
      (s.exited = false → s.threads = [] →
        (∀ ctx ∈ s.contexts, ∃! obj, obj ∈ s.handles.map Prod.fst ∧ .opened obj ctx ∈ tr) ∧
        ∀ obj ∈ s.handles.map Prod.fst, ∃ ctx ∈ s.contexts, .opened obj ctx ∈ tr) := by
  have hacc := apiSystem_accounts h
  refine ⟨hacc.contexts, hacc.exited, fun hexited hidle => ?_⟩
  have hinv := hacc.inv hexited
  -- no thread keeps an entry, and no handle object is being closed
  have hclosing : ∀ obj, ¬Closing s.threads obj := by
    rintro obj ⟨tid, ht⟩
    rw [hidle] at ht
    cases ht
  have hopens : ∀ obj handle, lookup s.handles obj = some handle →
      ∃ ctx, s.data.lookup handle = some ctx ∧ .opened obj ctx ∈ tr := by
    intro obj handle hlookup
    have hkeep : (RefOwner.object obj).Keeps s.threads s.handles handle :=
      ⟨hlookup, hclosing obj⟩
    obtain ⟨ctx, hmem⟩ := hinv.owned.key _ _ hkeep
    exact ⟨ctx, lookup_eq_some_iff.mpr hmem, hacc.opens obj ctx ⟨handle, hkeep, hmem⟩⟩
  constructor
  · intro ctx hctx
    obtain ⟨handle, hmem⟩ := (hinv.alive ctx).mp hctx
    obtain ⟨tid | obj, hkeep⟩ := hinv.owned.owner handle ⟨ctx, hmem⟩
    · rw [RefOwner.Keeps, hidle] at hkeep
      cases hkeep
    · refine ⟨obj, ⟨isSome_lookup.mp (by rw [hkeep.1]; rfl),
        hacc.opens obj ctx ⟨handle, hkeep, hmem⟩⟩, ?_⟩
      rintro obj' ⟨hobj', hopened'⟩
      obtain ⟨handle', hlookup'⟩ := Option.isSome_iff_exists.mp (isSome_lookup.mpr hobj')
      obtain ⟨ctx', hctx', hopened''⟩ := hopens obj' handle' hlookup'
      obtain rfl := hacc.opened_unique hopened' hopened''
      obtain rfl := hinv.values handle handle' ctx hmem (lookup_eq_some_iff.mp hctx')
      exact RefOwner.object.inj
        (hinv.owned.unique (.object obj') (.object obj) handle ⟨hlookup', hclosing obj'⟩ hkeep)
  · intro obj hobj
    obtain ⟨handle, hlookup⟩ := Option.isSome_iff_exists.mp (isSome_lookup.mpr hobj)
    obtain ⟨ctx, hctx, hopened⟩ := hopens obj handle hlookup
    exact ⟨ctx, (hinv.alive ctx).mpr ⟨handle, lookup_eq_some_iff.mp hctx⟩, hopened⟩

/-- A thread opens a context while another one fails to open a second one. -/
theorem contexts_not_lost_sample :
    ∃ tr s, apiSystem.Run KeepsHandles tr s ∧ newCtxs tr = [0, 1] ∧ s.contexts = [0] ∧
      ∃! obj, obj ∈ s.handles.map Prod.fst ∧ .opened obj 0 ∈ tr := by
  obtain ⟨s, tr, hexec, hnew, hctxs, hexited, hidle⟩ : ∃ s tr,
      apiSystem.exec KeepsHandles {} (openUseClose.take 16) = some (s, tr) ∧
      newCtxs tr = [0, 1] ∧ s.contexts = [0] ∧ s.exited = false ∧ s.threads = [] :=
    ⟨_, _, rfl, rfl, rfl, rfl, rfl⟩
  have hrun := System.run_of_exec rfl hexec
  refine ⟨tr, s, hrun, hnew, hctxs, ?_⟩
  exact ((contexts_not_lost hrun).2.2 hexited hidle).1 0 (by simp [hctxs])

end Aipu
