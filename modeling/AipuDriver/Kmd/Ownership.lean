import Mathlib.Data.List.Perm.Basic
import AipuDriver.Kmd.Canonical
import AipuDriver.Kmd.DriverSteps

/-!
# Who owns the memory

The memory manager and the buffer lists of the sessions are updated in separate steps.  Every
allocated range is nevertheless owned at every moment: by an entry of the buffer list of a session,
or by a call between its two steps.  Only an entry whose memory was freed by the release of its
file, and which is about to be taken off the list, owns nothing.

`Kmd.OwnInv` states this with a list of ranges that were lost for good, because the entry of a
buffer could not be allocated; the list is empty when kernel allocations succeed.
-/

namespace Aipu

open ListSearch Transition

/-! ## Owners -/

/-- The range of a buffer of a session. -/
def SessionBuf.range (sbuf : SessionBuf) : ℕ × ℕ := (sbuf.desc.pa, sbuf.desc.bytes)

/-- The ranges that the buffers of a file own. -/
def KmdFile.owned (f : KmdFile) : List (ℕ × ℕ) :=
  match f.phase with
  | .freed _ => f.session.sbufList.tail.map SessionBuf.range
  | _ => f.session.sbufList.map SessionBuf.range

/-- The range that a call owns between its two steps. -/
def KmdOp.owned : KmdOp → List (ℕ × ℕ)
  | .reqbuf _ _ buf => [(buf.pa, buf.bytes)]
  | .freebuf _ desc => [desc.range]
  | .runjob _ _ _ => []

/-- All ranges with an owner, each as often as it is owned. -/
def Kmd.owned (k : Kmd) : List (ℕ × ℕ) :=
  k.files.flatMap KmdFile.owned ++ k.ops.flatMap KmdOp.owned

/-- What the phase of a file says about its session. -/
def KmdFile.PhaseOk (f : KmdFile) : Prop :=
  match f.phase with
  | .opened | .canceled => True
  | .freeing => f.session.jobList = []
  | .freed desc => f.session.jobList = [] ∧
      ∃ sbuf rest, f.session.sbufList = sbuf :: rest ∧ sbuf.range = desc.range
  | .buffersFreed => f.session.jobList = [] ∧ f.session.sbufList = []
  | .failed => False

/-- The ownership invariant: exactly the ranges with an owner and the lost ones are allocated. -/
structure Kmd.OwnInv (k : Kmd) (lost : List (ℕ × ℕ)) : Prop where
  mm : k.mm.Inv
  owned : k.mm.allocated.Perm (k.owned ++ lost)
  phase : ∀ f ∈ k.files, f.PhaseOk

/-- Two ranges share no byte. -/
def RangesDisjoint (x y : ℕ × ℕ) : Prop := x.1 + x.2 ≤ y.1 ∨ y.1 + y.2 ≤ x.1

/-- The descriptor search fails exactly when no buffer has the range. -/
theorem findBufferBydescNoLock_eq_none {session : AipuSession} {desc : BufDesc} :
    findBufferBydescNoLock session desc = none ↔
      ∀ sbuf ∈ session.sbufList, sbuf.range ≠ desc.range := by
  simp [findBufferBydescNoLock, seek_eq_none, SessionBuf.range, BufDesc.range]

/-- The buffer found by its descriptor has the range of the descriptor, and no earlier buffer
has it. -/
theorem findBufferBydescNoLock_eq_some {session : AipuSession} {desc : BufDesc}
    {d : Cursor SessionBuf} (h : findBufferBydescNoLock session desc = some d) :
    session.sbufList = d.toList ∧ d.entry.range = desc.range ∧
      ∀ sbuf ∈ d.before, sbuf.range ≠ desc.range := by
  obtain ⟨hl, hp, hb⟩ := seek_eq_some h
  refine ⟨hl, ?_, fun sbuf hs => ?_⟩
  · simpa [SessionBuf.range, BufDesc.range] using hp
  · simpa [SessionBuf.range, BufDesc.range] using hb sbuf hs

/-! ## Preservation -/

section Preservation

variable {k k' : Kmd} {es : List KmdEvent} {lost : List (ℕ × ℕ)} {c : Cursor KmdFile}
  {f' : KmdFile}

/-- Replacing one file keeps the ownership invariant, when what the memory manager and the other
owners gain is what the file loses. -/
theorem Kmd.OwnInv.edit (h : k.OwnInv lost) (hl : k.files = c.toList)
    (hfiles : k'.files = c.before ++ f' :: c.after) (hmm : k'.mm.Inv)
    (hphase : c.entry.PhaseOk → f'.PhaseOk)
    (hperm : (k'.mm.allocated ++ (c.entry.owned ++ k.ops.flatMap KmdOp.owned)).Perm
      (k.mm.allocated ++ (f'.owned ++ k'.ops.flatMap KmdOp.owned))) : k'.OwnInv lost := by
  refine ⟨hmm, ?_, Kmd.forall_replaced h.phase hl hfiles hphase⟩
  have howned := h.owned
  simp only [Kmd.owned, hl, Cursor.toList, hfiles, List.flatMap_append, List.flatMap_cons,
    List.perm_iff_count, List.count_append] at howned hperm ⊢
  intro x
  have h1 := howned x
  have h2 := hperm x
  omega

/-- A change of one file that concerns neither its buffers nor the memory manager. -/
theorem Kmd.OwnInv.edit_same (h : k.OwnInv lost) (hl : k.files = c.toList)
    (hfiles : k'.files = c.before ++ f' :: c.after) (hmm : k'.mm = k.mm)
    (hops : k'.ops.flatMap KmdOp.owned = k.ops.flatMap KmdOp.owned)
    (hphase : c.entry.PhaseOk → f'.PhaseOk) (howned : f'.owned = c.entry.owned) :
    k'.OwnInv lost :=
  h.edit hl hfiles (hmm ▸ h.mm) hphase (by rw [hmm, hops, howned])

/-- A change that concerns the job manager and calls without memory only. -/
theorem Kmd.OwnInv.of_same (h : k.OwnInv lost) (hmm : k'.mm = k.mm) (hfiles : k'.files = k.files)
    (hops : (k.ops.flatMap KmdOp.owned).Perm (k'.ops.flatMap KmdOp.owned)) : k'.OwnInv lost := by
  refine ⟨hmm ▸ h.mm, ?_, hfiles ▸ h.phase⟩
  rw [hmm, Kmd.owned, hfiles]
  exact h.owned.trans ((hops.append_left _).append_right _)

/-- What an operation owns is taken off with it. -/
theorem ops_erase_perm {op : KmdOp} (hop : op ∈ k.ops) :
    (k.ops.flatMap KmdOp.owned).Perm (op.owned ++ (k.ops.erase op).flatMap KmdOp.owned) :=
  (List.perm_cons_erase hop).flatMap_right _

/-- In the phases before the release frees memory, a file owns all its buffers. -/
theorem KmdFile.owned_eq {f : KmdFile} (h : ∀ desc, f.phase ≠ .freed desc) :
    f.owned = f.session.sbufList.map SessionBuf.range := by
  unfold KmdFile.owned
  split
  · rename_i desc hdesc
    exact absurd hdesc (h desc)
  · rfl

variable {file : ℕ}

/-- `IPUIOC_REQBUF`, first step: the range goes from the memory manager to the call. -/
theorem reqbufAlloc_own {tid : ℤ} {kz : Oracle} {req : BufRequest} {buf : AipuBuffer}
    (hI : k.OwnInv lost) (hreq : req.NoWrap k.mm.version)
    (h : reqbufAlloc k file tid kz req buf = some (k', es)) : k'.OwnInv lost := by
  obtain ⟨c, r, -, halloc, hr⟩ := reqbufAlloc_cases h
  rcases aipuMmAlloc_spec hI.mm hreq halloc with ⟨hret, hmem⟩ | ⟨hret, hgrant⟩
  · obtain ⟨hret', -⟩ | ⟨-, rfl, -⟩ := hr
    · exact absurd hret' hret
    · exact hI.of_same hmem rfl (.refl _)
  · obtain ⟨-, rfl, -⟩ | ⟨hret', -⟩ := hr
    · refine ⟨hgrant.inv, hgrant.allocated.trans ((hI.owned.cons _).trans ?_), hI.phase⟩
      rw [Kmd.owned, Kmd.owned, List.flatMap_cons, KmdOp.owned]
      simp only [List.perm_iff_count, List.count_append, List.count_cons, List.count_nil]
      omega
    · exact absurd hret hret'

/-- `IPUIOC_REQBUF`, second step: the range goes to the session, or is lost. -/
theorem reqbufAdd_own {req : BufRequest} {buf : AipuBuffer} {kzOk : Bool} (hI : k.OwnInv lost)
    (h : reqbufAdd k file req buf kzOk = some (k', es)) :
    ∃ more, k'.OwnInv (more ++ lost) ∧ (kzOk = true → more = []) := by
  obtain ⟨hop, c, ret, hc, -, ⟨-, rfl⟩ | ⟨hkz, rfl⟩⟩ := reqbufAdd_cases h
  · obtain ⟨hl, -, hphase⟩ := Kmd.inPhase_eq_some hc
    have hops := ops_erase_perm hop
    refine ⟨[], hI.edit hl rfl hI.mm (fun _ => by simp [KmdFile.PhaseOk, hphase]) ?_, fun _ => rfl⟩
    rw [KmdFile.owned_eq (by simp [hphase]), KmdFile.owned_eq (by simp [hphase])]
    refine List.Perm.append_left _ ((hops.append_left _).trans ?_)
    exact List.perm_middle
  · refine ⟨[(buf.pa, buf.bytes)], ⟨hI.mm, hI.owned.trans ?_, hI.phase⟩, by simp [hkz]⟩
    have hops := ops_erase_perm hop
    simp only [Kmd.owned, KmdOp.owned, List.perm_iff_count, List.count_append, List.count_cons,
      List.count_nil] at hops ⊢
    intro x
    have := hops x
    omega

/-- `IPUIOC_FREEBUF`, first step: the range goes from the session to the call. -/
theorem freebufDetach_own {desc : BufDesc} (hI : k.OwnInv lost)
    (h : freebufDetach k file desc = some (k', es)) : k'.OwnInv lost := by
  obtain ⟨c, hc, ⟨d, hd, -, rfl⟩ | ⟨-, rfl, -⟩⟩ := freebufDetach_cases h
  · obtain ⟨hl, -, hphase⟩ := Kmd.inPhase_eq_some hc
    obtain ⟨hbufs, hrange, -⟩ := findBufferBydescNoLock_eq_some hd
    refine hI.edit hl rfl hI.mm (fun _ => by simp [KmdFile.PhaseOk, hphase]) ?_
    rw [KmdFile.owned_eq (by simp [hphase]), KmdFile.owned_eq (by simp [hphase]), hbufs]
    simp only [Cursor.toList, List.map_append, List.map_cons, hrange, List.flatMap_cons,
      KmdOp.owned, List.append_assoc, Kmd.setFile_mm]
    refine List.Perm.append_left _ (List.Perm.append_left _ ?_)
    exact List.perm_middle.symm
  · exact hI

/-- An owned range can be freed. -/
theorem Kmd.OwnInv.free (hI : k.OwnInv lost) {desc : BufDesc} (hmem : desc.range ∈ k.owned) :
    ∃ mm', aipuMmFree k.mm desc = (0, mm') ∧ MmReleased k.mm mm' desc.range :=
  aipuMmFree_spec hI.mm (hI.owned.mem_iff.mpr (List.mem_append_left _ hmem))

/-- `IPUIOC_FREEBUF`, second step: `aipu_mm_free` succeeds, and the range goes back. -/
theorem freebufFree_own {desc : BufDesc} (hI : k.OwnInv lost)
    (h : freebufFree k file desc = some (k', es)) :
    k'.OwnInv lost ∧ ∀ desc ret, .freed desc ret ∈ es → ret = 0 := by
  obtain ⟨hop, rfl, rfl⟩ := freebufFree_cases h
  have hops := ops_erase_perm hop
  have hmem : desc.range ∈ k.owned :=
    List.mem_append_right _ (hops.mem_iff.mpr (by simp [KmdOp.owned]))
  obtain ⟨mm', hfree, hrel⟩ := hI.free hmem
  rw [hfree]
  refine ⟨⟨hrel.inv, ?_, hI.phase⟩, by simp⟩
  have howned := hI.owned
  have hmm := hrel.allocated
  simp only [Kmd.owned, KmdOp.owned, List.perm_iff_count, List.count_append, List.count_cons,
    List.count_nil] at hops howned hmm ⊢
  intro x
  have h1 := hops x
  have h2 := howned x
  have h3 := hmm x
  omega

/-- The first half of the loop of `aipu_mm_free_session_buffers`: `aipu_mm_free` succeeds. -/
theorem releaseFree_own (hI : k.OwnInv lost) (h : releaseFree k file = some (k', es)) :
    k'.OwnInv lost ∧ ∀ desc ret, .freed desc ret ∈ es → ret = 0 := by
  obtain ⟨c, hc, ⟨hnil, rfl, rfl⟩ | ⟨sbuf, rest, desc, hcons, hpa, hbytes, rfl, rfl⟩⟩ :=
    releaseFree_cases h
  all_goals obtain ⟨hl, -, hphase⟩ := Kmd.inPhase_eq_some hc
  · refine ⟨hI.edit_same hl rfl rfl rfl ?_ ?_, by simp⟩
    · simp [KmdFile.PhaseOk, hphase, hnil]
    · simp [KmdFile.owned, hphase]
  · have hrange : sbuf.range = desc.range := by simp [SessionBuf.range, BufDesc.range, hpa, hbytes]
    have howned : c.entry.owned = desc.range :: rest.map SessionBuf.range := by
      rw [KmdFile.owned_eq (by simp [hphase]), hcons, List.map_cons, hrange]
    have hmem : desc.range ∈ k.owned := List.mem_append_left _
      (List.mem_flatMap.mpr ⟨c.entry, hl ▸ c.entry_mem, by simp [howned]⟩)
    obtain ⟨mm', hfree, hrel⟩ := hI.free hmem
    rw [hfree]
    refine ⟨hI.edit hl rfl hrel.inv ?_ ?_, by simp⟩
    · intro hok
      have hjobs : c.entry.session.jobList = [] := by simpa [KmdFile.PhaseOk, hphase] using hok
      exact ⟨hjobs, sbuf, rest, hcons, hrange⟩
    · have hnew :
          KmdFile.owned { c.entry with phase := if (0 : ℤ) = 0 then .freed desc else .failed }
          = rest.map SessionBuf.range := by simp [KmdFile.owned, hcons]
      rw [hnew, howned, List.cons_append]
      exact List.perm_middle.trans (hrel.allocated.symm.append_right _)

/-- The second half of the loop of `aipu_mm_free_session_buffers` takes the entry whose memory was
freed off the list: it is the first one, so the file owns what it owned before. -/
theorem releaseDetach_same (hphases : ∀ f ∈ k.files, f.PhaseOk)
    (h : releaseDetach k file = some (k', es)) :
    ∃ c f', k.files = c.toList ∧ c.entry.id = file ∧ k' = k.setFile c f' ∧
      f'.id = c.entry.id ∧ f'.PhaseOk ∧ f'.owned = c.entry.owned := by
  obtain ⟨c, desc, hc, hphase, -, hcase⟩ := releaseDetach_cases h
  obtain ⟨hl, hid, -⟩ := seek_eq_some hc
  have hok := hphases c.entry (hl ▸ c.entry_mem)
  obtain ⟨hjobs, sbuf, rest, hcons, hrange⟩ : c.entry.session.jobList = [] ∧
      ∃ sbuf rest, c.entry.session.sbufList = sbuf :: rest ∧ sbuf.range = desc.range := by
    simpa [KmdFile.PhaseOk, hphase] using hok
  obtain ⟨d, hd, rfl⟩ | ⟨hnone, -⟩ := hcase
  · obtain ⟨hbufs, -, hbefore⟩ := findBufferBydescNoLock_eq_some hd
    have hfirst : d.before = [] := by
      cases hb : d.before with
      | nil => rfl
      | cons x xs =>
        obtain ⟨rfl, -⟩ : sbuf = x ∧ _ := by simpa [hcons, Cursor.toList, hb] using hbufs
        exact absurd hrange (hbefore sbuf (by simp [hb]))
    have hafter : d.after = rest := by
      have := hcons.symm.trans hbufs
      rw [Cursor.toList, hfirst, List.nil_append] at this
      exact (List.cons.inj this).2.symm
    refine ⟨c, _, hl, by simpa using hid, rfl, rfl, hjobs, ?_⟩
    simp [KmdFile.owned, hphase, hfirst, hafter, hcons]
  · exact absurd hrange (findBufferBydescNoLock_eq_none.mp hnone sbuf (by simp [hcons]))

/-- So it keeps the ownership invariant. -/
theorem releaseDetach_own (hI : k.OwnInv lost) (h : releaseDetach k file = some (k', es)) :
    k'.OwnInv lost := by
  obtain ⟨c, f', hl, -, rfl, -, hok, howned⟩ := releaseDetach_same hI.phase h
  exact hI.edit_same hl rfl rfl rfl (fun _ => hok) howned

/-- The end of a release removes a file that owns nothing. -/
theorem releaseDestroy_own (hI : k.OwnInv lost) (h : releaseDestroy k file = some (k', es)) :
    k'.OwnInv lost := by
  obtain ⟨c, ret, hc, -, hcase⟩ := releaseDestroy_cases h
  obtain ⟨hl, -, hphase⟩ := Kmd.inPhase_eq_some hc
  have hok : c.entry.session.jobList = [] ∧ c.entry.session.sbufList = [] := by
    simpa [KmdFile.PhaseOk, hphase] using hI.phase c.entry (hl ▸ c.entry_mem)
  obtain ⟨-, -, rfl⟩ | ⟨hnot, -⟩ := hcase
  · have hnone : c.entry.owned = [] := by simp [KmdFile.owned, hphase, hok.2]
    refine ⟨hI.mm, ?_, fun f hf => hI.phase f ?_⟩
    · have howned := hI.owned
      simpa [Kmd.owned, hl, Cursor.toList, hnone] using howned
    · rw [hl, Cursor.mem_toList]
      rcases List.mem_append.mp hf with hf | hf
      · exact .inl hf
      · exact .inr (.inr hf)
  · exact absurd hok hnot

/-- `aipu_session_job_done` finds no job where the session jobs were deleted. -/
theorem bottomHalfDone_own (hI : k.OwnInv lost) (h : bottomHalfDone k = some (k', es)) :
    k'.OwnInv lost := by
  obtain ⟨curr, next, woken, -, -, ⟨c, d, hc, hd, rfl, -⟩ | ⟨-, rfl⟩⟩ := bottomHalfDone_cases h
  · obtain ⟨hl, -, -⟩ := seek_eq_some hc
    have hjobs : c.entry.session.jobList ≠ [] := by
      rw [(seek_eq_some hd).1]
      simp [Cursor.toList]
    refine hI.edit_same hl rfl rfl rfl (fun hok => ?_) rfl
    unfold KmdFile.PhaseOk at hok ⊢
    dsimp only
    split at hok <;> simp_all
  · exact hI.of_same rfl rfl (.refl _)

/-- A change of an open file that leaves its buffers and the memory manager alone. -/
theorem Kmd.OwnInv.edit_opened (hI : k.OwnInv lost) (hc : k.inPhase file .opened = some c)
    (hfiles : k'.files = c.before ++ f' :: c.after) (hphase : f'.phase = c.entry.phase)
    (hbufs : f'.session.sbufList.map SessionBuf.range =
      c.entry.session.sbufList.map SessionBuf.range) (hmm : k'.mm = k.mm)
    (hops : k'.ops.flatMap KmdOp.owned = k.ops.flatMap KmdOp.owned) : k'.OwnInv lost := by
  obtain ⟨hl, -, hphase'⟩ := Kmd.inPhase_eq_some hc
  rw [hphase'] at hphase
  refine hI.edit_same hl hfiles hmm hops (fun _ => by simp [KmdFile.PhaseOk, hphase]) ?_
  rw [KmdFile.owned_eq (by simp [hphase]), KmdFile.owned_eq (by simp [hphase']), hbufs]

end Preservation

/-! ## Runs -/

/-- No request of a step is close to the end of the address space. -/
def Kmd.requestOk (k : Kmd) : KmdAction → Bool
  | .reqAlloc _ _ _ req _ => decide (req.NoWrap k.mm.version)
  | _ => true

/-- The entry of a buffer can be allocated. -/
def KmdAction.entryOk : KmdAction → Bool
  | .reqAdd _ _ _ kzOk => kzOk
  | _ => true

/-- No call of `aipu_mm_free` failed. -/
def FreesSucceed (es : List KmdEvent) : Prop := ∀ desc ret, .freed desc ret ∈ es → ret = 0

theorem freesSucceed_jobs (k : Kmd) (jes : List JmEvent) :
    FreesSucceed (jes.map fun e => .job e (k.alive e)) := by simp [FreesSucceed]

/-- Every step keeps the ownership invariant, loses a range only where the entry of a buffer could
not be allocated, and `aipu_mm_free` does not fail in it. -/
theorem kmdStep_own {k k' : Kmd} {a : KmdAction} {es : List KmdEvent} {lost : List (ℕ × ℕ)}
    (hI : k.OwnInv lost) (hreq : k.requestOk a = true) (h : kmdStep k a = some (k', es)) :
    (∃ more, k'.OwnInv (more ++ lost) ∧ (a.entryOk = true → more = [])) ∧ FreesSucceed es := by
  have hrun : ∀ ja, k.runJm ja = some (k', es) → k'.OwnInv lost ∧ FreesSucceed es := by
    intro ja h
    obtain ⟨js, jes, -, rfl, rfl⟩ := Kmd.runJm_cases h
    exact ⟨hI.of_same rfl rfl (.refl _), freesSucceed_jobs k jes⟩
  suffices hkeep : (∀ file req buf kzOk, a ≠ .reqAdd file req buf kzOk) → k'.OwnInv lost ∧
      FreesSucceed es by
    by_cases hadd : ∀ file req buf kzOk, a ≠ .reqAdd file req buf kzOk
    · obtain ⟨hI', hes⟩ := hkeep hadd
      exact ⟨⟨[], hI', fun _ => rfl⟩, hes⟩
    · simp only [not_forall, not_not] at hadd
      obtain ⟨file, req, buf, kzOk, rfl⟩ := hadd
      refine ⟨reqbufAdd_own hI h, ?_⟩
      obtain ⟨-, c, ret, -, rfl, -⟩ := reqbufAdd_cases h
      simp [FreesSucceed]
  intro hadd
  cases a with
  | reqAdd file req buf kzOk => exact absurd rfl (hadd file req buf kzOk)
  | openFile pid kz =>
    rcases aipuOpen_cases h with ⟨rfl, rfl⟩ | ⟨rfl, rfl⟩
    · exact ⟨⟨hI.mm, hI.owned, by simpa [KmdFile.PhaseOk] using hI.phase⟩, by simp [FreesSucceed]⟩
    · exact ⟨hI, by simp [FreesSucceed]⟩
  | reqAlloc file tid kz req buf =>
    refine ⟨reqbufAlloc_own hI (by simpa [Kmd.requestOk] using hreq) h, ?_⟩
    obtain ⟨c, r, -, -, ⟨-, -, rfl⟩ | ⟨-, -, rfl⟩⟩ := reqbufAlloc_cases h <;> simp [FreesSucceed]
  | freeDetach file desc =>
    refine ⟨freebufDetach_own hI h, ?_⟩
    obtain ⟨c, -, ⟨d, -, rfl, -⟩ | ⟨-, -, rfl⟩⟩ := freebufDetach_cases h <;> simp [FreesSucceed]
  | freeMm file desc => exact freebufFree_own hI h
  | mmap file vma err =>
    obtain ⟨c, ret, hc, rfl, ⟨d, range, hd, -, rfl⟩ | rfl⟩ := aipuMmap_cases h
    · refine ⟨hI.edit_opened hc rfl rfl ?_ rfl rfl,
        by simp [FreesSucceed]⟩
      simp [(seek_eq_some hd).1, Cursor.toList, SessionBuf.range]
    · exact ⟨hI, by simp [FreesSucceed]⟩
  | munmap file map front len =>
    obtain ⟨c, hc, -, -, rfl, rfl⟩ := munmapPages_cases h
    exact ⟨hI.edit_opened hc rfl rfl rfl rfl rfl, by simp [FreesSucceed]⟩
  | runAdd file tid userJob kz =>
    obtain ⟨c, hc, ⟨waitQueue, userJob', rfl, -, -, rfl⟩ | ⟨rfl, rfl⟩⟩ := runjobAdd_cases h
    · exact ⟨hI.edit_opened hc rfl rfl rfl rfl rfl,
        by simp [FreesSucceed]⟩
    · exact ⟨hI, by simp [FreesSucceed]⟩
  | runSchedule file userJob kernJob kzOk stale =>
    obtain ⟨hop, ⟨-, js, jes, -, rfl, rfl⟩ | ⟨-, rfl, rfl⟩⟩ := runjobSchedule_cases h
    all_goals exact ⟨hI.of_same rfl rfl (ops_erase_perm hop), by simp [FreesSucceed]⟩
  | kill file tid jobId stale =>
    obtain ⟨js, jes, -, rfl, rfl⟩ := killTimeoutJob_cases h
    exact ⟨hI.of_same rfl rfl (.refl _), freesSucceed_jobs k jes⟩
  | query file query kzOk notCopied notCopiedQuery =>
    obtain ⟨c, ret, kept, taken, hc, -, -, -, rfl, rfl⟩ := queryStatus_cases h
    exact ⟨hI.edit_opened hc rfl rfl rfl rfl rfl, by simp [FreesSucceed]⟩
  | pollRegister file tid =>
    obtain ⟨c, single, queues, hc, rfl, rfl⟩ := aipuPollRegister_cases h
    exact ⟨hI.edit_opened hc rfl rfl rfl rfl rfl, by simp [FreesSucceed]⟩
  | pollCheck file tid =>
    obtain ⟨rfl, ready, rfl⟩ := aipuPollCheck_cases h
    exact ⟨hI, by simp [FreesSucceed]⟩
  | upperHalf flag stale => exact hrun (.upperHalf (k.mem stale) flag) h
  | queueWork => exact hrun .queueWork h
  | bhStart => exact hrun .bhStart h
  | bhDone =>
    refine ⟨bottomHalfDone_own hI h, ?_⟩
    obtain ⟨curr, next, woken, -, rfl, -⟩ := bottomHalfDone_cases h
    simp [FreesSucceed]
  | bhResume => exact hrun .bhResume h
  | relCancel file stale =>
    obtain ⟨c, js, jes, hc, -, -, -, rfl, rfl⟩ := releaseCancel_cases h
    obtain ⟨hl, -, hphase⟩ := Kmd.inPhase_eq_some hc
    refine ⟨hI.edit_same hl rfl rfl rfl (fun _ => trivial) ?_, freesSucceed_jobs k jes⟩
    simp [KmdFile.owned, hphase]
  | relDelete file =>
    obtain ⟨c, hc, rfl, rfl⟩ := releaseDelete_cases h
    obtain ⟨hl, -, hphase⟩ := Kmd.inPhase_eq_some hc
    refine ⟨hI.edit_same hl rfl rfl rfl (fun _ => rfl) ?_, by simp [FreesSucceed]⟩
    simp [KmdFile.owned, hphase]
  | relFree file => exact releaseFree_own hI h
  | relDetach file =>
    refine ⟨releaseDetach_own hI h, ?_⟩
    obtain ⟨c, desc, -, -, rfl, -⟩ := releaseDetach_cases h
    simp [FreesSucceed]
  | relDestroy file =>
    refine ⟨releaseDestroy_own hI h, ?_⟩
    obtain ⟨c, ret, -, rfl, -⟩ := releaseDestroy_cases h
    simp [FreesSucceed]

/-- The ownership invariant holds of every run whose requests are far from the end of the address
space, no call of `aipu_mm_free` fails in it, and no range is lost when the entries of the buffers
can be allocated. -/
theorem kmdSystem_own {version : AipuVersion} {map : MemoryMap} {maxSchedNum : ℤ}
    {C : Kmd → KmdAction → Prop} (hreq : ∀ k a, C k a → k.requestOk a = true)
    {tr : List KmdEvent} {k : Kmd} (h : (kmdSystem version map maxSchedNum).Run C tr k) :
    ∃ lost, k.OwnInv lost ∧ ((∀ k a, C k a → a.entryOk = true) → lost = []) ∧ FreesSucceed tr := by
  refine h.invariant (I := fun tr k => ∃ lost, k.OwnInv lost ∧
    ((∀ k a, C k a → a.entryOk = true) → lost = []) ∧ FreesSucceed tr) ?_ ?_
  · rintro k ⟨hbring, -, hfiles, hops⟩
    obtain ⟨mm, hmm, hinv, hocc⟩ := bringUp_inv version map
    obtain rfl : mm = k.mm := Option.some.inj (hmm.symm.trans hbring)
    exact ⟨[], ⟨hinv, by simp [hocc, Kmd.owned, hfiles, hops], by simp [hfiles]⟩, fun _ => rfl,
      by simp [FreesSucceed]⟩
  · rintro tr k a k' es ⟨lost, hI, hlost, hfrees⟩ hC hst
    obtain ⟨⟨more, hI', hmore⟩, hes⟩ := kmdStep_own hI (hreq k a hC) hst
    refine ⟨more ++ lost, hI', fun hentry => ?_, fun desc ret hmem => ?_⟩
    · rw [hlost hentry, hmore (hentry k a hC), List.append_nil]
    · rcases List.mem_append.mp hmem with hmem | hmem
      · exact hfrees desc ret hmem
      · exact hes desc ret hmem

/-- The request of a step, if any, is for less than four gigabytes. -/
def KmdAction.smallRequest : KmdAction → Bool
  | .reqAlloc _ _ _ req _ => decide (req.bytes < 2 ^ 32)
  | _ => true

/-- The condition on the steps of a run: requests are small and the entries of buffers can be
allocated. -/
def BuffersServed (_ : Kmd) (a : KmdAction) : Prop := a.smallRequest = true ∧ a.entryOk = true

instance : DecidableRel BuffersServed := fun _ _ => inferInstanceAs (Decidable (_ ∧ _))

/-- A small request is far from the end of the address space. -/
theorem requestOk_of_small {k : Kmd} {a : KmdAction} (h : a.smallRequest = true) :
    k.requestOk a = true := by
  cases a with
  | reqAlloc file tid kz req buf =>
    have hlt : req.bytes < 2 ^ 32 := by simpa [KmdAction.smallRequest] using h
    simpa [Kmd.requestOk] using BufRequest.noWrap_of_lt k.mm.version hlt
  | _ => rfl

/-- **Buffer ownership.**  In every reachable state the allocated ranges are exactly the ranges
that an entry of a buffer list or a call between its two steps owns, each owned once, and no two of
them share a byte; no call of `aipu_mm_free` has failed, in particular none after a successful
`aipu_session_detach_buf`; and a FREEBUF whose descriptor is in no entry of the caller's list
changes nothing. -/
theorem buffer_ownership (version : AipuVersion) (map : MemoryMap) (maxSchedNum : ℤ)
    {tr : List KmdEvent} {k : Kmd}
    (h : (kmdSystem version map maxSchedNum).Run BuffersServed tr k) :
    k.mm.allocated.Perm k.owned ∧ k.owned.Nodup ∧ k.owned.Pairwise RangesDisjoint ∧
      (∀ desc ret, .freed desc ret ∈ tr → ret = 0) ∧
      ∀ file desc k' es, kmdStep k (.freeDetach file desc) = some (k', es) →
        (∀ f ∈ k.files, f.id = file → ∀ sbuf ∈ f.session.sbufList, sbuf.range ≠ desc.range) →
        k' = k := by
  obtain ⟨lost, hI, hlost, hfrees⟩ := kmdSystem_own (fun k a hC => requestOk_of_small hC.1) h
  obtain rfl := hlost fun k a hC => hC.2
  have howned : k.mm.allocated.Perm k.owned := by simpa using hI.owned
  have hnodup : k.owned.Nodup := howned.nodup_iff.mp hI.mm.nodup
  refine ⟨howned, hnodup, hnodup.pairwise_of_forall_ne fun x hx y hy hne => ?_, hfrees, ?_⟩
  · by_contra hoverlap
    unfold RangesDisjoint at hoverlap
    exact hne (hI.mm.eq_of_overlap (howned.mem_iff.mpr hx) (howned.mem_iff.mpr hy) (by omega)
      (by omega))
  · intro file desc k' es hst hforeign
    obtain ⟨c, hc, ⟨d, hd, -⟩ | ⟨-, rfl, -⟩⟩ := freebufDetach_cases hst
    · obtain ⟨hl, hid, -⟩ := Kmd.inPhase_eq_some hc
      obtain ⟨hbufs, hrange, -⟩ := findBufferBydescNoLock_eq_some hd
      exact absurd hrange (hforeign c.entry (hl ▸ c.entry_mem) hid d.entry (hbufs ▸ d.entry_mem))
    · rfl

/-! ## A sample run -/

/-- The driver of the sample platform before the first file is opened. -/
def sampleKmd : Kmd :=
  { mm := sampleMm, js := .initial 1 false [], files := [], ops := [], nextFile := 0,
    nextSessionJob := 0 }

theorem sampleKmd_init : (kmdSystem .zhouyiV2 sampleMap 1).init sampleKmd :=
  ⟨bringUp_sample, ⟨[], rfl⟩, rfl, rfl⟩

/-- Two sessions: the first frees one of its buffers while the second requests one, then the first
file is released. -/
theorem buffer_ownership_sample :
    ∃ k : Kmd, k.owned = [(0x106000, 0x1000)] ∧ k.files.map (·.id) = [1] ∧
      k.mm.allocated.Perm k.owned := by
  have hexec : ∃ k es, (kmdSystem .zhouyiV2 sampleMap 1).exec BuffersServed sampleKmd
      [.openFile 7 [], .openFile 9 [],
        .reqAlloc 0 7 [] { bytes := 5000, alignInPage := 1, dataType := aipuMmDataTypeText } {},
        .reqAdd 0 { bytes := 5000, alignInPage := 1, dataType := aipuMmDataTypeText }
          { pa := 0x100000, va := 0x40000000, bytes := 0x2000, type := .reserved } true,
        .freeDetach 1 { pa := 0x100000, bytes := 0x2000 },
        .reqAlloc 1 9 [] { bytes := 4096, alignInPage := 2, dataType := aipuMmDataTypeNone } {},
        .relCancel 0 ⟨fun _ => 0, fun _ => 0⟩, .relDelete 0, .relFree 0,
        .reqAdd 1 { bytes := 4096, alignInPage := 2, dataType := aipuMmDataTypeNone }
          { pa := 0x106000, va := 0x40006000, bytes := 0x1000, type := .reserved } true,
        .relDetach 0, .relFree 0, .relDestroy 0] = some (k, es) ∧
      k.owned = [(0x106000, 0x1000)] ∧ k.files.map (·.id) = [1] := ⟨_, _, rfl, rfl, rfl⟩
  obtain ⟨k, es, hexec, howned, hfiles⟩ := hexec
  exact ⟨k, howned, hfiles,
    (buffer_ownership .zhouyiV2 sampleMap 1 (System.run_of_exec sampleKmd_init hexec)).1⟩

end Aipu
