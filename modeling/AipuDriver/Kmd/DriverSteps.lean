import AipuDriver.Kmd.Driver

/-!
# What one step of the driver can do

For every function of the driver an inversion lemma: from a step that was taken, the file on which
it was taken, the tests that succeeded, and the state and the events after it.  The invariants of
the driver are derived from these lemmas and never look into the functions.
-/

namespace Aipu

open ListSearch Transition

variable {k k' : Kmd} {es : List KmdEvent} {file : ℕ} {c : Cursor KmdFile}

/-! ## Files -/

/-- The file found has the number and the phase that were asked for. -/
theorem Kmd.inPhase_eq_some {phase : ReleasePhase} (h : k.inPhase file phase = some c) :
    k.files = c.toList ∧ c.entry.id = file ∧ c.entry.phase = phase := by
  obtain ⟨hl, hp, -⟩ := seek_eq_some h
  exact ⟨hl, by simpa using hp⟩

/-- Putting the same file back changes nothing. -/
theorem Kmd.setFile_self (hl : k.files = c.toList) : k.setFile c c.entry = k := by
  rw [Kmd.setFile, ← Cursor.toList, ← hl]

@[simp] theorem Kmd.setFile_mm (f : KmdFile) : (k.setFile c f).mm = k.mm := rfl

/-- What holds of every file still does after one of them was replaced, when it holds of the new
one. -/
theorem Kmd.forall_replaced {P : KmdFile → Prop} {f' : KmdFile} (h : ∀ f ∈ k.files, P f)
    (hl : k.files = c.toList) (hfiles : k'.files = c.before ++ f' :: c.after)
    (hnew : P c.entry → P f') : ∀ f ∈ k'.files, P f := by
  intro f hf
  rw [hl] at h
  rw [hfiles, List.mem_append, List.mem_cons] at hf
  rcases hf with hf | rfl | hf
  · exact h f (Cursor.mem_toList.mpr (.inl hf))
  · exact hnew (h _ c.entry_mem)
  · exact h f (Cursor.mem_toList.mpr (.inr (.inr hf)))

/-! ## The job manager -/

/-- A step of the job manager changes the job manager only and emits its events. -/
theorem Kmd.runJm_cases {a : JmAction} (h : k.runJm a = some (k', es)) :
    ∃ js jes, jmStep k.js a = some (js, jes) ∧ k' = { k with js := js } ∧
      es = jes.map fun e => .job e (k.alive e) := by
  unfold Kmd.runJm at h
  grind

/-! ## Open and buffers -/

/-- Opening a file adds a session without buffers and jobs, or fails. -/
theorem aipuOpen_cases {pid : ℤ} {kz : Oracle} (h : aipuOpen k pid kz = some (k', es)) :
    (k' = { k with
        files := ⟨k.nextFile, { userPid := pid }, .opened, []⟩ :: k.files
        nextFile := k.nextFile + 1 } ∧ es = [.returned k.nextFile 0]) ∨
      (k' = k ∧ es = [.returned k.nextFile (-enomem)]) := by
  unfold aipuOpen aipuCreateSession at h
  grind

/-- The first step of REQBUF is a call of `aipu_mm_alloc`. -/
theorem reqbufAlloc_cases {tid : ℤ} {kz : Oracle} {req : BufRequest} {buf : AipuBuffer}
    (h : reqbufAlloc k file tid kz req buf = some (k', es)) :
    ∃ c r, k.inPhase file .opened = some c ∧ aipuMmAlloc kz tid k.mm req buf = some r ∧
      ((r.ret = 0 ∧ k' = { k with mm := r.mem, ops := .reqbuf file r.req r.buf :: k.ops } ∧
          es = []) ∨
        (r.ret ≠ 0 ∧ k' = { k with mm := r.mem } ∧ es = [.returned file r.ret])) := by
  unfold reqbufAlloc at h
  grind

/-- The entry that `aipu_session_add_buf` makes for a buffer. -/
def newSessionBuf (buf : AipuBuffer) : SessionBuf :=
  { desc := buf, devOffset := buf.pa, type := buf.type, mapNum := 0 }

/-- The second step of REQBUF adds the buffer to the session, if there is memory for the entry. -/
theorem reqbufAdd_cases {req : BufRequest} {buf : AipuBuffer} {kzOk : Bool}
    (h : reqbufAdd k file req buf kzOk = some (k', es)) :
    .reqbuf file req buf ∈ k.ops ∧ ∃ c ret, k.inPhase file .opened = some c ∧
      es = [.returned file ret] ∧
      ((kzOk = true ∧ k' = { k.setFile c { c.entry with session := { c.entry.session with
          sbufList := newSessionBuf buf :: c.entry.session.sbufList } } with
            ops := k.ops.erase (.reqbuf file req buf) }) ∨
        (kzOk = false ∧ k' = { k with ops := k.ops.erase (.reqbuf file req buf) })) := by
  unfold reqbufAdd aipuSessionAddBuf createSessionBuf at h
  split at h
  case isFalse => cases h
  case isTrue hop =>
    cases hc : k.inPhase file .opened with
    | none => simp [hc] at h
    | some c =>
      have hself := Kmd.setFile_self (Kmd.inPhase_eq_some hc).1
      refine ⟨hop, c, ?_⟩
      cases kzOk with
      | false =>
        simp only [hc, Bool.false_eq_true, if_false, Option.some.injEq, Prod.mk.injEq] at h
        obtain ⟨rfl, rfl⟩ := h
        exact ⟨_, rfl, rfl, .inr ⟨rfl, by rw [hself]⟩⟩
      | true =>
        simp only [hc, if_true, Option.some.injEq, Prod.mk.injEq] at h
        obtain ⟨rfl, rfl⟩ := h
        exact ⟨_, rfl, rfl, .inl ⟨rfl, rfl⟩⟩

/-- The first step of FREEBUF takes the first buffer that matches off the list of the session, or
finds none and changes nothing. -/
theorem freebufDetach_cases {desc : BufDesc} (h : freebufDetach k file desc = some (k', es)) :
    ∃ c, k.inPhase file .opened = some c ∧
      ((∃ d, findBufferBydescNoLock c.entry.session desc = some d ∧ es = [] ∧
          k' = { k.setFile c { c.entry with session := { c.entry.session with
            sbufList := d.before ++ d.after } } with ops := .freebuf file desc :: k.ops }) ∨
        (findBufferBydescNoLock c.entry.session desc = none ∧ k' = k ∧
          es = [.returned file (mapErrcode .itemNotFound)])) := by
  unfold freebufDetach aipuSessionDetachBuf at h
  cases hc : k.inPhase file .opened with
  | none => simp [hc] at h
  | some c =>
    refine ⟨c, rfl, ?_⟩
    cases hd : findBufferBydescNoLock c.entry.session desc with
    | none =>
      have hself := Kmd.setFile_self (Kmd.inPhase_eq_some hc).1
      simp only [hc, hd, mapErrcode_eq_zero, reduceCtorEq, if_false, Option.some.injEq,
        Prod.mk.injEq] at h
      exact .inr ⟨rfl, by rw [← h.1, hself], h.2.symm⟩
    | some d =>
      simp only [hc, hd, if_true, Option.some.injEq, Prod.mk.injEq] at h
      exact .inl ⟨d, rfl, h.2.symm, h.1.symm⟩

/-- The second step of FREEBUF is a call of `aipu_mm_free`. -/
theorem freebufFree_cases {desc : BufDesc} (h : freebufFree k file desc = some (k', es)) :
    .freebuf file desc ∈ k.ops ∧
      k' = { k with mm := (aipuMmFree k.mm desc).2, ops := k.ops.erase (.freebuf file desc) } ∧
      es = [.freed desc (aipuMmFree k.mm desc).1, .returned file (aipuMmFree k.mm desc).1] := by
  unfold freebufFree at h
  grind

/-! ## Mappings -/

/-- The physical range that a successful `aipu_session_mmap_buf` maps: it starts on the page of the
buffer, and in a contiguous buffer of the kernel it has no more pages than the buffer. -/
def MapsOnto (vma : VmAreaStruct) (sbuf : SessionBuf) (range : ℕ × ℕ) : Prop :=
  range = (sbuf.desc.pa / pageSize * pageSize, vma.size) ∧
    (sbuf.type = .cma → vma.size / pageSize ≤ (sbuf.desc.bytes + (pageSize - 1)) / pageSize)

/-- The kernel function maps the buffer, or fails and maps nothing. -/
theorem SessionBuf.mapInto_cases (sbuf : SessionBuf) (err : ℤ) (vma : VmAreaStruct) :
    (∃ range, sbuf.mapInto err vma = (0, some range) ∧ MapsOnto vma sbuf range) ∨
      ∃ ret, sbuf.mapInto err vma = (ret, none) ∧ ret ≠ 0 := by
  unfold SessionBuf.mapInto dmaMmapCoherent remapPfnRange
  by_cases herr : err = 0 <;> cases htype : sbuf.type <;>
    simp only [herr, if_true, if_false]
  case pos.sram | pos.reserved => exact .inl ⟨_, rfl, rfl, by simp [htype]⟩
  case neg.sram | neg.reserved => exact .inr ⟨_, rfl, herr⟩
  case pos.cma =>
    split
    case isTrue hfit => exact .inl ⟨_, rfl, rfl, fun _ => hfit⟩
    case isFalse => exact .inr ⟨_, rfl, by decide⟩
  case neg.cma =>
    split
    · exact .inr ⟨_, rfl, herr⟩
    · exact .inr ⟨_, rfl, by decide⟩

/-- `aipu_session_mmap_buf` maps a buffer that was not mapped before and counts the mapping, or
changes nothing and maps nothing; in both cases the area is given back as it was. -/
theorem aipuSessionMmapBuf_cases (err : ℤ) (session : AipuSession) (vma : VmAreaStruct) :
    (∃ d range, findBufferByoffsetNoLock session (Word.wrap 64 (vma.vmPgoff * pageSize))
          vma.size = some d ∧ d.entry.mapNum = 0 ∧ MapsOnto vma d.entry range ∧
        aipuSessionMmapBuf err session vma = (0, { session with
          sbufList := d.before ++ { d.entry with mapNum := 1 } :: d.after }, vma, some range)) ∨
      ∃ ret, ret ≠ 0 ∧ aipuSessionMmapBuf err session vma = (ret, session, vma, none) := by
  unfold aipuSessionMmapBuf
  cases hd : findBufferByoffsetNoLock session (Word.wrap 64 (vma.vmPgoff * pageSize)) vma.size with
  | none => exact .inr ⟨mapErrcode .itemNotFound, by simp, by simp [hd]⟩
  | some d =>
    by_cases hnum : d.entry.mapNum = 0
    · rcases d.entry.mapInto_cases err { vma with vmPgoff := 0 } with
        ⟨range, hmap, honto⟩ | ⟨ret, hmap, hret⟩
      · exact .inl ⟨d, range, rfl, hnum, honto, by simp [hd, hnum, hmap]⟩
      · exact .inr ⟨ret, hret, by simp [hd, hnum, hmap, hret]⟩
    · exact .inr ⟨mapErrcode .invalidOps, by simp, by simp [hd, hnum]⟩

/-- `aipu_mmap` maps a buffer of the session, or changes nothing. -/
theorem aipuMmap_cases {vma : VmAreaStruct} {err : ℤ}
    (h : aipuMmap k file vma err = some (k', es)) :
    ∃ c ret, k.inPhase file .opened = some c ∧ es = [.returned file ret] ∧
      ((∃ d range,
          findBufferByoffsetNoLock c.entry.session
            (Word.wrap 64 (vma.vmPgoff * pageSize)) vma.size =
            some d ∧ MapsOnto vma d.entry range ∧
          k' = k.setFile c { c.entry with
            session := { c.entry.session with
              sbufList := d.before ++ { d.entry with mapNum := 1 } :: d.after }
            maps := range :: c.entry.maps }) ∨ k' = k) := by
  unfold aipuMmap at h
  cases hc : k.inPhase file .opened with
  | none => simp [hc] at h
  | some c =>
    have hself := Kmd.setFile_self (Kmd.inPhase_eq_some hc).1
    rcases aipuSessionMmapBuf_cases err c.entry.session vma with
      ⟨d, range, hfind, -, honto, hm⟩ | ⟨ret, -, hm⟩
    all_goals
      simp only [hc, hm, Option.some.injEq, Prod.mk.injEq] at h
      obtain ⟨rfl, rfl⟩ := h
    · exact ⟨c, _, rfl, rfl, .inl ⟨d, range, hfind, honto, rfl⟩⟩
    · exact ⟨c, _, rfl, rfl, .inr hself⟩

/-- Unmapping replaces a mapped range by what is left of it. -/
theorem munmapPages_cases {map : ℕ × ℕ} {front len : ℕ}
    (h : munmapPages k file map front len = some (k', es)) :
    ∃ c, k.inPhase file .opened = some c ∧ map ∈ c.entry.maps ∧ front + len ≤ map.2 ∧ es = [] ∧
      k' = k.setFile c { c.entry with
        maps := unmapPart map front len ++ c.entry.maps.erase map } := by
  unfold munmapPages at h
  grind

/-! ## Jobs -/

/-- No queue of a thread is lost when one is created. -/
theorem createThreadWaitQueueNoLock_keeps {kz kz' : Oracle} {head out : List AipuThreadWaitQueue}
    {tid : ℤ} (h : createThreadWaitQueueNoLock kz head tid = some (out, kz')) :
    ∀ queue ∈ head, ∃ queue' ∈ out, queue'.uthreadId = queue.uthreadId := by
  intro queue hqueue
  unfold createThreadWaitQueueNoLock at h
  split at h
  · rename_i c hc
    obtain ⟨rfl, -⟩ := Prod.mk.inj (Option.some.inj h)
    rw [(seek_eq_some hc).1, Cursor.mem_toList] at hqueue
    rcases hqueue with hqueue | rfl | hqueue
    · exact ⟨queue, List.mem_append_left _ hqueue, rfl⟩
    · exact ⟨_, List.mem_append_right _ List.mem_cons_self, rfl⟩
    · exact ⟨queue, List.mem_append_right _ (List.mem_cons_of_mem _ hqueue), rfl⟩
  · dsimp only at h
    split at h
    · obtain ⟨rfl, -⟩ := Prod.mk.inj (Option.some.inj h)
      exact ⟨queue, List.mem_append_left _ hqueue, rfl⟩
    · cases h

/-- The first step of RUNJOB adds a session job and a wait queue of the thread, or fails for lack of
memory and changes nothing. -/
theorem runjobAdd_cases {tid : ℤ} {userJob : UserJob} {kz : Oracle}
    (h : runjobAdd k file tid userJob kz = some (k', es)) :
    ∃ c, k.inPhase file .opened = some c ∧
      ((∃ waitQueue userJob', es = [] ∧ userJob'.desc = userJob.desc ∧
          (∀ queue ∈ c.entry.session.waitQueue,
            ∃ queue' ∈ waitQueue, queue'.uthreadId = queue.uthreadId) ∧
          k' = { k.setFile c { c.entry with session := { c.entry.session with
              jobList := initSessionJob k.nextSessionJob tid userJob.desc ::
                c.entry.session.jobList
              waitQueue := waitQueue } } with
            ops := .runjob file userJob' (initSessionJob k.nextSessionJob tid userJob.desc) :: k.ops
            nextSessionJob := k.nextSessionJob + 1 }) ∨
        (k' = k ∧ es = [.returned file 0])) := by
  unfold runjobAdd aipuSessionAddJob at h
  cases hc : k.inPhase file .opened with
  | none => simp [hc] at h
  | some c =>
    refine ⟨c, rfl, ?_⟩
    have hself := Kmd.setFile_self (Kmd.inPhase_eq_some hc).1
    rcases hkz : kz.next with ⟨ok, kz'⟩
    cases ok with
    | false =>
      simp only [hc, hkz, Bool.false_eq_true, if_false, Option.some.injEq, Prod.mk.injEq] at h
      exact .inr ⟨by rw [← h.1, hself], h.2.symm⟩
    | true =>
      cases hw : createThreadWaitQueueNoLock kz' c.entry.session.waitQueue tid with
      | none => simp [hc, hkz, hw, initSessionJob] at h
      | some out =>
        simp only [hc, hkz, if_true, initSessionJob, hw, Option.some.injEq, Prod.mk.injEq] at h
        exact .inl ⟨out.1, { userJob with errcode := .noError }, h.2.symm, rfl,
          createThreadWaitQueueNoLock_keeps hw, h.1.symm⟩

/-- The second step of RUNJOB submits the job, or fails for lack of memory. -/
theorem runjobSchedule_cases {userJob : UserJob} {kernJob : SessionJob} {kzOk : Bool}
    {stale : SessionMem} (h : runjobSchedule k file userJob kernJob kzOk stale = some (k', es)) :
    .runjob file userJob kernJob ∈ k.ops ∧
      ((kzOk = true ∧ ∃ js jes, jmStep k.js (.submit (k.mem stale)
            ⟨kernJob.uthreadId, userJob.desc, file, kernJob.id⟩) = some (js, jes) ∧
          k' = { k with js := js, ops := k.ops.erase (.runjob file userJob kernJob) } ∧
          es = jes.map (fun e => .job e (k.alive e)) ++ [.returned file 0]) ∨
        (kzOk = false ∧ k' = { k with ops := k.ops.erase (.runjob file userJob kernJob) } ∧
          es = [.returned file (mapErrcode .createKobjErr)])) := by
  unfold runjobSchedule at h
  split at h
  case isFalse => cases h
  case isTrue hop =>
    refine ⟨hop, ?_⟩
    cases kzOk with
    | false =>
      simp only [Bool.false_eq_true, if_false, Option.some.injEq, Prod.mk.injEq] at h
      exact .inr ⟨rfl, h.1.symm, h.2.symm⟩
    | true =>
      simp only [if_true] at h
      split at h
      case h_1 => cases h
      case h_2 k₁ es₁ hrun =>
        obtain ⟨js, jes, hjm, rfl, rfl⟩ := Kmd.runJm_cases hrun
        obtain ⟨rfl, rfl⟩ := Prod.mk.inj (Option.some.inj h)
        exact .inl ⟨rfl, js, jes, hjm, rfl, rfl⟩

/-- KILL_TIMEOUT_JOB is a step of the job manager. -/
theorem killTimeoutJob_cases {tid : ℤ} {jobId : ℕ} {stale : SessionMem}
    (h : killTimeoutJob k file tid jobId stale = some (k', es)) :
    ∃ js jes, jmStep k.js (.kill (k.mem stale) tid jobId) = some (js, jes) ∧
      k' = { k with js := js } ∧ es = jes.map fun e => .job e (k.alive e) := by
  unfold killTimeoutJob at h
  split at h
  · cases h
  · exact Kmd.runJm_cases h

/-- The loop of the status query takes ended jobs that match off the list. -/
theorem collectStatus_spec (query : JobStatusQuery) (pollCnt : ℕ) (l : List SessionJob) :
    ((collectStatus query pollCnt l).1 ++ (collectStatus query pollCnt l).2).Perm l ∧
      (collectStatus query pollCnt l).1.Sublist l ∧
      ∀ sj ∈ (collectStatus query pollCnt l).2, query.matches sj = true := by
  induction l generalizing pollCnt with
  | nil => simp [collectStatus]
  | cons sj l ih =>
    rw [collectStatus]
    split
    · simp
    split
    case isTrue hmatch =>
      split
      · exact ⟨(List.perm_append_singleton _ _), List.sublist_cons_self _ _, by simpa using hmatch⟩
      · obtain ⟨hperm, hsub, hall⟩ := ih (pollCnt + 1)
        refine ⟨List.perm_middle.trans (hperm.cons _), hsub.cons _, ?_⟩
        simpa [hmatch] using hall
    case isFalse =>
      obtain ⟨hperm, hsub, hall⟩ := ih pollCnt
      exact ⟨hperm.cons _, hsub.cons_cons _, hall⟩

/-- `aipu_session_get_job_status` changes nothing but the job list, from which it takes ended jobs
that match. -/
theorem aipuSessionGetJobStatus_spec (kzOk : Bool) (notCopied : ℕ) (session : AipuSession)
    (query : JobStatusQuery) :
    ∃ ret kept query' taken,
      aipuSessionGetJobStatus kzOk notCopied session query =
        ⟨ret, { session with jobList := kept }, query', taken⟩ ∧
      (kept ++ taken).Perm session.jobList ∧ kept.Sublist session.jobList ∧
      ∀ sj ∈ taken, query.matches sj = true := by
  have hnone : (session.jobList ++ []).Perm session.jobList := by simp
  unfold aipuSessionGetJobStatus
  by_cases hcnt : query.maxCnt < 1
  · exact ⟨_, _, _, [], if_pos hcnt, hnone, List.Sublist.refl _, by simp⟩
  rw [if_neg hcnt]
  cases kzOk with
  | false => exact ⟨_, _, _, [], rfl, hnone, List.Sublist.refl _, by simp⟩
  | true =>
    have hspec := collectStatus_spec query 0 session.jobList
    rw [if_pos rfl]
    dsimp only
    split <;> exact ⟨_, _, _, _, rfl, hspec⟩

/-- QUERYSTATUS takes ended session jobs off the list of the session, and copies the records made of
them to user space or loses them. -/
theorem queryStatus_cases {query : JobStatusQuery} {kzOk : Bool} {notCopied notCopiedQuery : ℕ}
    (h : queryStatus k file query kzOk notCopied notCopiedQuery = some (k', es)) :
    ∃ c ret kept taken, k.inPhase file .opened = some c ∧
      (kept ++ taken).Perm c.entry.session.jobList ∧ kept.Sublist c.entry.session.jobList ∧
      (∀ sj ∈ taken, query.matches sj = true) ∧
      k' = k.setFile c { c.entry with session := { c.entry.session with jobList := kept } } ∧
      es = (if notCopied = 0 then
          taken.map fun sj => .reported file sj.id (c.entry.session.statusOf sj)
        else []) ++ [.returned file ret] := by
  unfold queryStatus at h
  cases hc : k.inPhase file .opened with
  | none => simp [hc] at h
  | some c =>
    obtain ⟨ret, kept, query', taken, hr, hperm, hsub, hall⟩ :=
      aipuSessionGetJobStatus_spec kzOk notCopied c.entry.session query
    simp only [hc, hr, Option.some.injEq, Prod.mk.injEq] at h
    obtain ⟨rfl, rfl⟩ := h
    exact ⟨c, _, kept, taken, rfl, hperm, hsub, hall, rfl, rfl⟩

/-- A call of `aipu_poll` registers on the common queue unless the session wakes single threads, and
on the queue of no other thread. -/
theorem aipuPollRegister_registers {tid : ℤ}
    (h : aipuPollRegister k file tid = some (k', es)) :
    ∃ c single queues, k.inPhase file .opened = some c ∧ es = [.registered file tid queues] ∧
      k' = k.setFile c { c.entry with session := { c.entry.session with
        singleThreadPoll := single } } ∧
      (c.entry.session.singleThreadPoll = true → single = true) ∧
      (single = false → .com ∈ queues) ∧
      ∀ tid', .thread tid' ∈ queues →
        tid' = tid ∧ ∃ queue ∈ c.entry.session.waitQueue, queue.uthreadId = tid := by
  unfold aipuPollRegister aipuSessionAddPollWaitQueue at h
  cases hc : k.inPhase file .opened with
  | none => simp [hc] at h
  | some c =>
    simp only [hc, Option.some.injEq, Prod.mk.injEq] at h
    obtain ⟨rfl, rfl⟩ := h
    split
    · rename_i hfound
      refine ⟨c, true, [.thread tid], rfl, rfl, rfl, fun _ => rfl, by simp, ?_⟩
      intro tid' htid'
      exact ⟨by simpa using htid', by simpa using hfound.2⟩
    · refine ⟨c, c.entry.session.singleThreadPoll, _, rfl, rfl, rfl, id, ?_, ?_⟩
      · intro hsingle
        simp [hsingle]
      · intro tid' htid'
        split at htid' <;> simp at htid'

/-- Registering for a poll can only change the way the session polls. -/
theorem aipuPollRegister_cases {tid : ℤ} (h : aipuPollRegister k file tid = some (k', es)) :
    ∃ c single queues, k.inPhase file .opened = some c ∧ es = [.registered file tid queues] ∧
      k' = k.setFile c { c.entry with session := { c.entry.session with
        singleThreadPoll := single } } := by
  obtain ⟨c, single, queues, hc, hes, hk, -⟩ := aipuPollRegister_registers h
  exact ⟨c, single, queues, hc, hes, hk⟩

/-- The check of a poll changes nothing. -/
theorem aipuPollCheck_cases {tid : ℤ} (h : aipuPollCheck k file tid = some (k', es)) :
    k' = k ∧ ∃ ready, es = [.polled file tid ready] := by
  unfold aipuPollCheck at h
  grind

/-! ## The bottom half -/

/-- The session job that `aipu_session_job_done` leaves. -/
def SessionJob.done (sj : SessionJob) : SessionJob :=
  { sj with state := .finished, exceptionType := aipuExcepNoException }

/-- `aipu_session_job_done` finishes the session job if it is in the list. -/
theorem aipuSessionJobDone_cases (session : AipuSession) (job : ℕ) (flag : ℤ) :
    (∃ d, seek (fun sj : SessionJob => sj.id = job) session.jobList = some d ∧
        aipuSessionJobDone session job flag = ({ session with
          jobList := d.before ++ d.entry.done :: d.after }, session.wakeQueue d.entry.done)) ∨
      (seek (fun sj : SessionJob => sj.id = job) session.jobList = none ∧
        aipuSessionJobDone session job flag = (session, none)) := by
  unfold aipuSessionJobDone
  cases hd : seek (fun sj : SessionJob => sj.id = job) session.jobList with
  | none => exact .inr ⟨rfl, rfl⟩
  | some d => exact .inl ⟨d, rfl, rfl⟩

/-- The bottom half calls `aipu_session_job_done` for its current job.  Where the session and the
session job are alive, the session job is finished and its queue, if any, is woken; otherwise
nothing but the position of the bottom half changes. -/
theorem bottomHalfDone_cases (h : bottomHalfDone k = some (k', es)) :
    ∃ curr next, ∃ woken : List PollQueue, k.js.bh = .calling curr next ∧
      es = [.job (.readSession curr.session) (k.alive (.readSession curr.session)),
        .job (.readSessionJob curr.sessionJob) (k.alive (.readSessionJob curr.sessionJob))] ++
          woken.map (.woken curr.session) ∧
      ((∃ c d, seek (fun f : KmdFile => f.id = curr.session) k.files = some c ∧
          seek (fun sj : SessionJob => sj.id = curr.sessionJob) c.entry.session.jobList = some d ∧
          k' = { k.setFile c { c.entry with session := { c.entry.session with
            jobList := d.before ++ d.entry.done :: d.after } } with
              js := { k.js with bh := .returned curr next } } ∧
          woken = (c.entry.session.wakeQueue d.entry.done).toList) ∨
        ((∀ c, seek (fun f : KmdFile => f.id = curr.session) k.files = some c →
            seek (fun sj : SessionJob => sj.id = curr.sessionJob) c.entry.session.jobList =
              none) ∧
          k' = { k with js := { k.js with bh := .returned curr next } })) := by
  unfold bottomHalfDone at h
  cases hbh : k.js.bh with
  | rest => simp [hbh] at h
  | returned curr next => simp [hbh] at h
  | calling curr next =>
    have hrun : k.runJm .bhDone = some ({ k with js := { k.js with bh := .returned curr next } },
        [.job (.readSession curr.session) (k.alive (.readSession curr.session)),
          .job (.readSessionJob curr.sessionJob) (k.alive (.readSessionJob curr.sessionJob))]) := by
      simp [Kmd.runJm, jmStep, hbh]
    simp only [hbh, hrun] at h
    cases hc : seek (fun f : KmdFile => f.id = curr.session) k.files with
    | none =>
      simp only [hc, Option.some.injEq, Prod.mk.injEq] at h
      exact ⟨curr, next, [], rfl, h.2.symm, .inr ⟨by simp [hc], h.1.symm⟩⟩
    | some c =>
      obtain ⟨hl, hid, -⟩ := seek_eq_some hc
      have hid : c.entry.id = curr.session := by simpa using hid
      rcases aipuSessionJobDone_cases c.entry.session curr.sessionJob curr.exceptionFlag with
        ⟨d, hd, hdone⟩ | ⟨hd, hdone⟩
      all_goals
        simp only [hc, hdone, Option.some.injEq, Prod.mk.injEq, hid] at h
        obtain ⟨rfl, rfl⟩ := h
      · exact ⟨curr, next, _, rfl, rfl, .inl ⟨c, d, hc, hd, by rw [← hid]; rfl, rfl⟩⟩
      · refine ⟨curr, next, [], rfl, by simp, .inr ⟨?_, ?_⟩⟩
        · intro c' hc'
          obtain rfl := Option.some.inj (hc.symm.trans hc')
          exact hd
        · rw [← hid]
          exact Kmd.setFile_self (k := { k with js := _ }) hl

/-! ## Release -/

/-- The release of a file begins when no call on it is in progress and nothing is mapped, and
cancels its jobs. -/
theorem releaseCancel_cases {stale : SessionMem} (h : releaseCancel k file stale = some (k', es)) :
    ∃ c js jes, k.inPhase file .opened = some c ∧ c.entry.maps = [] ∧
      (∀ op ∈ k.ops, op.file ≠ file) ∧
      jmStep k.js (.cancel (k.mem stale) file) = some (js, jes) ∧
      k' = { k.setFile c { c.entry with phase := .canceled } with js := js } ∧
      es = jes.map fun e => .job e (k.alive e) := by
  unfold releaseCancel at h
  cases hc : k.inPhase file .opened with
  | none => simp [hc] at h
  | some c =>
    simp only [hc] at h
    split at h
    case isFalse => cases h
    case isTrue hidle =>
      split at h
      case h_1 => cases h
      case h_2 k₁ es₁ hrun =>
        obtain ⟨js, jes, hjm, rfl, rfl⟩ := Kmd.runJm_cases hrun
        obtain ⟨rfl, rfl⟩ := Prod.mk.inj (Option.some.inj h)
        exact ⟨c, js, jes, rfl, hidle.1, hidle.2, hjm, rfl, rfl⟩

/-- Then the release deletes the session jobs. -/
theorem releaseDelete_cases (h : releaseDelete k file = some (k', es)) :
    ∃ c, k.inPhase file .canceled = some c ∧ es = [] ∧
      k' = k.setFile c { c.entry with
        session := { c.entry.session with jobList := [] }, phase := .freeing } := by
  unfold releaseDelete aipuSessionDeleteJobs at h
  grind

/-- Then it frees the memory of the first buffer, while there is one. -/
theorem releaseFree_cases (h : releaseFree k file = some (k', es)) :
    ∃ c, k.inPhase file .freeing = some c ∧
      ((c.entry.session.sbufList = [] ∧ k' = k.setFile c { c.entry with phase := .buffersFreed } ∧
          es = []) ∨
        ∃ sbuf rest, ∃ desc : BufDesc, c.entry.session.sbufList = sbuf :: rest ∧
          desc.pa = sbuf.desc.pa ∧ desc.bytes = sbuf.desc.bytes ∧
          k' = { k.setFile c { c.entry with
              phase := if (aipuMmFree k.mm desc).1 = 0 then .freed desc else .failed } with
            mm := (aipuMmFree k.mm desc).2 } ∧
          es = [.freed desc (aipuMmFree k.mm desc).1]) := by
  unfold releaseFree aipuGetSessionSbufHead at h
  cases hc : k.inPhase file .freeing with
  | none => simp [hc] at h
  | some c =>
    refine ⟨c, rfl, ?_⟩
    cases hl : c.entry.session.sbufList with
    | nil =>
      simp only [hc, hl, List.head?_nil, Option.map_none, Option.some.injEq, Prod.mk.injEq] at h
      exact .inl ⟨rfl, h.1.symm, h.2.symm⟩
    | cons sbuf rest =>
      simp only [hc, hl, List.head?_cons, Option.map_some, Option.some.injEq, Prod.mk.injEq] at h
      exact .inr ⟨sbuf, rest, { pa := sbuf.desc.pa, bytes := sbuf.desc.bytes }, rfl, rfl, rfl,
        h.1.symm, h.2.symm⟩

/-- After the memory of a buffer was freed, the buffer is taken off the list. -/
theorem releaseDetach_cases (h : releaseDetach k file = some (k', es)) :
    ∃ c desc, seek (fun f : KmdFile => f.id = file) k.files = some c ∧
      c.entry.phase = .freed desc ∧ es = [] ∧
      ((∃ d, findBufferBydescNoLock c.entry.session desc = some d ∧
          k' = k.setFile c { c.entry with
            session := { c.entry.session with sbufList := d.before ++ d.after }
            phase := .freeing }) ∨
        (findBufferBydescNoLock c.entry.session desc = none ∧
          k' = k.setFile c { c.entry with phase := .failed })) := by
  unfold releaseDetach aipuSessionDetachBuf at h
  cases hc : seek (fun f : KmdFile => f.id = file) k.files with
  | none => simp [hc] at h
  | some c =>
    simp only [hc] at h
    split at h
    case h_2 => cases h
    case h_1 desc hphase =>
      refine ⟨c, desc, rfl, hphase, ?_⟩
      cases hd : findBufferBydescNoLock c.entry.session desc with
      | none =>
        simp only [hd, mapErrcode_eq_zero, reduceCtorEq, if_false, Option.some.injEq,
          Prod.mk.injEq] at h
        exact ⟨h.2.symm, .inr ⟨rfl, h.1.symm⟩⟩
      | some d =>
        simp only [hd, if_true, Option.some.injEq, Prod.mk.injEq] at h
        exact ⟨h.2.symm, .inl ⟨d, rfl, h.1.symm⟩⟩

/-- At last the session is destroyed, when its lists are empty. -/
theorem releaseDestroy_cases (h : releaseDestroy k file = some (k', es)) :
    ∃ c ret, k.inPhase file .buffersFreed = some c ∧ es = [.returned file ret] ∧
      ((c.entry.session.jobList = [] ∧ c.entry.session.sbufList = [] ∧
          k' = { k with files := c.before ++ c.after }) ∨
        (¬(c.entry.session.jobList = [] ∧ c.entry.session.sbufList = []) ∧
          k' = k.setFile c { c.entry with phase := .failed })) := by
  unfold releaseDestroy aipuDestroySession at h
  cases hc : k.inPhase file .buffersFreed with
  | none => simp [hc] at h
  | some c =>
    by_cases hlists : c.entry.session.jobList = [] ∧ c.entry.session.sbufList = []
    · simp only [hc, if_pos hlists, if_true, Option.some.injEq, Prod.mk.injEq] at h
      exact ⟨c, _, rfl, h.2.symm, .inl ⟨hlists.1, hlists.2, h.1.symm⟩⟩
    · simp only [hc, if_neg hlists, mapErrcode_eq_zero, reduceCtorEq, if_false, Option.some.injEq,
        Prod.mk.injEq] at h
      exact ⟨c, _, rfl, h.2.symm, .inr ⟨hlists, h.1.symm⟩⟩

end Aipu
