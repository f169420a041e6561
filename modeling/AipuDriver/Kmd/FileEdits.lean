import AipuDriver.Kmd.DriverSteps

/-!
# What a step makes of the files

A step of the driver opens a file, edits one, closes one or leaves the files as they are
(`FilesChange`).  `FileEdit` lists the edits, one for each function of the driver that makes one,
with the tests that have succeeded, and `kmdStep_edits` says once for all steps that there are no
others; `kmdStep_ops` says the same of the calls in progress.  What the later modules say of the
files after a step (their buffers, their mappings, their session jobs, who polls them) is read off
the edits.
-/

namespace Aipu

open ListSearch

/-! ## The edits -/

/-- The edit that a step makes of the file on which it works. -/
inductive FileEdit (k k' : Kmd) (es : List KmdEvent) : KmdAction → KmdFile → KmdFile → Prop
  | reqAdd {f : KmdFile} (req : BufRequest) (buf : AipuBuffer) (hphase : f.phase = .opened)
      (hop : .reqbuf f.id req buf ∈ k.ops) :
      FileEdit k k' es (.reqAdd f.id req buf true) f { f with session := { f.session with
        sbufList := newSessionBuf buf :: f.session.sbufList } }
  | freeDetach {f : KmdFile} (desc : BufDesc) (d : Cursor SessionBuf) (hphase : f.phase = .opened)
      (hd : findBufferBydescNoLock f.session desc = some d) :
      FileEdit k k' es (.freeDetach f.id desc) f { f with session := { f.session with
        sbufList := d.before ++ d.after } }
  | mmap {f : KmdFile} (vma : VmAreaStruct) (err : ℤ) (d : Cursor SessionBuf) (range : ℕ × ℕ)
      (hphase : f.phase = .opened)
      (hd : findBufferByoffsetNoLock f.session (Word.wrap 64 (vma.vmPgoff * pageSize)) vma.size =
        some d) (honto : MapsOnto vma d.entry range) :
      FileEdit k k' es (.mmap f.id vma err) f { f with
        session := { f.session with
          sbufList := d.before ++ { d.entry with mapNum := 1 } :: d.after }
        maps := range :: f.maps }
  | munmap {f : KmdFile} (map : ℕ × ℕ) (front len : ℕ) (hphase : f.phase = .opened)
      (hmap : map ∈ f.maps) (hlen : front + len ≤ map.2) :
      FileEdit k k' es (.munmap f.id map front len) f { f with
        maps := unmapPart map front len ++ f.maps.erase map }
  | runAdd {f : KmdFile} (tid : ℤ) (userJob userJob' : UserJob) (kz : Oracle)
      (waitQueue : List AipuThreadWaitQueue) (hphase : f.phase = .opened)
      (hqueues : ∀ queue ∈ f.session.waitQueue,
        ∃ queue' ∈ waitQueue, queue'.uthreadId = queue.uthreadId)
      (hops : k'.ops =
        .runjob f.id userJob' (initSessionJob k.nextSessionJob tid userJob.desc) :: k.ops)
      (hnext : k'.nextSessionJob = k.nextSessionJob + 1) :
      FileEdit k k' es (.runAdd f.id tid userJob kz) f { f with session := { f.session with
        jobList := initSessionJob k.nextSessionJob tid userJob.desc :: f.session.jobList
        waitQueue := waitQueue } }
  | query {f : KmdFile} (query : JobStatusQuery) (kzOk : Bool) (notCopied notCopiedQuery : ℕ)
      (kept taken : List SessionJob) (hphase : f.phase = .opened)
      (hperm : (kept ++ taken).Perm f.session.jobList) (hsub : kept.Sublist f.session.jobList)
      (hmatch : ∀ sj ∈ taken, query.matches sj = true) :
      FileEdit k k' es (.query f.id query kzOk notCopied notCopiedQuery) f { f with
        session := { f.session with jobList := kept } }
  | pollRegister {f : KmdFile} (tid : ℤ) (single : Bool) (hphase : f.phase = .opened) :
      FileEdit k k' es (.pollRegister f.id tid) f { f with session := { f.session with
        singleThreadPoll := single } }
  | done {f : KmdFile} (curr : AipuJob) (next : Option ℕ) (d : Cursor SessionJob)
      (hbh : k.js.bh = .calling curr next) (hid : f.id = curr.session)
      (hlist : f.session.jobList = d.toList) (hdid : d.entry.id = curr.sessionJob)
      (hes : es = [.job (.readSession curr.session) (k.alive (.readSession curr.session)),
        .job (.readSessionJob curr.sessionJob) (k.alive (.readSessionJob curr.sessionJob))] ++
          (f.session.wakeQueue d.entry.done).toList.map (.woken curr.session)) :
      FileEdit k k' es .bhDone f { f with session := { f.session with
        jobList := d.before ++ d.entry.done :: d.after } }
  | relCancel {f : KmdFile} (stale : SessionMem) (hphase : f.phase = .opened)
      (hmaps : f.maps = []) :
      FileEdit k k' es (.relCancel f.id stale) f { f with phase := .canceled }
  | relDelete {f : KmdFile} (hphase : f.phase = .canceled) :
      FileEdit k k' es (.relDelete f.id) f { f with
        session := { f.session with jobList := [] }
        phase := .freeing }
  | buffersFreed {f : KmdFile} (hphase : f.phase = .freeing) (hnil : f.session.sbufList = []) :
      FileEdit k k' es (.relFree f.id) f { f with phase := .buffersFreed }
  | relFree {f : KmdFile} (sbuf : SessionBuf) (rest : List SessionBuf) (desc : BufDesc)
      (hphase : f.phase = .freeing) (hcons : f.session.sbufList = sbuf :: rest) :
      FileEdit k k' es (.relFree f.id) f { f with
        phase := if (aipuMmFree k.mm desc).1 = 0 then .freed desc else .failed }
  | relDetach {f : KmdFile} (desc : BufDesc) (d : Cursor SessionBuf)
      (hphase : f.phase = .freed desc)
      (hd : findBufferBydescNoLock f.session desc = some d) :
      FileEdit k k' es (.relDetach f.id) f { f with
        session := { f.session with sbufList := d.before ++ d.after }
        phase := .freeing }
  | detachFailed {f : KmdFile} (desc : BufDesc) (hphase : f.phase = .freed desc) :
      FileEdit k k' es (.relDetach f.id) f { f with phase := .failed }
  | destroyFailed {f : KmdFile} (hphase : f.phase = .buffersFreed) :
      FileEdit k k' es (.relDestroy f.id) f { f with phase := .failed }

/-- What is left when a buffer is detached was there before. -/
theorem mem_of_detached {d : Cursor SessionBuf} {session : AipuSession}
    (hbufs : session.sbufList = d.toList) {sbuf : SessionBuf} (hs : sbuf ∈ d.before ++ d.after) :
    sbuf ∈ session.sbufList := by
  rw [hbufs, Cursor.mem_toList]
  exact (List.mem_append.mp hs).imp id .inr

/-- A session job that has not ended is not among those that a query takes. -/
theorem JobStatusQuery.kept_of_not_finished {query : JobStatusQuery}
    {kept taken jobList : List SessionJob} (hperm : (kept ++ taken).Perm jobList)
    (hmatch : ∀ sj ∈ taken, query.matches sj = true) {sj : SessionJob} (hsj : sj ∈ jobList)
    (hstate : sj.state ≠ .finished) : sj ∈ kept := by
  rcases List.mem_append.mp (hperm.mem_iff.mpr hsj) with hkept | htaken
  · exact hkept
  · have hended : query.matches sj = true := hmatch sj htaken
    simp only [JobStatusQuery.matches, decide_eq_true_eq] at hended
    exact absurd hended.2 hstate

/-- What a step makes of all files, where `R` relates the file that it edits to what it makes of
it. -/
inductive FilesChange (R : KmdFile → KmdFile → Prop) (k : Kmd) (a : KmdAction) (k' : Kmd) : Prop
  | same (hfiles : k'.files = k.files) (hnext : k'.nextFile = k.nextFile)
  | opened (pid : ℤ) (hfiles : k'.files = ⟨k.nextFile, { userPid := pid }, .opened, []⟩ :: k.files)
      (hnext : k'.nextFile = k.nextFile + 1)
  | edited (c : Cursor KmdFile) (f' : KmdFile) (hl : k.files = c.toList)
      (hfiles : k'.files = c.before ++ f' :: c.after) (hnext : k'.nextFile = k.nextFile)
      (hstep : R c.entry f')
  | closed (c : Cursor KmdFile) (hl : k.files = c.toList) (hfiles : k'.files = c.before ++ c.after)
      (hnext : k'.nextFile = k.nextFile) (ha : a = .relDestroy c.entry.id)
      (hphase : c.entry.phase = .buffersFreed) (hjobs : c.entry.session.jobList = [])
      (hbufs : c.entry.session.sbufList = [])

section Files

variable {k k' : Kmd} {a : KmdAction} {es : List KmdEvent} {R : KmdFile → KmdFile → Prop}

/-- A file that is there after a step was there before, it was edited, or it was just opened. -/
theorem FilesChange.mem_of (h : FilesChange R k a k') {f' : KmdFile} (hf' : f' ∈ k'.files) :
    f' ∈ k.files ∨ (∃ f ∈ k.files, R f f') ∨
      ∃ pid, f' = ⟨k.nextFile, { userPid := pid }, .opened, []⟩ := by
  cases h with
  | same hfiles => exact .inl (hfiles ▸ hf')
  | opened pid hfiles =>
    rw [hfiles, List.mem_cons] at hf'
    rcases hf' with rfl | hf'
    · exact .inr (.inr ⟨pid, rfl⟩)
    · exact .inl hf'
  | edited c f₁ hl hfiles _ hstep =>
    rw [hfiles, List.mem_append, List.mem_cons] at hf'
    rcases hf' with hf' | rfl | hf'
    · exact .inl (hl ▸ Cursor.mem_toList.mpr (.inl hf'))
    · exact .inr (.inl ⟨c.entry, hl ▸ c.entry_mem, hstep⟩)
    · exact .inl (hl ▸ Cursor.mem_toList.mpr (.inr (.inr hf')))
  | closed c hl hfiles =>
    rw [hfiles, List.mem_append] at hf'
    exact .inl (hl ▸ Cursor.mem_toList.mpr (hf'.imp id .inr))

/-- A file that is there before a step stays, it is edited, or its session is destroyed. -/
theorem FilesChange.of_mem (h : FilesChange R k a k') {f : KmdFile} (hf : f ∈ k.files) :
    f ∈ k'.files ∨ (∃ f' ∈ k'.files, R f f') ∨ (a = .relDestroy f.id ∧ f.phase = .buffersFreed ∧
      f.session.jobList = [] ∧ f.session.sbufList = []) := by
  cases h with
  | same hfiles => exact .inl (hfiles ▸ hf)
  | opened pid hfiles => exact .inl (hfiles ▸ List.mem_cons_of_mem _ hf)
  | edited c f' hl hfiles _ hstep =>
    rw [hl, Cursor.mem_toList] at hf
    rcases hf with hf | rfl | hf
    · exact .inl (by simp [hfiles, hf])
    · exact .inr (.inl ⟨f', by simp [hfiles], hstep⟩)
    · exact .inl (by simp [hfiles, hf])
  | closed c hl hfiles _ ha hphase hjobs hbufs =>
    rw [hl, Cursor.mem_toList] at hf
    rcases hf with hf | rfl | hf
    · exact .inl (by simp [hfiles, hf])
    · exact .inr (.inr ⟨ha, hphase, hjobs, hbufs⟩)
    · exact .inl (by simp [hfiles, hf])

/-- A change of the files may be described by a weaker relation. -/
theorem FilesChange.mono {R' : KmdFile → KmdFile → Prop} (h : FilesChange R k a k')
    (hR : ∀ {f f'}, R f f' → R' f f') : FilesChange R' k a k' := by
  cases h with
  | same hfiles hnext => exact .same hfiles hnext
  | opened pid hfiles hnext => exact .opened pid hfiles hnext
  | edited c f' hl hfiles hnext hstep => exact .edited c f' hl hfiles hnext (hR hstep)
  | closed c hl hfiles hnext ha hphase hjobs hbufs =>
    exact .closed c hl hfiles hnext ha hphase hjobs hbufs

/-- Replacing the file found in a phase. -/
theorem FilesChange.edit {c : Cursor KmdFile} {f' : KmdFile} {file : ℕ} {phase : ReleasePhase}
    (hc : k.inPhase file phase = some c) (hfiles : k'.files = c.before ++ f' :: c.after)
    (hnext : k'.nextFile = k.nextFile)
    (hstep : c.entry.id = file → c.entry.phase = phase → R c.entry f') :
    FilesChange R k a k' := by
  obtain ⟨hl, hid, hphase⟩ := Kmd.inPhase_eq_some hc
  exact .edited c f' hl hfiles hnext (hstep hid hphase)

/-- **Edits.**  Every step makes one of the edits, opens or closes a file, or leaves the files as
they are. -/
theorem kmdStep_edits (h : kmdStep k a = some (k', es)) :
    FilesChange (FileEdit k k' es a) k a k' := by
  have hrun : ∀ ja, k.runJm ja = some (k', es) → FilesChange (FileEdit k k' es a) k a k' := by
    intro ja h
    obtain ⟨js, jes, -, rfl, -⟩ := Kmd.runJm_cases h
    exact .same rfl rfl
  cases a with
  | openFile pid kz =>
    rcases aipuOpen_cases h with ⟨rfl, -⟩ | ⟨rfl, -⟩
    · exact .opened pid rfl rfl
    · exact .same rfl rfl
  | reqAlloc file tid kz req buf =>
    obtain ⟨c, r, -, -, ⟨-, rfl, -⟩ | ⟨-, rfl, -⟩⟩ := reqbufAlloc_cases h <;> exact .same rfl rfl
  | reqAdd file req buf kzOk =>
    obtain ⟨hop, c, ret, hc, -, ⟨rfl, rfl⟩ | ⟨-, rfl⟩⟩ := reqbufAdd_cases h
    · refine .edit hc rfl rfl ?_
      rintro rfl hphase
      exact .reqAdd req buf hphase hop
    · exact .same rfl rfl
  | freeDetach file desc =>
    obtain ⟨c, hc, ⟨d, hd, -, rfl⟩ | ⟨-, rfl, -⟩⟩ := freebufDetach_cases h
    · refine .edit hc rfl rfl ?_
      rintro rfl hphase
      exact .freeDetach desc d hphase hd
    · exact .same rfl rfl
  | freeMm file desc =>
    obtain ⟨-, rfl, -⟩ := freebufFree_cases h
    exact .same rfl rfl
  | mmap file vma err =>
    obtain ⟨c, ret, hc, -, ⟨d, range, hd, honto, rfl⟩ | rfl⟩ := aipuMmap_cases h
    · refine .edit hc rfl rfl ?_
      rintro rfl hphase
      exact .mmap vma err d range hphase hd honto
    · exact .same rfl rfl
  | munmap file map front len =>
    obtain ⟨c, hc, hmap, hlen, -, rfl⟩ := munmapPages_cases h
    refine .edit hc rfl rfl ?_
    rintro rfl hphase
    exact .munmap map front len hphase hmap hlen
  | runAdd file tid userJob kz =>
    obtain ⟨c, hc, ⟨waitQueue, userJob', -, -, hqueues, rfl⟩ | ⟨rfl, -⟩⟩ := runjobAdd_cases h
    · refine .edit hc rfl rfl ?_
      rintro rfl hphase
      exact .runAdd tid userJob userJob' kz waitQueue hphase hqueues rfl rfl
    · exact .same rfl rfl
  | runSchedule file userJob kernJob kzOk stale =>
    obtain ⟨-, ⟨-, js, jes, -, rfl, -⟩ | ⟨-, rfl, -⟩⟩ := runjobSchedule_cases h <;>
      exact .same rfl rfl
  | kill file tid jobId stale =>
    obtain ⟨js, jes, -, rfl, -⟩ := killTimeoutJob_cases h
    exact .same rfl rfl
  | query file query kzOk notCopied notCopiedQuery =>
    obtain ⟨c, ret, kept, taken, hc, hperm, hsub, hmatch, rfl, -⟩ := queryStatus_cases h
    refine .edit hc rfl rfl ?_
    rintro rfl hphase
    exact .query query kzOk notCopied notCopiedQuery kept taken hphase hperm hsub hmatch
  | pollRegister file tid =>
    obtain ⟨c, single, queues, hc, -, rfl⟩ := aipuPollRegister_cases h
    refine .edit hc rfl rfl ?_
    rintro rfl hphase
    exact .pollRegister tid single hphase
  | pollCheck file tid =>
    obtain ⟨rfl, -⟩ := aipuPollCheck_cases h
    exact .same rfl rfl
  | upperHalf flag stale => exact hrun (.upperHalf (k.mem stale) flag) h
  | queueWork => exact hrun .queueWork h
  | bhStart => exact hrun .bhStart h
  | bhDone =>
    obtain ⟨curr, next, woken, hbh, hes, ⟨c, d, hc, hd, rfl, rfl⟩ | ⟨-, rfl⟩⟩ :=
      bottomHalfDone_cases h
    · obtain ⟨hl, hid, -⟩ := seek_eq_some hc
      obtain ⟨hlist, hdid, -⟩ := seek_eq_some hd
      exact .edited c _ hl rfl rfl
        (.done curr next d hbh (by simpa using hid) hlist (by simpa using hdid) hes)
    · exact .same rfl rfl
  | bhResume => exact hrun .bhResume h
  | relCancel file stale =>
    obtain ⟨c, js, jes, hc, hmaps, -, -, rfl, -⟩ := releaseCancel_cases h
    refine .edit hc rfl rfl ?_
    rintro rfl hphase
    exact .relCancel stale hphase hmaps
  | relDelete file =>
    obtain ⟨c, hc, -, rfl⟩ := releaseDelete_cases h
    refine .edit hc rfl rfl ?_
    rintro rfl hphase
    exact .relDelete hphase
  | relFree file =>
    obtain ⟨c, hc, ⟨hnil, rfl, -⟩ | ⟨sbuf, rest, desc, hcons, -, -, rfl, -⟩⟩ := releaseFree_cases h
    · refine .edit hc rfl rfl ?_
      rintro rfl hphase
      exact .buffersFreed hphase hnil
    · refine .edit hc rfl rfl ?_
      rintro rfl hphase
      exact .relFree sbuf rest desc hphase hcons
  | relDetach file =>
    obtain ⟨c, desc, hc, hphase, -, hcase⟩ := releaseDetach_cases h
    obtain ⟨hl, hid, -⟩ := seek_eq_some hc
    obtain rfl : c.entry.id = file := by simpa using hid
    obtain ⟨d, hd, rfl⟩ | ⟨-, rfl⟩ := hcase
    · exact .edited c _ hl rfl rfl (.relDetach desc d hphase hd)
    · exact .edited c _ hl rfl rfl (.detachFailed desc hphase)
  | relDestroy file =>
    obtain ⟨c, ret, hc, -, hcase⟩ := releaseDestroy_cases h
    obtain ⟨hl, rfl, hphase⟩ := Kmd.inPhase_eq_some hc
    obtain ⟨hjobs, hbufs, rfl⟩ | ⟨-, rfl⟩ := hcase
    · exact .closed c hl rfl rfl rfl hphase hjobs hbufs
    · exact .edited c _ hl rfl rfl (.destroyFailed hphase)

end Files

/-! ## Calls in progress -/

/-- What a step makes of the calls in progress: at most one of them begins, or ends. -/
inductive OpsChange (k k' : Kmd) : KmdAction → Prop
  | same {a : KmdAction} (hops : k'.ops = k.ops) (hnext : k'.nextSessionJob = k.nextSessionJob)
      (ha : ∀ file userJob kernJob kzOk stale, a ≠ .runSchedule file userJob kernJob kzOk stale) :
      OpsChange k k' a
  | reqAlloc {file : ℕ} {tid : ℤ} {kz : Oracle} {req : BufRequest} {buf : AipuBuffer}
      (r : AllocResult AipuMemoryManager) (halloc : aipuMmAlloc kz tid k.mm req buf = some r)
      (hret : r.ret = 0) (hops : k'.ops = .reqbuf file r.req r.buf :: k.ops)
      (hnext : k'.nextSessionJob = k.nextSessionJob) :
      OpsChange k k' (.reqAlloc file tid kz req buf)
  | reqAdd {file : ℕ} {req : BufRequest} {buf : AipuBuffer} {kzOk : Bool}
      (hop : .reqbuf file req buf ∈ k.ops) (hops : k'.ops = k.ops.erase (.reqbuf file req buf))
      (hnext : k'.nextSessionJob = k.nextSessionJob) :
      OpsChange k k' (.reqAdd file req buf kzOk)
  | freeDetach {file : ℕ} {desc : BufDesc} (hops : k'.ops = .freebuf file desc :: k.ops)
      (hnext : k'.nextSessionJob = k.nextSessionJob) :
      OpsChange k k' (.freeDetach file desc)
  | freeMm {file : ℕ} {desc : BufDesc} (hop : .freebuf file desc ∈ k.ops)
      (hops : k'.ops = k.ops.erase (.freebuf file desc))
      (hnext : k'.nextSessionJob = k.nextSessionJob) :
      OpsChange k k' (.freeMm file desc)
  | runAdd {file : ℕ} {tid : ℤ} {userJob : UserJob} {kz : Oracle} (userJob' : UserJob)
      (f : KmdFile) (hf : f ∈ k'.files) (hid : f.id = file) (hphase : f.phase = .opened)
      (hjob : initSessionJob k.nextSessionJob tid userJob.desc ∈ f.session.jobList)
      (hops : k'.ops =
        .runjob file userJob' (initSessionJob k.nextSessionJob tid userJob.desc) :: k.ops)
      (hnext : k'.nextSessionJob = k.nextSessionJob + 1) :
      OpsChange k k' (.runAdd file tid userJob kz)
  | runSchedule {file : ℕ} {userJob : UserJob} {kernJob : SessionJob} {kzOk : Bool}
      {stale : SessionMem} (hop : .runjob file userJob kernJob ∈ k.ops)
      (hops : k'.ops = k.ops.erase (.runjob file userJob kernJob))
      (hnext : k'.nextSessionJob = k.nextSessionJob) :
      OpsChange k k' (.runSchedule file userJob kernJob kzOk stale)

/-- The step `a` has granted the buffer that is on its way to a session. -/
def KmdOp.GrantedBy (k : Kmd) (a : KmdAction) : KmdOp → Prop
  | .reqbuf _ _ buf => ∃ file tid kz req buf₀ r, a = .reqAlloc file tid kz req buf₀ ∧
      aipuMmAlloc kz tid k.mm req buf₀ = some r ∧ r.ret = 0 ∧ r.buf = buf
  | _ => True

section Ops

variable {k k' : Kmd} {a : KmdAction} {es : List KmdEvent}

/-- A call that is in progress after a step was so before, or it has just begun; a REQBUF call
begins with a buffer that was granted. -/
theorem OpsChange.granted (h : OpsChange k k' a) :
    ∀ op ∈ k'.ops, op ∈ k.ops ∨ op.GrantedBy k a := by
  have hbegun : ∀ {op : KmdOp}, k'.ops = op :: k.ops → op.GrantedBy k a →
      ∀ op ∈ k'.ops, op ∈ k.ops ∨ op.GrantedBy k a := by
    intro op hops hgranted op' hop'
    rw [hops, List.mem_cons] at hop'
    rcases hop' with rfl | hop'
    · exact .inr hgranted
    · exact .inl hop'
  cases h with
  | same hops => exact fun op hop => .inl (hops ▸ hop)
  | reqAlloc r halloc hret hops => exact hbegun hops ⟨_, _, _, _, _, r, rfl, halloc, hret, rfl⟩
  | freeDetach hops => exact hbegun hops trivial
  | runAdd userJob' f _ _ _ _ hops => exact hbegun hops trivial
  | reqAdd _ hops | freeMm _ hops | runSchedule _ hops =>
    exact fun op hop => .inl (List.mem_of_mem_erase (hops ▸ hop))

/-- **Calls in progress.**  Every step begins a call, ends one, or leaves them as they are. -/
theorem kmdStep_ops (h : kmdStep k a = some (k', es)) : OpsChange k k' a := by
  have hrun : ∀ ja, k.runJm ja = some (k', es) →
      k'.ops = k.ops ∧ k'.nextSessionJob = k.nextSessionJob := by
    intro ja h
    obtain ⟨js, jes, -, rfl, -⟩ := Kmd.runJm_cases h
    exact ⟨rfl, rfl⟩
  cases a with
  | reqAlloc file tid kz req buf =>
    obtain ⟨c, r, -, halloc, ⟨hret, rfl, -⟩ | ⟨-, rfl, -⟩⟩ := reqbufAlloc_cases h
    · exact .reqAlloc r halloc hret rfl rfl
    · exact .same rfl rfl (by simp)
  | reqAdd file req buf kzOk =>
    obtain ⟨hop, c, ret, -, -, ⟨-, rfl⟩ | ⟨-, rfl⟩⟩ := reqbufAdd_cases h <;>
      exact .reqAdd hop rfl rfl
  | freeDetach file desc =>
    obtain ⟨c, -, ⟨d, -, -, rfl⟩ | ⟨-, rfl, -⟩⟩ := freebufDetach_cases h
    · exact .freeDetach rfl rfl
    · exact .same rfl rfl (by simp)
  | freeMm file desc =>
    obtain ⟨hop, rfl, -⟩ := freebufFree_cases h
    exact .freeMm hop rfl rfl
  | runAdd file tid userJob kz =>
    obtain ⟨c, hc, ⟨waitQueue, userJob', -, -, -, rfl⟩ | ⟨rfl, -⟩⟩ := runjobAdd_cases h
    · obtain ⟨-, hid, hphase⟩ := Kmd.inPhase_eq_some hc
      exact .runAdd userJob' _ (List.mem_append_right _ List.mem_cons_self) hid hphase
        List.mem_cons_self rfl rfl
    · exact .same rfl rfl (by simp)
  | runSchedule file userJob kernJob kzOk stale =>
    obtain ⟨hop, ⟨-, js, jes, -, rfl, -⟩ | ⟨-, rfl, -⟩⟩ := runjobSchedule_cases h <;>
      exact .runSchedule hop rfl rfl
  -- the other steps neither begin nor end a call
  | openFile pid kz =>
    rcases aipuOpen_cases h with ⟨rfl, -⟩ | ⟨rfl, -⟩ <;> exact .same rfl rfl (by simp)
  | mmap file vma err =>
    obtain ⟨c, ret, -, -, ⟨d, range, -, -, rfl⟩ | rfl⟩ := aipuMmap_cases h <;>
      exact .same rfl rfl (by simp)
  | munmap file map front len =>
    obtain ⟨c, -, -, -, -, rfl⟩ := munmapPages_cases h
    exact .same rfl rfl (by simp)
  | kill file tid jobId stale =>
    obtain ⟨js, jes, -, rfl, -⟩ := killTimeoutJob_cases h
    exact .same rfl rfl (by simp)
  | query file query kzOk notCopied notCopiedQuery =>
    obtain ⟨c, ret, kept, taken, -, -, -, -, rfl, -⟩ := queryStatus_cases h
    exact .same rfl rfl (by simp)
  | pollRegister file tid =>
    obtain ⟨c, single, queues, -, -, rfl⟩ := aipuPollRegister_cases h
    exact .same rfl rfl (by simp)
  | pollCheck file tid =>
    obtain ⟨rfl, -⟩ := aipuPollCheck_cases h
    exact .same rfl rfl (by simp)
  | upperHalf flag stale =>
    obtain ⟨hops, hnext⟩ := hrun (.upperHalf (k.mem stale) flag) h
    exact .same hops hnext (by simp)
  | queueWork =>
    obtain ⟨hops, hnext⟩ := hrun .queueWork h
    exact .same hops hnext (by simp)
  | bhStart =>
    obtain ⟨hops, hnext⟩ := hrun .bhStart h
    exact .same hops hnext (by simp)
  | bhDone =>
    obtain ⟨curr, next, woken, -, -, ⟨c, d, -, -, rfl, -⟩ | ⟨-, rfl⟩⟩ := bottomHalfDone_cases h <;>
      exact .same rfl rfl (by simp)
  | bhResume =>
    obtain ⟨hops, hnext⟩ := hrun .bhResume h
    exact .same hops hnext (by simp)
  | relCancel file stale =>
    obtain ⟨c, js, jes, -, -, -, -, rfl, -⟩ := releaseCancel_cases h
    exact .same rfl rfl (by simp)
  | relDelete file =>
    obtain ⟨c, -, -, rfl⟩ := releaseDelete_cases h
    exact .same rfl rfl (by simp)
  | relFree file =>
    obtain ⟨c, -, ⟨-, rfl, -⟩ | ⟨sbuf, rest, desc, -, -, -, rfl, -⟩⟩ := releaseFree_cases h <;>
      exact .same rfl rfl (by simp)
  | relDetach file =>
    obtain ⟨c, desc, -, -, -, ⟨d, -, rfl⟩ | ⟨-, rfl⟩⟩ := releaseDetach_cases h <;>
      exact .same rfl rfl (by simp)
  | relDestroy file =>
    obtain ⟨c, ret, -, -, ⟨-, -, rfl⟩ | ⟨-, rfl⟩⟩ := releaseDestroy_cases h <;>
      exact .same rfl rfl (by simp)

end Ops

end Aipu
