import AipuDriver.Kmd.DriverJobs
import AipuDriver.Kmd.Mapping

/-!
# The memory of running jobs

The descriptor of a job names five ranges that the hardware reads and writes while the job runs. The
release of a file only flags a running job, and then frees the buffers of the session: their memory
can be granted again while the hardware still uses it.  `Kmd.JobMemorySafe` is the condition on the
steps of a run under which this does not happen: `Kmd.JobsOwnMemory` is what user space has to
observe, `Kmd.FreesIdleMemory` what the driver has to.

The addresses in a descriptor are those of the device; adding `host_to_aipu_map` gives those of the
host.
-/

namespace Aipu

open ListSearch Transition Word

/-! ## Ranges -/

/-- The ranges named in a descriptor, at the addresses of the host. -/
def UserJobDesc.ranges (desc : UserJobDesc) (hostToAipuMap : ℕ) : List (ℕ × ℕ) :=
  [(wrap 64 (desc.startPcAddr + hostToAipuMap), desc.codeSize),
    (wrap 64 (desc.data0Addr + hostToAipuMap), desc.rodataSize),
    (wrap 64 (desc.data1Addr + hostToAipuMap), desc.stackSize),
    (wrap 64 (desc.staticAddr + hostToAipuMap), desc.staticSize),
    (wrap 64 (desc.reuseAddr + hostToAipuMap), desc.reuseSize)]

/-- The two ranges have a byte in common. -/
def SharesByte (x y : ℕ × ℕ) : Prop := max x.1 y.1 < min (x.1 + x.2) (y.1 + y.2)

instance (x y : ℕ × ℕ) : Decidable (SharesByte x y) := inferInstanceAs (Decidable (_ < _))

theorem SharesByte.of_inRange {x y : ℕ × ℕ} {b : ℕ} (hx : InRange x b) (hy : InRange y b) :
    SharesByte x y := by
  unfold SharesByte
  unfold InRange at hx hy
  omega

/-- Every byte of the range is in one of the ranges of the list. -/
def Covers (l : List (ℕ × ℕ)) (x : ℕ × ℕ) : Prop := ∀ i < x.2, ∃ y ∈ l, InRange y (x.1 + i)

instance (x : ℕ × ℕ) (b : ℕ) : Decidable (InRange x b) := inferInstanceAs (Decidable (_ ∧ _))

instance (l : List (ℕ × ℕ)) (x : ℕ × ℕ) : Decidable (Covers l x) :=
  inferInstanceAs (Decidable (∀ i < x.2, ∃ y ∈ l, InRange y (x.1 + i)))

theorem Covers.exists_inRange {l : List (ℕ × ℕ)} {x : ℕ × ℕ} (h : Covers l x) {b : ℕ}
    (hb : InRange x b) : ∃ y ∈ l, InRange y b := by
  obtain ⟨hlo, hhi⟩ := hb
  obtain ⟨y, hy, hyb⟩ := h (b - x.1) (by omega)
  exact ⟨y, hy, by rwa [Nat.add_sub_cancel' hlo] at hyb⟩

/-- No byte of an allocated range is in a free block. -/
theorem AipuMemoryManager.Inv.not_free {mm : AipuMemoryManager} (h : mm.Inv) {x : ℕ × ℕ}
    (hx : x ∈ mm.allocated) {b : ℕ} (hb : InRange x b) {region : AipuMemRegion}
    (hregion : region ∈ mm.regions) {blk : AipuBlock} (hblk : blk ∈ region.blkHead)
    (hfree : blk.state = .free) : ¬InRange (blk.pa, blk.bytes) b := by
  intro hblkb
  obtain ⟨s, hs, hxs, -, hlo, hhi⟩ := h.mem_allocated hx
  have hbounds := (h.region region hregion).tiles.bounds hblk
  unfold InRange at hb hblkb
  by_cases hsame : region = s
  · subst hsame
    obtain ⟨blk', hblk', hocc, rfl⟩ := Tiling.mem_occupied.mp hxs
    obtain rfl := (h.region region hregion).tiles.eq_of_overlap hblk hblk' (by simp at *; omega)
      (by simp at *; omega)
    rw [AipuBlock.isFree_eq_false, hfree] at hocc
    cases hocc
  · have hdisj : region.DisjointFrom s := h.disjoint.forall hregion hs hsame
    unfold AipuMemRegion.DisjointFrom at hdisj
    simp only at hblkb
    omega

/-! ## The condition -/

/-- The ranges of the buffers in the lists of the session. -/
def Kmd.buffersOf (k : Kmd) (file : ℕ) : List (ℕ × ℕ) :=
  (k.files.filter (·.id = file)).flatMap fun f => f.session.sbufList.map SessionBuf.range

/-- Jobs use buffers of their own session only.  RUNJOB names bytes of buffers in the session's
list, and FREEBUF names no buffer of which a queued job that has not ended uses a byte. -/
def Kmd.JobsOwnMemory (hostToAipuMap : ℕ) (k : Kmd) : KmdAction → Prop
  | .runSchedule file userJob _ _ _ =>
    ∀ x ∈ userJob.desc.ranges hostToAipuMap, Covers (k.buffersOf file) x
  | .freeDetach file desc => ∀ j ∈ k.js.jm.jobs, j.session = file → j.state ≠ .finished →
      ∀ x ∈ j.desc.ranges hostToAipuMap, ¬SharesByte x desc.range
  | _ => True

/-- The release of a file frees no buffer of which a running job of the file uses a byte, and no
request is close to the end of the address space. -/
def Kmd.FreesIdleMemory (hostToAipuMap : ℕ) (k : Kmd) : KmdAction → Prop
  | .relFree file => ∀ j ∈ k.js.jm.scheduledQueue, j.session = file → j.state = .sched →
      ∀ x ∈ j.desc.ranges hostToAipuMap, ∀ y ∈ (k.buffersOf file).head?, ¬SharesByte x y
  | .reqAlloc _ _ _ req _ => req.NoWrap k.mm.version
  | _ => True

/-- Both conditions. -/
def Kmd.JobMemorySafe (hostToAipuMap : ℕ) (k : Kmd) (a : KmdAction) : Prop :=
  k.JobsOwnMemory hostToAipuMap a ∧ k.FreesIdleMemory hostToAipuMap a

instance (hostToAipuMap : ℕ) : DecidableRel (Kmd.JobsOwnMemory hostToAipuMap) := fun k a => by
  rcases a <;> unfold Kmd.JobsOwnMemory <;> infer_instance

instance (hostToAipuMap : ℕ) : DecidableRel (Kmd.FreesIdleMemory hostToAipuMap) := fun k a => by
  rcases a <;> unfold Kmd.FreesIdleMemory <;> infer_instance

instance (hostToAipuMap : ℕ) : DecidableRel (Kmd.JobMemorySafe hostToAipuMap) :=
  fun _ _ => inferInstanceAs (Decidable (_ ∧ _))

/-! ## The invariant -/

/-- Every byte that a queued job names, unless the job has ended, is owned by the job's session. -/
def Kmd.HeldInv (k : Kmd) (hostToAipuMap : ℕ) : Prop :=
  ∀ j ∈ k.js.jm.jobs, j.state ≠ .finished → ∀ x ∈ j.desc.ranges hostToAipuMap, ∀ b, InRange x b →
    ∃ f ∈ k.files, f.id = j.session ∧ ∃ y ∈ f.owned, InRange y b

section Held

variable {k k' : Kmd} {a : KmdAction} {es : List KmdEvent} {max : ℤ} {jtr : List JmEvent}
  {lost : List (ℕ × ℕ)} {hostToAipuMap : ℕ}

/-- A byte that a file owns is still owned by it after a step, unless the step takes it. -/
theorem FilesStep.owned_byte (hst : FilesStep k a k') (hphases : ∀ f ∈ k.files, f.PhaseOk)
    (hfresh : k.FilesFresh) (h : kmdStep k a = some (k', es)) {f : KmdFile} (hf : f ∈ k.files)
    {x : ℕ × ℕ} (hx : x ∈ f.owned) :
    (∃ f' ∈ k'.files, f'.id = f.id ∧ x ∈ f'.owned) ∨
      (∃ desc, a = .freeDetach f.id desc ∧ desc.range = x) ∨
      (a = .relFree f.id ∧ f.session.sbufList.head?.map SessionBuf.range = some x) := by
  rcases hst.of_mem hf with ⟨f', hf', hstep⟩ | ⟨-, hphase, -, hbufs⟩
  · rcases hstep.owned x hx with hx' | hdetach | hfree | rfl
    · exact .inl ⟨f', hf', hstep.id, hx'⟩
    · exact .inr (.inl hdetach)
    · exact .inr (.inr hfree)
    · obtain ⟨c, f₁, hl, hid, rfl, hid', -, howned⟩ := releaseDetach_same hphases h
      obtain rfl := hfresh.eq_of_id (hl ▸ c.entry_mem) hf hid
      exact .inl ⟨f₁, by simp [Kmd.setFile], hid', howned ▸ hx⟩
  · simp [KmdFile.owned, hphase, hbufs] at hx

/-- The ranges of the buffers in the list of a file. -/
theorem Kmd.FilesFresh.buffersOf_eq (hfresh : k.FilesFresh) {f : KmdFile} (hf : f ∈ k.files) :
    k.buffersOf f.id = f.session.sbufList.map SessionBuf.range := by
  obtain ⟨before, after, hl⟩ := List.append_of_mem hf
  have hother : ∀ l : List KmdFile, (∀ g ∈ l, g.id ≠ f.id) → l.filter (·.id = f.id) = [] := by
    intro l hne
    exact List.filter_eq_nil_iff.mpr fun g hg => by simpa using hne g hg
  have hnodup := hfresh.nodup
  rw [hl, List.map_append, List.map_cons, List.nodup_middle, List.nodup_cons, List.mem_append,
    not_or] at hnodup
  obtain ⟨⟨hbefore, hafter⟩, -⟩ := hnodup
  rw [Kmd.buffersOf, hl, List.filter_append, List.filter_cons_of_pos (by simp),
    hother before fun g hg heq => hbefore (heq ▸ List.mem_map_of_mem hg),
    hother after fun g hg heq => hafter (heq ▸ List.mem_map_of_mem hg)]
  simp

/-- A job is submitted by the second step of RUNJOB. -/
theorem jmAction_submit {mem : SessionMem} {sub : Submission}
    (ha : a.jmAction k = some (.submit mem sub)) : ∃ userJob kernJob stale,
      a = .runSchedule sub.session userJob kernJob true stale ∧ sub.desc = userJob.desc := by
  unfold KmdAction.jmAction at ha
  split at ha <;> cases ha
  exact ⟨_, _, _, rfl, rfl⟩

/-- Every safe step keeps the bytes of the queued jobs owned. -/
theorem Kmd.HeldInv.step (hH : k.HeldInv hostToAipuMap) (hown : k.OwnInv lost) (hI : k.JobsInv)
    (hq : JobQueueInv max jtr k.js) (hbh : k.js.BhInv) (hC : k.JobMemorySafe hostToAipuMap a)
    (h : kmdStep k a = some (k', es)) : k'.HeldInv hostToAipuMap := by
  have hfiles := kmdStep_files h
  intro j' hj' hstate x hx b hb
  rcases kmdStep_evolves hq hbh h j' hj' with ⟨j, hj, hev⟩ | ⟨mem, sub, ha, hnew⟩
  · have hstate₀ := hev.not_finished hstate
    rw [hev.desc] at hx
    obtain ⟨f, hf, hid, y, hy, hyb⟩ := hH j hj hstate₀ x hx b hb
    rw [hev.session]
    rcases hfiles.owned_byte hown.phase hI.files h hf hy with
      ⟨f', hf', hid', hy'⟩ | ⟨desc, rfl, rfl⟩ | ⟨rfl, hhead⟩
    · exact ⟨f', hf', hid'.trans hid, y, hy', hyb⟩
    · exact absurd (.of_inRange hb hyb) (hC.1 j hj hid.symm hstate₀ x hx)
    · -- the release frees the buffer, and only running jobs are left of a file being released
      obtain ⟨c, hc, -⟩ := releaseFree_cases h
      obtain ⟨hl, hcid, hphase⟩ := Kmd.inPhase_eq_some hc
      obtain rfl := hI.files.eq_of_id (hl ▸ c.entry_mem) hf hcid
      have hbuf : y ∈ (k.buffersOf c.entry.id).head? := by
        rw [hI.files.buffersOf_eq hf, List.head?_map]
        exact hhead
      rcases List.mem_append.mp hj with hp | hs
      · obtain ⟨g, hg, hgid, hopened, -⟩ :=
          hI.active j hj (.inl (hq.pendingState j hp))
        obtain rfl := hI.files.eq_of_id hg hf (hgid.trans hid.symm)
        simp [hphase] at hopened
      · have hsched := (hq.schedState j hs).resolve_right hstate₀
        exact absurd (.of_inRange hb hyb) (hC.2 j hs hid.symm hsched x hx y hbuf)
  · obtain ⟨userJob, kernJob, stale, rfl, hdesc⟩ := jmAction_submit ha
    have hcall := ((kmdStep_runJobs h).submits hI ha).1
    obtain ⟨f, hf, hid, hphase, -⟩ := hI.calls _ hcall
    have hid : f.id = sub.session := hid
    rw [hnew.desc] at hx
    have hcovers := hC.1 x (hdesc ▸ hx)
    rw [← hid, hI.files.buffersOf_eq hf, ← KmdFile.owned_eq (by simp [hphase])] at hcovers
    obtain ⟨y, hy, hyb⟩ := hcovers.exists_inRange hb
    rw [hnew.session]
    rcases hfiles.owned_byte hown.phase hI.files h hf hy with
      ⟨f', hf', hid', hy'⟩ | ⟨desc, ha, -⟩ | ⟨ha, -⟩
    · exact ⟨f', hf', hid'.trans hid, y, hy', hyb⟩
    · cases ha
    · cases ha

/-! ## Runs -/

/-- No byte that a running job names is in a free block, in a buffer of another session, or in a
buffer that a call of another session owns. -/
def Kmd.JobMemoryHeld (k : Kmd) (hostToAipuMap : ℕ) : Prop :=
  ∀ j ∈ k.js.jm.scheduledQueue, j.state = .sched → ∀ x ∈ j.desc.ranges hostToAipuMap, ∀ b,
    InRange x b →
      (∀ region ∈ k.mm.regions, ∀ blk ∈ region.blkHead, blk.state = .free →
        ¬InRange (blk.pa, blk.bytes) b) ∧
      (∀ f ∈ k.files, f.id ≠ j.session → ∀ y ∈ f.owned, ¬InRange y b) ∧
      ∀ op ∈ k.ops, op.file ≠ j.session → ∀ y ∈ op.owned, ¬InRange y b

/-- Files and calls own different ranges. -/
theorem Kmd.OwnInv.owned_disjoint_ops (hown : k.OwnInv lost) {f : KmdFile} {op : KmdOp}
    (hf : f ∈ k.files) (hop : op ∈ k.ops) : List.Disjoint f.owned op.owned := by
  have hnodup : (k.owned ++ lost).Nodup := hown.owned.nodup_iff.mp hown.mm.nodup
  have hdisjoint := List.disjoint_of_nodup_append (List.nodup_append.mp hnodup).1
  intro x hx hy
  exact hdisjoint (List.mem_flatMap.mpr ⟨f, hf, hx⟩) (List.mem_flatMap.mpr ⟨op, hop, hy⟩)

/-- What the session of a job owns is not free and belongs to nobody else. -/
theorem Kmd.HeldInv.held (hH : k.HeldInv hostToAipuMap) (hown : k.OwnInv lost) :
    k.JobMemoryHeld hostToAipuMap := by
  intro j hj hstate x hx b hb
  obtain ⟨f, hf, hid, y, hy, hyb⟩ :=
    hH j (List.mem_append_right _ hj) (by simp [hstate]) x hx b hb
  have hfiles : ∀ {g : KmdFile} {z}, g ∈ k.files → z ∈ g.owned → z ∈ k.mm.allocated :=
    fun hg hz => hown.owned.mem_iff.mpr (List.mem_append_left _
      (List.mem_append_left _ (List.mem_flatMap.mpr ⟨_, hg, hz⟩)))
  have hops : ∀ {op : KmdOp} {z}, op ∈ k.ops → z ∈ op.owned → z ∈ k.mm.allocated :=
    fun hop hz => hown.owned.mem_iff.mpr (List.mem_append_left _
      (List.mem_append_right _ (List.mem_flatMap.mpr ⟨_, hop, hz⟩)))
  have hsame : ∀ {z}, z ∈ k.mm.allocated → InRange z b → y = z := by
    intro z hz hzb
    unfold InRange at hyb hzb
    exact hown.mm.eq_of_overlap (hfiles hf hy) hz (by omega) (by omega)
  refine ⟨fun region hregion blk hblk => hown.mm.not_free (hfiles hf hy) hyb hregion hblk, ?_, ?_⟩
  · intro g hg hne z hz hzb
    obtain rfl := hsame (hfiles hg hz) hzb
    exact hown.owned_disjoint hf hg (hid ▸ hne) hy hz
  · intro op hop _ z hz hzb
    obtain rfl := hsame (hops hop hz) hzb
    exact hown.owned_disjoint_ops hf hop hy hz

end Held

/-- **The memory of running jobs.**  In every run whose steps are all safe, no byte that a running
job names is free or belongs to another session. -/
theorem running_job_memory (version : AipuVersion) (map : MemoryMap) {maxSchedNum : ℤ}
    (hmax : 1 ≤ maxSchedNum) (hostToAipuMap : ℕ) {tr : List KmdEvent} {k : Kmd}
    (h : (kmdSystem version map maxSchedNum).Run (Kmd.JobMemorySafe hostToAipuMap) tr k) :
    k.JobMemoryHeld hostToAipuMap := by
  have hmax : 0 ≤ maxSchedNum := Int.le_of_lt hmax
  have hown : ∀ {tr k}, (kmdSystem version map maxSchedNum).Run
      (Kmd.JobMemorySafe hostToAipuMap) tr k → ∃ lost, k.OwnInv lost := by
    intro tr k h
    have hreq : ∀ k a, Kmd.JobMemorySafe hostToAipuMap k a → k.requestOk a = true := by
      intro k a hC
      cases a with
      | reqAlloc file tid kz req buf => exact decide_eq_true hC.2
      | _ => rfl
    obtain ⟨lost, hI, -⟩ := kmdSystem_own hreq h
    exact ⟨lost, hI⟩
  have hheld : k.HeldInv hostToAipuMap := by
    induction h with
    | @start k hs =>
      obtain ⟨-, ⟨idle, hjs⟩, -⟩ := hs
      have hjobs : k.js.jm.jobs = [] := by rw [hjs]; rfl
      simp [Kmd.HeldInv, hjobs]
    | next hrun hC hst ih =>
      obtain ⟨lost, hI⟩ := hown hrun
      obtain ⟨hq, hbh⟩ := kmdSystem_jm hmax hrun
      exact ih.step hI (kmdSystem_jobs hmax hrun) hq hbh hC hst
  obtain ⟨lost, hI⟩ := hown h
  exact hheld.held hI

/-! ## Sample runs -/

/-- A job whose code is in the first page of the sample buffer. -/
def sampleCodeJob : UserJob := { desc := { jobId := 1, startPcAddr := 0x100000, codeSize := 16 } }

/-- A session runs a job in its buffer. -/
def runInBuffer : List KmdAction :=
  [.openFile 7 [], .openFile 9 [], .reqAlloc 0 7 [] sampleReq {},
    .reqAdd 0 sampleReq sampleBuf true, .runAdd 0 7 sampleCodeJob [],
    .runSchedule 0 sampleCodeJob (initSessionJob 0 7 sampleCodeJob.desc) true sampleMem]

/-- While the job runs, another session requests a buffer. -/
theorem running_job_memory_sample :
    ∃ k : Kmd, k.js.jm.scheduledQueue.map (·.state) = [.sched] ∧
      k.owned = [(0x102000, 0x2000), (0x100000, 0x2000)] ∧ k.JobMemoryHeld 0 := by
  have hexec : ((kmdSystem .zhouyiV2 sampleMap 1).exec (Kmd.JobMemorySafe 0) sampleKmd
      (runInBuffer ++ [.reqAlloc 1 9 [] sampleReq {},
        .reqAdd 1 sampleReq { sampleBuf with pa := 0x102000, va := 0x40002000 } true])).map
      (fun r => (r.1.js.jm.scheduledQueue.map (·.state), r.1.owned)) =
      some ([.sched], [(0x102000, 0x2000), (0x100000, 0x2000)]) := by decide +kernel
  obtain ⟨⟨k, es⟩, hexec, hk⟩ := Option.map_eq_some_iff.mp hexec
  obtain ⟨hsched, howned⟩ := Prod.mk.inj hk
  exact ⟨k, hsched, howned, running_job_memory .zhouyiV2 sampleMap (by decide) 0
    (System.run_of_exec sampleKmd_init hexec)⟩

/-- A file is released while its job, which uses a buffer of its own session, runs, and another
session is granted the memory that the job still uses. -/
theorem running_job_memory_recycled :
    ∃ tr k, (kmdSystem .zhouyiV2 sampleMap 1).Run (Kmd.JobsOwnMemory 0) tr k ∧
      (∃ f ∈ k.files, f.id = 1 ∧ (0x100000, 0x2000) ∈ f.owned) ∧ ¬k.JobMemoryHeld 0 := by
  have hexec : ∃ k es j f, (kmdSystem .zhouyiV2 sampleMap 1).exec (Kmd.JobsOwnMemory 0) sampleKmd
      (runInBuffer ++ [.relCancel 0 sampleMem, .relDelete 0, .relFree 0, .relDetach 0,
        .reqAlloc 1 9 [] sampleReq {}, .reqAdd 1 sampleReq sampleBuf true]) = some (k, es) ∧
      k.js.jm.scheduledQueue = [j] ∧ j.state = .sched ∧ j.session = 0 ∧
      j.desc = sampleCodeJob.desc ∧ f ∈ k.files ∧ f.id = 1 ∧ f.owned = [(0x100000, 0x2000)] :=
    ⟨_, _, _, _, rfl, rfl, rfl, rfl, rfl, List.mem_cons_self, rfl, rfl⟩
  obtain ⟨k, es, j, f, hexec, hqueue, hstate, hsession, hdesc, hf, hid, howned⟩ := hexec
  refine ⟨es, k, System.run_of_exec sampleKmd_init hexec, ⟨f, hf, hid, by simp [howned]⟩,
    fun hheld => ?_⟩
  have hbyte : InRange (0x100000, 0x2000) 0x100000 := by decide
  have hcode : ((0x100000, 16) : ℕ × ℕ) ∈ j.desc.ranges 0 := by rw [hdesc]; decide
  obtain ⟨-, hothers, -⟩ := hheld j (by simp [hqueue]) hstate _ hcode 0x100000 (by decide)
  exact hothers f hf (by simp [hid, hsession]) _ (by simp [howned]) hbyte

end Aipu
