import AipuDriver.Kmd.Ownership

/-!
# Requests when `kzalloc` fails

`IPUIOC_REQBUF` creates up to two blocks and a session buffer, `IPUIOC_RUNJOB` a session job, the
wait queue of a thread and a job.  The first `kzalloc` of a call that fails is undone, since nothing
was done before it.  A later one is not: the block behind the request is linked without a look at
the pointer, a block stays allocated that no session knows, a session keeps a job that no queue
holds.

What the memory manager asks `kzalloc` for is decided before the call (`AipuBlock.splitKind`), so
the patterns of answers that do no harm can be told from the state before the call
(`AnswersHarmless`).
-/

namespace Aipu

open ListSearch Word Transition

/-! ## The objects that a split creates -/

/-- What a split does to its block. -/
inductive SplitKind
  /-- The request is refused, or there is no place for it. -/
  | refused
  /-- The block becomes the request. -/
  | whole
  /-- A block is created at the front or at the back. -/
  | edge
  /-- A block is created in the middle, and one behind it. -/
  | middle
deriving DecidableEq, Repr

/-- What `aipu_mm_split_block_no_lock` does to a block. -/
def AipuBlock.splitKind (blk : AipuBlock) (allocBase allocBytes : ℕ) : SplitKind :=
  let allocEnd := wrapSub 64 (wrap 64 (allocBase + allocBytes)) 1
  let targetEnd := wrapSub 64 (wrap 64 (blk.pa + blk.bytes)) 1
  if allocBytes = 0 ∨ allocEnd < blk.pa ∨ allocEnd > targetEnd then .refused
  else if allocBase = blk.pa ∧ allocEnd = targetEnd then .whole
  else if allocBase = blk.pa ∧ allocEnd < targetEnd then .edge
  else if allocBase > blk.pa ∧ allocEnd = targetEnd then .edge
  else .middle

/-- What a try of the request in the region does to the block that the search finds. -/
def AipuMemRegion.splitKind (r : AipuMemRegion) (req : BufRequest) : SplitKind :=
  match r.candidate req with
  | .error _ => .refused
  | .ok (c, start) => c.entry.splitKind start (getAllocSize r req.bytes)

/-- Whether a split succeeds with the answers, and the answers left; `none` when a null pointer is
dereferenced. -/
def SplitKind.answered : SplitKind → Oracle → Option (Bool × Oracle)
  | .refused, kz => some (false, kz)
  | .whole, kz => some (true, kz)
  | .edge, kz => some (kz.next.1, kz.next.2)
  | .middle, kz =>
    if kz.next.1 then
      if kz.next.2.next.1 then some (true, kz.next.2.next.2) else none
    else some (false, kz.next.2)

/-- The same for the tries in a list of regions, up to the first that succeeds. -/
def scanAnswered (kind : AipuMemRegion → SplitKind) :
    List AipuMemRegion → Oracle → Option (Bool × Oracle)
  | [], kz => some (false, kz)
  | r :: rest, kz =>
    match (kind r).answered kz with
    | none => none
    | some (true, kz) => some (true, kz)
    | some (false, kz) => scanAnswered kind rest kz

/-- What is done in a region that is scanned for the request: nothing, unless it is selected. -/
def BufRequest.kindIn (req : BufRequest) (sel : AipuMemRegion → Bool) (r : AipuMemRegion) :
    SplitKind :=
  if sel r then r.splitKind req else .refused

/-- The regions that `aipu_mm_alloc` scans. -/
def AipuMemoryManager.scanned (mm : AipuMemoryManager) : List AipuMemRegion :=
  if mm.sramCnt = 0 ∧ mm.ddrCnt = 0 then [] else mm.ddrHead

section Answers

variable (kz : Oracle) (tid : ℤ) {req : BufRequest} (buf : AipuBuffer)

/-- Whether a split succeeds depends on its kind and the answers. -/
theorem aipuMmSplitBlockNoLock_answered (c : Cursor AipuBlock) (start bytes type : ℕ) :
    (aipuMmSplitBlockNoLock kz tid c start bytes type).map
      (fun out => (decide (out.1 = 0), out.2.2)) = (c.entry.splitKind start bytes).answered kz := by
  have hinval : (-einval : ℤ) ≠ 0 := by decide
  have hnomem : (-enomem : ℤ) ≠ 0 := by decide
  unfold aipuMmSplitBlockNoLock AipuBlock.splitKind
  dsimp only
  split_ifs with hrefused hwhole hfront hback
  · simp [SplitKind.answered, hinval]
  · simp [SplitKind.answered]
  all_goals
    rcases hkz : kz.next with ⟨ok, kz₁⟩
    cases ok with
    | false => simp [SplitKind.answered, createBlock, hkz, hnomem]
    | true =>
      -- the block behind the request needs an answer of its own
      rcases hkz₁ : kz₁.next with ⟨ok₁, kz₂⟩
      cases ok₁ <;> simp [SplitKind.answered, createBlock, hkz, hkz₁]

/-- Whether a try in a region succeeds depends on the kind of the split and the answers. -/
theorem aipuMmTryAllocInRegion_answered (r : AipuMemRegion) :
    (aipuMmTryAllocInRegion kz tid r req buf).map (fun out => (decide (out.ret = 0), out.kz)) =
      (r.splitKind req).answered kz := by
  unfold aipuMmTryAllocInRegion
  rw [AipuMemRegion.allocInRegion_eq, aipuMmAllocInRegionNoLock]
  dsimp only
  rw [← AipuMemRegion.candidate, AipuMemRegion.splitKind]
  cases hfind : r.candidate req with
  | error ret =>
    have hret : ret ≠ 0 := aipuMmFindBlockCandidateNoLock_error hfind
    simp [hret, SplitKind.answered]
  | ok found =>
    obtain ⟨c, start⟩ := found
    have hsplit := aipuMmSplitBlockNoLock_answered kz tid c start (getAllocSize r req.bytes)
      req.dataType
    dsimp only
    rw [← hsplit]
    cases aipuMmSplitBlockNoLock kz tid c start (getAllocSize r req.bytes) req.dataType with
    | none => rfl
    | some out =>
      have hnomem : (-enomem : ℤ) ≠ 0 := by decide
      by_cases hret : out.1 = 0
      · simp [hret]
      · simp [hret, hnomem]

/-- Whether a scan succeeds depends on the kinds of the splits and the answers. -/
theorem scanRegions_answered (sel : AipuMemRegion → Bool) (head : List AipuMemRegion) {ret : ℤ}
    (hret : ret ≠ 0) :
    (scanRegions sel tid head ret kz req buf).map (fun out => (decide (out.ret = 0), out.kz)) =
      scanAnswered (req.kindIn sel) head kz := by
  induction head generalizing ret kz with
  | nil => simp [scanRegions, scanAnswered, hret]
  | cons r rest ih =>
    rw [scanRegions, scanAnswered, BufRequest.kindIn]
    split
    case isTrue hsel =>
      rw [← aipuMmTryAllocInRegion_answered kz tid buf]
      cases htry : aipuMmTryAllocInRegion kz tid r req buf with
      | none => rfl
      | some out =>
        by_cases hout : out.ret = 0
        · simp [hout]
        · obtain ⟨-, -, hreq, hbuf⟩ :=
            (aipuMmTryAllocInRegion_cases htry).resolve_right fun h => hout h.1
          simp only [hout, hreq, hbuf, if_false, Option.map_some, decide_false, ← ih _ hout]
          cases scanRegions sel tid rest out.ret out.kz req buf <;> rfl
    case isFalse hsel =>
      simp only [SplitKind.answered, ← ih _ hret]
      cases scanRegions sel tid rest ret kz req buf <;> rfl

/-- A request without size or without alignment finds no place in a region. -/
theorem splitKind_of_zero (r : AipuMemRegion) (h : req.bytes = 0 ∨ req.alignInPage = 0) :
    r.splitKind req = .refused := by
  have hfind : r.candidate req = .error (-einval) := by
    unfold AipuMemRegion.candidate aipuMmFindBlockCandidateNoLock
    rw [if_pos]
    rcases h with h | h
    · exact .inl (by simp [getAllocSize, h])
    · exact .inr (.inl (by simp [h, wrap]))
  rw [AipuMemRegion.splitKind, hfind]

/-- Whether `aipu_mm_alloc` succeeds depends on the kinds of the splits and the answers. -/
theorem aipuMmAlloc_answered (mm : AipuMemoryManager) :
    (aipuMmAlloc kz tid mm req buf).map (fun out => (decide (out.ret = 0), out.kz)) =
      scanAnswered (req.kindIn (req.selects mm.version)) mm.scanned kz := by
  unfold aipuMmAlloc
  split
  case isTrue hzero =>
    have hnone : ∀ l, scanAnswered (req.kindIn (req.selects mm.version)) l kz =
        some (false, kz) := by
      intro l
      induction l with
      | nil => rfl
      | cons r rest ih =>
        have hkind : req.kindIn (req.selects mm.version) r = .refused := by
          simp [BufRequest.kindIn, splitKind_of_zero r hzero]
        rw [scanAnswered, hkind]
        exact ih
    rw [hnone]
    rfl
  dsimp only
  split
  case isTrue hcnt => simp [AipuMemoryManager.scanned, hcnt, scanAnswered, enomem]
  case isFalse hcnt =>
    rw [if_neg (by simp [aipuConfigEnableSram]), allocFromDdr, aipuMmScanRegionsAlloc_eq,
      AipuMemoryManager.scanned, if_neg hcnt,
      ← scanRegions_answered kz tid {} _ _ (by decide : (-enomem : ℤ) ≠ 0)]
    cases scanRegions (req.selects mm.version) tid mm.ddrHead (-enomem) kz req {} <;> rfl

end Answers

/-! ## The two calls -/

/-- `IPUIOC_REQBUF` on the open file at the cursor, without a call in between: its code, the error
code of the request and the state afterwards. -/
def aipuIoctlReqbuf (k : Kmd) (c : Cursor KmdFile) (tid : ℤ) (kz : Oracle) (req : BufRequest)
    (buf : AipuBuffer) : Option (ℤ × AipuErrcode × Kmd) :=
  match aipuMmAlloc kz tid k.mm req buf with
  | none => none
  | some r =>
    let k := { k with mm := r.mem }
    if r.ret = 0 then
      let (ret, session, req) := aipuSessionAddBuf r.kz.next.1 c.entry.session r.req r.buf
      some (ret, req.errcode, k.setFile c { c.entry with session := session })
    else some (r.ret, r.req.errcode, k)

/-- The state after a session job was added to the session of the file at the cursor. -/
def Kmd.jobAdded (k : Kmd) (c : Cursor KmdFile) (session : AipuSession) : Kmd :=
  { k.setFile c { c.entry with session := session } with nextSessionJob := k.nextSessionJob + 1 }

/-- `IPUIOC_RUNJOB` on the open file at the cursor, without a call in between; `kz` answers the
session module and `kzOk` the job manager. -/
def aipuIoctlRunjob (k : Kmd) (c : Cursor KmdFile) (tid : ℤ) (kz : Oracle) (kzOk : Bool)
    (userJob : UserJob) (stale : SessionMem) : Option (ℤ × AipuErrcode × Kmd) :=
  match aipuSessionAddJob kz tid k.nextSessionJob c.entry.session userJob with
  | none => none
  | some (none, session, userJob) =>
    some (0, userJob.errcode, k.setFile c { c.entry with session := session })
  | some (some kernJob, session, userJob) =>
    let k := k.jobAdded c session
    if kzOk then
      match k.runJm (.submit (k.mem stale)
          ⟨kernJob.uthreadId, userJob.desc, c.entry.id, kernJob.id⟩) with
      | none => none
      | some (k, _) => some (0, .noError, k)
    else some (mapErrcode .createKobjErr, .createKobjErr, k)

/-- A call that creates kernel objects, with the answers of `kzalloc` while it is served. -/
inductive ObjectCall
  | reqbuf (tid : ℤ) (kz : Oracle) (req : BufRequest) (buf : AipuBuffer)
  | runjob (tid : ℤ) (kz : Oracle) (kzOk : Bool) (userJob : UserJob) (stale : SessionMem)

/-- The call on the open file at the cursor. -/
def serveCall (k : Kmd) (c : Cursor KmdFile) : ObjectCall → Option (ℤ × AipuErrcode × Kmd)
  | .reqbuf tid kz req buf => aipuIoctlReqbuf k c tid kz req buf
  | .runjob tid kz kzOk userJob stale => aipuIoctlRunjob k c tid kz kzOk userJob stale

section Steps

variable (version : AipuVersion) (map : MemoryMap) (maxSchedNum : ℤ) {k k' : Kmd} {file : ℕ}
  {c : Cursor KmdFile} {tid ret : ℤ} {kz : Oracle} {errcode : AipuErrcode}

/-- `IPUIOC_REQBUF` is one or two steps of the driver. -/
theorem aipuIoctlReqbuf_steps {req : BufRequest} {buf : AipuBuffer}
    (hc : k.inPhase file .opened = some c)
    (h : aipuIoctlReqbuf k c tid kz req buf = some (ret, errcode, k')) :
    ∃ es, (kmdSystem version map maxSchedNum).Steps anyStep k (es ++ [.returned file ret]) k' := by
  unfold aipuIoctlReqbuf at h
  cases halloc : aipuMmAlloc kz tid k.mm req buf with
  | none => simp [halloc] at h
  | some r =>
    simp only [halloc] at h
    split at h
    case isTrue hret =>
      cases hadd : aipuSessionAddBuf r.kz.next.1 c.entry.session r.req r.buf with
      | mk ret₁ out =>
      simp only [hadd, Option.some.injEq, Prod.mk.injEq] at h
      obtain ⟨rfl, -, rfl⟩ := h
      let mid : Kmd := { k with mm := r.mem, ops := .reqbuf file r.req r.buf :: k.ops }
      have hfirst : (kmdSystem version map maxSchedNum).step k (.reqAlloc file tid kz req buf) =
          some (mid, []) := by
        simp [kmdSystem, kmdStep, reqbufAlloc, hc, halloc, hret, mid]
      have hc' : mid.inPhase file .opened = some c := hc
      have hsecond : (kmdSystem version map maxSchedNum).step mid
          (.reqAdd file r.req r.buf r.kz.next.1) =
            some (Kmd.setFile { k with mm := r.mem } c { c.entry with session := out.1 },
              [.returned file ret₁]) := by
        simp [kmdSystem, kmdStep, reqbufAdd, hc', hadd, Kmd.setFile, mid]
      exact ⟨[], (System.Steps.refl.tail trivial hfirst).tail trivial hsecond⟩
    case isFalse hret =>
      simp only [Option.some.injEq, Prod.mk.injEq] at h
      obtain ⟨rfl, -, rfl⟩ := h
      have hfirst : (kmdSystem version map maxSchedNum).step k (.reqAlloc file tid kz req buf) =
          some ({ k with mm := r.mem }, [.returned file r.ret]) := by
        simp [kmdSystem, kmdStep, reqbufAlloc, hc, halloc, hret]
      exact ⟨[], System.Steps.refl.tail trivial hfirst⟩

/-- `IPUIOC_RUNJOB` is one or two steps of the driver. -/
theorem aipuIoctlRunjob_steps {kzOk : Bool} {userJob : UserJob} {stale : SessionMem}
    (hc : k.inPhase file .opened = some c)
    (h : aipuIoctlRunjob k c tid kz kzOk userJob stale = some (ret, errcode, k')) :
    ∃ es, (kmdSystem version map maxSchedNum).Steps anyStep k (es ++ [.returned file ret]) k' := by
  have hid := (Kmd.inPhase_eq_some hc).2.1
  unfold aipuIoctlRunjob at h
  cases hadd : aipuSessionAddJob kz tid k.nextSessionJob c.entry.session userJob with
  | none => simp [hadd] at h
  | some out =>
    obtain ⟨kernJob, session, userJob'⟩ := out
    cases kernJob with
    | none =>
      simp only [hadd, Option.some.injEq, Prod.mk.injEq] at h
      obtain ⟨rfl, -, rfl⟩ := h
      have hfirst : (kmdSystem version map maxSchedNum).step k (.runAdd file tid userJob kz) =
          some (k.setFile c { c.entry with session := session }, [.returned file 0]) := by
        simp [kmdSystem, kmdStep, runjobAdd, hc, hadd]
      exact ⟨[], System.Steps.refl.tail trivial hfirst⟩
    | some kernJob =>
      simp only [hadd] at h
      let mid : Kmd := { k.jobAdded c session with ops := .runjob file userJob' kernJob :: k.ops }
      have hfirst : (kmdSystem version map maxSchedNum).step k (.runAdd file tid userJob kz) =
          some (mid, []) := by
        simp [kmdSystem, kmdStep, runjobAdd, hc, hadd, mid, Kmd.jobAdded]
      have hops : Kmd.mk mid.mm mid.js mid.files (mid.ops.erase (.runjob file userJob' kernJob))
          mid.nextFile mid.nextSessionJob = k.jobAdded c session := by
        simp [mid, Kmd.jobAdded, Kmd.setFile]
      split at h
      case isTrue hkz =>
        cases hrun : (k.jobAdded c session).runJm (.submit ((k.jobAdded c session).mem stale)
            ⟨kernJob.uthreadId, userJob'.desc, c.entry.id, kernJob.id⟩) with
        | none => simp [hrun] at h
        | some out =>
          simp only [hrun, Option.some.injEq, Prod.mk.injEq] at h
          obtain ⟨rfl, -, rfl⟩ := h
          have hsecond : (kmdSystem version map maxSchedNum).step mid
              (.runSchedule file userJob' kernJob kzOk stale) =
                some (out.1, out.2 ++ [.returned file 0]) := by
            simp only [kmdSystem, kmdStep, runjobSchedule, hkz, if_true]
            rw [if_pos (by simp [mid]), hops, ← hid, hrun]
          exact ⟨out.2, (System.Steps.refl.tail trivial hfirst).tail trivial hsecond⟩
      case isFalse hkz =>
        simp only [Option.some.injEq, Prod.mk.injEq] at h
        obtain ⟨rfl, -, rfl⟩ := h
        have hsecond : (kmdSystem version map maxSchedNum).step mid
            (.runSchedule file userJob' kernJob kzOk stale) =
              some (k.jobAdded c session, [.returned file (mapErrcode .createKobjErr)]) := by
          simp only [kmdSystem, kmdStep, runjobSchedule, hkz, if_false, Bool.false_eq_true]
          rw [if_pos (by simp [mid]), hops]
        exact ⟨[], (System.Steps.refl.tail trivial hfirst).tail trivial hsecond⟩

/-- A call consists of steps of the driver, one for each lock that it takes. -/
theorem serveCall_steps {call : ObjectCall} (hc : k.inPhase file .opened = some c)
    (h : serveCall k c call = some (ret, errcode, k')) :
    ∃ es, (kmdSystem version map maxSchedNum).Steps anyStep k (es ++ [.returned file ret]) k' := by
  cases call with
  | reqbuf tid kz req buf => exact aipuIoctlReqbuf_steps version map maxSchedNum hc h
  | runjob tid kz kzOk userJob stale => exact aipuIoctlRunjob_steps version map maxSchedNum hc h

end Steps

/-! ## Calls that fail as a whole -/

/-- Two states have the same blocks, free bytes, session lists and job queues. -/
structure SameObjects (k k' : Kmd) : Prop where
  regions : k'.mm.regions.map (fun r => (r.blkHead, r.totFreeBytes)) =
    k.mm.regions.map fun r => (r.blkHead, r.totFreeBytes)
  sessions : k'.files.map (fun f => (f.session.sbufList, f.session.jobList)) =
    k.files.map fun f => (f.session.sbufList, f.session.jobList)
  pending : k'.js.jm.pendingQueue = k.js.jm.pendingQueue
  scheduled : k'.js.jm.scheduledQueue = k.js.jm.scheduledQueue

/-- The call dereferences no null pointer, and when it returns an error or sets an error code, it
has changed nothing. -/
def FailsWhole (k : Kmd) (c : Cursor KmdFile) (call : ObjectCall) : Prop :=
  ∃ ret errcode k', serveCall k c call = some (ret, errcode, k') ∧
    (ret ≠ 0 ∨ errcode ≠ .noError → SameObjects k k')

/-- Once the block of the request is created, or needs no object, the answers to the rest of the
call are positive: for the block behind the request and for the session buffer. -/
def RestGranted (kind : AipuMemRegion → SplitKind) : List AipuMemRegion → Oracle → Prop
  | [], _ => True
  | r :: rest, kz =>
    match kind r with
    | .refused => RestGranted kind rest kz
    | .whole => kz.next.1 = true
    | .edge =>
      if kz.next.1 then kz.next.2.next.1 = true else RestGranted kind rest kz.next.2
    | .middle =>
      if kz.next.1 then kz.next.2.next.1 = true ∧ kz.next.2.next.2.next.1 = true
      else RestGranted kind rest kz.next.2

/-- The answers of `kzalloc` do no harm: a call that has created its first object gets the
others. -/
def AnswersHarmless (k : Kmd) (c : Cursor KmdFile) : ObjectCall → Prop
  | .reqbuf _ kz req _ => RestGranted (req.kindIn (req.selects k.mm.version)) k.mm.scanned kz
  | .runjob tid kz kzOk _ _ =>
    kz.next.1 = true →
      (c.entry.session.waitQueue.any (·.uthreadId = tid) ∨ kz.next.2.next.1 = true) ∧ kzOk = true

/-- The rest of the call is granted iff the scan returns and, if it succeeds, so does the next
`kzalloc`. -/
theorem restGranted_iff (kind : AipuMemRegion → SplitKind) (l : List AipuMemRegion) (kz : Oracle) :
    RestGranted kind l kz ↔ ∃ ok kz', scanAnswered kind l kz = some (ok, kz') ∧
      (ok = true → kz'.next.1 = true) := by
  induction l generalizing kz with
  | nil => simp [RestGranted, scanAnswered]
  | cons r rest ih =>
    rw [RestGranted, scanAnswered]
    cases kind r with
    | refused => exact ih kz
    | whole => simp [SplitKind.answered]
    | edge =>
      rcases hkz : kz.next with ⟨ok, kz₁⟩
      cases ok with
      | false => simpa [SplitKind.answered, hkz] using ih kz₁
      | true => simp [SplitKind.answered, hkz]
    | middle =>
      rcases hkz : kz.next with ⟨ok, kz₁⟩
      cases ok with
      | false => simpa [SplitKind.answered, hkz] using ih kz₁
      | true =>
        rcases hkz₁ : kz₁.next with ⟨ok₁, kz₂⟩
        cases ok₁ <;> simp [SplitKind.answered, hkz, hkz₁]

section Whole

variable {k : Kmd} {c : Cursor KmdFile} {tid : ℤ} {kz : Oracle}

/-- A state has the same objects as itself. -/
theorem SameObjects.refl (k : Kmd) : SameObjects k k := ⟨rfl, rfl, rfl, rfl⟩

/-- An allocation that succeeds changes the free bytes of a region. -/
theorem freeBytes_changed {mm : AipuMemoryManager} {req : BufRequest} {buf : AipuBuffer}
    {res : AllocResult AipuMemoryManager} (h : aipuMmAlloc kz tid mm req buf = some res)
    (hret : res.ret = 0) :
    res.mem.regions.map AipuMemRegion.totFreeBytes ≠ mm.regions.map AipuMemRegion.totFreeBytes := by
  rcases aipuMmAlloc_cases h with ⟨hne, -⟩ | ⟨-, hmem, pre, r, r', post, hl, hl', -, htry⟩
  · exact absurd hret hne
  obtain ⟨kz', buf₀, out, hout, hout0, rfl, -⟩ := htry
  rcases aipuMmTryAllocInRegion_cases hout with ⟨hne, -⟩ | ⟨-, c, start, hplaced⟩
  · exact absurd hout0 hne
  obtain ⟨-, hpos, -⟩ := aipuMmFindBlockCandidateNoLock_spec hplaced.found
  intro heq
  rw [hmem] at heq
  simp only [AipuMemoryManager.regions, List.map_append, List.append_cancel_left_eq, hl, hl',
    List.map_cons, List.cons.injEq, and_true] at heq
  rw [hplaced.mem] at heq
  exact wrapSub_ne hpos (getAllocSize_lt r req.bytes) heq

/-- REQBUF fails as a whole iff its answers do no harm. -/
theorem reqbuf_failsWhole_iff (req : BufRequest) (buf : AipuBuffer) :
    FailsWhole k c (.reqbuf tid kz req buf) ↔ AnswersHarmless k c (.reqbuf tid kz req buf) := by
  rw [AnswersHarmless, restGranted_iff, ← aipuMmAlloc_answered kz tid buf]
  unfold FailsWhole serveCall aipuIoctlReqbuf
  dsimp only
  cases halloc : aipuMmAlloc kz tid k.mm req buf with
  | none => simp
  | some r =>
    dsimp only
    by_cases hret : r.ret = 0
    · have hchanged := freeBytes_changed halloc hret
      rcases hkz : r.kz.next with ⟨ok, kz'⟩
      cases ok with
      | false =>
        refine iff_of_false ?_ (by simp [hret, hkz])
        rintro ⟨ret, errcode, k', hserve, hsame⟩
        simp only [hret, aipuSessionAddBuf, createSessionBuf, Bool.false_eq_true, if_false, if_true,
          Option.some.injEq, Prod.mk.injEq] at hserve
        obtain ⟨rfl, rfl, rfl⟩ := hserve
        have hregions := congrArg (List.map Prod.snd) (hsame (.inl (by decide))).regions
        rw [List.map_map, List.map_map] at hregions
        exact hchanged hregions
      | true => simp [hret, hkz, aipuSessionAddBuf, createSessionBuf]
    · have hmem := (aipuMmAlloc_cases halloc).resolve_right fun h => hret h.1
      simp [hret, hmem.2, SameObjects.refl]

/-- The wait queue of a thread is there when it was created before, or when its `kzalloc`
succeeds. -/
theorem createThreadWaitQueueNoLock_isSome (head : List AipuThreadWaitQueue) :
    (createThreadWaitQueueNoLock kz head tid).isSome = true ↔
      head.any (·.uthreadId = tid) = true ∨ kz.next.1 = true := by
  unfold createThreadWaitQueueNoLock
  split
  next c hseek =>
    obtain ⟨rfl, hp, -⟩ := seek_eq_some hseek
    have hany : c.toList.any (·.uthreadId = tid) = true := List.any_eq_true.mpr ⟨_, c.entry_mem, hp⟩
    simp [hany]
  next hseek =>
    have hany : head.any (·.uthreadId = tid) = false := by
      rw [List.any_eq_false]
      exact fun queue hq => by simpa using seek_eq_none.mp hseek queue hq
    rw [hany]
    cases hkz : kz.next.1 <;> simp [hkz]

/-- RUNJOB fails as a whole iff its answers do no harm. -/
theorem runjob_failsWhole_iff (hl : k.files = c.toList) (kzOk : Bool) (userJob : UserJob)
    (stale : SessionMem) : FailsWhole k c (.runjob tid kz kzOk userJob stale) ↔
      AnswersHarmless k c (.runjob tid kz kzOk userJob stale) := by
  rw [AnswersHarmless]
  by_cases hkz : kz.next.1 = true
  · rw [← createThreadWaitQueueNoLock_isSome]
    cases hqueue : createThreadWaitQueueNoLock kz.next.2 c.entry.session.waitQueue tid with
    | none =>
      have hadd : aipuSessionAddJob kz tid k.nextSessionJob c.entry.session userJob = none := by
        simp [aipuSessionAddJob, hkz, initSessionJob, hqueue]
      refine iff_of_false ?_ (by simp [hkz])
      rintro ⟨ret, errcode, k', hserve, -⟩
      simp [serveCall, aipuIoctlRunjob, hadd] at hserve
    | some out =>
      let kernJob := initSessionJob k.nextSessionJob tid userJob.desc
      let session : AipuSession := { c.entry.session with
        jobList := kernJob :: c.entry.session.jobList, waitQueue := out.1 }
      have hadd : aipuSessionAddJob kz tid k.nextSessionJob c.entry.session userJob =
          some (some kernJob, session, { userJob with errcode := .noError }) := by
        simp [aipuSessionAddJob, hkz, initSessionJob, hqueue, kernJob, session]
      cases kzOk with
      | true =>
        refine iff_of_true ?_ (by simp)
        obtain ⟨out, hrun⟩ : ∃ out, (k.jobAdded c session).runJm
            (.submit ((k.jobAdded c session).mem stale)
              ⟨kernJob.uthreadId, userJob.desc, c.entry.id, kernJob.id⟩) = some out := ⟨_, rfl⟩
        refine ⟨0, .noError, out.1, ?_, by simp⟩
        simp only [serveCall, aipuIoctlRunjob, hadd, if_true, hrun]
      | false =>
        -- the session keeps a job that no queue holds
        refine iff_of_false ?_ (by simp [hkz])
        rintro ⟨ret, errcode, k', hserve, hsame⟩
        simp only [serveCall, aipuIoctlRunjob, hadd, Bool.false_eq_true, if_false,
          Option.some.injEq, Prod.mk.injEq] at hserve
        obtain ⟨rfl, rfl, rfl⟩ := hserve
        have hsessions := (hsame (.inl (by decide))).sessions
        simp [Kmd.jobAdded, Kmd.setFile, hl, Cursor.toList, session] at hsessions
  · have hadd : aipuSessionAddJob kz tid k.nextSessionJob c.entry.session userJob =
        some (none, c.entry.session, { userJob with errcode := .createKobjErr }) := by
      simp [aipuSessionAddJob, hkz]
    refine iff_of_true ⟨0, .createKobjErr, k, ?_, fun _ => .refl k⟩ fun h => absurd h hkz
    simp only [serveCall, aipuIoctlRunjob, hadd, Kmd.setFile_self hl]

end Whole

/-- **Requests under allocation failure.**  In every state of the driver, a call on an open file
dereferences no null pointer and changes nothing when it fails iff it gets the rest of its objects
once it has created the first. -/
theorem requests_fail_whole_iff {k : Kmd} {file : ℕ} {c : Cursor KmdFile}
    (hc : k.inPhase file .opened = some c) (call : ObjectCall) :
    FailsWhole k c call ↔ AnswersHarmless k c call := by
  have hl := (Kmd.inPhase_eq_some hc).1
  cases call with
  | reqbuf tid kz req buf => exact reqbuf_failsWhole_iff req buf
  | runjob tid kz kzOk userJob stale => exact runjob_failsWhole_iff hl kzOk userJob stale

/-- The sample platform with one open file. -/
def openedKmd : Kmd :=
  { sampleKmd with files := [⟨0, { userPid := 7 }, .opened, []⟩], nextFile := 1 }

theorem openedKmd_reachable : (kmdSystem .zhouyiV2 sampleMap 1).Reachable anyStep openedKmd := by
  have hexec : (kmdSystem .zhouyiV2 sampleMap 1).exec anyStep sampleKmd [.openFile 7 []] =
      some (openedKmd, [.returned 0 0]) := rfl
  exact ⟨_, System.run_of_exec sampleKmd_init hexec⟩

/-- A buffer in the middle of the free block, for which no object at all can be created. -/
theorem requests_fail_whole_sample :
    FailsWhole openedKmd ⟨[], ⟨0, { userPid := 7 }, .opened, []⟩, []⟩
      (.reqbuf 7 [false]
        { bytes := 4096, alignInPage := 4, dataType := aipuMmDataTypeReuse } {}) := by
  have hopen : openedKmd.inPhase 0 .opened =
      some ⟨[], ⟨0, { userPid := 7 }, .opened, []⟩, []⟩ := rfl
  exact (requests_fail_whole_iff hopen _).mpr trivial

/-- A buffer in the middle of the free block whose second block cannot be created, a buffer whose
session buffer cannot be created, and a job whose second object cannot be created. -/
theorem requests_fail_halfway :
    (kmdSystem .zhouyiV2 sampleMap 1).Reachable anyStep openedKmd ∧
      ∃ c, openedKmd.inPhase 0 .opened = some c ∧
        serveCall openedKmd c (.reqbuf 7 [true, false]
          { bytes := 4096, alignInPage := 4, dataType := aipuMmDataTypeReuse } {}) = none ∧
        ¬FailsWhole openedKmd c (.reqbuf 7 [true, false]
          { bytes := 4096, alignInPage := 1, dataType := aipuMmDataTypeText } {}) ∧
        ¬FailsWhole openedKmd c (.runjob 7 [] false { desc := {} } ⟨fun _ => 0, fun _ => 0⟩) := by
  refine ⟨openedKmd_reachable, _, rfl, rfl, ?_, ?_⟩
  · rintro ⟨ret, errcode, k', hserve, hsame⟩
    obtain ⟨rfl, hrest⟩ := Prod.mk.inj (Option.some.inj hserve)
    obtain ⟨rfl, rfl⟩ := Prod.mk.inj hrest
    exact absurd (hsame (.inl (by decide))).regions (by decide)
  · rintro ⟨ret, errcode, k', hserve, hsame⟩
    obtain ⟨rfl, hrest⟩ := Prod.mk.inj (Option.some.inj hserve)
    obtain ⟨rfl, rfl⟩ := Prod.mk.inj hrest
    exact absurd (hsame (.inl (by decide))).sessions (by decide)

end Aipu
