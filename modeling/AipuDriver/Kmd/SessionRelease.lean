import AipuDriver.Kmd.DriverJobs

/-!
# The buffers of a closed session

`aipu_mm_free_session_buffers` has no counter: it reads the head of the buffer list, frees its
memory, and takes the first entry with that range off the list, until the list is empty.  Since each
range is owned once, the entry taken off is the head, each release finds the block of the buffer,
and the loop ends with the memory of the session and no other freed.
-/

namespace Aipu

open ListSearch Tiling Transition

/-! ## Blocks that stay -/

/-- The range of a block. -/
def AipuBlock.range (blk : AipuBlock) : ℕ × ℕ := (blk.pa, blk.bytes)

/-- The allocated blocks of a region, in order. -/
def AipuMemRegion.allocatedBlocks (r : AipuMemRegion) : List AipuBlock :=
  r.blkHead.filter fun blk => !blk.isFree

/-- `r'` is `r` with the blocks of the ranges `xs` freed, and no other block that is allocated
changed. -/
structure FreedRanges (xs : List (ℕ × ℕ)) (r r' : AipuMemRegion) : Prop where
  geometry : r'.geometry = r.geometry
  blocks : r'.allocatedBlocks = r.allocatedBlocks.filter fun blk => blk.range ∉ xs

/-- The allocated ranges are those of the allocated blocks. -/
theorem AipuMemRegion.allocated_eq (r : AipuMemRegion) :
    r.allocated = r.allocatedBlocks.map AipuBlock.range := rfl

section Freed

variable {r r' r'' : AipuMemRegion} {xs ys : List (ℕ × ℕ)}

/-- Freeing no range changes nothing. -/
theorem FreedRanges.refl (r : AipuMemRegion) : FreedRanges [] r r := ⟨rfl, by simp⟩

/-- Ranges are freed one after the other. -/
theorem FreedRanges.trans (h : FreedRanges xs r r') (h' : FreedRanges ys r' r'') :
    FreedRanges (xs ++ ys) r r'' := by
  refine ⟨h'.geometry.trans h.geometry, ?_⟩
  rw [h'.blocks, h.blocks, List.filter_filter]
  refine List.filter_congr fun blk _ => ?_
  simp only [List.mem_append, not_or, Bool.decide_and, decide_not]
  exact Bool.and_comm _ _

/-- So they are in lists of regions. -/
theorem FreedRanges.trans_list {l l' l'' : List AipuMemRegion}
    (h : List.Forall₂ (FreedRanges xs) l l')
    (h' : List.Forall₂ (FreedRanges ys) l' l'') : List.Forall₂ (FreedRanges (xs ++ ys)) l l'' := by
  induction h generalizing l'' with
  | nil => exact List.forall₂_nil_left_iff.mpr (List.forall₂_nil_left_iff.mp h')
  | cons hr _ ih =>
    obtain ⟨r'', rest, hr', hrest, rfl⟩ := List.forall₂_cons_left_iff.mp h'
    exact .cons (hr.trans hr') (ih hrest)

/-- A region without the range does not change. -/
theorem FreedRanges.of_not_mem {x : ℕ × ℕ} (h : x ∉ r.allocated) : FreedRanges [x] r r := by
  refine ⟨rfl, (List.filter_eq_self.mpr fun blk hblk => ?_).symm⟩
  have hne : blk.range ≠ x := fun heq => h (r.allocated_eq ▸ heq ▸ List.mem_map_of_mem hblk)
  simpa using hne

/-- The ranges that stay allocated. -/
theorem FreedRanges.allocated (h : FreedRanges xs r r') :
    r'.allocated = r.allocated.filter (· ∉ xs) := by
  rw [r'.allocated_eq, r.allocated_eq, h.blocks, List.filter_map]
  rfl

/-- The free counter grows by the sizes of the ranges freed. -/
theorem FreedRanges.totFreeBytes (h : FreedRanges xs r r') (hr : r.Inv) (hr' : r'.Inv) :
    r'.totFreeBytes = r.totFreeBytes + ((r.allocated.filter (· ∈ xs)).map Prod.snd).sum := by
  have hsplit : ((r.allocated.filter (· ∈ xs)).map Prod.snd).sum +
      ((r.allocated.filter (· ∉ xs)).map Prod.snd).sum = (r.allocated.map Prod.snd).sum := by
    rw [← List.sum_append, ← List.map_append]
    refine ((List.Perm.map Prod.snd ?_).sum_nat)
    have := List.filter_append_perm (fun x => decide (x ∈ xs)) r.allocated
    simpa using this
  have hbal := hr.totFree_add_allocated
  have hbal' := hr'.totFree_add_allocated
  obtain ⟨-, htot⟩ := AipuMemRegion.window_of_geometry h.geometry
  rw [h.allocated] at hbal'
  omega

end Freed

/-! ## One release -/

section Release

variable {before after before' after' : List AipuBlock} {target target' : AipuBlock}

/-- The merge with the block before keeps the allocated blocks before the freed one. -/
theorem mergePrev_allocated (h : mergePrev before target = (before', target'))
    (hfree : target.isFree = true) :
    target'.isFree = true ∧
      (before'.filter fun blk => !blk.isFree) = before.filter fun blk => !blk.isFree := by
  obtain ⟨prev, rfl, -, hprev, rfl⟩ | ⟨rfl, rfl, -⟩ := mergePrev_cases h
  · have hprevFree : prev.isFree = true := AipuBlock.isFree_eq_true.mpr hprev
    exact ⟨hprevFree, by simp [hprevFree]⟩
  · exact ⟨hfree, rfl⟩

/-- The merge with the block after keeps the allocated blocks after the freed one. -/
theorem mergeNext_allocated (h : mergeNext target after = (target', after'))
    (hfree : target.isFree = true) :
    target'.isFree = true ∧
      (after'.filter fun blk => !blk.isFree) = after.filter fun blk => !blk.isFree := by
  obtain ⟨next, rfl, -, hnext, rfl⟩ | ⟨rfl, rfl, -⟩ := mergeNext_cases h
  · have hnextFree : next.isFree = true := by
      rw [← Bool.not_eq_false, AipuBlock.isFree_eq_false]
      exact hnext
    exact ⟨hfree, by simp [hnextFree]⟩
  · exact ⟨hfree, rfl⟩

/-- A release in a region frees the block of the range, when that is the only one with it. -/
theorem aipuMmFreeInRegion_freed {r r' : AipuMemRegion} {buf : BufDesc} (hr : r.Inv)
    (hbuf : buf.range ∈ r.allocated) (h : aipuMmFreeInRegion r buf = (0, r')) :
    FreedRanges [buf.range] r r' := by
  have hnodup : (r.allocatedBlocks.map AipuBlock.range).Nodup := r.allocated_eq ▸ hr.nodup
  cases hseek : seek (fun blk => blk.pa = buf.pa ∧ blk.bytes = buf.bytes) r.blkHead with
  | none =>
    rw [aipuMmFreeInRegion, hseek] at h
    exact absurd (Prod.mk.inj h).1 (by decide)
  | some c =>
    obtain ⟨hl, hfound, -⟩ := seek_eq_some hseek
    obtain ⟨hpa, hbytes⟩ : c.entry.pa = buf.pa ∧ c.entry.bytes = buf.bytes := by simpa using hfound
    have hrange : c.entry.range = buf.range := by rw [AipuBlock.range, hpa, hbytes, BufDesc.range]
    -- blocks do not overlap, so the block found is the allocated one
    have halloc : c.entry.isFree = false := by
      obtain ⟨x, hx, hxocc, hxeq⟩ := mem_occupied.mp hbuf
      obtain ⟨hxpa, hxbytes⟩ := Prod.mk.inj hxeq
      have hxpos := hr.tiles.len_pos hx
      have hentry : c.entry = x :=
        hr.tiles.eq_of_overlap (hl ▸ c.entry_mem) hx (by omega) (by omega)
      exact hentry ▸ hxocc
    have hblocks : r.allocatedBlocks = (c.before.filter fun blk => !blk.isFree) ++
        c.entry :: c.after.filter fun blk => !blk.isFree := by
      rw [AipuMemRegion.allocatedBlocks, hl, Cursor.toList]
      simp [halloc]
    obtain ⟨before', target₁, target₂, after', hprev, hnext, heq⟩ := aipuMmFreeInRegion_eq hseek
    obtain rfl := (Prod.mk.inj (heq.symm.trans h)).2
    obtain ⟨hfree₁, hbefore⟩ := mergePrev_allocated hprev rfl
    obtain ⟨hfree₂, hafter⟩ := mergeNext_allocated hnext hfree₁
    refine ⟨rfl, ?_⟩
    rw [hblocks, List.map_append, List.map_cons, List.nodup_middle, ← List.map_append,
      List.nodup_cons, hrange] at hnodup
    have hother : ∀ blk ∈ (c.before.filter fun blk => !blk.isFree) ++
        c.after.filter fun blk => !blk.isFree, blk.range ∉ [buf.range] := fun blk hblk => by
      rw [List.mem_singleton]
      exact fun heq => hnodup.1 (heq ▸ List.mem_map_of_mem hblk)
    rw [hblocks, List.filter_append, List.filter_cons, if_neg (by simp [hrange]),
      ← List.filter_append,
      List.filter_eq_self.mpr fun blk hblk => decide_eq_true (hother blk hblk), ← hbefore, ← hafter]
    simp [AipuMemRegion.allocatedBlocks, hfree₂]

variable {mm mm' : AipuMemoryManager} {buf : BufDesc}

/-- Replacing the region of a range by one where it was freed frees it in the list of regions. -/
theorem freedRanges_of_replaced {l l' : List AipuMemRegion} {x : ℕ × ℕ}
    (hdisj : l.Pairwise AipuMemRegion.DisjointFrom) (hinv : ∀ r ∈ l, r.Inv)
    (h : ReplacedIn (fun r r' => x ∈ r.allocated ∧ FreedRanges [x] r r') l l') :
    List.Forall₂ (FreedRanges [x]) l l' := by
  obtain ⟨pre, r, r', post, rfl, rfl, hx, hfreed⟩ := h
  obtain ⟨hpos, hwin⟩ := (hinv r (by simp)).bounds hx
  -- the windows of the other regions do not hold the range
  have hnot : ∀ s ∈ pre ++ r :: post, s.DisjointFrom r → x ∉ s.allocated := fun s hs hdisj hxs => by
    obtain ⟨-, hwins⟩ := (hinv s hs).bounds hxs
    unfold AipuMemRegion.DisjointFrom at hdisj
    omega
  obtain ⟨-, hpost, hcross⟩ := List.pairwise_append.mp hdisj
  refine List.rel_append (List.forall₂_same.mpr fun s hs => ?_)
    (.cons hfreed (List.forall₂_same.mpr fun s hs => ?_))
  · exact .of_not_mem (hnot s (by simp [hs]) (hcross s hs r List.mem_cons_self))
  · exact .of_not_mem (hnot s (by simp [hs]) ((List.pairwise_cons.mp hpost).1 s hs).symm)

/-- What a memory manager keeps besides the blocks and the counters of its regions. -/
structure SameManager (mm mm' : AipuMemoryManager) : Prop where
  sramCnt : mm'.sramCnt = mm.sramCnt
  ddrCnt : mm'.ddrCnt = mm.ddrCnt
  sramGlobal : mm'.sramGlobal = mm.sramGlobal
  version : mm'.version = mm.version

/-- A release in the region at a cursor frees the block of the range there. -/
theorem freeAt_freed {head head' : List AipuMemRegion} {c : Cursor AipuMemRegion}
    (hl : head = c.toList)
    (hinv : c.entry.Inv) (hbuf : buf.range ∈ c.entry.allocated) (h : freeAt c buf = (0, head')) :
    ReplacedIn (fun r r' => buf.range ∈ r.allocated ∧ FreedRanges [buf.range] r r') head head' := by
  obtain ⟨hret, rfl⟩ := Prod.mk.inj h
  exact ⟨c.before, c.entry, _, c.after, hl, rfl, hbuf,
    aipuMmFreeInRegion_freed hinv hbuf (Prod.ext hret rfl)⟩

/-- A release frees the block of the range, and no other one. -/
theorem aipuMmFree_freed (hmm : mm.Inv) (hbuf : buf.range ∈ mm.allocated)
    (h : aipuMmFree mm buf = (0, mm')) :
    SameManager mm mm' ∧ List.Forall₂ (FreedRanges [buf.range]) mm.regions mm'.regions := by
  have hsram : ∀ r ∈ mm.sramHead, r ∈ mm.regions := fun r hr => List.mem_append_left _ hr
  have hddr : ∀ r ∈ mm.ddrHead, r ∈ mm.regions := fun r hr => List.mem_append_right _ hr
  unfold aipuMmFree at h
  split at h
  next c hfind =>
    obtain ⟨hl, hx⟩ := aipuMmFindRegion_spec hmm hsram hbuf hfind
    have hc := hmm.region c.entry (hsram _ (hl ▸ c.entry_mem))
    cases hat : freeAt c buf with
    | mk ret head' =>
    rw [hat] at h
    obtain ⟨rfl, rfl⟩ := Prod.mk.inj h
    exact ⟨⟨rfl, rfl, rfl, rfl⟩, freedRanges_of_replaced hmm.disjoint hmm.region
      (freeAt_freed hl hc hx hat).append_right⟩
  · split at h
    · exact absurd (Prod.mk.inj h).1 (by decide)
    next c hfind =>
      obtain ⟨hl, hx⟩ := aipuMmFindRegion_spec hmm hddr hbuf hfind
      have hc := hmm.region c.entry (hddr _ (hl ▸ c.entry_mem))
      cases hat : freeAt c buf with
      | mk ret head' =>
      rw [hat] at h
      obtain ⟨rfl, rfl⟩ := Prod.mk.inj h
      exact ⟨⟨rfl, rfl, rfl, rfl⟩, freedRanges_of_replaced hmm.disjoint hmm.region
        (freeAt_freed hl hc hx hat).append_left⟩

end Release

/-! ## The loop -/

/-- `aipu_mm_free_session_buffers`; `none` when the loop has not ended after `fuel` rounds. -/
def aipuMmFreeSessionBuffers : ℕ → AipuMemoryManager → AipuSession →
    Option (ℤ × AipuMemoryManager × AipuSession)
  | 0, _, _ => none
  | fuel + 1, mm, session =>
    match aipuGetSessionSbufHead session with
    | none => some (0, mm, session)
    | some buf =>
      let desc : BufDesc := { pa := buf.pa, bytes := buf.bytes }
      let (ret, mm) := aipuMmFree mm desc
      if ret ≠ 0 then some (ret, mm, session)
      else
        let (ret, session) := aipuSessionDetachBuf session desc
        if ret ≠ 0 then some (ret, mm, session)
        else aipuMmFreeSessionBuffers fuel mm session

/-- `mm'` is `mm` with exactly the ranges `xs` released. -/
structure ReleasedAll (mm mm' : AipuMemoryManager) (xs : List (ℕ × ℕ)) : Prop where
  inv : mm'.Inv
  same : SameManager mm mm'
  regions : List.Forall₂ (FreedRanges xs) mm.regions mm'.regions
  allocated : mm.allocated.Perm (xs ++ mm'.allocated)

/-- The first entry of a list is found by its own range. -/
theorem aipuSessionDetachBuf_head {session : AipuSession} {sbuf : SessionBuf}
    {rest : List SessionBuf}
    {desc : BufDesc} (hl : session.sbufList = sbuf :: rest) (hrange : sbuf.range = desc.range) :
    aipuSessionDetachBuf session desc = (0, { session with sbufList := rest }) := by
  obtain ⟨hpa, hbytes⟩ := Prod.mk.inj hrange
  have hfind : findBufferBydescNoLock session desc = some ⟨[], sbuf, rest⟩ := by
    simp [findBufferBydescNoLock, seek, findFirst, hl, hpa, hbytes]
  simp [aipuSessionDetachBuf, hfind]

/-- Freeing the buffers of a session ends, returns zero and frees exactly them, when each of them
owns its range. -/
theorem aipuMmFreeSessionBuffers_spec {mm : AipuMemoryManager} {session : AipuSession}
    {others : List (ℕ × ℕ)} (hmm : mm.Inv)
    (howned : mm.allocated.Perm (session.sbufList.map SessionBuf.range ++ others)) :
    ∃ mm', (∀ fuel, session.sbufList.length < fuel → aipuMmFreeSessionBuffers fuel mm session =
        some (0, mm', { session with sbufList := [] })) ∧
      ReleasedAll mm mm' (session.sbufList.map SessionBuf.range) := by
  generalize hl : session.sbufList = l at howned
  induction l generalizing mm session with
  | nil =>
    refine ⟨mm, fun fuel hfuel => ?_, hmm, ⟨rfl, rfl, rfl, rfl⟩,
      List.forall₂_same.mpr fun r _ => .refl r, .refl _⟩
    obtain ⟨fuel, rfl⟩ := Nat.exists_eq_succ_of_ne_zero hfuel.ne'
    have hsession : { session with sbufList := [] } = session := by rw [← hl]
    simp [aipuMmFreeSessionBuffers, aipuGetSessionSbufHead, hl, hsession]
  | cons sbuf rest ih =>
    obtain ⟨desc, hdesc⟩ : ∃ desc : BufDesc,
        { pa := sbuf.desc.pa, bytes := sbuf.desc.bytes } = desc :=
      ⟨_, rfl⟩
    have hrange : sbuf.range = desc.range := hdesc ▸ rfl
    have hmem : desc.range ∈ mm.allocated := howned.mem_iff.mpr (by simp [hrange])
    obtain ⟨mm₁, hfree, hrel⟩ : ∃ mm₁, aipuMmFree mm desc = (0, mm₁) ∧
        MmReleased mm mm₁ desc.range :=
      aipuMmFree_spec hmm hmem
    obtain ⟨hsame, hregions⟩ := aipuMmFree_freed hmm hmem hfree
    rw [List.map_cons, hrange] at howned ⊢
    have hrest : mm₁.allocated.Perm (rest.map SessionBuf.range ++ others) :=
      (hrel.allocated.symm.trans howned).cons_inv
    obtain ⟨session', hsession⟩ : ∃ session',
        { session with sbufList := rest } = session' := ⟨_, rfl⟩
    obtain ⟨mm', hloop, hall⟩ := ih hrel.inv (hsession ▸ rfl : session'.sbufList = rest) hrest
    refine ⟨mm', fun fuel hfuel => ?_, hall.inv, ?_, ?_, ?_⟩
    · obtain ⟨fuel, rfl⟩ := Nat.exists_eq_succ_of_ne_zero (Nat.zero_lt_of_lt hfuel).ne'
      have hdetach := aipuSessionDetachBuf_head hl hrange
      rw [aipuMmFreeSessionBuffers, aipuGetSessionSbufHead, hl]
      simp only [List.head?_cons, Option.map_some, hdesc, hfree, hdetach, ne_eq,
        not_true_eq_false, if_false]
      rw [hsession, hloop fuel (Nat.lt_of_succ_lt_succ hfuel), ← hsession]
    · exact ⟨hall.same.sramCnt.trans hsame.sramCnt, hall.same.ddrCnt.trans hsame.ddrCnt,
        hall.same.sramGlobal.trans hsame.sramGlobal, hall.same.version.trans hsame.version⟩
    · exact FreedRanges.trans_list hregions hall.regions
    · exact hrel.allocated.trans (hall.allocated.cons _)

/-! ## The loop in the driver -/

/-- The steps of the loop for a file with `n` buffers. -/
def releaseLoop (file : ℕ) : ℕ → List KmdAction
  | 0 => [.relFree file]
  | n + 1 => .relFree file :: .relDetach file :: releaseLoop file n

section Loop

variable {version : AipuVersion} {map : MemoryMap} {maxSchedNum : ℤ} {k : Kmd} {c : Cursor KmdFile}

/-- The file at the cursor is found in its phase when no file before it has its number. -/
theorem Kmd.inPhase_cursor {phase : ReleasePhase} (hfiles : k.files = c.toList)
    (hbefore : ∀ f ∈ c.before, f.id ≠ c.entry.id) (hphase : c.entry.phase = phase) :
    k.inPhase c.entry.id phase = some c := by
  unfold Kmd.inPhase
  rw [hfiles]
  exact seek_toList (fun f hf => by simp [hbefore f hf]) (by simp [hphase])

/-- A round of the loop in the driver. -/
theorem exec_releaseRound {sbuf : SessionBuf} {rest : List SessionBuf} {desc : BufDesc}
    {mm₁ : AipuMemoryManager} {as : List KmdAction} {k' : Kmd} {es : List KmdEvent}
    (hfiles : k.files = c.toList) (hbefore : ∀ f ∈ c.before, f.id ≠ c.entry.id)
    (hphase : c.entry.phase = .freeing) (hl : c.entry.session.sbufList = sbuf :: rest)
    (hdesc : { pa := sbuf.desc.pa, bytes := sbuf.desc.bytes } = desc)
    (hfree : aipuMmFree k.mm desc = (0, mm₁))
    (hrest : (kmdSystem version map maxSchedNum).exec BuffersServed
      { k.setFile c { c.entry with
          session := { c.entry.session with sbufList := rest }
          phase := .freeing } with mm := mm₁ } as = some (k', es)) :
    ∃ es, (kmdSystem version map maxSchedNum).exec BuffersServed k
      (.relFree c.entry.id :: .relDetach c.entry.id :: as) = some (k', es) := by
  have hstep : releaseFree k c.entry.id =
      some ({ k.setFile c { c.entry with phase := .freed desc } with mm := mm₁ },
        [.freed desc 0]) := by
    simp [releaseFree, Kmd.inPhase_cursor hfiles hbefore hphase, aipuGetSessionSbufHead, hl,
      hdesc, hfree]
  have hdetach : releaseDetach { k.setFile c { c.entry with phase := .freed desc } with mm := mm₁ }
      c.entry.id = some ({ k.setFile c { c.entry with
        session := { c.entry.session with sbufList := rest }, phase := .freeing } with mm := mm₁ },
          []) := by
    have hseek : seek (fun f : KmdFile => f.id = c.entry.id)
        (c.before ++ { c.entry with phase := .freed desc } :: c.after) =
          some ⟨c.before, { c.entry with phase := .freed desc }, c.after⟩ :=
      seek_toList (c := ⟨c.before, { c.entry with phase := .freed desc }, c.after⟩)
        (fun f hf => by simp [hbefore f hf]) (by simp)
    simp only [releaseDetach, Kmd.setFile, hseek]
    rw [aipuSessionDetachBuf_head hl (hdesc ▸ rfl)]
    rfl
  exact ⟨_, System.exec_cons ⟨rfl, rfl⟩ hstep (System.exec_cons ⟨rfl, rfl⟩ hdetach hrest)⟩

/-- When the loop returns zero, its steps in the driver do what it does, and change nothing else. -/
theorem exec_releaseLoop {fuel : ℕ} {mm' : AipuMemoryManager} {session' : AipuSession}
    (hfiles : k.files = c.toList) (hbefore : ∀ f ∈ c.before, f.id ≠ c.entry.id)
    (hphase : c.entry.phase = .freeing)
    (h : aipuMmFreeSessionBuffers fuel k.mm c.entry.session = some (0, mm', session')) :
    ∃ es, (kmdSystem version map maxSchedNum).exec BuffersServed k
        (releaseLoop c.entry.id c.entry.session.sbufList.length) =
      some ({ k.setFile c { c.entry with session := session', phase := .buffersFreed } with
        mm := mm' }, es) := by
  generalize hl : c.entry.session.sbufList = l
  induction l generalizing k c fuel with
  | nil =>
    obtain _ | fuel := fuel
    · cases h
    rw [aipuMmFreeSessionBuffers, aipuGetSessionSbufHead, hl] at h
    obtain ⟨-, rfl, rfl⟩ : (0 : ℤ) = 0 ∧ k.mm = mm' ∧ c.entry.session = session' := by simpa using h
    have hstep : releaseFree k c.entry.id =
        some (k.setFile c { c.entry with phase := .buffersFreed }, []) := by
      simp [releaseFree, Kmd.inPhase_cursor hfiles hbefore hphase, aipuGetSessionSbufHead, hl]
    exact ⟨_, System.exec_cons ⟨rfl, rfl⟩ hstep rfl⟩
  | cons sbuf rest ih =>
    obtain _ | fuel := fuel
    · cases h
    obtain ⟨desc, hdesc⟩ : ∃ desc : BufDesc,
        { pa := sbuf.desc.pa, bytes := sbuf.desc.bytes } = desc :=
      ⟨_, rfl⟩
    have hdetach := aipuSessionDetachBuf_head hl (hdesc ▸ rfl : sbuf.range = desc.range)
    rw [aipuMmFreeSessionBuffers, aipuGetSessionSbufHead, hl] at h
    simp only [List.head?_cons, Option.map_some, hdesc, hdetach] at h
    cases hfree : aipuMmFree k.mm desc with
    | mk ret mm₁ =>
    rw [hfree] at h
    dsimp only at h
    split_ifs at h with hret h0
    · exact absurd (Prod.mk.inj (Option.some.inj h)).1 hret
    · exact absurd rfl h0
    · obtain rfl : ret = 0 := not_not.mp hret
      obtain ⟨es, hexec⟩ := ih (k := { k.setFile c { c.entry with
        session := { c.entry.session with sbufList := rest }, phase := .freeing } with mm := mm₁ })
        (c := ⟨c.before, { c.entry with
          session := { c.entry.session with sbufList := rest }, phase := .freeing }, c.after⟩)
        rfl hbefore rfl h rfl
      exact exec_releaseRound hfiles hbefore hphase hl hdesc hfree hexec

end Loop

/-! ## Every reachable state -/

/-- The free counters and the allocated ranges share the sizes of the regions out among them. -/
theorem sum_totFreeBytes {l : List AipuMemRegion} (h : ∀ r ∈ l, r.Inv) :
    (l.map AipuMemRegion.totFreeBytes).sum +
      ((l.flatMap AipuMemRegion.allocated).map Prod.snd).sum =
      (l.map AipuMemRegion.totBytes).sum := by
  induction l with
  | nil => rfl
  | cons r rest ih =>
    obtain ⟨hr, hrest⟩ := List.forall_mem_cons.mp h
    have hbal := hr.totFree_add_allocated
    have hsum := ih hrest
    rw [List.flatMap_cons, List.map_append, List.sum_append, List.map_cons, List.map_cons,
      List.sum_cons, List.sum_cons]
    omega

/-- Regions keep their sizes when ranges are freed. -/
theorem FreedRanges.map_totBytes {l l' : List AipuMemRegion} {xs : List (ℕ × ℕ)}
    (h : List.Forall₂ (FreedRanges xs) l l') :
    l'.map AipuMemRegion.totBytes = l.map AipuMemRegion.totBytes := by
  induction h with
  | nil => rfl
  | cons hr _ ih =>
    rw [List.map_cons, List.map_cons, ih, (AipuMemRegion.window_of_geometry hr.geometry).2]

/-- The free counters grow by the sizes of the ranges freed, region by region. -/
theorem FreedRanges.counters {l l' : List AipuMemRegion} {xs : List (ℕ × ℕ)}
    (h : List.Forall₂ (FreedRanges xs) l l') (hl : ∀ r ∈ l, r.Inv) (hl' : ∀ r ∈ l', r.Inv) :
    List.Forall₂ (fun r r' => r'.totFreeBytes =
      r.totFreeBytes + ((r.allocated.filter (· ∈ xs)).map Prod.snd).sum) l l' := by
  induction h with
  | nil => exact .nil
  | cons hr _ ih =>
    obtain ⟨hinv, hl⟩ := List.forall_mem_cons.mp hl
    obtain ⟨hinv', hl'⟩ := List.forall_mem_cons.mp hl'
    exact .cons (hr.totFreeBytes hinv hinv') (ih hl hl')

/-- `mm'` is the memory manager of `k` without the buffers of the file: their blocks are freed, the
counters grow by their sizes, and the ranges of the other files stay allocated. -/
structure ReleasesBuffers (k : Kmd) (f : KmdFile) (mm' : AipuMemoryManager) : Prop where
  released : ReleasedAll k.mm mm' (f.session.sbufList.map SessionBuf.range)
  counters : List.Forall₂ (fun r r' => r'.totFreeBytes = r.totFreeBytes +
    ((r.allocated.filter (· ∈ f.session.sbufList.map SessionBuf.range)).map Prod.snd).sum)
      k.mm.regions mm'.regions
  total : (mm'.regions.map AipuMemRegion.totFreeBytes).sum =
    (k.mm.regions.map AipuMemRegion.totFreeBytes).sum + (f.session.sbufList.map (·.desc.bytes)).sum
  others : ∀ g ∈ k.files, g.id ≠ f.id → ∀ x ∈ g.owned,
    x ∈ mm'.allocated ∧ x ∉ f.session.sbufList.map SessionBuf.range

/-- **Release of a session.**  In every reachable state `aipu_mm_free_session_buffers` of a session
whose release is not under way ends, returns zero, and frees exactly the buffers of the session; the
steps of a release that has come to it do the same in the driver, and change no other file. -/
theorem session_buffers_released (version : AipuVersion) (map : MemoryMap) (maxSchedNum : ℤ)
    {tr : List KmdEvent} {k : Kmd} (h : (kmdSystem version map maxSchedNum).Run BuffersServed tr k)
    {f : KmdFile} (hf : f ∈ k.files) (hidle : ∀ desc, f.phase ≠ .freed desc) :
    ∃ mm', (∀ fuel, f.session.sbufList.length < fuel →
        aipuMmFreeSessionBuffers fuel k.mm f.session =
        some (0, mm', { f.session with sbufList := [] })) ∧
      ReleasesBuffers k f mm' ∧
      (f.phase = .freeing → ∃ pre post es, k.files = pre ++ f :: post ∧
        (kmdSystem version map maxSchedNum).exec BuffersServed k
          (releaseLoop f.id f.session.sbufList.length) = some ({ k with
            mm := mm'
            files := pre ++ { f with
              session := { f.session with sbufList := [] }, phase := .buffersFreed } :: post },
                es)) := by
  obtain ⟨lost, hI, hlost, -⟩ := kmdSystem_own (fun k a hC => requestOk_of_small hC.1) h
  obtain rfl := hlost fun k a hC => hC.2
  have hfresh : k.FilesFresh := by
    refine h.stateInvariant (I := Kmd.FilesFresh) (fun k hk => ?_) fun _ _ _ _ hk _ hstep =>
      (kmdStep_files hstep).fresh hk
    obtain ⟨-, -, hfiles, -⟩ := hk
    exact ⟨by simp [hfiles], by simp [hfiles]⟩
  obtain ⟨pre, post, hfiles⟩ := List.append_of_mem hf
  have howned : k.mm.allocated.Perm (f.session.sbufList.map SessionBuf.range ++
      (pre.flatMap KmdFile.owned ++ post.flatMap KmdFile.owned ++ k.ops.flatMap KmdOp.owned)) := by
    have hperm := hI.owned
    rw [List.append_nil, Kmd.owned, hfiles, List.flatMap_append, List.flatMap_cons,
      KmdFile.owned_eq hidle] at hperm
    refine hperm.trans ?_
    simp only [List.perm_iff_count, List.count_append]
    intro x
    omega
  obtain ⟨mm', hcall, hrel⟩ := aipuMmFreeSessionBuffers_spec hI.mm howned
  have hothers : mm'.allocated.Perm
      (pre.flatMap KmdFile.owned ++ post.flatMap KmdFile.owned ++ k.ops.flatMap KmdOp.owned) :=
    (List.perm_append_left_iff _).mp (hrel.allocated.symm.trans howned)
  have hdisj := List.disjoint_of_nodup_append (howned.nodup_iff.mp hI.mm.nodup)
  refine ⟨mm', hcall, ⟨hrel, ?_, ?_, ?_⟩, fun hphase => ?_⟩
  · exact FreedRanges.counters hrel.regions hI.mm.region hrel.inv.region
  · have hsum := sum_totFreeBytes hI.mm.region
    have hsum' := sum_totFreeBytes hrel.inv.region
    have hbytes := (hrel.allocated.map Prod.snd).sum_nat
    rw [FreedRanges.map_totBytes hrel.regions] at hsum'
    rw [List.map_append, List.sum_append, List.map_map] at hbytes
    have hrange : ((f.session.sbufList.map (Prod.snd ∘ SessionBuf.range)).sum) =
        (f.session.sbufList.map (·.desc.bytes)).sum := rfl
    unfold AipuMemoryManager.allocated at hbytes
    omega
  · intro g hg hne x hx
    have hx' : x ∈ pre.flatMap KmdFile.owned ++ post.flatMap KmdFile.owned ++
        k.ops.flatMap KmdOp.owned := by
      rw [hfiles] at hg
      rcases List.mem_append.mp hg with hg | hg
      · exact List.mem_append_left _ (List.mem_append_left _ (List.mem_flatMap.mpr ⟨g, hg, hx⟩))
      · rcases List.mem_cons.mp hg with rfl | hg
        · exact absurd rfl hne
        · exact List.mem_append_left _ (List.mem_append_right _ (List.mem_flatMap.mpr ⟨g, hg, hx⟩))
    exact ⟨hothers.mem_iff.mpr hx', fun hmem => hdisj hmem hx'⟩
  · have hbefore : ∀ g ∈ pre, g.id ≠ f.id := fun g hg heq => by
      have hnodup := hfresh.nodup
      rw [hfiles, List.map_append, List.map_cons, List.nodup_middle] at hnodup
      exact (List.nodup_cons.mp hnodup).1 (heq ▸ List.mem_append_left _ (List.mem_map_of_mem hg))
    obtain ⟨es, hexec⟩ := exec_releaseLoop (c := ⟨pre, f, post⟩) hfiles hbefore hphase
      (hcall _ (Nat.lt_succ_self _))
    exact ⟨pre, post, es, hfiles, hexec⟩

/-- Two sessions: the first is closed with two buffers, of which one lies next to the buffer of the
second. -/
theorem session_buffers_released_sample :
    ∃ (k : Kmd) (f : KmdFile) (mm' : AipuMemoryManager), f ∈ k.files ∧ f.phase = .freeing ∧
      f.session.sbufList.map SessionBuf.range = [(0x106000, 0x1000), (0x100000, 0x2000)] ∧
      k.owned = [(0x107000, 0x1000), (0x106000, 0x1000), (0x100000, 0x2000)] ∧
        ReleasesBuffers k f mm' := by
  have hexec : ∃ k es, (kmdSystem .zhouyiV2 sampleMap 1).exec BuffersServed sampleKmd
      [.openFile 7 [], .openFile 9 [],
        .reqAlloc 0 7 [] { bytes := 5000, alignInPage := 1, dataType := aipuMmDataTypeText } {},
        .reqAdd 0 { bytes := 5000, alignInPage := 1, dataType := aipuMmDataTypeText }
          { pa := 0x100000, va := 0x40000000, bytes := 0x2000, type := .reserved } true,
        .reqAlloc 1 9 [] { bytes := 4096, alignInPage := 1, dataType := aipuMmDataTypeNone } {},
        .reqAdd 1 { bytes := 4096, alignInPage := 1, dataType := aipuMmDataTypeNone }
          { pa := 0x107000, va := 0x40007000, bytes := 0x1000, type := .reserved } true,
        .reqAlloc 0 7 [] { bytes := 4096, alignInPage := 1, dataType := aipuMmDataTypeNone } {},
        .reqAdd 0 { bytes := 4096, alignInPage := 1, dataType := aipuMmDataTypeNone }
          { pa := 0x106000, va := 0x40006000, bytes := 0x1000, type := .reserved } true,
        .relCancel 0 ⟨fun _ => 0, fun _ => 0⟩, .relDelete 0] = some (k, es) ∧
      (k.files.map fun f => (f.id, f.phase, f.session.sbufList.map SessionBuf.range)) =
        [(1, .opened, [(0x107000, 0x1000)]),
          (0, .freeing, [(0x106000, 0x1000), (0x100000, 0x2000)])] ∧
      k.owned = [(0x107000, 0x1000), (0x106000, 0x1000), (0x100000, 0x2000)] :=
        ⟨_, _, rfl, rfl, rfl⟩
  obtain ⟨k, es, hexec, hfiles, howned⟩ := hexec
  obtain ⟨g, rest, hl, -, hrest⟩ := List.map_eq_cons_iff.mp hfiles
  obtain ⟨f, rest', rfl, hf, -⟩ := List.map_eq_cons_iff.mp hrest
  obtain ⟨-, hf⟩ := Prod.mk.inj hf
  obtain ⟨hphase, hbufs⟩ := Prod.mk.inj hf
  have hmem : f ∈ k.files := hl ▸ by simp
  obtain ⟨mm', -, hreleased, -⟩ := session_buffers_released .zhouyiV2 sampleMap 1
    (System.run_of_exec sampleKmd_init hexec) hmem (by simp [hphase])
  exact ⟨k, f, mm', hmem, hphase, hbufs, howned, hreleased⟩

end Aipu
