import Mathlib.Data.Fintype.Defs
import AipuDriver.Kmd.SessionJobs

/-!
# Threads that sleep in `poll`

The kernel keeps a thread in `poll` while `aipu_poll` returns 0.  Between two calls of `aipu_poll`
the thread sleeps, and a wake-up on a queue that one of the calls has registered on ends its sleep.
`pollSystem` puts any number of such threads on top of the driver.

A thread with a job in the list of the session registers on the queue of the thread, which makes the
session wake only the queue of the thread whose job has ended.  A thread without a job waits for the
jobs of the others, and such a wake-up does not reach it.  Other wake-ups are not lost
(`no_lost_wakeup`).
-/

namespace Aipu

open ListSearch Transition

/-! ## Threads in `poll` -/

/-- A thread that is in `poll` on an open file. -/
structure Poller where
  file : ℕ
  tid : ℤ
  /-- The wait queues that its calls of `aipu_poll` have registered on. -/
  queues : List PollQueue
  /-- One of these queues was woken since the last call began. -/
  woken : Bool
  /-- The last call has returned 0. -/
  waits : Bool
deriving DecidableEq, Repr

/-- The thread sleeps: it waits, and nobody has woken it since. -/
def Poller.Asleep (p : Poller) : Prop := p.waits = true ∧ p.woken = false

instance : DecidablePred Poller.Asleep := fun _ => inferInstanceAs (Decidable (_ ∧ _))

/-- The queue that an event wakes, and its file. -/
def KmdEvent.wakes : KmdEvent → Option (ℕ × PollQueue)
  | .woken file queue => some (file, queue)
  | _ => none

/-- The events wake a queue on which the thread is registered. -/
def Poller.WokenBy (p : Poller) (es : List KmdEvent) : Prop :=
  ∃ w ∈ es.filterMap KmdEvent.wakes, w.1 = p.file ∧ w.2 ∈ p.queues

instance (p : Poller) : DecidablePred p.WokenBy :=
  fun es => inferInstanceAs (Decidable (∃ w ∈ es.filterMap KmdEvent.wakes, _))

/-- The thread after the events. -/
def Poller.wake (es : List KmdEvent) (p : Poller) : Poller :=
  { p with woken := p.woken || decide (p.WokenBy es) }

/-- The driver, and the threads that are in `poll`. -/
structure PollState where
  kmd : Kmd
  pollers : List Poller

/-- The thread that polls a file. -/
def PollState.find (s : PollState) (file : ℕ) (tid : ℤ) : Option (Cursor Poller) :=
  seek (fun p => p.file = file ∧ p.tid = tid) s.pollers

/-- A step of the driver, or of a thread that polls. -/
inductive PollAction
  /-- A step of the driver other than the two steps of `aipu_poll`. -/
  | driver (a : KmdAction)
  /-- A thread calls `poll`; its first call of `aipu_poll` registers on wait queues. -/
  | enter (file : ℕ) (tid : ℤ)
  /-- `aipu_poll` looks for a job that has ended. -/
  | check (file : ℕ) (tid : ℤ)
  /-- The kernel calls `aipu_poll` again; `pass` says whether this call may register, too. -/
  | again (file : ℕ) (tid : ℤ) (pass : Bool)
  /-- `poll` returns because its time is over, or for a signal. -/
  | leave (file : ℕ) (tid : ℤ)

/-- The kernel does not release a file while a thread is in a call on it. -/
def KmdAction.besidePollers (pollers : List Poller) : KmdAction → Bool
  | .pollRegister _ _ | .pollCheck _ _ => false
  | .relCancel file _ => pollers.all (·.file ≠ file)
  | _ => true

/-- The wait queues of an event of `aipu_poll`. -/
def KmdEvent.registeredOn : KmdEvent → List PollQueue
  | .registered _ _ queues => queues
  | _ => []

/-- `aipu_poll` has found a job that has ended. -/
def KmdEvent.foundEnd : KmdEvent → Bool
  | .polled _ _ ready => ready
  | _ => false

/-- One step of the driver with threads that poll. -/
def pollStep (s : PollState) : PollAction → Option (PollState × List KmdEvent)
  | .driver a =>
    if a.besidePollers s.pollers then
      match kmdStep s.kmd a with
      | none => none
      | some (k, es) => some (⟨k, s.pollers.map (Poller.wake es)⟩, es)
    else none
  | .enter file tid =>
    match s.find file tid with
    | some _ => none
    | none =>
      match kmdStep s.kmd (.pollRegister file tid) with
      | none => none
      | some (k, es) =>
        some (⟨k, ⟨file, tid, es.flatMap KmdEvent.registeredOn, false, false⟩ :: s.pollers⟩, es)
  | .again file tid pass =>
    match s.find file tid with
    | none => none
    | some c =>
      if c.entry.waits then
        match kmdStep s.kmd (.pollRegister file tid) with
        | none => none
        | some (k, es) =>
          let queues := if pass then es.flatMap KmdEvent.registeredOn else []
          some (⟨k, c.before ++ { c.entry with
            queues := c.entry.queues ++ queues, woken := false, waits := false } :: c.after⟩, es)
      else none
  | .check file tid =>
    match s.find file tid with
    | none => none
    | some c =>
      if c.entry.waits then none
      else
        match kmdStep s.kmd (.pollCheck file tid) with
        | none => none
        | some (k, es) =>
          if es.any KmdEvent.foundEnd then some (⟨k, c.before ++ c.after⟩, es)
          else some (⟨k, c.before ++ { c.entry with waits := true } :: c.after⟩, es)
  | .leave file tid =>
    match s.find file tid with
    | none => none
    | some c => some (⟨s.kmd, c.before ++ c.after⟩, [])

/-- The runs of the driver with threads that poll. -/
def pollSystem (version : AipuVersion) (map : MemoryMap) (maxSchedNum : ℤ) :
    System PollState PollAction KmdEvent where
  init s := (kmdSystem version map maxSchedNum).init s.kmd ∧ s.pollers = []
  step := pollStep

/-- No thread sleeps for which a job has ended. -/
def PollState.NoLostWakeup (s : PollState) : Prop :=
  ∀ p ∈ s.pollers, p.Asleep → ∀ f ∈ s.kmd.files, f.id = p.file →
    aipuSessionThreadHasEndJob f.session p.tid = false

/-- The end of the session job `sj` of a session that wakes single threads: the thread of the job is
registered on its own queue, and any other thread has a job in the list, too. -/
def Poller.Reached (p : Poller) (f : KmdFile) (sj : SessionJob) : Prop :=
  if sj.uthreadId = p.tid then .thread p.tid ∈ p.queues
  else ∃ tj ∈ f.session.jobList, tj.uthreadId = p.tid

instance (p : Poller) (f : KmdFile) : DecidablePred (p.Reached f) := fun sj => by
  unfold Poller.Reached
  infer_instance

/-- The condition on a step: when the bottom half reports the end of a job of a session that wakes
single threads, the wake-up reaches each thread that sleeps in `poll` on the file. -/
def WakesSleepers (s : PollState) (a : PollAction) : Prop :=
  match a with
  | .driver .bhDone =>
    ∀ curr ∈ s.kmd.js.bh.callingJob.toList, ∀ f ∈ s.kmd.files, f.id = curr.session →
      f.session.singleThreadPoll = true →
      ∀ sj ∈ f.session.jobList, sj.id = curr.sessionJob →
      ∀ p ∈ s.pollers, p.file = f.id → p.Asleep → p.Reached f sj
  | _ => True

instance : DecidableRel WakesSleepers := fun s a => by
  rcases a with a | _ | _ | _ | _
  · rcases a <;> unfold WakesSleepers <;> infer_instance
  all_goals
    unfold WakesSleepers
    infer_instance

/-! ## What `aipu_poll` reads -/

/-- The step is the call of the bottom half for the session job `sj` of the file. -/
def KmdAction.Ends (a : KmdAction) (k : Kmd) (f : KmdFile) (sj : SessionJob) : Prop :=
  a = .bhDone ∧ ∃ curr ∈ k.js.bh.callingJob.toList, f.id = curr.session ∧ sj.id = curr.sessionJob

/-- What a step of the driver makes of the session of an open file, as far as polls are
concerned. -/
inductive SessionChange (k : Kmd) (a : KmdAction) (f f' : KmdFile) (es : List KmdEvent) : Prop
  | same (hjobs : f'.session.jobList = f.session.jobList)
      (hqueues : f'.session.waitQueue = f.session.waitQueue)
      (hsingle : f'.session.singleThreadPoll = f.session.singleThreadPoll)
  /-- RUNJOB adds a session job and makes sure that its thread has a queue. -/
  | added (sj : SessionJob) (hstate : sj.state ≠ .finished)
      (hjobs : f'.session.jobList = sj :: f.session.jobList)
      (hqueues : ∀ queue ∈ f.session.waitQueue,
        ∃ queue' ∈ f'.session.waitQueue, queue'.uthreadId = queue.uthreadId)
      (hsingle : f'.session.singleThreadPoll = f.session.singleThreadPoll)
  /-- QUERYSTATUS takes session jobs that have ended. -/
  | taken (hsub : f'.session.jobList.Sublist f.session.jobList)
      (hkept : ∀ sj ∈ f.session.jobList, sj.state ≠ .finished → sj ∈ f'.session.jobList)
      (hqueues : f'.session.waitQueue = f.session.waitQueue)
      (hsingle : f'.session.singleThreadPoll = f.session.singleThreadPoll)
  /-- The bottom half ends a session job and wakes a queue. -/
  | ended (d : Cursor SessionJob) (hends : a.Ends k f d.entry)
      (hjobs : f.session.jobList = d.toList)
      (hjobs' : f'.session.jobList = d.before ++ d.entry.done :: d.after)
      (hqueues : f'.session.waitQueue = f.session.waitQueue)
      (hsingle : f'.session.singleThreadPoll = f.session.singleThreadPoll)
      (hwoken : es.filterMap KmdEvent.wakes =
        (f.session.wakeQueue d.entry.done).toList.map (f.id, ·))

section Changes

variable {k k' : Kmd} {a : KmdAction} {es : List KmdEvent}

/-- The wake-up that the bottom half logs after its two reads. -/
theorem wakes_of_done {e e' : JmEvent} {b b' : Bool} {queue : Option PollQueue} {file : ℕ}
    (hes : es = [.job e b, .job e' b'] ++ queue.toList.map (.woken file)) :
    es.filterMap KmdEvent.wakes = queue.toList.map (file, ·) := by
  rw [hes]
  cases queue <;> rfl

/-- Every edit of an open file changes its session in one of the four ways, unless it begins the
release of the file; polls are steps of their own. -/
theorem FileEdit.sessionChange {f f' : KmdFile} (hedit : FileEdit k k' es a f f')
    (hpoll : ∀ file tid, a ≠ .pollRegister file tid) (hphase : f.phase = .opened)
    (hcancel : ¬a.Cancels f.id) :
    f'.phase = .opened ∧ SessionChange k a f f' es := by
  cases hedit with
  | reqAdd | freeDetach | mmap | munmap => exact ⟨hphase, .same rfl rfl rfl⟩
  | runAdd tid userJob userJob' kz waitQueue _ hqueues =>
    exact ⟨hphase, .added (initSessionJob k.nextSessionJob tid userJob.desc)
      (by simp [initSessionJob]) rfl hqueues rfl⟩
  | query query kzOk notCopied notCopiedQuery kept taken _ hperm hsub hmatch =>
    exact ⟨hphase, .taken hsub
      (fun sj => JobStatusQuery.kept_of_not_finished hperm hmatch) rfl rfl⟩
  | pollRegister tid => exact absurd rfl (hpoll f.id tid)
  | done curr next d hbh hid hlist hdid hes =>
    have hends : KmdAction.bhDone.Ends k f d.entry :=
      ⟨rfl, curr, by simp [hbh, BottomHalf.callingJob], hid, hdid⟩
    exact ⟨hphase, .ended d hends hlist rfl rfl rfl (hid ▸ wakes_of_done hes)⟩
  | relCancel stale => exact absurd ⟨stale, rfl⟩ hcancel
  | relDelete hclosed | buffersFreed hclosed | relFree _ _ _ hclosed | relDetach _ _ hclosed
  | detachFailed _ hclosed | destroyFailed hclosed => simp [hphase] at hclosed

/-- A file stays open in every step that does not release it, and its session changes in one of the
four ways; polls are steps of their own. -/
theorem kmdStep_openFiles (h : kmdStep k a = some (k', es))
    (hpoll : ∀ file tid, a ≠ .pollRegister file tid) :
    ∀ f ∈ k.files, f.phase = .opened → ¬a.Cancels f.id →
      ∃ f' ∈ k'.files, f'.id = f.id ∧ f'.phase = .opened ∧ SessionChange k a f f' es := by
  intro f hf hphase hcancel
  rcases (kmdStep_edits h).of_mem hf with hf' | ⟨f', hf', hedit⟩ | ⟨-, hclosed, -⟩
  · exact ⟨f, hf', rfl, hphase, .same rfl rfl rfl⟩
  · exact ⟨f', hf', hedit.step.id, hedit.sessionChange hpoll hphase hcancel⟩
  · simp [hphase] at hclosed

end Changes

/-! ## The invariant -/

/-- A thread finds no job that has ended: each one belongs to another thread, and the thread has
jobs of its own. -/
theorem threadHasEndJob_eq_false {session : AipuSession} {tid : ℤ} :
    aipuSessionThreadHasEndJob session tid = false ↔
      ∀ sj ∈ session.jobList, sj.state = .finished →
        sj.uthreadId ≠ tid ∧ ∃ tj ∈ session.jobList, tj.uthreadId = tid := by
  simp only [aipuSessionThreadHasEndJob, List.any_eq_false, decide_eq_true_eq, List.any_eq_true,
    not_and, Classical.not_imp]
  constructor
  · intro h sj hsj hstate
    exact (h sj hsj hstate).symm
  · intro h sj hsj hstate
    exact (h sj hsj hstate).symm

/-- What holds of a thread that polls an open file. -/
structure Poller.Ok (p : Poller) (f : KmdFile) : Prop where
  com : f.session.singleThreadPoll = false → .com ∈ p.queues
  own : ∀ tid, .thread tid ∈ p.queues →
    tid = p.tid ∧ ∃ queue ∈ f.session.waitQueue, queue.uthreadId = p.tid
  asleep : p.Asleep → aipuSessionThreadHasEndJob f.session p.tid = false

/-- A thread sleeps on as long as no event wakes it. -/
theorem Poller.wake_asleep {p : Poller} {es : List KmdEvent} :
    (p.wake es).Asleep ↔ p.Asleep ∧ ¬p.WokenBy es := by
  simp [Poller.Asleep, Poller.wake, and_assoc]

section Invariant

variable {k k' : Kmd} {a : KmdAction} {es : List KmdEvent} {f f' : KmdFile} {p : Poller}

/-- A thread that finds no job still finds none when the jobs that end belong to other threads, and
its own jobs that have not ended stay. -/
theorem threadHasEndJob_kept {session session' : AipuSession} {tid : ℤ}
    (h : aipuSessionThreadHasEndJob session tid = false)
    (hended : ∀ sj' ∈ session'.jobList, sj'.state = .finished → sj' ∈ session.jobList ∨
      (sj'.uthreadId ≠ tid ∧ ∃ tj ∈ session.jobList, tj.uthreadId = tid))
    (hkept : ∀ tj ∈ session.jobList, tj.uthreadId = tid → tj.state ≠ .finished →
      tj ∈ session'.jobList) : aipuSessionThreadHasEndJob session' tid = false := by
  rw [threadHasEndJob_eq_false] at h ⊢
  intro sj' hsj' hstate
  obtain ⟨hother, tj, htj, htid⟩ :
      sj'.uthreadId ≠ tid ∧ ∃ tj ∈ session.jobList, tj.uthreadId = tid := by
    rcases hended sj' hsj' hstate with hold | hnew
    · exact h sj' hold hstate
    · exact hnew
  exact ⟨hother, tj, hkept tj htj htid fun hfinished => (h tj htj hfinished).1 htid, htid⟩

/-- The wake-up for the end of a session job reaches a thread, or concerns another thread. -/
theorem Poller.Ok.ended (h : p.Ok f) (hid : f.id = p.file) {d : Cursor SessionJob}
    (hjobs : f.session.jobList = d.toList)
    (hjobs' : f'.session.jobList = d.before ++ d.entry.done :: d.after)
    (hwoken : es.filterMap KmdEvent.wakes =
      (f.session.wakeQueue d.entry.done).toList.map (f.id, ·))
    (hreached : f.session.singleThreadPoll = true → p.Asleep → p.Reached f d.entry)
    (hasleep : (p.wake es).Asleep) : aipuSessionThreadHasEndJob f'.session p.tid = false := by
  obtain ⟨hasleep, hunwoken⟩ := Poller.wake_asleep.mp hasleep
  have hnot : ∀ queue ∈ p.queues, f.session.wakeQueue d.entry.done ≠ some queue := by
    intro queue hqueue heq
    exact hunwoken ⟨(f.id, queue), by simp [hwoken, heq], hid, hqueue⟩
  cases hsingle : f.session.singleThreadPoll with
  | false => exact absurd (by simp [AipuSession.wakeQueue, hsingle]) (hnot .com (h.com hsingle))
  | true =>
    have hreached := hreached hsingle hasleep
    unfold Poller.Reached at hreached
    split at hreached
    case isTrue hsame =>
      -- the thread of the job itself is woken
      obtain ⟨-, queue, hqueue, htid⟩ := h.own _ hreached
      have hany : f.session.waitQueue.any (·.uthreadId = d.entry.done.uthreadId) = true :=
        List.any_eq_true.mpr ⟨queue, hqueue, by simp [SessionJob.done, htid, hsame]⟩
      refine absurd ?_ (hnot _ hreached)
      simp [AipuSession.wakeQueue, hsingle, hany]
      exact hsame
    case isFalse hother =>
      obtain ⟨tj, htj, htid⟩ := hreached
      refine threadHasEndJob_kept (h.asleep hasleep) ?_ ?_
      · intro sj' hsj' hstate
        rw [hjobs', List.mem_append, List.mem_cons] at hsj'
        rcases hsj' with hsj' | rfl | hsj'
        · exact .inl (hjobs ▸ Cursor.mem_toList.mpr (.inl hsj'))
        · exact .inr ⟨hother, tj, htj, htid⟩
        · exact .inl (hjobs ▸ Cursor.mem_toList.mpr (.inr (.inr hsj')))
      · intro tj htj htid hstate
        rw [hjobs, Cursor.mem_toList] at htj
        rw [hjobs']
        rcases htj with htj | rfl | htj
        · exact List.mem_append_left _ htj
        · exact absurd htid hother
        · exact List.mem_append_right _ (List.mem_cons_of_mem _ htj)

/-- What a thread relies on survives every change of the session that reaches it. -/
theorem Poller.Ok.step (h : p.Ok f) (hid : f.id = p.file) (hchange : SessionChange k a f f' es)
    (hreached : ∀ d : Cursor SessionJob, f.session.jobList = d.toList → a.Ends k f d.entry →
      f.session.singleThreadPoll = true → p.Asleep → p.Reached f d.entry) :
    (p.wake es).Ok f' := by
  have hold : (p.wake es).Asleep → p.Asleep := fun hasleep => (Poller.wake_asleep.mp hasleep).1
  cases hchange with
  | same hjobs hqueues hsingle =>
    refine ⟨fun hf => h.com (hsingle ▸ hf), fun tid ht => hqueues ▸ h.own tid ht, fun hp => ?_⟩
    exact threadHasEndJob_kept (h.asleep (hold hp)) (fun sj hsj _ => .inl (hjobs ▸ hsj))
      fun tj htj _ _ => hjobs ▸ htj
  | added sj hstate hjobs hqueues hsingle =>
    refine ⟨fun hf => h.com (hsingle ▸ hf), fun tid ht => ?_, fun hp => ?_⟩
    · obtain ⟨rfl, queue, hqueue, htid⟩ := h.own tid ht
      obtain ⟨queue', hqueue', htid'⟩ := hqueues queue hqueue
      exact ⟨rfl, queue', hqueue', htid'.trans htid⟩
    · refine threadHasEndJob_kept (h.asleep (hold hp)) ?_ ?_
      · intro sj' hsj' hfinished
        rw [hjobs, List.mem_cons] at hsj'
        rcases hsj' with rfl | hsj'
        · exact absurd hfinished hstate
        · exact .inl hsj'
      · intro tj htj _ _
        rw [hjobs]
        exact List.mem_cons_of_mem _ htj
  | taken hsub hkept hqueues hsingle =>
    refine ⟨fun hf => h.com (hsingle ▸ hf), fun tid ht => hqueues ▸ h.own tid ht, fun hp => ?_⟩
    exact threadHasEndJob_kept (h.asleep (hold hp)) (fun sj hsj _ => .inl (hsub.subset hsj))
      fun tj htj _ hstate => hkept tj htj hstate
  | ended d hends hjobs hjobs' hqueues hsingle hwoken =>
    refine ⟨fun hf => h.com (hsingle ▸ hf), fun tid ht => hqueues ▸ h.own tid ht, fun hp => ?_⟩
    exact h.ended hid hjobs hjobs' hwoken (hreached d hjobs hends) hp

/-- The wake-up for the end of a session job does not reach a thread that it concerns. -/
theorem Poller.Ok.missed (h : p.Ok f) {d : Cursor SessionJob}
    (hjobs : f.session.jobList = d.toList)
    (hjobs' : f'.session.jobList = d.before ++ d.entry.done :: d.after)
    (hwoken : es.filterMap KmdEvent.wakes =
      (f.session.wakeQueue d.entry.done).toList.map (f.id, ·))
    (hsingle : f.session.singleThreadPoll = true) (hasleep : p.Asleep)
    (hmissed : ¬p.Reached f d.entry) :
    (p.wake es).Asleep ∧ aipuSessionThreadHasEndJob f'.session p.tid = true := by
  have hdone : d.entry.done ∈ f'.session.jobList := by simp [hjobs']
  unfold Poller.Reached at hmissed
  constructor
  · refine Poller.wake_asleep.mpr ⟨hasleep, ?_⟩
    rintro ⟨w, hw, -, hqueue⟩
    rw [hwoken, AipuSession.wakeQueue, if_pos hsingle] at hw
    split at hw <;> simp at hw
    subst hw
    -- the queue of the job's thread was woken, and the thread is registered on its own queue only
    obtain ⟨hsame, -⟩ := h.own _ hqueue
    have hsame : d.entry.uthreadId = p.tid := hsame
    rw [if_pos hsame] at hmissed
    exact hmissed (hsame ▸ hqueue)
  · by_contra hnone
    rw [Bool.not_eq_true, threadHasEndJob_eq_false] at hnone
    obtain ⟨hother, tj, htj, htid⟩ := hnone _ hdone rfl
    have hother : d.entry.uthreadId ≠ p.tid := hother
    rw [if_neg hother] at hmissed
    refine hmissed ?_
    rw [hjobs', List.mem_append, List.mem_cons] at htj
    rcases htj with htj | rfl | htj
    · exact ⟨tj, hjobs ▸ Cursor.mem_toList.mpr (.inl htj), htid⟩
    · exact absurd htid hother
    · exact ⟨tj, hjobs ▸ Cursor.mem_toList.mpr (.inr (.inr htj)), htid⟩

/-- Registering another thread, or the same one again, keeps what a thread relies on. -/
theorem Poller.Ok.register {single : Bool} (h : p.Ok f)
    (hsingle : f.session.singleThreadPoll = true → single = true) :
    p.Ok { f with session := { f.session with singleThreadPoll := single } } where
  com hf := h.com (by
    by_contra hne
    simp [hsingle (by simpa using hne)] at hf)
  own := h.own
  asleep := h.asleep

end Invariant

/-- Every thread polls an open file, and can rely on its session. -/
def PollState.Inv (s : PollState) : Prop :=
  ∀ p ∈ s.pollers, ∃ f ∈ s.kmd.files, f.id = p.file ∧ f.phase = .opened ∧ p.Ok f

section Steps

variable {s s' : PollState} {a : PollAction} {es : List KmdEvent}

/-- The threads at the files. -/
theorem PollState.Inv.ok (h : s.Inv) (hfiles : s.kmd.FilesFresh) {p : Poller} (hp : p ∈ s.pollers)
    {f : KmdFile} (hf : f ∈ s.kmd.files) (hid : f.id = p.file) : p.Ok f := by
  obtain ⟨g, hg, hgid, -, hok⟩ := h p hp
  rwa [hfiles.eq_of_id hf hg (hid.trans hgid.symm)]

/-- Under the invariant no wake-up is lost. -/
theorem PollState.Inv.noLostWakeup (h : s.Inv) (hfiles : s.kmd.FilesFresh) : s.NoLostWakeup :=
  fun _ hp hasleep _ hf hid => (h.ok hfiles hp hf hid).asleep hasleep

/-- A call of `aipu_poll` that registers keeps the invariant. -/
theorem PollState.Inv.register (h : s.Inv) {file : ℕ} {tid : ℤ} {k : Kmd}
    (hst : kmdStep s.kmd (.pollRegister file tid) = some (k, es)) :
    ∀ p ∈ s.pollers, ∃ f ∈ k.files, f.id = p.file ∧ f.phase = .opened ∧ p.Ok f := by
  obtain ⟨c, single, queues, hc, -, rfl, hsticky, -, -⟩ := aipuPollRegister_registers hst
  obtain ⟨hl, -, -⟩ := Kmd.inPhase_eq_some hc
  intro p hp
  obtain ⟨f, hf, hfid, hfphase, hok⟩ := h p hp
  rw [hl, Cursor.mem_toList] at hf
  rcases hf with hf | rfl | hf
  · exact ⟨f, List.mem_append_left _ hf, hfid, hfphase, hok⟩
  · exact ⟨_, List.mem_append_right _ List.mem_cons_self, hfid, hfphase, hok.register hsticky⟩
  · exact ⟨f, List.mem_append_right _ (List.mem_cons_of_mem _ hf), hfid, hfphase, hok⟩

/-- A thread that registers for the first time. -/
theorem pollEnter_ok {file : ℕ} {tid : ℤ} {k k' : Kmd}
    (hst : kmdStep k (.pollRegister file tid) = some (k', es)) :
    ∃ f ∈ k'.files, f.id = file ∧ f.phase = .opened ∧
      Poller.Ok ⟨file, tid, es.flatMap KmdEvent.registeredOn, false, false⟩ f := by
  obtain ⟨c, single, queues, hc, rfl, rfl, -, hcom, hown⟩ := aipuPollRegister_registers hst
  obtain ⟨-, hid, hphase⟩ := Kmd.inPhase_eq_some hc
  refine ⟨_, List.mem_append_right _ List.mem_cons_self, hid, hphase, ?_, ?_, ?_⟩
  · simpa [KmdEvent.registeredOn] using hcom
  · simpa [KmdEvent.registeredOn] using hown
  · rintro ⟨hwaits, -⟩
    cases hwaits

/-- A thread that was registered before. -/
theorem pollAgain_ok {p : Poller} {k k' : Kmd} (hok : ∀ f ∈ k.files, f.id = p.file → p.Ok f)
    (pass : Bool) (hst : kmdStep k (.pollRegister p.file p.tid) = some (k', es)) :
    ∃ f ∈ k'.files, f.id = p.file ∧ f.phase = .opened ∧
      Poller.Ok { p with
        queues := p.queues ++ (if pass then es.flatMap KmdEvent.registeredOn else [])
        woken := false, waits := false } f := by
  obtain ⟨c, single, queues, hc, rfl, rfl, hsticky, -, hown⟩ := aipuPollRegister_registers hst
  obtain ⟨hl, hid, hphase⟩ := Kmd.inPhase_eq_some hc
  have hok : p.Ok c.entry := hok c.entry (hl ▸ c.entry_mem) hid
  refine ⟨_, List.mem_append_right _ List.mem_cons_self, hid, hphase, ?_, ?_, ?_⟩
  · intro hsingle
    exact List.mem_append_left _ ((hok.register hsticky).com hsingle)
  · intro tid' htid'
    rcases List.mem_append.mp htid' with hold | hnew
    · exact hok.own tid' hold
    · refine hown tid' ?_
      cases pass with
      | false => cases hnew
      | true => simpa [KmdEvent.registeredOn] using hnew
  · rintro ⟨hwaits, -⟩
    cases hwaits

/-- What a thread that was found polls. -/
theorem PollState.find_eq_some {file : ℕ} {tid : ℤ} {c : Cursor Poller}
    (h : s.find file tid = some c) :
    s.pollers = c.toList ∧ c.entry.file = file ∧ c.entry.tid = tid := by
  obtain ⟨hl, hp, -⟩ := seek_eq_some h
  exact ⟨hl, by simpa using hp⟩

/-- A check of `aipu_poll` tells whether the thread finds a job. -/
theorem aipuPollCheck_finds {k k' : Kmd} {file : ℕ} {tid : ℤ}
    (h : kmdStep k (.pollCheck file tid) = some (k', es)) :
    k' = k ∧ ∃ f ∈ k.files, f.id = file ∧
      es.any KmdEvent.foundEnd = aipuSessionThreadHasEndJob f.session tid := by
  simp only [kmdStep, aipuPollCheck] at h
  split at h
  · cases h
  · rename_i c hc
    obtain ⟨rfl, rfl⟩ := Prod.mk.inj (Option.some.inj h)
    obtain ⟨hl, hid, -⟩ := Kmd.inPhase_eq_some hc
    exact ⟨rfl, c.entry, hl ▸ c.entry_mem, hid, by simp [KmdEvent.foundEnd]⟩

/-- A step of the driver beside the threads that poll, which its events wake. -/
theorem pollStep_driver_cases {a : KmdAction} (h : pollStep s (.driver a) = some (s', es)) :
    a.besidePollers s.pollers = true ∧ ∃ k, kmdStep s.kmd a = some (k, es) ∧
      s' = ⟨k, s.pollers.map (Poller.wake es)⟩ := by
  simp only [pollStep] at h
  split at h
  case isFalse => cases h
  case isTrue hbeside =>
    split at h
    case h_1 => cases h
    case h_2 k es₁ hk =>
      obtain ⟨rfl, rfl⟩ := Prod.mk.inj (Option.some.inj h)
      exact ⟨hbeside, k, hk, rfl⟩

/-- A thread that enters `poll` registers. -/
theorem pollStep_enter_cases {file : ℕ} {tid : ℤ}
    (h : pollStep s (.enter file tid) = some (s', es)) :
    ∃ k, kmdStep s.kmd (.pollRegister file tid) = some (k, es) ∧
      s' = ⟨k, ⟨file, tid, es.flatMap KmdEvent.registeredOn, false, false⟩ :: s.pollers⟩ := by
  simp only [pollStep] at h
  split at h
  case h_1 => cases h
  case h_2 =>
    split at h
    case h_1 => cases h
    case h_2 k es₁ hk =>
      obtain ⟨rfl, rfl⟩ := Prod.mk.inj (Option.some.inj h)
      exact ⟨k, hk, rfl⟩

/-- A thread that does not wait checks, and it leaves or waits. -/
theorem pollStep_check_cases {file : ℕ} {tid : ℤ}
    (h : pollStep s (.check file tid) = some (s', es)) :
    ∃ c k, s.find file tid = some c ∧ kmdStep s.kmd (.pollCheck file tid) = some (k, es) ∧
      s' = ⟨k, if es.any KmdEvent.foundEnd then c.before ++ c.after
        else c.before ++ { c.entry with waits := true } :: c.after⟩ := by
  simp only [pollStep] at h
  split at h
  case h_1 => cases h
  case h_2 c hc =>
    split at h
    case isTrue => cases h
    case isFalse =>
      split at h
      case h_1 => cases h
      case h_2 k es₁ hk =>
        split at h
        case isTrue hfound =>
          obtain ⟨rfl, rfl⟩ := Prod.mk.inj (Option.some.inj h)
          exact ⟨c, k, hc, hk, by rw [if_pos hfound]⟩
        case isFalse hnone =>
          obtain ⟨rfl, rfl⟩ := Prod.mk.inj (Option.some.inj h)
          exact ⟨c, k, hc, hk, by rw [if_neg hnone]⟩

/-- A thread that waits goes through its loop again, and it may register once more. -/
theorem pollStep_again_cases {file : ℕ} {tid : ℤ} {pass : Bool}
    (h : pollStep s (.again file tid pass) = some (s', es)) :
    ∃ c k, s.find file tid = some c ∧ kmdStep s.kmd (.pollRegister file tid) = some (k, es) ∧
      s' = ⟨k, c.before ++ { c.entry with
        queues := c.entry.queues ++ if pass then es.flatMap KmdEvent.registeredOn else []
        woken := false
        waits := false } :: c.after⟩ := by
  simp only [pollStep] at h
  split at h
  case h_1 => cases h
  case h_2 c hc =>
    split at h
    case isFalse => cases h
    case isTrue =>
      split at h
      case h_1 => cases h
      case h_2 k es₁ hk =>
        obtain ⟨rfl, rfl⟩ := Prod.mk.inj (Option.some.inj h)
        exact ⟨c, k, hc, hk, rfl⟩

/-- A thread leaves. -/
theorem pollStep_leave_cases {file : ℕ} {tid : ℤ}
    (h : pollStep s (.leave file tid) = some (s', es)) :
    ∃ c, s.find file tid = some c ∧ s' = ⟨s.kmd, c.before ++ c.after⟩ ∧ es = [] := by
  simp only [pollStep] at h
  split at h
  case h_1 => cases h
  case h_2 c hc =>
    obtain ⟨rfl, rfl⟩ := Prod.mk.inj (Option.some.inj h)
    exact ⟨c, hc, rfl, rfl⟩

/-- Every step that meets the condition keeps the invariant. -/
theorem PollState.Inv.step (h : s.Inv) (hfiles : s.kmd.FilesFresh)
    (hC : WakesSleepers s a) (hst : pollStep s a = some (s', es)) : s'.Inv := by
  -- threads leave, and the others stay as they are
  have hleave : ∀ {c : Cursor Poller}, s.pollers = c.toList →
      ∀ p ∈ c.before ++ c.after, ∃ f ∈ s.kmd.files, f.id = p.file ∧ f.phase = .opened ∧ p.Ok f := by
    intro c hl p hp
    refine h p ?_
    rw [hl, Cursor.mem_toList]
    rcases List.mem_append.mp hp with hp | hp
    · exact .inl hp
    · exact .inr (.inr hp)
  cases a with
  | driver a =>
    obtain ⟨hbeside, k, hk, rfl⟩ := pollStep_driver_cases hst
    intro p' hp'
    obtain ⟨p, hp, rfl⟩ := List.mem_map.mp hp'
    obtain ⟨f, hf, hid, hphase, hok⟩ := h p hp
    have hpoll : ∀ file tid, a ≠ .pollRegister file tid := by
      rintro file tid rfl
      cases hbeside
    have hcancel : ¬a.Cancels f.id := by
      rintro ⟨stale, rfl⟩
      have := List.all_eq_true.mp hbeside p hp
      simp [hid] at this
    obtain ⟨f', hf', hid', hphase', hchange⟩ := kmdStep_openFiles hk hpoll f hf hphase hcancel
    refine ⟨f', hf', hid'.trans hid, hphase', hok.step hid hchange ?_⟩
    rintro d hjobs ⟨rfl, curr, hcurr, hsession, hsj⟩ hsingle hasleep
    exact hC curr hcurr f hf hsession hsingle d.entry
      (hjobs ▸ d.entry_mem) hsj p hp hid.symm hasleep
  | enter file tid =>
    obtain ⟨k, hk, rfl⟩ := pollStep_enter_cases hst
    intro p hp
    rcases List.mem_cons.mp hp with rfl | hp
    · exact pollEnter_ok hk
    · exact h.register hk p hp
  | check file tid =>
    obtain ⟨c, k, hc, hk, rfl⟩ := pollStep_check_cases hst
    obtain ⟨hl, hfile, htid⟩ := PollState.find_eq_some hc
    obtain ⟨rfl, g, hg, hgid, hfound⟩ := aipuPollCheck_finds hk
    split
    case isTrue => exact hleave hl
    case isFalse hnone =>
      intro p hp
      rcases List.mem_append.mp hp with hp | hp
      · exact hleave hl p (List.mem_append_left _ hp)
      rcases List.mem_cons.mp hp with rfl | hp
      · obtain ⟨f, hf, hid, hphase, hok⟩ := h c.entry (hl ▸ c.entry_mem)
        refine ⟨f, hf, hid, hphase, hok.com, hok.own, fun _ => ?_⟩
        obtain rfl := hfiles.eq_of_id hf hg (hid.trans (hfile.trans hgid.symm))
        rw [hfound, Bool.not_eq_true] at hnone
        rw [← hnone, htid]
      · exact hleave hl p (List.mem_append_right _ hp)
  | again file tid pass =>
    obtain ⟨c, k, hc, hk, rfl⟩ := pollStep_again_cases hst
    obtain ⟨hl, rfl, rfl⟩ := PollState.find_eq_some hc
    have hmem : c.entry ∈ s.pollers := hl ▸ c.entry_mem
    intro p hp
    rcases List.mem_append.mp hp with hp | hp
    · exact h.register hk p (hl ▸ Cursor.mem_toList.mpr (.inl hp))
    rcases List.mem_cons.mp hp with rfl | hp
    · exact pollAgain_ok (fun f hf hid => h.ok hfiles hmem hf hid) pass hk
    · exact h.register hk p (hl ▸ Cursor.mem_toList.mpr (.inr (.inr hp)))
  | leave file tid =>
    obtain ⟨c, hc, rfl, -⟩ := pollStep_leave_cases hst
    exact hleave (PollState.find_eq_some hc).1

/-- The bottom half misses a thread that it does not reach. -/
theorem bottomHalfDone_misses (h : s.Inv) (hfiles : s.kmd.FilesFresh)
    (hjobs : s.kmd.SessionJobsFresh) (hC : ¬WakesSleepers s (.driver .bhDone))
    (hst : pollStep s (.driver .bhDone) = some (s', es)) : ¬s'.NoLostWakeup := by
  simp only [WakesSleepers, Option.mem_toList] at hC
  push Not at hC
  obtain ⟨curr, hcurr, f, hf, hsession, hsingle, sj, hsj, hsjid, p, hp, hfile, hasleep, hmissed⟩ :=
    hC
  obtain ⟨-, k, hk, rfl⟩ := pollStep_driver_cases hst
  obtain ⟨curr', next, woken, hbh, hes, hcase⟩ := bottomHalfDone_cases hk
  obtain rfl : curr = curr' := by
    rw [hbh] at hcurr
    exact (Option.some.inj hcurr).symm
  obtain ⟨c, hc⟩ := exists_seek (p := fun f : KmdFile => f.id = curr.session) hf
    (by simpa using hsession)
  obtain ⟨hl, hid, -⟩ := seek_eq_some hc
  obtain rfl : f = c.entry :=
    hfiles.eq_of_id hf (hl ▸ c.entry_mem) (hsession.trans (by simpa [eq_comm] using hid))
  rcases hcase with ⟨c', d, hc', hd, rfl, rfl⟩ | ⟨hnone, -⟩
  · have hwoken := wakes_of_done hes
    obtain rfl : c = c' := Option.some.inj (hc.symm.trans hc')
    obtain ⟨hjobList, hdid, -⟩ := seek_eq_some hd
    obtain ⟨-, rfl⟩ := hjobs.eq_of_id hfiles hf hf hsj (hjobList ▸ d.entry_mem)
      (hsjid.trans (by simpa [eq_comm] using hdid))
    have hjobList' : ({ c.entry with session := { c.entry.session with
        jobList := d.before ++ d.entry.done :: d.after } } : KmdFile).session.jobList =
          d.before ++ d.entry.done :: d.after := rfl
    obtain ⟨hasleep', hended⟩ :=
      (h.ok hfiles hp hf hfile.symm).missed hjobList hjobList'
        (hsession ▸ hwoken) hsingle hasleep hmissed
    intro hno
    have hnone := hended.symm.trans
      (hno (p.wake es) (List.mem_map_of_mem hp) hasleep' _ ?_ hfile.symm)
    · cases hnone
    · exact List.mem_append_right _ List.mem_cons_self
  · have := seek_eq_none.mp (hnone c hc) sj hsj
    simp [hsjid] at this

end Steps

/-! ## The theorem -/

/-- A step is one of the driver, or a thread leaves. -/
theorem pollStep_kmd {s s' : PollState} {a : PollAction} {es : List KmdEvent}
    (hst : pollStep s a = some (s', es)) :
    (s'.kmd = s.kmd ∧ es = []) ∨ ∃ b, kmdStep s.kmd b = some (s'.kmd, es) := by
  cases a with
  | driver a =>
    obtain ⟨-, k, hk, rfl⟩ := pollStep_driver_cases hst
    exact .inr ⟨a, hk⟩
  | enter file tid =>
    obtain ⟨k, hk, rfl⟩ := pollStep_enter_cases hst
    exact .inr ⟨.pollRegister file tid, hk⟩
  | check file tid =>
    obtain ⟨c, k, -, hk, rfl⟩ := pollStep_check_cases hst
    exact .inr ⟨.pollCheck file tid, hk⟩
  | again file tid pass =>
    obtain ⟨c, k, -, hk, rfl⟩ := pollStep_again_cases hst
    exact .inr ⟨.pollRegister file tid, hk⟩
  | leave file tid =>
    obtain ⟨c, -, rfl, rfl⟩ := pollStep_leave_cases hst
    exact .inl ⟨rfl, rfl⟩

/-- Under the threads that poll runs the driver. -/
theorem pollSystem_kmd {version : AipuVersion} {map : MemoryMap} {maxSchedNum : ℤ}
    {C : PollState → PollAction → Prop} {tr : List KmdEvent} {s : PollState}
    (h : (pollSystem version map maxSchedNum).Run C tr s) :
    (kmdSystem version map maxSchedNum).Run anyStep tr s.kmd := by
  rw [← List.filterMap_some (l := tr)]
  refine System.Run.map (S := pollSystem version map maxSchedNum) PollState.kmd some
    (fun s hinit => hinit.1) ?_ h
  intro s a s' es _ hst
  rw [List.filterMap_some]
  rcases pollStep_kmd hst with hsame | ⟨b, hb⟩
  · exact .inl hsame
  · exact .inr ⟨b, trivial, hb⟩

/-- The invariant holds in every run that meets the condition. -/
theorem pollSystem_inv {version : AipuVersion} {map : MemoryMap} {maxSchedNum : ℤ}
    (hmax : 0 ≤ maxSchedNum) {tr : List KmdEvent} {s : PollState}
    (h : (pollSystem version map maxSchedNum).Run WakesSleepers tr s) : s.Inv := by
  induction h with
  | start hs =>
    intro p hp
    simp [hs.2] at hp
  | next hrun hC hst ih =>
    exact ih.step (kmdSystem_jobs hmax (pollSystem_kmd hrun)).files hC hst

/-- **No lost wake-up.**  In every run in which, whenever the bottom half ends a job of a session
that wakes single threads, the wake-up reaches each thread that sleeps in `poll` on the file: no
thread sleeps for which a job has ended.  The next step keeps it so if and only if it meets this
condition, too. -/
theorem no_lost_wakeup {version : AipuVersion} {map : MemoryMap} {maxSchedNum : ℤ}
    (hmax : 1 ≤ maxSchedNum) {tr : List KmdEvent} {s : PollState}
    (h : (pollSystem version map maxSchedNum).Run WakesSleepers tr s) :
    s.NoLostWakeup ∧ ∀ a s' es, (pollSystem version map maxSchedNum).step s a = some (s', es) →
      (s'.NoLostWakeup ↔ WakesSleepers s a) := by
  have hmax₀ : 0 ≤ maxSchedNum := Int.le_of_lt hmax
  have hnone : ∀ {tr s}, (pollSystem version map maxSchedNum).Run WakesSleepers tr s →
      s.NoLostWakeup := fun hrun =>
    (pollSystem_inv hmax₀ hrun).noLostWakeup (kmdSystem_jobs hmax₀ (pollSystem_kmd hrun)).files
  refine ⟨hnone h, fun a s' es hst => ⟨fun hno => ?_, fun hC => hnone (h.next hC hst)⟩⟩
  have hkmd := pollSystem_kmd h
  by_contra hC
  have ha : a = .driver .bhDone := by
    unfold WakesSleepers at hC
    split at hC
    · rfl
    · exact absurd trivial hC
  subst ha
  exact bottomHalfDone_misses (pollSystem_inv hmax₀ h) (kmdSystem_jobs hmax₀ hkmd).files
    (kmdSystem_sessionJobsFresh hmax₀ hkmd) hC hst hno

/-- A job of the thread 8 in the file 0 is scheduled. -/
def pollSampleJob : List PollAction :=
  [.driver (.runAdd 0 8 { desc := { jobId := 1 } } []),
    .driver (.runSchedule 0 { desc := { jobId := 1 } } (initSessionJob 0 8 { jobId := 1 }) true
      sampleMem)]

/-- The interrupt of the job, and the bottom half up to its call. -/
def pollSampleIrq : List PollAction :=
  [.driver (.upperHalf 0 sampleMem), .driver .queueWork, .driver .bhStart]

/-- The thread 7 has no job and sleeps until the job of the thread 8 ends. -/
theorem no_lost_wakeup_sample :
    ∃ tr s s' es, (pollSystem .zhouyiV2 sampleMap 1).Run WakesSleepers tr s ∧
      (∃ p ∈ s.pollers, p.Asleep) ∧ s.NoLostWakeup ∧
      pollStep s (.driver .bhDone) = some (s', es) ∧ s'.NoLostWakeup := by
  obtain ⟨s, tr, s', es, hexec, hasleep, hst, hC⟩ : ∃ s tr s' es,
      (pollSystem .zhouyiV2 sampleMap 1).exec WakesSleepers ⟨sampleKmd, []⟩
        ([.driver (.openFile 7 []), .enter 0 7, .check 0 7] ++ pollSampleJob ++ pollSampleIrq) =
          some (s, tr) ∧ (∃ p ∈ s.pollers, p.Asleep) ∧
      pollStep s (.driver .bhDone) = some (s', es) ∧ WakesSleepers s (.driver .bhDone) :=
    ⟨_, _, _, _, rfl, by decide, rfl, by decide⟩
  have hrun :=
    System.run_of_exec (S := pollSystem .zhouyiV2 sampleMap 1) ⟨sampleKmd_init, rfl⟩ hexec
  obtain ⟨hno, hnext⟩ := no_lost_wakeup (by decide) hrun
  exact ⟨tr, s, s', es, hrun, hasleep, hno, hst, (hnext (.driver .bhDone) s' es hst).mpr hC⟩

/-- The thread 7 has no job and sleeps.  Then the thread 8 polls with its job, and the end of the
job wakes the thread 8 only. -/
theorem wakeup_lost :
    ∃ tr s, (pollSystem .zhouyiV2 sampleMap 1).Run anyStep tr s ∧ ¬s.NoLostWakeup := by
  obtain ⟨s, tr, hexec, p, hp, hasleep, f, hf, hid, hended⟩ : ∃ s tr,
      (pollSystem .zhouyiV2 sampleMap 1).exec anyStep ⟨sampleKmd, []⟩
        ([.driver (.openFile 7 []), .enter 0 7, .check 0 7] ++ pollSampleJob ++
          [.enter 0 8, .check 0 8] ++ pollSampleIrq ++ [.driver .bhDone]) = some (s, tr) ∧
      ∃ p ∈ s.pollers, p.Asleep ∧ ∃ f ∈ s.kmd.files, f.id = p.file ∧
        aipuSessionThreadHasEndJob f.session p.tid = true :=
    ⟨_, _, rfl, by decide⟩
  have hrun :=
    System.run_of_exec (S := pollSystem .zhouyiV2 sampleMap 1) ⟨sampleKmd_init, rfl⟩ hexec
  refine ⟨tr, s, hrun, fun hno => ?_⟩
  have hnone := hno p hp hasleep f hf hid
  rw [hended] at hnone
  cases hnone

end Aipu
