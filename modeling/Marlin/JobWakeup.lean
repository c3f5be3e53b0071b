import Marlin.JobCallbacks

/-!
# The Wake-Ups of the Job Manager

The job manager uses up a token of `job_sem` whether it leads to a job or not: at the limit of the
ongoing jobs, without a free session, with an empty queue. A waiting job is taken later because the
end of each ongoing job posts a token, as does the destruction of a session. The abort of an ongoing
job posts none, though it makes room as the others do, and it does not put the session back in its
queue; nor is the session put back when the job manager finds no output buffer.

## Conventions

* With `MM_JPEG_CONCURRENT_SESSIONS_COUNT` 1 a chain is one session, and has a queue of free sessions
  of its own (`Apart`).
* A session is `Available` for its jobs when it is free or at an ongoing job.

## Main results

* `Wakeful.step`: what one step preserves.
* `no_lost_wakeup_run`: the job manager waits without a token only with no job to do, or at the limit
  of the ongoing jobs.
* `abort_loses_wakeup`: after an abort it waits without a token, with a job to do and none ongoing.
-/

namespace Marlin

namespace MmJpeg

open JobState List Function Option Transition

namespace JobState

/-- No encode session of a job's chain is free, and one of them is at an ongoing job. -/
def ChainBusy (s : JobState) (node : JobNode) : Prop :=
  ∃ p ∈ getSession node.jobId, ∃ n, (s.obj.session p).sessionHandleQ = some n ∧ s.obj.sessionQ n = [] ∧
      ∃ q, (s.obj.session q).sessionHandleQ = some n ∧ ∃ other ∈ s.ongoing, other.session = some q

/-- **No lost wake-up**: while the job manager waits and no token is there, the queue is empty, or the
limit of the ongoing jobs is reached, or the chain of the head of the queue is busy. -/
def NoLostWakeup (s : JobState) : Prop :=
  s.pc = .waiting → s.jobSem = 0 → s.jobQueue = [] ∨ mmJpegConcurrentSessionsCount ≤ s.ongoing.length ∨
      ∀ node ∈ s.jobQueue.head?, s.ChainBusy node

/-- A session is free or at an ongoing job. -/
def Available (s : JobState) (p : SessionPtr) : Prop :=
  ∃ n ∈ (s.obj.session p).sessionHandleQ, p ∈ s.obj.sessionQ n ∨ ∃ node ∈ s.ongoing, node.session = some p
deriving Decidable

/-- The jobs can do without a session and without a new token. -/
def CanSpare (s : JobState) (p : SessionPtr) (jobs : List JobNode) : Prop :=
  (∀ node ∈ jobs, getSession node.jobId ≠ some p) ∧ (jobs = [] ∨ 0 < s.jobSem)
deriving Decidable

/-- **Steps that lose no wake-up**: a job is started with the id of its session, which is free or at
an ongoing job; a job that takes an output buffer finds one, and an ongoing job is not aborted, unless
the jobs in the queue can do without its session and without a token. -/
def Wakes (s : JobState) : JobEvent → Prop
  | .startJob job _ => ∀ p ∈ getSession job.sessionId,
      job.sessionId = (s.obj.session p).sessionId ∧ job.sessionId ≠ 0 ∧ s.Available p
  | .take _ => ∀ node ∈ s.jobQueue.head?, ∀ q ∈ s.nextSession node,
      node.encodeJob.dstIndex < 0 → (∃ b ∈ s.nextOutBuf q, b ≠ 0) ∨ s.CanSpare q s.jobQueue.tail
  | .abortJob id _ => (s.jobQueue.any fun node => node.jobId = id) = true ∨
      ∀ node ∈ s.ongoing, node.jobId = id → ∀ q ∈ node.session, s.CanSpare q s.jobQueue
  | _ => True

instance (s : JobState) : DecidablePred s.Wakes
  | .startJob job _ => inferInstanceAs (Decidable (∀ p ∈ getSession job.sessionId,
      job.sessionId = (s.obj.session p).sessionId ∧ job.sessionId ≠ 0 ∧ s.Available p))
  | .take _ => inferInstanceAs (Decidable (∀ node ∈ s.jobQueue.head?, ∀ q ∈ s.nextSession node,
      node.encodeJob.dstIndex < 0 →
        (∃ b ∈ s.nextOutBuf q, b ≠ 0) ∨ s.CanSpare q s.jobQueue.tail))
  | .abortJob id _ => inferInstanceAs (Decidable ((s.jobQueue.any fun node => node.jobId = id) =
      true ∨ ∀ node ∈ s.ongoing, node.jobId = id → ∀ q ∈ node.session,
        s.CanSpare q s.jobQueue))
  | .wake | .setupDone _ | .emptyThisBuffer _ | .fillThisBuffer _ | .fbd _ | .eventError _ _
  | .eventCmdComplete _ | .destroySession _ _ => isTrue trivial

/-! ### The invariant -/

/-- Each session has a queue of free sessions of its own, and is in no other. -/
structure Apart (o : MmJpegObj) : Prop where
  single : ∀ q r n, (o.session q).sessionHandleQ = some n → (o.session r).sessionHandleQ = some n → q = r
  own : ∀ n, ∀ q ∈ o.sessionQ n, (o.session q).sessionHandleQ = some n
  carries : ∀ q, (o.session q).jobId = 0 ∨ getSession (o.session q).jobId = some q

/-- **The invariant**: the session of a queued job is there for it, and a token, or the end of an
ongoing job, is there for the job manager. -/
structure Wakeful (s : JobState) : Prop extends Apart s.obj where
  queued : ∀ node ∈ s.jobQueue, node.jobId ≠ 0 ∧ ∃ p, getSession node.jobId = some p ∧
    node.encodeJob.sessionId = (s.obj.session p).sessionId ∧ s.Available p
  listed : ∀ node ∈ s.ongoing, node.jobId ≠ 0 ∧ ∃ p, node.session = some p ∧
    getSession node.jobId = some p ∧ node.encodeJob.sessionId = (s.obj.session p).sessionId
  tokens : s.pc = .ready ∨ 0 < s.jobSem ∨ s.jobQueue = [] ∨ s.ongoing ≠ []
  ready : s.pc = .ready → s.ongoing = []

variable {s t : JobState} {p q : SessionPtr}

variable {n : ℕ} {qs : List SessionPtr}

theorem Apart.head_eq {o : MmJpegObj} (h : Apart o)
    (hp : (o.session p).sessionHandleQ = some n) (hhead : o.sessionQ n = q :: qs) : q = p := by
  have hq : q ∈ o.sessionQ n := by
    rw [hhead]
    exact mem_cons_self
  exact h.single q p n (h.own n q hq) hp

theorem Wakeful.transfer (h : Wakeful s) (hhandle : ∀ r n, (t.obj.session r).sessionHandleQ = some n →
      (s.obj.session r).sessionHandleQ = some n)
    (hsession : ∀ r, (t.obj.session r).sessionId = (s.obj.session r).sessionId)
    (hown : ∀ n, ∀ r ∈ t.obj.sessionQ n, (t.obj.session r).sessionHandleQ = some n)
    (hcarries : ∀ r, (t.obj.session r).jobId = (s.obj.session r).jobId ∨ getSession (t.obj.session r).jobId = some r)
    (hjobs : t.jobQueue.Sublist s.jobQueue)
    (havailable : ∀ node ∈ t.jobQueue, ∀ r, getSession node.jobId = some r → s.Available r → t.Available r)
    (hlisted : ∀ node ∈ t.ongoing, node ∈ s.ongoing ∨ node.jobId ≠ 0 ∧ ∃ p,
      node.session = some p ∧ getSession node.jobId = some p ∧ node.encodeJob.sessionId = (s.obj.session p).sessionId)
    (htokens : t.pc = .ready ∨ 0 < t.jobSem ∨ t.jobQueue = [] ∨ t.ongoing ≠ [])
    (hready : t.pc = .ready → t.ongoing = []) : Wakeful t := by
  refine ⟨⟨?_, ?_, ?_⟩, ?_, ?_, htokens, hready⟩
  · intro q r n hq hr
    exact h.single q r n (hhandle q n hq) (hhandle r n hr)
  · exact hown
  · intro q
    rcases hcarries q with hq | hq
    · rw [hq]
      exact h.carries q
    · exact .inr hq
  · intro node hnode
    obtain ⟨hzero, p, hp, hsid, hav⟩ := h.queued node (hjobs.subset hnode)
    exact ⟨hzero, p, hp, hsid.trans (hsession p).symm, havailable node hnode p hp hav⟩
  · intro node hnode
    have hlist : node.jobId ≠ 0 ∧ ∃ p, node.session = some p ∧ getSession node.jobId = some p ∧
        node.encodeJob.sessionId = (s.obj.session p).sessionId :=
      (hlisted node hnode).elim (h.listed node) id
    obtain ⟨hzero, p, hp, hget, hsid⟩ := hlist
    exact ⟨hzero, p, hp, hget, hsid.trans (hsession p).symm⟩

theorem Wakeful.congr (h : Wakeful s) (hqueue : t.obj.sessionQ = s.obj.sessionQ)
    (hhandle : ∀ r, (t.obj.session r).sessionHandleQ = (s.obj.session r).sessionHandleQ)
    (hid : ∀ r, (t.obj.session r).jobId = (s.obj.session r).jobId)
    (hsession : ∀ r, (t.obj.session r).sessionId = (s.obj.session r).sessionId)
    (hjobs : t.jobQueue.Sublist s.jobQueue) (hongoing : t.ongoing = s.ongoing)
    (htokens : t.pc = .ready ∨ 0 < t.jobSem ∨ t.jobQueue = [] ∨ t.ongoing ≠ [])
    (hready : t.pc = .ready → t.ongoing = []) : Wakeful t := by
  refine h.transfer (fun r n => (hhandle r).symm.trans) hsession ?_ (fun r => .inl (hid r)) hjobs ?_ ?_ htokens hready
  · intro n r hr
    rw [hqueue] at hr
    exact (hhandle r).trans (h.own n r hr)
  · rintro node - r - ⟨n, hn, hr⟩
    refine ⟨n, ?_, ?_⟩
    · rw [hhandle]
      exact hn
    · rw [hqueue, hongoing]
      exact hr
  · intro node hnode
    exact .inl (hongoing ▸ hnode)

theorem Wakeful.of_obj (h : Wakeful s) (hobj : t.obj = s.obj)
    (hjobs : t.jobQueue.Sublist s.jobQueue) (hongoing : t.ongoing = s.ongoing)
    (htokens : t.pc = .ready ∨ 0 < t.jobSem ∨ t.jobQueue = [] ∨ t.ongoing ≠ [])
    (hready : t.pc = .ready → t.ongoing = []) : Wakeful t :=
  h.congr (by rw [hobj]) (fun _ => by rw [hobj]) (fun _ => by rw [hobj]) (fun _ => by rw [hobj])
    hjobs hongoing htokens hready

theorem Wakeful.setSession {sess : JobSession} (h : Wakeful s)
    (hhandle : sess.sessionHandleQ = (s.obj.session q).sessionHandleQ)
    (hid : sess.jobId = (s.obj.session q).jobId)
    (hsession : sess.sessionId = (s.obj.session q).sessionId) : Wakeful (s.setSession q sess) :=
  h.congr rfl (update_field (·.sessionHandleQ) hhandle) (update_field (·.jobId) hid)
    (update_field (·.sessionId) hsession) (.refl _) rfl h.tokens h.ready

theorem Wakeful.available_jobDone {r : SessionPtr} (h : Wakeful s) (hr : s.Available r) :
    (s.jobDone q).Available r := by
  obtain ⟨n, hn, hr⟩ := hr
  have hhandle : ((s.jobDone q).obj.session r).sessionHandleQ = some n := by
    rw [jobDone, MmJpegObj.jobDone_field (·.sessionHandleQ) fun _ => rfl]
    exact hn
  have hmem : ∀ r', r' ∈ s.obj.sessionQ n ∨ (r' = q ∧ (s.obj.session q).sessionHandleQ = some n) →
      r' ∈ (s.jobDone q).obj.sessionQ n := by
    intro r' hr'
    rw [jobDone, MmJpegObj.jobDone_sessionQ]
    split
    case isTrue =>
      rcases hr' with hr' | ⟨rfl, -⟩
      · exact mem_append_left _ hr'
      · exact mem_append_right _ (mem_singleton_self _)
    case isFalse hne => exact hr'.elim id fun hr' => absurd hr'.2 hne
  refine ⟨n, hhandle, ?_⟩
  rcases hr with hr | ⟨node, hnode, hr⟩
  · exact .inl (hmem r (.inl hr))
  · by_cases hid : node.jobId = (s.obj.session q).jobId
    · obtain ⟨hzero, r', hr', hget, -⟩ := h.listed node hnode
      obtain rfl := some.inj (hr.symm.trans hr')
      have hself : getSession (s.obj.session q).jobId = some q :=
        (h.carries q).resolve_left (hid ▸ hzero)
      obtain rfl : r = q := some.inj (hget.symm.trans (hid ▸ hself))
      exact .inl (hmem r (.inr ⟨rfl, hn⟩))
    · refine .inr ⟨node, ?_, hr⟩
      exact (mem_eraseP_of_neg (by simpa using hid)).mpr hnode

theorem Wakeful.jobDone (h : Wakeful s) (q : SessionPtr) : Wakeful (s.jobDone q) := by
  have hhandle : ∀ r, ((s.jobDone q).obj.session r).sessionHandleQ = (s.obj.session r).sessionHandleQ :=
    MmJpegObj.jobDone_field (·.sessionHandleQ) (fun _ => rfl) s.obj q
  refine h.transfer (fun r n => (hhandle r).symm.trans)
    (MmJpegObj.jobDone_field (·.sessionId) (fun _ => rfl) s.obj q) ?_
    (fun r => .inl (MmJpegObj.jobDone_field (·.jobId) (fun _ => rfl) s.obj q r)) (.refl _)
    (fun _ _ r _ hr => h.available_jobDone hr) ?_ (.inr (.inl (Nat.succ_pos _))) ?_
  · intro n r hr
    rw [hhandle]
    rw [JobState.jobDone, MmJpegObj.jobDone_sessionQ] at hr
    split at hr
    case isTrue hn =>
      rcases mem_append.mp hr with hr | hr
      · exact h.own n r hr
      · rw [mem_singleton.mp hr]
        exact hn
    case isFalse => exact h.own n r hr
  · intro node hnode
    exact .inl (eraseP_sublist.subset hnode)
  · intro hready
    have hnil : s.ongoing = [] := h.ready hready
    rw [JobState.jobDone, hnil]
    rfl

theorem Wakeful.jpegCb (h : Wakeful s) (q : SessionPtr) : Wakeful (s.jpegCb q) := by
  rw [jpegCb_frame]
  exact h.of_obj rfl (.refl _) rfl h.tokens h.ready

theorem Wakeful.encodeError (h : Wakeful s) (q : SessionPtr) (cb : Bool) : Wakeful (s.encodeError q cb) := by
  have hcb : Wakeful (if cb then s.jpegCb q else s) := by
    split
    · exact h.jpegCb q
    · exact h
  have hpc : (s.encodeError q cb).pc ≠ .ready := by simp [JobState.encodeError]
  exact (hcb.jobDone q).of_obj rfl (.refl _) rfl (.inr (.inl (Nat.succ_pos _))) fun hready => absurd hready hpc

/-! ### Taking a job -/

variable {rest : List JobNode} {u : JobState}

theorem Popped.available {r : SessionPtr} (hpop : Popped s rest n qs u) (h : Wakeful s)
    (hq : (s.obj.session q).sessionHandleQ = some n) (hr : s.Available r) (hrq : r ≠ q) :
    u.Available r := by
  obtain ⟨f, g, rfl, hg⟩ := hpop
  obtain ⟨k, hk, hr⟩ := hr
  obtain ⟨b, hb⟩ := hg r
  have hne : k ≠ n := by
    rintro rfl
    exact hrq (h.single r q k hk hq)
  refine ⟨k, ?_, ?_⟩
  · change k ∈ (g r).sessionHandleQ
    rw [hb]
    exact hk
  · change r ∈ update s.obj.sessionQ n qs k ∨ _
    rw [update_of_ne hne]
    exact hr

variable {node : JobNode}

theorem Wakeful.pop (h : Wakeful s) (hqueue : s.jobQueue = node :: rest)
    (hq : (s.obj.session q).sessionHandleQ = some n) (hhead : s.obj.sessionQ n = q :: qs)
    (hpop : Popped s rest n qs u) (hspare : s.CanSpare q rest) :
    Wakeful { u with pc := .waiting } := by
  have hjobs := hpop.jobQueue
  have hsem := hpop.jobSem
  have hhandle := hpop.field (·.sessionHandleQ) fun _ _ => rfl
  refine h.transfer (fun r n => (hhandle r).symm.trans) (hpop.field (·.sessionId) fun _ _ => rfl)
    (fun k r hr => (hhandle r).trans (h.own k r (hpop.sub hhead hr)))
    (fun r => .inl (hpop.field (·.jobId) (fun _ _ => rfl) r)) ?_ ?_ ?_ (.inr ?_) ?_
  · simp only [hjobs, hqueue]
    exact sublist_cons_self ..
  · intro node' hnode' r hr hav
    have hrq : r ≠ q := by
      rintro rfl
      exact hspare.1 node' (hjobs ▸ hnode') hr
    exact hpop.available h hq hav hrq
  · intro node' hnode'
    exact .inl (hpop.ongoing ▸ hnode')
  · simp only [hjobs, hsem]
    exact hspare.2.symm.imp id .inl
  · simp

theorem Wakeful.begin {node' : JobNode} (h : Wakeful s)
    (hqueue : s.jobQueue = node :: rest) (hget : getSession node.jobId = some q)
    (hq : (s.obj.session q).sessionHandleQ = some n) (hhead : s.obj.sessionQ n = q :: qs)
    (hpop : Popped s rest n qs u) (hid : node'.jobId = node.jobId)
    (hsid : node'.encodeJob.sessionId = node.encodeJob.sessionId) :
    Wakeful (u.processWith node' q true) := by
  have hmem : node ∈ s.jobQueue := by
    rw [hqueue]
    exact mem_cons_self
  obtain ⟨hzero, p, hp, hsession, -⟩ := h.queued node hmem
  obtain rfl : q = p := some.inj (hget.symm.trans hp)
  have hfield : ∀ {β : Type} (f : JobSession → β), (∀ (sess : JobSession) e k a b c, f { sess with
        encodeJob := e, jobId := k, abortState := a, encoding := b, autoOutBuf := c } = f sess) →
      ∀ r, f ((u.processWith node' q true).obj.session r) = f (s.obj.session r) := by
    intro β f hf r
    refine (update_field f (hf _ _ _ _ _ (u.obj.session q).autoOutBuf) r).trans ?_
    exact hpop.field f (fun sess c => hf sess sess.encodeJob sess.jobId sess.abortState sess.encoding c) r
  have hongoing : (u.processWith node' q true).ongoing = s.ongoing ++ [{ node' with session := some q }] := by
    rw [← hpop.ongoing]
    rfl
  have hhandle := hfield (·.sessionHandleQ) fun _ _ _ _ _ _ => rfl
  refine h.transfer (fun r n => (hhandle r).symm.trans) (hfield (·.sessionId) fun _ _ _ _ _ _ => rfl)
    (fun k r hr => (hhandle r).trans (h.own k r (hpop.sub hhead hr))) ?_ ?_ ?_ ?_ (.inr (.inr (.inr ?_))) ?_
  · intro r
    by_cases hr : r = q
    · right
      rw [hr]
      change getSession (update u.obj.session q _ q).jobId = some q
      rw [update_self]
      exact (congrArg getSession hid).trans hget
    · left
      exact (congrArg JobSession.jobId (update_of_ne hr ..)).trans (hpop.field (·.jobId) (fun _ _ => rfl) r)
  · change u.jobQueue.Sublist s.jobQueue
    rw [hpop.jobQueue, hqueue]
    exact sublist_cons_self ..
  · intro node'' _ r _ hav
    by_cases hrq : r = q
    · subst hrq
      refine ⟨n, (hhandle r).trans hq, .inr ?_⟩
      rw [hongoing]
      exact ⟨_, mem_append_right _ (mem_singleton_self _), rfl⟩
    · obtain ⟨k, hk, hr⟩ := hpop.available h hq hav hrq
      have hkr : (u.obj.session r).sessionHandleQ = some k := hk
      refine ⟨k, ?_, hr.imp id ?_⟩
      · rw [hpop.field (·.sessionHandleQ) fun _ _ => rfl] at hkr
        exact (hhandle r).trans hkr
      · rintro ⟨other, hother, hr⟩
        rw [hongoing]
        exact ⟨other, mem_append_left _ (hpop.ongoing ▸ hother), hr⟩
  · intro other hother
    rw [hongoing] at hother
    rcases mem_append.mp hother with hother | hother
    · exact .inl hother
    · rw [mem_singleton.mp hother]
      exact .inr ⟨hid ▸ hzero, q, rfl, hid ▸ hget, hsid.trans hsession⟩
  · rw [hongoing]
    simp
  · intro hready
    exact absurd hready (by simp [processWith])

theorem Wakeful.requeue (h : Wakeful s) (hongoing : s.ongoing = [])
    (hqueue : s.jobQueue = node :: rest) (hq : (s.obj.session q).sessionHandleQ = some n)
    (hhead : s.obj.sessionQ n = q :: qs) (hpop : Popped s rest n qs u) :
    Wakeful (u.encodeError q false) := by
  have hfield : ∀ {β : Type} (f : JobSession → β),
      (∀ (sess : JobSession) b c, f { sess with encoding := b, autoOutBuf := c } = f sess) →
      ∀ r, f ((u.encodeError q false).obj.session r) = f (s.obj.session r) := by
    intro β f hf r
    rw [encodeError_obj, MmJpegObj.jobDone_field f fun sess => hf sess false sess.autoOutBuf]
    exact hpop.field f (fun sess c => hf sess sess.encoding c) r
  have hsessionQ : ∀ k, (u.encodeError q false).obj.sessionQ k =
      if k = n then u.obj.sessionQ k ++ [q] else u.obj.sessionQ k := by
    intro k
    have hu : (u.obj.session q).sessionHandleQ = some n :=
      (hpop.field (·.sessionHandleQ) (fun _ _ => rfl) q).trans hq
    rw [encodeError_obj, MmJpegObj.jobDone_sessionQ, hu]
    by_cases hk : k = n
    · rw [hk, if_pos rfl, if_pos rfl]
    · rw [if_neg fun heq => hk (some.inj heq).symm, if_neg hk]
  have hnone : (u.encodeError q false).ongoing = [] := by
    rw [encodeError_ongoing, JobState.jobDone, hpop.ongoing, hongoing]
    rfl
  have hhandle := hfield (·.sessionHandleQ) fun _ _ _ => rfl
  refine h.transfer (fun r n => (hhandle r).symm.trans) (hfield (·.sessionId) fun _ _ _ => rfl) ?_
    (fun r => .inl (hfield (·.jobId) (fun _ _ _ => rfl) r)) ?_ ?_ ?_
    (.inr (.inl (Nat.succ_pos _))) fun _ => hnone
  · intro k r hr
    rw [hhandle]
    rw [hsessionQ] at hr
    split at hr
    case isTrue hk =>
      rcases mem_append.mp hr with hr | hr
      · exact h.own k r (hpop.sub hhead hr)
      · rw [mem_singleton.mp hr, hk]
        exact hq
    case isFalse => exact h.own k r (hpop.sub hhead hr)
  · change u.jobQueue.Sublist s.jobQueue
    rw [hpop.jobQueue, hqueue]
    exact sublist_cons_self ..
  · intro node' _ r _ hav
    by_cases hrq : r = q
    · subst hrq
      refine ⟨n, (hhandle r).trans hq, .inl ?_⟩
      rw [hsessionQ, if_pos rfl]
      exact mem_append_right _ (mem_singleton_self r)
    · obtain ⟨k, hk, hr⟩ := hpop.available h hq hav hrq
      have hkr : (u.obj.session r).sessionHandleQ = some k := hk
      rw [hpop.field (·.sessionHandleQ) fun _ _ => rfl] at hkr
      refine ⟨k, (hhandle r).trans hkr, .inl ?_⟩
      have hr : r ∈ u.obj.sessionQ k := by
        refine hr.resolve_right ?_
        rintro ⟨other, hother, -⟩
        rw [hpop.ongoing, hongoing] at hother
        exact absurd hother (by simp)
      rw [hsessionQ]
      split
      · exact mem_append_left _ hr
      · exact hr
  · intro other hother
    rw [hnone] at hother
    exact absurd hother (by simp)

/-- The job manager takes a job. -/
theorem Wakeful.take {enqueued : Bool} (h : Wakeful s) (hwakes : s.Wakes (.take enqueued))
    (ht : s.take enqueued = some t) : Wakeful t := by
  obtain ⟨hready, hcase⟩ := take_outcomes ht
  have hongoing := h.ready hready
  rcases hcase with ⟨jobs, hjobs, rfl, hnone⟩ | ⟨node, rest, p, n, q, qs, u, hqueue, hget, hp, hhead, hpop, hcase⟩
  · -- the session of a queued job is free, for no job is ongoing
    have hnil : s.jobQueue = [] := by
      cases hqueue : s.jobQueue with
      | nil => rfl
      | cons node rest =>
        exfalso
        have hmem : node ∈ s.jobQueue := by
          rw [hqueue]
          exact mem_cons_self
        obtain ⟨-, p, hp, -, n, hn, hav⟩ := h.queued node hmem
        rw [hongoing] at hav
        have hfree : p ∈ s.obj.sessionQ n := hav.resolve_right (by simp)
        have hnext := hnone node (by rw [hqueue]; rfl)
        rw [nextSession, hp, bind_some, mem_def.mp hn, bind_some, head?_eq_none_iff] at hnext
        rw [hnext] at hfree
        exact absurd hfree (by simp)
    rw [hnil] at hjobs
    have hjobs := sublist_nil.mp hjobs
    exact h.of_obj rfl (hnil ▸ hjobs ▸ .refl _) rfl (.inr (.inr (.inl hjobs))) (by simp)
  · obtain rfl : q = p := h.toApart.head_eq hp hhead
    rcases hcase with ⟨rfl, hdst, hbufs⟩ | ⟨node', hid, hsid, rfl⟩
    · have hnext : s.nextSession node = some q := by
        simp [nextSession, hget, hp, hhead]
      have hspare : s.CanSpare q rest := by
        rcases hwakes node (by rw [hqueue]; rfl) q hnext hdst with ⟨b, hb, hne⟩ | hspare
        · exact absurd (hbufs b hb) hne
        · rwa [hqueue] at hspare
      exact h.pop hqueue hp hhead hpop hspare
    · cases enqueued with
      | true => exact h.begin hqueue hget hp hhead hpop hid hsid
      | false => exact h.requeue hongoing hqueue hp hhead hpop

/-! ### The other steps -/

variable {k : ℕ}

theorem Wakeful.accept {job : EncodeJob} {l : List ℕ} (h : Wakeful s) (hget : getSession job.sessionId = some p)
    (hsession : job.sessionId = (s.obj.session p).sessionId) (hzero : job.sessionId ≠ 0)
    (hav : s.Available p) :
    Wakeful { s with
      jobQueue := s.jobQueue ++ [{ jobId := job.sessionId ||| k <<< 16, encodeJob := job }]
      jobSem := n + 1
      accepted := l } := by
  refine ⟨⟨h.single, h.own, h.carries⟩, ?_, h.listed, .inr (.inl (Nat.succ_pos n)), h.ready⟩
  intro node hnode
  rcases mem_append.mp hnode with hnode | hnode
  · exact h.queued node hnode
  · rw [mem_singleton.mp hnode]
    refine ⟨?_, p, (getSession_jobId job.sessionId k).trans hget, hsession, hav⟩
    exact fun hor => hzero (Nat.or_eq_zero_iff.mp hor).1

theorem Wakeful.startJob {job : EncodeJob} {calls : StartCalls} (h : Wakeful s)
    (hwakes : s.Wakes (.startJob job calls)) : Wakeful (s.startJob job calls) := by
  rcases startJob_outcomes s job calls with heq | ⟨p, hp, u, hu, heq | heq⟩
  · rw [heq]
    exact h
  · rw [heq, hu]
    exact h.setSession rfl rfl rfl
  · obtain ⟨hsession, hzero, hav⟩ := hwakes p hp
    have hset : Wakeful u := by
      rw [hu]
      exact h.setSession rfl rfl rfl
    have hsession' : job.sessionId = (u.obj.session p).sessionId := by
      rw [hu, setSession_session]
      exact hsession
    have hav' : u.Available p := by
      obtain ⟨n, hn, hp'⟩ := hav
      refine ⟨n, ?_, ?_⟩
      · rw [hu, setSession_session]
        exact hn
      · rw [hu]
        exact hp'
    have hjobs : u.jobQueue = s.jobQueue := by rw [hu]; rfl
    rw [heq, ← hjobs]
    exact hset.accept hp hsession' hzero hav'

theorem Wakeful.aborts (h : Wakeful s) (haborts : Aborts s t) : Wakeful t := by
  obtain ⟨g, l, rfl, hg, -⟩ := haborts
  have hfield : ∀ {β : Type} (f : JobSession → β),
      (∀ (sess : JobSession) a p, f { sess with abortState := a, stateChangePending := p } =
        f sess) → ∀ r, f (g r) = f (s.obj.session r) := by
    intro β f hf r
    obtain ⟨a, p, hr⟩ := hg r
    rw [hr, hf]
  exact h.congr rfl (hfield (·.sessionHandleQ) fun _ _ _ => rfl)
    (hfield (·.jobId) fun _ _ _ => rfl) (hfield (·.sessionId) fun _ _ _ => rfl) (.refl _) rfl
    h.tokens h.ready

theorem Wakeful.erase {l : List ℕ} (h : Wakeful s)
    (hspare : ∀ node ∈ s.ongoing, node.jobId = k → ∀ q ∈ node.session, s.CanSpare q s.jobQueue)
    (hany : (s.ongoing.any fun node => node.jobId = k) = true) :
    Wakeful { s with
      ongoing := s.ongoing.eraseP fun node => node.jobId = k
      aborted := l } := by
  refine h.transfer (fun _ _ hr => hr) (fun _ => rfl) h.own (fun _ => .inl rfl) (.refl _) ?_
    (fun node hnode => .inl (eraseP_sublist.subset hnode)) ?_ ?_
  · rintro node hnode r hr ⟨n, hn, hav⟩
    refine ⟨n, hn, hav.imp id ?_⟩
    rintro ⟨other, hother, hsession⟩
    have hid : other.jobId ≠ k := by
      intro hid
      exact (hspare other hother hid r hsession).1 node hnode hr
    have hstays : other ∈ s.ongoing.eraseP (fun node => decide (node.jobId = k)) := by
      rw [mem_eraseP_of_neg (by simpa using hid)]
      exact hother
    exact ⟨other, hstays, hsession⟩
  · obtain ⟨node, hnode, hid⟩ := any_eq_true.mp hany
    obtain ⟨-, p, hp, -⟩ := h.listed node hnode
    rcases (hspare node hnode (by simpa using hid) p hp).2 with hnil | hsem
    · exact .inr (.inr (.inl hnil))
    · exact .inr (.inl hsem)
  · intro hready
    have hnil : s.ongoing = [] := h.ready hready
    change s.ongoing.eraseP _ = []
    rw [hnil]
    rfl

theorem Wakeful.abortJob {sendOk : SessionPtr → Bool} (h : Wakeful s)
    (hwakes : s.Wakes (.abortJob k sendOk)) : Wakeful (s.abortJob k sendOk) := by
  rw [JobState.abortJob]
  split
  case isTrue =>
    refine h.of_obj rfl eraseP_sublist rfl ?_ h.ready
    rcases h.tokens with hready | hsem | hnil | hongoing
    · exact .inl hready
    · exact .inr (.inl hsem)
    · refine .inr (.inr (.inl ?_))
      change s.jobQueue.eraseP _ = []
      rw [hnil]
      rfl
    · exact .inr (.inr (.inr hongoing))
  case isFalse hqueue =>
    split
    case isTrue hany =>
      have hgone := h.erase (l := s.aborted ++ [k]) (hwakes.resolve_left hqueue) hany
      simp only
      split
      · exact hgone
      · exact hgone.aborts (.chain sendOk mmJpegMaxSession _ _)
    case isFalse => exact h

theorem Wakeful.destroySession (h : Wakeful s) (p : SessionPtr) (sendOk : SessionPtr → Bool) :
    Wakeful (s.destroySession p sendOk) := by
  obtain ⟨g, l, ht, hg⟩ := s.destroySession_eq p sendOk
  rw [ht]
  set w : JobState := { s with
    obj := { s.obj with session := g }
    jobQueue := s.jobQueue.filter fun node => !decide (node.encodeJob.sessionId = (s.obj.session p).sessionId)
    ongoing := s.ongoing.filter fun node => !decide (node.encodeJob.sessionId = (s.obj.session p).sessionId)
    aborted := l } with hw
  have hfield : ∀ {β : Type} (f : JobSession → β), (∀ (sess : JobSession) a b c d e, f { sess with
        abortState := a, stateChangePending := b, active := c, config := d, omxHandle := e } = f sess) →
      ∀ r, f (g r) = f (s.obj.session r) := by
    intro β f hf r
    obtain ⟨a, b, c, d, e, hr⟩ := hg r
    rw [hr, hf]
  have hhandle := hfield (·.sessionHandleQ) fun _ _ _ _ _ _ => rfl
  have hfree : ∀ {β : Type} (f : JobSession → β),
      (∀ sess : JobSession, f { sess with sessionHandleQ := none, outBufQ := none } = f sess) →
      ∀ r, f ((w.freeQueues p).obj.session r) = f (g r) := by
    intro β f hf r
    rw [freeQueues_session]
    exact update_field f (hf _) r
  have hother : ∀ r, r ≠ p → ((w.freeQueues p).obj.session r).sessionHandleQ = (s.obj.session r).sessionHandleQ := by
    intro r hr
    rw [freeQueues_session, update_of_ne hr]
    exact hhandle r
  have hsessionQ : ∀ k r, r ∈ (w.freeQueues p).obj.sessionQ k ↔ r ≠ p ∧ r ∈ s.obj.sessionQ k := by
    intro k r
    rw [freeQueues_sessionQ, show (w.obj.session p).sessionHandleQ = _ from hhandle p]
    split
    case isTrue hk =>
      refine ⟨fun hr => absurd hr (by simp), fun hr => absurd ?_ hr.1⟩
      exact h.single r p k (h.own k r hr.2) hk
    case isFalse hk =>
      refine ⟨fun hr => ⟨?_, hr⟩, And.right⟩
      rintro rfl
      exact hk (h.own k r hr)
  obtain ⟨f, f', hframe⟩ := w.freeQueues_frame p
  have hjobs : (w.freeQueues p).jobQueue = w.jobQueue := by rw [hframe]
  have hongoing : (w.freeQueues p).ongoing = w.ongoing := by rw [hframe]
  have hpc : (w.freeQueues p).pc = s.pc := by rw [hframe, hw]
  refine h.transfer ?_ ?_ ?_ ?_ ?_ ?_ ?_ (.inr (.inl (Nat.succ_pos _))) ?_
  · intro r n hr
    by_cases hrp : r = p
    · change ((w.freeQueues p).obj.session r).sessionHandleQ = some n at hr
      rw [hrp, freeQueues_session, update_self] at hr
      exact absurd hr (by simp)
    · exact (hother r hrp).symm.trans hr
  · intro r
    exact (hfree (·.sessionId) (fun _ => rfl) r).trans (hfield (·.sessionId) (fun _ _ _ _ _ _ => rfl) r)
  · intro n r hr
    obtain ⟨hrp, hr⟩ := (hsessionQ n r).mp hr
    exact (hother r hrp).trans (h.own n r hr)
  · intro r
    exact .inl ((hfree (·.jobId) (fun _ => rfl) r).trans (hfield (·.jobId) (fun _ _ _ _ _ _ => rfl) r))
  · change (w.freeQueues p).jobQueue.Sublist s.jobQueue
    rw [hjobs]
    exact filter_sublist
  · -- a job that stays is of another session, and so is the ongoing job that runs on that
    rintro node hnode r hget ⟨n, hn, hav⟩
    have hnode : node ∈ w.jobQueue := hjobs ▸ hnode
    obtain ⟨hmem, hstays⟩ := mem_filter.mp hnode
    obtain ⟨-, r', hget', hsid, -⟩ := h.queued node hmem
    obtain rfl := some.inj (hget.symm.trans hget')
    have hrp : r ≠ p := by
      rintro rfl
      simp [hsid] at hstays
    refine ⟨n, (hother r hrp).trans hn, hav.imp (fun hr => (hsessionQ n r).mpr ⟨hrp, hr⟩) ?_⟩
    rintro ⟨other, hother, hsession⟩
    obtain ⟨-, r', hr', -, hsid'⟩ := h.listed other hother
    obtain rfl := some.inj (hsession.symm.trans hr')
    refine ⟨other, ?_, hsession⟩
    change other ∈ (w.freeQueues p).ongoing
    rw [hongoing]
    refine mem_filter.mpr ⟨hother, ?_⟩
    rw [hsid', ← hsid]
    exact hstays
  · intro node hnode
    have hnode : node ∈ w.ongoing := hongoing ▸ hnode
    exact .inl (mem_filter.mp hnode).1
  · intro hready
    have hnil : s.ongoing = [] := h.ready (hpc.symm.trans hready)
    change (w.freeQueues p).ongoing = []
    rw [hongoing, hw]
    change s.ongoing.filter _ = []
    rw [hnil]
    rfl

/-! ### Runs -/

/-- **One step** that loses no wake-up keeps the invariant. -/
theorem Wakeful.step {e : JobEvent} (h : Wakeful s) (hwakes : s.Wakes e) (ht : s.step e = some t) : Wakeful t := by
  have hheard (q : SessionPtr) : Wakeful { s with reported := s.reported ++ [(s.obj.session q).jobId] } :=
    h.of_obj rfl (.refl _) rfl h.tokens h.ready
  cases does_of_step ht with
  | startJob job calls => exact h.startJob hwakes
  | atLimit _ _ hlimit =>
    have hne : s.ongoing ≠ [] := by
      rintro hnil
      rw [hnil] at hlimit
      exact absurd hlimit (by decide)
    exact h.of_obj rfl (.refl _) rfl (.inr (.inr (.inr hne))) h.ready
  | ready _ _ hlimit =>
    have hnil : s.ongoing = [] := by
      rw [mmJpegConcurrentSessionsCount] at hlimit
      exact length_eq_zero_iff.mp (by omega)
    exact h.of_obj rfl (.refl _) rfl (.inl rfl) fun _ => hnil
  | take htake => exact h.take hwakes htake
  | @setUp q hpc =>
    have hset : Wakeful (s.setSession q { s.obj.session q with encoding := true }) :=
      h.setSession rfl rfl rfl
    refine hset.of_obj rfl (.refl _) rfl (.inr (h.tokens.resolve_left ?_)) (by simp)
    simp [hpc]
  | emptied hpc | filled hpc =>
    refine h.of_obj rfl (.refl _) rfl (.inr (h.tokens.resolve_left ?_)) (by simp)
    simp [hpc]
  | setupFails hpc | emptyFails hpc | fillFails hpc => exact h.encodeError _ true
  | @fbd q _ =>
    rw [fbd]
    simp only
    split
    case isTrue => exact hheard q
    case isFalse =>
      split
      case isTrue =>
        refine Wakeful.jobDone (Wakeful.jpegCb ((hheard q).setSession ?_ ?_ ?_) q) q
        · rfl
        · rfl
        · rfl
      case isFalse => exact (hheard q).setSession rfl rfl rfl
  | @eventError q nData2 _ =>
    rw [eventError]
    simp only
    split
    case isTrue => exact (hheard q).setSession rfl rfl rfl
    case isFalse =>
      split
      case isTrue =>
        refine Wakeful.jobDone (Wakeful.jpegCb ((hheard q).setSession ?_ ?_ ?_) q) q
        · rfl
        · rfl
        · rfl
      case isFalse => exact (hheard q).setSession rfl rfl rfl
  | eventCmdComplete _ =>
    rw [eventCmdComplete]
    split
    case isTrue => exact h.setSession rfl rfl rfl
    case isFalse => exact h.setSession rfl rfl rfl
  | abortJob id sendOk _ => exact h.abortJob hwakes
  | destroySession p sendOk _ _ => exact h.destroySession p sendOk

theorem Wakeful.noLostWakeup (h : Wakeful s) : NoLostWakeup s := by
  intro hwaiting hsem
  rcases h.tokens with hready | htoken | hnil | hongoing
  · rw [hwaiting] at hready
    exact absurd hready (by simp)
  · rw [hsem] at htoken
    exact absurd htoken (Nat.lt_irrefl 0)
  · exact .inl hnil
  · exact .inr (.inl (length_pos_iff.mpr hongoing))

/-- **In a run whose steps lose no wake-up** the job manager waits without a token only with no job
to do, or at the limit of the ongoing jobs. -/
theorem no_lost_wakeup_run {o : MmJpegObj} {es : List JobEvent} (hapart : Apart o)
    (hrun : Run (guarded Wakes (fires step)) { obj := o } es t) : NoLostWakeup t := by
  have hstart : Wakeful { obj := o } :=
    ⟨hapart, by simp, by simp, .inr (.inr (.inl rfl)), by simp⟩
  have hwakeful : Wakeful t := hrun.invariant (fun s e t hs ht => hs.step ht.1 ht.2) hstart
  exact hwakeful.noLostWakeup

theorem oneSession_apart : Apart oneSession := by
  refine ⟨?_, ?_, ?_⟩
  · intro q r n hq hr
    have hone : ∀ q, (oneSession.session q).sessionHandleQ = some n → q = ⟨0, 0⟩ := by
      intro q hq
      by_contra hne
      simp [oneSession, hne] at hq
    rw [hone q hq, hone r hr]
  · intro n q hq
    exact (oneSession_idle.queued n q hq).2
  · intro q
    exact .inl (oneSession_fresh.jobId q)

/-- A second job of the session of `startOne`, whose token finds the limit reached. -/
def startTwo : List JobEvent :=
  startOne ++ [.startJob { sessionId := 0x1000000, dstIndex := -1 } {}, .wake]

/-- A second job waits at the limit, without a token. -/
theorem no_lost_wakeup_two : ∃ t, t.pc = .waiting ∧ t.jobSem = 0 ∧ t.jobQueue ≠ [] ∧ NoLostWakeup t := by
  have ⟨t, hrun, hpc, hsem, hqueue⟩ : ∃ t, Run (guarded Wakes (fires step)) { obj := oneSession } startTwo t ∧
      t.pc = .waiting ∧ t.jobSem = 0 ∧ t.jobQueue ≠ [] := exists_run (by decide +kernel)
  exact ⟨t, hpc, hsem, hqueue, no_lost_wakeup_run oneSession_apart hrun⟩

/-- The first job is aborted: the second one waits, and nothing will wake the job manager. -/
theorem abort_loses_wakeup : ∃ t,
    Run (fires step) { obj := oneSession } (startTwo ++ [.abortJob 0x1000000 fun _ => true]) t ∧
      t.pc = .waiting ∧ t.jobSem = 0 ∧ t.jobQueue ≠ [] ∧ t.ongoing = [] ∧ ¬ NoLostWakeup t := by
  refine (exists_run_fires (P := fun t => t.pc = .waiting ∧ t.jobSem = 0 ∧ t.jobQueue ≠ [] ∧ t.ongoing = [])
    (by decide +kernel)).imp fun t ht => ⟨ht.1, ?_⟩
  obtain ⟨-, hpc, hsem, hqueue, hongoing⟩ := ht
  refine ⟨hpc, hsem, hqueue, hongoing, fun h => ?_⟩
  rcases h hpc hsem with hnil | hlimit | hbusy
  · exact hqueue hnil
  · rw [hongoing] at hlimit
    exact absurd hlimit (by decide)
  · obtain ⟨node, rest, hcons⟩ := exists_cons_of_ne_nil hqueue
    obtain ⟨p, -, n, -, -, q, -, other, hother, -⟩ := hbusy node (by rw [hcons]; rfl)
    rw [hongoing] at hother
    exact absurd hother (by simp)

end JobState

end MmJpeg

end Marlin
