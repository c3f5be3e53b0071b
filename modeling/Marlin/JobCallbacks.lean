import Marlin.JobAccounts

/-!
# One Callback for Each Job

The client hears of a job from three places: the job manager, when a step of
`mm_jpeg_session_encode` fails, the error event, and `mm_jpeg_fbd`. The first tests nothing, the
second tests `encoding`, and the third the abort state. So a failing OMX call after an error event,
or a FillBufferDone after one, calls the client a second time for the same job, and an error event
during the set-up is reported by nobody.

## Conventions

* `callbacks` has the ids that `params.jpeg_cb` was called with, `reported` those that a session had
  when the component reported FillBufferDone or an error on it, `aborted` those of the jobs that were
  aborted or destroyed, by themselves or on the sessions of their chain.
* A job id is what names a job: `Reported` asks that an id that is given out is new.

## Main results

* `Once.step`: what one step preserves.
* `one_callback_run`: at most one callback for each job, and exactly one for each that was reported
  and not aborted.
* `error_then_fbd`: two callbacks for one job.
-/

namespace Marlin

namespace MmJpeg

open MmJpegObj JobState Option List Function Transition

namespace JobState

/-- **One callback for each job**: at most one, and one for each job that the component reported on
and that was not aborted. -/
def OneCallback (s : JobState) : Prop :=
  ∀ k ∈ s.accepted, s.callbacks.count k ≤ 1 ∧ (k ∈ s.reported → k ∉ s.aborted → s.callbacks.count k = 1)

/-- The id that an accepted job would get is new. -/
def FreshId (s : JobState) (job : EncodeJob) : Prop :=
  ∀ p ∈ getSession job.sessionId, s.nextJobId p job.sessionId ≠ 0 ∧ s.nextJobId p job.sessionId ∉ s.accepted
deriving Decidable

/-- **Steps that report once**: FillBufferDone finds its session encoding or in an abort, a failing
OMX call finds it encoding, an error event finds it out of its set-up, and a job gets an id that is
new. -/
def Reported (s : JobState) : JobEvent → Prop
  | .startJob job _ => s.FreshId job
  | .emptyThisBuffer ok => ok = true ∨ s.WorkEncodes
  | .fillThisBuffer ok => ok = true ∨ s.WorkEncodes
  | .fbd q => (s.obj.session q).encoding = true ∨ (s.obj.session q).abortState ≠ .none
  | .eventError q _ => s.pc ≠ .setup q
  | _ => True

instance (s : JobState) : DecidablePred s.Reported
  | .startJob job _ => inferInstanceAs (Decidable (s.FreshId job))
  | .emptyThisBuffer ok => inferInstanceAs (Decidable (ok = true ∨ s.WorkEncodes))
  | .fillThisBuffer ok => inferInstanceAs (Decidable (ok = true ∨ s.WorkEncodes))
  | .fbd q => inferInstanceAs (Decidable
      ((s.obj.session q).encoding = true ∨ (s.obj.session q).abortState ≠ .none))
  | .eventError q _ => inferInstanceAs (Decidable (s.pc ≠ .setup q))
  | .wake | .take _ | .setupDone _ | .eventCmdComplete _ | .abortJob _ _ | .destroySession _ _ => isTrue trivial

/-! ### The invariant -/

/-- The queues of free sessions: a session is in its own only, once, and not at work. -/
structure Spare (s : JobState) : Prop where
  own : ∀ n, ∀ q ∈ s.obj.sessionQ n, (s.obj.session q).sessionHandleQ = some n
  idle : ∀ n, ∀ q ∈ s.obj.sessionQ n, (s.obj.session q).encoding = false ∧ s.pc ≠ .setup q
  nodup : ∀ n, (s.obj.sessionQ n).Nodup

/-- The jobs still to do: their ids are new to the sessions and to the client. -/
structure Waiting (s : JobState) : Prop where
  distinct : (s.jobQueue.map (·.jobId)).Nodup
  accepted : ∀ node ∈ s.jobQueue, node.jobId ∈ s.accepted
  unseen : ∀ node ∈ s.jobQueue, node.jobId ∉ s.callbacks ∧ node.jobId ∉ s.reported ∧
    ∀ q, (s.obj.session q).jobId ≠ node.jobId

/-- Where a session stands with its job: in its set-up or encoding, with no callback yet, or called
back. -/
structure Standing (s : JobState) : Prop where
  encoding : ∀ q, (s.obj.session q).encoding = true →
    (s.obj.session q).jobId ∈ s.accepted ∧ (s.obj.session q).jobId ∉ s.callbacks
  setup : ∀ q, s.pc = .setup q → (s.obj.session q).encoding = false ∧ (s.obj.session q).abortState = .none ∧
    (s.obj.session q).jobId ∈ s.accepted ∧ (s.obj.session q).jobId ∉ s.callbacks
  called : ∀ q, (s.obj.session q).jobId ∈ s.accepted → (s.obj.session q).encoding = true ∨
    s.pc = .setup q ∨ s.callbacks.count (s.obj.session q).jobId = 1
  aborted : ∀ q, (s.obj.session q).encoding = true → (s.obj.session q).abortState ≠ .none →
    (s.obj.session q).jobId ∈ s.aborted
  carried : ∀ q r, (s.obj.session q).jobId = (s.obj.session r).jobId →
    (s.obj.session q).jobId ∈ s.accepted → q = r
  given : ∀ q, (s.obj.session q).jobId = 0 ∨ (s.obj.session q).jobId ∈ s.accepted

/-- **The invariant.** -/
structure Once (s : JobState) : Prop extends Spare s, Waiting s, Standing s where
  jpegCb : ∀ q, (s.obj.session q).params.jpegCb = true
  known : ∀ k ∈ s.callbacks, k ∈ s.accepted
  heard : ∀ k ∈ s.reported, k = 0 ∨ k ∈ s.accepted
  nonzero : 0 ∉ s.accepted
  atMost : ∀ k, s.callbacks.count k ≤ 1
  reported : ∀ k ∈ s.reported, k ∈ s.accepted → k ∈ s.aborted ∨ s.callbacks.count k = 1

variable {s t : JobState} {q : SessionPtr}

theorem Once.not_queued (h : Once s)
    (hwork : (s.obj.session q).encoding = true ∨ s.pc = .setup q) (n : ℕ) :
    q ∉ s.obj.sessionQ n := by
  intro hq
  obtain ⟨henc, hset⟩ := h.idle n q hq
  rcases hwork with hwork | hwork
  · rw [henc] at hwork
    exact absurd hwork (by simp)
  · exact hset hwork

theorem Once.uncalled (h : Once s) (hwork : (s.obj.session q).encoding = true ∨ s.pc = .setup q) :
    (s.obj.session q).jobId ∈ s.accepted ∧ (s.obj.session q).jobId ∉ s.callbacks := by
  rcases hwork with hwork | hwork
  · exact h.encoding q hwork
  · exact (h.setup q hwork).2.2

/-! ### The queues of free sessions -/

theorem Spare.congr (h : Spare s) (hqueue : t.obj.sessionQ = s.obj.sessionQ)
    (hhandle : ∀ r, (t.obj.session r).sessionHandleQ = (s.obj.session r).sessionHandleQ)
    (hencoding : ∀ r, (t.obj.session r).encoding = (s.obj.session r).encoding)
    (hpc : ∀ r, t.pc = .setup r → s.pc = .setup r) : Spare t := by
  refine ⟨?_, ?_, ?_⟩
  · intro n r hr
    rw [hqueue] at hr
    rw [hhandle]
    exact h.own n r hr
  · intro n r hr
    rw [hqueue] at hr
    rw [hencoding]
    exact ⟨(h.idle n r hr).1, fun hset => (h.idle n r hr).2 (hpc r hset)⟩
  · intro n
    rw [hqueue]
    exact h.nodup n

theorem Spare.queue (h : Spare s) (hnot : ∀ n, q ∉ s.obj.sessionQ n)
    (hqueue : ∀ n, t.obj.sessionQ n = if (s.obj.session q).sessionHandleQ = some n then
      s.obj.sessionQ n ++ [q] else s.obj.sessionQ n)
    (hhandle : ∀ r, (t.obj.session r).sessionHandleQ = (s.obj.session r).sessionHandleQ)
    (hdone : (t.obj.session q).encoding = false)
    (hencoding : ∀ r, r ≠ q → (t.obj.session r).encoding = (s.obj.session r).encoding)
    (hpc : ∀ r, t.pc = .setup r → s.pc = .setup r ∧ r ≠ q) : Spare t := by
  refine ⟨?_, ?_, ?_⟩
  · intro n r hr
    rw [hhandle]
    rw [hqueue] at hr
    split at hr
    case isTrue hn =>
      rcases mem_append.mp hr with hr | hr
      · exact h.own n r hr
      · obtain rfl := mem_singleton.mp hr
        exact hn
    case isFalse => exact h.own n r hr
  · intro n r hr
    by_cases hrq : r = q
    · subst hrq
      exact ⟨hdone, fun hset => (hpc r hset).2 rfl⟩
    · have hr' : r ∈ s.obj.sessionQ n := by
        rw [hqueue] at hr
        split at hr
        · exact (mem_append.mp hr).resolve_right fun hr => hrq (mem_singleton.mp hr)
        · exact hr
      rw [hencoding r hrq]
      exact ⟨(h.idle n r hr').1, fun hset => (h.idle n r hr').2 (hpc r hset).1⟩
  · intro n
    rw [hqueue]
    split
    · exact nodup_append.mpr ⟨h.nodup n, nodup_singleton q, by
        intro r hr r' hr' heq
        rw [mem_singleton.mp hr'] at heq
        exact hnot n (heq ▸ hr)⟩
    · exact h.nodup n

variable {n : ℕ} {qs : List SessionPtr}

theorem Spare.pop (h : Spare s) (hhead : s.obj.sessionQ n = q :: qs)
    (hqueue : t.obj.sessionQ = Function.update s.obj.sessionQ n qs)
    (hhandle : ∀ r, (t.obj.session r).sessionHandleQ = (s.obj.session r).sessionHandleQ)
    (hencoding : ∀ r, (t.obj.session r).encoding = (s.obj.session r).encoding)
    (hpc : t.pc = .waiting) :
    Spare t ∧ (∀ k, q ∉ t.obj.sessionQ k) ∧ (t.obj.session q).encoding = false := by
  have hmem : ∀ k r, r ∈ t.obj.sessionQ k → r ∈ s.obj.sessionQ k := by
    intro k r hr
    rw [hqueue] at hr
    by_cases hk : k = n
    · rw [hk, update_self] at hr
      rw [hk, hhead]
      exact mem_cons_of_mem q hr
    · rw [update_of_ne hk] at hr
      exact hr
  have hq : q ∈ s.obj.sessionQ n := by
    rw [hhead]
    exact mem_cons_self
  have hnodup : (q :: qs).Nodup := hhead ▸ h.nodup n
  refine ⟨⟨?_, ?_, ?_⟩, ?_, ?_⟩
  · intro k r hr
    rw [hhandle]
    exact h.own k r (hmem k r hr)
  · intro k r hr
    rw [hencoding, hpc]
    exact ⟨(h.idle k r (hmem k r hr)).1, by simp⟩
  · intro k
    rw [hqueue]
    by_cases hk : k = n
    · rw [hk, update_self]
      exact (nodup_cons.mp hnodup).2
    · rw [update_of_ne hk]
      exact h.nodup k
  · intro k hk
    obtain rfl := some.inj ((h.own n q hq).symm.trans (h.own k q (hmem k q hk)))
    rw [hqueue, update_self] at hk
    exact (nodup_cons.mp hnodup).1 hk
  · rw [hencoding]
    exact (h.idle n q hq).1

theorem Spare.free (h : Spare s) (p : SessionPtr) : Spare (s.freeQueues p) := by
  have hmem : ∀ k r, r ∈ (s.freeQueues p).obj.sessionQ k → r ≠ p ∧ r ∈ s.obj.sessionQ k := by
    intro k r hr
    rw [freeQueues_sessionQ] at hr
    split at hr
    case isTrue => exact absurd hr (by simp)
    case isFalse hk =>
      refine ⟨?_, hr⟩
      rintro rfl
      exact hk (h.own k r hr)
  have hsame : ∀ r, r ≠ p → (s.freeQueues p).obj.session r = s.obj.session r := by
    intro r hr
    rw [freeQueues_session, update_of_ne hr]
  have hpc : (s.freeQueues p).pc = s.pc := by
    obtain ⟨f, g, heq⟩ := s.freeQueues_frame p
    rw [heq]
  refine ⟨?_, ?_, ?_⟩
  · intro k r hr
    obtain ⟨hrp, hr⟩ := hmem k r hr
    rw [hsame r hrp]
    exact h.own k r hr
  · intro k r hr
    obtain ⟨hrp, hr⟩ := hmem k r hr
    rw [hsame r hrp, hpc]
    exact h.idle k r hr
  · intro k
    rw [freeQueues_sessionQ]
    split
    · exact nodup_nil
    · exact h.nodup k

/-! ### The steps -/

/-- What calls nobody and gives no session a job: writes to other fields, jobs that are dropped, jobs
that are aborted, and reports on a job that was called back or aborted. -/
theorem Once.congr (h : Once s) (hspare : Spare t)
    (hencoding : ∀ r, (t.obj.session r).encoding = (s.obj.session r).encoding)
    (habort : ∀ r, (s.obj.session r).encoding = true →
      (t.obj.session r).abortState ≠ .none → (s.obj.session r).abortState ≠ .none ∨ (s.obj.session r).jobId ∈ t.aborted)
    (hsetup : ∀ r, s.pc = .setup r → (s.obj.session r).abortState = .none → (t.obj.session r).abortState = .none)
    (hid : ∀ r, (t.obj.session r).jobId = (s.obj.session r).jobId)
    (hcb : ∀ r, (t.obj.session r).params = (s.obj.session r).params)
    (hjobs : t.jobQueue.Sublist s.jobQueue) (haccepted : t.accepted = s.accepted)
    (hcallbacks : t.callbacks = s.callbacks) (haborted : ∀ k ∈ s.aborted, k ∈ t.aborted)
    (hreported : ∀ k ∈ t.reported, k ∈ s.reported ∨ ∃ r, k = (s.obj.session r).jobId ∧
      (k ∈ s.accepted → k ∈ s.aborted ∨ s.callbacks.count k = 1))
    (hpc : ∀ r, t.pc = .setup r ↔ s.pc = .setup r) : Once t := by
  refine ⟨hspare, ⟨?_, ?_, ?_⟩, ⟨?_, ?_, ?_, ?_, ?_, ?_⟩, ?_, ?_, ?_, ?_, ?_, ?_⟩
  · exact h.distinct.sublist (hjobs.map _)
  · intro node hnode
    rw [haccepted]
    exact h.accepted node (hjobs.subset hnode)
  · intro node hnode
    obtain ⟨hcalled, hrep, hother⟩ := h.unseen node (hjobs.subset hnode)
    refine ⟨hcallbacks ▸ hcalled, ?_, fun r => hid r ▸ hother r⟩
    intro hmem
    rcases hreported _ hmem with hmem | ⟨r, hr, -⟩
    · exact hrep hmem
    · exact hother r hr.symm
  · intro r hr
    rw [hencoding] at hr
    rw [hid, haccepted, hcallbacks]
    exact h.encoding r hr
  · intro r hr
    rw [hpc] at hr
    obtain ⟨henc, hnone, hk⟩ := h.setup r hr
    rw [hencoding, hid, haccepted, hcallbacks]
    exact ⟨henc, hsetup r hr hnone, hk⟩
  · intro r hr
    rw [hid, haccepted] at hr
    rw [hencoding, hid, hcallbacks, hpc]
    exact h.called r hr
  · intro r henc hr
    rw [hencoding] at henc
    rw [hid]
    rcases habort r henc hr with hr | hr
    · exact haborted _ (h.aborted r henc hr)
    · exact hr
  · intro r r' hrr' hr
    rw [hid, hid] at hrr'
    rw [hid, haccepted] at hr
    exact h.carried r r' hrr' hr
  · intro r
    rw [hid, haccepted]
    exact h.given r
  · intro r
    rw [hcb]
    exact h.jpegCb r
  · rw [hcallbacks, haccepted]
    exact h.known
  · intro k hk
    rw [haccepted]
    rcases hreported k hk with hk | ⟨r, rfl, -⟩
    · exact h.heard k hk
    · exact h.given r
  · rw [haccepted]
    exact h.nonzero
  · rw [hcallbacks]
    exact h.atMost
  · intro k hk hacc
    rw [haccepted] at hacc
    rw [hcallbacks]
    rcases hreported k hk with hk | ⟨r, -, hk⟩
    · exact (h.reported k hk hacc).imp (haborted k) id
    · exact (hk hacc).imp (haborted k) id

section Report

variable (hid : ∀ r, (t.obj.session r).jobId = (s.obj.session r).jobId)
  (haccepted : t.accepted = s.accepted)
  (hcallbacks : t.callbacks = s.callbacks ++ [(s.obj.session q).jobId])

include hcallbacks

theorem count_called (hcalled : (s.obj.session q).jobId ∉ s.callbacks) :
    t.callbacks.count (s.obj.session q).jobId = 1 := by
  rw [hcallbacks, count_append, count_eq_zero_of_not_mem hcalled, count_singleton_self]

theorem count_of_ne {k : ℕ} (hk : k ≠ (s.obj.session q).jobId) : t.callbacks.count k = s.callbacks.count k := by
  rw [hcallbacks, count_append, count_singleton, if_neg (by simpa using hk.symm), Nat.add_zero]

theorem not_called_of_ne {k : ℕ} (hk : k ≠ (s.obj.session q).jobId) (hnot : k ∉ s.callbacks) : k ∉ t.callbacks := by
  rw [hcallbacks, mem_append, mem_singleton]
  exact fun hor => hor.elim hnot hk

include hid haccepted

/-- The jobs still to do are not the one that is called back. -/
theorem Waiting.report (h : Waiting s) (hjobs : t.jobQueue = s.jobQueue)
    (hreported : ∀ k ∈ t.reported, k ∈ s.reported ∨ k = (s.obj.session q).jobId) : Waiting t := by
  refine ⟨?_, ?_, ?_⟩
  · rw [hjobs]
    exact h.distinct
  · rw [hjobs, haccepted]
    exact h.accepted
  · intro node hnode
    rw [hjobs] at hnode
    obtain ⟨hcall, hrep, hne⟩ := h.unseen node hnode
    refine ⟨not_called_of_ne hcallbacks (hne q).symm hcall, ?_, fun r => hid r ▸ hne r⟩
    intro hin
    rcases hreported _ hin with hin | hin
    · exact hrep hin
    · exact hne q hin.symm

/-- The session that is done has its callback, the others stand where they stood. -/
theorem Standing.report (h : Standing s) (hcalled : (s.obj.session q).jobId ∉ s.callbacks)
    (hdone : (t.obj.session q).encoding = false)
    (hencoding : ∀ r, r ≠ q → (t.obj.session r).encoding = (s.obj.session r).encoding)
    (habort : ∀ r, (t.obj.session r).abortState = (s.obj.session r).abortState)
    (haborted : t.aborted = s.aborted)
    (hpc : ∀ r, t.pc = .setup r ↔ s.pc = .setup r ∧ r ≠ q) : Standing t := by
  have hother : ∀ r, r ≠ q → (s.obj.session r).jobId ∈ s.accepted → (s.obj.session r).jobId ≠ (s.obj.session q).jobId :=
    fun r hr hmem heq => hr (h.carried r q heq hmem)
  have hbusy : ∀ r, (t.obj.session r).encoding = true → r ≠ q := by
    rintro r hr rfl
    rw [hdone] at hr
    exact absurd hr (by simp)
  refine ⟨?_, ?_, ?_, ?_, ?_, ?_⟩
  · intro r hr
    have hrq := hbusy r hr
    rw [hencoding r hrq] at hr
    obtain ⟨hr, hr'⟩ := h.encoding r hr
    rw [hid, haccepted]
    exact ⟨hr, not_called_of_ne hcallbacks (hother r hrq hr) hr'⟩
  · intro r hr
    obtain ⟨hset, hrq⟩ := (hpc r).mp hr
    obtain ⟨henc, hnone, hr, hr'⟩ := h.setup r hset
    rw [hencoding r hrq, habort, hid, haccepted]
    exact ⟨henc, hnone, hr, not_called_of_ne hcallbacks (hother r hrq hr) hr'⟩
  · intro r hr
    rw [hid, haccepted] at hr
    rw [hid]
    by_cases hrq : r = q
    · rw [hrq]
      exact .inr (.inr (count_called hcallbacks hcalled))
    · rw [hencoding r hrq, count_of_ne hcallbacks (hother r hrq hr)]
      rcases h.called r hr with henc | hset | hone
      · exact .inl henc
      · exact .inr (.inl ((hpc r).mpr ⟨hset, hrq⟩))
      · exact .inr (.inr hone)
  · intro r henc hr
    rw [hencoding r (hbusy r henc)] at henc
    rw [habort] at hr
    rw [hid, haborted]
    exact h.aborted r henc hr
  · intro r r' heq hr
    rw [hid, hid] at heq
    rw [hid, haccepted] at hr
    exact h.carried r r' heq hr
  · intro r
    rw [hid, haccepted]
    exact h.given r

/-- The session at work is done, and its job is called back. -/
theorem Once.report (h : Once s) (hwork : (s.obj.session q).encoding = true ∨ s.pc = .setup q)
    (hqueue : ∀ n, t.obj.sessionQ n = if (s.obj.session q).sessionHandleQ = some n then
      s.obj.sessionQ n ++ [q] else s.obj.sessionQ n)
    (hhandle : ∀ r, (t.obj.session r).sessionHandleQ = (s.obj.session r).sessionHandleQ)
    (hdone : (t.obj.session q).encoding = false)
    (hencoding : ∀ r, r ≠ q → (t.obj.session r).encoding = (s.obj.session r).encoding)
    (habort : ∀ r, (t.obj.session r).abortState = (s.obj.session r).abortState)
    (hcb : ∀ r, (t.obj.session r).params = (s.obj.session r).params)
    (hjobs : t.jobQueue = s.jobQueue) (haborted : t.aborted = s.aborted)
    (hreported : ∀ k ∈ t.reported, k ∈ s.reported ∨ k = (s.obj.session q).jobId)
    (hpc : ∀ r, t.pc = .setup r ↔ s.pc = .setup r ∧ r ≠ q) : Once t := by
  obtain ⟨hacc, hcalled⟩ := h.uncalled hwork
  have hcount := count_called hcallbacks hcalled
  have hspare : Spare t := h.toSpare.queue (h.not_queued hwork) hqueue hhandle hdone hencoding fun r hr => (hpc r).mp hr
  refine ⟨hspare, h.toWaiting.report hid haccepted hcallbacks hjobs hreported,
    h.toStanding.report hid haccepted hcallbacks hcalled hdone hencoding habort haborted hpc,
    ?_, ?_, ?_, ?_, ?_, ?_⟩
  · intro r
    rw [hcb]
    exact h.jpegCb r
  · intro k hk
    rw [hcallbacks] at hk
    rw [haccepted]
    rcases mem_append.mp hk with hk | hk
    · exact h.known k hk
    · rw [mem_singleton.mp hk]
      exact hacc
  · intro k hk
    rw [haccepted]
    rcases hreported k hk with hk | rfl
    · exact h.heard k hk
    · exact h.given q
  · rw [haccepted]
    exact h.nonzero
  · intro k
    by_cases hk : k = (s.obj.session q).jobId
    · rw [hk, hcount]
    · rw [count_of_ne hcallbacks hk]
      exact h.atMost k
  · intro k hk hkacc
    rw [haccepted] at hkacc
    rw [haborted]
    by_cases hkq : k = (s.obj.session q).jobId
    · rw [hkq, hcount]
      exact .inr rfl
    · rw [count_of_ne hcallbacks hkq]
      rcases hreported k hk with hk | hk
      · exact h.reported k hk hkacc
      · exact absurd hk hkq

end Report

theorem Once.requeue (h : Once s) (hpc : s.pc = .waiting) (hnot : ∀ n, q ∉ s.obj.sessionQ n)
    (hidle : (s.obj.session q).encoding = false) : Once (s.encodeError q false) := by
  have hsame : ∀ r, ((s.obj.jobDone q).session r).encoding = (s.obj.session r).encoding := by
    rw [jobDone_session]
    exact update_field (·.encoding) hidle.symm
  have hspare : Spare (s.encodeError q false) := by
    refine h.toSpare.queue hnot (jobDone_sessionQ s.obj q) (jobDone_field (·.sessionHandleQ) (fun _ => rfl) s.obj q) ?_
      (fun r _ => hsame r) fun r hr => absurd hr (by simp [encodeError])
    exact (hsame q).trans hidle
  refine h.congr hspare hsame ?_ ?_ (jobDone_field (·.jobId) (fun _ => rfl) s.obj q)
    (jobDone_field (·.params) (fun _ => rfl) s.obj q) (.refl _) rfl rfl
    (fun _ hk => hk) (fun _ hk => .inl hk) ?_
  · intro r _ hr
    left
    rwa [← jobDone_field (·.abortState) (fun _ => rfl) s.obj q]
  · intro r hr
    rw [hpc] at hr
    exact absurd hr (by simp)
  · intro r
    rw [hpc]
    simp [encodeError]

theorem Spare.write (h : Spare s) (hnot : ∀ n, q ∉ s.obj.sessionQ n) (hqueue : t.obj.sessionQ = s.obj.sessionQ)
    (hother : ∀ r, r ≠ q → t.obj.session r = s.obj.session r)
    (hset : ∀ r, t.pc = .setup r → r = q) : Spare t := by
  have hne : ∀ n, ∀ r ∈ t.obj.sessionQ n, r ≠ q := by
    rintro n r hr rfl
    rw [hqueue] at hr
    exact hnot n hr
  refine ⟨?_, ?_, ?_⟩
  · intro n r hr
    rw [hother r (hne n r hr)]
    rw [hqueue] at hr
    exact h.own n r hr
  · intro n r hr
    have hrq := hne n r hr
    rw [hother r hrq]
    rw [hqueue] at hr
    exact ⟨(h.idle n r hr).1, fun hsetup => hrq (hset r hsetup)⟩
  · rw [hqueue]
    exact h.nodup

/-- A free session gets a job that nobody has heard of; no other session is in its set-up. -/
theorem Standing.begin {k : ℕ} (h : Standing s) (hpc : s.pc = .waiting)
    (hother : ∀ r, r ≠ q → t.obj.session r = s.obj.session r)
    (hset : ∀ r, t.pc = .setup r ↔ r = q) (haccepted : t.accepted = s.accepted)
    (hcallbacks : t.callbacks = s.callbacks) (haborted : t.aborted = s.aborted)
    (hid : (t.obj.session q).jobId = k) (hencoding : (t.obj.session q).encoding = false)
    (habort : (t.obj.session q).abortState = .none) (hk : k ∈ s.accepted) (hcalled : k ∉ s.callbacks)
    (hunseen : ∀ r, (s.obj.session r).jobId ≠ k) : Standing t := by
  have hbusy : ∀ r, (t.obj.session r).encoding = true → r ≠ q := by
    rintro r hr rfl
    rw [hencoding] at hr
    exact absurd hr (by simp)
  refine ⟨?_, ?_, ?_, ?_, ?_, ?_⟩
  · intro r hr
    have hrq := hbusy r hr
    rw [hother r hrq] at hr ⊢
    rw [haccepted, hcallbacks]
    exact h.encoding r hr
  · intro r hr
    obtain rfl := (hset r).mp hr
    rw [hid, haccepted, hcallbacks]
    exact ⟨hencoding, habort, hk, hcalled⟩
  · intro r hr
    by_cases hrq : r = q
    · exact .inr (.inl ((hset r).mpr hrq))
    · rw [hother r hrq, haccepted] at hr
      rw [hother r hrq, hcallbacks]
      rcases h.called r hr with henc | hsetup | hone
      · exact .inl henc
      · rw [hpc] at hsetup
        exact absurd hsetup (by simp)
      · exact .inr (.inr hone)
  · intro r henc hr
    have hrq := hbusy r henc
    rw [hother r hrq] at henc hr ⊢
    rw [haborted]
    exact h.aborted r henc hr
  · intro r r' heq hr
    by_cases hrq : r = q
    · by_cases hrq' : r' = q
      · rw [hrq, hrq']
      · rw [hrq, hid, hother r' hrq'] at heq
        exact absurd heq.symm (hunseen r')
    · by_cases hrq' : r' = q
      · rw [hrq', hid, hother r hrq] at heq
        exact absurd heq (hunseen r)
      · rw [hother r hrq, haccepted] at hr
        rw [hother r hrq, hother r' hrq'] at heq
        exact h.carried r r' heq hr
  · intro r
    rw [haccepted]
    by_cases hrq : r = q
    · rw [hrq, hid]
      exact .inr hk
    · rw [hother r hrq]
      exact h.given r

theorem Once.begin {node : JobNode} (h : Once s) (hpc : s.pc = .waiting)
    (hnot : ∀ n, q ∉ s.obj.sessionQ n) (haccepted : node.jobId ∈ s.accepted)
    (hcalled : node.jobId ∉ s.callbacks) (hunseen : ∀ r, (s.obj.session r).jobId ≠ node.jobId)
    (hqueue : node.jobId ∉ s.jobQueue.map (·.jobId)) : Once (s.processWith node q true) := by
  set t := s.processWith node q true with ht
  have hself : t.obj.session q = { s.obj.session q with
      encodeJob := node.encodeJob
      jobId := node.jobId
      abortState := .none
      encoding := false } := update_self ..
  have hother : ∀ r, r ≠ q → t.obj.session r = s.obj.session r :=
    fun r hr => update_of_ne hr ..
  have hset : ∀ r, t.pc = .setup r ↔ r = q := by
    intro r
    rw [show t.pc = .setup q from rfl, Pc.setup.injEq]
    exact eq_comm
  have hstanding : Standing t :=
    h.toStanding.begin hpc hother hset rfl rfl rfl (by rw [hself]) (by rw [hself]) (by rw [hself])
      haccepted hcalled hunseen
  refine ⟨h.toSpare.write hnot rfl hother fun r => (hset r).mp, ⟨h.distinct, h.accepted, ?_⟩,
    hstanding, ?_, h.known, h.heard, h.nonzero, h.atMost, h.reported⟩
  · intro node' hnode'
    obtain ⟨hcall, hrep, hne⟩ := h.unseen node' hnode'
    refine ⟨hcall, hrep, fun r => ?_⟩
    by_cases hrq : r = q
    · rw [hrq, hself]
      intro heq
      exact hqueue (mem_map.mpr ⟨node', hnode', heq.symm⟩)
    · rw [hother r hrq]
      exact hne r
  · intro r
    by_cases hrq : r = q
    · rw [hrq, hself]
      exact h.jpegCb q
    · rw [hother r hrq]
      exact h.jpegCb r

/-- The set-up is over, and the session encodes. -/
theorem Once.encode (h : Once s) (hpc : s.pc = .setup q) :
    Once { s.setSession q { s.obj.session q with encoding := true } with pc := .emptying q } := by
  set t : JobState :=
    { s.setSession q { s.obj.session q with encoding := true } with pc := .emptying q } with ht
  obtain ⟨-, hnone, hacc, hcalled⟩ := h.setup q hpc
  have hself : t.obj.session q = { s.obj.session q with encoding := true } :=
    update_self ..
  have hother : ∀ r, r ≠ q → t.obj.session r = s.obj.session r :=
    fun r hr => update_of_ne hr ..
  have hset : ∀ r, t.pc ≠ .setup r := by simp [ht]
  have hid : ∀ r, (t.obj.session r).jobId = (s.obj.session r).jobId := update_field (·.jobId) rfl
  have hcb : ∀ r, (t.obj.session r).params = (s.obj.session r).params :=
    update_field (·.params) rfl
  have hspare : Spare t :=
    h.toSpare.write (h.not_queued (.inr hpc)) rfl hother fun r hr => absurd hr (hset r)
  refine ⟨hspare, ⟨h.distinct, h.accepted, ?_⟩, ⟨?_, ?_, ?_, ?_, ?_, ?_⟩, ?_, h.known,
    h.heard, h.nonzero, h.atMost, h.reported⟩
  · intro node hnode
    obtain ⟨hcall, hrep, hne⟩ := h.unseen node hnode
    exact ⟨hcall, hrep, fun r => hid r ▸ hne r⟩
  · intro r hr
    rw [hid]
    by_cases hrq : r = q
    · rw [hrq]
      exact ⟨hacc, hcalled⟩
    · rw [hother r hrq] at hr
      exact h.encoding r hr
  · intro r hr
    exact absurd hr (hset r)
  · intro r hr
    rw [hid] at hr ⊢
    by_cases hrq : r = q
    · rw [hrq, hself]
      exact .inl rfl
    · rw [hother r hrq]
      rcases h.called r hr with henc | hsetup | hone
      · exact .inl henc
      · rw [hpc] at hsetup
        exact absurd (Pc.setup.inj hsetup).symm hrq
      · exact .inr (.inr hone)
  · intro r henc hr
    rw [hid]
    by_cases hrq : r = q
    · rw [hrq, hself] at hr
      exact absurd hnone hr
    · rw [hother r hrq] at henc hr
      exact h.aborted r henc hr
  · intro r r' heq hr
    rw [hid, hid] at heq
    rw [hid] at hr
    exact h.carried r r' heq hr
  · intro r
    rw [hid]
    exact h.given r
  · intro r
    rw [hcb]
    exact h.jpegCb r

/-! ### Taking a job -/

/-- What dequeuing a job, a session and an output buffer changes. -/
def Popped (s : JobState) (rest : List JobNode) (n : ℕ) (qs : List SessionPtr) (u : JobState) :
    Prop :=
  ∃ f g, u = { s with
    jobQueue := rest
    obj := { s.obj with
      sessionQ := Function.update s.obj.sessionQ n qs
      outBufQ := f
      session := g } } ∧ ∀ r, ∃ b, g r = { s.obj.session r with autoOutBuf := b }

/-- A free session is dequeued for a job. -/
theorem Popped.session (s : JobState) (rest : List JobNode) (n : ℕ) (q : SessionPtr) (qs : List SessionPtr) :
    Popped s rest n qs ({ s with jobQueue := rest }.popSession n q qs) := by
  refine ⟨_, _, rfl, fun r => ?_⟩
  by_cases hr : r = q
  · rw [hr, update_self]
    exact ⟨_, rfl⟩
  · rw [update_of_ne hr]
    exact ⟨_, rfl⟩

variable {rest : List JobNode} {u : JobState}

theorem Popped.buffer (h : Popped s rest n qs u) (q : SessionPtr) (m : ℕ) (bs : List ℕ) :
    Popped s rest n qs (u.popBuffer q m bs) := by
  obtain ⟨f, g, rfl, hg⟩ := h
  refine ⟨_, _, rfl, fun r => ?_⟩
  by_cases hr : r = q
  · obtain ⟨b, hb⟩ := hg q
    rw [hr, update_self]
    refine ⟨true, ?_⟩
    change { g q with autoOutBuf := true } = _
    rw [hb]
  · rw [update_of_ne hr]
    exact hg r

theorem Popped.outBufQ (h : Popped s rest n qs u) (f : ℕ → List ℕ) :
    Popped s rest n qs { u with obj := { u.obj with outBufQ := f } } := by
  obtain ⟨_, g, rfl, hg⟩ := h
  exact ⟨f, g, rfl, hg⟩

section

variable {rest : List JobNode} {n : ℕ} {qs : List SessionPtr} {u : JobState}

theorem Popped.field {β : Type*} (h : Popped s rest n qs u) (f : JobSession → β)
    (hf : ∀ (sess : JobSession) b, f { sess with autoOutBuf := b } = f sess) (r : SessionPtr) :
    f (u.obj.session r) = f (s.obj.session r) := by
  obtain ⟨_, g, rfl, hg⟩ := h
  obtain ⟨b, hb⟩ := hg r
  exact (congrArg f hb).trans (hf _ b)

theorem Popped.sub {k : ℕ} {r : SessionPtr} (h : Popped s rest n qs u)
    (hhead : s.obj.sessionQ n = q :: qs) (hr : r ∈ u.obj.sessionQ k) : r ∈ s.obj.sessionQ k := by
  obtain ⟨_, g, rfl, _⟩ := h
  change r ∈ update s.obj.sessionQ n qs k at hr
  by_cases hk : k = n
  · rw [hk, update_self] at hr
    rw [hk, hhead]
    exact mem_cons_of_mem q hr
  · rwa [update_of_ne hk] at hr

theorem Popped.jobQueue (h : Popped s rest n qs u) : u.jobQueue = rest := by
  obtain ⟨_, _, rfl, _⟩ := h
  rfl

theorem Popped.ongoing (h : Popped s rest n qs u) : u.ongoing = s.ongoing := by
  obtain ⟨_, _, rfl, _⟩ := h
  rfl

theorem Popped.jobSem (h : Popped s rest n qs u) : u.jobSem = s.jobSem := by
  obtain ⟨_, _, rfl, _⟩ := h
  rfl

end

/-- What the job manager does with a token: without a free session it drops the job or leaves it;
else it dequeues the job and a session, and loses both without an output buffer, or processes the
job. -/
theorem take_outcomes {enqueued : Bool} (ht : s.take enqueued = some t) : s.pc = .ready ∧
    ((∃ jobs, jobs.Sublist s.jobQueue ∧ t = { s with jobQueue := jobs, pc := .waiting } ∧
        ∀ node ∈ s.jobQueue.head?, s.nextSession node = none) ∨
      ∃ node rest p n q qs u, s.jobQueue = node :: rest ∧ getSession node.jobId = some p ∧
        (s.obj.session p).sessionHandleQ = some n ∧ s.obj.sessionQ n = q :: qs ∧
        Popped s rest n qs u ∧ ((t = { u with pc := .waiting } ∧ node.encodeJob.dstIndex < 0 ∧
              ∀ b ∈ s.nextOutBuf q, b = 0) ∨
            ∃ node', node'.jobId = node.jobId ∧ node'.encodeJob.sessionId = node.encodeJob.sessionId ∧
              t = u.processWith node' q enqueued)) := by
  rw [take] at ht
  split at ht
  case isFalse => exact absurd ht (by simp)
  case isTrue hready =>
    refine ⟨hready, ?_⟩
    cases hqueue : s.jobQueue with
    | nil =>
      rw [hqueue] at ht
      cases ht
      exact .inl ⟨[], .refl _, by rw [← hqueue], by simp⟩
    | cons node rest =>
      rw [hqueue] at ht
      simp only [processEncodingJob] at ht
      cases hp : getSession node.jobId with
      | none =>
        rw [hp] at ht
        cases ht
        exact .inl ⟨rest, sublist_cons_self .., rfl, by simp [nextSession, hp]⟩
      | some p =>
        rw [hp] at ht
        cases hn : (s.obj.session p).sessionHandleQ with
        | none =>
          simp only [hn] at ht
          exact absurd ht (by simp)
        | some n =>
          simp only [hn] at ht
          cases hq : s.obj.sessionQ n with
          | nil =>
            simp only [hq] at ht
            cases ht
            exact .inl ⟨node :: rest, .refl _, rfl, by simp [nextSession, hp, hn, hq]⟩
          | cons q qs =>
            simp only [hq, takeBuffer] at ht
            refine .inr ⟨node, rest, p, n, q, qs, ?_⟩
            rw [exists_congr fun u => and_iff_right rfl, exists_congr fun u => and_iff_right hp,
              exists_congr fun u => and_iff_right hn, exists_congr fun u => and_iff_right hq]
            have hpop := Popped.session s rest n q qs
            have hout : (({ s with jobQueue := rest }.popSession n q qs).obj.session q).outBufQ =
                (s.obj.session q).outBufQ :=
              popSession_field (·.outBufQ) (fun _ => rfl) { s with jobQueue := rest } n q qs q
            split at ht
            case isFalse =>
              cases ht
              exact ⟨_, hpop, .inr ⟨node, rfl, rfl, rfl⟩⟩
            case isTrue hdst =>
              split at ht
              case h_1 => exact absurd ht (by simp)
              case h_2 m hm =>
                rw [hout] at hm
                split at ht
                case h_1 hbufs =>
                  cases ht
                  refine ⟨_, hpop, .inl ⟨rfl, hdst, fun b hb => ?_⟩⟩
                  have hnil : s.obj.outBufQ m = [] := hbufs
                  simp [nextOutBuf, hm, hnil] at hb
                case h_2 bs hbufs =>
                  cases ht
                  refine ⟨_, hpop.outBufQ _, .inl ⟨rfl, hdst, fun b hb => ?_⟩⟩
                  have hcons : s.obj.outBufQ m = 0 :: bs := hbufs
                  simp only [nextOutBuf, hm, bind_some, hcons, head?_cons] at hb
                  exact (some.inj hb).symm
                case h_3 b bs _ =>
                  cases ht
                  exact ⟨_, hpop.buffer q m bs, .inr
                    ⟨{ node with encodeJob := { node.encodeJob with dstIndex := b } }, rfl, rfl,
                      rfl⟩⟩

theorem Once.pop {node : JobNode} (h : Once s) (hpc : s.pc = .ready) (hqueue : s.jobQueue = node :: rest)
    (hhead : s.obj.sessionQ n = q :: qs) (hpop : Popped s rest n qs u) :
    Once { u with pc := .waiting } ∧ (∀ k, q ∉ u.obj.sessionQ k) ∧ (u.obj.session q).encoding = false := by
  obtain ⟨f, g, rfl, hg⟩ := hpop
  have hfield : ∀ {β : Type} (fld : JobSession → β),
      (∀ (sess : JobSession) b, fld { sess with autoOutBuf := b } = fld sess) →
      ∀ r, fld (g r) = fld (s.obj.session r) := by
    intro β fld hfld r
    obtain ⟨b, hb⟩ := hg r
    rw [hb, hfld]
  set u : JobState := { s with
    jobQueue := rest
    obj := { s.obj with
      sessionQ := update s.obj.sessionQ n qs
      outBufQ := f
      session := g } } with hu
  have hspare : Spare { u with pc := .waiting } ∧ (∀ k, q ∉ u.obj.sessionQ k) ∧ (u.obj.session q).encoding = false :=
    h.toSpare.pop hhead rfl (hfield (·.sessionHandleQ) fun _ _ => rfl) (hfield (·.encoding) fun _ _ => rfl) rfl
  obtain ⟨hspare, hnot, hidle⟩ := hspare
  refine ⟨h.congr hspare (hfield (·.encoding) fun _ _ => rfl) ?_ ?_
    (hfield (·.jobId) fun _ _ => rfl) (hfield (·.params) fun _ _ => rfl) ?_ rfl rfl
    (fun _ hk => hk) (fun _ hk => .inl hk) ?_, hnot, hidle⟩
  · intro r _ hr
    left
    rwa [← hfield (·.abortState) fun _ _ => rfl]
  · intro r hr
    rw [hpc] at hr
    exact absurd hr (by simp)
  · rw [hqueue]
    exact sublist_cons_self ..
  · intro r
    rw [hpc]
    simp

theorem Once.take {enqueued : Bool} (h : Once s) (ht : s.take enqueued = some t) : Once t := by
  obtain ⟨hpc, ⟨jobs, hjobs, rfl, -⟩ |
    ⟨node, rest, -, n, q, qs, u, hqueue, -, -, hhead, hpop, hcase⟩⟩ := take_outcomes ht
  · have hspare : Spare { s with jobQueue := jobs, pc := .waiting } :=
      h.toSpare.congr rfl (fun _ => rfl) (fun _ => rfl) (by simp)
    refine h.congr hspare (fun _ => rfl) (fun _ _ hr => .inl hr) ?_ (fun _ => rfl)
      (fun _ => rfl) hjobs rfl rfl (fun _ hk => hk) (fun _ hk => .inl hk) ?_
    · intro r hr
      rw [hpc] at hr
      exact absurd hr (by simp)
    · intro r
      rw [hpc]
      simp
  · obtain ⟨hu, hnot, hidle⟩ := h.pop hpc hqueue hhead hpop
    rcases hcase with ⟨rfl, -⟩ | ⟨node', hid, -, rfl⟩
    · exact hu
    · cases enqueued with
      | false => exact hu.requeue rfl hnot hidle
      | true =>
        have hmem : node ∈ s.jobQueue := by
          rw [hqueue]
          exact mem_cons_self
        obtain ⟨f, g, rfl, hg⟩ := hpop
        have hdistinct := h.distinct
        rw [hqueue, map_cons, nodup_cons] at hdistinct
        obtain ⟨hcalled, -, hother⟩ := h.unseen node hmem
        refine hu.begin rfl hnot ?_ ?_ ?_ ?_
        · rw [hid]
          exact h.accepted node hmem
        · rw [hid]
          exact hcalled
        · intro r
          obtain ⟨b, hb⟩ := hg r
          rw [hid]
          change (g r).jobId ≠ _
          rw [hb]
          exact hother r
        · rw [hid]
          exact hdistinct.1

theorem startJob_outcomes (s : JobState) (job : EncodeJob) (calls : StartCalls) :
    s.startJob job calls = s ∨ ∃ p ∈ getSession job.sessionId, ∃ u : JobState,
      u = s.setSession p { s.obj.session p with jobHist := (s.obj.session p).jobHist + 1 } ∧
        (s.startJob job calls = u ∨ s.startJob job calls = { u with
          jobQueue := s.jobQueue ++ [{ jobId := s.nextJobId p job.sessionId, encodeJob := job }]
          jobSem := s.jobSem + 1
          accepted := s.accepted ++ [s.nextJobId p job.sessionId] }) := by
  rw [startJob]
  cases hp : getSession job.sessionId with
  | none => exact .inl rfl
  | some p =>
    simp only
    split
    · exact .inl rfl
    · split
      · exact .inr ⟨p, rfl, _, rfl, .inl rfl⟩
      · exact .inr ⟨p, rfl, _, rfl, .inr rfl⟩

theorem Once.setSession {sess : JobSession} (h : Once s)
    (hhandle : sess.sessionHandleQ = (s.obj.session q).sessionHandleQ)
    (hencoding : sess.encoding = (s.obj.session q).encoding)
    (habort : sess.abortState = (s.obj.session q).abortState)
    (hid : sess.jobId = (s.obj.session q).jobId)
    (hcb : sess.params = (s.obj.session q).params) : Once (s.setSession q sess) := by
  have hspare : Spare (s.setSession q sess) :=
    h.toSpare.congr rfl (update_field (·.sessionHandleQ) hhandle) (update_field (·.encoding) hencoding) fun _ hr => hr
  have hsame : ∀ r, ((s.setSession q sess).obj.session r).abortState =
      (s.obj.session r).abortState := update_field (·.abortState) habort
  refine h.congr hspare (update_field (·.encoding) hencoding) ?_ ?_ (update_field (·.jobId) hid)
    (update_field (·.params) hcb) (.refl _) rfl rfl (fun _ hk => hk) (fun _ hk => .inl hk)
    fun _ => .rfl
  · intro r _ hr
    rw [hsame] at hr
    exact .inl hr
  · intro r _ hr
    rw [hsame]
    exact hr

theorem Once.accept {k : ℕ} {job : EncodeJob} (h : Once s) (hzero : k ≠ 0) (hnew : k ∉ s.accepted) : Once { s with
      jobQueue := s.jobQueue ++ [{ jobId := k, encodeJob := job }]
      jobSem := n
      accepted := s.accepted ++ [k] } := by
  have hgiven : ∀ q, (s.obj.session q).jobId ≠ k := by
    rintro q rfl
    exact (h.given q).elim hzero hnew
  have hold : ∀ q, (s.obj.session q).jobId ∈ s.accepted ++ [k] → (s.obj.session q).jobId ∈ s.accepted := by
    intro q hq
    exact (mem_append.mp hq).resolve_right fun hq => hgiven q (mem_singleton.mp hq)
  refine ⟨⟨h.own, h.idle, h.nodup⟩, ⟨?_, ?_, ?_⟩, ⟨?_, ?_, ?_, h.aborted, ?_, ?_⟩, h.jpegCb, ?_, ?_, ?_, h.atMost, ?_⟩
  · rw [map_append, nodup_append]
    refine ⟨h.distinct, nodup_singleton _, ?_⟩
    intro a ha b hb heq
    obtain ⟨node, hnode, rfl⟩ := mem_map.mp ha
    have hk : node.jobId = k := heq.trans (mem_singleton.mp hb)
    exact hnew (hk ▸ h.accepted node hnode)
  · intro node hnode
    rcases mem_append.mp hnode with hnode | hnode
    · exact mem_append_left _ (h.accepted node hnode)
    · rw [mem_singleton.mp hnode]
      exact mem_append_right _ (mem_singleton_self k)
  · intro node hnode
    rcases mem_append.mp hnode with hnode | hnode
    · exact h.unseen node hnode
    · rw [mem_singleton.mp hnode]
      exact ⟨fun hk => hnew (h.known k hk), fun hk => (h.heard k hk).elim hzero hnew, hgiven⟩
  · intro q hq
    exact ⟨mem_append_left _ (h.encoding q hq).1, (h.encoding q hq).2⟩
  · intro q hq
    obtain ⟨henc, hnone, hacc, hcalled⟩ := h.setup q hq
    exact ⟨henc, hnone, mem_append_left _ hacc, hcalled⟩
  · intro q hq
    exact h.called q (hold q hq)
  · intro q r heq hq
    exact h.carried q r heq (hold q hq)
  · intro q
    exact (h.given q).imp id fun hq => mem_append_left _ hq
  · intro k' hk'
    exact mem_append_left _ (h.known k' hk')
  · intro k' hk'
    exact (h.heard k' hk').imp id fun hk' => mem_append_left _ hk'
  · intro hmem
    rcases mem_append.mp hmem with hmem | hmem
    · exact h.nonzero hmem
    · exact hzero (mem_singleton.mp hmem).symm
  · intro k' hk' hacc
    rcases mem_append.mp hacc with hacc | hacc
    · exact h.reported k' hk' hacc
    · rw [mem_singleton.mp hacc] at hk'
      exact absurd (h.heard k hk') fun hor => hor.elim hzero hnew

theorem Once.startJob {job : EncodeJob} {calls : StartCalls} (h : Once s) (hnew : s.FreshId job) :
    Once (s.startJob job calls) := by
  rcases startJob_outcomes s job calls with heq | ⟨p, hp, u, hu, heq | heq⟩
  · rw [heq]
    exact h
  · rw [heq, hu]
    exact h.setSession rfl rfl rfl rfl rfl
  · obtain ⟨hzero, hnew⟩ := hnew p hp
    have hset : Once u := by
      rw [hu]
      exact h.setSession rfl rfl rfl rfl rfl
    rw [heq]
    have hjobs : u.jobQueue = s.jobQueue := by rw [hu]; rfl
    have hacc : u.accepted = s.accepted := by rw [hu]; rfl
    rw [← hjobs, ← hacc]
    exact hset.accept hzero (hacc ▸ hnew)

/-! ### Reports and failing calls -/

/-- A report on an encoding session that is not in an abort calls the client, and the job is done. -/
theorem Once.completed (h : Once s) (henc : (s.obj.session q).encoding = true) (k : ℕ) (e : ℤ) :
    Once ((({ s with reported := s.reported ++ [(s.obj.session q).jobId] }.setSession q
      { s.obj.session q with fbdCount := k, errorFlag := e }).jpegCb q).jobDone q) := by
  set u := { s with reported := s.reported ++ [(s.obj.session q).jobId] }.setSession q
    { s.obj.session q with fbdCount := k, errorFlag := e } with hu
  have hself : u.obj.session q = { s.obj.session q with fbdCount := k, errorFlag := e } :=
    update_self ..
  have hobj : ((u.jpegCb q).jobDone q).obj = u.obj.jobDone q := by
    rw [jobDone, jpegCb_obj]
  have hfield : ∀ {β : Type} (f : JobSession → β),
      (∀ (sess : JobSession) k e, f { sess with fbdCount := k, errorFlag := e } = f sess) →
      ∀ r, f (u.obj.session r) = f (s.obj.session r) :=
    fun f hf => update_field f (hf _ _ _)
  have hdone : ∀ {β : Type} (f : JobSession → β),
      (∀ (sess : JobSession) k e, f { sess with fbdCount := k, errorFlag := e } = f sess) →
      (∀ sess : JobSession, f { sess with encoding := false } = f sess) →
      ∀ r, f (((u.jpegCb q).jobDone q).obj.session r) = f (s.obj.session r) := by
    intro β f hf hf' r
    rw [hobj, jobDone_field f hf', hfield f hf]
  have hframe := u.jpegCb_frame q
  refine h.report (hdone (·.jobId) (fun _ _ _ => rfl) fun _ => rfl) ?_ ?_ (.inl henc) ?_
    (hdone (·.sessionHandleQ) (fun _ _ _ => rfl) fun _ => rfl) ?_ ?_
    (hdone (·.abortState) (fun _ _ _ => rfl) fun _ => rfl)
    (hdone (·.params) (fun _ _ _ => rfl) fun _ => rfl) ?_ ?_ ?_ ?_
  · rw [jobDone, hframe]
    rfl
  · rw [jobDone, hframe, hself, h.jpegCb q]
    rfl
  · intro n
    rw [hobj, jobDone_sessionQ, hself]
    rfl
  · rw [hobj, jobDone_session, update_self]
  · intro r hr
    rw [hobj, jobDone_session, update_of_ne hr]
    exact hfield (·.encoding) (fun _ _ _ => rfl) r
  · rw [jobDone, hframe]
    rfl
  · rw [jobDone, hframe]
    rfl
  · intro i hi
    rw [jobDone, hframe] at hi
    exact (mem_append.mp hi).imp id mem_singleton.mp
  · intro r
    have hpc : ((u.jpegCb q).jobDone q).pc = s.pc := u.jpegCb_pc q
    rw [hpc]
    refine ⟨fun hset => ⟨hset, ?_⟩, And.left⟩
    rintro rfl
    rw [(h.setup r hset).1] at henc
    exact absurd henc (by simp)

theorem Once.encodeError (h : Once s) (hwork : (s.obj.session q).encoding = true ∨ s.pc = .setup q)
    (hatWork : s.atWork = some q) : Once (s.encodeError q true) := by
  have hobj := encodeError_obj s q true
  have hframe := s.jpegCb_frame q
  have hdone : ∀ {β : Type} (f : JobSession → β), (∀ sess : JobSession, f { sess with encoding := false } = f sess) →
      ∀ r, f ((s.encodeError q true).obj.session r) = f (s.obj.session r) := by
    intro β f hf r
    rw [hobj, jobDone_field f hf]
  refine h.report (hdone (·.jobId) fun _ => rfl) ?_ ?_ hwork ?_
    (hdone (·.sessionHandleQ) fun _ => rfl) ?_ ?_ (hdone (·.abortState) fun _ => rfl)
    (hdone (·.params) fun _ => rfl) ?_ ?_ ?_ ?_
  · rw [JobState.encodeError, if_pos rfl, hframe]
    rfl
  · rw [JobState.encodeError, if_pos rfl, hframe, h.jpegCb q]
    rfl
  · intro n
    rw [hobj, jobDone_sessionQ]
  · rw [hobj, jobDone_session, update_self]
  · intro r hr
    rw [hobj, jobDone_session, update_of_ne hr]
  · rw [JobState.encodeError, if_pos rfl, hframe]
    rfl
  · rw [JobState.encodeError, if_pos rfl, hframe]
    rfl
  · intro k hk
    rw [JobState.encodeError, if_pos rfl, hframe] at hk
    exact .inl hk
  · intro r
    have hpc : (s.encodeError q true).pc = .waiting := rfl
    rw [hpc]
    constructor
    · intro hset
      exact absurd hset (by simp)
    · rintro ⟨hset, hrq⟩
      rw [atWork, hset] at hatWork
      exact absurd (some.inj hatWork) hrq

/-- A report that calls nobody: the job was called back, or it was aborted. -/
theorem Once.hears (h : Once s) (hk : (s.obj.session q).jobId ∈ s.accepted →
      (s.obj.session q).jobId ∈ s.aborted ∨ s.callbacks.count (s.obj.session q).jobId = 1) :
    Once { s with reported := s.reported ++ [(s.obj.session q).jobId] } := by
  have hspare : Spare { s with reported := s.reported ++ [(s.obj.session q).jobId] } :=
    ⟨h.own, h.idle, h.nodup⟩
  refine h.congr hspare (fun _ => rfl) (fun _ _ hr => .inl hr) (fun _ _ hr => hr) (fun _ => rfl)
    (fun _ => rfl) (.refl _) rfl rfl (fun _ hi => hi) ?_ fun _ => .rfl
  intro i hi
  rcases mem_append.mp hi with hi | hi
  · exact .inl hi
  · rw [mem_singleton.mp hi]
    exact .inr ⟨q, rfl, hk⟩

theorem Once.in_abort (h : Once s) (habort : (s.obj.session q).abortState ≠ .none)
    (hacc : (s.obj.session q).jobId ∈ s.accepted) :
    (s.obj.session q).jobId ∈ s.aborted ∨ s.callbacks.count (s.obj.session q).jobId = 1 := by
  rcases h.called q hacc with henc | hset | hone
  · exact .inl (h.aborted q henc habort)
  · exact absurd (h.setup q hset).2.1 habort
  · exact .inr hone

theorem Once.aborting (h : Once s) (habort : (s.obj.session q).abortState ≠ .none)
    (a : AbortState) : Once (s.setSession q { s.obj.session q with abortState := a }) := by
  have hspare : Spare (s.setSession q { s.obj.session q with abortState := a }) :=
    h.toSpare.congr rfl (update_field (·.sessionHandleQ) rfl) (update_field (·.encoding) rfl) fun _ hr => hr
  refine h.congr hspare (update_field (·.encoding) rfl) ?_ ?_ (update_field (·.jobId) rfl)
    (update_field (·.params) rfl) (.refl _) rfl rfl (fun _ hk => hk) (fun _ hk => .inl hk)
    fun _ => .rfl
  · intro r _ hr
    by_cases hrq : r = q
    · rw [hrq]
      exact .inl habort
    · rw [setSession_session_of_ne hrq] at hr
      exact .inl hr
  · intro r _ hr
    by_cases hrq : r = q
    · rw [hrq] at hr
      exact absurd hr habort
    · rw [setSession_session_of_ne hrq]
      exact hr

/-- `mm_jpeg_fbd` on a session that is encoding or in an abort. -/
theorem Once.fbd (h : Once s) (hor : (s.obj.session q).encoding = true ∨ (s.obj.session q).abortState ≠ .none) :
    Once (s.fbd q) := by
  rw [JobState.fbd]
  simp only
  split
  case isTrue habort => exact h.hears fun hacc => h.in_abort habort hacc
  case isFalse hnone =>
    rw [if_pos]
    case hc => exact h.jpegCb q
    exact h.completed (hor.resolve_right hnone) ((s.obj.session q).fbdCount + 1) (s.obj.session q).errorFlag

theorem Once.eventError (h : Once s) (hpc : s.pc ≠ .setup q) (nData2 : ℤ) : Once (s.eventError q nData2) := by
  rw [JobState.eventError]
  simp only
  split
  case isTrue hinit =>
    have habort : (s.obj.session q).abortState ≠ .none := by
      rw [hinit]
      simp
    exact (h.hears fun hacc => h.in_abort habort hacc).aborting habort .done
  case isFalse =>
    split
    case isTrue henc => exact h.completed henc (s.obj.session q).fbdCount nData2
    case isFalse henc =>
      have hears := h.hears fun hacc =>
        .inr (((h.called q hacc).resolve_left henc).resolve_left hpc)
      exact hears.setSession rfl rfl rfl rfl rfl

/-! ### Aborts -/

theorem Once.of_obj (h : Once s) (hobj : t.obj = s.obj) (hjobs : t.jobQueue.Sublist s.jobQueue)
    (haccepted : t.accepted = s.accepted) (hcallbacks : t.callbacks = s.callbacks)
    (hreported : t.reported = s.reported) (haborted : ∀ k ∈ s.aborted, k ∈ t.aborted)
    (hpc : ∀ r, t.pc = .setup r ↔ s.pc = .setup r) : Once t := by
  have hspare : Spare t :=
    h.toSpare.congr (by rw [hobj]) (fun _ => by rw [hobj]) (fun _ => by rw [hobj]) fun r hr => (hpc r).mp hr
  refine h.congr hspare (fun _ => by rw [hobj]) ?_ ?_ (fun _ => by rw [hobj])
    (fun _ => by rw [hobj]) hjobs haccepted hcallbacks haborted ?_ hpc
  · intro r _ hr
    rw [hobj] at hr
    exact .inl hr
  · intro r _ hr
    rw [hobj]
    exact hr
  · intro k hk
    rw [hreported] at hk
    exact .inl hk

theorem Once.aborts (h : Once s) (hfree : s.lockFree) (haborts : Aborts s t) : Once t := by
  obtain ⟨g, l, rfl, hg, hl⟩ := haborts
  have hfield : ∀ {β : Type} (f : JobSession → β),
      (∀ (sess : JobSession) a p, f { sess with abortState := a, stateChangePending := p } =
        f sess) → ∀ r, f (g r) = f (s.obj.session r) := by
    intro β f hf r
    obtain ⟨a, p, hr⟩ := hg r
    rw [hr, hf]
  have hspare : Spare { s with
      obj := { s.obj with session := g }
      aborted := s.aborted ++ l } :=
    h.toSpare.congr rfl (hfield (·.sessionHandleQ) fun _ _ _ => rfl)
      (hfield (·.encoding) fun _ _ _ => rfl) fun _ hr => hr
  refine h.congr hspare (hfield (·.encoding) fun _ _ _ => rfl) ?_ ?_
    (hfield (·.jobId) fun _ _ _ => rfl) (hfield (·.params) fun _ _ _ => rfl) (.refl _) rfl rfl
    (fun _ hk => mem_append_left _ hk) (fun _ hk => .inl hk) fun _ => .rfl
  · intro r henc hr
    exact (hl r henc hr).imp id (mem_append_right _)
  · intro r hr
    rcases hfree with hfree | hfree <;> rw [hfree] at hr <;> exact absurd hr (by simp)

theorem Once.destroys (h : Once s) (hdestroys : Destroys s t) : Once t := by
  obtain ⟨g, rfl, hg⟩ := hdestroys
  have hfield : ∀ {β : Type} (f : JobSession → β), (∀ sess : JobSession,
        f { sess with active := false, config := false, omxHandle := none } = f sess) →
      ∀ r, f (g r) = f (s.obj.session r) := by
    intro β f hf r
    rcases hg r with hr | hr
    · rw [hr]
    · rw [hr, hf]
  have habort := hfield (·.abortState) fun _ => rfl
  have hspare : Spare { s with obj := { s.obj with session := g } } :=
    h.toSpare.congr rfl (hfield (·.sessionHandleQ) fun _ => rfl) (hfield (·.encoding) fun _ => rfl) fun _ hr => hr
  refine h.congr hspare (hfield (·.encoding) fun _ => rfl) ?_ ?_ (hfield (·.jobId) fun _ => rfl)
    (hfield (·.params) fun _ => rfl) (.refl _) rfl rfl (fun _ hk => hk) (fun _ hk => .inl hk)
    fun _ => .rfl
  · intro r _ hr
    exact .inl (habort r ▸ hr)
  · intro r _ hr
    exact (habort r).trans hr

theorem Once.free (h : Once s) (p : SessionPtr) : Once (s.freeQueues p) := by
  have hspare := h.toSpare.free p
  obtain ⟨f, g, heq⟩ := s.freeQueues_frame p
  rw [heq] at hspare ⊢
  have habort : ∀ r, (update s.obj.session p { s.obj.session p with
      sessionHandleQ := none, outBufQ := none } r).abortState = (s.obj.session r).abortState :=
    update_field (·.abortState) rfl
  refine h.congr hspare (update_field (·.encoding) rfl) ?_ ?_ (update_field (·.jobId) rfl)
    (update_field (·.params) rfl) (.refl _) rfl rfl (fun _ hk => hk) (fun _ hk => .inl hk)
    fun _ => .rfl
  · intro r _ hr
    exact .inl (habort r ▸ hr)
  · intro r _ hr
    exact (habort r).trans hr

theorem Once.destroySession (h : Once s) (hfree : s.lockFree) (p : SessionPtr)
    (sendOk : SessionPtr → Bool) : Once (s.destroySession p sendOk) := by
  rw [JobState.destroySession]
  set u : JobState := { s with
    jobQueue := s.jobQueue.filter fun node => !decide (node.encodeJob.sessionId = (s.obj.session p).sessionId)
    ongoing := s.ongoing.filter fun node => !decide (node.encodeJob.sessionId = (s.obj.session p).sessionId)
    aborted := s.aborted ++ ((s.jobQueue ++ s.ongoing).filter fun node =>
      decide (node.encodeJob.sessionId = (s.obj.session p).sessionId)).map (·.jobId) } with hu
  have hgone : Once u :=
    h.of_obj rfl filter_sublist rfl rfl rfl (fun _ hk => mem_append_left _ hk) fun _ => .rfl
  have habort : Once (sessionAbort sendOk mmJpegMaxSession p u) :=
    hgone.aborts hfree (.chain sendOk mmJpegMaxSession p u)
  have hdestroy := habort.destroys (.chain mmJpegMaxSession p _)
  exact (hdestroy.free p).of_obj rfl (.refl _) rfl rfl rfl (fun _ hk => hk) fun _ => .rfl

theorem Once.abortJob (h : Once s) (hfree : s.lockFree) (id : ℕ) (sendOk : SessionPtr → Bool) :
    Once (s.abortJob id sendOk) := by
  rw [JobState.abortJob]
  split
  case isTrue =>
    exact h.of_obj rfl eraseP_sublist rfl rfl rfl (fun _ hk => mem_append_left _ hk) fun _ => .rfl
  case isFalse =>
    split
    case isTrue =>
      have hgone : Once { s with
          ongoing := s.ongoing.eraseP fun node => node.jobId = id
          aborted := s.aborted ++ [id] } :=
        h.of_obj rfl (.refl _) rfl rfl rfl (fun _ hk => mem_append_left _ hk) fun _ => .rfl
      simp only
      split
      · exact hgone
      · exact hgone.aborts hfree (.chain sendOk mmJpegMaxSession _ _)
    case isFalse => exact h

/-! ### Runs -/

/-- **One step** that reports once keeps the invariant. -/
theorem Once.step {e : JobEvent} (h : Once s) (hreported : s.Reported e) (ht : s.step e = some t) : Once t := by
  cases does_of_step ht with
  | startJob job calls => exact h.startJob hreported
  | atLimit _ _ _ => exact h.of_obj rfl (.refl _) rfl rfl rfl (fun _ hk => hk) fun _ => .rfl
  | ready hpc _ _ =>
    refine h.of_obj rfl (.refl _) rfl rfl rfl (fun _ hk => hk) fun r => ?_
    rw [hpc]
    simp
  | take htake => exact h.take htake
  | setUp hpc => exact h.encode hpc
  | setupFails hpc => exact h.encodeError (.inr hpc) (by rw [atWork, hpc])
  | emptied hpc | filled hpc =>
    refine h.of_obj rfl (.refl _) rfl rfl rfl (fun _ hk => hk) fun r => ?_
    rw [hpc]
    simp
  | @emptyFails q hpc | @fillFails q hpc =>
    have hwork : s.atWork = some q := by rw [atWork, hpc]
    exact h.encodeError (.inl (hreported.resolve_left (by simp) q hwork)) hwork
  | fbd _ => exact h.fbd hreported
  | eventError nData2 _ => exact h.eventError hreported nData2
  | eventCmdComplete _ =>
    rw [eventCmdComplete]
    split
    case isTrue hinit => exact h.aborting (by rw [hinit]; simp) .done
    case isFalse => exact h.setSession rfl rfl rfl rfl rfl
  | abortJob id sendOk hfree => exact h.abortJob hfree id sendOk
  | destroySession p sendOk hfree _ => exact h.destroySession hfree p sendOk

/-- Sessions as their creation leaves them: they have carried no job, their client has a callback,
and the queues hold free sessions, each in its own queue once. -/
structure Fresh (o : MmJpegObj) : Prop where
  jobId : ∀ q, (o.session q).jobId = 0
  encoding : ∀ q, (o.session q).encoding = false
  jpegCb : ∀ q, (o.session q).params.jpegCb = true
  own : ∀ n, ∀ q ∈ o.sessionQ n, (o.session q).sessionHandleQ = some n
  nodup : ∀ n, (o.sessionQ n).Nodup

theorem Fresh.once {o : MmJpegObj} (h : Fresh o) : Once { obj := o } := by
  have hnone : ∀ q, ¬ (o.session q).encoding = true := by
    intro q
    rw [h.encoding]
    simp
  refine ⟨⟨h.own, fun n q _ => ⟨h.encoding q, by simp⟩, h.nodup⟩, ⟨nodup_nil, ?_, ?_⟩,
    ⟨?_, ?_, ?_, ?_, ?_, fun q => .inl (h.jobId q)⟩, h.jpegCb, ?_, ?_, ?_, ?_, ?_⟩
  · simp
  · simp
  · intro q hq
    exact absurd hq (hnone q)
  · simp
  · simp
  · intro q hq
    exact absurd hq (hnone q)
  · simp
  · simp
  · simp
  · simp
  · simp
  · simp

/-- **In a run whose steps report once** the client is called at most once for each job, and exactly
once for each that the component reported on and that was not aborted. -/
theorem one_callback_run {o : MmJpegObj} {es : List JobEvent} (hfresh : Fresh o)
    (hrun : Run (guarded Reported (fires step)) { obj := o } es t) : OneCallback t := by
  have honce : Once t :=
    hrun.invariant (fun s e t hs ht => hs.step ht.1 ht.2) hfresh.once
  intro k hk
  refine ⟨honce.atMost k, fun hreported haborted => ?_⟩
  exact (honce.reported k hreported hk).resolve_left haborted

theorem oneSession_fresh : Fresh oneSession := by
  refine ⟨?_, ?_, ?_, ?_, ?_⟩
  · intro q
    by_cases hq : q = ⟨0, 0⟩ <;> simp [oneSession, hq]
  · intro q
    by_cases hq : q = ⟨0, 0⟩ <;> simp [oneSession, hq]
  · intro q
    by_cases hq : q = ⟨0, 0⟩ <;> simp [oneSession, hq]
  · intro n q hq
    exact (oneSession_idle.queued n q hq).2
  · intro n
    by_cases hn : n = 0 <;> simp [oneSession, hn]

/-- A job is done, and the client was called once. -/
theorem one_callback_one : ∃ t, t.callbacks = [0x1000000] ∧ t.reported = [0x1000000] ∧ OneCallback t := by
  have ⟨t, hrun, hcallbacks, hreported⟩ : ∃ t, Run (guarded Reported (fires step)) { obj := oneSession }
      (startOne ++ [.fbd ⟨0, 0⟩]) t ∧ t.callbacks = [0x1000000] ∧ t.reported = [0x1000000] :=
    exists_run (by decide +kernel)
  exact ⟨t, hcallbacks, hreported, one_callback_run oneSession_fresh hrun⟩

/-- An error event and a late FillBufferDone: the client is called twice for the job. -/
theorem error_then_fbd : ∃ t,
    Run (fires step) { obj := oneSession } (startOne ++ [.eventError ⟨0, 0⟩ 5, .fbd ⟨0, 0⟩]) t ∧
      t.callbacks = [0x1000000, 0x1000000] ∧ ¬ OneCallback t := by
  refine (exists_run_fires (P := fun t => t.accepted = [0x1000000] ∧ t.callbacks = [0x1000000, 0x1000000])
    (by decide +kernel)).imp fun t h => ⟨h.1, h.2.2, fun honce => ?_⟩
  have hcount := (honce 0x1000000 (by rw [h.2.1]; exact mem_cons_self)).1
  rw [h.2.2] at hcount
  exact absurd hcount (by decide)

end JobState

end MmJpeg

end Marlin
