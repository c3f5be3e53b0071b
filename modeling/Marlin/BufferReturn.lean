import Marlin.StreamBufDone
import Marlin.UserBufRead

/-!
# The Way of a Buffer back to the Kernel

`mm_stream_data_notify` dequeues a buffer with `mm_stream_read_msm_frame`, counts the references
of the consumers and notifies them; the last of their calls of `mm_stream_buf_done` queues the
buffer back. Here the parties of `Marlin.StreamBufDone` are put together with what is done
before: the container of a batch is read, and the caches are cleaned.

What fails on the way is not undone. A container with an old time stamp is queued back by
`mm_stream_read_user_buf` and delivered all the same; a buffer whose caches could not be cleaned
is dropped; and a reference that was counted for a consumer who could not be notified, for want
of memory or because its thread is not active, is dropped by nobody.

## Conventions

`kernel` are the buffers that the driver has, which `VIDIOC_DQBUF` takes one of; `in_kernel` is
the flag that the interface keeps. How many buffers are queued is counted in `Marlin.StreamFsm`.

## Main results

* `Covered.step`: what a step keeps if the notifications succeed.
* `Settled.step`: the same with the buffers of the driver.
* `returned_run`: the condition under which every buffer comes back once.
-/

namespace Marlin

open List Function Transition

/-- `cam_stream_cache_ops_t`. -/
inductive CamStreamCacheOps
  | clearFlags | honourFlags | disabled
  deriving DecidableEq

/-- The cache operations of a stream: whether the client gave them, the mode of the stream, and
what they return. -/
structure CacheCalls where
  supported : Bool := true
  cacheOps : CamStreamCacheOps := .clearFlags
  cleanInvalidateBuf : ℤ := 0
  invalidateBuf : ℤ := 0
  cleanBuf : ℤ := 0
  deriving DecidableEq

namespace CacheCalls

/-- `CPU_HAS_READ`. -/
def cpuHasRead : ℕ := 1

/-- `CPU_HAS_WRITTEN`. -/
def cpuHasWritten : ℕ := 2

/-- `CPU_HAS_READ_WRITTEN`. -/
def cpuHasReadWritten : ℕ := 3

/-- `mm_stream_handle_cache_ops` for a buffer with these `cache_flags`. -/
def handleCacheOps (v : CacheCalls) (cacheFlags : ℕ) (deque : Bool) : ℤ :=
  if !v.supported then -1
  else
    let flags := match v.cacheOps with
      | .clearFlags => 0
      | .disabled => if deque then cpuHasReadWritten else cpuHasRead
      | .honourFlags => cacheFlags
    if flags &&& cpuHasReadWritten = cpuHasReadWritten then v.cleanInvalidateBuf
    else if flags &&& cpuHasRead = cpuHasRead then v.invalidateBuf
    else if flags &&& cpuHasWritten = cpuHasWritten then v.cleanBuf
    else 0

/-- The operations of a buffer that is dequeued succeed: there are some, and where the caches are
cleaned this succeeds. -/
def Succeed (v : CacheCalls) : Prop :=
  v.supported = true ∧ (v.cacheOps = .disabled → v.cleanInvalidateBuf = 0)
deriving Decidable

theorem handleCacheOps_eq_zero_iff {v : CacheCalls} : v.handleCacheOps 0 true = 0 ↔ v.Succeed := by
  obtain ⟨supported, cacheOps, cleanInvalidateBuf, invalidateBuf, cleanBuf⟩ := v
  cases supported <;> cases cacheOps <;>
    simp [handleCacheOps, Succeed, cpuHasRead, cpuHasWritten, cpuHasReadWritten]

end CacheCalls

namespace StreamBufDone

open Parties

/-- A buffer that is dequeued: its index, the container that it is in batch mode, whether it
could be queued back at once, the cache operations, and whether there is an asynchronous
callback. -/
structure Dequeued where
  buf : ℕ
  container : Option ContainerBuf := none
  requeue : Bool := true
  cache : CacheCalls := {}
  hasCb : Bool := false

/-- A stream with its consumers and the buffers of its driver. -/
structure Stream where
  parties : Parties
  kernel : List ℕ
  batch : BatchStream

/-- The steps: `mm_stream_data_notify` up to its callbacks, and those of the parties. -/
inductive StreamAction
  | dequeue (d : Dequeued)
  | party (a : Action)

/-- The buffer that a step of the parties gives to the driver. -/
def Parties.queued (s : Parties) : Action → List ℕ
  | .qbuf k true => (s.toQueue[k]?).toList
  | _ => []

/-- The buffer that the poll thread is at. -/
def Parties.pollBuf (s : Parties) : Option ℕ :=
  match s.poll with
  | .idle => none
  | .read buf _ | .counted buf _ | .notified buf _ | .linked buf _ => some buf

namespace Stream

/-- `mm_stream_read_msm_frame`, which drops the result of `mm_stream_read_user_buf`. -/
def readMsmFrame (s : Stream) (d : Dequeued) : ℤ × Stream :=
  let s := { s with kernel := s.kernel.erase d.buf }
  let s := match d.container with
    | none => s
    | some c =>
      let r := s.batch.readUserBuf c
      { s with
        batch := r.stream
        kernel := if r.outcome = .requeued ∧ d.requeue = true then s.kernel ++ [d.buf]
          else s.kernel }
  (d.cache.handleCacheOps 0 true, s)

/-- `mm_stream_data_notify` until the callbacks were looked at. -/
def dataNotify (s : Stream) (d : Dequeued) : Stream :=
  let r := s.readMsmFrame d
  if r.1 ≠ 0 then r.2
  else { r.2 with
    parties.inKernel := Function.update r.2.parties.inKernel d.buf false
    parties.poll := .read d.buf d.hasCb }

/-- A step. -/
def step (s : Stream) : StreamAction → Option Stream
  | .dequeue d =>
    if s.parties.poll = .idle ∧ d.buf ∈ s.kernel then some (s.dataNotify d) else none
  | .party (.dataNotify ..) => none
  | .party a =>
    (s.parties.step a).map fun p =>
      { s with parties := p, kernel := s.kernel ++ s.parties.queued a }

/-- The time stamp of a container is not newer than that of the one before. -/
def IsStale (s : Stream) (d : Dequeued) : Prop :=
  ∃ c ∈ d.container, c.buffer = s.batch.buf c.bufIdx ∧ c.ts.toNsecs ≤ s.batch.prevTimestamp

theorem readMsmFrame_kernel (s : Stream) (d : Dequeued) :
    (s.IsStale d ∧ d.requeue = true → (s.readMsmFrame d).2.kernel = s.kernel.erase d.buf ++ [d.buf]) ∧
      (¬ (s.IsStale d ∧ d.requeue = true) → (s.readMsmFrame d).2.kernel = s.kernel.erase d.buf) := by
  rw [readMsmFrame, IsStale]
  cases hc : d.container with
  | none => simp
  | some c =>
    have hstale : (s.batch.readUserBuf c).outcome = .requeued ↔
        c.buffer = s.batch.buf c.bufIdx ∧ c.ts.toNsecs ≤ s.batch.prevTimestamp := by
      rw [BatchStream.readUserBuf]
      split
      · simp_all
      · split <;> simp_all
    simp only [Option.mem_def, Option.some.injEq, exists_eq_left', ← hstale]
    exact ⟨fun h => if_pos h, fun h => if_neg h⟩

theorem readMsmFrame_parties (s : Stream) (d : Dequeued) : (s.readMsmFrame d).2.parties = s.parties := by
  rw [readMsmFrame]
  cases d.container <;> rfl

end Stream

/-! ### The parties -/

/-- A buffer is in the kernel, on its way there, held, or about to be delivered. -/
def IsHome (s : Parties) (b : ℕ) : Prop :=
  s.inKernel b = true ∨ b ∈ s.toQueue ∨ 0 < messageCount b s.messages ∨ s.willNotify b

/-- The references of a buffer are those of its messages and of the notifications still to be
made, and a buffer of the stream is somewhere. -/
structure Covered (own : Prop) (s : Parties) (b : ℕ) : Prop where
  refs : s.refcnt b = messageCount b s.messages + s.pending b
  home : own → IsHome s b

variable {own : Prop}

/-- A step of the parties that loses nothing: the consumers are notified that a reference was
counted for, the window is spared, and the buffer is queued. -/
def Parties.Delivers (s : Parties) : Action → Prop
  | .notifyBundled ok => s.isBundled = true → ok = true
  | .notifyLinked ok => s.isLinked = true → ok = true
  | .notifyApp ok => (∃ buf, s.poll = .linked buf true) → ok = true
  | .qbuf _ ok => ok = true
  | a => s.sparesWindow a = true

variable {s : Parties} {b : ℕ}

theorem willNotify_of_pending (h : 0 < s.pending b) : s.willNotify b := by
  rw [pending] at h
  rw [willNotify]
  cases hpoll : s.poll with
  | idle | read => simp [hpoll] at h
  | counted buf hasCb =>
    simp only [hpoll] at h ⊢
    split at h
    · refine ⟨‹_›, ?_⟩
      cases hB : s.isBundled
      · cases hasCb
        · simp [hB] at h
        · exact .inr (.inr rfl)
      · exact .inl rfl
    · cases h
  | notified buf hasCb =>
    simp only [hpoll] at h ⊢
    split at h
    · refine ⟨‹_›, .inr ?_⟩
      cases hasCb
      · cases h
      · rfl
    · cases h
  | linked buf hasCb =>
    simp only [hpoll] at h ⊢
    split at h
    · refine ⟨‹_›, ?_⟩
      cases hasCb
      · cases h
      · rfl
    · cases h

variable {s' : Parties}

theorem Covered.countRefs (h : Covered own s b) (hacc : s.Accounted b)
    (hstep : s.step .countRefs = some s') : Covered own s' b := by
  simp only [Parties.step] at hstep
  split at hstep
  · rename_i buf hasCb hpoll
    cases hstep
    obtain ⟨hrefs, hhome⟩ := h
    have hroom := hacc.room
    have hfresh := hacc.fresh
    have hbundled := Bool.toNat_le s.isBundled
    have hcb := Bool.toNat_le hasCb
    simp only [pending, pollRoom, isFresh, IsHome, willNotify, hpoll] at hrefs hroom hfresh hhome
    by_cases hb : buf = b
    · subst hb
      rw [if_pos rfl] at hroom
      have hnone := hfresh rfl
      have hset : (s.refcnt buf + s.isBundled.toNat + hasCb.toNat) % 256 = s.isBundled.toNat + hasCb.toNat := by omega
      constructor
      · simp [pending, setRefcnt, hset, hnone]
      · simpa [IsHome, willNotify, setRefcnt] using hhome
    · have hset : ∀ v, update s.refcnt buf v b = s.refcnt b :=
        fun v => update_of_ne (Ne.symm hb) _ _
      constructor
      · simpa [pending, setRefcnt, hset, hb] using hrefs
      · simpa [IsHome, willNotify, setRefcnt, hb] using hhome
  · cases hstep

variable {ok : Bool}

theorem Covered.notifyBundled (h : Covered own s b)
    (hok : s.isBundled = true → ok = true) (hstep : s.step (.notifyBundled ok) = some s') :
    Covered own s' b := by
  simp only [Parties.step] at hstep
  split at hstep
  · rename_i buf hasCb hpoll
    cases hstep
    obtain ⟨hrefs, hhome⟩ := h
    have hsent : (s.isBundled && ok) = s.isBundled := by
      cases hB : s.isBundled with
      | false => rfl
      | true => rw [hok hB, Bool.and_self]
    have hcount := weigh_notify (fun _ => 1) s (s.isBundled && ok) .bundled buf b
    simp only [hsent] at hcount ⊢
    simp only [pending, IsHome, willNotify, hpoll, messageCount] at hrefs hhome
    constructor
    · simp only [messageCount, pending]
      change s.refcnt b = _
      rw [hcount]
      by_cases hb : buf = b
      · cases hB : s.isBundled <;> simp [hb, hB] at hrefs ⊢ <;> omega
      · simpa [hb] using hrefs
    · intro hown
      simp only [IsHome, messageCount, willNotify]
      change s.inKernel b = true ∨ b ∈ s.toQueue ∨ _
      rw [hcount]
      rcases hhome hown with hin | hq | hm | ⟨hb, hB | hrest⟩
      · exact .inl hin
      · exact .inr (.inl hq)
      · exact .inr (.inr (.inl (by omega)))
      · exact .inr (.inr (.inl (by simp [hB, hb])))
      · exact .inr (.inr (.inr ⟨hb, hrest⟩))
  · cases hstep

theorem Covered.notifyLinked (h : Covered own s b) (hacc : s.Accounted b) (hok : s.isLinked = true → ok = true)
    (hstep : s.step (.notifyLinked ok) = some s') : Covered own s' b := by
  simp only [Parties.step] at hstep
  split at hstep
  · rename_i buf hasCb hpoll
    obtain ⟨hrefs, hhome⟩ := h
    have hroom := hacc.room
    simp only [pending, IsHome, willNotify, pollRoom, hpoll] at hrefs hhome hroom
    split at hstep
    · rename_i hlinked
      cases hstep
      obtain rfl := hok hlinked
      set s₁ := s.setRefcnt buf (s.refcnt buf + 1) with h₁
      have hcount := weigh_notify (fun _ => 1) s₁ true .linked buf b
      have hmsgs : s₁.messages = s.messages := rfl
      rw [hmsgs] at hcount
      simp only [messageCount] at hrefs hhome
      by_cases hb : buf = b
      · subst hb
        have hcnt : s₁.refcnt buf = s.refcnt buf + 1 := by
          simp only [h₁, setRefcnt, update_self, if_true, mmCameraStreamBufCbMax] at hroom ⊢
          omega
        simp only [and_self, if_true] at hcount hrefs
        constructor
        · simp only [messageCount, pending, if_true]
          change s₁.refcnt buf = _
          omega
        · refine fun _ => .inr (.inr (.inl ?_))
          simp only [messageCount]
          omega
      · have hcnt : s₁.refcnt b = s.refcnt b := s.setRefcnt_of_ne hb _
        simp only [hb, and_false, if_false, Nat.add_zero] at hcount hrefs
        constructor
        · simp only [messageCount, pending, if_neg hb]
          change s₁.refcnt b = _
          omega
        · intro hown
          simp only [IsHome, messageCount, willNotify]
          rw [hcount]
          rcases hhome hown with hin | hq | hm | hw
          · exact .inl hin
          · exact .inr (.inl hq)
          · exact .inr (.inr (.inl hm))
          · exact absurd hw.1 hb
    · rename_i hlinked
      cases hstep
      constructor
      · simpa only [pending] using hrefs
      · simpa [IsHome, willNotify, hlinked] using hhome
  · cases hstep

theorem Covered.notifyApp (h : Covered own s b) (hok : (∃ buf, s.poll = .linked buf true) → ok = true)
    (hstep : s.step (.notifyApp ok) = some s') : Covered own s' b := by
  simp only [Parties.step] at hstep
  split at hstep
  · rename_i buf hasCb hpoll
    cases hstep
    obtain ⟨hrefs, hhome⟩ := h
    have hsent : (hasCb && ok) = hasCb := by
      cases hasCb with
      | false => rfl
      | true => exact hok ⟨buf, hpoll⟩
    have hcount := weigh_notify (fun _ => 1) s (hasCb && ok) .app buf b
    simp only [hsent] at hcount ⊢
    simp only [pending, IsHome, willNotify, hpoll, messageCount] at hrefs hhome
    constructor
    · simp only [messageCount, pending]
      change s.refcnt b = _
      rw [hcount]
      by_cases hb : buf = b
      · cases hasCb <;> simp [hb] at hrefs ⊢ <;> omega
      · simpa [hb] using hrefs
    · intro hown
      simp only [IsHome, messageCount, willNotify]
      change s.inKernel b = true ∨ b ∈ s.toQueue ∨ _
      rw [hcount]
      rcases hhome hown with hin | hq | hm | ⟨hb, hcb⟩
      · exact .inl hin
      · exact .inr (.inl hq)
      · exact .inr (.inr (.inl (by omega)))
      · exact .inr (.inr (.inl (by simp [hb, hcb])))
  · cases hstep

variable {k : ℕ} {m : Message}

theorem Covered.setStage {stage : Stage} (h : Covered own s b)
    (hk : s.messages[k]? = some m) : Covered own (s.setStage k m stage) b := by
  have hset := weigh_set (fun _ => 1) b hk { m with stage := stage }
  have hsame : messageCount b (s.setStage k m stage).messages = messageCount b s.messages := by
    change weigh _ b (s.messages.set k { m with stage := stage }) = weigh _ b s.messages
    split at hset <;> omega
  refine ⟨hsame ▸ h.refs, fun hown => ?_⟩
  rw [IsHome, hsame]
  exact h.home hown

theorem Covered.callback {n : ℕ} (h : Covered own s b) (hacc : ∀ b, s.Accounted b) (hk : s.messages[k]? = some m) :
    Covered own (s.callback k m n) b := by
  have hset := weigh_set (fun _ => 1) b hk { m with stage := .held n }
  have hmsgs : (s.callback k m n).messages =
      s.messages.set k { m with stage := .held n } ++ [⟨.client, m.buf, .held 0⟩] := rfl
  have hcount := weigh_append (fun _ => 1) b (s.messages.set k { m with stage := .held n }) ⟨.client, m.buf, .held 0⟩
  rw [← hmsgs] at hcount
  obtain ⟨hrefs, hhome⟩ := h
  simp only [messageCount] at hrefs
  by_cases hb : m.buf = b
  · subst hb
    have hroom := (hacc m.buf).room
    have hcnt : (s.callback k m n).refcnt m.buf = s.refcnt m.buf + 1 := by
      simp only [mmCameraStreamBufCbMax] at hroom
      change update s.refcnt m.buf ((s.refcnt m.buf + 1) % 256) m.buf = _
      rw [update_self]
      omega
    simp only [if_true] at hset hcount
    constructor
    · change (s.callback k m n).refcnt m.buf = weigh _ _ _ + s.pending m.buf
      omega
    · refine fun _ => .inr (.inr (.inl ?_))
      simp only [messageCount]
      omega
  · have hcnt : (s.callback k m n).refcnt b = s.refcnt b := s.setRefcnt_of_ne hb _
    simp only [if_neg hb, Nat.add_zero] at hset hcount
    have hsame : messageCount b (s.callback k m n).messages = messageCount b s.messages := by
      simp only [messageCount]
      omega
    constructor
    · rw [hsame, hcnt]
      exact hrefs
    · intro hown
      rw [IsHome, hsame]
      exact hhome hown

theorem Covered.release (h : Covered own s b) (hacc : ∀ b, s.Accounted b) (hk : s.messages[k]? = some m) :
    Covered own (s.release k m) b := by
  have hcount := weigh_eraseIdx (fun _ => 1) b hk
  have hmsgs : (s.release k m).messages = s.messages.eraseIdx k := rfl
  rw [← hmsgs] at hcount
  obtain ⟨hrefs, hhome⟩ := h
  by_cases hb : m.buf = b
  · subst hb
    have hroom := (hacc m.buf).room
    have hpos := ((hacc m.buf).of_message hk).1
    simp only [if_true] at hcount
    have hcnt : (s.release k m).refcnt m.buf = s.refcnt m.buf - 1 := by
      simp only [mmCameraStreamBufCbMax] at hroom
      change update s.refcnt m.buf ((s.refcnt m.buf + 255) % 256) m.buf = _
      rw [update_self]
      omega
    have hqueue : (s.release k m).toQueue =
        if (s.release k m).refcnt m.buf = 0 then s.toQueue ++ [m.buf] else s.toQueue := rfl
    have hrefs' : (s.release k m).refcnt m.buf = messageCount m.buf (s.release k m).messages + s.pending m.buf := by
      simp only [messageCount] at hrefs ⊢
      omega
    refine ⟨hrefs', fun _ => ?_⟩
    rw [IsHome, hqueue]
    by_cases hzero : (s.release k m).refcnt m.buf = 0
    · rw [if_pos hzero]
      exact .inr (.inl (mem_append_right _ (mem_singleton_self _)))
    · refine .inr (.inr ?_)
      by_cases hmsg : 0 < messageCount m.buf (s.release k m).messages
      · exact .inl hmsg
      · exact .inr (willNotify_of_pending (s := s) (by omega))
  · have hcnt : (s.release k m).refcnt b = s.refcnt b := s.setRefcnt_of_ne hb _
    simp only [if_neg hb, Nat.add_zero] at hcount
    have hsame : messageCount b (s.release k m).messages = messageCount b s.messages := hcount
    have hmem : b ∈ s.toQueue → b ∈ (s.release k m).toQueue := by
      intro hq
      change b ∈ if _ then s.toQueue ++ [m.buf] else s.toQueue
      split
      · exact mem_append_left _ hq
      · exact hq
    constructor
    · rw [hsame, hcnt]
      exact hrefs
    · intro hown
      rw [IsHome, hsame]
      exact (hhome hown).imp_right (Or.imp_left hmem)

/-- What a consumer does. -/
theorem Covered.consume {what : Consume}
    (h : Covered own s b) (hacc : ∀ b, s.Accounted b) (hk : s.messages[k]? = some m)
    (hstep : s.consume k m what = some s') : Covered own s' b := by
  cases what with
  | receive =>
    simp only [Parties.consume] at hstep
    split at hstep
    · cases hstep
      exact h.setStage hk
    · cases hstep
  | skipCallback =>
    simp only [Parties.consume] at hstep
    split at hstep
    · cases hstep
      exact h.setStage hk
    · cases hstep
  | callback =>
    simp only [Parties.consume] at hstep
    split at hstep
    · cases hstep
      exact h.callback hacc hk
    · cases hstep
  | check =>
    simp only [Parties.consume] at hstep
    split at hstep
    · obtain ⟨hpos, -⟩ := (hacc m.buf).of_message hk
      rw [if_neg (by omega)] at hstep
      cases hstep
      exact h.setStage hk
    · cases hstep
  | release =>
    simp only [Parties.consume] at hstep
    split at hstep
    · cases hstep
      exact h.release hacc hk
    · cases hstep

theorem Covered.qbuf (h : Covered own s b) (hstep : s.step (.qbuf k true) = some s') : Covered own s' b := by
  simp only [Parties.step] at hstep
  split at hstep
  · rename_i buf hk
    cases hstep
    refine ⟨h.refs, fun hown => ?_⟩
    simp only [IsHome, if_true]
    by_cases hb : buf = b
    · subst hb
      exact .inl (update_self ..)
    · rw [update_of_ne (Ne.symm hb)]
      refine (h.home hown).imp_right (Or.imp_left fun hq => ?_)
      obtain ⟨hlt, hget⟩ := List.getElem?_eq_some_iff.mp hk
      rw [← (getElem_cons_eraseIdx_perm hlt).mem_iff, hget, mem_cons] at hq
      exact hq.resolve_left (Ne.symm hb)
  · cases hstep

variable {a : Action}

/-- **A step of the parties that loses nothing.** -/
theorem Covered.step (h : Covered own s b) (hacc : ∀ b, s.Accounted b) (ha : ∀ buf hasCb, a ≠ .dataNotify buf hasCb)
    (hG : s.Delivers a) (hstep : s.step a = some s') : Covered own s' b := by
  cases a with
  | dataNotify buf hasCb => exact absurd rfl (ha buf hasCb)
  | countRefs => exact h.countRefs (hacc b) hstep
  | notifyBundled ok => exact h.notifyBundled hG hstep
  | notifyLinked ok => exact h.notifyLinked (hacc b) hG hstep
  | notifyApp ok => exact h.notifyApp hG hstep
  | consume k what =>
    simp only [Parties.step] at hstep
    split at hstep
    · exact h.consume hacc ‹_› hstep
    · cases hstep
  | qbuf k ok =>
    obtain rfl : ok = true := hG
    exact h.qbuf hstep

theorem sparesWindow_of_delivers (hG : s.Delivers a) : s.sparesWindow a = true := by
  cases a with
  | notifyBundled | notifyLinked | notifyApp | qbuf => rfl
  | dataNotify | countRefs | consume => exact hG

/-! ### The buffers of the driver -/

theorem consume_inKernel {what : Consume} (h : s.consume k m what = some s') : s'.inKernel = s.inKernel := by
  cases what with
  | check =>
    simp only [Parties.consume] at h
    split at h
    · split at h
      · cases h
        rfl
      · cases h
        rfl
    · cases h
  | _ =>
    simp only [Parties.consume] at h
    split at h
    · cases h
      rfl
    · cases h

theorem inKernel_step (hacc : s.Accounted b) (ha : ∀ buf hasCb, a ≠ .dataNotify buf hasCb) (hG : s.Delivers a)
    (hstep : s.step a = some s') :
    (s'.inKernel b).toNat = (s.inKernel b).toNat + (s.queued a).count b := by
  cases a with
  | dataNotify buf hasCb => exact absurd rfl (ha buf hasCb)
  | qbuf k ok =>
    obtain rfl : ok = true := hG
    simp only [Parties.step] at hstep
    split at hstep
    · rename_i buf hk
      cases hstep
      simp only [if_true, queued, hk, Option.toList_some, count_singleton]
      by_cases hb : buf = b
      · subst hb
        have hpos := count_pos_iff.mpr (mem_of_getElem? hk)
        have honce := hacc.once
        rw [update_self, beq_self_eq_true, if_pos rfl]
        simp only [Bool.toNat_true]
        omega
      · rw [update_of_ne (Ne.symm hb), if_neg (by simpa using hb), Nat.add_zero]
    · cases hstep
  | consume k what =>
    simp only [Parties.step] at hstep
    split at hstep
    · rw [consume_inKernel hstep]
      rfl
    · cases hstep
  | countRefs | notifyBundled ok | notifyLinked ok | notifyApp ok =>
    have hin : s'.inKernel = s.inKernel := by
      simp only [Parties.step] at hstep
      split at hstep <;>
        first
          | (cases hstep; rfl)
          | (split at hstep <;> cases hstep <;> rfl)
          | cases hstep
    rw [hin]
    rfl

namespace Stream

/-- The account of a buffer: the driver has it as often as the flag says. -/
structure Settled (own : Prop) (s : Stream) (b : ℕ) : Prop where
  covered : Covered own s.parties b
  kernel : s.kernel.count b = (s.parties.inKernel b).toNat

/-- A step that loses nothing. A buffer that is dequeued is delivered to somebody and not queued
back; or its caches could not be cleaned and it is queued back. -/
def Delivers (s : Stream) : StreamAction → Prop
  | .dequeue d =>
    if d.cache.Succeed then
      ¬ (s.IsStale d ∧ d.requeue = true) ∧ (s.parties.isBundled = true ∨ s.parties.isLinked = true ∨ d.hasCb = true)
    else s.IsStale d ∧ d.requeue = true
  | .party a => s.parties.Delivers a

/-- The account of the references and that of the places. -/
structure Inv (s : Stream) (bufs : List ℕ) : Prop where
  accounted : ∀ b, s.parties.Accounted b
  settled : ∀ b, Settled (b ∈ bufs) s b

variable {s : Stream} {bufs : List ℕ} {b : ℕ}

theorem Inv.inKernel (h : s.Inv bufs) (hb : b ∈ s.kernel) : s.parties.inKernel b = true ∧ s.kernel.count b = 1 := by
  have hpos := count_pos_iff.mpr hb
  have hkernel := (h.settled b).kernel
  cases hin : s.parties.inKernel b with
  | false =>
    rw [hin] at hkernel
    simp only [Bool.toNat_false] at hkernel
    omega
  | true =>
    rw [hin] at hkernel
    exact ⟨rfl, hkernel⟩

/-- A buffer is dequeued. -/
theorem Inv.dequeue (h : s.Inv bufs) {d : Dequeued}
    (hidle : s.parties.poll = .idle) (hb : d.buf ∈ s.kernel) (hG : s.Delivers (.dequeue d)) :
    (s.dataNotify d).Inv bufs := by
  obtain ⟨hin, hone⟩ := h.inKernel hb
  obtain ⟨hback, hgone⟩ := s.readMsmFrame_kernel d
  have hparties := s.readMsmFrame_parties d
  have hrc : (s.readMsmFrame d).1 = d.cache.handleCacheOps 0 true := rfl
  rw [dataNotify]
  dsimp only
  by_cases hcache : d.cache.Succeed
  · have hzero : (s.readMsmFrame d).1 = 0 := hrc.trans (CacheCalls.handleCacheOps_eq_zero_iff.mpr hcache)
    simp only [Delivers, if_pos hcache] at hG
    obtain ⟨hfresh, hsome⟩ := hG
    rw [if_neg (not_not.mpr hzero)]
    have hkernel := hgone hfresh
    have hstep : s.parties.step (.dataNotify d.buf d.hasCb) = some { s.parties with
        inKernel := update s.parties.inKernel d.buf false
        poll := .read d.buf d.hasCb } := if_pos ⟨hidle, hin⟩
    rw [hparties]
    refine ⟨fun b => Step.accounted h.accounted rfl hstep b, fun b => ?_⟩
    obtain ⟨⟨hrefs, hhome⟩, hcount⟩ := h.settled b
    simp only [pending, IsHome, willNotify, hidle, Nat.add_zero, or_false] at hrefs hhome
    refine ⟨⟨hrefs, fun hown => ?_⟩, ?_⟩
    · by_cases hbuf : d.buf = b
      · exact .inr (.inr (.inr ⟨hbuf, hsome⟩))
      · simp only [IsHome, update_of_ne (Ne.symm hbuf)]
        exact (hhome hown).imp_right (Or.imp_right .inl)
    · change (s.readMsmFrame d).2.kernel.count b = (update s.parties.inKernel d.buf false b).toNat
      rw [hkernel]
      by_cases hbuf : d.buf = b
      · subst hbuf
        rw [count_erase_self, hone, update_self]
        rfl
      · rw [count_erase_of_ne (Ne.symm hbuf), update_of_ne (Ne.symm hbuf)]
        exact hcount
  · have hfail : (s.readMsmFrame d).1 ≠ 0 :=
      fun hzero => hcache (CacheCalls.handleCacheOps_eq_zero_iff.mp (hrc.symm.trans hzero))
    simp only [Delivers, if_neg hcache] at hG
    rw [if_pos hfail]
    have hperm : (s.readMsmFrame d).2.kernel.Perm s.kernel := by
      rw [hback hG]
      exact (perm_append_singleton _ _).trans (perm_cons_erase hb).symm
    refine ⟨fun b => hparties ▸ h.accounted b, fun b => ?_⟩
    obtain ⟨hcovered, hcount⟩ := h.settled b
    refine ⟨hparties ▸ hcovered, ?_⟩
    rw [hperm.count_eq, hcount, hparties]

variable {s' : Stream}

theorem step_party {a : Action} (h : s.step (.party a) = some s') :
    (∀ buf hasCb, a ≠ .dataNotify buf hasCb) ∧ ∃ p, s.parties.step a = some p ∧
      { s with parties := p, kernel := s.kernel ++ s.parties.queued a } = s' := by
  cases a with
  | dataNotify buf hasCb => cases h
  | _ => exact ⟨nofun, Option.map_eq_some_iff.mp h⟩

theorem Inv.party (h : s.Inv bufs) {a : Action}
    (hG : s.parties.Delivers a) (hstep : s.step (.party a) = some s') : s'.Inv bufs := by
  obtain ⟨ha, p, hp, rfl⟩ := step_party hstep
  refine ⟨Step.accounted h.accounted (sparesWindow_of_delivers hG) hp, fun b => ?_⟩
  obtain ⟨hcovered, hcount⟩ := h.settled b
  refine ⟨hcovered.step h.accounted ha hG hp, ?_⟩
  rw [inKernel_step (h.accounted b) ha hG hp, ← hcount]
  exact count_append

/-- **One step.** -/
theorem Inv.step {a : StreamAction} (h : s.Inv bufs)
    (hG : s.Delivers a) (hstep : s.step a = some s') : s'.Inv bufs := by
  cases a with
  | dequeue d =>
    simp only [Stream.step] at hstep
    split at hstep
    · rename_i hpre
      cases hstep
      exact h.dequeue hpre.1 hpre.2 hG
    · cases hstep
  | party a => exact h.party hG hstep

/-- A stream with its buffers in the driver and nothing under way. -/
structure Initial (s : Stream) : Prop where
  parties : s.parties.Initial
  nodup : s.kernel.Nodup
  inKernel : ∀ b, s.parties.inKernel b = true ↔ b ∈ s.kernel

theorem Initial.inv (h : s.Initial) : s.Inv s.kernel where
  accounted := h.parties.accounted
  settled b := by
    obtain ⟨⟨hcnt, hpoll, hmsg, hq⟩, hnodup, hin⟩ := h
    refine ⟨⟨?_, fun hown => .inl ((hin b).mpr hown)⟩, ?_⟩
    · simp [hcnt, hmsg, messageCount, weigh, pending, hpoll]
    · by_cases hb : b ∈ s.kernel
      · rw [(hin b).mpr hb, hnodup.count, if_pos hb]
        rfl
      · rw [count_eq_zero.mpr hb, Bool.eq_false_iff.mpr (mt (hin b).mp hb)]
        rfl

/-- The poll callback for a buffer has returned, and so have the calls of `mm_stream_buf_done`
of all consumers that were notified of it. -/
structure Quiet (s : Stream) (b : ℕ) : Prop where
  poll : s.parties.pollBuf ≠ some b
  messages : ∀ m ∈ s.parties.messages, m.buf ≠ b
  toQueue : b ∉ s.parties.toQueue

/-- The buffer is queued in the kernel exactly once, without references. -/
structure Returned (s : Stream) (b : ℕ) : Prop where
  kernel : s.kernel.count b = 1
  refcnt : s.parties.refcnt b = 0
  inKernel : s.parties.inKernel b = true

theorem pollBuf_of_willNotify {s : Parties} (h : s.willNotify b) : s.pollBuf = some b := by
  rw [willNotify] at h
  rw [pollBuf]
  cases hpoll : s.poll with
  | idle => simp [hpoll] at h
  | read | counted | notified | linked =>
    simp only [hpoll] at h ⊢
    rw [h.1]

theorem messageCount_eq_zero {l : List Message} (h : ∀ m ∈ l, m.buf ≠ b) : messageCount b l = 0 := by
  induction l with
  | nil => rfl
  | cons m l ih =>
    have hrest := ih fun m' hm' => h m' (mem_cons_of_mem m hm')
    simp only [messageCount, weigh, map_cons, sum_cons] at hrest ⊢
    rw [if_neg (h m mem_cons_self), hrest]

/-- A buffer that nobody is at is back. -/
theorem Inv.returned (h : s.Inv bufs) (hb : b ∈ bufs) (hquiet : s.Quiet b) : s.Returned b := by
  obtain ⟨⟨hrefs, hhome⟩, hkernel⟩ := h.settled b
  have hnone := messageCount_eq_zero hquiet.messages
  have hno : ¬ s.parties.willNotify b := fun hw => hquiet.poll (pollBuf_of_willNotify hw)
  have hpending : s.parties.pending b = 0 :=
    Nat.eq_zero_of_not_pos fun hpos => hno (willNotify_of_pending hpos)
  have hin : s.parties.inKernel b = true := by
    rcases hhome hb with hin | hq | hm | hw
    · exact hin
    · exact absurd hq hquiet.toQueue
    · omega
    · exact absurd hw hno
  exact ⟨by rw [hkernel, hin]; rfl, by omega, hin⟩

/-- A buffer that a consumer has, or will have, is not queued. -/
theorem Inv.delivered (h : s.Inv bufs) (hheld : (∃ m ∈ s.parties.messages, m.buf = b) ∨ s.parties.willNotify b) :
    b ∉ s.kernel ∧ b ∉ s.parties.toQueue := by
  have haway : ¬ (s.parties.inKernel b = true ∨ b ∈ s.parties.toQueue) := by
    intro hback
    obtain ⟨hcnt, hno⟩ := (h.accounted b).away hback
    have hrefs := (h.accounted b).refs
    obtain ⟨m, hm, hbuf⟩ | hw := hheld
    · exact buf_ne_of_messageCount (b := b) (by omega) m hm hbuf
    · exact hno hw
  obtain ⟨hin, hq⟩ := not_or.mp haway
  exact ⟨fun hmem => hin (h.inKernel hmem).1, hq⟩

/-- **Every buffer comes back once.** In every run whose steps lose nothing, a buffer is in the
kernel exactly once when the poll callback and the consumers are done with it; and it is not
queued while a consumer has it or is about to be given it. -/
theorem returned_run {s₀ s : Stream} {as : List StreamAction} (h₀ : s₀.Initial)
    (hrun : Run (guarded Delivers (fires step)) s₀ as s) {b : ℕ} (hb : b ∈ s₀.kernel) :
    (s.Quiet b → s.Returned b) ∧ ((∃ m ∈ s.parties.messages, m.buf = b) ∨ s.parties.willNotify b →
        b ∉ s.kernel ∧ b ∉ s.parties.toQueue) := by
  have hinv : s.Inv s₀.kernel :=
    hrun.invariant (I := fun s => s.Inv s₀.kernel) (fun _ _ _ hI hstep => hI.step hstep.1 hstep.2) h₀.inv
  exact ⟨hinv.returned hb, hinv.delivered⟩

/-- A bundled batch stream with two containers in its driver; the last time stamp was 8. -/
def bundledBatch : Stream where
  parties := { isBundled := true, isLinked := false, inKernel := fun b => b < 2 }
  kernel := [0, 1]
  batch := { buf := fun _ => 7, frameInterval := 4, prevTimestamp := 8 }

theorem bundledBatch_initial : bundledBatch.Initial where
  parties := ⟨fun _ => rfl, rfl, rfl, rfl⟩
  nodup := by decide
  inKernel b := by
    rw [bundledBatch, decide_eq_true_iff]
    simp
    omega

theorem two_lt : ([0, 1] : List ℕ).length < 256 := by decide

/-- Container 0 with a time stamp. -/
def container (nsec : ℤ) : Dequeued :=
  { buf := 0
    container := some
      { bufIdx := 0, buffer := 7, frameIdx := 2, ts := { tvNsec := nsec }, cont := [0, 1],
        cont_lt := two_lt } }

/-- Container 0 is dequeued, and the bundled channel gives it back. -/
def roundTrip (nsec : ℤ) : List StreamAction :=
  [.dequeue (container nsec), .party .countRefs, .party (.notifyBundled true),
    .party (.notifyLinked true), .party (.notifyApp true), .party (.consume 0 .receive),
    .party (.consume 0 .check), .party (.consume 0 .release), .party (.qbuf 0 true)]

theorem delivers_newer : bundledBatch.Delivers (.dequeue (container 9)) := by
  rw [Delivers, if_pos (by decide)]
  refine ⟨?_, .inl rfl⟩
  rintro ⟨⟨c, hc, -, hts⟩, -⟩
  cases hc
  exact absurd hts (by decide)

/-- A container that is newer than the last one comes back. -/
theorem returned_run_newer : ∃ s, Run (guarded Delivers (fires step)) bundledBatch (roundTrip 9) s ∧ s.Returned 0 := by
  have hone : Run (guarded Delivers (fires step)) bundledBatch [.dequeue (container 9)] _ :=
    .single ⟨delivers_newer, rfl⟩
  have hrun := (((((((hone.snoc (a := StreamAction.party .countRefs) ⟨rfl, rfl⟩).snoc
    (a := StreamAction.party (.notifyBundled true)) ⟨fun _ => rfl, rfl⟩).snoc
    (a := StreamAction.party (.notifyLinked true)) ⟨fun _ => rfl, rfl⟩).snoc
    (a := StreamAction.party (.notifyApp true)) ⟨fun _ => rfl, rfl⟩).snoc
    (a := StreamAction.party (.consume 0 .receive)) ⟨rfl, rfl⟩).snoc
    (a := StreamAction.party (.consume 0 .check)) ⟨rfl, rfl⟩).snoc
    (a := StreamAction.party (.consume 0 .release)) ⟨rfl, rfl⟩).snoc
    (a := StreamAction.party (.qbuf 0 true)) ⟨rfl, rfl⟩
  refine ⟨_, hrun, (returned_run bundledBatch_initial hrun (by decide)).1 ⟨?_, ?_, ?_⟩⟩
  · decide
  · decide
  · decide

/-- A container with an old time stamp is queued twice: when it is read, and by its consumer. -/
theorem not_returned_stale : ¬ ∀ (s₀ s : Stream) (as : List StreamAction) (b : ℕ), s₀.Initial →
    Run (fires step) s₀ as s → b ∈ s₀.kernel → s.Quiet b → s.Returned b := by
  intro hall
  have hend : (exec (fun _ _ => true) step bundledBatch (roundTrip 8)).map
      (fun s => (s.kernel, s.parties.messages, s.parties.toQueue, s.parties.pollBuf)) =
        some ([1, 0, 0], [], [], none) := by decide
  obtain ⟨s, hs, hfields⟩ := Option.map_eq_some_iff.mp hend
  simp only [Prod.mk.injEq] at hfields
  obtain ⟨hkernel, hmsgs, hqueue, hpoll⟩ := hfields
  have hret := hall bundledBatch s (roundTrip 8) 0 bundledBatch_initial (run_of_exec hs).of_guarded (by decide)
    ⟨by simp [hpoll], by simp [hmsgs], by simp [hqueue]⟩
  have htwice := hret.kernel
  rw [hkernel] at htwice
  exact absurd htwice (by decide)

end Stream

end StreamBufDone

end Marlin
