import Mathlib.Data.List.Count
import Mathlib.Data.List.Perm.Basic
import Marlin.Transition

/-!
# The References to a Stream Buffer

A buffer that a stream dequeues from the kernel is handed to several consumers: the command
thread of the channel that bundles the stream, that of a channel the stream is linked into,
and the stream's own thread, which calls the asynchronous callbacks. Each of them returns it
with `mm_stream_buf_done`, and the call that drops the last reference queues the buffer back
(`mm_stream_qbuf`).

The parties are modelled by the messages under way. A `Message` is one consumer's claim on a
buffer, from the queue it is put in to the end of its `mm_stream_buf_done`; the poll thread
is a program counter in `mm_stream_data_notify` and `mm_stream_handle_rcvd_buf`. A step is a
critical section on `buf_lock` or a queue operation. The user-pointer buffers of a batch
stream go through the same sections in `mm_stream_write_user_buf`; the buffers that it stages
in a batch are left out.

The reference of the linked channel is taken after the bundled channel was notified. When the
bundled consumer is done first and no callback holds a reference, the buffer is back in the
kernel before the linked channel receives it.

## Main results

* `Step.accounted`: a step that does not drop the last reference in that window keeps the
  account of the references.
* `bufDone_after_consumers`: in the runs of such steps, a buffer that goes back to the kernel
  is held by no consumer and will be given to none.
* `linked_after_qbuf`: the run that gives a buffer away which is in the kernel.
-/

namespace Marlin

open List Function Transition

namespace StreamBufDone

/-- `MM_CAMERA_STREAM_BUF_CB_MAX`. -/
def mmCameraStreamBufCbMax : ℕ := 4

/-- The consumers of a stream buffer: the command threads of the bundled and of the linked
channel, the stream's thread that calls the callbacks, and a callback's client. -/
inductive Consumer
  | bundled | linked | app | client
  deriving DecidableEq

/-- How far a consumer is with a message: it is in its queue; it is held, with the callbacks
that are still to be looked at; or it is between the two sections of
`mm_stream_buf_done`. -/
inductive Stage
  | queued | held (callbacks : ℕ) | checked
  deriving DecidableEq

/-- A buffer on its way through a consumer. -/
structure Message where
  consumer : Consumer
  buf : ℕ
  stage : Stage
  deriving DecidableEq

/-- The references that may still be taken with a message. -/
def Message.room (m : Message) : ℕ :=
  match m.stage with
  | .queued => if m.consumer = .app then mmCameraStreamBufCbMax else 0
  | .held n => n
  | .checked => 0

/-- Where the poll thread is with a dequeued buffer and its `has_cb`. -/
inductive PollThread
  /-- Outside of `mm_stream_data_notify`. -/
  | idle
  /-- The buffer was dequeued and the callbacks were looked at. -/
  | read (buf : ℕ) (hasCb : Bool)
  /-- The references were counted. -/
  | counted (buf : ℕ) (hasCb : Bool)
  /-- The bundled channel was notified. -/
  | notified (buf : ℕ) (hasCb : Bool)
  /-- The section for the linked channel is over. -/
  | linked (buf : ℕ) (hasCb : Bool)
  deriving DecidableEq

/-- A streaming stream and its consumers. `refcnt` is `buf_refcnt` of each buffer, a
`uint8_t`; `inKernel` says which buffers the kernel has; `toQueue` are the buffers whose
`mm_stream_qbuf` is under way. -/
structure Parties where
  isBundled : Bool
  isLinked : Bool
  inKernel : ℕ → Bool
  refcnt : ℕ → ℕ := fun _ => 0
  poll : PollThread := .idle
  messages : List Message := []
  toQueue : List ℕ := []

/-- What a consumer does with a message. -/
inductive Consume
  /-- The message is taken out of the queue. -/
  | receive
  /-- A callback slot without a callback is passed. -/
  | skipCallback
  /-- A callback is called, with a reference of its own. -/
  | callback
  /-- The first section of `mm_stream_buf_done`. -/
  | check
  /-- The second section, which drops the reference. -/
  | release
  deriving DecidableEq

/-- The steps of the parties. Notifications fail without memory, and that of the stream's
thread also when the thread is not active. -/
inductive Action
  | dataNotify (buf : ℕ) (hasCb : Bool)
  | countRefs
  | notifyBundled (ok : Bool)
  | notifyLinked (ok : Bool)
  | notifyApp (ok : Bool)
  | consume (k : ℕ) (what : Consume)
  | qbuf (k : ℕ) (ok : Bool)
  deriving DecidableEq

namespace Parties

/-- A consumer's message is added. -/
def notify (s : Parties) (sent : Bool) (consumer : Consumer) (buf : ℕ) : Parties :=
  { s with messages := if sent then s.messages ++ [⟨consumer, buf, .queued⟩] else s.messages }

/-- `buf_refcnt` of a buffer is set. -/
def setRefcnt (s : Parties) (buf refcnt : ℕ) : Parties :=
  { s with refcnt := Function.update s.refcnt buf (refcnt % 256) }

/-- The `k`-th message is at another stage. -/
def setStage (s : Parties) (k : ℕ) (m : Message) (stage : Stage) : Parties :=
  { s with messages := s.messages.set k { m with stage := stage } }

/-- The holder of message `k` calls a callback, which takes a reference of its own. -/
def callback (s : Parties) (k : ℕ) (m : Message) (callbacks : ℕ) : Parties :=
  let s := s.setRefcnt m.buf (s.refcnt m.buf + 1)
  let s := s.setStage k m (.held callbacks)
  { s with messages := s.messages ++ [⟨.client, m.buf, .held 0⟩] }

/-- The last section of `mm_stream_buf_done`. -/
def release (s : Parties) (k : ℕ) (m : Message) : Parties :=
  let s := s.setRefcnt m.buf (s.refcnt m.buf + 255)
  { s with
    messages := s.messages.eraseIdx k
    toQueue := if s.refcnt m.buf = 0 then s.toQueue ++ [m.buf] else s.toQueue }

/-- What a consumer does with message `k`. The callbacks are called by the stream's thread
only. -/
def consume (s : Parties) (k : ℕ) (m : Message) : Consume → Option Parties
  | .receive =>
    if m.stage = .queued then
      some (s.setStage k m (.held (if m.consumer = .app then mmCameraStreamBufCbMax else 0)))
    else none
  | .skipCallback =>
    match m.stage with
    | .held (n + 1) => some (s.setStage k m (.held n))
    | _ => none
  | .callback =>
    match m.stage with
    | .held (n + 1) => some (s.callback k m n)
    | _ => none
  | .check =>
    if m.stage = .held 0 then
      if s.refcnt m.buf = 0 then some { s with messages := s.messages.eraseIdx k }
      else some (s.setStage k m .checked)
    else none
  | .release => if m.stage = .checked then some (s.release k m) else none

/-- A step of the parties. -/
def step (s : Parties) : Action → Option Parties
  | .dataNotify buf hasCb =>
    if s.poll = .idle ∧ s.inKernel buf = true then
      some { s with
        inKernel := Function.update s.inKernel buf false
        poll := .read buf hasCb }
    else none
  | .countRefs =>
    match s.poll with
    | .read buf hasCb =>
      some { s.setRefcnt buf (s.refcnt buf + s.isBundled.toNat + hasCb.toNat) with
        poll := .counted buf hasCb }
    | _ => none
  | .notifyBundled ok =>
    match s.poll with
    | .counted buf hasCb =>
      some { s.notify (s.isBundled && ok) .bundled buf with poll := .notified buf hasCb }
    | _ => none
  | .notifyLinked ok =>
    match s.poll with
    | .notified buf hasCb =>
      if s.isLinked then
        some { (s.setRefcnt buf (s.refcnt buf + 1)).notify ok .linked buf with
          poll := .linked buf hasCb }
      else some { s with poll := .linked buf hasCb }
    | _ => none
  | .notifyApp ok =>
    match s.poll with
    | .linked buf hasCb => some { s.notify (hasCb && ok) .app buf with poll := .idle }
    | _ => none
  | .consume k what =>
    match s.messages[k]? with
    | some m => s.consume k m what
    | none => none
  | .qbuf k ok =>
    match s.toQueue[k]? with
    | some buf =>
      some { s with
        toQueue := s.toQueue.eraseIdx k
        inKernel := if ok then Function.update s.inKernel buf true else s.inKernel }
    | none => none

/-- The poll thread is about to notify a consumer of the buffer. -/
def willNotify (s : Parties) (b : ℕ) : Prop :=
  match s.poll with
  | .idle => False
  | .read buf hasCb | .counted buf hasCb =>
    buf = b ∧ (s.isBundled = true ∨ s.isLinked = true ∨ hasCb = true)
  | .notified buf hasCb => buf = b ∧ (s.isLinked = true ∨ hasCb = true)
  | .linked buf hasCb => buf = b ∧ hasCb = true

/-- The poll thread is between the notification of the bundled channel and the section that
takes the reference of the linked channel. -/
def inWindow (s : Parties) (b : ℕ) : Bool :=
  match s.poll with
  | .notified buf _ => s.isLinked && buf == b
  | _ => false

/-- The step does not drop the last reference to a buffer in the window. -/
def sparesWindow (s : Parties) : Action → Bool
  | .consume k .release =>
    match s.messages[k]? with
    | some m => !(s.refcnt m.buf == 1 && s.inWindow m.buf)
    | none => true
  | _ => true

/-- The parties before the first buffer is dequeued. -/
structure Initial (s : Parties) : Prop where
  refcnt : ∀ b, s.refcnt b = 0
  poll : s.poll = .idle
  messages : s.messages = []
  toQueue : s.toQueue = []

/-! ### The account of the references -/

/-- The weight of the messages for a buffer. -/
def weigh (w : Message → ℕ) (b : ℕ) (l : List Message) : ℕ :=
  (l.map fun m => if m.buf = b then w m else 0).sum

theorem weigh_append (w : Message → ℕ) (b : ℕ) (l : List Message) (m : Message) :
    weigh w b (l ++ [m]) = weigh w b l + if m.buf = b then w m else 0 := by
  simp [weigh]

variable {l : List Message} {k : ℕ} {m : Message}

theorem weigh_set (w : Message → ℕ) (b : ℕ) (hk : l[k]? = some m) (m' : Message) :
    weigh w b (l.set k m') + (if m.buf = b then w m else 0) = weigh w b l + if m'.buf = b then w m' else 0 := by
  obtain ⟨hlt, hm⟩ := List.getElem?_eq_some_iff.mp hk
  have hl : l = l.take k ++ m :: l.drop (k + 1) := by
    rw [← hm, getElem_cons_drop, take_append_drop]
  have hset : l.set k m' = l.take k ++ m' :: l.drop (k + 1) :=
    set_eq_take_append_cons_drop.trans (if_pos hlt)
  have hsum : weigh w b l = weigh w b (l.take k ++ m :: l.drop (k + 1)) := congrArg _ hl
  rw [hset, hsum]
  simp only [weigh, map_append, map_cons, sum_append, sum_cons]
  omega

theorem weigh_eraseIdx (w : Message → ℕ) (b : ℕ) (hk : l[k]? = some m) :
    weigh w b (l.eraseIdx k) + (if m.buf = b then w m else 0) = weigh w b l := by
  obtain ⟨hlt, hm⟩ := List.getElem?_eq_some_iff.mp hk
  have hl : l = l.take k ++ m :: l.drop (k + 1) := by
    rw [← hm, getElem_cons_drop, take_append_drop]
  have hsum : weigh w b l = weigh w b (l.take k ++ m :: l.drop (k + 1)) := congrArg _ hl
  rw [eraseIdx_eq_take_drop_succ, hsum]
  simp only [weigh, map_append, map_cons, sum_append, sum_cons]
  omega

/-- The number of messages for a buffer. -/
def messageCount (b : ℕ) (l : List Message) : ℕ := weigh (fun _ => 1) b l

variable {b : ℕ}

theorem weigh_eq_zero (w : Message → ℕ) (h : messageCount b l = 0) : weigh w b l = 0 := by
  induction l with
  | nil => rfl
  | cons m l ih =>
    simp only [messageCount, weigh, map_cons, sum_cons] at h ih ⊢
    by_cases hm : m.buf = b
    · rw [if_pos hm] at h
      omega
    · rw [if_neg hm] at h ⊢
      have hrest := ih (by omega)
      omega

theorem one_le_messageCount (hk : l[k]? = some m) : 1 ≤ messageCount m.buf l := by
  have h := weigh_eraseIdx (fun _ => 1) m.buf hk
  rw [if_pos rfl] at h
  simp only [messageCount]
  omega

theorem buf_ne_of_messageCount (h : messageCount b l = 0) : ∀ m ∈ l, m.buf ≠ b := by
  rintro m hm rfl
  obtain ⟨k, hk⟩ := mem_iff_getElem?.mp hm
  have := one_le_messageCount hk
  omega

/-- The references counted for notifications that are still to be made. -/
def pending (s : Parties) (b : ℕ) : ℕ :=
  match s.poll with
  | .counted buf hasCb => if buf = b then s.isBundled.toNat + hasCb.toNat else 0
  | .notified buf hasCb | .linked buf hasCb => if buf = b then hasCb.toNat else 0
  | _ => 0

/-- The references that may still be taken because of the poll thread. -/
def pollRoom (s : Parties) (b : ℕ) : ℕ :=
  match s.poll with
  | .idle => 0
  | .read buf _ => if buf = b then mmCameraStreamBufCbMax + 3 else 0
  | .counted buf _ | .notified buf _ => if buf = b then mmCameraStreamBufCbMax + 1 else 0
  | .linked buf _ => if buf = b then mmCameraStreamBufCbMax else 0

/-- The poll thread has the buffer and has notified nobody of it. -/
def isFresh (s : Parties) (b : ℕ) : Prop :=
  match s.poll with
  | .read buf _ | .counted buf _ => buf = b
  | _ => False

/-- The account of the references to a buffer: they cover the messages and the notifications
still to be made, there are at most seven, and a buffer on its way back to the kernel has
none and will be given to nobody. -/
structure Accounted (s : Parties) (b : ℕ) : Prop where
  refs : messageCount b s.messages + s.pending b ≤ s.refcnt b
  room : s.refcnt b + weigh Message.room b s.messages + s.pollRoom b ≤ mmCameraStreamBufCbMax + 3
  fresh : s.isFresh b → messageCount b s.messages = 0
  away : s.inKernel b = true ∨ b ∈ s.toQueue → s.refcnt b = 0 ∧ ¬ s.willNotify b
  once : s.toQueue.count b + (s.inKernel b).toNat ≤ 1

variable {s : Parties}

/-- The account at the start. -/
theorem Initial.accounted (h : s.Initial) (b : ℕ) : s.Accounted b := by
  obtain ⟨hcnt, hpoll, hmsg, hq⟩ := h
  constructor
  · simp [messageCount, weigh, hmsg, pending, hpoll]
  · simp [weigh, hmsg, pollRoom, hpoll, hcnt, mmCameraStreamBufCbMax]
  · simp [isFresh, hpoll]
  · simp [hcnt, willNotify, hpoll]
  · simp [hq, Bool.toNat_le]

theorem Accounted.of_message (h : s.Accounted m.buf) (hk : s.messages[k]? = some m) :
    1 ≤ s.refcnt m.buf ∧ ¬ s.isFresh m.buf ∧ s.inKernel m.buf = false ∧ m.buf ∉ s.toQueue := by
  have hone := one_le_messageCount hk
  have hrefs := h.refs
  refine ⟨by omega, fun hf => ?_, ?_, fun hq => ?_⟩
  · have := h.fresh hf
    omega
  · by_contra hin
    have := (h.away (Or.inl (by simpa using hin))).1
    omega
  · have := (h.away (Or.inr hq)).1
    omega

theorem Accounted.setStage {stage : Stage} (h : s.Accounted b) (hk : s.messages[k]? = some m)
    (hroom : { m with stage := stage }.room ≤ m.room) : (s.setStage k m stage).Accounted b := by
  have hrefs := weigh_set (fun _ => 1) b hk { m with stage := stage }
  have hweigh := weigh_set Message.room b hk { m with stage := stage }
  have hle := h.room
  have hsame : messageCount b (s.messages.set k { m with stage := stage }) = messageCount b s.messages := by
    simp only [messageCount]
    split at hrefs <;> omega
  refine ⟨hsame ▸ h.refs, ?_, fun hf => hsame ▸ h.fresh hf, h.away, h.once⟩
  change s.refcnt b + weigh Message.room b (s.messages.set k { m with stage := stage }) + s.pollRoom b ≤ _
  split at hweigh <;> omega

/-! ### The steps of the poll thread -/

variable {s' : Parties}

theorem Accounted.dataNotify {buf : ℕ} {hasCb : Bool}
    (h : s.Accounted b) (hstep : s.step (.dataNotify buf hasCb) = some s') :
    s'.Accounted b := by
  simp only [step] at hstep
  split at hstep
  · rename_i hpre
    obtain ⟨hidle, hin⟩ := hpre
    cases hstep
    obtain ⟨hrefs, hroom, hfresh, haway, honce⟩ := h
    by_cases hb : buf = b
    · subst hb
      obtain ⟨hcnt, -⟩ := haway (Or.inl hin)
      have hnone : messageCount buf s.messages = 0 := by omega
      have hweigh := weigh_eq_zero Message.room hnone
      rw [hin] at honce
      have hqueue : buf ∉ s.toQueue := by
        intro hq
        have hpos := count_pos_iff.mpr hq
        simp only [Bool.toNat_true] at honce
        omega
      constructor
      · simp [pending, hnone]
      · simp [pollRoom, hcnt, hweigh]
      · exact fun _ => hnone
      · simp [hqueue]
      · simp only [Bool.toNat_true] at honce
        simp
        omega
    · have hin' : update s.inKernel buf false b = s.inKernel b :=
        update_of_ne (Ne.symm hb) _ _
      simp only [pending, pollRoom, isFresh, willNotify, hidle] at hrefs hroom hfresh haway
      constructor
      · simpa [pending] using hrefs
      · simpa [pollRoom, hb] using hroom
      · exact fun hf => absurd hf hb
      · simp only [willNotify, hin', hb, false_and, not_false_iff, and_true]
        exact fun h => (haway h).1
      · simpa only [hin'] using honce
  · cases hstep

theorem Accounted.countRefs (h : s.Accounted b) (hstep : s.step .countRefs = some s') : s'.Accounted b := by
  simp only [step] at hstep
  split at hstep
  · rename_i buf hasCb hpoll
    cases hstep
    obtain ⟨hrefs, hroom, hfresh, haway, honce⟩ := h
    simp only [pending, pollRoom, isFresh, willNotify, hpoll] at hrefs hroom hfresh haway
    have hbundled := Bool.toNat_le s.isBundled
    have hcb := Bool.toNat_le hasCb
    by_cases hb : buf = b
    · subst hb
      rw [if_pos rfl] at hroom
      have hnone := hfresh rfl
      have hcnt : s.refcnt buf = 0 := by omega
      have hset : (s.refcnt buf + s.isBundled.toNat + hasCb.toNat) % 256 = s.isBundled.toNat + hasCb.toNat := by
        rw [hcnt]
        omega
      constructor
      · simp [pending, setRefcnt, hset, hnone]
      · simp only [setRefcnt, update_self, hset, pollRoom, if_true]
        omega
      · exact fun _ => hnone
      · intro hback
        obtain ⟨-, hno⟩ := haway hback
        simp only [true_and, not_or, Bool.not_eq_true] at hno
        obtain ⟨hnb, hnl, hnc⟩ := hno
        simp [setRefcnt, willNotify, hnb, hnl, hnc, hcnt]
      · exact honce
    · have hset : ∀ v, update s.refcnt buf v b = s.refcnt b :=
        fun v => update_of_ne (Ne.symm hb) _ _
      simp only [if_neg hb] at hroom
      constructor
      · simpa [pending, setRefcnt, hset, hb] using hrefs
      · simpa [pollRoom, setRefcnt, hset, hb] using hroom
      · exact fun hf => absurd hf hb
      · simpa [willNotify, setRefcnt, hset, hb] using haway
      · exact honce
  · cases hstep

theorem weigh_notify (w : Message → ℕ) (s : Parties) (sent : Bool) (consumer : Consumer) (buf b : ℕ) :
    weigh w b (s.notify sent consumer buf).messages = weigh w b s.messages +
      if sent = true ∧ buf = b then w ⟨consumer, buf, .queued⟩ else 0 := by
  cases sent with
  | false => simp [notify]
  | true =>
    simp only [notify, if_true, weigh_append, true_and]

variable {ok : Bool}

theorem Accounted.notifyBundled (h : s.Accounted b)
    (hstep : s.step (.notifyBundled ok) = some s') : s'.Accounted b := by
  simp only [step] at hstep
  split at hstep
  · rename_i buf hasCb hpoll
    cases hstep
    obtain ⟨hrefs, hroom, hfresh, haway, honce⟩ := h
    have hcount := weigh_notify (fun _ => 1) s (s.isBundled && ok) .bundled buf b
    have hweigh := weigh_notify Message.room s (s.isBundled && ok) .bundled buf b
    simp only [pending, pollRoom, isFresh, willNotify, hpoll] at hrefs hroom hfresh haway
    have hsent : (s.isBundled && ok) = true → s.isBundled.toNat = 1 := by
      cases s.isBundled <;> simp
    have hzero : Message.room ⟨.bundled, buf, .queued⟩ = 0 := rfl
    constructor
    · simp only [messageCount, pending] at hrefs ⊢
      change weigh _ b (s.notify _ _ _).messages + _ ≤ s.refcnt b
      rw [hcount]
      by_cases hb : buf = b
      · simp only [if_pos hb] at hrefs ⊢
        split
        · rename_i hs
          have := hsent hs.1
          omega
        · omega
      · simp only [if_neg hb] at hrefs ⊢
        rw [if_neg fun h => hb h.2]
        omega
    · simp only [pollRoom]
      change s.refcnt b + weigh _ b (s.notify _ _ _).messages + _ ≤ _
      rw [hweigh, hzero, ite_self]
      exact hroom
    · exact fun hf => absurd hf id
    · intro hback
      obtain ⟨hcnt, hno⟩ := haway hback
      exact ⟨hcnt, fun hw => hno ⟨hw.1, Or.inr hw.2⟩⟩
    · exact honce
  · cases hstep

theorem Accounted.notifyLinked (h : s.Accounted b) (hstep : s.step (.notifyLinked ok) = some s') : s'.Accounted b := by
  simp only [step] at hstep
  split at hstep
  · rename_i buf hasCb hpoll
    obtain ⟨hrefs, hroom, hfresh, haway, honce⟩ := h
    simp only [pending, pollRoom, isFresh, willNotify, hpoll] at hrefs hroom hfresh haway
    split at hstep
    · rename_i hlinked
      cases hstep
      set s₁ := s.setRefcnt buf (s.refcnt buf + 1) with h₁
      have hmsgs : s₁.messages = s.messages := rfl
      have hcount := weigh_notify (fun _ => 1) s₁ ok .linked buf b
      have hweigh := weigh_notify Message.room s₁ ok .linked buf b
      have hzero : Message.room ⟨.linked, buf, .queued⟩ = 0 := rfl
      rw [hmsgs] at hcount
      rw [hmsgs, hzero, ite_self] at hweigh
      by_cases hb : buf = b
      · subst hb
        rw [if_pos rfl] at hrefs hroom
        have hcnt : s₁.refcnt buf = s.refcnt buf + 1 := by
          simp only [h₁, setRefcnt, update_self, mmCameraStreamBufCbMax] at hroom ⊢
          omega
        constructor
        · simp only [messageCount, pending, if_true] at hrefs ⊢
          change weigh _ buf (s₁.notify _ _ _).messages + _ ≤ s₁.refcnt buf
          rw [hcount, hcnt]
          split <;> omega
        · simp only [pollRoom, if_true]
          change s₁.refcnt buf + weigh _ buf (s₁.notify _ _ _).messages + _ ≤ _
          rw [hweigh, hcnt]
          omega
        · exact fun hf => absurd hf id
        · intro hback
          exact absurd ⟨rfl, Or.inl hlinked⟩ (haway hback).2
        · exact honce
      · have hcnt : s₁.refcnt b = s.refcnt b := update_of_ne (Ne.symm hb) _ _
        rw [if_neg hb] at hrefs hroom
        rw [if_neg fun h => hb h.2] at hcount
        constructor
        · simp only [messageCount, pending, if_neg hb] at hrefs ⊢
          change weigh _ b (s₁.notify _ _ _).messages + _ ≤ s₁.refcnt b
          rw [hcount, hcnt]
          omega
        · simp only [pollRoom, if_neg hb]
          change s₁.refcnt b + weigh _ b (s₁.notify _ _ _).messages + _ ≤ _
          rw [hweigh, hcnt]
          omega
        · exact fun hf => absurd hf id
        · intro hback
          exact ⟨hcnt.trans (haway hback).1, fun hw => hb hw.1⟩
        · exact honce
    · rename_i hlinked
      cases hstep
      refine ⟨hrefs, ?_, fun hf => absurd hf id, fun hback => ?_, honce⟩
      · simp only [pollRoom]
        by_cases hb : buf = b
        · simp only [if_pos hb] at hroom ⊢
          omega
        · simp only [if_neg hb] at hroom ⊢
          exact hroom
      · obtain ⟨hcnt, hno⟩ := haway hback
        exact ⟨hcnt, fun hw => hno ⟨hw.1, Or.inr hw.2⟩⟩
  · cases hstep

theorem Accounted.notifyApp (h : s.Accounted b) (hstep : s.step (.notifyApp ok) = some s') : s'.Accounted b := by
  simp only [step] at hstep
  split at hstep
  · rename_i buf hasCb hpoll
    cases hstep
    obtain ⟨hrefs, hroom, hfresh, haway, honce⟩ := h
    have hcount := weigh_notify (fun _ => 1) s (hasCb && ok) .app buf b
    have hweigh := weigh_notify Message.room s (hasCb && ok) .app buf b
    simp only [pending, pollRoom, isFresh, willNotify, hpoll] at hrefs hroom hfresh haway
    have hsent : (hasCb && ok) = true → hasCb.toNat = 1 := by cases hasCb <;> simp
    have happ : Message.room ⟨.app, buf, .queued⟩ = mmCameraStreamBufCbMax := rfl
    constructor
    · simp only [messageCount, pending] at hrefs ⊢
      change weigh _ b (s.notify _ _ _).messages + _ ≤ s.refcnt b
      rw [hcount]
      by_cases hb : buf = b
      · simp only [if_pos hb] at hrefs
        split
        · rename_i hs
          have := hsent hs.1
          omega
        · omega
      · simp only [if_neg hb] at hrefs
        rw [if_neg fun h => hb h.2]
        omega
    · simp only [pollRoom]
      change s.refcnt b + weigh _ b (s.notify _ _ _).messages + _ ≤ _
      rw [hweigh, happ]
      by_cases hb : buf = b
      · simp only [if_pos hb] at hroom
        split <;> omega
      · simp only [if_neg hb] at hroom
        rw [if_neg fun h => hb h.2]
        omega
    · exact fun hf => absurd hf id
    · intro hback
      exact ⟨(haway hback).1, id⟩
    · exact honce
  · cases hstep

/-! ### The steps of the consumers -/

theorem setRefcnt_of_ne (s : Parties) {buf : ℕ} (h : buf ≠ b) (refcnt : ℕ) :
    (s.setRefcnt buf refcnt).refcnt b = s.refcnt b :=
  update_of_ne (Ne.symm h) _ _

/-- A callback is called with a reference of its own. -/
theorem Accounted.callback {n : ℕ}
    (h : ∀ b, s.Accounted b) (hk : s.messages[k]? = some m) (hm : m.stage = .held (n + 1)) :
    (s.callback k m n).Accounted b := by
  have hmroom : m.room = n + 1 := by simp only [Message.room, hm]
  have hset := weigh_set (fun _ => 1) b hk { m with stage := .held n }
  have hweigh := weigh_set Message.room b hk { m with stage := .held n }
  have hmsgs : (s.callback k m n).messages =
      s.messages.set k { m with stage := .held n } ++ [⟨.client, m.buf, .held 0⟩] := rfl
  have hcount' := weigh_append (fun _ => 1) b (s.messages.set k { m with stage := .held n }) ⟨.client, m.buf, .held 0⟩
  have hweigh' := weigh_append Message.room b (s.messages.set k { m with stage := .held n }) ⟨.client, m.buf, .held 0⟩
  rw [← hmsgs] at hcount' hweigh'
  obtain ⟨hrefs, hroom, hfresh, haway, honce⟩ := h b
  by_cases hb : m.buf = b
  · subst hb
    obtain ⟨hpos, hnf, hin, hq⟩ := (h m.buf).of_message hk
    have hnew : Message.room { m with stage := .held n } = n := rfl
    have hclient : Message.room ⟨.client, m.buf, .held 0⟩ = 0 := rfl
    simp only [if_true, hnew, hclient, hmroom] at hset hweigh hcount' hweigh'
    have hcnt : (s.callback k m n).refcnt m.buf = s.refcnt m.buf + 1 := by
      simp only [mmCameraStreamBufCbMax] at hroom
      change update s.refcnt m.buf ((s.refcnt m.buf + 1) % 256) m.buf = _
      rw [update_self]
      omega
    constructor
    · change messageCount _ _ + s.pending m.buf ≤ _
      simp only [messageCount] at hrefs ⊢
      omega
    · change _ + weigh _ _ (s.callback k m n).messages + s.pollRoom m.buf ≤ _
      omega
    · exact fun hf => absurd hf hnf
    · rintro (hin' | hq')
      · exact absurd (hin'.symm.trans hin) Bool.noConfusion
      · exact absurd hq' hq
    · exact honce
  · simp only [if_neg hb, Nat.add_zero] at hset hweigh hcount' hweigh'
    have hcnt : (s.callback k m n).refcnt b = s.refcnt b := s.setRefcnt_of_ne hb _
    have hsame : messageCount b (s.callback k m n).messages = messageCount b s.messages := by
      simp only [messageCount]
      omega
    constructor
    · rw [hsame, hcnt]
      exact hrefs
    · change _ + weigh _ b (s.callback k m n).messages + s.pollRoom b ≤ _
      omega
    · rw [hsame]
      exact hfresh
    · rw [hcnt]
      exact haway
    · exact honce

theorem Accounted.release (h : ∀ b, s.Accounted b) (hk : s.messages[k]? = some m)
    (hspare : s.refcnt m.buf = 1 → s.inWindow m.buf = false) :
    (s.release k m).Accounted b := by
  have hcount := weigh_eraseIdx (fun _ => 1) b hk
  have hweigh := weigh_eraseIdx Message.room b hk
  have hmsgs : (s.release k m).messages = s.messages.eraseIdx k := rfl
  rw [← hmsgs] at hcount hweigh
  obtain ⟨hrefs, hroom, hfresh, haway, honce⟩ := h b
  by_cases hb : m.buf = b
  · subst hb
    obtain ⟨hpos, hnf, hin, hq⟩ := (h m.buf).of_message hk
    simp only [if_true] at hcount hweigh
    have hcnt : (s.release k m).refcnt m.buf = s.refcnt m.buf - 1 := by
      simp only [mmCameraStreamBufCbMax] at hroom
      change update s.refcnt m.buf ((s.refcnt m.buf + 255) % 256) m.buf = _
      rw [update_self]
      omega
    have hqueue : (s.release k m).toQueue =
        if (s.release k m).refcnt m.buf = 0 then s.toQueue ++ [m.buf] else s.toQueue := rfl
    have hkernel : (s.release k m).inKernel m.buf = false := hin
    constructor
    · change messageCount _ _ + s.pending m.buf ≤ _
      simp only [messageCount] at hrefs ⊢
      omega
    · change _ + weigh _ _ (s.release k m).messages + s.pollRoom m.buf ≤ _
      omega
    · exact fun hf => absurd hf hnf
    · rintro (hin' | hq')
      · exact absurd (hin'.symm.trans hkernel) Bool.noConfusion
      rw [hqueue] at hq'
      split at hq'
      · rename_i hzero
        have hone : s.refcnt m.buf = 1 := by omega
        have hwin := hspare hone
        have hnone : s.pending m.buf = 0 := by
          have := one_le_messageCount hk
          omega
        refine ⟨hzero, fun hw => ?_⟩
        change s.willNotify m.buf at hw
        simp only [willNotify, inWindow, pending, isFresh] at hw hwin hnone hnf
        split at hw <;> simp_all
      · exact absurd hq' hq
    · rw [hqueue, hkernel]
      have hnone := count_eq_zero.mpr hq
      split <;> simp [hnone]
  · simp only [if_neg hb, Nat.add_zero] at hcount hweigh
    have hcnt : (s.release k m).refcnt b = s.refcnt b := s.setRefcnt_of_ne hb _
    have hsame : messageCount b (s.release k m).messages = messageCount b s.messages := hcount
    have hqueue : (s.release k m).toQueue.count b = s.toQueue.count b := by
      change count b (if _ then s.toQueue ++ [m.buf] else s.toQueue) = _
      split
      · rw [count_append, count_singleton, if_neg (by simpa using hb), Nat.add_zero]
      · rfl
    have hmem : b ∈ (s.release k m).toQueue ↔ b ∈ s.toQueue := by
      rw [← count_pos_iff, hqueue, count_pos_iff]
    constructor
    · rw [hsame, hcnt]
      exact hrefs
    · change _ + weigh _ b (s.release k m).messages + s.pollRoom b ≤ _
      omega
    · rw [hsame]
      exact hfresh
    · rw [hcnt, hmem]
      exact haway
    · rw [hqueue]
      exact honce

/-- What a consumer does keeps the account. -/
theorem Accounted.consume {what : Consume} (h : ∀ b, s.Accounted b) (hk : s.messages[k]? = some m)
    (hspare : what = .release → s.refcnt m.buf = 1 → s.inWindow m.buf = false)
    (hstep : s.consume k m what = some s') : s'.Accounted b := by
  cases what with
  | receive =>
    simp only [Parties.consume] at hstep
    split at hstep
    · rename_i hm
      cases hstep
      refine (h b).setStage hk ?_
      simp [Message.room, hm]
    · cases hstep
  | skipCallback =>
    simp only [Parties.consume] at hstep
    split at hstep
    · rename_i n hm
      cases hstep
      refine (h b).setStage hk ?_
      simp [Message.room, hm]
    · cases hstep
  | callback =>
    simp only [Parties.consume] at hstep
    split at hstep
    · rename_i n hm
      cases hstep
      exact Accounted.callback h hk hm
    · cases hstep
  | check =>
    simp only [Parties.consume] at hstep
    split at hstep
    · rename_i hm
      obtain ⟨hpos, -⟩ := (h m.buf).of_message hk
      rw [if_neg (by omega)] at hstep
      cases hstep
      refine (h b).setStage hk ?_
      simp [Message.room]
    · cases hstep
  | release =>
    simp only [Parties.consume] at hstep
    split at hstep
    · cases hstep
      exact Accounted.release h hk (hspare rfl)
    · cases hstep

/-- `mm_stream_qbuf` gives the buffer to the kernel, or fails. -/
theorem Accounted.qbuf (h : s.Accounted b) (hstep : s.step (.qbuf k ok) = some s') : s'.Accounted b := by
  simp only [step] at hstep
  split at hstep
  · rename_i buf hk
    cases hstep
    obtain ⟨hrefs, hroom, hfresh, haway, honce⟩ := h
    have hmem : buf ∈ s.toQueue := mem_of_getElem? hk
    by_cases hb : buf = b
    · subst hb
      have hcount := count_pos_iff.mpr hmem
      obtain ⟨hlt, hget⟩ := List.getElem?_eq_some_iff.mp hk
      have herase : s.toQueue.count buf = (s.toQueue.eraseIdx k).count buf + 1 := by
        rw [← (getElem_cons_eraseIdx_perm hlt).count_eq, hget, count_cons_self]
      refine ⟨hrefs, hroom, hfresh, fun _ => haway (Or.inr hmem), ?_⟩
      refine Nat.le_trans (Nat.add_le_add_left (Bool.toNat_le _) _) ?_
      change (s.toQueue.eraseIdx k).count buf + 1 ≤ 1
      omega
    · have hin : (if ok = true then update s.inKernel buf true else s.inKernel) b = s.inKernel b := by
        cases ok
        · rfl
        · exact update_of_ne (Ne.symm hb) _ _
      refine ⟨hrefs, hroom, hfresh, ?_, ?_⟩
      · simp only [hin]
        rintro (hin' | hq)
        · exact haway (Or.inl hin')
        · exact haway (Or.inr (mem_of_mem_eraseIdx hq))
      · simp only [hin]
        have := (eraseIdx_sublist s.toQueue k).count_le b
        omega
  · cases hstep

/-- **A step that spares the window keeps the account of every buffer.** -/
theorem Step.accounted {a : Action} (h : ∀ b, s.Accounted b)
    (hG : s.sparesWindow a = true) (hstep : s.step a = some s') (b : ℕ) : s'.Accounted b := by
  cases a with
  | dataNotify buf hasCb => exact (h b).dataNotify hstep
  | countRefs => exact (h b).countRefs hstep
  | notifyBundled ok => exact (h b).notifyBundled hstep
  | notifyLinked ok => exact (h b).notifyLinked hstep
  | notifyApp ok => exact (h b).notifyApp hstep
  | consume k what =>
    simp only [step] at hstep
    split at hstep
    · rename_i m hk
      refine Accounted.consume h hk ?_ hstep
      rintro rfl hone
      simp only [sparesWindow, hk, hone] at hG
      simpa using hG
    · cases hstep
  | qbuf k ok => exact (h b).qbuf hstep

end Parties

open Parties

/-- **A buffer goes back to the kernel after its consumers are done with it.** In every run
in which no `mm_stream_buf_done` drops the last reference in the window before the linked
channel's reference is taken, a buffer that the kernel has, or that is on its way there, is
held by no consumer and will be given to none. -/
theorem bufDone_after_consumers {s₀ s : Parties} {as : List Action} {b : ℕ} (h₀ : s₀.Initial)
    (hrun : Run (guarded (fun s a => s.sparesWindow a = true) (fires Parties.step)) s₀ as s)
    (hb : s.inKernel b = true ∨ b ∈ s.toQueue) :
    (∀ m ∈ s.messages, m.buf ≠ b) ∧ ¬ s.willNotify b := by
  have hall : ∀ b, s.Accounted b :=
    hrun.invariant (I := fun s => ∀ b, s.Accounted b)
      (fun _ _ _ hI hstep => Step.accounted hI hstep.1 hstep.2) h₀.accounted
  obtain ⟨hcnt, hno⟩ := (hall b).away hb
  have hrefs := (hall b).refs
  exact ⟨buf_ne_of_messageCount (by omega), hno⟩

/-- Two buffers of a stream that is bundled and linked; its kernel has them both. -/
def bothChannels : Parties :=
  { isBundled := true, isLinked := true, inKernel := fun b => b < 2 }

/-- Both channels' consumers are notified of a buffer before one of them returns it. -/
theorem bufDone_after_consumers_sample :
    ∃ s, Run (guarded (fun s a => s.sparesWindow a = true) (fires Parties.step)) bothChannels
        [.dataNotify 0 false, .countRefs, .notifyBundled true, .consume 0 .receive,
          .notifyLinked true, .notifyApp true, .dataNotify 1 true, .consume 0 .check,
          .consume 0 .release, .consume 0 .receive, .consume 0 .check, .consume 0 .release] s ∧
      0 ∈ s.toQueue ∧ (∀ m ∈ s.messages, m.buf ≠ 0) ∧ ¬ s.willNotify 0 := by
  have hret : (exec Parties.sparesWindow Parties.step bothChannels
      [.dataNotify 0 false, .countRefs, .notifyBundled true, .consume 0 .receive,
        .notifyLinked true, .notifyApp true, .dataNotify 1 true, .consume 0 .check,
        .consume 0 .release, .consume 0 .receive, .consume 0 .check,
        .consume 0 .release]).map Parties.toQueue = some [0] := by decide
  obtain ⟨s, hs, hq⟩ := Option.map_eq_some_iff.mp hret
  have hrun := run_of_exec hs
  have hmem : 0 ∈ s.toQueue := hq ▸ mem_singleton_self 0
  exact ⟨s, hrun, hmem, bufDone_after_consumers ⟨fun _ => rfl, rfl, rfl, rfl⟩ hrun (Or.inr hmem)⟩

/-- The bundled consumer returns the only reference before the linked channel's is taken: the
buffer is in the kernel when the linked channel is notified of it. -/
theorem linked_after_qbuf : ¬ ∀ (s₀ s : Parties) (as : List Action) (b : ℕ), s₀.Initial → s₀.isBundled = true →
      s₀.isLinked = true → Run (fires Parties.step) s₀ as s →
      s.inKernel b = true → (∀ m ∈ s.messages, m.buf ≠ b) ∧ ¬ s.willNotify b := by
  intro hall
  have hret : (exec (fun _ _ => true) Parties.step bothChannels
      [.dataNotify 0 false, .countRefs, .notifyBundled true, .consume 0 .receive,
        .consume 0 .check, .consume 0 .release, .qbuf 0 true, .notifyLinked true]).map
      (fun s => (s.inKernel 0, s.messages)) = some (true, [⟨.linked, 0, .queued⟩]) := by decide
  obtain ⟨s, hs, hend⟩ := Option.map_eq_some_iff.mp hret
  obtain ⟨hin, hmsgs⟩ := Prod.mk.inj hend
  obtain ⟨hnone, -⟩ := hall bothChannels s _ 0 ⟨fun _ => rfl, rfl, rfl, rfl⟩ rfl rfl (run_of_exec hs).of_guarded hin
  exact hnone ⟨.linked, 0, .queued⟩ (hmsgs ▸ mem_singleton_self _) rfl

end StreamBufDone

end Marlin
