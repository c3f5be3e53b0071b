import Marlin.ChannelModel
import Marlin.Loop

/-!
# The Super-Buffer Queue: Taking Nodes Out

The functions of `mm_camera_channel.c` that remove nodes from the super-buffer queue:
`dequeue_internal` with its callers `dequeue`, `bufdone_overflow`, `skip`, `flush` and
`flush_matched`, and `dequeue_frame_internal`.

`flush` and `flush_matched` remove a node in every round of their loop, so they are
iterated as often as there are nodes. The loops of `bufdone_overflow` and `skip` are
guarded by `match_cnt` alone and go round again when nothing could be dequeued; they take
a budget and answer `none` when it runs out. What all of them keep to is said once, of any
relation (`Respected`).
-/

namespace Marlin

namespace MmChannel

/-- `mm_channel_superbuf_dequeue_internal`. -/
def superbufDequeueInternal (ch : MmChannel) (matchedOnly : Bool) : Option MmChannelQueueNode × MmChannel :=
  match ch.queue.que with
  | [] => (none, ch)
  | superBuf :: rest =>
    if matchedOnly && !superBuf.matched then (none, ch)
    else if superBuf.matched then
      let ch := { ch with
        queue.que := rest
        queue.size := ch.queue.size - 1
        queue.matchCnt := ch.queue.matchCnt - 1 }
      (some superBuf,
        if ch.queue.attr.enableFrameSync then ch.call (.frameSyncRemove superBuf.frameIdx)
        else ch)
    else
      (some superBuf, { ch with queue.que := rest, queue.size := ch.queue.size - 1 })

/-- `mm_channel_superbuf_dequeue`. -/
def superbufDequeue (ch : MmChannel) : Option MmChannelQueueNode × MmChannel :=
  ch.superbufDequeueInternal true

/-- `mm_channel_superbuf_dequeue_frame_internal`. -/
def superbufDequeueFrameInternal (ch : MmChannel) (frameIdx : ℕ) : Option MmChannelQueueNode × MmChannel :=
  match ch.queue.que.findIdx? fun n => n.matched && n.frameIdx == frameIdx with
  | none => (none, ch)
  | some i =>
    (ch.queue.que[i]?, { ch with
      queue.que := ch.queue.que.eraseIdx i
      queue.size := ch.queue.size - 1
      queue.matchCnt := ch.queue.matchCnt - 1 })

/-- One round of the loops of `bufdone_overflow` and `skip`: while `match_cnt` is above
`bound`, dequeue a matched node and return its buffers. When there is none the round
changes nothing. -/
def superbufReduceBody (bound : ℕ) (ch : MmChannel) : ForInStep MmChannel :=
  if bound < ch.queue.matchCnt then
    match ch.superbufDequeueInternal true with
    | (some superBuf, ch) => .yield (ch.qbufs superBuf.bufs)
    | (none, ch) => .yield ch
  else .done ch

/-- `mm_channel_superbuf_bufdone_overflow`. -/
def superbufBufdoneOverflow (fuel : ℕ) (ch : MmChannel) : Option MmChannel :=
  if ch.queue.attr.notifyMode = .continuous then some ch
  else Loop.run (superbufReduceBody ch.queue.attr.waterMark) fuel ch

/-- `mm_channel_superbuf_skip`. -/
def superbufSkip (fuel : ℕ) (ch : MmChannel) : Option MmChannel :=
  if ch.queue.attr.notifyMode = .continuous then some ch
  else Loop.run (superbufReduceBody ch.queue.attr.lookBack) fuel ch

/-- The buffers of a flushed node that `mm_channel_superbuf_flush` returns: all of them
for the default type, else those of the given type. -/
def flushedBufs (camType : CamStreamType) (n : MmChannelQueueNode) : List MmCameraBufDef :=
  n.bufs.filter fun b => camType == .default || camType == b.streamType

/-- One round of `mm_channel_superbuf_flush`. -/
def superbufFlushBody (camType : CamStreamType) (ch : MmChannel) : ForInStep MmChannel :=
  match ch.superbufDequeueInternal false with
  | (some superBuf, ch) => .yield (ch.qbufs (flushedBufs camType superBuf))
  | (none, ch) => .done ch

/-- `mm_channel_superbuf_flush`. -/
def superbufFlush (ch : MmChannel) (camType : CamStreamType) : MmChannel :=
  Loop.iterate (superbufFlushBody camType) ch.queue.que.length ch

/-- One round of `mm_channel_superbuf_flush_matched`. -/
def superbufFlushMatchedBody (ch : MmChannel) : ForInStep MmChannel :=
  match ch.superbufDequeueInternal true with
  | (some superBuf, ch) => .yield (ch.qbufs superBuf.bufs)
  | (none, ch) => .done ch

/-- `mm_channel_superbuf_flush_matched`. -/
def superbufFlushMatched (ch : MmChannel) : MmChannel :=
  Loop.iterate superbufFlushMatchedBody ch.queue.que.length ch

/-! ### What a dequeue does -/

/-- The channel after its head node was taken out by `dequeue_internal`. -/
def afterDequeue (ch : MmChannel) (superBuf : MmChannelQueueNode) (rest : List MmChannelQueueNode) : MmChannel :=
  if superBuf.matched then
    let ch := { ch with
      queue.que := rest
      queue.size := ch.queue.size - 1
      queue.matchCnt := ch.queue.matchCnt - 1 }
    if ch.queue.attr.enableFrameSync then ch.call (.frameSyncRemove superBuf.frameIdx) else ch
  else { ch with queue.que := rest, queue.size := ch.queue.size - 1 }

/-- **What a dequeue does**: it fails and leaves the channel as it is, on an empty queue
or on an unmatched head that was not asked for, or it takes the head node out. -/
theorem superbufDequeueInternal_cases (ch : MmChannel) (matchedOnly : Bool) :
    (ch.superbufDequeueInternal matchedOnly = (none, ch) ∧
      (ch.queue.que = [] ∨ ∃ n rest, ch.queue.que = n :: rest ∧ matchedOnly = true ∧ n.matched = false)) ∨
    ∃ n rest, ch.queue.que = n :: rest ∧ (matchedOnly = true → n.matched = true) ∧
      ch.superbufDequeueInternal matchedOnly = (some n, ch.afterDequeue n rest) := by
  unfold superbufDequeueInternal
  cases hq : ch.queue.que with
  | nil => exact Or.inl ⟨rfl, Or.inl rfl⟩
  | cons n rest =>
    cases hm : n.matched <;> cases matchedOnly <;>
      simp [afterDequeue, hm]

@[simp] theorem afterDequeue_que (ch : MmChannel) (n : MmChannelQueueNode)
    (rest : List MmChannelQueueNode) : (ch.afterDequeue n rest).queue.que = rest := by
  simp only [afterDequeue, call]
  split_ifs <;> rfl

@[simp] theorem afterDequeue_matchCnt (ch : MmChannel) (n : MmChannelQueueNode) (rest : List MmChannelQueueNode) :
    (ch.afterDequeue n rest).queue.matchCnt =
      if n.matched then ch.queue.matchCnt - 1 else ch.queue.matchCnt := by
  simp only [afterDequeue, call]
  split_ifs <;> rfl

@[simp] theorem qbufs_queue (ch : MmChannel) (bs : List MmCameraBufDef) : (ch.qbufs bs).queue = ch.queue := rfl

@[simp] theorem call_queue (ch : MmChannel) (a : Action) : (ch.call a).queue = ch.queue := rfl

/-! ### What holds when nodes are taken out -/

/-- A preorder on channels that each buffer returned to its stream and each node taken out keeps to. -/
structure Respected (R : MmChannel → MmChannel → Prop) : Prop where
  refl : ∀ ch, R ch ch
  trans : ∀ ch₁ ch₂ ch₃, R ch₁ ch₂ → R ch₂ ch₃ → R ch₁ ch₃
  qbufs : ∀ ch bs, R ch (ch.qbufs bs)
  dequeue : ∀ ch n rest, ch.queue.que = n :: rest → R ch (ch.afterDequeue n rest)

section
variable {R : MmChannel → MmChannel → Prop} {ch ch' : MmChannel}

theorem Respected.of_view {β : Type*} {v : MmChannel → β} (hqbufs : ∀ ch bs, v (ch.qbufs bs) = v ch)
    (hdequeue : ∀ ch n rest, v (ch.afterDequeue n rest) = v ch) :
    Respected fun ch ch' => v ch' = v ch :=
  ⟨fun _ => rfl, fun _ _ _ h₁ h₂ => h₂.trans h₁, hqbufs, fun ch n rest _ => hdequeue ch n rest⟩

theorem Respected.dequeueInternal (h : Respected R) (ch : MmChannel) (matchedOnly : Bool) :
    R ch (ch.superbufDequeueInternal matchedOnly).2 := by
  rcases superbufDequeueInternal_cases ch matchedOnly with ⟨hd, -⟩ | ⟨n, rest, hq, -, hd⟩
  · rw [hd]
    exact h.refl ch
  · rw [hd]
    exact h.dequeue ch n rest hq

theorem Respected.flushBody (h : Respected R) {camType : CamStreamType}
    (hbody : superbufFlushBody camType ch = .yield ch' ∨ superbufFlushBody camType ch = .done ch') :
    R ch ch' := by
  rw [superbufFlushBody] at hbody
  have hdeq := h.dequeueInternal ch false
  split at hbody
  · rename_i n ch₁ hd
    rw [hd] at hdeq
    obtain rfl : ch₁.qbufs _ = ch' := by simpa using hbody
    exact h.trans _ _ _ hdeq (h.qbufs _ _)
  · rename_i ch₁ hd
    rw [hd] at hdeq
    obtain rfl : ch₁ = ch' := by simpa using hbody
    exact hdeq

theorem Respected.flushMatchedBody (h : Respected R)
    (hbody : superbufFlushMatchedBody ch = .yield ch' ∨ superbufFlushMatchedBody ch = .done ch') :
    R ch ch' := by
  rw [superbufFlushMatchedBody] at hbody
  have hdeq := h.dequeueInternal ch true
  split at hbody
  · rename_i n ch₁ hd
    rw [hd] at hdeq
    obtain rfl : ch₁.qbufs _ = ch' := by simpa using hbody
    exact h.trans _ _ _ hdeq (h.qbufs _ _)
  · rename_i ch₁ hd
    rw [hd] at hdeq
    obtain rfl : ch₁ = ch' := by simpa using hbody
    exact hdeq

theorem Respected.reduceBody (h : Respected R) {bound : ℕ}
    (hbody : superbufReduceBody bound ch = .yield ch' ∨ superbufReduceBody bound ch = .done ch') :
    R ch ch' := by
  rw [superbufReduceBody] at hbody
  have hdeq := h.dequeueInternal ch true
  split at hbody
  · split at hbody
    · rename_i n ch₁ hd
      rw [hd] at hdeq
      obtain rfl : ch₁.qbufs _ = ch' := by simpa using hbody
      exact h.trans _ _ _ hdeq (h.qbufs _ _)
    · rename_i ch₁ hd
      rw [hd] at hdeq
      obtain rfl : ch₁ = ch' := by simpa using hbody
      exact hdeq
  · obtain rfl : ch = ch' := by simpa using hbody
    exact h.refl ch

/-- `mm_channel_superbuf_flush`. -/
theorem Respected.flush (h : Respected R) (ch : MmChannel) (camType : CamStreamType) :
    R ch (ch.superbufFlush camType) :=
  Loop.iterate_relates h.refl h.trans (fun _ _ => h.flushBody) _ _

theorem Respected.flushMatched (h : Respected R) (ch : MmChannel) : R ch ch.superbufFlushMatched :=
  Loop.iterate_relates h.refl h.trans (fun _ _ => h.flushMatchedBody) _ _

/-- `mm_channel_superbuf_skip`. -/
theorem Respected.skip (h : Respected R) {fuel : ℕ} (hskip : ch.superbufSkip fuel = some ch') : R ch ch' := by
  rw [superbufSkip] at hskip
  split at hskip
  · cases hskip
    exact h.refl ch
  · exact Loop.run_relates h.refl h.trans (fun _ _ => h.reduceBody) hskip

theorem Respected.bufdoneOverflow (h : Respected R) {fuel : ℕ}
    (hover : ch.superbufBufdoneOverflow fuel = some ch') : R ch ch' := by
  rw [superbufBufdoneOverflow] at hover
  split at hover
  · cases hover
    exact h.refl ch
  · exact Loop.run_relates h.refl h.trans (fun _ _ => h.reduceBody) hover

end

end MmChannel

end Marlin
