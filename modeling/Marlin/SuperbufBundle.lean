import Marlin.ChannelThread
import Marlin.Transition

/-!
# The Super-Buffer Queue as a Transition System

What a super-buffer queue is for, without the control flags that steer it. A `Bundle` is
the queue with its two counters and the buffer traffic of the channel so far; `Step` says
what can happen to it: a buffer is offered to the queue, or a node leaves it. The steps are
nondeterministic where the code looks at flags (which frame is expected, which node is
marked, whether an allocation succeeds).

The functions of the channel refine this system: each of them is a run of steps on
`MmChannel.bundle` (`Marlin.SuperbufRefine`). What every step preserves then holds after
every function and every command, see `Marlin.SuperbufOrder`, `Marlin.SuperbufNodes` and
`Marlin.SuperbufAccount`.
-/

namespace Marlin

open List

/-- The calls that carry buffers or concern complete super-buffers. -/
def Action.isTraffic : Action → Bool
  | .qbuf _ | .frameSyncAdd _ | .frameSyncRemove _ | .sendSuperBuf _ | .cbEnq _ _ _
  | .superBufMatched _ => true
  | _ => false

/-- The buffers that a call returns to their stream. -/
def Action.returned : Action → List MmCameraBufDef
  | .qbuf b => [b]
  | _ => []

/-- The buffers that a call enqueues to the callback thread. -/
def Action.delivered : Action → List MmCameraBufDef
  | .cbEnq bs _ _ => bs
  | _ => []

/-- The node that a call hands to `mm_channel_send_super_buf`. -/
def Action.sent : Action → List MmChannelQueueNode
  | .sendSuperBuf n => [n]
  | _ => []

theorem Action.flatMap_traffic {β : Type*} {f : Action → List β}
    (hf : ∀ a : Action, a.isTraffic = false → f a = []) (out : List Action) :
    (out.filter Action.isTraffic).flatMap f = out.flatMap f := by
  induction out with
  | nil => rfl
  | cons a out ih =>
    rw [filter_cons]
    split
    · rw [flatMap_cons, flatMap_cons, ih]
    · rename_i h
      rw [flatMap_cons, hf a (by simpa using h), ih, nil_append]

/-- The attributes that no command changes. -/
def MmCameraChannelAttr.fixed (a : MmCameraChannelAttr) : MmCameraChannelAttr :=
  { a with notifyMode := .burst, userExpectedFrameId := 0 }

/-- The **bundle** of a channel: its super-buffer queue, the fixed attributes and the
traffic so far. -/
structure Bundle where
  que : List MmChannelQueueNode
  size : ℕ
  matchCnt : ℕ
  bundledStreams : List ℕ
  attr : MmCameraChannelAttr
  traffic : List Action

/-- The bundle of a channel. -/
def MmChannel.bundle (ch : MmChannel) : Bundle where
  que := ch.queue.que
  size := ch.queue.size
  matchCnt := ch.queue.matchCnt
  bundledStreams := ch.queue.bundledStreams
  attr := ch.queue.attr.fixed
  traffic := ch.out.filter Action.isTraffic

namespace MmChannelQueueNode

/-- The node with a buffer put into one of its slots; a metadata-only node takes over the
frame index of the buffer. -/
def put (n : MmChannelQueueNode) (bufSIdx : ℕ) (b : MmCameraBufInfo) : MmChannelQueueNode :=
  { MmChannel.resetMetaOnly n b.frameIdx with superBuf := n.superBuf.set bufSIdx (some b) }

/-- An unmatched node of an older frame. -/
def isOlder (frameIdx : ℕ) (n : MmChannelQueueNode) : Bool :=
  !n.matched && decide (n.frameIdx < frameIdx)

/-- An unmatched node of a later frame. -/
def isNewer (frameIdx : ℕ) (n : MmChannelQueueNode) : Bool :=
  !n.matched && decide (frameIdx < n.frameIdx)

/-- The nodes before the first unmatched node of an older frame. -/
def staying (frameIdx : ℕ) (l : List MmChannelQueueNode) : List MmChannelQueueNode :=
  l.takeWhile fun n => !n.isOlder frameIdx

/-- The nodes from the first unmatched node of an older frame on. -/
def released (frameIdx : ℕ) (l : List MmChannelQueueNode) : List MmChannelQueueNode :=
  l.dropWhile fun n => !n.isOlder frameIdx

end MmChannelQueueNode

namespace Bundle

/-- The number of unmatched nodes. -/
def unmatched (B : Bundle) : ℕ := B.que.countP fun n => !n.matched

/-- Calls are made. -/
def log (B : Bundle) (as : List Action) : Bundle := { B with traffic := B.traffic ++ as }

/-- Buffers are returned. -/
def qbufs (B : Bundle) (bs : List MmCameraBufDef) : Bundle := B.log (bs.map .qbuf)

/-- The head node `n` is taken out. -/
def pop (B : Bundle) (n : MmChannelQueueNode) (rest : List MmChannelQueueNode) : Bundle :=
  { B with
    que := rest
    size := B.size - 1
    matchCnt := if n.matched then B.matchCnt - 1 else B.matchCnt }.log
    (if n.matched && B.attr.enableFrameSync then [.frameSyncRemove n.frameIdx] else [])

/-- A node is reported complete for a frame. -/
def countMatch (B : Bundle) (frameIdx : ℕ) : Bundle :=
  { B with matchCnt := B.matchCnt + 1 }.log (.superBufMatched frameIdx ::
    if B.attr.enableFrameSync then [.frameSyncAdd frameIdx] else [])

/-- The buffers returned so far. -/
def returned (B : Bundle) : List MmCameraBufDef := B.traffic.flatMap Action.returned

/-- The buffers enqueued to the callback thread so far. -/
def delivered (B : Bundle) : List MmCameraBufDef := B.traffic.flatMap Action.delivered

/-- The nodes handed to `mm_channel_send_super_buf` so far. -/
def sent (B : Bundle) : List MmChannelQueueNode := B.traffic.flatMap Action.sent

theorem mem_sent {B : Bundle} {n : MmChannelQueueNode} : n ∈ B.sent ↔ .sendSuperBuf n ∈ B.traffic := by
  simp only [sent, mem_flatMap]
  constructor
  · rintro ⟨a, ha, hn⟩
    cases a <;> simp only [Action.sent, mem_singleton, not_mem_nil] at hn
    exact hn ▸ ha
  · intro h
    exact ⟨_, h, by simp [Action.sent]⟩

@[simp] theorem qbufs_returned (B : Bundle) (bs : List MmCameraBufDef) : (B.qbufs bs).returned = B.returned ++ bs := by
  simp [qbufs, log, returned, flatMap_map, Action.returned]

@[simp] theorem qbufs_delivered (B : Bundle) (bs : List MmCameraBufDef) : (B.qbufs bs).delivered = B.delivered := by
  simp [qbufs, log, delivered, flatMap_map, Action.delivered]

@[simp] theorem qbufs_sent (B : Bundle) (bs : List MmCameraBufDef) : (B.qbufs bs).sent = B.sent := by
  simp [qbufs, log, sent, flatMap_map, Action.sent]

@[simp] theorem pop_returned (B : Bundle) (n : MmChannelQueueNode)
    (rest : List MmChannelQueueNode) : (B.pop n rest).returned = B.returned := by
  simp only [pop, log, returned, flatMap_append]
  split <;> simp [Action.returned]

@[simp] theorem pop_delivered (B : Bundle) (n : MmChannelQueueNode)
    (rest : List MmChannelQueueNode) : (B.pop n rest).delivered = B.delivered := by
  simp only [pop, log, delivered, flatMap_append]
  split <;> simp [Action.delivered]

@[simp] theorem pop_sent (B : Bundle) (n : MmChannelQueueNode)
    (rest : List MmChannelQueueNode) : (B.pop n rest).sent = B.sent := by
  simp only [pop, log, sent, flatMap_append]
  split <;> simp [Action.sent]

@[simp] theorem countMatch_returned (B : Bundle) (frameIdx : ℕ) : (B.countMatch frameIdx).returned = B.returned := by
  simp only [countMatch, log, returned, flatMap_append]
  split <;> simp [Action.returned]

@[simp] theorem countMatch_delivered (B : Bundle) (frameIdx : ℕ) : (B.countMatch frameIdx).delivered = B.delivered := by
  simp only [countMatch, log, delivered, flatMap_append]
  split <;> simp [Action.delivered]

@[simp] theorem countMatch_sent (B : Bundle) (frameIdx : ℕ) : (B.countMatch frameIdx).sent = B.sent := by
  simp only [countMatch, log, sent, flatMap_append]
  split <;> simp [Action.sent]

/-- What happens to a bundle. -/
inductive Act
  /-- The head node leaves the queue and its buffers of a type are returned. -/
  | flush (camType : CamStreamType)
  /-- A matched head node is handed to the caller. -/
  | dequeue (node : MmChannelQueueNode)
  /-- A matched node is handed to the caller. -/
  | dequeueFrame (node : MmChannelQueueNode)
  /-- A matched head node is sent to the callback thread. -/
  | send (node : MmChannelQueueNode)
  /-- A buffer is offered for a slot; `visits` is the number of rounds of the eviction
  that release a node. -/
  | enqueue (bufSIdx : ℕ) (b : MmCameraBufInfo) (visits : ℕ)

/-- The condition under which a buffer joins a node of the bundle. -/
def joins (B : Bundle) (bufSIdx : ℕ) (b : MmCameraBufInfo) : MmChannelQueueNode → Bool :=
  MmChannel.joins B.attr.priority bufSIdx b

/-- The queue splits at the first unmatched node that a buffer joins. -/
structure Found (B : Bundle) (bufSIdx : ℕ) (b : MmCameraBufInfo)
    (pre : List MmChannelQueueNode) (n : MmChannelQueueNode)
    (post : List MmChannelQueueNode) : Prop where
  frame : b.frameIdx ≠ 0
  que : B.que = pre ++ n :: post
  unmatched : n.matched = false
  joins : B.joins bufSIdx b n = true
  passed : ∀ m ∈ pre, m.matched = false → B.joins bufSIdx b m = false

theorem Found.mem {B : Bundle} {bufSIdx : ℕ} {b : MmCameraBufInfo}
    {pre post : List MmChannelQueueNode} {n : MmChannelQueueNode}
    (h : B.Found bufSIdx b pre n post) : n ∈ B.que := by
  rw [h.que]
  exact mem_append_right pre mem_cons_self

/-- A place for a new node of a frame in the queue, where `evicted` was released in
`visits` rounds: `fst ++ snd` is what stays of the queue, and the new node goes between the
two parts. Nothing is released while there are at most `max_unmatched_frames` unmatched
nodes (counted in a `uint8_t`); else one node is, and an unmatched node of an older frame
is at its place or before it. -/
structure Room (B : Bundle) (bufSIdx : ℕ) (b : MmCameraBufInfo) (evicted : Option MmChannelQueueNode) (visits : ℕ)
    (fst snd : List MmChannelQueueNode) : Prop where
  frame : b.frameIdx ≠ 0
  noJoin : ∀ m ∈ B.que, m.matched = false → B.joins bufSIdx b m = false
  split : ∃ as cs, B.que = as ++ cs ∧ fst.Sublist as ∧ snd.Sublist cs ∧ (∀ m ∈ as, m.isNewer b.frameIdx = false) ∧
    ∀ c ∈ cs.head?, c.isNewer b.frameIdx = true
  perm : (evicted.toList ++ (fst ++ snd)).Perm B.que
  calm : evicted = none → visits = 0 ∧ B.unmatched % 256 ≤ B.attr.maxUnmatchedFrames
  evicts : ∀ x ∈ evicted, B.attr.maxUnmatchedFrames < B.unmatched % 256 ∧
    (visits = 1 ∨ visits = B.unmatched % 256 - B.attr.maxUnmatchedFrames) ∧
    ∃ o, o.isOlder b.frameIdx = true ∧ (o = x ∨ [o, x].Sublist B.que)

theorem Room.mem {B : Bundle} {bufSIdx : ℕ} {b : MmCameraBufInfo}
    {evicted : Option MmChannelQueueNode} {visits : ℕ} {fst snd : List MmChannelQueueNode}
    (h : B.Room bufSIdx b evicted visits fst snd) {m : MmChannelQueueNode}
    (hm : m ∈ fst ++ snd) : m ∈ B.que :=
  h.perm.mem_iff.mp (mem_append_right _ hm)

/-- The queue became `que`; the buffers of the evicted node were returned. -/
def evict (B : Bundle) (evicted : Option MmChannelQueueNode) (visits : ℕ) (que : List MmChannelQueueNode) : Bundle :=
  { B with que := que, size := B.size - visits }.qbufs
    (List.replicate visits (evicted.elim [] MmChannelQueueNode.filledBufs)).flatten

/-- The node made for a buffer that joins no other, marked as expected or not. -/
def newNode (B : Bundle) (bufSIdx : ℕ) (b : MmCameraBufInfo) (expected : Bool) : MmChannelQueueNode where
  superBuf := (List.replicate B.bundledStreams.length none).set bufSIdx (some b)
  frameIdx := b.frameIdx
  matched := B.bundledStreams.length == 1
  expectedFrame := expected
  unmatchedMetaIdx :=
    if B.attr.priority = .low ∧ b.buf.streamType = .metadata then b.frameIdx else 0

/-- The steps of a bundle. -/
inductive Step : Bundle → Act → Bundle → Prop
  /-- The head node is flushed. -/
  | flush {B : Bundle} {n : MmChannelQueueNode} {rest : List MmChannelQueueNode}
      (camType : CamStreamType) (hq : B.que = n :: rest) :
      Step B (.flush camType) ((B.pop n rest).qbufs (MmChannel.flushedBufs camType n))
  /-- The head node is dequeued. -/
  | dequeue {B : Bundle} {n : MmChannelQueueNode} {rest : List MmChannelQueueNode}
      (hq : B.que = n :: rest) (hm : n.matched = true) : Step B (.dequeue n) (B.pop n rest)
  /-- A node is dequeued by its frame. -/
  | dequeueFrame {B : Bundle} {pre : List MmChannelQueueNode} {n : MmChannelQueueNode}
      {post : List MmChannelQueueNode} (hq : B.que = pre ++ n :: post)
      (hm : n.matched = true) :
      Step B (.dequeueFrame n)
        { B with que := pre ++ post, size := B.size - 1, matchCnt := B.matchCnt - 1 }
  /-- The head node is sent to the callback thread and its buffers are delivered; without
  a callback or memory they are returned. -/
  | send {B : Bundle} {n : MmChannelQueueNode} {rest : List MmChannelQueueNode}
      {delivery : List Action} (hq : B.que = n :: rest) (hm : n.matched = true)
      (hd : (∃ ready unlock, delivery = [.cbEnq n.bufs ready unlock]) ∨
        delivery = n.bufs.map .qbuf) :
      Step B (.send n) ((B.pop n rest).log (.sendSuperBuf n :: delivery))
  /-- An offered buffer is returned at once. -/
  | discard {B : Bundle} {i : ℕ} {b : MmCameraBufInfo} :
      Step B (.enqueue i b 0) (B.qbufs [b.buf])
  /-- The slot of the node that the buffer joins is taken. -/
  | taken {B : Bundle} {i : ℕ} {b : MmCameraBufInfo} {pre post : List MmChannelQueueNode}
      {n : MmChannelQueueNode} (h : B.Found i b pre n post) (hs : n.slotFrameIdx i ≠ 0) :
      Step B (.enqueue i b 0)
        ({ B with que := pre ++ MmChannel.resetMetaOnly n b.frameIdx :: post }.qbufs [b.buf])
  /-- The node that the buffer joins stays incomplete. -/
  | keep {B : Bundle} {i : ℕ} {b : MmCameraBufInfo} {pre post : List MmChannelQueueNode}
      {n : MmChannelQueueNode} (h : B.Found i b pre n post) (hs : n.slotFrameIdx i = 0)
      (hopen : (n.put i b).allFilled = false) (expected : Bool) :
      Step B (.enqueue i b 0)
        { B with que :=
            pre ++ { n.put i b with matched := false, expectedFrame := expected } :: post }
  /-- The node that the buffer joins becomes complete; from the first older unmatched node
  on, the nodes before it are released. -/
  | complete {B : Bundle} {i : ℕ} {b : MmCameraBufInfo} {pre post : List MmChannelQueueNode}
      {n : MmChannelQueueNode} (h : B.Found i b pre n post) (hs : n.slotFrameIdx i = 0)
      (hfull : (n.put i b).allFilled = true) :
      Step B (.enqueue i b 0)
        (({ B with
            que := MmChannelQueueNode.staying b.frameIdx pre ++
              { n.put i b with matched := true, expectedFrame := false } :: post
            size := B.size - (MmChannelQueueNode.released b.frameIdx pre).length
          }.countMatch b.frameIdx).qbufs
          ((MmChannelQueueNode.released b.frameIdx pre).flatMap
            MmChannelQueueNode.filledBufs))
  /-- A new node is made; with a single bundled stream it is complete. -/
  | insert {B : Bundle} {i : ℕ} {b : MmCameraBufInfo} {evicted : Option MmChannelQueueNode}
      {visits : ℕ} {fst snd : List MmChannelQueueNode}
      (h : B.Room i b evicted visits fst snd) (expected : Bool) :
      Step B (.enqueue i b visits)
        (let B' := B.evict evicted visits (fst ++ B.newNode i b expected :: snd)
        let B' := { B' with size := B'.size + 1 }
        if B.bundledStreams.length = 1 then B'.countMatch b.frameIdx else B')
  /-- There is no memory for a new node. -/
  | noMemory {B : Bundle} {i : ℕ} {b : MmCameraBufInfo}
      {evicted : Option MmChannelQueueNode} {visits : ℕ}
      {fst snd : List MmChannelQueueNode} (h : B.Room i b evicted visits fst snd) :
      Step B (.enqueue i b visits) ((B.evict evicted visits (fst ++ snd)).qbufs [b.buf])

end Bundle

end Marlin
