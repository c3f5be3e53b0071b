import Mathlib.Data.List.Count
import Mathlib.Data.List.Nodup
import Mathlib.Data.List.Perm.Basic
import Mathlib.Data.List.Range
import Marlin.CmdThread
import Marlin.Transition

/-!
# The Batch Containers of a Stream

In batch mode a stream queues its buffers in containers. `getBatchBufs` makes their definitions and puts
them in `mFreeBatchBufQ`. The first buffer of a batch takes one out, which is `mCurrentBatchBufDef` until
`queueBatchBuf` gives it to the kernel. It comes back with a frame, waits in `mDataQ`, and is free again
when the thread of the stream handles the frame. `putBatchBufs` releases all definitions.

The stop of the thread empties both queues, the free one first, which refuses from then on what is released
from the other. `start` switches it on, and nobody fills it again. Neither the stop nor `putBatchBufs`
resets `mCurrentBatchBufDef`: after a restart in the middle of a batch the next buffers are staged in a
definition that was freed.

## Conventions

* A container is named by its array and its `buf_idx`; arrays are counted. `released` are those that
  `putBatchBufs` has released.
* The kernel has none of the containers of an array when it is released.
* What is staged in a container is left out, and so is what `bufDone` does before it stages a buffer.
* The commands of the thread are executed whole, `DO_NEXT_JOB` at any time while it runs.

## Main results

* `Separate.step`: in any run no container is in two places.
* `containers_run`: every container of the current array is in one place, and none of a released array is
  free or current, in the runs that stop without free containers and release no batch in progress.
-/

namespace Marlin

open List Option Bool Transition

namespace BatchContainers

/-- A container: its array and its `buf_idx`. -/
structure Container where
  array : ℕ
  bufIdx : ℕ
  deriving DecidableEq

/-- The containers of an array. -/
def containers (array n : ℕ) : List Container := (List.range n).map (Container.mk array)

/-- The stream, with the containers that the kernel has. -/
structure BatchStream where
  mBatchSize : ℕ
  mNumBatchBufs : ℕ
  mDataCB : Bool := true
  running : Bool := false
  mBatchBufDefs : Option ℕ := none
  mFreeBatchBufQ : QCameraQueue Container := {}
  mCurrentBatchBufDef : Option Container := none
  mBufsStaged : ℕ := 0
  mDataQ : QCameraQueue Container := {}
  kernel : List Container := []
  arrays : ℕ := 0
  released : List ℕ := []

/-- How the calls of `getBatchBufs` end: the memory up to `regFlags`, the array, and the nodes of the
queue. -/
structure BatchCalls where
  allocated : Bool := true
  mallocBufDefs : Bool := true
  mallocNode : ℕ → Bool := fun _ => true

/-- How the calls of `dataNotifyCB` end. `mapped` is whether a `bufDone` gets to stage a buffer. -/
structure NotifyCalls where
  mallocFrame : Bool := true
  mallocNode : Bool := true
  mapped : Bool := true

namespace BatchStream

variable {s t : BatchStream}

/-- Containers are enqueued. -/
def enqueueAll (mallocNode : ℕ → Bool) (q : QCameraQueue Container) (cs : List Container) : QCameraQueue Container :=
  cs.foldl (fun q c => (q.enqueue (mallocNode c.bufIdx) c).2) q

/-- `flushFreeBatchBufQ`. The queue is emptied by `dequeue`, so that the flush does not free the data. -/
def flushFreeBatchBufQ (s : BatchStream) : BatchStream :=
  { s with mFreeBatchBufQ := s.mFreeBatchBufQ.flush.2 }

/-- `getBatchBufs`. -/
def getBatchBufs (s : BatchStream) (calls : BatchCalls) : BatchStream :=
  if !calls.allocated then s
  else if !calls.mallocBufDefs then { s with mBatchBufDefs := none }
  else { s with
    mBatchBufDefs := some s.arrays
    mFreeBatchBufQ :=
      enqueueAll calls.mallocNode s.mFreeBatchBufQ (containers s.arrays s.mNumBatchBufs)
    arrays := s.arrays + 1 }

/-- `putBatchBufs`. -/
def putBatchBufs (s : BatchStream) : BatchStream :=
  { s.flushFreeBatchBufQ with
    mBatchBufDefs := none
    kernel := s.kernel.filter fun c => s.mBatchBufDefs ≠ some c.array
    released := s.released ++ s.mBatchBufDefs.toList }

/-- A buffer is staged in the current container, if that is not full. -/
def stage (s : BatchStream) : BatchStream :=
  if s.mBufsStaged = s.mBatchSize then s else { s with mBufsStaged := s.mBufsStaged + 1 }

/-- `aggregateBufToBatch`. -/
def aggregateBufToBatch (s : BatchStream) : BatchStream :=
  match s.mCurrentBatchBufDef with
  | some _ => s.stage
  | none =>
    match s.mFreeBatchBufQ.dequeue with
    | (none, q) => { s with mFreeBatchBufQ := q }
    | (some c, q) => { s with mFreeBatchBufQ := q, mCurrentBatchBufDef := some c }.stage

/-- `bufDone`, from where it stages the buffer. -/
def bufDone (s : BatchStream) (mapped : Bool) : BatchStream :=
  if mapped ∧ s.mBatchSize ≠ 0 then s.aggregateBufToBatch else s

/-- `queueBatchBuf`. -/
def queueBatchBuf (s : BatchStream) (qbuf : Bool) : BatchStream :=
  match s.mCurrentBatchBufDef with
  | none => s
  | some c =>
    if qbuf then
      { s with mCurrentBatchBufDef := none, mBufsStaged := 0, kernel := s.kernel ++ [c] }
    else s

/-- `dataNotifyCB` and `processDataNotify`, of a container. Where the frame cannot be enqueued, the index of
the container is taken for that of a buffer. -/
def dataNotifyCB (s : BatchStream) (c : Container) (calls : NotifyCalls) : BatchStream :=
  let s := { s with kernel := s.kernel.erase c }
  if !calls.mallocFrame then s.bufDone calls.mapped
  else
    let r := s.mDataQ.enqueue calls.mallocNode c
    if r.1 then { s with mDataQ := r.2 } else s.bufDone calls.mapped

/-- `handleBatchBuffer`, up to its callbacks. -/
def handleBatchBuffer (s : BatchStream) (c : Container) (mallocNode : Bool) : BatchStream :=
  if s.mBatchSize = 0 then s
  else if !s.mDataCB then s
  else { s with mFreeBatchBufQ := (s.mFreeBatchBufQ.enqueue mallocNode c).2 }

/-- `CAMERA_CMD_TYPE_DO_NEXT_JOB`. -/
def doNextJob (s : BatchStream) (mallocNode : Bool) : BatchStream :=
  match s.mDataQ.dequeue with
  | (none, q) => { s with mDataQ := q }
  | (some c, q) => { s with mDataQ := q }.handleBatchBuffer c mallocNode

/-- `releaseFrameData`. -/
def releaseFrameData (s : BatchStream) (mallocNode : Bool) (c : Container) : BatchStream :=
  if s.mBatchSize ≠ 0 then
    { s with mFreeBatchBufQ := (s.mFreeBatchBufQ.enqueue mallocNode c).2 }
  else s

/-- `start`. -/
def start (s : BatchStream) : BatchStream :=
  { s with
    mDataQ := s.mDataQ.init
    mFreeBatchBufQ := if s.mBatchSize ≠ 0 then s.mFreeBatchBufQ.init else s.mFreeBatchBufQ
    running := true }

/-- `stop`: the thread executes `CAMERA_CMD_TYPE_EXIT`, if that can be sent. -/
def stop (s : BatchStream) (mallocCmd mallocNode : Bool) : BatchStream :=
  if s.running && mallocCmd then
    let s := s.flushFreeBatchBufQ
    let r := s.mDataQ.flush
    { r.1.foldl (fun s c => s.releaseFrameData mallocNode c) { s with mDataQ := r.2 } with
      running := false }
  else s

/-- The places of the containers. -/
def places (s : BatchStream) : List Container :=
  s.mFreeBatchBufQ.nodes ++ s.mCurrentBatchBufDef.toList ++ s.kernel ++ s.mDataQ.nodes

end BatchStream

/-- The calls of the camera interface, of the channel and of the HAL, and the commands of the thread. -/
inductive Event
  | getBatchBufs (calls : BatchCalls)
  | putBatchBufs
  | bufDone (mapped : Bool)
  | queueBatchBuf (qbuf : Bool)
  | dataNotifyCB (c : Container) (calls : NotifyCalls)
  | doNextJob (mallocNode : Bool)
  | start
  | stop (mallocCmd mallocNode : Bool)

namespace BatchStream

variable {s t : BatchStream}

/-- The events that can happen. The kernel delivers what it has, the thread works while it runs, and
containers are asked for in batch mode only. -/
def step (s : BatchStream) : Event → Option BatchStream
  | .getBatchBufs calls => if s.mBatchSize = 0 then none else some (s.getBatchBufs calls)
  | .putBatchBufs => if s.mBatchSize = 0 then none else some s.putBatchBufs
  | .bufDone mapped => some (s.bufDone mapped)
  | .queueBatchBuf qbuf => some (s.queueBatchBuf qbuf)
  | .dataNotifyCB c calls => if c ∈ s.kernel then some (s.dataNotifyCB c calls) else none
  | .doNextJob mallocNode => if s.running then some (s.doNextJob mallocNode) else none
  | .start => if s.running then none else some s.start
  | .stop mallocCmd mallocNode => some (s.stop mallocCmd mallocNode)

/-- Every container of the current array is in one place, and no container of a released array is free or
current. -/
structure Accounted (s : BatchStream) : Prop where
  once : ∀ array ∈ s.mBatchBufDefs, ∀ c ∈ containers array s.mNumBatchBufs, s.places.count c = 1
  fresh : ∀ c ∈ s.mFreeBatchBufQ.nodes ++ s.mCurrentBatchBufDef.toList, c.array ∉ s.released

/-- The condition on the events. Containers are enqueued to an active queue. A stop finds no container of the
current array in a queue. `putBatchBufs` does not release the current container, and no frame is handled
whose container was released. -/
def Whole (s : BatchStream) : Event → Prop
  | .getBatchBufs calls => calls.allocated = true → calls.mallocBufDefs = true →
      s.mFreeBatchBufQ.active = true ∧ ∀ i < s.mNumBatchBufs, calls.mallocNode i = true
  | .putBatchBufs => ∀ c ∈ s.mCurrentBatchBufDef, s.mBatchBufDefs ≠ some c.array
  | .dataNotifyCB c calls => s.mBatchBufDefs = some c.array →
      calls.mallocFrame = true ∧ s.mDataQ.active = true ∧ calls.mallocNode = true
  | .doNextJob mallocNode => ∀ c ∈ s.mDataQ.nodes.head?, c.array ∉ s.released ∧
      (s.mBatchBufDefs = some c.array → s.mDataCB = true ∧ s.mFreeBatchBufQ.active = true ∧ mallocNode = true)
  | .stop mallocCmd _ => s.running = true → mallocCmd = true →
      ∀ c ∈ s.mFreeBatchBufQ.nodes ++ s.mDataQ.nodes, s.mBatchBufDefs ≠ some c.array
  | .bufDone _ => True
  | .queueBatchBuf _ => True
  | .start => True

instance (s : BatchStream) (e : Event) : Decidable (s.Whole e) := by
  delta Whole
  cases e <;> infer_instance

/-! ### Moves -/

/-- The containers that the HAL hands out: the free ones and the current one. -/
def handed (s : BatchStream) : List Container := s.mFreeBatchBufQ.nodes ++ s.mCurrentBatchBufDef.toList

/-- Containers move from place to place; some are lost, and some become free again. -/
structure Moves (s t : BatchStream) (lost freed : List Container) : Prop where
  perm : s.places.Perm (t.places ++ lost)
  handed : ∀ c ∈ t.handed, c ∈ s.handed ∨ c ∈ freed
  defs : t.mBatchBufDefs = s.mBatchBufDefs
  num : t.mNumBatchBufs = s.mNumBatchBufs
  size : t.mBatchSize = s.mBatchSize
  arrays : t.arrays = s.arrays
  released : t.released = s.released

theorem Moves.refl (s : BatchStream) : Moves s s [] [] where
  perm := by rw [append_nil]
  handed := fun _ hc => .inl hc
  defs := rfl
  num := rfl
  size := rfl
  arrays := rfl
  released := rfl

variable {c : Container}

theorem nodes_of_dequeue {q q' : QCameraQueue Container} (h : q.dequeue = (some c, q')) : q.nodes = c :: q'.nodes := by
  have hhead : q.nodes.head? = some c := congrArg Prod.fst h
  have htail : q.nodes.tail = q'.nodes := congrArg (·.2.nodes) h
  rw [← htail]
  exact eq_cons_of_mem_head? hhead

theorem nodes_of_dequeue_none {q q' : QCameraQueue Container} (h : q.dequeue = (none, q')) :
    q.nodes = [] ∧ q'.nodes = [] := by
  have hhead : q.nodes.head? = none := congrArg Prod.fst h
  have hnil := head?_eq_none_iff.mp hhead
  have htail : q.nodes.tail = q'.nodes := congrArg (·.2.nodes) h
  rw [hnil] at htail
  exact ⟨hnil, htail.symm⟩

theorem moves_stage (h : Moves s t [] []) : Moves s t.stage [] [] := by
  rw [stage]
  split
  · exact h
  · exact ⟨h.perm, h.handed, h.defs, h.num, h.size, h.arrays, h.released⟩

theorem moves_bufDone (s : BatchStream) (mapped : Bool) : Moves s (s.bufDone mapped) [] [] := by
  rw [bufDone]
  split
  · rw [aggregateBufToBatch]
    rcases hcurrent : s.mCurrentBatchBufDef with _ | c
    · rcases hq : s.mFreeBatchBufQ.dequeue with ⟨_ | c, q⟩
      · obtain ⟨hnil, hnil'⟩ := nodes_of_dequeue_none hq
        dsimp only
        refine ⟨?_, fun c hc => .inl ?_, rfl, rfl, rfl, rfl, rfl⟩
        · rw [append_nil, places, places, hnil, hnil', hcurrent]
        · simp [handed, hnil'] at hc
      · have hnodes := nodes_of_dequeue hq
        dsimp only
        refine moves_stage ⟨?_, fun c' hc => .inl ?_, rfl, rfl, rfl, rfl, rfl⟩
        · refine perm_iff_count.mpr fun x => ?_
          simp only [places, hnodes, hcurrent, append_nil, count_append, count_cons,
            toList_none, toList_some, count_nil]
          omega
        · rw [handed, hnodes, hcurrent]
          rw [handed, mem_append, mem_toList] at hc
          rcases hc with hc | hc
          · exact mem_append_left _ (mem_cons_of_mem _ hc)
          · cases hc
            exact mem_append_left _ mem_cons_self
    · exact moves_stage (.refl s)
  · exact .refl s

theorem moves_queueBatchBuf (s : BatchStream) (qbuf : Bool) : Moves s (s.queueBatchBuf qbuf) [] [] := by
  rw [queueBatchBuf]
  rcases hcurrent : s.mCurrentBatchBufDef with _ | c
  · exact .refl s
  · dsimp only
    split
    · refine ⟨?_, fun c' hc => .inl ?_, rfl, rfl, rfl, rfl, rfl⟩
      · refine perm_iff_count.mpr fun x => ?_
        simp only [places, hcurrent, append_nil, count_append, toList_none, toList_some]
        omega
      · rw [handed, toList_none, append_nil] at hc
        exact mem_append_left _ hc
    · exact .refl s

variable {lost freed : List Container}

theorem Moves.andThen {u : BatchStream} (h₁ : Moves s t lost freed) (h₂ : Moves t u [] []) : Moves s u lost freed where
  perm := by
    have hperm := h₂.perm
    rw [append_nil] at hperm
    exact h₁.perm.trans (hperm.append_right lost)
  handed c hc := (h₂.handed c hc).elim (h₁.handed c) fun hnone => absurd hnone not_mem_nil
  defs := h₂.defs.trans h₁.defs
  num := h₂.num.trans h₁.num
  size := h₂.size.trans h₁.size
  arrays := h₂.arrays.trans h₁.arrays
  released := h₂.released.trans h₁.released

theorem moves_dataNotifyCB (hc : c ∈ s.kernel) (calls : NotifyCalls) :
    ∃ lost, Moves s (s.dataNotifyCB c calls) lost [] ∧ (s.Whole (.dataNotifyCB c calls) →
      ∀ c ∈ lost, s.mBatchBufDefs ≠ some c.array) := by
  have hcount (x : Container) := (List.perm_cons_erase hc).count_eq x
  have hgone : Moves s { s with kernel := s.kernel.erase c } [c] [] := by
    refine ⟨List.perm_iff_count.mpr fun x => ?_, fun c' hc' => .inl hc', rfl, rfl, rfl, rfl, rfl⟩
    have hx := hcount x
    simp only [places, List.count_append, List.count_cons, List.count_nil] at hx ⊢
    omega
  have hlost (mapped : Bool) : Moves s (bufDone { s with kernel := s.kernel.erase c } mapped) [c] [] :=
    hgone.andThen (moves_bufDone _ mapped)
  rw [dataNotifyCB]
  obtain ⟨mallocFrame, mallocNode, mapped⟩ := calls
  cases mallocFrame
  · refine ⟨[c], hlost mapped, fun hwhole c' hc' hcurrent => ?_⟩
    obtain rfl := List.mem_singleton.mp hc'
    exact Bool.false_ne_true (hwhole hcurrent).1
  · dsimp only
    rcases s.mDataQ.enqueue_cases mallocNode c with ⟨hok, hnodes⟩ | hfail
    · rw [hok]
      refine ⟨[], ⟨List.perm_iff_count.mpr fun x => ?_, fun c' hc' => .inl hc', rfl, rfl, rfl, rfl, rfl⟩,
        fun _ _ => nofun⟩
      have hx := hcount x
      simp only [Bool.not_true, Bool.false_eq_true, if_false, if_true, places, hnodes, List.append_nil,
        List.count_append, List.count_cons, List.count_nil] at hx ⊢
      omega
    · rw [hfail]
      refine ⟨[c], hlost mapped, fun hwhole c' hc' hcurrent => ?_⟩
      obtain rfl := List.mem_singleton.mp hc'
      obtain ⟨-, hactive, rfl⟩ := hwhole hcurrent
      have hok := (s.mDataQ.enqueue_of_active hactive c').1
      rw [hfail] at hok
      cases hok

theorem moves_doNextJob (hsize : s.mBatchSize = 0 → s.mBatchBufDefs = none) (mallocNode : Bool) :
    ∃ lost freed, Moves s (s.doNextJob mallocNode) lost freed ∧ (s.Whole (.doNextJob mallocNode) →
      (∀ c ∈ lost, s.mBatchBufDefs ≠ some c.array) ∧ ∀ c ∈ freed, c.array ∉ s.released) := by
  rw [doNextJob]
  rcases hq : s.mDataQ.dequeue with ⟨_ | c, q⟩
  · obtain ⟨hnil, hnil'⟩ := nodes_of_dequeue_none hq
    refine ⟨[], [], ⟨?_, fun c hc => .inl hc, rfl, rfl, rfl, rfl, rfl⟩, fun _ => ⟨fun _ => nofun, fun _ => nofun⟩⟩
    dsimp only
    rw [append_nil, places, places, hnil, hnil']
  · have hnodes := nodes_of_dequeue hq
    have hlost : Moves s { s with mDataQ := q } [c] [] := by
      refine ⟨perm_iff_count.mpr fun x => ?_, fun c' hc' => .inl hc', rfl, rfl, rfl, rfl, rfl⟩
      simp only [places, hnodes, count_append, count_cons, count_nil]
      omega
    have hwhole' (hwhole : s.Whole (.doNextJob mallocNode)) := hwhole c (by rw [hnodes]; rfl)
    dsimp only
    rw [handleBatchBuffer]
    split
    · rename_i hzero
      refine ⟨[c], [], hlost, fun _ => ⟨fun c' _ hcurrent => ?_, fun _ => nofun⟩⟩
      rw [hsize hzero] at hcurrent
      cases hcurrent
    split
    · rename_i _ hnone
      refine ⟨[c], [], hlost, fun hwhole => ⟨fun c' hc' hcurrent => ?_, fun _ => nofun⟩⟩
      obtain rfl := mem_singleton.mp hc'
      have hcb := ((hwhole' hwhole).2 hcurrent).1
      rw [show s.mDataCB = true from hcb] at hnone
      cases hnone
    · rcases s.mFreeBatchBufQ.enqueue_cases mallocNode c with ⟨hok, hfree⟩ | hfail
      · refine ⟨[], [c], ⟨perm_iff_count.mpr fun x => ?_, fun c' hc' => ?_, rfl, rfl, rfl, rfl, rfl⟩,
          fun hwhole => ⟨fun _ => nofun, fun c' hc' => ?_⟩⟩
        · simp only [places, hnodes, hfree, append_nil, count_append, count_cons, count_nil]
          omega
        · simp only [handed, hfree, mem_append] at hc' ⊢
          rcases hc' with (hc' | hc') | hc'
          · exact .inl (.inl hc')
          · exact .inr hc'
          · exact .inl (.inr hc')
        · exact mem_singleton.mp hc' ▸ (hwhole' hwhole).1
      · dsimp only
        rw [hfail]
        refine ⟨[c], [], hlost, fun hwhole => ⟨fun c' hc' hcurrent => ?_, fun _ => nofun⟩⟩
        obtain rfl := mem_singleton.mp hc'
        obtain ⟨-, hactive, rfl⟩ := (hwhole' hwhole).2 hcurrent
        have hok := (s.mFreeBatchBufQ.enqueue_of_active hactive c').1
        rw [hfail] at hok
        cases hok

theorem moves_start (s : BatchStream) : Moves s s.start [] [] := by
  have hfree : s.start.mFreeBatchBufQ.nodes = s.mFreeBatchBufQ.nodes := by
    rw [start]
    dsimp only
    split <;> rfl
  refine ⟨?_, fun c hc => .inl ?_, rfl, rfl, rfl, rfl, rfl⟩
  · rw [append_nil, places, places, hfree]
    rfl
  · rw [handed, hfree] at hc
    exact hc

theorem foldl_releaseFrameData (mallocNode : Bool) (cs : List Container) (hoff : s.mFreeBatchBufQ.active = false) :
    cs.foldl (fun s c => s.releaseFrameData mallocNode c) s = s := by
  induction cs with
  | nil => rfl
  | cons c rest ih =>
    have hrefused : s.releaseFrameData mallocNode c = s := by
      rw [releaseFrameData]
      split
      · rw [QCameraQueue.enqueue, dif_neg (by simp [hoff])]
      · rfl
    rw [foldl_cons, hrefused, ih]

theorem moves_stop (s : BatchStream) (mallocCmd mallocNode : Bool) :
    ∃ lost, Moves s (s.stop mallocCmd mallocNode) lost [] ∧ (s.Whole (.stop mallocCmd mallocNode) →
      ∀ c ∈ lost, s.mBatchBufDefs ≠ some c.array) := by
  rw [stop]
  split
  · rename_i hruns
    rw [and_eq_true] at hruns
    dsimp only
    rw [foldl_releaseFrameData _ _ rfl]
    refine ⟨s.mFreeBatchBufQ.nodes ++ s.mDataQ.nodes, ⟨perm_iff_count.mpr fun x => ?_, fun c hc => .inl ?_,
      rfl, rfl, rfl, rfl, rfl⟩, fun hwhole => hwhole hruns.1 hruns.2⟩
    · simp only [places, flushFreeBatchBufQ, QCameraQueue.nodes_flush, nil_append, append_nil, count_append]
      omega
    · exact mem_append_right _ hc
  · exact ⟨[], .refl s, fun _ _ => nofun⟩

/-! ### The arrays -/

theorem active_enqueue (q : QCameraQueue Container) (mallocNode : Bool) (c : Container) :
    (q.enqueue mallocNode c).2.active = q.active := by
  rw [QCameraQueue.enqueue]
  split <;> rfl

theorem nodes_enqueueAll (mallocNode : ℕ → Bool) (q : QCameraQueue Container) (cs : List Container) :
    ∃ taken, taken.Sublist cs ∧ (enqueueAll mallocNode q cs).nodes = q.nodes ++ taken ∧
      (q.active = true → (∀ c ∈ cs, mallocNode c.bufIdx = true) → taken = cs) := by
  induction cs generalizing q with
  | nil => exact ⟨[], .slnil, (append_nil _).symm, fun _ _ => rfl⟩
  | cons c rest ih =>
    obtain ⟨taken, hsub, hnodes, hall⟩ := ih (q.enqueue (mallocNode c.bufIdx) c).2
    rw [active_enqueue] at hall
    rcases q.enqueue_cases (mallocNode c.bufIdx) c with ⟨-, htook⟩ | hfail
    · refine ⟨c :: taken, hsub.cons_cons c, ?_, fun hactive hmalloc => ?_⟩
      · exact hnodes.trans (by rw [htook, append_assoc]; rfl)
      · rw [hall hactive fun c' hc' => hmalloc c' (mem_cons_of_mem _ hc')]
    · refine ⟨taken, hsub.cons c, ?_, fun hactive hmalloc => ?_⟩
      · exact hnodes.trans (by rw [hfail])
      · have hok := (q.enqueue_of_active hactive c).1
        rw [hmalloc c mem_cons_self] at hfail
        rw [hfail] at hok
        cases hok

theorem nodup_containers (array n : ℕ) : (containers array n).Nodup :=
  nodup_range.map fun _ _ heq => (Container.mk.inj heq).2

theorem array_of_mem {array n : ℕ} (h : c ∈ containers array n) : c.array = array := by
  obtain ⟨i, -, rfl⟩ := mem_map.mp h
  rfl

/-- No container is in two places. The arrays are the first ones, and the current one is not released. -/
structure Separate (s : BatchStream) : Prop where
  nodup : s.places.Nodup
  known : ∀ c ∈ s.places, c.array < s.arrays
  current : ∀ array ∈ s.mBatchBufDefs, array < s.arrays ∧ array ∉ s.released
  released : ∀ array ∈ s.released, array < s.arrays
  size : s.mBatchSize = 0 → s.mBatchBufDefs = none

/-- A stream without containers, whose thread is not running. -/
structure Initial (s : BatchStream) : Prop where
  running : s.running = false
  defs : s.mBatchBufDefs = none
  places : s.places = []
  released : s.released = []

theorem Initial.separate (h : s.Initial) : s.Separate where
  nodup := by rw [h.places]; exact nodup_nil
  known := by rw [h.places]; exact fun _ => nofun
  current := by rw [h.defs]; exact fun _ => nofun
  released := by rw [h.released]; exact fun _ => nofun
  size := fun _ => h.defs

theorem Separate.moves (h : s.Separate) (hmoves : Moves s t lost freed) : t.Separate where
  nodup := (nodup_append.mp (hmoves.perm.nodup_iff.mp h.nodup)).1
  known c hc := by
    rw [hmoves.arrays]
    exact h.known c (hmoves.perm.mem_iff.mpr (mem_append_left _ hc))
  current := by
    rw [hmoves.defs, hmoves.arrays, hmoves.released]
    exact h.current
  released := by
    rw [hmoves.arrays, hmoves.released]
    exact h.released
  size := by
    rw [hmoves.size, hmoves.defs]
    exact h.size

theorem Accounted.moves (h : s.Accounted) (hmoves : Moves s t lost freed)
    (hlost : ∀ c ∈ lost, s.mBatchBufDefs ≠ some c.array) (hfreed : ∀ c ∈ freed, c.array ∉ s.released) :
    t.Accounted where
  once array harray c hc := by
    rw [hmoves.defs] at harray
    rw [hmoves.num] at hc
    have hnot : c ∉ lost := fun hmem => hlost c hmem (array_of_mem hc ▸ harray)
    have hcount := hmoves.perm.count_eq c
    rw [h.once array harray c hc, count_append, count_eq_zero_of_not_mem hnot] at hcount
    exact hcount.symm
  fresh c hc := by
    rw [hmoves.released]
    exact (hmoves.handed c hc).elim (h.fresh c) (hfreed c)

variable {calls : BatchCalls}

theorem getBatchBufs_places (hallocated : calls.allocated = true) (hdefs : calls.mallocBufDefs = true) :
    ∃ taken, taken.Sublist (containers s.arrays s.mNumBatchBufs) ∧
      (s.getBatchBufs calls).mFreeBatchBufQ.nodes = s.mFreeBatchBufQ.nodes ++ taken ∧
        (s.getBatchBufs calls).places.Perm (s.places ++ taken) ∧
          (s.Whole (.getBatchBufs calls) → taken = containers s.arrays s.mNumBatchBufs) := by
  obtain ⟨taken, hsub, hnodes, hall⟩ :=
    nodes_enqueueAll calls.mallocNode s.mFreeBatchBufQ (containers s.arrays s.mNumBatchBufs)
  rw [getBatchBufs, hallocated, hdefs]
  refine ⟨taken, hsub, hnodes, List.perm_iff_count.mpr fun x => ?_, fun hwhole => ?_⟩
  · have hx := congrArg (List.count x) hnodes
    simp only [Bool.not_true, Bool.false_eq_true, if_false, places, List.count_append] at hx ⊢
    omega
  · obtain ⟨hactive, hmalloc⟩ := hwhole hallocated hdefs
    refine hall hactive fun c hc => ?_
    obtain ⟨i, hi, rfl⟩ := List.mem_map.mp hc
    exact hmalloc i (List.mem_range.mp hi)

theorem Separate.next_not_mem (h : s.Separate)
    (hc : c ∈ containers s.arrays s.mNumBatchBufs) : c ∉ s.places := fun hmem => by
  have hlt := h.known c hmem
  rw [array_of_mem hc] at hlt
  exact Nat.lt_irrefl _ hlt

theorem getBatchBufs_fails (hfail : ¬ (calls.allocated = true ∧ calls.mallocBufDefs = true)) :
    s.getBatchBufs calls = s ∨ s.getBatchBufs calls = { s with mBatchBufDefs := none } := by
  rw [getBatchBufs]
  cases hallocated : calls.allocated
  · exact .inl rfl
  · cases hdefs : calls.mallocBufDefs
    · exact .inr rfl
    · exact absurd ⟨hallocated, hdefs⟩ hfail

/-- **`getBatchBufs`** keeps the containers apart. -/
theorem Separate.getBatchBufs (h : s.Separate) (hsize : s.mBatchSize ≠ 0) (calls : BatchCalls) :
    (s.getBatchBufs calls).Separate := by
  by_cases hok : calls.allocated = true ∧ calls.mallocBufDefs = true
  · obtain ⟨taken, hsub, -, hplaces, -⟩ := getBatchBufs_places (s := s) hok.1 hok.2
    have heq : s.getBatchBufs calls = { s.getBatchBufs calls with
        mBatchSize := s.mBatchSize
        mBatchBufDefs := some s.arrays
        arrays := s.arrays + 1
        released := s.released } := by
      rw [BatchStream.getBatchBufs, hok.1, hok.2]
      rfl
    refine ⟨hplaces.nodup_iff.mpr (nodup_append.mpr ⟨h.nodup, hsub.nodup (nodup_containers _ _), ?_⟩),
      fun c hc => ?_, ?_, ?_, ?_⟩
    · rintro c hc c' hc' rfl
      exact h.next_not_mem (hsub.subset hc') hc
    · rw [heq]
      rcases mem_append.mp (hplaces.mem_iff.mp hc) with hc | hc
      · exact Nat.lt_succ_of_lt (h.known c hc)
      · rw [array_of_mem (hsub.subset hc)]
        exact Nat.lt_succ_self _
    · rw [heq]
      intro array harray
      cases harray
      exact ⟨Nat.lt_succ_self _, fun hmem => Nat.lt_irrefl _ (h.released _ hmem)⟩
    · rw [heq]
      exact fun array hmem => Nat.lt_succ_of_lt (h.released array hmem)
    · rw [heq]
      exact fun hzero => absurd hzero hsize
  · rcases getBatchBufs_fails (s := s) hok with heq | heq
    · rw [heq]
      exact h
    · rw [heq]
      exact ⟨h.nodup, h.known, fun _ => nofun, h.released, fun _ => rfl⟩

/-- **`getBatchBufs`** keeps the account. -/
theorem Accounted.getBatchBufs (h : s.Accounted) (hsep : s.Separate)
    (hwhole : s.Whole (.getBatchBufs calls)) : (s.getBatchBufs calls).Accounted := by
  by_cases hok : calls.allocated = true ∧ calls.mallocBufDefs = true
  · obtain ⟨taken, hsub, hfree, hplaces, hall⟩ := getBatchBufs_places (s := s) hok.1 hok.2
    obtain rfl := hall hwhole
    have heq : s.getBatchBufs calls = { s.getBatchBufs calls with
        mNumBatchBufs := s.mNumBatchBufs
        mBatchBufDefs := some s.arrays
        mCurrentBatchBufDef := s.mCurrentBatchBufDef
        released := s.released } := by
      rw [BatchStream.getBatchBufs, hok.1, hok.2]
      rfl
    refine ⟨fun array harray c hc => ?_, fun c hc => ?_⟩
    · rw [heq] at harray hc
      cases harray
      rw [hplaces.count_eq, count_append, count_eq_zero_of_not_mem (hsep.next_not_mem hc), Nat.zero_add]
      exact count_eq_one_of_mem (nodup_containers _ _) hc
    · rw [hfree] at hc
      rw [heq] at hc ⊢
      simp only [mem_append] at hc
      rcases hc with (hc | hc) | hc
      · exact h.fresh c (mem_append_left _ hc)
      · rw [array_of_mem hc]
        exact fun hmem => Nat.lt_irrefl _ (hsep.released _ hmem)
      · exact h.fresh c (mem_append_right _ hc)
  · rcases getBatchBufs_fails (s := s) hok with heq | heq
    · rw [heq]
      exact h
    · rw [heq]
      exact ⟨fun _ => nofun, h.fresh⟩

/-- **`putBatchBufs`** keeps the containers apart. -/
theorem Separate.putBatchBufs (h : s.Separate) : s.putBatchBufs.Separate := by
  have hsub : s.putBatchBufs.places.Sublist s.places :=
    (((nil_sublist _).append (.refl _)).append filter_sublist).append (.refl _)
  refine ⟨hsub.nodup h.nodup, fun c hc => h.known c (hsub.subset hc), fun _ => nofun, fun array hmem => ?_,
    fun _ => rfl⟩
  rcases mem_append.mp hmem with hmem | hmem
  · exact h.released array hmem
  · exact (h.current array (mem_toList.mp hmem)).1

/-- **`putBatchBufs`** keeps the account, if no batch is in progress. -/
theorem Accounted.putBatchBufs (h : s.Accounted) (hwhole : s.Whole .putBatchBufs) : s.putBatchBufs.Accounted := by
  refine ⟨fun _ => nofun, fun c hc hmem => ?_⟩
  have hcurrent : c ∈ s.mCurrentBatchBufDef := mem_toList.mp hc
  rcases mem_append.mp hmem with hmem | hmem
  · exact h.fresh c (mem_append_right _ (mem_toList.mpr hcurrent)) hmem
  · exact hwhole c hcurrent (mem_toList.mp hmem)

/-! ### Every run -/

variable {e : Event}

theorem step_cases (hsize : s.mBatchSize = 0 → s.mBatchBufDefs = none) (hstep : s.step e = some t) :
    (∃ calls, e = .getBatchBufs calls ∧ s.mBatchSize ≠ 0 ∧ t = s.getBatchBufs calls) ∨
    (e = .putBatchBufs ∧ t = s.putBatchBufs) ∨
    ∃ lost freed, Moves s t lost freed ∧ (s.Whole e →
      (∀ c ∈ lost, s.mBatchBufDefs ≠ some c.array) ∧ ∀ c ∈ freed, c.array ∉ s.released) := by
  have hnothing (hmoves : Moves s t [] []) : ∃ lost freed, Moves s t lost freed ∧ (s.Whole e →
      (∀ c ∈ lost, s.mBatchBufDefs ≠ some c.array) ∧ ∀ c ∈ freed, c.array ∉ s.released) :=
    ⟨[], [], hmoves, fun _ => ⟨fun _ => nofun, fun _ => nofun⟩⟩
  cases e with
  | getBatchBufs calls =>
    rw [step] at hstep
    split at hstep
    · cases hstep
    · rename_i hne
      exact .inl ⟨calls, rfl, hne, (some.inj hstep).symm⟩
  | putBatchBufs =>
    rw [step] at hstep
    split at hstep
    · cases hstep
    · exact .inr (.inl ⟨rfl, (some.inj hstep).symm⟩)
  | bufDone mapped =>
    cases hstep
    exact .inr (.inr (hnothing (moves_bufDone s mapped)))
  | queueBatchBuf qbuf =>
    cases hstep
    exact .inr (.inr (hnothing (moves_queueBatchBuf s qbuf)))
  | dataNotifyCB c calls =>
    rw [step] at hstep
    split at hstep
    · rename_i hc
      cases hstep
      obtain ⟨lost, hmoves, hlost⟩ := moves_dataNotifyCB hc calls
      exact .inr (.inr ⟨lost, [], hmoves, fun hwhole => ⟨hlost hwhole, fun _ => nofun⟩⟩)
    · cases hstep
  | doNextJob mallocNode =>
    rw [step] at hstep
    split at hstep
    · cases hstep
      exact .inr (.inr (moves_doNextJob hsize mallocNode))
    · cases hstep
  | start =>
    rw [step] at hstep
    split at hstep
    · cases hstep
    · cases hstep
      exact .inr (.inr (hnothing (moves_start s)))
  | stop mallocCmd mallocNode =>
    cases hstep
    obtain ⟨lost, hmoves, hlost⟩ := moves_stop s mallocCmd mallocNode
    exact .inr (.inr ⟨lost, [], hmoves, fun hwhole => ⟨hlost hwhole, fun _ => nofun⟩⟩)

/-- **Any event** keeps the containers apart. -/
theorem Separate.step (h : s.Separate) (hstep : s.step e = some t) : t.Separate := by
  obtain ⟨calls, -, hsize, rfl⟩ | ⟨-, rfl⟩ | ⟨lost, freed, hmoves, -⟩ := step_cases h.size hstep
  · exact h.getBatchBufs hsize calls
  · exact h.putBatchBufs
  · exact h.moves hmoves

/-- **An event that meets the condition** keeps the account. -/
theorem Accounted.step (h : s.Accounted) (hsep : s.Separate) (hwhole : s.Whole e)
    (hstep : s.step e = some t) : t.Accounted := by
  obtain ⟨calls, rfl, -, rfl⟩ | ⟨rfl, rfl⟩ | ⟨lost, freed, hmoves, hkept⟩ := step_cases hsep.size hstep
  · exact h.getBatchBufs hsep hwhole
  · exact h.putBatchBufs hwhole
  · obtain ⟨hlost, hfreed⟩ := hkept hwhole
    exact h.moves hmoves hlost hfreed

/-- **The containers.** In every run whose events meet the condition every container of the current array is
in one place, and no container of a released array is free or current. -/
theorem containers_run {es : List Event} (hs : s.Initial) (h : Run (guarded Whole (fires step)) s es t) :
    t.Accounted := by
  have hhanded : s.handed = [] := by
    have hplaces := hs.places
    rw [places, append_eq_nil_iff, append_eq_nil_iff] at hplaces
    exact hplaces.1.1
  have hinitial : s.Accounted := by
    refine ⟨fun array harray => ?_, fun c hc => ?_⟩
    · rw [hs.defs] at harray
      cases harray
    · change c ∈ s.handed at hc
      rw [hhanded] at hc
      cases hc
  exact (h.invariant (I := fun s => s.Separate ∧ s.Accounted) (fun _ _ _ hinv hstep =>
    ⟨hinv.1.step hstep.2, hinv.2.step hinv.1 hstep.1 hstep.2⟩) ⟨hs.separate, hinitial⟩).2

/-- Two containers of two buffers, both with the kernel when the thread stops; then another array. -/
def batchSession : List Event :=
  [.start, .getBatchBufs {}, .bufDone true, .bufDone true, .queueBatchBuf false, .queueBatchBuf true,
    .bufDone true, .queueBatchBuf true, .dataNotifyCB ⟨0, 0⟩ {}, .doNextJob true, .bufDone true,
    .queueBatchBuf true, .stop true true, .putBatchBufs, .start, .getBatchBufs {}, .bufDone true]

/-- The containers of the session are accounted for. -/
theorem containers_session : Initial { mBatchSize := 2, mNumBatchBufs := 2 } ∧
    ∃ t, Run (guarded Whole (fires step)) { mBatchSize := 2, mNumBatchBufs := 2 } batchSession t ∧
      t.Accounted ∧ t.mBatchBufDefs = some 1 ∧ t.places = [⟨1, 1⟩, ⟨1, 0⟩] :=
  have hinitial : Initial { mBatchSize := 2, mNumBatchBufs := 2 } := ⟨rfl, rfl, rfl, rfl⟩
  ⟨hinitial, (exists_run (by decide)).imp fun _ h => ⟨h.1, containers_run hinitial h.1, h.2⟩⟩

/-- The stream is stopped and started again in the middle of a batch. -/
def midBatchRestart : List Event :=
  [.start, .getBatchBufs {}, .bufDone true, .stop true true, .putBatchBufs, .start, .getBatchBufs {}, .bufDone true]

/-- The next buffer is staged in a container of the array that was released. -/
theorem restart_stages_released : Initial { mBatchSize := 2, mNumBatchBufs := 2 } ∧
    ∃ t, Run (fires step) { mBatchSize := 2, mNumBatchBufs := 2 } midBatchRestart t ∧
      t.mBatchBufDefs = some 1 ∧ t.released = [0] ∧ t.mCurrentBatchBufDef = some ⟨0, 0⟩ ∧
        t.mBufsStaged = 2 ∧ ¬ t.Accounted := by
  refine ⟨⟨rfl, rfl, rfl, rfl⟩, (exists_run_fires (P := fun t => t.mBatchBufDefs = some 1 ∧
    t.released = [0] ∧ t.mCurrentBatchBufDef = some ⟨0, 0⟩ ∧ t.mBufsStaged = 2) (by decide)).imp
    fun t ht => ⟨ht.1, ?_⟩⟩
  obtain ⟨-, hdefs, hreleased, hcurrent, hstaged⟩ := ht
  refine ⟨hdefs, hreleased, hcurrent, hstaged, fun haccounted => ?_⟩
  have hfresh := haccounted.fresh ⟨0, 0⟩ (by rw [hcurrent]; exact mem_append_right _ (by simp))
  rw [hreleased] at hfresh
  exact hfresh (mem_singleton_self 0)

end BatchStream

end BatchContainers

end Marlin
