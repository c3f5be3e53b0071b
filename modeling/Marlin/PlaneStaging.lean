import Marlin.Transition

/-!
# Staging Plane Buffers

The plane buffers of a batch stream can be returned one by one. `mm_stream_write_user_buf` stages
each in a container buffer that is neither in the kernel nor in use, the current one, and queues the
container when as many are staged as it uses. What the kernel sees is the array in the memory of
the container, which is filled from `user_buf.buf_idx` right before.

The position in `user_buf.buf_idx` that a plane buffer is written to is the local `count`, which is
never anything but `0`. So of the staged plane buffers only the last one is listed, in the first
entry, and the other entries are what they were.

## Conventions

* A call is one step; `other` stands for what the other parts of the stream do in between to the
  status of the buffers and to the containers. They do not touch `cur_buf_idx` and
  `cur_bufs_staged`.
* Each container that is queued with staged plane buffers is recorded, with the array that the kernel
  sees and the plane buffers that were staged since it became the current one.

## Main results

* `writeUserBuf_cases`: what a returned plane buffer comes to.
* `listed_run`: as long as no plane buffer is staged in a container that has one already, the
  containers list what was staged in them.
-/

namespace Marlin

open List Transition

/-- `mm_stream_buf_status_t`. -/
structure BufStatus where
  bufRefcnt : ℕ := 0
  inKernel : Bool := false
  deriving DecidableEq

/-- A container buffer: its `user_buf`, and `cont_buf`, the first `buf_cnt` entries of the array in
its memory. -/
structure UserBuf where
  bufsUsed : ℕ
  bufInUse : Bool := false
  bufIdx : ℕ → ℤ := fun _ => -1
  contBuf : List ℤ := []

/-- A buffer that is returned: a container or a plane buffer. -/
structure ReturnedBuf where
  userptr : Bool
  bufIdx : ℕ
  deriving DecidableEq

/-- A container that was queued with staged plane buffers. -/
structure QueuedBatch where
  index : ℕ
  bufsUsed : ℕ
  contBuf : List ℤ
  staged : List ℤ
  deriving DecidableEq

/-- The stream object with what is recorded of it. -/
structure PlaneStream where
  bufNum : ℕ
  status : ℕ → BufStatus
  buf : ℕ → UserBuf
  curBufIdx : ℤ := -1
  curBufsStaged : ℕ := 0
  staged : List ℤ := []
  queued : List QueuedBatch := []

namespace PlaneStream

/-- A reference to a container is dropped. -/
def dropRef (s : PlaneStream) (index : ℕ) : PlaneStream :=
  { s with
    status := Function.update s.status index
      ({ s.status index with bufRefcnt := ((s.status index).bufRefcnt + 255) % 256 }) }

/-- The first `bufs_used` entries of `user_buf.buf_idx`. -/
def UserBuf.listed (u : UserBuf) : List ℤ := (List.range u.bufsUsed).map u.bufIdx

/-- The container is queued with the array that its memory gets; when `qbuf` succeeds the entries are
placeholders again. -/
def queueContainer (s : PlaneStream) (index : ℕ) (qbuf : Bool) : PlaneStream :=
  let u := s.buf index
  if qbuf then
    { s with
      status := Function.update s.status index ({ s.status index with inKernel := true })
      buf := Function.update s.buf index ({ u with
          contBuf := UserBuf.listed u
          bufInUse := true
          bufIdx := fun i => if i < u.bufsUsed then -1 else u.bufIdx i }) }
  else { s with buf := Function.update s.buf index ({ u with contBuf := UserBuf.listed u }) }

/-- The container that the next plane buffer is staged in. -/
def currentContainer (s : PlaneStream) : Option ℕ :=
  if s.curBufIdx < 0 ∨ (s.bufNum : ℤ) ≤ s.curBufIdx then
    (List.range s.bufNum).find? fun i => !(s.status i).inKernel && !(s.buf i).bufInUse
  else some s.curBufIdx.toNat

/-- A plane buffer is written to the array of a container. The position `count` is `0`. -/
def stage (s : PlaneStream) (index : ℕ) (bufIdx : ℕ) : PlaneStream :=
  let count := 0
  { s with
    curBufIdx := index
    buf := Function.update s.buf index
      ({ s.buf index with bufIdx := Function.update (s.buf index).bufIdx count bufIdx })
    curBufsStaged := (s.curBufsStaged + 1) % 256
    staged := (if s.curBufIdx = index then s.staged else []) ++ [(bufIdx : ℤ)] }

/-- A container with enough plane buffers is queued, if this drops its last reference. -/
def queueStaged (s : PlaneStream) (index : ℕ) (qbuf : Bool) : ℤ × PlaneStream :=
  let t := s.dropRef index
  if (t.status index).bufRefcnt = 0 then
    if qbuf then
      (0, { t.queueContainer index qbuf with
        curBufsStaged := 0
        curBufIdx := -1
        queued := s.queued ++ [⟨index, (s.buf index).bufsUsed, UserBuf.listed (s.buf index), s.staged⟩] })
    else (-1, t.queueContainer index qbuf)
  else (0, t)

/-- `mm_stream_write_user_buf`. -/
def writeUserBuf (s : PlaneStream) (f : ReturnedBuf) (qbuf : Bool) : ℤ × PlaneStream :=
  if f.userptr then
    let t := s.dropRef f.bufIdx
    if (t.status f.bufIdx).bufRefcnt = 0 then
      (if qbuf then 0 else -1, t.queueContainer f.bufIdx qbuf)
    else (0, t)
  else
    match s.currentContainer with
    | none => (-1, s)
    | some index =>
      let t := s.stage index f.bufIdx
      if t.curBufsStaged = (t.buf index).bufsUsed then t.queueStaged index qbuf else (0, t)

/-- `mm_stream_buf_done` of a batch stream. -/
def bufDone (s : PlaneStream) (f : ReturnedBuf) (qbuf : Bool) : ℤ × PlaneStream :=
  if (s.status f.bufIdx).bufRefcnt = 0 then (-1, s) else s.writeUserBuf f qbuf

/-- What happens to the stream. -/
inductive Action where
  /-- A buffer is returned; `qbuf` is whether the kernel would take the container. -/
  | bufDone (f : ReturnedBuf) (qbuf : Bool)
  /-- Another part of the stream changes the status of buffers or the containers. -/
  | other (status : ℕ → BufStatus) (buf : ℕ → UserBuf)

/-- A step. -/
def Step (s : PlaneStream) : Action → PlaneStream → Prop
  | .bufDone f qbuf, t => t = (s.bufDone f qbuf).2
  | .other status buf, t => t = { s with status := status, buf := buf }

/-- No plane buffer is staged in a container that has one already. -/
def Single (s : PlaneStream) : Action → Prop
  | .bufDone f _ => f.userptr = false → s.curBufsStaged = 0
  | .other _ _ => True

instance (s : PlaneStream) : DecidablePred (Single s) := fun e => by
  delta Single
  cases e <;> infer_instance

/-- The containers that were queued list what was staged in them, as many as they use. -/
def Listed (s : PlaneStream) : Prop :=
  ∀ q ∈ s.queued, q.contBuf = q.staged ∧ q.staged.length = q.bufsUsed

/-- Nothing is staged where there is no current container. -/
structure Inv (s : PlaneStream) : Prop where
  idle : s.curBufsStaged = 0 → s.curBufIdx = -1
  listed : s.Listed

/-- **What a returned buffer comes to**: a container goes back, or no container is free for a plane
buffer, or the plane buffer is staged. -/
theorem writeUserBuf_cases (s : PlaneStream) (f : ReturnedBuf) (qbuf : Bool) :
    (f.userptr = true ∧ ((s.writeUserBuf f qbuf).2 = s.dropRef f.bufIdx ∨
        (s.writeUserBuf f qbuf).2 = (s.dropRef f.bufIdx).queueContainer f.bufIdx qbuf)) ∨
      (f.userptr = false ∧ s.currentContainer = none ∧ (s.writeUserBuf f qbuf).2 = s) ∨
      ∃ index, f.userptr = false ∧ s.currentContainer = some index ∧
        ((s.writeUserBuf f qbuf).2 = s.stage index f.bufIdx ∨
          (s.stage index f.bufIdx).curBufsStaged = (s.buf index).bufsUsed ∧
            (s.writeUserBuf f qbuf).2 = ((s.stage index f.bufIdx).queueStaged index qbuf).2) := by
  rw [writeUserBuf]
  split
  · rename_i hcont
    refine .inl ⟨hcont, ?_⟩
    dsimp only
    split
    · exact .inr rfl
    · exact .inl rfl
  · rename_i hplane
    have hplane : f.userptr = false := by simpa using hplane
    split
    · rename_i hnone
      exact .inr (.inl ⟨hplane, hnone, rfl⟩)
    · rename_i index hsome
      refine .inr (.inr ⟨index, hplane, hsome, ?_⟩)
      have hused : ((s.stage index f.bufIdx).buf index).bufsUsed = (s.buf index).bufsUsed := by
        simp [stage]
      dsimp only
      split
      · rename_i hfull
        exact .inr ⟨hfull.trans hused, rfl⟩
      · exact .inl rfl

theorem dropRef_inv {s : PlaneStream} (h : Inv s) (index : ℕ) : Inv (s.dropRef index) :=
  ⟨h.idle, h.listed⟩

theorem queueContainer_inv {s : PlaneStream} (h : Inv s) (index : ℕ) (qbuf : Bool) :
    Inv (s.queueContainer index qbuf) := by
  rw [queueContainer]
  dsimp only
  split
  · exact ⟨h.idle, h.listed⟩
  · exact ⟨h.idle, h.listed⟩

theorem queueStaged_inv {s : PlaneStream} (h : Inv s) (hnone : s.curBufsStaged = 0) {index bufIdx : ℕ}
    (hfull : (s.stage index bufIdx).curBufsStaged = (s.buf index).bufsUsed) (qbuf : Bool) :
    Inv ((s.stage index bufIdx).queueStaged index qbuf).2 := by
  have hstaged : (s.stage index bufIdx).curBufsStaged = 1 := by rw [stage, hnone]
  have hbusy (t : PlaneStream) (hcur : t.curBufsStaged = 1) (hqueued : t.queued = s.queued) : Inv t :=
    ⟨fun hzero => absurd (hcur.symm.trans hzero) Nat.one_ne_zero, fun q hq => h.listed q (hqueued ▸ hq)⟩
  rw [queueStaged]
  dsimp only
  split
  · split
    · refine ⟨fun _ => rfl, fun q hq => ?_⟩
      rcases mem_append.mp hq with hq | hq
      · exact h.listed q hq
      · obtain rfl := mem_singleton.mp hq
        have hone : (s.buf index).bufsUsed = 1 := hfull.symm.trans hstaged
        have hcur : s.curBufIdx ≠ index := by
          rw [h.idle hnone]
          omega
        simp [stage, UserBuf.listed, hone, if_neg hcur]
    · refine hbusy _ ?_ ?_ <;> rw [queueContainer] <;> dsimp only <;> split
      · exact hstaged
      · exact hstaged
      · rfl
      · rfl
  · exact hbusy _ hstaged rfl

/-- **One step.** -/
theorem Inv.step {s t : PlaneStream} {a : Action} (h : Inv s) (hsingle : Single s a) (hstep : Step s a t) : Inv t := by
  cases a with
  | other status buf =>
    obtain rfl := hstep
    exact ⟨h.idle, h.listed⟩
  | bufDone f qbuf =>
    obtain rfl : t = (s.bufDone f qbuf).2 := hstep
    rw [bufDone]
    split
    · exact h
    rcases s.writeUserBuf_cases f qbuf with ⟨-, heq | heq⟩ | ⟨-, -, heq⟩ | ⟨index, hplane, -, hcases⟩
    · rw [heq]
      exact dropRef_inv h f.bufIdx
    · rw [heq]
      exact queueContainer_inv (dropRef_inv h f.bufIdx) f.bufIdx qbuf
    · rw [heq]
      exact h
    · have hnone := hsingle hplane
      rcases hcases with heq | ⟨hfull, heq⟩
      · rw [heq]
        refine ⟨fun hzero => ?_, h.listed⟩
        rw [stage, hnone] at hzero
        cases hzero
      · rw [heq]
        exact queueStaged_inv h hnone hfull qbuf

/-- A stream that has just been given its buffers: nothing is staged, and nothing was queued. -/
structure Fresh (s : PlaneStream) : Prop where
  cur : s.curBufIdx = -1
  staged : s.curBufsStaged = 0
  queued : s.queued = []

/-- **Staged plane buffers.** As long as no plane buffer is staged in a container that has one
already, every container that is queued lists what was staged in it. -/
theorem listed_run {s t : PlaneStream} {as : List Action} (hs : Fresh s)
    (hrun : Run (guarded Single Step) s as t) : t.Listed := by
  have hinit : Inv s := ⟨fun _ => hs.cur, fun q hq => absurd (hs.queued ▸ hq) not_mem_nil⟩
  exact (hrun.invariant (fun _ _ _ h hstep => h.step hstep.1 hstep.2) hinit).listed

/-- Two containers: the first was read, the second is held since the stream was set up. -/
def twoContainers (bufsUsed : ℕ) : PlaneStream :=
  { bufNum := 2
    status := fun _ => { bufRefcnt := 1 }
    buf := fun i => { bufsUsed := bufsUsed, bufInUse := i == 0 } }

/-- A plane buffer goes back in a container of one. -/
theorem listed_run_one : ∃ as t, Run (guarded Single Step) (twoContainers 1) as t ∧
    t.queued = [⟨1, 1, [0], [0]⟩] ∧ t.Listed := by
  have hrun : Run (guarded Single Step) (twoContainers 1) [.bufDone ⟨false, 0⟩ true] _ :=
    .single ⟨by decide, rfl⟩
  exact ⟨_, _, hrun, by decide, listed_run ⟨rfl, rfl, rfl⟩ hrun⟩

/-- Of two plane buffers only the second one is listed, and a placeholder. -/
theorem not_listed_run : ¬ ∀ s, Fresh s → ∀ as t, Run Step s as t → t.Listed := by
  intro hall
  let s := (twoContainers 2).bufDone ⟨false, 0⟩ true |>.2
  have hone : Run Step (twoContainers 2) [.bufDone ⟨false, 0⟩ true] s := .single rfl
  have htwo : Step s (.bufDone ⟨false, 1⟩ true) (s.bufDone ⟨false, 1⟩ true).2 := rfl
  have hlisted := hall _ ⟨rfl, rfl, rfl⟩ _ _ (hone.snoc htwo) ⟨1, 2, [1, -1], [0, 1]⟩ (by decide)
  exact absurd hlisted.1 (by decide)

end PlaneStream

end Marlin
