import Mathlib.Data.List.Basic

/-!
# Queues and Command Threads

`QCameraQueue` and `QCameraCmdThread`, on which the threads of the hardware interface are built. A
queue is switched off by its flush and on again by `init`; a command thread has a queue of commands
and a semaphore that counts them.

## Conventions

* The two allocations of a call, of the node of the queue and of the command, are taken from the
  environment.
* Each function holds the lock of its queue, and is one step.

## Main results

* `QCameraQueue.nodes_of_active`: a queue that is switched off is empty, as a part of its type.
-/

namespace Marlin

/-- `QCameraQueue`. A queue that is not active is empty: `flush` empties it as it switches it off, and
`enqueue` refuses from then on. -/
structure QCameraQueue (α : Type*) where
  active : Bool := true
  nodes : List α := []
  empty_of_inactive : active = false → nodes = [] := by simp

namespace QCameraQueue

variable {α : Type*}

/-- `QCameraQueue::init`. -/
def init (q : QCameraQueue α) : QCameraQueue α where
  active := true
  nodes := q.nodes

/-- `QCameraQueue::isEmpty`. -/
def isEmpty (q : QCameraQueue α) : Bool := q.nodes.isEmpty

/-- `QCameraQueue::enqueue`; `malloc` is the outcome of the allocation of the node. -/
def enqueue (q : QCameraQueue α) (malloc : Bool) (a : α) : Bool × QCameraQueue α :=
  if h : malloc = true ∧ q.active = true then
    (true, { active := q.active, nodes := q.nodes ++ [a], empty_of_inactive := by simp [h.2] })
  else (false, q)

/-- `QCameraQueue::enqueueWithPriority`: at the head. -/
def enqueueWithPriority (q : QCameraQueue α) (malloc : Bool) (a : α) : Bool × QCameraQueue α :=
  if h : malloc = true ∧ q.active = true then
    (true, { active := q.active, nodes := a :: q.nodes, empty_of_inactive := by simp [h.2] })
  else (false, q)

/-- `QCameraQueue::dequeue`, from the head. A queue that is not active has no node to find. -/
def dequeue (q : QCameraQueue α) : Option α × QCameraQueue α :=
  (q.nodes.head?,
    { active := q.active
      nodes := q.nodes.tail
      empty_of_inactive := fun h => by simp [q.empty_of_inactive h] })

/-- `QCameraQueue::flush`: the nodes that are released, and the queue. One that is not active is left
as it is, and that is empty. -/
def flush (q : QCameraQueue α) : List α × QCameraQueue α :=
  (q.nodes, { active := false, nodes := [] })

/-- `QCameraQueue::flushNodes`: the nodes that match and are released, and the queue. -/
def flushNodes (q : QCameraQueue α) (isMatch : α → Bool) : List α × QCameraQueue α :=
  (q.nodes.filter isMatch,
    { active := q.active
      nodes := q.nodes.filter fun a => !isMatch a
      empty_of_inactive := fun h => by simp [q.empty_of_inactive h] })

@[simp] theorem nodes_dequeue (q : QCameraQueue α) : q.dequeue.2.nodes = q.nodes.tail := rfl

@[simp] theorem fst_dequeue (q : QCameraQueue α) : q.dequeue.1 = q.nodes.head? := rfl

@[simp] theorem nodes_flush (q : QCameraQueue α) : q.flush.2.nodes = [] := rfl

@[simp] theorem isEmpty_iff (q : QCameraQueue α) : q.isEmpty = true ↔ q.nodes = [] :=
  List.isEmpty_iff

/-- A queue with nodes is active. -/
theorem nodes_of_active (q : QCameraQueue α) (h : q.nodes ≠ []) : q.active = true := by
  by_contra hoff
  exact h (q.empty_of_inactive (by simpa using hoff))

theorem enqueue_cases (q : QCameraQueue α) (malloc : Bool) (a : α) :
    ((q.enqueue malloc a).1 = true ∧ (q.enqueue malloc a).2.nodes = q.nodes ++ [a]) ∨
      q.enqueue malloc a = (false, q) := by
  rw [enqueue]
  split
  · exact .inl ⟨rfl, rfl⟩
  · exact .inr rfl

theorem enqueueWithPriority_cases (q : QCameraQueue α) (malloc : Bool) (a : α) :
    ((q.enqueueWithPriority malloc a).1 = true ∧ (q.enqueueWithPriority malloc a).2.nodes = a :: q.nodes) ∨
      q.enqueueWithPriority malloc a = (false, q) := by
  rw [enqueueWithPriority]
  split
  · exact .inl ⟨rfl, rfl⟩
  · exact .inr rfl

theorem enqueue_of_active (q : QCameraQueue α) (h : q.active = true) (a : α) :
    (q.enqueue true a).1 = true ∧ (q.enqueue true a).2.nodes = q.nodes ++ [a] := by
  rw [enqueue, dif_pos ⟨rfl, h⟩]
  exact ⟨rfl, rfl⟩

end QCameraQueue

/-- `camera_cmd_type_t`; `none` is what `getCmd` answers on an empty queue. -/
inductive CameraCmdType
  | none
  | startDataProc
  | stopDataProc
  | doNextJob
  | exit
  deriving DecidableEq

/-- `QCameraCmdThread`. -/
structure QCameraCmdThread where
  cmdQueue : QCameraQueue CameraCmdType := {}
  cmdSem : ℕ := 0

namespace QCameraCmdThread

/-- `QCameraCmdThread::sendCmd`, up to the wait of a synchronous command. The answer is an error where
the command is not allocated, and none where it is not enqueued. -/
def sendCmd (th : QCameraCmdThread) (mallocCmd mallocNode : Bool) (cmd : CameraCmdType)
    (priority : Bool) : Bool × QCameraCmdThread :=
  if mallocCmd then
    (true, {
      cmdQueue :=
        if priority then (th.cmdQueue.enqueueWithPriority mallocNode cmd).2
        else (th.cmdQueue.enqueue mallocNode cmd).2
      cmdSem := th.cmdSem + 1 })
  else (false, th)

/-- The wait for the semaphore and `QCameraCmdThread::getCmd`; no answer while the thread waits. -/
def getCmd (th : QCameraCmdThread) : Option (CameraCmdType × QCameraCmdThread) :=
  if th.cmdSem = 0 then Option.none
  else some (th.cmdQueue.dequeue.1.getD .none, { cmdQueue := th.cmdQueue.dequeue.2, cmdSem := th.cmdSem - 1 })

end QCameraCmdThread

end Marlin
