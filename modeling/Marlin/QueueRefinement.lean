import Marlin.BufferLedger
import Marlin.CircularList
import Marlin.CmdThread
import Marlin.Loop
import Marlin.Transition

/-!
# The Queue as a Linked List

`QCameraQueue` is a circular list behind a dummy head. What it does to the list of its elements is the queue that the
threads are modelled with, `CmdThread`; here it is the nodes and their links.

## Conventions

* An element is a pointer, `none` for NULL, and a call records what it answers and what it does with elements.
  `dataFn` tells if the queue has an `m_dataFn`.
* `malloc` gives a node that is not in use, or nothing; `live` are the nodes that were not freed.
* A match function is given with its arguments, and is `none` if the call is refused for a NULL argument.
* A loop may go round once for each node, and once more.

## Main results

* `Refines.step`: what a call does to the nodes is what it does to the list of the elements.
* `refines_run`: all calls, and what has become of each element.
-/

namespace Marlin

open List Function CircularList Transition

/-- What the queue answers, and what it does with an element. -/
inductive QueueEvent (δ : Type*)
  | accepted (data : Option δ)
  | refused
  | peeked (data : Option δ)
  | dequeued (data : Option δ)
  | nothing
  | passed (data : δ)
  | freed (data : δ)
  deriving DecidableEq

/-- The calls. -/
inductive QueueCall (ν δ : Type*)
  | init
  | enqueue (node : Option ν) (data : Option δ)
  | enqueueWithPriority (node : Option ν) (data : Option δ)
  | peek
  | dequeue (bFromHead : Bool)
  | dequeueMatch (isMatch : Option (Option δ → Bool))
  | flush
  | flushNodes (isMatch : Option (Option δ → Bool))

variable {ν δ : Type*}

/-- A node is flushed. -/
def QueueEvent.release (dataFn : Bool) : Option δ → List (QueueEvent δ)
  | none => []
  | some data => (if dataFn then [.passed data] else []) ++ [.freed data]

open QueueEvent

/-! ### The list of the elements -/

/-- The queue of the elements, with its record. -/
structure FifoQueue (δ : Type*) where
  queue : QCameraQueue (Option δ) := {}
  log : List (QueueEvent δ) := []

namespace FifoQueue

def put (s : FifoQueue δ) (data : Option δ) (r : Bool × QCameraQueue (Option δ)) : FifoQueue δ :=
  ⟨r.2, s.log ++ [if r.1 then .accepted data else .refused]⟩

/-- An element leaves, if there is one. -/
def take (s : FifoQueue δ) (find : List (Option δ) → Option (Option δ))
    (rest : List (Option δ) → List (Option δ)) (h : rest [] = []) : FifoQueue δ where
  queue :=
    { active := s.queue.active
      nodes := rest s.queue.nodes
      empty_of_inactive := fun hoff => by rw [s.queue.empty_of_inactive hoff, h] }
  log := s.log ++ [(find s.queue.nodes).elim .nothing .dequeued]

def drop (s : FifoQueue δ) (dataFn : Bool) (r : List (Option δ) × QCameraQueue (Option δ)) : FifoQueue δ :=
  ⟨r.2, s.log ++ r.1.flatMap (release dataFn)⟩

/-- What a call does. -/
def step (dataFn : Bool) (s : FifoQueue δ) : QueueCall ν δ → FifoQueue δ
  | .init => { s with queue := s.queue.init }
  | .enqueue node data => s.put data (s.queue.enqueue node.isSome data)
  | .enqueueWithPriority node data => s.put data (s.queue.enqueueWithPriority node.isSome data)
  | .peek => { s with log := s.log ++ [.peeked s.queue.nodes.head?.join] }
  | .dequeue true => s.take head? tail rfl
  | .dequeue false => s.take getLast? dropLast rfl
  | .dequeueMatch none => { s with log := s.log ++ [.nothing] }
  | .dequeueMatch (some isMatch) => s.take (find? isMatch) (eraseP isMatch) rfl
  | .flush => s.drop dataFn s.queue.flush
  | .flushNodes none => s
  | .flushNodes (some isMatch) => s.drop dataFn (s.queue.flushNodes isMatch)

/-- **Each element leaves once**: one that was accepted is in the queue, or was dequeued, or was freed, and passed to
`m_dataFn` before if there is one. -/
def Accounted [DecidableEq δ] (s : FifoQueue δ) (dataFn : Bool) : Prop :=
  ∀ data, s.log.count (.accepted (some data)) =
      s.log.count (.dequeued (some data)) + s.log.count (.freed data) + s.queue.nodes.count (some data) ∧
    s.log.count (.passed data) = if dataFn then s.log.count (.freed data) else 0

variable [DecidableEq δ] {s : FifoQueue δ} {dataFn : Bool}

theorem count_release (dataFn : Bool) (l : List (Option δ)) (data : δ) :
    (l.flatMap (release dataFn)).count (.freed data) = l.count (some data) ∧
    (l.flatMap (release dataFn)).count (.passed data) = (if dataFn then l.count (some data) else 0) ∧
    (l.flatMap (release dataFn)).count (.accepted (some data)) = 0 ∧
    (l.flatMap (release dataFn)).count (.dequeued (some data)) = 0 := by
  induction l with
  | nil => simp
  | cons x l ih =>
    obtain ⟨hfreed, hpassed, haccepted, hdequeued⟩ := ih
    simp only [flatMap_cons, count_append, hfreed, hpassed, haccepted, hdequeued]
    cases x <;> cases dataFn <;> simp [release, count_cons, Nat.add_comm]

theorem Accounted.put (h : s.Accounted dataFn) {data : Option δ} {r : Bool × QCameraQueue (Option δ)}
    (hr : r = (false, s.queue) ∨ r.1 = true ∧ r.2.nodes.Perm (data :: s.queue.nodes)) :
    (s.put data r).Accounted dataFn := fun d => by
  obtain ⟨hone, hpassed⟩ := h d
  rcases hr with rfl | ⟨hok, hperm⟩
  · simpa [FifoQueue.put, hpassed] using hone
  · simp only [FifoQueue.put, hok, hperm.count_eq, count_append, count_cons, count_nil]
    by_cases heq : data = some d <;> simp [heq] <;> omega

theorem Accounted.take (h : s.Accounted dataFn) {find : List (Option δ) → Option (Option δ)}
    {rest : List (Option δ) → List (Option δ)} (hnil : rest [] = [])
    (hrest : s.queue.nodes.Perm ((find s.queue.nodes).toList ++ rest s.queue.nodes)) :
    (s.take find rest hnil).Accounted dataFn := fun d => by
  obtain ⟨hone, hpassed⟩ := h d
  rw [hrest.count_eq] at hone
  simp only [FifoQueue.take, count_append]
  cases hfind : find s.queue.nodes <;> simp_all [count_cons]; omega

theorem Accounted.drop (h : s.Accounted dataFn) {r : List (Option δ) × QCameraQueue (Option δ)}
    (hr : s.queue.nodes.Perm (r.1 ++ r.2.nodes)) : (s.drop dataFn r).Accounted dataFn := fun d => by
  obtain ⟨hone, hpassed⟩ := h d
  obtain ⟨h1, h2, h3, h4⟩ := count_release dataFn r.1 d
  rw [hr.count_eq, count_append] at hone
  simp only [FifoQueue.drop, count_append, h1, h2, h3, h4, hpassed]
  cases dataFn <;> simp
  all_goals omega

/-- **A call** loses no element. -/
theorem Accounted.step (h : s.Accounted dataFn) (call : QueueCall ν δ) : (s.step dataFn call).Accounted dataFn := by
  cases call with
  | init => exact h
  | enqueue node data =>
    exact h.put ((s.queue.enqueue_cases node.isSome data).symm.imp_right (And.imp_right fun hok =>
      (Perm.of_eq hok).trans (perm_append_singleton ..)))
  | enqueueWithPriority node data =>
    exact h.put ((s.queue.enqueueWithPriority_cases node.isSome data).symm.imp_right (And.imp_right .of_eq))
  | peek => exact fun d => by simpa [FifoQueue.step] using h d
  | dequeue fromHead =>
    cases fromHead with
    | true => exact h.take rfl (by cases s.queue.nodes <;> rfl)
    | false =>
      refine h.take rfl ?_
      rcases eq_nil_or_concat' s.queue.nodes with heq | ⟨l, x, heq⟩ <;> simp [heq, (perm_append_singleton ..)]
  | dequeueMatch isMatch =>
    cases isMatch with
    | none => exact fun d => by simpa [FifoQueue.step] using h d
    | some isMatch =>
      refine h.take rfl ?_
      cases hfind : s.queue.nodes.find? isMatch with
      | none => exact .of_eq (eraseP_of_forall_not (find?_eq_none.mp hfind)).symm
      | some => exact BufferLedger.perm_cons_eraseP hfind
  | flush => exact h.drop (.of_eq (append_nil _).symm)
  | flushNodes isMatch =>
    cases isMatch with
    | none => exact h
    | some isMatch => exact h.drop (filter_append_perm isMatch s.queue.nodes).symm

end FifoQueue

/-! ### The nodes -/

/-- The nodes behind the dummy head `head`. -/
structure LinkedQueue (ν δ : Type*) where
  head : ν
  links : Links ν
  data : ν → Option δ
  live : List ν := []
  size : ℤ := 0
  active : Bool := true
  log : List (QueueEvent δ) := []

namespace LinkedQueue

variable [DecidableEq ν]

def emit (q : LinkedQueue ν δ) (events : List (QueueEvent δ)) : LinkedQueue ν δ := { q with log := q.log ++ events }

/-- The constructor. -/
def new (head : ν) (links : Links ν) (data : ν → Option δ) : LinkedQueue ν δ :=
  { head := head, links := links.init head, data := data }

/-- A node is linked in, if the queue is active, and else freed. -/
def put (q : LinkedQueue ν δ) (insert : ν → Links ν) (node : Option ν) (data : Option δ) : LinkedQueue ν δ :=
  match node with
  | none => q.emit [.refused]
  | some node =>
    if q.active then
      { q with
        links := insert node
        data := Function.update q.data node data
        live := node :: q.live
        size := q.size + 1
        log := q.log ++ [.accepted data] }
    else q.emit [.refused]

/-- `enqueueWithPriority` links the node by hand. -/
def addHead (l : Links ν) (head node : ν) : Links ν where
  next := Function.update (Function.update l.next head node) node (l.next head)
  prev := Function.update (Function.update l.prev (l.next head) node) node head

/-- A node is unlinked and freed. -/
def unlink (q : LinkedQueue ν δ) (node : ν) (events : List (QueueEvent δ)) : LinkedQueue ν δ :=
  { q with
    links := q.links.del node
    size := q.size - 1
    live := q.live.erase node
    log := q.log ++ events }

def dequeue (q : LinkedQueue ν δ) (bFromHead : Bool) : LinkedQueue ν δ :=
  let pos := if bFromHead then q.links.next q.head else q.links.prev q.head
  if q.active ∧ pos ≠ q.head then q.unlink pos [.dequeued (q.data pos)] else q.emit [.nothing]

/-- A round of `dequeue` with a match function. -/
def matchRound (isMatch : Option δ → Bool) (s : LinkedQueue ν δ × ν) : ForInStep (LinkedQueue ν δ × ν) :=
  if s.2 = s.1.head then .done (s.1.emit [.nothing], s.2)
  else if isMatch (s.1.data s.2) then .done (s.1.unlink s.2 [.dequeued (s.1.data s.2)], s.2)
  else .yield (s.1, s.1.links.next s.2)

/-- A round of `flush` and of the two `flushNodes`. -/
def flushRound (dataFn : Bool) (isMatch : Option δ → Bool) (s : LinkedQueue ν δ × ν) :
    ForInStep (LinkedQueue ν δ × ν) :=
  if s.2 = s.1.head then .done s
  else
    .yield (if isMatch (s.1.data s.2) then s.1.unlink s.2 (release dataFn (s.1.data s.2)) else s.1,
      s.1.links.next s.2)

/-- A loop over the nodes. -/
def walk (q : LinkedQueue ν δ) (round : LinkedQueue ν δ × ν → ForInStep (LinkedQueue ν δ × ν)) :
    Option (LinkedQueue ν δ) :=
  (Loop.run round (q.live.length + 1) (q, q.links.next q.head)).map (·.1)

/-- One call. -/
def next (dataFn : Bool) (q : LinkedQueue ν δ) : QueueCall ν δ → Option (LinkedQueue ν δ)
  | .init => some { q with active := true }
  | .enqueue node data => some (q.put (fun node => q.links.addTail node q.head) node data)
  | .enqueueWithPriority node data => some (q.put (fun node => addHead q.links q.head node) node data)
  | .peek =>
    let pos := q.links.next q.head
    some (q.emit [.peeked (if q.active ∧ pos ≠ q.head then q.data pos else none)])
  | .dequeue bFromHead => some (q.dequeue bFromHead)
  | .dequeueMatch none => some (q.emit [.nothing])
  | .dequeueMatch (some isMatch) => if q.active then q.walk (matchRound isMatch) else some (q.emit [.nothing])
  | .flush =>
    if q.active then
      (q.walk (flushRound dataFn fun _ => true)).map fun q => { q with size := 0, active := false }
    else some q
  | .flushNodes none => some q
  | .flushNodes (some isMatch) => if q.active then q.walk (flushRound dataFn isMatch) else some q

/-- `malloc` gives a node that is not in use. -/
def Fresh (q : LinkedQueue ν δ) : QueueCall ν δ → Prop
  | .enqueue node _ | .enqueueWithPriority node _ => ∀ p ∈ node, p ∉ q.head :: q.live
  | _ => True

instance (q : LinkedQueue ν δ) : DecidablePred q.Fresh := fun call => by
  delta Fresh
  cases call <;> infer_instance

/-- The nodes in the queue: they are linked, and no others are in use. -/
structure Holds (q : LinkedQueue ν δ) (nodes : List ν) : Prop where
  ring : Ring q.links q.head nodes
  live : q.live.Perm nodes
  size : q.size = nodes.length

/-- **The nodes have the elements of the list**, in order. -/
def Refines (q : LinkedQueue ν δ) (s : FifoQueue δ) : Prop :=
  ∃ nodes, q.Holds nodes ∧ nodes.map q.data = s.queue.nodes ∧ q.active = s.queue.active ∧ q.log = s.log

/-- Nodes are unlinked. -/
def Moved (q q' : LinkedQueue ν δ) (events : List (QueueEvent δ)) : Prop :=
  ∃ links live size, q' = { q with links := links, live := live, size := size, log := q.log ++ events }

variable {q q' : LinkedQueue ν δ} {s : FifoQueue δ} {nodes nodes' ys zs : List ν} {x p pos : ν}
  {events : List (QueueEvent δ)} {dataFn : Bool} {isMatch : Option δ → Bool} {data : Option δ}

theorem Holds.unlink (h : q.Holds (ys ++ x :: zs)) : (q.unlink x events).Holds (ys ++ zs) where
  ring := h.ring.del
  live := (h.live.erase x).trans ((perm_middle.erase x).trans (.of_eq (erase_cons_head ..)))
  size := by
    have hsize := h.size
    simp only [LinkedQueue.unlink, length_append, length_cons] at hsize ⊢
    omega

omit [DecidableEq ν] in
theorem Holds.next_eq (h : q.Holds (ys ++ x :: zs)) : x ≠ q.head ∧ q.links.next x = zs.head?.getD q.head :=
  ⟨fun heq => (nodup_cons.mp h.ring.nodup).1 (heq ▸ mem_append_right ys mem_cons_self),
    (linked_append.mp h.ring.linked).2.next_eq⟩

theorem flushRound_head : flushRound dataFn isMatch (q, q.head) = .done (q, q.head) := if_pos rfl

theorem flushRound_ne (hx : x ≠ q.head) : flushRound dataFn isMatch (q, x) =
    .yield (if isMatch (q.data x) then q.unlink x (release dataFn (q.data x)) else q, q.links.next x) :=
  if_neg hx

theorem Holds.flushRound (dataFn : Bool) (isMatch : Option δ → Bool) (ys : List ν) (h : q.Holds (ys ++ zs))
    (hpos : pos = zs.head?.getD q.head) :
    ∃ q', Loop.run (flushRound dataFn isMatch) (zs.length + 1) (q, pos) = some (q', q.head) ∧
      q.Moved q' (((zs.map q.data).filter isMatch).flatMap (release dataFn)) ∧
      q'.Holds (ys ++ zs.filter fun x => !isMatch (q.data x)) := by
  induction zs generalizing q ys pos with
  | nil =>
    subst hpos
    exact ⟨q, Loop.run_succ_done flushRound_head 0, ⟨q.links, q.live, q.size, by simp⟩, h⟩
  | cons x zs ih =>
    obtain rfl : x = pos := hpos.symm
    obtain ⟨hx, hnext⟩ := h.next_eq
    have hround := Loop.run_succ_yield (@flushRound_ne _ _ _ q x dataFn isMatch hx) (zs.length + 1)
    cases hm : isMatch (q.data x) with
    | false =>
      have hrest : q.Holds (ys ++ [x] ++ zs) := by simpa using h
      obtain ⟨q', hrun, hmoved, hholds⟩ := ih _ hrest hnext
      refine ⟨q', hround.trans ?_, by simpa [hm] using hmoved, by simpa [hm] using hholds⟩
      rw [hm]
      exact hrun
    | true =>
      have hrest : (q.unlink x (release dataFn (q.data x))).Holds (ys ++ zs) := h.unlink
      obtain ⟨q', hrun, ⟨links, live, size, hq'⟩, hholds⟩ := ih _ hrest hnext
      refine ⟨q', hround.trans ?_, ⟨links, live, size, ?_⟩, ?_⟩
      · rw [hm]
        exact hrun
      · rw [hq']
        simp [LinkedQueue.unlink, hm]
      · rw [filter_cons_of_neg (by simp [hm])]
        exact hholds

theorem matchRound_head : matchRound isMatch (q, q.head) = .done (q.emit [.nothing], q.head) := if_pos rfl

theorem matchRound_ne (hx : x ≠ q.head) : matchRound isMatch (q, x) =
    if isMatch (q.data x) then .done (q.unlink x [.dequeued (q.data x)], x) else .yield (q, q.links.next x) :=
  if_neg hx

theorem Holds.matchRound (isMatch : Option δ → Bool) (ys : List ν) (h : q.Holds (ys ++ zs))
    (hpos : pos = zs.head?.getD q.head) :
    ∃ q' p, Loop.run (matchRound isMatch) (zs.length + 1) (q, pos) = some (q', p) ∧
      q.Moved q' [((zs.map q.data).find? isMatch).elim .nothing .dequeued] ∧
      q'.Holds (ys ++ zs.eraseP fun x => isMatch (q.data x)) := by
  induction zs generalizing ys pos with
  | nil =>
    subst hpos
    exact ⟨_, _, Loop.run_succ_done matchRound_head 0, ⟨_, _, _, rfl⟩, ⟨h.ring, h.live, h.size⟩⟩
  | cons x zs ih =>
    obtain rfl : x = pos := hpos.symm
    obtain ⟨hx, hnext⟩ := h.next_eq
    have hround := @matchRound_ne _ _ _ q x isMatch hx
    cases hm : isMatch (q.data x) with
    | false =>
      have hrest : q.Holds (ys ++ [x] ++ zs) := by simpa using h
      obtain ⟨q', p, hrun, hmoved, hholds⟩ := ih _ hrest hnext
      rw [hm] at hround
      exact ⟨q', p, (Loop.run_succ_yield hround _).trans hrun, by simpa [hm] using hmoved, by simpa [hm] using hholds⟩
    | true =>
      rw [hm] at hround
      refine ⟨_, _, Loop.run_succ_done hround _, ⟨q.links.del x, q.live.erase x, q.size - 1, ?_⟩, ?_⟩
      · simp [LinkedQueue.unlink, hm]
      · rw [eraseP_cons_of_pos (by exact hm)]
        exact h.unlink

theorem addHead_eq (h : q.Holds nodes) (hp : p ∉ q.head :: nodes) :
    addHead q.links q.head p = q.links.insertBefore p (q.links.next q.head) := by
  have hmem := h.ring.linked.next_mem
  have hprev : q.links.prev (q.links.next q.head) = q.head := by
    have hlinked := h.ring.linked
    cases nodes with
    | nil => rw [hlinked.1, hlinked.2]
    | cons x xs => rw [hlinked.1, hlinked.2.1]
  have hne : p ≠ q.links.next q.head := fun heq => hp (by simpa [heq, or_comm] using hmem)
  have hhead : p ≠ q.head := fun heq => hp (heq ▸ mem_cons_self)
  rw [addHead, Links.insertBefore, hprev, update_comm hhead.symm, update_comm hne.symm]

omit [DecidableEq ν] in
theorem Refines.of_moved (hmoved : q.Moved q' events) (hholds : q'.Holds nodes')
    (hdata : nodes'.map q.data = s.queue.nodes) (hactive : q.active = s.queue.active)
    (hlog : q.log ++ events = s.log) : q'.Refines s := by
  obtain ⟨links, live, size, rfl⟩ := hmoved
  exact ⟨nodes', hholds, hdata, hactive, hlog⟩

omit [DecidableEq ν] in
theorem Refines.emit (h : q.Refines s) (events : List (QueueEvent δ)) :
    (q.emit events).Refines { s with log := s.log ++ events } := by
  obtain ⟨nodes, hholds, hdata, hactive, hlog⟩ := h
  exact ⟨nodes, ⟨hholds.ring, hholds.live, hholds.size⟩, hdata, hactive, congrArg (· ++ events) hlog⟩

theorem Refines.put (h : q.Refines s) {node : Option ν} (hfresh : ∀ p ∈ node, p ∉ q.head :: q.live)
    {insert : ν → Links ν} (place : ν → List ν → List ν) {r : Bool × QCameraQueue (Option δ)}
    (hring : ∀ {nodes p}, q.Holds nodes → p ∉ q.head :: nodes → Ring (insert p) q.head (place p nodes))
    (hperm : ∀ nodes p, (place p nodes).Perm (p :: nodes))
    (hno : ¬ (node.isSome = true ∧ s.queue.active = true) → r = (false, s.queue))
    (hyes : node.isSome = true ∧ s.queue.active = true → r.1 = true ∧ r.2.active = true ∧
      ∀ {f : ν → Option δ} {nodes p}, nodes.map f = s.queue.nodes → f p = data → (place p nodes).map f = r.2.nodes) :
    (q.put insert node data).Refines (s.put data r) := by
  have hq := h
  obtain ⟨nodes, hholds, hdata, hactive, hlog⟩ := h
  by_cases hok : node.isSome = true ∧ s.queue.active = true
  · obtain ⟨p, rfl⟩ := Option.isSome_iff_exists.mp hok.1
    obtain ⟨hr, hon, hnodes⟩ := hyes hok
    have hp : p ∉ q.head :: nodes := fun hmem => hfresh p rfl ((hholds.live.cons q.head).mem_iff.mpr hmem)
    rw [LinkedQueue.put, if_pos (hactive.trans hok.2)]
    refine ⟨place p nodes, ⟨hring hholds hp, (hholds.live.cons p).trans (hperm nodes p).symm, ?_⟩,
      hnodes ?_ (update_self ..), (hactive.trans hok.2).trans hon.symm, ?_⟩
    · simp [hholds.size, (hperm nodes p).length_eq]
    · rw [← hdata]
      exact map_congr_left fun x hx => update_of_ne (ne_of_mem_of_not_mem hx fun hmem => hp (mem_cons_of_mem _ hmem)) ..
    · rw [FifoQueue.put, hr, ← hlog]
      rfl
  · rw [hno hok]
    have hput : q.put insert node data = q.emit [.refused] := by
      cases node <;> simp_all [LinkedQueue.put]
    exact hput ▸ hq.emit [.refused]

/-- **A call does to the nodes what it does to the list.** -/
theorem Refines.step (h : q.Refines s) {call : QueueCall ν δ} (hfresh : q.Fresh call) :
    ∃ q', q.next dataFn call = some q' ∧ q'.Refines (s.step dataFn call) := by
  have hq := h
  obtain ⟨nodes, hholds, hdata, hactive, hlog⟩ := h
  -- an inactive queue has no nodes
  have hempty : s.queue.active = false → nodes = [] := fun hoff => by
    rw [s.queue.empty_of_inactive hoff] at hdata
    exact map_eq_nil_iff.mp hdata
  have hon_of_ne : nodes ≠ [] → q.active = true := fun hne =>
    eq_true_of_ne_false fun hoff => hne (hempty (hactive ▸ hoff))
  have htake : ∀ {bs x} as find rest (h : rest [] = []), nodes = as ++ x :: bs →
      find s.queue.nodes = some (q.data x) → rest s.queue.nodes = (as ++ bs).map q.data →
      (q.unlink x [.dequeued (q.data x)]).Refines (s.take find rest h) := by
    rintro bs x as find rest h rfl hfind hrest
    refine ⟨as ++ bs, hholds.unlink, hrest.symm, hactive, ?_⟩
    rw [FifoQueue.take, hfind, ← hlog]
    rfl
  have hnothing : nodes = [] → ∀ find rest (h : rest [] = []), find [] = none →
      (q.emit [.nothing]).Refines (s.take find rest h) := by
    rintro rfl find rest h hfind
    refine ⟨[], ⟨hholds.ring, hholds.live, hholds.size⟩, ?_, hactive, ?_⟩ <;>
      simp [FifoQueue.take, ← hdata, h, hfind, LinkedQueue.emit, hlog]
  have hlive : q.live.length + 1 = nodes.length + 1 := congrArg (· + 1) hholds.live.length_eq
  have hhead : q.links.next q.head = nodes.head?.getD q.head := hholds.ring.linked.next_eq
  cases call with
  | init => exact ⟨_, rfl, nodes, ⟨hholds.ring, hholds.live, hholds.size⟩, hdata, rfl, hlog⟩
  | enqueue node data =>
    refine ⟨_, rfl, hq.put hfresh (fun p nodes => nodes ++ [p]) (fun h hp => h.ring.addTail hp)
      (fun nodes p => perm_append_singleton p nodes) (fun hok => dif_neg hok) fun hok => ?_⟩
    rw [QCameraQueue.enqueue, dif_pos hok]
    exact ⟨rfl, hok.2, fun hnodes hp => by simp [hnodes, hp]⟩
  | enqueueWithPriority node data =>
    refine ⟨_, rfl, hq.put hfresh (fun p nodes => p :: nodes)
      (fun h hp => addHead_eq h hp ▸ h.ring.insertFirst hp) (fun _ _ => .refl _) (fun hok => dif_neg hok) fun hok => ?_⟩
    rw [QCameraQueue.enqueueWithPriority, dif_pos hok]
    exact ⟨rfl, hok.2, fun hnodes hp => by simp [hnodes, hp]⟩
  | peek =>
    refine ⟨_, rfl, ?_⟩
    have hpeek : s.queue.nodes.head?.join =
        if q.active ∧ q.links.next q.head ≠ q.head then q.data (q.links.next q.head) else none := by
      rw [← hdata, hhead]
      cases hnodes : nodes with
      | nil => simp
      | cons x xs =>
        have hx : x ≠ q.head := (hnodes ▸ hholds : q.Holds ([] ++ x :: xs)).next_eq.1
        simp [hon_of_ne (hnodes ▸ cons_ne_nil x xs), hx]
    rw [FifoQueue.step, hpeek]
    exact hq.emit _
  | dequeue fromHead =>
    refine ⟨_, rfl, ?_⟩
    by_cases hne : nodes = []
    · have hring := hholds.ring.linked
      rw [hne] at hring
      rw [dequeue, if_neg (by cases fromHead <;> simp [hring.1, hring.2])]
      cases fromHead <;> exact hnothing hne _ _ rfl rfl
    · have hon := hon_of_ne hne
      cases fromHead with
      | true =>
        obtain ⟨x, xs, rfl⟩ := exists_cons_of_ne_nil hne
        have hx : x ≠ q.head := (show q.Holds ([] ++ x :: xs) from hholds).next_eq.1
        rw [dequeue, if_pos rfl, if_pos ⟨hon, hhead ▸ hx⟩, hhead]
        exact htake [] head? tail rfl rfl (by rw [← hdata]; rfl) (by rw [← hdata]; rfl)
      | false =>
        obtain ⟨ys, x, rfl⟩ := (eq_nil_or_concat' nodes).resolve_left hne
        have hprev : q.links.prev q.head = x := (linked_append.mp hholds.ring.linked).2.2
        rw [dequeue, if_neg Bool.false_ne_true, if_pos ⟨hon, hprev ▸ hholds.next_eq.1⟩, hprev]
        exact htake ys getLast? dropLast rfl rfl (by simp [← hdata]) (by simp [← hdata])
  | dequeueMatch isMatch =>
    cases isMatch with
    | none => exact ⟨_, rfl, hq.emit _⟩
    | some isMatch =>
      rw [next]
      split_ifs with hon
      · obtain ⟨q', p, hrun, hmoved, hholds'⟩ := Holds.matchRound isMatch [] hholds hhead
        rw [walk, hlive, hrun]
        refine ⟨q', rfl, .of_moved hmoved hholds' ?_ hactive ?_⟩
        · exact eraseP_map.symm.trans (congrArg _ hdata)
        · rw [hlog, hdata]
          rfl
      · obtain rfl := hempty (hactive ▸ eq_false_of_ne_true hon)
        exact ⟨_, rfl, hnothing rfl _ _ rfl rfl⟩
  | flush =>
    rw [next]
    split_ifs with hon
    · obtain ⟨q', hrun, ⟨links, live, size, rfl⟩, hholds'⟩ :=
        Holds.flushRound dataFn (fun _ => true) [] hholds hhead
      rw [walk, hlive, hrun]
      refine ⟨_, rfl, [], ⟨?_, ?_, rfl⟩, rfl, rfl, ?_⟩
      · simpa using hholds'.ring
      · simpa using hholds'.live
      · simp [hlog, hdata, FifoQueue.step, FifoQueue.drop, QCameraQueue.flush]
    · have hoff : s.queue.active = false := hactive ▸ eq_false_of_ne_true hon
      refine ⟨q, rfl, nodes, hholds, ?_, hactive.trans hoff, ?_⟩
      · simp [hempty hoff, FifoQueue.step, FifoQueue.drop]
      · simp [s.queue.empty_of_inactive hoff, FifoQueue.step, FifoQueue.drop, QCameraQueue.flush, hlog]
  | flushNodes isMatch =>
    cases isMatch with
    | none => exact ⟨q, rfl, nodes, hholds, hdata, hactive, hlog⟩
    | some isMatch =>
      rw [next]
      split_ifs with hon
      · obtain ⟨q', hrun, hmoved, hholds'⟩ := Holds.flushRound dataFn isMatch [] hholds hhead
        rw [walk, hlive, hrun]
        refine ⟨q', rfl, .of_moved hmoved hholds' ?_ hactive ?_⟩
        · exact (filter_map (p := fun data => !isMatch data)).symm.trans (congrArg _ hdata)
        · rw [hlog, hdata]
          rfl
      · obtain rfl := hempty (hactive ▸ eq_false_of_ne_true hon)
        refine ⟨q, rfl, [], hholds, ?_, hactive, ?_⟩ <;>
          simp [FifoQueue.step, FifoQueue.drop, QCameraQueue.flushNodes, ← hdata, hlog]

theorem Refines.inactive (h : q.Refines s) (hoff : q.active = false) : q.live = [] ∧ q.size = 0 ∧ ∀ node data,
    q.next dataFn (.enqueue node data) = some (q.emit [.refused]) ∧
      q.next dataFn (.enqueueWithPriority node data) = some (q.emit [.refused]) := by
  obtain ⟨nodes, hholds, hdata, hactive, -⟩ := h
  rw [s.queue.empty_of_inactive (hactive ▸ hoff), map_eq_nil_iff] at hdata
  subst hdata
  refine ⟨hholds.live.eq_nil, hholds.size, fun node data => ?_⟩
  cases node <;> simp [next, LinkedQueue.put, hoff]

/-- **In every run** from the constructor the nodes have the elements of the list in order, each element is accounted
for, and each call with a node of `malloc` ends. -/
theorem refines_run [DecidableEq δ] {head : ν} {links : Links ν} {datas : ν → Option δ} {calls : List (QueueCall ν δ)}
    (hrun : Run (guarded Fresh (fires (next dataFn))) (new head links datas) calls q) :
    q.Refines (calls.foldl (FifoQueue.step dataFn) {}) ∧ (calls.foldl (FifoQueue.step dataFn) {}).Accounted dataFn ∧
      (∀ call, q.Fresh call → ∃ q', q.next dataFn call = some q') ∧ (q.active = false → q.live = [] ∧ q.size = 0 ∧
        ∀ node data, q.next dataFn (.enqueue node data) = some (q.emit [.refused]) ∧
          q.next dataFn (.enqueueWithPriority node data) = some (q.emit [.refused])) := by
  have hrefines : q.Refines (calls.foldl (FifoQueue.step dataFn) {}) := by
    refine hrun.history (P := fun calls q => q.Refines (calls.foldl (FifoQueue.step dataFn) {}))
      ⟨[], ⟨.init links head, .refl _, rfl⟩, rfl, rfl, rfl⟩ fun calls q call q' _ ih hstep => ?_
    obtain ⟨q'', hnext, hq''⟩ := ih.step hstep.1
    rw [foldl_concat]
    cases hnext.symm.trans hstep.2
    exact hq''
  have haccounted : ∀ (calls : List (QueueCall ν δ)) (s : FifoQueue δ), s.Accounted dataFn →
      (calls.foldl (FifoQueue.step dataFn) s).Accounted dataFn := fun calls => by
    induction calls with
    | nil => exact fun _ h => h
    | cons call calls ih => exact fun s h => ih _ (h.step call)
  exact ⟨hrefines, haccounted calls {} fun _ => by simp,
    fun call hfresh => (hrefines.step hfresh).imp fun _ h => h.1, hrefines.inactive⟩

/-- Three elements, of which one is dequeued by a match. -/
theorem refines_three : ∃ q, Run (guarded Fresh (fires (next true))) (new 0 ⟨id, id⟩ fun _ => none)
    [.enqueue (some 1) (some 5), .enqueueWithPriority (some 2) (some 6), .enqueue (some 3) (some 7),
      .dequeueMatch (some (· == some 5)), .flush] q ∧
    q.log.drop 3 = [.dequeued (some 5), .passed 6, .freed 6, .passed 7, .freed 7] ∧ q.live = [] :=
  (exists_run (P := fun q =>
      q.log.drop 3 = [.dequeued (some 5), .passed 6, .freed 6, .passed 7, .freed 7] ∧ q.active = false)
    (by decide +kernel)).imp fun _ h => ⟨h.1, h.2.1, ((refines_run h.1).2.2.2 h.2.2).1⟩

/-- A NULL element is neither dequeued nor passed nor freed, and where there is no `m_dataFn` none is passed. -/
theorem not_passed :
    (∃ q : LinkedQueue ℕ ℕ, Run (guarded Fresh (fires (next true))) (new 0 ⟨id, id⟩ fun _ => none)
      [.enqueue (some 1) none, .flush] q ∧ q.live = [] ∧ q.log = [.accepted none]) ∧
    ∃ q : LinkedQueue ℕ ℕ, Run (guarded Fresh (fires (next false))) (new 0 ⟨id, id⟩ fun _ => none)
      [.enqueue (some 1) (some 5), .flush] q ∧ q.live = [] ∧ q.log = [.accepted (some 5), .freed 5] :=
  ⟨exists_run (by decide +kernel), exists_run (by decide +kernel)⟩

end LinkedQueue

end Marlin
