import Mathlib.Algebra.Group.Int.Defs
import Marlin.CircularList
import Marlin.Loop

/-!
# The Queues of the JPEG Interface

`mm_jpeg_queue_t` is a circular list of nodes, each with a pointer to data, and a counter. Flushing it goes from
node to node: it unlinks a node, frees its data and the node, and then reads the link of the node it has freed to
come to the next one. By then the node was linked to itself.

## Conventions

* A queue comes with the nodes in it. A node that is put in a queue is one that `malloc` gave: it is not in the
  queue.
* Of the data there is the pointer, `none` for `NULL`. `size` is an unsigned number of 32 bits.
* After `free` the links of a node are what `left` says: `none` where they are as they were, or else what is
  there instead.

## Main results

* `Queue.flushed_iff`: a queue is flushed as it should be exactly if there is nothing in it.
* `Queue.flush_diverges`: with nodes that are as they were when they were freed, flushing never ends.
-/

namespace Marlin

namespace MmJpeg

open List CircularList

variable {ν δ : Type*} [DecidableEq ν]

/-- `mm_jpeg_queue_t`. -/
structure Queue (ν δ : Type*) [DecidableEq ν] where
  head : ν
  links : Links ν
  data : ν → Option δ
  size : ℕ
  nodes : List ν
  ring : Ring links head nodes
  size_eq : size = nodes.length % 2 ^ 32

namespace Queue

/-- `mm_jpeg_queue_init`. -/
def init (head : ν) (links : Links ν) (data : ν → Option δ) : Queue ν δ where
  head := head
  links := links.init head
  data := data
  size := 0
  nodes := []
  ring := .init links head
  size_eq := rfl

/-- What `malloc` gives: a node that is not in the queue, or nothing. -/
abbrev Malloc (q : Queue ν δ) : Type _ := Option {node : ν // node ∉ q.head :: q.nodes}

/-- `mm_jpeg_queue_enq`. -/
def enq (q : Queue ν δ) (malloc : q.Malloc) (data : Option δ) : ℤ × Queue ν δ :=
  match malloc with
  | none => (-1, q)
  | some ⟨node, hnode⟩ =>
    (0,
      { head := q.head
        links := q.links.addTail node q.head
        data := Function.update q.data node data
        size := (q.size + 1) % 2 ^ 32
        nodes := q.nodes ++ [node]
        ring := q.ring.addTail hnode
        size_eq := by rw [q.size_eq, List.length_append, List.length_singleton, Nat.mod_add_mod] })

/-- `mm_jpeg_queue_enq_head`. -/
def enqHead (q : Queue ν δ) (malloc : q.Malloc) (data : Option δ) : ℤ × Queue ν δ :=
  match malloc with
  | none => (-1, q)
  | some ⟨node, hnode⟩ =>
    (0,
      { head := q.head
        links := q.links.insertBefore node (q.links.next q.head)
        data := Function.update q.data node data
        size := (q.size + 1) % 2 ^ 32
        nodes := node :: q.nodes
        ring := q.ring.insertFirst hnode
        size_eq := by rw [q.size_eq, List.length_cons, Nat.mod_add_mod] })

theorem next_head (q : Queue ν δ) : q.links.next q.head = q.nodes.head?.getD q.head := q.ring.linked.next_eq

variable {q : Queue ν δ} {x : ν} {xs : List ν}

theorem next_head_eq (h : q.nodes = x :: xs) : q.links.next q.head = x := by
  rw [next_head, h]
  rfl

theorem ne_head (h : q.nodes = x :: xs) : x ≠ q.head := fun heq => by
  have hnodup := q.ring.nodup
  rw [h, ← heq] at hnodup
  exact (nodup_cons.mp hnodup).1 mem_cons_self

theorem size_pred {n : ℕ} : ((n + 1) % 2 ^ 32 + (2 ^ 32 - 1)) % 2 ^ 32 = n % 2 ^ 32 := by omega

/-- `mm_jpeg_queue_deq`: the data, and the queue. -/
def deq (q : Queue ν δ) : Option δ × Queue ν δ :=
  match h : q.nodes with
  | [] => (none, q)
  | x :: xs =>
    (q.data x,
      { head := q.head
        links := q.links.del (q.links.next q.head)
        data := q.data
        size := (q.size + (2 ^ 32 - 1)) % 2 ^ 32
        nodes := xs
        ring := by
          have hring := q.ring
          rw [h] at hring
          rw [next_head_eq h]
          have hdel : Ring (q.links.del x) q.head ([] ++ xs) := hring.del
          exact hdel
        size_eq := by rw [q.size_eq, h, List.length_cons, size_pred] })

/-- `mm_jpeg_queue_peek`. -/
def peek (q : Queue ν δ) : Option δ :=
  if q.links.next q.head = q.head then none else q.data (q.links.next q.head)

/-! ### Flushing -/

/-- Where a flush is: the links, the counter, the nodes it came to, unlinked and freed, the data it freed, and
the nodes whose links it read although they were unlinked or freed. -/
structure Flush (ν δ : Type*) where
  links : Links ν
  size : ℕ
  visited : List ν := []
  unlinked : List ν := []
  freed : List ν := []
  freedData : List δ := []
  stale : List ν := []

/-- What is left in the links of a node that is freed. -/
def freeNode (left : ν → Option (ν × ν)) (l : Links ν) (p : ν) : Links ν :=
  match left p with
  | none => l
  | some (next, prev) => { next := Function.update l.next p next, prev := Function.update l.prev p prev }

/-- The links of a node are read. -/
def Flush.read (f : Flush ν δ) (p : ν) : Flush ν δ :=
  if p ∈ f.unlinked ∨ p ∈ f.freed then { f with stale := f.stale ++ [p] } else f

/-- A node is unlinked and freed, with its data. -/
def unlinkFree (data : ν → Option δ) (left : ν → Option (ν × ν)) (f : Flush ν δ) (pos : ν) : Flush ν δ :=
  let f := { f with visited := f.visited ++ [pos] }.read pos
  let f :=
    { f with
      links := f.links.del pos
      unlinked := f.unlinked ++ [pos]
      size := (f.size + (2 ^ 32 - 1)) % 2 ^ 32 }
  let f := { f with freedData := f.freedData ++ (data pos).toList }
  { f with freed := f.freed ++ [pos], links := freeNode left f.links pos }

/-- The body of the loop: the flush, and the node it comes to. -/
def flushBody (data : ν → Option δ) (left : ν → Option (ν × ν)) (f : Flush ν δ) (pos : ν) : Flush ν δ × ν :=
  let f := unlinkFree data left f pos
  (f.read pos, f.links.next pos)

/-- One round of the loop. -/
def flushRound (head : ν) (data : ν → Option δ) (left : ν → Option (ν × ν)) (s : Flush ν δ × ν) :
    ForInStep (Flush ν δ × ν) :=
  if s.2 = head then .done ({ s.1 with size := 0 }, head) else .yield (flushBody data left s.1 s.2)

/-- Where `mm_jpeg_queue_flush` starts: at the node behind the head. -/
def flushStart (q : Queue ν δ) : Flush ν δ × ν := ({ links := q.links, size := q.size }, q.links.next q.head)

/-- `mm_jpeg_queue_flush`, in at most `n` rounds. -/
def flush (q : Queue ν δ) (left : ν → Option (ν × ν)) (n : ℕ) : Option (Flush ν δ × ν) :=
  Loop.run (flushRound q.head q.data left) n q.flushStart

/-- **A flush as it should be**: it ends, comes to each node once, reads no link of a node that it has unlinked
or freed, and leaves an empty list. -/
def Flushed (q : Queue ν δ) (left : ν → Option (ν × ν)) : Prop :=
  ∃ n f pos, q.flush left n = some (f, pos) ∧ (∀ x, f.visited.count x = if x ∈ q.nodes then 1 else 0) ∧
    f.stale = [] ∧ f.links.next q.head = q.head ∧ f.links.prev q.head = q.head ∧ f.size = 0

variable {left : ν → Option (ν × ν)} {data : ν → Option δ} {f : Flush ν δ} {head pos : ν}

theorem read_stale (f : Flush ν δ) (p : ν) : f.stale <+: (f.read p).stale := by
  rw [Flush.read]
  split
  · exact prefix_append ..
  · exact prefix_rfl

theorem flushBody_stale (data : ν → Option δ) (left : ν → Option (ν × ν)) (f : Flush ν δ) (pos : ν) :
    (flushBody data left f pos).1.stale ≠ [] := by
  rw [flushBody]
  dsimp only
  rw [Flush.read, if_pos (.inr (mem_append_right _ mem_cons_self))]
  exact append_ne_nil_of_right_ne_nil _ (cons_ne_nil _ _)

theorem flushBody_stale_prefix (data : ν → Option δ) (left : ν → Option (ν × ν)) (f : Flush ν δ) (pos : ν) :
    f.stale <+: (flushBody data left f pos).1.stale :=
  (read_stale { f with visited := f.visited ++ [pos] } pos).trans (read_stale (unlinkFree data left f pos) pos)

theorem flushRound_head (head : ν) (data : ν → Option δ) (left : ν → Option (ν × ν)) (f : Flush ν δ) :
    flushRound head data left (f, head) = .done ({ f with size := 0 }, head) :=
  if_pos rfl

theorem flushRound_ne (data : ν → Option δ) (left : ν → Option (ν × ν)) (f : Flush ν δ) (h : pos ≠ head) :
    flushRound head data left (f, pos) = .yield (flushBody data left f pos) :=
  if_neg h

theorem run_stale {n : ℕ} {s t : Flush ν δ × ν} (hs : s.1.stale ≠ [])
    (h : Loop.run (flushRound head data left) n s = some t) : t.1.stale ≠ [] := by
  refine Loop.run_induction (I := fun s => s.1.stale ≠ []) (Q := fun s => s.1.stale ≠ []) ?_ ?_ hs h
  · intro s t hs hround
    by_cases hpos : s.2 = head
    · rw [flushRound, if_pos hpos] at hround
      cases hround
    · rw [flushRound, if_neg hpos] at hround
      obtain rfl := ForInStep.yield.inj hround
      exact fun hnil => hs (prefix_nil.mp (hnil ▸ flushBody_stale_prefix data left s.1 s.2))
  · intro s t hs hround
    by_cases hpos : s.2 = head
    · rw [flushRound, if_pos hpos] at hround
      obtain rfl := ForInStep.done.inj hround
      exact hs
    · rw [flushRound, if_neg hpos] at hround
      cases hround

theorem flush_nil (h : q.nodes = []) (left : ν → Option (ν × ν)) :
    q.flush left 1 = some ({ links := q.links, size := 0 }, q.head) := by
  have hnext : q.links.next q.head = q.head := by
    rw [next_head, h]
    rfl
  rw [flush, flushStart, hnext]
  exact Loop.run_succ_done (flushRound_head ..) 0

theorem flush_cons (h : q.nodes = x :: xs) (left : ν → Option (ν × ν))
    (n : ℕ) : q.flush left (n + 1) = Loop.run (flushRound q.head q.data left) n
      (flushBody q.data left { links := q.links, size := q.size } x) := by
  rw [flush, flushStart, next_head_eq h]
  exact Loop.run_succ_yield (flushRound_ne _ _ _ (ne_head h)) n

/-- **When a queue is flushed as it should be**: exactly if there is nothing in it. -/
theorem flushed_iff (q : Queue ν δ) (left : ν → Option (ν × ν)) : q.Flushed left ↔ q.nodes = [] := by
  constructor
  · rintro ⟨n, f, pos, hflush, -, hstale, -⟩
    cases hnodes : q.nodes with
    | nil => rfl
    | cons x xs =>
      cases n with
      | zero => cases hflush
      | succ n =>
        rw [flush_cons hnodes] at hflush
        exact absurd hstale (run_stale (flushBody_stale q.data left _ x) hflush)
  · intro h
    have hlinked := q.ring.linked
    rw [h] at hlinked
    refine ⟨1, _, _, flush_nil h left, fun x => ?_, rfl, hlinked.1, hlinked.2, rfl⟩
    rw [h]
    rfl

theorem flushBody_pos (data : ν → Option δ) (h : left pos = none) (f : Flush ν δ) :
    (flushBody data left f pos).2 = pos := by
  rw [flushBody, unlinkFree]
  dsimp only
  rw [freeNode, h]
  exact (Links.del_self _ pos).1

/-- **With nodes that are as they were when they were freed, flushing never ends**, unless there is nothing in
the queue. -/
theorem flush_diverges (hnodes : q.nodes = x :: xs) (h : left x = none) :
    Loop.Diverges (flushRound q.head q.data left) q.flushStart := by
  rw [flushStart, next_head_eq hnodes]
  generalize ({ links := q.links, size := q.size } : Flush ν δ) = f
  intro n
  induction n generalizing f with
  | zero => rfl
  | succ n ih =>
    rw [Loop.run_succ_yield (flushRound_ne _ _ _ (ne_head hnodes))]
    have hpos := flushBody_pos q.data h f
    generalize flushBody q.data left f x = s at hpos ⊢
    obtain ⟨f, pos⟩ := s
    obtain rfl : pos = x := hpos
    exact ih f

/-- A queue with one node, which has no data. -/
def oneNode : Queue ℕ ℕ :=
  ((init 0 { next := id, prev := id } fun _ => none).enq (some ⟨1, by decide⟩) none).2

/-- A queue with one node is not flushed as it should be. -/
theorem not_flushed_oneNode : ¬ oneNode.Flushed fun _ => none := by
  rintro ⟨n, f, pos, hflush, -⟩
  rw [flush, flush_diverges rfl rfl n] at hflush
  cases hflush

end Queue

end MmJpeg

end Marlin
