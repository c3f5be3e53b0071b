import Mathlib.Algebra.Group.Int.Defs
import Mathlib.Algebra.Group.Nat.Defs
import Mathlib.Data.List.Induction
import Mathlib.Data.List.Nodup

/-!
# The Entries of an EXIF Table

An entry has a tag, a type, a number of elements and one word, which is the data itself where it is a single element,
or else the address of a block that was allocated for it. `addExifEntry` writes and counts the entry whether or not
it gets the block; `releaseExifEntry` frees the block that the type and the number of elements say there is.

## Conventions

* The word is a number. An address fills it; a single element is written to its lowest bytes and leaves the others.
* `data` is the number in the bytes that a single element is read from. The contents of the blocks are left out.
* The heap gives a block an address that is not 0 and that no other block has.
* `adds` are calls for a table of which nothing is known, but that it has no entries.

## Main results

* `releaseFirst_eq`: what releasing the entries of a table frees and leaves.
* `adds_spec`: the table after some calls.
* `owned_iff`: when the entries of a table own their blocks.
-/

namespace Marlin

open List Function Option Bool

namespace Exif

/-- `MAX_EXIF_TABLE_ENTRIES`. -/
def maxExifTableEntries : ℕ := 50

/-- `exif_tag_type_t`. -/
inductive TagType
  | byte | ascii | short | long | rational | undefined | slong | srational
  | other (type : ℕ)
  deriving DecidableEq

/-- `QEXIF_INFO_DATA`, with its entry. -/
structure Entry where
  tag_id : ℕ
  type : TagType
  count : ℕ
  copy : ℕ := 1
  data : ℕ
  deriving DecidableEq

/-- `QOMX_EXIF_INFO`. -/
structure Info where
  numOfEntries : ℕ := 0
  exif_data : ℕ → Entry

/-- The size of an element. -/
def TagType.size : TagType → ℕ
  | .byte | .ascii | .undefined => 1
  | .short => 2
  | .long | .slong => 4
  | .rational | .srational => 8
  | .other _ => 0

/-- The size of the block that `addExifEntry` allocates, if it does. -/
def TagType.blockSize (type : TagType) (count : ℕ) : Option ℕ :=
  match type with
  | .byte | .short | .long | .rational | .slong | .srational =>
    if 1 < count then some (count * type.size) else none
  | .ascii => some ((count + 1) % 2 ^ 32)
  | .undefined => some count
  | .other _ => none

/-- A single element is written to the lowest bytes of the word. -/
def TagType.inline (type : TagType) (data word : ℕ) : ℕ :=
  word / 256 ^ type.size * 256 ^ type.size + data % 256 ^ type.size

/-- The arguments of `addExifEntry`, and whether `malloc` succeeds. -/
structure Call where
  tag_id : ℕ
  type : TagType
  count : ℕ
  data : ℕ := 0
  malloc : Bool := true
  deriving DecidableEq

/-- The entry that a call writes over another one; with the address of its block, if it has got one. -/
def Call.entry (c : Call) (block : Option ℕ) (e : Entry) : Entry where
  tag_id := c.tag_id
  type := c.type
  count := c.count
  data :=
    match c.type.blockSize c.count with
    | none => c.type.inline c.data e.data
    | some _ => block.getD e.data

/-- The call asks for a block. -/
def Call.asks (c : Call) : Bool := (c.type.blockSize c.count).isSome

/-- The block that a call gets, where the next one has the address `addr`. -/
def Call.block (c : Call) (addr : ℕ) : Option ℕ := if c.asks && c.malloc then some addr else none

/-- `addExifEntry`, where the next block has the address `addr`: the result, the table, and the block that was
allocated. -/
def addExifEntry (addr : ℕ) (c : Call) (info : Info) : ℤ × Info × Option ℕ :=
  if maxExifTableEntries ≤ info.numOfEntries then (-1, info, none)
  else
    let e := c.entry (c.block addr) (info.exif_data info.numOfEntries)
    (if c.asks && !c.malloc then -1 else 0,
      { exif_data := Function.update info.exif_data info.numOfEntries e, numOfEntries := info.numOfEntries + 1 },
      c.block addr)

/-- The entry has a block, as its type and the number of its elements say. -/
def Entry.owns (e : Entry) : Bool :=
  match e.type with
  | .byte | .short | .long | .rational | .slong | .srational => decide (1 < e.count) && decide (e.data ≠ 0)
  | .ascii | .undefined => decide (e.data ≠ 0)
  | .other _ => false

/-- `releaseExifEntry`: the block that is freed, and the entry. -/
def releaseExifEntry (e : Entry) : Option ℕ × Entry :=
  if e.owns then (some e.data, { e with data := 0 }) else (none, e)

/-- The first `n` entries are released: the blocks that are freed, and the table. -/
def releaseFirst (table : ℕ → Entry) : ℕ → List ℕ × (ℕ → Entry)
  | 0 => ([], table)
  | n + 1 =>
    let (freed, t) := releaseFirst table n
    let (block, e) := releaseExifEntry (t n)
    (freed ++ block.toList, Function.update t n e)

/-- The heap: the addresses of the blocks that it gives. -/
structure Heap where
  addr : ℕ → ℕ
  injective : Function.Injective addr
  ne_zero : ∀ n, addr n ≠ 0

/-- A table, the blocks that were allocated for it, and the calls that returned 0. -/
structure Adds where
  info : Info
  allocated : List ℕ := []
  succeeded : List Call := []

namespace Adds

/-- One call. -/
def add (heap : Heap) (s : Adds) (c : Call) : Adds :=
  let r := addExifEntry (heap.addr s.allocated.length) c s.info
  { info := r.2.1
    allocated := s.allocated ++ r.2.2.toList
    succeeded := if r.1 = 0 then s.succeeded ++ [c] else s.succeeded }

/-- Some calls, for an empty table. -/
def adds (heap : Heap) (table : ℕ → Entry) (calls : List Call) : Adds :=
  calls.foldl (add heap) { info := { exif_data := table } }

/-- **The entries own their blocks**: releasing them frees each block once and nothing else, the entries are those
of the calls that succeeded, and releasing them again frees nothing. -/
structure Owned (s : Adds) : Prop where
  freed : ∀ a, (releaseFirst s.info.exif_data s.info.numOfEntries).1.count a = if a ∈ s.allocated then 1 else 0
  entries : s.info.numOfEntries = s.succeeded.length ∧ ∀ i c, s.succeeded[i]? = some c → let e := s.info.exif_data i
      e.tag_id = c.tag_id ∧ e.type = c.type ∧ e.count = c.count
  again : (releaseFirst (releaseFirst s.info.exif_data s.info.numOfEntries).2 s.info.numOfEntries).1 = []

end Adds

/-- No allocation fails in a call that finds an entry for it. -/
def Served (calls : List Call) : Prop := ∀ c ∈ calls.take maxExifTableEntries, c.asks = true → c.malloc = true

/-! ### Releasing -/

/-- The block of an entry. -/
def Entry.block (e : Entry) : Option ℕ := if e.owns then some e.data else none

theorem releaseExifEntry_fst (e : Entry) : (releaseExifEntry e).1 = e.block := by
  rw [releaseExifEntry, Entry.block]
  split <;> rfl

theorem block_release (e : Entry) : (releaseExifEntry e).2.block = none := by
  have hnot : (releaseExifEntry e).2.owns = false := by
    rw [releaseExifEntry]
    cases h : e.owns with
    | false => exact h
    | true =>
      rw [if_pos rfl, Entry.owns]
      cases e.type <;> simp
  rw [Entry.block, hnot, if_neg Bool.false_ne_true]

/-- **What releasing the first entries frees and leaves.** -/
theorem releaseFirst_eq (table : ℕ → Entry) (n : ℕ) :
    (releaseFirst table n).1 = (List.range n).flatMap (fun i => (table i).block.toList) ∧
      ∀ i, (releaseFirst table n).2 i = if i < n then (releaseExifEntry (table i)).2 else table i := by
  induction n with
  | zero => exact ⟨rfl, fun i => rfl⟩
  | succ n ih =>
    obtain ⟨hfreed, htable⟩ := ih
    have hn : (releaseFirst table n).2 n = table n := by rw [htable, if_neg (Nat.lt_irrefl n)]
    rw [releaseFirst]
    dsimp only
    rw [hfreed, hn, releaseExifEntry_fst, range_succ, flatMap_append, flatMap_singleton]
    refine ⟨rfl, fun i => ?_⟩
    by_cases hi : i = n
    · rw [hi, update_self, if_pos (Nat.lt_succ_self n)]
    · rw [update_of_ne hi, htable]
      by_cases hlt : i < n
      · rw [if_pos hlt, if_pos (Nat.lt_succ_of_lt hlt)]
      · rw [if_neg hlt, if_neg (by omega)]

theorem releaseFirst_again (table : ℕ → Entry) (n : ℕ) : (releaseFirst (releaseFirst table n).2 n).1 = [] := by
  rw [(releaseFirst_eq _ n).1, flatMap_eq_nil_iff]
  intro i hi
  rw [(releaseFirst_eq table n).2, if_pos (mem_range.mp hi), block_release]
  rfl

/-! ### Adding -/

/-- **An entry has the block that its call got**, if it got the one it asked for. -/
theorem entry_block {c : Call} {addr : ℕ} (haddr : addr ≠ 0) (h : c.asks = true → c.malloc = true) (e : Entry) :
    (c.entry (c.block addr) e).block = c.block addr := by
  obtain ⟨tag, type, count, data, malloc⟩ := c
  cases hasks : (type.blockSize count).isSome with
  | true =>
    obtain rfl : malloc = true := h hasks
    obtain ⟨size, hsize⟩ := Option.isSome_iff_exists.mp hasks
    have howns : ({ tag_id := tag, type := type, count := count, data := addr } : Entry).owns = true := by
      cases type <;> simp_all [Entry.owns, TagType.blockSize]
    simp only [Call.block, Call.asks, Call.entry, hsize, Option.isSome_some, Bool.and_self, if_true,
      Option.getD_some, Entry.block, howns]
  | false =>
    have hnone : type.blockSize count = none := Option.isNone_iff_eq_none.mp (by simpa using hasks)
    have hnot : ∀ data, ({ tag_id := tag, type := type, count := count, data := data } : Entry).owns = false := by
      intro data
      cases type <;> simp_all [Entry.owns, TagType.blockSize] <;> omega
    simp only [Call.block, Call.asks, Option.isSome_none, Bool.false_and, Bool.false_eq_true, if_false,
      Entry.block, Call.entry, hnone, hnot]

namespace Adds

variable {heap : Heap} {s : Adds} {c : Call} {calls : List Call} {table : ℕ → Entry}

theorem add_full (heap : Heap) (c : Call) (h : maxExifTableEntries ≤ s.info.numOfEntries) : s.add heap c = s := by
  have hne : ¬ (-1 : ℤ) = 0 := by decide
  rw [add, addExifEntry, if_pos h]
  simp [hne]

/-- The call does not go without the block it asks for. -/
def gets (c : Call) : Bool := !c.asks || c.malloc

theorem add_room (heap : Heap) (c : Call) (h : ¬ maxExifTableEntries ≤ s.info.numOfEntries) :
    s.add heap c =
      { info :=
          { exif_data := update s.info.exif_data s.info.numOfEntries
              (c.entry (c.block (heap.addr s.allocated.length)) (s.info.exif_data s.info.numOfEntries))
            numOfEntries := s.info.numOfEntries + 1 }
        allocated := s.allocated ++ (c.block (heap.addr s.allocated.length)).toList
        succeeded := s.succeeded ++ [c].filter gets } := by
  rw [add, addExifEntry, if_neg h]
  dsimp only
  congr 1
  cases hasks : c.asks <;> cases hmalloc : c.malloc <;> simp [gets, hasks, hmalloc]

/-- **A table after some calls**, `done` of which found an entry. -/
structure After (heap : Heap) (s : Adds) (done : List Call) : Prop where
  numOfEntries : s.info.numOfEntries = done.length
  succeeded : s.succeeded = done.filter gets
  allocated : s.allocated = (List.range s.allocated.length).map heap.addr
  entries : ∀ i c, done[i]? = some c → let e := s.info.exif_data i
    e.tag_id = c.tag_id ∧ e.type = c.type ∧ e.count = c.count
  blocks : (∀ c ∈ done, gets c = true) →
    (List.range done.length).flatMap (fun i => (s.info.exif_data i).block.toList) = s.allocated

theorem After.room {done : List Call} (hs : s.After heap done) (h : done.length < maxExifTableEntries) (c : Call) :
    (s.add heap c).After heap (done ++ [c]) := by
  have hnum := hs.numOfEntries
  rw [add_room heap c (by omega)]
  refine ⟨?_, ?_, ?_, fun i d hi => ?_, fun hgets => ?_⟩
  · rw [length_append, length_singleton, hnum]
  · rw [hs.succeeded, filter_append]
  · cases hblock : c.block (heap.addr s.allocated.length) with
    | none => simpa using hs.allocated
    | some addr =>
      have haddr : addr = heap.addr s.allocated.length := by
        rw [Call.block] at hblock
        split at hblock
        · exact (some.inj hblock).symm
        · cases hblock
      dsimp only
      rw [toList_some, length_append, length_singleton, range_succ, map_append,
        ← hs.allocated, haddr]
      rfl
  · dsimp only
    rw [hnum]
    by_cases hlast : i = done.length
    · rw [hlast, getElem?_concat_length] at hi
      cases hi
      rw [hlast, update_self]
      exact ⟨rfl, rfl, rfl⟩
    · have hlt : i < done.length := by
        have := (List.getElem?_eq_some_iff.mp hi).1
        rw [length_append, length_singleton] at this
        omega
      rw [update_of_ne hlast]
      rw [getElem?_append_left hlt] at hi
      exact hs.entries i d hi
  · have hold := hs.blocks fun d hd => hgets d (mem_append_left [c] hd)
    have hc : c.asks = true → c.malloc = true := by
      have := hgets c (mem_append_right done mem_cons_self)
      cases hasks : c.asks <;> simp_all [gets]
    dsimp only
    rw [length_append, length_singleton, range_succ, flatMap_append, flatMap_singleton, hnum,
      update_self, entry_block (heap.ne_zero _) hc]
    refine congrArg (· ++ _) (Eq.trans (flatMap_congr fun i hi => ?_) hold)
    rw [update_of_ne (Nat.ne_of_lt (mem_range.mp hi))]

/-- **A table after some calls.** -/
theorem adds_spec (heap : Heap) (table : ℕ → Entry) (calls : List Call) :
    (adds heap table calls).After heap (calls.take maxExifTableEntries) := by
  induction calls using reverseRec with
  | nil => exact ⟨rfl, rfl, rfl, fun i c hi => by simp at hi, fun _ => rfl⟩
  | append_singleton calls c ih =>
    rw [adds, foldl_append]
    change ((adds heap table calls).add heap c).After heap _
    by_cases h : calls.length < maxExifTableEntries
    · have hall : (calls ++ [c]).take maxExifTableEntries = calls ++ [c] := by
        rw [take_of_length_le]
        rw [length_append, length_singleton]
        exact h
      rw [take_of_length_le (Nat.le_of_lt h)] at ih
      rw [hall]
      exact ih.room h c
    · have hsame : (calls ++ [c]).take maxExifTableEntries = calls.take maxExifTableEntries :=
        take_append_of_le_length (Nat.le_of_not_lt h)
      have hfull : maxExifTableEntries ≤ (adds heap table calls).info.numOfEntries := by
        rw [ih.numOfEntries, length_take]
        omega
      rw [hsame, add_full heap c hfull]
      exact ih

theorem served_iff : Served calls ↔ ∀ c ∈ calls.take maxExifTableEntries, gets c = true := by
  refine forall₂_congr fun c _ => ?_
  cases hasks : c.asks <;> simp [gets, hasks]

/-- **When the entries of a table own their blocks**: exactly if no allocation fails. -/
theorem owned_iff (heap : Heap) (table : ℕ → Entry) (calls : List Call) :
    (adds heap table calls).Owned ↔ Served calls := by
  have h := adds_spec heap table calls
  rw [served_iff]
  constructor
  · intro howned
    have hlen := howned.entries.1
    rw [h.numOfEntries, h.succeeded] at hlen
    exact length_filter_eq_length_iff.mp hlen.symm
  · intro hserved
    have hall : (calls.take maxExifTableEntries).filter gets = calls.take maxExifTableEntries :=
      filter_eq_self.mpr hserved
    refine ⟨fun a => ?_, ⟨?_, ?_⟩, releaseFirst_again ..⟩
    · rw [(releaseFirst_eq ..).1, h.numOfEntries, h.blocks hserved]
      have hnodup : (adds heap table calls).allocated.Nodup := by
        rw [h.allocated]
        exact nodup_range.map heap.injective
      exact hnodup.count
    · rw [h.numOfEntries, h.succeeded, hall]
    · rw [h.succeeded, hall]
      exact h.entries

/-- An array whose block is not allocated is counted, and the word that was in the entry before is freed. -/
theorem not_owned_array : ¬ (adds ⟨Nat.succ, fun _ _ => Nat.succ.inj, Nat.succ_ne_zero⟩
      (fun _ => { tag_id := 0, type := .ascii, count := 0, data := 57005 })
      [{ tag_id := 1, type := .byte, count := 2, malloc := false }]).Owned := by
  intro h
  exact absurd (h.freed 57005) (by decide)

end Adds

end Exif

end Marlin
