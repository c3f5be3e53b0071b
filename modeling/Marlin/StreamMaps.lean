import Mathlib.Data.List.Nodup
import Mathlib.Data.List.Range
import Marlin.Transition

/-!
# The Mappings of a Stream's Buffers

`getBufs` maps the buffers that the memory of the stream has and gives the camera interface a definition
for every index. A buffer that is registered later is mapped by the `bufDone` that first hands it over, and
`bufRelease` unmaps it for good. `putBufs` unmaps the rest. Whether an index is mapped is read off the
`mem_info` of its definition.

The camera interface calls `putBufs` only if `getBufs` succeeded. A `getBufs` that fails after it has the
memory undoes its mappings, except where the size of a buffer is not found, but keeps `mStreamBufs`. It
takes itself for called twice from then on. A definition that fails has a `mem_info` all the same, and the
`bufDone` that unmaps its buffer leaves it there.

## Conventions

* `mapped` is what the backend has mapped for the stream: `map_ops` adds an index, `unmap_ops` takes it
  out.
* A registered buffer has a size. `getSize` can fail in `getBufs` if a buffer is unregistered meanwhile.
* `held` is that the camera interface has definitions, from a `getBufs` that succeeded until `putBufs`.
* Buffers are registered and unregistered in the memory of the stream at any time.

## Main results

* `Balanced.getBufs`, `Balanced.bufDone`, `Balanced.bufRelease`, `Balanced.putBufs`: what the calls
  preserve.
* `mappings_run`: where definitions succeed and no `getBufs` fails with the memory in its hands, the mapped
  indices are those with a `mem_info`, none after `putBufs`, and `getBufs` can be called again.
-/

namespace Marlin

open List Function Option Bool Transition

namespace StreamMaps

/-- What the calls return. `failed` is the error of a callee. -/
inductive Status
  | noError
  | badIndex
  | invalidOperation
  | noInit
  | noMemory
  | failedTransaction
  | failed
  deriving DecidableEq

/-- The stream: the buffers registered in its memory, whether it has the memory (`mStreamBufs`), the
`mem_info` of its definitions if there are any, and what is mapped. -/
structure Stream where
  mNumBufs : ℕ
  memOps : Bool := false
  streamBufs : Bool := false
  registered : ℕ → Bool := fun _ => false
  bufDefs : Option (ℕ → Bool) := none
  mapped : List ℕ := []
  held : Bool := false

/-- How the calls of `getBufs` end. `streamBufs` are the buffers of the memory, if there is one. -/
structure GetCalls where
  opsTbl : Bool := true
  streamBufs : Option (ℕ → Bool)
  getSize : ℕ → Bool := fun _ => true
  mapOps : ℕ → Bool := fun _ => true
  unmapOps : ℕ → Bool := fun _ => true
  mallocRegFlags : Bool := true
  mallocBufDefs : Bool := true
  getRegFlags : Bool := true

/-- How the calls of `bufDone` end. The buffer goes to the kernel, or to a batch. -/
structure DoneCalls where
  mapOps : Bool := true
  getBufDef : Bool := true
  unmapOps : Bool := true
  queued : Bool := true

namespace Stream

variable {s t : Stream}

/-- The unmapping loops: those of the indices that are valid and satisfy `p`. -/
def unmapBufs (p unmapOps : ℕ → Bool) (mapped indices : List ℕ) : List ℕ :=
  indices.foldl (fun mapped i => if p i && unmapOps i then mapped.erase i else mapped) mapped

/-- The mapping loop of `getBufs`. -/
def mapBufs (valid : ℕ → Bool) (calls : GetCalls) (mapped : List ℕ) : List ℕ → Status × List ℕ
  | [] => (.noError, mapped)
  | i :: rest =>
    if valid i then
      if calls.getSize i then
        if calls.mapOps i then mapBufs valid calls (mapped ++ [i]) rest
        else (.invalidOperation, unmapBufs valid calls.unmapOps mapped (List.range i))
      else (.invalidOperation, mapped)
    else mapBufs valid calls mapped rest

/-- `getBufs`. Each definition of a valid buffer has its `mem_info`. -/
def getBufs (s : Stream) (calls : GetCalls) : Status × Stream :=
  if !calls.opsTbl then (.invalidOperation, s)
  else
    let s := { s with memOps := true }
    if s.streamBufs then (.invalidOperation, s)
    else
      match calls.streamBufs with
      | none => (.noMemory, s)
      | some valid =>
        let s := { s with streamBufs := true, registered := valid }
        match mapBufs valid calls s.mapped (List.range s.mNumBufs) with
        | (.noError, mapped) =>
          let s := { s with mapped := mapped }
          let unmapped := unmapBufs valid calls.unmapOps s.mapped (List.range s.mNumBufs)
          if !calls.mallocRegFlags then (.noMemory, { s with mapped := unmapped })
          else if !calls.mallocBufDefs then
            (.invalidOperation, { s with bufDefs := none, mapped := unmapped })
          else if !calls.getRegFlags then
            (.invalidOperation, { s with bufDefs := none, mapped := unmapped })
          else (.noError, { s with bufDefs := some valid, held := true })
        | (rc, mapped) => (rc, { s with mapped := mapped })

/-- `bufDone`. `QCamera3StreamMem::getBufDef` sets `mem_info` even if it fails. -/
def bufDone (s : Stream) (index : ℕ) (calls : DoneCalls) : Status × Stream :=
  match s.bufDefs with
  | none => (.badIndex, s)
  | some memInfo =>
    if s.mNumBufs ≤ index then (.badIndex, s)
    else if !s.streamBufs then (.invalidOperation, s)
    else
      let queue (s : Stream) : Status × Stream :=
        (if calls.queued then .noError else .failedTransaction, s)
      if memInfo index then queue s
      else if !s.memOps then (.noInit, s)
      else if s.registered index then
        if !calls.mapOps then (.failed, s)
        else
          let s := { s with
            mapped := s.mapped ++ [index]
            bufDefs := some (Function.update memInfo index true) }
          if calls.getBufDef then queue s
          else (.failed, { s with
            mapped := if calls.unmapOps then s.mapped.erase index else s.mapped })
      else (.invalidOperation, s)

/-- `bufRelease`. -/
def bufRelease (s : Stream) (index : ℕ) (unmapOps : Bool) : Status × Stream :=
  match s.bufDefs with
  | none => (.badIndex, s)
  | some memInfo =>
    if s.mNumBufs ≤ index then (.badIndex, s)
    else if memInfo index then
      if !s.memOps then (.noInit, s)
      else if !unmapOps then (.failed, s)
      else (.noError, { s with
        mapped := s.mapped.erase index
        bufDefs := some (Function.update memInfo index false) })
    else (.badIndex, s)

/-- `putBufs`, of a stream that has its memory. The memory goes with its buffers. -/
def putBufs (s : Stream) (unmapOps : ℕ → Bool) : Stream :=
  let memInfo := s.bufDefs.getD fun _ => false
  { s with
    mapped := unmapBufs (fun i => s.registered i && memInfo i) unmapOps s.mapped (List.range s.mNumBufs)
    bufDefs := none
    streamBufs := false
    registered := fun _ => false
    held := false }

end Stream

/-- The calls of the camera interface and the channel, and what happens to the memory. -/
inductive Event
  | getBufs (calls : GetCalls)
  | bufDone (index : ℕ) (calls : DoneCalls)
  | bufRelease (index : ℕ) (unmapOps : Bool)
  | putBufs (unmapOps : ℕ → Bool)
  | registerBuffer (index : ℕ)
  | unregisterBuffer (index : ℕ)

namespace Stream

variable {s t : Stream}

/-- The events that can happen. The camera interface calls `putBufs` after a `getBufs` that succeeded, and
`getBufs` before the first or after a `putBufs`. -/
def step (s : Stream) : Event → Option Stream
  | .getBufs calls => if s.held then none else some (s.getBufs calls).2
  | .bufDone index calls => some (s.bufDone index calls).2
  | .bufRelease index unmapOps => some (s.bufRelease index unmapOps).2
  | .putBufs unmapOps => if s.held then some (s.putBufs unmapOps) else none
  | .registerBuffer index => some { s with registered := Function.update s.registered index true }
  | .unregisterBuffer index => some { s with registered := Function.update s.registered index false }

/-- Whether the definition of an index has a `mem_info`. -/
def memInfo (s : Stream) (index : ℕ) : Bool :=
  decide (index < s.mNumBufs) && (s.bufDefs.getD fun _ => false) index

/-- Nothing fails in a `getBufs`. -/
def Flawless (calls : GetCalls) : Prop :=
  calls.opsTbl = true ∧ calls.streamBufs.isSome = true ∧ (∀ i, calls.getSize i = true) ∧
    (∀ i, calls.mapOps i = true) ∧ calls.mallocRegFlags = true ∧ calls.mallocBufDefs = true ∧ calls.getRegFlags = true

/-- Each index is mapped at most once, and mapped if its definition has a `mem_info`. Without definitions
in the hands of the camera interface nothing is mapped, and a `getBufs` without failures succeeds. -/
structure Settled (s : Stream) : Prop where
  once : s.mapped.Nodup
  info : ∀ i, i ∈ s.mapped ↔ s.memInfo i = true
  unmapped : s.held = false → s.mapped = []
  again : s.held = false → ∀ calls, Flawless calls → (s.getBufs calls).1 = .noError

/-- The condition on the events. A `getBufs` that gets the memory succeeds, a definition made by `bufDone`
succeeds, `putBufs` can unmap, and no buffer is unregistered while it is mapped. -/
def Whole (s : Stream) : Event → Prop
  | .getBufs calls => calls.opsTbl = true → ∀ valid ∈ calls.streamBufs,
      (∀ i < s.mNumBufs, valid i = true → calls.getSize i = true ∧ calls.mapOps i = true) ∧
        calls.mallocRegFlags = true ∧ calls.mallocBufDefs = true ∧ calls.getRegFlags = true
  | .bufDone _ calls => calls.getBufDef = true
  | .putBufs unmapOps => ∀ i ∈ s.mapped, unmapOps i = true
  | .unregisterBuffer index => index ∉ s.mapped
  | _ => True

instance (s : Stream) (e : Event) : Decidable (s.Whole e) := by
  delta Whole
  cases e <;> infer_instance

/-! ### The loops -/

theorem mem_unmapBufs {p unmapOps : ℕ → Bool} {mapped : List ℕ} (h : mapped.Nodup) (l : List ℕ) (i : ℕ) :
    i ∈ unmapBufs p unmapOps mapped l ↔ i ∈ mapped ∧ ¬ (i ∈ l ∧ p i = true ∧ unmapOps i = true) := by
  induction l generalizing mapped with
  | nil => simp [unmapBufs]
  | cons j rest ih =>
    change i ∈ unmapBufs p unmapOps (if p j && unmapOps j then mapped.erase j else mapped) rest ↔ _
    split
    · rename_i hj
      rw [and_eq_true] at hj
      rw [ih (h.erase j), h.mem_erase_iff, mem_cons]
      by_cases hij : i = j
      · subst hij
        simp [hj]
      · simp [hij]
    · rename_i hj
      rw [and_eq_true] at hj
      rw [ih h, mem_cons]
      by_cases hij : i = j
      · subst hij
        simp [hj]
      · simp [hij]

theorem mapBufs_eq {valid : ℕ → Bool} {calls : GetCalls} {mapped l : List ℕ}
    (h : ∀ i ∈ l, valid i = true → calls.getSize i = true ∧ calls.mapOps i = true) :
    mapBufs valid calls mapped l = (.noError, mapped ++ l.filter valid) := by
  induction l generalizing mapped with
  | nil => simp [mapBufs]
  | cons i rest ih =>
    have hrest := fun mapped => @ih mapped fun j hj => h j (mem_cons_of_mem _ hj)
    rw [mapBufs]
    split
    · rename_i hvalid
      obtain ⟨hsize, hmap⟩ := h i mem_cons_self hvalid
      rw [if_pos hsize, if_pos hmap, hrest, filter_cons_of_pos hvalid, append_assoc]
      rfl
    · rename_i hvalid
      rw [hrest, filter_cons_of_neg hvalid]

/-! ### The calls -/

theorem getBufs_eq {calls : GetCalls} {valid : ℕ → Bool} (hfree : s.streamBufs = false)
    (hops : calls.opsTbl = true) (hmem : calls.streamBufs = some valid)
    (hmap : ∀ i < s.mNumBufs, valid i = true → calls.getSize i = true ∧ calls.mapOps i = true)
    (hflags : calls.mallocRegFlags = true) (hdefs : calls.mallocBufDefs = true)
    (hreg : calls.getRegFlags = true) :
    s.getBufs calls = (.noError, { s with
      memOps := true
      streamBufs := true
      registered := valid
      bufDefs := some valid
      mapped := s.mapped ++ (range s.mNumBufs).filter valid
      held := true }) := by
  have hloop := @mapBufs_eq valid calls s.mapped (range s.mNumBufs) fun i hi => hmap i (mem_range.mp hi)
  simp [getBufs, hops, hfree, hmem, hloop, hflags, hdefs, hreg]

/-- The invariant. -/
structure Balanced (s : Stream) : Prop where
  once : s.mapped.Nodup
  info : ∀ i, i ∈ s.mapped ↔ s.memInfo i = true
  registered : ∀ i ∈ s.mapped, s.registered i = true
  held : s.held = s.bufDefs.isSome
  streamBufs : s.streamBufs = s.bufDefs.isSome

/-- A stream that nothing was done with. -/
structure Initial (s : Stream) : Prop where
  streamBufs : s.streamBufs = false
  bufDefs : s.bufDefs = none
  mapped : s.mapped = []
  held : s.held = false

theorem Initial.balanced (h : s.Initial) : s.Balanced where
  once := by simp [h.mapped]
  info := by simp [h.mapped, memInfo, h.bufDefs]
  registered := by simp [h.mapped]
  held := by rw [h.held, h.bufDefs]; rfl
  streamBufs := by rw [h.streamBufs, h.bufDefs]; rfl

theorem Balanced.mapped_nil (h : s.Balanced) (hfree : s.held = false) :
    s.bufDefs = none ∧ s.streamBufs = false ∧ s.mapped = [] := by
  have hnone : s.bufDefs = none := by
    rw [← isNone_iff_eq_none, ← not_isSome, ← h.held, hfree]
    rfl
  refine ⟨hnone, by rw [h.streamBufs, hnone]; rfl, eq_nil_iff_forall_not_mem.mpr fun i hi => ?_⟩
  have hinfo := (h.info i).mp hi
  simp [memInfo, hnone] at hinfo

/-- **`getBufs`** succeeds, or fails before it has the memory. -/
theorem Balanced.getBufs (h : s.Balanced) (hfree : s.held = false) {calls : GetCalls}
    (hwhole : s.Whole (.getBufs calls)) : (s.getBufs calls).2.Balanced := by
  obtain ⟨hdefs, hstream, hmapped⟩ := h.mapped_nil hfree
  rcases eq_false_or_eq_true calls.opsTbl with hops | hops
  · rcases hmem : calls.streamBufs with _ | valid
    · rw [show s.getBufs calls = (.noMemory, { s with memOps := true }) by
        simp [Stream.getBufs, hops, hstream, hmem]]
      exact ⟨h.once, h.info, h.registered, h.held, h.streamBufs⟩
    · obtain ⟨hmap, hflags, hmalloc, hreg⟩ := hwhole hops valid hmem
      rw [getBufs_eq hstream hops hmem hmap hflags hmalloc hreg, hmapped, nil_append]
      refine ⟨nodup_range.filter _, fun i => ?_, fun i hi => (mem_filter.mp hi).2, rfl, rfl⟩
      rw [mem_filter, mem_range, memInfo, and_eq_true, decide_eq_true_iff]
      rfl
  · rw [show s.getBufs calls = (.invalidOperation, s) by simp [Stream.getBufs, hops]]
    exact h

/-- A buffer is mapped, and its definition gets its `mem_info`. -/
theorem Balanced.map (h : s.Balanced) {info : ℕ → Bool} {index : ℕ} (hdefs : s.bufDefs = some info)
    (hlt : index < s.mNumBufs) (hinfo : info index = false) (hreg : s.registered index = true) :
    Balanced { s with
      mapped := s.mapped ++ [index]
      bufDefs := some (update info index true) } := by
  have hfresh : index ∉ s.mapped := fun hmem => by
    have hmem := (h.info index).mp hmem
    simp [memInfo, hdefs, hinfo] at hmem
  refine ⟨?_, fun i => ?_, fun i hi => ?_, by rw [h.held, hdefs]; rfl, by rw [h.streamBufs, hdefs]; rfl⟩
  · refine nodup_append.mpr ⟨h.once, nodup_singleton _, fun i hi j hj => ?_⟩
    rw [mem_singleton.mp hj]
    exact fun heq => hfresh (heq ▸ hi)
  · have hold := h.info i
    rw [memInfo, hdefs] at hold
    rw [mem_append, mem_singleton, hold, memInfo]
    by_cases hi : i = index
    · simp [hi, hlt]
    · simp [hi]
  · rcases mem_append.mp hi with hi | hi
    · exact h.registered i hi
    · exact mem_singleton.mp hi ▸ hreg

/-- A buffer is unmapped, and its definition loses its `mem_info`. -/
theorem Balanced.unmap (h : s.Balanced) {info : ℕ → Bool} {index : ℕ} (hdefs : s.bufDefs = some info) :
    Balanced { s with
      mapped := s.mapped.erase index
      bufDefs := some (update info index false) } := by
  refine ⟨h.once.erase index, fun i => ?_, fun i hi => h.registered i (mem_of_mem_erase hi),
    by rw [h.held, hdefs]; rfl, by rw [h.streamBufs, hdefs]; rfl⟩
  have hold := h.info i
  rw [memInfo, hdefs] at hold
  rw [h.once.mem_erase_iff, hold, memInfo]
  by_cases hi : i = index
  · simp [hi]
  · simp [hi]

/-- **`bufDone`** maps the buffer if it is not mapped. -/
theorem Balanced.bufDone (h : s.Balanced) (index : ℕ) {calls : DoneCalls}
    (hdef : calls.getBufDef = true) : (s.bufDone index calls).2.Balanced := by
  obtain ⟨mapOps, getBufDef, unmapOps, queued⟩ := calls
  obtain rfl : getBufDef = true := hdef
  rcases hdefs : s.bufDefs with _ | info
  · rw [Stream.bufDone, hdefs]
    exact h
  · rw [Stream.bufDone, hdefs]
    dsimp only
    split
    · exact h
    split
    · exact h
    split
    · exact h
    split
    · exact h
    split
    · split
      · exact h
      · rename_i hlt _ hinfo _ hreg _
        exact h.map hdefs (Nat.not_le.mp hlt) (not_eq_true _ ▸ hinfo) hreg
    · exact h

/-- **`bufRelease`** unmaps the buffer if it is mapped. -/
theorem Balanced.bufRelease (h : s.Balanced) (index : ℕ) (unmapOps : Bool) :
    (s.bufRelease index unmapOps).2.Balanced := by
  rcases hdefs : s.bufDefs with _ | info
  · rw [Stream.bufRelease, hdefs]
    exact h
  · rw [Stream.bufRelease, hdefs]
    dsimp only
    split
    · exact h
    split
    · split
      · exact h
      split
      · exact h
      · exact h.unmap hdefs
    · exact h

/-- **`putBufs`** unmaps what is mapped. -/
theorem Balanced.putBufs (h : s.Balanced) {unmapOps : ℕ → Bool}
    (hunmap : ∀ i ∈ s.mapped, unmapOps i = true) : (s.putBufs unmapOps).Balanced := by
  have hnil : (s.putBufs unmapOps).mapped = [] := by
    refine eq_nil_iff_forall_not_mem.mpr fun i hi => ?_
    obtain ⟨hmapped, hleft⟩ := (mem_unmapBufs h.once _ i).mp hi
    have hinfo := (h.info i).mp hmapped
    rw [memInfo, and_eq_true, decide_eq_true_iff] at hinfo
    refine hleft ⟨mem_range.mpr hinfo.1, ?_, hunmap i hmapped⟩
    rw [and_eq_true]
    exact ⟨h.registered i hmapped, hinfo.2⟩
  exact Initial.balanced ⟨rfl, rfl, hnil, rfl⟩

/-! ### Every run -/

theorem Balanced.step (h : s.Balanced) {e : Event} (hwhole : s.Whole e) (hstep : s.step e = some t) : t.Balanced := by
  cases e with
  | getBufs calls =>
    rw [Stream.step] at hstep
    split at hstep
    · cases hstep
    · rename_i hfree
      cases hstep
      exact h.getBufs (not_eq_true _ ▸ hfree) hwhole
  | bufDone index calls =>
    cases hstep
    exact h.bufDone index hwhole
  | bufRelease index unmapOps =>
    cases hstep
    exact h.bufRelease index unmapOps
  | putBufs unmapOps =>
    rw [Stream.step] at hstep
    split at hstep
    · cases hstep
      exact h.putBufs hwhole
    · cases hstep
  | registerBuffer index =>
    cases hstep
    refine ⟨h.once, h.info, fun i hi => ?_, h.held, h.streamBufs⟩
    by_cases heq : i = index
    · simp [heq]
    · simp [heq, h.registered i hi]
  | unregisterBuffer index =>
    cases hstep
    refine ⟨h.once, h.info, fun i hi => ?_, h.held, h.streamBufs⟩
    have hne : i ≠ index := fun heq => hwhole (heq ▸ hi)
    simp [hne, h.registered i hi]

theorem Balanced.settled (h : s.Balanced) : s.Settled where
  once := h.once
  info := h.info
  unmapped hfree := (h.mapped_nil hfree).2.2
  again hfree calls hcalls := by
    obtain ⟨hops, hmem, hsize, hmap, hflags, hdefs, hreg⟩ := hcalls
    obtain ⟨valid, hvalid⟩ := isSome_iff_exists.mp hmem
    rw [getBufs_eq (h.mapped_nil hfree).2.1 hops hvalid (fun i _ _ => ⟨hsize i, hmap i⟩) hflags hdefs hreg]

/-- **The mappings of the buffers.** -/
theorem mappings_run {es : List Event} (hs : s.Initial) (h : Run (guarded Whole (fires step)) s es t) : t.Settled :=
  (h.invariant (I := Balanced) (fun _ _ _ hinv hstep => hinv.step hstep.1 hstep.2) hs.balanced).settled

/-- Two indices. The second buffer is registered later, and its first `bufDone` cannot map it. -/
def mapSession : List Event :=
  [.getBufs { opsTbl := false, streamBufs := none }, .getBufs { streamBufs := some (· == 0) },
    .registerBuffer 1, .bufDone 0 {}, .bufDone 1 { mapOps := false }, .bufDone 1 {}, .bufRelease 1 true,
    .unregisterBuffer 1, .registerBuffer 1, .bufDone 1 { queued := false }, .putBufs fun _ => true,
    .getBufs { streamBufs := some fun _ => true }]

/-- The mappings of the session are balanced. -/
theorem mappings_session : Initial { mNumBufs := 2 } ∧
    ∃ t, Run (guarded Whole (fires step)) { mNumBufs := 2 } mapSession t ∧ t.Settled ∧
      t.mapped = [0, 1] ∧ t.held = true :=
  have hinitial : Initial { mNumBufs := 2 } := ⟨rfl, rfl, rfl, rfl⟩
  ⟨hinitial, (exists_run (by decide)).imp fun _ h => ⟨h.1, mappings_run hinitial h.1, h.2⟩⟩

/-- A `getBufs` whose allocation of `regFlags` fails. -/
def noRegFlags : GetCalls := { streamBufs := some fun _ => true, mallocRegFlags := false }

/-- It unmaps the buffer again, and no other `getBufs` ever succeeds. -/
theorem getBufs_stuck : Initial { mNumBufs := 1 } ∧
    ∃ t, Run (fires step) { mNumBufs := 1 } [.getBufs noRegFlags] t ∧ t.held = false ∧ t.mapped = [] ∧
      (∀ calls, (t.getBufs calls).1 = .invalidOperation) ∧ ¬ t.Settled := by
  have hrun : Run (fires step) { mNumBufs := 1 } [.getBufs noRegFlags]
      (Stream.getBufs { mNumBufs := 1 } noRegFlags).2 := Run.single rfl
  have hstuck (calls : GetCalls) :
      ((Stream.getBufs { mNumBufs := 1 } noRegFlags).2.getBufs calls).1 = .invalidOperation := by
    rcases eq_false_or_eq_true calls.opsTbl with hops | hops
    · rw [getBufs, hops]
      rfl
    · rw [getBufs, hops]
      rfl
  refine ⟨⟨rfl, rfl, rfl, rfl⟩, _, hrun, rfl, rfl, hstuck, fun hsettled => ?_⟩
  have hok := hsettled.again rfl { streamBufs := some fun _ => true }
    ⟨rfl, rfl, fun _ => rfl, fun _ => rfl, rfl, rfl, rfl⟩
  rw [hstuck] at hok
  cases hok

end Stream

end StreamMaps

end Marlin
