import Marlin.BufDef
import Marlin.StreamMem
import Marlin.SlotTable

/-!
# The Table of the Gralloc Buffers

`QCamera3GrallocMemory` registers the buffers of the framework one by one in a table of slots. A slot is free
if its ION handle is 0. `registerBuffer` takes the first free slot, sets the buffer there, and only then
imports and maps it: if that fails, the buffer stays in the slot without a handle.

## Conventions

A buffer is its non-null `buffer_handle_t *`, with what that points to as an argument of its own. Whether the
ION device takes the import, and with which handle, and whether the mapping succeeds is taken from the
environment. ION gives no handle 0 out.

## Main results

* `chooseSlot_eq_ok`: what is known where a registration gets a slot.
* `Core.call`: what each call preserves, as long as no registration fails that got a slot.
* `not_consistent_of_fails`: what such a failure does.
* `table_lawful_iff`: for all sequences of calls, when the fields of the table agree throughout.
-/

namespace Marlin

open List Function Option

/-- What the calls return. -/
inductive GrallocStatus
  | noError
  | alreadyExists
  | badIndex
  | badValue
  | noMemory
  deriving DecidableEq

/-- `private_handle_t`, as far as `registerBuffer` reads it. -/
structure PrivateHandle where
  fd : Int32
  size : ℕ
  deriving DecidableEq

/-- What belongs to one index. -/
structure GrallocSlot where
  mMemInfo : QCamera3MemInfo := {}
  mBufferHandle : Option ℕ := none
  mPrivateHandle : Option PrivateHandle := none
  mPtr : Option ℕ := none
  mCurrentFrameNumber : ℤ := -1
  deriving DecidableEq

/-- `QCamera3GrallocMemory`. -/
structure GrallocTable where
  mStartIdx : ℕ
  main_ion_fd : ℤ
  mBufferCount : ℕ := 0
  slots : ℕ → GrallocSlot := fun _ => {}

/-- A handle from ION. -/
abbrev IonHandle := { h : ℕ // h ≠ 0 }

/-- What the environment does in a registration: whether ION imports the buffer, and with which handle, and
whether it can be mapped, and where. -/
structure Registration where
  imported : Option IonHandle
  mapped : Option ℕ
  deriving DecidableEq

namespace GrallocTable

/-- The indices of the table. -/
def indices (t : GrallocTable) : List ℕ := List.range' t.mStartIdx (camMaxNumBufsPerStream - t.mStartIdx)

/-- One slot is set. -/
def set (t : GrallocTable) (i : ℕ) (s : GrallocSlot) : GrallocTable :=
  { t with slots := Function.update t.slots i s }

/-- `getMatchBufIndex`. -/
def getMatchBufIndex (t : GrallocTable) (buffer : ℕ) : Option ℕ :=
  t.indices.find? fun i => (t.slots i).mBufferHandle = some buffer

/-- `getFreeIndexLocked`. -/
def getFreeIndexLocked (t : GrallocTable) : Option ℕ :=
  if camMaxNumBufsPerStream - 1 ≤ t.mBufferCount then none
  else t.indices.find? fun i => (t.slots i).mMemInfo.handle = 0

/-- How many buffers `registerBuffer` takes, as an unsigned number. -/
def limit (t : GrallocTable) : ℕ := (((camMaxNumBufsPerStream : ℤ) - 1 - t.mStartIdx) % 2 ^ 32).toNat

/-- The first part of `registerBuffer`, up to the choice of the slot. -/
def chooseSlot (t : GrallocTable) (buffer : ℕ) : Except GrallocStatus ℕ :=
  if (t.getMatchBufIndex buffer).isSome then .error .alreadyExists
  else if t.limit ≤ t.mBufferCount then .error .badIndex
  else
    match t.getFreeIndexLocked with
    | none => .error .badIndex
    | some i => .ok i

/-- `registerBuffer`. The slot has the buffer before the device and the mapping are asked. -/
def registerBuffer (t : GrallocTable) (buffer : ℕ) (priv : PrivateHandle) (env : Registration) :
    GrallocStatus × GrallocTable :=
  match t.chooseSlot buffer with
  | .error e => (e, t)
  | .ok idx =>
    let slot := { t.slots idx with mBufferHandle := some buffer, mPrivateHandle := some priv }
    if t.main_ion_fd < 0 then (.noMemory, t.set idx slot)
    else
      match env.imported with
      | none => (.noMemory, t.set idx slot)
      | some handle =>
        match env.mapped with
        | none => (.noMemory, t.set idx { slot with mMemInfo := ⟨priv.fd, 0, priv.size⟩ })
        | some vaddr =>
          (.noError, { t.set idx { slot with mMemInfo := ⟨priv.fd, handle, priv.size⟩, mPtr := some vaddr } with
              mBufferCount := (t.mBufferCount + 1) % 2 ^ 32 })

/-- What `unregisterBufferLocked` leaves of a slot: the memory information is 0 throughout. -/
def cleared : GrallocSlot where
  mMemInfo := ⟨0, 0, 0⟩

/-- `unregisterBufferLocked`. -/
def unregisterBufferLocked (t : GrallocTable) (idx : ℕ) : GrallocTable :=
  { t.set idx cleared with
    mBufferCount := (((t.mBufferCount : ℤ) - 1) % 2 ^ 32).toNat }

/-- `unregisterBuffer`. -/
def unregisterBuffer (t : GrallocTable) (idx : ℕ) : GrallocStatus × GrallocTable :=
  if camMaxNumBufsPerStream ≤ idx then (.badValue, t)
  else if idx < t.mStartIdx then (.badIndex, t)
  else if (t.slots idx).mMemInfo.handle = 0 then (.badValue, t)
  else (.noError, t.unregisterBufferLocked idx)

/-- One turn of the loop of `unregisterBuffers`. -/
def unregisterTurn (t : GrallocTable) (cnt : ℕ) : GrallocTable :=
  if (t.slots cnt).mMemInfo.handle = 0 then t else t.unregisterBufferLocked cnt

/-- `unregisterBuffers`. -/
def unregisterBuffers (t : GrallocTable) : GrallocTable :=
  { t.indices.foldl unregisterTurn t with mBufferCount := 0 }

/-- `markFrameNumber`: the number becomes a signed one. -/
def markFrameNumber (t : GrallocTable) (index frameNumber : ℕ) : GrallocStatus × GrallocTable :=
  if camMaxNumBufsPerStream ≤ index then (.badIndex, t)
  else if index < t.mStartIdx then (.badIndex, t)
  else if (t.slots index).mMemInfo.handle = 0 then (.badIndex, t)
  else (.noError, t.set index { t.slots index with mCurrentFrameNumber := (frameNumber : ℤ).bmod (2 ^ 32) })

/-- A call. -/
inductive Call
  | registerBuffer (buffer : ℕ) (priv : PrivateHandle) (env : Registration)
  | unregisterBuffer (idx : ℕ)
  | unregisterBuffers
  | markFrameNumber (index frameNumber : ℕ)
  deriving DecidableEq

/-- What a call returns and leaves. -/
def call (t : GrallocTable) : Call → GrallocStatus × GrallocTable
  | .registerBuffer buffer priv env => t.registerBuffer buffer priv env
  | .unregisterBuffer idx => t.unregisterBuffer idx
  | .unregisterBuffers => (.noError, t.unregisterBuffers)
  | .markFrameNumber index frameNumber => t.markFrameNumber index frameNumber

/-- The slots in use. -/
def used (t : GrallocTable) : Finset ℕ :=
  (Finset.range camMaxNumBufsPerStream).filter fun i => (t.slots i).mMemInfo.handle ≠ 0

/-- The buffer has a slot that is in use. -/
def Registered (t : GrallocTable) (buffer : ℕ) : Prop :=
  ∃ i ∈ t.used, (t.slots i).mBufferHandle = some buffer

/-- The fields of the table agree. -/
structure Consistent (t : GrallocTable) : Prop where
  count : t.mBufferCount = t.used.card
  handles : ∀ i < camMaxNumBufsPerStream, (t.slots i).mBufferHandle ≠ none ↔ i ∈ t.used
  distinct : ∀ i < camMaxNumBufsPerStream, ∀ j < camMaxNumBufsPerStream, ∀ b,
    (t.slots i).mBufferHandle = some b → (t.slots j).mBufferHandle = some b → i = j
  found : ∀ b, t.getMatchBufIndex b ≠ none ↔ t.Registered b

/-- The table keeps to the law through a sequence of calls: its fields agree from the start to the end, and a
registration that fails changes nothing. -/
def Lawful : GrallocTable → List Call → Prop
  | t, [] => t.Consistent
  | t, c :: cs => t.Consistent ∧
      (∀ buffer priv env, c = .registerBuffer buffer priv env → (t.call c).1 ≠ .noError → (t.call c).2 = t) ∧
        Lawful (t.call c).2 cs

/-- A registration gets a slot: the buffer is not in the table, and the table has room. -/
def HasRoom (t : GrallocTable) (buffer : ℕ) : Prop :=
  t.getMatchBufIndex buffer = none ∧ t.mBufferCount < t.limit ∧ t.getFreeIndexLocked ≠ none

/-- A registration that gets a slot is imported and mapped. -/
def Completes (t : GrallocTable) : Call → Prop
  | .registerBuffer buffer _ env =>
    t.HasRoom buffer → 0 ≤ t.main_ion_fd ∧ env.imported ≠ none ∧ env.mapped ≠ none
  | _ => True

/-- All registrations of a sequence of calls that get a slot are imported and mapped. -/
def AllComplete : GrallocTable → List Call → Prop
  | _, [] => True
  | t, c :: cs => t.Completes c ∧ AllComplete (t.call c).2 cs

/-! ### One slot -/

variable {t : GrallocTable} {i : ℕ} {s : GrallocSlot}

theorem mem_indices : i ∈ t.indices ↔ t.mStartIdx ≤ i ∧ i < camMaxNumBufsPerStream := by
  rw [indices, mem_range'_1]
  omega

theorem used_eq (t : GrallocTable) :
    t.used = SlotTable.used camMaxNumBufsPerStream (fun s => s.mMemInfo.handle ≠ 0) t.slots := rfl

theorem mem_used : i ∈ t.used ↔ i < camMaxNumBufsPerStream ∧ (t.slots i).mMemInfo.handle ≠ 0 := by
  rw [used_eq, SlotTable.mem_used]

theorem set_slots_self : (t.set i s).slots i = s :=
  update_self (β := fun _ => GrallocSlot) i s t.slots

theorem set_slots_ne {j : ℕ} (h : j ≠ i) : (t.set i s).slots j = t.slots j :=
  update_of_ne (β := fun _ => GrallocSlot) h s t.slots

theorem used_congr {t' : GrallocTable} (h : t'.slots = t.slots) : t'.used = t.used := by
  rw [used, used, h]

theorem used_set (hi : i < camMaxNumBufsPerStream) (hs : s.mMemInfo.handle ≠ 0) :
    (t.set i s).used = insert i t.used := by
  rw [used_eq, used_eq]
  refine SlotTable.used_update hi ?_
  exact hs

theorem used_set_free (hs : s.mMemInfo.handle = 0) : (t.set i s).used = t.used.erase i := by
  rw [used_eq, used_eq]
  refine SlotTable.used_update_free ?_
  exact not_not_intro hs

theorem unregisterBufferLocked_slots : (t.unregisterBufferLocked i).slots = (t.set i cleared).slots := rfl

theorem unregisterBufferLocked_used : (t.unregisterBufferLocked i).used = t.used.erase i := by
  rw [used_congr unregisterBufferLocked_slots]
  exact used_set_free (s := cleared) rfl

theorem getMatchBufIndex_ne_none {b : ℕ} :
    t.getMatchBufIndex b ≠ none ↔ ∃ i ∈ t.indices, (t.slots i).mBufferHandle = some b := by
  rw [← isSome_iff_ne_none, getMatchBufIndex, find?_isSome]
  simp only [decide_eq_true_eq]

/-- **The choice of a slot**: the buffer is in no slot, and the slot is the first free one. -/
theorem chooseSlot_eq_ok {buffer idx : ℕ} (h : t.chooseSlot buffer = .ok idx) :
    t.HasRoom buffer ∧ t.getFreeIndexLocked = some idx ∧ idx ∈ t.indices ∧ (t.slots idx).mMemInfo.handle = 0 := by
  rw [chooseSlot] at h
  split at h
  · cases h
  rename_i hmatch
  split at h
  · cases h
  rename_i hlimit
  split at h
  · cases h
  rename_i i hfree
  obtain rfl : i = idx := Except.ok.inj h
  refine ⟨⟨not_isSome_iff_eq_none.mp hmatch, Nat.lt_of_not_le hlimit, hfree ▸ nofun⟩, hfree, ?_⟩
  rw [getFreeIndexLocked] at hfree
  split at hfree
  · cases hfree
  exact ⟨mem_of_find?_eq_some hfree, of_decide_eq_true (find?_some hfree :)⟩

theorem chooseSlot_of_hasRoom {buffer : ℕ} (h : t.HasRoom buffer) : ∃ idx, t.chooseSlot buffer = .ok idx := by
  obtain ⟨hmatch, hlimit, hfree⟩ := h
  obtain ⟨idx, hidx⟩ := ne_none_iff_exists'.mp hfree
  exact ⟨idx, by
    rw [chooseSlot, if_neg (not_isSome_iff_eq_none.mpr hmatch), if_neg (Nat.not_le.mpr hlimit), hidx]⟩

theorem registerBuffer_error {buffer : ℕ} {e : GrallocStatus} (h : t.chooseSlot buffer = .error e)
    (priv : PrivateHandle) (env : Registration) : t.registerBuffer buffer priv env = (e, t) := by
  rw [registerBuffer, h]

/-! ### What the calls preserve -/

/-- The slots before the first index are not touched. -/
def Untouched (t : GrallocTable) : Prop :=
  ∀ i < t.mStartIdx, (t.slots i).mBufferHandle = none ∧ (t.slots i).mMemInfo.handle = 0

/-- What of `Consistent` has to be shown, for a table whose first slots are not touched. -/
structure Core (t : GrallocTable) : Prop where
  count : t.mBufferCount = t.used.card
  handles : ∀ i < camMaxNumBufsPerStream, (t.slots i).mBufferHandle ≠ none ↔ i ∈ t.used
  distinct : ∀ i < camMaxNumBufsPerStream, ∀ j < camMaxNumBufsPerStream, ∀ b,
    (t.slots i).mBufferHandle = some b → (t.slots j).mBufferHandle = some b → i = j
  untouched : t.Untouched

theorem Core.mem_indices_of_used (h : t.Core) (hi : i ∈ t.used) : i ∈ t.indices := by
  obtain ⟨hlt, hne⟩ := mem_used.mp hi
  refine mem_indices.mpr ⟨Nat.le_of_not_lt fun hstart => hne (h.untouched i hstart).2, hlt⟩

theorem Core.consistent (h : t.Core) : t.Consistent where
  count := h.count
  handles := h.handles
  distinct := h.distinct
  found b := by
    rw [getMatchBufIndex_ne_none]
    constructor
    · rintro ⟨i, hi, hb⟩
      exact ⟨i, (h.handles i (mem_indices.mp hi).2).mp (hb ▸ nofun), hb⟩
    · rintro ⟨i, hi, hb⟩
      exact ⟨i, h.mem_indices_of_used hi, hb⟩

theorem core_fresh (mStartIdx : ℕ) (main_ion_fd : ℤ) : Core { mStartIdx, main_ion_fd } := by
  have hused : used { mStartIdx, main_ion_fd } = ∅ :=
    Finset.filter_eq_empty_iff.mpr fun i _ => not_not_intro rfl
  refine ⟨hused ▸ rfl, fun i _ => ?_, fun i _ j _ b => nofun, fun i _ => ⟨rfl, rfl⟩⟩
  rw [hused]
  exact iff_of_false (not_not_intro rfl) (Finset.notMem_empty i)

theorem Core.insert (h : t.Core) {b : ℕ} (hi : i ∈ t.indices) (hfree : (t.slots i).mMemInfo.handle = 0)
    (hs : s.mMemInfo.handle ≠ 0) (hb : s.mBufferHandle = some b) (hnew : t.getMatchBufIndex b = none) :
    Core { t.set i s with mBufferCount := t.mBufferCount + 1 } := by
  obtain ⟨hstart, hlt⟩ := mem_indices.mp hi
  have hnotused : i ∉ t.used := fun hused => (mem_used.mp hused).2 hfree
  have hused := used_set (t := t) hlt hs
  have hnone (j : ℕ) (hj : j < camMaxNumBufsPerStream) : (t.slots j).mBufferHandle ≠ some b := fun heq =>
    getMatchBufIndex_ne_none.mpr ⟨j, h.mem_indices_of_used ((h.handles j hj).mp (heq ▸ nofun)), heq⟩ hnew
  refine ⟨?_, fun j hj => ?_, fun j hj k hk c hc hc' => ?_, fun j hj => ?_⟩
  · change t.mBufferCount + 1 = (t.set i s).used.card
    rw [hused, Finset.card_insert_of_notMem hnotused, h.count]
  · change ((t.set i s).slots j).mBufferHandle ≠ none ↔ j ∈ (t.set i s).used
    rw [hused, Finset.mem_insert]
    by_cases hji : j = i
    · rw [hji, set_slots_self, hb]
      exact iff_of_true nofun (.inl rfl)
    · rw [set_slots_ne hji, or_iff_right hji, h.handles j hj]
  · change ((t.set i s).slots j).mBufferHandle = some c at hc
    change ((t.set i s).slots k).mBufferHandle = some c at hc'
    by_cases hji : j = i <;> by_cases hki : k = i
    · rw [hji, hki]
    · rw [hji, set_slots_self, hb] at hc
      rw [set_slots_ne hki, ← hc] at hc'
      exact absurd hc' (hnone k hk)
    · rw [hki, set_slots_self, hb] at hc'
      rw [set_slots_ne hji, ← hc'] at hc
      exact absurd hc (hnone j hj)
    · rw [set_slots_ne hji] at hc
      rw [set_slots_ne hki] at hc'
      exact h.distinct j hj k hk c hc hc'
  · have hji : j ≠ i := Nat.ne_of_lt (Nat.lt_of_lt_of_le hj hstart)
    change ((t.set i s).slots j).mBufferHandle = none ∧ ((t.set i s).slots j).mMemInfo.handle = 0
    rw [set_slots_ne hji]
    exact h.untouched j hj

theorem Core.erase (h : t.Core) (hi : i ∈ t.used) : (t.unregisterBufferLocked i).Core ∧
    (t.unregisterBufferLocked i).used = t.used.erase i := by
  have hstart : t.mStartIdx ≤ i := (mem_indices.mp (h.mem_indices_of_used hi)).1
  have hused : (t.unregisterBufferLocked i).used = t.used.erase i :=
    unregisterBufferLocked_used
  have hpos : 0 < t.used.card := Finset.card_pos.mpr ⟨i, hi⟩
  have hle : t.used.card ≤ camMaxNumBufsPerStream :=
    (Finset.card_le_card (Finset.filter_subset _ _)).trans_eq (Finset.card_range _)
  refine ⟨⟨?_, fun j hj => ?_, fun j hj k hk c hc hc' => ?_, fun j hj => ?_⟩, hused⟩
  · rw [hused, Finset.card_erase_of_mem hi]
    change (((t.mBufferCount : ℤ) - 1) % 2 ^ 32).toNat = _
    rw [camMaxNumBufsPerStream] at hle
    rw [h.count]
    omega
  · rw [hused, Finset.mem_erase, unregisterBufferLocked_slots]
    by_cases hji : j = i
    · rw [hji, set_slots_self]
      exact iff_of_false (not_not_intro rfl) (fun hmem => hmem.1 rfl)
    · rw [set_slots_ne hji, and_iff_right hji, ← h.handles j hj]
  · have hkept (j : ℕ) (hc : ((t.unregisterBufferLocked i).slots j).mBufferHandle = some c) :
        (t.slots j).mBufferHandle = some c := by
      rw [unregisterBufferLocked_slots] at hc
      by_cases hji : j = i
      · rw [hji, set_slots_self] at hc
        cases hc
      · rwa [set_slots_ne hji] at hc
    exact h.distinct j hj k hk c (hkept j hc) (hkept k hc')
  · have hji : j ≠ i := Nat.ne_of_lt (Nat.lt_of_lt_of_le hj hstart)
    rw [unregisterBufferLocked_slots, set_slots_ne hji]
    exact h.untouched j hj

theorem Core.unregisterTurns {l : List ℕ} (h : t.Core) (hl : ∀ i ∈ l, i < camMaxNumBufsPerStream) :
    (l.foldl unregisterTurn t).Core ∧ (l.foldl unregisterTurn t).used = t.used.filter (· ∉ l) ∧
        (l.foldl unregisterTurn t).mStartIdx = t.mStartIdx := by
  induction l generalizing t with
  | nil => exact ⟨h, (Finset.filter_true_of_mem fun _ _ => not_mem_nil).symm, rfl⟩
  | cons i l ih =>
    have hrest (j : ℕ) (hj : j ∈ l) : j < camMaxNumBufsPerStream := hl j (mem_cons_of_mem _ hj)
    rw [foldl_cons, unregisterTurn]
    split
    · rename_i hfree
      obtain ⟨hcore, hused, hstart⟩ := ih h hrest
      refine ⟨hcore, hused.trans (Finset.filter_congr fun j hj => ?_), hstart⟩
      have hji : j ≠ i := fun hji => (mem_used.mp hj).2 (hji ▸ hfree)
      rw [mem_cons, or_iff_right hji]
    · rename_i hbusy
      obtain ⟨hcore, hused⟩ := h.erase (mem_used.mpr ⟨hl i mem_cons_self, hbusy⟩)
      obtain ⟨hcore', hused', hstart⟩ := ih hcore hrest
      refine ⟨hcore', ?_, hstart⟩
      rw [hused', hused]
      ext j
      rw [Finset.mem_filter, Finset.mem_filter, Finset.mem_erase, mem_cons, not_or]
      tauto

theorem Core.unregisterBuffers (h : t.Core) : t.unregisterBuffers.Core := by
  obtain ⟨hcore, hused, -⟩ := h.unregisterTurns fun i hi => (mem_indices.mp hi).2
  have hempty : (t.indices.foldl unregisterTurn t).used = ∅ := by
    rw [hused]
    exact Finset.filter_eq_empty_iff.mpr fun i hi => not_not_intro (h.mem_indices_of_used hi)
  have hused' : t.unregisterBuffers.used = ∅ := (used_congr rfl).trans hempty
  exact ⟨hused' ▸ rfl, fun i hi => hused' ▸ hempty ▸ hcore.handles i hi, hcore.distinct, hcore.untouched⟩

theorem Core.markFrameNumber (h : t.Core) (index frameNumber : ℕ) : (t.markFrameNumber index frameNumber).2.Core := by
  rw [GrallocTable.markFrameNumber]
  split
  · exact h
  split
  · exact h
  split
  · exact h
  rename_i hlt hstart hbusy
  generalize hslot : ({ t.slots index with mCurrentFrameNumber := (frameNumber : ℤ).bmod (2 ^ 32) } : GrallocSlot) = s
  have hinfo : s.mMemInfo = (t.slots index).mMemInfo := hslot ▸ rfl
  have hbuffer : s.mBufferHandle = (t.slots index).mBufferHandle := hslot ▸ rfl
  have hmem : index ∈ t.used := mem_used.mpr ⟨Nat.lt_of_not_le hlt, hbusy⟩
  have hused : (t.set index s).used = t.used := by
    rw [used_set (Nat.lt_of_not_le hlt) (hinfo ▸ hbusy), Finset.insert_eq_self.mpr hmem]
  have hkept (j : ℕ) : ((t.set index s).slots j).mBufferHandle = (t.slots j).mBufferHandle ∧
      ((t.set index s).slots j).mMemInfo = (t.slots j).mMemInfo := by
    by_cases hj : j = index
    · rw [hj, set_slots_self]
      exact ⟨hbuffer, hinfo⟩
    · rw [set_slots_ne hj]
      exact ⟨rfl, rfl⟩
  refine ⟨hused ▸ h.count, fun j hj => ?_, fun j hj k hk c hc hc' => ?_, fun j hj => ?_⟩
  · rw [hused, (hkept j).1]
    exact h.handles j hj
  · exact h.distinct j hj k hk c ((hkept j).1 ▸ hc) ((hkept k).1 ▸ hc')
  · rw [(hkept j).1, (hkept j).2]
    exact h.untouched j hj

theorem registerBuffer_complete {buffer idx vaddr : ℕ} {priv : PrivateHandle} {handle : IonHandle}
    (hslot : t.chooseSlot buffer = .ok idx) (hion : 0 ≤ t.main_ion_fd) :
    t.registerBuffer buffer priv ⟨some handle, some vaddr⟩ = (.noError, { t.set idx { t.slots idx with
            mBufferHandle := some buffer
            mPrivateHandle := some priv
            mMemInfo := ⟨priv.fd, handle, priv.size⟩
            mPtr := some vaddr } with
          mBufferCount := (t.mBufferCount + 1) % 2 ^ 32 }) := by
  rw [registerBuffer, hslot]
  exact if_neg (Int.not_lt.mpr hion)

/-- **What a registration preserves** that is refused, or completes. One that is refused changes nothing. -/
theorem Core.registerBuffer (h : t.Core) {buffer : ℕ} {priv : PrivateHandle} {env : Registration}
    (hcomplete : t.Completes (.registerBuffer buffer priv env)) :
    (t.registerBuffer buffer priv env).2.Core ∧
      ((t.registerBuffer buffer priv env).1 ≠ .noError → (t.registerBuffer buffer priv env).2 = t) := by
  cases hslot : t.chooseSlot buffer with
  | error e =>
    rw [registerBuffer_error hslot]
    exact ⟨h, fun _ => rfl⟩
  | ok idx =>
    obtain ⟨hroom, hfirst, hidx, hfree⟩ := chooseSlot_eq_ok hslot
    obtain ⟨hion, himport, hmap⟩ := hcomplete hroom
    obtain ⟨imported, mapped⟩ := env
    obtain ⟨handle, rfl⟩ := ne_none_iff_exists'.mp himport
    obtain ⟨vaddr, rfl⟩ := ne_none_iff_exists'.mp hmap
    rw [registerBuffer_complete hslot hion]
    refine ⟨?_, fun hfailed => absurd rfl hfailed⟩
    have hbound : (t.mBufferCount + 1) % 2 ^ 32 = t.mBufferCount + 1 := by
      have hlow : t.mBufferCount < camMaxNumBufsPerStream - 1 := by
        by_contra hhigh
        rw [getFreeIndexLocked, if_pos (Nat.le_of_not_lt hhigh)] at hfirst
        cases hfirst
      rw [camMaxNumBufsPerStream] at hlow
      omega
    rw [hbound]
    exact h.insert hidx hfree handle.2 rfl hroom.1

/-- **What a registration does that gets a slot and fails**: the slot has the buffer, but is not in use. -/
theorem not_consistent_of_fails {buffer : ℕ} {priv : PrivateHandle} {env : Registration}
    (hfails : ¬ t.Completes (.registerBuffer buffer priv env)) :
    (t.registerBuffer buffer priv env).1 = .noMemory ∧
      (t.registerBuffer buffer priv env).2.getMatchBufIndex buffer ≠ none ∧
        ¬ (t.registerBuffer buffer priv env).2.Consistent := by
  obtain ⟨hroom, hnot⟩ := Classical.not_imp.mp hfails
  obtain ⟨idx, hslot⟩ := chooseSlot_of_hasRoom hroom
  obtain ⟨-, -, hidx, hfree⟩ := chooseSlot_eq_ok hslot
  obtain ⟨s, hs, hhandle, hbuffer⟩ : ∃ s : GrallocSlot,
      t.registerBuffer buffer priv env = (.noMemory, t.set idx s) ∧ s.mMemInfo.handle = 0 ∧
        s.mBufferHandle = some buffer := by
    rw [registerBuffer, hslot]
    obtain ⟨imported, mapped⟩ := env
    by_cases hion : t.main_ion_fd < 0
    · exact ⟨_, if_pos hion, hfree, rfl⟩
    rcases imported with _ | handle
    · exact ⟨_, if_neg hion, hfree, rfl⟩
    rcases mapped with _ | vaddr
    · exact ⟨_, if_neg hion, rfl, rfl⟩
    · exact absurd ⟨Int.not_lt.mp hion, nofun, nofun⟩ hnot
  rw [hs]
  refine ⟨rfl, getMatchBufIndex_ne_none.mpr ⟨idx, hidx, ?_⟩, fun h => ?_⟩
  · rw [set_slots_self, hbuffer]
  · have hused := (h.handles idx (mem_indices.mp hidx).2).mp (by rw [set_slots_self, hbuffer]; nofun)
    rw [mem_used, set_slots_self] at hused
    exact hused.2 hhandle

/-- **What each call preserves.** -/
theorem Core.call (h : t.Core) {c : Call} (hcomplete : t.Completes c) : (t.call c).2.Core := by
  cases c with
  | registerBuffer buffer priv env => exact (h.registerBuffer hcomplete).1
  | unregisterBuffer idx =>
    rw [GrallocTable.call, unregisterBuffer]
    split
    · exact h
    split
    · exact h
    split
    · exact h
    rename_i hlt hstart hbusy
    exact (h.erase (mem_used.mpr ⟨Nat.lt_of_not_le hlt, hbusy⟩)).1
  | unregisterBuffers => exact h.unregisterBuffers
  | markFrameNumber index frameNumber => exact h.markFrameNumber index frameNumber

theorem Lawful.consistent {cs : List Call} (h : t.Lawful cs) : t.Consistent := by
  cases cs with
  | nil => exact h
  | cons c cs => exact h.1

theorem Core.lawful_iff_allComplete (h : t.Core) (cs : List Call) : t.Lawful cs ↔ t.AllComplete cs := by
  induction cs generalizing t with
  | nil => exact iff_of_true h.consistent trivial
  | cons c cs ih =>
    rw [Lawful, AllComplete]
    by_cases hcomplete : t.Completes c
    · rw [and_iff_right hcomplete, ih (h.call hcomplete), and_iff_right h.consistent, and_iff_right]
      rintro buffer priv env rfl
      exact (h.registerBuffer hcomplete).2
    · refine iff_of_false (fun hlaw => ?_) (fun hall => hcomplete hall.1)
      cases c with
      | registerBuffer buffer priv env => exact (not_consistent_of_fails hcomplete).2.2 hlaw.2.2.consistent
      | unregisterBuffer idx => exact hcomplete trivial
      | unregisterBuffers => exact hcomplete trivial
      | markFrameNumber index frameNumber => exact hcomplete trivial

/-- **When the table keeps to the law**, from its construction through any sequence of calls: exactly if each
registration that gets a slot is imported and mapped. -/
theorem table_lawful_iff (mStartIdx : ℕ) (main_ion_fd : ℤ) (cs : List Call) :
    Lawful { mStartIdx, main_ion_fd } cs ↔ AllComplete { mStartIdx, main_ion_fd } cs :=
  (core_fresh mStartIdx main_ion_fd).lawful_iff_allComplete cs

/-- An import fails, and the buffer can then not be registered any more. -/
theorem failed_import_stays : ¬ Lawful { mStartIdx := 0, main_ion_fd := 3 } [.registerBuffer 1 ⟨7, 4096⟩ ⟨none, none⟩] ∧
    ((call { mStartIdx := 0, main_ion_fd := 3 } (.registerBuffer 1 ⟨7, 4096⟩ ⟨none, none⟩)).2.call
      (.registerBuffer 1 ⟨7, 4096⟩ ⟨some ⟨1, one_ne_zero⟩, some 2⟩)).1 = .alreadyExists := by
  have hfails : ¬ Completes { mStartIdx := 0, main_ion_fd := 3 } (.registerBuffer 1 ⟨7, 4096⟩ ⟨none, none⟩) :=
    fun hcomplete => (hcomplete ⟨by decide, by decide, by decide⟩).2.1 rfl
  exact ⟨fun h => (not_consistent_of_fails hfails).2.2 h.2.2, by decide⟩

end GrallocTable

end Marlin
