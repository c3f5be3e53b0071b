import Mathlib.Data.Finset.Basic
import Marlin.StreamFsm
import Marlin.StepLaws

/-!
# The Buffers of the Preview Window

`QCameraGrallocMemory` takes its buffers from a native window, which gives them out one by one and in no order. Some
are dequeued by `allocate`; the others are met later, by `displayBuffer` or `dequeueBuffer`, and get the next slot of
the table. Both record the buffer in the slot before they know that they can import it, and count the slot only after.

## Conventions

* The window is a finite set of buffers, some of them dequeued. The environment says which buffer it would give out,
  and which of the other calls succeed; a buffer that is not free is no answer.
* The answers of `open` and `ION_IOC_IMPORT` are taken from the environment. What `mMemInfo` and `mPrivateHandle` keep
  of a buffer is read only to map it and to free that again, and is left out, like the metadata of a buffer and the
  time stamp of the window.
* A call that leaves a table, or follows a pointer that is `NULL` or was released, has no result.

## Main results

* `Taken.loop`: how the loop of `allocate` ends.
* `Inv.law_iff`: when a call leaves the table right.
* `recorded_iff`: for all runs.
* `not_recorded_ionFails`: the buffer that `allocate` cannot import stays dequeued.
-/

namespace Marlin

open List Function

namespace PreviewWindow

/-- The native window: its buffers, and which of them are dequeued. -/
structure NativeWindow where
  buffers : Finset ℕ
  dequeued : Finset ℕ := ∅

namespace NativeWindow

/-- The buffer can be dequeued. -/
def Free (w : NativeWindow) (b : ℕ) : Prop := b ∈ w.buffers ∧ b ∉ w.dequeued
deriving Decidable

/-- `dequeue_buffer`: a free buffer, or an error. -/
def dequeueBuffer (w : NativeWindow) : Option ℕ → Option (ℕ × NativeWindow)
  | some b => if w.Free b then some (b, { w with dequeued := insert b w.dequeued }) else none
  | none => none

/-- `enqueue_buffer` or `cancel_buffer`: whether the buffer was put back, and the window then. -/
def put (w : NativeWindow) (buffer : Option ℕ) (ok : Bool) : Bool × NativeWindow :=
  match buffer with
  | some b => if ok = true ∧ b ∈ w.dequeued then (true, { w with dequeued := w.dequeued.erase b }) else (false, w)
  | none => (false, w)

end NativeWindow

/-- `mLocalFlag`. -/
inductive LocalFlag
  | bufferNotOwned
  | bufferOwned
  deriving DecidableEq

/-- A pointer of `mCameraMemory`. -/
inductive CameraMem
  | null
  | live
  | released
  deriving DecidableEq

/-- `QCameraGrallocMemory`. `mWindow` is not `NULL`, or it is. -/
structure QCameraGrallocMemory where
  mWindow : Bool := true
  mBufferHandle : ℕ → Option ℕ := fun _ => none
  mLocalFlag : ℕ → LocalFlag := fun _ => .bufferNotOwned
  mCameraMemory : ℕ → CameraMem := fun _ => .null
  mMinUndequeuedBuffers : ℤ := 0
  mMappableBuffers : ℕ := 0
  mBufferCount : ℕ := 0

/-- The memory and its window. -/
structure Preview extends QCameraGrallocMemory where
  window : NativeWindow

/-- The answers of the calls. -/
inductive PreviewRc
  | noError
  | index (i : ℕ)
  | badIndex
  | invalidOperation
  | unknownError
  | enqueueFailed
  deriving DecidableEq

/-- What the environment decides for `allocate`, for each slot where it is asked for one. -/
structure AllocEnv where
  minUndequeued : Option ℤ := some 0
  setBufferCount : Bool := true
  setBuffersGeometry : Bool := true
  setCrop : Bool := true
  setUsage : Bool := true
  dequeue : ℕ → Option ℕ
  openIon : ℕ → Bool := fun _ => true
  importIon : ℕ → Bool := fun _ => true
  getMemory : ℕ → Bool := fun _ => true
  cancel : ℕ → Bool := fun _ => true

/-- What it decides where one buffer is dequeued. -/
structure TakeEnv where
  dequeue : Option ℕ
  openIon : Bool := true
  importIon : Bool := true
  getMemory : Bool := true

namespace Preview

/-- A flag is set. -/
def setFlag (s : Preview) (i : ℕ) (flag : LocalFlag) : Preview :=
  { s with mLocalFlag := Function.update s.mLocalFlag i flag }

/-- A dequeued buffer is recorded, and owned. -/
def record (s : Preview) (i b : ℕ) : Preview :=
  { s with
    mBufferHandle := Function.update s.mBufferHandle i (some b)
    mLocalFlag := Function.update s.mLocalFlag i .bufferOwned }

/-- `mCameraMemory[i] = mGetMemory(..)`. -/
def mapMemory (s : Preview) (i : ℕ) (ok : Bool) : Preview :=
  { s with mCameraMemory := Function.update s.mCameraMemory i (if ok then .live else .null) }

/-- The buffer of a slot is cancelled, if its flag says so; the slot is not owned then. -/
def cancelSlot (s : Preview) (i : ℕ) (ok : LocalFlag → Bool) (clear : Bool) : Preview :=
  { s with
    window := (s.window.put (s.mBufferHandle i) (ok (s.mLocalFlag i))).2
    mLocalFlag := Function.update s.mLocalFlag i .bufferNotOwned
    mBufferHandle := if clear then Function.update s.mBufferHandle i none else s.mBufferHandle }

/-- Slots are cancelled one after the other. -/
def cancelSlots (s : Preview) (ok : ℕ → LocalFlag → Bool) (clear : Bool) (slots : List ℕ) : Preview :=
  slots.foldl (fun s i => s.cancelSlot i (ok i) clear) s

/-! ### `allocate` -/

/-- The slots below `cnt` are given up. -/
def unwind (s : Preview) (cnt : ℕ) : Preview :=
  s.cancelSlots (fun _ flag => flag ≠ .bufferNotOwned) true (List.range cnt)

/-- The loop of `allocate`, from slot `i` on, and whether it got all buffers. -/
def dequeueLoop (env : AllocEnv) : ℕ → ℕ → Preview → Option (Bool × Preview)
  | 0, _, s => some (true, s)
  | n + 1, i, s =>
    if mmCameraMaxNumFrames ≤ i then none
    else
      match s.window.dequeueBuffer (env.dequeue i) with
      | none => some (false, (s.setFlag i .bufferNotOwned).unwind i)
      | some (b, window) =>
        let s := { s with window := window }.record i b
        if env.openIon i = false ∨ env.importIon i = false then some (false, s.unwind i)
        else dequeueLoop env n (i + 1) (s.mapMemory i (env.getMemory i))

/-- How many slots `allocate` fills. -/
def mappable (s : Preview) (count : ℕ) : ℕ :=
  if count < s.mMappableBuffers ∨ s.mMappableBuffers = 0 then count else s.mMappableBuffers

/-- Where `allocate` fails. -/
def unmappable (s : Preview) : Preview := { s with mMappableBuffers := 0 }

/-- `allocate`. -/
def allocate (s : Preview) (env : AllocEnv) (count : ℕ) : Option (PreviewRc × Preview) :=
  if s.mWindow = false then some (.invalidOperation, s.unmappable)
  else
    match env.minUndequeued with
    | none => some (.unknownError, s.unmappable)
    | some minUndequeued =>
      let s := { s with mMinUndequeuedBuffers := minUndequeued }
      if !(env.setBufferCount && env.setBuffersGeometry && env.setCrop && env.setUsage) then
        some (.unknownError, s.unmappable)
      else
        let s := { s with mBufferCount := count, mMappableBuffers := s.mappable count }
        match dequeueLoop env s.mMappableBuffers 0 s with
        | none => none
        | some (false, s) => some (.unknownError, s.unmappable)
        | some (true, s) =>
          let minUndequeued := s.mMinUndequeuedBuffers.toNat
          if mmCameraMaxNumFrames < minUndequeued then none
          else some (.noError, s.cancelSlots (fun i _ => env.cancel i) false (List.range minUndequeued))

/-! ### The other calls -/

/-- The search for a buffer in the table; it may leave it. -/
def search (s : Preview) (b : ℕ) : Option (Option ℕ) :=
  match (List.range (min s.mMappableBuffers mmCameraMaxNumFrames)).find? fun i => s.mBufferHandle i = some b with
  | some i => some (some i)
  | none => if mmCameraMaxNumFrames < s.mMappableBuffers then none else some none

/-- A buffer that is not in the table gets the next slot. -/
def place (s : Preview) (env : TakeEnv) (b : ℕ) : Option (PreviewRc × Preview) :=
  if s.mMappableBuffers < s.mBufferCount then
    let i := s.mMappableBuffers
    if mmCameraMaxNumFrames ≤ i then none
    else
      let s := s.record i b
      if env.openIon = false ∨ env.importIon = false then some (.badIndex, s)
      else some (.index i, { s.mapMemory i env.getMemory with mMappableBuffers := i + 1 })
  else some (.badIndex, s)

/-- A buffer is dequeued and looked for in the table. -/
def takeBuffer (s : Preview) (env : TakeEnv) : Option (PreviewRc × Preview) :=
  match s.window.dequeueBuffer env.dequeue with
  | none => some (.badIndex, s)
  | some (b, window) =>
    let s := { s with window := window }
    match s.search b with
    | none => none
    | some (some i) => some (.index i, s.setFlag i .bufferOwned)
    | some none => s.place env b

/-- `enqueue_buffer` of the buffer of a slot. -/
def enqueue (s : Preview) (index : ℕ) (ok : Bool) : PreviewRc × Preview :=
  match s.window.put (s.mBufferHandle index) ok with
  | (true, window) => (.noError, { s with window := window }.setFlag index .bufferNotOwned)
  | (false, window) => (.enqueueFailed, { s with window := window })

/-- `displayBuffer`. -/
def displayBuffer (s : Preview) (index : ℕ) (ok : Bool) (env : TakeEnv) : Option (PreviewRc × Preview) :=
  if mmCameraMaxNumFrames ≤ index then none
  else if s.mLocalFlag index = .bufferNotOwned then some (.invalidOperation, s)
  else if s.mWindow = false then none
  else (s.enqueue index ok).2.takeBuffer env

/-- `enqueueBuffer`. -/
def enqueueBuffer (s : Preview) (index : ℕ) (ok : Bool) : Option (PreviewRc × Preview) :=
  if mmCameraMaxNumFrames ≤ index then none
  else if s.mLocalFlag index = .bufferNotOwned then some (.invalidOperation, s)
  else if s.mWindow = false then none
  else some (s.enqueue index ok)

/-- `dequeueBuffer`. -/
def dequeueBuffer (s : Preview) (env : TakeEnv) : Option (PreviewRc × Preview) :=
  if s.mWindow = false then none else s.takeBuffer env

/-- `setMappable`. -/
def setMappable (s : Preview) (count : ℕ) : Preview :=
  if s.mMappableBuffers = 0 then { s with mMappableBuffers := count } else s

/-- `deallocate`: the slots below `mMappableBuffers` are released and cancelled. -/
def deallocate (s : Preview) : Option Preview :=
  if s.mMappableBuffers ≤ mmCameraMaxNumFrames ∧ ∀ i < s.mMappableBuffers, s.mCameraMemory i = .live then
    let t := s.cancelSlots (fun _ flag => flag ≠ .bufferNotOwned && s.mWindow) false (List.range s.mMappableBuffers)
    some { t with
      mCameraMemory := fun i => if i < s.mMappableBuffers then .released else s.mCameraMemory i
      mBufferCount := 0
      mMappableBuffers := 0 }
  else none

end Preview

/-- The calls; a count is a `uint8_t`. -/
inductive PreviewCall
  | allocate (count : Fin 256) (env : AllocEnv)
  | setMappable (count : Fin 256)
  | displayBuffer (index : ℕ) (ok : Bool) (env : TakeEnv)
  | enqueueBuffer (index : ℕ) (ok : Bool)
  | dequeueBuffer (env : TakeEnv)
  | deallocate

/-- No buffer is dequeued after this call with this answer. -/
def PreviewCall.Ends : PreviewCall → PreviewRc → Prop
  | .allocate _ _, rc => rc ≠ .noError
  | .deallocate, _ => True
  | _, _ => False

namespace Preview

/-- A call, with its answer. -/
def call (s : Preview) : PreviewCall → Option (PreviewRc × Preview)
  | .allocate count env => s.allocate env count
  | .setMappable count => some (.noError, s.setMappable count)
  | .displayBuffer index ok env => s.displayBuffer index ok env
  | .enqueueBuffer index ok => s.enqueueBuffer index ok
  | .dequeueBuffer env => s.dequeueBuffer env
  | .deallocate => s.deallocate.map fun s => (.noError, s)

/-- One step; nothing comes after a call without a result. -/
def step (s : Preview) (c : PreviewCall) : Preview := ((s.call c).map Prod.snd).getD s

/-! ### The law and its condition -/

/-- **The table**: each dequeued buffer is at one slot that counts, and owned there; the others are not owned. -/
structure Recorded (s : Preview) : Prop where
  dequeued : ∀ b ∈ s.window.dequeued, ∃ i < s.mMappableBuffers, s.mBufferHandle i = some b ∧
    s.mLocalFlag i = .bufferOwned ∧ ∀ j < s.mMappableBuffers, s.mBufferHandle j = some b → j = i
  others : ∀ i b, s.mBufferHandle i = some b → b ∉ s.window.dequeued → s.mLocalFlag i = .bufferNotOwned

/-- **What a call should do.** -/
def Law (s : Preview) (c : PreviewCall) : Prop :=
  ∃ rc t, s.call c = some (rc, t) ∧ t.Recorded ∧ (c.Ends rc → t.window.dequeued = ∅)

/-- What `allocate` asks the window for before the buffers is done. -/
def Ready (s : Preview) (env : AllocEnv) : Prop :=
  s.mWindow = true ∧ env.minUndequeued.isSome = true ∧
    (env.setBufferCount && env.setBuffersGeometry && env.setCrop && env.setUsage) = true

/-- The window gives a buffer out for slot `i`, after those for the slots below. -/
def Gives (s : Preview) (env : AllocEnv) (i : ℕ) : Prop :=
  ∃ b, env.dequeue i = some b ∧ s.window.Free b ∧ ∀ j < i, env.dequeue j ≠ some b

/-- The buffer for slot `i` is got. -/
def Gets (s : Preview) (env : AllocEnv) (i : ℕ) : Prop :=
  s.Gives env i ∧ env.openIon i = true ∧ env.importIon i = true

/-- How many buffers `allocate` cancels in the end. -/
def canceled (env : AllocEnv) : ℕ := (env.minUndequeued.getD 0).toNat

/-- Each buffer that is dequeued at the end of `allocate` is in a slot that is not cancelled and counts, or its cancel
succeeds. -/
def Settled (s : Preview) (env : AllocEnv) (n : ℕ) : Prop :=
  ∀ b, (b ∈ s.window.dequeued ∨ ∃ i < n, env.dequeue i = some b) →
    (∃ i < n, canceled env ≤ i ∧ env.dequeue i = some b) ∨
      ∃ i < canceled env, (if i < n then env.dequeue i else s.mBufferHandle i) = some b ∧ env.cancel i = true

/-- The condition for a buffer that is dequeued from the window `w`: it is at one slot that counts, or at none and gets
the next one. -/
def Takes (s : Preview) (w : NativeWindow) (env : TakeEnv) : Prop :=
  ∀ b, env.dequeue = some b → w.Free b →
    (∃ i < s.mMappableBuffers, i < mmCameraMaxNumFrames ∧ s.mBufferHandle i = some b ∧
        ∀ j < s.mMappableBuffers, s.mBufferHandle j = some b → j = i) ∨
      (∀ i < s.mMappableBuffers, s.mBufferHandle i ≠ some b) ∧ s.mMappableBuffers < s.mBufferCount ∧
        s.mMappableBuffers < mmCameraMaxNumFrames ∧ env.openIon = true ∧ env.importIon = true

/-- **The condition.** -/
def Safe (s : Preview) : PreviewCall → Prop
  | .allocate count env =>
    (¬ s.Ready env ∧ s.window.dequeued = ∅) ∨
    (s.Ready env ∧ s.window.dequeued = ∅ ∧ ∃ i < s.mappable count, i < mmCameraMaxNumFrames ∧
      (∀ j < i, s.Gets env j) ∧ ¬ s.Gives env i) ∨
    s.Ready env ∧ s.mappable count ≤ mmCameraMaxNumFrames ∧ canceled env ≤ mmCameraMaxNumFrames ∧
      (∀ i < s.mappable count, s.Gets env i) ∧ s.Settled env (s.mappable count)
  | .setMappable _ => True
  | .displayBuffer index ok env => index < mmCameraMaxNumFrames ∧
      (s.mLocalFlag index = .bufferOwned → s.Takes (s.window.put (s.mBufferHandle index) ok).2 env)
  | .enqueueBuffer index _ => index < mmCameraMaxNumFrames
  | .dequeueBuffer env => s.mWindow = true ∧ s.Takes s.window env
  | .deallocate => s.mMappableBuffers ≤ mmCameraMaxNumFrames ∧
      ∀ i < s.mMappableBuffers, s.mCameraMemory i = .live

/-- **The invariant**: an owned slot counts and has a buffer. -/
structure Inv (s : Preview) : Prop where
  recorded : s.Recorded
  owned : ∀ i, s.mLocalFlag i = .bufferOwned → i < s.mMappableBuffers ∧ ∃ b, s.mBufferHandle i = some b
  windowless : s.mWindow = false → s.window.dequeued = ∅

end Preview

/-! ### The window -/

namespace NativeWindow

variable {w w' : NativeWindow} {b b' : ℕ} {answer buffer : Option ℕ} {ok : Bool}

theorem dequeueBuffer_eq_some (h : w.dequeueBuffer answer = some (b, w')) :
    answer = some b ∧ w.Free b ∧ w' = { w with dequeued := insert b w.dequeued } := by
  unfold dequeueBuffer at h
  split at h
  · split at h
    · rename_i hfree
      cases h
      exact ⟨rfl, hfree, rfl⟩
    · cases h
  · cases h

theorem dequeueBuffer_of_free (h : w.Free b) :
    w.dequeueBuffer (some b) = some (b, { w with dequeued := insert b w.dequeued }) := if_pos h

theorem dequeueBuffer_eq_none (h : w.dequeueBuffer answer = none) : ∀ b, answer = some b → ¬ w.Free b := by
  rintro b rfl hfree
  rw [dequeueBuffer_of_free hfree] at h
  cases h

theorem mem_put : b ∈ (w.put buffer ok).2.dequeued ↔ b ∈ w.dequeued ∧ (buffer = some b → ok = false) := by
  unfold put
  split
  · rename_i b'
    split
    · rename_i h
      rw [Finset.mem_erase, h.1, and_comm]
      exact and_congr_right fun _ => ⟨fun hne heq => absurd (Option.some_inj.1 heq).symm hne,
        fun hnot heq => nomatch hnot (congrArg some heq.symm)⟩
    · rename_i h
      refine ⟨fun hb => ⟨hb, fun heq => ?_⟩, And.left⟩
      cases heq
      exact Bool.eq_false_iff.2 fun hok => h ⟨hok, hb⟩
  · exact ⟨fun hb => ⟨hb, nofun⟩, And.left⟩

theorem put_of_mem (h : b ∈ w.dequeued) : w.put (some b) true = (true, { w with dequeued := w.dequeued.erase b }) :=
  if_pos ⟨rfl, h⟩

theorem put_false : w.put buffer false = (false, w) := by
  unfold put
  split
  · exact if_neg fun h => nomatch h.1
  · rfl

end NativeWindow

/-! ### Slots are cancelled -/

namespace Preview

variable {s t u : Preview} {i j n b index : ℕ} {ok : Bool}

/-- What it is that slots are cancelled. -/
structure Canceled (s : Preview) (ok : ℕ → LocalFlag → Bool) (clear : Bool) (slots : List ℕ) (t : Preview) : Prop where
  dequeued : ∀ b, b ∈ t.window.dequeued ↔ b ∈ s.window.dequeued ∧
    ∀ i ∈ slots, s.mBufferHandle i = some b → ok i (s.mLocalFlag i) = false
  flag : ∀ i, t.mLocalFlag i = if i ∈ slots then .bufferNotOwned else s.mLocalFlag i
  handle : ∀ i, t.mBufferHandle i = if clear = true ∧ i ∈ slots then none else s.mBufferHandle i
  mWindow : t.mWindow = s.mWindow
  mMappableBuffers : t.mMappableBuffers = s.mMappableBuffers

theorem canceled_slots (s : Preview) (ok : ℕ → LocalFlag → Bool) (clear : Bool) {slots : List ℕ} (h : slots.Nodup) :
    s.Canceled ok clear slots (s.cancelSlots ok clear slots) := by
  induction slots generalizing s with
  | nil =>
    exact ⟨fun b => ⟨fun hb => ⟨hb, nofun⟩, And.left⟩, fun _ => (if_neg not_mem_nil).symm,
      fun _ => (if_neg fun hi => not_mem_nil hi.2).symm, rfl, rfl⟩
  | cons i slots ih =>
    obtain ⟨hi, hslots⟩ := nodup_cons.1 h
    have hrest := ih (s.cancelSlot i (ok i) clear) hslots
    have hflag : ∀ j, (s.cancelSlot i (ok i) clear).mLocalFlag j =
        if j = i then .bufferNotOwned else s.mLocalFlag j := fun j => update_apply ..
    have hhandle : ∀ j, (s.cancelSlot i (ok i) clear).mBufferHandle j =
        if clear = true ∧ j = i then none else s.mBufferHandle j := fun j => by
      cases clear with
      | false => rfl
      | true =>
        simp only [cancelSlot, if_true, update_apply, true_and]
    refine ⟨fun b => ?_, fun j => ?_, fun j => ?_, hrest.mWindow, hrest.mMappableBuffers⟩
    · rw [forall_mem_cons, ← and_assoc]
      refine (hrest.dequeued b).trans (and_congr NativeWindow.mem_put ?_)
      refine forall₂_congr fun j hj => ?_
      have hji : j ≠ i := fun hji => hi (hji ▸ hj)
      rw [hhandle, hflag, if_neg hji, if_neg fun hc => hji hc.2]
    · refine (hrest.flag j).trans ?_
      rw [hflag]
      by_cases hji : j = i
      · simp [hji]
      · simp [hji]
    · refine (hrest.handle j).trans ?_
      rw [hhandle]
      cases clear with
      | false => simp
      | true =>
        by_cases hji : j = i
        · simp [hji]
        · simp [hji]

/-! ### One buffer -/

theorem Inv.owner (h : s.Inv) (hi : s.mLocalFlag i = .bufferOwned) :
    ∃ b, s.mBufferHandle i = some b ∧ b ∈ s.window.dequeued := by
  obtain ⟨-, b, hb⟩ := h.owned i hi
  refine ⟨b, hb, ?_⟩
  by_contra hfree
  rw [h.recorded.others i b hb hfree] at hi
  cases hi

theorem Inv.slot_unique (h : s.Inv) (hi : s.mLocalFlag i = .bufferOwned) (hj : s.mLocalFlag j = .bufferOwned)
    (hib : s.mBufferHandle i = some b) (hjb : s.mBufferHandle j = some b) : i = j := by
  obtain ⟨b', hb', hmem⟩ := h.owner hi
  obtain rfl : b = b' := Option.some_inj.1 (hib.symm.trans hb')
  obtain ⟨k, -, -, -, hunique⟩ := h.recorded.dequeued b hmem
  exact (hunique i (h.owned i hi).1 hib).trans (hunique j (h.owned j hj).1 hjb).symm

theorem Inv.notOwned (h : s.Inv) (hnone : s.window.dequeued = ∅) (i : ℕ) : s.mLocalFlag i = .bufferNotOwned := by
  cases hi : s.mLocalFlag i with
  | bufferNotOwned => rfl
  | bufferOwned =>
    obtain ⟨b, -, hb⟩ := h.owner hi
    rw [hnone] at hb
    exact absurd hb (Finset.notMem_empty b)

theorem Inv.of_none (hnone : s.window.dequeued = ∅) (hflag : ∀ i, s.mLocalFlag i = .bufferNotOwned) : s.Inv := by
  refine ⟨⟨fun b hb => ?_, fun i _ _ _ => hflag i⟩, fun i hi => ?_, fun _ => hnone⟩
  · rw [hnone] at hb
    exact absurd hb (Finset.notMem_empty b)
  · rw [hflag i] at hi
    cases hi

theorem Inv.enqueue (h : s.Inv) (hi : s.mLocalFlag index = .bufferOwned) (ok : Bool) : (s.enqueue index ok).2.Inv ∧
    (s.enqueue index ok).2.window = (s.window.put (s.mBufferHandle index) ok).2 ∧
    (s.enqueue index ok).2.mBufferHandle = s.mBufferHandle ∧
    (s.enqueue index ok).2.mMappableBuffers = s.mMappableBuffers ∧
    (s.enqueue index ok).2.mBufferCount = s.mBufferCount := by
  obtain ⟨b, hb, hdequeued⟩ := h.owner hi
  unfold Preview.enqueue
  rw [hb]
  cases ok with
  | false =>
    rw [NativeWindow.put_false]
    exact ⟨h, rfl, rfl, rfl, rfl⟩
  | true =>
    rw [NativeWindow.put_of_mem hdequeued]
    refine ⟨⟨⟨fun b' hb' => ?_, fun j b' hj hb' => ?_⟩, fun j hj => ?_, fun hw => ?_⟩, rfl, rfl, rfl, rfl⟩
    · obtain ⟨hne, hmem⟩ := Finset.mem_erase.1 hb'
      obtain ⟨j, hlt, hj, hflag, hunique⟩ := h.recorded.dequeued b' hmem
      have hji : j ≠ index := fun hji => hne (Option.some_inj.1 (hj.symm.trans (hji ▸ hb)))
      exact ⟨j, hlt, hj, (update_of_ne hji ..).trans hflag, hunique⟩
    · by_cases hji : j = index
      · exact hji ▸ update_self ..
      · refine (update_of_ne hji ..).trans ?_
        by_cases hmem : b' ∈ s.window.dequeued
        · -- it was put back, so another slot that has it is not owned
          obtain rfl : b' = b := by
            by_contra hne
            exact hb' (Finset.mem_erase.2 ⟨hne, hmem⟩)
          cases hflag : s.mLocalFlag j with
          | bufferNotOwned => rfl
          | bufferOwned => exact absurd (h.slot_unique hflag hi hj hb) hji
        · exact h.recorded.others j b' hj hmem
    · by_cases hji : j = index
      · rw [hji] at hj
        exact nomatch (update_self ..).symm.trans hj
      · exact h.owned j ((update_of_ne hji ..).symm.trans hj)
    · obtain hnone := h.windowless hw
      rw [hnone] at hdequeued
      exact absurd hdequeued (Finset.notMem_empty b)

/-- **The search**: it finds a slot of the table, or none of those that count has the buffer. -/
theorem search_cases (s : Preview) (b : ℕ) :
    (∃ i < s.mMappableBuffers, i < mmCameraMaxNumFrames ∧ s.mBufferHandle i = some b ∧ s.search b = some (some i)) ∨
      (∀ i < s.mMappableBuffers, i < mmCameraMaxNumFrames → s.mBufferHandle i ≠ some b) ∧
        s.search b = if mmCameraMaxNumFrames < s.mMappableBuffers then none else some none := by
  unfold search
  split
  · rename_i i hfind
    have hlt := mem_range.1 (mem_of_find?_eq_some hfind)
    have hb := of_decide_eq_true (find?_some (p := fun i => decide (s.mBufferHandle i = some b)) hfind)
    exact .inl ⟨i, Nat.lt_of_lt_of_le hlt (Nat.min_le_left ..), Nat.lt_of_lt_of_le hlt (Nat.min_le_right ..), hb, rfl⟩
  · rename_i hfind
    exact .inr ⟨fun i hi htable hb => find?_eq_none.1 hfind i (mem_range.2 (Nat.lt_min.2 ⟨hi, htable⟩))
      (decide_eq_true hb), rfl⟩

/-- The window has given a buffer out. -/
def taken (s : Preview) (b : ℕ) : Preview :=
  { s with window := { s.window with dequeued := insert b s.window.dequeued } }

theorem Inv.found (h : s.Inv) (hw : s.mWindow = true) (hfree : s.window.Free b) (hi : i < s.mMappableBuffers)
    (hb : s.mBufferHandle i = some b) (hunique : ∀ j < s.mMappableBuffers, s.mBufferHandle j = some b → j = i) :
    ((s.taken b).setFlag i .bufferOwned).Inv := by
  refine ⟨⟨fun b' hb' => ?_, fun j b' hj hb' => ?_⟩, fun j hj => ?_, fun hnull => nomatch hw.symm.trans hnull⟩
  · obtain rfl | hmem := Finset.mem_insert.1 hb'
    · exact ⟨i, hi, hb, update_self .., hunique⟩
    · obtain ⟨k, hlt, hk, hflag, hk'⟩ := h.recorded.dequeued b' hmem
      have hki : k ≠ i := fun hki => hfree.2 (Option.some_inj.1 (hb.symm.trans (hki ▸ hk)) ▸ hmem)
      exact ⟨k, hlt, hk, (update_of_ne hki ..).trans hflag, hk'⟩
  · obtain ⟨hne, hnot⟩ := not_or.1 fun hor => hb' (Finset.mem_insert.2 hor)
    have hji : j ≠ i := fun hji => hne (Option.some_inj.1 (hj.symm.trans (hji ▸ hb)))
    exact (update_of_ne hji ..).trans (h.recorded.others j b' hj hnot)
  · by_cases hji : j = i
    · subst hji
      exact ⟨hi, b, hb⟩
    · exact h.owned j ((update_of_ne hji ..).symm.trans hj)

theorem Inv.placed (h : s.Inv) (hw : s.mWindow = true) (hfree : s.window.Free b)
    (hnone : ∀ i < s.mMappableBuffers, s.mBufferHandle i ≠ some b) (ok : Bool) :
    Inv { ((s.taken b).record s.mMappableBuffers b).mapMemory s.mMappableBuffers ok with
      mMappableBuffers := s.mMappableBuffers + 1 } := by
  have hself : update s.mBufferHandle s.mMappableBuffers (some b) s.mMappableBuffers = some b :=
    update_self ..
  have hhandle : ∀ j, j ≠ s.mMappableBuffers → update s.mBufferHandle s.mMappableBuffers (some b) j =
      s.mBufferHandle j := fun j hj => update_of_ne hj ..
  have hflag : ∀ j, j ≠ s.mMappableBuffers → update s.mLocalFlag s.mMappableBuffers .bufferOwned j =
      s.mLocalFlag j := fun j hj => update_of_ne hj ..
  refine ⟨⟨fun b' hb' => ?_, fun j b' hj hb' => ?_⟩, fun j hj => ?_, fun hnull => nomatch hw.symm.trans hnull⟩
  · obtain rfl | hmem := Finset.mem_insert.1 hb'
    · refine ⟨s.mMappableBuffers, Nat.lt_succ_self _, update_self .., update_self ..,
        fun j hlt hj => ?_⟩
      by_contra hne
      exact hnone j (by have : j < s.mMappableBuffers + 1 := hlt; omega) ((hhandle j hne).symm.trans hj)
    · obtain ⟨k, hlt, hk, hkflag, hunique⟩ := h.recorded.dequeued b' hmem
      refine ⟨k, Nat.lt_succ_of_lt hlt, (hhandle k (Nat.ne_of_lt hlt)).trans hk,
        (hflag k (Nat.ne_of_lt hlt)).trans hkflag, fun j hj hjb => ?_⟩
      by_cases hjm : j = s.mMappableBuffers
      · subst hjm
        have hbb : b = b' := Option.some_inj.1 (hself.symm.trans hjb)
        exact absurd (hbb ▸ hmem) hfree.2
      · exact hunique j (by have : j < s.mMappableBuffers + 1 := hj; omega) ((hhandle j hjm).symm.trans hjb)
  · obtain ⟨hne, hnot⟩ := not_or.1 fun hor => hb' (Finset.mem_insert.2 hor)
    by_cases hjm : j = s.mMappableBuffers
    · subst hjm
      exact absurd (Option.some_inj.1 (hself.symm.trans hj)).symm hne
    · exact (hflag j hjm).trans (h.recorded.others j b' ((hhandle j hjm).symm.trans hj) hnot)
  · by_cases hjm : j = s.mMappableBuffers
    · subst hjm
      exact ⟨Nat.lt_succ_self _, b, update_self ..⟩
    · obtain ⟨hlt, b', hb'⟩ := h.owned j ((hflag j hjm).symm.trans hj)
      exact ⟨Nat.lt_succ_of_lt hlt, b', (hhandle j hjm).trans hb'⟩

theorem takeBuffer_of_free {env : TakeEnv} (henv : env.dequeue = some b) (hfree : s.window.Free b) :
    s.takeBuffer env = match (s.taken b).search b with
      | none => none
      | some (some i) => some (PreviewRc.index i, (s.taken b).setFlag i .bufferOwned)
      | some none => (s.taken b).place env b := by
  unfold takeBuffer
  rw [henv, NativeWindow.dequeueBuffer_of_free hfree]
  rfl

theorem Inv.takeBuffer (h : s.Inv) (hw : s.mWindow = true) {env : TakeEnv} (htakes : s.Takes s.window env) :
    ∃ rc t, s.takeBuffer env = some (rc, t) ∧ t.Inv := by
  cases hdequeue : s.window.dequeueBuffer env.dequeue with
  | none =>
    refine ⟨.badIndex, s, ?_, h⟩
    unfold Preview.takeBuffer
    rw [hdequeue]
  | some r =>
    obtain ⟨b, window⟩ := r
    obtain ⟨henv, hfree, -⟩ := NativeWindow.dequeueBuffer_eq_some hdequeue
    rw [takeBuffer_of_free henv hfree]
    obtain ⟨i, hi, htable, hb, hunique⟩ | ⟨hnone, hcount, htable, hopen, himport⟩ := htakes b henv hfree
    · obtain ⟨j, hj, -, hjb, hsearch⟩ | ⟨hnone, -⟩ := (s.taken b).search_cases b
      · rw [hsearch, hunique j hj hjb]
        exact ⟨_, _, rfl, h.found hw hfree hi hb hunique⟩
      · exact absurd hb (hnone i hi htable)
    · obtain ⟨j, hj, -, hjb, -⟩ | ⟨-, hsearch⟩ := (s.taken b).search_cases b
      · exact absurd hjb (hnone j hj)
      · have hfails : ¬ (env.openIon = false ∨ env.importIon = false) := by simp [hopen, himport]
        have hplace : (s.taken b).place env b = _ :=
          (if_pos hcount).trans ((if_neg (Nat.not_le.2 htable)).trans (if_neg hfails))
        rw [hsearch.trans (if_neg (Nat.not_lt.2 (Nat.le_of_lt htable)))]
        exact ⟨_, _, hplace, h.placed hw hfree hnone env.getMemory⟩

variable {rc : PreviewRc}

theorem place_recorded {env : TakeEnv} (hnone : ∀ i < s.mMappableBuffers, s.mBufferHandle i ≠ some b)
    (hb : b ∈ s.window.dequeued) (hplace : s.place env b = some (rc, t)) (ht : t.Recorded) :
    s.mMappableBuffers < s.mBufferCount ∧ s.mMappableBuffers < mmCameraMaxNumFrames ∧ env.openIon = true ∧
      env.importIon = true := by
  unfold place at hplace
  split at hplace
  · rename_i hcount
    dsimp only at hplace
    split at hplace
    · cases hplace
    · rename_i htable
      split at hplace
      · cases hplace
        obtain ⟨i, hi, hib, -⟩ := ht.dequeued b hb
        have hne : i ≠ s.mMappableBuffers := Nat.ne_of_lt hi
        exact absurd ((update_of_ne hne ..).symm.trans hib) (hnone i hi)
      · rename_i hfails
        obtain ⟨hopen, himport⟩ := not_or.1 hfails
        exact ⟨hcount, Nat.not_le.1 htable, Bool.eq_true_of_not_eq_false hopen, Bool.eq_true_of_not_eq_false himport⟩
  · cases hplace
    obtain ⟨i, hi, hib, -⟩ := ht.dequeued b hb
    exact absurd hib (hnone i hi)

/-- **The table is right only under the condition**, after a buffer was dequeued. -/
theorem takes_of_takeBuffer {env : TakeEnv} (htake : s.takeBuffer env = some (rc, t))
    (ht : t.Recorded) : s.Takes s.window env := by
  intro b henv hfree
  have hb : b ∈ (s.taken b).window.dequeued := Finset.mem_insert_self ..
  rw [takeBuffer_of_free henv hfree] at htake
  obtain ⟨i, hi, htable, hib, hsearch⟩ | ⟨hnone, hsearch⟩ := (s.taken b).search_cases b
  · rw [hsearch] at htake
    cases htake
    obtain ⟨j, -, -, -, hunique⟩ := ht.dequeued b hb
    exact .inl ⟨i, hi, htable, hib, fun k hk hkb => (hunique k hk hkb).trans (hunique i hi hib).symm⟩
  · by_cases hroom : mmCameraMaxNumFrames < s.mMappableBuffers
    · rw [hsearch.trans (if_pos hroom)] at htake
      cases htake
    · rw [hsearch.trans (if_neg hroom)] at htake
      have hall : ∀ i < s.mMappableBuffers, s.mBufferHandle i ≠ some b := fun i hi =>
        hnone i hi (Nat.lt_of_lt_of_le hi (Nat.not_lt.1 hroom))
      exact .inr ⟨hall, place_recorded (s := s.taken b) hall hb htake ht⟩

/-! ### The calls for one buffer -/

variable {env : TakeEnv}

theorem Inv.dequeueBuffer_of_safe (h : s.Inv) (hs : s.Safe (.dequeueBuffer env)) :
    ∃ rc t, s.dequeueBuffer env = some (rc, t) ∧ t.Inv := by
  obtain ⟨rc, t, htake, ht⟩ := h.takeBuffer hs.1 hs.2
  refine ⟨rc, t, ?_, ht⟩
  unfold Preview.dequeueBuffer
  rw [hs.1]
  exact htake

theorem safe_of_dequeueBuffer (hcall : s.dequeueBuffer env = some (rc, t)) (ht : t.Recorded) :
    s.Safe (.dequeueBuffer env) := by
  unfold Preview.dequeueBuffer at hcall
  split at hcall
  · cases hcall
  · rename_i hw
    exact ⟨Bool.eq_true_of_not_eq_false hw, takes_of_takeBuffer hcall ht⟩

theorem Inv.hasWindow (h : s.Inv) (hi : s.mLocalFlag i = .bufferOwned) : s.mWindow = true := by
  obtain ⟨b, -, hb⟩ := h.owner hi
  by_contra hw
  rw [h.windowless (Bool.eq_false_of_not_eq_true hw)] at hb
  exact absurd hb (Finset.notMem_empty b)

theorem Inv.takes_enqueue (h : s.Inv) (hi : s.mLocalFlag index = .bufferOwned) (ok : Bool) :
    (s.enqueue index ok).2.Takes (s.enqueue index ok).2.window env ↔
      s.Takes (s.window.put (s.mBufferHandle index) ok).2 env := by
  obtain ⟨-, hwindow, hhandle, hmappable, hcount⟩ := h.enqueue hi ok
  unfold Takes
  rw [hwindow, hhandle, hmappable, hcount]

theorem displayBuffer_owned (h : s.Inv) (htable : index < mmCameraMaxNumFrames)
    (hi : s.mLocalFlag index = .bufferOwned) :
    s.displayBuffer index ok env = (s.enqueue index ok).2.takeBuffer env := by
  unfold Preview.displayBuffer
  rw [if_neg (Nat.not_le.2 htable), hi, h.hasWindow hi]
  rfl

theorem displayBuffer_notOwned (htable : index < mmCameraMaxNumFrames)
    (hi : s.mLocalFlag index = .bufferNotOwned) : s.displayBuffer index ok env = some (.invalidOperation, s) :=
  (if_neg (Nat.not_le.2 htable)).trans (if_pos hi)

theorem displayBuffer_outside (htable : mmCameraMaxNumFrames ≤ index) : s.displayBuffer index ok env = none :=
  if_pos htable

theorem enqueue_mWindow : (s.enqueue index ok).2.mWindow = s.mWindow := by
  unfold Preview.enqueue
  split
  · rfl
  · rfl

theorem Inv.displayBuffer_of_safe (h : s.Inv) (hs : s.Safe (.displayBuffer index ok env)) :
    ∃ rc t, s.displayBuffer index ok env = some (rc, t) ∧ t.Inv := by
  obtain ⟨htable, htakes⟩ := hs
  cases hi : s.mLocalFlag index with
  | bufferNotOwned => exact ⟨_, s, displayBuffer_notOwned htable hi, h⟩
  | bufferOwned =>
    rw [displayBuffer_owned h htable hi]
    exact (h.enqueue hi ok).1.takeBuffer (enqueue_mWindow.trans (h.hasWindow hi))
      ((h.takes_enqueue hi ok).2 (htakes hi))

theorem Inv.safe_of_displayBuffer (h : s.Inv) (hcall : s.displayBuffer index ok env = some (rc, t))
    (ht : t.Recorded) : s.Safe (.displayBuffer index ok env) := by
  obtain htable | htable := Nat.lt_or_ge index mmCameraMaxNumFrames
  · refine ⟨htable, fun hi => ?_⟩
    rw [displayBuffer_owned h htable hi] at hcall
    exact (h.takes_enqueue hi ok).1 (takes_of_takeBuffer hcall ht)
  · rw [displayBuffer_outside htable] at hcall
    cases hcall

theorem Inv.enqueueBuffer_of_safe (h : s.Inv) (hs : s.Safe (.enqueueBuffer index ok)) :
    ∃ rc t, s.enqueueBuffer index ok = some (rc, t) ∧ t.Inv := by
  have htable : ¬ mmCameraMaxNumFrames ≤ index := Nat.not_le.2 hs
  unfold Preview.enqueueBuffer
  rw [if_neg htable]
  cases hi : s.mLocalFlag index with
  | bufferNotOwned => exact ⟨_, s, rfl, h⟩
  | bufferOwned =>
    rw [h.hasWindow hi]
    exact ⟨_, _, rfl, (h.enqueue hi ok).1⟩

theorem safe_of_enqueueBuffer (hcall : s.enqueueBuffer index ok = some (rc, t)) :
    s.Safe (.enqueueBuffer index ok) := by
  unfold Preview.enqueueBuffer at hcall
  split at hcall
  · cases hcall
  · rename_i htable
    exact Nat.not_le.1 htable

theorem Inv.setMappable (h : s.Inv) (count : ℕ) : (s.setMappable count).Inv := by
  unfold Preview.setMappable
  split
  · rename_i hzero
    have hnone : s.window.dequeued = ∅ := Finset.eq_empty_of_forall_notMem fun b hb => by
      obtain ⟨i, hi, -⟩ := h.recorded.dequeued b hb
      omega
    exact .of_none hnone (h.notOwned hnone)
  · exact h

theorem Inv.deallocate_of_safe (h : s.Inv) (hs : s.Safe .deallocate) :
    ∃ t, s.deallocate = some t ∧ t.Inv ∧ t.window.dequeued = ∅ := by
  have hcanceled := s.canceled_slots (fun _ flag => flag ≠ .bufferNotOwned && s.mWindow) false
    (nodup_range (n := s.mMappableBuffers))
  have hnone : (s.cancelSlots (fun _ flag => flag ≠ .bufferNotOwned && s.mWindow) false
      (range s.mMappableBuffers)).window.dequeued = ∅ := Finset.eq_empty_of_forall_notMem fun b hb => by
    obtain ⟨hmem, hall⟩ := (hcanceled.dequeued b).1 hb
    obtain ⟨i, hi, hib, hflag, -⟩ := h.recorded.dequeued b hmem
    have hnot := hall i (mem_range.2 hi) hib
    rw [hflag, h.hasWindow hflag] at hnot
    cases hnot
  refine ⟨_, if_pos hs, .of_none hnone fun i => (hcanceled.flag i).trans ?_, hnone⟩
  split
  · rfl
  · rename_i hi
    cases hflag : s.mLocalFlag i with
    | bufferNotOwned => rfl
    | bufferOwned => exact absurd (mem_range.2 (h.owned i hflag).1) hi

theorem safe_of_deallocate (hcall : s.deallocate = some t) : s.Safe .deallocate := by
  unfold Preview.deallocate at hcall
  split at hcall
  · rename_i hs
    exact hs
  · cases hcall

/-! ### The loop of `allocate` -/

/-- The loop of `allocate` has got buffers for the slots below `i`. -/
structure Taken (s : Preview) (env : AllocEnv) (i : ℕ) (t : Preview) : Prop where
  gets : ∀ j < i, s.Gets env j
  handle : ∀ j, t.mBufferHandle j = if j < i then env.dequeue j else s.mBufferHandle j
  flag : ∀ j, t.mLocalFlag j = if j < i then .bufferOwned else s.mLocalFlag j
  dequeued : ∀ b, b ∈ t.window.dequeued ↔ b ∈ s.window.dequeued ∨ ∃ j < i, env.dequeue j = some b
  buffers : t.window.buffers = s.window.buffers
  mWindow : t.mWindow = s.mWindow
  mMappableBuffers : t.mMappableBuffers = s.mMappableBuffers
  mMinUndequeuedBuffers : t.mMinUndequeuedBuffers = s.mMinUndequeuedBuffers

variable {env : AllocEnv} {m : ℕ}

theorem taken_zero (s : Preview) (env : AllocEnv) : s.Taken env 0 s :=
  ⟨nofun, fun _ => rfl, fun _ => rfl, fun _ => ⟨.inl, fun hb => hb.resolve_right nofun⟩, rfl, rfl, rfl, rfl⟩

theorem Taken.free_iff (h : s.Taken env i t) : t.window.Free b ↔ s.window.Free b ∧ ∀ j < i, env.dequeue j ≠ some b := by
  unfold NativeWindow.Free
  rw [h.buffers, h.dequeued, not_or, and_assoc]
  simp only [not_exists, not_and, ne_eq]

theorem Taken.unique (h : s.Taken env n t) (hi : i < n) (hj : j < n) (hib : env.dequeue i = some b)
    (hjb : env.dequeue j = some b) : i = j := by
  have hle : ∀ {i j}, j < n → env.dequeue i = some b → env.dequeue j = some b → j ≤ i := fun hj hib hjb => by
    obtain ⟨⟨b', hb', -, hbelow⟩, -⟩ := h.gets _ hj
    obtain rfl : b = b' := Option.some_inj.1 (hjb.symm.trans hb')
    exact Nat.not_lt.1 fun hlt => hbelow _ hlt hib
  exact Nat.le_antisymm (hle hi hjb hib) (hle hj hib hjb)

theorem Taken.notMem (h : s.Taken env n t) (hi : i < n) (hb : env.dequeue i = some b) : b ∉ s.window.dequeued := by
  obtain ⟨⟨b', hb', hfree, -⟩, -⟩ := h.gets i hi
  obtain rfl : b = b' := Option.some_inj.1 (hb.symm.trans hb')
  exact hfree.2

/-- **One round of the loop.** -/
theorem Taken.next (h : s.Taken env i t) (hb : env.dequeue i = some b) (hfree : t.window.Free b)
    (hopen : env.openIon i = true) (himport : env.importIon i = true) (ok : Bool) :
    s.Taken env (i + 1) (((t.taken b).record i b).mapMemory i ok) := by
  obtain ⟨hfree, hbelow⟩ := h.free_iff.1 hfree
  refine ⟨fun j hj => ?_, fun j => ?_, fun j => ?_, fun _ => ?_, h.buffers, h.mWindow, h.mMappableBuffers,
    h.mMinUndequeuedBuffers⟩
  · obtain hlt | rfl := Nat.lt_succ_iff_lt_or_eq.1 hj
    · exact h.gets j hlt
    · exact ⟨⟨b, hb, hfree, hbelow⟩, hopen, himport⟩
  · change update t.mBufferHandle i (some b) j = _
    rw [update_apply, h.handle]
    by_cases hji : j = i
    · rw [if_pos hji, if_pos (by omega), hji, hb]
    · rw [if_neg hji]
      exact if_congr (by omega) rfl rfl
  · change update t.mLocalFlag i .bufferOwned j = _
    rw [update_apply, h.flag]
    by_cases hji : j = i
    · rw [if_pos hji, if_pos (by omega)]
    · rw [if_neg hji]
      exact if_congr (by omega) rfl rfl
  · refine Finset.mem_insert.trans ⟨?_, ?_⟩
    · rintro (rfl | hmem)
      · exact .inr ⟨i, Nat.lt_succ_self i, hb⟩
      · exact ((h.dequeued _).1 hmem).imp_right fun ⟨j, hj, hjb⟩ => ⟨j, Nat.lt_succ_of_lt hj, hjb⟩
    · rintro (hmem | ⟨j, hj, hjb⟩)
      · exact .inr ((h.dequeued _).2 (.inl hmem))
      · obtain hlt | rfl := Nat.lt_succ_iff_lt_or_eq.1 hj
        · exact .inr ((h.dequeued _).2 (.inr ⟨j, hlt, hjb⟩))
        · exact .inl (Option.some_inj.1 (hjb.symm.trans hb))

theorem dequeueLoop_none (htable : i < mmCameraMaxNumFrames) (h : t.window.dequeueBuffer (env.dequeue i) = none) :
    dequeueLoop env (n + 1) i t = some (false, (t.setFlag i .bufferNotOwned).unwind i) := by
  rw [dequeueLoop, if_neg (Nat.not_le.2 htable), h]

theorem dequeueLoop_free (htable : i < mmCameraMaxNumFrames) (hb : env.dequeue i = some b)
    (hfree : t.window.Free b) : dequeueLoop env (n + 1) i t =
      if env.openIon i = false ∨ env.importIon i = false then some (false, ((t.taken b).record i b).unwind i)
      else dequeueLoop env n (i + 1) (((t.taken b).record i b).mapMemory i (env.getMemory i)) := by
  rw [dequeueLoop, if_neg (Nat.not_le.2 htable), hb, NativeWindow.dequeueBuffer_of_free hfree]
  rfl

/-- **The loop of `allocate`**: it gets all buffers; or the window has none at a slot; or one cannot be imported; or
the loop leaves the table. -/
theorem Taken.loop (h : s.Taken env i t) (n : ℕ) :
    (∃ u, dequeueLoop env n i t = some (true, u) ∧ s.Taken env (i + n) u ∧ (n = 0 ∨ i + n ≤ mmCameraMaxNumFrames)) ∨
    (∃ m u, m < i + n ∧ m < mmCameraMaxNumFrames ∧ s.Taken env m u ∧ ¬ s.Gives env m ∧
      dequeueLoop env n i t = some (false, (u.setFlag m .bufferNotOwned).unwind m)) ∨
    (∃ m u b, m < i + n ∧ s.Taken env m u ∧ env.dequeue m = some b ∧ u.window.Free b ∧ ¬ s.Gets env m ∧
      dequeueLoop env n i t = some (false, ((u.taken b).record m b).unwind m)) ∨
    (mmCameraMaxNumFrames < i + n ∧ (∀ j < mmCameraMaxNumFrames, s.Gets env j) ∧ dequeueLoop env n i t = none) := by
  induction n generalizing i t with
  | zero => exact .inl ⟨t, rfl, h, .inl rfl⟩
  | succ n ih =>
    obtain htable | htable := Nat.lt_or_ge i mmCameraMaxNumFrames
    · cases hdequeue : t.window.dequeueBuffer (env.dequeue i) with
      | none =>
        refine .inr (.inl ⟨i, t, by omega, htable, h, ?_, dequeueLoop_none htable hdequeue⟩)
        rintro ⟨b, hb, hfree, hbelow⟩
        exact NativeWindow.dequeueBuffer_eq_none hdequeue b hb (h.free_iff.2 ⟨hfree, hbelow⟩)
      | some r =>
        obtain ⟨hb, hfree, -⟩ := NativeWindow.dequeueBuffer_eq_some hdequeue
        rw [dequeueLoop_free htable hb hfree]
        by_cases hion : env.openIon i = false ∨ env.importIon i = false
        · refine .inr (.inr (.inl ⟨i, t, r.1, by omega, h, hb, hfree, ?_, if_pos hion⟩))
          rintro ⟨-, hopen, himport⟩
          rw [hopen, himport] at hion
          exact hion.elim nofun nofun
        · obtain ⟨hopen, himport⟩ := not_or.1 hion
          rw [if_neg hion, show i + (n + 1) = i + 1 + n by omega]
          obtain ⟨u, hu, htaken, hle⟩ | hfails := ih (h.next hb hfree (Bool.eq_true_of_not_eq_false hopen)
            (Bool.eq_true_of_not_eq_false himport) (env.getMemory i))
          · exact .inl ⟨u, hu, htaken, .inr (by omega)⟩
          · exact .inr hfails
    · exact .inr (.inr (.inr ⟨by omega, fun j hj => h.gets j (Nat.lt_of_lt_of_le hj htable), if_pos htable⟩))

/-! ### `allocate` -/

variable {count : ℕ}

/-- The memory as `allocate` enters its loop. -/
def entered (s : Preview) (env : AllocEnv) (count : ℕ) : Preview :=
  { s with
    mMinUndequeuedBuffers := env.minUndequeued.getD 0
    mBufferCount := count
    mMappableBuffers := s.mappable count }

theorem allocate_refused (h : ¬ s.Ready env) (count : ℕ) :
    ∃ rc, ∃ t : Preview, s.allocate env count = some (rc, t.unmappable) ∧ rc ≠ .noError ∧ t.window = s.window ∧
      t.mLocalFlag = s.mLocalFlag := by
  unfold Preview.allocate
  split
  · exact ⟨_, s, rfl, nofun, rfl, rfl⟩
  · rename_i hw
    split
    · exact ⟨_, s, rfl, nofun, rfl, rfl⟩
    · rename_i k hmin
      rw [if_pos]
      · exact ⟨_, { s with mMinUndequeuedBuffers := k }, rfl, nofun, rfl, rfl⟩
      · rw [Bool.not_eq_true', Bool.eq_false_iff]
        exact fun hset => h ⟨Bool.eq_true_of_not_eq_false hw, hmin ▸ rfl, hset⟩

theorem allocate_ready (h : s.Ready env) : s.allocate env count =
    match dequeueLoop env (s.mappable count) 0 (s.entered env count) with
    | none => none
    | some (false, t) => some (.unknownError, t.unmappable)
    | some (true, t) =>
      if mmCameraMaxNumFrames < t.mMinUndequeuedBuffers.toNat then none
      else some (.noError,
        t.cancelSlots (fun i _ => env.cancel i) false (List.range t.mMinUndequeuedBuffers.toNat)) := by
  obtain ⟨hw, hmin, hset⟩ := h
  obtain ⟨k, hk⟩ := Option.isSome_iff_exists.1 hmin
  have hentered : s.entered env count =
      { s with mMinUndequeuedBuffers := k, mBufferCount := count, mMappableBuffers := s.mappable count } := by
    unfold entered
    rw [hk]
    rfl
  unfold Preview.allocate
  rw [if_neg ((Bool.not_eq_false _).symm ▸ hw), hk, hentered]
  refine if_neg ?_
  rw [hset]
  exact Bool.false_ne_true

theorem Taken.canceled_eq (h : (s.entered env count).Taken env n t) :
    t.mMinUndequeuedBuffers.toNat = canceled env := congrArg Int.toNat h.mMinUndequeuedBuffers

theorem unwind_dequeued (h : s.Taken env m t) (hhandle : ∀ j < m, u.mBufferHandle j = t.mBufferHandle j)
    (hflag : ∀ j < m, u.mLocalFlag j = t.mLocalFlag j) :
    b ∈ (u.unwind m).window.dequeued ↔ b ∈ u.window.dequeued ∧ ∀ j < m, env.dequeue j ≠ some b := by
  refine ((u.canceled_slots _ true nodup_range).dequeued b).trans (and_congr_right fun _ => ?_)
  refine forall_congr' fun j => ?_
  rw [mem_range]
  refine forall_congr' fun hj => ?_
  rw [hhandle j hj, hflag j hj, h.handle, h.flag, if_pos hj, if_pos hj]
  simp

theorem Taken.unwind_none (h : s.Taken env m t) :
    ((t.setFlag m .bufferNotOwned).unwind m).window.dequeued = s.window.dequeued := by
  have hflag : ∀ j < m, (t.setFlag m .bufferNotOwned).mLocalFlag j = t.mLocalFlag j := fun j hj =>
    update_of_ne (Nat.ne_of_lt hj) ..
  ext b
  rw [unwind_dequeued h (u := t.setFlag m .bufferNotOwned) (fun _ _ => rfl) hflag]
  refine (and_congr_left' (h.dequeued b)).trans ⟨?_, fun hb => ⟨.inl hb, fun j hj hjb => h.notMem hj hjb hb⟩⟩
  rintro ⟨hb | ⟨j, hj, hjb⟩, hnone⟩
  · exact hb
  · exact absurd hjb (hnone j hj)

theorem Taken.unwind_ion (h : s.Taken env m t) (hfree : t.window.Free b) :
    b ∈ (((t.taken b).record m b).unwind m).window.dequeued :=
  (unwind_dequeued h (fun _ hj => update_of_ne (Nat.ne_of_lt hj) ..)
    fun _ hj => update_of_ne (Nat.ne_of_lt hj) ..).2 ⟨Finset.mem_insert_self .., (h.free_iff.1 hfree).2⟩

theorem Taken.unwind_flag (h : s.Taken env m t) (hs : ∀ i, s.mLocalFlag i = .bufferNotOwned) :
    ((t.setFlag m .bufferNotOwned).unwind m).mLocalFlag i = .bufferNotOwned := by
  refine ((t.setFlag m .bufferNotOwned).canceled_slots _ true nodup_range).flag i |>.trans ?_
  split
  · rfl
  · rename_i hi
    rw [mem_range] at hi
    change update t.mLocalFlag m .bufferNotOwned i = _
    rw [update_apply, h.flag, if_neg hi, hs i, ite_self]

/-- What `allocate` leaves where it got all buffers. -/
def finished (t : Preview) (env : AllocEnv) : Preview :=
  t.cancelSlots (fun i _ => env.cancel i) false (List.range (canceled env))

/-- **The end of `allocate`**: the table is right only where all buffers are settled. -/
theorem Taken.settled (h : (s.entered env count).Taken env n t) (hmappable : n = s.mappable count)
    (ht : (t.finished env).Recorded) : s.Settled env n := by
  have hcanceled := t.canceled_slots (fun i _ => env.cancel i) false (nodup_range (n := canceled env))
  intro b hb
  by_cases hcancel : ∃ i < canceled env, t.mBufferHandle i = some b ∧ env.cancel i = true
  · obtain ⟨i, hi, hib, hok⟩ := hcancel
    exact .inr ⟨i, hi, (h.handle i).symm.trans hib, hok⟩
  · have hkept : b ∈ (t.finished env).window.dequeued := (hcanceled.dequeued b).2 ⟨(h.dequeued b).2 hb, fun i hi hib =>
      Bool.eq_false_iff.2 fun hok => hcancel ⟨i, mem_range.1 hi, hib, hok⟩⟩
    obtain ⟨i, hi, hib, hflag, -⟩ := ht.dequeued b hkept
    rw [finished, hcanceled.mMappableBuffers, h.mMappableBuffers] at hi
    have hin : i < n := hmappable ▸ hi
    rw [finished, hcanceled.handle, if_neg fun hc => Bool.false_ne_true hc.1, h.handle, if_pos hin] at hib
    rw [finished, hcanceled.flag] at hflag
    refine .inl ⟨i, hin, ?_, hib⟩
    by_contra hlt
    rw [if_pos (mem_range.2 (Nat.not_le.1 hlt))] at hflag
    cases hflag

theorem Taken.owned (h : (s.entered env count).Taken env n t) (hs : s.Inv) (hsettled : s.Settled env n)
    (hi : (t.finished env).mLocalFlag i = .bufferOwned) : i < n ∧ canceled env ≤ i := by
  have hcanceled := t.canceled_slots (fun i _ => env.cancel i) false (nodup_range (n := canceled env))
  rw [finished, hcanceled.flag] at hi
  split at hi
  · cases hi
  · rename_i hle
    have hle : canceled env ≤ i := Nat.not_lt.1 fun hlt => hle (mem_range.2 hlt)
    rw [h.flag] at hi
    by_contra hnot
    have hin : ¬ i < n := fun hin => hnot ⟨hin, hle⟩
    rw [if_neg hin] at hi
    -- it was owned before, and so the buffer was cancelled at a slot below
    obtain ⟨b, hb, hmem⟩ := hs.owner hi
    obtain ⟨j, hj, -, hjb⟩ | ⟨j, hj, hjb, -⟩ := hsettled b (.inl hmem)
    · exact h.notMem hj hjb hmem
    · split at hjb
      · rename_i hjn
        exact h.notMem hjn hjb hmem
      · have hlt := (hs.owned i hi).1
        obtain ⟨k, -, -, -, hunique⟩ := hs.recorded.dequeued b hmem
        have hik := hunique i hlt hb
        have hjk := hunique j (by omega) hjb
        omega

theorem Taken.finish (h : (s.entered env count).Taken env n t) (hmappable : n = s.mappable count) (hs : s.Inv)
    (hw : s.mWindow = true) (hsettled : s.Settled env n) : (t.finished env).Inv := by
  have hcanceled := t.canceled_slots (fun i _ => env.cancel i) false (nodup_range (n := canceled env))
  have hhandle : ∀ i < n, (t.finished env).mBufferHandle i = env.dequeue i := fun i hi => by
    rw [finished, hcanceled.handle, if_neg fun hc => Bool.false_ne_true hc.1, h.handle, if_pos hi]
  have hcount : (t.finished env).mMappableBuffers = n := by
    rw [finished, hcanceled.mMappableBuffers, h.mMappableBuffers, hmappable]
    rfl
  have hflag : ∀ i < n, canceled env ≤ i → (t.finished env).mLocalFlag i = .bufferOwned := fun i hi hle => by
    rw [finished, hcanceled.flag, if_neg fun hmem => absurd (mem_range.1 hmem) (Nat.not_lt.2 hle), h.flag, if_pos hi]
  -- what is in a slot that is not cancelled stays dequeued
  have hkept : ∀ i < n, canceled env ≤ i → ∀ b, env.dequeue i = some b → b ∈ (t.finished env).window.dequeued := by
    intro i hi hle b hb
    refine (hcanceled.dequeued b).2 ⟨(h.dequeued b).2 (.inr ⟨i, hi, hb⟩), fun j hj hjb => ?_⟩
    have hji : j < i := Nat.lt_of_lt_of_le (mem_range.1 hj) hle
    rw [h.handle, if_pos (Nat.lt_trans hji hi)] at hjb
    exact absurd (h.unique (Nat.lt_trans hji hi) hi hjb hb) (Nat.ne_of_lt hji)
  refine ⟨⟨fun b hb => ?_, fun i b hib hb => ?_⟩, fun i hi => ?_, fun hnull => ?_⟩
  · obtain ⟨hmem, hall⟩ := (hcanceled.dequeued b).1 hb
    obtain ⟨i, hi, hle, hib⟩ | ⟨i, hi, hib, hok⟩ := hsettled b ((h.dequeued b).1 hmem)
    · refine ⟨i, hcount ▸ hi, (hhandle i hi).trans hib, hflag i hi hle, fun j hj hjb => ?_⟩
      rw [hcount] at hj
      exact h.unique hj hi ((hhandle j hj).symm.trans hjb) hib
    · have hnot := hall i (mem_range.2 hi) ((h.handle i).trans hib)
      exact nomatch hnot.symm.trans hok
  · cases hi : (t.finished env).mLocalFlag i with
    | bufferNotOwned => rfl
    | bufferOwned =>
      obtain ⟨hin, hle⟩ := h.owned hs hsettled hi
      exact absurd (hkept i hin hle b ((hhandle i hin).symm.trans hib)) hb
  · obtain ⟨hin, -⟩ := h.owned hs hsettled hi
    obtain ⟨⟨b, hb, -⟩, -⟩ := h.gets i hin
    exact ⟨hcount ▸ hin, b, (hhandle i hin).trans hb⟩
  · have hwindow : (t.finished env).mWindow = s.mWindow := hcanceled.mWindow.trans h.mWindow
    exact nomatch (hwindow.trans hw).symm.trans hnull

theorem Inv.allocate_of_safe (h : s.Inv) {count : Fin 256} (hs : s.Safe (.allocate count env)) :
    ∃ rc t, s.allocate env count = some (rc, t) ∧ t.Inv ∧ (rc ≠ .noError → t.window.dequeued = ∅) := by
  obtain ⟨hrefused, hnone⟩ | ⟨hready, hnone, i, hi, htable, hgets, hgives⟩ | ⟨hready, htable, hmin, hgets, hsettled⟩ :=
    hs
  · obtain ⟨rc, t, hcall, -, hwindow, hflag⟩ := allocate_refused hrefused count
    have ht : t.unmappable.window.dequeued = ∅ := (congrArg _ hwindow).trans hnone
    exact ⟨rc, _, hcall, .of_none ht fun i => (congrFun hflag i).trans (h.notOwned hnone i), fun _ => ht⟩
  · rw [allocate_ready hready]
    obtain ⟨u, -, htaken, -⟩ | ⟨m, u, -, -, htaken, hgives', hloop⟩ | ⟨m, u, b, hm, htaken, hb, hfree, hgets', hloop⟩ |
      ⟨hfull, hall, -⟩ := (taken_zero (s.entered env count) env).loop (s.mappable count)
    · exact absurd (htaken.gets i (by omega)).1 hgives
    · rw [hloop]
      have ht := htaken.unwind_none.trans hnone
      exact ⟨_, _, rfl, .of_none ht fun i => htaken.unwind_flag (h.notOwned hnone), fun _ => ht⟩
    · obtain hlt | hle := Nat.lt_or_ge m i
      · exact absurd (hgets m hlt) hgets'
      · obtain rfl | hlt := Nat.eq_or_lt_of_le hle
        · exact absurd ⟨b, hb, htaken.free_iff.1 hfree⟩ hgives
        · exact absurd (htaken.gets i hlt).1 hgives
    · exact absurd (hall i htable).1 hgives
  · rw [allocate_ready hready]
    obtain ⟨u, hloop, htaken, -⟩ | ⟨m, u, hm, -, htaken, hgives', -⟩ | ⟨m, u, b, hm, -, -, -, hgets', -⟩ |
      ⟨hfull, -, -⟩ := (taken_zero (s.entered env count) env).loop (s.mappable count)
    · rw [hloop]
      dsimp only
      rw [htaken.canceled_eq]
      rw [Nat.zero_add] at htaken
      exact ⟨_, _, if_neg (Nat.not_lt.2 hmin), htaken.finish rfl h hready.1 hsettled, fun hne => absurd rfl hne⟩
    · exact absurd (hgets m (by omega)).1 hgives'
    · exact absurd (hgets m (by omega)) hgets'
    · omega

theorem safe_of_allocate {count : Fin 256}
    (hcall : s.allocate env count = some (rc, t)) (ht : t.Recorded)
    (hnone : rc ≠ .noError → t.window.dequeued = ∅) : s.Safe (.allocate count env) := by
  by_cases hready : s.Ready env
  · rw [allocate_ready hready] at hcall
    obtain ⟨u, hloop, htaken, hroom⟩ | ⟨m, u, hm, htable, htaken, hgives, hloop⟩ |
      ⟨m, u, b, hm, htaken, hb, hfree, hgets, hloop⟩ | ⟨-, -, hloop⟩ :=
      (taken_zero (s.entered env count) env).loop (s.mappable count)
    · rw [hloop] at hcall
      dsimp only at hcall
      rw [htaken.canceled_eq] at hcall
      rw [Nat.zero_add] at htaken
      split at hcall
      · cases hcall
      · rename_i hmin
        cases hcall
        exact .inr (.inr ⟨hready, by omega, Nat.not_lt.1 hmin, htaken.gets, htaken.settled rfl ht⟩)
    · rw [hloop] at hcall
      cases hcall
      exact .inr (.inl ⟨hready, htaken.unwind_none.symm.trans (hnone nofun), m, by omega, htable, htaken.gets, hgives⟩)
    · rw [hloop] at hcall
      cases hcall
      have hmem := htaken.unwind_ion (b := b) hfree
      have hempty : (((u.taken b).record m b).unwind m).window.dequeued = ∅ := hnone nofun
      rw [hempty] at hmem
      exact absurd hmem (Finset.notMem_empty b)
    · rw [hloop] at hcall
      cases hcall
  · obtain ⟨rc', t', hcall', hne, hwindow, -⟩ := allocate_refused hready count
    rw [hcall'] at hcall
    cases hcall
    exact .inl ⟨hready, (congrArg _ hwindow).symm.trans (hnone hne)⟩

/-! ### Runs -/

/-- **A call under the condition** does what it should, and keeps the invariant. -/
theorem Inv.of_safe (h : s.Inv) {c : PreviewCall} (hs : s.Safe c) :
    ∃ rc t, s.call c = some (rc, t) ∧ t.Inv ∧ (c.Ends rc → t.window.dequeued = ∅) := by
  cases c with
  | allocate count env => exact h.allocate_of_safe hs
  | setMappable count => exact ⟨_, _, rfl, h.setMappable count, False.elim⟩
  | displayBuffer index ok env =>
    obtain ⟨rc, t, hcall, ht⟩ := h.displayBuffer_of_safe hs
    exact ⟨rc, t, hcall, ht, False.elim⟩
  | enqueueBuffer index ok =>
    obtain ⟨rc, t, hcall, ht⟩ := h.enqueueBuffer_of_safe hs
    exact ⟨rc, t, hcall, ht, False.elim⟩
  | dequeueBuffer env =>
    obtain ⟨rc, t, hcall, ht⟩ := h.dequeueBuffer_of_safe hs
    exact ⟨rc, t, hcall, ht, False.elim⟩
  | deallocate =>
    obtain ⟨t, hcall, ht, hnone⟩ := h.deallocate_of_safe hs
    exact ⟨.noError, t, congrArg (Option.map _) hcall, ht, fun _ => hnone⟩

theorem Inv.law_iff (h : s.Inv) (c : PreviewCall) : s.Law c ↔ s.Safe c := by
  constructor
  · rintro ⟨rc, t, hcall, ht, hnone⟩
    cases c with
    | allocate count env => exact safe_of_allocate hcall ht hnone
    | setMappable count => trivial
    | displayBuffer index ok env => exact h.safe_of_displayBuffer hcall ht
    | enqueueBuffer index ok => exact safe_of_enqueueBuffer hcall
    | dequeueBuffer env => exact safe_of_dequeueBuffer hcall ht
    | deallocate =>
      obtain ⟨u, hcall, -⟩ := Option.map_eq_some_iff.1 hcall
      exact safe_of_deallocate hcall
  · intro hs
    obtain ⟨rc, t, hcall, hinv, hnone⟩ := h.of_safe hs
    exact ⟨rc, t, hcall, hinv.recorded, hnone⟩

theorem Inv.step (h : s.Inv) {c : PreviewCall} (hs : s.Safe c) : (s.step c).Inv := by
  obtain ⟨rc, t, hcall, hinv, -⟩ := h.of_safe hs
  unfold Preview.step
  rw [hcall]
  exact hinv

/-- A new memory, with its window. -/
def new (mWindow : Bool) (buffers : Finset ℕ) : Preview := { mWindow := mWindow, window := { buffers := buffers } }

theorem inv_new (mWindow : Bool) (buffers : Finset ℕ) : (new mWindow buffers).Inv := .of_none rfl fun _ => rfl

/-- **The table in a run**: all calls leave it right exactly where each of them meets the condition. -/
theorem recorded_iff (mWindow : Bool) (buffers : Finset ℕ) (cs : List PreviewCall) :
    StepLaws.Along Preview.step Law (new mWindow buffers) cs ↔
      StepLaws.Along Preview.step Safe (new mWindow buffers) cs :=
  StepLaws.along_iff (fun _ c h => h.law_iff c) (fun _ _ h hs => h.step hs) (inv_new mWindow buffers) cs

/-- **The ION device cannot be opened**: `allocate` fails, and its buffer stays dequeued. -/
theorem not_recorded_ionFails : ¬ StepLaws.Along Preview.step Law (new true {0})
    [.allocate 1 { dequeue := fun _ => some 0, openIon := fun _ => false }] := fun ⟨⟨rc, t, hcall, _, hnone⟩, _⟩ => by
  have ht : rc ≠ .noError ∧ 0 ∈ t.window.dequeued := by
    cases hcall
    decide
  have hmem := ht.2
  rw [hnone ht.1] at hmem
  exact Finset.notMem_empty 0 hmem

end Preview

end PreviewWindow

end Marlin
