import Marlin.FrameSync
import Marlin.Transition

/-!
# What the Frame-Sync Table Remembers

Histories of calls of the frame-sync table: channels register and unregister, add the frames
they matched and remove the frames that are gone. Beside the table a history carries the frames
that are live: which channel has added which frame since it was last registered and since the
frame was last removed.

A frame that the table reports as matched should have been added by every channel that is
registered. That does not hold of all histories: a channel that registers takes over the valid
marks that an earlier channel left in its slot, and the matches that were made without it.

## Main results

* `add_cases`, `remove_cases`, `register_cases`, `unregister_cases`: what one call does.
* `matched_run`: while channels only register when no entry is matched or marked for a slot of
  theirs, a matched frame was added by every registered channel.
-/

namespace Marlin

open List Transition

/-- A call of the table. -/
inductive FsCall where
  | register (ch : ℕ)
  | unregister (ch : ℕ)
  | add (frameId ch : ℕ)
  | remove (frameId : ℕ)
  deriving DecidableEq

/-- The table with what is live: `(frameId, ch)` stands for a frame added by a channel. -/
structure FsHistory where
  fs : FrameSyncInfo := {}
  added : List (ℕ × ℕ) := []
  deriving DecidableEq

namespace FsHistory

open FrameSyncInfo

/-- One call. Only calls that return `0` register a channel or add a frame. -/
def call (h : FsHistory) : FsCall → FsHistory
  | .register ch =>
    { fs := (h.fs.registerChannel ch).2
      added := if (h.fs.registerChannel ch).1 = 0 then h.added.filter (·.2 ≠ ch) else h.added }
  | .unregister ch => { h with fs := (h.fs.unregisterChannel ch).2 }
  | .add frameId ch =>
    { fs := (h.fs.add frameId ch).2
      added := if (h.fs.add frameId ch).1 = 0 then (frameId, ch) :: h.added else h.added }
  | .remove frameId =>
    { fs := (h.fs.remove frameId).2
      added := h.added.filter (·.1 ≠ frameId) }

/-- The calls as a transition relation. -/
def Step (h : FsHistory) (c : FsCall) (h' : FsHistory) : Prop := h' = h.call c

/-- The channel is registered. -/
abbrev Registered (fs : FrameSyncInfo) (ch : ℕ) : Prop := some ch ∈ fs.chObj

/-! ### Well-formed tables -/

/-- The entries of a frame are unique. -/
def UniqueIds (node : List MmChannelSyncNode) : Prop :=
  ∀ (i j : ℕ) (a b : MmChannelSyncNode), node[i]? = some a → node[j]? = some b → a.frameIdx ≠ 0 →
    a.frameIdx = b.frameIdx → i = j

/-- What holds of the table after any history. -/
structure WellFormed (fs : FrameSyncInfo) : Prop where
  nodes : fs.node.length = mmCameraFrameSyncNodes
  slots : fs.chObj.length = maxNumCameraPerBundle
  cams : fs.numCam = fs.chObj.countP Option.isSome
  valid : ∀ n ∈ fs.node, n.frameValid.length = maxNumCameraPerBundle
  empty : ∀ n ∈ fs.node, n.frameIdx = 0 → n = {}
  unique : UniqueIds fs.node

variable {i : ℕ} {n : MmChannelSyncNode}

theorem UniqueIds.set {node : List MmChannelSyncNode} (h : UniqueIds node)
    (hn : n.frameIdx ≠ 0 → ∀ j b, node[j]? = some b → j ≠ i → b.frameIdx ≠ n.frameIdx) : UniqueIds (node.set i n) := by
  intro j k a b ha hb hne heq
  rw [getElem?_set] at ha hb
  split at ha
  · rename_i hj
    split at ha
    · cases ha
      split at hb
      · rename_i hk
        exact hj.symm.trans hk
      · rename_i hk
        exact absurd heq.symm (hn hne k b hb (Ne.symm hk))
    · cases ha
  · rename_i hj
    split at hb
    · split at hb
      · cases hb
        exact absurd heq (hn (heq ▸ hne) j a ha (Ne.symm hj))
      · cases hb
    · exact h j k a b ha hb hne heq

theorem wellFormed_reset : WellFormed reset where
  nodes := rfl
  slots := rfl
  cams := rfl
  valid n hn := by
    obtain ⟨-, rfl⟩ := mem_replicate.mp hn
    rfl
  empty n hn _ := (mem_replicate.mp hn).2
  unique i j a b ha _ hne _ := by
    obtain ⟨-, rfl⟩ := mem_replicate.mp (mem_of_getElem? ha)
    exact absurd rfl hne

variable {fs : FrameSyncInfo} {pos : ℕ}

theorem WellFormed.put (h : WellFormed fs) (hvalid : n.frameValid.length = maxNumCameraPerBundle)
    (hempty : n.frameIdx = 0 → n = {})
    (hn : n.frameIdx ≠ 0 → ∀ j b, fs.node[j]? = some b → j ≠ i → b.frameIdx ≠ n.frameIdx) :
    WellFormed { fs with pos := pos, node := fs.node.set i n } where
  nodes := (length_set ..).trans h.nodes
  slots := h.slots
  cams := h.cams
  valid m hm := by
    rcases mem_or_eq_of_mem_set hm with hm | rfl
    · exact h.valid m hm
    · exact hvalid
  empty m hm := by
    rcases mem_or_eq_of_mem_set hm with hm | rfl
    · exact h.empty m hm
    · exact hempty
  unique := h.unique.set hn

/-! ### What one call does -/

@[simp] theorem settle_frameIdx (c : ℕ) (n : MmChannelSyncNode) : (settle c n).frameIdx = n.frameIdx := by
  rw [settle]
  split <;> rfl

@[simp] theorem settle_frameValid (c : ℕ) (n : MmChannelSyncNode) : (settle c n).frameValid = n.frameValid := by
  rw [settle]
  split <;> rfl

theorem settle_matched {c : ℕ} : (settle c n).matched = true ↔ n.matched = true ∨ n.frameValid.count true = c := by
  rw [settle]
  cases hn : n.matched with
  | true => simp [hn]
  | false =>
    by_cases hc : n.frameValid.count true = c
    · simp [hc]
    · simp [hc, hn]

/-- The entry that `mm_frame_sync_add` takes for a new frame. -/
def nextIndex (fs : FrameSyncInfo) : ℕ := if mmCameraFrameSyncNodes ≤ fs.pos then 0 else fs.pos

/-- The entry that an addition marks: where it is, and what it is before the mark. -/
inductive Entry (fs : FrameSyncInfo) (frameId : ℕ) : ℕ → MmChannelSyncNode → Prop
  /-- The frame is in the table. -/
  | listed {k : ℕ} {m : MmChannelSyncNode} (hm : fs.node[k]? = some m) (hid : m.frameIdx = frameId) :
      Entry fs frameId k m
  /-- The frame is new. -/
  | fresh (hnew : ∀ b ∈ fs.node, b.frameIdx ≠ frameId) :
      Entry fs frameId (nextIndex fs) { frameIdx := frameId, matched := fs.numCam == 1 }

/-- The mark of the channel in slot `i`. -/
def mark (fs : FrameSyncInfo) (i : ℕ) (m : MmChannelSyncNode) : MmChannelSyncNode :=
  settle fs.numCam { m with frameValid := m.frameValid.set i true }

/-- **`mm_frame_sync_add`**: it fails, or the channel marks one entry. -/
theorem add_cases (fs : FrameSyncInfo) (frameId ch : ℕ) : fs.add frameId ch = (-1, fs) ∨
      frameId ≠ 0 ∧ ∃ i k m pos, fs.chObj.findIdx? (· == some ch) = some i ∧ Entry fs frameId k m ∧
        fs.add frameId ch = (0, { fs with pos := pos, node := fs.node.set k (mark fs i m) }) := by
  by_cases hid : frameId = 0
  · exact .inl (if_pos hid)
  rw [add, if_neg hid]
  split
  · exact .inl rfl
  rename_i i hi
  refine .inr ⟨hid, i, ?_⟩
  split
  · rename_i k hk
    obtain ⟨hlt, hfound, -⟩ := findIdx?_eq_some_iff_getElem.mp hk
    refine ⟨k, fs.node[k], fs.pos, hi, .listed (getElem?_eq_getElem hlt) (by simpa using hfound), ?_⟩
    rw [modify_eq_set_get _ hlt]
    rfl
  · rename_i hnone
    have hnew := findIdx?_eq_none_iff.mp hnone
    exact ⟨_, _, nextIndex fs + 1, hi, .fresh fun b hb => by simpa using hnew b hb, rfl⟩

/-- `mm_frame_sync_remove`: an entry of the frame is cleared, or there is none. -/
theorem remove_cases (fs : FrameSyncInfo) (frameId : ℕ) :
    ((fs.remove frameId).2 = fs ∧ (frameId = 0 ∨ ∀ b ∈ fs.node, b.frameIdx ≠ frameId)) ∨
      ∃ k m, fs.node[k]? = some m ∧ m.frameIdx = frameId ∧
        (fs.remove frameId).2 = { fs with node := fs.node.set k {} } := by
  by_cases hid : frameId = 0
  · exact .inl ⟨by rw [remove, if_pos hid], .inl hid⟩
  rw [remove, if_neg hid]
  split
  · rename_i k hk
    obtain ⟨hlt, hfound, -⟩ := findIdx?_eq_some_iff_getElem.mp hk
    exact .inr ⟨k, fs.node[k], getElem?_eq_getElem hlt, by simpa using hfound, rfl⟩
  · rename_i hnone
    have hnew := findIdx?_eq_none_iff.mp hnone
    exact .inl ⟨rfl, .inr fun b hb => by simpa using hnew b hb⟩

/-- The table in which the channel takes slot `i`. -/
def enroll (fs : FrameSyncInfo) (i ch : ℕ) : FrameSyncInfo :=
  { fs with chObj := fs.chObj.set i (some ch), numCam := fs.numCam + 1 }

/-- `mm_frame_sync_register_channel`: it fails, or the channel takes the first free slot; the
first channel finds the table reset. -/
theorem register_cases (fs : FrameSyncInfo) (ch : ℕ) : fs.registerChannel ch = (-1, fs) ∨ ∃ base i,
      (base = fs ∨ fs.numCam = 0 ∧ base = reset) ∧ base.chObj.findIdx? (· == none) = some i ∧
        fs.registerChannel ch = (0, enroll base i ch) := by
  rw [registerChannel]
  split
  · exact .inl rfl
  by_cases hzero : fs.numCam = 0
  · exact .inr ⟨reset, 0, .inr ⟨hzero, rfl⟩, rfl, by simp [hzero]; rfl⟩
  simp only [hzero, if_false]
  split
  · rename_i i hi
    exact .inr ⟨fs, i, .inl rfl, hi, rfl⟩
  · exact .inl rfl

/-- The table in which slot `i` is free again. -/
def dismiss (fs : FrameSyncInfo) (i : ℕ) : FrameSyncInfo :=
  { fs with chObj := fs.chObj.set i none, numCam := fs.numCam - 1 }

/-- `mm_frame_sync_unregister_channel`: nothing happens, or the slot of the channel is free
again, or nobody is registered and the table is reset. -/
theorem unregister_cases (fs : FrameSyncInfo) (ch : ℕ) :
    (fs.unregisterChannel ch).2 = fs ∨ (fs.unregisterChannel ch).2 = reset ∨
      ∃ i, fs.chObj.findIdx? (· == some ch) = some i ∧ (fs.unregisterChannel ch).2 = dismiss fs i := by
  rw [unregisterChannel]
  split
  · exact .inl rfl
  dsimp only
  split
  · rename_i i hi
    split
    · exact .inr (.inl rfl)
    · exact .inr (.inr ⟨i, hi, rfl⟩)
  · split
    · exact .inr (.inl rfl)
    · exact .inl rfl

/-! ### Tables stay well formed -/

variable {frameId k : ℕ} {m : MmChannelSyncNode}

theorem Entry.frameIdx_eq (h : Entry fs frameId k m) : m.frameIdx = frameId := by
  cases h with
  | listed _ hid => exact hid
  | fresh _ => rfl

theorem Entry.length_valid (h : Entry fs frameId k m) (hw : WellFormed fs) :
    m.frameValid.length = maxNumCameraPerBundle := by
  cases h with
  | listed hm _ => exact hw.valid m (mem_of_getElem? hm)
  | fresh _ => rfl

variable {j : ℕ}

theorem Entry.unique (h : Entry fs frameId k m) (hw : WellFormed fs) (hid : frameId ≠ 0)
    {b : MmChannelSyncNode} (hb : fs.node[j]? = some b) (hj : j ≠ k) : b.frameIdx ≠ frameId := by
  cases h with
  | listed hm hk =>
    intro hbid
    exact hj (hw.unique j k b m hb hm (hbid ▸ hid) (hbid.trans hk.symm))
  | fresh hnew => exact hnew b (mem_of_getElem? hb)

theorem WellFormed.mark (hw : WellFormed fs) (hm : Entry fs frameId k m) (hid : frameId ≠ 0) :
    WellFormed { fs with pos := pos, node := fs.node.set k (FsHistory.mark fs i m) } := by
  have hframe : (FsHistory.mark fs i m).frameIdx = frameId :=
    (settle_frameIdx _ _).trans hm.frameIdx_eq
  refine hw.put ?_ (fun h => absurd (hframe.symm.trans h) hid) fun _ j b hb hj => ?_
  · rw [FsHistory.mark, settle_frameValid, length_set]
    exact hm.length_valid hw
  · rw [hframe]
    exact hm.unique hw hid hb hj

theorem WellFormed.clear (hw : WellFormed fs) (k : ℕ) : WellFormed { fs with node := fs.node.set k {} } :=
  have hput : WellFormed { fs with pos := fs.pos, node := fs.node.set k {} } :=
    hw.put rfl (fun _ => rfl) fun h => absurd rfl h
  hput

variable {ch : ℕ}

theorem WellFormed.enroll (hw : WellFormed fs)
    (hi : fs.chObj.findIdx? (· == none) = some i) : WellFormed (enroll fs i ch) where
  nodes := hw.nodes
  slots := (length_set ..).trans hw.slots
  cams := by
    obtain ⟨hlt, hfree, -⟩ := findIdx?_eq_some_iff_getElem.mp hi
    have hnone : fs.chObj[i] = none := by simpa using hfree
    simp only [FsHistory.enroll, hw.cams]
    rw [countP_set hlt, hnone]
    simp
  valid := hw.valid
  empty := hw.empty
  unique := hw.unique

theorem WellFormed.dismiss (hw : WellFormed fs)
    (hi : fs.chObj.findIdx? (· == some ch) = some i) : WellFormed (dismiss fs i) where
  nodes := hw.nodes
  slots := (length_set ..).trans hw.slots
  cams := by
    obtain ⟨hlt, hheld, -⟩ := findIdx?_eq_some_iff_getElem.mp hi
    have hsome : fs.chObj[i] = some ch := by simpa using hheld
    simp only [FsHistory.dismiss, hw.cams]
    rw [countP_set hlt, hsome]
    simp
  valid := hw.valid
  empty := hw.empty
  unique := hw.unique

theorem getElem?_of_findIdx? {slot : Option ℕ}
    (hi : fs.chObj.findIdx? (· == slot) = some i) : fs.chObj[i]? = some slot := by
  obtain ⟨hlt, hheld, -⟩ := findIdx?_eq_some_iff_getElem.mp hi
  rw [getElem?_eq_getElem hlt]
  simpa using hheld

theorem getElem?_set_cases {α : Type} {l : List α} {a b : α}
    (h : (l.set i a)[j]? = some b) : (i = j ∧ b = a) ∨ (i ≠ j ∧ l[j]? = some b) := by
  rw [getElem?_set] at h
  split at h
  · rename_i hij
    split at h
    · exact .inl ⟨hij, (Option.some.inj h).symm⟩
    · cases h
  · rename_i hij
    exact .inr ⟨hij, h⟩

theorem WellFormed.other_of_mem_set (hw : WellFormed fs) (hk : fs.node[k]? = some m) (hid : m.frameIdx = frameId)
    (hn : n ∈ fs.node.set k {}) : n = {} ∨ n ∈ fs.node ∧ n.frameIdx ≠ frameId := by
  obtain ⟨j, hj⟩ := mem_iff_getElem?.mp hn
  rcases getElem?_set_cases hj with ⟨-, rfl⟩ | ⟨hne, hj⟩
  · exact .inl rfl
  · have hmem := mem_of_getElem? hj
    by_cases hzero : n.frameIdx = 0
    · exact .inl (hw.empty n hmem hzero)
    · exact .inr ⟨hmem, fun hsame =>
        hne (hw.unique j k n m hj hk hzero (hsame.trans hid.symm)).symm⟩

/-! ### A matched frame was added by every channel -/

/-- Where a mark stands for a channel, or an entry is matched, the channels have added the
frame. -/
structure Sound (h : FsHistory) : Prop where
  wellFormed : WellFormed h.fs
  marks : ∀ n ∈ h.fs.node, ∀ (i ch : ℕ), n.frameValid[i]? = some true →
    h.fs.chObj[i]? = some (some ch) → (n.frameIdx, ch) ∈ h.added
  matched : ∀ n ∈ h.fs.node, n.matched = true → ∀ ch, Registered h.fs ch → (n.frameIdx, ch) ∈ h.added

/-- The entry is not matched, and not marked for the slot that the channel would take or for a slot
that it holds already. -/
def Untouched (fs : FrameSyncInfo) (ch : ℕ) (n : MmChannelSyncNode) : Prop :=
  n.matched = false ∧ ∀ i < maxNumCameraPerBundle, n.frameValid[i]? = some true →
    fs.chObj.findIdx? (· == none) ≠ some i ∧ fs.chObj[i]? ≠ some (some ch)

instance (fs : FrameSyncInfo) (ch : ℕ) : DecidablePred (Untouched fs ch) := fun n =>
  inferInstanceAs (Decidable (n.matched = false ∧ ∀ i < maxNumCameraPerBundle, _ → _))

/-- A channel registers only while it finds all entries untouched. -/
def Clean (h : FsHistory) : FsCall → Prop
  | .register ch => ∀ n ∈ h.fs.node, Untouched h.fs ch n
  | _ => True

instance (h : FsHistory) : DecidablePred (Clean h) := fun e => by
  delta Clean
  cases e <;> infer_instance

theorem not_marked : (List.replicate maxNumCameraPerBundle false)[i]? ≠ some true := fun hmark =>
  Bool.false_ne_true (eq_of_mem_replicate (mem_of_getElem? hmark)).symm

variable {added : List (ℕ × ℕ)}

theorem sound_empty : Sound { fs := reset, added := added } where
  wellFormed := wellFormed_reset
  marks n hn i _ hmark _ := by
    obtain ⟨-, rfl⟩ := mem_replicate.mp hn
    exact absurd hmark not_marked
  matched n hn hmatched := by
    obtain ⟨-, rfl⟩ := mem_replicate.mp hn
    cases hmatched

theorem marked_of_count {valid : List Bool} {slots : List (Option ℕ)}
    (hvalid : valid.length = maxNumCameraPerBundle) (hslots : slots.length = maxNumCameraPerBundle)
    (hcount : valid.count true = slots.countP Option.isSome)
    (hi : valid[i]? = some true) (hch : slots[i]? = some (some ch)) {ch' : ℕ}
    (hj : slots[j]? = some (some ch')) : valid[j]? = some true := by
  obtain ⟨x, y, rfl⟩ := length_eq_two.mp hvalid
  obtain ⟨a, b, rfl⟩ := length_eq_two.mp hslots
  rcases i with _ | _ | i <;> rcases j with _ | _ | j <;> cases x <;> cases y <;> cases a <;>
    cases b <;> simp_all

/-- The registered channel in slot `i` marks an entry. -/
theorem Sound.mark (h : Sound ⟨fs, added⟩) (hid : frameId ≠ 0)
    (hi : fs.chObj.findIdx? (· == some ch) = some i) (hm : Entry fs frameId k m) :
    Sound { fs := { fs with pos := pos, node := fs.node.set k (FsHistory.mark fs i m) }
            added := (frameId, ch) :: added } := by
  have hw := h.wellFormed
  have hslot := getElem?_of_findIdx? hi
  have hframe : (FsHistory.mark fs i m).frameIdx = frameId :=
    (settle_frameIdx _ _).trans hm.frameIdx_eq
  have hmarks (j c : ℕ) (hj : (FsHistory.mark fs i m).frameValid[j]? = some true)
      (hc : fs.chObj[j]? = some (some c)) : (frameId, c) ∈ (frameId, ch) :: added := by
    rw [FsHistory.mark, settle_frameValid] at hj
    rcases getElem?_set_cases hj with ⟨rfl, -⟩ | ⟨-, hj⟩
    · obtain rfl : c = ch := by simpa using hc.symm.trans hslot
      exact mem_cons_self
    · cases hm with
      | listed hk hkid => exact mem_cons_of_mem _ (hkid ▸ h.marks m (mem_of_getElem? hk) j c hj hc)
      | fresh _ => exact absurd hj not_marked
  refine ⟨hw.mark hm hid, fun n hn j c hj hc => ?_, fun n hn hmatched c hreg => ?_⟩
  · rcases mem_or_eq_of_mem_set hn with hn | rfl
    · exact mem_cons_of_mem _ (h.marks n hn j c hj hc)
    · rw [hframe]
      exact hmarks j c hj hc
  · rcases mem_or_eq_of_mem_set hn with hn | rfl
    · exact mem_cons_of_mem _ (h.matched n hn hmatched c hreg)
    · rw [hframe]
      -- either the entry was matched before, or the marks are as many as the channels
      have hlen : (m.frameValid.set i true).length = maxNumCameraPerBundle :=
        (length_set ..).trans (hm.length_valid hw)
      have hset : (m.frameValid.set i true)[i]? = some true := by
        have hlt : i < m.frameValid.length := by
          rw [hm.length_valid hw, ← hw.slots]
          exact (findIdx?_eq_some_iff_getElem.mp hi).1
        rw [getElem?_set_self hlt]
      obtain ⟨j, hj⟩ := mem_iff_getElem?.mp hreg
      rcases settle_matched.mp hmatched with hbefore | hcount
      · cases hm with
        | listed hk hkid =>
          exact mem_cons_of_mem _ (hkid ▸ h.matched m (mem_of_getElem? hk) hbefore c hreg)
        | fresh _ =>
          have hone : fs.numCam = 1 := by simpa using hbefore
          have hcount : (set [false, false] i true).count true = fs.chObj.countP Option.isSome := by
            rw [← hw.cams, hone]
            rcases i with _ | _ | i
            · rfl
            · rfl
            · exact absurd hset (by simp [maxNumCameraPerBundle])
          exact hmarks j c (by
            rw [FsHistory.mark, settle_frameValid]
            exact marked_of_count hlen hw.slots hcount hset hslot hj) hj
      · exact hmarks j c (by
          rw [FsHistory.mark, settle_frameValid]
          exact marked_of_count hlen hw.slots (hcount.trans hw.cams) hset hslot hj) hj

theorem Sound.clear (h : Sound ⟨fs, added⟩) (hk : fs.node[k]? = some m) (hid : m.frameIdx = frameId) :
    Sound { fs := { fs with node := fs.node.set k {} }
            added := added.filter (·.1 ≠ frameId) } := by
  have hw := h.wellFormed
  refine ⟨hw.clear k, fun n hn i c hmark hc => ?_, fun n hn hmatched c hreg => ?_⟩
  · rcases hw.other_of_mem_set hk hid hn with rfl | ⟨hn, hne⟩
    · exact absurd hmark not_marked
    · exact mem_filter.mpr ⟨h.marks n hn i c hmark hc, by simpa using hne⟩
  · rcases hw.other_of_mem_set hk hid hn with rfl | ⟨hn, hne⟩
    · cases hmatched
    · exact mem_filter.mpr ⟨h.matched n hn hmatched c hreg, by simpa using hne⟩

theorem Sound.enroll (h : Sound ⟨fs, added⟩) (hi : fs.chObj.findIdx? (· == none) = some i)
    (hclean : ∀ n ∈ fs.node, n.matched = false ∧ ∀ j, n.frameValid[j]? = some true →
      j ≠ i ∧ fs.chObj[j]? ≠ some (some ch)) :
    Sound { fs := FsHistory.enroll fs i ch, added := added.filter (·.2 ≠ ch) } where
  wellFormed := h.wellFormed.enroll hi
  marks n hn j c hmark hc := by
    obtain ⟨-, hmarks⟩ := hclean n hn
    obtain ⟨hne, hnot⟩ := hmarks j hmark
    rcases getElem?_set_cases hc with ⟨rfl, -⟩ | ⟨-, hc⟩
    · exact absurd rfl hne
    · refine mem_filter.mpr ⟨h.marks n hn j c hmark hc, ?_⟩
      have hother : c ≠ ch := fun hsame => hnot (hsame ▸ hc)
      simpa using hother
  matched n hn hmatched := by
    rw [(hclean n hn).1] at hmatched
    cases hmatched

theorem Sound.dismiss (h : Sound ⟨fs, added⟩) (hi : fs.chObj.findIdx? (· == some ch) = some i) :
    Sound { fs := FsHistory.dismiss fs i, added := added } where
  wellFormed := h.wellFormed.dismiss hi
  marks n hn j c hmark hc := by
    rcases getElem?_set_cases hc with ⟨-, hnone⟩ | ⟨-, hc⟩
    · cases hnone
    · exact h.marks n hn j c hmark hc
  matched n hn hmatched c hreg := by
    rcases mem_or_eq_of_mem_set hreg with hreg | hnone
    · exact h.matched n hn hmatched c hreg
    · cases hnone

/-- **One call.** -/
theorem Sound.call {h : FsHistory} (hs : Sound h) {c : FsCall} (hclean : Clean h c) : Sound (h.call c) := by
  obtain ⟨fs, added⟩ := h
  cases c with
  | register ch =>
    rcases register_cases fs ch with heq | ⟨base, i, hbase, hi, heq⟩
    · simp only [FsHistory.call, heq]
      exact hs
    · simp only [FsHistory.call, heq, if_true]
      rcases hbase with rfl | ⟨-, rfl⟩
      · refine hs.enroll hi fun n hn => ⟨(hclean n hn).1, fun j hj => ?_⟩
        have hlt : j < maxNumCameraPerBundle := by
          rw [← hs.wellFormed.valid n hn]
          exact (List.getElem?_eq_some_iff.mp hj).1
        obtain ⟨hfree, hheld⟩ := (hclean n hn).2 j hlt hj
        exact ⟨fun hsame => hfree (hsame ▸ hi), hheld⟩
      · refine sound_empty.enroll hi fun n hn => ?_
        obtain ⟨-, rfl⟩ := mem_replicate.mp hn
        exact ⟨rfl, fun j hj => absurd hj not_marked⟩
  | unregister ch =>
    simp only [FsHistory.call]
    rcases unregister_cases fs ch with heq | heq | ⟨i, hi, heq⟩
    · rw [heq]
      exact hs
    · rw [heq]
      exact sound_empty
    · rw [heq]
      exact hs.dismiss hi
  | add frameId ch =>
    rcases add_cases fs frameId ch with heq | ⟨hid, i, k, m, pos, hi, hm, heq⟩
    · simp only [FsHistory.call, heq]
      exact hs
    · simp only [FsHistory.call, heq, if_true]
      exact hs.mark hid hi hm
  | remove frameId =>
    simp only [FsHistory.call]
    rcases remove_cases fs frameId with ⟨heq, hnone⟩ | ⟨k, m, hk, hid, heq⟩
    · rw [heq]
      have hkept {n : MmChannelSyncNode} {ch : ℕ} (hn : n ∈ fs.node) (hne : n ≠ {}) (hmem : (n.frameIdx, ch) ∈ added) :
          (n.frameIdx, ch) ∈ added.filter (·.1 ≠ frameId) := by
        refine mem_filter.mpr ⟨hmem, ?_⟩
        rcases hnone with rfl | hnone
        · simpa using fun hzero => hne (hs.wellFormed.empty n hn hzero)
        · simpa using hnone n hn
      refine ⟨hs.wellFormed, fun n hn i c hmark hc => ?_, fun n hn hmatched c hreg => ?_⟩
      · refine hkept hn (fun hempty => ?_) (hs.marks n hn i c hmark hc)
        subst hempty
        exact not_marked hmark
      · refine hkept hn (fun hempty => ?_) (hs.matched n hn hmatched c hreg)
        subst hempty
        cases hmatched
    · rw [heq]
      exact hs.clear hk hid

theorem findMatchedFrom_mem (oldest : Bool) (l : List MmChannelSyncNode) (frameIdx : ℕ) :
    findMatchedFrom oldest l frameIdx = frameIdx ∨
      ∃ n ∈ l, n.matched = true ∧ findMatchedFrom oldest l frameIdx = n.frameIdx := by
  induction l generalizing frameIdx with
  | nil => exact .inl rfl
  | cons n rest ih =>
    have hrest (found : ℕ) (hfound : found = frameIdx ∨ found = n.frameIdx)
        (hn : n.matched = true) : findMatchedFrom oldest rest found = frameIdx ∨
          ∃ m ∈ n :: rest, m.matched = true ∧ findMatchedFrom oldest rest found = m.frameIdx := by
      rcases ih found with h | ⟨m, hm, hmatched, h⟩
      · rcases hfound with rfl | rfl
        · exact .inl h
        · exact .inr ⟨n, mem_cons_self, hn, h⟩
      · exact .inr ⟨m, mem_cons_of_mem _ hm, hmatched, h⟩
    rw [findMatchedFrom]
    split
    · rename_i hn
      have hfound : (if frameIdx = 0 then n.frameIdx else frameIdx) = frameIdx ∨
          (if frameIdx = 0 then n.frameIdx else frameIdx) = n.frameIdx := by
        split
        · exact .inr rfl
        · exact .inl rfl
      generalize (if frameIdx = 0 then n.frameIdx else frameIdx) = found at hfound
      dsimp only
      split
      · refine hrest _ ?_ hn
        rcases Nat.le_total found n.frameIdx with hle | hle
        · rw [Nat.min_eq_left hle]
          exact hfound
        · exact .inr (Nat.min_eq_right hle)
      · rcases hfound with h | h
        · exact .inl h
        · exact .inr ⟨n, mem_cons_self, hn, h⟩
    · rcases ih frameIdx with h | ⟨m, hm, hmatched, h⟩
      · exact .inl h
      · exact .inr ⟨m, mem_cons_of_mem _ hm, hmatched, h⟩

/-- **Matched frames.** While the channels only register when no entry is matched or marked for
a slot of theirs, a frame that is reported as matched was added by every registered channel. -/
theorem matched_run {calls : List FsCall} {h : FsHistory} (hrun : Run (guarded Clean Step) {} calls h) (oldest : Bool)
    (hfound : h.fs.findMatched oldest ≠ 0) (ch : ℕ) (hreg : Registered h.fs ch) :
    (h.fs.findMatched oldest, ch) ∈ h.added := by
  have hsound : Sound h := by
    refine hrun.invariant (fun s c t hs hstep => ?_) sound_empty
    obtain ⟨hclean, rfl⟩ := hstep
    exact hs.call hclean
  rcases findMatchedFrom_mem oldest h.fs.node 0 with hnone | ⟨n, hn, hmatched, heq⟩
  · exact absurd hnone hfound
  · rw [findMatched, heq]
    exact hsound.matched n hn hmatched ch hreg

/-- Two cameras and a frame of both. -/
theorem matched_run_dual : ∃ calls h, Run (guarded Clean Step) {} calls h ∧
    h.fs.findMatched false = 5 ∧ (5, 1) ∈ h.added ∧ (5, 2) ∈ h.added := by
  have hone : Run (guarded Clean Step) {} [.register 1] _ := .single ⟨by decide, rfl⟩
  have hrun := ((hone.snoc (a := .register 2) ⟨by decide, rfl⟩).snoc (a := .add 5 1)
    ⟨by decide, rfl⟩).snoc (a := .add 5 2) ⟨by decide, rfl⟩
  exact ⟨_, _, hrun, by decide, matched_run hrun false (by decide) 1 (by decide),
    matched_run hrun false (by decide) 2 (by decide)⟩

/-- A frame that the first camera matched alone is still reported as matched once a second camera
has registered. -/
theorem not_matched_run : ¬ ∀ calls h, Run Step {} calls h → ∀ oldest,
    h.fs.findMatched oldest ≠ 0 → ∀ ch, Registered h.fs ch → (h.fs.findMatched oldest, ch) ∈ h.added := by
  intro hall
  have hone : Run Step {} [.register 1] _ := .single rfl
  have hrun := (hone.snoc (a := .add 5 1) rfl).snoc (a := .register 2) rfl
  exact absurd (hall _ _ hrun false (by decide) 2 (by decide)) (by decide)

end FsHistory

end Marlin
