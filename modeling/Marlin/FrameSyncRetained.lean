import Mathlib.Data.List.Dedup
import Marlin.FrameSyncHistory

/-!
# Retention of Live Frames

Every live frame should still be in the frame-sync table, marked for the channels that added
it, and the only frame that all channels added should be found. But `mm_frame_sync_add` takes the
entry at the position counter for a new frame without looking whether a live frame is there, while
removals free entries in any order.

## Main results

* `retained_iff`: the live frames are retained all along a run of additions and removals exactly
  when each new frame finds the entry at the position counter free.
* `not_retained`: four live frames are already too many, and so is a channel with two slots.
-/

namespace Marlin

open List Option Transition

namespace FsHistory

open FrameSyncInfo

/-- The entry is marked for the channel. -/
def Marked (fs : FrameSyncInfo) (n : MmChannelSyncNode) (ch : ℕ) : Prop :=
  ∃ i, fs.chObj.findIdx? (· == some ch) = some i ∧ n.frameValid[i]? = some true

/-- The frame was added by every registered channel. -/
def AddedByAll (h : FsHistory) (frameId : ℕ) : Prop :=
  ∀ ch, Registered h.fs ch → (frameId, ch) ∈ h.added

/-- The live frames are in the table, marked for the channels that added them; the only frame that
all channels added is found. -/
structure Retained (h : FsHistory) : Prop where
  kept : ∀ frameId ch, (frameId, ch) ∈ h.added → ∃ n ∈ h.fs.node, n.frameIdx = frameId ∧ Marked h.fs n ch
  found : ∀ frameId, AddedByAll h frameId → (∀ other, AddedByAll h other → other = frameId) →
    ∀ oldest, h.fs.findMatched oldest = frameId

/-- A table to which no frame has been added yet, with channels that hold one slot each. -/
structure Ready (fs : FrameSyncInfo) : Prop where
  wellFormed : WellFormed fs
  empty : ∀ n ∈ fs.node, n = {}
  distinct : ∀ (i j ch : ℕ), fs.chObj[i]? = some (some ch) → fs.chObj[j]? = some (some ch) → i = j

/-- A call that adds or removes a frame. -/
def FsCall.isFrame : FsCall → Bool
  | .add _ _ | .remove _ => true
  | .register _ | .unregister _ => false

/-- Additions and removals. -/
def FrameStep : FsHistory → FsCall → FsHistory → Prop :=
  guarded (fun _ c => FsCall.isFrame c = true) Step

/-- A new frame finds the entry at the position counter free. -/
def Fits (h : FsHistory) : FsCall → Prop
  | .add frameId ch => (h.fs.add frameId ch).1 = 0 → h.fs.findFrameIndex frameId = none →
      (h.fs.node.getD (nextIndex h.fs) {}).frameIdx = 0
  | _ => True

instance (h : FsHistory) : DecidablePred (Fits h)
  | .add _ _ => inferInstanceAs (Decidable (_ → _ → _))
  | .register _ | .unregister _ | .remove _ => isTrue trivial

/-- The invariant of the runs in which every new frame fits. -/
structure Keeps (h : FsHistory) : Prop where
  sound : Sound h
  distinct : ∀ (i j ch : ℕ), h.fs.chObj[i]? = some (some ch) → h.fs.chObj[j]? = some (some ch) → i = j
  slots : ∀ n ∈ h.fs.node, ∀ i : ℕ, n.frameValid[i]? = some true → ∃ ch, h.fs.chObj[i]? = some (some ch)
  settled : ∀ n ∈ h.fs.node, n.frameIdx ≠ 0 → n.frameValid.count true = h.fs.numCam → n.matched = true
  kept : ∀ frameId ch, (frameId, ch) ∈ h.added →
    ∃ n ∈ h.fs.node, n.frameIdx = frameId ∧ Marked h.fs n ch
  live : ∀ n ∈ h.fs.node, n.frameIdx ≠ 0 → ∃ ch, (n.frameIdx, ch) ∈ h.added

variable {fs : FrameSyncInfo}

theorem Ready.keeps (h : Ready fs) : Keeps { fs := fs } where
  sound := {
    wellFormed := h.wellFormed
    marks := fun n hn i _ hmark _ => by
      rw [h.empty n hn] at hmark
      exact absurd hmark not_marked
    matched := fun n hn hmatched => by
      rw [h.empty n hn] at hmatched
      cases hmatched }
  distinct := h.distinct
  slots n hn i hmark := by
    rw [h.empty n hn] at hmark
    exact absurd hmark not_marked
  settled n hn hne := absurd (congrArg MmChannelSyncNode.frameIdx (h.empty n hn)) hne
  kept _ _ hmem := absurd hmem not_mem_nil
  live n hn hne := absurd (congrArg MmChannelSyncNode.frameIdx (h.empty n hn)) hne

theorem ready_reset : Ready reset where
  wellFormed := wellFormed_reset
  empty _ hn := (mem_replicate.mp hn).2
  distinct i _ _ hi _ := by
    have hnone := eq_of_mem_replicate (mem_of_getElem? hi)
    cases hnone

variable {ch : ℕ}

theorem Ready.register (h : Ready fs) (hnew : ¬ Registered fs ch) : Ready (fs.registerChannel ch).2 := by
  have henroll {base : FrameSyncInfo} {i : ℕ} (h : Ready base) (hnew : ¬ Registered base ch)
      (hi : base.chObj.findIdx? (· == none) = some i) : Ready (enroll base i ch) := by
    refine ⟨h.wellFormed.enroll hi, h.empty, fun j k c hj hk => ?_⟩
    rcases getElem?_set_cases hj with ⟨rfl, hc⟩ | ⟨-, hj⟩ <;>
      rcases getElem?_set_cases hk with ⟨rfl, hc'⟩ | ⟨-, hk⟩
    · rfl
    · exact absurd (some.inj hc ▸ mem_of_getElem? hk) hnew
    · exact absurd (some.inj hc' ▸ mem_of_getElem? hj) hnew
    · exact h.distinct j k c hj hk
  rcases register_cases fs ch with heq | ⟨base, i, rfl | ⟨-, rfl⟩, hi, heq⟩
  · rw [heq]
    exact h
  · rw [heq]
    exact henroll h hnew hi
  · rw [heq]
    refine henroll ready_reset (fun hreg => ?_) hi
    have hnone := eq_of_mem_replicate hreg
    cases hnone

theorem Marked.frameIdx_ne (hw : WellFormed fs) {n : MmChannelSyncNode} (h : Marked fs n ch)
    (hn : n ∈ fs.node) : n.frameIdx ≠ 0 := by
  intro hzero
  obtain ⟨i, -, hmark⟩ := h
  rw [hw.empty n hn hzero] at hmark
  exact not_marked hmark

/-- The registered channel in slot `i` marks an entry, which is free if the frame is new. -/
theorem Keeps.mark {added : List (ℕ × ℕ)} (h : Keeps ⟨fs, added⟩)
    {frameId k i pos : ℕ} {m : MmChannelSyncNode} (hid : frameId ≠ 0)
    (hi : fs.chObj.findIdx? (· == some ch) = some i) (hm : Entry fs frameId k m)
    (hfree : (∀ b ∈ fs.node, b.frameIdx ≠ frameId) → (fs.node.getD k {}).frameIdx = 0) :
    Keeps { fs := { fs with pos := pos, node := fs.node.set k (FsHistory.mark fs i m) }
            added := (frameId, ch) :: added } := by
  have hw := h.sound.wellFormed
  have hlt : i < m.frameValid.length := by
    rw [hm.length_valid hw, ← hw.slots]
    exact (findIdx?_eq_some_iff_getElem.mp hi).1
  have hframe : (FsHistory.mark fs i m).frameIdx = frameId :=
    (settle_frameIdx _ _).trans hm.frameIdx_eq
  have hvalid : (FsHistory.mark fs i m).frameValid = m.frameValid.set i true := settle_frameValid _ _
  have hk : k < fs.node.length := by
    cases hm with
    | listed hk _ => exact (List.getElem?_eq_some_iff.mp hk).1
    | fresh _ =>
      rw [hw.nodes, nextIndex]
      split
      · decide
      · rename_i hpos
        exact Nat.lt_of_not_le hpos
  have hnew : FsHistory.mark fs i m ∈ fs.node.set k (FsHistory.mark fs i m) := mem_set hk _
  refine ⟨h.sound.mark hid hi hm, h.distinct, fun n hn j hj => ?_, fun n hn hne hcount => ?_,
    fun id c hmem => ?_, fun n hn hne => ?_⟩
  · rcases mem_or_eq_of_mem_set hn with hn | rfl
    · exact h.slots n hn j hj
    · rw [hvalid] at hj
      rcases getElem?_set_cases hj with ⟨rfl, -⟩ | ⟨-, hj⟩
      · exact ⟨ch, getElem?_of_findIdx? hi⟩
      · cases hm with
        | listed hk _ => exact h.slots m (mem_of_getElem? hk) j hj
        | fresh _ => exact absurd hj not_marked
  · rcases mem_or_eq_of_mem_set hn with hn | rfl
    · exact h.settled n hn hne hcount
    · exact settle_matched.mpr (.inr (by rwa [hvalid] at hcount))
  · rcases mem_cons.mp hmem with heq | hmem
    · obtain ⟨rfl, rfl⟩ := Prod.mk.injEq .. ▸ heq
      exact ⟨_, hnew, hframe, i, hi, by rw [hvalid, getElem?_set_self hlt]⟩
    · obtain ⟨n, hn, hnid, hmarked⟩ := h.kept id c hmem
      obtain ⟨l, hl⟩ := mem_iff_getElem?.mp hn
      by_cases hlk : k = l
      · subst hlk
        cases hm with
        | listed hk hkid =>
          obtain rfl := some.inj (hk.symm.trans hl)
          obtain ⟨j, hj, hmark⟩ := hmarked
          refine ⟨_, hnew, hframe.trans (hkid.symm.trans hnid), j, hj, ?_⟩
          rw [hvalid]
          by_cases hij : i = j
          · subst hij
            rw [getElem?_set_self hlt]
          · rw [getElem?_set_ne hij]
            exact hmark
        | fresh hfresh =>
          have hzero := hfree hfresh
          rw [getD_eq_getElem?_getD, hl] at hzero
          exact absurd hzero (hmarked.frameIdx_ne hw hn)
      · refine ⟨n, mem_of_getElem? (i := l) ?_, hnid, hmarked⟩
        rw [getElem?_set_ne hlk]
        exact hl
  · rcases mem_or_eq_of_mem_set hn with hn | rfl
    · obtain ⟨c, hc⟩ := h.live n hn hne
      exact ⟨c, mem_cons_of_mem _ hc⟩
    · exact ⟨ch, hframe ▸ mem_cons_self⟩

theorem Keeps.clear {added : List (ℕ × ℕ)} (h : Keeps ⟨fs, added⟩)
    {frameId k : ℕ} {m : MmChannelSyncNode} (hk : fs.node[k]? = some m) (hid : m.frameIdx = frameId) :
    Keeps { fs := { fs with node := fs.node.set k {} }
            added := added.filter (·.1 ≠ frameId) } := by
  have hw := h.sound.wellFormed
  refine ⟨h.sound.clear hk hid, h.distinct, fun n hn j hj => ?_, fun n hn hne hcount => ?_,
    fun id c hmem => ?_, fun n hn hne => ?_⟩
  · rcases mem_or_eq_of_mem_set hn with hn | rfl
    · exact h.slots n hn j hj
    · exact absurd hj not_marked
  · rcases mem_or_eq_of_mem_set hn with hn | rfl
    · exact h.settled n hn hne hcount
    · exact absurd rfl hne
  · obtain ⟨hmem, hother⟩ := mem_filter.mp hmem
    obtain ⟨n, hn, hnid, hmarked⟩ := h.kept id c hmem
    obtain ⟨l, hl⟩ := mem_iff_getElem?.mp hn
    have hne : id ≠ frameId := by simpa using hother
    have hlk : k ≠ l := by
      rintro rfl
      obtain rfl := some.inj (hk.symm.trans hl)
      exact hne (hnid.symm.trans hid)
    refine ⟨n, mem_of_getElem? (i := l) ?_, hnid, hmarked⟩
    rw [getElem?_set_ne hlk]
    exact hl
  · rcases hw.other_of_mem_set hk hid hn with rfl | ⟨hn, hother⟩
    · exact absurd rfl hne
    · obtain ⟨c, hc⟩ := h.live n hn hne
      exact ⟨c, mem_filter.mpr ⟨hc, by simpa using hother⟩⟩

variable {h : FsHistory}

theorem Keeps.call (hk : Keeps h) {c : FsCall} (hframe : FsCall.isFrame c = true)
    (hfits : Fits h c) : Keeps (h.call c) := by
  obtain ⟨fs, added⟩ := h
  cases c with
  | register _ => cases hframe
  | unregister _ => cases hframe
  | add frameId ch =>
    rcases add_cases fs frameId ch with heq | ⟨hid, i, k, m, pos, hi, hm, heq⟩
    · simp only [FsHistory.call, heq]
      exact hk
    · simp only [FsHistory.call, heq, if_true]
      refine hk.mark hid hi hm fun hnew => ?_
      cases hm with
      | listed hk hkid => exact absurd hkid (hnew m (mem_of_getElem? hk))
      | fresh _ =>
        refine hfits (congrArg Prod.fst heq) (findIdx?_eq_none_iff.mpr fun b hb => ?_)
        simpa using hnew b hb
  | remove frameId =>
    simp only [FsHistory.call]
    rcases remove_cases fs frameId with ⟨heq, hnone⟩ | ⟨k, m, hm, hid, heq⟩
    · have hsound := hk.sound.call (c := .remove frameId) trivial
      simp only [FsHistory.call, heq] at hsound
      rw [heq]
      refine ⟨hsound, hk.distinct, hk.slots, hk.settled,
        fun id c hmem => hk.kept id c (mem_of_mem_filter hmem), fun n hn hne => ?_⟩
      obtain ⟨c, hc⟩ := hk.live n hn hne
      refine ⟨c, mem_filter.mpr ⟨hc, ?_⟩⟩
      rcases hnone with rfl | hnone
      · simpa using hne
      · simpa using hnone n hn
    · rw [heq]
      exact hk.clear hm hid

theorem Keeps.count_eq (hk : Keeps h) {n : MmChannelSyncNode} (hn : n ∈ h.fs.node)
    (hall : ∀ ch, Registered h.fs ch → Marked h.fs n ch) :
    n.frameValid.count true = h.fs.numCam := by
  have hw := hk.sound.wellFormed
  have hmarks : n.frameValid = h.fs.chObj.map isSome := by
    refine ext_getElem? fun i => ?_
    rw [getElem?_map]
    have hlen := (hw.valid n hn).trans hw.slots.symm
    cases hslot : h.fs.chObj[i]? with
    | none =>
      rw [getElem?_eq_none_iff] at hslot
      rw [map_none, getElem?_eq_none_iff, hlen]
      exact hslot
    | some slot =>
      have hlt : i < n.frameValid.length := hlen ▸ (List.getElem?_eq_some_iff.mp hslot).1
      rw [map_some, getElem?_eq_getElem hlt]
      cases slot with
      | none =>
        cases hv : n.frameValid[i] with
        | false => rfl
        | true =>
          obtain ⟨ch, hch⟩ := hk.slots n hn i ((getElem?_eq_getElem hlt).trans (congrArg _ hv))
          cases hslot.symm.trans hch
      | some ch =>
        obtain ⟨j, hj, hmark⟩ := hall ch (mem_of_getElem? hslot)
        obtain rfl := hk.distinct i j ch hslot (getElem?_of_findIdx? hj)
        rw [← getElem?_eq_getElem hlt, hmark]
        rfl
  rw [hmarks, hw.cams, count, countP_map]
  exact countP_congr fun slot _ => by simp

theorem findMatchedFrom_ne_zero (oldest : Bool) (l : List MmChannelSyncNode) (frameIdx : ℕ)
    (hl : ∀ n ∈ l, n.matched = true → n.frameIdx ≠ 0)
    (hsome : frameIdx ≠ 0 ∨ ∃ n ∈ l, n.matched = true) :
    findMatchedFrom oldest l frameIdx ≠ 0 := by
  induction l generalizing frameIdx with
  | nil => simpa [findMatchedFrom] using hsome
  | cons n rest ih =>
    have hrest := fun m hm => hl m (mem_cons_of_mem n hm)
    rw [findMatchedFrom]
    split
    · rename_i hn
      have hne := hl n mem_cons_self hn
      have hfound : (if frameIdx = 0 then n.frameIdx else frameIdx) ≠ 0 := by
        split
        · exact hne
        · assumption
      generalize (if frameIdx = 0 then n.frameIdx else frameIdx) = found at hfound
      dsimp only
      split
      · refine ih _ hrest (.inl ?_)
        rcases Nat.le_total found n.frameIdx with hle | hle
        · rwa [Nat.min_eq_left hle]
        · rwa [Nat.min_eq_right hle]
      · exact hfound
    · rename_i hn
      refine ih _ hrest (hsome.imp_right ?_)
      rintro ⟨m, hm, hmatched⟩
      rcases mem_cons.mp hm with rfl | hm
      · exact absurd hmatched hn
      · exact ⟨m, hm, hmatched⟩

/-- The invariant says more than what is asked. -/
theorem Keeps.retained (hk : Keeps h) : Retained h where
  kept := hk.kept
  found frameId hall honly oldest := by
    have hw := hk.sound.wellFormed
    -- some channel is registered, or every frame would be added by all of them
    obtain ⟨ch, hreg⟩ : ∃ ch, Registered h.fs ch := by
      by_contra hnone
      have hany (other : ℕ) : AddedByAll h other := fun ch hreg => absurd ⟨ch, hreg⟩ hnone
      exact absurd (honly (frameId + 1) (hany _)) (Nat.succ_ne_self _)
    obtain ⟨n, hn, rfl, hmarked⟩ := hk.kept frameId ch (hall ch hreg)
    have hne := hmarked.frameIdx_ne hw hn
    have hmarks (c : ℕ) (hc : Registered h.fs c) : Marked h.fs n c := by
      obtain ⟨m, hm, hid, hmarked⟩ := hk.kept n.frameIdx c (hall c hc)
      obtain ⟨i, hi⟩ := mem_iff_getElem?.mp hn
      obtain ⟨j, hj⟩ := mem_iff_getElem?.mp hm
      obtain rfl := hw.unique i j n m hi hj hne hid.symm
      obtain rfl := some.inj (hi.symm.trans hj)
      exact hmarked
    have hmatched := hk.settled n hn hne (hk.count_eq hn hmarks)
    have hfound : h.fs.findMatched oldest ≠ 0 := by
      refine findMatchedFrom_ne_zero oldest _ 0 (fun m hm hm' hzero => ?_) (.inr ⟨n, hn, hmatched⟩)
      rw [hw.empty m hm hzero] at hm'
      cases hm'
    rcases findMatchedFrom_mem oldest h.fs.node 0 with hnone | ⟨m, hm, hm', heq⟩
    · exact absurd hnone hfound
    · exact heq.trans (honly m.frameIdx fun c hc => hk.sound.matched m hm hm' c hc)

theorem Keeps.fits_of_retained (hk : Keeps h) {c : FsCall} (hret : Retained (h.call c)) : Fits h c := by
  obtain ⟨fs, added⟩ := h
  cases c with
  | register _ => trivial
  | unregister _ => trivial
  | remove _ => trivial
  | add frameId ch =>
    intro hrc hnone
    have hnew (b : MmChannelSyncNode) (hb : b ∈ fs.node) : b.frameIdx ≠ frameId := by
      simpa using findIdx?_eq_none_iff.mp hnone b hb
    rcases add_cases fs frameId ch with heq | ⟨hid, i, k, m, pos, hi, hm, heq⟩
    · rw [heq] at hrc
      cases hrc
    cases hm with
    | listed hm hmid => exact absurd hmid (hnew m (mem_of_getElem? hm))
    | fresh _ =>
      by_contra hused
      -- the entry is of a live frame, which is not in the table any more
      cases hb : fs.node[nextIndex fs]? with
      | none => simp [getD_eq_getElem?_getD, hb] at hused
      | some b =>
        have hne : b.frameIdx ≠ 0 := by simpa [getD_eq_getElem?_getD, hb] using hused
        have hbmem := mem_of_getElem? hb
        obtain ⟨c, hc⟩ := hk.live b hbmem hne
        simp only [FsHistory.call, heq, if_true] at hret
        obtain ⟨n, hn, hnid, -⟩ := hret.kept b.frameIdx c (mem_cons_of_mem _ hc)
        obtain ⟨l, hl⟩ := mem_iff_getElem?.mp hn
        rcases getElem?_set_cases hl with ⟨-, rfl⟩ | ⟨hkl, hl⟩
        · refine hnew b hbmem (hnid.symm.trans ?_)
          exact settle_frameIdx _ _
        · exact hkl (hk.sound.wellFormed.unique _ l b n hb hl hne hnid.symm)

theorem Ready.keeps_run (hready : Ready fs) {calls : List FsCall}
    (hrun : Run (guarded Fits FrameStep) { fs := fs } calls h) : Keeps h := by
  refine hrun.invariant (fun s c t hk hstep => ?_) hready.keeps
  obtain ⟨hfits, hframe, rfl⟩ := hstep
  exact hk.call hframe hfits

/-- **Retained frames.** Whatever the channels add and remove, all live frames are retained all
along the run exactly when each new frame finds the entry at the position counter free. -/
theorem retained_iff {fs : FrameSyncInfo} (hready : Ready fs) {calls : List FsCall} {h : FsHistory}
    (hrun : Run FrameStep { fs := fs } calls h) :
    (∀ as bs u, calls = as ++ bs → Run FrameStep { fs := fs } as u → Retained u) ↔
      Run (guarded Fits FrameStep) { fs := fs } calls h := by
  constructor
  · intro hall
    induction hrun with
    | nil => exact .nil
    | snoc hbefore hstep ih =>
      rename_i as t u c
      have hfits := ih fun bs cs v heq hv => hall bs (cs ++ [c]) v (by simp [heq]) hv
      have hret := hall (as ++ [c]) [] u (by simp) (hbefore.snoc hstep)
      obtain ⟨hframe, rfl⟩ := hstep
      exact hfits.snoc ⟨(hready.keeps_run hfits).fits_of_retained hret, hframe, rfl⟩
  · rintro hfits as bs u rfl hu
    obtain ⟨v, hv⟩ := hfits.front
    obtain rfl := hv.of_guarded.unique (fun s c t t' ht ht' => ht.2.trans ht'.2.symm) hu
    exact (hready.keeps_run hv).retained

/-- The table of two cameras. -/
def dual : FrameSyncInfo := ((reset.registerChannel 1).2.registerChannel 2).2

theorem ready_dual : Ready dual := (ready_reset.register (by decide)).register (by decide)

/-- A frame of both cameras, and one of the first. -/
theorem retained_iff_dual : ∃ calls h, Run FrameStep { fs := dual } calls h ∧ h.added = [(6, 1), (5, 2), (5, 1)] ∧
      ∀ as bs u, calls = as ++ bs → Run FrameStep { fs := dual } as u → Retained u := by
  have hone : Run FrameStep { fs := dual } [.add 5 1] _ := .single ⟨rfl, rfl⟩
  have hrun := (hone.snoc (a := .add 5 2) ⟨rfl, rfl⟩).snoc (a := .add 6 1) ⟨rfl, rfl⟩
  have hfit : Run (guarded Fits FrameStep) { fs := dual } [.add 5 1] _ :=
    .single ⟨by decide, rfl, rfl⟩
  have hfits := (hfit.snoc (a := .add 5 2) ⟨by decide, rfl, rfl⟩).snoc (a := .add 6 1) ⟨by decide, rfl, rfl⟩
  exact ⟨_, _, hrun, by decide, (retained_iff ready_dual hrun).mpr hfits⟩

/-- At most as many frames are live as there are entries. -/
def FewLive (h : FsHistory) : Prop :=
  (h.added.map Prod.fst).dedup.length ≤ mmCameraFrameSyncNodes
deriving Decidable

/-- Additions and removals with few live frames. -/
def FewStep (h : FsHistory) (c : FsCall) (h' : FsHistory) : Prop := FrameStep h c h' ∧ FewLive h'

/-- Of four live frames the second is removed, and the next one takes the entry of the first. And a
channel that holds both slots counts twice, so that its frames are never matched. -/
theorem not_retained : (¬ ∀ fs, Ready fs → ∀ calls h, Run FewStep { fs := fs } calls h → Retained h) ∧
    ¬ ∀ fs, WellFormed fs → (∀ n ∈ fs.node, n = {}) → ∀ calls h,
      Run (guarded Fits FewStep) { fs := fs } calls h → Retained h := by
  constructor
  · intro hall
    have hone : Run FewStep { fs := dual } [.add 1 1] _ := .single ⟨⟨rfl, rfl⟩, by decide⟩
    have hrun := ((((hone.snoc (a := .add 2 1) ⟨⟨rfl, rfl⟩, by decide⟩).snoc
      (a := .add 3 1) ⟨⟨rfl, rfl⟩, by decide⟩).snoc (a := .add 4 1) ⟨⟨rfl, rfl⟩, by decide⟩).snoc
      (a := .remove 2) ⟨⟨rfl, rfl⟩, by decide⟩).snoc (a := .add 5 1) ⟨⟨rfl, rfl⟩, by decide⟩
    obtain ⟨n, hn, hid, -⟩ := (hall dual ready_dual _ _ hrun).kept 1 1 (by decide)
    revert n
    decide
  · intro hall
    have hone : Run (guarded Fits FewStep) { fs := ((reset.registerChannel 1).2.registerChannel 1).2 } [.add 5 1] _ :=
      .single ⟨by decide, ⟨rfl, rfl⟩, by decide⟩
    have hwell : WellFormed ((reset.registerChannel 1).2.registerChannel 1).2 :=
      have hfirst : WellFormed (reset.registerChannel 1).2 := wellFormed_reset.enroll rfl
      hfirst.enroll rfl
    have hret := hall _ hwell (by decide) _ _ hone
    have hfive := hret.found 5 (fun c hc => ?_) (fun other hother => ?_) false
    · exact absurd hfive (by decide)
    · have hslot : some c ∈ [some 1, some 1] := hc
      obtain rfl : c = 1 := by simpa using hslot
      decide
    · have hmem : (other, 1) ∈ [(5, 1)] := hother 1 (by decide)
      simpa using hmem

end FsHistory

end Marlin
