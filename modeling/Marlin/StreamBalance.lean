import Mathlib.Data.List.Nodup
import Mathlib.Data.List.Count
import Marlin.StreamBuffers
import Marlin.Transition

/-!
# Balance of the Stream Buffers

The memory objects of a stream are either still its own or deallocated, and what was mapped of a
deallocated one was unmapped before. Both are read off the same account, which every step of a call keeps.

## Conventions

* `Core live` is the account, where `live` are the objects that are not deallocated, each with a bound
  for the indices of its mapped buffers.
* `Sound` is the condition on a call under which the account is kept.

## Main results

* `Core.new`, `Core.map`, `Core.drop`: what the steps of a call do to the account.
* `balanced_run`: every buffer is unmapped once before its memory goes, every memory goes once, and a call
  that fails leaves nothing behind.
* `mapped_batch`: the batch buffers go while they are mapped.
-/

namespace Marlin

open List Transition

namespace QCameraStream

/-! ### The account -/

/-- **The account.** -/
structure Core (s : QCameraStream) (live : List (ℕ × ℕ)) : Prop where
  part : (live.map Prod.fst ++ s.deallocated).Perm (List.range s.nextObj)
  nodup : s.maps.Nodup
  mapped : ∀ b ∈ s.maps, b.1 ∈ s.deallocated ∧ s.unmaps.count b = 1 ∨ ∃ n, (b.1, n) ∈ live ∧ b.2 < n
  unmapped : ∀ b ∈ s.unmaps, b.1 ∈ s.deallocated
  left : s.left = []

variable {s t : QCameraStream} {live : List (ℕ × ℕ)} {id n count : ℕ} {env : BufEnv}

theorem Core.of_same (h : s.Core live) (hobj : t.nextObj = s.nextObj)
    (hdeallocated : t.deallocated = s.deallocated) (hmaps : t.maps = s.maps)
    (hunmaps : t.unmaps = s.unmaps) (hleft : t.left = s.left) : t.Core live where
  part := by rw [hdeallocated, hobj]; exact h.part
  nodup := by rw [hmaps]; exact h.nodup
  mapped := by rw [hmaps, hdeallocated, hunmaps]; exact h.mapped
  unmapped := by rw [hunmaps, hdeallocated]; exact h.unmapped
  left := by rw [hleft]; exact h.left

theorem Core.grow {n' : ℕ} (h : s.Core ((id, n) :: live)) (hle : n ≤ n') : s.Core ((id, n') :: live) where
  part := h.part
  nodup := h.nodup
  mapped b hb := by
    rcases h.mapped b hb with hdone | ⟨m, hmem, hlt⟩
    · exact .inl hdone
    · rcases mem_cons.mp hmem with heq | hmem
      · obtain ⟨hid, rfl⟩ := Prod.mk.inj heq
        exact .inr ⟨n', hid ▸ mem_cons_self, Nat.lt_of_lt_of_le hlt hle⟩
      · exact .inr ⟨m, mem_cons_of_mem _ hmem, hlt⟩
  unmapped := h.unmapped
  left := h.left

theorem Core.nodup_all (h : s.Core live) : (live.map Prod.fst ++ s.deallocated).Nodup :=
  h.part.nodup_iff.mpr nodup_range

theorem Core.live_not_deallocated (h : s.Core live) (hmem : (id, n) ∈ live) : id ∉ s.deallocated :=
  fun hgone => disjoint_of_nodup_append h.nodup_all (mem_map_of_mem hmem) hgone

/-- **A new object.** -/
theorem Core.new (h : s.Core live) (obj : MemObj) (n : ℕ) : (s.new obj).Core ((s.nextObj, n) :: live) where
  part := by
    have hperm := (h.part.cons s.nextObj).trans (perm_append_singleton _ _).symm
    rw [QCameraStream.new, range_succ]
    exact hperm
  nodup := h.nodup
  mapped b hb := (h.mapped b hb).imp id fun ⟨m, hmem, hlt⟩ => ⟨m, mem_cons_of_mem _ hmem, hlt⟩
  unmapped := h.unmapped
  left := h.left

/-- **Buffers of a live object are mapped.** -/
theorem Core.map {idxs : List ℕ} (h : s.Core ((id, n) :: live)) (hidxs : idxs.Nodup)
    (hlt : ∀ i ∈ idxs, i < n) (hnew : ∀ i ∈ idxs, (id, i) ∉ s.maps) :
    (s.mapBufs id idxs).Core ((id, n) :: live) where
  part := h.part
  nodup := by
    refine nodup_append'.mpr ⟨h.nodup, hidxs.map fun _ _ heq => (Prod.mk.inj heq).2, ?_⟩
    intro b hold hadded
    obtain ⟨i, hi, rfl⟩ := mem_map.mp hadded
    exact hnew i hi hold
  mapped b hb := by
    rcases mem_append.mp hb with hb | hb
    · exact h.mapped b hb
    · obtain ⟨i, hi, rfl⟩ := mem_map.mp hb
      exact .inr ⟨n, mem_cons_self, hlt i hi⟩
  unmapped := h.unmapped
  left := h.left

theorem Core.not_twice (h : s.Core ((id, n) :: live)) (m : ℕ) : (id, m) ∉ live := fun hmem => by
  have hnodup := h.nodup_all
  rw [map_cons, cons_append] at hnodup
  have hlive : (id, m).1 ∈ live.map Prod.fst := mem_map_of_mem hmem
  exact (nodup_cons.mp hnodup).1 (mem_append_left _ hlive)

theorem Core.lt_bound (h : s.Core ((id, n) :: live)) {b : ℕ × ℕ} (hb : b ∈ s.maps) (hid : b.1 = id) : b.2 < n := by
  rcases h.mapped b hb with ⟨hgone, -⟩ | ⟨m, hmem, hlt⟩
  · exact absurd (hid ▸ hgone) (h.live_not_deallocated mem_cons_self)
  · rcases mem_cons.mp hmem with heq | hmem
    · obtain ⟨-, rfl⟩ := Prod.mk.inj heq
      exact hlt
    · exact absurd (hid ▸ hmem) (h.not_twice m)

theorem count_unmapped (id count : ℕ) (b : ℕ × ℕ) :
    ((List.range count).map (Prod.mk id)).count b = if b.1 = id ∧ b.2 < count then 1 else 0 := by
  split
  · rename_i hb
    refine count_eq_one_of_mem (nodup_range.map fun _ _ heq => (Prod.mk.inj heq).2) ?_
    exact mem_map.mpr ⟨b.2, mem_range.mpr hb.2, Prod.ext hb.1.symm rfl⟩
  · rename_i hb
    refine count_eq_zero.mpr fun hmem => hb ?_
    obtain ⟨i, hi, rfl⟩ := mem_map.mp hmem
    exact ⟨rfl, mem_range.mp hi⟩

/-- **A live object is unmapped and goes.** -/
theorem Core.drop (h : s.Core ((id, n) :: live)) (hcount : n ≤ count) :
    ((s.unmapBufs id count).deallocate id).Core live := by
  have hid : id ∉ s.deallocated := h.live_not_deallocated mem_cons_self
  have hunmaps (b : ℕ × ℕ) : (s.unmapBufs id count).unmaps.count b =
      s.unmaps.count b + if b.1 = id ∧ b.2 < count then 1 else 0 := by
    rw [unmapBufs, count_append, count_unmapped]
  -- the buffers of this object are unmapped now, and only now
  have hthis (b : ℕ × ℕ) (hb : b ∈ s.maps) (hbid : b.1 = id) : (s.unmapBufs id count).unmaps.count b = 1 := by
    have hzero : s.unmaps.count b = 0 :=
      count_eq_zero.mpr fun hmem => hid (hbid ▸ h.unmapped b hmem)
    rw [hunmaps, hzero, if_pos ⟨hbid, Nat.lt_of_lt_of_le (h.lt_bound hb hbid) hcount⟩]
  refine ⟨?_, h.nodup, fun b hb => ?_, fun b hb => ?_, ?_⟩
  · have hperm : (live.map Prod.fst ++ (s.deallocated ++ [id])).Perm (id :: (live.map Prod.fst ++ s.deallocated)) := by
      rw [← append_assoc]
      exact perm_append_singleton _ _
    exact hperm.trans h.part
  · by_cases hbid : b.1 = id
    · exact .inl ⟨mem_append_right _ (mem_singleton.mpr hbid), hthis b hb hbid⟩
    · rcases h.mapped b hb with ⟨hgone, hone⟩ | ⟨m, hmem, hlt⟩
      · refine .inl ⟨mem_append_left _ hgone, ?_⟩
        rw [deallocate, hunmaps, hone, if_neg fun h => hbid h.1]
      · rcases mem_cons.mp hmem with heq | hmem
        · exact absurd (Prod.mk.inj heq).1 hbid
        · exact .inr ⟨m, hmem, hlt⟩
  · rcases mem_append.mp hb with hb | hb
    · exact mem_append_left _ (h.unmapped b hb)
    · obtain ⟨i, -, rfl⟩ := mem_map.mp hb
      exact mem_append_right _ (mem_singleton_self id)
  · have hnone : (s.unmapBufs id count).maps.filter (fun b =>
        b.1 = id ∧ (s.unmapBufs id count).unmaps.count b ≠ (s.unmapBufs id count).maps.count b) = [] := by
      refine filter_eq_nil_iff.mpr fun b hb => ?_
      have hmaps : (s.unmapBufs id count).maps.count b = 1 := count_eq_one_of_mem h.nodup hb
      simp only [decide_eq_true_eq, not_and, not_not]
      intro hbid
      rw [hthis b hb hbid, hmaps]
    rw [deallocate, hnone, append_nil]
    exact h.left

theorem unmapBufs_zero (s : QCameraStream) (id : ℕ) : s.unmapBufs id 0 = s := by
  simp [unmapBufs]

theorem Core.dropStreamBufs (h : s.Core ((id, n) :: live)) (hcount : n ≤ count) :
    ((s.unmapBufs id count).dropStreamBufs id).Core live :=
  (h.drop hcount).of_same rfl rfl rfl rfl rfl

theorem Core.dropStreamBufs_unmapped (h : s.Core ((id, 0) :: live)) : (s.dropStreamBufs id).Core live := by
  have hdrop := h.dropStreamBufs (Nat.le_refl 0)
  rwa [unmapBufs_zero] at hdrop

theorem Core.dropBatchBufs (h : s.Core ((id, n) :: live)) (hcount : n ≤ count) :
    ((s.unmapBufs id count).dropBatchBufs id).Core live :=
  (h.drop hcount).of_same rfl rfl rfl rfl rfl

theorem Core.dropBatchBufs_unmapped (h : s.Core ((id, 0) :: live)) : (s.dropBatchBufs id).Core live := by
  have hdrop := h.dropBatchBufs (Nat.le_refl 0)
  rwa [unmapBufs_zero] at hdrop

theorem Core.setBufDefs (h : s.Core live) (mBufDefs : Bool) : Core { s with mBufDefs := mBufDefs } live :=
  h.of_same rfl rfl rfl rfl rfl

/-! ### The states between calls -/

/-- **The invariant**, by what the stream holds. -/
inductive Inv (s : QCameraStream) : Prop
  | idle (hacq : s.mStreamBufsAcquired = false) (hmode : s.batchMode = false)
      (hbufs : s.mStreamBufs = none) (core : s.Core [])
  | held (id : ℕ) (obj : MemObj) (hacq : s.mStreamBufsAcquired = false) (hmode : s.batchMode = false)
      (hbufs : s.mStreamBufs = some id) (hobj : s.objs id = obj) (hdefs : s.mBufDefs = true)
      (hrest : s.mNumBufs = (obj.cnt + s.mNumBufsNeedAlloc) % 256 ∨ s.mNumBufsNeedAlloc = 0)
      (core : s.Core [(id, obj.getMappable)])
  | batchIdle (hneed : s.mNumBufsNeedAlloc = 0) (hmode : s.batchMode = true)
      (hbufs : ∀ id, s.mStreamBufs = some id → id ∈ s.deallocated)
      (hbatch : s.mStreamBatchBufs = none) (core : s.Core [])
  | batchHeld (id batch cnt : ℕ) (hneed : s.mNumBufsNeedAlloc = 0) (hmode : s.batchMode = true)
      (hbufs : s.mStreamBufs = some id) (hbatch : s.mStreamBatchBufs = some batch)
      (hcnt : (s.objs batch).cnt = cnt) (hplanes : s.mPlaneBufDefs = true)
      (core : s.Core [(id, s.mNumPlaneBufs), (batch, cnt)])

/-- A call that allocates leaves the invariant, and after a failure no memory at all. -/
def Clears (r : BufRc × QCameraStream) : Prop := r.2.Inv ∧ (r.1 ≠ .noError → r.2.Core [])

theorem Core.not_mapped (h : s.Core live) (hid : s.nextObj ≤ id) (i : ℕ) : (id, i) ∉ s.maps := by
  intro hmem
  have hrange : id ∈ range s.nextObj := by
    rw [← h.part.mem_iff]
    rcases h.mapped _ hmem with ⟨hgone, -⟩ | ⟨n, hlive, -⟩
    · exact mem_append_right _ hgone
    · exact mem_append_left _ (mem_map.mpr ⟨_, hlive, rfl⟩)
  exact absurd (mem_range.mp hrange) (Nat.not_lt.mpr hid)

theorem Core.newMapped (h : s.Core live) (obj : MemObj) (n : ℕ) :
    ((s.new obj).mapBufs s.nextObj (List.range n)).Core ((s.nextObj, n) :: live) :=
  (h.new obj n).map nodup_range (fun _ => mem_range.mp) fun i _ => h.not_mapped (Nat.le_refl _) i

theorem objs_new (s : QCameraStream) (obj : MemObj) : (s.new obj).objs s.nextObj = obj := if_pos rfl

/-- A stream that is not in batch mode; its buffers are its own. -/
def Plain (s : QCameraStream) : Prop := s.mStreamBufsAcquired = false ∧ s.batchMode = false

theorem Plain.setStreamBufs {obj : MemObj} (h : s.Plain) : (s.setNumBufs.setStreamBufs obj).Plain := h

theorem Plain.mapBufs {idxs : List ℕ} (h : s.Plain) : (s.mapBufs id idxs).Plain := h

theorem Plain.unmapBufs (h : s.Plain) : (s.unmapBufs id count).Plain := h

theorem clears_drop {rc : BufRc} (hplain : t.Plain) (core : (t.dropStreamBufs id).Core []) :
    Clears (rc, t.dropStreamBufs id) :=
  ⟨.idle hplain.1 hplain.2 rfl core, fun _ => core⟩

theorem clears_dropDefs {rc : BufRc} (hplain : t.Plain) (core : (t.dropStreamBufs id).Core []) :
    Clears (rc, { t.dropStreamBufs id with mBufDefs := false }) :=
  ⟨.idle hplain.1 hplain.2 rfl (core.setBufDefs false), fun _ => core.setBufDefs false⟩

theorem clears_keep {obj : MemObj} (hsame : t.mStreamBufsAcquired = false ∧ t.batchMode = false ∧
      t.mStreamBufs = some id ∧ t.objs id = obj ∧
      t.mNumBufs = (obj.cnt + t.mNumBufsNeedAlloc) % 256)
    (core : t.Core [(id, obj.getMappable)]) :
    Clears (.noError, { t.startBufAlloc with mBufDefs := true }) := by
  obtain ⟨hacq, hmode, hbufs, hobj, hnum⟩ := hsame
  exact ⟨.held id obj hacq hmode hbufs hobj rfl (.inl hnum) (core.of_same rfl rfl rfl rfl rfl), fun h => absurd rfl h⟩

/-- A stream in batch mode; it has no buffers that are left to a thread. -/
def Batched (s : QCameraStream) : Prop := s.mNumBufsNeedAlloc = 0 ∧ s.batchMode = true

theorem Batched.setPlaneBufs {obj : MemObj} (h : s.Batched) : (s.setPlaneBufs obj).Batched := h

theorem Batched.mapBufs {idxs : List ℕ} (h : s.Batched) : (s.mapBufs id idxs).Batched := h

theorem Batched.unmapBufs (h : s.Batched) : (s.unmapBufs id count).Batched := h

theorem Batched.dropStreamBufs (h : s.Batched) : (s.dropStreamBufs id).Batched := h

theorem Batched.dropBatchBufs (h : s.Batched) : (s.dropBatchBufs id).Batched := h

theorem clears_dropBatch {rc : BufRc} (hmode : t.Batched) (hbufs : t.mStreamBufs = none)
    (hbatch : t.mStreamBatchBufs = none) (core : t.Core []) : Clears (rc, t) :=
  ⟨.batchIdle hmode.1 hmode.2 (fun id hid => by rw [hbufs] at hid; cases hid) hbatch core, fun _ => core⟩

theorem clears_dropBatch_reset {rc : BufRc} (hmode : t.Batched) (core : (t.dropBatchBufs id).Core []) :
    Clears (rc, { t.dropBatchBufs id with mStreamBufs := none }) := by
  have hgone : (t.dropBatchBufs id).Batched := .dropBatchBufs hmode
  have hbatch : (t.dropBatchBufs id).mStreamBatchBufs = none := rfl
  generalize t.dropBatchBufs id = u at core hgone hbatch ⊢
  exact clears_dropBatch (t := { u with mStreamBufs := none }) hgone rfl hbatch (core.of_same rfl rfl rfl rfl rfl)

section Plain

variable (hplain : s.Plain)

include hplain

theorem clears_noMemory (core : s.Core []) : Clears (.noMemory, { s.setNumBufs with mStreamBufs := none }) := by
  have hsame : Core { s.setNumBufs with mStreamBufs := none } [] := core.of_same rfl rfl rfl rfl rfl
  exact ⟨.idle hplain.1 hplain.2 rfl hsame, fun _ => hsame⟩

theorem clears_getBufs (core : s.Core []) (hops : env.opsTbl = true)
    (hsized : ∀ obj, env.allocateStreamBuf s.numBufAlloc = some obj →
      sized env obj.getMappable = true) : Clears (s.getBufs env) := by
  rw [getBufs, if_neg (by simp [hops])]
  split
  · exact clears_noMemory hplain core
  · rename_i obj halloc
    have hnew : (s.setNumBufs.setStreamBufs obj).Core [(s.nextObj, 0)] :=
      (core.new obj 0).of_same rfl rfl rfl rfl rfl
    have hmapped : ((s.setNumBufs.setStreamBufs obj).mapBufs s.nextObj
        (range obj.getMappable)).Core [(s.nextObj, obj.getMappable)] :=
      (core.newMapped obj obj.getMappable).of_same rfl rfl rfl rfl rfl
    have hdropped := hmapped.dropStreamBufs (Nat.le_refl _)
    have hplain' : ((s.setNumBufs.setStreamBufs obj).mapBufs s.nextObj
        (range obj.getMappable)).Plain := hplain.setStreamBufs.mapBufs
    have hgone : (((s.setNumBufs.setStreamBufs obj).mapBufs s.nextObj
        (range obj.getMappable)).unmapBufs s.nextObj obj.getMappable).Plain := hplain'.unmapBufs
    simp only [hsized obj halloc, Bool.true_eq_false, if_false]
    split
    · exact clears_drop hplain.setStreamBufs hnew.dropStreamBufs_unmapped
    · split
      · exact clears_drop hgone hdropped
      · split
        · exact clears_dropDefs hgone hdropped
        · split
          · exact clears_dropDefs hgone hdropped
          · exact clears_keep ⟨hplain'.1, hplain'.2, rfl, s.objs_new obj, rfl⟩ hmapped

theorem clears_allocateBuffers (core : s.Core []) : Clears (s.allocateBuffers env) := by
  rw [allocateBuffers, if_neg (by simp [hplain.2])]
  split
  · exact clears_noMemory hplain core
  · rename_i obj halloc
    have hnew : (s.setNumBufs.setStreamBufs obj).Core [(s.nextObj, 0)] :=
      (core.new obj 0).of_same rfl rfl rfl rfl rfl
    -- nothing is mapped yet, but the buffers are unmapped
    have hdropped := hnew.dropStreamBufs (Nat.zero_le obj.getMappable)
    have hplain' : (s.setNumBufs.setStreamBufs obj).Plain := hplain.setStreamBufs
    have hgone : ((s.setNumBufs.setStreamBufs obj).unmapBufs s.nextObj obj.getMappable).Plain :=
      hplain'.unmapBufs
    dsimp only
    split
    · exact clears_drop hgone hdropped
    · split
      · exact clears_dropDefs hgone hdropped
      · split
        · exact clears_dropDefs hgone hdropped
        · exact clears_keep ⟨hplain'.1, hplain'.2, rfl, s.objs_new obj, rfl⟩ (hnew.grow (Nat.zero_le obj.getMappable))

end Plain

/-- Nothing fails once the batch buffers are mapped. -/
def Completes (s : QCameraStream) (env : BufEnv) : Prop :=
  (∃ obj, env.allocateStreamBuf (s.mNumBufs * s.frameBufCnt % 256) = some obj ∧ sized env obj.cnt = true) ∧
  env.map 1 = true ∧ env.mallocRegFlags = true ∧ env.mallocBufDefs = true ∧
  env.mallocPlaneBufDefs = true

section Batch

variable (hmode : s.Batched)

include hmode

theorem clears_mapPlaneBufs {batch cnt : ℕ} {obj : MemObj} (hbatch : s.mStreamBatchBufs = some batch)
    (hcnt : (s.objs batch).cnt = cnt) (hnew : batch ≠ s.nextObj) (core : s.Core [(batch, cnt)])
    (hzero : ¬ (sized env obj.cnt = true ∧ env.map 1 = true ∧ env.mallocRegFlags = true ∧
      env.mallocBufDefs = true ∧ env.mallocPlaneBufDefs = true) → cnt = 0) :
    Clears (s.mapPlaneBufs env batch obj) := by
  have hboth : ((s.setPlaneBufs obj).mapBufs s.nextObj (range obj.cnt)).Core [(s.nextObj, obj.cnt), (batch, cnt)] :=
    (core.newMapped obj obj.cnt).of_same rfl rfl rfl rfl rfl
  have hdropped := hboth.dropStreamBufs (Nat.le_refl _)
  have hgone : (((((s.setPlaneBufs obj).mapBufs s.nextObj (range obj.cnt)).unmapBufs
      s.nextObj obj.cnt).dropStreamBufs s.nextObj).dropBatchBufs batch).Batched :=
    .dropBatchBufs (.dropStreamBufs (.unmapBufs (.mapBufs (.setPlaneBufs hmode))))
  rw [mapPlaneBufs]
  dsimp only
  split
  · rename_i hbad
    obtain rfl := hzero fun h => by
      rcases hbad with hbad | hbad
      · exact Bool.false_ne_true (hbad.symm.trans h.1)
      · exact Bool.false_ne_true (hbad.symm.trans h.2.1)
    have hunmapped : (s.setPlaneBufs obj).Core [(s.nextObj, 0), (batch, 0)] :=
      (core.new obj 0).of_same rfl rfl rfl rfl rfl
    exact clears_dropBatch hmode.setPlaneBufs.dropStreamBufs.dropBatchBufs rfl rfl
      hunmapped.dropStreamBufs_unmapped.dropBatchBufs_unmapped
  · split
    · rename_i hflags
      obtain rfl := hzero fun h => Bool.false_ne_true (hflags.symm.trans h.2.2.1)
      exact clears_dropBatch hgone rfl rfl hdropped.dropBatchBufs_unmapped
    · split
      · rename_i hdefs
        obtain rfl := hzero fun h => Bool.false_ne_true (hdefs.symm.trans h.2.2.2.1)
        exact clears_dropBatch hgone rfl rfl (hdropped.dropBatchBufs_unmapped.setBufDefs false)
      · split
        · rename_i hdefs
          obtain rfl := hzero fun h => Bool.false_ne_true (hdefs.symm.trans h.2.2.2.2)
          exact clears_dropBatch hgone rfl rfl (hdropped.dropBatchBufs_unmapped.of_same rfl rfl rfl rfl rfl)
        · have hkept : ((s.new obj).objs batch).cnt = cnt := by
            simp only [new, if_neg hnew]
            exact hcnt
          exact ⟨.batchHeld s.nextObj batch cnt hmode.1 hmode.2 rfl hbatch hkept rfl
            (hboth.of_same rfl rfl rfl rfl rfl), fun h => absurd rfl h⟩

theorem clears_allocateBatchBufs (hbufs : ∀ id, s.mStreamBufs = some id → id ∈ s.deallocated) (core : s.Core [])
    (hlate : ∀ cnt, env.allocateStreamUserBuf = some cnt → env.map 0 = true → 0 < cnt →
      s.Completes env) : Clears (s.allocateBatchBufs env) := by
  rw [allocateBatchBufs]
  split
  · have hcore : Core { s with mStreamBatchBufs := none } [] := core.of_same rfl rfl rfl rfl rfl
    exact ⟨.batchIdle hmode.1 hmode.2 hbufs rfl hcore, fun _ => hcore⟩
  · rename_i cnt huser
    dsimp only
    split
    · have hnew : (s.setBatchBufs cnt).Core [(s.nextObj, 0)] :=
        (core.new { cnt := cnt } 0).of_same rfl rfl rfl rfl rfl
      have hgone := hnew.dropBatchBufs_unmapped
      exact ⟨.batchIdle hmode.1 hmode.2 (fun id hid => mem_append_left _ (hbufs id hid)) rfl hgone, fun _ => hgone⟩
    · rename_i hmap
      have hmapped : Core { (s.setBatchBufs cnt).mapBufs s.nextObj (range cnt) with
          mNumPlaneBufs := s.mNumBufs * s.frameBufCnt % 256 } [(s.nextObj, cnt)] :=
        (core.newMapped { cnt := cnt } cnt).of_same rfl rfl rfl rfl rfl
      have hbatched : Batched { (s.setBatchBufs cnt).mapBufs s.nextObj (range cnt) with
          mNumPlaneBufs := s.mNumBufs * s.frameBufCnt % 256 } := hmode
      -- a failure from here on is only sound where there is no batch buffer
      have hzero (hfail : ¬ s.Completes env) : cnt = 0 :=
        Nat.eq_zero_of_not_pos fun hpos => hfail (hlate cnt huser (by simpa using hmap) hpos)
      split
      · rename_i hnone
        obtain rfl := hzero <| by
          rintro ⟨⟨obj, hobj, -⟩, -⟩
          cases hnone.symm.trans hobj
        exact clears_dropBatch_reset hbatched hmapped.dropBatchBufs_unmapped
      · rename_i obj hsome
        exact clears_mapPlaneBufs hbatched rfl (congrArg MemObj.cnt (s.objs_new { cnt := cnt }))
          (Nat.ne_of_lt (Nat.lt_succ_self _)) hmapped fun hbad => hzero fun h => hbad (by
            obtain ⟨⟨obj', hobj', hsized⟩, hrest⟩ := h
            obtain rfl := Option.some.inj (hsome.symm.trans hobj')
            exact ⟨hsized, hrest⟩)

theorem inv_releaseBatchBufs_idle (hbufs : s.mStreamBufs = none) (hbatch : s.mStreamBatchBufs = none)
    (core : s.Core []) : (s.releaseBatchBufs env).2.Inv := by
  obtain ⟨hcore, hbatched, hnone, hnone'⟩ : s.unmapPlanes.Core [] ∧ s.unmapPlanes.Batched ∧
      s.unmapPlanes.mStreamBufs = none ∧ s.unmapPlanes.mStreamBatchBufs = none := by
    rw [unmapPlanes]
    split
    · exact ⟨core, hmode, hbufs, hbatch⟩
    · exact ⟨core.of_same rfl rfl rfl rfl rfl, hmode, hbufs, hbatch⟩
    · rename_i hsome
      rw [hbufs] at hsome
      cases hsome
  simp only [releaseBatchBufs, deallocPlanes, hnone, releaseUserBufs, hnone']
  exact .batchIdle hbatched.1 hbatched.2 nofun rfl (hcore.of_same rfl rfl rfl rfl rfl)

theorem inv_releaseBatchBufs {batch cnt : ℕ} (hbufs : s.mStreamBufs = some id)
    (hbatch : s.mStreamBatchBufs = some batch) (hcnt : (s.objs batch).cnt = cnt)
    (hplanes : s.mPlaneBufDefs = true) (core : s.Core [(id, s.mNumPlaneBufs), (batch, cnt)]) :
    (s.releaseBatchBufs env).2.Inv := by
  have hunmap : s.unmapPlanes = { s.unmapBufs id s.mNumPlaneBufs with mPlaneBufDefs := false, mNumPlaneBufs := 0 } := by
    simp only [unmapPlanes, hplanes, hbufs]
  obtain ⟨u, hu, hcore, hbatched, hstream, hgone, hbatch', hcnt'⟩ : ∃ u,
      s.unmapPlanes.deallocPlanes = u ∧ u.Core [(batch, cnt)] ∧ u.Batched ∧ u.mStreamBufs = some id ∧
        id ∈ u.deallocated ∧ u.mStreamBatchBufs = some batch ∧ (u.objs batch).cnt = cnt := by
    refine ⟨_, rfl, ?_⟩
    have hbufs' : (s.unmapBufs id s.mNumPlaneBufs).mStreamBufs = some id := hbufs
    rw [hunmap]
    simp only [deallocPlanes, hbufs']
    exact ⟨(core.drop (Nat.le_refl _)).of_same rfl rfl rfl rfl rfl, hmode, rfl,
      mem_append_right _ (mem_singleton_self id), hbatch, hcnt⟩
  have hdropped := (hcore.setBufDefs false).dropBatchBufs (Nat.le_refl cnt)
  simp only [releaseBatchBufs, hu, releaseUserBufs, hbatch', hcnt']
  refine .batchIdle hbatched.1 hbatched.2 (fun other hother => ?_) rfl ?_
  · obtain rfl := Option.some.inj (hstream.symm.trans hother)
    exact mem_append_left _ hgone
  · exact hdropped.of_same rfl rfl rfl rfl rfl

end Batch

theorem allocateMore_some {obj obj' : MemObj} {ion : Bool} (h : obj.allocateMore count ion = some obj') :
    obj.gralloc = false ∧ obj.cnt + count ≤ mmCameraMaxNumFrames ∧ obj' = { obj with cnt := obj.cnt + count } := by
  rw [MemObj.allocateMore] at h
  split at h
  · cases h
  · rename_i hok
    simp only [not_or, Bool.not_eq_true, Nat.not_lt] at hok
    exact ⟨hok.1, hok.2.1, (Option.some.inj h).symm⟩

section Held

variable {obj : MemObj} (hacq : s.mStreamBufsAcquired = false) (hmode : s.batchMode = false)
  (hbufs : s.mStreamBufs = some id) (hobj : s.objs id = obj) (core : s.Core [(id, obj.getMappable)])

include hacq hmode hbufs hobj core

theorem inv_releaseBuffs (hdefs : s.mBufDefs = true) : (s.releaseBuffs env).2.Inv := by
  have hacq' : (s.unmapBufs id obj.getMappable).mStreamBufsAcquired = false := hacq
  simp only [releaseBuffs, hmode, Bool.false_eq_true, if_false, hbufs, hdefs, if_true, hobj, hacq']
  exact .idle rfl hmode rfl ((core.dropStreamBufs (Nat.le_refl _)).of_same rfl rfl rfl rfl rfl)

theorem inv_putBufs : (s.putBufs env).2.Inv := by
  obtain ⟨u, hu, hacq', hmode', hbufs', hobj', hcore⟩ : ∃ u, (if s.mBufAllocPid then
      { s with mBufAllocPid := false, mNumBufsNeedAlloc := 0 } else s) = u ∧
      (u.unmapBufs id obj.getMappable).mStreamBufsAcquired = false ∧ u.batchMode = false ∧
      u.mStreamBufs = some id ∧ u.objs id = obj ∧ u.Core [(id, obj.getMappable)] := by
    refine ⟨_, rfl, ?_⟩
    split
    · exact ⟨hacq, hmode, hbufs, hobj, core.of_same rfl rfl rfl rfl rfl⟩
    · exact ⟨hacq, hmode, hbufs, hobj, core⟩
  simp only [putBufs, hu, hbufs', hobj', hacq', if_true]
  exact .idle rfl hmode' rfl ((hcore.dropStreamBufs (Nat.le_refl _)).of_same rfl rfl rfl rfl rfl)

theorem inv_mapBuffers (hdefs : s.mBufDefs = true)
    (hrest : s.mNumBufs = (obj.cnt + s.mNumBufsNeedAlloc) % 256 ∨ s.mNumBufsNeedAlloc = 0)
    (hnew : env.map 0 = true → ∀ b ∈ s.maps, b.1 ≠ id) : (s.mapBuffers env).2.Inv := by
  have hkept : s.Inv := .held id obj hacq hmode hbufs hobj hdefs hrest core
  simp only [mapBuffers, hbufs]
  split
  · exact hkept
  · split
    · exact hkept
    · split
      · exact hkept
      · rename_i hmap
        rw [hobj]
        refine .held id obj hacq hmode hbufs hobj hdefs hrest (core.map nodup_range
          (fun _ => mem_range.mp) fun i _ hmem => ?_)
        exact hnew (by simpa using hmap) _ hmem rfl

theorem inv_bufAllocRoutine (hdefs : s.mBufDefs = true)
    (hrest : s.mNumBufs = (obj.cnt + s.mNumBufsNeedAlloc) % 256 ∨ s.mNumBufsNeedAlloc = 0) :
    (s.bufAllocRoutine env).Inv := by
  rw [bufAllocRoutine]
  split
  · exact .held id obj hacq hmode hbufs hobj hdefs hrest core
  · rename_i hneed
    have hnum : s.mNumBufs = (obj.cnt + s.mNumBufsNeedAlloc) % 256 := hrest.resolve_right hneed
    simp only [hbufs, hobj]
    split
    · exact .held id obj hacq hmode rfl hobj hdefs (.inr rfl) (core.of_same rfl rfl rfl rfl rfl)
    · rename_i obj' hmore
      obtain ⟨hplain, hroom, rfl⟩ := allocateMore_some hmore
      have hmappable : obj.getMappable = obj.cnt := by simp [MemObj.getMappable, hplain]
      have hmappable' : MemObj.getMappable { obj with cnt := obj.cnt + s.mNumBufsNeedAlloc } = s.mNumBufs := by
        have hsmall : obj.cnt + s.mNumBufsNeedAlloc < 256 := Nat.lt_of_le_of_lt hroom (by decide)
        simp only [MemObj.getMappable, hplain, Bool.false_eq_true, if_false]
        rw [hnum, Nat.mod_eq_of_lt hsmall]
      have hfirst : (s.mNumBufs + 256 - s.mNumBufsNeedAlloc) % 256 = obj.cnt := by
        have hroom : obj.cnt + s.mNumBufsNeedAlloc ≤ 64 := hroom
        omega
      rw [hfirst]
      have hle : obj.getMappable ≤ MemObj.getMappable { obj with
          cnt := obj.cnt + s.mNumBufsNeedAlloc } := by
        simp only [MemObj.getMappable, hplain, Bool.false_eq_true, if_false]
        exact Nat.le_add_right _ _
      have hgrown := core.grow hle
      split
      · have hmore : ((range s.mNumBufs).filter fun i => obj.cnt ≤ i).Nodup :=
          nodup_range.filter _
        refine .held id _ hacq hmode rfl (if_pos rfl) hdefs (.inr rfl)
          (Core.of_same (hgrown.map hmore ?_ ?_) rfl rfl rfl rfl rfl)
        · intro i hi
          rw [hmappable']
          exact mem_range.mp (mem_filter.mp hi).1
        · intro i hi hmem
          have hge : obj.cnt ≤ i := by simpa using (mem_filter.mp hi).2
          have hlt := core.lt_bound hmem rfl
          rw [hmappable] at hlt
          exact absurd hge (Nat.not_le.mpr hlt)
      · exact .held id _ hacq hmode rfl (if_pos rfl) hdefs (.inr rfl) (hgrown.of_same rfl rfl rfl rfl rfl)

end Held

/-! ### Runs -/

/-- The batch buffers are new, and nothing fails once they are mapped. -/
def SoundBatch (s : QCameraStream) (env : BufEnv) : Prop :=
  s.mStreamBatchBufs = none ∧ ∀ cnt, env.allocateStreamUserBuf = some cnt → env.map 0 = true → 0 < cnt → s.Completes env

/-- The stream buffers are not released a second time. -/
def SoundRelease (s : QCameraStream) : Prop := ∀ id, s.mStreamBufs = some id → id ∉ s.deallocated

/-- **The condition**, for each call. -/
def Sound (s : QCameraStream) (c : BufCall) : Prop :=
  match c.fn with
  | .getBufs => c.env.opsTbl = true → s.batchMode = false ∧ s.mStreamBufs = none ∧
      ∀ obj, c.env.allocateStreamBuf s.numBufAlloc = some obj → sized c.env obj.getMappable = true
  | .allocateBuffers => if s.batchMode then s.SoundBatch c.env else s.mStreamBufs = none
  | .mapBuffers => c.env.allocTask = .noError → ∀ id, s.mStreamBufs = some id →
      s.batchMode = false ∧ (c.env.map 0 = true → ∀ b ∈ s.maps, b.1 ≠ id)
  | .allocateBatchBufs => s.batchMode = true ∧ s.SoundBatch c.env
  | .bufAllocRoutine => 0 < s.mNumBufsNeedAlloc → s.mStreamBufs ≠ none
  | .putBufs => s.batchMode = false ∧ s.mStreamBufs ≠ none
  | .releaseBuffs => s.batchMode = true → s.SoundRelease
  | .releaseBatchBufs => s.batchMode = true ∧ s.SoundRelease

/-- A stream without buffers. -/
structure Fresh (s : QCameraStream) : Prop where
  bufs : s.mStreamBufs = none
  batch : s.mStreamBatchBufs = none
  need : s.mNumBufsNeedAlloc = 0
  acquired : s.mStreamBufsAcquired = false
  account : s.nextObj = 0 ∧ s.deallocated = [] ∧ s.maps = [] ∧ s.unmaps = [] ∧ s.left = []

/-- **Balanced**: memory goes once, and what is not gone is still held; what was mapped of memory that is
gone was mapped and unmapped once, before. -/
structure Balanced (s : QCameraStream) : Prop where
  once : ∀ id, s.deallocated.count id ≤ 1
  kept : ∀ id < s.nextObj, id ∉ s.deallocated → s.mStreamBufs = some id ∨ s.mStreamBatchBufs = some id
  unmapped : ∀ b ∈ s.maps, b.1 ∈ s.deallocated → s.maps.count b = 1 ∧ s.unmaps.count b = 1
  left : s.left = []

theorem Inv.balanced (h : s.Inv) : s.Balanced := by
  obtain ⟨live, core, hlive⟩ : ∃ live, s.Core live ∧ ∀ p ∈ live,
      s.mStreamBufs = some p.1 ∨ s.mStreamBatchBufs = some p.1 := by
    cases h with
    | idle _ _ _ core => exact ⟨_, core, nofun⟩
    | held id obj _ _ hbufs _ _ _ core =>
      exact ⟨_, core, fun p hp => .inl (by rw [mem_singleton.mp hp]; exact hbufs)⟩
    | batchIdle _ _ _ _ core => exact ⟨_, core, nofun⟩
    | batchHeld id batch cnt _ _ hbufs hbatch _ _ core =>
      refine ⟨_, core, fun p hp => ?_⟩
      rcases mem_cons.mp hp with rfl | hp
      · exact .inl hbufs
      · exact .inr (by rw [mem_singleton.mp hp]; exact hbatch)
  refine ⟨fun id => ?_, fun id hlt hid => ?_, fun b hb hgone => ?_, core.left⟩
  · exact nodup_iff_count_le_one.mp (List.Nodup.of_append_right core.nodup_all) id
  · rcases mem_append.mp (core.part.mem_iff.mpr (mem_range.mpr hlt)) with hmem | hgone
    · obtain ⟨p, hp, rfl⟩ := mem_map.mp hmem
      exact hlive p hp
    · exact absurd hgone hid
  · refine ⟨count_eq_one_of_mem core.nodup hb, ?_⟩
    rcases core.mapped b hb with ⟨-, hone⟩ | ⟨n, hmem, -⟩
    · exact hone
    · exact absurd hgone (core.live_not_deallocated hmem)

/-- What a call leaves: the invariant, and after a failure nothing that it allocated. -/
def Leaves (s : QCameraStream) (r : BufRc × QCameraStream) : Prop :=
  r.2.Inv ∧ (r.1 ≠ .noError → r.2.nextObj = s.nextObj ∨ r.2.Core [])

theorem Clears.leaves {r : BufRc × QCameraStream} (h : Clears r) : s.Leaves r :=
  ⟨h.1, fun hfail => .inr (h.2 hfail)⟩

theorem leaves_self {rc : BufRc} (h : s.Inv) : s.Leaves (rc, s) := ⟨h, fun _ => .inl rfl⟩

theorem nextObj_mapBuffers (s : QCameraStream) (env : BufEnv) : (s.mapBuffers env).2.nextObj = s.nextObj := by
  rw [mapBuffers]
  split
  · rfl
  · split
    · rfl
    · split
      · rfl
      · split <;> rfl

theorem nextObj_releaseBatchBufs (s : QCameraStream) (env : BufEnv) :
    (s.releaseBatchBufs env).2.nextObj = s.nextObj := by
  have hplanes : s.unmapPlanes.nextObj = s.nextObj := by
    rw [unmapPlanes]
    split <;> rfl
  have hdealloc (u : QCameraStream) : u.deallocPlanes.nextObj = u.nextObj := by
    rw [deallocPlanes]
    split <;> rfl
  have huser (u : QCameraStream) : u.releaseUserBufs.nextObj = u.nextObj := by
    rw [releaseUserBufs]
    split <;> rfl
  rw [releaseBatchBufs, huser]
  exact (hdealloc _).trans hplanes

theorem nextObj_releaseBuffs (s : QCameraStream) (env : BufEnv) : (s.releaseBuffs env).2.nextObj = s.nextObj := by
  rw [releaseBuffs]
  split
  · exact s.nextObj_releaseBatchBufs env
  · split
    · rfl
    · dsimp only
      split <;> split <;> rfl

theorem nextObj_putBufs (s : QCameraStream) (env : BufEnv) : (s.putBufs env).2.nextObj = s.nextObj := by
  rw [putBufs]
  dsimp only
  split <;> split <;> try rfl
  all_goals split <;> rfl

section Inversion

variable (h : s.Inv)

include h

theorem Inv.of_none (hmode : s.batchMode = false) (hbufs : s.mStreamBufs = none) : s.Plain ∧ s.Core [] := by
  cases h with
  | idle hacq _ _ core => exact ⟨⟨hacq, hmode⟩, core⟩
  | held id _ _ _ hsome => exact nomatch hbufs.symm.trans hsome
  | batchIdle _ hbatched => exact absurd (hmode.symm.trans hbatched) (by decide)
  | batchHeld _ _ _ _ hbatched => exact absurd (hmode.symm.trans hbatched) (by decide)

theorem Inv.of_some (hmode : s.batchMode = false) (hbufs : s.mStreamBufs = some id) :
    s.mStreamBufsAcquired = false ∧ s.mBufDefs = true ∧
      (s.mNumBufs = ((s.objs id).cnt + s.mNumBufsNeedAlloc) % 256 ∨ s.mNumBufsNeedAlloc = 0) ∧
      s.Core [(id, (s.objs id).getMappable)] := by
  cases h with
  | idle _ _ hnone => exact nomatch hnone.symm.trans hbufs
  | held id' obj hacq _ hbufs' hobj hdefs hrest core =>
    obtain rfl := Option.some.inj (hbufs'.symm.trans hbufs)
    subst hobj
    exact ⟨hacq, hdefs, hrest, core⟩
  | batchIdle _ hbatched => exact absurd (hmode.symm.trans hbatched) (by decide)
  | batchHeld _ _ _ _ hbatched => exact absurd (hmode.symm.trans hbatched) (by decide)

theorem Inv.batched (hmode : s.batchMode = true) : s.Batched := by
  cases h with
  | idle _ hplain => exact absurd (hplain.symm.trans hmode) (by decide)
  | held _ _ _ hplain => exact absurd (hplain.symm.trans hmode) (by decide)
  | batchIdle hneed => exact ⟨hneed, hmode⟩
  | batchHeld _ _ _ hneed => exact ⟨hneed, hmode⟩

theorem Inv.of_noBatch (hmode : s.batchMode = true) (hbatch : s.mStreamBatchBufs = none) :
    (∀ id, s.mStreamBufs = some id → id ∈ s.deallocated) ∧ s.Core [] := by
  cases h with
  | idle _ hplain => exact absurd (hplain.symm.trans hmode) (by decide)
  | held _ _ _ hplain => exact absurd (hplain.symm.trans hmode) (by decide)
  | batchIdle _ _ hbufs _ core => exact ⟨hbufs, core⟩
  | batchHeld _ _ _ _ _ _ hsome => exact nomatch hbatch.symm.trans hsome

end Inversion

/-! ### One sound call -/

theorem leaves_getBufs (h : s.Inv) (hs : s.Sound ⟨.getBufs, env⟩) : s.Leaves (s.getBufs env) := by
  cases hops : env.opsTbl with
  | false =>
    have hself : s.getBufs env = (.invalidOperation, s) := by rw [getBufs, if_pos hops]
    rw [hself]
    exact leaves_self h
  | true =>
    obtain ⟨hmode, hnone, hsized⟩ := hs hops
    obtain ⟨hplain, core⟩ := h.of_none hmode hnone
    exact (clears_getBufs hplain core hops hsized).leaves

theorem leaves_allocateBatchBufs (h : s.Inv) (hmode : s.batchMode = true) (hs : s.SoundBatch env) :
    s.Leaves (s.allocateBatchBufs env) := by
  obtain ⟨hbufs, core⟩ := h.of_noBatch hmode hs.1
  exact (clears_allocateBatchBufs (h.batched hmode) hbufs core hs.2).leaves

theorem leaves_allocateBuffers (h : s.Inv) (hs : s.Sound ⟨.allocateBuffers, env⟩) :
    s.Leaves (s.allocateBuffers env) := by
  cases hmode : s.batchMode with
  | false =>
    have hnone : s.mStreamBufs = none := by simpa [Sound, hmode] using hs
    obtain ⟨hplain, core⟩ := h.of_none hmode hnone
    exact (clears_allocateBuffers hplain core).leaves
  | true =>
    have hbatch : s.allocateBuffers env = s.allocateBatchBufs env := by
      rw [allocateBuffers, if_pos hmode]
    rw [hbatch]
    exact leaves_allocateBatchBufs h hmode (by simpa [Sound, hmode] using hs)

theorem Inv.mapBuffers (h : s.Inv) (hs : s.Sound ⟨.mapBuffers, env⟩) : (s.mapBuffers env).2.Inv := by
  by_cases htask : env.allocTask = .noError
  · cases hbufs : s.mStreamBufs with
    | none =>
      have hself : s.mapBuffers env = (.unknownError, s) := by
        simp only [QCameraStream.mapBuffers, htask, hbufs, ne_eq, not_true_eq_false, if_false]
      rw [hself]
      exact h
    | some id =>
      obtain ⟨hmode, hnew⟩ := hs htask id hbufs
      obtain ⟨hacq, hdefs, hrest, core⟩ := h.of_some hmode hbufs
      exact inv_mapBuffers hacq hmode hbufs rfl core hdefs hrest hnew
  · have hself : s.mapBuffers env = (.noMemory, s) := if_pos htask
    rw [hself]
    exact h

theorem Inv.bufAllocRoutine (h : s.Inv) (hs : s.Sound ⟨.bufAllocRoutine, env⟩) : (s.bufAllocRoutine env).Inv := by
  by_cases hneed : s.mNumBufsNeedAlloc = 0
  · have hself : s.bufAllocRoutine env = s := if_pos hneed
    rw [hself]
    exact h
  · obtain ⟨id, hbufs⟩ := Option.ne_none_iff_exists'.mp (hs (Nat.pos_of_ne_zero hneed))
    cases hmode : s.batchMode with
    | false =>
      obtain ⟨hacq, hdefs, hrest, core⟩ := h.of_some hmode hbufs
      exact inv_bufAllocRoutine hacq hmode hbufs rfl core hdefs hrest
    | true => exact absurd (h.batched hmode).1 hneed

theorem Inv.putBufs (h : s.Inv) (hs : s.Sound ⟨.putBufs, env⟩) : (s.putBufs env).2.Inv := by
  obtain ⟨hmode, hsome⟩ := hs
  obtain ⟨id, hbufs⟩ := Option.ne_none_iff_exists'.mp hsome
  obtain ⟨hacq, -, -, core⟩ := h.of_some hmode hbufs
  exact inv_putBufs hacq hmode hbufs rfl core

theorem Inv.releaseBatchBufs (h : s.Inv) (hmode : s.batchMode = true) (hs : s.SoundRelease) :
    (s.releaseBatchBufs env).2.Inv := by
  have hbatched : s.Batched := h.batched hmode
  cases h with
  | idle _ hplain => exact absurd (hplain.symm.trans hmode) (by decide)
  | held _ _ _ hplain => exact absurd (hplain.symm.trans hmode) (by decide)
  | batchIdle _ _ hbufs hbatch core =>
    have hnone : s.mStreamBufs = none := Option.eq_none_iff_forall_ne_some.mpr fun id hid =>
      hs id hid (hbufs id hid)
    exact inv_releaseBatchBufs_idle hbatched hnone hbatch core
  | batchHeld id batch cnt _ _ hbufs hbatch hcnt hplanes core =>
    exact inv_releaseBatchBufs hbatched hbufs hbatch hcnt hplanes core

theorem Inv.releaseBuffs (h : s.Inv) (hs : s.Sound ⟨.releaseBuffs, env⟩) : (s.releaseBuffs env).2.Inv := by
  cases hmode : s.batchMode with
  | true =>
    have hbatch : s.releaseBuffs env = s.releaseBatchBufs env := if_pos hmode
    rw [hbatch]
    exact h.releaseBatchBufs hmode (hs hmode)
  | false =>
    cases hbufs : s.mStreamBufs with
    | none =>
      have hself : s.releaseBuffs env = (.noError, s) := by
        simp only [QCameraStream.releaseBuffs, hmode, hbufs, Bool.false_eq_true, if_false]
      rw [hself]
      exact h
    | some id =>
      obtain ⟨hacq, hdefs, -, core⟩ := h.of_some hmode hbufs
      exact inv_releaseBuffs hacq hmode hbufs rfl core hdefs

/-- **One sound call.** -/
theorem Inv.call {c : BufCall} (h : s.Inv) (hs : s.Sound c) : s.Leaves (s.call c) := by
  obtain ⟨fn, env⟩ := c
  cases fn with
  | getBufs => exact leaves_getBufs h hs
  | allocateBuffers => exact leaves_allocateBuffers h hs
  | mapBuffers => exact ⟨h.mapBuffers hs, fun _ => .inl (s.nextObj_mapBuffers env)⟩
  | allocateBatchBufs => exact leaves_allocateBatchBufs h hs.1 hs.2
  | bufAllocRoutine => exact ⟨h.bufAllocRoutine hs, fun hfail => absurd rfl hfail⟩
  | putBufs => exact ⟨h.putBufs hs, fun _ => .inl (s.nextObj_putBufs env)⟩
  | releaseBuffs => exact ⟨h.releaseBuffs hs, fun _ => .inl (s.nextObj_releaseBuffs env)⟩
  | releaseBatchBufs =>
    exact ⟨h.releaseBatchBufs hs.1 hs.2, fun _ => .inl (s.nextObj_releaseBatchBufs env)⟩

theorem Fresh.inv (h : s.Fresh) : s.Inv := by
  obtain ⟨hbufs, hbatch, hneed, hacq, hobj, hdeallocated, hmaps, hunmaps, hleft⟩ := h
  have core : s.Core [] := by
    refine ⟨?_, ?_, ?_, ?_, hleft⟩
    · rw [hdeallocated, hobj]
      exact List.Perm.refl _
    · rw [hmaps]
      exact nodup_nil
    · rw [hmaps]
      exact nofun
    · rw [hunmaps]
      exact nofun
  cases hmode : s.batchMode with
  | false => exact .idle hacq hmode hbufs core
  | true => exact .batchIdle hneed hmode (fun id hid => nomatch hbufs.symm.trans hid) hbatch core

/-- **The buffers are in balance** in every run of sound calls: every buffer is mapped and unmapped once
before its memory goes, every memory object goes once or is still held, and a call that fails leaves
nothing that it allocated. -/
theorem balanced_run {cs : List BufCall} (hfresh : s.Fresh) (h : Run (guarded Sound (fires next)) s cs t) :
    t.Balanced ∧ ∀ c, t.Sound c → (t.call c).1 ≠ .noError → (t.call c).2.Balanced ∧
        ∀ id, t.nextObj ≤ id → id < (t.call c).2.nextObj → id ∈ (t.call c).2.deallocated := by
  have hinv : t.Inv := by
    refine h.invariant (fun u c v hu hstep => ?_) hfresh.inv
    have hnext : u.next c = some v := hstep.2
    rw [QCameraStream.next] at hnext
    split at hnext
    · cases hnext
    · rw [← Option.some.inj hnext]
      exact (hu.call hstep.1).1
  refine ⟨hinv.balanced, fun c hs hfail => ?_⟩
  obtain ⟨hinv', hleaves⟩ := hinv.call hs
  refine ⟨hinv'.balanced, fun id hge hlt => ?_⟩
  rcases hleaves hfail with hsame | core
  · rw [hsame] at hlt
    exact absurd hge (Nat.not_le.mpr hlt)
  · exact core.part.mem_iff.mpr (mem_range.mpr hlt)

/-- A stream of five buffers, of which three are allocated first. -/
def dynamicStream : QCameraStream where
  mNumBufs := 5
  mDynBufAlloc := true

/-- The back end maps nothing. -/
def mapFails : BufEnv where
  map _ := false

/-- The buffers are not mapped, then they are; the rest is allocated by the thread, and all go. -/
theorem balanced_session : ∃ t, Run (guarded Sound (fires next)) dynamicStream
      [⟨.getBufs, mapFails⟩, ⟨.getBufs, {}⟩, ⟨.bufAllocRoutine, {}⟩, ⟨.putBufs, {}⟩] t ∧
      (t.deallocated = [0, 1] ∧ t.maps.length = 5 ∧ t.unmaps = t.maps) ∧
      t.Balanced ∧ ∀ c, t.Sound c → (t.call c).1 ≠ .noError → (t.call c).2.Balanced ∧
        ∀ id, t.nextObj ≤ id → id < (t.call c).2.nextObj → id ∈ (t.call c).2.deallocated := by
  let s₁ := (dynamicStream.call ⟨.getBufs, mapFails⟩).2
  let s₂ := (s₁.call ⟨.getBufs, {}⟩).2
  let s₃ := (s₂.call ⟨.bufAllocRoutine, {}⟩).2
  have hfresh : dynamicStream.Fresh := ⟨rfl, rfl, rfl, rfl, rfl, rfl, rfl, rfl, rfl⟩
  have hsound₁ : dynamicStream.Sound ⟨.getBufs, mapFails⟩ := fun _ =>
    ⟨rfl, rfl, fun obj hobj => by cases hobj; rfl⟩
  have hsound₂ : s₁.Sound ⟨.getBufs, {}⟩ := fun _ =>
    ⟨rfl, rfl, fun obj hobj => by cases hobj; rfl⟩
  have hsound₃ : s₂.Sound ⟨.bufAllocRoutine, {}⟩ := fun _ => by decide
  have hsound₄ : s₃.Sound ⟨.putBufs, {}⟩ := ⟨by decide, by decide⟩
  have hrun : Run (guarded Sound (fires next)) dynamicStream
      [⟨.getBufs, mapFails⟩, ⟨.getBufs, {}⟩, ⟨.bufAllocRoutine, {}⟩, ⟨.putBufs, {}⟩]
      (s₃.call ⟨.putBufs, {}⟩).2 :=
    ((((Run.nil.snoc ⟨hsound₁, rfl⟩).snoc (t := s₁) ⟨hsound₂, rfl⟩).snoc (t := s₂) ⟨hsound₃, rfl⟩).snoc
      (t := s₃) ⟨hsound₄, rfl⟩)
  exact ⟨_, hrun, by decide, balanced_run hfresh hrun⟩

/-- A stream in batch mode. -/
def batchStream : QCameraStream where
  batchMode := true
  frameBufCnt := 4
  mNumBufs := 2

/-- There is no memory for the stream buffers. -/
def planesFail : BufEnv where
  allocateStreamBuf _ := none

/-- The batch buffers are mapped, the stream buffers are not allocated: the batch buffers go while they are
mapped. -/
theorem mapped_batch : ∃ t, Run (fires next) batchStream [⟨.allocateBatchBufs, planesFail⟩] t ∧
    t.deallocated = [0] ∧ t.maps = [(0, 0)] ∧ t.unmaps = [] ∧ ¬ t.Balanced := by
  let u := (batchStream.call ⟨.allocateBatchBufs, planesFail⟩).2
  have hrun : Run (fires next) batchStream [⟨.allocateBatchBufs, planesFail⟩] u := Run.single rfl
  refine ⟨u, hrun, rfl, rfl, rfl, fun hbalanced => ?_⟩
  have hunmapped := (hbalanced.unmapped (0, 0) (mem_singleton_self _) (mem_singleton_self _)).2
  exact absurd hunmapped (by decide)

end QCameraStream

end Marlin
