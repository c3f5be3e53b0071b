import Mathlib.Data.List.Nodup
import Mathlib.Data.List.Perm.Basic
import Mathlib.Data.Nat.ModEq
import Marlin.Transition

/-!
# The Offline Mappings of the Reprocess Channel

`doReprocessOffline` maps the input and the metadata of a job to the backend before it asks for the
reprocessing. The indices of the inputs go round in `[0, mNumBuffers)` and those of the metadata in
`[mNumBuffers, 2 * mNumBuffers)`. The mappings are remembered in two lists, and a completion unmaps the
head of each. Nothing says which job an entry is for: it is the oldest if the lists and the jobs in flight
go together.

They do not when a call fails half way. An input whose metadata cannot be mapped stays mapped and in its
list, and so do both if the reprocessing is refused. Metadata that is mapped after its input could not be
is in no list.

## Conventions

* A job in flight is the pair of indices that the backend was given, in the order of submission.
* `mapped` is what the backend has mapped for the channel's stream, one entry for each `mapBuf` that
  succeeded and no `unmapBuf` that did.
* What `doReprocessOffline` does before the mappings, up to the queueing of the output buffer, is one flag.
  Performance parameters are left out; their failure does not end the call.
* The counts of buffers are small, and the index arithmetic is that of the integers.

## Main results

* `Ring.doReprocessOffline`, `Ring.unmapOfflineBuffers`: what the two calls preserve.
* `offline_mappings_run`: in the runs without half failures the lists are the indices of the jobs in
  flight, which are mapped once each and keep apart.
-/

namespace Marlin

open List Bool Transition

namespace OfflineMaps

/-- The mapping types of offline buffers. -/
inductive MappingType
  | offlineInputBuf
  | offlineMetaBuf
  deriving DecidableEq

/-- `OfflineBuffer`, of the channel's only stream. -/
structure OfflineBuffer where
  type : MappingType
  index : ℕ
  deriving DecidableEq

/-- A job that the backend was given: `buf_index` and `meta_buf_index`. -/
structure Job where
  bufIndex : ℕ
  metaBufIndex : ℕ
  deriving DecidableEq

/-- The channel, with the mappings of the backend and the jobs in flight. -/
structure ReprocessChannel where
  mNumBuffers : ℕ
  mOfflineBuffersIndex : ℤ := mNumBuffers - 1
  mOfflineMetaIndex : ℤ := 2 * mNumBuffers - 1
  mOfflineBuffers : List OfflineBuffer := []
  mOfflineMetaBuffers : List OfflineBuffer := []
  mapped : List OfflineBuffer := []
  inFlight : List Job := []
  deriving DecidableEq

/-- How the calls of `doReprocessOffline` end. -/
structure Calls where
  prepared : Bool := true
  inputMapped : Bool := true
  metaMapped : Bool := true
  reprocess : Bool := true
  deriving DecidableEq

namespace ReprocessChannel

variable {c : ReprocessChannel}

/-- `mapBuf`. -/
def mapBuf (c : ReprocessChannel) (b : OfflineBuffer) (ok : Bool) : ReprocessChannel :=
  if ok then { c with mapped := c.mapped ++ [b] } else c

/-- The index of the inputs is looped back if the maximum is reached. -/
def loopInput (c : ReprocessChannel) : ReprocessChannel :=
  { c with
    mOfflineBuffersIndex :=
      if c.mOfflineBuffersIndex = c.mNumBuffers - 1 then -1 else c.mOfflineBuffersIndex }

/-- The index of the metadata is looped back if the maximum is reached. -/
def loopMeta (c : ReprocessChannel) : ReprocessChannel :=
  { c with
    mOfflineMetaIndex :=
      if c.mOfflineMetaIndex = c.mNumBuffers * 2 - 1 then c.mNumBuffers - 1
      else c.mOfflineMetaIndex }

/-- The mapping of the input is remembered. -/
def pushInput (c : ReprocessChannel) (bufIdx : ℕ) : ReprocessChannel :=
  { c with
    mOfflineBuffers := c.mOfflineBuffers ++ [⟨.offlineInputBuf, bufIdx⟩]
    mOfflineBuffersIndex := bufIdx }

/-- The mapping of the metadata is remembered. -/
def pushMeta (c : ReprocessChannel) (metaBufIdx : ℕ) : ReprocessChannel :=
  { c with
    mOfflineMetaBuffers := c.mOfflineMetaBuffers ++ [⟨.offlineMetaBuf, metaBufIdx⟩]
    mOfflineMetaIndex := metaBufIdx }

/-- `doReprocessOffline`. The metadata is mapped also if the input was not, and is remembered only if
both were. -/
def doReprocessOffline (c : ReprocessChannel) (calls : Calls) : ReprocessChannel :=
  if !calls.prepared then c
  else
    let c := c.loopInput
    let bufIdx := (c.mOfflineBuffersIndex + 1).toNat
    let c := c.mapBuf ⟨.offlineInputBuf, bufIdx⟩ calls.inputMapped
    let c := if calls.inputMapped then c.pushInput bufIdx else c
    let c := c.loopMeta
    let metaBufIdx := (c.mOfflineMetaIndex + 1).toNat
    let c := c.mapBuf ⟨.offlineMetaBuf, metaBufIdx⟩ calls.metaMapped
    if calls.inputMapped && calls.metaMapped then
      let c := c.pushMeta metaBufIdx
      if calls.reprocess then { c with inFlight := c.inFlight ++ [⟨bufIdx, metaBufIdx⟩] } else c
    else c

/-- One of the loops of `unmapOfflineBuffers`: the backend's mappings and the entries that stay. An entry
is dropped whether `unmapBuf` succeeds or not. -/
def unmapLoop (all : Bool) (unmapBuf : OfflineBuffer → Bool) :
    List OfflineBuffer → List OfflineBuffer → List OfflineBuffer × List OfflineBuffer
  | mapped, [] => (mapped, [])
  | mapped, b :: rest =>
    let mapped := if unmapBuf b then mapped.erase b else mapped
    if !all then (mapped, rest) else unmapLoop all unmapBuf mapped rest

/-- `unmapOfflineBuffers`. -/
def unmapOfflineBuffers (c : ReprocessChannel) (all : Bool) (unmapBuf : OfflineBuffer → Bool) :
    ReprocessChannel :=
  let inputs := unmapLoop all unmapBuf c.mapped c.mOfflineBuffers
  let metas := unmapLoop all unmapBuf inputs.1 c.mOfflineMetaBuffers
  { c with mOfflineBuffers := inputs.2, mOfflineMetaBuffers := metas.2, mapped := metas.1 }

end ReprocessChannel

/-- A call, the completion of the oldest job, and the end of them all. -/
inductive Event
  | doReprocessOffline (calls : Calls)
  | complete (unmapBuf : OfflineBuffer → Bool)
  | stop (unmapBuf : OfflineBuffer → Bool)

namespace ReprocessChannel

variable {c d : ReprocessChannel}

/-- The events that can happen: at most `mNumBuffers` jobs are in flight, and a job completes once. -/
def step (c : ReprocessChannel) : Event → Option ReprocessChannel
  | .doReprocessOffline calls =>
    if c.inFlight.length < c.mNumBuffers then some (c.doReprocessOffline calls) else none
  | .complete unmapBuf =>
    match c.inFlight with
    | [] => none
    | _ :: rest => some { c.unmapOfflineBuffers false unmapBuf with inFlight := rest }
  | .stop unmapBuf => some { c.unmapOfflineBuffers true unmapBuf with inFlight := [] }

/-- No call fails half way: one that begins to map has both buffers mapped and its job accepted, or maps
neither. What is unmapped is unmapped. -/
def Whole (c : ReprocessChannel) : Event → Prop
  | .doReprocessOffline calls => calls.prepared = true → calls.inputMapped = calls.metaMapped ∧
      (calls.inputMapped = true → calls.reprocess = true)
  | .complete unmapBuf => ∀ b ∈ c.mOfflineBuffers.take 1 ++ c.mOfflineMetaBuffers.take 1,
      unmapBuf b = true
  | .stop unmapBuf => ∀ b ∈ c.mOfflineBuffers ++ c.mOfflineMetaBuffers, unmapBuf b = true

instance (c : ReprocessChannel) (e : Event) : Decidable (c.Whole e) := by
  delta Whole
  cases e <;> infer_instance

/-- The entries of the inputs of jobs. -/
def inputs (jobs : List Job) : List OfflineBuffer := jobs.map fun job => ⟨.offlineInputBuf, job.bufIndex⟩

/-- The entries of the metadata of jobs. -/
def metas (jobs : List Job) : List OfflineBuffer :=
  jobs.map fun job => ⟨.offlineMetaBuf, job.metaBufIndex⟩

/-- The lists are the indices of the jobs in flight. These are what is mapped, each once, and those of
inputs are not those of metadata. -/
structure Matched (c : ReprocessChannel) : Prop where
  inputs : c.mOfflineBuffers = inputs c.inFlight
  metas : c.mOfflineMetaBuffers = metas c.inFlight
  mapped : c.mapped.Perm (c.mOfflineBuffers ++ c.mOfflineMetaBuffers)
  once : (c.mapped.map (·.index)).Nodup
  apart : ∀ job ∈ c.inFlight, ∀ job' ∈ c.inFlight, job.bufIndex ≠ job'.metaBufIndex

/-! ### The calls -/

/-- The index that the next input gets. -/
def bufIdx (c : ReprocessChannel) : ℕ := (c.loopInput.mOfflineBuffersIndex + 1).toNat

/-- The index that the next metadata gets. -/
def metaBufIdx (c : ReprocessChannel) : ℕ := (c.loopMeta.mOfflineMetaIndex + 1).toNat

theorem doReprocessOffline_eq (c : ReprocessChannel) (inputMapped metaMapped reprocess : Bool) :
    c.doReprocessOffline ⟨true, inputMapped, metaMapped, reprocess⟩ = { c with
      mOfflineBuffersIndex := if inputMapped then c.bufIdx else c.loopInput.mOfflineBuffersIndex
      mOfflineMetaIndex :=
        if inputMapped && metaMapped then c.metaBufIdx else c.loopMeta.mOfflineMetaIndex
      mOfflineBuffers := c.mOfflineBuffers ++
        if inputMapped then [⟨.offlineInputBuf, c.bufIdx⟩] else []
      mOfflineMetaBuffers := c.mOfflineMetaBuffers ++
        if inputMapped && metaMapped then [⟨.offlineMetaBuf, c.metaBufIdx⟩] else []
      mapped := c.mapped ++ (if inputMapped then [⟨.offlineInputBuf, c.bufIdx⟩] else []) ++
        if metaMapped then [⟨.offlineMetaBuf, c.metaBufIdx⟩] else []
      inFlight := c.inFlight ++
        if inputMapped && metaMapped && reprocess then [⟨c.bufIdx, c.metaBufIdx⟩] else [] } := by
  rw [doReprocessOffline, bufIdx, metaBufIdx, loopInput, loopMeta]
  by_cases hinput : c.mOfflineBuffersIndex = c.mNumBuffers - 1 <;>
    by_cases hmeta : c.mOfflineMetaIndex = c.mNumBuffers * 2 - 1 <;>
      cases inputMapped <;> cases metaMapped <;> cases reprocess <;>
        simp [loopMeta, mapBuf, pushInput, pushMeta, hinput, hmeta]

theorem unmapLoop_snd (all : Bool) (unmapBuf : OfflineBuffer → Bool) (mapped l : List OfflineBuffer) :
    (unmapLoop all unmapBuf mapped l).2 = if all then [] else l.tail := by
  induction l generalizing mapped with
  | nil => cases all <;> rfl
  | cons b rest ih =>
    rw [unmapLoop]
    cases all
    · rfl
    · exact ih _

variable {all : Bool} {unmapBuf : OfflineBuffer → Bool}

theorem unmapLoop_perm {mapped l others : List OfflineBuffer} (h : mapped.Perm (l ++ others))
    (hok : ∀ b ∈ if all then l else l.take 1, unmapBuf b = true) :
    (unmapLoop all unmapBuf mapped l).1.Perm ((unmapLoop all unmapBuf mapped l).2 ++ others) := by
  induction l generalizing mapped with
  | nil => exact h
  | cons b rest ih =>
    have hb : unmapBuf b = true := hok b (by cases all <;> simp)
    have hmapped : (mapped.erase b).Perm (rest ++ others) := by
      have herase := h.erase b
      rwa [cons_append, erase_cons_head] at herase
    rw [unmapLoop, if_pos hb]
    cases all
    · exact hmapped
    · exact ih hmapped fun b' hb' => hok b' (mem_cons_of_mem _ hb')

theorem unmapOfflineBuffers_perm (h : c.mapped.Perm (c.mOfflineBuffers ++ c.mOfflineMetaBuffers))
    (hinputs : ∀ b ∈ if all then c.mOfflineBuffers else c.mOfflineBuffers.take 1, unmapBuf b = true)
    (hmetas : ∀ b ∈ if all then c.mOfflineMetaBuffers else c.mOfflineMetaBuffers.take 1, unmapBuf b = true) :
    (c.unmapOfflineBuffers all unmapBuf).mapped.Perm ((c.unmapOfflineBuffers all unmapBuf).mOfflineBuffers ++
        (c.unmapOfflineBuffers all unmapBuf).mOfflineMetaBuffers) := by
  have hfirst := (unmapLoop_perm h hinputs).trans perm_append_comm
  exact (unmapLoop_perm hfirst hmetas).trans perm_append_comm

/-! ### The ring -/

/-- The job that is submitted as number `k`. -/
def job (n k : ℕ) : Job := ⟨k % n, n + k % n⟩

/-- After the first `done` jobs the next `len` are in flight, and the indices go on from there. -/
structure Ring (c : ReprocessChannel) (done len : ℕ) : Prop where
  inFlight : c.inFlight = (List.range' done len).map (job c.mNumBuffers)
  room : len ≤ c.mNumBuffers
  next : c.bufIdx = (done + len) % c.mNumBuffers
  nextMeta : c.metaBufIdx = c.mNumBuffers + (done + len) % c.mNumBuffers
  inputs : c.mOfflineBuffers = ReprocessChannel.inputs c.inFlight
  metas : c.mOfflineMetaBuffers = ReprocessChannel.metas c.inFlight
  mapped : c.mapped.Perm (c.mOfflineBuffers ++ c.mOfflineMetaBuffers)

variable {k : ℕ}

theorem succ_mod {n : ℕ} (hn : 0 < n) : (k + 1) % n = if k % n = n - 1 then 0 else k % n + 1 := by
  have hlt := Nat.mod_lt k hn
  rw [← Nat.mod_add_mod]
  split
  · rename_i hlast
    rw [show k % n + 1 = n by omega, Nat.mod_self]
  · exact Nat.mod_eq_of_lt (by omega)

variable {done len : ℕ}

theorem range_mod_nodup {n : ℕ} (h : len ≤ n) : ((List.range' done len).map (· % n)).Nodup := by
  have hinj {k l : ℕ} (hk : done ≤ k) (hl : l < done + len) (hkl : k ≤ l) (hmod : k % n = l % n) : k = l := by
    have hdvd : n ∣ l - k := (Nat.modEq_iff_dvd' hkl).mp hmod
    have hzero := Nat.eq_zero_of_dvd_of_lt hdvd (by omega)
    omega
  refine List.Nodup.map_on (fun k hk l hl hmod => ?_) nodup_range'
  obtain ⟨hk, hk'⟩ := mem_range'_1.mp hk
  obtain ⟨hl, hl'⟩ := mem_range'_1.mp hl
  rcases Nat.le_total k l with hkl | hlk
  · exact hinj hk hl' hkl hmod
  · exact (hinj hl hk' hlk hmod.symm).symm

theorem bufIdx_succ (hn : 0 < c.mNumBuffers) (h : c.mOfflineBuffersIndex = (k % c.mNumBuffers : ℕ)) :
    c.bufIdx = (k + 1) % c.mNumBuffers := by
  rw [bufIdx, loopInput, succ_mod hn, h]
  generalize k % c.mNumBuffers = m at h
  by_cases hlast : m = c.mNumBuffers - 1
  · rw [if_pos (by omega), if_pos hlast]
    rfl
  · rw [if_neg (by omega), if_neg hlast]
    dsimp only
    omega

theorem metaBufIdx_succ (hn : 0 < c.mNumBuffers) (h : c.mOfflineMetaIndex = (c.mNumBuffers + k % c.mNumBuffers : ℕ)) :
    c.metaBufIdx = c.mNumBuffers + (k + 1) % c.mNumBuffers := by
  rw [metaBufIdx, loopMeta, succ_mod hn, h]
  generalize k % c.mNumBuffers = m at h
  by_cases hlast : m = c.mNumBuffers - 1
  · rw [if_pos (by omega), if_pos hlast]
    dsimp only
    omega
  · rw [if_neg (by omega), if_neg hlast]
    dsimp only
    omega

theorem bufIdx_loop (hn : d.mNumBuffers = c.mNumBuffers)
    (h : d.mOfflineBuffersIndex = c.loopInput.mOfflineBuffersIndex) : d.bufIdx = c.bufIdx := by
  rw [bufIdx, bufIdx, loopInput, h, hn, loopInput]
  split <;> simp

theorem metaBufIdx_loop (hn : d.mNumBuffers = c.mNumBuffers)
    (h : d.mOfflineMetaIndex = c.loopMeta.mOfflineMetaIndex) : d.metaBufIdx = c.metaBufIdx := by
  rw [metaBufIdx, metaBufIdx, loopMeta, h, hn, loopMeta]
  split <;> simp

/-- **What a call preserves.** -/
theorem Ring.doReprocessOffline (h : c.Ring done len) (hroom : len < c.mNumBuffers)
    {calls : Calls} (hwhole : c.Whole (.doReprocessOffline calls)) :
    ∃ len', (c.doReprocessOffline calls).Ring done len' := by
  obtain ⟨prepared, inputMapped, metaMapped, reprocess⟩ := calls
  cases prepared
  · exact ⟨len, h⟩
  obtain ⟨heq, haccepted⟩ := hwhole rfl
  obtain rfl : inputMapped = metaMapped := heq
  rw [doReprocessOffline_eq]
  cases inputMapped
  · -- neither is mapped: the indices may have been looped back
    simp only [Bool.false_eq_true, if_false, Bool.and_self, Bool.false_and, List.append_nil]
    refine ⟨len, h.inFlight, h.room, ?_, ?_, h.inputs, h.metas, h.mapped⟩
    · refine Eq.trans ?_ h.next
      exact bufIdx_loop rfl rfl
    · refine Eq.trans ?_ h.nextMeta
      exact metaBufIdx_loop rfl rfl
  · obtain rfl : reprocess = true := haccepted rfl
    have hpos : 0 < c.mNumBuffers := by omega
    refine ⟨len + 1, ?_, hroom, ?_, ?_, ?_, ?_, ?_⟩
    · simp [List.range'_1_concat, h.inFlight, job, h.next, h.nextMeta]
    · exact bufIdx_succ hpos (by simp [h.next])
    · exact metaBufIdx_succ hpos (by simp [h.nextMeta])
    · simp [ReprocessChannel.inputs, h.inputs]
    · simp [ReprocessChannel.metas, h.metas]
    · have hinput : (c.mapped ++ [OfflineBuffer.mk .offlineInputBuf c.bufIdx]).Perm
          (c.mOfflineBuffers ++ [OfflineBuffer.mk .offlineInputBuf c.bufIdx] ++ c.mOfflineMetaBuffers) := by
        refine (h.mapped.append_right _).trans ?_
        rw [List.append_assoc, List.append_assoc]
        exact List.perm_append_comm.append_left _
      have hmeta := hinput.append_right [⟨.offlineMetaBuf, c.metaBufIdx⟩]
      rwa [List.append_assoc (c.mOfflineBuffers ++ _)] at hmeta

/-- **What unmapping preserves**: the jobs that leave are the oldest. -/
theorem Ring.unmapOfflineBuffers {gone : ℕ} (h : c.Ring done len) (hgone : gone = if all then len else min 1 len)
    (hinputs : ∀ b ∈ if all then c.mOfflineBuffers else c.mOfflineBuffers.take 1, unmapBuf b = true)
    (hmetas : ∀ b ∈ if all then c.mOfflineMetaBuffers else c.mOfflineMetaBuffers.take 1, unmapBuf b = true) :
    Ring { c.unmapOfflineBuffers all unmapBuf with inFlight := c.inFlight.drop gone } (done + gone) (len - gone) := by
  have hle : gone ≤ len := by
    rw [hgone]
    split <;> omega
  have hdrop {f : Job → OfflineBuffer} :
      (if all then [] else (c.inFlight.map f).tail) = (c.inFlight.drop gone).map f := by
    rw [hgone, h.inFlight]
    cases all
    · cases len <;> simp [range'_succ]
    · simp
  have hsum : done + gone + (len - gone) = done + len := by omega
  refine ⟨?_, ?_, ?_, ?_, ?_, ?_, unmapOfflineBuffers_perm h.mapped hinputs hmetas⟩
  · change c.inFlight.drop gone = (range' (done + gone) (len - gone)).map (job c.mNumBuffers)
    rw [h.inFlight, ← map_drop, drop_range', Nat.mul_one]
  · exact Nat.le_trans (Nat.sub_le _ _) h.room
  · rw [hsum]
    exact h.next
  · rw [hsum]
    exact h.nextMeta
  · exact (unmapLoop_snd _ _ _ _).trans (h.inputs ▸ hdrop)
  · exact (unmapLoop_snd _ _ _ _).trans (h.metas ▸ hdrop)

theorem Ring.matched (h : c.Ring done len) : c.Matched := by
  have hnumber (job : Job) (hjob : job ∈ c.inFlight) :
      job.bufIndex < c.mNumBuffers ∧ c.mNumBuffers ≤ job.metaBufIndex := by
    rw [h.inFlight] at hjob
    obtain ⟨k, hk, rfl⟩ := mem_map.mp hjob
    have hlen : 0 < len := by
      have := mem_range'_1.mp hk
      omega
    exact ⟨Nat.mod_lt k (hlen.trans_le h.room), Nat.le_add_right _ _⟩
  have hapart (j : Job) (hj : j ∈ c.inFlight) (j' : Job) (hj' : j' ∈ c.inFlight) : j.bufIndex ≠ j'.metaBufIndex := by
    have hlt := (hnumber j hj).1
    have hle := (hnumber j' hj').2
    omega
  refine ⟨h.inputs, h.metas, h.mapped, ?_, hapart⟩
  have hbufs : (c.inFlight.map (·.bufIndex)).Nodup := by
    rw [h.inFlight, map_map]
    exact range_mod_nodup h.room
  have hmetas : (c.inFlight.map (·.metaBufIndex)).Nodup := by
    have heq : c.inFlight.map (·.metaBufIndex) = (c.inFlight.map (·.bufIndex)).map (c.mNumBuffers + ·) := by
      rw [h.inFlight, map_map, map_map, map_map]
      rfl
    rw [heq]
    exact hbufs.map fun _ _ heq => Nat.add_left_cancel heq
  have hindices : (c.mapped.map (·.index)).Perm (c.inFlight.map (·.bufIndex) ++ c.inFlight.map (·.metaBufIndex)) := by
    refine (h.mapped.map _).trans (List.Perm.of_eq ?_)
    rw [h.inputs, h.metas, map_append, ReprocessChannel.inputs, ReprocessChannel.metas, map_map, map_map]
    rfl
  refine hindices.nodup_iff.mpr (nodup_append.mpr ⟨hbufs, hmetas, ?_⟩)
  intro i hi i' hi'
  obtain ⟨j, hj, rfl⟩ := mem_map.mp hi
  obtain ⟨j', hj', rfl⟩ := mem_map.mp hi'
  exact hapart j hj j' hj'

/-! ### Every run -/

theorem Ring.step (h : c.Ring done len) {e : Event} (hwhole : c.Whole e)
    (hstep : c.step e = some d) : ∃ done' len', d.Ring done' len' := by
  have hlength : c.inFlight.length = len := by rw [h.inFlight, length_map, length_range']
  cases e with
  | doReprocessOffline calls =>
    rw [ReprocessChannel.step] at hstep
    split at hstep
    · cases hstep
      obtain ⟨len', hring⟩ := h.doReprocessOffline (by omega) hwhole
      exact ⟨done, len', hring⟩
    · cases hstep
  | complete unmapBuf =>
    rw [ReprocessChannel.step] at hstep
    rcases hjobs : c.inFlight with _ | ⟨job, rest⟩
    · rw [hjobs] at hstep
      cases hstep
    · rw [hjobs] at hstep hlength
      cases hstep
      have hone : 1 = if false then len else min 1 len := by
        rw [← hlength, length_cons]
        exact (Nat.min_eq_left (Nat.le_add_left 1 rest.length)).symm
      have hring := h.unmapOfflineBuffers hone (fun b hb => hwhole b (mem_append_left _ hb))
        fun b hb => hwhole b (mem_append_right _ hb)
      rw [hjobs] at hring
      exact ⟨done + 1, len - 1, hring⟩
  | stop unmapBuf =>
    cases hstep
    have hall : len = if true then len else min 1 len := rfl
    have hring := h.unmapOfflineBuffers hall (fun b hb => hwhole b (mem_append_left _ hb))
      fun b hb => hwhole b (mem_append_right _ hb)
    rw [drop_of_length_le hlength.le] at hring
    exact ⟨_, _, hring⟩

theorem ring_initial (n : ℕ) : Ring { mNumBuffers := n } 0 0 where
  inFlight := rfl
  room := Nat.zero_le n
  next := by simp [bufIdx, loopInput]
  nextMeta := by
    simp only [metaBufIdx, loopMeta, Nat.zero_mod, Nat.add_zero]
    rw [if_pos (by omega)]
    omega
  inputs := rfl
  metas := rfl
  mapped := .refl _

/-- **The offline mappings.** In every run in which no call fails half way the two lists are the indices
of the jobs in flight, no index is mapped twice, and inputs and metadata keep apart. -/
theorem offline_mappings_run (n : ℕ) {es : List Event}
    (h : Run (guarded Whole (fires step)) { mNumBuffers := n } es c) : c.Matched := by
  have hring : ∃ done len, c.Ring done len :=
    h.invariant (I := fun c => ∃ done len, c.Ring done len)
      (fun _ _ _ ⟨_, _, hring⟩ hstep => hring.step hstep.1 hstep.2) ⟨0, 0, ring_initial n⟩
  obtain ⟨done, len, hring⟩ := hring
  exact hring.matched

/-- Two buffers, three jobs: the ring wraps, with a call that maps nothing on the way. -/
def wrapped : List Event :=
  [.doReprocessOffline {}, .doReprocessOffline {}, .complete fun _ => true,
    .doReprocessOffline { inputMapped := false, metaMapped := false }, .doReprocessOffline {}]

/-- The second and the third job are in flight. -/
theorem offline_mappings_wrapped : ∃ c, Run (guarded Whole (fires step)) { mNumBuffers := 2 } wrapped c ∧ c.Matched ∧
      c.inFlight = [⟨1, 3⟩, ⟨0, 2⟩] :=
  (exists_run (by decide)).imp fun _ h => ⟨h.1, offline_mappings_run 2 h.1, h.2⟩

/-- The metadata of the first job cannot be mapped. -/
def halfFailure : List Event :=
  [.doReprocessOffline { metaMapped := false }, .doReprocessOffline {}, .doReprocessOffline {}]

/-- Its input stays first in the list, and is mapped again when the ring wraps. -/
theorem half_failure_maps_twice :
    ∃ c, Run (fires step) { mNumBuffers := 2 } halfFailure c ∧ c.inFlight = [⟨1, 2⟩, ⟨0, 3⟩] ∧
      c.mOfflineBuffers = [⟨.offlineInputBuf, 0⟩, ⟨.offlineInputBuf, 1⟩, ⟨.offlineInputBuf, 0⟩] ∧
      c.mapped.count ⟨.offlineInputBuf, 0⟩ = 2 ∧ ¬ c.Matched := by
  refine (exists_run_fires (P := fun c => c.inFlight = [⟨1, 2⟩, ⟨0, 3⟩] ∧
    c.mOfflineBuffers = [⟨.offlineInputBuf, 0⟩, ⟨.offlineInputBuf, 1⟩, ⟨.offlineInputBuf, 0⟩] ∧
    c.mapped.count ⟨.offlineInputBuf, 0⟩ = 2) (by decide)).imp fun c hc => ⟨hc.1, ?_⟩
  obtain ⟨-, hjobs, hlist, htwice⟩ := hc
  refine ⟨hjobs, hlist, htwice, fun hmatched => ?_⟩
  have hlength := congrArg length hmatched.inputs
  rw [hlist, hjobs] at hlength
  cases hlength

end ReprocessChannel

end OfflineMaps

end Marlin
