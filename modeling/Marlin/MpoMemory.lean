import Marlin.MpoPairing

/-!
# The Memory of the Pictures of Two Cameras

Each JPEG comes to `storeJpeg` with a callback by which it is released: at once, from the queue, or by the compose
thread behind the composition, for which `composeMpo` gets memory that it releases itself. Three exits forget what they
own. Where a node cannot be allocated the JPEG is not released, where `compose_mpo` fails the memory is not released,
and a flush leaves out the JPEGs without release data.

## Conventions

* The steps are those of the model of the muxer, and what is composed is one step.
* `stored` are the JPEGs with a `release_cb` that were passed to `storeJpeg`. `obtained` counts the memories that were
  got, and `freed` are those that were released, by their numbers.

## Main results

* `settled_next`: what one step does to the JPEGs.
* `released_run`: each JPEG and each memory is released once, as long as no step takes such an exit.
-/

namespace Marlin

open List Transition

namespace QCameraMuxer

/-- The JPEGs that the compose thread has taken. -/
def heldJpegs : ComposePc → CamSyncType → List ComposeJpegInfo
  | .takeAux main, .main | .compose main _, .main => [main]
  | .compose _ aux, .aux => [aux]
  | _, _ => []

/-- The frame indices of the JPEGs that are to be released. -/
def due (jpegs : List ComposeJpegInfo) : List ℕ := (jpegs.filter (·.releaseCb)).map (·.frameIdx)

/-- The JPEGs of a camera that the compose thread or the queue has. -/
def jpegs (s : QCameraMuxer) (cam : CamSyncType) : List ComposeJpegInfo :=
  heldJpegs s.pc cam ++ (s.jpegQ cam).nodes

/-- How often a JPEG was released, or is still to be. -/
def settled (s : QCameraMuxer) (cam : CamSyncType) (i : ℕ) : ℕ :=
  s.log.count (.released cam i) + (due (s.jpegs cam)).count i

/-- The JPEG of a camera that a step passes to `storeJpeg`. -/
def passed : Input → CamSyncType → List ComposeJpegInfo
  | .jpeg cam (some jpeg) _ _, c => if c = cam then [jpeg] else []
  | _, _ => []

/-- **The condition**: a JPEG with a `release_cb` gets its node, one that is flushed has release data, and a
composition that gets its memory succeeds. -/
def Keeps (s : QCameraMuxer) : Input → Prop
  | .jpeg _ (some jpeg) mallocFrame _ => s.mpoEnabled = true → jpeg.releaseCb = true → mallocFrame = true
  | .flush cam => ∀ jpeg ∈ (s.jpegQ cam).nodes, jpeg.releaseCb = true → jpeg.releaseData = true
  | .thread getMemory composeOk => heldAux s.pc ≠ [] → getMemory = true → composeOk = true
  | _ => True

instance (s : QCameraMuxer) : DecidablePred s.Keeps
  | .jpeg _ (some _) _ _ | .thread _ _ => inferInstanceAs (Decidable (_ → _ → _))
  | .flush cam => inferInstanceAs (Decidable (∀ jpeg ∈ (s.jpegQ cam).nodes, _))
  | .jpeg _ none _ _ | .trigger _ _ _ | .init _ | .sendCmd _ _ _ | .exit _ _ | .setMpoEnabled _ => isTrue trivial

variable {s t : QCameraMuxer} {cam c : CamSyncType} {i : ℕ} {jpeg : ComposeJpegInfo} {events : List MuxerEvent}

theorem due_append (l l' : List ComposeJpegInfo) : due (l ++ l') = due l ++ due l' := by simp [due]

theorem count_release (cam c : CamSyncType) (jpeg : ComposeJpegInfo) (i : ℕ) :
    (release cam jpeg).count (.released c i) = (due (if c = cam then [jpeg] else [])).count i := by
  by_cases heq : c = cam <;> cases h : jpeg.releaseCb <;>
    simp [release, due, h, heq, Ne.symm, count_singleton]

theorem settled_of (new gone : List ComposeJpegInfo) (hlog : t.log = s.log ++ events)
    (hjpegs : (s.jpegs c ++ new).Perm (gone ++ t.jpegs c))
    (hevents : events.count (.released c i) = (due gone).count i) :
    t.settled c i = s.settled c i + (due new).count i := by
  have hcount : (due (s.jpegs c ++ new)).count i = (due (gone ++ t.jpegs c)).count i :=
    ((hjpegs.filter _).map _).count_eq i
  rw [due_append, due_append, count_append, count_append] at hcount
  rw [settled, settled, hlog, count_append]
  omega

theorem settled_jpegDataCallback {data : Option ComposeJpegInfo} {mallocFrame mallocNode : Bool}
    (hkeeps : s.Keeps (.jpeg cam data mallocFrame mallocNode)) :
    (s.jpegDataCallback cam data mallocFrame mallocNode).settled c i =
      s.settled c i + (due (passed (.jpeg cam data mallocFrame mallocNode) c)).count i := by
  cases data with
  | none => exact settled_of [] [] rfl (.of_eq (append_nil _)) rfl
  | some jpeg =>
    have hreleased : ∀ t : QCameraMuxer, ∀ pre post : List MuxerEvent, t.jpegs c = s.jpegs c →
        t.log = s.log ++ (.delivered cam jpeg.frameIdx :: (pre ++ (release cam jpeg ++ post))) →
        pre.count (.released c i) = 0 → post.count (.released c i) = 0 →
        t.settled c i = s.settled c i + (due (if c = cam then [jpeg] else [])).count i := by
      intro t pre post hjpegs hlog hpre hpost
      refine settled_of _ (if c = cam then [jpeg] else []) hlog (hjpegs ▸ perm_append_comm) ?_
      simpa [count_append, hpre, hpost] using count_release cam c jpeg i
    have hstored : ∀ t : QCameraMuxer, t.pc = s.pc → t.log = s.log ++ [.delivered cam jpeg.frameIdx] →
        (t.jpegQ c).nodes = (s.jpegQ c).nodes ++ (if c = cam then [jpeg] else []) →
        t.settled c i = s.settled c i + (due (if c = cam then [jpeg] else [])).count i := by
      intro t hpc hlog hnodes
      refine settled_of _ [] hlog (.of_eq ?_) rfl
      rw [jpegs, jpegs, hpc, hnodes, append_assoc, nil_append]
    rw [jpegDataCallback, storeJpeg.eq_def]
    split
    · refine hreleased _ (if cam = .main then [.dataCb jpeg.frameIdx] else []) [] rfl ?_ (by split <;> rfl) rfl
      simp [emit]
    · rename_i hon
      split
      · -- no node: the JPEG has no `release_cb`
        rename_i hmalloc
        have hcb : jpeg.releaseCb = false := eq_false_of_ne_true fun hcb => by
          cases hmalloc.symm.trans (hkeeps (eq_true_of_ne_false hon) hcb)
        refine hreleased _ [] [.evtError] rfl ?_ rfl rfl
        simp [emit, release, hcb]
      · cases cam with
        | main =>
          have hcases := s.mainJpegQ.enqueue_cases mallocNode jpeg
          rcases hq : s.mainJpegQ.enqueue mallocNode jpeg with ⟨_ | _, q⟩
          · simp only [emit, hq, append_assoc]
            exact hreleased _ [] [.evtError] rfl rfl rfl rfl
          · simp only [emit, hq]
            refine hstored _ rfl rfl ?_
            rw [hq] at hcases
            cases c with
            | main => exact (hcases.resolve_right (by rintro ⟨⟩)).2
            | aux => exact (append_nil _).symm
        | aux =>
          have hcases := s.auxJpegQ.enqueue_cases mallocNode jpeg
          rcases hq : s.auxJpegQ.enqueue mallocNode jpeg with ⟨_ | _, q⟩
          · simp only [emit, hq, append_assoc]
            exact hreleased _ [] [.evtError] rfl rfl rfl rfl
          · simp only [emit, hq]
            refine hstored _ rfl rfl ?_
            rw [hq] at hcases
            cases c with
            | main => exact (append_nil _).symm
            | aux => exact (hcases.resolve_right (by rintro ⟨⟩)).2

theorem count_flush {l : List ComposeJpegInfo} (hl : ∀ jpeg ∈ l, jpeg.releaseCb = true → jpeg.releaseData = true) :
    (l.flatMap (releaseJpegInfo cam)).count (.released c i) = (due (if c = cam then l else [])).count i := by
  induction l with
  | nil => simp [due]
  | cons jpeg l ih =>
    have hdata : releaseJpegInfo cam jpeg = release cam jpeg := by
      have hjpeg := hl jpeg mem_cons_self
      cases hcb : jpeg.releaseCb <;> simp_all [releaseJpegInfo, release]
    rw [flatMap_cons, count_append, hdata, count_release, ih fun j hj => hl j (mem_cons_of_mem _ hj), ← count_append,
      ← due_append]
    split <;> rfl

theorem settled_flushJpegQ (hkeeps : s.Keeps (.flush cam)) : (s.flushJpegQ cam).settled c i = s.settled c i := by
  refine settled_of [] (if c = cam then (s.jpegQ cam).nodes else [])
    (?_ : _ = s.log ++ ((s.jpegQ cam).nodes.flatMap (releaseJpegInfo cam) ++ [.flushed cam])) ?_ ?_
  · cases cam <;> rfl
  · rw [append_nil]
    cases cam <;> cases c <;> simp [jpegs, jpegQ, flushJpegQ, emit, QCameraQueue.flush, perm_append_comm]
  · rw [count_append, count_flush hkeeps]
    rfl

theorem settled_moved (hlog : t.log = s.log) (hjpegs : t.jpegs c = s.jpegs c) : t.settled c i = s.settled c i := by
  rw [settled, settled, hlog, hjpegs]

theorem settled_composeMpoRoutine {getMemory composeOk : Bool}
    (ht : s.composeMpoRoutine getMemory composeOk = some t) : t.settled c i = s.settled c i := by
  rw [composeMpoRoutine] at ht
  split at ht <;> rename_i hpc
  · obtain ⟨⟨cmd, th⟩, -, rfl⟩ := Option.map_eq_some_iff.mp ht
    cases cmd with
    | doNextJob =>
      rw [takeCmd]
      split <;> exact settled_moved rfl (by simp [jpegs, hpc, heldJpegs, jpegQ])
    | _ => exact settled_moved rfl (by simp [takeCmd, jpegs, hpc, heldJpegs, jpegQ])
  · cases ht
    exact settled_moved rfl (by split <;> simp [jpegs, hpc, heldJpegs, jpegQ])
  · cases ht
    exact settled_moved rfl (by split <;> simp [jpegs, hpc, heldJpegs, jpegQ])
  · rw [QCameraQueue.dequeue] at ht
    cases hnodes : s.mainJpegQ.nodes <;> simp only [hnodes, head?_nil, head?_cons] at ht <;> cases ht <;>
      exact settled_moved rfl (by cases c <;> simp [jpegs, hpc, heldJpegs, jpegQ, hnodes])
  · rename_i main
    rw [QCameraQueue.dequeue] at ht
    cases hnodes : s.auxJpegQ.nodes with
    | nil =>
      simp only [hnodes, head?_nil] at ht
      cases ht
      refine settled_of [] (if c = .main then [main] else []) rfl (.of_eq ?_)
        (count_release .main c main i)
      cases c <;> simp [jpegs, hpc, heldJpegs, jpegQ, hnodes, emit]
    | cons aux rest =>
      simp only [hnodes, head?_cons] at ht
      cases ht
      exact settled_moved rfl (by cases c <;> simp [jpegs, hpc, heldJpegs, jpegQ, hnodes])
  · rename_i main aux
    cases ht
    refine settled_of [] ((if c = .main then [main] else []) ++ if c = .aux then [aux] else []) rfl
      (.of_eq ?_) ?_
    · cases c <;> simp [jpegs, hpc, heldJpegs, jpegQ, composeMpo, emit]
    · rw [count_append, count_append, count_release, count_release, due_append, count_append]
      split <;> simp
  · cases ht

/-- **What one step does to the JPEGs**: one that is passed is released, or owned. -/
theorem settled_next {input : Input} (hkeeps : s.Keeps input) (ht : s.next input = some t) :
    t.settled c i = s.settled c i + (due (passed input c)).count i := by
  cases input with
  | jpeg cam data =>
    rw [next] at ht
    split at ht <;> cases ht
    exact settled_jpegDataCallback hkeeps
  | trigger cam =>
    rw [next] at ht
    split at ht <;> cases ht
    cases cam <;> rfl
  | init cam => cases ht; cases cam <;> cases c <;> rfl
  | flush cam => cases ht; exact settled_flushJpegQ hkeeps
  | thread => exact settled_composeMpoRoutine ht
  | _ => cases ht; rfl

end QCameraMuxer

/-- The muxer with `m_pRelCamMpoJpeg`, and what was passed, obtained and freed. -/
structure MpoMemory where
  muxer : QCameraMuxer := {}
  relCamMpoJpeg : Option ℕ := none
  stored : CamSyncType → List ℕ := fun _ => []
  obtained : ℕ := 0
  freed : List ℕ := []

namespace MpoMemory

open QCameraMuxer

/-- `composeMpo`, where the thread composes: the memory for the picture. -/
def composeMpo (s : MpoMemory) : ComposePc → Input → MpoMemory
  | .compose _ _, .thread true true =>
    { s with relCamMpoJpeg := none, obtained := s.obtained + 1, freed := s.freed ++ [s.obtained] }
  | .compose _ _, .thread true false => { s with relCamMpoJpeg := some s.obtained, obtained := s.obtained + 1 }
  | .compose _ _, .thread false _ => { s with relCamMpoJpeg := none }
  | _, _ => s

/-- One step. -/
def step (s : MpoMemory) (input : Input) : Option MpoMemory :=
  (s.muxer.next input).map fun muxer =>
    { s with muxer := muxer, stored := fun cam => s.stored cam ++ due (passed input cam) }.composeMpo s.muxer.pc input

/-- **Everything is released once**: a JPEG that was passed was released, or is still owned; a memory that was obtained
was released; and between compositions there is none. -/
structure Accounted (s : MpoMemory) : Prop where
  jpegs : ∀ cam i, (s.stored cam).count i = s.muxer.log.count (.released cam i) + (due (s.muxer.jpegs cam)).count i
  freed : s.freed = range s.obtained
  relCamMpoJpeg : s.relCamMpoJpeg = none

variable {s t : MpoMemory} {input : Input}

theorem Accounted.step (h : s.Accounted) (hkeeps : s.muxer.Keeps input) (ht : s.step input = some t) :
    t.Accounted := by
  obtain ⟨muxer, hnext, rfl⟩ := Option.map_eq_some_iff.mp ht
  have hjpegs : ∀ cam i, (s.stored cam ++ due (passed input cam)).count i = muxer.settled cam i := fun cam i => by
    rw [count_append, h.jpegs, settled_next hkeeps hnext]
    rfl
  unfold composeMpo
  split
  · exact ⟨hjpegs, by simp [h.freed, range_succ], rfl⟩
  · rename_i hpc
    exact absurd (hkeeps (by simp [hpc, heldAux]) rfl) nofun
  · exact ⟨hjpegs, h.freed, rfl⟩
  · exact ⟨hjpegs, h.freed, h.relCamMpoJpeg⟩

/-- **In every run** whose steps take none of these exits. -/
theorem released_run {inputs : List Input} (hrun : Run (guarded (fun s => s.muxer.Keeps) (fires step)) {} inputs t) :
    t.Accounted :=
  hrun.invariant (I := Accounted) (fun _ _ _ hs hstep => hs.step hstep.1 hstep.2)
    ⟨fun cam _ => by cases cam <;> rfl, rfl, rfl⟩

/-- A JPEG of each camera is composed. -/
theorem released_session : ∃ t, Run (guarded (fun s => s.muxer.Keeps) (fires step)) {}
    (session (deliver .main 1 ++ deliver .aux 1) 9) t ∧ t.freed = [0] ∧ t.Accounted :=
  (exists_run (P := fun t => t.freed = [0]) (by decide +kernel)).imp fun _ h => ⟨h.1, h.2, released_run h.1⟩

/-- The node of a JPEG is not allocated, or a composition fails. -/
theorem not_accounted :
    (∃ t, Run (fires step) {} [.jpeg .main (some { frameIdx := 1 }) false true] t ∧ ¬ t.Accounted) ∧
    ∃ t, Run (fires step) {} ([.sendCmd .startDataProc true true, .thread true true] ++ deliver .main 1 ++
      deliver .aux 1 ++ replicate 9 (.thread true false)) t ∧ ¬ t.Accounted :=
  ⟨(exists_run_fires (P := fun t => (t.stored .main).count 1 ≠ t.muxer.settled .main 1) (by decide +kernel)).imp
      fun _ h => ⟨h.1, fun hacc => h.2 (hacc.jpegs .main 1)⟩,
    (exists_run_fires (P := fun t => t.relCamMpoJpeg ≠ none) (by decide +kernel)).imp
      fun _ h => ⟨h.1, fun hacc => h.2 hacc.relCamMpoJpeg⟩⟩

end MpoMemory

end Marlin
