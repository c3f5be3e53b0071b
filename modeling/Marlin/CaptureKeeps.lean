import Marlin.CaptureRefine

/-!
# What the Handlers Leave Alone

The handlers of the callbacks work on the pending lists. They take buffers out of the map, and
add calls to the framework; the state, the channels and the batch stay.

## Main results

* `Handled`: what a handler can change; it composes (`Handled.trans`).
* `handled_metadata`, `handled_inputBuffer`, `handled_buffer`: the handlers.
* `MapOrdered`: the map has its requests in order and none without buffers.
-/

open List Ledger

namespace Marlin

namespace HardwareInterface

/-- From `s` to `s'` the pending lists and the counter of the live requests may be other ones,
buffers left the map, and the framework was called. -/
structure Handled (s s' : HardwareInterface) : Prop where
  rest : s' = { s with
    mPendingRequestsList := s'.mPendingRequestsList
    mPendingBuffersMap := s'.mPendingBuffersMap
    mPendingReprocessResultList := s'.mPendingReprocessResultList
    mPendingFrameDropList := s'.mPendingFrameDropList
    mPendingLiveRequest := s'.mPendingLiveRequest
    sent := s'.sent }
  map : ∃ bs : List ℕ, s'.mPendingBuffersMap = bs.foldl (fun map b => removeBuf b map) s.mPendingBuffersMap
  sent : ∃ calls : List Callback, s'.sent = s.sent ++ calls

namespace Handled

variable {s s' t : HardwareInterface}

protected theorem refl (s : HardwareInterface) : Handled s s :=
  ⟨rfl, ⟨[], rfl⟩, ⟨[], (append_nil _).symm⟩⟩

/-- Changes compose. -/
protected theorem trans (h₁ : Handled s s') (h₂ : Handled s' t) : Handled s t where
  rest := by
    have hrest := h₂.rest
    rw [h₁.rest] at hrest
    exact hrest
  map := by
    obtain ⟨bs, hbs⟩ := h₁.map
    obtain ⟨bs', hbs'⟩ := h₂.map
    exact ⟨bs ++ bs', by rw [hbs', hbs, foldl_append]⟩
  sent := by
    obtain ⟨calls, hcalls⟩ := h₁.sent
    obtain ⟨calls', hcalls'⟩ := h₂.sent
    exact ⟨calls ++ calls', by rw [hcalls', hcalls, append_assoc]⟩

theorem mState (h : Handled s s') : s'.mState = s.mState := by rw [h.rest]

theorem working (h : Handled s s') (hw : s.Working) : s'.Working := by
  rw [h.rest]
  exact ⟨hw.flushPerf, hw.state⟩

theorem of_lists (hrest : s' = { s with
    mPendingRequestsList := s'.mPendingRequestsList
    mPendingReprocessResultList := s'.mPendingReprocessResultList
    mPendingFrameDropList := s'.mPendingFrameDropList
    mPendingLiveRequest := s'.mPendingLiveRequest }) : Handled s s' where
  rest := by
    rw [hrest]
  map := ⟨[], by rw [hrest]; rfl⟩
  sent := ⟨[], by rw [hrest, append_nil]⟩

end Handled

variable (s : HardwareInterface)

theorem handled_send (c : Callback) : Handled s (s.send c) :=
  ⟨rfl, ⟨[], rfl⟩, ⟨[c], rfl⟩⟩

theorem handled_send_ite (c : Callback) (p : Prop) [Decidable p] : Handled s (if p then s.send c else s) := by
  split
  · exact handled_send s c
  · exact Handled.refl s

theorem handled_erasePendingRequest (frameNumber : ℕ) : Handled s (s.erasePendingRequest frameNumber) :=
  Handled.of_lists rfl

theorem handled_modifyRequest (frameNumber : ℕ) (f : PendingRequestInfo → PendingRequestInfo) :
    Handled s (s.modifyRequest frameNumber f) :=
  Handled.of_lists rfl

theorem handled_takeBuffer (frameNumber : ℕ) (b : StreamBuffer) : Handled s (s.takeBuffer frameNumber b).2 :=
  ⟨rfl, ⟨[b.buffer], rfl⟩, ⟨[], (append_nil _).symm⟩⟩

theorem handled_takeBuffers (frameNumber : ℕ) (bs : List StreamBuffer) :
    Handled s (takeBuffers frameNumber bs s).2 := by
  induction bs generalizing s with
  | nil => exact Handled.refl s
  | cons b bs ih => exact (handled_takeBuffer s frameNumber b).trans (ih _)

theorem handled_sendReprocResult (k : PendingRequestInfo) (b : StreamBuffer) : Handled s (s.sendReprocResult k b) :=
  (handled_send s _).trans (handled_erasePendingRequest _ _)

theorem handled_handlePendingReprocResults (frameNumber : ℕ) :
    Handled s (s.handlePendingReprocResults frameNumber) := by
  have hdrop (t : HardwareInterface) (l : List PendingReprocessResult) :
      Handled t { t with mPendingReprocessResultList := l } :=
    Handled.of_lists rfl
  rw [handlePendingReprocResults]
  split
  · refine Handled.trans ?_ (hdrop _ _)
    split
    · exact (handled_send s _).trans (handled_sendReprocResult _ _ _)
    · exact handled_send s _
  · exact Handled.refl s

theorem handled_sendMetadataResult (frameNumber : ℕ) (i : PendingRequestInfo) :
    Handled s (s.sendMetadataResult frameNumber i) := by
  have hlive : Handled s { s with mPendingLiveRequest := decU32 s.mPendingLiveRequest } :=
    Handled.of_lists rfl
  rw [sendMetadataResult]
  exact ((hlive.trans (handled_send_ite _ _ _)).trans (handled_send_ite _ _ _)).trans
    ((handled_takeBuffers _ _ _).trans (handled_send_ite _ _ _))

theorem handled_reportFrameDrops (frameDrop : List ℕ) (i : PendingRequestInfo) :
    Handled s (s.reportFrameDrops frameDrop i) :=
  ⟨rfl, ⟨[], rfl⟩, ⟨_, rfl⟩⟩

theorem handled_metadataEntry (m : MetadataInfo) (frameNumber : ℕ) (i : PendingRequestInfo) :
    Handled s (s.metadataEntry m frameNumber i) := by
  rw [metadataEntry]
  dsimp only
  refine (handled_reportFrameDrops s m.frameDrop { i with partialResultCnt := i.partialResultCnt + 1 }).trans ?_
  split
  · exact handled_modifyRequest _ _ _
  · refine ((handled_sendMetadataResult _ frameNumber { i with partialResultCnt := i.partialResultCnt + 1 }).trans
        (handled_erasePendingRequest _ i.frameNumber)).trans ?_
    split
    · exact handled_handlePendingReprocResults _ _
    · exact Handled.refl _

theorem handled_metadataLoop (m : MetadataInfo) (frameNumber : ℕ) (l : List PendingRequestInfo) :
    Handled s (metadataLoop m frameNumber l s) := by
  induction l generalizing s with
  | nil => exact Handled.refl s
  | cons i l ih =>
    rw [metadataLoop]
    split
    · exact Handled.refl s
    · exact (handled_metadataEntry s m frameNumber i).trans (ih _)

/-- `handleMetadataWithLock`. -/
theorem handled_metadata (m : MetadataInfo) : Handled s (s.handleMetadataWithLock m) := by
  have hdone (t : HardwareInterface) : Handled t t.doneMetadata :=
    Handled.of_lists rfl
  have hurgent (urgent : ℕ) : Handled s (s.urgentMetadata urgent) :=
    ⟨rfl, ⟨[], rfl⟩, ⟨_, rfl⟩⟩
  have hnormal (t : HardwareInterface) (n : ℕ) (l : List PendingRequestInfo) :
      Handled t (metadataLoop m n l t).doneMetadata := (handled_metadataLoop t m n l).trans (hdone _)
  rw [handleMetadataWithLock]
  split
  · exact Handled.refl s
  · split
    · cases m.urgentFrameNumber with
      | none =>
        cases m.frameNumber with
        | none => exact hdone s
        | some n => exact hnormal s n _
      | some urgent =>
        refine (hurgent urgent).trans ?_
        cases m.frameNumber with
        | none => exact hdone _
        | some n => exact hnormal _ n _
    · exact hdone s

/-- `handleInputBufferWithLock`. -/
theorem handled_inputBuffer (frameNumber : ℕ) : Handled s (s.handleInputBufferWithLock frameNumber) := by
  rw [handleInputBufferWithLock]
  split
  · split
    · refine Handled.trans ?_ ((handled_send _ _).trans (handled_erasePendingRequest _ _))
      split
      · exact Handled.refl s
      · exact handled_send s _
    · exact Handled.refl s
  · exact Handled.refl s

/-- `handleBufferWithLock`, when no `flushPerf` is running. -/
theorem handled_buffer (h : s.mFlushPerf = false) (b : StreamBuffer) (frameNumber : ℕ) :
    Handled s (s.handleBufferWithLock b frameNumber) := by
  have hremove (t : HardwareInterface) (buffer : ℕ) :
      Handled t { t with mPendingBuffersMap := removeBuf buffer t.mPendingBuffersMap } :=
    ⟨rfl, ⟨[buffer], rfl⟩, ⟨[], (append_nil _).symm⟩⟩
  have hresults (t : HardwareInterface) (l : List PendingReprocessResult) :
      Handled t { t with mPendingReprocessResultList := l } :=
    Handled.of_lists rfl
  rw [handleBufferWithLock]
  split
  · exact Handled.refl s
  · rw [if_neg (by simp [h])]
    split
    · exact (handled_takeBuffer s _ _).trans (handled_send _ _)
    · split
      · rw [handleReprocBuffer]
        dsimp only
        refine (hremove s b.buffer).trans ?_
        split
        · exact hresults _ _
        · exact (handled_send _ _).trans (handled_sendReprocResult _ _ _)
      · exact handled_modifyRequest _ _ _

/-! ### The map -/

/-- The map has its requests in order and none without buffers. -/
structure MapOrdered (map : List PendingBuffersInRequest) : Prop where
  sorted : map.Pairwise fun e e' => e.frameNumber < e'.frameNumber
  nonempty : ∀ e ∈ map, e.pendingBufferList ≠ []

theorem removeBuf_frames (buffer : ℕ) (map : List PendingBuffersInRequest) :
    ((removeBuf buffer map).map PendingBuffersInRequest.frameNumber).Sublist
      (map.map PendingBuffersInRequest.frameNumber) := by
  induction map with
  | nil => exact List.Sublist.refl _
  | cons e map ih =>
    rw [removeBuf]
    split
    · dsimp only
      split
      · exact sublist_cons_self _ _
      · exact List.Sublist.refl _
    · exact ih.cons_cons _

theorem MapOrdered.removeBuf {map : List PendingBuffersInRequest} (h : MapOrdered map)
    (buffer : ℕ) : MapOrdered (removeBuf buffer map) where
  sorted := by
    have hsorted := pairwise_map.mpr h.sorted
    exact pairwise_map.mp (hsorted.sublist (removeBuf_frames buffer map))
  nonempty := by
    have hne := h.nonempty
    clear h
    induction map with
    | nil => simp [Marlin.removeBuf]
    | cons e map ih =>
      have hrest := ih fun e he => hne e (mem_cons_of_mem _ he)
      rw [Marlin.removeBuf]
      split
      · dsimp only
        split
        · exact fun e he => hne e (mem_cons_of_mem _ he)
        · rename_i hleft
          rintro e' he'
          rcases mem_cons.mp he' with rfl | he'
          · exact hleft
          · exact hne e' (mem_cons_of_mem _ he')
      · rintro e' he'
        rcases mem_cons.mp he' with rfl | he'
        · exact hne _ (by simp)
        · exact hrest e' he'

theorem Handled.mapOrdered {s s' : HardwareInterface} (h : Handled s s')
    (hmap : MapOrdered s.mPendingBuffersMap) : MapOrdered s'.mPendingBuffersMap := by
  obtain ⟨bs, hbs⟩ := h.map
  rw [hbs]
  clear hbs
  generalize s.mPendingBuffersMap = map at hmap ⊢
  induction bs generalizing map with
  | nil => exact hmap
  | cons b bs ih => exact ih _ (hmap.removeBuf b)

end HardwareInterface

end Marlin
