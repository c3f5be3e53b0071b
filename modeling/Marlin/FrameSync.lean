import Mathlib.Algebra.Group.Int.Defs
import Mathlib.Algebra.Group.Nat.Defs
import Mathlib.Data.List.Basic

/-!
# The Frame-Sync Table

The static `fs` of the channel code: the channels registered for frame sync and a
circular array of frame ids, each with one valid flag per registered channel. A frame id
is matched once as many channels have reported it as are registered.

The table is shared by the channels and guarded by `fs_lock`; every function below is one
critical section.
-/

namespace Marlin

/-- `MAX_NUM_CAMERA_PER_BUNDLE`. -/
def maxNumCameraPerBundle : ℕ := 2

/-- `MM_CAMERA_FRAME_SYNC_NODES`. -/
def mmCameraFrameSyncNodes : ℕ := 4

/-- `mm_channel_sync_node_t`. -/
structure MmChannelSyncNode where
  frameIdx : ℕ := 0
  frameValid : List Bool := List.replicate maxNumCameraPerBundle false
  matched : Bool := false
  deriving DecidableEq

/-- `mm_channel_frame_sync_info_t`: the channels are their handles. The default is the
zeroed structure. -/
structure FrameSyncInfo where
  numCam : ℕ := 0
  pos : ℕ := 0
  node : List MmChannelSyncNode := List.replicate mmCameraFrameSyncNodes {}
  chObj : List (Option ℕ) := List.replicate maxNumCameraPerBundle none
  deriving DecidableEq

namespace FrameSyncInfo

/-- `mm_frame_sync_reset`. -/
def reset : FrameSyncInfo := {}

/-- `mm_frame_sync_register_channel`. -/
def registerChannel (fs : FrameSyncInfo) (ch : ℕ) : ℤ × FrameSyncInfo :=
  if maxNumCameraPerBundle ≤ fs.numCam then (-1, fs)
  else
    let fs := if fs.numCam = 0 then reset else fs
    match fs.chObj.findIdx? (· == none) with
    | some i => (0, { fs with chObj := fs.chObj.set i (some ch), numCam := fs.numCam + 1 })
    | none => (-1, fs)

/-- `mm_frame_sync_unregister_channel`. -/
def unregisterChannel (fs : FrameSyncInfo) (ch : ℕ) : ℤ × FrameSyncInfo :=
  if fs.numCam = 0 then (-1, fs)
  else
    let fs :=
      match fs.chObj.findIdx? (· == some ch) with
      | some i => { fs with chObj := fs.chObj.set i none, numCam := fs.numCam - 1 }
      | none => fs
    (0, if fs.numCam = 0 then reset else fs)

/-- `mm_frame_sync_find_frame_index`; `none` is the result `-1`. -/
def findFrameIndex (fs : FrameSyncInfo) (frameId : ℕ) : Option ℕ :=
  fs.node.findIdx? fun n => n.frameIdx == frameId

/-- The end of `mm_frame_sync_add`: an entry reported by `num_cam` channels is matched. -/
def settle (numCam : ℕ) (n : MmChannelSyncNode) : MmChannelSyncNode :=
  if !n.matched && n.frameValid.count true == numCam then { n with matched := true } else n

/-- `mm_frame_sync_add`. -/
def add (fs : FrameSyncInfo) (frameId : ℕ) (ch : ℕ) : ℤ × FrameSyncInfo :=
  if frameId = 0 then (-1, fs)
  else
    match fs.chObj.findIdx? (· == some ch) with
    | none => (-1, fs)
    | some chIdx =>
      match fs.findFrameIndex frameId with
      | some index =>
        (0, { fs with
          node := fs.node.modify index fun n =>
            settle fs.numCam { n with frameValid := n.frameValid.set chIdx true } })
      | none =>
        -- the position counter takes the next entry whether or not it is in use
        let index := if mmCameraFrameSyncNodes ≤ fs.pos then 0 else fs.pos
        let fresh : MmChannelSyncNode := {}
        (0, { fs with
          pos := index + 1
          node := fs.node.set index (settle fs.numCam { fresh with
              frameIdx := frameId
              frameValid := fresh.frameValid.set chIdx true
              matched := fs.numCam == 1 }) })

/-- `mm_frame_sync_remove`. -/
def remove (fs : FrameSyncInfo) (frameId : ℕ) : ℤ × FrameSyncInfo :=
  if frameId = 0 then (-1, fs)
  else
    match fs.findFrameIndex frameId with
    | some index => (0, { fs with node := fs.node.set index {} })
    | none => (0, fs)

/-- The loop of `mm_frame_sync_find_matched`, with the `frame_idx` found so far. -/
def findMatchedFrom (oldest : Bool) : List MmChannelSyncNode → ℕ → ℕ
  | [], frameIdx => frameIdx
  | n :: rest, frameIdx =>
    if n.matched then
      let found := if frameIdx = 0 then n.frameIdx else frameIdx
      if oldest then findMatchedFrom oldest rest (min found n.frameIdx) else found
    else findMatchedFrom oldest rest frameIdx

/-- `mm_frame_sync_find_matched`; `0` says that there is no matched frame. -/
def findMatched (fs : FrameSyncInfo) (oldest : Bool) : ℕ :=
  findMatchedFrom oldest fs.node 0

theorem findMatched_eq_zero {fs : FrameSyncInfo} {oldest : Bool}
    (h : ∀ n ∈ fs.node, n.matched = false) : fs.findMatched oldest = 0 := by
  suffices hl : ∀ l : List MmChannelSyncNode, (∀ n ∈ l, n.matched = false) →
      findMatchedFrom oldest l 0 = 0 from hl fs.node h
  intro l hl
  induction l with
  | nil => rfl
  | cons n rest ih =>
    simp only [findMatchedFrom, hl n List.mem_cons_self, Bool.false_eq_true, if_false]
    exact ih fun m hm => hl m (List.mem_cons_of_mem n hm)

end FrameSyncInfo

end Marlin
