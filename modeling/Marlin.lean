import Marlin.Loop
import Marlin.Tiling
import Marlin.Transition
import Marlin.ChannelModel
import Marlin.FrameSync
import Marlin.SuperbufQueue
import Marlin.SuperbufMatch
import Marlin.ChannelThread
import Marlin.SuperbufBundle
import Marlin.SuperbufRefine
import Marlin.ChannelRefine
import Marlin.SuperbufNodes
import Marlin.SuperbufOrder
import Marlin.SuperbufAccount
import Marlin.SuperbufSpacing
import Marlin.StreamBufDone
import Marlin.PollThread
import Marlin.StreamFsm
import Marlin.ChannelStart
import Marlin.CameraOpen
import Marlin.Locking
import Marlin.CameraLocks
import Marlin.CaptureResults
import Marlin.PendingFlush
import Marlin.CaptureRequest
import Marlin.BufferLedger
import Marlin.LedgerSettled
import Marlin.CaptureRefine
import Marlin.CaptureKeeps
import Marlin.PendingDrain
import Marlin.Outcome
import Marlin.CaptureSections
import Marlin.CaptureRuns
import Marlin.CaptureDelivery
import Marlin.FlushDelivery
import Marlin.RequestAdmission
import Marlin.RequestEnds
import Marlin.LedgerCount
import Marlin.RequestAtomic
import Marlin.FirstRequest
import Marlin.BatchMetadata
import Marlin.DeliveryOrder
import Marlin.StreamMem
import Marlin.ProcessingChannel
import Marlin.JpegObj
import Marlin.JpegSession
import Marlin.BatchStaging
import Marlin.ByteBlock
import Marlin.MpoFormat
import Marlin.MpoComposer
import Marlin.MpoCompose
import Marlin.JobManager
import Marlin.JobAccounts
import Marlin.JobCallbacks
import Marlin.CircularList
import Marlin.JobIds
import Marlin.JpegQueue
import Marlin.ThumbnailCrop
import Marlin.ExifEntries
import Marlin.StepLaws
import Marlin.OmxCore
import Marlin.DelayedMsgs
import Marlin.ApiReturns
import Marlin.MemoryPool
import Marlin.VideoMemory
import Marlin.PreviewWindow
import Marlin.JobWakeup
import Marlin.PostProcessor
import Marlin.JobPairing
import Marlin.CaptureIndex
import Marlin.DivertMark
import Marlin.CaptureForget
import Marlin.MpoMemory
import Marlin.MpoPairing
import Marlin.CbNotifier
import Marlin.CameraMemory
import Marlin.VideoBatch
import Marlin.StateMachine
import Marlin.PreviewAgreement
import Marlin.ApiAnswers
import Marlin.StreamBuffers
import Marlin.StreamBalance
import Marlin.FrameSyncHistory
import Marlin.FrameSyncRetained
import Marlin.UserBufRead
import Marlin.PlaneStaging
import Marlin.MapUnmap
import Marlin.BatchTimes
import Marlin.ChannelHandles
import Marlin.BufferReturn
import Marlin.BurstDispatch
import Marlin.SnapshotBuffers
import Marlin.MetadataParts
import Marlin.SteadyRuns
import Marlin.PartialResults
import Marlin.FrameDrops
import Marlin.DropReports
import Marlin.PendingNodes
import Marlin.MetadataFates
import Marlin.BatchKeys
import Marlin.OngoingJobs
import Marlin.NextJobs
import Marlin.OfflineMaps
import Marlin.StreamMaps
import Marlin.BatchContainers
import Marlin.OfflineMetadata
import Marlin.YuvRuns
import Marlin.FixedWidth
import Marlin.OldestFrame
import Marlin.BufDef
import Marlin.GrallocTable
import Marlin.CropRegionMapper
import Marlin.JpegClients
import Marlin.WorkBuffers
import Marlin.StartJob
import Marlin.WorkBufferRuns
import Marlin.Padding
import Marlin.StreamPlanes
import Marlin.PlaneGeometry
import Marlin.InPlace
import Marlin.Raw16
import Marlin.MpoScan
import Marlin.MpoHeaderAccess
import Marlin.SlotTable
import Marlin.PerfLock
import Marlin.PowerModes
import Marlin.InteractionBoost
import Marlin.AnalysisInfo
import Marlin.Rmnetctl
import Marlin.LogicalCameras
import Marlin.CameraBundle
import Marlin.CycleCounts
import Marlin.ActiveHints
import Marlin.QueueRefinement
import Marlin.PowerStats
import Marlin.CameraAreas
import Marlin.MmCameraCmdThread
