import Marlin.BufDef
import Marlin.Padding

/-!
# The Planes of a Stream's Frames

For each kind of stream a function of the camera interface lays the planes of a frame out: how many there are, and
for each its length, the offset of its picture, its stride and scanline, and the width and height without padding.
The length of the frame is that of its planes, padded.

## Conventions

* All values are far below 2³¹: what is a product in the source fits in 32 bits.
* A layout says what a call writes to a plane. `stride_in_bytes` is written only for raw streams, and width and
  height not for every format; what a layout leaves out stays as it was.
* The formats whose planes are computed by the macros of the video encoder's headers are left out.
* `isAFamily` is what `mm_camera_util_chip_is_a_family` returns, and `offlineProc` says that a stream is of
  `CAM_STREAM_TYPE_OFFLINE_PROC`.
-/

namespace Marlin

namespace StreamPlanes

open QCamera3Memory

/-- The order of the colours of a Bayer format. -/
inductive BayerOrder
  | gbrg
  | grbg
  | rggb
  | bggr
  | grey
  deriving DecidableEq

/-- How the pixels of a Bayer format are packed. -/
inductive BayerPacking
  | qcomRaw8Bpp
  | qcomRaw10Bpp
  | qcomRaw12Bpp
  | qcomRaw14Bpp
  | mipiRaw8Bpp
  | mipiRaw10Bpp
  | mipiRaw12Bpp
  | mipiRaw14Bpp
  | idealRawQcom8Bpp
  | idealRawQcom10Bpp
  | idealRawQcom12Bpp
  | idealRawQcom14Bpp
  | idealRawMipi8Bpp
  | idealRawMipi10Bpp
  | idealRawMipi12Bpp
  | idealRawMipi14Bpp
  | idealRawPlain8At8Bpp
  | idealRawPlain16At8Bpp
  | idealRawPlain16At10Bpp
  | idealRawPlain16At12Bpp
  | idealRawPlain16At14Bpp
  deriving DecidableEq

/-- `cam_format_t`. -/
inductive CamFormat
  | jpeg
  | yuv420Nv12
  | yuv420Nv21
  | yuv420Nv21Adreno
  | yuv420Yv12
  | yuv422Nv16
  | yuv422Nv61
  | yuvRaw8BitYuyv
  | yuvRaw8BitYvyu
  | yuvRaw8BitUyvy
  | yuvRaw8BitVyuy
  | jpegRaw8Bit
  | metaRaw8Bit
  | yuv444Nv24
  | yuv444Nv42
  | yOnly
  | yOnly10Bpp
  | yOnly12Bpp
  | yOnly14Bpp
  | argb8888
  | bayer (packing : BayerPacking) (order : BayerOrder)
  deriving DecidableEq

/-- `cam_dimension_t`. -/
structure CamDimension where
  width : ℕ
  height : ℕ
  deriving DecidableEq

/-- `cam_padding_info_t`. -/
structure CamPaddingInfo where
  width_padding : ℕ
  height_padding : ℕ
  plane_padding : ℕ
  min_stride : ℕ := 0
  min_scanline : ℕ := 0
  offset_x : ℕ := 0
  offset_y : ℕ := 0
  deriving DecidableEq

/-- What a call writes to a plane. `extent` is its width and height. -/
structure Layout where
  len : ℕ
  offset : ℕ := 0
  offset_x : ℕ := 0
  offset_y : ℕ := 0
  stride : ℕ
  stride_in_bytes : Option ℕ := none
  scanline : ℕ
  extent : Option (ℕ × ℕ)
  deriving DecidableEq

/-- A plane is written. -/
def Layout.write (p : Layout) (m : CamMpLenOffset) : CamMpLenOffset :=
  { m with
    len := p.len
    offset := p.offset
    offset_x := p.offset_x
    offset_y := p.offset_y
    stride := p.stride
    stride_in_bytes := (p.stride_in_bytes.map Nat.cast).getD m.stride_in_bytes
    scanline := p.scanline
    width := (p.extent.map fun e => (e.1 : ℤ)).getD m.width
    height := (p.extent.map fun e => (e.2 : ℤ)).getD m.height }

/-- The planes are written, with their number and the length of the frame. -/
def writePlanes (ps : List Layout) (b : CamFrameLenOffset) : CamFrameLenOffset :=
  { num_planes := ps.length
    mp := fun i => match ps[i]? with
      | some p => p.write (b.mp i)
      | none => b.mp i
    frame_len := padToSize (ps.map Layout.len).sum 4096 }

/-! ### Blocks that the functions share -/

section

variable (dim : CamDimension) (padding : CamPaddingInfo)

/-- Luma and chroma one after the other, with the scanlines of both, and the padding of their lengths. -/
def twoPlanes (stride scanline scanline' : ℕ) (len : ℕ → ℕ) : List Layout :=
  [{ len := len (stride * scanline), stride, scanline, extent := some (dim.width, dim.height) },
    { len := len (stride * scanline'), stride, scanline := scanline', extent := some (dim.width, dim.height / 2) }]

/-- `CAM_FORMAT_YUV_420_NV21_ADRENO`. -/
def adrenoPlanes (stride scanline : ℕ) : List Layout :=
  let stride' := padToSize (dim.width / 2) 32 * 2
  let scanline' := padToSize (dim.height / 2) 32
  [{ len := padToSize (stride * scanline) 4096, stride, scanline, extent := some (dim.width, dim.height) },
    { len := padToSize (stride' * scanline') 4096, stride := stride', scanline := scanline'
      extent := some (dim.width, dim.height / 2) }]

/-- `CAM_FORMAT_YUV_420_YV12` of a preview. -/
def threePlanes (stride scanline : ℕ) : List Layout :=
  let stride' := padToSize (stride / 2) 16
  let scanline' := scanline / 2
  let chroma : Layout :=
    { len := stride' * scanline', stride := stride', scanline := scanline'
      extent := some (dim.width / 2, dim.height / 2) }
  [{ len := stride * scanline, stride, scanline, extent := some (dim.width, dim.height) }, chroma, chroma]

/-- `CAM_FORMAT_YUV_422_NV16` of a preview. -/
def equalPlanes (stride scanline : ℕ) : List Layout :=
  let plane : Layout := { len := stride * scanline, stride, scanline, extent := some (dim.width, dim.height) }
  [plane, plane]

/-- A plane of a picture with an offset, with padded length and offset. -/
def offsetPlane (offset_x offset_y stride scanline width height : ℕ) : Layout where
  len := padToSize (stride * scanline) padding.plane_padding
  offset := padToSize (offset_x + stride * offset_y) padding.plane_padding
  offset_x := offset_x
  offset_y := offset_y
  stride := stride
  scanline := scanline
  extent := some (width, height)

/-- The formats with two planes, of which the second has half the scanline, in a picture with an offset. -/
def twoOffsetPlanes (offset_x offset_y stride scanline : ℕ) : List Layout :=
  [offsetPlane padding offset_x offset_y stride scanline dim.width dim.height,
    offsetPlane padding offset_x offset_y stride (scanline / 2) dim.width (dim.height / 2)]

/-- `CAM_FORMAT_YUV_420_YV12`, in a picture with an offset. -/
def threeOffsetPlanes (offset_x offset_y stride scanline : ℕ) : List Layout :=
  let chroma := offsetPlane padding offset_x offset_y (padToSize (stride / 2) 16) (scanline / 2) (dim.width / 2)
    (dim.height / 2)
  [offsetPlane padding offset_x offset_y stride scanline dim.width dim.height, chroma, chroma]

/-- `CAM_FORMAT_YUV_422_NV16`, in a picture with an offset. -/
def equalOffsetPlanes (offset_x offset_y stride scanline : ℕ) : List Layout :=
  let plane := offsetPlane padding offset_x offset_y stride scanline dim.width dim.height
  [plane, plane]

/-- A raw format with one plane. `sized` says whether width and height are written: the plane as one row. -/
def rawPlane (stride stride_in_bytes : ℕ) (sized : Bool) : List Layout :=
  let scanline := padToSize dim.height padding.height_padding
  let len := padToSize (stride_in_bytes * scanline) padding.plane_padding
  [{ len, stride, stride_in_bytes := some stride_in_bytes, scanline, extent := if sized then some (len, 1) else none }]

end

/-! ### The functions -/

/-- `mm_stream_calc_offset_preview`: the planes, or `none` for a format that it does not accept. -/
def previewPlanes (offlineProc : Bool) (fmt : CamFormat) (dim : CamDimension) (padding : CamPaddingInfo) :
    Option (List Layout) :=
  match fmt with
  | .yuv420Nv12 | .yuv420Nv21 | .yOnly | .yOnly10Bpp | .yOnly12Bpp | .yOnly14Bpp =>
    let height_padding := if offlineProc then padding.height_padding else 2
    some (twoPlanes dim (padToSize dim.width padding.width_padding) (padToSize dim.height height_padding)
      (padToSize (dim.height / 2) height_padding) id)
  | .yuv420Nv21Adreno =>
    if offlineProc then
      some (adrenoPlanes dim (padToSize dim.width padding.width_padding) (padToSize dim.height padding.height_padding))
    else some (adrenoPlanes dim (padToSize dim.width 32) (padToSize dim.height 32))
  | .yuv420Yv12 =>
    if offlineProc then
      some (threePlanes dim (padToSize dim.width padding.width_padding) (padToSize dim.height padding.height_padding))
    else some (threePlanes dim (padToSize dim.width 16) (padToSize dim.height 2))
  | .yuv422Nv16 | .yuv422Nv61 =>
    if offlineProc then
      some (equalPlanes dim (padToSize dim.width padding.width_padding) (padToSize dim.height padding.height_padding))
    else some (equalPlanes dim (padToSize dim.width 16) dim.height)
  | _ => none

/-- `mm_stream_calc_offset_post_view`. -/
def postViewPlanes (fmt : CamFormat) (dim : CamDimension) : Option (List Layout) :=
  match fmt with
  | .yuv420Nv12 | .yuv420Nv21 | .yOnly | .yOnly10Bpp | .yOnly12Bpp | .yOnly14Bpp =>
    some (twoPlanes dim (padToSize dim.width 64) (padToSize dim.height 64) (padToSize (dim.height / 2) 64) id)
  | .yuv420Nv21Adreno => some (adrenoPlanes dim (padToSize dim.width 32) (padToSize dim.height 32))
  | .yuv420Yv12 => some (threePlanes dim (padToSize dim.width 16) (padToSize dim.height 2))
  | .yuv422Nv16 | .yuv422Nv61 => some (equalPlanes dim (padToSize dim.width 16) dim.height)
  | _ => none

/-- The offset of the picture in a snapshot, and the stride and the scanline. -/
def snapshotFrame (isAFamily : Bool) (dim : CamDimension) (padding : CamPaddingInfo) : ℕ × ℕ × ℕ × ℕ :=
  if isAFamily then
    let scanline := padToSize dim.height 16
    let offset_y := scanline - dim.height
    -- the scanline is padded twice
    (0, offset_y, dim.width, scanline + offset_y)
  else
    let offset_x := padToSize padding.offset_x padding.plane_padding
    let offset_y := padToSize padding.offset_y padding.plane_padding
    (offset_x, offset_y, padToSize (dim.width + 2 * offset_x) padding.width_padding,
      padToSize (dim.height + 2 * offset_y) padding.height_padding)

/-- `mm_stream_calc_offset_snapshot`. -/
def snapshotPlanes (isAFamily : Bool) (fmt : CamFormat) (dim : CamDimension) (padding : CamPaddingInfo) :
    Option (List Layout) :=
  let (offset_x, offset_y, stride, scanline) := snapshotFrame isAFamily dim padding
  match fmt with
  | .yuv420Nv12 | .yuv420Nv21 | .yOnly | .yOnly10Bpp | .yOnly12Bpp | .yOnly14Bpp =>
    some (twoOffsetPlanes dim padding offset_x offset_y stride scanline)
  | .yuv420Yv12 => some (threeOffsetPlanes dim padding offset_x offset_y stride scanline)
  | .yuv422Nv16 | .yuv422Nv61 => some (equalOffsetPlanes dim padding offset_x offset_y stride scanline)
  | _ => none

/-- The stride of a Bayer format, in pixels and in bytes. -/
def BayerPacking.strides (width : ℕ) : BayerPacking → ℕ × ℕ
  | .qcomRaw8Bpp | .mipiRaw8Bpp | .idealRawQcom8Bpp | .idealRawMipi8Bpp | .idealRawPlain8At8Bpp =>
    (padToSize width 16, padToSize width 16)
  | .qcomRaw10Bpp | .idealRawQcom10Bpp => ((width + 11) / 12 * 12, (width + 11) / 12 * 12 * 8 / 6)
  | .qcomRaw12Bpp | .idealRawQcom12Bpp => ((width + 9) / 10 * 10, (width + 9) / 10 * 10 * 8 / 5)
  | .mipiRaw10Bpp | .idealRawMipi10Bpp => (padToSize width 4, padToSize (padToSize width 4 * 5 / 4) 8)
  | .mipiRaw12Bpp | .idealRawMipi12Bpp => (padToSize width 32, padToSize width 32 * 3 / 2)
  | .idealRawPlain16At8Bpp | .idealRawPlain16At10Bpp | .idealRawPlain16At12Bpp | .idealRawPlain16At14Bpp =>
    (padToSize width 8, padToSize width 8 * 2)
  | .mipiRaw14Bpp | .idealRawMipi14Bpp => (padToSize width 64, padToSize width 64 * 7 / 4)
  | .qcomRaw14Bpp | .idealRawQcom14Bpp => (padToSize width 16, padToSize width 16 * 2)

/-- The formats that hold one pixel in one or two plain bytes, which exist in four orders only. -/
def BayerPacking.isPlain : BayerPacking → Bool
  | .idealRawPlain8At8Bpp | .idealRawPlain16At8Bpp | .idealRawPlain16At10Bpp | .idealRawPlain16At12Bpp
  | .idealRawPlain16At14Bpp => true
  | _ => false

/-- `mm_stream_calc_offset_raw`. -/
def rawPlanes (fmt : CamFormat) (dim : CamDimension) (padding : CamPaddingInfo) : Option (List Layout) :=
  match fmt with
  | .yuv420Nv21 =>
    let stride := padToSize dim.width padding.width_padding
    let scanline := padToSize dim.height padding.height_padding
    some ((twoPlanes dim stride scanline (scanline / 2) fun n => padToSize n padding.plane_padding).map
      fun p => { p with stride_in_bytes := some stride })
  | .yuvRaw8BitYuyv | .yuvRaw8BitYvyu | .yuvRaw8BitUyvy | .yuvRaw8BitVyuy | .jpegRaw8Bit =>
    some (rawPlane dim padding (padToSize dim.width 16) (padToSize dim.width 16 * 2) true)
  | .metaRaw8Bit => some (rawPlane dim padding (padToSize dim.width 16) (padToSize dim.width 16 * 2) false)
  | .bayer packing order =>
    if packing.isPlain ∧ order = .grey then none
    else some (rawPlane dim padding (packing.strides dim.width).1 (packing.strides dim.width).2 true)
  | _ => none

/-- `mm_stream_calc_offset_video`. -/
def videoPlanes (fmt : CamFormat) (dim : CamDimension) : Option (List Layout) :=
  match fmt with
  | .yuv420Nv12 | .yOnly | .yOnly10Bpp | .yOnly12Bpp | .yOnly14Bpp =>
    some (twoPlanes dim dim.width dim.height (dim.height / 2) fun n => padToSize n 2048)
  | _ => none

/-- `mm_stream_calc_offset_analysis`. -/
def analysisPlanes (fmt : CamFormat) (dim : CamDimension) (padding : CamPaddingInfo) : Option (List Layout) :=
  let stride := if dim.width < padding.min_stride then padding.min_stride else dim.width
  let scanline := if dim.height < padding.min_scanline then padding.min_scanline else dim.height
  let stride := padToSize stride padding.width_padding
  let scanline := padToSize scanline padding.height_padding
  match fmt with
  | .yuv420Nv12 | .yuv420Nv21 => some (twoOffsetPlanes dim padding 0 0 stride scanline)
  | .yuv420Yv12 => some (threeOffsetPlanes dim padding 0 0 stride scanline)
  | .yuv422Nv16 | .yuv422Nv61 => some (equalOffsetPlanes dim padding 0 0 stride scanline)
  | .yOnly | .yOnly10Bpp | .yOnly12Bpp | .yOnly14Bpp =>
    some [offsetPlane padding 0 0 stride scanline dim.width dim.height]
  | _ => none

/-- The kinds of streams. -/
inductive StreamKind
  | preview (offlineProc : Bool)
  | postView
  | snapshot (isAFamily : Bool)
  | raw
  | video
  | analysis
  deriving DecidableEq

/-- The planes of a kind of stream. -/
def planes (kind : StreamKind) (fmt : CamFormat) (dim : CamDimension) (padding : CamPaddingInfo) :
    Option (List Layout) :=
  match kind with
  | .preview offlineProc => previewPlanes offlineProc fmt dim padding
  | .postView => postViewPlanes fmt dim
  | .snapshot isAFamily => snapshotPlanes isAFamily fmt dim padding
  | .raw => rawPlanes fmt dim padding
  | .video => videoPlanes fmt dim
  | .analysis => analysisPlanes fmt dim padding

/-- The function of a kind of stream: its result, and what it leaves in `buf_planes`. -/
def calcOffset (kind : StreamKind) (fmt : CamFormat) (dim : CamDimension) (padding : CamPaddingInfo)
    (buf_planes : CamFrameLenOffset) : ℤ × CamFrameLenOffset :=
  match planes kind fmt dim padding with
  | some ps => (0, writePlanes ps buf_planes)
  | none => (-1, buf_planes)

end StreamPlanes

end Marlin
