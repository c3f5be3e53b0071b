import Marlin.ByteBlock
import Mathlib.Data.List.Flatten
import Mathlib.Algebra.Order.BigOperators.Group.List

/-!
# The Multi-Picture Format

What `mm_jpeg_mpo_compose` is for: a primary JPEG image whose APP2 segment holds a
multi-picture header, followed in one file by the other images. The module describes the
primary image as a value (`Primary`) and gives its bytes; nothing here is the composer's.

## Conventions

Offsets of the multi-picture header are counted from its byte order mark (`mpStart`). The
entries of the index IFD follow the IFD itself, as the composer expects: the tag count,
the tags, the offset of the next IFD, the entries. The first image is the one that holds
the header, and its entry states the offset 0.

## Main results

* `Primary.bytes_eq`: the bytes of a primary image around its entries.
* `Primary.first_offset_inj`: the bytes determine the offset field of the first entry.
-/

namespace Marlin.Mpo

open List Bytes

/-- The marker of an APP2 segment. -/
def mApp2 : UInt8 := 0xe2

/-- The marker that ends an image. -/
def mEoi : UInt8 := 0xd9

/-- The marker that starts an image. -/
def mSoi : UInt8 := 0xd8

/-- Codes that stand alone after `0xFF`, or are no marker there: they start no segment. -/
def standalone (m : UInt8) : Bool :=
  m == 0x00 || m == 0x01 || (0xd0 ≤ m && m ≤ 0xd9) || m == 0xff

/-- A marker segment: its marker, and its payload of up to 65533 bytes. -/
structure Segment where
  marker : UInt8
  payload : List UInt8
  is_segment : standalone marker = false
  short : payload.length + 2 < 2 ^ 16

/-- The bytes of a segment: the length counts itself and the payload. -/
def Segment.bytes (s : Segment) : List UInt8 :=
  0xff :: s.marker :: (ByteOrder.big.short (s.payload.length + 2) ++ s.payload)

/-- A tag of the index IFD, 12 bytes. -/
structure MpTag where
  tag : UInt16
  type : UInt16
  count : UInt32
  value : UInt32
  deriving DecidableEq

/-- The bytes of a tag. -/
def MpTag.bytes (o : ByteOrder) (t : MpTag) : List UInt8 :=
  o.short t.tag.toNat ++ o.short t.type.toNat ++ o.long t.count.toNat ++ o.long t.value.toNat

/-- An MP entry, 16 bytes. -/
structure MpEntry where
  attr : UInt32
  size : UInt32
  dataOffset : UInt32
  dependent1 : UInt16
  dependent2 : UInt16
  deriving DecidableEq

/-- The bytes of an entry. -/
def MpEntry.bytes (o : ByteOrder) (e : MpEntry) : List UInt8 :=
  o.long e.attr.toNat ++ (o.long e.size.toNat ++ (o.long e.dataOffset.toNat ++
    (o.short e.dependent1.toNat ++ o.short e.dependent2.toNat)))

/-- A multi-picture header with its index IFD: `gap` stands between the header and the
IFD, `tail` after the entries. -/
structure MpHeader where
  order : ByteOrder
  gap : List UInt8
  tags : List MpTag
  nextIfd : UInt32
  entries : List MpEntry
  tail : List UInt8

namespace MpHeader

/-- The byte order mark: `II*\0` or `MM\0*`. -/
def mark : ByteOrder → List UInt8
  | .little => [0x49, 0x49, 0x2a, 0x00]
  | .big => [0x4d, 0x4d, 0x00, 0x2a]

/-- The bytes of a header up to its entries. -/
def front (h : MpHeader) : List UInt8 :=
  mark h.order ++ (h.order.long (8 + h.gap.length) ++ (h.gap ++
    (h.order.short h.tags.length ++ (h.tags.flatMap (MpTag.bytes h.order) ++ h.order.long h.nextIfd.toNat))))

/-- The bytes of a header. -/
def bytes (h : MpHeader) : List UInt8 :=
  h.front ++ (h.entries.flatMap (MpEntry.bytes h.order) ++ h.tail)

end MpHeader

/-- A primary image: the start of the image, segments, the APP2 segment with the
multi-picture header, and what follows it. -/
structure Primary where
  segments : List Segment
  mp : MpHeader
  rest : List UInt8
  short : mp.bytes.length + 6 < 2 ^ 16

namespace Primary

/-- The bytes before the multi-picture header: they end with the length of the APP2
segment and the identifier `MPF\0`. -/
def before (p : Primary) : List UInt8 :=
  0xff :: mSoi :: (p.segments.flatMap Segment.bytes ++ (0xff :: mApp2 ::
    (ByteOrder.big.short (p.mp.bytes.length + 6) ++ [0x4d, 0x50, 0x46, 0x00])))

/-- The bytes of a primary image. -/
def bytes (p : Primary) : List UInt8 := p.before ++ (p.mp.bytes ++ p.rest)

/-- Where the multi-picture header starts. -/
def mpStart (p : Primary) : ℕ := p.before.length

/-- Where the entries start. -/
def entriesStart (p : Primary) : ℕ := p.mpStart + p.mp.front.length

end Primary

/-! ### Lengths -/

@[simp] theorem MpTag.length_bytes (o : ByteOrder) (t : MpTag) : (t.bytes o).length = 12 := by
  simp [MpTag.bytes]

@[simp] theorem MpEntry.length_bytes (o : ByteOrder) (e : MpEntry) : (e.bytes o).length = 16 := by
  simp [MpEntry.bytes]

@[simp] theorem length_tags (o : ByteOrder) (ts : List MpTag) :
    (ts.flatMap (MpTag.bytes o)).length = 12 * ts.length := by
  induction ts with
  | nil => rfl
  | cons t ts ih =>
    rw [flatMap_cons, length_append, ih, MpTag.length_bytes, length_cons]
    omega

@[simp] theorem length_entries (o : ByteOrder) (es : List MpEntry) :
    (es.flatMap (MpEntry.bytes o)).length = 16 * es.length := by
  induction es with
  | nil => rfl
  | cons e es ih =>
    rw [flatMap_cons, length_append, ih, MpEntry.length_bytes, length_cons]
    omega

@[simp] theorem MpHeader.length_mark (o : ByteOrder) : (MpHeader.mark o).length = 4 := by
  cases o <;> rfl

theorem MpHeader.length_front (h : MpHeader) : h.front.length = 14 + h.gap.length + 12 * h.tags.length := by
  simp only [MpHeader.front, length_append, MpHeader.length_mark, ByteOrder.length_long,
    ByteOrder.length_short, length_tags]
  omega

theorem MpHeader.length_bytes (h : MpHeader) :
    h.bytes.length = h.front.length + 16 * h.entries.length + h.tail.length := by
  simp only [MpHeader.bytes, length_append, length_entries]
  omega

/-! ### Other entries -/

namespace Primary

/-- The same image with other entries, as many as before. -/
def withEntries (p : Primary) (es : List MpEntry) (hlen : es.length = p.mp.entries.length) : Primary where
  segments := p.segments
  mp := { p.mp with entries := es }
  rest := p.rest
  short := by
    have hshort := p.short
    rw [MpHeader.length_bytes] at hshort ⊢
    simp only [MpHeader.front] at hshort ⊢
    rw [hlen]
    exact hshort

/-- The bytes of a primary image around its entries. -/
theorem bytes_eq (p : Primary) (es : List MpEntry) (hlen : es.length = p.mp.entries.length) :
    (p.withEntries es hlen).bytes = (p.before ++ p.mp.front) ++
      (es.flatMap (MpEntry.bytes p.mp.order) ++ (p.mp.tail ++ p.rest)) := by
  have hmp : (p.withEntries es hlen).mp.bytes.length = p.mp.bytes.length := by
    rw [MpHeader.length_bytes, MpHeader.length_bytes]
    simp only [withEntries, MpHeader.front, hlen]
  have hbefore : (p.withEntries es hlen).before = p.before := by
    rw [before, before, hmp]
    rfl
  rw [bytes, hbefore]
  simp only [withEntries, MpHeader.bytes, MpHeader.front, append_assoc]

theorem withEntries_self (p : Primary) : p.withEntries p.mp.entries rfl = p := rfl

/-- The bytes of an image determine the offset field of its first entry. -/
theorem first_offset_inj {p : Primary} {e e' : MpEntry} {es es' : List MpEntry} {X : List UInt8}
    (hlen : es.length = p.mp.entries.length) (hlen' : es'.length = p.mp.entries.length)
    (h : (p.withEntries es hlen).bytes ++ X = (p.withEntries es' hlen').bytes ++ X)
    (he : es[0]? = some e) (he' : es'[0]? = some e') : e.dataOffset = e'.dataOffset := by
  obtain ⟨es, rfl⟩ : ∃ rest, es = e :: rest := by
    cases es with
    | nil => simp at he
    | cons e₀ es => exact ⟨es, by rw [Option.some.inj he]⟩
  obtain ⟨es', rfl⟩ : ∃ rest, es' = e' :: rest := by
    cases es' with
    | nil => simp at he'
    | cons e₀ es' => exact ⟨es', by rw [Option.some.inj he']⟩
  have hbytes := append_cancel_right h
  rw [bytes_eq, bytes_eq] at hbytes
  have hblocks := append_cancel_left hbytes
  rw [flatMap_cons, flatMap_cons, append_assoc, append_assoc] at hblocks
  have hentry := append_inj_left hblocks (by simp)
  have htail := append_inj_right hentry (by simp)
  have hoffset := append_inj_left (append_inj_right htail (by simp)) (by simp)
  have hmod := ByteOrder.long_injective hoffset
  apply UInt32.toNat_inj.mp
  have hlt := e.dataOffset.toNat_lt
  have hlt' := e'.dataOffset.toNat_lt
  omega

end Primary

/-! ### The file -/

/-- Two entries that differ at most in the size and offset fields. -/
def MpEntry.SameImage (e e' : MpEntry) : Prop :=
  e.attr = e'.attr ∧ e.dependent1 = e'.dependent1 ∧ e.dependent2 = e'.dependent2

/-- The entries state where the images lie in the primary image followed by `aux`: the size
of each, and for each but the first its offset from the multi-picture header. -/
structure Primary.States (p : Primary) (aux : List (List UInt8)) (es : List MpEntry) : Prop where
  first : ∀ e, es[0]? = some e → e.size.toNat = p.bytes.length ∧ e.dataOffset = 0
  others : ∀ i image e, aux[i]? = some image → es[i + 1]? = some e → e.size.toNat = image.length ∧
      p.mpStart + e.dataOffset.toNat = (p.bytes ++ (aux.take i).flatten).length

/-- `file` is the multi-picture file of a primary image and the images `aux`: their bytes one
after the other, but for the size and offset fields of the entries, which state where the
images lie. -/
def Primary.IsFile (p : Primary) (aux : List (List UInt8)) (file : List UInt8) : Prop :=
  ∃ es, ∃ hlen : es.length = p.mp.entries.length, List.Forall₂ MpEntry.SameImage p.mp.entries es ∧ p.States aux es ∧
      file = (p.withEntries es hlen).bytes ++ aux.flatten

end Marlin.Mpo
