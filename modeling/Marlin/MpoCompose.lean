import Marlin.MpoComposer

/-!
# The Composed File

When `mm_jpeg_mpo_compose` produces the multi-picture file of its images
(`Primary.IsFile`). The composer goes wrong on three kinds of primary image: one with a
segment before the MP segment that ends in `0xFF`, where the scan takes that byte for the
start of a marker; one with an APP2 segment of another kind before it; and one with a
little-endian header, whose tag count it reads as a big-endian number. Elsewhere only the
32-bit fields and the size of the output buffer limit it.

## Main results

* `mmJpegMpoUpdateHeader_walk`: what the header update writes, and where.
* `mmJpegMpoCompose_isFile_iff`: outside the three kinds, exactly when the composer produces
  the multi-picture file.
* `mmJpegMpoCompose_refused`: an image of the first kind and one of the third.
-/

namespace Marlin.Mpo

open Primary List Option Bytes

/-! ### Walking the header -/

/-- The tag count of the index IFD is the same number in either byte order, or the header is
big-endian. -/
def Primary.CountRead (p : Primary) : Prop :=
  p.mp.order = .big ∨ p.mp.tags.length / 256 = p.mp.tags.length % 256
deriving Decidable

theorem Primary.bytes_fields (p : Primary) (post : List UInt8) :
    p.bytes ++ post = p.before ++ (MpHeader.mark p.mp.order ++
      (p.mp.order.long (8 + p.mp.gap.length) ++ (p.mp.gap ++ (p.mp.order.short p.mp.tags.length ++
          (p.mp.tags.flatMap (MpTag.bytes p.mp.order) ++ (p.mp.order.long p.mp.nextIfd.toNat ++
            (p.mp.entries.flatMap (MpEntry.bytes p.mp.order) ++ (p.mp.tail ++ (p.rest ++ post))))))))) := by
  simp only [bytes, MpHeader.bytes, MpHeader.front, append_assoc]

theorem readLong_mark {pre post : List UInt8} {o : ByteOrder} {n : ℕ} (hn : n = pre.length) (hlt : n + 4 ≤ 2 ^ 32) :
    readLong (pre ++ (MpHeader.mark o ++ post)) n = mpoLittleEndian ↔ o = .little := by
  cases o with
  | little =>
    rw [MpHeader.mark, readLong_block hn hlt]
    decide
  | big =>
    rw [MpHeader.mark, readLong_block hn hlt]
    decide

theorem read_long {pre post : List UInt8} {o : ByteOrder} {n v : ℕ} (hn : n = pre.length)
    (hlt : n + 4 ≤ 2 ^ 32) (hv : v < 2 ^ 32) :
    (if o = .little then readLongLittle (pre ++ (o.long v ++ post)) n
      else readLong (pre ++ (o.long v ++ post)) n) = v := by
  obtain ⟨a, b, c, d, hlong, hvalue⟩ := o.long_eq v
  rw [Nat.mod_eq_of_lt hv] at hvalue
  rw [hlong]
  cases o with
  | little => rw [if_pos rfl, readLongLittle_block hn hlt, hvalue]
  | big => rw [if_neg (by decide), readLong_block hn hlt, hvalue]

theorem readShort_count {pre post : List UInt8} {o : ByteOrder} {n v : ℕ} (hn : n = pre.length)
    (hlt : n + 2 ≤ 2 ^ 32) (hv : v < 2 ^ 16) (hcount : o = .big ∨ v / 256 = v % 256) :
    readShort (pre ++ (o.short v ++ post)) n = v := by
  have hsame : o.short v = ByteOrder.big.short v := by
    rcases hcount with rfl | hsym
    · rfl
    · have hbyte : byte v 0 = byte v 1 := by
        apply UInt8.toNat_inj.mp
        rw [byte_toNat, byte_toNat]
        omega
      cases o <;> simp only [ByteOrder.short, hbyte]
  obtain ⟨a, b, hshort, hvalue⟩ := ByteOrder.big.short_eq v
  rw [Nat.mod_eq_of_lt hv] at hvalue
  rw [hsame, hshort, readShort_block hn hlt, hvalue]

theorem select_write (o : ByteOrder) : (if o = .little then writeLongLittleEndian else writeLong) = writeLongIn o := by
  cases o <;> rfl

theorem int32_of_lt {n : ℕ} (h : n < 2 ^ 31) : int32 n = n := by
  have hn : uint32 n = n := uint32_of_lt (by omega)
  rw [int32, hn, if_pos h]

/-- The update reaches the entries: it writes the size of the primary image in the first and
runs the loop from there. -/
theorem mmJpegMpoUpdateHeader_walk {p : Primary} {info : MpoInfo} {post : List UInt8}
    (hscan : p.Scanned) (hcount : p.CountRead) (hbuff : info.outputBuff = p.bytes ++ post)
    (hprimary : info.primaryImage = p.bytes) (hlt : p.bytes.length < 2 ^ 31) :
    mmJpegMpoUpdateHeader info =
      let s := updateAux (writeLongIn p.mp.order) info.outputBuffSize p.mpStart info.auxImages
        p.entriesStart p.bytes.length (writeLongIn p.mp.order ⟨p.bytes ++ post, false⟩
          (p.entriesStart + 4) info.outputBuffSize p.bytes.length)
      (if s.overflow then -1 else 0, { info with outputBuff := s.buff }) := by
  have hlen := p.length_bytes
  have hshort := p.short
  rw [MpHeader.length_bytes, MpHeader.length_front] at hshort
  have hentries : p.entriesStart = p.mpStart + 14 + p.mp.gap.length + 12 * p.mp.tags.length := by
    rw [entriesStart, MpHeader.length_front]
    omega
  have hmarker := @getAppMarker_primary p post hscan
  obtain ⟨app2, happ2, hstart⟩ := map_eq_some_iff.mp hmarker
  have hendian : readLong (p.bytes ++ post) p.mpStart = mpoLittleEndian ↔ p.mp.order = .little := by
    rw [p.bytes_fields]
    exact readLong_mark rfl (by omega)
  have hoffset : (if p.mp.order = .little then readLongLittle (p.bytes ++ post) (p.mpStart + 4)
      else readLong (p.bytes ++ post) (p.mpStart + 4)) = 8 + p.mp.gap.length := by
    rw [p.bytes_fields, ← append_assoc p.before]
    exact read_long (by simp [mpStart]) (by omega) (by omega)
  have htags : readShort (p.bytes ++ post) (p.mpStart + (8 + p.mp.gap.length)) = p.mp.tags.length := by
    rw [p.bytes_fields, ← append_assoc p.before, ← append_assoc (p.before ++ _), ← append_assoc (p.before ++ _ ++ _)]
    exact readShort_count (by simp [mpStart]; omega) (by omega) (by omega) hcount
  have hwrap : ∀ n ≤ p.entriesStart + 4, uint32 n = n := fun n hn => uint32_of_lt (by omega)
  rw [mmJpegMpoUpdateHeader]
  simp only [hbuff, hprimary, int32_of_lt hlt, happ2, hstart]
  simp only [hwrap p.mpStart (by omega), hwrap (p.mpStart + 4) (by omega), hendian, hoffset,
    hwrap (p.mpStart + (8 + p.mp.gap.length)) (by omega), htags, select_write]
  have hentry : p.mpStart + (8 + p.mp.gap.length) + 2 + p.mp.tags.length * 12 + 4 = p.entriesStart := by omega
  rw [hentry]
  simp only [hwrap p.entriesStart (by omega), hwrap (p.entriesStart + 4) le_rfl]

/-! ### Copying the images -/

theorem overwrite_behind {pre old new : List UInt8} (hlen : new.length ≤ old.length) :
    overwrite (pre ++ old) pre.length new = (pre ++ new) ++ old.drop new.length := by
  have hold : old = old.take new.length ++ old.drop new.length := (take_append_drop _ _).symm
  rw [hold, overwrite_block rfl (by rw [length_take]; omega), ← hold, append_assoc]

theorem appendAux_room : ∀ (images : List (List UInt8)) {info : MpoInfo} {pre old : List UInt8},
      info.outputBuff = pre ++ old → info.bufFilledLen = pre.length →
      images.flatten.length ≤ old.length →
      appendAux images info = (true, { info with
        outputBuff := (pre ++ images.flatten) ++ old.drop images.flatten.length
        bufFilledLen := (pre ++ images.flatten).length }) := by
  intro images
  induction images with
  | nil =>
    intro info pre old hbuff hfilled _
    cases info
    simp only at hbuff hfilled
    simp [appendAux, hbuff, hfilled]
  | cons image images ih =>
    intro info pre old hbuff hfilled hroom
    rw [flatten_cons, length_append] at hroom
    have hsize : info.bufFilledLen + image.length ≤ info.outputBuffSize := by
      rw [MpoInfo.outputBuffSize, hbuff, hfilled, length_append]
      omega
    rw [appendAux, if_pos hsize]
    rw [hbuff, hfilled, overwrite_behind (by omega)]
    rw [@ih _ (pre ++ image) (old.drop image.length) rfl (by simp) (by
      rw [length_drop]
      omega)]
    simp only [flatten_cons, append_assoc, drop_drop, length_append]

/-- What the composer is given: a primary image whose index IFD has room for all images, an
output buffer large enough for them, and the primary image in the output if the output is
not empty. -/
structure Given (p : Primary) (info : MpoInfo) : Prop where
  primary : info.primaryImage = p.bytes
  entries : p.mp.entries.length = info.auxImages.length + 1
  room : (p.bytes ++ info.auxImages.flatten).length ≤ info.outputBuffSize
  start : info.bufFilledLen = 0 ∨ info.bufFilledLen = p.bytes.length ∧ info.outputBuff.take p.bytes.length = p.bytes

/-- An empty output is compared with the primary image by `<`. -/
def Larger (p : Primary) (info : MpoInfo) : Prop :=
  info.bufFilledLen = 0 → p.bytes.length < info.outputBuffSize

theorem copyPrimary_larger {p : Primary} {info : MpoInfo} (h : Given p info) (hlarger : Larger p info) :
    ∃ old, copyPrimary info = (true, { info with
        outputBuff := p.bytes ++ old
        bufFilledLen := p.bytes.length }) ∧
      info.auxImages.flatten.length ≤ old.length ∧
      p.bytes.length + old.length = info.outputBuffSize := by
  have hroom := h.room
  rw [length_append] at hroom
  have hlength := h.primary ▸ p.length_bytes
  refine ⟨info.outputBuff.drop p.bytes.length, ?_, ?_, ?_⟩
  · rcases h.start with hempty | ⟨hfilled, hcopied⟩
    · rw [copyPrimary, if_pos hempty, h.primary, if_pos (hlarger hempty), hempty, Nat.zero_add]
      simp [overwrite]
    · have hne : info.bufFilledLen ≠ 0 := by
        rw [hfilled, p.length_bytes, h.entries]
        omega
      rw [copyPrimary, if_neg hne]
      have hbuff := take_append_drop p.bytes.length info.outputBuff
      rw [hcopied] at hbuff
      rw [hbuff, ← hfilled]
  · rw [length_drop]
    rw [MpoInfo.outputBuffSize] at hroom
    omega
  · rw [length_drop]
    rw [MpoInfo.outputBuffSize] at hroom ⊢
    omega

/-- The output once all images are copied, `old` being what was in the buffer behind them. -/
def MpoInfo.copied (info : MpoInfo) (p : Primary) (old : List UInt8) : MpoInfo :=
  { info with
    outputBuff := p.bytes ++ (info.auxImages.flatten ++ old)
    bufFilledLen := (p.bytes ++ info.auxImages.flatten).length }

theorem mmJpegMpoCompose_copied {p : Primary} {info : MpoInfo} (h : Given p info) (hlarger : Larger p info) :
    ∃ old, mmJpegMpoCompose info = mmJpegMpoUpdateHeader (info.copied p old) ∧
      (info.copied p old).outputBuffSize = info.outputBuffSize := by
  obtain ⟨old, hcopied, hroom, hsize⟩ := copyPrimary_larger h hlarger
  refine ⟨old.drop info.auxImages.flatten.length, ?_, ?_⟩
  · rw [mmJpegMpoCompose, hcopied]
    simp only [if_true]
    rw [@appendAux_room info.auxImages _ p.bytes old rfl rfl hroom]
    simp only [if_true, append_assoc, MpoInfo.copied]
  · simp only [MpoInfo.copied, MpoInfo.outputBuffSize, length_append, length_drop] at hsize ⊢
    omega

/-! ### The fields -/

/-- The entries that the update writes. -/
def Primary.placed (p : Primary) (images : List (List UInt8)) : List MpEntry :=
  match p.mp.entries with
  | [] => []
  | e :: es => e.withSize p.bytes.length :: placeAux (p.bytes.length - p.mpStart) images es

/-- Where the last field that the update writes ends. -/
def Primary.fieldsEnd (p : Primary) (images : List (List UInt8)) : ℕ :=
  p.entriesStart + 16 * images.length + if images = [] then 8 else 12

theorem length_placeAux (start : ℕ) (images : List (List UInt8)) (es : List MpEntry) :
    (placeAux start images es).length = es.length := by
  fun_induction placeAux start images es with
  | case1 start image images e es ih => rw [length_cons, length_cons, ih]
  | case2 => rfl

theorem placeAux_sameImage (start : ℕ) (images : List (List UInt8)) (es : List MpEntry) :
    List.Forall₂ MpEntry.SameImage es (placeAux start images es) := by
  fun_induction placeAux start images es with
  | case1 start image images e es ih => exact List.Forall₂.cons ⟨rfl, rfl, rfl⟩ ih
  | case2 => exact forall₂_same.mpr fun e _ => ⟨rfl, rfl, rfl⟩

theorem placeAux_getElem? {images : List (List UInt8)} {es : List MpEntry} {start i : ℕ}
    {image : List UInt8} {e : MpEntry} (himage : images[i]? = some image)
    (he : (placeAux start images es)[i]? = some e) :
    e.size = UInt32.ofNat image.length ∧ e.dataOffset = UInt32.ofNat (start + (images.take i).flatten.length) := by
  induction images generalizing start i es with
  | nil => simp at himage
  | cons image' images ih =>
    cases es with
    | nil => simp [placeAux] at he
    | cons e' es =>
      rw [placeAux] at he
      cases i with
      | zero =>
        simp only [getElem?_cons_zero, some.injEq] at himage he
        subst himage he
        exact ⟨rfl, rfl⟩
      | succ i =>
        rw [getElem?_cons_succ] at himage he
        have hplace := ih himage he
        rw [take_succ_cons, flatten_cons, length_append, ← Nat.add_assoc]
        exact hplace

theorem Primary.length_placed (p : Primary) (images : List (List UInt8)) :
    (p.placed images).length = p.mp.entries.length := by
  rw [placed]
  cases p.mp.entries with
  | nil => rfl
  | cons e es => rw [length_cons, length_cons, length_placeAux]

theorem Primary.placed_sameImage (p : Primary) (images : List (List UInt8)) :
    List.Forall₂ MpEntry.SameImage p.mp.entries (p.placed images) := by
  rw [placed]
  cases p.mp.entries with
  | nil => exact List.Forall₂.nil
  | cons e es => exact List.Forall₂.cons ⟨rfl, rfl, rfl⟩ (placeAux_sameImage _ _ _)

theorem Primary.placed_cons {p : Primary} {e : MpEntry} {es : List MpEntry}
    (hes : p.mp.entries = e :: es) (images : List (List UInt8)) :
    p.placed images = e.withSize p.bytes.length :: placeAux (p.bytes.length - p.mpStart) images es := by
  simp only [placed, hes]

theorem mmJpegMpoUpdateHeader_fits {p : Primary} {info : MpoInfo} {post : List UInt8}
    (hscan : p.Scanned) (hcount : p.CountRead) (hbuff : info.outputBuff = p.bytes ++ post)
    (hprimary : info.primaryImage = p.bytes) (hlt : p.bytes.length < 2 ^ 31)
    (hentries : p.mp.entries.length = info.auxImages.length + 1)
    (hfields : p.fieldsEnd info.auxImages ≤ uint32 info.outputBuffSize) :
    mmJpegMpoUpdateHeader info = (0, { info with
      outputBuff := (p.withEntries (p.placed info.auxImages) (p.length_placed _)).bytes ++ post }) := by
  have hstart : p.mpStart ≤ p.bytes.length := by
    rw [p.length_bytes, entriesStart]
    omega
  obtain ⟨e, es, hes⟩ := exists_cons_of_length_eq_add_one hentries
  have hlength : p.entriesStart = (p.before ++ p.mp.front).length := by
    rw [length_append]
    rfl
  have hbytes := p.bytes_eq p.mp.entries rfl
  rw [p.withEntries_self, hes, flatMap_cons] at hbytes
  rw [mmJpegMpoUpdateHeader_walk hscan hcount hbuff hprimary hlt, bytes_eq, placed_cons hes, flatMap_cons]
  rw [hes, length_cons, Nat.add_right_cancel_iff] at hentries
  rw [fieldsEnd] at hfields
  generalize p.bytes.length = len at hstart ⊢
  have hfirst := @writeLongIn_size (p.before ++ p.mp.front)
    (es.flatMap (MpEntry.bytes p.mp.order) ++ (p.mp.tail ++ p.rest) ++ post) e p.entriesStart len
    info.outputBuffSize p.mp.order hlength (by split at hfields <;> omega)
  have hloop := @updateAux_placed p.mp.order info.outputBuffSize p.mpStart
    (p.mp.tail ++ (p.rest ++ post)) info.auxImages es
    ((p.before ++ p.mp.front) ++ (e.withSize len).bytes p.mp.order) p.entriesStart
    (len - p.mpStart) hentries (by simp [hlength, Nat.add_assoc]) (by
      intro hne
      rw [if_neg hne] at hfields
      exact hfields)
  rw [Nat.add_sub_cancel' hstart] at hloop
  simp only [hbytes, append_assoc] at hfirst hloop ⊢
  simp only [hfirst, hloop, Bool.false_eq_true, if_false]

theorem mmJpegMpoUpdateHeader_over {p : Primary} {info : MpoInfo} {post : List UInt8}
    (hscan : p.Scanned) (hcount : p.CountRead) (hbuff : info.outputBuff = p.bytes ++ post)
    (hprimary : info.primaryImage = p.bytes) (hlt : p.bytes.length < 2 ^ 31)
    (hentries : p.mp.entries.length = info.auxImages.length + 1)
    (hfields : uint32 info.outputBuffSize < p.fieldsEnd info.auxImages) :
    (mmJpegMpoUpdateHeader info).1 = -1 := by
  have hlen := p.length_bytes
  rw [mmJpegMpoUpdateHeader_walk hscan hcount hbuff hprimary hlt]
  refine if_pos ?_
  rw [fieldsEnd] at hfields
  split at hfields
  case isTrue hnil =>
    apply updateAux_sticky
    apply writeLongIn_overflow
    right
    rw [uint32_of_lt (show p.entriesStart + 4 + 3 < 2 ^ 32 by omega)]
    rw [hnil, length_nil] at hfields
    omega
  case isFalse hne => exact updateAux_overflow _ hne (by omega) hfields

theorem mmJpegMpoUpdateHeader_negative {p : Primary} {info : MpoInfo} {post : List UInt8}
    (hbuff : info.outputBuff = p.bytes ++ post) (hprimary : info.primaryImage = p.bytes)
    (hle : 2 ^ 31 ≤ p.bytes.length) (hlt : p.bytes.length < 2 ^ 32) :
    (mmJpegMpoUpdateHeader info).1 = -1 := by
  have hsize : int32 p.bytes.length < 0 := by
    rw [int32, uint32_of_lt hlt, if_neg (by omega)]
    omega
  rw [mmJpegMpoUpdateHeader, hbuff, hprimary]
  simp only [getAppMarker_negative hsize]

/-! ### The file -/

/-- The composer's limits: the images and their offsets fit the 32-bit fields, the length of
the primary image an `int`, the fields lie inside what a `uint32_t` holds of the size of the
output buffer, an empty output buffer is larger than the primary image, and the offset field
of the first entry, which the update leaves alone, is 0. -/
structure Fits (p : Primary) (info : MpoInfo) : Prop where
  larger : Larger p info
  primary : p.bytes.length < 2 ^ 31
  fields : p.fieldsEnd info.auxImages ≤ uint32 info.outputBuffSize
  sizes : ∀ image ∈ info.auxImages, image.length < 2 ^ 32
  offsets : ∀ i < info.auxImages.length, (p.bytes ++ (info.auxImages.take i).flatten).length < p.mpStart + 2 ^ 32
  first : ∀ e, p.mp.entries[0]? = some e → e.dataOffset = 0

/-- The composer returns 0 and leaves the multi-picture file in the output. -/
def Composes (p : Primary) (info : MpoInfo) : Prop :=
  (mmJpegMpoCompose info).1 = 0 ∧ p.IsFile info.auxImages
    ((mmJpegMpoCompose info).2.outputBuff.take (mmJpegMpoCompose info).2.bufFilledLen)

theorem mmJpegMpoCompose_eq {p : Primary} {info : MpoInfo} (h : Given p info)
    (hscan : p.Scanned) (hcount : p.CountRead) (hlarger : Larger p info)
    (hlt : p.bytes.length < 2 ^ 31)
    (hfields : p.fieldsEnd info.auxImages ≤ uint32 info.outputBuffSize) :
    (mmJpegMpoCompose info).1 = 0 ∧ (mmJpegMpoCompose info).2.outputBuff.take (mmJpegMpoCompose info).2.bufFilledLen =
        (p.withEntries (p.placed info.auxImages) (p.length_placed _)).bytes ++ info.auxImages.flatten := by
  obtain ⟨old, hcopied, hsize⟩ := mmJpegMpoCompose_copied h hlarger
  have hlength : (p.withEntries (p.placed info.auxImages) (p.length_placed _)).bytes.length = p.bytes.length := by
    rw [p.length_bytes, bytes_eq]
    simp only [length_append, length_entries, p.length_placed, entriesStart, mpStart]
    omega
  have hwritten := @mmJpegMpoUpdateHeader_fits p (info.copied p old)
    (info.auxImages.flatten ++ old) hscan hcount rfl h.primary hlt h.entries
    (by rw [hsize]; exact hfields)
  rw [hcopied, hwritten]
  refine ⟨rfl, ?_⟩
  change take (p.bytes ++ info.auxImages.flatten).length
    ((p.withEntries (p.placed info.auxImages) (p.length_placed _)).bytes ++ (info.auxImages.flatten ++ old)) = _
  rw [← append_assoc]
  exact take_left' (by rw [length_append, length_append, hlength])

theorem Fits.states {p : Primary} {info : MpoInfo} (h : Given p info) (hfits : Fits p info) :
    p.States info.auxImages (p.placed info.auxImages) := by
  have hstart : p.mpStart ≤ p.bytes.length := by
    rw [p.length_bytes, entriesStart]
    omega
  obtain ⟨e, es, hes⟩ := exists_cons_of_length_eq_add_one h.entries
  rw [placed_cons hes]
  constructor
  · rintro e' he'
    rw [getElem?_cons_zero, some.injEq] at he'
    subst he'
    refine ⟨?_, hfits.first e (by rw [hes, getElem?_cons_zero])⟩
    have hlt := hfits.primary
    rw [MpEntry.withSize, UInt32.toNat_ofNat']
    exact Nat.mod_eq_of_lt (by omega)
  · rintro i image e' himage he'
    rw [getElem?_cons_succ] at he'
    obtain ⟨hsize, hoffset⟩ := placeAux_getElem? himage he'
    have hi : i < info.auxImages.length := (List.getElem?_eq_some_iff.mp himage).1
    have hlt := hfits.sizes image (mem_of_getElem? himage)
    have hlt' := hfits.offsets i hi
    rw [length_append] at hlt'
    rw [hsize, hoffset, UInt32.toNat_ofNat', UInt32.toNat_ofNat', length_append]
    exact ⟨Nat.mod_eq_of_lt hlt, by rw [Nat.mod_eq_of_lt (by omega)]; omega⟩

/-- On a primary image that the scan gets through, with a tag count that reads the same in
either order, the composer produces the multi-picture file exactly within its limits. -/
theorem mmJpegMpoCompose_isFile_iff {p : Primary} {info : MpoInfo} (h : Given p info)
    (hscan : p.Scanned) (hcount : p.CountRead) : Composes p info ↔ Fits p info := by
  constructor
  · rintro ⟨hrc, es, hlen, -, hstates, hfile⟩
    have hlength : es.length = info.auxImages.length + 1 := hlen.trans h.entries
    obtain ⟨e, es, rfl⟩ := exists_cons_of_length_eq_add_one hlength
    obtain ⟨hsize, hoffset⟩ := hstates.first e rfl
    have hsize_lt := e.size.toNat_lt
    have hlarger : Larger p info := by
      intro hempty
      by_contra hnot
      rw [mmJpegMpoCompose, copyPrimary, if_pos hempty, h.primary, if_neg hnot] at hrc
      simp at hrc
    obtain ⟨old, hcopied, hold⟩ := mmJpegMpoCompose_copied h hlarger
    have hlt : p.bytes.length < 2 ^ 31 := by
      by_contra hnot
      have hnegative := @mmJpegMpoUpdateHeader_negative p (info.copied p old)
        (info.auxImages.flatten ++ old) rfl h.primary (by omega) (by omega)
      rw [hcopied, hnegative] at hrc
      exact absurd hrc (by decide)
    have hfields : p.fieldsEnd info.auxImages ≤ uint32 info.outputBuffSize := by
      by_contra hnot
      have hover := @mmJpegMpoUpdateHeader_over p (info.copied p old)
        (info.auxImages.flatten ++ old) hscan hcount rfl h.primary hlt h.entries
        (by rw [hold]; exact Nat.lt_of_not_le hnot)
      rw [hcopied, hover] at hrc
      exact absurd hrc (by decide)
    obtain ⟨-, hout⟩ := mmJpegMpoCompose_eq h hscan hcount hlarger hlt hfields
    obtain ⟨e₀, es₀, hes₀⟩ := exists_cons_of_length_eq_add_one h.entries
    rw [hout] at hfile
    have hentry : ∀ i < info.auxImages.length, ∃ image e', info.auxImages[i]? = some image ∧
        (e :: es)[i + 1]? = some e' := by
      intro i hi
      exact ⟨_, _, getElem?_eq_getElem hi, getElem?_eq_getElem (by omega)⟩
    refine ⟨hlarger, hlt, hfields, ?_, ?_, ?_⟩
    · intro image himage
      obtain ⟨i, hi, rfl⟩ := getElem_of_mem himage
      obtain ⟨image, e', himage, he'⟩ := hentry i hi
      have hlt := e'.size.toNat_lt
      rw [(hstates.others i image e' himage he').1] at hlt
      rw [getElem?_eq_getElem hi, some.injEq] at himage
      rw [himage]
      exact hlt
    · intro i hi
      obtain ⟨image, e', himage, he'⟩ := hentry i hi
      have hlt := e'.dataOffset.toNat_lt
      rw [← (hstates.others i image e' himage he').2]
      omega
    · intro e' he'
      rw [hes₀, getElem?_cons_zero, some.injEq] at he'
      subst he'
      have hsame : e₀.dataOffset = e.dataOffset := by
        have hfirst : (p.placed info.auxImages)[0]? = some (e₀.withSize p.bytes.length) := by
          rw [placed_cons hes₀, getElem?_cons_zero]
        exact @first_offset_inj p (e₀.withSize p.bytes.length) _ _ _ _ _ _ hfile hfirst rfl
      rw [hsame, hoffset]
  · intro hfits
    obtain ⟨hrc, hout⟩ := mmJpegMpoCompose_eq h hscan hcount hfits.larger hfits.primary hfits.fields
    exact ⟨hrc, p.placed info.auxImages, p.length_placed _, p.placed_sameImage _, hfits.states h, hout⟩

/-- A primary image of one segment before the MP segment, `tags` tags and two entries. -/
def sample (order : ByteOrder) (payload : List UInt8) (hpayload : payload.length + 2 < 2 ^ 16)
    (tags : List MpTag) (htags : tags.length ≤ 3) : Primary where
  segments := [⟨0xe1, payload, rfl, hpayload⟩]
  mp :=
    { order := order
      gap := []
      tags := tags
      nextIfd := 0
      entries := [⟨0x20030000, 0, 0, 0, 0⟩, ⟨0, 0, 0, 0, 0⟩]
      tail := [] }
  rest := [0xff, mEoi]
  short := by
    rw [MpHeader.length_bytes, MpHeader.length_front]
    simp
    omega

/-- A sample image with one auxiliary image and an output buffer with room to spare. -/
def sampleInfo (p : Primary) : MpoInfo where
  primaryImage := p.bytes
  auxImages := [[0xff, mSoi, 0xff, mEoi]]
  outputBuff := List.replicate (p.bytes.length + 6) 0
  bufFilledLen := 0

section Sample

variable {order : ByteOrder} {payload : List UInt8} {hpayload : payload.length + 2 < 2 ^ 16}
  {tags : List MpTag} {htags : tags.length ≤ 3}

theorem sample_given : Given (sample order payload hpayload tags htags)
    (sampleInfo (sample order payload hpayload tags htags)) where
  primary := rfl
  entries := rfl
  room := by simp [sampleInfo, MpoInfo.outputBuffSize]
  start := .inl rfl

theorem sample_fits : Fits (sample order payload hpayload tags htags)
    (sampleInfo (sample order payload hpayload tags htags)) := by
  have hlen := (sample order payload hpayload tags htags).length_bytes
  have hstart := (sample order payload hpayload tags htags).mpStart_eq
  have hentries : (sample order payload hpayload tags htags).entriesStart =
      (sample order payload hpayload tags htags).mpStart + (14 + 12 * tags.length) := by
    rw [entriesStart, MpHeader.length_front]
    rfl
  have hsegments : ((sample order payload hpayload tags htags).segments.flatMap
      Segment.bytes).length = payload.length + 4 := by
    simp [sample]
  have hlen' : (sample order payload hpayload tags htags).bytes.length =
      (sample order payload hpayload tags htags).entriesStart + 34 := hlen
  have hsize : (sampleInfo (sample order payload hpayload tags htags)).outputBuffSize =
      (sample order payload hpayload tags htags).bytes.length + 6 := by
    simp [sampleInfo, MpoInfo.outputBuffSize]
  refine ⟨fun _ => by omega, by omega, ?_, ?_, ?_, ?_⟩
  · rw [hsize, uint32_of_lt (by omega)]
    have hfields : (sample order payload hpayload tags htags).fieldsEnd [[0xff, mSoi, 0xff, mEoi]] =
        (sample order payload hpayload tags htags).entriesStart + 16 * 1 + 12 := rfl
    rw [sampleInfo, hfields]
    omega
  · simp [sampleInfo]
  · intro i hi
    obtain rfl : i = 0 := by simpa [sampleInfo] using hi
    simp only [take_zero, flatten_nil, append_nil]
    omega
  · rintro e he
    cases he
    rfl

end Sample

/-- A big-endian image is composed. -/
theorem mmJpegMpoCompose_sample : Composes (sample .big [1, 2] (by decide) [⟨0xb001, 4, 1, 2⟩] (by decide))
      (sampleInfo (sample .big [1, 2] (by decide) [⟨0xb001, 4, 1, 2⟩] (by decide))) :=
  (mmJpegMpoCompose_isFile_iff sample_given (forall_mem_singleton.mpr (by decide)) (.inl rfl)).mpr sample_fits

/-- A little-endian image with one tag is refused, its tag count being read as 256, and so is an
image with a segment that ends in `0xFF`, behind which the scan does not find the MP segment. -/
theorem mmJpegMpoCompose_refused : (Given (sample .little [1, 2] (by decide) [⟨0xb001, 4, 1, 2⟩] (by decide))
        (sampleInfo (sample .little [1, 2] (by decide) [⟨0xb001, 4, 1, 2⟩] (by decide))) ∧
      ¬ Composes (sample .little [1, 2] (by decide) [⟨0xb001, 4, 1, 2⟩] (by decide))
        (sampleInfo (sample .little [1, 2] (by decide) [⟨0xb001, 4, 1, 2⟩] (by decide)))) ∧
    (Given (sample .big [1, 0xff] (by decide) [⟨0xb001, 4, 1, 2⟩] (by decide))
        (sampleInfo (sample .big [1, 0xff] (by decide) [⟨0xb001, 4, 1, 2⟩] (by decide))) ∧
      ¬ Composes (sample .big [1, 0xff] (by decide) [⟨0xb001, 4, 1, 2⟩] (by decide))
        (sampleInfo (sample .big [1, 0xff] (by decide) [⟨0xb001, 4, 1, 2⟩] (by decide)))) :=
  ⟨⟨sample_given, fun h => absurd h.1 (by decide +kernel)⟩, sample_given, fun h => absurd h.1 (by decide +kernel)⟩

end Marlin.Mpo
