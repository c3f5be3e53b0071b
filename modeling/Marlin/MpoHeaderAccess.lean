import Marlin.MpoScan

/-!
# What the Update of a Multi-Picture Header Accesses

`mm_jpeg_mpo_update_header` with every access checked. What it reads of the header is not tested: the header may
end before its fields, and the offset of the first IFD is any number. What it writes is tested by the number of its
last byte, in 32 bits, in which the number of a field in the last three bytes wraps around.

## Conventions

* The scan may read the primary image, the rest of the function what there is of the output buffer. Numbers in
  a `uint32_t` are reduced to 32 bits, those of addresses are not; `output_buff_size`, a `size_t`, is any number.
* `debug` says whether the debug log is on, which reads a byte of the segment, of the header and of each image.

## Main results

* `updateAux_ok_iff`: when the loop over the auxiliary images accesses nothing outside.
* `updateHeader_safe_iff`: exactly when the function does what it is to do.
* `updateHeader_eq`: where it accesses nothing outside, the function with the checks is the one without.
-/

namespace Marlin.Mpo.Checked

open List Bool Bytes

/-- A byte is accessed whose value does not matter. -/
def touch (ok : ℕ → Bool) (o : ℕ) : Except Fault Unit := if ok o then .ok () else .error (.outside o)

section

variable (mem : ℕ → UInt8) (ok : ℕ → Bool)

/-- `READ_LONG` and `READ_LONG_LITTLE`. -/
def readLong (order : ByteOrder) (o : ℕ) : Except Fault ℕ := do
  let a ← read mem ok o
  let b ← read mem ok (uint32 (o + 1))
  let c ← read mem ok (uint32 (o + 2))
  let d ← read mem ok (uint32 (o + 3))
  .ok (order.ofLong a b c d)

/-- `READ_SHORT`. -/
def readShort (o : ℕ) : Except Fault ℕ := do
  let a ← read mem ok o
  let b ← read mem ok (uint32 (o + 1))
  .ok (ByteOrder.big.ofShort a b)

/-- The writers of a long: where the flag is not raised, four bytes are written. -/
def writeLong (order : ByteOrder) (s : Patch) (off size : ℕ) (value : ℤ) : Except Fault Patch :=
  let t := writeLongIn order s off size value
  if t.overflow then .ok t
  else do
    touch ok off
    touch ok (uint32 (off + 1))
    touch ok (uint32 (off + 2))
    touch ok (uint32 (off + 3))
    .ok t

/-- The debug log prints the byte at an address, if it is on. -/
def log (debug : Bool) (o : ℕ) : Except Fault Unit := if debug then touch ok o else .ok ()

/-- The loop over the auxiliary images in `mm_jpeg_mpo_update_header`. -/
def updateAux (debug : Bool) (order : ByteOrder) (size mpHeader : ℕ) :
    List (List UInt8) → ℕ → ℕ → Patch → Except Fault Patch
  | [], _, _, s => .ok s
  | image :: images, entry, aux, s => do
    let s ← writeLong ok order s (uint32 (uint32 (entry + 16) + 4)) size image.length
    log ok debug aux
    let s ← writeLong ok order s (uint32 (uint32 (uint32 (entry + 16) + 4) + 4)) size ((aux : ℤ) - mpHeader)
    updateAux debug order size mpHeader images (uint32 (entry + 16)) (aux + image.length) s

end

/-- The byte order of a header. -/
def orderOf (endianess : ℕ) : ByteOrder := if endianess = mpoLittleEndian then .little else .big

/-- `mm_jpeg_mpo_update_header`, once the segment is found. -/
def updateEntries (debug : Bool) (info : MpoInfo) (app2 : ℕ) : Except Fault (ℤ × MpoInfo) := do
  let mem := byteAt info.outputBuff
  let ok := below info.outputBuffSize
  log ok debug app2
  let mpHeader := getMpHeader app2
  log ok debug mpHeader
  let endianess ← readLong mem ok .big (uint32 mpHeader)
  let offsetToNxtIfd ← readLong mem ok (orderOf endianess) (uint32 (uint32 mpHeader + 4))
  let current := uint32 (mpHeader + offsetToNxtIfd)
  let ifdTagCount ← readShort mem ok current
  let mpEntryVal := uint32 (current + 2 + ifdTagCount * 12 + 4)
  let s ← writeLong ok (orderOf endianess) ⟨info.outputBuff, false⟩ (uint32 (mpEntryVal + 4)) info.outputBuffSize
    info.primaryImage.length
  let s ← updateAux ok debug (orderOf endianess) info.outputBuffSize mpHeader info.auxImages mpEntryVal
    info.primaryImage.length s
  .ok (if s.overflow then -1 else 0, { info with outputBuff := s.buff })

/-- `mm_jpeg_mpo_update_header`. -/
def updateHeader (debug : Bool) (info : MpoInfo) : Except Fault (ℤ × MpoInfo) := do
  let app2 ← getAppMarker (byteAt info.outputBuff) (below info.primaryImage.length)
    (int32 info.primaryImage.length) mApp2
  match app2 with
  | none => .ok (-1, info)
  | some app2 => updateEntries debug info app2

/-! ### Runs -/

theorem bind_ok_of {α β : Type} {x : Except Fault α} {f : α → Except Fault β} {a : α} {b : β} (hx : x = .ok a)
    (hf : f a = .ok b) : x >>= f = .ok b := by
  rw [hx, bind_ok, hf]

theorem exists_bind_ok {α β : Type} {x : Except Fault α} {f : α → Except Fault β} :
    (∃ b, x >>= f = .ok b) ↔ ∃ a, x = .ok a ∧ ∃ b, f a = .ok b := by
  refine ⟨fun ⟨b, h⟩ => ?_, fun ⟨a, hx, b, hf⟩ => ⟨b, bind_ok_of hx hf⟩⟩
  obtain ⟨a, hx, hf⟩ := of_bind_ok h
  exact ⟨a, hx, b, hf⟩

variable {mem : ℕ → UInt8} {ok : ℕ → Bool} {debug : Bool} {order : ByteOrder} {size mpHeader off : ℕ} {s : Patch}
  {value : ℤ}

variable {o : ℕ}

theorem touch_ok_iff {u : Unit} : touch ok o = .ok u ↔ ok o = true := by
  rw [touch]
  split
  · exact iff_of_true rfl (by assumption)
  · exact iff_of_false nofun (by assumption)

theorem log_ok_iff {u : Unit} : log (below size) debug o = .ok u ↔ (debug = true → o < size) := by
  cases debug with
  | false => exact iff_of_true rfl nofun
  | true =>
    refine touch_ok_iff.trans ⟨fun h _ => of_decide_eq_true h, fun h => decide_eq_true (h rfl)⟩

theorem read_ok_iff {byte : UInt8} : read mem (below size) o = .ok byte ↔ o < size ∧ byte = mem o := by
  refine ⟨fun h => ⟨?_, (eq_of_read h).symm⟩, fun ⟨hlt, heq⟩ => heq ▸ read_of_ok (decide_eq_true hlt)⟩
  by_contra hlt
  exact nomatch (read_of_not fun hin => hlt (of_decide_eq_true hin)).symm.trans h

/-! ### The header's fields -/

theorem readLong_ok_iff {v : ℕ} : readLong mem (below size) order o = .ok v ↔
      (o < size ∧ uint32 (o + 1) < size ∧ uint32 (o + 2) < size ∧ uint32 (o + 3) < size) ∧
        v = order.ofLong (mem o) (mem (uint32 (o + 1))) (mem (uint32 (o + 2))) (mem (uint32 (o + 3))) := by
  refine ⟨fun h => ?_, ?_⟩
  · obtain ⟨a, ha, h⟩ := of_bind_ok h
    obtain ⟨b, hb, h⟩ := of_bind_ok h
    obtain ⟨c, hc, h⟩ := of_bind_ok h
    obtain ⟨d, hd, h⟩ := of_bind_ok h
    obtain ⟨ho, rfl⟩ := read_ok_iff.mp ha
    obtain ⟨ho1, rfl⟩ := read_ok_iff.mp hb
    obtain ⟨ho2, rfl⟩ := read_ok_iff.mp hc
    obtain ⟨ho3, rfl⟩ := read_ok_iff.mp hd
    exact ⟨⟨ho, ho1, ho2, ho3⟩, (Except.ok.inj h).symm⟩
  · rintro ⟨⟨ho, ho1, ho2, ho3⟩, rfl⟩
    rw [readLong, read_ok_iff.mpr ⟨ho, rfl⟩, bind_ok, read_ok_iff.mpr ⟨ho1, rfl⟩, bind_ok,
      read_ok_iff.mpr ⟨ho2, rfl⟩, bind_ok, read_ok_iff.mpr ⟨ho3, rfl⟩, bind_ok]

theorem readShort_ok_iff {v : ℕ} : readShort mem (below size) o = .ok v ↔
      (o < size ∧ uint32 (o + 1) < size) ∧ v = ByteOrder.big.ofShort (mem o) (mem (uint32 (o + 1))) := by
  refine ⟨fun h => ?_, ?_⟩
  · obtain ⟨a, ha, h⟩ := of_bind_ok h
    obtain ⟨b, hb, h⟩ := of_bind_ok h
    obtain ⟨ho, rfl⟩ := read_ok_iff.mp ha
    obtain ⟨ho1, rfl⟩ := read_ok_iff.mp hb
    exact ⟨⟨ho, ho1⟩, (Except.ok.inj h).symm⟩
  · rintro ⟨⟨ho, ho1⟩, rfl⟩
    rw [readShort, read_ok_iff.mpr ⟨ho, rfl⟩, bind_ok, read_ok_iff.mpr ⟨ho1, rfl⟩, bind_ok]

/-! ### Writing a field -/

theorem writeLongIn_overflow_iff :
    (writeLongIn order s off size value).overflow = true ↔ s.overflow = true ∨ uint32 size ≤ uint32 (off + 3) := by
  refine ⟨fun h => ?_, writeLongIn_overflow⟩
  by_contra hnot
  obtain ⟨hflag, hfits⟩ := not_or.mp hnot
  have htest : (s.overflow || decide (uint32 (off + 3) ≥ uint32 size)) = false := by
    rw [Bool.eq_false_of_not_eq_true hflag, decide_eq_false hfits, Bool.or_false]
  rw [writeLongIn, htest] at h
  cases h

variable {t : Patch}

theorem writeLong_ok_iff : writeLong ok order s off size value = .ok t ↔ t = writeLongIn order s off size value ∧
      (t.overflow = true ∨ ok off = true ∧ ok (uint32 (off + 1)) = true ∧ ok (uint32 (off + 2)) = true ∧
        ok (uint32 (off + 3)) = true) := by
  rw [writeLong]
  split
  · rename_i hflag
    refine ⟨fun h => ?_, fun h => congrArg Except.ok h.1.symm⟩
    obtain rfl := Except.ok.inj h
    exact ⟨rfl, .inl hflag⟩
  · rename_i hflag
    refine ⟨fun h => ?_, ?_⟩
    · obtain ⟨u, hu, h⟩ := of_bind_ok h
      obtain ⟨u1, hu1, h⟩ := of_bind_ok h
      obtain ⟨u2, hu2, h⟩ := of_bind_ok h
      obtain ⟨u3, hu3, h⟩ := of_bind_ok h
      exact ⟨(Except.ok.inj h).symm, .inr ⟨touch_ok_iff.mp hu, touch_ok_iff.mp hu1, touch_ok_iff.mp hu2,
        touch_ok_iff.mp hu3⟩⟩
    · rintro ⟨rfl, hraised | ⟨h, h1, h2, h3⟩⟩
      · exact absurd hraised hflag
      · rw [touch_ok_iff (u := ()).mpr h, bind_ok, touch_ok_iff (u := ()).mpr h1, bind_ok,
          touch_ok_iff (u := ()).mpr h2, bind_ok, touch_ok_iff (u := ()).mpr h3, bind_ok]

/-- The number of the last byte of a field has 32 bits, or all such numbers are in the buffer. -/
def Numbered (size off : ℕ) : Prop := size < 2 ^ 32 → off + 3 < 2 ^ 32

/-- **A field is written inside the buffer or refused**, if its last byte has a number of 32 bits; otherwise it is
neither. -/
theorem writeLong_below (hsize : 3 ≤ size) (hoff : off < 2 ^ 32) :
    (∃ t, writeLong (below size) order s off size value = .ok t) ↔ s.overflow = true ∨ Numbered size off := by
  have hflag := @writeLongIn_overflow_iff order size off s value
  refine ⟨fun ⟨t, ht⟩ => ?_, fun h => ?_⟩
  · obtain ⟨rfl, ht⟩ := writeLong_ok_iff.mp ht
    by_contra hnot
    obtain ⟨hlow, hnumbered⟩ := not_or.mp hnot
    obtain ⟨hlt, hwraps⟩ := Classical.not_imp.mp hnumbered
    have hfits : ¬ uint32 size ≤ uint32 (off + 3) := by
      rw [uint32, uint32]
      omega
    rcases ht with hraised | ⟨h, h1, h2, -⟩
    · exact (hflag.mp hraised).elim hlow hfits
    · have h0 : off < size := of_decide_eq_true h
      have h1 : (off + 1) % 2 ^ 32 < size := of_decide_eq_true h1
      have h2 : (off + 2) % 2 ^ 32 < size := of_decide_eq_true h2
      omega
  · by_cases hraised : (writeLongIn order s off size value).overflow = true
    · exact ⟨_, writeLong_ok_iff.mpr ⟨rfl, .inl hraised⟩⟩
    · obtain ⟨hlow, hfits⟩ := not_or.mp (fun hor => hraised (hflag.mpr hor))
      have hnumbered : size < 2 ^ 32 → off + 3 < 2 ^ 32 := h.resolve_left hlow
      have hfits : ¬ size % 2 ^ 32 ≤ (off + 3) % 2 ^ 32 := hfits
      refine ⟨_, writeLong_ok_iff.mpr ⟨rfl, .inr ⟨decide_eq_true ?_, decide_eq_true ?_, decide_eq_true ?_,
        decide_eq_true ?_⟩⟩⟩
      · omega
      · change (off + 1) % 2 ^ 32 < size
        omega
      · change (off + 2) % 2 ^ 32 < size
        omega
      · change (off + 3) % 2 ^ 32 < size
        omega

theorem overflow_of_outside (hoff : off < 2 ^ 32)
    (h : writeLong (below size) order s off size value = .ok t) (hout : s.overflow = true ∨ size ≤ off + 3) :
    t.overflow = true := by
  obtain ⟨rfl, ht⟩ := writeLong_ok_iff.mp h
  rcases ht with hraised | ⟨h0, h1, h2, h3⟩
  · exact hraised
  · refine writeLongIn_overflow_iff.mpr (hout.imp_right fun hle => ?_)
    have h0 : off < size := of_decide_eq_true h0
    have h1 : (off + 1) % 2 ^ 32 < size := of_decide_eq_true h1
    have h2 : (off + 2) % 2 ^ 32 < size := of_decide_eq_true h2
    have h3 : (off + 3) % 2 ^ 32 < size := of_decide_eq_true h3
    change size % 2 ^ 32 ≤ (off + 3) % 2 ^ 32
    omega

/-! ### The fields in turn -/

/-- Where the fields of the entries after one at `entry` stand. -/
def auxFields : ℕ → ℕ → List ℕ
  | 0, _ => []
  | k + 1, entry =>
    uint32 (uint32 (entry + 16) + 4) :: uint32 (uint32 (uint32 (entry + 16) + 4) + 4) ::
      auxFields k (uint32 (entry + 16))

/-- Where the fields stand: the first entry, of which only the size is written, and `k` entries after it. -/
def fields (k entry : ℕ) : List ℕ := uint32 (entry + 4) :: auxFields k entry

/-- Every field, up to the first one that does not fit, has a last byte with a number of 32 bits. -/
def Tested (size : ℕ) : List ℕ → Prop
  | [] => True
  | off :: offs => Numbered size off ∧ (off + 3 < size → Tested size offs)

/-- The images from `aux` on start in the buffer. -/
def Starts (size : ℕ) : ℕ → List (List UInt8) → Prop
  | _, [] => True
  | aux, image :: images => aux < size ∧ Starts size (aux + image.length) images

theorem tested_of_le (h : 2 ^ 32 ≤ size) (offs : List ℕ) : Tested size offs := by
  induction offs with
  | nil => trivial
  | cons off offs ih => exact ⟨fun hlt => absurd hlt (Nat.not_lt.mpr h), fun _ => ih⟩

theorem writeLong_then (hsize : 3 ≤ size) (hoff : off < 2 ^ 32) {T : Prop} (hT : 2 ^ 32 ≤ size → T) :
    (∃ t, writeLong (below size) order s off size value = .ok t ∧ (t.overflow = true ∨ T)) ↔
      s.overflow = true ∨ (Numbered size off ∧ (off + 3 < size → T)) := by
  have hbelow := @writeLong_below order size off s value hsize hoff
  refine ⟨fun ⟨t, ht, hrest⟩ => ?_, fun h => ?_⟩
  · by_cases hlow : s.overflow = true
    · exact .inl hlow
    refine .inr ⟨(hbelow.mp ⟨t, ht⟩).resolve_left hlow, fun hfits => ?_⟩
    rcases Nat.lt_or_ge size (2 ^ 32) with hlt | hge
    · refine hrest.resolve_left fun hraised => ?_
      obtain ⟨rfl, -⟩ := writeLong_ok_iff.mp ht
      have htest : size % 2 ^ 32 ≤ (off + 3) % 2 ^ 32 := (writeLongIn_overflow_iff.mp hraised).resolve_left hlow
      omega
    · exact hT hge
  · obtain ⟨t, ht⟩ := hbelow.mpr (h.imp_right And.left)
    refine ⟨t, ht, ?_⟩
    by_cases hout : s.overflow = true ∨ size ≤ off + 3
    · exact .inl (overflow_of_outside hoff ht hout)
    · obtain ⟨hlow, hfits⟩ := not_or.mp hout
      exact .inr ((h.resolve_left hlow).2 (Nat.lt_of_not_le hfits))

variable {images : List (List UInt8)} {entry aux : ℕ}

/-- **The loop over the auxiliary images** accesses nothing outside just if the fields are tested by their number, and
the images start in the buffer where the log reads them. -/
theorem updateAux_ok_iff (hsize : 3 ≤ size) :
    (∃ t, updateAux (below size) debug order size mpHeader images entry aux s = .ok t) ↔
      (debug = true → Starts size aux images) ∧ (s.overflow = true ∨ Tested size (auxFields images.length entry)) := by
  induction images generalizing entry aux s with
  | nil => exact iff_of_true ⟨s, rfl⟩ ⟨fun _ => trivial, .inr trivial⟩
  | cons image images ih =>
    have htested (hge : 2 ^ 32 ≤ size) := tested_of_le hge
    calc (∃ t, updateAux (below size) debug order size mpHeader (image :: images) entry aux s = .ok t)
        ↔ ∃ s1, writeLong (below size) order s (uint32 (uint32 (entry + 16) + 4)) size image.length = .ok s1 ∧
            ∃ u, log (below size) debug aux = .ok u ∧
              ∃ s2, writeLong (below size) order s1 (uint32 (uint32 (uint32 (entry + 16) + 4) + 4)) size
                  ((aux : ℤ) - mpHeader) = .ok s2 ∧
                ∃ t, updateAux (below size) debug order size mpHeader images (uint32 (entry + 16))
                  (aux + image.length) s2 = .ok t := by
          simp only [updateAux, exists_bind_ok]
      _ ↔ (debug = true → Starts size aux (image :: images)) ∧
            ∃ s1, writeLong (below size) order s (uint32 (uint32 (entry + 16) + 4)) size image.length = .ok s1 ∧
              ∃ s2, writeLong (below size) order s1 (uint32 (uint32 (uint32 (entry + 16) + 4) + 4)) size
                  ((aux : ℤ) - mpHeader) = .ok s2 ∧
                (s2.overflow = true ∨ Tested size (auxFields images.length (uint32 (entry + 16)))) := by
          simp only [ih, log_ok_iff]
          refine ⟨fun ⟨s1, h1, u, hlog, s2, h2, hstarts, hrest⟩ => ?_, fun ⟨hstarts, s1, h1, s2, h2, hrest⟩ => ?_⟩
          · exact ⟨fun hdebug => ⟨hlog hdebug, hstarts hdebug⟩, s1, h1, s2, h2, hrest⟩
          · exact ⟨s1, h1, (), fun hdebug => (hstarts hdebug).1, s2, h2, fun hdebug => (hstarts hdebug).2, hrest⟩
      _ ↔ (debug = true → Starts size aux (image :: images)) ∧
            (s.overflow = true ∨ Tested size (auxFields (image :: images).length entry)) := by
          refine and_congr_right' ?_
          simp only [writeLong_then hsize (uint32_lt _) (htested · _)]
          exact writeLong_then hsize (uint32_lt _) fun hge => htested hge (_ :: _)

theorem updateAux_outside (h : updateAux (below size) debug order size mpHeader images entry aux s = .ok t)
    (hout : s.overflow = true ∨ ∃ o ∈ auxFields images.length entry, size ≤ o + 3) : t.overflow = true := by
  induction images generalizing entry aux s with
  | nil =>
    rw [← Except.ok.inj h]
    exact hout.resolve_right fun ⟨o, ho, _⟩ => absurd ho not_mem_nil
  | cons image images ih =>
    obtain ⟨s1, hs1, h⟩ := of_bind_ok h
    obtain ⟨u, -, h⟩ := of_bind_ok h
    obtain ⟨s2, hs2, h⟩ := of_bind_ok h
    refine ih h ?_
    have hraised : s.overflow = true ∨ size ≤ uint32 (uint32 (entry + 16) + 4) + 3 ∨
        size ≤ uint32 (uint32 (uint32 (entry + 16) + 4) + 4) + 3 → s2.overflow = true := by
      intro hcase
      refine overflow_of_outside (uint32_lt _) hs2 ?_
      rcases hcase with hlow | hfirst | hsecond
      · exact .inl (overflow_of_outside (uint32_lt _) hs1 (.inl hlow))
      · exact .inl (overflow_of_outside (uint32_lt _) hs1 (.inr hfirst))
      · exact .inr hsecond
    rcases hout with hlow | ⟨o, ho, hle⟩
    · exact .inl (hraised (.inl hlow))
    · rcases mem_cons.mp ho with rfl | ho
      · exact .inl (hraised (.inr (.inl hle)))
      · rcases mem_cons.mp ho with rfl | ho
        · exact .inl (hraised (.inr (.inr hle)))
        · exact .inr ⟨o, ho, hle⟩

/-! ### The function -/

/-- The offset of the index IFD that a header at `mpHeader` states, from the start of the buffer. -/
def ifdStart (b : List UInt8) (mpHeader : ℕ) : ℕ :=
  uint32 (mpHeader + (if Mpo.readLong b (uint32 mpHeader) = mpoLittleEndian then
    Mpo.readLongLittle b (uint32 (uint32 mpHeader + 4)) else Mpo.readLong b (uint32 (uint32 mpHeader + 4))))

/-- Where the entries start, by the number of tags that the IFD states. -/
def entryStart (b : List UInt8) (mpHeader : ℕ) : ℕ :=
  uint32 (ifdStart b mpHeader + 2 + Mpo.readShort b (ifdStart b mpHeader) * 12 + 4)

/-- The markers of the primary image. -/
def PrimaryMark (info : MpoInfo) (q : ℕ) : Prop :=
  Mark (byteAt info.outputBuff) (int32 info.primaryImage.length) mApp2 0 q

/-- **What the update of a header is to do**: it reads nothing outside the primary image for the segment, accesses
nothing outside the output buffer, and fails where one of the fields to write is outside. -/
def HeaderSafe (debug : Bool) (info : MpoInfo) : Prop :=
  ∃ r, updateHeader debug info = .ok r ∧ ((∃ q, PrimaryMark info q ∧ byteAt info.outputBuff (q + 1) = mApp2 ∧
      ∃ o ∈ fields info.auxImages.length (entryStart info.outputBuff (q + 8)), info.outputBuffSize ≤ o + 3) → r.1 = -1)

/-- **The condition**: the image has a byte, its markers are legible, and of the APP2 segment the header's first eight
bytes and the number of tags of the IFD are in the buffer, and the fields are tested by their number. -/
structure HeaderInside (debug : Bool) (info : MpoInfo) : Prop where
  image : 0 < info.primaryImage.length
  legible : ∀ q, PrimaryMark info q → Legible (byteAt info.outputBuff) info.primaryImage.length mApp2 q
  header : ∀ q, PrimaryMark info q → byteAt info.outputBuff (q + 1) = mApp2 → q + 15 < info.outputBuffSize
  ifd : ∀ q, PrimaryMark info q → byteAt info.outputBuff (q + 1) = mApp2 →
    ifdStart info.outputBuff (q + 8) < info.outputBuffSize ∧
      uint32 (ifdStart info.outputBuff (q + 8) + 1) < info.outputBuffSize
  tested : ∀ q, PrimaryMark info q → byteAt info.outputBuff (q + 1) = mApp2 →
    Tested info.outputBuffSize (fields info.auxImages.length (entryStart info.outputBuff (q + 8)))
  logged : ∀ q, PrimaryMark info q → byteAt info.outputBuff (q + 1) = mApp2 → debug = true →
    Starts info.outputBuffSize info.primaryImage.length info.auxImages

variable {info : MpoInfo}

theorem int32_le (n : ℕ) : int32 n ≤ n := by
  have hle := Nat.mod_le n (2 ^ 32)
  rw [int32, uint32]
  split <;> omega

variable {q : ℕ}

theorem Mark.near {size : ℤ} {marker : UInt8} {p : ℕ} (h : Mark mem size marker p q)
    (hp : p = 0 ∨ (p : ℤ) < size - 1) : q = 0 ∨ (q : ℤ) < size - 1 := by
  induction h with
  | here hnext =>
    rcases hnext.near with rfl | hnear
    · exact hp
    · exact .inr hnear
  | there _ hpass _ ih => exact ih (.inr hpass.inside)

/-- A marker stands where the numbers have 32 bits. -/
theorem PrimaryMark.lt (h : PrimaryMark info q) : q < 2 ^ 31 := by
  have hnear := Mark.near h (.inl rfl)
  have hlt := uint32_lt info.primaryImage.length
  rw [int32] at hnear
  split at hnear <;> omega

theorem ofLong_orderOf (b : List UInt8) (endianess o : ℕ) :
    (orderOf endianess).ofLong (byteAt b o) (byteAt b (uint32 (o + 1))) (byteAt b (uint32 (o + 2)))
      (byteAt b (uint32 (o + 3))) =
      if endianess = mpoLittleEndian then Mpo.readLongLittle b o else Mpo.readLong b o := by
  rw [orderOf]
  split <;> rfl

/-- The byte order that the header at `mpHeader` states. -/
def headerOrder (b : List UInt8) (mpHeader : ℕ) : ByteOrder := orderOf (Mpo.readLong b (uint32 mpHeader))

variable {r : ℤ × MpoInfo}

/-- **The function by its parts**: it reads the header and the number of tags, and writes the fields. -/
theorem updateEntries_eq_ok_iff (hq : q < 2 ^ 31) : updateEntries debug info (q + 2) = .ok r ↔
      (q + 15 < info.outputBuffSize ∧ ifdStart info.outputBuff (q + 8) < info.outputBuffSize ∧
        uint32 (ifdStart info.outputBuff (q + 8) + 1) < info.outputBuffSize) ∧
      ∃ s, writeLong (below info.outputBuffSize) (headerOrder info.outputBuff (q + 8)) ⟨info.outputBuff, false⟩
          (uint32 (entryStart info.outputBuff (q + 8) + 4)) info.outputBuffSize info.primaryImage.length = .ok s ∧
        ∃ t, updateAux (below info.outputBuffSize) debug (headerOrder info.outputBuff (q + 8)) info.outputBuffSize
            (q + 8) info.auxImages (entryStart info.outputBuff (q + 8)) info.primaryImage.length s = .ok t ∧
          r = (if t.overflow then -1 else 0, { info with outputBuff := t.buff }) := by
  have hword (k : ℕ) (hk : k < 16) : uint32 (q + k) = q + k := uint32_of_lt (by omega)
  refine ⟨fun h => ?_, ?_⟩
  · obtain ⟨-, -, h⟩ := of_bind_ok h
    obtain ⟨-, -, h⟩ := of_bind_ok h
    obtain ⟨endianess, hendianess, h⟩ := of_bind_ok h
    obtain rfl : endianess = Mpo.readLong info.outputBuff (uint32 (q + 8)) := (readLong_ok_iff.mp hendianess).2
    obtain ⟨offsetToNxtIfd, hoffset, h⟩ := of_bind_ok h
    obtain ⟨⟨-, -, -, hlast⟩, hstated⟩ := readLong_ok_iff.mp hoffset
    obtain rfl := hstated.trans (ofLong_orderOf ..)
    obtain ⟨ifdTagCount, hcount, h⟩ := of_bind_ok h
    obtain ⟨hifd, rfl⟩ := readShort_ok_iff.mp hcount
    obtain ⟨s, hs, h⟩ := of_bind_ok h
    obtain ⟨t, ht, h⟩ := of_bind_ok h
    change uint32 (uint32 (uint32 (q + 8) + 4) + 3) < _ at hlast
    rw [hword 8 (by decide), hword 12 (by decide), hword 15 (by decide)] at hlast
    exact ⟨⟨hlast, hifd⟩, s, hs, t, ht, (Except.ok.inj h).symm⟩
  · rintro ⟨⟨hlast, hifd⟩, s, hs, t, ht, rfl⟩
    have hlong {o : ℕ} (order : ByteOrder) (ho : o + 3 ≤ q + 15) :
        readLong (byteAt info.outputBuff) (below info.outputBuffSize) order o =
          .ok (order.ofLong (byteAt info.outputBuff o) (byteAt info.outputBuff (uint32 (o + 1)))
            (byteAt info.outputBuff (uint32 (o + 2))) (byteAt info.outputBuff (uint32 (o + 3)))) := by
      refine readLong_ok_iff.mpr ⟨⟨by omega, ?_, ?_, ?_⟩, rfl⟩ <;> rw [uint32] <;> omega
    refine bind_ok_of (a := ()) (log_ok_iff.mpr fun _ => by omega) ?_
    refine bind_ok_of (a := ()) (log_ok_iff.mpr fun _ => show q + 8 < _ by omega) ?_
    refine bind_ok_of (hlong .big (o := uint32 (q + 8)) (by rw [hword 8 (by decide)]; omega)) ?_
    refine bind_ok_of ((hlong _ (o := uint32 (uint32 (q + 8) + 4)) ?_).trans
      (congrArg Except.ok (ofLong_orderOf ..))) ?_
    · rw [hword 8 (by decide), hword 12 (by decide)]
    exact bind_ok_of (readShort_ok_iff.mpr ⟨hifd, rfl⟩) (bind_ok_of hs (bind_ok_of ht rfl))

theorem updateEntries_ok_iff (hq : q < 2 ^ 31) : (∃ r, updateEntries debug info (q + 2) = .ok r) ↔
      (q + 15 < info.outputBuffSize ∧ ifdStart info.outputBuff (q + 8) < info.outputBuffSize ∧
        uint32 (ifdStart info.outputBuff (q + 8) + 1) < info.outputBuffSize) ∧
      Tested info.outputBuffSize (fields info.auxImages.length (entryStart info.outputBuff (q + 8))) ∧
        (debug = true → Starts info.outputBuffSize info.primaryImage.length info.auxImages) := by
  simp only [updateEntries_eq_ok_iff hq]
  refine ⟨fun ⟨r, hread, s, hs, t, ht, _⟩ => ⟨hread, ?_⟩, fun ⟨hread, htested, hstarts⟩ => ?_⟩
  · have hsize : 3 ≤ info.outputBuffSize := by omega
    obtain ⟨hstarts, hrest⟩ := (updateAux_ok_iff hsize).mp ⟨t, ht⟩
    have hfields := (writeLong_then hsize (uint32_lt _) (tested_of_le · _)).mp ⟨s, hs, hrest⟩
    exact ⟨hfields.resolve_left false_ne_true, hstarts⟩
  · have hsize : 3 ≤ info.outputBuffSize := by omega
    obtain ⟨s, hs, hrest⟩ : ∃ s, writeLong (below info.outputBuffSize) (headerOrder info.outputBuff (q + 8))
        ⟨info.outputBuff, false⟩ (uint32 (entryStart info.outputBuff (q + 8) + 4)) info.outputBuffSize
        info.primaryImage.length = .ok s ∧ (s.overflow = true ∨ Tested info.outputBuffSize
          (auxFields info.auxImages.length (entryStart info.outputBuff (q + 8)))) :=
      (writeLong_then hsize (uint32_lt _) (tested_of_le · _)).mpr (.inr htested)
    obtain ⟨t, ht⟩ : ∃ t, updateAux (below info.outputBuffSize) debug (headerOrder info.outputBuff (q + 8))
        info.outputBuffSize (q + 8) info.auxImages (entryStart info.outputBuff (q + 8)) info.primaryImage.length s =
          .ok t := (updateAux_ok_iff hsize).mpr ⟨hstarts, hrest⟩
    exact ⟨_, hread, s, hs, t, ht, rfl⟩

theorem updateEntries_outside (hq : q < 2 ^ 31) (h : updateEntries debug info (q + 2) = .ok r)
    (hout : ∃ o ∈ fields info.auxImages.length (entryStart info.outputBuff (q + 8)), info.outputBuffSize ≤ o + 3) :
    r.1 = -1 := by
  obtain ⟨-, s, hs, t, ht, rfl⟩ := (updateEntries_eq_ok_iff hq).mp h
  have hflag : t.overflow = true := by
    refine updateAux_outside ht ?_
    obtain ⟨o, ho, hle⟩ := hout
    rcases mem_cons.mp ho with rfl | ho
    · exact .inl (overflow_of_outside (uint32_lt _) hs (.inr hle))
    · exact .inr ⟨o, ho, hle⟩
  exact if_pos hflag

theorem image_of_ok {n : ℕ} {size : ℤ} {marker : UInt8} {app : Option ℕ}
    (h : getAppMarker mem (below n) size marker = .ok app) : 0 < n := by
  obtain ⟨found, hfound, -⟩ := of_bind_ok h
  obtain ⟨byte, hbyte, -⟩ := of_bind_ok hfound
  exact (read_ok_iff.mp hbyte).1

theorem getAppMarker_some_iff {app : Option ℕ} (h : getAppMarker (byteAt info.outputBuff)
    (below info.primaryImage.length) (int32 info.primaryImage.length) mApp2 = .ok app) (a : ℕ) :
    app = some a ↔ ∃ q, PrimaryMark info q ∧ byteAt info.outputBuff (q + 1) = mApp2 ∧ a = q + 2 :=
  scanMarker_some_iff (image_of_ok h) (int32_le _) (by omega) h a

/-- **The update of the header is safe** just if the header is inside; the scan ends whatever it reads. -/
theorem updateHeader_safe_iff (debug : Bool) (info : MpoInfo) :
    (∀ mem ok, getAppMarker mem ok (int32 info.primaryImage.length) mApp2 ≠ .error .running) ∧
      (HeaderSafe debug info ↔ HeaderInside debug info) := by
  refine ⟨fun mem ok => getAppMarker_terminates mem ok _ _, fun ⟨r, hr, _⟩ => ?_, fun h => ?_⟩
  · obtain ⟨app, happ, hr⟩ := of_bind_ok hr
    have himage := image_of_ok happ
    have hentries {q : ℕ} (hmark : PrimaryMark info q) (hcode : byteAt info.outputBuff (q + 1) = mApp2) :
        ∃ r, updateEntries debug info (q + 2) = .ok r := by
      obtain rfl := (getAppMarker_some_iff happ (q + 2)).mpr ⟨q, hmark, hcode, rfl⟩
      exact ⟨r, hr⟩
    have hparts {q : ℕ} (hmark : PrimaryMark info q) (hcode : byteAt info.outputBuff (q + 1) = mApp2) :=
      (updateEntries_ok_iff hmark.lt).mp (hentries hmark hcode)
    exact {
      image := himage
      legible := (scanMarker_ok_iff himage (int32_le _) (by omega)).mp ⟨app, happ⟩
      header := fun q hmark hcode => (hparts hmark hcode).1.1
      ifd := fun q hmark hcode => (hparts hmark hcode).1.2
      tested := fun q hmark hcode => (hparts hmark hcode).2.1
      logged := fun q hmark hcode => (hparts hmark hcode).2.2 }
  · obtain ⟨app, happ⟩ : ∃ app, getAppMarker (byteAt info.outputBuff) (below info.primaryImage.length)
        (int32 info.primaryImage.length) mApp2 = .ok app :=
      (scanMarker_ok_iff h.image (int32_le _) (by omega)).mpr h.legible
    cases app with
    | none =>
      exact ⟨(-1, info), bind_ok_of happ rfl, fun _ => rfl⟩
    | some a =>
      obtain ⟨q, hmark, hcode, rfl⟩ := (getAppMarker_some_iff happ a).mp rfl
      obtain ⟨r, hr⟩ : ∃ r, updateEntries debug info (q + 2) = .ok r := (updateEntries_ok_iff hmark.lt).mpr
        ⟨⟨h.header q hmark hcode, h.ifd q hmark hcode⟩, h.tested q hmark hcode, h.logged q hmark hcode⟩
      refine ⟨r, bind_ok_of happ hr, ?_⟩
      rintro ⟨q', hmark', hcode', hout⟩
      have heq : q' = q := by
        have hsome := (getAppMarker_some_iff happ (q' + 2)).mpr ⟨q', hmark', hcode', rfl⟩
        exact Nat.add_right_cancel (Option.some.inj hsome).symm
      exact updateEntries_outside hmark.lt hr (heq ▸ hout)

/-! ### Buffers in which no number wraps around -/

/-! ### The function without the checks -/

theorem writeLongIn_orderOf (endianess : ℕ) :
    (if endianess = mpoLittleEndian then writeLongLittleEndian else Mpo.writeLong) =
      writeLongIn (orderOf endianess) := by
  rw [orderOf]
  split <;> rfl

theorem updateAux_eq (h : updateAux ok debug order size mpHeader images entry aux s = .ok t) :
    Mpo.updateAux (writeLongIn order) size mpHeader images entry aux s = t := by
  induction images generalizing entry aux s with
  | nil => exact Except.ok.inj h
  | cons image images ih =>
    obtain ⟨s1, hs1, h⟩ := of_bind_ok h
    obtain ⟨_, -, h⟩ := of_bind_ok h
    obtain ⟨s2, hs2, h⟩ := of_bind_ok h
    obtain rfl := (writeLong_ok_iff.mp hs1).1
    obtain rfl := (writeLong_ok_iff.mp hs2).1
    exact ih h

/-- **Where nothing is accessed outside, the checks change nothing.** -/
theorem updateHeader_eq (h : updateHeader debug info = .ok r) : mmJpegMpoUpdateHeader info = r := by
  obtain ⟨app, happ, h⟩ := of_bind_ok h
  rw [mmJpegMpoUpdateHeader, getAppMarker_eq happ]
  cases app with
  | none => exact Except.ok.inj h
  | some a =>
    obtain ⟨q, hmark, -, rfl⟩ := (getAppMarker_some_iff happ a).mp rfl
    obtain ⟨-, s, hs, t, ht, rfl⟩ := (updateEntries_eq_ok_iff hmark.lt).mp h
    obtain rfl := (writeLong_ok_iff.mp hs).1
    rw [← updateAux_eq ht]
    dsimp only
    rw [writeLongIn_orderOf]
    rfl

/-! ### Headers that are not inside -/

/-- An image without the segment: the length of the marker of its end is read behind it. -/
def noSegment : MpoInfo where
  primaryImage := [0xff, mSoi, 0xff, mEoi]
  auxImages := []
  outputBuff := [0xff, mSoi, 0xff, mEoi]
  bufFilledLen := 4

/-- An image whose header states that its first IFD is 256 bytes on. -/
def farIfd : MpoInfo where
  primaryImage := [0xff, mSoi, 0xff, mApp2, 0, 14, 77, 80, 70, 0, 77, 77, 0, 42, 0, 0, 1, 0, 0xff, mEoi]
  auxImages := []
  outputBuff := [0xff, mSoi, 0xff, mApp2, 0, 14, 77, 80, 70, 0, 77, 77, 0, 42, 0, 0, 1, 0, 0xff, mEoi]
  bufFilledLen := 20

theorem HeaderSafe.ne_error {e : Fault} (h : HeaderSafe debug info) : updateHeader debug info ≠ .error e := by
  obtain ⟨r, hr, -⟩ := h
  exact fun he => nomatch hr.symm.trans he

/-- **A read behind the primary image, and one behind the output buffer.** -/
theorem reads_outside : updateHeader false noSegment = .error (.outside 4) ∧ ¬ HeaderSafe false noSegment ∧
      updateHeader false farIfd = .error (.outside 266) ∧ ¬ HeaderSafe false farIfd :=
  have hscan : updateHeader false noSegment = .error (.outside 4) := by decide
  have hifd : updateHeader false farIfd = .error (.outside 266) := by decide
  ⟨hscan, fun h => h.ne_error hscan, hifd, fun h => h.ne_error hifd⟩

end Marlin.Mpo.Checked
