import Marlin.BufferLedger

/-!
# Counting the Live Requests of a Ledger

A counter beside the ledger goes up with each live request that enters and down with each one
that is completed. It is the number of the live requests as long as only those are completed;
what is held is the result of a reprocess request, so that the events that erase requests for
it leave the counter alone.

## Main results

* `Counted`: the counter is right, for requests with the given frames.
* `Counted.insert`, `Counted.turn`, `Counted.release`, `Counted.arrive`: the events.
-/

open List Function Ledger

namespace BufferLedger

/-- The requests have different frames, which are among `frames`, what is held is for reprocess
requests, and `live` counts the others. -/
structure Counted (requests : List Req) (held : List Out) (frames : List ℕ) (live : ℕ) : Prop where
  nodup : (requests.map Req.frame).Nodup
  reproc : ∀ o ∈ held, ∀ r ∈ requests, r.frame = o.frame → r.reproc = true
  known : ∀ r ∈ requests, r.frame ∈ frames
  heldKnown : ∀ o ∈ held, o.frame ∈ frames
  live : live = requests.countP fun r => !r.reproc

theorem mem_eraseReq_of_ne {l : List Req} {frame : ℕ} {r : Req} (hr : r ∈ l)
    (hne : r.frame ≠ frame) : r ∈ eraseReq frame l :=
  (mem_eraseP_of_neg (by simpa using hne)).mpr hr

theorem mem_turn_of_ne {a : BufferLedger} {n frame : ℕ} {r : Req} (hr : r ∈ a.requests)
    (hne : r.frame ≠ frame) (hn : r.frame ≠ n + 1) : r ∈ (turn n a frame).requests := by
  have hcomplete : r ∈ (a.complete frame).requests := by
    rw [complete]
    split
    · exact mem_eraseReq_of_ne hr hne
    · exact hr
  rw [turn, drain]
  split
  · exact mem_eraseReq_of_ne hcomplete hn
  · exact hcomplete

namespace Counted

variable {a : BufferLedger} {requests : List Req} {held : List Out} {frames : List ℕ} {live : ℕ}

theorem find (h : Counted a.requests held frames live) {r : Req} (hr : r ∈ a.requests) :
    a.findReq r.frame = some r := by
  obtain ⟨r', hr'⟩ : ∃ r', a.findReq r.frame = some r' :=
    Option.isSome_iff_exists.mp (find?_isSome.mpr ⟨r, hr, by simp⟩)
  obtain ⟨hmem, hframe⟩ := findReq_some hr'
  rw [hr', inj_on_of_nodup_map h.nodup hmem hr hframe]

theorem sublist (h : Counted requests held frames live) {requests' : List Req}
    {held' : List Out} {live' : ℕ} (hreq : requests'.Sublist requests) (hheld : held' ⊆ held)
    (hlive : live' = requests'.countP fun r => !r.reproc) :
    Counted requests' held' frames live' where
  nodup := h.nodup.sublist (hreq.map Req.frame)
  reproc := fun o ho r hr => h.reproc o (hheld ho) r (hreq.subset hr)
  known := fun r hr => h.known r (hreq.subset hr)
  heldKnown := fun o ho => h.heldKnown o (hheld ho)
  live := hlive

theorem mono (h : Counted requests held frames live) {frames' : List ℕ}
    (hsub : frames ⊆ frames') : Counted requests held frames' live :=
  ⟨h.nodup, h.reproc, fun r hr => hsub (h.known r hr), fun o ho => hsub (h.heldKnown o ho), h.live⟩

theorem none (h : Counted requests held frames 0) {requests' : List Req}
    (hreq : requests'.Sublist requests) : Counted requests' [] frames 0 := by
  refine h.sublist hreq (nil_subset _) ?_
  have hle : requests'.countP (fun r => !r.reproc) ≤ requests.countP fun r => !r.reproc :=
    hreq.countP_le
  rw [← h.live] at hle
  omega

theorem countP_erase (h : a.findReq frame = some r) : (a.requests.countP fun r => !r.reproc) =
      ((eraseReq frame a.requests).countP fun r => !r.reproc) + if r.reproc then 0 else 1 := by
  rw [(perm_cons_eraseP h).countP_eq, countP_cons, eraseReq]
  cases r.reproc <;> rfl

/-- A reprocess request leaves. -/
theorem erase (h : Counted a.requests a.held frames live) {frame : ℕ} {held' : List Out}
    (hheld : held' ⊆ a.held)
    (hreproc : ∀ r ∈ a.requests, r.frame = frame → r.reproc = true) :
    Counted (eraseReq frame a.requests) held' frames live := by
  cases hfind : a.findReq frame with
  | none =>
    rw [eraseReq_none hfind]
    exact h.sublist (List.Sublist.refl _) hheld h.live
  | some r =>
    obtain ⟨hmem, hframe⟩ := findReq_some hfind
    have hcount := countP_erase hfind
    rw [hreproc r hmem hframe] at hcount
    exact h.sublist eraseP_sublist hheld (h.live.trans hcount)

/-- A live request is completed: it was counted. -/
theorem complete (h : Counted a.requests a.held frames live) {frame : ℕ} {r : Req}
    (hfind : a.findReq frame = some r) (hlive : r.reproc = false) :
    0 < live ∧ Counted (a.complete frame).requests (a.complete frame).held frames (live - 1) := by
  have hcount := countP_erase hfind
  rw [hlive, ← h.live] at hcount
  simp only [Bool.false_eq_true, if_false] at hcount
  refine ⟨by omega, ?_⟩
  rw [BufferLedger.complete, hfind]
  exact h.sublist eraseP_sublist (List.Subset.refl _) (by dsimp only; omega)

theorem drain (h : Counted a.requests a.held frames live) (frame : ℕ) :
    Counted (a.drain frame).requests (a.drain frame).held frames live := by
  rw [BufferLedger.drain]
  split
  · rename_i o ho
    have hframe : o.frame = frame := by simpa using find?_some ho
    refine h.erase eraseP_subset fun r hr hrf => ?_
    exact h.reproc o (mem_of_find?_eq_some ho) r hr (hrf.trans hframe.symm)
  · exact h

/-- A live request is returned for metadata. -/
theorem turn (h : Counted a.requests a.held frames live) (n : ℕ) {frame : ℕ} {r : Req}
    (hfind : a.findReq frame = some r) (hlive : r.reproc = false) :
    0 < live ∧ Counted (a.turn n frame).requests (a.turn n frame).held frames (live - 1) := by
  obtain ⟨hpos, hcounted⟩ := h.complete hfind hlive
  exact ⟨hpos, hcounted.drain (n + 1)⟩

/-- The input of a reprocess request is released. -/
theorem release (h : Counted a.requests a.held frames live) (frame : ℕ) :
    Counted (a.release frame).requests (a.release frame).held frames live := by
  rw [BufferLedger.release]
  split
  · rename_i r hfind
    obtain ⟨hmem, hframe⟩ := findReq_some hfind
    split
    · rename_i hreproc
      refine h.erase (List.Subset.refl _) fun r' hr' hr'f => ?_
      rw [inj_on_of_nodup_map h.nodup hr' hmem (hr'f.trans hframe.symm)]
      exact hreproc
    · exact h
  · exact h

/-- A buffer comes back. -/
theorem arrive (h : Counted a.requests a.held frames live) (o : Out) :
    Counted (a.arrive o).requests (a.arrive o).held frames live := by
  rw [BufferLedger.arrive]
  split
  · exact h
  · rename_i r hfind
    obtain ⟨hmem, hframe⟩ := findReq_some hfind
    have hunique : ∀ r' ∈ a.requests, r'.frame = o.frame → r' = r := fun r' hr' hr'f =>
      inj_on_of_nodup_map h.nodup hr' hmem (hr'f.trans hframe.symm)
    split
    · rename_i hreproc
      split
      · constructor
        case nodup => exact h.nodup
        case reproc =>
          rintro x hx r' hr' hr'f
          rcases mem_append.mp hx with hx | hx
          · exact h.reproc x hx r' hr' hr'f
          · rw [mem_singleton.mp hx] at hr'f
            rw [hunique r' hr' hr'f]
            exact hreproc
        case known => exact h.known
        case heldKnown =>
          rintro x hx
          rcases mem_append.mp hx with hx | hx
          · exact h.heldKnown x hx
          · rw [mem_singleton.mp hx, ← hframe]
            exact h.known r hmem
        case live => exact h.live
      · refine h.erase (List.Subset.refl _) fun r' hr' hr'f => ?_
        rw [hunique r' hr' hr'f]
        exact hreproc
    · constructor
      case nodup => simpa [comp_def] using h.nodup
      case reproc =>
        rintro x hx r' hr' hr'f
        obtain ⟨r₀, hr₀, rfl⟩ := mem_map.mp hr'
        simpa using h.reproc x hx r₀ hr₀ (by simpa using hr'f)
      case known =>
        rintro r' hr'
        obtain ⟨r₀, hr₀, rfl⟩ := mem_map.mp hr'
        simpa using h.known r₀ hr₀
      case heldKnown => exact h.heldKnown
      case live => simpa [countP_map, comp_def] using h.live

/-- A new request. -/
theorem insert (h : Counted requests held frames live) {r : Req} (hnew : r.frame ∉ frames) :
    Counted (requests ++ [r]) held (frames ++ [r.frame]) (if r.reproc then live else live + 1) where
  nodup := by
    rw [map_append, map_singleton, nodup_append]
    refine ⟨h.nodup, by simp, ?_⟩
    rintro f hf f' hf'
    obtain ⟨r', hr', rfl⟩ := mem_map.mp hf
    rw [mem_singleton.mp hf']
    exact fun heq => hnew (heq ▸ h.known r' hr')
  reproc := by
    rintro o ho r' hr' hr'f
    rcases mem_append.mp hr' with hr' | hr'
    · exact h.reproc o ho r' hr' hr'f
    · rw [mem_singleton.mp hr'] at hr'f
      exact absurd (hr'f ▸ h.heldKnown o ho) hnew
  known := by
    rintro r' hr'
    rcases mem_append.mp hr' with hr' | hr'
    · exact mem_append_left _ (h.known r' hr')
    · rw [mem_singleton.mp hr']
      simp
  heldKnown := fun o ho => mem_append_left _ (h.heldKnown o ho)
  live := by
    rw [countP_append, countP_singleton, ← h.live]
    cases r.reproc <;> rfl

end Counted

end BufferLedger
