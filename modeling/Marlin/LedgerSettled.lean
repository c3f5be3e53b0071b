import Marlin.BufferLedger

/-!
# When a Ledger Loses No Buffer

Metadata returns the requests up to its number one after the other, and what is held for the
next number with each of them. What is held for other numbers stays, also when its last older
request leaves.

## Main results

* `Sound.metadata`: metadata keeps the ledger sound.
* `Settled`: no buffer is lost, and what is held waits for an older request.
* `Settled.insert`, `Settled.arrive`, `Settled.metadata`, `Settled.release`, `Settled.flush`:
  the events keep it that meet the conditions `MetadataSafe` and `ErasureSafe`.
-/

open List Ledger

namespace BufferLedger

/-! ### Metadata -/

variable {a : BufferLedger} {frame : ℕ} {r : Req}

theorem mem_complete (h : a.Sound) : r ∈ (a.complete frame).requests ↔ r ∈ a.requests ∧ r.frame ≠ frame := by
  rw [complete]
  cases hfind : a.findReq frame with
  | none => exact ⟨fun hr => ⟨hr, findReq_none.mp hfind r hr⟩, And.left⟩
  | some r' => exact mem_eraseReq h.sorted

@[simp] theorem complete_held (a : BufferLedger) (frame : ℕ) : (a.complete frame).held = a.held := by
  rw [complete]
  split <;> rfl

theorem mem_drain (h : a.Sound) : r ∈ (a.drain frame).requests ↔
      r ∈ a.requests ∧ ((∃ o ∈ a.held, o.frame = frame) → r.frame ≠ frame) := by
  rw [drain]
  cases hfind : a.held.find? (fun o => o.frame == frame) with
  | none =>
    have hnone : ∀ o ∈ a.held, o.frame ≠ frame := by simpa using hfind
    refine ⟨fun hr => ⟨hr, ?_⟩, And.left⟩
    rintro ⟨o, ho, hframe⟩
    exact absurd hframe (hnone o ho)
  | some o =>
    have ho : ∃ o ∈ a.held, o.frame = frame :=
      ⟨o, mem_of_find?_eq_some hfind, by simpa using find?_some hfind⟩
    rw [mem_eraseReq h.sorted]
    exact and_congr_right fun _ => ⟨fun hne _ => hne, fun hne => hne ho⟩

theorem drain_held (a : BufferLedger) (frame : ℕ) : (a.drain frame).held = a.held.eraseP fun o => o.frame == frame := by
  rw [drain]
  cases hfind : a.held.find? (fun o => o.frame == frame) with
  | none => exact (eraseP_of_forall_not (by simpa using hfind)).symm
  | some o => rfl

theorem drain_all (h : a.Sound) (hpending : (∃ o ∈ a.held, o.frame = frame) → ∃ r ∈ a.requests, r.frame = frame) :
    (a.drain frame).all.Perm a.all := by
  rw [drain]
  cases hfind : a.held.find? (fun o => o.frame == frame) with
  | none => exact List.Perm.refl _
  | some o =>
    have ho := mem_of_find?_eq_some hfind
    have hframe : o.frame = frame := by simpa using find?_some hfind
    obtain ⟨r, hr, hrf⟩ := hpending ⟨o, ho, hframe⟩
    have hsome : (a.findReq frame).isSome := by
      rw [findReq, find?_isSome]
      exact ⟨r, hr, by simpa using hrf⟩
    have hheld := perm_cons_eraseP hfind
    have hcached : (cachedOuts a.requests).Perm (cachedOuts (eraseReq frame a.requests)) := by
      refine h.cachedOuts_eraseReq fun r' hr' => ?_
      obtain ⟨hmem, hrf'⟩ := findReq_some hr'
      exact h.results o ho r' hmem (by omega)
    refine perm_iff_count.mpr fun x => ?_
    have h₁ := hcached.count_eq x
    have h₂ := hheld.count_eq x
    simp only [all, hsome, if_true, count_append, count_cons, count_nil] at h₁ h₂ ⊢
    omega

theorem complete_all (a : BufferLedger) (frame : ℕ) : (a.complete frame).all.Perm a.all := by
  rw [complete]
  cases hfind : a.findReq frame with
  | none => exact List.Perm.refl _
  | some r =>
    refine perm_iff_count.mpr fun o => ?_
    have hcount := (cachedOuts_perm hfind).count_eq o
    simp only [all, count_append] at hcount ⊢
    omega

section Turns

variable {a : BufferLedger} {n : ℕ}

/-- One turn keeps the ledger sound. -/
theorem Sound.turn (h : a.Sound) (frame : ℕ) : (turn n a frame).Sound :=
  (h.complete frame).drain (n + 1)

variable {r : Req}

theorem mem_turn (h : a.Sound) {frame : ℕ} : r ∈ (turn n a frame).requests ↔
      r ∈ a.requests ∧ r.frame ≠ frame ∧ ((∃ o ∈ a.held, o.frame = n + 1) → r.frame ≠ n + 1) := by
  rw [turn, mem_drain (h.complete frame), mem_complete h, complete_held, and_assoc]

theorem turn_held (a : BufferLedger) (n frame : ℕ) :
    (turn n a frame).held = a.held.eraseP fun o => o.frame == n + 1 := by
  rw [turn, drain_held, complete_held]

@[simp] theorem turn_entered (a : BufferLedger) (n frame : ℕ) : (turn n a frame).entered = a.entered := by
  rw [turn, drain, complete]
  split <;> split <;> rfl

theorem entered_turns (l : List ℕ) : (l.foldl (turn n) a).entered = a.entered := by
  induction l generalizing a with
  | nil => rfl
  | cons f l ih => rw [foldl_cons, ih, turn_entered]

/-- Turns keep the ledger sound. -/
theorem Sound.turns (h : a.Sound) (l : List ℕ) : (l.foldl (BufferLedger.turn n) a).Sound := by
  induction l generalizing a with
  | nil => exact h
  | cons f l ih => exact ih (h.turn f)

theorem turns_held (l : List ℕ) {o : Out} (ho : o ∈ (l.foldl (turn n) a).held) : o ∈ a.held := by
  induction l generalizing a with
  | nil => exact ho
  | cons f l ih =>
    have hmem := ih ho
    rw [turn_held] at hmem
    exact mem_of_mem_eraseP hmem

theorem eraseP_unique {l : List Out} {frame : ℕ} (hone : (l.filter fun o => o.frame == frame).length ≤ 1) :
    ∀ o ∈ l.eraseP fun o => o.frame == frame, o.frame ≠ frame := by
  induction l with
  | nil => simp
  | cons x l ih =>
    by_cases hx : x.frame = frame
    · rw [filter_cons_of_pos (by simpa using hx), length_cons] at hone
      have hnil : (l.filter fun o => o.frame == frame) = [] :=
        length_eq_zero_iff.mp (by omega)
      rw [eraseP_cons_of_pos (by simpa using hx)]
      simpa using hnil
    · rw [filter_cons_of_neg (by simpa using hx)] at hone
      rw [eraseP_cons_of_neg (by simpa using hx)]
      simp only [mem_cons, forall_eq_or_imp]
      exact ⟨hx, ih hone⟩

variable {l : List ℕ}

theorem turns_held_ne (hl : l ≠ []) (hone : (a.held.filter fun o => o.frame == n + 1).length ≤ 1) {o : Out}
    (ho : o ∈ (l.foldl (turn n) a).held) : o.frame ≠ n + 1 := by
  cases l with
  | nil => exact absurd rfl hl
  | cons f l =>
    have hmem := turns_held l ho
    rw [turn_held] at hmem
    exact eraseP_unique hone o hmem

theorem mem_of_mem_turns (h : a.Sound) (hr : r ∈ (l.foldl (turn n) a).requests) : r ∈ a.requests ∧ r.frame ∉ l := by
  induction l generalizing a with
  | nil => exact ⟨hr, not_mem_nil⟩
  | cons f l ih =>
    obtain ⟨hmem, hl⟩ := ih (h.turn f) hr
    obtain ⟨hmem, hne, -⟩ := (mem_turn h).mp hmem
    exact ⟨hmem, by simp [hne, hl]⟩

theorem mem_turns (h : a.Sound) (hr : r ∈ a.requests) (hl : r.frame ∉ l)
    (hnext : r.frame = n + 1 → ∀ o ∈ a.held, o.frame ≠ n + 1) :
    r ∈ (l.foldl (turn n) a).requests := by
  induction l generalizing a with
  | nil => exact hr
  | cons f l ih =>
    simp only [mem_cons, not_or] at hl
    refine ih (h.turn f) ((mem_turn h).mpr ⟨hr, hl.1, ?_⟩) hl.2 ?_
    · rintro ⟨o, ho, hframe⟩ heq
      exact hnext heq o ho hframe
    · rintro heq o ho
      rw [turn_held] at ho
      exact hnext heq o (mem_of_mem_eraseP ho)

theorem turns_all (h : a.Sound) (hl : ∀ f ∈ l, f ≤ n) (hone : (a.held.filter fun o => o.frame == n + 1).length ≤ 1)
    (hpending : (∃ o ∈ a.held, o.frame = n + 1) → ∃ r ∈ a.requests, r.frame = n + 1) :
    (l.foldl (turn n) a).all.Perm a.all := by
  induction l generalizing a with
  | nil => exact List.Perm.refl _
  | cons f l ih =>
    have hf := hl f (by simp)
    have hnone : ∀ o ∈ (turn n a f).held, o.frame ≠ n + 1 := by
      rw [turn_held]
      exact eraseP_unique hone
    have hturn : (turn n a f).all.Perm a.all := by
      refine (drain_all (h.complete f) ?_).trans (complete_all a f)
      rw [complete_held]
      rintro hheld
      obtain ⟨r, hr, hframe⟩ := hpending hheld
      exact ⟨r, (mem_complete h).mpr ⟨hr, by omega⟩, hframe⟩
    refine (ih (h.turn f) (fun f hf => hl f (by simp [hf])) ?_ ?_).trans hturn
    · have hnil : ((turn n a f).held.filter fun o => o.frame == n + 1) = [] := by
        simpa using hnone
      simp [hnil]
    · rintro ⟨o, ho, hframe⟩
      exact absurd hframe (hnone o ho)

end Turns

/-- Metadata keeps the ledger sound. -/
theorem Sound.metadata (h : a.Sound) (n : ℕ) : (a.metadata n).Sound :=
  h.turns _

theorem metadata_live (h : a.Sound) {n : ℕ}
    (hr : r ∈ (a.metadata n).requests) (hlive : r.reproc = false) : n < r.frame := by
  obtain ⟨hmem, hl⟩ := mem_of_mem_turns h hr
  by_contra hle
  refine hl (mem_map.mpr ⟨r, mem_filter.mpr ⟨hmem, ?_⟩, rfl⟩)
  simp only [Req.leaves, hlive, Bool.and_false, Bool.not_false, Bool.and_true, decide_eq_true_eq]
  omega

theorem mem_metadata (h : a.Sound) {n : ℕ} (hr : r ∈ a.requests)
    (hstay : r.leaves n = false) (hnext : r.frame = n + 1 → ∀ o ∈ a.held, o.frame ≠ n + 1) :
    r ∈ (a.metadata n).requests := by
  refine mem_turns h hr ?_ hnext
  rintro hl
  obtain ⟨r', hr', hframe⟩ := mem_map.mp hl
  obtain ⟨hmem, hleaves⟩ := mem_filter.mp hr'
  rw [h.request_eq hmem hr hframe, hstay] at hleaves
  exact Bool.noConfusion hleaves

/-! ### Nothing is lost -/

/-- No buffer is lost, and what is held waits for an older request while its own is pending. -/
structure Settled (a : BufferLedger) : Prop where
  account : a.entered.Perm a.all
  waits : ∀ o ∈ a.held, ∃ r ∈ a.requests, r.frame < o.frame
  pending : ∀ o ∈ a.held, ∃ r ∈ a.requests, r.frame = o.frame

/-- Metadata that completes no request, or leaves an older request for all that is held. What is
held for the next frame is returned, and is one buffer. -/
def MetadataSafe (a : BufferLedger) (n : ℕ) : Prop :=
  (∃ r ∈ a.requests, r.leaves n) → (a.held.filter fun o => o.frame == n + 1).length ≤ 1 ∧
    ∀ o ∈ a.held, o.frame ≠ n ∧ (o.frame ≠ n + 1 → ∃ r ∈ a.requests, r.frame < o.frame ∧
      r.leaves n = false ∧ (r.frame = n + 1 → ∀ o' ∈ a.held, o'.frame ≠ n + 1))

/-- What is held is for other frames, and has an older request of another frame. -/
def ErasureSafe (a : BufferLedger) (frame : ℕ) : Prop :=
  ∀ o ∈ a.held, o.frame ≠ frame ∧ ∃ r ∈ a.requests, r.frame < o.frame ∧ r.frame ≠ frame

theorem settled_empty : Settled {} := by
  constructor <;> simp [cachedOuts, all]

namespace Settled

variable {a : BufferLedger}

/-- A request enters. -/
theorem insert (hs : a.Settled) (frame : ℕ) (reproc : Bool) (outs : List Out) :
    (a.insert frame reproc outs).Settled where
  account := (hs.account.append_right outs).trans (insert_all a frame reproc outs).symm
  waits := fun o ho => by
    obtain ⟨r, hr, hlt⟩ := hs.waits o ho
    exact ⟨r, mem_append_left _ hr, hlt⟩
  pending := fun o ho => by
    obtain ⟨r, hr, heq⟩ := hs.pending o ho
    exact ⟨r, mem_append_left _ hr, heq⟩

theorem erase (h : a.Sound) (hs : a.Settled) {b : BufferLedger} {frame : ℕ}
    (hsafe : a.ErasureSafe frame) (hreq : b.requests = eraseReq frame a.requests)
    (hheld : b.held = a.held) (hentered : b.entered = a.entered) (hall : b.all.Perm a.all) :
    b.Settled where
  account := hentered ▸ hs.account.trans hall.symm
  waits := fun o ho => by
    obtain ⟨-, r, hr, hlt, hne⟩ := hsafe o (hheld ▸ ho)
    exact ⟨r, hreq ▸ (mem_eraseReq h.sorted).mpr ⟨hr, hne⟩, hlt⟩
  pending := fun o ho => by
    obtain ⟨hne, -⟩ := hsafe o (hheld ▸ ho)
    obtain ⟨r, hr, heq⟩ := hs.pending o (hheld ▸ ho)
    exact ⟨r, hreq ▸ (mem_eraseReq h.sorted).mpr ⟨hr, by omega⟩, heq⟩

/-- The input of a reprocess request is released. -/
theorem release (h : a.Sound) (hs : a.Settled) {frame : ℕ}
    (hsafe : (∃ r ∈ a.requests, r.frame = frame ∧ r.reproc) → a.ErasureSafe frame) :
    (a.release frame).Settled := by
  have hall := h.release_all frame
  rw [BufferLedger.release] at hall ⊢
  cases hfind : a.findReq frame with
  | none => exact hs
  | some r =>
    obtain ⟨hmem, hframe⟩ := findReq_some hfind
    rw [hfind] at hall
    dsimp only at hall ⊢
    split
    · rename_i hr
      rw [if_pos hr] at hall
      exact hs.erase h (hsafe ⟨r, hmem, hframe, hr⟩) rfl rfl rfl hall
    · exact hs

/-- A queued buffer comes back. -/
theorem arrive (h : a.Sound) (hs : a.Settled) {o : Out} (ho : o ∈ a.queued)
    (hsafe : (∃ r ∈ a.requests, r.frame = o.frame ∧ r.reproc) →
      (∀ r ∈ a.requests, o.frame ≤ r.frame) → a.ErasureSafe o.frame) :
    (a.arrive o).Settled := by
  have hall := arrive_all h ho
  rw [BufferLedger.arrive] at hall ⊢
  cases hfind : a.findReq o.frame with
  | none =>
    rw [hfind] at hall
    exact ⟨hs.account.trans hall.symm, hs.waits, hs.pending⟩
  | some r =>
    obtain ⟨hr, hframe⟩ := findReq_some hfind
    rw [hfind] at hall
    dsimp only at hall ⊢
    split
    · rename_i hreproc
      rw [if_pos hreproc] at hall
      split
      · rename_i holder
        rw [if_pos holder] at hall
        refine ⟨hs.account.trans hall.symm, ?_, ?_⟩
        · rintro x hx
          rcases mem_append.mp hx with hx | hx
          · exact hs.waits x hx
          · rw [mem_singleton.mp hx]
            simpa using holder
        · rintro x hx
          rcases mem_append.mp hx with hx | hx
          · exact hs.pending x hx
          · rw [mem_singleton.mp hx]
            exact ⟨r, hr, hframe⟩
      · rename_i holder
        rw [if_neg holder] at hall
        refine hs.erase h (hsafe ⟨r, hr, hframe, hreproc⟩ ?_) rfl rfl rfl hall
        simpa using holder
    · rename_i hlive
      rw [if_neg hlive] at hall
      refine ⟨hs.account.trans hall.symm, ?_, ?_⟩
      · rintro x hx
        obtain ⟨r', hr', hlt⟩ := hs.waits x hx
        exact ⟨cacheReq o r', mem_map.mpr ⟨r', hr', rfl⟩, by simpa using hlt⟩
      · rintro x hx
        obtain ⟨r', hr', heq⟩ := hs.pending x hx
        exact ⟨cacheReq o r', mem_map.mpr ⟨r', hr', rfl⟩, by simpa using heq⟩

/-- Metadata. -/
theorem metadata (h : a.Sound) (hs : a.Settled) {n : ℕ} (hsafe : a.MetadataSafe n) : (a.metadata n).Settled := by
  rw [BufferLedger.metadata]
  by_cases hleaves : ∃ r ∈ a.requests, r.leaves n
  · obtain ⟨hone, hsafe⟩ := hsafe hleaves
    have hne : (a.requests.filter (Req.leaves n)).map Req.frame ≠ [] := by
      obtain ⟨r, hr, hl⟩ := hleaves
      exact ne_nil_of_mem (mem_map.mpr ⟨r, mem_filter.mpr ⟨hr, hl⟩, rfl⟩)
    have hle : ∀ f ∈ (a.requests.filter (Req.leaves n)).map Req.frame, f ≤ n := by
      rintro f hf
      obtain ⟨r, hr, rfl⟩ := mem_map.mp hf
      have hl := (mem_filter.mp hr).2
      simp only [Req.leaves, Bool.and_eq_true, decide_eq_true_eq] at hl
      exact hl.1
    constructor
    case account =>
      rw [entered_turns]
      refine hs.account.trans (turns_all h hle hone ?_).symm
      rintro ⟨o, ho, hframe⟩
      obtain ⟨r, hr, heq⟩ := hs.pending o ho
      exact ⟨r, hr, by omega⟩
    case waits =>
      rintro o ho
      obtain ⟨-, hstay⟩ := hsafe o (turns_held _ ho)
      obtain ⟨r, hr, hlt, hl, hnext⟩ := hstay (turns_held_ne hne hone ho)
      exact ⟨r, mem_metadata h hr hl hnext, hlt⟩
    case pending =>
      rintro o ho
      have hmem := turns_held _ ho
      obtain ⟨hon, -⟩ := hsafe o hmem
      obtain ⟨r, hr, heq⟩ := hs.pending o hmem
      have hreproc := h.results o hmem r hr heq
      refine ⟨r, mem_metadata h hr ?_ ?_, heq⟩
      · simp only [Req.leaves, hreproc, Bool.and_true, Bool.and_eq_false_iff,
          decide_eq_false_iff_not, Bool.not_eq_false', decide_eq_true_eq]
        omega
      · rintro hnext
        exact absurd (heq ▸ hnext) (turns_held_ne hne hone ho)
  · have hnil : a.requests.filter (Req.leaves n) = [] := by
      rw [filter_eq_nil_iff]
      rintro r hr hl
      exact hleaves ⟨r, hr, hl⟩
    rw [hnil]
    exact hs

/-- Everything is returned. -/
theorem flush (h : a.Sound) (hs : a.Settled) (hheld : a.held = []) : a.flush.Settled where
  account := by
    refine hs.account.trans (perm_iff_count.mpr fun o => ?_)
    have hcount := h.listed.count_eq o
    simp only [all, BufferLedger.flush, cachedOuts, hheld, flatMap_nil, count_append, count_nil] at hcount ⊢
    omega
  waits := by simp [BufferLedger.flush]
  pending := by simp [BufferLedger.flush]

end Settled

end BufferLedger
