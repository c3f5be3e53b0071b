import Mathlib.Data.List.Nodup
import Mathlib.Data.List.Perm.Subperm

/-!
# A Ledger of Output Buffers

Requests are numbered by frame and have output buffers, which are queued with a device that
returns each of them once. A ledger says where each buffer is:

* `queued`: with the device;
* cached in a slot of its request, until the metadata of the request comes;
* `held`: the result of a reprocess request, which waits while an older request is pending;
* `returned`: with the client, in the order in which they were returned.

`listed` are the buffers that a map of the pending buffers has, `entered` all buffers ever. The
events are new requests, metadata, buffers that come back, the release of the input of a
reprocess request, and a flush. A metadata event of number `n` completes the live requests up to
`n`, and returns what is held for `n + 1`.

## Main results

* `Sound`: the map lists the queued and the cached buffers, and no buffer is in two places.
* `Sound.insert`, `Sound.arrive`, `Sound.release`, `Sound.flush`: the events keep it, and so do
  the parts of metadata, `Sound.complete` and `Sound.drain`.
-/

namespace Ledger

/-- An output buffer: the frame and the stream it is for, and its handle. -/
structure Out where
  frame : ℕ
  stream : ℕ
  buffer : ℕ
  deriving DecidableEq

/-- A slot of a request: its stream, and the stream and the handle of what was cached. -/
structure Slot where
  stream : ℕ
  cached : Option (ℕ × ℕ) := none
  deriving DecidableEq

/-- A pending request. -/
structure Req where
  frame : ℕ
  reproc : Bool
  slots : List Slot
  deriving DecidableEq

/-- The number and the kind of a request. -/
def Req.kind (r : Req) : ℕ × Bool := (r.frame, r.reproc)

/-- The buffers cached in a request. -/
def Req.cached (r : Req) : List Out :=
  r.slots.filterMap fun j => j.cached.map fun b => ⟨r.frame, b.1, b.2⟩

/-- Whether metadata of number `n` completes the request. Older reprocess requests stay. -/
def Req.leaves (n : ℕ) (r : Req) : Bool :=
  decide (r.frame ≤ n) && !(decide (r.frame < n) && r.reproc)

end Ledger

open List Function Option Ledger

/-- Where the buffers are. -/
structure BufferLedger where
  requests : List Req := []
  listed : List Out := []
  held : List Out := []
  returned : List Out := []
  queued : List Out := []
  entered : List Out := []
  deriving DecidableEq

namespace BufferLedger

/-! ### The events -/

/-- The buffers cached in requests. -/
def cachedOuts (l : List Req) : List Out := l.flatMap Req.cached

/-- A buffer leaves the list, found by its handle. -/
def takeOut (buffer : ℕ) (l : List Out) : List Out := l.eraseP fun o => o.buffer == buffer

/-- A request leaves the list. -/
def eraseReq (frame : ℕ) (l : List Req) : List Req := l.eraseP fun r => r.frame == frame

/-- The pending request of a frame. -/
def findReq (a : BufferLedger) (frame : ℕ) : Option Req :=
  a.requests.find? fun r => r.frame == frame

/-- A new request with its buffers. -/
def insert (a : BufferLedger) (frame : ℕ) (reproc : Bool) (outs : List Out) : BufferLedger :=
  { a with
    requests := a.requests ++ [⟨frame, reproc, outs.map fun o => { stream := o.stream }⟩]
    listed := a.listed ++ outs
    queued := a.queued ++ outs
    entered := a.entered ++ outs }

/-- A request is returned with what it has cached. -/
def complete (a : BufferLedger) (frame : ℕ) : BufferLedger :=
  match a.findReq frame with
  | some r =>
    { a with
      requests := eraseReq frame a.requests
      listed := r.cached.foldl (fun l o => takeOut o.buffer l) a.listed
      returned := a.returned ++ r.cached }
  | none => a

/-- What is held for a frame is returned, if its request is still pending. -/
def drain (a : BufferLedger) (frame : ℕ) : BufferLedger :=
  match a.held.find? (fun o => o.frame == frame) with
  | some o =>
    { a with
      requests := eraseReq frame a.requests
      held := a.held.eraseP fun o => o.frame == frame
      returned := if (a.findReq frame).isSome then a.returned ++ [o] else a.returned }
  | none => a

/-- A request is returned for metadata of number `n`. -/
def turn (n : ℕ) (a : BufferLedger) (frame : ℕ) : BufferLedger :=
  (a.complete frame).drain (n + 1)

/-- Metadata of number `n`. -/
def metadata (a : BufferLedger) (n : ℕ) : BufferLedger :=
  ((a.requests.filter (Req.leaves n)).map Req.frame).foldl (turn n) a

/-- The input of a reprocess request is released. -/
def release (a : BufferLedger) (frame : ℕ) : BufferLedger :=
  match a.findReq frame with
  | some r => if r.reproc then { a with requests := eraseReq frame a.requests } else a
  | none => a

/-- A slot of the stream that is empty takes the buffer. -/
def cacheSlot (o : Out) (j : Slot) : Slot :=
  if j.stream = o.stream ∧ j.cached = none then { j with cached := some (o.stream, o.buffer) }
  else j

/-- The slots of the request of the buffer's frame. -/
def cacheReq (o : Out) (r : Req) : Req :=
  if r.frame = o.frame then { r with slots := r.slots.map (cacheSlot o) } else r

/-- A buffer comes back: it is returned if its request is not pending, cached if that is live,
and otherwise the result of the reprocess request, held while an older one is pending. -/
def arrive (a : BufferLedger) (o : Out) : BufferLedger :=
  match a.findReq o.frame with
  | none =>
    { a with
      listed := takeOut o.buffer a.listed
      queued := a.queued.erase o
      returned := a.returned ++ [o] }
  | some r =>
    if r.reproc then
      if a.requests.any (fun r => decide (r.frame < o.frame)) then
        { a with
          listed := takeOut o.buffer a.listed
          queued := a.queued.erase o
          held := a.held ++ [o] }
      else
        { a with
          requests := eraseReq o.frame a.requests
          listed := takeOut o.buffer a.listed
          queued := a.queued.erase o
          returned := a.returned ++ [o] }
    else
      { a with
        requests := a.requests.map (cacheReq o)
        queued := a.queued.erase o }

/-- Everything that is listed is returned, and nothing is pending. -/
def flush (a : BufferLedger) : BufferLedger :=
  { a with
    requests := []
    listed := []
    held := []
    returned := a.returned ++ a.listed
    queued := [] }

/-- The buffers, wherever they are. -/
def all (a : BufferLedger) : List Out :=
  a.queued ++ cachedOuts a.requests ++ a.held ++ a.returned

variable {r : Req}

theorem leaves_iff {n : ℕ} : r.leaves n = true ↔ r.frame ≤ n ∧ (r.frame < n → r.reproc = false) := by
  cases hr : r.reproc <;> simp [Req.leaves, hr]

/-! ### Lists -/

theorem map_fixed {α : Type*} {f : α → α} {l : List α} (h : ∀ x ∈ l, f x = x) : l.map f = l :=
  (map_congr_left h).trans (map_id' l)

theorem perm_cons_eraseP {α : Type*} {p : α → Bool} {l : List α} {x : α}
    (h : l.find? p = some x) : l.Perm (x :: l.eraseP p) := by
  induction l with
  | nil => simp at h
  | cons y l ih =>
    cases hy : p y with
    | true =>
      rw [find?_cons, hy] at h
      cases h
      rw [eraseP_cons_of_pos hy]
    | false =>
      rw [find?_cons, hy] at h
      rw [eraseP_cons_of_neg (by simp [hy])]
      exact ((ih h).cons y).trans (List.Perm.swap x y _)

variable {o : Out}

theorem takeOut_perm {l : List Out} (hnodup : (l.map Out.buffer).Nodup)
    (ho : o ∈ l) : l.Perm (o :: takeOut o.buffer l) := by
  obtain ⟨x, hx⟩ : ∃ x, l.find? (fun x => x.buffer == o.buffer) = some x :=
    isSome_iff_exists.mp (find?_isSome.mpr ⟨o, ho, by simp⟩)
  have hmem := mem_of_find?_eq_some hx
  have hbuf : x.buffer = o.buffer := by simpa using find?_some hx
  obtain rfl : x = o := inj_on_of_nodup_map hnodup hmem ho hbuf
  exact perm_cons_eraseP hx

theorem foldl_takeOut_perm {os l rest : List Out} (hnodup : (l.map Out.buffer).Nodup)
    (h : l.Perm (os ++ rest)) : (os.foldl (fun l o => takeOut o.buffer l) l).Perm rest := by
  induction os generalizing l with
  | nil => exact h
  | cons o os ih =>
    have ho : o ∈ l := h.mem_iff.mpr (by simp)
    have hsub : (takeOut o.buffer l).Sublist l := eraseP_sublist
    exact ih (hnodup.sublist (hsub.map _)) (((takeOut_perm hnodup ho).symm.trans h).cons_inv)

theorem foldl_takeOut_sublist (os l : List Out) : (os.foldl (fun l o => takeOut o.buffer l) l).Sublist l := by
  induction os generalizing l with
  | nil => exact List.Sublist.refl l
  | cons o os ih => exact (ih (takeOut o.buffer l)).trans eraseP_sublist

variable {a : BufferLedger} {frame : ℕ}

theorem findReq_some (h : a.findReq frame = some r) : r ∈ a.requests ∧ r.frame = frame :=
  ⟨mem_of_find?_eq_some h, by simpa using find?_some h⟩

theorem findReq_none : a.findReq frame = none ↔ ∀ r ∈ a.requests, r.frame ≠ frame := by
  simp [findReq]

theorem eraseReq_none (h : a.findReq frame = none) : eraseReq frame a.requests = a.requests :=
  eraseP_of_forall_not (by simpa using findReq_none.mp h)

variable {l : List Req}

theorem mem_eraseReq (hsorted : l.Pairwise fun r r' => r.frame < r'.frame) :
    r ∈ eraseReq frame l ↔ r ∈ l ∧ r.frame ≠ frame := by
  induction l with
  | nil => simp [eraseReq]
  | cons x l ih =>
    obtain ⟨hx, hl⟩ := pairwise_cons.mp hsorted
    have ih := ih hl
    by_cases hxf : x.frame = frame
    · rw [eraseReq, eraseP_cons_of_pos (by simpa using hxf)]
      constructor
      · intro hr
        refine ⟨mem_cons_of_mem x hr, ?_⟩
        have := hx r hr
        omega
      · rintro ⟨hr, hne⟩
        rcases mem_cons.mp hr with rfl | hr
        · exact absurd hxf hne
        · exact hr
    · rw [eraseReq, eraseP_cons_of_neg (by simpa using hxf), mem_cons, mem_cons]
      rw [eraseReq] at ih
      constructor
      · rintro (rfl | hr)
        · exact ⟨.inl rfl, hxf⟩
        · exact ⟨.inr (ih.mp hr).1, (ih.mp hr).2⟩
      · rintro ⟨rfl | hr, hne⟩
        · exact .inl rfl
        · exact .inr (ih.mpr ⟨hr, hne⟩)

theorem cachedOuts_perm (h : l.find? (fun r => r.frame == frame) = some r) :
    (cachedOuts l).Perm (r.cached ++ cachedOuts (eraseReq frame l)) := by
  have hperm := (perm_cons_eraseP h).flatMap_right Req.cached
  rwa [flatMap_cons] at hperm

theorem frame_of_cached (ho : o ∈ r.cached) : o.frame = r.frame := by
  obtain ⟨j, -, hj⟩ := mem_filterMap.mp ho
  obtain ⟨b, -, rfl⟩ := map_eq_some_iff.mp hj
  rfl

theorem cached_eq_nil (h : ∀ j ∈ r.slots, j.cached = none) : r.cached = [] := by
  rw [Req.cached, filterMap_eq_nil_iff]
  intro j hj
  simp [h j hj]

/-! ### Where the buffers are -/

/-- The requests are in order, and the map lists what is queued and what is cached. No buffer is
in two places. A queued buffer of a pending request has an empty slot; only live requests cache,
and only buffers of reprocess requests are held. A pending request has a buffer that is not
returned, and no buffer of it is. -/
structure Sound (a : BufferLedger) : Prop where
  sorted : a.requests.Pairwise fun r r' => r.frame < r'.frame
  listed : a.listed.Perm (a.queued ++ cachedOuts a.requests)
  handles : (a.listed.map Out.buffer).Nodup
  account : a.all.Subperm a.entered
  places : (a.entered.map fun o => (o.frame, o.stream)).Nodup
  numbers : ∀ r ∈ a.requests, ∃ o ∈ a.entered, o.frame = r.frame
  streams : ∀ r ∈ a.requests, (r.slots.map Slot.stream).Nodup
  free : ∀ o ∈ a.queued, ∀ r ∈ a.requests, r.frame = o.frame → ∃ j ∈ r.slots, j.stream = o.stream ∧ j.cached = none
  reproc : ∀ r ∈ a.requests, r.reproc → ∀ j ∈ r.slots, j.cached = none
  results : ∀ o ∈ a.held, ∀ r ∈ a.requests, r.frame = o.frame → r.reproc
  gone : ∀ o ∈ a.returned, ∀ r ∈ a.requests, r.frame ≠ o.frame
  present : ∀ r ∈ a.requests, ∃ o ∈ a.queued ++ r.cached ++ a.held, o.frame = r.frame

/-- A new request has a higher number than the buffers of the ledger, and its handles are not
listed. It has at least one buffer, and its streams differ. -/
structure Fresh (a : BufferLedger) (frame : ℕ) (outs : List Out) : Prop where
  entered : ∀ o ∈ a.entered, o.frame < frame
  frame : ∀ o ∈ outs, o.frame = frame
  nonempty : outs ≠ []
  streams : (outs.map Out.stream).Nodup
  handles : (outs.map Out.buffer).Nodup
  unlisted : ∀ o ∈ outs, o.buffer ∉ a.listed.map Out.buffer

theorem sound_empty : Sound {} := by
  constructor <;> simp [cachedOuts, all]

namespace Sound

variable {a : BufferLedger}

variable {o : Out}

theorem mem_listed (h : a.Sound) (ho : o ∈ a.queued) : o ∈ a.listed :=
  h.listed.mem_iff.mpr (mem_append_left _ ho)

theorem entered_nodup (h : a.Sound) : a.entered.Nodup := h.places.of_map _

theorem all_nodup (h : a.Sound) : a.all.Nodup := by
  obtain ⟨l, hperm, hsub⟩ := h.account
  exact hperm.nodup_iff.mp (h.entered_nodup.sublist hsub)

theorem mem_entered (h : a.Sound) (ho : o ∈ a.all) : o ∈ a.entered :=
  h.account.subset ho

theorem queued_entered (h : a.Sound) (ho : o ∈ a.queued) : o ∈ a.entered :=
  h.mem_entered (by simp [all, ho])

theorem held_entered (h : a.Sound) (ho : o ∈ a.held) : o ∈ a.entered :=
  h.mem_entered (by simp [all, ho])

theorem listed_entered (h : a.Sound) (ho : o ∈ a.listed) : o ∈ a.entered := by
  have hmem := h.listed.mem_iff.mp ho
  rw [mem_append] at hmem
  refine h.mem_entered ?_
  rw [all, mem_append, mem_append, mem_append]
  exact .inl (.inl hmem)

theorem returned_entered (h : a.Sound) (ho : o ∈ a.returned) : o ∈ a.entered :=
  h.mem_entered (by simp [all, ho])

variable {r : Req}

theorem live_of_cached (h : a.Sound) (hr : r ∈ a.requests) (ho : o ∈ r.cached) : r.reproc = false := by
  cases hreproc : r.reproc with
  | false => rfl
  | true =>
    rw [cached_eq_nil (h.reproc r hr hreproc)] at ho
    exact absurd ho not_mem_nil

theorem queued_nodup (h : a.Sound) : a.queued.Nodup := by
  have hnodup := h.all_nodup
  rw [all, append_assoc, append_assoc] at hnodup
  exact hnodup.of_append_left

theorem entered_eq (h : a.Sound) {o' : Out} (ho : o ∈ a.entered) (ho' : o' ∈ a.entered)
    (hframe : o.frame = o'.frame) (hstream : o.stream = o'.stream) : o = o' :=
  inj_on_of_nodup_map h.places ho ho' (by simp [hframe, hstream])

theorem request_eq (h : a.Sound) {r' : Req} (hr : r ∈ a.requests) (hr' : r' ∈ a.requests)
    (hframe : r.frame = r'.frame) : r = r' := by
  have hnodup : (a.requests.map Req.frame).Nodup :=
    (pairwise_map.mpr (h.sorted.imp fun hlt => Nat.ne_of_lt hlt))
  exact inj_on_of_nodup_map hnodup hr hr' hframe

theorem findReq_eq (h : a.Sound) {frame : ℕ} : a.findReq frame = some r ↔ r ∈ a.requests ∧ r.frame = frame := by
  refine ⟨findReq_some, ?_⟩
  rintro ⟨hr, rfl⟩
  cases hfind : a.findReq r.frame with
  | none => exact absurd rfl (findReq_none.mp hfind r hr)
  | some r' =>
    obtain ⟨hr', hframe⟩ := findReq_some hfind
    rw [h.request_eq hr' hr hframe]

end Sound

/-! ### One event keeps the ledger sound -/

theorem cachedOuts_insert (a : BufferLedger) (frame : ℕ) (reproc : Bool) (outs : List Out) :
    cachedOuts (a.insert frame reproc outs).requests = cachedOuts a.requests := by
  have hnew : (⟨frame, reproc, outs.map fun o => { stream := o.stream }⟩ : Req).cached = [] :=
    cached_eq_nil (by simp)
  simp [insert, cachedOuts, hnew]

theorem insert_all (a : BufferLedger) (frame : ℕ) (reproc : Bool) (outs : List Out) :
    (a.insert frame reproc outs).all.Perm (a.all ++ outs) := by
  rw [all, cachedOuts_insert, perm_iff_count]
  intro o
  simp only [insert, all, count_append]
  omega

namespace Sound

variable {a b : BufferLedger}

variable {frame : ℕ}

/-- A request enters. -/
theorem insert (h : a.Sound) {reproc : Bool} {outs : List Out}
    (hf : a.Fresh frame outs) : (a.insert frame reproc outs).Sound := by
  have hold : ∀ r ∈ a.requests, r.frame < frame := by
    intro r hr
    obtain ⟨o, ho, hframe⟩ := h.numbers r hr
    exact hframe ▸ hf.entered o ho
  have hcached := cachedOuts_insert a frame reproc outs
  constructor
  case sorted =>
    refine pairwise_append.mpr ⟨h.sorted, pairwise_singleton _ _, ?_⟩
    rintro r hr r' hr'
    rw [mem_singleton.mp hr']
    exact hold r hr
  case listed =>
    rw [hcached]
    refine (h.listed.append_right outs).trans ?_
    rw [append_assoc]
    exact (perm_append_comm.append_left _).trans (by simp [BufferLedger.insert])
  case handles =>
    simp only [BufferLedger.insert, map_append]
    refine List.Nodup.append h.handles hf.handles ?_
    rintro b hb hb'
    obtain ⟨o, ho, rfl⟩ := mem_map.mp hb'
    exact hf.unlisted o ho hb
  case account =>
    exact (insert_all a frame reproc outs).subperm.trans (h.account.append (List.Subperm.refl outs))
  case places =>
    simp only [BufferLedger.insert, map_append]
    refine List.Nodup.append h.places ?_ ?_
    · refine List.Nodup.of_map Prod.snd ?_
      simpa [List.map_map, Function.comp_def] using hf.streams
    · rintro x hx hx'
      obtain ⟨o, ho, rfl⟩ := mem_map.mp hx
      obtain ⟨o', ho', heq⟩ := mem_map.mp hx'
      have hlt := hf.entered o ho
      have heq' := hf.frame o' ho'
      have := congrArg Prod.fst heq
      simp only at this
      omega
  case numbers =>
    rintro r hr
    rcases mem_append.mp hr with hr | hr
    · obtain ⟨o, ho, hframe⟩ := h.numbers r hr
      exact ⟨o, mem_append_left _ ho, hframe⟩
    · obtain ⟨o, ho⟩ := exists_mem_of_ne_nil outs hf.nonempty
      rw [mem_singleton.mp hr]
      exact ⟨o, mem_append_right _ ho, hf.frame o ho⟩
  case streams =>
    rintro r hr
    rcases mem_append.mp hr with hr | hr
    · exact h.streams r hr
    · rw [mem_singleton.mp hr]
      simpa [List.map_map, Function.comp_def] using hf.streams
  case free =>
    rintro o ho r hr hrf
    rcases mem_append.mp ho with ho | ho <;> rcases mem_append.mp hr with hr | hr
    · exact h.free o ho r hr hrf
    · have hlt := hf.entered o (h.queued_entered ho)
      rw [mem_singleton.mp hr] at hrf
      simp only at hrf
      omega
    · have hlt := hold r hr
      have heq := hf.frame o ho
      omega
    · rw [mem_singleton.mp hr]
      exact ⟨{ stream := o.stream }, mem_map.mpr ⟨o, ho, rfl⟩, rfl, rfl⟩
  case reproc =>
    rintro r hr hrp
    rcases mem_append.mp hr with hr | hr
    · exact h.reproc r hr hrp
    · rw [mem_singleton.mp hr]
      simp
  case results =>
    rintro o ho r hr hrf
    rcases mem_append.mp hr with hr | hr
    · exact h.results o ho r hr hrf
    · have hlt := hf.entered o (h.held_entered ho)
      rw [mem_singleton.mp hr] at hrf
      simp only at hrf
      omega
  case gone =>
    rintro o ho r hr hrf
    rcases mem_append.mp hr with hr | hr
    · exact h.gone o ho r hr hrf
    · have hlt := hf.entered o (h.returned_entered ho)
      rw [mem_singleton.mp hr] at hrf
      simp only at hrf
      omega
  case present =>
    rintro r hr
    rcases mem_append.mp hr with hr | hr
    · obtain ⟨o, ho, hframe⟩ := h.present r hr
      refine ⟨o, ?_, hframe⟩
      simp only [BufferLedger.insert, mem_append] at ho ⊢
      tauto
    · obtain ⟨o, ho⟩ := exists_mem_of_ne_nil outs hf.nonempty
      rw [mem_singleton.mp hr]
      exact ⟨o, by simp [BufferLedger.insert, ho], hf.frame o ho⟩

theorem shrink (h : a.Sound) (hreq : b.requests.Sublist a.requests) (hlist : b.listed.Sublist a.listed)
    (hperm : b.listed.Perm (b.queued ++ cachedOuts b.requests)) (hall : b.all.Subperm a.all)
    (hentered : b.entered = a.entered) (hqueued : ∀ o ∈ b.queued, o ∈ a.queued)
    (hheld : ∀ o ∈ b.held, o ∈ a.held ∨ ∀ r ∈ b.requests, r.frame = o.frame → r.reproc)
    (hreturned : ∀ o ∈ b.returned, o ∈ a.returned ∨ ∀ r ∈ b.requests, r.frame ≠ o.frame)
    (hkept : ∀ r ∈ b.requests, ∀ o ∈ a.queued ++ a.held, o.frame = r.frame → o ∈ b.queued ++ b.held) : b.Sound where
  sorted := h.sorted.sublist hreq
  listed := hperm
  handles := h.handles.sublist (hlist.map _)
  account := hentered ▸ hall.trans h.account
  places := hentered ▸ h.places
  numbers := fun r hr => hentered ▸ h.numbers r (hreq.subset hr)
  streams := fun r hr => h.streams r (hreq.subset hr)
  free := fun o ho r hr => h.free o (hqueued o ho) r (hreq.subset hr)
  reproc := fun r hr => h.reproc r (hreq.subset hr)
  results := fun o ho => by
    rcases hheld o ho with hold | hnew
    · exact fun r hr => h.results o hold r (hreq.subset hr)
    · exact hnew
  gone := fun o ho => by
    rcases hreturned o ho with hold | hnew
    · exact fun r hr => h.gone o hold r (hreq.subset hr)
    · exact hnew
  present := fun r hr => by
    obtain ⟨o, ho, hframe⟩ := h.present r (hreq.subset hr)
    refine ⟨o, ?_, hframe⟩
    have hkept := hkept r hr o
    simp only [mem_append] at ho hkept ⊢
    tauto

/-- A request is returned. -/
theorem complete (h : a.Sound) (frame : ℕ) : (a.complete frame).Sound := by
  rw [BufferLedger.complete]
  cases hfind : a.findReq frame with
  | none => exact h
  | some r =>
    have hcached := cachedOuts_perm hfind
    have hframe := (findReq_some hfind).2
    refine h.shrink eraseP_sublist (foldl_takeOut_sublist _ _) ?_ ?_ rfl
      (fun o ho => ho) (fun o ho => .inl ho) ?_ (fun r _ o ho _ => ho)
    · refine foldl_takeOut_perm h.handles (h.listed.trans ?_)
      refine (List.Perm.append_left _ hcached).trans ?_
      simp only [← append_assoc]
      exact perm_append_comm.append_right _
    · refine List.Perm.subperm (perm_iff_count.mpr fun o => ?_)
      have hcount := hcached.count_eq o
      simp only [all, count_append] at hcount ⊢
      omega
    · rintro o ho
      rcases mem_append.mp ho with ho | ho
      · exact .inl ho
      · refine .inr fun r' hr' heq => ?_
        have hof := frame_of_cached ho
        exact ((mem_eraseReq h.sorted).mp hr').2 (by omega)

theorem cachedOuts_eraseReq (h : a.Sound) (hreproc : ∀ r, a.findReq frame = some r → r.reproc) :
    (cachedOuts a.requests).Perm (cachedOuts (eraseReq frame a.requests)) := by
  cases hfind : a.findReq frame with
  | none => rw [eraseReq_none hfind]
  | some r =>
    have hperm := cachedOuts_perm hfind
    rwa [cached_eq_nil (h.reproc r (findReq_some hfind).1 (hreproc r hfind)), nil_append] at hperm

theorem cachedOuts_found (h : a.Sound) {r : Req} (hfind : a.findReq frame = some r)
    (hr : r.reproc) : (cachedOuts a.requests).Perm (cachedOuts (eraseReq frame a.requests)) := by
  refine h.cachedOuts_eraseReq fun r' hr' => ?_
  rw [hfind, some.injEq] at hr'
  exact hr' ▸ hr

theorem release_all (h : a.Sound) (frame : ℕ) : (a.release frame).all.Perm a.all := by
  rw [BufferLedger.release]
  cases hfind : a.findReq frame with
  | none => exact List.Perm.refl _
  | some r =>
    dsimp only
    split
    · rename_i hr
      refine perm_iff_count.mpr fun o => ?_
      have hcount := (h.cachedOuts_found hfind hr).count_eq o
      simp only [all, count_append] at hcount ⊢
      omega
    · exact List.Perm.refl _

/-- The input of a reprocess request is released. -/
theorem release (h : a.Sound) (frame : ℕ) : (a.release frame).Sound := by
  have hall := (h.release_all frame).subperm
  rw [BufferLedger.release] at hall ⊢
  cases hfind : a.findReq frame with
  | none => exact h
  | some r =>
    rw [hfind] at hall
    dsimp only at hall ⊢
    split
    · rename_i hr
      rw [if_pos hr] at hall
      exact h.shrink eraseP_sublist (List.Sublist.refl _)
        (h.listed.trans (List.Perm.append_left _ (h.cachedOuts_found hfind hr))) hall rfl
        (fun o ho => ho) (fun o ho => .inl ho) (fun o ho => .inl ho) (fun r _ o ho _ => ho)
    · exact h

/-- What is held for a frame is returned or lost. -/
theorem drain (h : a.Sound) (frame : ℕ) : (a.drain frame).Sound := by
  rw [BufferLedger.drain]
  cases hfind : a.held.find? (fun o => o.frame == frame) with
  | none => exact h
  | some o =>
    have ho := mem_of_find?_eq_some hfind
    have hframe : o.frame = frame := by simpa using find?_some hfind
    have hheld := perm_cons_eraseP hfind
    have hcached : (cachedOuts a.requests).Perm (cachedOuts (eraseReq frame a.requests)) := by
      refine h.cachedOuts_eraseReq fun r hr => ?_
      obtain ⟨hmem, hrf⟩ := findReq_some hr
      exact h.results o ho r hmem (by omega)
    refine h.shrink eraseP_sublist (List.Sublist.refl _)
      (h.listed.trans (List.Perm.append_left _ hcached)) ?_ rfl (fun o ho => ho)
      (fun o ho => .inl (mem_of_mem_eraseP ho)) ?_ ?_
    · refine subperm_iff_count.mpr fun x => ?_
      have h₁ := hcached.count_eq x
      have h₂ := hheld.count_eq x
      simp only [all]
      split <;> simp only [count_append, count_cons, count_nil] at h₁ h₂ ⊢ <;>
        omega
    · rintro x hx
      by_cases hold : x ∈ a.returned
      · exact .inl hold
      · refine .inr fun r hr heq => ((mem_eraseReq h.sorted).mp hr).2 ?_
        have hxo : x = o := by
          dsimp only at hx
          split at hx
          · simpa [hold] using hx
          · exact absurd hx hold
        rw [heq, hxo, hframe]
    · rintro r hr x hx hxr
      have hne := ((mem_eraseReq h.sorted).mp hr).2
      rcases mem_append.mp hx with hx | hx
      · exact mem_append_left _ hx
      · refine mem_append_right _ ((mem_eraseP_of_neg ?_).mpr hx)
        simp only [beq_iff_eq]
        omega

/-- Everything is returned. -/
theorem flush (h : a.Sound) : a.flush.Sound := by
  refine h.shrink (nil_sublist _) (nil_sublist _) (by simp [BufferLedger.flush, cachedOuts])
    ?_ rfl (by simp [BufferLedger.flush]) (by simp [BufferLedger.flush])
    (by simp [BufferLedger.flush]) (by simp [BufferLedger.flush])
  refine subperm_iff_count.mpr fun o => ?_
  have hcount := h.listed.count_eq o
  simp only [all, BufferLedger.flush, cachedOuts, flatMap_nil, count_append, count_nil] at hcount ⊢
  omega

end Sound

/-! ### A buffer is cached -/

@[simp] theorem cacheReq_kind (o : Out) (r : Req) : (cacheReq o r).kind = r.kind := by
  rw [cacheReq]
  split <;> rfl

@[simp] theorem cacheReq_frame (o : Out) (r : Req) : (cacheReq o r).frame = r.frame :=
  congrArg Prod.fst (cacheReq_kind o r)

@[simp] theorem cacheReq_reproc (o : Out) (r : Req) : (cacheReq o r).reproc = r.reproc :=
  congrArg Prod.snd (cacheReq_kind o r)

theorem cacheReq_of_ne (h : r.frame ≠ o.frame) : cacheReq o r = r :=
  if_neg h

@[simp] theorem cacheSlot_stream (o : Out) (j : Slot) : (cacheSlot o j).stream = j.stream := by
  rw [cacheSlot]
  split <;> rfl

theorem cacheReq_streams (o : Out) (r : Req) : (cacheReq o r).slots.map Slot.stream = r.slots.map Slot.stream := by
  rw [cacheReq]
  split
  · simp [List.map_map, Function.comp_def]
  · rfl

theorem map_cacheSlot_of_ne {l : List Slot} (h : ∀ j ∈ l, j.stream ≠ o.stream) : l.map (cacheSlot o) = l :=
  map_fixed fun j hj => if_neg fun hand => h j hj hand.1

theorem cacheSlot_perm (frame : ℕ) {l : List Slot} (hnodup : (l.map Slot.stream).Nodup)
    (hfree : ∃ j ∈ l, j.stream = o.stream ∧ j.cached = none) :
    ((l.map (cacheSlot o)).filterMap fun j => j.cached.map fun b => (⟨frame, b.1, b.2⟩ : Out)).Perm
      (⟨frame, o.stream, o.buffer⟩ :: l.filterMap fun j => j.cached.map fun b => (⟨frame, b.1, b.2⟩ : Out)) := by
  induction l with
  | nil => simp at hfree
  | cons j l ih =>
    obtain ⟨hj, hl⟩ := nodup_cons.mp hnodup
    obtain ⟨k, hk, hstream, hnone⟩ := hfree
    rcases mem_cons.mp hk with rfl | hk
    · have hrest : l.map (cacheSlot o) = l := by
        refine map_cacheSlot_of_ne fun i hi heq => hj ?_
        exact mem_map.mpr ⟨i, hi, by omega⟩
      rw [map_cons, hrest, cacheSlot, if_pos ⟨hstream, hnone⟩]
      simp [hnone]
    · have hne : j.stream ≠ o.stream := by
        rintro heq
        exact hj (mem_map.mpr ⟨k, hk, by omega⟩)
      have ih := ih hl ⟨k, hk, hstream, hnone⟩
      rw [map_cons, cacheSlot, if_neg fun hand => hne hand.1]
      cases hcached : j.cached with
      | none => simpa [hcached] using ih
      | some b =>
        simp only [filterMap_cons, hcached, map_some]
        exact (ih.cons _).trans (List.Perm.swap _ _ _)

theorem cacheReq_cached (hframe : r.frame = o.frame) (hnodup : (r.slots.map Slot.stream).Nodup)
    (hfree : ∃ j ∈ r.slots, j.stream = o.stream ∧ j.cached = none) :
    (cacheReq o r).cached.Perm (o :: r.cached) := by
  have hperm := cacheSlot_perm r.frame hnodup hfree
  rw [cacheReq, if_pos hframe]
  rwa [show (⟨r.frame, o.stream, o.buffer⟩ : Out) = o by rw [hframe]] at hperm

theorem cachedOuts_cacheReq (hsorted : l.Pairwise fun r r' => r.frame < r'.frame) (hr : r ∈ l)
    (hframe : r.frame = o.frame) (hnodup : (r.slots.map Slot.stream).Nodup)
    (hfree : ∃ j ∈ r.slots, j.stream = o.stream ∧ j.cached = none) :
    (cachedOuts (l.map (cacheReq o))).Perm (o :: cachedOuts l) := by
  induction l with
  | nil => simp at hr
  | cons x l ih =>
    obtain ⟨hx, hl⟩ := pairwise_cons.mp hsorted
    simp only [cachedOuts, map_cons, flatMap_cons]
    rcases mem_cons.mp hr with rfl | hr
    · have hrest : l.map (cacheReq o) = l := by
        refine map_fixed fun r' hr' => cacheReq_of_ne ?_
        have := hx r' hr'
        omega
      rw [hrest]
      exact (cacheReq_cached hframe hnodup hfree).append_right _
    · have hne : x.frame ≠ o.frame := by
        have := hx r hr
        omega
      rw [cacheReq_of_ne hne]
      exact ((ih hl hr).append_left _).trans perm_middle

theorem Sound.takeOut_queued (h : a.Sound) (ho : o ∈ a.queued) :
    (takeOut o.buffer a.listed).Perm (a.queued.erase o ++ cachedOuts a.requests) := by
  refine List.Perm.cons_inv (a := o) ?_
  refine (takeOut_perm h.handles (h.mem_listed ho)).symm.trans (h.listed.trans ?_)
  rw [← cons_append]
  exact (perm_cons_erase ho).append_right _

theorem mem_of_release (hr : r ∈ (a.release frame).requests) : r ∈ a.requests := by
  rw [release] at hr
  split at hr
  · split at hr
    · exact mem_of_mem_eraseP hr
    · exact hr
  · exact hr

theorem kind_of_arrive (hr : r ∈ (a.arrive o).requests) : ∃ r' ∈ a.requests, r'.kind = r.kind := by
  rw [arrive] at hr
  split at hr
  · exact ⟨r, hr, rfl⟩
  · split at hr
    · split at hr
      · exact ⟨r, hr, rfl⟩
      · exact ⟨r, mem_of_mem_eraseP hr, rfl⟩
    · obtain ⟨r', hr', rfl⟩ := mem_map.mp hr
      exact ⟨r', hr', (cacheReq_kind o r').symm⟩

theorem Sound.mem_release (h : a.Sound)
    (hr : r ∈ a.requests) (hlive : r.reproc = false) : r ∈ (a.release frame).requests := by
  rw [BufferLedger.release]
  split
  · rename_i r' hfind
    obtain ⟨hr', hframe⟩ := findReq_some hfind
    split
    · rename_i hreproc
      refine (mem_eraseReq h.sorted).mpr ⟨hr, fun heq => ?_⟩
      rw [h.request_eq hr hr' (by omega), hreproc] at hlive
      exact Bool.noConfusion hlive
    · exact hr
  · exact hr

theorem Sound.mem_arrive (h : a.Sound) (hr : r ∈ a.requests) (hlive : r.reproc = false) :
    ∃ r' ∈ (a.arrive o).requests, r'.kind = r.kind := by
  rw [BufferLedger.arrive]
  split
  · exact ⟨r, hr, rfl⟩
  · rename_i r' hfind
    obtain ⟨hr', hframe⟩ := findReq_some hfind
    split
    · rename_i hreproc
      split
      · exact ⟨r, hr, rfl⟩
      · refine ⟨r, (mem_eraseReq h.sorted).mpr ⟨hr, fun heq => ?_⟩, rfl⟩
        rw [h.request_eq hr hr' (by omega), hreproc] at hlive
        exact Bool.noConfusion hlive
    · exact ⟨cacheReq o r, mem_map.mpr ⟨r, hr, rfl⟩, cacheReq_kind o r⟩

theorem mem_erase_queued {x : Out} (hx : x ∈ a.queued) (hne : x.frame ≠ o.frame) : x ∈ a.queued.erase o :=
  (mem_erase_of_ne fun heq => hne (congrArg Out.frame heq)).mpr hx

/-- A pending live request caches a queued buffer. -/
theorem Sound.cache (h : a.Sound) (ho : o ∈ a.queued)
    (hr : r ∈ a.requests) (hframe : r.frame = o.frame) (hlive : ¬ r.reproc) :
    Sound { a with
      requests := a.requests.map (cacheReq o)
      queued := a.queued.erase o } := by
  have hqueued := perm_cons_erase ho
  have hcached := cachedOuts_cacheReq h.sorted hr hframe (h.streams r hr) (h.free o ho r hr hframe)
  constructor
  case sorted => exact pairwise_map.mpr (h.sorted.imp fun hlt => by simpa using hlt)
  case listed =>
    refine h.listed.trans (perm_iff_count.mpr fun x => ?_)
    have h₁ := hqueued.count_eq x
    have h₂ := hcached.count_eq x
    simp only [count_append, count_cons] at h₁ h₂ ⊢
    omega
  case handles => exact h.handles
  case account =>
    refine List.Subperm.trans (List.Perm.subperm (perm_iff_count.mpr fun x => ?_)) h.account
    have h₁ := hqueued.count_eq x
    have h₂ := hcached.count_eq x
    simp only [all, count_append, count_cons] at h₁ h₂ ⊢
    omega
  case places => exact h.places
  case numbers =>
    rintro r' hr'
    obtain ⟨x, hx, rfl⟩ := mem_map.mp hr'
    simpa using h.numbers x hx
  case streams =>
    rintro r' hr'
    obtain ⟨x, hx, rfl⟩ := mem_map.mp hr'
    rw [cacheReq_streams]
    exact h.streams x hx
  case free =>
    rintro o' ho' r' hr' hframe'
    obtain ⟨x, hx, rfl⟩ := mem_map.mp hr'
    obtain ⟨j, hj, hstream, hnone⟩ := h.free o' (mem_of_mem_erase ho') x hx (by simpa using hframe')
    by_cases hxo : x.frame = o.frame
    · refine ⟨cacheSlot o j, ?_, by simpa using hstream, ?_⟩
      · rw [cacheReq, if_pos hxo]
        exact mem_map.mpr ⟨j, hj, rfl⟩
      · rw [cacheSlot, if_neg, hnone]
        rintro ⟨hjo, -⟩
        refine (h.queued_nodup.mem_erase_iff.mp ho').1 ?_
        refine h.entered_eq (h.queued_entered (mem_of_mem_erase ho')) (h.queued_entered ho) ?_ ?_
        · rw [← hframe', cacheReq_frame, hxo]
        · rw [← hstream, hjo]
    · rw [cacheReq_of_ne hxo]
      exact ⟨j, hj, hstream, hnone⟩
  case reproc =>
    rintro r' hr' hreproc
    obtain ⟨x, hx, rfl⟩ := mem_map.mp hr'
    have hxo : x.frame ≠ o.frame := by
      rintro heq
      rw [h.request_eq hx hr (by omega), cacheReq_reproc] at hreproc
      exact hlive hreproc
    rw [cacheReq_of_ne hxo] at hreproc ⊢
    exact h.reproc x hx hreproc
  case results =>
    rintro o' ho' r' hr' heq
    obtain ⟨x, hx, rfl⟩ := mem_map.mp hr'
    simpa using h.results o' ho' x hx (by simpa using heq)
  case gone =>
    rintro o' ho' r' hr'
    obtain ⟨x, hx, rfl⟩ := mem_map.mp hr'
    simpa using h.gone o' ho' x hx
  case present =>
    rintro r' hr'
    obtain ⟨x, hx, rfl⟩ := mem_map.mp hr'
    by_cases hxo : x.frame = o.frame
    · refine ⟨o, ?_, by simp [hxo]⟩
      have hmem : o ∈ (cacheReq o x).cached := by
        have hfree := h.free o ho x hx hxo
        exact (cacheReq_cached hxo (h.streams x hx) hfree).mem_iff.mpr (by simp)
      simp [hmem]
    · obtain ⟨o', ho', heq⟩ := h.present x hx
      rw [cacheReq_of_ne hxo]
      refine ⟨o', ?_, heq⟩
      simp only [mem_append] at ho' ⊢
      rcases ho' with (ho' | ho') | ho'
      · exact .inl (.inl (mem_erase_queued ho' (by omega)))
      · exact .inl (.inr ho')
      · exact .inr ho'

theorem arrive_all (h : a.Sound) (ho : o ∈ a.queued) : (a.arrive o).all.Perm a.all := by
  have hqueued := perm_cons_erase ho
  rw [arrive]
  cases hfind : a.findReq o.frame with
  | none =>
    refine perm_iff_count.mpr fun x => ?_
    have hcount := hqueued.count_eq x
    simp only [all, count_append, count_cons, count_nil] at hcount ⊢
    omega
  | some r =>
    obtain ⟨hr, hframe⟩ := findReq_some hfind
    dsimp only
    split
    · rename_i hreproc
      split
      · refine perm_iff_count.mpr fun x => ?_
        have hcount := hqueued.count_eq x
        simp only [all, count_append, count_cons, count_nil] at hcount ⊢
        omega
      · have hcached := h.cachedOuts_found hfind hreproc
        refine perm_iff_count.mpr fun x => ?_
        have h₁ := hqueued.count_eq x
        have h₂ := hcached.count_eq x
        simp only [all, count_append, count_cons, count_nil] at h₁ h₂ ⊢
        omega
    · have hcached := cachedOuts_cacheReq h.sorted hr hframe (h.streams r hr) (h.free o ho r hr hframe)
      refine perm_iff_count.mpr fun x => ?_
      have h₁ := hqueued.count_eq x
      have h₂ := hcached.count_eq x
      simp only [all, count_append, count_cons] at h₁ h₂ ⊢
      omega

/-- A queued buffer comes back. -/
theorem Sound.arrive (h : a.Sound) (ho : o ∈ a.queued) : (a.arrive o).Sound := by
  have hall := (arrive_all h ho).subperm
  have hsub : (takeOut o.buffer a.listed).Sublist a.listed := eraseP_sublist
  rw [BufferLedger.arrive] at hall ⊢
  cases hfind : a.findReq o.frame with
  | none =>
    have hnone := findReq_none.mp hfind
    rw [hfind] at hall
    refine h.shrink (List.Sublist.refl _) hsub (h.takeOut_queued ho) hall rfl
      (fun x hx => mem_of_mem_erase hx) (fun x hx => .inl hx) ?_ ?_
    · rintro x hx
      rcases mem_append.mp hx with hx | hx
      · exact .inl hx
      · rw [mem_singleton.mp hx]
        exact .inr hnone
    · rintro r hr x hx hxr
      rcases mem_append.mp hx with hx | hx
      · exact mem_append_left _ (mem_erase_queued hx (hxr ▸ hnone r hr))
      · exact mem_append_right _ hx
  | some r =>
    obtain ⟨hr, hframe⟩ := findReq_some hfind
    rw [hfind] at hall
    dsimp only at hall ⊢
    split
    · rename_i hreproc
      rw [if_pos hreproc] at hall
      split
      · rename_i holder
        rw [if_pos holder] at hall
        refine h.shrink (List.Sublist.refl _) hsub (h.takeOut_queued ho) hall rfl
          (fun x hx => mem_of_mem_erase hx) ?_ (fun x hx => .inl hx) ?_
        · rintro x hx
          rcases mem_append.mp hx with hx | hx
          · exact .inl hx
          · rw [mem_singleton.mp hx]
            refine .inr fun r' hr' heq => ?_
            rwa [h.request_eq hr' hr (by omega)]
        · rintro r' hr' x hx hxr
          simp only [mem_append, mem_singleton] at hx ⊢
          by_cases hxo : x = o
          · exact .inr (.inr hxo)
          · rcases hx with hx | hx
            · exact .inl ((mem_erase_of_ne hxo).mpr hx)
            · exact .inr (.inl hx)
      · rename_i holder
        rw [if_neg holder] at hall
        have hcached := h.cachedOuts_found hfind hreproc
        refine h.shrink eraseP_sublist hsub ((h.takeOut_queued ho).trans (hcached.append_left _)) hall rfl
          (fun x hx => mem_of_mem_erase hx) (fun x hx => .inl hx) ?_ ?_
        · rintro x hx
          rcases mem_append.mp hx with hx | hx
          · exact .inl hx
          · rw [mem_singleton.mp hx]
            exact .inr fun r' hr' => ((mem_eraseReq h.sorted).mp hr').2
        · rintro r' hr' x hx hxr
          have hne := ((mem_eraseReq h.sorted).mp hr').2
          rcases mem_append.mp hx with hx | hx
          · exact mem_append_left _ (mem_erase_queued hx (by omega))
          · exact mem_append_right _ hx
    · rename_i hlive
      exact h.cache ho hr hframe hlive

end BufferLedger
