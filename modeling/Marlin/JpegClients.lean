import Marlin.JpegObj
import Marlin.SlotTable

/-!
# The Clients of the JPEG Interface

`jpeg_open` makes the one JPEG object on the first call and then takes a free slot of its client table; the
handle of a client has the number of its slot in the low byte. `mm_jpeg_intf_close` finds the slot by that byte
alone, clears it and counts one client less, whether the slot had this handle or not, and whether there is such
a slot or not. The object is released when the count comes to 0.

## Conventions

* A client slot has its sessions. Closing a client destroys those that are active and then clears all of them;
  what that does to the jobs of the object is not part of the model.
* Whether the object can be allocated and what `mm_jpeg_init` and `mm_jpeg_deinit` return is taken from the
  environment. Other calls change the sessions of a slot as they like.

## Main results

* `Counted.newClient`: a new client, as long as the count is right.
* `close_of_current`, `close_of_not_current`: what a close does with the current handle of a slot in use, and
  with another one.
* `handles_lawful_iff`: for all sequences of calls, when the accounts are kept.
-/

namespace Marlin

open List Function Option Bool

namespace MmJpeg

/-- `mm_jpeg_client_t`. -/
structure JpegClient where
  is_used : Bool := false
  client_handle : ℕ := 0
  session : ℕ → JobSession := fun _ => {}

/-- The clients of `mm_jpeg_obj`. -/
structure JpegClients where
  num_clients : ℤ := 0
  clnt_mgr : ℕ → JpegClient := fun _ => {}

/-- What the interface has for all clients: `g_jpeg_obj` and `g_handler_history_count`. -/
structure JpegIntf where
  g_jpeg_obj : Option JpegClients := none
  g_handler_history_count : ℕ := 0

namespace JpegClients

/-- One slot is set. -/
def set (o : JpegClients) (i : ℕ) (c : JpegClient) : JpegClients :=
  { o with clnt_mgr := Function.update o.clnt_mgr i c }

/-- The first free slot. -/
def freeClient (o : JpegClients) : Option ℕ :=
  (List.range maxJpegClientNum).find? fun i => !(o.clnt_mgr i).is_used

/-- `mm_jpeg_new_client` with the handle that it makes for the slot. -/
def newClient (o : JpegClients) (handler : ℕ → ℕ) : ℕ × JpegClients :=
  if (maxJpegClientNum : ℤ) ≤ o.num_clients then (0, o)
  else
    match o.freeClient with
    | none => (0, o)
    | some idx =>
      (handler idx,
        { o.set idx { is_used := true, client_handle := handler idx } with num_clients := o.num_clients + 1 })

/-- `mm_jpeg_close`. -/
def close (o : JpegClients) (client_hdl : ℕ) : ℤ × JpegClients :=
  if maxJpegClientNum ≤ getClientIdx client_hdl then (-1, o)
  else (0, o.set (getClientIdx client_hdl) {})

/-- The slots in use. -/
def used (o : JpegClients) : Finset ℕ :=
  (Finset.range maxJpegClientNum).filter fun i => (o.clnt_mgr i).is_used = true

end JpegClients

namespace JpegIntf

/-- `g_handler_history_count` after the next handle: a number of 16 bits, never 0. -/
def nextCount (s : JpegIntf) : ℕ :=
  let count := (s.g_handler_history_count + 1) % 2 ^ 16
  if count = 0 then count + 1 else count

/-- `mm_jpeg_util_generate_handler`. -/
def generateHandler (s : JpegIntf) (index : ℕ) : ℕ := s.nextCount <<< 8 ||| index

/-- What `jpeg_open` does once there is an object. The count of the handles goes on where one is made, which is
never 0. Where there is no client then, the object is released again. -/
def openClient (s : JpegIntf) (o : JpegClients) : ℕ × JpegIntf :=
  let (client_hdl, o') := o.newClient s.generateHandler
  if 0 < client_hdl then (client_hdl, { g_jpeg_obj := some o', g_handler_history_count := s.nextCount })
  else if o'.num_clients = 0 then (client_hdl, { s with g_jpeg_obj := none })
  else (client_hdl, { s with g_jpeg_obj := some o' })

/-- `jpeg_open`. -/
def jpegOpen (s : JpegIntf) (malloc : Bool) (init : ℤ) : ℕ × JpegIntf :=
  match s.g_jpeg_obj with
  | some o => s.openClient o
  | none =>
    if malloc = false then (0, s)
    else if init ≠ 0 then (0, s)
    else s.openClient {}

/-- `mm_jpeg_intf_close`. -/
def intfClose (s : JpegIntf) (client_hdl : ℕ) (deinit : ℤ) : ℤ × JpegIntf :=
  if client_hdl = 0 then (-1, s)
  else
    match s.g_jpeg_obj with
    | none => (-1, s)
    | some o =>
      let (rc, o') := o.close client_hdl
      let o' := { o' with num_clients := o'.num_clients - 1 }
      if rc = 0 then
        if o'.num_clients = 0 then (deinit, { s with g_jpeg_obj := none })
        else (rc, { s with g_jpeg_obj := some o' })
      else (rc, { s with g_jpeg_obj := some o' })

/-- A call, or what other calls do to the sessions of a slot. -/
inductive Call
  | jpegOpen (malloc : Bool) (init : ℤ)
  | intfClose (client_hdl : ℕ) (deinit : ℤ)
  | sessions (idx : ℕ) (session : ℕ → JobSession)

/-- The sessions of a slot are changed. -/
def changeSessions (s : JpegIntf) (idx : ℕ) (session : ℕ → JobSession) : JpegIntf :=
  { s with g_jpeg_obj := s.g_jpeg_obj.map fun o => o.set idx { o.clnt_mgr idx with session } }

/-- What a call returns and leaves. -/
def call (s : JpegIntf) : Call → ℤ × JpegIntf
  | .jpegOpen malloc init => ((s.jpegOpen malloc init).1, (s.jpegOpen malloc init).2)
  | .intfClose client_hdl deinit => s.intfClose client_hdl deinit
  | .sessions idx session => (0, s.changeSessions idx session)

/-- The handle is that of a slot in use. -/
def Current (s : JpegIntf) (client_hdl : ℕ) : Prop :=
  ∃ o, s.g_jpeg_obj = some o ∧ ∃ i ∈ o.used, (o.clnt_mgr i).client_handle = client_hdl

/-- It is that of the only slot in use. -/
def Last (s : JpegIntf) (client_hdl : ℕ) : Prop :=
  ∃ o, s.g_jpeg_obj = some o ∧ ∃ i, o.used = {i} ∧ (o.clnt_mgr i).client_handle = client_hdl

/-- The object is released. -/
def Released (s s' : JpegIntf) : Prop := s.g_jpeg_obj ≠ none ∧ s'.g_jpeg_obj = none

/-- The client slots with their sessions. -/
def slots (s : JpegIntf) : Option (ℕ → JpegClient) := s.g_jpeg_obj.map (·.clnt_mgr)

/-- The count is that of the slots in use. -/
def Counts (s : JpegIntf) : Prop := ∀ o, s.g_jpeg_obj = some o → o.num_clients = o.used.card

/-- What a call keeps to: a close with another handle than that of a slot in use is refused and leaves the
slots, and the object is released exactly when its last client is closed. -/
def Keeps (s : JpegIntf) : Call → Prop
  | .intfClose client_hdl deinit =>
    (¬ s.Current client_hdl →
      (s.intfClose client_hdl deinit).1 ≠ 0 ∧ (s.intfClose client_hdl deinit).2.slots = s.slots) ∧
    (Released s (s.intfClose client_hdl deinit).2 ↔ s.Last client_hdl)
  | c => ¬ Released s (s.call c).2

/-- The accounts are kept through a sequence of calls. -/
def Lawful : JpegIntf → List Call → Prop
  | s, [] => s.Counts
  | s, c :: cs => s.Counts ∧ s.Keeps c ∧ Lawful (s.call c).2 cs

/-- The close finds no object, or has the handle of a slot in use. -/
def Proper (s : JpegIntf) : Call → Prop
  | .intfClose client_hdl _ => client_hdl ≠ 0 → s.g_jpeg_obj ≠ none → s.Current client_hdl
  | _ => True

/-- All closes of a sequence of calls do. -/
def AllProper : JpegIntf → List Call → Prop
  | _, [] => True
  | s, c :: cs => s.Proper c ∧ AllProper (s.call c).2 cs

end JpegIntf

/-! ### The table -/

namespace JpegClients

variable {o : JpegClients} {i : ℕ} {c : JpegClient}

theorem used_eq (o : JpegClients) :
    o.used = SlotTable.used maxJpegClientNum (fun c => c.is_used = true) o.clnt_mgr := rfl

theorem mem_used : i ∈ o.used ↔ i < maxJpegClientNum ∧ (o.clnt_mgr i).is_used = true := by
  rw [used_eq, SlotTable.mem_used]

theorem set_self : (o.set i c).clnt_mgr i = c :=
  update_self (β := fun _ => JpegClient) i c o.clnt_mgr

theorem set_ne {j : ℕ} (h : j ≠ i) : (o.set i c).clnt_mgr j = o.clnt_mgr j :=
  update_of_ne (β := fun _ => JpegClient) h c o.clnt_mgr

theorem used_set (hi : i < maxJpegClientNum) (hc : c.is_used = true) : (o.set i c).used = insert i o.used := by
  rw [used_eq, used_eq]
  refine SlotTable.used_update hi ?_
  exact hc

theorem used_set_free (hc : c.is_used = false) : (o.set i c).used = o.used.erase i := by
  rw [used_eq, used_eq]
  refine SlotTable.used_update_free ?_
  exact eq_false_iff.mp hc

/-- The count is right, and each handle has the number of its slot. -/
structure Counted (o : JpegClients) : Prop where
  count : o.num_clients = o.used.card
  handles : ∀ i ∈ o.used, getClientIdx (o.clnt_mgr i).client_handle = i ∧ (o.clnt_mgr i).client_handle ≠ 0

theorem Counted.freeClient (h : o.Counted) (hroom : ¬ (maxJpegClientNum : ℤ) ≤ o.num_clients) :
    ∃ idx, o.freeClient = some idx ∧ idx < maxJpegClientNum ∧ idx ∉ o.used := by
  cases hfree : o.freeClient with
  | none =>
    refine absurd ?_ hroom
    have hall : o.used = Finset.range maxJpegClientNum := by
      refine Finset.filter_true_of_mem fun i hi => ?_
      have hbusy := find?_eq_none.mp hfree i (mem_range.mpr (Finset.mem_range.mp hi))
      rwa [not_eq_true, not_eq_false'] at hbusy
    rw [h.count, hall, Finset.card_range]
  | some idx =>
    have hmem := mem_range.mp (mem_of_find?_eq_some hfree)
    have hnot := find?_some hfree
    refine ⟨idx, rfl, hmem, fun hused => ?_⟩
    rw [(mem_used.mp hused).2] at hnot
    cases hnot

theorem Counted.insert (h : o.Counted) (hi : i < maxJpegClientNum) (hfree : i ∉ o.used) (hc : c.is_used = true)
    (hhdl : getClientIdx c.client_handle = i ∧ c.client_handle ≠ 0) :
    Counted { o.set i c with num_clients := o.num_clients + 1 } := by
  have hused := used_set (o := o) hi hc
  refine ⟨?_, fun j hj => ?_⟩
  · change o.num_clients + 1 = ((o.set i c).used.card : ℤ)
    rw [hused, Finset.card_insert_of_notMem hfree, h.count]
    rfl
  · change j ∈ (o.set i c).used at hj
    change getClientIdx ((o.set i c).clnt_mgr j).client_handle = j ∧ ((o.set i c).clnt_mgr j).client_handle ≠ 0
    by_cases hji : j = i
    · rw [hji, set_self]
      exact hhdl
    · rw [hused, Finset.mem_insert, or_iff_right hji] at hj
      rw [set_ne hji]
      exact h.handles j hj

theorem Counted.erase (h : o.Counted) (hi : i ∈ o.used) :
    Counted { o.set i {} with num_clients := o.num_clients - 1 } := by
  have hused := used_set_free (o := o) (i := i) (c := {}) rfl
  have hpos : 0 < o.used.card := Finset.card_pos.mpr ⟨i, hi⟩
  refine ⟨?_, fun j hj => ?_⟩
  · change o.num_clients - 1 = ((o.set i {}).used.card : ℤ)
    rw [hused, Finset.card_erase_of_mem hi, h.count]
    omega
  · change j ∈ (o.set i {}).used at hj
    rw [hused, Finset.mem_erase] at hj
    change getClientIdx ((o.set i {}).clnt_mgr j).client_handle = j ∧ ((o.set i {}).clnt_mgr j).client_handle ≠ 0
    rw [set_ne hj.1]
    exact h.handles j hj.2

end JpegClients

/-! ### The calls -/

namespace JpegIntf

variable {s : JpegIntf} {o : JpegClients}

theorem getClientIdx_generateHandler (s : JpegIntf) {idx : ℕ} (h : idx < maxJpegClientNum) :
    getClientIdx (s.generateHandler idx) = idx ∧ s.generateHandler idx ≠ 0 := by
  rw [maxJpegClientNum] at h
  have hcount : 0 < s.nextCount := by
    rw [nextCount]
    split <;> omega
  rw [generateHandler, ← Nat.shiftLeft_add_eq_or_of_lt (by omega : idx < 2 ^ 8), Nat.shiftLeft_eq, getClientIdx,
    show 0xff = 2 ^ 8 - 1 from rfl, Nat.and_two_pow_sub_one_eq_mod]
  omega

theorem openClient_counted (h : o.Counted) : ∃ o', (s.openClient o).2.g_jpeg_obj = some o' ∧ o'.Counted := by
  rw [openClient, JpegClients.newClient]
  by_cases hfull : (maxJpegClientNum : ℤ) ≤ o.num_clients
  · have hsome : ¬ o.num_clients = 0 := by
      rw [maxJpegClientNum] at hfull
      omega
    rw [if_pos hfull]
    exact ⟨o, congrArg (fun r : ℕ × JpegIntf => r.2.g_jpeg_obj) ((if_neg (Nat.lt_irrefl 0)).trans (if_neg hsome)), h⟩
  · obtain ⟨idx, hfree, hlt, hnot⟩ := h.freeClient hfull
    have hhdl := getClientIdx_generateHandler s hlt
    rw [if_neg hfull, hfree]
    exact ⟨_, congrArg (fun r : ℕ × JpegIntf => r.2.g_jpeg_obj) (if_pos (Nat.pos_of_ne_zero hhdl.2)),
      h.insert hlt hnot rfl hhdl⟩

/-- The accounts are in order. -/
def InOrder (s : JpegIntf) : Prop := ∀ o, s.g_jpeg_obj = some o → o.Counted

theorem InOrder.counts (h : s.InOrder) : s.Counts := fun o ho => (h o ho).count

theorem counted_fresh : JpegClients.Counted {} := by
  have hused : JpegClients.used {} = ∅ := Finset.filter_eq_empty_iff.mpr fun i _ => false_ne_true
  refine ⟨hused ▸ rfl, fun i hi => ?_⟩
  rw [hused] at hi
  exact absurd hi (Finset.notMem_empty i)

theorem InOrder.jpegOpen (h : s.InOrder) (malloc : Bool) (init : ℤ) : (s.jpegOpen malloc init).2.InOrder ∧
    ¬ Released s (s.jpegOpen malloc init).2 := by
  have hopen {o : JpegClients} (ho : o.Counted) : (s.openClient o).2.InOrder ∧ ¬ Released s (s.openClient o).2 := by
    obtain ⟨o', ho', hcounted⟩ := openClient_counted (s := s) ho
    exact ⟨fun p hp => some.inj (ho'.symm.trans hp) ▸ hcounted, fun hr => nomatch ho'.symm.trans hr.2⟩
  rw [JpegIntf.jpegOpen]
  cases hobj : s.g_jpeg_obj with
  | some o => exact hopen (h o hobj)
  | none =>
    dsimp only
    split
    · exact ⟨h, fun hr => hr.1 hobj⟩
    split
    · exact ⟨h, fun hr => hr.1 hobj⟩
    · exact hopen counted_fresh

/-- **A close with the current handle of a slot in use** clears this slot, and releases the object if it was
the last. -/
theorem close_of_current (hobj : s.g_jpeg_obj = some o) (h : o.Counted) {i : ℕ} (hi : i ∈ o.used) (deinit : ℤ) :
    s.intfClose (o.clnt_mgr i).client_handle deinit =
      if o.used = {i} then (deinit, { s with g_jpeg_obj := none })
      else (0, { s with g_jpeg_obj := some { o.set i {} with num_clients := o.num_clients - 1 } }) := by
  obtain ⟨hidx, hne⟩ := h.handles i hi
  have hlt : ¬ maxJpegClientNum ≤ i := Nat.not_le.mpr (JpegClients.mem_used.mp hi).1
  rw [intfClose, if_neg hne, hobj]
  dsimp only
  rw [JpegClients.close, hidx, if_neg hlt]
  dsimp only
  rw [if_pos rfl]
  have hlast : (o.set i {}).num_clients - 1 = 0 ↔ o.used = {i} := by
    change o.num_clients - 1 = 0 ↔ _
    rw [h.count]
    constructor
    · intro hone
      obtain ⟨j, hj⟩ := Finset.card_eq_one.mp (by omega : o.used.card = 1)
      rw [hj] at hi ⊢
      rw [Finset.mem_singleton.mp hi]
    · intro hone
      rw [hone, Finset.card_singleton]
      rfl
  by_cases hone : o.used = {i}
  · rw [if_pos (hlast.mpr hone), if_pos hone]
  · rw [if_neg (mt hlast.mp hone), if_neg hone]
    rfl

/-- **A close with another handle**, where there is an object: the count is wrong afterwards, or the close is
not refused, or the slots change. -/
theorem close_of_not_current (h : s.InOrder) {client_hdl : ℕ} {deinit : ℤ}
    (hnot : ¬ s.Proper (.intfClose client_hdl deinit)) :
    ¬ (s.Keeps (.intfClose client_hdl deinit) ∧ (s.intfClose client_hdl deinit).2.Counts) := by
  obtain ⟨hne, hnot⟩ := Classical.not_imp.mp hnot
  obtain ⟨hsome, hcur⟩ := Classical.not_imp.mp hnot
  obtain ⟨o, hobj⟩ := ne_none_iff_exists'.mp hsome
  rintro ⟨⟨hrefused, -⟩, hcounts⟩
  obtain ⟨hrc, hslots⟩ := hrefused hcur
  by_cases hidx : maxJpegClientNum ≤ getClientIdx client_hdl
  · have hvalue : (s.intfClose client_hdl deinit).2.g_jpeg_obj = some { o with num_clients := o.num_clients - 1 } := by
      rw [intfClose, if_neg hne, hobj]
      dsimp only
      rw [JpegClients.close, if_pos hidx]
      rfl
    have hwrong : o.num_clients - 1 = o.used.card := hcounts _ hvalue
    have hright := (h o hobj).count
    omega
  · have hvalue : s.intfClose client_hdl deinit =
        if o.num_clients - 1 = 0 then (deinit, { s with g_jpeg_obj := none })
        else
          (0, { s with
            g_jpeg_obj := some { o.set (getClientIdx client_hdl) {} with num_clients := o.num_clients - 1 } }) := by
      rw [intfClose, if_neg hne, hobj]
      dsimp only
      rw [JpegClients.close, if_neg hidx]
      rfl
    rw [hvalue] at hrc hslots
    split at hslots
    · rw [slots, slots, hobj] at hslots
      cases hslots
    · rename_i hzero
      rw [if_neg hzero] at hrc
      exact hrc rfl

/-- **What a close keeps to** that is proper. -/
theorem InOrder.close (h : s.InOrder) {client_hdl : ℕ} {deinit : ℤ}
    (hproper : s.Proper (.intfClose client_hdl deinit)) :
    s.Keeps (.intfClose client_hdl deinit) ∧ (s.intfClose client_hdl deinit).2.InOrder := by
  have hlast {hdl : ℕ} (hl : s.Last hdl) : s.Current hdl := by
    obtain ⟨o, ho, i, hi, hhdl⟩ := hl
    exact ⟨o, ho, i, hi ▸ Finset.mem_singleton_self i, hhdl⟩
  by_cases hcur : s.Current client_hdl
  · obtain ⟨o, hobj, i, hi, rfl⟩ := hcur
    refine ⟨⟨fun hnot => absurd ⟨o, hobj, i, hi, rfl⟩ hnot, ?_⟩, ?_⟩
    · rw [close_of_current hobj (h o hobj) hi]
      constructor
      · rintro ⟨-, hnone⟩
        refine ⟨o, hobj, i, ?_, rfl⟩
        by_contra hmore
        rw [if_neg hmore] at hnone
        cases hnone
      · rintro ⟨p, hp, j, hj, hhdl⟩
        obtain rfl : o = p := some.inj (hobj.symm.trans hp)
        have hji : i = j := Finset.mem_singleton.mp (hj ▸ hi)
        rw [if_pos (hji ▸ hj)]
        exact ⟨hobj ▸ nofun, rfl⟩
    · rw [close_of_current hobj (h o hobj) hi]
      split
      · exact fun p hp => nomatch hp
      · exact fun p hp => some.inj hp ▸ (h o hobj).erase hi
  · have hsame : s.intfClose client_hdl deinit = (-1, s) := by
      rw [intfClose]
      split
      · rfl
      · rename_i hne
        have hnone : s.g_jpeg_obj = none := by
          by_contra hsome
          exact hcur (hproper hne hsome)
        rw [hnone]
    refine ⟨⟨fun _ => ?_, ?_⟩, hsame ▸ h⟩
    · rw [hsame]
      exact ⟨(by decide : (-1 : ℤ) ≠ 0), rfl⟩
    · rw [hsame]
      exact iff_of_false (fun hr => hr.1 hr.2) (fun hl => hcur (hlast hl))

theorem InOrder.changeSessions (h : s.InOrder) (idx : ℕ) (session : ℕ → JobSession) :
    (s.changeSessions idx session).InOrder ∧ ¬ Released s (s.changeSessions idx session) := by
  refine ⟨fun p hp => ?_, fun hr => ?_⟩
  · obtain ⟨o, ho, rfl⟩ := map_eq_some_iff.mp hp
    have hkept (j : ℕ) : ((o.set idx { o.clnt_mgr idx with session }).clnt_mgr j).is_used = (o.clnt_mgr j).is_used ∧
          ((o.set idx { o.clnt_mgr idx with session }).clnt_mgr j).client_handle = (o.clnt_mgr j).client_handle := by
      by_cases hj : j = idx
      · rw [hj, JpegClients.set_self]
        exact ⟨rfl, rfl⟩
      · rw [JpegClients.set_ne hj]
        exact ⟨rfl, rfl⟩
    have hused : (o.set idx { o.clnt_mgr idx with session }).used = o.used :=
      Finset.filter_congr fun j _ => by rw [(hkept j).1]
    refine ⟨hused ▸ (h o ho).count, fun j hj => ?_⟩
    rw [(hkept j).2]
    exact (h o ho).handles j (hused ▸ hj)
  · exact hr.1 (map_eq_none_iff.mp hr.2)

/-- **What a call keeps to** that is proper. -/
theorem InOrder.call (h : s.InOrder) {c : Call} (hproper : s.Proper c) : s.Keeps c ∧ (s.call c).2.InOrder := by
  cases c with
  | jpegOpen malloc init => exact ⟨(h.jpegOpen malloc init).2, (h.jpegOpen malloc init).1⟩
  | intfClose client_hdl deinit => exact h.close hproper
  | sessions idx session => exact ⟨(h.changeSessions idx session).2, (h.changeSessions idx session).1⟩

theorem Lawful.counts {cs : List Call} (h : s.Lawful cs) : s.Counts := by
  cases cs with
  | nil => exact h
  | cons c cs => exact h.1

theorem InOrder.lawful_iff_allProper (h : s.InOrder) (cs : List Call) : s.Lawful cs ↔ s.AllProper cs := by
  induction cs generalizing s with
  | nil => exact iff_of_true h.counts trivial
  | cons c cs ih =>
    rw [Lawful, AllProper]
    by_cases hproper : s.Proper c
    · obtain ⟨hkeeps, horder⟩ := h.call hproper
      rw [and_iff_right hproper, and_iff_right h.counts, and_iff_right hkeeps, ih horder]
    · refine iff_of_false (fun hlaw => ?_) (fun hall => hproper hall.1)
      cases c with
      | jpegOpen malloc init => exact hproper trivial
      | intfClose client_hdl deinit =>
        exact close_of_not_current h hproper ⟨hlaw.2.1, hlaw.2.2.counts⟩
      | sessions idx session => exact hproper trivial

/-- **When the accounts are kept**, from the start of the process through any sequence of calls: exactly if each
close that finds an object has the handle of a slot in use. -/
theorem handles_lawful_iff (g_handler_history_count : ℕ) (cs : List Call) :
    Lawful { g_handler_history_count } cs ↔ AllProper { g_handler_history_count } cs :=
  InOrder.lawful_iff_allProper (fun _ ho => by cases ho) cs

/-- A handle that was never given out, but has the number of a slot in use in the low byte: its close succeeds,
and releases the object of the client that has this slot. -/
theorem foreign_close_releases : ((call {} (.jpegOpen true 0)).1 = 0x100 ∧
      ((call {} (.jpegOpen true 0)).2.call (.intfClose 0x200 0)).1 = 0 ∧
        Released (call {} (.jpegOpen true 0)).2 ((call {} (.jpegOpen true 0)).2.call (.intfClose 0x200 0)).2) ∧
    ¬ Lawful {} [.jpegOpen true 0, .intfClose 0x200 0] := by
  refine ⟨⟨by decide, by decide, nofun, rfl⟩, fun h => ?_⟩
  obtain ⟨-, ⟨hrefused, -⟩, -⟩ := h.2.2
  refine (hrefused ?_).1 (by decide)
  rintro ⟨o, ho, i, hi, hhdl⟩
  cases ho
  have hall : ∀ i < maxJpegClientNum, ((JpegClients.newClient {} (generateHandler {})).2.clnt_mgr i).client_handle
      ≠ 0x200 := by decide
  exact hall i (JpegClients.mem_used.mp hi).1 hhdl

end JpegIntf

end MmJpeg

end Marlin
