import Marlin.MpoComposer

/-!
# What the Scan for a Marker Reads

`mm_jpeg_mpo_get_app_marker` with every read checked: a run stops at the first byte it reads that is not in a given
region. The lengths it skips are taken from the file as they are, so that a marker in the last three bytes, also
that of the image's end, has a length outside the image.

## Conventions

* `mem` is what stands at each address from that of the image on, and `ok` says which addresses are in the region.
* Where the loops still run after the rounds they are given, this is a fault too; they end whatever they read
  (`getAppMarker_terminates`).

## Main results

* `scanMarker_spec`: what a run of the scan finds, or where it reads outside.
* `scanMarker_ok_iff`: which images the scan reads nothing outside of.
* `getAppMarker_eq`: where it reads nothing outside, the scan with the checks is the one without.
-/

namespace Marlin.Mpo.Checked

open Bytes

/-- Why a run stops. -/
inductive Fault
  | outside (o : ℕ)
  | running
  deriving DecidableEq

section

variable (mem : ℕ → UInt8) (ok : ℕ → Bool)

/-- A byte is read. -/
def read (o : ℕ) : Except Fault UInt8 := if ok o then .ok (mem o) else .error (.outside o)

/-- The inner loop of the scan, from the address `p`. -/
def scanFF (size : ℤ) : ℕ → ℕ → Except Fault (UInt8 × ℕ)
  | 0, _ => .error .running
  | fuel + 1, p => do
    let byte ← read mem ok p
    if byte ≠ 0xff ∧ ((p + 1 : ℕ) : ℤ) < size - 1 then scanFF size fuel (p + 1) else .ok (byte, p + 1)

/-- The segment of a marker at `p` is skipped. -/
def skip (byte : UInt8) (p : ℕ) : Except Fault ℕ :=
  if byte ≠ mSoi then do
    let hi ← read mem ok (p + 1)
    let lo ← read mem ok (p + 2)
    .ok (p + ByteOrder.big.ofShort hi lo)
  else .ok p

/-- The outer loop of the scan, from the address `p`. -/
def scanMarker (size : ℤ) (marker : UInt8) : ℕ → ℕ → Except Fault (Option ℕ)
  | 0, _ => .error .running
  | fuel + 1, p => do
    let found ← scanFF mem ok size (size.toNat + 1) p
    if found.1 ≠ 0xff then .ok none
    else
      let byte ← read mem ok found.2
      if byte = marker then .ok (some (found.2 + 1))
      else
        let next ← skip mem ok byte found.2
        if byte ≠ mEoi ∧ (next : ℤ) < size - 1 then scanMarker size marker fuel next else .ok none

/-- `mm_jpeg_mpo_get_app_marker`. -/
def getAppMarker (size : ℤ) (marker : UInt8) : Except Fault (Option ℕ) :=
  scanMarker mem ok size marker (size.toNat + 1) 0

end

/-! ### Runs -/

variable {α β : Type}

theorem bind_ok (a : α) (f : α → Except Fault β) : (Except.ok a >>= f) = f a := rfl

theorem bind_error (e : Fault) (f : α → Except Fault β) : (Except.error e >>= f) = .error e := rfl

theorem of_bind_ok {x : Except Fault α} {f : α → Except Fault β} {b : β} (h : x >>= f = .ok b) :
    ∃ a, x = .ok a ∧ f a = .ok b := by
  cases x with
  | error e => exact nomatch h
  | ok a => exact ⟨a, rfl, h⟩

theorem bind_ne_running {x : Except Fault α} {f : α → Except Fault β} (hx : x ≠ .error .running)
    (hf : ∀ a, x = .ok a → f a ≠ .error .running) : x >>= f ≠ .error .running := by
  cases x with
  | error e => exact fun h => hx (congrArg Except.error (Except.error.inj h))
  | ok a => exact hf a rfl

variable {mem : ℕ → UInt8} {ok : ℕ → Bool} {size : ℤ} {marker : UInt8} {n : ℕ}

variable {o : ℕ}

theorem read_of_ok (h : ok o = true) : read mem ok o = .ok (mem o) := if_pos h

theorem read_of_not (h : ¬ ok o = true) : read mem ok o = .error (.outside o) := if_neg h

variable {byte : UInt8}

theorem eq_of_read (h : read mem ok o = .ok byte) : mem o = byte := by
  by_cases hok : ok o = true
  · exact Except.ok.inj ((read_of_ok hok).symm.trans h)
  · exact nomatch (read_of_not hok).symm.trans h

theorem read_ne_running (o : ℕ) : read mem ok o ≠ .error .running := by
  by_cases hok : ok o = true
  · rw [read_of_ok hok]
    exact nofun
  · rw [read_of_not hok]
    exact nofun

/-! ### The loops end -/

variable {fuel p : ℕ}

theorem lt_of_scanFF {found : UInt8 × ℕ} (h : scanFF mem ok size fuel p = .ok found) : p < found.2 := by
  induction fuel generalizing p with
  | zero => exact nomatch h
  | succ fuel ih =>
    obtain ⟨byte, -, hrest⟩ := of_bind_ok h
    split at hrest
    · exact Nat.lt_of_succ_lt (ih hrest)
    · rw [← Except.ok.inj hrest]
      exact Nat.lt_succ_self p

theorem scanFF_terminates (hfuel : size.toNat - p < fuel) : scanFF mem ok size fuel p ≠ .error .running := by
  induction fuel generalizing p with
  | zero => exact absurd hfuel (Nat.not_lt_zero _)
  | succ fuel ih =>
    refine bind_ne_running (read_ne_running p) fun byte _ => ?_
    split
    · exact ih (by omega)
    · exact nofun

theorem skip_terminates (byte : UInt8) (p : ℕ) : skip mem ok byte p ≠ .error .running := by
  rw [skip]
  split
  · exact bind_ne_running (read_ne_running _) fun hi _ =>
      bind_ne_running (read_ne_running _) fun lo _ => nofun
  · exact nofun

theorem le_of_skip {next : ℕ} (h : skip mem ok byte p = .ok next) : p ≤ next := by
  rw [skip] at h
  split at h
  · obtain ⟨hi, -, h⟩ := of_bind_ok h
    obtain ⟨lo, -, h⟩ := of_bind_ok h
    rw [← Except.ok.inj h]
    exact Nat.le_add_right ..
  · exact (Except.ok.inj h).le

theorem scanMarker_terminates (hfuel : size.toNat - p < fuel) :
    scanMarker mem ok size marker fuel p ≠ .error .running := by
  induction fuel generalizing p with
  | zero => exact absurd hfuel (Nat.not_lt_zero _)
  | succ fuel ih =>
    refine bind_ne_running (scanFF_terminates (by omega)) fun found hfound => ?_
    split
    · exact nofun
    refine bind_ne_running (read_ne_running _) fun byte _ => ?_
    split
    · exact nofun
    refine bind_ne_running (skip_terminates byte _) fun next hnext => ?_
    split
    · -- a round moves on by a byte at least
      have hlt := lt_of_scanFF hfound
      have hle := le_of_skip hnext
      exact ih (by omega)
    · exact nofun

/-- **The scan ends**, whatever it reads. -/
theorem getAppMarker_terminates (mem : ℕ → UInt8) (ok : ℕ → Bool) (size : ℤ) (marker : UInt8) :
    getAppMarker mem ok size marker ≠ .error .running := scanMarker_terminates (by omega)

/-! ### The markers of an image -/

/-- `q` is the first `0xFF` from `p` on. Behind `p` the inner loop looks no farther than to the last byte but one. -/
structure Next (mem : ℕ → UInt8) (size : ℤ) (p q : ℕ) : Prop where
  le : p ≤ q
  ff : mem q = 0xff
  first : ∀ i, p ≤ i → i < q → mem i ≠ 0xff
  near : q = p ∨ (q : ℤ) < size - 1

/-- The address behind the segment of the marker at `q`. -/
def behind (mem : ℕ → UInt8) (q : ℕ) : ℕ :=
  if mem (q + 1) ≠ mSoi then q + 1 + ByteOrder.big.ofShort (mem (q + 2)) (mem (q + 3)) else q + 1

/-- The marker at `q` is passed: it is not the one that is looked for, nor that of the image's end, and its segment
ends in the image. -/
structure Passes (mem : ℕ → UInt8) (size : ℤ) (marker : UInt8) (q : ℕ) : Prop where
  other : mem (q + 1) ≠ marker
  not_eoi : mem (q + 1) ≠ mEoi
  inside : (behind mem q : ℤ) < size - 1

/-- `q` is one of the markers from `p` on: the next one, or one behind the segment of that. -/
inductive Mark (mem : ℕ → UInt8) (size : ℤ) (marker : UInt8) : ℕ → ℕ → Prop
  | here {p q : ℕ} : Next mem size p q → Mark mem size marker p q
  | there {p q q' : ℕ} : Next mem size p q' → Passes mem size marker q' → Mark mem size marker (behind mem q') q →
      Mark mem size marker p q

/-- The code of the marker at `q` and, unless it is the one that is looked for or has none, its length lie in the
image. -/
def Legible (mem : ℕ → UInt8) (n : ℕ) (marker : UInt8) (q : ℕ) : Prop :=
  q + 1 < n ∧ (mem (q + 1) = marker ∨ mem (q + 1) = mSoi ∨ q + 3 < n)

/-- The addresses below `n`. -/
def below (n : ℕ) (o : ℕ) : Bool := decide (o < n)

variable {q : ℕ}

theorem Next.unique {q' : ℕ} (h : Next mem size p q) (h' : Next mem size p q') : q = q' := by
  rcases Nat.lt_trichotomy q q' with hlt | rfl | hlt
  · exact absurd h.ff (h'.first q h.le hlt)
  · rfl
  · exact absurd h'.ff (h.first q' h'.le hlt)

theorem next_succ_iff (hff : mem p ≠ 0xff) (hsize : ((p + 1 : ℕ) : ℤ) < size - 1) :
    Next mem size (p + 1) q ↔ Next mem size p q := by
  refine ⟨fun h => ⟨Nat.le_of_succ_le h.le, h.ff, fun i hle hlt => ?_, .inr ?_⟩, fun h => ?_⟩
  · rcases Nat.eq_or_lt_of_le hle with rfl | hlt'
    · exact hff
    · exact h.first i hlt' hlt
  · rcases h.near with rfl | hnear
    · exact hsize
    · exact hnear
  · have hne : q ≠ p := fun heq => hff (heq ▸ h.ff)
    exact ⟨Nat.lt_of_le_of_ne h.le hne.symm, h.ff, fun i hle hlt => h.first i (Nat.le_of_succ_le hle) hlt,
      .inr (h.near.resolve_left hne)⟩

theorem scanFF_spec (fuel : ℕ) (hp : p < n) (hsize : size ≤ n) (hfuel : size.toNat - p < fuel) :
    (∃ q, Next mem size p q ∧ scanFF mem (below n) size fuel p = .ok (0xff, q + 1)) ∨
      (∀ q, ¬ Next mem size p q) ∧ ∃ found, scanFF mem (below n) size fuel p = .ok found ∧ found.1 ≠ 0xff := by
  induction fuel generalizing p with
  | zero => exact absurd hfuel (Nat.not_lt_zero _)
  | succ fuel ih =>
    have hread : read mem (below n) p = .ok (mem p) := read_of_ok (decide_eq_true hp)
    rw [scanFF, hread, bind_ok]
    by_cases hff : mem p = 0xff
    · refine .inl ⟨p, ⟨le_rfl, hff, fun i hle hlt => absurd hle (Nat.not_le.mpr hlt), .inl rfl⟩, ?_⟩
      rw [if_neg fun h => h.1 hff, hff]
    · by_cases hnext : ((p + 1 : ℕ) : ℤ) < size - 1
      · rw [if_pos ⟨hff, hnext⟩]
        simp only [← next_succ_iff hff hnext]
        exact ih (by omega) (by omega)
      · rw [if_neg fun h => hnext h.2]
        refine .inr ⟨fun q h => ?_, (mem p, p + 1), rfl, hff⟩
        have hne : q ≠ p := fun heq => hff (heq ▸ h.ff)
        have hlt := h.near.resolve_left hne
        have hle := h.le
        omega

theorem mark_iff {q' : ℕ} (h : Next mem size p q') :
    Mark mem size marker p q ↔ q = q' ∨ Passes mem size marker q' ∧ Mark mem size marker (behind mem q') q := by
  refine ⟨fun hmark => ?_, ?_⟩
  · cases hmark with
    | here hnext => exact .inl (hnext.unique h)
    | there hnext hpass hmark => exact .inr (hnext.unique h ▸ ⟨hpass, hmark⟩)
  · rintro (rfl | ⟨hpass, hmark⟩)
    · exact .here h
    · exact .there h hpass hmark

/-! ### A round of the scan -/

theorem skip_ok (h : mem (q + 1) = mSoi ∨ q + 3 < n) :
    skip mem (below n) (mem (q + 1)) (q + 1) = .ok (behind mem q) := by
  rw [skip, behind]
  by_cases hsoi : mem (q + 1) = mSoi
  · rw [if_neg fun hne => hne hsoi, if_neg fun hne => hne hsoi]
  · have hlt := h.resolve_left hsoi
    have hhi : read mem (below n) (q + 1 + 1) = .ok (mem (q + 2)) := read_of_ok (decide_eq_true (by omega))
    have hlo : read mem (below n) (q + 1 + 2) = .ok (mem (q + 3)) := read_of_ok (decide_eq_true (by omega))
    rw [if_pos hsoi, if_pos hsoi, hhi, bind_ok, hlo, bind_ok]

theorem skip_outside (h : ¬ (mem (q + 1) = mSoi ∨ q + 3 < n)) :
    ∃ o, skip mem (below n) (mem (q + 1)) (q + 1) = .error (.outside o) := by
  obtain ⟨hsoi, hlt⟩ := not_or.mp h
  have hlo : read mem (below n) (q + 1 + 2) = .error (.outside (q + 1 + 2)) :=
    read_of_not fun hin => hlt (of_decide_eq_true hin)
  rw [skip, if_pos hsoi]
  by_cases hhi : below n (q + 1 + 1) = true
  · exact ⟨_, by rw [read_of_ok hhi, bind_ok, hlo, bind_error]⟩
  · exact ⟨_, by rw [read_of_not hhi, bind_error]⟩

theorem scanMarker_last (hp : p < n) (hsize : size ≤ n) (h : ∀ q, ¬ Next mem size p q) :
    scanMarker mem (below n) size marker (fuel + 1) p = .ok none := by
  obtain ⟨q, hq, -⟩ | ⟨-, found, hfound, hff⟩ := scanFF_spec (size.toNat + 1) hp hsize (by omega)
  · exact absurd hq (h q)
  · rw [scanMarker, hfound, bind_ok, if_pos hff]

theorem scanMarker_next (fuel : ℕ) (hp : p < n) (hsize : size ≤ n) (h : Next mem size p q)
    (hlegible : Legible mem n marker q) :
    (mem (q + 1) = marker ∧ scanMarker mem (below n) size marker (fuel + 1) p = .ok (some (q + 2))) ∨
      (Passes mem size marker q ∧ scanMarker mem (below n) size marker (fuel + 1) p =
        scanMarker mem (below n) size marker fuel (behind mem q)) ∨
      (mem (q + 1) ≠ marker ∧ ¬ Passes mem size marker q ∧
        scanMarker mem (below n) size marker (fuel + 1) p = .ok none) := by
  obtain ⟨q', hq', hfound⟩ | ⟨hnone, -⟩ := scanFF_spec (size.toNat + 1) hp hsize (by omega)
  · obtain rfl := hq'.unique h
    have hbyte : read mem (below n) (q' + 1) = .ok (mem (q' + 1)) := read_of_ok (decide_eq_true hlegible.1)
    rw [scanMarker, hfound, bind_ok, if_neg fun hne => hne rfl, hbyte, bind_ok]
    by_cases hmarker : mem (q' + 1) = marker
    · rw [if_pos hmarker]
      exact .inl ⟨hmarker, rfl⟩
    · rw [if_neg hmarker, skip_ok (hlegible.2.resolve_left hmarker), bind_ok]
      by_cases hgoes : mem (q' + 1) ≠ mEoi ∧ (behind mem q' : ℤ) < size - 1
      · rw [if_pos hgoes]
        exact .inr (.inl ⟨⟨hmarker, hgoes.1, hgoes.2⟩, rfl⟩)
      · rw [if_neg hgoes]
        exact .inr (.inr ⟨hmarker, fun hpass => hgoes ⟨hpass.not_eoi, hpass.inside⟩, rfl⟩)
  · exact absurd h (hnone q)

theorem scanMarker_outside (fuel : ℕ) (hp : p < n) (hsize : size ≤ n) (h : Next mem size p q)
    (hlegible : ¬ Legible mem n marker q) :
    ∃ o, scanMarker mem (below n) size marker (fuel + 1) p = .error (.outside o) := by
  obtain ⟨q', hq', hfound⟩ | ⟨hnone, -⟩ := scanFF_spec (size.toNat + 1) hp hsize (by omega)
  · obtain rfl := hq'.unique h
    rw [scanMarker, hfound, bind_ok, if_neg fun hne => hne rfl]
    by_cases hlt : q' + 1 < n
    · have hbyte : read mem (below n) (q' + 1) = .ok (mem (q' + 1)) := read_of_ok (decide_eq_true hlt)
      obtain ⟨hmarker, hshort⟩ := not_or.mp fun hor => hlegible ⟨hlt, hor⟩
      obtain ⟨o, ho⟩ := skip_outside hshort
      exact ⟨o, by rw [hbyte, bind_ok, if_neg hmarker, ho, bind_error]⟩
    · exact ⟨q' + 1, by rw [read_of_not fun hin => hlt (of_decide_eq_true hin), bind_error]⟩
  · exact absurd h (hnone q)

theorem lt_behind (mem : ℕ → UInt8) (q : ℕ) : q < behind mem q := by
  rw [behind]
  split <;> omega

/-- What a run of the scan from `p` is: the markers are legible and the run finds the one that is looked for, if it is
one of them, or one of them is not legible and the run reads outside. -/
def Scanned (mem : ℕ → UInt8) (n : ℕ) (size : ℤ) (marker : UInt8) (p : ℕ) (run : Except Fault (Option ℕ)) : Prop :=
  (∃ app, run = .ok app ∧ (∀ q, Mark mem size marker p q → Legible mem n marker q) ∧
    ∀ a, app = some a ↔ ∃ q, Mark mem size marker p q ∧ mem (q + 1) = marker ∧ a = q + 2) ∨
  ∃ o q, run = .error (.outside o) ∧ Mark mem size marker p q ∧ ¬ Legible mem n marker q

theorem Scanned.of_passes {run : Except Fault (Option ℕ)} (hq : Next mem size p q)
    (hlegible : Legible mem n marker q) (hpass : Passes mem size marker q)
    (h : Scanned mem n size marker (behind mem q) run) : Scanned mem n size marker p run := by
  rcases h with ⟨app, hrun, hall, hsome⟩ | ⟨o, q', hrun, hmark, hnot⟩
  · refine .inl ⟨app, hrun, fun q' hq' => ?_, fun a => (hsome a).trans ⟨?_, ?_⟩⟩
    · rcases (mark_iff hq).mp hq' with rfl | ⟨-, hmark⟩
      · exact hlegible
      · exact hall q' hmark
    · exact fun ⟨q', hq', ha⟩ => ⟨q', .there hq hpass hq', ha⟩
    · rintro ⟨q', hq', hmarker, ha⟩
      rcases (mark_iff hq).mp hq' with rfl | ⟨-, hmark⟩
      · exact absurd hmarker hpass.other
      · exact ⟨q', hmark, hmarker, ha⟩
  · exact .inr ⟨o, q', hrun, .there hq hpass hmark, hnot⟩

/-- **A run of the scan.** -/
theorem scanMarker_spec (hp : p < n) (hsize : size ≤ n) (hfuel : size.toNat - p < fuel) :
    Scanned mem n size marker p (scanMarker mem (below n) size marker fuel p) := by
  induction fuel generalizing p with
  | zero => exact absurd hfuel (Nat.not_lt_zero _)
  | succ fuel ih =>
    by_cases hsome : ∃ q, Next mem size p q
    · obtain ⟨q, hq⟩ := hsome
      by_cases hlegible : Legible mem n marker q
      · have honly (hpass : ¬ Passes mem size marker q) {q' : ℕ} (hq' : Mark mem size marker p q') : q' = q :=
          ((mark_iff hq).mp hq').resolve_right fun h => hpass h.1
        obtain ⟨hmarker, hrun⟩ | ⟨hpass, hrun⟩ | ⟨hmarker, hpass, hrun⟩ := scanMarker_next fuel hp hsize hq hlegible
        · have hstops : ¬ Passes mem size marker q := fun hpass => hpass.other hmarker
          refine .inl ⟨_, hrun, fun q' hq' => honly hstops hq' ▸ hlegible, fun a => ⟨fun ha => ?_, ?_⟩⟩
          · exact ⟨q, .here hq, hmarker, (Option.some.inj ha).symm⟩
          · rintro ⟨q', hq', -, rfl⟩
            rw [honly hstops hq']
        · have hinside := hpass.inside
          have hlt := lt_behind mem q
          have hpq := hq.le
          exact hrun ▸ (ih (by omega) (by omega)).of_passes hq hlegible hpass
        · refine .inl ⟨_, hrun, fun q' hq' => honly hpass hq' ▸ hlegible, fun a => iff_of_false nofun ?_⟩
          rintro ⟨q', hq', hmarker', -⟩
          exact hmarker (honly hpass hq' ▸ hmarker')
      · obtain ⟨o, ho⟩ := scanMarker_outside fuel hp hsize hq hlegible
        exact .inr ⟨o, q, ho, .here hq, hlegible⟩
    · have hnone := not_exists.mp hsome
      have hno {q : ℕ} : ¬ Mark mem size marker p q := fun hq => by
        cases hq with
        | here hnext => exact hnone _ hnext
        | there hnext => exact hnone _ hnext
      exact .inl ⟨none, scanMarker_last hp hsize hnone, fun q hq => absurd hq hno,
        fun a => iff_of_false nofun fun ⟨q, hq, _⟩ => hno hq⟩

/-- **The scan reads nothing outside the image** just if its markers are legible, -/
theorem scanMarker_ok_iff (hp : p < n) (hsize : size ≤ n) (hfuel : size.toNat - p < fuel) :
    (∃ app, scanMarker mem (below n) size marker fuel p = .ok app) ↔
      ∀ q, Mark mem size marker p q → Legible mem n marker q := by
  obtain ⟨app, hrun, hall, -⟩ | ⟨o, q, hrun, hmark, hnot⟩ := scanMarker_spec hp hsize hfuel
  · exact iff_of_true ⟨app, hrun⟩ hall
  · exact iff_of_false (fun h => nomatch hrun.symm.trans h.choose_spec) fun h => hnot (h q hmark)

variable {app : Option ℕ}

theorem scanMarker_some_iff (hp : p < n) (hsize : size ≤ n) (hfuel : size.toNat - p < fuel)
    (h : scanMarker mem (below n) size marker fuel p = .ok app) (a : ℕ) :
    app = some a ↔ ∃ q, Mark mem size marker p q ∧ mem (q + 1) = marker ∧ a = q + 2 := by
  obtain ⟨app', hrun, -, hsome⟩ | ⟨o, q, hrun, -⟩ := scanMarker_spec hp hsize hfuel
  · obtain rfl := Except.ok.inj (hrun.symm.trans h)
    exact hsome a
  · exact nomatch hrun.symm.trans h

/-! ### The scan without the checks -/

variable {b : List UInt8}

theorem scanFF_eq {fuel' : ℕ} {found : UInt8 × ℕ}
    (h : scanFF (byteAt b) ok size fuel p = .ok found) (hfuel : size.toNat - p ≤ fuel') :
    Mpo.scanFF b size fuel' p = found := by
  induction fuel generalizing p fuel' with
  | zero => exact nomatch h
  | succ fuel ih =>
    obtain ⟨byte, hread, hrest⟩ := of_bind_ok h
    obtain rfl := eq_of_read hread
    split at hrest
    · rename_i hgoes
      obtain ⟨k, rfl⟩ : ∃ k, fuel' = k + 1 := ⟨fuel' - 1, by omega⟩
      rw [Mpo.scanFF, if_pos hgoes]
      exact ih hrest (by omega)
    · rename_i hstops
      rw [← Except.ok.inj hrest]
      cases fuel' with
      | zero => rfl
      | succ k => exact if_neg hstops

theorem skip_eq {next : ℕ} (h : skip (byteAt b) ok byte p = .ok next) :
    (if byte ≠ mSoi then p + readShortAddr b (p + 1) else p) = next := by
  rw [skip] at h
  split at h
  · rename_i hsoi
    obtain ⟨hi, hhi, h⟩ := of_bind_ok h
    obtain ⟨lo, hlo, h⟩ := of_bind_ok h
    rw [if_pos hsoi, ← Except.ok.inj h, ← eq_of_read hhi, ← eq_of_read hlo]
    rfl
  · rename_i hsoi
    rw [if_neg hsoi, Except.ok.inj h]

theorem scanMarker_eq (h : scanMarker (byteAt b) ok size marker fuel p = .ok app) :
    Mpo.scanMarker b size marker fuel p = app := by
  induction fuel generalizing p with
  | zero => exact nomatch h
  | succ fuel ih =>
    obtain ⟨found, hfound, h⟩ := of_bind_ok h
    rw [Mpo.scanMarker, scanFF_eq hfound le_rfl]
    split at h
    · rename_i hff
      exact (if_pos hff).trans (Except.ok.inj h)
    rename_i hff
    obtain ⟨byte, hread, h⟩ := of_bind_ok h
    obtain rfl := eq_of_read hread
    refine (if_neg hff).trans ?_
    split at h
    · rename_i hmarker
      exact (if_pos hmarker).trans (Except.ok.inj h)
    rename_i hmarker
    obtain ⟨next, hnext, h⟩ := of_bind_ok h
    refine (if_neg hmarker).trans ?_
    dsimp only
    rw [skip_eq hnext]
    split at h
    · rename_i hgoes
      exact (if_pos hgoes).trans (ih h)
    · rename_i hgoes
      exact (if_neg hgoes).trans (Except.ok.inj h)

/-- Where nothing is read outside the region, the checks change nothing. -/
theorem getAppMarker_eq (h : getAppMarker (byteAt b) ok size marker = .ok app) :
    Mpo.getAppMarker b size marker = app := scanMarker_eq h

end Marlin.Mpo.Checked
