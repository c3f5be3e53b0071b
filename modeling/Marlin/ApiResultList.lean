import Mathlib.Data.Fintype.EquivFin
import Marlin.SinglyLinked

/-!
# The List of the API Results

`signalAPIResult` walks to the last node of `m_apiResultList` and puts the result behind it. `waitAPIResult` walks
through the list with the node it comes to and the one before it, and unlinks and frees the first one that answers
its event.

## Conventions

* Of a result there is the event it answers, and the request it was produced for.
* A walk takes at most `n` nodes; it gives nothing where it needs more, or comes to a node that is not in memory.
* `malloc` gives the address of a node that is free.

## Main results

* `add_spec`, `add_isSome`: a result is put at the end of the list.
* `take_spec`, `take_isSome`: the first result that answers the event is taken out of the list.
-/

namespace Marlin

namespace ApiCalls

open List Function Option SinglyLinked

variable {ε : Type*}

/-- A call of the state machine: a number of its own, and the event. -/
structure Request (ε : Type*) where
  id : ℕ
  evt : ε
  deriving DecidableEq

/-- `qcamera_api_result_t`. -/
structure Result (ε : Type*) where
  request_api : ε
  request : Request ε
  deriving DecidableEq

/-- The nodes in memory, and `m_apiResultList`. -/
structure ResultList (ε : Type*) where
  mem : Memory ℕ (Result ε) := fun _ => none
  m_apiResultList : Option ℕ := none

namespace ResultList

/-- The list holds the results at these nodes. -/
def Has (l : ResultList ε) (xs : List (ℕ × Result ε)) : Prop := Holds l.mem l.m_apiResultList xs

/-- `while (apiResultList->next != NULL)`. -/
def last (mem : Memory ℕ (Result ε)) : ℕ → ℕ → Option ℕ
  | 0, _ => none
  | n + 1, list =>
    match mem list with
    | none => none
    | some node =>
      match node.next with
      | none => some list
      | some next => last mem n next

/-- What `signalAPIResult` does to the list, with the node that `malloc` gave. -/
def add (l : ResultList ε) (n apiResult : ℕ) (result : Result ε) : Option (ResultList ε) :=
  let mem := Function.update l.mem apiResult (some ⟨result, none⟩)
  match l.m_apiResultList with
  | none => some { mem := mem, m_apiResultList := some apiResult }
  | some first =>
    match last mem n first with
    | none => none
    | some list => some { l with mem := link mem list (some apiResult) }

section

variable [DecidableEq ε]

/-- `while (apiResultList != NULL)`: the node before the one that was found, and the one that was found. -/
def scan (mem : Memory ℕ (Result ε)) (api_evt : ε) : ℕ → ℕ → Option ℕ → Option (Option (ℕ × ℕ))
  | 0, _, _ => none
  | _ + 1, _, none => some none
  | n + 1, previous, some list =>
    match mem list with
    | none => none
    | some node =>
      if node.value.request_api = api_evt then some (some (previous, list))
      else scan mem api_evt n list node.next

/-- What `waitAPIResult` does to the list when it is awake: the result that it found, if there is one. -/
def take (l : ResultList ε) (n : ℕ) (api_evt : ε) : Option (Option (Result ε) × ResultList ε) :=
  match l.m_apiResultList with
  | none => some (none, l)
  | some first =>
    match scan l.mem api_evt n first (some first) with
    | none => none
    | some none => some (none, l)
    | some (some (previous, list)) =>
      (l.mem list).map fun node =>
        let mem := link l.mem previous node.next
        (some node.value,
          { mem := Function.update mem list none
            m_apiResultList := if list = first then node.next else some first })

end

variable {l l' : ResultList ε} {xs ys zs : List (ℕ × Result ε)} {mem : Memory ℕ (Result ε)} {a b n : ℕ}
  {x : Result ε} {p : Option ℕ}

/-! ### Signalling -/

theorem last_spec (h : Path mem (some a) xs none) (hlast : last mem n a = some b) : ∃ ys y, xs = ys ++ [(b, y)] := by
  induction n generalizing a xs with
  | zero => cases hlast
  | succ n ih =>
    cases xs with
    | nil => cases h
    | cons u us =>
      obtain ⟨ha, r, hu, hrest⟩ := h
      cases ha
      rw [last, hu] at hlast
      cases r with
      | none =>
        cases hlast
        cases us with
        | nil => exact ⟨[], u.2, rfl⟩
        | cons v vs => cases hrest.1
      | some c =>
        obtain ⟨ys, y, rfl⟩ := ih hrest hlast
        exact ⟨u :: ys, y, rfl⟩

theorem last_isSome (h : Path mem (some a) xs none) (hn : xs.length ≤ n) : (last mem n a).isSome = true := by
  induction xs generalizing a n with
  | nil => cases h
  | cons u us ih =>
    obtain ⟨ha, r, hu, hrest⟩ := h
    cases ha
    obtain ⟨n, rfl⟩ : ∃ m, n = m + 1 := ⟨n - 1, by rw [length_cons] at hn; omega⟩
    rw [last, hu]
    cases r with
    | none => rfl
    | some c => exact ih hrest (Nat.le_of_succ_le_succ hn)

theorem path_update (h : l.Has xs) (ha : l.mem a = none) (v : Option (Node ℕ (Result ε))) :
    Path (Function.update l.mem a v) l.m_apiResultList xs none := by
  refine h.path.congr fun c hc => update_of_ne ?_ ..
  rintro rfl
  exact h.notMem ha hc

/-- **Signalling** puts the result at the end of the list. -/
theorem add_spec (h : l.Has xs) (ha : l.mem a = none) (hadd : l.add n a x = some l') : l'.Has (xs ++ [(a, x)]) := by
  unfold Has at h ⊢
  unfold add at hadd
  cases hfirst : l.m_apiResultList with
  | none =>
    rw [hfirst] at hadd h
    cases hadd
    exact h.push x
  | some first =>
    have hpath := path_update h ha (some ⟨x, none⟩)
    rw [hfirst] at hadd h hpath
    dsimp only at hadd
    cases hlast : last (update l.mem a (some ⟨x, none⟩)) n first with
    | none =>
      rw [hlast] at hadd
      cases hadd
    | some b =>
      rw [hlast] at hadd
      cases hadd
      obtain ⟨ys, y, rfl⟩ := last_spec hpath hlast
      exact h.snoc ha x

/-- A result can be put in a list. -/
theorem add_isSome (h : l.Has xs) (ha : l.mem a = none) (x : Result ε) : (l.add xs.length a x).isSome = true := by
  unfold add
  cases hfirst : l.m_apiResultList with
  | none => rfl
  | some first =>
    have hpath := path_update h ha (some ⟨x, none⟩)
    rw [hfirst] at hpath
    obtain ⟨b, hb⟩ := isSome_iff_exists.1 (last_isSome hpath (Nat.le_refl _))
    dsimp only
    rw [hb]
    rfl

theorem exists_free (h : l.Has xs) : ∃ a, l.mem a = none := by
  obtain ⟨a, ha⟩ := Infinite.exists_notMem_finset (xs.map Prod.fst).toFinset
  exact ⟨a, by_contra fun hne => ha (mem_toFinset.2 (h.only a hne))⟩

/-! ### Taking a result -/

theorem ne_first {u : ℕ × Result ε} {first : ℕ} (h : Holds mem (some first) (ys ++ [u] ++ (a, x) :: zs)) :
    a ≠ first := by
  rintro rfl
  have hnot := h.nodup_remove.2
  cases ys with
  | nil | cons =>
    obtain rfl := some.inj h.first_eq
    exact hnot mem_cons_self

variable [DecidableEq ε] {evt : ε}

theorem scan_spec {r : Option (ℕ × ℕ)} (h : Path mem p xs none) (hscan : scan mem evt n b p = some r) :
    (r = none ∧ ∀ u ∈ xs, u.2.request_api ≠ evt) ∨
    ∃ ys a x zs, xs = ys ++ (a, x) :: zs ∧ (∀ u ∈ ys, u.2.request_api ≠ evt) ∧ x.request_api = evt ∧
      r = some (((ys.map Prod.fst).getLast?).getD b, a) := by
  induction n generalizing b p xs with
  | zero => cases hscan
  | succ n ih =>
    cases xs with
    | nil =>
      obtain rfl : p = none := h
      cases hscan
      exact .inl ⟨rfl, forall_mem_nil _⟩
    | cons u us =>
      obtain ⟨rfl, q, hu, hrest⟩ := h
      rw [scan, hu] at hscan
      dsimp only at hscan
      by_cases hevt : u.2.request_api = evt
      · rw [if_pos hevt] at hscan
        cases hscan
        exact .inr ⟨[], u.1, u.2, us, rfl, forall_mem_nil _, hevt, rfl⟩
      · rw [if_neg hevt] at hscan
        rcases ih hrest hscan with ⟨rfl, hnone⟩ | ⟨ys, a, x, zs, rfl, hys, hx, rfl⟩
        · exact .inl ⟨rfl, forall_mem_cons.2 ⟨hevt, hnone⟩⟩
        · refine .inr ⟨u :: ys, a, x, zs, rfl, forall_mem_cons.2 ⟨hevt, hys⟩, hx, ?_⟩
          cases hlast : (ys.map Prod.fst).getLast? with
          | none =>
            rw [getLast?_eq_none_iff, map_eq_nil_iff] at hlast
            rw [hlast]
            rfl
          | some c =>
            rw [map_cons, getLast?_cons, hlast]
            rfl

theorem scan_isSome (h : Path mem p xs none) (b : ℕ) : (scan mem evt (xs.length + 1) b p).isSome = true := by
  induction xs generalizing p b with
  | nil =>
    obtain rfl : p = none := h
    rfl
  | cons u us ih =>
    obtain ⟨rfl, q, hu, hrest⟩ := h
    rw [length_cons, scan, hu]
    dsimp only
    split
    · rfl
    · exact ih hrest u.1

/-- **Taking a result**: nothing is found and nothing changes, or the first result of the event is unlinked. -/
theorem take_spec {r : Option (Result ε)} (h : l.Has xs) (htake : l.take n evt = some (r, l')) :
    (r = none ∧ l' = l ∧ ∀ u ∈ xs, u.2.request_api ≠ evt) ∨
    ∃ ys a x zs, xs = ys ++ (a, x) :: zs ∧ x.request_api = evt ∧ r = some x ∧ l'.Has (ys ++ zs) := by
  unfold Has at h ⊢
  unfold take at htake
  cases hfirst : l.m_apiResultList with
  | none =>
    rw [hfirst] at htake h
    cases htake
    rw [h.nil_of_none]
    exact .inl ⟨rfl, rfl, forall_mem_nil _⟩
  | some first =>
    rw [hfirst] at htake h
    dsimp only at htake
    cases hscan : scan l.mem evt n first (some first) with
    | none =>
      rw [hscan] at htake
      cases htake
    | some found =>
      rw [hscan] at htake
      rcases scan_spec h.path hscan with ⟨rfl, hnone⟩ | ⟨ys, a, x, zs, rfl, -, hx, rfl⟩
      · cases htake
        exact .inl ⟨rfl, rfl, hnone⟩
      · obtain ⟨q, -, -, r, ha, -⟩ := path_append.1 h.path
        dsimp only at htake
        rw [ha] at htake
        cases htake
        refine .inr ⟨ys, a, x, zs, rfl, hx, rfl, ?_⟩
        rcases eq_nil_or_concat' ys with rfl | ⟨ys, ⟨b, y⟩, rfl⟩
        · -- the first node: it is linked to its own successor before it is freed
          obtain rfl := some.inj h.first_eq
          rw [if_pos rfl]
          exact h.removeFirst ha fun c hc => link_of_ne hc
        · have hlast : (((ys ++ [(b, y)]).map Prod.fst).getLast?).getD first = b := by simp
          rw [if_neg (ne_first h), hlast]
          rw [append_assoc] at h ⊢
          exact h.remove ha

/-- A caller that is awake can look through the list. -/
theorem take_isSome (h : l.Has xs) (evt : ε) : (l.take (xs.length + 1) evt).isSome = true := by
  unfold take
  cases hfirst : l.m_apiResultList with
  | none => rfl
  | some first =>
    have hpath := h.path
    rw [hfirst] at hpath
    have hscan : (scan l.mem evt (xs.length + 1) first (some first)).isSome = true := scan_isSome hpath first
    obtain ⟨found, hfound⟩ := isSome_iff_exists.1 hscan
    dsimp only
    rw [hfound]
    rcases scan_spec hpath hfound with ⟨rfl, -⟩ | ⟨ys, a, x, zs, rfl, -, -, rfl⟩
    · rfl
    · obtain ⟨q, -, -, r, ha, -⟩ := path_append.1 hpath
      dsimp only
      rw [ha]
      rfl

end ResultList

end ApiCalls

end Marlin
