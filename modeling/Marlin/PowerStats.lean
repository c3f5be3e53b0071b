import Mathlib.Data.List.Basic
import Mathlib.Algebra.Group.Nat.Defs

/-!
# Power Statistics

`extract_stats` goes through the lines of a file once and looks for its parameters one after the other: behind the
blanks the line starts with the name of the parameter, and the number is behind a colon. The colon is looked for in the
whole buffer of `getline`, which is longer than the line, and where no number is read the unset variable is stored.

## Conventions

* Text is bytes. A line comes with its line feed, and behind it in the buffer are a NUL and what happens to be there.
* `env` has, for each line, what is behind the NUL in the buffer and what the unset variable is.
* `sscanf` reads numbers of 64 bits: a greater one is read as the maximum, and a sign is allowed.
* The numbers are stored from `list[0]` on. `unset` and `beyond` tell if an unset variable was stored and if bytes
  behind the line were examined.

## Main results

* `extracts_iff`: what is stored are the numbers of the parameters, exactly if no line that starts with the name looked
  for is without a number.
-/

namespace Marlin

namespace PowerStats

open List

/-- The lines of a file, as `getline` reads them. -/
def getlines : List UInt8 → List (List UInt8)
  | [] => []
  | c :: cs =>
    if c = 10 then [c] :: getlines cs
    else
      match getlines cs with
      | [] => [[c]]
      | line :: lines => (c :: line) :: lines

/-- A digit, hexadecimal or decimal. -/
def digit (isHex : Bool) (c : UInt8) : Option ℕ :=
  if 48 ≤ c ∧ c ≤ 57 then some (c.toNat - 48)
  else if isHex ∧ 97 ≤ c ∧ c ≤ 102 then some (c.toNat - 87)
  else if isHex ∧ 65 ≤ c ∧ c ≤ 70 then some (c.toNat - 55)
  else none

/-- The digits at the front of a text. -/
def digits (isHex : Bool) (text : List UInt8) : List ℕ :=
  (text.takeWhile fun c => (digit isHex c).isSome).filterMap (digit isHex)

/-- `isspace`. -/
def isSpace (c : UInt8) : Bool := c == 32 || 9 ≤ c && c ≤ 13

/-- The text behind a sign, and if it is a minus. -/
def sign : List UInt8 → Bool × List UInt8
  | 45 :: text => (true, text)
  | 43 :: text => (false, text)
  | text => (false, text)

/-- The text behind `0x`, if there is a digit. -/
def hexPrefix (text : List UInt8) : List UInt8 :=
  match text with
  | 48 :: x :: rest => if (x = 120 ∨ x = 88) ∧ digits true rest ≠ [] then rest else text
  | _ => text

/-- `%llu` and `%llx` of `sscanf`. -/
def scanNumber (isHex : Bool) (text : List UInt8) : Option ℕ :=
  let (negative, text) := sign (text.dropWhile isSpace)
  let ds := digits isHex (if isHex then hexPrefix text else text)
  let value := ds.foldl (fun v d => (if isHex then 16 else 10) * v + d) 0
  if ds = [] then none
  else some (if 2 ^ 64 ≤ value then 2 ^ 64 - 1 else if negative then (2 ^ 64 - value) % 2 ^ 64 else value)

/-- The line starts with the name, behind the blanks. -/
def startsWith (name line : List UInt8) : Bool := name.isPrefixOf (line.dropWhile fun c => c == 32 || c == 9)

/-- The number behind the first colon of a text, which ends at a NUL. -/
def numberIn (isHex : Bool) (text : List UInt8) : Option ℕ :=
  match text.dropWhile (· != 58) with
  | [] => none
  | _ :: rest => scanNumber isHex (rest.takeWhile (· != 0))

/-- What was stored, and how. -/
structure Extracted where
  stored : List ℕ := []
  unset : Bool := false
  beyond : Bool := false

/-- The loop of `extract_stats`. -/
def extractLines (isHex : Bool) (env : ℕ → List UInt8 × ℕ) : List (List UInt8) → List (List UInt8) → Extracted
  | line :: lines, name :: names =>
    let buffer := line ++ 0 :: (env 0).1
    let later := extractLines isHex (fun n => env (n + 1)) lines
    if startsWith name line then
      if buffer.contains 58 then
        let number := numberIn isHex buffer
        let rest := later names
        { stored := number.getD (env 0).2 :: rest.stored
          unset := number.isNone || rest.unset
          beyond := !line.contains 58 || rest.beyond }
      else { later (name :: names) with beyond := true }
    else later (name :: names)
  | _, _ => {}

/-- `extract_stats`, for a file that can be opened. -/
def extractStats (isHex : Bool) (env : ℕ → List UInt8 × ℕ) (file : List UInt8) (names : List (List UInt8)) :
    Extracted :=
  extractLines isHex env (getlines file) names

/-- The numbers of the parameters, each from the first line behind the one before that starts with its name and has a
number. -/
def numbers (isHex : Bool) : List (List UInt8) → List (List UInt8) → List ℕ
  | line :: lines, name :: names =>
    match if startsWith name line then numberIn isHex line else none with
    | some number => number :: numbers isHex lines names
    | none => numbers isHex lines (name :: names)
  | _, _ => []

/-- **The parser is right**: it stores the numbers of the parameters, none is unset, and only the lines are examined. -/
def Extracts (isHex : Bool) (extracted : Extracted) (lines names : List (List UInt8)) : Prop :=
  extracted.stored = numbers isHex lines names ∧ extracted.unset = false ∧ extracted.beyond = false

/-- **The condition**: each line that starts with the name looked for has a number. -/
def Clean (isHex : Bool) : List (List UInt8) → List (List UInt8) → Prop
  | line :: lines, name :: names =>
    if startsWith name line then (numberIn isHex line).isSome = true ∧ Clean isHex lines names
    else Clean isHex lines (name :: names)
  | _, _ => True

variable {isHex : Bool} {line : List UInt8} {c : UInt8}

theorem numberIn_cons (h : c ≠ 58) : numberIn isHex (c :: line) = numberIn isHex line := by
  rw [numberIn, dropWhile_cons_of_pos (by simpa using h), numberIn]

theorem numberIn_eq_none (h : line.contains 58 = false) : numberIn isHex line = none := by
  induction line with
  | nil => rfl
  | cons c line ih =>
    simp only [contains_cons, Bool.or_eq_false_iff, beq_eq_false_iff_ne] at h
    rw [numberIn_cons h.1.symm, ih h.2]

theorem takeWhile_nul (text junk : List UInt8) :
    (text ++ 0 :: junk).takeWhile (· != 0) = text.takeWhile (· != 0) := by
  induction text with
  | nil => rfl
  | cons c text ih => simp only [cons_append, takeWhile_cons, ih]

theorem numberIn_append (h : line.contains 58 = true) (junk : List UInt8) :
    numberIn isHex (line ++ 0 :: junk) = numberIn isHex line := by
  induction line with
  | nil => cases h
  | cons c line ih =>
    by_cases hc : c = 58
    · rw [hc, cons_append, numberIn, numberIn, dropWhile_cons_of_neg (by decide), dropWhile_cons_of_neg (by decide)]
      dsimp only
      rw [takeWhile_nul]
    · rw [cons_append, numberIn_cons hc, numberIn_cons hc]
      refine ih ?_
      simpa [hc, Ne.symm hc] using h

/-- **When the parser is right**, for all files, parameters and what is in memory. -/
theorem extracts_iff (isHex : Bool) (env : ℕ → List UInt8 × ℕ) (file : List UInt8) (names : List (List UInt8)) :
    Extracts isHex (extractStats isHex env file names) (getlines file) names ↔ Clean isHex (getlines file) names := by
  rw [extractStats]
  induction getlines file generalizing env names with
  | nil => simp [Extracts, extractLines, numbers, Clean]
  | cons line lines ih =>
    cases names with
    | nil => simp [Extracts, extractLines, numbers, Clean]
    | cons name names =>
      have hrest := ih (fun n => env (n + 1))
      rw [Clean]
      split_ifs with hname
      · cases hcolon : line.contains 58 with
        | false =>
          -- the colon is looked for behind the line
          rw [numberIn_eq_none hcolon]
          refine iff_of_false (fun h => ?_) fun h => Bool.false_ne_true h.1
          have hbeyond := h.2.2
          rw [extractLines, if_pos hname] at hbeyond
          rw [contains_eq_mem, decide_eq_false_iff_not] at hcolon
          split at hbeyond <;> simp [hcolon] at hbeyond
        | true =>
          have hbuffer : (line ++ 0 :: (env 0).1).contains 58 = true := by simp_all
          rw [Extracts, extractLines, numbers, if_pos hname, if_pos hbuffer, if_pos hname, numberIn_append hcolon,
            hcolon]
          cases numberIn isHex line with
          | none => simp
          | some number => simp [← hrest, Extracts]
      · rw [← hrest, Extracts, Extracts, extractLines, numbers, if_neg hname, if_neg hname]

/-- A line without a colon, with a stale number behind it, and a line without a number. -/
theorem not_extracts :
    ¬ Extracts false (extractStats false (fun _ => ([58, 55], 9)) [97, 10] [[97]]) [[97, 10]] [[97]] ∧
    (extractStats false (fun _ => ([58, 55], 9)) [97, 10] [[97]]).stored = [7] ∧
    ¬ Extracts false (extractStats false (fun _ => ([], 9)) [97, 58, 10] [[97]]) [[97, 58, 10]] [[97]] ∧
    (extractStats false (fun _ => ([], 9)) [97, 58, 10] [[97]]).stored = [9] := by
  refine ⟨fun h => ?_, by decide, fun h => ?_, by decide⟩
  · exact absurd h.2.2 (by decide)
  · exact absurd h.2.1 (by decide)

end PowerStats

end Marlin
