import Mathlib

namespace Framing

variable {α : Type}

/-- A way to recognise the delimiters of a stream: `at? xs` is the length of the delimiter that `xs`
starts with. The first `window` symbols decide, and a delimiter that is still incomplete is not
followed by a complete one. -/
structure Delimiter (α : Type) where
  at? : List α → Option Nat
  window : Nat
  pos : ∀ {xs n}, at? xs = some n → 0 < n
  fits : ∀ {xs n}, at? xs = some n → n ≤ xs.length
  append : ∀ {xs n} ys, at? xs = some n → at? (xs ++ ys) = some n
  whole : ∀ {xs ys n}, at? (xs ++ ys) = some n → n ≤ xs.length → at? xs = some n
  decided : ∀ {xs} ys, window ≤ xs.length → at? (xs ++ ys) = at? xs
  first : ∀ {xs ys n m} i, at? (xs ++ ys) = some n → at? (xs.drop i) = some m → at? xs = some n

variable (d : Delimiter α) {xs ys : List α} {s i n : Nat}

def Delimiter.boundary? (xs : List α) (start : Nat) : Option (Nat × Nat) :=
  (List.range' start (xs.length - start)).findSome? fun i => (d.at? (xs.drop i)).map fun n => (i, n)

namespace Delimiter

variable {d}

theorem at?_nil : d.at? [] = none := by
  cases h : d.at? [] with
  | none => rfl
  | some n =>
    have hpos := d.pos h
    have hle := d.fits h
    simp only [List.length_nil] at hle
    omega

theorem at?_drop_length (h : d.at? (xs.drop i) = some n) : i + n ≤ xs.length ∧ 0 < n := by
  have hpos := d.pos h
  have hle := d.fits h
  rw [List.length_drop] at hle
  omega

theorem boundary?_eq_none : d.boundary? xs s = none ↔ ∀ j, s ≤ j → d.at? (xs.drop j) = none := by
  simp only [boundary?, List.findSome?_eq_none_iff, List.mem_range'_1, Option.map_eq_none_iff]
  constructor
  · intro h j hj
    by_cases hlt : j < xs.length
    · exact h j ⟨hj, by omega⟩
    · rw [List.drop_eq_nil_of_le (by omega)]
      exact at?_nil
  · intro h j hj
    exact h j hj.1

theorem findSome?_range'_eq_some {β : Type} {f : Nat → Option β} {b : β} {k : Nat} :
    (List.range' s k).findSome? f = some b ↔
      ∃ i, s ≤ i ∧ i < s + k ∧ f i = some b ∧ ∀ j, s ≤ j → j < i → f j = none := by
  induction k generalizing s with
  | zero =>
    simp only [List.range'_zero, List.findSome?_nil, reduceCtorEq, false_iff]
    rintro ⟨i, hs, hlt, -⟩
    omega
  | succ k ih =>
    rw [List.range'_succ, List.findSome?_cons]
    cases hf : f s with
    | some c =>
      constructor
      · rintro ⟨⟩
        exact ⟨s, (Nat.le_refl _), by omega, hf, fun j hj hlt => by omega⟩
      · rintro ⟨i, hs, hlt, hi, hbefore⟩
        rcases Nat.eq_or_lt_of_le hs with rfl | hgt
        · rw [← hf, hi]
        · rw [hbefore s (Nat.le_refl _) hgt] at hf
          cases hf
    | none =>
      rw [ih]
      constructor
      · rintro ⟨i, hs, hlt, hi, hbefore⟩
        refine ⟨i, by omega, by omega, hi, fun j hj hji => ?_⟩
        rcases Nat.eq_or_lt_of_le hj with rfl | hgt
        · exact hf
        · exact hbefore j hgt hji
      · rintro ⟨i, hs, hlt, hi, hbefore⟩
        have hne : s ≠ i := by
          rintro rfl
          rw [hf] at hi
          cases hi
        exact ⟨i, by omega, by omega, hi, fun j hj hji => hbefore j (by omega) hji⟩

theorem boundary?_eq_some : d.boundary? xs s = some (i, n) ↔
    s ≤ i ∧ d.at? (xs.drop i) = some n ∧ ∀ j, s ≤ j → j < i → d.at? (xs.drop j) = none := by
  simp only [boundary?, findSome?_range'_eq_some, Option.map_eq_some_iff, Option.map_eq_none_iff]
  constructor
  · rintro ⟨j, hs, -, ⟨m, hm, heq⟩, hbefore⟩
    cases heq
    exact ⟨hs, hm, hbefore⟩
  · rintro ⟨hs, hm, hbefore⟩
    have hlen := at?_drop_length hm
    exact ⟨i, hs, by omega, ⟨n, hm, rfl⟩, hbefore⟩

theorem boundary?_bounds (h : d.boundary? xs s = some (i, n)) : i + n ≤ xs.length ∧ 0 < n :=
  at?_drop_length (boundary?_eq_some.1 h).2.1

theorem boundary?_append (h : d.boundary? xs 0 = some (i, n)) :
    d.boundary? (xs ++ ys) 0 = some (i, n) := by
  obtain ⟨-, hat, hbefore⟩ := boundary?_eq_some.1 h
  have hlen := at?_drop_length hat
  rw [boundary?_eq_some]
  refine ⟨Nat.zero_le _, ?_, fun j _ hj => ?_⟩
  · rw [List.drop_append_of_le_length (by omega)]
    exact d.append ys hat
  · rw [List.drop_append_of_le_length (by omega)]
    cases hstart : d.at? (xs.drop j ++ ys) with
    | none => rfl
    | some m =>
      -- a delimiter that only the new symbols complete would start before a complete one
      have hlater : d.at? ((xs.drop j).drop (i - j)) = some n := by
        rw [List.drop_drop, Nat.add_sub_cancel' (Nat.le_of_lt hj)]
        exact hat
      have hnow := d.first (i - j) hstart hlater
      rw [hbefore j (Nat.zero_le _) hj] at hnow
      cases hnow

theorem boundary?_resume (h : d.boundary? xs 0 = none) (hs : s ≤ xs.length + 1 - d.window) :
    d.boundary? (xs ++ ys) s = d.boundary? (xs ++ ys) 0 := by
  have hskip : ∀ j, j < s → d.at? ((xs ++ ys).drop j) = none := by
    intro j hj
    rw [List.drop_append_of_le_length (by omega), d.decided ys (by rw [List.length_drop]; omega)]
    exact boundary?_eq_none.1 h j (Nat.zero_le _)
  cases h' : d.boundary? (xs ++ ys) s with
  | none =>
    symm
    rw [boundary?_eq_none] at h' ⊢
    intro j _
    rcases Nat.lt_or_ge j s with hlt | hge
    · exact hskip j hlt
    · exact h' j hge
  | some p =>
    symm
    obtain ⟨hle, hat, hbefore⟩ := boundary?_eq_some.1 h'
    refine boundary?_eq_some.2 ⟨Nat.zero_le _, hat, fun j _ hj => ?_⟩
    rcases Nat.lt_or_ge j s with hlt | hge
    · exact hskip j hlt
    · exact hbefore j hge hj

theorem boundary?_ends_after (h : d.boundary? xs 0 = none)
    (h' : d.boundary? (xs ++ ys) 0 = some (i, n)) : xs.length < i + n := by
  obtain ⟨-, hat, -⟩ := boundary?_eq_some.1 h'
  by_contra hle
  have hpos := (at?_drop_length hat).2
  rw [List.drop_append_of_le_length (by omega)] at hat
  have hnow := d.whole hat (by rw [List.length_drop]; omega)
  rw [boundary?_eq_none.1 h i (Nat.zero_le _)] at hnow
  cases hnow

end Delimiter

/-! ### The frames of a stream -/

structure Frame (α : Type) where
  body : List α
  width : Nat
deriving DecidableEq, Repr

def Delimiter.frames (xs : List α) : List (Frame α) × List α :=
  match _h : d.boundary? xs 0 with
  | none => ([], xs)
  | some (i, n) =>
    let later := Delimiter.frames (xs.drop (i + n))
    (⟨xs.take i, i + n⟩ :: later.1, later.2)
termination_by xs.length
decreasing_by
  have := Delimiter.boundary?_bounds _h
  rw [List.length_drop]
  omega

namespace Delimiter

variable {d}

theorem frames_of_none (h : d.boundary? xs 0 = none) : d.frames xs = ([], xs) := by
  rw [frames]
  split
  · rfl
  · rename_i h'
    rw [h] at h'
    cases h'

theorem frames_of_some (h : d.boundary? xs 0 = some (i, n)) :
    d.frames xs = (⟨xs.take i, i + n⟩ :: (d.frames (xs.drop (i + n))).1,
      (d.frames (xs.drop (i + n))).2) := by
  rw [frames]
  split
  · rename_i h'
    rw [h] at h'
    cases h'
  · rename_i h'
    rw [h] at h'
    cases h'
    rfl

theorem frames_induct {motive : List α → Prop}
    (rest : ∀ xs, d.boundary? xs 0 = none → motive xs)
    (frame : ∀ xs i n, d.boundary? xs 0 = some (i, n) → motive (xs.drop (i + n)) → motive xs) :
    ∀ xs, motive xs := by
  intro xs
  induction hlen : xs.length using Nat.strongRecOn generalizing xs with
  | _ k ih =>
    cases h : d.boundary? xs 0 with
    | none => exact rest xs h
    | some p =>
      have hb := boundary?_bounds h
      apply frame xs p.1 p.2 h
      apply ih _ _ _ rfl
      rw [List.length_drop]
      omega

theorem frames_append : d.frames (xs ++ ys) =
    ((d.frames xs).1 ++ (d.frames ((d.frames xs).2 ++ ys)).1,
      (d.frames ((d.frames xs).2 ++ ys)).2) := by
  induction xs using frames_induct (d := d) with
  | rest xs h =>
    rw [frames_of_none h]
    rfl
  | frame xs i n h ih =>
    have hb := boundary?_bounds h
    rw [frames_of_some (boundary?_append h), frames_of_some h,
      List.take_append_of_le_length (by omega), List.drop_append_of_le_length (by omega), ih]
    rfl

theorem boundary?_frames_rest : d.boundary? (d.frames xs).2 0 = none := by
  induction xs using frames_induct (d := d) with
  | rest xs h =>
    rw [frames_of_none h]
    exact h
  | frame xs i n h ih =>
    rw [frames_of_some h]
    exact ih

theorem frames_length :
    ((d.frames xs).1.map Frame.width).sum + (d.frames xs).2.length = xs.length := by
  induction xs using frames_induct (d := d) with
  | rest xs h =>
    rw [frames_of_none h]
    simp only [List.map_nil, List.sum_nil, Nat.zero_add]
  | frame xs i n h ih =>
    have hb := boundary?_bounds h
    rw [List.length_drop] at ih
    rw [frames_of_some h]
    simp only [List.map_cons, List.sum_cons]
    omega

end Delimiter

/-! ### Places in the stream -/

structure Placed (α : Type) where
  body : List α
  stop : Nat
deriving DecidableEq, Repr

def place : Nat → List (Frame α) → List (Placed α)
  | _, [] => []
  | start, f :: fs => ⟨f.body, start + f.width⟩ :: place (start + f.width) fs

variable {start : Nat} {fs gs : List (Frame α)}

theorem place_append : place start (fs ++ gs) =
    place start fs ++ place (start + (fs.map Frame.width).sum) gs := by
  induction fs generalizing start with
  | nil => rfl
  | cons f fs ih =>
    simp only [List.cons_append, place, ih, List.map_cons, List.sum_cons, Nat.add_assoc]

theorem place_bounds {p : Placed α} (h : p ∈ place start fs) :
    start ≤ p.stop ∧ p.stop ≤ start + (fs.map Frame.width).sum := by
  induction fs generalizing start with
  | nil => cases h
  | cons f fs ih =>
    simp only [List.map_cons, List.sum_cons]
    rcases List.mem_cons.1 h with rfl | h
    · dsimp only
      omega
    · have := ih h
      omega

theorem place_frames_bounds {d : Delimiter α} (h : d.boundary? xs 0 = none) {p : Placed α}
    (hp : p ∈ place 0 (d.frames (xs ++ ys)).1) :
    xs.length < p.stop ∧ p.stop ≤ xs.length + ys.length := by
  have hlen : ((d.frames (xs ++ ys)).1.map Frame.width).sum + (d.frames (xs ++ ys)).2.length =
      (xs ++ ys).length := Delimiter.frames_length
  have hle := (place_bounds hp).2
  rw [List.length_append] at hlen
  refine ⟨?_, by omega⟩
  cases hb : d.boundary? (xs ++ ys) 0 with
  | none =>
    rw [Delimiter.frames_of_none hb] at hp
    cases hp
  | some b =>
    have hafter := Delimiter.boundary?_ends_after h hb
    rw [Delimiter.frames_of_some hb] at hp
    rcases List.mem_cons.1 hp with rfl | hp
    · dsimp only
      omega
    · have := (place_bounds hp).1
      dsimp only at this
      omega

end Framing
