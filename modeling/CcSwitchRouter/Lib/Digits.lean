import Mathlib.Algebra.Order.Field.Basic
import Mathlib.Algebra.Order.Field.Rat
import Mathlib.Data.Char
import Mathlib.Data.List.DropRight
import Mathlib.Order.Compare
import Mathlib.Tactic.FieldSimp
import Mathlib.Tactic.Linarith
import Mathlib.Tactic.Ring

namespace Digits

def digit (c : Char) : Nat := c.toNat - '0'.toNat

def value (xs : List Char) : Nat := xs.foldl (fun n c => n * 10 + digit c) 0

variable {xs ys : List Char} {c d : Char}

theorem foldl_eq (xs : List Char) (n : Nat) :
    xs.foldl (fun n c => n * 10 + digit c) n = n * 10 ^ xs.length + value xs := by
  induction xs generalizing n with
  | nil => simp [value]
  | cons c xs ih =>
    have hvalue : value (c :: xs) = (0 * 10 + digit c) * 10 ^ xs.length + value xs := ih _
    rw [List.foldl_cons, ih, hvalue, List.length_cons]
    ring

@[simp] theorem value_nil : value [] = 0 := rfl

theorem value_cons (c : Char) (xs : List Char) :
    value (c :: xs) = digit c * 10 ^ xs.length + value xs := by
  rw [value, List.foldl_cons, foldl_eq]
  ring

theorem value_append (xs ys : List Char) :
    value (xs ++ ys) = value xs * 10 ^ ys.length + value ys := by
  rw [value, List.foldl_append, foldl_eq]
  rfl

theorem value_replicate_zero (n : Nat) : value (List.replicate n '0') = 0 := by
  induction n with
  | zero => rfl
  | succ n ih =>
    rw [List.replicate_succ, value_cons, ih]
    exact Nat.zero_mul _

theorem value_dropWhile_zero (xs : List Char) : value (xs.dropWhile (· == '0')) = value xs := by
  induction xs with
  | nil => rfl
  | cons c xs ih =>
    by_cases hc : c = '0'
    · subst hc
      rw [List.dropWhile_cons_of_pos (by rfl), ih, value_cons]
      simp [digit]
    · rw [List.dropWhile_cons_of_neg (by simpa using hc)]

theorem head?_dropWhile_ne (xs : List Char) :
    (xs.dropWhile (· == '0')).head? ≠ some '0' := by
  induction xs with
  | nil => simp
  | cons c xs ih =>
    by_cases hc : c = '0'
    · subst hc
      rwa [List.dropWhile_cons_of_pos (by rfl)]
    · rw [List.dropWhile_cons_of_neg (by simpa using hc)]
      simpa using hc

theorem isDigit_iff : c.isDigit = true ↔ 48 ≤ c.toNat ∧ c.toNat ≤ 57 := by
  simp only [Char.isDigit, Bool.and_eq_true, decide_eq_true_eq, ge_iff_le,
    UInt32.le_iff_toNat_le]
  rfl

theorem digit_le (h : c.isDigit = true) : digit c ≤ 9 := by
  obtain ⟨-, hle⟩ := isDigit_iff.1 h
  have hzero : '0'.toNat = 48 := rfl
  rw [digit, hzero]
  omega

theorem value_lt (h : ∀ c ∈ xs, c.isDigit = true) : value xs < 10 ^ xs.length := by
  induction xs with
  | nil => exact Nat.one_pos
  | cons c xs ih =>
    have hc := digit_le (h c List.mem_cons_self)
    have hxs := ih fun d hd => h d (List.mem_cons_of_mem c hd)
    rw [value_cons, List.length_cons, pow_succ]
    nlinarith

theorem pow_le_value (h : ∀ c ∈ xs, c.isDigit = true) (hne : xs ≠ [])
    (hlead : xs.head? ≠ some '0') : 10 ^ (xs.length - 1) ≤ value xs := by
  cases xs with
  | nil => exact absurd rfl hne
  | cons c xs =>
    obtain ⟨hle, -⟩ := isDigit_iff.1 (h c List.mem_cons_self)
    have hc : c.toNat ≠ '0'.toNat := by
      intro heq
      exact hlead (congrArg some (Char.toNat_inj.1 heq))
    have hzero : '0'.toNat = 48 := rfl
    have hdigit : 1 ≤ digit c := by
      rw [digit]
      omega
    rw [value_cons, List.length_cons, Nat.add_sub_cancel]
    nlinarith [Nat.one_le_pow xs.length 10 (by decide)]

theorem value_eq_zero (h : ∀ c ∈ xs, c.isDigit = true) :
    value xs = 0 ↔ ∀ c ∈ xs, c = '0' := by
  constructor
  · intro hzero
    by_contra hne
    have hlead : (xs.dropWhile (· == '0')).head? ≠ some '0' := head?_dropWhile_ne xs
    have hdrop : xs.dropWhile (· == '0') ≠ [] := by
      intro hnil
      exact hne fun c hc => by simpa using List.dropWhile_eq_nil_iff.1 hnil c hc
    have hle := pow_le_value (fun c hc => h c ((List.dropWhile_suffix _).subset hc)) hdrop hlead
    rw [value_dropWhile_zero, hzero] at hle
    exact absurd hle (Nat.not_le.2 (Nat.pow_pos (by decide)))
  · intro hall
    rw [List.eq_replicate_of_mem hall, value_replicate_zero]

section Fraction

def fraction (xs : List Char) : ℚ := value xs / 10 ^ xs.length

theorem fraction_append_zeros (xs : List Char) (n : Nat) :
    fraction (xs ++ List.replicate n '0') = fraction xs := by
  rw [fraction, fraction, value_append, value_replicate_zero, List.length_append,
    List.length_replicate, pow_add]
  push_cast
  field_simp
  ring

theorem exists_trailing_zeros (xs : List Char) :
    ∃ n, xs = xs.rdropWhile (· == '0') ++ List.replicate n '0' := by
  induction xs using List.reverseRecOn with
  | nil => exact ⟨0, rfl⟩
  | append_singleton xs c ih =>
    by_cases hc : c = '0'
    · subst hc
      obtain ⟨n, hn⟩ := ih
      rw [List.rdropWhile_concat_pos _ _ _ (by rfl)]
      exact ⟨n + 1, by rw [List.replicate_succ', ← List.append_assoc, ← hn]⟩
    · rw [List.rdropWhile_concat_neg _ _ _ (by simpa using hc)]
      exact ⟨0, by simp⟩

theorem fraction_rdropWhile_zero (xs : List Char) :
    fraction (xs.rdropWhile (· == '0')) = fraction xs := by
  obtain ⟨n, hn⟩ := exists_trailing_zeros xs
  conv_rhs => rw [hn]
  rw [fraction_append_zeros]

theorem fraction_nonneg (xs : List Char) : 0 ≤ fraction xs := by
  unfold fraction
  positivity

theorem fraction_lt_one (h : ∀ c ∈ xs, c.isDigit = true) : fraction xs < 1 := by
  rw [fraction, div_lt_one (by positivity)]
  exact_mod_cast value_lt h

theorem fraction_eq_zero (h : ∀ c ∈ xs, c.isDigit = true) :
    fraction xs = 0 ↔ ∀ c ∈ xs, c = '0' := by
  have hpow : (10 : ℚ) ^ xs.length ≠ 0 := by positivity
  rw [← value_eq_zero h, fraction, div_eq_zero_iff, or_iff_left hpow, Nat.cast_eq_zero]

theorem fraction_append (xs ys : List Char) :
    fraction (xs ++ ys) * 10 ^ xs.length = value xs + fraction ys := by
  rw [fraction, fraction, value_append, List.length_append, pow_add]
  push_cast
  field_simp

theorem add_fraction_eq_intCast (h : ∀ c ∈ xs, c.isDigit = true) {m n : Int} :
    (m : ℚ) + fraction xs = n ↔ m = n ∧ ∀ c ∈ xs, c = '0' := by
  rw [← fraction_eq_zero h]
  constructor
  · intro heq
    have hnonneg := fraction_nonneg xs
    have hlt := fraction_lt_one h
    have hle : m ≤ n := by
      have : (m : ℚ) ≤ n := by linarith
      exact_mod_cast this
    have hge : n < m + 1 := by
      have : (n : ℚ) < m + 1 := by linarith
      exact_mod_cast this
    obtain rfl : m = n := by omega
    exact ⟨rfl, by linarith⟩
  · rintro ⟨rfl, hzero⟩
    rw [hzero, add_zero]

end Fraction

section Order

theorem compare_digit (hc : c.isDigit = true) (hd : d.isDigit = true) :
    compare c d = compare (digit c) (digit d) := by
  obtain ⟨hc, -⟩ := isDigit_iff.1 hc
  obtain ⟨hd, -⟩ := isDigit_iff.1 hd
  have hzero : '0'.toNat = 48 := rfl
  rcases lt_trichotomy c d with h | h | h
  · have hlt : c.toNat < d.toNat := h
    rw [compare_lt_iff_lt.2 h, compare_lt_iff_lt.2]
    rw [digit, digit]
    omega
  · subst h
    rw [compare_eq_iff_eq.2 rfl, compare_eq_iff_eq.2 rfl]
  · have hlt : d.toNat < c.toNat := h
    rw [compare_gt_iff_gt.2 h, compare_gt_iff_gt.2]
    rw [digit, digit]
    omega

theorem compare_then {a b m n B : Nat} (hm : m < B) (hn : n < B) :
    (compare a b).then (compare m n) = compare (a * B + m) (b * B + n) := by
  rcases lt_trichotomy a b with h | h | h
  · rw [compare_lt_iff_lt.2 h, Ordering.lt_then, compare_lt_iff_lt.2]
    nlinarith
  · subst h
    rw [compare_eq_iff_eq.2 rfl, Ordering.eq_then]
    rcases lt_trichotomy m n with h' | h' | h'
    · rw [compare_lt_iff_lt.2 h', compare_lt_iff_lt.2]
      omega
    · rw [h', compare_eq_iff_eq.2 rfl, compare_eq_iff_eq.2 rfl]
    · rw [compare_gt_iff_gt.2 h', compare_gt_iff_gt.2]
      omega
  · rw [compare_gt_iff_gt.2 h, Ordering.gt_then, compare_gt_iff_gt.2]
    nlinarith

theorem compare_of_length (hx : ∀ c ∈ xs, c.isDigit = true) (hy : ∀ c ∈ ys, c.isDigit = true)
    (h : xs.length = ys.length) : compare xs ys = compare (value xs) (value ys) := by
  induction xs generalizing ys with
  | nil =>
    obtain rfl := List.length_eq_zero_iff.1 h.symm
    rfl
  | cons c xs ih =>
    cases ys with
    | nil => cases h
    | cons d ys =>
      have hlen : xs.length = ys.length := Nat.succ.inj h
      have hxs : ∀ c ∈ xs, c.isDigit = true := fun e he => hx e (List.mem_cons_of_mem c he)
      have hys : ∀ c ∈ ys, c.isDigit = true := fun e he => hy e (List.mem_cons_of_mem d he)
      have hlt : value xs < 10 ^ ys.length := hlen ▸ value_lt hxs
      calc compare (c :: xs) (d :: ys)
          = (compare c d).then (compare xs ys) := List.compare_cons_cons
        _ = (compare (digit c) (digit d)).then (compare (value xs) (value ys)) := by
          rw [compare_digit (hx c List.mem_cons_self) (hy d List.mem_cons_self), ih hxs hys hlen]
        _ = compare (value (c :: xs)) (value (d :: ys)) := by
          rw [compare_then hlt (value_lt hys), value_cons, value_cons, hlen]

theorem value_lt_of_length (hx : ∀ c ∈ xs, c.isDigit = true) (hy : ∀ c ∈ ys, c.isDigit = true)
    (hlead : ys.head? ≠ some '0') (h : xs.length < ys.length) : value xs < value ys := by
  have hne : ys ≠ [] := by
    rintro rfl
    exact absurd h (Nat.not_lt_zero _)
  calc value xs < 10 ^ xs.length := value_lt hx
    _ ≤ 10 ^ (ys.length - 1) := Nat.pow_le_pow_right (by decide) (by omega)
    _ ≤ value ys := pow_le_value hy hne hlead

theorem compare_trimmed (hx : ∀ c ∈ xs, c.isDigit = true) (hy : ∀ c ∈ ys, c.isDigit = true)
    (hxl : xs.head? ≠ some '0') (hyl : ys.head? ≠ some '0') :
    (compare xs.length ys.length).then (compare xs ys) = compare (value xs) (value ys) := by
  rcases lt_trichotomy xs.length ys.length with h | h | h
  · rw [compare_lt_iff_lt.2 h, Ordering.lt_then,
      compare_lt_iff_lt.2 (value_lt_of_length hx hy hyl h)]
  · rw [compare_eq_iff_eq.2 h, Ordering.eq_then, compare_of_length hx hy h]
  · rw [compare_gt_iff_gt.2 h, Ordering.gt_then,
      compare_gt_iff_gt.2 (value_lt_of_length hy hx hxl h)]

end Order

end Digits
