import CcSwitchRouter.Lib.Calendar
import Mathlib

namespace Rfc3339

open Calendar

abbrev Byte := Fin 256

abbrev Text := List Byte

def ascii (c : Char) : Byte := Fin.ofNat 256 c.toNat

def digit (n : Nat) : Byte := Fin.ofNat 256 (48 + n % 10)

/-- The last `w` decimal digits of a number. -/
def digits : Nat → Nat → Text
  | 0, _ => []
  | w + 1, n => digits w (n / 10) ++ [digit n]

def offset : Text := "+00:00".toList.map ascii

def yearText (y : Int) : Text :=
  if 0 ≤ y ∧ y ≤ 9999 then digits 4 y.toNat
  else ascii (if y < 0 then '-' else '+') :: digits (max 4 (Nat.log 10 y.natAbs + 1)) y.natAbs

def dateText (d : Int) : Text :=
  yearText (monthOf d / 12) ++ ascii '-' :: (digits 2 (monthOf d % 12 + 1).toNat ++
    ascii '-' :: digits 2 (dayOfMonth d).toNat)

def timeText (second : Nat) : Text :=
  digits 2 (second / 3600) ++ ascii ':' :: (digits 2 (second / 60 % 60) ++
    ascii ':' :: digits 2 (second % 60))

def fractionText (nanos : Nat) : Text :=
  if nanos = 0 then []
  else if nanos % 1000000 = 0 then ascii '.' :: digits 3 (nanos / 1000000)
  else if nanos % 1000 = 0 then ascii '.' :: digits 6 (nanos / 1000)
  else ascii '.' :: digits 9 nanos

def toRfc3339 (t : Int) : Text :=
  let second := t / 1000000000
  dateText (second / 86400) ++ ascii 'T' :: (timeText (second % 86400).toNat ++
    (fractionText (t % 1000000000).toNat ++ offset))

def year (t : Int) : Int := monthOf (t / 1000000000 / 86400) / 12

/-! ### Order of texts -/

section Lists

variable {β : Type*} [LT β]

theorem append_lt {a a' b b' : List β} (hlen : a.length = a'.length) (h : a < a') :
    a ++ b < a' ++ b' := by
  induction a generalizing a' with
  | nil =>
    rw [List.length_nil, eq_comm, List.length_eq_zero_iff] at hlen
    rw [hlen] at h
    exact absurd h (List.not_lt_nil _)
  | cons x a ih =>
    cases a' with
    | nil => cases hlen
    | cons x' a' =>
      rw [List.cons_append, List.cons_append, List.cons_lt_cons_iff]
      rcases List.cons_lt_cons_iff.1 h with hx | ⟨hx, ha⟩
      · exact .inl hx
      · exact .inr ⟨hx, ih (Nat.succ.inj hlen) ha⟩

theorem append_lt_of_eq {a a' b b' : List β} (ha : a = a') (h : b < b') : a ++ b < a' ++ b' := by
  subst ha
  exact List.append_left_lt h

theorem cons_lt_of_lt {x : β} {a a' : List β} (h : a < a') : x :: a < x :: a' :=
  List.cons_lt_cons_iff.2 (.inr ⟨rfl, h⟩)

end Lists

theorem digit_val (n : Nat) : (digit n).val = 48 + n % 10 := by
  simp only [digit, Fin.ofNat]
  omega

@[simp] theorem length_digits (w n : Nat) : (digits w n).length = w := by
  induction w generalizing n with
  | zero => rfl
  | succ w ih => rw [digits, List.length_append, ih, List.length_singleton]

theorem digits_add (a b n : Nat) : digits (a + b) n = digits a (n / 10 ^ b) ++ digits b n := by
  induction b generalizing n with
  | zero => simp [digits]
  | succ b ih =>
    rw [← Nat.add_assoc, digits, ih, digits, List.append_assoc, Nat.div_div_eq_div_mul,
      Nat.pow_succ']

theorem digits_lt {w n m : Nat} (h : n < m) (hm : m < 10 ^ w) : digits w n < digits w m := by
  induction w generalizing n m with
  | zero =>
    rw [Nat.pow_zero] at hm
    omega
  | succ w ih =>
    rw [digits, digits]
    by_cases htens : n / 10 < m / 10
    · apply append_lt
      · rw [length_digits, length_digits]
      · apply ih htens
        rw [Nat.pow_succ] at hm
        omega
    · have heq : n / 10 = m / 10 := by omega
      apply append_lt_of_eq (congrArg _ heq)
      rw [List.cons_lt_cons_iff]
      left
      rw [Fin.lt_def, digit_val, digit_val]
      omega

theorem offset_append_lt_digits {k : Nat} (hk : 0 < k) (n : Nat) (rest : Text) :
    offset < digits k n ++ rest := by
  obtain ⟨j, rfl⟩ := Nat.exists_eq_add_of_lt hk
  rw [show 0 + j + 1 = 1 + j by omega, digits_add, List.append_assoc]
  change ascii '+' :: _ < digit (n / 10 ^ j) :: _
  rw [List.cons_lt_cons_iff]
  left
  rw [Fin.lt_def, digit_val]
  have hplus : (ascii '+').val = 43 := by decide
  omega

theorem fraction_lt {w v n m : Nat} (hw : w ≤ 9) (hv : v ≤ 9) (hn : 10 ^ (9 - w) ∣ n)
    (hm : 10 ^ (9 - v) ∣ m) (h : n < m) (hlt : m < 10 ^ 9) :
    digits w (n / 10 ^ (9 - w)) ++ offset < digits v (m / 10 ^ (9 - v)) ++ offset := by
  have hbound : ∀ u x, u ≤ 9 → x < 10 ^ 9 → x / 10 ^ (9 - u) < 10 ^ u := by
    intro u x hu hx
    rw [Nat.div_lt_iff_lt_mul (Nat.pow_pos (by decide)), ← Nat.pow_add]
    rwa [Nat.add_sub_cancel' hu]
  rcases Nat.lt_or_ge v w with hvw | hwv
  · -- the larger number has fewer digits: it is decided within them
    obtain ⟨k, rfl⟩ := Nat.exists_eq_add_of_lt hvw
    have hstrict : n / 10 ^ (9 - v) < m / 10 ^ (9 - v) := Nat.div_lt_div_of_lt_of_dvd hm h
    rw [Nat.add_assoc, digits_add, List.append_assoc]
    apply append_lt
    · rw [length_digits, length_digits]
    · have hdiv : n / 10 ^ (9 - (v + (k + 1))) / 10 ^ (k + 1) = n / 10 ^ (9 - v) := by
        rw [Nat.div_div_eq_div_mul, ← Nat.pow_add]
        congr 2
        omega
      rw [hdiv]
      exact digits_lt hstrict (hbound v m hv hlt)
  · obtain ⟨k, rfl⟩ := Nat.exists_eq_add_of_le hwv
    have hdiv : m / 10 ^ (9 - (w + k)) / 10 ^ k = m / 10 ^ (9 - w) := by
      rw [Nat.div_div_eq_div_mul, ← Nat.pow_add]
      congr 2
      omega
    rw [digits_add, List.append_assoc, hdiv]
    rcases Nat.lt_or_ge (n / 10 ^ (9 - w)) (m / 10 ^ (9 - w)) with hlt' | hge
    · apply append_lt
      · rw [length_digits, length_digits]
      · exact digits_lt hlt' (hbound w m hw hlt)
    · have heq : n / 10 ^ (9 - w) = m / 10 ^ (9 - w) :=
        Nat.le_antisymm (Nat.div_le_div_right (Nat.le_of_lt h)) hge
      rw [heq]
      apply append_lt_of_eq rfl
      apply offset_append_lt_digits
      apply Nat.pos_of_ne_zero
      rintro rfl
      -- with the same digits both numbers are the same
      have hsame : n = m := by
        rw [← Nat.div_mul_cancel hn, heq]
        exact Nat.div_mul_cancel hm
      omega

theorem fractionText_pos {n : Nat} (h : 0 < n) : ∃ w ≤ 9, 10 ^ (9 - w) ∣ n ∧
    fractionText n = ascii '.' :: digits w (n / 10 ^ (9 - w)) := by
  rw [fractionText, if_neg (Nat.ne_of_gt h)]
  split
  · exact ⟨3, by decide, by omega, rfl⟩
  · split
    · exact ⟨6, by decide, by omega, rfl⟩
    · exact ⟨9, by decide, by omega, by simp⟩

theorem fractionText_lt {n m : Nat} (h : n < m) (hm : m < 10 ^ 9) :
    fractionText n ++ offset < fractionText m ++ offset := by
  obtain ⟨v, hv, hdvd, hmtext⟩ := fractionText_pos (Nat.lt_of_le_of_lt (Nat.zero_le n) h)
  rw [hmtext]
  rcases Nat.eq_zero_or_pos n with rfl | hn
  · change ascii '+' :: _ < ascii '.' :: _
    rw [List.cons_lt_cons_iff]
    left
    decide
  · obtain ⟨w, hw, hndvd, hntext⟩ := fractionText_pos hn
    rw [hntext, List.cons_append, List.cons_append]
    exact cons_lt_of_lt (fraction_lt hw hv hndvd hdvd h hm)

@[simp] theorem length_timeText (second : Nat) : (timeText second).length = 8 := by
  simp [timeText]

theorem timeText_lt {n m : Nat} (h : n < m) (hm : m < 86400) : timeText n < timeText m := by
  rw [timeText, timeText]
  rcases Nat.lt_or_ge (n / 3600) (m / 3600) with hhour | hhour
  · apply append_lt
    · rw [length_digits, length_digits]
    · apply digits_lt hhour
      omega
  · have heq : n / 3600 = m / 3600 := by omega
    rw [heq]
    apply append_lt_of_eq rfl
    apply cons_lt_of_lt
    rcases Nat.lt_or_ge (n / 60 % 60) (m / 60 % 60) with hminute | hminute
    · apply append_lt
      · rw [length_digits, length_digits]
      · apply digits_lt hminute
        omega
    · have heq' : n / 60 % 60 = m / 60 % 60 := by omega
      rw [heq']
      apply append_lt_of_eq rfl
      apply cons_lt_of_lt
      apply digits_lt
      · omega
      · omega

theorem monthStart_strictMono : StrictMono monthStart := by
  apply strictMono_int_of_lt_succ
  intro m
  have h := daysInMonth_pos m
  rw [daysInMonth] at h
  omega

theorem monthOf_mono {d d' : Int} (h : d ≤ d') : monthOf d ≤ monthOf d' := by
  have hlow := monthStart_monthOf_le d
  have hup := lt_monthStart_succ d'
  have hlt : monthOf d < monthOf d' + 1 := by
    apply monthStart_strictMono.lt_iff_lt.1
    omega
  omega

theorem yearText_of_range {y : Int} (h0 : 0 ≤ y) (h : y ≤ 9999) : yearText y = digits 4 y.toNat :=
  if_pos ⟨h0, h⟩

theorem length_dateText {d : Int} (h0 : 0 ≤ monthOf d / 12) (h : monthOf d / 12 ≤ 9999) :
    (dateText d).length = 10 := by
  simp [dateText, yearText_of_range h0 h]

theorem dateText_lt {d d' : Int} (hd : d < d') (h0 : 0 ≤ monthOf d / 12)
    (h : monthOf d' / 12 ≤ 9999) : dateText d < dateText d' := by
  have hmonth := monthOf_mono (Int.le_of_lt hd)
  rw [dateText, dateText, yearText_of_range h0 (by omega), yearText_of_range (by omega) h]
  rcases Int.lt_or_le (monthOf d / 12) (monthOf d' / 12) with hyear | hyear
  · apply append_lt
    · rw [length_digits, length_digits]
    · apply digits_lt
      · omega
      · omega
  · have heq : monthOf d / 12 = monthOf d' / 12 := by omega
    rw [heq]
    apply append_lt_of_eq rfl
    apply cons_lt_of_lt
    rcases Int.lt_or_le (monthOf d % 12) (monthOf d' % 12) with hm | hm
    · apply append_lt
      · rw [length_digits, length_digits]
      · apply digits_lt
        · omega
        · omega
    · have heq' : monthOf d = monthOf d' := by omega
      have hday := dayOfMonth_bounds d'
      have hmax := daysInMonth_le (monthOf d')
      have hdays : dayOfMonth d < dayOfMonth d' := by
        rw [dayOfMonth, dayOfMonth, heq']
        omega
      have hpos := (dayOfMonth_bounds d).1
      rw [heq']
      apply append_lt_of_eq rfl
      apply cons_lt_of_lt
      apply digits_lt
      · omega
      · omega

theorem toRfc3339_lt_of_lt {s t : Int} (hst : s < t) (hs : 0 ≤ year s) (ht : year t ≤ 9999) :
    toRfc3339 s < toRfc3339 t := by
  have hdays : s / 1000000000 / 86400 ≤ t / 1000000000 / 86400 := by omega
  have hmonths := monthOf_mono hdays
  rw [year] at hs ht
  simp only [toRfc3339]
  rcases Int.lt_or_le (s / 1000000000 / 86400) (t / 1000000000 / 86400) with hday | hday
  · apply append_lt
    · rw [length_dateText hs (by omega), length_dateText (by omega) ht]
    · exact dateText_lt hday hs ht
  · have heq : s / 1000000000 / 86400 = t / 1000000000 / 86400 := by omega
    rw [heq]
    apply append_lt_of_eq rfl
    apply cons_lt_of_lt
    rcases Int.lt_or_le (s / 1000000000) (t / 1000000000) with hsecond | hsecond
    · apply append_lt
      · rw [length_timeText, length_timeText]
      · apply timeText_lt
        · omega
        · omega
    · have heq' : s / 1000000000 = t / 1000000000 := by omega
      rw [heq']
      apply append_lt_of_eq rfl
      apply fractionText_lt
      · omega
      · omega

def InYears (t : Int) : Prop := 0 ≤ year t ∧ year t ≤ 9999

instance : DecidablePred InYears := fun _ => inferInstanceAs (Decidable (_ ∧ _))

theorem length_toRfc3339 {t : Int} (h : InYears t) : (toRfc3339 t).length ∈ [25, 29, 32, 35] := by
  have hoffset : offset.length = 6 := by decide
  simp only [toRfc3339, List.length_append, List.length_cons, length_dateText h.1 h.2,
    length_timeText, hoffset, fractionText]
  split
  · decide
  · split
    · simp
    · split
      · simp
      · simp

theorem toRfc3339_strictMonoOn : StrictMonoOn toRfc3339 {t | InYears t} := by
  intro s hs t ht hst
  exact toRfc3339_lt_of_lt hst hs.1 ht.2

end Rfc3339
