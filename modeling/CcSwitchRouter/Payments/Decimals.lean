import CcSwitchRouter.Common
import CcSwitchRouter.Lib.Digits
import CcSwitchRouter.Lib.Ledger

namespace CcSwitchRouter.Dujiaopay

open Ledger (Fits checked checkedAdd checkedMul)

def unavailable (message : String) : AppError := .coded "DUJIAOPAY_UNAVAILABLE" message

/-- `str::len`, in bytes. -/
def byteLen (text : List Char) : Nat := (text.map Char.utf8Size).sum

/-- `value.split_once('.').unwrap_or((value, ""))`. -/
def splitOnce (value : String) : List Char × List Char :=
  (value.toList.takeWhile (· != '.'), (value.toList.dropWhile (· != '.')).drop 1)

def validDecimal (value : String) : Bool :=
  let (whole, fraction) := splitOnce value
  !whole.isEmpty
    && byteLen whole ≤ 24
    && whole.all Char.isDigit
    && (!value.toList.contains '.' || !fraction.isEmpty)
    && byteLen fraction ≤ 30
    && fraction.all Char.isDigit

/-- `str::parse::<i64>` of a text without a sign. -/
def parseI64 (text : List Char) : Option Int :=
  if text.isEmpty || !text.all Char.isDigit then none else checked (Digits.value text)

def centsOf : List Char → Option Int
  | [] => some 0
  | [tens] => some (Digits.digit tens * 10)
  | tens :: ones :: _ => parseI64 [tens, ones]

def parseGatewayFiatMinor (raw : String) : Except AppError Int :=
  if !validDecimal raw then .error (unavailable "DujiaoPay amount invalid")
  else
    let (whole, fraction) := splitOnce raw
    if byteLen fraction > 2 && (fraction.drop 2).any (· != '0') then
      .error (unavailable "DujiaoPay amount invalid")
    else
      match centsOf fraction with
      | none => .error (unavailable "DujiaoPay amount invalid")
      | some cents =>
        match ((parseI64 whole).bind (checkedMul · 100)).bind (checkedAdd · cents) with
        | none => .error (unavailable "DujiaoPay amount invalid")
        | some minor => .ok minor

/-- The inner `split` of `compare_decimal`. -/
def splitTrimmed (value : String) : List Char × List Char :=
  ((splitOnce value).1.dropWhile (· == '0'), (splitOnce value).2.rdropWhile (· == '0'))

/-- `format!("{text:0<width$}")`. -/
def padRight (text : List Char) (width : Nat) : List Char :=
  text ++ List.replicate (width - text.length) '0'

def compareDecimal (left right : String) : Option Ordering :=
  if !validDecimal left || !validDecimal right then none
  else
    let (leftWhole, leftFraction) := splitTrimmed left
    let (rightWhole, rightFraction) := splitTrimmed right
    let ordering := (compare (byteLen leftWhole) (byteLen rightWhole)).then
      (compare leftWhole rightWhole)
    if ordering ≠ .eq then some ordering
    else
      let width := max (byteLen leftFraction) (byteLen rightFraction)
      some (compare (padRight leftFraction width) (padRight rightFraction width))

structure Decimal where
  whole : List Char
  fraction : List Char
  whole_ne : whole ≠ []
  whole_le : whole.length ≤ 24
  fraction_le : fraction.length ≤ 30
  whole_digits : ∀ c ∈ whole, c.isDigit = true
  fraction_digits : ∀ c ∈ fraction, c.isDigit = true

namespace Decimal

/-- The numeral as written: a point stands only before a fraction. -/
def text (d : Decimal) : String :=
  String.ofList (if d.fraction = [] then d.whole else d.whole ++ '.' :: d.fraction)

def number (d : Decimal) : ℚ := Digits.value d.whole + Digits.fraction d.fraction

end Decimal

section Texts

variable {text : List Char}

theorem byteLen_eq (h : ∀ c ∈ text, c.isDigit = true) : byteLen text = text.length := by
  induction text with
  | nil => rfl
  | cons c text ih =>
    have hsize : c.utf8Size = 1 := by
      obtain ⟨-, hle⟩ := Digits.isDigit_iff.1 (h c List.mem_cons_self)
      have hval : c.val ≤ 0x7F := UInt32.le_iff_toNat_le.2 (le_trans hle (by decide))
      simp [Char.utf8Size, hval]
    have hrest : byteLen text = text.length := ih fun d hd => h d (List.mem_cons_of_mem c hd)
    simp only [byteLen, List.map_cons, List.sum_cons, List.length_cons] at hrest ⊢
    omega

theorem ne_point (h : ∀ c ∈ text, c.isDigit = true) : ∀ c ∈ text, (c != '.') = true := by
  intro c hc
  have hdigit := h c hc
  simp only [bne_iff_ne, ne_eq]
  rintro rfl
  exact absurd hdigit (by decide)

theorem parseI64_digits (h : ∀ c ∈ text, c.isDigit = true) (hne : text ≠ []) :
    parseI64 text = checked (Digits.value text) := by
  simp [parseI64, hne, List.all_eq_true.2 h]

end Texts

section Numerals

variable (d : Decimal)

theorem toList_text : d.text.toList =
    if d.fraction = [] then d.whole else d.whole ++ '.' :: d.fraction :=
  String.toList_ofList

theorem splitOnce_text : splitOnce d.text = (d.whole, d.fraction) := by
  have hwhole := ne_point d.whole_digits
  rw [splitOnce, toList_text]
  split
  · next h =>
    rw [List.takeWhile_eq_self_iff.2 hwhole, List.dropWhile_eq_nil_iff.2 hwhole, h]
    rfl
  · rw [List.takeWhile_append_of_pos hwhole, List.dropWhile_append_of_pos hwhole]
    simp

theorem validDecimal_text : validDecimal d.text = true := by
  have hpoint : '.' ∈ d.text.toList → d.fraction ≠ [] := by
    intro hmem hnil
    rw [toList_text, if_pos hnil] at hmem
    exact absurd (ne_point d.whole_digits _ hmem) (by decide)
  simp only [validDecimal, splitOnce_text, byteLen_eq d.whole_digits,
    byteLen_eq d.fraction_digits, Bool.and_eq_true, Bool.or_eq_true, Bool.not_eq_true',
    List.isEmpty_eq_false_iff, decide_eq_true_eq, List.all_eq_true, List.contains_eq_mem,
    decide_eq_false_iff_not]
  exact ⟨⟨⟨⟨⟨d.whole_ne, d.whole_le⟩, d.whole_digits⟩, Classical.or_iff_not_imp_left.2
    fun h => hpoint (not_not.1 h)⟩, d.fraction_le⟩, d.fraction_digits⟩

end Numerals

/-- What `valid_decimal` accepts is the text of a numeral. -/
theorem exists_decimal {value : String} (h : validDecimal value = true) :
    ∃ d : Decimal, d.text = value := by
  simp only [validDecimal, Bool.and_eq_true, Bool.or_eq_true, Bool.not_eq_true',
    List.isEmpty_eq_false_iff, decide_eq_true_eq, List.all_eq_true, List.contains_eq_mem,
    decide_eq_false_iff_not] at h
  obtain ⟨⟨⟨⟨⟨hne, hwl⟩, hwd⟩, hpoint⟩, hfl⟩, hfd⟩ := h
  rw [byteLen_eq hwd] at hwl
  rw [byteLen_eq hfd] at hfl
  let d : Decimal := ⟨_, _, hne, hwl, hfl, hwd, hfd⟩
  have hsplit := List.takeWhile_append_dropWhile (p := (· != '.')) (l := value.toList)
  refine ⟨d, String.toList_inj.1 ?_⟩
  rw [toList_text]
  cases hrest : value.toList.dropWhile (· != '.') with
  | nil =>
    have hfraction : d.fraction = [] := by simp [d, splitOnce, hrest]
    rw [if_pos hfraction]
    rw [hrest, List.append_nil] at hsplit
    exact hsplit
  | cons c rest =>
    have hc : c = '.' := by
      have := List.head?_dropWhile_not (· != '.') value.toList
      simpa [hrest] using this
    subst hc
    have hmem : '.' ∈ value.toList := by
      rw [← hsplit, hrest]
      simp
    have hfraction : d.fraction = rest := by simp [d, splitOnce, hrest]
    rw [if_neg (hpoint.resolve_left (not_not.2 hmem)), hfraction, ← hrest]
    exact hsplit

theorem validDecimal_iff {value : String} :
    validDecimal value = true ↔ ∃ d : Decimal, d.text = value := by
  constructor
  · exact exists_decimal
  · rintro ⟨d, rfl⟩
    exact validDecimal_text d

section Compare

variable {xs : List Char}

theorem length_padRight {width : Nat} (h : xs.length ≤ width) :
    (padRight xs width).length = width := by
  rw [padRight, List.length_append, List.length_replicate]
  omega

theorem padRight_digits (width : Nat) (h : ∀ c ∈ xs, c.isDigit = true) :
    ∀ c ∈ padRight xs width, c.isDigit = true := by
  intro c hc
  rcases List.mem_append.1 hc with hc | hc
  · exact h c hc
  · obtain rfl := List.eq_of_mem_replicate hc
    rfl

theorem number_scaled (d : Decimal) {width : Nat}
    (h : (d.fraction.rdropWhile (· == '0')).length ≤ width) :
    d.number * 10 ^ width = ((Digits.value (d.whole.dropWhile (· == '0')) * 10 ^ width
      + Digits.value (padRight (d.fraction.rdropWhile (· == '0')) width) : Nat) : ℚ) := by
  have hpad : Digits.fraction d.fraction
      = Digits.fraction (padRight (d.fraction.rdropWhile (· == '0')) width) := by
    rw [padRight, Digits.fraction_append_zeros, Digits.fraction_rdropWhile_zero]
  rw [Decimal.number, hpad, Digits.fraction, length_padRight h, Digits.value_dropWhile_zero]
  push_cast
  field_simp

theorem then_of_eq {o p : Ordering} : (if o ≠ .eq then some o else some p) = some (o.then p) := by
  cases o <;> rfl

theorem compareDecimal_text (l r : Decimal) :
    compareDecimal l.text r.text = some (compare l.number r.number) := by
  -- `trim_start_matches` and `trim_end_matches` keep digits only
  have hlw : ∀ c ∈ l.whole.dropWhile (· == '0'), c.isDigit = true := fun c hc =>
    l.whole_digits c ((List.dropWhile_suffix _).subset hc)
  have hrw : ∀ c ∈ r.whole.dropWhile (· == '0'), c.isDigit = true := fun c hc =>
    r.whole_digits c ((List.dropWhile_suffix _).subset hc)
  have hlf : ∀ c ∈ l.fraction.rdropWhile (· == '0'), c.isDigit = true := fun c hc =>
    l.fraction_digits c ((List.rdropWhile_prefix _ _).subset hc)
  have hrf : ∀ c ∈ r.fraction.rdropWhile (· == '0'), c.isDigit = true := fun c hc =>
    r.fraction_digits c ((List.rdropWhile_prefix _ _).subset hc)
  simp only [compareDecimal, validDecimal_text, splitTrimmed, splitOnce_text, byteLen_eq hlw,
    byteLen_eq hrw, byteLen_eq hlf, byteLen_eq hrf, Bool.not_true, Bool.or_self,
    Bool.false_eq_true, if_false]
  set width := max (l.fraction.rdropWhile (· == '0')).length
    (r.fraction.rdropWhile (· == '0')).length with hwidth
  have hl : (l.fraction.rdropWhile (· == '0')).length ≤ width := le_max_left _ _
  have hr : (r.fraction.rdropWhile (· == '0')).length ≤ width := le_max_right _ _
  have hlp := Digits.value_lt (padRight_digits width hlf)
  have hrp := Digits.value_lt (padRight_digits width hrf)
  rw [length_padRight hl] at hlp
  rw [length_padRight hr] at hrp
  have hscale : (0 : ℚ) < 10 ^ width := by positivity
  rw [then_of_eq, Digits.compare_trimmed hlw hrw (Digits.head?_dropWhile_ne _)
      (Digits.head?_dropWhile_ne _),
    Digits.compare_of_length (padRight_digits width hlf) (padRight_digits width hrf)
      ((length_padRight hl).trans (length_padRight hr).symm),
    Digits.compare_then hlp hrp, ← cmp_eq_compare, ← cmp_eq_compare,
    ← cmp_mul_pos_right hscale l.number, number_scaled l hl, number_scaled r hr,
    Nat.strictMono_cast.cmp_map_eq]

end Compare

section Amounts

theorem centsOf_digits {fraction : List Char} (h : ∀ c ∈ fraction, c.isDigit = true) :
    ∃ cents : Nat, centsOf fraction = some (cents : Int)
      ∧ Digits.fraction fraction * 100 = cents + Digits.fraction (fraction.drop 2) := by
  match fraction, h with
  | [], _ => exact ⟨0, rfl, by simp [Digits.fraction]⟩
  | [tens], _ =>
    refine ⟨Digits.digit tens * 10, by simp [centsOf], ?_⟩
    simp only [Digits.fraction, Digits.value_cons, Digits.value_nil, List.length_singleton,
      List.length_nil, List.drop_succ_cons, List.drop_nil]
    push_cast
    ring
  | tens :: ones :: rest, h =>
    have htwo : ∀ c ∈ [tens, ones], c.isDigit = true := by
      intro c hc
      exact h c (List.mem_append_left rest hc)
    have hlt := Digits.value_lt htwo
    refine ⟨Digits.value [tens, ones], ?_, ?_⟩
    · rw [centsOf, parseI64_digits htwo (List.cons_ne_nil _ _)]
      refine Ledger.checked_eq_some.2 ⟨rfl, Ledger.Fits.of_nonneg (Int.natCast_nonneg _) ?_⟩
      simp only [List.length_cons, List.length_nil] at hlt
      simp only [Ledger.i64Max]
      omega
    · have happend := Digits.fraction_append [tens, ones] rest
      simp only [List.length_cons, List.length_nil, List.cons_append, List.nil_append] at happend
      norm_num at happend
      exact happend

theorem checked_minor {whole cents : Nat} {n : Int} :
    ((checked (whole : Int)).bind (checkedMul · 100)).bind (checkedAdd · (cents : Int)) = some n
      ↔ n = whole * 100 + cents ∧ Fits n := by
  simp only [Option.bind_eq_some_iff, checkedMul, checkedAdd, Ledger.checked_eq_some]
  constructor
  · rintro ⟨_, ⟨_, ⟨rfl, -⟩, rfl, -⟩, rfl, hn⟩
    exact ⟨rfl, hn⟩
  · rintro ⟨rfl, hn⟩
    have hle := hn.2
    have hmul : Fits ((whole : Int) * 100) := Ledger.Fits.of_nonneg (by omega) (by omega)
    have hwhole : Fits (whole : Int) := Ledger.Fits.of_nonneg (by omega) (by omega)
    exact ⟨_, ⟨_, ⟨rfl, hwhole⟩, rfl, hmul⟩, rfl, hn⟩

theorem beyond_cents {fraction : List Char} (h : ∀ c ∈ fraction, c.isDigit = true) :
    (decide (byteLen fraction > 2) && (fraction.drop 2).any (· != '0')) = true
      ↔ ¬∀ c ∈ fraction.drop 2, c = '0' := by
  rw [byteLen_eq h]
  constructor
  · intro hany hall
    obtain ⟨c, hc, hne⟩ := List.any_eq_true.1 (Bool.and_eq_true_iff.1 hany).2
    exact absurd (hall c hc) (bne_iff_ne.1 hne)
  · intro hall
    simp only [not_forall] at hall
    obtain ⟨c, hc, hne⟩ := hall
    have hlen : 0 < (fraction.drop 2).length := List.length_pos_of_mem hc
    rw [List.length_drop] at hlen
    exact Bool.and_eq_true_iff.2 ⟨decide_eq_true (by omega),
      List.any_eq_true.2 ⟨c, hc, bne_iff_ne.2 hne⟩⟩

theorem parseGatewayFiatMinor_text (d : Decimal) (n : Int) :
    parseGatewayFiatMinor d.text = .ok n ↔ d.number * 100 = n ∧ Fits n := by
  obtain ⟨cents, hcents, hfraction⟩ := centsOf_digits d.fraction_digits
  have hrest : ∀ c ∈ d.fraction.drop 2, c.isDigit = true := fun c hc =>
    d.fraction_digits c (List.mem_of_mem_drop hc)
  have hnumber : d.number * 100 = n
      ↔ (Digits.value d.whole : Int) * 100 + cents = n ∧ ∀ c ∈ d.fraction.drop 2, c = '0' := by
    rw [← Digits.add_fraction_eq_intCast hrest, Decimal.number, add_mul, hfraction]
    push_cast
    rw [add_assoc]
  rw [hnumber]
  simp only [parseGatewayFiatMinor, validDecimal_text, splitOnce_text, hcents,
    parseI64_digits d.whole_digits d.whole_ne, Bool.not_true, Bool.false_eq_true, if_false]
  split
  · next h => simp [(beyond_cents d.fraction_digits).1 h]
  · next h =>
    have hzero := not_not.1 (mt (beyond_cents d.fraction_digits).2 h)
    rw [and_iff_left hzero, eq_comm (b := n), ← checked_minor]
    split
    · next hnone => simp [hnone]
    · next minor hsome => simp [hsome]

end Amounts

/-- The gateway's decimal texts are compared as the numbers they denote, and an amount is accepted
exactly when it is a whole number of cents of 64 bits. -/
theorem decimals_exact :
    (∀ left right ordering, compareDecimal left right = some ordering
      ↔ ∃ l r : Decimal, l.text = left ∧ r.text = right
        ∧ ordering = compare l.number r.number)
    ∧ ∀ raw n, parseGatewayFiatMinor raw = .ok n
      ↔ ∃ d : Decimal, d.text = raw ∧ d.number * 100 = n ∧ Fits n := by
  constructor
  · intro left right ordering
    constructor
    · intro h
      have hvalid : validDecimal left = true ∧ validDecimal right = true := by
        by_contra hnot
        have : (!validDecimal left || !validDecimal right) = true := by
          simpa [imp_iff_not_or] using hnot
        rw [compareDecimal, if_pos this] at h
        cases h
      obtain ⟨l, rfl⟩ := validDecimal_iff.1 hvalid.1
      obtain ⟨r, rfl⟩ := validDecimal_iff.1 hvalid.2
      rw [compareDecimal_text, Option.some.injEq] at h
      exact ⟨l, r, rfl, rfl, h.symm⟩
    · rintro ⟨l, r, rfl, rfl, rfl⟩
      exact compareDecimal_text l r
  · intro raw n
    constructor
    · intro h
      have hvalid : validDecimal raw = true := by
        by_contra hnot
        rw [parseGatewayFiatMinor, if_pos (by simpa using hnot)] at h
        cases h
      obtain ⟨d, rfl⟩ := validDecimal_iff.1 hvalid
      exact ⟨d, rfl, (parseGatewayFiatMinor_text d n).1 h⟩
    · rintro ⟨d, rfl, h⟩
      exact (parseGatewayFiatMinor_text d n).2 h

end CcSwitchRouter.Dujiaopay
