import Mathlib

namespace Text

/-- The characters with the Unicode property `White_Space`. -/
def isWhitespace (c : Char) : Bool :=
  let n := c.toNat
  (9 ≤ n ∧ n ≤ 13) ∨ n = 0x20 ∨ n = 0x85 ∨ n = 0xA0 ∨ n = 0x1680 ∨ (0x2000 ≤ n ∧ n ≤ 0x200A) ∨
    n = 0x2028 ∨ n = 0x2029 ∨ n = 0x202F ∨ n = 0x205F ∨ n = 0x3000

def trimChars (value : List Char) : List Char :=
  (value.dropWhile isWhitespace).rdropWhile isWhitespace

/-- `str::trim`. -/
def trim (value : String) : String := String.ofList (trimChars value.toList)

/-- `str::to_ascii_lowercase`. -/
def lower (value : String) : String := String.ofList (value.toList.map Char.toLower)

theorem isWhitespace_eq_false {c : Char} (h : 33 ≤ c.toNat ∧ c.toNat ≤ 0x7F) :
    isWhitespace c = false := by
  rw [isWhitespace, decide_eq_false_iff_not]
  omega

theorem toNat_toLower {c : Char} (h : 65 ≤ c.toNat ∧ c.toNat ≤ 90) :
    c.toLower.toNat = c.toNat + 32 := by
  have h' : c.val ≥ 'A'.val ∧ c.val ≤ 'Z'.val := by
    simpa [UInt32.le_iff_toNat_le] using h
  simp only [Char.toLower, dif_pos h']
  change (c.val + ('a'.val - 'A'.val)).toNat = c.val.toNat + 32
  rw [UInt32.toNat_add]
  have hstep : ('a'.val - 'A'.val).toNat = 32 := by decide
  have hc : c.val.toNat ≤ 90 := h.2
  omega

theorem toLower_eq_self {c : Char} (h : ¬ (65 ≤ c.toNat ∧ c.toNat ≤ 90)) : c.toLower = c := by
  have h' : ¬ (c.val ≥ 'A'.val ∧ c.val ≤ 'Z'.val) := by
    simpa [UInt32.le_iff_toNat_le] using h
  simp only [Char.toLower, dif_neg h']

theorem isWhitespace_toLower (c : Char) : isWhitespace c.toLower = isWhitespace c := by
  by_cases h : 65 ≤ c.toNat ∧ c.toNat ≤ 90
  · have hl := toNat_toLower h
    rw [isWhitespace_eq_false (c := c) (by omega), isWhitespace_eq_false (by omega)]
  · rw [toLower_eq_self h]

theorem toLower_toLower (c : Char) : c.toLower.toLower = c.toLower := by
  by_cases h : 65 ≤ c.toNat ∧ c.toNat ≤ 90
  · have hl := toNat_toLower h
    exact toLower_eq_self (by omega)
  · rw [toLower_eq_self h, toLower_eq_self h]

theorem dropWhile_rdropWhile_dropWhile {α : Type} (p : α → Bool) (l : List α) :
    ((l.dropWhile p).rdropWhile p).dropWhile p = (l.dropWhile p).rdropWhile p := by
  have hpre := List.rdropWhile_prefix p (l.dropWhile p)
  rw [List.dropWhile_eq_self_iff]
  intro hl
  have hfirst :=
    List.dropWhile_eq_self_iff.1 (List.dropWhile_idempotent p l) (hl.trans_le hpre.length_le)
  rwa [hpre.getElem hl]

theorem toList_trim (value : String) :
    (trim value).toList = trimChars value.toList :=
  String.toList_ofList

theorem toList_lower (value : String) : (lower value).toList = value.toList.map Char.toLower :=
  String.toList_ofList

theorem isWhitespace_comp_toLower : isWhitespace ∘ Char.toLower = isWhitespace :=
  funext isWhitespace_toLower

theorem rdropWhile_map_toLower (l : List Char) :
    (l.map Char.toLower).rdropWhile isWhitespace =
      (l.rdropWhile isWhitespace).map Char.toLower := by
  simp only [List.rdropWhile, ← List.map_reverse, List.dropWhile_map, isWhitespace_comp_toLower]

theorem lower_trim_lower_trim (value : String) :
    lower (trim (lower (trim value))) = lower (trim value) := by
  apply String.toList_injective
  simp only [toList_lower, toList_trim, trimChars, List.dropWhile_map, isWhitespace_comp_toLower,
    dropWhile_rdropWhile_dropWhile, rdropWhile_map_toLower, List.rdropWhile_idempotent,
    List.map_map]
  exact List.map_congr_left fun c _ => toLower_toLower c

theorem cut_unique {α : Type} {sep : α} {a b x y : List α} (ha : sep ∉ a) (hb : sep ∉ b)
    (h : a ++ sep :: x = b ++ sep :: y) : a = b ∧ x = y := by
  induction a generalizing b with
  | nil =>
    cases b with
    | nil => exact ⟨rfl, (List.cons.inj h).2⟩
    | cons c b => exact absurd (List.cons.inj h).1 fun hc => hb (hc ▸ List.mem_cons_self)
  | cons c a ih =>
    cases b with
    | nil => exact absurd (List.cons.inj h).1 fun hc => ha (hc ▸ List.mem_cons_self)
    | cons d b =>
      obtain ⟨rfl, htail⟩ := List.cons.inj h
      obtain ⟨rfl, hxy⟩ := ih (fun hm => ha (List.mem_cons_of_mem _ hm))
        (fun hm => hb (List.mem_cons_of_mem _ hm)) htail
      exact ⟨rfl, hxy⟩

theorem notMem_repr {sep : Char} (hdigit : sep.isDigit = false) (hsign : sep ≠ '-') (n : Int) :
    sep ∉ n.repr.toList := by
  have hnat (k : Nat) : sep ∉ k.repr.toList := by
    intro h
    rw [Nat.repr_eq_ofList_toDigits, String.toList_ofList] at h
    rw [Nat.isDigit_of_mem_toDigits (by decide) (by decide) h] at hdigit
    cases hdigit
  rw [Int.repr_eq_if]
  split
  · exact hnat _
  · rw [String.toList_append]
    intro h
    rcases List.mem_append.1 h with h | h
    · exact hsign (List.mem_singleton.1 h)
    · exact hnat _ h

end Text
