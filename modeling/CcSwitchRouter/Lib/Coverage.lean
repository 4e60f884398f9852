import Mathlib.Algebra.BigOperators.Group.Finset.Basic
import Mathlib.Algebra.Order.Group.Int
import Mathlib.Tactic.Abel

namespace Coverage

variable {τ : Type} [LinearOrder τ]

/-- Intervals that follow each other without gap or overlap from `a` to `b`. -/
def Tiles : τ → List (τ × τ) → τ → Prop
  | a, [], b => a = b
  | a, x :: xs, b => x.1 = a ∧ x.1 < x.2 ∧ Tiles x.2 xs b

theorem Tiles.append {a b c : τ} {xs ys : List (τ × τ)} (hx : Tiles a xs b) (hy : Tiles b ys c) :
    Tiles a (xs ++ ys) c := by
  induction xs generalizing a with
  | nil =>
    cases hx
    exact hy
  | cons x xs ih => exact ⟨hx.1, hx.2.1, ih hx.2.2⟩

theorem Tiles.le {a b : τ} {xs : List (τ × τ)} (h : Tiles a xs b) : a ≤ b := by
  induction xs generalizing a with
  | nil => exact le_of_eq h
  | cons x xs ih => exact h.1 ▸ (h.2.1.le.trans (ih h.2.2))

theorem Tiles.mem {a b : τ} {xs : List (τ × τ)} (h : Tiles a xs b) {x : τ × τ} (hx : x ∈ xs) :
    a ≤ x.1 ∧ x.1 < x.2 ∧ x.2 ≤ b := by
  induction xs generalizing a with
  | nil => cases hx
  | cons y ys ih =>
    obtain ⟨h₁, h₂, h₃⟩ := h
    rcases List.mem_cons.1 hx with rfl | hx
    · exact ⟨h₁.ge, h₂, h₃.le⟩
    · obtain ⟨h₄, h₅, h₆⟩ := ih h₃ hx
      exact ⟨h₁ ▸ h₂.le.trans h₄, h₅, h₆⟩

structure Piece (τ : Type) where
  start : τ
  stop : τ
  available : Bool

def Piece.span (p : Piece τ) : τ × τ := (p.start, p.stop)

/-- A stretch of the window from `a` to `b` that is available throughout and part of no longer one. -/
structure Maximal (avail : τ → Prop) (a b : τ) (x : τ × τ) : Prop where
  inside : a ≤ x.1 ∧ x.1 < x.2 ∧ x.2 ≤ b
  available : ∀ t, x.1 ≤ t → t < x.2 → avail t
  longest : ∀ u v, a ≤ u → u ≤ x.1 → x.2 ≤ v → v ≤ b → (∀ t, u ≤ t → t < v → avail t) → (u, v) = x

variable {avail avail' : τ → Prop} {a b m : τ} {x y : τ × τ}

theorem Maximal.congr (h : ∀ t, a ≤ t → t < b → (avail t ↔ avail' t)) (hx : Maximal avail a b x) :
    Maximal avail' a b x where
  inside := hx.inside
  available t hs he :=
    (h t (hx.inside.1.trans hs) (he.trans_le hx.inside.2.2)).1 (hx.available t hs he)
  longest u v hau hu hv hvb hall := by
    apply hx.longest u v hau hu hv hvb
    intro t hs he
    exact (h t (hau.trans hs) (he.trans_le hvb)).2 (hall t hs he)

theorem Maximal.end_unique (hx : Maximal avail a b x) (hy : Maximal avail a b y) (h : x.1 = y.1) :
    x = y := by
  rcases le_total x.2 y.2 with hle | hle
  · have heq := hx.longest x.1 y.2 hx.inside.1 le_rfl hle hy.inside.2.2
      fun t hs he => hy.available t (h ▸ hs) he
    rw [← heq, h]
  · have heq := hy.longest y.1 x.2 hy.inside.1 le_rfl hle hx.inside.2.2
      fun t hs he => hx.available t (h ▸ hs) he
    rw [← heq, ← h]

theorem maximal_skip (ham : a < m) (hno : ∀ t, a ≤ t → t < m → ¬avail t) :
    Maximal avail a b x ↔ Maximal avail m b x := by
  have hlate {u : τ} (hau : a ≤ u) (hu : avail u) : m ≤ u := by
    by_contra hlt
    exact hno u hau (not_le.1 hlt) hu
  constructor
  · intro hx
    have hstart := hlate hx.inside.1 (hx.available x.1 le_rfl hx.inside.2.1)
    exact ⟨⟨hstart, hx.inside.2⟩, hx.available, fun u v hmu => hx.longest u v (ham.le.trans hmu)⟩
  · intro hx
    refine ⟨⟨ham.le.trans hx.inside.1, hx.inside.2⟩, hx.available, fun u v hau hu hv hvb hall => ?_⟩
    have huv : u < v := hu.trans_lt (hx.inside.2.1.trans_le hv)
    exact hx.longest u v (hlate hau (hall u le_rfl huv)) hu hv hvb hall

/-- Available time in front of a window makes a stretch of its own, together with the one that
follows it without a gap: `e` is where that one ends. -/
theorem maximal_extend {e : τ} (ham : a < m) (hmb : m ≤ b) (hall : ∀ t, a ≤ t → t < m → avail t)
    (he : Maximal avail m b (m, e) ∨ (e = m ∧ (b = m ∨ ¬avail m))) :
    Maximal avail a b x ↔ x = (a, e) ∨ (Maximal avail m b x ∧ x.1 ≠ m) := by
  have hme : m ≤ e ∧ e ≤ b := by
    rcases he with he | ⟨rfl, -⟩
    · exact ⟨he.inside.2.1.le, he.inside.2.2⟩
    · exact ⟨le_rfl, hmb⟩
  -- the time from `a` to `e` is available, and what is available from `m` on ends with it
  have hto : ∀ t, a ≤ t → t < e → avail t := by
    intro t hat hte
    rcases lt_or_ge t m with htm | htm
    · exact hall t hat htm
    · rcases he with he | ⟨rfl, -⟩
      · exact he.available t htm hte
      · exact absurd hte htm.not_gt
  have hend {v : τ} (hev : e ≤ v) (hvb : v ≤ b) (hv : ∀ t, m ≤ t → t < v → avail t) : v = e := by
    rcases he with he | ⟨rfl, hno⟩
    · exact congrArg Prod.snd (he.longest m v le_rfl le_rfl hev hvb hv)
    · by_contra hne
      have hlt : e < v := lt_of_le_of_ne hev (Ne.symm hne)
      rcases hno with rfl | hno
      · exact hlt.not_ge hvb
      · exact hno (hv e le_rfl hlt)
  constructor
  · intro hx
    obtain ⟨hax, hlt, hxb⟩ := hx.inside
    rcases lt_or_ge x.1 m with hxm | hxm
    · left
      -- the stretch reaches back to `a` and on to `e`
      have hback := hx.longest a (max x.2 e) le_rfl hax (le_max_left _ _) (max_le hxb hme.2) ?_
      · have hxa : x.1 = a := (congrArg Prod.fst hback).symm
        have hxe : max x.2 e = x.2 := congrArg Prod.snd hback
        have heq := hend (max_eq_left_iff.1 hxe) hxb fun t hs ht => hx.available t (hxm.le.trans hs) ht
        exact Prod.ext hxa heq
      · intro t hat ht
        rcases lt_max_iff.1 ht with ht | ht
        · rcases lt_or_ge t m with htm | htm
          · exact hall t hat htm
          · exact hx.available t (hxm.le.trans htm) ht
        · exact hto t hat ht
    · right
      refine ⟨⟨⟨hxm, hlt, hxb⟩, hx.available, fun u v hmu => hx.longest u v (ham.le.trans hmu)⟩, ?_⟩
      intro hxm'
      have hback := hx.longest a x.2 le_rfl hax le_rfl hxb ?_
      · have hxa : a = x.1 := congrArg Prod.fst hback
        exact ham.ne (hxa.trans hxm')
      · intro t hat ht
        rcases lt_or_ge t m with htm | htm
        · exact hall t hat htm
        · exact hx.available t (hxm'.le.trans htm) ht
  · rintro (rfl | ⟨hx, hne⟩)
    · refine ⟨⟨le_rfl, ham.trans_le hme.1, hme.2⟩, hto, fun u v hau hu hv hvb huv => ?_⟩
      obtain rfl : u = a := le_antisymm hu hau
      exact Prod.ext rfl (hend hv hvb fun t hs ht => huv t (ham.le.trans hs) ht)
    · obtain ⟨hmx, hlt, hxb⟩ := hx.inside
      refine ⟨⟨ham.le.trans hmx, hlt, hxb⟩, hx.available, fun u v hau hu hv hvb huv => ?_⟩
      rcases le_total m u with hmu | hum
      · exact hx.longest u v hmu hu hv hvb huv
      · have heq := hx.longest m v le_rfl hmx hv hvb fun t hs ht => huv t (hum.trans hs) ht
        exact absurd (congrArg Prod.fst heq).symm hne

/-- What available pieces contribute, measured by `A`. -/
def earned (A : τ → Int) (ps : List (Piece τ)) : Int :=
  (ps.map fun p => if p.available = true then A p.stop - A p.start else 0).sum

structure Stretches (avail : τ → Prop) (a b : τ) (xs : Finset (τ × τ)) : Prop where
  maximal : ∀ x, x ∈ xs ↔ Maximal avail a b x
  covered : ∀ t, a ≤ t → t < b → avail t → ∃ x ∈ xs, x.1 ≤ t ∧ t < x.2

theorem Stretches.empty (avail : τ → Prop) (a : τ) : Stretches avail a a ∅ := by
  refine ⟨fun x => ?_, fun t hs he => absurd he hs.not_gt⟩
  simp only [Finset.notMem_empty, false_iff]
  rintro ⟨⟨h₁, h₂, h₃⟩, -, -⟩
  exact (h₁.trans_lt h₂).not_ge h₃

variable {xs : Finset (τ × τ)}

theorem Stretches.skip (h : Stretches avail m b xs) (ham : a < m)
    (hno : ∀ t, a ≤ t → t < m → ¬avail t) : Stretches avail a b xs := by
  refine ⟨fun x => (h.maximal x).trans (maximal_skip ham hno).symm, fun t hat htb ht => ?_⟩
  rcases lt_or_ge t m with htm | htm
  · exact absurd ht (hno t hat htm)
  · exact h.covered t htm htb ht

theorem Stretches.first (h : Stretches avail m b xs) (hmb : m ≤ b) (A : τ → Int) :
    ∃ e, (Maximal avail m b (m, e) ∨ (e = m ∧ (b = m ∨ ¬avail m))) ∧
      ∑ x ∈ xs with x.1 = m, (A x.2 - A x.1) = A e - A m := by
  by_cases hfirst : ∃ x ∈ xs, x.1 = m
  · obtain ⟨x, hx, rfl⟩ := hfirst
    have hmax := (h.maximal x).1 hx
    refine ⟨x.2, .inl hmax, ?_⟩
    have hone : xs.filter (fun y => y.1 = x.1) = {x} := by
      ext y
      rw [Finset.mem_filter, Finset.mem_singleton]
      constructor
      · rintro ⟨hy, hstart⟩
        exact ((h.maximal y).1 hy).end_unique hmax hstart
      · rintro rfl
        exact ⟨hx, rfl⟩
    rw [hone, Finset.sum_singleton]
  · refine ⟨m, .inr ⟨rfl, ?_⟩, ?_⟩
    · by_contra hno
      rw [not_or, not_not] at hno
      obtain ⟨x, hx, hle, -⟩ := h.covered m le_rfl (lt_of_le_of_ne hmb (Ne.symm hno.1)) hno.2
      exact hfirst ⟨x, hx, le_antisymm hle ((h.maximal x).1 hx).inside.1⟩
    · rw [Finset.filter_eq_empty_iff.2, Finset.sum_empty, sub_self]
      intro x hx hstart
      exact hfirst ⟨x, hx, hstart⟩

theorem Stretches.extend (h : Stretches avail m b xs) (ham : a < m) (hmb : m ≤ b)
    (hall : ∀ t, a ≤ t → t < m → avail t) (A : τ → Int) :
    ∃ ys, Stretches avail a b ys ∧
      ∑ y ∈ ys, (A y.2 - A y.1) = A m - A a + ∑ x ∈ xs, (A x.2 - A x.1) := by
  obtain ⟨e, he, hsum⟩ := h.first hmb A
  have hmax (x : τ × τ) := maximal_extend (x := x) ham hmb hall he
  have hmem (x : τ × τ) : x ∈ insert (a, e) (xs.filter fun x => ¬x.1 = m) ↔ Maximal avail a b x := by
    rw [hmax, Finset.mem_insert, Finset.mem_filter, h.maximal]
  refine ⟨insert (a, e) (xs.filter fun x => ¬x.1 = m), ⟨hmem, fun t hat htb ht => ?_⟩, ?_⟩
  · have hfirst := (hmax (a, e)).2 (.inl rfl)
    rcases lt_or_ge t e with hte | hte
    · exact ⟨(a, e), Finset.mem_insert_self _ _, hat, hte⟩
    · have hme : m ≤ e := by
        rcases he with he | ⟨rfl, -⟩
        · exact he.inside.2.1.le
        · exact le_rfl
      obtain ⟨x, hx, hxt, htx⟩ := h.covered t (hme.trans hte) htb ht
      refine ⟨x, Finset.mem_insert_of_mem (Finset.mem_filter.2 ⟨hx, fun hxm => ?_⟩), hxt, htx⟩
      rcases he with he | ⟨rfl, hno⟩
      · cases ((h.maximal x).1 hx).end_unique he hxm
        exact hte.not_gt htx
      · rcases hno with rfl | hno
        · exact hte.not_gt htb
        · exact hno (((h.maximal x).1 hx).available e hxm.le (hte.trans_lt htx))
  · have hnew : (a, e) ∉ xs.filter fun x => ¬x.1 = m := by
      intro hin
      have := ((h.maximal _).1 (Finset.mem_filter.1 hin).1).inside.1
      exact this.not_gt ham
    rw [Finset.sum_insert hnew, ← Finset.sum_filter_add_sum_filter_not xs (fun x => x.1 = m), hsum]
    abel

theorem earned_eq_sum_maximal (A : τ → Int) {ps : List (Piece τ)}
    (ht : Tiles a (ps.map Piece.span) b)
    (hp : ∀ p ∈ ps, ∀ t, p.start ≤ t → t < p.stop → (p.available = true ↔ avail t)) :
    ∃ xs, Stretches avail a b xs ∧ earned A ps = ∑ x ∈ xs, (A x.2 - A x.1) := by
  induction ps generalizing a with
  | nil =>
    obtain rfl : a = b := ht
    exact ⟨∅, .empty avail a, rfl⟩
  | cons p ps ih =>
    obtain ⟨rfl, hlt, hrest⟩ := ht
    change p.start < p.stop at hlt
    obtain ⟨xs, hxs, hsum⟩ := ih hrest fun q hq => hp q (List.mem_cons_of_mem p hq)
    change Stretches avail p.stop b xs at hxs
    have hpiece := hp p List.mem_cons_self
    rw [earned, List.map_cons, List.sum_cons]
    change ∃ ys, Stretches avail p.start b ys ∧ _ + earned A ps = _
    by_cases hav : p.available = true
    · obtain ⟨ys, hys, hsum'⟩ := hxs.extend hlt hrest.le (fun t hs he => (hpiece t hs he).1 hav) A
      exact ⟨ys, hys, by rw [if_pos hav, hsum, hsum']⟩
    · exact ⟨xs, hxs.skip hlt fun t hs he h => hav ((hpiece t hs he).2 h),
        by rw [if_neg hav, zero_add, hsum]⟩

theorem Stretches.unique {ys : Finset (τ × τ)} (hx : Stretches avail a b xs)
    (hy : Stretches avail' a b ys) (h : ∀ t, a ≤ t → t < b → (avail t ↔ avail' t)) : xs = ys := by
  ext x
  rw [hx.maximal, hy.maximal]
  exact ⟨fun hm => hm.congr h, fun hm => hm.congr fun t hs he => (h t hs he).symm⟩

end Coverage
