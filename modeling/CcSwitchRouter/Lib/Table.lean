import CcSwitchRouter.Lib.Tx
import Mathlib.Algebra.BigOperators.Group.List.Basic
import Mathlib.Data.List.Nodup
import Mathlib.Tactic.Ring

namespace Store

class Row (ρ : Type) where
  key : ρ → String

/-- The rows of a table in insertion order; no two share their primary key. -/
structure Table (ρ : Type) [Row ρ] where
  rows : List ρ
  nodup : (rows.map Row.key).Nodup

namespace Table

variable {ρ : Type} [Row ρ] {t t' : Table ρ} {r r' : ρ} {k k' : String}

def empty : Table ρ := ⟨[], List.nodup_nil⟩

def get? (t : Table ρ) (k : String) : Option ρ := t.rows.find? fun r => Row.key r == k

/-- `INSERT`: refused when the primary key is taken. -/
def insert? (t : Table ρ) (r : ρ) : Option (Table ρ) :=
  if h : Row.key r ∈ t.rows.map Row.key then none
  else some ⟨t.rows ++ [r], by
    rw [List.map_append, List.map_singleton]
    exact List.nodup_append.2 ⟨t.nodup, List.nodup_singleton _, fun a ha b hb => by
      rw [List.mem_singleton.1 hb]
      exact fun hab => h (hab ▸ ha)⟩⟩

/-- `UPDATE … WHERE p`, leaving the primary key alone. -/
def updateWhere (t : Table ρ) (p : ρ → Bool) (f : ρ → ρ) (hf : ∀ r, Row.key (f r) = Row.key r) :
    Table ρ :=
  ⟨t.rows.map fun r => if p r then f r else r, by
    have hk : (fun r => Row.key (if p r then f r else r)) = (Row.key : ρ → String) := by
      funext r
      split
      · exact hf r
      · rfl
    rw [List.map_map]
    change (t.rows.map fun r => Row.key (if p r then f r else r)).Nodup
    rw [hk]
    exact t.nodup⟩

/-- `UPDATE … WHERE id = k`. -/
def modify (t : Table ρ) (k : String) (f : ρ → ρ) (hf : ∀ r, Row.key (f r) = Row.key r) : Table ρ :=
  t.updateWhere (fun r => Row.key r == k) f hf

/-- `DELETE … WHERE p`. -/
def deleteWhere (t : Table ρ) (p : ρ → Bool) : Table ρ :=
  ⟨t.rows.filter fun r => !p r, t.nodup.sublist (List.filter_sublist.map _)⟩

/-- `SUM(w)` over all rows. -/
def total (t : Table ρ) (w : ρ → Int) : Int := (t.rows.map w).sum

theorem get?_eq_some : t.get? k = some r ↔ r ∈ t.rows ∧ Row.key r = k := by
  constructor
  · intro h
    exact ⟨List.mem_of_find?_eq_some h, by simpa using List.find?_some h⟩
  · rintro ⟨hr, rfl⟩
    obtain ⟨rows, nodup⟩ := t
    simp only [get?]
    induction rows with
    | nil => cases hr
    | cons a rest ih =>
      rw [List.map_cons, List.nodup_cons] at nodup
      by_cases ha : Row.key a = Row.key r
      · rcases List.mem_cons.1 hr with rfl | hr
        · simp
        · exact absurd (ha ▸ List.mem_map_of_mem hr) nodup.1
      · rcases List.mem_cons.1 hr with rfl | hr
        · exact absurd rfl ha
        · rw [List.find?_cons_of_neg (by simpa using ha)]
          exact ih nodup.2 hr

theorem get?_eq_none : t.get? k = none ↔ ∀ r ∈ t.rows, Row.key r ≠ k := by
  simp [get?]

theorem key_of_get? (h : t.get? k = some r) : Row.key r = k :=
  (get?_eq_some.1 h).2

theorem mem_of_get? (h : t.get? k = some r) : r ∈ t.rows :=
  (get?_eq_some.1 h).1

theorem eq_of_key {r' : ρ} (hr : r ∈ t.rows) (hr' : r' ∈ t.rows) (h : Row.key r = Row.key r') :
    r = r' :=
  Option.some.inj ((get?_eq_some.2 ⟨hr, h⟩).symm.trans (get?_eq_some.2 ⟨hr', rfl⟩))

theorem exists_insert? (h : t.get? (Row.key r) = none) : ∃ t', t.insert? r = some t' := by
  have hnew : Row.key r ∉ t.rows.map Row.key := by
    intro hmem
    obtain ⟨a, ha, hk⟩ := List.mem_map.1 hmem
    have hno : (Row.key a == Row.key r) = false := by simpa using List.find?_eq_none.1 h a ha
    simp [hk] at hno
  rw [insert?, dif_neg hnew]
  exact ⟨_, rfl⟩

theorem insert?_rows (h : t.insert? r = some t') : t'.rows = t.rows ++ [r] := by
  simp only [insert?] at h
  split at h
  · cases h
  · cases h
    rfl

theorem insert?_new (h : t.insert? r = some t') : t.get? (Row.key r) = none := by
  simp only [insert?] at h
  split at h
  · cases h
  · next hn =>
    rw [get?_eq_none]
    exact fun a ha hk => hn (hk ▸ List.mem_map_of_mem ha)

theorem mem_insert? (h : t.insert? r = some t') : r' ∈ t'.rows ↔ r' ∈ t.rows ∨ r' = r := by
  rw [insert?_rows h, List.mem_append, List.mem_singleton]

theorem get?_insert? (h : t.insert? r = some t') (k : String) :
    t'.get? k = if Row.key r = k then some r else t.get? k := by
  have hnew := insert?_new h
  simp only [get?, insert?_rows h, List.find?_append]
  split
  · next hk =>
    subst hk
    have : t.rows.find? (fun a => Row.key a == Row.key r) = none := hnew
    simp [this]
  · next hk => simp [hk]

theorem get?_insert?_self (h : t.insert? r = some t') : t'.get? (Row.key r) = some r := by
  rw [get?_insert? h, if_pos rfl]

theorem mem_deleteWhere {p : ρ → Bool} : r ∈ (t.deleteWhere p).rows ↔ r ∈ t.rows ∧ p r = false := by
  simp [deleteWhere]

theorem total_insert? (h : t.insert? r = some t') (w : ρ → Int) :
    t'.total w = t.total w + w r := by
  simp [total, insert?_rows h]

variable {p : ρ → Bool} {f : ρ → ρ} {hf : ∀ r, Row.key (f r) = Row.key r}

theorem rows_modify_append {u : Table ρ} (hf : ∀ r, Row.key (f r) = Row.key r)
    (hu : u.rows = t.rows ++ [r]) (hnew : t.get? (Row.key r) = none) :
    (u.modify (Row.key r) f hf).rows = t.rows ++ [f r] := by
  have hother : t.rows.map (fun a => if Row.key a == Row.key r then f a else a) = t.rows := by
    conv_rhs => rw [← List.map_id t.rows]
    refine List.map_congr_left fun a ha => ?_
    simp [get?_eq_none.1 hnew a ha]
  simp only [modify, updateWhere, hu, List.map_append, hother, List.map_cons, List.map_nil,
    beq_self_eq_true, if_true]

theorem rows_updateWhere :
    (t.updateWhere p f hf).rows = t.rows.map fun r => if p r then f r else r := rfl

theorem get?_updateWhere :
    (t.updateWhere p f hf).get? k = (t.get? k).map fun r => if p r then f r else r := by
  simp only [get?, rows_updateWhere, List.find?_map]
  congr 2
  funext r
  simp only [Function.comp]
  split
  · rw [hf]
  · rfl

theorem get?_updateWhere_row (hf : ∀ r, Row.key (f r) = Row.key r) (h : t.get? k = some r) :
    (t.updateWhere p f hf).get? k = some (if p r then f r else r) := by
  rw [get?_updateWhere, h, Option.map_some]

theorem get?_modify_self (h : t.get? k = some r) : (t.modify k f hf).get? k = some (f r) := by
  rw [modify, get?_updateWhere, h]
  simp [key_of_get? h]

theorem get?_modify_row (hf : ∀ r, Row.key (f r) = Row.key r) (h : t.get? k = some r) :
    (t.modify k f hf).get? k = some (f r) :=
  get?_modify_self h

theorem get?_modify_of_ne (h : k' ≠ k) : (t.modify k f hf).get? k' = t.get? k' := by
  rw [modify, get?_updateWhere]
  cases hr : t.get? k' with
  | none => rfl
  | some r =>
    have hk : Row.key r ≠ k := key_of_get? hr ▸ h
    simp [hk]

theorem get?_modify (h : t.get? k = some r) (k' : String) :
    (t.modify k f hf).get? k' = if k' = k then some (f r) else t.get? k' := by
  split
  · next hk =>
    subst hk
    exact get?_modify_self h
  · next hk => exact get?_modify_of_ne hk

theorem modify_comp {g : ρ → ρ} (hf : ∀ r, Row.key (f r) = Row.key r)
    (hg : ∀ r, Row.key (g r) = Row.key r) : (t.modify k f hf).modify k g hg =
      t.modify k (fun r => g (f r)) fun r => (hg _).trans (hf r) := by
  obtain ⟨rows, nodup⟩ := t
  simp only [modify, updateWhere, mk.injEq, List.map_map]
  refine List.map_congr_left fun r _ => ?_
  by_cases hr : Row.key r = k
  · simp [Function.comp, hr, hf]
  · simp [Function.comp, hr]

theorem modify_modify {g : ρ → ρ} (hf : ∀ r, Row.key (f r) = Row.key r)
    (hg : ∀ r, Row.key (g r) = Row.key r) (h : ∀ r, g (f r) = g r) :
    (t.modify k f hf).modify k g hg = t.modify k g hg := by
  rw [modify_comp]
  simp only [h]

theorem mem_modify (h : t.get? k = some r) (hr : r' ∈ (t.modify k f hf).rows) :
    r' = f r ∨ (r' ∈ t.rows ∧ Row.key r' ≠ k) := by
  have hg := get?_eq_some.2 ⟨hr, rfl⟩
  rw [get?_modify h] at hg
  split at hg
  · exact .inl (Option.some.inj hg).symm
  · next hk => exact .inr ⟨mem_of_get? hg, hk⟩

theorem mem_modify_row (hf : ∀ r, Row.key (f r) = Row.key r) (h : t.get? k = some r)
    (hr : r' ∈ (t.modify k f hf).rows) : r' = f r ∨ (r' ∈ t.rows ∧ Row.key r' ≠ k) :=
  mem_modify h hr

theorem exists_key_modify (hf : ∀ r, Row.key (f r) = Row.key r) (h : ∃ r ∈ t.rows, Row.key r = k') :
    ∃ r ∈ (t.modify k f hf).rows, Row.key r = k' := by
  obtain ⟨r, hr, rfl⟩ := h
  refine ⟨_, List.mem_map_of_mem hr, ?_⟩
  split
  · exact hf r
  · rfl

theorem map_modify {β : Type} {g : ρ → β} (hf : ∀ r, Row.key (f r) = Row.key r)
    (h : t.get? k = some r) (hg : g (f r) = g r) :
    (t.modify k f hf).rows.map g = t.rows.map g := by
  simp only [modify, rows_updateWhere, List.map_map]
  apply List.map_congr_left
  intro r' hr'
  simp only [Function.comp, beq_iff_eq]
  split
  · next hk =>
    obtain rfl := eq_of_key hr' (mem_of_get? h) (hk.trans (key_of_get? h).symm)
    exact hg
  · rfl

theorem total_modify (h : t.get? k = some r) (w : ρ → Int) :
    (t.modify k f hf).total w = t.total w + (w (f r) - w r) := by
  obtain ⟨hr, rfl⟩ := get?_eq_some.1 h
  clear h
  obtain ⟨rows, nodup⟩ := t
  simp only [total, modify, updateWhere, List.map_map] at *
  induction rows with
  | nil => cases hr
  | cons a rest ih =>
    rw [List.map_cons, List.nodup_cons] at nodup
    rcases List.mem_cons.1 hr with rfl | hr
    · have hrest : rest.map (w ∘ fun a => if (Row.key a == Row.key r) = true then f a else a) =
          rest.map w := by
        refine List.map_congr_left fun b hb => ?_
        have hne : Row.key b ≠ Row.key r := fun hk => nodup.1 (hk ▸ List.mem_map_of_mem hb)
        simp [hne]
      simp only [List.map_cons, List.sum_cons, hrest, Function.comp, beq_self_eq_true, if_true]
      ring
    · have hne : Row.key a ≠ Row.key r := fun hk => nodup.1 (hk ▸ List.mem_map_of_mem hr)
      simp only [List.map_cons, List.sum_cons, ih nodup.2 hr, Function.comp]
      simp only [beq_iff_eq, hne, if_false]
      ring

end Table

namespace Tx

variable {ε σ ρ : Type} [Row ρ] {L : Lens σ (Table ρ)} {s s' : σ}

/-- `INSERT INTO`: a taken primary key aborts the transaction. -/
def insertRow (L : Lens σ (Table ρ)) (r : ρ) (e : ε) : Tx ε σ Unit := fun s =>
  match (L.get s).insert? r with
  | some t => .ok ((), L.set s t)
  | none => .error e

/-- `UPDATE … WHERE id = k`, whether or not there is such a row. -/
def updateRow (L : Lens σ (Table ρ)) (k : String) (f : ρ → ρ)
    (hf : ∀ r, Row.key (f r) = Row.key r) : Tx ε σ Unit :=
  modify fun s => L.set s ((L.get s).modify k f hf)

/-- `UPDATE … WHERE id = k AND g`, with `e` when it does not change exactly one row. -/
def updateOne (L : Lens σ (Table ρ)) (k : String) (g : ρ → Bool) (f : ρ → ρ)
    (hf : ∀ r, Row.key (f r) = Row.key r) (e : ε) : Tx ε σ Unit := fun s =>
  match (L.get s).get? k with
  | some r => if g r then .ok ((), L.set s ((L.get s).modify k f hf)) else .error e
  | none => .error e

/-- `UPDATE … WHERE id = k AND g`, reporting whether a row changed. -/
def updateIf (L : Lens σ (Table ρ)) (k : String) (g : ρ → Bool) (f : ρ → ρ)
    (hf : ∀ r, Row.key (f r) = Row.key r) : Tx ε σ Bool := fun s =>
  match (L.get s).get? k with
  | some r => if g r then .ok (true, L.set s ((L.get s).modify k f hf)) else .ok (false, s)
  | none => .ok (false, s)

variable {u : Unit} {k : String} {f : ρ → ρ}

theorem insertRow_ok {r : ρ} {e : ε} :
    insertRow L r e s = .ok (u, s') ↔ ∃ t, (L.get s).insert? r = some t ∧ s' = L.set s t := by
  simp only [insertRow]
  cases (L.get s).insert? r with
  | none => simp
  | some t =>
    simp only [Except.ok.injEq, Prod.mk.injEq, true_and, Option.some.injEq, exists_eq_left']
    exact eq_comm

variable {hf : ∀ r, Row.key (f r) = Row.key r}

theorem updateRow_ok :
    (updateRow L k f hf : Tx ε σ Unit) s = .ok (u, s') ↔ s' = L.set s ((L.get s).modify k f hf) :=
  modify_ok

theorem updateOne_ok {g : ρ → Bool} {e : ε} :
    updateOne L k g f hf e s = .ok (u, s') ↔
      ∃ r, (L.get s).get? k = some r ∧ g r = true ∧ s' = L.set s ((L.get s).modify k f hf) := by
  simp only [updateOne]
  cases (L.get s).get? k with
  | none => simp
  | some r =>
    by_cases hg : g r = true
    · simp only [hg, if_true, Except.ok.injEq, Prod.mk.injEq, true_and, Option.some.injEq,
        exists_eq_left']
      exact eq_comm
    · simp [hg]

theorem updateIf_ok {g : ρ → Bool} {b : Bool} :
    (updateIf L k g f hf : Tx ε σ Bool) s = .ok (b, s') ↔
      (b = true ∧ ∃ r, (L.get s).get? k = some r ∧ g r = true ∧
        s' = L.set s ((L.get s).modify k f hf)) ∨
      (b = false ∧ s' = s ∧ ∀ r, (L.get s).get? k = some r → g r = false) := by
  simp only [updateIf]
  cases (L.get s).get? k with
  | none =>
    constructor
    · intro h
      cases h
      exact .inr ⟨rfl, rfl, fun r hr => nomatch hr⟩
    · rintro (⟨-, r, hr, -⟩ | ⟨rfl, rfl, -⟩)
      · cases hr
      · rfl
  | some r =>
    dsimp only
    by_cases hg : g r = true
    · constructor
      · intro h
        rw [if_pos hg] at h
        cases h
        exact .inl ⟨rfl, r, rfl, hg, rfl⟩
      · rintro (⟨rfl, r', hr, -, rfl⟩ | ⟨-, -, h⟩)
        · rw [if_pos hg]
        · exact absurd (h r rfl) (by simp [hg])
    · constructor
      · intro h
        rw [if_neg hg] at h
        cases h
        exact .inr ⟨rfl, rfl, fun r' hr => Option.some.inj hr ▸ by simpa using hg⟩
      · rintro (⟨-, r', hr, hg', -⟩ | ⟨rfl, rfl, -⟩)
        · exact absurd (Option.some.inj hr ▸ hg') hg
        · rw [if_neg hg]

end Tx

end Store
