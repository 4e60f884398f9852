import Mathlib.Algebra.BigOperators.Group.List.Basic
import Mathlib.Algebra.Order.BigOperators.Group.List
import Mathlib.Data.List.Basic
import Mathlib.Tactic.Ring

namespace Ledger

def i64Max : Int := 9223372036854775807

def i64Min : Int := -9223372036854775808

def Fits (x : Int) : Prop := i64Min ≤ x ∧ x ≤ i64Max

instance (x : Int) : Decidable (Fits x) := inferInstanceAs (Decidable (_ ∧ _))

def checked (x : Int) : Option Int := if Fits x then some x else none

def checkedAdd (x y : Int) : Option Int := checked (x + y)

def checkedSub (x y : Int) : Option Int := checked (x - y)

def checkedMul (x y : Int) : Option Int := checked (x * y)

def saturatingSub (x y : Int) : Int := max i64Min (min i64Max (x - y))

/-- `COALESCE(SUM(column), 0)`: a running total that overflows aborts the query. -/
def checkedSum (xs : List Int) : Option Int := xs.foldlM checkedAdd 0

variable {x v : Int} {xs : List Int}

theorem checked_eq_some {y : Int} : checked x = some y ↔ y = x ∧ Fits x := by
  simp only [checked]
  split
  · next h => simp [h, eq_comm]
  · next h => simp [h]

theorem Fits.of_nonneg (h₀ : 0 ≤ x) (h₁ : x ≤ i64Max) : Fits x :=
  ⟨le_trans (by decide) h₀, h₁⟩

theorem Fits.neg (h₀ : 0 ≤ x) (h₁ : x ≤ i64Max) : Fits (-x) := by
  simp only [Fits, i64Min, i64Max] at *
  omega

@[simp] theorem checkedSum_nil : checkedSum [] = some 0 := rfl

theorem checkedSum_append (xs ys : List Int) :
    checkedSum (xs ++ ys) = (checkedSum xs).bind fun v => ys.foldlM checkedAdd v :=
  List.foldlM_append

theorem checkedSum_concat (h : checkedSum xs = some v) (hf : Fits (v + x)) :
    checkedSum (xs ++ [x]) = some (v + x) := by
  rw [checkedSum_append, h]
  simp [checkedAdd, checked, hf]

theorem foldlM_checkedAdd {w : Int} (h : xs.foldlM checkedAdd v = some w) : w = v + xs.sum := by
  induction xs generalizing v with
  | nil => simpa [eq_comm] using h
  | cons x xs ih =>
    rw [List.foldlM_cons] at h
    obtain ⟨u, hu, h⟩ := Option.bind_eq_some_iff.1 h
    rw [ih h, (checked_eq_some.1 hu).1, List.sum_cons]
    ring

theorem checkedSum_eq_some (h : checkedSum xs = some v) : v = xs.sum := by
  simpa using foldlM_checkedAdd h

theorem checkedSum_of_nonneg (h : ∀ x ∈ xs, 0 ≤ x) (hle : xs.sum ≤ i64Max) :
    checkedSum xs = some xs.sum := by
  suffices hv : ∀ v, 0 ≤ v → v + xs.sum ≤ i64Max →
      xs.foldlM checkedAdd v = some (v + xs.sum) by
    simpa [checkedSum] using hv 0 le_rfl (by simpa using hle)
  clear hle
  induction xs with
  | nil => simp
  | cons x xs ih =>
    intro v hv hle
    have hx := h x List.mem_cons_self
    have hxs : ∀ y ∈ xs, 0 ≤ y := fun y hy => h y (List.mem_cons_of_mem x hy)
    rw [List.sum_cons] at hle
    have hsum : 0 ≤ xs.sum := List.sum_nonneg hxs
    have hfit : checkedAdd v x = some (v + x) :=
      checked_eq_some.2 ⟨rfl, Fits.of_nonneg (by omega) (by omega)⟩
    rw [List.foldlM_cons, hfit, List.sum_cons, ← add_assoc]
    exact ih hxs (v + x) (by omega) (by omega)

structure Entry (A : Type) where
  account : A
  units : Int
deriving DecidableEq, Repr

variable {A : Type} [DecidableEq A]

def unitsOf (es : List (Entry A)) (a : A) : List Int :=
  (es.filter fun e => e.account = a).map Entry.units

def balance (es : List (Entry A)) (a : A) : Int := (unitsOf es a).sum

def Balanced (es : List (Entry A)) : Prop := (es.map Entry.units).sum = 0

instance (es : List (Entry A)) : Decidable (Balanced es) := inferInstanceAs (Decidable (_ = _))

variable {a b : A} {es fs : List (Entry A)} {n : Int}

@[simp] theorem unitsOf_nil : unitsOf ([] : List (Entry A)) a = [] := rfl

theorem unitsOf_append : unitsOf (es ++ fs) a = unitsOf es a ++ unitsOf fs a := by
  simp [unitsOf]

theorem unitsOf_cons_self : unitsOf (⟨a, n⟩ :: es) a = n :: unitsOf es a := by
  simp [unitsOf]

theorem unitsOf_cons_of_ne (h : b ≠ a) : unitsOf (⟨b, n⟩ :: es) a = unitsOf es a := by
  simp [unitsOf, h]

theorem unitsOf_cons : unitsOf (⟨b, n⟩ :: es) a = if b = a then n :: unitsOf es a
    else unitsOf es a := by
  split
  · next h => rw [h, unitsOf_cons_self]
  · next h => rw [unitsOf_cons_of_ne h]

theorem balance_append : balance (es ++ fs) a = balance es a + balance fs a := by
  simp [balance, unitsOf_append]

end Ledger
