import Mathlib.Algebra.Order.BigOperators.Group.List
import Mathlib.Algebra.Order.Ring.Nat

namespace List

variable {α : Type} {l : List α} {i : Nat} {x y : α}

theorem sum_map_set (f : α → Nat) (h : l[i]? = some x) :
    ((l.set i y).map f).sum + f x = (l.map f).sum + f y := by
  induction l generalizing i with
  | nil => simp at h
  | cons a l ih =>
    cases i with
    | zero =>
      simp only [getElem?_cons_zero, Option.some.injEq] at h
      subst h
      simp only [set_cons_zero, map_cons, sum_cons]
      omega
    | succ i =>
      have := ih (i := i) (by simpa using h)
      simp only [set_cons_succ, map_cons, sum_cons]
      omega

theorem le_sum_map_of_getElem? (f : α → Nat) (h : l[i]? = some x) : f x ≤ (l.map f).sum :=
  single_le_sum (fun _ _ => Nat.zero_le _) _ (mem_map_of_mem (mem_of_getElem? h))

end List
