import Mathlib.Data.Multiset.AddSub
import Mathlib.Logic.Hydra

namespace Bfs

variable {α : Type} {next : α → List α} {weight : α → Nat}

def Descends (next : α → List α) (weight : α → Nat) : Prop := ∀ a, ∀ b ∈ next a, weight b < weight a

theorem wellFounded (weight : α → Nat) :
    WellFounded (InvImage (Relation.CutExpand (InvImage (· < ·) weight))
      (fun queue : List α => (queue : Multiset α))) :=
  InvImage.wf _ (WellFounded.cutExpand (InvImage.wf weight Nat.lt_wfRel.wf))

theorem queue_lt {a : α} {queue new : List α} (h : ∀ b ∈ new, weight b < weight a) :
    InvImage (Relation.CutExpand (InvImage (· < ·) weight))
      (fun queue : List α => (queue : Multiset α)) (queue ++ new) (a :: queue) := by
  refine ⟨new, a, fun b hb => h b (Multiset.mem_coe.1 hb), ?_⟩
  change ((queue ++ new : List α) : Multiset α) + {a} = ((a :: queue : List α) : Multiset α) + new
  rw [← Multiset.coe_add, ← Multiset.cons_coe, Multiset.cons_add, ← Multiset.singleton_add, add_comm]

theorem tail_lt (weight : α → Nat) (a : α) (queue : List α) :
    InvImage (Relation.CutExpand (InvImage (· < ·) weight))
      (fun queue : List α => (queue : Multiset α)) queue (a :: queue) := by
  have h : ∀ b ∈ ([] : List α), weight b < weight a := fun b hb => nomatch hb
  simpa only [List.append_nil] using @queue_lt _ weight a queue [] h

variable [DecidableEq α]

def visit (h : Descends next weight) (queue ordered : List α) : List α :=
  match queue with
  | [] => ordered
  | current :: queue =>
    if current ∈ ordered then visit h queue ordered
    else
      let ordered := ordered ++ [current]
      visit h (queue ++ (next current).filter (· ∉ ordered)) ordered
termination_by (wellFounded weight).wrap queue
decreasing_by
  · exact tail_lt weight current queue
  · exact queue_lt fun b hb => h current b (List.mem_filter.1 hb).1

variable {h : Descends next weight}

theorem prefix_visit (queue ordered : List α) : ordered <+: visit h queue ordered := by
  fun_induction visit h queue ordered with
  | case1 ordered => exact List.prefix_rfl
  | case2 ordered current queue _ ih => exact ih
  | case3 ordered current queue _ _ ih => exact (List.prefix_append _ _).trans ih

theorem visit_singleton (a : α) : ∃ rest, visit h [a] [] = a :: rest := by
  rw [visit, if_neg List.not_mem_nil]
  obtain ⟨rest, hrest⟩ := prefix_visit (h := h) ([] ++ (next a).filter (· ∉ [] ++ [a])) ([] ++ [a])
  exact ⟨rest, hrest.symm⟩

end Bfs
