import Mathlib

namespace AList

variable {α β : Type} [DecidableEq α] {m : AList fun _ : α => β} {p : α → β → Bool} {a : α}

def retain (p : α → β → Bool) (m : AList fun _ : α => β) : AList fun _ : α => β :=
  ⟨m.entries.filter fun e => p e.1 e.2, m.nodupKeys.sublist List.filter_sublist⟩

def size (m : AList fun _ : α => β) : Nat := m.entries.length

theorem mem_lookup_retain {b : β} :
    (m.retain p).lookup a = some b ↔ m.lookup a = some b ∧ p a b = true := by
  rw [← Option.mem_def, mem_lookup_iff, ← Option.mem_def, mem_lookup_iff]
  exact List.mem_filter

theorem lookup_retain_of_pos {b : β} (h : m.lookup a = some b) (hp : p a b = true) :
    (m.retain p).lookup a = some b :=
  mem_lookup_retain.2 ⟨h, hp⟩

section FilterMap

variable {γ : Type} {f : α → β → Option γ}

omit [DecidableEq α] in
theorem keys_filterMap_sublist (f : α → β → Option γ) (l : List (Sigma fun _ : α => β)) :
    List.Sublist (List.keys (l.filterMap fun e => (f e.1 e.2).map (⟨e.1, ·⟩) :
      List (Sigma fun _ : α => γ))) l.keys := by
  induction l with
  | nil => exact List.Sublist.refl _
  | cons e l ih =>
    cases h : f e.1 e.2 with
    | none => simpa [h] using ih.cons e.1
    | some c => simpa [h] using ih.cons_cons e.1

def filterMap (f : α → β → Option γ) (m : AList fun _ : α => β) : AList fun _ : α => γ :=
  ⟨m.entries.filterMap fun e => (f e.1 e.2).map (⟨e.1, ·⟩),
    List.Nodup.sublist (keys_filterMap_sublist f m.entries) m.nodupKeys⟩

theorem lookup_filterMap : (m.filterMap f).lookup a = (m.lookup a).bind (f a) := by
  refine Option.ext fun c => ?_
  rw [← Option.mem_def, mem_lookup_iff, Option.bind_eq_some_iff]
  simp only [filterMap, List.mem_filterMap, Option.map_eq_some_iff]
  constructor
  · rintro ⟨⟨a', b⟩, hb, c', hc, heq⟩
    cases heq
    exact ⟨b, mem_lookup_iff.2 hb, hc⟩
  · rintro ⟨b, hb, hc⟩
    exact ⟨⟨a, b⟩, mem_lookup_iff.1 hb, c, hc, rfl⟩

end FilterMap

theorem size_insert_of_lookup {b b' : β} (h : m.lookup a = some b) :
    (m.insert a b').size = m.size := by
  have hk : a ∈ m.keys := mem_keys.1 (lookup_isSome.1 (by rw [h]; rfl))
  have h₁ : (m.insert a b').keys.length = (m.insert a b').size := List.length_map _
  have h₂ : m.keys.length = m.size := List.length_map _
  rw [← h₁, ← h₂, keys_insert, List.length_cons, List.length_erase_of_mem hk]
  have := List.length_pos_of_mem hk
  omega

/-! ### Sums over the values -/

section Total

variable {w : β → Nat} {b : β}

def total (w : β → Nat) (m : AList fun _ : α => β) : Nat := (m.entries.map fun e => w e.2).sum

theorem sum_kerase {l : List (Sigma fun _ : α => β)} (h : l.dlookup a = some b) :
    ((l.kerase a).map fun e => w e.2).sum + w b = (l.map fun e => w e.2).sum := by
  induction l with
  | nil => cases h
  | cons e l ih =>
    obtain ⟨a', c⟩ := e
    by_cases ha : a = a'
    · subst ha
      rw [List.dlookup_cons_eq] at h
      cases h
      have hrest : List.kerase a (⟨a, b⟩ :: l) = l := List.kerase_cons_eq rfl
      rw [hrest, List.map_cons, List.sum_cons, Nat.add_comm]
    · rw [List.dlookup_cons_ne _ _ ha] at h
      rw [List.kerase_cons_ne ha, List.map_cons, List.sum_cons, List.map_cons, List.sum_cons,
        Nat.add_assoc, ih h]

theorem total_insert_of_lookup (w : β → Nat) (b' : β) (h : m.lookup a = some b) :
    (m.insert a b').total w + w b = m.total w + w b' := by
  have hkept := sum_kerase (w := w) h
  simp only [total, entries_insert, List.map_cons, List.sum_cons]
  omega

theorem total_insert_of_none {b' : β} (h : m.lookup a = none) :
    (m.insert a b').total w = m.total w + w b' := by
  have hnew : a ∉ m.entries.keys := List.dlookup_eq_none.1 h
  simp only [total, entries_insert, List.map_cons, List.sum_cons,
    List.kerase_of_notMem_keys hnew]
  omega

theorem le_total_of_lookup (h : m.lookup a = some b) : w b ≤ m.total w := by
  have hkept := sum_kerase (w := w) h
  simp only [total]
  omega

omit [DecidableEq α] in
theorem exists_of_total_pos (h : 0 < m.total w) : ∃ e ∈ m.entries, 0 < w e.2 := by
  by_contra hnone
  have hzero : ∀ x ∈ m.entries.map fun e => w e.2, x = 0 := by
    intro x hx
    obtain ⟨e, he, rfl⟩ := List.mem_map.1 hx
    exact Nat.eq_zero_of_not_pos fun hpos => hnone ⟨e, he, hpos⟩
  rw [total, List.sum_eq_zero hzero] at h
  exact Nat.lt_irrefl 0 h

end Total

/-! ### `HashMap::retain` whose closure changes the values and a state -/

section RetainWith

variable {σ : Type} {f : σ → α → β → σ × Option β} {s : σ}

def retainEntries (f : σ → α → β → σ × Option β) :
    σ → List (Sigma fun _ : α => β) → σ × List (Sigma fun _ : α => β)
  | s, [] => (s, [])
  | s, e :: rest =>
    let next := f s e.1 e.2
    let later := retainEntries f next.1 rest
    (later.1, match next.2 with
      | some b => ⟨e.1, b⟩ :: later.2
      | none => later.2)

omit [DecidableEq α] in
theorem keys_retainEntries_sublist (s : σ) (l : List (Sigma fun _ : α => β)) :
    List.Sublist (retainEntries f s l).2.keys l.keys := by
  induction l generalizing s with
  | nil => exact List.Sublist.refl _
  | cons e l ih =>
    simp only [retainEntries]
    cases (f s e.1 e.2).2 with
    | none => exact (ih _).cons e.1
    | some b => exact (ih _).cons_cons e.1

def retainWith (f : σ → α → β → σ × Option β) (s : σ) (m : AList fun _ : α => β) :
    σ × AList fun _ : α => β :=
  ((retainEntries f s m.entries).1, ⟨(retainEntries f s m.entries).2,
    List.Nodup.sublist (keys_retainEntries_sublist s m.entries) m.nodupKeys⟩)

variable {R : σ → σ → Prop} [Std.Refl R] [IsTrans σ R]

omit [DecidableEq α] in
theorem rel_retainEntries (hf : ∀ s a b, R s (f s a b).1) (s : σ)
    (l : List (Sigma fun _ : α => β)) : R s (retainEntries f s l).1 := by
  induction l generalizing s with
  | nil => exact refl_of R s
  | cons e l ih => exact trans_of R (hf s e.1 e.2) (ih _)

theorem dlookup_retainEntries (hf : ∀ s a b, R s (f s a b).1) (a : α) (s : σ)
    (l : List (Sigma fun _ : α => β)) (hl : l.NodupKeys) :
    (l.dlookup a = none ∧ (retainEntries f s l).2.dlookup a = none) ∨
      ∃ b s₁, l.dlookup a = some b ∧ R s s₁ ∧ R (f s₁ a b).1 (retainEntries f s l).1 ∧
        (retainEntries f s l).2.dlookup a = (f s₁ a b).2 := by
  induction l generalizing s with
  | nil => exact .inl ⟨rfl, rfl⟩
  | cons e l ih =>
    obtain ⟨a', b⟩ := e
    have hl' := List.nodupKeys_cons.1 hl
    by_cases ha : a = a'
    · subst ha
      -- the key is here, so it is not among the later entries
      have hlater : (retainEntries f (f s a b).1 l).2.dlookup a = none := by
        rw [List.dlookup_eq_none]
        intro hmem
        exact hl'.1 ((keys_retainEntries_sublist _ l).subset hmem)
      refine .inr ⟨b, s, List.dlookup_cons_eq _ _ _, refl_of R s, rel_retainEntries hf _ l, ?_⟩
      simp only [retainEntries]
      cases hkeep : (f s a b).2 with
      | none => exact hlater
      | some c => exact List.dlookup_cons_eq _ _ _
    · have hskip : (retainEntries f s (⟨a', b⟩ :: l)).2.dlookup a =
          (retainEntries f (f s a' b).1 l).2.dlookup a := by
        simp only [retainEntries]
        cases (f s a' b).2 with
        | none => rfl
        | some c => exact List.dlookup_cons_ne _ _ ha
      rw [hskip, List.dlookup_cons_ne _ _ ha]
      rcases ih (f s a' b).1 hl'.2 with hnone | ⟨c, s₁, hc, hs, hfinal, hresult⟩
      · exact .inl hnone
      · exact .inr ⟨c, s₁, hc, trans_of R (hf s a' b) hs, hfinal, hresult⟩

theorem lookup_retainWith (hf : ∀ s a b, R s (f s a b).1) (a : α) :
    (m.lookup a = none ∧ (retainWith f s m).2.lookup a = none) ∨
      ∃ b s₁, m.lookup a = some b ∧ R s s₁ ∧ R (f s₁ a b).1 (retainWith f s m).1 ∧
        (retainWith f s m).2.lookup a = (f s₁ a b).2 :=
  dlookup_retainEntries hf a s m.entries m.nodupKeys

omit [DecidableEq α] in
theorem keys_retainWith_sublist (s : σ) (m : AList fun _ : α => β) :
    List.Sublist (retainWith f s m).2.keys m.keys :=
  keys_retainEntries_sublist s m.entries

omit [DecidableEq α] in
theorem total_retainWith {w : β → Nat} {acc : σ → Nat}
    (h : ∀ s a b, acc (f s a b).1 = acc s + ((f s a b).2.map w).getD 0) (s : σ)
    (m : AList fun _ : α => β) :
    acc (retainWith f s m).1 = acc s + (retainWith f s m).2.total w := by
  simp only [retainWith, total]
  induction m.entries generalizing s with
  | nil => rfl
  | cons e l ih =>
    simp only [retainEntries]
    rw [ih, h]
    cases (f s e.1 e.2).2 with
    | none => rfl
    | some b => simp only [Option.map_some, Option.getD_some, List.map_cons, List.sum_cons,
        Nat.add_assoc]

omit [DecidableEq α] in
theorem total_retainWith_le {w : β → Nat} (h : ∀ s a b, ∀ b' ∈ (f s a b).2, w b' ≤ w b) (s : σ)
    (m : AList fun _ : α => β) : (retainWith f s m).2.total w ≤ m.total w := by
  simp only [retainWith, total]
  induction m.entries generalizing s with
  | nil => exact Nat.le_refl _
  | cons e l ih =>
    simp only [retainEntries]
    have hlater := ih (f s e.1 e.2).1
    cases hkeep : (f s e.1 e.2).2 with
    | none =>
      simp only [List.map_cons, List.sum_cons]
      omega
    | some b =>
      have hle := h s e.1 e.2 b hkeep
      simp only [List.map_cons, List.sum_cons]
      omega

omit [DecidableEq α] in
theorem rel_retainWith (hf : ∀ s a b, R s (f s a b).1) : R s (retainWith f s m).1 :=
  rel_retainEntries hf s m.entries

end RetainWith

end AList
