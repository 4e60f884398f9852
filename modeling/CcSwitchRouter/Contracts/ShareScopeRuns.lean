import CcSwitchRouter.Contracts.Segments
import CcSwitchRouter.Contracts.ShareScopes
import CcSwitchRouter.Pricing.Execution
import Mathlib.Logic.Relation

namespace CcSwitchRouter.ShareTrials

open Store Store.Tx Ledger Wide Relation

def Books.recordedTokens (b : Books) (scopeId : String) : Nat :=
  ((b.termsOf scopeId).map Terms.tokensUsed).sum

def Books.recordedPicos (b : Books) (scopeId : String) : Int :=
  ((b.termsOf scopeId).map Terms.valueUsedPicos).sum

def Terms.unit (x : Terms) : TrialUnit := if x.valueAllowance.isSome then .usd else .tokens

def Terms.budgetIn (x : Terms) : TrialUnit → Int
  | .tokens => x.tokenBudget
  | .usd => x.valueBudget.getD 0

def TrialQuote.NoBudget (q : TrialQuote) : Prop :=
  q.tokenBudget = 0 ∧ ∀ text ∈ q.valueBudgetUsdMicros, text = "0"

theorem trialQuoteTerms_noBudget {source : OfferSource} {allowance : TrialAllowance}
    {x : TrialRemaining} (ht : x.tokenBudget = 0) (hv : x.valueBudgetMicros = 0) :
    (trialQuoteTerms source allowance x).NoBudget := by
  cases allowance with
  | tokens n =>
    simp only [trialQuoteTerms, TrialQuote.NoBudget]
    split <;> simp [ht]
  | usdMicros n =>
    simp only [trialQuoteTerms, TrialQuote.NoBudget]
    split <;> simp [hv] <;> rfl

section Reads

variable {b t : Books} {triple : TrialScope} {scopeId : String}

theorem tokensUsed_ok {used : Nat} (h : b.tokensUsed scopeId = .ok used) :
    used = b.recordedTokens scopeId := by
  simp only [Books.tokensUsed] at h
  split at h
  · next v hv =>
    cases h
    have hsum := checkedSum_eq_some hv
    have hcast : ((b.termsOf scopeId).map fun x => (x.tokensUsed : Int)).sum =
        (b.recordedTokens scopeId : Int) := by
      simp only [Books.recordedTokens, Nat.cast_list_sum, List.map_map]
      rfl
    omega
  · cases h

theorem foldlM_checkedAdd128 {xs : List Int} {v w : Int}
    (h : xs.foldlM checkedAdd128 v = some w) : w = v + xs.sum := by
  induction xs generalizing v with
  | nil =>
    simp only [List.foldlM_nil, Option.pure_def, Option.some.injEq] at h
    simp [h]
  | cons x xs ih =>
    rw [List.foldlM_cons] at h
    obtain ⟨u, hu, h⟩ := Option.bind_eq_some_iff.1 h
    have hadd := (checked128_eq_some.1 hu).1
    rw [ih h, hadd, List.sum_cons]
    ring

theorem valueUsedPicos_ok {used : Int} (h : b.valueUsedPicos scopeId = .ok used) :
    used = b.recordedPicos scopeId := by
  simp only [Books.valueUsedPicos] at h
  split at h
  · next v hv =>
    cases h
    simpa [Books.recordedPicos] using foldlM_checkedAdd128 hv
  · cases h

theorem remainingValueMicros_eq (a used : Int) :
    remainingValueMicros a used = max (a - picosToMicrosCeil used) 0 := by
  have hmin : i128Min ≤ 0 := by decide
  simp only [remainingValueMicros]
  omega

theorem remainingValueMicros_nonneg (a used : Int) : 0 ≤ remainingValueMicros a used :=
  le_max_right _ _

theorem trialSecondsRemainingTx_same (offered : Int) :
    Does Eq (trialSecondsRemainingTx .share triple offered) := by
  refine (Does.require _ _).bind fun _ => Does.ite (fun _ => Does.pure _) fun _ => ?_
  exact (Does.reads _).bind fun _ => (Does.ofOption _ _).bind fun _ => Does.pure _

theorem onDb_same {α : Type} {x : DbTx α} (hx : Does Eq x) : Does Eq (onDb x) := by
  refine Does.zoom fun s a w h => ?_
  rw [← hx _ _ _ h]
  rfl

theorem lockedBudgetExhaustedTx_same (unit : TrialUnit) :
    Does Eq (lockedBudgetExhaustedTx scopeId unit) := by
  cases unit with
  | tokens =>
    refine (Does.reads _).bind fun latest => ?_
    cases latest with
    | none => exact Does.pure _
    | some x => exact (Does.query _).bind fun _ => Does.pure _
  | usd =>
    refine (Does.reads _).bind fun latest => ?_
    cases latest with
    | none => exact Does.pure _
    | some x => exact (Does.query _).bind fun _ => (Does.ofExcept _).bind fun _ => Does.pure _

theorem requireCapabilityTx_same (share : String) : Does Eq (requireCapabilityTx share) :=
  (queryRow_does _ _).bind fun _ => Does.require _ _

theorem capableTx_same (c : Contract) : Does Eq (capableTx c) := by
  refine Does.ite (fun _ => ?_) fun _ => ?_
  · exact (requireCapabilityTx_same _).bind fun _ => Does.pure _
  · exact (queryRow_does _ _).bind fun _ => Does.pure _

def Books.Open (b : Books) (triple : TrialScope) (unit : TrialUnit) : Prop :=
  ∀ r, b.scope? triple = some r → r.endedReason = none ∧ (r.unit = none ∨ r.unit = some unit)

def Books.Names (b : Books) (triple : TrialScope) (scopeId : String) : Prop :=
  match b.scope? triple with
  | some r => scopeId = r.id
  | none => b.termsOf scopeId = []

structure Grants (b : Books) (triple : TrialScope) (allowance : TrialAllowance)
    (x : TrialRemaining) : Prop where
  nonneg : 0 ≤ x.valueBudgetMicros
  tokens : 0 < x.tokenBudget → b.Open triple .tokens ∧ ∃ n, allowance = .tokens n ∧
    ∀ id, b.Names triple id → x.tokenBudget ≤ n - b.recordedTokens id
  value : 0 < x.valueBudgetMicros → b.Open triple .usd ∧ ∃ n, allowance = .usdMicros n ∧
    ∀ id, b.Names triple id → x.valueBudgetMicros ≤ remainingValueMicros n (b.recordedPicos id)

variable {allowance : TrialAllowance} {x : TrialRemaining} {r : Scope} {seconds : Int}

theorem Grants.empty (ht : x.tokenBudget = 0) (hv : x.valueBudgetMicros = 0) :
    Grants b triple allowance x where
  nonneg := hv.ge
  tokens h := by omega
  value h := by omega

theorem Grants.untouched (hno : b.scope? triple = none) (allowance : TrialAllowance)
    (seconds : Int) : Grants b triple allowance (allowance.untouched seconds) := by
  have hopen (unit : TrialUnit) : b.Open triple unit := by
    intro r hr
    rw [hno] at hr
    cases hr
  have hnew {id : String} (h : b.Names triple id) : b.termsOf id = [] := by
    simpa only [Books.Names, hno] using h
  cases allowance with
  | tokens n =>
    refine ⟨le_rfl, fun _ => ⟨hopen _, n, rfl, fun id hid => ?_⟩, fun h => absurd h (lt_irrefl _)⟩
    simp [TrialAllowance.untouched, Books.recordedTokens, hnew hid]
  | usdMicros n =>
    refine ⟨le_max_right _ _, fun h => absurd h (lt_irrefl _),
      fun _ => ⟨hopen _, n, rfl, fun id hid => ?_⟩⟩
    simp only [TrialAllowance.untouched, Books.recordedPicos, hnew hid, List.map_nil,
      List.sum_nil, remainingValueMicros]
    have hceil : picosToMicrosCeil 0 = 0 := by decide
    rw [hceil, sub_zero]
    exact max_le_max_right 0 (le_max_right _ _)

theorem remainingBudgetTx_ok (hr : b.scope? triple = some r) (hopen : b.Open triple allowance.unit)
    (h : remainingBudgetTx r.id seconds allowance b = .ok (x, t)) :
    t = b ∧ Grants b triple allowance x := by
  have hid {id : String} (h : b.Names triple id) : id = r.id := by
    simpa only [Books.Names, hr] using h
  cases allowance with
  | tokens n =>
    rw [remainingBudgetTx, scopeTokensUsedTx, query_bind_ok] at h
    obtain ⟨used, hused, h⟩ := h
    obtain ⟨rfl, rfl⟩ := pure_ok.1 h
    refine ⟨rfl, le_rfl, fun _ => ⟨hopen, n, rfl, fun id hn => ?_⟩, fun h => absurd h (lt_irrefl _)⟩
    rw [hid hn, ← tokensUsed_ok hused]
  | usdMicros n =>
    rw [remainingBudgetTx, scopeValueUsedPicosTx, query_bind_ok] at h
    obtain ⟨used, hused, h⟩ := h
    obtain ⟨rfl, rfl⟩ := pure_ok.1 h
    refine ⟨rfl, remainingValueMicros_nonneg _ _, fun h => absurd h (lt_irrefl _),
      fun _ => ⟨hopen, n, rfl, fun id hn => ?_⟩⟩
    rw [hid hn, ← valueUsedPicos_ok hused]

theorem remainingInUnitTx_ok (h : remainingInUnitTx triple seconds allowance b = .ok (x, t)) :
    t = b ∧ Grants b triple allowance x := by
  rw [remainingInUnitTx, reads_bind] at h
  rcases ite_ok.1 h with ⟨-, h⟩ | ⟨hlive, h⟩
  · obtain ⟨rfl, rfl⟩ := pure_ok.1 h
    exact ⟨rfl, .empty rfl rfl⟩
  rw [reads_bind] at h
  rcases ite_ok.1 h with ⟨-, h⟩ | ⟨-, h⟩
  · obtain ⟨rfl, rfl⟩ := pure_ok.1 h
    exact ⟨rfl, .empty rfl rfl⟩
  obtain ⟨remaining, b₁, hrem, h⟩ := bind_ok.1 h
  obtain rfl := onDb_same (trialSecondsRemainingTx_same _) _ _ _ hrem
  cases hr : b.scope? triple with
  | none =>
    simp only [hr] at h
    obtain ⟨rfl, rfl⟩ := pure_ok.1 h
    exact ⟨rfl, .untouched hr _ _⟩
  | some r =>
    simp only [hr] at h hlive
    have hended : r.endedReason = none := by
      cases he : r.endedReason with
      | none => rfl
      | some reason => simp [he] at hlive
    cases hu : r.unit.filter (· ≠ allowance.unit) with
    | some unit =>
      simp only [hu] at h
      obtain ⟨exhausted, b₂, hex, h⟩ := bind_ok.1 h
      obtain rfl := lockedBudgetExhaustedTx_same unit _ _ _ hex
      obtain ⟨rfl, rfl⟩ := pure_ok.1 h
      exact ⟨rfl, .empty rfl rfl⟩
    | none =>
      simp only [hu] at h
      refine remainingBudgetTx_ok hr ?_ h
      intro r' hr'
      obtain rfl := Option.some.inj (hr.symm.trans hr')
      refine ⟨hended, ?_⟩
      cases hunit : r.unit with
      | none => exact .inl rfl
      | some u => simpa [hunit] using hu

theorem remainingInUnitTx_ended (hr : b.scope? triple = some r) (he : r.endedReason.isSome = true)
    (seconds : Int) (allowance : TrialAllowance) :
    remainingInUnitTx triple seconds allowance b = .ok (.none, b) := by
  rw [remainingInUnitTx, reads_bind, if_pos (.inl (by simp [hr, he]))]
  rfl

theorem quoteTrialTx_ok {n : Int} {source : OfferSource} {q : TrialQuote}
    (h : quoteTrialTx triple seconds source allowance b = .ok ((n, q), t)) :
    ∃ x, remainingInUnitTx triple seconds allowance b = .ok (x, b) ∧
      q = trialQuoteTerms source allowance x := by
  obtain ⟨x, b₁, hx, hrest⟩ := bind_ok.1 h
  obtain rfl := (remainingInUnitTx_ok hx).1
  obtain ⟨_, b₂, -, hpure⟩ := bind_ok.1 hrest
  have hq := (pure_ok.1 hpure).1
  exact ⟨x, hx, (Prod.mk.inj hq).2⟩

theorem quoteTrialTx_ended (hr : b.scope? triple = some r) (he : r.endedReason.isSome = true)
    (seconds : Int) (source : OfferSource) (allowance : TrialAllowance) : ∃ q, q.NoBudget ∧
      quoteTrialTx triple seconds source allowance b = .ok ((0, q), b) := by
  refine ⟨trialQuoteTerms source allowance .none, trialQuoteTerms_noBudget rfl rfl, ?_⟩
  rw [quoteTrialTx, bind_of_ok (remainingInUnitTx_ended hr he seconds allowance)]
  rfl

end Reads

section Acts

structure Scope.Later (r r' : Scope) : Prop where
  id : r'.id = r.id
  triple : r'.triple = r.triple
  ended : r.endedReason.isSome = true → r'.endedReason.isSome = true
  unit : ∀ u, r.unit = some u → r'.unit = some u

structure Terms.Later (x x' : Terms) : Prop where
  contractId : x'.contractId = x.contractId
  scopeId : x'.scopeId = x.scopeId
  budget : ∀ u, x'.budgetIn u = x.budgetIn u
  tokensUsed : x.tokensUsed ≤ x'.tokensUsed
  valueUsedPicos : x.valueUsedPicos ≤ x'.valueUsedPicos

theorem Scope.Later.refl (r : Scope) : r.Later r := ⟨rfl, rfl, fun h => h, fun _ h => h⟩

theorem Scope.Later.trans {r₁ r₂ r₃ : Scope} (h : r₁.Later r₂) (h' : r₂.Later r₃) : r₁.Later r₃ where
  id := h'.id.trans h.id
  triple := h'.triple.trans h.triple
  ended he := h'.ended (h.ended he)
  unit u hu := h'.unit u (h.unit u hu)

theorem Terms.Later.refl (x : Terms) : x.Later x := ⟨rfl, rfl, fun _ => rfl, le_rfl, le_rfl⟩

theorem Terms.Later.trans {x₁ x₂ x₃ : Terms} (h : x₁.Later x₂) (h' : x₂.Later x₃) : x₁.Later x₃ where
  contractId := h'.contractId.trans h.contractId
  scopeId := h'.scopeId.trans h.scopeId
  budget u := (h'.budget u).trans (h.budget u)
  tokensUsed := h.tokensUsed.trans h'.tokensUsed
  valueUsedPicos := h.valueUsedPicos.trans h'.valueUsedPicos

inductive ScopeAct (b t : Books) : Prop
  /-- An `UPDATE` of existing rows. -/
  | update (f : Scope → Scope) (g : Terms → Terms)
      (scopes : t.scopes.rows = b.scopes.rows.map f) (terms : t.terms.rows = b.terms.rows.map g)
      (later : ∀ r ∈ b.scopes.rows, r.Later (f r)) (usage : ∀ x ∈ b.terms.rows, x.Later (g x))
  /-- `INSERT` of the scope of a triple that has none. -/
  | scope (r : Scope) (new : b.scope? r.triple = none)
      (scopes : t.scopes.rows = b.scopes.rows ++ [r]) (terms : t.terms = b.terms)
  /-- `INSERT` of a contract's terms into a scope, with a budget in the scope's unit at most. -/
  | freeze (r : Scope) (x : Terms) (mem : r ∈ b.scopes.rows) (id : x.scopeId = r.id)
      (budget : ∀ u, 0 < x.budgetIn u → r.unit = some u)
      (nonneg : ∀ u, 0 ≤ x.budgetIn u)
      (scopes : t.scopes = b.scopes) (terms : t.terms.rows = b.terms.rows ++ [x])

abbrev ScopeActs := ReflTransGen ScopeAct

theorem ScopeAct.elsewhere {b t : Books} (hs : t.scopes = b.scopes) (ht : t.terms = b.terms) :
    ScopeAct b t := by
  refine .update id id ?_ ?_ (fun r _ => .refl r) fun x _ => .refl x
  · rw [hs, List.map_id]
  · rw [ht, List.map_id]

theorem ScopeAct.updateScopes (b : Books) {p : Scope → Bool} {f : Scope → Scope}
    (hf : ∀ r, Row.key (f r) = Row.key r) (h : ∀ r ∈ b.scopes.rows, p r = true → r.Later (f r)) :
    ScopeAct b (b.updateScopes p f hf) := by
  refine .update (fun r => if p r then f r else r) id rfl (List.map_id _).symm (fun r hr => ?_)
    fun x _ => .refl x
  split
  · next hp => exact h r hr hp
  · exact .refl r

theorem ScopeAct.updateTerms (b : Books) {p : Terms → Bool} {g : Terms → Terms}
    (hg : ∀ x, Row.key (g x) = Row.key x) (h : ∀ x ∈ b.terms.rows, p x = true → x.Later (g x)) :
    ScopeAct b (b.updateTerms p g hg) := by
  refine .update id (fun x => if p x then g x else x) (List.map_id _).symm rfl (fun r _ => .refl r)
    fun x hx => ?_
  split
  · next hp => exact h x hx hp
  · exact .refl x

theorem onDb_acts {α : Type} (x : DbTx α) : Does ScopeActs (onDb x) :=
  Does.zoom fun _ _ _ _ => .single (.elsewhere rfl rfl)

theorem endScopeTx_acts (scopeId reason : String) (now : Instant) :
    Does ScopeActs (endScopeTx scopeId reason now) := by
  refine Does.modify fun b => .single (.updateScopes b _ fun r _ _ => ⟨rfl, rfl, fun h => ?_, ?_⟩)
  · simp [Scope.finish]
  · exact fun _ hu => hu

theorem setEndReasonTx_acts (p : Terms → Bool) (reason : String) :
    Does ScopeActs (setEndReasonTx p reason) :=
  Does.modify fun b => .single (.updateTerms b _ fun _ _ _ =>
    ⟨rfl, rfl, fun u => by cases u <;> rfl, le_rfl, le_rfl⟩)

theorem requestTx_acts (contractId reason : String) (now : Instant) :
    Does ScopeActs (requestTx contractId reason now) := by
  refine (queryRow_does _ _).bind fun _ => (queryRow_does _ _).bind fun x => ?_
  refine Does.ite (fun _ => Does.pure _) fun _ => ?_
  exact (endScopeTx_acts _ _ _).bind fun _ => (onDb_acts _).bind fun _ => setEndReasonTx_acts _ _

theorem isolateScopeTx_acts (contractId reason : String) (now : Instant) :
    Does ScopeActs (isolateScopeTx contractId reason now) :=
  (queryRow_does _ _).bind fun _ => (Does.reads _).bind fun _ =>
    (endScopeTx_acts _ _ _).bind fun _ => (setEndReasonTx_acts _ _).bind fun _ => onDb_acts _

variable {b t : Books}

theorem recordUsageTx_acts {x : Terms} {e : Entitlement} {now : Instant} {u : Unit}
    (hx : b.terms.get? x.contractId = some x) (h : recordUsageTx x e now b = .ok (u, t)) :
    ScopeActs b t := by
  obtain ⟨reported, -, h⟩ := ofExcept_bind_ok.1 h
  obtain ⟨hcons, h⟩ := require_bind_ok.1 h
  obtain ⟨-, h⟩ := require_bind_ok.1 h
  rw [modify_bind] at h
  have hact : ScopeAct b (b.updateTerms (fun y => y.contractId == x.contractId)
      (fun y => y.record e reported) fun _ => rfl) := by
    refine .updateTerms b _ fun y hy hk => ?_
    obtain rfl : y = x := Option.some.inj
      ((Table.get?_eq_some.2 ⟨hy, beq_iff_eq.1 hk⟩).symm.trans hx)
    simp only [Terms.Contradicts, not_or, not_lt] at hcons
    exact ⟨rfl, rfl, fun u => by cases u <;> rfl, hcons.1, hcons.2.1⟩
  refine .head hact ?_
  exact Does.when (fun _ => isolateScopeTx_acts _ _ _) _ _ _ h

theorem observeOneTx_acts (share : String) (now : Instant) (id : String) (e : Entitlement) :
    Does ScopeActs (observeOneTx share now id e) := by
  intro b u t h
  rw [observeOneTx, reads_bind] at h
  cases hw : b.watched? share id e.email with
  | none =>
    simp only [hw] at h
    rw [(pure_ok.1 h).2]
  | some contractId =>
    simp only [hw] at h
    obtain ⟨x, hx, h⟩ := queryRow_bind_ok.1 h
    obtain ⟨-, h⟩ := require_bind_ok.1 h
    rcases ite_ok.1 h with ⟨-, h⟩ | ⟨-, h⟩
    · rw [(pure_ok.1 h).2]
    · have hkey : x.contractId = contractId := Table.key_of_get? hx
      exact recordUsageTx_acts (hkey ▸ hx) h

theorem observeTx_acts (share : String) (states : List (String × Entitlement)) (now : Instant) :
    Does ScopeActs (observeTx share states now) :=
  Does.forEach fun _ _ => observeOneTx_acts _ _ _ _

end Acts

section Invariant

variable {b t : Books} {triple : TrialScope} {r : Scope} {x : Terms}

theorem scope?_mem (h : b.scope? triple = some r) : r ∈ b.scopes.rows ∧ r.triple = triple :=
  ⟨List.mem_of_find?_eq_some h, by simpa using List.find?_some h⟩

theorem scope?_none (h : b.scope? triple = none) (hr : r ∈ b.scopes.rows) : r.triple ≠ triple := by
  simpa using List.find?_eq_none.1 h r hr

structure Inv (b : Books) : Prop where
  unique : ∀ r ∈ b.scopes.rows, ∀ r' ∈ b.scopes.rows, r.triple = r'.triple → r = r'
  parent : ∀ x ∈ b.terms.rows, ∃ r ∈ b.scopes.rows, r.id = x.scopeId
  budget : ∀ x ∈ b.terms.rows, ∀ r ∈ b.scopes.rows, r.id = x.scopeId →
    ∀ u, 0 < x.budgetIn u → r.unit = some u
  nonneg : ∀ x ∈ b.terms.rows, ∀ u, 0 ≤ x.budgetIn u

theorem Inv.scope? (h : Inv b) (hr : r ∈ b.scopes.rows) : b.scope? r.triple = some r := by
  cases hs : b.scope? r.triple with
  | none => exact absurd rfl (scope?_none hs hr)
  | some r' =>
    obtain ⟨hmem, ht⟩ := scope?_mem hs
    rw [h.unique r' hmem r hr ht]

structure Grown (b t : Books) : Prop where
  scopes : ∀ r ∈ b.scopes.rows, ∃ r' ∈ t.scopes.rows, r.Later r'
  terms : ∀ x ∈ b.terms.rows, ∃ x' ∈ t.terms.rows, x.Later x'

theorem Grown.refl (b : Books) : Grown b b :=
  ⟨fun r hr => ⟨r, hr, .refl r⟩, fun x hx => ⟨x, hx, .refl x⟩⟩

theorem Grown.trans {b₁ b₂ b₃ : Books} (h : Grown b₁ b₂) (h' : Grown b₂ b₃) : Grown b₁ b₃ := by
  constructor
  · intro r hr
    obtain ⟨r₂, hr₂, hl⟩ := h.scopes r hr
    obtain ⟨r₃, hr₃, hl'⟩ := h'.scopes r₂ hr₂
    exact ⟨r₃, hr₃, hl.trans hl'⟩
  · intro x hx
    obtain ⟨x₂, hx₂, hl⟩ := h.terms x hx
    obtain ⟨x₃, hx₃, hl'⟩ := h'.terms x₂ hx₂
    exact ⟨x₃, hx₃, hl.trans hl'⟩

theorem ScopeAct.grown (h : ScopeAct b t) : Grown b t := by
  cases h with
  | update f g hs ht hf hg =>
    constructor
    · intro r hr
      exact ⟨f r, hs ▸ List.mem_map_of_mem hr, hf r hr⟩
    · intro x hx
      exact ⟨g x, ht ▸ List.mem_map_of_mem hx, hg x hx⟩
  | scope r hnew hs ht =>
    constructor
    · intro r' hr'
      exact ⟨r', hs ▸ List.mem_append_left _ hr', .refl r'⟩
    · intro x hx
      exact ⟨x, ht ▸ hx, .refl x⟩
  | freeze r x hr hid hbudget hnonneg hs ht =>
    constructor
    · intro r' hr'
      exact ⟨r', hs ▸ hr', .refl r'⟩
    · intro y hy
      exact ⟨y, ht ▸ List.mem_append_left _ hy, .refl y⟩

theorem Inv.update {f : Scope → Scope} {g : Terms → Terms} (h : Inv b)
    (hs : t.scopes.rows = b.scopes.rows.map f) (ht : t.terms.rows = b.terms.rows.map g)
    (hf : ∀ r ∈ b.scopes.rows, r.Later (f r)) (hg : ∀ x ∈ b.terms.rows, x.Later (g x)) :
    Inv t where
  unique := by
    rw [hs, List.forall_mem_map]
    intro r hr
    rw [List.forall_mem_map]
    intro r' hr' htriple
    rw [(hf r hr).triple, (hf r' hr').triple] at htriple
    rw [h.unique r hr r' hr' htriple]
  parent := by
    rw [ht, List.forall_mem_map]
    intro x hx
    obtain ⟨r, hr, hid⟩ := h.parent x hx
    exact ⟨f r, hs ▸ List.mem_map_of_mem hr, by rw [(hf r hr).id, (hg x hx).scopeId, hid]⟩
  budget := by
    rw [ht, hs, List.forall_mem_map]
    intro x hx
    rw [List.forall_mem_map]
    intro r hr hid u hu
    rw [(hf r hr).id, (hg x hx).scopeId] at hid
    rw [(hg x hx).budget] at hu
    exact (hf r hr).unit u (h.budget x hx r hr hid u hu)
  nonneg := by
    rw [ht, List.forall_mem_map]
    intro x hx u
    rw [(hg x hx).budget]
    exact h.nonneg x hx u

theorem Inv.insertScope (h : Inv b) (hnew : b.scope? r.triple = none)
    (hs : t.scopes.rows = b.scopes.rows ++ [r]) (ht : t.terms = b.terms) : Inv t where
  unique := by
    intro r₁ h₁ r₂ h₂ htriple
    rw [hs, List.mem_append, List.mem_singleton] at h₁ h₂
    rcases h₁ with h₁ | rfl <;> rcases h₂ with h₂ | rfl
    · exact h.unique r₁ h₁ r₂ h₂ htriple
    · exact absurd htriple (scope?_none hnew h₁)
    · exact absurd htriple.symm (scope?_none hnew h₂)
    · rfl
  parent := by
    intro x hx
    obtain ⟨r', hr', hid⟩ := h.parent x (ht ▸ hx)
    exact ⟨r', hs ▸ List.mem_append_left _ hr', hid⟩
  budget := by
    intro x hx r' hr' hid u hu
    rw [ht] at hx
    obtain ⟨r₀, hr₀, hid₀⟩ := h.parent x hx
    -- the scope the terms point to existed before, so it is not the new one
    obtain rfl : r' = r₀ :=
      Table.eq_of_key hr' (hs ▸ List.mem_append_left _ hr₀) (hid.trans hid₀.symm)
    exact h.budget x hx r' hr₀ hid u hu
  nonneg := by
    rw [ht]
    exact h.nonneg

theorem Inv.freeze (h : Inv b) (hr : r ∈ b.scopes.rows) (hid : x.scopeId = r.id)
    (hbudget : ∀ u, 0 < x.budgetIn u → r.unit = some u) (hnonneg : ∀ u, 0 ≤ x.budgetIn u)
    (hs : t.scopes = b.scopes) (ht : t.terms.rows = b.terms.rows ++ [x]) : Inv t where
  unique := by
    rw [hs]
    exact h.unique
  parent := by
    intro y hy
    rw [ht, List.mem_append, List.mem_singleton] at hy
    rw [hs]
    rcases hy with hy | rfl
    · exact h.parent y hy
    · exact ⟨r, hr, hid.symm⟩
  budget := by
    intro y hy r' hr' hid' u hu
    rw [ht, List.mem_append, List.mem_singleton] at hy
    rw [hs] at hr'
    rcases hy with hy | rfl
    · exact h.budget y hy r' hr' hid' u hu
    · obtain rfl : r' = r := Table.eq_of_key hr' hr (hid'.trans hid)
      exact hbudget u hu
  nonneg := by
    intro y hy
    rw [ht, List.mem_append, List.mem_singleton] at hy
    rcases hy with hy | rfl
    · exact h.nonneg y hy
    · exact hnonneg

theorem Inv.act (h : Inv b) (hact : ScopeAct b t) : Inv t := by
  cases hact with
  | update f g hs ht hf hg => exact h.update hs ht hf hg
  | scope r hnew hs ht => exact h.insertScope hnew hs ht
  | freeze r x hr hid hbudget hnonneg hs ht => exact h.freeze hr hid hbudget hnonneg hs ht

theorem ScopeActs.grown (h : ScopeActs b t) : Grown b t := by
  induction h with
  | refl => exact .refl b
  | tail _ hact ih => exact ih.trans hact.grown

theorem Inv.acts (h : Inv b) (hacts : ScopeActs b t) : Inv t := by
  induction hacts with
  | refl => exact h
  | tail _ hact ih => exact ih.act hact

end Invariant

section Prepare

variable {b b₁ t : Books} {triple : TrialScope} {r : Scope} {unit : Option TrialUnit}

theorem withScope_cases (b : Books) (id : String) (triple : TrialScope) :
    b.withScope id triple = b ∨ ∃ scopes, b.scope? triple = none ∧
      b.scopes.insert? ⟨id, triple, none, none, none⟩ = some scopes ∧
        b.withScope id triple = { b with scopes } := by
  simp only [Books.withScope]
  cases hs : b.scope? triple with
  | some r => exact .inl rfl
  | none =>
    cases hi : b.scopes.insert? ⟨id, triple, none, none, none⟩ with
    | none => exact .inl rfl
    | some scopes => exact .inr ⟨scopes, rfl, rfl, rfl⟩

theorem withScope_act (b : Books) (id : String) (triple : TrialScope) :
    ScopeAct b (b.withScope id triple) := by
  rcases withScope_cases b id triple with h | ⟨scopes, hnew, hi, h⟩
  · rw [h]
    exact .elsewhere rfl rfl
  · rw [h]
    exact .scope ⟨id, triple, none, none, none⟩ hnew (Table.insert?_rows hi) rfl

structure Opened (b : Books) (triple : TrialScope) (unit : Option TrialUnit) (r : Scope) : Prop where
  unit : r.unit = ((b.scope? triple).bind Scope.unit).or unit
  old : ∀ r', b.scope? triple = some r' → r.id = r'.id
  new : b.scope? triple = none → ∀ r' ∈ b.scopes.rows, r'.id ≠ r.id

theorem withScope_scope? {id : String} (h : (b.withScope id triple).scope? triple = some r) :
    Opened b triple none r := by
  rcases withScope_cases b id triple with hw | ⟨scopes, hnew, hi, hw⟩
  · rw [hw] at h
    refine ⟨by simp [h], fun r' hr' => ?_, fun hnone => ?_⟩
    · rw [Option.some.inj (h.symm.trans hr')]
    · rw [hnone] at h
      cases h
  · have hfind : ({ b with scopes } : Books).scope? triple =
        some ⟨id, triple, none, none, none⟩ := by
      simp only [Books.scope?, Table.insert?_rows hi, List.find?_append]
      have hnone : b.scopes.rows.find? (fun r => r.triple == triple) = none := hnew
      simp [hnone]
    rw [hw, hfind] at h
    obtain rfl := Option.some.inj h
    refine ⟨by simp [hnew], fun r' hr' => ?_, fun _ r' hr' => ?_⟩
    · rw [hnew] at hr'
      cases hr'
    · exact Table.get?_eq_none.1 (Table.insert?_new hi) r' hr'

theorem scope?_lock : (b.updateScopes (fun r => r.triple == triple)
    (fun r => { r with unit := r.unit.or unit }) fun _ => rfl).scope? triple =
      (b.scope? triple).map fun r => { r with unit := r.unit.or unit } := by
  simp only [Books.scope?, Books.updateScopes, Table.rows_updateWhere, List.find?_map]
  have hpred : ((fun r : Scope => r.triple == triple) ∘ fun r =>
      if (r.triple == triple) = true then { r with unit := r.unit.or unit } else r) =
      fun r => r.triple == triple := by
    funext r
    simp only [Function.comp]
    split <;> rfl
  rw [hpred]
  cases hf : b.scopes.rows.find? (fun r => r.triple == triple) with
  | none => rfl
  | some r =>
    have ht := List.find?_some hf
    simp only [Option.map_some, ht, if_true]

variable {u : Unit}

theorem openScopeTx_ok (h : openScopeTx triple unit b = .ok (u, t)) :
    ScopeActs b t ∧ t.terms = b.terms ∧ ∀ r, t.scope? triple = some r → Opened b triple unit r := by
  obtain ⟨id, b₁, hid, h⟩ := bind_ok.1 h
  obtain ⟨w, -, rfl⟩ := zoom_ok.1 hid
  rw [modify_bind] at h
  obtain rfl := modify_ok.1 h
  let b₁ : Books := { b with db := w }
  refine ⟨?_, ?_, ?_⟩
  · have hfirst : ScopeAct b b₁ := .elsewhere rfl rfl
    have hsecond : ScopeAct b₁ (b₁.withScope id triple) := withScope_act b₁ id triple
    refine .trans (.single hfirst) (.trans (.single hsecond) (.single ?_))
    refine .updateScopes _ _ fun r _ _ => ⟨rfl, rfl, fun he => he, fun v hv => ?_⟩
    simp [hv]
  · have hterms : (b₁.withScope id triple).terms = b₁.terms := by
      rcases withScope_cases b₁ id triple with hw | ⟨scopes, -, -, hw⟩ <;> rw [hw]
    exact hterms
  · intro r hr
    have hr' := scope?_lock.symm.trans hr
    obtain ⟨r₀, hr₀, rfl⟩ := Option.map_eq_some_iff.1 hr'
    have hopened : Opened b₁ triple none r₀ := withScope_scope? hr₀
    refine ⟨?_, hopened.old, hopened.new⟩
    have hunit := hopened.unit
    simp only [Option.or_none] at hunit
    exact congrArg (Option.or · unit) hunit

theorem freezeTx_ok {c : Contract} {entitlementId : String} {q : TrialQuote}
    {valueAllowance valueBudget : Option Int} {now : Instant}
    (h : freezeTx c entitlementId q valueAllowance valueBudget now b = .ok (u, t)) :
    t = b ∨ ∃ r, b.scope? c.trialScope = some r ∧ t.scopes = b.scopes ∧
      t.terms.rows = b.terms.rows ++ [.freeze c r.id q valueAllowance valueBudget now] := by
  rw [freezeTx, reads_bind] at h
  cases hr : b.scope? c.trialScope with
  | none =>
    simp only [hr] at h
    exact .inl (pure_ok.1 h).2
  | some r =>
    simp only [hr] at h
    rw [reads_bind, require_bind_ok] at h
    obtain ⟨-, h⟩ := h
    obtain ⟨_, b₁, hdb, h⟩ := bind_ok.1 h
    obtain ⟨w, -, rfl⟩ := zoom_ok.1 hdb
    obtain ⟨terms, hterms, rfl⟩ := insertRow_ok.1 h
    exact .inr ⟨r, rfl, rfl, Table.insert?_rows hterms⟩

structure Prepared (q : TrialQuote) (b : Books) (c : Contract)
    (valueAllowance valueBudget : Option Int) (current : TrialRemaining) (b₁ : Books) : Prop where
  allowance : frozenMicros q.valueAllowanceUsdMicros = .ok valueAllowance
  budget : frozenMicros q.valueBudgetUsdMicros = .ok valueBudget
  valid : q.Valid valueAllowance valueBudget
  grants : Grants b c.trialScope (q.allowance valueAllowance) current
  fits : 0 < c.trialSecondsRemaining → ¬ q.drifted valueBudget current
  opened : openScopeTx c.trialScope (if 0 < c.trialSecondsRemaining
    then some (q.allowance valueAllowance).unit else none) b = .ok ((), b₁)

theorem prepareTx_ok {contractId entitlementId : String} {q : TrialQuote} {now : Instant}
    (h : prepareTx contractId entitlementId q now b = .ok (u, t)) :
    t = b ∨ ∃ c valueAllowance valueBudget current b₁,
      b.db.core.contracts.get? contractId = some c ∧
      Prepared q b c valueAllowance valueBudget current b₁ ∧
      freezeTx c entitlementId q valueAllowance valueBudget now b₁ = .ok (u, t) := by
  obtain ⟨valueAllowance, ha, h⟩ := ofExcept_bind_ok.1 h
  obtain ⟨valueBudget, hd, h⟩ := ofExcept_bind_ok.1 h
  obtain ⟨hvalid, h⟩ := require_bind_ok.1 h
  obtain ⟨c, hc, h⟩ := queryRow_bind_ok.1 h
  obtain ⟨capable, b₀, hcap, h⟩ := bind_ok.1 h
  have hsame : b = b₀ := capableTx_same c _ _ _ hcap
  subst hsame
  rcases ite_ok.1 h with ⟨-, h⟩ | ⟨-, h⟩
  · exact .inl (pure_ok.1 h).2
  obtain ⟨current, b₂, hcur, hrest⟩ := bind_ok.1 h
  obtain ⟨rfl, hgrants⟩ := remainingInUnitTx_ok hcur
  obtain ⟨hfits, hwrite⟩ := require_bind_ok.1 hrest
  obtain ⟨_, b₁, hopen, hfreeze⟩ := bind_ok.1 hwrite
  exact .inr ⟨c, valueAllowance, valueBudget, current, b₁, hc,
    ⟨ha, hd, hvalid, hgrants, fun hpos hdrift => hfits ⟨hpos, hdrift⟩, hopen⟩, hfreeze⟩

theorem frozenMicros_nonneg {raw : Option String} {v : Option Int} (h : frozenMicros raw = .ok v) :
    0 ≤ v.getD 0 := by
  simp only [frozenMicros] at h
  split at h
  · cases h
    exact le_rfl
  · next text =>
    simp only [parseValueMicros] at h
    cases hp : Pricing.unsignedDecimal text with
    | error e => simp [hp] at h
    | ok micros =>
      have hnonneg := Pricing.unsignedDecimal_nonneg hp
      simp only [hp] at h
      split at h
      · next w hw =>
        cases h
        split at hw
        · cases hw
          exact hnonneg
        · cases hw
      · cases h

section Frozen

variable {q : TrialQuote} {now : Instant} {c : Contract} {valueAllowance valueBudget : Option Int}
  {current : TrialRemaining} {scopeId : String}

theorem freeze_budgetIn_tokens : (Terms.freeze c scopeId q valueAllowance valueBudget now).budgetIn
    .tokens = if 0 < c.trialSecondsRemaining then (q.tokenBudget : Int) else 0 := by
  simp only [Terms.budgetIn, Terms.freeze]
  split <;> rfl

theorem freeze_budgetIn_usd : (Terms.freeze c scopeId q valueAllowance valueBudget now).budgetIn
    .usd = if 0 < c.trialSecondsRemaining then valueBudget.getD 0 else 0 := by
  simp only [Terms.budgetIn, Terms.freeze]
  cases valueBudget with
  | none => simp
  | some d => simp

theorem Prepared.nonneg (h : Prepared q b c valueAllowance valueBudget current b₁)
    (u : TrialUnit) :
    0 ≤ (Terms.freeze c scopeId q valueAllowance valueBudget now).budgetIn u := by
  cases u with
  | tokens => exact Int.natCast_nonneg _
  | usd =>
    rw [freeze_budgetIn_usd]
    split
    · exact frozenMicros_nonneg h.budget
    · exact le_rfl

theorem Prepared.granted (h : Prepared q b c valueAllowance valueBudget current b₁)
    {u : TrialUnit}
    (hpos : 0 < (Terms.freeze c scopeId q valueAllowance valueBudget now).budgetIn u) :
    0 < c.trialSecondsRemaining ∧ b.Open c.trialScope u ∧ (q.allowance valueAllowance).unit = u := by
  cases u with
  | tokens =>
    rw [freeze_budgetIn_tokens] at hpos
    split at hpos
    · next htrial =>
      have hfits := h.fits htrial
      simp only [TrialQuote.drifted, not_or, not_lt] at hfits
      obtain ⟨hopen, n, hn, -⟩ := h.grants.tokens (by omega)
      exact ⟨htrial, hopen, by rw [hn]; rfl⟩
    · exact absurd hpos (lt_irrefl _)
  | usd =>
    rw [freeze_budgetIn_usd] at hpos
    split at hpos
    · next htrial =>
      have hfits := h.fits htrial
      simp only [TrialQuote.drifted, not_or, not_lt] at hfits
      obtain ⟨hopen, n, hn, -⟩ := h.grants.value (by omega)
      exact ⟨htrial, hopen, by rw [hn]; rfl⟩
    · exact absurd hpos (lt_irrefl _)

theorem Prepared.scopeUnit (h : Prepared q b c valueAllowance valueBudget current b₁)
    (hr : b₁.scope? c.trialScope = some r) {u : TrialUnit}
    (hpos : 0 < (Terms.freeze c scopeId q valueAllowance valueBudget now).budgetIn u) :
    r.unit = some u := by
  obtain ⟨htrial, hopen, hunit⟩ := h.granted hpos
  have hopened := (openScopeTx_ok h.opened).2.2 r hr
  rw [hopened.unit, if_pos htrial, hunit]
  cases hs : b.scope? c.trialScope with
  | none => rfl
  | some old =>
    rcases (hopen old hs).2 with hold | hold <;> simp [hold]

theorem prepareTx_acts (contractId entitlementId : String) (q : TrialQuote) (now : Instant) :
    Does ScopeActs (prepareTx contractId entitlementId q now) := by
  intro b u t h
  rcases prepareTx_ok h with rfl | ⟨c, valueAllowance, valueBudget, current, b₁, -, hp, hf⟩
  · exact .refl
  obtain ⟨hacts, -, -⟩ := openScopeTx_ok hp.opened
  rcases freezeTx_ok hf with rfl | ⟨r, hr, hscopes, hterms⟩
  · exact hacts
  refine .tail hacts (.freeze r _ (scope?_mem hr).1 rfl (fun u hu => ?_) (fun u => ?_) hscopes hterms)
  · exact hp.scopeUnit hr hu
  · exact hp.nonneg u

theorem Prepared.within (h : Prepared q b c valueAllowance valueBudget current b₁)
    (hid : b.Names c.trialScope scopeId) :
    (if 0 < c.trialSecondsRemaining then q.tokenBudget else 0) ≤
      q.tokenAllowance - b.recordedTokens scopeId ∧
    ∀ d ∈ valueBudget, ∃ a ∈ valueAllowance, (if 0 < c.trialSecondsRemaining then d else 0) ≤
      remainingValueMicros a (b.recordedPicos scopeId) := by
  constructor
  · by_cases htrial : 0 < c.trialSecondsRemaining
    · rw [if_pos htrial]
      have hfits := h.fits htrial
      simp only [TrialQuote.drifted, not_or, not_lt] at hfits
      rcases Nat.eq_zero_or_pos q.tokenBudget with hzero | hpos
      · rw [hzero]
        exact Nat.zero_le _
      · obtain ⟨-, n, hn, hle⟩ := h.grants.tokens (by omega)
        have hallow : n = q.tokenAllowance := by
          cases hv : valueAllowance with
          | none =>
            simp only [TrialQuote.allowance, hv, TrialAllowance.tokens.injEq] at hn
            exact hn.symm
          | some a => simp [TrialQuote.allowance, hv] at hn
        have := hle scopeId hid
        omega
    · rw [if_neg htrial]
      exact Nat.zero_le _
  · intro d hd
    have hboth := h.valid.2.2.2.2.1
    rw [Option.mem_def.1 hd, Option.isSome_some] at hboth
    obtain ⟨a, ha⟩ := Option.isSome_iff_exists.1 hboth
    refine ⟨a, ha, ?_⟩
    by_cases htrial : 0 < c.trialSecondsRemaining
    · rw [if_pos htrial]
      have hfits := h.fits htrial
      simp only [TrialQuote.drifted, not_or, not_lt, Option.mem_def.1 hd, Option.getD_some] at hfits
      rcases le_or_gt d 0 with hzero | hpos
      · exact hzero.trans (remainingValueMicros_nonneg _ _)
      · obtain ⟨-, n, hn, hle⟩ := h.grants.value (by omega)
        have hallow : n = a := by
          simp only [TrialQuote.allowance, ha, TrialAllowance.usdMicros.injEq] at hn
          exact hn.symm
        have := hle scopeId hid
        rw [hallow] at this
        exact hfits.2.2.2.trans this
    · rw [if_neg htrial]
      exact remainingValueMicros_nonneg _ _

end Frozen

end Prepare

section Runs

/-- The moves of a run. Quotes only read; everything outside the two trial tables, such as new
contracts, releases, policies and reported subscriptions, may change in any way. -/
inductive ShareStep (b : Books) : Books → Prop
  | quote (triple : TrialScope) (seconds : Int) (source : OfferSource) (allowance : TrialAllowance) :
      ShareStep b (commit (quoteTrialTx triple seconds source allowance) b)
  | prepare (contractId entitlementId : String) (q : TrialQuote) (now : Instant) :
      ShareStep b (commit (prepareTx contractId entitlementId q now) b)
  | observe (share : String) (states : List (String × Entitlement)) (now : Instant) :
      ShareStep b (commit (observeTx share states now) b)
  | request (contractId reason : String) (now : Instant) :
      ShareStep b (commit (requestTx contractId reason now) b)
  | isolate (contractId reason : String) (now : Instant) :
      ShareStep b (commit (isolateScopeTx contractId reason now) b)
  | elsewhere (db : Db) (accessPolicyVersion : String → Option Int) (renterEmail : String → String) :
      ShareStep b { b with db, accessPolicyVersion, renterEmail }

variable {b₀ b b' t : Books}

theorem quoteTrialTx_acts (triple : TrialScope) (seconds : Int) (source : OfferSource)
    (allowance : TrialAllowance) : Does ScopeActs (quoteTrialTx triple seconds source allowance) := by
  refine Does.bind (fun b x t h => ?_) fun x => ?_
  · rw [(remainingInUnitTx_ok h).1]
  · refine Does.bind (Does.when fun _ => ?_) fun _ => Does.pure _
    exact (queryRow_does _ _).bind fun _ => Does.require _ _

theorem ShareStep.acts (h : ShareStep b t) : ScopeActs b t := by
  cases h with
  | quote triple seconds source allowance =>
    exact (quoteTrialTx_acts triple seconds source allowance).commit b
  | prepare contractId entitlementId q now =>
    exact (prepareTx_acts contractId entitlementId q now).commit b
  | observe share states now => exact (observeTx_acts share states now).commit b
  | request contractId reason now => exact (requestTx_acts contractId reason now).commit b
  | isolate contractId reason now => exact (isolateScopeTx_acts contractId reason now).commit b
  | elsewhere db policy email => exact .single (.elsewhere rfl rfl)

theorem run_acts (h : ReflTransGen ShareStep b t) : ScopeActs b t := by
  induction h with
  | refl => exact .refl
  | tail _ hstep ih => exact ih.trans hstep.acts

def Books.NoTrials (b : Books) : Prop := b.scopes.rows = [] ∧ b.terms.rows = []

theorem Inv.start (h : b.NoTrials) : Inv b := by
  obtain ⟨hs, ht⟩ := h
  constructor <;> simp [hs, ht]

variable {r : Scope} {q : TrialQuote}

theorem Inv.laterScope (hinv : Inv b') (hgrown : Grown b b') (hr : r ∈ b.scopes.rows) :
    ∃ r', b'.scope? r.triple = some r' ∧ r.Later r' := by
  obtain ⟨r', hr', hlater⟩ := hgrown.scopes r hr
  exact ⟨r', hlater.triple ▸ hinv.scope? hr', hlater⟩

theorem quote_noBudget_of_unit {u : TrialUnit} {triple : TrialScope} {seconds n : Int}
    {source : OfferSource} {allowance : TrialAllowance} (hr : b.scope? triple = some r)
    (hu : r.unit = some u) (hne : allowance.unit ≠ u)
    (h : quoteTrialTx triple seconds source allowance b = .ok ((n, q), t)) : q.NoBudget := by
  obtain ⟨x, hx, rfl⟩ := quoteTrialTx_ok h
  have hgrants := (remainingInUnitTx_ok hx).2
  have hshut {v : TrialUnit} (hopen : b.Open triple v) : v = u := by
    rcases (hopen r hr).2 with hnone | hsome
    · rw [hnone] at hu
      cases hu
    · exact Option.some.inj (hsome.symm.trans hu)
  apply trialQuoteTerms_noBudget
  · rcases Nat.eq_zero_or_pos x.tokenBudget with hzero | hpos
    · exact hzero
    · obtain ⟨hopen, m, rfl, -⟩ := hgrants.tokens hpos
      exact absurd (hshut hopen) hne
  · rcases hgrants.nonneg.eq_or_lt with hzero | hpos
    · exact hzero.symm
    · obtain ⟨hopen, m, rfl, -⟩ := hgrants.value hpos
      exact absurd (hshut hopen) hne

theorem frozen_row {contractId entitlementId : String} {now : Instant} {u : Unit} {x : Terms}
    (h : prepareTx contractId entitlementId q now b = .ok (u, t)) (hx : x ∈ t.terms.rows)
    (hnew : x ∉ b.terms.rows) :
    ∃ c valueAllowance valueBudget current b₁ r, b.db.core.contracts.get? contractId = some c ∧
      Prepared q b c valueAllowance valueBudget current b₁ ∧ r ∈ t.scopes.rows ∧
      Opened b c.trialScope (if 0 < c.trialSecondsRemaining
        then some (q.allowance valueAllowance).unit else none) r ∧
      x = .freeze c r.id q valueAllowance valueBudget now := by
  rcases prepareTx_ok h with rfl | ⟨c, valueAllowance, valueBudget, current, b₁, hc, hp, hf⟩
  · exact absurd hx hnew
  obtain ⟨-, hterms₁, hopened⟩ := openScopeTx_ok hp.opened
  rcases freezeTx_ok hf with rfl | ⟨r, hr, hscopes, hterms⟩
  · rw [hterms₁] at hx
    exact absurd hx hnew
  rw [hterms, hterms₁, List.mem_append, List.mem_singleton] at hx
  refine ⟨c, valueAllowance, valueBudget, current, b₁, r, hc, hp, ?_, hopened r hr,
    hx.resolve_left hnew⟩
  rw [hscopes]
  exact (scope?_mem hr).1

theorem Inv.names (hinv : Inv b) {triple : TrialScope} {unit : Option TrialUnit}
    (h : Opened b triple unit r) : b.Names triple r.id := by
  simp only [Books.Names]
  cases hs : b.scope? triple with
  | some old => exact h.old old hs
  | none =>
    apply List.filter_eq_nil_iff.2
    intro x hx hid
    obtain ⟨old, hold, hparent⟩ := hinv.parent x hx
    exact h.new hs old hold (hparent.trans (beq_iff_eq.1 hid))

theorem freeze_unit {c : Contract} {scopeId : String} {valueAllowance valueBudget : Option Int}
    {now : Instant} :
    (Terms.freeze c scopeId q valueAllowance valueBudget now).unit =
      (q.allowance valueAllowance).unit := by
  cases valueAllowance <;> rfl

/-- One-time Share trials. From any reachable books on: an ended scope gives neither trial time nor
a budget; a fixed unit stays, and the other unit has no budget in any quote or contract; recorded
usage never decreases; and a contract is frozen with at most what its scope has left of the offered
allowance, in a scope whose unit its first trial contract fixed. -/
theorem share_trial_scopes_one_time (h₀ : b₀.NoTrials) (hb : ReflTransGen ShareStep b₀ b)
    (hb' : ReflTransGen ShareStep b b') :
    (∀ r ∈ b.scopes.rows, r.endedReason.isSome = true → ∀ seconds source allowance,
      ∃ q, q.NoBudget ∧
        quoteTrialTx r.triple seconds source allowance b' = .ok ((0, q), b')) ∧
    (∀ r ∈ b.scopes.rows, ∀ u, r.unit = some u →
      (∃ r', b'.scope? r.triple = some r' ∧ r'.id = r.id ∧ r'.unit = some u) ∧
      (∀ seconds source allowance n q t, allowance.unit ≠ u →
        quoteTrialTx r.triple seconds source allowance b' = .ok ((n, q), t) → q.NoBudget) ∧
      ∀ x ∈ b'.terms.rows, x.scopeId = r.id → ∀ v, v ≠ u → x.budgetIn v = 0) ∧
    (∀ x ∈ b.terms.rows, ∃ x' ∈ b'.terms.rows, x'.contractId = x.contractId ∧
      x.tokensUsed ≤ x'.tokensUsed ∧ x.valueUsedPicos ≤ x'.valueUsedPicos) ∧
    (∀ contractId entitlementId q now u t x,
      prepareTx contractId entitlementId q now b' = .ok (u, t) →
      x ∈ t.terms.rows → x ∉ b'.terms.rows →
        x.tokenBudget ≤ x.tokenAllowance - b'.recordedTokens x.scopeId ∧
        (∀ d ∈ x.valueBudget, ∃ a ∈ x.valueAllowance,
          d ≤ max (a - picosToMicrosCeil (b'.recordedPicos x.scopeId)) 0) ∧
        ∀ c, b'.db.core.contracts.get? contractId = some c → 0 < c.trialSecondsRemaining →
          ∃ r ∈ t.scopes.rows, r.id = x.scopeId ∧
            r.unit = some (((b'.scope? c.trialScope).bind Scope.unit).getD x.unit)) := by
  have hinv : Inv b' := (Inv.start h₀).acts (run_acts (hb.trans hb'))
  have hgrown : Grown b b' := (run_acts hb').grown
  refine ⟨?_, ?_, ?_, ?_⟩
  · intro r hr hended seconds source allowance
    obtain ⟨r', hr', hlater⟩ := hinv.laterScope hgrown hr
    exact quoteTrialTx_ended hr' (hlater.ended hended) seconds source allowance
  · intro r hr u hu
    obtain ⟨r', hr', hlater⟩ := hinv.laterScope hgrown hr
    have hu' : r'.unit = some u := hlater.unit u hu
    refine ⟨⟨r', hr', hlater.id, hu'⟩, ?_, ?_⟩
    · intro seconds source allowance n q t hne hq
      exact quote_noBudget_of_unit hr' hu' hne hq
    · intro x hx hid v hv
      rcases (hinv.nonneg x hx v).eq_or_lt with hzero | hpos
      · exact hzero.symm
      · have hunit := hinv.budget x hx r' (scope?_mem hr').1 (hlater.id.trans hid.symm) v hpos
        exact absurd (Option.some.inj (hunit.symm.trans hu')) hv
  · intro x hx
    obtain ⟨x', hx', hlater⟩ := hgrown.terms x hx
    exact ⟨x', hx', hlater.contractId, hlater.tokensUsed, hlater.valueUsedPicos⟩
  · intro contractId entitlementId q now u t x h hx hnew
    obtain ⟨c, valueAllowance, valueBudget, current, b₁, r, hc, hp, hr, hopened, rfl⟩ :=
      frozen_row h hx hnew
    obtain ⟨htokens, hvalue⟩ := hp.within (hinv.names hopened)
    refine ⟨htokens, ?_, ?_⟩
    · intro d hd
      obtain ⟨d₀, hd₀, rfl⟩ := Option.map_eq_some_iff.1 hd
      obtain ⟨a, ha, hle⟩ := hvalue d₀ hd₀
      exact ⟨a, ha, hle.trans_eq (remainingValueMicros_eq _ _)⟩
    · intro c' hc' htrial
      obtain rfl : c = c' := Option.some.inj (hc.symm.trans hc')
      refine ⟨r, hr, rfl, ?_⟩
      rw [hopened.unit, if_pos htrial, freeze_unit]
      cases (b'.scope? c.trialScope).bind Scope.unit <;> rfl

def rentedBooks : Books where
  db := commit (prepareContractTx (shareTerms (.calendarMonth 999) 3600) 0) fundedSample
  scopes := .empty
  terms := .empty
  accessPolicyVersion _ := some 9
  renterEmail _ := "alice@example.com"

def trialingBooks : Books :=
  commit (prepareTx "uuid-0" "grant" ⟨1, 1, false, false, 100, 100, none, none, false, false⟩ 0)
    rentedBooks

def unreliableBooks : Books :=
  commit (observeTx "share" [("grant", ⟨"Alice@example.com",
    ((trialingBooks.terms.get? "uuid-0").map Terms.scopeId).getD "", some 100, some 100, none, none,
    40, "0", 1, true⟩)] 10) trialingBooks

theorem share_trial_scopes_one_time_unreliable : ∃ r ∈ unreliableBooks.scopes.rows,
    r.endedReason = some "usage_unavailable" ∧ r.unit = some .tokens ∧
    (∃ x ∈ unreliableBooks.terms.rows, x.tokensUsed = 40) ∧
    ∀ seconds source allowance, ∃ q, q.NoBudget ∧
      quoteTrialTx r.triple seconds source allowance unreliableBooks =
        .ok ((0, q), unreliableBooks) := by
  have hfound : ∃ r ∈ unreliableBooks.scopes.rows, r.endedReason = some "usage_unavailable" ∧
      r.unit = some .tokens ∧ ∃ x ∈ unreliableBooks.terms.rows, x.tokensUsed = 40 := by
    decide +kernel
  obtain ⟨r, hr, hended, hunit, hused⟩ := hfound
  have hfrozen : ShareStep rentedBooks trialingBooks := .prepare _ _ _ _
  have hseen : ShareStep trialingBooks unreliableBooks := .observe _ _ _
  have hrun : ReflTransGen ShareStep rentedBooks unreliableBooks :=
    .tail (.single hfrozen) hseen
  have hquotes := (share_trial_scopes_one_time ⟨rfl, rfl⟩ hrun .refl).1
  exact ⟨r, hr, hended, hunit, hused, hquotes r hr (by rw [hended]; rfl)⟩

end Runs

end CcSwitchRouter.ShareTrials
