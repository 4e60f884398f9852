import CcSwitchRouter.Common
import Mathlib.Logic.Relation

namespace CcSwitchRouter.FreeUsage

open Store Store.Tx Ledger CcSwitchRouter

inductive ScopeKind
  | service
  | supplier
deriving DecidableEq, Repr

/-- The primary key of `market_free_usage_ledgers`. -/
structure Scope where
  buyerUserId : String
  supplierUserId : String
  productKind : String
  kind : ScopeKind
  ref : String
deriving DecidableEq, Repr

structure Usage where
  allowanceSeconds : Int
  grantedSeconds : Int
deriving DecidableEq, Repr

abbrev Ledgers := Scope → Option Usage

abbrev LedgerTx := Tx AppError Ledgers

def freeUsageAllowanceSeconds (freeDurationDays : UInt32) : Except AppError Int :=
  match checkedMul freeDurationDays.toNat 86400 with
  | some seconds => .ok seconds
  | none => .error (.badRequest "free usage duration is too large")

def Usage.ensured (row : Option Usage) (allowanceSeconds : Int) : Usage :=
  match row with
  | none => ⟨allowanceSeconds, 0⟩
  | some u => { u with allowanceSeconds := max u.allowanceSeconds allowanceSeconds }

theorem Usage.le_ensured (row : Option Usage) (a : Int) : a ≤ (ensured row a).allowanceSeconds := by
  cases row with
  | none => exact le_refl a
  | some u => exact le_max_right _ _

variable {a g : Int} {l : Ledgers} {scope : Scope}

theorem Usage.ensured_of_le {u : Usage} (h : a ≤ u.allowanceSeconds) : ensured (some u) a = u := by
  simp only [ensured, max_eq_left h]

def ensureFreeUsageScopeTx (scope : Scope) (allowanceSeconds : Int) : LedgerTx Int := do
  modify fun l => Function.update l scope (some (.ensured (l scope) allowanceSeconds))
  let u ← queryRow (fun l => l scope) "read persistent free usage balance"
  return max (u.allowanceSeconds - u.grantedSeconds) 0

/-- The `UPDATE` of one scope at the end of a claim. -/
def grantTx (scope : Scope) (seconds : Int) : LedgerTx Unit :=
  modify fun l => Function.update l scope ((l scope).map fun u =>
    { u with grantedSeconds := min u.allowanceSeconds (u.grantedSeconds + seconds) })

structure Offer where
  buyerUserId : String
  supplierUserId : String
  productKind : String
  serviceRef : String
  freeDurationDays : UInt32
deriving DecidableEq, Repr

namespace Offer

def service (o : Offer) : Scope :=
  ⟨o.buyerUserId, o.supplierUserId, o.productKind, .service, o.serviceRef⟩

def supplier (o : Offer) : Scope :=
  ⟨o.buyerUserId, o.supplierUserId, o.productKind, .supplier, o.supplierUserId⟩

def seconds (o : Offer) : Int := o.freeDurationDays.toNat * 86400

theorem service_ne_supplier (o o' : Offer) : o.service ≠ o'.supplier := by
  intro h
  exact ScopeKind.noConfusion (congrArg Scope.kind h)

theorem seconds_nonneg (o : Offer) : 0 ≤ o.seconds := by
  simp only [seconds]
  omega

end Offer

def freeUsageAvailableTx (o : Offer) : LedgerTx Bool := do
  let allowanceSeconds ← ofExcept (freeUsageAllowanceSeconds o.freeDurationDays)
  let serviceRemaining ← ensureFreeUsageScopeTx o.service allowanceSeconds
  let supplierRemaining ← ensureFreeUsageScopeTx o.supplier allowanceSeconds
  return decide (0 < serviceRemaining) && decide (0 < supplierRemaining)

def claimFreeUsageTx (o : Offer) : LedgerTx Int := do
  let allowanceSeconds ← ofExcept (freeUsageAllowanceSeconds o.freeDurationDays)
  let serviceRemaining ← ensureFreeUsageScopeTx o.service allowanceSeconds
  let supplierRemaining ← ensureFreeUsageScopeTx o.supplier allowanceSeconds
  let grantedSeconds := min serviceRemaining supplierRemaining
  if grantedSeconds ≤ 0 then return 0
  else
    grantTx o.service grantedSeconds
    grantTx o.supplier grantedSeconds
    return grantedSeconds

/-! ### What the two functions do to the ledgers -/

def Ledgers.record (l : Ledgers) (scope : Scope) (allowance granted : Int) : Ledgers :=
  Function.update l scope (some
    ⟨(Usage.ensured (l scope) allowance).allowanceSeconds,
      (Usage.ensured (l scope) allowance).grantedSeconds + granted⟩)

def Ledgers.remainder (l : Ledgers) (scope : Scope) (allowance : Int) : Int :=
  max ((Usage.ensured (l scope) allowance).allowanceSeconds -
    (Usage.ensured (l scope) allowance).grantedSeconds) 0

def Ledgers.grant (l : Ledgers) (o : Offer) : Int :=
  min (l.remainder o.service o.seconds) (l.remainder o.supplier o.seconds)

namespace Ledgers

variable {l : Ledgers} {scope other : Scope} {a g : Int}

theorem record_other (h : other ≠ scope) : l.record scope a g other = l other :=
  Function.update_of_ne h _ _

theorem record_self : l.record scope a g scope = some
    ⟨(Usage.ensured (l scope) a).allowanceSeconds,
      (Usage.ensured (l scope) a).grantedSeconds + g⟩ :=
  Function.update_self _ _ _

theorem remainder_nonneg : 0 ≤ l.remainder scope a := le_max_right _ _

theorem grant_nonneg (o : Offer) : 0 ≤ l.grant o := le_min remainder_nonneg remainder_nonneg

theorem remainder_record_other (h : other ≠ scope) :
    (l.record scope a g).remainder other a = l.remainder other a := by
  simp only [remainder, record_other h]

theorem remainder_record_self (h0 : 0 ≤ g) (hle : g ≤ l.remainder scope a) :
    (l.record scope a g).remainder scope a = l.remainder scope a - g := by
  have ha := Usage.le_ensured (l scope) a
  simp only [remainder] at hle
  rw [remainder, remainder, record_self, Usage.ensured_of_le (by exact ha)]
  dsimp only
  omega

theorem record_zero {u : Usage} (hu : l scope = some u) (ha : a ≤ u.allowanceSeconds) :
    l.record scope a 0 = l := by
  funext other
  by_cases h : other = scope
  · subst h
    rw [record_self, hu, Usage.ensured_of_le ha, add_zero]
  · exact record_other h

end Ledgers

theorem freeUsageAllowanceSeconds_eq (o : Offer) :
    freeUsageAllowanceSeconds o.freeDurationDays = .ok o.seconds := by
  have hlt := o.freeDurationDays.toNat_lt
  have hfits : checkedMul o.freeDurationDays.toNat 86400 = some o.seconds := by
    rw [checkedMul, checked_eq_some, Offer.seconds]
    refine ⟨rfl, ?_⟩
    simp only [Fits, i64Max, i64Min]
    omega
  rw [freeUsageAllowanceSeconds, hfits]

theorem ensureFreeUsageScopeTx_eq (l : Ledgers) (scope : Scope) (a : Int) :
    ensureFreeUsageScopeTx scope a l = .ok (l.remainder scope a, l.record scope a 0) := by
  have hupd : Function.update l scope (some (.ensured (l scope) a)) = l.record scope a 0 := by
    simp only [Ledgers.record, add_zero]
  refine bind_ok.2 ⟨(), _, modify_ok.2 rfl, ?_⟩
  refine queryRow_bind_ok.2 ⟨_, Function.update_self _ _ _, ?_⟩
  rw [hupd]
  rfl

theorem grantTx_record (hpos : 0 < g) (hle : g ≤ l.remainder scope a) :
    (l.record scope a 0 scope).map (fun u =>
      { u with grantedSeconds := min u.allowanceSeconds (u.grantedSeconds + g) }) =
      l.record scope a g scope := by
  simp only [Ledgers.remainder] at hle
  simp only [Ledgers.record_self, Option.map_some, add_zero, Option.some.injEq, Usage.mk.injEq,
    true_and]
  omega

theorem claimFreeUsageTx_eq (o : Offer) (l : Ledgers) :
    claimFreeUsageTx o l = .ok (l.grant o,
      (l.record o.service o.seconds (l.grant o)).record o.supplier o.seconds (l.grant o)) := by
  have hne := o.service_ne_supplier o
  rw [claimFreeUsageTx, ofExcept_bind_ok]
  refine ⟨_, freeUsageAllowanceSeconds_eq o, ?_⟩
  refine bind_ok.2 ⟨_, _, ensureFreeUsageScopeTx_eq _ _ _, ?_⟩
  refine bind_ok.2 ⟨_, _, ensureFreeUsageScopeTx_eq _ _ _, ?_⟩
  have hgrant : min (l.remainder o.service o.seconds) (l.remainder o.supplier o.seconds) =
    l.grant o := rfl
  simp only [Ledgers.remainder_record_other hne.symm, hgrant]
  split
  case isTrue h =>
    rw [le_antisymm h (Ledgers.grant_nonneg o)]
    rfl
  case isFalse h =>
    have hpos : 0 < l.grant o := not_le.1 h
    refine bind_ok.2 ⟨(), _, modify_ok.2 rfl, bind_ok.2 ⟨(), _, modify_ok.2 rfl, ?_⟩⟩
    refine pure_ok.2 ⟨rfl, ?_⟩
    funext scope
    by_cases hs : scope = o.supplier
    · subst hs
      have hle : l.grant o ≤ (l.record o.service o.seconds 0).remainder o.supplier o.seconds := by
        rw [Ledgers.remainder_record_other hne.symm]
        exact min_le_right _ _
      rw [Function.update_self, Function.update_of_ne hne.symm, grantTx_record hpos hle]
      simp only [Ledgers.record_self, Ledgers.record_other hne.symm]
    · rw [Function.update_of_ne hs, Ledgers.record_other hs]
      by_cases hv : scope = o.service
      · subst hv
        rw [Function.update_self, Ledgers.record_other hne, grantTx_record hpos (min_le_left _ _)]
      · rw [Function.update_of_ne hv, Ledgers.record_other hs, Ledgers.record_other hv,
          Ledgers.record_other hv]

theorem freeUsageAvailableTx_eq (o : Offer) (l : Ledgers) :
    freeUsageAvailableTx o l = .ok (decide (0 < l.remainder o.service o.seconds) &&
        decide (0 < l.remainder o.supplier o.seconds),
      (l.record o.service o.seconds 0).record o.supplier o.seconds 0) := by
  rw [freeUsageAvailableTx, ofExcept_bind_ok]
  refine ⟨_, freeUsageAllowanceSeconds_eq o, ?_⟩
  refine bind_ok.2 ⟨_, _, ensureFreeUsageScopeTx_eq _ _ _, ?_⟩
  refine bind_ok.2 ⟨_, _, ensureFreeUsageScopeTx_eq _ _ _, ?_⟩
  rw [Ledgers.remainder_record_other (o.service_ne_supplier o).symm]
  rfl

theorem claimFreeUsageTx_again {o : Offer} {l' : Ledgers} {granted : Int}
    (h : claimFreeUsageTx o l = .ok (granted, l')) : claimFreeUsageTx o l' = .ok (0, l') := by
  have hne := o.service_ne_supplier o
  rw [claimFreeUsageTx_eq] at h
  obtain ⟨-, rfl⟩ := Prod.mk.inj (Except.ok.inj h)
  have h0 := Ledgers.grant_nonneg (l := l) o
  generalize hl' : (l.record o.service o.seconds (l.grant o)).record o.supplier o.seconds
    (l.grant o) = l'
  have hservice : l'.remainder o.service o.seconds =
      l.remainder o.service o.seconds - l.grant o := by
    rw [← hl', Ledgers.remainder_record_other hne,
      Ledgers.remainder_record_self h0 (min_le_left _ _)]
  have hsupplier : l'.remainder o.supplier o.seconds =
      l.remainder o.supplier o.seconds - l.grant o := by
    have hsame := Ledgers.remainder_record_other (l := l) (a := o.seconds) (g := l.grant o) hne.symm
    rw [← hl', Ledgers.remainder_record_self h0 (hsame ▸ min_le_right _ _), hsame]
  have hzero : l'.grant o = 0 := by
    have hmin : l.grant o = min (l.remainder o.service o.seconds)
      (l.remainder o.supplier o.seconds) := rfl
    rw [Ledgers.grant, hservice, hsupplier]
    omega
  have hrow : ∀ scope, scope = o.service ∨ scope = o.supplier →
      ∃ u, l' scope = some u ∧ o.seconds ≤ u.allowanceSeconds := by
    rintro scope (rfl | rfl)
    · rw [← hl', Ledgers.record_other hne]
      exact ⟨_, Ledgers.record_self, Usage.le_ensured _ _⟩
    · rw [← hl']
      exact ⟨_, Ledgers.record_self, Usage.le_ensured _ _⟩
  obtain ⟨u, hu, hua⟩ := hrow _ (.inl rfl)
  obtain ⟨v, hv, hva⟩ := hrow _ (.inr rfl)
  rw [claimFreeUsageTx_eq, hzero, Ledgers.record_zero hu hua, Ledgers.record_zero hv hva]

/-! ### Runs -/

structure Entry where
  scope : Scope
  allowanceSeconds : Int
  grantedSeconds : Int
deriving DecidableEq, Repr

def Offer.entries (o : Offer) (granted : Int) : List Entry :=
  [⟨o.supplier, o.seconds, granted⟩, ⟨o.service, o.seconds, granted⟩]

structure System where
  ledgers : Ledgers
  history : List Entry

def System.initial : System := ⟨fun _ => none, []⟩

/-- The committed calls. One that fails, or whose transaction is rolled back, changes nothing. -/
inductive Step : System → System → Prop
  | available {s : System} {o : Offer} {answer : Bool} {l : Ledgers} :
      freeUsageAvailableTx o s.ledgers = .ok (answer, l) →
      Step s ⟨l, o.entries 0 ++ s.history⟩
  | claim {s : System} {o : Offer} {granted : Int} {l : Ledgers} :
      claimFreeUsageTx o s.ledgers = .ok (granted, l) →
      Step s ⟨l, o.entries granted ++ s.history⟩

abbrev Reachable : System → Prop := Relation.ReflTransGen Step System.initial

def grantedTo (history : List Entry) (scope : Scope) : Int :=
  ((history.filter fun e => e.scope = scope).map Entry.grantedSeconds).sum

def largestOffer (history : List Entry) (scope : Scope) : Int :=
  ((history.filter fun e => e.scope = scope).map Entry.allowanceSeconds).foldr max 0

section History

variable {history : List Entry} {e : Entry} {scope : Scope} {a g : Int}

theorem grantedTo_cons_self : grantedTo (⟨scope, a, g⟩ :: history) scope =
    g + grantedTo history scope := by
  simp [grantedTo]

theorem grantedTo_cons_other (h : e.scope ≠ scope) :
    grantedTo (e :: history) scope = grantedTo history scope := by
  simp [grantedTo, h]

theorem largestOffer_cons_self : largestOffer (⟨scope, a, g⟩ :: history) scope =
    max a (largestOffer history scope) := by
  simp [largestOffer]

theorem largestOffer_cons_other (h : e.scope ≠ scope) :
    largestOffer (e :: history) scope = largestOffer history scope := by
  simp [largestOffer, h]

end History

structure Kept (l : Ledgers) (history : List Entry) : Prop where
  ensured : ∀ scope a, 0 ≤ a → Usage.ensured (l scope) a =
    ⟨max (largestOffer history scope) a, grantedTo history scope⟩
  within : ∀ scope, grantedTo history scope ≤ largestOffer history scope

theorem Kept.initial : Kept (fun _ => none) [] where
  ensured := by
    intro scope a ha
    simp [Usage.ensured, largestOffer, grantedTo, ha]
  within := by
    intro scope
    exact le_refl 0

variable {history : List Entry}

theorem Kept.remainder (h : Kept l history) (ha : 0 ≤ a) :
    l.remainder scope a = max (largestOffer history scope) a - grantedTo history scope := by
  have hle := h.within scope
  rw [Ledgers.remainder, h.ensured scope a ha]
  dsimp only
  omega

theorem Kept.record (h : Kept l history) (ha : 0 ≤ a) (hle : g ≤ l.remainder scope a) :
    Kept (l.record scope a g) (⟨scope, a, g⟩ :: history) where
  ensured := by
    intro other b hb
    by_cases ho : scope = other
    · subst ho
      rw [Ledgers.record_self, h.ensured scope a ha, grantedTo_cons_self, largestOffer_cons_self,
        max_comm a, add_comm g]
      rfl
    · rw [Ledgers.record_other (Ne.symm ho), h.ensured other b hb,
        grantedTo_cons_other ho, largestOffer_cons_other ho]
  within := by
    intro other
    by_cases ho : scope = other
    · subst ho
      rw [h.remainder ha] at hle
      rw [grantedTo_cons_self, largestOffer_cons_self]
      omega
    · rw [grantedTo_cons_other ho, largestOffer_cons_other ho]
      exact h.within other

theorem Kept.both (h : Kept l history) {o : Offer} (hservice : g ≤ l.remainder o.service o.seconds)
    (hsupplier : g ≤ l.remainder o.supplier o.seconds) :
    Kept ((l.record o.service o.seconds g).record o.supplier o.seconds g)
      (o.entries g ++ history) := by
  apply (h.record o.seconds_nonneg hservice).record o.seconds_nonneg
  rw [Ledgers.remainder_record_other (o.service_ne_supplier o).symm]
  exact hsupplier

theorem Kept.step {s t : System} (h : Kept s.ledgers s.history) (hst : Step s t) :
    Kept t.ledgers t.history := by
  cases hst with
  | available hx =>
    rw [freeUsageAvailableTx_eq] at hx
    obtain ⟨-, rfl⟩ := Prod.mk.inj (Except.ok.inj hx)
    exact h.both Ledgers.remainder_nonneg Ledgers.remainder_nonneg
  | claim hx =>
    rw [claimFreeUsageTx_eq] at hx
    obtain ⟨rfl, rfl⟩ := Prod.mk.inj (Except.ok.inj hx)
    exact h.both (min_le_left _ _) (min_le_right _ _)

theorem Reachable.kept {s : System} (h : Reachable s) : Kept s.ledgers s.history := by
  induction h with
  | refl => exact .initial
  | tail _ hst ih => exact ih.step hst

/-- No scope is ever granted more than the largest allowance it was offered. A claim always
succeeds, grants no more than either of its scopes has left of that allowance, and the same claim
right after it grants nothing and leaves the ledgers as they are. -/
theorem free_usage_within_largest_offer {s : System} (h : Reachable s) :
    (∀ scope, grantedTo s.history scope ≤ largestOffer s.history scope) ∧
    ∀ o : Offer, ∃ granted l, claimFreeUsageTx o s.ledgers = .ok (granted, l) ∧ 0 ≤ granted ∧
      granted ≤ max (largestOffer s.history o.service) o.seconds -
        grantedTo s.history o.service ∧
      granted ≤ max (largestOffer s.history o.supplier) o.seconds -
        grantedTo s.history o.supplier ∧
      claimFreeUsageTx o l = .ok (0, l) := by
  have hkept := h.kept
  refine ⟨hkept.within, ?_⟩
  intro o
  have hclaim := claimFreeUsageTx_eq o s.ledgers
  refine ⟨_, _, hclaim, Ledgers.grant_nonneg o, ?_, ?_, claimFreeUsageTx_again hclaim⟩
  · rw [← hkept.remainder o.seconds_nonneg]
    exact min_le_left _ _
  · rw [← hkept.remainder o.seconds_nonneg]
    exact min_le_right _ _

/-- Three free days of a service use up the supplier's three days for a second service. -/
theorem free_usage_within_largest_offer_three_days :
    let o : Offer := ⟨"buyer", "provider", "client_host", "host-1", 3⟩
    let o' : Offer := ⟨"buyer", "provider", "client_host", "host-2", 2⟩
    ∃ s : System, Reachable s ∧ grantedTo s.history o.supplier = 259200 ∧
      grantedTo s.history o.supplier ≤ largestOffer s.history o.supplier ∧
      (∃ l, claimFreeUsageTx o' s.ledgers = .ok (0, l)) := by
  intro o o'
  have hstep : Step System.initial _ := .claim (claimFreeUsageTx_eq o System.initial.ledgers)
  have hreach : Reachable _ := .single hstep
  obtain ⟨hwithin, hclaim⟩ := free_usage_within_largest_offer hreach
  have hgrant : System.initial.ledgers.grant o = 259200 := by decide +kernel
  have hsame : o'.supplier = o.supplier := rfl
  have hgranted : grantedTo (o.entries (System.initial.ledgers.grant o) ++ System.initial.history)
      o.supplier = 259200 := by
    rw [Offer.entries, List.cons_append, grantedTo_cons_self, List.cons_append,
      grantedTo_cons_other (o.service_ne_supplier o), hgrant]
    rfl
  have hlargest : largestOffer (o.entries (System.initial.ledgers.grant o) ++ System.initial.history)
      o.supplier = 259200 := by
    rw [Offer.entries, List.cons_append, largestOffer_cons_self, List.cons_append,
      largestOffer_cons_other (o.service_ne_supplier o)]
    decide +kernel
  refine ⟨_, hreach, hgranted, hwithin o.supplier, ?_⟩
  obtain ⟨granted, l, hl, h0, -, hle, -⟩ := hclaim o'
  have hseconds : o'.seconds = 172800 := by decide +kernel
  dsimp only at hle
  rw [hsame, hlargest, hgranted, hseconds] at hle
  have hzero : granted = 0 := le_antisymm hle h0
  exact ⟨l, hzero ▸ hl⟩

end CcSwitchRouter.FreeUsage
