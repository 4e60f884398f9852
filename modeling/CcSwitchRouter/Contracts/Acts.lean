import CcSwitchRouter.Contracts.Side
import CcSwitchRouter.Lib.Coverage
import CcSwitchRouter.Wallet.Operations
import Mathlib.Logic.Relation

namespace CcSwitchRouter

open Store Store.Tx Ledger

/-- The places where a step can leave the intended path. A trial that a finance hold pauses does no
harm by itself; its resume does. -/
inductive Fault
  | heldTrial | unpaidResume | lateConversion | fundedWriteOff | leakyEnd
deriving DecidableEq, Repr

structure Contract.SameTerms (c c' : Contract) : Prop where
  id : c'.id = c.id
  productKind : c'.productKind = c.productKind
  productRef : c'.productRef = c.productRef
  buyerUserId : c'.buyerUserId = c.buyerUserId
  providerUserId : c'.providerUserId = c.providerUserId
  billing : c'.billing = c.billing

theorem Contract.SameTerms.refl (c : Contract) : c.SameTerms c := ⟨rfl, rfl, rfl, rfl, rfl, rfl⟩

theorem Contract.SameTerms.trans {c c' c'' : Contract} (h : c.SameTerms c') (h' : c'.SameTerms c'') :
    c.SameTerms c'' where
  id := h'.id.trans h.id
  productKind := h'.productKind.trans h.productKind
  productRef := h'.productRef.trans h.productRef
  buyerUserId := h'.buyerUserId.trans h.buyerUserId
  providerUserId := h'.providerUserId.trans h.providerUserId
  billing := h'.billing.trans h.billing

def Contract.running (c : Contract) : Bool :=
  c.status == .active || c.status == .trialing || c.status == .suspended

def Contract.mayPause (F : Fault → Prop) (c : Contract) : Prop :=
  c.status = .active ∨ c.trialSecondsRemaining = 0 ∨ F .heldTrial

structure RowStep (F : Fault → Prop) (c c' : Contract) : Prop extends c.SameTerms c' where
  activationHoldId : c'.activationHoldId = c.activationHoldId
  budgetHoldId : c'.budgetHoldId = c.budgetHoldId
  budgetSequence : c'.budgetSequence = c.budgetSequence
  currentPeriodSequence : c'.currentPeriodSequence = c.currentPeriodSequence
  renewalAnchorDay : c'.renewalAnchorDay = c.renewalAnchorDay
  paidStartedAt : c'.paidStartedAt = c.paidStartedAt
  active : c'.status = .active → c.status = .active
  ended : c'.status = .ended ↔ c.status = .ended
  pending : c'.status = .pendingActivation → c.status = .pendingActivation
  trialing : c'.status = .trialing →
    c.status = .trialing ∨ (c.status = .pendingActivation ∧ c'.lastEvaluatedAt ≠ none)
  paused : c'.status = .suspended → c.status = .suspended ∨ c.mayPause F
  trial : 0 ≤ c.trialSecondsRemaining →
    0 ≤ c'.trialSecondsRemaining ∧ c'.trialSecondsRemaining ≤ c.trialSecondsRemaining
  waiting : c'.status = .pendingActivation →
    c'.trialSecondsRemaining = c.trialSecondsRemaining
  /-- Only a running trial uses its seconds up. -/
  still : c.status ≠ .trialing → c'.trialSecondsRemaining = c.trialSecondsRemaining
  cursor : c.lastEvaluatedAt ≠ none → c'.lastEvaluatedAt ≠ none
  /-- The cursor of an active monthly Share moves with its period only. -/
  shareCursor : c'.status = .active → c.productKind = .share → c.billing.isMonthly = true →
    c'.lastEvaluatedAt = c.lastEvaluatedAt
  /-- The cursor of a paid Client never goes back. -/
  clientCursor : c.productKind = .clientHost → c.billing.isMonthly = true →
    c.paidStartedAt ≠ none →
    ∀ t, c.lastEvaluatedAt = some t → ∃ t', c'.lastEvaluatedAt = some t' ∧ t ≤ t'

def HoldTaken (u sk si pu : String) (n : Int) (id : String) (w w' : Wallet) : Prop :=
  0 < n ∧ ((w' = w ∧ ∃ hold, w.holdFor? sk si pu = some hold ∧ hold.userId = u ∧
      hold.amountUnits = n ∧ hold.status = .active ∧ id = hold.id) ∨
    Reserved u sk si pu n id w w')

def Hold.isActivation (h : Hold) (contractId : String) : Prop :=
  h.sourceKind = "platform_contract" ∧ h.sourceId = contractId ∧ h.purpose = "activation"

def Hold.isBudget (h : Hold) (contractId : String) (sequence : Nat) : Prop :=
  h.sourceKind = "platform_metered_budget" ∧ h.sourceId = s!"{contractId}:budget:{sequence}" ∧
    h.purpose = "metered_budget"

def Hold.reservedFor (h : Hold) (contractId : String) : Prop :=
  h.isActivation contractId ∨ ∃ n, h.isBudget contractId n

def contractHoldKinds : List String := ["platform_contract", "platform_metered_budget"]

def contractJournalKinds : List String := ["platform_period", "monthly_segment", "platform_termination"]

structure Aside (w w' : Wallet) : Prop where
  unfulfilled : ∀ id, unitsOf w'.postings ⟨.unfulfilled, id⟩ = unitsOf w.postings ⟨.unfulfilled, id⟩
  journals : ∀ j ∈ w'.journals.rows, j ∈ w.journals.rows ∨ j.sourceKind ∉ contractJournalKinds

/-- What the other money rails do to the wallet: they leave the holds of contracts alone as well. -/
structure Foreign (w w' : Wallet) : Prop extends Aside w w' where
  holds : ∀ h, h.sourceKind ∈ contractHoldKinds → (h ∈ w'.holds.rows ↔ h ∈ w.holds.rows)
  holdOk : (∀ h ∈ w.holds.rows, HoldOk h) → ∀ h ∈ w'.holds.rows, HoldOk h

def Wallet.inactive (w : Wallet) (holdId : String) : Prop :=
  ∀ h, w.holds.get? holdId = some h → h.status ≠ .active

def Core.clean (k : Core) (c : Contract) : Prop :=
  (∃ b, c.budgetHoldId = some b ∧ k.wallet.inactive b) ∨
    (c.paidStartedAt = none ∧ ∀ a, c.activationHoldId = some a → k.wallet.inactive a)

def Wallet.budgeted (w : Wallet) (c : Contract) : Prop :=
  ∃ b h, c.budgetHoldId = some b ∧ w.holds.get? b = some h ∧ h.status = .active

def Wallet.spent (w : Wallet) (c : Contract) : Prop :=
  ∃ rate, c.billing = .metered rate ∧ ∀ b h, c.budgetHoldId = some b →
    w.holds.get? b = some h → h.status = .active → h.remainingUnits < rate

/-- A hold that its contract gives back. Service without a paid start keeps its budget until that is
spent. -/
def Core.givesBack (k : Core) (contractId holdId : String) : Prop :=
  ∃ c, k.contracts.get? contractId = some c ∧
    (∃ h ∈ k.wallet.holds.rows, h.id = holdId ∧ h.reservedFor contractId) ∧
    (c.activationHoldId = some holdId ∨ c.paidStartedAt ≠ none ∨ c.status ≠ .active ∨
      k.wallet.spent c)

structure NewContract (c : Contract) : Prop where
  status : c.status = .pendingActivation
  paid : c.paidStartedAt = none
  trial : 0 ≤ c.trialSecondsRemaining
  free : 0 < c.trialSecondsRemaining → c.activationHoldId = none
  period : c.currentPeriodSequence = 0
  budget : c.budgetHoldId = if c.billing.isMetered then c.activationHoldId else none

def ActivationTaken (c : Contract) (w w' : Wallet) : Prop :=
  (c.activationHoldId = none ∧ w' = w) ∨
    ∃ hid, c.activationHoldId = some hid ∧ HoldTaken c.buyerUserId "platform_contract" c.id
      "activation" (c.billing.priceMinor * moneyUnitsPerMinor) hid w w'

def Core.namesActivation (k : Core) (c : Contract) (holdId : String) : Prop :=
  c.activationHoldId = some holdId ∨
    ∃ t, k.shareTrials.get? c.id = some t ∧ t.conversionHoldId = some holdId

def Core.notOnTrial (k : Core) (contractId : String) : Prop :=
  ∀ x, k.shareTrials.get? contractId = some x → x.phase ≠ .trial

structure FirstPaid (c c' : Contract) (start : Instant) : Prop extends c.SameTerms c' where
  unpaid : c.paidStartedAt = none
  notEnded : c.status ≠ .ended
  spent : c.trialSecondsRemaining ≤ 0
  trial : c'.trialSecondsRemaining = c.trialSecondsRemaining
  status : c'.status = .active
  paid : c'.paidStartedAt = some start
  cursor : c'.lastEvaluatedAt ≠ none

/-- The money of a monthly segment: nothing, income of the Provider or a refund. A replay finds its
posting by the id of the segment. -/
def SegmentMoney (k : Core) (c : Contract) (p : Period) (id : String) (available : Bool)
    (amount : Int) (w : Wallet) (slices : Table DeliverySlice) : Prop :=
  (amount = 0 ∧ w = k.wallet ∧ slices = k.slices) ∨
  (available = true ∧ 0 < amount ∧
    ((∃ j d, Posted j k.wallet w ∧ j.sourceKind = "monthly_delivery" ∧
        j.postings = [posting .unfulfilled p.id amount,
          posting .providerPending c.providerUserId (-amount)] ∧
        k.slices.insert? d = some slices ∧ d.sourceKind = "monthly_delivery" ∧ d.sourceId = id ∧
        d.contractId = c.id) ∨
      (w = k.wallet ∧ slices = k.slices ∧
        ∃ d ∈ k.slices.rows, d.sourceKind = "monthly_delivery" ∧ d.sourceId = id))) ∨
  (available = false ∧ 0 < amount ∧ slices = k.slices ∧
    (CreditedBack c.buyerUserId amount .unfulfilled p.id "monthly_segment" id "refund" k.wallet w ∨
      (w = k.wallet ∧ ∃ j, k.wallet.journal? "monthly_segment" id "refund" = some j)))

/-- A segment of a Client month is a stretch of an evaluated window its evidence covers; a segment of a
Share moves the cursor of its contract along. -/
def SegmentCursor (k : Core) (c : Contract) (sourceId : String) (x : Stretch)
    (contracts : Table Contract) : Prop :=
  (c.productKind = .clientHost ∧ contracts = k.contracts ∧ sourceId ≠ "confirmed_cleanup" ∧
    ∃ cursor through evaluated xs, c.lastEvaluatedAt = some evaluated ∧ through ≤ evaluated ∧
      coverWindow cursor through [] cursor (k.hourEvidence c.id cursor through) = .ok xs ∧ x ∈ xs) ∨
  (c.productKind = .share ∧ c.status = .active ∧ c.lastEvaluatedAt = some x.start ∧
    ∃ now, contracts = k.contracts.modify c.id (fun r => r.evaluate x.stop now)
      fun r => r.key_evaluate _ _)

def MonthRefund (k : Core) (c : Contract) (p : Period) (left : Int) (w : Wallet) : Prop :=
  (left ≤ 0 ∧ w = k.wallet) ∨
  (0 < left ∧ (CreditedBack c.buyerUserId left .unfulfilled p.id "platform_termination" c.id
      "refund_current_month" k.wallet w ∨
    (w = k.wallet ∧
      ∃ j, k.wallet.journal? "platform_termination" c.id "refund_current_month" = some j)))

inductive ItemsCaptured (batchId : String) (rate : Int) : List MeteredItem →
    Table Observation → List BatchItem → Table Observation → List BatchItem → Prop
  | nil {t xs} : ItemsCaptured batchId rate [] t xs t xs
  | cons {i is t xs t' xs' o} (ho : t.get? i.observationId = some o)
      (hf : o.capturedSeconds = i.firstSecond)
      (hb : i.firstSecond + o.unfundedSeconds + i.seconds ≤ o.billableSeconds)
      (hr : ItemsCaptured batchId rate is
        (t.modify i.observationId (fun o => o.capture i.seconds) fun o => o.key_capture _)
        (xs ++ [⟨batchId, i.observationId, i.firstSecond, i.seconds, i.seconds * rate⟩]) t' xs') :
      ItemsCaptured batchId rate (i :: is) t xs t' xs'

structure Planned (k : Core) (contractId : String) (items : List MeteredItem)
    (start stop : Instant) : Prop where
  pending : ∀ i ∈ items, ∃ o, k.observations.get? i.observationId = some o ∧
    o.contractId = contractId ∧ i.firstSecond = o.capturedSeconds ∧ 0 < i.seconds
  nodup : (items.map MeteredItem.observationId).Nodup
  covered : ∀ x, start ≤ x → x < stop → ∃ i ∈ items, ∃ o,
    k.observations.get? i.observationId = some o ∧
    o.startedAt + secs i.firstSecond ≤ x ∧ x < o.startedAt + secs (i.firstSecond + i.seconds)

inductive BatchCaptured (contractId provider : String) (rate : Int) (hid : String) (k : Core) :
    Core → Prop
  | mk {items start stop bid fst lst jid d w batches slices obs xs}
      (hp : Planned k contractId items start stop)
      (hw : Captured hid ((items.map MeteredItem.seconds).sum * rate) .providerPending provider
        "metered_batch" bid k.wallet w)
      (hb : k.batches.insert? ⟨bid, contractId, fst, lst, start, stop,
        (items.map MeteredItem.seconds).sum * rate, jid⟩ = some batches)
      (hd : k.slices.insert? d = some slices)
      (hds : d.contractId = contractId ∧ d.sourceKind = "metered_batch" ∧ d.startedAt = start ∧
        d.endedAt = stop)
      (hi : ItemsCaptured bid rate items k.observations k.batchItems obs xs) :
      BatchCaptured contractId provider rate hid k
        { k with wallet := w, batches, slices, observations := obs, batchItems := xs }

/-- What the books must say for a write-off: neither the reserved budget nor the free balance pays
for one more second. -/
def WriteOff.justified (w : WriteOff) : Prop :=
  w.holdRemaining < w.rate ∧ w.availableUnits - w.earlierClaims < w.rate

structure Observed (k : Core) (c : Contract) (rate : Int) (o : Observation) : Prop where
  contract : o.contractId = c.id
  metered : c.billing = .metered rate
  active : c.status = .active
  paid : c.paidStartedAt ≠ none
  fresh : o.capturedSeconds = 0 ∧ o.unfundedSeconds = 0
  billable : 0 < o.billableSeconds ∧ o.startedAt + secs o.billableSeconds ≤ o.endedAt
  apart : ∀ x ∈ k.observations.rows, x.contractId = c.id →
    x.endedAt ≤ o.startedAt ∨ o.endedAt ≤ x.startedAt

/-- One change of the billing tables on behalf of the contract `id`. A constructor that can leave
the intended path says under which fault it does. -/
inductive Act (F : Fault → Prop) (id : String) : Core → Core → Prop
  | row {k c} (cid : String) (f : Contract → Contract) (hf : ∀ r, Row.key (f r) = Row.key r)
      (hc : k.contracts.get? cid = some c) (hs : RowStep F c (f c))
      (hid : cid = id ∨ (c.running = true ∧ ∃ now, f c = c.setStatus .ending now)) :
      Act F id k { k with contracts := k.contracts.modify cid f hf }
  | prepared {k c t w} (hid : c.id = id) (hn : NewContract c)
      (hi : k.contracts.insert? c = some t) (hw : ActivationTaken c k.wallet w) :
      Act F id k { k with wallet := w, contracts := t }
  | bound {k c w hid} (hc : k.contracts.get? id = some c) (hne : c.status ≠ .ended)
      (hu : c.paidStartedAt = none) (hs : c.status ≠ .pendingActivation)
      (hdue : c.trialSecondsRemaining = 0 ∨ c.billing.isMonthly = true ∨
        (c.status = .active ∧ k.wallet.spent c))
      (hw : HoldTaken c.buyerUserId "platform_contract" id "activation"
        (c.billing.priceMinor * moneyUnitsPerMinor) hid k.wallet w) :
      Act F id k { k with
        wallet := w
        contracts := k.contracts.modify id (fun r => r.bindActivationHold hid)
          fun r => r.key_bindActivationHold _ }
  | trials {k} (t : Table ShareTrial)
      (hs : ∀ x ∈ t.rows, (∃ y, k.shareTrials.get? x.contractId = some y) ∨
        ∃ c, k.contracts.get? x.contractId = some c ∧ c.productKind = .share)
      (ht : ∀ x ∈ t.rows, ∀ hid, x.conversionHoldId = some hid →
        (∃ y, k.shareTrials.get? x.contractId = some y ∧ y.conversionHoldId = some hid) ∨
          ∃ c, k.contracts.get? x.contractId = some c ∧ c.activationHoldId = some hid)
      (hp : ∀ x ∈ t.rows, x.phase = .trial →
        (∃ y, k.shareTrials.get? x.contractId = some y ∧ y.phase = .trial) ∨
          ∃ c, k.contracts.get? x.contractId = some c ∧ 0 < c.trialSecondsRemaining) :
      Act F id k { k with shareTrials := t }
  | firstMonth {k c w hid pid jid start stop now periods} (f : Contract → Contract)
      (hf : ∀ r, Row.key (f r) = Row.key r) (hc : k.contracts.get? id = some c)
      (hm : c.billing.isMonthly = true) (hph : k.notOnTrial id) (hh : k.namesActivation c hid)
      (hw : Captured hid (c.billing.priceMinor * moneyUnitsPerMinor) .unfulfilled pid
        "platform_period" pid k.wallet w)
      (hfits : Fits (c.billing.priceMinor * moneyUnitsPerMinor))
      (hu : ∀ q ∈ k.periods.rows, q.contractId = id → q.sequence ≠ 1)
      (hp : k.periods.insert? (.opening pid id 1 start stop
        (c.billing.priceMinor * moneyUnitsPerMinor) jid now) = some periods)
      (hn : nextCalendarMonthAt start (dayOf start) = .ok stop) (hr : FirstPaid c (f c) start)
      (ha : (f c).activationHoldId = some hid ∧ (f c).budgetHoldId = c.budgetHoldId ∧
        (f c).budgetSequence = c.budgetSequence ∧ (f c).currentPeriodSequence = 1 ∧
        (f c).renewalAnchorDay = dayOf start)
      (hl : (f c).lastEvaluatedAt = some start ∨ (c.productKind = .share ∧ F .lateConversion)) :
      Act F id k { k with wallet := w, periods, contracts := k.contracts.modify id f hf }
  | firstBudget {k c start} (f : Contract → Contract) (hf : ∀ r, Row.key (f r) = Row.key r)
      (hc : k.contracts.get? id = some c) (hm : c.billing.isMetered = true)
      (hph : k.notOnTrial id) (hr : FirstPaid c (f c) start)
      (hb : (c.status = .pendingActivation ∧ ∃ hid, c.activationHoldId = some hid ∧
          (f c).activationHoldId = some hid ∧ (f c).budgetHoldId = c.budgetHoldId ∧ (f c).budgetSequence = c.budgetSequence) ∨
        (∃ hid, k.namesActivation c hid ∧ (f c).activationHoldId = some hid ∧
          (f c).budgetHoldId = some hid ∧ (f c).budgetSequence = 1)) :
      Act F id k { k with contracts := k.contracts.modify id f hf }
  | renewed {k c w pid jid start stop now anchorDay fence periods}
      (hc : k.contracts.get? id = some c) (hm : c.billing.isMonthly = true)
      (hp : c.paidStartedAt ≠ none) (hst : c.status = .active ∨ c.status = .suspended)
      (hold : ∃ q paid, k.currentPeriod? c = some q ∧ q.status = .closed ∧ q.periodEnd ≤ start ∧
        anchorDay = renewalAnchor c paid q.periodEnd start)
      (hw : Debited c.buyerUserId (c.billing.priceMinor * moneyUnitsPerMinor) .unfulfilled pid
          "platform_period" pid "renew" k.wallet w ∨
        (w = k.wallet ∧ ∃ j, k.wallet.journal? "platform_period" pid "renew" = some j))
      (hfits : Fits (c.billing.priceMinor * moneyUnitsPerMinor))
      (hu : ∀ q ∈ k.periods.rows, q.contractId = id → q.sequence ≠ c.currentPeriodSequence + 1)
      (hi : k.periods.insert? (.opening pid id (c.currentPeriodSequence + 1) start stop
        (c.billing.priceMinor * moneyUnitsPerMinor) jid now) = some periods)
      (hn : nextCalendarMonthAt start anchorDay = .ok stop) :
      Act F id k { k with
        wallet := w
        periods
        contracts := k.contracts.modify id
          (fun r => r.renew (c.currentPeriodSequence + 1) anchorDay start now fence)
          fun r => r.key_renew _ _ _ _ _ }
  | replenished {k c rate w hid budget now} (hc : k.contracts.get? id = some c)
      (hm : c.billing = .metered rate) (hne : c.status ≠ .ended)
      (hpaid : c.paidStartedAt ≠ none ∨ c.status = .active ∨
        (c.status = .suspended ∧ c.trialSecondsRemaining ≠ 0 ∧ F .unpaidResume))
      (hspent : ∀ b, c.budgetHoldId = some b → k.wallet.activeRemaining b c.buyerUserId < rate)
      (hd : rate ∣ budget)
      (hw : HoldTaken c.buyerUserId "platform_metered_budget"
        s!"{id}:budget:{c.budgetSequence + 1}" "metered_budget" budget hid k.wallet w) :
      Act F id k { k with
        wallet := w
        contracts := k.contracts.modify id
          (fun r => r.setBudget hid (c.budgetSequence + 1) now) fun r => r.key_setBudget _ _ _ }
  | released {k w} (hid : String) (hown : k.givesBack id hid) (hw : Released hid k.wallet w) :
      Act F id k { k with wallet := w }
  | resumed {k c rate} (now : Instant) (hc : k.contracts.get? id = some c)
      (hm : c.billing = .metered rate) (hst : c.status = .suspended)
      (hpaid : c.paidStartedAt ≠ none ∨
        (k.wallet.budgeted c ∧ c.trialSecondsRemaining ≠ 0 ∧ F .unpaidResume)) :
      Act F id k { k with
        contracts := k.contracts.modify id (fun r => r.resume now) fun r => r.key_resume _ }
  | observed {k c rate o t} (hc : k.contracts.get? id = some c) (ho : Observed k c rate o)
      (hi : k.observations.insert? o = some t) : Act F id k { k with observations := t }
  | captured {k k' c rate hid} (hc : k.contracts.get? id = some c) (hm : c.billing = .metered rate)
      (hh : c.budgetHoldId = some hid)
      (hb : BatchCaptured id c.providerUserId rate hid k k') : Act F id k k'
  | wroteOff {k} (now : Instant)
      (hj : ∀ w ∈ (k.writeOff id now).writeOffs, w ∈ k.writeOffs ∨ w.justified ∨ F .fundedWriteOff) :
      Act F id k (k.writeOff id now)
  | segment {k c p amount gid src jid w slices segments contracts} (x : Stretch)
      (hk : k.servicePeriod? id = some (c, p)) (ho : p.status = .opened)
      (hx : x.start = p.settledThroughAt ∧ x.start < x.stop ∧ x.stop ≤ p.periodEnd)
      (ha : p.segmentAmount x.stop = .ok amount)
      (hw : SegmentMoney k c p gid x.available amount w slices)
      (hs : k.segments.insert? ⟨gid, p.id, src, x.start, x.stop, x.available, amount, jid⟩ =
        some segments)
      (hc : SegmentCursor k c src x contracts) :
      Act F id k { k with
        wallet := w
        slices
        segments
        contracts
        periods := k.periods.modify p.id (fun r => r.settle x.stop x.available amount)
          fun r => r.key_settle _ _ _ }
  | replayed {k c p g} (stop now : Instant) (hk : k.servicePeriod? id = some (c, p))
      (hs : c.productKind = .share ∧ c.status = .active)
      (hg : g ∈ k.segments.rows ∧ g.periodId = p.id ∧ c.lastEvaluatedAt = some g.startedAt) :
      Act F id k { k with
        contracts := k.contracts.modify id (fun r => r.evaluate stop now)
          fun r => r.key_evaluate _ _ }
  | monthEnded {k c p left w segments} (now : Instant)
      (hk : k.servicePeriod? id = some (c, p)) (ho : p.status = .opened)
      (hne : c.status ≠ .ended)
      (hl : left = p.amountUnits - p.fulfilledUnits - p.refundedUnits)
      (hw : MonthRefund k c p left w)
      (hs : (p.settledThroughAt < p.periodEnd ∧ ∃ gid jid, k.segments.insert? ⟨gid, p.id,
          "confirmed_cleanup", p.settledThroughAt, p.periodEnd, false, left, jid⟩ = some segments) ∨
        (¬p.settledThroughAt < p.periodEnd ∧ segments = k.segments)) :
      Act F id k { k with
        wallet := w
        segments
        periods := k.periods.modify p.id (fun r => r.close left) fun r => r.key_close _
        contracts := k.contracts.modify id (fun r => r.finish now) fun r => r.key_finish _ }
  | ended {k c} (now : Instant) (hc : k.contracts.get? id = some c) (hne : c.status ≠ .ended)
      (hcl : c.billing.isMetered = true → k.clean c ∨ F .leakyEnd) :
      Act F id k { k with
        contracts := k.contracts.modify id (fun r => r.finish now) fun r => r.key_finish _ }
  | evidenced {k c} (e : ServiceEvidence) (he : e.contractId = id)
      (hc : k.contracts.get? id = some c) (hk : e.sourceKind = c.productKind.sourceKind)
      (ht : e.startedAt < e.endedAt)
      (hcur : c.productKind = .clientHost → c.billing.isMonthly = true →
        c.lastEvaluatedAt = some e.startedAt) :
      Act F id k { k with evidence := Table.insertEvidence k.evidence e }
  | foreign {k w} (hw : Foreign k.wallet w) : Act F id k { k with wallet := w }

def Acts (F : Fault → Prop) (id : String) : Core → Core → Prop := Relation.ReflTransGen (Act F id)

variable {F : Fault → Prop} {id : String} {k k' k'' : Core}

theorem Act.acts (h : Act F id k k') : Acts F id k k' := Relation.ReflTransGen.single h

theorem Acts.refl : Acts F id k k := Relation.ReflTransGen.refl

theorem Acts.trans (h : Acts F id k k') (h' : Acts F id k' k'') : Acts F id k k'' :=
  Relation.ReflTransGen.trans h h'

theorem Acts.tail (h : Acts F id k k') (h' : Act F id k' k'') : Acts F id k k'' :=
  Relation.ReflTransGen.tail h h'

end CcSwitchRouter
