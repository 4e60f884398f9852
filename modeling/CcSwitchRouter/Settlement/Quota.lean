import CcSwitchRouter.Lib.Calendar
import CcSwitchRouter.Pricing.Snapshot
import CcSwitchRouter.Settlement.Ratio

namespace CcSwitchRouter

open Ledger Wide

section Policy

inductive ShareTokenPeriod
  | lifetime
  | day
  | week
  | sevenDays
  | calendarMonth
  | thirtyDays
  | accountReset
deriving DecidableEq, Repr

structure ValueQuota where
  limitUsdMicros : String
  tariffPolicyId : String
deriving DecidableEq, Repr

def tariffPolicy : String := "api-equivalent-v1"

def picosPerMicro : Int := 1000000

def maxLimitMicros : Int := 1000000000000000

def ValueQuota.limitPicos (q : ValueQuota) : Except Pricing.ValueError Int := do
  let micros ← Pricing.unsignedDecimal q.limitUsdMicros
  if q.tariffPolicyId ≠ tariffPolicy ∨ micros = 0 ∨ maxLimitMicros < micros then
    throw .invalidPolicy
  match checkedMul128 micros picosPerMicro with
  | some picos => return picos
  | none => throw .overflow

def dayMs : Int := 86400000

def utcMinMs : Int := Calendar.monthStart (12 * -262143) * dayMs

def utcMaxMs : Int := Calendar.monthStart (12 * 262143) * dayMs - 1

def InUtcRange (at' : Int) : Prop := utcMinMs ≤ at' ∧ at' ≤ utcMaxMs

instance (at' : Int) : Decidable (InUtcRange at') := inferInstanceAs (Decidable (_ ∧ _))

/-- The frozen quota of a rental. Its anchor is the time of a stored record. -/
structure ShareUserPolicy where
  tokenLimit : Option Nat
  valueQuota : Option ValueQuota
  tokenPeriod : ShareTokenPeriod
  tokenPeriodAnchorAtMs : Option Int
  anchor_range : ∀ anchor ∈ tokenPeriodAnchorAtMs, InUtcRange anchor

def anchoredWindow (policy : ShareUserPolicy) (length at' : Int) : Except AppError (Int × Int) :=
  match policy.tokenPeriodAnchorAtMs with
  | none => .error (.internal "missing quota anchor")
  | some anchor =>
    let s := anchor + (at' - anchor) / length * length
    .ok (s, s + length)

def window (policy : ShareUserPolicy) (at' : Int) : Except AppError (Int × Int) :=
  if ¬ InUtcRange at' then .error (.internal "quota window outside UTC range")
  else
    let date := at' / dayMs
    match policy.tokenPeriod with
    | .lifetime => .ok (0, i64Max)
    | .day => .ok (date * dayMs, date * dayMs + dayMs)
    | .week =>
      -- 1970-01-01 was a Thursday
      let monday := date - (date + 3) % 7
      -- the subtraction of the days panics before the first date
      if monday * dayMs < utcMinMs then .error (.internal "NaiveDate - TimeDelta overflowed")
      else .ok (monday * dayMs, monday * dayMs + 7 * dayMs)
    | .sevenDays => anchoredWindow policy (7 * dayMs) at'
    | .thirtyDays => anchoredWindow policy (30 * dayMs) at'
    | .calendarMonth =>
      let month := Calendar.monthOf date
      if utcMaxMs < Calendar.monthStart (month + 1) * dayMs then
        .error (.internal "quota month overflow")
      else .ok (Calendar.monthStart month * dayMs, Calendar.monthStart (month + 1) * dayMs)
    | .accountReset =>
      .error (.conflict "account-reset quota requires a proven settlement window")

/-- `limit`: USD-equivalent picos, or tokens. -/
def ShareUserPolicy.limit (policy : ShareUserPolicy) : Except AppError (Option Int) :=
  match policy.valueQuota with
  | some q => match q.limitPicos with
    | .ok picos => .ok (some picos)
    | .error e => .error (.internal e.text)
  | none => .ok (policy.tokenLimit.map Int.ofNat)

end Policy

section Usage

/-- The frozen amounts of a termination: what is left of the period's price once the time income
and the earlier refunds are taken. -/
structure ShareTermination where
  policy : ShareUserPolicy
  periodStartMs : Int
  periodEndMs : Int
  periodAmountUnits : Int
  timeEarnedUnits : Int
  priorRefundedUnits : Int
  remainingUnits : Int
  amount_fits : Fits periodAmountUnits
  time_nonneg : 0 ≤ timeEarnedUnits
  refunded_nonneg : 0 ≤ priorRefundedUnits
  remaining_nonneg : 0 ≤ remainingUnits
  remaining_eq : remainingUnits = periodAmountUnits - timeEarnedUnits - priorRefundedUnits

structure UsageWindow where
  startsAtMs : Int
  endsAtMs : Int
  used : String
deriving DecidableEq, Repr

structure TerminationReceipt where
  quotaUsedBeforePeriod : String
  windows : List UsageWindow
deriving DecidableEq, Repr

def quotaScale : Int := 1000000

def badDecimal (e : Pricing.ValueError) : AppError := .badRequest e.text

def decimal (raw : String) : Except AppError Int :=
  match Pricing.unsignedDecimal raw with
  | .ok value => .ok value
  | .error e => .error (badDecimal e)

def orInternal {α : Type} (value : Option α) (text : String) : Except AppError α :=
  match value with
  | some a => .ok a
  | none => .error (.internal text)

namespace ShareTermination

variable (t : ShareTermination)

def budgetPart (limit s e cursor stop : Int) : Option Int :=
  ((checkedMul128 limit (stop - cursor)).bind fun n => checkedMul128 n quotaScale).map
    fun n => n.tdiv (e - s)

/-- The loop over the calendar from the period's start, at most `rounds` windows. -/
def budgetLoop (limit : Int) : Nat → Int → Int → Except AppError (Int × Int)
  | 0, cursor, budget => .ok (cursor, budget)
  | rounds + 1, cursor, budget =>
    if t.periodEndMs ≤ cursor then .ok (cursor, budget)
    else do
      let (s, e) ← window t.policy cursor
      let stop := min e t.periodEndMs
      if e ≤ s ∨ stop ≤ cursor then throw (.internal "invalid quota window")
      let part ← orInternal (budgetPart limit s e cursor stop) "quota budget overflow"
      let budget ← orInternal (checkedAdd128 budget part) "quota budget overflow"
      budgetLoop limit rounds stop budget

def quotaBudget (limit : Int) (r : TerminationReceipt) : Except AppError Int :=
  if t.policy.tokenPeriod = .lifetime then do
    let before ← decimal r.quotaUsedBeforePeriod
    orInternal (checkedMul128 (max (limit - before) 0) quotaScale) "quota budget overflow"
  else do
    let (cursor, budget) ← t.budgetLoop limit 512 t.periodStartMs 0
    if cursor < t.periodEndMs then throw (.internal "quota period exceeds settlement bound")
    return budget

def expectedWindow (w : UsageWindow) : Except AppError (Int × Int) :=
  if t.policy.tokenPeriod = .lifetime then .ok (t.periodStartMs, t.periodEndMs)
  else window t.policy (max w.startsAtMs t.periodStartMs)

def usedLoop : List UsageWindow → Int → Option Int → Except AppError Int
  | [], used, _ => .ok used
  | w :: ws, used, previous => do
    if w.endsAtMs ≤ w.startsAtMs ∨ t.periodEndMs ≤ w.startsAtMs ∨ w.endsAtMs ≤ t.periodStartMs ∨
        previous.any (fun stop => decide (w.startsAtMs < stop)) = true then
      throw (.badRequest "overlapping or unrelated Share usage windows")
    let expected ← t.expectedWindow w
    if expected ≠ (w.startsAtMs, w.endsAtMs) then
      throw (.badRequest "Share usage window does not match frozen policy")
    let amount ← decimal w.used
    let used ← orInternal (checkedAdd128 used amount) "Share usage overflow"
    usedLoop ws used (some w.endsAtMs)

def quotaIncome (budget used : Int) : Except AppError Int :=
  if budget ≤ 0 then .ok (if 0 < used then t.remainingUnits else 0)
  else do
    let scaled ← orInternal (checkedMul128 used quotaScale) "Share usage overflow"
    let value ← ratio t.periodAmountUnits (min scaled budget) budget
    return min (max (value - t.timeEarnedUnits) 0) t.remainingUnits

def validateUsage (r : TerminationReceipt) : Except AppError Int :=
  if 512 < r.windows.length then .error (.badRequest "too many settlement windows")
  else do
    match ← t.policy.limit with
    | none => return 0
    | some limit =>
      if t.periodAmountUnits = 0 then return 0
      let budget ← t.quotaBudget limit r
      let used ← t.usedLoop r.windows 0 none
      t.quotaIncome budget used

end ShareTermination

end Usage

end CcSwitchRouter
