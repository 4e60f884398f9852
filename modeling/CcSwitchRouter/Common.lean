import CcSwitchRouter.Lib.Calendar
import CcSwitchRouter.Lib.Ledger
import CcSwitchRouter.Lib.Table
import Mathlib.Tactic.LinearCombination

namespace CcSwitchRouter

open Store Store.Tx Ledger

inductive AppError
  | badRequest (message : String)
  | unauthorized (message : String)
  | forbidden (message : String)
  | notFound (message : String)
  | conflict (message : String)
  | coded (code message : String)
  | tooManyRequests (message : String)
  | rateLimited (message : String) (retryAfterSecs : Nat)
  | serviceUnavailable (message : String)
  | internal (message : String)
deriving DecidableEq, Repr

def AppError.code : AppError → Option String
  | .coded code _ => some code
  | _ => none

def dbError (context error : String) : AppError := .internal s!"{context} failed: {error}"

/-- A `query_row` without a matching row. -/
def noRows (context : String) : AppError := dbError context "query returned no rows"

def queryRow {σ α : Type} (f : σ → Option α) (context : String) : Tx AppError σ α := fun s =>
  match f s with
  | some a => .ok (a, s)
  | none => .error (noRows context)

theorem queryRow_ok {σ α : Type} {f : σ → Option α} {context : String} {s t : σ} {a : α} :
    queryRow f context s = .ok (a, t) ↔ f s = some a ∧ t = s := by
  simp only [queryRow]
  cases f s with
  | none => simp
  | some b =>
    simp only [Except.ok.injEq, Prod.mk.injEq, Option.some.injEq, and_congr_right_iff]
    exact fun _ => eq_comm

theorem queryRow_bind_ok {σ α β : Type} {f : σ → Option α} {context : String} {s : σ}
    {k : α → Tx AppError σ β} {r : β × σ} :
    (queryRow f context >>= k) s = .ok r ↔ ∃ a, f s = some a ∧ k a s = .ok r := by
  obtain ⟨b, t⟩ := r
  simp only [bind_ok, queryRow_ok, and_assoc, exists_and_left, exists_eq_left]

theorem queryRow_does {σ α : Type} {R : σ → σ → Prop} [IsPreorder σ R] (f : σ → Option α)
    (context : String) : Does R (queryRow f context) := by
  intro s a t h
  rw [(queryRow_ok.1 h).2]
  exact refl_of R s

def uniqueFailed (context column : String) : AppError :=
  dbError context s!"UNIQUE constraint failed: {column}"

def sumOverflow (context : String) : AppError := dbError context "integer overflow"

def moneyUnitsPerMinor : Int := 86400

def unitsFromMinor (amountMinor : Int) : Except AppError Int :=
  if amountMinor ≤ 0 then .error (.badRequest "amount must be positive")
  else match checkedMul amountMinor moneyUnitsPerMinor with
    | some units => .ok units
    | none => .error (.badRequest "amount is too large")

theorem unitsFromMinor_ok {m u : Int} (h : unitsFromMinor m = .ok u) :
    0 < m ∧ u = m * moneyUnitsPerMinor ∧ Fits u := by
  simp only [unitsFromMinor] at h
  split at h
  · cases h
  · next hm =>
    cases hc : checkedMul m moneyUnitsPerMinor with
    | none => simp [hc] at h
    | some v =>
      simp only [hc, Except.ok.injEq] at h
      obtain ⟨hv, hf⟩ := checked_eq_some.1 hc
      subst h hv
      exact ⟨not_le.1 hm, rfl, hf⟩

theorem unitsFromMinor_pos {m u : Int} (h : unitsFromMinor m = .ok u) : 0 < u := by
  obtain ⟨hm, rfl, -⟩ := unitsFromMinor_ok h
  exact Int.mul_pos hm (by decide)

/-- An instant of `DateTime<Utc>`, in nanoseconds since the Unix epoch; a stored RFC 3339 text is
the instant it denotes. -/
abbrev Instant := Int

def nanosPerSecond : Int := 1000000000

def nanosPerMilli : Int := 1000000

def nanosPerDay : Int := 86400000000000

/-- `TimeDelta::num_seconds`, which rounds towards zero. -/
def numSeconds (d : Int) : Int := d.tdiv nanosPerSecond

def numMilliseconds (d : Int) : Int := d.tdiv nanosPerMilli

/-- `Duration::seconds`. -/
def secs (n : Int) : Int := n * nanosPerSecond

def minutes (n : Int) : Int := secs (n * 60)

def hours (n : Int) : Int := secs (n * 3600)

def days (n : Int) : Int := n * nanosPerDay

def timestamp (t : Instant) : Int := t / nanosPerSecond

def timestampMillis (t : Instant) : Int := t / nanosPerMilli

/-- SQLite's reading of a stored time: milliseconds, rounded to the nearest. -/
def julianMillis (t : Instant) : Int := (t + 500000) / nanosPerMilli

def timestampSubsecNanos (t : Instant) : Int := t % nanosPerSecond

def dayOf (t : Instant) : Int := Calendar.dayOfMonth (t / nanosPerDay)

def nextCalendarMonthAt (current : Instant) (anchorDay : Int) : Except AppError Instant :=
  if anchorDay < 1 ∨ 31 < anchorDay then
    .error (.internal "recurring billing anchor day is invalid")
  else
    let month := Calendar.monthOf (current / nanosPerDay) + 1
    let day := min anchorDay (Calendar.daysInMonth month)
    .ok ((Calendar.monthStart month + (day - 1)) * nanosPerDay + current % nanosPerDay)

theorem nextCalendarMonthAt_ok {t e : Instant} {a : Int} (h : nextCalendarMonthAt t a = .ok e) :
    ∃ n, 0 < n ∧ e = t + days n := by
  simp only [nextCalendarMonthAt] at h
  split at h
  · cases h
  · next ha =>
    cases h
    have h₁ := Calendar.lt_monthStart_succ (t / nanosPerDay)
    have h₂ := Calendar.daysInMonth_pos (Calendar.monthOf (t / nanosPerDay) + 1)
    have h₃ := Int.mul_ediv_add_emod t nanosPerDay
    refine ⟨Calendar.monthStart (Calendar.monthOf (t / nanosPerDay) + 1) +
      (min a (Calendar.daysInMonth (Calendar.monthOf (t / nanosPerDay) + 1)) - 1) -
        t / nanosPerDay, by omega, ?_⟩
    simp only [days]
    linear_combination h₃

theorem lt_nextCalendarMonthAt {t e a : Int} (h : nextCalendarMonthAt t a = .ok e) :
    t < e := by
  obtain ⟨n, hn, rfl⟩ := nextCalendarMonthAt_ok h
  simp only [days, nanosPerDay]
  omega

theorem nextCalendarMonthAt_date {t e : Instant} {a : Int} (h : nextCalendarMonthAt t a = .ok e) :
    0 < a ∧ Calendar.monthOf (e / nanosPerDay) = Calendar.monthOf (t / nanosPerDay) + 1 ∧
      dayOf e = min a (Calendar.daysInMonth (Calendar.monthOf (e / nanosPerDay))) := by
  simp only [nextCalendarMonthAt] at h
  split at h
  · cases h
  · next ha =>
    cases h
    have hpos : 0 < a := by omega
    have hrest := Int.emod_lt_of_pos t (show 0 < nanosPerDay by decide)
    have hday (d : Int) : (d * nanosPerDay + t % nanosPerDay) / nanosPerDay = d := by
      simp only [nanosPerDay] at hrest ⊢
      omega
    rw [dayOf, hday, Calendar.monthOf_monthDay hpos, Calendar.dayOfMonth_monthDay hpos]
    exact ⟨hpos, rfl, rfl⟩

end CcSwitchRouter
