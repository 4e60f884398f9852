import CcSwitchRouter.Contracts.Runs

namespace CcSwitchRouter

open Store Store.Tx Ledger

variable {s : Db} {cid : String} {c : Contract}

/-- As long as no held trial is resumed, an active contract has been paid for and its trial is used
up. -/
theorem active_paid_after_trial (h : Reachable (· = .unpaidResume) s)
    (hc : s.core.contracts.get? cid = some c) (hst : c.status = .active) :
    c.paidStartedAt ≠ none ∧ c.trialSecondsRemaining = 0 := by
  have hno : ¬allowed (· = Fault.unpaidResume) .unpaidResume := by simp [allowed]
  have hpaid := h.base.2 hno cid c hc hst
  exact ⟨hpaid, (h.well.sound hc).spent hpaid⟩

theorem active_paid_after_trial_used_up :
    ∃ c, usedTrialSample.core.contracts.get? "uuid-0" = some c ∧
      c.status = .active ∧ c.paidStartedAt ≠ none ∧ c.trialSecondsRemaining = 0 := by
  have hfound : ∃ c, usedTrialSample.core.contracts.get? "uuid-0" = some c ∧
      c.status = .active := by decide +kernel
  have htrial : ∀ c ∈ (hostedSample (.metered 1) 10).core.contracts.rows, c.status = .trialing := by
    decide +kernel
  obtain ⟨c, hc, hst⟩ := hfound
  have hrun : Reachable (· = .unpaidResume) usedTrialSample := by
    apply (hostedSample_reachable _ _).run
    apply passFirst_run
    rintro _ rfl snap ⟨d, hd, -, hsuspended, -⟩
    cases (htrial d (Table.mem_of_get? hd)).symm.trans hsuspended
  exact ⟨c, hc, hst, active_paid_after_trial hrun hc hst⟩

def heldTrialSample : Db := (hostedSample (.metered 1) 10).withHold.pass (secs 10)

def resumedTrialSample : Db := heldTrialSample.withoutHold.pass (secs 20)

theorem resumedTrialSample_reachable : AnyRun resumedTrialSample := by
  have hheld : AnyRun heldTrialSample := (hostedSample_reachable _ _).withHold.anyPass _
  exact hheld.withoutHold.anyPass _

/-- The conversion at the end of the trial meets the hold and is rolled back together with the last
trial seconds, the contract is suspended, and its resume makes it active without a paid start. -/
theorem held_trial_resumes_unpaid : AnyRun resumedTrialSample ∧
    ∃ c ∈ resumedTrialSample.core.contracts.rows, c.status = .active ∧
      c.paidStartedAt = none ∧ c.trialSecondsRemaining = 10 :=
  ⟨resumedTrialSample_reachable, by decide +kernel⟩

end CcSwitchRouter
