import CcSwitchRouter.Contracts.Pass

namespace CcSwitchRouter

open Store Store.Tx Ledger

def SameCore (s t : Db) : Prop := t.core = s.core

instance : IsPreorder Db SameCore where
  refl _ := rfl
  trans _ _ _ h h' := Eq.trans h' h

theorem modify_side {f : Db → Db} (hf : ∀ s, (f s).core = s.core) :
    Does SameCore (modify f : DbTx Unit) :=
  Does.modify hf

theorem newUuid_side : Does SameCore newUuid := by
  intro s a t h
  rw [(newUuid_ok.1 h).2]
  rfl

theorem queryRow_side {α : Type} (f : Db → Option α) (context : String) :
    Does SameCore (queryRow f context) := queryRow_does f context

theorem readContract_side (id context : String) : Does SameCore (readContract id context) :=
  queryRow_side _ _

theorem openCaseTx_side (code : CaseCode) (k i d : String) : Does SameCore (openCaseTx code k i d) :=
  modify_side fun s => by
    dsimp only
    split <;> rfl

theorem notifyContractTx_side (id kind reason : String) :
    Does SameCore (notifyContractTx id kind reason) :=
  (readContract_side _ _).bind fun _ => (Does.ofExcept _).bind fun _ =>
    enqueueUserNotificationTx_does fun _ _ => rfl

theorem ensureFinanceScopesSafeTx_side (scopes : List FinanceScope) :
    Does SameCore (ensureFinanceScopesSafeTx scopes) :=
  Does.query _

theorem ensureContractFinanceSafeTx_side (id : String) :
    Does SameCore (ensureContractFinanceSafeTx id) :=
  (readContract_side _ _).bind fun _ => ensureFinanceScopesSafeTx_side _

theorem priorDueFundingUnitsTx_side (b : String) (c : Option String) (now : Instant) :
    Does SameCore (priorDueFundingUnitsTx b c now) :=
  Does.query _

theorem walletSnapshot_side (u : String) : Does SameCore (onWallet (walletSnapshotTx u)) :=
  Does.zoom fun s a w h => by
    rw [(reads_ok.1 h).2]
    rfl

theorem insertRow_side {ρ : Type} [Row ρ] {L : Lens Db (Table ρ)} (r : ρ) (e : AppError)
    (hL : ∀ s t, (L.set s t).core = s.core) : Does SameCore (insertRow L r e) := by
  intro s a t h
  obtain ⟨_, -, rfl⟩ := insertRow_ok.1 h
  exact hL s _

theorem termsAtTx_side (anchor : Instant) : Does SameCore (termsAtTx anchor) :=
  (queryRow_side _ _).bind fun _ => Does.pure _

theorem freezeContractTx_side (c q p : String) : Does SameCore (freezeContractTx c q p) :=
  (Does.reads _).bind fun _ => (Does.reads _).bind fun _ => (Does.require _ _).bind fun _ =>
    modify_side fun _ => rfl

theorem freezePeriodTx_side (c : String) (k : CommissionSource) (i : String) (first : Bool)
    (anchor : Instant) : Does SameCore (freezePeriodTx c k i first anchor) := by
  refine Does.bind (Does.ite (fun _ => Does.reads _) fun _ => ?_) fun _ =>
    newUuid_side.bind fun _ => (Does.reads _).bind fun _ => (Does.require _ _).bind fun _ =>
      insertRow_side _ _ fun _ _ => rfl
  exact (queryRow_side _ _).bind fun _ => (Does.reads _).bind fun _ =>
    Does.ite (fun _ => Does.pure _) fun _ => termsAtTx_side _

theorem resetTx_side (scope : TrialScope) (c : String) (k : ResetSource) (i j : String) :
    Does SameCore (resetTx scope c k i j) := by
  refine Does.bind (Does.reads _) fun saved => ?_
  cases saved with
  | some r => exact Does.require _ _
  | none =>
    exact (Does.reads _).bind fun _ => (Does.ofOption _ _).bind fun _ =>
      (Does.reads _).bind fun _ => (Does.require _ _).bind fun _ => modify_side fun _ => rfl

theorem paidMonthTx_side (c p : String) : Does SameCore (paidMonthTx c p) := by
  refine Does.bind (Does.reads _) fun found => ?_
  cases found with
  | none => exact Does.pure _
  | some c =>
    exact (Does.reads _).bind fun _ => (Does.ofOption _ _).bind fun _ => resetTx_side _ _ _ _ _

theorem paidMeteredTx_side (c b : String) : Does SameCore (paidMeteredTx c b) := by
  refine Does.bind (Does.reads _) fun found => ?_
  cases found with
  | none => exact Does.pure _
  | some c =>
    exact (Does.reads _).bind fun _ => (Does.ofOption _ _).bind fun _ => resetTx_side _ _ _ _ _

theorem holdContractEarningsTx_side (c : String) (r : HoldReason) :
    Does SameCore (holdContractEarningsTx c r) := by
  refine Does.bind (Does.reads _) fun _ => Does.bind (modify_side ?_) fun _ =>
    Does.bind (modify_side ?_) fun _ => Does.bind (Does.reads _) fun _ =>
      Does.when fun _ => Does.forEach fun _ _ => enqueueUserNotificationTx_does fun _ _ => rfl
  · exact fun _ => rfl
  · exact fun _ => rfl

theorem requireOrderFundingTx_side (u : String) (p : Int) (now : Instant) :
    Does SameCore (requireOrderFundingTx u p now) :=
  (Does.require _ _).bind fun _ => (walletSnapshot_side _).bind fun _ =>
    (Does.ofExcept _).bind fun _ =>
      (Does.ite (fun _ => priorDueFundingUnitsTx_side _ _ _) fun _ => Does.pure _).bind fun _ =>
        (Does.ofOption _ _).bind fun _ => Does.require _ _

theorem trialSecondsRemainingTx_side (kind : ProductKind) (scope : TrialScope) (n : Int) :
    Does SameCore (trialSecondsRemainingTx kind scope n) := by
  refine (Does.require _ _).bind fun _ => Does.ite (fun _ => Does.pure _) fun _ => ?_
  cases kind with
  | clientHost =>
    exact ((Does.require _ _).bind fun _ => (Does.reads _).bind fun _ => (Does.reads _).bind
      fun _ => (Does.ofOption _ _).bind fun _ => Does.pure _).bind fun _ => Does.pure _
  | share =>
    exact (Does.reads _).bind fun _ => (Does.ofOption _ _).bind fun _ => Does.pure _

theorem requireSingleTrialTx_side (i : PrepareContract) : Does SameCore (requireSingleTrialTx i) :=
  (Does.reads _).bind fun _ => Does.require _ _

theorem suspensionWarning_side {p : Prop} [Decidable p] (r e o d m : String) :
    Does SameCore (when p (enqueueUserNotificationTx r e o d m)) :=
  Does.when fun _ => enqueueUserNotificationTx_does fun _ _ => rfl

end CcSwitchRouter
