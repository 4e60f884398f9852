import CcSwitchRouter.Contracts.PassSteps
import CcSwitchRouter.Wallet.Runs

namespace CcSwitchRouter

open Store Store.Tx Ledger

/-- `rent_tx` of a Share whose quote carries trial terms: the contract and its Share trial are
written in one transaction. -/
def rentShareTx (i : PrepareContract) (entitlementId : String) (now : Instant) : DbTx Unit := do
  let contractId ← prepareContractTx { i with productKind := .share } now
  prepareShareTrialTx contractId entitlementId

/-- The transactions that work on contracts. The worker handles one selected contract at a time. The
settlement of a month frozen by a termination case is not among them. -/
inductive ContractOp
  | rent (i : PrepareContract)
  | rentShare (i : PrepareContract) (entitlementId : String)
  | bindClientInstallation (contractId jobId installationId buyer provider : String)
  | activate (contractId : String) (activatedAt : Instant)
  | failActivation (contractId : String) (cleanupConfirmed : Bool)
  | setWalletRenewal (contractId buyer : String) (expected : RenewalPolicy) (autoRenew : Bool)
  | cancelAtPeriodEnd (contractId buyer : String)
  | observeShare (shareId : String)
  | rejectPaidPhase (contractId : String)
  | reconcile (snap : Contract)
  | acceptTermination (contractId : String)
  | terminate (contractId : String) (cleanupConfirmed : Bool)

namespace ContractOp

def exec (now : Instant) : ContractOp → DbTx Unit
  | rent i => void (prepareContractTx i now)
  | rentShare i e => rentShareTx i e now
  | bindClientInstallation c j x b p => bindClientInstallationTx c j x b p now
  | activate c a => activateContractTx c a now
  | failActivation c confirmed => failActivationTx c confirmed now
  | setWalletRenewal c b expected auto => setWalletRenewalTx c b expected auto now
  | cancelAtPeriodEnd c b => void (cancelAtPeriodEndTx c b now)
  | observeShare share => observeShareTx share now
  | rejectPaidPhase c => rejectPaidPhaseTx c now
  | reconcile snap => void (reconcileSavedTx now snap)
  | acceptTermination c => acceptTerminationTx c now
  | terminate c confirmed => void (terminateAfterCleanupTx (pure none) c confirmed now)

def Ready (s : Db) : ContractOp → Prop
  | reconcile snap => Selected s snap
  | terminate c _ => s.recordedMonth c = false
  | _ => True

def Risk (s : Db) (now : Instant) : ContractOp → Fault → Prop
  | reconcile snap, .unpaidResume => s.unpaidResume snap.id
  | reconcile snap, .lateConversion => s.lateReceipt snap.id
  | terminate c true, .leakyEnd => s.leakyEnd c
  | terminate c true, .fundedWriteOff => s.fundedWriteOff c now
  | _, _ => False

end ContractOp

structure Core.Fresh (k : Core) : Prop where
  contracts : k.contracts.rows = []
  periods : k.periods.rows = []
  segments : k.segments.rows = []
  observations : k.observations.rows = []
  batches : k.batches.rows = []
  batchItems : k.batchItems = []
  slices : k.slices.rows = []
  evidence : k.evidence.rows = []
  shareTrials : k.shareTrials.rows = []
  writeOffs : k.writeOffs = []
  holds : k.wallet.holds.rows = []
  journals : k.wallet.journals.rows = []

/-- One step of the system. A failing operation is rolled back; between two of them the other money
rails move their own money and every table outside billing may change. -/
inductive Step (avoid : Fault → Prop) : Db → Db → Prop
  | op {s : Db} (o : ContractOp) (now : Instant) (ready : o.Ready s)
      (safe : ∀ f, avoid f → ¬o.Risk s now f) : Step avoid s (commit (o.exec now) s)
  | elsewhere {s t : Db} (w : Wallet) (core : t.core = { s.core with wallet := w })
      (foreign : Foreign s.core.wallet w) : Step avoid s t

inductive Reachable (avoid : Fault → Prop) : Db → Prop
  | start {s : Db} (fresh : s.core.Fresh) : Reachable avoid s
  | step {s t : Db} (h : Reachable avoid s) (hst : Step avoid s t) : Reachable avoid t

theorem Reachable.op {avoid : Fault → Prop} {s : Db} (o : ContractOp) (now : Instant)
    (h : Reachable avoid s) (ready : o.Ready s) (safe : ∀ f, avoid f → ¬o.Risk s now f) :
    Reachable avoid (commit (o.exec now) s) :=
  h.step (.op o now ready safe)

abbrev AnyRun : Db → Prop := Reachable fun _ => False

/-- The faults a run may take. Pausing a trial is not avoided by any condition below. -/
def allowed (avoid : Fault → Prop) (f : Fault) : Prop := f = .heldTrial ∨ ¬avoid f

variable {F avoid : Fault → Prop} {s t : Db} {id : String} {c c' : Contract} {now : Instant}
  {k k' : Core}

theorem prepareContractTx_kind {i : PrepareContract}
    (h : prepareContractTx i now s = .ok (id, t)) (hc : t.core.contracts.get? id = some c) :
    c.productKind = i.productKind := by
  simp only [prepareContractTx] at h
  split at h
  · next hv =>
    simp only [ofExcept_bind_ok, reads_bind] at h
    obtain ⟨units, hunits, h⟩ := h
    cases hfound : s.contractForProduct? i.productKind i.productRef with
    | some saved =>
      simp only [hfound, require_bind_ok, pure_ok] at h
      obtain ⟨-, rfl, rfl⟩ := h
      have hp := List.find?_some hfound
      simp only [Bool.and_eq_true, beq_iff_eq] at hp
      have hsaved : t.core.contracts.get? saved.id = some saved :=
        Table.get?_eq_some.2 ⟨List.mem_of_find?_eq_some hfound, rfl⟩
      cases hsaved.symm.trans hc
      exact hp.1
    | none =>
      simp only [hfound] at h
      obtain ⟨hold, epoch, w, contracts, hins, -, -, hcore⟩ :=
        prepareNewContractTx_ok hv.1 (unitsFromMinor_ok hunits).2.1 h
      rw [hcore, Table.get?_insert? hins] at hc
      have hid : Row.key (i.contract hv.1 id hold epoch now) = id := rfl
      simp only [hid, if_true] at hc
      cases hc
      rfl
  · exact (fail_ok.1 h).elim

theorem rentShareTx_trace {i : PrepareContract} {e : String} {u : Unit}
    (h : rentShareTx i e now s = .ok (u, t)) : ∃ id, Trace F id s t := by
  rw [rentShareTx, bind_ok] at h
  obtain ⟨id, s₁, hprep, h⟩ := h
  have h₁ : Trace F id s s₁ := prepareContractTx_trace hprep
  have h₂ : Trace F id s₁ t := by
    apply prepareShareTrialTx_trace _ h
    intro c hc
    exact prepareContractTx_kind hprep hc
  exact ⟨id, trans_of (Trace F id) h₁ h₂⟩

/-- Each transaction is a sequence of acts on behalf of one contract; it takes no fault from a state
without the risk. -/
theorem ContractOp.trace {o : ContractOp} {u : Unit} (hready : o.Ready s) (hF : F .heldTrial)
    (hrisk : ∀ f, o.Risk s now f → F f)
    (hpaid : ∀ id c, s.core.contracts.get? id = some c → c.status = .active →
      c.paidStartedAt = none → F .unpaidResume)
    (h : o.exec now s = .ok (u, t)) : ∃ id, Trace F id s t := by
  cases o with
  | rent i =>
    obtain ⟨id, h⟩ := void_ok.1 h
    exact ⟨id, prepareContractTx_trace h⟩
  | rentShare i e => exact rentShareTx_trace h
  | bindClientInstallation c j x b p => exact ⟨c, bindClientInstallationTx_trace _ _ _ _ _ _ _ h⟩
  | activate c a => exact ⟨c, activateContractTx_trace _ _ _ _ h⟩
  | failActivation c confirmed => exact ⟨c, failActivationTx_trace _ _ _ _ h⟩
  | setWalletRenewal c b expected auto => exact ⟨c, setWalletRenewalTx_trace _ _ _ _ _ _ h⟩
  | cancelAtPeriodEnd c b => exact ⟨c, Does.void (cancelAtPeriodEndTx_trace _) _ _ _ h⟩
  | observeShare share => exact ⟨"", observeShareTx_trace _ _ _ _ _ h⟩
  | rejectPaidPhase c => exact ⟨c, rejectPaidPhaseTx_trace _ _ _ _ h⟩
  | reconcile snap =>
    obtain ⟨a, h⟩ := void_ok.1 h
    have hlate := hrisk .lateConversion
    have hheld := hrisk .unpaidResume
    exact ⟨snap.id, reconcileSavedTx_trace hready hF hlate hheld (hpaid snap.id) h⟩
  | acceptTermination c => exact ⟨c, acceptTerminationTx_trace _ _ _ h⟩
  | terminate c confirmed =>
    obtain ⟨r, h⟩ := void_ok.1 h
    refine ⟨c, terminateAfterCleanupTx_trace (fun hc hl => ?_) (fun hc hl => ?_) h⟩
    · subst hc
      exact hrisk .leakyEnd hl
    · subst hc
      exact hrisk .fundedWriteOff hl

def Core.ActivePaid (k : Core) : Prop :=
  ∀ id c, k.contracts.get? id = some c → c.status = .active → c.paidStartedAt ≠ none

theorem RowChange.activePaid (h : RowChange F c c') (hF : ¬F .unpaidResume)
    (hc : c.status = .active → c.paidStartedAt ≠ none) (hst : c'.status = .active) :
    c'.paidStartedAt ≠ none := by
  cases h with
  | step h =>
    rw [h.paidStartedAt]
    exact hc (h.active hst)
  | firstPaid _ h => simp [h.paid]
  | renewed _ _ _ _ _ hp => exact hp
  | resumed _ _ hp => exact hp.resolve_right hF
  | finished => cases hst
  | bound => exact hc hst
  | budget => exact hc hst
  | evaluated => exact hc hst

theorem Act.activePaid (h : Act F id k k') (hF : ¬F .unpaidResume) (hk : k.ActivePaid) :
    k'.ActivePaid := by
  intro cid c' hc' hst
  rcases h.contract hc' with ⟨-, -, hn⟩ | ⟨c, hc, rfl | hr⟩
  · rw [hn.status] at hst
    cases hst
  · exact hk cid c' hc hst
  · exact hr.activePaid hF (hk cid c hc) hst

theorem Acts.activePaid (h : Acts F id k k') (hF : ¬F .unpaidResume) (hk : k.ActivePaid) :
    k'.ActivePaid := by
  induction h with
  | refl => exact hk
  | tail _ h ih => exact h.activePaid hF ih

theorem Core.Fresh.get?_contracts (h : k.Fresh) (id : String) : k.contracts.get? id = none := by
  rw [Table.get?_eq_none, h.contracts]
  simp

theorem Core.Fresh.well (h : k.Fresh) : Well k := by
  constructor
  · simp [h.contracts]
  · simp [h.observations]
  · simp [h.shareTrials]
  · simp [h.shareTrials]
  · simp [h.periods]
  · refine ⟨fun id c hc => ?_, by simp [h.shareTrials]⟩
    rw [h.get?_contracts] at hc
    cases hc

theorem Step.acts (h : Step avoid s t) (hw : Well s.core)
    (hp : ¬allowed avoid .unpaidResume → s.core.ActivePaid) :
    ∃ id, Acts (allowed avoid) id s.core t.core := by
  cases h with
  | op o now hready hsafe =>
    rcases commit_cases (o.exec now) s with ⟨u, hx⟩ | hx
    · have hrisk : ∀ f, o.Risk s now f → allowed avoid f := by
        intro f hf
        by_contra hno
        have hav : avoid f := by
          by_contra hav
          exact hno (.inr hav)
        exact hsafe f hav hf
      have hpaid : ∀ id c, s.core.contracts.get? id = some c → c.status = .active →
          c.paidStartedAt = none → allowed avoid .unpaidResume := by
        intro id c hc hst hnone
        by_contra hno
        exact hp hno id c hc hst hnone
      obtain ⟨id, ht⟩ := ContractOp.trace hready (.inl rfl) hrisk hpaid hx
      exact ⟨id, ht hw⟩
    · rw [hx]
      exact ⟨"", .refl⟩
  | elsewhere w core foreign =>
    rw [core]
    exact ⟨"", (Act.foreign foreign).acts⟩

theorem Reachable.base (h : Reachable avoid s) :
    Well s.core ∧ (¬allowed avoid .unpaidResume → s.core.ActivePaid) := by
  induction h with
  | start fresh =>
    refine ⟨fresh.well, fun _ id c hc => ?_⟩
    rw [fresh.get?_contracts] at hc
    cases hc
  | step _ hst ih =>
    obtain ⟨id, ha⟩ := hst.acts ih.1 ih.2
    exact ⟨ha.well ih.1, fun hno => ha.activePaid hno (ih.2 hno)⟩

theorem Reachable.well (h : Reachable avoid s) : Well s.core := h.base.1

/-- The induction over runs: what holds at the start and is kept by every act holds in every
reachable state. -/
theorem Reachable.induct {P : Core → Prop} (h : Reachable avoid s) (hstart : ∀ k, k.Fresh → P k)
    (hact : ∀ {id k k'}, Well k → Act (allowed avoid) id k k' → P k → P k') : P s.core := by
  induction h with
  | start fresh => exact hstart _ fresh
  | step h hst ih =>
    obtain ⟨id, ha⟩ := hst.acts h.base.1 h.base.2
    exact ha.keeps h.well ih hact

theorem Selected.step {snap other : Contract} {a : Option ControlAction} (h : Reachable avoid s)
    (hsel : Selected s snap) (hx : reconcileSavedTx now snap s = .ok (a, t))
    (hother : Selected s other) (hne : other.id ≠ snap.id) : Selected t other := by
  have hact : Acts (fun _ => True) snap.id s.core t.core :=
    reconcileSavedTx_trace hsel trivial (fun _ => trivial) (fun _ => trivial)
      (fun _ _ _ _ => trivial) hx h.well
  obtain ⟨c, hc, hsp⟩ := hother.stored
  obtain ⟨c', hc', hsp'⟩ := hact.spares hne hc
  exact ⟨hother.inService, c', hc', hsp.trans hsp'⟩

def WorkerSafe (avoid : Fault → Prop) : Prop :=
  ∀ f, avoid f → ∀ s now snap, ¬(ContractOp.reconcile snap).Risk s now f

theorem collectTx_run {snaps : List Contract} {actions : List ControlAction}
    (hav : WorkerSafe avoid) (h : Reachable avoid s)
    (hsel : ∀ snap ∈ snaps, Selected s snap) (hnodup : (snaps.map Contract.id).Nodup)
    (hx : collectTx now snaps s = .ok (actions, t)) : Reachable avoid t := by
  induction snaps generalizing s actions with
  | nil =>
    rw [(pure_ok.1 hx).2]
    exact h
  | cons snap rest ih =>
    rw [collectTx, bind_ok] at hx
    obtain ⟨a, s₁, hone, hx⟩ := hx
    rw [bind_ok] at hx
    obtain ⟨as, s₂, hrest, hx⟩ := hx
    obtain ⟨-, rfl⟩ := pure_ok.1 hx
    have hsnap := hsel snap List.mem_cons_self
    have h₁ : Reachable avoid s₁ := by
      have hcommit : commit ((ContractOp.reconcile snap).exec now) s = s₁ :=
        commit_of_ok (a := ()) (void_ok.2 ⟨a, hone⟩)
      rw [← hcommit]
      exact h.op _ now hsnap fun f hf => hav f hf s now snap
    rw [List.map_cons, List.nodup_cons] at hnodup
    apply ih h₁ _ hnodup.2 hrest
    intro other hother
    apply hsnap.step h hone (hsel other (List.mem_cons_of_mem _ hother))
    intro he
    exact hnodup.1 (he ▸ List.mem_map_of_mem hother)

theorem passContracts_selected {snap : Contract} (h : snap ∈ passContracts s) :
    Selected s snap := by
  have hmem := (List.mem_insertionSort _).1 (List.mem_of_mem_take h)
  obtain ⟨hrow, hserv⟩ := List.mem_filter.1 hmem
  exact ⟨hserv, snap, Table.get?_eq_some.2 ⟨hrow, rfl⟩, .inl rfl⟩

theorem passContracts_nodup (s : Db) : ((passContracts s).map Contract.id).Nodup := by
  have hperm := List.perm_insertionSort (fun a b : Contract => a.updatedAt < b.updatedAt ∨
    (a.updatedAt = b.updatedAt ∧ a.id ≤ b.id)) (s.core.contracts.rows.filter Contract.inService)
  have hrows : (s.core.contracts.rows.map Contract.id).Nodup := s.core.contracts.nodup
  have hfilter : ((s.core.contracts.rows.filter Contract.inService).map Contract.id).Nodup :=
    hrows.sublist (List.filter_sublist.map Contract.id)
  have hsorted := (hperm.map Contract.id).nodup_iff.2 hfilter
  exact hsorted.sublist ((List.take_sublist _ _).map Contract.id)

def Db.pass (s : Db) (now : Instant) : Db := commit (reconcilePlatformContractsTx now) s

theorem Reachable.pass (hav : WorkerSafe avoid) (h : Reachable avoid s) (now : Instant) :
    Reachable avoid (s.pass now) := by
  rcases commit_cases (reconcilePlatformContractsTx now) s with ⟨as, hx⟩ | hx
  · rw [reconcilePlatformContractsTx, reads_bind] at hx
    exact collectTx_run hav h (fun _ => passContracts_selected) (passContracts_nodup s) hx
  · rw [Db.pass, hx]
    exact h

theorem Reachable.anyPass (h : AnyRun s) (now : Instant) : AnyRun (s.pass now) :=
  Reachable.pass (fun _ hf => hf.elim) h now

theorem Moved.foreign {j : Journal} {p q : String → Int} {w w' : Wallet} (hm : Moved j p q w w')
    (hh : w'.holds = w.holds) (hk : j.sourceKind ∉ contractJournalKinds)
    (hu : ∀ x ∈ j.postings, x.account.kind ≠ .unfulfilled) : Foreign w w' where
  toAside := .of_insert hm.inserted hk hu
  holds h _ := by rw [hh]
  holdOk hok := by rwa [hh]

theorem Idle.foreign {w w' : Wallet} (h : Idle w w') : Foreign w w' where
  holds h' _ := by rw [h.holds]
  holdOk hok := by rwa [h.holds]
  unfulfilled id := by rw [Wallet.postings, h.journals, Wallet.postings]
  journals j hj := .inl (h.journals ▸ hj)

theorem creditTopupTx_foreign {w w' : Wallet} {ac u o : String} {fp : Int → Int → String} {n : Int}
    {r : JournalResult} (h : creditTopupTx ac fp u o n w = .ok (r, w')) : Foreign w w' := by
  rcases creditTopupTx_ok h with ⟨-, hidle, -⟩ | ⟨-, hc⟩
  · exact hidle.foreign
  · obtain ⟨order, credit, n, g, ps, jid, f, -, -, -, -, -, -, hps, hm⟩ := hc.credited
    apply hm.foreign hc.holds (by simp [contractJournalKinds])
    intro x hx
    rcases List.mem_cons.1 hx with rfl | hx
    · simp [posting]
    · rcases List.mem_cons.1 hx with rfl | hx
      · simp [posting]
      · exact (hps x hx).2

theorem Reachable.topup (h : Reachable avoid s) (u o : String) (n : Int) (r : String) :
    Reachable avoid (commit (WalletOp.creditVerifiedTopup u o n r).exec s) := by
  rcases commit_cases (WalletOp.creditVerifiedTopup u o n r).exec s with ⟨x, hx⟩ | hx
  · obtain ⟨a, ha⟩ := void_ok.1 hx
    obtain ⟨w, hw, ht⟩ := onWallet_ok.1 ha
    rw [ht]
    exact h.step (.elsewhere w rfl (creditTopupTx_foreign hw))
  · rw [hx]
    exact h

theorem Reachable.outside (h : Reachable avoid s) (hcore : t.core = s.core) : Reachable avoid t :=
  h.step (.elsewhere s.core.wallet hcore (Idle.refl _).foreign)

/-- A desk with an open case on the wallet of the buyer: every scope of a contract with that buyer is
held. -/
def Db.withHold (s : Db) : Db :=
  { s with desk := { s.desk with cases := [⟨"hold", .walletProjectionMismatch, "wallet", "alice", true, ""⟩] } }

def Db.withoutHold (s : Db) : Db := { s with desk := { s.desk with cases := [] } }

theorem Reachable.withHold (h : Reachable avoid s) : Reachable avoid s.withHold := h.outside rfl

theorem Reachable.withoutHold (h : Reachable avoid s) : Reachable avoid s.withoutHold :=
  h.outside rfl

/-- A market with two Client hosts, a Share and a paid top-up order that is not credited yet. The
second Client is checked around the end of January. -/
def marketSample : Db :=
  let start := Db.blank fun n => s!"uuid-{n}"
  let order : TopupOrder := ⟨"topup", "alice", 1999, none, 0, .verifying, by decide, le_rfl⟩
  let february : Int := 31 * 86400
  { start with
    core := { start.core with
      wallet := { start.core.wallet with topupOrders := ⟨[order], List.nodup_singleton _⟩ } }
    earnings := { start.earnings with policies := [⟨1, 0, 0, 0, false⟩] }
    env := { start.env with
      clientSubscriptions := [⟨"one", .active, none, some true⟩, ⟨"two", .active, none, some true⟩]
      installationHealthChecks := [⟨"one", 0, .healthy⟩, ⟨"two", february - 40, .healthy⟩,
        ⟨"two", february + 30, .healthy⟩, ⟨"two", february + 90, .healthy⟩]
      shareSubscriptions := [⟨"subscription", "share", .activePrepaid, none⟩] } }

def fundedSample : Db :=
  commit (WalletOp.creditVerifiedTopup "alice" "topup" 1999 "receipt").exec marketSample

theorem fundedSample_reachable : Reachable avoid fundedSample := by
  apply Reachable.topup
  apply Reachable.start
  constructor <;> rfl

def hostSample (ref : String) (billing : Billing) (trialSeconds : Int) : PrepareContract :=
  { productKind := .clientHost, productRef := ref, trialScopeRef := ref, quoteId := "quote"
    buyerUserId := "alice", providerUserId := "bob", offerRevision := 1, billing
    autoRenew := billing.isMonthly, trialSeconds, trialAllowanceSeconds := trialSeconds }

def Db.host (s : Db) (id ref : String) (billing : Billing) (trialSeconds : Int) (now : Instant) :
    Db :=
  commit ((ContractOp.activate id now).exec now)
    (commit ((ContractOp.bindClientInstallation id ref ref "alice" "bob").exec now)
      (commit ((ContractOp.rent (hostSample ref billing trialSeconds)).exec now) s))

theorem Reachable.host (h : Reachable avoid s) (id ref : String) (billing : Billing)
    (trialSeconds : Int) (now : Instant) : Reachable avoid (s.host id ref billing trialSeconds now) := by
  apply Reachable.op (.activate id now) now _ trivial fun _ _ hrisk => hrisk
  apply Reachable.op (.bindClientInstallation id ref ref "alice" "bob") now _
    trivial fun _ _ hrisk => hrisk
  exact h.op (.rent (hostSample ref billing trialSeconds)) now trivial fun _ _ hrisk => hrisk

def hostedSample (billing : Billing) (trialSeconds : Int) : Db :=
  fundedSample.host "uuid-0" "one" billing trialSeconds 0

theorem hostedSample_reachable (billing : Billing) (trialSeconds : Int) :
    Reachable avoid (hostedSample billing trialSeconds) :=
  fundedSample_reachable.host _ _ _ _ _

/-- What may become of a contract row, whatever happens in between. -/
structure Contract.Later (c c' : Contract) : Prop extends c.SameTerms c' where
  pending : c'.status = .pendingActivation → c.status = .pendingActivation
  ended : c.status = .ended → c'.status = .ended
  paid : c.paidStartedAt ≠ none → c'.paidStartedAt = c.paidStartedAt
  trial : c'.trialSecondsRemaining ≤ c.trialSecondsRemaining

theorem Contract.Later.refl (c : Contract) : c.Later c :=
  ⟨.refl c, fun h => h, fun h => h, fun _ => rfl, le_rfl⟩

theorem Contract.Later.trans {c'' : Contract} (h : c.Later c') (h' : c'.Later c'') :
    c.Later c'' where
  toSameTerms := h.toSameTerms.trans h'.toSameTerms
  pending hp := h.pending (h'.pending hp)
  ended he := h'.ended (h.ended he)
  paid hp := (h'.paid (h.paid hp ▸ hp)).trans (h.paid hp)
  trial := h'.trial.trans h.trial

theorem RowChange.later (h : RowChange F c c') (hc : 0 ≤ c.trialSecondsRemaining) :
    c.Later c' := by
  refine ⟨h.sameTerms, ?_, h.ended, ?_, ?_⟩
  · cases h with
    | step h => exact h.pending
    | bound | budget | evaluated => exact fun hp => hp
    | firstPaid _ h => simp [h.status]
    | renewed | resumed | finished => rintro ⟨⟩
  · cases h with
    | step h => exact fun _ => h.paidStartedAt
    | firstPaid _ h => exact fun hp => absurd h.unpaid hp
    | _ => exact fun _ => rfl
  · cases h with
    | step h => exact (h.trial hc).2
    | firstPaid _ h => exact h.trial.le
    | _ => exact le_rfl

theorem Reachable.run (h : Reachable avoid s) (hrun : Relation.ReflTransGen (Step avoid) s t) :
    Reachable avoid t := by
  induction hrun with
  | refl => exact h
  | tail _ hst ih => exact ih.step hst

/-- The worker's step for the first contract of a pass. -/
def Db.passFirst (s : Db) (now : Instant) : Db :=
  match passContracts s with
  | [] => s
  | snap :: _ => commit ((ContractOp.reconcile snap).exec now) s

theorem passFirst_run (hsafe : ∀ f, avoid f → ∀ snap, ¬(ContractOp.reconcile snap).Risk s now f) :
    Relation.ReflTransGen (Step avoid) s (s.passFirst now) := by
  rw [Db.passFirst]
  split
  · exact .refl
  · next snap rest hpass =>
    have hsel : Selected s snap := passContracts_selected (hpass ▸ List.mem_cons_self)
    exact .single (.op _ now hsel fun f hf => hsafe f hf snap)

/-- A trial of ten seconds that the worker has used up and converted. -/
def usedTrialSample : Db := (hostedSample (.metered 1) 10).passFirst (secs 10)

end CcSwitchRouter
