import Stoa.Verification.Checkout.OpenGuard

/-! # Whether a recorded activation is final

The calls look at the provider and expiration effects of a command and at its
version, not at its state. An activation stays where these refuse every later
call. -/

namespace Stoa.Billing

open RowStore

variable {env : Env}

def CommandRow.IsActivated (row : CommandRow) : Prop := row.commandState = .activationRecorded

instance (row : CommandRow) : Decidable row.IsActivated := inferInstanceAs (Decidable (_ = _))

/-- The provider's digests are bound together. -/
def CommandRow.Bound (row : CommandRow) : Prop :=
  ∃ identity, row.BoundTo identity

def CommandRow.Unbound (row : CommandRow) : Prop :=
  row.providerCustomerIdDigest = none ∧ row.providerSubscriptionIdDigest = none ∧
    row.expectedInitialInvoiceIdDigest = none

/-- The digests are bound together, and are bound before the command is activated. -/
structure CommandRow.Settled (row : CommandRow) : Prop where
  digests : row.Bound ∨ row.Unbound
  activated : row.IsActivated → row.Bound

def Settled (t : Table Key Row) : Prop :=
  ∀ id row, t.row (.command id) = some row → row.Settled

/-- Two rows carry the same digests. -/
def CommandRow.SameDigests (row row' : CommandRow) : Prop :=
  row.providerCustomerIdDigest = row'.providerCustomerIdDigest ∧
    row.providerSubscriptionIdDigest = row'.providerSubscriptionIdDigest ∧
    row.expectedInitialInvoiceIdDigest = row'.expectedInitialInvoiceIdDigest

theorem CommandRow.BoundTo.bound {row : CommandRow} {identity : ProviderIdentity}
    (h : row.BoundTo identity) : row.Bound := ⟨identity, h⟩

/-- A bound command may only be bound to what it is bound to. -/
theorem CommandRow.Bound.boundTo {row : CommandRow} {identity : ProviderIdentity}
    (h : row.Bound) (hmay : row.MayBind identity) : row.BoundTo identity := by
  obtain ⟨found, hcustomer, hsubscription, hinvoice⟩ := h
  obtain ⟨hc, hs, hi⟩ := hmay
  simp only [hcustomer, hsubscription, hinvoice, Option.all_some, decide_eq_true_eq] at hc hs hi
  exact ⟨hc ▸ hcustomer, hs ▸ hsubscription, hi ▸ hinvoice⟩

theorem CommandRow.SameDigests.bound {row row' : CommandRow} (h : row.SameDigests row')
    (hbound : row'.Bound) : row.Bound := by
  obtain ⟨identity, hcustomer, hsubscription, hinvoice⟩ := hbound
  exact ⟨identity, h.1.trans hcustomer, h.2.1.trans hsubscription, h.2.2.trans hinvoice⟩

/-! ## Moving an activated command -/

/-- The command whose state a call sets to anything but activated. -/
def Call.moves : Call → Option String
  | .claim r => r.command.map CommandRow.commandId
  | .attach r => some r.claim.commandId
  | .markUnknown r => some r.claim.commandId
  | .recordExpiration r => r.command.map CommandRow.commandId
  | .bind r => some r.command.commandId
  | _ => none

/-- What keeps a call from moving an activated command: the provider effects know
of a session once it is attached, and a binding once it has been made. Nothing
keeps an expiration from being recorded. -/
def Call.Refused (row : CommandRow) : Call → Prop
  | .claim _ => row.providerEffectStatus = .sessionAttached
  | .attach _ => row.providerEffectStatus = .sessionAttached
  | .markUnknown _ => row.providerEffectStatus = .sessionAttached
  | .recordExpiration _ => False
  | .bind r => row.commandVersion = r.command.commandVersion → r.command.SameDigests row
  | _ => True

/-- If the command that the call would move is activated, the call is refused. -/
def KeepsActivation (c : Call) (t : Table Key Row) : Prop :=
  ∀ id row, c.moves = some id → t.row (.command id) = some row → row.IsActivated → c.Refused row

theorem Advance.settled {c : Call} {row row' : CommandRow} (hsettled : row.Settled)
    (h : Advance env c row row') : row'.Settled := by
  cases h with
  | claimed | attached | marked => exact ⟨hsettled.digests, nofun⟩
  | expirationClaimed r v row attached => exact ⟨hsettled.digests, hsettled.activated⟩
  | expirationRecorded r command v outcome row held target status attached unsuperseded =>
      exact ⟨hsettled.digests, by cases outcome <;> nofun⟩
  | superseded r v row condition => exact ⟨hsettled.digests, hsettled.activated⟩
  | bound r row version target mayBind unbound heldMayBind =>
      exact ⟨.inl ⟨r.identity, rfl, rfl, rfl⟩, nofun⟩
  | activated r items row condition =>
      obtain ⟨_, ⟨_, _, _, hcustomer, _⟩, _⟩ := of_decide_eq_true condition
      have hbound : row.Bound := by
        rcases hsettled.digests with hbound | hunbound
        · exact hbound
        · simp [hunbound.1] at hcustomer
      exact ⟨.inl hbound, fun _ => hbound⟩

/-- An activated command is moved by no call that is refused, and superseded by none. -/
theorem Advance.final {c : Call} {row row' : CommandRow} (hsettled : row.Settled)
    (hactivated : row.IsActivated) (h : Advance env c row row')
    (hrefused : c.moves = some row.commandId → c.Refused row) :
    row'.IsActivated ∧ row'.supersededByCommandId = row.supersededByCommandId := by
  cases h with
  | claimed r command v row held target checked unattached expired =>
      exact (unattached (hrefused (by simp [Call.moves, held, target]))).elim
  | attached r v row checked target held version =>
      have hattached : row.providerEffectStatus = .sessionAttached :=
        hrefused (by rw [Call.moves, target, AttachRequest.checked_claim checked])
      rw [held.2.2.2] at hattached
      cases hattached
  | marked r row target held version =>
      have hattached : row.providerEffectStatus = .sessionAttached :=
        hrefused (by rw [Call.moves, target])
      rw [held.2.2.2] at hattached
      cases hattached
  | expirationClaimed r v row attached => exact ⟨hactivated, rfl⟩
  | expirationRecorded r command v outcome row held target status attached unsuperseded =>
      exact (hrefused (by simp [Call.moves, held, target])).elim
  | superseded r v row condition =>
      have hterminal : row.commandState = .terminalWithoutPayment :=
        (of_decide_eq_true condition).2.2.1
      rw [CommandRow.IsActivated, hterminal] at hactivated
      cases hactivated
  | bound r row version target mayBind unbound heldMayBind =>
      have hsame : r.command.SameDigests row := hrefused (by rw [Call.moves, target]) version
      exact (unbound ((hsame.bound (hsettled.activated hactivated)).boundTo heldMayBind)).elim
  | activated r items row condition => exact ((of_decide_eq_true condition).2.2 hactivated).elim

/-- The command that a call moves is not activated afterwards. -/
theorem Advance.moves {c : Call} {row row' : CommandRow} (h : Advance env c row row')
    {id : String} (hid : c.moves = some id) : row.commandId = id ∧ ¬ row'.IsActivated := by
  cases h with
  | claimed r command v row held target checked unattached expired =>
      rw [Call.moves, held] at hid
      exact ⟨target.trans (Option.some.inj hid), nofun⟩
  | attached r v row checked target held version =>
      rw [AttachRequest.checked_claim checked] at target
      exact ⟨target.trans (Option.some.inj hid), nofun⟩
  | marked r row target held version => exact ⟨target.trans (Option.some.inj hid), nofun⟩
  | expirationRecorded r command v outcome row held target status attached unsuperseded =>
      rw [Call.moves, held] at hid
      exact ⟨target.trans (Option.some.inj hid), by cases outcome <;> nofun⟩
  | bound r row version target mayBind unbound heldMayBind =>
      exact ⟨target.trans (Option.some.inj hid), nofun⟩
  | _ => cases hid

/-! ## One commit -/

/-- Whatever a commit has left activated is activated now, and not superseded since. -/
def ActivationsStay (history : List (Commit Key Row Call)) (t : Table Key Row) : Prop :=
  ∀ e ∈ history, ∀ id row, e.after.row (.command id) = some row → row.IsActivated →
    ∃ row', t.row (.command id) = some row' ∧ row'.IsActivated ∧
      row'.supersededByCommandId = row.supersededByCommandId

theorem Change.settled {c : Call} {t t' : Table Key Row} (hsettled : Settled t)
    (h : Change env c t t') : Settled t' := by
  intro id row' hrow'
  have hchange := h.row id
  rw [hrow'] at hchange
  generalize hx : t.row (.command id) = x at hchange
  cases hchange with
  | same => exact hsettled id row' hx
  | created v generation key => exact ⟨.inr ⟨rfl, rfl, rfl⟩, nofun⟩
  | advanced row _ step => exact step.settled (hsettled id row hx)

/-- A commit that would be refused on an activated command leaves it activated. -/
theorem Change.final {c : Call} {t t' : Table Key Row} (hcommands : Commands t)
    (hsettled : Settled t) (hkeeps : KeepsActivation c t) (h : Change env c t t') {id : String}
    {row : CommandRow} (hrow : t.row (.command id) = some row) (hactivated : row.IsActivated) :
    ∃ row', t'.row (.command id) = some row' ∧ row'.IsActivated ∧
      row'.supersededByCommandId = row.supersededByCommandId := by
  have hchange := h.row id
  rw [hrow] at hchange
  generalize t'.row (.command id) = y at hchange ⊢
  cases hchange with
  | same => exact ⟨row, rfl, hactivated, rfl⟩
  | advanced _ row' step =>
      refine ⟨row', rfl, step.final (hsettled id row hrow) hactivated fun hmoves => ?_⟩
      rw [(hcommands id row hrow).1] at hmoves
      exact hkeeps id row hmoves hrow hactivated

/-- A commit that is not refused on an activated command moves it. -/
theorem Change.not_final {c : Call} {t t' : Table Key Row} (hcommands : Commands t)
    (hkeeps : ¬ KeepsActivation c t) (h : Change env c t t') :
    ∃ id row row', t.row (.command id) = some row ∧ row.IsActivated ∧
      t'.row (.command id) = some row' ∧ ¬ row'.IsActivated := by
  simp only [KeepsActivation, not_forall] at hkeeps
  obtain ⟨id, row, hmoves, hrow, hactivated, -⟩ := hkeeps
  refine ⟨id, row, ?_⟩
  cases h with
  | registered r call => simp [call, Call.moves] at hmoves
  | transferred r call => simp [call, Call.moves] at hmoves
  | released r call => simp [call, Call.moves] at hmoves
  | advanced id' found row' stored step result =>
      obtain ⟨hid, hmoved⟩ := step.moves hmoves
      have hkey : id' = id := (hcommands id' found stored).1.symm.trans hid
      subst hkey
      exact ⟨row', hrow, hactivated,
        (result (.command id') trivial).trans (Table.row_set_self _ _ _), hmoved⟩

/-! ## Every run -/

theorem ActivationsStay.drift {history : List (Commit Key Row Call)} {t t' : Table Key Row}
    (h : ActivationsStay history t) (ha : t'.AgreesOn Key.IsCheckout t) :
    ActivationsStay history t' := by
  intro e he id row hrow hactivated
  rw [ha (.command id) trivial]
  exact h e he id row hrow hactivated

/-- What one more commit keeps. -/
theorem Change.activationsStay {e : Commit Key Row Call} {history : List (Commit Key Row Call)}
    (hcommands : Commands e.before) (h : Change env e.call e.before e.after)
    (hkeeps : KeepsActivation e.call e.before) (hsettled : Settled e.before)
    (hstay : ActivationsStay history e.before) : ActivationsStay (e :: history) e.after := by
  intro d hd id row hrow hactivated
  rcases List.mem_cons.mp hd with rfl | hd
  · exact ⟨row, hrow, hactivated, rfl⟩
  · obtain ⟨found, hfound, hfoundActivated, hfoundSame⟩ := hstay d hd id row hrow hactivated
    obtain ⟨row', hrow', hfinal, hsame⟩ :=
      h.final hcommands hsettled hkeeps hfound hfoundActivated
    exact ⟨row', hrow', hfinal, hsame.trans hfoundSame⟩

/-- While every commit is refused where its command is activated, a recorded
activation is final; the first commit that is not undoes one. -/
theorem recorded_activation_final {faults : Faults} {t : Table Key Row}
    {s : State Key Row Call Result} (hfresh : Fresh t)
    (h : Reachable (service env faults) t s) :
    ((∀ e ∈ s.history, KeepsActivation e.call e.before) → ActivationsStay s.history s.table) ∧
    ∀ e ∈ s.history, ¬ KeepsActivation e.call e.before →
      ∃ id row row', e.before.row (.command id) = some row ∧ row.IsActivated ∧
        e.after.row (.command id) = some row' ∧ ¬ row'.IsActivated := by
  refine ⟨fun hkeeps => ?_, fun e he hkeeps => ?_⟩
  · have hempty : Settled t := fun id row hrow => by simp [hfresh (.command id) trivial] at hrow
    refine (Reachable.traced (Γ := contract env faults) (Q := Owes) h hfresh.commands
      (fun c u _ => c.body_safe faults u)
      (P := fun history u => Settled u ∧ ActivationsStay history u) (R := KeepsActivation)
      ⟨hempty, by simp [ActivationsStay]⟩
      (fun e H hcommands hchange hcond hP => ?_) (fun H u u' _ hP hd => ?_) hkeeps).1.2
    · exact ⟨Change.settled hP.1 hchange, Change.activationsStay hcommands hchange hcond hP.1 hP.2⟩
    · exact ⟨fun id row hrow => hP.1 id row ((hd (.command id) trivial).symm.trans hrow),
        hP.2.drift hd⟩
  · obtain ⟨hcommands, hchange, -⟩ := (sound hfresh h).history e he
    exact Change.not_final hcommands hkeeps hchange

/-! ## An expiration that is recorded too late -/

namespace Sample

def fact (kind : BillingFactKind) (id : Text) : BillingFact where
  factId := id
  checkoutCommandId := first
  kind := kind
  providerEventIdDigest := .ofDigit '4' isLowerHex_4
  providerObjectIdDigest := .ofDigit '5' isLowerHex_5
  factVersion := ⟨7, by decide⟩
  observedAt := ⟨0, some 0⟩

def invoicePaid : BillingFact := fact .invoicePaid ⟨"fact-invoice", by decide⟩

def subscriptionActive : BillingFact := fact .subscriptionActive ⟨"fact-subscription", by decide⟩

/-- The facts of the payment arrive. -/
def paid (s : Run) : Run :=
  { s with
    table := (s.table.set invoicePaid.key (some invoicePaid.item)).set subscriptionActive.key
      (some subscriptionActive.item) }

theorem paid_reachable {s : Run} (h : Reachable (service sampleEnv .strongReads) start s) :
    Reachable (service sampleEnv .strongReads) start (paid s) := by
  refine h.tail (.drift s _ fun k hk => ?_)
  have hne : ∀ fact : BillingFact, k ≠ fact.key := by
    rintro fact rfl
    exact hk
  rw [Table.row_set_of_ne _ _ (hne _), Table.row_set_of_ne _ _ (hne _)]

def activation (command : CommandRow) : PaidActivationRequest where
  commandId := command.commandId
  parentId := command.parentId
  expectedCommandVersion := command.commandVersion
  providerCustomerIdDigest := identity.customer
  priceId := command.priceId
  environment := command.environment
  planId := command.planId
  planVersion := command.planVersion
  allowanceVersion := 1
  activationVersion := 7
  paidInvoiceFactId := invoicePaid.factId.val
  activeSubscriptionFactId := subscriptionActive.factId.val
  activatedAt := ⟨now, some ⟨0, some 0⟩⟩
  providerLivemode := false
  providerSubscriptionIdDigest := some identity.subscription

def projected (entityType : String) (r : PaidActivationRequest) : ProjectedItem where
  owner := r.parentId
  row := {
    entityType := entityType
    parentId := r.parentId
    planId := r.planId
    planVersion := r.planVersion
    allowanceVersion := r.allowanceVersion
    activationVersion := r.activationVersion }

def grant (r : PaidActivationRequest) (student : String) : GrantItem where
  owner := r.parentId
  student := student
  row := {
    entityType := "beneficiary_grant"
    schemaVersion := Relationships.GRANT_SCHEMA_VERSION
    parentId := r.parentId
    beneficiaryId := student
    grantStatus := "active"
    commandId := r.commandId
    subscriptionIdDigest := identity.subscription
    grantVersion := r.activationVersion
    planId := r.planId
    planVersion := r.planVersion
    allowanceVersion := r.allowanceVersion
    activationVersion := r.activationVersion
    activatedAt := r.activatedAt.text
    relationshipSource := "canonical_parent_student_link"
    parentProfileVersion := 1
    parentAccountFenceGeneration := 1
    studentProfileVersion := 1
    studentAccountFenceGeneration := 1 }

def items (r : PaidActivationRequest) : ActivationItems where
  billingProjection := projected "billing_projection" r
  grantItems := [grant r "student"]
  allowanceItem := projected "allowance_plan" r
  grantOperations := []

def activateCall (s : Run) : Call :=
  match held s with
  | some command => .activate (activation command) (items (activation command))
  | none => .release ⟨none⟩

theorem activateCall_mayStart (s : Run) (clock : ℕ) : (activateCall s).mayStart clock := by
  unfold activateCall
  split <;> trivial

/-- A session is about to be expired for a plan change when its payment arrives. -/
def activated : Run :=
  let expiring := solo (.claimExpiration ⟨held attached, now⟩) attached
  let bound := paid (solo (bindCall expiring) expiring)
  solo (activateCall bound) bound

theorem activated_reachable : Reachable (service sampleEnv .strongReads) start activated :=
  solo_reachable (paid_reachable (solo_reachable (solo_reachable attached_reachable trivial)
    (bindCall_mayStart _ _))) (activateCall_mayStart _ _)

/-- The provider answers that the session is complete. -/
def undone : Run := solo (.recordExpiration ⟨held activated, "complete", now⟩) activated

theorem undone_reachable : Reachable (service sampleEnv .strongReads) start undone :=
  solo_reachable activated_reachable trivial

end Sample

/-- A session that the provider reports complete takes back the activation that
its payment has led to. -/
theorem late_expiration_undoes_activation :
    Reachable (service Sample.sampleEnv .strongReads) Sample.start Sample.undone ∧
      ¬ ActivationsStay Sample.undone.history Sample.undone.table := by
  refine ⟨Sample.undone_reachable, fun h => ?_⟩
  have hrun : (Sample.undone.history.any (fun e =>
      (e.after.row (.command Sample.first.val)).any fun row => row.IsActivated),
      Sample.stateOf Sample.first.val Sample.undone) =
        (true, some ("parent", .reconciling)) := by decide +kernel
  obtain ⟨hactivated, hstate⟩ := Prod.mk.inj hrun
  obtain ⟨e, he, hrow⟩ := List.any_eq_true.mp hactivated
  obtain ⟨row, hrow, hstored⟩ := (Option.any_eq_true _ _).mp hrow
  obtain ⟨row', hrow', hfinal, -⟩ := h e he _ row hrow (of_decide_eq_true hstored)
  rw [Sample.stateOf, hrow', Option.map_some, Option.some_inj, Prod.mk.injEq] at hstate
  cases hfinal.symm.trans hstate.2

/-- A commit that finds the command of its call not activated keeps activations. -/
theorem KeepsActivation.of_open {c : Call} {t : Table Key Row}
    (h : (c.moves.all fun id => (t.row (.command id)).all fun row =>
      ¬ row.IsActivated) = true) : KeepsActivation c t := by
  intro id row hid hrow hactivated
  simp [hid, hrow] at h
  exact (h hactivated).elim

/-- The checkout whose payment has arrived is activated for good. -/
theorem recorded_activation_final_sample :
    ActivationsStay Sample.activated.history Sample.activated.table := by
  refine (recorded_activation_final Sample.start_fresh Sample.activated_reachable).1 fun e he => ?_
  have hopen : (Sample.activated.history.all fun e => e.call.moves.all fun id =>
      (e.before.row (.command id)).all fun row => ¬ row.IsActivated) = true := by decide +kernel
  exact .of_open (List.all_eq_true.mp hopen e he)

end Stoa.Billing
