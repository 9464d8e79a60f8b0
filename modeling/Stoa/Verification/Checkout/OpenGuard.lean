import Stoa.Store.Solo
import Stoa.Verification.Checkout.Operations

/-! # One open checkout for each parent

A command that is not terminal is named by its parent's guard, as long as no
terminal command is reopened without its guard. -/

namespace Stoa.Billing

open RowStore

variable {env : Env}

def CommandRow.IsOpen (row : CommandRow) : Prop := ¬ row.commandState.IsTerminal

/-- The parent's guard names the command. -/
def IsGuarded (t : Table Key Row) (parent id : String) : Prop :=
  ∃ guard, t.row (.openGuard parent) = some guard ∧ guard.commandId = id

/-- Every open command is named by its parent's guard. -/
def Guarded (t : Table Key Row) : Prop :=
  ∀ id row, t.row (.command id) = some row → row.IsOpen → IsGuarded t row.parentId id

/-- A parent has at most one open command, and the guard names exactly that one. -/
structure OneOpenCheckout (t : Table Key Row) : Prop where
  unique : ∀ id id' row row', t.row (.command id) = some row → t.row (.command id') = some row' →
    row.parentId = row'.parentId → row.IsOpen → row'.IsOpen → id = id'
  guarded : Guarded t

theorem IsGuarded.unique {t : Table Key Row} {parent id id' : String}
    (h : IsGuarded t parent id) (h' : IsGuarded t parent id') : id = id' := by
  obtain ⟨guard, hguard, rfl⟩ := h
  obtain ⟨guard', hguard', rfl⟩ := h'
  cases hguard.symm.trans hguard'
  rfl

theorem Guarded.oneOpenCheckout {t : Table Key Row} (h : Guarded t) : OneOpenCheckout t where
  unique := by
    intro id id' row row' hrow hrow' hparent hopen hopen'
    have hguard := h id row hrow hopen
    rw [hparent] at hguard
    exact hguard.unique (h id' row' hrow' hopen')
  guarded := h

theorem IsGuarded.congr {t t' : Table Key Row} {parent id : String}
    (h : t'.row (.openGuard parent) = t.row (.openGuard parent)) :
    IsGuarded t' parent id ↔ IsGuarded t parent id := by
  rw [IsGuarded, IsGuarded, h]

theorem Guarded.agree {t t' : Table Key Row} (h : Guarded t) (ha : t'.AgreesOn Key.IsOpen t) :
    Guarded t' := by
  intro id row hrow hopen
  rw [IsGuarded.congr (ha (.openGuard _) trivial)]
  exact h id row ((ha (.command id) trivial).symm.trans hrow) hopen

theorem Fresh.guarded {t : Table Key Row} (h : Fresh t) : Guarded t := by
  intro id row hrow
  simp [h (.command id) trivial] at hrow

/-! ## Reopening -/

/-- The command that a call moves to a state that is not terminal. -/
def Call.reopens : Call → Option String
  | .claim r => r.command.map CommandRow.commandId
  | .attach r => some r.claim.commandId
  | .markUnknown r => some r.claim.commandId
  | .recordExpiration r =>
      if r.providerSessionStatus = "expired" then none else r.command.map CommandRow.commandId
  | .bind r => some r.command.commandId
  | _ => none

/-- A terminal command that the call would reopen still has its parent's guard. -/
def KeepsGuard (c : Call) (t : Table Key Row) : Prop :=
  ∀ id row, c.reopens = some id → t.row (.command id) = some row →
    row.commandState.IsTerminal → IsGuarded t row.parentId id

theorem SessionOutcome.ofText_ne_expired {text : String} {outcome : SessionOutcome}
    (h : ofText text = .ok outcome) : text = "expired" ↔ outcome = .expired := by
  unfold ofText at h
  split at h
  · cases h
    simpa
  split at h
  · cases h
    simpa
  split at h
  · cases h
    simpa
  · cases h

theorem Advance.parentId {c : Call} {row row' : CommandRow} (h : Advance env c row row') :
    row'.parentId = row.parentId := by
  cases h <;> rfl

/-- A terminal command stays terminal, or is the one that the call reopens. -/
theorem Advance.reopens {c : Call} {row row' : CommandRow} (h : Advance env c row row')
    (hterminal : row.commandState.IsTerminal) (hopen : row'.IsOpen) :
    c.reopens = some row.commandId := by
  cases h with
  | claimed r command v row held target checked unattached expired => simp [Call.reopens, held, target]
  | attached r v row checked target held version =>
      rw [Call.reopens, target, AttachRequest.checked_claim checked]
  | marked r row target held version => rw [Call.reopens, target]
  | expirationClaimed r v row attached => exact (hopen hterminal).elim
  | expirationRecorded r command v outcome row held target status attached unsuperseded =>
      have hstatus : r.providerSessionStatus ≠ "expired" := by
        rw [Ne, SessionOutcome.ofText_ne_expired status]
        rintro rfl
        exact hopen (.inr rfl)
      rw [Call.reopens, if_neg hstatus, held, target]
      rfl
  | superseded r v row condition => exact (hopen hterminal).elim
  | bound r row version target mayBind unbound heldMayBind => rw [Call.reopens, target]
  | activated r items row condition => exact (hopen (.inl rfl)).elim

/-- The command that a call reopens is open afterwards. -/
theorem Advance.isOpen {c : Call} {row row' : CommandRow} (h : Advance env c row row')
    {id : String} (hid : c.reopens = some id) : row.commandId = id ∧ row'.IsOpen := by
  cases h with
  | claimed r command v row held target checked unattached expired =>
      rw [Call.reopens, held] at hid
      exact ⟨target.trans (Option.some.inj hid), by simp [CommandRow.IsOpen, ProviderClaim.claim,
        CheckoutCommandState.IsTerminal]⟩
  | attached r v row checked target held version =>
      rw [AttachRequest.checked_claim checked] at target
      exact ⟨target.trans (Option.some.inj hid), by simp [CommandRow.IsOpen,
        SessionAttachment.attach, CheckoutCommandState.IsTerminal]⟩
  | marked r row target held version =>
      exact ⟨target.trans (Option.some.inj hid), by simp [CommandRow.IsOpen,
        MarkUnknownRequest.mark, CheckoutCommandState.IsTerminal]⟩
  | expirationRecorded r command v outcome row held target status attached unsuperseded =>
      rw [Call.reopens] at hid
      split at hid
      · cases hid
      · rename_i hstatus
        rw [SessionOutcome.ofText_ne_expired status] at hstatus
        rw [held] at hid
        refine ⟨target.trans (Option.some.inj hid), ?_⟩
        cases outcome <;> simp_all [CommandRow.IsOpen, SessionExpiration.record,
          SessionOutcome.commandState, CheckoutCommandState.IsTerminal]
  | bound r row version target mayBind unbound heldMayBind =>
      exact ⟨target.trans (Option.some.inj hid), by simp [CommandRow.IsOpen, BindRequest.bind,
        CheckoutCommandState.IsTerminal]⟩
  | _ => cases hid

/-! ## One commit -/

/-- A commit that keeps the guard of what it reopens keeps every command guarded. -/
theorem Change.guarded {c : Call} {t t' : Table Key Row} (hcommands : Commands t)
    (hguarded : Guarded t) (hkeeps : KeepsGuard c t) (h : Change env c t t') : Guarded t' := by
  cases h with
  | registered r call v generation absent unguarded result =>
      refine Guarded.agree ?_ result
      intro id row hrow hopen
      rw [Table.row_set_of_ne _ _ (by simp)] at hrow
      by_cases hid : Key.command id = .command v.commandId
      · cases hid
        rw [Table.row_set_self] at hrow
        cases hrow
        exact ⟨_, Table.row_set_self _ _ _, rfl⟩
      · rw [Table.row_set_of_ne _ _ hid] at hrow
        obtain ⟨guard, hguard, hnamed⟩ := hguarded id row hrow hopen
        have hother : row.parentId ≠ v.intent.parentId.val := by
          intro he
          rw [he, unguarded] at hguard
          cases hguard
        refine ⟨guard, ?_, hnamed⟩
        rw [Table.row_set_of_ne _ _ (by simpa using hother), Table.row_set_of_ne _ _ (by simp)]
        exact hguard
  | advanced id row row' stored step result =>
      refine Guarded.agree ?_ result
      intro id' found hfound hopen
      rw [IsGuarded.congr (Table.row_set_of_ne _ _ (by simp))]
      by_cases hid : Key.command id' = .command id
      · cases hid
        rw [Table.row_set_self] at hfound
        cases hfound
        rw [step.parentId]
        by_cases hterminal : row.commandState.IsTerminal
        · have htarget := step.reopens hterminal hopen
          rw [(hcommands id row stored).1] at htarget
          exact hkeeps id row htarget stored hterminal
        · exact hguarded id row stored hterminal
      · rw [Table.row_set_of_ne _ _ hid] at hfound
        exact hguarded id' found hfound hopen
  | transferred r call v generation old guard parent stored condition guarded isOld absent result =>
      refine Guarded.agree ?_ result
      intro id row hrow hopen
      rw [IsGuarded.congr (Table.row_set_of_ne _ _ (by simp))]
      by_cases hnew : Key.command id = .command v.registration.commandId
      · cases hnew
        rw [Table.row_set_self] at hrow
        cases hrow
        refine ⟨v.transfer guard, ?_, rfl⟩
        have hparent : (v.registration.command env generation).parentId = v.parentId := parent
        rw [hparent, Table.row_set_self]
      · rw [Table.row_set_of_ne _ _ hnew, Table.row_set_of_ne _ _ (by simp)] at hrow
        by_cases hold : Key.command id = .command v.oldCommandId
        · cases hold
          rw [Table.row_set_self] at hrow
          cases hrow
          exact (hopen (.inr (of_decide_eq_true condition).2.2.1)).elim
        · rw [Table.row_set_of_ne _ _ hold] at hrow
          obtain ⟨found, hfound, hnamed⟩ := hguarded id row hrow hopen
          have hother : row.parentId ≠ v.parentId := by
            intro he
            rw [he, guarded] at hfound
            cases hfound
            exact hold (by rw [← hnamed, isOld.2.2.2])
          refine ⟨found, ?_, hnamed⟩
          rw [Table.row_set_of_ne _ _ (by simpa using hother), Table.row_set_of_ne _ _ (by simp)]
          exact hfound
  | released r call id parent row guard stored terminal guarded named result =>
      refine Guarded.agree ?_ result
      intro id' found hfound hopen
      rw [Table.row_set_of_ne _ _ (by simp)] at hfound
      obtain ⟨guard', hguard', hnamed⟩ := hguarded id' found hfound hopen
      have hother : found.parentId ≠ parent := by
        intro he
        rw [he, guarded] at hguard'
        cases hguard'
        rw [← hnamed, named, stored] at hfound
        cases hfound
        exact hopen terminal
      refine ⟨guard', ?_, hnamed⟩
      rw [Table.row_set_of_ne _ _ (by simpa using hother)]
      exact hguard'

/-- A commit that reopens a command without its guard leaves it unguarded. -/
theorem Change.not_guarded {c : Call} {t t' : Table Key Row} (hcommands : Commands t)
    (hkeeps : ¬ KeepsGuard c t) (h : Change env c t t') : ¬ Guarded t' := by
  simp only [KeepsGuard, not_forall] at hkeeps
  obtain ⟨id, row, htarget, hrow, hterminal, hnot⟩ := hkeeps
  cases h with
  | registered r call => simp [call, Call.reopens] at htarget
  | transferred r call => simp [call, Call.reopens] at htarget
  | released r call => simp [call, Call.reopens] at htarget
  | advanced id' found row' stored step result =>
      intro hguarded
      obtain ⟨hid, hopen⟩ := step.isOpen htarget
      have hkey : id' = id := (hcommands id' found stored).1.symm.trans hid
      subst hkey
      cases hrow.symm.trans stored
      have hrow' : t'.row (.command id') = some row' :=
        (result (.command id') trivial).trans (Table.row_set_self _ _ _)
      have hguard := hguarded id' row' hrow' hopen
      rw [IsGuarded.congr (result (.openGuard _) trivial),
        IsGuarded.congr (Table.row_set_of_ne _ _ (by simp)), step.parentId] at hguard
      exact hnot hguard

/-! ## Every run -/

/-- While every commit keeps the guard of what it reopens, each parent has at
most one open checkout; the first commit that does not leaves a command open
that its parent's guard does not name. -/
theorem one_open_checkout {faults : Faults} {t : Table Key Row} {s : State Key Row Call Result}
    (hfresh : Fresh t) (h : Reachable (service env faults) t s) :
    ((∀ e ∈ s.history, KeepsGuard e.call e.before) → OneOpenCheckout s.table) ∧
    ∀ e ∈ s.history, ¬ KeepsGuard e.call e.before → ¬ OneOpenCheckout e.after := by
  have hs := sound hfresh h
  refine ⟨fun hkeeps => ?_, fun e he hkeeps hone => ?_⟩
  · have hstart : Sound (contract env faults) (fun _ => Owes) (.initial t) :=
      .initial hfresh.commands
    refine (hstart.invariant h (fun _ c u _ _ _ => c.body_safe faults u) hfresh.guarded
      (fun c u u' hcommands hguarded hkeeps hchange => ?_) (fun u u' _ hguarded hd => ?_)
      hkeeps).oneOpenCheckout
    · exact Change.guarded hcommands hguarded hkeeps hchange
    · exact hguarded.agree fun k hk => hd k hk.isCheckout
  · obtain ⟨hcommands, hchange, -⟩ := hs.history e he
    exact Change.not_guarded hcommands hkeeps hchange hone.guarded

/-! ## A late webhook -/

namespace Sample

/-- Digests that tell the commands of two idempotency keys apart. -/
def sampleEnv : Env where
  domainDigest := fun domain values =>
    if domain = "stoa.checkout.command.v1" then
      if values.getLast? = some "key-0001" then .ofDigit 'a' isLowerHex_a else .ofDigit 'b' isLowerHex_b
    else .ofDigit 'c' isLowerHex_c
  intentDigest := fun _ => .ofDigit 'd' isLowerHex_d
  textDigest := fun _ => .ofDigit 'e' isLowerHex_e

def first : Text := ⟨"checkout-" ++ (Sha256.ofDigit 'a' isLowerHex_a).val, by decide⟩

def second : Text := ⟨"checkout-" ++ (Sha256.ofDigit 'b' isLowerHex_b).val, by decide⟩

def parent : Text := ⟨"parent", by decide⟩

def now : String := "2026-03-01T00:00:00+00:00"

theorem student_isRequiredText : IsRequiredText 200 "student" := by decide

theorem one_isPositive : IsPositive 1 := by decide

def registerCall (command key : Text) (reference : Char) : Call := .register {
  intent := {
    commandId := command
    parentId := parent
    idempotencyKey := key
    planId := .student
    beneficiaryIds := [⟨"student", student_isRequiredText⟩]
    priceCatalogVersion := ⟨1, one_isPositive⟩
    planVersion := ⟨1, one_isPositive⟩
    createdAt := now
    one_to_three := by decide
    unique := by decide
    single := fun _ => rfl }
  priceId := "price"
  environment := "sandbox"
  nowIso := none
  reference := "co_" ++ String.ofList (List.replicate 43 reference) }

/-- A parent whose account is active, and no checkout. -/
def start : Table Key Row :=
  Table.empty.set (.account (.accountFence parent.val)) (some ⟨"active", some 1⟩)

theorem start_fresh : Fresh start := by
  intro k hk
  rw [start, Table.row_set_of_ne _ _ (by rintro rfl; exact hk), Table.row_empty]

abbrev Run := State Key Row Call Result

def solo (c : Call) (s : Run) : Run := s.solo (service sampleEnv .strongReads) c []

theorem solo_reachable {c : Call} {s : Run} (h : Reachable (service sampleEnv .strongReads) start s)
    (hc : c.mayStart s.clock) : Reachable (service sampleEnv .strongReads) start (solo c s) :=
  h.trans (State.solo_steps trivial trivial hc [])

/-- The first command as it is stored, which is what its callers hold. -/
def held (s : Run) : Option CommandRow := s.table.row (.command first.val)

def claimCall (s : Run) : Call := .claim ⟨held s, "worker", 0, 30, now⟩

def attachCall : Call := .attach {
  claim := ⟨first.val, parent.val, 2, "worker", 1, 30, .ofDigit 'c' isLowerHex_c⟩
  providerSessionId := "cs_test_1"
  providerSessionUrl := "https://checkout.stripe.com/1"
  nowIso := now }

def identity : ProviderIdentity := ⟨.ofDigit '1' isLowerHex_1, .ofDigit '2' isLowerHex_2, .ofDigit '3' isLowerHex_3⟩

/-- A webhook binds the command that it has loaded. -/
def bindCall (s : Run) : Call :=
  match held s with
  | some command => .bind ⟨command, identity, now⟩
  | none => .release ⟨none⟩

def registered : Run := solo (registerCall first ⟨"key-0001", by decide⟩ 'r') (.initial start)

def attached : Run := solo attachCall (solo (claimCall registered) registered)

theorem attached_reachable : Reachable (service sampleEnv .strongReads) start attached :=
  solo_reachable (solo_reachable (solo_reachable .refl trivial) (Int.natCast_nonneg _)) trivial

/-- The session has expired and the guard is released. -/
def released : Run :=
  let expired := solo (.recordExpiration ⟨held attached, "expired", now⟩) attached
  solo (.release ⟨held expired⟩) expired

/-- Another checkout is open when the webhook of the first one arrives. -/
def reopened : Run :=
  let reordered := solo (registerCall second ⟨"key-0002", by decide⟩ 's') released
  solo (bindCall reordered) reordered

theorem bindCall_mayStart (s : Run) (clock : ℕ) : (bindCall s).mayStart clock := by
  unfold bindCall
  split <;> trivial

theorem reopened_reachable : Reachable (service sampleEnv .strongReads) start reopened :=
  solo_reachable (solo_reachable (solo_reachable (solo_reachable attached_reachable trivial)
    trivial) trivial) (bindCall_mayStart _ _)

def stateOf (id : String) (s : Run) : Option (String × CheckoutCommandState) :=
  (s.table.row (.command id)).map fun row => (row.parentId, row.commandState)

end Sample

/-- A webhook that arrives after the guard of its command was released reopens
the command beside the parent's next checkout. -/
theorem late_webhook_opens_two :
    Reachable (service Sample.sampleEnv .strongReads) Sample.start Sample.reopened ∧
      ¬ OneOpenCheckout Sample.reopened.table := by
  refine ⟨Sample.reopened_reachable, fun h => ?_⟩
  have hrows : (Sample.stateOf Sample.first.val Sample.reopened,
      Sample.stateOf Sample.second.val Sample.reopened) =
        (some ("parent", .reconciling), some ("parent", .intentRecorded)) := by decide +kernel
  obtain ⟨hfirst, hsecond⟩ := Prod.mk.inj hrows
  obtain ⟨row, hrow, hvalues⟩ := Option.map_eq_some_iff.mp hfirst
  obtain ⟨row', hrow', hvalues'⟩ := Option.map_eq_some_iff.mp hsecond
  obtain ⟨hparent, hstate⟩ := Prod.mk.inj hvalues
  obtain ⟨hparent', hstate'⟩ := Prod.mk.inj hvalues'
  have hsame := h.unique _ _ row row' hrow hrow' (hparent.trans hparent'.symm)
    (by simp [CommandRow.IsOpen, hstate, CheckoutCommandState.IsTerminal])
    (by simp [CommandRow.IsOpen, hstate', CheckoutCommandState.IsTerminal])
  exact absurd hsame (by decide)

/-- A commit that finds the command of its call open keeps its guard. -/
theorem KeepsGuard.of_open {c : Call} {t : Table Key Row}
    (h : (c.reopens.all fun id => (t.row (.command id)).all fun row =>
      ¬ row.commandState.IsTerminal) = true) : KeepsGuard c t := by
  intro id row hid hrow hterminal
  simp [hid, hrow] at h
  exact (h hterminal).elim

/-- The checkout that is registered, claimed and attached is the open one. -/
theorem one_open_checkout_sample : OneOpenCheckout Sample.attached.table := by
  refine (one_open_checkout Sample.start_fresh Sample.attached_reachable).1 fun e he => ?_
  have hopen : (Sample.attached.history.all fun e => e.call.reopens.all fun id =>
      (e.before.row (.command id)).all fun row => ¬ row.commandState.IsTerminal) = true := by
    decide +kernel
  exact .of_open (List.all_eq_true.mp hopen e he)

end Stoa.Billing
