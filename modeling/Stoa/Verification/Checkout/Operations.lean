import Stoa.Store.Runs
import Stoa.Verification.BillingFacts.Activations
import Stoa.Verification.Checkout.Changes

/-! # The operations under interference

Every call commits only changes of its own kind, and a claim that is handed out
is the lease that is stored. -/

namespace Stoa.Billing

open RowStore

variable {env : Env}

def contract (env : Env) (faults : Faults) : Contract (service env faults) where
  Inv := Commands
  Rely := Keeps
  refl := Keeps.refl
  trans := Keeps.trans
  Move := Change env
  move_inv := fun hc h => h.commands hc
  move_rely := fun hc h => h.keeps hc
  drift_inv := fun hc hd id row hrow => hc id row ((hd (.command id) trivial).symm.trans hrow)
  drift_rely := fun _ hd => .of_agree fun k hk => hd k hk.isCheckout

/-! ## Checks -/

theorem requireText_eq_ok {value field text : String} {minimum maximum : ℕ}
    (h : requireText value field minimum maximum = .ok text) : text = value := by
  unfold requireText at h
  split at h <;> cases h
  rfl

theorem positiveInteger_eq_ok {value n : ℤ} {field : String}
    (h : positiveInteger value field = .ok n) : n = value ∧ 1 ≤ value := by
  unfold positiveInteger at h
  split at h <;> cases h
  exact ⟨rfl, ‹_›⟩

theorem nonnegativeInteger_eq_ok {value n : ℤ} {field : String}
    (h : nonnegativeInteger value field = .ok n) : n = value := by
  unfold nonnegativeInteger at h
  split at h <;> cases h
  rfl

/-- What is checked of a claim is what was asked for. -/
theorem ClaimRequest.checked_eq_ok {r : ClaimRequest} {command : CommandRow} {v : ProviderClaim}
    (h : r.checked command = .ok v) :
    v.commandId = command.commandId ∧ v.owner = r.leaseOwner ∧ v.now = r.nowEpoch ∧
      v.expiry = r.leaseExpiresAt := by
  unfold ClaimRequest.checked at h
  obtain ⟨owner, howner, h⟩ := bind_eq_ok.mp h
  obtain ⟨now, hnow, h⟩ := bind_eq_ok.mp h
  obtain ⟨expiry, hexpiry, h⟩ := bind_eq_ok.mp h
  split at h
  · obtain ⟨timestamp, _, h⟩ := bind_eq_ok.mp h
    obtain ⟨commandId, hcommand, h⟩ := bind_eq_ok.mp h
    cases h
    exact ⟨requireText_eq_ok hcommand, requireText_eq_ok howner, nonnegativeInteger_eq_ok hnow,
      (positiveInteger_eq_ok hexpiry).1⟩
  · cases h

theorem AttachRequest.checked_claim {r : AttachRequest} {v : SessionAttachment}
    (h : r.checked = .ok v) : v.claim = r.claim := by
  unfold AttachRequest.checked at h
  obtain ⟨_, _, h⟩ := bind_eq_ok.mp h
  obtain ⟨_, _, h⟩ := bind_eq_ok.mp h
  split at h
  · cases h
  · obtain ⟨_, _, h⟩ := bind_eq_ok.mp h
    cases h
    rfl

theorem CommandRow.integrity_commandId {item : CommandRow} {id : String} {parent : Option String}
    {fingerprint : Option Sha256} (h : item.integrity env id parent fingerprint = none) :
    item.commandId = id := by
  unfold CommandRow.integrity at h
  split at h
  · cases h
  · rename_i hshape
    simp only [not_or, not_not, ne_eq] at hshape
    exact hshape.2.2

/-- A claim names the command and the lease that it was read from. -/
theorem CommandRow.providerClaim_eq_ok {item : CommandRow} {claim : ProviderCreateClaim}
    (h : item.providerClaim = .ok claim) :
    claim.commandId = item.commandId ∧ claim.leaseGeneration = item.leaseGeneration ∧
      item.leaseExpiresAt = some claim.leaseExpiresAt ∧
      claim.providerKeyDigest = item.providerKeyDigest := by
  unfold CommandRow.providerClaim at h
  obtain ⟨commandId, hcommand, h⟩ := bind_eq_ok.mp h
  obtain ⟨_, _, h⟩ := bind_eq_ok.mp h
  obtain ⟨_, _, h⟩ := bind_eq_ok.mp h
  obtain ⟨_, _, h⟩ := bind_eq_ok.mp h
  obtain ⟨generation, hgeneration, h⟩ := bind_eq_ok.mp h
  obtain ⟨expiry, hexpiry, h⟩ := bind_eq_ok.mp h
  cases h
  obtain ⟨hvalue, hpositive⟩ := positiveInteger_eq_ok hexpiry
  refine ⟨requireText_eq_ok hcommand, (positiveInteger_eq_ok hgeneration).1, ?_, rfl⟩
  cases hlease : item.leaseExpiresAt with
  | none => simp [hlease] at hpositive
  | some lease => simp [hvalue, hlease]

/-! ## Transactions -/

theorem fencedUpdate_apply {t : Table Key Row} {parent id : String} {generation : ℤ}
    {change : CommandRow → CommandRow} {condition : CommandRow → Bool}
    (h : t.Admits (fencedUpdate parent generation id change condition)) :
    ∃ row, t.row (.command id) = some row ∧ condition row = true ∧
      t.apply (fencedUpdate parent generation id change condition) =
        t.set (.command id) (some (change row)) := by
  have hcondition := h.2 (.modify (.command id) change condition) (by simp [fencedUpdate])
  obtain ⟨row, hrow, hmet⟩ := (Option.any_eq_true _ _).mp hcondition
  refine ⟨row, hrow, hmet, ?_⟩
  have hmap : (t.row (.command id)).map change = some (change row) := by
    rw [show t.row (.command id) = some row from hrow]
    rfl
  simp only [fencedUpdate, activeFence, Write.check, Write.modify, Table.apply, id_eq,
    Table.set_row_self, hmap]

/-- A fenced update that commits advances the command that was read. -/
theorem Change.of_fencedUpdate {c : Call} {t u : Table Key Row} {current : CommandRow}
    {parent id : String} {generation : ℤ} {change : CommandRow → CommandRow}
    {condition : CommandRow → Bool} (hcurrent : t.row (.command id) = some current)
    (htu : Keeps t u)
    (hversion : ∀ row, condition row = true → row.commandVersion = current.commandVersion)
    (hadmits : u.Admits (fencedUpdate parent generation id change condition))
    (hstep : condition current = true → Advance env c current (change current)) :
    Change env c u (u.apply (fencedUpdate parent generation id change condition)) ∧
      (u.apply (fencedUpdate parent generation id change condition)).row (.command id) =
        some (change current) := by
  obtain ⟨row, hrow, hmet, happly⟩ := fencedUpdate_apply hadmits
  have heq : row = current := htu.eq_of_version hcurrent hrow (hversion row hmet)
  rw [heq] at hrow hmet happly
  rw [happly]
  exact ⟨.advanced id current _ hrow (hstep hmet) (.refl _ _), Table.row_set_self _ _ _⟩

/-! ## Results -/

/-- The lease of a claim, as it is stored. -/
def Leases (r : ClaimRequest) (claim : ProviderCreateClaim) (t : Table Key Row) : Prop :=
  ∃ row, t.row (.command claim.commandId) = some row ∧ row.leaseOwner = some r.leaseOwner ∧
    row.leaseGeneration = claim.leaseGeneration ∧
    row.leaseExpiresAt = some claim.leaseExpiresAt ∧
    row.providerKeyDigest = claim.providerKeyDigest

/-- The claim is of a later generation than the lease of its command. -/
def ProviderCreateClaim.Follows (claim : ProviderCreateClaim) (t : Table Key Row) : Prop :=
  ∀ row, t.row (.command claim.commandId) = some row → row.leaseGeneration < claim.leaseGeneration

/-- What a call owes when it returns: a claim that it hands out is stored, and
follows the lease that was stored when the call was started. -/
def OwesFrom (start : Table Key Row) : Call → Post Key Row Result
  | .claim r, result, _, t => ∀ command claim,
      result = .command ⟨.claimed, command, some claim⟩ → Leases r claim t ∧ claim.Follows start
  | _, _, _, _ => True

/-- What a call owes wherever it was started. -/
def Owes : Call → Post Key Row Result
  | .claim r, result, _, t => ∀ command claim,
      result = .command ⟨.claimed, command, some claim⟩ → Leases r claim t
  | _, _, _, _ => True

theorem OwesFrom.owes {start t : Table Key Row} {c : Call} {result : Result}
    {own : List (Table Key Row × Table Key Row)} (h : OwesFrom start c result own t) :
    Owes c result own t := by
  cases c with
  | claim r => exact fun command claim hresult => (h command claim hresult).1
  | _ => trivial

/-- A call that owes nothing but its commits. -/
abbrev Quiet (α : Type) : Post Key Row α := fun _ _ _ => True

variable {faults : Faults} {t : Table Key Row}

/-- How a call is proved: its own outcome decides what the service returns. -/
theorem RepoCall.body_safe {α : Type} {call : RepoCall α} {returned : α → Result} {c : Call}
    {Q : Post Key Row (Except Failure α)}
    (h : call.Safe faults (contract env faults).toInterference (Change env c) Q [] t)
    (hQ : ∀ a own u, Q a own u → OwesFrom t c (.of returned a) own u) :
    (RepoCall.body call returned).Safe faults (contract env faults).toInterference
      (Change env c) (OwesFrom t c) [] t :=
  (Program.safe_bind _ _ _ _).mpr (h.mono (fun _ _ _ hg => hg) hQ)

/-! ## Registering -/

theorem Registration.unregistered_readOnly (v : Registration) (guard : Option OpenGuardRow) :
    (v.unregistered guard).ReadOnly := by
  cases guard with
  | none => trivial
  | some guard =>
      unfold unregistered
      dsimp only
      split <;> trivial

theorem Registration.classify_readOnly (v : Registration) (reference : Option String) :
    (v.classify env reference).ReadOnly := by
  rintro (_ | _ | command)
  · trivial
  · rintro (_ | guard)
    · trivial
    · cases reference with
      | none => exact v.unregistered_readOnly guard
      | some reference =>
          rintro (_ | lookup)
          · trivial
          · exact v.unregistered_readOnly guard
  · dsimp only
    split
    · trivial
    · rintro (_ | guard)
      · trivial
      · rintro (_ | lookup)
        · trivial
        · dsimp only
          split <;> trivial

theorem Registration.run_safe (v : Registration) (r : RegisterRequest) :
    (v.run env).Safe faults (contract env faults).toInterference (Change env (.register r))
      (Quiet _) [] t := by
  refine Program.safe_read fun t₁ hr₁ _ => ⟨?_, fun _ => trivial⟩
  cases t₁.row (.command v.commandId) with
  | some command => exact (v.classify_readOnly none).safe
  | none =>
    dsimp only
    split
    · trivial
    refine Program.safe_read fun t₂ _ _ => ⟨?_, fun _ => trivial⟩
    dsimp only
    split
    · trivial
    rename_i generation _
    refine Program.safe_transact (fun _ _ _ => (v.classify_readOnly _).safe)
      fun t₃ _ _ hadmits => ⟨?_, trivial, (v.classify_readOnly _).safe⟩
    have habsent := hadmits.2 (.putNew (.command v.commandId) (v.command env generation))
      (by simp [operations])
    have hguard := hadmits.2 (.putNew (.openGuard v.intent.parentId.val) (v.openGuard generation))
      (by simp [operations])
    refine .registered r rfl v generation (Option.isNone_iff_eq_none.mp habsent)
      (Option.isNone_iff_eq_none.mp hguard) fun k hk => ?_
    have hne : k ≠ .publicLookup v.reference := by
      rintro rfl
      exact hk
    simp only [operations, Table.apply, activeFence, Write.check, Write.putNew, Write.put, id_eq,
      Table.set_row_self]
    rw [Table.row_set_of_ne _ _ hne]

/-! ## Claiming -/

def ClaimRequest.Hands (r : ClaimRequest) (start : Table Key Row) :
    Post Key Row (Except Failure CheckoutCommandResult) :=
  fun outcome _ t => ∀ command claim,
    outcome = .ok ⟨.claimed, command, some claim⟩ → Leases r claim t ∧ claim.Follows start

variable {start : Table Key Row}

theorem ClaimRequest.hands_returns (r : ClaimRequest) {disposition : CheckoutCommandDisposition}
    {command : Option CommandRow} {own : List (Table Key Row × Table Key Row)} :
    r.Hands start (.ok ⟨disposition, command, none⟩) own t := by
  intro _ _ h
  cases h

/-- A claim is handed out from the row that is stored. -/
theorem ProviderClaim.granted_safe {r : ClaimRequest} {row : CommandRow} {id : String}
    {own : List (Table Key Row × Table Key Row)} (hrow : t.row (.command id) = some row)
    (hid : row.commandId = id) (howner : row.leaseOwner = some r.leaseOwner)
    (hfollows : ∀ before, start.row (.command id) = some before →
      before.leaseGeneration < row.leaseGeneration) :
    (granted row).Safe faults (contract env faults).toInterference (Change env (.claim r))
      (r.Hands start) own t := by
  unfold granted
  split
  · intro _ _ h
    cases h
  · rename_i claim hclaim
    intro _ _ h
    cases h
    obtain ⟨hcommand, hgeneration, hexpiry, hkey⟩ := CommandRow.providerClaim_eq_ok hclaim
    have hkeyed : claim.commandId = id := hcommand.trans hid
    refine ⟨⟨row, ?_, howner, hgeneration.symm, hexpiry, hkey.symm⟩, fun before hbefore => ?_⟩
    · rw [hkeyed]
      exact hrow
    · rw [hgeneration]
      exact hfollows before (hkeyed ▸ hbefore)

theorem ProviderClaim.refresh_safe {r : ClaimRequest} (v : ProviderClaim)
    (howner : v.owner = r.leaseOwner) {current : CommandRow}
    (hfollows : ∀ before, start.row (.command v.commandId) = some before →
      before.leaseGeneration < current.leaseGeneration + 1)
    (own : List (Table Key Row × Table Key Row)) (t : Table Key Row) :
    (v.refresh current).Safe faults (contract env faults).toInterference (Change env (.claim r))
      (r.Hands start) own t := by
  refine Program.safe_read fun u _ hcommands => ⟨?_, fun _ => r.hands_returns⟩
  cases hrow : u.row (.command v.commandId) with
  | none => exact r.hands_returns
  | some refreshed =>
    dsimp only
    split
    · rename_i hholds
      refine granted_safe hrow (hcommands _ _ hrow).1 ?_ fun before hbefore => ?_
      · rw [hholds.1, howner]
      · rw [hholds.2.1]
        exact hfollows before hbefore
    · split <;> exact r.hands_returns

theorem ProviderClaim.run_safe (v : ProviderClaim) {r : ClaimRequest} {command : CommandRow}
    (hheld : r.command = some command) (hchecked : r.checked command = .ok v) :
    (v.run env).Safe faults (contract env faults).toInterference (Change env (.claim r))
      (r.Hands t) [] t := by
  obtain ⟨htarget, howner, -⟩ := ClaimRequest.checked_eq_ok hchecked
  refine Program.safe_read fun t₁ hr₁ _ => ⟨?_, fun _ => r.hands_returns⟩
  cases hcurrent : t₁.row (.command v.commandId) with
  | none => exact r.hands_returns
  | some current =>
    dsimp only
    split
    · exact r.hands_returns
    rename_i hintegrity
    split
    · exact r.hands_returns
    rename_i hunattached
    split
    · exact r.hands_returns
    split
    · intro _ _ h
      cases h
    rename_i generation _
    have hfollows : ∀ before, t.row (.command v.commandId) = some before →
        before.leaseGeneration < current.leaseGeneration + 1 := by
      intro before hbefore
      obtain ⟨found, hfound, hlater⟩ := hr₁ _ before hbefore
      cases hcurrent.symm.trans hfound
      have := hlater.generation
      omega
    refine Program.safe_transact (fun u _ _ => v.refresh_safe howner hfollows [] u)
      fun t₂ hr₂ _ hadmits => ?_
    let claimed := t₂.apply (v.operations current generation)
    obtain ⟨hchange, hrow⟩ : Change env (.claim r) t₂ claimed ∧
        claimed.row (.command v.commandId) = some (v.claim current current) :=
      Change.of_fencedUpdate hcurrent hr₂ (fun row h => (of_decide_eq_true h).1.2.2.2.2)
        hadmits fun h => .claimed r command v current hheld
        ((CommandRow.integrity_commandId hintegrity).trans htarget) hchecked hunattached
        (by simpa using (of_decide_eq_true h).2.2)
    have hid : current.commandId = v.commandId := CommandRow.integrity_commandId hintegrity
    exact ⟨hchange, granted_safe hrow hid (by rw [claim, howner]) hfollows,
      v.refresh_safe howner hfollows _ _⟩

/-! ## Attaching and marking -/

theorem SessionAttachment.refresh_readOnly (v : SessionAttachment) : (v.refresh env).ReadOnly := by
  rintro (_ | _ | refreshed)
  · trivial
  · trivial
  · dsimp only
    split <;> trivial

/-- An update under a claim finds the command under the lease of the claim. -/
theorem Change.of_underClaim {c : Call} {claim : ProviderCreateClaim} {generation : ℤ}
    {change : CommandRow → CommandRow} (hadmits : t.Admits (underClaim claim generation change))
    (hstep : ∀ row, row.commandId = claim.commandId → row.HeldBy claim →
      row.commandVersion = claim.commandVersion → Advance env c row (change row)) :
    Change env c t (t.apply (underClaim claim generation change)) := by
  obtain ⟨row, hrow, hmet, happly⟩ := fencedUpdate_apply hadmits
  obtain ⟨⟨_, _, hid, _, hversion⟩, hheld⟩ := of_decide_eq_true hmet
  rw [underClaim, happly]
  exact .advanced _ row _ hrow (hstep row hid hheld hversion) (.refl _ _)

theorem SessionAttachment.run_safe (v : SessionAttachment) {r : AttachRequest}
    (hchecked : r.checked = .ok v) :
    (v.run env).Safe faults (contract env faults).toInterference (Change env (.attach r))
      (Quiet _) [] t := by
  refine Program.safe_read fun t₁ _ _ => ⟨?_, fun _ => trivial⟩
  cases t₁.row (.command v.claim.commandId) with
  | none => trivial
  | some current =>
    dsimp only
    split
    · trivial
    split
    · trivial
    split
    · trivial
    exact Program.safe_transact (fun _ _ _ => v.refresh_readOnly.safe) fun t₂ _ _ hadmits =>
      ⟨.of_underClaim hadmits fun row hid hheld hversion =>
          .attached r v row hchecked hid hheld hversion,
        trivial, v.refresh_readOnly.safe⟩

theorem MarkUnknownRequest.refresh_readOnly (r : MarkUnknownRequest) : r.refresh.ReadOnly := by
  rintro (_ | _ | refreshed)
  · trivial
  · trivial
  · dsimp only
    split <;> trivial

theorem MarkUnknownRequest.run_safe (r : MarkUnknownRequest) :
    r.run.Safe faults (contract env faults).toInterference (Change env (.markUnknown r))
      (Quiet _) [] t := by
  refine Program.safe_read fun t₁ _ _ => ⟨?_, fun _ => trivial⟩
  cases t₁.row (.command r.claim.commandId) with
  | none => trivial
  | some current =>
    dsimp only
    split
    · trivial
    split
    · trivial
    split
    · trivial
    split
    · trivial
    exact Program.safe_transact (fun _ _ _ => r.refresh_readOnly.safe) fun t₂ _ _ hadmits =>
      ⟨.of_underClaim hadmits fun row hid hheld hversion => .marked r row hid hheld hversion,
        trivial, r.refresh_readOnly.safe⟩

/-! ## Releasing -/

theorem GuardRelease.run_safe (v : GuardRelease) (r : ReleaseRequest) :
    (v.run env).Safe faults (contract env faults).toInterference (Change env (.release r))
      (Quiet _) [] t := by
  have hrefresh : ∀ parent current, (refresh parent current).ReadOnly := by
    rintro parent current (_ | _ | guard) <;> trivial
  refine Program.safe_read fun t₁ _ _ => ⟨?_, fun _ => trivial⟩
  cases t₁.row (.command v.commandId) with
  | none => trivial
  | some current =>
    dsimp only
    split
    · trivial
    split
    · trivial
    split
    · trivial
    split
    · trivial
    rename_i parent _
    refine Program.safe_transact (fun _ _ _ => (hrefresh _ _).safe) fun t₂ _ _ hadmits =>
      ⟨?_, trivial, (hrefresh _ _).safe⟩
    have hcheck := hadmits.2 (.check (.command v.commandId)
      (Option.any (v.isTerminal parent current.commandVersion))) (by simp [operations])
    have hdelete := hadmits.2 (.delete (.openGuard parent) (Option.any (v.isGuard parent)))
      (by simp [operations])
    obtain ⟨row, hrow, hmet⟩ := (Option.any_eq_true _ _).mp hcheck
    obtain ⟨guard, hguard, hnamed⟩ := (Option.any_eq_true _ _).mp hdelete
    refine .released r rfl v.commandId parent row guard hrow (of_decide_eq_true hmet).2 hguard
      (of_decide_eq_true hnamed).2.2.2 fun k _ => ?_
    simp only [operations, Table.apply, Write.check, Write.delete, id_eq, Table.set_row_self]

/-! ## Expiring -/

theorem SessionExpiration.refreshClaim_readOnly (v : SessionExpiration) :
    v.refreshClaim.ReadOnly := by
  rintro (_ | _ | refreshed) <;> trivial

theorem SessionExpiration.refreshRecord_readOnly (v : SessionExpiration) :
    v.refreshRecord.ReadOnly := by
  rintro (_ | _ | refreshed) <;> trivial

theorem SessionExpiration.claimRun_safe (v : SessionExpiration) (r : ClaimExpirationRequest) :
    (v.claimRun env).Safe faults (contract env faults).toInterference
      (Change env (.claimExpiration r)) (Quiet _) [] t := by
  refine Program.safe_read fun t₁ _ _ => ⟨?_, fun _ => trivial⟩
  cases hcurrent : t₁.row (.command v.commandId) with
  | none => trivial
  | some current =>
    dsimp only
    split
    · trivial
    rename_i hintegrity
    split
    · trivial
    split
    · trivial
    split
    · trivial
    · trivial
    refine Program.safe_transact (fun _ _ _ => v.refreshClaim_readOnly.safe)
      fun t₂ hr₂ _ hadmits => ⟨?_, trivial, v.refreshClaim_readOnly.safe⟩
    exact (Change.of_fencedUpdate hcurrent hr₂ (fun row h => (of_decide_eq_true h).1.2.2.2.2) hadmits fun h =>
        .expirationClaimed r v current (of_decide_eq_true h).2.1).1

theorem SessionExpiration.recordRun_safe (v : SessionExpiration) {r : RecordExpirationRequest}
    {command : CommandRow} {outcome : SessionOutcome} (hheld : r.command = some command)
    (htarget : v.commandId = command.commandId)
    (hstatus : SessionOutcome.ofText r.providerSessionStatus = .ok outcome) :
    (v.recordRun env outcome).Safe faults (contract env faults).toInterference
      (Change env (.recordExpiration r)) (Quiet _) [] t := by
  refine Program.safe_read fun t₁ _ _ => ⟨?_, fun _ => trivial⟩
  cases hcurrent : t₁.row (.command v.commandId) with
  | none => trivial
  | some current =>
    dsimp only
    split
    · trivial
    rename_i hintegrity
    split
    · trivial
    split
    · trivial
    split
    · trivial
    · trivial
    refine Program.safe_transact (fun _ _ _ => v.refreshRecord_readOnly.safe)
      fun t₂ hr₂ _ hadmits => ⟨?_, trivial, v.refreshRecord_readOnly.safe⟩
    exact (Change.of_fencedUpdate hcurrent hr₂ (fun row h => (of_decide_eq_true h).1.2.2.2.2) hadmits fun h =>
        .expirationRecorded r command v outcome current hheld
          ((CommandRow.integrity_commandId hintegrity).trans htarget) hstatus
          (of_decide_eq_true h).2.1 (of_decide_eq_true h).2.2.2).1

/-! ## Superseding -/

theorem Supersession.classify_readOnly (v : Supersession) : (v.classify env).ReadOnly := by
  rintro (_ | old)
  · trivial
  rintro (_ | new)
  · trivial
  rintro (_ | guard)
  · trivial
  dsimp only
  split
  · trivial
  · split <;> trivial

/-- A transaction that commits hands the guard over. -/
theorem Supersession.transferred {v : Supersession} {r : SupersedeRequest}
    {generation version guardVersion : ℤ}
    (hparent : v.registration.intent.parentId.val = v.parentId)
    (hadmits : t.Admits (v.operations env generation version guardVersion)) :
    Change env (.supersede r) t (t.apply (v.operations env generation version guardVersion)) := by
  have hcommand := hadmits.2 (.modify (.command v.oldCommandId) (v.supersede version)
    (v.oldCondition version)) (by simp [operations])
  have hguard := hadmits.2 (.modify (.openGuard v.parentId) v.transfer
    (v.guardCondition guardVersion)) (by simp [operations])
  have hnew := hadmits.2 (.putNew (.command v.registration.commandId)
    (v.registration.command env generation)) (by simp [operations])
  obtain ⟨old, hold, hmet⟩ := (Option.any_eq_true _ _).mp hcommand
  obtain ⟨guard, hstored, hnamed⟩ := (Option.any_eq_true _ _).mp hguard
  have hversion : old.commandVersion = version := (of_decide_eq_true hmet).1.2.2.2.2
  have hold' : t.row (.command v.oldCommandId) = some old := hold
  refine .transferred r rfl v generation old guard hparent hold (hversion ▸ hmet) hstored
    (of_decide_eq_true hnamed).1 (Option.isNone_iff_eq_none.mp hnew) fun k hk => ?_
  have hne : k ≠ .publicLookup v.registration.reference := by
    rintro rfl
    exact hk
  have hkept : (t.set (.command v.oldCommandId) (some (v.supersede version old))).row
      (.openGuard v.parentId) = some guard := by
    rw [Table.row_set_of_ne _ _ (by simp)]
    exact hstored
  simp only [operations, Table.apply, activeFence, Write.check, Write.modify, Write.putNew,
    Write.put, id_eq, Table.set_row_self, hold', Option.map_some, hkept, hversion]
  rw [Table.row_set_of_ne _ _ hne]

theorem Supersession.run_safe (v : Supersession) (r : SupersedeRequest)
    (hparent : v.registration.intent.parentId.val = v.parentId) :
    (v.run env).Safe faults (contract env faults).toInterference (Change env (.supersede r))
      (Quiet _) [] t := by
  refine Program.safe_read fun t₁ _ _ => ⟨?_, fun _ => trivial⟩
  refine Program.safe_read fun t₂ _ _ => ⟨?_, fun _ => trivial⟩
  cases t₁.row (.command v.oldCommandId) with
  | none => trivial
  | some current =>
    dsimp only
    split
    · trivial
    split
    · exact v.classify_readOnly.safe
    split
    · trivial
    split
    · trivial
    · trivial
    split
    · trivial
    exact Program.safe_transact (fun _ _ _ => v.classify_readOnly.safe)
      fun t₃ _ _ hadmits => ⟨transferred hparent hadmits, trivial, v.classify_readOnly.safe⟩

theorem SupersedeRequest.registration_intent {r : SupersedeRequest} {v : Registration}
    (h : r.registration env = .ok v) : v.intent = r.newIntent := by
  unfold SupersedeRequest.registration at h
  obtain ⟨_, _, h⟩ := bind_eq_ok.mp h
  obtain ⟨_, _, h⟩ := bind_eq_ok.mp h
  split at h
  · cases h
  · obtain ⟨_, _, h⟩ := bind_eq_ok.mp h
    cases h
    rfl

/-! ## Binding -/

theorem BindRequest.run_safe (r : BindRequest) :
    r.run.Safe faults (contract env faults).toInterference (Change env (.bind r))
      (Quiet _) [] t := by
  have hrefresh : r.refresh.ReadOnly := by rintro (_ | refreshed) <;> trivial
  unfold run
  split
  · trivial
  rename_i hunbound
  split
  · trivial
  rename_i hheld
  refine Program.safe_transact (fun _ _ _ => hrefresh.safe) fun u _ _ hadmits =>
    ⟨?_, trivial, hrefresh.safe⟩
  have hcommand := hadmits.2 (.modify (.command r.command.commandId) r.bind r.condition)
    (by simp [operations])
  obtain ⟨row, hrow, hmet⟩ := (Option.any_eq_true _ _).mp hcommand
  obtain ⟨⟨_, _, hid, _, hversion⟩, hmayBind⟩ := of_decide_eq_true hmet
  have hstored : u.row (.command r.command.commandId) = some row := hrow
  refine .advanced _ row (r.bind row) hrow
    (.bound r row hversion hid hmayBind hunbound (not_not.mp hheld)) fun k _ => ?_
  simp only [operations, Table.apply, Write.modify, hstored, Option.map_some]

/-! ## Activating -/

/-- A transaction that commits activates the command; what it publishes besides
is none of the commands and guards. -/
theorem PaidActivationRequest.activated {r : PaidActivationRequest} {items : ActivationItems}
    (hadmits : t.Admits (r.operations items)) :
    Change env (.activate r items) t (t.apply (r.operations items)) := by
  have hcommand := hadmits.2 (.modify (.command r.commandId) r.activate r.condition)
    (by simp [operations])
  obtain ⟨row, hrow, hmet⟩ := (Option.any_eq_true _ _).mp hcommand
  have hstored : t.row (.command r.commandId) = some row := hrow
  refine .advanced _ row (r.activate row) hrow (.activated r items row hmet) ?_
  rw [operations, List.cons_append, Table.apply]
  refine (Table.AgreesOn.apply_frame _ fun w hw => ?_).trans ?_
  · simp only [List.mem_append, List.mem_cons, List.mem_map, List.not_mem_nil, or_false] at hw
    rcases hw with ⟨check, _, rfl⟩ | (rfl | ⟨grant, _, rfl⟩) | rfl | rfl
    · exact .inl rfl
    · exact .inr id
    · exact .inr id
    · exact .inr id
    · exact .inr id
  · simp only [Write.modify, hstored, Option.map_some]
    exact .refl _ _

/-! ## The service -/

theorem registerCheckoutCommand_safe (r : RegisterRequest) :
    (registerCheckoutCommand env r).Safe faults (contract env faults).toInterference
      (Change env (.register r)) (Quiet _) [] t := by
  unfold registerCheckoutCommand
  split
  · trivial
  · exact Registration.run_safe _ r

theorem claimProviderCreate_safe (r : ClaimRequest) :
    (claimProviderCreate env r).Safe faults (contract env faults).toInterference
      (Change env (.claim r)) (r.Hands t) [] t := by
  unfold claimProviderCreate
  split
  · exact r.hands_returns
  rename_i command hheld
  split
  · intro _ _ h
    cases h
  · rename_i hchecked
    exact ProviderClaim.run_safe _ hheld hchecked

theorem attachProviderSession_safe (r : AttachRequest) :
    (attachProviderSession env r).Safe faults (contract env faults).toInterference
      (Change env (.attach r)) (Quiet _) [] t := by
  unfold attachProviderSession
  split
  · trivial
  · exact SessionAttachment.run_safe _ ‹_›

theorem markProviderOutcomeUnknown_safe (r : MarkUnknownRequest) :
    (markProviderOutcomeUnknown r).Safe faults (contract env faults).toInterference
      (Change env (.markUnknown r)) (Quiet _) [] t := by
  unfold markProviderOutcomeUnknown
  split
  · trivial
  · exact r.run_safe

theorem claimSessionExpiration_safe (r : ClaimExpirationRequest) :
    (claimSessionExpiration env r).Safe faults (contract env faults).toInterference
      (Change env (.claimExpiration r)) (Quiet _) [] t := by
  unfold claimSessionExpiration
  split
  · trivial
  split
  · trivial
  · trivial
  · exact SessionExpiration.claimRun_safe _ r

theorem recordSessionExpiration_safe (r : RecordExpirationRequest) :
    (recordSessionExpiration env r).Safe faults (contract env faults).toInterference
      (Change env (.recordExpiration r)) (Quiet _) [] t := by
  unfold recordSessionExpiration
  split
  · trivial
  rename_i command hheld
  split
  · trivial
  rename_i status hstatus
  split
  · trivial
  · trivial
  · trivial
  rename_i outcome _ commandId houtcome _ hcommand
  refine SessionExpiration.recordRun_safe _ hheld (requireText_eq_ok hcommand) ?_
  rw [← requireText_eq_ok hstatus]
  exact houtcome

theorem supersedeCheckoutCommand_safe (r : SupersedeRequest) :
    (supersedeCheckoutCommand env r).Safe faults (contract env faults).toInterference
      (Change env (.supersede r)) (Quiet _) [] t := by
  unfold supersedeCheckoutCommand
  split
  · trivial
  split
  · trivial
  · trivial
  split
  · trivial
  rename_i hsame
  split
  · trivial
  rename_i hregistration
  refine Supersession.run_safe _ r ?_
  simp only [not_or, not_not, ne_eq] at hsame
  rw [SupersedeRequest.registration_intent hregistration]
  exact hsame.1

theorem releaseOpenGuardForTerminalCommand_safe (r : ReleaseRequest) :
    (releaseOpenGuardForTerminalCommand env r).Safe faults (contract env faults).toInterference
      (Change env (.release r)) (Quiet _) [] t := by
  unfold releaseOpenGuardForTerminalCommand
  split
  · trivial
  split
  · trivial
  · exact GuardRelease.run_safe _ r

theorem bindWebhookProviderIdentity_safe (r : BindRequest) :
    (bindWebhookProviderIdentity r).Safe faults (contract env faults).toInterference
      (Change env (.bind r)) (Quiet _) [] t := by
  unfold bindWebhookProviderIdentity
  split
  · trivial
  · exact r.run_safe

theorem Call.body_safe_from (faults : Faults) (c : Call) (t : Table Key Row) :
    (c.body env).Safe faults (contract env faults).toInterference (Change env c)
      (OwesFrom t c) [] t := by
  cases c with
  | register r =>
      exact RepoCall.body_safe (registerCheckoutCommand_safe r) fun _ _ _ _ => trivial
  | claim r =>
      refine RepoCall.body_safe (claimProviderCreate_safe r) fun outcome own u h command claim hr => ?_
      cases outcome with
      | error failure => cases hr
      | ok result =>
          cases hr
          exact h command claim rfl
  | attach r =>
      exact RepoCall.body_safe (attachProviderSession_safe r) fun _ _ _ _ => trivial
  | markUnknown r =>
      exact RepoCall.body_safe (markProviderOutcomeUnknown_safe r) fun _ _ _ _ => trivial
  | claimExpiration r =>
      exact RepoCall.body_safe (claimSessionExpiration_safe r) fun _ _ _ _ => trivial
  | recordExpiration r =>
      exact RepoCall.body_safe (recordSessionExpiration_safe r) fun _ _ _ _ => trivial
  | supersede r =>
      exact RepoCall.body_safe (supersedeCheckoutCommand_safe r) fun _ _ _ _ => trivial
  | release r =>
      exact RepoCall.body_safe (releaseOpenGuardForTerminalCommand_safe r) fun _ _ _ _ => trivial
  | bind r =>
      exact RepoCall.body_safe (bindWebhookProviderIdentity_safe r) fun _ _ _ _ => trivial
  | activate r items =>
      exact RepoCall.body_safe
        (commitPaidActivation_safe fun _ _ _ hadmits => PaidActivationRequest.activated hadmits)
        fun _ _ _ _ => trivial

theorem Call.body_safe (faults : Faults) (c : Call) (t : Table Key Row) :
    (c.body env).Safe faults (contract env faults).toInterference (Change env c) (Owes c) [] t :=
  (c.body_safe_from faults t).mono (fun _ _ _ hg => hg) fun _ _ _ => OwesFrom.owes

theorem sound {s : State Key Row Call Result} (hfresh : Fresh t)
    (h : Reachable (service env faults) t s) : Sound (contract env faults) (fun _ => Owes) s :=
  Reachable.sound h hfresh.commands fun c u _ => c.body_safe faults u

end Stoa.Billing
