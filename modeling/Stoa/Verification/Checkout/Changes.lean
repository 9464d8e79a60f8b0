import Stoa.Model.Reconciliation

/-! # What a commit does to commands and guards

Every commit of a call is one `Change`: it creates a command with its guard,
advances one command, hands a guard over, or removes one. -/

namespace Stoa.Billing

open RowStore

variable {env : Env}

/-- The rows that the commits are described on. -/
def Key.IsOpen : Key → Prop
  | .command _ => True
  | .openGuard _ => True
  | _ => False

theorem Key.IsOpen.isCheckout {k : Key} (h : k.IsOpen) : k.IsCheckout := by
  cases k <;> trivial

/-- How a call moves the row of one command. The versions that the calls check
make the row that is written over the row that was read. -/
inductive Advance (env : Env) : Call → CommandRow → CommandRow → Prop where
  | claimed (r : ClaimRequest) (command : CommandRow) (v : ProviderClaim) (row : CommandRow)
      (held : r.command = some command) (target : row.commandId = command.commandId)
      (checked : r.checked command = .ok v)
      (unattached : row.providerEffectStatus ≠ .sessionAttached)
      (expired : row.providerEffectStatus = .notStarted ∨
        row.leaseExpiresAt.any (· ≤ v.now) = true) :
      Advance env (.claim r) row (v.claim row row)
  | attached (r : AttachRequest) (v : SessionAttachment) (row : CommandRow)
      (checked : r.checked = .ok v) (target : row.commandId = v.claim.commandId)
      (held : row.HeldBy v.claim) (version : row.commandVersion = v.claim.commandVersion) :
      Advance env (.attach r) row (v.attach env row)
  | marked (r : MarkUnknownRequest) (row : CommandRow)
      (target : row.commandId = r.claim.commandId) (held : row.HeldBy r.claim)
      (version : row.commandVersion = r.claim.commandVersion) :
      Advance env (.markUnknown r) row (r.mark row)
  | expirationClaimed (r : ClaimExpirationRequest) (v : SessionExpiration) (row : CommandRow)
      (attached : row.providerEffectStatus = .sessionAttached) :
      Advance env (.claimExpiration r) row (v.claimExpiration row.commandVersion row)
  | expirationRecorded (r : RecordExpirationRequest) (command : CommandRow)
      (v : SessionExpiration) (outcome : SessionOutcome) (row : CommandRow)
      (held : r.command = some command) (target : row.commandId = command.commandId)
      (status : SessionOutcome.ofText r.providerSessionStatus = .ok outcome)
      (attached : row.providerEffectStatus = .sessionAttached)
      (unsuperseded : row.supersededByCommandId = none) :
      Advance env (.recordExpiration r) row (v.record outcome row.commandVersion row)
  | superseded (r : SupersedeRequest) (v : Supersession) (row : CommandRow)
      (condition : v.oldCondition row.commandVersion row = true) :
      Advance env (.supersede r) row (v.supersede row.commandVersion row)
  | bound (r : BindRequest) (row : CommandRow)
      (version : row.commandVersion = r.command.commandVersion)
      (target : row.commandId = r.command.commandId)
      (mayBind : row.MayBind r.identity) (unbound : ¬ r.command.BoundTo r.identity)
      (heldMayBind : r.command.MayBind r.identity) :
      Advance env (.bind r) row (r.bind row)
  | activated (r : PaidActivationRequest) (items : ActivationItems) (row : CommandRow)
      (condition : r.condition row = true) :
      Advance env (.activate r items) row (r.activate row)

inductive Change (env : Env) (c : Call) (t t' : Table Key Row) : Prop where
  | registered (r : RegisterRequest) (call : c = .register r) (v : Registration)
      (generation : ℤ) (absent : t.row (.command v.commandId) = none)
      (unguarded : t.row (.openGuard v.intent.parentId.val) = none)
      (result : t'.AgreesOn Key.IsOpen
        ((t.set (.command v.commandId) (some (v.command env generation))).set
          (.openGuard v.intent.parentId.val) (some (v.openGuard generation))))
  | advanced (id : String) (row row' : CommandRow) (stored : t.row (.command id) = some row)
      (step : Advance env c row row')
      (result : t'.AgreesOn Key.IsOpen (t.set (.command id) (some row')))
  /-- The old command is marked, and the guard handed over to the new one. -/
  | transferred (r : SupersedeRequest) (call : c = .supersede r) (v : Supersession)
      (generation : ℤ) (old : CommandRow) (guard : OpenGuardRow)
      (parent : v.registration.intent.parentId.val = v.parentId)
      (stored : t.row (.command v.oldCommandId) = some old)
      (condition : v.oldCondition old.commandVersion old = true)
      (guarded : t.row (.openGuard v.parentId) = some guard) (isOld : v.IsOld guard)
      (absent : t.row (.command v.registration.commandId) = none)
      (result : t'.AgreesOn Key.IsOpen
        (((t.set (.command v.oldCommandId) (some (v.supersede old.commandVersion old))).set
          (.openGuard v.parentId) (some (v.transfer guard))).set
            (.command v.registration.commandId) (some (v.registration.command env generation))))
  | released (r : ReleaseRequest) (call : c = .release r) (id parent : String) (row : CommandRow)
      (guard : OpenGuardRow) (stored : t.row (.command id) = some row)
      (terminal : row.commandState.IsTerminal)
      (guarded : t.row (.openGuard parent) = some guard) (named : guard.commandId = id)
      (result : t'.AgreesOn Key.IsOpen (t.set (.openGuard parent) none))

/-- What a commit does to the row of one command. -/
inductive RowChange (env : Env) (c : Call) (id : String) :
    Option CommandRow → Option CommandRow → Prop where
  | same (x : Option CommandRow) : RowChange env c id x x
  | created (v : Registration) (generation : ℤ) (key : v.commandId = id) :
      RowChange env c id none (some (v.command env generation))
  | advanced (row row' : CommandRow) (step : Advance env c row row') :
      RowChange env c id (some row) (some row')

theorem Change.row {c : Call} {t t' : Table Key Row} (h : Change env c t t') (id : String) :
    RowChange env c id (t.row (.command id)) (t'.row (.command id)) := by
  have hcommand : (Key.command id).IsOpen := trivial
  cases h with
  | registered r call v generation absent unguarded result =>
      rw [result _ hcommand, Table.row_set_of_ne _ _ (by simp)]
      by_cases hid : v.commandId = id
      · subst hid
        rw [Table.row_set_self, absent]
        exact .created v generation rfl
      · rw [Table.row_set_of_ne _ _ (by simpa using Ne.symm hid)]
        exact .same _
  | advanced id' row row' stored step result =>
      rw [result _ hcommand]
      by_cases hid : id' = id
      · subst hid
        rw [Table.row_set_self, stored]
        exact .advanced row row' step
      · rw [Table.row_set_of_ne _ _ (by simpa using Ne.symm hid)]
        exact .same _
  | transferred r call v generation old guard parent stored condition guarded isOld absent result =>
      subst call
      rw [result _ hcommand]
      by_cases hnew : v.registration.commandId = id
      · subst hnew
        rw [Table.row_set_self, absent]
        exact .created _ generation rfl
      · rw [Table.row_set_of_ne _ _ (by simpa using Ne.symm hnew),
          Table.row_set_of_ne _ _ (by simp)]
        by_cases hold : v.oldCommandId = id
        · subst hold
          rw [Table.row_set_self, stored]
          exact .advanced old _ (.superseded r v old condition)
        · rw [Table.row_set_of_ne _ _ (by simpa using Ne.symm hold)]
          exact .same _
  | released r call id' parent row guard stored terminal guarded named result =>
      rw [result _ hcommand, Table.row_set_of_ne _ _ (by simp)]
      exact .same _

/-! ## The invariant -/

structure CommandRow.WellFormed (row : CommandRow) : Prop where
  /-- A command that was never claimed has no lease. -/
  unleased : row.providerEffectStatus = .notStarted → row.leaseExpiresAt = none
  /-- Only an attached command has a session. -/
  session : row.providerSessionId ≠ none → row.providerEffectStatus = .sessionAttached

/-- Commands are stored under their own identity. -/
def Commands (t : Table Key Row) : Prop :=
  ∀ id row, t.row (.command id) = some row → row.commandId = id ∧ row.WellFormed

theorem Fresh.commands {t : Table Key Row} (h : Fresh t) : Commands t := by
  intro id row hrow
  simp [h (.command id) trivial] at hrow

theorem Advance.wellFormed {c : Call} {row row' : CommandRow} (h : Advance env c row row')
    (hrow : row.WellFormed) : row'.commandId = row.commandId ∧ row'.WellFormed := by
  cases h with
  | claimed r command v row held target checked unattached expired =>
      exact ⟨rfl, nofun, fun hs => (unattached (hrow.session hs)).elim⟩
  | attached r v row checked target held version => exact ⟨rfl, nofun, fun _ => rfl⟩
  | marked r row target held version =>
      refine ⟨rfl, nofun, fun hs => ?_⟩
      have heffect := hrow.session hs
      rw [held.2.2.2] at heffect
      cases heffect
  | _ => exact ⟨rfl, hrow.unleased, hrow.session⟩

theorem Change.commands {c : Call} {t t' : Table Key Row} (hc : Commands t)
    (h : Change env c t t') : Commands t' := by
  intro id row' hrow'
  have hchange := h.row id
  rw [hrow'] at hchange
  generalize hx : t.row (.command id) = x at hchange
  cases hchange with
  | same => exact hc id row' hx
  | created v generation key => exact ⟨key, fun _ => rfl, nofun⟩
  | advanced row _ step =>
      obtain ⟨hid, hwell⟩ := hc id row hx
      obtain ⟨hid', hwell'⟩ := step.wellFormed hwell
      exact ⟨hid'.trans hid, hwell'⟩

/-! ## The rely -/

/-- What a command may have become. -/
structure CommandRow.Later (row row' : CommandRow) : Prop where
  version : row = row' ∨ row.commandVersion < row'.commandVersion
  providerKey : row'.providerKeyDigest = row.providerKeyDigest
  generation : row.leaseGeneration ≤ row'.leaseGeneration
  expiry : ∀ expiry, row.leaseExpiresAt = some expiry →
    ∃ expiry', row'.leaseExpiresAt = some expiry' ∧ expiry ≤ expiry'
  attached : row.providerEffectStatus = .sessionAttached →
    row'.providerEffectStatus = .sessionAttached ∧ row'.providerSessionId = row.providerSessionId

theorem CommandRow.Later.refl (row : CommandRow) : row.Later row where
  version := .inl rfl
  providerKey := rfl
  generation := le_rfl
  expiry := fun expiry h => ⟨expiry, h, le_rfl⟩
  attached := fun h => ⟨h, rfl⟩

theorem CommandRow.Later.trans {a b c : CommandRow} (hab : a.Later b) (hbc : b.Later c) :
    a.Later c where
  version := by
    rcases hab.version with rfl | hlt
    · exact hbc.version
    · rcases hbc.version with rfl | hlt'
      · exact .inr hlt
      · exact .inr (hlt.trans hlt')
  providerKey := hbc.providerKey.trans hab.providerKey
  generation := hab.generation.trans hbc.generation
  expiry := by
    intro expiry h
    obtain ⟨expiry', h', hle⟩ := hab.expiry expiry h
    obtain ⟨expiry'', h'', hle'⟩ := hbc.expiry expiry' h'
    exact ⟨expiry'', h'', hle.trans hle'⟩
  attached := by
    intro h
    obtain ⟨h', hsession⟩ := hab.attached h
    obtain ⟨h'', hsession'⟩ := hbc.attached h'
    exact ⟨h'', hsession'.trans hsession⟩

/-- A change that leaves the lease and the provider call alone. -/
theorem CommandRow.Later.of_lease {row row' : CommandRow}
    (hversion : row.commandVersion < row'.commandVersion)
    (hkey : row'.providerKeyDigest = row.providerKeyDigest)
    (hgeneration : row'.leaseGeneration = row.leaseGeneration)
    (hexpiry : row'.leaseExpiresAt = row.leaseExpiresAt)
    (heffect : row'.providerEffectStatus = row.providerEffectStatus ∧
      row'.providerSessionId = row.providerSessionId ∨
      row.providerEffectStatus ≠ .sessionAttached) : row.Later row' where
  version := .inr hversion
  providerKey := hkey
  generation := hgeneration.ge
  expiry := fun expiry h => ⟨expiry, hexpiry.trans h, le_rfl⟩
  attached := by
    intro h
    rcases heffect with ⟨heffect, hsession⟩ | hne
    · exact ⟨heffect.trans h, hsession⟩
    · exact (hne h).elim

theorem Advance.later {c : Call} {row row' : CommandRow} (h : Advance env c row row')
    (hrow : row.WellFormed) : row.Later row' := by
  cases h with
  | claimed r command v row held target checked unattached expired =>
      refine ⟨.inr (Int.lt_succ _), rfl, (Int.lt_succ _).le, ?_, fun h => (unattached h).elim⟩
      intro expiry hexpiry
      rcases expired with hnew | hold
      · simp [hrow.unleased hnew] at hexpiry
      · rw [hexpiry] at hold
        exact ⟨v.expiry, rfl, (of_decide_eq_true hold).trans v.expires_later.le⟩
  | attached r v row checked target held version =>
      refine .of_lease ?_ rfl rfl rfl (.inr (by simp [held.2.2.2]))
      exact version.trans_lt (Int.lt_succ _)
  | marked r row target held version =>
      refine .of_lease ?_ rfl rfl rfl (.inr (by simp [held.2.2.2]))
      exact version.trans_lt (Int.lt_succ _)
  | expirationClaimed r v row attached =>
      exact .of_lease (Int.lt_succ _) rfl rfl rfl (.inl ⟨rfl, rfl⟩)
  | expirationRecorded r command v outcome row held target status attached unsuperseded =>
      exact .of_lease (Int.lt_succ _) rfl rfl rfl (.inl ⟨rfl, rfl⟩)
  | superseded r v row condition =>
      exact .of_lease (Int.lt_succ _) rfl rfl rfl (.inl ⟨rfl, rfl⟩)
  | bound r row version target mayBind unbound heldMayBind =>
      exact .of_lease (version.trans_lt (Int.lt_succ _)) rfl rfl rfl (.inl ⟨rfl, rfl⟩)
  | activated r items row condition =>
      have hversion : row.commandVersion = r.expectedCommandVersion :=
        (of_decide_eq_true condition).2.1.2.2.1
      exact .of_lease (hversion.trans_lt (Int.lt_succ _)) rfl rfl rfl (.inl ⟨rfl, rfl⟩)

/-- Commands stay, and only become later ones. -/
def Keeps (t t' : Table Key Row) : Prop :=
  ∀ id row, t.row (.command id) = some row →
    ∃ row', t'.row (.command id) = some row' ∧ row.Later row'

theorem Keeps.refl (t : Table Key Row) : Keeps t t := fun _ row h => ⟨row, h, .refl row⟩

theorem Keeps.trans {s t u : Table Key Row} (hst : Keeps s t) (htu : Keeps t u) : Keeps s u := by
  intro id row hrow
  obtain ⟨row', hrow', hlater⟩ := hst id row hrow
  obtain ⟨row'', hrow'', hlater'⟩ := htu id row' hrow'
  exact ⟨row'', hrow'', hlater.trans hlater'⟩

theorem Keeps.of_agree {t t' : Table Key Row} (h : t'.AgreesOn Key.IsOpen t) : Keeps t t' :=
  fun id row hrow => ⟨row, (h (.command id) trivial).trans hrow, .refl row⟩

theorem Change.keeps {c : Call} {t t' : Table Key Row} (hc : Commands t)
    (h : Change env c t t') : Keeps t t' := by
  intro id row hrow
  have hchange := h.row id
  rw [hrow] at hchange
  generalize t'.row (.command id) = y at hchange ⊢
  cases hchange with
  | same => exact ⟨row, rfl, .refl row⟩
  | advanced _ row' step => exact ⟨row', rfl, step.later (hc id row hrow).2⟩

/-- Where the version is found again, the command is found again. -/
theorem Keeps.eq_of_version {t t' : Table Key Row} (h : Keeps t t') {id : String}
    {row row' : CommandRow} (hrow : t.row (.command id) = some row)
    (hrow' : t'.row (.command id) = some row')
    (hversion : row'.commandVersion = row.commandVersion) : row' = row := by
  obtain ⟨found, hfound, hlater⟩ := h id row hrow
  cases hrow'.symm.trans hfound
  rcases hlater.version with heq | hlt
  · exact heq.symm
  · omega

end Stoa.Billing
