import Stoa.Verification.Checkout.OpenGuard

/-! # One provider session under one live lease

A lease is taken over when it has expired, its generation tells its claims apart,
and what is attached under it stays. -/

namespace Stoa.Billing

open RowStore

variable {env : Env}

/-- The lease of a command, with the key of its provider call. -/
def CommandRow.SameLease (row row' : CommandRow) : Prop :=
  row.leaseOwner = row'.leaseOwner ∧ row.leaseGeneration = row'.leaseGeneration ∧
    row.leaseExpiresAt = row'.leaseExpiresAt ∧ row.providerKeyDigest = row'.providerKeyDigest

/-- The name under which a call claims. -/
def Call.worker : Call → Option String
  | .claim r => some r.leaseOwner
  | _ => none

/-- The claim under which a call reports on the provider. -/
def Call.underClaim : Call → Option ProviderCreateClaim
  | .attach r => some r.claim
  | .markUnknown r => some r.claim
  | _ => none

/-- The commit is a claim of the command, which it leaves as `row`. -/
def Claims (e : Commit Key Row Call) (id : String) (row : CommandRow) : Prop :=
  e.call.worker.isSome ∧ e.after.row (.command id) = some row ∧
    e.before.row (.command id) ≠ some row

/-- The commit attaches a session to the command. -/
def Attaches (e : Commit Key Row Call) (id : String) : Prop :=
  ∃ r, e.call = .attach r ∧ r.claim.commandId = id

/-- The call has returned with a claim. -/
def HandsOut (r : Return Key Row Call Result) (claim : ProviderCreateClaim) : Prop :=
  ∃ q command, r.call = .claim q ∧ r.result = .command ⟨.claimed, command, some claim⟩

/-! ## One commit -/

/-- Only a claim writes a lease. -/
theorem Advance.lease {c : Call} {row row' : CommandRow} (h : Advance env c row row') :
    row'.SameLease row ∨ ∃ r v, c = .claim r ∧ row' = ProviderClaim.claim v row row ∧
      v.owner = r.leaseOwner ∧ v.now = r.nowEpoch ∧
      row.providerEffectStatus ≠ .sessionAttached ∧
      (row.providerEffectStatus = .notStarted ∨ row.leaseExpiresAt.any (· ≤ v.now) = true) := by
  cases h with
  | claimed r command v row held target checked unattached expired =>
      obtain ⟨-, howner, hnow, -⟩ := ClaimRequest.checked_eq_ok checked
      exact .inr ⟨r, v, rfl, rfl, howner, hnow, unattached, expired⟩
  | _ => exact .inl ⟨rfl, rfl, rfl, rfl⟩

/-- The calls of the workers, which create no command and hand over no guard. -/
def Call.Works : Call → Prop
  | .claim _ => True
  | .attach _ => True
  | .markUnknown _ => True
  | _ => False

/-- What a worker commits is the advance of one command. -/
theorem Change.advance {c : Call} {t t' : Table Key Row} (hworks : c.Works)
    (h : Change env c t t') : ∃ id row row', t.row (.command id) = some row ∧
      Advance env c row row' ∧ t'.row (.command id) = some row' ∧
      ∀ id', id' ≠ id → t'.row (.command id') = t.row (.command id') := by
  cases h with
  | registered r call => exact (call ▸ hworks : Call.Works (.register r)).elim
  | transferred r call => exact (call ▸ hworks : Call.Works (.supersede r)).elim
  | released r call => exact (call ▸ hworks : Call.Works (.release r)).elim
  | advanced id row row' stored step result =>
      refine ⟨id, row, row', stored, step, ?_, fun id' hne => ?_⟩
      · rw [result (.command id) trivial, Table.row_set_self]
      · rw [result (.command id') trivial, Table.row_set_of_ne _ _ (by simpa using hne)]

/-- What a claim finds, and what it leaves. -/
theorem Claims.found {e : Commit Key Row Call} (hchange : Change env e.call e.before e.after)
    {id : String} {row : CommandRow} (h : Claims e id row) :
    ∃ r v before, e.call = .claim r ∧ v.owner = r.leaseOwner ∧ v.now = r.nowEpoch ∧
      e.before.row (.command id) = some before ∧ row = ProviderClaim.claim v before before ∧
      before.providerEffectStatus ≠ .sessionAttached ∧
      (before.providerEffectStatus = .notStarted ∨
        before.leaseExpiresAt.any (· ≤ v.now) = true) := by
  obtain ⟨hclaim, hafter, hne⟩ := h
  obtain ⟨r, hcall⟩ : ∃ r, e.call = .claim r := by
    cases hc : e.call <;> simp_all [Call.worker]
  rw [hcall] at hchange
  obtain ⟨id', before, row', stored, step, after, others⟩ :=
    Change.advance (c := .claim r) trivial hchange
  have hid : id = id' := by
    by_contra hother
    exact hne ((others id hother).symm.trans hafter)
  subst hid
  cases hafter.symm.trans after
  cases step with
  | claimed _ command v _ held target checked unattached expired =>
      obtain ⟨-, howner, hnow, -⟩ := ClaimRequest.checked_eq_ok checked
      exact ⟨r, v, before, hcall, howner, hnow, stored, rfl, unattached, expired⟩

/-- What is reported on the provider is reported under the lease of the claim. -/
theorem Change.heldBy {c : Call} {t t' : Table Key Row} {claim : ProviderCreateClaim}
    (hcommands : Commands t) (h : Change env c t t') (hclaim : c.underClaim = some claim) :
    ∃ row, t.row (.command claim.commandId) = some row ∧ row.HeldBy claim := by
  have hworks : c.Works := by
    cases c <;> simp_all [Call.underClaim, Call.Works]
  obtain ⟨id, row, row', stored, step, -⟩ := h.advance hworks
  have hid : row.commandId = id := (hcommands id row stored).1
  cases step with
  | attached r v row checked target held version =>
      rw [AttachRequest.checked_claim checked] at target held
      cases hclaim
      exact ⟨row, by rw [← target, hid]; exact stored, held⟩
  | marked r row target held version =>
      cases hclaim
      exact ⟨row, by rw [← target, hid]; exact stored, held⟩
  | _ => cases hclaim

/-- A session is attached where none is. -/
theorem Attaches.attached {e : Commit Key Row Call} (hcommands : Commands e.before)
    (hchange : Change env e.call e.before e.after) {id : String} (h : Attaches e id) :
    (∀ row, e.before.row (.command id) = some row →
        row.providerEffectStatus ≠ .sessionAttached) ∧
      ∃ row, e.after.row (.command id) = some row ∧
        row.providerEffectStatus = .sessionAttached := by
  obtain ⟨r, hcall, rfl⟩ := h
  rw [hcall] at hchange
  obtain ⟨id, row, row', stored, step, after, -⟩ := Change.advance (c := .attach r) trivial hchange
  have hid : row.commandId = id := (hcommands id row stored).1
  cases step with
  | attached _ v _ checked target held version =>
      rw [← AttachRequest.checked_claim checked, ← target, hid]
      refine ⟨fun found hfound => ?_, _, after, rfl⟩
      cases stored.symm.trans hfound
      simp [held.2.2.2]

/-! ## Leases and their claims -/

/-- Every lease was written by a claim of its owner. -/
def LeasesClaimed (history : List (Commit Key Row Call)) (t : Table Key Row) : Prop :=
  ∀ id row owner, t.row (.command id) = some row → row.leaseOwner = some owner →
    ∃ e ∈ history, ∃ written, Claims e id written ∧ e.call.worker = some owner ∧
      row.SameLease written

theorem CommandRow.SameLease.trans {a b c : CommandRow} (hab : a.SameLease b)
    (hbc : b.SameLease c) : a.SameLease c :=
  ⟨hab.1.trans hbc.1, hab.2.1.trans hbc.2.1, hab.2.2.1.trans hbc.2.2.1, hab.2.2.2.trans hbc.2.2.2⟩

theorem Change.leasesClaimed {e : Commit Key Row Call} {history : List (Commit Key Row Call)}
    (h : Change env e.call e.before e.after) (hclaimed : LeasesClaimed history e.before) :
    LeasesClaimed (e :: history) e.after := by
  have earlier : ∀ id row owner, e.before.row (.command id) = some row →
      row.leaseOwner = some owner → ∃ e' ∈ e :: history, ∃ written, Claims e' id written ∧
        e'.call.worker = some owner ∧ row.SameLease written := by
    intro id row owner hrow howner
    obtain ⟨e', he', hwritten⟩ := hclaimed id row owner hrow howner
    exact ⟨e', List.mem_cons_of_mem e he', hwritten⟩
  intro id row' owner hrow' howner
  have hrow := h.row id
  rw [hrow'] at hrow
  generalize hx : e.before.row (.command id) = x at hrow
  cases hrow with
  | same => exact earlier id row' owner hx howner
  | created v generation key => cases howner
  | advanced row _ step =>
      rcases step.lease with hsame | ⟨r, v, hcall, rfl, hname, -⟩
      · obtain ⟨e', he', written, hclaims, hworker, hwritten⟩ :=
          earlier id row owner hx (hsame.1.symm.trans howner)
        exact ⟨e', he', written, hclaims, hworker, hsame.trans hwritten⟩
      · refine ⟨e, List.mem_cons_self .., v.claim row row, ⟨by simp [hcall, Call.worker], hrow',
          ?_⟩, ?_, rfl, rfl, rfl, rfl⟩
        · rw [hx]
          intro heq
          have hgeneration := congrArg CommandRow.leaseGeneration (Option.some.inj heq)
          simp [ProviderClaim.claim] at hgeneration
        · rw [hcall, Call.worker, ← hname]
          exact howner

/-! ## Every run -/

structure OneSession (s : State Key Row Call Result) : Prop where
  /-- A claim is of a greater generation than the claims before it, and their
  leases have expired. -/
  increasing : s.history.Pairwise fun later earlier => ∀ id row row', Claims earlier id row →
    Claims later id row' → row.leaseGeneration < row'.leaseGeneration ∧
      ∃ expiry, row.leaseExpiresAt = some expiry ∧ expiry ≤ later.time
  /-- A command with a session is not claimed. -/
  unattached : ∀ e ∈ s.history, ∀ id row, Claims e id row →
    ∃ before, e.before.row (.command id) = some before ∧
      before.providerEffectStatus ≠ .sessionAttached
  /-- A claim that is handed out was committed under the name of its worker. -/
  committed : ∀ r ∈ s.returned, ∀ claim, HandsOut r claim →
    ∃ e ∈ s.history, ∃ row, Claims e claim.commandId row ∧ e.call.worker = r.call.worker ∧
      row.leaseGeneration = claim.leaseGeneration ∧
      row.leaseExpiresAt = some claim.leaseExpiresAt
  /-- Two workers never hold the same generation. -/
  holder : ∀ r ∈ s.returned, ∀ r' ∈ s.returned, ∀ claim claim', HandsOut r claim →
    HandsOut r' claim' → claim.commandId = claim'.commandId →
      claim.leaseGeneration = claim'.leaseGeneration → r.call.worker = r'.call.worker
  /-- One commit attaches a session. -/
  attached : ∀ e ∈ s.history, ∀ e' ∈ s.history, ∀ id, Attaches e id → Attaches e' id → e = e'
  /-- A session stays as it was attached. -/
  kept : ∀ e ∈ s.history, ∀ id row session, e.after.row (.command id) = some row →
    row.providerSessionId = some session →
      ∃ row', s.table.row (.command id) = some row' ∧ row'.providerSessionId = some session
  /-- What is reported under another lease than the stored one is not committed. -/
  fenced : ∀ e ∈ s.history, ∀ claim, e.call.underClaim = some claim →
    ∃ row, e.before.row (.command claim.commandId) = some row ∧ row.HeldBy claim
  /-- All claims of a command carry one provider key. -/
  keys : ∀ r ∈ s.returned, ∀ r' ∈ s.returned, ∀ claim claim', HandsOut r claim →
    HandsOut r' claim' → claim.commandId = claim'.commandId →
      claim.providerKeyDigest = claim'.providerKeyDigest

section

variable {faults : Faults} {s : State Key Row Call Result}

theorem handsOut_leases (hs : Sound (contract env faults) (fun _ => Owes) s)
    {r : Return Key Row Call Result} (hr : r ∈ s.returned) {claim : ProviderCreateClaim}
    (h : HandsOut r claim) : ∃ row, r.table.row (.command claim.commandId) = some row ∧
      row.leaseOwner = r.call.worker ∧ row.leaseGeneration = claim.leaseGeneration ∧
      row.leaseExpiresAt = some claim.leaseExpiresAt ∧
      row.providerKeyDigest = claim.providerKeyDigest := by
  obtain ⟨q, command, hcall, hresult⟩ := h
  have howes := (hs.returned r hr).1
  rw [hcall] at howes
  obtain ⟨row, hrow, howner, hlease⟩ := howes command claim hresult
  refine ⟨row, hrow, ?_, hlease⟩
  rw [hcall]
  exact howner

/-- What a claim finds has expired. -/
theorem Claims.expired (hs : Sound (contract env faults) (fun _ => Owes) s)
    {e : Commit Key Row Call} (he : e ∈ s.history) {id : String} {row : CommandRow}
    (h : Claims e id row) : ∃ before, e.before.row (.command id) = some before ∧
      before.leaseGeneration < row.leaseGeneration ∧
      before.providerEffectStatus ≠ .sessionAttached ∧
      ∀ expiry, before.leaseExpiresAt = some expiry → expiry ≤ e.time := by
  obtain ⟨hcommands, hchange, -⟩ := hs.history e he
  obtain ⟨r, v, before, hcall, -, hnow, hbefore, rfl, hunattached, hexpired⟩ := h.found hchange
  refine ⟨before, hbefore, Int.lt_succ _, hunattached, fun expiry hexpiry => ?_⟩
  rcases hexpired with hnew | hold
  · simp [(hcommands id before hbefore).2.unleased hnew] at hexpiry
  · obtain ⟨τ, hτ, hstart⟩ := (hs.history_time e he).2
    rw [hcall] at hstart
    have hclock : r.nowEpoch ≤ τ := hstart
    rw [hexpiry] at hold
    have hle : expiry ≤ v.now := of_decide_eq_true hold
    omega

/-- A generation of a command is committed once. -/
theorem one_generation (hs : Sound (contract env faults) (fun _ => Owes) s)
    {e e' : Commit Key Row Call} (he : e ∈ s.history) (he' : e' ∈ s.history) {id : String}
    {row row' : CommandRow} (h : Claims e id row) (h' : Claims e' id row')
    (hgeneration : row.leaseGeneration = row'.leaseGeneration) : e = e' := by
  let P : Table Key Row → Table Key Row → Prop := fun t u =>
    (∃ before, t.row (.command id) = some before ∧
      before.leaseGeneration < row.leaseGeneration) ∧
    ∃ after, u.row (.command id) = some after ∧ after.leaseGeneration = row.leaseGeneration
  have hwrites : ∀ d ∈ s.history, ∀ written, Claims d id written →
      written.leaseGeneration = row.leaseGeneration → P d.before d.after := by
    intro d hd written hclaims heq
    obtain ⟨before, hbefore, hlt, -⟩ := hclaims.expired hs hd
    exact ⟨⟨before, hbefore, heq ▸ hlt⟩, written, hclaims.2.1, heq⟩
  refine hs.commit_unique (P := P) (fun d _ t u hd hrely hagain => ?_) he he'
    (hwrites e he row h rfl) (hwrites e' he' row' h' hgeneration.symm)
  obtain ⟨after, hafter, heq⟩ := hd.2
  obtain ⟨before, hbefore, hlt⟩ := hagain.1
  obtain ⟨found, hfound, hlater⟩ := hrely id after hafter
  cases hbefore.symm.trans hfound
  have := hlater.generation
  omega

/-- A claim that is handed out is the lease of a commit under the worker's name. -/
theorem handsOut_claims {t : Table Key Row} (hfresh : Fresh t)
    (h : Reachable (service env faults) t s) {r : Return Key Row Call Result}
    (hr : r ∈ s.returned) {claim : ProviderCreateClaim} (hclaim : HandsOut r claim) :
    ∃ e ∈ s.history, ∃ row, Claims e claim.commandId row ∧ e.call.worker = r.call.worker ∧
      row.leaseGeneration = claim.leaseGeneration ∧
      row.leaseExpiresAt = some claim.leaseExpiresAt := by
  have hempty : LeasesClaimed [] t := fun id row _ hrow => by
    simp [hfresh (.command id) trivial] at hrow
  obtain ⟨H, hH, hclaimed⟩ := (Reachable.traced (Γ := contract env faults) (Q := Owes) h
    hfresh.commands (fun c u _ => c.body_safe faults u) (P := LeasesClaimed)
    (R := fun _ _ => True) hempty (fun e H _ hchange _ hP => Change.leasesClaimed hchange hP)
    (fun H u u' _ hP hd id row owner hrow => hP id row owner
      ((hd (.command id) trivial).symm.trans hrow)) fun _ _ => trivial).2 r hr
  obtain ⟨row, hrow, howner, hgeneration, hexpiry, -⟩ :=
    handsOut_leases (sound hfresh h) hr hclaim
  obtain ⟨q, command, hcall, -⟩ := hclaim
  rw [hcall] at howner ⊢
  obtain ⟨e, he, written, hclaims, hworker, hsame⟩ := hclaimed _ row q.leaseOwner hrow howner
  exact ⟨e, hH he, written, hclaims, hworker, hsame.2.1.symm.trans hgeneration,
    hsame.2.2.1.symm.trans hexpiry⟩

theorem Claims.increase (hs : Sound (contract env faults) (fun _ => Owes) s)
    {earlier later : Commit Key Row Call} (he : earlier ∈ s.history) (hl : later ∈ s.history)
    (hrely : Keeps earlier.after later.before) {id : String} {row row' : CommandRow}
    (h : Claims earlier id row) (h' : Claims later id row') :
    row.leaseGeneration < row'.leaseGeneration ∧
      ∃ expiry, row.leaseExpiresAt = some expiry ∧ expiry ≤ later.time := by
  obtain ⟨before, hbefore, hlt, -, hexpired⟩ := h'.expired hs hl
  obtain ⟨found, hfound, hkept⟩ := hrely id row h.2.1
  cases hbefore.symm.trans hfound
  obtain ⟨-, v, _, -, -, -, -, rfl, -⟩ := h.found (hs.history earlier he).2.1
  obtain ⟨expiry, hexpiry, hle⟩ := hkept.expiry v.expiry rfl
  exact ⟨hkept.generation.trans_lt hlt, v.expiry, rfl, hle.trans (hexpired expiry hexpiry)⟩

/-- A session is attached once. -/
theorem Attaches.unique (hs : Sound (contract env faults) (fun _ => Owes) s)
    {e e' : Commit Key Row Call} (he : e ∈ s.history) (he' : e' ∈ s.history) {id : String}
    (h : Attaches e id) (h' : Attaches e' id) : e = e' := by
  let P : Table Key Row → Table Key Row → Prop := fun t u =>
    (∀ row, t.row (.command id) = some row → row.providerEffectStatus ≠ .sessionAttached) ∧
      ∃ row, u.row (.command id) = some row ∧ row.providerEffectStatus = .sessionAttached
  have hwrites : ∀ d ∈ s.history, Attaches d id → P d.before d.after := fun d hd hattaches =>
    hattaches.attached (hs.history d hd).1 (hs.history d hd).2.1
  refine hs.commit_unique (P := P) (fun d _ t u hd hrely hagain => ?_) he he' (hwrites e he h)
    (hwrites e' he' h')
  obtain ⟨row, hrow, hattached⟩ := hd.2
  obtain ⟨found, hfound, hlater⟩ := hrely id row hrow
  exact hagain.1 found hfound (hlater.attached hattached).1

/-- A session that a commit has left is the session now. -/
theorem session_kept (hs : Sound (contract env faults) (fun _ => Owes) s)
    {e : Commit Key Row Call} (he : e ∈ s.history) {id session : String} {row : CommandRow}
    (hrow : e.after.row (.command id) = some row) (hsession : row.providerSessionId = some session) :
    ∃ row', s.table.row (.command id) = some row' ∧ row'.providerSessionId = some session := by
  obtain ⟨hcommands, hchange, hrely, -⟩ := hs.history e he
  obtain ⟨found, hfound, hlater⟩ := hrely id row hrow
  have hattached := (hchange.commands hcommands id row hrow).2.session (by simp [hsession])
  exact ⟨found, hfound, (hlater.attached hattached).2.trans hsession⟩

theorem handsOut_holder {t : Table Key Row} (hfresh : Fresh t)
    (h : Reachable (service env faults) t s) {r r' : Return Key Row Call Result}
    (hr : r ∈ s.returned) (hr' : r' ∈ s.returned) {claim claim' : ProviderCreateClaim}
    (hclaim : HandsOut r claim) (hclaim' : HandsOut r' claim')
    (hcommand : claim.commandId = claim'.commandId)
    (hgeneration : claim.leaseGeneration = claim'.leaseGeneration) :
    r.call.worker = r'.call.worker := by
  obtain ⟨e, he, row, hrow, hworker, heq, -⟩ := handsOut_claims hfresh h hr hclaim
  obtain ⟨e', he', row', hrow', hworker', heq', -⟩ := handsOut_claims hfresh h hr' hclaim'
  rw [← hcommand] at hrow'
  have hsame : e = e' := one_generation (sound hfresh h) he he' hrow hrow'
    (heq.trans (hgeneration.trans heq'.symm))
  rw [← hworker, ← hworker', hsame]

theorem handsOut_key (hs : Sound (contract env faults) (fun _ => Owes) s)
    {r r' : Return Key Row Call Result} (hr : r ∈ s.returned) (hr' : r' ∈ s.returned)
    {claim claim' : ProviderCreateClaim} (hclaim : HandsOut r claim) (hclaim' : HandsOut r' claim')
    (hcommand : claim.commandId = claim'.commandId) :
    claim.providerKeyDigest = claim'.providerKeyDigest := by
  obtain ⟨row, hrow, -, -, -, hkey⟩ := handsOut_leases hs hr hclaim
  obtain ⟨row', hrow', -, -, -, hkey'⟩ := handsOut_leases hs hr' hclaim'
  obtain ⟨found, hfound, hlater⟩ := (hs.returned r hr).2.2.2.2 _ row hrow
  obtain ⟨found', hfound', hlater'⟩ := (hs.returned r' hr').2.2.2.2 _ row' hrow'
  rw [← hcommand] at hfound'
  cases hfound.symm.trans hfound'
  rw [← hkey, ← hkey', ← hlater.providerKey, ← hlater'.providerKey]

theorem Fresh.oneSession {t : Table Key Row} (hfresh : Fresh t)
    (h : Reachable (service env faults) t s) : OneSession s := by
  have hs := sound hfresh h
  exact {
    increasing := hs.ordered.imp_of_mem fun hlater hearlier hrely id row row' hrow hrow' =>
      hrow.increase hs hearlier hlater hrely.1 hrow'
    unattached := fun e he id row hrow =>
      have ⟨before, hbefore, _, hunattached, _⟩ := hrow.expired hs he
      ⟨before, hbefore, hunattached⟩
    committed := fun r hr claim hclaim => handsOut_claims hfresh h hr hclaim
    holder := fun r hr r' hr' claim claim' => handsOut_holder hfresh h hr hr'
    attached := fun e he e' he' id => Attaches.unique hs he he'
    kept := fun e he id row session => session_kept hs he
    fenced := fun e he claim => (hs.history e he).2.1.heldBy (hs.history e he).1
    keys := fun r hr r' hr' claim claim' => handsOut_key hs hr hr' }

end

/-- One provider session for each command, under one live lease; and a claim that
is started after another one was handed out has a greater generation. -/
theorem one_session_per_command {faults : Faults} {t : Table Key Row}
    {s s' : State Key Row Call Result} (hfresh : Fresh t)
    (h : Reachable (service env faults) t s) (hrun : Steps (service env faults) s s') :
    OneSession s ∧ ∀ r ∈ s.returned, ∀ r' ∈ s'.returned, s.next ≤ r'.id → ∀ claim claim',
      HandsOut r claim → HandsOut r' claim' → claim.commandId = claim'.commandId →
        claim.leaseGeneration < claim'.leaseGeneration := by
  refine ⟨hfresh.oneSession h, ?_⟩
  intro r hr r' hr' hle claim claim' hclaim ⟨q, command, hcall, hresult⟩ hcommand
  have hs := sound hfresh h
  obtain ⟨row, hrow, -, hgeneration, -⟩ := handsOut_leases hs hr hclaim
  obtain ⟨found, hfound, hlater⟩ := (hs.returned r hr).2.2.2.2 _ row hrow
  let P : Call → Post Key Row Result := fun c result _ _ => ∀ q command claim, c = .claim q →
    result = .command ⟨.claimed, command, some claim⟩ → claim.Follows s.table
  have hlater' := hs.later (P := P) hrun (fun c u _ hrely => by
    refine (c.body_safe_from faults u).mono (fun _ _ _ hg => hg) fun result own v howes => ?_
    rintro q command claim rfl hresult before hbefore
    obtain ⟨started, hstarted, hkept⟩ := hrely _ before hbefore
    exact hkept.generation.trans_lt ((howes command claim hresult).2 started hstarted)) r' hr' hle
  have hfollows := hlater' q command claim' hcall hresult
  rw [← hgeneration]
  exact hlater.generation.trans_lt (hfollows found (hcommand ▸ hfound))

/-- The checkout that is claimed and attached. -/
theorem one_session_per_command_sample : OneSession Sample.attached :=
  (one_session_per_command Sample.start_fresh Sample.attached_reachable .refl).1

end Stoa.Billing
