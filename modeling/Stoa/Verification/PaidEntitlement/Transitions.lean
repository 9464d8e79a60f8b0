import Stoa.Verification.PaidEntitlement.Transactions
import Stoa.Store.Solo

/-! # Transitions resolve once

A transition is open until it is applied or cleared, and is replaced only by one
of a later plan version. A recovery and the deadline race on its row; who loses
finds it resolved. -/

namespace Stoa.PaidEntitlement

open RowStore Billing

variable {env : Env}

/-! ## What may become of a transition -/

/-- What the identity of a stored transition is the digest of. -/
def parts (row : TransitionRow) : TransitionParts :=
  match row.transitionKind with
  | .periodEnd => .periodEnd row.subscriptionIdDigest row.planVersion row.currentPlan
      row.targetPlan row.effectiveAt
  | .renewalGrace => .renewalGrace row.subscriptionIdDigest row.planVersion
      (row.failureIdentity.getD "") (row.graceStartedAt.getD row.effectiveAt)

/-- Two transitions that cannot be told apart by their identities. -/
def Collide (env : Env) (row row' : TransitionRow) : Prop :=
  parts row ≠ parts row' ∧ env.transitionIdentity (parts row) = env.transitionIdentity (parts row')

/-- What a transition says, without what has become of it. -/
def terms (row : TransitionRow) : TransitionRow :=
  { row with
    transitionVersion := 0
    status := .scheduled
    clearedAt := none
    appliedAt := none
    attachmentStorageLimit := none }

def IsOpen (row : TransitionRow) : Prop := row.status = .scheduled ∨ row.status = .graceStarted

def IsResolved (row : TransitionRow) : Prop := row.status = .applied ∨ row.status = .cleared

theorem IsOpen.not_resolved {row : TransitionRow} (h : IsOpen row) : ¬ IsResolved row := by
  rintro (hstatus | hstatus) <;> rcases h with hopen | hopen <;> cases hopen.symm.trans hstatus

/-- How one transition row follows another under the same key. -/
inductive Follows (row : TransitionRow) : TransitionRow → Prop where
  | same : Follows row row
  | resolved (row' : TransitionRow) (wasOpen : IsOpen row) (resolved : IsResolved row')
      (newer : row.transitionVersion < row'.transitionVersion) (same : terms row' = terms row) :
      Follows row row'
  | replaced (row' : TransitionRow) (newer : row.transitionVersion < row'.transitionVersion)
      (later : row.planVersion < row'.planVersion) : Follows row row'

/-- Whatever is read off the terms is the same. -/
theorem eq_of_terms {β : Type} (f : TransitionRow → β) (hf : ∀ row, f (terms row) = f row)
    {row row' : TransitionRow} (h : terms row' = terms row) : f row' = f row := by
  rw [← hf row', h, hf]

theorem planVersion_of_terms {row row' : TransitionRow} (h : terms row' = terms row) :
    row'.planVersion = row.planVersion := eq_of_terms TransitionRow.planVersion (fun _ => rfl) h

theorem Follows.trans {a b c : TransitionRow} (hab : Follows a b) (hbc : Follows b c) :
    Follows a c := by
  cases hab with
  | same => exact hbc
  | resolved _ wasOpen resolved newer same =>
      cases hbc with
      | same => exact .resolved b wasOpen resolved newer same
      | resolved _ reopened => exact absurd resolved reopened.not_resolved
      | replaced _ newer' later =>
          exact .replaced c (newer.trans newer') (planVersion_of_terms same ▸ later)
  | replaced _ newer later =>
      cases hbc with
      | same => exact .replaced b newer later
      | resolved _ _ _ newer' same =>
          exact .replaced c (newer.trans newer') (planVersion_of_terms same ▸ later)
      | replaced _ newer' later' => exact .replaced c (newer.trans newer') (later.trans later')

/-- Under one plan version a transition keeps its terms. -/
theorem Follows.terms {a b : TransitionRow} (h : Follows a b) (hplan : b.planVersion = a.planVersion) :
    terms b = terms a := by
  cases h with
  | same => rfl
  | resolved _ _ _ _ same => exact same
  | replaced _ _ later => exact absurd hplan later.ne'

/-- Under one plan version a resolved transition is final. -/
theorem Follows.final {a b : TransitionRow} (h : Follows a b) (hresolved : IsResolved a)
    (hplan : b.planVersion = a.planVersion) : b = a := by
  cases h with
  | same => rfl
  | resolved _ wasOpen => exact absurd hresolved wasOpen.not_resolved
  | replaced _ _ later => exact absurd hplan later.ne'

/-- What may become of what is stored under a key. -/
def FollowsAt : Option TransitionRow → Option TransitionRow → Prop
  | none, _ => True
  | some _, none => False
  | some row, some row' => Follows row row'

namespace FollowsAt

variable {x y z : Option TransitionRow}

theorem refl : ∀ x, FollowsAt x x
  | none => trivial
  | some _ => .same

theorem trans (hxy : FollowsAt x y) (hyz : FollowsAt y z) : FollowsAt x z := by
  rcases x with _ | a
  · trivial
  rcases y with _ | b
  · exact hxy.elim
  rcases z with _ | c
  · exact hyz.elim
  · exact Follows.trans hxy hyz

theorem newer (h : FollowsAt x y) : Newer TransitionRow.transitionVersion x y := by
  rcases x with _ | a
  · trivial
  rcases y with _ | b
  · exact h.elim
  cases h with
  | same => exact .inl rfl
  | resolved _ _ _ newer => exact .inr newer
  | replaced _ newer => exact .inr newer

end FollowsAt

/-! ## The stored transitions -/

/-- A transition is stored under its own kind and subscription, with the identity
that is made of what it says. -/
structure WellFormed (env : Env) (k : TransitionKey) (row : TransitionRow) : Prop where
  kind : row.transitionKind = k.transitionKind
  subscription : row.subscriptionIdDigest = k.subscriptionIdDigest
  identity : row.transitionIdentity = env.transitionIdentity (parts row)

def WellFormedTable (env : Env) (t : Table Key Row) : Prop :=
  ∀ (k : TransitionKey) row, t.row k.key = some row → WellFormed env k row

theorem WellFormed.of_terms {k : TransitionKey} {row row' : TransitionRow}
    (h : WellFormed env k row) (hterms : terms row' = terms row) : WellFormed env k row' where
  kind := (eq_of_terms TransitionRow.transitionKind (fun _ => rfl) hterms).trans h.kind
  subscription :=
    (eq_of_terms TransitionRow.subscriptionIdDigest (fun _ => rfl) hterms).trans h.subscription
  identity := by
    rw [eq_of_terms parts (fun _ => rfl) hterms,
      eq_of_terms TransitionRow.transitionIdentity (fun _ => rfl) hterms, h.identity]

/-- What others do meanwhile: transitions follow one another, and a grant is
replaced by one of a later plan version. -/
def transitions (env : Env) : Interference Key Row where
  Inv := WellFormedTable env
  Rely := fun t u => (∀ k : TransitionKey, FollowsAt (t.row k.key) (u.row k.key)) ∧
    ∀ parent beneficiary, Newer Relationships.GrantRow.planVersion
      (t.row (.account (.grant parent beneficiary))) (u.row (.account (.grant parent beneficiary)))
  refl := fun _ => ⟨fun _ => .refl _, fun _ _ => .refl _ _⟩
  trans := fun htu huv => ⟨fun k => (htu.1 k).trans (huv.1 k), fun parent beneficiary =>
    (htu.2 parent beneficiary).trans (huv.2 parent beneficiary)⟩

theorem transitions_newer {t u : Table Key Row} (h : (transitions env).Rely t u) :
    TransitionsNewer t u := fun k => (h.1 k).newer

/-! ## One commit -/

section

variable {c : TransitionCall} {t t' : Table Key Row}

theorem isOpen_expectedStatus {r : ApplyRequest} {row : TransitionRow}
    (h : row.status = r.expectedStatus) : IsOpen row := by
  unfold ApplyRequest.expectedStatus at h
  split at h
  · exact .inl h
  · exact .inr h

/-- What a commit makes of the transition under one key; the others stay. -/
structure Writes (env : Env) (t t' : Table Key Row) (k : TransitionKey) (row : TransitionRow) :
    Prop where
  written : t'.row k.key = some row
  follows : FollowsAt (t.row k.key) (some row)
  formed : WellFormedTable env t → WellFormed env k row
  others : ∀ k' : TransitionKey, k' ≠ k → t'.row k'.key = t.row k'.key

theorem Writes.wellFormed {k : TransitionKey} {row : TransitionRow} (h : Writes env t t' k row)
    (hformed : WellFormedTable env t) : WellFormedTable env t' := by
  intro k' row' hrow'
  by_cases hk : k' = k
  · subst hk
    cases h.written.symm.trans hrow'
    exact h.formed hformed
  · exact hformed k' row' ((h.others k' hk).symm.trans hrow')

theorem Writes.followsAt {k : TransitionKey} {row : TransitionRow} (h : Writes env t t' k row)
    (k' : TransitionKey) : FollowsAt (t.row k'.key) (t'.row k'.key) := by
  by_cases hk : k' = k
  · subst hk
    rw [h.written]
    exact h.follows
  · rw [h.others k' hk]
    exact .refl _

theorem ScheduleRequest.replaces {r : ScheduleRequest} {previous : TransitionRow}
    (h : r.refused env previous = none) : previous.planVersion < r.planVersion := by
  unfold refused at h
  split at h
  · cases h
  split at h
  · cases h
  rename_i hconflict
  exact not_le.mp fun hle => hconflict (.inr (.inl hle))

theorem GraceRequest.replaces {r : GraceRequest} {previous : TransitionRow}
    (h : r.refused previous = none) : previous.planVersion < r.planVersion := by
  unfold refused at h
  split at h
  · cases h
  split at h
  · cases h
  rename_i hne
  split at h
  · cases h
  rename_i hconflict
  exact lt_of_le_of_ne (not_lt.mp fun hlt => hconflict (.inl hlt)) hne

theorem writes_put {k : TransitionKey} {item : TransitionRow} {previous : Option TransitionRow}
    (hstored : t.row k.key = previous) (hfollows : FollowsAt previous (some item))
    (hformed : WellFormedTable env t → WellFormed env k item) :
    Writes env t (t.apply [transitionPut k item previous]) k item where
  written := by rw [transitionPut_apply, Table.row_set_self]
  follows := by rwa [hstored]
  formed := hformed
  others := fun k' hk => by
    rw [transitionPut_apply, Table.row_set_of_ne _ _ fun he => hk (TransitionKey.key_inj.mp he)]

/-- A new transition follows the stored one, whose plan version is lower. -/
theorem followsAt_replaced {previous : Option TransitionRow} {item : TransitionRow}
    (hversion : ∀ row, previous = some row → row.transitionVersion < item.transitionVersion)
    (hlater : ∀ row, previous = some row → row.planVersion < item.planVersion) :
    FollowsAt previous (some item) := by
  cases previous with
  | none => trivial
  | some row => exact .replaced item (hversion row rfl) (hlater row rfl)

/-- Every commit writes one transition. -/
theorem TransitionCall.Move.writes {I : Interference Key Row} (h : c.Move env I t t') :
    ∃ k row, Writes env t t' k row := by
  obtain ⟨ops, htransaction, hadmits, rfl⟩ := h
  cases htransaction with
  | scheduled r beneficiaries version checked replaces next =>
      refine ⟨r.key, _, writes_put rfl (followsAt_replaced
        (fun row hrow => lt_of_nextTransitionVersion next hrow) fun row hrow => ?_)
        fun _ => ⟨rfl, rfl, rfl⟩⟩
      rw [hrow] at replaces
      exact r.replaces replaces
  | graceStarted r beneficiaries version checked replaces next =>
      refine ⟨r.key, _, writes_put rfl (followsAt_replaced
        (fun row hrow => lt_of_nextTransitionVersion next hrow) fun row hrow => ?_)
        fun _ => ⟨rfl, rfl, rfl⟩⟩
      rw [hrow] at replaces
      exact r.replaces replaces
  | graceCleared r previous version stored identity status next =>
      exact ⟨r.key, _, writes_put stored
        (.resolved _ (.inr status) (.inr rfl) (lt_of_nextTransitionVersion next rfl) rfl)
        fun hformed => (hformed _ _ stored).of_terms rfl⟩
  | applied r previous beneficiaries grants version stored identity status due checked next accepted =>
      refine ⟨r.key, r.appliedItem previous version, ApplyRequest.row_apply hadmits, ?_,
        fun hformed => (hformed _ _ stored).of_terms rfl, fun k hk => ?_⟩
      · rw [stored]
        exact .resolved _ (isOpen_expectedStatus status) (.inl rfl)
          (lt_of_nextTransitionVersion next rfl) rfl
      · exact r.row_apply_of_other accepted (fun he => hk (TransitionKey.key_inj.mp he))
          (fun _ _ he => by cases he) (fun _ _ _ _ _ he => by cases he)

/-! ## The grants of an application -/

/-- The transition is due and open, and is applied together with all its grants. -/
structure Applies (env : Env) (r : ApplyRequest) (previous : TransitionRow)
    (t t' : Table Key Row) : Prop where
  stored : t.row r.key.key = some previous
  identity : previous.transitionIdentity = r.transitionIdentity
  wasOpen : IsOpen previous
  due : previous.effectiveAt.instant ≤ r.now.instant
  applied : ∃ version, t'.row r.key.key = some (r.appliedItem previous version)
  /-- Every grant is replaced, and its values are retained. -/
  grants : ∀ beneficiary ∈ previous.beneficiaryIds, ∃ grant,
    t.row (.account (.grant r.parentId beneficiary)) = some grant ∧
      grant.planVersion < previous.planVersion ∧
      t'.row (.account (.grant r.parentId beneficiary)) =
        some (r.updatedGrant env previous grant) ∧
      t'.row (.grantHistory r.parentId beneficiary grant.grantVersion) =
        some (grantHistoryItem grant previous)
  otherGrants : ∀ parent beneficiary,
    t'.row (.account (.grant parent beneficiary)) ≠ t.row (.account (.grant parent beneficiary)) →
      parent = r.parentId ∧ beneficiary ∈ previous.beneficiaryIds
  otherHistory : ∀ parent beneficiary version,
    t'.row (.grantHistory parent beneficiary version) ≠
        t.row (.grantHistory parent beneficiary version) →
      parent = r.parentId ∧ beneficiary ∈ previous.beneficiaryIds ∧
        ∃ grant, t.row (.account (.grant parent beneficiary)) = some grant ∧
          version = grant.grantVersion

/-- No grant is replaced, and none is retained. -/
structure KeepsGrants (t t' : Table Key Row) : Prop where
  grants : ∀ parent beneficiary, t'.row (.account (.grant parent beneficiary)) =
    t.row (.account (.grant parent beneficiary))
  history : ∀ parent beneficiary version, t'.row (.grantHistory parent beneficiary version) =
    t.row (.grantHistory parent beneficiary version)

/-- Meanwhile grants have only got later plan versions, so the one that an
application finds is the one that it has read. -/
theorem ApplyRequest.Replaces.stored_eq {r : ApplyRequest} {previous : TransitionRow}
    {beneficiary : String} {grant stored : Relationships.GrantRow}
    (h : r.Replaces env previous beneficiary grant stored t t')
    (hseen : (transitions env).Seen (.account (.grant r.parentId beneficiary)) (some grant) t) :
    stored = grant := by
  obtain ⟨u, -, hread, hrely⟩ := hseen
  have hnewer := hrely.2 r.parentId beneficiary
  rw [hread, h.found] at hnewer
  obtain ⟨-, -, hplan, -⟩ := of_decide_eq_true h.condition
  exact hnewer.eq_of_version hplan

theorem keepsGrants_put (k : TransitionKey) (item : TransitionRow)
    (previous : Option TransitionRow) : KeepsGrants t (t.apply [transitionPut k item previous]) where
  grants := fun _ _ => by rw [transitionPut_apply, Table.row_set_of_ne _ _ (by simp)]
  history := fun _ _ _ => by rw [transitionPut_apply, Table.row_set_of_ne _ _ (by simp)]

/-- A commit applies a transition as a whole, or keeps all grants. -/
theorem TransitionCall.Move.applies (h : c.Move env (transitions env) t t') :
    KeepsGrants t t' ∨ ∃ r previous, c = .applyDue r ∧ Applies env r previous t t' := by
  obtain ⟨ops, htransaction, hadmits, rfl⟩ := h
  cases htransaction with
  | scheduled | graceStarted | graceCleared => exact .inl (keepsGrants_put _ _ _)
  | applied r previous beneficiaries grants version stored identity status due checked next accepted =>
      have hmem : ∀ {b}, b ∈ beneficiaries ↔ b ∈ previous.beneficiaryIds :=
        (transitionBeneficiaries_perm checked).mem_iff
      refine .inr ⟨r, previous, rfl, stored, identity, isOpen_expectedStatus status, due,
        ⟨version, ApplyRequest.row_apply hadmits⟩, fun beneficiary hbeneficiary => ?_,
        fun parent beneficiary hne => ?_, fun parent beneficiary number hne => ?_⟩
      · obtain ⟨grant, hgrant, hdue, hseen⟩ := accepted.exists_due (hmem.mpr hbeneficiary)
        obtain ⟨found, hreplaces⟩ := r.replaces hadmits hgrant hdue
        cases hreplaces.stored_eq hseen
        exact ⟨grant, hreplaces.found, hdue.older, hreplaces.updated, hreplaces.retained⟩
      · by_contra hother
        refine hne (r.row_apply_of_other accepted (fun he => by cases he)
          (fun b hb he => ?_) (fun _ _ _ _ _ he => by cases he))
        cases he
        exact hother ⟨rfl, hmem.mp hb⟩
      · by_contra hother
        refine hne (r.row_apply_of_other accepted (fun he => by cases he)
          (fun _ _ he => by cases he) fun b hb grant hgrant hdue he => ?_)
        cases he
        obtain ⟨found, hreplaces⟩ := r.replaces hadmits hgrant hdue
        obtain ⟨-, hversion, -⟩ := of_decide_eq_true hreplaces.condition
        exact hother ⟨rfl, hmem.mp hb, found, hreplaces.found, hversion.symm⟩

theorem TransitionCall.Move.rely (h : c.Move env (transitions env) t t') :
    (transitions env).Rely t t' := by
  obtain ⟨k, row, hwrites⟩ := h.writes
  refine ⟨hwrites.followsAt, fun parent beneficiary => ?_⟩
  rcases h.applies with hkeeps | ⟨r, previous, -, happlies⟩
  · rw [hkeeps.grants]
    exact .refl _ _
  by_cases hsame : t'.row (.account (.grant parent beneficiary)) =
      t.row (.account (.grant parent beneficiary))
  · rw [hsame]
    exact .refl _ _
  · obtain ⟨rfl, hmem⟩ := happlies.otherGrants parent beneficiary hsame
    obtain ⟨grant, hgrant, holder, hupdated, -⟩ := happlies.grants beneficiary hmem
    rw [hgrant, hupdated]
    refine .inr ?_
    rwa [(r.updatedGrant_versions _ previous grant).2.1]

end

/-! ## Every run -/

/-- The calls on the transitions, and other code that leaves grants and
transitions alone. -/
def transitionService (env : Env) (faults : Faults) :
    Service Key Row TransitionCall (Except Failure PaidTransitionResult) where
  body := TransitionCall.body env
  mayStart := fun _ _ => True
  drift := fun t t' => t'.AgreesOn IsEntitlement t
  faults := faults

def transitionContract (env : Env) (faults : Faults) : Contract (transitionService env faults) where
  toInterference := transitions env
  Move := TransitionCall.Move env (transitions env)
  move_inv := fun hinv h => by
    obtain ⟨k, row, hwrites⟩ := h.writes
    exact hwrites.wellFormed hinv
  move_rely := fun _ h => h.rely
  drift_inv := fun {t t'} hinv h k row hrow => hinv k row ((h k.key trivial).symm.trans hrow)
  drift_rely := fun {t t'} _ h => by
    refine ⟨fun k => ?_, fun parent beneficiary => ?_⟩
    · rw [h k.key trivial]
      exact .refl _
    · rw [h (.account (.grant parent beneficiary)) trivial]
      exact .refl _ _

/-- What holds of every run. Two rows of one identity have the same parts, unless
their digests collide. -/
structure ResolvesOnce (env : Env)
    (s : State Key Row TransitionCall (Except Failure PaidTransitionResult)) : Prop where
  /-- A transition that was ever resolved is as it was, while its identity is stored. -/
  final : ∀ e ∈ s.history, ∀ u, u = e.before ∨ u = e.after → ∀ (k : TransitionKey) row,
    u.row k.key = some row → IsResolved row → ∃ row', s.table.row k.key = some row' ∧
      (row'.transitionIdentity = row.transitionIdentity → row' = row ∨ Collide env row row')
  /-- A deadline stands as long as its plan version. -/
  deadline : ∀ e ∈ s.history, ∀ u, u = e.before ∨ u = e.after → ∀ (k : TransitionKey) row,
    u.row k.key = some row → ∃ row', s.table.row k.key = some row' ∧
      (row'.planVersion = row.planVersion →
        row'.effectiveAt = row.effectiveAt ∧ row'.graceExpiresAt = row.graceExpiresAt)
  commits : ∀ e ∈ s.history, KeepsGrants e.before e.after ∨
    ∃ r previous, e.call = .applyDue r ∧ Applies env r previous e.before e.after
  answers : ∀ r ∈ s.returned, r.call.Owes r.result (s.commits r.id) r.table

theorem Follows.final_of_identity {k : TransitionKey} {row row' : TransitionRow}
    (h : Follows row row') (hresolved : IsResolved row) (hrow : WellFormed env k row)
    (hrow' : WellFormed env k row') (hidentity : row'.transitionIdentity = row.transitionIdentity) :
    row' = row ∨ Collide env row row' := by
  by_cases hparts : parts row = parts row'
  · refine .inl (h.final hresolved ?_)
    have hkind : row'.transitionKind = row.transitionKind := hrow'.kind.trans hrow.kind.symm
    unfold parts at hparts
    rw [hkind] at hparts
    split at hparts <;> simp_all
  · exact .inr ⟨hparts, by rw [← hrow.identity, ← hrow'.identity, hidentity]⟩

/-- Renewal grace and period-end transitions resolve once. -/
theorem transitions_resolve_once {faults : Faults} {t : Table Key Row}
    {s : State Key Row TransitionCall (Except Failure PaidTransitionResult)}
    (hstart : WellFormedTable env t) (h : Reachable (transitionService env faults) t s) :
    ResolvesOnce env s := by
  have hs : Sound (transitionContract env faults) (fun _ => TransitionCall.Owes) s :=
    h.sound hstart fun c _ _ => c.body_safe transitions_newer
  have hfollows : ∀ e ∈ s.history, ∀ u, u = e.before ∨ u = e.after → WellFormedTable env u ∧
      ∀ (k : TransitionKey) row, u.row k.key = some row →
        ∃ row', s.table.row k.key = some row' ∧ Follows row row' := by
    intro e he u hu
    obtain ⟨hinv, hmove, hrely, -⟩ := hs.history e he
    have hformed : WellFormedTable env u := by
      rcases hu with rfl | rfl
      · exact hinv
      · exact (transitionContract env faults).move_inv hinv hmove
    have hlater : (transitions env).Rely u s.table := by
      rcases hu with rfl | rfl
      · exact (transitions env).trans hmove.rely hrely
      · exact hrely
    refine ⟨hformed, fun k row hrow => ?_⟩
    have hfollows := hlater.1 k
    rw [hrow] at hfollows
    cases hrow' : s.table.row k.key with
    | none =>
        rw [hrow'] at hfollows
        exact hfollows.elim
    | some row' =>
        rw [hrow'] at hfollows
        exact ⟨row', rfl, hfollows⟩
  refine ⟨fun e he u hu k row hrow hresolved => ?_, fun e he u hu k row hrow => ?_,
    fun e he => (hs.history e he).2.1.applies, fun r hr => (hs.returned r hr).1⟩
  · obtain ⟨hformed, hlater⟩ := hfollows e he u hu
    obtain ⟨row', hrow', hrows⟩ := hlater k row hrow
    exact ⟨row', hrow', hrows.final_of_identity hresolved (hformed k row hrow)
      (hs.inv k row' hrow')⟩
  · obtain ⟨row', hrow', hrows⟩ := (hfollows e he u hu).2 k row hrow
    refine ⟨row', hrow', fun hplan => ?_⟩
    have hterms := hrows.terms hplan
    exact ⟨eq_of_terms TransitionRow.effectiveAt (fun _ => rfl) hterms,
      eq_of_terms TransitionRow.graceExpiresAt (fun _ => rfl) hterms⟩

/-! ## A recovery after the deadline -/

namespace GraceSample

def sampleEnv : Env where
  transitionIdentity := fun
    | .periodEnd _ _ _ _ _ => .ofDigit 'a' isLowerHex_a
    | .renewalGrace _ _ _ _ => .ofDigit 'b' isLowerHex_b
  isoformat := fun time => toString time.reading

def subscription : Sha256 := .ofDigit '2' isLowerHex_2

def grant : Relationships.GrantRow where
  entityType := "beneficiary_grant"
  schemaVersion := Relationships.GRANT_SCHEMA_VERSION
  parentId := "parent"
  beneficiaryId := "student"
  grantStatus := "active"
  commandId := "command"
  subscriptionIdDigest := subscription
  grantVersion := 1
  planId := .student
  planVersion := 1
  allowanceVersion := 1
  activationVersion := 1
  activatedAt := "2026-03-01T00:00:00+00:00"
  relationshipSource := RELATIONSHIP_SOURCE_LINK
  parentProfileVersion := 1
  parentAccountFenceGeneration := 1
  studentProfileVersion := 1
  studentAccountFenceGeneration := 1

def start : Table Key Row := Table.empty.set (.account (.grant "parent" "student")) (some grant)

theorem start_wellFormed : WellFormedTable sampleEnv start := by
  intro k row hrow
  rw [start, Table.row_set_of_ne _ _ (by simp)] at hrow
  cases hrow

abbrev Run := State Key Row TransitionCall (Except Failure PaidTransitionResult)

def solo (c : TransitionCall) (s : Run) : Run := s.solo (transitionService sampleEnv .strongReads) c []

theorem solo_reachable {c : TransitionCall} {s : Run}
    (h : Reachable (transitionService sampleEnv .strongReads) start s) :
    Reachable (transitionService sampleEnv .strongReads) start (solo c s) :=
  h.trans (State.solo_steps trivial trivial trivial [])

def failedAt : Datetime := ⟨0, some 0⟩

def startGrace : TransitionCall := .startGrace {
  parentId := "parent"
  beneficiaryIds := ["student"]
  subscriptionIdDigest := subscription
  planId := .student
  planVersion := 2
  failureIdentity := "invoice"
  failedAt := failedAt }

def applyDue : TransitionCall := .applyDue {
  parentId := "parent"
  subscriptionIdDigest := subscription
  transitionKind := .renewalGrace
  transitionIdentity := .ofDigit 'b' isLowerHex_b
  now := ⟨RENEWAL_GRACE_DURATION, some 0⟩ }

def recovery : ClearRequest where
  parentId := "parent"
  subscriptionIdDigest := subscription
  transitionIdentity := .ofDigit 'b' isLowerHex_b
  recoveredAt := ⟨RENEWAL_GRACE_DURATION, some 0⟩

/-- The deadline is applied before the recovery arrives. -/
def recovered : Run := solo (.clearGrace recovery) (solo applyDue (solo startGrace (.initial start)))

theorem recovered_reachable :
    Reachable (transitionService sampleEnv .strongReads) start recovered :=
  solo_reachable (solo_reachable (solo_reachable .refl))

/-- What the recovery was answered, and the status that it found. -/
def answered : Option (PaidTransitionDisposition × TransitionStatus) :=
  recovered.returned.head?.bind fun r =>
    match r.call, r.result with
    | .clearGrace c, .ok result =>
      (r.table.row c.key.key).map fun row => (result.disposition, row.status)
    | _, _ => none

end GraceSample

/-- A recovery is answered with `alreadyApplied` where the grace is stored as
applied. -/
theorem recovery_finds_applied :
    Reachable (transitionService GraceSample.sampleEnv .strongReads) GraceSample.start
        GraceSample.recovered ∧
      ¬ ∀ r ∈ GraceSample.recovered.returned, ∀ c, r.call = .clearGrace c →
        ∀ result, r.result = .ok result →
          (result.disposition = .graceCleared ∨ result.disposition = .alreadyApplied) →
            ∃ row, r.table.row c.key.key = some row ∧ row.status = .cleared := by
  refine ⟨GraceSample.recovered_reachable, fun h => ?_⟩
  have hanswered : GraceSample.answered = some (.alreadyApplied, .applied) := by decide +kernel
  obtain ⟨r, hr, hmatch⟩ := Option.bind_eq_some_iff.mp hanswered
  have hr := List.mem_of_mem_head? hr
  split at hmatch
  · rename_i c result hcall hresult
    obtain ⟨row, hrow, hpair⟩ := Option.map_eq_some_iff.mp hmatch
    obtain ⟨hdisposition, hstatus⟩ := Prod.mk.inj hpair
    obtain ⟨row', hrow', hcleared⟩ := h r hr c hcall result hresult (.inr hdisposition)
    cases hrow.symm.trans hrow'
    cases hstatus.symm.trans hcleared
  · cases hmatch

theorem transitions_resolve_once_sample :
    ResolvesOnce GraceSample.sampleEnv GraceSample.recovered :=
  transitions_resolve_once GraceSample.start_wellFormed GraceSample.recovered_reachable

end Stoa.PaidEntitlement
