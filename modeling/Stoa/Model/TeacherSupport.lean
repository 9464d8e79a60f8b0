import Stoa.Model.Relationships
import Stoa.Model.WeeklyCounter
import Stoa.Store.Interleaving

/-! # Teacher-support cases

Admitting a case under a weekly limit, giving one back, and setting the figure
a student is assigned. -/

namespace Stoa.TeacherSupport

open RowStore Relationships

inductive CaseKind where
  | question
  | conversation
  deriving DecidableEq, Repr

def CaseKind.text : CaseKind → String
  | .question => "question"
  | .conversation => "conversation"

/-! ## Rows -/

inductive Key where
  | account (key : Relationships.Key)
  | assigned (student : Text)
  | receipt (identity : Sha256)
  | counter (scope : Sha256) (week : String)
  /-- A row of the callers, who write their case in the same transaction. -/
  | other (name : String)
  deriving DecidableEq

/-- The rows that only this service writes. -/
def Key.IsOwn : Key → Prop
  | .account _ => False
  | .assigned _ => True
  | .receipt _ => True
  | .counter _ _ => True
  | .other _ => False

/-- The figure an administrator has set for a student. -/
structure AssignedRow where
  entityType : String
  schemaVersion : String
  studentId : Text
  weeklyCases : ℤ
  stateVersion : ℤ
  updatedAt : Instant
  updatedBy : String

structure ReceiptRow where
  entityType : String
  schemaVersion : String
  supportCaseId : Text
  caseKind : CaseKind
  effectId : Sha256
  beneficiaryId : Text
  /-- Absent where the allowance comes from no parent. -/
  parentId : Option String
  planId : BillingPlanId
  planVersion : ℤ
  allowanceVersion : ℤ
  grantId : Sha256
  supportScope : TeacherSupportScope
  supportScopeId : Sha256
  weekIdentity : String
  windowStart : Instant
  windowEnd : Instant
  postAdmissionCount : ℤ
  limit : ℤ
  stateVersion : ℤ
  admittedAt : Instant
  refundedAt : Option Instant
  refundReason : Option String

/-- The service's own attributes of a case counter. -/
structure CaseFields where
  supportScope : TeacherSupportScope
  planId : BillingPlanId
  planVersion : ℤ
  allowanceVersion : ℤ
  grantId : Sha256
  limit : ℤ

abbrev Row : Key → Type
  | .account key => Relationships.Row key
  | .assigned _ => AssignedRow
  | .receipt _ => ReceiptRow
  | .counter _ _ => CounterRow CaseField CaseFields
  | .other _ => String

/-- The relationship rows of the table. -/
def accounts : Part Relationships.Key Relationships.Row Key Row where
  key := .account
  row := fun _ row => row
  restrict
    | .account key, row => some ⟨key, row⟩
    | .assigned _, _ => none
    | .receipt _, _ => none
    | .counter _ _, _ => none
    | .other _, _ => none
  covers
    | .account key => some key
    | _ => none

def ADMISSION_SCHEMA_VERSION : String := "teacher_support_admission.v1"

def ASSIGNED_ALLOWANCE_SCHEMA_VERSION : String := "teacher_support_assigned_allowance.v1"

/-- What an assigned student gets each week when nobody has said otherwise. -/
def ASSIGNED_WEEKLY_TEACHER_SUPPORT_CASES : ℤ := 7

/-- A ceiling on what can be stored. -/
def ASSIGNED_WEEKLY_CASES_MAXIMUM : ℤ := 200

/-- What the service takes from outside: the Zurich time zone, and the digest of
texts under a domain. -/
structure Env where
  zone : Zone
  domainDigest : String → List String → Sha256

def Env.caseIdentity (env : Env) (kind : CaseKind) (case : Text) : Sha256 :=
  env.domainDigest "stoa.teacher-support.case.v1" [kind.text, case.val]

/-! ## Results -/

inductive TeacherSupportAdmissionDisposition where
  | admitted
  | replayed
  | planDenied
  | limitExceeded
  | idempotencyConflict
  | retryable
  deriving DecidableEq, Repr

structure TeacherSupportCaseAdmission where
  supportCaseId : Text
  supportScopeId : Sha256
  beneficiaryId : Text
  planId : BillingPlanId
  weekIdentity : String
  windowStart : Instant
  windowEnd : Instant
  postAdmissionCount : ℤ
  limit : ℤ
  admittedAt : Instant

structure TeacherSupportAdmissionResult where
  disposition : TeacherSupportAdmissionDisposition
  admission : Option TeacherSupportCaseAdmission

inductive TeacherSupportRefundDisposition where
  | refunded
  | alreadyRefunded
  | notAdmitted
  | idempotencyConflict
  | retryable
  deriving DecidableEq, Repr

structure TeacherSupportRefundResult where
  disposition : TeacherSupportRefundDisposition
  weekIdentity : Option String

inductive AssignedCasesWrite where
  | written (stateVersion : ℤ)
  /-- A version conflict, or the table's own exception. The error's code tells
  which; no row does. -/
  | unwritten
  deriving DecidableEq, Repr

/-! ## Scopes -/

/-- Where a student's allowance comes from. -/
inductive SupportSource where
  | paidGrant (parent : String) (grant : GrantRow)
  | assigned (studentProfileVersion : ℤ) (assignedAllowanceVersion : Option ℤ)

structure ResolvedScope where
  beneficiary : Text
  source : SupportSource
  planId : BillingPlanId
  planVersion : ℤ
  allowanceVersion : ℤ
  grantVersion : ℤ
  subscriptionIdDigest : Sha256
  grantId : Sha256
  supportScope : TeacherSupportScope
  supportScopeId : Sha256
  limit : ℤ

def ResolvedScope.isAssigned (scope : ResolvedScope) : Bool :=
  match scope.source with
  | .paidGrant _ _ => false
  | .assigned _ _ => true

/-- The figure to use for a student, read off their own row. -/
def assignedWeeklyCases : Option AssignedRow → ℤ
  | none => ASSIGNED_WEEKLY_TEACHER_SUPPORT_CASES
  | some row =>
      if row.weeklyCases < 0 ∨ row.weeklyCases > ASSIGNED_WEEKLY_CASES_MAXIMUM then
        ASSIGNED_WEEKLY_TEACHER_SUPPORT_CASES
      else row.weeklyCases

variable (env : Env)

def activeStudent (beneficiary : Text) : Find (Option ProfileRow) := do
  try
    let student ← getUser beneficiary.val
    return student.filter fun student =>
      student.userId = beneficiary.val ∧ student.role = "student" ∧
        student.accountStatus = some "active"
  catch _ => throw (.dependencyFailure "student entitlement is unavailable")

/-- The first of these parents that actually holds a grant. -/
def firstGrant (beneficiary : Text) : List Verdict → Find (Option (String × GrantRow))
  | [] => return none
  | verdict :: verdicts => do
    match ← getActiveBeneficiaryGrant verdict.parentId beneficiary.val with
    | some grant => return some (verdict.parentId, grant)
    | none => firstGrant beneficiary verdicts

def grantingParent (beneficiary : Text) : Find (Option (String × GrantRow)) := do
  try
    firstGrant beneficiary (← beneficiaryParents beneficiary.val)
  catch _ => throw (.dependencyFailure "paid grant resolution is unavailable")

/-- What a grant's scope is named after: a shared one leaves the student out. -/
def scopeValues (beneficiary : Text) (parent : String) (grant : GrantRow)
    (supportScope : TeacherSupportScope) : List String :=
  if supportScope = .perBeneficiary then
    [parent, beneficiary.val, grant.subscriptionIdDigest.val, toString grant.grantVersion,
      toString grant.planVersion]
  else [parent, grant.subscriptionIdDigest.val, toString grant.planVersion]

def grantScope (beneficiary : Text) (parent : String) (grant : GrantRow)
    (budget : PlanAllowanceBudget) : ResolvedScope where
  beneficiary := beneficiary
  source := .paidGrant parent grant
  planId := grant.planId
  planVersion := grant.planVersion
  allowanceVersion := grant.allowanceVersion
  grantVersion := grant.grantVersion
  subscriptionIdDigest := grant.subscriptionIdDigest
  grantId := env.domainDigest "stoa.teacher-support.grant.v1"
    (scopeValues beneficiary parent grant budget.teacherSupportScope)
  supportScope := budget.teacherSupportScope
  supportScopeId := env.domainDigest "stoa.teacher-support.scope.v1"
    (budget.teacherSupportScope.value ::
      scopeValues beneficiary parent grant budget.teacherSupportScope)
  limit := budget.teacherSupportCases.val

/-- The scope that a parent's grant gives, if it can be read as one. -/
def paidScope (beneficiary : Text) (parent : String) (grant : GrantRow) :
    Option ResolvedScope :=
  if grant.planVersion ≤ 0 ∨ grant.allowanceVersion ≤ 0 ∨ grant.grantVersion ≤ 0 then none
  else if grant.parentId ≠ parent ∨ grant.beneficiaryId ≠ beneficiary.val ∨
      grant.grantStatus ≠ "active" then none
  else
    match planAllowanceBudget grant.planId grant.allowanceVersion with
    | .error _ => none
    | .ok budget =>
      if budget.teacherSupportScope = .none then none
      else some (grantScope env beneficiary parent grant budget)

/-- The active student, and the scope a parent has bought for them, if any. -/
def findPaidScope (beneficiary : Text) : Find (Option (ProfileRow × Option ResolvedScope)) := do
  match ← activeStudent beneficiary with
  | none => return none
  | some student =>
    let granted ← grantingParent beneficiary
    return some (student, granted.bind fun found => paidScope env beneficiary found.1 found.2)

/-- The version of the figure that was raised, where one was. -/
def raisedVersion : Option AssignedRow → Except Failure (Option ℤ)
  | none => .ok none
  | some row =>
    if row.entityType ≠ "teacher_support_assigned_allowance" ∨
        row.schemaVersion ≠ ASSIGNED_ALLOWANCE_SCHEMA_VERSION then
      .error (.dependencyFailure "assigned allowance row is malformed")
    else if row.stateVersion ≤ 0 then .error (.valueError "state_version is invalid")
    else .ok (some row.stateVersion)

/-- The allowance a student has by being a student here, with no parent in it. -/
def assignedScope (beneficiary : Text) (profileVersion : ℤ) (raised : Option AssignedRow) :
    Except Failure (Option ResolvedScope) := do
  let allowanceVersion ← raisedVersion raised
  let limit := assignedWeeklyCases raised
  if limit ≤ 0 then return none
  else return some {
    beneficiary := beneficiary
    source := .assigned profileVersion allowanceVersion
    planId := .freeTrial
    planVersion := 1
    allowanceVersion := 1
    grantVersion := 1
    subscriptionIdDigest := env.domainDigest "stoa.teacher-support.assigned.v1" [beneficiary.val]
    grantId := env.domainDigest "stoa.teacher-support.assigned-grant.v1" [beneficiary.val]
    supportScope := .perBeneficiary
    -- Stable per student: raising the figure does not start the week over.
    supportScopeId := env.domainDigest "stoa.teacher-support.scope.v1"
      ["assigned", beneficiary.val]
    limit := limit }

/-- `_resolve_scope`: a parent's purchase where there is one, else the figure the
student was assigned. -/
def resolveScope {α : Type} (beneficiary : Text)
    (next : Except Failure (Option ResolvedScope) → Program Key Row α) : Program Key Row α :=
  (findPaidScope env beneficiary).run.run accounts fun
    | .error failure => next (.error failure)
    | .ok none => next (.ok none)
    | .ok (some (_, some scope)) => next (.ok (some scope))
    | .ok (some (student, none)) =>
      match student.version with
      | none => next (.ok none)
      | some version =>
        if version ≤ 0 then next (.ok none)
        else
          .read (.assigned beneficiary) fun
            | none => next (.error (.dependencyFailure "teacher-support persistence is unavailable"))
            | some raised => next (assignedScope env beneficiary version raised)

/-! ## Conditions of an admission -/

def grantCondition (scope : ResolvedScope) (parent : String) (stored : Option GrantRow) : Bool :=
  stored.any fun grant =>
    grant.grantStatus = "active" ∧ grant.parentId = parent ∧
      grant.beneficiaryId = scope.beneficiary.val ∧ grant.planId = scope.planId ∧
      grant.planVersion = scope.planVersion ∧ grant.allowanceVersion = scope.allowanceVersion ∧
      grant.grantVersion = scope.grantVersion ∧
      grant.subscriptionIdDigest = scope.subscriptionIdDigest

def profileCondition (role : String) (version : ℤ) (stored : Option ProfileRow) : Bool :=
  stored.any fun profile =>
    profile.role = role ∧ profile.accountStatus = some "active" ∧ profile.version = some version

def linkCondition (scope : ResolvedScope) (parent : String) (stored : Option LinkRow) : Bool :=
  stored.any fun link =>
    link.entityType = ENTITY_TYPE ∧ link.parentId = parent ∧
      link.studentId = scope.beneficiary.val ∧
      link.relationship = some BENEFICIARY_RELATIONSHIP ∧ link.status = STATUS_ACTIVE

/-- The figure that was read is still the one in force. -/
def assignedCondition (scope : ResolvedScope) (version : Option ℤ)
    (stored : Option AssignedRow) : Bool :=
  match version with
  | some version => stored.any fun row =>
      row.stateVersion = version ∧ row.weeklyCases = scope.limit
  | none => stored.isNone

def positiveInteger (value : ℤ) (field : String) : Except Failure ℤ :=
  if 0 < value then .ok value else .error (.valueError (field ++ " is invalid"))

def grantConditionOperations (scope : ResolvedScope) :
    Except Failure (List (Write Key Row)) := do
  match scope.source with
  | .assigned profileVersion allowanceVersion =>
    return [
      .check (.account (.profile scope.beneficiary.val)) (profileCondition "student" profileVersion),
      .check (.assigned scope.beneficiary) (assignedCondition scope allowanceVersion)]
  | .paidGrant parent grant =>
    let parentGeneration ← positiveInteger grant.parentAccountFenceGeneration
      "parent_account_fence_generation"
    let _ ← positiveInteger grant.studentAccountFenceGeneration "student_account_fence_generation"
    let parentVersion ← positiveInteger grant.parentProfileVersion "parent_profile_version"
    let studentVersion ← positiveInteger grant.studentProfileVersion "student_profile_version"
    return [
      .check (.account (.accountFence parent)) (activeFenceCondition (some parentGeneration)),
      .check (.account (.grant parent scope.beneficiary.val)) (grantCondition scope parent),
      .check (.account (.profile parent)) (profileCondition "parent" parentVersion),
      .check (.account (.profile scope.beneficiary.val)) (profileCondition "student" studentVersion),
      .check (.account (.parentSide parent scope.beneficiary.val)) (linkCondition scope parent),
      .check (.account (.studentSide scope.beneficiary.val parent)) (linkCondition scope parent)]

/-! ## Reading rows back -/

def admissionFromItem (item : ReceiptRow) : Except Failure TeacherSupportCaseAdmission :=
  if item.entityType ≠ "teacher_support_admission" ∨
      item.schemaVersion ≠ ADMISSION_SCHEMA_VERSION ∨ ¬ IsRequiredText 8 item.weekIdentity then
    .error (.dependencyFailure "teacher-support admission is malformed")
  else if item.postAdmissionCount < 0 then
    .error (.dependencyFailure "post_admission_count is malformed")
  else if item.limit ≤ 0 then
    .error (.dependencyFailure "teacher-support admission is malformed")
  else .ok {
    supportCaseId := item.supportCaseId
    supportScopeId := item.supportScopeId
    beneficiaryId := item.beneficiaryId
    planId := item.planId
    weekIdentity := item.weekIdentity
    windowStart := item.windowStart
    windowEnd := item.windowEnd
    postAdmissionCount := item.postAdmissionCount
    limit := item.limit
    admittedAt := item.admittedAt }

abbrev CaseCounter (scope : Sha256) (week : WeekFields) := Counter CASES scope.val week CaseFields

/-- `_read_counter`. A plan's figure is fixed; an assigned one may be raised or
lowered within the week. -/
def readCounter (scope : ResolvedScope) (week : WeekFields)
    (answer : Option (Option (CounterRow CaseField CaseFields))) :
    Except Failure (Option (CaseCounter scope.supportScopeId week)) :=
  match readBack CASES scope.supportScopeId.val week answer with
  | .error message => .error (.dependencyFailure message)
  | .ok none => .ok none
  | .ok (some counter) =>
    if counter.item.fields.all fun fields =>
        fields.supportScope ≠ scope.supportScope ∨ fields.planId ≠ scope.planId ∨
          fields.planVersion ≠ scope.planVersion ∨
          fields.allowanceVersion ≠ scope.allowanceVersion ∨
          (¬ scope.isAssigned ∧ fields.limit ≠ scope.limit) then
      .error (.dependencyFailure "teacher-support counter is malformed")
    else if counter.item.counts .admittedCases > scope.limit ∧ ¬ scope.isAssigned then
      .error (.dependencyFailure "teacher-support counter is malformed")
    else .ok (some counter)

/-! ## Callers -/

/-- What a caller's callback commits around the operations it is handed. -/
structure Persist where
  before : List (Write Key Row)
  after : List (Write Key Row)
  foreign : ∀ w ∈ before ++ after, ¬ w.key.IsOwn

def Persist.operations (persist : Persist) (operations : List (Write Key Row)) :
    List (Write Key Row) :=
  persist.before ++ operations ++ persist.after

def CaseKind.ofText (text : String) : Except Failure CaseKind :=
  if text = "question" then .ok .question
  else if text = "conversation" then .ok .conversation
  else .error (.valueError "case_kind is invalid")

/-! ## Admitting a case -/

structure AdmitRequest where
  supportCaseId : String
  caseKind : String
  beneficiaryId : String
  persistCase : Persist
  observedAt : Instant

/-- The arguments of `admit_teacher_support_case` once they are checked. -/
structure AdmitCase where
  caseId : Text
  kind : CaseKind
  beneficiary : Text
  persist : Persist
  observed : Instant

def AdmitRequest.checked (r : AdmitRequest) : Except Failure AdmitCase := do
  let caseId ← requiredText r.supportCaseId "support_case_id"
  if ¬ IsRequiredText 20 r.caseKind then .error (.valueError "case_kind is invalid")
  else
    let beneficiary ← requiredText r.beneficiaryId "beneficiary_id"
    let kind ← CaseKind.ofText r.caseKind
    return { caseId, kind, beneficiary, persist := r.persistCase, observed := r.observedAt }

abbrev AdmissionAnswer := Except Failure TeacherSupportAdmissionResult

abbrev Attempt := Program Key Row (Option AdmissionAnswer)

/-- An attempt that returns. -/
def answer (disposition : TeacherSupportAdmissionDisposition) : Attempt :=
  .ret (some (.ok ⟨disposition, none⟩))

namespace AdmitCase

def receiptKey (v : AdmitCase) : Key := .receipt (env.caseIdentity v.kind v.caseId)

def classifyExisting (v : AdmitCase) (item : ReceiptRow) : TeacherSupportAdmissionResult :=
  match admissionFromItem item with
  | .error _ => ⟨.retryable, none⟩
  | .ok admission =>
    if admission.supportCaseId = v.caseId ∧ admission.beneficiaryId = v.beneficiary ∧
        item.caseKind = v.kind then ⟨.replayed, some admission⟩
    else ⟨.idempotencyConflict, none⟩

def receipt (v : AdmitCase) (week : WeekFields) (scope : ResolvedScope) (postCount : ℤ) :
    ReceiptRow where
  entityType := "teacher_support_admission"
  schemaVersion := ADMISSION_SCHEMA_VERSION
  supportCaseId := v.caseId
  caseKind := v.kind
  effectId := env.domainDigest "stoa.teacher-support.effect.v1"
    [v.kind.text, v.caseId.val, v.beneficiary.val]
  beneficiaryId := v.beneficiary
  parentId := match scope.source with
    | .paidGrant parent _ => if parent = "" then none else some parent
    | .assigned _ _ => none
  planId := scope.planId
  planVersion := scope.planVersion
  allowanceVersion := scope.allowanceVersion
  grantId := scope.grantId
  supportScope := scope.supportScope
  supportScopeId := scope.supportScopeId
  weekIdentity := week.identity
  windowStart := week.windowStart
  windowEnd := week.windowEnd
  postAdmissionCount := postCount
  limit := scope.limit
  stateVersion := 1
  admittedAt := v.observed
  refundedAt := none
  refundReason := none

/-- The receipt, the counter and the conditions that an admission commits. -/
structure Plan where
  receipt : ReceiptRow
  counter : CounterWrite CaseField CaseFields
  conditions : List (Write Key Row)

/-- What an attempt does with the counter it has read: return early, or write. -/
def plan (v : AdmitCase) (week : WeekFields) (scope : ResolvedScope)
    (counter : Option (CaseCounter scope.supportScopeId week)) : Except AdmissionAnswer Plan :=
  let admittedCases := previousCount counter .admittedCases
  if admittedCases ≥ scope.limit then .error (.ok ⟨.limitExceeded, none⟩)
  else
    match write CASES scope.supportScopeId.val week counter
        [(.admittedCases, admittedCases + 1)]
        (some {
          supportScope := scope.supportScope
          planId := scope.planId
          planVersion := scope.planVersion
          allowanceVersion := scope.allowanceVersion
          grantId := scope.grantId
          limit := scope.limit }) v.observed,
      grantConditionOperations scope with
    | .error failure, _ => .error (.error failure)
    | .ok _, .error failure => .error (.error failure)
    | .ok counter, .ok conditions =>
      .ok ⟨v.receipt env week scope (admittedCases + 1), counter, conditions⟩

def operations (v : AdmitCase) (week : WeekFields) (scope : ResolvedScope) (plan : Plan) :
    List (Write Key Row) :=
  v.persist.operations (plan.conditions ++
    [.putNew (.receipt (env.caseIdentity v.kind v.caseId)) plan.receipt,
      .put (.counter scope.supportScopeId week.identity) plan.counter.item plan.counter.condition])

/-- An attempt under the scope it has resolved. -/
def attemptIn (v : AdmitCase) (week : WeekFields) (scope : ResolvedScope) : Attempt :=
  .read (.receipt (env.caseIdentity v.kind v.caseId)) fun
    | none => answer .retryable
    | some (some existing) => .ret (some (.ok (v.classifyExisting existing)))
    | some none =>
      .read (.counter scope.supportScopeId week.identity) fun stored =>
        match readCounter scope week stored with
        | .error _ => answer .retryable
        | .ok counter =>
          match v.plan env week scope counter with
          | .error early => .ret (some early)
          | .ok plan =>
            .transact (v.operations env week scope plan) fun
              | true =>
                match admissionFromItem plan.receipt with
                | .error failure => .ret (some (.error failure))
                | .ok admission => .ret (some (.ok ⟨.admitted, some admission⟩))
              | false => .ret none

/-- The scope is resolved once for each attempt. -/
def attempt (v : AdmitCase) (week : WeekFields) : Attempt :=
  resolveScope env v.beneficiary fun
    | .error (.dependencyFailure _) => answer .retryable
    | .error failure => .ret (some (.error failure))
    | .ok none => answer .planDenied
    | .ok (some scope) => v.attemptIn env week scope

def run (v : AdmitCase) : Program Key Row AdmissionAnswer :=
  .read (.receipt (env.caseIdentity v.kind v.caseId)) fun
    | none => .ret (.ok ⟨.retryable, none⟩)
    | some (some existing) => .ret (.ok (v.classifyExisting existing))
    | some none =>
      match zurichWeek env.zone v.observed with
      | .error failure => .ret (.error failure)
      | .ok week => .retry (v.attempt env week.toWeekFields) (.ok ⟨.retryable, none⟩) 4

end AdmitCase

def admitTeacherSupportCase (r : AdmitRequest) : Program Key Row AdmissionAnswer :=
  match r.checked with
  | .error failure => .ret (.error failure)
  | .ok v => v.run env

/-! ## Giving a case back -/

structure RefundRequest where
  supportCaseId : String
  caseKind : String
  beneficiaryId : String
  reason : String
  persistRefund : Persist
  observedAt : Instant

/-- The arguments of `refund_teacher_support_case` once they are checked. -/
structure RefundCase where
  caseId : Text
  kind : CaseKind
  beneficiary : Text
  reason : String
  persist : Persist
  observed : Instant

def RefundRequest.checked (r : RefundRequest) : Except Failure RefundCase := do
  let caseId ← requiredText r.supportCaseId "support_case_id"
  if ¬ IsRequiredText 20 r.caseKind then .error (.valueError "case_kind is invalid")
  else
    let beneficiary ← requiredText r.beneficiaryId "beneficiary_id"
    if ¬ IsRequiredText 40 r.reason then .error (.valueError "reason is invalid")
    else
      let kind ← CaseKind.ofText r.caseKind
      return { caseId, kind, beneficiary, reason := r.reason, persist := r.persistRefund
               observed := r.observedAt }

abbrev RefundAnswer := Except Failure TeacherSupportRefundResult

namespace RefundCase

/-- The receipt marked as refunded, and the lowered counter of its week. -/
structure Plan where
  week : WeekFields
  receipt : ReceiptRow
  counter : CounterWrite CaseField CaseFields

/-- The week a receipt's case was taken from; the receipt's own, not the current one. -/
def receiptWeek (receipt : ReceiptRow) : Except Failure (ZurichWeek env.zone) := do
  let admission ← admissionFromItem receipt
  let _ ← positiveInteger receipt.stateVersion "state_version"
  let week ← zurichWeek env.zone admission.windowStart
  if week.identity ≠ admission.weekIdentity ∨ week.windowEnd ≠ admission.windowEnd then
    .error (.dependencyFailure "teacher-support receipt names no Zurich week")
  else return week

def refunded (v : RefundCase) (receipt : ReceiptRow) : ReceiptRow :=
  { receipt with
    refundedAt := some v.observed
    refundReason := some v.reason
    stateVersion := receipt.stateVersion + 1 }

/-- The lowered counter; a receipt with no case on its counter is damage. -/
def plan (v : RefundCase) (receipt : ReceiptRow) (week : WeekFields)
    (stored : Option (Option (CounterRow CaseField CaseFields))) :
    Except RefundAnswer Plan :=
  match readBack CASES receipt.supportScopeId.val week stored with
  | .error _ => .error (.ok ⟨.retryable, none⟩)
  | .ok none => .error (.ok ⟨.retryable, none⟩)
  | .ok (some counter) =>
    let admitted := counter.item.counts .admittedCases
    if admitted < 1 then .error (.ok ⟨.retryable, none⟩)
    else
      match write CASES receipt.supportScopeId.val week (some counter)
          [(.admittedCases, admitted - 1)] none v.observed with
      | .error failure => .error (.error failure)
      | .ok counter => .ok ⟨week, v.refunded receipt, counter⟩

def receiptCondition (receipt : ReceiptRow) (stored : Option ReceiptRow) : Bool :=
  stored.any fun row => row.stateVersion = receipt.stateVersion ∧ row.refundedAt.isNone

def operations (v : RefundCase) (receipt : ReceiptRow) (plan : Plan) : List (Write Key Row) :=
  v.persist.operations [
    .put (.receipt (env.caseIdentity v.kind v.caseId)) plan.receipt (receiptCondition receipt),
    .put (.counter receipt.supportScopeId plan.week.identity) plan.counter.item
      plan.counter.condition]

/-- A case with nothing to give back is handed over as a check on what was seen. -/
def seen (v : RefundCase) (condition : Option ReceiptRow → Bool) : List (Write Key Row) :=
  v.persist.operations [.check (.receipt (env.caseIdentity v.kind v.caseId)) condition]

def result (disposition : TeacherSupportRefundDisposition) (week : Option String) :
    Program Key Row RefundAnswer :=
  .ret (.ok ⟨disposition, week⟩)

def run (v : RefundCase) : Program Key Row RefundAnswer :=
  .read (.receipt (env.caseIdentity v.kind v.caseId)) fun
    | none => result .retryable none
    | some none =>
      .transact (v.seen env Option.isNone) fun
        | true => result .notAdmitted none
        | false => result .retryable none
    | some (some receipt) =>
      if receipt.beneficiaryId ≠ v.beneficiary ∨ receipt.caseKind ≠ v.kind ∨
          receipt.supportCaseId ≠ v.caseId then
        result .idempotencyConflict none
      else if receipt.refundedAt.isSome then
        .transact (v.seen env (Option.any fun row => row.refundedAt.isSome)) fun
          | true => result .alreadyRefunded
              (if receipt.weekIdentity = "" then none else some receipt.weekIdentity)
          | false => result .retryable none
      else
        match receiptWeek env receipt with
        | .error _ => result .retryable none
        | .ok week =>
          .read (.counter receipt.supportScopeId week.identity) fun stored =>
            match v.plan receipt week.toWeekFields stored with
            | .error early => .ret early
            | .ok plan =>
              .transact (v.operations env receipt plan) fun
                | true => result .refunded (some receipt.weekIdentity)
                | false => result .retryable none

end RefundCase

def refundTeacherSupportCase (r : RefundRequest) : Program Key Row RefundAnswer :=
  match r.checked with
  | .error failure => .ret (.error failure)
  | .ok v => v.run env

/-! ## The assigned figure -/

structure AssignRequest where
  studentId : String
  weeklyCases : ℤ
  actorId : String
  now : Instant

/-- The arguments of `set_assigned_weekly_cases` once they are checked. -/
structure AssignCases where
  student : Text
  weeklyCases : ℤ
  actorId : String
  now : Instant
  in_range : 0 ≤ weeklyCases ∧ weeklyCases ≤ ASSIGNED_WEEKLY_CASES_MAXIMUM

def AssignRequest.checked (r : AssignRequest) : Except Failure AssignCases := do
  let student ← requiredText r.studentId "student_id"
  if h : 0 ≤ r.weeklyCases ∧ r.weeklyCases ≤ ASSIGNED_WEEKLY_CASES_MAXIMUM then
    return { student, weeklyCases := r.weeklyCases, actorId := r.actorId, now := r.now
             in_range := h }
  else .error (.valueError "weekly_cases is out of range")

namespace AssignCases

def nextVersion (previous : Option AssignedRow) : ℤ :=
  previous.elim 0 (fun row => row.stateVersion) + 1

def item (v : AssignCases) (previous : Option AssignedRow) : AssignedRow where
  entityType := "teacher_support_assigned_allowance"
  schemaVersion := ASSIGNED_ALLOWANCE_SCHEMA_VERSION
  studentId := v.student
  weeklyCases := v.weeklyCases
  stateVersion := nextVersion previous
  updatedAt := v.now
  updatedBy := v.actorId

def condition (previous : Option AssignedRow) (stored : Option AssignedRow) : Bool :=
  match previous with
  | none => stored.isNone
  | some _ => stored.any fun row => row.stateVersion = nextVersion previous - 1

def run (v : AssignCases) : Program Key Row (Except Failure AssignedCasesWrite) :=
  .read (.assigned v.student) fun
    | none => .ret (.error (.dependencyFailure "teacher-support persistence is unavailable"))
    | some previous =>
      .transact [.put (.assigned v.student) (v.item previous) (condition previous)] fun
        | true => .ret (.ok (.written (nextVersion previous)))
        | false => .ret (.ok .unwritten)

end AssignCases

def setAssignedWeeklyCases (r : AssignRequest) : Program Key Row (Except Failure AssignedCasesWrite) :=
  match r.checked with
  | .error failure => .ret (.error failure)
  | .ok v => v.run

/-! ## The service -/

inductive Call where
  | admitCase (r : AdmitRequest)
  | refundCase (r : RefundRequest)
  | assignCases (r : AssignRequest)

inductive Result where
  | admission (result : TeacherSupportAdmissionResult)
  | refund (result : TeacherSupportRefundResult)
  | assigned (result : AssignedCasesWrite)
  | raised (failure : Failure)

/-- A call's outcome, returned or raised. -/
def Result.of {α : Type} (returned : α → Result) : Except Failure α → Result
  | .ok a => returned a
  | .error failure => .raised failure

def Call.body : Call → Program Key Row Result
  | .admitCase r => (admitTeacherSupportCase env r).bind fun a => .ret (.of .admission a)
  | .refundCase r => (refundTeacherSupportCase env r).bind fun a => .ret (.of .refund a)
  | .assignCases r => (setAssignedWeeklyCases r).bind fun a => .ret (.of .assigned a)

/-- Any number of calls against one table. Other code may write any other row. -/
def service (faults : Faults) : Service Key Row Call Result where
  body := Call.body env
  mayStart := fun _ _ => True
  drift := fun t t' => t'.AgreesOn Key.IsOwn t
  faults := faults

/-- A table on which no call has run. -/
def Fresh (t : Table Key Row) : Prop := ∀ k, k.IsOwn → t.row k = none

end Stoa.TeacherSupport
