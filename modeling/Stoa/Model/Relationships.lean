import Stoa.Model.AccountFence
import Stoa.Store.Lookup
import Mathlib.Data.List.Sort

/-! # Relationships and grants

Whether a parent may pay for a student now: the judge of their link, and the
grants that rest on it. Everything here only reads. -/

namespace Stoa.Relationships

open RowStore

/-! ## Rows -/

inductive Key where
  | profile (user : String)
  | accountFence (user : String)
  | parentSide (parent student : String)
  | studentSide (student parent : String)
  | grant (parent beneficiary : String)
  deriving DecidableEq

structure ProfileRow where
  userId : String
  role : String
  accountStatus : Option String
  status : Option String
  version : Option ℤ

/-- One side of a link; the other side stores the same attributes. -/
structure LinkRow where
  entityType : String
  parentId : String
  studentId : String
  relationship : Option String
  status : String
  linkUpdatedAt : String

structure GrantRow where
  entityType : String
  schemaVersion : String
  parentId : String
  beneficiaryId : String
  grantStatus : String
  commandId : String
  subscriptionIdDigest : Sha256
  grantVersion : ℤ
  planId : BillingPlanId
  planVersion : ℤ
  allowanceVersion : ℤ
  activationVersion : ℤ
  activatedAt : String
  relationshipSource : String
  parentProfileVersion : ℤ
  parentAccountFenceGeneration : ℤ
  studentProfileVersion : ℤ
  studentAccountFenceGeneration : ℤ
  /-- The plan transition that the grant has gone through last, if any. -/
  transitionIdentity : Option Sha256 := none
  transitionedAt : Option String := none
  endedAt : Option String := none
  endedByTransition : Option Sha256 := none
  deriving DecidableEq

abbrev Row : Key → Type
  | .profile _ => ProfileRow
  | .accountFence _ => FenceRow
  | .parentSide _ _ => LinkRow
  | .studentSide _ _ => LinkRow
  | .grant _ _ => GrantRow

def ENTITY_TYPE : String := "parent_student_link"

def STATUS_ACTIVE : String := "active"

/-- Only a child link pays for a beneficiary. -/
def BENEFICIARY_RELATIONSHIP : String := "child"

def GRANT_SCHEMA_VERSION : String := "paid_beneficiary_grant.v1"

/-- A lookup of these rows, and what it raises. -/
abbrev Find (α : Type) := Fetch Key Row Failure α

/-- Read one row; a table that raises is passed on. -/
def fetch (k : Key) : Find (Option (Row k)) := Fetch.get Failure.tableError k

def getUser (user : String) : Find (Option ProfileRow) := fetch (.profile user)

/-! ## The judge -/

inductive Standing where
  | current
  | known
  | unknown
  deriving DecidableEq, Repr

structure Verdict where
  standing : Standing
  parentId : String
  studentId : String
  relationship : Option String

def usableAccount (profile : Option ProfileRow) (user role : String) : Bool :=
  profile.any fun profile =>
    -- An empty `account_status` counts as none.
    let status := match profile.accountStatus with
      | some status => if status = "" then profile.status else some status
      | none => profile.status
    profile.userId = user ∧ profile.role = role ∧ status = some "active"

def aboutPair (row : Option LinkRow) (parent student : String) : Bool :=
  row.any fun row => row.parentId = parent ∧ row.studentId = student

/-- Both sides are active and say the same thing about the same write. -/
def rowsCurrent (forward reverse : LinkRow) : Bool :=
  forward.status = STATUS_ACTIVE ∧ reverse.status = STATUS_ACTIVE ∧
    forward.linkUpdatedAt ≠ "" ∧ forward.relationship = reverse.relationship ∧
    forward.linkUpdatedAt = reverse.linkUpdatedAt

def verdictFromRows (standing : Standing) (parent student : String) (forward : LinkRow) :
    Verdict where
  standing := standing
  parentId := parent
  studentId := student
  relationship := match forward.relationship with
    | some relationship => if relationship = "" then some "child" else some relationship
    | none => some "child"

def judgeRows (parent student : String) (forward reverse : Option LinkRow) : Find Verdict :=
  match forward, reverse with
  | some forward, some reverse =>
    if ¬ aboutPair (some forward) parent student ∨ ¬ aboutPair (some reverse) parent student then
      return ⟨.unknown, parent, student, none⟩
    else if ¬ rowsCurrent forward reverse then
      return verdictFromRows .known parent student forward
    else do
      if ¬ usableAccount (← getUser parent) parent "parent" then
        return verdictFromRows .known parent student forward
      if ¬ usableAccount (← getUser student) student "student" then
        return verdictFromRows .known parent student forward
      return verdictFromRows .current parent student forward
  | _, _ => return ⟨.unknown, parent, student, none⟩

def getParentSideLink (parent student : String) : Find (Option LinkRow) := do
  let parent ← Fetch.of (strippedText parent "parent_id")
  let student ← Fetch.of (strippedText student "student_id")
  fetch (.parentSide parent student)

def getStudentSideLink (student parent : String) : Find (Option LinkRow) := do
  let student ← Fetch.of (strippedText student "student_id")
  let parent ← Fetch.of (strippedText parent "parent_id")
  fetch (.studentSide student parent)

def judge (parent student : String) : Find Verdict :=
  if parent = "" ∨ student = "" then return ⟨.unknown, parent, student, none⟩
  else do
    let forward ← getParentSideLink parent student
    let reverse ← getStudentSideLink student parent
    judgeRows parent student forward reverse

/-- Each pair is judged once. -/
def judged (seen : List (String × String)) : List (String × String) → Find (List Verdict)
  | [] => return []
  | (parent, student) :: pairs =>
    if parent = "" ∨ student = "" ∨ (parent, student) ∈ seen then judged seen pairs
    else do
      let verdict ← judge parent student
      return verdict :: (← judged ((parent, student) :: seen) pairs)

def listLinksForStudent (student : String) : Find (List LinkRow) := do
  let student ← Fetch.of (strippedText student "student_id")
  let rows ← Fetch.list Failure.tableError fun
    | .studentSide s _ => s = student
    | _ => false
  return rows.filterMap fun
    | ⟨.studentSide _ _, row⟩ => some row
    | _ => none

def parentsOf (student : String) : Find (List Verdict) :=
  if student = "" then return []
  else do
    let links ← listLinksForStudent student
    let pairs := (links.filter fun row => row.status = STATUS_ACTIVE).map fun row =>
      (row.parentId, student)
    return (← judged [] pairs).filter fun verdict => verdict.standing = .current

/-- Ordered by parent, so that readers who take the first one agree. -/
def beneficiaryParents (student : String) : Find (List Verdict) := do
  let verdicts ← parentsOf student
  return (verdicts.filter fun verdict =>
    verdict.relationship = some BENEFICIARY_RELATIONSHIP).insertionSort
      fun v w => v.parentId ≤ w.parentId

def relationshipAuthority (parent student : String) : Find (Option Verdict) :=
  if parent = "" ∨ student = "" then return none
  else do
    let verdict ← judge parent student
    if verdict.standing ≠ .current ∨ verdict.relationship ≠ some BENEFICIARY_RELATIONSHIP then
      return none
    else return some verdict

/-! ## Grants -/

structure RelationshipProof where
  parentProfileVersion : ℤ
  parentFenceGeneration : ℤ
  studentProfileVersion : ℤ
  studentFenceGeneration : ℤ

def IsActiveProfile (profile : Option ProfileRow) (user role : String) : Bool :=
  profile.any fun profile =>
    profile.userId = user ∧ profile.role = role ∧ profile.accountStatus = some "active"

/-- A positive version, or the refusal of the proof. -/
def proofVersion (version : Option ℤ) : Find ℤ :=
  Fetch.of (match version with
    | some version => if 0 < version then .ok version
        else .error (.paidGrantConflict "beneficiary relationship proof is invalid")
    | none => .error (.paidGrantConflict "beneficiary relationship proof is invalid"))

def proofGeneration (user : String) : Find ℤ := do
  let fence ← fetch (.accountFence user)
  proofVersion (requireActiveAccountFence fence none)

def relationshipProof (parent student : String) : Find RelationshipProof := do
  let parentProfile ← getUser parent
  let studentProfile ← getUser student
  if ¬ IsActiveProfile parentProfile parent "parent" ∨
      ¬ IsActiveProfile studentProfile student "student" then
    Fetch.of (.error (.paidGrantConflict "beneficiary relationship is not active"))
  else if (← relationshipAuthority parent student).isNone then
    Fetch.of (.error (.paidGrantConflict "beneficiary relationship is not active"))
  else
    let parentVersion ← proofVersion (parentProfile.bind (·.version))
    let studentVersion ← proofVersion (studentProfile.bind (·.version))
    let parentGeneration ← proofGeneration parent
    let studentGeneration ← proofGeneration student
    return {
      parentProfileVersion := parentVersion
      parentFenceGeneration := parentGeneration
      studentProfileVersion := studentVersion
      studentFenceGeneration := studentGeneration }

def activeGrant (item : Option GrantRow) (parent beneficiary : String) : Option GrantRow :=
  item.filter fun grant =>
    grant.entityType = "beneficiary_grant" ∧ grant.schemaVersion = GRANT_SCHEMA_VERSION ∧
      grant.parentId = parent ∧ grant.beneficiaryId = beneficiary ∧
      grant.grantStatus = "active" ∧ grant.planId ≠ .freeTrial ∧ 0 < grant.grantVersion ∧
      0 < grant.planVersion ∧ 0 < grant.allowanceVersion ∧ 0 < grant.activationVersion

/-- The grant, with a current relationship; a table that raises is passed on. -/
def getActiveBeneficiaryGrant (parent beneficiary : String) : Find (Option GrantRow) :=
  if ¬ IsRequiredText 200 parent ∨ ¬ IsRequiredText 200 beneficiary then return none
  else do
    match activeGrant (← fetch (.grant parent beneficiary)) parent beneficiary with
    | none => return none
    | some grant =>
      try
        let _ ← relationshipProof parent beneficiary
        return some grant
      catch
        | .tableError => throw .tableError
        | _ => return none

end Stoa.Relationships
