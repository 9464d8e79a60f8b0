import Stoa.Store.Duties
import Stoa.Verification.LessonCompletion.Streaks

/-! # What a quiz credential is worth

A request spends the credential first and writes the completion afterwards. That
it is worth one lesson is a duty of the request in between. -/

namespace Stoa.LessonCompletion

open RowStore

/-! ## The service -/

/-- Any number of requests. Other code leaves the credentials alone, and only ever
adds to what students have done. -/
def completionService (zurich : Instant → Date) (faults : Faults) :
    Service Key Row CompleteLesson (Except Raised LessonCompleted) where
  body := fun r => (completeLesson zurich r).run
  mayStart := fun _ _ => True
  drift := fun t t' =>
    (∀ student credential, t'.row (.quizCredential student credential) =
      t.row (.quizCredential student credential)) ∧
    ∀ k, (t.row (.evidence k)).isSome → (t'.row (.evidence k)).isSome
  faults := faults

/-! ## An issued credential -/

/-- A credential that a passed quiz issued to its student for its lesson. -/
structure Issued where
  credentialId : String
  row : CredentialRow
  named : credentialId ≠ ""
  quiz : row.quizId ≠ ""

namespace Issued

variable (q : Issued)

abbrev key : Key := .quizCredential q.row.studentId q.credentialId

/-- The lesson of the credential is stored as completed. -/
def Completed (t : Table Key Row) : Prop :=
  (t.row (.evidence (.progress q.row.studentId q.row.lessonId))).isSome

/-- The request presents the credential for its lesson. -/
structure Presents (r : CompleteLesson) : Prop where
  student : r.studentId = q.row.studentId
  lesson : r.lesson.lessonId = q.row.lessonId
  credential : r.credential = q.credentialId

/-- The credential is not presented after its expiry. -/
def InTime (r : CompleteLesson) : Prop :=
  q.Presents r → r.now / 1000000 < (q.row.expiresAt : ℤ)

/-- What a request may submit: the consumption of the credential that it carries, and
the completion of its lesson. -/
inductive Allowed (r : CompleteLesson) : List (Write Key Row) → Prop where
  | consume (condition : Option CredentialRow → Bool) :
      Allowed r [.delete (.quizCredential r.studentId r.credential) condition]
  | complete (generation : ℤ) (existing : Option (Row (.evidence (.progress r.studentId r.lesson.lessonId))))
      (h : r.credential = q.credentialId → q.Presents r) :
      Allowed r (saveTransaction (.progress r.studentId r.lesson.lessonId)
        (progressItem r.studentId r.lesson r.completedAt) r.studentId generation existing)

/-- Who consumes the credential owes the completion. -/
def duty : Duty Key Row CompleteLesson where
  known
    | .quizCredential student credential, row =>
        credential = q.credentialId → row = none ∨ student = q.row.studentId ∧ row = some q.row
    | _, _ => True
  good
    | .accountFence _, row => (requireActiveAccountFence row none).isSome
    | _, _ => True
  arises t t' := t.row q.key = some q.row ∧ t'.row q.key = none
  met := q.Completed
  allowed := q.Allowed

end Issued

/-! ## Requests -/

section

variable {q : Issued} {r : CompleteLesson} {zurich : Instant → Date} {t : Table Key Row}

theorem saveTransaction_row {k : EvidenceKey} {item : Item k} {ownerId : String} {generation : ℤ}
    {existing : Option (Row (.evidence k))} {j : Key} (hj : j ≠ .evidence k) :
    (t.apply (saveTransaction k item ownerId generation existing)).row j = t.row j := by
  cases existing <;>
    simp [saveTransaction, fenceCheck, Write.check, Write.putNew, Write.put, Write.modify, Table.apply, hj]

theorem Issued.known_commit {ops : List (Write Key Row)} (h : q.Allowed r ops)
    (ht : ∀ k, q.duty.known k (t.row k)) : ∀ k, q.duty.known k ((t.apply ops).row k) := by
  intro k
  cases h with
  | consume condition =>
      by_cases hk : k = .quizCredential r.studentId r.credential
      · subst hk
        simp [Issued.duty, Write.delete, Table.apply]
      · simpa [Write.delete, Table.apply, hk] using ht k
  | complete generation existing _ =>
      by_cases hk : k = .evidence (.progress r.studentId r.lesson.lessonId)
      · subst hk
        exact True.intro
      · rw [saveTransaction_row hk]
        exact ht k

end

/-! ## A completion that is refused -/

namespace CredentialSample

def credential : Issued where
  credentialId := "token"
  row := ⟨⟨"token", "lesson", "quiz", 1000000⟩, "student"⟩
  named := by decide
  quiz := by decide

def table : Table Key Row := Table.empty.apply [
  .put (.accountFence "student") ⟨"active", some 1⟩ fun _ => true,
  .put credential.key credential.row fun _ => true]

def request : CompleteLesson := ⟨"student", Sample.lesson, "token", 0, 0, 0⟩

/-- Every read and every write may fail. -/
abbrev service : Service Key Row CompleteLesson (Except Raised LessonCompleted) :=
  completionService Sample.zurich ⟨True, True, True⟩

/-- The credential is consumed, and the completion is refused. -/
def refused : State Key Row CompleteLesson (Except Raised LessonCompleted) :=
  (State.initial table).solo service request [.answered, .refused]

def started : State Key Row CompleteLesson (Except Raised LessonCompleted) :=
  (State.initial table).launch service request

end CredentialSample

end Stoa.LessonCompletion
