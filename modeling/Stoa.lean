import Stoa.Store.Table
import Stoa.Store.Program
import Stoa.Store.Interleaving
import Stoa.Store.Runs
import Stoa.Store.Solo
import Stoa.Store.Joint
import Stoa.Store.Versioned
import Stoa.Store.Lookup
import Stoa.Store.Handler
import Stoa.Store.Auxiliary
import Stoa.Store.Log
import Stoa.Store.Shielded
import Stoa.Model.Values
import Stoa.Model.WeeklyCounter
import Stoa.Model.AccountFence
import Stoa.Model.Allowance
import Stoa.Verification.Allowance.Rows
import Stoa.Verification.Allowance.Commits
import Stoa.Verification.Allowance.Ledger
import Stoa.Verification.Allowance.Safety
import Stoa.Verification.Allowance.Conservation
import Stoa.Verification.Allowance.Lifecycle
import Stoa.Verification.Allowance.Releases
import Stoa.Verification.Allowance.Alone
import Stoa.Model.RateLimit
import Stoa.Verification.RateLimit.Counting
import Stoa.Verification.RateLimit.Admission
import Stoa.Model.Relationships
import Stoa.Model.TeacherSupport
import Stoa.Verification.TeacherSupport.Cases
import Stoa.Verification.TeacherSupport.Changes
import Stoa.Verification.TeacherSupport.Conservation
import Stoa.Model.Billing
import Stoa.Model.Checkout
import Stoa.Model.BillingFacts
import Stoa.Model.Reconciliation
import Stoa.Verification.Checkout.Changes
import Stoa.Verification.Checkout.Operations
import Stoa.Verification.Checkout.OpenGuard
import Stoa.Verification.Checkout.Finality
import Stoa.Verification.Checkout.Leases
import Stoa.Verification.BillingFacts.Convergence
import Stoa.Verification.BillingFacts.Activations
import Stoa.Model.PaidEntitlement
import Stoa.Model.PaidGrants
import Stoa.Verification.PaidEntitlement.Operations
import Stoa.Verification.PaidEntitlement.Grants
import Stoa.Verification.PaidEntitlement.Transactions
import Stoa.Verification.PaidEntitlement.GrantVersions
import Stoa.Verification.PaidEntitlement.Lowering
import Stoa.Verification.PaidEntitlement.Transitions
import Stoa.Verification.PaidEntitlement.Allowances
import Stoa.Model.Subscription
import Stoa.Model.SubscriptionRequests
import Stoa.Model.BillingRefunds
import Stoa.Model.BillingEvents
import Stoa.Verification.Subscription.Handlers
import Stoa.Verification.Subscription.Requests
import Stoa.Verification.Subscription.Refunds
import Stoa.Verification.Subscription.RefundEvents
import Stoa.Verification.Subscription.RefundTotals
import Stoa.Model.MessageCommand
import Stoa.Verification.AskQuestion.Commits
import Stoa.Verification.AskQuestion.Lifecycle
import Stoa.Verification.AskQuestion.Quota
import Stoa.Verification.AskQuestion.Compensation
import Stoa.Data.Framing
import Stoa.Model.MessageRequest
import Stoa.Verification.AskQuestion.Fingerprints
import Stoa.Model.ReviewScheduler
import Stoa.Model.Practice
import Stoa.Model.LessonQuiz
import Stoa.Model.StarQuiz
import Stoa.Verification.Practice.Writes
import Stoa.Verification.Practice.Reviews
import Stoa.Verification.Practice.Scheduling
import Stoa.Verification.Practice.LessonQuizzes
import Stoa.Verification.Practice.Lightings
import Stoa.Verification.Practice.StarQuizPapers
import Stoa.Model.LessonCompletion
import Stoa.Verification.LessonCompletion.Streaks
import Stoa.Store.Duties
import Stoa.Verification.LessonCompletion.Credentials
import Stoa.Data.OrderedDict
import Stoa.Data.PyText
import Stoa.Data.Regex
import Stoa.Data.Decimal
import Stoa.Data.Substitution
import Stoa.Model.AnswerJudging
import Stoa.Verification.AnswerJudging.ListAnswers
import Stoa.Verification.AnswerJudging.Numerals
import Stoa.Data.JsonText
import Stoa.Data.JsonReading
import Stoa.Model.AskPrompt
import Stoa.Verification.AskPrompts
import Stoa.Verification.FencedData
import Stoa.Model.AiReply
import Stoa.Model.AskAnswer
import Stoa.Verification.AiReply.StepPattern
import Stoa.Verification.AiReply.StreamedSteps
import Stoa.Verification.AiReply.DecodedStrings
import Stoa.Verification.AiReply.Redaction
import Stoa.Verification.AiReply.ForbiddenTerms
import Stoa.Verification.AskAnswers
import Stoa.Data.Document
import Stoa.Model.Mastery
import Stoa.Verification.Mastery.Monotone
import Stoa.Verification.Mastery.Lightings
import Stoa.Verification.Mastery.Prerequisites
import Stoa.Model.StarMap
import Stoa.Model.Recommendation
import Stoa.Verification.StarMap.Neighbourhood
import Stoa.Verification.StarMap.Recommendations
import Stoa.Model.DeletionBranches
import Stoa.Verification.AccountDeletion.CleanPasses
import Stoa.Model.DeletionCommand
import Stoa.Model.DeletionReceipts
import Stoa.Verification.AccountDeletion.Commands
import Stoa.Verification.AccountDeletion.Workers
import Stoa.Model.DeletionSweep
import Stoa.Verification.AccountDeletion.Sweep
import Stoa.Verification.AccountDeletion.Debts
import Stoa.Verification.AccountDeletion.Receipts
import Stoa.Verification.ZurichWeeks
import Stoa.Model.PasswordCode
import Stoa.Verification.PasswordCodes
import Stoa.Model.SendQuota
import Stoa.Verification.SendQuotas
import Stoa.Model.ReportResend
import Stoa.Verification.ReportResends
import Stoa.Store.Decisions
import Stoa.Model.ParentLink
import Stoa.Verification.ParentLinks
import Stoa.Model.Assignment
import Stoa.Model.AssignmentBatch
import Stoa.Verification.Assignments
import Stoa.Verification.AssignmentBatches
import Stoa.Verification.AssignmentEffects
import Stoa.Model.RecoveryJob
import Stoa.Store.Owner
import Stoa.Verification.RecoveryJobs
import Stoa.Verification.RecoveryRecords
import Stoa.Verification.RecoveryOutcomes
import Stoa.Model.Figure
import Stoa.Model.LearningSession
import Stoa.Model.RecoveryTargets
import Stoa.Verification.RecoveryTargets
import Stoa.Verification.Figures
import Stoa.Store.Within
import Stoa.Store.Tenure
import Stoa.Model.TeacherDispatch
import Stoa.Model.HelpRequest
import Stoa.Store.Quiet
import Stoa.Verification.HelpRequest.Standings
import Stoa.Verification.HelpRequest.Turns
import Stoa.Verification.HelpRequest.Receipts
import Stoa.Verification.HelpRequest.Commits
import Stoa.Verification.HelpRequest.Writes
import Stoa.Verification.HelpRequest.Calls
import Stoa.Verification.HelpRequest.Lifecycle
import Stoa.Verification.TeacherDispatch
