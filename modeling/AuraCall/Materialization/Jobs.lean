import AuraCall.Js.Builtins
import AuraCall.Lib.SharedDocument
import Mathlib.Data.List.Sort

/-!
# Materialization jobs

The jobs of `historyMaterializationService.ts` and `archiveMaterializationJobService.ts`, and the two stores that keep
them, which are the same but for the type of the request: one document with all jobs, the latest update first. `upsertJob`
reads the document and replaces it, and every read and every rename is an action of its own.

`π` is the type of a request, `ρ` of a result, and `γ` of the progress that is kept with a job.
-/

namespace AuraCall.Materialization

open SharedDocument

/-! ## Jobs -/

inductive JobStatus
  | queued
  | running
  | succeeded
  | skipped
  | failed
  | cancelled
  deriving DecidableEq

def JobStatus.text : JobStatus → String
  | queued => "queued"
  | running => "running"
  | succeeded => "succeeded"
  | skipped => "skipped"
  | failed => "failed"
  | cancelled => "cancelled"

def isActiveStatus (status : JobStatus) : Bool := status = .queued ∨ status = .running

inductive JobErrorType
  | invalidRequestError
  | notFoundError
  | providerAuthConflict
  | providerGuardRequired
  | internalError
  deriving DecidableEq

structure JobError where
  message : String
  type : JobErrorType
  statusCode : Nat
  deriving DecidableEq

/-- A job: `sourceKey` is the archive item of an archive job. -/
structure MaterializationJob (π ρ γ : Type) where
  id : String
  request : π
  sourceKey : String
  status : JobStatus
  createdAt : IsoTime
  updatedAt : IsoTime
  startedAt : Option IsoTime
  completedAt : Option IsoTime
  attemptCount : Nat
  result : Option ρ
  progress : γ
  error : Option JobError
  message : String
  deriving DecidableEq

/-! ## Failures -/

/-- What is thrown. -/
inductive Thrown
  /-- `HistoryMaterializationError` or `ArchiveMaterializationError` -/
  | materialization (message : String) (statusCode : Nat)
  /-- `HistoryMaterializationJobControlError` or `ArchiveMaterializationJobControlError` -/
  | control (message : String) (statusCode : Nat)
  | error (message : String)
  /-- a value that is not an error -/
  | value (text : String)
  deriving DecidableEq

/-- `error.message`, or `String(error)`. -/
def Thrown.text : Thrown → String
  | materialization message _ | control message _ | error message | value message => message

/-- `error instanceof Error ? error.message : fallback`. -/
def Thrown.message (fallback : String) : Thrown → String
  | materialization message _ | control message _ | error message => message
  | value _ => fallback

/-- Whether one list of characters stands in another. -/
def occursIn (part : List Char) : List Char → Bool
  | [] => part.isEmpty
  | c :: rest => part.isPrefixOf (c :: rest) || occursIn part rest

/-- `text.includes(part)`. -/
def includes (text part : String) : Bool := occursIn part.toList text.toList

def isProviderAuthPreflightError (thrown : Thrown) : Bool :=
  includes thrown.text "browser auth preflight failed" || includes thrown.text "account_session_drift" ||
    includes thrown.text "expected_identity_missing"

/-- The text in lower case, as far as it is ASCII. -/
def lowerAscii (text : String) : String := String.ofList (text.toList.map Char.toLower)

/-- `/google\.com\/sorry|unusual traffic|recaptcha|captcha|human[-_ ]verification|anti[-_ ]?bot/i`. -/
def isProviderHumanVerificationError (thrown : Thrown) : Bool :=
  ["google.com/sorry", "unusual traffic", "recaptcha", "captcha", "human-verification", "human_verification",
    "human verification", "antibot", "anti-bot", "anti_bot", "anti bot"].any (includes (lowerAscii thrown.text))

/-- The error of a failed job, when it is none of those that its service knows. -/
def knownJobError (failedMessage : String) : Thrown → JobError
  | .materialization message statusCode =>
    ⟨message, if statusCode = 404 then .notFoundError else .invalidRequestError, statusCode⟩
  | thrown =>
    if isProviderAuthPreflightError thrown then
      ⟨thrown.message "Provider browser auth preflight failed.", .providerAuthConflict, 409⟩
    else ⟨thrown.message failedMessage, .internalError, 500⟩

def materializationJobError (thrown : Thrown) : JobError := knownJobError "Archive materialization job failed." thrown

def historyMaterializationJobError (thrown : Thrown) : JobError :=
  let known := knownJobError "History materialization job failed." thrown
  if known.type = .internalError && isProviderHumanVerificationError thrown then
    ⟨thrown.message "Provider human-verification guard requires manual clearance.", .providerGuardRequired, 409⟩
  else known

/-! ## The store -/

section Store

variable {π ρ γ η : Type}

/-- A document with jobs of both kinds, the latest update first. -/
abbrev JobState (π ρ γ η : Type) := Shared (MaterializationJob π ρ γ) η

abbrev JobScript (π ρ γ η α : Type) := Script (JobState π ρ γ η) Thrown α

/-- `sort((left, right) => right.updatedAt.localeCompare(left.updatedAt))`. -/
def byUpdatedAt : Arrangement (MaterializationJob π ρ γ) where
  place retained incoming :=
    (incoming ++ retained).insertionSort fun left right => right.updatedAt.ms ≤ left.updatedAt.ms
  perm _ _ := (List.perm_insertionSort _ _).trans List.perm_append_comm

variable (fault : η → Option Thrown) (call : Nat)

/-- `store.listJobs`. -/
def listJobs : JobScript π ρ γ η (Basis (MaterializationJob π ρ γ)) := do
  let (current, position) ← readDocument fault
  pure ⟨position, current.getD []⟩

/-- `jobs.find((job) => job.id === id)`. -/
def findJob (id : String) (jobs : List (MaterializationJob π ρ γ)) : Option (MaterializationJob π ρ γ) :=
  jobs.find? (·.id == id)

/-- `store.upsertJob`, of a job that was made from what a reading has found; the answer is what is stored now. -/
def upsertJob (basis : Option (Basis (MaterializationJob π ρ γ))) (job : MaterializationJob π ρ γ) :
    JobScript π ρ γ η (Basis (MaterializationJob π ρ γ)) :=
  upsertDocument MaterializationJob.id byUpdatedAt fault call basis [job] fun _ => false

end Store

end AuraCall.Materialization
