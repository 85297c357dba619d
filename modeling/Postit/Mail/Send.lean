import Postit.Notify.Notifications

/-!
# Sending emails

Runs of `send_email` jobs.  A job may be run any number of times and by several workers at once.  A
run locks its recipient, takes the rows the email is about, sends it, and commits; it may fail
before or at the send, and then leaves nothing behind.  Once the mailer has taken the email the run
commits.

Audit events and what emails look like are left out.
-/

namespace Postit.Mail

open Postit.Data (UserId)
open Postit.Framework
open Postit.Identity (UserStatus)
open Postit.Notify

/-- How a run ended. -/
inductive Outcome
  | gone
  | dropped (reason : String)
  | skipped
  | sent
  | failed
  deriving DecidableEq, Repr

/-- Where a run is.  From `locked` on its transaction has the lock on the recipient; `now` is the
time it began at, and `taken` are the rows it has marked. -/
inductive Phase
  | started
  | locked (now : Time)
  | loaded (now : Time) (taken : List NotificationId) (content : MailContent)
  | mailed (now : Time) (taken : List NotificationId)
  | ended (outcome : Outcome)
  deriving DecidableEq

/-- A run of a job. -/
structure Run where
  job : SendEmail
  phase : Phase := .started
  deriving DecidableEq

/-- Whether the run has the lock on its recipient. -/
def Run.holdsLock (r : Run) : Bool :=
  match r.phase with
  | .locked _ | .loaded _ _ _ | .mailed _ _ => true
  | .started | .ended _ => false

/-- An email the mailer has taken, and the rows it is about. -/
structure Email where
  kind : MailKind
  recipient : UserId
  taken : List NotificationId
  content : MailContent
  deriving DecidableEq

structure World where
  db : Db := {}
  runs : List Run := []
  sent : List Email := []

inductive Event
  | setUser (id : UserId) (user : User)
  | setPreferences (id : UserId) (preferences : UserPreferences)
  | record (now : Time) (targets : List (UserId × Option UserId)) (notice : Notice)
  | enqueueDigest (user : UserId)
  | fetch (job : ℕ)
  | lock (i : ℕ) (now : Time)
  | load (i : ℕ)
  | send (i : ℕ)
  | commit (i : ℕ)
  | fail (i : ℕ)

/-- Why an email to the user is dropped. -/
def dropReason (recipient : User) : Option String :=
  if recipient.status ≠ .active then some "inactive"
  else if ¬ recipient.emailVerified ∨ recipient.email = none then some "no_verified_email"
  else none

namespace World

/-- Whether a run has the lock on the user. -/
def isLocked (s : World) (user : UserId) : Bool :=
  s.runs.any fun r => r.holdsLock && r.job.recipient == user

def goOn (s : World) (i : ℕ) (r : Run) (p : Phase) : World :=
  { s with runs := s.runs.set i { r with phase := p } }

/-- What follows the lock on the recipient. -/
def locked (s : World) (now : Time) (r : Run) : Phase :=
  match s.db.users.lookup r.job.recipient with
  | none => .ended .gone
  | some recipient =>
    match dropReason recipient with
    | some reason => .ended (.dropped reason)
    | none => .locked now

def perform (s : World) : Event → Option World
  | .setUser id user =>
    if s.isLocked id then none
    else some { s with db := { s.db with users := s.db.users.insert id user } }
  | .setPreferences id preferences =>
    some { s with db := { s.db with preferences := s.db.preferences.insert id preferences } }
  | .record now targets notice => some { s with db := s.db.record now targets notice }
  | .enqueueDigest user =>
    some { s with db := { s.db with jobs := s.db.jobs ++ [⟨.commentDigest, user, none⟩] } }
  | .fetch job => s.db.jobs[job]?.map fun job => { s with runs := s.runs ++ [{ job }] }
  | .lock i now =>
    match s.runs[i]? with
    | some r =>
      if r.phase = .started ∧ ¬ s.isLocked r.job.recipient then
        some (s.goOn i r (s.locked now r))
      else none
    | none => none
  | .load i =>
    match s.runs[i]? with
    | some r =>
      match r.phase with
      | .locked now =>
        let taken := s.db.take r.job.recipient r.job.kind
        let ids := taken.map Prod.fst
        match content r.job.kind taken with
        | none => some ({ s with db := s.db.markEmailed ids now }.goOn i r (.ended .skipped))
        | some content => some (s.goOn i r (.loaded now ids content))
      | _ => none
    | none => none
  | .send i =>
    match s.runs[i]? with
    | some r =>
      match r.phase with
      | .loaded now taken content =>
        let email := { kind := r.job.kind, recipient := r.job.recipient, taken, content }
        some ({ s with sent := s.sent ++ [email] }.goOn i r (.mailed now taken))
      | _ => none
    | none => none
  | .commit i =>
    match s.runs[i]? with
    | some r =>
      match r.phase with
      | .mailed now taken =>
        some ({ s with db := s.db.markEmailed taken now }.goOn i r (.ended .sent))
      | _ => none
    | none => none
  | .fail i =>
    match s.runs[i]? with
    | some r =>
      match r.phase with
      | .started | .locked _ | .loaded _ _ _ => some (s.goOn i r (.ended .failed))
      | _ => none
    | none => none

def Step (s : World) (e : Event) (t : World) : Prop := s.perform e = some t

end World

end Postit.Mail
