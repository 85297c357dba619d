import Postit.Framework.Durations
import Postit.Framework.Table
import Postit.Identity.Users

/-!
# Approval mails

A sign-up's transaction begins at a time that becomes the user's `created_at`, waits for its turn,
enqueues a mail job for each active admin, and is seen by others from its commit on.  A run of such
a job locks the admin's row, reads when the last approval mail went to the admin, and mails what
users have signed up since; the time it began at is what the next mail counts from.  At most one
mail goes out per interval: a run that comes too early puts its job off.

A job may be run any number of times, at any time and by several workers at once, and a run may fail
wherever it is.  A sign-up that fails just never commits.  Audit events, notices, what mails look
like and the other kinds of mail are left out.
-/

namespace Postit.Identity.Approvals

open Postit.Data (UserId)
open Postit.Framework

deriving instance DecidableEq for Instant

/-- What approval mails need of a row of `users`. -/
structure UserRow where
  role : UserRole
  status : UserStatus
  email : Option String
  emailVerified : Bool
  displayName : String
  approvedAt : Option Instant
  createdAt : Instant
  deriving DecidableEq

/-- A job that mails an admin.  The sign-up it was enqueued for, and whether a run has put it off,
are not in its payload. -/
structure Job where
  recipient : UserId
  runAt : Option Instant
  about : UserId
  deferred : Bool := false

/-- A user as the mail names them. -/
structure PendingUser where
  displayName : String
  email : Option String

/-- A mail, with the time its run began at.  Beside what it says it has the users it lists, those
that were counted, and those that were there when the list was read. -/
structure Mail where
  recipient : UserId
  now : Instant
  pending : List PendingUser
  more : ℕ
  listed : List UserId
  counted : List UserId
  seen : List UserId

/-- How a run ended. -/
inductive Outcome
  | gone
  | dropped (reason : String)
  | skipped
  | deferred
  | sent
  | failed
  deriving DecidableEq, Repr

/-- Where a run is.  From `locked` on its transaction has the lock on the recipient's row; `now` is
the time it began at. -/
inductive Phase
  | started
  | locked (now : Instant) (recipient : UserRow)
  | listed (now since : Instant) (pending : List (UserId × UserRow)) (seen : List UserId)
  | counted (mail : Mail)
  | mailed (mail : Mail)
  | ended (outcome : Outcome)

/-- A run of a job. -/
structure Run where
  job : ℕ
  recipient : UserId
  about : UserId
  phase : Phase := .started

/-- Whether the run has the lock on its recipient's row. -/
def Run.holdsLock (r : Run) : Bool :=
  match r.phase with
  | .locked .. | .listed .. | .counted _ | .mailed _ => true
  | .started | .ended _ => false

/-- A sign-up's transaction. -/
structure SignUp where
  id : UserId
  row : UserRow
  committed : Bool := false

/-- The tables as committed, the IDs given out, the transactions, and the mails: those that the
mailer has taken, and of these the ones whose run committed. -/
structure World where
  users : Table UserId UserRow
  -- the column `last_approval_email_at` of the preferences
  markers : Table UserId Instant := ∅
  used : List UserId
  signUps : List SignUp := []
  jobs : List Job := []
  runs : List Run := []
  sent : List Mail := []
  recorded : List Mail := []

inductive Event
  | signUp (id : UserId) (row : UserRow)
  | commitSignUp (i : ℕ) (clock : Instant)
  | setUser (id : UserId) (row : UserRow)
  | deleteUser (id : UserId)
  | fetch (job : ℕ)
  | lock (i : ℕ) (now : Instant)
  | load (i : ℕ)
  | count (i : ℕ)
  | send (i : ℕ)
  | commit (i : ℕ)
  | fail (i : ℕ)

/-! ## The queries -/

/-- The pending users who signed up after an instant. -/
def pendingAfter (users : Table UserId UserRow) (after : Instant) : List (UserId × UserRow) :=
  users.select fun _ row => row.status = .pending ∧ after.nanos < row.createdAt.nanos

def pendingListCap : ℕ := 50

def byCreation (a b : UserId × UserRow) : Bool := a.2.createdAt.nanos ≤ b.2.createdAt.nanos

/-- `list_pending_created_after` -/
def listPendingCreatedAfter (users : Table UserId UserRow) (after : Instant) :
    List (UserId × UserRow) :=
  ((pendingAfter users after).insertionSort fun a b => byCreation a b = true).take pendingListCap

/-- `list_active_admin_ids` -/
def listActiveAdminIds (users : Table UserId UserRow) : List UserId :=
  ((users.select fun _ row => row.role = .admin ∧ row.status = .active).insertionSort fun a b =>
    byCreation a b = true).map Prod.fst

/-! ## Enqueueing -/

lemma neg_limit_le_limit : -TimeDelta.limit ≤ TimeDelta.limit := by
  simp only [TimeDelta.limit, maxI64]
  omega

/-- `chrono::Duration::MAX` -/
def longest : TimeDelta := ⟨TimeDelta.limit, neg_limit_le_limit, le_refl TimeDelta.limit⟩

/-- The interval, or the longest there is where the configured one is longer. -/
def chronoInterval (interval : Duration) : TimeDelta :=
  (TimeDelta.fromStd interval.nanos).getD longest

/-- When an admin's next mail may go out, which is a panic where it is out of range. -/
def nextSlot (interval : Duration) (sent : Instant) : Option Instant :=
  sent.checkedAddSigned (chronoInterval interval)

/-- The job that tells an admin of a sign-up. -/
def approvalJob (interval : Duration) (markers : Table UserId Instant) (clock : Instant)
    (about admin : UserId) : Option Job :=
  match markers.lookup admin with
  | none => some { recipient := admin, runAt := none, about }
  | some sent => (nextSlot interval sent).map fun slot =>
    { recipient := admin, runAt := if clock.nanos < slot.nanos then some slot else none, about }

/-- `enqueue_pending_approval_emails` -/
def enqueuePendingApprovalEmails (interval : Duration) (s : World) (clock : Instant)
    (about : UserId) : Option (List Job) :=
  (listActiveAdminIds s.users).mapM (approvalJob interval s.markers clock about)

/-! ## Sending -/

/-- Why a mail to the user is dropped. -/
def dropReason (recipient : UserRow) : Option String :=
  if recipient.status ≠ .active then some "inactive"
  else if ¬ recipient.emailVerified ∨ recipient.email = none then some "no_verified_email"
  else none

/-- What is listed for the recipient. -/
inductive Loaded
  | skip
  | defer (at_ : Instant)
  | send (since : Instant) (pending : List (UserId × UserRow))

/-- `PendingApprovalLoader::load` up to the count, with `none` for a panic. -/
def load (interval : Duration) (s : World) (now : Instant) (id : UserId) (recipient : UserRow) :
    Option Loaded :=
  if recipient.role ≠ .admin then some .skip
  else
    let marker := s.markers.lookup id
    let since := (marker.or recipient.approvedAt).getD recipient.createdAt
    let pending := listPendingCreatedAfter s.users since
    if pending.isEmpty then some .skip
    else
      match marker with
      | none => some (.send since pending)
      | some sent => (nextSlot interval sent).map fun slot =>
        if now.nanos < slot.nanos then .defer slot else .send since pending

/-- The content, once the users were counted. -/
def mailOf (recipient : UserId) (now : Instant) (pending : List (UserId × UserRow))
    (counted : List UserId) (seen : List UserId) : Mail where
  recipient := recipient
  now := now
  pending := pending.map fun u =>
    { displayName := u.2.displayName, email := if u.2.emailVerified then u.2.email else none }
  more := counted.length - pending.length
  listed := pending.map Prod.fst
  counted := counted
  seen := seen

/-- When a run is put off to, a second from now at least. -/
def deferredTo (now at_ : Instant) : Option Instant :=
  ((TimeDelta.seconds 1).bind now.checkedAddSigned).map fun soon =>
    if at_.nanos < soon.nanos then soon else at_

namespace World

/-- Whether a run has the lock on the user's row. -/
def isLocked (s : World) (user : UserId) : Bool :=
  s.runs.any fun r => r.holdsLock && r.recipient == user

def goOn (s : World) (i : ℕ) (r : Run) (p : Phase) : World :=
  { s with runs := s.runs.set i { r with phase := p } }

/-- What follows the lock on the recipient. -/
def locked (s : World) (now : Instant) (r : Run) : Phase :=
  match s.users.lookup r.recipient with
  | none => .ended .gone
  | some recipient =>
    match dropReason recipient with
    | some reason => .ended (.dropped reason)
    | none => .locked now recipient

/-- The job is put off: another is enqueued for it. -/
def putOff (s : World) (r : Run) (runAt : Instant) : World :=
  { s with
    jobs := (s.jobs.modify r.job ({ · with deferred := true })) ++
      [{ recipient := r.recipient, runAt := some runAt, about := r.about }] }

def perform (interval : Duration) (s : World) : Event → Option World
  | .signUp id row =>
    if id ∈ s.used then none
    else some { s with used := id :: s.used, signUps := s.signUps ++ [{ id, row }] }
  | .commitSignUp i clock =>
    match s.signUps[i]? with
    | some signUp =>
      if signUp.committed then none
      else
        let s' := { s with
          users := s.users.insert signUp.id signUp.row
          signUps := s.signUps.set i { signUp with committed := true } }
        if signUp.row.status = .pending then
          (enqueuePendingApprovalEmails interval s clock signUp.id).map fun jobs =>
            { s' with jobs := s.jobs ++ jobs }
        else some s'
    | none => none
  | .setUser id row =>
    match s.users.lookup id with
    | some old =>
      -- nobody becomes pending again
      if s.isLocked id ∨ row.createdAt.nanos ≠ old.createdAt.nanos ∨
          (row.status = .pending ∧ old.status ≠ .pending) then none
      else some { s with users := s.users.insert id row }
    | none => none
  | .deleteUser id =>
    if s.isLocked id then none
    else some { s with users := s.users.erase id, markers := s.markers.erase id }
  | .fetch job => s.jobs[job]?.map fun payload =>
    { s with runs := s.runs ++ [{ job, recipient := payload.recipient, about := payload.about }] }
  | .lock i now =>
    match s.runs[i]? with
    | some r =>
      match r.phase with
      | .started => if s.isLocked r.recipient then none else some (s.goOn i r (s.locked now r))
      | _ => none
    | none => none
  | .load i =>
    match s.runs[i]? with
    | some r =>
      match r.phase with
      | .locked now recipient =>
        match load interval s now r.recipient recipient with
        | none => some (s.goOn i r (.ended .failed))
        | some .skip => some (s.goOn i r (.ended .skipped))
        | some (.defer at_) =>
          match deferredTo now at_ with
          | none => some (s.goOn i r (.ended .failed))
          | some runAt => some ((s.putOff r runAt).goOn i r (.ended .deferred))
        | some (.send since pending) =>
          some (s.goOn i r (.listed now since pending s.users.keys))
      | _ => none
    | none => none
  | .count i =>
    match s.runs[i]? with
    | some r =>
      match r.phase with
      | .listed now since pending seen =>
        let counted := (pendingAfter s.users since).map Prod.fst
        some (s.goOn i r (.counted (mailOf r.recipient now pending counted seen)))
      | _ => none
    | none => none
  | .send i =>
    match s.runs[i]? with
    | some r =>
      match r.phase with
      | .counted mail => some ({ s with sent := s.sent ++ [mail] }.goOn i r (.mailed mail))
      | _ => none
    | none => none
  | .commit i =>
    match s.runs[i]? with
    | some r =>
      match r.phase with
      | .mailed mail =>
        some ({ s with
          markers := s.markers.insert r.recipient mail.now
          recorded := s.recorded ++ [mail] }.goOn i r (.ended .sent))
      | _ => none
    | none => none
  | .fail i =>
    match s.runs[i]? with
    | some r =>
      match r.phase with
      | .ended _ => none
      | _ => some (s.goOn i r (.ended .failed))
    | none => none

def Step (interval : Duration) (s : World) (e : Event) (t : World) : Prop :=
  s.perform interval e = some t

end World

end Postit.Identity.Approvals
