import Postit.Accounts.Changes
import Postit.Accounts.Refresh

/-!
# Reminding of a reconnect

The job `refresh_credentials`: it visits every grant whose token expires soon, moves the grants
whose `reconnect_by` has passed to `needs_reconnect`, and reminds of the dates that are near.  Any
number of runs are at work, each with the time it began at, a statement or a transaction of one
going between those of another, and whatever else happens to grants and accounts in between.

A transaction holds its grant's lock from its read to its commit, where its changes come at once.
What a visit does to the grant is among what happens besides: tokens that are stored, and a refusal.
The stage of a grant's reminders is kept beside its row, and so is `reconnect_by`, which a grant is
stored with and which no statement changes.  A grant's notices, one for each account, are one entry.
Times are what the database keeps of them, microseconds.
-/

namespace Postit.Accounts

open Postit.Data (UserId AccountId)
open Postit.Framework

/-- The reminder a grant is due for. -/
inductive ReminderStage
  | sevenDays
  | oneDay
  deriving DecidableEq, Repr

/-- `reconnect_warned`: the last stage sent. -/
inductive Warned
  | none
  | sevenDays
  | oneDay
  | expired
  deriving DecidableEq, Repr

def day : Time := 24 * 60 * 60 * 1000000

namespace ReminderStage

/-- How long before the date a stage is due. -/
def window : ReminderStage → Time
  | .sevenDays => 7 * day
  | .oneDay => day

/-- The stages a grant may be moved from. -/
def from_ : ReminderStage → List Warned
  | .sevenDays => [.none]
  | .oneDay => [.none, .sevenDays]

/-- The stage a grant is moved to. -/
def to_ : ReminderStage → Warned
  | .sevenDays => .sevenDays
  | .oneDay => .oneDay

end ReminderStage

/-- What is sent of a grant. -/
inductive ReconnectNotice
  | reminder (stage : ReminderStage)
  | deadlinePassed
  deriving DecidableEq, Repr

/-- What was sent of a grant, for its accounts, by a run of that time. -/
structure Sent where
  grant : GrantId
  notice : ReconnectNotice
  accounts : List AccountId
  now : Time
  deriving DecidableEq, Repr

/-- Where a run is. -/
inductive Phase
  /-- to read the page after an ID -/
  | page (after : Option GrantId)
  /-- to visit what is left of a page, the last ID of which the next one is after, if one is -/
  | visit (left : List GrantId) (next : Option GrantId)
  | deadlines
  | expire (left : List GrantId)
  /-- in a transaction that found the grant active or not -/
  | expiring (grant : GrantId) (active : Bool) (left : List GrantId)
  | reminders
  | remind (left : List (GrantId × ReminderStage))
  /-- in a transaction that found the grant still due -/
  | reminding (grant : GrantId) (stage : ReminderStage) (left : List (GrantId × ReminderStage))
  | finished
  | failed
  deriving DecidableEq, Repr

/-- The grant whose lock is held. -/
def Phase.holds : Phase → Option GrantId
  | .expiring grant _ _ | .reminding grant _ _ => some grant
  | _ => none

/-- A run, with what it visited. -/
structure RefreshRun where
  now : Time
  batch : ℕ
  visited : List GrantId := []
  phase : Phase := .page none
  deriving DecidableEq, Repr

/-- The tables, the stages, what was sent, and the runs. -/
structure Reminding (κ : Type) where
  db : Db κ
  warned : GrantId → Warned := fun _ => .none
  sent : List Sent := []
  runs : List RefreshRun := []

variable {κ : Type}

/-! ## Statements -/

namespace GrantRepo

/-- Active OAuth grants that expire before a time, with IDs after `after`, in ID order. -/
def dueForRefresh (db : Db κ) (before : Time) (after : Option GrantId) (limit : ℕ) :
    List GrantId :=
  db.grants.firstKeys (fun id g => g.kind = .oauth ∧ g.status = .active ∧
    g.expiresAt.any (· < before) ∧ after.all (· < id)) limit

section Dates

variable (reconnectBy : GrantId → Option Time) (s : Reminding κ) (now : Time)

/-- The grants of a query, in ID order. -/
def inOrder (p : GrantId → Grant κ → Bool) : List GrantId :=
  s.db.grants.firstKeys p s.db.grants.entries.length

/-- Grants whose date has passed and that are not revoked or warned as expired. -/
def reconnectByPassed : List GrantId :=
  inOrder s fun id g => (reconnectBy id).any (· ≤ now) ∧ g.status ≠ .revoked ∧
    s.warned id ≠ .expired

/-- The stage a grant with this date is due for. -/
def stageAt (by_ : Time) : ReminderStage := if by_ ≤ now + day then .oneDay else .sevenDays

/-- Active grants whose date is ahead and inside a window they have not been warned for. -/
def reconnectWarningsDue : List (GrantId × ReminderStage) :=
  (inOrder s fun id g => g.status = .active ∧ (reconnectBy id).any fun by_ => now < by_ ∧
    (by_ ≤ now + day ∧ s.warned id ∈ ReminderStage.oneDay.from_ ∨
      by_ ≤ now + 7 * day ∧ s.warned id ∈ ReminderStage.sevenDays.from_)).map fun id =>
    (id, ((reconnectBy id).map (stageAt now)).getD .sevenDays)

end Dates

end GrantRepo

/-- The accounts that are marked with their grant. -/
def markedAccounts (db : Db κ) (id : GrantId) : List AccountId :=
  match db.grants.lookup id with
  | none => []
  | some grant =>
    if grant.status = .revoked then []
    else (db.accounts.select fun _ a => a.grantId = some id ∧ a.status ≠ .disconnected ∧
      a.status ≠ .revoked ∧ a.ownerId = grant.ownerId).map Prod.fst

/-- The accounts of a grant that are not disconnected. -/
def idsOnGrant (db : Db κ) (owner : UserId) (id : GrantId) : List AccountId :=
  (db.accounts.select fun _ a => a.ownerId = owner ∧ a.grantId = some id ∧
    a.status ≠ .disconnected).map Prod.fst

/-! ## The runs -/

/-- How long before its token expires a grant is due. -/
def refreshAhead : Time := Nanos.toDb refreshWindow

inductive ReminderAction (κ : Type)
  /-- whatever else happens to grants and accounts -/
  | elsewhere (action : Action κ)
  | start (now : Time) (batch : ℕ)
  /-- what a run does next -/
  | advance (i : ℕ)
  /-- a failure of the database -/
  | fail (i : ℕ)

namespace Reminding

/-- A run goes on to its next phase. -/
def become (s : Reminding κ) (i : ℕ) (run : RefreshRun) : Reminding κ :=
  { s with runs := s.runs.set i run }

/-- Whether a run holds the grant's lock. -/
def locked (s : Reminding κ) (grant : GrantId) : Bool :=
  s.runs.any fun run => run.phase.holds = some grant

variable (reconnectBy : GrantId → Option Time)

/-- The stage after a commit. -/
def warn (s : Reminding κ) (grant : GrantId) (stage : Warned) : GrantId → Warned :=
  Function.update s.warned grant stage

/-- The end of a transaction of the deadline: the grant is marked if it was active, and its stage
written, unless it is gone. -/
def commitExpired (s : Reminding κ) (now : Time) (grant : GrantId) (active : Bool) :
    Option (Reminding κ) :=
  if (s.db.grants.lookup grant).isNone then none
  else if active then
    some { s with
      db := GrantRepo.markNeedsReconnect s.db grant
      warned := s.warn grant .expired
      sent := s.sent ++ [⟨grant, .deadlinePassed, markedAccounts s.db grant, now⟩] }
  else some { s with warned := s.warn grant .expired }

/-- `advance_reconnect_warned`: whether the grant is active and at a stage it may be moved from. -/
def mayAdvance (s : Reminding κ) (grant : GrantId) (stage : ReminderStage) : Option UserId :=
  match s.db.grants.lookup grant with
  | some row =>
    if row.status = .active ∧ s.warned grant ∈ stage.from_ then some row.ownerId else none
  | none => none

/-- The end of a transaction of a reminder: it is sent when the stage was moved. -/
def commitReminder (s : Reminding κ) (now : Time) (grant : GrantId) (stage : ReminderStage) :
    Reminding κ :=
  match s.mayAdvance grant stage with
  | some owner =>
    { s with
      warned := s.warn grant stage.to_
      sent := s.sent ++ [⟨grant, .reminder stage, idsOnGrant s.db owner grant, now⟩] }
  | none => s

/-- Whether the date is ahead and inside the stage's window. -/
def stillDue (now : Time) (grant : GrantId) (stage : ReminderStage) : Bool :=
  (reconnectBy grant).any fun by_ => now < by_ ∧ by_ ≤ now + stage.window

/-- What a run does next, if it may. -/
def advance (s : Reminding κ) (i : ℕ) (run : RefreshRun) : Option (Reminding κ) :=
  let goTo (s : Reminding κ) (phase : Phase) := some (s.become i { run with phase })
  match run.phase with
  | .page after =>
    let page := GrantRepo.dueForRefresh s.db (run.now + refreshAhead) after run.batch
    goTo s (.visit page (if page.length < run.batch then none else page.getLast?))
  | .visit [] none => goTo s .deadlines
  | .visit [] (some last) => goTo s (.page (some last))
  | .visit (grant :: left) next =>
    some (s.become i { run with visited := run.visited ++ [grant], phase := .visit left next })
  | .deadlines => goTo s (.expire (GrantRepo.reconnectByPassed reconnectBy s run.now))
  | .expire [] => goTo s .reminders
  | .expire (grant :: left) =>
    if s.locked grant then none
    else
      match s.db.grants.lookup grant with
      | none => goTo s (.expire left)
      | some row => goTo s (.expiring grant (row.status = .active) left)
  | .expiring grant active left =>
    match s.commitExpired run.now grant active with
    | none => goTo s .failed
    | some s => goTo s (.expire left)
  | .reminders => goTo s (.remind (GrantRepo.reconnectWarningsDue reconnectBy s run.now))
  | .remind [] => goTo s .finished
  | .remind ((grant, stage) :: left) =>
    if s.locked grant then none
    else if (s.db.grants.lookup grant).isSome ∧ stillDue reconnectBy run.now grant stage then
      goTo s (.reminding grant stage left)
    else goTo s (.remind left)
  | .reminding grant stage left =>
    goTo (s.commitReminder run.now grant stage) (.remind left)
  | .finished | .failed => none

/-- Whether a run has come to its end. -/
def ended : Phase → Bool
  | .finished | .failed => true
  | _ => false

def perform (s : Reminding κ) : ReminderAction κ → Option (Reminding κ)
  | .elsewhere action => (s.db.perform action).toOption.map fun db => { s with db }
  | .start now batch => some { s with runs := s.runs ++ [{ now, batch }] }
  | .advance i => (s.runs[i]?).bind (s.advance reconnectBy i)
  | .fail i => (s.runs[i]?).bind fun run =>
    if ended run.phase then none else some (s.become i { run with phase := .failed })

/-- One step of the runs at work. -/
def Step (s : Reminding κ) (a : ReminderAction κ) (t : Reminding κ) : Prop :=
  s.perform reconnectBy a = some t

end Reminding

end Postit.Accounts
