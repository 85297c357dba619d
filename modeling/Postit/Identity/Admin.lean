import Postit.Identity.Users

/-!
# User administration

Sign-ins, the admin's operations on users, the purge of users who stayed pending, and the
`delete_user` jobs, over one directory of users.  Every operation is one transaction, the admin-set
lock and the row locks putting them in an order; a deletion job commits several, and may be run
again or crash between any two.  A refused operation is rolled back.
-/

namespace Postit.Identity

open Postit.Data (UserId)
open Postit.Framework

/-- A run of a `delete_user` job, by what it has committed. -/
inductive DeletionRun
  /-- found the user deleting -/
  | loaded (user : UserId)
  /-- ran the registered steps and pseudonymized the audit log -/
  | scrubbed (user : UserId)
  | ended
  deriving DecidableEq, Repr

/-- The users, the IDs given out so far, the `delete_user` jobs enqueued, and their runs. -/
structure Directory where
  users : Users := .empty
  nextId : UserId := 0
  jobs : List UserId := []
  runs : List DeletionRun := []

/-! ## Operations -/

namespace UserAdminService

/-- Sets the user to `deleting` and enqueues the job. -/
def startDeletion (s : Directory) (target : UserId) : Except IdentityError Directory := do
  let (users, _) ← UsersRepo.setStatus s.users target .deleting
  .ok { s with users, jobs := target :: s.jobs }

/-- The row, locked, of a user who is not being deleted. -/
def lockPresent (s : Directory) (target : UserId) : Except IdentityError UserRecord := do
  let user ← UsersRepo.lockById s.users target
  if user.status = .deleting then .error .userDeleting else .ok user

/-- Goes on when the condition holds. -/
def ensure (condition : Prop) [Decidable condition] (err : IdentityError) :
    Except IdentityError Unit :=
  if condition then .ok () else .error err

/-- Moves the user from one status to another. -/
def moveStatus (s : Directory) (target : UserId) (user : UserRecord) (from_ to_ : UserStatus) :
    Except IdentityError Directory := do
  ensure (user.status = from_) (.invalidTransition user.status.asStr to_.asStr)
  let (users, _) ← UsersRepo.setStatus s.users target to_
  .ok { s with users }

def approve (s : Directory) (target : UserId) : Except IdentityError Directory := do
  let user ← lockPresent s target
  moveStatus s target user .pending .active

def enable (s : Directory) (target : UserId) : Except IdentityError Directory := do
  let user ← lockPresent s target
  moveStatus s target user .disabled .active

def disable (s : Directory) (target : UserId) : Except IdentityError Directory := do
  let user ← lockPresent s target
  ensure (user.status = .active) (.invalidTransition user.status.asStr "disabled")
  ensure (¬ (user.role = .admin ∧ UsersRepo.countActiveAdmins s.users ≤ 1)) .lastAdmin
  let (users, _) ← UsersRepo.setStatus s.users target .disabled
  .ok { s with users }

def changeRole (s : Directory) (target : UserId) (role : UserRole) :
    Except IdentityError Directory := do
  let user ← lockPresent s target
  ensure (user.status = .active ∨ user.status = .disabled)
    (.invalidTransition user.status.asStr role.asStr)
  ensure (¬ (user.role = .admin ∧ role = .member ∧ user.status = .active ∧
    UsersRepo.countActiveAdmins s.users ≤ 1)) .lastAdmin
  let (users, _) ← UsersRepo.setRole s.users target role
  .ok { s with users }

def delete (s : Directory) (target : UserId) : Except IdentityError Directory := do
  let user ← lockPresent s target
  ensure (¬ (user.role = .admin ∧ user.status = .active ∧
    UsersRepo.countActiveAdmins s.users ≤ 1)) .lastAdmin
  startDeletion s target

def deleteUser (s : Directory) (actor target : UserId) : Except IdentityError Directory := do
  ensure (actor ≠ target) .cannotDeleteSelf
  delete s target

def deleteSelf (s : Directory) (user : UserId) : Except IdentityError Directory := delete s user

end UserAdminService

/-- One transaction of the purge, for an ID that it listed: the user may have changed since. -/
def purgePendingUser (s : Directory) (id : UserId) : Except IdentityError Directory :=
  match s.users.lookup id with
  | none => .ok s
  | some user =>
    if user.status = .pending then UserAdminService.startDeletion s id else .ok s

/-- A sign-in that misses the cache. -/
def signIn (bootstrap : BootstrapSettings) (s : Directory) (c : Claims) :
    Except IdentityError Directory := do
  let (users, _, _) ← transform bootstrap s.users s.nextId c
  .ok { s with users, nextId := s.nextId + 1 }

/-! ## The `delete_user` job -/

namespace DeleteUserHandler

/-- Loads the user: gone means done, and a user who is not deleting is a fatal error. -/
def load (s : Directory) (user : UserId) : DeletionRun :=
  match s.users.lookup user with
  | none => .ended
  | some record => if record.status = .deleting then .loaded user else .ended

/-- Deletes the row under its lock. -/
def remove (s : Directory) (user : UserId) : Directory := { s with users := s.users.erase user }

end DeleteUserHandler

/-! ## Steps -/

/-- What happens in the directory. -/
inductive Action
  | signIn (claims : Claims)
  | approve (target : UserId)
  | disable (target : UserId)
  | enable (target : UserId)
  | changeRole (target : UserId) (role : UserRole)
  | deleteUser (actor target : UserId)
  | deleteSelf (user : UserId)
  | purgePending (id : UserId)
  /-- a run of an enqueued job starts -/
  | load (user : UserId)
  /-- a run has done the registered steps and pseudonymized -/
  | scrub (i : ℕ)
  | remove (i : ℕ)
  /-- a run fails or is lost; the job may be run again -/
  | crash (i : ℕ)

/-- What an action makes of the directory, when it is not refused. -/
def Directory.perform (bootstrap : BootstrapSettings) (s : Directory) : Action → Option Directory
  | .signIn claims => (Identity.signIn bootstrap s claims).toOption
  | .approve target => (UserAdminService.approve s target).toOption
  | .disable target => (UserAdminService.disable s target).toOption
  | .enable target => (UserAdminService.enable s target).toOption
  | .changeRole target role => (UserAdminService.changeRole s target role).toOption
  | .deleteUser actor target => (UserAdminService.deleteUser s actor target).toOption
  | .deleteSelf user => (UserAdminService.deleteSelf s user).toOption
  | .purgePending id => (purgePendingUser s id).toOption
  | .load user =>
    if user ∈ s.jobs then some { s with runs := s.runs ++ [DeleteUserHandler.load s user] }
    else none
  | .scrub i =>
    match s.runs[i]? with
    | some (.loaded user) => some { s with runs := s.runs.set i (.scrubbed user) }
    | _ => none
  | .remove i =>
    match s.runs[i]? with
    | some (.scrubbed user) =>
      some { DeleteUserHandler.remove s user with runs := s.runs.set i .ended }
    | _ => none
  | .crash i => if i < s.runs.length then some { s with runs := s.runs.set i .ended } else none

def Directory.Step (bootstrap : BootstrapSettings) (s : Directory) (a : Action) (t : Directory) :
    Prop := s.perform bootstrap a = some t

end Postit.Identity
