import Mathlib.Logic.Function.Basic
import Postit.Identity.Users

/-!
# The principal cache

One process's cache of resolved principals: two maps and a counter, used by any number of
authenticate calls while users change in the database.  Every access to a map, to the counter or to
the database is one step, and between two of them anything else may happen.  A committed change is
later followed by an invalidation, which bumps the counter and then evicts.

Entries may go at any time, their time to live being over.  The counter does not come round: that
takes `2 ^ 64` invalidations within one call.
-/

namespace Postit.Identity

open Postit.Data (UserId)
open Postit.Framework

/-- The authenticated caller. -/
structure Principal where
  userId : UserId
  role : UserRole
  status : UserStatus
  deriving DecidableEq, Repr

/-- The principal of a row. -/
def Principal.ofRecord (id : UserId) (u : UserRecord) : Principal where
  userId := id
  role := u.role
  status := u.status

/-- The two maps and the counter. -/
structure PrincipalCache where
  identityIndex : String × String → Option UserId := fun _ => none
  principals : UserId → Option Principal := fun _ => none
  generation : ℕ := 0

namespace PrincipalCache

/-- The cached principal of the identity, if present. -/
def get (c : PrincipalCache) (identity : String × String) : Option Principal :=
  (c.identityIndex identity).bind c.principals

def insertIndex (c : PrincipalCache) (identity : String × String) (user : UserId) :
    PrincipalCache :=
  { c with identityIndex := Function.update c.identityIndex identity (some user) }

def insertPrincipal (c : PrincipalCache) (p : Principal) : PrincipalCache :=
  { c with principals := Function.update c.principals p.userId (some p) }

def evict (c : PrincipalCache) (user : UserId) : PrincipalCache :=
  { c with principals := Function.update c.principals user none }

def evictIndex (c : PrincipalCache) (identity : String × String) : PrincipalCache :=
  { c with identityIndex := Function.update c.identityIndex identity none }

def evictAll (c : PrincipalCache) : PrincipalCache := { c with principals := fun _ => none }

def bump (c : PrincipalCache) : PrincipalCache := { c with generation := c.generation + 1 }

end PrincipalCache

/-- A call or an invalidation at work, by what it does next. -/
inductive CacheTask
  /-- missed the cache -/
  | missed (claims : Claims)
  /-- read the counter -/
  | counted (claims : Claims) (generation : ℕ)
  /-- read the database -/
  | resolved (identity : String × String) (generation : ℕ) (p : Principal)
  /-- saw the counter unchanged -/
  | checked (identity : String × String) (generation : ℕ) (p : Principal)
  /-- wrote the index -/
  | indexed (identity : String × String) (generation : ℕ) (p : Principal)
  /-- wrote the principal -/
  | inserted (generation : ℕ) (p : Principal)
  /-- evicts a user's principal -/
  | evicting (user : UserId)
  /-- evicts every principal -/
  | evictingAll
  | done

/-- The process and the database it reads: the users, the IDs given out, the changes of users that
are committed and not yet invalidated, the cache, and who is at work on it. -/
structure Process where
  users : Users := .empty
  nextId : UserId := 0
  changed : List UserId := []
  cache : PrincipalCache := {}
  tasks : List CacheTask := []

/-- A change of one user, by any process. -/
inductive UserChange
  | setStatus (status : UserStatus)
  | setRole (role : UserRole)
  | grantAdmin
  | delete

inductive CacheAction
  /-- a user is changed -/
  | change (user : UserId) (change : UserChange)
  /-- another process signs a user in -/
  | signIn (claims : Claims)
  /-- a call misses the cache -/
  | miss (claims : Claims)
  /-- a call reads the counter -/
  | count (i : ℕ)
  /-- a call reads or creates its user -/
  | resolve (i : ℕ)
  /-- a call goes on with its insert -/
  | insert (i : ℕ)
  /-- a call fails or is dropped before it inserts -/
  | fail (i : ℕ)
  /-- an invalidation of a user bumps the counter -/
  | invalidateUser (user : UserId)
  /-- an invalidation of all users bumps the counter -/
  | invalidateAll
  /-- an invalidation, or an insert that was overtaken, evicts -/
  | evict (i : ℕ)
  /-- an entry's time is over -/
  | expireIndex (identity : String × String)
  | expirePrincipal (user : UserId)

namespace Process

def spawn (s : Process) (task : CacheTask) : Process := { s with tasks := s.tasks ++ [task] }

def become (s : Process) (i : ℕ) (task : CacheTask) : Process :=
  { s with tasks := s.tasks.set i task }

/-- A change of a user, committed. -/
def applyChange (users : Users) (user : UserId) : UserChange → Except IdentityError Users
  | .setStatus status => (UsersRepo.setStatus users user status).map Prod.fst
  | .setRole role => (UsersRepo.setRole users user role).map Prod.fst
  | .grantAdmin => (UsersRepo.grantAdmin users user).map Prod.fst
  | .delete =>
    match users.lookup user with
    | none => .error .notFound
    | some _ => .ok (users.erase user)

/-- The steps of `insert_if_current` after the database read. -/
def insertStep (s : Process) (i : ℕ) : CacheTask → Option Process
  | .resolved identity generation p =>
    if s.cache.generation ≠ generation then some (s.become i .done)
    else some (s.become i (.checked identity generation p))
  | .checked identity generation p =>
    some
      ({ s with cache := s.cache.insertIndex identity p.userId }.become i
        (.indexed identity generation p))
  | .indexed _ generation p =>
    some ({ s with cache := s.cache.insertPrincipal p }.become i (.inserted generation p))
  | .inserted generation p =>
    if s.cache.generation ≠ generation then some (s.become i (.evicting p.userId))
    else some (s.become i .done)
  | _ => none

def perform (bootstrap : BootstrapSettings) (s : Process) : CacheAction → Option Process
  | .change user change =>
    ((applyChange s.users user change).map fun users =>
      { s with users, changed := user :: s.changed }).toOption
  | .signIn claims =>
    ((transform bootstrap s.users s.nextId claims).map fun r =>
      { s with users := r.1, nextId := s.nextId + 1 }).toOption
  | .miss claims =>
    if s.cache.get (claims.iss, claims.sub) = none then some (s.spawn (.missed claims)) else none
  | .count i =>
    match s.tasks[i]? with
    | some (.missed claims) => some (s.become i (.counted claims s.cache.generation))
    | _ => none
  | .resolve i =>
    match s.tasks[i]? with
    | some (.counted claims generation) =>
      ((transform bootstrap s.users s.nextId claims).map fun r =>
        { s with users := r.1, nextId := s.nextId + 1 }.become i
          (.resolved (claims.iss, claims.sub) generation (.ofRecord r.2.1 r.2.2))).toOption
    | _ => none
  | .insert i => s.tasks[i]?.bind (s.insertStep i)
  | .fail i =>
    match s.tasks[i]? with
    | some (.missed _) | some (.counted _ _) | some (.resolved _ _ _) => some (s.become i .done)
    | _ => none
  | .invalidateUser user =>
    some
      ({ s with
        changed := s.changed.filter (· ≠ user)
        cache := s.cache.bump }.spawn (.evicting user))
  | .invalidateAll => some ({ s with cache := s.cache.bump }.spawn .evictingAll)
  | .evict i =>
    match s.tasks[i]? with
    | some (.evicting user) => some ({ s with cache := s.cache.evict user }.become i .done)
    | some .evictingAll => some ({ s with cache := s.cache.evictAll }.become i .done)
    | _ => none
  | .expireIndex identity => some { s with cache := s.cache.evictIndex identity }
  | .expirePrincipal user => some { s with cache := s.cache.evict user }

def Step (bootstrap : BootstrapSettings) (s : Process) (a : CacheAction) (t : Process) : Prop :=
  s.perform bootstrap a = some t

end Process

/-- Whether an insert or an invalidation is between its first and its last step. -/
def CacheTask.Underway : CacheTask → Prop
  | .checked _ _ _ | .indexed _ _ _ | .inserted _ _ | .evicting _ | .evictingAll => True
  | .missed _ | .counted _ _ | .resolved _ _ _ | .done => False

instance : DecidablePred CacheTask.Underway
  | .checked _ _ _ | .indexed _ _ _ | .inserted _ _ | .evicting _ | .evictingAll => .isTrue trivial
  | .missed _ | .counted _ _ | .resolved _ _ _ | .done => .isFalse id

/-- Every committed change has been invalidated, and no insert or invalidation is underway. -/
def Process.Settled (s : Process) : Prop := s.changed = [] ∧ ∀ task ∈ s.tasks, ¬ task.Underway

instance (s : Process) : Decidable s.Settled :=
  inferInstanceAs (Decidable (s.changed = [] ∧ ∀ task ∈ s.tasks, ¬ task.Underway))

end Postit.Identity
