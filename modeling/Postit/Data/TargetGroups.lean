import Postit.Data.Scope
import Postit.Framework.Table

/-!
# Target groups

Named sets of connected accounts that a post can be sent to in one pick.  A group is visible to
every caller of its owner, its members only as far as the caller's account limit reaches.

The rows' `created_by` and `updated_by` are left out: nothing reads them.  The foreign keys are
fields of the database, so that a member's row always names a group and an account of its owner's.
-/

namespace Postit.Data

open Postit.Framework

abbrev TargetGroupId := ℕ

/-- A row of `target_groups`. -/
structure GroupRow where
  owner : UserId
  name : String
  createdAt : Time
  updatedAt : Time
  deriving DecidableEq, Repr

/-- A row of `target_group_accounts`, whose key is the group and the account. -/
structure MemberRow where
  owner : UserId
  createdAt : Time
  deriving DecidableEq, Repr

abbrev MemberKey := TargetGroupId × AccountId

/-- The tables, with the owner of each connected account. -/
structure GroupDb where
  groups : Table TargetGroupId GroupRow
  members : Table MemberKey MemberRow
  accounts : Table AccountId UserId
  groupKey : ∀ {k row}, members.lookup k = some row →
    (groups.lookup k.1).map GroupRow.owner = some row.owner
  accountKey : ∀ {k row}, members.lookup k = some row → accounts.lookup k.2 = some row.owner

namespace GroupDb

/-! ## Statements -/

/-- No rows. -/
def empty : GroupDb := ⟨∅, ∅, ∅, fun h => by simp at h, fun h => by simp at h⟩

/-- A new group, unless its ID is taken. -/
def insertGroup? (db : GroupDb) (id : TargetGroupId) (row : GroupRow) : Option GroupDb :=
  if h : db.groups.lookup id = none then
    some { db with
      groups := db.groups.insert id row
      groupKey := fun {k _} hk => by
        have hkey := db.groupKey hk
        have hne : k.1 ≠ id := fun heq => by
          rw [heq, h] at hkey
          cases hkey
        rwa [AList.lookup_insert_ne hne] }
  else none

/-- The groups that satisfy the condition, with another name or time. -/
def updateGroups (db : GroupDb) (p : TargetGroupId → GroupRow → Bool) (name : String → String)
    (now : Time) : GroupDb :=
  { db with
    groups := db.groups.updateWhere p fun row =>
      { row with name := name row.name, updatedAt := now }
    groupKey := fun {k row} hk => by
      rw [Table.lookup_updateWhere, ← db.groupKey hk, Option.map_map]
      congr 1
      funext row
      simp only [Function.comp_apply]
      split <;> rfl }

/-- The groups that satisfy the condition are deleted, and their members with them. -/
def deleteGroups (db : GroupDb) (p : TargetGroupId → GroupRow → Bool) : GroupDb :=
  { db with
    groups := db.groups.deleteWhere p
    members := db.members.deleteWhere fun k _ => (db.groups.lookup k.1).any (p k.1)
    groupKey := fun {k row} hk => by
      rw [Table.lookup_deleteWhere, Option.filter_eq_some_iff] at hk
      have hkey := db.groupKey hk.1
      obtain ⟨group, hgroup, howner⟩ := Option.map_eq_some_iff.mp hkey
      rw [Table.lookup_deleteWhere, hgroup, Option.filter_some, if_pos, Option.map_some, howner]
      simpa [hgroup] using hk.2
    accountKey := fun {k row} hk => by
      rw [Table.lookup_deleteWhere, Option.filter_eq_some_iff] at hk
      exact db.accountKey hk.1 }

/-- A new member, unless it is one already or a foreign key does not hold. -/
def insertMember? (db : GroupDb) (k : MemberKey) (row : MemberRow) : Option GroupDb :=
  if h : db.members.lookup k = none ∧
      (db.groups.lookup k.1).map GroupRow.owner = some row.owner ∧
      db.accounts.lookup k.2 = some row.owner then
    some { db with
      members := db.members.insert k row
      groupKey := fun {k' row'} hk => by
        by_cases heq : k' = k
        · subst heq
          rw [AList.lookup_insert, Option.some.injEq] at hk
          exact hk ▸ h.2.1
        · exact db.groupKey (by rwa [AList.lookup_insert_ne heq] at hk)
      accountKey := fun {k' row'} hk => by
        by_cases heq : k' = k
        · subst heq
          rw [AList.lookup_insert, Option.some.injEq] at hk
          exact hk ▸ h.2.2
        · exact db.accountKey (by rwa [AList.lookup_insert_ne heq] at hk) }
  else none

/-- The members that satisfy the condition are deleted. -/
def deleteMembers (db : GroupDb) (p : MemberKey → MemberRow → Bool) : GroupDb :=
  { db with
    members := db.members.deleteWhere p
    groupKey := fun {k row} hk => by
      rw [Table.lookup_deleteWhere, Option.filter_eq_some_iff] at hk
      exact db.groupKey hk.1
    accountKey := fun {k row} hk => by
      rw [Table.lookup_deleteWhere, Option.filter_eq_some_iff] at hk
      exact db.accountKey hk.1 }

/-- An account is connected, unless its ID is taken. -/
def insertAccount? (db : GroupDb) (id : AccountId) (owner : UserId) : Option GroupDb :=
  if h : db.accounts.lookup id = none then
    some { db with
      accounts := db.accounts.insert id owner
      accountKey := fun {k _} hk => by
        have hkey := db.accountKey hk
        have hne : k.2 ≠ id := fun heq => by
          rw [heq, h] at hkey
          cases hkey
        rwa [AList.lookup_insert_ne hne] }
  else none

/-- A user is deleted, with everything that is theirs. -/
def deleteUser (db : GroupDb) (user : UserId) : GroupDb where
  groups := db.groups.deleteWhere fun _ row => row.owner = user
  members := db.members.deleteWhere fun _ row => row.owner = user
  accounts := db.accounts.deleteWhere fun _ owner => owner = user
  groupKey := fun {k row} hk => by
    rw [Table.lookup_deleteWhere, Option.filter_eq_some_iff] at hk
    obtain ⟨group, hgroup, howner⟩ := Option.map_eq_some_iff.mp (db.groupKey hk.1)
    rw [Table.lookup_deleteWhere, hgroup, Option.filter_some, if_pos, Option.map_some, howner]
    simpa [howner] using hk.2
  accountKey := fun {k row} hk => by
    rw [Table.lookup_deleteWhere, Option.filter_eq_some_iff] at hk
    rw [Table.lookup_deleteWhere, db.accountKey hk.1, Option.filter_some, if_pos hk.2]

end GroupDb

/-! ## Pages -/

/-- A page, the first being page 1. -/
structure Pagination where
  page : ℕ
  pageSize : ℕ
  deriving DecidableEq, Repr

/-- The `LIMIT` and the `OFFSET` of a page. -/
def Pagination.bounds (pagination : Pagination) : ℕ × ℕ :=
  let offset := min ((pagination.page - 1) * pagination.pageSize) (2 ^ 64 - 1)
  (if pagination.pageSize < 2 ^ 63 then pagination.pageSize else 10,
    if offset < 2 ^ 63 then offset else 0)

/-- One page, and how many there are in all. -/
structure ResultSet (α : Type) where
  data : List α
  total : ℕ
  pagination : Pagination
  deriving DecidableEq, Repr

/-! ## The repository -/

/-- A group with the members the caller's limit reaches. -/
structure TargetGroup where
  id : TargetGroupId
  name : String
  /-- The oldest member first. -/
  accounts : List AccountId
  createdAt : Time
  updatedAt : Time
  deriving DecidableEq, Repr

/-- The row with its members. -/
def GroupRow.with_ (row : GroupRow) (id : TargetGroupId) (accounts : List AccountId) :
    TargetGroup :=
  { id, name := row.name, accounts, createdAt := row.createdAt, updatedAt := row.updatedAt }

namespace TargetGroupRepo

/-- `ORDER BY created_at, account_id` -/
def byCreation (a b : MemberKey × MemberRow) : Bool :=
  a.2.createdAt < b.2.createdAt ∨ a.2.createdAt = b.2.createdAt ∧ a.1.2 ≤ b.1.2

/-- The members of the groups that the scope's limit reaches. -/
def membersOf (db : GroupDb) (scope : OwnerScope) (groups : List TargetGroupId) :
    List (MemberKey × MemberRow) :=
  (db.members.select fun k row => row.owner = scope.owner ∧ groups.contains k.1 ∧
    scope.accountFilter.all (·.contains k.2)).insertionSort fun a b => byCreation a b = true

/-- The accounts of one of the groups. -/
def accountsIn (rows : List (MemberKey × MemberRow)) (group : TargetGroupId) : List AccountId :=
  (rows.filter fun r => r.1.1 = group).map fun r => r.1.2

variable (scope : OwnerScope)

/-- Whether the scope allows the action. -/
def require_ (needed : Capability) : Except DataError Unit :=
  (scope.permits needed).mapError .scope

/-- The accounts without repeats, or an error when one is outside the scope's limit. -/
def reachable (accounts : List AccountId) : Except DataError (List AccountId) :=
  if accounts.any fun account => !scope.allowsAccount account then .error .notFound
  else .ok (accounts.insertionSort (· ≤ ·)).dedup

/-- One member is added, if the account is one of the owner's. -/
def addMember (group : TargetGroupId) (now : Time) (db : GroupDb) (account : AccountId) :
    Except DataError GroupDb :=
  if db.accounts.lookup account = some scope.owner then
    match db.insertMember? (group, account) { owner := scope.owner, createdAt := now } with
    | some db' => .ok db'
    | none => .error .sql
  else .error .notFound

def addMembers (db : GroupDb) (group : TargetGroupId) (accounts : List AccountId) (now : Time) :
    Except DataError GroupDb :=
  accounts.foldlM (addMember scope group now) db

/-- One group. -/
def get (db : GroupDb) (id : TargetGroupId) : Except DataError TargetGroup := do
  require_ scope .view
  match db.groups.lookup id with
  | some row =>
    if row.owner = scope.owner then .ok (row.with_ id (accountsIn (membersOf db scope [id]) id))
    else .error .notFound
  | none => .error .notFound

/-- The owner's groups by name, `before` being the database's order of texts. -/
def list (before : String → String → Bool) (db : GroupDb) (pagination : Pagination) :
    Except DataError (ResultSet TargetGroup) := do
  require_ scope .view
  let owned := db.groups.select fun _ row => row.owner = scope.owner
  let rows := ((owned.insertionSort fun a b =>
    (if a.2.name = b.2.name then decide (a.1 ≤ b.1) else before a.2.name b.2.name) = true).drop
      pagination.bounds.2).take pagination.bounds.1
  let members := membersOf db scope (rows.map Prod.fst)
  .ok {
    data := rows.map fun r => r.2.with_ r.1 (accountsIn members r.1)
    total := owned.length
    pagination }

/-- What was written is kept and the group read again, or nothing was written. -/
def committed (db : GroupDb) (id : TargetGroupId) :
    Except DataError GroupDb → Except DataError TargetGroup × GroupDb
  | .ok db' => (get scope db' id, db')
  | .error err => (.error err, db)

/-- The transaction of `create`. -/
def createTx (id : TargetGroupId) (name : String) (accounts : List AccountId) (now : Time)
    (db : GroupDb) : Except DataError GroupDb := do
  require_ scope .edit
  let members ← reachable scope accounts
  match db.insertGroup? id { owner := scope.owner, name, createdAt := now, updatedAt := now } with
  | some db' => addMembers scope db' id members now
  | none => .error .sql

/-- Creates a group with its first members. -/
def create (id : TargetGroupId) (name : String) (accounts : List AccountId) (now : Time)
    (db : GroupDb) : Except DataError TargetGroup × GroupDb :=
  committed scope db id (createTx scope id name accounts now db)

/-- The owner has the group. -/
def owns (db : GroupDb) (id : TargetGroupId) : Bool :=
  (db.groups.lookup id).any fun row => row.owner = scope.owner

/-- The statement of `rename`. -/
def renameTx (id : TargetGroupId) (name : String) (now : Time) (db : GroupDb) :
    Except DataError GroupDb := do
  require_ scope .edit
  if owns scope db id then
    .ok (db.updateGroups (fun k row => k = id ∧ row.owner = scope.owner) (fun _ => name) now)
  else .error .notFound

/-- Renames a group. -/
def rename (id : TargetGroupId) (name : String) (now : Time) (db : GroupDb) :
    Except DataError TargetGroup × GroupDb :=
  committed scope db id (renameTx scope id name now db)

/-- The members of the group that the scope's limit reaches are deleted. -/
def deleteReached (id : TargetGroupId) (db : GroupDb) : GroupDb :=
  db.deleteMembers fun k row => row.owner = scope.owner ∧ k.1 = id ∧
    scope.accountFilter.all (·.contains k.2)

/-- The transaction of `set_accounts`. -/
def setAccountsTx (id : TargetGroupId) (accounts : List AccountId) (now : Time) (db : GroupDb) :
    Except DataError GroupDb := do
  require_ scope .edit
  let members ← reachable scope accounts
  if owns scope db id then
    let touched :=
      db.updateGroups (fun k row => k = id ∧ row.owner = scope.owner) (fun name => name) now
    addMembers scope (deleteReached scope id touched) id members now
  else .error .notFound

/-- Replaces the members the caller's limit reaches. -/
def setAccounts (id : TargetGroupId) (accounts : List AccountId) (now : Time) (db : GroupDb) :
    Except DataError TargetGroup × GroupDb :=
  committed scope db id (setAccountsTx scope id accounts now db)

/-- Deletes a group. -/
def delete (id : TargetGroupId) (db : GroupDb) : Except DataError Unit × GroupDb :=
  match require_ scope .edit with
  | .error err => (.error err, db)
  | .ok () =>
    if owns scope db id then
      (.ok (), db.deleteGroups fun k row => k = id ∧ row.owner = scope.owner)
    else (.error .notFound, db)

end TargetGroupRepo

/-! ## Calls -/

/-- A call, or what else becomes of the tables: an account is connected or disconnected, or a user
deleted. -/
inductive GroupCall
  | create (scope : OwnerScope) (id : TargetGroupId) (name : String) (accounts : List AccountId)
      (now : Time)
  | get (scope : OwnerScope) (id : TargetGroupId)
  | list (scope : OwnerScope) (pagination : Pagination)
  | rename (scope : OwnerScope) (id : TargetGroupId) (name : String) (now : Time)
  | setAccounts (scope : OwnerScope) (id : TargetGroupId) (accounts : List AccountId) (now : Time)
  | delete (scope : OwnerScope) (id : TargetGroupId)
  | connected (owner : UserId) (account : AccountId)
  | disconnected (owner : UserId) (account : AccountId)
  | userDeleted (user : UserId)
  deriving DecidableEq, Repr

/-- What a call returns. -/
inductive GroupAnswer
  | group (result : Except DataError TargetGroup)
  | page (result : Except DataError (ResultSet TargetGroup))
  | done (result : Except DataError Unit)
  deriving DecidableEq

/-- What a call returns, and what the tables are then. -/
def GroupCall.perform (before : String → String → Bool) (db : GroupDb) :
    GroupCall → GroupAnswer × GroupDb
  | .create scope group name accounts now =>
    (TargetGroupRepo.create scope group name accounts now db).map .group id
  | .get scope group => (.group (TargetGroupRepo.get scope db group), db)
  | .list scope pagination => (.page (TargetGroupRepo.list scope before db pagination), db)
  | .rename scope group name now => (TargetGroupRepo.rename scope group name now db).map .group id
  | .setAccounts scope group accounts now =>
    (TargetGroupRepo.setAccounts scope group accounts now db).map .group id
  | .delete scope group => (TargetGroupRepo.delete scope group db).map .done id
  | .connected owner account => (.done (.ok ()), (db.insertAccount? account owner).getD db)
  | .disconnected owner account =>
    (.done (.ok ()), db.deleteMembers fun k row => row.owner = owner ∧ k.2 = account)
  | .userDeleted user => (.done (.ok ()), db.deleteUser user)

/-- One call after the other, and what each returns. -/
def GroupStep (before : String → String → Bool) (db : GroupDb)
    (event : GroupCall × GroupAnswer) (db' : GroupDb) : Prop :=
  event.1.perform before db = (event.2, db')

end Postit.Data
