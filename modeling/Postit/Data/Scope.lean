import Postit.Data.Statements

/-!
# Who acts in whose workspace

Every repository call is made with an `OwnerScope`: the user who acts, the user whose workspace
it is, and the access the first has in it.  The owner may do everything; a delegate has one of
three levels, and what is reserved for the owner is refused at each of them.
-/

namespace Postit.Data

/-- What an action needs, in the order of what a delegate may be granted. -/
inductive Capability
  | view
  | edit
  | publish
  | ownerOnly
  deriving DecidableEq, Repr

/-- The delegation levels. -/
inductive Level
  | view
  | edit
  | publish
  deriving DecidableEq, Repr

/-- Whether the level is enough for the capability. -/
def Level.grants : Level → Capability → Bool
  | _, .view => true
  | .edit, .edit | .publish, .edit => true
  | .publish, .publish => true
  | _, _ => false

/-- What a caller may do in the owner's workspace; a delegate's account limit is absent when it
reaches every account. -/
inductive Access
  | owner
  | delegated (level : Level) (accounts : Option (List AccountId))
  deriving DecidableEq, Repr

/-- Who is acting, whose workspace they are acting in, and at what level. -/
structure OwnerScope where
  actor : UserId
  owner : UserId
  access : Access
  deriving DecidableEq, Repr

namespace OwnerScope

/-- The scope of a user acting in their own workspace. -/
def own (user : UserId) : OwnerScope := ⟨user, user, .owner⟩

/-- Whether the access allows an action, or why not. -/
def permits (scope : OwnerScope) (needed : Capability) : Except ScopeError Unit :=
  match scope.access with
  | .owner => .ok ()
  | .delegated level _ =>
      if needed = .ownerOnly then .error .ownerOnly
      else if level.grants needed then .ok () else .error .insufficientAccess

/-- The user acts in their own workspace. -/
def isOwner (scope : OwnerScope) : Bool := scope.access = .owner

/-- What is reserved for the owner, only the owner may do. -/
lemma isOwner_of_permits {scope : OwnerScope} (h : scope.permits .ownerOnly = .ok ()) :
    scope.isOwner = true := by
  obtain ⟨actor, owner, access⟩ := scope
  cases access with
  | owner => rfl
  | delegated level accounts => cases h

/-- The accounts the scope is limited to, if it is. -/
def accountFilter (scope : OwnerScope) : Option (List AccountId) :=
  match scope.access with
  | .owner => none
  | .delegated _ accounts => accounts

/-- Whether the scope reaches the account. -/
def allowsAccount (scope : OwnerScope) (account : AccountId) : Bool :=
  scope.accountFilter.all (·.contains account)

end OwnerScope

end Postit.Data
