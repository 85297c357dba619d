import Postit.Core.Text
import Postit.Data.Schema
import Postit.Framework.Results

/-!
# Users and sign-in

The `users` table, each identity in at most one row, with the statements on it and what a sign-in
makes of it: the row is created or found, promoted when the bootstrap rule says so, and its
profile refreshed.  Preferences, limits, audit events, mail and notices are left out.
-/

namespace Postit.Identity

open Postit.Data (UserId)
open Postit.Framework

/-- Role stored in Postgres. -/
inductive UserRole
  | admin
  | member
  deriving DecidableEq, Repr

/-- Account status stored in Postgres. -/
inductive UserStatus
  | pending
  | active
  | disabled
  | deleting
  deriving DecidableEq, Repr

/-- The value stored in the `role` column. -/
def UserRole.asStr : UserRole → String
  | .admin => "admin"
  | .member => "member"

/-- The value stored in the `status` column. -/
def UserStatus.asStr : UserStatus → String
  | .pending => "pending"
  | .active => "active"
  | .disabled => "disabled"
  | .deleting => "deleting"

/-- A row of `users`. -/
structure UserRecord where
  oidcIssuer : String
  oidcSubject : String
  email : Option String := none
  emailVerified : Bool := false
  displayName : String
  role : UserRole
  status : UserStatus
  deriving DecidableEq

/-- The issuer and the subject, which identify the user. -/
def UserRecord.identity (u : UserRecord) : String × String := (u.oidcIssuer, u.oidcSubject)

def UserRecord.withProfile (u : UserRecord) (email : Option String) (emailVerified : Bool)
    (displayName : String) : UserRecord :=
  { u with email, emailVerified, displayName }

lemma UserRecord.identity_withProfile (u : UserRecord) (email : Option String)
    (emailVerified : Bool) (displayName : String) :
    (u.withProfile email emailVerified displayName).identity = u.identity := rfl

abbrev Users := IndexedTable UserId UserRecord UserRecord.identity

inductive IdentityError
  | notFound
  | conflict
  | userDeleting
  | invalidTransition (from_ to_ : String)
  | lastAdmin
  | cannotDeleteSelf
  deriving DecidableEq, Repr

/-! ## Statements -/

namespace UsersRepo

/-- Inserts a new pending member, or does nothing if the user already exists.  Returns whether it
did, and the row with its key. -/
def provision (users : Users) (id : UserId) (issuer subject displayName : String) :
    Except IdentityError (Users × Bool × UserId × UserRecord) :=
  match users.byIndex (issuer, subject) with
  | some (key, row) => .ok (users, false, key, row)
  | none =>
    let row : UserRecord :=
      { oidcIssuer := issuer, oidcSubject := subject, displayName, role := .member,
        status := .pending }
    match users.insert? id row with
    | some users => .ok (users, true, id, row)
    | none => .error .conflict

def countActiveAdmins (users : Users) : ℕ :=
  (users.rows.select fun _ u => u.role = .admin ∧ u.status = .active).length

/-- Changes the row with the key and returns it. -/
def updateOne (users : Users) (id : UserId) (f : UserRecord → UserRecord)
    (hf : ∀ u, (f u).identity = u.identity) : Except IdentityError (Users × UserRecord) :=
  match users.lookup id with
  | none => .error .notFound
  | some u => .ok (users.updateWhere (fun key _ => key = id) f hf, f u)

/-- Promotes the user to an active admin. -/
def grantAdmin (users : Users) (id : UserId) : Except IdentityError (Users × UserRecord) :=
  updateOne users id (fun u => { u with role := .admin, status := .active }) fun _ => rfl

def setStatus (users : Users) (id : UserId) (status : UserStatus) :
    Except IdentityError (Users × UserRecord) :=
  updateOne users id (fun u => { u with status }) fun _ => rfl

def setRole (users : Users) (id : UserId) (role : UserRole) :
    Except IdentityError (Users × UserRecord) :=
  updateOne users id (fun u => { u with role }) fun _ => rfl

def updateProfileClaims (users : Users) (id : UserId) (email : Option String)
    (emailVerified : Bool) (displayName : String) : Users :=
  users.updateWhere (fun key _ => key = id) (·.withProfile email emailVerified displayName)
    (·.identity_withProfile email emailVerified displayName)

/-- The row with the key, locked. -/
def lockById (users : Users) (id : UserId) : Except IdentityError UserRecord :=
  match users.lookup id with
  | none => .error .notFound
  | some u => .ok u

end UsersRepo

/-! ## Sign-in -/

/-- Who becomes the first admin. -/
structure BootstrapSettings where
  adminEmail : Option String := none
  adminSubject : Option String := none

/-- What a sign-in knows of the user, from the token and `userinfo`. -/
structure Claims where
  iss : String
  sub : String
  email : Option String := none
  -- the claim about the email, if there is one
  verifiedClaim : Option Bool := none
  -- a name claim
  named : Option String := none
  userinfoUnavailable : Bool := false

/-- Whether the verified claims are those of the first admin. -/
def bootstrapMatches (bootstrap : BootstrapSettings) (subject : String) (email : Option String)
    (emailVerified : Bool) : Bool :=
  match bootstrap.adminSubject, bootstrap.adminEmail with
  | some adminSubject, _ => adminSubject = subject
  | none, some adminEmail => emailVerified && email.any (eqIgnoreAsciiCase · adminEmail)
  | none, none => false

namespace Claims

/-- Whether the email is verified, when the claims say nothing about it: no. -/
def emailVerified (c : Claims) : Bool := c.verifiedClaim.getD false

def displayName (c : Claims) : String := (c.named.or c.email).getD c.sub

/-- Whether these are the first admin's claims. -/
def bootstraps (bootstrap : BootstrapSettings) (c : Claims) : Bool :=
  bootstrapMatches bootstrap c.sub c.email c.emailVerified

/-- The profile that is stored: what the token says, and with a degraded `userinfo` the stored
value for what an existing user's token does not say. -/
def profile (c : Claims) (created : Bool) (user : UserRecord) : Option String × Bool × String :=
  if c.userinfoUnavailable && !created then
    let email := c.email.or user.email
    (email, c.verifiedClaim.getD (user.emailVerified && email = user.email),
      c.named.getD user.displayName)
  else (c.email, c.emailVerified, c.displayName)

end Claims

/-- A newly created user who matches the rule becomes an admin when there is no active one. -/
def onCreated (bootstrap : BootstrapSettings) (users : Users) (key : UserId) (user : UserRecord)
    (c : Claims) : Except IdentityError (Users × UserRecord) :=
  if c.bootstraps bootstrap = true ∧ UsersRepo.countActiveAdmins users = 0 then
    UsersRepo.grantAdmin users key
  else .ok (users, user)

/-- What comes after the row was created or found. -/
def onProvisioned (bootstrap : BootstrapSettings) (users : Users) (created : Bool) (key : UserId)
    (user : UserRecord) (c : Claims) : Except IdentityError (Users × UserRecord) :=
  if created then onCreated bootstrap users key user c else .ok (users, user)

/-- Writes the profile when it is not the stored one, and reads the row again. -/
def refreshProfile (users : Users) (key : UserId) (user : UserRecord)
    (profile : Option String × Bool × String) : Except IdentityError (Users × UserRecord) :=
  if (user.email, user.emailVerified, user.displayName) = profile then .ok (users, user)
  else do
    let users := UsersRepo.updateProfileClaims users key profile.1 profile.2.1 profile.2.2
    let user ← UsersRepo.lockById users key
    .ok (users, user)

/-- One sign-in, under the admin-set lock. -/
def transform (bootstrap : BootstrapSettings) (users : Users) (id : UserId) (c : Claims) :
    Except IdentityError (Users × UserId × UserRecord) := do
  let (users, created, key, user) ← UsersRepo.provision users id c.iss c.sub c.displayName
  let (users, user) ← onProvisioned bootstrap users created key user c
  let (users, user) ← refreshProfile users key user (c.profile created user)
  .ok (users, key, user)

/-! ## What they do -/

def UserRecord.IsActiveAdmin (u : UserRecord) : Prop := u.role = .admin ∧ u.status = .active

/-- The user with this ID is an active admin. -/
def Users.ActiveAdmin (users : Users) (id : UserId) : Prop :=
  ∃ u, users.lookup id = some u ∧ u.IsActiveAdmin

variable {users users' : Users} {id key : UserId} {u user : UserRecord}

namespace UsersRepo

lemma updateOne_ok {f : UserRecord → UserRecord} {hf : ∀ u, (f u).identity = u.identity}
    (h : updateOne users id f hf = .ok (users', user)) :
    ∃ u, users.lookup id = some u ∧ user = f u ∧
      ∀ k, users'.lookup k = if k = id then some (f u) else users.lookup k := by
  unfold updateOne at h
  cases hu : users.lookup id with
  | none => simp [hu] at h
  | some u =>
    simp only [hu, Except.ok.injEq, Prod.mk.injEq] at h
    obtain ⟨rfl, rfl⟩ := h
    refine ⟨u, rfl, rfl, fun k => ?_⟩
    rw [IndexedTable.lookup_updateWhere]
    by_cases hk : k = id
    · subst hk
      simp [hu]
    · cases hl : users.lookup k <;> simp [hk]

lemma lockById_ok (h : lockById users id = .ok u) : users.lookup id = some u := by
  unfold lockById at h
  split at h
  · cases h
  · next hu =>
    cases h
    exact hu

lemma mem_activeAdmins {e : UserId × UserRecord} :
    e ∈ users.rows.select (fun _ u => u.role = .admin ∧ u.status = .active) ↔
      users.lookup e.1 = some e.2 ∧ e.2.IsActiveAdmin := by
  obtain ⟨k, r⟩ := e
  rw [Table.mem_select, decide_eq_true_iff]
  rfl

lemma not_activeAdmin_of_count (h : countActiveAdmins users = 0) (k : UserId) :
    ¬ users.ActiveAdmin k := by
  rintro ⟨u, hu, hadmin⟩
  have hmem := mem_activeAdmins (e := (k, u)).mpr ⟨hu, hadmin⟩
  rw [List.length_eq_zero_iff.mp h] at hmem
  cases hmem

/-- More than one active admin: there is another one. -/
lemma exists_other_of_count (h : 1 < countActiveAdmins users) (id : UserId) :
    ∃ k, k ≠ id ∧ users.ActiveAdmin k := by
  have hnodup := users.rows.nodup_select fun _ u => decide (u.role = .admin ∧ u.status = .active)
  unfold countActiveAdmins at h
  generalize hl : users.rows.select _ = l at h hnodup
  match l, h with
  | a :: b :: rest, _ =>
    have hmem : ∀ e ∈ a :: b :: rest, users.ActiveAdmin e.1 := by
      intro e he
      rw [← hl] at he
      exact ⟨e.2, mem_activeAdmins.1 he⟩
    have hne : a.1 ≠ b.1 := by
      simp only [List.map_cons, List.nodup_cons, List.mem_cons, not_or] at hnodup
      exact hnodup.1.1
    by_cases ha : a.1 = id
    · exact ⟨b.1, fun hb => hne (ha.trans hb.symm), hmem b (by simp)⟩
    · exact ⟨a.1, ha, hmem a (by simp)⟩

lemma provision_ok {issuer subject displayName : String} {created : Bool}
    (h : provision users id issuer subject displayName = .ok (users', created, key, user)) :
    user.identity = (issuer, subject) ∧ users'.lookup key = some user ∧
      (∀ k, k ≠ key → users'.lookup k = users.lookup k) ∧
      ((created = false ∧ users.lookup key = some user) ∨
        (created = true ∧ key = id ∧ users.lookup id = none ∧
          users.byIndex (issuer, subject) = none ∧ user.role = .member ∧
          user.status = .pending)) := by
  unfold provision at h
  cases hfound : users.byIndex (issuer, subject) with
  | some e =>
    obtain ⟨k, r⟩ := e
    simp only [hfound, Except.ok.injEq, Prod.mk.injEq] at h
    obtain ⟨rfl, rfl, rfl, rfl⟩ := h
    obtain ⟨hk, hi⟩ := IndexedTable.of_byIndex_eq_some hfound
    exact ⟨hi, hk, fun _ _ => rfl, .inl ⟨rfl, hk⟩⟩
  | none =>
    simp only [hfound] at h
    split at h
    · next inserted hinsert =>
      cases h
      obtain ⟨hfree, -, hlookup⟩ := IndexedTable.of_insert?_eq_some hinsert
      refine ⟨rfl, by rw [hlookup, if_pos rfl], fun k hk => by rw [hlookup, if_neg hk], ?_⟩
      exact .inr ⟨rfl, rfl, hfree, rfl, rfl, rfl⟩
    · cases h

end UsersRepo

/-- How a sign-in may leave a newly created user. -/
def Entered (bootstrap : BootstrapSettings) (users : Users) (c : Claims) (user : UserRecord) :
    Prop :=
  (user.role = .member ∧ user.status = .pending) ∨
    (user.IsActiveAdmin ∧ c.bootstraps bootstrap = true ∧ ∀ k, ¬ users.ActiveAdmin k)

lemma onCreated_ok {bootstrap : BootstrapSettings} {c : Claims} (hlookup : users.lookup key = some u)
    (hrole : u.role = .member) (hstatus : u.status = .pending)
    (h : onCreated bootstrap users key u c = .ok (users', user)) :
    users'.lookup key = some user ∧ (∀ k, k ≠ key → users'.lookup k = users.lookup k) ∧
      user.identity = u.identity ∧ Entered bootstrap users c user := by
  unfold onCreated at h
  split_ifs at h with hgrant
  · obtain ⟨row, hrow, rfl, hall⟩ := UsersRepo.updateOne_ok h
    obtain rfl : row = u := Option.some.inj (hrow.symm.trans hlookup)
    refine ⟨by rw [hall, if_pos rfl], fun k hk => by rw [hall, if_neg hk], rfl, .inr ?_⟩
    exact ⟨⟨rfl, rfl⟩, hgrant.1, UsersRepo.not_activeAdmin_of_count hgrant.2⟩
  · cases h
    exact ⟨hlookup, fun _ _ => rfl, rfl, .inl ⟨hrole, hstatus⟩⟩

/-- A refreshed profile leaves role, status and identity. -/
lemma refreshProfile_ok {profile : Option String × Bool × String}
    (hlookup : users.lookup key = some u)
    (h : refreshProfile users key u profile = .ok (users', user)) :
    users'.lookup key = some user ∧ (∀ k, k ≠ key → users'.lookup k = users.lookup k) ∧
      user.identity = u.identity ∧ user.role = u.role ∧ user.status = u.status := by
  unfold refreshProfile at h
  split_ifs at h with hsame
  · cases h
    exact ⟨hlookup, fun _ _ => rfl, rfl, rfl, rfl⟩
  · obtain ⟨row, hrow, h⟩ := bind_eq_ok h
    cases h
    have hrow := UsersRepo.lockById_ok hrow
    refine ⟨hrow, fun k hk => ?_, ?_⟩
    · unfold UsersRepo.updateProfileClaims
      rw [IndexedTable.lookup_updateWhere]
      cases users.lookup k <;> simp [hk]
    · unfold UsersRepo.updateProfileClaims at hrow
      rw [IndexedTable.lookup_updateWhere, hlookup] at hrow
      simp only [decide_true, if_true, Option.map_some, Option.some.injEq] at hrow
      subst hrow
      exact ⟨rfl, rfl, rfl⟩

/-- What a sign-in does: it finds the user and leaves role and status, or creates one. -/
lemma transform_ok {bootstrap : BootstrapSettings} {c : Claims}
    (h : transform bootstrap users id c = .ok (users', key, user)) :
    users'.lookup key = some user ∧ (∀ k, k ≠ key → users'.lookup k = users.lookup k) ∧
      user.identity = (c.iss, c.sub) ∧
      ((∃ u, users.lookup key = some u ∧ user.identity = u.identity ∧ user.role = u.role ∧
          user.status = u.status) ∨
        (key = id ∧ users.lookup id = none ∧ users.byIndex (c.iss, c.sub) = none ∧
          Entered bootstrap users c user)) := by
  obtain ⟨⟨users₁, created, key₁, u₁⟩, hprovision, h⟩ := bind_eq_ok h
  obtain ⟨⟨users₂, u₂⟩, hcreated, h⟩ := bind_eq_ok h
  obtain ⟨⟨users₃, u₃⟩, hrefresh, h⟩ := bind_eq_ok h
  cases h
  obtain ⟨hidentity, hlookup, hothers, hcases⟩ := UsersRepo.provision_ok hprovision
  rcases hcases with ⟨rfl, hwas⟩ | ⟨rfl, rfl, hfree, hnone, hrole, hstatus⟩
  · cases hcreated
    obtain ⟨hlast, hothers', hsame, hrole, hstatus⟩ := refreshProfile_ok hlookup hrefresh
    exact ⟨hlast, fun k hk => (hothers' k hk).trans (hothers k hk), hsame.trans hidentity,
      .inl ⟨u₁, hwas, hsame, hrole, hstatus⟩⟩
  · obtain ⟨hnow, hothers₂, hsame₂, hentered⟩ := onCreated_ok hlookup hrole hstatus hcreated
    obtain ⟨hlast, hothers₃, hsame₃, hrole₃, hstatus₃⟩ := refreshProfile_ok hnow hrefresh
    refine ⟨hlast, fun k hk => ?_, hsame₃.trans (hsame₂.trans hidentity), .inr ?_⟩
    · rw [hothers₃ k hk, hothers₂ k hk, hothers k hk]
    refine ⟨rfl, hfree, hnone, ?_⟩
    rcases hentered with ⟨hmember, hpending⟩ | ⟨hadmin, hmatches, hnoAdmin⟩
    · exact .inl ⟨hrole₃.trans hmember, hstatus₃.trans hpending⟩
    · refine .inr ⟨⟨hrole₃.trans hadmin.1, hstatus₃.trans hadmin.2⟩, hmatches, fun k => ?_⟩
      rintro ⟨v, hv, hvadmin⟩
      have hk : k ≠ key := by
        rintro rfl
        rw [hfree] at hv
        cases hv
      exact hnoAdmin k ⟨v, (hothers k hk).trans hv, hvadmin⟩

end Postit.Identity
