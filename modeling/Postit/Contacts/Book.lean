import Postit.Core.Json
import Postit.Data.Scope

/-!
# Contacts and the suppression list

The contact book of every owner, and the list of addresses that must not be emailed.  A contact
stores its normalized address and a keyed hash of it; the suppression list stores hashes only, so
that an opt-out outlives the contact.  Both tables carry their unique index: an owner has one
contact for an address, and one entry for a hash.

Each operation is one transaction, here a function from the book to the book it leaves; one that
fails leaves the book as it was.  What the standard library and the hash function do is a
parameter (`MailKeys`).
-/

namespace Postit.Contacts

open Postit.Data Postit.Framework

abbrev SuppressionId := ℕ

/-- A 32-byte hash, by the number its bytes spell. -/
abbrev EmailHash := ℕ

/-! ## Addresses -/

/-- What the addresses are computed with: the standard library's trimming and lowercasing, and
HMAC-SHA256 under the signing key. -/
structure MailKeys where
  trim : String → String
  toLowercase : String → String
  hmac : String → EmailHash

/-- The address as it is compared and hashed: trimmed and lowercased. -/
def MailKeys.normalizeEmail (m : MailKeys) (raw : String) : String := m.toLowercase (m.trim raw)

/-- The hash of an address, however it is written. -/
def MailKeys.emailHash (m : MailKeys) (raw : String) : EmailHash := m.hmac (m.normalizeEmail raw)

/-! ## Rows -/

/-- Whether a contact may be emailed. -/
inductive ContactStatus
  | subscribed
  | unsubscribed
  | bounced
  | complained
  deriving DecidableEq, Repr

/-- Why an address is on the suppression list. -/
inductive SuppressionReason
  | unsubscribed
  | bounced
  | complained
  | manual
  deriving DecidableEq, Repr

/-- The rank of a reason: a higher one replaces a lower one. -/
def SuppressionReason.rank : SuppressionReason → ℕ
  | .manual => 0
  | .bounced => 1
  | .unsubscribed => 2
  | .complained => 2

/-- The status a contact takes from a reason. -/
def SuppressionReason.status : SuppressionReason → ContactStatus
  | .manual => .unsubscribed
  | .unsubscribed => .unsubscribed
  | .bounced => .bounced
  | .complained => .complained

/-- The statuses a reason moves a contact from. -/
def SuppressionReason.movable : SuppressionReason → List ContactStatus
  | .manual => []
  | .bounced => [.subscribed]
  | .unsubscribed => [.subscribed, .bounced]
  | .complained => [.subscribed, .bounced]

/-- A contact. -/
structure Contact where
  ownerId : UserId
  email : String
  emailHash : EmailHash
  firstName : Option String
  lastName : Option String
  fields : Members
  tags : List String
  locale : Option String
  consentSource : Option String
  consentAt : Option Time
  status : ContactStatus
  statusChangedAt : Time
  createdAt : Time
  updatedAt : Time
  createdBy : UserId
  updatedBy : UserId

/-- The contact is the owner's, for the address with this hash. -/
def Contact.Of (c : Contact) (owner : UserId) (hash : EmailHash) : Prop :=
  c.ownerId = owner ∧ c.emailHash = hash

instance (c : Contact) (owner : UserId) (hash : EmailHash) : Decidable (c.Of owner hash) := by
  unfold Contact.Of
  infer_instance

/-- An entry of the suppression list. -/
structure Suppression where
  ownerId : UserId
  emailHash : EmailHash
  reason : SuppressionReason
  -- the owner unsubscribed the address; a bounce that replaces the reason leaves it
  ownerOptOut : Bool
  suppressedAt : Time
  createdAt : Time
  updatedAt : Time
  createdBy : UserId
  updatedBy : UserId
  deriving DecidableEq, Repr

/-- The entry is the owner's, for the address with this hash. -/
def Suppression.Of (e : Suppression) (owner : UserId) (hash : EmailHash) : Prop :=
  e.ownerId = owner ∧ e.emailHash = hash

instance (e : Suppression) (owner : UserId) (hash : EmailHash) : Decidable (e.Of owner hash) := by
  unfold Suppression.Of
  infer_instance

/-- The two tables, with `contacts_owner_email_key` and `suppressions_owner_hash_key`. -/
structure Book where
  contacts : IndexedTable ContactId Contact fun c => (c.ownerId, c.email)
  suppressions : IndexedTable SuppressionId Suppression fun e => (e.ownerId, e.emailHash)

/-- The book without rows. -/
def Book.empty : Book := ⟨.empty, .empty⟩

lemma Book.lookup_empty_ne_some (id : ContactId) (c : Contact) :
    Book.empty.contacts.lookup id ≠ some c := by
  rw [Book.empty, IndexedTable.lookup_empty]
  exact (Option.some_ne_none c).symm

/-- A contact to create, or the details an existing one takes. -/
structure NewContact where
  id : ContactId
  email : String
  firstName : Option String := none
  lastName : Option String := none
  fields : Option Members := none
  tags : Option (List String) := none
  locale : Option String := none
  consentSource : Option String := none
  consentAt : Option Time := none

/-! ## Operations -/

section Operations

variable (mail : MailKeys) (scope : OwnerScope) (now : Time) (book : Book)

/-- The scope check every operation starts with. -/
def required (capability : Capability) : Except DataError Unit :=
  (scope.permits capability).mapError .scope

/-- What `suppressions` holds for the hash. -/
def Book.entryFor (owner : UserId) (hash : EmailHash) : Option (SuppressionId × Suppression) :=
  book.suppressions.byIndex (owner, hash)

/-- What an upsert did, and the contact either way. -/
inductive ContactUpsert
  | created (id : ContactId) (contact : Contact)
  | updated (id : ContactId) (contact : Contact)

/-- The details given replace an existing contact's; its address and status stay. -/
def Contact.takeDetails (new : NewContact) (c : Contact) : Contact :=
  { c with
    firstName := new.firstName <|> c.firstName
    lastName := new.lastName <|> c.lastName
    fields := c.fields.extend (new.fields.getD [])
    tags := new.tags.getD c.tags
    locale := new.locale <|> c.locale
    consentSource := new.consentSource <|> c.consentSource
    consentAt := new.consentAt <|> c.consentAt
    updatedAt := now
    updatedBy := scope.actor }

lemma Contact.takeDetails_key (new : NewContact) (c : Contact) :
    ((c.takeDetails scope now new).ownerId, (c.takeDetails scope now new).email) =
      (c.ownerId, c.email) := rfl

/-- Adds a contact, or updates the one with the same normalized address.  A new contact takes its
status from the suppression list. -/
def ContactRepo.upsert (new : NewContact) : Except DataError (ContactUpsert × Book) := do
  required scope .edit
  let email := mail.normalizeEmail new.email
  let hash := mail.emailHash email
  match book.contacts.byIndex (scope.owner, email) with
  | some (id, c) =>
    pure (.updated id (c.takeDetails scope now new),
      { book with
        contacts := book.contacts.updateWhere (fun k _ => k = id)
          (Contact.takeDetails scope now new) (Contact.takeDetails_key scope now new) })
  | none =>
    let row : Contact :=
      { ownerId := scope.owner
        email := email
        emailHash := hash
        firstName := new.firstName
        lastName := new.lastName
        fields := new.fields.getD []
        tags := new.tags.getD []
        locale := new.locale
        consentSource := new.consentSource
        consentAt := new.consentAt
        status := ((book.entryFor scope.owner hash).map fun e => e.2.reason.status).getD
          .subscribed
        statusChangedAt := now
        createdAt := now
        updatedAt := now
        createdBy := scope.actor
        updatedBy := scope.actor }
    match book.contacts.insert? new.id row with
    | some contacts => pure (.created new.id row, { book with contacts })
    | none => throw (.conflict "contacts_pkey")

/-- The contact with a status, set now. -/
def Contact.withStatus (status : ContactStatus) (c : Contact) : Contact :=
  { c with status := status, statusChangedAt := now, updatedAt := now, updatedBy := scope.actor }

lemma Contact.withStatus_key (status : ContactStatus) (c : Contact) :
    ((c.withStatus scope now status).ownerId, (c.withStatus scope now status).email) =
      (c.ownerId, c.email) := rfl

/-- The contacts of one hash with one of the given statuses take a status. -/
def Book.moveContacts (hash : EmailHash) (movable : List ContactStatus) (status : ContactStatus) :
    Book :=
  { book with
    contacts := book.contacts.updateWhere
      (fun _ c => c.ownerId = scope.owner && c.emailHash = hash && c.status ∈ movable)
      (Contact.withStatus scope now status) (Contact.withStatus_key scope now status) }

/-- The entry with a reason that outranks its own. -/
def Suppression.withReason (reason : SuppressionReason) (e : Suppression) : Suppression :=
  { e with reason := reason, suppressedAt := now, updatedAt := now, updatedBy := scope.actor }

lemma Suppression.withReason_key (reason : SuppressionReason) (e : Suppression) :
    ((e.withReason scope now reason).ownerId, (e.withReason scope now reason).emailHash) =
      (e.ownerId, e.emailHash) := rfl

/-- The upsert of `SuppressionRepo.addHash`: one entry for a hash, whose reason only a higher one
replaces. -/
def Book.raiseEntry (hash : EmailHash) (reason : SuppressionReason) (fresh : SuppressionId) :
    Except DataError Book :=
  match book.entryFor scope.owner hash with
  | some (id, e) =>
    if e.reason.rank < reason.rank then
      pure { book with
        suppressions := book.suppressions.updateWhere (fun k _ => k = id)
          (Suppression.withReason scope now reason)
          (Suppression.withReason_key scope now reason) }
    else pure book
  | none =>
    let row : Suppression :=
      { ownerId := scope.owner
        emailHash := hash
        reason := reason
        ownerOptOut := reason = .manual
        suppressedAt := now
        createdAt := now
        updatedAt := now
        createdBy := scope.actor
        updatedBy := scope.actor }
    match book.suppressions.insert? fresh row with
    | some suppressions => pure { book with suppressions }
    | none => throw .sql

/-- Suppresses a hashed address, and moves its contacts.  `fresh` is the id a new entry gets. -/
def SuppressionRepo.addHash (hash : EmailHash) (reason : SuppressionReason)
    (fresh : SuppressionId) : Except DataError Book := do
  required scope .edit
  let raised ← book.raiseEntry scope now hash reason fresh
  pure (raised.moveContacts scope now hash reason.movable reason.status)

/-- The owner's contact with the id. -/
def Book.contactOf (owner : UserId) (id : ContactId) : Option Contact :=
  (book.contacts.lookup id).filter fun c => c.ownerId = owner

/-- The contact takes a status, set by hand. -/
def Book.setContact (id : ContactId) (status : ContactStatus) : Book :=
  { book with
    contacts := book.contacts.updateWhere (fun k c => k = id && c.ownerId = scope.owner)
      (Contact.withStatus scope now status) (Contact.withStatus_key scope now status) }

/-- Sets a contact's status by hand, and returns the contact. -/
def ContactRepo.setStatus (id : ContactId) (status : ContactStatus) (fresh : SuppressionId) :
    Except DataError (Contact × Book) := do
  required scope .edit
  if status = .bounced ∨ status = .complained then
    throw (.conflict "status_not_settable")
  let some c := book.contactOf scope.owner id | throw .notFound
  let set (b : Book) : Contact × Book :=
    (c.withStatus scope now status, b.setContact scope now id status)
  if status = .unsubscribed then
    match c.status with
    | .unsubscribed => pure (c, book)
    | .bounced => throw (.conflict "status_not_settable")
    | .complained => throw (.conflict "status_not_settable")
    | .subscribed => do
      let b ← SuppressionRepo.addHash scope now book c.emailHash .manual fresh
      pure (set b)
  else
    match book.entryFor scope.owner c.emailHash with
    | none => pure (set book)
    | some (entry, e) =>
      if e.reason = .manual then do
        required scope .ownerOnly
        pure (set { book with suppressions := book.suppressions.erase entry })
      else throw (.conflict "suppressed")

/-- Deletes a contact.  Its entry, if any, stays. -/
def ContactRepo.delete (id : ContactId) : Except DataError Book := do
  required scope .edit
  match book.contactOf scope.owner id with
  | none => throw .notFound
  | some _ => pure { book with contacts := book.contacts.erase id }

/-- The entry as the owner's opt-out again. -/
def Suppression.backToManual (e : Suppression) : Suppression :=
  { e with reason := .manual, ownerOptOut := true, updatedAt := now, updatedBy := scope.actor }

lemma Suppression.backToManual_key (e : Suppression) :
    ((e.backToManual scope now).ownerId, (e.backToManual scope now).emailHash) =
      (e.ownerId, e.emailHash) := rfl

/-- Takes a bounce entry off the list.  Under an opt-out of the owner it turns back into one. -/
def SuppressionRepo.remove (id : SuppressionId) : Except DataError Book := do
  required scope .ownerOnly
  match (book.suppressions.lookup id).filter fun e => e.ownerId = scope.owner with
  | none => throw .notFound
  | some e =>
    if e.reason ≠ .bounced then throw (.conflict "suppression_not_removable")
    let unsubscribed := e.ownerOptOut || book.contacts.rows.exists? fun _ c =>
      c.ownerId = scope.owner && c.emailHash = e.emailHash && c.status = .unsubscribed
    let suppressions :=
      if unsubscribed then
        book.suppressions.updateWhere (fun k r => k = id && r.ownerId = scope.owner)
          (Suppression.backToManual scope now) (Suppression.backToManual_key scope now)
      else book.suppressions.erase id
    pure (Book.moveContacts scope now { book with suppressions } e.emailHash [.bounced]
      (if unsubscribed then .unsubscribed else .subscribed))

end Operations

/-! ## What a call that succeeds did -/

section Specs

variable {mail : MailKeys} {scope : OwnerScope} {now : Time} {book book' : Book}

lemma required_bind_ok {α : Type} {capability : Capability} {f : Unit → Except DataError α} {a : α}
    (h : (required scope capability >>= f) = .ok a) :
    scope.permits capability = .ok () ∧ f () = .ok a := by
  unfold required at h
  cases hp : scope.permits capability with
  | error e =>
    rw [hp] at h
    cases h
  | ok u =>
    rw [hp] at h
    exact ⟨rfl, h⟩

lemma of_map_ok {ε α β : Type} {x : Except ε α} {f : α → β} {b : β} (h : x.map f = .ok b) :
    ∃ a, x = .ok a ∧ f a = b := by
  cases x with
  | error e => cases h
  | ok a => exact ⟨a, rfl, Except.ok.inj h⟩

/-- An upsert changes details of the contact it finds, or inserts one. -/
lemma ContactRepo.upsert_ok {new : NewContact} {result : ContactUpsert × Book}
    (h : ContactRepo.upsert mail scope now book new = .ok result) :
    (∃ id c, book.contacts.byIndex (scope.owner, mail.normalizeEmail new.email) = some (id, c) ∧
      result.2 = { book with
        contacts := book.contacts.updateWhere (fun k _ => k = id)
          (Contact.takeDetails scope now new) (Contact.takeDetails_key scope now new) }) ∨
    (∃ row contacts, book.contacts.insert? new.id row = some contacts ∧
      result.2 = { book with contacts } ∧ row.ownerId = scope.owner ∧
      row.email = mail.normalizeEmail new.email ∧
      row.emailHash = mail.emailHash (mail.normalizeEmail new.email) ∧
      row.status = ((book.entryFor scope.owner row.emailHash).map fun e =>
        e.2.reason.status).getD .subscribed) := by
  obtain ⟨-, h⟩ := required_bind_ok h
  cases hfound : book.contacts.byIndex (scope.owner, mail.normalizeEmail new.email) with
  | some found =>
    obtain ⟨id, c⟩ := found
    simp only [hfound, pure, Except.pure, Except.ok.injEq] at h
    subst h
    exact .inl ⟨id, c, rfl, rfl⟩
  | none =>
    simp only [hfound] at h
    split at h
    · next contacts hinsert =>
      obtain rfl := Except.ok.inj h
      exact .inr ⟨_, contacts, hinsert, rfl, rfl, rfl, rfl, rfl⟩
    · cases h

lemma ContactRepo.delete_ok {id : ContactId} (h : ContactRepo.delete scope book id = .ok book') :
    ∃ c, book.contacts.lookup id = some c ∧ c.ownerId = scope.owner ∧
      book' = { book with contacts := book.contacts.erase id } := by
  obtain ⟨-, h⟩ := required_bind_ok h
  split at h
  · cases h
  · next c hc =>
    obtain rfl := Except.ok.inj h
    obtain ⟨hlookup, howner⟩ := Option.filter_eq_some_iff.mp hc
    exact ⟨c, hlookup, of_decide_eq_true howner, rfl⟩

lemma Book.raiseEntry_ok {hash : EmailHash} {reason : SuppressionReason} {fresh : SuppressionId}
    (h : book.raiseEntry scope now hash reason fresh = .ok book') :
    book'.contacts = book.contacts ∧
    ((∃ id e, book.entryFor scope.owner hash = some (id, e) ∧
      ((e.reason.rank < reason.rank ∧ book'.suppressions =
        book.suppressions.updateWhere (fun k _ => k = id)
          (Suppression.withReason scope now reason)
          (Suppression.withReason_key scope now reason)) ∨
      (¬ e.reason.rank < reason.rank ∧ book' = book))) ∨
    (∃ row, book.suppressions.insert? fresh row = some book'.suppressions ∧
      book.entryFor scope.owner hash = none ∧ row.ownerId = scope.owner ∧
      row.emailHash = hash ∧ row.reason = reason ∧ row.ownerOptOut = decide (reason = .manual))) := by
  unfold Book.raiseEntry at h
  split at h
  · next id e he =>
    split at h
    · next hrank =>
      obtain rfl := Except.ok.inj h
      exact ⟨rfl, .inl ⟨id, e, he, .inl ⟨hrank, rfl⟩⟩⟩
    · next hrank =>
      obtain rfl := Except.ok.inj h
      exact ⟨rfl, .inl ⟨id, e, he, .inr ⟨hrank, rfl⟩⟩⟩
  · next hnone =>
    simp only at h
    split at h
    · next suppressions hinsert =>
      obtain rfl := Except.ok.inj h
      exact ⟨rfl, .inr ⟨_, hinsert, hnone, rfl, rfl, rfl, rfl⟩⟩
    · cases h

lemma SuppressionRepo.addHash_ok {hash : EmailHash} {reason : SuppressionReason}
    {fresh : SuppressionId}
    (h : SuppressionRepo.addHash scope now book hash reason fresh = .ok book') :
    ∃ raised, book.raiseEntry scope now hash reason fresh = .ok raised ∧
      book' = raised.moveContacts scope now hash reason.movable reason.status := by
  obtain ⟨-, h⟩ := required_bind_ok h
  cases hraised : book.raiseEntry scope now hash reason fresh with
  | error e =>
    rw [hraised] at h
    cases h
  | ok raised =>
    rw [hraised] at h
    exact ⟨raised, rfl, (Except.ok.inj h).symm⟩

lemma ContactRepo.setStatus_ok {id : ContactId} {status : ContactStatus} {fresh : SuppressionId}
    {result : Contact × Book}
    (h : ContactRepo.setStatus scope now book id status fresh = .ok result) :
    ∃ c, book.contacts.lookup id = some c ∧ c.ownerId = scope.owner ∧
      ((status = .unsubscribed ∧ c.status = .unsubscribed ∧ result.2 = book) ∨
      (status = .unsubscribed ∧ c.status = .subscribed ∧ ∃ added,
        SuppressionRepo.addHash scope now book c.emailHash .manual fresh = .ok added ∧
        result.2 = added.setContact scope now id .unsubscribed) ∨
      (status = .subscribed ∧ book.entryFor scope.owner c.emailHash = none ∧
        result.2 = book.setContact scope now id .subscribed) ∨
      (status = .subscribed ∧ ∃ entry e, book.entryFor scope.owner c.emailHash = some (entry, e) ∧
        e.reason = .manual ∧ scope.isOwner = true ∧
        result.2 = Book.setContact scope now
          { book with suppressions := book.suppressions.erase entry } id .subscribed)) := by
  obtain ⟨-, h⟩ := required_bind_ok h
  by_cases hset : status = .bounced ∨ status = .complained
  · rw [if_pos hset] at h
    cases h
  rw [if_neg hset] at h
  cases hc : book.contactOf scope.owner id with
  | none =>
    rw [hc] at h
    cases h
  | some c =>
    obtain ⟨hlookup, howner⟩ := Option.filter_eq_some_iff.mp hc
    refine ⟨c, hlookup, of_decide_eq_true howner, ?_⟩
    simp only [hc] at h
    by_cases hunsub : status = .unsubscribed
    · rw [if_pos hunsub] at h
      cases hstatus : c.status with
      | unsubscribed =>
        rw [hstatus] at h
        obtain rfl := Except.ok.inj h
        exact .inl ⟨hunsub, rfl, rfl⟩
      | subscribed =>
        rw [hstatus] at h
        cases hadd : SuppressionRepo.addHash scope now book c.emailHash .manual fresh with
        | error e =>
          simp only [hadd] at h
          cases h
        | ok added =>
          simp only [hadd] at h
          obtain rfl := Except.ok.inj h
          exact .inr (.inl ⟨hunsub, rfl, added, rfl, by rw [hunsub]⟩)
      | bounced =>
        rw [hstatus] at h
        cases h
      | complained =>
        rw [hstatus] at h
        cases h
    · rw [if_neg hunsub] at h
      have hsub : status = .subscribed := by
        cases status <;> simp_all
      cases hentry : book.entryFor scope.owner c.emailHash with
      | none =>
        rw [hentry] at h
        obtain rfl := Except.ok.inj h
        exact .inr (.inr (.inl ⟨hsub, rfl, by rw [hsub]⟩))
      | some found =>
        obtain ⟨entry, e⟩ := found
        simp only [hentry] at h
        by_cases hmanual : e.reason = .manual
        · rw [if_pos hmanual] at h
          obtain ⟨hpermits, h⟩ := required_bind_ok h
          obtain rfl := Except.ok.inj h
          exact .inr (.inr (.inr ⟨hsub, entry, e, rfl, hmanual,
            OwnerScope.isOwner_of_permits hpermits, by rw [hsub]⟩))
        · rw [if_neg hmanual] at h
          cases h

/-- Whether the owner's opt-out outlives the removal of a bounce. -/
def Book.optOutStays (b : Book) (e : Suppression) : Bool :=
  e.ownerOptOut || b.contacts.rows.exists? fun _ c =>
    c.ownerId = e.ownerId && c.emailHash = e.emailHash && c.status = .unsubscribed

lemma SuppressionRepo.remove_ok {id : SuppressionId}
    (h : SuppressionRepo.remove scope now book id = .ok book') :
    scope.isOwner = true ∧ ∃ e, book.suppressions.lookup id = some e ∧ e.ownerId = scope.owner ∧
      e.reason = .bounced ∧
      ((book.optOutStays e = true ∧ book' = Book.moveContacts scope now
        { book with
          suppressions := book.suppressions.updateWhere
            (fun k r => k = id && r.ownerId = scope.owner)
            (Suppression.backToManual scope now) (Suppression.backToManual_key scope now) }
        e.emailHash [.bounced] .unsubscribed) ∨
      (book.optOutStays e = false ∧ book' = Book.moveContacts scope now
        { book with suppressions := book.suppressions.erase id }
        e.emailHash [.bounced] .subscribed)) := by
  obtain ⟨hpermits, h⟩ := required_bind_ok h
  refine ⟨OwnerScope.isOwner_of_permits hpermits, ?_⟩
  split at h
  · cases h
  · next e he =>
    obtain ⟨hlookup, howner⟩ := Option.filter_eq_some_iff.mp he
    have howner : e.ownerId = scope.owner := of_decide_eq_true howner
    refine ⟨e, hlookup, howner, ?_⟩
    by_cases hreason : e.reason ≠ .bounced
    · rw [if_pos hreason] at h
      cases h
    · rw [if_neg hreason] at h
      obtain rfl := Except.ok.inj h
      refine ⟨not_not.mp hreason, ?_⟩
      cases hstays : book.optOutStays e with
      | true =>
        rw [Book.optOutStays, howner] at hstays
        simp only [hstays, if_true, true_and]
        exact .inl trivial
      | false =>
        rw [Book.optOutStays, howner] at hstays
        simp only [hstays]
        exact .inr ⟨trivial, rfl⟩

end Specs

/-! ## Runs -/

/-- What a recipient, or their mail system, reports. -/
inductive Report
  | unsubscribed
  | bounced
  | complained
  deriving DecidableEq, Repr

/-- The reason a report gives an entry. -/
def Report.reason : Report → SuppressionReason
  | .unsubscribed => .unsubscribed
  | .bounced => .bounced
  | .complained => .complained

/-- A call of one of the repositories.  Only `setStatus` suppresses by hand; every other caller of
`addHash` has a report. -/
inductive Op
  | upsert (scope : OwnerScope) (new : NewContact)
  | delete (scope : OwnerScope) (id : ContactId)
  | setStatus (scope : OwnerScope) (id : ContactId) (status : ContactStatus)
      (fresh : SuppressionId)
  | addHash (scope : OwnerScope) (hash : EmailHash) (report : Report) (fresh : SuppressionId)
  | remove (scope : OwnerScope) (id : SuppressionId)

namespace Op

/-- Who calls. -/
def scope : Op → OwnerScope
  | .upsert scope _ => scope
  | .delete scope _ => scope
  | .setStatus scope _ _ _ => scope
  | .addHash scope _ _ _ => scope
  | .remove scope _ => scope

/-- What the call makes of the book. -/
def run (mail : MailKeys) (now : Time) (book : Book) : Op → Except DataError Book
  | .upsert scope new => (ContactRepo.upsert mail scope now book new).map Prod.snd
  | .delete scope id => ContactRepo.delete scope book id
  | .setStatus scope id status fresh =>
    (ContactRepo.setStatus scope now book id status fresh).map Prod.snd
  | .addHash scope hash report fresh =>
    SuppressionRepo.addHash scope now book hash report.reason fresh
  | .remove scope id => SuppressionRepo.remove scope now book id

end Op

/-- The book after a call; one that fails changes nothing. -/
def Book.call (mail : MailKeys) (now : Time) (book : Book) (op : Op) : Book :=
  match op.run mail now book with
  | .ok book' => book'
  | .error _ => book

/-- A call changes the book as it says, or not at all. -/
lemma Book.call_cases (mail : MailKeys) (now : Time) (book : Book) (op : Op) :
    op.run mail now book = .ok (book.call mail now op) ∨ book.call mail now op = book := by
  unfold Book.call
  cases op.run mail now book with
  | ok book' => exact .inl rfl
  | error e => exact .inr rfl

end Postit.Contacts
