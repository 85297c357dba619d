import Postit.Contacts.Import

/-!
# Adding a contact by hand

One call, one transaction: the input is checked, and under the owner's contacts lock the contact is
inserted, or updated when its address is in the book already.  An import takes the same lock for
each of its chunks.  Only a new address is held against the cap.
-/

namespace Postit.Contacts

open Postit.Data Postit.Framework

/-- Why a contact is not added. -/
inductive ContactError
  | limit
  | invalidEmail
  | consentRequired
  | suppressed
  | statusNotSettable
  | notRemovable
  | invalidText (field : String)
  | notFound
  | forbidden (needed : Capability)
  | data (err : DataError)
  deriving DecidableEq, Repr

def ContactError.ofData : DataError → ContactError
  | .notFound => .notFound
  | .scope .ownerOnly => .forbidden .ownerOnly
  | .scope .insufficientAccess => .forbidden .edit
  | .conflict code =>
    if code = "suppressed" then .suppressed
    else if code = "suppression_not_removable" then .notRemovable
    else if code = "status_not_settable" then .statusNotSettable
    else .data (.conflict code)
  | other => .data other

/-- A contact to add. -/
structure NewContactInput where
  email : String
  firstName : Option String := none
  lastName : Option String := none
  fields : Option Members := none
  tags : Option (List String) := none
  locale : Option String := none
  consentSource : String
  consentAt : Option Time := none

/-! ## Checks -/

mutual

/-- Whether a key or a string anywhere inside the value holds a NUL character. -/
def valueHasNul : Json → Bool
  | .string text => hasNul text
  | .array items => itemsHasNul items
  | .object members => mapHasNul members
  | .null | .bool _ | .number _ => false

def itemsHasNul : List Json → Bool
  | [] => false
  | item :: items => valueHasNul item || itemsHasNul items

/-- Whether a key or a string anywhere inside the map holds a NUL character. -/
def mapHasNul : List (String × Json) → Bool
  | [] => false
  | (key, value) :: members => hasNul key || valueHasNul value || mapHasNul members

end

def refuseNul (field : String) (texts : List String) : Except ContactError Unit :=
  if texts.any hasNul then throw (.invalidText field) else pure ()

namespace ContactService

variable (keys : CellKeys) (scope : OwnerScope)

def require (capability : Capability) : Except ContactError Unit :=
  (scope.permits capability).mapError fun _ => .forbidden capability

/-- The trimmed consent source. -/
def consentOf (raw : String) : Except ContactError String :=
  if keys.trim raw = "" then throw .consentRequired else pure (keys.trim raw)

/-- The normalized address. -/
def addressOf (raw : String) : Except ContactError String :=
  match keys.parseAddress raw with
  | some email => pure email
  | none => throw .invalidEmail

def refuseFields (fields : Option Members) : Except ContactError Unit :=
  if fields.any mapHasNul then throw (.invalidText "fields") else pure ()

/-- What is checked before the transaction; the address and the consent source as they are
stored. -/
def accept (input : NewContactInput) : Except ContactError (String × String) := do
  require scope .edit
  let email ← addressOf keys input.email
  let consentSource ← consentOf keys input.consentSource
  refuseNul "first_name" input.firstName.toList
  refuseNul "last_name" input.lastName.toList
  refuseNul "locale" input.locale.toList
  refuseNul "consent_source" [consentSource]
  refuseNul "tags" (input.tags.getD [])
  refuseFields input.fields
  pure (email, consentSource)

/-- A new address needs room under the cap; 0 is no cap. -/
def checkCap (cap : ℕ) (book : Book) (email : String) : Except ContactError Unit :=
  if ContactRepo.exists? book scope.owner (keys.emailHash email) = false ∧
      0 < cap ∧ cap ≤ ContactRepo.count book scope.owner then throw .limit
  else pure ()

/-- The contact, however it came to be. -/
def contactOf : ContactUpsert → ContactId × Contact
  | .created id contact | .updated id contact => (id, contact)

/-- Adds a contact, or updates the one with the same address.  `clock` is the time by the service
and `now` the database's; `fresh` is the id generated for it. -/
def create (clock now : Time) (cap : ℕ) (fresh : ContactId) (book : Book)
    (input : NewContactInput) : Except ContactError ((ContactId × Contact) × Book) := do
  let (email, consentSource) ← accept keys scope input
  checkCap keys scope cap book email
  let (upsert, book) ← (ContactRepo.upsert keys.toMailKeys scope now book
    { id := fresh
      email
      firstName := input.firstName
      lastName := input.lastName
      fields := input.fields
      tags := input.tags
      locale := input.locale
      consentSource := some consentSource
      consentAt := some (input.consentAt.getD clock) }).mapError .ofData
  pure (contactOf upsert, book)

end ContactService

/-! ## What a call did -/

section Specs

variable {keys : CellKeys} {scope : OwnerScope} {clock now : Time} {cap : ℕ} {fresh : ContactId}
  {book book' : Book} {input : NewContactInput}

lemma ContactService.accept_ok {result : String × String}
    (h : ContactService.accept keys scope input = .ok result) :
    keys.parseAddress input.email = some result.1 := by
  obtain ⟨_, -, h⟩ := bind_eq_ok h
  obtain ⟨email, haddress, h⟩ := bind_eq_ok h
  obtain ⟨consentSource, -, h⟩ := bind_eq_ok h
  obtain ⟨_, -, h⟩ := bind_eq_ok h
  obtain ⟨_, -, h⟩ := bind_eq_ok h
  obtain ⟨_, -, h⟩ := bind_eq_ok h
  obtain ⟨_, -, h⟩ := bind_eq_ok h
  obtain ⟨_, -, h⟩ := bind_eq_ok h
  obtain ⟨_, -, h⟩ := bind_eq_ok h
  obtain rfl := Except.ok.inj h
  unfold ContactService.addressOf at haddress
  split at haddress
  next found hfound => rw [hfound, Except.ok.inj haddress]
  next => cases haddress

/-- Nothing before the transaction is refused for the cap. -/
lemma ContactService.accept_ne_limit : ContactService.accept keys scope input ≠ .error .limit := by
  have hnul : ∀ field texts, refuseNul field texts ≠ .error .limit := by
    intro field texts h
    unfold refuseNul at h
    split_ifs at h <;> cases h
  intro h
  rcases bind_eq_error h with h | ⟨_, -, h⟩
  · unfold ContactService.require at h
    cases hp : scope.permits .edit <;> simp [hp, Except.mapError] at h
  rcases bind_eq_error h with h | ⟨email, -, h⟩
  · unfold ContactService.addressOf at h
    split at h <;> cases h
  rcases bind_eq_error h with h | ⟨consentSource, -, h⟩
  · unfold ContactService.consentOf at h
    split_ifs at h <;> cases h
  rcases bind_eq_error h with h | ⟨_, -, h⟩
  · exact hnul _ _ h
  rcases bind_eq_error h with h | ⟨_, -, h⟩
  · exact hnul _ _ h
  rcases bind_eq_error h with h | ⟨_, -, h⟩
  · exact hnul _ _ h
  rcases bind_eq_error h with h | ⟨_, -, h⟩
  · exact hnul _ _ h
  rcases bind_eq_error h with h | ⟨_, -, h⟩
  · exact hnul _ _ h
  rcases bind_eq_error h with h | ⟨_, -, h⟩
  · unfold ContactService.refuseFields at h
    split_ifs at h <;> cases h
  · cases h

lemma ContactError.ofData_ne_limit (err : DataError) : ContactError.ofData err ≠ .limit := by
  intro h
  unfold ContactError.ofData at h
  split at h
  next => cases h
  next => cases h
  next => cases h
  next => split_ifs at h
  next => cases h

/-- A contact added had room, or its address in the book. -/
lemma ContactService.create_ok {result : (ContactId × Contact) × Book}
    (h : ContactService.create keys scope clock now cap fresh book input = .ok result) :
    ∃ new upsert, new.email = keys.normalizeEmail input.email ∧
      (0 < cap → cap ≤ ContactRepo.count book scope.owner →
        ContactRepo.exists? book scope.owner (keys.emailHash new.email) = true) ∧
      ContactRepo.upsert keys.toMailKeys scope now book new = .ok (upsert, result.2) := by
  obtain ⟨⟨email, consentSource⟩, haccept, h⟩ := bind_eq_ok h
  obtain ⟨_, hcap, h⟩ := bind_eq_ok h
  obtain ⟨⟨upsert, book'⟩, hupsert, h⟩ := bind_eq_ok h
  obtain rfl := Except.ok.inj h
  refine ⟨_, upsert, keys.parseAddress_eq_some (ContactService.accept_ok haccept), ?_,
    mapError_eq_ok hupsert⟩
  intro hpos hfull
  unfold ContactService.checkCap at hcap
  split_ifs at hcap with hlimit
  exact Bool.of_not_eq_false fun hnone => hlimit ⟨hnone, hpos, hfull⟩

/-- A contact refused for the cap is a new one. -/
lemma ContactService.create_eq_limit
    (h : ContactService.create keys scope clock now cap fresh book input = .error .limit) :
    ContactRepo.exists? book scope.owner (keys.emailHash (keys.normalizeEmail input.email)) =
      false := by
  rcases bind_eq_error h with h | ⟨⟨email, consentSource⟩, haccept, h⟩
  · exact absurd h ContactService.accept_ne_limit
  rcases bind_eq_error h with h | ⟨_, -, h⟩
  · unfold ContactService.checkCap at h
    split_ifs at h with hlimit
    · rw [← keys.parseAddress_eq_some (ContactService.accept_ok haccept)]
      exact hlimit.1
    · cases h
  rcases bind_eq_error h with h | ⟨_, -, h⟩
  · cases hupsert : ContactRepo.upsert keys.toMailKeys scope now book _ with
    | error err =>
      rw [hupsert] at h
      exact absurd (Except.error.inj h) (ContactError.ofData_ne_limit err)
    | ok result =>
      rw [hupsert] at h
      cases h
  · cases h

end Specs

end Postit.Contacts
