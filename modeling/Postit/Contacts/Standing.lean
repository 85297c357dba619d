import Mathlib.Data.Fintype.Option
import Mathlib.Data.Fintype.Sigma
import Mathlib.Data.Fintype.Sum
import Mathlib.Tactic.DeriveFintype
import Postit.Contacts.Book

/-!
# The standing of one address

What the contact book holds about one address of one owner comes to two things: the status of its
contact, if there is one, and the entry that blocks it, if there is one.  `Standing` is that pair
and `Standing.after` says what may become of it; it knows nothing of rows, hashes or tables.
`Op.standing_run` ties it to the book: whatever an operation does, an address whose hash is its own
sees one `Deed` of it.
-/

namespace Postit.Contacts

open Postit.Data Postit.Framework

/-! ## The abstract standing -/

instance : Fintype ContactStatus where
  elems := {.subscribed, .unsubscribed, .bounced, .complained}
  complete c := by cases c <;> decide

instance : Fintype SuppressionReason where
  elems := {.unsubscribed, .bounced, .complained, .manual}
  complete r := by cases r <;> decide

/-- What an entry says about its address. -/
structure Block where
  reason : SuppressionReason
  ownerOptOut : Bool
  deriving DecidableEq, Repr, Fintype

/-- The contact and the entry of one address. -/
structure Standing where
  contact : Option ContactStatus := none
  block : Option Block := none
  deriving DecidableEq, Repr, Fintype

instance : Fintype Report where
  elems := {.unsubscribed, .bounced, .complained}
  complete r := by cases r <;> decide

/-- What an operation is to one address. -/
inductive Deed
  | nothing
  | add
  | drop
  | optOut
  | resubscribe (byOwner : Bool)
  | report (report : Report)
  | forgive
  deriving DecidableEq, Repr, Fintype

/-- The block after a reason is given: the higher of the two, with the opt-out of the first. -/
def Block.raise (reason : SuppressionReason) : Option Block → Block
  | none => ⟨reason, reason = .manual⟩
  | some b => if b.reason.rank < reason.rank then { b with reason := reason } else b

namespace Standing

/-- The status moves to a reason's, when the reason moves it. -/
def move (reason : SuppressionReason) (status : ContactStatus) : ContactStatus :=
  if status ∈ reason.movable then reason.status else status

/-- What a deed leaves of a standing.  One that is refused leaves it alone. -/
def after (s : Standing) : Deed → Standing
  | .nothing => s
  | .add =>
    { s with
      contact := s.contact <|> some ((s.block.map fun b => b.reason.status).getD .subscribed) }
  | .drop => { s with contact := none }
  | .optOut =>
    if s.contact = some .subscribed then ⟨some .unsubscribed, some (Block.raise .manual s.block)⟩
    else s
  | .resubscribe byOwner =>
    if s.block.all fun b => b.reason = .manual && byOwner then
      ⟨s.contact.map fun _ => .subscribed, none⟩
    else s
  | .report r => ⟨s.contact.map (move r.reason), some (Block.raise r.reason s.block)⟩
  | .forgive =>
    match s.block with
    | some ⟨.bounced, optOut⟩ =>
      if optOut || s.contact = some .unsubscribed then
        ⟨s.contact.map fun c => if c = .bounced then .unsubscribed else c,
          some ⟨.manual, true⟩⟩
      else ⟨s.contact.map fun c => if c = .bounced then .subscribed else c, none⟩
    | _ => s

/-- The owner, or the recipient, has opted the address out. -/
def OptedOut (s : Standing) : Prop := ∃ b, s.block = some b ∧ (b.reason = .bounced → b.ownerOptOut)

/-- The recipient has opted the address out. -/
def Refused (s : Standing) (reason : SuppressionReason) : Prop :=
  ∃ b, s.block = some b ∧ b.reason = reason ∧ reason.rank = 2

instance (s : Standing) : Decidable s.OptedOut := by
  unfold OptedOut
  infer_instance

instance (s : Standing) (reason : SuppressionReason) : Decidable (s.Refused reason) := by
  unfold Refused
  infer_instance

/-- A contact and the entry of its address agree. -/
structure Sound (s : Standing) : Prop where
  subscribed : s.contact = some .subscribed → s.block = none
  free : s.block = none → ∀ c, s.contact = some c → c = .subscribed
  manual : ∀ b, s.block = some b → b.reason = .manual → b.ownerOptOut
  unsubscribed : s.contact = some .unsubscribed → s.OptedOut
  bounced : s.contact = some .bounced → ∃ b, s.block = some b ∧ b.reason = .bounced
  complained : s.contact = some .complained → ∃ b, s.block = some b ∧ b.reason.rank = 2

lemma sound_iff (s : Standing) : s.Sound ↔
    (s.contact = some .subscribed → s.block = none) ∧
    (s.block = none → ∀ c, s.contact = some c → c = .subscribed) ∧
    (∀ b, s.block = some b → b.reason = .manual → b.ownerOptOut) ∧
    (s.contact = some .unsubscribed → s.OptedOut) ∧
    (s.contact = some .bounced → ∃ b, s.block = some b ∧ b.reason = .bounced) ∧
    (s.contact = some .complained → ∃ b, s.block = some b ∧ b.reason.rank = 2) :=
  ⟨fun ⟨h₁, h₂, h₃, h₄, h₅, h₆⟩ => ⟨h₁, h₂, h₃, h₄, h₅, h₆⟩,
    fun ⟨h₁, h₂, h₃, h₄, h₅, h₆⟩ => ⟨h₁, h₂, h₃, h₄, h₅, h₆⟩⟩

instance (s : Standing) : Decidable s.Sound := decidable_of_iff _ s.sound_iff.symm

lemma sound_after : ∀ (s : Standing) (d : Deed), s.Sound → (s.after d).Sound := by
  decide

lemma refused_after : ∀ (s : Standing) (d : Deed) (reason : SuppressionReason),
    s.Refused reason → (s.after d).Refused reason := by
  decide

/-- Only the owner's resubscribing ends an opt-out. -/
lemma optedOut_after : ∀ (s : Standing) (d : Deed), s.Sound → d ≠ .resubscribe true →
    s.OptedOut → (s.after d).OptedOut := by
  decide

/-- Opting out an address opts it out, unless the contact bounced or complained. -/
lemma optedOut_after_optOut : ∀ s : Standing, s.Sound → s.contact = some .subscribed ∨
    s.contact = some .unsubscribed → (s.after .optOut).OptedOut := by
  decide

/-- An address that has its contact is not added again. -/
lemma after_add {s : Standing} {c : ContactStatus} (h : s.contact = some c) :
    s.after .add = s := by
  obtain ⟨contact, block⟩ := s
  subst h
  rfl

end Standing

/-! ## The book, seen from one address -/

/-- What the entry says. -/
def Suppression.block (e : Suppression) : Block := ⟨e.reason, e.ownerOptOut⟩

/-- What blocks the hash. -/
def Book.blockOf (b : Book) (owner : UserId) (hash : EmailHash) : Option Block :=
  (b.entryFor owner hash).map fun e => e.2.block

/-- The owner's contact of the address, by its index. -/
def Book.contactAt (b : Book) (owner : UserId) (email : String) : Option (ContactId × Contact) :=
  b.contacts.byIndex (owner, email)

section Address

variable (mail : MailKeys) (owner : UserId) (address : String)

/-- The standing of the address. -/
def Book.standing (b : Book) : Standing where
  contact := (b.contactAt owner (mail.normalizeEmail address)).map fun c => c.2.status
  block := b.blockOf owner (mail.emailHash address)

/-- Each contact stores the hash of its address, and none of another address has this one's. -/
structure Book.Keyed (b : Book) : Prop where
  hashed : ∀ id c, b.contacts.lookup id = some c → c.emailHash = mail.emailHash c.email
  apart : ∀ id c, b.contacts.lookup id = some c → c.emailHash = mail.emailHash address →
    c.email = mail.normalizeEmail address

/-- An address the operation adds does not have this one's hash, unless it is this one. -/
def Op.Apart : Op → Prop
  | .upsert _ new => mail.emailHash new.email = mail.emailHash address →
      mail.normalizeEmail new.email = mail.normalizeEmail address
  | _ => True

/-- What the operation is to the address. -/
def Op.deed (b : Book) : Op → Deed
  | .upsert scope new =>
    if scope.owner = owner ∧ mail.normalizeEmail new.email = mail.normalizeEmail address then .add
    else .nothing
  | .delete scope id =>
    if scope.owner = owner ∧
        (b.contactAt owner (mail.normalizeEmail address)).any fun c => c.1 = id then .drop
    else .nothing
  | .setStatus scope id status _ =>
    if scope.owner = owner ∧
        (b.contactAt owner (mail.normalizeEmail address)).any fun c => c.1 = id then
      if status = .unsubscribed then .optOut else .resubscribe scope.isOwner
    else .nothing
  | .addHash scope hash report _ =>
    if scope.owner = owner ∧ hash = mail.emailHash address then .report report else .nothing
  | .remove scope id =>
    if scope.owner = owner ∧
        (b.entryFor owner (mail.emailHash address)).any fun e => e.1 = id then .forgive
    else .nothing

end Address

/-! ## What each operation is to an address -/

section Simulation

variable {mail : MailKeys} {owner : UserId} {address : String} {scope : OwnerScope} {now : Time}
  {book book' : Book}

lemma Book.entryFor_eq_some {hash : EmailHash} {id : SuppressionId} {e : Suppression} :
    book.entryFor owner hash = some (id, e) ↔
      book.suppressions.lookup id = some e ∧ e.Of owner hash := by
  rw [Book.entryFor, IndexedTable.byIndex_eq_some_iff, Prod.mk.injEq, Suppression.Of]

lemma Book.contactAt_eq_some {email : String} {id : ContactId} {c : Contact} :
    book.contactAt owner email = some (id, c) ↔
      book.contacts.lookup id = some c ∧ c.ownerId = owner ∧ c.email = email := by
  rw [Book.contactAt, IndexedTable.byIndex_eq_some_iff, Prod.mk.injEq]

lemma Book.blockOf_of_raiseEntry {hash : EmailHash} {reason : SuppressionReason}
    {fresh : SuppressionId} (h : book.raiseEntry scope now hash reason fresh = .ok book')
    (other : EmailHash) : book'.blockOf owner other =
      if scope.owner = owner ∧ hash = other then some (Block.raise reason (book.blockOf owner other))
      else book.blockOf owner other := by
  obtain ⟨-, ⟨id, e, he, hcase⟩ | ⟨row, hinsert, hnone, hrow, hhash, hreason, hopt⟩⟩ :=
    Book.raiseEntry_ok h
  · rcases hcase with ⟨hrank, hupd⟩ | ⟨hrank, rfl⟩
    · by_cases hat : scope.owner = owner ∧ hash = other
      · obtain ⟨rfl, rfl⟩ := hat
        unfold Book.entryFor at he
        simp [Book.blockOf, Book.entryFor, hupd, he, Block.raise, Suppression.block, hrank,
          Suppression.withReason]
      · rw [if_neg hat]
        unfold Book.blockOf Book.entryFor
        rw [hupd, IndexedTable.byIndex_updateWhere, Option.map_map]
        refine Option.map_congr fun found hfound => ?_
        obtain ⟨k, r⟩ := found
        have hne : k ≠ id := by
          rintro rfl
          obtain ⟨hr, hof⟩ := Book.entryFor_eq_some.1 hfound
          obtain ⟨hr', hof'⟩ := Book.entryFor_eq_some.1 he
          obtain rfl := Option.some.inj (hr.symm.trans hr')
          exact hat ⟨hof'.1.symm.trans hof.1, hof'.2.symm.trans hof.2⟩
        simp [hne]
    · by_cases hat : scope.owner = owner ∧ hash = other
      · obtain ⟨rfl, rfl⟩ := hat
        simp [Book.blockOf, he, Block.raise, Suppression.block, hrank]
      · rw [if_neg hat]
  · unfold Book.blockOf Book.entryFor
    rw [IndexedTable.byIndex_of_insert?_eq_some hinsert]
    simp only [hrow, hhash, Prod.mk.injEq]
    by_cases hat : scope.owner = owner ∧ hash = other
    · obtain ⟨rfl, rfl⟩ := hat
      unfold Book.entryFor at hnone
      simp [hnone, Block.raise, Suppression.block, hreason, hopt]
    · rw [if_neg hat, if_neg hat]

lemma Book.Keyed.of_contactAt (hidem : ∀ raw, mail.normalizeEmail (mail.normalizeEmail raw) =
    mail.normalizeEmail raw) (hkey : book.Keyed mail address) {id : ContactId} {c : Contact}
    (h : book.contactAt owner (mail.normalizeEmail address) = some (id, c)) :
    c.Of owner (mail.emailHash address) := by
  obtain ⟨hlookup, howner, hemail⟩ := Book.contactAt_eq_some.1 h
  refine ⟨howner, ?_⟩
  rw [hkey.hashed id c hlookup, hemail, MailKeys.emailHash, hidem, MailKeys.emailHash]

lemma Book.Keyed.contactAt_of (hkey : book.Keyed mail address) {id : ContactId} {c : Contact}
    (hlookup : book.contacts.lookup id = some c) (hof : c.Of owner (mail.emailHash address)) :
    book.contactAt owner (mail.normalizeEmail address) = some (id, c) :=
  Book.contactAt_eq_some.2 ⟨hlookup, hof.1, hkey.apart id c hlookup hof.2⟩

lemma Book.contactAt_setContact (id : ContactId) (status : ContactStatus) (email : String) :
    (book.setContact scope now id status).contactAt owner email =
      (book.contactAt owner email).map fun e =>
        (e.1, if e.1 = id && e.2.ownerId = scope.owner then
          e.2.withStatus scope now status else e.2) :=
  IndexedTable.byIndex_updateWhere _ _ _ (Contact.withStatus_key scope now status) _

@[simp] lemma Contact.withStatus_status (status : ContactStatus) (c : Contact) :
    (c.withStatus scope now status).status = status := rfl

section Steps

variable (hidem : ∀ raw, mail.normalizeEmail (mail.normalizeEmail raw) = mail.normalizeEmail raw)
  (hkey : book.Keyed mail address)

include hidem hkey

/-- Moving the contacts of a hash moves the address with that hash. -/
lemma Book.standing_moveContacts (hash : EmailHash) (movable : List ContactStatus)
    (status : ContactStatus) :
    (book.moveContacts scope now hash movable status).standing mail owner address =
      { book.standing mail owner address with
        contact := (book.standing mail owner address).contact.map fun c =>
          if (scope.owner = owner ∧ hash = mail.emailHash address) ∧ c ∈ movable then status
          else c } := by
  have hblock : (book.moveContacts scope now hash movable status).blockOf owner
      (mail.emailHash address) = book.blockOf owner (mail.emailHash address) := rfl
  unfold Book.standing
  rw [hblock, Book.contactAt, Book.moveContacts, IndexedTable.byIndex_updateWhere]
  simp only [Option.map_map, Standing.mk.injEq, and_true]
  refine Option.map_congr fun found hfound => ?_
  obtain ⟨id, c⟩ := found
  obtain ⟨hofOwner, hofHash⟩ := hkey.of_contactAt hidem hfound
  have hiff : (owner = scope.owner ∧ mail.emailHash address = hash) ↔
      (scope.owner = owner ∧ hash = mail.emailHash address) := by
    rw [eq_comm, eq_comm (b := hash)]
  simp only [Function.comp, hofOwner, hofHash, Bool.and_eq_true, decide_eq_true_eq, hiff]
  split <;> rfl

lemma Book.standing_addHash {hash : EmailHash} {reason : SuppressionReason} {fresh : SuppressionId}
    (h : SuppressionRepo.addHash scope now book hash reason fresh = .ok book') :
    book'.standing mail owner address =
      if scope.owner = owner ∧ hash = mail.emailHash address then
        ⟨(book.standing mail owner address).contact.map (Standing.move reason),
          some (Block.raise reason (book.standing mail owner address).block)⟩
      else book.standing mail owner address := by
  obtain ⟨raised, hraised, rfl⟩ := SuppressionRepo.addHash_ok h
  obtain ⟨hcontacts, -⟩ := Book.raiseEntry_ok hraised
  have hkey' : raised.Keyed mail address := by
    constructor
    · rw [hcontacts]
      exact hkey.hashed
    · rw [hcontacts]
      exact hkey.apart
  have hraisedStanding : raised.standing mail owner address =
      { book.standing mail owner address with
        block := raised.blockOf owner (mail.emailHash address) } := by
    unfold Book.standing
    rw [Book.contactAt, hcontacts, Book.contactAt]
  rw [Book.standing_moveContacts hidem hkey', hraisedStanding, Book.blockOf_of_raiseEntry hraised]
  by_cases hat : scope.owner = owner ∧ hash = mail.emailHash address
  · simp only [hat, true_and]
    rfl
  · simp only [hat, if_false, false_and, Option.map_id']
    rfl

/-- The contact an operation names is the address's when it has its hash. -/
lemma Book.Keyed.at_iff {id : ContactId} {c : Contact} (hlookup : book.contacts.lookup id = some c)
    (howner : c.ownerId = scope.owner) :
    (scope.owner = owner ∧
      (book.contactAt owner (mail.normalizeEmail address)).any (fun c => c.1 = id) = true) ↔
      c.Of owner (mail.emailHash address) := by
  constructor
  · rintro ⟨ho, hany⟩
    obtain ⟨⟨k, d⟩, hd, hk⟩ := (Option.any_eq_true _ _).mp hany
    obtain rfl : k = id := of_decide_eq_true hk
    obtain rfl := Option.some.inj (hlookup.symm.trans (Book.contactAt_eq_some.1 hd).1)
    exact hkey.of_contactAt hidem hd
  · intro hof
    refine ⟨howner.symm.trans hof.1, ?_⟩
    rw [hkey.contactAt_of hlookup hof]
    simp

/-- Setting a contact's status changes its address's, and no other. -/
lemma Book.standing_setContact {id : ContactId} {c : Contact}
    (hlookup : book.contacts.lookup id = some c) (howner : c.ownerId = scope.owner)
    (status : ContactStatus) :
    (book.setContact scope now id status).standing mail owner address =
      if c.Of owner (mail.emailHash address) then
        { book.standing mail owner address with contact := some status }
      else book.standing mail owner address := by
  have hblock : (book.setContact scope now id status).blockOf owner (mail.emailHash address) =
      book.blockOf owner (mail.emailHash address) := rfl
  unfold Book.standing
  rw [hblock, Book.contactAt_setContact]
  by_cases hof : c.Of owner (mail.emailHash address)
  · rw [if_pos hof, hkey.contactAt_of hlookup hof]
    simp [howner]
  · rw [if_neg hof]
    simp only [Option.map_map, Standing.mk.injEq, and_true]
    refine Option.map_congr fun found hfound => ?_
    obtain ⟨k, d⟩ := found
    have hne : k ≠ id := by
      rintro rfl
      obtain rfl := Option.some.inj (hlookup.symm.trans (Book.contactAt_eq_some.1 hfound).1)
      exact hof (hkey.of_contactAt hidem hfound)
    simp [hne]

omit hidem hkey in
/-- Erasing an entry clears its hash, and no other. -/
lemma Book.blockOf_erase {hash : EmailHash} {entry : SuppressionId} {e : Suppression}
    (h : book.entryFor scope.owner hash = some (entry, e)) (other : EmailHash) :
    Book.blockOf { book with suppressions := book.suppressions.erase entry } owner other =
      if scope.owner = owner ∧ hash = other then none else book.blockOf owner other := by
  unfold Book.blockOf
  rw [Book.entryFor, IndexedTable.byIndex_erase]
  by_cases hat : scope.owner = owner ∧ hash = other
  · obtain ⟨rfl, rfl⟩ := hat
    rw [Book.entryFor] at h
    simp [h]
  · rw [if_neg hat]
    rw [Book.entryFor]
    cases hfound : book.suppressions.byIndex (owner, other) with
    | none => rfl
    | some found =>
      obtain ⟨k, d⟩ := found
      have hne : k ≠ entry := by
        rintro rfl
        obtain ⟨hd, hdof⟩ := Book.entryFor_eq_some.1 hfound
        obtain ⟨he, heof⟩ := Book.entryFor_eq_some.1 h
        obtain rfl := Option.some.inj (hd.symm.trans he)
        exact hat ⟨heof.1.symm.trans hdof.1, heof.2.symm.trans hdof.2⟩
      simp [Option.filter, hne]

omit hidem hkey in
/-- The owner's unsubscribe writes an entry and no contact. -/
lemma Book.lookup_addHash_manual {hash : EmailHash} {fresh : SuppressionId}
    (h : SuppressionRepo.addHash scope now book hash .manual fresh = .ok book') (id : ContactId) :
    book'.contacts.lookup id = book.contacts.lookup id := by
  obtain ⟨raised, hraised, rfl⟩ := SuppressionRepo.addHash_ok h
  rw [Book.moveContacts, IndexedTable.lookup_updateWhere, (Book.raiseEntry_ok hraised).1]
  simp [SuppressionReason.movable]

lemma Book.standing_setStatus {id : ContactId} {status : ContactStatus} {fresh : SuppressionId}
    {result : Contact × Book}
    (h : ContactRepo.setStatus scope now book id status fresh = .ok result) :
    result.2.standing mail owner address = (book.standing mail owner address).after
      (Op.deed mail owner address book (.setStatus scope id status fresh)) := by
  obtain ⟨c, hlookup, howner, hcase⟩ := ContactRepo.setStatus_ok h
  rw [Op.deed, if_congr (hkey.at_iff hidem hlookup howner) rfl rfl]
  rcases hcase with ⟨rfl, hst, heq⟩ | ⟨rfl, hst, added, hadd, heq⟩ | ⟨rfl, hnone, heq⟩ |
    ⟨rfl, entry, e, he, hmanual, hown, heq⟩
  · -- opted out already
    rw [heq]
    by_cases hof : c.Of owner (mail.emailHash address)
    · have hat := hkey.contactAt_of hlookup hof
      simp [hof, Standing.after, Book.standing, hat, hst]
    · rw [if_neg hof, Standing.after]
  · -- opted out now
    have hlookup' := (Book.lookup_addHash_manual hadd id).trans hlookup
    have hkey' : added.Keyed mail address :=
      ⟨fun k d hd => hkey.hashed k d ((Book.lookup_addHash_manual hadd k).symm.trans hd),
        fun k d hd => hkey.apart k d ((Book.lookup_addHash_manual hadd k).symm.trans hd)⟩
    rw [heq, Book.standing_setContact hidem hkey' hlookup' howner,
      Book.standing_addHash hidem hkey hadd]
    by_cases hof : c.Of owner (mail.emailHash address)
    · have hat := hkey.contactAt_of hlookup hof
      have ho : scope.owner = owner := howner.symm.trans hof.1
      simp [hof, ho, hof.2, Standing.after, Book.standing, hat, hst]
    · have hother : ¬ (scope.owner = owner ∧ c.emailHash = mail.emailHash address) :=
        fun h => hof ⟨howner.trans h.1, h.2⟩
      rw [if_neg hof, if_neg hof, if_neg hother, Standing.after]
  · -- subscribed, with nothing in the way
    rw [heq, Book.standing_setContact hidem hkey hlookup howner]
    by_cases hof : c.Of owner (mail.emailHash address)
    · have hat := hkey.contactAt_of hlookup hof
      rw [howner.symm.trans hof.1, hof.2] at hnone
      simp [hof, Standing.after, Book.standing, Book.blockOf, hnone, hat]
    · rw [if_neg hof, if_neg hof, Standing.after]
  · -- subscribed by the owner, past their own opt-out
    have hkey' : Book.Keyed mail address
        { book with suppressions := book.suppressions.erase entry } := ⟨hkey.hashed, hkey.apart⟩
    have hcontact : Book.contactAt { book with suppressions := book.suppressions.erase entry }
        owner (mail.normalizeEmail address) = book.contactAt owner (mail.normalizeEmail address) :=
      rfl
    rw [heq, Book.standing_setContact hidem hkey' hlookup howner]
    unfold Book.standing
    rw [Book.blockOf_erase he, hcontact]
    by_cases hof : c.Of owner (mail.emailHash address)
    · have hat := hkey.contactAt_of hlookup hof
      have ho : scope.owner = owner := howner.symm.trans hof.1
      rw [ho, hof.2] at he
      simp [hof, hof.2, ho, Standing.after, Book.blockOf, he, hat, hmanual, hown,
        Suppression.block]
    · have hother : ¬ (scope.owner = owner ∧ c.emailHash = mail.emailHash address) :=
        fun h => hof ⟨howner.trans h.1, h.2⟩
      rw [if_neg hof, if_neg hof, if_neg hother, Standing.after]

omit hkey in
lemma Book.standing_upsert {new : NewContact} {result : ContactUpsert × Book}
    (h : ContactRepo.upsert mail scope now book new = .ok result) :
    result.2.standing mail owner address = (book.standing mail owner address).after
      (Op.deed mail owner address book (.upsert scope new)) := by
  rcases ContactRepo.upsert_ok h with ⟨id, c, hat, heq⟩ |
    ⟨row, contacts, hinsert, heq, hrow, hemail, hhash, hstatus⟩
  · -- the details of a contact change, and with them no standing
    have hcontact : ∀ o e, (result.2.contactAt o e).map (fun c => c.2.status) =
        (book.contactAt o e).map fun c => c.2.status := by
      intro o e
      rw [heq, Book.contactAt, IndexedTable.byIndex_updateWhere, Option.map_map]
      refine Option.map_congr fun found _ => ?_
      by_cases hk : found.1 = id <;> simp [hk, Contact.takeDetails]
    have hsame : result.2.standing mail owner address = book.standing mail owner address := by
      unfold Book.standing
      rw [hcontact, heq]
      rfl
    rw [hsame, Op.deed]
    split
    · next hadd =>
      have hfound : (book.standing mail owner address).contact = some c.status := by
        simp [Book.standing, Book.contactAt, ← hadd.1, ← hadd.2, hat]
      exact (Standing.after_add hfound).symm
    · rfl
  · -- a new contact takes its status from the entry
    have hfree := (IndexedTable.of_insert?_eq_some hinsert).2.1
    unfold Book.standing
    rw [heq, Book.contactAt, IndexedTable.byIndex_of_insert?_eq_some hinsert, hrow, hemail,
      Op.deed]
    simp only [Prod.mk.injEq]
    by_cases hadd : scope.owner = owner ∧
        mail.normalizeEmail new.email = mail.normalizeEmail address
    · have hnone : book.contacts.byIndex (owner, mail.normalizeEmail address) = none := by
        refine IndexedTable.byIndex_eq_none.mpr fun k r hr hkey => hfree k r hr ?_
        rw [hkey, hrow, hemail, hadd.1, hadd.2]
      have hkeyed : row.emailHash = mail.emailHash address := by
        rw [hhash, hadd.2, MailKeys.emailHash, hidem, MailKeys.emailHash]
      rw [hadd.1, hkeyed] at hstatus
      simp [hadd, Standing.after, Book.contactAt, hnone, hstatus, Book.blockOf, Book.entryFor,
        Suppression.block, Function.comp_def]
    · rw [if_neg hadd, if_neg hadd]
      rfl

lemma Book.standing_delete {id : ContactId} (h : ContactRepo.delete scope book id = .ok book') :
    book'.standing mail owner address = (book.standing mail owner address).after
      (Op.deed mail owner address book (.delete scope id)) := by
  obtain ⟨c, hlookup, howner, rfl⟩ := ContactRepo.delete_ok h
  rw [Op.deed, if_congr (hkey.at_iff hidem hlookup howner) rfl rfl]
  unfold Book.standing
  rw [Book.contactAt, IndexedTable.byIndex_erase]
  by_cases hof : c.Of owner (mail.emailHash address)
  · have hat := hkey.contactAt_of hlookup hof
    rw [Book.contactAt] at hat
    simp [hof, hat, Standing.after, Book.blockOf, Book.entryFor]
  · rw [if_neg hof]
    cases hfound : book.contacts.byIndex (owner, mail.normalizeEmail address) with
    | none => simp [Standing.after, Book.contactAt, hfound, Book.blockOf, Book.entryFor]
    | some found =>
      obtain ⟨k, d⟩ := found
      have hne : k ≠ id := by
        rintro rfl
        obtain rfl := Option.some.inj (hlookup.symm.trans (Book.contactAt_eq_some.1 hfound).1)
        exact hof (hkey.of_contactAt hidem hfound)
      simp [Standing.after, Book.contactAt, hfound, Option.filter, hne, Book.blockOf,
        Book.entryFor]

omit hidem hkey in
/-- The entry an operation names is the address's when it has its hash. -/
lemma Book.entry_at_iff {hash : EmailHash} {id : SuppressionId} {e : Suppression}
    (hlookup : book.suppressions.lookup id = some e) (howner : e.ownerId = scope.owner) :
    (scope.owner = owner ∧ (book.entryFor owner hash).any (fun e => e.1 = id) = true) ↔
      e.Of owner hash := by
  constructor
  · rintro ⟨ho, hany⟩
    obtain ⟨⟨k, d⟩, hd, hk⟩ := (Option.any_eq_true _ _).mp hany
    obtain rfl : k = id := of_decide_eq_true hk
    obtain ⟨hd, hof⟩ := Book.entryFor_eq_some.1 hd
    obtain rfl := Option.some.inj (hlookup.symm.trans hd)
    exact hof
  · intro hof
    refine ⟨howner.symm.trans hof.1, ?_⟩
    rw [Book.entryFor_eq_some.2 ⟨hlookup, hof⟩]
    simp

/-- The owner's opt-out stays when the entry or the contact remembers it. -/
lemma Book.optOutStays_eq {e : Suppression}
    (hof : e.Of owner (mail.emailHash address)) : book.optOutStays e =
      (e.ownerOptOut || (book.standing mail owner address).contact = some .unsubscribed) := by
  unfold Book.optOutStays
  congr 1
  rw [Bool.eq_iff_iff, Table.exists?_eq_true, decide_eq_true_eq]
  constructor
  · rintro ⟨k, c, hc, hp⟩
    simp only [Bool.and_eq_true, decide_eq_true_eq] at hp
    have hcof : c.Of owner (mail.emailHash address) :=
      ⟨hp.1.1.trans hof.1, hp.1.2.trans hof.2⟩
    have hat := hkey.contactAt_of hc hcof
    simp [Book.standing, hat, hp.2]
  · intro hcontact
    obtain ⟨⟨k, c⟩, hat, hstatus⟩ := Option.map_eq_some_iff.mp hcontact
    obtain ⟨ho, hh⟩ := hkey.of_contactAt hidem hat
    refine ⟨k, c, (Book.contactAt_eq_some.1 hat).1, ?_⟩
    simp only [Bool.and_eq_true, decide_eq_true_eq]
    exact ⟨⟨ho.trans hof.1.symm, hh.trans hof.2.symm⟩, hstatus⟩

omit hidem hkey in
/-- Turning an entry back changes the block of its hash, and no other. -/
lemma Book.blockOf_backToManual {id : SuppressionId} {e : Suppression}
    (hlookup : book.suppressions.lookup id = some e) (howner : e.ownerId = scope.owner)
    (hash : EmailHash) :
    Book.blockOf { book with
        suppressions := book.suppressions.updateWhere (fun k r => k = id && r.ownerId = scope.owner)
          (Suppression.backToManual scope now) (Suppression.backToManual_key scope now) }
      owner hash = if e.Of owner hash then some ⟨.manual, true⟩ else book.blockOf owner hash := by
  unfold Book.blockOf
  rw [Book.entryFor, IndexedTable.byIndex_updateWhere]
  by_cases hof : e.Of owner hash
  · have hat := Book.entryFor_eq_some.2 ⟨hlookup, hof⟩
    rw [Book.entryFor] at hat
    simp [hof, hat, howner, Suppression.block, Suppression.backToManual]
  · rw [if_neg hof, Option.map_map, Book.entryFor]
    refine Option.map_congr fun found hfound => ?_
    obtain ⟨k, d⟩ := found
    have hne : k ≠ id := by
      rintro rfl
      obtain ⟨hd, hdof⟩ := Book.entryFor_eq_some.1 hfound
      obtain rfl := Option.some.inj (hlookup.symm.trans hd)
      exact hof hdof
    simp [hne]

lemma Book.standing_remove {id : SuppressionId} (h : SuppressionRepo.remove scope now book id =
    .ok book') : book'.standing mail owner address = (book.standing mail owner address).after
      (Op.deed mail owner address book (.remove scope id)) := by
  obtain ⟨-, e, hlookup, howner, hreason, hcase⟩ := SuppressionRepo.remove_ok h
  rw [Op.deed, if_congr (Book.entry_at_iff hlookup howner) rfl rfl]
  have hkey' : ∀ s, Book.Keyed mail address { book with suppressions := s } :=
    fun _ => ⟨hkey.hashed, hkey.apart⟩
  have hentry : book.entryFor scope.owner e.emailHash = some (id, e) :=
    Book.entryFor_eq_some.2 ⟨hlookup, howner, rfl⟩
  have hiff : (scope.owner = owner ∧ e.emailHash = mail.emailHash address) ↔
      e.Of owner (mail.emailHash address) := by
    rw [Suppression.Of, howner]
  have hstanding : ∀ s, Book.standing mail owner address { book with suppressions := s } =
      { book.standing mail owner address with
        block := Book.blockOf { book with suppressions := s } owner (mail.emailHash address) } :=
    fun _ => rfl
  by_cases hof : e.Of owner (mail.emailHash address)
  · have hblock : (book.standing mail owner address).block = some ⟨.bounced, e.ownerOptOut⟩ := by
      simp [Book.standing, Book.blockOf, Book.entryFor_eq_some.2 ⟨hlookup, hof⟩,
        Suppression.block, hreason]
    have hstays := Book.optOutStays_eq hidem hkey hof
    rcases hcase with ⟨hstay, rfl⟩ | ⟨hgone, rfl⟩
    · rw [Book.standing_moveContacts hidem (hkey' _), hstanding,
        Book.blockOf_backToManual hlookup howner, if_pos hof, if_pos hof, Standing.after, hblock]
      simp [hiff, hof, ← hstays, hstay]
    · rw [Book.standing_moveContacts hidem (hkey' _), hstanding, Book.blockOf_erase hentry,
        if_pos (hiff.mpr hof), if_pos hof, Standing.after, hblock]
      simp [hiff, hof, ← hstays, hgone]
  · rw [if_neg hof, Standing.after]
    rcases hcase with ⟨hstay, rfl⟩ | ⟨hgone, rfl⟩
    · rw [Book.standing_moveContacts hidem (hkey' _), hstanding,
        Book.blockOf_backToManual hlookup howner, if_neg hof]
      simp [hiff, hof]
      rfl
    · rw [Book.standing_moveContacts hidem (hkey' _), hstanding, Book.blockOf_erase hentry,
        if_neg (mt hiff.mp hof)]
      simp [hiff, hof]
      rfl

/-- **The simulation.**  A call that succeeds is one deed to the address. -/
theorem Op.standing_run {op : Op} (h : op.run mail now book = .ok book') :
    book'.standing mail owner address =
      (book.standing mail owner address).after (op.deed mail owner address book) := by
  cases op with
  | upsert scope new =>
    obtain ⟨result, hrun, rfl⟩ := of_map_ok h
    exact Book.standing_upsert hidem hrun
  | delete scope id => exact Book.standing_delete hidem hkey h
  | setStatus scope id status fresh =>
    obtain ⟨result, hrun, rfl⟩ := of_map_ok h
    exact Book.standing_setStatus hidem hkey hrun
  | addHash scope hash report fresh =>
    rw [Op.deed, Book.standing_addHash hidem hkey h]
    split <;> rfl
  | remove scope id => exact Book.standing_remove hidem hkey h

end Steps

end Simulation
end Postit.Contacts
