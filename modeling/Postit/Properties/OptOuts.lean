import Postit.Contacts.Standing
import Postit.Framework.Trace

/-!
# Opt-outs

An address that opted out stays opted out.  The contact book and the suppression list are changed
by five calls, in any order, by the owner and by delegates; what holds of an address along such a
run is read off its `Standing`, which each call changes by one deed.

The hashes of two addresses are assumed apart only where it matters: no address that a run adds has
the hash of the address in question, unless it is that address.
-/

namespace Postit.Contacts

open Postit.Data Postit.Framework

section Statements

variable (mail : MailKeys) (owner : UserId) (address : String)

/-- The contact is the owner's, for the address. -/
def Contact.IsFor (c : Contact) : Prop :=
  c.ownerId = owner ∧ c.email = mail.normalizeEmail address

/-- The entry is the owner's, for the address. -/
def Suppression.IsFor (e : Suppression) : Prop := e.Of owner (mail.emailHash address)

/-- Some contact of the address may be emailed. -/
def Book.Mailable (b : Book) : Prop :=
  ∃ id c, b.contacts.lookup id = some c ∧ c.IsFor mail owner address ∧ c.status = .subscribed

/-- One call on the book, at any time. -/
def CallStep (b : Book) (op : Op) (b' : Book) : Prop :=
  op.Apart mail address ∧ ∃ now, b' = b.call mail now op

/-- The owner sets the status of a contact of the address back to subscribed. -/
def Op.Resubscribes (b : Book) (op : Op) : Prop :=
  ∃ scope id fresh c, op = .setStatus scope id .subscribed fresh ∧ scope.isOwner = true ∧
    b.contacts.lookup id = some c ∧ c.IsFor mail owner address

end Statements

section Steps

variable {mail : MailKeys} {owner : UserId} {address : String} {b b' : Book} {op : Op}
  {es : List Op}

/-- The contacts after a change that keeps addresses and hashes are those before it. -/
def Book.SameContacts (b b' : Book) : Prop :=
  ∀ id c', b'.contacts.lookup id = some c' →
    ∃ c, b.contacts.lookup id = some c ∧ c'.email = c.email ∧ c'.emailHash = c.emailHash

lemma Book.sameContacts_moveContacts (b : Book) (scope : OwnerScope) (now : Time)
    (hash : EmailHash) (movable : List ContactStatus) (status : ContactStatus) :
    b.SameContacts (b.moveContacts scope now hash movable status) := by
  intro id c' hc'
  rw [Book.moveContacts, IndexedTable.lookup_updateWhere, Option.map_eq_some_iff] at hc'
  obtain ⟨c, hc, rfl⟩ := hc'
  refine ⟨c, hc, ?_⟩
  split <;> exact ⟨rfl, rfl⟩

lemma Book.sameContacts_setContact (b : Book) (scope : OwnerScope) (now : Time) (id : ContactId)
    (status : ContactStatus) : b.SameContacts (b.setContact scope now id status) := by
  intro k c' hc'
  rw [Book.setContact, IndexedTable.lookup_updateWhere, Option.map_eq_some_iff] at hc'
  obtain ⟨c, hc, rfl⟩ := hc'
  refine ⟨c, hc, ?_⟩
  split <;> exact ⟨rfl, rfl⟩

/-- A contact after a call was one before it, or is the one the call added. -/
lemma Op.contact_came {now : Time} (h : op.run mail now b = .ok b') {id : ContactId} {c' : Contact}
    (hc' : b'.contacts.lookup id = some c') :
    (∃ c, b.contacts.lookup id = some c ∧ c'.email = c.email ∧ c'.emailHash = c.emailHash) ∨
      ∃ scope new, op = .upsert scope new ∧ c'.email = mail.normalizeEmail new.email ∧
        c'.emailHash = mail.emailHash (mail.normalizeEmail new.email) := by
  cases op with
  | upsert scope new =>
    obtain ⟨result, hrun, rfl⟩ := of_map_ok h
    rcases ContactRepo.upsert_ok hrun with ⟨k, c, -, heq⟩ |
      ⟨row, contacts, hinsert, heq, -, hemail, hhash, -⟩
    · rw [heq, IndexedTable.lookup_updateWhere, Option.map_eq_some_iff] at hc'
      obtain ⟨d, hd, rfl⟩ := hc'
      refine .inl ⟨d, hd, ?_⟩
      split <;> exact ⟨rfl, rfl⟩
    · rw [heq, (IndexedTable.of_insert?_eq_some hinsert).2.2] at hc'
      split at hc'
      · obtain rfl := Option.some.inj hc'
        exact .inr ⟨scope, new, rfl, hemail, hhash⟩
      · exact .inl ⟨c', hc', rfl, rfl⟩
  | delete scope k =>
    obtain ⟨c, -, -, rfl⟩ := ContactRepo.delete_ok h
    rw [IndexedTable.lookup_erase] at hc'
    split at hc'
    · cases hc'
    · exact .inl ⟨c', hc', rfl, rfl⟩
  | setStatus scope k status fresh =>
    obtain ⟨result, hrun, rfl⟩ := of_map_ok h
    obtain ⟨c, -, -, hcase⟩ := ContactRepo.setStatus_ok hrun
    rcases hcase with ⟨-, -, heq⟩ | ⟨-, -, added, hadd, heq⟩ | ⟨-, -, heq⟩ |
      ⟨-, entry, e, -, -, -, heq⟩
    · rw [heq] at hc'
      exact .inl ⟨c', hc', rfl, rfl⟩
    · rw [heq] at hc'
      obtain ⟨d, hd, hsame⟩ := Book.sameContacts_setContact _ _ _ _ _ _ _ hc'
      exact .inl ⟨d, (Book.lookup_addHash_manual hadd id).symm.trans hd, hsame⟩
    · rw [heq] at hc'
      exact .inl (Book.sameContacts_setContact _ _ _ _ _ _ _ hc')
    · rw [heq] at hc'
      exact .inl (Book.sameContacts_setContact _ _ _ _ _ _ _ hc')
  | addHash scope hash report fresh =>
    obtain ⟨raised, hraised, rfl⟩ := SuppressionRepo.addHash_ok h
    obtain ⟨d, hd, hsame⟩ := Book.sameContacts_moveContacts _ _ _ _ _ _ _ _ hc'
    rw [(Book.raiseEntry_ok hraised).1] at hd
    exact .inl ⟨d, hd, hsame⟩
  | remove scope k =>
    obtain ⟨-, e, -, -, -, ⟨-, rfl⟩ | ⟨-, rfl⟩⟩ := SuppressionRepo.remove_ok h
    · exact .inl (Book.sameContacts_moveContacts _ _ _ _ _ _ _ _ hc')
    · exact .inl (Book.sameContacts_moveContacts _ _ _ _ _ _ _ _ hc')

lemma Op.keyed_run {now : Time} (hidem : ∀ raw,
    mail.normalizeEmail (mail.normalizeEmail raw) = mail.normalizeEmail raw)
    (hapart : op.Apart mail address) (hkey : b.Keyed mail address)
    (h : op.run mail now b = .ok b') : b'.Keyed mail address := by
  constructor
  · intro id c' hc'
    rcases Op.contact_came h hc' with ⟨c, hc, hemail, hhash⟩ | ⟨scope, new, rfl, hemail, hhash⟩
    · rw [hhash, hemail, hkey.hashed id c hc]
    · rw [hhash, hemail]
  · intro id c' hc' hat
    rcases Op.contact_came h hc' with ⟨c, hc, hemail, hhash⟩ | ⟨scope, new, rfl, hemail, hhash⟩
    · exact hemail.trans (hkey.apart id c hc (hhash.symm.trans hat))
    · rw [hemail]
      refine hapart ?_
      rw [← hat, hhash, MailKeys.emailHash, MailKeys.emailHash, hidem]

/-- What is left of an entry after a change: its owner and hash, and a reason of the recipient's. -/
def Suppression.KeptBy (e : Suppression) (id : SuppressionId) (b' : Book) : Prop :=
  ∃ e', b'.suppressions.lookup id = some e' ∧ e'.ownerId = e.ownerId ∧
    e'.emailHash = e.emailHash ∧ (e.reason.rank = 2 → e'.reason = e.reason)

lemma Suppression.keptBy_self {e : Suppression} {id : SuppressionId}
    (h : b'.suppressions.lookup id = some e) : e.KeptBy id b' :=
  ⟨e, h, rfl, rfl, fun _ => rfl⟩

lemma SuppressionReason.rank_le (r : SuppressionReason) : r.rank ≤ 2 := by
  cases r <;> simp [SuppressionReason.rank]

lemma Book.kept_raiseEntry {scope : OwnerScope} {now : Time} {hash : EmailHash}
    {reason : SuppressionReason} {fresh : SuppressionId}
    (h : b.raiseEntry scope now hash reason fresh = .ok b') {id : SuppressionId} {e : Suppression}
    (he : b.suppressions.lookup id = some e) : e.KeptBy id b' := by
  obtain ⟨-, ⟨k, d, hd, ⟨hrank, heq⟩ | ⟨-, rfl⟩⟩ | ⟨row, hinsert, -⟩⟩ := Book.raiseEntry_ok h
  · by_cases hk : id = k
    · subst hk
      obtain rfl := Option.some.inj (he.symm.trans (Book.entryFor_eq_some.1 hd).1)
      refine ⟨e.withReason scope now reason, by simp [heq, he], rfl, rfl, fun hmax => ?_⟩
      have := reason.rank_le
      omega
    · exact Suppression.keptBy_self (by simp [heq, he, hk])
  · exact Suppression.keptBy_self he
  · obtain ⟨hfresh, -, hlookup⟩ := IndexedTable.of_insert?_eq_some hinsert
    have hne : id ≠ fresh := by
      rintro rfl
      rw [hfresh] at he
      cases he
    exact Suppression.keptBy_self (by rw [hlookup, if_neg hne, he])

lemma Book.kept_addHash {scope : OwnerScope} {now : Time} {hash : EmailHash}
    {reason : SuppressionReason} {fresh : SuppressionId}
    (h : SuppressionRepo.addHash scope now b hash reason fresh = .ok b') {id : SuppressionId}
    {e : Suppression} (he : b.suppressions.lookup id = some e) : e.KeptBy id b' := by
  obtain ⟨raised, hraised, rfl⟩ := SuppressionRepo.addHash_ok h
  exact Book.kept_raiseEntry hraised he

/-- An entry outlives a call, unless the owner takes it off the list, which the recipient's own
opt-out withstands. -/
lemma Op.entry_kept {now : Time} (h : op.run mail now b = .ok b') {id : SuppressionId}
    {e : Suppression} (he : b.suppressions.lookup id = some e) :
    e.KeptBy id b' ∨ (op.scope.isOwner = true ∧ e.reason.rank < 2) := by
  cases op with
  | upsert scope new =>
    obtain ⟨result, hrun, rfl⟩ := of_map_ok h
    rcases ContactRepo.upsert_ok hrun with ⟨k, c, -, heq⟩ | ⟨row, contacts, -, heq, -⟩ <;>
      exact .inl (Suppression.keptBy_self (by rw [heq]; exact he))
  | delete scope k =>
    obtain ⟨c, -, -, rfl⟩ := ContactRepo.delete_ok h
    exact .inl (Suppression.keptBy_self he)
  | setStatus scope k status fresh =>
    obtain ⟨result, hrun, rfl⟩ := of_map_ok h
    obtain ⟨c, -, -, hcase⟩ := ContactRepo.setStatus_ok hrun
    rcases hcase with ⟨-, -, heq⟩ | ⟨-, -, added, hadd, heq⟩ | ⟨-, -, heq⟩ |
      ⟨-, entry, d, hd, hmanual, howner, heq⟩
    · exact .inl (Suppression.keptBy_self (by rw [heq]; exact he))
    · rw [heq]
      exact .inl (Book.kept_addHash hadd he)
    · exact .inl (Suppression.keptBy_self (by rw [heq]; exact he))
    · by_cases hk : id = entry
      · subst hk
        obtain rfl := Option.some.inj (he.symm.trans (Book.entryFor_eq_some.1 hd).1)
        exact .inr ⟨howner, by simp [hmanual, SuppressionReason.rank]⟩
      · refine .inl (Suppression.keptBy_self ?_)
        rw [heq]
        simp [Book.setContact, hk, he]
  | addHash scope hash report fresh => exact .inl (Book.kept_addHash h he)
  | remove scope k =>
    obtain ⟨howner, d, hd, -, hreason, hcase⟩ := SuppressionRepo.remove_ok h
    by_cases hk : id = k
    · subst hk
      obtain rfl := Option.some.inj (he.symm.trans hd)
      exact .inr ⟨howner, by simp [hreason, SuppressionReason.rank]⟩
    · refine .inl (Suppression.keptBy_self ?_)
      rcases hcase with ⟨-, rfl⟩ | ⟨-, rfl⟩ <;> simp [Book.moveContacts, hk, he]

end Steps

/-! ## Runs -/

section Runs

variable {mail : MailKeys} {owner : UserId} {address : String} {b b' : Book} {op : Op}
  {es : List Op}

/-- What every run keeps: rows that store their own hashes, and a standing that agrees. -/
structure Book.Good (mail : MailKeys) (owner : UserId) (address : String) (b : Book) : Prop where
  keyed : b.Keyed mail address
  sound : (b.standing mail owner address).Sound

lemma Book.good_empty : Book.empty.Good mail owner address where
  keyed := ⟨fun id c hc => absurd hc (Book.lookup_empty_ne_some id c),
    fun id c hc => absurd hc (Book.lookup_empty_ne_some id c)⟩
  sound := by
    have hempty : Book.empty.standing mail owner address = ⟨none, none⟩ := rfl
    rw [hempty]
    decide

/-- The address may be emailed exactly when its standing says so. -/
lemma Book.mailable_iff : b.Mailable mail owner address ↔
    (b.standing mail owner address).contact = some .subscribed := by
  constructor
  · rintro ⟨id, c, hlookup, hfor, hstatus⟩
    simp [Book.standing, Book.contactAt_eq_some.2 ⟨hlookup, hfor⟩, hstatus]
  · intro hcontact
    obtain ⟨⟨id, c⟩, hat, hstatus⟩ := Option.map_eq_some_iff.mp hcontact
    obtain ⟨hlookup, hfor⟩ := Book.contactAt_eq_some.1 hat
    exact ⟨id, c, hlookup, hfor, hstatus⟩

/-- An address that opted out, or is refused, is not emailed. -/
lemma Book.Good.not_mailable (hb : b.Good mail owner address)
    (h : (b.standing mail owner address).block ≠ none) : ¬ b.Mailable mail owner address :=
  fun hmail => h (hb.sound.subscribed (Book.mailable_iff.1 hmail))

variable (hidem : ∀ raw, mail.normalizeEmail (mail.normalizeEmail raw) = mail.normalizeEmail raw)

include hidem

variable (owner) in
/-- A call is one deed to the address. -/
lemma CallStep.deed (h : CallStep mail address b op b') (hkey : b.Keyed mail address) :
    ∃ d, b'.standing mail owner address = (b.standing mail owner address).after d ∧
      (d = .resubscribe true → op.Resubscribes mail owner address b) := by
  obtain ⟨hapart, now, rfl⟩ := h
  rcases b.call_cases mail now op with hrun | hsame
  · refine ⟨op.deed mail owner address b, Op.standing_run hidem hkey hrun, fun hdeed => ?_⟩
    cases op with
    | setStatus scope id status fresh =>
      obtain ⟨result, hset, -⟩ := of_map_ok hrun
      obtain ⟨c, hlookup, howner, hcase⟩ := ContactRepo.setStatus_ok hset
      rw [Op.deed, if_congr (hkey.at_iff hidem hlookup howner) rfl rfl] at hdeed
      by_cases hof : c.Of owner (mail.emailHash address)
      · rw [if_pos hof] at hdeed
        by_cases hunsub : status = .unsubscribed
        · rw [if_pos hunsub] at hdeed
          cases hdeed
        · rw [if_neg hunsub] at hdeed
          have hsub : status = .subscribed := by
            rcases hcase with ⟨h, -⟩ | ⟨h, -⟩ | ⟨h, -⟩ | ⟨h, -⟩
            · exact absurd h hunsub
            · exact absurd h hunsub
            · exact h
            · exact h
          exact ⟨scope, id, fresh, c, by rw [hsub], Deed.resubscribe.inj hdeed, hlookup, hof.1,
            hkey.apart id c hlookup hof.2⟩
      · rw [if_neg hof] at hdeed
        cases hdeed
    | upsert scope new =>
      simp only [Op.deed] at hdeed
      split at hdeed <;> cases hdeed
    | delete scope id =>
      simp only [Op.deed] at hdeed
      split at hdeed <;> cases hdeed
    | addHash scope hash report fresh =>
      simp only [Op.deed] at hdeed
      split at hdeed <;> cases hdeed
    | remove scope id =>
      simp only [Op.deed] at hdeed
      split at hdeed <;> cases hdeed
  · exact ⟨.nothing, by rw [hsame, Standing.after], fun h => by cases h⟩

lemma CallStep.good (h : CallStep mail address b op b') (hb : b.Good mail owner address) :
    b'.Good mail owner address := by
  obtain ⟨d, hd, -⟩ := h.deed owner hidem hb.keyed
  refine ⟨?_, hd ▸ Standing.sound_after _ d hb.sound⟩
  obtain ⟨hapart, now, rfl⟩ := h
  rcases b.call_cases mail now op with hrun | hsame
  · exact Op.keyed_run hidem hapart hb.keyed hrun
  · rw [hsame]
    exact hb.keyed

lemma Book.Good.run (hb : b.Good mail owner address) (h : Run (CallStep mail address) b es b') :
    b'.Good mail owner address :=
  h.invariant (fun hstep hgood => CallStep.good hidem hstep hgood) hb

/-- An opt-out holds along a run in which the owner does not resubscribe the address. -/
lemma Book.Good.optedOut_run (hb : b.Good mail owner address)
    (hout : (b.standing mail owner address).OptedOut)
    (h : Run (fun s op t => CallStep mail address s op t ∧ ¬ op.Resubscribes mail owner address s)
      b es b') :
    b'.Good mail owner address ∧ (b'.standing mail owner address).OptedOut := by
  refine h.invariant (I := fun s => s.Good mail owner address ∧
    (s.standing mail owner address).OptedOut) ?_ ⟨hb, hout⟩
  rintro s op t ⟨hcall, hnot⟩ ⟨hgood, hs⟩
  obtain ⟨d, hd, hresub⟩ := hcall.deed owner hidem hgood.keyed
  refine ⟨hcall.good hidem hgood, ?_⟩
  rw [hd]
  exact Standing.optedOut_after _ d hgood.sound (fun hdeed => hnot (hresub hdeed)) hs

omit hidem in
lemma CallStep.entry_kept (h : CallStep mail address b op b') {id : SuppressionId}
    {e : Suppression} (he : b.suppressions.lookup id = some e) :
    e.KeptBy id b' ∨ (op.scope.isOwner = true ∧ e.reason.rank < 2) := by
  obtain ⟨-, now, rfl⟩ := h
  rcases b.call_cases mail now op with hrun | hsame
  · exact Op.entry_kept hrun he
  · rw [hsame]
    exact .inl (Suppression.keptBy_self he)

omit hidem in
/-- The address has a block exactly when it has an entry. -/
lemma Book.block_eq_none : (b.standing mail owner address).block = none ↔
    ∀ k e, b.suppressions.lookup k = some e → ¬ e.IsFor mail owner address := by
  constructor
  · intro hnone k e he hof
    simp [Book.standing, Book.blockOf, Book.entryFor_eq_some.2 ⟨he, hof⟩] at hnone
  · intro hno
    refine Option.map_eq_none_iff.mpr (Option.eq_none_iff_forall_ne_some.mpr ?_)
    rintro ⟨k, e⟩ he
    exact hno k e (Book.entryFor_eq_some.1 he).1 (Book.entryFor_eq_some.1 he).2

omit hidem in
lemma Book.Good.subscribed_iff (hb : b.Good mail owner address) {id : ContactId} {c : Contact}
    (hlookup : b.contacts.lookup id = some c) (hfor : c.IsFor mail owner address) :
    c.status = .subscribed ↔
      ∀ k e, b.suppressions.lookup k = some e → ¬ e.IsFor mail owner address := by
  have hcontact : (b.standing mail owner address).contact = some c.status := by
    simp [Book.standing, Book.contactAt_eq_some.2 ⟨hlookup, hfor⟩]
  rw [← Book.block_eq_none]
  exact ⟨fun hst => hb.sound.subscribed (hst ▸ hcontact),
    fun hnone => hb.sound.free hnone _ hcontact⟩

/-- The recipient's own opt-out keeps its entry, and its reason, along every run. -/
lemma Book.Good.refused_run (hb : b.Good mail owner address)
    (h : Run (CallStep mail address) b es b') {k : SuppressionId} {e : Suppression}
    (he : b.suppressions.lookup k = some e) (hfor : e.IsFor mail owner address)
    (hrank : e.reason.rank = 2) : ¬ b'.Mailable mail owner address ∧
      ∃ e', b'.suppressions.lookup k = some e' ∧ e'.IsFor mail owner address ∧
        e'.reason = e.reason := by
  have hkept : ∃ e', b'.suppressions.lookup k = some e' ∧ e'.IsFor mail owner address ∧
      e'.reason = e.reason := by
    refine h.invariant (I := fun s : Book => ∃ e', s.suppressions.lookup k = some e' ∧
      e'.IsFor mail owner address ∧ e'.reason = e.reason) ?_ ⟨e, he, hfor, rfl⟩
    rintro s op t hcall ⟨d, hd, hdfor, hdreason⟩
    rcases hcall.entry_kept hd with ⟨d', hd', howner, hhash, hreason⟩ | ⟨-, hlow⟩
    · exact ⟨d', hd', ⟨howner.trans hdfor.1, hhash.trans hdfor.2⟩,
        (hreason (hdreason ▸ hrank)).trans hdreason⟩
    · rw [hdreason] at hlow
      omega
  refine ⟨(hb.run hidem h).not_mailable fun hnone => ?_, hkept⟩
  obtain ⟨e', he', hfor', -⟩ := hkept
  exact Book.block_eq_none.1 hnone k e' he' hfor'

/-- Opting an address out opts it out. -/
lemma Book.Good.optedOut_setStatus (hb : b.Good mail owner address) {scope : OwnerScope}
    {id : ContactId} {fresh : SuppressionId} {now : Time} {c : Contact} {result : Contact × Book}
    (hlookup : b.contacts.lookup id = some c) (hfor : c.IsFor mail owner address)
    (h : ContactRepo.setStatus scope now b id .unsubscribed fresh = .ok result) :
    result.2.Good mail owner address ∧ (result.2.standing mail owner address).OptedOut := by
  have hrun : (Op.setStatus scope id .unsubscribed fresh).run mail now b = .ok result.2 := by
    rw [Op.run, h]
    rfl
  have hstanding : result.2.standing mail owner address = _ :=
    Book.standing_setStatus hidem hb.keyed h
  have hkeyed : result.2.Keyed mail address :=
    Op.keyed_run hidem (show Op.Apart mail address (.setStatus scope id .unsubscribed fresh) from
      trivial) hb.keyed hrun
  obtain ⟨c', hc', howner, hcase⟩ := ContactRepo.setStatus_ok h
  obtain rfl := Option.some.inj (hlookup.symm.trans hc')
  have hof : c.Of owner (mail.emailHash address) :=
    hb.keyed.of_contactAt hidem (Book.contactAt_eq_some.2 ⟨hlookup, hfor⟩)
  have hdeed : Op.deed mail owner address b (.setStatus scope id .unsubscribed fresh) =
      .optOut := by
    rw [Op.deed, if_pos ((hb.keyed.at_iff hidem hlookup howner).mpr hof), if_pos rfl]
  rw [hdeed] at hstanding
  refine ⟨⟨hkeyed, hstanding ▸ Standing.sound_after _ _ hb.sound⟩, ?_⟩
  rw [hstanding]
  refine Standing.optedOut_after_optOut _ hb.sound ?_
  have hcontact : (b.standing mail owner address).contact = some c.status := by
    simp [Book.standing, Book.contactAt_eq_some.2 ⟨hlookup, hfor⟩]
  rw [hcontact]
  rcases hcase with ⟨-, hst, -⟩ | ⟨-, hst, -⟩ | ⟨hne, -⟩ | ⟨hne, -⟩
  · exact .inr (congrArg some hst)
  · exact .inl (congrArg some hst)
  · cases hne
  · cases hne

omit hidem in
/-- Delegates remove no entry. -/
lemma Book.entry_kept_by_delegates (h : Run (CallStep mail address) b es b')
    (hdelegates : ∀ op ∈ es, op.scope.isOwner = false) {k : SuppressionId} {e : Suppression}
    (he : b.suppressions.lookup k = some e) (hfor : e.IsFor mail owner address) :
    ∃ e', b'.suppressions.lookup k = some e' ∧ e'.IsFor mail owner address := by
  induction h with
  | nil => exact ⟨e, he, hfor⟩
  | @snoc es s t op _ hcall ih =>
    obtain ⟨d, hd, hdfor⟩ := ih fun op hop => hdelegates op (List.mem_append_left _ hop)
    rcases hcall.entry_kept hd with ⟨d', hd', howner, hhash, -⟩ | ⟨howner, -⟩
    · exact ⟨d', hd', howner.trans hdfor.1, hhash.trans hdfor.2⟩
    · have := hdelegates op (by simp)
      rw [howner] at this
      cases this

end Runs

/-- **Opt-outs survive everything but the owner's own decision.**  In every run from the empty book,
the contacts of an address are subscribed exactly when it has no entry; the recipient's own opt-out
keeps its reason for ever; the owner's holds until the owner resubscribes the address; and delegates
remove no entry. -/
theorem optOuts_survive (mail : MailKeys)
    (hidem : ∀ raw, mail.normalizeEmail (mail.normalizeEmail raw) = mail.normalizeEmail raw)
    (owner : UserId) (address : String) {es : List Op} {b : Book}
    (hrun : Run (CallStep mail address) Book.empty es b) :
    (∀ id c, b.contacts.lookup id = some c → c.IsFor mail owner address →
      (c.status = .subscribed ↔
        ∀ k e, b.suppressions.lookup k = some e → ¬ e.IsFor mail owner address)) ∧
    (∀ k e, b.suppressions.lookup k = some e → e.IsFor mail owner address →
      e.reason = .unsubscribed ∨ e.reason = .complained →
      ∀ {es' b'}, Run (CallStep mail address) b es' b' → ¬ b'.Mailable mail owner address ∧
        ∃ e', b'.suppressions.lookup k = some e' ∧ e'.IsFor mail owner address ∧
          e'.reason = e.reason) ∧
    (∀ scope id fresh now c result, b.contacts.lookup id = some c → c.IsFor mail owner address →
      ContactRepo.setStatus scope now b id .unsubscribed fresh = .ok result →
      ∀ {es' b'}, Run (fun s op t => CallStep mail address s op t ∧
        ¬ op.Resubscribes mail owner address s) result.2 es' b' →
        ¬ b'.Mailable mail owner address) ∧
    (∀ {es' b'}, Run (CallStep mail address) b es' b' → (∀ op ∈ es', op.scope.isOwner = false) →
      ∀ k e, b.suppressions.lookup k = some e → e.IsFor mail owner address →
        ∃ e', b'.suppressions.lookup k = some e' ∧ e'.IsFor mail owner address) := by
  have hgood : b.Good mail owner address := Book.good_empty.run hidem hrun
  refine ⟨fun id c hlookup hfor => hgood.subscribed_iff hlookup hfor, ?_, ?_,
    fun hafter hdelegates k e he hfor => Book.entry_kept_by_delegates hafter hdelegates he hfor⟩
  · intro k e he hfor hreason es' b' hafter
    refine hgood.refused_run hidem hafter he hfor ?_
    rcases hreason with hreason | hreason <;> rw [hreason] <;> rfl
  · intro scope id fresh now c result hlookup hfor hset es' b' hafter
    obtain ⟨hgood', hout⟩ := hgood.optedOut_setStatus hidem hlookup hfor hset
    obtain ⟨hend, block, hblock, -⟩ := hgood'.optedOut_run hidem hout hafter
    exact hend.not_mailable (by simp [hblock])

/-- The keys as they are for an address that is written as it is compared: it normalizes to itself,
and its hash is HMAC-SHA256's under the key `suppression-key`. -/
def sampleKeys : MailKeys where
  trim := id
  toLowercase := id
  hmac s := if s = "bob@example.com" then
      84035179415242115877915999903445973899640721118379531252892106905444853357278
    else 0

/-- The owner adds an address. -/
def sampleBook : Book :=
  Book.empty.call sampleKeys 0 (.upsert (.own 1) { id := 10, email := "bob@example.com" })

/-- A delegate unsubscribes it. -/
def sampleOptOut : Book :=
  sampleBook.call sampleKeys 0 (.setStatus ⟨2, 1, .delegated .edit none⟩ 10 .unsubscribed 20)

/-- A bounce, its removal by the owner, a deletion and an import later, it is still not emailed. -/
theorem optOuts_survive_reimport :
    ¬ ((((sampleOptOut.call sampleKeys 1 (.addHash (.own 1)
        (sampleKeys.emailHash "bob@example.com") .bounced 21)).call sampleKeys 2
        (.remove (.own 1) 20)).call sampleKeys 3 (.delete (.own 1) 10)).call sampleKeys 4
        (.upsert ⟨2, 1, .delegated .edit none⟩ { id := 11, email := "bob@example.com" })).Mailable
      sampleKeys 1 "bob@example.com" := by
  have hrun : Run (CallStep sampleKeys "bob@example.com") Book.empty
      [.upsert (.own 1) { id := 10, email := "bob@example.com" }] sampleBook :=
    .single ⟨fun _ => rfl, 0, rfl⟩
  obtain ⟨-, -, hout, -⟩ := optOuts_survive sampleKeys (fun _ => rfl) 1 "bob@example.com" hrun
  obtain ⟨c, result, hlookup, hfor, hset, heq⟩ : ∃ c result,
      sampleBook.contacts.lookup 10 = some c ∧ c.IsFor sampleKeys 1 "bob@example.com" ∧
      ContactRepo.setStatus ⟨2, 1, .delegated .edit none⟩ 0 sampleBook 10 .unsubscribed 20 =
        .ok result ∧ sampleOptOut = result.2 :=
    ⟨_, _, rfl, ⟨rfl, rfl⟩, rfl, rfl⟩
  have hstep : ∀ (b : Book) (now : Time) (op : Op), op.Apart sampleKeys "bob@example.com" →
      (∀ scope id fresh, op = .setStatus scope id .subscribed fresh → False) →
      CallStep sampleKeys "bob@example.com" b op (b.call sampleKeys now op) ∧
        ¬ op.Resubscribes sampleKeys 1 "bob@example.com" b := by
    refine fun b now op hapart hne => ⟨⟨hapart, now, rfl⟩, ?_⟩
    rintro ⟨scope, id, fresh, c, hop, -⟩
    exact hne scope id fresh hop
  rw [heq]
  exact hout _ _ _ _ c result hlookup hfor hset
    ((((Run.nil.snoc (hstep _ 1 (.addHash _ _ _ _) trivial nofun)).snoc
      (hstep _ 2 (.remove _ _) trivial nofun)).snoc
      (hstep _ 3 (.delete _ _) trivial nofun)).snoc
      (hstep _ 4 (.upsert _ { id := 11, email := "bob@example.com" }) (fun _ => rfl) nofun))

end Postit.Contacts
