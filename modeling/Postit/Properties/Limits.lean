import Mathlib.Data.Set.Function
import Postit.Contacts.Create
import Postit.Framework.Totals
import Postit.Framework.Trace
import Postit.Properties.OptOuts
import Postit.Properties.StorageLimits

/-!
# The storage quota and the contacts cap

What an owner has stored stays under the quota, and the contacts under the cap, whatever the order
of the calls.  The contacts are counted once in a chunk, and the count kept along its rows; a row is
held against it only when its address is new, as a contact added by hand is.

The addresses in use are assumed to have different hashes.
-/

namespace Postit.Contacts

open Postit.Data Postit.Framework

/-! ## Addresses -/

section Addresses

variable {mail : MailKeys} {scope : OwnerScope} {owner : UserId} {now : Time} {book book' : Book}
  {new : NewContact} {result : ContactUpsert} {A : Set String} {email : String}

/-- The owner has a contact for the address. -/
def Book.Has (b : Book) (owner : UserId) (email : String) : Prop :=
  ∃ id c, b.contactAt owner email = some (id, c)

/-- Each contact is for an address of the set, and stores its hash. -/
def Book.Addressed (mail : MailKeys) (A : Set String) (b : Book) : Prop :=
  ∀ id c, b.contacts.lookup id = some c → c.email ∈ A ∧ c.emailHash = mail.emailHash c.email

lemma Book.Addressed.mono {A' : Set String} (h : book.Addressed mail A) (hsub : A ⊆ A') :
    book.Addressed mail A' :=
  fun id c hc => ⟨hsub (h id c hc).1, (h id c hc).2⟩

lemma Book.Addressed.upsert (h : book.Addressed mail A)
    (hupsert : ContactRepo.upsert mail scope now book new = .ok (result, book'))
    (hnew : mail.normalizeEmail new.email ∈ A) : book'.Addressed mail A := by
  intro id c' hc'
  have hrun : (Op.upsert scope new).run mail now book = .ok book' := by rw [Op.run, hupsert]; rfl
  rcases Op.contact_came hrun hc' with ⟨c, hc, hemail, hhash⟩ | ⟨_, _, ⟨⟩, hemail, hhash⟩
  · rw [hemail, hhash]
    exact h id c hc
  · rw [hemail, hhash]
    exact ⟨hnew, rfl⟩

/-- A contact is found by the hash of its address. -/
lemma Book.Addressed.exists? (h : book.Addressed mail A) (hhas : book.Has owner email) :
    ContactRepo.exists? book owner (mail.emailHash email) = true := by
  obtain ⟨id, c, hat⟩ := hhas
  obtain ⟨hlookup, howner, rfl⟩ := Book.contactAt_eq_some.1 hat
  exact Table.exists?_eq_true.mpr
    ⟨id, c, hlookup, decide_eq_true ⟨howner, (h id c hlookup).2⟩⟩

/-- What is found by the hash of an address is its contact. -/
lemma Book.Addressed.has (h : book.Addressed mail A) (hinj : Set.InjOn mail.emailHash A)
    (hemail : email ∈ A)
    (hexists : ContactRepo.exists? book owner (mail.emailHash email) = true) :
    book.Has owner email := by
  obtain ⟨id, c, hlookup, hof⟩ := Table.exists?_eq_true.mp hexists
  obtain ⟨howner, hhash⟩ := of_decide_eq_true hof
  obtain ⟨hc, hstored⟩ := h id c hlookup
  exact ⟨id, c, Book.contactAt_eq_some.2
    ⟨hlookup, howner, hinj hc hemail (hstored.symm.trans hhash)⟩⟩

end Addresses

/-! ## What an upsert adds -/

section Counts

variable {mail : MailKeys} {scope : OwnerScope} {owner : UserId} {now : Time} {book book' : Book}
  {new : NewContact} {result : ContactUpsert} {email : String}

/-- One for a contact of the owner. -/
def Contact.counts (owner : UserId) (c : Contact) : ℕ := if c.ownerId = owner then 1 else 0

lemma ContactRepo.count_eq_total (book : Book) (owner : UserId) :
    ContactRepo.count book owner = book.contacts.rows.total (Contact.counts owner) := by
  rw [ContactRepo.count, Table.length_select book.contacts.rows fun c => decide (c.ownerId = owner)]
  simp only [decide_eq_true_eq]
  rfl

/-- **An upsert** adds one contact of the owner, when there is none for the address. -/
lemma ContactRepo.count_upsert
    (h : ContactRepo.upsert mail scope now book new = .ok (result, book')) :
    (book.Has scope.owner (mail.normalizeEmail new.email) ∧ (∃ id c, result = .updated id c) ∧
      ∀ owner, ContactRepo.count book' owner = ContactRepo.count book owner) ∨
    (¬ book.Has scope.owner (mail.normalizeEmail new.email) ∧ (∃ id c, result = .created id c) ∧
      ∀ owner, ContactRepo.count book' owner =
        ContactRepo.count book owner + if scope.owner = owner then 1 else 0) := by
  obtain ⟨-, h⟩ := required_bind_ok h
  cases hfound : book.contacts.byIndex (scope.owner, mail.normalizeEmail new.email) with
  | some found =>
    obtain ⟨id, c⟩ := found
    simp only [hfound, pure, Except.pure, Except.ok.injEq, Prod.mk.injEq] at h
    obtain ⟨rfl, rfl⟩ := h
    refine .inl ⟨⟨id, c, hfound⟩, ⟨id, _, rfl⟩, fun owner => ?_⟩
    rw [count_eq_total, count_eq_total]
    exact Table.total_updateWhere fun _ => rfl
  | none =>
    simp only [hfound] at h
    split at h
    next contacts hinsert =>
      simp only [pure, Except.pure, Except.ok.injEq, Prod.mk.injEq] at h
      obtain ⟨rfl, rfl⟩ := h
      refine .inr ⟨?_, ⟨new.id, _, rfl⟩, fun owner => ?_⟩
      · rintro ⟨id, c, hat⟩
        rw [Book.contactAt, hfound] at hat
        cases hat
      · rw [count_eq_total, count_eq_total, IndexedTable.rows_of_insert?_eq_some hinsert]
        exact Table.total_insert_of_none (IndexedTable.of_insert?_eq_some hinsert).1
    next => cases h

/-- An upsert takes no contact away. -/
lemma Book.Has.upsert (h : book.Has owner email)
    (hupsert : ContactRepo.upsert mail scope now book new = .ok (result, book')) :
    book'.Has owner email := by
  obtain ⟨id, c, hat⟩ := h
  obtain ⟨hlookup, howner, hemail⟩ := Book.contactAt_eq_some.1 hat
  rcases ContactRepo.upsert_ok hupsert with ⟨k, d, -, heq⟩ | ⟨row, contacts, hinsert, heq, -⟩
  · dsimp only at heq
    refine ⟨id, if decide (id = k) then c.takeDetails scope now new else c, ?_⟩
    rw [heq, Book.contactAt_eq_some, IndexedTable.lookup_updateWhere, hlookup]
    refine ⟨rfl, ?_⟩
    split_ifs <;> exact ⟨howner, hemail⟩
  · obtain ⟨hfree, -, hlookup'⟩ := IndexedTable.of_insert?_eq_some hinsert
    have hne : id ≠ new.id := by
      rintro rfl
      rw [hfree] at hlookup
      cases hlookup
    dsimp only at heq
    refine ⟨id, c, ?_⟩
    rw [heq, Book.contactAt_eq_some]
    exact ⟨(hlookup' id).trans ((if_neg hne).trans hlookup), howner, hemail⟩

end Counts

/-! ## A chunk -/

section Chunks

variable {mail : MailKeys} {scope : OwnerScope} {now : Time} {book book' : Book}
  {fresh : ℕ → ContactId} {rows : List StagedRow} {row : StagedRow} {a b : Applied}
  {A : Set String} {caps base : UserId → ℕ} {cap : ℕ} {email : String} {owner : UserId}

/-- A row is held against the cap, or upserted. -/
lemma applyRow_cases (h : applyRow mail scope now cap fresh a row = .ok b) :
    (b = { a with rejects := a.rejects ++ [⟨row.rowNo, "contact_limit_exceeded"⟩] } ∧
        0 < cap ∧ cap ≤ a.count ∧
        ContactRepo.exists? a.book scope.owner (mail.emailHash row.data.email) = false) ∨
      ∃ new result, new.email = row.data.email ∧
        ContactRepo.upsert mail scope now a.book new = .ok (result, b.book) ∧
        b.rejects = a.rejects ∧
        ¬ (0 < cap ∧ cap ≤ a.count ∧
          ContactRepo.exists? a.book scope.owner (mail.emailHash row.data.email) = false) ∧
        ((∃ id c, result = .created id c) → b.count = a.count + 1) ∧
        ((∃ id c, result = .updated id c) → b.count = a.count) := by
  unfold applyRow at h
  split at h
  next hfull =>
    obtain rfl := Except.ok.inj h
    exact .inl ⟨rfl, hfull⟩
  next hroom =>
    obtain ⟨⟨result, after⟩, hupsert, h⟩ := bind_eq_ok h
    cases result with
    | created id c =>
      obtain rfl := Except.ok.inj h
      refine .inr ⟨_, _, ?_, hupsert, rfl, hroom, fun _ => rfl, fun ⟨_, _, hu⟩ => nomatch hu⟩
      rfl
    | updated id c =>
      obtain rfl := Except.ok.inj h
      refine .inr ⟨_, _, ?_, hupsert, rfl, hroom, (fun ⟨_, _, hc⟩ => nomatch hc), fun _ => rfl⟩
      rfl

/-- The contacts of every owner that has a cap are under it, or no more than there were. -/
def Book.UnderCaps (caps base : UserId → ℕ) (b : Book) : Prop :=
  ∀ owner, 0 < caps owner → ContactRepo.count b owner ≤ max (caps owner) (base owner)

variable (hidem : ∀ raw, mail.normalizeEmail (mail.normalizeEmail raw) = mail.normalizeEmail raw)

include hidem in
lemma emailHash_normalizeEmail (raw : String) :
    mail.emailHash (mail.normalizeEmail raw) = mail.emailHash raw := by
  rw [MailKeys.emailHash, hidem, MailKeys.emailHash]

/-- An upsert that was held against the cap keeps the contacts under it. -/
lemma Book.UnderCaps.upsert {new : NewContact} {result : ContactUpsert}
    (h : book.UnderCaps caps base)
    (hupsert : ContactRepo.upsert mail scope now book new = .ok (result, book'))
    (hroom : 0 < caps scope.owner → caps scope.owner ≤ ContactRepo.count book scope.owner →
      book.Has scope.owner (mail.normalizeEmail new.email)) : book'.UnderCaps caps base := by
  intro owner hcap
  have hle := h owner hcap
  rcases ContactRepo.count_upsert hupsert with ⟨-, -, hcount⟩ | ⟨hnew, -, hcount⟩
  · rw [hcount]
    exact hle
  · rw [hcount]
    split_ifs with howner
    · subst howner
      have hbelow : ContactRepo.count book scope.owner < caps scope.owner :=
        lt_of_not_ge fun hfull => hnew (hroom hcap hfull)
      omega
    · exact hle

/-- The loop of a chunk: its count is the book's, and the contacts are under the caps. -/
structure Applied.Sound (mail : MailKeys) (owner : UserId) (A : Set String)
    (caps base : UserId → ℕ) (a : Applied) : Prop where
  addressed : a.book.Addressed mail A
  count : a.count = ContactRepo.count a.book owner
  under : a.book.UnderCaps caps base

include hidem in
/-- **One row** of a chunk. -/
lemma Applied.Sound.step (h : a.Sound mail scope.owner A caps base)
    (hinj : Set.InjOn mail.emailHash A) (hrow : mail.normalizeEmail row.data.email ∈ A)
    (hstep : applyRow mail scope now (caps scope.owner) fresh a row = .ok b) :
    b.Sound mail scope.owner A caps base := by
  rcases applyRow_cases hstep with ⟨rfl, -⟩ |
    ⟨new, result, hemail, hupsert, -, hroom, hcreated, hupdated⟩
  · exact ⟨h.addressed, h.count, h.under⟩
  · rw [← hemail] at hrow hroom
    refine ⟨h.addressed.upsert hupsert hrow, ?_, h.under.upsert hupsert ?_⟩
    · rcases ContactRepo.count_upsert hupsert with ⟨-, hu, hcount⟩ | ⟨-, hc, hcount⟩
      · rw [hupdated hu, hcount, h.count]
      · rw [hcreated hc, hcount, if_pos rfl, h.count]
    · intro hcap hfull
      refine h.addressed.has hinj hrow ?_
      rw [emailHash_normalizeEmail hidem]
      exact Bool.of_not_eq_false fun hnone => hroom ⟨hcap, h.count ▸ hfull, hnone⟩

include hidem in
lemma Applied.Sound.run (h : a.Sound mail scope.owner A caps base)
    (hinj : Set.InjOn mail.emailHash A)
    (hrows : ∀ row ∈ rows, mail.normalizeEmail row.data.email ∈ A)
    (hfold : rows.foldlM (applyRow mail scope now (caps scope.owner) fresh) a = .ok b) :
    b.Sound mail scope.owner A caps base := by
  induction rows generalizing a with
  | nil =>
    obtain rfl := Except.ok.inj hfold
    exact h
  | cons row rows ih =>
    rw [List.foldlM_cons] at hfold
    obtain ⟨c, hrow, hfold⟩ := bind_eq_ok hfold
    exact ih (h.step hidem hinj (hrows row List.mem_cons_self) hrow)
      (fun r hr => hrows r (List.mem_cons_of_mem _ hr)) hfold

/-- The rows of a chunk keep the hashes, and take no contact away. -/
lemma applyRows_keep (h : a.book.Addressed mail Set.univ)
    (hfold : rows.foldlM (applyRow mail scope now cap fresh) a = .ok b) :
    b.book.Addressed mail Set.univ ∧
      ∀ owner email, a.book.Has owner email → b.book.Has owner email := by
  induction rows generalizing a with
  | nil =>
    obtain rfl := Except.ok.inj hfold
    exact ⟨h, fun _ _ hhas => hhas⟩
  | cons row rows ih =>
    rw [List.foldlM_cons] at hfold
    obtain ⟨c, hrow, hfold⟩ := bind_eq_ok hfold
    rcases applyRow_cases hrow with ⟨rfl, -⟩ | ⟨new, result, -, hupsert, -⟩
    · obtain ⟨hb, hkeep⟩ := ih (by exact h) hfold
      exact ⟨hb, hkeep⟩
    · obtain ⟨hb, hkeep⟩ := ih (h.upsert hupsert trivial) hfold
      exact ⟨hb, fun owner email hhas => hkeep owner email (hhas.upsert hupsert)⟩

include hidem in
/-- **A row** whose address is in the book when it is reached is not refused. -/
lemma applyRows_not_refused {i : ℕ} {mid : Applied} (hbook : a.book.Addressed mail Set.univ)
    (hempty : a.rejects = []) (hnodup : (rows.map StagedRow.rowNo).Nodup)
    (hfold : rows.foldlM (applyRow mail scope now cap fresh) a = .ok b)
    (hrow : rows[i]? = some row)
    (hmid : (rows.take i).foldlM (applyRow mail scope now cap fresh) a = .ok mid)
    (hhas : mid.book.Has scope.owner (mail.normalizeEmail row.data.email)) :
    row.rowNo ∉ b.rejects.map ImportRejection.rowNo := by
  obtain ⟨hi, hget⟩ := List.getElem?_eq_some_iff.mp hrow
  have hsplit : rows = rows.take i ++ row :: rows.drop (i + 1) := by
    rw [← hget, List.getElem_cons_drop, List.take_append_drop]
  rw [hsplit, List.foldlM_append] at hfold
  obtain ⟨mid', hmid', hfold⟩ := bind_eq_ok hfold
  obtain rfl : mid = mid' := Except.ok.inj (hmid.symm.trans hmid')
  rw [List.foldlM_cons] at hfold
  obtain ⟨next, hstep, hfold⟩ := bind_eq_ok hfold
  -- the row is upserted, so the refused are of the rows before it and of those after it
  have hsame : next.rejects = mid.rejects := by
    rcases applyRow_cases hstep with ⟨-, -, -, hnone⟩ | ⟨_, _, -, -, hsame, -⟩
    · have hexists := (applyRows_keep hbook hmid).1.exists? hhas
      rw [emailHash_normalizeEmail hidem, hnone] at hexists
      cases hexists
    · exact hsame
  obtain ⟨-, early, hearly, hbefore⟩ := applyRows_ok hmid
  obtain ⟨-, late, hlate, hafter⟩ := applyRows_ok hfold
  rw [hempty, List.nil_append] at hearly
  rw [hsplit, List.map_append, List.map_cons, List.nodup_append] at hnodup
  obtain ⟨-, hrest, hapart⟩ := hnodup
  rw [hlate, hsame, hearly, List.map_append, List.mem_append]
  rintro (hin | hin)
  · exact hapart _ (hbefore.subset hin) _ List.mem_cons_self rfl
  · exact (List.nodup_cons.mp hrest).1 (hafter.subset hin)

end Chunks

/-! ## Runs -/

/-- What adds contacts, by owner. -/
inductive BookEvent
  | create (scope : OwnerScope) (input : NewContactInput)
  | chunk (owner : UserId) (rows : List StagedRow)

/-- The addresses of the contacts it adds or changes. -/
def BookEvent.addresses (mail : MailKeys) : BookEvent → List String
  | .create _ input => [mail.normalizeEmail input.email]
  | .chunk _ rows => rows.map fun row => mail.normalizeEmail row.data.email

/-- One call that succeeds, under the owner's contacts lock.  An import's rows, lists and locks may
be any. -/
inductive BookStep (keys : CellKeys) (caps : UserId → ℕ) : Book → BookEvent → Book → Prop
  | create {b b' : Book} {scope : OwnerScope} {clock now : Time} {fresh : ContactId}
      {input : NewContactInput} {contact : ContactId × Contact}
      (h : ContactService.create keys scope clock now (caps scope.owner) fresh b input =
        .ok (contact, b')) :
    BookStep keys caps b (.create scope input) b'
  | chunk {b : Book} {owner : UserId} {now : Time} {fresh : ℕ → ContactId} {db db' : ImportDb}
      {lists : Table ContactListId ContactList} {locked : List ℕ} {owned : Owned} {a : Applied}
      (h : applyChunk keys.toMailKeys (.own owner) now fresh ⟨b, lists, caps owner⟩ db
        (ContactImportRepo.takeChunk db locked chunk) = .ok (db', owned, a)) :
    BookStep keys caps b (.chunk owner (ContactImportRepo.takeChunk db locked chunk)) owned.book

section Runs

variable {keys : CellKeys} {scope : OwnerScope} {owner : UserId} {now : Time} {b b' : Book}
  {e : BookEvent} {A : Set String} {caps base : UserId → ℕ} {fresh : ℕ → ContactId}
  {db db' : ImportDb} {lists : Table ContactListId ContactList} {owned owned' : Owned}
  {rows : List StagedRow} {a : Applied}

lemma Owned.join_ok {list : Option ContactListId} {members : List ContactId}
    (h : Owned.join scope owned list members = .ok owned') : owned'.book = owned.book := by
  unfold Owned.join at h
  split at h
  next list =>
    split_ifs at h
    · rw [Except.ok.inj h]
    · split at h
      next => rw [Except.ok.inj h]
      next =>
        obtain ⟨-, h⟩ := required_bind_ok h
        split at h
        next l hl =>
          split_ifs at h
          · cases h
          · rw [← Except.ok.inj h]
        next => cases h
  next => rw [Except.ok.inj h]

/-- The rows of a chunk, as a loop over the book. -/
lemma applyChunk_rows (h : applyChunk keys.toMailKeys scope now fresh owned db rows =
    .ok (db', owned', a)) :
    rows.foldlM (applyRow keys.toMailKeys scope now owned.cap fresh)
        { book := owned.book, count := ContactRepo.count owned.book scope.owner } = .ok a ∧
      owned'.book = a.book := by
  obtain ⟨r, -, h⟩ := bind_eq_ok h
  obtain ⟨a', hrows, h⟩ := bind_eq_ok h
  obtain ⟨joined, hjoin, h⟩ := bind_eq_ok h
  obtain ⟨db'', -, h⟩ := bind_eq_ok h
  cases h
  exact ⟨hrows, Owned.join_ok hjoin⟩

/-- What a run keeps. -/
structure Book.Capped (mail : MailKeys) (A : Set String) (caps base : UserId → ℕ) (b : Book) :
    Prop where
  addressed : b.Addressed mail A
  under : b.UnderCaps caps base

/-- **One call**, for addresses with different hashes. -/
lemma Book.Capped.step (hidem : ∀ raw, keys.normalizeEmail (keys.normalizeEmail raw) =
      keys.normalizeEmail raw) (hinj : Set.InjOn keys.emailHash A)
    (h : b.Capped keys.toMailKeys A caps base) (hstep : BookStep keys caps b e b')
    (haddresses : ∀ x ∈ e.addresses keys.toMailKeys, x ∈ A) :
    b'.Capped keys.toMailKeys A caps base := by
  cases hstep with
  | create hcreate =>
    obtain ⟨new, result, hemail, hroom, hupsert⟩ := ContactService.create_ok hcreate
    have hnormal : keys.normalizeEmail new.email = new.email := by rw [hemail, hidem]
    have hin : new.email ∈ A := by
      rw [hemail]
      exact haddresses _ (List.mem_singleton.mpr rfl)
    refine ⟨h.addressed.upsert hupsert (by rwa [hnormal]), h.under.upsert hupsert ?_⟩
    intro hcap hfull
    rw [hnormal]
    exact h.addressed.has hinj hin (hroom hcap hfull)
  | @chunk owner now fresh db db' lists locked owned a hchunk =>
    obtain ⟨hrows, hbook⟩ := applyChunk_rows hchunk
    have hsound : Applied.Sound keys.toMailKeys owner A caps base
        { book := b, count := ContactRepo.count b owner } := ⟨h.addressed, rfl, h.under⟩
    have hafter : Applied.Sound keys.toMailKeys owner A caps base a :=
      Applied.Sound.run hidem hsound hinj
        (fun row hrow => haddresses _ (List.mem_map_of_mem hrow)) hrows
    rw [hbook]
    exact ⟨hafter.addressed, hafter.under⟩

/-- A book that came about by calls stores the hash of each address. -/
lemma Book.addressed_of_run {ops : List Op}
    (h : Run (fun b op b' => ∃ now, b' = b.call keys.toMailKeys now op) Book.empty ops b) :
    b.Addressed keys.toMailKeys Set.univ := by
  have hempty : Book.empty.Addressed keys.toMailKeys Set.univ := by
    intro id c hc
    exact absurd hc (Book.lookup_empty_ne_some id c)
  refine h.invariant (I := Book.Addressed keys.toMailKeys Set.univ) ?_ hempty
  rintro b op b' ⟨now, rfl⟩ hb
  rcases b.call_cases keys.toMailKeys now op with hrun | hsame
  · intro id c' hc'
    rcases Op.contact_came hrun hc' with ⟨c, hc, hemail, hhash⟩ | ⟨scope, new, -, hemail, hhash⟩
    · rw [hemail, hhash]
      exact ⟨trivial, (hb id c hc).2⟩
    · rw [hemail, hhash]
      exact ⟨trivial, rfl⟩
  · rw [hsame]
    exact hb

/-- A contact whose address is in the book is not refused for the cap. -/
lemma Book.Addressed.create_ne_limit (h : b.Addressed keys.toMailKeys A) {clock : Time}
    {fresh : ContactId} {cap : ℕ} {input : NewContactInput}
    (hhas : b.Has scope.owner (keys.normalizeEmail input.email)) :
    ContactService.create keys scope clock now cap fresh b input ≠ .error .limit := by
  intro hlimit
  have hexists := h.exists? hhas
  rw [ContactService.create_eq_limit hlimit] at hexists
  cases hexists

end Runs

end Postit.Contacts

namespace Postit

open Postit.Data Postit.Framework Postit.Contacts Postit.Uploads

/-- **The limits hold.**  An owner's stored bytes stay under the quota, along every run in which no
reservation takes a quota of all 64 bits past them, and each asset counts for at most what it
declared; the contacts stay under the cap, and none whose address is in the book is refused. -/
theorem limits_hold {δ : Type} {sha256 : Bytes → δ} {settings : MediaSettings} {q : ℕ}
    {s t : Library δ} {before after : List LibraryEvent}
    (hs : Run (Library.Step sha256 settings) {} before s) (hq : 0 < q)
    (hpending : ∀ r, s.reserving = some r → r.quota = q)
    (ht : Run (Library.StepUnder sha256 settings q) s after t)
    {keys : CellKeys} {caps : UserId → ℕ} {A : Set String} {ops : List Op} {b b' : Book}
    {calls : List BookEvent}
    (hidem : ∀ raw, keys.normalizeEmail (keys.normalizeEmail raw) = keys.normalizeEmail raw)
    (hinj : Set.InjOn keys.emailHash A)
    (hb : Run (fun b op b' => ∃ now, b' = b.call keys.toMailKeys now op) Book.empty ops b)
    (hA : ∀ id c, b.contacts.lookup id = some c → c.email ∈ A)
    (hb' : Run (fun b e b' => BookStep keys caps b e b' ∧
      ∀ x ∈ e.addresses keys.toMailKeys, x ∈ A) b calls b') :
    (t.storedBytes ≤ max q s.storedBytes ∧
      ∀ id asset m, t.assets.lookup id = some asset → asset.row = some m →
        ∃ d, m.declaredBytes = some d ∧ m.storedBytes ≤ d) ∧
    (∀ owner, 0 < caps owner →
      ContactRepo.count b' owner ≤ max (caps owner) (ContactRepo.count b owner)) ∧
    (∀ scope clock now fresh input, b'.Has scope.owner (keys.normalizeEmail input.email) →
      ContactService.create keys scope clock now (caps scope.owner) fresh b' input ≠
        .error .limit) ∧
    ∀ owner now fresh lists db db' owned a locked i row mid,
      let rows := ContactImportRepo.takeChunk db locked chunk
      applyChunk keys.toMailKeys (.own owner) now fresh ⟨b', lists, caps owner⟩ db rows =
        .ok (db', owned, a) →
      rows[i]? = some row →
      (rows.take i).foldlM (applyRow keys.toMailKeys (.own owner) now (caps owner) fresh)
        { book := b', count := ContactRepo.count b' owner } = .ok mid →
      b'.Has owner (keys.normalizeEmail row.data.email) ∨
        mid.book.Has owner (keys.normalizeEmail row.data.email) →
      row.rowNo ∉ a.rejects.map ImportRejection.rowNo := by
  have hbounded := ht.invariant (I := Library.Bounded q s.storedBytes)
    (fun hstep hbounded => hbounded.step hq hstep)
    ⟨Library.sound_of_run hs, hpending, le_max_right _ _⟩
  have hhashed := Book.addressed_of_run hb
  have hcapped := hb'.invariant
    (I := Book.Capped keys.toMailKeys A caps (ContactRepo.count b))
    (fun hstep hcapped => hcapped.step hidem hinj hstep.1 hstep.2)
    ⟨fun id c hc => ⟨hA id c hc, (hhashed id c hc).2⟩, fun _ _ => le_max_right _ _⟩
  have huniv := hcapped.addressed.mono (Set.subset_univ A)
  refine ⟨⟨hbounded.le, ?_⟩, hcapped.under, ?_, ?_⟩
  · intro id asset m hasset hrow
    obtain ⟨d, hd⟩ := hbounded.sound.within id asset hasset
    exact ⟨d, (hd.row m hrow).declared, (hd.row m hrow).storedBytes_le⟩
  · intro scope clock now fresh input hhas
    exact huniv.create_ne_limit hhas
  · intro owner now fresh lists db db' owned a locked i row mid rows happly hrow hmid hhas
    obtain ⟨hfold, -⟩ := applyChunk_rows happly
    refine applyRows_not_refused hidem huniv rfl (nodup_takeChunk db locked chunk) hfold hrow hmid
      (hhas.elim (fun hstart => ?_) id)
    exact (applyRows_keep huniv hmid).2 _ _ hstart

/-- Settings that leave a video as large as it may be. -/
def largeVideos : MediaSettings where
  imageMaxBytes := 1000
  videoMaxBytes := maxBigint
  singleRequestMax := 1000
  chunkMax := 1000
  uploadSessionTtl := 1000

/-- A session that takes the lock and opens. -/
def reserving (id : MediaAssetId) (size quota used : ℕ) : List LibraryEvent :=
  [.lock quota, .reserve id (.startSession (.ok .video) size quota used 0)]

/-- The asset it opens. -/
def opened (settings : MediaSettings) (size quota used : ℕ) : Asset ℕ :=
  match Asset.perform (fun _ => 0) settings {} (.startSession (.ok .video) size quota used 0) with
  | .ok s => s
  | .error _ => {}

lemma perform_startSession {settings : MediaSettings} {size quota used : ℕ}
    (h : (Asset.perform (fun _ => 0) settings ({} : Asset ℕ)
      (.startSession (.ok .video) size quota used 0)).toOption.isSome = true) :
    Asset.perform (fun _ => 0) settings {} (.startSession (.ok .video) size quota used 0) =
      .ok (opened settings size quota used) := by
  unfold opened
  cases hresult : Asset.perform (fun _ => 0) settings ({} : Asset ℕ)
      (.startSession (.ok .video) size quota used 0) with
  | ok s => rfl
  | error e =>
    rw [hresult] at h
    cases h

lemma run_reserving {settings : MediaSettings} {s : Library ℕ} {id : MediaAssetId}
    {size quota used : ℕ} {P : LibraryEvent → Prop} (hP : ∀ e ∈ reserving id size quota used, P e)
    (hfree : s.reserving = none) (hused : s.storedBytes = used)
    (hsum : used ≤ maxBigint) (hnew : s.assets.lookup id = none)
    (h : (Asset.perform (fun _ => 0) settings ({} : Asset ℕ)
      (.startSession (.ok .video) size quota used 0)).toOption.isSome = true) :
    Run (fun s e t => Library.Step (fun _ => 0) settings s e t ∧ P e) s
      (reserving id size quota used)
      { assets := s.assets.insert id (opened settings size quota used) } := by
  subst hused
  have hlock : s.Step (fun _ => 0) settings (.lock quota)
      { s with reserving := some ⟨quota, s.storedBytes⟩ } := .lock hfree fun _ => hsum
  have hopen : Library.Step (fun _ => 0) settings
      { s with reserving := some ⟨quota, s.storedBytes⟩ }
      (.reserve id (.startSession (.ok .video) size quota s.storedBytes 0))
      { assets := s.assets.insert id (opened settings size quota s.storedBytes) } :=
    .reserve (r := ⟨quota, s.storedBytes⟩) rfl hnew rfl (perform_startSession h)
  exact (Run.single ⟨hlock, hP _ List.mem_cons_self⟩).snoc
    ⟨hopen, hP _ (List.mem_cons_of_mem _ List.mem_cons_self)⟩

/-- Two uploads under a quota that has room for both. -/
def twoUploads : List LibraryEvent := reserving 0 30 100 0 ++ reserving 1 40 100 30

lemma opens_first : (Asset.perform (fun _ => 0) largeVideos ({} : Asset ℕ)
    (.startSession (.ok .video) 30 100 0 0)).toOption.isSome = true := by
  decide

lemma opens_second : (Asset.perform (fun _ => 0) largeVideos ({} : Asset ℕ)
    (.startSession (.ok .video) 40 100 30 0)).toOption.isSome = true := by
  decide

lemma stored_first : Library.storedBytes
    { assets := AList.insert 0 (opened largeVideos 30 100 0) ({} : Library ℕ).assets } = 30 := by
  decide

def sampleContactKeys : CellKeys where
  trim raw := raw
  toLowercase raw := raw
  hmac raw := raw.length
  isAddress raw := raw.toList.contains '@'
  parseRfc3339 _ := none
  parseDate _ := none

def sampleInput : NewContactInput := { email := "ada@ex.org", consentSource := "form" }

def oneEach : UserId → ℕ := fun _ => 1

def createSample : Except ContactError ((ContactId × Contacts.Contact) × Book) :=
  ContactService.create sampleContactKeys (.own 1) (0 : ℤ) (0 : ℤ)
    (oneEach (OwnerScope.own 1).owner) 10 .empty sampleInput

/-- An empty book with a contact added by hand. -/
def bookOfOne : Book :=
  match createSample with
  | .ok (_, b) => b
  | .error _ => .empty

lemma exists_created : ∃ contact, createSample = .ok (contact, bookOfOne) := by
  have hsome : createSample.toOption.isSome = true := by decide
  unfold bookOfOne
  cases h : createSample with
  | ok result => exact ⟨result.1, rfl⟩
  | error e =>
    rw [h] at hsome
    cases hsome

/-- The sample's addresses. -/
def ada : Set String := {"ada@ex.org"}

lemma run_created : Run (fun b e b' => BookStep sampleContactKeys oneEach b e b' ∧
    ∀ x ∈ e.addresses sampleContactKeys.toMailKeys, x ∈ ada)
    .empty [.create (.own 1) sampleInput] bookOfOne := by
  obtain ⟨contact, hcontact⟩ := exists_created
  unfold createSample at hcontact
  exact .single ⟨.create hcontact, fun x hx => List.mem_singleton.mp hx⟩

theorem limits_hold_sample :
    ∃ t : Library ℕ,
      Run (Library.StepUnder (fun _ => 0) largeVideos 100) {} twoUploads t ∧
      Run (fun b e b' => BookStep sampleContactKeys oneEach b e b' ∧
        ∀ x ∈ e.addresses sampleContactKeys.toMailKeys, x ∈ ada)
        .empty [.create (.own 1) sampleInput] bookOfOne ∧
      t.storedBytes ≤ max 100 (Library.storedBytes ({} : Library ℕ)) ∧
      ContactRepo.count bookOfOne 1 ≤ max (oneEach 1) (ContactRepo.count .empty 1) := by
  have hunder : ∀ id size used, used + size ≤ maxBigint →
      ∀ e ∈ reserving id size 100 used, LibraryEvent.Under 100 e := by
    intro id size used hle e he
    rcases List.mem_cons.mp he with rfl | he
    · rfl
    · obtain rfl := List.mem_singleton.mp he
      rintro _ ⟨⟩
      exact .inr hle
  have hfirst : Run (Library.StepUnder (fun _ => 0) largeVideos 100) {} (reserving 0 30 100 0) _ :=
    run_reserving (hunder 0 30 0 (by decide)) rfl rfl (by decide) rfl opens_first
  have hboth := hfirst.append
    (run_reserving (hunder 1 40 30 (by decide)) rfl stored_first (by decide) rfl opens_second)
  have hidem : ∀ raw, sampleContactKeys.normalizeEmail (sampleContactKeys.normalizeEmail raw) =
      sampleContactKeys.normalizeEmail raw := fun _ => rfl
  have hinj : Set.InjOn sampleContactKeys.emailHash ada := Set.subsingleton_singleton.injOn _
  have hpending : ∀ r, ({} : Library ℕ).reserving = some r → r.quota = 100 := nofun
  have hA : ∀ id c, Book.empty.contacts.lookup id = some c → c.email ∈ ada := fun id c hc =>
    absurd hc (Book.lookup_empty_ne_some id c)
  have hlimits := limits_hold .nil (by decide) hpending hboth hidem hinj .nil hA run_created
  obtain ⟨⟨hbytes, -⟩, hcount, -⟩ := hlimits
  have hone := hcount 1 (by decide)
  exact ⟨_, hboth, run_created, hbytes, hone⟩

/-- Two videos, each as large as it may be, under a quota of all 64 bits. -/
def twoLargeUploads : List LibraryEvent :=
  reserving 0 maxBigint maxBigint 0 ++ reserving 1 1 maxBigint maxBigint

theorem not_limits_hold :
    ∃ t : Library ℕ, Run (fun s e t => Library.Step (fun _ => 0) largeVideos s e t ∧
        ∀ quota, e = .lock quota → quota = maxBigint) {} twoLargeUploads t ∧
      ¬ t.storedBytes ≤ max maxBigint (Library.storedBytes ({} : Library ℕ)) := by
  have hquota : ∀ id size used, ∀ e ∈ reserving id size maxBigint used, ∀ quota, e = .lock quota →
      quota = maxBigint := by
    intro id size used e he quota hlock
    rcases List.mem_cons.mp he with rfl | he
    · exact (LibraryEvent.lock.inj hlock).symm
    · rw [List.mem_singleton.mp he] at hlock
      cases hlock
  have hfirst : Run (fun s e t => Library.Step (fun _ => 0) largeVideos s e t ∧
      ∀ quota, e = .lock quota → quota = maxBigint) {} (reserving 0 maxBigint maxBigint 0) _ :=
    run_reserving (hquota 0 maxBigint 0) rfl rfl (by decide) rfl (by decide)
  have hboth := hfirst.append (run_reserving (hquota 1 1 maxBigint) rfl
    (by decide) (by decide) rfl (by decide))
  exact ⟨_, hboth, by decide⟩

end Postit
