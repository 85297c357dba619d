import Mathlib.Data.List.Dedup
import Mathlib.Data.List.Forall2
import Mathlib.Data.List.Infix
import Mathlib.Data.List.ReduceOption
import Postit.Framework.Trace
import Postit.Identity.Deletion

/-!
# Deleted users in the audit log

Every event in the log shows what was written, but for references to users who are being deleted or
gone: those may show as the user's pseudonym, and once the row is gone they do
(`deleted_users_scrubbed`).  A pseudonym is never the ID of a user, by its version.
-/

namespace Postit.Audit

open Postit.Framework
open Postit.Identity (UserStatus)

section

variable {uuids : Uuids} {key : Bytes} {user : Uuid}

/-! ## Pseudonyms and keys -/

/-- A pseudonym is a UUID of version 8. -/
lemma version_pseudonymFor : (pseudonymFor uuids key user).version = 8 := by
  have hlt : 6 < (uuids.mac key user.1).length := by
    rw [uuids.length_mac]
    decide
  have hstamp : ∀ b : UInt8, ((b &&& 0x0f) ||| 0x80) >>> 4 = 8 := by
    intro b
    have hall : ∀ n : Fin 256, ((UInt8.ofFin n &&& 0x0f) ||| 0x80) >>> 4 = 8 := by decide +kernel
    exact hall b.toFin
  unfold Uuid.version pseudonymFor
  simp [List.getD_eq_getElem?_getD, List.getElem?_eq_getElem hlt, hstamp]

lemma text_injective : Function.Injective uuids.text := by
  intro u v h
  have hparse := congrArg uuids.parse h
  rw [uuids.parse_text, uuids.parse_text] at hparse
  exact Option.some.inj hparse

lemma fits_char (chars s : List Char) : fits (chars.map .char) s = true ↔ s = chars := by
  induction chars generalizing s with
  | nil => simp [fits]
  | cons c chars ih =>
    cases s with
    | nil => simp [fits]
    | cons d s =>
      rw [List.map_cons, fits, Bool.and_eq_true, decide_eq_true_eq, ih, List.cons_eq_cons]
      exact and_congr_left fun _ => eq_comm

/-- The pattern of the rewrite takes the keys the builder keeps for users' IDs. -/
lemma isUserIdKey_eq (k : String) : AuditLog.isUserIdKey k = endsWith k userIdSuffix := by
  have hpattern : wildcards "%\\_user\\_id".toList =
      .anyText :: userIdSuffix.toList.map .char := by decide
  rw [Bool.eq_iff_iff, AuditLog.isUserIdKey, like, hpattern, fits, List.any_eq_true, endsWith,
    List.isSuffixOf_iff_suffix]
  simp only [List.mem_tails, fits_char]
  exact ⟨fun ⟨rest, hrest, heq⟩ => heq ▸ hrest, fun h => ⟨_, h, rfl⟩⟩

/-! ## One rewrite -/

/-- What the rewrite of a user's references makes of one. -/
def swap (uuids : Uuids) (key : Bytes) (user id : Uuid) : Uuid :=
  if id = user then pseudonymFor uuids key user else id

/-- What the rewrite makes of a row. -/
def scrubRow (uuids : Uuids) (key : Bytes) (user : Uuid) (row : AuditRow) : AuditRow :=
  { row with
    ip := if row.actorUserId = some user then none else row.ip
    actorUserId := row.actorUserId.map (swap uuids key user)
    ownerId := row.ownerId.map (swap uuids key user)
    subjectUserId := row.subjectUserId.map (swap uuids key user)
    details := row.details.map fun m =>
      (m.1, if AuditLog.isUserIdKey m.1 && isText m.2 (uuids.text user) then
        .string (uuids.text (pseudonymFor uuids key user)) else m.2) }

lemma map_swap (o : Option Uuid) :
    o.map (swap uuids key user) =
      if o = some user then some (pseudonymFor uuids key user) else o := by
  cases o with
  | none => simp
  | some id =>
    simp only [Option.map_some, swap, Option.some.injEq]
    split_ifs <;> rfl

lemma updateEvents_fst {events : List AuditRow} {p : AuditRow → Bool} {f g : AuditRow → AuditRow}
    (h : ∀ row, (if p row then f row else row) = g row) :
    (updateEvents events p f).1 = events.map g :=
  List.map_congr_left fun row _ => h row

/-- The five updates together. -/
lemma pseudonymizeUser_fst (events : List AuditRow) :
    (AuditLog.pseudonymizeUser uuids events user key).1 =
      events.map (scrubRow uuids key user) := by
  have hdetails : ∀ details : Members,
      (details.any fun m => AuditLog.isUserIdKey m.1 && isText m.2 (uuids.text user)) = false →
      (details.map fun m => (m.1, if AuditLog.isUserIdKey m.1 && isText m.2 (uuids.text user) then
        Json.string (uuids.text (pseudonymFor uuids key user)) else m.2)) = details := by
    intro details hnone
    rw [List.any_eq_false] at hnone
    refine (List.map_congr_left fun m hm => ?_).trans (List.map_id _)
    rw [if_neg (hnone m hm)]
    rfl
  simp only [AuditLog.pseudonymizeUser]
  rw [updateEvents_fst (g := fun row =>
        { row with
          details := row.details.map fun m =>
            (m.1, if AuditLog.isUserIdKey m.1 && isText m.2 (uuids.text user) then
              .string (uuids.text (pseudonymFor uuids key user)) else m.2) }) ?details,
    updateEvents_fst (g := fun row =>
        { row with subjectUserId := row.subjectUserId.map (swap uuids key user) }) ?subject,
    updateEvents_fst (g := fun row =>
        { row with ownerId := row.ownerId.map (swap uuids key user) }) ?owner,
    updateEvents_fst (g := fun row =>
        { row with actorUserId := row.actorUserId.map (swap uuids key user) }) ?actor,
    updateEvents_fst (g := fun row =>
        { row with ip := if row.actorUserId = some user then none else row.ip }) ?ip]
  · simp only [List.map_map]
    rfl
  case ip =>
    intro row
    by_cases h : row.actorUserId = some user ∧ row.ip.isSome
    · simp [h.1, h.2]
    · have hsame : (if row.actorUserId = some user then none else row.ip) = row.ip := by
        split_ifs with hactor
        · have hnone : row.ip = none := by simpa [hactor] using h
          exact hnone.symm
        · rfl
      simp only [h, hsame, decide_false, Bool.false_eq_true, if_false]
  case actor =>
    intro row
    rw [map_swap]
    by_cases h : row.actorUserId = some user <;> simp [h]
  case owner =>
    intro row
    rw [map_swap]
    by_cases h : row.ownerId = some user <;> simp [h]
  case subject =>
    intro row
    rw [map_swap]
    by_cases h : row.subjectUserId = some user <;> simp [h]
  case details =>
    intro row
    split_ifs with hany
    · rfl
    · rw [hdetails row.details (Bool.not_eq_true _ ▸ hany)]

/-! ## What a row shows of what was written -/

/-- A detail shows what was written, up to the users it refers to. -/
def DetailShows (uuids : Uuids) (R : Uuid → Uuid → Prop) (written shown : String × Json) : Prop :=
  shown.1 = written.1 ∧
    if endsWith written.1 userIdSuffix = true then
      ∃ u v, written.2 = .string (uuids.text u) ∧ shown.2 = .string (uuids.text v) ∧ R u v
    else shown.2 = written.2

/-- A row shows what was written, up to the users it refers to; it has lost the address if it has
lost its actor. -/
structure RowShows (uuids : Uuids) (R : Uuid → Uuid → Prop) (written shown : AuditRow) :
    Prop where
  id : shown.id = written.id
  recordedAt : shown.recordedAt = written.recordedAt
  kind : shown.kind = written.kind
  requestId : shown.requestId = written.requestId
  actor : Option.Rel R written.actorUserId shown.actorUserId
  owner : Option.Rel R written.ownerId shown.ownerId
  subject : Option.Rel R written.subjectUserId shown.subjectUserId
  ip : shown.ip = if shown.actorUserId = written.actorUserId then written.ip else none
  details : List.Forall₂ (DetailShows uuids R) written.details shown.details

variable {R S : Uuid → Uuid → Prop} {written shown : AuditRow}

lemma rel_imp (h : ∀ u v, R u v → S u v) {a b : Option Uuid} (hab : Option.Rel R a b) :
    Option.Rel S a b := by
  cases hab with
  | some hr => exact .some (h _ _ hr)
  | none => exact .none

lemma RowShows.imp (h : RowShows uuids R written shown) (hRS : ∀ u v, R u v → S u v) :
    RowShows uuids S written shown := by
  refine { h with
    actor := rel_imp hRS h.actor
    owner := rel_imp hRS h.owner
    subject := rel_imp hRS h.subject
    details := h.details.imp fun m n hmn => ⟨hmn.1, ?_⟩ }
  obtain ⟨-, hmn⟩ := hmn
  split_ifs with hkey
  · rw [if_pos hkey] at hmn
    obtain ⟨u, v, hu, hv, hr⟩ := hmn
    exact ⟨u, v, hu, hv, hRS u v hr⟩
  · rwa [if_neg hkey] at hmn

lemma rel_map_swap (hRS : ∀ u v, R u v → S u (swap uuids key user v)) {a b : Option Uuid}
    (hab : Option.Rel R a b) : Option.Rel S a (b.map (swap uuids key user)) := by
  cases hab with
  | some hr => exact .some (hRS _ _ hr)
  | none => exact .none

/-- A rewrite turns references to the user into the pseudonym. -/
lemma RowShows.scrub (h : RowShows uuids R written shown)
    (hRS : ∀ u v, R u v → S u (swap uuids key user v))
    (hpseudo : ∀ u, R u user → u ≠ pseudonymFor uuids key user) :
    RowShows uuids S written (scrubRow uuids key user shown) := by
  refine ⟨h.id, h.recordedAt, h.kind, h.requestId, rel_map_swap hRS h.actor,
    rel_map_swap hRS h.owner, rel_map_swap hRS h.subject, ?_, ?_⟩
  · simp only [scrubRow, map_swap]
    by_cases hactor : shown.actorUserId = some user
    · have hother : some (pseudonymFor uuids key user) ≠ written.actorUserId := by
        intro heq
        have hrel := h.actor
        rw [← heq, hactor] at hrel
        cases hrel with
        | some hr => exact hpseudo _ hr rfl
      rw [if_pos hactor, if_pos hactor, if_neg hother]
    · rw [if_neg hactor, if_neg hactor, h.ip]
  · refine List.forall₂_map_right_iff.mpr (h.details.imp fun m n hmn => ⟨hmn.1, ?_⟩)
    obtain ⟨hname, hmn⟩ := hmn
    simp only [isUserIdKey_eq, hname]
    split_ifs with hkey htext htext
    · rw [if_pos hkey] at hmn
      obtain ⟨u, v, hu, hv, hr⟩ := hmn
      have hv' : v = user := by
        rw [hv] at htext
        simpa [hkey, isText, text_injective.eq_iff] using htext
      have hs := hRS u v hr
      rw [swap, if_pos hv'] at hs
      exact ⟨u, _, hu, rfl, hs⟩
    · rw [if_pos hkey] at hmn
      obtain ⟨u, v, hu, hv, hr⟩ := hmn
      have hv' : v ≠ user := by
        rintro rfl
        exact htext (by simp [hkey, hv, isText])
      have hs := hRS u v hr
      rw [swap, if_neg hv'] at hs
      exact ⟨u, v, hu, hv, hs⟩
    · simp [hkey] at htext
    · rwa [if_neg hkey] at hmn

/-! ## The tables -/

variable {db db' : Db}

/-- The user is being deleted, or gone. -/
def Db.Leaving (db : Db) (user : Uuid) : Prop :=
  db.users.lookup user = none ∨ db.users.lookup user = some .deleting

/-- How a reference to a user shows: as it was written while the row is there, or as the user's
pseudonym when the user is being deleted or gone. -/
def Db.Shows (uuids : Uuids) (key : Bytes) (db : Db) (u v : Uuid) : Prop :=
  u ∈ db.issued ∧ ((v = u ∧ db.users.lookup u ≠ none) ∨
    (v = pseudonymFor uuids key u ∧ db.Leaving u))

/-- Users have IDs that were generated, and the log shows what was written. -/
structure Db.Sound (uuids : Uuids) (key : Bytes) (db : Db) : Prop where
  issued : ∀ {id status}, db.users.lookup id = some status → id ∈ db.issued
  version : ∀ {id}, id ∈ db.issued → id.version = 7
  log : List.Forall₂ (RowShows uuids (db.Shows uuids key)) db.recorded db.events

lemma Db.Sound.ne_pseudonymFor (h : db.Sound uuids key) {id : Uuid} (hid : id ∈ db.issued)
    (u : Uuid) : id ≠ pseudonymFor uuids key u := by
  intro heq
  have hversion := h.version hid
  rw [heq, version_pseudonymFor] at hversion
  exact absurd hversion (by decide)

/-- Users stay, and so do those who are leaving. -/
structure Onward (db db' : Db) : Prop where
  issued : ∀ {id}, id ∈ db.issued → id ∈ db'.issued
  stays : ∀ {id}, id ∈ db.issued → db.users.lookup id ≠ none → db'.users.lookup id ≠ none
  leaving : ∀ {id}, id ∈ db.issued → db.Leaving id → db'.Leaving id

lemma Onward.refl (db : Db) : Onward db db := ⟨id, fun _ => id, fun _ => id⟩

lemma Onward.shows (h : Onward db db') {u v : Uuid} (huv : db.Shows uuids key u v) :
    db'.Shows uuids key u v := by
  obtain ⟨hu, huv⟩ := huv
  refine ⟨h.issued hu, huv.imp (fun huv => ?_) fun huv => ?_⟩
  · exact ⟨huv.1, h.stays hu huv.2⟩
  · exact ⟨huv.1, h.leaving hu huv.2⟩

lemma Onward.log (h : Onward db db') {written events : List AuditRow}
    (hlog : List.Forall₂ (RowShows uuids (db.Shows uuids key)) written events) :
    List.Forall₂ (RowShows uuids (db'.Shows uuids key)) written events :=
  hlog.imp fun _ _ hrow => hrow.imp fun _ _ => h.shows

/-! ## Transactions -/

/-- What is recorded refers to users whose rows are there. -/
lemma mem_users_of_referenced {event : AuditEvent uuids} {now : Time} {id : ℕ}
    (hok : AuditLog.record db now id event = .ok db') :
    (∀ user ∈ AuditLog.referenced event, db.users.lookup user ≠ none) ∧
      db' = { db with
        events := db.events ++ [AuditLog.row now id event]
        recorded := db.recorded ++ [AuditLog.row now id event] } := by
  simp only [AuditLog.record] at hok
  split_ifs at hok with hlength
  refine ⟨fun user hmem => ?_, (Except.ok.inj hok).symm⟩
  have hall := List.length_filter_eq_length_iff.mp (not_not.mp hlength)
  exact Option.isSome_iff_ne_none.mp (hall user hmem)

/-- A row as it is written shows itself. -/
lemma rowShows_self {event : AuditEvent uuids} {now : Time} {id : ℕ}
    (h : ∀ user ∈ AuditLog.referenced event, R user user) :
    RowShows uuids R (AuditLog.row now id event) (AuditLog.row now id event) := by
  have hcolumn : ∀ o ∈ [event.actorUserId, event.ownerId, event.subjectUserId],
      Option.Rel R o o := by
    intro o ho
    cases o with
    | none => exact .none
    | some user =>
      refine .some (h user ?_)
      rw [AuditLog.referenced, List.mem_dedup, List.mem_append, List.reduceOption_mem_iff]
      exact .inl ho
  refine ⟨rfl, rfl, rfl, rfl, hcolumn _ (by simp [AuditLog.row]),
    hcolumn _ (by simp [AuditLog.row]), hcolumn _ (by simp [AuditLog.row]), (if_pos rfl).symm,
    List.forall₂_same.mpr fun m hm => ⟨rfl, ?_⟩⟩
  split_ifs with hkey
  · obtain ⟨user, huser⟩ := event.userIds m hm hkey
    refine ⟨user, user, huser, huser, h user ?_⟩
    rw [AuditLog.referenced, List.mem_dedup, List.mem_append]
    refine .inr (List.mem_filterMap.mpr ⟨m, List.mem_filter.mpr ⟨hm, hkey⟩, ?_⟩)
    rw [huser]
    exact uuids.parse_text user
  · rfl

lemma Db.Sound.op (h : db.Sound uuids key) {o : Op uuids} (hok : db.op o = .ok db') :
    db'.Sound uuids key ∧ Onward db db' := by
  cases o with
  | insertUser id status =>
    simp only [Db.op] at hok
    split_ifs at hok with hid
    obtain rfl := Except.ok.inj hok
    have hother : ∀ {u}, u ∈ db.issued → (db.users.insert id status).lookup u =
        db.users.lookup u := fun hu => AList.lookup_insert_ne fun heq => hid.2 (heq ▸ hu)
    have honward : Onward db
        { db with users := db.users.insert id status, issued := id :: db.issued } := by
      refine ⟨List.mem_cons_of_mem _, fun hu hstays => ?_, fun hu hleaving => ?_⟩
      · rwa [hother hu]
      · rwa [Db.Leaving, hother hu]
    refine ⟨⟨fun {u status'} hu => ?_, fun hu => ?_, honward.log h.log⟩, honward⟩
    · by_cases heq : u = id
      · exact heq ▸ List.mem_cons_self
      · rw [AList.lookup_insert_ne heq] at hu
        exact List.mem_cons_of_mem _ (h.issued hu)
    · rcases List.mem_cons.mp hu with rfl | hu
      · exact hid.1
      · exact h.version hu
  | setStatus id status =>
    simp only [Db.op] at hok
    split at hok
    · cases hok
    · cases hok
    · next previous hdeleting hlookup =>
      obtain rfl := Except.ok.inj hok
      have honward : Onward db { db with users := db.users.insert id status } := by
        refine ⟨fun hu => hu, fun {u} hu hstays => ?_, fun {u} hu hleaving => ?_⟩
        · by_cases heq : u = id
          · subst heq
            simp
          · rwa [AList.lookup_insert_ne heq]
        · by_cases heq : u = id
          · subst heq
            rcases hleaving with hnone | hstatus
            · rw [hnone] at hlookup
              cases hlookup
            · rw [hstatus] at hlookup
              exact absurd (Option.some.inj hlookup).symm hdeleting
          · rwa [Db.Leaving, AList.lookup_insert_ne heq]
      refine ⟨⟨fun {u status'} hu => ?_, h.version, honward.log h.log⟩, honward⟩
      by_cases heq : u = id
      · subst heq
        exact h.issued hlookup
      · rw [AList.lookup_insert_ne heq] at hu
        exact h.issued hu
  | record now id event =>
    obtain ⟨hreferenced, rfl⟩ := mem_users_of_referenced hok
    have honward : Onward db
        { db with
          events := db.events ++ [AuditLog.row now id event]
          recorded := db.recorded ++ [AuditLog.row now id event] } :=
      ⟨fun hu => hu, fun _ hu => hu, fun _ hu => hu⟩
    refine ⟨⟨h.issued, h.version, List.rel_append (honward.log h.log) (.cons ?_ .nil)⟩, honward⟩
    refine rowShows_self fun user hmem => ?_
    obtain ⟨status, hstatus⟩ := Option.ne_none_iff_exists'.mp (hreferenced user hmem)
    exact ⟨h.issued hstatus, .inl ⟨rfl, hreferenced user hmem⟩⟩

lemma Onward.trans {db'' : Db} (h : Onward db db') (h' : Onward db' db'') : Onward db db'' :=
  ⟨fun hu => h'.issued (h.issued hu), fun hu hs => h'.stays (h.issued hu) (h.stays hu hs),
    fun hu hl => h'.leaving (h.issued hu) (h.leaving hu hl)⟩

lemma Db.Sound.transact (h : db.Sound uuids key) {ops : List (Op uuids)}
    (hok : db.transact ops = .ok db') : db'.Sound uuids key ∧ Onward db db' := by
  unfold Db.transact at hok
  induction ops generalizing db with
  | nil =>
    obtain rfl := Except.ok.inj hok
    exact ⟨h, Onward.refl db⟩
  | cons o ops ih =>
    rw [List.foldlM_cons] at hok
    obtain ⟨mid, hop, hrest⟩ := bind_eq_ok hok
    obtain ⟨hmid, honward⟩ := h.op hop
    obtain ⟨hsound, honward'⟩ := ih hmid hrest
    exact ⟨hsound, honward.trans honward'⟩

/-! ## The job -/

/-- A rewrite for a user who is leaving leaves none of the user's references. -/
lemma Db.Sound.pseudonymize (h : db.Sound uuids key) (hissued : user ∈ db.issued)
    (hleaving : db.Leaving user) :
    List.Forall₂ (RowShows uuids fun u v => db.Shows uuids key u v ∧ v ≠ user) db.recorded
      (db.pseudonymize uuids key user).events := by
  simp only [Db.pseudonymize, pseudonymizeUser_fst]
  have hne : pseudonymFor uuids key user ≠ user := (h.ne_pseudonymFor hissued user).symm
  refine List.forall₂_map_right_iff.mpr (h.log.imp fun _ _ hrow => hrow.scrub ?_ ?_)
  · intro u v hshows
    unfold swap
    split_ifs with hv
    · -- a reference that shows as the user is one to the user
      obtain ⟨hu, ⟨rfl, -⟩ | ⟨hpseudo, -⟩⟩ := hshows
      · exact ⟨⟨hu, .inr ⟨by rw [hv], hv ▸ hleaving⟩⟩, hne⟩
      · exact absurd (hv.symm.trans hpseudo) (h.ne_pseudonymFor hissued u)
    · exact ⟨hshows, hv⟩
  · intro u hshows
    exact h.ne_pseudonymFor hshows.1 user

lemma Db.Sound.scrubAndDelete (h : db.Sound uuids key) (hissued : user ∈ db.issued)
    (hleaving : db.Leaving user) :
    (db.scrubAndDelete uuids key user).Sound uuids key ∧
      (db.scrubAndDelete uuids key user).issued = db.issued ∧
      ∀ {id}, db.Leaving id → (db.scrubAndDelete uuids key user).Leaving id := by
  unfold Db.scrubAndDelete
  split
  · exact ⟨h, rfl, id⟩
  · have hother : ∀ {id}, id ≠ user → (db.users.erase user).lookup id = db.users.lookup id :=
      fun hne => AList.lookup_erase_ne hne
    refine ⟨⟨fun {id status} hid => ?_, h.version, ?_⟩, rfl, fun {id} hid => ?_⟩
    · by_cases heq : id = user
      · rw [heq, AList.lookup_erase] at hid
        cases hid
      · rw [hother heq] at hid
        exact h.issued hid
    · refine (h.pseudonymize hissued hleaving).imp fun _ _ hrow => hrow.imp ?_
      rintro u v ⟨⟨hu, huv⟩, hne⟩
      refine ⟨hu, ?_⟩
      by_cases heq : u = user
      · subst heq
        rcases huv with ⟨hv, -⟩ | ⟨hv, -⟩
        · exact absurd hv hne
        · exact .inr ⟨hv, .inl (AList.lookup_erase _ _)⟩
      · refine huv.imp (fun hv => ⟨hv.1, ?_⟩) fun hv => ⟨hv.1, ?_⟩
        · exact (hother heq).trans_ne hv.2
        · exact hv.2.imp (hother heq).trans (hother heq).trans
    · by_cases heq : id = user
      · exact .inl (heq ▸ AList.lookup_erase _ _)
      · exact hid.imp (hother heq).trans (hother heq).trans

/-- The tables are sound, and the deliveries at work are for users who are leaving. -/
structure World.Sound (uuids : Uuids) (key : Bytes) (w : World) : Prop where
  db : w.db.Sound uuids key
  deliveries : ∀ d ∈ w.deliveries, d.1 ∈ w.db.issued ∧ w.db.Leaving d.1

lemma sound_init : ({} : World).Sound uuids key := by
  refine ⟨⟨fun h => ?_, fun h => ?_, .nil⟩, fun d hd => ?_⟩
  · cases h
  · cases h
  · cases hd

lemma World.Sound.step {w w' : World} {e : Event uuids} (h : w.Sound uuids key)
    (hstep : Step uuids key w e w') : w'.Sound uuids key := by
  cases hstep with
  | transact hok =>
    obtain ⟨hdb, honward⟩ := h.db.transact hok
    refine ⟨hdb, fun d hd => ?_⟩
    obtain ⟨hissued, hleaving⟩ := h.deliveries d hd
    exact ⟨honward.issued hissued, honward.leaving hissued hleaving⟩
  | @load user hload =>
    refine ⟨h.db, fun d hd => ?_⟩
    rcases List.mem_append.mp hd with hd | hd
    · exact h.deliveries d hd
    · obtain rfl := List.mem_singleton.mp hd
      exact ⟨h.db.issued hload, .inr hload⟩
  | @pseudonymize i user hi =>
    obtain ⟨hissued, hleaving⟩ := h.deliveries _ (List.mem_of_getElem? hi)
    have hlog := h.db.pseudonymize hissued hleaving
    refine ⟨⟨h.db.issued, h.db.version, ?_⟩, fun d hd => ?_⟩
    · exact hlog.imp fun _ _ hrow => hrow.imp fun _ _ hshows => hshows.1
    · rcases List.mem_or_eq_of_mem_set hd with hd | rfl
      · exact h.deliveries d hd
      · exact ⟨hissued, hleaving⟩
  | @delete i user hi =>
    obtain ⟨hissued, hleaving⟩ := h.deliveries _ (List.mem_of_getElem? hi)
    obtain ⟨hdb, hsame, hstays⟩ := h.db.scrubAndDelete hissued hleaving
    refine ⟨hdb, fun d hd => ?_⟩
    obtain ⟨hd, hd'⟩ := h.deliveries d (List.mem_of_mem_eraseIdx hd)
    exact ⟨hsame ▸ hd, hstays hd'⟩
  | crash => exact ⟨h.db, fun d hd => h.deliveries d (List.mem_of_mem_eraseIdx hd)⟩

/-! ## Users who are gone -/

/-- A row holds the ID of a user. -/
def AuditRow.Mentions (uuids : Uuids) (row : AuditRow) (user : Uuid) : Prop :=
  row.actorUserId = some user ∨ row.ownerId = some user ∨ row.subjectUserId = some user ∨
    ∃ m ∈ row.details, endsWith m.1 userIdSuffix = true ∧
      ∃ s, m.2 = .string s ∧ uuids.parse s = some user

lemma exists_of_mem_right {α β : Type} {r : α → β → Prop} {l : List α} {l' : List β}
    (h : List.Forall₂ r l l') {b : β} (hb : b ∈ l') : ∃ a, r a b := by
  obtain ⟨a, ha⟩ := List.getElem?_of_mem hb
  obtain ⟨hlt, rfl⟩ := List.getElem?_eq_some_iff.mp ha
  have hlt' : a < l.length := h.length_eq ▸ hlt
  exact ⟨l[a], h.get hlt' hlt⟩

/-- What a row shows does not mention a user no reference shows as. -/
lemma not_mentions (h : RowShows uuids R written shown) (hR : ∀ u, ¬ R u user) :
    ¬ shown.Mentions uuids user := by
  have hcolumn : ∀ {a b : Option Uuid}, Option.Rel R a b → b ≠ some user := by
    rintro a b hab rfl
    cases hab with
    | some hr => exact hR _ hr
  rintro (hactor | howner | hsubject | ⟨m, hm, hkey, s, hs, hparse⟩)
  · exact hcolumn h.actor hactor
  · exact hcolumn h.owner howner
  · exact hcolumn h.subject hsubject
  · obtain ⟨n, hname, hn⟩ := exists_of_mem_right h.details hm
    rw [hname] at hkey
    rw [if_pos hkey] at hn
    obtain ⟨u, v, -, hv, hr⟩ := hn
    rw [hs, Json.string.injEq] at hv
    rw [hv, uuids.parse_text, Option.some.injEq] at hparse
    exact hR u (hparse ▸ hr)

/-- A rewrite finds nothing where the user is not mentioned. -/
lemma pseudonymizeUser_of_not_mentions {events : List AuditRow}
    (h : ∀ row ∈ events, ¬ row.Mentions uuids user) :
    AuditLog.pseudonymizeUser uuids events user key = (events, 0) := by
  have hnone : ∀ {p : AuditRow → Bool} {f : AuditRow → AuditRow},
      (∀ row ∈ events, p row = true → row.Mentions uuids user) →
      updateEvents events p f = (events, 0) := by
    intro p f hp
    have hfalse : ∀ row ∈ events, ¬ p row = true := fun row hrow hpr =>
      h row hrow (hp row hrow hpr)
    refine Prod.ext ?_ (List.countP_eq_zero.mpr hfalse)
    exact (List.map_congr_left fun row hrow => if_neg (hfalse row hrow)).trans (List.map_id _)
  simp only [AuditLog.pseudonymizeUser]
  rw [hnone ?ip, hnone ?actor, hnone ?owner, hnone ?subject, hnone ?details]
  · rfl
  case ip => exact fun row _ hp => .inl (of_decide_eq_true hp).1
  case actor => exact fun row _ hp => .inl (of_decide_eq_true hp)
  case owner => exact fun row _ hp => .inr (.inl (of_decide_eq_true hp))
  case subject => exact fun row _ hp => .inr (.inr (.inl (of_decide_eq_true hp)))
  case details =>
    intro row _ hp
    obtain ⟨m, hm, hboth⟩ := List.any_eq_true.mp hp
    rw [Bool.and_eq_true, isUserIdKey_eq] at hboth
    obtain ⟨hkey, htext⟩ := hboth
    unfold isText at htext
    split at htext
    · next s hs =>
      refine .inr (.inr (.inr ⟨m, hm, hkey, s, hs, ?_⟩))
      rw [of_decide_eq_true htext]
      exact uuids.parse_text user
    · cases htext

/-- In every state, the log shows what was written but for references to users who are being deleted
or gone; and of a user who is gone it holds no ID and no address, but the pseudonym everywhere, so
that another rewrite changes nothing. -/
theorem deleted_users_scrubbed {events : List (Event uuids)} {w : World}
    (h : Run (Step uuids key) {} events w) :
    List.Forall₂ (RowShows uuids (w.db.Shows uuids key)) w.db.recorded w.db.events ∧
      ∀ user ∈ w.db.issued, w.db.users.lookup user = none →
        (∀ row ∈ w.db.events, ¬ row.Mentions uuids user) ∧
        List.Forall₂ (fun written shown => written.actorUserId = some user → shown.ip = none)
          w.db.recorded w.db.events ∧
        List.Forall₂ (RowShows uuids fun u v => u = user → v = pseudonymFor uuids key user)
          w.db.recorded w.db.events ∧
        AuditLog.pseudonymizeUser uuids w.db.events user key = (w.db.events, 0) := by
  have hsound : w.Sound uuids key :=
    h.invariant (I := World.Sound uuids key) (fun hstep hw => hw.step hstep) sound_init
  have hlog := hsound.db.log
  refine ⟨hlog, fun user hissued hgone => ?_⟩
  have hpseudo : ∀ {u v}, w.db.Shows uuids key u v → u = user →
      v = pseudonymFor uuids key user := by
    rintro u v ⟨-, ⟨-, hstays⟩ | ⟨hv, -⟩⟩ rfl
    · exact absurd hgone hstays
    · exact hv
  have hne : ∀ u, ¬ w.db.Shows uuids key u user := by
    rintro u ⟨hu, ⟨heq, hstays⟩ | ⟨heq, -⟩⟩
    · exact hstays (heq ▸ hgone)
    · exact hsound.db.ne_pseudonymFor hissued u heq
  have hmentions : ∀ row ∈ w.db.events, ¬ row.Mentions uuids user := by
    intro row hrow
    obtain ⟨written, hshows⟩ := exists_of_mem_right hlog hrow
    exact not_mentions hshows hne
  refine ⟨hmentions, hlog.imp fun written shown hrow hactor => ?_,
    hlog.imp fun _ _ hrow => hrow.imp fun _ _ hshows => hpseudo hshows,
    pseudonymizeUser_of_not_mentions hmentions⟩
  have hrel := hrow.actor
  rw [hrow.ip, hactor]
  rw [hactor] at hrel
  cases hshown : shown.actorUserId with
  | none => rfl
  | some v =>
    rw [hshown] at hrel
    cases hrel with
    | some hshows =>
      refine if_neg fun heq => hne user ?_
      rwa [Option.some.inj heq] at hshows

end

/-! ## A user who signs up and leaves -/

namespace Sample

/-- The digits of a byte. -/
def hexDigit (n : ℕ) : Char := Char.ofNat (if n < 10 then 48 + n else 87 + n)

def hexValue (c : Char) : ℕ := if c.toNat < 58 then c.toNat - 48 else c.toNat - 87

def hex (bytes : Bytes) : List Char :=
  bytes.flatMap fun b => [hexDigit (b.toNat / 16), hexDigit (b.toNat % 16)]

def unhex : List Char → Bytes
  | a :: b :: rest => UInt8.ofNat (hexValue a * 16 + hexValue b) :: unhex rest
  | _ => []

lemma unhex_hex (bytes : Bytes) : unhex (hex bytes) = bytes := by
  have hbyte : ∀ b : UInt8, UInt8.ofNat (hexValue (hexDigit (b.toNat / 16)) * 16 +
      hexValue (hexDigit (b.toNat % 16))) = b := by
    intro b
    have hall : ∀ n : Fin 256, UInt8.ofNat (hexValue (hexDigit ((UInt8.ofFin n).toNat / 16)) * 16 +
        hexValue (hexDigit ((UInt8.ofFin n).toNat % 16))) = UInt8.ofFin n := by decide +kernel
    exact hall b.toFin
  induction bytes with
  | nil => rfl
  | cons b bytes ih => rw [hex, List.flatMap_cons, ← hex]; simp [unhex, hbyte, ih]

/-- A UUID with its hyphens. -/
def text (id : Uuid) : String :=
  let part := fun start count => hex ((id.1.drop start).take count)
  String.ofList (part 0 4 ++ '-' :: part 4 2 ++ '-' :: part 6 2 ++ '-' :: part 8 2 ++
    '-' :: part 10 6)

def parse (s : String) : Option Uuid :=
  let bytes := unhex (s.toList.filter (· ≠ '-'))
  if h : bytes.length = 16 then some ⟨bytes, h⟩ else none

lemma filter_hex (bytes : Bytes) : (hex bytes).filter (· ≠ '-') = hex bytes := by
  have hdigit : ∀ n : Fin 16, hexDigit n ≠ '-' := by decide
  refine List.filter_eq_self.mpr fun c hc => ?_
  obtain ⟨b, -, hb⟩ := List.mem_flatMap.mp hc
  have hlt := b.toNat_lt
  rcases List.mem_cons.mp hb with rfl | hb
  · exact decide_eq_true (hdigit ⟨b.toNat / 16, by omega⟩)
  · obtain rfl := List.mem_singleton.mp hb
    exact decide_eq_true (hdigit ⟨b.toNat % 16, by omega⟩)

lemma parse_text (id : Uuid) : parse (text id) = some id := by
  have hparts : id.1.take 4 ++ (id.1.drop 4).take 2 ++ (id.1.drop 6).take 2 ++
      (id.1.drop 8).take 2 ++ (id.1.drop 10).take 6 = id.1 := by
    have hlast : (id.1.drop 10).take 6 = id.1.drop 10 := by
      rw [List.take_of_length_le]
      rw [List.length_drop, id.2]
    rw [hlast, ← List.take_add, ← List.take_add, ← List.take_add]
    exact List.take_append_drop 10 id.1
  have hbytes : unhex ((text id).toList.filter (· ≠ '-')) = id.1 := by
    have hdigits : (text id).toList.filter (· ≠ '-') = hex (id.1.take 4 ++ (id.1.drop 4).take 2 ++
        (id.1.drop 6).take 2 ++ (id.1.drop 8).take 2 ++ (id.1.drop 10).take 6) := by
      simp only [text, String.toList_ofList, List.filter_append, filter_hex, List.drop_zero,
        List.filter_cons, ne_eq, not_true_eq_false, decide_false, Bool.false_eq_true, if_false]
      simp only [hex, List.flatMap_append]
    rw [hdigits, hparts, unhex_hex]
  unfold parse
  simp only [hbytes, dif_pos id.2]

/-- The user. -/
def user : Uuid :=
  ⟨[1, 143, 12, 110, 91, 122, 125, 49, 156, 66, 106, 181, 224, 209, 159, 36], rfl⟩

/-- The key, as bytes. -/
def key : Bytes := "baseline-pseudonym-key".toUTF8.data.toList

/-- HMAC-SHA256 where the sample needs it. -/
def uuids : Uuids where
  mac _ _ := [135, 115, 199, 110, 248, 138, 156, 245, 106, 167, 185, 179, 126, 65, 251, 111, 219,
    234, 167, 43, 93, 70, 86, 94, 12, 228, 255, 165, 41, 231, 117, 26]
  length_mac _ _ := rfl
  text := text
  parse := parse
  parse_text := parse_text

/-- The event of a sign-up. -/
def provisioned : AuditEvent uuids :=
  (((AuditEvent.new .userProvisioned).context { ip := some "203.0.113.7" }).actor user).subject user

/-- The user signs up, and is then to be deleted. -/
def ops : List (Op uuids) :=
  [.insertUser user .active, .record 0 0 provisioned] ++ startDeletion user none {} 1 1

def leaving : Db := (Db.transact {} ops).toOption.getD {}

def gone : Db := (leaving.pseudonymize uuids key user).scrubAndDelete uuids key user

lemma run_gone :
    Run (Step uuids key) {} [.transact ops, .load user, .pseudonymize 0, .delete 0]
      { db := gone } := by
  have hops : Db.transact {} ops = .ok leaving := by rfl
  have hload : leaving.users.lookup user = some .deleting := by decide
  exact (((Run.single (.transact (w := {}) hops)).snoc (.load hload)).snoc (.pseudonymize rfl)).snoc
    (.delete rfl)

end Sample

/-- A further rewrite of the log of a user who signed up and left changes nothing. -/
theorem sample_scrubbed :
    AuditLog.pseudonymizeUser Sample.uuids Sample.gone.events Sample.user Sample.key =
      (Sample.gone.events, 0) :=
  ((deleted_users_scrubbed Sample.run_gone).2 Sample.user (by decide)
    (by decide)).2.2.2

end Postit.Audit
