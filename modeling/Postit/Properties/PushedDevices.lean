import Postit.Framework.Trace
import Postit.Notify.Devices
import Postit.Properties.KeyRotation
import Postit.Properties.PushedNotifications

/-!
# One device, one user

What the table of devices stands for is a home for each endpoint: the user who registered it last,
the row's ID, and what was registered (`home`).  Every step of the service keeps the table at that
(`Step.refines`), so a device is sent only what its home's user is told.
-/

namespace Postit.Push

open Postit.Framework
open Postit.Data (UserId)
open Postit.Notify (NotificationId)
open Postit.Sealing (Sealed VaultError)

/-! ## Values under seal -/

/-- A vault opens what it sealed. -/
lemma open_sealParts {c : Sealing.Cipher} {α : Type} {codec : Sealing.Codec α}
    {vault : Sealing.Vault} {value : α} {ctx : Sealing.SealContext} {dek : Sealing.Key}
    {wrapNonce dataNonce : Sealing.Nonce} {s : Sealed}
    (h : vault.sealParts c codec value ctx dek wrapNonce dataNonce = .ok s) :
    vault.open_ c codec s ctx = .ok value := by
  have hagrees : vault.Agrees fun version =>
      (vault.keks.1.lookup version).getD ⟨List.replicate 32 0, by simp⟩ := by
    intro version kek hkek
    simp [hkek]
  obtain ⟨aad, plaintext, hholds⟩ := Sealing.holds_sealParts hagrees h
  refine hholds.open_ hagrees ?_
  obtain ⟨_, _, h⟩ := bind_eq_ok h
  obtain ⟨_, _, h⟩ := bind_eq_ok h
  obtain ⟨⟨version, kek⟩, hnewest, h⟩ := bind_eq_ok h
  obtain ⟨_, _, h⟩ := bind_eq_ok h
  obtain ⟨_, _, h⟩ := bind_eq_ok h
  rw [hagrees.newestKek, Except.ok.injEq, Prod.mk.injEq] at hnewest
  obtain ⟨rfl, rfl⟩ := hnewest
  cases h
  simpa using vault.held

section Homes

variable (o : Outside) (deps : Deps)

/-- Where an endpoint is registered. -/
structure Home where
  user : UserId
  id : PushEndpointId
  reg : Registration o

/-- The text a sealed column of a row opens to under an ID. -/
def Opens (id : PushEndpointId) (value : Sealed) (column : String) (text : Str) : Prop :=
  deps.vault.open_ o.cipher o.codec value (PushEndpointRepo.sealContext id column) = .ok text

/-- The row is the home's: its user's, and its values open under the row's ID to what was
registered. -/
structure Houses (row : PushEndpointRow) (home : Home o) : Prop where
  user : row.user = home.user
  hash : row.endpointHash = home.reg.hash
  endpoint : Opens o deps home.id row.endpoint "endpoint" (o.urls.asStr home.reg.endpoint)
  p256dh : Opens o deps home.id row.p256dh "p256dh" (Base64.encode home.reg.p256dh)
  auth : Opens o deps home.id row.auth "auth" (Base64.encode home.reg.auth)

/-- The table stands for the homes. -/
structure Refines (db : Devices) (homes : o.urls.Url → Option (Home o)) : Prop where
  of_row : ∀ {id row}, db.lookup id = some row →
    ∃ u home, homes u = some home ∧ home.id = id ∧ Houses o deps row home
  to_row : ∀ {u home}, homes u = some home →
    ∃ row, db.lookup home.id = some row ∧ Houses o deps row home

/-! ## Steps -/

/-- What happens to the table. -/
inductive Event
  | registered (user : UserId) (reg : Registration o) (id : PushEndpointId)
  | refused
  | deleted (user : UserId) (id : PushEndpointId)
  | gone (id : PushEndpointId)
  | reached (id : PushEndpointId) (at_ : Time)

/-- One transaction of a registration, which commits or not; a user's removal of a device; and the
sender's removal of one, or its note of a success. -/
inductive Step : Devices → Event o → Devices → Prop
  | register {db db' : Devices} {user : UserId} {reg : Registration o} {id : PushEndpointId}
      (round : Round) (hbegin : round.db = db)
      (h : registerTx o deps user reg round = .ok (id, db')) : Step db (.registered user reg id) db'
  | refuse {db : Devices} {user : UserId} {reg : Registration o} {e : PushEndpointError}
      (round : Round) (hbegin : round.db = db)
      (h : registerTx o deps user reg round = .error e) : Step db .refused db
  | delete {db : Devices} (user : UserId) (id : PushEndpointId) :
      Step db (.deleted user id) (delete db user id).2
  | gone {db : Devices} (id : PushEndpointId) :
      Step db (.gone id) (PushEndpointRepo.deleteById db id)
  | reach {db : Devices} (id : PushEndpointId) (at_ : Time) :
      Step db (.reached id at_) (PushEndpointRepo.markSuccess db id at_)

variable {o}

/-- What an event makes of an endpoint's home. -/
def Event.home (u : o.urls.Url) (before : Option (Home o)) : Event o → Option (Home o)
  | .registered user reg id => if reg.endpoint = u then some ⟨user, id, reg⟩ else before
  | .deleted user id => before.filter fun home => ¬ (home.id = id ∧ home.user = user)
  | .gone id => before.filter fun home => home.id ≠ id
  | .refused | .reached _ _ => before

/-- The home of an endpoint: whoever registered it last, unless it was removed since. -/
def home (u : o.urls.Url) (es : List (Event o)) : Option (Home o) :=
  es.foldl (Event.home u) none

/-- What was registered. -/
def registered (es : List (Event o)) : List (Registration o) :=
  es.filterMap fun
    | .registered _ reg _ => some reg
    | _ => none

@[simp] lemma home_snoc (u : o.urls.Url) (es : List (Event o)) (e : Event o) :
    home u (es ++ [e]) = e.home u (home u es) := by
  rw [home, List.foldl_append]
  rfl

/-- A home is one of its endpoint, and was registered. -/
lemma of_home {u : o.urls.Url} {es : List (Event o)} {h : Home o} (hhome : home u es = some h) :
    h.reg.endpoint = u ∧ h.reg ∈ registered es := by
  induction es using List.reverseRecOn with
  | nil => cases hhome
  | append_singleton es e ih =>
    rw [home_snoc] at hhome
    rw [registered, List.filterMap_append, List.mem_append]
    cases e with
    | registered user reg id =>
      simp only [Event.home] at hhome
      split_ifs at hhome with hu
      · cases hhome
        exact ⟨hu, .inr (by simp)⟩
      · exact (ih hhome).imp_right .inl
    | refused => exact (ih hhome).imp_right .inl
    | deleted user id => exact (ih (Option.filter_eq_some_iff.mp hhome).1).imp_right .inl
    | gone id => exact (ih (Option.filter_eq_some_iff.mp hhome).1).imp_right .inl
    | reached id at_ => exact (ih hhome).imp_right .inl

/-! ## What a registration does -/

/-- The row is the new one's. -/
def Stores (row : PushEndpointRow) (new : NewPushEndpoint) : Prop :=
  row.user = new.user ∧ row.endpointHash = new.endpointHash ∧ row.endpoint = new.endpoint ∧
    row.p256dh = new.p256dh ∧ row.auth = new.auth

/-- An upsert writes the new row at its ID, where there was none or the one of the same user and
hash; the other rows have another user or hash. -/
lemma upsert_ok {db db' : Devices} {new : NewPushEndpoint} {now : Time} {id : PushEndpointId}
    (h : PushEndpointRepo.upsert db new now = .ok (id, db')) :
    id = new.id ∧
      (∃ row, Stores row new ∧ ∀ j, db'.lookup j = if j = id then some row else db.lookup j) ∧
      (∀ old, db.lookup id = some old →
        old.user = new.user ∧ old.endpointHash = new.endpointHash) ∧
      ∀ j row, db.lookup j = some row → row.user = new.user →
        row.endpointHash = new.endpointHash → j = id := by
  unfold PushEndpointRepo.upsert at h
  split at h
  · next k old hfound =>
    split_ifs at h with hk
    cases h
    obtain ⟨hlookup, hindex⟩ := IndexedTable.of_byIndex_eq_some hfound
    have hold : old.user = new.user ∧ old.endpointHash = new.endpointHash :=
      Prod.mk.injEq .. ▸ hindex
    refine ⟨hk, ⟨PushEndpointRepo.replaced new old, ⟨hold.1, hold.2, rfl, rfl, rfl⟩, fun j => ?_⟩,
      fun row hrow => ?_, fun j row hrow huser hhash => ?_⟩
    · rw [IndexedTable.lookup_updateWhere]
      by_cases hj : j = id
      · subst hj
        simp [hlookup]
      · simp [hj]
    · rw [hlookup] at hrow
      cases hrow
      exact hold
    · refine db.unique hrow hlookup ?_
      rw [PushEndpointRow.index, huser, hhash, hindex]
  · next hnone =>
    have hnone := IndexedTable.byIndex_eq_none.mp hnone
    split at h
    · next inserted hinsert =>
      cases h
      obtain ⟨hfree, -, hlookup⟩ := IndexedTable.of_insert?_eq_some hinsert
      refine ⟨rfl, ⟨_, ⟨rfl, rfl, rfl, rfl, rfl⟩, hlookup⟩, fun row hrow => ?_,
        fun j row hrow huser hhash => ?_⟩
      · rw [hfree] at hrow
        cases hrow
      · refine absurd ?_ (hnone j row hrow)
        rw [PushEndpointRow.index, huser, hhash]
    · cases h

variable {deps}

/-- The device's values are sealed for its row. -/
lemma sealDevice_ok {user : UserId} {reg : Registration o} {id : PushEndpointId} {round : Round}
    {new : NewPushEndpoint} (h : sealDevice o deps user reg id round = .ok new)
    {row : PushEndpointRow} (hrow : Stores row new) :
    new.id = id ∧ new.user = user ∧ new.endpointHash = reg.hash ∧
      Houses o deps row ⟨user, id, reg⟩ := by
  obtain ⟨endpoint, hendpoint, h⟩ := bind_eq_ok h
  obtain ⟨p256dh, hp256dh, h⟩ := bind_eq_ok h
  obtain ⟨auth, hauth, h⟩ := bind_eq_ok h
  cases h
  obtain ⟨huser, hhash, hrowEndpoint, hrowP256dh, hrowAuth⟩ := hrow
  refine ⟨rfl, rfl, rfl, huser, hhash, ?_, ?_, ?_⟩
  · rw [hrowEndpoint]
    exact open_sealParts (mapError_eq_ok hendpoint)
  · rw [hrowP256dh]
    exact open_sealParts (mapError_eq_ok hp256dh)
  · rw [hrowAuth]
    exact open_sealParts (mapError_eq_ok hauth)

/-- A registration puts the device's row at its ID, and the rows other users had for its hash are
gone.  The user had no other row for the hash, nor another one this ID. -/
lemma registerTx_ok {user : UserId} {reg : Registration o} {round : Round} {id : PushEndpointId}
    {db' : Devices} (h : registerTx o deps user reg round = .ok (id, db')) :
    (∃ row, Houses o deps row ⟨user, id, reg⟩ ∧ ∀ j, db'.lookup j =
      if j = id then some row
      else (round.db.lookup j).filter fun r => ¬ (r.endpointHash = reg.hash ∧ r.user ≠ user)) ∧
      (∀ old, round.db.lookup id = some old → old.user = user ∧ old.endpointHash = reg.hash) ∧
      ∀ j row, round.db.lookup j = some row → row.user = user → row.endpointHash = reg.hash →
        j = id := by
  obtain ⟨new, hseal, h⟩ := bind_eq_ok h
  obtain ⟨⟨id', db₁⟩, hupsert, h⟩ := bind_eq_ok h
  cases h
  obtain ⟨rfl, ⟨row, hstores, hlookup⟩, hold, hother⟩ := upsert_ok (mapError_eq_ok hupsert)
  obtain ⟨hid, rfl, hhash, hhouses⟩ := sealDevice_ok hseal hstores
  rw [hhash] at hold hother
  rw [← hid] at hhouses
  refine ⟨⟨row, hhouses, fun j => ?_⟩, hold, hother⟩
  rw [PushEndpointRepo.deleteForOtherUsers, IndexedTable.lookup_deleteWhere, hlookup]
  by_cases hj : j = new.id
  · subst hj
    simp [hhouses.user]
  · simp [hj]

/-! ## The homes along a run -/

variable {db db' : Devices}

/-- No two endpoints that were registered have one hash. -/
def CollisionFree (es : List (Event o)) : Prop :=
  ∀ reg ∈ registered es, ∀ reg' ∈ registered es, reg.hash = reg'.hash →
    reg.endpoint = reg'.endpoint

lemma hash_of_endpoint {reg reg' : Registration o} (h : reg.endpoint = reg'.endpoint) :
    reg.hash = reg'.hash := by
  have hreg := reg.hash_eq
  rw [h, reg'.hash_eq] at hreg
  exact (Option.some.inj hreg).symm

variable {es : List (Event o)}

/-- A removal of rows by their user or ID removes the homes that are theirs. -/
lemma Refines.filter {homes : o.urls.Url → Option (Home o)} (h : Refines o deps db homes)
    (p : PushEndpointId → UserId → Bool)
    (hlookup : ∀ j, db'.lookup j = (db.lookup j).filter fun row => p j row.user) :
    Refines o deps db' fun u => (homes u).filter fun home => p home.id home.user := by
  refine ⟨fun {id row} hrow => ?_, fun {u home} hhome => ?_⟩
  · rw [hlookup, Option.filter_eq_some_iff] at hrow
    obtain ⟨u, home, hhome, rfl, hhouses⟩ := h.of_row hrow.1
    refine ⟨u, home, Option.filter_eq_some_iff.mpr ⟨hhome, ?_⟩, rfl, hhouses⟩
    rw [← hhouses.user]
    exact hrow.2
  · obtain ⟨hhome, hp⟩ := Option.filter_eq_some_iff.mp hhome
    obtain ⟨row, hrow, hhouses⟩ := h.to_row hhome
    refine ⟨row, ?_, hhouses⟩
    rw [hlookup, hrow, Option.filter_some, hhouses.user, if_pos hp]

/-- The time of a success is nothing a home has. -/
lemma Houses.succeeded {row : PushEndpointRow} {home : Home o} (h : Houses o deps row home)
    (at_ : Time) : Houses o deps (PushEndpointRepo.succeeded at_ row) home :=
  ⟨h.user, h.hash, h.endpoint, h.p256dh, h.auth⟩

lemma Refines.reached {homes : o.urls.Url → Option (Home o)} (h : Refines o deps db homes)
    (id : PushEndpointId) (at_ : Time) :
    Refines o deps (PushEndpointRepo.markSuccess db id at_) homes := by
  have hlookup : ∀ j, (PushEndpointRepo.markSuccess db id at_).lookup j =
      (db.lookup j).map fun row => if j = id then PushEndpointRepo.succeeded at_ row else row := by
    intro j
    simp [PushEndpointRepo.markSuccess]
  have hhouses {row : PushEndpointRow} {home : Home o} (j : PushEndpointId)
      (h : Houses o deps row home) :
      Houses o deps (if j = id then PushEndpointRepo.succeeded at_ row else row) home := by
    split_ifs
    · exact h.succeeded at_
    · exact h
  refine ⟨fun {j row} hrow => ?_, fun {u home} hhome => ?_⟩
  · rw [hlookup, Option.map_eq_some_iff] at hrow
    obtain ⟨old, hold, rfl⟩ := hrow
    obtain ⟨u, home, hhome, hid, hold⟩ := h.of_row hold
    exact ⟨u, home, hhome, hid, hhouses j hold⟩
  · obtain ⟨row, hrow, hold⟩ := h.to_row hhome
    exact ⟨_, by rw [hlookup, hrow, Option.map_some], hhouses home.id hold⟩

/-- A registration moves the endpoint's home. -/
lemma Refines.register (h : Refines o deps db fun u => home u es) {user : UserId}
    {reg : Registration o} {round : Round} {id : PushEndpointId} (hbegin : round.db = db)
    (hfree : CollisionFree (es ++ [.registered user reg id]))
    (htx : registerTx o deps user reg round = .ok (id, db')) :
    Refines o deps db' fun u => (Event.registered user reg id).home u (home u es) := by
  obtain ⟨⟨row, hhouses, hlookup⟩, hold, hother⟩ := registerTx_ok htx
  rw [hbegin] at hlookup hold hother
  have hmem : reg ∈ registered (es ++ [.registered user reg id]) := by simp [registered]
  have hbefore {reg' : Registration o} (h : reg' ∈ registered es) :
      reg' ∈ registered (es ++ [.registered user reg id]) := by
    rw [registered, List.filterMap_append]
    exact List.mem_append_left _ h
  refine ⟨fun {j old} hj => ?_, fun {u at_} hhome => ?_⟩
  · rw [hlookup] at hj
    split_ifs at hj with hid
    · cases hj
      exact ⟨reg.endpoint, ⟨user, id, reg⟩, if_pos rfl, hid.symm, hhouses⟩
    · obtain ⟨hj, hkept⟩ := Option.filter_eq_some_iff.mp hj
      obtain ⟨u, at_, hhome, hat, hold'⟩ := h.of_row hj
      refine ⟨u, at_, ?_, hat, hold'⟩
      -- a row of this endpoint that is kept is the user's, and the user had none elsewhere
      have hu : reg.endpoint ≠ u := by
        rintro rfl
        have hhash : old.endpointHash = reg.hash :=
          hold'.hash.trans (hash_of_endpoint (of_home hhome).1)
        have huser : old.user = user := by
          by_contra hne
          simp [hhash, hne] at hkept
        exact hid (hother j old hj huser hhash)
      exact (if_neg hu).trans hhome
  · simp only [Event.home] at hhome
    split_ifs at hhome with hu
    · cases hhome
      exact ⟨row, by rw [hlookup, if_pos rfl], hhouses⟩
    · obtain ⟨old, hold', hhouses'⟩ := h.to_row hhome
      obtain ⟨hendpoint, hreg⟩ := of_home hhome
      have hhash : old.endpointHash ≠ reg.hash := by
        intro heq
        refine hu ?_
        rw [← hendpoint]
        exact hfree reg hmem at_.reg (hbefore hreg) (heq.symm.trans hhouses'.hash)
      have hid : at_.id ≠ id := by
        intro heq
        rw [heq] at hold'
        exact hhash (hold old hold').2
      exact ⟨old, by simp [hlookup, hid, hold', hhash], hhouses'⟩

lemma Step.refines {e : Event o} (hstep : Step o deps db e db')
    (hfree : CollisionFree (es ++ [e])) (h : Refines o deps db fun u => home u es) :
    Refines o deps db' fun u => home u (es ++ [e]) := by
  simp only [home_snoc]
  cases hstep with
  | register round hbegin htx => exact h.register hbegin hfree htx
  | refuse round hbegin htx => exact h
  | delete user id =>
    have hlookup : ∀ j, (PushEndpointRepo.delete db user id).2.lookup j =
        (db.lookup j).filter fun row => decide ¬ (j = id ∧ row.user = user) := by
      intro j
      simp [PushEndpointRepo.delete]
    exact h.filter (fun j owner => ¬ (j = id ∧ owner = user)) hlookup
  | gone id =>
    have hlookup : ∀ j, (PushEndpointRepo.deleteById db id).lookup j =
        (db.lookup j).filter fun _ => decide (j ≠ id) := by
      intro j
      by_cases hj : j = id
      · simp [PushEndpointRepo.deleteById, hj]
      · cases hrow : db.lookup j with
        | none => simp [PushEndpointRepo.deleteById, hj, hrow]
        | some row => simp [PushEndpointRepo.deleteById, hj, hrow, Option.filter_some]
    exact h.filter (fun j _ => j ≠ id) hlookup
  | reach id at_ => exact h.reached id at_

lemma refines_run (hrun : Run (Step o deps) .empty es db) (hfree : CollisionFree es) :
    Refines o deps db fun u => home u es := by
  induction hrun with
  | nil => exact ⟨fun {id row} hrow => by simp at hrow, fun {u at_} hhome => by cases hhome⟩
  | snoc run step ih =>
    refine step.refines hfree (ih fun reg hreg reg' hreg' => hfree reg ?_ reg' ?_)
    · rw [registered, List.filterMap_append]
      exact List.mem_append_left _ hreg
    · rw [registered, List.filterMap_append]
      exact List.mem_append_left _ hreg'

/-! ## Sending -/

/-- A home's row opens to what was registered. -/
lemma Houses.openRow {row : PushEndpointRow} {home : Home o} (h : Houses o deps row home) :
    openRow o deps home.id row =
      .ok { p256dh := home.reg.p256dh, auth := home.reg.auth, url := home.reg.endpoint } := by
  have hendpoint : deps.vault.open_ o.cipher o.codec row.endpoint _ = _ := h.endpoint
  have hp256dh : deps.vault.open_ o.cipher o.codec row.p256dh _ = _ := h.p256dh
  have hauth : deps.vault.open_ o.cipher o.codec row.auth _ = _ := h.auth
  simp only [Push.openRow, openFor, hendpoint, hp256dh, hauth, Except.mapError, bind, Except.bind,
    o.urls.parse_asStr, Base64.decode_encode, orMalformed, Option.elim_some, pure, Except.pure]

/-- What a job sends is of the device's user. -/
lemma of_outgoing {notifications : Notifications} {locales : Table UserId String} {job : PushSend}
    {sender : Option o.primitives.SecretKey} {salt : Option Ece.Salt} {out : Outgoing o}
    (h : outgoing o deps db notifications locales job sender salt = .ok (some out)) :
    ∃ row device, db.lookup job.endpoint = some row ∧
      openRow o deps job.endpoint row = .ok device ∧ out.url = device.url ∧
      out.notification.id = job.notification ∧
      notifications.lookup job.notification = some (row.user, out.notification.notice) := by
  unfold outgoing at h
  split_ifs at h
  · split at h
    · cases h
    · next row notification hread =>
      obtain ⟨device, hopen, h⟩ := bind_eq_ok h
      obtain ⟨body, -, h⟩ := bind_eq_ok h
      cases h
      unfold readJob at hread
      split at hread
      · cases hread
      · next row' hrow =>
        obtain ⟨n, hn, heq⟩ := Option.map_eq_some_iff.mp hread
        cases heq
        unfold getForUser at hn
        split at hn
        · next owner notice hlookup =>
          split_ifs at hn with howner
          cases hn
          exact ⟨row, device, hrow, hopen, rfl, rfl, howner ▸ hlookup⟩
        · cases hn
  · cases h

end Homes

/-- A registration that succeeds is a step from where one of its two rounds began, of what was
checked of the device. -/
theorem register_step {o : Outside} {deps : Deps} {user : UserId} {device : NewDevice}
    {first second : Round} {id : PushEndpointId} {db' : Devices}
    (h : register o deps user device first second = .ok (id, db')) :
    ∃ reg, validate o deps device = .ok reg ∧ ∃ round ∈ [first, second],
      Step o deps round.db (.registered user reg id) db' := by
  obtain ⟨reg, hreg, h⟩ := bind_eq_ok h
  refine ⟨reg, hreg, ?_⟩
  have hrounds : ∀ (rounds : List Round) (last : Option DataError),
      registerRounds o deps user reg last rounds = .ok (id, db') →
      ∃ round ∈ rounds, registerTx o deps user reg round = .ok (id, db') := by
    intro rounds
    induction rounds with
    | nil =>
      intro last h
      cases h
    | cons round rounds ih =>
      intro last h
      unfold registerRounds at h
      split at h
      · obtain ⟨round', hmem, htx⟩ := ih _ h
        exact ⟨round', List.mem_cons_of_mem _ hmem, htx⟩
      · exact ⟨round, List.mem_cons_self, h⟩
  obtain ⟨round, hmem, htx⟩ := hrounds _ _ h
  exact ⟨round, hmem, .register round rfl htx⟩

/-- **One device, one user.**  Whatever is registered, removed and reported gone, and in whichever
order, a row is that of an endpoint's home, and a home has its row; an endpoint has one row at most;
a user who registers an endpoint that is registered keeps its ID; and what a job sends to an
endpoint is its user's notification. -/
theorem one_user_per_device (o : Outside) (deps : Deps) {es : List (Event o)} {db : Devices}
    (hrun : Run (Step o deps) .empty es db) (hfree : CollisionFree es) :
    (∀ id row, db.lookup id = some row →
      ∃ u h, home u es = some h ∧ h.id = id ∧ Houses o deps row h) ∧
    (∀ u h, home u es = some h → ∃ row, db.lookup h.id = some row ∧ Houses o deps row h) ∧
    (∀ u id row id' row', db.lookup id = some row → db.lookup id' = some row' →
      Opens o deps id row.endpoint "endpoint" (o.urls.asStr u) →
      Opens o deps id' row'.endpoint "endpoint" (o.urls.asStr u) → id = id') ∧
    (∀ before user reg id after h, es = before ++ .registered user reg id :: after →
      home reg.endpoint before = some h → h.user = user → id = h.id) ∧
    ∀ notifications locales job sender salt out,
      outgoing o deps db notifications locales job sender salt = .ok (some out) →
      ∃ h, home out.url es = some h ∧ h.id = job.endpoint ∧
        notifications.lookup job.notification = some (h.user, out.notification.notice) := by
  have hrefines := refines_run hrun hfree
  have hendpoint {id row u} (hrow : db.lookup id = some row)
      (hopens : Opens o deps id row.endpoint "endpoint" (o.urls.asStr u)) :
      ∃ h, home u es = some h ∧ h.id = id := by
    obtain ⟨v, h, hhome, rfl, hhouses⟩ := hrefines.of_row hrow
    have hname : o.urls.asStr h.reg.endpoint = o.urls.asStr u :=
      Except.ok.inj (hhouses.endpoint.symm.trans hopens)
    obtain rfl : u = v := (o.urls.asStr_injective hname).symm.trans (of_home hhome).1
    exact ⟨h, hhome, rfl⟩
  refine ⟨fun id row => hrefines.of_row, fun u h => hrefines.to_row,
    fun u id row id' row' hrow hrow' hopens hopens' => ?_,
    fun before user reg id after h heq hhome huser => ?_,
    fun notifications locales job sender salt out hout => ?_⟩
  · obtain ⟨h, hhome, rfl⟩ := hendpoint hrow hopens
    obtain ⟨h', hhome', rfl⟩ := hendpoint hrow' hopens'
    rw [hhome] at hhome'
    cases hhome'
    rfl
  · subst heq
    have hsub {r : Registration o} (hr : r ∈ registered before) :
        r ∈ registered (before ++ .registered user reg id :: after) := by
      rw [registered, List.filterMap_append]
      exact List.mem_append_left _ hr
    obtain ⟨db₁, db₂, hrun₁, hstep, -⟩ := hrun.of_middle
    have hbefore := refines_run hrun₁ fun r hr r' hr' => hfree r (hsub hr) r' (hsub hr')
    obtain ⟨row, hrow, hhouses⟩ := hbefore.to_row hhome
    cases hstep with | register round hbegin htx =>
    subst hbegin
    refine ((registerTx_ok htx).2.2 h.id row hrow (hhouses.user.trans huser) ?_).symm
    exact hhouses.hash.trans (hash_of_endpoint (of_home hhome).1)
  · obtain ⟨row, device, hrow, hopen, hurl, -, hlookup⟩ := of_outgoing hout
    obtain ⟨u, h, hhome, hid, hhouses⟩ := hrefines.of_row hrow
    rw [← hid, hhouses.openRow] at hopen
    cases hopen
    rw [(of_home hhome).1] at hurl
    exact ⟨h, hurl ▸ hhome, hid, hhouses.user ▸ hlookup⟩

/-! ### A registered browser -/

section Calls

/-- What a cipher does at an input: key, nonce and associated data, message, and ciphertext. -/
abbrev Call := (Bytes × Bytes × Bytes) × Bytes × Bytes

/-- Calls one cipher may answer so, none of them with a tag of zeros. -/
structure Answerable (calls : List Call) : Prop where
  length : ∀ call ∈ calls, call.2.2.length = call.2.1.length + 16
  injective : ∀ call ∈ calls, ∀ call' ∈ calls, call.1 = call'.1 → call.2.2 = call'.2.2 →
    call.2.1 = call'.2.1
  tag : ∀ call ∈ calls, call.2.2.drop (call.2.2.length - 16) ≠ List.replicate 16 0

/-- A cipher that answers some calls as told; elsewhere the tag is sixteen zeros. -/
def callsCipher (calls : List Call) (h : Answerable calls) : Sealing.Cipher where
  encrypt key nonce msg aad :=
    match calls.find? fun call => call.1 = (key, nonce, aad) ∧ call.2.1 = msg with
    | some call => some call.2.2
    | none => some (msg ++ List.replicate 16 0)
  decrypt key nonce msg aad :=
    match calls.find? fun call => call.1 = (key, nonce, aad) ∧ call.2.2 = msg with
    | some call => some call.2.1
    | none =>
      if msg.drop (msg.length - 16) = List.replicate 16 0 then some (msg.take (msg.length - 16))
      else none
  limit := 2 ^ 38
  dekLen_le_limit := by decide
  encrypt_isSome key nonce msg aad _ := by
    split <;> rfl
  length_encrypt {key nonce msg aad sealed} hsealed := by
    split at hsealed
    · next call hfind =>
      obtain ⟨hmem, -, hmsg⟩ := Sealing.of_find? hfind
      cases hsealed
      rw [h.length call hmem, hmsg]
    · cases hsealed
      simp
  decrypt_encrypt {key nonce msg aad sealed} hsealed := by
    split at hsealed
    · next call hfind =>
      obtain ⟨hmem, hkey, hmsg⟩ := Sealing.of_find? hfind
      cases hsealed
      split
      · next call' hfind' =>
        obtain ⟨hmem', hkey', hsealed⟩ := Sealing.of_find? hfind'
        rw [h.injective call' hmem' call hmem (hkey'.trans hkey.symm) hsealed, hmsg]
      · next hnone =>
        have := List.find?_eq_none.mp hnone call hmem
        simp [hkey] at this
    · cases hsealed
      split
      · next call' hfind' =>
        obtain ⟨hmem', -, hsealed⟩ := Sealing.of_find? hfind'
        have := h.tag call' hmem'
        rw [hsealed] at this
        simp at this
      · simp

end Calls

def endpointText : Str := "https://push.example/1".toList

def p256dhText : Str := Base64.encode Party.subscriber.point

def authText : Str := Base64.encode sampleDevice.auth

def browserId : PushEndpointId :=
  ⟨bytesOf 16 0x0192b8f0000070008000000000000001, by decide⟩

/-- The JSON of a text. -/
def jsonText (text : Str) : Bytes := (JsonStrings.quoted text).toUtf8

/-- The associated data of a column of the browser's row. -/
def browserAad (column : String) : Bytes :=
  (Sealing.associatedData (PushEndpointRepo.sealContext browserId column)).toOption.getD []

def browserDraws (n : ℕ) : Draws :=
  { dek := ⟨List.replicate 32 (UInt8.ofNat (0x10 + n)), by simp⟩
    wrapNonce := ⟨List.replicate 24 (UInt8.ofNat (0x20 + n)), by simp⟩
    dataNonce := ⟨List.replicate 24 (UInt8.ofNat (0x30 + n)), by simp⟩ }

/-- The two calls that seal a text for a column. -/
def sealCalls (column : String) (text : Str) (n : ℕ) (wrapped ciphertext : Bytes) : List Call :=
  [(((Sealing.sampleKey 1).1, (browserDraws n).wrapNonce.1, browserAad column),
      (browserDraws n).dek.1, wrapped),
    (((browserDraws n).dek.1, (browserDraws n).dataNonce.1, browserAad column), jsonText text,
      ciphertext)]

/-- What XChaCha20-Poly1305 does as the browser is registered. -/
def browserCalls : List Call :=
  sealCalls "endpoint" endpointText 1
    (bytesOf 32 0x62bc223ee7da75847458431a48a5c8155955cc7178ad41a411f73c11c20de70d ++
      bytesOf 16 0xce2b420f73f05f7c5df758239034952a)
    (bytesOf 32 0x8fce14dc6abbe6ba6cbd359c252846ccbdecaa62b56a0d8da1c9b203839032da ++
      bytesOf 8 0xe55d6562f178bbb9) ++
  sealCalls "p256dh" p256dhText 2
    (bytesOf 32 0xc6cd0495591345751800abf75b1fc8b861bea94c6b3b72439a1952c76b9d56aa ++
      bytesOf 16 0xfc357b83a285842305c7f755c2de12ad)
    (bytesOf 32 0x52d9bd952ead79c0a2c4b349ee0a1eb35ed7025ffbd939d761a5b49de51ac494 ++
      bytesOf 32 0x5872d58147bbd7398db5d70737e793b5731932b4ec1425f894bd684125758455 ++
      bytesOf 32 0x3e7c6663dd456337668842b2eaafe7bd80bf713867fed751bbef4efd109e1b4b ++
      bytesOf 9 0x0720fe338714dbe96a) ++
  sealCalls "auth" authText 3
    (bytesOf 32 0x0fefee73970bdda679df56c3ffe05c3bdc3bcb2bf99a1df38e6ea92cd957fd80 ++
      bytesOf 16 0x3750dfb08fd377193d52edd3d39f4508)
    (bytesOf 32 0xe3b0096ceac52aacb4290f9315127c26105351a0038be1107635801e061882cc ++
      bytesOf 8 0xa392f1be7ce62a5e)

lemma answerable_browserCalls : Answerable browserCalls :=
  ⟨by decide, by decide, by decide⟩

/-- JSON, of the three texts. -/
def textCodec : Sealing.Codec Str where
  toVec text :=
    if text = endpointText ∨ text = p256dhText ∨ text = authText then some (jsonText text) else none
  fromSlice bytes := [endpointText, p256dhText, authText].find? fun text => jsonText text = bytes
  fromSlice_toVec {text bytes} h := by
    have hfind : ∀ text ∈ [endpointText, p256dhText, authText],
        [endpointText, p256dhText, authText].find? (fun t => jsonText t = jsonText text) =
          some text := by decide
    split_ifs at h with hmem
    cases h
    exact hfind text (by simpa using hmem)

/-- The one URL. -/
def browserUrls : Urls where
  Url := Unit
  decEq := inferInstance
  parse text := if text = endpointText then some () else none
  asStr _ := endpointText
  scheme _ := "https"
  host _ := some (.domain "push.example")
  username _ := ""
  password _ := none
  fragment _ := none
  parse_asStr _ := rfl

def endpointHash : EndpointHash :=
  ⟨bytesOf 32 0x5ba15fff965f44afa55aa4fa4d52b94b0ba86380a161089ddca9b9d08bef9ef6,
    by decide⟩

def browserOutside : Outside where
  primitives := samplePrimitives
  urls := browserUrls
  sha256 bytes := if bytes = endpointText.toUtf8 then some endpointHash else none
  cipher := callsCipher browserCalls answerable_browserCalls
  codec := textCodec

def browserDeps : Deps := { vault := Sealing.sampleOld, keys := true, allowPrivate := false }

def browserReg : Registration browserOutside where
  endpoint := ()
  hash := endpointHash
  hash_eq := by
    show (if endpointText.toUtf8 = endpointText.toUtf8 then some endpointHash else none) = _
    exact if_pos rfl
  p256dh := Party.subscriber.point
  auth := sampleDevice.auth
  platform := .web
  deviceLabel := "Laptop".toList

def browserRound : Round :=
  { db := .empty, fresh := browserId, endpoint := browserDraws 1, p256dh := browserDraws 2,
    auth := browserDraws 3, now := 0 }

theorem one_user_per_device_sample :
    ∃ db row, Run (Step browserOutside browserDeps) .empty [.registered 1 browserReg browserId] db ∧
      db.lookup browserId = some row ∧
      Houses browserOutside browserDeps row ⟨1, browserId, browserReg⟩ := by
  have hid : (registerTx browserOutside browserDeps 1 browserReg browserRound).toOption.map
      Prod.fst = some browserId := by decide
  obtain ⟨⟨_, db⟩, htx, hid⟩ := Option.map_eq_some_iff.mp hid
  obtain rfl := hid.symm
  have hrun : Run (Step browserOutside browserDeps) .empty
      [.registered 1 browserReg browserId] db :=
    .single (.register browserRound rfl (ok_of_toOption htx))
  have hfree : CollisionFree [Event.registered 1 browserReg browserId] := fun _ _ _ _ _ => rfl
  obtain ⟨row, hrow, hhouses⟩ := (one_user_per_device browserOutside browserDeps hrun hfree).2.1 ()
    ⟨1, browserId, browserReg⟩ rfl
  exact ⟨db, row, hrun, hrow, hhouses⟩

end Postit.Push
