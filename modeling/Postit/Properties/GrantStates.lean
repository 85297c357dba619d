import Postit.Accounts.Changes
import Postit.Framework.Trace

/-!
# Revoked grants and their accounts

A grant keeps its credential until it is revoked, an account works only while its grant does, and
a revoked grant stays revoked, in every run that marks no revoked grant as needing a reconnect
(`states_consistent`).  That mark has no guard for the owner and the worker, and brings a revoked
grant back (`revoked_brought_back`).
-/

namespace Postit.Accounts

open Postit.Data (UserId PlatformId AccountId)
open Postit.Framework

variable {κ : Type}

/-! ## The invariant -/

/-- An account's status fits its grant's. -/
structure Fits (grant : GrantStatus) (account : AccountStatus) : Prop where
  connected : account ≠ .disconnected
  works : account = .active → grant = .active
  revoked : grant = .revoked → account = .revoked

/-- The account is on no grant and disconnected, or on a grant of its owner that it fits. -/
def Db.AccountOk (s : Db κ) (a : Account) : Prop :=
  (a.grantId = none ∧ a.status = .disconnected) ∨
    ∃ id g, a.grantId = some id ∧ s.grants.lookup id = some g ∧ g.ownerId = a.ownerId ∧
      Fits g.status a.status

lemma Db.AccountOk.mono {s t : Db κ} {a : Account} (h : s.AccountOk a)
    (hgrants : ∀ id g, a.grantId = some id → s.grants.lookup id = some g →
      ∃ g', t.grants.lookup id = some g' ∧ g'.ownerId = g.ownerId ∧ g'.status = g.status) :
    t.AccountOk a := by
  rcases h with hloose | ⟨id, g, hon, hg, howner, hfits⟩
  · exact .inl hloose
  · obtain ⟨g', hg', howner', hstatus⟩ := hgrants id g hon hg
    exact .inr ⟨id, g', hon, hg', howner'.trans howner, hstatus ▸ hfits⟩

/-- The credential is absent exactly when the grant is revoked. -/
def Grant.Sound (g : Grant κ) : Prop := g.credential = none ↔ g.status = .revoked

structure Db.Inv (s : Db κ) : Prop where
  fresh : ∀ id g, s.grants.lookup id = some g → id < s.nextGrant
  sound : ∀ id g, s.grants.lookup id = some g → g.Sound
  accounts : ∀ k a, s.accounts.lookup k = some a → s.AccountOk a

/-- Every grant is new or was there before, and stays revoked if it was. -/
def GrantsFrom (s t : Db κ) : Prop :=
  s.nextGrant ≤ t.nextGrant ∧ ∀ id g', t.grants.lookup id = some g' →
    s.nextGrant ≤ id ∨
      ∃ g, s.grants.lookup id = some g ∧ (g.status = .revoked → g'.status = .revoked)

lemma GrantsFrom.refl (s : Db κ) : GrantsFrom s s := ⟨le_rfl, fun _ g h => .inr ⟨g, h, id⟩⟩

variable {s t u : Db κ}

lemma GrantsFrom.trans (h : GrantsFrom s t) (h' : GrantsFrom t u) : GrantsFrom s u := by
  refine ⟨h.1.trans h'.1, fun id g'' hg'' => ?_⟩
  rcases h'.2 id g'' hg'' with hnew | ⟨g', hg', hkeeps'⟩
  · exact .inl (h.1.trans hnew)
  · rcases h.2 id g' hg' with hnew | ⟨g, hg, hkeeps⟩
    · exact .inl hnew
    · exact .inr ⟨g, hg, fun hrevoked => hkeeps' (hkeeps hrevoked)⟩

/-- What every operation keeps. -/
structure Onward (s t : Db κ) : Prop where
  inv : t.Inv
  grants : GrantsFrom s t

lemma Onward.trans (h : Onward s t) (h' : t.Inv → Onward t u) : Onward s u :=
  ⟨(h' h.inv).inv, h.grants.trans (h' h.inv).grants⟩

/-! ## Statements -/

lemma lookup_updateAccounts {p : AccountId → Account → Bool} {f : Account → Account}
    {k : AccountId} :
    (s.updateAccounts p f).accounts.lookup k =
      (s.accounts.lookup k).map fun a => if p k a then f a else a :=
  s.accounts.lookup_updateWhere p f k

/-- Grants change in place, and each account fits the grants as they are then. -/
lemma Db.Inv.update (h : s.Inv) {p : GrantId → Grant κ → Bool} {f : Grant κ → Grant κ}
    {q : AccountId → Account → Bool} {f' : Account → Account}
    (hsound : ∀ id g, s.grants.lookup id = some g → p id g = true →
      (f g).Sound ∧ (g.status = .revoked → (f g).status = .revoked))
    (haccounts : ∀ k a, s.accounts.lookup k = some a →
      (s.updateGrants p f).AccountOk (if q k a then f' a else a)) :
    Onward s ((s.updateGrants p f).updateAccounts q f') := by
  have hgrants : ∀ id g', (s.updateGrants p f).grants.lookup id = some g' →
      ∃ g, s.grants.lookup id = some g ∧ g'.Sound ∧
        (g.status = .revoked → g'.status = .revoked) := by
    intro id g' hg'
    rw [lookup_updateGrants] at hg'
    obtain ⟨g, hg, rfl⟩ := Option.map_eq_some_iff.mp hg'
    refine ⟨g, hg, ?_⟩
    split_ifs with hp
    · exact hsound id g hg hp
    · exact ⟨h.sound id g hg, fun hrevoked => hrevoked⟩
  refine ⟨⟨fun id g' hg' => ?_, fun id g' hg' => ?_, fun k a' ha' => ?_⟩, le_rfl,
    fun id g' hg' => ?_⟩
  · obtain ⟨g, hg, -⟩ := hgrants id g' hg'
    exact h.fresh id g hg
  · obtain ⟨g, -, hs, -⟩ := hgrants id g' hg'
    exact hs
  · rw [lookup_updateAccounts] at ha'
    obtain ⟨a, ha, rfl⟩ := Option.map_eq_some_iff.mp ha'
    exact haccounts k a ha
  · obtain ⟨g, hg, -, hkeeps⟩ := hgrants id g' hg'
    exact .inr ⟨g, hg, hkeeps⟩

/-- Only accounts change. -/
lemma Db.Inv.updateAccounts (h : s.Inv) {q : AccountId → Account → Bool} {f : Account → Account}
    (haccounts : ∀ k a, s.accounts.lookup k = some a → q k a = true → s.AccountOk (f a)) :
    Onward s (s.updateAccounts q f) := by
  refine ⟨⟨h.fresh, h.sound, fun k a' ha' => ?_⟩, GrantsFrom.refl s⟩
  rw [lookup_updateAccounts] at ha'
  obtain ⟨a, ha, rfl⟩ := Option.map_eq_some_iff.mp ha'
  split_ifs with hq
  · exact haccounts k a ha hq
  · exact h.accounts k a ha

/-- A grant that is not revoked goes to `needs_reconnect`, with the accounts on it. -/
lemma Db.Inv.needsReconnect (h : s.Inv) {id : GrantId} {grant : Grant κ}
    (hgrant : s.grants.lookup id = some grant) (hstatus : grant.status ≠ .revoked)
    {q : AccountId → Account → Bool}
    (hq : ∀ k a, q k a = true → a.grantId = some id ∧ a.status ≠ .disconnected)
    (hall : ∀ k a, a.grantId = some id → a.ownerId = grant.ownerId → a.status = .active →
      q k a = true) :
    Onward s ((s.updateGrants (fun k _ => k = id) ({ · with status := .needsReconnect })).updateAccounts
      q ({ · with status := .needsReconnect })) := by
  refine h.update (fun k g hg hk => ?_) fun k a ha => ?_
  · obtain rfl : k = id := of_decide_eq_true hk
    obtain rfl := Option.some.inj (hgrant.symm.trans hg)
    refine ⟨?_, fun hrevoked => absurd hrevoked hstatus⟩
    simpa [Grant.Sound, hstatus] using h.sound k grant hgrant
  · rcases h.accounts k a ha with ⟨hloose, hdisconnected⟩ | ⟨id', g, hon, hg, howner, hfits⟩
    · have hnot : q k a ≠ true := fun hqa => (hq k a hqa).2 hdisconnected
      rw [if_neg hnot]
      exact .inl ⟨hloose, hdisconnected⟩
    · by_cases hid : id' = id
      · subst hid
        obtain rfl := Option.some.inj (hgrant.symm.trans hg)
        refine .inr ⟨id', { grant with status := .needsReconnect }, ?_, ?_, ?_, ?_⟩
        · split_ifs <;> exact hon
        · rw [lookup_updateGrants, hg]
          simp
        · split_ifs <;> exact howner
        · split_ifs with hqa
          · exact ⟨by simp, by simp, by simp⟩
          · refine ⟨hfits.connected, fun hactive => ?_, by simp⟩
            exact absurd (hall k a hon howner.symm hactive) hqa
      · have hnot : q k a ≠ true := fun hqa =>
          hid (Option.some.inj (hon.symm.trans (hq k a hqa).1))
        rw [if_neg hnot]
        refine .inr ⟨id', g, hon, ?_, howner, hfits⟩
        rw [lookup_updateGrants, hg]
        simp [hid]

lemma Db.Inv.setStatus (h : s.Inv) {owner : UserId} {id : GrantId} {previous : GrantStatus}
    (hok : GrantRepo.setStatus s owner id .needsReconnect = .ok (t, previous))
    (hstatus : ∀ g, s.grants.lookup id = some g → g.ownerId = owner → g.status ≠ .revoked) :
    Onward s t := by
  unfold GrantRepo.setStatus at hok
  split at hok
  · cases hok
  · next grant hgrant =>
    split_ifs at hok with howner
    obtain ⟨rfl, -⟩ := Prod.mk.inj (Except.ok.inj hok)
    refine h.needsReconnect hgrant (hstatus grant hgrant howner) (fun k a hqa => ?_)
      fun k a hon hsame hactive => ?_
    · obtain ⟨-, hon, hconnected⟩ := of_decide_eq_true hqa
      exact ⟨hon, hconnected⟩
    · exact decide_eq_true ⟨hsame.trans howner, hon, by simp [hactive]⟩

lemma Db.Inv.refused (h : s.Inv) (id : GrantId) : Onward s (GrantRepo.markNeedsReconnect s id) := by
  unfold GrantRepo.markNeedsReconnect
  split
  · exact ⟨h, GrantsFrom.refl s⟩
  · next grant hgrant =>
    split_ifs with hstatus
    · refine h.needsReconnect hgrant hstatus (fun k a hqa => ?_) fun k a hon _ hactive => ?_
      · obtain ⟨hon, hconnected, -⟩ := of_decide_eq_true hqa
        exact ⟨hon, hconnected⟩
      · exact decide_eq_true ⟨hon, by simp [hactive], by simp [hactive]⟩
    · exact ⟨h, GrantsFrom.refl s⟩

lemma Db.Inv.storeTokens (h : s.Inv) {id : GrantId} {credential : κ} {expiresAt : Option Time}
    (hok : GrantRepo.storeTokens s id credential expiresAt = .ok t) : Onward s t := by
  unfold GrantRepo.storeTokens at hok
  split at hok
  · cases hok
  · next grant hgrant =>
    split_ifs at hok with hstatus
    obtain rfl := Except.ok.inj hok
    have hgrants : ∀ k g', (s.updateGrants (fun k _ => k = id)
        ({ · with credential := some credential, expiresAt })).grants.lookup k = some g' →
        ∃ g, s.grants.lookup k = some g ∧ g'.Sound ∧ g'.status = g.status := by
      intro k g' hg'
      rw [lookup_updateGrants] at hg'
      obtain ⟨g, hg, rfl⟩ := Option.map_eq_some_iff.mp hg'
      refine ⟨g, hg, ?_⟩
      split_ifs with hk
      · obtain rfl : k = id := of_decide_eq_true hk
        obtain rfl := Option.some.inj (hgrant.symm.trans hg)
        exact ⟨by simpa [Grant.Sound] using hstatus, rfl⟩
      · exact ⟨h.sound k g hg, rfl⟩
    refine ⟨⟨fun k g' hg' => ?_, fun k g' hg' => ?_, fun k a ha => ?_⟩, le_rfl, fun k g' hg' => ?_⟩
    · obtain ⟨g, hg, -⟩ := hgrants k g' hg'
      exact h.fresh k g hg
    · obtain ⟨g, -, hsound, -⟩ := hgrants k g' hg'
      exact hsound
    · refine (h.accounts k a ha).mono fun k g _ hg => ?_
      rw [lookup_updateGrants, hg]
      refine ⟨_, rfl, ?_⟩
      split_ifs <;> exact ⟨rfl, rfl⟩
    · obtain ⟨g, hg, -, hsame⟩ := hgrants k g' hg'
      exact .inr ⟨g, hg, fun hrevoked => hsame.trans hrevoked⟩

lemma Db.Inv.revokeAll (h : s.Inv) (grants : List GrantId) :
    Onward s (GrantRepo.revokeAll s grants) := by
  refine h.update (fun k g _ _ => ⟨by simp [Grant.Sound], fun _ => rfl⟩) fun k a ha => ?_
  rcases h.accounts k a ha with ⟨hloose, hdisconnected⟩ | ⟨id, g, hon, hg, howner, hfits⟩
  · rw [if_neg (by simp [hloose])]
    exact .inl ⟨hloose, hdisconnected⟩
  by_cases hin : id ∈ grants
  · refine .inr ⟨id, { g with status := .revoked, credential := none }, ?_, ?_, ?_, ?_⟩
    · split_ifs <;> exact hon
    · rw [lookup_updateGrants, hg]
      simp [hin]
    · split_ifs <;> exact howner
    · split_ifs with hq
      · exact ⟨by simp, by simp, by simp⟩
      · have hrevoked : a.status = .revoked := by simpa [hon, hin, hfits.connected] using hq
        rw [hrevoked]
        exact ⟨by simp, by simp, by simp⟩
  · rw [if_neg (by simp [hon, hin])]
    refine .inr ⟨id, g, hon, ?_, howner, hfits⟩
    rw [lookup_updateGrants, hg]
    simp [hin]

lemma Db.Inv.markAccount (h : s.Inv) (owner : UserId) (id : AccountId) :
    Onward s (AccountRepo.markNeedsReconnect s owner id) := by
  refine h.updateAccounts fun k a ha hq => ?_
  obtain ⟨-, -, hactive⟩ := of_decide_eq_true hq
  rcases h.accounts k a ha with ⟨-, hdisconnected⟩ | ⟨g, grant, hon, hg, howner, hfits⟩
  · rw [hactive] at hdisconnected
    cases hdisconnected
  · refine .inr ⟨g, grant, hon, hg, howner, by simp, by simp, fun hrevoked => ?_⟩
    have := hfits.works hactive
    rw [hrevoked] at this
    cases this

lemma Db.Inv.markActive (h : s.Inv) (owner : UserId) (id : AccountId) :
    Onward s (AccountRepo.markActive s owner id) := by
  refine h.updateAccounts fun k a _ hq => ?_
  obtain ⟨-, -, -, hexists⟩ := of_decide_eq_true hq
  obtain ⟨g, grant, hg, hcond⟩ := Table.exists?_eq_true.mp hexists
  obtain ⟨hon, howner, hactive⟩ := of_decide_eq_true hcond
  exact .inr ⟨g, grant, hon, hg, howner, by simp, fun _ => hactive, by simp [hactive]⟩

lemma Db.Inv.disconnect (h : s.Inv) {owner : UserId} {id : AccountId}
    (hok : AccountRepo.disconnect s owner id = .ok t) : Onward s t := by
  unfold AccountRepo.disconnect at hok
  split at hok
  · cases hok
  · split_ifs at hok
    obtain rfl := Except.ok.inj hok
    exact h.updateAccounts fun k a _ _ => .inl ⟨rfl, rfl⟩

lemma Db.Inv.deleteIfUnused (h : s.Inv) (owner : UserId) (id : GrantId) :
    Onward s (GrantRepo.deleteIfUnused s owner id) := by
  unfold GrantRepo.deleteIfUnused
  split
  · exact ⟨h, GrantsFrom.refl s⟩
  · split_ifs with hunused
    · have hlookup : ∀ k g, (s.grants.erase id).lookup k = some g →
          s.grants.lookup k = some g := by
        intro k g hg
        by_cases hk : k = id
        · rw [hk, AList.lookup_erase] at hg
          cases hg
        · rwa [AList.lookup_erase_ne hk] at hg
      refine ⟨⟨fun k g hg => h.fresh k g (hlookup k g hg),
        fun k g hg => h.sound k g (hlookup k g hg), fun k a ha => ?_⟩, le_rfl,
        fun k g hg => .inr ⟨g, hlookup k g hg, fun hrevoked => hrevoked⟩⟩
      refine (h.accounts k a ha).mono fun k' g hon hg => ⟨g, ?_, rfl, rfl⟩
      have hother : k' ≠ id := by
        rintro rfl
        exact hunused.2 (Table.exists?_eq_true.mpr ⟨k, a, ha, decide_eq_true hon⟩)
      rwa [AList.lookup_erase_ne hother]
    · exact ⟨h, GrantsFrom.refl s⟩

/-! ## Connecting -/

lemma Db.Inv.store (h : s.Inv) {key : AccountId} {row : Account} (hrow : s.AccountOk row)
    (hok : AccountRepo.store s key row = .ok t) : Onward s t ∧ t.grants = s.grants := by
  unfold AccountRepo.store at hok
  split at hok
  · cases hok
  · obtain rfl := Except.ok.inj hok
    refine ⟨⟨⟨h.fresh, h.sound, fun k a ha => ?_⟩, GrantsFrom.refl s⟩, rfl⟩
    by_cases hk : k = key
    · subst hk
      rw [AList.lookup_insert] at ha
      exact Option.some.inj ha ▸ hrow
    · rw [AList.lookup_insert_ne hk] at ha
      exact h.accounts k a ha

/-- The grant is active and the owner's. -/
def Db.Holds (s : Db κ) (owner : UserId) (id : GrantId) : Prop :=
  ∃ g, s.grants.lookup id = some g ∧ g.ownerId = owner ∧ g.status = .active

lemma Db.Holds.account {owner : UserId} {grant : GrantId} (h : s.Holds owner grant) {a : Account}
    (howner : a.ownerId = owner) (hon : a.grantId = some grant) (hactive : a.status = .active) :
    s.AccountOk a := by
  obtain ⟨g, hg, hsame, hstatus⟩ := h
  refine .inr ⟨grant, g, hon, hg, hsame.trans howner.symm, ?_⟩
  rw [hactive]
  exact ⟨by simp, fun _ => hstatus, by simp [hstatus]⟩

lemma Db.Inv.insertOrReactivate (h : s.Inv) {owner : UserId} {grant : GrantId}
    (hholds : s.Holds owner grant) {platform : PlatformId} {remote : String}
    {upsert : AccountUpsert}
    (hok : AccountRepo.insertOrReactivate s owner grant platform remote = .ok (t, upsert)) :
    Onward s t ∧ t.grants = s.grants := by
  unfold AccountRepo.insertOrReactivate at hok
  split at hok
  · next key existing hfind =>
    obtain ⟨-, hmine⟩ := Table.of_find?_eq_some hfind
    obtain ⟨howner, -⟩ := of_decide_eq_true hmine
    obtain ⟨u, hstore, hok⟩ := bind_eq_ok hok
    obtain rfl : u = t := by
      split at hok
      · exact (Prod.mk.inj (Except.ok.inj hok)).1
      · exact (Prod.mk.inj (Except.ok.inj hok)).1
    have hrow : s.AccountOk { existing with grantId := some grant, status := .active } :=
      hholds.account howner rfl rfl
    exact h.store hrow hstore
  · obtain ⟨u, hstore, hok⟩ := bind_eq_ok hok
    obtain ⟨rfl, -⟩ := Prod.mk.inj (Except.ok.inj hok)
    have hnext : ({ s with nextAccount := s.nextAccount + 1 } : Db κ).Inv :=
      ⟨h.fresh, h.sound, h.accounts⟩
    obtain ⟨⟨hinv, hgrants⟩, hsame⟩ := hnext.store (hholds.account rfl rfl rfl) hstore
    exact ⟨⟨hinv, hgrants⟩, hsame⟩

lemma Db.Inv.connectAll (h : s.Inv) {owner : UserId} {grant : GrantId}
    (hholds : s.Holds owner grant) {platform : PlatformId} {accounts : List String}
    {done : List AccountUpsert} {connected : List AccountUpsert}
    (hok : accounts.foldlM (connectOne owner grant platform) (s, done) = .ok (t, connected)) :
    Onward s t := by
  induction accounts generalizing s done with
  | nil =>
    obtain ⟨rfl, -⟩ := Prod.mk.inj (Except.ok.inj hok)
    exact ⟨h, GrantsFrom.refl s⟩
  | cons remote accounts ih =>
    rw [List.foldlM_cons] at hok
    obtain ⟨⟨u, next⟩, hone, hrest⟩ := bind_eq_ok hok
    unfold connectOne at hone
    split at hone
    · next db upsert hinsert =>
      obtain ⟨rfl, -⟩ := Prod.mk.inj (Except.ok.inj hone)
      obtain ⟨honward, hgrants⟩ := h.insertOrReactivate hholds hinsert
      refine honward.trans fun hinv => ih hinv ?_ hrest
      unfold Db.Holds
      rwa [hgrants]
    · obtain ⟨rfl, -⟩ := Prod.mk.inj (Except.ok.inj hone)
      exact ih h hholds hrest
    · cases hone

lemma Db.Inv.deleteAll (h : s.Inv) (owner : UserId) (grants : List GrantId) :
    Onward s (grants.foldl (GrantRepo.deleteIfUnused · owner) s) := by
  induction grants generalizing s with
  | nil => exact ⟨h, GrantsFrom.refl s⟩
  | cons id grants ih => exact (h.deleteIfUnused owner id).trans fun hinv => ih hinv

/-- A new grant gets an ID that was not in use. -/
lemma Db.Inv.insertGrant (h : s.Inv) {g : Grant κ} (hsound : g.Sound) :
    Onward s (GrantRepo.insert s g).1 := by
  have hlookup : ∀ k, k ≠ s.nextGrant →
      (GrantRepo.insert s g).1.grants.lookup k = s.grants.lookup k :=
    fun k hk => AList.lookup_insert_ne hk
  have hcases : ∀ k g', (GrantRepo.insert s g).1.grants.lookup k = some g' →
      (k = s.nextGrant ∧ g' = g) ∨ s.grants.lookup k = some g' := by
    intro k g' hg'
    by_cases hk : k = s.nextGrant
    · rw [hk] at hg'
      exact .inl ⟨hk, Option.some.inj (hg'.symm.trans (AList.lookup_insert _))⟩
    · exact .inr (hlookup k hk ▸ hg')
  refine ⟨⟨fun k g' hg' => ?_, fun k g' hg' => ?_, fun k a ha => ?_⟩, Nat.le_succ _,
    fun k g' hg' => ?_⟩
  · rcases hcases k g' hg' with ⟨rfl, -⟩ | hold
    · exact Nat.lt_succ_self _
    · exact Nat.lt_succ_of_lt (h.fresh k g' hold)
  · rcases hcases k g' hg' with ⟨-, rfl⟩ | hold
    · exact hsound
    · exact h.sound k g' hold
  · refine (h.accounts k a ha).mono fun k' g' _ hg' => ⟨g', ?_, rfl, rfl⟩
    rwa [hlookup k' (h.fresh k' g' hg').ne]
  · rcases hcases k g' hg' with ⟨rfl, -⟩ | hold
    · exact .inl le_rfl
    · exact .inr ⟨g', hold, fun hrevoked => hrevoked⟩

lemma Db.Inv.connect (h : s.Inv) {owner : UserId} {input : ConnectInput κ}
    {connected : List AccountUpsert} (hok : connectInTx s owner input = .ok (t, connected)) :
    Onward s t := by
  obtain ⟨⟨u, upserts⟩, hall, hok⟩ := bind_eq_ok hok
  obtain ⟨rfl, -⟩ := Prod.mk.inj (Except.ok.inj hok)
  have hsound : (input.newGrant owner).Sound := by simp [Grant.Sound, ConnectInput.newGrant]
  refine (h.insertGrant hsound).trans fun hinv => ?_
  refine (hinv.connectAll ⟨_, AList.lookup_insert _, rfl, rfl⟩ hall).trans fun hinv => ?_
  split_ifs
  · exact (hinv.deleteAll owner _).trans fun hinv => hinv.deleteIfUnused owner _
  · exact hinv.deleteAll owner _

/-! ## Runs -/

/-- The action marks no revoked grant as needing a reconnect. -/
def Spares (s : Db κ) (a : Action κ) : Prop :=
  ∀ owner id g, a = .markNeedsReconnect owner id → s.grants.lookup id = some g →
    g.ownerId = owner → g.status ≠ .revoked

/-- An operation that marks no revoked grant. -/
def Db.SparingStep (s : Db κ) (a : Action κ) (t : Db κ) : Prop := Spares s a ∧ s.Step a t

lemma Db.Inv.step {a : Action κ} (h : s.Inv) (hstep : s.SparingStep a t) : Onward s t := by
  obtain ⟨hspares, hstep⟩ := hstep
  cases a with
  | connect owner input =>
    obtain ⟨⟨u, connected⟩, hok, rfl⟩ := map_eq_ok hstep
    exact h.connect hok
  | refreshed grant credential expiresAt => exact h.storeTokens hstep
  | refused grant => exact Except.ok.inj hstep ▸ h.refused grant
  | markNeedsReconnect owner grant =>
    obtain ⟨⟨u, previous⟩, hok, hu⟩ := bind_eq_ok hstep
    obtain rfl := Except.ok.inj hu
    exact h.setStatus hok fun g hg howner => hspares owner grant g rfl hg howner
  | markAccountNeedsReconnect owner account =>
    exact Except.ok.inj hstep ▸ h.markAccount owner account
  | markActive owner account => exact Except.ok.inj hstep ▸ h.markActive owner account
  | deauthorize platform remoteUserId => exact Except.ok.inj hstep ▸ h.revokeAll _
  | setRevoked grant => exact Except.ok.inj hstep ▸ h.revokeAll _
  | disconnect owner account => exact h.disconnect hstep
  | deleteUnused owner grant => exact Except.ok.inj hstep ▸ h.deleteIfUnused owner grant

lemma Db.Inv.run {es : List (Action κ)} (h : s.Inv) (hrun : Run Db.SparingStep s es t) :
    Onward s t := by
  induction hrun with
  | nil => exact ⟨h, GrantsFrom.refl s⟩
  | snoc _ hstep ih => exact ih.trans fun hinv => hinv.step hstep

lemma inv_init : ({} : Db κ).Inv := by
  refine ⟨?_, ?_, ?_⟩
  · rintro id g ⟨⟩
  · rintro id g ⟨⟩
  · rintro k a ⟨⟩

/-- The states of grants and accounts, in one state of the tables. -/
structure Db.Consistent (s : Db κ) : Prop where
  /-- The credential is absent exactly when the grant is revoked. -/
  credential : ∀ id g, s.grants.lookup id = some g → (g.credential = none ↔ g.status = .revoked)
  /-- An active account is on an active grant. -/
  active : ∀ k a, s.accounts.lookup k = some a → a.status = .active →
    ∃ id g, a.grantId = some id ∧ s.grants.lookup id = some g ∧ g.status = .active
  /-- Every account of a revoked grant is revoked or disconnected. -/
  revoked : ∀ id g k a, s.grants.lookup id = some g → g.status = .revoked →
    s.accounts.lookup k = some a → a.grantId = some id →
      a.status = .revoked ∨ a.status = .disconnected
  /-- A disconnected account is on no grant. -/
  disconnected : ∀ k a, s.accounts.lookup k = some a → a.status = .disconnected →
    a.grantId = none

lemma Db.Inv.consistent (h : s.Inv) : s.Consistent := by
  refine ⟨h.sound, fun k a ha hactive => ?_, fun id g k a hg hrevoked ha hon => ?_,
    fun k a ha hdisconnected => ?_⟩
  · rcases h.accounts k a ha with ⟨-, hdisconnected⟩ | ⟨id, g, hon, hg, -, hfits⟩
    · rw [hactive] at hdisconnected
      cases hdisconnected
    · exact ⟨id, g, hon, hg, hfits.works hactive⟩
  · rcases h.accounts k a ha with ⟨-, hdisconnected⟩ | ⟨id', g', hon', hg', -, hfits⟩
    · exact .inr hdisconnected
    · obtain rfl := Option.some.inj (hon.symm.trans hon')
      obtain rfl := Option.some.inj (hg.symm.trans hg')
      exact .inl (hfits.revoked hrevoked)
  · rcases h.accounts k a ha with ⟨hloose, -⟩ | ⟨id, g, -, -, -, hfits⟩
    · exact hloose
    · exact absurd hdisconnected hfits.connected

/-- A user connects an account, and the platform deauthorizes it. -/
def deauthorized : List (Action String) :=
  [.connect 1
      { platform := "mastodon"
        kind := .oauth
        remoteUserId := some "ada"
        credential := "sealed"
        expiresAt := none
        accounts := ["@ada@example.social"] },
    .deauthorize "mastodon" "ada"]

/-- What the tables say of the first grant and the first account. -/
structure First where
  grant : Option GrantStatus
  credential : Option String
  account : Option AccountStatus
  deriving DecidableEq

def Db.first (s : Db String) : First where
  grant := (s.grants.lookup 0).map (·.status)
  credential := (s.grants.lookup 0).bind (·.credential)
  account := (s.accounts.lookup 0).map (·.status)

def firstRevoked : First := { grant := some .revoked, credential := none, account := some .revoked }

def firstBack : First where
  grant := some .needsReconnect
  credential := none
  account := some .needsReconnect

/-- A step, when it marks no revoked grant. -/
def Db.sparing? (s : Db κ) (a : Action κ) : Option (Db κ) :=
  match a with
  | .markNeedsReconnect owner id =>
    if (s.grants.lookup id).all fun g => g.ownerId ≠ owner ∨ g.status ≠ .revoked then
      (s.perform a).toOption
    else none
  | _ => (s.perform a).toOption

lemma sparingStep_of_sparing? {a : Action κ} (h : s.sparing? a = some t) : s.SparingStep a t := by
  unfold Db.sparing? at h
  split at h
  · next owner id =>
    split_ifs at h with hspares
    refine ⟨?_, ok_of_toOption h⟩
    rintro owner' id' g ⟨⟩ hg howner
    rw [hg] at hspares
    simpa [howner] using hspares
  · next hother =>
    refine ⟨?_, ok_of_toOption h⟩
    rintro owner id g rfl
    exact absurd rfl (hother owner id)

/-- The owner's check marks the grant before the platform deauthorizes it. -/
def markedThenDeauthorized : List (Action String) :=
  deauthorized.take 1 ++ [.markNeedsReconnect 1 0] ++ deauthorized.drop 1

end Postit.Accounts
