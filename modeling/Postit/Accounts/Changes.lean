import Postit.Accounts.Grants

/-!
# What an operation does to a grant

Every operation leaves a stored grant as it was, deletes it, or changes it in one of three ways: its
tokens are replaced, it is marked as needing a reconnect, or it is revoked.
-/

namespace Postit.Accounts

open Postit.Data (UserId PlatformId AccountId)
open Postit.Framework

variable {κ : Type} {s t u : Db κ} {id : GrantId}

lemma lookup_updateGrants {p : GrantId → Grant κ → Bool} {f : Grant κ → Grant κ} {id : GrantId} :
    (s.updateGrants p f).grants.lookup id =
      (s.grants.lookup id).map fun g => if p id g then f g else g :=
  Table.lookup_updateWhere _ _ _ _

/-- Each grant of the later tables was there before, related to what it is now, or is new. -/
structure GrantsBy (R : GrantId → Grant κ → Grant κ → Prop) (s t : Db κ) : Prop where
  next : s.nextGrant ≤ t.nextGrant
  grants : ∀ id g', t.grants.lookup id = some g' →
    (∃ g, s.grants.lookup id = some g ∧ R id g g') ∨ (s.nextGrant ≤ id ∧ id < t.nextGrant)

namespace GrantsBy

variable {R R' : GrantId → Grant κ → Grant κ → Prop}

lemma mono (h : GrantsBy R s t) (hR : ∀ id g g', R id g g' → R' id g g') : GrantsBy R' s t where
  next := h.next
  grants id g' hg' := (h.grants id g' hg').imp_left fun ⟨g, hg, hr⟩ => ⟨g, hg, hR id g g' hr⟩

lemma trans (htrans : ∀ id g g' g'', R id g g' → R id g' g'' → R id g g'') (h : GrantsBy R s t)
    (h' : GrantsBy R t u) : GrantsBy R s u where
  next := h.next.trans h'.next
  grants id g'' hg'' := by
    rcases h'.grants id g'' hg'' with ⟨g', hg', hr'⟩ | ⟨hold, hnew⟩
    · rcases h.grants id g' hg' with ⟨g, hg, hr⟩ | ⟨hold, hnew⟩
      · exact .inl ⟨g, hg, htrans id g g' g'' hr hr'⟩
      · exact .inr ⟨hold, hnew.trans_le h'.next⟩
    · exact .inr ⟨h.next.trans hold, hnew⟩

/-- Grants change in place. -/
lemma update {p : GrantId → Grant κ → Bool} {f : Grant κ → Grant κ}
    (hrefl : ∀ id g, R id g g) (hf : ∀ id g, p id g = true → R id g (f g)) :
    GrantsBy R s (s.updateGrants p f) where
  next := le_refl _
  grants id g' hg' := by
    rw [lookup_updateGrants] at hg'
    obtain ⟨g, hg, rfl⟩ := Option.map_eq_some_iff.mp hg'
    refine .inl ⟨g, hg, ?_⟩
    split_ifs with hp
    · exact hf id g hp
    · exact hrefl id g

end GrantsBy

/-! ## Grants that are kept -/

/-- The grants are as they were, gone, or new. -/
abbrev Keeps : Db κ → Db κ → Prop := GrantsBy fun _ g g' => g' = g

namespace Keeps

lemma of_eq (hgrants : t.grants = s.grants) (hnext : t.nextGrant = s.nextGrant) : Keeps s t where
  next := hnext.ge
  grants _ g' hg' := .inl ⟨g', hgrants ▸ hg', rfl⟩

lemma refl (s : Db κ) : Keeps s s := of_eq rfl rfl

lemma trans (h : Keeps s t) (h' : Keeps t u) : Keeps s u :=
  GrantsBy.trans (fun _ _ _ _ hg hg' => hg'.trans hg) h h'

lemma deleteIfUnused (s : Db κ) (owner : UserId) (grant : GrantId) :
    Keeps s (GrantRepo.deleteIfUnused s owner grant) := by
  unfold GrantRepo.deleteIfUnused
  split
  · exact refl s
  · split_ifs
    · refine ⟨le_refl _, fun id g hg => .inl ⟨g, ?_, rfl⟩⟩
      by_cases hid : id = grant
      · rw [hid] at hg
        cases hg.symm.trans (AList.lookup_erase _ _)
      · rwa [AList.lookup_erase_ne hid] at hg
    · exact refl s

lemma store {key : AccountId} {row : Account} (hok : AccountRepo.store s key row = .ok t) :
    Keeps s t := by
  unfold AccountRepo.store at hok
  split at hok
  · cases hok
  · obtain rfl := Except.ok.inj hok
    exact of_eq rfl rfl

lemma insertOrReactivate {owner : UserId} {grant : GrantId} {platform : PlatformId}
    {remote : String} {upsert : AccountUpsert}
    (hok : AccountRepo.insertOrReactivate s owner grant platform remote = .ok (t, upsert)) :
    Keeps s t := by
  unfold AccountRepo.insertOrReactivate at hok
  split at hok
  · obtain ⟨u, hstore, hok⟩ := bind_eq_ok hok
    obtain rfl : u = t := by
      split at hok
      · exact (Prod.mk.inj (Except.ok.inj hok)).1
      · exact (Prod.mk.inj (Except.ok.inj hok)).1
    exact store hstore
  · obtain ⟨u, hstore, hok⟩ := bind_eq_ok hok
    obtain ⟨rfl, -⟩ := Prod.mk.inj (Except.ok.inj hok)
    have hnext : Keeps s { s with nextAccount := s.nextAccount + 1 } := of_eq rfl rfl
    exact hnext.trans (store hstore)

lemma connectAll {owner : UserId} {grant : GrantId} {platform : PlatformId}
    {accounts : List String} {done connected : List AccountUpsert}
    (hok : accounts.foldlM (connectOne owner grant platform) (s, done) = .ok (t, connected)) :
    Keeps s t := by
  induction accounts generalizing s done with
  | nil =>
    obtain ⟨rfl, -⟩ := Prod.mk.inj (Except.ok.inj hok)
    exact refl s
  | cons remote accounts ih =>
    rw [List.foldlM_cons] at hok
    obtain ⟨⟨u, next⟩, hone, hrest⟩ := bind_eq_ok hok
    unfold connectOne at hone
    split at hone
    · next db upsert hinsert =>
      obtain ⟨rfl, -⟩ := Prod.mk.inj (Except.ok.inj hone)
      exact (insertOrReactivate hinsert).trans (ih hrest)
    · obtain ⟨rfl, -⟩ := Prod.mk.inj (Except.ok.inj hone)
      exact ih hrest
    · cases hone

lemma insert (s : Db κ) (grant : Grant κ) : Keeps s (GrantRepo.insert s grant).1 where
  next := Nat.le_succ _
  grants id g hg := by
    by_cases hid : id = s.nextGrant
    · exact .inr ⟨hid.ge, Nat.lt_succ_of_le hid.le⟩
    · exact .inl ⟨g, (AList.lookup_insert_ne hid).symm.trans hg, rfl⟩

lemma connect {owner : UserId} {input : ConnectInput κ} {connected : List AccountUpsert}
    (hok : connectInTx s owner input = .ok (t, connected)) : Keeps s t := by
  obtain ⟨⟨u, upserts⟩, hall, hok⟩ := bind_eq_ok hok
  obtain ⟨rfl, -⟩ := Prod.mk.inj (Except.ok.inj hok)
  have hdelete : ∀ (grants : List GrantId) (db : Db κ),
      Keeps db (grants.foldl (GrantRepo.deleteIfUnused · owner) db) := by
    intro grants
    induction grants with
    | nil => exact fun db => refl db
    | cons grant grants ih => exact fun db => (deleteIfUnused db owner grant).trans (ih _)
  refine ((insert s (input.newGrant owner)).trans (connectAll hall)).trans ?_
  split_ifs
  · exact (hdelete _ _).trans (deleteIfUnused _ owner _)
  · exact hdelete _ _

end Keeps

/-! ## Grants that change -/

/-- What an operation may make of a stored grant. -/
inductive Change (a : Action κ) (id : GrantId) (g : Grant κ) : Grant κ → Prop
  | same : Change a id g g
  | refreshed (credential : κ) (expiresAt : Option Time)
      (which : a = .refreshed id credential expiresAt) :
      Change a id g { g with credential := some credential, expiresAt }
  | marked : Change a id g { g with status := .needsReconnect }
  | revoked : Change a id g { g with status := .revoked, credential := none }

lemma changes_of_keeps {a : Action κ} (h : Keeps s t) : GrantsBy (Change a) s t :=
  h.mono fun _ _ _ hg => by
    subst hg
    exact .same

/-- Changes of accounts change no grant. -/
lemma GrantsBy.thenAccounts {R : GrantId → Grant κ → Grant κ → Prop} (h : GrantsBy R s t)
    {q : AccountId → Account → Bool} {f : Account → Account} :
    GrantsBy R s (t.updateAccounts q f) := ⟨h.next, h.grants⟩

lemma changes_markNeedsReconnect (a : Action κ) (s : Db κ) (grant : GrantId) :
    GrantsBy (Change a) s (GrantRepo.markNeedsReconnect s grant) := by
  unfold GrantRepo.markNeedsReconnect
  split
  · exact changes_of_keeps (.refl s)
  · split_ifs
    · exact (GrantsBy.update (fun _ _ => .same) fun _ _ _ => .marked).thenAccounts
    · exact changes_of_keeps (.refl s)

/-- What an operation does to the grants. -/
lemma changes_of_perform {a : Action κ} (hok : s.perform a = .ok t) : GrantsBy (Change a) s t := by
  cases a with
  | connect owner input =>
    obtain ⟨⟨u, connected⟩, hconnect, rfl⟩ := map_eq_ok hok
    exact changes_of_keeps (.connect hconnect)
  | refreshed grant credential expiresAt =>
    simp only [Db.perform, GrantRepo.storeTokens] at hok
    split at hok
    · cases hok
    · split_ifs at hok
      obtain rfl := Except.ok.inj hok
      refine .update (fun _ _ => .same) fun id g hid => ?_
      obtain rfl : id = grant := of_decide_eq_true hid
      exact .refreshed credential expiresAt rfl
  | refused grant =>
    obtain rfl := Except.ok.inj hok
    exact changes_markNeedsReconnect _ s grant
  | markNeedsReconnect owner grant =>
    obtain ⟨⟨u, previous⟩, hset, hu⟩ := bind_eq_ok hok
    obtain rfl := Except.ok.inj hu
    unfold GrantRepo.setStatus at hset
    split at hset
    · cases hset
    · split_ifs at hset
      obtain ⟨rfl, -⟩ := Prod.mk.inj (Except.ok.inj hset)
      exact (GrantsBy.update (fun _ _ => .same) fun _ _ _ => .marked).thenAccounts
  | markAccountNeedsReconnect owner account =>
    exact Except.ok.inj hok ▸ changes_of_keeps (.of_eq rfl rfl)
  | markActive owner account => exact Except.ok.inj hok ▸ changes_of_keeps (.of_eq rfl rfl)
  | deauthorize platform remoteUserId =>
    obtain rfl := Except.ok.inj hok
    exact (GrantsBy.update (fun _ _ => .same) fun _ _ _ => .revoked).thenAccounts
  | setRevoked grant =>
    obtain rfl := Except.ok.inj hok
    exact (GrantsBy.update (fun _ _ => .same) fun _ _ _ => .revoked).thenAccounts
  | disconnect owner account =>
    simp only [Db.perform, AccountRepo.disconnect] at hok
    split at hok
    · cases hok
    · split_ifs at hok
      exact Except.ok.inj hok ▸ changes_of_keeps (.of_eq rfl rfl)
  | deleteUnused owner grant =>
    exact Except.ok.inj hok ▸ changes_of_keeps (.deleteIfUnused s owner grant)

end Postit.Accounts
