import Mathlib.Logic.Equiv.Basic
import Postit.Accounts.Refresh
import Postit.Framework.Pool
import Postit.Properties.GrantStates

/-!
# A refused token is replaced once

Of the calls that are given the same stale tokens one gets new ones from the provider, and the
others get what it stored (`replaced_once`), provided the stale tokens' expiry is a whole number of
microseconds.  A fresh answer's expiry need not be, and what the database keeps of it then looks
like other tokens: the caller that got them, refused again, gets them back
(`dead_token_returned`).

An access token that was stored and is no more is never stored again: what comes is newly issued.
-/

namespace Postit.Accounts

open Postit.Data (UserId PlatformId AccountId)
open Postit.Framework

/-! ## What else happens to a grant's tokens -/

section Elsewhere

variable {κ : Type} {s t : Db κ} {id : GrantId}

/-- The grant's tokens are as they were, or gone. -/
def TokensKept (id : GrantId) (s t : Db κ) : Prop :=
  id < s.nextGrant → id < t.nextGrant ∧ ∀ g', t.grants.lookup id = some g' →
    ∃ g, s.grants.lookup id = some g ∧
      (g'.credential = none ∨ g'.credential = g.credential ∧ g'.expiresAt = g.expiresAt)

lemma TokensKept.refl (s : Db κ) : TokensKept id s s :=
  fun hold => ⟨hold, fun g hg => ⟨g, hg, .inr ⟨rfl, rfl⟩⟩⟩

/-- Nothing but a refresh changes a grant's tokens, except that they go. -/
lemma tokensKept_perform {a : Action κ}
    (ha : ∀ credential expiresAt, a ≠ .refreshed id credential expiresAt)
    (hok : s.perform a = .ok t) : TokensKept id s t := by
  intro hold
  have hchanges := changes_of_perform hok
  refine ⟨hold.trans_le hchanges.next, fun g' hg' => ?_⟩
  rcases hchanges.grants id g' hg' with ⟨g, hg, hchange⟩ | ⟨hnew, -⟩
  · refine ⟨g, hg, ?_⟩
    cases hchange with
    | same => exact .inr ⟨rfl, rfl⟩
    | refreshed credential expiresAt which => exact absurd which (ha credential expiresAt)
    | marked => exact .inr ⟨rfl, rfl⟩
    | revoked => exact .inl rfl
  · exact absurd hold hnew.not_gt

end Elsewhere

/-! ## What is stored -/

/-- What is left of an instant in the database. -/
def Nanos.kept (t : Nanos) : Nanos := Nanos.ofDb (Nanos.toDb t)

lemma Nanos.kept_ofDb (t : Time) : Nanos.kept (Nanos.ofDb t) = Nanos.ofDb t := by
  unfold Nanos.kept Nanos.toDb Nanos.ofDb
  rw [Int.mul_tdiv_cancel _ (by decide)]

/-- A whole number of microseconds is kept as it is. -/
lemma Nanos.kept_of_dvd {t : Nanos} (h : 1000 ∣ t) : Nanos.kept t = t := Int.tdiv_mul_cancel h

namespace Refreshing

/-- The grant's tokens, if it has any. -/
def stored (s : Refreshing) (id : GrantId) : Option OAuthTokens :=
  (s.db.grants.lookup id).bind openOauthGrant

variable {s t : Refreshing} {id : GrantId} {sha256 : Bytes → Bytes}

lemma stored_of_usable {owner : Option UserId} {current : OAuthTokens}
    (h : usable s.db id owner = some current) : s.stored id = some current := by
  unfold usable at h
  split at h
  · cases h
  · next grant hgrant =>
    split_ifs at h
    rw [stored, hgrant]
    exact h

lemma kept_of_stored {current : OAuthTokens} (h : s.stored id = some current) :
    current.expiresAt.map Nanos.kept = current.expiresAt := by
  obtain ⟨grant, -, hopen⟩ := Option.bind_eq_some_iff.mp h
  unfold openOauthGrant at hopen
  split at hopen
  · obtain rfl := Option.some.inj hopen
    show (grant.expiresAt.map Nanos.ofDb).map Nanos.kept = grant.expiresAt.map Nanos.ofDb
    rw [Option.map_map]
    exact congrArg (fun f => grant.expiresAt.map f) (funext Nanos.kept_ofDb)
  · cases hopen
  · cases hopen

lemma stored_of_tokensKept (h : TokensKept id s.db t.db) (hold : id < s.db.nextGrant)
    {current : OAuthTokens} (ht : t.stored id = some current) : s.stored id = some current := by
  obtain ⟨g', hg', hopen⟩ := Option.bind_eq_some_iff.mp ht
  obtain ⟨g, hg, hkept⟩ := (h hold).2 g' hg'
  rw [stored, hg, Option.bind_some]
  rcases hkept with hnone | ⟨hcredential, hexpires⟩
  · simp [openOauthGrant, hnone] at hopen
  · unfold openOauthGrant at hopen ⊢
    rwa [← hcredential, ← hexpires]

/-- What is stored of the tokens that were written. -/
lemma stored_write {db : Db Sealed} {tokens : OAuthTokens}
    (h : writeGrantTokens s.db id tokens = .ok db) (ht : t.db = db) :
    t.stored id = some { tokens with expiresAt := tokens.expiresAt.map Nanos.kept } ∧
      db.nextGrant = s.db.nextGrant := by
  unfold writeGrantTokens GrantRepo.storeTokens at h
  split at h
  · cases h
  · next grant hgrant =>
    split_ifs at h
    obtain rfl := Except.ok.inj h
    refine ⟨?_, rfl⟩
    rw [stored, ht, lookup_updateGrants, hgrant, Option.map_some, if_pos (decide_eq_true rfl),
      Option.bind_some]
    simp only [openOauthGrant, Option.map_map]
    rfl

lemma tokensKept_refused : TokensKept id s.db (GrantRepo.markNeedsReconnect s.db id) :=
  tokensKept_perform (a := .refused id) (by simp) rfl

/-! ## The invariant -/

/-- The access token is stored, or a call that holds the lock read it. -/
def Bound (s : Refreshing) (id : GrantId) (accessToken : Secret) : Prop :=
  (∃ current, s.stored id = some current ∧ current.accessToken = accessToken) ∨
    ∃ (j : ℕ) (stale : Option OAuthTokens) (current : OAuthTokens) (r : Secret) (now : Nanos),
      s.calls[j]? = some (.asking stale current r now) ∧ current.accessToken = accessToken

/-- What holds of a call. -/
def CallOk (s : Refreshing) (id : GrantId) (i : ℕ) : Call → Prop
  | .waiting _ stale => ∀ tokens, stale = some tokens → tokens ∈ s.got
  | .asking stale current r _ =>
    s.holder = some i ∧ current.refreshToken = some r ∧ current.accessToken ∈ s.issued ∧
      (∀ c, s.stored id = some c → c = current) ∧
        ∀ tokens, stale = some tokens → tokens.accessToken = current.accessToken
  | .storing _ => s.holder = some i
  | .refreshed stale _ => ∀ tokens, stale = some tokens →
    tokens.accessToken ∈ s.issued ∧ ¬ s.Bound id tokens.accessToken
  | .returned _ | .stored | .failed => True

structure Inv (id : GrantId) (s : Refreshing) : Prop where
  old : id < s.db.nextGrant
  issued : ∀ current, s.stored id = some current → current.accessToken ∈ s.issued
  got : ∀ tokens ∈ s.got, tokens.accessToken ∈ s.issued ∧
    ∀ current, s.stored id = some current → current.accessToken = tokens.accessToken →
      tokens.expiresAt.map Nanos.kept = current.expiresAt
  calls : ∀ (i : ℕ) call, s.calls[i]? = some call → s.CallOk id i call
  once : ∀ (i j : ℕ) stale f f', s.calls[i]? = some (.refreshed (some stale) f) →
    s.calls[j]? = some (.refreshed (some stale) f') → i = j

/-- The acting call, or none, does something new; the others are as they were. -/
lemma Inv.next (h : s.Inv id) (i : ℕ) (hold : id < t.db.nextGrant) (hissued : s.issued ⊆ t.issued)
    (hstored : ∀ c, t.stored id = some c → s.stored id = some c ∨
      (c.accessToken ∉ s.issued ∧ c.accessToken ∈ t.issued ∧ t.holder = none))
    (hsub : s.got ⊆ t.got)
    (hgot : ∀ tokens ∈ t.got, tokens ∈ s.got ∨ (tokens.accessToken ∈ t.issued ∧
      ∀ c, t.stored id = some c → c.accessToken = tokens.accessToken →
        tokens.expiresAt.map Nanos.kept = c.expiresAt))
    (hcalls : ∀ (j : ℕ) call, t.calls[j]? = some call →
      (s.calls[j]? = some call ∧ (s.holder = some j → t.holder = some j)) ∨ t.CallOk id j call)
    (hasking : ∀ (j : ℕ) stale c r now, t.calls[j]? = some (.asking stale c r now) →
      s.Bound id c.accessToken)
    (hrefreshed : ∀ (j : ℕ) stale f, t.calls[j]? = some (.refreshed (some stale) f) →
      s.calls[j]? = some (.refreshed (some stale) f) ∨
        (j = i ∧ s.Bound id stale.accessToken)) :
    t.Inv id := by
  have hbound : ∀ a ∈ s.issued, t.Bound id a → s.Bound id a := by
    rintro a ha (⟨c, hc, rfl⟩ | ⟨j, stale, c, r, now, hj, rfl⟩)
    · rcases hstored c hc with hsame | ⟨hnew, -⟩
      · exact .inl ⟨c, hsame, rfl⟩
      · exact absurd ha hnew
    · exact hasking j stale c r now hj
  refine ⟨hold, fun c hc => ?_, fun tokens htokens => ?_, fun j call hj => ?_,
    fun j k stale f f' hj hk => ?_⟩
  · rcases hstored c hc with hsame | ⟨-, hin, -⟩
    · exact hissued (h.issued c hsame)
    · exact hin
  · rcases hgot tokens htokens with hbefore | hnew
    · obtain ⟨hin, hexpiry⟩ := h.got tokens hbefore
      refine ⟨hissued hin, fun c hc hsame => ?_⟩
      rcases hstored c hc with hkept | ⟨hfresh, -⟩
      · exact hexpiry c hkept hsame
      · exact absurd (hsame ▸ hin) hfresh
    · exact hnew
  · rcases hcalls j call hj with ⟨hbefore, hheld⟩ | hnew
    · have hok := h.calls j call hbefore
      cases call with
      | waiting owner stale => exact fun tokens htokens => hsub (hok tokens htokens)
      | asking stale current r now =>
        obtain ⟨hlock, hr, hin, hcurrent, hstale⟩ := hok
        refine ⟨hheld hlock, hr, hissued hin, fun c hc => ?_, hstale⟩
        rcases hstored c hc with hkept | ⟨-, -, hfree⟩
        · exact hcurrent c hkept
        · cases hfree.symm.trans (hheld hlock)
      | storing tokens => exact hheld hok
      | refreshed stale f =>
        intro tokens htokens
        obtain ⟨hin, hnot⟩ := hok tokens htokens
        exact ⟨hissued hin, fun hb => hnot (hbound _ hin hb)⟩
      | returned | stored | failed => trivial
    · exact hnew
  · rcases hrefreshed j stale f hj with hj | ⟨rfl, hjb⟩
    · rcases hrefreshed k stale f' hk with hk | ⟨rfl, hkb⟩
      · exact h.once j k stale f f' hj hk
      · exact absurd hkb (h.calls j _ hj stale rfl).2
    · rcases hrefreshed k stale f' hk with hk | ⟨rfl, -⟩
      · exact absurd hjb (h.calls k _ hk stale rfl).2
      · rfl

/-! ## What one step keeps -/

/-- A call with no more to do, that got no new tokens. -/
def Over : Call → Prop
  | .returned _ | .stored | .failed => True
  | _ => False

lemma Over.callOk {i : ℕ} {call : Call} (h : Over call) : s.CallOk id i call := by
  cases call <;> first | exact h.elim | trivial

lemma Over.not_refreshed {call : Call} (h : Over call) (stale : Option OAuthTokens)
    (f : OAuthTokens) : call ≠ .refreshed stale f := by
  rintro rfl
  exact h

/-- The tokens are as they were, or gone, and nobody acts on them. -/
lemma Inv.quiet (h : s.Inv id) (hkept : TokensKept id s.db t.db) (hissued : t.issued = s.issued)
    (i : ℕ) (hgot : t.got = s.got ∨ ∃ c, s.stored id = some c ∧ t.got = c :: s.got)
    (hcalls : ∀ (j : ℕ) call, t.calls[j]? = some call →
      (s.calls[j]? = some call ∧ (s.holder = some j → t.holder = some j)) ∨
        (t.CallOk id j call ∧ (∀ stale f, call ≠ .refreshed stale f) ∧
          ∀ stale c r now, call = .asking stale c r now → s.stored id = some c)) :
    t.Inv id := by
  have hstored : ∀ c, t.stored id = some c → s.stored id = some c :=
    fun c hc => stored_of_tokensKept hkept h.old hc
  refine h.next i (hkept h.old).1 (hissued ▸ List.Subset.refl _) (fun c hc => .inl (hstored c hc)) ?_
    (fun tokens htokens => ?_) (fun j call hj => (hcalls j call hj).imp_right And.left)
    (fun j stale c r now hj => ?_) fun j stale f hj => ?_
  · rcases hgot with hgot | ⟨c, -, hgot⟩
    · exact hgot ▸ List.Subset.refl _
    · rw [hgot]
      exact List.subset_cons_self c s.got
  · rcases hgot with hgot | ⟨c, hc, hgot⟩
    · exact .inl (hgot ▸ htokens)
    · rw [hgot] at htokens
      rcases List.mem_cons.mp htokens with rfl | hin
      · refine .inr ⟨hissued ▸ h.issued tokens hc, fun c' hc' _ => ?_⟩
        obtain rfl := Option.some.inj (hc.symm.trans (hstored c' hc'))
        exact kept_of_stored hc
      · exact .inl hin
  · rcases hcalls j _ hj with ⟨hsame, -⟩ | ⟨-, -, hnew⟩
    · exact .inr ⟨j, stale, c, r, now, hsame, rfl⟩
    · exact .inl ⟨c, hnew stale c r now rfl, rfl⟩
  · rcases hcalls j _ hj with ⟨hsame, -⟩ | ⟨-, hnot, -⟩
    · exact .inl hsame
    · exact absurd rfl (hnot _ _)

/-- A call becomes another, which is one that waits or is over. -/
lemma Inv.quiet_become (h : s.Inv id) {i : ℕ} (call : Call) (hkept : TokensKept id s.db t.db)
    (hissued : t.issued = s.issued)
    (hgot : t.got = s.got ∨ ∃ c, s.stored id = some c ∧ t.got = c :: s.got)
    (hcalls : t.calls = s.calls.set i call) (hover : Over call)
    (hholder : ∀ j, j ≠ i → s.holder = some j → t.holder = some j) : t.Inv id := by
  refine h.quiet hkept hissued i hgot fun j call' hj => ?_
  rw [hcalls] at hj
  rcases of_getElem?_set hj with ⟨rfl, rfl⟩ | ⟨hji, hbefore⟩
  · exact .inr ⟨hover.callOk, hover.not_refreshed, fun stale c r now hnew => by
      subst hnew
      exact hover.elim⟩
  · exact .inl ⟨hbefore, hholder j hji⟩

/-- A call starts that waits or is over. -/
lemma Inv.quiet_spawn (h : s.Inv id) (call : Call) (hdb : t.db = s.db)
    (hissued : t.issued = s.issued) (hholder : t.holder = s.holder)
    (hgot : t.got = s.got ∨ ∃ c, s.stored id = some c ∧ t.got = c :: s.got)
    (hcalls : t.calls = s.calls ++ [call]) (hok : t.CallOk id s.calls.length call)
    (hrefreshed : ∀ stale f, call ≠ .refreshed stale f)
    (hasking : ∀ stale c r now, call ≠ .asking stale c r now) : t.Inv id := by
  refine h.quiet (hdb ▸ .refl _) hissued 0 hgot fun j call' hj => ?_
  rw [hcalls] at hj
  rcases of_getElem?_concat hj with ⟨rfl, rfl⟩ | hbefore
  · exact .inr ⟨hok, hrefreshed, fun stale c r now hnew => absurd hnew (hasking stale c r now)⟩
  · exact .inl ⟨hbefore, fun hheld => hholder.trans hheld⟩

lemma Inv.credentials (h : s.Inv id) (owner : UserId) (now : Nanos)
    (hstep : s.perform sha256 id (.credentials owner now) = some t) : t.Inv id := by
  rw [perform] at hstep
  split at hstep
  · obtain rfl := Option.some.inj hstep
    exact h.quiet_spawn .failed rfl rfl rfl (.inl rfl) rfl trivial (by simp) (by simp)
  · next tokens husable =>
    have hgot : ∃ c, s.stored id = some c ∧ tokens :: s.got = c :: s.got :=
      ⟨tokens, stored_of_usable husable, rfl⟩
    split_ifs at hstep
    · obtain rfl := Option.some.inj hstep
      refine h.quiet_spawn (.waiting (some owner) (some tokens)) rfl rfl rfl (.inr hgot) rfl
        ?_ (by simp) (by simp)
      rintro tokens' ⟨⟩
      exact List.mem_cons_self
    · obtain rfl := Option.some.inj hstep
      exact h.quiet_spawn (.returned tokens) rfl rfl rfl (.inr hgot) rfl trivial (by simp)
        (by simp)

/-- What a refresh that has the lock comes to. -/
lemma Inv.lockForRefresh (hsha : Function.Injective sha256) (h : s.Inv id) {i : ℕ}
    {owner : Option UserId} {stale : Option OAuthTokens} (now : Nanos) (resolves : Bool)
    (hi : s.calls[i]? = some (.waiting owner stale)) (hfree : s.holder = none) :
    (s.refreshGrantOf sha256 id i owner stale now resolves).Inv id := by
  have hheld : ∀ j, j ≠ i → s.holder = some j → s.holder = some j := fun _ _ hj => hj
  unfold refreshGrantOf
  split
  · exact h.quiet_become .failed (.refl _) rfl (.inl rfl) rfl trivial hheld
  · next current husable =>
    have hstored := stored_of_usable husable
    have hreturned : ((s.give current).become i (.returned current)).Inv id :=
      h.quiet_become (.returned current) (.refl _) rfl (.inr ⟨current, hstored, rfl⟩) rfl
        trivial hheld
    by_cases hsettled : settled sha256 stale current now = true
    · rw [if_pos hsettled]
      exact hreturned
    rw [if_neg hsettled]
    split
    · split
      · exact hreturned
      · exact h.quiet_become .failed tokensKept_refused rfl (.inl rfl) rfl trivial hheld
    · next refreshToken hrefresh =>
      split
      · refine h.quiet (.refl _) rfl i (.inl rfl) fun j call' hj => ?_
        rcases of_getElem?_set hj with ⟨rfl, rfl⟩ | ⟨-, hbefore⟩
        · refine .inr ⟨⟨rfl, hrefresh, h.issued current hstored, fun c hc => ?_, ?_⟩, by simp, ?_⟩
          · exact Option.some.inj (hc.symm.trans hstored)
          · rintro tokens rfl
            simp only [settled, decide_eq_true_eq, not_not] at hsettled
            exact hsha (Prod.mk.inj hsettled).2
          · rintro stale' c r now' ⟨⟩
            exact hstored
        · refine .inl ⟨hbefore, fun hj => ?_⟩
          rw [hfree] at hj
          cases hj
      · exact h.quiet_become .failed (.refl _) rfl (.inl rfl) rfl trivial hheld

/-- The call that has the lock writes new tokens and gives the lock back. -/
lemma Inv.write (h : s.Inv id) {i : ℕ} (call : Call) {tokens : OAuthTokens} {db : Db Sealed}
    (hlock : s.holder = some i) (hfresh : tokens.accessToken ∉ s.issued)
    (hok : writeGrantTokens s.db id tokens = .ok db) (hdb : t.db = db) (hfree : t.holder = none)
    (hissued : t.issued = tokens.accessToken :: s.issued)
    (hgot : t.got = s.got ∨ t.got = tokens :: s.got) (hcalls : t.calls = s.calls.set i call)
    (hnew : Over call ∨ ∃ stale, call = .refreshed stale tokens ∧ ∀ old, stale = some old →
      s.Bound id old.accessToken ∧ old.accessToken ∈ s.issued) :
    t.Inv id := by
  obtain ⟨hstored, hnext⟩ := stored_write hok hdb
  have hasking : ∀ (j : ℕ) stale c r now, t.calls[j]? = some (.asking stale c r now) →
      s.calls[j]? = some (.asking stale c r now) ∧ j ≠ i := by
    intro j stale c r now hj
    rw [hcalls] at hj
    rcases of_getElem?_set hj with ⟨-, hcall⟩ | ⟨hji, hbefore⟩
    · rcases hnew with hover | ⟨stale', hcall', -⟩
      · exact (hcall ▸ hover : Over (.asking stale c r now)).elim
      · cases hcall.trans hcall'
    · exact ⟨hbefore, hji⟩
  -- nobody else has the lock
  have halone : ∀ (j : ℕ) stale c r now, t.calls[j]? ≠ some (.asking stale c r now) := by
    intro j stale c r now hj
    obtain ⟨hbefore, hji⟩ := hasking j stale c r now hj
    have hheld := (h.calls j _ hbefore).1
    exact hji (Option.some.inj (hheld.symm.trans hlock))
  refine h.next i ?_ ?_ (fun c hc => .inr ?_) ?_ (fun old hold => ?_) (fun j call' hj => ?_)
    (fun j stale c r now hj => absurd hj (halone j stale c r now)) fun j stale f hj => ?_
  · rw [hdb, hnext]
    exact h.old
  · exact hissued ▸ List.subset_cons_self _ _
  · obtain rfl := Option.some.inj (hstored.symm.trans hc)
    exact ⟨hfresh, hissued ▸ List.mem_cons_self, hfree⟩
  · rcases hgot with hgot | hgot
    · exact hgot ▸ List.Subset.refl _
    · exact hgot ▸ List.subset_cons_self _ _
  · rcases hgot with hgot | hgot
    · exact .inl (hgot ▸ hold)
    · rw [hgot] at hold
      rcases List.mem_cons.mp hold with rfl | hin
      · refine .inr ⟨hissued ▸ List.mem_cons_self, fun c hc _ => ?_⟩
        obtain rfl := Option.some.inj (hstored.symm.trans hc)
        rfl
      · exact .inl hin
  · rw [hcalls] at hj
    rcases of_getElem?_set hj with ⟨rfl, rfl⟩ | ⟨hji, hbefore⟩
    · rcases hnew with hover | ⟨stale, rfl, hstale⟩
      · exact .inr hover.callOk
      · refine .inr fun old hold => ?_
        obtain ⟨-, hin⟩ := hstale old hold
        refine ⟨hissued ▸ List.mem_cons_of_mem _ hin, ?_⟩
        rintro (⟨c, hc, hsame⟩ | ⟨j, stale', c, r, now, hj', -⟩)
        · obtain rfl := Option.some.inj (hstored.symm.trans hc)
          exact hfresh (hsame ▸ hin)
        · exact halone j stale' c r now hj'
    · exact .inl ⟨hbefore, fun hj => absurd (Option.some.inj (hj.symm.trans hlock)) hji⟩
  · rw [hcalls] at hj
    rcases of_getElem?_set hj with ⟨rfl, hcall⟩ | ⟨-, hbefore⟩
    · rcases hnew with hover | ⟨stale', hcall', hstale⟩
      · exact absurd hcall.symm (hover.not_refreshed _ _)
      · rw [hcall'] at hcall
        obtain ⟨hsome, -⟩ := Call.refreshed.inj hcall
        exact .inr ⟨rfl, (hstale stale hsome.symm).1⟩
    · exact .inl hbefore

/-- The call that has the lock gives it back and is over. -/
lemma Inv.giveBack (h : s.Inv id) {i : ℕ} (hlock : s.holder = some i)
    (hkept : TokensKept id s.db t.db) (hissued : s.issued ⊆ t.issued) (hgot : t.got = s.got)
    (hcalls : t.calls = s.calls.set i .failed) : t.Inv id := by
  have hstored : ∀ c, t.stored id = some c → s.stored id = some c :=
    fun c hc => stored_of_tokensKept hkept h.old hc
  have hbefore : ∀ (j : ℕ) call, t.calls[j]? = some call →
      (j = i ∧ call = .failed) ∨ (j ≠ i ∧ s.calls[j]? = some call) := by
    intro j call hj
    rw [hcalls] at hj
    exact of_getElem?_set hj
  refine h.next i (hkept h.old).1 hissued (fun c hc => .inl (hstored c hc))
    (hgot ▸ List.Subset.refl _) (fun tokens hin => .inl (hgot ▸ hin)) (fun j call hj => ?_)
    (fun j stale c r now hj => ?_) fun j stale f hj => ?_
  · rcases hbefore j call hj with ⟨-, rfl⟩ | ⟨hji, hsame⟩
    · exact .inr trivial
    · exact .inl ⟨hsame, fun hj => absurd (Option.some.inj (hj.symm.trans hlock)) hji⟩
  · rcases hbefore j _ hj with ⟨-, hnew⟩ | ⟨-, hsame⟩
    · cases hnew
    · exact .inr ⟨j, stale, c, r, now, hsame, rfl⟩
  · rcases hbefore j _ hj with ⟨-, hnew⟩ | ⟨-, hsame⟩
    · cases hnew
    · exact .inl hsame

/-- What an answer from the provider does. -/
lemma Inv.answer (h : s.Inv id) {i : ℕ} {reply : Reply}
    (hallowed : s.Allowed id (.answer i reply))
    (hstep : s.perform sha256 id (.answer i reply) = some t) : t.Inv id := by
  rw [perform] at hstep
  split at hstep
  · next stale current refreshToken now hi =>
    obtain ⟨hlock, -, hin, -, hstale⟩ := h.calls i _ hi
    cases reply with
    | tokens accessToken newToken expiresIn =>
      simp only at hstep
      split at hstep
      · next db hok =>
        obtain rfl := Option.some.inj hstep
        have hfresh : (fresh accessToken newToken expiresIn refreshToken now).accessToken ∉
            s.issued := hallowed
        refine h.write _ hlock hfresh hok rfl rfl rfl (.inr rfl) rfl
          (.inr ⟨stale, rfl, fun old hold => ⟨.inr ?_, ?_⟩⟩)
        · exact ⟨i, stale, current, refreshToken, now, hi, (hstale old hold).symm⟩
        · rw [hstale old hold]
          exact hin
      · obtain rfl := Option.some.inj hstep
        exact h.giveBack hlock (.refl _) (List.subset_cons_self _ _) rfl rfl
    | invalidGrant =>
      obtain rfl := Option.some.inj hstep
      exact h.giveBack hlock tokensKept_refused (List.Subset.refl _) rfl rfl
    | otherError =>
      obtain rfl := Option.some.inj hstep
      exact h.giveBack hlock (.refl _) (List.Subset.refl _) rfl rfl
  · cases hstep

lemma Inv.storeRefreshed (h : s.Inv id) {owner : UserId} {tokens : OAuthTokens}
    (hstep : s.perform sha256 id (.storeRefreshed owner tokens) = some t) : t.Inv id := by
  rw [perform] at hstep
  split at hstep
  · next hfree =>
    split at hstep
    · obtain rfl := Option.some.inj hstep
      exact h.quiet_spawn .failed rfl rfl rfl (.inl rfl) rfl trivial (by simp) (by simp)
    · obtain rfl := Option.some.inj hstep
      refine h.quiet (.refl _) rfl 0 (.inl rfl) fun j call hj => ?_
      rcases of_getElem?_concat hj with ⟨rfl, rfl⟩ | hbefore
      · exact .inr ⟨rfl, by simp, by simp⟩
      · refine .inl ⟨hbefore, fun hj => ?_⟩
        rw [hfree] at hj
        cases hj
  · cases hstep

lemma Inv.store (h : s.Inv id) {i : ℕ} (hallowed : s.Allowed id (.store i))
    (hstep : s.perform sha256 id (.store i) = some t) : t.Inv id := by
  rw [perform] at hstep
  split at hstep
  · next tokens hi =>
    have hlock : s.holder = some i := h.calls i _ hi
    simp only at hstep
    split at hstep
    · next db hok =>
      obtain rfl := Option.some.inj hstep
      exact h.write .stored hlock (hallowed tokens hi) hok rfl rfl rfl (.inl rfl) rfl (.inl trivial)
    · obtain rfl := Option.some.inj hstep
      exact h.giveBack hlock (.refl _) (List.subset_cons_self _ _) rfl rfl
  · cases hstep

lemma Inv.drop (h : s.Inv id) {i : ℕ} (hstep : s.perform sha256 id (.drop i) = some t) :
    t.Inv id := by
  rw [perform] at hstep
  split at hstep
  · obtain rfl := Option.some.inj hstep
    exact h.quiet_become .failed (.refl _) rfl (.inl rfl) rfl trivial fun _ _ hj => hj
  · next hi =>
    obtain rfl := Option.some.inj hstep
    exact h.giveBack (h.calls i _ hi).1 (.refl _) (List.Subset.refl _) rfl rfl
  · next hi =>
    obtain rfl := Option.some.inj hstep
    exact h.giveBack (h.calls i _ hi) (.refl _) (List.Subset.refl _) rfl rfl
  · cases hstep

lemma Inv.step (hsha : Function.Injective sha256) {a : RefreshAction}
    (hstep : s.Step sha256 id a t) (h : s.Inv id) : t.Inv id := by
  obtain ⟨hallowed, hstep⟩ := hstep
  match a with
  | .elsewhere action =>
    obtain ⟨db, hdb, rfl⟩ := Option.map_eq_some_iff.mp hstep
    have hkept : TokensKept id s.db db := tokensKept_perform hallowed (ok_of_toOption hdb)
    exact h.quiet hkept rfl 0 (.inl rfl) fun j call hj => .inl ⟨hj, fun hheld => hheld⟩
  | .credentials owner now => exact h.credentials owner now hstep
  | .refresh owner stale =>
    obtain rfl := Option.some.inj hstep
    exact h.quiet_spawn (.waiting owner stale) rfl rfl rfl (.inl rfl) rfl hallowed (by simp)
      (by simp)
  | .lockForRefresh i now resolves =>
    rw [perform] at hstep
    split at hstep
    · next owner stale hi hfree =>
      exact Option.some.inj hstep ▸ h.lockForRefresh hsha now resolves hi hfree
    · cases hstep
  | .answer i reply => exact h.answer hallowed hstep
  | .storeRefreshed owner tokens => exact h.storeRefreshed hstep
  | .store i => exact h.store hallowed hstep
  | .drop i => exact h.drop hstep

/-! ## Main results -/

/-- No call is given stale tokens whose expiry is a fraction of a microsecond off. -/
def Whole (s : Refreshing) (a : RefreshAction) : Prop :=
  ∀ i now resolves owner stale expiry, a = .lockForRefresh i now resolves →
    s.calls[i]? = some (.waiting owner (some stale)) → stale.expiresAt = some expiry →
      1000 ∣ expiry

/-- One step in which no such tokens are given. -/
def WholeStep (sha256 : Bytes → Bytes) (id : GrantId) (s : Refreshing) (a : RefreshAction)
    (t : Refreshing) : Prop :=
  s.Whole a ∧ s.Step sha256 id a t

/-- The grant is there, and no call is at work on it. -/
structure Start (id : GrantId) (s : Refreshing) : Prop where
  old : id < s.db.nextGrant
  issued : ∀ current, s.stored id = some current → current.accessToken ∈ s.issued
  holder : s.holder = none
  calls : s.calls = []
  got : s.got = []

lemma Start.inv (h : s.Start id) : s.Inv id := by
  refine ⟨h.old, h.issued, fun tokens hin => ?_, fun i call hi => ?_, fun i j stale f f' hi => ?_⟩
  · rw [h.got] at hin
    cases hin
  · rw [h.calls] at hi
    cases hi
  · rw [h.calls] at hi
    cases hi

/-- What holds of the calls at work on the grant. -/
structure Replaces (sha256 : Bytes → Bytes) (id : GrantId) (s : Refreshing) : Prop where
  /-- Of the calls given the same stale tokens, one gets new tokens from the provider. -/
  once : ∀ (i j : ℕ) stale f f', s.calls[i]? = some (.refreshed (some stale) f) →
    s.calls[j]? = some (.refreshed (some stale) f') → i = j
  /-- A later one returns what is stored, or fails since the grant cannot be used. -/
  later : ∀ (i j : ℕ) stale f owner now resolves t,
    s.calls[i]? = some (.refreshed (some stale) f) →
      s.calls[j]? = some (.waiting owner (some stale)) →
        s.Step sha256 id (.lockForRefresh j now resolves) t →
          (usable s.db id owner = none ∧ t.calls[j]? = some .failed) ∨
            ∃ current, s.stored id = some current ∧ t.calls[j]? = some (.returned current)
  /-- A call whose stale access token is the one stored asks the provider or fails. -/
  asks : ∀ (i : ℕ) owner stale current refreshToken now resolves t,
    s.calls[i]? = some (.waiting owner (some stale)) → s.stored id = some current →
      stale.accessToken = current.accessToken → current.refreshToken = some refreshToken →
        s.WholeStep sha256 id (.lockForRefresh i now resolves) t →
          t.calls[i]? = some .failed ∨
            t.calls[i]? = some (.asking (some stale) current refreshToken now)
  /-- A request sends the refresh token that is stored. -/
  sends : ∀ (i : ℕ) owner stale now resolves t current refreshToken now',
    s.calls[i]? = some (.waiting owner stale) →
      s.Step sha256 id (.lockForRefresh i now resolves) t →
        t.calls[i]? = some (.asking stale current refreshToken now') →
          s.stored id = some current ∧ current.refreshToken = some refreshToken
  /-- While it is out, nothing else gets stored. -/
  stays : ∀ (i : ℕ) stale current refreshToken now, s.calls[i]? =
    some (.asking stale current refreshToken now) →
      s.stored id = none ∨ s.stored id = some current
  /-- After its answer the grant holds what was issued, or is as it was or in
  `needs_reconnect`. -/
  answered : ∀ (i : ℕ) stale current refreshToken now reply t, s.calls[i]? =
    some (.asking stale current refreshToken now) → s.Step sha256 id (.answer i reply) t →
      (∃ accessToken newToken expiresIn, reply = .tokens accessToken newToken expiresIn ∧
        accessToken ≠ current.accessToken ∧
          t.calls[i]? =
            some (.refreshed stale (fresh accessToken newToken expiresIn refreshToken now)) ∧
          t.stored id = some
            { accessToken
              refreshToken := newToken.or current.refreshToken
              expiresAt := expiresIn.map fun seconds => Nanos.kept (now + seconds * 1000000000) }) ∨
        t.calls[i]? = some .failed ∧
          (t.db = s.db ∨ t.db = GrantRepo.markNeedsReconnect s.db id)

/-- What a refresh does once it has the lock and finds the grant usable. -/
lemma lockForRefresh_cases {i : ℕ} {owner : Option UserId} {stale : Option OAuthTokens}
    {now : Nanos} {resolves : Bool} (hi : s.calls[i]? = some (.waiting owner stale))
    (hstep : s.Step sha256 id (.lockForRefresh i now resolves) t) :
    (usable s.db id owner = none ∧ t.calls[i]? = some .failed) ∨
      ∃ current, usable s.db id owner = some current ∧
        ((settled sha256 stale current now = true ∧ t.calls[i]? = some (.returned current)) ∨
          (settled sha256 stale current now = false ∧ (t.calls[i]? = some .failed ∨
            (current.refreshToken = none ∧ t.calls[i]? = some (.returned current)) ∨
              ∃ refreshToken, current.refreshToken = some refreshToken ∧
                t.calls[i]? = some (.asking stale current refreshToken now)))) := by
  have hlt : i < s.calls.length := (List.getElem?_eq_some_iff.mp hi).1
  have hset : ∀ call, (s.calls.set i call)[i]? = some call := fun call =>
    List.getElem?_set_self hlt
  obtain ⟨-, hstep⟩ := hstep
  rw [perform, hi] at hstep
  split at hstep
  · next owner' stale' hsame hfree =>
    obtain ⟨rfl, rfl⟩ := Call.waiting.inj (Option.some.inj hsame)
    obtain rfl := Option.some.inj hstep
    unfold refreshGrantOf
    split
    · next husable => exact .inl ⟨husable, hset _⟩
    · next current husable =>
      refine .inr ⟨current, husable, ?_⟩
      cases hsettled : settled sha256 stale current now with
      | true =>
        rw [if_pos rfl]
        exact .inl ⟨rfl, hset _⟩
      | false =>
        rw [if_neg (by simp)]
        refine .inr ⟨rfl, ?_⟩
        split
        · next hrefresh =>
          split
          · exact .inr (.inl ⟨hrefresh, hset _⟩)
          · exact .inl (hset _)
        · next refreshToken hrefresh =>
          split
          · exact .inr (.inr ⟨refreshToken, hrefresh, hset _⟩)
          · exact .inl (hset _)
  · cases hstep

lemma Inv.replaces (hsha : Function.Injective sha256) (h : s.Inv id) : s.Replaces sha256 id := by
  refine ⟨h.once, ?_, ?_, ?_, ?_, ?_⟩
  · intro i j stale f owner now resolves t hi hj hstep
    rcases lockForRefresh_cases hj hstep with hunusable | ⟨current, husable, hcases⟩
    · exact .inl hunusable
    · have hstored := stored_of_usable husable
      rcases hcases with ⟨-, hreturned⟩ | ⟨hsettled, -⟩
      · exact .inr ⟨current, hstored, hreturned⟩
      · -- the stale access token is no longer the one stored
        have hsame : fingerprint sha256 stale = fingerprint sha256 current := by
          simpa [settled] using hsettled
        have haccess := hsha (Prod.mk.inj hsame).2
        exact absurd (.inl ⟨current, hstored, haccess.symm⟩) (h.calls i _ hi stale rfl).2
  · intro i owner stale current refreshToken now resolves t hi hstored haccess hrefresh hstep
    obtain ⟨hwhole, hstep⟩ := hstep
    rcases lockForRefresh_cases hi hstep with ⟨-, hfailed⟩ | ⟨current', husable, hcases⟩
    · exact .inl hfailed
    obtain rfl := Option.some.inj (hstored.symm.trans (stored_of_usable husable))
    have hgot : stale ∈ s.got := h.calls i _ hi stale rfl
    have hkept := (h.got stale hgot).2 current hstored haccess.symm
    have hexpiry : stale.expiresAt = current.expiresAt := by
      rcases hstale : stale.expiresAt with _ | expiry
      · rw [hstale] at hkept
        exact hkept
      · rw [hstale, Option.map_some,
          Nanos.kept_of_dvd (hwhole i now resolves owner stale expiry rfl hi hstale)] at hkept
        exact hkept
    have hsettled : settled sha256 (some stale) current now = false := by
      simp [settled, fingerprint, hexpiry, haccess]
    rcases hcases with ⟨hyes, -⟩ | ⟨-, hfailed | ⟨hnone, -⟩ | ⟨refreshToken', hsome, hasking⟩⟩
    · cases hsettled.symm.trans hyes
    · exact .inl hfailed
    · cases hrefresh.symm.trans hnone
    · obtain rfl := Option.some.inj (hrefresh.symm.trans hsome)
      exact .inr hasking
  · intro i owner stale now resolves t current refreshToken now' hi hstep hasking
    rcases lockForRefresh_cases hi hstep with ⟨-, hfailed⟩ | ⟨current', husable, hcases⟩
    · cases hfailed.symm.trans hasking
    rcases hcases with ⟨-, hreturned⟩ | ⟨-, hfailed | ⟨-, hreturned⟩ | ⟨r, hr, hasking'⟩⟩
    · cases hreturned.symm.trans hasking
    · cases hfailed.symm.trans hasking
    · cases hreturned.symm.trans hasking
    · cases hasking'.symm.trans hasking
      exact ⟨stored_of_usable husable, hr⟩
  · intro i stale current refreshToken now hi
    obtain ⟨-, -, -, hcurrent, -⟩ := h.calls i _ hi
    rcases hstored : s.stored id with _ | c
    · exact .inl rfl
    · exact .inr (congrArg some (hcurrent c hstored))
  · intro i stale current refreshToken now reply t hi hstep
    obtain ⟨hallowed, hstep⟩ := hstep
    obtain ⟨hlock, hrefresh, hin, -, -⟩ := h.calls i _ hi
    have hset : ∀ call, (s.calls.set i call)[i]? = some call := fun call =>
      List.getElem?_set_self (List.getElem?_eq_some_iff.mp hi).1
    rw [perform, hi] at hstep
    cases reply with
    | tokens accessToken newToken expiresIn =>
      simp only at hstep
      split at hstep
      · next db hok =>
        obtain rfl := Option.some.inj hstep
        refine .inl ⟨accessToken, newToken, expiresIn, rfl, ?_, hset _, ?_⟩
        · rintro rfl
          exact hallowed hin
        · have hwritten := fun t ht => (stored_write (s := s) (t := t) hok ht).1
          rw [hwritten _ rfl]
          simp only [fresh, Option.map_map, hrefresh]
          rfl
      · obtain rfl := Option.some.inj hstep
        exact .inr ⟨hset _, .inl rfl⟩
    | invalidGrant =>
      obtain rfl := Option.some.inj hstep
      exact .inr ⟨hset _, .inr rfl⟩
    | otherError =>
      obtain rfl := Option.some.inj hstep
      exact .inr ⟨hset _, .inl rfl⟩

/-- **A refused token is really replaced, by one request.**  In every run in which stale tokens are
good to the microsecond. -/
theorem replaced_once (hsha : Function.Injective sha256) {s₀ : Refreshing} (hstart : s₀.Start id)
    {es : List RefreshAction} (h : Run (WholeStep sha256 id) s₀ es s) : s.Replaces sha256 id := by
  have hinv : s.Inv id :=
    h.invariant (I := Inv id) (fun hstep hs => hs.step hsha hstep.2) hstart.inv
  exact hinv.replaces hsha

/-- What an action makes of the calls, when it may be and does not come from elsewhere. -/
def step? (sha256 : Bytes → Bytes) (id : GrantId) (s : Refreshing) (a : RefreshAction) :
    Option Refreshing :=
  match a with
  | .elsewhere _ | .store _ => none
  | .refresh _ stale => if stale.all (· ∈ s.got) then s.perform sha256 id a else none
  | .answer _ (.tokens accessToken _ _) =>
    if accessToken ∉ s.issued then s.perform sha256 id a else none
  | _ => s.perform sha256 id a

lemma step_of_step? {a : RefreshAction} (h : s.step? sha256 id a = some t) :
    s.Step sha256 id a t := by
  unfold step? at h
  split at h
  · cases h
  · cases h
  · next owner stale =>
    split_ifs at h with hall
    refine ⟨?_, h⟩
    rintro tokens rfl
    simpa using hall
  · split_ifs at h with hfresh
    exact ⟨hfresh, h⟩
  · next helsewhere hstore hrefresh hanswer =>
    refine ⟨?_, h⟩
    cases a with
    | elsewhere action => exact absurd rfl (helsewhere action)
    | store i => exact absurd rfl (hstore i)
    | refresh owner stale => exact absurd rfl (hrefresh owner stale)
    | answer i reply =>
      cases reply with
      | tokens accessToken newToken expiresIn => exact absurd rfl (hanswer i _ _ _)
      | invalidGrant | otherError => trivial
    | credentials | lockForRefresh | storeRefreshed | drop => trivial

/-- The same, when no stale tokens are off. -/
def wholeStep? (sha256 : Bytes → Bytes) (id : GrantId) (s : Refreshing) (a : RefreshAction) :
    Option Refreshing :=
  match a with
  | .lockForRefresh i _ _ =>
    match s.calls[i]? with
    | some (.waiting _ (some stale)) =>
      if stale.expiresAt.all (1000 ∣ ·) then s.step? sha256 id a else none
    | _ => s.step? sha256 id a
  | _ => s.step? sha256 id a

lemma wholeStep_of_wholeStep? {a : RefreshAction} (h : s.wholeStep? sha256 id a = some t) :
    s.WholeStep sha256 id a t := by
  unfold wholeStep? at h
  split at h
  · next i now resolves =>
    split at h
    · next owner stale hi =>
      split_ifs at h with hwhole
      refine ⟨?_, step_of_step? h⟩
      rintro i' now' resolves' owner' stale' expiry ⟨⟩ hi' hexpiry
      obtain ⟨-, hstale⟩ := Call.waiting.inj (Option.some.inj (hi.symm.trans hi'))
      obtain rfl := Option.some.inj hstale
      simpa [hexpiry] using hwhole
    · next hother =>
      refine ⟨?_, step_of_step? h⟩
      rintro i' now' resolves' owner stale expiry ⟨⟩ hi
      exact absurd hi (hother owner stale)
  · next hother =>
    refine ⟨?_, step_of_step? h⟩
    rintro i now resolves owner stale expiry rfl
    exact absurd rfl (hother i now resolves)

/-- The first two access tokens, and what SHA-256 makes of them. -/
def at0 : Secret := [97, 116, 48]

def at1 : Secret := [97, 116, 49]

def digest0 : Bytes :=
  [163, 155, 43, 150, 117, 201, 243, 196, 114, 107, 6, 156, 150, 166, 134, 222, 177, 59, 244,
    44, 149, 199, 89, 105, 8, 155, 58, 164, 78, 178, 59, 14]

def digest1 : Bytes :=
  [64, 165, 13, 213, 191, 135, 197, 209, 217, 126, 211, 117, 192, 168, 120, 204, 107, 22,
    238, 169, 18, 32, 142, 74, 227, 213, 101, 187, 101, 147, 109, 165]

/-- SHA-256, as far as these tokens go. -/
def tokenSha256 : Bytes → Bytes := (Equiv.swap at0 digest0).trans (Equiv.swap at1 digest1)

/-- A grant whose access token is about to expire. -/
def aboutToExpire : Refreshing where
  db :=
    { grants := AList.insert 0
        { ownerId := 1
          platform := "mastodon"
          kind := .oauth
          remoteUserId := some "ada"
          credential := some (some { accessToken := at0, refreshToken := some [1] })
          expiresAt := some 60000000 } ∅
      nextGrant := 1 }
  issued := [at0]

/-- What the credential store reads of it. -/
def tokens0 : OAuthTokens where
  accessToken := at0
  refreshToken := some [1]
  expiresAt := some 60000000000

/-- What a refresh gets by a clock that shows `now`, for an hour. -/
def tokens1 (now : Nanos) : OAuthTokens where
  accessToken := at1
  refreshToken := some [1]
  expiresAt := some (now + 3600000000000)

/-- Its token is refreshed, and the platform refuses the new one too. -/
def refusedAgain (now : Nanos) : List RefreshAction :=
  [.credentials 1 0, .refresh (some 1) (some tokens0), .lockForRefresh 1 now true,
    .answer 1 (.tokens at1 none (some 3600)), .refresh (some 1) (some (tokens1 now))]

/-- Five nanoseconds past a microsecond: the caller gets the refused token back. -/
theorem dead_token_returned :
    ∃ s t, Run (Step tokenSha256 0) aboutToExpire (refusedAgain 5) s ∧
      s.calls[2]? = some (.waiting (some 1) (some (tokens1 5))) ∧
        usable s.db 0 (some 1) = some (tokens1 0) ∧
          Step tokenSha256 0 s (.lockForRefresh 2 10 true) t ∧
            t.calls[2]? = some (.returned (tokens1 0)) := by
  have hend : ((refusedAgain 5).foldlM (step? tokenSha256 0) aboutToExpire).bind
      (fun s => (s.step? tokenSha256 0 (.lockForRefresh 2 10 true)).map fun t =>
        [s.calls[2]?, (usable s.db 0 (some 1)).map .returned, t.calls[2]?]) =
      some [some (.waiting (some 1) (some (tokens1 5))), some (.returned (tokens1 0)),
        some (.returned (tokens1 0))] := by
    decide
  obtain ⟨s, hs, hend⟩ := Option.bind_eq_some_iff.mp hend
  obtain ⟨t, ht, hfacts⟩ := Option.map_eq_some_iff.mp hend
  simp only [List.cons.injEq, and_true, Option.map_eq_some_iff, Call.returned.injEq] at hfacts
  obtain ⟨hwaiting, ⟨current, husable, rfl⟩, hreturned⟩ := hfacts
  exact ⟨s, t, .of_foldlM step_of_step? hs, hwaiting, husable, step_of_step? ht, hreturned⟩

/-- A whole microsecond: the second call asks the provider too. -/
theorem replaced_once_whole :
    ∃ s, Run (WholeStep tokenSha256 0) aboutToExpire
      (refusedAgain 5000 ++ [.lockForRefresh 2 6000 true]) s ∧
        s.calls = [.returned tokens0, .refreshed (some tokens0) (tokens1 5000),
          .asking (some (tokens1 5000)) (tokens1 5000) [1] 6000] ∧
          s.Replaces tokenSha256 0 := by
  have hend : ((refusedAgain 5000 ++ [RefreshAction.lockForRefresh 2 6000 true]).foldlM
      (wholeStep? tokenSha256 0) aboutToExpire).map Refreshing.calls =
        some [.returned tokens0, .refreshed (some tokens0) (tokens1 5000),
          .asking (some (tokens1 5000)) (tokens1 5000) [1] 6000] := by
    decide
  obtain ⟨s, hs, hcalls⟩ := Option.map_eq_some_iff.mp hend
  have hrun : Run (WholeStep tokenSha256 0) aboutToExpire
      (refusedAgain 5000 ++ [.lockForRefresh 2 6000 true]) s :=
    .of_foldlM wholeStep_of_wholeStep? hs
  have hsha : Function.Injective tokenSha256 :=
    (Equiv.swap at1 digest1).injective.comp (Equiv.swap at0 digest0).injective
  have hstart : aboutToExpire.Start 0 := by
    refine ⟨by decide, fun current hcurrent => ?_, rfl, rfl, rfl⟩
    obtain rfl : tokens0 = current := Option.some.inj hcurrent
    exact List.mem_cons_self
  exact ⟨s, hrun, hcalls, replaced_once hsha hstart hrun⟩

end Refreshing

end Postit.Accounts
