import Postit.Framework.Pool
import Postit.Framework.Trace
import Postit.Identity.Discovery

/-!
# One fetch at a time, and not too many

Over every interleaving of calls on one cache of signing keys: at most one call asks the source, no
call is stuck, and what a call returns the source served, no earlier than what was cached when the
call began.

The fetches are held down in number.  Tokens with unknown keys make at most one every minute
(`refetches_le`), and a cached set that has grown old is refreshed at most once every refresh
interval or minute, whichever is shorter, but for the refreshes that were dropped half way
(`refreshes_le`).
-/

namespace Postit.Identity.Discovery

open Postit.Framework
open Postit.Http (HttpError)

variable {κ : Type} {interval i j start : ℕ} {kid : Option String} {s s' : Shared κ}
  {p p' : Phase κ} {w w' : World κ} {c : Call κ} {e : CacheEvent} {es : List CacheEvent}

/-! ## What a move does -/

/-- What holds of a call that returned, and of one whose key is unknown, holds once `jwks` has
returned to it. -/
lemma afterJwks_cases {P : Phase κ → Prop} {r : Except HttpError (JwkSet κ)}
    (hreturned : P (.returned r)) (hunknown : ∀ jwks, r = .ok jwks → P .unknownKid) :
    P (afterJwks kid r) := by
  cases r with
  | error err => exact hreturned
  | ok jwks =>
    unfold afterJwks
    dsimp only
    split
    · exact hreturned
    · exact hunknown jwks rfl

/-- The guard is left, taken by a call that has it then, or given back by one that had it. -/
lemma Move.guard (h : Move interval i kid s p s' p') :
    (s'.flight = s.flight ∧ p'.holds = p.holds) ∨
      (s.flight = none ∧ s'.flight = some i ∧ p'.holds = true) ∨
      (p.holds = true ∧ s'.flight = none ∧ p'.holds = false) := by
  have hafter (r : Except HttpError (JwkSet κ)) : (afterJwks kid r).holds = false :=
    afterJwks_cases (P := fun p => p.holds = false) rfl fun _ _ => rfl
  cases h with
  | check => exact .inl ⟨rfl, by split <;> rfl⟩
  | lock h => exact .inr (.inl ⟨h, rfl, rfl⟩)
  | refresh => exact .inl ⟨rfl, rfl⟩
  | settled => exact .inr (.inr ⟨rfl, rfl, rfl⟩)
  | fetched => exact .inr (.inr ⟨rfl, rfl, rfl⟩)
  | refused => exact .inl ⟨rfl, rfl⟩
  | fallBack => exact .inr (.inr ⟨rfl, rfl, hafter _⟩)
  | read => exact .inl ⟨rfl, hafter _⟩
  | mayRefetch => exact .inl ⟨rfl, by split <;> rfl⟩
  | kidLock h => exact .inr (.inl ⟨h, rfl, rfl⟩)
  | kidFetched => exact .inr (.inr ⟨rfl, rfl, rfl⟩)
  | kidRefused => exact .inr (.inr ⟨rfl, rfl, rfl⟩)
  | kidRead => exact .inl ⟨rfl, rfl⟩
  | drop =>
    cases hp : p.holds with
    | false => exact .inl ⟨rfl, rfl⟩
    | true => exact .inr (.inr ⟨rfl, rfl, rfl⟩)

/-- What a move makes of the cache. -/
inductive Keeps (s s' : Shared κ) (p : Phase κ) : Prop
  | same (hcache : s'.cache = s.cache) (hserved : s'.served = s.served)
  | refused (hp : p.asks = true) (hcache : s'.cache = s.cache.refused s.now)
      (hserved : s'.served = s.served)
  | stored (hp : p.asks = true) (document : DiscoveryDocument) (jwks : JwkSet κ)
      (hcache : s'.cache = s.cache.store document jwks s.now)
      (hserved : s'.served = s.served ++ [(document, jwks)])
  | stamped (hcache : s'.cache = { s.cache with lastKidRefetch := some s.now })
      (hlong : longAgo s.now kidRefetchMinInterval s.cache.lastKidRefetch = true)
      (hserved : s'.served = s.served)

lemma mayRefetch_cases (cache : CacheState κ) (now : ℕ) :
    (longAgo now kidRefetchMinInterval cache.lastKidRefetch = true ∧
        cache.mayRefetch now = (true, { cache with lastKidRefetch := some now })) ∨
      cache.mayRefetch now = (false, cache) := by
  unfold CacheState.mayRefetch
  cases hlong : longAgo now kidRefetchMinInterval cache.lastKidRefetch with
  | false => exact .inr rfl
  | true => exact .inl ⟨rfl, rfl⟩

lemma Move.keeps (h : Move interval i kid s p s' p') : s'.now = s.now ∧ Keeps s s' p := by
  cases h with
  | fetched document jwks => exact ⟨rfl, .stored rfl document jwks rfl rfl⟩
  | kidFetched document jwks => exact ⟨rfl, .stored rfl document jwks rfl rfl⟩
  | refused => exact ⟨rfl, .refused rfl rfl rfl⟩
  | kidRefused => exact ⟨rfl, .refused rfl rfl rfl⟩
  | mayRefetch =>
    refine ⟨rfl, ?_⟩
    rcases mayRefetch_cases s.cache s.now with ⟨hlong, hmay⟩ | hmay
    · exact .stamped (by rw [hmay]) hlong rfl
    · exact .same (by rw [hmay]) rfl
  | _ => exact ⟨rfl, .same rfl rfl⟩

/-! ## A run -/

section Sample

def sampleDocument : DiscoveryDocument where
  issuer := "https://id.example"
  jwksUri := "https://id.example/jwks"

def sampleSet : JwkSet Unit := [⟨some "a", ()⟩]

/-- A call fetched a set. -/
def fetchedWorld : World Unit where
  shared := {
    now := 0
    cache := { jwks := some sampleSet, document := some sampleDocument, fetchedAt := some 0 }
    served := [(sampleDocument, sampleSet)] }
  calls := [⟨none, 0, .returned (.ok sampleSet)⟩]

/-- An hour later another refreshed it in vain, and got it. -/
def refreshedWorld : World Unit where
  shared := {
    now := 3600000000000
    cache := {
      jwks := some sampleSet
      document := some sampleDocument
      fetchedAt := some 0
      lastRefreshFailure := some 3600000000000 }
    served := [(sampleDocument, sampleSet)]
    refreshes := 1 }
  calls := [⟨none, 0, .returned (.ok sampleSet)⟩, ⟨some "b", 1, .unknownKid⟩]

/-- It refetched in vain for the key the set lacks. -/
def refetchedWorld : World Unit where
  shared := {
    now := 3600000000000
    cache := {
      jwks := some sampleSet
      document := some sampleDocument
      fetchedAt := some 0
      lastKidRefetch := some 3600000000000
      lastRefreshFailure := some 3600000000000 }
    served := [(sampleDocument, sampleSet)]
    refreshes := 1
    refetches := 1 }
  calls := [⟨none, 0, .returned (.ok sampleSet)⟩, ⟨some "b", 1, .returned (.ok sampleSet)⟩]

lemma sample_run :
    ∃ es, Run (World.Step 3600000000000) (World.new Unit 0) es refetchedWorld := by
  have hstart : Run (World.Step 3600000000000) (World.new Unit 0) [] (World.new Unit 0) := .nil
  have h := hstart.snoc (.call none) |>.snoc (.move (i := 0) rfl .check)
    |>.snoc (.move (i := 0) rfl (.lock rfl)) |>.snoc (.move (i := 0) rfl (.refresh rfl))
    |>.snoc (.move (i := 0) rfl (.fetched sampleDocument sampleSet))
    |>.snoc (.move (i := 0) rfl .read)
  have hfetched : Run (World.Step 3600000000000) (World.new Unit 0) _ fetchedWorld := h
  have h := hfetched.snoc (.tick 3600000000000) |>.snoc (.call (some "b"))
    |>.snoc (.move (i := 1) rfl .check) |>.snoc (.move (i := 1) rfl (.lock rfl))
    |>.snoc (.move (i := 1) rfl (.refresh rfl))
    |>.snoc (.move (i := 1) rfl (.refused (.permanent "")))
    |>.snoc (.move (i := 1) rfl (.fallBack (.permanent "")))
  have hrefreshed : Run (World.Step 3600000000000) (World.new Unit 0) _ refreshedWorld := h
  have h := hrefreshed.snoc (.move (i := 1) rfl .mayRefetch)
    |>.snoc (.move (i := 1) rfl (.kidLock rfl))
    |>.snoc (.move (i := 1) rfl (.kidRefused (.permanent "")))
    |>.snoc (.move (i := 1) rfl .kidRead)
  exact ⟨_, h⟩

end Sample

/-! ## One fetch at a time -/

/-- The guard is held by the call that has it, and by no other. -/
structure Guarded (w : World κ) : Prop where
  holds : ∀ (i : ℕ) c, w.calls[i]? = some c → c.phase.holds = true → w.shared.flight = some i
  held : ∀ i, w.shared.flight = some i → ∃ c, w.calls[i]? = some c ∧ c.phase.holds = true

lemma Guarded.new : Guarded (World.new κ start) where
  holds i c hi := by simp [World.new] at hi
  held i hi := by cases hi

lemma Guarded.step (h : Guarded w) (hstep : w.Step interval e w') : Guarded w' := by
  cases hstep with
  | tick d => exact ⟨h.holds, h.held⟩
  | call kid =>
    refine ⟨fun j c hj hc => ?_, fun j hj => ?_⟩
    · rcases of_getElem?_concat hj with ⟨-, rfl⟩ | hold
      · cases hc
      · exact h.holds j c hold hc
    · obtain ⟨c, hc, hholds⟩ := h.held j hj
      exact ⟨c, List.getElem?_append_left (List.getElem?_eq_some_iff.mp hc).1 ▸ hc, hholds⟩
  | @move i c s p hi hmove =>
    have hset : (w.calls.set i { c with phase := p })[i]? = some { c with phase := p } := by
      rw [List.getElem?_set_self (List.getElem?_eq_some_iff.mp hi).1]
    rcases hmove.guard with ⟨hflight, hsame⟩ | ⟨hfree, htaken, hp⟩ | ⟨hp, hgiven, hp'⟩
    · -- the guard is left
      refine ⟨fun j d hj hd => ?_, fun j hj => ?_⟩
      · rw [hflight]
        rcases of_getElem?_set hj with ⟨rfl, rfl⟩ | ⟨-, hold⟩
        · exact h.holds j c hi (hsame ▸ hd)
        · exact h.holds j d hold hd
      · obtain ⟨d, hd, hholds⟩ := h.held j (hflight ▸ hj)
        by_cases hij : i = j
        · subst hij
          obtain rfl := Option.some.inj (hi.symm.trans hd)
          exact ⟨_, hset, hsame.trans hholds⟩
        · exact ⟨d, (List.getElem?_set_ne hij).trans hd, hholds⟩
    · -- it was free
      refine ⟨fun j d hj hd => ?_, fun j hj => ?_⟩
      · rcases of_getElem?_set hj with ⟨rfl, -⟩ | ⟨-, hold⟩
        · exact htaken
        · cases hfree.symm.trans (h.holds j d hold hd)
      · obtain rfl := Option.some.inj (htaken.symm.trans hj)
        exact ⟨_, hset, hp⟩
    · -- it is free now
      refine ⟨fun j d hj hd => ?_, fun j hj => by cases hgiven.symm.trans hj⟩
      rcases of_getElem?_set hj with ⟨-, rfl⟩ | ⟨hji, hold⟩
      · cases hp'.symm.trans hd
      · have hj := h.holds j d hold hd
        rw [h.holds i c hi hp] at hj
        exact absurd (Option.some.inj hj).symm hji

lemma Guarded.alone (h : Guarded w) : Alone (fun c : Call κ => c.phase.holds = true) w.calls :=
  fun i j a b hi hj ha hb => by
    have hflight := h.holds i a hi ha
    rw [h.holds j b hj hb] at hflight
    exact (Option.some.inj hflight).symm

lemma holds_of_asks (h : p.asks = true) : p.holds = true := by
  cases p <;> first | rfl | cases h

lemma asks_of_refreshes (h : p.refreshes = true) : p.asks = true := by
  cases p <;> first | rfl | cases h

lemma Guarded.countP_asks (h : Guarded w) : (w.calls.countP fun c => c.phase.asks) ≤ 1 :=
  countP_le_one fun i j a b hi hj ha hb =>
    h.alone i j a b hi hj (holds_of_asks ha) (holds_of_asks hb)

/-- How many moves a call has before it. -/
def Phase.rank : Phase κ → ℕ
  | .started => 9
  | .waiting => 8
  | .admitted => 7
  | .fetching => 6
  | .failed _ | .reading => 5
  | .unknownKid => 4
  | .kidWaiting => 3
  | .kidFetching => 2
  | .kidReading => 1
  | .returned _ | .dropped => 0

lemma Move.rank_lt (h : Move interval i kid s p s' p') : p'.rank < p.rank := by
  have hafter (r : Except HttpError (JwkSet κ)) : (afterJwks kid r).rank < 5 :=
    afterJwks_cases (P := fun p => p.rank < 5) (Nat.zero_lt_succ _) fun _ _ => Nat.lt_succ_self _
  cases h with
  | check => split <;> simp [Phase.rank]
  | fallBack => exact hafter _
  | read => exact hafter _
  | mayRefetch => split <;> simp [Phase.rank]
  | drop hover => cases p <;> first | exact Nat.zero_lt_succ _ | cases hover
  | _ => simp [Phase.rank]

lemma moves_le (h : Run (World.Step interval) (World.new κ start) es w) (i : ℕ) :
    (∀ c, w.calls[i]? = some c → es.count (.move i) + c.phase.rank ≤ 9) ∧
      (w.calls[i]? = none → es.count (.move i) = 0) := by
  induction h with
  | nil => exact ⟨fun c hc => by simp [World.new] at hc, fun _ => rfl⟩
  | @snoc es w w' e _ hstep ih =>
    rw [List.count_append, List.count_singleton]
    cases hstep with
    | tick d => exact ih
    | call kid =>
      have hother : (CacheEvent.call == .move i) = false := rfl
      rw [hother]
      refine ⟨fun c hc => ?_, fun hnone => ih.2 ?_⟩
      · rcases of_getElem?_concat hc with ⟨hi, rfl⟩ | hold
        · rw [ih.2 (by simp [hi])]
          exact le_rfl
        · exact ih.1 c hold
      · rw [List.getElem?_eq_none_iff] at hnone ⊢
        rw [List.length_append] at hnone
        omega
    | @move k c s p hk hmove =>
      by_cases hik : k = i
      · subst hik
        have hlt := (List.getElem?_eq_some_iff.mp hk).1
        have hrank := hmove.rank_lt
        have hbefore := ih.1 c hk
        rw [if_pos (beq_self_eq_true _)]
        refine ⟨fun d hd => ?_, fun hnone => ?_⟩
        · rw [List.getElem?_set_self hlt] at hd
          obtain rfl := Option.some.inj hd
          show _ + p.rank ≤ 9
          omega
        · rw [List.getElem?_set_self hlt] at hnone
          cases hnone
      · have hother : (CacheEvent.move k == .move i) = false := by simpa using hik
        rw [hother, List.getElem?_set_ne hik]
        exact ih

/-- A call can go on, other than by being dropped. -/
def World.GoesOn (interval : ℕ) (w : World κ) (i : ℕ) : Prop :=
  ∃ c s p, w.calls[i]? = some c ∧ Move interval i c.kid w.shared c.phase s p ∧ p ≠ .dropped

lemma Move.exists_of_holds (kid : Option String) (hover : p.isOver = false)
    (hfree : s.flight = none ∨ p.holds = true) :
    ∃ s' p', Move interval i kid s p s' p' ∧ p' ≠ .dropped := by
  have hafter (r : Except HttpError (JwkSet κ)) : afterJwks kid r ≠ .dropped :=
    afterJwks_cases (P := (· ≠ .dropped)) (fun h => by cases h) fun _ _ h => by cases h
  cases p with
  | started => exact ⟨_, _, .check, by split <;> simp⟩
  | waiting => exact ⟨_, _, .lock (hfree.resolve_right fun h => by cases h), by simp⟩
  | admitted =>
    cases hs : s.cache.shouldRefresh interval s.now with
    | true => exact ⟨_, _, .refresh hs, by simp⟩
    | false => exact ⟨_, _, .settled hs, by simp⟩
  | fetching => exact ⟨_, _, .refused (.permanent ""), by simp⟩
  | failed err => exact ⟨_, _, .fallBack err, hafter _⟩
  | reading => exact ⟨_, _, .read, hafter _⟩
  | unknownKid => exact ⟨_, _, .mayRefetch, by split <;> simp⟩
  | kidWaiting => exact ⟨_, _, .kidLock (hfree.resolve_right fun h => by cases h), by simp⟩
  | kidFetching => exact ⟨_, _, .kidRefused (.permanent ""), by simp⟩
  | kidReading => exact ⟨_, _, .kidRead, by simp⟩
  | returned => cases hover
  | dropped => cases hover

lemma isOver_of_holds (h : p.holds = true) : p.isOver = false := by
  cases p <;> first | rfl | cases h

lemma Guarded.goesOn (h : Guarded w) (hi : w.calls[i]? = some c) (hover : c.phase.isOver = false) :
    w.GoesOn interval i ∨ ∃ j, w.shared.flight = some j ∧ w.GoesOn interval j := by
  cases hflight : w.shared.flight with
  | none =>
    obtain ⟨s', p', hmove, hp⟩ := Move.exists_of_holds c.kid hover (.inl hflight)
    exact .inl ⟨c, s', p', hi, hmove, hp⟩
  | some j =>
    obtain ⟨d, hd, hholds⟩ := h.held j hflight
    obtain ⟨s', p', hmove, hp⟩ :=
      Move.exists_of_holds d.kid (isOver_of_holds hholds) (.inr hholds)
    exact .inr ⟨j, rfl, d, s', p', hd, hmove, hp⟩

lemma guarded (h : Run (World.Step interval) (World.new κ start) es w) : Guarded w :=
  h.invariant (fun hstep hg => hg.step hstep) .new

/-- At most one call asks the source at any time; a call makes at most nine moves; and one that is
not at its end can go on, or the one that has the guard can. -/
theorem fetches_alone (h : Run (World.Step interval) (World.new κ start) es w) :
    (w.calls.countP fun c => c.phase.asks) ≤ 1 ∧ (∀ i, es.count (.move i) ≤ 9) ∧
      ∀ (i : ℕ) c, w.calls[i]? = some c → c.phase.isOver = false →
        w.GoesOn interval i ∨ ∃ j, w.shared.flight = some j ∧ w.GoesOn interval j := by
  refine ⟨(guarded h).countP_asks, fun i => ?_, fun i c hi hover => (guarded h).goesOn hi hover⟩
  obtain ⟨hsome, hnone⟩ := moves_le h i
  cases hi : w.calls[i]? with
  | none => exact (hnone hi).le.trans (Nat.zero_le _)
  | some c => exact (Nat.le_add_right _ _).trans (hsome c hi)

theorem fetches_alone_sample : ∃ es,
    Run (World.Step 3600000000000) (World.new Unit 0) es refetchedWorld ∧
      (refetchedWorld.calls.countP fun c => c.phase.asks) ≤ 1 := by
  obtain ⟨es, h⟩ := sample_run
  exact ⟨es, h, (fetches_alone h).1⟩

/-! ## What calls return -/

/-- What is cached was served last, and the moments on record are past. -/
structure Shared.Ok (start : ℕ) (s : Shared κ) : Prop where
  now : start ≤ s.now
  jwks : s.cache.jwks = s.served.getLast?.map Prod.snd
  document : s.cache.document = s.served.getLast?.map Prod.fst
  fetchedAt : s.cache.fetchedAt = none ↔ s.served = []
  past : ∀ t, s.cache.fetchedAt = some t ∨ s.cache.lastRefreshFailure = some t ∨
    s.cache.lastKidRefetch = some t → start ≤ t ∧ t ≤ s.now

lemma Shared.Ok.move (h : s.Ok start) (hmove : Move interval i kid s p s' p') : s'.Ok start := by
  obtain ⟨hnow, hkeeps⟩ := hmove.keeps
  have hnow' : start ≤ s'.now := hnow ▸ h.now
  cases hkeeps with
  | same hcache hserved =>
    exact ⟨hnow', by rw [hcache, hserved, h.jwks], by rw [hcache, hserved, h.document],
      by rw [hcache, hserved, h.fetchedAt], by rw [hcache, hnow]; exact h.past⟩
  | refused _ hcache hserved =>
    refine ⟨hnow', by rw [hcache, hserved]; exact h.jwks, by rw [hcache, hserved]; exact h.document,
      by rw [hcache, hserved]; exact h.fetchedAt, fun t ht => ?_⟩
    rw [hcache] at ht
    rw [hnow]
    rcases ht with ht | ht | ht
    · exact h.past t (.inl ht)
    · cases ht
      exact ⟨h.now, le_rfl⟩
    · exact h.past t (.inr (.inr ht))
  | stored _ document jwks hcache hserved =>
    refine ⟨hnow', by simp [hcache, hserved, CacheState.store],
      by simp [hcache, hserved, CacheState.store], by simp [hcache, hserved, CacheState.store],
      fun t ht => ?_⟩
    rw [hcache] at ht
    rw [hnow]
    rcases ht with ht | ht | ht
    · cases ht
      exact ⟨h.now, le_rfl⟩
    · cases ht
    · exact h.past t (.inr (.inr ht))
  | stamped hcache _ hserved =>
    refine ⟨hnow', by rw [hcache, hserved]; exact h.jwks, by rw [hcache, hserved]; exact h.document,
      by rw [hcache, hserved]; exact h.fetchedAt, fun t ht => ?_⟩
    rw [hcache] at ht
    rw [hnow]
    rcases ht with ht | ht | ht
    · exact h.past t (.inl ht)
    · exact h.past t (.inr (.inl ht))
    · cases ht
      exact ⟨h.now, le_rfl⟩

lemma Shared.Ok.step (h : w.shared.Ok start) (hstep : w.Step interval e w') :
    w'.shared.Ok start := by
  cases hstep with
  | tick d =>
    exact ⟨h.now.trans (Nat.le_add_right _ _), h.jwks, h.document, h.fetchedAt,
      fun t ht => ⟨(h.past t ht).1, (h.past t ht).2.trans (Nat.le_add_right _ _)⟩⟩
  | call => exact h
  | move _ hmove => exact h.move hmove

lemma Shared.Ok.new : (World.new κ start).shared.Ok start where
  now := le_rfl
  jwks := rfl
  document := rfl
  fetchedAt := ⟨fun _ => rfl, fun _ => rfl⟩
  past t h := by rcases h with h | h | h <;> cases h

/-- What `cached_jwks` returns. -/
lemma Shared.Ok.cachedJwks_cases (h : s.Ok start) :
    (s.served = [] ∧ ∃ err, s.cache.cachedJwks = .error err) ∨
      ∃ n document jwks, s.served.length = n + 1 ∧ s.served[n]? = some (document, jwks) ∧
        s.cache.cachedJwks = .ok jwks := by
  unfold CacheState.cachedJwks
  rw [h.jwks]
  cases hlast : s.served.getLast? with
  | none => exact .inl ⟨List.getLast?_eq_none_iff.mp hlast, _, rfl⟩
  | some pair =>
    obtain ⟨earlier, hserved⟩ := List.getLast?_eq_some_iff.mp hlast
    exact .inr ⟨earlier.length, pair.1, pair.2, by simp [hserved], by simp [hserved], rfl⟩

/-- Whether a call has seen that something is cached. -/
def Phase.loaded : Phase κ → Bool
  | .reading | .unknownKid | .kidWaiting | .kidFetching | .kidReading => true
  | _ => false

/-- The served sets that a call that began then may return. -/
def Shared.Serves (s : Shared κ) (since : ℕ) (jwks : JwkSet κ) : Prop :=
  ∃ n document, s.served[n]? = some (document, jwks) ∧ since ≤ n + 1

structure CallOk (s : Shared κ) (c : Call κ) : Prop where
  since : c.since ≤ s.served.length
  loaded : c.phase.loaded = true → s.served ≠ []
  set : ∀ jwks, c.phase = .returned (.ok jwks) → s.Serves c.since jwks
  error : ∀ err, c.phase = .returned (.error err) → c.since = 0

lemma CallOk.later (h : CallOk s c) (hserved : s.served <+: s'.served) : CallOk s' c where
  since := h.since.trans hserved.length_le
  loaded hp hnil := h.loaded hp (List.prefix_nil.mp (hnil ▸ hserved))
  set jwks hp := by
    obtain ⟨n, document, hn, hsince⟩ := h.set jwks hp
    obtain ⟨later, hlater⟩ := hserved
    have hlt := (List.getElem?_eq_some_iff.mp hn).1
    exact ⟨n, document, by rw [← hlater, List.getElem?_append_left hlt, hn], hsince⟩
  error := h.error

lemma Keeps.served (h : Keeps s s' p) : s.served <+: s'.served := by
  cases h with
  | same _ h => exact h ▸ List.prefix_rfl
  | refused _ _ h => exact h ▸ List.prefix_rfl
  | stored _ document jwks _ h => exact h ▸ List.prefix_append _ _
  | stamped _ _ h => exact h ▸ List.prefix_rfl

/-- A call that returned nothing yet, and knows of no set. -/
lemma CallOk.of_quiet (h : CallOk s c) (hloaded : p.loaded = false)
    (hreturned : ∀ r, p ≠ .returned r) : CallOk s { c with phase := p } where
  since := h.since
  loaded hp := by cases hloaded.symm.trans hp
  set _ hp := absurd hp (hreturned _)
  error _ hp := absurd hp (hreturned _)

/-- A call that returned nothing yet, and knows of a set. -/
lemma CallOk.of_loaded (h : CallOk s c) (hserved : s.served ≠ [])
    (hreturned : ∀ r, p ≠ .returned r) : CallOk s { c with phase := p } where
  since := h.since
  loaded _ := hserved
  set _ hp := absurd hp (hreturned _)
  error _ hp := absurd hp (hreturned _)

/-- A call that returns what is cached, or an error if nothing is. -/
lemma CallOk.of_cached (kid : Option String) (h : CallOk s c) (hs : s.Ok start)
    {r : Except HttpError (JwkSet κ)}
    (hok : ∀ jwks, s.cache.cachedJwks = .ok jwks → r = .ok jwks)
    (herror : ∀ err, s.cache.cachedJwks = .error err → ∃ err', r = .error err') :
    CallOk s { c with phase := .returned r } ∧ CallOk s { c with phase := afterJwks kid r } := by
  rcases hs.cachedJwks_cases with ⟨hnil, err, hcached⟩ | ⟨n, document, jwks, hlen, hn, hcached⟩
  · obtain ⟨err', rfl⟩ := herror err hcached
    have hzero : c.since = 0 := Nat.le_zero.mp (h.since.trans (by rw [hnil]; exact le_rfl))
    have hreturned : CallOk s { c with phase := .returned (.error err') } :=
      ⟨h.since, (fun hp => by cases hp), (fun _ hp => by cases hp), fun _ _ => hzero⟩
    exact ⟨hreturned, hreturned⟩
  · obtain rfl := hok jwks hcached
    have hreturned : CallOk s { c with phase := .returned (.ok jwks) } := by
      refine ⟨h.since, (fun hp => by cases hp), fun jwks' hp => ?_, fun _ hp => by cases hp⟩
      obtain rfl := Except.ok.inj (Phase.returned.inj hp)
      exact ⟨n, document, hn, hlen ▸ h.since⟩
    refine ⟨hreturned, afterJwks_cases (P := fun p => CallOk s { c with phase := p }) hreturned
      fun _ _ => ?_⟩
    exact h.of_loaded (fun hnil => by rw [hnil] at hlen; cases hlen) fun _ hp => by cases hp

lemma Shared.Ok.served_ne_nil (h : s.Ok start) (hjwks : s.cache.jwks.isNone = false) :
    s.served ≠ [] := by
  intro hnil
  rw [h.jwks, hnil] at hjwks
  cases hjwks

lemma CallOk.move (hs : s.Ok start) (h : CallOk s c)
    (hmove : Move interval i c.kid s c.phase s' p) : CallOk s' { c with phase := p } := by
  have hcached := h.of_cached c.kid hs (r := s.cache.cachedJwks) (fun _ h => h)
    fun err herr => ⟨err, herr⟩
  generalize hp : c.phase = q at hmove
  cases hmove with
  | check =>
    cases hstale : s.cache.isStale interval s.now with
    | true => exact h.of_quiet rfl fun _ h => by cases h
    | false =>
      refine h.of_loaded (fun hnil => ?_) fun _ h => by cases h
      rw [CacheState.isStale, hs.fetchedAt.mpr hnil] at hstale
      cases hstale
  | lock => exact (h.of_quiet rfl fun _ h => by cases h).later List.prefix_rfl
  | refresh => exact (h.of_quiet rfl fun _ h => by cases h).later List.prefix_rfl
  | settled hshould =>
    refine (h.of_loaded (hs.served_ne_nil ?_) fun _ h => by cases h).later List.prefix_rfl
    cases hnone : s.cache.jwks.isNone with
    | false => rfl
    | true =>
      rw [CacheState.shouldRefresh, hnone, if_pos rfl] at hshould
      cases hshould
  | fetched document jwks =>
    refine CallOk.of_loaded (p := .reading)
      (h.later (List.prefix_append _ [(document, jwks)])) ?_ fun _ h => by cases h
    simp [Shared.store]
  | refused => exact (h.of_quiet rfl fun _ h => by cases h).later List.prefix_rfl
  | fallBack err =>
    refine (h.of_cached _ hs (fun jwks hok => ?_) fun err' herr => ?_).2.later List.prefix_rfl
    · rw [hok]
      rfl
    · rw [herr]
      exact ⟨err, rfl⟩
  | read => exact hcached.2
  | mayRefetch =>
    have hloaded := h.loaded (by rw [hp]; rfl)
    refine (h.of_loaded hloaded fun r => ?_).later ?_
    · split <;> exact fun h => by cases h
    · rcases mayRefetch_cases s.cache s.now with ⟨-, hmay⟩ | hmay <;> exact List.prefix_rfl
  | kidLock =>
    exact (h.of_loaded (h.loaded (by rw [hp]; rfl)) fun _ h => by cases h).later List.prefix_rfl
  | kidFetched document jwks =>
    refine CallOk.of_loaded (p := .kidReading)
      (h.later (List.prefix_append _ [(document, jwks)])) ?_ fun _ h => by cases h
    simp [Shared.store]
  | kidRefused =>
    exact (h.of_loaded (h.loaded (by rw [hp]; rfl)) fun _ h => by cases h).later List.prefix_rfl
  | kidRead => exact hcached.1
  | drop => exact (h.of_quiet rfl fun _ h => by cases h).later List.prefix_rfl

structure Answering (start : ℕ) (w : World κ) : Prop where
  ok : w.shared.Ok start
  calls : ∀ (i : ℕ) c, w.calls[i]? = some c → CallOk w.shared c

lemma Answering.step (h : Answering start w) (hstep : w.Step interval e w') :
    Answering start w' := by
  refine ⟨h.ok.step hstep, fun j d hj => ?_⟩
  cases hstep with
  | tick => exact (h.calls j d hj).later List.prefix_rfl
  | call kid =>
    rcases of_getElem?_concat hj with ⟨-, rfl⟩ | hold
    · exact ⟨le_rfl, fun hp => (by cases hp), fun _ hp => (by cases hp), fun _ hp => (by cases hp)⟩
    · exact h.calls j d hold
  | @move i c s p hi hmove =>
    rcases of_getElem?_set hj with ⟨-, rfl⟩ | ⟨-, hold⟩
    · exact (h.calls i c hi).move h.ok hmove
    · exact (h.calls j d hold).later hmove.keeps.2.served

lemma answering (h : Run (World.Step interval) (World.new κ start) es w) : Answering start w :=
  h.invariant (fun hstep ha => ha.step hstep)
    ⟨.new, fun i c hi => by simp [World.new] at hi⟩

/-- What is cached was served last, set and document together.  A set that a call returns was
served, no earlier than the one that was cached when the call began; and a call fails only if
nothing was cached when it began. -/
theorem answers_served (h : Run (World.Step interval) (World.new κ start) es w) :
    w.shared.cache.jwks = w.shared.served.getLast?.map Prod.snd ∧
      w.shared.cache.document = w.shared.served.getLast?.map Prod.fst ∧
      ∀ (i : ℕ) c, w.calls[i]? = some c →
        (∀ jwks, c.phase = .returned (.ok jwks) → w.shared.Serves c.since jwks) ∧
          ∀ err, c.phase = .returned (.error err) → c.since = 0 :=
  ⟨(answering h).ok.jwks, (answering h).ok.document, fun i c hi =>
    ⟨((answering h).calls i c hi).set, ((answering h).calls i c hi).error⟩⟩

theorem answers_served_sample : ∃ es,
    Run (World.Step 3600000000000) (World.new Unit 0) es refetchedWorld ∧
      refetchedWorld.shared.Serves 1 sampleSet := by
  obtain ⟨es, h⟩ := sample_run
  exact ⟨es, h, ((answers_served h).2.2 1 _ rfl).1 sampleSet rfl⟩

/-! ## How many fetches -/

section Refetches

/-- Each refetch that was begun or is about to be took a stamp, and a stamp a minute. -/
def Spaced (start : ℕ) (w : World κ) : Prop :=
  kidRefetchMinInterval * (w.shared.refetches + w.calls.countP fun c => c.phase.refetches) + start ≤
    w.shared.cache.lastKidRefetch.elim start (· + kidRefetchMinInterval)

lemma Move.refetches (h : Move interval i kid s p s' p') :
    (s'.cache.lastKidRefetch = s.cache.lastKidRefetch ∧
        s'.refetches + p'.refetches.toNat ≤ s.refetches + p.refetches.toNat) ∨
      (s'.cache.lastKidRefetch = some s.now ∧
        longAgo s.now kidRefetchMinInterval s.cache.lastKidRefetch = true ∧
        s'.refetches + p'.refetches.toNat ≤ s.refetches + p.refetches.toNat + 1) := by
  have hafter (r : Except HttpError (JwkSet κ)) : (afterJwks kid r).refetches.toNat = 0 :=
    afterJwks_cases (P := fun p => p.refetches.toNat = 0) rfl fun _ _ => rfl
  cases h with
  | check => exact .inl ⟨rfl, by split <;> exact le_rfl⟩
  | fallBack => exact .inl ⟨rfl, (congrArg (s.refetches + ·) (hafter _)).le⟩
  | read => exact .inl ⟨rfl, (congrArg (s.refetches + ·) (hafter _)).le⟩
  | mayRefetch =>
    rcases mayRefetch_cases s.cache s.now with ⟨hlong, hmay⟩ | hmay
    · exact .inr ⟨by rw [hmay], hlong, by rw [hmay]; exact le_rfl⟩
    · exact .inl ⟨by rw [hmay], by rw [hmay]; exact le_rfl⟩
  | kidLock => exact .inl ⟨rfl, le_rfl⟩
  | drop => exact .inl ⟨rfl, Nat.add_le_add_left (Nat.zero_le _) _⟩
  | _ => exact .inl ⟨rfl, le_rfl⟩

lemma Spaced.step (h : Spaced start w) (hs : w.shared.Ok start) (hstep : w.Step interval e w') :
    Spaced start w' := by
  cases hstep with
  | tick => exact h
  | call => simpa [Spaced, Phase.refetches] using h
  | @move i c s p hi hmove =>
    have hcount := countP_set (b := { c with phase := p }) hi fun c : Call κ => c.phase.refetches
    unfold Spaced at h ⊢
    dsimp only at hcount ⊢
    rcases hmove.refetches with ⟨hstamp, hle⟩ | ⟨hstamp, hlong, hle⟩
    · rw [hstamp]
      refine le_trans (Nat.add_le_add_right (Nat.mul_le_mul_left _ ?_) _) h
      omega
    · have hbefore : w.shared.cache.lastKidRefetch.elim start (· + kidRefetchMinInterval) ≤
          w.shared.now := by
        cases hlast : w.shared.cache.lastKidRefetch with
        | none => exact hs.now
        | some t =>
          rw [hlast] at hlong
          have hpast := (hs.past t (.inr (.inr hlast))).2
          have hago : kidRefetchMinInterval ≤ w.shared.now - t := of_decide_eq_true hlong
          show t + kidRefetchMinInterval ≤ w.shared.now
          omega
      rw [hstamp]
      show _ ≤ w.shared.now + kidRefetchMinInterval
      calc kidRefetchMinInterval *
              (s.refetches +
                (w.calls.set i { c with phase := p }).countP fun c => c.phase.refetches) + start
          ≤ kidRefetchMinInterval *
              (w.shared.refetches + (w.calls.countP fun c => c.phase.refetches) + 1) + start := by
            refine Nat.add_le_add_right (Nat.mul_le_mul_left _ ?_) _
            omega
        _ = kidRefetchMinInterval *
              (w.shared.refetches + w.calls.countP fun c => c.phase.refetches) + start +
            kidRefetchMinInterval := by rw [Nat.mul_succ, Nat.add_right_comm]
        _ ≤ w.shared.now + kidRefetchMinInterval :=
            Nat.add_le_add_right (h.trans hbefore) _

/-- However many tokens with unknown keys come, the refetches begun for them are one, and one more
for every minute since the start. -/
theorem refetches_le (h : Run (World.Step interval) (World.new κ start) es w) :
    kidRefetchMinInterval * w.shared.refetches ≤
      (w.shared.now - start) + kidRefetchMinInterval := by
  have hspaced : Spaced start w ∧ w.shared.Ok start := by
    refine h.invariant (I := fun w => Spaced start w ∧ w.shared.Ok start)
      (fun hstep hw => ⟨hw.1.step hw.2 hstep, hw.2.step hstep⟩) ⟨?_, .new⟩
    simp [Spaced, World.new]
  obtain ⟨hbound, hok⟩ := hspaced
  have hlast : w.shared.cache.lastKidRefetch.elim start (· + kidRefetchMinInterval) ≤
      w.shared.now + kidRefetchMinInterval := by
    cases hlast : w.shared.cache.lastKidRefetch with
    | none => exact hok.now.trans (Nat.le_add_right _ _)
    | some t => exact Nat.add_le_add_right (hok.past t (.inr (.inr hlast))).2 _
  have hmul : kidRefetchMinInterval * w.shared.refetches ≤ kidRefetchMinInterval *
      (w.shared.refetches + w.calls.countP fun c => c.phase.refetches) :=
    Nat.mul_le_mul_left _ (Nat.le_add_right _ _)
  have hnow := hok.now
  unfold Spaced at hbound
  omega

theorem refetches_le_sample : ∃ es,
    Run (World.Step 3600000000000) (World.new Unit 0) es refetchedWorld ∧
      kidRefetchMinInterval * 1 ≤ (3600000000000 - 0) + kidRefetchMinInterval := by
  obtain ⟨es, h⟩ := sample_run
  exact ⟨es, h, refetches_le h⟩

end Refetches

section Refreshes

/-- When the last fetch ended. -/
def Shared.lastEnd (start : ℕ) (s : Shared κ) : ℕ :=
  max (s.cache.fetchedAt.getD start) (s.cache.lastRefreshFailure.getD start)

/-- The least time between two refreshes. -/
def minGap (interval : ℕ) : ℕ := min interval refreshRetryMinInterval

lemma Shared.Ok.lastEnd_le (h : s.Ok start) : s.lastEnd start ≤ s.now := by
  refine max_le ?_ ?_
  · cases hat : s.cache.fetchedAt with
    | none => exact h.now
    | some t => exact (h.past t (.inl hat)).2
  · cases hat : s.cache.lastRefreshFailure with
    | none => exact h.now
    | some t => exact (h.past t (.inr (.inl hat))).2

/-- A cached set is refreshed no sooner after the last fetch. -/
lemma Shared.Ok.lastEnd_add_le (h : s.Ok start) (hjwks : s.cache.jwks ≠ none)
    (hshould : s.cache.shouldRefresh interval s.now = true) :
    s.lastEnd start + minGap interval ≤ s.now := by
  rw [CacheState.shouldRefresh, if_neg (by simpa using hjwks), Bool.and_eq_true] at hshould
  obtain ⟨hfetched, hfailed⟩ := hshould
  have hserved : s.cache.fetchedAt ≠ none := fun hnone => hjwks (by
    rw [h.jwks, h.fetchedAt.mp hnone]
    rfl)
  obtain ⟨t, ht⟩ := Option.ne_none_iff_exists'.mp hserved
  have hpast := h.past t (.inl ht)
  rw [ht] at hfetched
  have hlong : interval ≤ s.now - t := of_decide_eq_true hfetched
  have hinterval : t + minGap interval ≤ s.now := by
    have hle : minGap interval ≤ interval := min_le_left _ _
    omega
  unfold Shared.lastEnd
  rw [ht]
  cases hat : s.cache.lastRefreshFailure with
  | none =>
    rw [Option.getD_none, Option.getD_some, max_eq_left hpast.1]
    exact hinterval
  | some f =>
    have hpast' := h.past f (.inr (.inl hat))
    rw [hat] at hfailed
    have hlong' : refreshRetryMinInterval ≤ s.now - f := of_decide_eq_true hfailed
    have hretry : f + minGap interval ≤ s.now := by
      have hle : minGap interval ≤ refreshRetryMinInterval := min_le_right _ _
      omega
    rw [Option.getD_some, Option.getD_some]
    rcases max_choice t f with hmax | hmax <;> rw [hmax] <;> assumption

lemma lastEnd_refused (h : s.Ok start) (hcache : s'.cache = s.cache.refused s.now) :
    s'.lastEnd start = s.now := by
  have hle := h.lastEnd_le
  unfold Shared.lastEnd at hle ⊢
  rw [hcache]
  exact max_eq_right ((le_max_left _ _).trans hle)

lemma lastEnd_store (h : s.Ok start) {document : DiscoveryDocument} {jwks : JwkSet κ}
    (hcache : s'.cache = s.cache.store document jwks s.now) : s'.lastEnd start = s.now := by
  unfold Shared.lastEnd
  rw [hcache]
  exact max_eq_left h.now

/-- The refreshes of a cached set that came to an end are as far apart as that. -/
structure Paced (interval start : ℕ) (w : World κ) : Prop where
  unloaded : w.shared.cache.jwks = none → w.shared.refreshes = 0
  bound : minGap interval * w.shared.refreshes + start ≤ w.shared.lastEnd start +
    minGap interval * (w.shared.abandoned + w.calls.countP fun c => c.phase.refreshes)
  apart : ∀ (i : ℕ) c, w.calls[i]? = some c → c.phase.refreshes = true →
    w.shared.cache.jwks ≠ none → w.shared.lastEnd start + minGap interval ≤ w.shared.now

/-- A refresh begins or ends, or neither; then it may be dropped. -/
inductive Refreshing (interval : ℕ) (s s' : Shared κ) (p p' : Phase κ) : Prop
  | begins (hcache : s'.cache = s.cache)
      (hshould : s.cache.shouldRefresh interval s.now = true)
      (hp : p.refreshes = false) (hp' : p'.refreshes = true)
      (hcount : s'.refreshes = s.refreshes + s.cache.jwks.isSome.toNat)
      (hdropped : s'.abandoned = s.abandoned)
  | ends (hp : p.refreshes = true) (hp' : p'.refreshes = false)
      (hcount : s'.refreshes = s.refreshes) (hdropped : s'.abandoned = s.abandoned)
      (hend : ∀ start, s.Ok start → s'.lastEnd start = s.now)
  | neither (hp' : p'.refreshes = false) (hcount : s'.refreshes = s.refreshes)
      (hdropped : s'.abandoned = s.abandoned + p.refreshes.toNat)

lemma Move.refreshing (h : Move interval i kid s p s' p') : Refreshing interval s s' p p' := by
  have hafter (r : Except HttpError (JwkSet κ)) : (afterJwks kid r).refreshes = false :=
    afterJwks_cases (P := fun p => p.refreshes = false) rfl fun _ _ => rfl
  cases h with
  | refresh hshould => exact .begins rfl hshould rfl rfl rfl rfl
  | fetched => exact .ends rfl rfl rfl rfl fun start h => lastEnd_store h rfl
  | refused => exact .ends rfl rfl rfl rfl fun start h => lastEnd_refused h rfl
  | check => exact .neither (by split <;> rfl) rfl rfl
  | fallBack => exact .neither (hafter _) rfl rfl
  | read => exact .neither (hafter _) rfl rfl
  | mayRefetch => exact .neither (by split <;> rfl) rfl rfl
  | _ => exact .neither rfl rfl rfl

/-- While another call asks, a move leaves the set and its moments. -/
lemma Keeps.of_not_asks (start : ℕ) (h : Keeps s s' p) (hp : p.asks = false) :
    s'.lastEnd start = s.lastEnd start ∧ s'.cache.jwks = s.cache.jwks := by
  unfold Shared.lastEnd
  cases h with
  | same hcache => rw [hcache]; exact ⟨rfl, rfl⟩
  | refused hasks => cases hp.symm.trans hasks
  | stored hasks => cases hp.symm.trans hasks
  | stamped hcache => rw [hcache]; exact ⟨rfl, rfl⟩

lemma Keeps.lastEnd_mono (h : Keeps s s' p) (hs : s.Ok start) :
    s.lastEnd start ≤ s'.lastEnd start := by
  cases h with
  | same hcache => unfold Shared.lastEnd; rw [hcache]
  | refused _ hcache => exact hs.lastEnd_le.trans (lastEnd_refused hs hcache).ge
  | stored _ document jwks hcache => exact hs.lastEnd_le.trans (lastEnd_store hs hcache).ge
  | stamped hcache => unfold Shared.lastEnd; rw [hcache]

lemma Keeps.jwks_eq_none (h : Keeps s s' p) (hnone : s'.cache.jwks = none) :
    s.cache.jwks = none := by
  cases h with
  | same hcache => rwa [hcache] at hnone
  | refused _ hcache => rwa [hcache] at hnone
  | stored _ document jwks hcache => rw [hcache] at hnone; cases hnone
  | stamped hcache => rwa [hcache] at hnone

lemma Paced.move (h : Paced interval start w) (hg : Guarded w) (hs : w.shared.Ok start)
    (hi : w.calls[i]? = some c) (hmove : Move interval i c.kid w.shared c.phase s p) :
    Paced interval start { shared := s, calls := w.calls.set i { c with phase := p } } := by
  obtain ⟨hnow, hkeeps⟩ := hmove.keeps
  have hcount := countP_set (b := { c with phase := p }) hi fun c : Call κ => c.phase.refreshes
  have hmono := hkeeps.lastEnd_mono hs
  have hbound := h.bound
  dsimp only at hcount
  generalize hn' : ((w.calls.set i { c with phase := p }).countP fun c => c.phase.refreshes) = n'
    at hcount
  generalize (w.calls.countP fun c => c.phase.refreshes) = n at hcount hbound
  have hothers : ∀ (j : ℕ) d, j ≠ i → w.calls[j]? = some d → d.phase.refreshes = true →
      s.cache.jwks ≠ none → s.lastEnd start + minGap interval ≤ s.now := by
    intro j d hji hj hd hjwks
    -- the call has the guard, so this one does not ask
    have hidle : c.phase.asks = false := by
      rw [← Bool.not_eq_true]
      intro hasks
      exact hji (hg.alone j i d c hj hi (holds_of_asks (asks_of_refreshes hd))
        (holds_of_asks hasks))
    obtain ⟨hend, hsame⟩ := hkeeps.of_not_asks start hidle
    rw [hend, hnow]
    exact h.apart j d hj hd (hsame ▸ hjwks)
  cases hmove.refreshing with
  | begins hcache hshould hp hp' hrefreshes hdropped =>
    refine ⟨fun hnone => ?_, ?_, fun j d hj hd hjwks => ?_⟩
    · have hbefore := hkeeps.jwks_eq_none hnone
      rw [hrefreshes, h.unloaded hbefore, hbefore]
      rfl
    · show minGap interval * s.refreshes + start ≤
        s.lastEnd start + minGap interval * (s.abandoned + _)
      rw [hp, hp'] at hcount
      have hle : w.shared.cache.jwks.isSome.toNat ≤ 1 := Bool.toNat_le _
      have hmul := Nat.mul_le_mul_left (minGap interval) hle
      rw [hn', hrefreshes, hdropped, show n' = n + 1 by simpa using hcount, ← Nat.add_assoc,
        Nat.mul_add _ _ 1, Nat.mul_add]
      omega
    · rcases of_getElem?_set hj with ⟨rfl, -⟩ | ⟨hji, hold⟩
      · have hgap := hs.lastEnd_add_le (hcache ▸ hjwks) hshould
        have hend : s.lastEnd start = w.shared.lastEnd start := by
          unfold Shared.lastEnd
          rw [hcache]
        show s.lastEnd start + minGap interval ≤ s.now
        rwa [hend, hnow]
      · exact hothers j d hji hold hd hjwks
  | ends hp hp' hrefreshes hdropped hend =>
    refine ⟨fun hnone => hrefreshes ▸ h.unloaded (hkeeps.jwks_eq_none hnone), ?_,
      fun j d hj hd hjwks => ?_⟩
    · show minGap interval * s.refreshes + start ≤
        s.lastEnd start + minGap interval * (s.abandoned + _)
      rw [hp, hp'] at hcount
      rw [hn', hrefreshes, hdropped, hend start hs]
      by_cases hjwks : w.shared.cache.jwks = none
      · rw [h.unloaded hjwks]
        have hstart := hs.now
        omega
      · have hgap := h.apart i c hi hp hjwks
        rw [show n = n' + 1 by simpa using hcount.symm, ← Nat.add_assoc, Nat.mul_add _ _ 1]
          at hbound
        omega
    · rcases of_getElem?_set hj with ⟨-, rfl⟩ | ⟨hji, hold⟩
      · cases hp'.symm.trans hd
      · exact hothers j d hji hold hd hjwks
  | neither hp' hrefreshes hdropped =>
    refine ⟨fun hnone => hrefreshes ▸ h.unloaded (hkeeps.jwks_eq_none hnone), ?_,
      fun j d hj hd hjwks => ?_⟩
    · show minGap interval * s.refreshes + start ≤
        s.lastEnd start + minGap interval * (s.abandoned + _)
      rw [hp'] at hcount
      rw [hn', hrefreshes, hdropped, Nat.add_assoc,
        show c.phase.refreshes.toNat + n' = n by
          rw [Nat.add_comm]
          simpa using hcount]
      exact hbound.trans (Nat.add_le_add_right hmono _)
    · rcases of_getElem?_set hj with ⟨-, rfl⟩ | ⟨hji, hold⟩
      · cases hp'.symm.trans hd
      · exact hothers j d hji hold hd hjwks

lemma Paced.step (h : Paced interval start w) (hg : Guarded w) (hs : w.shared.Ok start)
    (hstep : w.Step interval e w') : Paced interval start w' := by
  cases hstep with
  | tick d =>
    exact ⟨h.unloaded, h.bound, fun i c hi hc hjwks =>
      (h.apart i c hi hc hjwks).trans (Nat.le_add_right _ _)⟩
  | call kid =>
    refine ⟨h.unloaded, by simpa [Phase.refreshes] using h.bound, fun i c hi hc hjwks => ?_⟩
    rcases of_getElem?_concat hi with ⟨-, rfl⟩ | hold
    · cases hc
    · exact h.apart i c hold hc hjwks
  | move hi hmove => exact h.move hg hs hi hmove

lemma paced (h : Run (World.Step interval) (World.new κ start) es w) :
    Paced interval start w ∧ w.shared.Ok start := by
  have hall : Paced interval start w ∧ Guarded w ∧ w.shared.Ok start := by
    refine h.invariant (I := fun w => Paced interval start w ∧ Guarded w ∧ w.shared.Ok start)
      (fun hstep hw => ⟨hw.1.step hw.2.1 hw.2.2 hstep, hw.2.1.step hstep, hw.2.2.step hstep⟩)
      ⟨⟨fun _ => rfl, ?_, fun i c hi => ?_⟩, .new, .new⟩
    · simp [World.new, Shared.lastEnd]
    · simp [World.new] at hi
  exact ⟨hall.1, hall.2.2⟩

/-- However many calls find the cached set stale, the refreshes begun are one, one more for every
refresh interval or minute since the start, whichever is shorter, and those that were dropped while
they asked. -/
theorem refreshes_le (h : Run (World.Step interval) (World.new κ start) es w) :
    min interval refreshRetryMinInterval * w.shared.refreshes ≤
      (w.shared.now - start) +
        min interval refreshRetryMinInterval * (w.shared.abandoned + 1) := by
  obtain ⟨hpaced, hs⟩ := paced h
  have hone : (w.calls.countP fun c => c.phase.refreshes) ≤ 1 :=
    (List.countP_mono_left fun c _ => asks_of_refreshes).trans (guarded h).countP_asks
  have hmul := Nat.mul_le_mul_left (minGap interval) (Nat.add_le_add_left hone w.shared.abandoned)
  have hbound := hpaced.bound
  have hend := hs.lastEnd_le
  have hnow := hs.now
  show minGap interval * _ ≤ _ + minGap interval * _
  omega

theorem refreshes_le_sample : ∃ es,
    Run (World.Step 3600000000000) (World.new Unit 0) es refetchedWorld ∧
      min 3600000000000 refreshRetryMinInterval * 1 ≤
        (3600000000000 - 0) + min 3600000000000 refreshRetryMinInterval * (0 + 1) := by
  obtain ⟨es, h⟩ := sample_run
  exact ⟨es, h, refreshes_le h⟩

end Refreshes

end Postit.Identity.Discovery
