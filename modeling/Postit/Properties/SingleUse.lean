import Postit.Framework.Pool
import Postit.Framework.Trace
import Postit.OAuth.Flow

/-!
# An authorization is used once

One callback exchanges the code, one confirm makes the grant, and the tokens are always in one
place: with the callback, on the row, in the grant, in the revoke plan of the take that deleted
the row, or dropped by that take under the revoke-skip rule (`Flow.places`).

The invariant says of each request what it finds (`Fits`); at most one of them is a callback that
has not ended.  A callback's row outlives it because its expiry was moved past the time by which
callbacks end (`Prompt`).
-/

namespace Postit.OAuth

open Postit.Data (UserId PlatformId)
open Postit.Framework

variable {τ : Type} {timing : Timing}

/-! ## What is kept -/

/-- The tokens a callback holds. -/
def Task.tokens : Task τ → Option τ
  | .exchanged _ tokens _ => some tokens
  | _ => none

/-- Where tokens are, once for each place. -/
def Flow.places (s : Flow τ) : Multiset τ :=
  s.tasks.filterMap Task.tokens + (s.row.bind (·.grantTokens)).toList + s.grants.map (·.tokens) +
    s.planned + s.skipped.map (·.1)

/-- The state is consumed once, its code exchanged once and its result confirmed once, by the
user who started it and before it expires; and every token set that was issued is in one place. -/
structure UsedOnce (s : Flow τ) : Prop where
  consumed_once : s.consumptions ≤ 1
  exchanged_once : s.issued.length ≤ 1
  granted_once : s.grants.length ≤ 1
  granted : ∀ g ∈ s.grants, s.starter = some g.user ∧ g.at_ < g.expiry
  one_place : s.places = s.issued

/-- What may delete a row with tokens: the confirm that moved them into a grant, or a take, which
puts them in a revoke plan or drops them by the revoke-skip rule. -/
def Moved (s t : Flow τ) (r : OAuthState τ) (tokens : τ) : Action τ → Prop
  | .confirm caller _ _ _ _ now =>
    t.grants = { user := caller, tokens, at_ := now, expiry := r.expiresAt } :: s.grants
  | .takeExpiredResult around _ | .takeResultsOf _ around =>
    (planResultRevoke around r = .ok tokens ∧ t.planned = tokens :: s.planned) ∨
      ∃ skip, planResultRevoke around r = .error skip ∧ t.skipped = (tokens, skip) :: s.skipped
  | _ => False

/-! ## The invariant -/

/-- Whether a request is a callback that has not ended. -/
def Task.Live (task : Task τ) : Prop := task.began.isSome

/-- The row of a callback that has not stored its tokens. -/
def Bare (r : OAuthState τ) : Prop :=
  r.consumedAt.isSome ∧ r.grantTokens = none ∧ r.connectIdHash = none

/-- What a request finds. -/
def Fits (timing : Timing) (row : Option (OAuthState τ)) (issued : List τ) : Task τ → Prop
  | .consumed _ _ _ => issued = [] ∧ ∀ r, row = some r → Bare r
  | .preparing began =>
    issued = [] ∧ ∃ r, row = some r ∧ Bare r ∧
      began + timing.callbackDeadline + timing.callbackGrace ≤ r.expiresAt
  | .exchanged began tokens _ =>
    issued = [tokens] ∧ ∃ r, row = some r ∧ Bare r ∧
      began + timing.callbackDeadline + timing.callbackGrace ≤ r.expiresAt
  | .foreign _ => ∀ r, row = some r → r.consumedAt.isSome ∧ r.grantTokens.isSome
  | .done => True

/-- What holds of the row. -/
structure RowFits (s : Flow τ) (r : OAuthState τ) : Prop where
  starter : s.starter = some r.user
  fresh : r.consumedAt = none →
    r.grantTokens = none ∧ r.connectIdHash = none ∧ s.issued = [] ∧ s.consumptions = 0 ∧
      ∀ (i : ℕ) task, s.tasks[i]? = some task → ¬ task.Live
  confirmable : r.connectIdHash.isSome → r.grantTokens.isSome

/-- The invariant of an authorization. -/
structure Inv (timing : Timing) (s : Flow τ) : Prop where
  blank : s.starter = none → s.row = none ∧ s.tasks = [] ∧ s.issued = [] ∧ s.consumptions = 0
  row : ∀ r, s.row = some r → RowFits s r
  fits : ∀ (i : ℕ) task, s.tasks[i]? = some task → Fits timing s.row s.issued task
  alone : Alone Task.Live s.tasks
  consumed : s.consumptions ≤ 1
  exchanged : s.issued.length ≤ 1
  granted : ∀ g ∈ s.grants, s.starter = some g.user ∧ g.at_ < g.expiry
  places : s.places = s.issued

variable {s s' t : Flow τ} {i : ℕ} {task task' : Task τ} {r r' : OAuthState τ}

lemma Inv.usedOnce (h : Inv timing s) : UsedOnce s := by
  refine ⟨h.consumed, h.exchanged, ?_, h.granted, h.places⟩
  have hcard := congrArg Multiset.card h.places
  have hissued := h.exchanged
  simp only [Flow.places, Multiset.card_add, Multiset.coe_card, List.length_map] at hcard
  omega

/-- A request that is over, or reads for another user, is not a callback at work. -/
lemma not_live_done : ¬ (Task.done : Task τ).Live := by simp [Task.Live, Task.began]

lemma not_live_foreign (now : Time) : ¬ (Task.foreign now : Task τ).Live := by
  simp [Task.Live, Task.began]

/-- While the row holds tokens no callback is at work. -/
lemma Fits.not_live (h : Fits timing (some r) s.issued task) (hr : r.grantTokens.isSome) :
    ¬ task.Live := by
  intro hlive
  have hbare : ¬ Bare r := fun hbare => by simp [hbare.2.1] at hr
  cases task with
  | consumed found platform now => exact hbare (h.2 r rfl)
  | preparing began | exchanged began tokens remote =>
    obtain ⟨-, r', hr', hbare', -⟩ := h
    cases hr'
    exact hbare hbare'
  | foreign now => exact not_live_foreign now hlive
  | done => exact not_live_done hlive

/-! ## Steps on the row -/

/-- The row changes in what no callback relies on. -/
structure Mild (r r' : OAuthState τ) : Prop where
  user : r'.user = r.user
  consumedAt : r'.consumedAt = r.consumedAt
  grantTokens : r'.grantTokens = r.grantTokens
  connectIdHash : r'.connectIdHash.isSome → r.connectIdHash.isSome
  expiresAt : r.grantTokens = none → r.expiresAt ≤ r'.expiresAt

lemma Mild.bare (h : Mild r r') (hr : Bare r) : Bare r' := by
  obtain ⟨hconsumed, htokens, hhash⟩ := hr
  refine ⟨h.consumedAt ▸ hconsumed, h.grantTokens.trans htokens, ?_⟩
  by_contra hsome
  have := h.connectIdHash (Option.isSome_iff_ne_none.mpr hsome)
  simp [hhash] at this

/-- What a request finds, it finds after a mild change of the row. -/
lemma Fits.mild (h : Fits timing (some r) s.issued task) (hmild : Mild r r') :
    Fits timing (some r') s.issued task := by
  cases task with
  | consumed found platform now =>
    refine ⟨h.1, fun r₁ hr₁ => ?_⟩
    cases hr₁
    exact hmild.bare (h.2 r rfl)
  | preparing began | exchanged began tokens remote =>
    obtain ⟨hissued, r₁, hr₁, hbare, hle⟩ := h
    cases hr₁
    exact ⟨hissued, r', rfl, hmild.bare hbare, hle.trans (hmild.expiresAt hbare.2.1)⟩
  | foreign now =>
    intro r₁ hr₁
    cases hr₁
    rw [hmild.consumedAt, hmild.grantTokens]
    exact h r rfl
  | done => trivial

/-- What a request finds when the row is gone. -/
lemma Fits.gone {row : Option (OAuthState τ)} (h : Fits timing row s.issued task)
    (htask : ¬ task.Live ∨ ∃ found platform now, task = .consumed found platform now) :
    Fits timing none s.issued task := by
  cases task with
  | consumed found platform now => exact ⟨h.1, fun r hr => nomatch hr⟩
  | preparing began | exchanged began tokens remote =>
    rcases htask with hlive | ⟨found, platform, now, heq⟩
    · exact absurd rfl hlive
    · cases heq
  | foreign now => exact fun r hr => nomatch hr
  | done => trivial

lemma Inv.mild (h : Inv timing s) (hrow : s.row = some r) (hmild : Mild r r') :
    Inv timing { s with row := some r' } := by
  have hr := h.row r hrow
  refine ⟨fun hnone => ?_, fun r₁ hr₁ => ?_, fun i task htask => ?_, h.alone, h.consumed,
    h.exchanged, h.granted, ?_⟩
  · have := (h.blank hnone).1
    simp [hrow] at this
  · cases hr₁
    refine ⟨hmild.user ▸ hr.starter, fun hnone => ?_, fun hsome => ?_⟩
    · obtain ⟨htokens, hhash, hrest⟩ := hr.fresh (hmild.consumedAt ▸ hnone)
      refine ⟨hmild.grantTokens.trans htokens, ?_, hrest⟩
      by_contra hne
      have := hmild.connectIdHash (Option.isSome_iff_ne_none.mpr hne)
      simp [hhash] at this
    · rw [hmild.grantTokens]
      exact hr.confirmable (hmild.connectIdHash hsome)
  · have hfits := h.fits i task htask
    rw [hrow] at hfits
    exact hfits.mild hmild
  · have hplaces := h.places
    simp only [Flow.places, hrow, Option.bind_some] at hplaces ⊢
    rw [hmild.grantTokens]
    exact hplaces

/-- A row without tokens is deleted, and no callback relies on it. -/
lemma Inv.delete (h : Inv timing s) (hrow : ∀ r, s.row = some r → r.grantTokens = none)
    (htasks : ∀ (i : ℕ) task, s.tasks[i]? = some task →
      ¬ task.Live ∨ ∃ found platform now, task = .consumed found platform now) :
    Inv timing { s with row := none } := by
  refine ⟨fun hnone => ⟨rfl, (h.blank hnone).2⟩, (fun r hr => nomatch hr), fun i task htask => ?_,
    h.alone, h.consumed, h.exchanged, h.granted, ?_⟩
  · exact (h.fits i task htask).gone (htasks i task htask)
  · have hplaces := h.places
    have hnone : s.row.bind (·.grantTokens) = none := by
      cases hr : s.row with
      | none => rfl
      | some r => exact hrow r hr
    simp only [Flow.places, hnone, Option.bind_none] at hplaces ⊢
    exact hplaces

/-! ## Steps of a request -/

/-- A request that is not a callback at work relies on no token. -/
lemma Fits.idle {row : Option (OAuthState τ)} {issued issued' : List τ}
    (h : Fits timing row issued task) (hidle : ¬ task.Live) : Fits timing row issued' task := by
  cases task with
  | foreign now => exact h
  | done => trivial
  | _ => exact absurd rfl hidle

lemma tokens_of_not_live (hidle : ¬ task.Live) : task.tokens = none := by
  cases task with
  | exchanged began tokens remote => exact absurd rfl hidle
  | _ => rfl

/-- A request goes on, with the tokens it had. -/
lemma Inv.become (h : Inv timing s) (htask : s.tasks[i]? = some task)
    (hfits : Fits timing s.row s.issued task') (hlive : task'.Live → task.Live)
    (htokens : task'.tokens = task.tokens) : Inv timing (s.become i task') := by
  refine ⟨fun hnone => ?_, fun r hr => ?_, fun j other hj => ?_, ?_, h.consumed, h.exchanged,
    h.granted, ?_⟩
  · obtain ⟨-, htasks, -⟩ := h.blank hnone
    simp [htasks] at htask
  · have hrow := h.row r hr
    refine ⟨hrow.starter, fun hfresh => ?_, hrow.confirmable⟩
    obtain ⟨hgrant, hhash, hissued, hcount, hidle⟩ := hrow.fresh hfresh
    refine ⟨hgrant, hhash, hissued, hcount, fun j other hj => ?_⟩
    rcases of_getElem?_set hj with ⟨-, rfl⟩ | ⟨-, hold⟩
    · exact fun hl => hidle i task htask (hlive hl)
    · exact hidle j other hold
  · rcases of_getElem?_set hj with ⟨-, rfl⟩ | ⟨-, hold⟩
    · exact hfits
    · exact h.fits j other hold
  · by_cases hl : task.Live
    · exact h.alone.set htask hl task'
    · exact h.alone.of_idle (fun hl' => hl (hlive hl')) fun j other hj =>
        (of_getElem?_set hj).imp And.right And.right
  · have hheld := filterMap_set (b := task') htask Task.tokens
    rw [htokens, add_left_inj] at hheld
    have hplaces := h.places
    simp only [Flow.places, Flow.become] at hplaces ⊢
    rw [hheld]
    exact hplaces

/-- A request that holds no token ends. -/
lemma Inv.finish (h : Inv timing s) (htask : s.tasks[i]? = some task)
    (htokens : task.tokens = none) : Inv timing (s.become i .done) :=
  h.become htask trivial (fun hl => absurd hl not_live_done) htokens.symm

/-- A request that is not a callback comes in. -/
lemma Inv.spawn (h : Inv timing s) (hstarter : s.starter ≠ none)
    (hfits : Fits timing s.row s.issued task) (hidle : ¬ task.Live) :
    Inv timing (s.spawn task) := by
  refine ⟨fun hnone => absurd hnone hstarter, fun r hr => ?_, fun j other hj => ?_, ?_, h.consumed,
    h.exchanged, h.granted, ?_⟩
  · have hrow := h.row r hr
    refine ⟨hrow.starter, fun hfresh => ?_, hrow.confirmable⟩
    obtain ⟨hgrant, hhash, hissued, hcount, hnobody⟩ := hrow.fresh hfresh
    refine ⟨hgrant, hhash, hissued, hcount, fun j other hj => ?_⟩
    rcases of_getElem?_concat hj with ⟨-, rfl⟩ | hold
    · exact hidle
    · exact hnobody j other hold
  · rcases of_getElem?_concat hj with ⟨-, rfl⟩ | hold
    · exact hfits
    · exact h.fits j other hold
  · exact h.alone.of_idle hidle fun j other hj => (of_getElem?_concat hj).imp And.right id
  · have hplaces := h.places
    simp only [Flow.places, Flow.spawn, List.filterMap_append, List.filterMap_cons,
      List.filterMap_nil, tokens_of_not_live hidle, List.append_nil] at hplaces ⊢
    exact hplaces

/-- Everything but the clock may be read off the rest. -/
lemma Inv.clock (h : Inv timing s) (until_ : Time) : Inv timing { s with clock := until_ } :=
  ⟨h.blank, fun r hr => ⟨(h.row r hr).starter, (h.row r hr).fresh, (h.row r hr).confirmable⟩,
    h.fits, h.alone, h.consumed, h.exchanged, h.granted, h.places⟩

/-- The authorization starts. -/
lemma Inv.start (h : Inv timing s) (hnone : s.starter = none) (user : UserId)
    (platform : PlatformId) (expires : Time) :
    Inv timing
      { s with row := some { user, platform, expiresAt := expires }, starter := some user } := by
  obtain ⟨hrow, htasks, hissued, hcount⟩ := h.blank hnone
  refine ⟨(fun hstarter => nomatch hstarter), fun r hr => ?_, fun j other hj => ?_, h.alone,
    h.consumed, h.exchanged, fun g hg => ?_, ?_⟩
  · cases hr
    exact ⟨rfl, fun _ => ⟨rfl, rfl, hissued, hcount, by simp [htasks]⟩,
      (fun hsome => nomatch hsome)⟩
  · simp [htasks] at hj
  · have := (h.granted g hg).1
    rw [hnone] at this
    cases this
  · have hplaces := h.places
    simp only [Flow.places, hrow, Option.bind_none, Option.bind_some] at hplaces ⊢
    exact hplaces

/-- A callback consumes the state. -/
lemma Inv.consume (h : Inv timing s) {platform : PlatformId} {now : Time}
    (hconsume : OAuthStateRepo.consumeState s.row now = some r') :
    Inv timing
      ({ s with row := some r', consumptions := s.consumptions + 1 }.spawn
        (.consumed r' platform now)) := by
  unfold OAuthStateRepo.consumeState at hconsume
  cases hr : s.row with
  | none => simp [hr] at hconsume
  | some r =>
    simp only [hr] at hconsume
    by_cases hfresh : r.consumedAt.isNone
    · rw [if_pos hfresh, Option.some.injEq] at hconsume
      subst hconsume
      have hrow := h.row r hr
      obtain ⟨hgrant, hhash, hissued, hcount, hnobody⟩ :=
        hrow.fresh (Option.isNone_iff_eq_none.mp hfresh)
      have hbare : Bare { r with consumedAt := some now } := ⟨rfl, hgrant, hhash⟩
      refine ⟨fun hnone => ?_, fun r₁ hr₁ => ?_, fun j other hj => ?_, ?_, ?_, h.exchanged,
        h.granted, ?_⟩
      · have := (h.blank hnone).1
        simp [hr] at this
      · cases hr₁
        exact ⟨hrow.starter, (fun hnone => nomatch hnone), fun hsome => by simp [hhash] at hsome⟩
      · rcases of_getElem?_concat hj with ⟨-, rfl⟩ | hold
        · refine ⟨hissued, fun r₁ hr₁ => ?_⟩
          cases hr₁
          exact hbare
        · have hfits := h.fits j other hold
          cases other with
          | foreign now' =>
            obtain ⟨hconsumed, -⟩ := hfits r hr
            simp [Option.isNone_iff_eq_none.mp hfresh] at hconsumed
          | done => trivial
          | _ => exact absurd rfl (hnobody j _ hold)
      · exact Alone.concat (fun j other hj => hnobody j other hj) _
      · simp only [Flow.spawn]
        omega
      · have hplaces := h.places
        simp only [Flow.places, Flow.spawn, hr, hgrant, List.filterMap_append, List.filterMap_cons,
          List.filterMap_nil, Task.tokens, List.append_nil, Option.bind_some] at hplaces ⊢
        exact hplaces
    · rw [if_neg hfresh] at hconsume
      cases hconsume

/-- A callback exchanges the code for tokens. -/
lemma Inv.exchange (h : Inv timing s) {began : Time}
    (htask : s.tasks[i]? = some (.preparing began)) (tokens : τ) (remoteUserId : Option String) :
    Inv timing
      ({ s with issued := tokens :: s.issued }.become i
        (.exchanged began tokens remoteUserId)) := by
  have hfits := h.fits i _ htask
  obtain ⟨hissued, r, hr, hbare, hle⟩ := hfits
  refine ⟨fun hnone => ?_, fun r₁ hr₁ => ?_, fun j other hj => ?_, h.alone.set htask rfl _,
    h.consumed, by simp [Flow.become, hissued], h.granted, ?_⟩
  · have := (h.blank hnone).1
    simp [hr] at this
  · obtain rfl : r = r₁ := by
      have : s.row = some r₁ := hr₁
      rw [hr] at this
      exact Option.some.inj this
    have hrow := h.row r hr
    refine ⟨hrow.starter, fun hfresh => ?_, hrow.confirmable⟩
    have := hbare.1
    simp [hfresh] at this
  · rcases of_getElem?_set hj with ⟨-, rfl⟩ | ⟨hji, hold⟩
    · exact ⟨by simp [Flow.become, hissued], r, hr, hbare, hle⟩
    · exact (h.fits j other hold).idle (h.alone.others htask rfl hji hold)
  · have hheld := filterMap_set (b := .exchanged began tokens remoteUserId) htask Task.tokens
    simp only [Task.tokens, Option.toList_none, Option.toList_some, Multiset.coe_nil, add_zero]
      at hheld
    have hplaces := h.places
    simp only [Flow.places, Flow.become, hheld, ← Multiset.cons_coe] at hplaces ⊢
    rw [← hplaces, ← Multiset.singleton_add]
    simp only [← Multiset.singleton_add, Multiset.coe_nil, add_zero]
    abel

/-- A callback stores its tokens on the row. -/
lemma Inv.store (h : Inv timing s) {began : Time} {tokens : τ} {remoteUserId : Option String}
    (htask : s.tasks[i]? = some (.exchanged began tokens remoteUserId)) (hr : s.row = some r)
    (huser : r'.user = r.user) (hconsumed : r'.consumedAt = r.consumedAt)
    (htokens : r'.grantTokens = some tokens) :
    Inv timing ({ s with row := some r' }.become i .done) := by
  have hfits := h.fits i _ htask
  obtain ⟨hissued, r₁, hr₁, hbare, -⟩ := hfits
  obtain rfl : r = r₁ := by
    rw [hr] at hr₁
    exact Option.some.inj hr₁
  have hrow := h.row r hr
  have hconsumed' : r'.consumedAt.isSome := hconsumed ▸ hbare.1
  refine ⟨fun hnone => ?_, fun r₁ hr₁ => ?_, fun j other hj => ?_, h.alone.set htask rfl _,
    h.consumed, h.exchanged, h.granted, ?_⟩
  · have := (h.blank hnone).1
    simp [hr] at this
  · cases hr₁
    refine ⟨huser ▸ hrow.starter, fun hfresh => ?_, fun _ => by simp [htokens]⟩
    simp [hfresh] at hconsumed'
  · rcases of_getElem?_set hj with ⟨-, rfl⟩ | ⟨hji, hold⟩
    · trivial
    · have hidle := h.alone.others htask rfl hji hold
      cases other with
      | foreign now =>
        intro r₁ hr₁
        cases hr₁
        exact ⟨hconsumed', by simp [htokens]⟩
      | done => trivial
      | _ => exact absurd rfl hidle
  · have hheld := filterMap_set (b := .done) htask Task.tokens
    simp only [Task.tokens, Option.toList_none, Option.toList_some, Multiset.coe_nil, add_zero]
      at hheld
    have hplaces := h.places
    simp only [Flow.places, Flow.become, hr, Option.bind_some, hbare.2.1, htokens, ← hheld,
      Option.toList_none, Option.toList_some, Multiset.coe_nil, add_zero] at hplaces ⊢
    exact hplaces

/-! ## Takes and confirms -/

/-- A row with tokens is deleted, and its tokens go to another place. -/
lemma Inv.move (h : Inv timing s) (hr : s.row = some r) {tokens : τ}
    (htokens : r.grantTokens = some tokens) (hrow : t.row = none) (htasks : t.tasks = s.tasks)
    (hstarter : t.starter = s.starter) (hcount : t.consumptions = s.consumptions)
    (hissued : t.issued = s.issued)
    (hgranted : ∀ g ∈ t.grants, t.starter = some g.user ∧ g.at_ < g.expiry)
    (hplaces : (t.grants.map (·.tokens) + t.planned + t.skipped.map (·.1) : Multiset τ) =
      {tokens} + (s.grants.map (·.tokens) + s.planned + s.skipped.map (·.1))) :
    Inv timing t := by
  have hsome : r.grantTokens.isSome := by simp [htokens]
  refine ⟨fun hnone => ?_, fun r₁ hr₁ => ?_, fun j task htask => ?_, htasks ▸ h.alone,
    hcount ▸ h.consumed, hissued ▸ h.exchanged, hgranted, ?_⟩
  · have := (h.blank (hstarter ▸ hnone)).1
    simp [hr] at this
  · rw [hrow] at hr₁
    cases hr₁
  · rw [htasks] at htask
    have hfits := h.fits j task htask
    rw [hr] at hfits
    rw [hrow, hissued]
    exact (h.fits j task htask).gone (.inl (hfits.not_live hsome))
  · have hbefore := h.places
    simp only [Flow.places, hr, Option.bind_some, htokens, Option.toList_some] at hbefore
    simp only [Flow.places, hrow, htasks, hissued, Option.bind_none, Option.toList_none,
      Multiset.coe_nil, add_zero]
    rw [← hbefore, add_assoc, add_assoc, ← add_assoc _ (t.planned : Multiset τ), hplaces,
      Multiset.coe_singleton]
    abel

lemma planResultRevoke_ok {around : Surroundings τ} {tokens tokens' : τ}
    (htokens : r.grantTokens = some tokens) (h : planResultRevoke around r = .ok tokens') :
    tokens' = tokens := by
  unfold planResultRevoke at h
  rw [htokens] at h
  cases hremote : r.remoteUserId with
  | none => simp [hremote] at h
  | some remote =>
    simp only [hremote] at h
    split_ifs at h
    exact (Except.ok.inj h).symm

/-- A take deletes the row and plans the revoke of its tokens, or drops them for a reason. -/
lemma Inv.take (h : Inv timing s) (hr : s.row = some r) (hsome : r.grantTokens.isSome)
    (around : Surroundings τ) :
    Inv timing (s.take around r) ∧ ∀ tokens, r.grantTokens = some tokens →
      (planResultRevoke around r = .ok tokens ∧
          (s.take around r).planned = tokens :: s.planned) ∨
        ∃ skip, planResultRevoke around r = .error skip ∧
          (s.take around r).skipped = (tokens, skip) :: s.skipped := by
  obtain ⟨tokens, htokens⟩ := Option.isSome_iff_exists.mp hsome
  unfold Flow.take
  rw [htokens]
  cases hplan : planResultRevoke around r with
  | ok tokens' =>
    obtain rfl := planResultRevoke_ok htokens hplan
    refine ⟨h.move hr htokens rfl rfl rfl rfl rfl h.granted ?_, fun tokens heq => ?_⟩
    · simp only [← Multiset.cons_coe, ← Multiset.singleton_add]
      abel
    · cases heq
      exact .inl ⟨rfl, rfl⟩
  | error skip =>
    refine ⟨h.move hr htokens rfl rfl rfl rfl rfl h.granted ?_, fun tokens heq => ?_⟩
    · simp only [List.map_cons, ← Multiset.cons_coe, ← Multiset.singleton_add]
      abel
    · cases heq
      exact .inr ⟨skip, rfl, rfl⟩

/-- A discard hides a result and brings its end forward. -/
lemma Inv.discard (h : Inv timing s) (hsome : ∀ r, s.row = some r → r.grantTokens.isSome)
    (now : Time) : Inv timing { s with row := OAuthStateRepo.discard s.row now } := by
  cases hr : s.row with
  | none =>
    have hsame : { s with row := OAuthStateRepo.discard none now } = s := by
      rw [OAuthStateRepo.discard, Option.map_none, ← hr]
    rw [hsame]
    exact h
  | some r =>
    refine h.mild hr ⟨rfl, rfl, rfl, (fun hhash => nomatch hhash), fun hnone => ?_⟩
    have := hsome r hr
    simp [hnone] at this

lemma findResult_eq_some {row : Option (OAuthState τ)} {hash : Bytes}
    (h : OAuthStateRepo.findResult row hash = some r) :
    row = some r ∧ r.connectIdHash = some hash := by
  obtain ⟨hrow, hhash⟩ := Option.filter_eq_some_iff.mp h
  exact ⟨hrow, by simpa using hhash⟩

/-- A confirm moves the tokens into a grant, discards the result or changes nothing. -/
lemma Inv.confirm (h : Inv timing s) (hr : s.row = some r) (hhash : r.connectIdHash.isSome)
    (caller : UserId) (accountIds : Option (List String)) (upsert : String → AccountUpsert)
    (around : Surroundings τ) (now : Time) :
    Inv timing (s.confirmOauth caller r accountIds upsert around now) ∧
      ((s.confirmOauth caller r accountIds upsert around now).row = none →
        ∀ tokens, r.grantTokens = some tokens →
          (s.confirmOauth caller r accountIds upsert around now).grants =
            { user := caller, tokens, at_ := now, expiry := r.expiresAt } :: s.grants) := by
  have hrow := h.row r hr
  have hsome := hrow.confirmable hhash
  have hdiscard : Inv timing { s with row := OAuthStateRepo.discard s.row now } ∧
      ({ s with row := OAuthStateRepo.discard s.row now }.row = none →
        ∀ tokens, r.grantTokens = some tokens →
          { s with row := OAuthStateRepo.discard s.row now }.grants =
            { user := caller, tokens, at_ := now, expiry := r.expiresAt } :: s.grants) := by
    refine ⟨h.discard (fun r₁ hr₁ => ?_) now, fun hnone => ?_⟩
    · rw [hr] at hr₁
      cases hr₁
      exact hsome
    · simp [hr, OAuthStateRepo.discard] at hnone
  unfold Flow.confirmOauth
  by_cases hrefused : r.user ≠ caller ∨ r.expiresAt ≤ now
  · rw [if_pos hrefused]
    exact hdiscard
  rw [if_neg hrefused]
  obtain ⟨huser, hexpiry⟩ := not_or.mp hrefused
  by_cases hresolves : !around.resolves r.platform
  · rw [if_pos hresolves]
    exact hdiscard
  rw [if_neg hresolves]
  obtain ⟨tokens, htokens⟩ := Option.isSome_iff_exists.mp hsome
  cases hdiscovered : r.discovered with
  | none =>
    simp only [htokens]
    exact htokens ▸ hdiscard
  | some discovered =>
    simp only [htokens]
    by_cases hopens : !around.opens tokens
    · rw [if_pos hopens]
      exact htokens ▸ hdiscard
    rw [if_neg hopens]
    cases hconnect : connectAccounts upsert (choose discovered accountIds) with
    | none => exact ⟨h, fun hnone => by simp [hr] at hnone⟩
    | some accounts =>
      cases accounts with
      | nil => exact htokens ▸ hdiscard
      | cons account accounts =>
        refine ⟨h.move hr htokens rfl rfl rfl rfl rfl (fun g hg => ?_) ?_, fun _ tokens' heq => ?_⟩
        · rcases List.mem_cons.mp hg with rfl | hg
          · exact ⟨not_not.mp huser ▸ hrow.starter, not_le.mp hexpiry⟩
          · exact h.granted g hg
        · simp only [List.map_cons, ← Multiset.cons_coe, ← Multiset.singleton_add]
          abel
        · cases heq
          rfl

/-! ## Runs -/

/-- A state that its callback does not accept is deleted, one that it accepts is kept alive. -/
lemma Inv.takeState (h : Inv timing s) {found : OAuthState τ} {platform : PlatformId} {now : Time}
    (htask : s.tasks[i]? = some (.consumed found platform now)) :
    Inv timing (s.takeState timing i found platform now) ∧
      ((s.takeState timing i found platform now).row = none →
        ∀ r, s.row = some r → r.grantTokens = none) := by
  have hfits := h.fits i _ htask
  obtain ⟨hissued, hbare⟩ := hfits
  refine ⟨?_, fun _ r hr => (hbare r hr).2.1⟩
  unfold Flow.takeState
  by_cases hrefused : found.platform ≠ platform ∨ found.expiresAt ≤ now
  · rw [if_pos hrefused]
    have hdone := h.finish htask rfl
    refine hdone.delete (fun r hr => (hbare r hr).2.1) fun j other hj => ?_
    rcases of_getElem?_set hj with ⟨-, rfl⟩ | ⟨hji, hold⟩
    · exact .inl not_live_done
    · exact .inl (h.alone.others htask rfl hji hold)
  rw [if_neg hrefused]
  cases hr : s.row with
  | none => exact h.finish htask rfl
  | some r =>
    have hmild : Mild r
        { r with
          expiresAt := max r.expiresAt (now + timing.callbackDeadline + timing.callbackGrace) } :=
      ⟨rfl, rfl, rfl, id, fun _ => le_max_left _ _⟩
    refine (h.mild hr hmild).become htask ?_ (fun _ => rfl) rfl
    exact ⟨hissued, _, rfl, hmild.bare (hbare r hr), le_max_right _ _⟩

/-- A callback that fails before it has tokens deletes the row. -/
lemma Inv.deleteState (h : Inv timing s) {began : Time}
    (htask : s.tasks[i]? = some (.preparing began)) :
    Inv timing ({ s with row := none }.become i .done) ∧
      ∀ r, s.row = some r → r.grantTokens = none := by
  have hfits := h.fits i _ htask
  obtain ⟨-, r, hr, hbare, -⟩ := hfits
  have hnone : ∀ r, s.row = some r → r.grantTokens = none := by
    intro r₁ hr₁
    rw [hr] at hr₁
    cases hr₁
    exact hbare.2.1
  have hdone := h.finish htask rfl
  refine ⟨hdone.delete hnone fun j other hj => ?_, hnone⟩
  rcases of_getElem?_set hj with ⟨-, rfl⟩ | ⟨hji, hold⟩
  · exact .inl not_live_done
  · exact .inl (h.alone.others htask rfl hji hold)

/-- An expired row without tokens has no callback at work on it that ends in time. -/
lemma Inv.purgeExpired (h : Inv timing s) (hprompt : s.Prompt timing) {now : Time}
    (hnow : now ≤ s.clock) :
    Inv timing { s with row := OAuthStateRepo.purgeExpired s.row now } ∧
      (OAuthStateRepo.purgeExpired s.row now = none →
        ∀ r, s.row = some r → r.grantTokens = none) := by
  cases hr : s.row with
  | none =>
    refine ⟨?_, fun _ r hr => nomatch hr⟩
    have hsame : { s with row := OAuthStateRepo.purgeExpired none now } = s := by
      rw [OAuthStateRepo.purgeExpired, Option.filter_none, ← hr]
    rw [hsame]
    exact h
  | some r =>
    unfold OAuthStateRepo.purgeExpired
    rw [Option.filter_some]
    by_cases hexpired : r.expiresAt ≤ now ∧ r.grantTokens = none
    · rw [if_neg (by simp [hexpired])]
      have hnone : ∀ r', s.row = some r' → r'.grantTokens = none := by
        intro r' hr'
        rw [hr] at hr'
        cases hr'
        exact hexpired.2
      refine ⟨h.delete hnone fun j task htask => ?_, fun _ => hr ▸ hnone⟩
      have hfits := h.fits j task htask
      have hends := hprompt task (List.mem_of_getElem? htask)
      cases task with
      | consumed found platform began => exact .inr ⟨found, platform, began, rfl⟩
      | preparing began | exchanged began tokens remote =>
        obtain ⟨-, r₁, hr₁, -, hle⟩ := hfits
        rw [hr] at hr₁
        cases hr₁
        have hlate := hends began rfl
        exact absurd hlate (not_lt.mpr (hle.trans (hexpired.1.trans hnow)))
      | foreign began => exact .inl (not_live_foreign began)
      | done => exact .inl not_live_done
    · have hkept : (!(decide (r.expiresAt ≤ now) && r.grantTokens.isNone)) = true := by
        by_contra hdeleted
        exact hexpired (by simpa [Option.isNone_iff_eq_none] using hdeleted)
      rw [if_pos hkept]
      exact ⟨hr ▸ h, (fun hnone => nomatch hnone)⟩

lemma Inv.deleteUnconsumedOf (h : Inv timing s) (user : UserId) :
    Inv timing { s with row := OAuthStateRepo.deleteUnconsumedOf s.row user } ∧
      (OAuthStateRepo.deleteUnconsumedOf s.row user = none →
        ∀ r, s.row = some r → r.grantTokens = none) := by
  cases hr : s.row with
  | none =>
    refine ⟨?_, fun _ r hr => nomatch hr⟩
    have hsame : { s with row := OAuthStateRepo.deleteUnconsumedOf none user } = s := by
      rw [OAuthStateRepo.deleteUnconsumedOf, Option.filter_none, ← hr]
    rw [hsame]
    exact h
  | some r =>
    unfold OAuthStateRepo.deleteUnconsumedOf
    rw [Option.filter_some]
    by_cases hfresh : r.user = user ∧ r.consumedAt = none ∧ r.grantTokens = none
    · rw [if_neg (by simp [hfresh])]
      have hnone : ∀ r', s.row = some r' → r'.grantTokens = none := by
        intro r' hr'
        rw [hr] at hr'
        cases hr'
        exact hfresh.2.2
      obtain ⟨-, -, -, -, hnobody⟩ := (h.row r hr).fresh hfresh.2.1
      exact ⟨h.delete hnone fun j task htask => .inl (hnobody j task htask), fun _ => hr ▸ hnone⟩
    · have hkept : (!(decide (r.user = user) && r.consumedAt.isNone && r.grantTokens.isNone)) =
          true := by
        by_contra hdeleted
        exact hfresh (by simpa [Option.isNone_iff_eq_none, and_assoc] using hdeleted)
      rw [if_pos hkept]
      exact ⟨hr ▸ h, (fun hnone => nomatch hnone)⟩

/-- A step keeps the invariant, and deletes a row with tokens only as `Moved` says. -/
lemma Inv.step {a : Action τ} (h : Inv timing s) (hprompt : s.Prompt timing)
    (hstep : s.Step timing a t) :
    Inv timing t ∧ ∀ r tokens, s.row = some r → r.grantTokens = some tokens → t.row = none →
      Moved s t r tokens a := by
  obtain ⟨hreading, hstep⟩ := hstep
  -- most steps delete no row with tokens
  have hbare : (t.row = none → ∀ r, s.row = some r → r.grantTokens = none) →
      ∀ r tokens, s.row = some r → r.grantTokens = some tokens → t.row = none →
        Moved s t r tokens a := by
    intro hnone r tokens hr htokens hgone
    have := hnone hgone r hr
    rw [htokens] at this
    cases this
  have hkept : t.row = s.row → ∀ r tokens, s.row = some r → r.grantTokens = some tokens →
      t.row = none → Moved s t r tokens a := by
    intro hsame r tokens hr _ hgone
    rw [hsame, hr] at hgone
    cases hgone
  cases a with
  | tick until_ =>
    simp only [Flow.perform] at hstep
    by_cases hle : s.clock ≤ until_
    · rw [if_pos hle, Option.some.injEq] at hstep
      subst hstep
      exact ⟨h.clock until_, hkept rfl⟩
    · rw [if_neg hle] at hstep
      cases hstep
  | startOauth user platform =>
    simp only [Flow.perform] at hstep
    cases hstarter : s.starter with
    | some u => simp [hstarter] at hstep
    | none =>
      simp only [hstarter, Option.some.injEq] at hstep
      subst hstep
      exact ⟨h.start hstarter user platform _, hbare fun hnone => nomatch hnone⟩
  | consumeState platform now =>
    simp only [Flow.perform] at hstep
    cases hconsume : OAuthStateRepo.consumeState s.row now with
    | none => simp [hconsume] at hstep
    | some r' =>
      simp only [hconsume, Option.some.injEq] at hstep
      subst hstep
      exact ⟨h.consume hconsume, hbare fun hnone => nomatch hnone⟩
  | takeState i =>
    simp only [Flow.perform] at hstep
    split at hstep
    · next found platform now htask =>
      rw [Option.some.injEq] at hstep
      subst hstep
      obtain ⟨hinv, hnone⟩ := h.takeState htask
      exact ⟨hinv, hbare hnone⟩
    · cases hstep
  | deleteState i =>
    simp only [Flow.perform] at hstep
    split at hstep
    · next began htask =>
      rw [Option.some.injEq] at hstep
      subst hstep
      obtain ⟨hinv, hnone⟩ := h.deleteState htask
      exact ⟨hinv, hbare fun _ => hnone⟩
    · cases hstep
  | exchange i tokens remoteUserId =>
    simp only [Flow.perform] at hstep
    split at hstep
    · next began htask =>
      rw [Option.some.injEq] at hstep
      subst hstep
      exact ⟨h.exchange htask tokens remoteUserId, hkept rfl⟩
    · cases hstep
  | storeResult i hash discovered =>
    simp only [Flow.perform] at hstep
    split at hstep
    · next began tokens remoteUserId htask =>
      rw [Option.some.injEq] at hstep
      subst hstep
      obtain ⟨-, r, hr, -⟩ := h.fits i _ htask
      rw [OAuthStateRepo.storeResult, hr, Option.map_some]
      exact ⟨h.store htask hr rfl rfl rfl, fun _ _ _ _ hgone => nomatch hgone⟩
    · cases hstep
  | storeDiscarded i now =>
    simp only [Flow.perform] at hstep
    split at hstep
    · next began tokens remoteUserId htask =>
      rw [Option.some.injEq] at hstep
      subst hstep
      obtain ⟨-, r, hr, -⟩ := h.fits i _ htask
      rw [OAuthStateRepo.storeDiscarded, hr, Option.map_some]
      exact ⟨h.store htask hr rfl rfl rfl, fun _ _ _ _ hgone => nomatch hgone⟩
    · cases hstep
  | pending caller hash now =>
    simp only [Flow.perform] at hstep
    cases hfind : OAuthStateRepo.findResult s.row hash with
    | none => simp [hfind] at hstep
    | some r =>
      simp only [hfind] at hstep
      by_cases hforeign : r.user ≠ caller
      · rw [if_pos hforeign, Option.some.injEq] at hstep
        subst hstep
        obtain ⟨hr, hhash⟩ := findResult_eq_some hfind
        have hrow := h.row r hr
        have hstarter : s.starter ≠ none := by simp [hrow.starter]
        refine ⟨h.spawn hstarter (fun r₁ hr₁ => ?_) (not_live_foreign now), hkept rfl⟩
        rw [hr] at hr₁
        cases hr₁
        refine ⟨?_, hrow.confirmable (by simp [hhash])⟩
        by_contra hfresh
        obtain ⟨-, hnone, -⟩ := hrow.fresh (by simpa using hfresh)
        simp [hhash] at hnone
      · rw [if_neg hforeign] at hstep
        cases hstep
  | discardForeign i =>
    simp only [Flow.perform] at hstep
    split at hstep
    · next now htask =>
      rw [Option.some.injEq] at hstep
      subst hstep
      have hfits := h.fits i _ htask
      have hdiscard := h.discard (fun r hr => (hfits r hr).2) now
      refine ⟨hdiscard.finish htask rfl, hbare ?_⟩
      intro hgone r hr
      simp [Flow.become, OAuthStateRepo.discard, hr] at hgone
    · cases hstep
  | confirm caller hash accountIds upsert around now =>
    simp only [Flow.perform] at hstep
    cases hfind : OAuthStateRepo.findResult s.row hash with
    | none => simp [hfind] at hstep
    | some r =>
      simp only [hfind, Option.some.injEq] at hstep
      subst hstep
      obtain ⟨hr, hhash⟩ := findResult_eq_some hfind
      obtain ⟨hinv, hmoved⟩ :=
        h.confirm hr (by simp [hhash]) caller accountIds upsert around now
      refine ⟨hinv, fun r₁ tokens hr₁ htokens hgone => ?_⟩
      rw [hr] at hr₁
      cases hr₁
      exact hmoved hgone tokens htokens
  | discardResultsOfRemoteUser platform remoteUserId now =>
    simp only [Flow.perform, Option.some.injEq] at hstep
    subst hstep
    cases hr : s.row with
    | none =>
      have hsame : { s with
          row :=
            OAuthStateRepo.discardResultsOfRemoteUser none platform remoteUserId now } = s := by
        rw [OAuthStateRepo.discardResultsOfRemoteUser, Option.map_none, ← hr]
      rw [hsame]
      exact ⟨h, fun r tokens hr' => nomatch hr'⟩
    | some r =>
      rw [OAuthStateRepo.discardResultsOfRemoteUser, Option.map_some]
      refine ⟨h.mild hr ?_, fun r tokens hr' _ hgone => nomatch hgone⟩
      by_cases hmatch : r.platform = platform ∧ r.remoteUserId = some remoteUserId ∧
          r.grantTokens.isSome ∧ r.connectIdHash.isSome
      · rw [if_pos hmatch]
        refine ⟨rfl, rfl, rfl, (fun hhash => nomatch hhash), fun hnone => ?_⟩
        have := hmatch.2.2.1
        simp [hnone] at this
      · rw [if_neg hmatch]
        exact ⟨rfl, rfl, rfl, id, fun _ => le_rfl⟩
  | takeExpiredResult around now =>
    simp only [Flow.perform] at hstep
    cases htake : OAuthStateRepo.takeExpiredResult s.row now with
    | none => simp [htake] at hstep
    | some r =>
      simp only [htake, Option.some.injEq] at hstep
      subst hstep
      obtain ⟨hr, hcond⟩ := Option.filter_eq_some_iff.mp htake
      simp only [Bool.and_eq_true, decide_eq_true_eq] at hcond
      obtain ⟨hinv, hmoved⟩ := h.take hr hcond.2 around
      refine ⟨hinv, fun r₁ tokens hr₁ htokens _ => ?_⟩
      rw [hr] at hr₁
      cases hr₁
      exact hmoved tokens htokens
  | takeResultsOf user around =>
    simp only [Flow.perform] at hstep
    cases htake : OAuthStateRepo.takeResultsOf s.row user with
    | none => simp [htake] at hstep
    | some r =>
      simp only [htake, Option.some.injEq] at hstep
      subst hstep
      obtain ⟨hr, hcond⟩ := Option.filter_eq_some_iff.mp htake
      simp only [Bool.and_eq_true, decide_eq_true_eq] at hcond
      obtain ⟨hinv, hmoved⟩ := h.take hr hcond.2 around
      refine ⟨hinv, fun r₁ tokens hr₁ htokens _ => ?_⟩
      rw [hr] at hr₁
      cases hr₁
      exact hmoved tokens htokens
  | deleteUnconsumedOf user =>
    simp only [Flow.perform, Option.some.injEq] at hstep
    subst hstep
    obtain ⟨hinv, hnone⟩ := h.deleteUnconsumedOf user
    exact ⟨hinv, hbare hnone⟩
  | purgeExpired now =>
    simp only [Flow.perform, Option.some.injEq] at hstep
    subst hstep
    obtain ⟨hinv, hnone⟩ := h.purgeExpired hprompt (hreading now rfl)
    exact ⟨hinv, hbare hnone⟩

lemma Inv.init (timing : Timing) (start : Time) : Inv timing ({ clock := start } : Flow τ) :=
  ⟨fun _ => ⟨rfl, rfl, rfl, rfl⟩, (fun r hr => nomatch hr), (fun i task htask => by simp at htask),
    (fun i j a b ha => by simp at ha), by simp, by simp, (fun g hg => by simp at hg),
    by simp [Flow.places]⟩

/-- **An authorization is used once, and its tokens are never dropped but by the revoke-skip
rule.**  In every run whose callbacks end within their deadline and grace, the state is consumed
once, its code exchanged once and its result confirmed once, by the user who started it and before
it expires; every token set is in one place; and a row with tokens is deleted only by the confirm
that moved them into a grant, or by a take that plans their revoke or drops them by the rule. -/
theorem usedOnce_of_prompt {start : Time} {es : List (Action τ)}
    (run : Run (fun s a t => Flow.Step timing s a t ∧ t.Prompt timing) { clock := start } es s) :
    UsedOnce s ∧ ∀ a t, Flow.Step timing s a t → ∀ r tokens, s.row = some r →
      r.grantTokens = some tokens → t.row = none → Moved s t r tokens a := by
  have hstart : ({ clock := start } : Flow τ).Prompt timing := fun task htask => by simp at htask
  have hkeeps : ∀ {s : Flow τ} {a : Action τ} {t : Flow τ},
      Flow.Step timing s a t ∧ t.Prompt timing → Inv timing s ∧ s.Prompt timing →
        Inv timing t ∧ t.Prompt timing :=
    fun hstep hinv => ⟨(hinv.1.step hinv.2 hstep.1).1, hstep.2⟩
  obtain ⟨hinv, hprompt⟩ := run.invariant (I := fun s => Inv timing s ∧ s.Prompt timing) hkeeps
    ⟨Inv.init timing start, hstart⟩
  exact ⟨hinv.usedOnce, fun a t hstep => (hinv.step hprompt hstep).2⟩

/-- A step that reads the clock right and leaves no callback late, or none. -/
def Flow.checked (timing : Timing) (s : Flow τ) (a : Action τ) : Option (Flow τ) :=
  (s.perform timing a).filter fun t =>
    a.reading.all (fun now => decide (now ≤ s.clock)) &&
      t.tasks.all fun task => task.began.all fun began =>
        decide (t.clock < began + timing.callbackDeadline + timing.callbackGrace)

lemma checked_eq_some {a : Action τ} (h : s.checked timing a = some t) :
    Flow.Step timing s a t ∧ t.Prompt timing := by
  obtain ⟨hperform, hcheck⟩ := Option.filter_eq_some_iff.mp h
  simp only [Bool.and_eq_true, Option.all_eq_true, List.all_eq_true, decide_eq_true_eq] at hcheck
  exact ⟨⟨hcheck.1, hperform⟩, hcheck.2⟩

/-- Times to try the flow with: ten minutes, half a minute and a minute. -/
def sampleTiming : Timing :=
  { stateTtl := 600, callbackDeadline := 30, callbackGrace := 60 }

/-- Everything opens and resolves, and no remote user is in use elsewhere. -/
def sampleSurroundings : Surroundings ℕ :=
  { remoteUserInUse := fun _ _ => false, opens := fun _ => true, resolves := fun _ => true }

/-- An authorization whose first confirm fails, and whose second makes the grant. -/
def confirmedAgain : List (Action ℕ) :=
  [.startOauth 1 "threads", .tick 10, .consumeState "threads" 10, .takeState 0,
    .exchange 0 7 (some "remote"), .tick 20, .storeResult 0 [1] ["page", "other"],
    .confirm 1 [1] none (fun _ => .fails) sampleSurroundings 20,
    .confirm 1 [1] (some ["page"]) (fun _ => .connected) sampleSurroundings 20]

theorem usedOnce_confirmed_again :
    ∃ s : Flow ℕ,
      Run (fun s a t => Flow.Step sampleTiming s a t ∧ t.Prompt sampleTiming) { clock := 0 }
        confirmedAgain s ∧
      s.row.isNone ∧ s.grants.map (·.tokens) = [7] ∧ UsedOnce s := by
  have hend : (confirmedAgain.foldlM (Flow.checked sampleTiming) { clock := 0 }).map
      (fun s => (s.row.isNone, s.grants.map (·.tokens))) = some (true, [7]) := by
    decide
  obtain ⟨s, hs, heq⟩ := Option.map_eq_some_iff.mp hend
  obtain ⟨hrow, hgrants⟩ := Prod.mk.inj heq
  have hrun := Run.of_foldlM checked_eq_some hs
  exact ⟨s, hrun, hrow, hgrants, (usedOnce_of_prompt hrun).1⟩

/-- An authorization whose hook fails before it names the remote user: the purge has nobody to
revoke for. -/
def droppedUnnamed : List (Action ℕ) :=
  [.startOauth 1 "threads", .tick 10, .consumeState "threads" 10, .takeState 0,
    .exchange 0 7 none, .storeDiscarded 0 10, .takeExpiredResult sampleSurroundings 10]

theorem tokens_dropped_unnamed :
    ¬ ∀ (timing : Timing) (start : Time) (es : List (Action ℕ)) (s : Flow ℕ),
      Run (fun s a t => Flow.Step timing s a t ∧ t.Prompt timing) { clock := start } es s →
        (s.tasks.filterMap Task.tokens + (s.row.bind (·.grantTokens)).toList +
          s.grants.map (·.tokens) + s.planned : Multiset ℕ) = s.issued := by
  intro hall
  have hend : (droppedUnnamed.foldlM (Flow.checked sampleTiming) { clock := 0 }).map
      (fun s => (s.tasks.filterMap Task.tokens, s.row.bind (·.grantTokens),
        s.grants.map (·.tokens), s.planned, s.issued)) = some ([], none, [], [], [7]) := by
    decide
  obtain ⟨s, hs, heq⟩ := Option.map_eq_some_iff.mp hend
  have hplaces := hall sampleTiming 0 droppedUnnamed s (Run.of_foldlM checked_eq_some hs)
  simp only [Prod.mk.injEq] at heq
  obtain ⟨htasks, hrow, hgrants, hplanned, hissued⟩ := heq
  rw [htasks, hrow, hgrants, hplanned, hissued] at hplaces
  simp at hplaces

end Postit.OAuth
