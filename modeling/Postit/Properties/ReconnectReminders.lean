import Postit.Accounts.Reminders
import Postit.Framework.Pool
import Postit.Framework.Trace

/-!
# Reminders of a reconnect

What is sent of a grant comes in order and once each: the reminder of seven days, that of one day,
and the notice that the date has passed.  A run visits every grant that is due throughout it, once,
and takes a number of steps that the grants bound.
-/

namespace Postit.Accounts

open Postit.Data (UserId AccountId)
open Postit.Framework

/-! ## The order of notices -/

def Warned.rank : Warned → ℕ
  | .none => 0
  | .sevenDays => 1
  | .oneDay => 2
  | .expired => 3

lemma Warned.rank_le (warned : Warned) : warned.rank ≤ 3 := by
  cases warned <;> decide

/-- The place of a notice in the order. -/
def ReconnectNotice.rank : ReconnectNotice → ℕ
  | .reminder stage => stage.to_.rank
  | .deadlinePassed => 3

lemma ReconnectNotice.rank_lt {notice : ReconnectNotice} (h : notice ≠ .deadlinePassed) :
    notice.rank < 3 := by
  cases notice with
  | reminder stage => cases stage <;> decide
  | deadlinePassed => exact absurd rfl h

lemma ReconnectNotice.rank_le (notice : ReconnectNotice) : notice.rank ≤ 3 := by
  by_cases h : notice = .deadlinePassed
  · rw [h]
    exact le_refl 3
  · exact (rank_lt h).le

/-- A stage moves a grant on. -/
lemma ReminderStage.rank_from {stage : ReminderStage} {warned : Warned}
    (h : warned ∈ stage.from_) : warned.rank < stage.to_.rank := by
  revert h
  cases stage <;> cases warned <;> decide

namespace Reminding

variable {κ : Type}

/-! ## What a step of a run does -/

/-- What a run does next: what it makes of the tables and the stages, and where it is then. -/
inductive Advance (reconnectBy : GrantId → Option Time) (s : Reminding κ) (run : RefreshRun) :
    Reminding κ → RefreshRun → Prop
  | read (after : Option GrantId) (page : List GrantId) (was : run.phase = .page after)
      (due : page = GrantRepo.dueForRefresh s.db (run.now + refreshAhead) after run.batch) :
      Advance reconnectBy s run s { run with
        phase := .visit page (if page.length < run.batch then none else page.getLast?) }
  | visit (grant : GrantId) (left : List GrantId) (next : Option GrantId)
      (was : run.phase = .visit (grant :: left) next) :
      Advance reconnectBy s run s { run with
        visited := run.visited ++ [grant]
        phase := .visit left next }
  | turn (last : GrantId) (was : run.phase = .visit [] (some last)) :
      Advance reconnectBy s run s { run with phase := .page (some last) }
  | visitedAll (was : run.phase = .visit [] none) :
      Advance reconnectBy s run s { run with phase := .deadlines }
  | listPassed (was : run.phase = .deadlines) :
      Advance reconnectBy s run s { run with
        phase := .expire (GrantRepo.reconnectByPassed reconnectBy s run.now) }
  | expiredAll (was : run.phase = .expire []) :
      Advance reconnectBy s run s { run with phase := .reminders }
  | skipExpired (grant : GrantId) (left : List GrantId)
      (was : run.phase = .expire (grant :: left)) :
      Advance reconnectBy s run s { run with phase := .expire left }
  | lockExpired (grant : GrantId) (left : List GrantId) (row : Grant κ)
      (was : run.phase = .expire (grant :: left)) (free : s.locked grant = false)
      (stored : s.db.grants.lookup grant = some row) :
      Advance reconnectBy s run s { run with
        phase := .expiring grant (row.status = .active) left }
  | expired {u : Reminding κ} (grant : GrantId) (active : Bool) (left : List GrantId)
      (was : run.phase = .expiring grant active left)
      (commit : s.commitExpired run.now grant active = some u) :
      Advance reconnectBy s run u { run with phase := .expire left }
  | gone (grant : GrantId) (active : Bool) (left : List GrantId)
      (was : run.phase = .expiring grant active left) :
      Advance reconnectBy s run s { run with phase := .failed }
  | listDue (was : run.phase = .reminders) :
      Advance reconnectBy s run s { run with
        phase := .remind (GrantRepo.reconnectWarningsDue reconnectBy s run.now) }
  | remindedAll (was : run.phase = .remind []) :
      Advance reconnectBy s run s { run with phase := .finished }
  | skipReminder (grant : GrantId) (stage : ReminderStage)
      (left : List (GrantId × ReminderStage)) (was : run.phase = .remind ((grant, stage) :: left)) :
      Advance reconnectBy s run s { run with phase := .remind left }
  | lockReminder (grant : GrantId) (stage : ReminderStage)
      (left : List (GrantId × ReminderStage)) (was : run.phase = .remind ((grant, stage) :: left))
      (free : s.locked grant = false) (due : stillDue reconnectBy run.now grant stage = true) :
      Advance reconnectBy s run s { run with phase := .reminding grant stage left }
  | reminder (grant : GrantId) (stage : ReminderStage) (left : List (GrantId × ReminderStage))
      (was : run.phase = .reminding grant stage left) :
      Advance reconnectBy s run (s.commitReminder run.now grant stage)
        { run with phase := .remind left }

variable {reconnectBy : GrantId → Option Time} {s t u : Reminding κ} {i : ℕ} {run : RefreshRun}

/-- What a run does next is one of these. -/
lemma advance_cases (h : s.advance reconnectBy i run = some t) :
    ∃ u next, t = u.become i next ∧ Advance reconnectBy s run u next := by
  have hstep {u : Reminding κ} {next : RefreshRun} (ht : some (u.become i next) = some t)
      (hnext : Advance reconnectBy s run u next) :
      ∃ u next, t = u.become i next ∧ Advance reconnectBy s run u next :=
    ⟨u, next, (Option.some.inj ht).symm, hnext⟩
  unfold advance at h
  dsimp only at h
  split at h
  · next after hphase => exact hstep h (.read after _ hphase rfl)
  · next hphase => exact hstep h (.visitedAll hphase)
  · next last hphase => exact hstep h (.turn last hphase)
  · next grant left next hphase => exact hstep h (.visit grant left next hphase)
  · next hphase => exact hstep h (.listPassed hphase)
  · next hphase => exact hstep h (.expiredAll hphase)
  · next grant left hphase =>
    split_ifs at h with hlock
    split at h
    · exact hstep h (.skipExpired grant left hphase)
    · next row hrow =>
      have hfree := Bool.eq_false_of_not_eq_true hlock
      exact hstep h (.lockExpired grant left row hphase hfree hrow)
  · next grant active left hphase =>
    split at h
    · exact hstep h (.gone grant active left hphase)
    · next u hcommit => exact hstep h (.expired grant active left hphase hcommit)
  · next hphase => exact hstep h (.listDue hphase)
  · next hphase => exact hstep h (.remindedAll hphase)
  · next grant stage left hphase =>
    split_ifs at h with hlock hdue
    · have hfree := Bool.eq_false_of_not_eq_true hlock
      exact hstep h (.lockReminder grant stage left hphase hfree hdue.2)
    · exact hstep h (.skipReminder grant stage left hphase)
  · next grant stage left hphase => exact hstep h (.reminder grant stage left hphase)
  · cases h
  · cases h

/-- A run goes on by doing what it does next. -/
lemma of_advance (h : s.Step reconnectBy (.advance i) t) : ∃ run, s.runs[i]? = some run ∧
    ∃ u next, t = u.become i next ∧ Advance reconnectBy s run u next := by
  obtain ⟨run, hrun, hadvance⟩ := Option.bind_eq_some_iff.mp h
  exact ⟨run, hrun, advance_cases hadvance⟩

/-! ## The order of what is sent -/

/-- The grant is not active, and will not be. -/
def Ended (s : Reminding κ) (grant : GrantId) : Prop :=
  grant < s.db.nextGrant ∧ ∀ row, s.db.grants.lookup grant = some row → row.status ≠ .active

/-- What is sent is in order and fits the stages, a grant whose date's notice was sent has ended,
and one that a transaction found active has no such notice. -/
structure Inv (s : Reminding κ) : Prop where
  old : ∀ id row, s.db.grants.lookup id = some row → id < s.db.nextGrant
  exclusive : ∀ (i j : ℕ) (r r' : RefreshRun) grant, s.runs[i]? = some r → s.runs[j]? = some r' →
    r.phase.holds = some grant → r'.phase.holds = some grant → i = j
  ranks : ∀ x ∈ s.sent, x.notice.rank ≤ (s.warned x.grant).rank
  ended : ∀ x ∈ s.sent, x.notice = .deadlinePassed → s.Ended x.grant
  found : ∀ (i : ℕ) (r : RefreshRun) grant left, s.runs[i]? = some r →
    r.phase = .expiring grant true left → ∀ x ∈ s.sent, x.grant = grant → x.notice ≠ .deadlinePassed
  ordered : s.sent.Pairwise fun x y => x.grant = y.grant → x.notice.rank < y.notice.rank

section Grants

variable {a : Action κ} {db : Db κ}

lemma old_of_changes (h : GrantsBy (Change a) s.db db)
    (hold : ∀ id row, s.db.grants.lookup id = some row → id < s.db.nextGrant) (id : GrantId)
    (row : Grant κ) (hrow : db.grants.lookup id = some row) : id < db.nextGrant := by
  rcases h.grants id row hrow with ⟨g, hg, -⟩ | ⟨-, hnew⟩
  · exact (hold id g hg).trans_le h.next
  · exact hnew

/-- No operation makes a grant active. -/
lemma ended_of_changes (h : GrantsBy (Change a) s.db t.db) {grant : GrantId}
    (hended : s.Ended grant) : t.Ended grant := by
  refine ⟨hended.1.trans_le h.next, fun row hrow => ?_⟩
  rcases h.grants grant row hrow with ⟨g, hg, hchange⟩ | ⟨hnew, -⟩
  · have hg := hended.2 g hg
    cases hchange with
    | same => exact hg
    | refreshed => exact hg
    | marked => simp
    | revoked => simp
  · exact absurd hended.1 hnew.not_gt

end Grants

section Runs

variable {next : RefreshRun}

/-- A lock that was free is held once, and the others as before. -/
lemma Inv.exclusive_become (h : s.Inv) (hfree : ∀ grant, next.phase.holds = some grant →
    s.locked grant = false) (j k : ℕ) (r r' : RefreshRun) (grant : GrantId)
    (hj : (s.runs.set i next)[j]? = some r) (hk : (s.runs.set i next)[k]? = some r')
    (hr : r.phase.holds = some grant) (hr' : r'.phase.holds = some grant) : j = k := by
  have hout : ∀ (k : ℕ) (r' : RefreshRun), s.runs[k]? = some r' → r'.phase.holds = some grant →
      next.phase.holds ≠ some grant := by
    intro k r' hk hr' hnext
    have hnone := hfree grant hnext
    rw [locked, List.any_eq_false] at hnone
    exact hnone r' (List.mem_of_getElem? hk) (by simpa using hr')
  rcases of_getElem?_set hj with ⟨hji, rfl⟩ | ⟨-, hj'⟩
  · rcases of_getElem?_set hk with ⟨hki, -⟩ | ⟨-, hk'⟩
    · exact hji.trans hki.symm
    · exact absurd hr (hout k r' hk' hr')
  · rcases of_getElem?_set hk with ⟨-, rfl⟩ | ⟨-, hk'⟩
    · exact absurd hr' (hout j r hj' hr)
    · exact h.exclusive j k r r' grant hj' hk' hr hr'

/-- What holds of the runs when one goes on and another transaction's grant has no new notice. -/
lemma Inv.found_become (h : s.Inv) {sent : List Sent}
    (hnext : ∀ grant left, next.phase = .expiring grant true left →
      ∀ x ∈ sent, x.grant = grant → x.notice ≠ .deadlinePassed)
    (hother : ∀ (j : ℕ) (r : RefreshRun) grant left, j ≠ i → s.runs[j]? = some r →
      r.phase = .expiring grant true left → ∀ x ∈ sent, x ∉ s.sent → x.grant = grant →
        x.notice ≠ .deadlinePassed)
    (j : ℕ) (r : RefreshRun) (grant : GrantId) (left : List GrantId)
    (hj : (s.runs.set i next)[j]? = some r) (hphase : r.phase = .expiring grant true left) :
    ∀ x ∈ sent, x.grant = grant → x.notice ≠ .deadlinePassed := by
  rcases of_getElem?_set hj with ⟨-, rfl⟩ | ⟨hne, hj'⟩
  · exact hnext grant left hphase
  · intro x hx hgrant
    by_cases hold : x ∈ s.sent
    · exact h.found j r grant left hj' hphase x hold hgrant
    · exact hother j r grant left hne hj' hphase x hx hold hgrant

end Runs

/-! ### The steps -/

lemma Inv.elsewhere (h : s.Inv) {a : Action κ} {db : Db κ} (hok : s.db.perform a = .ok db) :
    Inv { s with db } where
  old := old_of_changes (changes_of_perform hok) h.old
  exclusive := h.exclusive
  ranks := h.ranks
  ended x hx hnotice := ended_of_changes (changes_of_perform hok) (h.ended x hx hnotice)
  found := h.found
  ordered := h.ordered

/-- A run goes on, and nothing else happens. -/
lemma Inv.become (h : s.Inv) {next : RefreshRun}
    (hfree : ∀ grant, next.phase.holds = some grant → s.locked grant = false)
    (hfound : ∀ grant left, next.phase = .expiring grant true left →
      ∀ x ∈ s.sent, x.grant = grant → x.notice ≠ .deadlinePassed) : (s.become i next).Inv where
  old := h.old
  exclusive := h.exclusive_become hfree
  ranks := h.ranks
  ended := h.ended
  found := h.found_become hfound fun _ _ _ _ _ _ _ _ hx hnew => absurd hx hnew
  ordered := h.ordered

lemma Inv.start (h : s.Inv) (now : Time) (batch : ℕ) :
    Inv { s with runs := s.runs ++ [{ now, batch }] } where
  old := h.old
  exclusive j k r r' grant hj hk hr hr' := by
    rcases of_getElem?_concat hj with ⟨-, rfl⟩ | hj'
    · cases hr
    · rcases of_getElem?_concat hk with ⟨-, rfl⟩ | hk'
      · cases hr'
      · exact h.exclusive j k r r' grant hj' hk' hr hr'
  ranks := h.ranks
  ended := h.ended
  found j r grant left hj hphase := by
    rcases of_getElem?_concat hj with ⟨-, rfl⟩ | hj'
    · cases hphase
    · exact h.found j r grant left hj' hphase
  ordered := h.ordered

/-- The stage of a grant is moved on. -/
lemma warn_rank {grant : GrantId} {stage : Warned} (hle : (s.warned grant).rank ≤ stage.rank)
    (other : GrantId) : (s.warned other).rank ≤ (s.warn grant stage other).rank := by
  unfold warn
  by_cases heq : other = grant
  · rw [heq, Function.update_self]
    exact hle
  · rw [Function.update_of_ne heq]

/-- A transaction that sends nothing. -/
lemma Inv.warn (h : s.Inv) {grant : GrantId} {stage : Warned}
    (hle : (s.warned grant).rank ≤ stage.rank) : Inv { s with warned := s.warn grant stage } where
  old := h.old
  exclusive := h.exclusive
  ranks x hx := (h.ranks x hx).trans (warn_rank hle x.grant)
  ended := h.ended
  found := h.found
  ordered := h.ordered

/-- A transaction that sends something of the grant it holds. -/
lemma Inv.send (h : s.Inv) (hrun : s.runs[i]? = some run) {next : RefreshRun} {x : Sent}
    (hholds : run.phase.holds = some x.grant) (hfree : next.phase.holds = none) {db : Db κ}
    {stage : Warned} (hle : (s.warned x.grant).rank ≤ stage.rank)
    (hstage : x.notice.rank ≤ stage.rank)
    (hbefore : ∀ y ∈ s.sent, y.grant = x.grant → y.notice.rank < x.notice.rank)
    (hchanges : ∃ a, GrantsBy (Change a) s.db db)
    (hended : x.notice = .deadlinePassed → Ended { s with db } x.grant) :
    Inv (Reminding.become
      { s with db, warned := s.warn x.grant stage, sent := s.sent ++ [x] } i next) where
  old := by
    obtain ⟨a, hchanges⟩ := hchanges
    exact old_of_changes hchanges h.old
  exclusive := h.exclusive_become fun grant hgrant => by
    rw [hfree] at hgrant
    cases hgrant
  ranks y hy := by
    rcases List.mem_append.mp hy with hy | hy
    · exact (h.ranks y hy).trans (warn_rank hle y.grant)
    · obtain rfl := List.mem_singleton.mp hy
      show y.notice.rank ≤ (s.warn y.grant stage y.grant).rank
      rwa [Reminding.warn, Function.update_self]
  ended y hy hnotice := by
    obtain ⟨a, hchanges⟩ := hchanges
    rcases List.mem_append.mp hy with hy | hy
    · exact ended_of_changes (t := { s with db }) hchanges (h.ended y hy hnotice)
    · obtain rfl := List.mem_singleton.mp hy
      exact hended hnotice
  found := by
    refine h.found_become (fun grant left hphase => ?_)
      fun j r grant left hne hj hphase y hy hnew => ?_
    · rw [hphase] at hfree
      cases hfree
    · have hyx : y = x := by
        rcases List.mem_append.mp hy with hold | hone
        · exact absurd hold hnew
        · exact List.mem_singleton.mp hone
      rintro hgrant -
      refine hne (h.exclusive j i r run grant hj hrun (by rw [hphase]; rfl) ?_)
      rw [hholds, ← hyx, hgrant]
  ordered := by
    refine List.pairwise_append.mpr ⟨h.ordered, List.pairwise_singleton _ _, fun y hy z hz => ?_⟩
    obtain rfl := List.mem_singleton.mp hz
    exact hbefore y hy

lemma not_active_of_marked {db : Db κ} {grant : GrantId} {row : Grant κ}
    (h : (GrantRepo.markNeedsReconnect db grant).grants.lookup grant = some row) :
    row.status ≠ .active := by
  unfold GrantRepo.markNeedsReconnect at h
  split at h
  · next hnone =>
    rw [hnone] at h
    cases h
  · next grant' hgrant =>
    split_ifs at h with hrevoked
    · have hlookup : ((db.updateGrants (fun k _ => k = grant)
          ({ · with status := .needsReconnect })).grants.lookup grant) = some row := h
      rw [lookup_updateGrants, hgrant, Option.map_some, if_pos (by simp)] at hlookup
      obtain rfl := Option.some.inj hlookup
      simp
    · rw [hgrant] at h
      obtain rfl := Option.some.inj h
      rw [not_not.mp hrevoked]
      decide

/-- What a transaction of the deadline writes. -/
lemma commitExpired_cases {now : Time} {grant : GrantId} {active : Bool}
    (h : s.commitExpired now grant active = some u) : (s.db.grants.lookup grant).isSome ∧
    (active = true ∧ u = { s with
        db := GrantRepo.markNeedsReconnect s.db grant
        warned := s.warn grant .expired
        sent := s.sent ++ [⟨grant, .deadlinePassed, markedAccounts s.db grant, now⟩] } ∨
      active = false ∧ u = { s with warned := s.warn grant .expired }) := by
  unfold commitExpired at h
  split_ifs at h with hnone hactive
  · exact ⟨Option.isSome_iff_ne_none.mpr (by simpa using hnone),
      .inl ⟨hactive, (Option.some.inj h).symm⟩⟩
  · exact ⟨Option.isSome_iff_ne_none.mpr (by simpa using hnone),
      .inr ⟨by simpa using hactive, (Option.some.inj h).symm⟩⟩

/-- What a transaction of a reminder writes. -/
lemma commitReminder_cases (s : Reminding κ) (now : Time) (grant : GrantId)
    (stage : ReminderStage) : s.commitReminder now grant stage = s ∨
    ∃ row, s.db.grants.lookup grant = some row ∧ row.status = .active ∧
      s.warned grant ∈ stage.from_ ∧ s.commitReminder now grant stage = { s with
        warned := s.warn grant stage.to_
        sent := s.sent ++ [⟨grant, .reminder stage, idsOnGrant s.db row.ownerId grant, now⟩] } := by
  unfold commitReminder
  cases hmay : s.mayAdvance grant stage with
  | none => exact .inl rfl
  | some owner =>
    unfold mayAdvance at hmay
    split at hmay
    · next row hrow =>
      split_ifs at hmay with hguard
      obtain rfl := Option.some.inj hmay
      exact .inr ⟨row, hrow, hguard.1, hguard.2, rfl⟩
    · cases hmay

lemma Inv.advance (h : s.Inv) (hrun : s.runs[i]? = some run) {next : RefreshRun}
    (hnext : Advance reconnectBy s run u next) : (u.become i next).Inv := by
  have hquiet {u : Reminding κ} {next : RefreshRun} (hu : u.Inv) (hfree : next.phase.holds = none) :
      (u.become i next).Inv := by
    refine hu.become (fun grant hgrant => ?_) fun grant left hexpiring => ?_
    · rw [hfree] at hgrant
      cases hgrant
    · rw [hexpiring] at hfree
      cases hfree
  cases hnext with
  | read | visit | turn | visitedAll | listPassed | expiredAll | skipExpired | gone | listDue
  | remindedAll | skipReminder => exact hquiet h rfl
  | lockExpired grant left row was free stored =>
    refine h.become (fun other hother => ?_) fun other left' hexpiring x hx hgrant hnotice => ?_
    · obtain rfl := Option.some.inj hother
      exact free
    · -- a grant found active has not ended
      rw [Phase.expiring.injEq] at hexpiring
      obtain ⟨rfl, hactive, -⟩ := hexpiring
      have hended := (h.ended x hx hnotice).2 row (hgrant ▸ stored)
      exact hended (of_decide_eq_true hactive)
  | lockReminder grant stage left was free due =>
    refine h.become (fun other hother => ?_) fun other left' hexpiring => by cases hexpiring
    obtain rfl := Option.some.inj hother
    exact free
  | expired grant active left was commit =>
    obtain ⟨hstored, ⟨rfl, rfl⟩ | ⟨-, rfl⟩⟩ := commitExpired_cases commit
    · refine h.send hrun (x := ⟨grant, .deadlinePassed, markedAccounts s.db grant, run.now⟩)
        (by rw [was]; rfl) rfl ?_ (le_refl 3) ?_ ?_ ?_
      · exact Warned.rank_le _
      · intro y hy hgrant
        exact ReconnectNotice.rank_lt (h.found i run grant left hrun was y hy hgrant)
      · exact ⟨.refused grant, changes_markNeedsReconnect _ _ _⟩
      · obtain ⟨row, hrow⟩ := Option.isSome_iff_exists.mp hstored
        have hnext := (changes_markNeedsReconnect (.refused grant) s.db grant).next
        exact fun _ => ⟨(h.old grant row hrow).trans_le hnext, fun _ => not_active_of_marked⟩
    · exact hquiet (h.warn (Warned.rank_le _)) rfl
  | reminder grant stage left was =>
    rcases commitReminder_cases s run.now grant stage with
      hsame | ⟨row, hrow, hactive, hfrom, hsent⟩
    · rw [hsame]
      exact hquiet h rfl
    · rw [hsent]
      refine h.send hrun (x := ⟨grant, .reminder stage, idsOnGrant s.db row.ownerId grant, run.now⟩)
        (by rw [was]; rfl) rfl (ReminderStage.rank_from hfrom).le (le_refl _) ?_
        ⟨.refused grant, changes_of_keeps (.refl _)⟩ nofun
      intro y hy hgrant
      have hrank := h.ranks y hy
      rw [hgrant] at hrank
      exact hrank.trans_lt (ReminderStage.rank_from hfrom)

/-- Every step keeps the invariant. -/
lemma Inv.step (h : s.Inv) {a : ReminderAction κ} (hstep : s.Step reconnectBy a t) : t.Inv := by
  cases a with
  | elsewhere action =>
    obtain ⟨db, hdb, rfl⟩ := Option.map_eq_some_iff.mp hstep
    exact h.elsewhere (ok_of_toOption hdb)
  | start now batch =>
    obtain rfl := Option.some.inj hstep
    exact h.start now batch
  | advance i =>
    obtain ⟨run, hrun, u, next, rfl, hnext⟩ := of_advance hstep
    exact h.advance hrun hnext
  | fail i =>
    obtain ⟨run, -, hfail⟩ := Option.bind_eq_some_iff.mp hstep
    split_ifs at hfail
    obtain rfl := Option.some.inj hfail
    exact h.become (fun grant hgrant => by cases hgrant) fun grant left hphase => by cases hphase

/-! ## The pages of a run -/

/-- The grant is to be visited by a run of that time. -/
def Due (db : Db κ) (now : Time) (grant : GrantId) : Prop :=
  ∃ row, db.grants.lookup grant = some row ∧ row.kind = .oauth ∧ row.status = .active ∧
    row.expiresAt.any (· < now + refreshAhead) = true

section Pages

variable {db : Db κ} {now before : Time} {after : Option GrantId} {limit : ℕ} {grant : GrantId}

lemma mem_dueForRefresh_or (h : Due db now grant) (hafter : after.all (· < grant) = true) :
    grant ∈ GrantRepo.dueForRefresh db (now + refreshAhead) after limit ∨
      (GrantRepo.dueForRefresh db (now + refreshAhead) after limit).length = limit ∧
        ∀ m ∈ GrantRepo.dueForRefresh db (now + refreshAhead) after limit, m < grant := by
  obtain ⟨row, hrow, hkind, hstatus, hexpires⟩ := h
  exact Table.mem_firstKeys_or hrow (decide_eq_true ⟨hkind, hstatus, hexpires, hafter⟩)

lemma of_mem_dueForRefresh (h : grant ∈ GrantRepo.dueForRefresh db before after limit) :
    (∃ row, db.grants.lookup grant = some row) ∧ after.all (· < grant) = true := by
  obtain ⟨row, hrow, hp⟩ := Table.of_mem_firstKeys h
  exact ⟨⟨row, hrow⟩, (of_decide_eq_true hp).2.2.2⟩

end Pages

end Reminding

namespace RefreshRun

/-- What a run visits is in ID order, and what is left of its page comes after. -/
def Sorted (run : RefreshRun) : Prop :=
  match run.phase with
  | .page after => run.visited.Pairwise (· < ·) ∧ ∀ v ∈ run.visited, after.any (v ≤ ·) = true
  | .visit left next => (run.visited ++ left).Pairwise (· < ·) ∧
      ∀ last, next = some last → ∀ v ∈ run.visited ++ left, v ≤ last
  | _ => run.visited.Pairwise (· < ·)

/-- What a run visits and is to visit next are grants that were stored. -/
def Known (count : ℕ) (run : RefreshRun) : Prop :=
  match run.phase with
  | .visit left _ => ∀ v ∈ run.visited ++ left, v < count
  | _ => ∀ v ∈ run.visited, v < count

/-- The dates of the grants that a run found. -/
def Dated (reconnectBy : GrantId → Option Time) (run : RefreshRun) : Prop :=
  match run.phase with
  | .expire left => ∀ grant ∈ left, (reconnectBy grant).any (· ≤ run.now) = true
  | .expiring grant _ left =>
    ∀ other ∈ grant :: left, (reconnectBy other).any (· ≤ run.now) = true
  | .reminding grant stage _ => Reminding.stillDue reconnectBy run.now grant stage = true
  | _ => True

/-- What holds of a run. -/
structure Ok (reconnectBy : GrantId → Option Time) (count : ℕ) (run : RefreshRun) : Prop where
  sorted : run.Sorted
  known : run.Known count
  dated : run.Dated reconnectBy

end RefreshRun

namespace Reminding

variable {κ : Type} {reconnectBy : GrantId → Option Time} {s t u : Reminding κ} {i : ℕ}
  {run next : RefreshRun}

lemma le_of_getLast? {l : List ℕ} {last v : ℕ} (h : l.Pairwise (· < ·))
    (hlast : l.getLast? = some last) (hv : v ∈ l) : v ≤ last := by
  obtain ⟨before, rfl⟩ := List.getLast?_eq_some_iff.mp hlast
  rcases List.mem_append.mp hv with hv | hv
  · exact ((List.pairwise_append.mp h).2.2 v hv last (List.mem_singleton_self last)).le
  · exact (List.mem_singleton.mp hv).le

lemma pairwise_concat_left {l l' : List ℕ} {g : ℕ} (h : (l ++ g :: l').Pairwise (· < ·)) :
    (l ++ [g] ++ l').Pairwise (· < ·) := by
  rwa [List.append_assoc, List.singleton_append]

lemma sorted_advance (h : Advance reconnectBy s run u next) (hrun : run.Sorted) : next.Sorted := by
  unfold RefreshRun.Sorted at hrun ⊢
  cases h with
  | read after page was due =>
    rw [was] at hrun
    have hpage : page.Pairwise (· < ·) := due ▸ Table.sorted_firstKeys
    have hafter : ∀ v ∈ run.visited, ∀ g ∈ page, v < g := by
      intro v hv g hg
      have hv := hrun.2 v hv
      have hg := (of_mem_dueForRefresh (due ▸ hg)).2
      cases after with
      | none => cases hv
      | some a => exact (of_decide_eq_true hv).trans_lt (of_decide_eq_true hg)
    refine ⟨List.pairwise_append.mpr ⟨hrun.1, hpage, hafter⟩, fun last hlast v hv => ?_⟩
    split_ifs at hlast
    have hin := List.mem_of_getLast? hlast
    rcases List.mem_append.mp hv with hv | hv
    · exact (hafter v hv last hin).le
    · exact le_of_getLast? hpage hlast hv
  | visit grant left after was =>
    rw [was] at hrun
    refine ⟨pairwise_concat_left hrun.1, fun last hlast v hv => hrun.2 last hlast v ?_⟩
    simpa using hv
  | turn last was =>
    rw [was] at hrun
    simp only [List.append_nil] at hrun
    exact ⟨hrun.1, fun v hv => decide_eq_true (hrun.2 last rfl v hv)⟩
  | visitedAll was =>
    rw [was] at hrun
    simpa using hrun.1
  | listPassed was | expiredAll was | skipExpired _ _ was | lockExpired _ _ _ was
  | expired _ _ _ was | gone _ _ _ was | listDue was | remindedAll was | skipReminder _ _ _ was
  | lockReminder _ _ _ was | reminder _ _ _ was =>
    rw [was] at hrun
    exact hrun

lemma known_advance (h : Advance reconnectBy s run u next) {count : ℕ}
    (hold : ∀ id row, s.db.grants.lookup id = some row → id < count)
    (hrun : run.Known count) : next.Known count := by
  unfold RefreshRun.Known at hrun ⊢
  cases h with
  | read after page was due =>
    rw [was] at hrun
    intro v hv
    rcases List.mem_append.mp hv with hv | hv
    · exact hrun v hv
    · obtain ⟨row, hrow⟩ := (of_mem_dueForRefresh (due ▸ hv)).1
      exact hold v row hrow
  | visit grant left after was =>
    rw [was] at hrun
    intro v hv
    exact hrun v (by simpa using hv)
  | turn last was | visitedAll was =>
    rw [was] at hrun
    simpa using hrun
  | listPassed was | expiredAll was | skipExpired _ _ was | lockExpired _ _ _ was
  | expired _ _ _ was | gone _ _ _ was | listDue was | remindedAll was | skipReminder _ _ _ was
  | lockReminder _ _ _ was | reminder _ _ _ was =>
    rw [was] at hrun
    exact hrun

/-- The grants of a query are stored and satisfy it. -/
lemma of_mem_inOrder {p : GrantId → Grant κ → Bool} {grant : GrantId}
    (h : grant ∈ GrantRepo.inOrder s p) :
    ∃ row, s.db.grants.lookup grant = some row ∧ p grant row = true := Table.of_mem_firstKeys h

lemma dated_advance (h : Advance reconnectBy s run u next) (hrun : run.Dated reconnectBy) :
    next.Dated reconnectBy := by
  unfold RefreshRun.Dated at hrun ⊢
  cases h with
  | listPassed was =>
    intro grant hgrant
    obtain ⟨row, -, hp⟩ := of_mem_inOrder hgrant
    exact (of_decide_eq_true hp).1
  | skipExpired grant left was | expired grant _ left was =>
    rw [was] at hrun
    exact fun other hother => hrun other (List.mem_cons_of_mem _ hother)
  | lockExpired grant left row was =>
    rw [was] at hrun
    exact hrun
  | lockReminder grant stage left was free due => exact due
  | read | visit | turn | visitedAll | expiredAll | gone | listDue | remindedAll | skipReminder
  | reminder => trivial

/-! ## How many steps a run takes -/

end Reminding

/-- How many steps a run has taken at most when it is where it is: three for each grant visited, and
two for each one on its lists. -/
def RefreshRun.Within (count steps : ℕ) (run : RefreshRun) : Prop :=
  let visits := 3 * run.visited.length
  match run.phase with
  | .page _ => steps ≤ visits
  | .visit left (some _) => steps + 1 ≤ visits + 2 * left.length
  | .visit left none => steps ≤ visits + 2 * left.length + 1
  | .deadlines => steps ≤ visits + 2
  | .expire left => steps + 2 * left.length ≤ visits + 2 * count + 3
  | .expiring _ _ left => steps + 2 * left.length + 1 ≤ visits + 2 * count + 3
  | .reminders => steps ≤ visits + 2 * count + 4
  | .remind left => steps + 2 * left.length ≤ visits + 4 * count + 5
  | .reminding _ _ left => steps + 2 * left.length + 1 ≤ visits + 4 * count + 5
  | .finished | .failed => steps ≤ visits + 4 * count + 6

lemma RefreshRun.Within.mono {count count' steps : ℕ} {run : RefreshRun}
    (h : run.Within count steps) (hle : count ≤ count') : run.Within count' steps := by
  unfold RefreshRun.Within at h ⊢
  dsimp only at h ⊢
  split at h <;> omega

namespace Reminding

variable {κ : Type} {reconnectBy : GrantId → Option Time} {s t u : Reminding κ} {i : ℕ}
  {run next : RefreshRun}

lemma length_le_of_sorted {l : List ℕ} {n : ℕ} (h : l.Pairwise (· < ·)) (hlt : ∀ v ∈ l, v < n) :
    l.length ≤ n := by
  have hnodup : l.Nodup := h.imp fun hab => hab.ne
  have hsub := hnodup.subperm fun v hv => List.mem_range.mpr (hlt v hv)
  simpa using hsub.length_le

lemma length_inOrder (hold : ∀ id row, s.db.grants.lookup id = some row → id < s.db.nextGrant)
    (p : GrantId → Grant κ → Bool) : (GrantRepo.inOrder s p).length ≤ s.db.nextGrant := by
  refine length_le_of_sorted Table.sorted_firstKeys fun grant hgrant => ?_
  obtain ⟨row, hrow, -⟩ := of_mem_inOrder hgrant
  exact hold grant row hrow

lemma within_advance (h : Advance reconnectBy s run u next) (hbatch : 0 < run.batch)
    (hold : ∀ id row, s.db.grants.lookup id = some row → id < s.db.nextGrant) {steps : ℕ}
    (hrun : run.Within s.db.nextGrant steps) : next.Within s.db.nextGrant (steps + 1) := by
  have hlist := length_inOrder hold
  unfold RefreshRun.Within at hrun ⊢
  cases h with
  | read after page was due =>
    rw [was] at hrun
    by_cases hshort : page.length < run.batch
    · simp only [if_pos hshort]
      simp only at hrun
      omega
    · simp only [if_neg hshort]
      cases hlast : page.getLast? with
      | none =>
        rw [List.getLast?_eq_none_iff.mp hlast] at hshort
        exact absurd hbatch hshort
      | some last =>
        simp only at hrun ⊢
        omega
  | visit grant left after was =>
    rw [was] at hrun
    cases after <;> simp only [List.length_cons, List.length_append, List.length_nil] at hrun ⊢ <;>
      omega
  | listPassed was =>
    rw [was] at hrun
    simp only [GrantRepo.reconnectByPassed] at hrun ⊢
    refine (Nat.add_le_add_left (Nat.mul_le_mul_left 2 (hlist _)) _).trans ?_
    omega
  | listDue was =>
    rw [was] at hrun
    simp only [GrantRepo.reconnectWarningsDue, List.length_map] at hrun ⊢
    refine (Nat.add_le_add_left (Nat.mul_le_mul_left 2 (hlist _)) _).trans ?_
    omega
  | turn last was | visitedAll was | expiredAll was | skipExpired _ _ was | lockExpired _ _ _ was
  | expired _ _ _ was | gone _ _ _ was | remindedAll was | skipReminder _ _ _ was
  | lockReminder _ _ _ was | reminder _ _ _ was =>
    rw [was] at hrun
    simp only [List.length_cons, List.length_nil] at hrun ⊢
    omega

/-! ## Runs of the system -/

end Reminding

namespace RefreshRun.Ok

variable {reconnectBy : GrantId → Option Time} {count count' : ℕ} {run : RefreshRun}

lemma mono (h : run.Ok reconnectBy count) (hle : count ≤ count') : run.Ok reconnectBy count' where
  sorted := h.sorted
  known := by
    have hknown := h.known
    unfold RefreshRun.Known at hknown ⊢
    split at hknown
    · exact fun v hv => (hknown v hv).trans_le hle
    · exact fun v hv => (hknown v hv).trans_le hle
  dated := h.dated

lemma start (now : Time) (batch : ℕ) : ({ now, batch } : RefreshRun).Ok reconnectBy count where
  sorted := ⟨.nil, fun _ hv => by cases hv⟩
  known _ hv := by cases hv
  dated := trivial

/-- What is visited is in ID order. -/
lemma visited_sorted (h : run.Ok reconnectBy count) : run.visited.Pairwise (· < ·) := by
  have hsorted := h.sorted
  unfold RefreshRun.Sorted at hsorted
  split at hsorted
  · exact hsorted.1
  · exact (List.pairwise_append.mp hsorted.1).1
  · exact hsorted

lemma visited_lt (h : run.Ok reconnectBy count) : ∀ v ∈ run.visited, v < count := by
  have hknown := h.known
  unfold RefreshRun.Known at hknown
  split at hknown
  · exact fun v hv => hknown v (List.mem_append_left _ hv)
  · exact hknown

end RefreshRun.Ok

namespace Reminding

variable {κ : Type} {reconnectBy : GrantId → Option Time} {s t u : Reminding κ} {i : ℕ}
  {run next : RefreshRun}

lemma runs_of_advance (h : Advance reconnectBy s run u next) :
    u.runs = s.runs ∧ s.db.nextGrant ≤ u.db.nextGrant := by
  cases h with
  | expired grant active left was commit =>
    obtain ⟨-, ⟨-, rfl⟩ | ⟨-, rfl⟩⟩ := commitExpired_cases commit
    · exact ⟨rfl, (changes_markNeedsReconnect (.refused grant) s.db grant).next⟩
    · exact ⟨rfl, le_refl _⟩
  | reminder grant stage left was =>
    rcases commitReminder_cases s run.now grant stage with hsame | ⟨row, -, -, -, hsent⟩
    · rw [hsame]
      exact ⟨rfl, le_refl _⟩
    · rw [hsent]
      exact ⟨rfl, le_refl _⟩
  | read | visit | turn | visitedAll | listPassed | expiredAll | skipExpired | lockExpired | gone
  | listDue | remindedAll | skipReminder | lockReminder => exact ⟨rfl, le_refl _⟩

/-- What a step does to the runs. -/
inductive RunsStep (reconnectBy : GrantId → Option Time) (s : Reminding κ) :
    ReminderAction κ → List RefreshRun → Prop
  | elsewhere (action : Action κ) : RunsStep reconnectBy s (.elsewhere action) s.runs
  | start (now : Time) (batch : ℕ) :
      RunsStep reconnectBy s (.start now batch) (s.runs ++ [({ now, batch } : RefreshRun)])
  | advance {u : Reminding κ} (i : ℕ) (run next : RefreshRun) (was : s.runs[i]? = some run)
      (goes : Advance reconnectBy s run u next) :
      RunsStep reconnectBy s (.advance i) (s.runs.set i next)
  | fail (i : ℕ) (run : RefreshRun) (was : s.runs[i]? = some run) :
      RunsStep reconnectBy s (.fail i) (s.runs.set i { run with phase := .failed })

lemma runs_of_step {a : ReminderAction κ} (hstep : s.Step reconnectBy a t) :
    RunsStep reconnectBy s a t.runs ∧ s.db.nextGrant ≤ t.db.nextGrant := by
  cases a with
  | elsewhere action =>
    obtain ⟨db, hdb, rfl⟩ := Option.map_eq_some_iff.mp hstep
    exact ⟨.elsewhere action, (changes_of_perform (ok_of_toOption hdb)).next⟩
  | start now batch =>
    obtain rfl := Option.some.inj hstep
    exact ⟨.start now batch, le_refl _⟩
  | advance i =>
    obtain ⟨run, hrun, u, next, rfl, hnext⟩ := of_advance hstep
    obtain ⟨hruns, hle⟩ := runs_of_advance hnext
    refine ⟨?_, hle⟩
    show RunsStep reconnectBy s (.advance i) (u.runs.set i next)
    rw [hruns]
    exact .advance i run next hrun hnext
  | fail i =>
    obtain ⟨run, hrun, hfail⟩ := Option.bind_eq_some_iff.mp hstep
    split_ifs at hfail
    obtain rfl := Option.some.inj hfail
    exact ⟨.fail i run hrun, le_refl _⟩

/-- What holds of the state and of every run in it. -/
structure Sound (reconnectBy : GrantId → Option Time) (s : Reminding κ) : Prop where
  inv : s.Inv
  runs : ∀ (i : ℕ) run, s.runs[i]? = some run → run.Ok reconnectBy s.db.nextGrant

lemma Sound.step (h : s.Sound reconnectBy) {a : ReminderAction κ}
    (hstep : s.Step reconnectBy a t) : t.Sound reconnectBy where
  inv := h.inv.step hstep
  runs j r hr := by
    obtain ⟨hruns, hle⟩ := runs_of_step hstep
    generalize t.runs = runs at hruns hr
    cases hruns with
    | elsewhere action => exact (h.runs j r hr).mono hle
    | start now batch =>
      rcases of_getElem?_concat hr with ⟨-, rfl⟩ | hold
      · exact .start now batch
      · exact (h.runs j r hold).mono hle
    | advance i run next was goes =>
      rcases of_getElem?_set hr with ⟨-, rfl⟩ | ⟨-, hold⟩
      · have hok := h.runs i run was
        exact RefreshRun.Ok.mono ⟨sorted_advance goes hok.sorted,
          known_advance goes h.inv.old hok.known, dated_advance goes hok.dated⟩ hle
      · exact (h.runs j r hold).mono hle
    | fail i run was =>
      rcases of_getElem?_set hr with ⟨-, rfl⟩ | ⟨-, hold⟩
      · have hok := h.runs i run was
        exact RefreshRun.Ok.mono ⟨hok.visited_sorted, hok.visited_lt, trivial⟩ hle
      · exact (h.runs j r hold).mono hle

/-- However far a run is, its steps are bounded by the grants there are. -/
lemma within_fail {count steps : ℕ} (hok : run.Ok reconnectBy count)
    (h : run.Within count steps) :
    RefreshRun.Within count steps { run with phase := .failed } := by
  have hsorted := hok.sorted
  have hknown := hok.known
  unfold RefreshRun.Sorted at hsorted
  unfold RefreshRun.Known at hknown
  unfold RefreshRun.Within at h ⊢
  cases hphase : run.phase with
  | visit left after =>
    rw [hphase] at h hsorted hknown
    have hlength := length_le_of_sorted hsorted.1 hknown
    rw [List.length_append] at hlength
    cases after <;> simp only at h ⊢ <;> omega
  | page | deadlines | expire | expiring | reminders | remind | reminding | finished | failed =>
    rw [hphase] at h
    simp only at h ⊢
    omega

lemma steps_le {count steps : ℕ} (hok : run.Ok reconnectBy count)
    (h : run.Within count steps) : steps ≤ 7 * count + 6 := by
  have hfail := within_fail hok h
  have hvisited := length_le_of_sorted hok.visited_sorted hok.visited_lt
  simp only [RefreshRun.Within] at hfail
  omega

/-- A step that a run takes itself. -/
def isStepOf (i : ℕ) : ReminderAction κ → Bool
  | .advance j => j = i
  | _ => false

lemma Advance.same (h : Advance reconnectBy s run u next) :
    next.now = run.now ∧ next.batch = run.batch := by
  cases h <;> exact ⟨rfl, rfl⟩

/-- What one run makes of a step. -/
lemma run_of_step {a : ReminderAction κ} {runs : List RefreshRun}
    (h : RunsStep reconnectBy s a runs) (hrun : s.runs[i]? = some run) :
    ∃ next, runs[i]? = some next ∧ (isStepOf i a = false ∧ next = run ∨
      isStepOf i a = false ∧ next = { run with phase := .failed } ∨
      isStepOf i a = true ∧ ∃ u, Advance reconnectBy s run u next) := by
  have hlt : i < s.runs.length := (List.getElem?_eq_some_iff.mp hrun).1
  cases h with
  | elsewhere action => exact ⟨run, hrun, .inl ⟨rfl, rfl⟩⟩
  | start now batch =>
    exact ⟨run, (List.getElem?_append_left hlt).trans hrun, .inl ⟨rfl, rfl⟩⟩
  | advance j run' next was goes =>
    by_cases hij : j = i
    · subst hij
      obtain rfl : run = run' := Option.some.inj (hrun.symm.trans was)
      refine ⟨next, by rw [List.getElem?_set_self hlt], .inr (.inr ⟨by simp [isStepOf], _, goes⟩)⟩
    · exact ⟨run, (List.getElem?_set_ne hij).trans hrun, .inl ⟨by simp [isStepOf, hij], rfl⟩⟩
  | fail j run' was =>
    by_cases hij : j = i
    · subst hij
      obtain rfl : run = run' := Option.some.inj (hrun.symm.trans was)
      exact ⟨_, by rw [List.getElem?_set_self hlt], .inr (.inl ⟨rfl, rfl⟩)⟩
    · exact ⟨run, (List.getElem?_set_ne hij).trans hrun, .inl ⟨rfl, rfl⟩⟩

/-- A run from its start on: what it has done is bounded. -/
lemma within_of_run {es : List (ReminderAction κ)} (h : Run (Step reconnectBy) s es t)
    (hs : s.Sound reconnectBy) (hrun : s.runs[i]? = some run) (hbatch : 0 < run.batch)
    (hwithin : run.Within s.db.nextGrant 0) : t.Sound reconnectBy ∧ ∃ next,
      t.runs[i]? = some next ∧ next.batch = run.batch ∧
        next.Within t.db.nextGrant (es.countP (isStepOf i)) := by
  induction h with
  | nil => exact ⟨hs, run, hrun, rfl, hwithin⟩
  | @snoc es t u a _ step ih =>
    obtain ⟨ht, now, hnow, hsize, hsteps⟩ := ih
    obtain ⟨hruns, hle⟩ := runs_of_step step
    obtain ⟨next, hnext, hcase⟩ := run_of_step hruns hnow
    refine ⟨ht.step step, next, hnext, ?_⟩
    rw [List.countP_append, List.countP_singleton]
    rcases hcase with ⟨hother, rfl⟩ | ⟨hother, rfl⟩ | ⟨hown, u', hadvance⟩
    · rw [hother]
      exact ⟨hsize, hsteps.mono hle⟩
    · rw [hother]
      exact ⟨hsize, (within_fail (ht.runs i now hnow) hsteps).mono hle⟩
    · rw [hown]
      refine ⟨hadvance.same.2.trans hsize, ?_⟩
      exact (within_advance hadvance (hsize ▸ hbatch) ht.inv.old hsteps).mono hle

end Reminding

/-! ## What a run visits -/

/-- The run has visited the grant, or is to visit it if it is due. -/
def RefreshRun.Reaches (grant : GrantId) (run : RefreshRun) : Prop :=
  match run.phase with
  | .page after => grant ∈ run.visited ∨ after.all (· < grant) = true
  | .visit left next =>
    grant ∈ run.visited ∨ grant ∈ left ∨ ∃ last, next = some last ∧ last < grant
  | .failed => True
  | _ => grant ∈ run.visited

/-- A run that has read all its pages. -/
def Phase.paged : Phase → Bool
  | .page _ | .visit _ _ | .failed => false
  | _ => true

namespace Reminding

variable {κ : Type} {reconnectBy : GrantId → Option Time} {s t u : Reminding κ} {i : ℕ}
  {run next : RefreshRun} {grant : GrantId}

lemma reaches_advance (h : Advance reconnectBy s run u next) (hbatch : 0 < run.batch)
    (hdue : grant ∈ run.visited ∨ Due s.db run.now grant) (hrun : run.Reaches grant) :
    next.Reaches grant := by
  unfold RefreshRun.Reaches at hrun ⊢
  cases h with
  | read after page was due =>
    rw [was] at hrun
    rcases hrun with hvisited | hafter
    · exact .inl hvisited
    · rcases hdue with hvisited | hdue
      · exact .inl hvisited
      · refine .inr ?_
        rcases mem_dueForRefresh_or hdue hafter with hin | ⟨hfull, hless⟩
        · exact .inl (due ▸ hin)
        · rw [← due] at hfull hless
          rw [if_neg (by omega)]
          cases hlast : page.getLast? with
          | none =>
            rw [List.getLast?_eq_none_iff.mp hlast] at hfull
            exact absurd hfull hbatch.ne
          | some last => exact .inr ⟨last, rfl, hless last (List.mem_of_getLast? hlast)⟩
  | visit other left after was =>
    rw [was] at hrun
    rcases hrun with hvisited | hleft | hlast
    · exact .inl (List.mem_append_left _ hvisited)
    · rcases List.mem_cons.mp hleft with rfl | hleft
      · exact .inl (List.mem_append_right _ (List.mem_singleton_self _))
      · exact .inr (.inl hleft)
    · exact .inr (.inr hlast)
  | turn last was =>
    rw [was] at hrun
    rcases hrun with hvisited | hleft | ⟨last', hlast, hless⟩
    · exact .inl hvisited
    · cases hleft
    · obtain rfl := Option.some.inj hlast
      exact .inr (decide_eq_true hless)
  | visitedAll was =>
    rw [was] at hrun
    rcases hrun with hvisited | hleft | ⟨last', hlast, -⟩
    · exact hvisited
    · cases hleft
    · cases hlast
  | gone => trivial
  | listPassed was | expiredAll was | skipExpired _ _ was | lockExpired _ _ _ was
  | expired _ _ _ was | listDue was | remindedAll was | skipReminder _ _ _ was
  | lockReminder _ _ _ was | reminder _ _ _ was =>
    rw [was] at hrun
    exact hrun

/-- A step after which the grant is due, or was visited by the run. -/
def DueStep (reconnectBy : GrantId → Option Time) (i : ℕ) (now : Time) (grant : GrantId)
    (s : Reminding κ) (a : ReminderAction κ) (t : Reminding κ) : Prop :=
  s.Step reconnectBy a t ∧
    ((∃ run, t.runs[i]? = some run ∧ grant ∈ run.visited) ∨ Due t.db now grant)

/-- A run that has read all its pages visited every grant that was due until it did. -/
lemma reaches_of_run {es : List (ReminderAction κ)} {now : Time}
    (h : Run (DueStep reconnectBy i now grant) s es t) (hrun : s.runs[i]? = some run)
    (hbatch : 0 < run.batch) (hnow : run.now = now) (hdue : Due s.db now grant)
    (hreaches : run.Reaches grant) : ∃ next, t.runs[i]? = some next ∧ next.now = now ∧
      next.batch = run.batch ∧ next.Reaches grant ∧
        (grant ∈ next.visited ∨ Due t.db now grant) := by
  induction h with
  | nil => exact ⟨run, hrun, hnow, rfl, hreaches, .inr hdue⟩
  | @snoc es t u a _ step ih =>
    obtain ⟨now', hin, htime, hsize, hr, hd⟩ := ih
    obtain ⟨next, hnext, hcase⟩ := run_of_step (runs_of_step step.1).1 hin
    have hdue' : grant ∈ next.visited ∨ Due u.db now grant := by
      rcases step.2 with ⟨r, hr, hvisited⟩ | hdue
      · obtain rfl := Option.some.inj (hnext.symm.trans hr)
        exact .inl hvisited
      · exact .inr hdue
    refine ⟨next, hnext, ?_⟩
    rcases hcase with ⟨-, rfl⟩ | ⟨-, rfl⟩ | ⟨-, u', hadvance⟩
    · exact ⟨htime, hsize, hr, hdue'⟩
    · exact ⟨htime, hsize, trivial, hdue'⟩
    · refine ⟨hadvance.same.1.trans htime, hadvance.same.2.trans hsize, ?_, hdue'⟩
      exact reaches_advance hadvance (hsize ▸ hbatch) (htime ▸ hd) hr

/-! ## What is sent, and when -/

/-- The grant is active, its date ahead and inside the stage's window. -/
def Near (reconnectBy : GrantId → Option Time) (s : Reminding κ) (now : Time) (grant : GrantId)
    (stage : ReminderStage) : Prop :=
  ∃ row by_, s.db.grants.lookup grant = some row ∧ row.status = .active ∧
    reconnectBy grant = some by_ ∧ now < by_ ∧ by_ ≤ now + stage.window

/-- A step sends nothing, or one thing: a reminder of a date that is near, or the notice of one that
has passed. -/
lemma sent_of_advance (h : Advance reconnectBy s run u next) (hdated : run.Dated reconnectBy) :
    u.sent = s.sent ∨ ∃ x, u.sent = s.sent ++ [x] ∧ x.now = run.now ∧
      ∀ stage, x.notice = .reminder stage → s.Near reconnectBy x.now x.grant stage := by
  unfold RefreshRun.Dated at hdated
  cases h with
  | expired grant active left was commit =>
    obtain ⟨-, ⟨-, rfl⟩ | ⟨-, rfl⟩⟩ := commitExpired_cases commit
    · exact .inr ⟨_, rfl, rfl, nofun⟩
    · exact .inl rfl
  | reminder grant stage left was =>
    rcases commitReminder_cases s run.now grant stage with hsame | ⟨row, hrow, hactive, -, hsent⟩
    · exact .inl (by rw [hsame])
    · rw [was] at hdated
      refine .inr ⟨⟨grant, .reminder stage, idsOnGrant s.db row.ownerId grant, run.now⟩,
        by rw [hsent], rfl, ?_⟩
      rintro stage' hstage
      obtain rfl : stage = stage' := by simpa using hstage
      obtain ⟨by_, hby, hdue⟩ := (Option.any_eq_true _ _).mp hdated
      obtain ⟨hahead, hwindow⟩ := of_decide_eq_true hdue
      exact ⟨row, by_, hrow, hactive, hby, hahead, hwindow⟩
  | read | visit | turn | visitedAll | listPassed | expiredAll | skipExpired | lockExpired | gone
  | listDue | remindedAll | skipReminder | lockReminder => exact .inl rfl

lemma lookup_markNeedsReconnect_ne {db : Db κ} {grant id : GrantId} (h : id ≠ grant) :
    (GrantRepo.markNeedsReconnect db grant).grants.lookup id = db.grants.lookup id := by
  unfold GrantRepo.markNeedsReconnect
  split
  · rfl
  · split_ifs
    · refine (lookup_updateGrants (s := db)).trans ?_
      simp [h]
    · rfl

/-- A run changes the status of a grant only when its date is not after the run's time. -/
lemma status_of_advance (h : Advance reconnectBy s run u next) (hdated : run.Dated reconnectBy)
    {id : GrantId} (hne : u.db.grants.lookup id ≠ s.db.grants.lookup id) :
    (reconnectBy id).any (· ≤ run.now) = true := by
  unfold RefreshRun.Dated at hdated
  cases h with
  | expired grant active left was commit =>
    rw [was] at hdated
    obtain ⟨-, ⟨-, rfl⟩ | ⟨-, rfl⟩⟩ := commitExpired_cases commit
    · by_cases heq : id = grant
      · exact hdated id (heq ▸ List.mem_cons_self)
      · exact absurd (lookup_markNeedsReconnect_ne heq) hne
    · exact absurd rfl hne
  | reminder grant stage left was =>
    rcases commitReminder_cases s run.now grant stage with hsame | ⟨row, -, -, -, hsent⟩
    · exact absurd (by rw [hsame]) hne
    · exact absurd (by rw [hsent]) hne
  | read | visit | turn | visitedAll | listPassed | expiredAll | skipExpired | lockExpired | gone
  | listDue | remindedAll | skipReminder | lockReminder => exact absurd rfl hne

/-- A run that has read its pages has visited what it reaches. -/
lemma mem_of_reaches (h : run.Reaches grant) (hpaged : run.phase.paged = true) :
    grant ∈ run.visited := by
  unfold RefreshRun.Reaches at h
  cases hphase : run.phase with
  | page | visit | failed =>
    rw [hphase] at hpaged
    cases hpaged
  | deadlines | expire | expiring | reminders | remind | reminding | finished =>
    rw [hphase] at h
    exact h

/-- A run in a transaction may go on. -/
lemma advance_of_holds (hholds : run.phase.holds = some grant) :
    ∃ t, s.advance reconnectBy i run = some t := by
  unfold advance
  cases hphase : run.phase with
  | expiring grant active left =>
    dsimp only
    cases s.commitExpired run.now grant active with
    | none => exact ⟨_, rfl⟩
    | some u => exact ⟨_, rfl⟩
  | reminding grant stage left => exact ⟨_, rfl⟩
  | page | visit | deadlines | expire | reminders | remind | finished | failed =>
    rw [hphase] at hholds
    cases hholds

/-- A run that has not ended may go on, unless it waits for one that may. -/
lemma progress (hrun : s.runs[i]? = some run) (hover : ended run.phase = false) :
    ∃ j t, s.Step reconnectBy (.advance j) t ∧
      (j = i ∨ ∃ other, s.runs[j]? = some other ∧ other.phase.holds ≠ none) := by
  have hgoes {j : ℕ} {run : RefreshRun} {t : Reminding κ} (hrun : s.runs[j]? = some run)
      (h : s.advance reconnectBy j run = some t) : s.Step reconnectBy (.advance j) t := by
    show (s.runs[j]?).bind (s.advance reconnectBy j) = some t
    rw [hrun]
    exact h
  have hlocked {grant : GrantId} (hlock : s.locked grant = true) : ∃ j t,
      s.Step reconnectBy (.advance j) t ∧
        (j = i ∨ ∃ other, s.runs[j]? = some other ∧ other.phase.holds ≠ none) := by
    obtain ⟨other, hmem, hholds⟩ := List.any_eq_true.mp hlock
    obtain ⟨j, hj⟩ := List.getElem?_of_mem hmem
    have hholds := of_decide_eq_true hholds
    obtain ⟨t, ht⟩ : ∃ t, s.advance reconnectBy j other = some t := advance_of_holds hholds
    exact ⟨j, t, hgoes hj ht, .inr ⟨other, hj, by simp [hholds]⟩⟩
  have hfree {t : Reminding κ} (h : s.advance reconnectBy i run = some t) : ∃ j t,
      s.Step reconnectBy (.advance j) t ∧
        (j = i ∨ ∃ other, s.runs[j]? = some other ∧ other.phase.holds ≠ none) :=
    ⟨i, t, hgoes hrun h, .inl rfl⟩
  cases hadvance : s.advance reconnectBy i run with
  | some t => exact hfree hadvance
  | none =>
    unfold advance at hadvance
    dsimp only at hadvance
    split at hadvance
    all_goals first
      | cases hadvance
      | skip
    · split_ifs at hadvance with hlock
      · exact hlocked hlock
      · split at hadvance <;> cases hadvance
    · split at hadvance <;> cases hadvance
    · split_ifs at hadvance with hlock
      exact hlocked hlock
    · next hphase => rw [hphase] at hover; cases hover
    · next hphase => rw [hphase] at hover; cases hover

/-! ## Reminders in order -/

/-- Nothing was sent and no run has begun, and every stored grant was given its ID. -/
structure Start (s : Reminding κ) : Prop where
  sent : s.sent = []
  runs : s.runs = []
  old : ∀ id row, s.db.grants.lookup id = some row → id < s.db.nextGrant

lemma Start.sound (h : s.Start) : s.Sound reconnectBy where
  inv :=
    { old := h.old
      exclusive := fun i j r r' grant hi => by simp [h.runs] at hi
      ranks := fun x hx => by simp [h.sent] at hx
      ended := fun x hx => by simp [h.sent] at hx
      found := fun i r grant left hi => by simp [h.runs] at hi
      ordered := by simp [h.sent] }
  runs i run hi := by simp [h.runs] at hi

/-- What is in order is there once. -/
lemma Inv.once (h : s.Inv) (grant : GrantId) (notice : ReconnectNotice) :
    s.sent.countP (fun x => x.grant = grant ∧ x.notice = notice) ≤ 1 := by
  have hordered := h.ordered
  generalize s.sent = sent at hordered
  induction sent with
  | nil => simp
  | cons x sent ih =>
    rw [List.pairwise_cons] at hordered
    have ih := ih hordered.2
    rw [List.countP_cons]
    split_ifs with hx
    · obtain ⟨hgrant, hnotice⟩ := of_decide_eq_true hx
      have hzero : sent.countP (fun x => x.grant = grant ∧ x.notice = notice) = 0 := by
        rw [List.countP_eq_zero]
        intro y hy hsame
        obtain ⟨hgrant', hnotice'⟩ := of_decide_eq_true hsame
        have hlt := hordered.1 y hy (hgrant.trans hgrant'.symm)
        rw [hnotice, hnotice'] at hlt
        exact lt_irrefl _ hlt
      rw [hzero]
    · exact ih

/-- Reminders go out once each and in order, and a run visits every grant that is due until it
does. -/
theorem reminders_in_order {s₀ : Reminding κ} {es : List (ReminderAction κ)} (hstart : s₀.Start)
    (h : Run (Step reconnectBy) s₀ es s) :
    (∀ grant notice, s.sent.countP (fun x => x.grant = grant ∧ x.notice = notice) ≤ 1) ∧
    (s.sent.Pairwise fun x y => x.grant = y.grant → x.notice.rank < y.notice.rank) ∧
    (∀ a t, s.Step reconnectBy a t → t.sent = s.sent ∨
      ∃ i run x, a = .advance i ∧ s.runs[i]? = some run ∧ t.sent = s.sent ++ [x] ∧
        x.now = run.now ∧
        ∀ stage, x.notice = .reminder stage → s.Near reconnectBy x.now x.grant stage) ∧
    (∀ i run t id, s.runs[i]? = some run → s.Step reconnectBy (.advance i) t →
      t.db.grants.lookup id ≠ s.db.grants.lookup id →
      (reconnectBy id).any (· ≤ run.now) = true) ∧
    (∀ i run, s.runs[i]? = some run → run.visited.Nodup ∧ (ended run.phase = false →
      ∃ j t, s.Step reconnectBy (.advance j) t ∧
        (j = i ∨ ∃ other, s.runs[j]? = some other ∧ other.phase.holds ≠ none))) ∧
    ∀ now batch t fs u, 0 < batch → s.Step reconnectBy (.start now batch) t →
      (Run (Step reconnectBy) t fs u →
        fs.countP (isStepOf s.runs.length) ≤ 7 * u.db.nextGrant + 6) ∧
      ∀ grant run, Due t.db now grant →
        Run (DueStep reconnectBy s.runs.length now grant) t fs u →
        u.runs[s.runs.length]? = some run → run.phase.paged = true →
          run.visited.count grant = 1 := by
  have hsound := h.invariant (fun hstep hs => Sound.step hs hstep) hstart.sound
  refine ⟨hsound.inv.once, hsound.inv.ordered, fun a t hstep => ?_,
    fun i run t id hrun hstep hne => ?_, fun i run hrun => ?_, fun now batch t fs u hbatch hstep => ?_⟩
  · cases a with
    | elsewhere action =>
      obtain ⟨db, -, rfl⟩ := Option.map_eq_some_iff.mp hstep
      exact .inl rfl
    | start now batch =>
      obtain rfl := Option.some.inj hstep
      exact .inl rfl
    | advance i =>
      obtain ⟨run, hrun, u, next, rfl, hnext⟩ := of_advance hstep
      rcases sent_of_advance hnext (hsound.runs i run hrun).dated with hsame | ⟨x, hsent, hx⟩
      · exact .inl hsame
      · exact .inr ⟨i, run, x, rfl, hrun, hsent, hx⟩
    | fail i =>
      obtain ⟨run, -, hfail⟩ := Option.bind_eq_some_iff.mp hstep
      split_ifs at hfail
      obtain rfl := Option.some.inj hfail
      exact .inl rfl
  · obtain ⟨run', hrun', u, next, rfl, hnext⟩ := of_advance hstep
    obtain rfl := Option.some.inj (hrun.symm.trans hrun')
    exact status_of_advance hnext (hsound.runs i run hrun).dated hne
  · exact ⟨(hsound.runs i run hrun).visited_sorted.imp fun hlt => hlt.ne, progress hrun⟩
  · have ht := hsound.step hstep
    obtain rfl := Option.some.inj hstep
    have hfresh : (s.runs ++ [({ now, batch } : RefreshRun)])[s.runs.length]? =
        some { now, batch } := List.getElem?_concat_length
    refine ⟨fun hrun => ?_, fun grant run hdue hrun hin hpaged => ?_⟩
    · obtain ⟨hu, next, hnext, -, hwithin⟩ := within_of_run hrun ht hfresh hbatch (le_refl 0)
      exact steps_le (hu.runs _ next hnext) hwithin
    · have hsteps : Run (Step reconnectBy) _ fs u := hrun.mono fun hstep => hstep.1
      have hu := hsteps.invariant (fun hstep hs => Sound.step hs hstep) ht
      obtain ⟨next, hnext, -, -, hreaches, -⟩ :=
        reaches_of_run hrun hfresh hbatch rfl hdue (.inr rfl)
      obtain rfl := Option.some.inj (hin.symm.trans hnext)
      have hnodup : run.visited.Nodup :=
        (hu.runs _ run hin).visited_sorted.imp fun hlt => hlt.ne
      exact List.count_eq_one_of_mem hnodup (mem_of_reaches hreaches hpaged)

section Samples

/-- A grant whose date is ten days ahead. -/
def sample : Reminding ℕ where
  db :=
    { grants := (∅ : Table GrantId (Grant ℕ)).insert 0
        { ownerId := 1, platform := "demo", kind := .oauth, remoteUserId := none
          credential := some 7, expiresAt := none }
      nextGrant := 1 }

def sampleDate : GrantId → Option Time := fun _ => some (10 * day)

/-- Two runs, of the fourth day and of the tenth. -/
def sampleActions : List (ReminderAction ℕ) :=
  [.start (4 * day) 100] ++ List.replicate 8 (.advance 0) ++ [.start (10 * day) 100] ++
    List.replicate 8 (.advance 1)

def sampleEnd : Option (Reminding ℕ) :=
  sampleActions.foldlM (perform sampleDate) sample

lemma sample_start : sample.Start where
  sent := rfl
  runs := rfl
  old id row hrow := by
    by_contra hlt
    have hne : id ≠ 0 := by
      rintro rfl
      exact hlt (by decide)
    rw [sample, AList.lookup_insert_ne hne] at hrow
    cases hrow

theorem reminders_in_order_sample : ∃ s, sampleEnd = some s ∧
    s.sent.map Sent.notice = [.reminder .sevenDays, .deadlinePassed] ∧
    s.sent.Pairwise fun x y => x.grant = y.grant → x.notice.rank < y.notice.rank := by
  have hsent : sampleEnd.map (fun s => s.sent.map Sent.notice) =
      some [.reminder .sevenDays, .deadlinePassed] := by decide
  obtain ⟨s, hs, hnotices⟩ := Option.map_eq_some_iff.mp hsent
  have hrun : Run (Step sampleDate) sample sampleActions s := Run.of_foldlM (fun h => h) hs
  exact ⟨s, hs, hnotices, (reminders_in_order sample_start hrun).2.1⟩

end Samples

end Reminding

end Postit.Accounts
