import Mathlib.Data.List.Dedup
import Postit.Framework.Trace
import Postit.Identity.Delegations

/-!
# Who reads what of a delegation, and how it ends

The readers of a delegation agree in every state the constraints allow, and a grant ends once, with
one audit event, and is of no use from then on, in every run in which no change of an expiry comes
when its grant has expired meanwhile (`delegations_sound`).  Such a change, which has read the clock
before, brings an expired grant back (`not_delegations_sound`).
-/

namespace Postit.Delegations

open Postit.Data (UserId AccountId Level OwnerScope ScopeError)
open Postit.Framework
open Postit.Identity (UserRecord UserStatus)

variable {κ : Type} {db : Db κ}

/-! ## Live grants -/

/-- The row is a grant by which the delegate may act for the owner at `now`. -/
structure Db.Serves (db : Db κ) (owner delegate : UserId) (now : Time) (d : DelegationRow) :
    Prop where
  ofOwner : d.ownerId = owner
  ofDelegate : d.delegateId = delegate
  ownerActive : db.isActive owner = true
  delegateActive : db.isActive delegate = true
  ended : d.ended = none
  expiry : ∀ time, d.expiresAt = some time → now < time

variable {actor owner delegate user : UserId} {now : Time} {id : DelegationId}
  {d d' : DelegationRow} {account : AccountId}

/-- The two ways in which an expiry is compared. -/
lemma unexpired_iff :
    ((d.expiresAt.isNone || d.expiresAt.any (now < ·)) = true) ↔
      ∀ time, d.expiresAt = some time → now < time := by
  cases d.expiresAt <;> simp

/-- `is_live` is what the queries ask of a row. -/
lemma isLive_iff :
    (db.delegation id d).isLive now = true ↔
      d.ended = none ∧ ∀ time, d.expiresAt = some time → now < time := by
  simp [Delegation.isLive, Db.delegation, Option.all_eq_true]

lemma serves_iff :
    ((db.isActive d.ownerId && db.isActive d.delegateId && d.ownerId = owner &&
        d.delegateId = delegate && d.ended.isNone &&
        (d.expiresAt.isNone || d.expiresAt.any (now < ·))) = true) ↔
      db.Serves owner delegate now d := by
  simp only [Bool.and_eq_true, unexpired_iff, decide_eq_true_eq, Option.isNone_iff_eq_none]
  constructor
  · rintro ⟨⟨⟨⟨⟨howner, hdelegate⟩, rfl⟩, rfl⟩, hended⟩, hexpiry⟩
    exact ⟨rfl, rfl, howner, hdelegate, hended, hexpiry⟩
  · rintro ⟨rfl, rfl, howner, hdelegate, hended, hexpiry⟩
    exact ⟨⟨⟨⟨⟨howner, hdelegate⟩, rfl⟩, rfl⟩, hended⟩, hexpiry⟩

/-- A pair has one grant at most that serves it. -/
lemma Db.Constraints.unique (h : db.Constraints) {id' : DelegationId} {now' : Time}
    (hd : db.delegations.lookup id = some d) (hd' : db.delegations.lookup id' = some d')
    (hs : db.Serves owner delegate now d) (hs' : db.Serves owner delegate now' d') : id = id' :=
  h.livePair id id' d d' hd hd' hs.ended hs'.ended (hs.ofOwner.trans hs'.ofOwner.symm)
    (hs.ofDelegate.trans hs'.ofDelegate.symm)

/-! ## The limit of a grant -/

lemma mem_linkedAccounts :
    account ∈ db.linkedAccounts id ↔ (db.links.lookup (id, account)).isSome = true := by
  simp only [Db.linkedAccounts, List.mem_insertionSort, List.mem_map, Prod.exists,
    Table.mem_select, decide_eq_true_eq, Option.isSome_iff_exists]
  constructor
  · rintro ⟨id', account', owner, ⟨h, rfl⟩, rfl⟩
    exact ⟨owner, h⟩
  · rintro ⟨owner, h⟩
    exact ⟨id, account, owner, ⟨h, rfl⟩, rfl⟩

/-- The join leaves the accounts of the limit, and nothing where there is none. -/
lemma insertionSort_leftJoined :
    (DelegationRepo.leftJoined db id).reduceOption.insertionSort (· ≤ ·) =
      db.linkedAccounts id := by
  unfold DelegationRepo.leftJoined Db.linkedAccounts
  cases db.links.select fun key _ => key.1 = id with
  | nil => rfl
  | cons row rows =>
    congr 1
    change List.filterMap (fun o => o) _ = _
    simp [List.filterMap_map]

/-- The access under a row. -/
def Db.accessUnder (db : Db κ) (id : DelegationId) (d : DelegationRow) : Data.Access :=
  .delegated d.level (db.delegation id d).accounts

lemma allowsAccount_accessUnder :
    (OwnerScope.mk actor owner (db.accessUnder id d)).allowsAccount account =
      (d.allAccounts || (db.links.lookup (id, account)).isSome) := by
  cases hall : d.allAccounts with
  | true =>
    simp [OwnerScope.allowsAccount, OwnerScope.accountFilter, Db.accessUnder, Db.delegation, hall]
  | false =>
    rw [Bool.false_or, Bool.eq_iff_iff, ← mem_linkedAccounts]
    simp [OwnerScope.allowsAccount, OwnerScope.accountFilter, Db.accessUnder, Db.delegation, hall,
      AccountLimit.only, Option.all_some]

/-! ## The readers agree -/

/-- What `resolve` gives is under a grant that serves. -/
lemma of_resolve_eq_some {scope : OwnerScope}
    (h : DelegationRepo.resolve db actor owner now = some (id, scope)) :
    actor ≠ owner ∧ ∃ d, db.delegations.lookup id = some d ∧ db.Serves owner actor now d ∧
      scope = ⟨actor, owner, db.accessUnder id d⟩ := by
  unfold DelegationRepo.resolve at h
  split_ifs at h with hself
  obtain ⟨⟨id', d⟩, hfind, heq⟩ := Option.map_eq_some_iff.mp h
  obtain ⟨hd, hserves⟩ := Table.of_find?_eq_some hfind
  obtain ⟨rfl, rfl⟩ := Prod.mk.inj heq
  refine ⟨hself, d, hd, serves_iff.1 hserves, ?_⟩
  simp only [insertionSort_leftJoined, Db.accessUnder, Db.delegation]

/-- A grant that serves is what `resolve` finds. -/
lemma resolve_eq_some (h : db.Constraints) (hd : db.delegations.lookup id = some d)
    (hs : db.Serves owner actor now d) :
    DelegationRepo.resolve db actor owner now =
      some (id, ⟨actor, owner, db.accessUnder id d⟩) := by
  have hself : actor ≠ owner := by
    intro heq
    exact h.notSelf id d hd (hs.ofOwner.trans (heq.symm.trans hs.ofDelegate.symm))
  cases hfound : DelegationRepo.resolve db actor owner now with
  | none =>
    simp only [DelegationRepo.resolve, if_neg hself, Option.map_eq_none_iff] at hfound
    have hnot := Table.find?_eq_none.mp hfound id d hd
    rw [serves_iff.2 hs] at hnot
    cases hnot
  | some found =>
    obtain ⟨id', scope⟩ := found
    obtain ⟨-, d', hd', hs', rfl⟩ := of_resolve_eq_some hfound
    obtain rfl := h.unique hd hd' hs hs'
    rw [Option.some.inj (hd.symm.trans hd')]

lemma liveGrantCovers_iff {limit : Option AccountId} :
    DelegationRepo.liveGrantCovers db owner delegate limit now = true ↔
      ∃ id d, db.delegations.lookup id = some d ∧ db.Serves owner delegate now d ∧
        ∀ account, limit = some account →
          (d.allAccounts || (db.links.lookup (id, account)).isSome) = true := by
  simp only [DelegationRepo.liveGrantCovers, Table.exists?_eq_true]
  refine exists_congr fun id => exists_congr fun d => and_congr_right fun _ => ?_
  rw [Bool.and_eq_true, serves_iff, Option.all_eq_true]

/-- A view is of a grant of the delegate that has neither ended nor expired. -/
lemma mem_listAllReceived {view : DelegationRepo.DelegationView} :
    view ∈ DelegationRepo.listAllReceived db user now ↔
      ∃ id d owner, db.delegations.lookup id = some d ∧ d.delegateId = user ∧ d.ended = none ∧
        (∀ time, d.expiresAt = some time → now < time) ∧
        db.users.lookup d.ownerId = some owner ∧
        view = ⟨db.delegation id d, owner.displayName, owner.status⟩ := by
  simp only [DelegationRepo.listAllReceived, List.mem_insertionSort, List.mem_filterMap,
    Prod.exists, Table.mem_select, Bool.and_eq_true, unexpired_iff, decide_eq_true_eq,
    Option.isNone_iff_eq_none, Option.map_eq_some_iff]
  constructor
  · rintro ⟨id, d, ⟨hd, ⟨hdelegate, hended⟩, hexpiry⟩, owner, howner, rfl⟩
    exact ⟨id, d, owner, hd, hdelegate, hended, hexpiry, howner, rfl⟩
  · rintro ⟨id, d, owner, hd, hdelegate, hended, hexpiry, howner, rfl⟩
    exact ⟨id, d, ⟨hd, ⟨hdelegate, hended⟩, hexpiry⟩, owner, howner, rfl⟩

/-- No grant is listed twice. -/
lemma nodup_listAllReceived : (DelegationRepo.listAllReceived db user now).Nodup := by
  rw [DelegationRepo.listAllReceived, (List.perm_insertionSort _ _).nodup_iff]
  refine List.Pairwise.filterMap _ ?_ (List.pairwise_map.mp (db.delegations.nodup_select _))
  rintro ⟨id, d⟩ ⟨id', d'⟩ hne view hview view' hview' rfl
  obtain ⟨owner, -, rfl⟩ := Option.map_eq_some_iff.mp hview
  obtain ⟨owner', -, heq⟩ := Option.map_eq_some_iff.mp hview'
  have hid := congrArg (fun v => v.delegation.id) heq
  exact hne hid.symm

/-- The workspaces of others are those whose grants serve the user. -/
lemma mem_workspaces {record : UserRecord} (huser : db.users.lookup user = some record)
    (hactive : record.status = .active) {w : Workspace} :
    w ∈ ((DelegationRepo.listAllReceived db user now).filter fun v =>
        v.otherStatus = .active && v.delegation.isLive now).map (fun v =>
          { ownerId := v.delegation.ownerId
            ownerDisplayName := v.otherDisplayName
            access := some (v.delegation.id, v.delegation.level, v.delegation.accounts) }) ↔
      ∃ id d name, db.delegations.lookup id = some d ∧ db.Serves d.ownerId user now d ∧
        (db.users.lookup d.ownerId).map (·.displayName) = some name ∧
        w = ⟨d.ownerId, name, some (id, d.level, (db.delegation id d).accounts)⟩ := by
  have hself : db.isActive user = true := by simp [Db.isActive, huser, hactive]
  simp only [List.mem_map, List.mem_filter, mem_listAllReceived, Bool.and_eq_true,
    decide_eq_true_eq]
  constructor
  · rintro ⟨v, ⟨⟨id, d, owner, hd, hdelegate, hended, hexpiry, howner, rfl⟩, hstatus, -⟩, rfl⟩
    refine ⟨id, d, owner.displayName, hd, ⟨rfl, hdelegate, ?_, hself, hended, hexpiry⟩, ?_, rfl⟩
    · rw [Db.isActive, howner]
      exact decide_eq_true hstatus
    · rw [howner, Option.map_some]
  · rintro ⟨id, d, name, hd, hs, hname, rfl⟩
    obtain ⟨owner, howner, rfl⟩ := Option.map_eq_some_iff.mp hname
    have hstatus : owner.status = .active := by
      simpa [Db.isActive, howner] using hs.ownerActive
    exact ⟨_, ⟨⟨id, d, owner, hd, hs.ofDelegate, hs.ended, hs.expiry, howner, rfl⟩, hstatus,
      isLive_iff.2 ⟨hs.ended, hs.expiry⟩⟩, rfl⟩

/-- The readers of delegations agree. -/
structure Db.Agree (db : Db κ) : Prop where
  covers : ∀ {actor owner : UserId} (now : Time), actor ≠ owner →
    (DelegationRepo.resolve db actor owner now).isSome =
      DelegationRepo.liveGrantCovers db owner actor none now
  accounts : ∀ {actor owner : UserId} {now : Time} {id : DelegationId} {scope : OwnerScope},
    DelegationRepo.resolve db actor owner now = some (id, scope) → ∀ account,
      scope.allowsAccount account =
        DelegationRepo.liveGrantCovers db owner actor (some account) now
  workspaces : ∀ {user : UserId} {record : UserRecord} (now : Time),
    db.users.lookup user = some record → record.status = .active →
    ∃ received, DelegationService.workspaces db user now =
        .ok (⟨user, record.displayName, none⟩ :: received) ∧
      (received.map Workspace.ownerId).Nodup ∧
      (∀ w ∈ received, ∃ id level accounts, w.access = some (id, level, accounts) ∧
        DelegationRepo.resolve db user w.ownerId now =
          some (id, ⟨user, w.ownerId, .delegated level accounts⟩)) ∧
      ∀ owner id scope, DelegationRepo.resolve db user owner now = some (id, scope) →
        ∃ w ∈ received, w.ownerId = owner ∧ ∃ level accounts,
          scope = ⟨user, owner, .delegated level accounts⟩ ∧ w.access = some (id, level, accounts)

/-- **The readers agree** where the constraints hold. -/
lemma Db.Constraints.agree (h : db.Constraints) : db.Agree where
  covers := by
    intro actor owner now hself
    rw [Bool.eq_iff_iff, Option.isSome_iff_exists, liveGrantCovers_iff]
    constructor
    · rintro ⟨⟨id, scope⟩, hresolve⟩
      obtain ⟨-, d, hd, hs, -⟩ := of_resolve_eq_some hresolve
      exact ⟨id, d, hd, hs, fun _ hnone => nomatch hnone⟩
    · rintro ⟨id, d, hd, hs, -⟩
      exact ⟨_, resolve_eq_some h hd hs⟩
  accounts := by
    intro actor owner now id scope hresolve account
    obtain ⟨-, d, hd, hs, rfl⟩ := of_resolve_eq_some hresolve
    rw [allowsAccount_accessUnder, Bool.eq_iff_iff, liveGrantCovers_iff]
    constructor
    · intro hreach
      refine ⟨id, d, hd, hs, ?_⟩
      rintro _ ⟨⟩
      exact hreach
    · rintro ⟨id', d', hd', hs', hreach⟩
      obtain rfl := h.unique hd hd' hs hs'
      obtain rfl := Option.some.inj (hd.symm.trans hd')
      exact hreach account rfl
  workspaces := by
    intro user record now huser hactive
    refine ⟨_, by simp only [DelegationService.workspaces, DelegationService.require, huser]; rfl,
      ?_, ?_, ?_⟩
    · rw [List.map_map]
      refine List.Nodup.map_on ?_ (nodup_listAllReceived.filter _)
      intro v hv v' hv' howner
      simp only [List.mem_filter, mem_listAllReceived, Bool.and_eq_true, decide_eq_true_eq]
        at hv hv'
      obtain ⟨⟨id, d, u, hd, hdelegate, hended, hexpiry, hu, rfl⟩, -⟩ := hv
      obtain ⟨⟨id', d', u', hd', hdelegate', hended', hexpiry', hu', rfl⟩, -⟩ := hv'
      obtain rfl := h.livePair id id' d d' hd hd' hended hended' howner
        (hdelegate.trans hdelegate'.symm)
      obtain rfl := Option.some.inj (hd.symm.trans hd')
      rw [Option.some.inj (hu.symm.trans hu')]
    · intro w hw
      obtain ⟨id, d, name, hd, hs, -, rfl⟩ := (mem_workspaces huser hactive).mp hw
      exact ⟨id, d.level, _, rfl, resolve_eq_some h hd hs⟩
    · intro owner id scope hresolve
      obtain ⟨-, d, hd, hs, rfl⟩ := of_resolve_eq_some hresolve
      obtain rfl := hs.ofOwner
      obtain ⟨u, hu⟩ := Option.isSome_iff_exists.mp (h.parties id d hd).1
      have hname : (db.users.lookup d.ownerId).map (·.displayName) = some u.displayName := by
        rw [hu, Option.map_some]
      exact ⟨_, (mem_workspaces huser hactive).mpr ⟨id, d, _, hd, hs, hname, rfl⟩, rfl, d.level, _,
        rfl, rfl⟩

/-! ## What an operation leaves of a grant -/

/-- How many events of the reason's kind there are about the grant. -/
def Db.endEvents (db : Db κ) (id : DelegationId) (reason : EndedReason) : ℕ :=
  db.audit.countP fun e => e.delegationId = id && e.kind = reason.kind

/-- How many times the grant was ended for the reason, which is once or never. -/
def Db.endings (db : Db κ) (id : DelegationId) (reason : EndedReason) : ℕ :=
  if (db.delegations.lookup id).any fun d => d.ended.any (·.reason = reason) then 1 else 0

/-- An ended grant stays as it is, and one that has expired keeps its expiry. -/
structure Follows (clock : Time) (d d' : DelegationRow) : Prop where
  ended : d.ended ≠ none → d' = d
  expired : ∀ time, d.expiresAt = some time → time ≤ clock → d'.expiresAt = some time

/-- What an operation that ends at the time of the clock keeps. -/
structure Onward (clock : Time) (s t : Db κ) : Prop where
  rows : ∀ id d, s.delegations.lookup id = some d →
    ∃ d', t.delegations.lookup id = some d' ∧ Follows clock d d'
  events : ∀ id reason,
    t.endEvents id reason + s.endings id reason = s.endEvents id reason + t.endings id reason
  constraints : s.Constraints → t.Constraints

variable {clock clock' : Time} {s t u : Db κ} {reason : EndedReason}

lemma Follows.refl (clock : Time) (d : DelegationRow) : Follows clock d d :=
  ⟨fun _ => rfl, fun _ h _ => h⟩

lemma Onward.refl (clock : Time) (s : Db κ) : Onward clock s s :=
  ⟨fun _ d h => ⟨d, h, Follows.refl clock d⟩, fun _ _ => rfl, id⟩

lemma Onward.trans (h : Onward clock s t) (h' : Onward clock' t u) (hclock : clock ≤ clock') :
    Onward clock s u where
  rows := by
    intro id d hd
    obtain ⟨d', hd', hf⟩ := h.rows id d hd
    obtain ⟨d'', hd'', hf'⟩ := h'.rows id d' hd'
    refine ⟨d'', hd'', fun hended => ?_, fun time htime hle => ?_⟩
    · obtain rfl := hf.ended hended
      exact hf'.ended hended
    · exact hf'.expired time (hf.expired time htime hle) (le_trans hle hclock)
  events := by
    intro id reason
    have hfirst := h.events id reason
    have hsecond := h'.events id reason
    omega
  constraints := fun hs => h'.constraints (h.constraints hs)

lemma EndedReason.kind_inj {r r' : EndedReason} : r.kind = r'.kind ↔ r = r' := by
  cases r <;> cases r' <;> simp [EndedReason.kind]

/-- Events of other kinds are added, and what is not the grants changes. -/
lemma Onward.quiet (events : List AuditEvent) (hrows : t.delegations = s.delegations)
    (haudit : t.audit = s.audit ++ events)
    (hkinds : ∀ e ∈ events, ∀ reason : EndedReason, e.kind ≠ reason.kind)
    (hc : s.Constraints → t.Constraints) : Onward clock s t where
  rows := fun id d hd => ⟨d, hrows ▸ hd, Follows.refl clock d⟩
  events := by
    intro id reason
    have hnone : events.countP (fun e => e.delegationId = id && e.kind = reason.kind) = 0 := by
      rw [List.countP_eq_zero]
      intro e he
      simp [hkinds e he reason]
    simp only [Db.endEvents, Db.endings, hrows, haudit, List.countP_append, hnone, Nat.add_zero]
  constraints := hc

lemma lookup_updateWhere {p : DelegationId → DelegationRow → Bool}
    {f : DelegationRow → DelegationRow} (hd : s.delegations.lookup id = some d) :
    (s.delegations.updateWhere p f).lookup id = some (if p id d then f d else d) := by
  rw [Table.lookup_updateWhere, hd]
  rfl

/-- Rows that change in place keep the constraints, when none of them comes back. -/
lemma Db.Constraints.updateWhere (h : s.Constraints)
    {p : DelegationId → DelegationRow → Bool} {f : DelegationRow → DelegationRow}
    (hf : ∀ d, (f d).ownerId = d.ownerId ∧ (f d).delegateId = d.delegateId ∧
      ((f d).ended = none → d.ended = none)) :
    Db.Constraints { s with delegations := s.delegations.updateWhere p f } := by
  have hrow : ∀ id d', (s.delegations.updateWhere p f).lookup id = some d' →
      ∃ d, s.delegations.lookup id = some d ∧ d'.ownerId = d.ownerId ∧
        d'.delegateId = d.delegateId ∧ (d'.ended = none → d.ended = none) := by
    intro id d' hd'
    rw [Table.lookup_updateWhere] at hd'
    obtain ⟨d, hd, rfl⟩ := Option.map_eq_some_iff.mp hd'
    refine ⟨d, hd, ?_⟩
    split_ifs
    · exact hf d
    · exact ⟨rfl, rfl, fun hnone => hnone⟩
  refine ⟨fun id d' hd' => ?_, fun id id' d d' hd hd' hend hend' howner hdelegate => ?_,
    fun id d' hd' => ?_, fun id account owner hlink => ?_⟩
  · obtain ⟨d, hd, howner, hdelegate, -⟩ := hrow id d' hd'
    rw [howner, hdelegate]
    exact h.notSelf id d hd
  · obtain ⟨e, he, ho, hg, hl⟩ := hrow id d hd
    obtain ⟨e', he', ho', hg', hl'⟩ := hrow id' d' hd'
    exact h.livePair id id' e e' he he' (hl hend) (hl' hend') (ho.symm.trans (howner.trans ho'))
      (hg.symm.trans (hdelegate.trans hg'))
  · obtain ⟨d, hd, howner, hdelegate, -⟩ := hrow id d' hd'
    rw [howner, hdelegate]
    exact h.parties id d hd
  · obtain ⟨⟨d, hd, howner⟩, haccount⟩ := h.linked id account owner hlink
    refine ⟨⟨_, lookup_updateWhere hd, ?_⟩, haccount⟩
    split_ifs
    · exact (hf d).1.trans howner
    · exact howner

/-- **Grants end**: each of some that have not, with an event of the reason's kind. -/
lemma Onward.ending (ids : List DelegationId) (e : Ended) (events : List AuditEvent)
    {p : DelegationId → DelegationRow → Bool} (hids : ids.Nodup)
    (hfound : ∀ id ∈ ids, ∃ d, s.delegations.lookup id = some d ∧ d.ended = none)
    (hp : ∀ id d, p id d = true ↔ d.ended = none ∧ id ∈ ids)
    (hevents : events.map (fun e => (e.delegationId, e.kind)) =
      ids.map fun id => (id, e.reason.kind))
    (notices : List DelegationNotice) :
    Onward clock s
      { s with
        delegations := s.delegations.updateWhere p ({ · with ended := some e })
        audit := s.audit ++ events
        notices } where
  rows := by
    intro id d hd
    refine ⟨_, lookup_updateWhere hd, fun hended => ?_, fun time htime _ => ?_⟩
    · exact if_neg fun hpid => hended ((hp id d).mp hpid).1
    · split_ifs <;> exact htime
  events := by
    intro id reason
    have hcount : events.countP (fun e => e.delegationId = id && e.kind = reason.kind) =
        if id ∈ ids ∧ e.reason = reason then 1 else 0 := by
      have hmap := congrArg
        (List.countP fun x : DelegationId × Audit.AuditEventKind =>
          x.1 = id && x.2 = reason.kind) hevents
      rw [List.countP_map, List.countP_map] at hmap
      refine hmap.trans ?_
      by_cases hreason : e.reason = reason
      · have hone := hids.count (a := id)
        rw [List.count_eq_countP] at hone
        simpa [hreason, Function.comp_def, beq_eq_decide] using hone
      · simp [hreason, Function.comp_def, EndedReason.kind_inj]
    simp only [Db.endEvents, List.countP_append, hcount]
    rw [Nat.add_right_comm, Nat.add_assoc, Nat.add_left_cancel_iff]
    cases hd : s.delegations.lookup id with
    | none =>
      have hnot : id ∉ ids := by
        intro hid
        obtain ⟨d, hd', -⟩ := hfound id hid
        rw [hd] at hd'
        cases hd'
      simp [Db.endings, Table.lookup_updateWhere, hd, hnot]
    | some d =>
      by_cases hid : id ∈ ids
      · obtain ⟨_, hd', hended⟩ := hfound id hid
        obtain rfl := Option.some.inj (hd.symm.trans hd')
        simp [Db.endings, lookup_updateWhere hd, hd, hended, hid, (hp id d).mpr ⟨hended, hid⟩]
      · have hpid : p id d = false := by
          simpa [hid] using hp id d
        simp [Db.endings, lookup_updateWhere hd, hd, hpid, hid]
  constraints := by
    intro h
    have hc := h.updateWhere (p := p) (f := ({ · with ended := some e })) fun d =>
      ⟨rfl, rfl, fun hnone => nomatch hnone⟩
    exact ⟨hc.notSelf, hc.livePair, hc.parties, hc.linked⟩

/-! ## The statements -/

lemma of_repo {α : Type} {x : Except DataError α} {a : α} (h : repo x = .ok a) : x = .ok a :=
  mapError_eq_ok h

lemma of_refuseIf {ε : Type} {condition : Bool} {error : ε} {u : Unit}
    (h : refuseIf condition error = .ok u) : condition = false := by
  cases condition with
  | false => rfl
  | true => cases h

/-- The grant is in the table, and read as it is there. -/
def Db.Holds (db : Db κ) (g : Delegation) : Prop :=
  ∃ d, db.delegations.lookup g.id = some d ∧ g = db.delegation g.id d

variable {g : Delegation} {scope : OwnerScope}

lemma of_fetch (h : DelegationRepo.fetch s owner id = .ok g) :
    g.id = id ∧ s.Holds g ∧ ∃ d, s.delegations.lookup id = some d ∧ d.ownerId = owner := by
  unfold DelegationRepo.fetch at h
  split at h
  next d hfind =>
    cases h
    obtain ⟨hd, howner⟩ := Option.filter_eq_some_iff.mp hfind
    exact ⟨rfl, ⟨d, hd, rfl⟩, d, hd, of_decide_eq_true howner⟩
  next => cases h

lemma of_lock (h : DelegationRepo.lock s scope id = .ok g) : g.id = id ∧ s.Holds g := by
  obtain ⟨-, -, h⟩ := bind_eq_ok h
  obtain ⟨hid, hholds, -⟩ := of_fetch h
  exact ⟨hid, hholds⟩

lemma of_lockReceived (h : DelegationRepo.lockReceived s delegate id = .ok g) : s.Holds g := by
  unfold DelegationRepo.lockReceived at h
  split at h
  next d hfind =>
    cases h
    exact ⟨d, (Option.filter_eq_some_iff.mp hfind).1, rfl⟩
  next => cases h

lemma of_lockLiveForPair (h : DelegationRepo.lockLiveForPair s scope delegate = .ok (some g)) :
    s.Holds g ∧ g.ended = none := by
  obtain ⟨-, -, h⟩ := bind_eq_ok h
  obtain ⟨⟨id, d⟩, hfind, rfl⟩ := Option.map_eq_some_iff.mp (Except.ok.inj h)
  obtain ⟨hd, hp⟩ := Table.of_find?_eq_some hfind
  simp only [Bool.and_eq_true, Option.isNone_iff_eq_none] at hp
  exact ⟨⟨d, hd, rfl⟩, hp.2⟩

/-- A new row has a new key, and is the pair's only grant that has not ended. -/
lemma Onward.insertRow (h : DelegationRepo.insertRow s id d = .ok t) (hended : d.ended = none) :
    Onward clock s t ∧ t.delegations.lookup id = some d := by
  unfold DelegationRepo.insertRow at h
  split at h
  next => cases h
  next hnone =>
    cases h
    unfold DelegationRepo.violated at hnone
    split_ifs at hnone with hself hkey hpair hparties
    simp only [Bool.not_eq_true, Option.isSome_eq_false_iff, Option.isNone_iff_eq_none] at hkey
    have hne : ∀ {k e}, s.delegations.lookup k = some e → k ≠ id := by
      rintro k e he rfl
      rw [hkey] at he
      cases he
    have hold : ∀ {k e}, (s.delegations.insert id d).lookup k = some e →
        k = id ∧ e = d ∨ s.delegations.lookup k = some e := by
      intro k e he
      by_cases hk : k = id
      · subst hk
        rw [AList.lookup_insert] at he
        exact .inl ⟨rfl, (Option.some.inj he).symm⟩
      · exact .inr (by rwa [AList.lookup_insert_ne hk] at he)
    refine ⟨⟨fun k e he => ⟨e, by rwa [AList.lookup_insert_ne (hne he)], .refl clock e⟩,
      fun k reason => ?_, fun hc => ⟨fun k e he => ?_, fun k k' e e' he he' hend hend' ho hg => ?_,
        fun k e he => ?_, fun k account owner hlink => ?_⟩⟩, AList.lookup_insert _⟩
    · by_cases hk : k = id
      · subst hk
        simp [Db.endEvents, Db.endings, hkey, hended]
      · simp [Db.endEvents, Db.endings, AList.lookup_insert_ne hk]
    · rcases hold he with ⟨rfl, rfl⟩ | he
      · exact hself
      · exact hc.notSelf k e he
    · have hfree : ∀ {k e}, s.delegations.lookup k = some e → e.ended = none →
          e.ownerId = d.ownerId → e.delegateId = d.delegateId → False := by
        intro k e he hend ho hg
        refine hpair (Table.exists?_eq_true.mpr ⟨k, e, he, ?_⟩)
        simp [hend, ho, hg]
      rcases hold he with ⟨rfl, rfl⟩ | hk <;> rcases hold he' with ⟨rfl, rfl⟩ | hk'
      · rfl
      · exact (hfree hk' hend' ho.symm hg.symm).elim
      · exact (hfree hk hend ho hg).elim
      · exact hc.livePair k k' e e' hk hk' hend hend' ho hg
    · rcases hold he with ⟨rfl, rfl⟩ | he
      · simp only [Bool.or_eq_true, Option.isNone_iff_eq_none, not_or, ← ne_eq,
          Option.ne_none_iff_isSome] at hparties
        exact hparties
      · exact hc.parties k e he
    · obtain ⟨⟨e, he, howner⟩, haccount⟩ := hc.linked k account owner hlink
      exact ⟨⟨e, by rwa [AList.lookup_insert_ne (hne he)], howner⟩, haccount⟩

/-- The accounts that are locked are the owner's. -/
lemma of_lockAccounts {ids : List AccountId} {u : Unit}
    (h : DelegationRepo.lockAccounts s owner ids = .ok u) :
    ∀ account ∈ ids, ∃ a, s.accounts.accounts.lookup account = some a ∧ a.ownerId = owner := by
  have hlength := not_not.mp (of_decide_eq_false (of_refuseIf h))
  have hnodup := s.accounts.accounts.nodup_select fun id a =>
    a.ownerId = owner && ids.contains id && a.status ≠ .disconnected
  have hrow : ∀ row ∈ s.accounts.accounts.select fun id a =>
      a.ownerId = owner && ids.contains id && a.status ≠ .disconnected,
      s.accounts.accounts.lookup row.1 = some row.2 ∧ row.2.ownerId = owner ∧ row.1 ∈ ids := by
    rintro ⟨id, a⟩ hmem
    obtain ⟨ha, hp⟩ := Table.mem_select.mp hmem
    simp only [Bool.and_eq_true, decide_eq_true_eq, List.contains_iff_mem] at hp
    exact ⟨ha, hp.1.1, hp.1.2⟩
  -- as many of them as there are, so all of them
  have hperm := (List.subperm_of_subset hnodup fun id hid => by
    obtain ⟨row, hmem, rfl⟩ := List.mem_map.mp hid
    exact (hrow row hmem).2.2).perm_of_length_le (by rw [List.length_map, hlength])
  intro account hmem
  obtain ⟨row, hselected, rfl⟩ := List.mem_map.mp (hperm.mem_iff.mpr hmem)
  obtain ⟨ha, howner, -⟩ := hrow row hselected
  exact ⟨row.2, ha, howner⟩

/-- Links are changed, and each of them is of a grant and an account of its owner. -/
lemma Onward.links (links : Table (DelegationId × AccountId) UserId)
    (hlinks : s.Constraints → ∀ id account owner, links.lookup (id, account) = some owner →
      (∃ d, s.delegations.lookup id = some d ∧ d.ownerId = owner) ∧
        ∃ a, s.accounts.accounts.lookup account = some a ∧ a.ownerId = owner) :
    Onward clock s { s with links } :=
  .quiet [] rfl (List.append_nil _).symm (fun _ h => nomatch h) fun hc =>
    ⟨hc.notSelf, hc.livePair, hc.parties, hlinks hc⟩

lemma Onward.insertLinks {ids : List AccountId} (hids : ids.Nodup)
    (h : DelegationRepo.insertLinks s owner id ids = .ok t)
    (hgrant : ∃ d, s.delegations.lookup id = some d ∧ d.ownerId = owner)
    (haccounts : ∀ account ∈ ids,
      ∃ a, s.accounts.accounts.lookup account = some a ∧ a.ownerId = owner) :
    Onward clock s t := by
  obtain ⟨-, -, h⟩ := bind_eq_ok h
  cases h
  refine .links _ fun hc k account o hlink => ?_
  by_cases hnew : k = id ∧ account ∈ ids
  · obtain ⟨rfl, hmem⟩ := hnew
    have hnodup : ((ids.map fun a => ((k, a), owner)).map Prod.fst).Nodup := by
      rw [List.map_map]
      exact hids.map fun a b hab => (Prod.mk.inj hab).2
    rw [Table.lookup_insertAll_of_mem hnodup (List.mem_map.mpr ⟨account, hmem, rfl⟩)] at hlink
    cases hlink
    exact ⟨hgrant, haccounts account hmem⟩
  · rw [Table.lookup_insertAll_of_not_mem] at hlink
    · exact hc.linked k account o hlink
    · intro row hrow heq
      obtain ⟨a, ha, rfl⟩ := List.mem_map.mp hrow
      obtain ⟨rfl, rfl⟩ := Prod.mk.inj heq
      exact hnew ⟨rfl, ha⟩

lemma nodup_of_limitIds {accounts : AccountLimit} {ids : List AccountId}
    (h : limitIds accounts = some ids) : ids.Nodup := by
  obtain ⟨l, -, rfl⟩ := Option.map_eq_some_iff.mp h
  exact List.nodup_dedup _

lemma Onward.limitTo {accounts : AccountLimit}
    (h : DelegationRepo.limitTo s owner id (limitIds accounts) = .ok t)
    (hgrant : ∃ d, s.delegations.lookup id = some d ∧ d.ownerId = owner) : Onward clock s t := by
  cases hids : limitIds accounts with
  | none =>
    rw [hids] at h
    cases h
    exact .refl clock s
  | some ids =>
    rw [hids] at h
    obtain ⟨_, hlock, h⟩ := bind_eq_ok h
    have hnodup := nodup_of_limitIds hids
    exact .insertLinks hnodup h hgrant (of_lockAccounts hlock)

lemma Onward.replaceLinks {accounts : AccountLimit}
    (h : DelegationRepo.replaceLinks s owner id accounts = .ok t)
    (hgrant : ∃ d, s.delegations.lookup id = some d ∧ d.ownerId = owner) : Onward clock s t := by
  obtain ⟨_, hlock, h⟩ := bind_eq_ok h
  have hdelete : Onward clock s
      { s with links := s.links.deleteWhere fun key o => o = owner && key.1 = id } := by
    refine .links _ fun hc k account o hlink => hc.linked k account o ?_
    rw [Table.lookup_deleteWhere] at hlink
    exact (Option.filter_eq_some_iff.mp hlink).1
  cases hids : limitIds accounts with
  | none =>
    rw [hids] at h
    cases h
    exact hdelete
  | some ids =>
    rw [hids] at h hlock
    have hnodup := nodup_of_limitIds hids
    exact hdelete.trans (.insertLinks hnodup h hgrant (of_lockAccounts hlock)) le_rfl

/-- A new grant is read as it was stored. -/
lemma Onward.insert {new : NewDelegation} {createdAt : Time}
    (h : DelegationRepo.insert s scope new createdAt = .ok (t, g)) : Onward clock s t := by
  obtain ⟨_, -, h⟩ := bind_eq_ok h
  obtain ⟨s₁, hrow, h⟩ := bind_eq_ok h
  obtain ⟨s₂, hlimit, h⟩ := bind_eq_ok h
  obtain ⟨_, -, h⟩ := bind_eq_ok h
  cases h
  have hinsert : Onward clock s s₁ ∧ _ := Onward.insertRow hrow rfl
  exact hinsert.1.trans (.limitTo hlimit ⟨_, hinsert.2, rfl⟩) le_rfl

/-- Rows that have not ended change, and keep the expiry of what has expired. -/
lemma Onward.changeRows {p : DelegationId → DelegationRow → Bool} {change : DelegationChange}
    (hp : ∀ id d, s.delegations.lookup id = some d → p id d = true → d.ended = none ∧
      ∀ time, d.expiresAt = some time → time ≤ clock → change.expiresAt = none) :
    Onward clock s
      { s with delegations := s.delegations.updateWhere p (DelegationRepo.changed change) } where
  rows := by
    intro id d hd
    refine ⟨_, lookup_updateWhere hd, fun hended => ?_, fun time htime hle => ?_⟩
    · exact if_neg fun hpid => hended (hp id d hd hpid).1
    · split_ifs with hpid
      · simp [DelegationRepo.changed, (hp id d hd hpid).2 time htime hle, htime]
      · exact htime
  events := by
    intro id reason
    cases hd : s.delegations.lookup id with
    | none => simp [Db.endEvents, Db.endings, Table.lookup_updateWhere, hd]
    | some d =>
      have hsame : (if p id d then DelegationRepo.changed change d else d).ended = d.ended := by
        split_ifs <;> rfl
      simp [Db.endEvents, Db.endings, lookup_updateWhere hd, hd, hsame]
  constraints := fun h => h.updateWhere fun _ => ⟨rfl, rfl, fun hnone => hnone⟩

/-- A change keeps the expiry of a grant that has expired, unless it comes with one. -/
lemma Onward.update {change : DelegationChange}
    (h : DelegationRepo.update s scope id change = .ok (t, g))
    (hprompt : change.expiresAt ≠ none → ∀ d, s.delegations.lookup id = some d →
      ∀ time, d.expiresAt = some time → clock < time) : Onward clock s t := by
  obtain ⟨_, -, h⟩ := bind_eq_ok h
  obtain ⟨_, hfound, h⟩ := bind_eq_ok h
  obtain ⟨s₁, hlinks, h⟩ := bind_eq_ok h
  obtain ⟨_, -, h⟩ := bind_eq_ok h
  cases h
  have hexists := of_refuseIf hfound
  rw [Bool.not_eq_false', Table.exists?_eq_true] at hexists
  obtain ⟨id', d, hd, hp⟩ := hexists
  simp only [Bool.and_eq_true, decide_eq_true_eq, Option.isNone_iff_eq_none] at hp
  obtain ⟨⟨howner, rfl⟩, hended⟩ := hp
  have hchange : Onward clock s { s with
      delegations := s.delegations.updateWhere
        (fun k e => e.ownerId = scope.owner && k = id' && e.ended.isNone)
        (DelegationRepo.changed change) } := by
    refine .changeRows fun k e he hp => ?_
    simp only [Bool.and_eq_true, decide_eq_true_eq, Option.isNone_iff_eq_none] at hp
    obtain ⟨⟨-, rfl⟩, hend⟩ := hp
    refine ⟨hend, fun time htime hle => ?_⟩
    by_contra hne
    exact absurd hle (not_le.mpr (hprompt hne e he time htime))
  cases haccounts : change.accounts with
  | none =>
    rw [haccounts] at hlinks
    cases hlinks
    exact hchange
  | some accounts =>
    rw [haccounts] at hlinks
    refine hchange.trans (.replaceLinks hlinks ⟨_, lookup_updateWhere hd, ?_⟩) le_rfl
    split_ifs <;> exact howner

/-! ## The operations -/

lemma of_record {event : AuditEvent} (h : DelegationService.record s event = .ok t) :
    t = { s with audit := s.audit ++ [event] } := by
  obtain ⟨-, -, h⟩ := bind_eq_ok h
  exact (Except.ok.inj h).symm

lemma of_notifyExpired {names : KnownNames}
    (h : DelegationService.notifyExpired s g names = .ok t) :
    ∃ notices, t = { s with notices } := by
  obtain ⟨_, -, h⟩ := bind_eq_ok h
  obtain ⟨_, -, h⟩ := bind_eq_ok h
  exact ⟨_, (Except.ok.inj h).symm⟩

lemma of_notifyEnded {names : KnownNames}
    (h : DelegationService.notifyEnded s g names reason = .ok t) :
    ∃ notices, t = { s with notices } := by
  cases reason with
  | revoked | left =>
    obtain ⟨_, -, h⟩ := bind_eq_ok h
    exact ⟨_, (Except.ok.inj h).symm⟩
  | expired => exact of_notifyExpired h

/-- An event that is not about an end, and notices. -/
lemma Onward.report {event : AuditEvent} (hkind : ∀ reason : EndedReason, event.kind ≠ reason.kind)
    (notices : List DelegationNotice) :
    Onward clock s { s with audit := s.audit ++ [event], notices } :=
  .quiet [event] rfl rfl (fun _ he => List.mem_singleton.mp he ▸ hkind)
    fun hc => ⟨hc.notSelf, hc.livePair, hc.parties, hc.linked⟩

/-- A grant that has not ended ends, with its event. -/
lemma Onward.end_ {by_ : Option UserId} {names : KnownNames} (hg : s.Holds g)
    (hended : g.ended = none) (h : DelegationService.end_ s g reason by_ now names = .ok t) :
    Onward clock s t := by
  obtain ⟨s₁, hrecord, h⟩ := bind_eq_ok h
  obtain rfl := of_record hrecord
  obtain ⟨notices, rfl⟩ := of_notifyEnded h
  obtain ⟨d, hd, hread⟩ := hg
  refine Onward.ending (s := s) (p := fun k d => k = g.id && d.ended.isNone) [g.id]
    ⟨now, reason, _⟩ [DelegationService.withState reason.kind by_ g]
    (List.nodup_singleton _) (fun id hid => ?_) (fun id e => ?_) ?_ notices
  · obtain rfl := List.mem_singleton.mp hid
    refine ⟨d, hd, ?_⟩
    rw [hread] at hended
    exact hended
  · simp [and_comm]
  · rfl

lemma Onward.finish {actor : UserId} (hg : s.Holds g)
    (h : DelegationService.finish s g reason actor now = .ok t) : Onward clock s t := by
  unfold DelegationService.finish at h
  split_ifs at h with hended hlive
  · cases h
    exact .refl clock s
  · exact .end_ hg (Option.not_isSome_iff_eq_none.mp hended) h
  · exact .end_ hg (Option.not_isSome_iff_eq_none.mp hended) h

lemma Onward.makeRoom {existing : Option Delegation} {names : KnownNames}
    (hg : ∀ g, existing = some g → s.Holds g ∧ g.ended = none)
    (h : DelegationService.makeRoom s existing now names = .ok t) : Onward clock s t := by
  cases existing with
  | none =>
    cases h
    exact .refl clock s
  | some g =>
    obtain ⟨hholds, hended⟩ := hg g rfl
    simp only [DelegationService.makeRoom] at h
    split_ifs at h
    exact .end_ hholds hended h

lemma Onward.grant {createdAt : Time} {req : GrantRequest} {result : DelegationDetail}
    (h : DelegationService.grant s now createdAt scope id req = .ok (t, result)) :
    Onward clock s t := by
  obtain ⟨_, -, h⟩ := bind_eq_ok h
  obtain ⟨_, -, h⟩ := bind_eq_ok h
  obtain ⟨_, -, h⟩ := bind_eq_ok h
  obtain ⟨_, -, h⟩ := bind_eq_ok h
  obtain ⟨_, -, h⟩ := bind_eq_ok h
  obtain ⟨existing, hexisting, h⟩ := bind_eq_ok h
  obtain ⟨s₁, hroom, h⟩ := bind_eq_ok h
  obtain ⟨⟨s₂, g⟩, hinsert, h⟩ := bind_eq_ok h
  obtain ⟨s₃, hrecord, h⟩ := bind_eq_ok h
  cases h
  obtain rfl := of_record hrecord
  have hfirst : Onward clock s s₁ :=
    .makeRoom (fun g hg => of_lockLiveForPair (hg ▸ of_repo hexisting)) hroom
  have hthen : Onward clock s₁ s₂ := .insert (of_repo hinsert)
  refine (hfirst.trans hthen le_rfl).trans (.report (fun reason => ?_) _) le_rfl
  cases reason <;> simp [DelegationService.withState, EndedReason.kind]

lemma Onward.applyChange {req : ChangeRequest} {result : DelegationDetail}
    (h : DelegationService.applyChange s scope g req = .ok (t, result))
    (hprompt : req.expiresAt ≠ none → ∀ d, s.delegations.lookup g.id = some d →
      ∀ time, d.expiresAt = some time → clock < time) : Onward clock s t := by
  obtain ⟨⟨s₁, after⟩, hupdate, h⟩ := bind_eq_ok h
  obtain ⟨s₂, hrecord, h⟩ := bind_eq_ok h
  obtain ⟨detail, -, h⟩ := bind_eq_ok h
  cases h
  obtain rfl := of_record hrecord
  refine (Onward.update (of_repo hupdate) hprompt).trans (.report (fun reason => ?_) _) le_rfl
  cases reason <;> simp [EndedReason.kind]

lemma Onward.change {req : ChangeRequest} {result : DelegationDetail}
    (h : DelegationService.change s now scope id req = .ok (t, result))
    (hprompt : req.expiresAt ≠ none → ∀ d, s.delegations.lookup id = some d →
      ∀ time, d.expiresAt = some time → clock < time) : Onward clock s t := by
  obtain ⟨_, -, h⟩ := bind_eq_ok h
  obtain ⟨before, hlock, h⟩ := bind_eq_ok h
  obtain ⟨_, -, h⟩ := bind_eq_ok h
  obtain ⟨_, -, h⟩ := bind_eq_ok h
  split_ifs at h
  · obtain ⟨detail, -, heq⟩ := map_eq_ok h
    cases heq
    exact .refl clock s
  · exact .applyChange h ((of_lock (of_repo hlock)).1 ▸ hprompt)

lemma Onward.revoke (h : DelegationService.revoke s now scope id = .ok t) : Onward clock s t := by
  obtain ⟨_, -, h⟩ := bind_eq_ok h
  obtain ⟨g, hlock, h⟩ := bind_eq_ok h
  exact .finish (of_lock (of_repo hlock)).2 h

lemma Onward.leave (h : DelegationService.leave s now delegate id = .ok t) : Onward clock s t := by
  obtain ⟨g, hlock, h⟩ := bind_eq_ok h
  exact .finish (of_lockReceived (of_repo hlock)) h

/-- What the expiry job takes. -/
lemma takeExpired_spec (s : Db κ) (now : Time) (limit : ℕ) (locked : DelegationId → Bool) :
    ∃ ids, (DelegationRepo.takeExpired s now limit locked).2.map Delegation.id = ids ∧ ids.Nodup ∧
      (∀ id ∈ ids, ∃ d, s.delegations.lookup id = some d ∧ d.ended = none) ∧
      (DelegationRepo.takeExpired s now limit locked).1 = { s with
        delegations := s.delegations.updateWhere (fun k d => d.ended.isNone && ids.contains k)
          ({ · with ended := some ⟨now, .expired, none⟩ }) } := by
  refine ⟨_, by simp only [DelegationRepo.takeExpired, List.map_map]; rfl,
    s.delegations.nodup_selectFirst _ _ _, fun id hid => ?_, rfl⟩
  obtain ⟨⟨_, d⟩, hmem, rfl⟩ := List.mem_map.mp hid
  obtain ⟨hd, hp⟩ := Table.mem_of_mem_selectFirst hmem
  simp only [Bool.and_eq_true, Option.isNone_iff_eq_none] at hp
  exact ⟨d, hd, hp.1.2⟩

/-- The job records an event for each grant it has ended. -/
lemma of_reportExpired {batch : List Delegation}
    (h : batch.foldlM DelegationService.reportExpired s = .ok t) :
    ∃ notices, t = { s with
      audit := s.audit ++ batch.map (DelegationService.withState .delegationExpired none)
      notices } := by
  induction batch generalizing s with
  | nil =>
    cases h
    exact ⟨t.notices, by simp⟩
  | cons g batch ih =>
    obtain ⟨s₁, hone, h⟩ := bind_eq_ok h
    obtain ⟨s₂, hrecord, hnotify⟩ := bind_eq_ok hone
    obtain rfl := of_record hrecord
    obtain ⟨_, rfl⟩ := of_notifyExpired hnotify
    obtain ⟨notices, rfl⟩ := ih h
    exact ⟨notices, by simp⟩

lemma Onward.expire {locked : DelegationId → Bool} {n : ℕ}
    (h : DelegationService.expireDelegations s now locked = .ok (t, n)) : Onward clock s t := by
  obtain ⟨ids, hids, hnodup, hfound, htaken⟩ :=
    takeExpired_spec s now DelegationService.expiryBatch locked
  obtain ⟨s₁, hloop, h⟩ := bind_eq_ok h
  cases h
  have hreport : (DelegationRepo.takeExpired s now DelegationService.expiryBatch locked).2.foldlM
      DelegationService.reportExpired
      (DelegationRepo.takeExpired s now DelegationService.expiryBatch locked).1 = .ok t := hloop
  rw [htaken] at hreport
  obtain ⟨notices, rfl⟩ := of_reportExpired hreport
  refine Onward.ending (s := s) (p := fun k d => d.ended.isNone && ids.contains k) ids
    ⟨now, .expired, none⟩ _ hnodup hfound (fun id d => ?_) ?_ notices
  · simp
  · rw [← hids, List.map_map, List.map_map]
    rfl

/-- Its owner stays the owner of a disconnected account. -/
lemma lookup_disconnect {a : Accounts.Account} {accounts accounts' : Accounts.Db κ}
    (h : Accounts.AccountRepo.disconnect accounts owner id = .ok accounts')
    (ha : accounts.accounts.lookup account = some a) :
    ∃ a', accounts'.accounts.lookup account = some a' ∧ a'.ownerId = a.ownerId := by
  unfold Accounts.AccountRepo.disconnect at h
  split at h
  next => cases h
  next =>
    split_ifs at h
    cases h
    refine ⟨_, (Table.lookup_updateWhere _ _ _ _).trans (by rw [ha]; rfl), ?_⟩
    by_cases hk : account = id <;> simp [hk]

lemma Onward.disconnect {emptied : List (DelegationId × UserId)}
    {disconnected : AccountId}
    (h : AccountRepo.disconnect s scope disconnected now = .ok (t, emptied)) :
    Onward clock s t := by
  obtain ⟨_, -, h⟩ := bind_eq_ok h
  obtain ⟨accounts, haccounts, h⟩ := bind_eq_ok h
  cases h
  refine .quiet [] rfl (List.append_nil _).symm (fun _ h => nomatch h) fun hc =>
    ⟨hc.notSelf, hc.livePair, hc.parties, fun id account owner hlink => ?_⟩
  rw [Table.lookup_deleteWhere] at hlink
  obtain ⟨hgrant, a, ha, howner⟩ :=
    hc.linked id account owner (Option.filter_eq_some_iff.mp hlink).1
  obtain ⟨a', ha', hsame⟩ := lookup_disconnect (mapError_eq_ok haccounts) ha
  exact ⟨hgrant, a', ha', hsame.trans howner⟩

/-! ## Runs -/

/-- No change of an expiry comes when its grant, live by the reading of the clock, has expired
meanwhile. -/
def World.Prompt (s : World κ) : Event κ → Prop
  | .act (.change _ _ id req) => req.expiresAt ≠ none → ∀ d, s.db.delegations.lookup id = some d →
      ∀ time, d.expiresAt = some time → s.clock < time
  | _ => True

/-- A step that meets the condition. -/
def World.PromptStep (s : World κ) (e : Event κ) (t : World κ) : Prop := s.Step e t ∧ s.Prompt e

/-- **One step.** -/
lemma World.PromptStep.onward {s t : World κ} {e : Event κ} (h : s.PromptStep e t) :
    s.clock ≤ t.clock ∧ Onward s.clock s.db t.db := by
  obtain ⟨hstep, hprompt⟩ := h
  cases hstep with
  | tick hle => exact ⟨hle, .refl _ _⟩
  | @act a db hnow hdb helsewhere =>
    refine ⟨le_rfl, ?_⟩
    cases a with
    | grant now createdAt scope id req =>
      obtain ⟨⟨t, result⟩, hok, rfl⟩ := map_eq_ok hdb
      exact .grant hok
    | change now scope id req =>
      obtain ⟨⟨t, result⟩, hok, rfl⟩ := map_eq_ok hdb
      exact .change hok hprompt
    | revoke now scope id => exact .revoke hdb
    | leave now delegate id => exact .leave hdb
    | disconnect now scope account =>
      obtain ⟨⟨t, emptied⟩, hok, rfl⟩ := map_eq_ok (of_repo hdb)
      exact .disconnect hok
    | expire now locked =>
      obtain ⟨⟨t, n⟩, hok, rfl⟩ := map_eq_ok hdb
      exact .expire hok
    | elsewhere now users accounts =>
      cases hdb
      exact .quiet [] rfl (List.append_nil _).symm (fun _ h => nomatch h) fun _ =>
        helsewhere now users accounts rfl

/-- **Every run.** -/
lemma World.onward_of_run {s t : World κ} {es : List (Event κ)}
    (h : Run World.PromptStep s es t) : s.clock ≤ t.clock ∧ Onward s.clock s.db t.db :=
  h.relates (R := fun s t => s.clock ≤ t.clock ∧ Onward s.clock s.db t.db)
    (fun _ => ⟨le_rfl, .refl _ _⟩)
    (fun {_ _ _} ⟨hc, ho⟩ ⟨hc', ho'⟩ => ⟨hc.trans hc', ho.trans ho' hc⟩)
    fun hstep => hstep.onward

/-- What happens to the grants from one state to a later one. -/
structure World.Keeps (s t : World κ) : Prop where
  /-- a grant that has ended stays ended, when it was and for the reason it was -/
  ended : ∀ id d e, s.db.delegations.lookup id = some d → d.ended = some e →
    ∃ d', t.db.delegations.lookup id = some d' ∧ d'.ended = some e
  /-- an event is recorded for each end, and for nothing else -/
  events : ∀ id reason, t.db.endEvents id reason + s.db.endings id reason =
    s.db.endEvents id reason + t.db.endings id reason
  /-- a grant that has ended or expired gives no scope again -/
  gone : ∀ id d, s.db.delegations.lookup id = some d →
    (s.db.delegation id d).isLive s.clock = false → ∀ actor owner now scope, s.clock ≤ now →
      DelegationRepo.resolve t.db actor owner now ≠ some (id, scope)

/-- From any state that the constraints allow, in every run in which each change of an expiry comes
before its grant expires: the readers agree in every state, a grant ends at most once and with one
event, and gives no scope once it has ended or expired. -/
theorem delegations_sound {s t : World κ} {es : List (Event κ)} (hs : s.db.Constraints)
    (h : Run World.PromptStep s es t) : t.db.Constraints ∧ t.db.Agree ∧ s.Keeps t := by
  obtain ⟨hclock, honward⟩ := World.onward_of_run h
  refine ⟨honward.constraints hs, (honward.constraints hs).agree, ?_, honward.events, ?_⟩
  · intro id d e hd he
    obtain ⟨d', hd', hf⟩ := honward.rows id d hd
    obtain rfl := hf.ended (by simp [he])
    exact ⟨d', hd', he⟩
  · intro id d hd hdead actor owner now scope hnow hresolve
    obtain ⟨d', hd', hf⟩ := honward.rows id d hd
    obtain ⟨-, d'', hd'', hserves, -⟩ := of_resolve_eq_some hresolve
    obtain rfl := Option.some.inj (hd'.symm.trans hd'')
    rw [← Bool.not_eq_true, isLive_iff, not_and] at hdead
    by_cases hended : d.ended = none
    · have := hdead hended
      push Not at this
      obtain ⟨time, htime, hle⟩ := this
      exact absurd (hserves.expiry time (hf.expired time htime hle))
        (not_lt.mpr (le_trans hle hnow))
    · obtain rfl := hf.ended hended
      exact hended hserves.ended

/-! ## A run with each of the two -/

/-- The tables after an operation that succeeds. -/
def World.after (s : World κ) (a : Action κ) : World κ :=
  { s with db := (s.db.perform a).toOption.getD s.db }

lemma World.Step.of_isOk {s : World κ} {a : Action κ} (hnow : a.now ≤ s.clock)
    (hok : (s.db.perform a).toOption.isSome = true)
    (hhere : ∀ now users accounts, a ≠ .elsewhere now users accounts) :
    s.Step (.act a) (s.after a) := by
  obtain ⟨db, hdb⟩ := Option.isSome_iff_exists.mp hok
  rw [World.after, hdb]
  exact .act hnow (ok_of_toOption hdb) fun now users accounts h => absurd h (hhere _ _ _)

/-- An active user. -/
def sampleUser (name : String) : UserRecord where
  oidcIssuer := "https://id.example.com"
  oidcSubject := name
  displayName := name
  role := .member
  status := .active

def sampleUsers : Table UserId UserRecord :=
  ((∅ : Table UserId UserRecord).insert 1 (sampleUser "Ann")).insert 2 (sampleUser "Ben")

/-- Two users, and no grant. -/
def sampleStart : World Unit where
  db := { users := sampleUsers }
  clock := 0

lemma sampleStart_constraints : sampleStart.db.Constraints where
  notSelf := fun _ _ h => nomatch h
  livePair := fun _ _ _ _ h => nomatch h
  parties := fun _ _ h => nomatch h
  linked := fun _ _ _ h => nomatch h

/-- User 1 grants user 2 access until 15. -/
def sampleGrant : Action Unit :=
  .grant 0 0 (.own 1) 7 { delegateId := 2, level := .edit, accounts := none, expiresAt := some 15 }

/-- The grant is to last until 30, by a reading of the clock at 10. -/
def sampleChange : Action Unit := .change 10 (.own 1) 7 { expiresAt := some (some 30) }

def sampleGranted : World Unit := { sampleStart.after sampleGrant with clock := 10 }

lemma sampleGranted_run :
    Run World.PromptStep sampleStart [.act sampleGrant, .tick 10] sampleGranted :=
  .snoc (.single ⟨.of_isOk (by decide) (by decide) (fun _ _ _ h => nomatch h), trivial⟩)
    ⟨.tick (by decide), trivial⟩

/-- The change is made at once, and the job ends the grant after 30. -/
def sampleEnded : World Unit :=
  World.after { sampleGranted.after sampleChange with clock := 40 } (.expire 40 fun _ => false)

lemma sampleEnded_run :
    Run World.PromptStep sampleGranted
      [.act sampleChange, .tick 40, .act (.expire 40 fun _ => false)] sampleEnded := by
  have hprompt : sampleGranted.Prompt (.act sampleChange) := by
    intro _ d hd time htime
    have hexpiry : (sampleGranted.db.delegations.lookup 7).bind (·.expiresAt) = some 15 := by
      decide
    rw [hd, Option.bind_some, htime] at hexpiry
    rw [Option.some.inj hexpiry]
    decide
  refine .snoc (.snoc (.single ⟨.of_isOk (by decide) (by decide) (fun _ _ _ h => nomatch h),
    hprompt⟩) ⟨.tick (by decide), trivial⟩) ⟨.of_isOk (by decide) (by decide)
      (fun _ _ _ h => nomatch h), trivial⟩

/-- The grant of the sample has ended once, with one event. -/
theorem delegations_sound_sample :
    sampleEnded.db.Agree ∧ sampleEnded.db.endEvents 7 .expired = 1 ∧
      sampleEnded.db.endEvents 7 .revoked = 0 := by
  obtain ⟨-, hagree, -⟩ :=
    delegations_sound sampleStart_constraints (sampleGranted_run.append sampleEnded_run)
  exact ⟨hagree, by decide, by decide⟩

/-- The clock passes the expiry before the change is made. -/
def sampleLate : World Unit := { sampleGranted with clock := 20 }

def sampleRevived : World Unit := sampleLate.after sampleChange

/-- A grant that has expired gives a scope again, when a change that has read the clock before
comes after. -/
theorem not_delegations_sound :
    ∃ s t : World Unit, ∃ es fs, Run World.Step sampleStart es s ∧ Run World.Step s fs t ∧
      sampleStart.db.Constraints ∧ s.clock = t.clock ∧
      DelegationRepo.resolve s.db 2 1 s.clock = none ∧
      DelegationRepo.resolve t.db 2 1 t.clock = some (7, ⟨2, 1, .delegated .edit none⟩) ∧
      ¬ s.Keeps t := by
  have hlate : Run World.Step sampleStart [.act sampleGrant, .tick 10, .tick 20] sampleLate :=
    (sampleGranted_run.mono And.left).snoc (.tick (by decide))
  have hrevived : Run World.Step sampleLate [.act sampleChange] sampleRevived :=
    .single (.of_isOk (by decide) (by decide) fun _ _ _ h => nomatch h)
  have hscope : DelegationRepo.resolve sampleRevived.db 2 1 20 =
      some (7, ⟨2, 1, .delegated .edit none⟩) := by decide
  refine ⟨sampleLate, sampleRevived, _, _, hlate, hrevived, sampleStart_constraints, rfl,
    by decide, hscope, fun hkeeps => ?_⟩
  exact hkeeps.gone 7 _ (by rfl) (by decide) 2 1 20 _ (by decide) hscope

end Postit.Delegations
