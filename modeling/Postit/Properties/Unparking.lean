import Postit.Publishing.Alone

/-!
# A parked delivery resumes when its blocker is gone

The blocker of a parked delivery is decided twice: by the checks before a send, over records they
load, and by the sweep, over joined tables.  `Stands` says what each reason's blocker is; both
decisions are compared with it.
-/

namespace Postit.Publishing

open Postit.Framework Postit.Data

/-! ## Handlers run alone -/

section Alone

variable {s : Surroundings} {db db' : Db} {α β : Type}

/-- A row that a statement reads and the handler cannot go on without. -/
lemma Handler.alone_required {o : Op (Option α)} {query : Sql (Option α)} {answer : Option α}
    {a : α} (htx : o.tx = sql query)
    (hread : query.exec (fun _ => true) db = .ok (Sql.read answer))
    (h : Handler.alone s (call o >>= orNotFound) db = .ok (a, db')) :
    answer = some a ∧ db' = db := by
  obtain ⟨found, db₁, hfound, hrow⟩ := alone_bind_ok.mp h
  obtain ⟨rfl, rfl⟩ := Prod.ext_iff.mp (Except.ok.inj ((alone_call htx hread).symm.trans hfound))
  cases answer with
  | none => cases hrow
  | some a' =>
    obtain ⟨rfl, rfl⟩ := alone_done_ok.mp hrow
    exact ⟨rfl, rfl⟩

/-- The availability a handler sees of a platform. -/
def seen (s : Surroundings) (cfg : Settings) (db : Db) (platform : PlatformId) : Availability :=
  if platform ∈ cfg.compiledPlatforms then s.catalog.platformAvailability db platform
  else .notCompiledIn

lemma Handler.alone_availability (cfg : Settings) (platform : PlatformId) :
    Handler.alone s (availability cfg platform) db = .ok (seen s cfg db platform, db) := by
  unfold availability seen
  split <;> rfl

/-- **What the checks before a send find.** -/
lemma preSendChecks_alone {cfg : Settings} {claimed : ClaimedDelivery}
    {outcome : Option ParkReason} {availability : Availability}
    (h : Handler.alone s (preSendChecks cfg claimed) db = .ok ((outcome, availability), db')) :
    ∃ account active, db.accounts.lookup claimed.accountId = some account ∧
      db.users.lookup claimed.ownerId = some active ∧
      outcome = parkReason claimed active account.status (seen s cfg db account.platformId)
        (db.livePublishing.getD false) := by
  obtain ⟨account, db₁, haccount, h₁⟩ := Handler.alone_bind_ok.1 h
  obtain ⟨hrow, rfl⟩ := Handler.alone_required rfl rfl haccount
  obtain ⟨found, db₂, hfound, h₂⟩ := Handler.alone_bind_ok.1 h₁
  obtain ⟨rfl, rfl⟩ :=
    Prod.ext_iff.mp (Except.ok.inj ((Handler.alone_availability cfg _).symm.trans hfound))
  obtain ⟨live, db₃, hlive, h₃⟩ := Handler.alone_bind_ok.1 h₂
  obtain ⟨rfl, rfl⟩ :=
    Prod.ext_iff.mp (Except.ok.inj ((Handler.alone_call rfl rfl).symm.trans hlive))
  obtain ⟨active, db₄, hactive, h₄⟩ := Handler.alone_bind_ok.1 h₃
  obtain ⟨howner, rfl⟩ := Handler.alone_required rfl rfl hactive
  obtain ⟨again, db₅, hagain, h₅⟩ := Handler.alone_bind_ok.1 h₄
  obtain ⟨hsame, rfl⟩ := Handler.alone_required rfl rfl hagain
  obtain rfl := Option.some.inj (hrow.symm.trans hsame)
  obtain ⟨hout, -⟩ := Handler.alone_done_ok.1 h₅
  obtain ⟨rfl, rfl⟩ := Prod.ext_iff.mp hout
  exact ⟨account, active, (Option.filter_eq_some_iff.mp hrow).1, howner, rfl⟩

end Alone

/-! ## Blockers -/

/-- The reasons the checks before a send park for, in the order of the checks. -/
def preSendReasons : List ParkReason :=
  [.ownerDisabled, .accountNeedsReconnect, .platformUnavailable, .platformDisabled,
    .livePublishDisabled]

/-- The blocker of each reason, of a delivery with this account and job. -/
def Stands (catalog : PlatformCatalog) (db : Db) (d : Delivery) (account : Account)
    (job : PublishJob) : ParkReason → Prop
  | .ownerDisabled => db.users.lookup d.ownerId ≠ some true
  | .accountNeedsReconnect => account.status ≠ .active
  | .platformUnavailable => catalog.registry.lookup account.platformId = none
  | .platformDisabled => db.platforms.lookup account.platformId ≠ some true
  | .livePublishDisabled => job.dryRun = false ∧ db.livePublishing ≠ some true
  | .quotaExceeded | .outcomeUnresolvable => False

instance (catalog : PlatformCatalog) (db : Db) (d : Delivery) (account : Account)
    (job : PublishJob) : (reason : ParkReason) →
      Decidable (Stands catalog db d account job reason)
  | .ownerDisabled => inferInstanceAs (Decidable (_ ≠ _))
  | .accountNeedsReconnect => inferInstanceAs (Decidable (_ ≠ _))
  | .platformUnavailable => decidable_of_iff _ Option.isNone_iff_eq_none
  | .platformDisabled => inferInstanceAs (Decidable (_ ≠ _))
  | .livePublishDisabled => inferInstanceAs (Decidable (_ ∧ _))
  | .quotaExceeded => inferInstanceAs (Decidable False)
  | .outcomeUnresolvable => inferInstanceAs (Decidable False)

/-- The delivery `id` is parked for a reason of the checks before a send, with its account and
job. -/
structure ParkedBefore (db : Db) (id : DeliveryId) (d : Delivery) (account : Account)
    (job : PublishJob) (reason : ParkReason) : Prop where
  row : db.deliveries.lookup id = some d
  account : db.accounts.lookup d.accountId = some account
  job : db.jobs.lookup d.jobId = some job
  parked : d.readState = .ok (.parked reason)
  checked : reason ∈ preSendReasons

section Blockers

variable {s : Surroundings} {cfg : Settings} {db : Db} {id : DeliveryId} {d : Delivery}
  {account : Account} {job : PublishJob} {reason : ParkReason} {active : Bool}

lemma getD_false_eq_true {o : Option Bool} : o.getD false = true ↔ o = some true := by
  cases o <;> simp

lemma ParkedBefore.columns (h : ParkedBefore db id d account job reason) :
    d.state = .parked ∧ d.parkedReason = some reason :=
  DeliveryUpdate.inState_iff.mpr h.parked

/-- The sweep finds the blocker gone exactly when it does not stand. -/
lemma ParkedBefore.unblocked_iff (h : ParkedBefore db id d account job reason) (now : Time)
    (howner : db.users.lookup d.ownerId = some active) :
    Sql.unblocked db now s.catalog.compiledPlatforms d = true ↔
      ¬ Stands s.catalog db d account job reason := by
  have hreason := h.checked
  simp only [preSendReasons, List.mem_cons, List.not_mem_nil, or_false] at hreason
  simp only [Sql.unblocked, h.columns.2, h.account, h.job, howner]
  rcases hreason with rfl | rfl | rfl | rfl | rfl
  · simp [Stands, howner]
  · simp [Stands]
  · simp [Stands, PlatformCatalog.mem_compiledPlatforms, Option.isSome_iff_ne_none]
  · simp only [Stands, getD_false_eq_true, not_not]
  · simp only [Stands, Bool.or_eq_true, getD_false_eq_true, not_and_or, Bool.not_eq_false, not_not]

/-- The worker and the catalog agree on which platforms have an agent. -/
lemma seen_eq (hwired : cfg.compiledPlatforms = s.catalog.compiledPlatforms) (p : PlatformId) :
    seen s cfg db p = s.catalog.platformAvailability db p := by
  unfold seen
  split_ifs with hp
  · rfl
  · rw [hwired, s.catalog.mem_compiledPlatforms, Option.not_isSome_iff_eq_none] at hp
    exact ((s.catalog.platformAvailability_eq_notCompiledIn db p).mpr hp).symm

lemma find?_cons_eq_ite {α : Type} {p : α → Bool} {a : α} {l : List α} :
    (a :: l).find? p = if p a = true then some a else l.find? p := by
  rw [List.find?_cons]
  cases p a <;> rfl

/-- The checks park for the first reason whose blocker stands. -/
lemma parkReason_eq (howner : db.users.lookup d.ownerId = some active) :
    parkReason (.of id d job) active account.status
        (s.catalog.platformAvailability db account.platformId) (db.livePublishing.getD false) =
      preSendReasons.find? fun reason => Stands s.catalog db d account job reason := by
  have hunavailable := s.catalog.platformAvailability_eq_notCompiledIn db account.platformId
  have hdisabled := s.catalog.platformAvailability_eq_disabled db account.platformId
  have hlive : (!job.dryRun && !db.livePublishing.getD false) = true ↔
      job.dryRun = false ∧ db.livePublishing ≠ some true := by
    rw [Bool.and_eq_true, Bool.not_eq_true', Bool.not_eq_true', ne_eq, ← getD_false_eq_true,
      Bool.not_eq_true]
  simp only [preSendReasons, find?_cons_eq_ite, List.find?_nil, decide_eq_true_eq]
  simp only [parkReason, ClaimedDelivery.of, Stands, howner, hunavailable, hdisabled, hlive]
  cases active with
  | false => simp
  | true =>
    by_cases hstatus : account.status = .active <;>
      by_cases hagent : s.catalog.registry.lookup account.platformId = none <;>
      by_cases hplatform : db.platforms.lookup account.platformId = some true <;>
      by_cases hswitch : job.dryRun = false ∧ db.livePublishing ≠ some true <;>
      simp [hstatus, hagent, hplatform, hswitch]

end Blockers

/-! ## The sweep's candidates -/

section Candidates

variable {free : RowRef → Bool} {db : Db} {now staleBefore : Time} {compiled : List PlatformId}
  {limit : ℕ} {e : Data.Effect (List ParkedRow)}

lemma unblocked_outcomeUnresolvable {d : Delivery}
    (h : d.parkedReason = some .outcomeUnresolvable) :
    Sql.unblocked db now compiled d = false := by
  unfold Sql.unblocked
  rw [h]
  cases db.accounts.lookup d.accountId with
  | none => rfl
  | some account =>
    cases db.users.lookup d.ownerId with
    | none => rfl
    | some active => cases db.jobs.lookup d.jobId <;> rfl

/-- What the sweep asks of a row besides that its blocker is gone: that its owner was not already
told the delivery is too old, and that nobody holds the row. -/
def OpenToUnpark (free : RowRef → Bool) (staleBefore : Time) (id : DeliveryId) (d : Delivery) :
    Prop :=
  (d.parkedNotifiedAt = none ∨ ∃ due ∈ d.nextAttemptAt, staleBefore ≤ due) ∧
    free (.delivery id) = true

/-- **What the sweep selects.** -/
lemma selectUnparkable_ok
    (h : (Sql.selectUnparkable now compiled limit staleBefore).exec free db = .ok e) :
    (∀ row ∈ e.result, ∃ d, db.deliveries.lookup row.id = some d ∧ d.state = .parked ∧
      row.parkedReason = d.parkedReason ∧ OpenToUnpark free staleBefore row.id d ∧
      Sql.unblocked db now compiled d = true) ∧
    ∀ id d, db.deliveries.lookup id = some d → d.state = .parked →
      OpenToUnpark free staleBefore id d → Sql.unblocked db now compiled d = true →
      e.result.length < limit → id ∈ e.result.map (·.id) := by
  have hopen : ∀ id d, (d.state = .parked && (d.parkedNotifiedAt.isNone ||
      d.nextAttemptAt.any (staleBefore ≤ ·)) && Sql.unblocked db now compiled d &&
      free (.delivery id)) = true ↔
      d.state = .parked ∧ OpenToUnpark free staleBefore id d ∧
        Sql.unblocked db now compiled d = true := by
    intro id d
    simp only [OpenToUnpark, Bool.and_eq_true, decide_eq_true_eq, Bool.or_eq_true,
      Option.isNone_iff_eq_none, Option.any_eq_true, Option.mem_def]
    tauto
  simp only [Sql.exec, Except.ok.injEq] at h
  subst h
  constructor
  · rintro row hrow
    obtain ⟨⟨id, d⟩, hmem, rfl⟩ := List.mem_map.mp hrow
    obtain ⟨hd, hp⟩ := Table.mem_of_mem_selectFirst hmem
    obtain ⟨hstate, hopen, hgone⟩ := (hopen id d).mp hp
    exact ⟨d, hd, hstate, rfl, hopen, hgone⟩
  · intro id d hd hstate hopened hgone hroom
    simp only [Sql.readLocking, List.length_map] at hroom
    have hmem := Table.mem_selectFirst_of_room hroom hd
      ((hopen id d).mpr ⟨hstate, hopened, hgone⟩)
    exact List.mem_map.mpr ⟨_, List.mem_map_of_mem hmem, rfl⟩

end Candidates

/-! ## Unparking agrees with parking -/

/-- The sweep never selects a delivery parked as `outcome_unresolvable`.  A delivery parked by the
checks before a send, that the sweep may still resume, is selected exactly when its own blocker is
gone; and the checks, made again, park a delivery for the first of their reasons whose blocker
stands.  So what is selected is not parked for the same reason again; and where no earlier check
parks it for another, whatever would not be is selected. -/
theorem unparks_iff (s : Surroundings) (cfg : Settings)
    (hwired : cfg.compiledPlatforms = s.catalog.compiledPlatforms) (free : RowRef → Bool)
    (db db' : Db) (now staleBefore : Time) (limit : ℕ) (e : Data.Effect (List ParkedRow))
    (hselect : (Sql.selectUnparkable now cfg.compiledPlatforms limit staleBefore).exec free db =
      .ok e) :
    (∀ row ∈ e.result, row.parkedReason ≠ some .outcomeUnresolvable) ∧
      ∀ (id : DeliveryId) (d : Delivery) (account : Account) (job : PublishJob)
        (reason : ParkReason) (outcome : Option ParkReason) (seenAs : Availability),
        ParkedBefore db id d account job reason →
        Handler.alone s (preSendChecks cfg (.of id d job)) db = .ok ((outcome, seenAs), db') →
        (id ∈ e.result.map (·.id) → outcome ≠ some reason) ∧
        (OpenToUnpark free staleBefore id d → e.result.length < limit →
          (id ∈ e.result.map (·.id) ↔ ¬ Stands s.catalog db d account job reason)) ∧
        outcome = preSendReasons.find? fun r => Stands s.catalog db d account job r := by
  obtain ⟨hselected, hroom⟩ := selectUnparkable_ok hselect
  constructor
  · intro row hrow hreason
    obtain ⟨d, -, -, hcolumn, -, hgone⟩ := hselected row hrow
    rw [unblocked_outcomeUnresolvable (hcolumn.symm.trans hreason)] at hgone
    cases hgone
  · intro id d account job reason outcome seenAs hparked hchecks
    obtain ⟨account', active, haccount, howner, hout⟩ := preSendChecks_alone hchecks
    obtain rfl := Option.some.inj (haccount.symm.trans hparked.account)
    rw [seen_eq hwired, parkReason_eq howner] at hout
    have hgone := hparked.unblocked_iff (s := s) now howner
    rw [← hwired] at hgone
    have hmem : id ∈ e.result.map (·.id) → ¬ Stands s.catalog db d account' job reason := by
      intro hid
      obtain ⟨row, hrow, rfl⟩ := List.mem_map.mp hid
      obtain ⟨d', hd', -, -, -, hunblocked⟩ := hselected row hrow
      obtain rfl := Option.some.inj (hd'.symm.trans hparked.row)
      exact hgone.mp hunblocked
    refine ⟨?_, ?_, hout⟩
    · intro hid houtcome
      have hstands := List.find?_some (hout.symm.trans houtcome)
      exact hmem hid (of_decide_eq_true hstands)
    · intro hopen hlimit
      exact ⟨hmem, fun h => hroom id d hparked.row hparked.columns.1 hopen (hgone.mpr h) hlimit⟩

/-! ## A disabled owner of an account that needs a reconnect -/

/-- One platform, which needs no deployment table. -/
def oneAgent : Surroundings where
  catalog := ⟨AList.singleton "demo" ⟨false, none⟩, []⟩
  look := silentLook
  inquire := silentInquiry

/-- The settings of its deployment. -/
def oneAgentSettings : Settings where
  lease := 60
  maxAttempts := 5
  processingTimeout := 600
  sweepGrace := 60
  parkGrace := 600
  emailBatchSize := 10
  compiledPlatforms := ["demo"]
  localDay _ now := (now, now + 1)

/-- A delivery that waits for its account. -/
def waiting : Delivery where
  ownerId := 1
  jobId := 1
  postId := 1
  accountId := 1
  operation := .publish
  state := .parked
  parkedReason := some .accountNeedsReconnect
  nextAttemptAt := some 100
  stateChangedAt := 100
  updatedAt := 100

/-- The job it belongs to. -/
def waitingJob : PublishJob where
  ownerId := 1
  postId := 1
  postVersion := 1
  scheduledAt := 100
  nativeSchedule := false
  dryRun := false
  status := .publishing

/-- Its database, with an owner and an account of some status. -/
def waitingDb (active : Bool) (status : AccountStatus) : Db where
  deliveries := AList.singleton 1 waiting
  jobs := AList.singleton 1 waitingJob
  accounts := AList.singleton 1 ⟨1, "demo", status⟩
  users := AList.singleton 1 active
  platforms := AList.singleton "demo" true
  livePublishing := some true

lemma parkedBefore_waiting (active : Bool) (status : AccountStatus) :
    ParkedBefore (waitingDb active status) 1 waiting ⟨1, "demo", status⟩ waitingJob
      .accountNeedsReconnect :=
  ⟨rfl, rfl, rfl, rfl, by decide⟩

lemma openToUnpark_waiting : OpenToUnpark (fun _ => true) 0 1 waiting := ⟨.inl rfl, rfl⟩

/-- With the account reconnected it goes on. -/
theorem unparks_iff_sample :
    ∃ e : Data.Effect (List ParkedRow),
      (Sql.selectUnparkable 600 ["demo"] 10 0).exec (fun _ => true) (waitingDb true .active) =
        .ok e ∧
      Handler.alone oneAgent (preSendChecks oneAgentSettings (.of 1 waiting waitingJob))
        (waitingDb true .active) = .ok ((none, .available), waitingDb true .active) ∧
      e.result.length < 10 ∧
      (1 ∈ e.result.map (·.id) ↔
        ¬ Stands oneAgent.catalog (waitingDb true .active) waiting ⟨1, "demo", .active⟩ waitingJob
          .accountNeedsReconnect) := by
  refine ⟨_, rfl, rfl, by decide, ?_⟩
  have hagree := unparks_iff oneAgent oneAgentSettings rfl (fun _ => true) (waitingDb true .active)
    (waitingDb true .active) 600 0 10 _ rfl
  exact (hagree.2 1 waiting ⟨1, "demo", .active⟩ waitingJob .accountNeedsReconnect none .available
    (parkedBefore_waiting true .active) rfl).2.1 openToUnpark_waiting (by decide)

/-- The checks, made again, park it for its owner; the sweep waits for the account. -/
theorem not_unparks_iff :
    ¬ ∀ (s : Surroundings) (cfg : Settings), cfg.compiledPlatforms = s.catalog.compiledPlatforms →
      ∀ (free : RowRef → Bool) (db db' : Db) (now staleBefore : Time) (limit : ℕ)
        (e : Data.Effect (List ParkedRow)) (id : DeliveryId) (d : Delivery) (account : Account)
        (job : PublishJob) (reason : ParkReason) (outcome : Option ParkReason)
        (seenAs : Availability),
        (Sql.selectUnparkable now cfg.compiledPlatforms limit staleBefore).exec free db = .ok e →
        ParkedBefore db id d account job reason → OpenToUnpark free staleBefore id d →
        e.result.length < limit →
        Handler.alone s (preSendChecks cfg (.of id d job)) db = .ok ((outcome, seenAs), db') →
        (id ∈ e.result.map (·.id) ↔ outcome ≠ some reason) := by
  intro h
  have hsame := h oneAgent oneAgentSettings rfl (fun _ => true) (waitingDb false .needsReconnect)
    (waitingDb false .needsReconnect) 600 0 10 _ 1 waiting ⟨1, "demo", .needsReconnect⟩ waitingJob
    .accountNeedsReconnect (some .ownerDisabled) .available rfl
    (parkedBefore_waiting false .needsReconnect) openToUnpark_waiting (by decide) rfl
  exact absurd (hsame.mpr (by decide)) (by decide)

end Postit.Publishing
