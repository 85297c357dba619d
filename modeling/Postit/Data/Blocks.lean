import Postit.Data.Operations
import Postit.Data.Effects

/-!
# What transactions are made of

Every operation is put together from a few blocks: the claim of a delivery, the fenced write, the
late receipt, the creation of a job, the touch of a job, an edit of a post, and statements that
change nothing any job's status depends on (`Sql.isQuiet`).  `Op.built` takes each operation
apart once; an invariant of the database is then proved block by block (`Built.keeps`).
-/

namespace Postit.Data

open Postit.Framework

/-- Whether the statement leaves every delivery's state, every job's status and every post
alone. -/
def Sql.isQuiet {β : Type} : Sql β → Bool
  | claimDelivery .. | applyTransition .. | recordLateReceipt .. | insertJob ..
  | insertDelivery .. | updateJobStatus .. | updatePostStatus .. | bumpPostVersion .. => false
  | _ => true

/-- Whether the statement sets a job's `cancelled_at`. -/
def Sql.cancelsJob {β : Type} : Sql β → Bool
  | setJobCancelled .. => true
  | _ => false

/-- The state whose check chain the statement moves. -/
def Sql.checks? {β : Type} : Sql β → Option DeliveryState
  | takeCheck fence .. | setCheckDue fence .. => some fence.expected
  | _ => none

/-- The state whose check chain the update moves. -/
def DeliveryUpdate.checks? : DeliveryUpdate → Option DeliveryState
  | takeCheck expected .. | setCheckDue expected _ => some expected
  | _ => none

/-- Whether the update leaves a delivery's state alone. -/
def DeliveryUpdate.isQuiet : DeliveryUpdate → Bool
  | claim .. | apply .. | recordLateReceipt .. => false
  | _ => true

lemma DeliveryUpdate.state_set {u : DeliveryUpdate} (hu : u.isQuiet = true) (d : Delivery) :
    (u.set d).state = d.state := by
  cases u <;> first | rfl | cases hu

section Quiet

variable {β : Type} {s : Sql β} (hs : s.isQuiet = true)
include hs

/-- What a quiet statement does, all at once. -/
lemma Sql.of_isQuiet :
    (s.deliveryUpdate?.all fun u => u.isQuiet && (u.checks? = s.checks?)) = true ∧
      (∀ j, s.jobUpdate?.elim True fun u => (u.set j).status = j.status) ∧
      s.writesPosts = false ∧ s.insertsDelivery = false ∧ s.insertsJob = false := by
  cases s with
  | claimDelivery | applyTransition | recordLateReceipt | insertJob | insertDelivery
  | updateJobStatus | updatePostStatus | bumpPostVersion => cases hs
  | takeCheck | setCheckDue => exact ⟨decide_eq_true rfl, fun _ => trivial, rfl, rfl, rfl⟩
  | bumpJobVersion | setJobCancelled | setScheduledAt =>
    exact ⟨rfl, fun _ => rfl, rfl, rfl, rfl⟩
  | _ => exact ⟨rfl, fun _ => trivial, rfl, rfl, rfl⟩

lemma Sql.update_of_isQuiet {u : DeliveryUpdate} (hu : s.deliveryUpdate? = some u) :
    u.isQuiet = true ∧ u.checks? = s.checks? := by
  have hquiet := (of_isQuiet hs).1
  rw [hu, Option.all_some, Bool.and_eq_true, decide_eq_true_eq] at hquiet
  exact hquiet

lemma Sql.state_set_of_isQuiet {u : DeliveryUpdate} (hu : s.deliveryUpdate? = some u)
    (d : Delivery) : (u.set d).state = d.state :=
  u.state_set (update_of_isQuiet hs hu).1 d

lemma Sql.status_set_of_isQuiet {u : JobUpdate} (hu : s.jobUpdate? = some u) (j : PublishJob) :
    (u.set j).status = j.status := by
  have hstatus := (of_isQuiet hs).2.1 j
  rwa [hu] at hstatus

lemma Sql.writesPosts_of_isQuiet : s.writesPosts = false := (of_isQuiet hs).2.2.1

lemma Sql.insertsDelivery_of_isQuiet : s.insertsDelivery = false := (of_isQuiet hs).2.2.2.1

lemma Sql.insertsJob_of_isQuiet : s.insertsJob = false := (of_isQuiet hs).2.2.2.2

end Quiet

/-- Which fenced writes a program makes, with which fence, event and payload, and the check chains
of which states it moves. -/
structure Calls where
  writes : Fence → DeliveryEvent → TransitionData → Prop
  checks : DeliveryState → Prop := fun _ => False

instance : CoeFun Calls fun _ => Fence → DeliveryEvent → TransitionData → Prop := ⟨Calls.writes⟩

/-- How far a program goes beyond claims, fenced writes and late receipts. -/
inductive Reach
  | rows
  -- it touches jobs by itself
  | jobs
  -- it cancels a job as a whole
  | cancels
  -- it creates jobs or edits posts
  | posts
  deriving DecidableEq

/-- Whether the program touches jobs by itself. -/
def Reach.touches : Reach → Bool
  | rows => false
  | jobs | cancels | posts => true

/-- A program put together from the blocks, whose fenced writes are among `A`. -/
inductive Built (A : Calls) (reach : Reach) : ∀ {α : Type}, Tx α → Prop
  | done {α : Type} (a : α) : Built A reach (Prog.done a)
  | fail {α : Type} (e : DataError) : Built A reach (Prog.fail e : Tx α)
  | bind {α β : Type} {p : Tx α} {f : α → Tx β} (hp : Built A reach p) (hf : ∀ a, Built A reach (f a)) :
      Built A reach (p >>= f)
  | quiet {β : Type} (s : Sql β) (h : s.isQuiet = true)
      (hc : s.cancelsJob = true → reach = .cancels := by intro h; cases h)
      (hk : ∀ state, s.checks? = some state → A.checks state := by intro _ h; cases h) :
      Built A reach (sql s)
  | touch (h : reach.touches = true) (job : PublishJobId) (now : Time) : Built A reach (touchJob job now)
  | claim (id : DeliveryId) (gen : ℕ) (now lease : Time) :
      Built A reach (DeliveryRepo.claim id gen now lease)
  | apply (fence : Fence) (event : DeliveryEvent) (data : TransitionData) (now : Time)
      (call : A fence event data) : Built A reach (DeliveryRepo.apply fence event data now)
  | lateReceipt (id : DeliveryId) (receipt : Receipt) (now : Time) :
      Built A reach (DeliveryRepo.recordLateReceipt id receipt now)
  | insert (h : reach = .posts) (owner : UserId) (actor : Option UserId) (post : PostId) (row : Post)
      (new : NewJob) (dbNow now : Time) :
      Built A reach (JobRepo.insert owner actor post row new dbNow now)
  | edit (h : reach = .posts) (post : PostId) : Built A reach (sql (.bumpPostVersion post))

namespace Built

variable {A : Calls} {reach : Reach} {α β : Type}

lemma orFail (e : DataError) (o : Option α) : Built A reach (Prog.orFail e o) := by
  cases o with
  | none => exact .fail e
  | some a => exact .done a

lemma ofExcept {ε : Type} (g : ε → DataError) (x : Except ε α) : Built A reach (Prog.ofExcept g x) := by
  cases x with
  | error e => exact .fail _
  | ok a => exact .done a

lemma guard (c : Bool) (e : DataError) : Built A reach (Prog.guard c e) := by
  cases c with
  | false => exact .fail e
  | true => exact .done ()

lemma ite {c : Prop} [Decidable c] {p q : Tx α} (hp : Built A reach p) (hq : Built A reach q) :
    Built A reach (if c then p else q) := by
  split
  · exact hp
  · exact hq

lemma each {body : α → Tx β} (h : ∀ a, Built A reach (body a)) :
    ∀ as : List α, Built A reach (Prog.each as body)
  | [] => .done []
  | a :: as => .bind (h a) fun _ => .bind (each h as) fun _ => .done _

/-- A statement that is quiet, cancels no job and moves no check chain. -/
lemma plain (s : Sql β) (h : (s.isQuiet && !s.cancelsJob && s.checks?.isNone) = true) :
    Built A reach (sql s) := by
  simp only [Bool.and_eq_true, Bool.not_eq_true', Option.isNone_iff_eq_none] at h
  obtain ⟨⟨hquiet, hcancels⟩, hchecks⟩ := h
  exact .quiet s hquiet (fun hc => by simp [hcancels] at hc) fun state hk => by
    simp [hchecks] at hk

/-- A loop over a statement's answer. -/
lemma sqlEach {s : Sql (List α)}
    (hs : (s.isQuiet && !s.cancelsJob && s.checks?.isNone) = true) {body : α → Tx β}
    (h : ∀ a, Built A reach (body a)) :
    Built A reach (sql s >>= fun as => Prog.each as body) :=
  .bind (.plain s hs) (each h)

/-- **The invariant rule.**  What every block keeps, every program keeps. -/
lemma keeps {I : Db → Prop} (quiet : ∀ {β : Type} (s : Sql β), s.isQuiet = true → Tx.Keeps I (sql s))
    (touch : reach.touches = true → ∀ job now, Tx.Keeps I (touchJob job now))
    (claim : ∀ id gen now lease, Tx.Keeps I (DeliveryRepo.claim id gen now lease))
    (apply : ∀ fence event data now, A fence event data →
      Tx.Keeps I (DeliveryRepo.apply fence event data now))
    (lateReceipt : ∀ id receipt now, Tx.Keeps I (DeliveryRepo.recordLateReceipt id receipt now))
    (insert : reach = .posts → ∀ owner actor post row new dbNow now,
      Tx.Keeps I (JobRepo.insert owner actor post row new dbNow now))
    (edit : reach = .posts → ∀ post, Tx.Keeps I (sql (.bumpPostVersion post)))
    {p : Tx α} (hp : Built A reach p) : Tx.Keeps I p := by
  induction hp with
  | done a => exact .done a
  | fail e => exact .fail e
  | bind _ _ ihp ihf => exact .bind ihp ihf
  | quiet s h _ _ => exact quiet s h
  | touch h job now => exact touch h job now
  | claim id gen now lease => exact claim id gen now lease
  | apply fence event data now call => exact apply fence event data now call
  | lateReceipt id receipt now => exact lateReceipt id receipt now
  | insert h owner actor post row new dbNow now => exact insert h owner actor post row new dbNow now
  | edit h post => exact edit h post

end Built

/-! ## The operations -/

/-- The fenced writes an operation makes. -/
def Op.writes {β : Type} : Op β → Fence → DeliveryEvent → TransitionData → Prop
  | .apply fence event data _, f, e, t => f = fence ∧ e = event ∧ t = data
  | .cancelDelivery .., _, e, t | .cancelForAccount .., _, e, t | .cancelForOwner .., _, e, t
  | .cancelJob .., _, e, t => e = .cancel ∧ ∃ actor, t = { actor }
  | .retry scope _ acknowledged _, _, e, t =>
      e = .userRetry acknowledged ∧ t = { resetAttempts := true, actor := some scope.actor }
  | .resolve scope _ outcome _, _, e, t =>
      e = .userResolve outcome ∧ t = { actor := some scope.actor }
  | .expiredClaims .., f, e, t => f.expected = .claimed ∧ e = .leaseExpired ∧ t = {}
  | .expiredInFlight .., f, e, t =>
      f.expected = .inFlight ∧ e = .leaseExpired ∧ t = { countAttempt := true }
  | .unpark .., f, e, t => (∃ r, f.expected = .parked r) ∧ e = .unpark ∧ t = {}
  | .startCampaign c .., f, e, t => f = ⟨c.id, c.dispatchGen, .inFlight⟩ ∧ e = .accepted ∧ t = {}
  | .finishIfDone fence _, f, e, t =>
      f = fence ∧ e = .published ∧ ∃ counts, t = { directCounts := some counts }
  | _, _, _, _ => False

/-- The states whose check chains an operation moves. -/
def Op.checks {β : Type} : Op β → DeliveryState → Prop
  | .takeCheck fence .., s | .setCheckDue fence .., s => s = fence.expected
  | _, _ => False

/-- What an operation does to the state and the check chain of a delivery. -/
def Op.Calls {β : Type} (op : Op β) : Calls := ⟨op.writes, op.checks⟩

/-- How far an operation goes. -/
def Op.reach {β : Type} : Op β → Reach
  | .createJob .. | .createForOccurrence .. | .editPost .. => .posts
  | .cancelJob .. => .cancels
  | .cancelDelivery .. | .cancelForAccount .. | .cancelForOwner .. | .setRemotePublishAt ..
  | .reschedule .. | .overduePending .. | .orphanedDirect .. | .materialize ..
  | .startCampaign .. | .waitForCap .. | .record .. => .jobs
  | _ => .rows

section Operations

variable {A : Data.Calls} {reach : Reach}

lemma built_require (scope : OwnerScope) (needed : Capability) : Built A reach (scope.require needed) := by
  unfold OwnerScope.require
  split
  · exact .done ()
  · exact .ite (.fail _) (.guard _ _)

lemma built_load (id : DeliveryId) (row : Delivery) : Built A reach (load id row) :=
  .bind (.ofExcept _ _) fun _ => .done _

lemma built_lockOne (scope : OwnerScope) (id : DeliveryId) : Built A reach (lockOne scope id) :=
  .bind (.plain _ rfl) fun _ => .bind (.orFail _ _) fun _ => built_load _ _

lemma built_lockVisibleJob (scope : OwnerScope) (job : PublishJobId) :
    Built A reach (JobRepo.lockVisibleJob scope job) := by
  refine .bind (.plain _ rfl) fun _ => .bind (.guard _ _) fun _ => .bind ?_ fun _ =>
    .bind (.plain _ rfl) fun _ => .bind (.guard _ _) fun _ => .bind (.guard _ _) fun _ =>
    .bind (.guard _ _) fun _ => .done _
  exact .sqlEach rfl fun _ => built_load _ _

lemma built_lockRow (owner : UserId) (post : PostId) (expectedVersion : Option ℕ) :
    Built A reach (PostRepo.lockRow owner post expectedVersion) :=
  .bind (.plain _ rfl) fun _ => .bind (.orFail _ _) fun _ => .bind (.guard _ _) fun _ =>
    .bind (.plain _ rfl) fun _ => .ite (.bind (.fail _) fun _ => .done _) (.done _)

lemma built_cancelNow (hA : ∀ fence actor, A fence .cancel { actor }) (d : Loaded)
    (actor : Option UserId) (now : Time) : Built A reach (cancelNow d actor now) := by
  refine .bind (.apply _ _ _ _ (hA _ _)) fun applied => ?_
  cases applied <;> exact .done _

lemma built_cancelLoaded (h : reach.touches = true) (hA : ∀ fence actor, A fence .cancel { actor })
    (d : Loaded) (actor : Option UserId) (now : Time) :
    Built A reach (cancelLoaded d actor now) := by
  unfold cancelLoaded
  split
  · exact built_cancelNow hA d actor now
  · exact built_cancelNow hA d actor now
  · exact built_cancelNow hA d actor now
  · exact .bind (.plain _ rfl) fun _ => .bind (.touch h _ _) fun _ => .done _
  · exact .ite (built_cancelNow hA d actor now) (.done _)
  · exact .done _

lemma built_cancelRows (hA : ∀ fence actor, A fence .cancel { actor })
    (rows : List (DeliveryId × Delivery)) (now : Time) : Built A .jobs (cancelRows rows now) :=
  .each (fun _ => .bind (built_load _ _) fun _ => .bind (built_cancelLoaded rfl hA _ _ _) fun _ => .done _)
    rows

lemma built_touchJobs (rows : List (DeliveryId × Delivery)) (now : Time) :
    Built A .jobs (Sweep.touchJobs rows now) :=
  .bind (.each (fun _ => .touch rfl _ _) _) fun _ => .done ()

lemma built_expired (state : DeliveryState) (data : TransitionData) (now : Time) (limit : ℕ)
    (hA : ∀ fence, fence.expected = state → A fence .leaseExpired data) :
    Built A reach (Sweep.expired state data now limit) :=
  .bind (.plain _ rfl) fun _ =>
    .bind (.each (fun _ => .bind (.apply _ _ _ _ (hA _ rfl)) fun _ => .done _) _) fun _ => .done _

lemma built_refuseOtherLiveJob (d : Loaded) (job : PublishJob) :
    Built A reach (DeliveryRepo.refuseOtherLiveJob d job) :=
  .ite (.bind (.plain _ rfl) fun _ => .bind (.plain _ rfl) fun _ => .ite (.fail _) (.done _))
    (.done _)

lemma built_refuseMaterialized (id : DeliveryId) : Built A reach (refuseMaterialized id) :=
  .bind (.plain _ rfl) fun _ => .ite (.fail _) (.done _)

lemma built_retry (scope : OwnerScope) (id : DeliveryId) (acknowledged : Bool) (now : Time)
    (hA : ∀ fence, A fence (.userRetry acknowledged)
      { resetAttempts := true, actor := some scope.actor }) :
    Built A reach (DeliveryRepo.retry scope id acknowledged now) := by
  refine .bind (built_require _ _) fun _ => .bind (built_lockOne _ _) fun d =>
    .bind (.plain _ rfl) fun _ => .bind (.orFail _ _) fun job => ?_
  refine .ite (.bind (.fail _) fun _ => ?_) ?_ <;>
    refine .bind (built_refuseOtherLiveJob _ _) fun _ =>
      .ite (.bind (built_refuseMaterialized _) fun _ => ?_) ?_
  all_goals
    refine .bind (.apply _ _ _ _ (hA _)) fun applied => ?_
    rcases applied with ⟨state, - | dispatch, job⟩ | -
    · exact .fail _
    · exact .ite (.bind (.plain _ rfl) fun _ => .done _) (.done _)
    · exact .fail _

lemma built_unparkOne (hA : ∀ fence, (∃ r, fence.expected = .parked r) → A fence .unpark {})
    (now parkGrace : Time) (row : ParkedRow) :
    Built A reach (Sweep.unparkOne now parkGrace row) := by
  refine .bind (.orFail _ _) fun reason => .ite (.ite ?_ (.done _)) ?_
  · exact .bind (.plain _ rfl) fun _ => .done _
  · exact .bind (.apply _ _ _ _ (hA _ ⟨_, rfl⟩)) fun _ => .done _

lemma built_claimBatch (fence : Fence) (size : ℕ) (now lease : Time)
    (cap : Option (AccountQuotaKey × ℕ)) :
    Built A reach (DirectRepo.claimBatch fence size now lease cap) := by
  have hreserve (key : AccountQuotaKey) (limit : ℕ) :
      Built A reach (QuotaRepo.reserveUpTo key size limit) := .ite (.done _) (.plain _ rfl)
  refine .bind (.plain _ rfl) fun _ => .ite (.done _) ?_
  cases cap with
  | none =>
    exact .bind (.done _) fun _ => .ite (.bind (.plain _ rfl) fun _ => .done _) <|
      .bind (.plain _ rfl) fun _ => .bind (.plain _ rfl) fun _ => .ite (.done _) (.done _)
  | some cap =>
    obtain ⟨key, limit⟩ := cap
    refine .bind (hreserve key limit) fun _ => .ite (.bind (.plain _ rfl) fun _ => .done _) <|
      .bind (.plain _ rfl) fun _ => .bind (.plain _ rfl) fun _ => .ite ?_ ?_
    · exact .bind (.plain _ rfl) fun _ => .ite (.done _) (.done _)
    · exact .ite (.done _) (.done _)

lemma built_storeCounts (id : DeliveryId) : Built A reach (DirectRepo.storeCounts id) :=
  .bind (.bind (.plain _ rfl) fun _ => .orFail _ _) fun _ => .plain _ rfl

lemma built_record (id : DirectSendId) (batch : DirectBatchId) (result : DirectResult)
    (now : Time) : Built A .jobs (DirectRepo.record id batch result now) := by
  refine .bind (.plain _ rfl) fun o => ?_
  rcases o with - | ⟨row, replacedCancel⟩
  · exact .done _
  · have hlast : Built A .jobs (if replacedCancel = true then do
        let job ← Prog.orFail .sql (← sql (.lockDeliveryJob row.deliveryId))
        DirectRepo.storeCounts row.deliveryId
        let _ ← touchJob job now
        pure true
      else pure true : Tx Bool) := by
      refine .ite (.bind (.plain _ rfl) fun _ => .bind (.orFail _ _) fun _ => ?_) (.done _)
      exact .bind (built_storeCounts _) fun _ => .bind (.touch rfl _ _) fun _ => .done _
    exact .ite (.bind (.plain _ rfl) fun _ => hlast) hlast

lemma built_materialize (delivery : ClaimedDelivery) (audience : Audience) (now : Time) :
    Built A .jobs (DirectRepo.materialize delivery audience now) := by
  refine .bind (.plain _ rfl) fun _ => .bind (.orFail _ _) fun counts => ?_
  cases counts with
  | some existing => exact .done _
  | none =>
    exact .bind (.plain _ rfl) fun _ => .bind (.plain _ rfl) fun _ =>
      .bind (.touch rfl _ _) fun _ => .done _

/-- **Every operation is made of the blocks.** -/
lemma Op.built {β : Type} (op : Op β) : Built op.Calls op.reach op.tx := by
  cases op with
  | createJob scope post expectedVersion new dbNow now =>
    exact .bind (built_lockRow _ _ _) fun _ => .bind (built_require _ _) fun _ =>
      .bind (.guard _ _) fun _ => .insert rfl _ _ _ _ _ _ _
  | createForOccurrence owner post actor new dbNow now =>
    exact .bind (built_lockRow _ _ _) fun _ => .insert rfl _ _ _ _ _ _ _
  | editPost scope post expectedVersion =>
    exact .bind (built_require _ _) fun _ => .bind (built_lockRow _ _ _) fun _ => .edit rfl _
  | claim id gen now lease => exact .claim id gen now lease
  | renewLease id gen now lease =>
    refine .bind (.plain _ rfl) fun o => ?_
    cases o <;> exact .done _
  | apply fence event data now => exact .apply fence event data now ⟨rfl, rfl, rfl⟩
  | setContainerRef fence ref => exact .plain _ rfl
  | takeCheck fence seq nextDue =>
    exact .quiet _ rfl nofun fun state h => (Option.some.inj h).symm
  | setCheckDue fence seq due =>
    exact .quiet _ rfl nofun fun state h => (Option.some.inj h).symm
  | checkTarget id =>
    refine .bind (.plain _ rfl) fun o => ?_
    rcases o with - | ⟨row, c, started⟩
    · exact .done _
    · exact .bind (.ofExcept _ _) fun _ => .done _
  | recordLateReceipt id receipt now => exact .lateReceipt id receipt now
  | cancelDelivery scope id now =>
    refine .bind (built_require _ _) fun _ => .bind (built_lockOne _ _) fun _ =>
      built_cancelLoaded rfl ?_ _ _ _
    exact fun _ _ => ⟨rfl, _, rfl⟩
  | cancelForAccount account now =>
    refine .bind (.plain _ rfl) fun _ => built_cancelRows ?_ _ _
    exact fun _ _ => ⟨rfl, _, rfl⟩
  | cancelForOwner owner now =>
    refine .bind (.plain _ rfl) fun _ => built_cancelRows ?_ _ _
    exact fun _ _ => ⟨rfl, _, rfl⟩
  | retry scope id acknowledged now => exact built_retry scope id acknowledged now fun _ => ⟨rfl, rfl⟩
  | resolve scope id outcome now =>
    refine .bind (built_require _ _) fun _ => .bind (built_lockOne _ _) fun _ =>
      .bind (.apply _ _ _ _ ⟨rfl, rfl⟩) fun applied => ?_
    cases applied with
    | done state redispatch job => exact .done _
    | stale => exact .fail _
  | setRemotePublishAt fence at_ now =>
    refine .bind (.plain _ rfl) fun o => ?_
    cases o with
    | none => exact .done _
    | some job => exact .bind (.touch rfl _ _) fun _ => .done _
  | startAttempt id delivery now => exact .bind (.plain _ rfl) fun _ => .guard _ _
  | finishAttempt id outcome now => exact .bind (.plain _ rfl) fun _ => .guard _ _
  | cancelJob scope id now =>
    refine .bind (built_require _ _) fun _ => .bind (built_lockVisibleJob _ _) fun _ =>
      .bind (.quiet _ rfl fun _ => rfl) fun _ => .bind (.each (fun d => ?_) _) fun _ =>
      .bind (.touch rfl _ _) fun _ => .done _
    refine .bind (built_cancelLoaded rfl ?_ _ _ _) fun _ => .done _
    exact fun _ _ => ⟨rfl, _, rfl⟩
  | reschedule scope id at_ now uploadNow =>
    refine .bind (built_require _ _) fun _ => .bind (built_lockVisibleJob _ _) fun _ =>
      .bind (.plain _ rfl) fun _ => .bind (.orFail _ _) fun _ => ?_
    refine .ite (.bind (.fail _) fun _ => ?_) ?_ <;>
      exact .bind (.guard _ _) fun _ => .bind (.plain _ rfl) fun _ => .bind (.plain _ rfl) fun _ =>
        .bind (.touch rfl _ _) fun _ => .done _
  | overduePending now grace limit =>
    exact .bind (.plain _ rfl) fun _ => .bind (built_touchJobs _ _) fun _ => .done _
  | expiredClaims now limit => exact built_expired _ _ _ _ fun _ h => ⟨h, rfl, rfl⟩
  | expiredInFlight now limit => exact built_expired _ _ _ _ fun _ h => ⟨h, rfl, rfl⟩
  | stalledChecks now grace limit =>
    exact .sqlEach rfl fun _ => .bind (.ofExcept _ _) fun _ => .done _
  | orphanedDirect now grace limit =>
    exact .bind (.plain _ rfl) fun _ => .bind (built_touchJobs _ _) fun _ => .done _
  | unpark now parkGrace compiled limit =>
    refine .bind (.plain _ rfl) fun _ =>
      .bind (.each (fun row => built_unparkOne ?_ _ _ row) _) fun _ => .done _
    exact fun _ h => ⟨h, rfl, rfl⟩
  | materialize delivery audience now => exact built_materialize delivery audience now
  | startCampaign delivery audience attempt now =>
    refine .bind (built_materialize _ _ _) fun _ => .bind (.bind (.plain _ rfl) fun _ => .guard _ _)
      fun _ => .bind (.apply _ _ _ _ ⟨rfl, rfl, rfl⟩) fun applied => ?_
    cases applied with
    | done state redispatch job => exact .done _
    | stale => exact .fail _
  | audienceCount owner audience => exact .plain _ rfl
  | claimBatch fence size now lease cap => exact built_claimBatch fence size now lease cap
  | renewBatch delivery batch now lease => exact .plain _ rfl
  | waitForCap fence resumeAt now =>
    refine .bind (.plain _ rfl) fun o => ?_
    cases o with
    | none => exact .done _
    | some job => exact .bind (.touch rfl _ _) fun _ => .done _
  | record id batch result now => exact built_record id batch result now
  | requeue id batch => exact .plain _ rfl
  | releaseBatch delivery batch => exact .plain _ rfl
  | finishIfDone fence now =>
    refine .bind (.bind (.plain _ rfl) fun _ => .orFail _ _) fun counts => .ite (.done _) ?_
    exact .bind (.apply _ _ _ _ ⟨rfl, rfl, _, rfl⟩) fun _ => .done _
  | recipients owner ids => exact .plain _ rfl
  | releaseQuota key units => exact .plain _ rfl
  | getAccount owner id => exact .plain _ rfl
  | userActive user => exact .plain _ rfl
  | livePublishing => exact .plain _ rfl

end Operations

end Postit.Data
