import Postit.Data.Operations

/-!
# Plain statements

Four statements do what no other does: one queues an audience, one forgets a delivery's counts, one
starts an attempt and one moves a publish time.  The rest are plain, and so are the programs and
most operations, made of them alone; every other operation performs one of the four
(`Op.among_special`).
-/

namespace Postit.Data

open Postit.Framework

/-- What a statement that is not plain does. -/
inductive Special
  | queuesAudience
  | forgetsCounts
  | startsAttempt
  | movesPublishTime
  deriving DecidableEq

/-- What the statement does that no other does, if it is not plain. -/
def Sql.special? {β : Type} : Sql β → Option Special
  | insertSends .. => some .queuesAudience
  | setDirectCounts _ none => some .forgetsCounts
  | insertAttempt .. => some .startsAttempt
  | setRemotePublishAt .. => some .movesPublishTime
  | _ => none

/-- Whether the statement is plain. -/
def Sql.isPlain {β : Type} (s : Sql β) : Bool := s.special?.isNone

/-- Every statement the program may perform is plain. -/
def Tx.Plain {α : Type} (p : Tx α) : Prop := p.Only fun s => s.isPlain = true

namespace Tx.Plain

variable {α β : Type}

lemma done (a : α) : Plain (Prog.done a) := trivial

lemma fail (e : DataError) : Plain (Prog.fail e : Tx α) := trivial

lemma sql {s : Sql β} (h : s.isPlain = true) : Plain (Data.sql s) := Prog.only_perform h

lemma bind {p : Tx α} {f : α → Tx β} (hp : Plain p) (hf : ∀ a, Plain (f a)) : Plain (p >>= f) :=
  Prog.only_bind hp hf

lemma orFail (e : DataError) (o : Option α) : Plain (Prog.orFail e o) := Prog.only_orFail e o

lemma ofExcept {ε : Type} (g : ε → DataError) (x : Except ε α) : Plain (Prog.ofExcept g x) :=
  Prog.only_ofExcept g x

lemma ite {c : Prop} [Decidable c] {p q : Tx α} (hp : Plain p) (hq : Plain q) :
    Plain (if c then p else q) := by
  split
  · exact hp
  · exact hq

lemma guard (c : Bool) (e : DataError) : Plain (Prog.guard c e) := ite (done _) (fail _)

lemma each {body : α → Tx β} (h : ∀ a, Plain (body a)) :
    ∀ as : List α, Plain (Prog.each as body)
  | [] => done []
  | a :: as => .bind (h a) fun _ => .bind (each h as) fun _ => done _

lemma require (scope : OwnerScope) (needed : Capability) : Plain (scope.require needed) := by
  unfold OwnerScope.require
  split
  · exact done ()
  · exact ite (fail _) (guard _ _)

lemma load (id : DeliveryId) (row : Delivery) : Plain (Data.load id row) :=
  .bind (ofExcept _ _) fun _ => done _

lemma lockOne (scope : OwnerScope) (id : DeliveryId) : Plain (Data.lockOne scope id) :=
  .bind (sql rfl) fun _ => .bind (orFail _ _) fun _ => load _ _

lemma refreshJobStatus (job : PublishJobId) (now : Time) :
    Plain (DeliveryRepo.refreshJobStatus job now) :=
  .bind (sql rfl) fun _ => .bind (ofExcept _ _) fun _ => .bind (sql rfl) fun _ =>
    .bind (orFail _ _) fun _ => ite (.bind (sql rfl) fun _ => done _) (done _)

lemma touchJob (job : PublishJobId) (now : Time) : Plain (Data.touchJob job now) :=
  .bind (sql rfl) fun _ => .bind (orFail _ _) fun _ => .bind (refreshJobStatus _ _) fun _ => done _

lemma storeCounts (id : DeliveryId) : Plain (DirectRepo.storeCounts id) :=
  .bind (.bind (sql rfl) fun _ => orFail _ _) fun _ => sql rfl

lemma apply (fence : Fence) (event : DeliveryEvent) (data : TransitionData) (now : Time) :
    Plain (DeliveryRepo.apply fence event data now) := by
  have hmove : ∀ planned : Move, Plain (DeliveryRepo.resolveMove fence.id planned) := by
    intro planned
    unfold DeliveryRepo.resolveMove
    split
    · exact .bind (.bind (sql rfl) fun _ => done _) fun _ => done _
    · exact done _
  refine .bind (ofExcept _ _) fun planned => .bind (hmove planned) fun move =>
    .bind (sql rfl) fun row => ?_
  cases row with
  | none => exact done _
  | some row =>
    exact .bind (touchJob _ _) fun _ => .bind
      (ite (.bind (sql rfl) fun _ => storeCounts _) (done _)) fun _ => done _

lemma lockVisibleJob (scope : OwnerScope) (job : PublishJobId) :
    Plain (JobRepo.lockVisibleJob scope job) :=
  .bind (sql rfl) fun _ => .bind (guard _ _) fun _ => .bind
    (.bind (sql rfl) fun _ => each (fun _ => load _ _) _) fun _ =>
    .bind (sql rfl) fun _ => .bind (guard _ _) fun _ => .bind (guard _ _) fun _ =>
    .bind (guard _ _) fun _ => done _

lemma lockRow (owner : UserId) (post : PostId) (expectedVersion : Option ℕ) :
    Plain (PostRepo.lockRow owner post expectedVersion) :=
  .bind (sql rfl) fun _ => .bind (orFail _ _) fun _ => .bind (guard _ _) fun _ =>
    .bind (sql rfl) fun _ => ite (.bind (fail _) fun _ => done _) (done _)

lemma insert (owner : UserId) (actor : Option UserId) (post : PostId) (row : Post) (new : NewJob)
    (dbNow now : Time) : Plain (JobRepo.insert owner actor post row new dbNow now) :=
  .bind (guard _ _) fun _ => .bind (guard _ _) fun _ => .bind (guard _ _) fun _ =>
    .bind (sql rfl) fun _ => .bind (each (fun _ => .bind (sql rfl) fun _ => done _) _) fun _ =>
    .bind (refreshJobStatus _ _) fun _ => done _

lemma cancelLoaded (d : Loaded) (actor : Option UserId) (now : Time) :
    Plain (Data.cancelLoaded d actor now) := by
  have hnow : Plain (cancelNow d actor now) := by
    refine .bind (apply _ _ _ _) fun applied => ?_
    cases applied <;> exact done _
  unfold Data.cancelLoaded
  split
  · exact hnow
  · exact hnow
  · exact hnow
  · exact .bind (sql rfl) fun _ => .bind (touchJob _ _) fun _ => done _
  · exact ite hnow (done _)
  · exact done _

lemma cancelRows (rows : List (DeliveryId × Delivery)) (now : Time) :
    Plain (Data.cancelRows rows now) :=
  each (fun _ => .bind (load _ _) fun _ => .bind (cancelLoaded _ _ _) fun _ => done _) rows

lemma touchJobs (rows : List (DeliveryId × Delivery)) (now : Time) :
    Plain (Sweep.touchJobs rows now) :=
  .bind (each (fun _ => touchJob _ _) _) fun _ => done ()

lemma expired (state : DeliveryState) (data : TransitionData) (now : Time) (limit : ℕ) :
    Plain (Sweep.expired state data now limit) :=
  .bind (sql rfl) fun _ => .bind (each (fun _ => .bind (apply _ _ _ _) fun _ => done _) _) fun _ =>
    done _

lemma unparkOne (now parkGrace : Time) (row : ParkedRow) :
    Plain (Sweep.unparkOne now parkGrace row) :=
  .bind (orFail _ _) fun _ => ite (ite (.bind (sql rfl) fun _ => done _) (done _))
    (.bind (apply _ _ _ _) fun _ => done _)

lemma claimBatch (fence : Fence) (size : ℕ) (now lease : Time)
    (cap : Option (AccountQuotaKey × ℕ)) :
    Plain (DirectRepo.claimBatch fence size now lease cap) := by
  refine .bind (sql rfl) fun _ => ite (done _) ?_
  cases cap with
  | none =>
    exact .bind (done _) fun _ => ite (.bind (sql rfl) fun _ => done _) <|
      .bind (sql rfl) fun _ => .bind (sql rfl) fun _ => ite (done _) (done _)
  | some cap =>
    obtain ⟨key, limit⟩ := cap
    refine .bind (ite (done _) (sql rfl)) fun _ => ite (.bind (sql rfl) fun _ => done _) <|
      .bind (sql rfl) fun _ => .bind (sql rfl) fun _ => ite ?_ ?_
    · exact .bind (sql rfl) fun _ => ite (done _) (done _)
    · exact ite (done _) (done _)

lemma record (id : DirectSendId) (batch : DirectBatchId) (result : DirectResult) (now : Time) :
    Plain (DirectRepo.record id batch result now) := by
  refine .bind (sql rfl) fun o => ?_
  rcases o with - | ⟨row, replacedCancel⟩
  · exact done _
  · have hlast : Plain (if replacedCancel = true then do
        let job ← Prog.orFail .sql (← Data.sql (.lockDeliveryJob row.deliveryId))
        DirectRepo.storeCounts row.deliveryId
        let _ ← Data.touchJob job now
        pure true
      else pure true : Tx Bool) :=
      ite (.bind (sql rfl) fun _ => .bind (orFail _ _) fun _ => .bind (storeCounts _) fun _ =>
        .bind (touchJob _ _) fun _ => done _) (done _)
    exact ite (.bind (sql rfl) fun _ => hlast) hlast

end Tx.Plain

/-- What the operation does that plain statements do not. -/
def Op.special? {β : Type} : Op β → Option Special
  | .materialize .. | .startCampaign .. => some .queuesAudience
  | .retry .. => some .forgetsCounts
  | .startAttempt .. => some .startsAttempt
  | .setRemotePublishAt .. => some .movesPublishTime
  | _ => none

/-- Whether the operation is made of plain statements. -/
def Op.isPlain {β : Type} (op : Op β) : Bool := op.special?.isNone

/-- **Every other operation is plain.** -/
lemma Op.plain {β : Type} {op : Op β} (h : op.isPlain = true) : op.tx.Plain := by
  have htouch {γ : Type} {s : Sql (Option PublishJobId)} {next : Option PublishJobId → Tx γ}
      (hs : s.isPlain = true) (hnone : (next none).Plain)
      (hsome : ∀ job, (next (some job)).Plain) : Tx.Plain (sql s >>= next) := by
    refine .bind (.sql hs) fun o => ?_
    cases o with
    | none => exact hnone
    | some job => exact hsome job
  cases op with
  | materialize => cases h
  | startCampaign => cases h
  | retry => cases h
  | startAttempt => cases h
  | setRemotePublishAt => cases h
  | createJob scope post expectedVersion new dbNow now =>
    exact .bind (.lockRow _ _ _) fun _ => .bind (.require _ _) fun _ => .bind (.guard _ _) fun _ =>
      .insert _ _ _ _ _ _ _
  | createForOccurrence owner post actor new dbNow now =>
    exact .bind (.lockRow _ _ _) fun _ => .insert _ _ _ _ _ _ _
  | editPost scope post expectedVersion =>
    exact .bind (.require _ _) fun _ => .bind (.lockRow _ _ _) fun _ => .sql rfl
  | claim id gen now lease =>
    refine .bind (.sql rfl) fun o => ?_
    cases o with
    | none => exact .done _
    | some claimed => exact .bind (.touchJob _ _) fun _ => .done _
  | renewLease id gen now lease =>
    refine .bind (.sql rfl) fun o => ?_
    cases o <;> exact .done _
  | apply fence event data now => exact .apply fence event data now
  | checkTarget id =>
    refine .bind (.sql rfl) fun o => ?_
    rcases o with - | ⟨row, c, started⟩
    · exact .done _
    · exact .bind (.ofExcept _ _) fun _ => .done _
  | recordLateReceipt id receipt now =>
    exact htouch rfl (.done _) fun _ => .bind (.touchJob _ _) fun _ => .done _
  | cancelDelivery scope id now =>
    exact .bind (.require _ _) fun _ => .bind (.lockOne _ _) fun _ => .cancelLoaded _ _ _
  | cancelForAccount account now => exact .bind (.sql rfl) fun _ => .cancelRows _ _
  | cancelForOwner owner now => exact .bind (.sql rfl) fun _ => .cancelRows _ _
  | resolve scope id outcome now =>
    refine .bind (.require _ _) fun _ => .bind (.lockOne _ _) fun _ => .bind (.apply _ _ _ _)
      fun applied => ?_
    cases applied with
    | done state redispatch job => exact .done _
    | stale => exact .fail _
  | finishAttempt id outcome now => exact .bind (.sql rfl) fun _ => .guard _ _
  | cancelJob scope id now =>
    exact .bind (.require _ _) fun _ => .bind (.lockVisibleJob _ _) fun _ => .bind (.sql rfl)
      fun _ => .bind (.each (fun _ => .bind (.cancelLoaded _ _ _) fun _ => .done _) _) fun _ =>
      .bind (.touchJob _ _) fun _ => .done _
  | reschedule scope id at_ now uploadNow =>
    refine .bind (.require _ _) fun _ => .bind (.lockVisibleJob _ _) fun _ => .bind (.sql rfl)
      fun _ => .bind (.orFail _ _) fun _ => ?_
    refine .ite (.bind (.fail _) fun _ => ?_) ?_ <;>
      exact .bind (.guard _ _) fun _ => .bind (.sql rfl) fun _ => .bind (.sql rfl) fun _ =>
        .bind (.touchJob _ _) fun _ => .done _
  | overduePending now grace limit =>
    exact .bind (.sql rfl) fun _ => .bind (.touchJobs _ _) fun _ => .done _
  | expiredClaims now limit => exact .expired _ _ _ _
  | expiredInFlight now limit => exact .expired _ _ _ _
  | stalledChecks now grace limit =>
    exact .bind (.sql rfl) fun _ => .each (fun _ => .bind (.ofExcept _ _) fun _ => .done _) _
  | orphanedDirect now grace limit =>
    exact .bind (.sql rfl) fun _ => .bind (.touchJobs _ _) fun _ => .done _
  | unpark now parkGrace compiled limit =>
    exact .bind (.sql rfl) fun _ => .bind (.each (fun _ => .unparkOne _ _ _) _) fun _ => .done _
  | claimBatch fence size now lease cap => exact .claimBatch fence size now lease cap
  | waitForCap fence resumeAt now =>
    exact htouch rfl (.done _) fun _ => .bind (.touchJob _ _) fun _ => .done _
  | record id batch result now => exact .record id batch result now
  | finishIfDone fence now =>
    exact .bind (.bind (.sql rfl) fun _ => .orFail _ _) fun _ =>
      .ite (.done _) (.bind (.apply _ _ _ _) fun _ => .done _)
  | _ => exact .sql rfl

/-! ## The other operations -/

/-- Every statement the program may perform is plain or does `k`. -/
def Tx.Among (k : Option Special) {α : Type} (p : Tx α) : Prop :=
  p.Only fun s => s.special? = none ∨ s.special? = k

namespace Tx.Among

variable {k : Option Special} {α β : Type}

lemma of_plain {p : Tx α} (hp : p.Plain) : Among k p :=
  hp.mono fun _ h => .inl (Option.isNone_iff_eq_none.mp h)

lemma sql {s : Sql β} (h : s.special? = k) : Among k (Data.sql s) := Prog.only_perform (.inr h)

lemma bind {p : Tx α} {f : α → Tx β} (hp : Among k p) (hf : ∀ a, Among k (f a)) :
    Among k (p >>= f) :=
  Prog.only_bind hp hf

lemma ite {c : Prop} [Decidable c] {p q : Tx α} (hp : Among k p) (hq : Among k q) :
    Among k (if c then p else q) := by
  split
  · exact hp
  · exact hq

lemma materialize (delivery : ClaimedDelivery) (audience : Audience) (now : Time) :
    Among (some .queuesAudience) (DirectRepo.materialize delivery audience now) := by
  refine bind (of_plain (.sql rfl)) fun _ => bind (of_plain (.orFail _ _)) fun counts => ?_
  cases counts with
  | some existing => exact of_plain (.done _)
  | none =>
    exact bind (sql rfl) fun _ => of_plain
      (.bind (.sql rfl) fun _ => .bind (.touchJob _ _) fun _ => .done _)

lemma retry (scope : OwnerScope) (id : DeliveryId) (acknowledged : Bool) (now : Time) :
    Among (some .forgetsCounts) (DeliveryRepo.retry scope id acknowledged now) := by
  have hrefuse (d : Loaded) (job : PublishJob) :
      Tx.Plain (DeliveryRepo.refuseOtherLiveJob d job) :=
    .ite (.bind (.sql rfl) fun _ => .bind (.sql rfl) fun _ => .ite (.fail _) (.done _)) (.done _)
  have hmaterialized : Tx.Plain (refuseMaterialized id) :=
    .bind (.sql rfl) fun _ => .ite (.fail _) (.done _)
  refine bind (of_plain (.require _ _)) fun _ => bind (of_plain (.lockOne _ _)) fun d =>
    bind (of_plain (.sql rfl)) fun _ => bind (of_plain (.orFail _ _)) fun job => ?_
  refine ite (bind (of_plain (.fail _)) fun _ => ?_) ?_ <;>
    refine bind (of_plain (hrefuse _ _)) fun _ => ite (bind (of_plain hmaterialized) fun _ => ?_) ?_
  all_goals
    refine bind (of_plain (.apply _ _ _ _)) fun applied => ?_
    rcases applied with ⟨state, - | dispatch, job⟩ | -
    · exact of_plain (.fail _)
    · exact ite (bind (sql rfl) fun _ => of_plain (.done _)) (of_plain (.done _))
    · exact of_plain (.fail _)

end Tx.Among

/-- **What sets an operation apart is one of the four.** -/
lemma Op.among_special {β : Type} (op : Op β) : op.tx.Among op.special? := by
  cases op with
  | materialize delivery audience now => exact .materialize delivery audience now
  | startCampaign delivery audience attempt now =>
    refine .bind (.materialize delivery audience now) fun _ => .of_plain ?_
    refine .bind (.bind (.sql rfl) fun _ => .guard _ _) fun _ => .bind (.apply _ _ _ _)
      fun applied => ?_
    cases applied with
    | done state redispatch job => exact .done _
    | stale => exact .fail _
  | retry scope id acknowledged now => exact .retry scope id acknowledged now
  | startAttempt id delivery now => exact .bind (.sql rfl) fun _ => .of_plain (.guard _ _)
  | setRemotePublishAt fence at_ now =>
    refine .bind (.sql rfl) fun o => .of_plain ?_
    cases o with
    | none => exact .done _
    | some job => exact .bind (.touchJob _ _) fun _ => .done _
  | _ => exact .of_plain (Op.plain rfl)

/-- What the step does that plain statements do not. -/
def Event.special? : Event → Option Special
  | .did op _ => op.special?
  | _ => none

end Postit.Data
