import Postit.Data.Histories
import Postit.Data.Plain

/-!
# Publish times

A delivery's `remote_publish_at` is the time the platform gave last (`OpStep.publishesAt`): a fenced
write keeps the column where its payload has no time, and of the other statements only the move of
a natively scheduled upload sets it.
-/

namespace Postit.Data

open Postit.Framework

/-- The delivery is there, with this publish time. -/
def Db.PublishesAt (db : Db) (id : DeliveryId) (at_ : Option Time) : Prop :=
  ∃ d, db.deliveries.lookup id = some d ∧ d.remotePublishAt = at_

namespace Db.PublishesAt

variable {db db' : Db} {id : DeliveryId} {at_ : Option Time}

lemma of_eq (h : db'.deliveries.lookup id = db.deliveries.lookup id)
    (hd : db.PublishesAt id at_) : db'.PublishesAt id at_ := by
  obtain ⟨d, hd, hat⟩ := hd
  exact ⟨d, h.trans hd, hat⟩

lemma setDelivery {key : DeliveryId} {d row : Delivery} (hkey : db.deliveries.lookup key = some d)
    (hrow : row.remotePublishAt = d.remotePublishAt) (hd : db.PublishesAt id at_) :
    (db.setDelivery key row).PublishesAt id at_ := by
  by_cases hid : id = key
  · subst hid
    obtain ⟨d₁, hd₁, hat⟩ := hd
    obtain rfl := Option.some.inj (hkey.symm.trans hd₁)
    exact ⟨row, AList.lookup_insert _, hrow.trans hat⟩
  · exact hd.of_eq (AList.lookup_insert_ne hid)

end Db.PublishesAt

/-- A quiet statement other than the move of an upload keeps every publish time. -/
lemma Sql.remotePublishAt_set {β : Type} {s : Sql β} (hs : s.isQuiet = true)
    (hspecial : s.special? ≠ some .movesPublishTime) {u : DeliveryUpdate}
    (hu : s.deliveryUpdate? = some u) (d : Delivery) :
    (u.set d).remotePublishAt = d.remotePublishAt := by
  cases s <;> first | exact absurd rfl hspecial | (cases hu <;> rfl) | cases hs

lemma Db.PublishesAt.exec {β : Type} {s : Sql β} (hs : s.isQuiet = true)
    (hspecial : s.special? ≠ some .movesPublishTime) {db db' : Db} {b : β}
    (h : Tx.run (sql s) db = .ok (b, db')) {id : DeliveryId} {at_ : Option Time}
    (hd : db.PublishesAt id at_) : db'.PublishesAt id at_ := by
  obtain ⟨e, he, -, rfl⟩ := Tx.run_sql_ok.mp h
  rcases db.storeAll_delivery e.writes id with ⟨row, hmem, hlook⟩ | ⟨-, hlook⟩
  · obtain ⟨d, hfound, hat⟩ := hd
    rcases (Sql.exec_sound s he).deliveries id row hmem with
      ⟨d₁, u, hd₁, -, rfl, hu⟩ | ⟨habsent, -⟩
    · obtain rfl := Option.some.inj (hfound.symm.trans hd₁)
      exact ⟨_, hlook, (Sql.remotePublishAt_set hs hspecial hu d).trans hat⟩
    · rw [habsent] at hfound
      cases hfound
  · exact hd.of_eq hlook

/-- What a fenced write that landed gives. -/
lemma Landed.publishesAt {fence : Fence} {event : DeliveryEvent} {data : TransitionData}
    {now : Time} {db db' : Db} {state : DeliveryState} {job : JobStatusChange} {d : Delivery}
    (h : Landed fence event data now db db' state job d) {id : DeliveryId} {at_ : Option Time}
    (hd : db.PublishesAt id at_) :
    db'.PublishesAt id ((if fence.id = id then data.remotePublishAt else none) <|> at_) := by
  split_ifs with hid
  · subst hid
    obtain ⟨d₁, hd₁, rfl⟩ := hd
    obtain rfl := Option.some.inj (h.found.symm.trans hd₁)
    obtain ⟨counts, hrow⟩ := h.row
    exact ⟨_, hrow, rfl⟩
  · exact hd.of_eq (h.others (Ne.symm hid))

/-- A program whose fenced writes give no publish time, and that moves no upload, keeps every
publish time. -/
lemma Built.publishesAt {A : Calls} {reach : Reach} {k : Option Special}
    (hA : ∀ fence event data, A fence event data → data.remotePublishAt = none)
    (hk : k ≠ some .movesPublishTime) {α : Type} {p : Tx α} (hp : Built A reach p)
    (hamong : p.Among k) {db db' : Db} {a : α} (h : Tx.run p db = .ok (a, db')) {id : DeliveryId}
    {at_ : Option Time} (hd : db.PublishesAt id at_) : db'.PublishesAt id at_ := by
  induction hp generalizing db db' with
  | done b =>
    obtain ⟨-, rfl⟩ := Tx.run_done_ok.mp h
    exact hd
  | fail e => exact absurd h (by simp)
  | bind _ _ ihp ihf =>
    obtain ⟨b, db₁, hp, hf⟩ := Tx.run_bind_ok.mp h
    exact ihf b (Prog.Only.of_run_bind _ hamong hp) hf (ihp hamong.of_bind hp hd)
  | quiet s hs _ _ =>
    refine hd.exec hs ?_ h
    rcases hamong.1 with hplain | hsame
    · rw [hplain]
      nofun
    · rwa [hsame]
  | touch _ job now => exact hd.of_eq (by rw [touchJob_deliveries h])
  | claim key gen now lease =>
    rcases DeliveryRepo.claim_ok h with ⟨-, rfl⟩ | ⟨d, j, change, hkey, -, -, -, -, -, htouch⟩
    · exact hd
    · have hclaimed : (db.setDelivery key _).PublishesAt id at_ := hd.setDelivery hkey
        (show ((DeliveryUpdate.claim now (now + lease)).set d).remotePublishAt = _ from rfl)
      exact hclaimed.of_eq (by rw [touchJob_deliveries htouch])
  | apply fence event data now call =>
    rcases DeliveryRepo.apply_ok h with ⟨-, rfl, -⟩ | ⟨state, job, d, hl, -⟩
    · exact hd
    · have hmoved := hl.publishesAt hd
      rwa [hA _ _ _ call, ite_self] at hmoved
  | lateReceipt key receipt now =>
    rcases DeliveryRepo.recordLateReceipt_ok.1 h with
      ⟨d, change, hkey, -, -, -, htouch⟩ | ⟨-, -, rfl⟩
    · have hlanded : (db.setDelivery key _).PublishesAt id at_ := hd.setDelivery hkey
        (show ((DeliveryUpdate.recordLateReceipt receipt now).set d).remotePublishAt = _ from rfl)
      exact hlanded.of_eq (by rw [touchJob_deliveries htouch])
    · exact hd
  | insert _ owner actor post row new dbNow now =>
    obtain ⟨deliveries, status, -, -, -, hadds, hrefresh⟩ := JobRepo.insert_ok h
    obtain ⟨-, j, -, -, rfl⟩ := DeliveryRepo.refreshJobStatus_ok.1 hrefresh
    obtain ⟨d, hfound, hat⟩ := hd
    refine ⟨d, ?_, hat⟩
    rw [Db.refreshed_deliveries]
    exact hadds.kept id d hfound
  | edit _ post =>
    obtain ⟨e, he, -, rfl⟩ := Tx.run_sql_ok.mp h
    rcases db.storeAll_delivery e.writes id with ⟨row, hmem, -⟩ | ⟨-, hlook⟩
    · obtain rfl := Except.ok.inj he
      split at hmem <;> simp [Sql.read] at hmem
    · exact hd.of_eq hlook

/-- **What moving an upload does.**  It sets the publish time of the row of its fence, which had
one, or does nothing. -/
lemma DeliveryRepo.setRemotePublishAt_ok {fence : Fence} {at_ now : Time} {db db' : Db}
    {o : Option JobStatusChange}
    (hrun : Tx.run (setRemotePublishAt fence at_ now) db = .ok (o, db')) :
    (o = none ∧ db' = db) ∨
      ∃ d change, db.deliveries.lookup fence.id = some d ∧ d.state = fence.expected.asStr ∧
        o = some change ∧
        Tx.run (touchJob d.jobId now)
          (db.setDelivery fence.id ((DeliveryUpdate.setRemotePublishAt at_ now).set d)) =
            .ok (change, db') := by
  obtain ⟨found, db₁, hset, h⟩ := Tx.run_bind_ok.mp hrun
  rcases (Tx.run_updateDelivery_ok rfl).mp hset with ⟨d, hd, -, hcond, rfl, rfl⟩ | ⟨-, rfl, rfl⟩
  · right
    obtain ⟨change, db₂, htouch, h⟩ := Tx.run_bind_ok.mp h
    obtain ⟨rfl, rfl⟩ := Tx.run_done_ok.mp h
    simp only [Bool.and_eq_true, decide_eq_true_eq] at hcond
    exact ⟨d, change, hd, hcond.2, rfl, htouch⟩
  · obtain ⟨rfl, rfl⟩ := Tx.run_done_ok.mp h
    exact .inl ⟨rfl, rfl⟩

/-! ## A step -/

/-- The publish time the platform gave the delivery, if the step records one. -/
def Event.given (id : DeliveryId) : Event → Option Time
  | .did (.apply fence _ data _) (.done ..) =>
      if fence.id = id then data.remotePublishAt else none
  | .did (.setRemotePublishAt fence at_ _) (some _) => if fence.id = id then some at_ else none
  | _ => none

/-- Whether the operation is the fenced write alone. -/
def Op.isApply {β : Type} : Op β → Bool
  | .apply .. => true
  | _ => false

/-- The fenced writes inside the other operations give no publish time. -/
lemma Op.remotePublishAt_of_calls {β : Type} {op : Op β} (h : op.isApply = false) {fence : Fence}
    {event : DeliveryEvent} {data : TransitionData} (hcall : op.Calls fence event data) :
    data.remotePublishAt = none := by
  cases op with
  | apply => cases h
  | cancelDelivery | cancelForAccount | cancelForOwner | cancelJob =>
    obtain ⟨-, _, rfl⟩ := hcall
    rfl
  | finishIfDone =>
    obtain ⟨-, -, _, rfl⟩ := hcall
    rfl
  | retry | resolve =>
    obtain ⟨-, rfl⟩ := hcall
    rfl
  | expiredClaims | expiredInFlight | unpark | startCampaign =>
    obtain ⟨-, -, rfl⟩ := hcall
    rfl
  | _ => exact hcall.elim

lemma Op.publishesAt {β : Type} {op : Op β} (hop : op.isApply = false)
    (hspecial : op.special? ≠ some .movesPublishTime) {db db' : Db} {value : β}
    (h : op.tx.run db = .ok (value, db')) {id : DeliveryId} {at_ : Option Time}
    (hd : db.PublishesAt id at_) : db'.PublishesAt id at_ :=
  Built.publishesAt (fun _ _ _ => remotePublishAt_of_calls hop) hspecial op.built op.among_special
    h hd

/-- **A delivery's publish time is the one the platform gave last.** -/
lemma OpStep.publishesAt {db db' : Db} {e : Event} (h : OpStep db e db') {id : DeliveryId}
    {at_ : Option Time} (hd : db.PublishesAt id at_) :
    db'.PublishesAt id (e.given id <|> at_) := by
  cases h with
  | @did β op value _ h =>
    cases op with
    | apply fence event data now =>
      rcases DeliveryRepo.apply_ok h with ⟨rfl, rfl, -⟩ | ⟨state, job, d, hl, rfl⟩
      · exact hd
      · exact hl.publishesAt hd
    | setRemotePublishAt fence moved now =>
      rcases DeliveryRepo.setRemotePublishAt_ok h with
        ⟨rfl, rfl⟩ | ⟨d, change, hkey, -, rfl, htouch⟩
      · exact hd
      · show db'.PublishesAt id ((if fence.id = id then some moved else none) <|> at_)
        split_ifs with hid
        · subst hid
          have hrow : db'.deliveries.lookup fence.id =
              some ((DeliveryUpdate.setRemotePublishAt moved now).set d) := by
            rw [touchJob_deliveries htouch]
            exact AList.lookup_insert _
          exact ⟨_, hrow, rfl⟩
        · refine hd.of_eq ?_
          rw [touchJob_deliveries htouch]
          exact AList.lookup_insert_ne (Ne.symm hid)
    | _ => exact Op.publishesAt rfl (by simp [Op.special?]) h hd
  | failed => exact hd
  | wrotePost => exact hd
  | outside => exact hd

end Postit.Data
