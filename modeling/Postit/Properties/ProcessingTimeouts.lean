import Postit.Data.Attempts
import Postit.Data.Integrity
import Postit.Data.PublishTimes
import Postit.Publishing.Alone
import Postit.Publishing.Poll

/-!
# Processing timeouts are measured from the current attempt

A poll times a delivery out by two columns: the newest start among its attempts, and the publish
time on its row, which a state change without one keeps.  `CurrentAttempt` is what the two should
say: when the current attempt started, and the publish time the platform gave for it.  They say so
as long as each acceptance without a publish time finds none on the row, and no clock goes back.
-/

namespace Postit.Publishing

open Postit.Framework Postit.Data

/-! ## Attempts -/

/-- What a step did. -/
inductive AttemptEvent
  -- the worker started an attempt
  | started (claimed : ClaimedDelivery) (attempt : DeliveryAttemptId) (now : Time)
  | other (e : Event)

/-- Whether the step is one of the two that the start of an attempt makes together. -/
def startsRemote : Event → Bool
  | .did (.startAttempt ..) _ => true
  | .did (.apply _ .startRemote _ _) _ => true
  | _ => false

/-- One step: the worker starts an attempt, or anything else happens.  Campaigns are started for
direct deliveries. -/
inductive AttemptStep (db : Db) : AttemptEvent → Db → Prop
  | started {s : Surroundings} {claimed : ClaimedDelivery} {attempt : DeliveryAttemptId}
      {now : Time} {db' : Db}
      (h : Handler.alone s (Worker.startRemote claimed attempt now) db = .ok (true, db')) :
      AttemptStep db (.started claimed attempt now) db'
  | other {e : Event} {db' : Db} (h : OpStep db e db') (notStart : startsRemote e = false)
      (campaign : ∀ c audience attempt now count,
        e = .did (.startCampaign c audience attempt now) count →
        ∀ d, db.deliveries.lookup c.id = some d → d.operation = .direct) :
      AttemptStep db (.other e) db'

/-- A delivery's current attempt: when it started, and the publish time the platform gave for
it. -/
structure CurrentAttempt where
  startedAt : Option Time := none
  publishAt : Option Time := none

namespace CurrentAttempt

/-- The delivery's current attempt after a step. -/
def next (id : DeliveryId) (c : CurrentAttempt) : AttemptEvent → CurrentAttempt
  | .started claimed _ now => if claimed.id = id then { startedAt := some now } else c
  | .other e => { c with publishAt := e.given id <|> c.publishAt }

/-- The delivery's current attempt after a run. -/
def after (id : DeliveryId) (es : List AttemptEvent) : CurrentAttempt := es.foldl (next id) {}

/-- Since when its processing is measured: the later of its start and its publish time. -/
def since (c : CurrentAttempt) : Option Time :=
  c.startedAt.map fun start => c.publishAt.elim start (max start)

end CurrentAttempt

/-- **What a start does.**  The state change lands, and the attempt's row goes in. -/
lemma Worker.startRemote_ok {s : Surroundings} {claimed : ClaimedDelivery}
    {attempt : DeliveryAttemptId} {now : Time} {db db' : Db}
    (h : Handler.alone s (startRemote claimed attempt now) db = .ok (true, db')) :
    ∃ db₁ applied, applied ≠ .stale ∧
      (Op.apply (fence claimed .claimed) .startRemote {} now).tx.run db = .ok (applied, db₁) ∧
      (Op.startAttempt attempt claimed.id now).tx.run db₁ = .ok ((), db') := by
  obtain ⟨draft, hscript, rfl⟩ := Handler.alone_commit_ok.1 h
  obtain ⟨applied, draft₁, happly, hrest⟩ := Script.run_bind_ok.1 hscript
  obtain ⟨db₁, hrun, rfl⟩ := Script.run_op_ok.1 happly
  cases applied with
  | stale =>
    obtain ⟨habsurd, -⟩ := Script.run_done_ok.1 hrest
    cases habsurd
  | done state redispatch job =>
    obtain ⟨_, draft₂, hstart, hdone⟩ := Script.run_bind_ok.1 hrest
    obtain ⟨db₂, hinsert, rfl⟩ := Script.run_op_ok.1 hstart
    obtain ⟨-, rfl⟩ := Script.run_done_ok.1 hdone
    exact ⟨db₁, .done state redispatch job, nofun, hrun, hinsert⟩

/-- A step of attempts is made of steps on the database. -/
lemma AttemptStep.reachable {db db' : Db} {e : AttemptEvent} (h : AttemptStep db e db')
    (hdb : Reachable db) : Reachable db' := by
  cases h with
  | other h => exact hdb.step h
  | @started s claimed attempt now db' h =>
    obtain ⟨db₁, applied, -, happly, hstart⟩ := Worker.startRemote_ok h
    exact (hdb.step (.did happly)).step (.did hstart)

/-! ## What the columns say -/

/-- The delivery's attempts started by then. -/
def StartedBy (db : Db) (id : DeliveryId) (t : Time) : Prop := ∀ start ∈ db.starts id, start ≤ t

/-- The columns a poll reads say what they should of the delivery's current attempt. -/
structure Tracks (c : CurrentAttempt) (db : Db) (id : DeliveryId) : Prop where
  started : c.startedAt = (db.starts id).max?
  given : ∀ t, c.publishAt = some t → db.PublishesAt id (some t)
  begun : ∀ d, db.deliveries.lookup id = some d → d.operation ≠ .direct →
    d.state = .inFlight ∨ d.state = .processing → c.startedAt ≠ none
  processing : ∀ d, db.deliveries.lookup id = some d → d.operation ≠ .direct →
    d.state = .processing → d.remotePublishAt = c.publishAt ∧
      ∀ t, c.publishAt = some t → StartedBy db id t

lemma max?_congr {l l' : List Time} (h : ∀ t, t ∈ l' ↔ t ∈ l) : l'.max? = l.max? := by
  refine Option.ext fun t => ?_
  rw [List.max?_eq_some_iff, List.max?_eq_some_iff]
  simp only [h]

/-- A delivery whose row and attempts stay. -/
lemma Tracks.frame {c : CurrentAttempt} {db db' : Db} {id : DeliveryId} (h : Tracks c db id)
    (hrow : db'.deliveries.lookup id = db.deliveries.lookup id)
    (hstarts : ∀ t, t ∈ db'.starts id ↔ t ∈ db.starts id) : Tracks c db' id where
  started := by rw [max?_congr hstarts, h.started]
  given := fun t ht => (h.given t ht).of_eq hrow
  begun := fun d hd => h.begun d (hrow ▸ hd)
  processing := fun d hd hop hstate => by
    obtain ⟨hsame, hby⟩ := h.processing d (hrow ▸ hd) hop hstate
    exact ⟨hsame, fun t ht start hstart => hby t ht start ((hstarts start).mp hstart)⟩

/-- A start makes the attempt the current one. -/
lemma Tracks.start {c : CurrentAttempt} {s : Surroundings} {claimed : ClaimedDelivery}
    {attempt : DeliveryAttemptId} {now : Time} {db db' : Db} {id : DeliveryId}
    (hc : Tracks c db id) (hby : StartedBy db claimed.id now)
    (h : Handler.alone s (Worker.startRemote claimed attempt now) db = .ok (true, db')) :
    Tracks (c.next id (.started claimed attempt now)) db' id := by
  obtain ⟨db₁, applied, hdone, happly, hstart⟩ := Worker.startRemote_ok h
  rcases DeliveryRepo.apply_ok happly with ⟨rfl, -, -⟩ | ⟨state, job, d, hl, -⟩
  · exact absurd rfl hdone
  have hsame : SameStarts db db₁ :=
    (OpStep.did happly).sameStarts (by simp [Event.special?, Op.special?])
  have hstarts := AttemptRepo.mem_starts hstart
  obtain ⟨-, -, rfl⟩ := AttemptRepo.start_ok hstart
  by_cases hid : id = claimed.id
  · subst hid
    obtain ⟨counts, hrow⟩ := hl.row
    have hflight : state = .inFlight := by
      rcases hl.edge with ⟨hedge, -⟩ | ⟨hedge, -⟩
      · exact (Except.ok.inj hedge).symm
      · cases hedge
    simp only [CurrentAttempt.next, if_true]
    refine ⟨?_, (fun _ h => by cases h), (fun _ _ _ _ => Option.some_ne_none _),
      fun d' hd' _ hstate => ?_⟩
    · symm
      rw [List.max?_eq_some_iff]
      refine ⟨(hstarts _ _).mpr (.inr ⟨rfl, rfl⟩), fun t ht => ?_⟩
      rcases (hstarts _ _).mp ht with hold | ⟨-, rfl⟩
      · exact hby t (hsame.mem_starts.mp hold)
      · exact le_rfl
    · obtain rfl := Option.some.inj (hrow.symm.trans hd')
      rw [hflight] at hstate
      cases hstate
  · rw [CurrentAttempt.next, if_neg (Ne.symm hid)]
    refine hc.frame (hl.others hid) fun t => ?_
    rw [hstarts, hsame.mem_starts]
    simp [hid]

/-! ## What else moves the columns -/

/-- A fenced write leads to `in_flight` only by `StartRemote`. -/
lemma transition_inFlight {s : DeliveryState} {event : DeliveryEvent}
    (h : transition s event = .ok .inFlight) : event = .startRemote :=
  of_transition (P := fun _ e t => t = .inFlight → e = .startRemote) (by decide) h rfl

/-- A fenced write leads to `processing` only by `Accepted`, from `in_flight`. -/
lemma transition_processing {s : DeliveryState} {event : DeliveryEvent}
    (h : transition s event = .ok .processing) : event = .accepted ∧ s = .inFlight :=
  of_transition (P := fun s e t => t = .processing → e = .accepted ∧ s = .inFlight)
    (by decide) h rfl

/-- The events that lead to `outcome_unknown`. -/
lemma transition_outcomeUnknown {s : DeliveryState} {event : DeliveryEvent}
    (h : transition s event = .ok .outcomeUnknown) :
    event = .ambiguous ∨ event = .leaseExpired ∨ event = .processingTimeout :=
  of_transition (P := fun _ e t => t = .outcomeUnknown →
    e = .ambiguous ∨ e = .leaseExpired ∨ e = .processingTimeout) (by decide) h rfl

/-- What a step must find so that the columns keep saying what they should. -/
def Timely (db : Db) : AttemptEvent → Prop
  -- no earlier attempt started after this one
  | .started claimed _ now => StartedBy db claimed.id now
  -- the platform gives a publish time after the start, or none while the row has none
  | .other (.did (.apply fence .accepted data _) _) =>
      ∀ d, db.deliveries.lookup fence.id = some d → fence.Matches d → d.operation ≠ .direct →
        data.remotePublishAt.elim (d.remotePublishAt = none) (StartedBy db fence.id)
  | .other (.did (.setRemotePublishAt fence at_ _) _) =>
      ∀ d, db.deliveries.lookup fence.id = some d → d.state = .processing →
        fence.expected.asStr = .processing → d.operation ≠ .direct → StartedBy db fence.id at_
  | .other _ => True

section Others

variable {c : CurrentAttempt} {db db' : Db}

/-- A fenced write that landed, on the delivery of its fence. -/
lemma Tracks.landed {fence : Fence} {event : DeliveryEvent} {data : TransitionData} {now : Time}
    {state : DeliveryState} {job : JobStatusChange} {d : Delivery}
    (hl : Landed fence event data now db db' state job d) (hevent : event ≠ .startRemote)
    (hstarts : SameStarts db db') (hc : Tracks c db fence.id)
    (haccepted : event = .accepted → d.operation ≠ .direct →
      data.remotePublishAt.elim (d.remotePublishAt = none) (StartedBy db fence.id)) :
    Tracks { c with publishAt := data.remotePublishAt <|> c.publishAt } db' fence.id := by
  obtain ⟨counts, hrow⟩ := hl.row
  have hleads {t : DeliveryState} (hstate : state = t) (ht : t ≠ .cancelled) :
      transition fence.expected event = .ok t := by
    rcases hl.edge with ⟨hedge, -⟩ | ⟨-, hcancelled, -⟩
    · rw [hedge, hstate]
    · exact absurd (hstate.symm.trans hcancelled) ht
  have hprocessing (hstate : state.asStr = .processing) :
      event = .accepted ∧ d.state = .inFlight := by
    have hstate : state = .processing := by cases state <;> first | rfl | cases hstate
    obtain ⟨hevent, hexpected⟩ := transition_processing (hleads hstate nofun)
    exact ⟨hevent, by rw [hl.fenced.1.1, hexpected]; rfl⟩
  refine ⟨?_, fun t ht => ?_, fun d' hd' hop hstate => ?_, fun d' hd' hop hstate => ?_⟩
  · rw [max?_congr fun t => hstarts.mem_starts]
    exact hc.started
  · refine ⟨_, hrow, ?_⟩
    show (data.remotePublishAt <|> d.remotePublishAt) = some t
    cases hgiven : data.remotePublishAt with
    | some at_ => rwa [hgiven] at ht
    | none =>
      rw [hgiven] at ht
      obtain ⟨d₁, hd₁, hat⟩ := hc.given t ht
      obtain rfl := Option.some.inj (hl.found.symm.trans hd₁)
      exact hat
  · obtain rfl := Option.some.inj (hrow.symm.trans hd')
    rcases hstate with hflight | hstate
    · have hflight : state = .inFlight := by
        change state.asStr = .inFlight at hflight
        cases state <;> first | rfl | cases hflight
      exact absurd (transition_inFlight (hleads hflight nofun)) hevent
    · exact hc.begun d hl.found hop (.inl (hprocessing hstate).2)
  · obtain rfl := Option.some.inj (hrow.symm.trans hd')
    have hfound := haccepted (hprocessing hstate).1 hop
    show (data.remotePublishAt <|> d.remotePublishAt) = (data.remotePublishAt <|> c.publishAt) ∧ _
    cases hgiven : data.remotePublishAt with
    | some at_ =>
      rw [hgiven] at hfound
      refine ⟨rfl, fun t ht start hstart => ?_⟩
      obtain rfl := Option.some.inj ht
      exact hfound start (hstarts.mem_starts.mp hstart)
    | none =>
      rw [hgiven] at hfound
      change d.remotePublishAt = none at hfound
      have hnone : c.publishAt = none := by
        by_contra hsome
        obtain ⟨t, ht⟩ := Option.ne_none_iff_exists'.mp hsome
        obtain ⟨d₁, hd₁, hat⟩ := hc.given t ht
        obtain rfl := Option.some.inj (hl.found.symm.trans hd₁)
        exact absurd (hfound.symm.trans hat) (by simp)
      rw [hfound, hnone]
      exact ⟨rfl, nofun⟩

/-- The move of an upload, on the delivery of its fence. -/
lemma Tracks.moved {fence : Fence} {at_ now : Time} {d : Delivery}
    (hd : db.deliveries.lookup fence.id = some d)
    (hrow : db'.deliveries.lookup fence.id =
      some ((DeliveryUpdate.setRemotePublishAt at_ now).set d))
    (hstarts : SameStarts db db') (hc : Tracks c db fence.id)
    (htimely : d.state = .processing → d.operation ≠ .direct → StartedBy db fence.id at_) :
    Tracks { c with publishAt := some at_ } db' fence.id := by
  refine ⟨?_, fun t ht => ⟨_, hrow, ht⟩, fun d' hd' hop hstate => ?_, fun d' hd' hop hstate => ?_⟩
  · rw [max?_congr fun t => hstarts.mem_starts]
    exact hc.started
  · obtain rfl := Option.some.inj (hrow.symm.trans hd')
    exact hc.begun d hd hop hstate
  · obtain rfl := Option.some.inj (hrow.symm.trans hd')
    refine ⟨rfl, fun t ht start hstart => ?_⟩
    obtain rfl := Option.some.inj ht
    exact htimely hstate hop start (hstarts.mem_starts.mp hstart)

/-- A step that gives the delivery no publish time, and finds it in flight or processing where it
leaves it so. -/
lemma Tracks.other {e : Event} {id : DeliveryId} (h : OpStep db e db')
    (hstarts : SameStarts db db') (hgiven : e.given id = none)
    (hwas : ∀ d', db'.deliveries.lookup id = some d' → d'.operation ≠ .direct →
      d'.state = .inFlight ∨ d'.state = .processing →
      ∃ d, db.deliveries.lookup id = some d ∧ d.state = d'.state ∧ d'.operation = d.operation)
    (hc : Tracks c db id) : Tracks c db' id := by
  have hat {at_ : Option Time} (hd : db.PublishesAt id at_) : db'.PublishesAt id at_ := by
    have hnow := h.publishesAt hd
    rwa [hgiven] at hnow
  refine ⟨?_, fun t ht => hat (hc.given t ht), fun d' hd' hop hstate => ?_,
    fun d' hd' hop hstate => ?_⟩
  · rw [max?_congr fun t => hstarts.mem_starts]
    exact hc.started
  · obtain ⟨d, hd, hsame, hop'⟩ := hwas d' hd' hop hstate
    exact hc.begun d hd (hop' ▸ hop) (hsame ▸ hstate)
  · obtain ⟨d, hd, hsame, hop'⟩ := hwas d' hd' hop (.inr hstate)
    obtain ⟨hpublish, hby⟩ := hc.processing d hd (hop' ▸ hop) (hsame.trans hstate)
    obtain ⟨d₁, hd₁, hat₁⟩ := hat ⟨d, hd, rfl⟩
    obtain rfl := Option.some.inj (hd₁.symm.trans hd')
    refine ⟨hat₁.trans hpublish, fun t ht start hstart => ?_⟩
    exact hby t ht start (hstarts.mem_starts.mp hstart)

/-- Where nothing is started or accepted, what is in flight or processing was so before. -/
lemma OpStep.working_was {e : Event} (h : OpStep db e db') {id : DeliveryId}
    (hstart : ∀ fence data, ¬ e.Calls fence .startRemote data)
    (haccepted : ∀ fence data, e.Calls fence .accepted data → fence.id ≠ id) {d' : Delivery}
    (hd' : db'.deliveries.lookup id = some d')
    (hstate : d'.state = .inFlight ∨ d'.state = .processing) :
    ∃ d, db.deliveries.lookup id = some d ∧ d.state = d'.state ∧ d'.operation = d.operation := by
  refine h.rows.state ?_ (fun fence event data target hcall hid htrans htarget => ?_) hd' rfl
  · rcases hstate with hstate | hstate <;> rw [hstate] <;> decide
  · rw [← htarget] at hstate
    rcases hstate with hflight | hprocessing
    · obtain rfl : target = .inFlight := by cases target <;> first | rfl | cases hflight
      obtain rfl := transition_inFlight htrans
      exact hstart fence data hcall
    · obtain rfl : target = .processing := by cases target <;> first | rfl | cases hprocessing
      obtain ⟨rfl, -⟩ := transition_processing htrans
      exact haccepted fence data hcall hid

/-- Whether the operation may start or accept a delivery. -/
def mayWork {β : Type} : Op β → Bool
  | .apply .. | .startCampaign .. => true
  | _ => false

/-- The fenced writes inside the other operations neither start nor accept. -/
lemma not_working_of_calls {β : Type} {op : Op β} (h : mayWork op = false) {fence : Fence}
    {event : DeliveryEvent} {data : TransitionData} (hcall : op.Calls fence event data) :
    event ≠ .startRemote ∧ event ≠ .accepted := by
  cases op with
  | apply | startCampaign => cases h
  | cancelDelivery | cancelForAccount | cancelForOwner | cancelJob | retry | resolve =>
    obtain ⟨rfl, -⟩ := hcall
    exact ⟨nofun, nofun⟩
  | finishIfDone | expiredClaims | expiredInFlight | unpark =>
    obtain ⟨-, rfl, -⟩ := hcall
    exact ⟨nofun, nofun⟩
  | _ => exact hcall.elim

/-- An operation that starts and accepts nothing. -/
lemma Tracks.calm {β : Type} {op : Op β} {value : β} {id : DeliveryId}
    (h : OpStep db (.did op value) db') (hwork : mayWork op = false)
    (hspecial : op.special? ≠ some .startsAttempt) (hgiven : (Event.did op value).given id = none)
    (hc : Tracks c db id) : Tracks c db' id := by
  refine hc.other h (h.sameStarts hspecial) hgiven fun d' hd' _ hstate => ?_
  refine OpStep.working_was h (fun fence data hcall => ?_) (fun fence data hcall => ?_) hd' hstate
  · exact (not_working_of_calls hwork hcall).1 rfl
  · exact absurd rfl (not_working_of_calls hwork hcall).2

/-- The start of a campaign, which finds a direct delivery. -/
lemma Tracks.campaign {claimed : ClaimedDelivery} {audience : Audience}
    {attempt : DeliveryAttemptId} {now : Time} {count : ℕ} {id : DeliveryId}
    (h : OpStep db (.did (.startCampaign claimed audience attempt now) count) db')
    (hdirect : ∀ d, db.deliveries.lookup claimed.id = some d → d.operation = .direct)
    (hc : Tracks c db id) : Tracks c db' id := by
  refine hc.other h (h.sameStarts (by simp [Event.special?, Op.special?])) rfl
    fun d' hd' hop hstate => ?_
  by_cases hid : claimed.id = id
  · subst hid
    rcases h.rows.came _ d' hd' with ⟨d, hd⟩ | ⟨hnew, -⟩
    · obtain ⟨d₁, hd₁, hsame⟩ := h.rows.relates (R := fun d d' => d'.operation = d.operation)
        (fun _ => rfl) (fun h h' => h'.trans h) (fun step => step.operation) hd
      obtain rfl := Option.some.inj (hd₁.symm.trans hd')
      exact absurd (hsame.trans (hdirect d hd)) hop
    · cases hnew
  · refine OpStep.working_was h ?_ ?_ hd' hstate
    · rintro fence data ⟨-, hevent, -⟩
      cases hevent
    · rintro fence data ⟨rfl, -, -⟩ hsame
      exact hid hsame

/-- **A step keeps the columns in line with the current attempt.** -/
lemma Tracks.step {e : AttemptEvent} {id : DeliveryId} (h : AttemptStep db e db')
    (htimely : Timely db e) (hc : Tracks c db id) : Tracks (c.next id e) db' id := by
  cases h with
  | started h => exact hc.start htimely h
  | @other e db' h notStart campaign =>
    cases h with
    | @did β op value db' hrun =>
      have hstep : OpStep db (.did op value) db' := .did hrun
      cases op with
      | startAttempt => cases notStart
      | startCampaign claimed audience attempt now =>
        exact hc.campaign hstep (campaign claimed audience attempt now value rfl)
      | apply fence event data now =>
        have hstarts := hstep.sameStarts (by simp [Event.special?, Op.special?])
        rcases DeliveryRepo.apply_ok hrun with ⟨rfl, rfl, -⟩ | ⟨state, job, d, hl, rfl⟩
        · exact hc
        · simp only [CurrentAttempt.next, Event.given]
          split_ifs with hid
          · subst hid
            refine Tracks.landed hl ?_ hstarts hc ?_
            · rintro rfl
              cases notStart
            · rintro rfl
              exact htimely d hl.found hl.fenced
          · exact hc.frame (hl.others (Ne.symm hid)) fun _ => hstarts.mem_starts
      | setRemotePublishAt fence at_ now =>
        have hstarts := hstep.sameStarts (by simp [Event.special?, Op.special?])
        rcases DeliveryRepo.setRemotePublishAt_ok hrun with
          ⟨rfl, rfl⟩ | ⟨d, change, hd, hexpected, rfl, htouch⟩
        · exact hc
        · have hrows := touchJob_deliveries htouch
          simp only [CurrentAttempt.next, Event.given]
          split_ifs with hid
          · subst hid
            refine Tracks.moved hd (by rw [hrows]; exact AList.lookup_insert _) hstarts hc ?_
            exact fun hstate => htimely d hd hstate (hexpected.symm.trans hstate)
          · refine hc.frame ?_ fun _ => hstarts.mem_starts
            rw [hrows]
            exact AList.lookup_insert_ne (Ne.symm hid)
      | _ => exact hc.calm hstep rfl (by simp [Op.special?]) rfl
    | failed => exact hc
    | wrotePost => exact hc.frame rfl fun _ => Iff.rfl
    | outside => exact hc.frame rfl fun _ => Iff.rfl

end Others

/-- A step that finds what it must. -/
def TimelyStep (db : Db) (e : AttemptEvent) (db' : Db) : Prop := AttemptStep db e db' ∧ Timely db e

/-- After every run of timely steps the columns say what they should. -/
lemma tracks_of_run {db₀ db : Db} {es : List AttemptEvent} (hdb₀ : Fresh db₀)
    (hattempts : db₀.attempts = ∅) (run : Run TimelyStep db₀ es db) (id : DeliveryId) :
    Tracks (.after id es) db id ∧ Reachable db := by
  induction run with
  | nil =>
    refine ⟨⟨?_, nofun, fun d hd => ?_, fun d hd => ?_⟩, db₀, [], hdb₀, .nil⟩
    · simp only [Db.starts, hattempts]
      rfl
    all_goals
      rw [hdb₀.deliveries] at hd
      cases hd
  | snoc _ step ih =>
    obtain ⟨hstep, htimely⟩ := step
    rw [CurrentAttempt.after, List.foldl_append]
    exact ⟨ih.1.step hstep htimely, hstep.reachable ih.2⟩

/-! ## A poll -/

section Polls

variable {s : Surroundings} {cfg : Settings} {db db' : Db} {id : DeliveryId}

/-- What a poll reads of a delivery. -/
lemma checkTarget_ok {d : Delivery} {j : PublishJob} {o : Option CheckTarget}
    (hd : db.deliveries.lookup id = some d) (hj : db.jobs.lookup d.jobId = some j)
    (h : (Op.checkTarget id).tx.run db = .ok (o, db')) :
    db' = db ∧ ∃ target, o = some target ∧ d.readState = .ok target.state ∧
      target.delivery = .of id d j ∧ target.remotePublishAt = d.remotePublishAt ∧
      target.attemptStartedAt = (db.starts id).max? := by
  have hexec : (Sql.selectCheckTarget id).exec (fun _ => true) db =
      .ok (Sql.read (some (d, .of id d j, (db.starts id).max?))) := by
    simp [Sql.exec, hd, hj, Db.starts]
  obtain ⟨found, db₁, hselect, hrest⟩ := Tx.run_bind_ok.mp h
  obtain ⟨e, he, rfl, rfl⟩ := Tx.run_sql_ok.mp hselect
  obtain rfl := Except.ok.inj (hexec.symm.trans he)
  obtain ⟨state, db₂, hstate, hdone⟩ := Tx.run_bind_ok.mp hrest
  obtain ⟨hread, rfl⟩ := Tx.run_ofExcept_ok.mp hstate
  obtain ⟨rfl, rfl⟩ := Tx.run_done_ok.mp hdone
  exact ⟨rfl, _, rfl, hread, rfl, rfl, rfl⟩

/-- The delivery's outcome is not unknown. -/
def Known (id : DeliveryId) (db : Db) : Prop :=
  ∀ d, db.deliveries.lookup id = some d → d.state ≠ .outcomeUnknown

lemma Known.of_calls {β : Type} {op : Op β} (hcalls : ∀ fence event data,
      op.Calls fence event data → event = .published ∨ event = .permanentFailure)
    {value : β} (h : op.tx.run db = .ok (value, db')) (hdb : Known id db) : Known id db' := by
  intro d' hd' hstate
  have hstep : OpStep db (.did op value) db' := .did h
  have hleads : ∀ fence event data target, op.Calls fence event data → fence.id = id →
      transition fence.expected event = .ok target → target.asStr ≠ .outcomeUnknown := by
    intro fence event data target hcall _ htrans htarget
    obtain rfl : target = .outcomeUnknown := by cases target <;> first | rfl | cases htarget
    rcases transition_outcomeUnknown htrans with rfl | rfl | rfl <;>
      rcases hcalls _ _ _ hcall with h | h <;> cases h
  obtain ⟨d, hd, hunknown, -⟩ := hstep.rows.state (by decide) hleads hd' hstate
  exact hdb d hd hunknown

/-- A poll that does not time the delivery out leaves its outcome known. -/
lemma Poll.keeps_poll {target : CheckTarget} {poll : ℕ} {now : Time}
    (hno : timedOut target cfg.processingTimeout now = false) :
    (Poll.poll cfg target poll now).Only fun c => c.Keeps (Known id) := by
  have hnone {β : Type} {o : Op β} (h : ∀ fence event data, ¬ o.Calls fence event data) :
      (op o).Only fun a => a.Keeps (Known id) :=
    Script.keeps_op (Known.of_calls fun _ _ _ hcall => absurd hcall (h _ _ _))
  have hsuccessor (fence : Fence) (seq : ℕ) (job : Job) (at_ : Time) (retryAt : Option Time) :
      (commit (Worker.enqueueSuccessor fence seq job at_ retryAt)).Only
        fun c => c.Keeps (Known id) := by
    refine Handler.keeps_commit ?_
    unfold Worker.enqueueSuccessor
    split
    · exact Script.keeps_enqueue _ _
    · exact Prog.only_bind (hnone fun _ _ _ h => h) fun found =>
        Prog.only_ite (Script.keeps_enqueue _ _) trivial
  have hanswered (fence : Fence) (next : ℕ) (nextDue : Time)
      (asked : Option (Except AgentError PublishOutcome)) :
      (answered target fence next nextDue asked).Only fun c => c.Keeps (Known id) := by
    have happly (fence : Fence) (event : DeliveryEvent) (data : TransitionData) (now : Time)
        (hevent : event = .published ∨ event = .permanentFailure) :
        (op (.apply fence event data now)).Only fun a => a.Keeps (Known id) := by
      refine Script.keeps_op (Known.of_calls ?_)
      rintro _ _ _ ⟨-, rfl, -⟩
      exact hevent
    unfold answered
    split
    · refine Prog.only_bind (Handler.keeps_look _) fun now => Handler.keeps_commit ?_
      refine Prog.only_bind (happly _ _ _ _ (.inl rfl)) fun applied => ?_
      split
      · trivial
      · unfold Worker.lateReceipt
        split
        · trivial
        · exact Prog.only_bind (hnone fun _ _ _ h => h) fun _ => trivial
    · refine Prog.only_ite ?_ ?_
      · exact Prog.only_bind (Handler.keeps_look _) fun now => Prog.only_bind
          (Handler.keeps_commit (happly _ _ _ _ (.inr rfl))) fun _ => trivial
      · exact Prog.only_bind (Handler.keeps_look _) fun now => hsuccessor _ _ _ _ _
    · exact hsuccessor _ _ _ _ _
  have hask (fence : Fence) : (ask target fence poll).Only fun c => c.Keeps (Known id) := by
    refine Prog.only_bind (Prog.only_bind (Handler.keeps_look _) fun _ => Handler.keeps_orRetry _)
      fun found => Prog.only_ite (Prog.only_bind (Handler.keeps_look _) fun bound => ?_) trivial
    split
    · trivial
    · exact Prog.only_bind (Handler.keeps_inquire _ _ _) fun _ => trivial
  unfold Poll.poll
  simp only [hno, Bool.false_eq_true, if_false]
  split
  · exact Handler.keeps_commit (Prog.only_bind (hnone fun _ _ _ h => h) fun taken =>
      Prog.only_ite (Script.keeps_enqueue _ _) trivial)
  · exact Prog.only_bind (Handler.keeps_commit (hnone fun _ _ _ h => h)) fun taken =>
      Prog.only_ite (Prog.only_bind (hask _) fun asked => hanswered _ _ _ _) trivial

/-- A poll that times the delivery out leaves its outcome unknown. -/
lemma Poll.timeOut_ok {target : CheckTarget} {fence : Fence} {now : Time} {d : Delivery} {u : Unit}
    (hd : db.deliveries.lookup fence.id = some d) (hmatches : fence.Matches d)
    (hexpected : fence.expected = .processing)
    (h : Handler.alone s (timeOut target fence now) db = .ok (u, db')) :
    ∃ d', db'.deliveries.lookup fence.id = some d' ∧ d'.state = .outcomeUnknown := by
  obtain ⟨draft, hscript, rfl⟩ := Handler.alone_commit_ok.1 h
  obtain ⟨applied, draft₁, happly, hrest⟩ := Script.run_bind_ok.1 hscript
  obtain ⟨db₁, hrun, rfl⟩ := Script.run_op_ok.1 happly
  rcases DeliveryRepo.apply_ok hrun with ⟨-, -, hstale⟩ | ⟨state, job, d₁, hl, rfl⟩
  · exact absurd hmatches (hstale d hd)
  · obtain rfl := Script.run_enqueue_ok.1 hrest
    obtain ⟨counts, hrow⟩ := hl.row
    refine ⟨_, hrow, ?_⟩
    show state.asStr = .outcomeUnknown
    rcases hl.edge with ⟨hedge, -⟩ | ⟨hedge, -⟩ <;> rw [hexpected] at hedge
    · rw [← Except.ok.inj hedge]
      rfl
    · cases hedge

/-- **When a poll times a delivery out.**  Never a direct one; at its own generation, once the
timeout has passed since the publish time on the row, or else since the newest start. -/
lemma runPoll_timesOut {d : Delivery} {gen poll : ℕ} {u : Unit}
    (hd : db.deliveries.lookup id = some d) (hjob : (db.jobs.lookup d.jobId).isSome)
    (hstate : d.state = .processing)
    (h : Handler.alone s (runPoll cfg id gen poll) db = .ok (u, db')) :
    (∃ d', db'.deliveries.lookup id = some d' ∧ d'.state = .outcomeUnknown) ↔
      d.operation ≠ .direct ∧ gen = d.dispatchGen ∧ ∃ since,
        (d.remotePublishAt <|> (db.starts id).max?) = some since ∧
        later since cfg.processingTimeout ≤ s.look .now := by
  obtain ⟨j, hj⟩ := Option.isSome_iff_exists.mp hjob
  obtain ⟨now, db₁, hnow, h⟩ := Handler.alone_bind_ok.1 h
  obtain ⟨rfl, hdb₁⟩ := Handler.alone_look_ok.1 hnow
  obtain rfl := hdb₁.symm
  obtain ⟨found, db₂, hcheck, h⟩ := Handler.alone_bind_ok.1 h
  obtain ⟨hdb₂, target, rfl, hread, htarget, hpublish, hstarted⟩ :=
    checkTarget_ok hd hj (Handler.alone_call_ok.1 hcheck)
  obtain rfl := hdb₂.symm
  have hin : DeliveryUpdate.InState d target.state := DeliveryUpdate.inState_iff.mpr hread
  have hprocessing : target.state = .processing := by
    have hname := hin.1.symm.trans hstate
    cases hs : target.state <;> first | rfl | (rw [hs] at hname; cases hname)
  have hknown : Known id db := by
    intro d' hd' hunknown
    obtain rfl := Option.some.inj (hd.symm.trans hd')
    rw [hstate] at hunknown
    cases hunknown
  have hdecides : (∃ since, (d.remotePublishAt <|> (db.starts id).max?) = some since ∧
      later since cfg.processingTimeout ≤ s.look .now) ↔
      Poll.timedOut target cfg.processingTimeout (s.look .now) = true := by
    simp only [Poll.timedOut, hpublish, hstarted, Option.any_eq_true, decide_eq_true_eq]
  have hleft : ¬ (∃ d', db.deliveries.lookup id = some d' ∧ d'.state = .outcomeUnknown) := by
    rintro ⟨d', hd', hunknown⟩
    exact hknown d' hd' hunknown
  have hnow : s.answer db .now = s.look .now := rfl
  simp only [hnow] at h
  by_cases hown : d.operation ≠ .direct ∧ gen = d.dispatchGen
  · obtain ⟨hop, hgen⟩ := hown
    rw [if_neg (by simp [hprocessing, htarget, ClaimedDelivery.of, hgen, hop])] at h
    simp only [hop, hgen, ne_eq, not_false_eq_true, true_and, hdecides]
    cases htimed : Poll.timedOut target cfg.processingTimeout (s.look .now) with
    | true =>
      refine iff_of_true ?_ rfl
      simp only [Poll.poll, htimed, if_true] at h
      have hfence : (Worker.fence target.delivery .processing).id = id := by
        simp [Worker.fence, htarget, ClaimedDelivery.of]
      have htimedOut := Poll.timeOut_ok (hfence.symm ▸ hd)
        ⟨hprocessing ▸ hin, by simp [Worker.fence, htarget, ClaimedDelivery.of]⟩ rfl h
      rwa [hfence] at htimedOut
    | false =>
      refine iff_of_false ?_ nofun
      rintro ⟨d', hd', hunknown⟩
      exact Handler.alone_keeps (Poll.keeps_poll htimed) h hknown d' hd' hunknown
  · have hother : target.delivery.dispatchGen ≠ gen ∨ target.delivery.operation = .direct := by
      rw [htarget]
      by_contra hboth
      push Not at hboth
      exact hown ⟨hboth.2, hboth.1.symm⟩
    rw [if_pos (.inr hother)] at h
    obtain ⟨-, rfl⟩ := Handler.alone_done_ok.1 h
    exact iff_of_false hleft fun hboth => hown ⟨hboth.1, hboth.2.1⟩

end Polls

/-- Polls never time the delivery out if it is direct, and otherwise exactly when the timeout has
passed since the later of the attempt's start and the publish time the platform gave for it. -/
def MeasuredFrom (c : CurrentAttempt) (db : Db) (id : DeliveryId) (d : Delivery) : Prop :=
  ∀ (s : Surroundings) (cfg : Settings) (gen poll : ℕ) (db' : Db),
    Handler.alone s (runPoll cfg id gen poll) db = .ok ((), db') →
    ((∃ d', db'.deliveries.lookup id = some d' ∧ d'.state = .outcomeUnknown) ↔
      d.operation ≠ .direct ∧ gen = d.dispatchGen ∧ ∃ since, c.since = some since ∧
        later since cfg.processingTimeout ≤ s.look .now)

/-- What a poll counts from is what it should count from. -/
lemma Tracks.since {c : CurrentAttempt} {db : Db} {id : DeliveryId} {d : Delivery}
    (hc : Tracks c db id) (hd : db.deliveries.lookup id = some d) (hstate : d.state = .processing)
    (hop : d.operation ≠ .direct) :
    (d.remotePublishAt <|> (db.starts id).max?) = c.since := by
  obtain ⟨hpublish, hby⟩ := hc.processing d hd hop hstate
  obtain ⟨start, hstart⟩ := Option.ne_none_iff_exists'.mp (hc.begun d hd hop (.inr hstate))
  rw [hpublish, ← hc.started, CurrentAttempt.since, hstart]
  cases hgiven : c.publishAt with
  | none => rfl
  | some t =>
    have hmem : start ∈ db.starts id :=
      (List.max?_eq_some_iff.mp (hc.started.symm.trans hstart)).1
    exact congrArg some (max_eq_right (hby t hgiven start hmem)).symm

/-- In a run of timely steps from before the first job, every delivery in `processing` is timed out
by its polls exactly when the timeout has passed since the later of its current attempt's start and
the publish time the platform gave for that attempt; a direct one never is. -/
theorem timeouts_measured {db₀ db : Db} {es : List AttemptEvent} (hdb₀ : Fresh db₀)
    (hattempts : db₀.attempts = ∅) (run : Run TimelyStep db₀ es db) {id : DeliveryId}
    {d : Delivery} (hd : db.deliveries.lookup id = some d) (hstate : d.state = .processing) :
    MeasuredFrom (.after id es) db id d := by
  intro s cfg gen poll db' h
  obtain ⟨hc, hreachable⟩ := tracks_of_run hdb₀ hattempts run id
  rw [runPoll_timesOut hd (hreachable.sound.hasJob id d hd) hstate h]
  refine and_congr_right fun hop => ?_
  rw [hc.since hd hstate hop]

/-! ## One attempt, and a second one -/

/-- A clock that stands, and looks that find nothing. -/
def lookAt (now : Time) : ∀ {β : Type}, Look β → β
  | _, .now => now
  | _, q => silentLook q

/-- Surroundings whose clock stands. -/
def atTime (now : Time) : Surroundings := ⟨⟨∅, []⟩, lookAt now, silentInquiry⟩

/-- Settings that time a delivery out after 600. -/
def shortTimeout : Settings where
  lease := 300
  maxAttempts := 5
  processingTimeout := 600
  sweepGrace := 60
  parkGrace := 600
  emailBatchSize := 10
  compiledPlatforms := []
  localDay _ now := (now, now + 1)

/-- The delivery of the sample as the worker claimed it. -/
def sampleClaimed (gen : ℕ) : ClaimedDelivery where
  id := 1
  dispatchGen := gen
  ownerId := 1
  jobId := 1
  postId := 1
  accountId := 1
  operation := .publish
  attemptCount := 0
  nativeSchedule := false
  dryRun := false
  containerRef := none
  cancelRequested := false

/-- The database after the worker started an attempt. -/
def afterStart (db : Db) (gen : ℕ) (attempt : DeliveryAttemptId) (now : Time) : Db :=
  match Handler.alone (atTime now) (Worker.startRemote (sampleClaimed gen) attempt now) db with
  | .ok r => r.2
  | .error _ => db

/-- The platform accepts the upload of the attempt. -/
def accepts (gen : ℕ) (publishAt : Option Time) (now : Time) : Op Applied :=
  .apply ⟨1, gen, .inFlight⟩ .accepted { remotePublishAt := publishAt } now

lemma AttemptStep.afterStart {db : Db} {gen : ℕ} {attempt : DeliveryAttemptId} {now : Time}
    (h : (Handler.alone (atTime now) (Worker.startRemote (sampleClaimed gen) attempt now) db).map
      Prod.fst = .ok true) :
    AttemptStep db (.started (sampleClaimed gen) attempt now) (afterStart db gen attempt now) := by
  unfold Publishing.afterStart
  cases hrun : Handler.alone (atTime now) (Worker.startRemote (sampleClaimed gen) attempt now) db
  with
  | error e => simp [hrun, Except.map] at h
  | ok r =>
    obtain ⟨started, db'⟩ := r
    simp only [hrun, Except.map, Except.ok.injEq] at h
    subst h
    exact .started hrun

lemma AttemptStep.perform {β : Type} {db : Db} {op : Op β} {value : β}
    (h : (op.tx.run db).map Prod.fst = .ok value) (hspecial : op.special? = none)
    (notStart : startsRemote (.did op value) = false) :
    AttemptStep db (.other (.did op value)) (db.perform op) := by
  refine .other (.perform h) notStart fun c audience attempt now count he => ?_
  have hsame : op.special? = some .queuesAudience := congrArg Event.special? he
  rw [hspecial] at hsame
  cases hsame

/-- The sample's post is claimed. -/
def claimedOnce : Db := (Db.sample.perform (.publishSample 1)).perform (.claim 1 0 0 300)

/-- Its platform accepted it, to go live at 1000. -/
def natively : Db := (afterStart claimedOnce 0 1 0).perform (accepts 0 (some 1000) 10)

lemma run_natively : ∃ es, CurrentAttempt.after 1 es = ⟨some 0, some 1000⟩ ∧
    Run TimelyStep Db.sample es natively := by
  have hcreated : AttemptStep Db.sample (.other (.did (.publishSample 1) [⟨1, 0, 0⟩]))
      (Db.sample.perform (.publishSample 1)) := .perform (by decide) rfl rfl
  have hclaimed : AttemptStep (Db.sample.perform (.publishSample 1))
      (.other (.did (.claim 1 0 0 300) (some (sampleClaimed 0)))) claimedOnce :=
    .perform (by decide) rfl rfl
  have hstarted : AttemptStep claimedOnce (.started (sampleClaimed 0) 1 0)
      (afterStart claimedOnce 0 1 0) := .afterStart (by decide)
  have haccepted : AttemptStep (afterStart claimedOnce 0 1 0) (.other (.did
      (accepts 0 (some 1000) 10) (.done .processing none ⟨.publishing, .scheduled⟩))) natively :=
    .perform (by decide) rfl rfl
  have hnone : ∀ start ∈ claimedOnce.starts 1, start ≤ 0 := by decide
  have hone : ∀ start ∈ (afterStart claimedOnce 0 1 0).starts 1, start ≤ 1000 := by decide
  exact ⟨_, rfl, (((Run.single ⟨hcreated, trivial⟩).snoc ⟨hclaimed, trivial⟩).snoc
    ⟨hstarted, hnone⟩).snoc ⟨haccepted, fun _ _ _ _ => hone⟩⟩

lemma natively_row : (natively.deliveries.lookup 1).map (·.state) = some .processing := by
  decide +kernel

/-- It is timed out once the timeout has passed since 1000, and no sooner. -/
theorem timeouts_measured_sample :
    ∃ es d, CurrentAttempt.after 1 es = ⟨some 0, some 1000⟩ ∧
      natively.deliveries.lookup 1 = some d ∧ MeasuredFrom (.after 1 es) natively 1 d := by
  obtain ⟨es, hes, run⟩ := run_natively
  obtain ⟨d, hd, hcolumns⟩ := Option.map_eq_some_iff.mp natively_row
  exact ⟨es, d, hes, hd, timeouts_measured Db.fresh_sample rfl run hd hcolumns⟩

/-- The poll timed the first attempt out. -/
def lost : Db :=
  natively.perform (.apply ⟨1, 0, .processing⟩ .processingTimeout { countAttempt := true } 1600)

/-- The platform has no post of it. -/
def absent : Db := lost.perform (.apply ⟨1, 0, .outcomeUnknown⟩ .reconcileAbsent {} 1700)

/-- The second attempt is claimed. -/
def claimedAgain : Db := absent.perform (.claim 1 1 1800 300)

/-- The platform accepted the second attempt too, without a publish time. -/
def acceptedAgain : Db := (afterStart claimedAgain 1 2 1800).perform (accepts 1 none 1810)

lemma run_again : ∃ es, CurrentAttempt.after 1 es = ⟨some 1800, none⟩ ∧
    Run AttemptStep Db.sample es acceptedAgain := by
  obtain ⟨es, hes, run⟩ := run_natively
  have hlost : AttemptStep natively (.other (.did (.apply ⟨1, 0, .processing⟩ .processingTimeout
      { countAttempt := true } 1600) (.done .outcomeUnknown none ⟨.scheduled, .publishing⟩)))
      lost := .perform (by decide +kernel) rfl rfl
  have habsent : AttemptStep lost (.other (.did (.apply ⟨1, 0, .outcomeUnknown⟩ .reconcileAbsent
      {} 1700) (.done .pending (some ⟨1, 1, 1700⟩) ⟨.publishing, .publishing⟩))) absent :=
    .perform (by decide +kernel) rfl rfl
  have hclaimed : AttemptStep absent (.other (.did (.claim 1 1 1800 300)
      (some { sampleClaimed 1 with attemptCount := 1 }))) claimedAgain :=
    .perform (by decide +kernel) rfl rfl
  have hstarted : AttemptStep claimedAgain (.started (sampleClaimed 1) 2 1800)
      (afterStart claimedAgain 1 2 1800) := .afterStart (by decide +kernel)
  have haccepted : AttemptStep (afterStart claimedAgain 1 2 1800) (.other (.did
      (accepts 1 none 1810) (.done .processing none ⟨.publishing, .publishing⟩))) acceptedAgain :=
    .perform (by decide +kernel) rfl rfl
  refine ⟨_, ?_, (((((run.mono And.left).snoc hlost).snoc habsent).snoc hclaimed).snoc
    hstarted).snoc haccepted⟩
  simp only [CurrentAttempt.after, List.foldl_append] at hes ⊢
  rw [hes]
  rfl

/-- The row still has the publish time of the first attempt, and the first poll times it out. -/
lemma acceptedAgain_polled :
    (acceptedAgain.deliveries.lookup 1).map (fun d => (d.state, d.remotePublishAt)) =
      some (.processing, some 1000) ∧
    (Handler.alone (atTime 1825) (runPoll shortTimeout 1 1 0) acceptedAgain).map
      (fun r => (r.2.deliveries.lookup 1).map (·.state)) = .ok (some .outcomeUnknown) := by
  decide +kernel

/-- **The defect.**  The second attempt started at 1800, and its first poll times it out at 1825,
because the row still has the publish time of the first. -/
theorem not_timeouts_measured :
    ¬ ∀ (db₀ db : Db) (es : List AttemptEvent), Fresh db₀ → db₀.attempts = ∅ →
      Run AttemptStep db₀ es db → ∀ (id : DeliveryId) (d : Delivery),
        db.deliveries.lookup id = some d → d.state = .processing →
        MeasuredFrom (.after id es) db id d := by
  intro h
  obtain ⟨es, hes, run⟩ := run_again
  obtain ⟨d, hd, hcolumns⟩ := Option.map_eq_some_iff.mp acceptedAgain_polled.1
  obtain ⟨hstate, -⟩ := Prod.mk.inj hcolumns
  cases hpoll : Handler.alone (atTime 1825) (runPoll shortTimeout 1 1 0) acceptedAgain with
  | error e =>
    have hpolled := acceptedAgain_polled.2
    rw [hpoll] at hpolled
    cases hpolled
  | ok r =>
    have hpolled := acceptedAgain_polled.2
    rw [hpoll, Except.map, Except.ok.injEq, Option.map_eq_some_iff] at hpolled
    obtain ⟨-, -, since, hsince, hpassed⟩ := (h Db.sample acceptedAgain es Db.fresh_sample rfl run
      1 d hd hstate (atTime 1825) shortTimeout 1 0 r.2 hpoll).mp hpolled
    rw [hes] at hsince
    obtain rfl := Option.some.inj hsince
    exact absurd hpassed (by decide)

end Postit.Publishing
