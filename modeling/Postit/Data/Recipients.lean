import Postit.Data.Integrity
import Postit.Data.Locking
import Postit.Data.Plain
import Postit.Data.Retention

/-!
# What becomes of recipient rows

Only two statements may undo what a campaign is known by: the one that queues an audience, and the
one that forgets a delivery's counts.  Every other statement (`Sql.isTame`) adds no recipient row,
never queues one again, and keeps the counts of a delivery that has some (`Db.Onward`); so do the
operations made of them (`Op.tame`).
-/

namespace Postit

/-- No event leads out of the state. -/
def StateName.isFinal : StateName → Bool
  | .published | .cancelled | .simulated => true
  | _ => false

lemma not_transition_of_isFinal {s t : DeliveryState} {e : DeliveryEvent}
    (h : s.asStr.isFinal = true) : transition s e ≠ .ok t := fun ht =>
  of_transition (P := fun s _ _ => ¬ s.asStr.isFinal = true) (by decide) ht h

end Postit

namespace Postit.Data

open Postit.Framework

/-! ## New IDs -/

namespace Sql

variable {β : Type} {free : RowRef → Bool} {db : Db}

/-- Whether the statement makes new IDs. -/
def makesUuids : Sql β → Bool
  | insertSends .. | generateUuid => true
  | _ => false

lemma uuid_not_mem {s : Sql β} (hs : s.makesUuids = false) {e : Effect β}
    (h : s.exec free db = .ok e) (n : ℕ) : Write.uuid n ∉ e.writes := by
  cases hother : s.writesElsewhere with
  | false => exact elsewhere_not_mem hother h rfl
  | true =>
    cases s with
    | insertAttempt id delivery now =>
      simp only [exec] at h
      split_ifs at h
      cases h
      split <;> simp [read]
    | insertSends | generateUuid => cases hs
    | finishAttempt | reserveUpTo | releaseQuota | addSuppression =>
      cases h
      (repeat' split) <;> simp [read]
    | _ => cases hother

end Sql

lemma Db.nextUuid_store (db : Db) {w : Write} (h : ∀ n, w ≠ .uuid n) :
    (db.store w).nextUuid = db.nextUuid := by
  cases w with
  | uuid n => exact absurd rfl (h n)
  | _ => rfl

lemma Db.nextUuid_storeAll (db : Db) {ws : List Write} (h : ∀ n, .uuid n ∉ ws) :
    (db.storeAll ws).nextUuid = db.nextUuid := by
  induction ws generalizing db with
  | nil => rfl
  | cons w ws ih =>
    refine (ih (db.store w) fun n hn => h n (List.mem_cons_of_mem _ hn)).trans ?_
    exact db.nextUuid_store fun n heq => h n (heq ▸ List.mem_cons_self)

/-! ## What only goes on -/

/-- What stays of a delivery: its operation, its job, that it has counts, and a final state. -/
structure Delivery.Onward (d d' : Delivery) : Prop where
  operation : d'.operation = d.operation
  job : d'.jobId = d.jobId
  counts : d.directCounts ≠ none → d'.directCounts ≠ none
  final : d.state.isFinal = true → d'.state = d.state

/-- What stays of a recipient row, which is never queued again. -/
structure DirectSend.Onward (s s' : DirectSend) : Prop where
  delivery : s'.deliveryId = s.deliveryId
  contact : s'.contactId = s.contactId
  state : s.state ≠ .queued → s'.state ≠ .queued

lemma Delivery.Onward.refl (d : Delivery) : d.Onward d := ⟨rfl, rfl, id, fun _ => rfl⟩

lemma Delivery.Onward.trans {d d' d'' : Delivery} (h : d.Onward d') (h' : d'.Onward d'') :
    d.Onward d'' where
  operation := h'.operation.trans h.operation
  job := h'.job.trans h.job
  counts := fun hd => h'.counts (h.counts hd)
  final := fun hd => (h'.final (by rw [h.final hd]; exact hd)).trans (h.final hd)

lemma DirectSend.Onward.refl (s : DirectSend) : s.Onward s := ⟨rfl, rfl, id⟩

lemma DirectSend.Onward.trans {s s' s'' : DirectSend} (h : s.Onward s') (h' : s'.Onward s'') :
    s.Onward s'' :=
  ⟨h'.delivery.trans h.delivery, h'.contact.trans h.contact, fun hs => h'.state (h.state hs)⟩

lemma DirectSend.onward_set (u : SendUpdate) (s : DirectSend) : s.Onward (u.set s) := by
  cases u with
  | record batch result now => exact ⟨rfl, rfl, fun _ => by cases result <;> nofun⟩
  | cancel => exact ⟨rfl, rfl, fun _ => nofun⟩
  | _ => exact ⟨rfl, rfl, id⟩

/-- An update that forgets no counts. -/
lemma Delivery.onward_set {u : DeliveryUpdate} {d : Delivery} (happ : u.Applies d)
    (hu : u ≠ .setDirectCounts none) : d.Onward (u.set d) := by
  have hfinal : ∀ {s : StateName}, d.state = s → s.isFinal = false →
      d.state.isFinal = true → (u.set d).state = d.state := by
    rintro s rfl hs hd
    rw [hs] at hd
    cases hd
  cases u with
  | claim now leaseUntil => exact ⟨rfl, rfl, id, hfinal happ.1 rfl⟩
  | apply move data now =>
    refine ⟨rfl, rfl, fun hd => ?_, fun hd => ?_⟩
    · show (data.directCounts <|> d.directCounts) ≠ none
      cases data.directCounts with
      | none => exact hd
      | some c => nofun
    · rw [happ.1] at hd
      obtain ⟨event, hedge | ⟨hedge, -⟩⟩ := move.legal <;>
        exact absurd hedge (not_transition_of_isFinal hd)
  | recordLateReceipt receipt now => exact ⟨rfl, rfl, id, hfinal happ.1 rfl⟩
  | setDirectCounts counts =>
    refine ⟨rfl, rfl, fun _ => ?_, fun _ => rfl⟩
    rintro (rfl : counts = none)
    exact hu rfl
  | _ => exact ⟨rfl, rfl, id, fun _ => rfl⟩

/-! ## A statement -/

/-- What stays of a database: every row of a campaign goes on. -/
structure Db.Onward (db db' : Db) : Prop where
  next : db.nextUuid ≤ db'.nextUuid
  sends : ∀ id s, db.sends.lookup id = some s →
    ∃ s', db'.sends.lookup id = some s' ∧ s.Onward s'
  deliveries : ∀ id d, db.deliveries.lookup id = some d →
    ∃ d', db'.deliveries.lookup id = some d' ∧ d.Onward d'
  jobs : ∀ id j, db.jobs.lookup id = some j →
    ∃ j', db'.jobs.lookup id = some j' ∧ (j.cancelledAt ≠ none → j'.cancelledAt ≠ none)

/-- Nothing comes in besides. -/
structure Db.Quiet (db db' : Db) : Prop extends db.Onward db' where
  came : ∀ id s', db'.sends.lookup id = some s' → ∃ s, db.sends.lookup id = some s

/-- Whether the statement queues no audience and forgets no counts. -/
def Sql.isTame {β : Type} : Sql β → Bool
  | insertSends .. | setDirectCounts _ none => false
  | _ => true

section Statement

variable {db db' db'' : Db}

lemma Db.Onward.refl (db : Db) : db.Onward db :=
  ⟨le_rfl, fun _ s hs => ⟨s, hs, .refl s⟩, fun _ d hd => ⟨d, hd, .refl d⟩,
    fun _ j hj => ⟨j, hj, fun h => h⟩⟩

lemma Db.Onward.trans (h : db.Onward db') (h' : db'.Onward db'') : db.Onward db'' where
  next := h.next.trans h'.next
  sends := by
    intro id s hs
    obtain ⟨s', hs', hon⟩ := h.sends id s hs
    obtain ⟨s'', hs'', hon'⟩ := h'.sends id s' hs'
    exact ⟨s'', hs'', hon.trans hon'⟩
  deliveries := by
    intro id d hd
    obtain ⟨d', hd', hon⟩ := h.deliveries id d hd
    obtain ⟨d'', hd'', hon'⟩ := h'.deliveries id d' hd'
    exact ⟨d'', hd'', hon.trans hon'⟩
  jobs := by
    intro id j hj
    obtain ⟨j', hj', hon⟩ := h.jobs id j hj
    obtain ⟨j'', hj'', hon'⟩ := h'.jobs id j' hj'
    exact ⟨j'', hj'', hon' ∘ hon⟩

lemma Db.Quiet.refl (db : Db) : db.Quiet db := ⟨.refl db, fun _ s hs => ⟨s, hs⟩⟩

lemma Db.Quiet.trans (h : db.Quiet db') (h' : db'.Quiet db'') : db.Quiet db'' := by
  refine ⟨h.toOnward.trans h'.toOnward, fun id s hs => ?_⟩
  obtain ⟨s', hs'⟩ := h'.came id s hs
  exact h.came id s' hs'

variable {β : Type} {free : RowRef → Bool} {s : Sql β} {e : Effect β}

lemma Sql.nextUuid_le (h : s.exec free db = .ok e) :
    db.nextUuid ≤ (db.storeAll e.writes).nextUuid := by
  cases hs : s.makesUuids with
  | false => exact (db.nextUuid_storeAll (uuid_not_mem hs h)).ge
  | true =>
    cases s with
    | insertSends owner delivery audience =>
      cases h
      rw [Db.storeAll, List.foldl_append]
      exact Nat.le_add_right _ _
    | generateUuid =>
      cases h
      exact Nat.le_succ _
    | _ => cases hs

/-- A tame statement is quiet. -/
lemma Sql.quiet_of_isTame (hs : s.isTame = true) (h : s.exec free db = .ok e) :
    db.Quiet (db.storeAll e.writes) := by
  have hsound := Sql.exec_sound s h
  have hinserts : s.insertsSends = false := by
    cases s <;> first | rfl | cases hs
  have hforgets : s.deliveryUpdate? ≠ some (.setDirectCounts none) := by
    cases s with
    | setDirectCounts id counts =>
      cases counts with
      | none => cases hs
      | some counts => nofun
    | _ => nofun
  refine ⟨⟨Sql.nextUuid_le h, fun id s₀ hs₀ => ?_, fun id d hd => ?_, fun id j hj => ?_⟩,
    fun id s' hs' => ?_⟩
  · rcases db.storeAll_send e.writes id with ⟨row, hmem, hlook⟩ | ⟨-, hlook⟩
    · rcases hsound.sends id row hmem with ⟨r, u, hfound, -, rfl, -⟩ | ⟨-, _, _, _, -, hins⟩
      · obtain rfl := Option.some.inj (hs₀.symm.trans hfound)
        exact ⟨_, hlook, DirectSend.onward_set u s₀⟩
      · rw [hinserts] at hins
        cases hins
    · exact ⟨s₀, hlook.trans hs₀, .refl s₀⟩
  · rcases db.storeAll_delivery e.writes id with ⟨row, hmem, hlook⟩ | ⟨-, hlook⟩
    · rcases hsound.deliveries id row hmem with
        ⟨d₀, u, hfound, happ, rfl, hu⟩ | ⟨habsent, _, _, _, _, _, _, _, _, -, -, -⟩
      · obtain rfl := Option.some.inj (hd.symm.trans hfound)
        refine ⟨_, hlook, Delivery.onward_set happ ?_⟩
        rintro rfl
        exact hforgets hu
      · cases habsent.symm.trans hd
    · exact ⟨d, hlook.trans hd, .refl d⟩
  · rcases db.storeAll_job e.writes id with ⟨row, hmem, hlook⟩ | ⟨-, hlook⟩
    · rcases hsound.jobs id row hmem with ⟨j₀, u, hfound, rfl, -, -⟩ | ⟨habsent, -, -, -⟩
      · obtain rfl := Option.some.inj (hj.symm.trans hfound)
        refine ⟨_, hlook, fun hc => ?_⟩
        cases u with
        | cancel now actor =>
          show (j.cancelledAt <|> some now) ≠ none
          cases j.cancelledAt <;> nofun
        | _ => exact hc
      · cases habsent.symm.trans hj
    · exact ⟨j, hlook.trans hj, fun hc => hc⟩
  · rcases db.storeAll_send e.writes id with ⟨row, hmem, -⟩ | ⟨-, hlook⟩
    · rcases hsound.sends id row hmem with ⟨r, _, hfound, -, -, -⟩ | ⟨-, _, _, _, -, hins⟩
      · exact ⟨r, hfound⟩
      · rw [hinserts] at hins
        cases hins
    · exact ⟨s', hlook.symm.trans hs'⟩

end Statement

/-! ## Programs of tame statements -/

/-- A statement that queues no audience and forgets no counts is tame. -/
lemma Sql.isTame_of_special {β : Type} (s : Sql β) (hqueues : s.special? ≠ some .queuesAudience)
    (hforgets : s.special? ≠ some .forgetsCounts) : s.isTame = true := by
  cases s with
  | setDirectCounts id counts =>
    cases counts with
    | none => exact absurd rfl hforgets
    | some counts => rfl
  | insertSends => exact absurd rfl hqueues
  | _ => rfl

/-- Every statement the program may perform is tame. -/
def Tx.Tame {α : Type} (p : Tx α) : Prop := p.Only fun s => s.isTame = true

namespace Tx.Tame

variable {α β : Type}

/-- A plain program is tame. -/
lemma of_plain {p : Tx α} (hp : p.Plain) : Tame p :=
  hp.mono fun s hs => by
    rw [Sql.isPlain, Option.isNone_iff_eq_none] at hs
    exact s.isTame_of_special (by simp [hs]) (by simp [hs])

lemma done (a : α) : Tame (Prog.done a) := trivial

lemma fail (e : DataError) : Tame (Prog.fail e : Tx α) := trivial

lemma sql {s : Sql β} (h : s.isTame = true) : Tame (Data.sql s) := Prog.only_perform h

lemma bind {p : Tx α} {f : α → Tx β} (hp : Tame p) (hf : ∀ a, Tame (f a)) : Tame (p >>= f) :=
  Prog.only_bind hp hf

/-- A tame program that succeeds is quiet. -/
lemma quiet {p : Tx α} (hp : Tame p) {db db' : Db} {a : α} (h : Tx.run p db = .ok (a, db')) :
    db.Quiet db' := by
  induction p generalizing db with
  | done b =>
    obtain ⟨-, rfl⟩ := run_done_ok.1 h
    exact .refl _
  | fail e => exact absurd h (by simp)
  | act s k ih =>
    obtain ⟨b, db₁, hs, hk⟩ := run_bind_ok.1 (show run (Data.sql s >>= k) db = .ok (a, db') from h)
    obtain ⟨e, he, -, rfl⟩ := run_sql_ok.1 hs
    exact (Sql.quiet_of_isTame hp.1 he).trans (ih b (hp.2 b) hk)

end Tx.Tame

/-- Whether the operation queues no audience and forgets no counts. -/
def Op.isTame {β : Type} : Op β → Bool
  | .materialize .. | .startCampaign .. | .retry .. => false
  | _ => true

/-- **Every other operation is tame.** -/
lemma Op.tame {β : Type} {op : Op β} (h : op.isTame = true) : op.tx.Tame := by
  have hqueues : op.special? ≠ some .queuesAudience := by
    cases op <;> simp [special?, isTame] at h ⊢
  have hforgets : op.special? ≠ some .forgetsCounts := by
    cases op <;> simp [special?, isTame] at h ⊢
  refine op.among_special.mono fun s hs => ?_
  rcases hs with hplain | hsame
  · exact s.isTame_of_special (by simp [hplain]) (by simp [hplain])
  · exact s.isTame_of_special (hsame ▸ hqueues) (hsame ▸ hforgets)

/-! ## Queueing an audience -/

variable {db db' : Db}

/-- The recipient rows are under IDs given out, and a delivery has one for each contact at most. -/
structure Addressed (db : Db) : Prop where
  given : ∀ id s, db.sends.lookup id = some s → id < db.nextUuid
  once : ∀ i j s t c, db.sends.lookup i = some s → db.sends.lookup j = some t →
    s.deliveryId = t.deliveryId → s.contactId = some c → t.contactId = some c → i = j

lemma Addressed.quiet (h : Addressed db) (hquiet : db.Quiet db') : Addressed db' := by
  have hold : ∀ {id s'}, db'.sends.lookup id = some s' →
      ∃ s, db.sends.lookup id = some s ∧ s.Onward s' := by
    intro id s' hs'
    obtain ⟨s, hs⟩ := hquiet.came id s' hs'
    obtain ⟨s₁, hs₁, hon⟩ := hquiet.sends id s hs
    obtain rfl := Option.some.inj (hs₁.symm.trans hs')
    exact ⟨s, hs, hon⟩
  refine ⟨fun id s' hs' => ?_, fun i j s' t' c hs' ht' hdelivery hsc htc => ?_⟩
  · obtain ⟨s, hs, -⟩ := hold hs'
    exact (h.given id s hs).trans_le hquiet.next
  · obtain ⟨s, hs, hson⟩ := hold hs'
    obtain ⟨t, ht, hton⟩ := hold ht'
    refine h.once i j s t c hs ht ?_ (hson.contact ▸ hsc) (hton.contact ▸ htc)
    rw [← hson.delivery, ← hton.delivery]
    exact hdelivery

/-- An audience of the delivery came in: the rows that were there stay as they are. -/
structure Queues (delivery : DeliveryId) (db db' : Db) : Prop where
  addressed : Addressed db'
  next : db.nextUuid ≤ db'.nextUuid
  deliveries : ∀ id, db'.deliveries.lookup id = db.deliveries.lookup id
  jobs : ∀ id, db'.jobs.lookup id = db.jobs.lookup id
  kept : ∀ id s, db.sends.lookup id = some s → db'.sends.lookup id = some s
  came : ∀ id s', db'.sends.lookup id = some s' →
    (∃ s, db.sends.lookup id = some s) ∨ s'.deliveryId = delivery

/-- The writes that insert a row for each contact. -/
def audienceWrites (db : Db) (delivery : DeliveryId) (rows : List (ContactId × Contact)) :
    List Write :=
  (rows.zipIdx.map fun r => .send (db.nextUuid + r.2) (DirectSend.fresh delivery r.1.1 r.1.2)) ++
    [.uuid (db.nextUuid + rows.length)]

section Audience

variable {delivery : DeliveryId} {rows : List (ContactId × Contact)}

lemma of_mem_audienceWrites {id : DirectSendId} {row : DirectSend}
    (h : .send id row ∈ audienceWrites db delivery rows) :
    ∃ (i : ℕ) (c : ContactId × Contact), rows[i]? = some c ∧ id = db.nextUuid + i ∧
      row = DirectSend.fresh delivery c.1 c.2 := by
  rcases List.mem_append.mp h with hmem | hmem
  · obtain ⟨r, hr, heq⟩ := List.mem_map.mp hmem
    cases heq
    exact ⟨r.2, r.1, List.mem_zipIdx_iff_getElem?.mp hr, rfl, rfl⟩
  · simp at hmem

/-- A row is one of those that were there, or one of the new ones. -/
lemma of_lookup_audienceWrites {id : DirectSendId} {s : DirectSend}
    (h : (db.storeAll (audienceWrites db delivery rows)).sends.lookup id = some s) :
    db.sends.lookup id = some s ∨ ∃ (i : ℕ) (c : ContactId × Contact), rows[i]? = some c ∧
      id = db.nextUuid + i ∧ s = DirectSend.fresh delivery c.1 c.2 := by
  rcases db.storeAll_send (audienceWrites db delivery rows) id with ⟨row, hw, hlook⟩ | ⟨-, hlook⟩
  · obtain rfl := Option.some.inj (hlook.symm.trans h)
    exact .inr (of_mem_audienceWrites hw)
  · exact .inl (hlook.symm.trans h)

lemma nextUuid_audienceWrites :
    (db.storeAll (audienceWrites db delivery rows)).nextUuid = db.nextUuid + rows.length := by
  rw [audienceWrites, Db.storeAll, List.foldl_append]
  rfl

lemma Addressed.audience (h : Addressed db) (hnodup : (rows.map Prod.fst).Nodup)
    (hnew : ∀ c ∈ rows, ∀ id s, db.sends.lookup id = some s → s.deliveryId = delivery →
      s.contactId ≠ some c.1) :
    Addressed (db.storeAll (audienceWrites db delivery rows)) := by
  have hindex : ∀ {i j : ℕ} {c d : ContactId × Contact}, rows[i]? = some c → rows[j]? = some d →
      c.1 = d.1 → i = j := by
    intro i j c d hi hj hcd
    have hi' : (rows.map Prod.fst)[i]? = some c.1 := by rw [List.getElem?_map, hi]; rfl
    have hj' : (rows.map Prod.fst)[j]? = some c.1 := by rw [List.getElem?_map, hj, hcd]; rfl
    obtain ⟨hlt, -⟩ := List.getElem?_eq_some_iff.mp hi'
    exact (List.getElem?_inj hlt hnodup).mp (hi'.trans hj'.symm)
  refine ⟨fun id s hs => ?_, fun i j s t c hs ht hdelivery hsc htc => ?_⟩
  · rw [nextUuid_audienceWrites]
    rcases of_lookup_audienceWrites hs with hold | ⟨i, c, hi, rfl, -⟩
    · exact (h.given id s hold).trans_le (Nat.le_add_right _ _)
    · exact Nat.add_lt_add_left (List.getElem?_eq_some_iff.mp hi).1 _
  · rcases of_lookup_audienceWrites hs with hold | ⟨k, a, hk, rfl, rfl⟩ <;>
      rcases of_lookup_audienceWrites ht with hold' | ⟨l, b, hl, rfl, rfl⟩
    · exact h.once i j s t c hold hold' hdelivery hsc htc
    · obtain rfl := Option.some.inj htc
      exact absurd hsc (hnew b (List.mem_of_getElem? hl) i s hold hdelivery)
    · obtain rfl := Option.some.inj hsc
      exact absurd htc (hnew a (List.mem_of_getElem? hk) j t hold' hdelivery.symm)
    · rw [hindex hk hl (Option.some.inj (hsc.trans htc.symm))]

lemma Queues.audience (h : Addressed db) (hnodup : (rows.map Prod.fst).Nodup)
    (hnew : ∀ c ∈ rows, ∀ id s, db.sends.lookup id = some s → s.deliveryId = delivery →
      s.contactId ≠ some c.1) :
    Queues delivery db (db.storeAll (audienceWrites db delivery rows)) := by
  refine ⟨h.audience hnodup hnew, ?_, fun id => ?_, fun id => ?_, fun id s hs => ?_,
    fun id s hs => ?_⟩
  · rw [nextUuid_audienceWrites]
    exact Nat.le_add_right _ _
  · rcases db.storeAll_delivery (audienceWrites db delivery rows) id with ⟨row, hw, -⟩ | ⟨-, hlook⟩
    · simp [audienceWrites] at hw
    · exact hlook
  · rcases db.storeAll_job (audienceWrites db delivery rows) id with ⟨row, hw, -⟩ | ⟨-, hlook⟩
    · simp [audienceWrites] at hw
    · exact hlook
  · rcases db.storeAll_send (audienceWrites db delivery rows) id with ⟨row, hw, -⟩ | ⟨-, hlook⟩
    · obtain ⟨i, c, -, rfl, -⟩ := of_mem_audienceWrites hw
      exact absurd (h.given _ s hs) (Nat.le_add_right _ _).not_gt
    · exact hlook.trans hs
  · rcases of_lookup_audienceWrites hs with hold | ⟨i, c, -, -, rfl⟩
    · exact .inl ⟨s, hold⟩
    · exact .inr rfl

end Audience

lemma insertSends_ok (h : Addressed db) {owner : UserId} {delivery : DeliveryId}
    {audience : Audience} {n : ℕ}
    (hrun : Tx.run (sql (.insertSends owner delivery audience)) db = .ok (n, db')) :
    Queues delivery db db' := by
  obtain ⟨e, he, -, rfl⟩ := Tx.run_sql_ok.mp hrun
  cases he
  refine Queues.audience h ?_ fun c hc id s hs hdelivery hcontact => ?_
  · have hnodup : ((Sql.audienceContacts db owner audience).map Prod.fst).Nodup :=
      Table.nodup_selectFirst _ _ _ _
    exact hnodup.sublist (List.filter_sublist.map _)
  · have hnone := (List.mem_filter.mp hc).2
    rw [Bool.not_eq_true', Table.exists?_eq_false] at hnone
    simpa [hdelivery, hcontact] using hnone id s hs

/-- **What queueing does.**  A delivery with counts is left as it is; one without gets its audience
and counts. -/
lemma DirectRepo.materialize_ok (h : Addressed db) {delivery : ClaimedDelivery}
    {audience : Audience} {now : Time} {n : ℕ}
    (hrun : Tx.run (materialize delivery audience now) db = .ok (n, db')) :
    db' = db ∨ ∃ d db₁, db.deliveries.lookup delivery.id = some d ∧ d.directCounts = none ∧
      Queues delivery.id db db₁ ∧ db₁.Quiet db' ∧
      ∃ d', db'.deliveries.lookup delivery.id = some d' ∧ d'.directCounts ≠ none := by
  simp only [materialize, Tx.run_bind_ok, Tx.run_orFail_ok] at hrun
  obtain ⟨o, _, hlock, counts, db₀, ⟨rfl, rfl⟩, hrun⟩ := hrun
  have hlocked : db₀ = db ∧ ∃ d, db.deliveries.lookup delivery.id = some d ∧
      d.directCounts = counts := by
    simp only [Tx.run_sql_ok, Sql.exec, Except.ok.injEq, exists_eq_left'] at hlock
    obtain ⟨hcounts, rfl⟩ := hlock
    cases hd : db.deliveries.lookup delivery.id with
    | none =>
      rw [hd] at hcounts
      cases hcounts
    | some d =>
      rw [hd] at hcounts
      exact ⟨rfl, d, rfl, (Option.some.inj hcounts).symm⟩
  obtain ⟨rfl, d, hd, rfl⟩ := hlocked
  cases hcounts : d.directCounts with
  | some existing =>
    rw [hcounts] at hrun
    exact .inl (Tx.run_done_ok.mp hrun).2
  | none =>
    rw [hcounts] at hrun
    simp only [Tx.run_bind_ok, Prog.pure_eq, Tx.run_done_ok] at hrun
    obtain ⟨inserted, db₁, hinsert, _, db₂, hset, _, db₃, htouch, -, rfl⟩ := hrun
    have hqueues := insertSends_ok h hinsert
    have htouched := (Tx.Tame.of_plain (.touchJob _ _)).quiet htouch
    have hd₁ := (hqueues.deliveries delivery.id).trans hd
    have hset₂ : db₂ = db₁.setDelivery delivery.id
        ((DeliveryUpdate.setDirectCounts
          (some { audience := inserted, queued := inserted })).set d) := by
      simp only [Tx.run_sql_ok, Sql.exec, Sql.updateDelivery, hd₁, Except.ok.injEq,
        exists_eq_left'] at hset
      exact hset.2
    obtain ⟨d', hd', hon⟩ := htouched.deliveries delivery.id _ (by
      rw [hset₂]
      exact AList.lookup_insert _)
    exact .inr ⟨d, db₁, hd, hcounts, hqueues, ((Tx.Tame.sql rfl).quiet hset).trans htouched, d',
      hd', hon.counts (Option.some_ne_none _)⟩

end Postit.Data
