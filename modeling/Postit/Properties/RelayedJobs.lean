import Postit.Framework.Pool
import Postit.Framework.Trace
import Postit.Jobs.Relay

/-!
# Jobs between the outbox and the storage

At every committed state a job that was enqueued and not cancelled or killed is in exactly one of
the outbox and the storage, and in the storage once (`relay_exact`).  A drain during which nothing
is enqueued ends, and leaves of its types only the rows the storage refused, another relay holds or
a console cancel under way has locked; a row of the last kind may be left by a drain that nobody
else runs beside (`cancel_holds_back`).
-/

namespace Postit.Jobs

open Postit.Framework

/-! ## What the job system does to the outbox -/

namespace Ledger

/-- New jobs are in the outbox, and a row that goes is of a job cancelled or killed. -/
structure OutboxMoves (s t : Ledger) : Prop where
  next : s.nextId ≤ t.nextId
  news : ∀ id, s.nextId ≤ id → id < t.nextId → ∃ o, t.outbox.lookup id = some o
  olds : ∀ id, id < s.nextId ∨ t.nextId ≤ id → t.outbox.lookup id = s.outbox.lookup id ∨
    (t.outbox.lookup id = none ∧ ∃ j, t.jobs.lookup id = some j ∧ j.state.isRevoked)

variable {s t u : Ledger}

lemma OutboxMoves.of_same (hnext : t.nextId = s.nextId) (houtbox : t.outbox = s.outbox) :
    s.OutboxMoves t :=
  ⟨hnext.ge, fun _ hge hlt => absurd (hnext ▸ hlt) hge.not_gt, fun _ _ => .inl (houtbox ▸ rfl)⟩

lemma OutboxMoves.enqueue (h : s.OutboxMoves t) (now : Time) (jobType : String) (runAt : Time)
    (retriedFrom : Option JobId) :
    s.OutboxMoves (t.enqueue now jobType runAt retriedFrom).1 := by
  refine ⟨h.next.trans (Nat.le_succ _), fun id hge hlt => ?_, fun id hid => ?_⟩
  · by_cases hnew : id = t.nextId
    · subst hnew
      exact ⟨_, AList.lookup_insert _⟩
    · obtain ⟨o, ho⟩ := h.news id hge (lt_of_le_of_ne (Nat.le_of_lt_succ hlt) hnew)
      exact ⟨o, (AList.lookup_insert_ne hnew).trans ho⟩
  · have hnext := h.next
    have hnew : id ≠ t.nextId := by
      rcases hid with hlt | hge
      · exact (hlt.trans_le hnext).ne
      · exact (Nat.lt_of_succ_le hge).ne'
    have hold : id < s.nextId ∨ t.nextId ≤ id := hid.imp_right (Nat.le_of_succ_le ·)
    rcases h.olds id hold with hsame | ⟨hnone, j, hj, hrevoked⟩
    · exact .inl ((AList.lookup_insert_ne hnew).trans hsame)
    · exact .inr ⟨(AList.lookup_insert_ne hnew).trans hnone, j,
        (AList.lookup_insert_ne hnew).trans hj, hrevoked⟩

lemma retire_outboxMoves {now : Time} {id : JobId} {refusal : String}
    (h : Console.retire s now id refusal = .ok t) :
    s.OutboxMoves t ∧ t.nextId = s.nextId := by
  unfold Console.retire Ledger.cancel at h
  split_ifs at h with hwaits
  · obtain rfl := Except.ok.inj h
    obtain ⟨j, hj, -⟩ := (Option.any_eq_true _ _).mp hwaits
    refine ⟨⟨le_rfl, fun _ hge hlt => absurd hlt hge.not_gt, fun k _ => ?_⟩, rfl⟩
    by_cases hk : k = id
    · subst hk
      refine .inr ⟨AList.lookup_erase _ _,
        { j with state := .cancelled, finishedAt := some now }, ?_, rfl⟩
      show (s.jobs.updateWhere _ _).lookup k = _
      rw [Table.lookup_updateWhere, hj]
      simp
    · exact .inl (AList.lookup_erase_ne hk)

lemma killUnregistered_outboxMoves (now : Time) (registered : List String) (dueBefore : Time) :
    s.OutboxMoves (s.killUnregistered now registered dueBefore).1 := by
  refine ⟨le_rfl, fun _ hge hlt => absurd hlt hge.not_gt, fun id _ => ?_⟩
  have houtbox : (s.killUnregistered now registered dueBefore).1.outbox.lookup id = _ :=
    Table.lookup_deleteWhere ..
  have hjobs : (s.killUnregistered now registered dueBefore).1.jobs.lookup id = _ :=
    Table.lookup_updateWhere ..
  rw [houtbox, hjobs]
  cases hj : s.jobs.lookup id with
  | none =>
    left
    cases s.outbox.lookup id <;> rfl
  | some j =>
    rw [Option.map_some, Option.any_some]
    split_ifs with hgone
    · refine .inr ⟨?_, _, rfl, rfl⟩
      rw [hgone]
      cases s.outbox.lookup id <;> rfl
    · rw [eq_false_of_ne_true hgone]
      left
      cases s.outbox.lookup id <;> rfl

end Ledger

/-- Whether the event enqueues a job. -/
def Event.inserts : Event → Bool
  | .enqueue _ _ _ | .retry _ _ _ => true
  | _ => false

namespace System

variable {w : Worker} {s t : System} {e : Event}

lemma outboxMoves_of_perform (h : s.perform w e = some t) (hrelay : ∀ id, e ≠ .relay id) :
    s.ledger.OutboxMoves t.ledger ∧ (e.inserts = false → t.ledger.nextId = s.ledger.nextId) := by
  have hsame : ∀ {l : Ledger}, l.nextId = s.ledger.nextId → l.outbox = s.ledger.outbox →
      s.ledger.OutboxMoves l ∧ (e.inserts = false → l.nextId = s.ledger.nextId) :=
    fun hnext houtbox => ⟨.of_same hnext houtbox, fun _ => hnext⟩
  cases e with
  | enqueue now jobType runAt =>
    obtain rfl := Option.some.inj h
    have hstart : s.ledger.OutboxMoves s.ledger := .of_same rfl rfl
    exact ⟨hstart.enqueue now jobType runAt none, fun h => nomatch h⟩
  | relay id => exact absurd rfl (hrelay id)
  | fetch id jobType =>
    obtain rfl := Option.some.inj h
    exact hsame rfl rfl
  | start i now worker maxAttempts answered =>
    simp only [perform] at h
    split at h
    case h_2 => cases h
    case h_1 id jobType hi =>
      obtain rfl := Option.some.inj h
      have hbegin : ∀ l b, s.ledger.beginAttempt now id 0 worker maxAttempts = (l, b) →
          l.nextId = s.ledger.nextId ∧ l.outbox = s.ledger.outbox := by
        intro l b hb
        unfold Ledger.beginAttempt at hb
        split at hb
        · cases hb
          exact ⟨rfl, rfl⟩
        · split at hb <;> cases hb <;> exact ⟨rfl, rfl⟩
      obtain ⟨hnext, houtbox⟩ := hbegin _ _ rfl
      exact hsame hnext houtbox
  | dispatch i clock dispatched =>
    simp only [perform] at h
    split at h
    case h_2 => cases h
    case h_1 =>
      obtain rfl := Option.some.inj h
      exact hsame rfl rfl
  | close i now answered =>
    simp only [perform] at h
    split at h
    case h_2 => cases h
    case h_1 id n write retries hi =>
      obtain rfl := Option.some.inj h
      have hcommit : (write.commit s.ledger now id n).1.nextId = s.ledger.nextId ∧
          (write.commit s.ledger now id n).1.outbox = s.ledger.outbox := by
        cases write with
        | finish f =>
          simp only [Closing.commit, Ledger.finishAttempt]
          split_ifs <;> exact ⟨rfl, rfl⟩
        | requeue runAt =>
          simp only [Closing.commit, Ledger.requeueAttempt]
          split_ifs <;> exact ⟨rfl, rfl⟩
      exact hsame hcommit.1 hcommit.2
  | fail i =>
    simp only [perform] at h
    split at h
    case h_2 => cases h
    case h_1 =>
      obtain rfl := Option.some.inj h
      exact hsame rfl rfl
  | lose i =>
    obtain rfl := Option.some.inj h
    exact hsame rfl rfl
  | retry now clock id =>
    obtain ⟨⟨l, new⟩, hr, rfl⟩ := Option.map_eq_some_iff.mp h
    obtain ⟨row, -, hr⟩ := bind_eq_ok (ok_of_toOption hr)
    obtain ⟨-, -, hr⟩ := bind_eq_ok hr
    obtain ⟨u, hu, hr⟩ := bind_eq_ok hr
    have hretired : s.ledger.OutboxMoves u := by
      unfold Console.retirePending at hu
      split_ifs at hu
      · exact (Ledger.retire_outboxMoves hu).1
      · obtain rfl := Except.ok.inj hu
        exact .of_same rfl rfl
    obtain rfl : (u.enqueue now row.jobType clock (some id)).1 = l :=
      congrArg Prod.fst (Except.ok.inj hr)
    exact ⟨hretired.enqueue now row.jobType clock (some id), fun h => nomatch h⟩
  | cancel now id =>
    obtain ⟨l, hr, rfl⟩ := Option.map_eq_some_iff.mp h
    obtain ⟨row, -, hr⟩ := bind_eq_ok (ok_of_toOption hr)
    obtain ⟨-, -, hr⟩ := bind_eq_ok hr
    obtain ⟨hmoves, hnext⟩ := Ledger.retire_outboxMoves hr
    exact ⟨hmoves, fun _ => hnext⟩
  | delete id =>
    obtain ⟨l, hr, rfl⟩ := Option.map_eq_some_iff.mp h
    obtain ⟨row, -, hr⟩ := bind_eq_ok (ok_of_toOption hr)
    obtain ⟨-, -, hr⟩ := bind_eq_ok hr
    split at hr
    case h_1 => cases hr
    case h_2 u hu =>
      obtain rfl := Except.ok.inj hr
      have hnext : (s.ledger.deleteFinished id).1.nextId = s.ledger.nextId := rfl
      have houtbox : (s.ledger.deleteFinished id).1.outbox = s.ledger.outbox := rfl
      rw [hu] at hnext houtbox
      exact hsame hnext houtbox
  | killStrandedRunning now startedBefore =>
    obtain rfl := Option.some.inj h
    exact hsame rfl rfl
  | killOrphaned now ids dueBefore =>
    obtain rfl := Option.some.inj h
    exact hsame rfl rfl
  | killUnregistered now registered dueBefore =>
    obtain rfl := Option.some.inj h
    exact ⟨Ledger.killUnregistered_outboxMoves now registered dueBefore, fun _ => rfl⟩
  | purgeFinished succeededBefore failedBefore =>
    obtain rfl := Option.some.inj h
    exact hsame rfl rfl

end System

/-! ## What a relay keeps -/

/-- The rows still to be gone through, the row pushed and not yet deleted, and what the transaction
wrote. -/
def Relay.inTx (r : Relay) : Option (List (JobId × OutboxRow) × Option JobId × Tx) :=
  match r.phase with
  | .push rows tx | .record _ _ rows tx => some (rows, none, tx)
  | .delete id _ rows tx => some (rows, some id, tx)
  | .claim | .done | .lost => none

/-- Every claimed row is still to come, refused, or stored, and what is stored is deleted. -/
structure Relay.TxOk (r : Relay) (rows : List (JobId × OutboxRow)) (current : Option JobId)
    (tx : Tx) : Prop where
  nodup : (rows.map Prod.fst).Nodup
  ahead : ∀ row ∈ rows, row.1 ∈ tx.claimed ∧ row.2.jobType ∈ r.jobTypes ∧ row.1 ∉ r.tried
  tried : ∀ id ∈ tx.stored, id ∈ tx.claimed ∧ id ∈ r.tried
  storedNodup : tx.stored.Nodup
  deleted : ∀ id, id ∈ tx.stored ↔ id ∈ tx.deleted ∨ current = some id
  through : ∀ id ∈ tx.claimed, (∃ row ∈ rows, row.1 = id) ∨ id ∈ r.rejected ∨ id ∈ tx.stored

/-- The relay holds rows of its types, and has tried no row that it could claim again. -/
structure Relay.Ok (r : Relay) (l : Ledger) : Prop where
  claimed : ∀ id ∈ r.held, ∃ o, l.outbox.lookup id = some o ∧ o.jobType ∈ r.jobTypes
  nodup : r.tried.Nodup
  tried : r.phase ≠ .lost → ∀ id ∈ r.tried, id < l.nextId ∧
    (id ∈ r.rejected ∨ id ∈ r.held ∨ l.outbox.lookup id = none)
  tx : ∀ rows current tx, r.inTx = some (rows, current, tx) → r.TxOk rows current tx

namespace Relay

variable {r : Relay} {l l' : Ledger}

lemma Ok.mono (h : r.Ok l) (hnext : l.nextId ≤ l'.nextId)
    (hheld : ∀ id ∈ r.held, l'.outbox.lookup id = l.outbox.lookup id)
    (hgone : ∀ id, id < l.nextId → l.outbox.lookup id = none → l'.outbox.lookup id = none) :
    r.Ok l' := by
  refine ⟨fun id hid => ?_, h.nodup, fun hphase id hid => ?_, h.tx⟩
  · rw [hheld id hid]
    exact h.claimed id hid
  · obtain ⟨hlt, hwhere⟩ := h.tried hphase id hid
    exact ⟨hlt.trans_le hnext, hwhere.imp_right (Or.imp_right (hgone id hlt))⟩

/-- The drain ends or stops. -/
lemma Ok.leave {p : Phase} (h : r.Ok l) (hp : p = .lost ∨ (p = .done ∧ r.phase = .claim)) :
    ({ r with phase := p } : Relay).Ok l := by
  rcases hp with rfl | ⟨rfl, hclaim⟩
  · exact ⟨(fun _ hid => nomatch hid), h.nodup, fun hphase => absurd rfl hphase,
      fun _ _ _ htx => nomatch htx⟩
  · have hheld : r.held = [] := by
      rw [held, hclaim]
    refine ⟨(fun _ hid => nomatch hid), h.nodup, fun _ id hid => ?_,
      fun _ _ _ htx => nomatch htx⟩
    have htried := h.tried (by simp [hclaim]) id hid
    rw [hheld] at htried
    exact htried

variable {id : JobId} {row : OutboxRow} {rows : List (JobId × OutboxRow)} {tx : Tx}
  {maxAttempts : Option ℕ}

/-- The next row is pushed. -/
lemma Ok.next (h : r.Ok l) (hphase : r.phase = .push ((id, row) :: rows) tx) :
    id ∈ tx.claimed ∧ row.jobType ∈ r.jobTypes ∧ id ∉ r.tried ∧ id ∉ tx.stored ∧
      id ∉ rows.map Prod.fst := by
  have htx := h.tx _ _ _ (by rw [inTx, hphase])
  obtain ⟨hclaimed, htype, htried⟩ := htx.ahead _ List.mem_cons_self
  exact ⟨hclaimed, htype, htried, fun hstored => htried (htx.tried id hstored).2,
    (List.nodup_cons.mp htx.nodup).1⟩

lemma nodup_concat {ids : List JobId} (h : ids.Nodup) (hid : id ∉ ids) : (ids ++ [id]).Nodup :=
  List.nodup_append.mpr ⟨h, List.nodup_singleton id, fun a ha b hb hab => by
    rw [List.mem_singleton] at hb
    exact hid (hb ▸ hab ▸ ha)⟩

/-- What a push notes, whatever comes of it. -/
lemma Ok.pushed {r' : Relay} (h : r.Ok l) (hphase : r.phase = .push ((id, row) :: rows) tx)
    (hfresh : ∀ id o, l.outbox.lookup id = some o → id < l.nextId)
    (htypes : r'.registry = r.registry) (htried : r'.tried = r.tried ++ [id])
    (hrejected : ∀ id ∈ r.rejected, id ∈ r'.rejected) (hheld : r'.held = tx.claimed)
    (htx : ∀ rows current tx, r'.inTx = some (rows, current, tx) → r'.TxOk rows current tx) :
    r'.Ok l := by
  obtain ⟨hclaimed, -, hnew, -, -⟩ := h.next hphase
  have hheldr : r.held = tx.claimed := by
    rw [held, hphase]
  have htypes : r'.jobTypes = r.jobTypes := by
    rw [jobTypes, jobTypes, htypes]
  refine ⟨fun k hk => ?_, ?_, fun _ k hk => ?_, htx⟩
  · rw [htypes]
    exact h.claimed k (hheldr ▸ hheld ▸ hk)
  · rw [htried]
    exact nodup_concat h.nodup hnew
  · rw [htried, List.mem_append, List.mem_singleton] at hk
    rw [hheld]
    rcases hk with hk | rfl
    · obtain ⟨hlt, hwhere⟩ := h.tried (by simp [hphase]) k hk
      exact ⟨hlt, hwhere.imp (hrejected k) (Or.imp_left (hheldr ▸ ·))⟩
    · obtain ⟨o, ho, -⟩ := h.claimed k (hheldr ▸ hclaimed)
      exact ⟨hfresh k o ho, .inr (.inl hclaimed)⟩

/-- The storage refuses the row. -/
lemma Ok.refuse (h : r.Ok l) (hphase : r.phase = .push ((id, row) :: rows) tx)
    (hfresh : ∀ id o, l.outbox.lookup id = some o → id < l.nextId) :
    ({ r with
        tried := r.tried ++ [id], rejected := r.rejected ++ [id],
        phase := .push rows tx } : Relay).Ok l := by
  obtain ⟨-, -, -, -, hrows⟩ := h.next hphase
  have htx := h.tx _ _ _ (by rw [inTx, hphase])
  refine h.pushed hphase hfresh rfl rfl (fun k hk => List.mem_append_left _ hk) rfl ?_
  rintro _ _ _ ⟨⟩
  refine ⟨(List.nodup_cons.mp htx.nodup).2, fun r' hr' => ?_, fun k hk => ?_, htx.storedNodup,
    htx.deleted, fun k hk => ?_⟩
  · obtain ⟨hclaimed, htype, htried⟩ := htx.ahead r' (List.mem_cons_of_mem _ hr')
    refine ⟨hclaimed, htype, fun hk => ?_⟩
    rcases List.mem_append.mp hk with hk | hk
    · exact htried hk
    · exact hrows (List.mem_map.mpr ⟨r', hr', List.mem_singleton.mp hk⟩)
  · exact ⟨(htx.tried k hk).1, List.mem_append_left _ (htx.tried k hk).2⟩
  · rcases htx.through k hk with ⟨r', hr', rfl⟩ | hrejected | hstored
    · rcases List.mem_cons.mp hr' with rfl | hr'
      · exact .inr (.inl (List.mem_append_right _ (List.mem_singleton.mpr rfl)))
      · exact .inl ⟨r', hr', rfl⟩
    · exact .inr (.inl (List.mem_append_left _ hrejected))
    · exact .inr (.inr hstored)

/-- The storage takes the row. -/
lemma Ok.store (h : r.Ok l) (hphase : r.phase = .push ((id, row) :: rows) tx)
    (hfresh : ∀ id o, l.outbox.lookup id = some o → id < l.nextId) :
    ({ r with
        tried := r.tried ++ [id],
        phase := .delete id maxAttempts rows { tx with stored := tx.stored ++ [id] } } : Relay).Ok
      l := by
  obtain ⟨hclaimed, -, -, hstored, hrows⟩ := h.next hphase
  have htx := h.tx _ _ _ (by rw [inTx, hphase])
  refine h.pushed hphase hfresh rfl rfl (fun k hk => hk) rfl ?_
  rintro _ _ _ ⟨⟩
  refine ⟨(List.nodup_cons.mp htx.nodup).2, fun r' hr' => ?_, fun k hk => ?_,
    nodup_concat htx.storedNodup hstored, fun k => ?_, fun k hk => ?_⟩
  · obtain ⟨hclaimed, htype, htried⟩ := htx.ahead r' (List.mem_cons_of_mem _ hr')
    refine ⟨hclaimed, htype, fun hk => ?_⟩
    rcases List.mem_append.mp hk with hk | hk
    · exact htried hk
    · exact hrows (List.mem_map.mpr ⟨r', hr', List.mem_singleton.mp hk⟩)
  · rcases List.mem_append.mp hk with hk | hk
    · exact ⟨(htx.tried k hk).1, List.mem_append_left _ (htx.tried k hk).2⟩
    · obtain rfl := List.mem_singleton.mp hk
      exact ⟨hclaimed, List.mem_append_right _ hk⟩
  · rw [List.mem_append, List.mem_singleton, htx.deleted]
    simp [eq_comm]
  · rcases htx.through k hk with ⟨r', hr', rfl⟩ | hrejected | hstored
    · rcases List.mem_cons.mp hr' with rfl | hr'
      · exact .inr (.inr (List.mem_append_right _ (List.mem_singleton.mpr rfl)))
      · exact .inl ⟨r', hr', rfl⟩
    · exact .inr (.inl hrejected)
    · exact .inr (.inr (List.mem_append_left _ hstored))

/-- The transaction goes on with the same rows claimed. -/
lemma Ok.goOn {tx' : Tx} {p : Phase} (h : r.Ok l) (current : Option JobId) (tx : Tx)
    (hphase : r.inTx = some (rows, current, tx)) (hheld : r.held = tx.claimed)
    (hp : ({ r with phase := p } : Relay).inTx = some (rows, none, tx'))
    (hheld' : ({ r with phase := p } : Relay).held = tx.claimed)
    (hclaimed : tx'.claimed = tx.claimed) (hstored : tx'.stored = tx.stored)
    (hdeleted : ∀ id, id ∈ tx'.deleted ↔ id ∈ tx.deleted ∨ current = some id) :
    ({ r with phase := p } : Relay).Ok l := by
  have htx := h.tx _ _ _ hphase
  have hlost : r.phase ≠ .lost := by
    intro hlost
    rw [inTx, hlost] at hphase
    cases hphase
  refine ⟨fun k hk => h.claimed k ?_, h.nodup, fun _ k hk => ?_, fun rows' current' tx'' hin => ?_⟩
  · rw [hheld, ← hheld']
    exact hk
  · rw [hheld', ← hheld]
    exact h.tried hlost k hk
  · obtain ⟨rfl, rfl, rfl⟩ : rows = rows' ∧ none = current' ∧ tx' = tx'' := by
      simpa using hp.symm.trans hin
    refine ⟨htx.nodup, ?_, ?_, ?_, fun k => ?_, ?_⟩
    · rw [hclaimed]
      exact htx.ahead
    · rw [hclaimed, hstored]
      exact htx.tried
    · rw [hstored]
      exact htx.storedNodup
    · rw [hstored, htx.deleted, hdeleted]
      simp
    · rw [hclaimed, hstored]
      exact htx.through

end Relay

/-! ## What the world keeps -/

namespace World

structure Inv (s : World) : Prop where
  fresh : ∀ id o, s.outbox.lookup id = some o → id < s.system.ledger.nextId
  storedFresh : ∀ id ∈ s.stored, id < s.system.ledger.nextId
  once : s.stored.Nodup
  apart : ∀ id ∈ s.stored, s.outbox.lookup id = none
  placed : ∀ id, id < s.system.ledger.nextId → id ∉ s.revoked →
    id ∈ s.stored ∨ ∃ o, s.outbox.lookup id = some o
  relays : ∀ (i : ℕ) r, s.relays[i]? = some r → r.Ok s.system.ledger
  disjoint : ∀ (i j : ℕ) r r' id, s.relays[i]? = some r → s.relays[j]? = some r' →
    id ∈ r.held → id ∈ r'.held → i = j

variable {s t : World} {i : ℕ} {r r' : Relay} {w : Worker}

lemma mem_held {id : JobId} :
    id ∈ s.held ↔ ∃ (i : ℕ) (r : Relay), s.relays[i]? = some r ∧ id ∈ r.held := by
  rw [held, List.mem_flatMap]
  constructor
  · rintro ⟨r, hr, hid⟩
    obtain ⟨i, hi⟩ := List.mem_iff_getElem?.mp hr
    exact ⟨i, r, hi, hid⟩
  · rintro ⟨i, r, hi, hid⟩
    exact ⟨r, List.mem_of_getElem? hi, hid⟩

/-- A relay goes on, with rows that no other one holds. -/
lemma Inv.goOn (h : s.Inv) (hok : r'.Ok s.system.ledger)
    (hfree : ∀ (j : ℕ) r id, j ≠ i → s.relays[j]? = some r → id ∈ r'.held → id ∉ r.held) :
    (s.goOn i r').Inv := by
  refine ⟨h.fresh, h.storedFresh, h.once, h.apart, h.placed, fun j t ht => ?_,
    fun j k t t' id ht ht' hid hid' => ?_⟩
  · rcases of_getElem?_set ht with ⟨rfl, rfl⟩ | ⟨-, hold⟩
    · exact hok
    · exact h.relays j t hold
  · rcases of_getElem?_set ht with ⟨rfl, rfl⟩ | ⟨hj, hold⟩
    · rcases of_getElem?_set ht' with ⟨rfl, rfl⟩ | ⟨hk, hold'⟩
      · rfl
      · exact absurd hid' (hfree k t' id hk hold' hid)
    · rcases of_getElem?_set ht' with ⟨rfl, rfl⟩ | ⟨hk, hold'⟩
      · exact absurd hid (hfree j t id hj hold hid')
      · exact h.disjoint j k t t' id hold hold' hid hid'

lemma Inv.goOn_same (h : s.Inv) (hi : s.relays[i]? = some r) (hok : r'.Ok s.system.ledger)
    (hheld : ∀ id ∈ r'.held, id ∈ r.held) : (s.goOn i r').Inv :=
  h.goOn hok fun j t id hj ht hid hid' =>
    hj (h.disjoint j i t r id ht hi hid' (hheld id hid))

/-- What the claim of a batch locks. -/
lemma of_mem_claimBatch {row : JobId × OutboxRow} (hrow : row ∈ s.claimBatch r) :
    s.outbox.lookup row.1 = some row.2 ∧ row.2.jobType ∈ r.jobTypes ∧ row.1 ∉ r.rejected ∧
      row.1 ∉ s.held ∧ row.1 ∉ s.locked := by
  obtain ⟨hlookup, hp⟩ := Table.mem_of_mem_selectFirst (k := row.1) (r := row.2) hrow
  exact ⟨hlookup, of_decide_eq_true hp⟩

lemma Inv.claim (h : s.Inv) (hi : s.relays[i]? = some r) (hphase : r.phase = .claim) :
    (s.goOn i { r with
      phase := .push (s.claimBatch r) { claimed := (s.claimBatch r).map Prod.fst } }).Inv := by
  have hok := h.relays i r hi
  have hheld : r.held = [] := by
    rw [Relay.held, hphase]
  refine h.goOn ⟨fun id hid => ?_, hok.nodup, fun _ id hid => ?_, ?_⟩
    fun j t id _ ht hid hid' => ?_
  · obtain ⟨row, hrow, rfl⟩ := List.mem_map.mp hid
    obtain ⟨ho, htype, -⟩ := of_mem_claimBatch hrow
    exact ⟨row.2, ho, htype⟩
  · obtain ⟨hlt, hwhere⟩ := hok.tried (by simp [hphase]) id hid
    rw [hheld] at hwhere
    exact ⟨hlt, hwhere.imp_right (Or.imp_left fun hid => nomatch hid)⟩
  · rintro _ _ _ ⟨⟩
    refine ⟨Table.nodup_selectFirst _ _ _ _, fun row hrow => ?_, (fun _ hid => nomatch hid),
      List.nodup_nil, fun id => by simp, fun id hid => ?_⟩
    · obtain ⟨ho, htype, hrejected, -⟩ := of_mem_claimBatch hrow
      refine ⟨List.mem_map_of_mem hrow, htype, fun htried => ?_⟩
      obtain ⟨-, hwhere⟩ := hok.tried (by simp [hphase]) row.1 htried
      rw [hheld] at hwhere
      rcases hwhere with hrej | hnone | hgone
      · exact hrejected hrej
      · cases hnone
      · cases ho.symm.trans hgone
    · obtain ⟨row, hrow, rfl⟩ := List.mem_map.mp hid
      exact .inl ⟨row, hrow, rfl⟩
  · obtain ⟨row, hrow, rfl⟩ := List.mem_map.mp hid
    exact (of_mem_claimBatch hrow).2.2.2.1 (mem_held.2 ⟨j, t, ht, hid'⟩)

/-! ### Commit -/

lemma setMaxAttempts_outbox (l : Ledger) (limits : List (JobId × Option ℕ)) :
    (limits.foldl (fun l r => l.setMaxAttempts r.1 r.2) l).outbox = l.outbox ∧
      (limits.foldl (fun l r => l.setMaxAttempts r.1 r.2) l).nextId = l.nextId := by
  induction limits generalizing l with
  | nil => exact ⟨rfl, rfl⟩
  | cons r limits ih =>
    obtain ⟨houtbox, hnext⟩ := ih (l.setMaxAttempts r.1 r.2)
    have hsame : (l.setMaxAttempts r.1 r.2).outbox = l.outbox ∧
        (l.setMaxAttempts r.1 r.2).nextId = l.nextId := by
      unfold Ledger.setMaxAttempts
      split <;> exact ⟨rfl, rfl⟩
    exact ⟨houtbox.trans hsame.1, hnext.trans hsame.2⟩

lemma commit_nextId (s : World) (tx : Tx) :
    (s.commit tx).system.ledger.nextId = s.system.ledger.nextId :=
  (setMaxAttempts_outbox s.system.ledger tx.limits).2

lemma lookup_commit (s : World) (tx : Tx) (id : JobId) :
    (s.commit tx).outbox.lookup id = if id ∈ tx.deleted then none else s.outbox.lookup id := by
  show ((tx.limits.foldl (fun l r => l.setMaxAttempts r.1 r.2)
    s.system.ledger).outbox.deleteWhere fun id _ => id ∈ tx.deleted).lookup id = _
  rw [Table.lookup_deleteWhere, (setMaxAttempts_outbox s.system.ledger tx.limits).1]
  show (s.outbox.lookup id).filter _ = _
  split_ifs with hid
  · cases s.outbox.lookup id <;> simp [hid]
  · cases s.outbox.lookup id <;> simp [hid]

/-- The deleted rows of a transaction go over to the storage. -/
lemma Inv.commit (h : s.Inv) {tx : Tx} {moved : ℕ} (hi : s.relays[i]? = some r)
    (hphase : r.phase = .push [] tx) :
    ((s.commit tx).goOn i { r with moved, phase := .claim }).Inv := by
  have hok := h.relays i r hi
  have htx := hok.tx _ _ _ (by rw [Relay.inTx, hphase])
  have hheld : r.held = tx.claimed := by
    rw [Relay.held, hphase]
  have hdeleted : ∀ id, id ∈ tx.deleted ↔ id ∈ tx.stored := by
    intro id
    rw [htx.deleted]
    simp
  have hclaimed : ∀ id ∈ tx.stored, ∃ o, s.outbox.lookup id = some o := by
    intro id hid
    obtain ⟨o, ho, -⟩ := hok.claimed id (hheld ▸ (htx.tried id hid).1)
    exact ⟨o, ho⟩
  have hnew : ∀ id ∈ s.stored, id ∉ tx.stored := by
    intro id hid hid'
    obtain ⟨o, ho⟩ := hclaimed id hid'
    cases ho.symm.trans (h.apart id hid)
  have hnone : ∀ id, s.outbox.lookup id = none → (s.commit tx).outbox.lookup id = none := by
    intro id hid
    rw [lookup_commit, hid, ite_self]
  have hnext := commit_nextId s tx
  refine ⟨fun id o ho => ?_, fun id hid => ?_, ?_, fun id hid => ?_, fun id hlt hid => ?_,
    fun j t ht => ?_, fun j k t t' id ht ht' hid hid' => ?_⟩
  · have ho := (lookup_commit s tx id).symm.trans ho
    split_ifs at ho
    exact (h.fresh id o ho).trans_eq hnext.symm
  · rcases List.mem_append.mp hid with hid | hid
    · exact (h.storedFresh id hid).trans_eq hnext.symm
    · obtain ⟨o, ho⟩ := hclaimed id hid
      exact (h.fresh id o ho).trans_eq hnext.symm
  · refine List.nodup_append.mpr ⟨h.once, htx.storedNodup, ?_⟩
    rintro id hid _ hid' rfl
    exact hnew id hid hid'
  · rcases List.mem_append.mp hid with hid | hid
    · exact hnone id (h.apart id hid)
    · exact (lookup_commit s tx id).trans (if_pos ((hdeleted id).mpr hid))
  · rcases h.placed id (hlt.trans_eq hnext) hid with hstored | ⟨o, ho⟩
    · exact .inl (List.mem_append_left _ hstored)
    · by_cases hdel : id ∈ tx.deleted
      · exact .inl (List.mem_append_right _ ((hdeleted id).mp hdel))
      · exact .inr ⟨o, (lookup_commit s tx id).trans ((if_neg hdel).trans ho)⟩
  · rcases of_getElem?_set ht with ⟨rfl, rfl⟩ | ⟨hj, hold⟩
    · refine ⟨(fun _ hid => nomatch hid), hok.nodup, fun _ id hid => ?_,
        fun _ _ _ htx => nomatch htx⟩
      obtain ⟨hlt, hwhere⟩ := hok.tried (by simp [hphase]) id hid
      refine ⟨hlt.trans_eq hnext.symm, ?_⟩
      rcases hwhere with hrejected | hin | hgone
      · exact .inl hrejected
      · rcases htx.through id (hheld ▸ hin) with ⟨row, hrow, -⟩ | hrejected | hstored
        · cases hrow
        · exact .inl hrejected
        · exact .inr (.inr ((lookup_commit s tx id).trans (if_pos ((hdeleted id).mpr hstored))))
      · exact .inr (.inr (hnone id hgone))
    · refine (h.relays j t hold).mono hnext.ge (fun id hid => ?_) fun id _ hid => hnone id hid
      refine (lookup_commit s tx id).trans (if_neg fun hdel => hj ?_)
      exact h.disjoint j i t r id hold hi hid
        (hheld ▸ (htx.tried id ((hdeleted id).mp hdel)).1)
  · rcases of_getElem?_set ht with ⟨rfl, rfl⟩ | ⟨hj, hold⟩
    · cases hid
    · rcases of_getElem?_set ht' with ⟨rfl, rfl⟩ | ⟨hk, hold'⟩
      · cases hid'
      · exact h.disjoint j k t t' id hold hold' hid hid'

/-! ### All events -/

lemma mem_observe {id : JobId} {j : Job} (hj : s.system.ledger.jobs.lookup id = some j)
    (hrevoked : j.state.isRevoked) : id ∈ s.observe.revoked :=
  List.mem_append_right _ (List.mem_map.mpr ⟨(id, j), Table.mem_select.mpr ⟨hj, hrevoked⟩, rfl⟩)

/-- What a step of the job system is made of. -/
lemma of_jobs {e : Event} (h : s.jobs w e = some t) :
    ∃ u, s.system.perform w e = some u ∧ t = { s with system := u }.observe ∧
      s.system.ledger.OutboxMoves u.ledger ∧
      (e.inserts = false → u.ledger.nextId = s.system.ledger.nextId) ∧
      ∀ id, id ∈ s.held → u.ledger.outbox.lookup id = s.outbox.lookup id := by
  unfold jobs at h
  split_ifs at h with hallows
  obtain ⟨u, hu, h⟩ := Option.bind_eq_some_iff.mp h
  split_ifs at h with hlocks
  obtain ⟨hmoves, hnext⟩ := System.outboxMoves_of_perform hu (by
    rintro id rfl
    cases hallows)
  exact ⟨u, hu, (Option.some.inj h).symm, hmoves, hnext, fun id hid =>
    hlocks id (List.mem_append_left _ hid)⟩

lemma Inv.jobs {e : Event} (h : s.Inv) (hstep : s.jobs w e = some t) : t.Inv := by
  obtain ⟨u, -, rfl, hmoves, -, hlocks⟩ := of_jobs hstep
  have hgone : ∀ id, id < s.system.ledger.nextId → s.outbox.lookup id = none →
      u.ledger.outbox.lookup id = none := by
    intro id hlt hnone
    rcases hmoves.olds id (.inl hlt) with hsame | ⟨hnone', -⟩
    · exact hsame.trans hnone
    · exact hnone'
  refine ⟨fun id o ho => ?_, fun id hid => (h.storedFresh id hid).trans_le hmoves.next, h.once,
    fun id hid => hgone id (h.storedFresh id hid) (h.apart id hid), fun id hlt hid => ?_,
    fun j r hr => (h.relays j r hr).mono hmoves.next ?_ hgone, h.disjoint⟩
  · by_contra hge
    rcases hmoves.olds id (.inr (not_lt.mp hge)) with hsame | ⟨hnone, -⟩
    · have hlt := h.fresh id o (hsame.symm.trans ho)
      exact hge (hlt.trans_le hmoves.next)
    · cases hnone.symm.trans ho
  · by_cases hold : id < s.system.ledger.nextId
    · rcases hmoves.olds id (.inl hold) with hsame | ⟨-, j, hj, hrevoked⟩
      · rcases h.placed id hold fun hmem => hid (List.mem_append_left _ hmem) with hstored | ⟨o, ho⟩
        · exact .inl hstored
        · exact .inr ⟨o, hsame.trans ho⟩
      · exact absurd (mem_observe (s := { s with system := u }) hj hrevoked) hid
    · exact .inr (hmoves.news id (not_lt.mp hold) hlt)
  · exact fun id hid => hlocks id (mem_held.2 ⟨j, r, hr, hid⟩)

lemma Inv.drain {a : RelayAction} (h : s.Inv) (hi : s.relays[i]? = some r)
    (hstep : s.drain i r a = some t) : t.Inv := by
  have hok := h.relays i r hi
  cases a with
  | claim =>
    simp only [World.drain] at hstep
    split at hstep
    case h_2 => cases hstep
    case h_1 hphase =>
      have hclaim := h.claim hi hphase
      split at hstep
      · obtain rfl := Option.some.inj hstep
        exact h.goOn_same hi (hok.leave (.inr ⟨rfl, hphase⟩)) fun _ hid => nomatch hid
      · obtain rfl := Option.some.inj hstep
        exact hclaim
  | push refused =>
    simp only [World.drain] at hstep
    split at hstep
    case h_2 => cases hstep
    case h_1 id row rows tx hphase =>
      obtain ⟨hclaimed, htype, htried, hstored, hrows⟩ := hok.next hphase
      have hheld : r.held = tx.claimed := by
        rw [Relay.held, hphase]
      have hfresh : id ∉ s.stored := by
        intro hid
        obtain ⟨o, ho, -⟩ := hok.claimed id (hheld ▸ hclaimed)
        cases ho.symm.trans (h.apart id hid)
      split at hstep
      case h_1 hnone =>
        obtain ⟨p, hp, hpt⟩ := List.mem_map.mp htype
        exact absurd hp (by
          have := List.lookup_eq_none_iff.mp hnone p hp
          simp [hpt] at this)
      case h_2 maxAttempts _ =>
        rw [if_neg (by simp [hfresh, hstored])] at hstep
        split_ifs at hstep
        · obtain rfl := Option.some.inj hstep
          exact h.goOn_same hi (hok.refuse hphase h.fresh) fun k hk => hheld ▸ hk
        · obtain rfl := Option.some.inj hstep
          exact h.goOn_same hi (hok.store hphase h.fresh) fun k hk => hheld ▸ hk
  | delete =>
    simp only [World.drain] at hstep
    split at hstep
    case h_2 => cases hstep
    case h_1 id maxAttempts rows tx hphase =>
      obtain rfl := Option.some.inj hstep
      have hheld : r.held = tx.claimed := by
        rw [Relay.held, hphase]
      refine h.goOn_same hi (hok.goOn (some id) tx (by rw [Relay.inTx, hphase])
        hheld rfl rfl rfl rfl fun k => ?_) fun k hk => hheld ▸ hk
      simp [eq_comm]
  | record written =>
    simp only [World.drain] at hstep
    split at hstep
    case h_2 => cases hstep
    case h_1 id maxAttempts rows tx hphase =>
      obtain rfl := Option.some.inj hstep
      have hheld : r.held = tx.claimed := by
        rw [Relay.held, hphase]
      exact h.goOn_same hi (hok.goOn none tx (by rw [Relay.inTx, hphase])
        hheld rfl rfl rfl rfl (by simp)) fun k hk => hheld ▸ hk
  | commit =>
    simp only [World.drain] at hstep
    split at hstep
    case h_2 => cases hstep
    case h_1 tx hphase =>
      obtain rfl := Option.some.inj hstep
      exact h.commit hi hphase
  | stop =>
    simp only [World.drain] at hstep
    split at hstep
    case h_1 => cases hstep
    case h_2 => cases hstep
    case h_3 =>
      obtain rfl := Option.some.inj hstep
      exact h.goOn_same hi (hok.leave (.inl rfl)) fun _ hid => nomatch hid

lemma Inv.step {e : WorldEvent} (h : s.Inv) (hstep : Step w s e t) : t.Inv := by
  cases e with
  | jobs e => exact h.jobs hstep
  | lock now id =>
    simp only [Step, perform] at hstep
    split_ifs at hstep
    obtain rfl := Option.some.inj hstep
    exact ⟨h.fresh, h.storedFresh, h.once, h.apart, h.placed, h.relays, h.disjoint⟩
  | settle id committed =>
    simp only [Step, perform] at hstep
    split_ifs at hstep
    have hunlocked : ({ s with locked := s.locked.erase id } : World).Inv :=
      ⟨h.fresh, h.storedFresh, h.once, h.apart, h.placed, h.relays, h.disjoint⟩
    cases committed with
    | none =>
      obtain rfl := Option.some.inj hstep
      exact hunlocked
    | some now => exact hunlocked.jobs hstep
  | drain registry batch =>
    obtain rfl := Option.some.inj hstep
    refine ⟨h.fresh, h.storedFresh, h.once, h.apart, h.placed, fun j t ht => ?_,
      fun j k t t' id ht ht' hid hid' => ?_⟩
    · rcases of_getElem?_concat ht with ⟨-, rfl⟩ | hold
      · exact ⟨(fun _ hid => nomatch hid), List.nodup_nil, (fun _ _ hid => nomatch hid),
          fun _ _ _ htx => nomatch htx⟩
      · exact h.relays j t hold
    · rcases of_getElem?_concat ht with ⟨-, rfl⟩ | hold
      · cases hid
      · rcases of_getElem?_concat ht' with ⟨-, rfl⟩ | hold'
        · cases hid'
        · exact h.disjoint j k t t' id hold hold' hid hid'
  | relay i a =>
    obtain ⟨r, hi, hstep⟩ := Option.bind_eq_some_iff.mp hstep
    exact h.drain hi hstep

end World

/-! ## Drains end -/

namespace Relay

variable {r r' : Relay} {u v : Table JobId OutboxRow}

/-- The rows a drain may still claim. -/
def untried (r : Relay) (u : Table JobId OutboxRow) : List JobId :=
  (u.select fun id _ => id ∉ r.rejected ∧ id ∉ r.held).map Prod.fst

lemma mem_untried {id : JobId} : id ∈ r.untried u ↔
    (∃ o, u.lookup id = some o) ∧ id ∉ r.rejected ∧ id ∉ r.held := by
  constructor
  · intro h
    obtain ⟨⟨k, o⟩, hmem, rfl⟩ := List.mem_map.mp h
    obtain ⟨ho, hp⟩ := Table.mem_select.mp hmem
    exact ⟨⟨o, ho⟩, of_decide_eq_true hp⟩
  · rintro ⟨⟨o, ho⟩, hp⟩
    exact List.mem_map.mpr ⟨(id, o), Table.mem_select.mpr ⟨ho, decide_eq_true hp⟩, rfl⟩

lemma length_untried_add_le {ids : List JobId} {all : List JobId} (hids : ids.Nodup)
    (hnew : ∀ id ∈ ids, id ∉ r.untried u) (hall : ∀ id ∈ ids, id ∈ all)
    (huntried : ∀ id ∈ r.untried u, id ∈ all) :
    (r.untried u).length + ids.length ≤ all.length := by
  have hnodup : (r.untried u ++ ids).Nodup := by
    refine List.nodup_append.mpr ⟨u.nodup_select _, hids, ?_⟩
    rintro id hid _ hid' rfl
    exact hnew id hid' hid
  rw [← List.length_append]
  refine (hnodup.subperm fun id hid => ?_).length_le
  rcases List.mem_append.mp hid with hid | hid
  · exact huntried id hid
  · exact hall id hid

lemma length_untried_le (h : ∀ id ∈ r'.untried v, id ∈ r.untried u) :
    (r'.untried v).length ≤ (r.untried u).length := by
  have hnil : ∀ id ∈ ([] : List JobId), id ∉ r'.untried v := by simp
  simpa using length_untried_add_le List.nodup_nil hnil (by simp) h

/-- How many statements a drain may still make. -/
def rank (r : Relay) (u : Table JobId OutboxRow) : ℕ :=
  match r.phase with
  | .claim => 5 * (r.untried u).length + 1
  | .push rows _ => 5 * (r.untried u).length + 3 * rows.length + 2
  | .delete _ _ rows _ => 5 * (r.untried u).length + 3 * rows.length + 4
  | .record _ _ rows _ => 5 * (r.untried u).length + 3 * rows.length + 3
  | .done | .lost => 0

lemma rank_claim (h : r.phase = .claim) :
    r.rank u = 5 * (r.untried u).length + 1 := by rw [rank, h]

section Phases

variable {id : JobId} {maxAttempts : Option ℕ} {rows : List (JobId × OutboxRow)} {tx : Tx}

lemma rank_push (h : r.phase = .push rows tx) :
    r.rank u = 5 * (r.untried u).length + 3 * rows.length + 2 := by rw [rank, h]

lemma rank_delete (h : r.phase = .delete id maxAttempts rows tx) :
    r.rank u = 5 * (r.untried u).length + 3 * rows.length + 4 := by rw [rank, h]

lemma rank_record (h : r.phase = .record id maxAttempts rows tx) :
    r.rank u = 5 * (r.untried u).length + 3 * rows.length + 3 := by rw [rank, h]

end Phases

lemma rank_lost (h : r.phase = .lost ∨ r.phase = .done) : r.rank u = 0 := by
  rcases h with h | h <;> rw [rank, h]

/-- Within a transaction more rows are only refused. -/
lemma length_untried_le_of_held (hrejected : ∀ id ∈ r.rejected, id ∈ r'.rejected)
    (hheld : r'.held = r.held) : (r'.untried u).length ≤ (r.untried u).length := by
  refine length_untried_le fun id hid => ?_
  obtain ⟨ho, hrej, hnot⟩ := mem_untried.1 hid
  exact mem_untried.2 ⟨ho, fun h => hrej (hrejected id h), hheld ▸ hnot⟩

lemma rank_mono (h : ∀ id o, v.lookup id = some o → ∃ o', u.lookup id = some o') :
    r.rank v ≤ r.rank u := by
  have hle : (r.untried v).length ≤ (r.untried u).length := by
    refine length_untried_le fun id hid => ?_
    obtain ⟨⟨o, ho⟩, hrest⟩ := mem_untried.1 hid
    exact mem_untried.2 ⟨h id o ho, hrest⟩
  unfold rank
  split <;> omega

/-- A drain makes at most five statements for each row, and a few more. -/
lemma Ok.rank_le {l : Ledger} (h : r.Ok l) : r.rank l.outbox ≤ 5 * l.outbox.keys.length + 4 := by
  have hkeys : ∀ {id o}, l.outbox.lookup id = some o → id ∈ l.outbox.keys := fun ho =>
    AList.mem_keys.mp (AList.lookup_isSome.mp (Option.isSome_of_eq_some ho))
  have huntried : ∀ id ∈ r.untried l.outbox, id ∈ l.outbox.keys := fun id hid => by
    obtain ⟨⟨o, ho⟩, -⟩ := mem_untried.1 hid
    exact hkeys ho
  have hrows : ∀ {rows current tx}, r.inTx = some (rows, current, tx) → r.held = tx.claimed →
      (r.untried l.outbox).length + rows.length ≤ l.outbox.keys.length := by
    intro rows current tx hin hheld
    have htx := h.tx _ _ _ hin
    have hclaimed : ∀ id ∈ rows.map Prod.fst, id ∈ r.held := by
      intro id hid
      obtain ⟨row, hrow, rfl⟩ := List.mem_map.mp hid
      exact hheld ▸ (htx.ahead row hrow).1
    rw [← List.length_map Prod.fst]
    refine length_untried_add_le htx.nodup (fun id hid hid' => ?_) (fun id hid => ?_) huntried
    · exact (mem_untried.1 hid').2.2 (hclaimed id hid)
    · obtain ⟨o, ho, -⟩ := h.claimed id (hclaimed id hid)
      exact hkeys ho
  unfold rank
  split
  case h_1 =>
    have hle := length_untried_add_le (r := r) (u := l.outbox) List.nodup_nil (by simp)
      (by simp) huntried
    rw [List.length_nil] at hle
    omega
  case h_2 rows tx hphase =>
    have hle := @hrows rows _ tx (by rw [inTx, hphase]) (by rw [held, hphase])
    omega
  case h_3 id maxAttempts rows tx hphase =>
    have hle := @hrows rows _ tx (by rw [inTx, hphase]) (by rw [held, hphase])
    omega
  case h_4 id maxAttempts rows tx hphase =>
    have hle := @hrows rows _ tx (by rw [inTx, hphase]) (by rw [held, hphase])
    omega
  case h_5 => omega
  case h_6 => omega

end Relay

/-- Whether the event enqueues a job. -/
def WorldEvent.inserts : WorldEvent → Bool
  | .jobs e => e.inserts
  | _ => false

/-- Whether the event is a statement of the relay. -/
def WorldEvent.isOf (i : ℕ) : WorldEvent → Bool
  | .relay j _ => j = i
  | _ => false

namespace World

variable {s t : World} {i : ℕ} {r : Relay} {w : Worker}

lemma outbox_of_jobs {e : Event} (hstep : s.jobs w e = some t)
    (hquiet : e.inserts = false) {id : JobId} {o : OutboxRow}
    (ho : t.outbox.lookup id = some o) : s.outbox.lookup id = some o := by
  obtain ⟨u, -, rfl, hmoves, hnext, -⟩ := of_jobs hstep
  have hwhere : id < s.system.ledger.nextId ∨ u.ledger.nextId ≤ id := by
    rw [hnext hquiet]
    exact lt_or_ge id _
  rcases hmoves.olds id hwhere with hsame | ⟨hnone, -⟩
  · exact hsame.symm.trans ho
  · cases hnone.symm.trans ho

/-- A statement of a drain deletes no row of another type, and makes none. -/
lemma outbox_of_drain {a : RelayAction} (hstep : s.drain i r a = some t) :
    t.outbox = s.outbox ∨ ∃ tx, r.phase = .push [] tx ∧ t.outbox = (s.commit tx).outbox := by
  cases a with
  | commit =>
    simp only [World.drain] at hstep
    split at hstep
    case h_2 => cases hstep
    case h_1 tx hphase =>
      obtain rfl := Option.some.inj hstep
      exact .inr ⟨tx, hphase, rfl⟩
  | claim | push | delete | record | stop =>
    left
    simp only [World.drain] at hstep
    repeat' split at hstep
    all_goals first
      | (obtain rfl := Option.some.inj hstep; rfl)
      | cases hstep

lemma relays_of_jobs {e : Event} (hstep : s.jobs w e = some t) : t.relays = s.relays := by
  obtain ⟨u, -, rfl, -⟩ := of_jobs hstep
  rfl

lemma lookup_of_drain {a : RelayAction} (hstep : s.drain i r a = some t) {id : JobId}
    {o : OutboxRow} (ho : t.outbox.lookup id = some o) : s.outbox.lookup id = some o := by
  rcases outbox_of_drain hstep with hsame | ⟨tx, -, hcommit⟩
  · exact hsame ▸ ho
  · rw [hcommit, lookup_commit] at ho
    split_ifs at ho
    exact ho

lemma relays_of_drain {a : RelayAction} {j : ℕ} (hstep : s.drain i r a = some t) (hji : j ≠ i) :
    t.relays[j]? = s.relays[j]? := by
  have hset : ∀ {u : World} {r' : Relay}, u.relays = s.relays →
      (u.goOn i r').relays[j]? = s.relays[j]? := fun {u} {r'} hu =>
    (List.getElem?_set_ne (l := u.relays) (a := r') hji.symm).trans (hu ▸ rfl)
  cases a with
  | claim | push | delete | record | commit | stop =>
    simp only [World.drain] at hstep
    repeat' split at hstep
    all_goals first
      | (obtain rfl := Option.some.inj hstep; exact hset rfl)
      | cases hstep

/-- A drain ends with a claim that finds nothing. -/
lemma of_done {a : RelayAction} {r' : Relay} (hi : s.relays[i]? = some r)
    (hstep : s.drain i r a = some t) (hr' : t.relays[i]? = some r') (hdone : r'.phase = .done) :
    r.phase = .claim ∧ s.claimBatch r = [] ∧ t = s.goOn i { r with phase := .done } := by
  have hlt := (List.getElem?_eq_some_iff.mp hi).1
  have hset : ∀ {u : World} {q : Relay}, u.relays = s.relays → u.goOn i q = t →
      q.phase = .done := by
    rintro u q hu rfl
    have hq : (u.relays.set i q)[i]? = some r' := hr'
    rw [hu, List.getElem?_set_self hlt] at hq
    exact Option.some.inj hq ▸ hdone
  cases a with
  | claim =>
    simp only [World.drain] at hstep
    split at hstep
    case h_2 => cases hstep
    case h_1 hphase =>
      split at hstep
      case h_1 hnil => exact ⟨hphase, hnil, (Option.some.inj hstep).symm⟩
      case h_2 => cases hset rfl (Option.some.inj hstep)
  | commit =>
    simp only [World.drain] at hstep
    split at hstep
    case h_2 => cases hstep
    case h_1 tx hphase => cases hset (u := s.commit tx) rfl (Option.some.inj hstep)
  | push | delete | record | stop =>
    simp only [World.drain] at hstep
    repeat' split at hstep
    all_goals first
      | (have hphase := hset rfl (Option.some.inj hstep); cases hphase)
      | cases hstep

/-- Every statement of a drain takes it on. -/
lemma rank_of_drain {a : RelayAction} (h : s.Inv) (hi : s.relays[i]? = some r)
    (hstep : s.drain i r a = some t) :
    ∃ r', t.relays[i]? = some r' ∧ r'.rank t.outbox < r.rank s.outbox := by
  have hok := h.relays i r hi
  have hset : ∀ {u : World} {r' : Relay}, u.relays = s.relays →
      (u.goOn i r').relays[i]? = some r' := by
    intro u r' hu
    have hlt := (List.getElem?_eq_some_iff.mp hi).1
    show (u.relays.set i r')[i]? = some r'
    rw [hu, List.getElem?_set_self hlt]
  cases a with
  | claim =>
    simp only [World.drain] at hstep
    split at hstep
    case h_2 => cases hstep
    case h_1 hphase =>
      have hheld : r.held = [] := by
        rw [Relay.held, hphase]
      split at hstep
      case h_1 =>
        obtain rfl := Option.some.inj hstep
        refine ⟨_, hset rfl, ?_⟩
        rw [Relay.rank_lost (.inr rfl), Relay.rank_claim hphase]
        exact Nat.succ_pos _
      case h_2 hne =>
        obtain rfl := Option.some.inj hstep
        refine ⟨_, hset rfl, ?_⟩
        have hpos : 0 < (s.claimBatch r).length :=
          List.length_pos_iff.mpr fun hnil => hne hnil
        have hrows : ∀ id ∈ (s.claimBatch r).map Prod.fst, id ∈ r.untried s.outbox := by
          intro id hid
          obtain ⟨row, hrow, rfl⟩ := List.mem_map.mp hid
          obtain ⟨ho, -, hrejected, -⟩ := of_mem_claimBatch hrow
          exact Relay.mem_untried.mpr ⟨⟨_, ho⟩, hrejected, by simp [hheld]⟩
        have hle := Relay.length_untried_add_le
          (r := { r with
            phase := .push (s.claimBatch r) { claimed := (s.claimBatch r).map Prod.fst } })
          (u := s.outbox) (Table.nodup_selectFirst _ _ _ _)
          (fun id hid hid' => (Relay.mem_untried.mp hid').2.2 hid) hrows fun id hid => by
            obtain ⟨ho, hrejected, -⟩ := Relay.mem_untried.mp hid
            exact Relay.mem_untried.mpr ⟨ho, hrejected, by simp [hheld]⟩
        rw [List.length_map] at hle
        rw [Relay.rank_push rfl, Relay.rank_claim hphase]
        change _ + (s.claimBatch r).length ≤ _ at hle
        show 5 * (Relay.untried _ s.outbox).length + _ + 2 < _
        omega
  | push refused =>
    simp only [World.drain] at hstep
    split at hstep
    case h_2 => cases hstep
    case h_1 id row rows tx hphase =>
      have hrank := Relay.rank_push (u := s.outbox) hphase
      rw [List.length_cons] at hrank
      have hheld : r.held = tx.claimed := by
        rw [Relay.held, hphase]
      have hnext : ∀ {r' : Relay}, (∀ id ∈ r.rejected, id ∈ r'.rejected) → r'.held = tx.claimed →
          ((∃ tx', r'.phase = .push rows tx') ∨ ∃ m tx', r'.phase = .delete id m rows tx') →
            r'.rank s.outbox < r.rank s.outbox := by
        intro r' hrejected hheld' hp
        have hle := Relay.length_untried_le_of_held (u := s.outbox) hrejected
          (hheld'.trans hheld.symm)
        rcases hp with ⟨tx', hp⟩ | ⟨m, tx', hp⟩
        · rw [Relay.rank_push hp]
          omega
        · rw [Relay.rank_delete hp]
          omega
      split at hstep
      case h_1 =>
        obtain rfl := Option.some.inj hstep
        exact ⟨_, hset rfl, hnext (fun _ h => h) rfl (.inl ⟨_, rfl⟩)⟩
      case h_2 =>
        split_ifs at hstep
        · obtain rfl := Option.some.inj hstep
          exact ⟨_, hset rfl, hnext (fun _ h => h) rfl (.inr ⟨_, _, rfl⟩)⟩
        · obtain rfl := Option.some.inj hstep
          exact ⟨_, hset rfl, hnext (fun _ h => List.mem_append_left _ h) rfl (.inl ⟨_, rfl⟩)⟩
        · obtain rfl := Option.some.inj hstep
          exact ⟨_, hset rfl, hnext (fun _ h => h) rfl (.inr ⟨_, _, rfl⟩)⟩
  | delete =>
    simp only [World.drain] at hstep
    split at hstep
    case h_2 => cases hstep
    case h_1 id maxAttempts rows tx hphase =>
      obtain rfl := Option.some.inj hstep
      refine ⟨_, hset rfl, ?_⟩
      rw [Relay.rank_record rfl, Relay.rank_delete hphase]
      refine Nat.lt_succ_of_le (Nat.add_le_add_right (Nat.add_le_add_right
        (Nat.mul_le_mul_left 5 ?_) _) 3)
      exact Relay.length_untried_le_of_held (fun _ h => h) (by rw [Relay.held, Relay.held, hphase])
  | record written =>
    simp only [World.drain] at hstep
    split at hstep
    case h_2 => cases hstep
    case h_1 id maxAttempts rows tx hphase =>
      obtain rfl := Option.some.inj hstep
      refine ⟨_, hset rfl, ?_⟩
      rw [Relay.rank_push rfl, Relay.rank_record hphase]
      refine Nat.lt_succ_of_le (Nat.add_le_add_right (Nat.add_le_add_right
        (Nat.mul_le_mul_left 5 ?_) _) 2)
      exact Relay.length_untried_le_of_held (fun _ h => h) (by rw [Relay.held, Relay.held, hphase])
  | commit =>
    simp only [World.drain] at hstep
    split at hstep
    case h_2 => cases hstep
    case h_1 tx hphase =>
      obtain rfl := Option.some.inj hstep
      refine ⟨_, hset rfl, ?_⟩
      have htx := hok.tx _ _ _ (by rw [Relay.inTx, hphase])
      have hheld : r.held = tx.claimed := by
        rw [Relay.held, hphase]
      rw [Relay.rank_claim rfl, Relay.rank_push hphase]
      refine Nat.lt_succ_of_le (Nat.add_le_add_right (Nat.mul_le_mul_left 5 ?_) 1)
      -- What was claimed is refused or gone, so nothing comes back to be claimed.
      refine Relay.length_untried_le fun id hid => ?_
      obtain ⟨⟨o, ho⟩, hrejected, -⟩ := Relay.mem_untried.mp hid
      have ho := (lookup_commit s tx id).symm.trans ho
      split_ifs at ho with hdel
      refine Relay.mem_untried.mpr ⟨⟨o, ho⟩, hrejected, fun hin => ?_⟩
      rcases htx.through id (hheld ▸ hin) with ⟨row, hrow, -⟩ | hrej | hstored
      · cases hrow
      · exact hrejected hrej
      · exact hdel (((htx.deleted id).mp hstored).resolve_right (by simp))
  | stop =>
    simp only [World.drain] at hstep
    split at hstep
    case h_1 => cases hstep
    case h_2 => cases hstep
    case h_3 hdone hlost =>
      obtain rfl := Option.some.inj hstep
      refine ⟨_, hset rfl, ?_⟩
      rw [Relay.rank_lost (.inl rfl)]
      unfold Relay.rank
      split
      case h_5 hphase => exact absurd hphase hdone
      case h_6 hphase => exact absurd hphase hlost
      all_goals exact Nat.succ_pos _

end World

/-! ## Runs -/

namespace World

variable {s t : World} {i : ℕ} {r r' : Relay} {w : Worker} {es fs : List WorldEvent}

/-- A step that enqueues nothing leaves every drain no more to do, and its own less. -/
lemma rank_of_step {e : WorldEvent} (h : s.Inv) (hi : s.relays[i]? = some r)
    (hstep : Step w s e t) (hquiet : e.inserts = false) :
    ∃ r', t.relays[i]? = some r' ∧
      r'.rank t.outbox + (if e.isOf i then 1 else 0) ≤ r.rank s.outbox := by
  have hkept : t.relays[i]? = some r → e.isOf i = false →
      (∀ id o, t.outbox.lookup id = some o → ∃ o', s.outbox.lookup id = some o') →
        ∃ r', t.relays[i]? = some r' ∧
          r'.rank t.outbox + (if e.isOf i then 1 else 0) ≤ r.rank s.outbox := by
    intro hr hother houtbox
    refine ⟨r, hr, ?_⟩
    rw [hother]
    exact Relay.rank_mono houtbox
  cases e with
  | jobs e =>
    exact hkept (relays_of_jobs hstep ▸ hi) rfl fun id o ho =>
      ⟨o, outbox_of_jobs hstep hquiet ho⟩
  | lock now id =>
    simp only [Step, perform] at hstep
    split_ifs at hstep
    obtain rfl := Option.some.inj hstep
    exact hkept hi rfl fun id o ho => ⟨o, ho⟩
  | settle id committed =>
    simp only [Step, perform] at hstep
    split_ifs at hstep
    cases committed with
    | none =>
      obtain rfl := Option.some.inj hstep
      exact hkept hi rfl fun id o ho => ⟨o, ho⟩
    | some now =>
      exact hkept (relays_of_jobs hstep ▸ hi) rfl fun id o ho => ⟨o, outbox_of_jobs hstep rfl ho⟩
  | drain registry batch =>
    obtain rfl := Option.some.inj hstep
    refine hkept ?_ rfl fun id o ho => ⟨o, ho⟩
    exact (List.getElem?_append_left (List.getElem?_eq_some_iff.mp hi).1).trans hi
  | relay j a =>
    obtain ⟨q, hj, hdrain⟩ := Option.bind_eq_some_iff.mp hstep
    by_cases hji : j = i
    · subst hji
      obtain rfl : q = r := Option.some.inj (hj.symm.trans hi)
      obtain ⟨r', hr', hlt⟩ := rank_of_drain h hi hdrain
      exact ⟨r', hr', by simpa [WorldEvent.isOf] using Nat.succ_le_of_lt hlt⟩
    · refine hkept (relays_of_drain hdrain (Ne.symm hji) ▸ hi) (by simp [WorldEvent.isOf, hji])
        fun id o ho => ⟨o, lookup_of_drain hdrain ho⟩

/-- A drain during which nothing is enqueued makes no more statements than it had to do. -/
lemma countP_le_rank (h : s.Inv) (hi : s.relays[i]? = some r)
    (hrun : Run (Step w) s fs t) (hquiet : ∀ e ∈ fs, e.inserts = false) :
    fs.countP (WorldEvent.isOf i) ≤ r.rank s.outbox := by
  have hall : t.Inv ∧ ∃ r', t.relays[i]? = some r' ∧
      r'.rank t.outbox + fs.countP (WorldEvent.isOf i) ≤ r.rank s.outbox := by
    induction hrun with
    | nil => exact ⟨h, r, hi, le_rfl⟩
    | @snoc es t u e _ hstep ih =>
      obtain ⟨ht, r', hr', hle⟩ := ih fun e he => hquiet e (List.mem_append_left _ he)
      have hlast := hquiet e (List.mem_append_right _ (List.mem_singleton.mpr rfl))
      obtain ⟨r'', hr'', hlt⟩ := rank_of_step ht hr' hstep hlast
      refine ⟨ht.step hstep, r'', hr'', ?_⟩
      rw [List.countP_append, List.countP_singleton]
      omega
  obtain ⟨-, r', -, hle⟩ := hall
  omega

/-- A drain that has not ended can go on. -/
lemma exists_drain (hi : s.relays[i]? = some r) (hdone : r.phase ≠ .done) (hlost : r.phase ≠ .lost)
    (w : Worker) : ∃ a t, a ≠ .stop ∧ Step w s (.relay i a) t := by
  have hof : ∀ {a}, (s.drain i r a).isSome → a ≠ .stop →
      ∃ a t, a ≠ .stop ∧ Step w s (.relay i a) t := by
    intro a hsome hne
    obtain ⟨t, ht⟩ := Option.isSome_iff_exists.mp hsome
    exact ⟨a, t, hne, Option.bind_eq_some_iff.mpr ⟨r, hi, ht⟩⟩
  cases hphase : r.phase with
  | claim =>
    refine hof (a := .claim) ?_ (by simp)
    simp only [World.drain, hphase]
    split <;> rfl
  | push rows tx =>
    cases rows with
    | nil =>
      refine hof (a := .commit) ?_ (by simp)
      simp only [World.drain, hphase]
      rfl
    | cons row rows =>
      refine hof (a := .push true) ?_ (by simp)
      simp only [World.drain, hphase]
      split
      · rfl
      · split <;> rfl
  | delete id maxAttempts rows tx =>
    refine hof (a := .delete) ?_ (by simp)
    simp only [World.drain, hphase]
    rfl
  | record id maxAttempts rows tx =>
    refine hof (a := .record true) ?_ (by simp)
    simp only [World.drain, hphase]
    rfl
  | done => exact absurd hphase hdone
  | lost => exact absurd hphase hlost

/-- What a drain that ends leaves of its types. -/
lemma left_of_done (hi : s.relays[i]? = some r) (hbatch : 0 < r.batch)
    {a : RelayAction} (hstep : Step w s (.relay i a) t) (hr' : t.relays[i]? = some r')
    (hdone : r'.phase = .done) {id : JobId} {o : OutboxRow} (ho : t.outbox.lookup id = some o)
    (htype : o.jobType ∈ r'.jobTypes) :
    id ∈ r'.rejected ∨ (∃ (j : ℕ) (q : Relay), j ≠ i ∧ t.relays[j]? = some q ∧ id ∈ q.held) ∨
      id ∈ t.locked := by
  obtain ⟨q, hq, hdrain⟩ := Option.bind_eq_some_iff.mp hstep
  obtain rfl : q = r := Option.some.inj (hq.symm.trans hi)
  obtain ⟨hphase, hnil, rfl⟩ := of_done hi hdrain hr' hdone
  have hlt := (List.getElem?_eq_some_iff.mp hi).1
  obtain rfl : { q with phase := .done } = r' := by
    refine Option.some.inj (Eq.trans ?_ hr')
    exact (List.getElem?_set_self hlt).symm
  have hnot := Table.not_of_selectFirst_eq_nil hnil hbatch ho
  by_contra hleft
  push Not at hleft
  obtain ⟨hrejected, hothers, hunlocked⟩ := hleft
  refine of_decide_eq_false hnot ⟨htype, hrejected, fun hheld => ?_, hunlocked⟩
  obtain ⟨j, q', hj, hid⟩ := mem_held.1 hheld
  by_cases hji : j = i
  · subst hji
    obtain rfl := Option.some.inj (hj.symm.trans hi)
    rw [Relay.held, hphase] at hid
    cases hid
  · exact hothers j q' hji ((List.getElem?_set_ne (Ne.symm hji)).trans hj) hid

/-- A drain touches no row of a type it does not know. -/
lemma untouched_of_drain (h : s.Inv) (hi : s.relays[i]? = some r) {a : RelayAction}
    (hstep : Step w s (.relay i a) t) {id : JobId} {o : OutboxRow}
    (ho : s.outbox.lookup id = some o) (htype : o.jobType ∉ r.jobTypes) :
    t.outbox.lookup id = some o ∧ id ∉ r.held := by
  have hok := h.relays i r hi
  have hheld : id ∉ r.held := fun hid => by
    obtain ⟨o', ho', htype'⟩ := hok.claimed id hid
    obtain rfl := Option.some.inj (ho.symm.trans ho')
    exact htype htype'
  refine ⟨?_, hheld⟩
  obtain ⟨q, hq, hdrain⟩ := Option.bind_eq_some_iff.mp hstep
  obtain rfl : q = r := Option.some.inj (hq.symm.trans hi)
  rcases outbox_of_drain hdrain with hsame | ⟨tx, hphase, hcommit⟩
  · exact hsame ▸ ho
  · have htx := hok.tx _ _ _ (by rw [Relay.inTx, hphase])
    rw [hcommit, lookup_commit, if_neg, ho]
    intro hdel
    have hstored := (htx.deleted id).mpr (.inl hdel)
    exact hheld (by rw [Relay.held, hphase]; exact (htx.tried id hstored).1)

lemma inv_empty : ({} : World).Inv := by
  refine ⟨fun id o ho => ?_, fun id hid => ?_, List.nodup_nil, fun id hid => ?_,
    fun id hlt => ?_, fun i r hr => ?_, fun i j r r' id hr => ?_⟩
  · cases ho
  · cases hid
  · cases hid
  · exact absurd hlt (Nat.not_lt_zero id)
  · simp at hr
  · simp at hr

lemma inv_of_run (hrun : Run (Step w) {} es s) : s.Inv :=
  Run.invariant (I := Inv) (fun hstep h => h.step hstep) hrun inv_empty

/-- **The outbox relay neither loses nor duplicates a job.**  A job that was enqueued and not
cancelled or killed is in exactly one of the outbox and the storage, and nothing is stored twice.
No drain tries a row twice.  A drain that has not ended can go on, ends when nothing is enqueued,
and leaves of its types only rows that the storage refused, another relay holds or a console cancel
under way has locked; rows of other types it leaves alone. -/
theorem relay_exact (hrun : Run (Step w) {} es s) :
    (∀ id, id < s.system.ledger.nextId → id ∉ s.revoked →
      Xor (id ∈ s.outbox) (id ∈ s.stored)) ∧
    s.stored.Nodup ∧
    (∀ (i : ℕ) r, s.relays[i]? = some r → r.tried.Nodup) ∧
    (∀ (i : ℕ) r, s.relays[i]? = some r → r.phase ≠ .done → r.phase ≠ .lost →
      ∃ a t, a ≠ .stop ∧ Step w s (.relay i a) t) ∧
    (∀ (i : ℕ) r fs t, s.relays[i]? = some r → Run (Step w) s fs t →
      (∀ e ∈ fs, e.inserts = false) →
        fs.countP (WorldEvent.isOf i) ≤ 5 * s.outbox.keys.length + 4) ∧
    (∀ (i : ℕ) r a t r', s.relays[i]? = some r → 0 < r.batch → Step w s (.relay i a) t →
      t.relays[i]? = some r' → r'.phase = .done →
        ∀ id o, t.outbox.lookup id = some o → o.jobType ∈ r'.jobTypes →
          id ∈ r'.rejected ∨ (∃ (j : ℕ) (q : Relay), j ≠ i ∧ t.relays[j]? = some q ∧ id ∈ q.held) ∨
            id ∈ t.locked) ∧
    (∀ (i : ℕ) r a t, s.relays[i]? = some r → Step w s (.relay i a) t →
      ∀ id o, s.outbox.lookup id = some o → o.jobType ∉ r.jobTypes →
        t.outbox.lookup id = some o ∧ id ∉ r.held) := by
  have h := inv_of_run hrun
  refine ⟨fun id hlt hid => ?_, h.once, fun i r hi => (h.relays i r hi).nodup,
    fun i r hi hdone hlost => exists_drain hi hdone hlost w,
    fun i r fs t hi hfs hquiet => (countP_le_rank h hi hfs hquiet).trans (h.relays i r hi).rank_le,
    fun i r a t r' hi hbatch hstep hr' hdone id o ho htype =>
      left_of_done hi hbatch hstep hr' hdone ho htype,
    fun i r a t hi hstep id o ho htype => untouched_of_drain h hi hstep ho htype⟩
  have hmem : id ∈ s.outbox ↔ ∃ o, s.outbox.lookup id = some o := by
    rw [← AList.lookup_isSome, Option.isSome_iff_exists]
  have hapart : id ∈ s.stored → ¬ id ∈ s.outbox := by
    intro hstored hin
    obtain ⟨o, ho⟩ := hmem.mp hin
    cases ho.symm.trans (h.apart id hstored)
  rcases h.placed id hlt hid with hstored | hin
  · exact .inr ⟨hstored, hapart hstored⟩
  · exact .inl ⟨hmem.mpr hin, fun hstored => hapart hstored (hmem.mpr hin)⟩

/-- Two relays drain three jobs; one is of a type they do not know, and one is refused. -/
def drained : List WorldEvent :=
  [.jobs (.enqueue 0 "publish" 0), .jobs (.enqueue 1 "digest" 1), .jobs (.enqueue 2 "publish" 2),
    .drain [("publish", some 5)] 2, .drain [("publish", some 5)] 2, .relay 0 .claim,
    .relay 1 .claim, .relay 0 (.push true), .relay 0 (.push false), .relay 0 .delete,
    .relay 0 (.record true), .relay 0 .commit, .relay 0 .claim]

theorem relay_exact_drained : ∃ s, Run (Step .plain) {} drained s ∧ s.stored = [2] ∧
    s.outbox.keys = [1, 0] ∧ s.stored.Nodup ∧ Xor (0 ∈ s.outbox) (0 ∈ s.stored) := by
  have hrun : (drained.foldlM (perform .plain) {}).map (fun s =>
      (s.stored, s.outbox.keys, s.system.ledger.nextId, s.revoked)) =
      some ([2], [1, 0], 3, []) := by
    decide
  obtain ⟨s, hs, heq⟩ := Option.map_eq_some_iff.mp hrun
  simp only [Prod.mk.injEq] at heq
  obtain ⟨hstored, hkeys, hnext, hrevoked⟩ := heq
  have hrun : Run (Step .plain) {} drained s := Run.of_foldlM (fun h => h) hs
  obtain ⟨hone, honce, -⟩ := relay_exact hrun
  exact ⟨s, hrun, hstored, hkeys, honce, hone 0 (by rw [hnext]; decide) (by simp [hrevoked])⟩

/-- A console cancel has deleted the job's outbox row, and not committed yet. -/
def cancelling : List WorldEvent :=
  [.jobs (.enqueue 0 "publish" 0), .lock 1 0, .drain [("publish", none)] 1]

/-- **A console cancel holds a row back.**  The drain passes over a row that a cancel under way has
locked, and ends with it left, although the storage refused nothing and no other relay runs. -/
theorem cancel_holds_back : ¬ ∀ (w : Worker) es s (i : ℕ) r a t r', Run (Step w) {} es s →
    s.relays[i]? = some r → 0 < r.batch → Step w s (.relay i a) t → t.relays[i]? = some r' →
      r'.phase = .done → ∀ id o, t.outbox.lookup id = some o → o.jobType ∈ r'.jobTypes →
        id ∈ r'.rejected ∨ ∃ (j : ℕ) (q : Relay), j ≠ i ∧ t.relays[j]? = some q ∧ id ∈ q.held := by
  intro h
  have hrun : (cancelling.foldlM (perform .plain) {}).bind (fun s =>
      (s.perform .plain (.relay 0 .claim)).map fun t =>
        (s.relays, t.relays, (t.outbox.lookup 0).map (·.jobType))) =
      some ([{ registry := [("publish", none)], batch := 1 }],
        [{ registry := [("publish", none)], batch := 1, phase := .done }], some "publish") := by
    decide
  obtain ⟨s, hs, hrun⟩ := Option.bind_eq_some_iff.mp hrun
  obtain ⟨t, ht, heq⟩ := Option.map_eq_some_iff.mp hrun
  simp only [Prod.mk.injEq] at heq
  obtain ⟨hrelays, hrelays', hrow⟩ := heq
  obtain ⟨o, ho, htype⟩ := Option.map_eq_some_iff.mp hrow
  rcases h .plain cancelling s 0 _ .claim t _ (Run.of_foldlM (fun h => h) hs) (by rw [hrelays]; rfl)
    (by decide) ht (by rw [hrelays']; rfl) rfl 0 o ho (by rw [htype]; decide) with
    hrejected | ⟨j, q, hj, hq, -⟩
  · cases hrejected
  · rw [hrelays', List.getElem?_singleton, if_neg hj] at hq
    cases hq

end World

end Postit.Jobs
