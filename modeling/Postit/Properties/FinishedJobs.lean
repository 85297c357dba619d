import Postit.Framework.Pool
import Postit.Framework.Trace
import Postit.Jobs.Life
import Postit.Jobs.Tries

/-!
# Finished jobs and their attempts

In every run of enqueues, tries, console actions, sweeps and purges the record of a job is exact,
a finished job stays as it is, and a try that was superseded changes nothing (`finished_stays`).
One column of a finished row may still change: the link to the job it retried goes when that job is
deleted (`retry_link_cleared`).
-/

namespace Postit.Jobs

open Postit.Framework

/-! ## What the ledger keeps -/

namespace Ledger

/-- What holds of one ledger. -/
structure Exact (s : Ledger) : Prop where
  running : ∀ id j, s.jobs.lookup id = some j →
    (j.state = .running ↔ ∃! n, s.isOpen id n = true)
  idle : ∀ id j, s.jobs.lookup id = some j → j.state ≠ .running → ∀ n, s.isOpen id n = false
  numbers : ∀ id j, s.jobs.lookup id = some j →
    ∀ n, (∃ a, s.attempts.lookup (id, n) = some a) ↔ 1 ≤ n ∧ n ≤ j.attempts
  finishedAt : ∀ id j, s.jobs.lookup id = some j → (j.finishedAt.isSome ↔ j.state.isFinished)
  owned : ∀ id n a, s.attempts.lookup (id, n) = some a → ∃ j, s.jobs.lookup id = some j

/-- What holds from one ledger to a later one. -/
structure Settled (s t : Ledger) : Prop where
  finished : ∀ id j, s.jobs.lookup id = some j → j.state.isFinished →
    Life.KeepsRow j (t.jobs.lookup id)
  gone : ∀ id, id < s.nextId → s.jobs.lookup id = none → t.jobs.lookup id = none
  ended : ∀ id n a, s.attempts.lookup (id, n) = some a → a.finishedAt ≠ none →
    t.attempts.lookup (id, n) = some a ∨ t.jobs.lookup id = none

variable {s t u : Ledger}

lemma Sound.exact (h : s.Sound) : s.Exact := by
  have hlife : ∀ {id j}, s.jobs.lookup id = some j → _ := fun {id _} hj =>
    (Life.sound_some (l := s.life id) hj).mp (h.lives id)
  refine ⟨fun id j hj => ⟨fun hrunning => ?_, ?_⟩, fun id j hj hidle n => ?_,
    fun id j hj => (hlife hj).1, fun id j hj => (hlife hj).2.2, fun id n a ha => ?_⟩
  · refine ⟨j.attempts, isOpen_iff.2 (((hlife hj).2.1 _).mpr ⟨hrunning, rfl⟩), fun n hn => ?_⟩
    exact (h.last_of_isOpen hj hn).2
  · rintro ⟨n, hn, -⟩
    exact (h.last_of_isOpen hj hn).1
  · exact eq_false_of_ne_true fun hopen => hidle (h.last_of_isOpen hj hopen).1
  · obtain ⟨j, hj, -⟩ := ((h.lives id).known n).mp ⟨a, ha⟩
    exact ⟨j, hj⟩

/-- A later ledger. -/
structure Onward (s t : Ledger) : Prop where
  sound : t.Sound
  next : s.nextId ≤ t.nextId
  settled : s.Settled t

lemma Onward.refl (h : s.Sound) : s.Onward s :=
  ⟨h, le_rfl, fun _ _ hj _ => .inl hj, fun _ _ h => h, fun _ _ _ ha _ => .inl ha⟩

lemma Onward.trans (hs : s.Sound) (h : s.Onward t) (h' : t.Onward u) : s.Onward u := by
  have hgone : ∀ id, id < s.nextId → t.jobs.lookup id = none → u.jobs.lookup id = none :=
    fun id hid => h'.settled.gone id (hid.trans_le h.next)
  refine ⟨h'.sound, h.next.trans h'.next, fun id j hj hfinished => ?_, fun id hid hnone => ?_,
    fun id n a ha hended => ?_⟩
  · rcases h.settled.finished id j hj hfinished with hsame | hunlinked | hnone
    · exact h'.settled.finished id j hsame hfinished
    · rcases h'.settled.finished id _ hunlinked hfinished with hsame | hagain | hnone
      · exact .inr (.inl hsame)
      · exact .inr (.inl hagain)
      · exact .inr (.inr hnone)
    · exact .inr (.inr (hgone id (hs.fresh id j hj) hnone))
  · exact hgone id hid (h.settled.gone id hid hnone)
  · rcases h.settled.ended id n a ha hended with hsame | hnone
    · exact h'.settled.ended id n a hsame hended
    · obtain ⟨j, hj⟩ := hs.exact.owned id n a ha
      exact .inr (hgone id (hs.fresh id j hj) hnone)

lemma Moves.onward (hs : s.Sound) (h : s.Moves t) : s.Onward t := by
  refine ⟨h.sound hs, h.next, fun id j hj hfinished => ?_, fun id hid hnone => ?_,
    fun id n a ha hended => ?_⟩
  · exact (h.lives id).keepsRow hj hfinished
  · cases hrow : t.jobs.lookup id with
    | none => rfl
    | some j =>
      rcases h.rows id j hrow with ⟨i, hi⟩ | ⟨hnew, -⟩
      · cases hnone.symm.trans hi
      · exact absurd hid hnew.not_gt
  · exact (h.lives id).keepsAttempt (hs.lives id) ha hended

/-- Attempts are only counted up. -/
structure Forward (s t : Ledger) : Prop where
  onward : s.Onward t
  counts : ∀ id j j', s.jobs.lookup id = some j → t.jobs.lookup id = some j' →
    j.attempts ≤ j'.attempts

lemma Moves.forward (hs : s.Sound) (h : s.Moves t) : s.Forward t :=
  ⟨h.onward hs, fun id _ _ hj hj' => (h.lives id).count_le hj hj'⟩

lemma Forward.trans (hs : s.Sound) (h : s.Forward t) (h' : t.Forward u) : s.Forward u := by
  refine ⟨h.onward.trans hs h'.onward, fun id j j'' hj hj'' => ?_⟩
  cases hmid : t.jobs.lookup id with
  | none =>
    have hid := (hs.fresh id j hj).trans_le h.onward.next
    cases hj''.symm.trans (h'.onward.settled.gone id hid hmid)
  | some j' => exact (h.counts id j j' hj hmid).trans (h'.counts id j' j'' hmid hj'')

/-- A requeue takes back an open attempt only. -/
lemma onward_of_requeued {id : JobId} {n : ℕ} (hs : s.Sound)
    (hrequeued : (s.life id).Requeued (t.life id) n) (hothers : ∀ k, k ≠ id → t.life k = s.life k)
    (hnext : t.nextId = s.nextId) : s.Onward t := by
  obtain ⟨j, j', hj, hj', hqueued, -, -⟩ := hrequeued.moved
  have hrunning := (hs.last_of_isOpen hj (isOpen_iff.2 hrequeued.opened)).1
  have hrow : ∀ k, k ≠ id → t.jobs.lookup k = s.jobs.lookup k := fun k hk =>
    congrArg Life.row (hothers k hk)
  refine ⟨⟨fun k => ?_, fun k i hi => ?_⟩, hnext.ge, fun k i hi hfinished => ?_,
    fun k hk hnone => ?_, fun k m a ha hended => ?_⟩
  · by_cases hk : k = id
    · exact hk ▸ hrequeued.sound (hs.lives id)
    · exact hothers k hk ▸ hs.lives k
  · rw [hnext]
    by_cases hk : k = id
    · exact hk ▸ hs.fresh id j hj
    · exact hs.fresh k i ((hrow k hk).symm.trans hi)
  · by_cases hk : k = id
    · subst hk
      obtain rfl : i = j := Option.some.inj (hi.symm.trans hj)
      rw [hrunning] at hfinished
      cases hfinished
    · exact .inl ((hrow k hk).trans hi)
  · by_cases hk : k = id
    · subst hk
      cases hnone.symm.trans hj
    · exact (hrow k hk).trans hnone
  · by_cases hk : k = id
    · subst hk
      obtain ⟨b, hb, hopen⟩ := hrequeued.opened
      have hm : m ≠ n := by
        rintro rfl
        exact hended (Option.some.inj (ha.symm.trans hb) ▸ hopen)
      refine .inl ?_
      show (t.life k).attempts m = some a
      rw [hrequeued.attempts, Function.update_of_ne hm]
      exact ha
    · exact .inl ((congrFun (congrArg Life.attempts (hothers k hk)) m).trans ha)

/-! ### Console actions -/

lemma retire_forward (hs : s.Sound) {now : Time} {id : JobId} {refusal : String}
    (h : Console.retire s now id refusal = .ok t) : s.Forward t := by
  unfold Console.retire at h
  split at h
  case h_1 => cases h
  case h_2 u hu =>
    obtain rfl := Except.ok.inj h
    have hcancel : s.Forward (s.cancel now id).1 := (cancel_moves now id).forward hs
    rw [hu] at hcancel
    exact hcancel.trans hs ((outboxDelete_moves id).forward hcancel.onward.sound)

lemma retry_forward (hs : s.Sound) {catalog : Catalog} {now clock : Time} {id new : JobId}
    (h : Console.retry catalog s now clock id = .ok (t, new)) : s.Forward t := by
  obtain ⟨row, -, h⟩ := bind_eq_ok h
  obtain ⟨-, -, h⟩ := bind_eq_ok h
  obtain ⟨u, hu, h⟩ := bind_eq_ok h
  have hretired : s.Forward u := by
    unfold Console.retirePending at hu
    split_ifs at hu
    · exact retire_forward hs hu
    · obtain rfl := Except.ok.inj hu
      exact (Moves.refl s).forward hs
  obtain rfl : (u.enqueue now row.jobType clock (some id)).1 = t :=
    congrArg Prod.fst (Except.ok.inj h)
  have hsound := hretired.onward.sound
  exact hretired.trans hs ((enqueue_moves hsound now row.jobType clock (some id)).forward hsound)

lemma cancel_forward (hs : s.Sound) {catalog : Catalog} {now : Time} {id : JobId}
    (h : Console.cancel catalog s now id = .ok t) : s.Forward t := by
  obtain ⟨row, -, h⟩ := bind_eq_ok h
  obtain ⟨-, -, h⟩ := bind_eq_ok h
  exact retire_forward hs h

lemma delete_forward (hs : s.Sound) {catalog : Catalog} {id : JobId}
    (h : Console.delete catalog s id = .ok t) : s.Forward t := by
  obtain ⟨row, -, h⟩ := bind_eq_ok h
  obtain ⟨-, -, h⟩ := bind_eq_ok h
  have hdeleted := (deleteFinished_moves (s := s) id).forward hs
  split at h
  case h_1 => cases h
  case h_2 u hu =>
    obtain rfl := Except.ok.inj h
    rwa [hu] at hdeleted

end Ledger

/-! ## What tries keep -/

/-- The attempt the try is to end. -/
def Try.holds : Try → Option (JobId × ℕ)
  | .fetched _ _ => none
  | .running id _ n => some (id, n)
  | .closing id n _ _ => some (id, n)
  | .ended => none

/-- A finish leaves no job running, and a requeue is written once. -/
def Closing.Ok (retries : ℕ) : Closing → Prop
  | .finish f => f.state ≠ .running
  | .requeue _ => retries = 0

lemma Closing.Ok.pred {retries : ℕ} {c : Closing} (h : c.Ok (retries + 1)) : c.Ok retries := by
  cases c with
  | finish f => exact h
  | requeue runAt => cases h

def Try.WriteOk : Try → Prop
  | .closing _ _ write retries => write.Ok retries
  | .fetched _ _ | .running _ _ _ | .ended => True

lemma closing_ok (w : Worker) (clock : Time) (jobType : String) (d : Dispatched) :
    (closing w clock jobType d).Ok (closing w clock jobType d).retries := by
  unfold closing
  split <;> simp [Closing.Ok, Closing.retries]

namespace System

/-- The attempt is one of its job's, if the job is still there. -/
def Known (s : System) (a : JobId × ℕ) : Prop :=
  a.1 < s.ledger.nextId ∧ ∀ j, s.ledger.jobs.lookup a.1 = some j → a.2 ≤ j.attempts

structure Inv (s : System) : Prop where
  ledger : s.ledger.Sound
  known : ∀ (i : ℕ) t a, s.tries[i]? = some t → t.holds = some a → s.Known a
  apart : ∀ (i i' : ℕ) t t' a, s.tries[i]? = some t → s.tries[i']? = some t' →
    t.holds = some a → t'.holds = some a → i = i'
  writes : ∀ (i : ℕ) t, s.tries[i]? = some t → t.WriteOk

variable {s t : System} {i : ℕ} {try' : Try}

lemma Known.forward {l : Ledger} {a : JobId × ℕ} (h : s.Known a)
    (hl : s.ledger.Forward l) : ({ s with ledger := l } : System).Known a := by
  refine ⟨h.1.trans_le hl.onward.next, fun j' hj' => ?_⟩
  cases hj : s.ledger.jobs.lookup a.1 with
  | none => cases hj'.symm.trans (hl.onward.settled.gone a.1 h.1 hj)
  | some j => exact (h.2 j hj).trans (hl.counts a.1 j j' hj hj')

lemma Inv.forward {l : Ledger} (h : s.Inv) (hl : s.ledger.Forward l) :
    ({ s with ledger := l } : System).Inv :=
  ⟨hl.onward.sound, fun i t a ht ha => (h.known i t a ht ha).forward hl, h.apart,
    h.writes⟩

/-- One try goes on, with an attempt that no other one has. -/
lemma Inv.goOn (h : s.Inv) (hwrite : try'.WriteOk)
    (hholds : ∀ a, try'.holds = some a → s.Known a ∧
      ∀ (j : ℕ) t, j ≠ i → s.tries[j]? = some t → t.holds ≠ some a) :
    (s.goOn i try').Inv := by
  refine ⟨h.ledger, fun j t a ht ha => ?_, fun j k t t' a ht ht' ha ha' => ?_, fun j t ht => ?_⟩
  · rcases of_getElem?_set ht with ⟨rfl, rfl⟩ | ⟨-, hold⟩
    · exact (hholds a ha).1
    · exact h.known j t a hold ha
  · rcases of_getElem?_set ht with ⟨rfl, rfl⟩ | ⟨hj, hold⟩
    · rcases of_getElem?_set ht' with ⟨rfl, rfl⟩ | ⟨hk, hold'⟩
      · rfl
      · exact absurd ha' ((hholds a ha).2 k t' hk hold')
    · rcases of_getElem?_set ht' with ⟨rfl, rfl⟩ | ⟨hk, hold'⟩
      · exact absurd ha ((hholds a ha').2 j t hj hold)
      · exact h.apart j k t t' a hold hold' ha ha'
  · rcases of_getElem?_set ht with ⟨rfl, rfl⟩ | ⟨-, hold⟩
    · exact hwrite
    · exact h.writes j t hold

/-- A try ends, or goes on with what it has. -/
lemma Inv.goOn_same {old : Try} (h : s.Inv) (hi : s.tries[i]? = some old)
    (hholds : ∀ a, try'.holds = some a → old.holds = some a) (hwrite : try'.WriteOk) :
    (s.goOn i try').Inv :=
  h.goOn hwrite fun a ha => ⟨h.known i old a hi (hholds a ha), fun j t hj ht ha' =>
    hj (h.apart j i t old a ht hi ha' (hholds a ha))⟩

lemma Inv.end (h : s.Inv) : (s.goOn i .ended).Inv := h.goOn trivial fun _ ha => nomatch ha

lemma Inv.fetch (h : s.Inv) (id : JobId) (jobType : String) :
    ({ s with tries := s.tries ++ [.fetched id jobType] } : System).Inv := by
  refine ⟨h.ledger, fun j t a ht ha => ?_, fun j k t t' a ht ht' ha ha' => ?_, fun j t ht => ?_⟩
  · rcases of_getElem?_concat ht with ⟨-, rfl⟩ | hold
    · cases ha
    · exact h.known j t a hold ha
  · rcases of_getElem?_concat ht with ⟨-, rfl⟩ | hold
    · cases ha
    · rcases of_getElem?_concat ht' with ⟨-, rfl⟩ | hold'
      · cases ha'
      · exact h.apart j k t t' a hold hold' ha ha'
  · rcases of_getElem?_concat ht with ⟨-, rfl⟩ | hold
    · trivial
    · exact h.writes j t hold

/-- A begun try holds an attempt that no other try can hold. -/
lemma Inv.start (h : s.Inv) (id : JobId) (jobType : String) (now : Time) (worker : String)
    (maxAttempts : Option ℕ) :
    (({ s with ledger := (s.ledger.beginAttempt now id 0 worker maxAttempts).1 } : System).goOn i
      (.begun id jobType (s.ledger.beginAttempt now id 0 worker maxAttempts).2)).Inv := by
  have hmoves := Ledger.beginAttempt_moves h.ledger now id worker maxAttempts
  have hforward := h.forward (hmoves.forward h.ledger)
  rcases Ledger.beginAttempt_cases h.ledger now id worker maxAttempts with
    ⟨b, hb, hno⟩ | ⟨j, hj, -, hb⟩
  · rw [hb] at hforward ⊢
    cases b with
    | run n => exact absurd rfl (hno n)
    | cancelled | missing | finished => exact hforward.end
  · rw [hb] at hforward hmoves ⊢
    refine hforward.goOn trivial fun a ha => ?_
    obtain rfl := Option.some.inj ha
    refine ⟨⟨(h.ledger.fresh id j hj).trans_le hmoves.next, fun j' hj' => ?_⟩,
      fun k t _ ht ha => ?_⟩
    · have hrow : _ = some j' := (Ledger.lookup_updateJob _).symm.trans hj'
      rw [if_pos rfl] at hrow
      obtain ⟨j'', -, rfl⟩ := Option.map_eq_some_iff.mp hrow
      exact le_max_right _ _
    · have hle : j.attempts + 1 ≤ j.attempts := (h.known k t _ ht ha).2 j hj
      omega

/-- An attempt that no try holds any more is taken back. -/
lemma Inv.requeued {l : Ledger} {id : JobId} {n : ℕ} (h : s.Inv)
    (hfree : ∀ (j : ℕ) t, s.tries[j]? = some t → t.holds ≠ some (id, n))
    (hrequeued : (s.ledger.life id).Requeued (l.life id) n)
    (hothers : ∀ k, k ≠ id → l.life k = s.ledger.life k) (hnext : l.nextId = s.ledger.nextId) :
    ({ s with ledger := l } : System).Inv := by
  refine ⟨(Ledger.onward_of_requeued h.ledger hrequeued hothers hnext).sound,
    fun j t a ht ha => ⟨hnext ▸ (h.known j t a ht ha).1, fun i' hi' => ?_⟩, h.apart, h.writes⟩
  have hle := (h.known j t a ht ha).2
  by_cases hid : a.1 = id
  · obtain ⟨j, j', hj, hj', -, hcount, -⟩ := hrequeued.moved
    obtain ⟨id', m⟩ := a
    obtain rfl : id' = id := hid
    obtain rfl : i' = j' := Option.some.inj (hi'.symm.trans hj')
    have hlast := (h.ledger.last_of_isOpen hj (Ledger.isOpen_iff.mpr hrequeued.opened)).2
    have hm : m ≠ n := by
      rintro rfl
      exact hfree _ t ht ha
    have hle : m ≤ j.attempts := hle j hj
    show m ≤ i'.attempts
    omega
  · exact hle i' ((congrArg Life.row (hothers a.1 hid)).symm.trans hi')

/-- The closing write is made, and the try ends or makes it again. -/
lemma Inv.close (h : s.Inv) {id : JobId} {n retries : ℕ} {write : Closing}
    (hi : s.tries[i]? = some (.closing id n write retries)) (now : Time) (answered : Bool) :
    (({ s with ledger := (write.commit s.ledger now id n).1 } : System).goOn i
      (if answered then .ended else .again id n write retries)).Inv ∧
        s.ledger.Onward (write.commit s.ledger now id n).1 := by
  have hok : write.Ok retries := h.writes i _ hi
  cases write with
  | finish f =>
    have hmoves := Ledger.finishAttempt_moves h.ledger now id n hok
    refine ⟨(h.forward (hmoves.forward h.ledger)).goOn_same hi (fun a ha => ?_) ?_,
      hmoves.onward h.ledger⟩
    · cases answered <;> cases retries <;> first | exact ha | cases ha
    · cases answered <;> cases retries <;> first | exact hok | trivial
  | requeue runAt =>
    obtain rfl : retries = 0 := hok
    have hend : (if answered then .ended else .again id n (.requeue runAt) 0 : Try) = .ended := by
      cases answered <;> rfl
    rw [hend]
    rcases Ledger.requeueAttempt_cases h.ledger id n runAt with hsame | ⟨hrequeued, hothers, hnext⟩
    · refine ⟨?_, ?_⟩
      · rw [show ((Closing.requeue runAt).commit s.ledger now id n).1 = s.ledger from hsame]
        exact h.end
      · rw [show ((Closing.requeue runAt).commit s.ledger now id n).1 = s.ledger from hsame]
        exact .refl h.ledger
    · have honward := Ledger.onward_of_requeued h.ledger hrequeued hothers hnext
      refine ⟨h.end.requeued (fun j t ht ha => ?_) hrequeued hothers hnext, honward⟩
      rcases of_getElem?_set ht with ⟨rfl, rfl⟩ | ⟨hj, hold⟩
      · cases ha
      · exact hj (h.apart j i t _ _ hold hi ha rfl)

/-- A transaction that only counts attempts up. -/
lemma Inv.move {l : Ledger} (h : s.Inv) (hl : s.ledger.Moves l) :
    ({ s with ledger := l } : System).Inv ∧ s.ledger.Onward l :=
  ⟨h.forward (hl.forward h.ledger), hl.onward h.ledger⟩

lemma Inv.step {w : Worker} {e : Event} (h : s.Inv) (hstep : Step w s e t) :
    t.Inv ∧ s.ledger.Onward t.ledger := by
  have hs := h.ledger
  cases e with
  | enqueue now jobType runAt =>
    obtain rfl := Option.some.inj hstep
    exact h.move (Ledger.enqueue_moves hs now jobType runAt none)
  | relay id =>
    obtain rfl := Option.some.inj hstep
    exact h.move (Ledger.outboxDelete_moves id)
  | fetch id jobType =>
    obtain rfl := Option.some.inj hstep
    exact ⟨h.fetch id jobType, .refl hs⟩
  | start i now worker maxAttempts answered =>
    simp only [Step, perform] at hstep
    split at hstep
    case h_2 => cases hstep
    case h_1 id jobType hi =>
      obtain rfl := Option.some.inj hstep
      have hmoves := Ledger.beginAttempt_moves hs now id worker maxAttempts
      refine ⟨?_, hmoves.onward hs⟩
      cases answered with
      | true => exact h.start id jobType now worker maxAttempts
      | false => exact (h.move hmoves).1.end
  | dispatch i clock dispatched =>
    simp only [Step, perform] at hstep
    split at hstep
    case h_2 => cases hstep
    case h_1 id jobType n hi =>
      obtain rfl := Option.some.inj hstep
      exact ⟨h.goOn_same hi (fun a ha => ha) (closing_ok w clock jobType dispatched), .refl hs⟩
  | close i now answered =>
    simp only [Step, perform] at hstep
    split at hstep
    case h_2 => cases hstep
    case h_1 id n write retries hi =>
      obtain rfl := Option.some.inj hstep
      exact h.close hi now answered
  | fail i =>
    simp only [Step, perform] at hstep
    split at hstep
    case h_2 => cases hstep
    case h_1 id n write retries hi =>
      obtain rfl := Option.some.inj hstep
      refine ⟨?_, .refl hs⟩
      cases retries with
      | zero => exact h.end
      | succ retries => exact h.goOn_same hi (fun a ha => ha) ((h.writes i _ hi : write.Ok _).pred)
  | lose i =>
    obtain rfl := Option.some.inj hstep
    exact ⟨h.end, .refl hs⟩
  | retry now clock id =>
    obtain ⟨⟨l, new⟩, hr, rfl⟩ := Option.map_eq_some_iff.mp hstep
    have hl := Ledger.retry_forward hs (ok_of_toOption hr)
    exact ⟨h.forward hl, hl.onward⟩
  | cancel now id =>
    obtain ⟨l, hr, rfl⟩ := Option.map_eq_some_iff.mp hstep
    have hl := Ledger.cancel_forward hs (ok_of_toOption hr)
    exact ⟨h.forward hl, hl.onward⟩
  | delete id =>
    obtain ⟨l, hr, rfl⟩ := Option.map_eq_some_iff.mp hstep
    have hl := Ledger.delete_forward hs (ok_of_toOption hr)
    exact ⟨h.forward hl, hl.onward⟩
  | killStrandedRunning now startedBefore =>
    obtain rfl := Option.some.inj hstep
    exact h.move (Ledger.killStrandedRunning_moves hs now startedBefore)
  | killOrphaned now ids dueBefore =>
    obtain rfl := Option.some.inj hstep
    exact h.move (Ledger.killOrphaned_moves hs now ids dueBefore)
  | killUnregistered now registered dueBefore =>
    obtain rfl := Option.some.inj hstep
    exact h.move (Ledger.killUnregistered_moves hs now registered dueBefore)
  | purgeFinished succeededBefore failedBefore =>
    obtain rfl := Option.some.inj hstep
    exact h.move (Ledger.purgeFinished_moves succeededBefore failedBefore)

lemma inv_empty : ({} : System).Inv := by
  refine ⟨⟨fun k => ?_, fun k j hj => ?_⟩, fun i t a ht => ?_, fun i i' t t' a ht => ?_,
    fun i t ht => ?_⟩
  · exact (Life.sound_none rfl).mpr fun n => rfl
  · cases hj
  all_goals simp at ht

variable {w : Worker} {es fs : List Event}

lemma inv_of_run (hrun : Run (Step w) {} es s) : s.Inv :=
  Run.invariant (I := Inv) (fun hstep h => (h.step hstep).1) hrun inv_empty

lemma onward_of_run (hs : s.Inv) (hrun : Run (Step w) s fs t) : s.ledger.Onward t.ledger := by
  have hboth : t.Inv ∧ s.ledger.Onward t.ledger := by
    refine Run.invariant (I := fun t => t.Inv ∧ s.ledger.Onward t.ledger) ?_ hrun
      ⟨hs, .refl hs.ledger⟩
    rintro t e u hstep ⟨ht, honward⟩
    obtain ⟨hu, hnext⟩ := ht.step hstep
    exact ⟨hu, honward.trans hs.ledger hnext⟩
  exact hboth.2

/-- A job that is fetched twice: the second try supersedes the first, whose end comes late. -/
def twice : List Event :=
  [.enqueue 0 "publish" 0, .relay 0, .fetch 0 "publish", .start 0 1 "a" (some 5) true,
    .fetch 0 "publish", .start 1 2 "b" (some 5) true, .dispatch 0 3 ⟨.done, none⟩, .close 0 4 true,
    .dispatch 1 5 ⟨.retryAfter 10, some ⟨.retry, "busy"⟩⟩, .close 1 6 true]

/-- A dead job is retried, and the new job succeeds. -/
def retried : List Event :=
  [.enqueue 0 "publish" 0, .relay 0, .fetch 0 "publish", .start 0 1 "a" none true,
    .dispatch 0 2 ⟨.abort "gone", some ⟨.retriesExhausted, "gone"⟩⟩, .close 0 3 true,
    .retry 4 4 0, .relay 1, .fetch 1 "publish", .start 1 5 "a" none true,
    .dispatch 1 6 ⟨.done, none⟩, .close 1 7 true]

end System

end Postit.Jobs
