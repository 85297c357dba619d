import Postit.Data.Blocks
import Postit.Data.Sessions

/-!
# Transactions and cancelled jobs

What each transaction owes so that no delivery of a cancelled job waits for a worker.  A
transaction that cancels a job holds all its deliveries until it commits (`InOrder.atCancel`), and
one that sends a delivery back to `pending` holds the delivery since it saw the job uncancelled:
neither can commit between the other's look and its own commit (`Rely.uncancelled`).
-/

namespace Postit

/-! ## States of deliveries of cancelled jobs -/

/-- The delivery waits for a worker, or for the one that claimed it to start. -/
def StateName.isWaiting : StateName → Bool
  | .pending | .claimed => true
  | _ => false

/-- How far a delivery is on its way to its end, when it is not sent back. -/
def StateName.progress : StateName → ℕ
  | .pending | .claimed => 0
  | .inFlight => 1
  | .processing => 2
  | .outcomeUnknown => 3
  | .parked => 4
  | .published | .failed | .deadLetter | .cancelled | .simulated => 5

/-- A delivery of a cancelled job only moves on: it stays, it goes further, or it has ended and
another end is recorded. -/
def Onward (s s' : StateName) : Prop :=
  s' = s ∨ (s.isTerminal = true ∧ s'.isTerminal = true) ∨ s.progress < s'.progress

/-- What cancelling its job does to a delivery: one that waits or is parked is cancelled, and any
other is left as it is, but for a running campaign, which is cancelled too. -/
def AtCancel (s s' : StateName) : Prop :=
  if s = .pending ∨ s = .claimed ∨ s = .parked then s' = .cancelled
  else s' = s ∨ (s = .processing ∧ s' = .cancelled)

instance (s s' : StateName) : Decidable (Onward s s') := inferInstanceAs (Decidable (_ ∨ _ ∨ _))

lemma Onward.refl (s : StateName) : Onward s s := .inl rfl

lemma StateName.progress_of_isTerminal {s : StateName} (h : s.isTerminal = true) :
    s.progress = 5 := by
  cases s <;> first | rfl | cases h

lemma StateName.progress_le (s : StateName) : s.progress ≤ 5 := by
  cases s <;> decide

lemma Onward.trans {s₁ s₂ s₃ : StateName} (h : Onward s₁ s₂) (h' : Onward s₂ s₃) :
    Onward s₁ s₃ := by
  rcases h with rfl | ⟨hs₁, hs₂⟩ | hlt
  · exact h'
  · rcases h' with rfl | ⟨-, hs₃⟩ | hlt'
    · exact .inr (.inl ⟨hs₁, hs₂⟩)
    · exact .inr (.inl ⟨hs₁, hs₃⟩)
    · have := StateName.progress_of_isTerminal hs₂
      have := s₃.progress_le
      omega
  · rcases h' with rfl | ⟨hs₂, hs₃⟩ | hlt'
    · exact .inr (.inr hlt)
    · rw [StateName.progress_of_isTerminal hs₂, ← StateName.progress_of_isTerminal hs₃] at hlt
      exact .inr (.inr hlt)
    · exact .inr (.inr (hlt.trans hlt'))

lemma Onward.not_waiting {s s' : StateName} (h : Onward s s') (hs : s.isWaiting = false) :
    s'.isWaiting = false := by
  rcases h with rfl | ⟨-, hs'⟩ | hlt
  · exact hs
  · cases s' <;> first | rfl | cases hs'
  · cases s' <;> first | rfl | exact absurd hlt (Nat.not_lt_zero _)

lemma Onward.cancelled (s : StateName) : Onward s .cancelled := by
  cases s <;> first | exact .inr (.inr (by decide)) | exact .inr (.inl ⟨rfl, rfl⟩)

lemma AtCancel.not_waiting {s s' : StateName} (h : AtCancel s s') : s'.isWaiting = false := by
  unfold AtCancel at h
  split at h
  · rw [h]
    rfl
  · rename_i hs
    rcases h with rfl | ⟨-, rfl⟩
    · cases s' <;> simp_all [StateName.isWaiting]
    · rfl

lemma AtCancel.cancelled {s : StateName}
    (hs : s = .pending ∨ s = .claimed ∨ s = .parked ∨ s = .processing) : AtCancel s .cancelled := by
  rcases hs with rfl | rfl | rfl | rfl <;> simp [AtCancel]

lemma AtCancel.refl {s : StateName} (hs : s ≠ .pending ∧ s ≠ .claimed ∧ s ≠ .parked) :
    AtCancel s s := by
  simp [AtCancel, hs]

namespace Data

open Postit.Framework

/-- A move from a state that does not wait, to one that is not `pending`, goes on. -/
lemma Move.onward {m : Move} (hs : m.expected.asStr.isWaiting = false)
    (ht : m.target ≠ .pending) : Onward m.expected.asStr m.target.asStr := by
  obtain ⟨expected, target, event, hlegal⟩ := m
  rcases hlegal with hok | ⟨-, rfl⟩
  · exact of_transition (P := fun s _ t => s.asStr.isWaiting = false → t ≠ .pending →
      Onward s.asStr t.asStr) (by decide) hok hs ht
  · exact .cancelled _

/-! ## What the others may do -/

/-- The job was cancelled. -/
def Db.Cancelled (db : Db) (job : PublishJobId) : Prop :=
  ∃ j, db.jobs.lookup job = some j ∧ j.cancelledAt.isSome = true

lemma Db.cancelled_congr {db db' : Db} {job : PublishJobId}
    (h : db'.jobs.lookup job = db.jobs.lookup job) : db'.Cancelled job ↔ db.Cancelled job := by
  rw [Db.Cancelled, h, Db.Cancelled]

/-- No delivery of a cancelled job waits for a worker. -/
def Unstranded (db : Db) : Prop :=
  ∀ id d, db.deliveries.lookup id = some d → db.Cancelled d.jobId → d.state.isWaiting = false

/-- What the others may do to the committed database while a transaction holds `held`. -/
structure Rely (held : List (RowRef × LockMode)) (db db' : Db) : Prop where
  unstranded : Unstranded db → Unstranded db'
  rows : ∀ id, (.delivery id, .update) ∈ held → db'.deliveries.lookup id = db.deliveries.lookup id
  jobs : ∀ job, (.job job, .update) ∈ held → db'.jobs.lookup job = db.jobs.lookup job
  kept : ∀ id d, db.deliveries.lookup id = some d →
    ∃ d', db'.deliveries.lookup id = some d' ∧ d'.jobId = d.jobId
  -- deliveries come with their jobs
  came : ∀ id d', db'.deliveries.lookup id = some d' → db.deliveries.lookup id = none →
    db.jobs.lookup d'.jobId = none
  jobKept : ∀ job j, db.jobs.lookup job = some j → ∃ j', db'.jobs.lookup job = some j'
  cancelled : ∀ job, db.Cancelled job → db'.Cancelled job
  -- nobody else cancels the job of a delivery that is held
  uncancelled : ∀ id d, (.delivery id, .update) ∈ held → db.deliveries.lookup id = some d →
    db'.Cancelled d.jobId → db.Cancelled d.jobId

lemma Rely.of_eq {held : List (RowRef × LockMode)} {db db' : Db}
    (hd : db'.deliveries = db.deliveries) (hj : db'.jobs = db.jobs) : Rely held db db' where
  unstranded := by
    intro h id d hlook hc
    rw [hd] at hlook
    exact h id d hlook ((Db.cancelled_congr (by rw [hj])).mp hc)
  rows := fun id _ => by rw [hd]
  jobs := fun job _ => by rw [hj]
  kept := fun id d hlook => ⟨d, by rw [hd]; exact hlook, rfl⟩
  came := by
    intro id d' hlook hnone
    rw [hd, hnone] at hlook
    cases hlook
  jobKept := fun job j hlook => ⟨j, by rw [hj]; exact hlook⟩
  cancelled := fun job hc => (Db.cancelled_congr (by rw [hj])).mpr hc
  uncancelled := fun id d _ _ hc => (Db.cancelled_congr (by rw [hj])).mp hc

lemma Rely.trans {held : List (RowRef × LockMode)} {db db' db'' : Db} (h : Rely held db db')
    (h' : Rely held db' db'') : Rely held db db'' where
  unstranded := fun hdb => h'.unstranded (h.unstranded hdb)
  rows := fun id hid => (h'.rows id hid).trans (h.rows id hid)
  jobs := fun job hjob => (h'.jobs job hjob).trans (h.jobs job hjob)
  kept := by
    intro id d hd
    obtain ⟨d', hd', hjob⟩ := h.kept id d hd
    obtain ⟨d'', hd'', hjob'⟩ := h'.kept id d' hd'
    exact ⟨d'', hd'', hjob'.trans hjob⟩
  came := by
    intro id d'' hd'' hnone
    cases hmid : db'.deliveries.lookup id with
    | some d' =>
      obtain ⟨d₁, hd₁, hjob⟩ := h'.kept id d' hmid
      obtain rfl := Option.some.inj (hd₁.symm.trans hd'')
      rw [hjob]
      exact h.came id d' hmid hnone
    | none =>
      have habsent := h'.came id d'' hd'' hmid
      cases hj : db.jobs.lookup d''.jobId with
      | none => rfl
      | some j =>
        obtain ⟨j', hj'⟩ := h.jobKept _ j hj
        rw [habsent] at hj'
        cases hj'
  jobKept := by
    intro job j hj
    obtain ⟨j', hj'⟩ := h.jobKept job j hj
    exact h'.jobKept job j' hj'
  cancelled := fun job hc => h'.cancelled job (h.cancelled job hc)
  uncancelled := fun id d hid hd hc =>
    h.uncancelled id d hid hd (h'.uncancelled id d hid ((h.rows id hid).trans hd) hc)

/-! ## What a transaction owes -/

/-- A transaction is in order: it loses no row, its deliveries of cancelled jobs only move on, and
if it cancelled the job `J` it holds all its deliveries, and has dealt with all but `todo`. -/
structure InOrder (J : Option PublishJobId) (todo : Set DeliveryId) (l : Mine) (db : Db) :
    Prop where
  unstranded : Unstranded db
  heldRows : ∀ id row, .delivery id row ∈ l.writes → l.Holds (.delivery id)
  heldJobs : ∀ job row, .job job row ∈ l.writes → l.Holds (.job job)
  sameJob : ∀ id d d', db.deliveries.lookup id = some d →
    (l.view db).deliveries.lookup id = some d' → d'.jobId = d.jobId
  isNew : ∀ id d', (l.view db).deliveries.lookup id = some d' →
    db.deliveries.lookup id = none → db.jobs.lookup d'.jobId = none ∧ l.Holds (.job d'.jobId)
  newJob : ∀ job, db.jobs.lookup job = none → ¬ (l.view db).Cancelled job
  cancelled : ∀ job, db.Cancelled job → (l.view db).Cancelled job
  onward : ∀ id d d', db.deliveries.lookup id = some d →
    (l.view db).deliveries.lookup id = some d' → db.Cancelled d.jobId → Onward d.state d'.state
  newly : ∀ job, (l.view db).Cancelled job → db.Cancelled job ∨ J = some job
  atCancel : ∀ id d d', db.deliveries.lookup id = some d →
    (l.view db).deliveries.lookup id = some d' → J = some d.jobId → ¬ db.Cancelled d.jobId →
    (l.view db).Cancelled d.jobId →
    l.Holds (.delivery id) ∧ (id ∉ todo → AtCancel d.state d'.state)

variable {J : Option PublishJobId} {todo : Set DeliveryId} {l : Mine} {db db' : Db}

/-- A transaction that did nothing yet is in order. -/
lemma InOrder.start (h : Unstranded db) : InOrder none ∅ {} db where
  unstranded := h
  heldRows := by simp
  heldJobs := by simp
  sameJob := by
    intro id d d' hd hd'
    obtain rfl := Option.some.inj (hd.symm.trans hd')
    rfl
  isNew := by
    intro id d' hd' hnone
    exact absurd (hnone.symm.trans hd') (by simp)
  newJob := by
    rintro job hnone ⟨j, hj, -⟩
    exact absurd (hnone.symm.trans hj) (by simp)
  cancelled := fun job hc => hc
  onward := by
    intro id d d' hd hd' _
    obtain rfl := Option.some.inj (hd.symm.trans hd')
    exact .refl _
  newly := fun job hc => .inl hc
  atCancel := fun _ _ _ _ _ h => by cases h

section Stable

variable (h : InOrder J todo l db) (hrely : Rely l.held db db')
include h hrely

/-- Of a delivery, the others left what is held, or the transaction wrote nothing. -/
lemma InOrder.delivery_cases (id : DeliveryId) :
    (l.Holds (.delivery id) ∧ db'.deliveries.lookup id = db.deliveries.lookup id ∧
      (l.view db').deliveries.lookup id = (l.view db).deliveries.lookup id) ∨
    (l.view db').deliveries.lookup id = db'.deliveries.lookup id := by
  by_cases hheld : l.Holds (.delivery id)
  · have hsame := hrely.rows id hheld
    exact .inl ⟨hheld, hsame, l.view_delivery_congr hsame⟩
  · refine .inr (l.view_delivery_of_not_written db' fun row hmem => ?_)
    exact hheld (h.heldRows id row hmem)

/-- The same of a job. -/
lemma InOrder.job_cases (job : PublishJobId) :
    (l.Holds (.job job) ∧ db'.jobs.lookup job = db.jobs.lookup job ∧
      ((l.view db').Cancelled job ↔ (l.view db).Cancelled job) ∧
      (db'.Cancelled job ↔ db.Cancelled job)) ∨
    ((l.view db').Cancelled job ↔ db'.Cancelled job) := by
  by_cases hheld : l.Holds (.job job)
  · have hsame := hrely.jobs job hheld
    exact .inl ⟨hheld, hsame, Db.cancelled_congr (l.view_job_congr hsame),
      Db.cancelled_congr hsame⟩
  · refine .inr (Db.cancelled_congr (l.view_job_of_not_written db' fun row hmem => ?_))
    exact hheld (h.heldJobs job row hmem)

/-- A transaction stays in order when the others move. -/
lemma InOrder.stable : InOrder J todo l db' where
  unstranded := hrely.unstranded h.unstranded
  heldRows := h.heldRows
  heldJobs := h.heldJobs
  sameJob := by
    intro id d d' hd hd'
    rcases h.delivery_cases hrely id with ⟨-, hsame, hview⟩ | hview
    · exact h.sameJob id d d' (hsame ▸ hd) (hview ▸ hd')
    · obtain rfl := Option.some.inj (hd.symm.trans (hview ▸ hd'))
      rfl
  isNew := by
    intro id d' hd' hnone
    rcases h.delivery_cases hrely id with ⟨-, hsame, hview⟩ | hview
    · obtain ⟨hjob, hheld⟩ := h.isNew id d' (hview ▸ hd') (hsame ▸ hnone)
      exact ⟨(hrely.jobs _ hheld).trans hjob, hheld⟩
    · exact absurd (hnone.symm.trans (hview ▸ hd')) (by simp)
  newJob := by
    intro job hnone hc
    rcases h.job_cases hrely job with ⟨-, hsame, hview, -⟩ | hview
    · exact h.newJob job (hsame ▸ hnone) (hview.mp hc)
    · obtain ⟨j, hj, -⟩ := hview.mp hc
      exact absurd (hnone.symm.trans hj) (by simp)
  cancelled := by
    intro job hc
    rcases h.job_cases hrely job with ⟨-, -, hview, hdb⟩ | hview
    · exact hview.mpr (h.cancelled job (hdb.mp hc))
    · exact hview.mpr hc
  onward := by
    intro id d d' hd hd' hc
    rcases h.delivery_cases hrely id with ⟨hheld, hsame, hview⟩ | hview
    · have hdb := hsame ▸ hd
      exact h.onward id d d' hdb (hview ▸ hd') (hrely.uncancelled id d hheld hdb hc)
    · obtain rfl := Option.some.inj (hd.symm.trans (hview ▸ hd'))
      exact .refl _
  newly := by
    intro job hc
    rcases h.job_cases hrely job with ⟨-, -, hview, hdb⟩ | hview
    · exact (h.newly job (hview.mp hc)).imp_left hdb.mpr
    · exact .inl (hview.mp hc)
  atCancel := by
    intro id d d' hd hd' hJ hnot hc
    -- the job is the one this transaction cancelled, so it is held
    rcases h.job_cases hrely d.jobId with ⟨-, -, hview, hdb⟩ | hview
    · have hnot' : ¬ db.Cancelled d.jobId := fun hc' => hnot (hdb.mpr hc')
      cases hold : db.deliveries.lookup id with
      | none =>
        exact absurd (hview.mp hc) (h.newJob d.jobId (hrely.came id d hd hold))
      | some d₀ =>
        obtain ⟨d₁, hd₁, hjob⟩ := hrely.kept id d₀ hold
        obtain rfl := Option.some.inj (hd₁.symm.trans hd)
        obtain ⟨d₂, hd₂⟩ := l.exists_delivery db hold
        have hheld := (h.atCancel id d₀ d₂ hold hd₂ (hjob ▸ hJ) (hjob ▸ hnot')
          (hjob ▸ hview.mp hc)).1
        have hsame := hrely.rows id hheld
        have hd₀ : d₀ = d₁ := Option.some.inj (hold.symm.trans (hsame ▸ hd))
        subst hd₀
        exact h.atCancel id d₀ d' hold ((l.view_delivery_congr hsame) ▸ hd') hJ hnot' (hview.mp hc)
    · exact absurd (hview.mp hc) hnot

end Stable

/-- **What a commit does to the others.**  A transaction in order, with nothing left to deal with,
commits as the others may rely on. -/
lemma InOrder.commit (h : InOrder J ∅ l db) {held : List (RowRef × LockMode)}
    (hcompatible : Compatible l.held held) : Rely held db (l.view db) where
  unstranded := by
    intro _ id d' hd' hc
    cases hd : db.deliveries.lookup id with
    | none => exact absurd hc (h.newJob _ (h.isNew id d' hd' hd).1)
    | some d =>
      have hjob := h.sameJob id d d' hd hd'
      by_cases hcd : db.Cancelled d.jobId
      · exact (h.onward id d d' hd hd' hcd).not_waiting (h.unstranded id d hd hcd)
      · rw [hjob] at hc
        have hJ := (h.newly _ hc).resolve_left hcd
        exact ((h.atCancel id d d' hd hd' hJ hcd hc).2 (by simp)).not_waiting
  rows := fun id hid => l.view_delivery_of_not_written db fun row hmem =>
    hcompatible.not_mem hid _ (h.heldRows id row hmem)
  jobs := fun job hjob => l.view_job_of_not_written db fun row hmem =>
    hcompatible.not_mem hjob _ (h.heldJobs job row hmem)
  kept := by
    intro id d hd
    obtain ⟨d', hd'⟩ := l.exists_delivery db hd
    exact ⟨d', hd', h.sameJob id d d' hd hd'⟩
  came := fun id d' hd' hnone => (h.isNew id d' hd' hnone).1
  jobKept := fun job j hj => l.exists_job db hj
  cancelled := h.cancelled
  uncancelled := by
    intro id d hid hd hc
    by_contra hcd
    obtain ⟨d', hd'⟩ := l.exists_delivery db hd
    have hheld := (h.atCancel id d d' hd hd' ((h.newly _ hc).resolve_left hcd) hcd hc).1
    exact hcompatible.not_mem hid _ hheld

/-! ## One statement -/

/-- The write of a delivery keeps the transaction in order: it changes a row the transaction sees,
in a way a cancelled job allows, or adds one to a job the transaction made. -/
def RowInOrder (J : Option PublishJobId) (todo : Set DeliveryId) (l : Mine) (db : Db)
    (id : DeliveryId) (row : Delivery) : Prop :=
  (∃ d, (l.view db).deliveries.lookup id = some d ∧ row.jobId = d.jobId ∧
    (db.Cancelled d.jobId → Onward d.state row.state) ∧
    (J = some d.jobId → ¬ db.Cancelled d.jobId → (l.view db).Cancelled d.jobId → id ∉ todo →
      ∀ d₀, db.deliveries.lookup id = some d₀ → AtCancel d₀.state d.state →
        AtCancel d₀.state row.state)) ∨
  ((l.view db).deliveries.lookup id = none ∧ db.jobs.lookup row.jobId = none ∧
    l.Holds (.job row.jobId))

lemma RowInOrder.of_state {id : DeliveryId} {row d : Delivery}
    (hd : (l.view db).deliveries.lookup id = some d) (hjob : row.jobId = d.jobId)
    (hstate : row.state = d.state) : RowInOrder J todo l db id row := by
  refine .inl ⟨d, hd, hjob, fun _ => ?_, fun _ _ _ _ d₀ _ hat => ?_⟩
  · rw [hstate]
    exact .refl _
  · rw [hstate]
    exact hat

/-- A statement whose writes are in order keeps the transaction in order. -/
lemma InOrder.after (h : InOrder J todo l db) {β : Type} {e : Effect β}
    (hrows : ∀ id row, .delivery id row ∈ e.writes → RowInOrder J todo l db id row)
    (hjobs : ∀ job row, .job job row ∈ e.writes →
      ((l.view db).Cancelled job ↔ row.cancelledAt.isSome = true)) :
    InOrder J todo (statements.after l e) db := by
  -- what a row of the new view was in the old one
  have hrow {id : DeliveryId} {d' : Delivery}
      (hd' : (Mine.view (statements.after l e) db).deliveries.lookup id = some d') :
      RowInOrder J todo l db id d' ∨ (l.view db).deliveries.lookup id = some d' := by
    rw [view_after] at hd'
    rcases (l.view db).storeAll_delivery e.writes id with ⟨row, hmem, hlook⟩ | ⟨-, hlook⟩
    · obtain rfl := Option.some.inj (hlook.symm.trans hd')
      exact .inl (hrows id row hmem)
    · exact .inr (hlook.symm.trans hd')
  have hcancelled (job : PublishJobId) :
      (Mine.view (statements.after l e) db).Cancelled job ↔ (l.view db).Cancelled job := by
    rw [view_after]
    rcases (l.view db).storeAll_job e.writes job with ⟨row, hmem, hlook⟩ | ⟨-, hlook⟩
    · rw [hjobs job row hmem, Db.Cancelled]
      constructor
      · rintro ⟨j, hj, hc⟩
        obtain rfl := Option.some.inj (hlook.symm.trans hj)
        exact hc
      · exact fun hc => ⟨row, hlook, hc⟩
    · exact Db.cancelled_congr hlook
  -- a committed row is not a new one
  have hseen {id : DeliveryId} {d : Delivery} (hd : db.deliveries.lookup id = some d) :
      (l.view db).deliveries.lookup id ≠ none := by
    obtain ⟨d', hd'⟩ := l.exists_delivery db hd
    rw [hd']
    simp
  refine ⟨h.unstranded, fun id row hmem => ?_, fun job row hmem => ?_, ?_, ?_, ?_, ?_, ?_, ?_, ?_⟩
  · rcases List.mem_append.mp hmem with hmem | hmem
    · exact mem_held_after (h.heldRows id row hmem)
    · exact holds_of_write hmem
  · rcases List.mem_append.mp hmem with hmem | hmem
    · exact mem_held_after (h.heldJobs job row hmem)
    · exact holds_of_write hmem
  · intro id d d' hd hd'
    rcases hrow hd' with (⟨d₁, hd₁, hjob, -⟩ | ⟨hnone, -⟩) | hold
    · exact hjob.trans (h.sameJob id d d₁ hd hd₁)
    · exact absurd hnone (hseen hd)
    · exact h.sameJob id d d' hd hold
  · intro id d' hd' hnone
    rcases hrow hd' with (⟨d₁, hd₁, hjob, -⟩ | ⟨-, habsent, hheld⟩) | hold
    · obtain ⟨habsent, hheld⟩ := h.isNew id d₁ hd₁ hnone
      rw [hjob]
      exact ⟨habsent, mem_held_after hheld⟩
    · exact ⟨habsent, mem_held_after hheld⟩
    · obtain ⟨habsent, hheld⟩ := h.isNew id d' hold hnone
      exact ⟨habsent, mem_held_after hheld⟩
  · exact fun job hnone hc => h.newJob job hnone ((hcancelled job).mp hc)
  · exact fun job hc => (hcancelled job).mpr (h.cancelled job hc)
  · intro id d d' hd hd' hc
    rcases hrow hd' with (⟨d₁, hd₁, -, honward, -⟩ | ⟨hnone, -⟩) | hold
    · refine (h.onward id d d₁ hd hd₁ hc).trans (honward ?_)
      rw [h.sameJob id d d₁ hd hd₁]
      exact hc
    · exact absurd hnone (hseen hd)
    · exact h.onward id d d' hd hold hc
  · exact fun job hc => h.newly job ((hcancelled job).mp hc)
  · intro id d d' hd hd' hJ hnot hc
    have hc := (hcancelled _).mp hc
    rcases hrow hd' with (⟨d₁, hd₁, -, -, hat⟩ | ⟨hnone, -⟩) | hold
    · have hjob := h.sameJob id d d₁ hd hd₁
      obtain ⟨hheld, hat₁⟩ := h.atCancel id d d₁ hd hd₁ hJ hnot hc
      rw [hjob] at hat
      exact ⟨mem_held_after hheld, fun hid => hat hJ hnot hc hid d hd (hat₁ hid)⟩
    · exact absurd hnone (hseen hd)
    · obtain ⟨hheld, hat⟩ := h.atCancel id d d' hd hold hJ hnot hc
      exact ⟨mem_held_after hheld, hat⟩

/-- Whether the statement leaves states of deliveries and cancels of jobs alone, and adds
neither. -/
def Sql.isMild {β : Type} : Sql β → Bool
  | claimDelivery .. | applyTransition .. | recordLateReceipt .. | insertJob ..
  | insertDelivery .. | setJobCancelled .. => false
  | _ => true

/-- The job a statement that is no cancel writes was cancelled if it is. -/
lemma JobWrite.cancelledAt {β : Type} {s : Sql β} (hs : s.cancelsJob = false) {v : Db}
    {job : PublishJobId} {row : PublishJob} (hwrite : JobWrite s v job row)
    (hinsert : s.insertsJob = false) : v.Cancelled job ↔ row.cancelledAt.isSome = true := by
  rcases hwrite with ⟨j, u, hfound, rfl, -, hu⟩ | ⟨-, -, -, hins⟩
  · have hsame : (u.set j).cancelledAt = j.cancelledAt := by
      cases u with
      | cancel now actor => cases s <;> first | (cases hu; done) | cases hs
      | _ => rfl
    rw [hsame]
    constructor
    · rintro ⟨j', hj', hc⟩
      obtain rfl := Option.some.inj (hfound.symm.trans hj')
      exact hc
    · exact fun hc => ⟨j, hfound, hc⟩
  · rw [hinsert] at hins
    cases hins

/-- What a mild statement does not do. -/
lemma Sql.of_isMild {β : Type} {s : Sql β} (hs : s.isMild = true) :
    (∀ d, s.deliveryUpdate?.elim True fun u => (u.set d).state = d.state) ∧
      s.insertsDelivery = false ∧ s.cancelsJob = false ∧ s.insertsJob = false := by
  cases s with
  | claimDelivery | applyTransition | recordLateReceipt | insertJob | insertDelivery
  | setJobCancelled => cases hs
  | renewLease | setContainerRef | takeCheck | setCheckDue | setDirectCounts | requestCancel
  | setRemotePublishAt | reschedulePending | overduePending | stalledChecks | orphanedDirect
  | stampNotified | waitForCap => exact ⟨fun _ => rfl, rfl, rfl, rfl⟩
  | _ => exact ⟨fun _ => trivial, rfl, rfl, rfl⟩

/-- A mild statement keeps the transaction in order. -/
lemma InOrder.mild (h : InOrder J todo l db) {β : Type} {s : Sql β} (hs : s.isMild = true)
    {free : RowRef → Bool} {e : Effect β} (he : s.exec free (l.view db) = .ok e) :
    InOrder J todo (statements.after l e) db := by
  have hsound := Sql.exec_sound s he
  obtain ⟨hstate, hdelivery, hcancels, hjob⟩ := Sql.of_isMild hs
  refine h.after (fun id row hmem => ?_) (fun job row hmem => ?_)
  · rcases hsound.deliveries id row hmem with
      ⟨d, u, hfound, -, rfl, hu⟩ | ⟨-, _, _, _, _, _, _, _, _, -, -, hins⟩
    · rw [hu] at hstate
      exact .of_state hfound (by cases u <;> rfl) (hstate d)
    · cases hdelivery.symm.trans hins
  · exact (hsound.jobs job row hmem).cancelledAt hcancels hjob

end Data

end Postit
