import Mathlib.Logic.Equiv.Basic
import Postit.Api.Idempotency
import Postit.Framework.Pool
import Postit.Framework.Trace

/-!
# An idempotency key runs its work once

While a claim stands nobody else's work starts, and once the work has succeeded a later request
with the same method, route and body gets the stored response (`runs_once`), or is told that the
first is in progress when it looks before the response is stored (`told_in_progress`).

The row belongs to the request whose claim has its ID (`TaskOk`), and goes while the claim stands
by no hand but that request's.
-/

namespace Postit.Api

open Postit.Framework

/-! ## Hashes -/

lemma hexDigit_injective {m n : ℕ} (hm : m < 16) (hn : n < 16) (h : hexDigit m = hexDigit n) :
    m = n := by
  have hall : ∀ m n : Fin 16, hexDigit m.val = hexDigit n.val → m = n := by decide
  exact congrArg Fin.val (hall ⟨m, hm⟩ ⟨n, hn⟩ h)

lemma hex_injective : Function.Injective hex := by
  intro a b h
  induction a generalizing b with
  | nil =>
    rcases b with _ | ⟨y, b⟩
    · rfl
    · simp [hex] at h
  | cons x a ih =>
    rcases b with _ | ⟨y, b⟩
    · simp [hex] at h
    · simp only [hex, List.flatMap_cons, List.cons_append, List.nil_append, List.cons.injEq] at h
      obtain ⟨hhigh, hlow, hrest⟩ := h
      have hx := x.toNat_lt
      have hy := y.toNat_lt
      have hdiv := hexDigit_injective (by omega) (by omega) hhigh
      have hmod := hexDigit_injective (by omega) (by omega) hlow
      have hxy : x = y := UInt8.toNat_inj.mp (by omega)
      rw [hxy, ih hrest]

/-- Two parts with a separator that the first does not have can be told apart. -/
lemma append_separator_injective {a b x y : Bytes} {sep : UInt8} (ha : sep ∉ a) (hb : sep ∉ b)
    (h : a ++ sep :: x = b ++ sep :: y) : a = b ∧ x = y := by
  induction a generalizing b with
  | nil =>
    rcases b with _ | ⟨c, b⟩
    · exact ⟨rfl, (List.cons.inj h).2⟩
    · exact absurd (List.cons.inj h).1 fun hc => hb (hc ▸ List.mem_cons_self)
  | cons d a ih =>
    rcases b with _ | ⟨c, b⟩
    · exact absurd (List.cons.inj h).1 fun hc => ha (hc ▸ List.mem_cons_self)
    · obtain ⟨rfl, hrest⟩ := List.cons.inj h
      obtain ⟨rfl, hxy⟩ := ih (fun hin => ha (List.mem_cons_of_mem _ hin))
        (fun hin => hb (List.mem_cons_of_mem _ hin)) hrest
      exact ⟨rfl, hxy⟩

variable {sha256 : Bytes → Bytes}

/-- On one route a hash stands for one method and one body. -/
lemma requestHash_injective (hsha : Function.Injective sha256) {m m' : Method}
    {route body body' : Bytes}
    (h : requestHash sha256 m route body = requestHash sha256 m' route body') :
    m = m' ∧ body = body' := by
  have hinput := hsha (hex_injective h)
  simp only [List.append_assoc, List.cons_append, List.nil_append] at hinput
  obtain ⟨hmethod, hrest⟩ := append_separator_injective m.token m'.token hinput
  have hbody := List.append_cancel_left hrest
  obtain ⟨bytes, htoken⟩ := m
  obtain ⟨bytes', htoken'⟩ := m'
  obtain rfl : bytes = bytes' := hmethod
  exact ⟨rfl, (List.cons.inj hbody).2⟩

/-! ## Claims and rows -/

variable {β : Type}

/-- The claim a request has made. -/
def Phase.claim : Phase β → Option Claim
  | .working c | .completing c _ | .releasing c | .finished c _ | .failed c => some c
  | .claiming _ | .looking _ _ | .discarding _ _ | .replayed _ | .reused | .inProgress => none

/-- Whether the claim stands, unless it has expired. -/
def Phase.Stands : Phase β → Prop
  | .working _ | .completing _ _ | .finished _ _ => True
  | _ => False

/-- What the row of a claim says. -/
def Phase.Shows (r : IdempotencyRecord β) : Phase β → Prop
  | .finished _ response =>
    r.state = .completed ∧ r.responseStatus = some response.status.toI16 ∧
      r.responseBody = some response.body
  | .failed _ => False
  | _ => r.state = .inProgress

/-- The request's own row. -/
def Owns (sha256 : Bytes → Bytes) (q : Request) (c : Claim) (r : IdempotencyRecord β) : Prop :=
  r.expiresAt = c.expiresAt ∧ r.route = q.route ∧
    r.requestHash = requestHash sha256 q.method q.route q.body

/-- What holds of a request at work, given the clock, the row and the IDs given out. -/
structure TaskOk (sha256 : Bytes → Bytes) (s : Key β) (q : Request) (phase : Phase β) : Prop where
  known : ∀ c, phase.claim = some c → c.id < s.nextId
  owns : ∀ c r, phase.claim = some c → s.row = some r → r.id = c.id →
    Owns sha256 q c r ∧ phase.Shows r
  held : ∀ c, phase.claim = some c → phase.Stands → s.clock < c.expiresAt →
    ∃ r, s.row = some r ∧ r.id = c.id
  looking : ∀ tries now, phase = .looking tries now → now ≤ s.clock
  discarding : ∀ tries id, phase = .discarding tries id →
    id < s.nextId ∧ ∀ r, s.row = some r → r.id = id → r.expiresAt ≤ s.clock

/-- No two requests have a claim with one ID. -/
def Unique (tasks : List (Request × Phase β)) : Prop :=
  ∀ (i j : ℕ) x y c d, tasks[i]? = some x → tasks[j]? = some y → x.2.claim = some c →
    y.2.claim = some d → c.id = d.id → i = j

/-- What holds of the key in every state. -/
structure Key.Inv (sha256 : Bytes → Bytes) (s : Key β) : Prop where
  row : ∀ r, s.row = some r → r.id < s.nextId
  tasks : ∀ (i : ℕ) q phase, s.tasks[i]? = some (q, phase) → TaskOk sha256 s q phase
  unique : Unique s.tasks

variable {s t : Key β} {q : Request} {phase old new : Phase β} {i : ℕ}

/-- Time goes on, and the row is another's, gone for good reason, or as it was. -/
lemma TaskOk.onward (h : TaskOk sha256 s q phase) (hclock : s.clock ≤ t.clock)
    (hnext : s.nextId ≤ t.nextId)
    (hrow : ∀ r', t.row = some r' → s.nextId ≤ r'.id ∨ ∃ r, s.row = some r ∧ r'.id = r.id ∧
      r'.expiresAt = r.expiresAt ∧ ∀ c, phase.claim = some c → r.id = c.id → r' = r)
    (hlost : ∀ c r, phase.claim = some c → phase.Stands → s.row = some r → r.id = c.id →
      t.clock < r.expiresAt → ∃ r', t.row = some r' ∧ r'.id = c.id) :
    TaskOk sha256 t q phase := by
  refine ⟨fun c hc => (h.known c hc).trans_le hnext, fun c r' hc hr' hid => ?_,
    fun c hc hstands hlt => ?_, fun tries now hl => (h.looking tries now hl).trans hclock,
    fun tries id hd => ⟨(h.discarding tries id hd).1.trans_le hnext, fun r' hr' hid => ?_⟩⟩
  · rcases hrow r' hr' with hfresh | ⟨r, hr, hsame, -, hown⟩
    · exact absurd (hid ▸ hfresh) (not_le.mpr (h.known c hc))
    · rw [hown c hc (hsame ▸ hid)]
      exact h.owns c r hc hr (hsame ▸ hid)
  · obtain ⟨r, hr, hid⟩ := h.held c hc hstands (lt_of_le_of_lt hclock hlt)
    refine hlost c r hc hstands hr hid ?_
    rwa [(h.owns c r hc hr hid).1.1]
  · obtain ⟨hknown, hexpired⟩ := h.discarding tries id hd
    rcases hrow r' hr' with hfresh | ⟨r, hr, hsame, hexpires, -⟩
    · exact absurd (hid ▸ hfresh) (not_le.mpr hknown)
    · rw [hexpires]
      exact (hexpired r hr (hsame ▸ hid)).trans hclock

lemma TaskOk.of_quiet (h : TaskOk sha256 s q phase) (hclock : s.clock ≤ t.clock)
    (hnext : s.nextId ≤ t.nextId) (hrow : t.row = s.row) : TaskOk sha256 t q phase := by
  refine h.onward hclock hnext (fun r' hr' => .inr ⟨r', hrow ▸ hr', rfl, rfl, fun _ _ _ => rfl⟩) ?_
  exact fun c r _ _ hr hid _ => ⟨r, hrow ▸ hr, hid⟩

/-- A phase without a claim, a look or a discard. -/
lemma TaskOk.idle (hclaim : phase.claim = none) (hlooking : ∀ n now, phase ≠ .looking n now)
    (hdiscarding : ∀ n id, phase ≠ .discarding n id) : TaskOk sha256 s q phase := by
  refine ⟨fun c hc => ?_, fun c r hc => ?_, fun c hc => ?_, fun n now h => absurd h (hlooking n now),
    fun n id h => absurd h (hdiscarding n id)⟩ <;>
  · rw [hclaim] at hc
    cases hc

/-- A request that keeps its claim, or makes one with a new ID, or none. -/
lemma Unique.set {tasks : List (Request × Phase β)} (h : Unique tasks) {x y : Request × Phase β}
    (hi : tasks[i]? = some x)
    (hnew : ∀ c, y.2.claim = some c → x.2.claim = some c ∨
      ∀ (j : ℕ) z d, tasks[j]? = some z → z.2.claim = some d → d.id ≠ c.id) :
    Unique (tasks.set i y) := by
  intro j k u v c d hj hk hc hd hid
  rcases of_getElem?_set hj with ⟨rfl, rfl⟩ | ⟨-, hu⟩
  · rcases of_getElem?_set hk with ⟨rfl, rfl⟩ | ⟨-, hv⟩
    · rfl
    · rcases hnew c hc with hc | hfresh
      · exact h j k x v c d hi hv hc hd hid
      · exact absurd hid.symm (hfresh k v d hv hd)
  · rcases of_getElem?_set hk with ⟨rfl, rfl⟩ | ⟨-, hv⟩
    · rcases hnew d hd with hd | hfresh
      · exact h j k u x c d hu hi hc hd hid
      · exact absurd hid (hfresh j u c hu hc)
    · exact h j k u v c d hu hv hc hd hid

/-! ## What one step keeps -/

/-- A request goes on, while nothing else becomes worse for the others. -/
lemma Key.Inv.become (h : s.Inv sha256) {i : ℕ} (hi : s.tasks[i]? = some (q, old))
    (htasks : t.tasks = s.tasks.set i (q, new)) (hrow : ∀ r, t.row = some r → r.id < t.nextId)
    (hnew : TaskOk sha256 t q new)
    (hothers : ∀ (j : ℕ) q' phase, j ≠ i → s.tasks[j]? = some (q', phase) →
      TaskOk sha256 t q' phase)
    (hclaim : ∀ c, new.claim = some c → old.claim = some c ∨ c.id = s.nextId) :
    t.Inv sha256 := by
  refine ⟨hrow, fun j q' phase hj => ?_, ?_⟩
  · rw [htasks] at hj
    rcases of_getElem?_set hj with ⟨rfl, hnow⟩ | ⟨hji, hold⟩
    · obtain ⟨rfl, rfl⟩ := Prod.ext_iff.mp hnow
      exact hnew
    · exact hothers j q' phase hji hold
  · rw [htasks]
    refine h.unique.set hi fun c hc => (hclaim c hc).imp_right fun hid j z d hz hd => ?_
    exact hid ▸ ((h.tasks j z.1 z.2 hz).known d hd).ne

/-- A request goes on that makes no claim, the row as it was. -/
lemma Key.Inv.becomeQuiet (h : s.Inv sha256) {i : ℕ} (hi : s.tasks[i]? = some (q, old))
    (hnew : TaskOk sha256 s q new)
    (hclaim : ∀ c, new.claim = some c → old.claim = some c) :
    (s.become i q new).Inv sha256 := by
  refine h.become hi rfl h.row ?_ (fun j q' phase _ hj => ?_) fun c hc => .inl (hclaim c hc)
  · exact hnew.of_quiet le_rfl le_rfl rfl
  · exact (h.tasks j q' phase hj).of_quiet le_rfl le_rfl rfl

/-- The row may go when it has expired, or when it is not the request's own. -/
lemma TaskOk.filter {p : IdempotencyRecord β → Bool} (h : TaskOk sha256 s q phase)
    (hclock : t.clock = s.clock) (hnext : t.nextId = s.nextId) (hrow : t.row = s.row.filter p)
    (hgone : ∀ c r, phase.claim = some c → phase.Stands → s.row = some r → r.id = c.id →
      p r = false → r.expiresAt ≤ s.clock) :
    TaskOk sha256 t q phase := by
  refine h.onward hclock.ge hnext.ge (fun r' hr' => ?_) fun c r hc hstands hr hid hlt => ?_
  · rw [hrow, Option.filter_eq_some_iff] at hr'
    exact .inr ⟨r', hr'.1, rfl, rfl, fun _ _ _ => rfl⟩
  · refine ⟨r, ?_, hid⟩
    rw [hrow, hr, Option.filter_some]
    cases hp : p r with
    | true => rfl
    | false => exact absurd (hclock ▸ hlt) (not_lt.mpr (hgone c r hc hstands hr hid hp))

lemma taskOk_retry (tries : ℕ) : TaskOk sha256 s q (Key.retry tries) := by
  unfold Key.retry
  split_ifs
  · exact .idle rfl (by simp) (by simp)
  · exact .idle rfl (by simp) (by simp)

lemma claim_retry (tries : ℕ) : (Key.retry tries : Phase β).claim = none := by
  unfold Key.retry
  split_ifs <;> rfl

lemma Key.Inv.tick (h : s.Inv sha256) {until_ : Time} (hle : s.clock ≤ until_) :
    ({ s with clock := until_ } : Key β).Inv sha256 :=
  ⟨h.row, fun i q phase hi => (h.tasks i q phase hi).of_quiet hle le_rfl rfl, h.unique⟩

lemma Key.Inv.arrive (h : s.Inv sha256) (request : Request) :
    ({ s with tasks := s.tasks ++ [(request, .claiming claimTries)] } : Key β).Inv sha256 := by
  refine ⟨h.row, fun j q' phase hj => ?_, fun j k u v c d hj hk hc hd hid => ?_⟩
  · rcases of_getElem?_concat hj with ⟨-, hnow⟩ | hold
    · obtain ⟨rfl, rfl⟩ := Prod.mk.inj hnow
      exact .idle rfl (by simp) (by simp)
    · exact (h.tasks j q' phase hold).of_quiet le_rfl le_rfl rfl
  · rcases of_getElem?_concat hj with ⟨-, rfl⟩ | hu
    · cases hc
    rcases of_getElem?_concat hk with ⟨-, rfl⟩ | hv
    · cases hd
    exact h.unique j k u v c d hu hv hc hd hid

lemma Key.Inv.claim (h : s.Inv sha256) {tries : ℕ} {now : Time}
    (hi : s.tasks[i]? = some (q, .claiming tries)) (hnow : now ≤ s.clock) :
    (s.claim sha256 i q tries now).Inv sha256 := by
  unfold Key.claim
  rcases hrow : s.row with _ | existing
  · -- the request's own row, under an ID that no other claim has
    refine h.become hi rfl (fun r hr => ?_) ⟨fun c hc => ?_, fun c r hc hr hid => ?_,
      fun c hc _ _ => ?_, fun n now hl => ?_, fun n id hd => ?_⟩ (fun j q' phase hji hj => ?_)
      fun c hc => ?_
    · obtain rfl := Option.some.inj hr
      exact Nat.lt_succ_self _
    · obtain rfl := Option.some.inj hc
      exact Nat.lt_succ_self _
    · obtain rfl := Option.some.inj hc
      obtain rfl := Option.some.inj hr
      exact ⟨⟨rfl, rfl, rfl⟩, rfl⟩
    · obtain rfl := Option.some.inj hc
      exact ⟨_, rfl, rfl⟩
    · cases hl
    · cases hd
    · refine (h.tasks j q' phase hj).onward le_rfl (Nat.le_succ _) (fun r' hr' => .inl ?_) ?_
      · obtain rfl := Option.some.inj hr'
        exact le_rfl
      · intro c r hc _ hr
        rw [hrow] at hr
        cases hr
    · obtain rfl := Option.some.inj hc
      exact .inr rfl
  · refine h.become hi rfl (fun r hr => ?_) ⟨fun c hc => ?_, fun c r hc => ?_, fun c hc => ?_,
      fun n now' hl => ?_, fun n id hd => ?_⟩ (fun j q' phase hji hj => ?_) fun c hc => ?_
    · exact Nat.lt_succ_of_lt (h.row r (hrow.trans hr))
    · cases hc
    · cases hc
    · cases hc
    · cases hl
      exact hnow
    · cases hd
    · exact (h.tasks j q' phase hj).of_quiet le_rfl (Nat.le_succ _) hrow.symm
    · cases hc

lemma Key.Inv.look (h : s.Inv sha256) {tries : ℕ} {now : Time} {existing : IdempotencyRecord β}
    (hi : s.tasks[i]? = some (q, .looking tries now)) (hrow : s.row = some existing) :
    (s.become i q (Key.judge sha256 q tries now existing)).Inv sha256 := by
  have hnow := (h.tasks i q _ hi).looking tries now rfl
  have hclaim : (Key.judge sha256 q tries now existing).claim = none := by
    unfold Key.judge
    split_ifs
    · rfl
    · rfl
    · split <;> rfl
  refine h.becomeQuiet hi ?_ fun c hc => ?_
  · unfold Key.judge
    split_ifs with hexpired
    · refine ⟨(fun c hc => nomatch hc), (fun c r hc => nomatch hc), (fun c hc => nomatch hc),
        (fun n now hl => nomatch hl), fun n id hd => ?_⟩
      cases hd
      refine ⟨h.row existing hrow, fun r hr _ => ?_⟩
      obtain rfl := Option.some.inj (hrow.symm.trans hr)
      exact hexpired.trans hnow
    · exact .idle rfl (by simp) (by simp)
    · split
      · exact .idle rfl (by simp) (by simp)
      · exact .idle rfl (by simp) (by simp)
  · rw [hclaim] at hc
    cases hc

lemma Key.Inv.discard (h : s.Inv sha256) {tries id : ℕ}
    (hi : s.tasks[i]? = some (q, .discarding tries id)) :
    ({ s with row := IdempotencyRepo.delete s.row id }.become i q (Key.retry tries)).Inv
      sha256 := by
  have hexpired := ((h.tasks i q _ hi).discarding tries id rfl).2
  refine h.become hi rfl (fun r hr => h.row r (Option.filter_eq_some_iff.mp hr).1)
    (taskOk_retry tries) (fun j q' phase _ hj => ?_) fun c hc => ?_
  · refine (h.tasks j q' phase hj).filter rfl rfl rfl fun c r _ _ hr _ hgone => hexpired r hr ?_
    simpa using hgone
  · rw [claim_retry] at hc
    cases hc

lemma Key.Inv.purge (h : s.Inv sha256) {now : Time} (hnow : now ≤ s.clock) :
    ({ s with row := IdempotencyRepo.purgeExpired s.row now } : Key β).Inv sha256 := by
  refine ⟨fun r hr => h.row r (Option.filter_eq_some_iff.mp hr).1, fun j q' phase hj => ?_,
    h.unique⟩
  refine (h.tasks j q' phase hj).filter rfl rfl rfl fun c r _ _ hr _ hgone => ?_
  have hlt : r.expiresAt < now := by simpa using hgone
  exact hlt.le.trans hnow

/-- A request whose work ended keeps its row. -/
lemma Key.Inv.workEnds (h : s.Inv sha256) {claim : Claim}
    (hi : s.tasks[i]? = some (q, .working claim)) (hclaim : new.claim = some claim)
    (hshows : ∀ r : IdempotencyRecord β, r.state = .inProgress → new.Shows r)
    (hlooking : ∀ n now, new ≠ .looking n now) (hdiscarding : ∀ n id, new ≠ .discarding n id) :
    (s.become i q new).Inv sha256 := by
  have hok := h.tasks i q _ hi
  refine h.becomeQuiet hi ?_ fun c hc => hclaim.symm.trans hc
  refine ⟨fun c hc => hok.known c (hclaim.symm.trans hc), fun c r hc hr hid => ?_,
    fun c hc _ hlt => hok.held c (hclaim.symm.trans hc) trivial hlt,
    fun n now hl => absurd hl (hlooking n now), fun n id hd => absurd hd (hdiscarding n id)⟩
  obtain ⟨howns, hstate⟩ := hok.owns c r (hclaim.symm.trans hc) hr hid
  exact ⟨howns, hshows r hstate⟩

lemma complete_eq_some {row : Option (IdempotencyRecord β)} {id : ℕ} {status : ℤ} {body : β}
    {r' : IdempotencyRecord β} (h : IdempotencyRepo.complete row id status body = some r') :
    ∃ r, row = some r ∧ r.id = id ∧ r' =
      { r with state := .completed, responseStatus := some status, responseBody := some body } := by
  obtain ⟨r, hr, rfl⟩ := Option.map_eq_some_iff.mp h
  obtain ⟨hrow, hid⟩ := Option.filter_eq_some_iff.mp hr
  exact ⟨r, hrow, of_decide_eq_true hid, rfl⟩

/-- A request stores its response in its own row. -/
lemma Key.Inv.complete (h : s.Inv sha256) {claim : Claim} {response : StoredResponse β}
    {r' : IdempotencyRecord β} (hi : s.tasks[i]? = some (q, .completing claim response))
    (hcomplete : IdempotencyRepo.complete s.row claim.id response.status.toI16 response.body =
      some r') :
    ({ s with row := some r' }.become i q (.finished claim response)).Inv sha256 := by
  obtain ⟨r, hr, hid, rfl⟩ := complete_eq_some hcomplete
  have hok := h.tasks i q _ hi
  have howns := (hok.owns claim r rfl hr hid).1
  refine h.become hi rfl (fun r'' hr'' => ?_) ⟨fun c hc => hok.known c hc, fun c r'' hc hr'' _ => ?_,
    fun c hc _ _ => ?_, (fun n now hl => nomatch hl), (fun n id hd => nomatch hd)⟩
    (fun j q' phase hji hj => ?_) fun c hc => .inl hc
  · obtain rfl := Option.some.inj hr''
    exact h.row r hr
  · obtain rfl := Option.some.inj hr''
    obtain rfl := Option.some.inj hc
    exact ⟨howns, rfl, rfl, rfl⟩
  · obtain rfl := Option.some.inj hc
    exact ⟨_, rfl, hid⟩
  · -- the row's ID is no other request's
    have hother : ∀ c, phase.claim = some c → r.id ≠ c.id := fun c hc hsame =>
      hji (h.unique j i _ _ c claim hj hi hc rfl (hsame.symm.trans hid))
    refine (h.tasks j q' phase hj).onward le_rfl le_rfl (fun r'' hr'' => ?_) ?_
    · obtain rfl := Option.some.inj hr''
      exact .inr ⟨r, hr, rfl, rfl, fun c hc hsame => absurd hsame (hother c hc)⟩
    · intro c r'' hc _ hr'' hsame
      obtain rfl := Option.some.inj (hr.symm.trans hr'')
      exact absurd hsame (hother c hc)

/-- A request whose work failed releases its own row. -/
lemma Key.Inv.release (h : s.Inv sha256) {claim : Claim} (last : Bool)
    (hi : s.tasks[i]? = some (q, .releasing claim)) :
    ({ s with row := IdempotencyRepo.release s.row claim.id }.become i q
      (if last then .failed claim else .releasing claim)).Inv sha256 := by
  have hok := h.tasks i q _ hi
  -- nothing is left under the request's ID
  have hnone : ∀ r, IdempotencyRepo.release s.row claim.id = some r → r.id ≠ claim.id := by
    intro r hr hid
    obtain ⟨hrow, hkept⟩ := Option.filter_eq_some_iff.mp hr
    have hstate := (hok.owns claim r rfl hrow hid).2
    exact of_decide_eq_true hkept ⟨hid, hstate⟩
  have hclaim : (if last then .failed claim else .releasing claim : Phase β).claim =
      some claim := by
    split_ifs <;> rfl
  refine h.become hi rfl (fun r hr => h.row r (Option.filter_eq_some_iff.mp hr).1)
    ⟨fun c hc => ?_, fun c r hc hr hid => ?_, fun c hc hstands => ?_, fun n now hl => ?_,
      fun n id hd => ?_⟩ (fun j q' phase hji hj => ?_) fun c hc => .inl (hclaim.symm.trans hc)
  · exact hok.known c (hclaim.symm.trans hc)
  · obtain rfl := Option.some.inj (hclaim.symm.trans hc)
    exact absurd hid (hnone r hr)
  · split_ifs at hstands <;> exact hstands.elim
  · split_ifs at hl
  · split_ifs at hd
  · refine (h.tasks j q' phase hj).filter rfl rfl rfl fun c r hc _ _ hid hgone => ?_
    have hsame : r.id = claim.id ∧ r.state = .inProgress := by simpa using hgone
    exact absurd (h.unique j i _ _ c claim hj hi hc rfl (hid.symm.trans hsame.1)) hji

lemma Key.Inv.step {a : KeyAction β} (hstep : s.Step sha256 a t) (h : s.Inv sha256) :
    t.Inv sha256 := by
  obtain ⟨hreading, hstep⟩ := hstep
  match a with
  | .tick until_ =>
    rw [Key.perform] at hstep
    split_ifs at hstep with hle
    exact Option.some.inj hstep ▸ h.tick hle
  | .arrive request => exact Option.some.inj hstep ▸ h.arrive request
  | .insert i now =>
    rw [Key.perform] at hstep
    split at hstep
    · next q tries hi => exact Option.some.inj hstep ▸ h.claim hi (hreading now rfl)
    · cases hstep
  | .look i =>
    rw [Key.perform] at hstep
    split at hstep
    · next q tries now hi =>
      split at hstep
      · refine Option.some.inj hstep ▸ h.becomeQuiet hi (taskOk_retry tries) fun c hc => ?_
        rw [claim_retry] at hc
        cases hc
      · next existing hrow => exact Option.some.inj hstep ▸ h.look hi hrow
    · cases hstep
  | .discard i =>
    rw [Key.perform] at hstep
    split at hstep
    · next q tries id hi => exact Option.some.inj hstep ▸ h.discard hi
    · cases hstep
  | .workEnds i result =>
    rw [Key.perform] at hstep
    split at hstep
    · next q claim hi =>
      split at hstep
      · exact Option.some.inj hstep ▸ h.workEnds hi rfl (fun _ hr => hr) (by simp) (by simp)
      · exact Option.some.inj hstep ▸ h.workEnds hi rfl (fun _ hr => hr) (by simp) (by simp)
    · cases hstep
  | .complete i =>
    rw [Key.perform] at hstep
    split at hstep
    · next q claim response hi =>
      split at hstep
      · next r' hcomplete => exact Option.some.inj hstep ▸ h.complete hi hcomplete
      · have hok := h.tasks i q _ hi
        refine Option.some.inj hstep ▸ h.becomeQuiet hi ?_ fun c hc => hc
        exact ⟨hok.known, hok.owns, (fun c _ hstands => hstands.elim), (fun n now hl => nomatch hl),
          (fun n id hd => nomatch hd)⟩
    · cases hstep
  | .release i last =>
    rw [Key.perform] at hstep
    split at hstep
    · next q claim hi => exact Option.some.inj hstep ▸ h.release last hi
    · cases hstep
  | .purge now => exact Option.some.inj hstep ▸ h.purge (hreading now rfl)

/-! ## While a claim stands -/

lemma inv_init (clock : Time) : ({ clock } : Key β).Inv sha256 := by
  refine ⟨?_, ?_, ?_⟩
  · rintro r ⟨⟩
  · rintro i q phase ⟨⟩
  · rintro i j x y c d ⟨⟩

lemma Key.Inv.run {es : List (KeyAction β)} (h : Run (Key.Step sha256) s es t)
    (hs : s.Inv sha256) : t.Inv sha256 :=
  h.invariant (I := Key.Inv sha256) (fun hstep hi => hi.step hstep) hs

/-- What a request can do while there is a row. -/
inductive Moves (sha256 : Bytes → Bytes) (r : IdempotencyRecord β) (clock : Time) (q : Request) :
    Phase β → Phase β → Prop
  | found (tries : ℕ) (now : Time) (h : now ≤ clock) :
    Moves sha256 r clock q (.claiming tries) (.looking (tries - 1) now)
  | looked (tries : ℕ) (now : Time) :
    Moves sha256 r clock q (.looking tries now) (Key.judge sha256 q tries now r)
  | discarded (tries id : ℕ) : Moves sha256 r clock q (.discarding tries id) (Key.retry tries)
  | worked (c : Claim) (response : StoredResponse β) :
    Moves sha256 r clock q (.working c) (.completing c response)
  | workFailed (c : Claim) : Moves sha256 r clock q (.working c) (.releasing c)
  | stored (c : Claim) (response : StoredResponse β) :
    Moves sha256 r clock q (.completing c response) (.finished c response)
  | notStored (c : Claim) (response : StoredResponse β) (h : r.id ≠ c.id) :
    Moves sha256 r clock q (.completing c response) (.releasing c)
  | released (c : Claim) (last : Bool) :
    Moves sha256 r clock q (.releasing c) (if last then .failed c else .releasing c)

lemma moves_of_become {r : IdempotencyRecord β} {clock : Time} {j : ℕ} {q' : Request}
    {phase' : Phase β} (hi : s.tasks[i]? = some (q, old)) (hmoves : Moves sha256 r clock q old new)
    (hj : (s.tasks.set i (q, new))[j]? = some (q', phase')) :
    s.tasks[j]? = some (q', phase') ∨
      ∃ old, s.tasks[j]? = some (q', old) ∧ Moves sha256 r clock q' old phase' := by
  rcases of_getElem?_set hj with ⟨rfl, hnow⟩ | ⟨-, hold⟩
  · obtain ⟨rfl, rfl⟩ := Prod.mk.inj hnow
    exact .inr ⟨old, hi, hmoves⟩
  · exact .inl hold

/-- A request is as it was, has just arrived, or made its move. -/
lemma moves_of_step {r : IdempotencyRecord β} {a : KeyAction β} {j : ℕ} {q' : Request}
    {phase' : Phase β} (h : s.Step sha256 a t) (hrow : s.row = some r)
    (hj : t.tasks[j]? = some (q', phase')) :
    (j = s.tasks.length ∧ phase' = .claiming claimTries) ∨ s.tasks[j]? = some (q', phase') ∨
      ∃ old, s.tasks[j]? = some (q', old) ∧ Moves sha256 r s.clock q' old phase' := by
  obtain ⟨hreading, hstep⟩ := h
  match a with
  | .tick until_ =>
    rw [Key.perform] at hstep
    split_ifs at hstep
    obtain rfl := Option.some.inj hstep
    exact .inr (.inl hj)
  | .arrive request =>
    obtain rfl := Option.some.inj hstep
    rcases of_getElem?_concat hj with ⟨hlast, hnow⟩ | hold
    · obtain ⟨rfl, rfl⟩ := Prod.mk.inj hnow
      exact .inl ⟨hlast, rfl⟩
    · exact .inr (.inl hold)
  | .insert i now =>
    rw [Key.perform] at hstep
    split at hstep
    · next q tries hi =>
      obtain rfl := Option.some.inj hstep
      simp only [Key.claim, hrow, IdempotencyRepo.insert] at hj
      exact .inr (moves_of_become hi (.found tries now (hreading now rfl)) hj)
    · cases hstep
  | .look i =>
    rw [Key.perform] at hstep
    split at hstep
    · next q tries now hi =>
      rw [hrow] at hstep
      obtain rfl := Option.some.inj hstep
      exact .inr (moves_of_become hi (.looked tries now) hj)
    · cases hstep
  | .discard i =>
    rw [Key.perform] at hstep
    split at hstep
    · next q tries id hi =>
      obtain rfl := Option.some.inj hstep
      exact .inr (moves_of_become hi (.discarded tries id) hj)
    · cases hstep
  | .workEnds i result =>
    rw [Key.perform] at hstep
    split at hstep
    · next q c hi =>
      split at hstep
      · next response =>
        obtain rfl := Option.some.inj hstep
        exact .inr (moves_of_become hi (.worked c response) hj)
      · obtain rfl := Option.some.inj hstep
        exact .inr (moves_of_become hi (.workFailed c) hj)
    · cases hstep
  | .complete i =>
    rw [Key.perform] at hstep
    split at hstep
    · next q c response hi =>
      split at hstep
      · obtain rfl := Option.some.inj hstep
        exact .inr (moves_of_become hi (.stored c response) hj)
      · next hgone =>
        obtain rfl := Option.some.inj hstep
        refine .inr (moves_of_become hi (.notStored c response fun hid => ?_) hj)
        simp [IdempotencyRepo.complete, hrow, hid] at hgone
    · cases hstep
  | .release i last =>
    rw [Key.perform] at hstep
    split at hstep
    · next q c hi =>
      obtain rfl := Option.some.inj hstep
      exact .inr (moves_of_become hi (.released c last) hj)
    · cases hstep
  | .purge now =>
    obtain rfl := Option.some.inj hstep
    exact .inr (.inl hj)

/-- The row of a claim that stands. -/
lemma Key.Inv.held (h : s.Inv sha256) {c : Claim} (hi : s.tasks[i]? = some (q, phase))
    (hclaim : phase.claim = some c) (hstands : phase.Stands) (hlt : s.clock < c.expiresAt) :
    ∃ r, s.row = some r ∧ r.id = c.id ∧ Owns sha256 q c r ∧ phase.Shows r := by
  have hok := h.tasks i q phase hi
  obtain ⟨r, hr, hid⟩ := hok.held c hclaim hstands hlt
  exact ⟨r, hr, hid, hok.owns c r hclaim hr hid⟩

/-- What a request that looks is answered while a claim stands. -/
lemma judge_of_held (hsha : Function.Injective sha256) {c : Claim} {r : IdempotencyRecord β}
    {q' : Request} {tries : ℕ} {now : Time} (howns : Owns sha256 q c r)
    (hclaim : phase.claim = some c) (hstands : phase.Stands) (hshows : phase.Shows r)
    (hnow : now < c.expiresAt) :
    (q' ≠ q ∧ Key.judge sha256 q' tries now r = .reused) ∨
      (q' = q ∧ ∃ response, phase = .finished c response ∧
        Key.judge sha256 q' tries now r = .replayed response) ∨
      (q' = q ∧ (∀ response, phase ≠ .finished c response) ∧
        Key.judge sha256 q' tries now r = .inProgress) := by
  obtain ⟨hexpires, hroute, hhash⟩ := howns
  unfold Key.judge
  rw [if_neg (not_le.mpr (hexpires ▸ hnow)), hroute, hhash]
  split_ifs with hother
  · refine .inl ⟨?_, rfl⟩
    rintro rfl
    exact hother.elim (absurd rfl) (absurd rfl)
  obtain ⟨hsame, hequal⟩ := not_or.mp hother
  have hsame := not_not.mp hsame
  have hequal := not_not.mp hequal
  rw [hsame] at hequal
  obtain ⟨hmethod, hbody⟩ := requestHash_injective hsha hequal
  have hq : q' = q := by
    obtain ⟨m, route, body⟩ := q
    obtain ⟨m', route', body'⟩ := q'
    simp only at hsame hmethod hbody
    rw [hsame, hmethod, hbody]
  cases phase with
  | finished d response =>
    obtain rfl : d = c := Option.some.inj hclaim
    obtain ⟨hstate, hstatus, hstored⟩ := hshows
    refine .inr (.inl ⟨hq, response, rfl, ?_⟩)
    rw [hstate, hstatus, hstored]
    show Phase.replayed { status := .ofI16 response.status.toI16, body := response.body } = _
    rw [StatusCode.ofI16_toI16]
  | working d | completing d response =>
    have hstate : r.state = .inProgress := hshows
    refine .inr (.inr ⟨hq, by simp, ?_⟩)
    rw [hstate]
  | claiming | looking | discarding | releasing | failed | replayed | reused | inProgress =>
    exact hstands.elim

lemma map_fst_set {tasks : List (Request × Phase β)} (hi : tasks[i]? = some (q, old)) :
    (tasks.set i (q, new)).map Prod.fst = tasks.map Prod.fst := by
  have hfst : (tasks.map Prod.fst)[i]? = some q := by rw [List.getElem?_map, hi, Option.map_some]
  obtain ⟨hlt, hq⟩ := List.getElem?_eq_some_iff.mp hfst
  rw [List.map_set, ← hq]
  exact List.set_getElem_self hlt

/-- The clock does not go back, and no request is forgotten. -/
lemma onward_of_step {a : KeyAction β} (h : s.Step sha256 a t) :
    s.clock ≤ t.clock ∧ s.tasks.map Prod.fst <+: t.tasks.map Prod.fst := by
  obtain ⟨-, hstep⟩ := h
  match a with
  | .tick until_ =>
    rw [Key.perform] at hstep
    split_ifs at hstep with hle
    obtain rfl := Option.some.inj hstep
    exact ⟨hle, List.prefix_rfl⟩
  | .arrive request =>
    obtain rfl := Option.some.inj hstep
    refine ⟨le_rfl, ?_⟩
    rw [List.map_append]
    exact List.prefix_append _ _
  | .insert i now =>
    rw [Key.perform] at hstep
    split at hstep
    · next q tries hi =>
      obtain rfl := Option.some.inj hstep
      unfold Key.claim
      rcases s.row with _ | existing
      · exact ⟨le_rfl, (map_fst_set hi).symm ▸ List.prefix_rfl⟩
      · exact ⟨le_rfl, (map_fst_set hi).symm ▸ List.prefix_rfl⟩
    · cases hstep
  | .look i =>
    rw [Key.perform] at hstep
    split at hstep
    · next q tries now hi =>
      split at hstep
      · obtain rfl := Option.some.inj hstep
        exact ⟨le_rfl, (map_fst_set hi).symm ▸ List.prefix_rfl⟩
      · obtain rfl := Option.some.inj hstep
        exact ⟨le_rfl, (map_fst_set hi).symm ▸ List.prefix_rfl⟩
    · cases hstep
  | .discard i =>
    rw [Key.perform] at hstep
    split at hstep
    · next q tries id hi =>
      obtain rfl := Option.some.inj hstep
      exact ⟨le_rfl, (map_fst_set hi).symm ▸ List.prefix_rfl⟩
    · cases hstep
  | .workEnds i result =>
    rw [Key.perform] at hstep
    split at hstep
    · next q c hi =>
      split at hstep
      · obtain rfl := Option.some.inj hstep
        exact ⟨le_rfl, (map_fst_set hi).symm ▸ List.prefix_rfl⟩
      · obtain rfl := Option.some.inj hstep
        exact ⟨le_rfl, (map_fst_set hi).symm ▸ List.prefix_rfl⟩
    · cases hstep
  | .complete i =>
    rw [Key.perform] at hstep
    split at hstep
    · next q c response hi =>
      split at hstep
      · obtain rfl := Option.some.inj hstep
        exact ⟨le_rfl, (map_fst_set hi).symm ▸ List.prefix_rfl⟩
      · obtain rfl := Option.some.inj hstep
        exact ⟨le_rfl, (map_fst_set hi).symm ▸ List.prefix_rfl⟩
    · cases hstep
  | .release i last =>
    rw [Key.perform] at hstep
    split at hstep
    · next q c hi =>
      obtain rfl := Option.some.inj hstep
      exact ⟨le_rfl, (map_fst_set hi).symm ▸ List.prefix_rfl⟩
    · cases hstep
  | .purge now =>
    obtain rfl := Option.some.inj hstep
    exact ⟨le_rfl, List.prefix_rfl⟩

/-! ## Later requests -/

/-- The work of the request with this claim has succeeded; `stored` says whether its response is
in the row. -/
def Phase.Succeeded (c : Claim) (response : StoredResponse β) (stored : Prop) (phase : Phase β) :
    Prop :=
  phase = .finished c response ∨ (phase = .completing c response ∧ ¬ stored)

/-- What a request may do that arrived when the response `q` got was known. -/
inductive Later (q : Request) (response : StoredResponse β) (stored : Prop) (q' : Request) :
    Phase β → Prop
  | claiming : Later q response stored q' (.claiming claimTries)
  | looking (now : Time) : Later q response stored q' (.looking (claimTries - 1) now)
  | replayed (h : q' = q) : Later q response stored q' (.replayed response)
  | inProgress (h : q' = q) (hstored : ¬ stored) : Later q response stored q' .inProgress
  | reused (h : q' ≠ q) : Later q response stored q' .reused

/-- What follows when the request `i` has succeeded while `n` had arrived. -/
structure Key.After (s : Key β) (i n : ℕ) (q : Request) (c : Claim) (response : StoredResponse β)
    (stored : Prop) : Prop where
  succeeded : ∃ phase, s.tasks[i]? = some (q, phase) ∧ phase.Succeeded c response stored
  arrived : n ≤ s.tasks.length
  later : ∀ (j : ℕ) q' phase, n ≤ j → s.tasks[j]? = some (q', phase) →
    Later q response stored q' phase

variable {c : Claim} {response : StoredResponse β} {stored : Prop}

lemma Phase.Succeeded.claim_stands (h : phase.Succeeded c response stored) :
    phase.claim = some c ∧ phase.Stands := by
  rcases h with rfl | ⟨rfl, -⟩
  · exact ⟨rfl, trivial⟩
  · exact ⟨rfl, trivial⟩

/-- A request whose work has succeeded stores its response. -/
lemma Phase.Succeeded.moves {r : IdempotencyRecord β} {clock : Time}
    (h : old.Succeeded c response stored) (hid : r.id = c.id)
    (hmoves : Moves sha256 r clock q old new) : new.Succeeded c response stored := by
  rcases h with rfl | ⟨rfl, -⟩
  · cases hmoves
  · cases hmoves with
    | stored => exact .inl rfl
    | notStored _ _ hother => exact absurd hid hother

/-- A later request goes from a claim to a look, and from the look to its answer. -/
lemma Later.moves (hsha : Function.Injective sha256) {r : IdempotencyRecord β} {q' : Request}
    {clock : Time} (h : Later q response stored q' old) (howns : Owns sha256 q c r)
    (hsucceeded : phase.Succeeded c response stored) (hshows : phase.Shows r)
    (hlooking : ∀ tries now, old = .looking tries now → now < c.expiresAt)
    (hmoves : Moves sha256 r clock q' old new) : Later q response stored q' new := by
  cases h with
  | claiming =>
    cases hmoves with
    | found _ now => exact .looking now
  | looking now =>
    cases hmoves with
    | looked =>
      obtain ⟨hclaim, hstands⟩ := hsucceeded.claim_stands
      rcases judge_of_held hsha howns hclaim hstands hshows (hlooking _ now rfl) with
        ⟨hother, hjudge⟩ | ⟨hsame, response', hfinished, hjudge⟩ | ⟨hsame, hworking, hjudge⟩
      · exact hjudge ▸ .reused hother
      · rcases hsucceeded with rfl | ⟨rfl, -⟩
        · obtain rfl : response = response' := (Phase.finished.inj hfinished).2
          exact hjudge ▸ .replayed hsame
        · cases hfinished
      · rcases hsucceeded with rfl | ⟨rfl, hnot⟩
        · exact absurd rfl (hworking response)
        · exact hjudge ▸ .inProgress hsame hnot
  | replayed => cases hmoves
  | inProgress => cases hmoves
  | reused => cases hmoves

lemma Key.After.step (hsha : Function.Injective sha256) {a : KeyAction β} {n : ℕ}
    (h : s.After i n q c response stored) (hinv : s.Inv sha256) (hstep : s.Step sha256 a t)
    (hlt : t.clock < c.expiresAt) : t.After i n q c response stored := by
  obtain ⟨phase, hi, hsucceeded⟩ := h.succeeded
  obtain ⟨hclaim, hstands⟩ := hsucceeded.claim_stands
  obtain ⟨hclock, hprefix⟩ := onward_of_step hstep
  have hbefore : s.clock < c.expiresAt := lt_of_le_of_lt hclock hlt
  obtain ⟨r, hr, hid, howns, hshows⟩ := hinv.held hi hclaim hstands hbefore
  refine ⟨?_, ?_, fun j q' phase' hj hq => ?_⟩
  · have hfst : (t.tasks.map Prod.fst)[i]? = some q := by
      obtain ⟨more, hmore⟩ := hprefix
      rw [← hmore, List.getElem?_append_left, List.getElem?_map, hi]
      · rfl
      · simpa using (List.getElem?_eq_some_iff.mp hi).1
    rw [List.getElem?_map] at hfst
    obtain ⟨⟨q₁, phase'⟩, hi', hq₁⟩ := Option.map_eq_some_iff.mp hfst
    obtain rfl : q₁ = q := hq₁
    refine ⟨phase', hi', ?_⟩
    rcases moves_of_step hstep hr hi' with ⟨hlast, -⟩ | hsame | ⟨old, hold, hmoves⟩
    · exact absurd hlast (List.getElem?_eq_some_iff.mp hi).1.ne
    · obtain ⟨-, rfl⟩ := Prod.mk.inj (Option.some.inj (hi.symm.trans hsame))
      exact hsucceeded
    · obtain ⟨-, rfl⟩ := Prod.mk.inj (Option.some.inj (hi.symm.trans hold))
      exact hsucceeded.moves hid hmoves
  · have hle := hprefix.length_le
    rw [List.length_map, List.length_map] at hle
    exact h.arrived.trans hle
  · rcases moves_of_step hstep hr hq with ⟨-, rfl⟩ | hsame | ⟨old, hold, hmoves⟩
    · exact .claiming
    · exact h.later j q' phase' hj hsame
    · refine (h.later j q' old hj hold).moves hsha howns hsucceeded hshows ?_ hmoves
      exact fun tries now hl => ((hinv.tasks j q' old hold).looking tries now hl).trans_lt hbefore

lemma Key.After.run (hsha : Function.Injective sha256) {es : List (KeyAction β)} {n : ℕ}
    (h : s.After i n q c response stored) (hinv : s.Inv sha256)
    (hrun : Run (Key.Step sha256) s es t) (hlt : t.clock < c.expiresAt) :
    t.After i n q c response stored := by
  have hafter : t.Inv sha256 ∧ (t.clock < c.expiresAt → t.After i n q c response stored) := by
    refine hrun.invariant
      (I := fun u => u.Inv sha256 ∧ (u.clock < c.expiresAt → u.After i n q c response stored))
      (fun {u a v} hstep hu => ⟨hu.1.step hstep, fun hv => ?_⟩) ⟨hinv, fun _ => h⟩
    have hu' := lt_of_le_of_lt (onward_of_step hstep).1 hv
    exact (hu.2 hu').step hsha hu.1 hstep hv
  exact hafter.2 hlt

/-- The request has its answer. -/
def Phase.Answered : Phase β → Prop
  | .replayed _ | .reused | .inProgress => True
  | _ => False

lemma answered_of_look (hsha : Function.Injective sha256) {r : IdempotencyRecord β}
    {q' : Request} {j tries : ℕ} {now : Time} (hj : s.tasks[j]? = some (q', .looking tries now))
    (hrow : s.row = some r) (howns : Owns sha256 q c r) (hclaim : phase.claim = some c)
    (hstands : phase.Stands) (hshows : phase.Shows r) (hnow : now < c.expiresAt) :
    ∃ t, s.Step sha256 (.look j) t ∧ t.clock = s.clock ∧
      ∃ phase', t.tasks[j]? = some (q', phase') ∧ phase'.Answered := by
  have hlt : j < s.tasks.length := (List.getElem?_eq_some_iff.mp hj).1
  have hlook : s.Step sha256 (.look j) (s.become j q' (Key.judge sha256 q' tries now r)) := by
    refine ⟨fun _ h => (by cases h), ?_⟩
    simp only [Key.perform, hj, hrow]
  refine ⟨_, hlook, rfl, Key.judge sha256 q' tries now r, List.getElem?_set_self hlt, ?_⟩
  rcases judge_of_held hsha howns hclaim hstands hshows hnow with
    ⟨-, hjudge⟩ | ⟨-, response, -, hjudge⟩ | ⟨-, -, hjudge⟩ <;>
  · rw [hjudge]
    trivial

/-- A later request has its answer after two calls of its own at most. -/
lemma answered_of_later (hsha : Function.Injective sha256) (hinv : s.Inv sha256)
    {r : IdempotencyRecord β} {q' : Request} {j : ℕ} {phase' : Phase β}
    (hj : s.tasks[j]? = some (q', phase')) (hlater : Later q response stored q' phase')
    (hrow : s.row = some r) (howns : Owns sha256 q c r) (hclaim : phase.claim = some c)
    (hstands : phase.Stands) (hshows : phase.Shows r) (hlt : s.clock < c.expiresAt) :
    ∃ es t, es.Sublist [.insert j s.clock, .look j] ∧ Run (Key.Step sha256) s es t ∧
      t.clock = s.clock ∧ ∃ phase', t.tasks[j]? = some (q', phase') ∧ phase'.Answered := by
  cases hlater with
  | claiming =>
    have hinsert : s.Step sha256 (.insert j s.clock) (s.claim sha256 j q' claimTries s.clock) := by
      refine ⟨fun now h => (Option.some.inj h).ge, ?_⟩
      simp only [Key.perform, hj]
    have hnext : s.claim sha256 j q' claimTries s.clock =
        { s with nextId := s.nextId + 1 }.become j q' (.looking (claimTries - 1) s.clock) := by
      simp only [Key.claim, hrow, IdempotencyRepo.insert]
    rw [hnext] at hinsert
    have hj' : ({ s with nextId := s.nextId + 1 }.become j q'
        (.looking (claimTries - 1) s.clock)).tasks[j]? =
          some (q', .looking (claimTries - 1) s.clock) :=
      List.getElem?_set_self (List.getElem?_eq_some_iff.mp hj).1
    obtain ⟨t, hlook, hclock, hanswered⟩ :=
      answered_of_look hsha hj' hrow howns hclaim hstands hshows hlt
    exact ⟨_, t, List.Sublist.refl _, (Run.single hinsert).append (.single hlook), hclock,
      hanswered⟩
  | looking now =>
    have hnow := lt_of_le_of_lt ((hinv.tasks j q' _ hj).looking _ now rfl) hlt
    obtain ⟨t, hlook, hclock, hanswered⟩ :=
      answered_of_look hsha hj hrow howns hclaim hstands hshows hnow
    exact ⟨[.look j], t, .cons _ (List.Sublist.refl _), .single hlook, hclock, hanswered⟩
  | replayed => exact ⟨[], s, List.nil_sublist _, .nil, rfl, _, hj, trivial⟩
  | inProgress => exact ⟨[], s, List.nil_sublist _, .nil, rfl, _, hj, trivial⟩
  | reused => exact ⟨[], s, List.nil_sublist _, .nil, rfl, _, hj, trivial⟩

/-- While a claim stands no work starts, and its response goes to the same request only. -/
lemma Moves.of_held (hsha : Function.Injective sha256) {r : IdempotencyRecord β} {q' : Request}
    {clock : Time} (hmoves : Moves sha256 r clock q' old new) (howns : Owns sha256 q c r)
    (hclaim : phase.claim = some c) (hstands : phase.Stands) (hshows : phase.Shows r)
    (hlooking : ∀ tries now, old = .looking tries now → now < c.expiresAt) :
    (∀ d, new ≠ .working d) ∧
      ∀ response, new = .replayed response → q' = q ∧ phase = .finished c response := by
  cases hmoves with
  | looked tries now =>
    rcases judge_of_held hsha howns hclaim hstands hshows (hlooking tries now rfl) with
      ⟨-, hjudge⟩ | ⟨hsame, response, hfinished, hjudge⟩ | ⟨-, -, hjudge⟩
    · rw [hjudge]
      exact ⟨by simp, by simp⟩
    · rw [hjudge]
      refine ⟨by simp, fun response' h => ⟨hsame, ?_⟩⟩
      rwa [← Phase.replayed.inj h]
    · rw [hjudge]
      exact ⟨by simp, by simp⟩
  | discarded tries id =>
    unfold Key.retry
    split_ifs
    · exact ⟨by simp, by simp⟩
    · exact ⟨by simp, by simp⟩
  | released d last =>
    split_ifs
    · exact ⟨by simp, by simp⟩
    · exact ⟨by simp, by simp⟩
  | found | worked | workFailed | stored | notStored => exact ⟨by simp, by simp⟩

/-! ## Main results -/

/-- What holds of the claims of a key. -/
structure Key.RunsOnce (sha256 : Bytes → Bytes) (s : Key β) : Prop where
  /-- No work runs beside an unexpired claim. -/
  alone : ∀ (i j : ℕ) q q' phase c d, s.tasks[i]? = some (q, phase) → phase.claim = some c →
    phase.Stands → s.clock < c.expiresAt → s.tasks[j]? = some (q', .working d) →
    s.clock < d.expiresAt → j = i
  /-- While a claim stands, no work starts, and its response goes to the same request only. -/
  undisturbed : ∀ (i : ℕ) q phase c, s.tasks[i]? = some (q, phase) → phase.claim = some c →
    phase.Stands → s.clock < c.expiresAt →
      ∀ a t, s.Step sha256 a t → ∀ (j : ℕ) q',
        (∀ d, t.tasks[j]? = some (q', .working d) → s.tasks[j]? = some (q', .working d)) ∧
          ∀ response, t.tasks[j]? = some (q', .replayed response) →
            s.tasks[j]? = some (q', .replayed response) ∨
              q' = q ∧ phase = .finished c response
  /-- Once the work has succeeded, a later request gets the response until the claim expires, and
  gets its answer after two calls of its own at most. -/
  answered : ∀ (i : ℕ) q phase c response, s.tasks[i]? = some (q, phase) →
    phase = .completing c response ∨ phase = .finished c response →
      ∀ es t, Run (Key.Step sha256) s es t → t.clock < c.expiresAt →
        ∀ (j : ℕ) q' phase', s.tasks.length ≤ j → t.tasks[j]? = some (q', phase') →
          Later q response (phase = .finished c response) q' phase' ∧
            ∃ fs u, fs.Sublist [.insert j t.clock, .look j] ∧ Run (Key.Step sha256) t fs u ∧
              u.clock = t.clock ∧ ∃ phase'', u.tasks[j]? = some (q', phase'') ∧ phase''.Answered
  /-- A failed work leaves no claim. -/
  freed : ∀ (i : ℕ) q c r, s.tasks[i]? = some (q, .failed c) → s.row = some r → r.id ≠ c.id

/-- **A key runs its work once.**  It does in every run, and on one route two requests have the
same hash only if they have the same method and body. -/
theorem runs_once (hsha : Function.Injective sha256) {clock : Time} {es : List (KeyAction β)}
    (h : Run (Key.Step sha256) { clock } es s) :
    s.RunsOnce sha256 ∧ ∀ m m' route body body',
      requestHash sha256 m route body = requestHash sha256 m' route body' →
        m = m' ∧ body = body' := by
  have hinv : s.Inv sha256 := (inv_init clock).run h
  refine ⟨⟨?_, ?_, ?_, ?_⟩, fun m m' route body body' => requestHash_injective hsha⟩
  · intro i j q q' phase c d hi hclaim hstands hc hj hd
    obtain ⟨r, hr, hid, -⟩ := hinv.held hi hclaim hstands hc
    obtain ⟨r', hr', hid', -⟩ := hinv.held hj rfl trivial hd
    obtain rfl := Option.some.inj (hr.symm.trans hr')
    exact hinv.unique j i _ _ d c hj hi rfl hclaim (hid'.symm.trans hid)
  · intro i q phase c hi hclaim hstands hc a t hstep j q'
    obtain ⟨r, hr, -, howns, hshows⟩ := hinv.held hi hclaim hstands hc
    have hmoves : ∀ {new : Phase β}, t.tasks[j]? = some (q', new) → new ≠ .claiming claimTries →
        s.tasks[j]? = some (q', new) ∨ ((∀ d, new ≠ .working d) ∧
          ∀ response, new = .replayed response → q' = q ∧ phase = .finished c response) := by
      intro new hj hnew
      rcases moves_of_step hstep hr hj with ⟨-, hclaiming⟩ | hsame | ⟨old, hold, hmoves⟩
      · exact absurd hclaiming hnew
      · exact .inl hsame
      · refine .inr (hmoves.of_held hsha howns hclaim hstands hshows fun tries now hl => ?_)
        exact lt_of_le_of_lt ((hinv.tasks j q' old hold).looking tries now hl) hc
    refine ⟨fun d hj => ?_, fun response hj => ?_⟩
    · exact (hmoves hj (by simp)).resolve_right fun hnew => hnew.1 d rfl
    · exact (hmoves hj (by simp)).imp_right fun hnew => hnew.2 response rfl
  · intro i q phase c response hi hphase es' t hrun hlt j q' phase' hj hq
    have hsucceeded : phase.Succeeded c response (phase = .finished c response) := by
      rcases hphase with rfl | rfl
      · exact .inr ⟨rfl, by simp⟩
      · exact .inl rfl
    have hafter : s.After i s.tasks.length q c response (phase = .finished c response) := by
      refine ⟨⟨phase, hi, hsucceeded⟩, le_rfl, fun k q₁ p hk hq₁ => ?_⟩
      exact absurd (List.getElem?_eq_some_iff.mp hq₁).1 (not_lt.mpr hk)
    have hthen := hafter.run hsha hinv hrun hlt
    have htinv := hinv.run hrun
    obtain ⟨phaseᵢ, hi', hstill⟩ := hthen.succeeded
    obtain ⟨hclaim, hstands⟩ := hstill.claim_stands
    obtain ⟨r, hr, -, howns, hshows⟩ := htinv.held hi' hclaim hstands hlt
    have hlater := hthen.later j q' phase' hj hq
    exact ⟨hlater, answered_of_later hsha htinv hq hlater hr howns hclaim hstands hshows hlt⟩
  · intro i q c r hi hr hid
    exact ((hinv.tasks i q _ hi).owns c r rfl hr hid).2

def ascii (s : String) : Bytes := s.toList.map fun c => UInt8.ofNat c.toNat

/-- An import of contacts. -/
def importRequest : Request where
  method := ⟨ascii "POST", by decide⟩
  route := ascii "/api/v1/contacts/import"
  body := ascii "\x7b\x7d"

def importDigest : Bytes :=
  [192, 182, 153, 163, 194, 24, 37, 43, 41, 198, 19, 161, 241, 74, 227, 164, 245, 57, 255,
    101, 77, 71, 225, 100, 96, 108, 21, 22, 149, 173, 215, 62]

/-- SHA-256, as far as the import goes. -/
def importSha256 : Bytes → Bytes :=
  Equiv.swap (ascii "POST\n/api/v1/contacts/import\n\x7b\x7d") importDigest

def importClaim : Claim := { id := 0, expiresAt := 5 + keyTtl }

def importResponse : StoredResponse String := { status := .ok, body := "done" }

/-- What an action makes of the key, when what it read of the clock is not ahead. -/
def Key.step? (sha256 : Bytes → Bytes) (s : Key β) (a : KeyAction β) :
    Option (Key β) :=
  if a.reading.all (· ≤ s.clock) then s.perform sha256 a else none

lemma Key.step_of_step? {a : KeyAction β} (h : s.step? sha256 a = some t) :
    s.Step sha256 a t := by
  rw [Key.step?] at h
  split_ifs at h with hreading
  refine ⟨fun now hnow => ?_, h⟩
  simpa [hnow] using hreading

/-- The import is claimed and its work succeeds. -/
def importSucceeds : List (KeyAction String) :=
  [.arrive importRequest, .insert 0 5, .workEnds 0 (some importResponse)]

/-- The same import again. -/
def importAgain : List (KeyAction String) := [.arrive importRequest, .insert 1 5, .look 1]

/-- The work has succeeded, and a later request with the same route and body does not get its
response before it is stored. -/
theorem told_in_progress :
    Function.Injective importSha256 ∧
      ∃ s t, Run (Key.Step importSha256) { clock := 5 } importSucceeds s ∧
        Run (Key.Step importSha256) s importAgain t ∧
          s.tasks = [(importRequest, .completing importClaim importResponse)] ∧
            t.clock < importClaim.expiresAt ∧ t.tasks[1]? = some (importRequest, .inProgress) := by
  have hsha : Function.Injective importSha256 := (Equiv.swap _ _).injective
  have hfirst : (importSucceeds.foldlM (Key.step? importSha256) { clock := 5 }).map Key.tasks =
      some [(importRequest, .completing importClaim importResponse)] := by
    decide
  have hend : ((importSucceeds ++ importAgain).foldlM (Key.step? importSha256)
      { clock := 5 }).map (fun t => (t.clock, t.tasks[1]?)) =
        some (5, some (importRequest, .inProgress)) := by
    decide
  obtain ⟨s, hs, htasks⟩ := Option.map_eq_some_iff.mp hfirst
  obtain ⟨t, ht, hfacts⟩ := Option.map_eq_some_iff.mp hend
  obtain ⟨hclock, hanswer⟩ := Prod.ext_iff.mp hfacts
  rw [List.foldlM_append, hs] at ht
  refine ⟨(Equiv.swap _ _).injective, s, t, .of_foldlM Key.step_of_step? hs,
    .of_foldlM Key.step_of_step? ht, htasks, ?_, hanswer⟩
  rw [show t.clock = 5 from hclock]
  decide

/-- The import runs, and the same import gets its response. -/
def importTwice : List (KeyAction String) := importSucceeds ++ [.complete 0] ++ importAgain

theorem runs_once_import :
    ∃ s, Run (Key.Step importSha256) { clock := 5 } importTwice s ∧
      s.tasks = [(importRequest, .finished importClaim importResponse),
        (importRequest, .replayed importResponse)] ∧
        s.RunsOnce importSha256 ∧ ∀ m m' route body body',
          requestHash importSha256 m route body = requestHash importSha256 m' route body' →
            m = m' ∧ body = body' := by
  have hend : (importTwice.foldlM (Key.step? importSha256) { clock := 5 }).map Key.tasks =
      some [(importRequest, .finished importClaim importResponse),
        (importRequest, .replayed importResponse)] := by
    decide +kernel
  obtain ⟨s, hs, htasks⟩ := Option.map_eq_some_iff.mp hend
  have hrun : Run (Key.Step importSha256) { clock := 5 } importTwice s :=
    .of_foldlM Key.step_of_step? hs
  exact ⟨s, hrun, htasks, runs_once (Equiv.swap _ _).injective hrun⟩

end Postit.Api
