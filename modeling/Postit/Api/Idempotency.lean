import Mathlib.Data.Int.Notation
import Postit.Core.Delivery
import Postit.Framework.Bytes

/-!
# Idempotency keys

One key of one owner and actor: its row, which may be none, and the requests that use it.  Each
database call is one step, and between two of them the clock may go on, other requests may act and
the purge may run.  Calls succeed, and no request is dropped while its work is running; one that is
dropped later may release its claim twice.

SHA-256 is given, and so is the type of JSON bodies.
-/

namespace Postit.Api

open Postit.Framework

/-! ## Requests -/

/-- An HTTP method: a token, so without a line feed. -/
structure Method where
  asBytes : Bytes
  token : (10 : UInt8) ∉ asBytes
  deriving DecidableEq

/-- What a request is recognized by. -/
structure Request where
  method : Method
  route : Bytes
  body : Bytes
  deriving DecidableEq

/-- A hexadecimal digit. -/
def hexDigit (n : ℕ) : Char := if n < 10 then Char.ofNat (48 + n) else Char.ofNat (87 + n)

/-- Two hexadecimal digits for each byte. -/
def hex (bytes : Bytes) : List Char :=
  bytes.flatMap fun b => [hexDigit (b.toNat / 16), hexDigit (b.toNat % 16)]

/-- Hex SHA-256 over the method, the matched route, and the raw body. -/
def requestHash (sha256 : Bytes → Bytes) (method : Method) (route body : Bytes) : List Char :=
  hex (sha256 (method.asBytes ++ [10] ++ route ++ [10] ++ body))

/-! ## Responses -/

/-- An HTTP status. -/
structure StatusCode where
  code : ℕ
  valid : 100 ≤ code ∧ code < 1000
  deriving DecidableEq

def StatusCode.ok : StatusCode := ⟨200, by decide⟩

/-- The status as the column keeps it. -/
def StatusCode.toI16 (s : StatusCode) : ℤ := if (s.code : ℤ) < 2 ^ 15 then s.code else 200

/-- The status a column value stands for. -/
def StatusCode.ofI16 (n : ℤ) : StatusCode :=
  if h : 0 ≤ n ∧ 100 ≤ n.toNat ∧ n.toNat < 1000 then ⟨n.toNat, h.2⟩ else .ok

lemma StatusCode.ofI16_toI16 (s : StatusCode) : .ofI16 s.toI16 = s := by
  obtain ⟨code, hlow, hhigh⟩ := s
  have hfits : (code : ℤ) < 2 ^ 15 := by omega
  have hvalid : 0 ≤ (code : ℤ) ∧ 100 ≤ (code : ℤ).toNat ∧ (code : ℤ).toNat < 1000 := by omega
  unfold toI16
  rw [if_pos hfits]
  unfold ofI16
  rw [dif_pos hvalid]
  rfl

/-- A JSON response that can be stored and replayed. -/
structure StoredResponse (β : Type) where
  status : StatusCode
  body : β
  deriving DecidableEq

/-! ## The row -/

inductive IdempotencyState
  | inProgress
  | completed
  deriving DecidableEq, Repr

/-- A row of `idempotency_keys`. -/
structure IdempotencyRecord (β : Type) where
  id : ℕ
  route : Bytes
  requestHash : List Char
  state : IdempotencyState := .inProgress
  responseStatus : Option ℤ := none
  responseBody : Option β := none
  expiresAt : Time

namespace IdempotencyRepo

variable {β : Type}

/-- Inserts the row, unless there is one. -/
def insert (row : Option (IdempotencyRecord β)) (record : IdempotencyRecord β) :
    Option (IdempotencyRecord β) :=
  match row with
  | none => some record
  | some _ => none

/-- Stores the response of the row with this ID, if there is one. -/
def complete (row : Option (IdempotencyRecord β)) (id : ℕ) (status : ℤ) (body : β) :
    Option (IdempotencyRecord β) :=
  (row.filter fun r => r.id = id).map fun r =>
    { r with state := .completed, responseStatus := some status, responseBody := some body }

/-- What is left when the row with this ID is deleted. -/
def delete (row : Option (IdempotencyRecord β)) (id : ℕ) : Option (IdempotencyRecord β) :=
  row.filter fun r => r.id ≠ id

/-- What is left when the row with this ID is deleted while it is still in progress. -/
def release (row : Option (IdempotencyRecord β)) (id : ℕ) : Option (IdempotencyRecord β) :=
  row.filter fun r => ¬ (r.id = id ∧ r.state = .inProgress)

/-- What is left when expired rows are purged. -/
def purgeExpired (row : Option (IdempotencyRecord β)) (now : Time) :
    Option (IdempotencyRecord β) :=
  row.filter fun r => ¬ r.expiresAt < now

end IdempotencyRepo

/-! ## A request at work -/

/-- How long a stored response is replayed for the same key: 24 hours. -/
def keyTtl : Time := 24 * 3600 * 1000000

/-- How often a claim is tried. -/
def claimTries : ℕ := 3

/-- What a request that claimed the key knows of its row. -/
structure Claim where
  id : ℕ
  expiresAt : Time
  deriving DecidableEq

/-- A request, by what it does next. -/
inductive Phase (β : Type)
  /-- tries to insert the row, with so many tries left -/
  | claiming (tries : ℕ)
  /-- found a row there, and selects it -/
  | looking (tries : ℕ) (now : Time)
  /-- found the row expired, and deletes it -/
  | discarding (tries : ℕ) (id : ℕ)
  | working (claim : Claim)
  /-- the work succeeded -/
  | completing (claim : Claim) (response : StoredResponse β)
  /-- the work failed, or its response found no row -/
  | releasing (claim : Claim)
  | finished (claim : Claim) (response : StoredResponse β)
  | failed (claim : Claim)
  | replayed (response : StoredResponse β)
  /-- `idempotency_key_reused` -/
  | reused
  /-- `idempotency_in_progress` -/
  | inProgress
  deriving DecidableEq

/-- The key: the clock, its row, the IDs given out, and the requests that use it. -/
structure Key (β : Type) where
  clock : Time
  row : Option (IdempotencyRecord β) := none
  nextId : ℕ := 0
  tasks : List (Request × Phase β) := []

inductive KeyAction (β : Type)
  | tick (until_ : Time)
  | arrive (request : Request)
  | insert (i : ℕ) (now : Time)
  | look (i : ℕ)
  | discard (i : ℕ)
  | workEnds (i : ℕ) (result : Option (StoredResponse β))
  | complete (i : ℕ)
  | release (i : ℕ) (last : Bool)
  | purge (now : Time)

namespace Key

variable {β : Type}

/-- The request goes on to what it does next. -/
def become (s : Key β) (i : ℕ) (request : Request) (phase : Phase β) : Key β :=
  { s with tasks := s.tasks.set i (request, phase) }

/-- The next try, or none left. -/
def retry (tries : ℕ) : Phase β := if tries = 0 then .inProgress else .claiming tries

/-- What a request makes of the row it found. -/
def judge (sha256 : Bytes → Bytes) (request : Request) (tries : ℕ) (now : Time)
    (existing : IdempotencyRecord β) : Phase β :=
  if existing.expiresAt ≤ now then .discarding tries existing.id
  else if existing.route ≠ request.route ∨
      existing.requestHash ≠ requestHash sha256 request.method request.route request.body then
    .reused
  else
    match existing.state, existing.responseStatus, existing.responseBody with
    | .completed, some status, some body => .replayed { status := .ofI16 status, body }
    | _, _, _ => .inProgress

/-- A claim: the row is inserted, or one is there already. -/
def claim (sha256 : Bytes → Bytes) (s : Key β) (i : ℕ) (request : Request) (tries : ℕ)
    (now : Time) : Key β :=
  let record : IdempotencyRecord β :=
    { id := s.nextId
      route := request.route
      requestHash := requestHash sha256 request.method request.route request.body
      expiresAt := now + keyTtl }
  match IdempotencyRepo.insert s.row record with
  | some row =>
    { s with row := some row, nextId := s.nextId + 1 }.become i request
      (.working { id := record.id, expiresAt := record.expiresAt })
  | none => { s with nextId := s.nextId + 1 }.become i request (.looking (tries - 1) now)

/-- What an action makes of the key, when it can happen. -/
def perform (sha256 : Bytes → Bytes) (s : Key β) : KeyAction β → Option (Key β)
  | .tick until_ => if s.clock ≤ until_ then some { s with clock := until_ } else none
  | .arrive request => some { s with tasks := s.tasks ++ [(request, .claiming claimTries)] }
  | .insert i now =>
    match s.tasks[i]? with
    | some (request, .claiming tries) => some (s.claim sha256 i request tries now)
    | _ => none
  | .look i =>
    match s.tasks[i]? with
    | some (request, .looking tries now) =>
      match s.row with
      | none => some (s.become i request (retry tries))
      | some existing => some (s.become i request (judge sha256 request tries now existing))
    | _ => none
  | .discard i =>
    match s.tasks[i]? with
    | some (request, .discarding tries id) =>
      some ({ s with row := IdempotencyRepo.delete s.row id }.become i request (retry tries))
    | _ => none
  | .workEnds i result =>
    match s.tasks[i]? with
    | some (request, .working claim) =>
      match result with
      | some response => some (s.become i request (.completing claim response))
      | none => some (s.become i request (.releasing claim))
    | _ => none
  | .complete i =>
    match s.tasks[i]? with
    | some (request, .completing claim response) =>
      match IdempotencyRepo.complete s.row claim.id response.status.toI16 response.body with
      | some row => some ({ s with row := some row }.become i request (.finished claim response))
      | none => some (s.become i request (.releasing claim))
    | _ => none
  | .release i last =>
    match s.tasks[i]? with
    | some (request, .releasing claim) =>
      some
        ({ s with row := IdempotencyRepo.release s.row claim.id }.become i request
          (if last then .failed claim else .releasing claim))
    | _ => none
  | .purge now => some { s with row := IdempotencyRepo.purgeExpired s.row now }

end Key

/-- What an action read of the clock. -/
def KeyAction.reading {β : Type} : KeyAction β → Option Time
  | .insert _ now | .purge now => some now
  | .tick _ | .arrive _ | .look _ | .discard _ | .workEnds _ _ | .complete _ | .release _ _ => none

/-- One step of the key: what it read of the clock is not ahead of it. -/
def Key.Step {β : Type} (sha256 : Bytes → Bytes) (s : Key β) (a : KeyAction β) (t : Key β) : Prop :=
  (∀ now, a.reading = some now → now ≤ s.clock) ∧ s.perform sha256 a = some t

end Postit.Api
