import Postit.OAuth.States

/-!
# The OAuth flow

One authorization from its start to the end of its tokens: the callbacks and readers at work on
its row, and what becomes of the tokens the provider issues.  Statements on the row are atomic,
and between two of them anything else may happen; a confirm and a take are one transaction each.

The clock is the service's.  A call that reads it acts on what it read, which may lie behind.
-/

namespace Postit.OAuth

open Postit.Data (UserId PlatformId)
open Postit.Framework

/-! ## Revoking and connecting -/

/-- Why a result is dropped without a revoke. -/
inductive Skip
  | noRemoteUser
  | inUse
  | unreadable
  | unavailable
  deriving DecidableEq, Repr

/-- What a revoke and a confirm ask besides the row: whether the provider's user is in use by
another authorization, whether sealed tokens open, and whether the platform resolves. -/
structure Surroundings (τ : Type) where
  remoteUserInUse : PlatformId → String → Bool
  opens : τ → Bool
  resolves : PlatformId → Bool

variable {τ : Type}

/-- Whether a taken result is revoked: its tokens, or why not. -/
def planResultRevoke (around : Surroundings τ) (row : OAuthState τ) : Except Skip τ :=
  match row.remoteUserId, row.grantTokens with
  | none, _ => .error .noRemoteUser
  | some _, none => .error .unreadable
  | some remote, some tokens =>
    if around.remoteUserInUse row.platform remote then .error .inUse
    else if !around.opens tokens then .error .unreadable
    else if !around.resolves row.platform then .error .unavailable
    else .ok tokens

/-- What becomes of one chosen account. -/
inductive AccountUpsert
  | connected
  | elsewhere
  | fails
  deriving DecidableEq, Repr

/-- The accounts that get connected, or a failure that rolls everything back. -/
def connectAccounts (upsert : String → AccountUpsert) : List String → Option (List String)
  | [] => some []
  | account :: accounts =>
    match upsert account with
    | .connected => (connectAccounts upsert accounts).map (account :: ·)
    | .elsewhere => connectAccounts upsert accounts
    | .fails => none

/-- The discovered accounts the user picked.  No list picks all of them. -/
def choose (discovered : List String) (accountIds : Option (List String)) : List String :=
  match accountIds with
  | none => discovered
  | some ids => discovered.filter (· ∈ ids)

/-! ## The authorization -/

/-- A request at work on the authorization, by what it does next. -/
inductive Task (τ : Type)
  /-- a callback that consumed the state, which it found like this -/
  | consumed (row : OAuthState τ) (platform : PlatformId) (now : Time)
  /-- a callback that may exchange the code -/
  | preparing (began : Time)
  /-- a callback that holds tokens -/
  | exchanged (began : Time) (tokens : τ) (remoteUserId : Option String)
  /-- another user's read that found the result -/
  | foreign (now : Time)
  | done

/-- A grant a confirm made, with the confirm's clock and the expiry it found. -/
structure Grant (τ : Type) where
  user : UserId
  tokens : τ
  at_ : Time
  expiry : Time

/-- An authorization: its row, the requests at work on it, who started it, how many callbacks
consumed its state, every token set the provider issued for it, the grants made of it, and of the
takes the revoke plans and the drops. -/
structure Flow (τ : Type) where
  clock : Time
  row : Option (OAuthState τ) := none
  tasks : List (Task τ) := []
  starter : Option UserId := none
  consumptions : ℕ := 0
  issued : List τ := []
  grants : List (Grant τ) := []
  planned : List τ := []
  skipped : List (τ × Skip) := []

/-- Times of the service. -/
structure Timing where
  stateTtl : Time
  callbackDeadline : Time
  callbackGrace : Time

/-- What happens to the authorization. -/
inductive Action (τ : Type)
  | tick (until_ : Time)
  | startOauth (user : UserId) (platform : PlatformId)
  | consumeState (platform : PlatformId) (now : Time)
  | takeState (i : ℕ)
  | deleteState (i : ℕ)
  | exchange (i : ℕ) (tokens : τ) (remoteUserId : Option String)
  | storeResult (i : ℕ) (connectIdHash : Bytes) (discovered : List String)
  | storeDiscarded (i : ℕ) (now : Time)
  | pending (caller : UserId) (connectIdHash : Bytes) (now : Time)
  | discardForeign (i : ℕ)
  | confirm (caller : UserId) (connectIdHash : Bytes) (accountIds : Option (List String))
      (upsert : String → AccountUpsert) (around : Surroundings τ) (now : Time)
  | discardResultsOfRemoteUser (platform : PlatformId) (remoteUserId : String) (now : Time)
  | takeExpiredResult (around : Surroundings τ) (now : Time)
  | takeResultsOf (user : UserId) (around : Surroundings τ)
  | deleteUnconsumedOf (user : UserId)
  | purgeExpired (now : Time)

namespace Flow

/-- A new request starts. -/
def spawn (s : Flow τ) (task : Task τ) : Flow τ := { s with tasks := s.tasks ++ [task] }

/-- A request goes on to what it does next. -/
def become (s : Flow τ) (i : ℕ) (task : Task τ) : Flow τ := { s with tasks := s.tasks.set i task }

/-- The row is taken out: its tokens go into a revoke plan, or are dropped for a reason. -/
def take (s : Flow τ) (around : Surroundings τ) (row : OAuthState τ) : Flow τ :=
  match row.grantTokens with
  | none => { s with row := none }
  | some tokens =>
    match planResultRevoke around row with
    | .ok tokens => { s with row := none, planned := tokens :: s.planned }
    | .error skip => { s with row := none, skipped := (tokens, skip) :: s.skipped }

/-- Confirms a result under the row's lock: moves its tokens into a new grant, or discards it.
A connect that fails rolls back. -/
def confirmOauth (s : Flow τ) (caller : UserId) (row : OAuthState τ)
    (accountIds : Option (List String)) (upsert : String → AccountUpsert)
    (around : Surroundings τ) (now : Time) : Flow τ :=
  if row.user ≠ caller ∨ row.expiresAt ≤ now then
    { s with row := OAuthStateRepo.discard s.row now }
  else if !around.resolves row.platform then
    { s with row := OAuthStateRepo.discard s.row now }
  else
    match row.grantTokens, row.discovered with
    | some tokens, some discovered =>
      if !around.opens tokens then { s with row := OAuthStateRepo.discard s.row now }
      else
        match connectAccounts upsert (choose discovered accountIds) with
        | none => s
        | some [] => { s with row := OAuthStateRepo.discard s.row now }
        | some (_ :: _) =>
          { s with
            row := none
            grants :=
              { user := caller, tokens, at_ := now, expiry := row.expiresAt } :: s.grants }
    | _, _ => { s with row := OAuthStateRepo.discard s.row now }

/-- The last part of `take_state`: a state for another platform, or expired, is deleted; one that
is accepted is kept alive for as long as its callback may work. -/
def takeState (timing : Timing) (s : Flow τ) (i : ℕ) (found : OAuthState τ)
    (platform : PlatformId) (now : Time) : Flow τ :=
  if found.platform ≠ platform ∨ found.expiresAt ≤ now then
    { s with row := none }.become i .done
  else
    match OAuthStateRepo.extendExpiry s.row
        (now + timing.callbackDeadline + timing.callbackGrace) with
    | none => s.become i .done
    | some row => { s with row := some row }.become i (.preparing now)

/-- What an action makes of the authorization, when it can happen. -/
def perform (timing : Timing) (s : Flow τ) : Action τ → Option (Flow τ)
  | .tick until_ => if s.clock ≤ until_ then some { s with clock := until_ } else none
  | .startOauth user platform =>
    match s.starter with
    | some _ => none
    | none =>
      some
        { s with
          row := some { user, platform, expiresAt := s.clock + timing.stateTtl }
          starter := some user }
  | .consumeState platform now =>
    match OAuthStateRepo.consumeState s.row now with
    | none => none
    | some row =>
      some
        ({ s with row := some row, consumptions := s.consumptions + 1 }.spawn
          (.consumed row platform now))
  | .takeState i =>
    match s.tasks[i]? with
    | some (.consumed found platform now) => some (s.takeState timing i found platform now)
    | _ => none
  | .deleteState i =>
    match s.tasks[i]? with
    | some (.preparing _) => some ({ s with row := none }.become i .done)
    | _ => none
  | .exchange i tokens remoteUserId =>
    match s.tasks[i]? with
    | some (.preparing began) =>
      some ({ s with issued := tokens :: s.issued }.become i
        (.exchanged began tokens remoteUserId))
    | _ => none
  | .storeResult i connectIdHash discovered =>
    match s.tasks[i]? with
    | some (.exchanged _ tokens remoteUserId) =>
      some
        ({ s with
          row := OAuthStateRepo.storeResult s.row connectIdHash tokens discovered
            remoteUserId }.become i .done)
    | _ => none
  | .storeDiscarded i now =>
    match s.tasks[i]? with
    | some (.exchanged _ tokens remoteUserId) =>
      some
        ({ s with
          row := OAuthStateRepo.storeDiscarded s.row tokens remoteUserId now }.become i .done)
    | _ => none
  | .pending caller connectIdHash now =>
    match OAuthStateRepo.findResult s.row connectIdHash with
    | none => none
    | some row => if row.user ≠ caller then some (s.spawn (.foreign now)) else none
  | .discardForeign i =>
    match s.tasks[i]? with
    | some (.foreign now) =>
      some ({ s with row := OAuthStateRepo.discard s.row now }.become i .done)
    | _ => none
  | .confirm caller connectIdHash accountIds upsert around now =>
    match OAuthStateRepo.findResult s.row connectIdHash with
    | none => none
    | some row => some (s.confirmOauth caller row accountIds upsert around now)
  | .discardResultsOfRemoteUser platform remoteUserId now =>
    some
      { s with
        row := OAuthStateRepo.discardResultsOfRemoteUser s.row platform remoteUserId now }
  | .takeExpiredResult around now =>
    match OAuthStateRepo.takeExpiredResult s.row now with
    | none => none
    | some row => some (s.take around row)
  | .takeResultsOf user around =>
    match OAuthStateRepo.takeResultsOf s.row user with
    | none => none
    | some row => some (s.take around row)
  | .deleteUnconsumedOf user =>
    some { s with row := OAuthStateRepo.deleteUnconsumedOf s.row user }
  | .purgeExpired now => some { s with row := OAuthStateRepo.purgeExpired s.row now }

end Flow

/-- What an action read of the clock. -/
def Action.reading : Action τ → Option Time
  | .consumeState _ now | .storeDiscarded _ now | .pending _ _ now | .confirm _ _ _ _ _ now
  | .discardResultsOfRemoteUser _ _ now | .takeExpiredResult _ now | .purgeExpired now => some now
  | _ => none

/-- One step of the authorization: what it read of the clock is not ahead of it. -/
def Flow.Step (timing : Timing) (s : Flow τ) (a : Action τ) (t : Flow τ) : Prop :=
  (∀ now, a.reading = some now → now ≤ s.clock) ∧ s.perform timing a = some t

/-- When a callback began that has not ended. -/
def Task.began : Task τ → Option Time
  | .consumed _ _ now => some now
  | .preparing began => some began
  | .exchanged began _ _ => some began
  | .foreign _ | .done => none

/-- Every callback ends within its deadline and the grace. -/
def Flow.Prompt (timing : Timing) (s : Flow τ) : Prop :=
  ∀ task ∈ s.tasks, ∀ began, task.began = some began →
    s.clock < began + timing.callbackDeadline + timing.callbackGrace

end Postit.OAuth
