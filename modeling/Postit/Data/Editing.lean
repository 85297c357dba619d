import Postit.Core.Json
import Postit.Data.Operations
import Postit.Framework.Savepoints

/-!
# Editing posts

A post is edited through a `LockedPost`, which `PostRepo.lock` hands out once it has locked the
post's row and made sure no job of it is scheduled or running.  Next to the engine's tables stands
what a post is made of: its content, media, targets, overrides and recurrence.

An `Edit` that fails has written what it wrote before; most writes run in a savepoint, which takes
that back.
-/

namespace Postit.Editing

open Postit.Framework Postit.Data

abbrev MediaAssetId := ℕ
abbrev CampaignId := ℕ
abbrev RecurrenceId := ℕ

/-- The largest value of a `version` column. -/
def maxI32 : ℕ := 2 ^ 31 - 1

/-! ## Tables -/

/-- The editable content of a post. -/
structure PostContent where
  replyTo : Option Json := none
  campaignId : Option CampaignId := none
  text : String := ""
  link : Option String := none
  tags : List String := []
  discloseAiGenerated : Bool := false

/-- One media attachment of a post. -/
structure PostMediaItem where
  mediaId : MediaAssetId
  position : ℤ
  altText : Option String := none
  deriving DecidableEq, Repr

/-- What differs for one account. -/
structure PostOverrideRow where
  patch : Json
  options : Json
  updatedBy : UserId

/-- Why a recurrence is not running. -/
inductive PauseReason
  | postEdited
  | noTargets
  | user
  | ended
  deriving DecidableEq, Repr

/-- A post's recurrence, with the accounts each occurrence goes to.  Its owner is the post's. -/
structure Recurrence where
  id : RecurrenceId
  rule : String
  timezone : String
  rewrite : Bool
  nextOccurrenceAt : Option Time
  occurrencesCreated : ℕ := 0
  -- none while it runs
  paused : Option PauseReason := none
  confirmedVersion : Option ℤ
  confirmedBy : Option UserId
  confirmedAt : Option Time
  version : ℕ := 1
  updatedBy : Option UserId
  targets : List AccountId := []

/-- What hangs on a post. -/
structure PostParts where
  content : PostContent := {}
  media : List PostMediaItem := []
  targets : List AccountId := []
  overrides : Table AccountId PostOverrideRow := ∅
  recurrence : Option Recurrence := none

/-- The engine's tables, the posts' parts, and the owners of assets and campaigns. -/
structure Workspace where
  engine : Db
  posts : Table PostId PostParts := ∅
  assets : Table MediaAssetId UserId := ∅
  campaigns : Table CampaignId UserId := ∅

namespace Workspace

variable (w : Workspace)

/-- The parts of a post. -/
def parts (post : PostId) : PostParts := (w.posts.lookup post).getD {}

/-- The parts of a post, replaced. -/
def setParts (post : PostId) (parts : PostParts) : Workspace :=
  { w with posts := w.posts.insert post parts }

/-- Whether the owner has the account, and it is connected. -/
def connected (owner : UserId) (account : AccountId) : Bool :=
  (w.engine.accounts.lookup account).any fun a => a.ownerId = owner && a.status ≠ .disconnected

/-- The version of a post. -/
def version (post : PostId) : Option ℕ := (w.engine.posts.lookup post).map (·.version)

@[simp] lemma setParts_engine (post : PostId) (parts : PostParts) :
    (w.setParts post parts).engine = w.engine := rfl

@[simp] lemma parts_setParts (post : PostId) (parts : PostParts) :
    (w.setParts post parts).parts post = parts := by
  simp [Workspace.parts, setParts]

end Workspace

/-- A program on the workspace. -/
abbrev Edit := EStateM DataError Workspace

/-- A transaction of the engine, in a savepoint. -/
def engine {α : Type} (p : Tx α) : Edit α := fun w =>
  match p.run w.engine with
  | .ok (a, db) => .ok a { w with engine := db }
  | .error e => .error e w

/-! ## Checks -/

/-- A post held for editing. -/
structure LockedPost where
  id : PostId
  -- as it was when locked
  row : Post
  scope : OwnerScope

/-- Refuses when the condition holds. -/
def refuse (c : Bool) (e : DataError) : Edit Unit := inspect fun _ => if c then .error e else .ok ()

/-- Refuses when the caller has an account limit and something is beyond it. -/
def refuseHidden (scope : OwnerScope) (hidden : Workspace → Bool) : Edit Unit := inspect fun w =>
  if scope.accountFilter.isNone then .ok ()
  else if hidden w then .error .accountNotInScope
  else .ok ()

/-- Refuses an action the access does not allow. -/
def require (scope : OwnerScope) (needed : Capability) : Edit Unit :=
  inspect fun _ => (scope.permits needed).mapError .scope

/-- Whether the post has an override, a delivery that has not ended, or a target on an account
outside the scope's limit. -/
def hiddenBeyondLimit (w : Workspace) (scope : OwnerScope) (post : PostId)
    (includeTargets : Bool) : Bool :=
  (includeTargets && (w.parts post).targets.any fun a => !scope.allowsAccount a) ||
    (w.parts post).overrides.exists? (fun a _ => !scope.allowsAccount a) ||
    w.engine.deliveries.exists? fun _ d =>
      d.ownerId = scope.owner && d.postId = post && !d.state.isTerminal &&
        !scope.allowsAccount d.accountId

/-- The whole-object rule for a caller with an account limit. -/
def ensureWholePost (scope : OwnerScope) (post : PostId) : Edit Unit :=
  refuseHidden scope fun w => hiddenBeyondLimit w scope post false

/-! ## Changes -/

/-- Changes the post's parts. -/
def onParts (locked : LockedPost) (f : Workspace → PostParts → Except DataError PostParts) :
    Edit Unit :=
  update fun w => (f w (w.parts locked.id)).map (w.setParts locked.id)

/-- Raises the version of the post. -/
def raisePost (locked : LockedPost) (w : Workspace) : Except DataError Workspace :=
  match w.engine.posts.lookup locked.id with
  | some row =>
      if row.ownerId ≠ locked.scope.owner then .ok w
      else if maxI32 ≤ row.version then .error .sql
      else
        let raised := { row with version := row.version + 1 }
        .ok { w with engine := { w.engine with posts := w.engine.posts.insert locked.id raised } }
  | none => .ok w

/-- The recurrence paused; its version goes up. -/
def Recurrence.pausedBy (r : Recurrence) (actor : UserId) (reason : PauseReason) : Recurrence :=
  { r with paused := some reason, version := r.version + 1, updatedBy := some actor }

/-- Pauses the post's recurrence, unless it is paused. -/
def pauseEdited (locked : LockedPost) (parts : PostParts) : Except DataError PostParts :=
  match parts.recurrence with
  | some r =>
      if r.paused.isSome then .ok parts
      else if maxI32 ≤ r.version then .error .sql
      else .ok { parts with recurrence := some (r.pausedBy locked.scope.actor .postEdited) }
  | none => .ok parts

/-- Bumps the version once, and pauses the post's recurrence. -/
def bumpVersion (locked : LockedPost) : Edit Unit := do
  update (raisePost locked)
  onParts locked fun _ => pauseEdited locked

/-! ## Posts -/

namespace PostRepo

/-- Locks a post for editing. -/
def lock (scope : OwnerScope) (id : PostId) (expectedVersion : Option ℕ) : Edit LockedPost := do
  require scope .edit
  let row ← engine (Data.PostRepo.lockRow scope.owner id expectedVersion)
  pure ⟨id, row, scope⟩

/-- Replaces the post's content. -/
def updateContent (locked : LockedPost) (content : PostContent) : Edit Unit := do
  ensureWholePost locked.scope locked.id
  savepoint do
    onParts locked fun w parts =>
      if content.campaignId.all fun c => w.campaigns.lookup c = some locked.scope.owner then
        .ok { parts with content }
      else .error .notFound
    bumpVersion locked

/-- Attaches one item. -/
def attach (locked : LockedPost) (item : PostMediaItem) : Edit Unit :=
  onParts locked fun w parts =>
    if w.assets.lookup item.mediaId ≠ some locked.scope.owner then .error .notFound
    else if item.position < 0 then .error .sql
    else if parts.media.any fun m => m.mediaId = item.mediaId then
      .error (.conflict "post_media_pkey")
    else if parts.media.any fun m => m.position = item.position then
      .error (.conflict "post_media_post_id_position_key")
    else .ok { parts with media := parts.media ++ [item] }

/-- Replaces the post's media. -/
def setMedia (locked : LockedPost) (items : List PostMediaItem) : Edit Unit := do
  ensureWholePost locked.scope locked.id
  savepoint do
    onParts locked fun _ parts => .ok { parts with media := [] }
    items.forM (attach locked)
    bumpVersion locked

/-- Targets one account, unless it is a target. -/
def target (locked : LockedPost) (account : AccountId) : Edit Unit :=
  onParts locked fun w parts =>
    let present := parts.targets.contains account
    if w.connected locked.scope.owner account && !present then
      .ok { parts with targets := parts.targets ++ [account] }
    else if present then .ok parts
    else .error .notFound

/-- Replaces the post's targets inside the caller's account limit. -/
def setTargets (locked : LockedPost) (accounts : List AccountId) : Edit Unit := do
  refuse (accounts.any fun a => !locked.scope.allowsAccount a) .notFound
  savepoint do
    onParts locked fun _ parts =>
      .ok { parts with targets := parts.targets.filter fun a => !locked.scope.allowsAccount a }
    accounts.forM (target locked)
    bumpVersion locked

/-- Sets the override for one account. -/
def upsertOverride (locked : LockedPost) (account : AccountId) (patch options : Json) :
    Edit Unit := do
  refuse (!locked.scope.allowsAccount account) .notFound
  savepoint do
    onParts locked fun w parts =>
      if w.connected locked.scope.owner account then
        .ok { parts with
          overrides := parts.overrides.insert account ⟨patch, options, locked.scope.actor⟩ }
      else .error .notFound
    bumpVersion locked

/-- Removes the override for one account. -/
def deleteOverride (locked : LockedPost) (account : AccountId) : Edit Unit := do
  refuse (!locked.scope.allowsAccount account) .notFound
  savepoint do
    onParts locked fun _ parts =>
      if (parts.overrides.lookup account).isSome then
        .ok { parts with overrides := parts.overrides.erase account }
      else .error .notFound
    bumpVersion locked

/-- The workspace without the post, and without what hangs on it. -/
def remove (id : PostId) (w : Workspace) : Workspace :=
  let ofPost (d : Delivery) : Bool := d.postId = id
  { w with
    posts := w.posts.erase id
    engine := { w.engine with
      posts := w.engine.posts.erase id
      jobs := w.engine.jobs.deleteWhere fun _ j => j.postId = id
      deliveries := w.engine.deliveries.deleteWhere fun _ d => ofPost d
      attempts := w.engine.attempts.deleteWhere fun _ a =>
        (w.engine.deliveries.lookup a.deliveryId).any ofPost
      sends := w.engine.sends.deleteWhere fun _ r =>
        (w.engine.deliveries.lookup r.deliveryId).any ofPost } }

/-- Deletes the post; with live jobs in its history, it takes more access. -/
def delete (locked : LockedPost) : Edit Unit := do
  let hasLiveHistory ← inspect fun w =>
    .ok (w.engine.jobs.exists? fun _ j => j.postId = locked.id && !j.dryRun)
  require locked.scope (if hasLiveHistory then .publish else .edit)
  ensureWholePost locked.scope locked.id
  update fun w => .ok (remove locked.id w)

end PostRepo

/-! ## Recurrences -/

/-- A recurrence to set on a post. -/
structure NewRecurrence where
  id : RecurrenceId
  rule : String
  timezone : String
  targets : List AccountId
  rewrite : Bool
  nextOccurrenceAt : Time
  confirmedVersion : ℤ

/-- The row of a new recurrence, confirmed by the actor. -/
def NewRecurrence.row (new : NewRecurrence) (actor : UserId) (dbNow : Time) : Recurrence where
  id := new.id
  rule := new.rule
  timezone := new.timezone
  rewrite := new.rewrite
  nextOccurrenceAt := some new.nextOccurrenceAt
  confirmedVersion := some new.confirmedVersion
  confirmedBy := some actor
  confirmedAt := some dbNow
  updatedBy := some actor

/-- Accounts without repetition, or `notFound` when one is outside the scope's limit. -/
def reachable (scope : OwnerScope) (accounts : List AccountId) :
    Except DataError (List AccountId) :=
  if accounts.any fun a => !scope.allowsAccount a then .error .notFound
  else .ok (accounts.dedup.insertionSort (· ≤ ·))

/-- Refuses a caller with an account limit when the recurrence, or the rest of the post, reaches
beyond it. -/
def ensureWithinLimit (locked : LockedPost) : Edit Unit := do
  refuseHidden locked.scope fun w => (w.parts locked.id).recurrence.any fun r =>
    r.targets.any fun a => !locked.scope.allowsAccount a
  ensureWholePost locked.scope locked.id

namespace RecurrenceRepo

/-- The post's recurrence, with its targets inside the caller's limit. -/
def load (locked : LockedPost) : Edit Recurrence := inspect fun w =>
  match (w.parts locked.id).recurrence with
  | some r => .ok { r with targets := r.targets.filter locked.scope.allowsAccount }
  | none => .error .notFound

/-- Gives the recurrence one target. -/
def target (locked : LockedPost) (account : AccountId) : Edit Unit :=
  onParts locked fun w parts =>
    if w.connected locked.scope.owner account then
      .ok { parts with
        recurrence := parts.recurrence.map fun r => { r with targets := r.targets ++ [account] } }
    else .error .notFound

/-- Sets the post's recurrence, replacing any earlier one. -/
def set (locked : LockedPost) (new : NewRecurrence) (dbNow : Time) : Edit Recurrence := do
  require locked.scope .publish
  let targets ← inspect fun _ => reachable locked.scope new.targets
  savepoint do
    ensureWithinLimit locked
    onParts locked fun _ parts => .ok { parts with recurrence := none }
    bumpVersion locked
    onParts locked fun w parts =>
      if w.posts.exists? fun _ p => p.recurrence.any (·.id = new.id) then
        .error (.conflict "recurrences_pkey")
      else .ok { parts with recurrence := some (new.row locked.scope.actor dbNow) }
    targets.forM (target locked)
    load locked

/-- Pauses the post's recurrence. -/
def pause (locked : LockedPost) (reason : PauseReason) : Edit Recurrence := do
  require locked.scope .publish
  ensureWithinLimit locked
  onParts locked fun _ parts =>
    match parts.recurrence with
    | some r =>
        if maxI32 ≤ r.version then .error .sql
        else .ok { parts with recurrence := some (r.pausedBy locked.scope.actor reason) }
    | none => .error .notFound
  load locked

/-- The recurrence resumed, confirmed by the actor. -/
def resumed (r : Recurrence) (actor : UserId) (nextOccurrenceAt : Time) (confirmedVersion : ℤ)
    (dbNow : Time) : Recurrence :=
  { r with
    paused := none, nextOccurrenceAt := some nextOccurrenceAt
    confirmedVersion := some confirmedVersion, confirmedBy := some actor
    confirmedAt := some dbNow, version := r.version + 1, updatedBy := some actor }

/-- Resumes a paused recurrence. -/
def resume (locked : LockedPost) (nextOccurrenceAt : Time) (confirmedVersion : ℤ) (dbNow : Time) :
    Edit Recurrence := do
  require locked.scope .publish
  savepoint do
    inspect fun w =>
      if (w.parts locked.id).recurrence.isSome then .ok () else .error DataError.notFound
    ensureWithinLimit locked
    bumpVersion locked
    onParts locked fun _ parts =>
      match parts.recurrence with
      | some r =>
          if maxI32 ≤ r.version then .error .sql
          else
            let r' := resumed r locked.scope.actor nextOccurrenceAt confirmedVersion dbNow
            .ok { parts with recurrence := some r' }
      | none => .ok parts
    load locked

/-- Deletes the post's recurrence. -/
def delete (locked : LockedPost) : Edit Unit := do
  require locked.scope .publish
  savepoint do
    ensureWithinLimit locked
    onParts locked fun _ parts =>
      if parts.recurrence.isSome then .ok { parts with recurrence := none } else .error .notFound
    bumpVersion locked

end RecurrenceRepo

/-- The recurrence of the owner with this ID, and its post. -/
def Workspace.recurrence? (w : Workspace) (owner : UserId) (id : RecurrenceId) :
    Option (PostId × Recurrence) := do
  let (post, parts) ← w.posts.find? fun post p =>
    p.recurrence.any (·.id = id) && (w.engine.posts.lookup post).any (·.ownerId = owner)
  let r ← parts.recurrence
  pure (post, r)

/-- Moves a recurrence on from the occurrence that was just handled; with nothing after it, it
ends. -/
def RecurrenceRepo.advance (id : RecurrenceId) (expectedNext : Time) (newNext : Option Time) :
    Edit Unit :=
  update fun w =>
    let waiting (r : Recurrence) : Bool :=
      r.id = id && r.paused.isNone && r.nextOccurrenceAt = some expectedNext
    let moved (r : Recurrence) : Recurrence :=
      let paused := if newNext.isNone then some .ended else none
      { r with nextOccurrenceAt := newNext, paused }
    let posts := w.posts.updateWhere (fun _ p => p.recurrence.any waiting) fun p =>
      { p with recurrence := p.recurrence.map moved }
    .ok { w with posts }

/-! ## Jobs -/

namespace JobRepo

/-- Creates a job for the locked post; its version is not bumped. -/
def create (locked : LockedPost) (scope : OwnerScope) (new : NewJob) (dbNow now : Time) :
    Edit (List Dispatch) := do
  require scope (if new.dryRun then .edit else .publish)
  refuse (new.targets.any fun t => !scope.allowsAccount t.account) .accountNotInScope
  engine (JobRepo.insert scope.owner (some scope.actor) locked.id locked.row new dbNow now)

/-- Counts an occurrence of the recurrence, and answers who confirmed it. -/
def countOccurrence (owner : UserId) (id : RecurrenceId) : Edit (Option UserId) := do
  let found ← inspect fun w =>
    match w.recurrence? owner id with
    | some found => .ok found
    | none => .error DataError.notFound
  update fun w =>
    if maxI32 ≤ found.2.occurrencesCreated then .error .sql
    else
      let counted := { found.2 with occurrencesCreated := found.2.occurrencesCreated + 1 }
      .ok (w.setParts found.1 { w.parts found.1 with recurrence := some counted })
  pure found.2.confirmedBy

/-- Who the job acts as: whoever confirmed the recurrence it is an occurrence of. -/
def actor (owner : UserId) : Option RecurrenceId → Edit (Option UserId)
  | some recurrence => countOccurrence owner recurrence
  | none => pure none

/-- Creates the job of a recurrence's occurrence, for the post, which it locks. -/
def createForOccurrence (owner : UserId) (post : PostId) (recurrence : Option RecurrenceId)
    (new : NewJob) (dbNow now : Time) : Edit (List Dispatch) :=
  savepoint do
    let row ← engine (Data.PostRepo.lockRow owner post none)
    let actor ← actor owner recurrence
    engine (JobRepo.insert owner actor post row new dbNow now)

end JobRepo

/-! ## What happens to the workspace -/

/-- A write through a `LockedPost`. -/
inductive EditOp
  | updateContent (content : PostContent)
  | setMedia (items : List PostMediaItem)
  | setTargets (accounts : List AccountId)
  | upsertOverride (account : AccountId) (patch options : Json)
  | deleteOverride (account : AccountId)
  | setRecurrence (new : NewRecurrence) (dbNow : Time)
  | pauseRecurrence (reason : PauseReason)
  | resumeRecurrence (nextOccurrenceAt : Time) (confirmedVersion : ℤ) (dbNow : Time)
  | deleteRecurrence
  | createJob (scope : OwnerScope) (new : NewJob) (dbNow now : Time)
  | deletePost

/-- The program a write is. -/
def EditOp.run (locked : LockedPost) : EditOp → Edit Unit
  | updateContent content => PostRepo.updateContent locked content
  | setMedia items => PostRepo.setMedia locked items
  | setTargets accounts => PostRepo.setTargets locked accounts
  | upsertOverride account patch options => PostRepo.upsertOverride locked account patch options
  | deleteOverride account => PostRepo.deleteOverride locked account
  | setRecurrence new dbNow => do
      let _ ← RecurrenceRepo.set locked new dbNow
      pure ()
  | pauseRecurrence reason => do
      let _ ← RecurrenceRepo.pause locked reason
      pure ()
  | resumeRecurrence nextOccurrenceAt confirmedVersion dbNow => do
      let _ ← RecurrenceRepo.resume locked nextOccurrenceAt confirmedVersion dbNow
      pure ()
  | deleteRecurrence => RecurrenceRepo.delete locked
  | createJob scope new dbNow now => do
      let _ ← JobRepo.create locked scope new dbNow now
      pure ()
  | deletePost => PostRepo.delete locked

/-- What a write did. -/
structure Entry where
  op : EditOp
  before : Workspace
  after : Workspace
  failure : Option DataError

/-- A write, done. -/
def EditOp.perform (locked : LockedPost) (op : EditOp) (w : Workspace) : Entry :=
  match op.run locked w with
  | .ok _ w' => ⟨op, w, w', none⟩
  | .error e w' => ⟨op, w, w', some e⟩

/-- Whether the write takes the token away. -/
def EditOp.takesToken : EditOp → Bool
  | deletePost => true
  | _ => false

/-- Writes through one token, in order, and the workspace after them.  A failed write ends nothing;
one that takes the token away is the last. -/
def LockedPost.perform (locked : LockedPost) : List EditOp → Workspace → List Entry × Workspace
  | [], w => ([], w)
  | op :: ops, w =>
      let e := op.perform locked w
      if op.takesToken then ([e], e.after)
      else
        let rest := locked.perform ops e.after
        (e :: rest.1, rest.2)

/-- Something that happened. -/
inductive EditEvent
  -- a transaction that locked a post and wrote through the token
  | session (locked : LockedPost) (entries : List Entry)
  -- a refused lock
  | refused (before after : Workspace)
  -- the tick made the job of an occurrence, or moved a recurrence on
  | occurrence
  | advanced
  -- a step of the engine
  | engine (e : Event)

/-- The engine's own edit of a post stands for the writes through a token. -/
def IsEdit : Event → Bool
  | .did (.editPost ..) _ => true
  | _ => false

/-- One step.  A session is one step, since the row lock it holds makes everything else that would
write the post, or make a job of it live, wait. -/
inductive EditStep (w : Workspace) : EditEvent → Workspace → Prop
  | session {scope : OwnerScope} {id : PostId} {expectedVersion : Option ℕ} {locked : LockedPost}
      {w₁ : Workspace} {ops : List EditOp}
      (held : PostRepo.lock scope id expectedVersion w = .ok locked w₁) :
      EditStep w (.session locked (locked.perform ops w₁).1) (locked.perform ops w₁).2
  | refused {scope : OwnerScope} {id : PostId} {expectedVersion : Option ℕ} {e : DataError}
      {w' : Workspace} (h : PostRepo.lock scope id expectedVersion w = .error e w') :
      EditStep w (.refused w w') w'
  | occurrence {owner : UserId} {post : PostId} {recurrence : Option RecurrenceId} {new : NewJob}
      {dbNow now : Time} {dispatches : List Dispatch} {w' : Workspace}
      (h : JobRepo.createForOccurrence owner post recurrence new dbNow now w = .ok dispatches w') :
      EditStep w .occurrence w'
  | advanced {id : RecurrenceId} {expectedNext : Time} {newNext : Option Time} {w' : Workspace}
      (h : RecurrenceRepo.advance id expectedNext newNext w = .ok () w') : EditStep w .advanced w'
  | engine {e : Event} {db' : Db} (h : OpStep w.engine e db') (others : IsEdit e = false) :
      EditStep w (.engine e) { w with engine := db' }

end Postit.Editing
