import Postit.Core.Delivery

/-!
# What a platform answers

The results of calls into a platform's agent, and how the engine reacts to a failed one
(`AgentError.retryClass`).  Texts the platform sends are left out: nothing is decided by them.
-/

namespace Postit

/-- How the engine reacts to a failed call. -/
inductive RetryClass
  | retryable
  | retryAfter (after : Time)
  | permanent
  | needsReconnect
  | quotaExceeded
  | ambiguous
  | cancelled
  deriving DecidableEq, Repr

/-- The class's name as `last_error` stores it. -/
def RetryClass.asStr : RetryClass → String
  | .retryable => "retryable"
  | .retryAfter _ => "retry_after"
  | .permanent => "permanent"
  | .needsReconnect => "needs_reconnect"
  | .quotaExceeded => "quota_exceeded"
  | .ambiguous => "ambiguous"
  | .cancelled => "cancelled"

/-- A failure from an agent call, less its text. -/
inductive AgentError
  | authentication
  | accountUnreachable
  | authorization
  | invalidCredentials
  | validation
  | rateLimited (retryAfter : Option Time)
  | quota (bucket : String) (resetsAt : Option Time)
  | transport
  | unsupported
  | remote (status : Option ℕ)
  -- the call may have changed the platform: reconcile, never retry blindly
  | outcomeUnknown
  -- stopped at a safe checkpoint, where the platform has not changed
  | cancelled
  deriving DecidableEq, Repr

namespace AgentError

/-- The error's stable code. -/
def code : AgentError → String
  | authentication => "authentication"
  | accountUnreachable => "account_unreachable"
  | authorization => "authorization"
  | invalidCredentials => "invalid_credentials"
  | validation => "validation"
  | rateLimited _ => "rate_limited"
  | quota .. => "quota"
  | transport => "transport"
  | unsupported => "unsupported"
  | remote _ => "remote"
  | outcomeUnknown => "outcome_unknown"
  | cancelled => "cancelled"

/-- How the engine should treat the error. -/
def retryClass : AgentError → RetryClass
  | authentication | accountUnreachable => .needsReconnect
  | authorization | invalidCredentials | validation | unsupported => .permanent
  | rateLimited (some after) => .retryAfter after
  | rateLimited none | transport => .retryable
  | quota .. => .quotaExceeded
  | remote none => .retryable
  | remote (some status) =>
      if status = 501 ∨ status = 505 then .permanent
      else if status = 429 ∨ 500 ≤ status then .retryable
      else .permanent
  | outcomeUnknown => .ambiguous
  | cancelled => .cancelled

end AgentError

/-- What the platform gave for a post. -/
structure PublishReceipt where
  remoteId : Option String := none
  remoteUrl : Option String := none
  remotePublishAt : Option Time := none
  deriving DecidableEq, Repr

/-- What a publish call achieved. -/
inductive PublishOutcome
  | published (receipt : PublishReceipt)
  -- the platform accepted the post and is still processing it
  | processing (receipt : PublishReceipt)
  | simulated
  deriving DecidableEq, Repr

/-- What reconciling an ambiguous delivery found. -/
inductive ReconcileOutcome
  | found (receipt : PublishReceipt)
  | absent
  | unresolvable
  deriving DecidableEq, Repr

/-- What happened to one recipient of a batch. -/
inductive DirectSendOutcome
  | sent (remoteId : Option String)
  | bounced (permanent : Bool) (reason : String)
  | failed (retryable : Bool) (reason : String)
  deriving DecidableEq, Repr

end Postit
