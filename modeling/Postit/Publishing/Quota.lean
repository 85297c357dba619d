import Postit.Core.Json
import Postit.Core.Text
import Postit.Data.Statements
import Postit.Publishing.Outcome

/-!
# Quota

What each account, and each deployment, has used of a platform's buckets in a period.  Reserving
and giving back are single statements on one row; a publish charges every bucket its operation
costs something in, in one transaction, or none of them.  A limit of `0` is unlimited: it grants
everything and writes nothing.

Units are 64-bit integers, and an addition that leaves their range fails the statement.
-/

namespace Postit.Publishing

open Postit.Data Postit.Framework

/-! ## Rows -/

/-- One deployment-wide bucket in one period. -/
structure AppQuotaKey where
  platform : PlatformId
  bucket : String
  periodStart : Time
  deriving DecidableEq, Repr

/-- The key of a usage row: `platform_quota_usage_key`, or the primary key of
`platform_app_quota_usage`. -/
inductive UsageKey
  | account (account : AccountId) (platform : PlatformId) (bucket : String) (periodStart : Time)
  | app (platform : PlatformId) (bucket : String) (periodStart : Time)
  deriving DecidableEq, Repr

/-- The row an account's bucket is counted in.  An account has one owner, who is not part of it. -/
def accountRow (key : AccountQuotaKey) : UsageKey :=
  .account key.account key.platform key.bucket key.periodStart

/-- The row a deployment's bucket is counted in. -/
def appRow (key : AppQuotaKey) : UsageKey := .app key.platform key.bucket key.periodStart

/-- The units used, by row. -/
abbrev Usage := Table UsageKey ℤ

/-- The units used of a bucket, none when it has no row. -/
def Usage.used (u : Usage) (key : UsageKey) : ℤ := (u.lookup key).getD 0

/-! ## The statements -/

/-- Reserves units against a limit, all or none of them. -/
def reserveRow (key : UsageKey) (cost limit : ℤ) (u : Usage) : Except DataError (Bool × Usage) :=
  if limit = 0 ∨ cost ≤ 0 then .ok (true, u)
  else if limit < cost then .ok (false, u)
  else
    match u.lookup key with
    | none => .ok (true, u.insert key cost)
    | some used =>
      if maxI64 < used + cost then .error .sql
      else if used + cost ≤ limit then .ok (true, u.insert key (used + cost))
      else .ok (false, u)

/-- Gives units back, never taking the bucket below zero. -/
def releaseRow (key : UsageKey) (cost : ℤ) (u : Usage) : Usage :=
  match u.lookup key with
  | none => u
  | some used => u.insert key (max (used - max cost 0) 0)

namespace QuotaRepo

/-- Reserves units of an account's bucket. -/
def reserve (key : AccountQuotaKey) : ℤ → ℤ → Usage → Except DataError (Bool × Usage) :=
  reserveRow (accountRow key)

/-- Gives units of an account's bucket back. -/
def release (key : AccountQuotaKey) : ℤ → Usage → Usage := releaseRow (accountRow key)

/-- Reserves as many of the wanted units as the limit still allows, possibly none, and returns how
many. -/
def reserveUpTo (key : AccountQuotaKey) (want limit : ℤ) (u : Usage) : ℤ × Usage :=
  if limit = 0 ∨ want ≤ 0 then (max want 0, u)
  else
    -- the row is made first, so that there is one to lock
    let used := u.used (accountRow key)
    let granted := min want (max (limit - used) 0)
    (granted, u.insert (accountRow key) (used + granted))

end QuotaRepo

namespace PlatformAppQuotaRepo

/-- Reserves units of a deployment's bucket. -/
def reserve (key : AppQuotaKey) : ℤ → ℤ → Usage → Except DataError (Bool × Usage) :=
  reserveRow (appRow key)

/-- Gives units of a deployment's bucket back. -/
def release (key : AppQuotaKey) : ℤ → Usage → Usage := releaseRow (appRow key)

end PlatformAppQuotaRepo

/-! ## One publish -/

/-- What a delivery does that may cost quota. -/
inductive QuotaOp
  | publish
  | comment
  deriving DecidableEq, Repr

/-- What the operation costs in a bucket. -/
def QuotaCosts.of (costs : QuotaCosts) : QuotaOp → ℕ
  | .publish => costs.publish
  | .comment => costs.comment

/-- One reservation in one bucket, kept so that it can be given back. -/
inductive ReservedUnit
  | account (key : AccountQuotaKey) (cost : ℤ)
  | app (key : AppQuotaKey) (cost : ℤ)
  deriving DecidableEq, Repr

/-- The row and the units of a reservation. -/
def ReservedUnit.charge : ReservedUnit → UsageKey × ℤ
  | .account key cost => (accountRow key, cost)
  | .app key cost => (appRow key, cost)

/-- What `reserve` did. -/
inductive QuotaReservation
  | reserved (units : List ReservedUnit)
  | exhausted (retryAt : Time)

/-- The number a configured limit spells, when it is one. -/
def configuredLimit : Json → Option ℤ
  | .number n => n.asI64
  | .string s => parseI64 (trim s)
  | _ => none

/-- The deployment's override for the bucket, else its default.  An override that is not a whole
number of zero or more is ignored. -/
def limit (bucket : QuotaBucket) (config : Json) : ℤ :=
  let configured := ((config.get? "quota").bind fun quota => quota.get? bucket.id).bind
    configuredLimit
  (configured.filter fun limit => 0 ≤ limit).getD bucket.defaultLimit

section Reserve

variable (claimed : ClaimedDelivery) (descriptor : AgentDescriptor) (op : QuotaOp) (config : Json)
  (now : Time)

/-- The reservation a bucket's cost makes. -/
def bucketUnit (bucket : QuotaBucket) : ReservedUnit :=
  let cost : ℤ := bucket.costs.of op
  let periodStart := (bucket.period now).1
  match bucket.scope with
  | .account => .account
      { owner := claimed.ownerId
        account := claimed.accountId
        platform := descriptor.platform
        bucket := bucket.id
        periodStart := periodStart } cost
  | .app => .app
      { platform := descriptor.platform
        bucket := bucket.id
        periodStart := periodStart } cost

/-- Reserves what the bucket's cost needs. -/
def reserveUnit (limit : ℤ) (u : Usage) : ReservedUnit → Except DataError (Bool × Usage)
  | .account key cost => QuotaRepo.reserve key cost limit u
  | .app key cost => PlatformAppQuotaRepo.reserve key cost limit u

/-- What was charged so far, and when the last of the exhausted buckets has room again. -/
structure Charged where
  units : List ReservedUnit := []
  retryAt : Option Time := none
  usage : Usage

/-- Charges one bucket. -/
def chargeBucket (s : Charged) (bucket : QuotaBucket) : Except DataError Charged :=
  if bucket.costs.of op = 0 then .ok s
  else
    let unit := bucketUnit claimed descriptor op now bucket
    match reserveUnit (limit bucket config) s.usage unit with
    | .error e => .error e
    | .ok (false, usage) =>
      let next := (bucket.period now).2
      .ok { s with retryAt := some (s.retryAt.elim next fun at_ => max at_ next), usage := usage }
    | .ok (true, usage) =>
      -- an unlimited bucket writes no row, so there is nothing to give back
      if limit bucket config ≠ 0 then .ok { s with units := s.units ++ [unit], usage := usage }
      else .ok { s with usage := usage }

/-- Reserves one operation's cost in every bucket that charges it, or in none.  A dry run reserves
nothing. -/
def reserve (u : Usage) : Except DataError (QuotaReservation × Usage) :=
  if claimed.dryRun then .ok (.reserved [], u)
  else
    match descriptor.quotaBuckets.foldlM (chargeBucket claimed descriptor op config now)
        { usage := u } with
    | .error e => .error e
    | .ok s =>
      match s.retryAt with
      -- the transaction is rolled back
      | some retryAt => .ok (.exhausted retryAt, u)
      | none => .ok (.reserved s.units, s.usage)

end Reserve

/-- Gives back what `reserve` took. -/
def release (units : List ReservedUnit) (u : Usage) : Usage :=
  units.foldl (fun u unit =>
    match unit with
    | .account key cost => QuotaRepo.release key cost u
    | .app key cost => PlatformAppQuotaRepo.release key cost u) u

end Postit.Publishing
