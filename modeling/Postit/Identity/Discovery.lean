import Mathlib.Data.List.Basic
import Postit.Http.Errors

/-!
# The signing-key cache

The set of signing keys an issuer publishes, with the document that says where, fetched together
and kept.  A set that has grown old is fetched again, and so is one without the key a token asks
for, at most once a minute.  One guard is held around every fetch.

A call takes the cache's lock for one reading or one writing at a time, so between two of its steps
the other calls may do anything; and it may be dropped wherever it waits.  Moments are readings of
the monotone clock, in nanoseconds.
-/

namespace Postit.Identity.Discovery

open Postit.Http (HttpError)

/-- The subset of the discovery document that is read. -/
structure DiscoveryDocument where
  issuer : String
  jwksUri : String
  userinfoEndpoint : Option String := none
  endSessionEndpoint : Option String := none
  authorizationEndpoint : Option String := none
  tokenEndpoint : Option String := none
  deriving DecidableEq

/-- A signing key, with the ID it is published under. -/
structure Jwk (κ : Type) where
  keyId : Option String
  key : κ
  deriving DecidableEq

abbrev JwkSet (κ : Type) := List (Jwk κ)

variable {κ : Type}

def hasKid (jwks : JwkSet κ) (kid : String) : Bool := jwks.any fun k => k.keyId = some kid

def kidRefetchMinInterval : ℕ := 60 * 1000000000

def refreshRetryMinInterval : ℕ := 60 * 1000000000

/-- Whether there was no such moment, or it is as long ago as this. -/
def longAgo (now interval : ℕ) (moment : Option ℕ) : Bool :=
  moment.all fun t => interval ≤ now - t

structure CacheState (κ : Type) where
  jwks : Option (JwkSet κ) := none
  document : Option DiscoveryDocument := none
  fetchedAt : Option ℕ := none
  lastKidRefetch : Option ℕ := none
  /-- When a fetch last failed, if none has succeeded since. -/
  lastRefreshFailure : Option ℕ := none

namespace CacheState

def isStale (s : CacheState κ) (refreshInterval now : ℕ) : Bool :=
  longAgo now refreshInterval s.fetchedAt

/-- Whether a stale refresh may go ahead: always while nothing is cached. -/
def shouldRefresh (s : CacheState κ) (refreshInterval now : ℕ) : Bool :=
  if s.jwks.isNone then true
  else longAgo now refreshInterval s.fetchedAt && longAgo now refreshRetryMinInterval
    s.lastRefreshFailure

/-- Whether an unknown key may be refetched for.  It is stamped before the attempt. -/
def mayRefetch (s : CacheState κ) (now : ℕ) : Bool × CacheState κ :=
  let allowed := longAgo now kidRefetchMinInterval s.lastKidRefetch
  (allowed, if allowed then { s with lastKidRefetch := some now } else s)

/-- The end of a fetch that failed. -/
def refused (s : CacheState κ) (now : ℕ) : CacheState κ := { s with lastRefreshFailure := some now }

/-- The end of a fetch that succeeded. -/
def store (s : CacheState κ) (document : DiscoveryDocument) (jwks : JwkSet κ) (now : ℕ) :
    CacheState κ :=
  { s with
    jwks := some jwks
    document := some document
    fetchedAt := some now
    lastRefreshFailure := none }

def cachedJwks (s : CacheState κ) : Except HttpError (JwkSet κ) :=
  match s.jwks with
  | some jwks => .ok jwks
  | none => .error (.permanent "jwks not loaded")

end CacheState

/-! ## Calls -/

/-- A call, by what it does next or what it came to. -/
inductive Phase (κ : Type)
  | started
  /-- found the cache stale, waits for the guard -/
  | waiting
  /-- has the guard, and checks once more -/
  | admitted
  /-- has the guard, and asks the source -/
  | fetching
  /-- has the guard, and its fetch failed -/
  | failed (err : HttpError)
  /-- reads the cache -/
  | reading
  /-- got a set without its key -/
  | unknownKid
  /-- may refetch, waits for the guard -/
  | kidWaiting
  /-- has the guard, and asks the source for its key -/
  | kidFetching
  /-- reads the cache a last time -/
  | kidReading
  | returned (result : Except HttpError (JwkSet κ))
  | dropped

namespace Phase

/-- Whether a call has the guard. -/
def holds : Phase κ → Bool
  | .admitted | .fetching | .failed _ | .kidFetching => true
  | _ => false

/-- Whether a call is asking the source. -/
def asks : Phase κ → Bool
  | .fetching | .kidFetching => true
  | _ => false

/-- Whether a call asks the source because the set is stale, or nothing is cached. -/
def refreshes : Phase κ → Bool
  | .fetching => true
  | _ => false

/-- Whether a call waits for the guard, to refetch. -/
def refetches : Phase κ → Bool
  | .kidWaiting => true
  | _ => false

/-- Whether a call has come to its end. -/
def isOver : Phase κ → Bool
  | .returned _ | .dropped => true
  | _ => false

end Phase

/-- `jwks`, or with a key `jwks_for_kid`.  For the record: how many fetches had succeeded when it
began. -/
structure Call (κ : Type) where
  kid : Option String
  since : ℕ
  phase : Phase κ := .started

/-- What a call makes of what `jwks` returned to it. -/
def afterJwks (kid : Option String) : Except HttpError (JwkSet κ) → Phase κ
  | .error err => .returned (.error err)
  | .ok jwks => if kid.all (hasKid jwks) then .returned (.ok jwks) else .unknownKid

/-- What the calls share.  For the record: what the source served, how many refreshes of a cached
set were begun and how many of them dropped, and how many refetches were begun. -/
structure Shared (κ : Type) where
  now : ℕ
  cache : CacheState κ := {}
  flight : Option ℕ := none
  served : List (DiscoveryDocument × JwkSet κ) := []
  refreshes : ℕ := 0
  abandoned : ℕ := 0
  refetches : ℕ := 0

/-- The source served a set. -/
def Shared.store (s : Shared κ) (document : DiscoveryDocument) (jwks : JwkSet κ) : Shared κ :=
  { s with
    cache := s.cache.store document jwks s.now
    served := s.served ++ [(document, jwks)] }

/-- One step of the call of this number. -/
inductive Move (refreshInterval i : ℕ) (kid : Option String) (s : Shared κ) :
    Phase κ → Shared κ → Phase κ → Prop
  | check : Move refreshInterval i kid s .started s
      (if s.cache.isStale refreshInterval s.now then .waiting else .reading)
  | lock (h : s.flight = none) :
      Move refreshInterval i kid s .waiting { s with flight := some i } .admitted
  | refresh (h : s.cache.shouldRefresh refreshInterval s.now = true) :
      Move refreshInterval i kid s .admitted
        { s with refreshes := s.refreshes + s.cache.jwks.isSome.toNat } .fetching
  | settled (h : s.cache.shouldRefresh refreshInterval s.now = false) :
      Move refreshInterval i kid s .admitted { s with flight := none } .reading
  | fetched (document : DiscoveryDocument) (jwks : JwkSet κ) :
      Move refreshInterval i kid s .fetching { s.store document jwks with flight := none } .reading
  | refused (err : HttpError) :
      Move refreshInterval i kid s .fetching { s with cache := s.cache.refused s.now } (.failed err)
  /-- The stale set is returned, if there is one. -/
  | fallBack (err : HttpError) :
      Move refreshInterval i kid s (.failed err) { s with flight := none }
        (afterJwks kid (s.cache.cachedJwks.mapError fun _ => err))
  | read : Move refreshInterval i kid s .reading s (afterJwks kid s.cache.cachedJwks)
  | mayRefetch : Move refreshInterval i kid s .unknownKid
      { s with cache := (s.cache.mayRefetch s.now).2 }
      (if (s.cache.mayRefetch s.now).1 then .kidWaiting else .kidReading)
  | kidLock (h : s.flight = none) :
      Move refreshInterval i kid s .kidWaiting
        { s with flight := some i, refetches := s.refetches + 1 } .kidFetching
  | kidFetched (document : DiscoveryDocument) (jwks : JwkSet κ) :
      Move refreshInterval i kid s .kidFetching { s.store document jwks with flight := none }
        .kidReading
  | kidRefused (err : HttpError) :
      Move refreshInterval i kid s .kidFetching
        { s with cache := s.cache.refused s.now, flight := none } .kidReading
  | kidRead : Move refreshInterval i kid s .kidReading s (.returned s.cache.cachedJwks)
  /-- The guard goes with the call that has it. -/
  | drop {p : Phase κ} (h : p.isOver = false) :
      Move refreshInterval i kid s p
        { s with
          flight := if p.holds then none else s.flight
          abandoned := s.abandoned + p.refreshes.toNat } .dropped

structure World (κ : Type) where
  shared : Shared κ
  calls : List (Call κ) := []

/-- Before the first call. -/
def World.new (κ : Type) (now : ℕ) : World κ where
  shared := { now := now }

inductive CacheEvent
  | tick
  | call
  | move (i : ℕ)
  deriving DecidableEq

inductive World.Step (refreshInterval : ℕ) (w : World κ) : CacheEvent → World κ → Prop
  | tick (d : ℕ) : Step refreshInterval w .tick
      { w with shared := { w.shared with now := w.shared.now + d } }
  | call (kid : Option String) : Step refreshInterval w .call
      { w with calls := w.calls ++ [{ kid := kid, since := w.shared.served.length }] }
  | move {i : ℕ} {c : Call κ} {s : Shared κ} {p : Phase κ} (hi : w.calls[i]? = some c)
      (h : Move refreshInterval i c.kid w.shared c.phase s p) :
      Step refreshInterval w (.move i)
        { shared := s, calls := w.calls.set i { c with phase := p } }

end Postit.Identity.Discovery
