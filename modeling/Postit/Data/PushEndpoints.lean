import Postit.Data.Schema
import Postit.Framework.Strs
import Postit.Framework.Table
import Postit.Vault.Envelope

/-!
# Push endpoints

One row per device in `push_endpoints`, its URL and both keys sealed for the row, and the hash of
the URL to know the device by.  A row has its user and hash for itself.

Listing a user's devices is left out.
-/

namespace Postit.Push

open Postit.Framework
open Postit.Data (UserId)
open Postit.Sealing (SealContext Sealed)

abbrev PushEndpointId := Sealing.Uuid

/-- SHA-256 of an endpoint's URL. -/
abbrev EndpointHash := { bytes : Bytes // bytes.length = 32 }

/-- Which push service a device is reached through. -/
inductive PushPlatform
  | android
  | ios
  | web
  deriving DecidableEq, Repr

/-- A device to register. -/
structure NewPushEndpoint where
  /-- The row's ID, which the sealed values are bound to. -/
  id : PushEndpointId
  user : UserId
  endpoint : Sealed
  endpointHash : EndpointHash
  p256dh : Sealed
  auth : Sealed
  platform : PushPlatform
  deviceLabel : Str
  deriving DecidableEq

/-- A registered device. -/
structure PushEndpointRow where
  user : UserId
  endpoint : Sealed
  endpointHash : EndpointHash
  p256dh : Sealed
  auth : Sealed
  platform : PushPlatform
  deviceLabel : Option Str
  lastSuccessAt : Option Time
  createdAt : Time
  deriving DecidableEq

/-- What `push_endpoints` is unique over. -/
def PushEndpointRow.index (row : PushEndpointRow) : UserId × EndpointHash :=
  (row.user, row.endpointHash)

/-- `push_endpoints` -/
abbrev Devices := IndexedTable PushEndpointId PushEndpointRow PushEndpointRow.index

/-- What a statement on the table fails with. -/
inductive DataError
  | sql
  | conflict (text : String)
  deriving DecidableEq, Repr

namespace PushEndpointRepo

/-- Where a value of the row is sealed. -/
def sealContext (id : PushEndpointId) (column : String) : SealContext :=
  { table := "push_endpoints", column, row := id }

/-- The ID of the user's row for the hash. -/
def findId (db : Devices) (user : UserId) (hash : EndpointHash) : Option PushEndpointId :=
  (db.byIndex (user, hash)).map Prod.fst

/-- The columns a registration writes over. -/
def replaced (new : NewPushEndpoint) (row : PushEndpointRow) : PushEndpointRow :=
  { row with
    endpoint := new.endpoint
    p256dh := new.p256dh
    auth := new.auth
    platform := new.platform
    deviceLabel := some new.deviceLabel }

lemma index_replaced (new : NewPushEndpoint) (row : PushEndpointRow) :
    (replaced new row).index = row.index := rfl

/-- The row a registration adds. -/
def added (new : NewPushEndpoint) (now : Time) : PushEndpointRow :=
  { user := new.user
    endpoint := new.endpoint
    endpointHash := new.endpointHash
    p256dh := new.p256dh
    auth := new.auth
    platform := new.platform
    deviceLabel := some new.deviceLabel
    lastSuccessAt := none
    createdAt := now }

/-- Registers a device: the row with its user and hash is replaced, if its ID is the new one's; a
row is added if there is none. -/
def upsert (db : Devices) (new : NewPushEndpoint) (now : Time) :
    Except DataError (PushEndpointId × Devices) :=
  match db.byIndex (new.user, new.endpointHash) with
  | some (id, _) =>
    if id = new.id then
      .ok (id, db.updateWhere (fun k _ => k = id) (replaced new) (index_replaced new))
    else .error (.conflict "push_endpoint_id_mismatch")
  | none =>
    match db.insert? new.id (added new now) with
    | some db' => .ok (new.id, db')
    -- the primary key is taken
    | none => .error .sql

/-- Deletes the rows other users have for the hash. -/
def deleteForOtherUsers (db : Devices) (user : UserId) (hash : EndpointHash) : Devices :=
  db.deleteWhere fun _ row => row.endpointHash = hash ∧ row.user ≠ user

/-- Removes one of the user's devices, and tells whether there was one. -/
def delete (db : Devices) (user : UserId) (id : PushEndpointId) : Bool × Devices :=
  (db.rows.exists? fun k row => k = id ∧ row.user = user,
    db.deleteWhere fun k row => k = id ∧ row.user = user)

/-- Removes a device by ID alone. -/
def deleteById (db : Devices) (id : PushEndpointId) : Devices := db.erase id

/-- A device by ID alone. -/
def get (db : Devices) (id : PushEndpointId) : Option PushEndpointRow := db.lookup id

/-- A row that a push reached. -/
def succeeded (at_ : Time) (row : PushEndpointRow) : PushEndpointRow :=
  { row with lastSuccessAt := some at_ }

lemma index_succeeded (at_ : Time) (row : PushEndpointRow) :
    (succeeded at_ row).index = row.index := rfl

/-- Records that a push reached the device. -/
def markSuccess (db : Devices) (id : PushEndpointId) (at_ : Time) : Devices :=
  db.updateWhere (fun k _ => k = id) (succeeded at_) (index_succeeded at_)

end PushEndpointRepo

end Postit.Push
