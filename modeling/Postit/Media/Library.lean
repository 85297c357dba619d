import Postit.Framework.Totals
import Postit.Framework.Trace
import Postit.Media.Service

/-!
# An owner's media

All the assets of one owner, and the reservations of storage for new ones.  A reservation holds the
lock on the owner's row of `user_limits` from the time it reads what is stored until its row is
there, so there is one at a time; everything else that happens to the assets may happen in between.
An owner with no row of limits has no quota, as with a quota of 0.
-/

namespace Postit.Uploads

open Postit.Framework

abbrev MediaAssetId := ℕ

variable {δ : Type}

/-- What the row counts for in the owner's storage: its bytes, or the declared size while the upload
is open. -/
def Media.storedBytes (m : Media δ) : ℕ :=
  match m.status with
  | .ready => m.bytes
  | .processing => m.bytes
  | .uploading => m.declaredBytes.getD 0
  | .failed => 0

/-- What the asset counts for: nothing once its row is deleted. -/
def Asset.storedBytes (s : Asset δ) : ℕ := (s.row.map Media.storedBytes).getD 0

/-- What the action was told of the owner's storage, when it opens an asset: the size it declares,
the quota, and what is stored. -/
structure Reserves where
  size : ℕ
  quota : ℕ
  used : ℕ

def Action.reserves : Action → Option Reserves
  | .startSession _ size quota used _ | .upload _ size quota used _ _ => some ⟨size, quota, used⟩
  | _ => none

/-- A reservation that holds the lock: the quota, and what it found stored. -/
structure Reservation where
  quota : ℕ
  used : ℕ

structure Library (δ : Type) where
  assets : Table MediaAssetId (Asset δ) := ∅
  reserving : Option Reservation := none

/-- The bytes the owner has stored. -/
def Library.storedBytes (s : Library δ) : ℕ := s.assets.total Asset.storedBytes

/-- What happens to an owner's media. -/
inductive LibraryEvent
  /-- a reservation locks the limits, which have this quota, and reads what is stored -/
  | lock (quota : ℕ)
  /-- its row is inserted, under a new id -/
  | reserve (id : MediaAssetId) (a : Action)
  /-- it is refused or fails -/
  | release
  /-- anything else, to one asset -/
  | act (id : MediaAssetId) (a : Action)

/-- One step.  The sum of what is stored is read as a 64-bit integer, and not at all without a
quota. -/
inductive Library.Step (sha256 : Bytes → δ) (settings : MediaSettings) :
    Library δ → LibraryEvent → Library δ → Prop
  | lock {s : Library δ} {quota : ℕ} (hfree : s.reserving = none)
      (hsum : 0 < quota → s.storedBytes ≤ maxBigint) :
    Step sha256 settings s (.lock quota) { s with reserving := some ⟨quota, s.storedBytes⟩ }
  | reserve {s : Library δ} {id : MediaAssetId} {a : Action} {r : Reservation} {size : ℕ}
      {asset : Asset δ} (hlock : s.reserving = some r) (hnew : s.assets.lookup id = none)
      (hreserves : a.reserves = some ⟨size, r.quota, r.used⟩)
      (hasset : Asset.perform sha256 settings {} a = .ok asset) :
    Step sha256 settings s (.reserve id a)
      { assets := s.assets.insert id asset, reserving := none }
  | release {s : Library δ} : Step sha256 settings s .release { s with reserving := none }
  | act {s : Library δ} {id : MediaAssetId} {a : Action} {asset asset' : Asset δ}
      (hid : s.assets.lookup id = some asset) (hother : a.reserves = none)
      (hasset : asset.perform sha256 settings a = .ok asset') :
    Step sha256 settings s (.act id a) { s with assets := s.assets.insert id asset' }

end Postit.Uploads
