import Mathlib.Algebra.BigOperators.Group.List.Basic
import Mathlib.Algebra.Ring.Int.Defs
import Mathlib.Data.List.Infix
import Postit.Framework.Trace
import Postit.Publishing.Quota

/-!
# Quota accounting

A bucket's counter is a ledger: the units granted less the units given back, never below zero and
never above the limit.  It is read off runs of the calls, each of which moves units
(`Movement`), by what one call does to one counter.
-/

namespace Postit.Publishing

open Postit.Data Postit.Framework

/-! ## What one statement does to a counter -/

@[simp] lemma Usage.used_empty (key : UsageKey) : Usage.used ∅ key = 0 := by
  simp [Usage.used]

lemma Usage.used_insert (u : Usage) (key k : UsageKey) (n : ℤ) :
    Usage.used (u.insert key n) k = if k = key then n else u.used k := by
  unfold Usage.used
  by_cases hk : k = key
  · subst hk
    simp
  · simp [hk, AList.lookup_insert_ne hk]

/-- No counter is below zero. -/
def Usage.Nonneg (u : Usage) : Prop := ∀ key, 0 ≤ u.used key

/-- Reserving is all or nothing: it counts the whole cost when there is room, and nothing
otherwise. -/
lemma reserveRow_ok {key : UsageKey} {cost limit : ℤ} {u u' : Usage} {granted : Bool}
    (hu : u.Nonneg) (h : reserveRow key cost limit u = .ok (granted, u')) :
    (granted = true ↔ limit = 0 ∨ cost ≤ 0 ∨ u.used key + cost ≤ limit) ∧
      ∀ k, u'.used k = if granted = true ∧ limit ≠ 0 ∧ k = key then u.used k + max cost 0
        else u.used k := by
  have hnonneg := hu key
  unfold reserveRow at h
  by_cases hfree : limit = 0 ∨ cost ≤ 0
  · rw [if_pos hfree, Except.ok.injEq, Prod.mk.injEq] at h
    obtain ⟨rfl, rfl⟩ := h
    refine ⟨by tauto, fun k => ?_⟩
    split
    · have hcost : max cost 0 = 0 := by
        rcases hfree with hlimit | hcost
        · simp_all
        · omega
      omega
    · rfl
  rw [if_neg hfree] at h
  obtain ⟨hlimit, hcost⟩ := not_or.mp hfree
  by_cases hover : limit < cost
  · rw [if_pos hover, Except.ok.injEq, Prod.mk.injEq] at h
    obtain ⟨rfl, rfl⟩ := h
    refine ⟨?_, fun k => by simp⟩
    simp only [Bool.false_eq_true, false_iff]
    omega
  rw [if_neg hover] at h
  cases hrow : u.lookup key with
  | none =>
    simp only [hrow, Except.ok.injEq, Prod.mk.injEq] at h
    obtain ⟨rfl, rfl⟩ := h
    have hused : u.used key = 0 := by simp [Usage.used, hrow]
    refine ⟨by simp only [true_iff]; omega, fun k => ?_⟩
    rw [Usage.used_insert]
    by_cases hk : k = key
    · rw [if_pos hk, if_pos ⟨rfl, hlimit, hk⟩, hk]
      omega
    · rw [if_neg hk, if_neg fun hall => hk hall.2.2]
  | some used =>
    have hused : u.used key = used := by simp [Usage.used, hrow]
    simp only [hrow] at h
    by_cases hrange : maxI64 < used + cost
    · rw [if_pos hrange] at h
      cases h
    rw [if_neg hrange] at h
    by_cases hroom : used + cost ≤ limit
    · rw [if_pos hroom, Except.ok.injEq, Prod.mk.injEq] at h
      obtain ⟨rfl, rfl⟩ := h
      refine ⟨by simp only [true_iff]; omega, fun k => ?_⟩
      rw [Usage.used_insert]
      by_cases hk : k = key
      · rw [if_pos hk, if_pos ⟨rfl, hlimit, hk⟩, hk]
        omega
      · rw [if_neg hk, if_neg fun hall => hk hall.2.2]
    · rw [if_neg hroom, Except.ok.injEq, Prod.mk.injEq] at h
      obtain ⟨rfl, rfl⟩ := h
      refine ⟨?_, fun k => by simp⟩
      simp only [Bool.false_eq_true, false_iff]
      omega

lemma used_releaseRow {u : Usage} (hu : u.Nonneg) (key : UsageKey) (cost : ℤ) (k : UsageKey) :
    (releaseRow key cost u).used k =
      if k = key then max (u.used k - max cost 0) 0 else u.used k := by
  have hnonneg := hu key
  cases hrow : u.lookup key with
  | none =>
    have hused : u.used key = 0 := by simp [Usage.used, hrow]
    have hrelease : releaseRow key cost u = u := by simp only [releaseRow, hrow]
    rw [hrelease]
    by_cases hk : k = key
    · rw [if_pos hk, hk]
      omega
    · rw [if_neg hk]
  | some used =>
    have hused : u.used key = used := by simp [Usage.used, hrow]
    have hrelease : releaseRow key cost u = u.insert key (max (used - max cost 0) 0) := by
      simp only [releaseRow, hrow]
    rw [hrelease, Usage.used_insert]
    by_cases hk : k = key
    · rw [if_pos hk, if_pos hk, hk, hused]
    · rw [if_neg hk, if_neg hk]

/-- What is left of a limit. -/
def remaining (limit used : ℤ) : ℤ := max (limit - used) 0

/-- Reserving up to a limit grants what is wanted, or what is left. -/
lemma reserveUpTo_eq (key : AccountQuotaKey) (want : ℤ) (u : Usage) {limit : ℤ}
    (hlimit : limit ≠ 0) :
    (QuotaRepo.reserveUpTo key want limit u).1 =
        min (max want 0) (remaining limit (u.used (accountRow key))) ∧
      ∀ k, (QuotaRepo.reserveUpTo key want limit u).2.used k =
        if k = accountRow key then u.used k + (QuotaRepo.reserveUpTo key want limit u).1
        else u.used k := by
  unfold remaining
  by_cases hwant : want ≤ 0
  · rw [QuotaRepo.reserveUpTo, if_pos (.inr hwant)]
    refine ⟨by dsimp only; omega, fun k => ?_⟩
    dsimp only
    split
    · omega
    · rfl
  · rw [QuotaRepo.reserveUpTo, if_neg (not_or.mpr ⟨hlimit, hwant⟩)]
    refine ⟨by dsimp only; omega, fun k => ?_⟩
    dsimp only
    rw [Usage.used_insert]
    by_cases hk : k = accountRow key
    · rw [if_pos hk, if_pos hk, hk]
    · rw [if_neg hk, if_neg hk]

lemma reserveUpTo_unlimited (key : AccountQuotaKey) (want : ℤ) (u : Usage) :
    QuotaRepo.reserveUpTo key want 0 u = (max want 0, u) := by
  rw [QuotaRepo.reserveUpTo, if_pos (.inl rfl)]

/-! ## Units moved -/

/-- The units of a bucket in a list of charges. -/
def unitsOf (charges : List (UsageKey × ℤ)) (key : UsageKey) : ℤ :=
  (charges.map fun charge => if charge.1 = key then max charge.2 0 else 0).sum

@[simp] lemma unitsOf_nil (key : UsageKey) : unitsOf [] key = 0 := rfl

@[simp] lemma unitsOf_cons (charge : UsageKey × ℤ) (charges : List (UsageKey × ℤ))
    (key : UsageKey) : unitsOf (charge :: charges) key =
      (if charge.1 = key then max charge.2 0 else 0) + unitsOf charges key := by
  simp [unitsOf]

@[simp] lemma unitsOf_append (charges more : List (UsageKey × ℤ)) (key : UsageKey) :
    unitsOf (charges ++ more) key = unitsOf charges key + unitsOf more key := by
  simp [unitsOf]

lemma unitsOf_nonneg (charges : List (UsageKey × ℤ)) (key : UsageKey) : 0 ≤ unitsOf charges key := by
  induction charges with
  | nil => simp
  | cons charge charges ih =>
    rw [unitsOf_cons]
    split <;> omega

/-- What a call granted and what it gave back. -/
structure Movement where
  granted : List (UsageKey × ℤ) := []
  released : List (UsageKey × ℤ) := []

/-- The units of a bucket the calls granted. -/
def grantedUnits (moves : List Movement) (key : UsageKey) : ℤ :=
  unitsOf (moves.flatMap Movement.granted) key

/-- The units of a bucket the calls gave back. -/
def releasedUnits (moves : List Movement) (key : UsageKey) : ℤ :=
  unitsOf (moves.flatMap Movement.released) key

/-- At no time has more of a bucket been given back than was granted of it. -/
def Fair (moves : List Movement) : Prop :=
  ∀ done, done <+: moves → ∀ key, releasedUnits done key ≤ grantedUnits done key

/-! ## Publishing -/

/-- The units a publish holds. -/
def QuotaReservation.units : QuotaReservation → List ReservedUnit
  | .reserved units => units
  | .exhausted _ => []

@[simp] lemma bucketUnit_cost (claimed : ClaimedDelivery) (descriptor : AgentDescriptor)
    (op : QuotaOp) (now : Time) (bucket : QuotaBucket) :
    (bucketUnit claimed descriptor op now bucket).charge.2 = bucket.costs.of op := by
  unfold bucketUnit
  cases bucket.scope <;> rfl

lemma reserveUnit_eq (limit : ℤ) (u : Usage) (unit : ReservedUnit) :
    reserveUnit limit u unit = reserveRow unit.charge.1 unit.charge.2 limit u := by
  cases unit <;> rfl

lemma release_cons (unit : ReservedUnit) (taken : List ReservedUnit) (u : Usage) :
    release (unit :: taken) u = release taken (releaseRow unit.charge.1 unit.charge.2 u) := by
  cases unit <;> rfl

lemma Usage.Nonneg.releaseRow {u : Usage} (hu : u.Nonneg) (key : UsageKey) (cost : ℤ) :
    Usage.Nonneg (releaseRow key cost u) := by
  intro k
  have := hu k
  rw [used_releaseRow hu]
  split <;> omega

lemma Usage.Nonneg.release {u : Usage} (hu : u.Nonneg) (taken : List ReservedUnit) :
    Usage.Nonneg (release taken u) := by
  induction taken generalizing u with
  | nil => exact hu
  | cons unit taken ih =>
    rw [release_cons]
    exact ih (hu.releaseRow _ _)

/-- Giving back units of a bucket that were counted takes exactly them off. -/
lemma used_release {taken : List ReservedUnit} {u : Usage} (hu : u.Nonneg) {key : UsageKey}
    (hcounted : unitsOf (taken.map ReservedUnit.charge) key ≤ u.used key) :
    (release taken u).used key = u.used key - unitsOf (taken.map ReservedUnit.charge) key := by
  induction taken generalizing u with
  | nil => simp [release]
  | cons unit taken ih =>
    have hrest := unitsOf_nonneg (taken.map ReservedUnit.charge) key
    rw [List.map_cons, unitsOf_cons] at hcounted
    have hused : (releaseRow unit.charge.1 unit.charge.2 u).used key =
        u.used key - if unit.charge.1 = key then max unit.charge.2 0 else 0 := by
      rw [used_releaseRow hu]
      by_cases h : key = unit.charge.1
      · rw [if_pos h.symm] at hcounted ⊢
        rw [if_pos h]
        omega
      · rw [if_neg h, if_neg (Ne.symm h)]
        omega
    rw [release_cons, ih (hu.releaseRow _ _) (by omega), hused, List.map_cons, unitsOf_cons]
    omega

/-- A loop over buckets has counted, in every bucket, the units it holds. -/
def Charged.Counted (s : Charged) (u : Usage) : Prop :=
  s.usage.Nonneg ∧
    ∀ key, s.usage.used key = u.used key + unitsOf (s.units.map ReservedUnit.charge) key

section Reserve

variable {claimed : ClaimedDelivery} {descriptor : AgentDescriptor} {op : QuotaOp} {config : Json}
  {now : Time}

lemma chargeBucket_counted {s s' : Charged} {bucket : QuotaBucket} {u : Usage}
    (h : chargeBucket claimed descriptor op config now s bucket = .ok s') (hs : s.Counted u) :
    s'.Counted u ∧ ∀ key, s'.usage.used key = s.usage.used key ∨
      (key = (bucketUnit claimed descriptor op now bucket).charge.1 ∧
        s'.usage.used key ≤ limit bucket config) := by
  obtain ⟨hnonneg, hcounted⟩ := hs
  unfold chargeBucket at h
  by_cases hcost : bucket.costs.of op = 0
  · rw [if_pos hcost, Except.ok.injEq] at h
    subst h
    exact ⟨⟨hnonneg, hcounted⟩, fun key => .inl rfl⟩
  rw [if_neg hcost] at h
  dsimp only at h
  set unit := bucketUnit claimed descriptor op now bucket with hunit
  have hprice : 0 < unit.charge.2 := by
    rw [hunit, bucketUnit_cost]
    omega
  rw [reserveUnit_eq] at h
  rcases hrow : reserveRow unit.charge.1 unit.charge.2 (limit bucket config) s.usage with
    e | ⟨granted, usage⟩
  · simp only [hrow] at h
    cases h
  obtain ⟨hgranted, hused⟩ := reserveRow_ok hnonneg hrow
  have hnext : usage.Nonneg := fun key => by
    have := hnonneg key
    rw [hused]
    split <;> omega
  cases granted with
  | false =>
    simp only [hrow, Except.ok.injEq] at h
    subst h
    have hsame : ∀ key, usage.used key = s.usage.used key := fun key => by simp [hused key]
    exact ⟨⟨hnext, fun key => (hsame key).trans (hcounted key)⟩, fun key => .inl (hsame key)⟩
  | true =>
    by_cases hlimit : limit bucket config = 0
    · simp only [hrow] at h
      rw [if_neg (not_not.mpr hlimit), Except.ok.injEq] at h
      subst h
      have hsame : ∀ key, usage.used key = s.usage.used key := fun key => by
        simp [hused key, hlimit]
      exact ⟨⟨hnext, fun key => (hsame key).trans (hcounted key)⟩, fun key => .inl (hsame key)⟩
    · simp only [hrow] at h
      rw [if_pos hlimit, Except.ok.injEq] at h
      subst h
      refine ⟨⟨hnext, fun key => ?_⟩, fun key => ?_⟩
      · have hkey := hcounted key
        simp only [List.map_append, List.map_cons, List.map_nil, unitsOf_append, unitsOf_cons,
          unitsOf_nil]
        rw [hused]
        by_cases h : key = unit.charge.1
        · rw [if_pos ⟨rfl, hlimit, h⟩, if_pos h.symm]
          omega
        · rw [if_neg fun hall => h hall.2.2, if_neg (Ne.symm h)]
          omega
      · by_cases h : key = unit.charge.1
        · have hroom := hgranted.mp rfl
          refine .inr ⟨h, ?_⟩
          show usage.used key ≤ _
          rw [hused, if_pos ⟨rfl, hlimit, h⟩, h]
          omega
        · refine .inl ?_
          show usage.used key = _
          rw [hused, if_neg fun hall => h hall.2.2]

lemma foldlM_chargeBucket {buckets : List QuotaBucket} {s s' : Charged} {u : Usage}
    (h : buckets.foldlM (chargeBucket claimed descriptor op config now) s = .ok s')
    (hs : s.Counted u) :
    s'.Counted u ∧ ∀ key, s'.usage.used key = s.usage.used key ∨
      ∃ bucket ∈ buckets, key = (bucketUnit claimed descriptor op now bucket).charge.1 ∧
        s'.usage.used key ≤ limit bucket config := by
  induction buckets generalizing s with
  | nil =>
    rw [List.foldlM_nil] at h
    cases h
    exact ⟨hs, fun key => .inl rfl⟩
  | cons bucket buckets ih =>
    rw [List.foldlM_cons] at h
    cases hbucket : chargeBucket claimed descriptor op config now s bucket with
    | error e =>
      rw [hbucket] at h
      cases h
    | ok mid =>
      rw [hbucket] at h
      obtain ⟨hmid, hone⟩ := chargeBucket_counted hbucket hs
      obtain ⟨hend, hrest⟩ := ih h hmid
      refine ⟨hend, fun key => ?_⟩
      rcases hrest key with hsame | ⟨b, hb, hkey, hle⟩
      · rcases hone key with hsame' | ⟨hkey, hle⟩
        · exact .inl (hsame.trans hsame')
        · exact .inr ⟨bucket, List.mem_cons_self, hkey, hsame.le.trans hle⟩
      · exact .inr ⟨b, List.mem_cons_of_mem _ hb, hkey, hle⟩

/-- Charging the buckets is all or nothing: the counters are as they were when one refuses, and
otherwise each has grown by the units held on it. -/
lemma reserve_ok {u u' : Usage} {result : QuotaReservation} (hu : u.Nonneg)
    (h : reserve claimed descriptor op config now u = .ok (result, u')) :
    (∀ retryAt, result = .exhausted retryAt → u' = u) ∧ u'.Nonneg ∧
      (∀ key, u'.used key = u.used key + unitsOf (result.units.map ReservedUnit.charge) key) ∧
      ∀ key, u'.used key = u.used key ∨ ∃ bucket ∈ descriptor.quotaBuckets,
        key = (bucketUnit claimed descriptor op now bucket).charge.1 ∧
          u'.used key ≤ limit bucket config := by
  unfold reserve at h
  by_cases hdry : claimed.dryRun
  · rw [if_pos hdry, Except.ok.injEq, Prod.mk.injEq] at h
    obtain ⟨rfl, rfl⟩ := h
    exact ⟨nofun, hu, fun key => by simp [QuotaReservation.units], fun key => .inl rfl⟩
  rw [if_neg hdry] at h
  cases hloop : descriptor.quotaBuckets.foldlM (chargeBucket claimed descriptor op config now)
      { usage := u } with
  | error e =>
    simp only [hloop] at h
    cases h
  | ok s =>
    obtain ⟨⟨hnonneg, hcounted⟩, hwithin⟩ := foldlM_chargeBucket hloop
      (u := u) ⟨hu, fun key => by simp⟩
    cases hretry : s.retryAt with
    | some retryAt =>
      simp only [hloop, hretry, Except.ok.injEq, Prod.mk.injEq] at h
      obtain ⟨rfl, rfl⟩ := h
      exact ⟨fun _ _ => rfl, hu, fun key => by simp [QuotaReservation.units], fun key => .inl rfl⟩
    | none =>
      simp only [hloop, hretry, Except.ok.injEq, Prod.mk.injEq] at h
      obtain ⟨rfl, rfl⟩ := h
      exact ⟨nofun, hnonneg, hcounted, hwithin⟩

end Reserve

/-! ## Runs -/

/-- One call, under the limits of the buckets, and the units it moved. -/
inductive QuotaStep (limits : UsageKey → ℤ) (u : Usage) : Movement → Usage → Prop
  | reserveAccount {key : AccountQuotaKey} {cost : ℤ} {granted : Bool} {u' : Usage}
      (h : QuotaRepo.reserve key cost (limits (accountRow key)) u = .ok (granted, u')) :
      QuotaStep limits u { granted := if granted then [(accountRow key, cost)] else [] } u'
  | reserveApp {key : AppQuotaKey} {cost : ℤ} {granted : Bool} {u' : Usage}
      (h : PlatformAppQuotaRepo.reserve key cost (limits (appRow key)) u = .ok (granted, u')) :
      QuotaStep limits u { granted := if granted then [(appRow key, cost)] else [] } u'
  | reserveUpTo (key : AccountQuotaKey) (want : ℤ) :
      QuotaStep limits u
        { granted := [(accountRow key,
            (QuotaRepo.reserveUpTo key want (limits (accountRow key)) u).1)] }
        (QuotaRepo.reserveUpTo key want (limits (accountRow key)) u).2
  | releaseAccount (key : AccountQuotaKey) (cost : ℤ) :
      QuotaStep limits u { released := [(accountRow key, cost)] } (QuotaRepo.release key cost u)
  | releaseApp (key : AppQuotaKey) (cost : ℤ) :
      QuotaStep limits u { released := [(appRow key, cost)] }
        (PlatformAppQuotaRepo.release key cost u)
  | publish {claimed : ClaimedDelivery} {descriptor : AgentDescriptor} {op : QuotaOp}
      {config : Json} {now : Time} {result : QuotaReservation} {u' : Usage}
      (hlimits : ∀ bucket ∈ descriptor.quotaBuckets,
        limits (bucketUnit claimed descriptor op now bucket).charge.1 = limit bucket config)
      (h : reserve claimed descriptor op config now u = .ok (result, u')) :
      QuotaStep limits u { granted := result.units.map ReservedUnit.charge } u'
  | giveBack (taken : List ReservedUnit) :
      QuotaStep limits u { released := taken.map ReservedUnit.charge } (release taken u)

/-- The counter of a limited bucket: the units granted less those given back, within the limit. -/
def Balanced (limits : UsageKey → ℤ) (moves : List Movement) (u : Usage) : Prop :=
  u.Nonneg ∧ ∀ key, limits key ≠ 0 →
    u.used key = grantedUnits moves key - releasedUnits moves key ∧ u.used key ≤ max (limits key) 0

section Steps

variable {limits : UsageKey → ℤ} {moves : List Movement} {u u' : Usage}

lemma grantedUnits_snoc (moves : List Movement) (m : Movement) (key : UsageKey) :
    grantedUnits (moves ++ [m]) key = grantedUnits moves key + unitsOf m.granted key := by
  simp [grantedUnits]

lemma releasedUnits_snoc (moves : List Movement) (m : Movement) (key : UsageKey) :
    releasedUnits (moves ++ [m]) key = releasedUnits moves key + unitsOf m.released key := by
  simp [releasedUnits]

/-- A call that only grants keeps the balance when it counts what it grants, within the limit. -/
lemma Balanced.granted (h : Balanced limits moves u) {charges : List (UsageKey × ℤ)}
    (hnonneg : u'.Nonneg) (hused : ∀ key, limits key ≠ 0 →
      u'.used key = u.used key + unitsOf charges key ∧
        (u'.used key = u.used key ∨ u'.used key ≤ max (limits key) 0)) :
    Balanced limits (moves ++ [{ granted := charges }]) u' := by
  refine ⟨hnonneg, fun key hkey => ?_⟩
  obtain ⟨heq, hle⟩ := h.2 key hkey
  obtain ⟨hgrown, hwithin⟩ := hused key hkey
  rw [grantedUnits_snoc, releasedUnits_snoc, unitsOf_nil]
  refine ⟨by dsimp only; omega, ?_⟩
  rcases hwithin with hsame | hwithin <;> omega

/-- A call that only gives back keeps the balance when it takes off what it gives back. -/
lemma Balanced.released (h : Balanced limits moves u) {charges : List (UsageKey × ℤ)}
    (hnonneg : u'.Nonneg)
    (hused : ∀ key, limits key ≠ 0 → u'.used key = u.used key - unitsOf charges key) :
    Balanced limits (moves ++ [{ released := charges }]) u' := by
  refine ⟨hnonneg, fun key hkey => ?_⟩
  obtain ⟨heq, hle⟩ := h.2 key hkey
  have hfewer := hused key hkey
  have hcharges := unitsOf_nonneg charges key
  rw [grantedUnits_snoc, releasedUnits_snoc, unitsOf_nil]
  exact ⟨by dsimp only; omega, by omega⟩

lemma Balanced.reserveRow (h : Balanced limits moves u) {key : UsageKey} {cost : ℤ} {granted : Bool}
    (hrow : reserveRow key cost (limits key) u = .ok (granted, u')) :
    Balanced limits (moves ++ [{ granted := if granted then [(key, cost)] else [] }]) u' := by
  obtain ⟨hgranted, hused⟩ := reserveRow_ok h.1 hrow
  refine h.granted (fun k => ?_) fun k hlimit => ?_
  · have := h.1 k
    rw [hused]
    split <;> omega
  · cases granted with
    | false => simp [hused k]
    | true =>
      have hroom := hgranted.mp rfl
      rw [hused, if_pos rfl, unitsOf_cons, unitsOf_nil]
      by_cases hk : k = key
      · subst hk
        rw [if_pos ⟨rfl, hlimit, rfl⟩, if_pos rfl]
        omega
      · rw [if_neg fun hall => hk hall.2.2, if_neg (Ne.symm hk)]
        omega

lemma Balanced.release (h : Balanced limits moves u) (taken : List ReservedUnit)
    (hfair : ∀ key, limits key ≠ 0 → unitsOf (taken.map ReservedUnit.charge) key ≤ u.used key) :
    Balanced limits (moves ++ [{ released := taken.map ReservedUnit.charge }]) (release taken u) :=
  h.released (h.1.release taken) fun key hlimit => used_release h.1 (hfair key hlimit)

lemma Fair.prefix {done : List Movement} (h : Fair (moves ++ done)) : Fair moves :=
  fun earlier hearlier => h earlier (hearlier.trans (moves.prefix_append done))

/-- A call gives back no more of a limited bucket than is counted. -/
lemma Balanced.unitsOf_le (h : Balanced limits moves u) {m : Movement}
    (hfair : Fair (moves ++ [m])) (hgranted : m.granted = []) {key : UsageKey}
    (hlimit : limits key ≠ 0) : unitsOf m.released key ≤ u.used key := by
  have hnow := hfair _ (List.prefix_refl _) key
  rw [grantedUnits_snoc, releasedUnits_snoc, hgranted, unitsOf_nil] at hnow
  have := (h.2 key hlimit).1
  omega

lemma Balanced.reserveUpTo (h : Balanced limits moves u) (key : AccountQuotaKey) (want : ℤ) :
    Balanced limits
      (moves ++ [{ granted := [(accountRow key,
        (QuotaRepo.reserveUpTo key want (limits (accountRow key)) u).1)] }])
      (QuotaRepo.reserveUpTo key want (limits (accountRow key)) u).2 := by
  by_cases hfree : limits (accountRow key) = 0
  · rw [hfree, reserveUpTo_unlimited]
    refine h.granted h.1 fun k hlimit => ⟨?_, .inl rfl⟩
    have hk : accountRow key ≠ k := by
      rintro rfl
      exact hlimit hfree
    rw [unitsOf_cons, unitsOf_nil, if_neg hk]
    simp
  obtain ⟨hgrant, hused⟩ := reserveUpTo_eq key want u hfree
  have hleft := h.1 (accountRow key)
  unfold remaining at hgrant
  refine h.granted (fun k => ?_) fun k hlimit => ?_
  · have := h.1 k
    rw [hused]
    split <;> omega
  · rw [hused, unitsOf_cons, unitsOf_nil]
    by_cases hk : k = accountRow key
    · subst hk
      rw [if_pos rfl, if_pos rfl]
      omega
    · rw [if_neg hk, if_neg (Ne.symm hk)]
      omega

/-- One call keeps the balance. -/
lemma QuotaStep.balanced {m : Movement} (hstep : QuotaStep limits u m u')
    (h : Balanced limits moves u) (hfair : Fair (moves ++ [m])) :
    Balanced limits (moves ++ [m]) u' := by
  cases hstep with
  | reserveAccount hrow => exact h.reserveRow hrow
  | reserveApp hrow => exact h.reserveRow hrow
  | reserveUpTo key want => exact h.reserveUpTo key want
  | releaseAccount key cost =>
    exact h.release [.account key cost] fun _ => h.unitsOf_le hfair rfl
  | releaseApp key cost =>
    exact h.release [.app key cost] fun _ => h.unitsOf_le hfair rfl
  | publish hlimits hreserve =>
    obtain ⟨-, hnonneg, hused, hwithin⟩ := reserve_ok h.1 hreserve
    refine h.granted hnonneg fun key _ => ⟨hused key, (hwithin key).imp_right ?_⟩
    rintro ⟨bucket, hbucket, rfl, hle⟩
    rw [hlimits bucket hbucket]
    omega
  | giveBack taken => exact h.release taken fun _ => h.unitsOf_le hfair rfl

lemma balanced_run (hrun : Run (QuotaStep limits) ∅ moves u) (hfair : Fair moves) :
    Balanced limits moves u := by
  induction hrun with
  | nil =>
    refine ⟨fun key => by simp, fun key _ => ⟨?_, ?_⟩⟩
    · simp [grantedUnits, releasedUnits]
    · simp
  | snoc _ step ih => exact step.balanced (ih hfair.prefix) hfair

end Steps

/-- **Quota accounting.**  Under constant limits, whatever calls were made in whatever order, as
long as only granted units are given back:
the counter of a limited bucket is the units granted less the units given back, never below zero
and never above the limit;
a reservation grants its whole cost or nothing;
a reservation up to the limit grants what is wanted or what is left;
and a publish's reservation leaves every counter as it was when a bucket refuses, and otherwise
holds exactly the units it counted, which giving them back takes off again. -/
theorem quota_accounting {limits : UsageKey → ℤ} {moves : List Movement} {u : Usage}
    (hrun : Run (QuotaStep limits) ∅ moves u) (hfair : Fair moves) :
    (∀ key, limits key ≠ 0 →
      0 ≤ u.used key ∧ u.used key ≤ max (limits key) 0 ∧
        u.used key = grantedUnits moves key - releasedUnits moves key) ∧
    (∀ key cost granted u', limits key ≠ 0 →
      reserveRow key cost (limits key) u = .ok (granted, u') →
        (granted = true ↔ cost ≤ 0 ∨ u.used key + cost ≤ limits key) ∧
        u'.used key = u.used key + (if granted then max cost 0 else 0) ∧
        ∀ k, k ≠ key → u'.used k = u.used k) ∧
    (∀ key want, limits (accountRow key) ≠ 0 →
      ∀ granted u', QuotaRepo.reserveUpTo key want (limits (accountRow key)) u = (granted, u') →
        granted = min (max want 0) (remaining (limits (accountRow key)) (u.used (accountRow key))) ∧
        u'.used (accountRow key) = u.used (accountRow key) + granted ∧
        ∀ k, k ≠ accountRow key → u'.used k = u.used k) ∧
    (∀ claimed descriptor op config now result u',
      reserve claimed descriptor op config now u = .ok (result, u') →
        (∀ retryAt, result = .exhausted retryAt → ∀ k, u'.used k = u.used k) ∧
        ∀ taken, result = .reserved taken → ∀ k,
          u'.used k = u.used k + unitsOf (taken.map ReservedUnit.charge) k ∧
          (release taken u').used k = u.used k) := by
  have hbalanced := balanced_run hrun hfair
  have hnonneg := hbalanced.1
  refine ⟨fun key hlimit => ?_, fun key cost granted u' hlimit hrow => ?_,
    fun key want hlimit granted u' hupTo => ?_,
    fun claimed descriptor op config now result u' hreserve => ?_⟩
  · obtain ⟨heq, hle⟩ := hbalanced.2 key hlimit
    exact ⟨hnonneg key, hle, heq⟩
  · obtain ⟨hgranted, hused⟩ := reserveRow_ok hnonneg hrow
    refine ⟨by rw [hgranted]; tauto, ?_, fun k hk => by simp [hused, hk]⟩
    rw [hused]
    cases granted <;> simp [hlimit]
  · obtain ⟨hgrant, hused⟩ := reserveUpTo_eq key want u hlimit
    rw [hupTo] at hgrant hused
    exact ⟨hgrant, by rw [hused, if_pos rfl], fun k hk => by rw [hused, if_neg hk]⟩
  · obtain ⟨hexhausted, hnonneg', hused, -⟩ := reserve_ok hnonneg hreserve
    refine ⟨fun retryAt hresult k => by rw [hexhausted retryAt hresult], ?_⟩
    rintro taken rfl k
    have hk := hnonneg k
    have hgrown := hused k
    refine ⟨hgrown, ?_⟩
    rw [used_release hnonneg' (by dsimp only [QuotaReservation.units] at hgrown; omega), hgrown]
    dsimp only [QuotaReservation.units]
    omega

/-- A day of an account's publishes. -/
def sampleKey : AccountQuotaKey where
  owner := 1
  account := 2
  platform := "instagram"
  bucket := "publishes"
  periodStart := 0

/-- Two units reserved, one more granted of five wanted, and the first two given back. -/
def sampleMoves : List Movement :=
  [{ granted := [(accountRow sampleKey, 2)] }, { granted := [(accountRow sampleKey, 1)] },
    { released := [(accountRow sampleKey, 2)] }]

theorem quota_accounting_limit_three :
    ∃ u, Run (QuotaStep fun _ => 3) ∅ sampleMoves u ∧ Fair sampleMoves ∧
      u.used (accountRow sampleKey) = 1 ∧
      u.used (accountRow sampleKey) =
        grantedUnits sampleMoves (accountRow sampleKey) -
          releasedUnits sampleMoves (accountRow sampleKey) := by
  have hreserve : QuotaRepo.reserve sampleKey 2 3 ∅ =
      .ok (true, AList.insert (accountRow sampleKey) 2 ∅) := rfl
  have hfirst : QuotaStep (fun _ => 3) ∅ { granted := [(accountRow sampleKey, 2)] }
      (AList.insert (accountRow sampleKey) 2 ∅) :=
    @QuotaStep.reserveAccount (fun _ => 3) ∅ sampleKey 2 true _ hreserve
  have hrun : Run (QuotaStep fun _ => 3) ∅ sampleMoves
      (QuotaRepo.release sampleKey 2 (QuotaRepo.reserveUpTo sampleKey 5 3
        (AList.insert (accountRow sampleKey) 2 ∅)).2) :=
    ((Run.nil.snoc hfirst).snoc (.reserveUpTo sampleKey 5)).snoc (.releaseAccount sampleKey 2)
  have hfair : Fair sampleMoves := by
    intro done hdone key
    have hcases := (List.mem_inits _ _).mpr hdone
    simp only [sampleMoves, List.inits, List.map_cons, List.map_nil, List.mem_cons,
      List.not_mem_nil, or_false] at hcases
    rcases hcases with rfl | rfl | rfl | rfl <;>
      simp only [grantedUnits, releasedUnits, List.flatMap_cons, List.flatMap_nil, unitsOf_append,
        unitsOf_cons, unitsOf_nil] <;>
      by_cases hkey : accountRow sampleKey = key <;> simp [hkey]
  exact ⟨_, hrun, hfair, by decide, ((quota_accounting hrun hfair).1 _ (by decide)).2.2⟩

/-- A limit of `0` grants every reservation in full and counts none of it. -/
theorem quota_accounting_unlimited :
    ¬ ∀ (key : AccountQuotaKey) (limit cost : ℤ) (u' : Usage),
      QuotaRepo.reserve key cost limit ∅ = .ok (true, u') →
        u'.used (accountRow key) ≤ limit ∧ u'.used (accountRow key) = cost := by
  intro h
  have hfive := h sampleKey 0 5 ∅ rfl
  simp at hfive

end Postit.Publishing
