import Postit.OAuth.Tokens

/-!
# When an access token expires

A response with an access token is read without a panic, and its expiry is the one the response or
the spec states, exactly when the lifetime in it is a duration, or is beyond 64 bits and the spec
states no lifetime that leads to an instant.
-/

namespace Postit.OAuth

open Postit.Framework

/-! ## What a lifetime leads to -/

/-- The spec's lifetime leads to no instant: there is none, or it is too long. -/
def OAuthProviderSpec.NoDefaultExpiry (spec : OAuthProviderSpec) (now : Instant) : Prop :=
  ∀ ttl, spec.defaultAccessTtl = some ttl →
    TimeDelta.limit < ttl ∨ Instant.maxUtc < now.nanos + ttl

/-- The expiry is at the end of the lifetime the response states, or of the spec's when it states
none, and not before now. -/
def RightExpiry (spec : OAuthProviderSpec) (map : Members) (now expiry : Instant) : Prop :=
  now.nanos ≤ expiry.nanos ∧
  match expiresIn map with
  | some seconds => expiry.nanos = now.nanos + seconds * 10 ^ 9
  | none => ∃ ttl : ℕ, spec.defaultAccessTtl = some ttl ∧ expiry.nanos = now.nanos + ttl

/-- The response is read without a panic, and an expiry in the result is the right one. -/
def ReadSafely (spec : OAuthProviderSpec) (map : Members) (now : Instant) : Prop :=
  ∃ result, parseTokens spec map now = some result ∧
    ∀ exchange, result = .ok exchange →
      ∀ expiry, exchange.tokens.expiresAt = some expiry → RightExpiry spec map now expiry

variable {spec : OAuthProviderSpec} {map : Members} {now : Instant}

/-- The spec's lifetime as a duration. -/
def OAuthProviderSpec.defaultTtl (spec : OAuthProviderSpec) : Option TimeDelta :=
  spec.defaultAccessTtl.bind TimeDelta.fromStd

/-- An expiry by the spec's lifetime is at its end. -/
lemma nanos_of_default {expiry : Instant}
    (h : spec.defaultTtl.bind now.checkedAddSigned = some expiry) :
    ∃ ttl : ℕ, spec.defaultAccessTtl = some ttl ∧ (ttl : ℤ) ≤ TimeDelta.limit ∧
      expiry.nanos = now.nanos + ttl := by
  obtain ⟨d, hd, hexpiry⟩ := Option.bind_eq_some_iff.mp h
  obtain ⟨ttl, hspec, httl⟩ := Option.bind_eq_some_iff.mp hd
  have hnanos := TimeDelta.nanos_of_ofNanos httl
  refine ⟨ttl, hspec, hnanos ▸ d.nanos_le, ?_⟩
  rw [Instant.nanos_of_checkedAddSigned hexpiry, hnanos]

/-- The spec's lifetime leads to an instant unless it is too long. -/
lemma default_eq_none_iff :
    spec.defaultTtl.bind now.checkedAddSigned = none ↔ spec.NoDefaultExpiry now := by
  constructor
  · intro h ttl hspec
    cases hd : TimeDelta.fromStd ttl with
    | none =>
      rcases TimeDelta.ofNanos_eq_none_iff.mp hd with hneg | hlong
      · simp only [TimeDelta.limit, maxI64] at hneg
        omega
      · exact .inl hlong
    | some d =>
      have hnanos := TimeDelta.nanos_of_ofNanos hd
      have hnone : now.checkedAddSigned d = none := by
        simpa [OAuthProviderSpec.defaultTtl, hspec, hd] using h
      have hlate := (Instant.checkedAddSigned_eq_none_iff (by omega)).mp hnone
      exact .inr (hnanos ▸ hlate)
  · intro h
    by_contra hne
    obtain ⟨expiry, hexpiry⟩ := Option.ne_none_iff_exists'.mp hne
    obtain ⟨ttl, hspec, hle, hnanos⟩ := nanos_of_default hexpiry
    have := expiry.nanos_le
    rcases h ttl hspec with hlong | hlate <;> omega

/-- Without a lifetime in the response the spec's counts. -/
lemma expiresAt_of_none (h : expiresIn map = none) :
    expiresAt spec map now = some (spec.defaultTtl.bind now.checkedAddSigned) := by
  simp [expiresAt, statedTtl, h, OAuthProviderSpec.defaultTtl]

/-- So it does behind a lifetime beyond 64 bits. -/
lemma expiresAt_of_huge {seconds : ℕ} (h : expiresIn map = some seconds)
    (hhuge : maxI64 < seconds) :
    expiresAt spec map now = some (spec.defaultTtl.bind now.checkedAddSigned) := by
  simp [expiresAt, statedTtl, h, not_le.mpr hhuge, OAuthProviderSpec.defaultTtl]

/-- A lifetime of 64 bits is made a duration. -/
lemma expiresAt_of_le {seconds : ℕ} (h : expiresIn map = some seconds)
    (hle : (seconds : ℤ) ≤ maxI64) :
    expiresAt spec map now = (TimeDelta.seconds seconds).map now.checkedAddSigned := by
  simp only [expiresAt, statedTtl, h, if_pos hle, Option.map_map]
  congr 1

/-- A response with an access token is read safely when its expiry is right. -/
lemma readSafely_iff {token : String} (h : string map "access_token" = some token) :
    ReadSafely spec map now ↔
      ∃ expiry, expiresAt spec map now = some expiry ∧
        ∀ t, expiry = some t → RightExpiry spec map now t := by
  unfold ReadSafely parseTokens
  simp only [h]
  constructor
  · rintro ⟨result, hresult, hright⟩
    obtain ⟨expiry, hexpiry, rfl⟩ := Option.map_eq_some_iff.mp hresult
    exact ⟨expiry, hexpiry, hright _ rfl⟩
  · rintro ⟨expiry, hexpiry, hright⟩
    rw [hexpiry]
    refine ⟨_, rfl, ?_⟩
    intro exchange heq
    cases heq
    exact hright

/-! ## When it is right -/

/-- Whatever a provider answers is read without a panic and with the right expiry exactly when it
holds no access token, or its lifetime is at most the longest duration of whole seconds, or that
lifetime is beyond 64 bits and the spec's own leads to no instant. -/
theorem parseTokens_safe_iff (spec : OAuthProviderSpec) (map : Members) (now : Instant) :
    ReadSafely spec map now ↔
      (string map "access_token" ≠ none →
        ∀ seconds, expiresIn map = some seconds →
          (seconds : ℤ) ≤ maxI64 / 1000 ∨
            (maxI64 < seconds ∧ spec.NoDefaultExpiry now)) := by
  cases htoken : string map "access_token" with
  | none =>
    simp only [ne_eq, not_true_eq_false, false_implies, iff_true]
    refine ⟨.error (.provider "invalid_response"), ?_, fun _ h => nomatch h⟩
    simp only [parseTokens, htoken]
  | some token =>
    simp only [ne_eq, reduceCtorEq, not_false_eq_true, true_implies]
    rw [readSafely_iff htoken]
    cases hin : expiresIn map with
    | none =>
      -- the spec's lifetime counts
      refine iff_of_true ⟨_, expiresAt_of_none hin, ?_⟩ (fun _ h => nomatch h)
      intro expiry hexpiry
      obtain ⟨ttl, hspec, -, hnanos⟩ := nanos_of_default hexpiry
      refine ⟨by omega, ?_⟩
      rw [hin]
      exact ⟨ttl, hspec, hnanos⟩
    | some seconds =>
      simp only [Option.some.injEq, forall_eq']
      by_cases hle : (seconds : ℤ) ≤ maxI64
      · rw [expiresAt_of_le hin hle]
        cases hd : TimeDelta.seconds seconds with
        | none =>
          -- the panic
          have hout := TimeDelta.seconds_eq_none_iff.mp hd
          have : (0 : ℤ) ≤ maxI64 / 1000 := by decide
          simp only [Option.map_none, reduceCtorEq, false_and, exists_false, false_iff, not_or]
          omega
        | some d =>
          have hnanos := TimeDelta.nanos_of_ofNanos hd
          have hshort : (seconds : ℤ) ≤ maxI64 / 1000 := by
            by_contra hlong
            rw [TimeDelta.seconds_eq_none_iff.mpr (.inr (by omega))] at hd
            cases hd
          refine iff_of_true ⟨_, rfl, ?_⟩ (.inl hshort)
          intro expiry hexpiry
          have hat := Instant.nanos_of_checkedAddSigned hexpiry
          refine ⟨by omega, ?_⟩
          rw [hin, hat, hnanos]
      · have hhuge : maxI64 < seconds := by omega
        have hlong : ¬(seconds : ℤ) ≤ maxI64 / 1000 := by
          simp only [maxI64] at hhuge ⊢
          omega
        rw [expiresAt_of_huge hin hhuge]
        simp only [hlong, hhuge, true_and, false_or, Option.some.injEq, exists_eq_left']
        rw [← default_eq_none_iff]
        constructor
        · -- the spec's lifetime is shorter than the one stated
          intro hright
          by_contra hne
          obtain ⟨expiry, hexpiry⟩ := Option.ne_none_iff_exists'.mp hne
          obtain ⟨ttl, -, hshort, hnanos⟩ := nanos_of_default hexpiry
          have hat := (hright expiry hexpiry).2
          rw [hin] at hat
          simp only [TimeDelta.limit, maxI64] at hshort hhuge
          omega
        · intro hnone expiry hexpiry
          rw [hnone] at hexpiry
          cases hexpiry

/-- A lifetime of `i64::MAX` seconds is a panic. -/
theorem parseTokens_panics :
    let map : Members :=
      [("access_token", .string "t"), ("expires_in", .number (.posInt 9223372036854775807))]
    parseTokens {} map ⟨0, by decide, by decide⟩ = none ∧
      ¬ReadSafely {} map ⟨0, by decide, by decide⟩ := by
  have h : parseTokens {}
      [("access_token", .string "t"), ("expires_in", .number (.posInt 9223372036854775807))]
      ⟨0, by decide, by decide⟩ = none := by decide
  refine ⟨h, ?_⟩
  rintro ⟨result, hresult, -⟩
  rw [h] at hresult
  cases hresult

end Postit.OAuth
