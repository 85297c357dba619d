import Postit.Http.Policy
import Postit.Framework.Results

/-!
# The policy for outbound addresses

An IPv4 address is judged alike in each of its IPv6 forms (`isAllowed_mapped`, `isAllowed_nat64`,
`isAllowed_compatible`), and a resolution gives exactly the allowed ones of the addresses it finds.
-/

namespace Postit.Http

open Postit.Framework

variable {a : BitVec 32} {policy : AddressPolicy}

/-! ## The forms of an IPv4 address -/

/-- An IPv6 address of neither of the two exceptions, by its upper bits. -/
lemma effective_append {high : BitVec 96} (hexc : high ≠ 0 ∨ (a ≠ 0 ∧ a ≠ 1)) :
    effective (.v6 (high ++ a)) =
      if high = 0 ∨ high = 0xffff then .v4 a
      else if nat64.contains (.v6 (high ++ a)) then .v4 a else .v6 (high ++ a) := by
  have hhigh : (high ++ a).extractLsb' 32 96 = high := BitVec.extractLsb'_append_eq_left
  have hlow : (high ++ a).extractLsb' 0 32 = a := BitVec.extractLsb'_append_eq_right
  have hneither : ¬ (high ++ a = unspecified ∨ high ++ a = localhost) := by
    rintro (h | h)
    · have hzero : high = 0 := by
        rw [← hhigh, h]
        decide
      have hlast : a = 0 := by
        rw [← hlow, h]
        decide
      exact hexc.elim (fun hne => hne hzero) fun hne => hne.1 hlast
    · have hzero : high = 0 := by
        rw [← hhigh, h]
        decide
      have hlast : a = 1 := by
        rw [← hlow, h]
        decide
      exact hexc.elim (fun hne => hne hzero) fun hne => hne.2 hlast
  simp only [effective, if_neg hneither, toIpv4, hhigh, hlow]
  split_ifs <;> rfl

/-- Addresses that are checked as one are judged alike. -/
lemma isAllowed_congr {ip ip' : IpAddr} (h : effective ip = effective ip') :
    isAllowed ip policy = isAllowed ip' policy := by
  simp only [isAllowed, h]

lemma isAllowed_mapped : isAllowed (.v6 (0xffff#96 ++ a)) policy = isAllowed (.v4 a) policy := by
  refine isAllowed_congr ?_
  rw [effective_append (.inl (by decide)), if_pos (.inr rfl)]
  rfl

lemma isAllowed_nat64 : isAllowed (.v6 (nat64Bits ++ a)) policy = isAllowed (.v4 a) policy := by
  refine isAllowed_congr ?_
  have hin : nat64.contains (.v6 (nat64Bits ++ a)) = true := by
    refine decide_eq_true (BitVec.eq_of_getLsbD_eq fun i _ => ?_)
    -- the shift drops all that follows the prefix
    have hshift : 128 - (96 : Fin 129).val = 32 := rfl
    have hlow : ¬ 32 + i < 32 := by omega
    rw [hshift, BitVec.getLsbD_ushiftRight, BitVec.getLsbD_ushiftRight, BitVec.getLsbD_append,
      BitVec.getLsbD_append, if_neg hlow, if_neg hlow]
  rw [effective_append (.inl (by decide)), if_neg (by decide), if_pos hin]
  rfl

/-- `::` and 0.0.0.0 are both refused; `::1` is not judged as 0.0.0.1. -/
lemma isAllowed_compatible (h : (0#96 ++ a : BitVec 128) ≠ localhost) :
    isAllowed (.v6 (0#96 ++ a)) policy = isAllowed (.v4 a) policy := by
  by_cases hzero : a = 0
  · subst hzero
    cases policy with
    | mk allowPrivate => cases allowPrivate <;> decide
  · have hone : a ≠ 1 := by
      rintro rfl
      exact h (by decide)
    refine isAllowed_congr ?_
    rw [effective_append (.inr ⟨hzero, hone⟩), if_pos (.inl rfl)]
    rfl

/-- `allowPrivate` only lifts ranges. -/
lemma isAllowed_of_strict {ip : IpAddr} (h : isAllowed ip .strict = true) :
    isAllowed ip policy = true := by
  unfold isAllowed at h ⊢
  split at h
  · simp only [AddressPolicy.strict, Bool.not_false, Bool.true_and, Bool.not_eq_true',
      Bool.or_eq_false_iff] at h
    simp [h.1, h.2]
  · simp only [AddressPolicy.strict, Bool.not_false, Bool.true_and, Bool.not_eq_true',
      Bool.or_eq_false_iff] at h
    simp [h.1, h.2]

/-! ## Resolving -/

section Resolving

variable {ε : Type} {lookup : List Char → UInt16 → Except ε (List SocketAddr)} {host : List Char}
  {port : UInt16} {found kept : List SocketAddr}

/-- Of what was found, those that are allowed, in their order and as often. -/
lemma resolveFiltered_ok (hfound : candidates lookup host port = .ok found)
    (h : resolveFiltered lookup host port policy = .ok kept) :
    (∀ addr ∈ kept, isAllowed addr.ip policy = true) ∧ kept.Sublist found ∧
      ∀ addr, isAllowed addr.ip policy = true → kept.count addr = found.count addr := by
  simp only [resolveFiltered, hfound, bind, Except.bind] at h
  split_ifs at h
  obtain rfl := Except.ok.inj h
  refine ⟨fun addr hmem => (List.mem_filter.mp hmem).2, List.filter_sublist, ?_⟩
  exact fun addr hallowed => List.count_filter hallowed

lemma resolveFiltered_rejected (hfound : candidates lookup host port = .ok found) :
    resolveFiltered lookup host port policy = .error .rejected ↔
      ∀ addr ∈ found, isAllowed addr.ip policy = false := by
  simp only [resolveFiltered, hfound, bind, Except.bind]
  split_ifs with hempty
  · simpa using hempty
  · simpa using hempty

/-- A lookup that fails is not a refusal. -/
lemma resolveFiltered_error {error : FilterError ε}
    (hfound : candidates lookup host port = .error error) :
    resolveFiltered lookup host port policy = .error error ∧ error ≠ .rejected := by
  refine ⟨by simp only [resolveFiltered, hfound, bind, Except.bind], ?_⟩
  unfold candidates at hfound
  split at hfound
  · cases hfound
  · cases hlookup : lookup host port with
    | ok answer =>
      rw [hlookup] at hfound
      cases hfound
    | error cause =>
      rw [hlookup] at hfound
      obtain rfl := Except.error.inj hfound
      simp

end Resolving

end Postit.Http
