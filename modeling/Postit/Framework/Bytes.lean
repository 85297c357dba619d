import Mathlib.Algebra.Group.Int.Defs
import Mathlib.Algebra.GroupWithZero.Nat
import Mathlib.Data.List.Basic

/-!
# Byte strings

Big-endian 32-bit numbers, and parts put one after the other, each behind its length.  Such a
concatenation can be read back, so two lists of parts never give the same bytes
(`lengthPrefixed_injective`).
-/

namespace Postit.Framework

/-- A string of bytes. -/
abbrev Bytes := List UInt8

/-! ## Big-endian numbers -/

/-- The four bytes of a 32-bit number, the highest first. -/
def toBeBytes (n : UInt32) : Bytes :=
  [UInt8.ofNat (n.toNat / 2 ^ 24), UInt8.ofNat (n.toNat / 2 ^ 16), UInt8.ofNat (n.toNat / 2 ^ 8),
    UInt8.ofNat n.toNat]

/-- The 32-bit number four bytes spell, the highest first. -/
def fromBeBytes? : Bytes → Option UInt32
  | [a, b, c, d] =>
    some (UInt32.ofNat (a.toNat * 2 ^ 24 + b.toNat * 2 ^ 16 + c.toNat * 2 ^ 8 + d.toNat))
  | _ => none

/-- The big-endian bytes of a number. -/
def bytesOf (length n : ℕ) : Bytes :=
  (List.range length).map fun i => UInt8.ofNat (n / 256 ^ (length - 1 - i))

@[simp] lemma length_toBeBytes (n : UInt32) : (toBeBytes n).length = 4 := rfl

@[simp] lemma fromBeBytes?_toBeBytes (n : UInt32) : fromBeBytes? (toBeBytes n) = some n := by
  have hn := n.toNat_lt
  rw [toBeBytes, fromBeBytes?, Option.some.injEq]
  apply UInt32.toNat_inj.mp
  simp only [UInt8.toNat_ofNat', UInt32.toNat_ofNat']
  omega

lemma toBeBytes_injective : Function.Injective toBeBytes := by
  intro m n h
  have := congrArg fromBeBytes? h
  simpa using this

/-! ## Length prefixes -/

/-- A part behind its length, which must fit in 32 bits. -/
def withLength? (part : Bytes) : Option Bytes :=
  if part.length < 2 ^ 32 then some (toBeBytes (UInt32.ofNat part.length) ++ part) else none

/-- The parts one after the other, each behind its length. -/
def lengthPrefixed? : List Bytes → Option Bytes
  | [] => some []
  | part :: parts =>
    match withLength? part, lengthPrefixed? parts with
    | some head, some tail => some (head ++ tail)
    | _, _ => none

lemma of_withLength? {part bytes : Bytes} (h : withLength? part = some bytes) :
    part.length < 2 ^ 32 ∧ bytes = toBeBytes (UInt32.ofNat part.length) ++ part := by
  unfold withLength? at h
  split at h
  · next hlen => exact ⟨hlen, (Option.some.inj h).symm⟩
  · cases h

lemma lengthPrefixed?_cons {part bytes : Bytes} {parts : List Bytes}
    (h : lengthPrefixed? (part :: parts) = some bytes) :
    ∃ rest, part.length < 2 ^ 32 ∧ lengthPrefixed? parts = some rest ∧
      bytes = toBeBytes (UInt32.ofNat part.length) ++ part ++ rest := by
  rw [lengthPrefixed?] at h
  cases hpart : withLength? part with
  | none => simp [hpart] at h
  | some head =>
    cases hparts : lengthPrefixed? parts with
    | none => simp [hpart, hparts] at h
    | some tail =>
      obtain ⟨hlen, rfl⟩ := of_withLength? hpart
      simp only [hpart, hparts, Option.some.injEq] at h
      exact ⟨tail, hlen, rfl, h.symm⟩

/-- Parts behind their lengths can be told apart. -/
lemma lengthPrefixed_injective {parts parts' : List Bytes} {bytes : Bytes}
    (h : lengthPrefixed? parts = some bytes) (h' : lengthPrefixed? parts' = some bytes) :
    parts = parts' := by
  induction parts generalizing parts' bytes with
  | nil =>
    cases parts' with
    | nil => rfl
    | cons part' parts' =>
      obtain ⟨rest, -, -, rfl⟩ := lengthPrefixed?_cons h'
      simp [lengthPrefixed?, toBeBytes] at h
  | cons part parts ih =>
    obtain ⟨rest, hlen, hrest, rfl⟩ := lengthPrefixed?_cons h
    cases parts' with
    | nil => simp [lengthPrefixed?, toBeBytes] at h'
    | cons part' parts' =>
      obtain ⟨rest', hlen', hrest', heq⟩ := lengthPrefixed?_cons h'
      rw [List.append_assoc, List.append_assoc] at heq
      -- the lengths are read first, and then as many bytes as they say
      obtain ⟨hlens, htail⟩ := List.append_inj heq rfl
      have hsame : part.length = part'.length := by
        have := congrArg UInt32.toNat (toBeBytes_injective hlens)
        simp only [UInt32.toNat_ofNat'] at this
        omega
      obtain ⟨rfl, rfl⟩ := List.append_inj htail hsame
      rw [ih hrest hrest']

end Postit.Framework
