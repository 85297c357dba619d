import Mathlib.Data.List.Basic
import Postit.Framework.Bytes

/-!
# URL-safe base64 without padding

Three bytes are four characters, one byte left over is two and two are three.  The bits a last
character has over must be zero, so a text that decodes is the encoding of what it decodes to
(`encode_of_decode`).
-/

namespace Postit.Framework.Base64

/-- The character of six bits. -/
def chr (n : ℕ) : Char :=
  if n < 26 then Char.ofNat ('A'.toNat + n)
  else if n < 52 then Char.ofNat ('a'.toNat + (n - 26))
  else if n < 62 then Char.ofNat ('0'.toNat + (n - 52))
  else if n = 62 then '-'
  else '_'

/-- The six bits of a character. -/
def val? (c : Char) : Option ℕ := (List.range 64).find? fun n => chr n = c

/-- Encodes bytes. -/
def encode : Bytes → List Char
  | [] => []
  | [a] => [chr (a.toNat / 4), chr (a.toNat % 4 * 16)]
  | [a, b] => [chr (a.toNat / 4), chr (a.toNat % 4 * 16 + b.toNat / 16), chr (b.toNat % 16 * 4)]
  | a :: b :: c :: rest =>
    chr (a.toNat / 4) :: chr (a.toNat % 4 * 16 + b.toNat / 16) ::
      chr (b.toNat % 16 * 4 + c.toNat / 64) :: chr (c.toNat % 64) :: encode rest

/-- The first byte of two characters' bits. -/
def byte₁ (w x : ℕ) : UInt8 := UInt8.ofNat (w * 4 + x / 16)

/-- The byte the second and third character share. -/
def byte₂ (x y : ℕ) : UInt8 := UInt8.ofNat (x % 16 * 16 + y / 4)

/-- The byte the third and fourth character share. -/
def byte₃ (y z : ℕ) : UInt8 := UInt8.ofNat (y % 4 * 64 + z)

/-- Decodes a text.  Padding, characters outside the alphabet, a lone last character and bits left
over that are not zero are refused. -/
def decode : List Char → Option Bytes
  | [] => some []
  | [_] => none
  | [w, x] => do
    let (w, x) := (← val? w, ← val? x)
    if x % 16 = 0 then some [byte₁ w x] else none
  | [w, x, y] => do
    let (w, x, y) := (← val? w, ← val? x, ← val? y)
    if y % 4 = 0 then some [byte₁ w x, byte₂ x y] else none
  | w :: x :: y :: z :: rest => do
    let (w, x, y, z) := (← val? w, ← val? x, ← val? y, ← val? z)
    let rest ← decode rest
    some (byte₁ w x :: byte₂ x y :: byte₃ y z :: rest)

example : encode [0xFB, 0xFF, 0x61, 0x62] = "-_9hYg".toList := by decide

/-! ## The alphabet -/

/-- The six bits of a character of the alphabet, by its range. -/
def bitsOf (c : Char) : ℕ :=
  if c.isUpper then c.toNat - 'A'.toNat
  else if c.isLower then c.toNat - 'a'.toNat + 26
  else if c.isDigit then c.toNat - '0'.toNat + 52
  else if c = '-' then 62
  else 63

lemma bitsOf_chr : ∀ n < 64, bitsOf (chr n) = n := by decide

lemma chr_injOn (m : ℕ) (hm : m < 64) (n : ℕ) (hn : n < 64) (h : chr m = chr n) : m = n := by
  rw [← bitsOf_chr m hm, h, bitsOf_chr n hn]

lemma val?_chr {n : ℕ} (h : n < 64) : val? (chr n) = some n := by
  have hsome : (val? (chr n)).isSome :=
    List.find?_isSome.mpr ⟨n, List.mem_range.mpr h, by simp⟩
  obtain ⟨m, hm⟩ := Option.isSome_iff_exists.mp hsome
  have hlt := List.mem_range.mp (List.mem_of_find?_eq_some hm)
  have heq : chr m = chr n := by simpa using List.find?_some hm
  rw [hm, chr_injOn m hlt n h heq]

lemma of_val? {c : Char} {n : ℕ} (h : val? c = some n) : n < 64 ∧ chr n = c :=
  ⟨List.mem_range.mp (List.mem_of_find?_eq_some h), by simpa using List.find?_some h⟩

/-- The alphabet. -/
def IsUrlSafe (c : Char) : Prop := c.isAlphanum ∨ c = '-' ∨ c = '_'

instance (c : Char) : Decidable (IsUrlSafe c) := inferInstanceAs (Decidable (_ ∨ _))

lemma isUrlSafe_chr {n : ℕ} (h : n < 64) : IsUrlSafe (chr n) := by
  have hall : ∀ n < 64, IsUrlSafe (chr n) := by decide
  exact hall n h

/-! ## There and back -/

lemma byte₁_of (a : UInt8) (n : ℕ) (hn : n < 16) :
    byte₁ (a.toNat / 4) (a.toNat % 4 * 16 + n) = a := by
  have := a.toNat_lt
  apply UInt8.toNat_inj.mp
  rw [byte₁, UInt8.toNat_ofNat']
  omega

lemma byte₂_of (m : ℕ) (b : UInt8) (n : ℕ) (hn : n < 4) :
    byte₂ (m * 16 + b.toNat / 16) (b.toNat % 16 * 4 + n) = b := by
  have := b.toNat_lt
  apply UInt8.toNat_inj.mp
  rw [byte₂, UInt8.toNat_ofNat']
  omega

lemma byte₃_of (m : ℕ) (c : UInt8) : byte₃ (m * 4 + c.toNat / 64) (c.toNat % 64) = c := by
  have := c.toNat_lt
  apply UInt8.toNat_inj.mp
  rw [byte₃, UInt8.toNat_ofNat']
  omega

lemma decode_encode (bytes : Bytes) : decode (encode bytes) = some bytes := by
  fun_induction encode bytes with
  | case1 => rfl
  | case2 a =>
    have ha := a.toNat_lt
    simp only [decode, val?_chr (show a.toNat / 4 < 64 by omega),
      val?_chr (show a.toNat % 4 * 16 < 64 by omega), Option.bind_eq_bind, Option.bind_some]
    have hbyte := byte₁_of a 0 (by omega)
    rw [Nat.add_zero] at hbyte
    rw [hbyte, if_pos (by omega)]
  | case3 a b =>
    have ha := a.toNat_lt
    have hb := b.toNat_lt
    simp only [decode, val?_chr (show a.toNat / 4 < 64 by omega),
      val?_chr (show a.toNat % 4 * 16 + b.toNat / 16 < 64 by omega),
      val?_chr (show b.toNat % 16 * 4 < 64 by omega), Option.bind_eq_bind, Option.bind_some]
    have hbyte := byte₂_of (a.toNat % 4) b 0 (by omega)
    rw [Nat.add_zero] at hbyte
    rw [byte₁_of a _ (by omega), hbyte, if_pos (by omega)]
  | case4 a b c rest ih =>
    have ha := a.toNat_lt
    have hb := b.toNat_lt
    have hc := c.toNat_lt
    simp only [decode, val?_chr (show a.toNat / 4 < 64 by omega),
      val?_chr (show a.toNat % 4 * 16 + b.toNat / 16 < 64 by omega),
      val?_chr (show b.toNat % 16 * 4 + c.toNat / 64 < 64 by omega),
      val?_chr (show c.toNat % 64 < 64 by omega), ih, Option.bind_eq_bind, Option.bind_some]
    rw [byte₁_of a _ (by omega), byte₂_of (a.toNat % 4) b _ (by omega), byte₃_of (b.toNat % 16) c]

lemma encode_injective : Function.Injective encode := by
  intro a b h
  have := congrArg decode h
  simpa [decode_encode] using this

/-- A text that decodes is the encoding of what it decodes to. -/
lemma encode_of_decode {text : List Char} {bytes : Bytes} (h : decode text = some bytes) :
    encode bytes = text := by
  fun_induction decode text generalizing bytes with
  | case1 => cases h; rfl
  | case2 => cases h
  | case3 w x =>
    simp only [Option.bind_eq_bind, Option.bind_eq_some_iff] at h
    obtain ⟨w', hw, x', hx, h⟩ := h
    obtain ⟨hw', rfl⟩ := of_val? hw
    obtain ⟨hx', rfl⟩ := of_val? hx
    split at h
    · next hzero =>
      cases h
      simp only [encode, byte₁, UInt8.toNat_ofNat', List.cons.injEq, and_true]
      exact ⟨congrArg chr (by omega), congrArg chr (by omega)⟩
    · cases h
  | case4 w x y =>
    simp only [Option.bind_eq_bind, Option.bind_eq_some_iff] at h
    obtain ⟨w', hw, x', hx, y', hy, h⟩ := h
    obtain ⟨hw', rfl⟩ := of_val? hw
    obtain ⟨hx', rfl⟩ := of_val? hx
    obtain ⟨hy', rfl⟩ := of_val? hy
    split at h
    · next hzero =>
      cases h
      simp only [encode, byte₁, byte₂, UInt8.toNat_ofNat', List.cons.injEq, and_true]
      exact ⟨congrArg chr (by omega), congrArg chr (by omega), congrArg chr (by omega)⟩
    · cases h
  | case5 w x y z rest ih =>
    simp only [Option.bind_eq_bind, Option.bind_eq_some_iff] at h
    obtain ⟨w', hw, x', hx, y', hy, z', hz, rest', hrest, h⟩ := h
    obtain ⟨hw', rfl⟩ := of_val? hw
    obtain ⟨hx', rfl⟩ := of_val? hx
    obtain ⟨hy', rfl⟩ := of_val? hy
    obtain ⟨hz', rfl⟩ := of_val? hz
    cases h
    simp only [encode, byte₁, byte₂, byte₃, UInt8.toNat_ofNat', List.cons.injEq, ih hrest, and_true]
    exact ⟨congrArg chr (by omega), congrArg chr (by omega), congrArg chr (by omega),
      congrArg chr (by omega)⟩

lemma isUrlSafe_of_mem_encode {bytes : Bytes} {c : Char} (h : c ∈ encode bytes) : IsUrlSafe c := by
  fun_induction encode bytes with
  | case1 => cases h
  | case2 a =>
    have ha := a.toNat_lt
    simp only [List.mem_cons, List.not_mem_nil, or_false] at h
    rcases h with rfl | rfl <;> exact isUrlSafe_chr (by omega)
  | case3 a b =>
    have ha := a.toNat_lt
    have hb := b.toNat_lt
    simp only [List.mem_cons, List.not_mem_nil, or_false] at h
    rcases h with rfl | rfl | rfl <;> exact isUrlSafe_chr (by omega)
  | case4 a b d rest ih =>
    have ha := a.toNat_lt
    have hb := b.toNat_lt
    have hd := d.toNat_lt
    simp only [List.mem_cons] at h
    rcases h with rfl | rfl | rfl | rfl | h
    · exact isUrlSafe_chr (by omega)
    · exact isUrlSafe_chr (by omega)
    · exact isUrlSafe_chr (by omega)
    · exact isUrlSafe_chr (by omega)
    · exact ih h

end Postit.Framework.Base64
