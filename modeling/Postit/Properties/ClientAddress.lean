import Mathlib.Data.List.Basic
import Postit.Api.ClientIp

/-!
# Whose address a request carries

The lines of `X-Forwarded-For` make up one list of hops, joined by commas, and every proxy appends
the address it was reached from at its end.  So the client is the right-most hop that is no trusted
proxy, and nothing in front of that hop can change it.

The middleware reads the first line only, and a line with a byte outside visible ASCII not at all.
`clientIp_eq_iff` says on which requests it still resolves the address it should.
-/

namespace Postit.Api

open Postit.Framework

/-! ## The list of hops -/

/-- The bytes of the lines joined by commas, cut at the commas. -/
def hops (lines : List HeaderValue) : List Bytes :=
  if lines = [] then [] else (List.intercalate [44] (lines.map HeaderValue.bytes)).splitOn 44

/-- The address a hop spells. -/
def hopAddr? (hop : Bytes) : Option IpAddr :=
  (visibleText hop).bind fun s => IpAddr.parse? (trimmed s)

/-- A hop that is a trusted proxy. -/
def trustedHop (trusted : List IpNet) (hop : Bytes) : Bool := (hopAddr? hop).any (isTrusted trusted)

/-- What the right-most hop that is no trusted proxy spells. -/
def named (trusted : List IpNet) (hops : List Bytes) : Option IpAddr :=
  (hops.reverse.find? fun hop => !trustedHop trusted hop).bind hopAddr?

/-- The peer when it is not trusted, and otherwise the right-most hop that is no trusted proxy; the
peer when there is none, or when that hop is no address. -/
def rightMostUntrusted (trusted : List IpNet) (peer : IpAddr) (hops : List Bytes) : IpAddr :=
  if isTrusted trusted peer then (named trusted hops).getD peer else peer

/-- A value of visible ASCII. -/
def HeaderValue.Plain (value : HeaderValue) : Prop := value.bytes.all visible = true

instance (value : HeaderValue) : Decidable value.Plain := inferInstanceAs (Decidable (_ = true))

/-- The first line says what all lines say.  Where the later lines hold nothing but trusted proxies,
it is plain or names nobody; where they do not, they name exactly whom it names. -/
def FirstLineSpeaks (trusted : List IpNet) (lines : List HeaderValue) : Prop :=
  ∀ first rest, lines = first :: rest →
    ((∀ hop ∈ hops rest, trustedHop trusted hop) →
      first.Plain ∨ named trusted (hops [first]) = none) ∧
    ((∃ hop ∈ hops rest, trustedHop trusted hop = false) →
      ∀ ip, named trusted (hops rest) = some ip ↔
        first.Plain ∧ named trusted (hops [first]) = some ip)

section Hops

variable {trusted : List IpNet}

lemma hops_cons (first : HeaderValue) (rest : List HeaderValue) :
    hops (first :: rest) = hops [first] ++ hops rest := by
  cases rest with
  | nil => simp [hops]
  | cons second rest =>
    simp only [hops, reduceCtorEq, if_false, List.map_cons, List.map_nil,
      List.intercalate_cons_cons, List.intercalate_singleton, List.append_assoc,
      List.singleton_append]
    exact List.splitOn_append_cons_self _ _

lemma hops_singleton (line : HeaderValue) : hops [line] = line.bytes.splitOn 44 := by
  simp [hops]

/-- Hops behind the last one that is no trusted proxy do not count, nor do those in front. -/
lemma named_append (front back : List Bytes) :
    named trusted (front ++ back) =
      if ∃ hop ∈ back, trustedHop trusted hop = false then named trusted back
      else named trusted front := by
  unfold named
  rw [List.reverse_append, List.find?_append]
  split
  · next h =>
    have hsome : (back.reverse.find? fun hop => !trustedHop trusted hop).isSome := by
      obtain ⟨hop, hmem, huntrusted⟩ := h
      exact List.find?_isSome.mpr ⟨hop, List.mem_reverse.mpr hmem, by simp [huntrusted]⟩
    obtain ⟨hop, hhop⟩ := Option.isSome_iff_exists.mp hsome
    rw [hhop, Option.some_or]
  · next h =>
    have hnone : (back.reverse.find? fun hop => !trustedHop trusted hop) = none := by
      rw [List.find?_eq_none]
      intro hop hmem huntrusted
      exact h ⟨hop, List.mem_reverse.mp hmem, by simpa using huntrusted⟩
    rw [hnone, Option.none_or]

/-- Whom a list of hops names is not trusted. -/
lemma not_isTrusted_of_named {hops : List Bytes} {ip : IpAddr} (h : named trusted hops = some ip) :
    isTrusted trusted ip = false := by
  obtain ⟨hop, hfind, haddr⟩ := Option.bind_eq_some_iff.mp h
  have huntrusted := List.find?_some hfind
  simpa [trustedHop, haddr] using huntrusted

end Hops

/-! ## What the code reads -/

section Reading

variable {trusted : List IpNet} {peer : IpAddr}

lemma ofNat_eq_comma {b : UInt8} : Char.ofNat b.toNat = ',' ↔ b = 44 := by
  constructor
  · intro h
    have hvalid : b.toNat.isValidChar := Or.inl (by have := b.toNat_lt; omega)
    have hnat : (Char.ofNat b.toNat).toNat = b.toNat := by
      rw [Char.ofNat, dif_pos hvalid]
      rfl
    rw [h] at hnat
    exact UInt8.toNat_inj.mp hnat.symm
  · rintro rfl
    decide

/-- Cutting at the commas before or after the bytes are read as characters is the same. -/
lemma splitOn_map_ofNat (bytes : Bytes) :
    (bytes.map fun b => Char.ofNat b.toNat).splitOn ',' =
      (bytes.splitOn 44).map (List.map fun b => Char.ofNat b.toNat) := by
  induction bytes with
  | nil => rfl
  | cons b bytes ih =>
    rw [List.map_cons, List.splitOn_cons_eq_if_modifyHead, List.splitOn_cons_eq_if_modifyHead, ih]
    by_cases hb : b = 44
    · simp [hb]
    · have hc : ¬Char.ofNat b.toNat = ',' := fun h => hb (ofNat_eq_comma.1 h)
      simp only [beq_iff_eq, hb, hc, if_false]
      cases bytes.splitOn 44 <;> simp

/-- The parts of a plain line are plain. -/
lemma all_visible_of_mem_splitOn {bytes : Bytes} (h : bytes.all visible = true) :
    ∀ hop ∈ bytes.splitOn 44, hop.all visible = true := by
  induction bytes with
  | nil => simp
  | cons b bytes ih =>
    rw [List.all_cons, Bool.and_eq_true] at h
    have ih := ih h.2
    rw [List.splitOn_cons_eq_if_modifyHead]
    split
    · simpa using ih
    · cases hparts : bytes.splitOn 44 with
      | nil => simp
      | cons part parts =>
        rw [hparts] at ih
        simp only [List.modifyHead_cons, List.mem_cons, forall_eq_or_imp] at ih ⊢
        exact ⟨by simpa [h.1] using ih.1, ih.2⟩

/-- The loop finds what the hops from the right name. -/
lemma resolveHops_eq (hops : List Bytes) (hplain : ∀ hop ∈ hops, hop.all visible = true) :
    resolveHops peer trusted (hops.map (List.map fun b => Char.ofNat b.toNat)) =
      ((hops.find? fun hop => !trustedHop trusted hop).bind hopAddr?).getD peer := by
  induction hops with
  | nil => rfl
  | cons hop hops ih =>
    have ih := ih fun hop' hmem => hplain hop' (List.mem_cons_of_mem _ hmem)
    have htext : visibleText hop = some (hop.map fun b => Char.ofNat b.toNat) :=
      if_pos (hplain hop List.mem_cons_self)
    have haddr : hopAddr? hop =
        IpAddr.parse? (trimmed (hop.map fun b => Char.ofNat b.toNat)) := by
      rw [hopAddr?, htext, Option.bind_some]
    rw [List.map_cons, resolveHops, List.find?_cons, ← haddr]
    cases hip : hopAddr? hop with
    | none => simp [resolveHop, trustedHop, hip]
    | some ip =>
      cases htrusted : isTrusted trusted ip with
      | true => simpa [resolveHop, trustedHop, hip, htrusted] using ih
      | false => simp [resolveHop, trustedHop, hip, htrusted]

/-- The middleware resolves whom the first line names, if it is plain. -/
lemma clientIp_eq (headers : HeaderMap) :
    clientIp trusted peer headers =
      if isTrusted trusted peer then
        (((headers.getAll "x-forwarded-for").head?.bind fun first =>
          if first.Plain then named trusted (hops [first]) else none)).getD peer
      else peer := by
  unfold clientIp resolve HeaderMap.get
  cases htrusted : isTrusted trusted peer with
  | false => simp
  | true =>
    cases hhead : (headers.getAll "x-forwarded-for").head? with
    | none => simp
    | some first =>
      by_cases hplain : first.Plain
      · have htext : first.toStr = some (first.bytes.map fun b => Char.ofNat b.toNat) :=
          if_pos hplain
        have hparts : ∀ hop ∈ (first.bytes.splitOn 44).reverse, hop.all visible = true :=
          fun hop hmem => all_visible_of_mem_splitOn hplain hop (List.mem_reverse.mp hmem)
        simp only [Option.bind_some, htext, hplain, if_true, Bool.not_true, Bool.false_eq_true,
          if_false]
        rw [splitOn_map_ofNat, ← List.map_reverse, resolveHops_eq _ hparts, hops_singleton, named]
      · have htext : first.toStr = none := if_neg hplain
        simp [htext, hplain]

end Reading

/-! ## When the address is the right one -/

/-- A named address is never the trusted peer, so nothing is lost by falling back to the peer. -/
lemma getD_eq_getD_iff {trusted : List IpNet} {peer : IpAddr} {a b : Option IpAddr}
    (hpeer : isTrusted trusted peer = true) (ha : ∀ ip, a = some ip → isTrusted trusted ip = false)
    (hb : ∀ ip, b = some ip → isTrusted trusted ip = false) :
    a.getD peer = b.getD peer ↔ a = b := by
  have hne : ∀ ip, isTrusted trusted ip = false → ip ≠ peer := by
    rintro ip hip rfl
    rw [hpeer] at hip
    cases hip
  match a, b with
  | none, none => simp
  | none, some ip => simpa using (hne ip (hb ip rfl)).symm
  | some ip, none => simpa using hne ip (ha ip rfl)
  | some ip, some ip' => simp

lemma clientIp_eq_rightMostUntrusted_iff (trusted : List IpNet) (peer : IpAddr)
    (headers : HeaderMap) :
    clientIp trusted peer headers =
        rightMostUntrusted trusted peer (hops (headers.getAll "x-forwarded-for")) ↔
      (isTrusted trusted peer = true →
        FirstLineSpeaks trusted (headers.getAll "x-forwarded-for")) := by
  rw [clientIp_eq, rightMostUntrusted]
  by_cases hpeer : isTrusted trusted peer = true
  swap
  · simp [hpeer]
  rw [if_pos hpeer, if_pos hpeer, getD_eq_getD_iff hpeer]
  · simp only [hpeer, forall_const]
    cases headers.getAll "x-forwarded-for" with
    | nil => simp [FirstLineSpeaks, hops, named]
    | cons first rest =>
      rw [hops_cons, named_append, List.head?_cons, Option.bind_some]
      have hspeaks : FirstLineSpeaks trusted (first :: rest) ↔
          ((∀ hop ∈ hops rest, trustedHop trusted hop) →
            first.Plain ∨ named trusted (hops [first]) = none) ∧
          ((∃ hop ∈ hops rest, trustedHop trusted hop = false) →
            ∀ ip, named trusted (hops rest) = some ip ↔
              first.Plain ∧ named trusted (hops [first]) = some ip) := by
        constructor
        · exact fun h => h first rest rfl
        · rintro h _ _ ⟨⟩
          exact h
      rw [hspeaks]
      by_cases hlater : ∃ hop ∈ hops rest, trustedHop trusted hop = false
      · have hnot : ¬∀ hop ∈ hops rest, trustedHop trusted hop = true := by
          obtain ⟨hop, hmem, huntrusted⟩ := hlater
          intro hall
          rw [hall hop hmem] at huntrusted
          cases huntrusted
        simp only [hnot, hlater, false_implies, true_and, true_implies, if_true]
        rw [Option.ext_iff]
        by_cases hplain : first.Plain
        · simp only [hplain, if_true, true_and]
          exact forall_congr' fun ip => iff_comm
        · simp only [hplain, if_false, false_and, reduceCtorEq]
          exact forall_congr' fun ip => iff_comm
      · have hall : ∀ hop ∈ hops rest, trustedHop trusted hop = true := by
          intro hop hmem
          by_contra hne
          exact hlater ⟨hop, hmem, by simpa using hne⟩
        rw [if_neg hlater]
        simp only [hlater, false_implies, and_true]
        by_cases hplain : first.Plain
        · simp [hplain]
        · simp only [hplain, if_false, false_or]
          exact ⟨fun h _ => h.symm, fun h => (h hall).symm⟩
  · intro ip hip
    obtain ⟨first, -, hip⟩ := Option.bind_eq_some_iff.mp hip
    by_cases hplain : first.Plain
    · rw [if_pos hplain] at hip
      exact not_isTrusted_of_named hip
    · simp [hplain] at hip
  · exact fun ip hip => not_isTrusted_of_named hip

/-- Hops in front of one that is no trusted proxy change nothing. -/
lemma rightMostUntrusted_append (trusted : List IpNet) (peer : IpAddr) {front hops : List Bytes}
    (h : ∃ hop ∈ hops, trustedHop trusted hop = false) :
    rightMostUntrusted trusted peer (front ++ hops) = rightMostUntrusted trusted peer hops := by
  rw [rightMostUntrusted, rightMostUntrusted, named_append, if_pos h]

/-- The middleware resolves the right-most hop that is no trusted proxy exactly when the peer is not
trusted or the first line says what all lines say; and among such requests nothing put in front of
a hop that is no trusted proxy, be it hops or lines, changes the address. -/
theorem clientIp_eq_iff (trusted : List IpNet) (peer : IpAddr) (headers : HeaderMap) :
    (clientIp trusted peer headers =
        rightMostUntrusted trusted peer (hops (headers.getAll "x-forwarded-for")) ↔
      (isTrusted trusted peer = true →
        FirstLineSpeaks trusted (headers.getAll "x-forwarded-for"))) ∧
    ((isTrusted trusted peer = true →
        FirstLineSpeaks trusted (headers.getAll "x-forwarded-for")) →
      (∃ hop ∈ hops (headers.getAll "x-forwarded-for"), trustedHop trusted hop = false) →
      ∀ (headers' : HeaderMap) (front : List Bytes),
        hops (headers'.getAll "x-forwarded-for") =
          front ++ hops (headers.getAll "x-forwarded-for") →
        (isTrusted trusted peer = true →
          FirstLineSpeaks trusted (headers'.getAll "x-forwarded-for")) →
        clientIp trusted peer headers' = clientIp trusted peer headers) := by
  refine ⟨clientIp_eq_rightMostUntrusted_iff trusted peer headers, ?_⟩
  intro hspeaks huntrusted headers' front hfront hspeaks'
  rw [(clientIp_eq_rightMostUntrusted_iff trusted peer headers').mpr hspeaks',
    (clientIp_eq_rightMostUntrusted_iff trusted peer headers).mpr hspeaks, hfront,
    rightMostUntrusted_append trusted peer huntrusted]

/-- A client behind a trusted proxy that adds a line of its own forges its address with a line in
front; and with a byte outside ASCII in front of the one line it takes the proxy's. -/
theorem clientIp_forged :
    let trusted : List IpNet := [.v4 0xAC1E0000#32 24]
    let peer : IpAddr := .v4 0xAC1E0002#32
    -- `198.51.100.7`, `6.6.6.6`, and a byte outside ASCII in front of `198.51.100.7`
    let client : HeaderValue :=
      { bytes := [49, 57, 56, 46, 53, 49, 46, 49, 48, 48, 46, 55] }
    let forged : HeaderValue := { bytes := [54, 46, 54, 46, 54, 46, 54] }
    let foreignFront : HeaderValue :=
      { bytes := [233, 44, 49, 57, 56, 46, 53, 49, 46, 49, 48, 48, 46, 55] }
    let name := "x-forwarded-for"
    clientIp trusted peer [(name, client)] = .v4 0xC6336407#32 ∧
    rightMostUntrusted trusted peer (hops [forged, client]) = .v4 0xC6336407#32 ∧
    clientIp trusted peer [(name, forged), (name, client)] = .v4 0x06060606#32 ∧
    rightMostUntrusted trusted peer (hops [foreignFront]) = .v4 0xC6336407#32 ∧
    clientIp trusted peer [(name, foreignFront)] = peer := by
  decide

end Postit.Api
