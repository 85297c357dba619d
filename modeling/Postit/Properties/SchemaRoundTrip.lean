import Mathlib.Data.List.Nodup
import Mathlib.Logic.Equiv.List
import Mathlib.Tactic.DeriveCountable
import Postit.Core.Schema

/-!
# Schemas read back

A schema that was parsed, written and parsed again is the same schema, but for the floats in its
conditions (`roundTrip`), which the library reads with a precision of its own
(`float_not_read_back`).

Parsing gives well-formed schemas, and a well-formed schema's own document is parsed as itself.
-/

namespace Postit

open Postit.Framework

/-! ## Well-formed schemas -/

/-- Integers of 32 bits. -/
def AllU32 (o : Option ℕ) : Prop := ∀ n ∈ o, n < 2 ^ 32

/-- Integers of 64 bits. -/
def AllI64 (o : Option ℤ) : Prop := ∀ n ∈ o, -2 ^ 63 ≤ n ∧ n ≤ maxI64

/-- The constraints of a kind agree with each other and with its default. -/
def FieldKind.WellFormed (graphemeLen : String → ℕ) : FieldKind → Prop
  | .string minLength maxLength default_ =>
    ordered minLength maxLength ∧ fits graphemeLen minLength maxLength default_ ∧
      AllU32 minLength ∧ AllU32 maxLength
  | .multilineText maxLength default_ => fits graphemeLen none maxLength default_ ∧ AllU32 maxLength
  | .enum values default_ =>
    values ≠ [] ∧ (values.map (·.value)).Nodup ∧ ∀ d ∈ default_, d ∈ values.map (·.value)
  | .boolean _ => True
  | .integer minimum maximum default_ =>
    ordered minimum maximum ∧ (∀ d ∈ default_, atLeast minimum d ∧ atMost maximum d) ∧
      AllI64 minimum ∧ AllI64 maximum ∧ AllI64 default_
  | .dateTime => True

/-- How deep the value of a condition is nested at most, four levels below the root. -/
def equalsDepth : ℕ := 123

/-- What a parsed field is. -/
structure SchemaField.WellFormed (graphemeLen : String → ℕ) (earlier : List String)
    (f : SchemaField) : Prop where
  kind : f.kind.WellFormed graphemeLen
  noDefault : f.noDefault = true → f.kind.defaultValue = none
  consentText : f.consentText.isSome → ∃ d, f.kind = .boolean d
  dependsOn : ∀ d ∈ f.dependsOn, d.field ∈ earlier ∧ d.equals.Fit equalsDepth

/-- What parsed fields are, each depending on those before it. -/
def FieldsWellFormed (graphemeLen : String → ℕ) : List String → List SchemaField → Prop
  | _, [] => True
  | earlier, f :: fs =>
    f.WellFormed graphemeLen earlier ∧ FieldsWellFormed graphemeLen (earlier ++ [f.name]) fs

/-- What a parsed schema is. -/
structure OptionsSchema.WellFormed (graphemeLen : String → ℕ) (s : OptionsSchema) : Prop where
  names : (s.fields.map (·.name)).Nodup
  fields : FieldsWellFormed graphemeLen [] s.fields

/-! ## What is parsed is well-formed -/

variable {codec : TextCodec} {graphemeLen : String → ℕ} {path : String}

lemma ensure_ok {condition : Prop} [Decidable condition] {err : SchemaError} {u : Unit}
    (h : ensure condition err = .ok u) : condition := by
  unfold ensure at h
  split_ifs at h with hc
  exact hc

lemma takeWith_ok {α : Type} {obj obj' : Members} {key : String}
    {read : Option Json → Except SchemaError α} {a : α}
    (h : takeWith obj key read = .ok (a, obj')) :
    read (obj.get? key) = .ok a ∧ obj' = obj.remove key := by
  unfold takeWith at h
  cases hread : read (obj.get? key) with
  | error err => simp [hread] at h
  | ok b =>
    simp only [hread, Except.ok.injEq, Prod.mk.injEq] at h
    obtain ⟨rfl, rfl⟩ := h
    exact ⟨rfl, rfl⟩

lemma takeU32_ok {obj obj' : Members} {key : String} {n : Option ℕ}
    (h : takeU32 obj key path = .ok (n, obj')) : AllU32 n ∧ obj' = obj.remove key := by
  obtain ⟨hread, hrest⟩ := takeWith_ok h
  refine ⟨fun m hm => ?_, hrest⟩
  cases hm
  cases hget : Members.get? obj key with
  | none => simp [hget] at hread
  | some v =>
    simp only [hget] at hread
    cases hv : v.asU32 with
    | none => simp [hv, invalid] at hread
    | some k =>
      simp only [hv, Except.ok.injEq, Option.some.injEq] at hread
      subst hread
      unfold Json.asU32 at hv
      split at hv
      · split_ifs at hv with hlt
        cases hv
        exact hlt
      · cases hv

lemma JsonNumber.asI64_range {n : JsonNumber} (hheld : n.Held) {k : ℤ} (h : n.asI64 = some k) :
    -2 ^ 63 ≤ k ∧ k ≤ maxI64 := by
  cases n with
  | posInt m =>
    simp only [JsonNumber.asI64] at h
    split_ifs at h with hle
    cases h
    exact ⟨by omega, hle⟩
  | negInt m =>
    cases h
    obtain ⟨hlow, hneg⟩ := hheld
    exact ⟨hlow, by unfold maxI64; omega⟩
  | float bits => cases h

lemma asI64_range {v : Json} (hheld : v.Held) {k : ℤ} (h : v.asI64 = some k) :
    -2 ^ 63 ≤ k ∧ k ≤ maxI64 := by
  cases v with
  | number n =>
    rw [Json.Held] at hheld
    exact n.asI64_range hheld h
  | _ => cases h

lemma takeI64_ok {obj obj' : Members} {key : String} {n : Option ℤ}
    (hheld : ∀ v, obj.get? key = some v → v.Held)
    (h : takeI64 obj key path = .ok (n, obj')) : AllI64 n ∧ obj' = obj.remove key := by
  obtain ⟨hread, hrest⟩ := takeWith_ok h
  refine ⟨fun m hm => ?_, hrest⟩
  cases hm
  cases hget : Members.get? obj key with
  | none => simp [hget] at hread
  | some v =>
    simp only [hget] at hread
    cases hv : v.asI64 with
    | none => simp [hv, invalid] at hread
    | some k =>
      simp only [hv, Except.ok.injEq, Option.some.injEq] at hread
      subst hread
      exact asI64_range (hheld v hget) hv

lemma intDefault_ok {default_ : Option Json} (hheld : ∀ v ∈ default_, v.Held) {n : Option ℤ}
    (h : intDefault path default_ = .ok n) : AllI64 n := by
  intro m hm
  cases hm
  cases default_ with
  | none => simp [intDefault] at h
  | some v =>
    unfold intDefault at h
    cases hv : v.asI64 with
    | none => simp [hv, invalid] at h
    | some k =>
      simp only [hv, Except.ok.injEq, Option.some.injEq] at h
      subst h
      exact asI64_range (hheld v rfl) hv

lemma labelled_ok {values : List String} {labels : List Json} {vs : List EnumValue}
    (hlen : labels.length = values.length) (h : labelled path values labels = .ok vs) :
    vs.map (·.value) = values := by
  induction values generalizing labels vs with
  | nil =>
    cases h
    rfl
  | cons value values ih =>
    cases labels with
    | nil => cases hlen
    | cons label labels =>
      unfold labelled at h
      cases hlabel : message label "x-postit-enum-labels" path with
      | error err => simp [hlabel] at h
      | ok m =>
        simp only [hlabel] at h
        cases hrest : labelled path values labels with
        | error err => simp [hrest] at h
        | ok rest =>
          simp only [hrest, Except.ok.injEq] at h
          subst h
          rw [List.map_cons, ih (Nat.succ.inj hlen) hrest]

lemma enumKind_ok {values : Json} {labels : Option Json} {default_ : Option String}
    {kind : FieldKind} (h : enumKind values labels default_ path = .ok kind) :
    kind.WellFormed graphemeLen ∧ kind.defaultValue = default_.map .string := by
  obtain ⟨values, hvalues, h⟩ := bind_eq_ok h
  obtain ⟨u, hne, h⟩ := bind_eq_ok h
  obtain ⟨u, hnodup, h⟩ := bind_eq_ok h
  obtain ⟨labels, hlabels, h⟩ := bind_eq_ok h
  obtain ⟨u, hlen, h⟩ := bind_eq_ok h
  obtain ⟨u, hdefault, h⟩ := bind_eq_ok h
  obtain ⟨vs, hvs, h⟩ := bind_eq_ok h
  cases h
  have hmap := labelled_ok (ensure_ok hlen) hvs
  refine ⟨⟨fun hnil => ensure_ok hne ?_, ?_, ?_⟩, rfl⟩
  · rw [← hmap, hnil]
    rfl
  · rw [hmap]
    exact ensure_ok hnodup
  · rw [hmap]
    exact ensure_ok hdefault

/-- What a string property is read as, it may be. -/
lemma stringForm_ok {format values labels : Option Json} {multiline : Bool}
    {minLength maxLength : Option ℕ} {default_ : Option String} {kind : FieldKind}
    (hordered : ordered minLength maxLength) (hmin : AllU32 minLength) (hmax : AllU32 maxLength)
    (hfits : fits graphemeLen minLength maxLength default_)
    (h : stringForm path format values labels multiline minLength maxLength default_ = .ok kind) :
    kind.WellFormed graphemeLen ∧ kind.defaultValue = default_.map .string := by
  unfold stringForm at h
  split at h
  · obtain ⟨u, hnone, h⟩ := bind_eq_ok h
    cases h
    obtain ⟨-, -, -, -, -, hdefault⟩ := ensure_ok hnone
    exact ⟨trivial, by rw [hdefault]; rfl⟩
  · cases h
  · obtain ⟨u, -, h⟩ := bind_eq_ok h
    exact enumKind_ok h
  · obtain ⟨u, -, h⟩ := bind_eq_ok h
    split_ifs at h
    · obtain ⟨u, hmin, h⟩ := bind_eq_ok h
      cases h
      have hnone := ensure_ok hmin
      subst hnone
      exact ⟨⟨hfits, hmax⟩, rfl⟩
    · cases h
      exact ⟨⟨hordered, hfits, hmin, hmax⟩, rfl⟩

lemma stringDefault_ok {default_ : Option Json} {d : Option String}
    (h : stringDefault path default_ = .ok d) : default_ = d.map .string := by
  unfold stringDefault at h
  split at h <;> cases h <;> rfl

lemma stringKind_ok {obj rest : Members} {default_ : Option Json} {kind : FieldKind}
    (h : stringKind graphemeLen obj path default_ = .ok (kind, rest)) :
    kind.WellFormed graphemeLen ∧ kind.defaultValue = default_ := by
  obtain ⟨⟨multiline, obj₁⟩, -, h⟩ := bind_eq_ok h
  obtain ⟨⟨minLength, obj₂⟩, hmin, h⟩ := bind_eq_ok h
  obtain ⟨⟨maxLength, obj₃⟩, hmax, h⟩ := bind_eq_ok h
  obtain ⟨u, hordered, h⟩ := bind_eq_ok h
  obtain ⟨d, hdefault, h⟩ := bind_eq_ok h
  obtain ⟨u, hfits, h⟩ := bind_eq_ok h
  obtain ⟨kind', hkind, h⟩ := bind_eq_ok h
  cases h
  rw [stringDefault_ok hdefault]
  exact stringForm_ok (ensure_ok hordered) (takeU32_ok hmin).1 (takeU32_ok hmax).1
    (ensure_ok hfits) hkind

lemma Members.get?_of_remove {obj : Members} {key k : String} {v : Json}
    (h : (obj.remove key).get? k = some v) : obj.get? k = some v := by
  rw [Members.get?_remove] at h
  split_ifs at h
  exact h

lemma integerKind_ok {obj rest : Members} {default_ : Option Json} {kind : FieldKind}
    (hheld : ∀ k v, obj.get? k = some v → v.Held) (hdefaults : ∀ v ∈ default_, v.Held)
    (h : integerKind obj path default_ = .ok (kind, rest)) :
    kind.WellFormed graphemeLen ∧ (kind.defaultValue = none ↔ default_ = none) := by
  obtain ⟨⟨minimum, obj₁⟩, hmin, h⟩ := bind_eq_ok h
  obtain ⟨⟨maximum, obj₂⟩, hmax, h⟩ := bind_eq_ok h
  obtain ⟨u, hordered, h⟩ := bind_eq_ok h
  obtain ⟨d, hdefault, h⟩ := bind_eq_ok h
  obtain ⟨u, hwithin, h⟩ := bind_eq_ok h
  cases h
  obtain ⟨hminimum, rfl⟩ := takeI64_ok (hheld "minimum") hmin
  obtain ⟨hmaximum, rfl⟩ := takeI64_ok (fun v hv => hheld _ v (Members.get?_of_remove hv)) hmax
  refine ⟨⟨ensure_ok hordered, ensure_ok hwithin, hminimum, hmaximum,
    intDefault_ok hdefaults hdefault⟩, ?_⟩
  cases default_ with
  | none =>
    cases hdefault
    exact ⟨fun _ => rfl, fun _ => rfl⟩
  | some v =>
    simp only [intDefault] at hdefault
    cases hv : v.asI64 with
    | none => simp [hv, invalid] at hdefault
    | some k =>
      simp only [hv, Except.ok.injEq] at hdefault
      subst hdefault
      simp [FieldKind.defaultValue]

/-- The parts of a kind, whatever the type. -/
lemma fieldKind_ok {ty : String} {obj rest : Members} {default_ : Option Json} {kind : FieldKind}
    {consentText : Option Message} (hheld : ∀ k v, obj.get? k = some v → v.Held)
    (hdefaults : ∀ v ∈ default_, v.Held)
    (h : fieldKind graphemeLen ty obj path default_ = .ok (kind, consentText, rest)) :
    kind.WellFormed graphemeLen ∧ (kind.defaultValue = none ↔ default_ = none) ∧
      (consentText.isSome → ∃ d, kind = .boolean d) := by
  unfold fieldKind at h
  split at h
  · obtain ⟨⟨kind', obj'⟩, hkind, h⟩ := bind_eq_ok h
    cases h
    obtain ⟨hwf, hdefault⟩ := stringKind_ok hkind
    exact ⟨hwf, by rw [hdefault], (fun hsome => nomatch hsome)⟩
  · obtain ⟨⟨consent, obj'⟩, -, h⟩ := bind_eq_ok h
    obtain ⟨d, hdefault, h⟩ := bind_eq_ok h
    cases h
    refine ⟨trivial, ?_, fun _ => ⟨d, rfl⟩⟩
    unfold boolDefault at hdefault
    split at hdefault <;> cases hdefault <;> simp [FieldKind.defaultValue]
  · obtain ⟨⟨kind', obj'⟩, hkind, h⟩ := bind_eq_ok h
    cases h
    obtain ⟨hwf, hdefault⟩ := integerKind_ok hheld hdefaults hkind
    exact ⟨hwf, hdefault, (fun hsome => nomatch hsome)⟩

lemma refuseRest_ok {rest : Members} {err : String → SchemaError} {u : Unit}
    (h : refuseRest rest err = .ok u) : rest = [] := by
  unfold refuseRest at h
  split at h
  · rfl
  · cases h

lemma parseDependsOn_ok {v : Json} {earlier : List SchemaField} {d : DependsOn} {n : ℕ}
    (hv : v.Fit (n + 1)) (h : parseDependsOn v path earlier = .ok d) :
    d.field ∈ earlier.map (·.name) ∧ d.equals.Fit n := by
  obtain ⟨o, ho, h⟩ := bind_eq_ok h
  obtain ⟨field, hfield, h⟩ := bind_eq_ok h
  obtain ⟨equals, hequals, h⟩ := bind_eq_ok h
  obtain ⟨u, hrest, h⟩ := bind_eq_ok h
  obtain ⟨u, hearlier, h⟩ := bind_eq_ok h
  cases h
  refine ⟨ensure_ok hearlier, ?_⟩
  cases v with
  | object ms =>
    cases ho
    unfold dependsOnEquals at hequals
    split at hequals
    · next w hget =>
      cases hequals
      exact hv.of_mem (Members.mem_of_get? (Members.get?_of_remove hget))
    · cases hequals
  | _ => cases ho

lemma takeDependsOn_ok {obj rest : Members} {earlier : List SchemaField} {n : ℕ}
    {dependsOn : Option DependsOn}
    (hfit : ∀ v, obj.get? "x-postit-depends-on" = some v → v.Fit (n + 1))
    (h : takeDependsOn obj path earlier = .ok (dependsOn, rest)) :
    (∀ d ∈ dependsOn, d.field ∈ earlier.map (·.name) ∧ d.equals.Fit n) ∧
      rest = obj.remove "x-postit-depends-on" := by
  obtain ⟨hread, hrest⟩ := takeWith_ok h
  refine ⟨fun d hd => ?_, hrest⟩
  cases hd
  cases hget : Members.get? obj "x-postit-depends-on" with
  | none => simp [hget] at hread
  | some v =>
    simp only [hget] at hread
    obtain ⟨d', hd', heq⟩ := map_eq_ok hread
    cases heq
    exact parseDependsOn_ok (hfit v hget) hd'

/-- A parsed field is well-formed. -/
lemma parseField_ok {name : String} {value : Json} {required : Bool} {earlier : List SchemaField}
    {f : SchemaField} (hvalue : value.Fit (equalsDepth + 2))
    (h : parseField codec graphemeLen name value required earlier = .ok f) :
    f.name = name ∧ f.required = required ∧ f.WellFormed graphemeLen (earlier.map (·.name)) := by
  obtain ⟨obj, hobj, h⟩ := bind_eq_ok h
  obtain ⟨u, hknown, h⟩ := bind_eq_ok h
  obtain ⟨ty, hty, h⟩ := bind_eq_ok h
  obtain ⟨u, htype, h⟩ := bind_eq_ok h
  obtain ⟨⟨label?, obj₁⟩, hlabel, h⟩ := bind_eq_ok h
  obtain ⟨label, -, h⟩ := bind_eq_ok h
  obtain ⟨⟨help, obj₂⟩, hhelp, h⟩ := bind_eq_ok h
  obtain ⟨⟨noDefault, obj₃⟩, hnoDefault, h⟩ := bind_eq_ok h
  obtain ⟨⟨secret, obj₄⟩, hsecret, h⟩ := bind_eq_ok h
  obtain ⟨⟨dependsOn, obj₅⟩, hdependsOn, h⟩ := bind_eq_ok h
  obtain ⟨u, hforbids, h⟩ := bind_eq_ok h
  obtain ⟨⟨kind, consentText, obj₆⟩, hkind, h⟩ := bind_eq_ok h
  obtain ⟨u, hrest, h⟩ := bind_eq_ok h
  cases h
  cases value with
  | object ms =>
    cases hobj
    -- every value read is one of the object's
    have hfit : ∀ k v, Members.get? obj k = some v → v.Fit (equalsDepth + 1) :=
      fun k v hget => hvalue.of_mem (Members.mem_of_get? hget)
    obtain ⟨-, rfl⟩ := takeWith_ok hlabel
    obtain ⟨-, rfl⟩ := takeWith_ok hhelp
    obtain ⟨-, rfl⟩ := takeWith_ok hnoDefault
    obtain ⟨-, rfl⟩ := takeWith_ok hsecret
    have hfit₄ : ∀ k v, Members.get? (Members.remove (Members.remove (Members.remove
        (Members.remove (Members.remove obj "type") "x-postit-label") "x-postit-help")
          "x-postit-no-default") "x-postit-secret") k = some v → v.Fit (equalsDepth + 1) :=
      fun k v hget => hfit k v (Members.get?_of_remove (Members.get?_of_remove
        (Members.get?_of_remove (Members.get?_of_remove (Members.get?_of_remove hget)))))
    obtain ⟨hdepends, rfl⟩ := takeDependsOn_ok (hfit₄ _) hdependsOn
    obtain ⟨hkindWf, hdefault, hconsent⟩ := fieldKind_ok
      (fun k v hget => (hfit₄ k v (Members.get?_of_remove (Members.get?_of_remove hget))).held)
      (fun v hget => (hfit₄ _ v (Members.get?_of_remove hget)).held) hkind
    refine ⟨rfl, rfl, hkindWf, fun hno => hdefault.mpr ?_, hconsent, hdepends⟩
    by_contra hsome
    exact ensure_ok hforbids ⟨hno, Option.isSome_iff_ne_none.mpr hsome⟩
  | _ => cases hobj

/-- Parsed fields are well-formed and have the names of their properties. -/
lemma parseFields_ok {required : List String} {properties : Members}
    {earlier fields : List SchemaField} (hvalues : ∀ m ∈ properties, m.2.Fit (equalsDepth + 2))
    (h : parseFields codec graphemeLen required properties earlier = .ok fields) :
    ∃ fs, fields = earlier ++ fs ∧ fs.map (·.name) = properties.map Prod.fst ∧
      FieldsWellFormed graphemeLen (earlier.map (·.name)) fs := by
  induction properties generalizing earlier with
  | nil =>
    cases h
    exact ⟨[], by rw [List.append_nil], rfl, trivial⟩
  | cons m properties ih =>
    obtain ⟨name, value⟩ := m
    unfold parseFields at h
    cases hfield : parseField codec graphemeLen name value (decide (name ∈ required)) earlier with
    | error err => simp [hfield] at h
    | ok f =>
      simp only [hfield] at h
      obtain ⟨hname, -, hwf⟩ := parseField_ok (hvalues _ List.mem_cons_self) hfield
      obtain ⟨fs, hfs, hnames, hwfs⟩ := ih (fun m hm => hvalues m (List.mem_cons_of_mem _ hm)) h
      refine ⟨f :: fs, by rw [hfs, List.append_assoc]; rfl, ?_, hwf, ?_⟩
      · rw [List.map_cons, hnames, hname]
        rfl
      · rw [List.map_append] at hwfs
        exact hwfs

lemma duplicateKey_eq_none {ms : Members} {seen : List String}
    (h : duplicateKey ms seen = none) :
    (ms.map Prod.fst).Nodup ∧ ∀ k ∈ ms.map Prod.fst, k ∉ seen := by
  induction ms generalizing seen with
  | nil => simp
  | cons m ms ih =>
    obtain ⟨key, v⟩ := m
    unfold duplicateKey at h
    split_ifs at h with hseen
    obtain ⟨hnodup, hnot⟩ := ih h
    rw [List.map_cons]
    refine ⟨List.nodup_cons.mpr ⟨fun hmem => hnot key hmem List.mem_cons_self, hnodup⟩, ?_⟩
    intro k hk
    rcases List.mem_cons.mp hk with rfl | hk
    · exact hseen
    · exact fun hmem => hnot k hk (List.mem_cons_of_mem _ hmem)

lemma readOrdered_ok {doc : Json} {properties : Members}
    (h : readOrdered doc = .ok properties) :
    ∃ ms : Members, doc = .object ms ∧ (ms.map Prod.fst).Nodup ∧
      properties = ms.map fun m => (m.1, m.2.collect) := by
  cases doc with
  | object ms =>
    unfold readOrdered at h
    cases hdup : duplicateKey ms [] with
    | some key => simp [hdup, invalid] at h
    | none =>
      simp only [hdup, Except.ok.injEq] at h
      exact ⟨ms, rfl, (duplicateKey_eq_none hdup).1, h.symm⟩
  | _ => cases h

lemma readRoot_ok {doc : Json} {root : Root} (h : readRoot doc = .ok root) :
    ∃ ms : Members, doc = .object ms ∧ ∀ properties, root.properties = some properties →
      ∃ pdoc, Members.get? ms "properties" = some pdoc ∧ readOrdered pdoc = .ok properties := by
  cases doc with
  | object ms =>
    refine ⟨ms, rfl, fun properties hroot => ?_⟩
    unfold readRoot at h
    cases hdup : duplicateKey ms [] with
    | some key => simp [hdup, invalid] at h
    | none =>
      simp only [hdup] at h
      cases hget : Members.get? ms "properties" with
      | none =>
        simp only [hget, Except.ok.injEq] at h
        subst h
        cases hroot
      | some pdoc =>
        simp only [hget] at h
        cases hordered : readOrdered pdoc with
        | error err => simp [hordered] at h
        | ok ps =>
          simp only [hordered, Except.ok.injEq] at h
          subst h
          cases hroot
          exact ⟨pdoc, rfl, hordered⟩
  | _ => cases h

/-- What is parsed is well-formed. -/
lemma ofDocument_ok {doc : Json} {s : OptionsSchema} (hdepth : doc.depth ≤ depthLimit)
    (hheld : doc.Held) (h : OptionsSchema.ofDocument codec graphemeLen doc = .ok s) :
    s.WellFormed graphemeLen := by
  unfold OptionsSchema.ofDocument at h
  cases hroot : readRoot doc with
  | error err => simp [hroot] at h
  | ok root =>
    simp only [hroot] at h
    obtain ⟨u, -, h⟩ := bind_eq_ok h
    obtain ⟨properties, hproperties, h⟩ := bind_eq_ok h
    obtain ⟨required, -, h⟩ := bind_eq_ok h
    obtain ⟨u, -, h⟩ := bind_eq_ok h
    obtain ⟨u, -, h⟩ := bind_eq_ok h
    obtain ⟨u, -, h⟩ := bind_eq_ok h
    obtain ⟨fields, hfields, h⟩ := bind_eq_ok h
    cases h
    -- the properties are the members of an object in the document, each key once
    obtain ⟨ms, rfl, hget⟩ := readRoot_ok hroot
    obtain ⟨pdoc, hpdoc, hordered⟩ : ∃ pdoc, Members.get? ms "properties" = some pdoc ∧
        readOrdered pdoc = .ok properties := by
      unfold rootProperties at hproperties
      split at hproperties
      · next ps hps =>
        cases hproperties
        exact hget _ hps
      · cases hproperties
    obtain ⟨ps, rfl, hnodup, rfl⟩ := readOrdered_ok hordered
    have hmem := Members.mem_of_get? hpdoc
    have hvalues : ∀ m ∈ ps.map (fun m : String × Json => (m.1, m.2.collect)),
        m.2.Fit (equalsDepth + 2) := by
      intro m hm
      obtain ⟨p, hp, rfl⟩ := List.mem_map.mp hm
      exact Json.fit_collect (Json.held_of_mem (Json.held_of_mem hheld hmem) hp)
        (Json.depth_of_mem (Json.depth_of_mem hdepth hmem) hp)
    obtain ⟨fs, rfl, hnames, hwf⟩ := parseFields_ok hvalues hfields
    refine ⟨?_, hwf⟩
    rw [hnames, List.map_map]
    exact hnodup

/-- A schema parsed from a text is well-formed. -/
lemma fromJsonStr_ok (hcodec : codec.ReadsBack) {src : String} {s : OptionsSchema}
    (h : OptionsSchema.fromJsonStr codec graphemeLen src = .ok s) : s.WellFormed graphemeLen := by
  unfold OptionsSchema.fromJsonStr at h
  cases hread : codec.read src with
  | error reason => simp [hread, invalid] at h
  | ok doc =>
    simp only [hread] at h
    exact ofDocument_ok (hcodec.depth_le _ _ hread) (hcodec.held _ _ hread) h

/-! ## A well-formed schema is parsed as itself -/

@[simp] lemma ok_bind {ε α β : Type} (a : α) (f : α → Except ε β) : (Except.ok a >>= f) = f a := rfl

lemma ensure_of {condition : Prop} [Decidable condition] (h : condition) (err : SchemaError) :
    ensure condition err = .ok () := if_pos h

@[simp] lemma ensure_true {inst : Decidable True} (err : SchemaError) :
    @ensure True inst err = .ok () := if_pos trivial

lemma Message.ofJson_toJson (m : Message) : Message.ofJson m.toJson = some m := by
  simp [Message.toJson, Message.ofJson, Members.get?_insert]

lemma message_toJson (m : Message) (key path : String) : message m.toJson key path = .ok m := by
  simp [message, Message.ofJson_toJson]

lemma takeWith_of {α : Type} {obj : Members} {key : String}
    {read : Option Json → Except SchemaError α} {a : α} (h : read (obj.get? key) = .ok a) :
    takeWith obj key read = .ok (a, obj.remove key) := by
  rw [takeWith, h]

lemma takeMessage_of {obj : Members} {key : String} {m : Option Message}
    (h : obj.get? key = m.map Message.toJson) :
    takeMessage obj key path = .ok (m, obj.remove key) := by
  refine takeWith_of ?_
  rw [h]
  cases m with
  | none => rfl
  | some m =>
    simp only [Option.map_some, message_toJson]
    rfl

lemma takeBool_of {obj : Members} {key : String} {b : Bool}
    (h : obj.get? key = if b = true then some (.bool true) else none) :
    takeBool obj key path = .ok (b, obj.remove key) := by
  refine takeWith_of ?_
  rw [h]
  cases b <;> rfl

lemma takeU32_of {obj : Members} {key : String} {n : Option ℕ} (hn : AllU32 n)
    (h : obj.get? key = n.map jsonNat) : takeU32 obj key path = .ok (n, obj.remove key) := by
  refine takeWith_of ?_
  rw [h]
  cases n with
  | none => rfl
  | some n =>
    have hlt : n < 2 ^ 32 := hn n rfl
    simp only [Option.map_some, jsonNat, Json.asU32, if_pos hlt]

lemma asI64_jsonInt {n : ℤ} (hn : -2 ^ 63 ≤ n ∧ n ≤ maxI64) : (jsonInt n).asI64 = some n := by
  unfold jsonInt JsonNumber.ofI64 Json.asI64
  split_ifs with hpos
  · have hcast : (n.toNat : ℤ) = n := Int.toNat_of_nonneg hpos
    simp only [JsonNumber.asI64, hcast]
    rw [if_pos hn.2]
  · rfl

lemma takeI64_of {obj : Members} {key : String} {n : Option ℤ} (hn : AllI64 n)
    (h : obj.get? key = n.map jsonInt) : takeI64 obj key path = .ok (n, obj.remove key) := by
  refine takeWith_of ?_
  rw [h]
  cases n with
  | none => rfl
  | some n => simp [asI64_jsonInt (hn n rfl)]

lemma parseDependsOn_toJson {d : DependsOn} {earlier : List SchemaField}
    (h : d.field ∈ earlier.map (·.name)) : parseDependsOn d.toJson path earlier = .ok d := by
  have hrest : ((Members.insert (Members.insert [] "field" (.string d.field)) "equals"
      d.equals).remove "field").remove "equals" = [] := by
    refine Members.eq_nil_of_get? fun key => ?_
    simp only [Members.get?_remove, Members.get?_insert, Members.get?_nil]
    split_ifs <;> rfl
  unfold parseDependsOn DependsOn.toJson
  simp only [dependsOnMembers, ok_bind, Members.get?_remove, Members.get?_insert,
    Members.get?_nil, String.reduceEq, if_true, if_false, dependsOnField, dependsOnEquals, hrest,
    refuseRest, ensure_of h]

lemma takeDependsOn_of {obj : Members} {earlier : List SchemaField} {d : Option DependsOn}
    (hearlier : ∀ c ∈ d, c.field ∈ earlier.map (·.name))
    (h : obj.get? "x-postit-depends-on" = d.map DependsOn.toJson) :
    takeDependsOn obj path earlier = .ok (d, obj.remove "x-postit-depends-on") := by
  refine takeWith_of ?_
  rw [h]
  cases d with
  | none => rfl
  | some d =>
    simp only [Option.map_some, parseDependsOn_toJson (hearlier d rfl)]
    rfl

lemma strings_map (err : SchemaError) (ss : List String) :
    strings err (ss.map .string) = .ok ss := by
  induction ss with
  | nil => rfl
  | cons s ss ih => rw [List.map_cons, strings, ih]

lemma labelled_map (vs : List EnumValue) :
    labelled path (vs.map (·.value)) (vs.map fun v => v.label.toJson) = .ok vs := by
  induction vs with
  | nil => rfl
  | cons v vs ih => simp only [List.map_cons, labelled, message_toJson, ih]

lemma get?_insert_or (o : Members) (key : String) (v : Json) (k : String) :
    Members.get? (o.insert key v) k = (if k = key then some v else none).or (o.get? k) := by
  rw [Members.get?_insert]
  split_ifs <;> rfl

lemma get?_insertOpt (o : Members) (key : String) (v : Option Json) (k : String) :
    Members.get? (insertOpt o key v) k = (if k = key then v else none).or (o.get? k) := by
  cases v with
  | none =>
    rw [ite_self]
    rfl
  | some v => exact get?_insert_or o key v k

lemma get?_ite (b : Bool) (o o' : Members) (k : String) :
    Members.get? (if b = true then o else o') k =
      if b = true then Members.get? o k else Members.get? o' k := by
  split_ifs <;> rfl

/-- Members are refused only under a key they have. -/
lemma filter_eq_nil_of_get? {ms : Members} {p : String → Prop} [DecidablePred p]
    (h : ∀ key, p key → ms.get? key = none) : (ms.filter fun m => p m.1) = [] := by
  refine List.filter_eq_nil_iff.mpr fun m hm hp => ?_
  have hnone := h m.1 (by simpa using hp)
  have hsome : ∀ ms : Members, m ∈ ms → ms.get? m.1 ≠ none := by
    intro ms hm
    induction ms with
    | nil => cases hm
    | cons n ms ih =>
      obtain ⟨k, w⟩ := n
      rw [Members.get?_cons]
      split_ifs with hk
      · exact Option.some_ne_none w
      · rcases List.mem_cons.mp hm with rfl | hm
        · exact absurd rfl hk
        · exact ih hm
  exact hsome ms hm hnone

/-- The keywords that any kind may have, and those of its own. -/
lemma get?_members (f : SchemaField) (k : String) :
    Members.get? f.members k =
      (if k = "default" then f.kind.defaultValue else none).or
        (Members.get? (f.kind.insertInto f.hints) k) :=
  get?_insertOpt _ _ _ _

lemma get?_hints (f : SchemaField) (k : String) :
    Members.get? f.hints k =
      if k = "x-postit-depends-on" then f.dependsOn.map DependsOn.toJson
      else if k = "x-postit-consent-text" then f.consentText.map Message.toJson
      else if k = "x-postit-secret" then if f.secret = true then some (.bool true) else none
      else if k = "x-postit-no-default" then if f.noDefault = true then some (.bool true) else none
      else if k = "x-postit-help" then f.help.map Message.toJson
      else if k = "x-postit-label" then some f.label.toJson
      else none := by
  unfold SchemaField.hints
  simp only [get?_insertOpt, get?_insert_or, get?_ite, Members.get?_nil]
  split_ifs <;> simp_all

/-- The type a kind is written with. -/
def FieldKind.typeName : FieldKind → String
  | .boolean _ => "boolean"
  | .integer _ _ _ => "integer"
  | .string _ _ _ | .multilineText _ _ | .enum _ _ | .dateTime => "string"

/-- The keywords of a kind, but its type and default. -/
def FieldKind.ownAt (kind : FieldKind) (k : String) : Option Json :=
  match kind with
  | .string minLength maxLength _ =>
    if k = "minLength" then minLength.map jsonNat
    else if k = "maxLength" then maxLength.map jsonNat
    else none
  | .multilineText maxLength _ =>
    if k = "x-postit-multiline" then some (.bool true)
    else if k = "maxLength" then maxLength.map jsonNat
    else none
  | .enum values _ =>
    if k = "enum" then some (.array (values.map fun v => .string v.value))
    else if k = "x-postit-enum-labels" then some (.array (values.map fun v => v.label.toJson))
    else none
  | .integer minimum maximum _ =>
    if k = "minimum" then minimum.map jsonInt
    else if k = "maximum" then maximum.map jsonInt
    else none
  | .boolean _ => none
  | .dateTime => if k = "format" then some (.string "date-time") else none

lemma get?_insertInto (kind : FieldKind) (o : Members) (k : String) :
    Members.get? (kind.insertInto o) k =
      if k = "type" then some (.string kind.typeName) else (kind.ownAt k).or (o.get? k) := by
  cases kind <;> simp only [FieldKind.insertInto, FieldKind.ownAt, FieldKind.typeName,
    get?_insertOpt, get?_insert_or] <;> split_ifs <;> simp_all

/-- The members that only the type of the field reads. -/
def SchemaField.typed (f : SchemaField) : Members :=
  ((((((f.members.remove "type").remove "x-postit-label").remove "x-postit-help").remove
    "x-postit-no-default").remove "x-postit-secret").remove "x-postit-depends-on").remove "default"

/-- The keywords that any kind of field may have. -/
def commonKeywords : List String :=
  ["type", "x-postit-label", "x-postit-help", "x-postit-no-default", "x-postit-secret",
    "x-postit-depends-on", "default"]

lemma get?_typed (f : SchemaField) (k : String) :
    Members.get? f.typed k =
      if k ∈ commonKeywords then none
      else (f.kind.ownAt k).or
        (if k = "x-postit-consent-text" then f.consentText.map Message.toJson else none) := by
  unfold SchemaField.typed
  simp only [Members.get?_remove, get?_members, get?_insertInto, get?_hints, commonKeywords,
    List.mem_cons, List.not_mem_nil, or_false]
  by_cases hcommon : k = "type" ∨ k = "x-postit-label" ∨ k = "x-postit-help" ∨
      k = "x-postit-no-default" ∨ k = "x-postit-secret" ∨ k = "x-postit-depends-on" ∨ k = "default"
  · rw [if_pos hcommon]
    rcases hcommon with rfl | rfl | rfl | rfl | rfl | rfl | rfl <;> simp
  · rw [if_neg hcommon]
    simp only [not_or] at hcommon
    obtain ⟨h1, h2, h3, h4, h5, h6, h7⟩ := hcommon
    simp only [h1, h2, h3, h4, h5, h6, h7, if_false, Option.none_or]

/-- What is left of a string's members. -/
def stringRest (obj : Members) : Members :=
  (((((obj.remove "format").remove "enum").remove "x-postit-enum-labels").remove
    "x-postit-multiline").remove "minLength").remove "maxLength"

lemma stringKind_of {obj : Members} {b : Bool} {minLength maxLength : Option ℕ}
    {default_ : Option String} {kind : FieldKind}
    (hmultiline : obj.get? "x-postit-multiline" =
      if b = true then some (.bool true) else none)
    (hmin : obj.get? "minLength" = minLength.map jsonNat)
    (hmax : obj.get? "maxLength" = maxLength.map jsonNat)
    (hminU32 : AllU32 minLength) (hmaxU32 : AllU32 maxLength)
    (hordered : ordered minLength maxLength)
    (hfits : fits graphemeLen minLength maxLength default_)
    (hform : stringForm path (obj.get? "format") (obj.get? "enum")
      (obj.get? "x-postit-enum-labels") b minLength maxLength default_ = .ok kind) :
    stringKind graphemeLen obj path (default_.map .string) = .ok (kind, stringRest obj) := by
  have hdefault : stringDefault path (default_.map .string) = .ok default_ := by
    cases default_ <;> rfl
  have hformat : (obj.remove "format").get? "enum" = obj.get? "enum" := by
    simp [Members.get?_remove]
  have hlabels : ((obj.remove "format").remove "enum").get? "x-postit-enum-labels" =
      obj.get? "x-postit-enum-labels" := by
    simp [Members.get?_remove]
  unfold stringKind
  simp only [hformat, hlabels]
  rw [takeBool_of (b := b) (by simp [Members.get?_remove, hmultiline])]
  simp only [ok_bind]
  rw [takeU32_of hminU32 (by simp [Members.get?_remove, hmin])]
  simp only [ok_bind]
  rw [takeU32_of hmaxU32 (by simp [Members.get?_remove, hmax])]
  simp only [ok_bind, hdefault, ensure_of hordered, ensure_of hfits, hform]
  rfl

lemma fits_none (default_ : Option String) : fits graphemeLen none none default_ := by
  refine fun d _ => And.intro ?_ ?_ <;> exact (fun _ h => nomatch h)

lemma ordered_none_left {upper : Option ℕ} : ordered none upper := fun _ _ h => nomatch h

lemma ordered_none_right {lower : Option ℕ} : ordered lower none := fun _ _ _ h => nomatch h

lemma allU32_none : AllU32 none := fun _ h => nomatch h

/-- The keywords that only a string reads. -/
def stringKeywords : List String :=
  ["format", "enum", "x-postit-enum-labels", "x-postit-multiline", "minLength", "maxLength"]

lemma stringRest_eq_nil {obj : Members} (h : ∀ k, k ∉ stringKeywords → obj.get? k = none) :
    stringRest obj = [] := by
  refine Members.eq_nil_of_get? fun k => ?_
  unfold stringRest
  simp only [Members.get?_remove]
  by_cases hk : k ∈ stringKeywords
  · simp only [stringKeywords, List.mem_cons, List.not_mem_nil, or_false] at hk
    rcases hk with rfl | rfl | rfl | rfl | rfl | rfl <;> simp
  · rw [h k hk]
    simp

lemma stringForm_enum {values : List EnumValue} {default_ : Option String}
    (h : (FieldKind.enum values default_).WellFormed graphemeLen) :
    stringForm path none (some (.array (values.map fun v => .string v.value)))
      (some (.array (values.map fun v => v.label.toJson))) false none none default_ =
        .ok (.enum values default_) := by
  obtain ⟨hne, hnodup, hdefault⟩ := h
  have hstrings : ∀ err, strings err (values.map fun v => Json.string v.value) =
      .ok (values.map (·.value)) := by
    intro err
    have := strings_map err (values.map (·.value))
    rwa [List.map_map] at this
  have hne' : values.map (·.value) ≠ [] := by simpa using hne
  simp only [stringForm, enumKind, enumStrings, hstrings, ok_bind, ensure_of hne',
    ensure_of hnodup, ensure_of hdefault, enumLabels, List.length_map, labelled_map, and_self,
    ensure_true]

/-- A well-formed string kind is read from the members it is written with. -/
lemma stringKind_typed {obj : Members} {kind : FieldKind} {default_ : Option String}
    (hkind : kind.WellFormed graphemeLen) (htype : kind.typeName = "string")
    (hdefault : kind.defaultValue = default_.map .string)
    (hget : ∀ k, obj.get? k = kind.ownAt k) :
    stringKind graphemeLen obj path (default_.map .string) = .ok (kind, []) := by
  have hleft : stringRest obj = [] := by
    refine stringRest_eq_nil fun k hk => ?_
    rw [hget]
    simp only [stringKeywords, List.mem_cons, List.not_mem_nil, or_false, not_or] at hk
    cases kind <;> simp_all [FieldKind.ownAt, FieldKind.typeName]
  rw [← hleft]
  have hinj : Function.Injective (Option.map Json.string) :=
    Option.map_injective fun _ _ h => Json.string.inj h
  cases kind with
  | string minLength maxLength d =>
    cases hinj hdefault
    obtain ⟨hordered, hfits, hmin, hmax⟩ := hkind
    refine stringKind_of (b := false) ?_ ?_ ?_ hmin hmax hordered hfits ?_
    all_goals simp [hget, FieldKind.ownAt, stringForm]
  | multilineText maxLength d =>
    cases hinj hdefault
    refine stringKind_of (b := true) ?_ ?_ ?_ allU32_none hkind.2 ordered_none_left hkind.1 ?_
    all_goals simp [hget, FieldKind.ownAt, stringForm]
  | enum values d =>
    cases hinj hdefault
    refine stringKind_of (b := false) ?_ ?_ ?_ allU32_none allU32_none ordered_none_left
      (fits_none _) ?_
    · simp [hget, FieldKind.ownAt]
    · simp [hget, FieldKind.ownAt]
    · simp [hget, FieldKind.ownAt]
    · simp only [hget, FieldKind.ownAt, String.reduceEq, if_true, if_false]
      exact stringForm_enum hkind
  | dateTime =>
    cases default_ with
    | none =>
      refine stringKind_of (b := false) ?_ ?_ ?_ allU32_none allU32_none ordered_none_left
        (fits_none none) ?_
      all_goals simp [hget, FieldKind.ownAt, stringForm]
    | some d => cases hdefault
  | boolean d => simp [FieldKind.typeName] at htype
  | integer minimum maximum d => simp [FieldKind.typeName] at htype

lemma ownAt_of_common {kind : FieldKind} {k : String} (hk : k ∈ commonKeywords) :
    kind.ownAt k = none := by
  simp only [commonKeywords, List.mem_cons, List.not_mem_nil, or_false] at hk
  rcases hk with rfl | rfl | rfl | rfl | rfl | rfl | rfl <;> cases kind <;>
    simp [FieldKind.ownAt]

lemma integerKind_typed {obj : Members} {minimum maximum default_ : Option ℤ}
    (hkind : (FieldKind.integer minimum maximum default_).WellFormed graphemeLen)
    (hget : ∀ k, obj.get? k = (FieldKind.integer minimum maximum default_).ownAt k) :
    integerKind obj path (default_.map jsonInt) = .ok (.integer minimum maximum default_, []) := by
  obtain ⟨hordered, hwithin, hmin, hmax, hdefault⟩ := hkind
  have hint : intDefault path (default_.map jsonInt) = .ok default_ := by
    cases default_ with
    | none => rfl
    | some n => simp [intDefault, asI64_jsonInt (hdefault n rfl)]
  have hleft : (obj.remove "minimum").remove "maximum" = [] := by
    refine Members.eq_nil_of_get? fun k => ?_
    simp only [Members.get?_remove, hget, FieldKind.ownAt]
    split_ifs <;> rfl
  unfold integerKind
  rw [takeI64_of hmin (by simp [hget, FieldKind.ownAt])]
  simp only [ok_bind]
  rw [takeI64_of hmax (by simp [Members.get?_remove, hget, FieldKind.ownAt])]
  simp only [ok_bind, ensure_of hordered, hint, ensure_of hwithin, hleft]

/-- A well-formed kind is read from the members it is written with, and nothing is left. -/
lemma fieldKind_typed (f : SchemaField) (hkind : f.kind.WellFormed graphemeLen)
    (hconsent : f.consentText.isSome → ∃ d, f.kind = .boolean d) :
    fieldKind graphemeLen f.kind.typeName f.typed path f.kind.defaultValue =
      .ok (f.kind, f.consentText, []) := by
  have hget : ∀ k, f.typed.get? k = (f.kind.ownAt k).or
      (if k = "x-postit-consent-text" then f.consentText.map Message.toJson else none) := by
    intro k
    rw [get?_typed]
    by_cases hk : k ∈ commonKeywords
    · have hne : k ≠ "x-postit-consent-text" := by
        rintro rfl
        simp [commonKeywords] at hk
      rw [if_pos hk, ownAt_of_common hk, if_neg hne]
      rfl
    · rw [if_neg hk]
  by_cases hboolean : ∃ d, f.kind = .boolean d
  · obtain ⟨d, hd⟩ := hboolean
    rw [hd] at hget ⊢
    have hleft : f.typed.remove "x-postit-consent-text" = [] := by
      refine Members.eq_nil_of_get? fun k => ?_
      simp only [Members.get?_remove, hget, FieldKind.ownAt]
      split_ifs <;> rfl
    have hdefault : boolDefault path (d.map .bool) = .ok d := by cases d <;> rfl
    simp only [fieldKind, FieldKind.typeName, FieldKind.defaultValue]
    rw [takeMessage_of (m := f.consentText) (by simp [hget, FieldKind.ownAt])]
    simp only [ok_bind, hdefault, hleft]
  -- any other kind has no consent text
  have hnone : f.consentText = none := by
    by_contra hsome
    exact hboolean (hconsent (Option.isSome_iff_ne_none.mpr hsome))
  have hown : ∀ k, f.typed.get? k = f.kind.ownAt k := by
    intro k
    rw [hget, hnone]
    simp
  rw [hnone]
  have hstring : f.kind.typeName = "string" → (∃ d : Option String,
      f.kind.defaultValue = d.map .string) →
      fieldKind graphemeLen f.kind.typeName f.typed path f.kind.defaultValue =
        .ok (f.kind, none, []) := by
    rintro htype ⟨d, hd⟩
    rw [hd, htype]
    simp only [fieldKind, stringKind_typed hkind htype hd hown, ok_bind]
  cases hk : f.kind with
  | boolean d => exact absurd ⟨d, hk⟩ hboolean
  | integer minimum maximum d =>
    rw [hk] at hkind hown
    simp only [FieldKind.typeName, FieldKind.defaultValue]
    unfold fieldKind
    split
    · next heq => exact absurd heq (by decide)
    · next heq => exact absurd heq (by decide)
    · rw [integerKind_typed hkind hown]
      rfl
  | string minLength maxLength d => exact hk ▸ hstring (by rw [hk]; rfl) ⟨d, by rw [hk]; rfl⟩
  | multilineText maxLength d => exact hk ▸ hstring (by rw [hk]; rfl) ⟨d, by rw [hk]; rfl⟩
  | enum values d => exact hk ▸ hstring (by rw [hk]; rfl) ⟨d, by rw [hk]; rfl⟩
  | dateTime => exact hk ▸ hstring (by rw [hk]; rfl) ⟨none, by rw [hk]; rfl⟩

lemma typeName_mem (kind : FieldKind) : kind.typeName ∈ ["string", "boolean", "integer"] := by
  cases kind <;> simp [FieldKind.typeName]

/-- Only keywords that the subset knows are written. -/
lemma get?_members_of_unknown (f : SchemaField) {k : String} (hk : k ∉ propertyKeywords) :
    f.members.get? k = none := by
  simp only [propertyKeywords, List.mem_cons, List.not_mem_nil, or_false, not_or] at hk
  rw [get?_members, get?_insertInto, get?_hints]
  have hown : f.kind.ownAt k = none := by cases f.kind <;> simp [FieldKind.ownAt, hk]
  simp [hown, hk]

lemma get?_members_of_common (f : SchemaField) {k : String} (hk : k ∈ commonKeywords) :
    f.members.get? k =
      if k = "default" then f.kind.defaultValue
      else if k = "type" then some (.string f.kind.typeName) else f.hints.get? k := by
  rw [get?_members, get?_insertInto, ownAt_of_common hk, get?_hints]
  simp only [commonKeywords, List.mem_cons, List.not_mem_nil, or_false] at hk
  rcases hk with rfl | rfl | rfl | rfl | rfl | rfl | rfl <;> simp

/-- A well-formed field is parsed from the value it is written as. -/
lemma parseField_toJson {f : SchemaField} {earlier : List SchemaField}
    (h : f.WellFormed graphemeLen (earlier.map (·.name))) :
    parseField codec graphemeLen f.name f.toJson f.required earlier = .ok f := by
  have hunknown : (f.members.filter fun m => m.1 ∉ propertyKeywords) = [] :=
    filter_eq_nil_of_get? fun k hk => get?_members_of_unknown f hk
  have hforbids : ¬ (f.noDefault = true ∧ f.kind.defaultValue.isSome = true) := by
    rintro ⟨hno, hsome⟩
    rw [h.noDefault hno] at hsome
    cases hsome
  -- what stands under each common keyword
  have hcommon : ∀ k (hk : k ∈ commonKeywords), _ := fun k hk => get?_members_of_common f hk
  have htype := hcommon "type" (by simp [commonKeywords])
  have hlabel := hcommon "x-postit-label" (by simp [commonKeywords])
  have hhelp := hcommon "x-postit-help" (by simp [commonKeywords])
  have hnoDefault := hcommon "x-postit-no-default" (by simp [commonKeywords])
  have hsecret := hcommon "x-postit-secret" (by simp [commonKeywords])
  have hdependsOn := hcommon "x-postit-depends-on" (by simp [commonKeywords])
  have hdefault := hcommon "default" (by simp [commonKeywords])
  simp only [get?_hints, String.reduceEq, if_true, if_false] at htype hlabel hhelp hdefault
  simp only [get?_hints, String.reduceEq, if_true, if_false] at hnoDefault hsecret hdependsOn
  unfold parseField SchemaField.toJson
  simp only [fieldMembers, ok_bind, hunknown, refuseRest, fieldType, htype,
    ensure_of (typeName_mem f.kind)]
  rw [takeMessage_of (m := some f.label) (by simp [Members.get?_remove, hlabel])]
  simp only [ok_bind, fieldLabel]
  rw [takeMessage_of (m := f.help) (by simp [Members.get?_remove, hhelp])]
  simp only [ok_bind]
  rw [takeBool_of (b := f.noDefault) (by simp [Members.get?_remove, hnoDefault])]
  simp only [ok_bind]
  rw [takeBool_of (b := f.secret) (by simp [Members.get?_remove, hsecret])]
  simp only [ok_bind]
  rw [takeDependsOn_of (d := f.dependsOn) (fun d hd => (h.dependsOn d hd).1)
    (by simp [Members.get?_remove, hdependsOn])]
  have hdefault : ((((((f.members.remove "type").remove "x-postit-label").remove
      "x-postit-help").remove "x-postit-no-default").remove "x-postit-secret").remove
        "x-postit-depends-on").get? "default" = f.kind.defaultValue := by
    simp [Members.get?_remove, hdefault]
  simp only [ok_bind, hdefault, ensure_of hforbids]
  have htyped := @fieldKind_typed graphemeLen ("properties." ++ f.name) f h.kind h.consentText
  unfold SchemaField.typed at htyped
  simp only [htyped, ok_bind]

/-! ## The written document -/

lemma mem_insertOpt {o : Members} {key : String} {v : Option Json} {m : String × Json}
    (h : m ∈ insertOpt o key v) : (∃ w ∈ v, m = (key, w)) ∨ m ∈ o := by
  cases v with
  | none => exact .inr h
  | some w => exact (Members.mem_insert h).imp_left fun h => ⟨w, rfl, h⟩

lemma sorted_insertOpt {o : Members} (h : o.Sorted) (key : String) (v : Option Json) :
    (insertOpt o key v).Sorted := by
  cases v with
  | none => exact h
  | some w => exact h.insert key w

/-- Whether every value is nested at most so deep, and kept as `serde_json` keeps it. -/
def AllFit (o : Members) (n : ℕ) : Prop := o.Sorted ∧ ∀ m ∈ o, m.2.Fit n

lemma allFit_nil (n : ℕ) : AllFit [] n := ⟨.nil, fun _ h => nomatch h⟩

lemma AllFit.insert {o : Members} {n : ℕ} (h : AllFit o n) (key : String) {v : Json}
    (hv : v.Fit n) : AllFit (o.insert key v) n := by
  refine ⟨h.1.insert key v, fun m hm => ?_⟩
  rcases Members.mem_insert hm with rfl | hm
  · exact hv
  · exact h.2 m hm

lemma AllFit.insertOpt {o : Members} {n : ℕ} (h : AllFit o n) (key : String) {v : Option Json}
    (hv : ∀ w ∈ v, w.Fit n) : AllFit (insertOpt o key v) n := by
  cases v with
  | none => exact h
  | some w => exact h.insert key (hv w rfl)

lemma AllFit.object {o : Members} {n : ℕ} (h : AllFit o n) : (Json.object o).Fit (n + 1) :=
  Json.fit_object h.1 h.2

lemma Message.fit_toJson (m : Message) (n : ℕ) : m.toJson.Fit (n + 1) :=
  AllFit.object (((allFit_nil n).insert "key" (Json.fit_string _ n)).insert "en"
    (Json.fit_string _ n))

lemma DependsOn.fit_toJson {d : DependsOn} {n : ℕ} (h : d.equals.Fit n) : d.toJson.Fit (n + 1) :=
  AllFit.object (((allFit_nil n).insert "field" (Json.fit_string _ n)).insert "equals" h)

lemma fit_map {α : Type} {o : Option α} {f : α → Json} {n : ℕ} (h : ∀ a ∈ o, (f a).Fit n) :
    ∀ v ∈ o.map f, v.Fit n := by
  intro v hv
  obtain ⟨a, ha, rfl⟩ := Option.map_eq_some_iff.mp hv
  exact h a ha

lemma fit_jsonNat {o : Option ℕ} (h : AllU32 o) (n : ℕ) : ∀ v ∈ o.map jsonNat, v.Fit n := by
  refine fit_map fun k hk => Json.fit_number ?_ n
  exact lt_trans (h k hk) (by decide)

lemma fit_jsonInt {o : Option ℤ} (h : AllI64 o) (n : ℕ) : ∀ v ∈ o.map jsonInt, v.Fit n := by
  refine fit_map fun k hk => Json.fit_number ?_ n
  obtain ⟨hlow, hhigh⟩ := h k hk
  unfold maxI64 at hhigh
  unfold JsonNumber.ofI64
  split_ifs with hpos
  · show k.toNat < 2 ^ 64
    omega
  · exact ⟨hlow, not_le.mp hpos⟩

lemma allFit_hints {f : SchemaField} {n : ℕ} (h : ∀ d ∈ f.dependsOn, d.equals.Fit n) :
    AllFit f.hints (n + 1) := by
  have hmessage : ∀ m : Option Message, ∀ v ∈ m.map Message.toJson, v.Fit (n + 1) :=
    fun m => fit_map fun m _ => m.fit_toJson n
  have htrue : (Json.bool true).Fit (n + 1) := Json.fit_bool true _
  have hbool : ∀ (b : Bool) {o : Members} (key : String), AllFit o (n + 1) →
      AllFit (if b = true then o.insert key (.bool true) else o) (n + 1) := by
    intro b o key ho
    cases b with
    | true => exact ho.insert key htrue
    | false => exact ho
  refine AllFit.insertOpt (AllFit.insertOpt (hbool _ _ (hbool _ _ (AllFit.insertOpt
    ((allFit_nil _).insert _ (f.label.fit_toJson n)) _ (hmessage _)))) _ (hmessage _)) _ ?_
  exact fit_map fun d hd => DependsOn.fit_toJson (h d hd)

lemma allFit_insertInto {o : Members} {n : ℕ} {kind : FieldKind} (ho : AllFit o (n + 2))
    (h : kind.WellFormed graphemeLen) : AllFit (kind.insertInto o) (n + 2) := by
  have htype : ∀ ty, AllFit (o.insert "type" (.string ty)) (n + 2) :=
    fun ty => ho.insert _ (Json.fit_string ty _)
  cases kind with
  | string minLength maxLength d =>
    obtain ⟨-, -, hmin, hmax⟩ := h
    exact ((htype _).insertOpt _ (fit_jsonNat hmin _)).insertOpt _ (fit_jsonNat hmax _)
  | multilineText maxLength d =>
    exact ((htype _).insert _ (Json.fit_bool _ _)).insertOpt _ (fit_jsonNat h.2 _)
  | enum values d =>
    refine ((htype _).insert _ (Json.fit_array fun v hv => ?_)).insert _
      (Json.fit_array fun v hv => ?_)
    · obtain ⟨e, -, rfl⟩ := List.mem_map.mp hv
      exact Json.fit_string _ _
    · obtain ⟨e, -, rfl⟩ := List.mem_map.mp hv
      exact e.label.fit_toJson n
  | boolean d => exact htype _
  | integer minimum maximum d =>
    obtain ⟨-, -, hmin, hmax, -⟩ := h
    exact ((htype _).insertOpt _ (fit_jsonInt hmin _)).insertOpt _ (fit_jsonInt hmax _)
  | dateTime => exact (htype _).insert _ (Json.fit_string _ _)

lemma fit_defaultValue {kind : FieldKind} (h : kind.WellFormed graphemeLen) (n : ℕ) :
    ∀ v ∈ kind.defaultValue, v.Fit n := by
  cases kind with
  | string minLength maxLength d => exact fit_map fun s _ => Json.fit_string s n
  | multilineText maxLength d => exact fit_map fun s _ => Json.fit_string s n
  | enum values d => exact fit_map fun s _ => Json.fit_string s n
  | boolean d => exact fit_map fun b _ => Json.fit_bool b n
  | integer minimum maximum d => exact fit_jsonInt h.2.2.2.2 n
  | dateTime => exact fun _ h => nomatch h

lemma SchemaField.WellFormed.fit_toJson {f : SchemaField} {earlier : List String}
    (h : f.WellFormed graphemeLen earlier) : f.toJson.Fit (equalsDepth + 2) := by
  have hhints : AllFit f.hints (equalsDepth + 1) := allFit_hints fun d hd => (h.dependsOn d hd).2
  exact AllFit.object ((allFit_insertInto hhints h.kind).insertOpt _ (fit_defaultValue h.kind _))

/-- The fields of a well-formed schema are parsed from what they are written as. -/
lemma parseFields_toJson {required : List String} {fs earlier : List SchemaField}
    (hwf : FieldsWellFormed graphemeLen (earlier.map (·.name)) fs)
    (hrequired : ∀ f ∈ fs, decide (f.name ∈ required) = f.required) :
    parseFields codec graphemeLen required (fs.map fun f => (f.name, f.toJson)) earlier =
      .ok (earlier ++ fs) := by
  induction fs generalizing earlier with
  | nil => rw [List.map_nil, parseFields, List.append_nil]
  | cons f fs ih =>
    obtain ⟨hf, hfs⟩ := hwf
    rw [List.map_cons, parseFields, hrequired f List.mem_cons_self, parseField_toJson hf]
    have hwf : FieldsWellFormed graphemeLen ((earlier ++ [f]).map (·.name)) fs := by
      simpa using hfs
    simpa using ih hwf fun g hg => hrequired g (List.mem_cons_of_mem _ hg)

lemma duplicateKey_of_nodup {ms : Members} {seen : List String} (hnodup : (ms.map Prod.fst).Nodup)
    (hseen : ∀ m ∈ ms, m.1 ∉ seen) : duplicateKey ms seen = none := by
  induction ms generalizing seen with
  | nil => rfl
  | cons m ms ih =>
    obtain ⟨key, v⟩ := m
    rw [List.map_cons, List.nodup_cons] at hnodup
    rw [duplicateKey, if_neg (hseen _ List.mem_cons_self)]
    refine ih hnodup.2 fun m hm hmem => ?_
    rcases List.mem_cons.mp hmem with heq | hmem
    · have hkey : m.1 ∈ ms.map Prod.fst := List.mem_map_of_mem hm
      exact hnodup.1 (heq ▸ hkey)
    · exact hseen m (List.mem_cons_of_mem _ hm) hmem

/-- The properties of a schema, as they are written. -/
def OptionsSchema.properties (s : OptionsSchema) : Members :=
  s.fields.map fun f => (f.name, f.toJson)

/-- The names of the required fields. -/
def OptionsSchema.required (s : OptionsSchema) : List String :=
  (s.fields.filter (·.required)).map (·.name)

lemma OptionsSchema.serialize_eq (s : OptionsSchema) :
    s.serialize = .object
      ([("type", .string "object"), ("properties", .object s.properties)] ++
        (if s.required = [] then [] else [("required", .array (s.required.map .string))]) ++
        [("additionalProperties", .bool false)]) := rfl

lemma FieldsWellFormed.of_mem {earlier : List String} {fs : List SchemaField}
    (h : FieldsWellFormed graphemeLen earlier fs) {f : SchemaField} (hf : f ∈ fs) :
    ∃ names, f.WellFormed graphemeLen names := by
  induction fs generalizing earlier with
  | nil => cases hf
  | cons g fs ih =>
    rcases List.mem_cons.mp hf with rfl | hf
    · exact ⟨earlier, h.1⟩
    · exact ih h.2 hf

lemma readOrdered_properties {s : OptionsSchema} (h : s.WellFormed graphemeLen) :
    readOrdered (.object s.properties) = .ok s.properties := by
  have hnames : s.properties.map Prod.fst = s.fields.map (·.name) := by
    rw [OptionsSchema.properties, List.map_map]
    rfl
  have hcollect : (s.properties.map fun m => (m.1, m.2.collect)) = s.properties := by
    rw [OptionsSchema.properties, List.map_map]
    refine List.map_congr_left fun f hf => ?_
    obtain ⟨names, hwf⟩ := h.fields.of_mem hf
    exact congrArg (Prod.mk f.name) (Json.collect_of_canonical _ hwf.fit_toJson.canonical)
  have hdup : duplicateKey s.properties [] = none :=
    duplicateKey_of_nodup (hnames ▸ h.names) fun _ _ => List.not_mem_nil
  simp only [readOrdered, hdup, hcollect]

/-- The members of the root, but the properties. -/
def OptionsSchema.rest (s : OptionsSchema) : Members :=
  (insertOpt (Members.insert [] "type" (.string "object")) "required"
    (if s.required = [] then none else some (.array (s.required.map .string)))).insert
      "additionalProperties" (.bool false)

lemma readRoot_serialize {s : OptionsSchema} (h : s.WellFormed graphemeLen) :
    readRoot s.serialize = .ok { properties := some s.properties, rest := s.rest } := by
  have hstrings : (Json.array (s.required.map .string)).collect =
      .array (s.required.map .string) := by
    refine Json.collect_of_canonical _ (Json.fit_array (n := 0) fun v hv => ?_).canonical
    obtain ⟨name, -, rfl⟩ := List.mem_map.mp hv
    exact Json.fit_string name 0
  have htype : (Json.string "object").collect = .string "object" := by rw [Json.collect]
  have hfalse : (Json.bool false).collect = .bool false := by rw [Json.collect]
  rw [s.serialize_eq, OptionsSchema.rest]
  by_cases hnone : s.required = []
  · simp [hnone, readRoot, duplicateKey, Members.get?_cons, readOrdered_properties h,
      Members.remove, Json.collectMembers, insertOpt, htype, hfalse]
  · simp [hnone, readRoot, duplicateKey, Members.get?_cons, readOrdered_properties h,
      Members.remove, Json.collectMembers, insertOpt, htype, hfalse, hstrings]

lemma get?_rest (s : OptionsSchema) (k : String) :
    s.rest.get? k =
      if k = "additionalProperties" then some (.bool false)
      else if k = "required" then
        if s.required = [] then none else some (.array (s.required.map .string))
      else if k = "type" then some (.string "object")
      else none := by
  unfold OptionsSchema.rest
  simp only [get?_insertOpt, get?_insert_or, Members.get?_nil]
  split_ifs <;> simp_all

lemma rootRequired_written (names : List String) :
    rootRequired (if names = [] then none else some (.array (names.map .string))) = .ok names := by
  split_ifs with hnone
  · rw [hnone]
    rfl
  · exact strings_map _ names

lemma mem_required {s : OptionsSchema} (h : (s.fields.map (·.name)).Nodup) {f : SchemaField}
    (hf : f ∈ s.fields) : f.name ∈ s.required ↔ f.required = true := by
  constructor
  · intro hmem
    obtain ⟨g, hg, heq⟩ := List.mem_map.mp hmem
    obtain ⟨hg, hrequired⟩ := List.mem_filter.mp hg
    rwa [List.inj_on_of_nodup_map h hg hf heq] at hrequired
  · intro hrequired
    exact List.mem_map_of_mem (List.mem_filter.mpr ⟨hf, hrequired⟩)

/-- A well-formed schema is what its own document is parsed as. -/
theorem ofDocument_serialize {s : OptionsSchema} (h : s.WellFormed graphemeLen) :
    OptionsSchema.ofDocument codec graphemeLen s.serialize = .ok s := by
  have hleft : ((s.rest.remove "type").remove "required").remove "additionalProperties" = [] := by
    refine Members.eq_nil_of_get? fun k => ?_
    simp only [Members.get?_remove, get?_rest]
    split_ifs <;> simp_all
  have hghosts : (s.required.filter fun name => name ∉ s.properties.map Prod.fst) = [] := by
    refine List.filter_eq_nil_iff.mpr fun name hname => ?_
    obtain ⟨f, hf, rfl⟩ := List.mem_map.mp hname
    have : (f.name, f.toJson) ∈ s.properties := List.mem_map_of_mem (List.mem_filter.mp hf).1
    simpa using ⟨f.toJson, this⟩
  have hfields : parseFields codec graphemeLen s.required s.properties [] = .ok s.fields := by
    refine parseFields_toJson h.fields fun f hf => ?_
    have hiff := mem_required h.names hf
    cases hrequired : f.required <;> simp [hiff, hrequired]
  unfold OptionsSchema.ofDocument
  rw [readRoot_serialize h]
  unfold build
  simp only [Members.get?_remove, get?_rest, String.reduceEq, if_true, if_false, rootType, ok_bind,
    rootProperties, rootRequired_written, rootAdditional, hleft, refuseRest, hghosts, refuseGhost,
    hfields]

/-! ## Floats of conditions -/

/-- The condition with each float replaced. -/
def DependsOn.mapFloats (f : ℕ → ℕ) (d : DependsOn) : DependsOn :=
  { d with equals := d.equals.mapFloats f }

def SchemaField.mapFloats (f : ℕ → ℕ) (field : SchemaField) : SchemaField :=
  { field with dependsOn := field.dependsOn.map (DependsOn.mapFloats f) }

/-- The schema with each float of a condition replaced. -/
def OptionsSchema.mapFloats (f : ℕ → ℕ) (s : OptionsSchema) : OptionsSchema :=
  { fields := s.fields.map (SchemaField.mapFloats f) }

lemma Message.mapFloats_toJson (f : ℕ → ℕ) (m : Message) : m.toJson.mapFloats f = m.toJson := by
  simp only [Message.toJson, Json.mapFloats, Json.mapFloatsMembers_insert, Json.mapFloatsMembers]

lemma DependsOn.mapFloats_toJson (f : ℕ → ℕ) (d : DependsOn) :
    d.toJson.mapFloats f = (d.mapFloats f).toJson := by
  simp only [DependsOn.toJson, DependsOn.mapFloats, Json.mapFloats, Json.mapFloatsMembers_insert,
    Json.mapFloatsMembers]

lemma mapFloatsMembers_insertOpt (f : ℕ → ℕ) (o : Members) (key : String) (v : Option Json) :
    Json.mapFloatsMembers f (insertOpt o key v) =
      insertOpt (Json.mapFloatsMembers f o) key (v.map (Json.mapFloats f)) := by
  cases v with
  | none => rfl
  | some w => exact Json.mapFloatsMembers_insert f o key w

lemma mapFloatsMembers_ite (f : ℕ → ℕ) (b : Bool) (o o' : Members) :
    Json.mapFloatsMembers f (if b = true then o else o') =
      if b = true then Json.mapFloatsMembers f o else Json.mapFloatsMembers f o' := by
  split_ifs <;> rfl

lemma mapFloats_jsonInt (f : ℕ → ℕ) (n : ℤ) : (jsonInt n).mapFloats f = jsonInt n := by
  unfold jsonInt JsonNumber.ofI64
  split_ifs <;> rw [Json.mapFloats, JsonNumber.mapFloat]

lemma mapFloats_jsonNat (f : ℕ → ℕ) (n : ℕ) : (jsonNat n).mapFloats f = jsonNat n := by
  rw [jsonNat, Json.mapFloats, JsonNumber.mapFloat]

lemma mapFloats_strings (f : ℕ → ℕ) (ss : List String) :
    Json.mapFloatsItems f (ss.map .string) = ss.map .string := by
  rw [Json.mapFloatsItems_eq, List.map_map]
  exact List.map_congr_left fun s _ => by rw [Function.comp, Json.mapFloats]

/-- Only a condition has floats. -/
lemma SchemaField.mapFloats_toJson (f : ℕ → ℕ) (field : SchemaField) :
    field.toJson.mapFloats f = (field.mapFloats f).toJson := by
  have hmessage : ∀ m : Option Message,
      (m.map Message.toJson).map (Json.mapFloats f) = m.map Message.toJson := by
    intro m
    cases m <;> simp [Message.mapFloats_toJson]
  have hcondition : (field.dependsOn.map DependsOn.toJson).map (Json.mapFloats f) =
      (field.mapFloats f).dependsOn.map DependsOn.toJson := by
    unfold SchemaField.mapFloats
    cases field.dependsOn <;> simp [DependsOn.mapFloats_toJson]
  have hhints : Json.mapFloatsMembers f field.hints = (field.mapFloats f).hints := by
    unfold SchemaField.hints
    simp only [mapFloatsMembers_insertOpt, mapFloatsMembers_ite, Json.mapFloatsMembers_insert,
      Json.mapFloatsMembers, Message.mapFloats_toJson, hmessage, Json.mapFloats, hcondition]
    rfl
  have hnat : ∀ n : Option ℕ, (n.map jsonNat).map (Json.mapFloats f) = n.map jsonNat := by
    intro n
    cases n <;> simp [mapFloats_jsonNat]
  have hint : ∀ n : Option ℤ, (n.map jsonInt).map (Json.mapFloats f) = n.map jsonInt := by
    intro n
    cases n <;> simp [mapFloats_jsonInt]
  have hlabels : ∀ vs : List EnumValue, Json.mapFloatsItems f (vs.map fun v => v.label.toJson) =
      vs.map fun v => v.label.toJson := by
    intro vs
    rw [Json.mapFloatsItems_eq, List.map_map]
    exact List.map_congr_left fun v _ => v.label.mapFloats_toJson f
  have hvalues : ∀ vs : List EnumValue, Json.mapFloatsItems f (vs.map fun v => .string v.value) =
      vs.map fun v => .string v.value := by
    intro vs
    have := mapFloats_strings f (vs.map (·.value))
    rwa [List.map_map] at this
  have hkind : ∀ o : Members, Json.mapFloatsMembers f (field.kind.insertInto o) =
      field.kind.insertInto (Json.mapFloatsMembers f o) := by
    intro o
    cases field.kind <;> simp only [FieldKind.insertInto, mapFloatsMembers_insertOpt,
      Json.mapFloatsMembers_insert, Json.mapFloats, hnat, hint, hlabels, hvalues]
  have hdefault : field.kind.defaultValue.map (Json.mapFloats f) = field.kind.defaultValue := by
    cases field.kind with
    | integer minimum maximum d => exact hint d
    | string minLength maxLength d => cases d <;> simp [FieldKind.defaultValue, Json.mapFloats]
    | multilineText maxLength d => cases d <;> simp [FieldKind.defaultValue, Json.mapFloats]
    | enum values d => cases d <;> simp [FieldKind.defaultValue, Json.mapFloats]
    | boolean d => cases d <;> simp [FieldKind.defaultValue, Json.mapFloats]
    | dateTime => rfl
  rw [SchemaField.toJson, Json.mapFloats, SchemaField.members, mapFloatsMembers_insertOpt, hkind,
    hhints, hdefault]
  rfl

lemma OptionsSchema.mapFloats_serialize (f : ℕ → ℕ) (s : OptionsSchema) :
    s.serialize.mapFloats f = (s.mapFloats f).serialize := by
  have hrequired : (s.mapFloats f).required = s.required := by
    rw [OptionsSchema.required, OptionsSchema.mapFloats, List.filter_map, List.map_map]
    rfl
  have hproperties : Json.mapFloatsMembers f s.properties = (s.mapFloats f).properties := by
    rw [Json.mapFloatsMembers_eq, OptionsSchema.properties, List.map_map,
      OptionsSchema.properties, OptionsSchema.mapFloats, List.map_map]
    exact List.map_congr_left fun field _ => congrArg (Prod.mk field.name)
      (field.mapFloats_toJson f)
  rw [s.serialize_eq, (s.mapFloats f).serialize_eq, hrequired, ← hproperties]
  split_ifs <;> simp only [List.cons_append, List.nil_append, List.append_nil, Json.mapFloats,
    Json.mapFloatsMembers, mapFloats_strings]

lemma SchemaField.WellFormed.mapFloats {f : ℕ → ℕ} (hf : KeepsFloats f) {field : SchemaField}
    {earlier : List String} (h : field.WellFormed graphemeLen earlier) :
    (field.mapFloats f).WellFormed graphemeLen earlier := by
  refine ⟨h.kind, h.noDefault, h.consentText, fun d hd => ?_⟩
  obtain ⟨c, hc, rfl⟩ := Option.map_eq_some_iff.mp hd
  obtain ⟨hfield, hfit⟩ := h.dependsOn c hc
  exact ⟨hfield, hfit.mapFloats hf⟩

lemma FieldsWellFormed.mapFloats {f : ℕ → ℕ} (hf : KeepsFloats f) {fs : List SchemaField}
    {earlier : List String} (h : FieldsWellFormed graphemeLen earlier fs) :
    FieldsWellFormed graphemeLen earlier (fs.map (SchemaField.mapFloats f)) := by
  induction fs generalizing earlier with
  | nil => trivial
  | cons field fs ih => exact ⟨h.1.mapFloats hf, ih h.2⟩

lemma OptionsSchema.WellFormed.mapFloats {f : ℕ → ℕ} (hf : KeepsFloats f) {s : OptionsSchema}
    (h : s.WellFormed graphemeLen) : (s.mapFloats f).WellFormed graphemeLen := by
  refine ⟨?_, h.fields.mapFloats hf⟩
  have hnames : (s.mapFloats f).fields.map (·.name) = s.fields.map (·.name) := by
    rw [OptionsSchema.mapFloats, List.map_map]
    rfl
  exact hnames ▸ h.names

/-- The document of a well-formed schema is one that is read back. -/
lemma OptionsSchema.WellFormed.serialize_held {s : OptionsSchema} (h : s.WellFormed graphemeLen) :
    s.serialize.Held ∧ s.serialize.depth ≤ depthLimit := by
  have hproperties : (Json.object s.properties).Held ∧
      (Json.object s.properties).depth ≤ equalsDepth + 3 := by
    have hfit : ∀ m ∈ s.properties, m.2.Fit (equalsDepth + 2) := by
      intro m hm
      obtain ⟨f, hf, rfl⟩ := List.mem_map.mp hm
      obtain ⟨names, hwf⟩ := h.fields.of_mem hf
      exact hwf.fit_toJson
    rw [Json.Held, Json.heldMembers_iff, Json.depth]
    exact ⟨fun m hm => (hfit m hm).held,
      Nat.succ_le_succ (Json.depthMembers_le.2 fun m hm => (hfit m hm).depth_le)⟩
  have hrequired : (Json.array (s.required.map .string)).Fit (equalsDepth + 3) := by
    refine Json.fit_array fun v hv => ?_
    obtain ⟨name, -, rfl⟩ := List.mem_map.mp hv
    exact Json.fit_string name _
  have htype := Json.fit_string "object" (equalsDepth + 3)
  have hfalse := Json.fit_bool false (equalsDepth + 3)
  have hall : ∀ m ∈ [("type", Json.string "object"), ("properties", Json.object s.properties)] ++
      (if s.required = [] then [] else [("required", Json.array (s.required.map .string))]) ++
        [("additionalProperties", Json.bool false)],
      m.2.Held ∧ m.2.depth ≤ equalsDepth + 3 := by
    intro m hm
    simp only [List.mem_append, List.mem_cons, List.not_mem_nil, or_false] at hm
    rcases hm with ((rfl | rfl) | hm) | rfl
    · exact ⟨htype.held, htype.depth_le⟩
    · exact hproperties
    · split_ifs at hm
      · cases hm
      · cases List.mem_singleton.mp hm
        exact ⟨hrequired.held, hrequired.depth_le⟩
    · exact ⟨hfalse.held, hfalse.depth_le⟩
  rw [s.serialize_eq, Json.Held, Json.heldMembers_iff, Json.depth]
  exact ⟨fun m hm => (hall m hm).1,
    Nat.succ_le_succ (Json.depthMembers_le.2 fun m hm => (hall m hm).2)⟩

/-- A well-formed schema is read back from its text, but for the floats of its conditions. -/
lemma fromJsonStr_toJsonStr (hcodec : codec.ReadsBack) {s : OptionsSchema}
    (h : s.WellFormed graphemeLen) :
    OptionsSchema.fromJsonStr codec graphemeLen (s.toJsonStr codec) =
      .ok (s.mapFloats codec.reread) := by
  obtain ⟨hheld, hdepth⟩ := h.serialize_held
  rw [OptionsSchema.fromJsonStr, OptionsSchema.toJsonStr, hcodec.read_write _ hdepth hheld,
    s.mapFloats_serialize]
  exact ofDocument_serialize (h.mapFloats hcodec.keepsFloats)

/-- **Round trip.** The schema of a text, written and parsed again, is the same schema but for the
floats of its conditions: each is what the library reads of the float it wrote. -/
theorem roundTrip (hcodec : codec.ReadsBack) {src : String} {s : OptionsSchema}
    (h : OptionsSchema.fromJsonStr codec graphemeLen src = .ok s) :
    OptionsSchema.fromJsonStr codec graphemeLen (s.toJsonStr codec) =
      .ok (s.mapFloats codec.reread) :=
  fromJsonStr_toJsonStr hcodec (fromJsonStr_ok hcodec h)

/-! ## A float that is not read back -/

/-- A binary tree with the values at its leaves. -/
inductive Shape
  | leaf
  | bool (b : Bool)
  | nat (n : ℕ)
  | int (n : ℤ)
  | float (n : ℕ)
  | text (codes : List ℕ)
  | node (l r : Shape)
  | empty
  deriving Countable

/-- The characters of a text. -/
def charCodes (s : String) : List ℕ := s.toList.map Char.toNat

lemma charCodes_inj {s t : String} (h : charCodes s = charCodes t) : s = t :=
  String.toList_inj.mp (List.map_injective_iff.mpr (fun _ _ h => Char.toNat_inj.mp h) h)

mutual

/-- The value as a tree, its items to the right. -/
def Json.shape : Json → Shape
  | .null => .leaf
  | .bool b => .bool b
  | .number (.posInt n) => .nat n
  | .number (.negInt n) => .int n
  | .number (.float n) => .float n
  | .string s => .text (charCodes s)
  | .array items => .node .leaf (Json.shapeItems items)
  | .object members => .node .empty (Json.shapeMembers members)

def Json.shapeItems : List Json → Shape
  | [] => .empty
  | item :: items => .node item.shape (Json.shapeItems items)

def Json.shapeMembers : Members → Shape
  | [] => .empty
  | (key, v) :: ms => .node (.node (.text (charCodes key)) v.shape) (Json.shapeMembers ms)

end

mutual

theorem Json.shape_inj : (v w : Json) → v.shape = w.shape → v = w
  | .array items, w, h => by
    cases w with
    | array items' =>
      rw [Json.shape, Json.shape] at h
      rw [Json.shapeItems_inj items items' (Shape.node.inj h).2]
    | number n => cases n <;> simp [Json.shape] at h
    | _ => simp [Json.shape] at h
  | .object members, w, h => by
    cases w with
    | object members' =>
      rw [Json.shape, Json.shape] at h
      rw [Json.shapeMembers_inj members members' (Shape.node.inj h).2]
    | number n => cases n <;> simp [Json.shape] at h
    | _ => simp [Json.shape] at h
  | .number n, w, h => by
    cases w with
    | number m => cases n <;> cases m <;> simp_all [Json.shape]
    | _ => cases n <;> simp [Json.shape] at h
  | .null, w, h => by
    cases w with
    | null => rfl
    | number n => cases n <;> simp [Json.shape] at h
    | _ => simp [Json.shape] at h
  | .bool b, w, h => by
    cases w with
    | bool b' => simpa [Json.shape] using h
    | number n => cases n <;> simp [Json.shape] at h
    | _ => simp [Json.shape] at h
  | .string s, w, h => by
    cases w with
    | string t =>
      rw [Json.shape, Json.shape] at h
      rw [charCodes_inj (Shape.text.inj h)]
    | number n => cases n <;> simp [Json.shape] at h
    | _ => simp [Json.shape] at h

theorem Json.shapeItems_inj : (vs ws : List Json) → Json.shapeItems vs = Json.shapeItems ws →
    vs = ws
  | [], [], _ => rfl
  | [], w :: ws, h => by simp [Json.shapeItems] at h
  | v :: vs, [], h => by simp [Json.shapeItems] at h
  | v :: vs, w :: ws, h => by
    rw [Json.shapeItems, Json.shapeItems] at h
    obtain ⟨hhead, htail⟩ := Shape.node.inj h
    rw [Json.shape_inj v w hhead, Json.shapeItems_inj vs ws htail]

theorem Json.shapeMembers_inj : (ms ns : Members) → Json.shapeMembers ms = Json.shapeMembers ns →
    ms = ns
  | [], [], _ => rfl
  | [], (k, w) :: ns, h => by simp [Json.shapeMembers] at h
  | (k, v) :: ms, [], h => by simp [Json.shapeMembers] at h
  | (k, v) :: ms, (l, w) :: ns, h => by
    rw [Json.shapeMembers, Json.shapeMembers] at h
    obtain ⟨hhead, htail⟩ := Shape.node.inj h
    obtain ⟨hkey, hvalue⟩ := Shape.node.inj hhead
    rw [charCodes_inj (Shape.text.inj hkey), Json.shape_inj v w hvalue,
      Json.shapeMembers_inj ms ns htail]

end

/-- The text of a schema with a float in a condition. -/
def conditionText (float : String) : String :=
  "\x7b" ++ ("\"type\":\"object\",\"properties\":\x7b\"ratio\":\x7b\"type\":\"integer\"," ++
    "\"x-postit-label\":\x7b\"en\":\"Ratio\",\"key\":\"o.ratio\"\x7d\x7d," ++
    "\"note\":\x7b\"type\":\"string\",\"x-postit-depends-on\":\x7b\"equals\":" ++ float ++
    ",\"field\":\"ratio\"\x7d,\"x-postit-label\":\x7b\"en\":\"Note\",\"key\":\"o.note\"\x7d\x7d\x7d," ++
    "\"additionalProperties\":false\x7d")

/-- That schema, by the float's bits. -/
def conditionSchema (bits : ℕ) : OptionsSchema where
  fields :=
    [{ name := "ratio"
       label := { key := "o.ratio", en := "Ratio" }
       help := none
       required := false
       kind := .integer none none none
       noDefault := false
       secret := false
       consentText := none
       dependsOn := none },
      { name := "note"
        label := { key := "o.note", en := "Note" }
        help := none
        required := false
        kind := .string none none none
        noDefault := false
        secret := false
        consentText := none
        dependsOn := some { field := "ratio", equals := .number (.float bits) } }]

/-- The double next to 10⁻²⁴, which it is the nearest to. -/
def nearest : ℕ := 4247835366853742247

/-- The double after it, 1.0000000000000001 · 10⁻²⁴, as which `1e-24` is read. -/
def after : ℕ := 4247835366853742248

/-- What `serde_json` reads of these two when it has written them. -/
def rereadNear (bits : ℕ) : ℕ :=
  if bits = nearest then after else if bits = after then nearest else bits

open Classical in
/-- A writer that gives the two schemas their texts. -/
noncomputable def writeNear (doc : Json) : String :=
  if doc = (conditionSchema nearest).serialize then conditionText "1e-24"
  else if doc = (conditionSchema after).serialize then conditionText "1.0000000000000001e-24"
  else String.ofList
    (List.replicate ((Countable.exists_injective_nat Shape).choose doc.shape) 'x')

open Classical in
/-- The reader of what it writes. -/
noncomputable def readNear (text : String) : Except String Json :=
  if h : ∃ doc : Json, doc.depth ≤ depthLimit ∧ doc.Held ∧ writeNear doc = text then
    .ok (h.choose.mapFloats rereadNear)
  else .error "expected value"

noncomputable def codecNear : TextCodec where
  read := readNear
  write := writeNear
  reread := rereadNear

lemma keepsFloats_near : KeepsFloats rereadNear := by
  intro bits h
  unfold rereadNear
  split_ifs
  · exact ⟨by decide, by decide⟩
  · exact ⟨by decide, by decide⟩
  · exact h

lemma conditionText_ne (float : String) (n : ℕ) :
    conditionText float ≠ String.ofList (List.replicate n 'x') := by
  intro heq
  have hmem : Char.ofNat 123 ∈ (conditionText float).toList := by
    rw [conditionText, String.toList_append]
    exact List.mem_append_left _ (by decide)
  rw [heq, String.toList_ofList, List.mem_replicate] at hmem
  exact absurd hmem.2 (by decide)

lemma writeNear_injective : Function.Injective writeNear := by
  have htexts : conditionText "1e-24" ≠ conditionText "1.0000000000000001e-24" := by
    decide +kernel
  have hcode := (Countable.exists_injective_nat Shape).choose_spec
  intro v w h
  unfold writeNear at h
  split_ifs at h with hv hw hw' hv' hw hw' hw hw'
  · exact hv.trans hw.symm
  · exact absurd h htexts
  · exact absurd h (conditionText_ne _ _)
  · exact absurd h.symm htexts
  · exact hv'.trans hw'.symm
  · exact absurd h (conditionText_ne _ _)
  · exact absurd h.symm (conditionText_ne _ _)
  · exact absurd h.symm (conditionText_ne _ _)
  · have hlen := congrArg (fun s : String => s.toList.length) h
    simp only [String.toList_ofList, List.length_replicate] at hlen
    exact Json.shape_inj v w (hcode hlen)

lemma readNear_ok {text : String} {doc : Json} (h : readNear text = .ok doc) :
    ∃ d : Json, d.depth ≤ depthLimit ∧ d.Held ∧ writeNear d = text ∧
      doc = d.mapFloats rereadNear := by
  unfold readNear at h
  split_ifs at h with hex
  cases h
  exact ⟨hex.choose, hex.choose_spec.1, hex.choose_spec.2.1, hex.choose_spec.2.2, rfl⟩

lemma readNear_writeNear {d : Json} (hdepth : d.depth ≤ depthLimit) (hheld : d.Held) :
    readNear (writeNear d) = .ok (d.mapFloats rereadNear) := by
  have hex : ∃ doc : Json, doc.depth ≤ depthLimit ∧ doc.Held ∧ writeNear doc = writeNear d :=
    ⟨d, hdepth, hheld, rfl⟩
  unfold readNear
  rw [dif_pos hex, writeNear_injective hex.choose_spec.2.2]

lemma readsBack_near : codecNear.ReadsBack where
  depth_le text doc h := by
    obtain ⟨d, hdepth, -, -, rfl⟩ := readNear_ok h
    exact (d.depth_mapFloats _).trans_le hdepth
  held text doc h := by
    obtain ⟨d, -, hheld, -, rfl⟩ := readNear_ok h
    exact d.held_mapFloats keepsFloats_near hheld
  read_write d hdepth hheld := readNear_writeNear hdepth hheld

lemma conditionSchema_wellFormed {bits : ℕ} (h : (JsonNumber.float bits).Held) :
    (conditionSchema bits).WellFormed graphemeLen := by
  have hnone : ∀ {α : Type} {p : α → Prop}, ∀ a ∈ (none : Option α), p a := fun _ ha => nomatch ha
  refine ⟨by simp [conditionSchema], ⟨⟨?_, ?_, ?_, ?_⟩, ⟨⟨?_, ?_, ?_, ?_⟩, trivial⟩⟩⟩
  · exact ⟨(fun _ _ h => nomatch h), hnone, hnone, hnone, hnone⟩
  · exact fun h => nomatch h
  · exact fun h => nomatch h
  · exact hnone
  · exact ⟨ordered_none_left, fits_none none, allU32_none, allU32_none⟩
  · exact fun h => nomatch h
  · exact fun h => nomatch h
  · intro d hd
    cases hd
    exact ⟨List.mem_singleton.mpr rfl, Json.fit_number h _⟩

/-- The text with `1e-24` is read as the double after it. -/
lemma read_condition (graphemeLen : String → ℕ) :
    OptionsSchema.fromJsonStr codecNear graphemeLen (conditionText "1e-24") =
      .ok (conditionSchema after) := by
  have hnear : (JsonNumber.float nearest).Held := ⟨by decide, by decide⟩
  have hafter : (JsonNumber.float after).Held := ⟨by decide, by decide⟩
  obtain ⟨hheld, hdepth⟩ :=
    (@conditionSchema_wellFormed graphemeLen _ hnear).serialize_held
  have hwrite : conditionText "1e-24" = writeNear (conditionSchema nearest).serialize := by
    rw [writeNear, if_pos rfl]
  have hmap : (conditionSchema nearest).mapFloats rereadNear = conditionSchema after := by
    simp [OptionsSchema.mapFloats, SchemaField.mapFloats, DependsOn.mapFloats, conditionSchema,
      Json.mapFloats, JsonNumber.mapFloat, rereadNear]
  rw [OptionsSchema.fromJsonStr, hwrite]
  simp only [codecNear, readNear_writeNear hdepth hheld, OptionsSchema.mapFloats_serialize, hmap]
  exact ofDocument_serialize (conditionSchema_wellFormed hafter)

/-- A schema with a float in a condition, written and read again. -/
theorem roundTrip_condition :
    OptionsSchema.fromJsonStr codecNear String.length
        ((conditionSchema after).toJsonStr codecNear) =
      .ok ((conditionSchema after).mapFloats codecNear.reread) :=
  roundTrip readsBack_near (read_condition String.length)

/-- The condition `1e-24` is not the same after the schema is written and parsed again. -/
theorem float_not_read_back :
    codecNear.ReadsBack ∧
      OptionsSchema.fromJsonStr codecNear String.length (conditionText "1e-24") =
        .ok (conditionSchema after) ∧
      (conditionSchema after).toJsonStr codecNear = conditionText "1.0000000000000001e-24" ∧
      OptionsSchema.fromJsonStr codecNear String.length
        ((conditionSchema after).toJsonStr codecNear) = .ok (conditionSchema nearest) ∧
      conditionSchema nearest ≠ conditionSchema after := by
  have hafter : (conditionSchema after).WellFormed String.length :=
    conditionSchema_wellFormed ⟨by decide, by decide⟩
  have hnearest : (conditionSchema nearest).WellFormed String.length :=
    conditionSchema_wellFormed ⟨by decide, by decide⟩
  have hne : conditionSchema nearest ≠ conditionSchema after := by
    simp [conditionSchema, nearest, after]
  have hdoc : (conditionSchema after).serialize ≠ (conditionSchema nearest).serialize := by
    intro heq
    have hparsed := @ofDocument_serialize codecNear _ _ hafter
    rw [heq, ofDocument_serialize hnearest] at hparsed
    exact hne (Except.ok.inj hparsed)
  refine ⟨readsBack_near, read_condition _, ?_, ?_, hne⟩
  · show writeNear (conditionSchema after).serialize = _
    unfold writeNear
    rw [if_neg hdoc, if_pos rfl]
  · rw [fromJsonStr_toJsonStr readsBack_near hafter]
    simp [OptionsSchema.mapFloats, SchemaField.mapFloats, DependsOn.mapFloats, conditionSchema,
      Json.mapFloats, JsonNumber.mapFloat, rereadNear, codecNear, nearest, after]

end Postit
