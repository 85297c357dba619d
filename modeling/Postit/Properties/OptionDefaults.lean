import Postit.Core.Options
import Postit.Properties.SchemaRoundTrip

/-!
# Defaults are valid values

A default of a parsed schema passes the checks of its field, unless it withholds the consent the
field asks for; and for a field that is not required, sending the default changes nothing.
-/

namespace Postit

variable {codec : TextCodec} {graphemeLen : String → ℕ} {isRfc3339 : String → Bool}
variable {s : OptionsSchema} {f : SchemaField}

/-! ## Fields by their names -/

/-- A field is found by its name. -/
lemma OptionsSchema.WellFormed.field_of_mem (h : s.WellFormed graphemeLen) (hf : f ∈ s.fields) :
    s.field f.name = some f := by
  have hfind : ∃ g, s.field f.name = some g := by
    rw [← Option.isSome_iff_exists, OptionsSchema.field, List.find?_isSome]
    exact ⟨f, hf, by simp⟩
  obtain ⟨g, hg⟩ := hfind
  have hname : g.name = f.name := by simpa using List.find?_some hg
  rw [hg, List.inj_on_of_nodup_map h.names (List.mem_of_find?_eq_some hg) hf hname]

lemma OptionsSchema.mem_of_field {name : String} (h : s.field name = some f) :
    f ∈ s.fields ∧ f.name = name :=
  ⟨List.mem_of_find?_eq_some h, by simpa using List.find?_some h⟩

/-! ## A default is accepted -/

/-- The value refuses the consent the field asks for. -/
def SchemaField.Withholds (f : SchemaField) (value : Json) : Prop :=
  f.consentText.isSome ∧ value = .bool false

lemma checkText_eq_nil {text : String} {min max : Option ℕ}
    (hmin : atLeast min (graphemeLen text)) (hmax : atMost max (graphemeLen text)) :
    checkText graphemeLen f (.string text) min max = [] := by
  have hlow : ∀ m, min = some m → ¬graphemeLen text < m := fun m hm => not_lt.mpr (hmin m hm)
  have hhigh : ∀ m, max = some m → ¬m < graphemeLen text := fun m hm => not_lt.mpr (hmax m hm)
  unfold checkText
  cases min <;> cases max <;> simp_all

/-- The default of a well-formed field passes its checks. -/
lemma checkValue_default {earlier : List String} (h : f.WellFormed graphemeLen earlier)
    {d : Json} (hd : f.defaultValue = some d) (hconsent : ¬f.Withholds d) :
    checkValue graphemeLen isRfc3339 f d = [] := by
  have hkind := h.kind
  unfold SchemaField.defaultValue at hd
  unfold checkValue
  cases hf : f.kind with
  | string minLength maxLength default_ =>
    rw [hf] at hkind hd
    obtain ⟨text, rfl, rfl⟩ := Option.map_eq_some_iff.mp hd
    obtain ⟨hmin, hmax⟩ := hkind.2.1 text rfl
    exact checkText_eq_nil hmin hmax
  | multilineText maxLength default_ =>
    rw [hf] at hkind hd
    obtain ⟨text, rfl, rfl⟩ := Option.map_eq_some_iff.mp hd
    obtain ⟨hmin, hmax⟩ := hkind.1 text rfl
    exact checkText_eq_nil hmin hmax
  | enum values default_ =>
    rw [hf] at hkind hd
    obtain ⟨text, rfl, rfl⟩ := Option.map_eq_some_iff.mp hd
    exact if_pos (hkind.2.2 text rfl)
  | boolean default_ =>
    rw [hf] at hd
    obtain ⟨b, rfl, rfl⟩ := Option.map_eq_some_iff.mp hd
    refine if_neg ?_
    rintro ⟨hsome, rfl⟩
    exact hconsent ⟨hsome, rfl⟩
  | integer minimum maximum default_ =>
    rw [hf] at hkind hd
    obtain ⟨n, rfl, rfl⟩ := Option.map_eq_some_iff.mp hd
    obtain ⟨-, hbounds, -, -, hi64⟩ := hkind
    simp only [asI64_jsonInt (hi64 n rfl), if_pos (hbounds n rfl)]
  | dateTime =>
    rw [hf] at hd
    cases hd

/-! ## Sending a default -/

section Sending

variable {d : Json} {values : Members} (h : s.WellFormed graphemeLen) (hf : f ∈ s.fields)
  (hd : f.defaultValue = some d) (hleft : values.get? f.name = none)

include h hf hd hleft in
/-- The default stands for the value left out. -/
lemma applies_insert_default (g : SchemaField) :
    s.applies g (values.insert f.name d) = s.applies g values := by
  unfold OptionsSchema.applies
  cases g.dependsOn with
  | none => rfl
  | some dep =>
    by_cases hdep : dep.field = f.name
    · simp [Members.get?_insert, hdep, hleft, h.field_of_mem hf, hd]
    · simp [Members.get?_insert, hdep]

include h hf hd hleft in
/-- The violations of each field are the same with the default as without a value. -/
lemma validateField_insert_default (hrequired : f.required = false)
    (haccepts : checkValue graphemeLen isRfc3339 f d = []) {g : SchemaField} (hg : g ∈ s.fields) :
    s.validateField graphemeLen isRfc3339 (values.insert f.name d) g =
      s.validateField graphemeLen isRfc3339 values g := by
  obtain ⟨earlier, hwf⟩ := h.fields.of_mem hf
  have hno : f.noDefault = false := by
    by_contra hno
    have hnone := hwf.noDefault (by simpa using hno)
    rw [SchemaField.defaultValue, hnone] at hd
    cases hd
  unfold OptionsSchema.validateField
  rw [applies_insert_default h hf hd hleft g, Members.get?_insert]
  by_cases hname : g.name = f.name
  · obtain rfl : g = f := List.inj_on_of_nodup_map h.names hg hf hname
    simp [hleft, haccepts, hrequired, hno]
  · simp [hname]

/-- Inserting a key of the schema adds no unknown one. -/
lemma flatMap_unknownKey_insert {key : String} (hkey : s.unknownKey key = []) (v : Json)
    (values : Members) :
    ((values.insert key v).map Prod.fst).flatMap s.unknownKey =
      (values.map Prod.fst).flatMap s.unknownKey := by
  induction values with
  | nil => simp [Members.insert, hkey]
  | cons m values ih =>
    obtain ⟨k, w⟩ := m
    unfold Members.insert
    split_ifs with hlt heq
    · simp [hkey]
    · simp [heq]
    · simp only [List.map_cons, List.flatMap_cons, ih]

end Sending

/-! ## A schema with defaults -/

/-- Three fields with defaults: a consent that is withheld, a name that is required, and a size. -/
def defaultsSchema : OptionsSchema where
  fields :=
    [{ name := "agree"
       label := { key := "o.agree", en := "I agree" }
       help := none
       required := false
       kind := .boolean (some false)
       noDefault := false
       secret := false
       consentText := some { key := "o.consent", en := "Music usage confirmation" }
       dependsOn := none },
      { name := "name"
        label := { key := "o.name", en := "Name" }
        help := none
        required := true
        kind := .string none none (some "a")
        noDefault := false
        secret := false
        consentText := none
        dependsOn := none },
      { name := "size"
        label := { key := "o.size", en := "Size" }
        help := none
        required := false
        kind := .integer (some 0) (some 9) (some 5)
        noDefault := false
        secret := false
        consentText := none
        dependsOn := none }]

lemma defaultsSchema_wellFormed : defaultsSchema.WellFormed String.length := by
  have hnone : ∀ {α : Type} {p : α → Prop}, ∀ a ∈ (none : Option α), p a := fun _ ha => nomatch ha
  refine ⟨by decide, ⟨trivial, ?_, ?_, hnone⟩, ⟨⟨?_, ?_, ?_, ?_⟩, ?_, ?_, hnone⟩,
    ⟨⟨?_, ?_, ?_, ?_, ?_⟩, ?_, ?_, hnone⟩, trivial⟩
  · exact fun h => nomatch h
  · exact fun _ => ⟨_, rfl⟩
  · exact ordered_none_left
  · exact fits_none _
  · exact allU32_none
  · exact allU32_none
  · exact fun h => nomatch h
  · exact fun h => nomatch h
  · decide
  · decide
  all_goals simp [AllI64, maxI64]

/-- The schema is parsed from its own text. -/
lemma defaultsSchema_parsed :
    OptionsSchema.fromJsonStr codecNear String.length (defaultsSchema.toJsonStr codecNear) =
      .ok defaultsSchema :=
  fromJsonStr_toJsonStr readsBack_near defaultsSchema_wellFormed

/-! ## Every default -/

/-- Every default of a parsed schema that does not withhold a consent is accepted by its field, and
when the field is not required, sending the default is as valid as leaving the field out. -/
theorem default_accepted (hcodec : codec.ReadsBack) {src : String}
    (hparse : OptionsSchema.fromJsonStr codec graphemeLen src = .ok s) (hf : f ∈ s.fields)
    {d : Json} (hd : f.defaultValue = some d) (hconsent : ¬f.Withholds d) :
    f.accepts graphemeLen isRfc3339 d = true ∧
      (f.required = false → ∀ values : Members, values.get? f.name = none →
        s.validate graphemeLen isRfc3339 (values.insert f.name d) =
          s.validate graphemeLen isRfc3339 values) := by
  have h := fromJsonStr_ok hcodec hparse
  obtain ⟨earlier, hwf⟩ := h.fields.of_mem hf
  have haccepts := @checkValue_default graphemeLen isRfc3339 f earlier hwf d hd hconsent
  refine ⟨by rw [SchemaField.accepts, haccepts]; rfl, ?_⟩
  intro hrequired values hleft
  have hknown : s.unknownKey f.name = [] := by
    simp [OptionsSchema.unknownKey, h.field_of_mem hf]
  unfold OptionsSchema.validate
  rw [flatMap_unknownKey_insert hknown]
  congr 1
  exact List.flatMap_congr fun g hg =>
    validateField_insert_default h hf hd hleft hrequired haccepts hg

/-- The size's default, in a schema that is parsed. -/
theorem default_accepted_size :
    ∃ f ∈ defaultsSchema.fields, f.name = "size" ∧
      f.accepts String.length (fun _ => false) (jsonInt 5) = true ∧
      defaultsSchema.validate String.length (fun _ => false)
          (Members.insert [("agree", .bool true)] "size" (jsonInt 5)) =
        defaultsSchema.validate String.length (fun _ => false) [("agree", .bool true)] := by
  have hf : defaultsSchema.fields[2] ∈ defaultsSchema.fields := List.getElem_mem _
  have h := @default_accepted codecNear String.length (fun _ => false) defaultsSchema _
    readsBack_near _ defaultsSchema_parsed hf (jsonInt 5) rfl (fun h => nomatch h.1)
  exact ⟨_, hf, rfl, h.1, h.2 rfl _ (by decide)⟩

/-- The default that withholds a consent is not accepted, and leaving it out is valid; a required
field's default is valid, and leaving it out is not. -/
theorem default_refused :
    let validate := defaultsSchema.validate String.length (fun _ => false)
    let name : Json := .string "a"
    OptionsSchema.fromJsonStr codecNear String.length (defaultsSchema.toJsonStr codecNear) =
        .ok defaultsSchema ∧
      (∃ f ∈ defaultsSchema.fields, f.name = "agree" ∧ f.defaultValue = some (.bool false) ∧
        f.accepts String.length (fun _ => false) (.bool false) = false) ∧
      (validate [("name", name)]).length = 0 ∧
      (validate [("agree", .bool false), ("name", name)]).length = 1 ∧
      (validate []).map (·.code) = [.optionRequired] := by
  refine ⟨defaultsSchema_parsed, ?_, rfl, rfl, rfl⟩
  exact ⟨defaultsSchema.fields[0], List.getElem_mem _, rfl, rfl, rfl⟩

end Postit
