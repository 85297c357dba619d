import Mathlib.Logic.Relation
import Postit.Properties.OptionDefaults

/-!
# The options an agent sees

Filtering the values of a post's options leaves those of the fields that apply.  Whether a field
applies is asked of the field it depends on, also where that one is hidden: so the filtering keeps
valid values valid, changes nothing a second time, and lets nothing through that a chain of
conditions hides, exactly when no field waits on a hidden one for that.
-/

namespace Postit

variable {codec : TextCodec} {graphemeLen : String → ℕ} {isRfc3339 : String → Bool}
variable {s : OptionsSchema} {values : Members} {f g : SchemaField}

/-! ## Chains of conditions -/

/-- `f` depends on `g`. -/
def OptionsSchema.Waits (s : OptionsSchema) (g f : SchemaField) : Prop :=
  ∃ dep ∈ f.dependsOn, s.field dep.field = some g

/-- The field is shown: it applies, and so does every field on the chain of its conditions. -/
inductive OptionsSchema.Shown (s : OptionsSchema) (values : Members) : SchemaField → Prop
  | free {f : SchemaField} : f.dependsOn = none → Shown s values f
  | on {g f : SchemaField} : s.Waits g f → Shown s values g → s.applies f values = true →
      Shown s values f

/-- Fields up the chain of a field that is shown apply. -/
lemma OptionsSchema.Shown.applies (h : s.Shown values f) : s.applies f values = true := by
  cases h with
  | free hfree => simp [OptionsSchema.applies, hfree]
  | on _ _ happlies => exact happlies

lemma OptionsSchema.Waits.unique {g' : SchemaField} (h : s.Waits g f) (h' : s.Waits g' f) :
    g = g' := by
  obtain ⟨dep, hdep, hg⟩ := h
  obtain ⟨dep', hdep', hg'⟩ := h'
  obtain rfl : dep = dep' := Option.some.inj (Option.mem_def.mp hdep ▸ Option.mem_def.mp hdep')
  exact Option.some.inj (hg ▸ hg')

lemma OptionsSchema.Shown.of_waits (h : s.Shown values f) (hwaits : s.Waits g f) :
    s.Shown values g := by
  cases h with
  | free hfree =>
    obtain ⟨dep, hdep, -⟩ := hwaits
    rw [hfree] at hdep
    cases hdep
  | on hwaits' hg _ => exact hwaits.unique hwaits' ▸ hg

lemma OptionsSchema.Shown.of_chain (h : s.Shown values f)
    (hchain : Relation.TransGen s.Waits g f) : s.Shown values g := by
  induction hchain using Relation.TransGen.head_induction_on with
  | single hwaits => exact h.of_waits hwaits
  | head hwaits _ ih => exact ih.of_waits hwaits

/-- Conditions are on earlier fields: what holds of a field when it holds of the one it depends on
holds of every field. -/
lemma OptionsSchema.WellFormed.induct (h : s.WellFormed graphemeLen) {P : SchemaField → Prop}
    (step : ∀ f ∈ s.fields,
      (∀ dep ∈ f.dependsOn, ∃ g ∈ s.fields, s.field dep.field = some g ∧ P g) → P f) :
    ∀ f ∈ s.fields, P f := by
  have hfrom : ∀ fs pre : List SchemaField, s.fields = pre ++ fs →
      FieldsWellFormed graphemeLen (pre.map (·.name)) fs → (∀ e ∈ pre, P e) → ∀ f ∈ fs, P f := by
    intro fs
    induction fs with
    | nil => exact fun _ _ _ _ f hf => nomatch hf
    | cons e fs ih =>
      rintro pre heq ⟨hwf, hwfs⟩ hpre
      have hmem : e ∈ s.fields := by simp [heq]
      have he : P e := by
        refine step e hmem fun dep hdep => ?_
        obtain ⟨g, hg, hname⟩ := List.mem_map.mp (hwf.dependsOn dep hdep).1
        have hgmem : g ∈ s.fields := by simp [heq, hg]
        exact ⟨g, hgmem, hname ▸ h.field_of_mem hgmem, hpre g hg⟩
      intro f hf
      rcases List.mem_cons.mp hf with rfl | hf
      · exact he
      · refine ih (pre ++ [e]) (by simp [heq]) (by simpa using hwfs) ?_ f hf
        intro e' he'
        rcases List.mem_append.mp he' with he' | he'
        · exact hpre e' he'
        · exact List.mem_singleton.mp he' ▸ he
  exact hfrom s.fields [] rfl h.fields fun _ he => nomatch he

/-- A condition is on a field of the schema. -/
lemma OptionsSchema.WellFormed.exists_waits (h : s.WellFormed graphemeLen) (hf : f ∈ s.fields)
    {dep : DependsOn} (hdep : dep ∈ f.dependsOn) :
    ∃ g ∈ s.fields, s.field dep.field = some g := by
  revert dep
  refine h.induct (P := fun f => ∀ {dep}, dep ∈ f.dependsOn → ∃ g ∈ s.fields,
    s.field dep.field = some g) ?_ f hf
  intro f _ hdeps dep hdep
  obtain ⟨g, hg, hfield, -⟩ := hdeps dep hdep
  exact ⟨g, hg, hfield⟩

/-- A field that applies is shown when no field on the chain of its conditions is hidden. -/
lemma OptionsSchema.WellFormed.shown (h : s.WellFormed graphemeLen) (hf : f ∈ s.fields)
    (happlies : s.applies f values = true)
    (hchain : ∀ g, Relation.TransGen s.Waits g f → s.applies g values = true) :
    s.Shown values f := by
  revert happlies hchain
  refine h.induct (P := fun f => s.applies f values = true →
    (∀ g, Relation.TransGen s.Waits g f → s.applies g values = true) → s.Shown values f) ?_ f hf
  intro f _ hdeps happlies hchain
  cases hfree : f.dependsOn with
  | none => exact .free hfree
  | some dep =>
    obtain ⟨g, -, hfield, hshown⟩ := hdeps dep hfree
    have hwaits : s.Waits g f := ⟨dep, hfree, hfield⟩
    refine .on hwaits (hshown (hchain g (.single hwaits)) ?_) happlies
    exact fun e he => hchain e (he.tail hwaits)

/-! ## What is filtered -/

/-- The entry an agent sees of a field. -/
def OptionsSchema.entry (s : OptionsSchema) (values : Members) (f : SchemaField) :
    Option (String × Json) :=
  if s.applies f values then (values.get? f.name).map fun value => (f.name, value) else none

lemma applicable_eq (s : OptionsSchema) (values : Members) :
    s.applicable values = Members.extend [] (s.fields.filterMap (s.entry values)) := by
  unfold OptionsSchema.applicable
  rw [List.filterMap_filter]
  rfl

lemma fst_of_entry {m : String × Json} (h : s.entry values f = some m) : m.1 = f.name := by
  unfold OptionsSchema.entry at h
  split_ifs at h
  obtain ⟨v, -, rfl⟩ := Option.map_eq_some_iff.mp h
  rfl

/-- What is left under the name of a field is its value, when the field applies. -/
lemma OptionsSchema.WellFormed.get?_applicable (h : s.WellFormed graphemeLen)
    (hf : f ∈ s.fields) (values : Members) :
    (s.applicable values).get? f.name =
      if s.applies f values then values.get? f.name else none := by
  have hsub : ((s.fields.filterMap (s.entry values)).map Prod.fst).Sublist
      (s.fields.map (·.name)) := Members.sublist_filterMap (fun _ _ hm => fst_of_entry hm) s.fields
  have hnodup := hsub.nodup h.names
  rw [applicable_eq]
  cases hentry : s.entry values f with
  | some m =>
    have hm := hentry
    unfold OptionsSchema.entry at hm
    split_ifs at hm with happlies
    obtain ⟨v, hv, rfl⟩ := Option.map_eq_some_iff.mp hm
    rw [Members.get?_extend hnodup (List.mem_filterMap.mpr ⟨f, hf, hentry⟩), if_pos happlies, hv]
  | none =>
    have hnot : f.name ∉ (s.fields.filterMap (s.entry values)).map Prod.fst := by
      intro hmem
      obtain ⟨m, hm, hname⟩ := List.mem_map.mp hmem
      obtain ⟨e, he, hm⟩ := List.mem_filterMap.mp hm
      obtain rfl : e = f :=
        List.inj_on_of_nodup_map h.names he hf ((fst_of_entry hm).symm.trans hname)
      rw [hentry] at hm
      cases hm
    rw [Members.get?_extend_of_not_mem hnot]
    unfold OptionsSchema.entry at hentry
    split_ifs at hentry ⊢
    · rw [Option.map_eq_none_iff.mp hentry]
      rfl
    · rfl

/-- Nothing is left under any other key. -/
lemma get?_applicable_of_unknown {key : String} (hkey : key ∉ s.fields.map (·.name)) :
    (s.applicable values).get? key = none := by
  rw [applicable_eq, Members.get?_extend_of_not_mem]
  · rfl
  intro hmem
  obtain ⟨m, hm, rfl⟩ := List.mem_map.mp hmem
  obtain ⟨e, he, hm⟩ := List.mem_filterMap.mp hm
  exact hkey (List.mem_map.mpr ⟨e, he, (fst_of_entry hm).symm⟩)

/-- Every key that is left is a field's. -/
lemma OptionsSchema.WellFormed.known_of_mem (h : s.WellFormed graphemeLen) {key : String}
    (hkey : key ∈ (s.applicable values).map Prod.fst) : s.unknownKey key = [] := by
  obtain ⟨m, hm, rfl⟩ := List.mem_map.mp hkey
  rw [applicable_eq] at hm
  rcases Members.mem_extend hm with hm | hm
  · cases hm
  · obtain ⟨f, hf, hm⟩ := List.mem_filterMap.mp hm
    rw [OptionsSchema.unknownKey, fst_of_entry hm, h.field_of_mem hf]
    rfl

/-! ## What applies afterwards -/

section Afterwards

variable {dep : DependsOn} (h : s.WellFormed graphemeLen) (hdep : f.dependsOn = some dep)
  (hfield : s.field dep.field = some g)

include h hdep hfield

/-- A field on one that applies applies afterwards as before. -/
lemma applies_applicable_of_applies (hg : s.applies g values = true) :
    s.applies f (s.applicable values) = s.applies f values := by
  obtain ⟨hmem, hname⟩ := OptionsSchema.mem_of_field hfield
  unfold OptionsSchema.applies
  simp only [hdep]
  rw [← hname, h.get?_applicable hmem, if_pos hg]

/-- A field on a hidden one applies afterwards when that one's default meets the condition. -/
lemma applies_applicable_of_hidden (hg : s.applies g values = false) :
    s.applies f (s.applicable values) = true ↔
      ∃ d, g.defaultValue = some d ∧ d.same dep.equals = true := by
  obtain ⟨hmem, hname⟩ := OptionsSchema.mem_of_field hfield
  unfold OptionsSchema.applies
  simp only [hdep, hfield]
  rw [← hname, h.get?_applicable hmem]
  cases hd : g.defaultValue <;> simp [hg, hd]

end Afterwards

/-! ## Valid values -/

/-- The field must be given where it applies. -/
def SchemaField.Needed (f : SchemaField) : Prop := f.required = true ∨ f.noDefault = true

lemma validate_eq_nil_iff :
    s.validate graphemeLen isRfc3339 values = [] ↔
      (∀ f ∈ s.fields, s.applies f values = true →
        (values.get? f.name = none → ¬f.Needed) ∧
        ∀ v, values.get? f.name = some v → checkValue graphemeLen isRfc3339 f v = []) ∧
      ∀ key ∈ values.map Prod.fst, s.unknownKey key = [] := by
  unfold OptionsSchema.validate
  rw [List.append_eq_nil_iff, List.flatMap_eq_nil_iff, List.flatMap_eq_nil_iff]
  refine and_congr_left fun _ => forall₂_congr fun f _ => ?_
  unfold OptionsSchema.validateField SchemaField.Needed
  cases happlies : s.applies f values with
  | false => simp
  | true => cases hget : values.get? f.name <;> simp

/-- No field that is given and applies has a hidden one on the chain of its conditions. -/
def OptionsSchema.NoHiddenLink (s : OptionsSchema) (values : Members) : Prop :=
  ∀ f ∈ s.fields, s.applies f values = true → values.get? f.name ≠ none →
    ∀ g, Relation.TransGen s.Waits g f → s.applies g values = true

/-- No hidden field that must be given waits on a hidden field for that one's default. -/
def OptionsSchema.NoLateNeed (s : OptionsSchema) (values : Members) : Prop :=
  ∀ f ∈ s.fields, f.Needed → s.applies f values = false → ∀ dep ∈ f.dependsOn, ∀ g,
    s.field dep.field = some g → s.applies g values = false →
      ∀ d, g.defaultValue = some d → d.same dep.equals = false

/-- What filtering should do to the values: what is left is valid and is left again, it is the given
values of the fields that apply, and no field among them is hidden. -/
structure FilteredWell (graphemeLen : String → ℕ) (isRfc3339 : String → Bool) (s : OptionsSchema)
    (values : Members) : Prop where
  valid : s.validate graphemeLen isRfc3339 (s.applicable values) = []
  idempotent : s.applicable (s.applicable values) = s.applicable values
  entries : ∀ key v, (s.applicable values).get? key = some v ↔
    ∃ f ∈ s.fields, f.name = key ∧ s.applies f values = true ∧ values.get? key = some v
  shown : ∀ f ∈ s.fields, (s.applicable values).get? f.name ≠ none → s.Shown values f

/-- The given values of the fields that apply are left. -/
lemma OptionsSchema.WellFormed.entries (h : s.WellFormed graphemeLen) (values : Members)
    (key : String) (v : Json) :
    (s.applicable values).get? key = some v ↔
      ∃ f ∈ s.fields, f.name = key ∧ s.applies f values = true ∧ values.get? key = some v := by
  constructor
  · intro hget
    by_cases hkey : key ∈ s.fields.map (·.name)
    · obtain ⟨f, hf, rfl⟩ := List.mem_map.mp hkey
      rw [h.get?_applicable hf] at hget
      split_ifs at hget with happlies
      exact ⟨f, hf, rfl, happlies, hget⟩
    · rw [get?_applicable_of_unknown hkey] at hget
      cases hget
  · rintro ⟨f, hf, rfl, happlies, hget⟩
    rw [h.get?_applicable hf, if_pos happlies, hget]

/-- A field whose value is left applies, and was given. -/
lemma OptionsSchema.WellFormed.left_iff (h : s.WellFormed graphemeLen) (hf : f ∈ s.fields) :
    (s.applicable values).get? f.name ≠ none ↔
      s.applies f values = true ∧ values.get? f.name ≠ none := by
  rw [h.get?_applicable hf]
  split_ifs with happlies <;> simp [happlies]

/-- What is left is valid when no need comes up late. -/
lemma valid_applicable (h : s.WellFormed graphemeLen)
    (hvalid : s.validate graphemeLen isRfc3339 values = []) (hneed : s.NoLateNeed values) :
    s.validate graphemeLen isRfc3339 (s.applicable values) = [] := by
  obtain ⟨hfields, -⟩ := validate_eq_nil_iff.1 hvalid
  refine validate_eq_nil_iff.2 ⟨fun f hf happlies => ⟨fun hget hneeded => ?_, ?_⟩, ?_⟩
  · cases hbefore : s.applies f values with
    | true =>
      rw [h.get?_applicable hf, if_pos hbefore] at hget
      exact (hfields f hf hbefore).1 hget hneeded
    | false =>
      -- the field came up: it depends on a hidden one, whose default it waits for
      cases hdep : f.dependsOn with
      | none => simp [OptionsSchema.applies, hdep] at hbefore
      | some dep =>
        obtain ⟨g, -, hfield⟩ := h.exists_waits hf hdep
        cases hg : s.applies g values with
        | true =>
          rw [applies_applicable_of_applies h hdep hfield hg, hbefore] at happlies
          cases happlies
        | false =>
          obtain ⟨d, hd, hsame⟩ := (applies_applicable_of_hidden h hdep hfield hg).mp happlies
          rw [hneed f hf hneeded hbefore dep hdep g hfield hg d hd] at hsame
          cases hsame
  · intro v hget
    rw [h.get?_applicable hf] at hget
    split_ifs at hget with hbefore
    exact (hfields f hf hbefore).2 v hget
  · exact fun key hkey => h.known_of_mem hkey

/-- Filtering again changes nothing when no hidden field is linked. -/
lemma applicable_applicable (h : s.WellFormed graphemeLen) (hlink : s.NoHiddenLink values) :
    s.applicable (s.applicable values) = s.applicable values := by
  have hentry : s.fields.filterMap (s.entry (s.applicable values)) =
      s.fields.filterMap (s.entry values) := by
    refine List.filterMap_congr fun f hf => ?_
    unfold OptionsSchema.entry
    rw [h.get?_applicable hf]
    cases happlies : s.applies f values with
    | false => simp
    | true =>
      cases hget : values.get? f.name with
      | none => simp
      | some v =>
        have hagain : s.applies f (s.applicable values) = true := by
          cases hdep : f.dependsOn with
          | none => simp [OptionsSchema.applies, hdep]
          | some dep =>
            obtain ⟨g, -, hfield⟩ := h.exists_waits hf hdep
            have hg := hlink f hf happlies (by simp [hget]) g (.single ⟨dep, hdep, hfield⟩)
            rw [applies_applicable_of_applies h hdep hfield hg, happlies]
        simp [hagain]
  rw [applicable_eq s (s.applicable values), hentry, applicable_eq]

/-- For values that a parsed schema finds valid, filtering does what it should exactly when no given
field that applies has a hidden one on the chain of its conditions, and no hidden field that must be
given waits on a hidden field for that one's default. -/
theorem filteredWell_iff (hcodec : codec.ReadsBack) {src : String}
    (hparse : OptionsSchema.fromJsonStr codec graphemeLen src = .ok s)
    (hvalid : s.validate graphemeLen isRfc3339 values = []) :
    FilteredWell graphemeLen isRfc3339 s values ↔ s.NoHiddenLink values ∧ s.NoLateNeed values := by
  have h := fromJsonStr_ok hcodec hparse
  constructor
  · intro hwell
    constructor
    · intro f hf happlies hgiven g hchain
      exact ((hwell.shown f hf ((h.left_iff hf).mpr ⟨happlies, hgiven⟩)).of_chain hchain).applies
    · intro f hf hneeded hhidden dep hdep g hfield hg d hd
      by_contra hsame
      rw [Bool.not_eq_false] at hsame
      have happlies := (applies_applicable_of_hidden h hdep hfield hg).mpr ⟨d, hd, hsame⟩
      have hnone : (s.applicable values).get? f.name = none := by
        simp [h.get?_applicable hf, hhidden]
      exact ((validate_eq_nil_iff.1 hwell.valid).1 f hf happlies).1 hnone hneeded
  · rintro ⟨hlink, hneed⟩
    refine ⟨valid_applicable h hvalid hneed, applicable_applicable h hlink, h.entries values, ?_⟩
    intro f hf hleft
    obtain ⟨happlies, hgiven⟩ := (h.left_iff hf).mp hleft
    exact h.shown hf happlies (hlink f hf happlies hgiven)

/-! ## A field that waits on a hidden one -/

/-- An option of a text, with a condition. -/
def textOption (name : String) (required : Bool) (default_ : Option String)
    (dependsOn : Option DependsOn) : SchemaField where
  name := name
  label := { key := "o." ++ name, en := name }
  help := none
  required := required
  kind := .string none none default_
  noDefault := false
  secret := false
  consentText := none
  dependsOn := dependsOn

/-- A mode behind a switch, and two options that wait on the mode. -/
def modeSchema : OptionsSchema where
  fields :=
    [{ name := "advanced"
       label := { key := "o.advanced", en := "Advanced" }
       help := none
       required := false
       kind := .boolean none
       noDefault := false
       secret := false
       consentText := none
       dependsOn := none },
      textOption "mode" false (some "fast") (some ⟨"advanced", .bool true⟩),
      textOption "speed" false none (some ⟨"mode", .string "slow"⟩),
      textOption "note" true none (some ⟨"mode", .string "fast"⟩)]

lemma textOption_wellFormed {name : String} {required : Bool} {default_ : Option String}
    {dep : DependsOn} {earlier : List String} (hmem : dep.field ∈ earlier)
    (hfit : dep.equals.Fit equalsDepth) :
    (textOption name required default_ (some dep)).WellFormed String.length earlier := by
  refine ⟨⟨ordered_none_left, fits_none _, allU32_none, allU32_none⟩, ?_, ?_, ?_⟩
  · exact fun h => nomatch h
  · exact fun h => nomatch h
  · intro d hd
    cases hd
    exact ⟨hmem, hfit⟩

lemma modeSchema_wellFormed : modeSchema.WellFormed String.length := by
  refine ⟨by decide, ⟨trivial, ?_, ?_, fun _ h => nomatch h⟩, ?_, ?_, ?_, trivial⟩
  · exact fun h => nomatch h
  · exact fun h => nomatch h
  · exact textOption_wellFormed (by decide) (Json.fit_bool _ _)
  · exact textOption_wellFormed (by decide) (Json.fit_string _ _)
  · exact textOption_wellFormed (by decide) (Json.fit_string _ _)

lemma modeSchema_parsed :
    OptionsSchema.fromJsonStr codecNear String.length (modeSchema.toJsonStr codecNear) =
      .ok modeSchema :=
  fromJsonStr_toJsonStr readsBack_near modeSchema_wellFormed

/-- With the switch off and nothing behind it given, but for the note. -/
theorem filteredWell_iff_note :
    let values : Members := [("advanced", .bool false), ("note", .string "n")]
    FilteredWell String.length (fun _ => false) modeSchema values ↔
      modeSchema.NoHiddenLink values ∧ modeSchema.NoLateNeed values :=
  filteredWell_iff readsBack_near modeSchema_parsed rfl

/-- With the switch off the mode is hidden, but the speed that waits on it is not; without the mode
the speed does not apply any more, and the note is missing. -/
theorem filtered_again :
    let values : Members :=
      [("advanced", .bool false), ("mode", .string "slow"), ("speed", .string "9")]
    let validate := modeSchema.validate String.length fun _ => false
    OptionsSchema.fromJsonStr codecNear String.length (modeSchema.toJsonStr codecNear) =
        .ok modeSchema ∧
      validate values = [] ∧
      modeSchema.applicable values = [("advanced", .bool false), ("speed", .string "9")] ∧
      modeSchema.applicable (modeSchema.applicable values) = [("advanced", .bool false)] ∧
      (validate (modeSchema.applicable values)).map (·.code) = [.optionRequired] ∧
      ¬modeSchema.Shown values (textOption "speed" false none (some ⟨"mode", .string "slow"⟩)) := by
  refine ⟨modeSchema_parsed, rfl, rfl, rfl, rfl, ?_⟩
  intro hshown
  have hmode := (hshown.of_waits (g := modeSchema.fields[1]) ⟨_, rfl, rfl⟩).applies
  exact absurd hmode (by decide)

end Postit
