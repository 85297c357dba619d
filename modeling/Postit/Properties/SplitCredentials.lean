import Postit.Core.Credentials
import Postit.Properties.SchemaRoundTrip

/-!
# Splitting credentials

Each given value of a field that applies is in one of the two parts, a secret field's never in the
plain one, and the parts put together again are the fields they were, in another order.
-/

namespace Postit

open Framework

/-! ## The two parts -/

/-- The entry of the plain part, if it is one. -/
def plainEntry : String × CredentialValue → Option (String × Json)
  | (name, .plain v) => some (name, v)
  | (_, .secret _) => none

/-- The entry of the secret part, if it is one. -/
def secretEntry : String × CredentialValue → Option (String × String)
  | (_, .plain _) => none
  | (name, .secret text) => some (name, text)

lemma Members.insert_eq (ms : Members) (key : String) (v : Json) :
    ms.insert key v = SortedMap.insert ms key v := by
  induction ms with
  | nil => rfl
  | cons m ms ih =>
    obtain ⟨k, w⟩ := m
    rw [Members.insert, SortedMap.insert, ih]

namespace CredentialFields

variable {c : CredentialFields}

lemma foldl_splitStep (entries : List (String × CredentialValue))
    (acc : Members × List (String × String)) :
    entries.foldl splitStep acc = (SortedMap.insertAll acc.1 (entries.filterMap plainEntry),
      SortedMap.insertAll acc.2 (entries.filterMap secretEntry)) := by
  induction entries generalizing acc with
  | nil => rfl
  | cons entry entries ih =>
    obtain ⟨name, value⟩ := entry
    rw [List.foldl_cons, ih]
    cases value with
    | plain v =>
      simp only [splitStep, Members.insert_eq]
      rfl
    | secret text => rfl

lemma plainEntry_fst {e : String × CredentialValue} {m : String × Json}
    (h : plainEntry e = some m) : m.1 = e.1 := by
  obtain ⟨name, v | text⟩ := e <;> cases h
  rfl

lemma secretEntry_fst {e : String × CredentialValue} {m : String × String}
    (h : secretEntry e = some m) : m.1 = e.1 := by
  obtain ⟨name, v | text⟩ := e <;> cases h
  rfl

section Split

variable (h : (c.entries.map Prod.fst).Nodup)

include h

/-- With each name once, the plain part holds the plain entries. -/
lemma perm_plain : c.split.1.Perm (c.entries.filterMap plainEntry) := by
  rw [split, foldl_splitStep]
  exact SortedMap.perm_insertAll
    ((Members.sublist_filterMap (fun _ _ => plainEntry_fst) c.entries).nodup h)

lemma perm_secret : c.split.2.Perm (c.entries.filterMap secretEntry) := by
  rw [split, foldl_splitStep]
  exact SortedMap.perm_insertAll
    ((Members.sublist_filterMap (fun _ _ => secretEntry_fst) c.entries).nodup h)

lemma get?_plain (name : String) (v : Json) :
    c.split.1.get? name = some v ↔ (name, .plain v) ∈ c.entries := by
  have hnodup := (((perm_plain h).map Prod.fst).nodup_iff.mpr
    ((Members.sublist_filterMap (fun _ _ => plainEntry_fst) c.entries).nodup h))
  rw [Members.get?, SortedMap.lookup_eq_some_iff hnodup, (perm_plain h).mem_iff,
    List.mem_filterMap]
  constructor
  · rintro ⟨⟨name', v' | text⟩, hmem, hentry⟩ <;> cases hentry
    exact hmem
  · exact fun hmem => ⟨_, hmem, rfl⟩

lemma lookup_secret (name : String) (text : String) :
    c.split.2.lookup name = some text ↔ (name, .secret text) ∈ c.entries := by
  have hnodup := (((perm_secret h).map Prod.fst).nodup_iff.mpr
    ((Members.sublist_filterMap (fun _ _ => secretEntry_fst) c.entries).nodup h))
  rw [SortedMap.lookup_eq_some_iff hnodup, (perm_secret h).mem_iff, List.mem_filterMap]
  constructor
  · rintro ⟨⟨name', v | text'⟩, hmem, hentry⟩ <;> cases hentry
    exact hmem
  · exact fun hmem => ⟨_, hmem, rfl⟩

/-- The parts hold all entries, and put together hold the same. -/
lemma perm_fromParts : (fromParts c.split.1 c.split.2).entries.Perm c.entries := by
  have hparts : ∀ entries : List (String × CredentialValue),
      ((entries.filterMap plainEntry).map (fun m => (m.1, CredentialValue.plain m.2)) ++
        (entries.filterMap secretEntry).map fun m => (m.1, CredentialValue.secret m.2)).Perm
          entries := by
    intro entries
    induction entries with
    | nil => exact .refl _
    | cons entry entries ih =>
      obtain ⟨name, v | text⟩ := entry
      · exact ih.cons _
      · exact List.perm_middle.trans (ih.cons _)
  refine List.Perm.trans ?_ (hparts c.entries)
  exact ((perm_plain h).map _).append ((perm_secret h).map _)

/-- Every getter answers for the fields put together again as for the fields. -/
lemma get_fromParts (name : String) : (fromParts c.split.1 c.split.2).get name = c.get name := by
  have hperm := perm_fromParts h
  exact SortedMap.lookup_eq_of_perm hperm ((hperm.map Prod.fst).nodup_iff.mpr h) name

end Split

end CredentialFields

/-! ## What is parsed -/

section Parsed

variable {s : OptionsSchema} {codec : TextCodec} {graphemeLen : String → ℕ}
  {isRfc3339 : String → Bool} {values : Members} {fields : CredentialFields}

lemma entries_of_parse
    (h : s.parseCredentials codec graphemeLen isRfc3339 values = .ok fields) :
    fields.entries = s.fields.filterMap (s.credentialEntry codec values) := by
  unfold OptionsSchema.parseCredentials at h
  dsimp only at h
  split at h
  · cases h
    rfl
  · cases h

lemma credentialEntry_fst {f : SchemaField} {m : String × CredentialValue}
    (h : s.credentialEntry codec values f = some m) : m.1 = f.name := by
  unfold OptionsSchema.credentialEntry at h
  split_ifs at h
  obtain ⟨v, -, rfl⟩ := Option.map_eq_some_iff.mp h
  rfl

/-- The entries are the credentials of the fields that apply and have a value. -/
lemma mem_entries (h : s.parseCredentials codec graphemeLen isRfc3339 values = .ok fields)
    (name : String) (c : CredentialValue) : (name, c) ∈ fields.entries ↔
      ∃ f ∈ s.fields, f.name = name ∧ s.applies f values = true ∧
        ∃ v, values.get? name = some v ∧ f.credential codec v = c := by
  rw [entries_of_parse h, List.mem_filterMap]
  constructor
  · rintro ⟨f, hf, hentry⟩
    unfold OptionsSchema.credentialEntry at hentry
    split_ifs at hentry with happlies
    obtain ⟨v, hv, heq⟩ := Option.map_eq_some_iff.mp hentry
    cases heq
    exact ⟨f, hf, rfl, happlies, v, hv, rfl⟩
  · rintro ⟨f, hf, rfl, happlies, v, hv, rfl⟩
    refine ⟨f, hf, ?_⟩
    rw [OptionsSchema.credentialEntry, if_pos happlies, hv]
    rfl

lemma credential_eq_plain {f : SchemaField} {value v : Json} :
    f.credential codec value = .plain v ↔ f.secret = false ∧ value = v := by
  unfold SchemaField.credential
  cases f.secret <;> simp

lemma credential_eq_secret {f : SchemaField} {value : Json} {text : String} :
    f.credential codec value = .secret text ↔ f.secret = true ∧ secretText codec value = text := by
  unfold SchemaField.credential
  cases f.secret <;> simp

end Parsed

/-- A server's address, and the token for it. -/
def serverSchema : OptionsSchema where
  fields :=
    [{ name := "server_url"
       label := { key := "c.server", en := "Server" }
       help := none
       required := true
       kind := .string none none none
       noDefault := false
       secret := false
       consentText := none
       dependsOn := none },
      { name := "token"
        label := { key := "c.token", en := "Token" }
        help := none
        required := true
        kind := .string none none none
        noDefault := false
        secret := true
        consentText := none
        dependsOn := none }]

lemma serverSchema_parsed :
    OptionsSchema.fromJsonStr codecNear String.length (serverSchema.toJsonStr codecNear) =
      .ok serverSchema := by
  have hkind : (FieldKind.string none none none).WellFormed String.length :=
    ⟨(fun _ _ h => nomatch h), (fun _ h => nomatch h), (fun _ h => nomatch h),
      (fun _ h => nomatch h)⟩
  refine fromJsonStr_toJsonStr readsBack_near ⟨by decide, ⟨hkind, ?_, ?_, ?_⟩,
    ⟨hkind, ?_, ?_, ?_⟩, trivial⟩
  all_goals intros; simp_all

end Postit
