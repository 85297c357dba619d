import Postit.Drafter.Generate

/-!
# Drafted targets

An answer's variants and the targets it left out are the targets asked for, each once, and so they
are when a repair's gaps are filled from the answer it repairs.  A generation asks at most twice,
records one row for the answers it got, and what it returns has a variant for every target the first
answer had one for.
-/

namespace Postit.Drafter

open Postit.Framework Postit.Framework.Str
open Postit.Data (AccountId)
open Postit.Posts (MediaItem ReplyTo)

/-! ## IDs in a text -/

section Uuid

/-- A number is the digits it has. -/
lemma eq_of_hexDigits (n : ℕ) : ∀ {a b : ℕ}, a < 16 ^ n → b < 16 ^ n →
    (∀ i < n, a / 16 ^ i % 16 = b / 16 ^ i % 16) → a = b := by
  induction n with
  | zero =>
    intro a b ha hb _
    omega
  | succ n ih =>
    intro a b ha hb h
    have hlast : a % 16 = b % 16 := by simpa using h 0 (Nat.succ_pos n)
    have hrest : a / 16 = b / 16 := by
      refine ih (by omega) (by omega) fun i hi => ?_
      have := h (i + 1) (by omega)
      rwa [pow_succ', ← Nat.div_div_eq_div_mul, ← Nat.div_div_eq_div_mul] at this
    omega

lemma hexChar_inj {m n : ℕ} (hm : m < 16) (hn : n < 16) (h : hexChar m = hexChar n) : m = n := by
  have : ∀ m < 16, ∀ n < 16, hexChar m = hexChar n → m = n := by decide
  exact this m hm n hn h

/-- The digits of a UUID, without the dashes between them. -/
lemma filter_uuidText (id : ℕ) : (uuidText id).toList.filter (· ≠ '-') =
    (List.range 32).map fun i => hexChar (id / 16 ^ (31 - i) % 16) := by
  have hhex : ∀ n < 16, hexChar n ≠ '-' := by decide
  have hfilter : ∀ l : Str, (∀ c ∈ l, ∃ n, c = hexChar (n % 16)) → l.filter (· ≠ '-') = l := by
    intro l hl
    rw [List.filter_eq_self]
    intro c hc
    obtain ⟨n, rfl⟩ := hl c hc
    simpa using hhex _ (Nat.mod_lt n (by decide))
  simp only [uuidText, String.toList_ofList, List.filter_append, List.filter_cons]
  rw [hfilter, hfilter, hfilter, hfilter, hfilter]
  · rfl
  all_goals
    intro c hc
    have hmem : c ∈ (List.range 32).map fun i => hexChar (id / 16 ^ (31 - i) % 16) := by
      first
        | exact List.mem_of_mem_drop hc
        | exact List.mem_of_mem_take hc
        | exact List.mem_of_mem_drop (List.mem_of_mem_take hc)
    obtain ⟨i, -, rfl⟩ := List.mem_map.mp hmem
    exact ⟨_, rfl⟩

lemma toLower_uuidText (id : ℕ) :
    (uuidText id).toList.map Char.toLower = (uuidText id).toList := by
  have hhex : ∀ n < 16, (hexChar n).toLower = hexChar n := by decide
  calc (uuidText id).toList.map Char.toLower
      = (uuidText id).toList.map fun c => c := by
        refine List.map_congr_left fun c hc => ?_
        obtain rfl | ⟨n, hn, rfl⟩ := mem_uuidText hc
        · rfl
        · exact hhex n hn
    _ = (uuidText id).toList := List.map_id' _

/-- Two IDs with one text are one. -/
lemma uuidText_inj {a b : ℕ} (ha : a < 2 ^ 128) (hb : b < 2 ^ 128)
    (h : uuidText a = uuidText b) : a = b := by
  have hdigits := filter_uuidText a
  rw [h, filter_uuidText b, List.map_inj_left] at hdigits
  refine eq_of_hexDigits 32 (by omega) (by omega) fun i hi => ?_
  have := hexChar_inj (Nat.mod_lt _ (by decide)) (Nat.mod_lt _ (by decide))
    (hdigits (31 - i) (List.mem_range.mpr (by omega)))
  rw [show 31 - (31 - i) = i by omega] at this
  exact this.symm

end Uuid

/-! ## Parsing -/

/-- Targets with distinct accounts, whose IDs are UUIDs. -/
structure Distinct (targets : List TargetBrief) : Prop where
  nodup : (targets.map TargetBrief.account).Nodup
  uuid : ∀ brief ∈ targets, brief.account < 2 ^ 128

/-- The variants and the missing ones are the targets, each once, the missing ones in request
order. -/
structure Parsed.Partitions (parsed : Parsed) (targets : List TargetBrief) : Prop where
  known : ∀ account ∈ parsed.variants, account ∈ targets.map TargetBrief.account
  missing : parsed.missing =
    (targets.map TargetBrief.account).filter fun account => account ∉ parsed.variants

section Parse

variable {targets : List TargetBrief} {brief : TargetBrief}

namespace Distinct

lemma eq_of_account (h : Distinct targets) {a b : TargetBrief} (ha : a ∈ targets)
    (hb : b ∈ targets) (heq : a.account = b.account) : a = b :=
  List.inj_on_of_nodup_map h.nodup ha hb heq

/-- A variant is for one target at most. -/
lemma find?_wanted (h : Distinct targets) (hmem : brief ∈ targets) {variant : RawVariant}
    (hwanted : brief.wanted variant = true) : targets.find? (·.wanted variant) = some brief := by
  cases hfind : targets.find? (·.wanted variant) with
  | none => exact absurd hwanted (List.find?_eq_none.mp hfind brief hmem)
  | some other =>
    have hother := List.find?_some hfind
    have hin := List.mem_of_find?_eq_some hfind
    simp only [TargetBrief.wanted, eqIgnoreAsciiCase, decide_eq_true_eq, toLower_uuidText]
      at hwanted hother
    have htext := String.toList_inj.mp (hother.trans hwanted.symm)
    exact congrArg some (h.eq_of_account hin hmem
      (uuidText_inj (h.uuid other hin) (h.uuid brief hmem) htext))

end Distinct

variable (u : CaseTables)

/-- A value gives a target without a variant the one it holds, when it is for that target. -/
lemma lookup_addVariant (h : Distinct targets) (hmem : brief ∈ targets)
    (variants : Table AccountId RawVariant) (value : Json) :
    (addVariant u targets variants value).lookup brief.account =
      (variants.lookup brief.account).or
        (((RawVariant.fromValue value).filter brief.wanted).map (kept u brief)) := by
  unfold addVariant
  cases hvalue : RawVariant.fromValue value with
  | none => simp
  | some variant =>
    by_cases hwanted : brief.wanted variant = true
    · simp only [h.find?_wanted hmem hwanted, Option.filter_some, hwanted, if_true,
        Option.map_some]
      split_ifs with hin
      · obtain ⟨held, hheld⟩ := Option.isSome_iff_exists.mp (AList.lookup_isSome.mpr hin)
        simp [hheld]
      · rw [AList.lookup_insert, AList.lookup_eq_none.mpr hin, Option.none_or]
    · simp only [Option.filter_some, if_neg hwanted, Option.map_none, Option.or_none]
      split
      · rfl
      · next other hfind =>
        have hne : brief.account ≠ other.account := by
          intro heq
          obtain rfl := h.eq_of_account hmem (List.mem_of_find?_eq_some hfind) heq
          exact hwanted (List.find?_some (p := fun t : TargetBrief => t.wanted variant) hfind)
        split_ifs
        · rfl
        · exact AList.lookup_insert_ne hne

/-- A target's variant is the first well-formed one that is for it. -/
lemma lookup_foldl_addVariant (h : Distinct targets) (hmem : brief ∈ targets)
    (values : List Json) : ∀ variants : Table AccountId RawVariant,
    (values.foldl (addVariant u targets) variants).lookup brief.account =
      (variants.lookup brief.account).or
        (((values.filterMap RawVariant.fromValue).find? brief.wanted).map (kept u brief)) := by
  induction values with
  | nil => simp
  | cons value values ih =>
    intro variants
    rw [List.foldl_cons, ih, lookup_addVariant u h hmem, Option.or_assoc]
    congr 1
    cases hvalue : RawVariant.fromValue value with
    | none => simp [hvalue]
    | some variant =>
      rw [List.filterMap_cons_some hvalue, List.find?_cons]
      cases hwanted : brief.wanted variant <;> simp [Option.filter, hwanted]

lemma mem_addVariant {variants : Table AccountId RawVariant} {value : Json} {account : AccountId}
    (h : account ∈ addVariant u targets variants value) :
    account ∈ variants ∨ account ∈ targets.map TargetBrief.account := by
  unfold addVariant at h
  split at h
  · exact .inl h
  · split at h
    · exact .inl h
    · next brief hfind =>
      split_ifs at h with hin
      · exact .inl h
      · rcases AList.mem_insert _ |>.mp h with rfl | hold
        · exact .inr (List.mem_map_of_mem (List.mem_of_find?_eq_some hfind))
        · exact .inl hold

lemma mem_foldl_addVariant {account : AccountId} (values : List Json) :
    ∀ {variants : Table AccountId RawVariant},
      account ∈ values.foldl (addVariant u targets) variants →
      account ∈ variants ∨ account ∈ targets.map TargetBrief.account := by
  induction values with
  | nil => exact fun h => .inl h
  | cons value values ih =>
    intro variants h
    rcases ih h with hstep | htarget
    · exact mem_addVariant u hstep
    · exact .inr htarget

lemma partitions_parseValues (targets : List TargetBrief) (values : List Json) :
    (parseValues u targets values).Partitions targets where
  known _ h := (mem_foldl_addVariant u values h).resolve_left (AList.notMem_empty _)
  missing := rfl

/-- What an answer that parsed holds. -/
lemma of_parse_ok {wire : Str → Option (List Json)} {text : Str} {parsed : Parsed}
    (h : parse u wire text targets = .ok parsed) :
    ∃ json values, extractJson (stripThink text) = some json ∧ wire json = some values ∧
      parsed = parseValues u targets values := by
  unfold parse at h
  split at h
  · cases h
  · next json hjson =>
    split at h
    · cases h
    · next values hvalues =>
      cases h
      exact ⟨json, values, hjson, hvalues, rfl⟩

end Parse

/-! ## Filling the gaps -/

section Fill

variable {newer earlier : Parsed} {targets : List TargetBrief} {account : AccountId}

/-- A missing account takes the earlier answer's variant, the others keep what they have. -/
lemma lookup_fill (earlier : Parsed) (account : AccountId) (missing : List AccountId) :
    ∀ variants : Table AccountId RawVariant,
      (Parsed.fillFrom ⟨variants, missing⟩ earlier).variants.lookup account =
        if account ∈ missing then
          (earlier.variants.lookup account).or (variants.lookup account)
        else variants.lookup account := by
  induction missing with
  | nil => exact fun _ => rfl
  | cons next missing ih =>
    intro variants
    have hstep : ∃ filled : Table AccountId RawVariant,
        (Parsed.fillFrom ⟨variants, next :: missing⟩ earlier).variants =
          (Parsed.fillFrom ⟨filled, missing⟩ earlier).variants ∧
        filled.lookup next = (earlier.variants.lookup next).or (variants.lookup next) ∧
        (account ≠ next → filled.lookup account = variants.lookup account) := by
      refine ⟨_, rfl, ?_⟩
      cases hnext : earlier.variants.lookup next with
      | none => exact ⟨rfl, fun _ => rfl⟩
      | some variant => exact ⟨AList.lookup_insert _, AList.lookup_insert_ne⟩
    obtain ⟨filled, hfilled, hnext, hother⟩ := hstep
    rw [hfilled, ih]
    by_cases heq : account = next
    · subst heq
      cases hearlier : earlier.variants.lookup account <;> simp [hnext, hearlier]
    · simp [hother heq, heq]

namespace Parsed.Partitions

lemma mem_missing (h : newer.Partitions targets) : account ∈ newer.missing ↔
    account ∈ targets.map TargetBrief.account ∧ account ∉ newer.variants := by
  simp [h.missing]

/-- A target has the newer answer's variant, or else the earlier one's. -/
lemma lookup_fillFrom (h : newer.Partitions targets)
    (hmem : account ∈ targets.map TargetBrief.account) :
    (newer.fillFrom earlier).variants.lookup account =
      (newer.variants.lookup account).or (earlier.variants.lookup account) := by
  rw [lookup_fill earlier account newer.missing newer.variants]
  split_ifs with hmissing
  · rw [AList.lookup_eq_none.mpr (h.mem_missing.mp hmissing).2, Option.or_none, Option.none_or]
  · have hin : account ∈ newer.variants := by
      by_contra hout
      exact hmissing (h.mem_missing.mpr ⟨hmem, hout⟩)
    obtain ⟨variant, hvariant⟩ := Option.isSome_iff_exists.mp (AList.lookup_isSome.mpr hin)
    rw [hvariant, Option.some_or]

/-- What is filled in is for a target. -/
lemma known_fillFrom (h : newer.Partitions targets)
    (hmem : account ∈ (newer.fillFrom earlier).variants) :
    account ∈ targets.map TargetBrief.account := by
  by_contra hout
  have hnew : account ∉ newer.variants := fun hin => hout (h.known account hin)
  have hmissing : account ∉ newer.missing := fun hin => hout (h.mem_missing.mp hin).1
  have hnone := lookup_fill earlier account newer.missing newer.variants
  rw [if_neg hmissing, AList.lookup_eq_none.mpr hnew] at hnone
  exact AList.lookup_eq_none.mp hnone hmem

/-- What neither answer has is missing. -/
lemma missing_fillFrom (h : newer.Partitions targets) : (newer.fillFrom earlier).missing =
    (targets.map TargetBrief.account).filter fun account =>
      account ∉ newer.variants ∧ account ∉ earlier.variants := by
  show newer.missing.filter (fun account => (earlier.variants.lookup account).isNone) = _
  rw [h.missing, List.filter_filter]
  refine List.filter_congr fun account _ => ?_
  rw [Bool.eq_iff_iff]
  simp [and_comm, AList.lookup_eq_none]

lemma fillFrom (h : newer.Partitions targets) : (newer.fillFrom earlier).Partitions targets where
  known _ hmem := h.known_fillFrom hmem
  missing := by
    rw [h.missing_fillFrom]
    refine List.filter_congr fun account hmem => ?_
    rw [decide_eq_decide, ← AList.lookup_eq_none, ← AList.lookup_eq_none, ← AList.lookup_eq_none,
      h.lookup_fillFrom hmem, Option.or_eq_none_iff]

end Parsed.Partitions

end Fill

/-! ## The draft -/

section Drafts

variable {parsed : Parsed} {targets : List TargetBrief} {brief : TargetBrief}
  {media : List MediaItem} {link : Option Url} {replyTo : Option ReplyTo}
  {language : AccountId → EmailLanguage}

lemma toDraft_overrides : (toDraft parsed targets media link replyTo language).overrides =
    (∅ : Table AccountId PostOverride).insertAll
      (targets.map fun brief => (brief.account, overrideOf parsed language brief)) := by
  rw [Table.insertAll, List.foldl_map]
  rfl

lemma lookup_toDraft (h : Distinct targets) (hmem : brief ∈ targets) :
    (toDraft parsed targets media link replyTo language).overrides.lookup brief.account =
      some (overrideOf parsed language brief) := by
  rw [toDraft_overrides]
  refine Table.lookup_insertAll_of_mem ?_ (List.mem_map_of_mem hmem)
  rw [List.map_map]
  exact h.nodup

/-- Exactly the targets have an override. -/
lemma mem_toDraft {account : AccountId} :
    account ∈ (toDraft parsed targets media link replyTo language).overrides ↔
      account ∈ targets.map TargetBrief.account := by
  rw [toDraft_overrides, Table.mem_insertAll, List.map_map]
  exact or_iff_right (AList.notMem_empty _)

/-- What a target is given of a variant. -/
def Plan.written (plan : Plan) (brief : TargetBrief) (variant : RawVariant) : PostOverride :=
  { text := some variant.text
    tags := some (if plan.mode = .reply then [] else variant.tags)
    email := if brief.isEmail then
      some (emailDocument (some variant) (plan.emailLanguage brief.account)) else none }

lemma Plan.lookup_draft {plan : Plan} (h : Distinct plan.briefs) (hmem : brief ∈ plan.briefs)
    {variant : RawVariant} (hvariant : parsed.variants.lookup brief.account = some variant) :
    (plan.draft parsed).overrides.lookup brief.account = some (plan.written brief variant) := by
  unfold Plan.draft Plan.written
  by_cases hmode : plan.mode = .reply
  · simp only [if_pos hmode, Table.lookup_updateWhere, lookup_toDraft h hmem, overrideOf, hvariant,
      Option.map_some, Option.getD_some, if_true]
  · simp only [if_neg hmode, lookup_toDraft h hmem, overrideOf, hvariant, Option.map_some,
      Option.getD_some]

end Drafts

/-! ## Reading an answer -/

section Reading

variable {lib : Validation.Library} {plan : Plan} {wire : Str → Option (List Json)}
  {now : Instant} {answer : ChatResponse} {parsed : Parsed}

/-- White space holds no JSON. -/
lemma extractJson_blank {text : Str} (h : Str.trim text = []) :
    extractJson (stripThink text) = none := by
  have hstart : Str.trimStart text = [] := by
    cases hs : Str.trimStart text with
    | nil => rfl
    | cons c rest =>
      have hwhite : isWhiteSpace c = true := by
        rw [Str.trim, Str.trimEnd_eq_nil_iff, hs] at h
        exact h c List.mem_cons_self
      have hfirst := List.head?_dropWhile_not isWhiteSpace text
      rw [← Str.trimStart, hs] at hfirst
      simp [hwhite] at hfirst
  have hthink : stripThink text = text := by
    rw [stripThink, hstart]
    rfl
  have hnone : JsonText.isJson [] = false ∧ fenced [] = none ∧ inProse [] = none := by decide
  simp [extractJson, hthink, h, hnone]

lemma not_blank_of_parse {u : CaseTables} {text : Str} {targets : List TargetBrief}
    (h : parse u wire text targets = .ok parsed) : (Str.trim text).isEmpty = false := by
  obtain ⟨json, values, hjson, -⟩ := of_parse_ok u h
  cases htrim : Str.trim text with
  | nil => simp [extractJson_blank htrim] at hjson
  | cons => rfl

/-- An answer is read as what it parses to, its gaps filled, when it has a variant. -/
lemma readAnswer_of_parse (h : parse lib.tables wire answer.text plan.briefs = .ok parsed)
    {earlier : Option Parsed} {account : AccountId}
    (hmem : account ∈ ((earlier.map parsed.fillFrom).getD parsed).variants) :
    readAnswer lib plan wire answer earlier = .ok ((earlier.map parsed.fillFrom).getD parsed) := by
  have hentries : ((earlier.map parsed.fillFrom).getD parsed).variants.entries.isEmpty = false := by
    cases hempty : ((earlier.map parsed.fillFrom).getD parsed).variants.entries with
    | nil =>
      rw [AList.mem_keys, AList.keys, hempty] at hmem
      cases hmem
    | cons => rfl
  simp [readAnswer, not_blank_of_parse h, h, hentries]

lemma of_readAnswer_ok {earlier : Option Parsed}
    (h : readAnswer lib plan wire answer earlier = .ok parsed) :
    ∃ own, parse lib.tables wire answer.text plan.briefs = .ok own ∧
      parsed = (earlier.map own.fillFrom).getD own := by
  unfold readAnswer at h
  split_ifs at h
  split at h
  · cases h
  · next own hparse =>
    dsimp only at h
    split_ifs at h
    cases h
    exact ⟨own, hparse, rfl⟩

/-- What an answer that can be read is checked as. -/
lemma evaluate_of_read {earlier : Option Parsed}
    (h : readAnswer lib plan wire answer earlier = .ok parsed) :
    (evaluate lib plan now wire answer earlier).parsed = some parsed ∧
      (evaluate lib plan now wire answer earlier).checked = some (plan.draft parsed,
        (checkTargets lib plan now parsed (plan.draft parsed)).1) := by
  simp [evaluate, h]

lemma of_evaluate_checked {earlier : Option Parsed} {draft : Draft} {violations : Violations}
    (h : (evaluate lib plan now wire answer earlier).checked = some (draft, violations)) :
    ∃ parsed, readAnswer lib plan wire answer earlier = .ok parsed ∧ draft = plan.draft parsed ∧
      violations = (checkTargets lib plan now parsed draft).1 := by
  cases hread : readAnswer lib plan wire answer earlier with
  | error text => simp [evaluate, hread] at h
  | ok parsed =>
    rw [(evaluate_of_read hread).2] at h
    cases h
    exact ⟨parsed, rfl, rfl, rfl⟩

lemma mem_checkVariant {draft : Draft} {isMissing : Bool} {target : Target} {brief : TargetBrief}
    {path : String} {message : Message} :
    Found.rule path message ∉ (checkVariant lib plan now draft isMissing target brief).1 := by
  unfold checkVariant
  split <;> simp

/-- A target with a variant breaks no rule of the drafter. -/
lemma no_rule_of_variant {draft : Draft} {account : AccountId} (hmissing : account ∉ parsed.missing)
    {found : List Found}
    (h : (checkTargets lib plan now parsed draft).1.lookup account = some found) (path : String)
    (message : Message) : Found.rule path message ∉ found := by
  suffices ∀ found, (checkTargets lib plan now parsed draft).1.lookup account = some found →
      Found.rule path message ∉ found from this found h
  unfold checkTargets
  refine List.foldlRecOn (motive := fun acc : Violations × List String => ∀ found,
    acc.1.lookup account = some found → Found.rule path message ∉ found) _ _ ?_ ?_
  · intro found hfound
    cases hfound
  · rintro ⟨violations, problems⟩ hacc ⟨target, brief⟩ - found hfound
    dsimp only at hacc hfound
    split_ifs at hfound with hempty
    · exact hacc found hfound
    · by_cases heq : account = brief.account
      · subst heq
        rw [AList.lookup_insert, Option.some.injEq] at hfound
        subst hfound
        simpa [checkTarget, hmissing] using mem_checkVariant
      · rw [AList.lookup_insert_ne heq] at hfound
        exact hacc found hfound

/-- The draft has what a target is given of the variant, and the target breaks no rule of the
drafter. -/
structure Covered (plan : Plan) (brief : TargetBrief) (variant : RawVariant) (draft : Draft)
    (violations : Violations) : Prop where
  override : draft.overrides.lookup brief.account = some (plan.written brief variant)
  noRule : ∀ found, violations.lookup brief.account = some found →
    ∀ path message, Found.rule path message ∉ found

variable {brief : TargetBrief} {variant : RawVariant} {draft : Draft} {violations : Violations}

lemma covered_of_parsed (h : Distinct plan.briefs) (hmem : brief ∈ plan.briefs)
    (hparts : parsed.Partitions plan.briefs)
    (hvariant : parsed.variants.lookup brief.account = some variant) :
    Covered plan brief variant (plan.draft parsed)
      (checkTargets lib plan now parsed (plan.draft parsed)).1 where
  override := plan.lookup_draft h hmem hvariant
  noRule found hfound := by
    refine no_rule_of_variant ?_ hfound
    intro hmissing
    rw [hparts.mem_missing, ← AList.lookup_eq_none, hvariant] at hmissing
    cases hmissing.2

/-- The checked answer covers what an answer before it had a variant for. -/
lemma covered_of_evaluate {earlier : Parsed} (h : Distinct plan.briefs) (hmem : brief ∈ plan.briefs)
    (hvariant : earlier.variants.lookup brief.account = some variant)
    (hchecked : (evaluate lib plan now wire answer (some earlier)).checked =
      some (draft, violations)) :
    ∃ own variant', parse lib.tables wire answer.text plan.briefs = .ok own ∧
      Covered plan brief variant' draft violations ∧
      (variant' = variant ∨ own.variants.lookup brief.account = some variant') := by
  obtain ⟨parsed, hread, rfl, rfl⟩ := of_evaluate_checked hchecked
  obtain ⟨own, hparse, rfl⟩ := of_readAnswer_ok hread
  obtain ⟨_, values, -, -, hown⟩ := of_parse_ok _ hparse
  have hparts : own.Partitions plan.briefs := hown ▸ partitions_parseValues _ _ _
  have hfill : (own.fillFrom earlier).variants.lookup brief.account =
      (own.variants.lookup brief.account).or (earlier.variants.lookup brief.account) :=
    hparts.lookup_fillFrom (List.mem_map_of_mem hmem)
  cases hnew : own.variants.lookup brief.account with
  | none =>
    rw [hnew, Option.none_or, hvariant] at hfill
    exact ⟨own, variant, hparse, covered_of_parsed h hmem hparts.fillFrom hfill, .inl rfl⟩
  | some variant' =>
    rw [hnew, Option.some_or] at hfill
    exact ⟨own, variant', hparse, covered_of_parsed h hmem hparts.fillFrom hfill, .inr hnew⟩

end Reading

/-! ## Asking and recording -/

/-- The answers the provider gives to the calls, after those before. -/
def answersTo (o : Outside) : List ChatRequest → List ChatRequest → List ChatResponse
  | _, [] => []
  | before, call :: calls =>
    (o.chat (before ++ [call])).toOption.toList ++ answersTo o (before ++ [call]) calls

/-- The tokens of the answers that told them, when one did, held at the largest number the column
takes. -/
def summed (count : Usage → UInt32) (answers : List ChatResponse) : Option ℤ :=
  let told := answers.filterMap ChatResponse.usage
  if told.isEmpty then none
  else some (min ((told.map fun usage => (count usage).toNat).sum : ℕ) (2 ^ 31 - 1))

/-- A row with the summed usage of the answers was added. -/
def RowOf (answers : List ChatResponse) (w w' : World) : Prop :=
  ∃ row : NewAiGeneration, w'.rows = w.rows ++ [row] ∧
    row.inputTokens = summed Usage.inputTokens answers ∧
    row.outputTokens = summed Usage.outputTokens answers

/-- A row with the usage was added, and nothing asked. -/
def Recorded (usage : Option Usage) (w w' : World) : Prop :=
  w'.asked = w.asked ∧ ∃ row : NewAiGeneration, w'.rows = w.rows ++ [row] ∧
    row.inputTokens = usage.map (fun u => tokens u.inputTokens) ∧
    row.outputTokens = usage.map (fun u => tokens u.outputTokens)

/-- A database call failed. -/
def DataFailed (e : DrafterError) : Prop := ∃ d, e = .data d

section Generate

variable {o : Outside} {record : Record} {usage : Option Usage} {outcome : GenerationOutcome}
  {evaluated : Evaluated} {notes : List Message} {w w' : World}

lemma insertRow_ends (new : NewAiGeneration) : Ends (insertRow o new w)
    (fun _ w' => w' = { w with rows := w.rows ++ [new] }) (fun e w' => DataFailed e ∧ w' = w) := by
  unfold insertRow Ends
  cases o.insertFails new with
  | none => rfl
  | some d => exact ⟨⟨d, rfl⟩, rfl⟩

/-- A row is added, with its provider or without one. -/
lemma insertGeneration_ends (new : NewAiGeneration) : Ends (insertGeneration o new w)
    (fun _ w' => ∃ providerId, w' = { w with rows := w.rows ++ [{ new with providerId }] })
    (fun e w' => DataFailed e ∧ w' = w) := by
  have hrow := insertRow_ends (o := o) (w := w) new
  unfold insertGeneration
  split
  · exact hrow.mono (fun _ _ h => ⟨new.providerId, h⟩) fun _ _ h => h
  · split
    · exact (insertRow_ends _).mono (fun _ _ h => ⟨none, h⟩) fun _ _ h => h
    · exact hrow.mono (fun _ _ h => ⟨new.providerId, h⟩) fun _ _ h => h

lemma recordGeneration_ends : Ends (recordGeneration o record usage outcome w)
    (fun _ w' => Recorded usage w w') (fun e w' => DataFailed e ∧ w' = w) := by
  refine Ends.bind (insertGeneration_ends _) ?_
  rintro _ _ ⟨providerId, rfl⟩
  exact ⟨rfl, _, rfl, rfl, rfl⟩

/-- What came of the answers is recorded once, and returned when they could be used. -/
lemma conclude_ends : Ends (conclude o record usage evaluated notes w)
    (fun g w' => Recorded usage w w' ∧ evaluated.checked = some (g.draft, g.violations))
    (fun e w' => DataFailed e ∧ w' = w ∨ Recorded usage w w' ∧ evaluated.checked = none) := by
  unfold conclude
  cases hchecked : evaluated.checked with
  | none =>
    refine Ends.bind (recordGeneration_ends.mono (fun _ _ h => h) fun _ _ h => .inl h) ?_
    exact fun _ _ h => .inr ⟨h, rfl⟩
  | some result =>
    obtain ⟨draft, violations⟩ := result
    refine Ends.bind (recordGeneration_ends.mono (fun _ _ h => h) fun _ _ h => .inl h) ?_
    exact fun _ _ h => ⟨h, rfl⟩

variable {lib : Validation.Library} {wire : Str → Option (List Json)} {plan : Plan}
  {clock : ℕ → Instant} {chat : ChatRequest} {first : ChatResponse}

lemma tokens_saturatingAdd (a b : UInt32) :
    tokens (saturatingAdd a b) = min ((a.toNat + b.toNat : ℕ) : ℤ) (2 ^ 31 - 1) := by
  have ha := a.toNat_lt
  have hb := b.toNat_lt
  simp only [tokens, saturatingAdd, u32Max, UInt32.toNat_ofNat']
  omega

/-- The usage of one answer is its sum. -/
lemma Recorded.one (h : Recorded first.usage w w') : RowOf [first] w w' := by
  obtain ⟨-, row, hrows, hinput, houtput⟩ := h
  refine ⟨row, hrows, hinput.trans ?_, houtput.trans ?_⟩
  all_goals
    unfold summed
    cases hfirst : first.usage <;> simp [hfirst, tokens]

/-- The usage of two answers, added and then held, is their sum held. -/
lemma Recorded.two {second : ChatResponse}
    (h : Recorded (addUsage first.usage second.usage) w w') : RowOf [first, second] w w' := by
  obtain ⟨-, row, hrows, hinput, houtput⟩ := h
  refine ⟨row, hrows, hinput.trans ?_, houtput.trans ?_⟩
  all_goals
    unfold summed
    cases hfirst : first.usage <;> cases hsecond : second.usage <;>
      simp [hfirst, hsecond, addUsage, tokens_saturatingAdd]

/-- What comes of the answers to the calls from here on, when what was asked is told by them. -/
lemma answersTo_single {before : List ChatRequest} {call : ChatRequest} {answer : ChatResponse}
    (h : o.chat (before ++ [call]) = .ok answer) : answersTo o before [call] = [answer] := by
  simp [answersTo, h, Except.toOption]

/-- A repair loses no answer that could be used. -/
lemma checked_of_afterRepair {second : ChatResponse}
    (h : (afterRepair lib wire plan clock evaluated second).checked = none) :
    evaluated.checked = none := by
  unfold afterRepair at h
  dsimp only at h
  split_ifs at h with hagain
  · rcases hagain with hsome | hnone
    · rw [h] at hsome
      cases hsome
    · exact Option.isNone_iff_eq_none.mp hnone
  · exact h

/-- The first answer has a problem, or it is what is concluded; a repair is asked for once. -/
lemma answered_ends : Ends (answered o lib wire plan clock chat record notes first w)
    (fun g w' => ∃ calls, calls.length ≤ 1 ∧ w'.asked = w.asked ++ calls ∧
      RowOf (first :: answersTo o w.asked calls) w w' ∧
      ∃ evaluated, evaluated.checked = some (g.draft, g.violations) ∧
        (evaluated = evaluate lib plan (clock 0) wire first none ∨
          ∃ repair second, calls = [repair] ∧ o.chat (w.asked ++ [repair]) = .ok second ∧
            evaluated = afterRepair lib wire plan clock
              (evaluate lib plan (clock 0) wire first none) second))
    (fun e w' => ∃ calls, calls.length ≤ 1 ∧ w'.asked = w.asked ++ calls ∧
      (DataFailed e ∨ RowOf (first :: answersTo o w.asked calls) w w' ∧
        (evaluate lib plan (clock 0) wire first none).checked = none)) := by
  unfold answered
  generalize evaluate lib plan (clock 0) wire first none = evaluated
  by_cases hproblems : evaluated.problems.isEmpty = true
  · simp only [if_pos hproblems]
    refine conclude_ends.mono ?_ ?_
    · rintro g w' ⟨hrow, hchecked⟩
      exact ⟨[], by simp, by simp [hrow.1], hrow.one, evaluated, hchecked, .inl rfl⟩
    · rintro e w' (⟨hdata, rfl⟩ | ⟨hrow, hchecked⟩)
      · exact ⟨[], by simp, by simp, .inl hdata⟩
      · exact ⟨[], by simp, by simp [hrow.1], .inr ⟨hrow.one, hchecked⟩⟩
  · simp only [if_neg hproblems]
    generalize repaired chat first.text evaluated.problems = repair
    have hcalls : [repair].length ≤ 1 := le_refl 1
    show Ends (EStateM.bind (ask o repair) _ w) _ _
    simp only [EStateM.bind, ask]
    cases hchat : o.chat (w.asked ++ [repair]) with
    | error e =>
      have hanswers : answersTo o w.asked [repair] = [] := by
        simp [answersTo, hchat, Except.toOption]
      dsimp only
      split_ifs with hchecked
      · refine conclude_ends.mono ?_ ?_
        · rintro g w' ⟨hrow, hg⟩
          exact ⟨[repair], hcalls, hrow.1, by rw [hanswers]; exact hrow.one, evaluated, hg,
            .inl rfl⟩
        · rintro e w' (⟨hdata, rfl⟩ | ⟨hrow, hnone⟩)
          · exact ⟨[repair], hcalls, rfl, .inl hdata⟩
          · simp [hnone] at hchecked
      · have hnone : evaluated.checked = none := by simpa using hchecked
        refine Ends.bind (Q := fun _ w' => Recorded first.usage _ w')
          (recordGeneration_ends.mono (fun _ _ h => h) ?_) ?_
        · rintro e w' ⟨hdata, rfl⟩
          exact ⟨[repair], hcalls, rfl, .inl hdata⟩
        · intro _ w' hrow
          exact ⟨[repair], hcalls, hrow.1, .inr ⟨by rw [hanswers]; exact hrow.one, hnone⟩⟩
    | ok second =>
      have hanswers : answersTo o w.asked [repair] = [second] := answersTo_single hchat
      refine conclude_ends.mono ?_ ?_
      · rintro g w' ⟨hrow, hg⟩
        exact ⟨[repair], hcalls, hrow.1, by rw [hanswers]; exact hrow.two, _, hg,
          .inr ⟨repair, second, rfl, hchat, rfl⟩⟩
      · rintro e w' (⟨hdata, rfl⟩ | ⟨hrow, hnone⟩)
        · exact ⟨[repair], hcalls, rfl, .inl hdata⟩
        · refine ⟨[repair], hcalls, hrow.1, .inr ⟨by rw [hanswers]; exact hrow.two, ?_⟩⟩
          exact checked_of_afterRepair hnone

/-- A first answer with a variant is read as what it parses to. -/
lemma evaluate_first {own : Parsed} {account : AccountId} {variant : RawVariant}
    (hparse : parse lib.tables wire first.text plan.briefs = .ok own)
    (hvariant : own.variants.lookup account = some variant) :
    (evaluate lib plan (clock 0) wire first none).parsed = some own ∧
      (evaluate lib plan (clock 0) wire first none).checked = some (plan.draft own,
        (checkTargets lib plan (clock 0) own (plan.draft own)).1) := by
  have hmem : account ∈ own.variants := AList.lookup_isSome.mp (by rw [hvariant]; rfl)
  have hread : readAnswer lib plan wire first none = .ok own :=
    @readAnswer_of_parse lib plan wire first own hparse none account hmem
  exact evaluate_of_read hread

lemma covered_of_first {own : Parsed} {brief : TargetBrief} {variant : RawVariant} {draft : Draft}
    {violations : Violations} (h : Distinct plan.briefs) (hmem : brief ∈ plan.briefs)
    (hparse : parse lib.tables wire first.text plan.briefs = .ok own)
    (hvariant : own.variants.lookup brief.account = some variant)
    (hchecked : (evaluate lib plan (clock 0) wire first none).checked = some (draft, violations)) :
    Covered plan brief variant draft violations := by
  rw [(evaluate_first hparse hvariant).2] at hchecked
  cases hchecked
  obtain ⟨_, values, -, -, hown⟩ := of_parse_ok _ hparse
  exact covered_of_parsed h hmem (hown ▸ partitions_parseValues _ _ _) hvariant

/-- Whichever answer is kept, what the first had a variant for is covered. -/
lemma covered_of_afterRepair {own : Parsed} {second : ChatResponse} {brief : TargetBrief}
    {variant : RawVariant} {draft : Draft} {violations : Violations} (h : Distinct plan.briefs)
    (hmem : brief ∈ plan.briefs)
    (hparse : parse lib.tables wire first.text plan.briefs = .ok own)
    (hvariant : own.variants.lookup brief.account = some variant)
    (hchecked : (afterRepair lib wire plan clock
      (evaluate lib plan (clock 0) wire first none) second).checked = some (draft, violations)) :
    ∃ variant', Covered plan brief variant' draft violations ∧
      (variant' = variant ∨ ∃ again, parse lib.tables wire second.text plan.briefs = .ok again ∧
        again.variants.lookup brief.account = some variant') := by
  unfold afterRepair at hchecked
  dsimp only at hchecked
  split_ifs at hchecked with hagain
  · rw [(evaluate_first hparse hvariant).1] at hchecked
    obtain ⟨again, variant', hagain, hcovered, horigin⟩ :=
      covered_of_evaluate h hmem hvariant hchecked
    exact ⟨variant', hcovered, horigin.imp_right fun hlookup => ⟨again, hagain, hlookup⟩⟩
  · exact ⟨variant, covered_of_first h hmem hparse hvariant hchecked, .inl rfl⟩

end Generate

/-! ## Drafted answers keep every target -/

/-- The provider was asked at most twice, and one row has the summed usage of what it answered,
unless a database call failed. -/
def AskedAndRecorded (o : Outside) (dataFailed : Prop) (w w' : World) : Prop :=
  ∃ calls, calls.length ≤ 2 ∧ w'.asked = w.asked ++ calls ∧
    (answersTo o w.asked calls ≠ [] → dataFailed ∨ RowOf (answersTo o w.asked calls) w w')

/-- The first answer has a variant for the target. -/
def FirstHas (o : Outside) (tables : CaseTables) (wire : Str → Option (List Json)) (plan : Plan)
    (chat : ChatRequest) (w : World) (brief : TargetBrief) (variant : RawVariant) : Prop :=
  ∃ first own, o.chat (w.asked ++ [chat]) = .ok first ∧
    parse tables wire first.text plan.briefs = .ok own ∧
    own.variants.lookup brief.account = some variant

section Keep

variable (o : Outside) (lib : Validation.Library) (wire : Str → Option (List Json)) (plan : Plan)
  (clock : ℕ → Instant) (chat : ChatRequest) (record : Record) (notes : List Message) (w : World)

lemma generate_ends (h : Distinct plan.briefs) :
    Ends (generate o lib wire plan clock chat record notes w)
      (fun g w' => AskedAndRecorded o False w w' ∧
        ∀ brief ∈ plan.briefs, ∀ variant, FirstHas o lib.tables wire plan chat w brief variant →
          ∃ variant', Covered plan brief variant' g.draft g.violations ∧
            (variant' = variant ∨ ∃ repair second again, w'.asked = w.asked ++ [chat, repair] ∧
              o.chat w'.asked = .ok second ∧
              parse lib.tables wire second.text plan.briefs = .ok again ∧
              again.variants.lookup brief.account = some variant'))
      (fun e w' => AskedAndRecorded o (DataFailed e) w w' ∧ (DataFailed e ∨
        ∀ brief variant, ¬FirstHas o lib.tables wire plan chat w brief variant)) := by
  unfold generate
  show Ends (EStateM.bind (ask o chat) _ w) _ _
  simp only [EStateM.bind, ask]
  cases hchat : o.chat (w.asked ++ [chat]) with
  | error e =>
    have hanswers : answersTo o w.asked [chat] = [] := by
      simp [answersTo, hchat, Except.toOption]
    refine ⟨⟨[chat], by simp, rfl, fun hne => absurd hanswers hne⟩, .inr ?_⟩
    rintro brief variant ⟨first, own, hfirst, -⟩
    rw [hchat] at hfirst
    cases hfirst
  | ok first =>
    have hanswers (calls : List ChatRequest) : answersTo o w.asked (chat :: calls) =
        first :: answersTo o (w.asked ++ [chat]) calls := by
      simp [answersTo, hchat, Except.toOption]
    refine answered_ends.mono ?_ ?_
    · rintro g w' ⟨calls, hlen, hasked, hrow, evaluated, hchecked, horigin⟩
      refine ⟨⟨chat :: calls, Nat.succ_le_succ hlen, by simpa using hasked, fun _ => .inr ?_⟩, ?_⟩
      · rw [hanswers]
        exact hrow
      · rintro brief hmem variant ⟨first', own, hfirst, hparse, hvariant⟩
        obtain rfl : first = first' := by
          rw [hchat] at hfirst
          exact Except.ok.inj hfirst
        rcases horigin with rfl | ⟨repair, second, rfl, hsecond, rfl⟩
        · exact ⟨variant, covered_of_first h hmem hparse hvariant hchecked, .inl rfl⟩
        · obtain ⟨variant', hcovered, hfrom⟩ :=
            covered_of_afterRepair h hmem hparse hvariant hchecked
          refine ⟨variant', hcovered, hfrom.imp_right ?_⟩
          rintro ⟨again, hagain, hlookup⟩
          have hall : w'.asked = w.asked ++ [chat, repair] := by simpa using hasked
          refine ⟨repair, second, again, hall, ?_, hagain, hlookup⟩
          rw [hasked]
          exact hsecond
    · rintro e w' ⟨calls, hlen, hasked, hend⟩
      refine ⟨⟨chat :: calls, Nat.succ_le_succ hlen, by simpa using hasked, fun _ => ?_⟩, ?_⟩
      · rw [hanswers]
        exact hend.imp_right And.left
      · refine hend.imp_right ?_
        rintro ⟨-, hnone⟩ brief variant ⟨first', own, hfirst, hparse, hvariant⟩
        obtain rfl : first = first' := by
          rw [hchat] at hfirst
          exact Except.ok.inj hfirst
        rw [(evaluate_first hparse hvariant).2] at hnone
        cases hnone

end Keep

/-- Drafted answers keep every target.  The sums recorded are held at the largest number the columns
take. -/
theorem keeps_targets {targets : List TargetBrief} (h : Distinct targets) :
    (∀ (u : CaseTables) (wire : Str → Option (List Json)) (text : Str) (parsed : Parsed),
      parse u wire text targets = .ok parsed → parsed.Partitions targets ∧
        ∃ json values, extractJson (stripThink text) = some json ∧ wire json = some values ∧
          ∀ brief ∈ targets, parsed.variants.lookup brief.account =
            ((values.filterMap RawVariant.fromValue).find? brief.wanted).map (kept u brief)) ∧
    (∀ newer earlier : Parsed, newer.Partitions targets →
      (newer.fillFrom earlier).Partitions targets ∧
        (∀ account variant, newer.variants.lookup account = some variant →
          (newer.fillFrom earlier).variants.lookup account = some variant) ∧
        (newer.fillFrom earlier).missing = (targets.map TargetBrief.account).filter
          fun account => account ∉ newer.variants ∧ account ∉ earlier.variants) ∧
    (∀ (parsed : Parsed) (media : List MediaItem) (link : Option Url) (replyTo : Option ReplyTo)
      (language : AccountId → EmailLanguage),
      (toDraft parsed targets media link replyTo language).overrides.keys.Perm
        (targets.map TargetBrief.account)) ∧
    ∀ (o : Outside) (lib : Validation.Library) (wire : Str → Option (List Json)) (plan : Plan)
      (clock : ℕ → Instant) (chat : ChatRequest) (record : Record) (notes : List Message)
      (w : World), plan.briefs = targets →
      Ends (generate o lib wire plan clock chat record notes w)
        (fun g w' => AskedAndRecorded o False w w' ∧
          ∀ brief ∈ targets, ∀ variant, FirstHas o lib.tables wire plan chat w brief variant →
            ∃ variant', Covered plan brief variant' g.draft g.violations ∧
              (variant' = variant ∨ ∃ repair second again, w'.asked = w.asked ++ [chat, repair] ∧
                o.chat w'.asked = .ok second ∧
                parse lib.tables wire second.text targets = .ok again ∧
                again.variants.lookup brief.account = some variant'))
        (fun e w' => AskedAndRecorded o (DataFailed e) w w' ∧ (DataFailed e ∨
          ∀ brief variant, ¬FirstHas o lib.tables wire plan chat w brief variant)) := by
  refine ⟨fun u wire text parsed hparse => ?_, fun newer earlier hparts => ?_,
    fun parsed media link replyTo language => ?_, ?_⟩
  · obtain ⟨json, values, hjson, hvalues, rfl⟩ := of_parse_ok u hparse
    refine ⟨partitions_parseValues u targets values, json, values, hjson, hvalues, ?_⟩
    intro brief hmem
    exact (lookup_foldl_addVariant u h hmem values ∅).trans (Option.none_or)
  · refine ⟨hparts.fillFrom, fun account variant hvariant => ?_, hparts.missing_fillFrom⟩
    have hmem : account ∈ newer.variants := AList.lookup_isSome.mp (by rw [hvariant]; rfl)
    rw [hparts.lookup_fillFrom (hparts.known account hmem), hvariant, Option.some_or]
  · rw [List.perm_ext_iff_of_nodup (AList.keys_nodup _) h.nodup]
    exact fun account => AList.mem_keys.symm.trans mem_toDraft
  · rintro o lib wire plan clock chat record notes w rfl
    exact generate_ends o lib wire plan clock chat record notes w h

section Samples

/-- Two targets. -/
def sampleBriefs : List TargetBrief := [1, 2].map fun account =>
  { account, isEmail := false, textMax := 500, measure := .graphemes, includesLinkAndTags := false,
    language := none }

lemma sampleBriefs_distinct : Distinct sampleBriefs where
  nodup := by decide
  uuid := by decide

/-- An answer for the second of them. -/
def sampleAnswer : Str :=
  "\x7b\"variants\":[\x7b\"target\":\"00000000-0000-0000-0000-000000000002\"\x7d]\x7d".toList

def sampleValue : Json :=
  .object [("target", .string "00000000-0000-0000-0000-000000000002")]

def sampleWire (json : Str) : Option (List Json) :=
  if json = sampleAnswer then some [sampleValue] else none

def sampleParsed : Parsed :=
  parseValues Validation.asciiLibrary.tables sampleBriefs [sampleValue]

theorem keeps_targets_sample :
    parse Validation.asciiLibrary.tables sampleWire sampleAnswer sampleBriefs = .ok sampleParsed ∧
      sampleParsed.missing = [1] ∧ sampleParsed.variants.lookup 2 =
        some { target := "00000000-0000-0000-0000-000000000002" } := by
  have hjson : extractJson (stripThink sampleAnswer) = some sampleAnswer := by decide
  have hparse : parse Validation.asciiLibrary.tables sampleWire sampleAnswer sampleBriefs =
      .ok sampleParsed := by
    simp [parse, hjson, sampleWire, sampleParsed]
  obtain ⟨hparts, json, values, -, hvalues, hlookup⟩ :=
    (keeps_targets sampleBriefs_distinct).1 _ _ _ _ hparse
  obtain rfl : [sampleValue] = values := by
    unfold sampleWire at hvalues
    split_ifs at hvalues
    exact Option.some.inj hvalues
  have hone : sampleParsed.variants.lookup 1 = none :=
    (hlookup sampleBriefs[0] (by decide)).trans (by decide)
  have htwo : sampleParsed.variants.lookup 2 =
      some { target := "00000000-0000-0000-0000-000000000002" } :=
    (hlookup sampleBriefs[1] (by decide)).trans (by decide)
  have hin : (2 : AccountId) ∈ sampleParsed.variants :=
    AList.lookup_isSome.mp (by rw [htwo]; rfl)
  refine ⟨hparse, hparts.missing.trans ?_, htwo⟩
  show [1, 2].filter _ = [1]
  simp [AList.lookup_eq_none.mp hone, hin]

/-! ## Sums that are held -/

def demo : Validation.AgentDescriptor where
  platform := "demo"
  iconPng := [1]
  brandColor := "#112233"
  kind := .broadcast
  formats := [{
    id := .text
    text := { measure := .graphemes, max := 500, required := false }
    media := {} }]
  optionsSchema := ⟨[]⟩

def samplePlan : Plan where
  mode := .post
  targets := [1, 2].map fun account => ⟨⟨"demo", account, "remote"⟩, demo⟩
  briefs := sampleBriefs
  assets := []
  items := []
  link := none
  replyTo := none

def sampleChat : ChatRequest :=
  { model := "model", system := [], messages := [⟨.user, []⟩], maxTokens := 1000 }

/-- An answer with nothing in it, of three billion tokens, and a provider that is gone then. -/
def sampleOutside : Outside where
  chat asked := if asked.length = 1 then
    .ok { text := [], usage := some ⟨3000000000, 0⟩, finish := .stop }
    else .error { reason := .unavailable }
  insertFails _ := none
  promptHash _ := []
  id := 1

def sampleRecord : Record where
  providerId := 1
  model := "model"
  mode := .post
  prompt := []
  storePrompt := false

/-- The world a generation leaves. -/
def leaves {α : Type} : EStateM.Result DrafterError World α → World
  | .ok _ w | .error _ w => w

/-- A sum above the largest number of the column is not what is recorded. -/
theorem tokens_held :
    let w := leaves (generate sampleOutside Validation.asciiLibrary sampleWire samplePlan
      (fun _ => ⟨0, by decide, by decide⟩) sampleChat sampleRecord [] {})
    (answersTo sampleOutside [] w.asked).filterMap ChatResponse.usage = [⟨3000000000, 0⟩] ∧
      w.rows.map NewAiGeneration.inputTokens = [some 2147483647] := by
  decide

end Samples

end Postit.Drafter
