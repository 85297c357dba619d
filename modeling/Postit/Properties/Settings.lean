import Mathlib.Data.List.Perm.Basic
import Postit.Config.Loader
import Postit.Framework.Results
import Postit.Framework.Splits
import Postit.Properties.ComposedText

/-!
# Settings do not depend on the order of the variables

The process environment has no order.  Where no two variables stand for one path, the dictionary
that comes of them is the same in every order, and so is that of the files they name: a variable's
value stands at its path unless another names a shorter one (`settings_order`).

A file of secrets that holds each value in quotes is read back as it was written, and so is a list
whose items are (`written_read`).
-/

namespace Postit.Config

open Postit.Framework

variable {u : Str.CaseTables} {lists : Bool} {readToString : Str → Except Str Str}
  {vars vars' : List Var} {q : List Str} {value : Value}

/-! ## What a variable gives -/

/-- The path of a variable that names no file. -/
def EnvVars.path? (u : Str.CaseTables) (var : Var) : Option (List Str) :=
  (envPrefix.isPrefixOf? var.1).bind fun rest =>
    if fileSuffix.isSuffixOf rest then none else some (segments u rest)

/-- The path of a variable that names a file. -/
def FileSecrets.path? (u : Str.CaseTables) (var : Var) : Option (List Str) :=
  (envPrefix.isPrefixOf? var.1).bind fun rest => (fileSuffix.isSuffixOf? rest).map (segments u)

/-- A variable's path and value. -/
def EnvVars.entry? (u : Str.CaseTables) (lists : Bool) (var : Var) : Option (List Str × Value) :=
  (EnvVars.path? u var).map fun path =>
    (path, if lists then listOrString var.2 else .text var.2)

/-- A variable's path and what its file holds. -/
def FileSecrets.entry? (u : Str.CaseTables) (readToString : Str → Except Str Str) (var : Var) :
    Option (List Str × Value) :=
  (FileSecrets.path? u var).bind fun path =>
    (readToString var.2).toOption.map fun content => (path, .text (Str.trim content))

lemma splitUnderscores_ne_nil (s : Str) : splitUnderscores s ≠ [] := by
  fun_cases splitUnderscores s <;> simp

lemma segments_ne_nil (rest : Str) : segments u rest ≠ [] := by
  simpa [segments] using splitUnderscores_ne_nil rest

lemma envVars_path_ne_nil {var : Var} {path : List Str} (h : EnvVars.path? u var = some path) :
    path ≠ [] := by
  obtain ⟨rest, -, h⟩ := Option.bind_eq_some_iff.mp h
  split at h
  · cases h
  · exact Option.some.inj h ▸ segments_ne_nil rest

lemma fileSecrets_path_ne_nil {var : Var} {path : List Str}
    (h : FileSecrets.path? u var = some path) : path ≠ [] := by
  obtain ⟨rest, -, h⟩ := Option.bind_eq_some_iff.mp h
  obtain ⟨name, -, rfl⟩ := Option.map_eq_some_iff.mp h
  exact segments_ne_nil name

lemma envVars_data_eq : EnvVars.data u vars lists =
    Dict.insertAll (vars.filterMap (EnvVars.entry? u lists)) := by
  rw [Dict.insertAll_filterMap, EnvVars.data]
  congr 1
  funext dict var
  unfold EnvVars.read EnvVars.entry? EnvVars.path?
  cases envPrefix.isPrefixOf? var.1 with
  | none => rfl
  | some rest =>
    dsimp only [Option.bind_some]
    split <;> rfl

/-- Every file that is named can be read. -/
def FilesRead (u : Str.CaseTables) (readToString : Str → Except Str Str) (vars : List Var) : Prop :=
  ∀ var ∈ vars, (FileSecrets.path? u var).isSome → ∃ content, readToString var.2 = .ok content

/-- A variable's file is read and put at its path, or the variable names none; or it cannot be
read. -/
lemma fileSecrets_read_cases (dict : Dict Str Value) (var : Var) :
    (((FileSecrets.path? u var).isSome → ∃ content, readToString var.2 = .ok content) ∧
        FileSecrets.read u readToString dict var =
          .ok ((FileSecrets.entry? u readToString var).elim dict fun e => dict.insert e.1 e.2)) ∨
      ¬ ((FileSecrets.path? u var).isSome → ∃ content, readToString var.2 = .ok content) ∧
        ∃ err, FileSecrets.read u readToString dict var = .error err := by
  unfold FileSecrets.read FileSecrets.entry? FileSecrets.path?
  rcases envPrefix.isPrefixOf? var.1 with - | rest
  · exact .inl ⟨(fun h => by cases h), rfl⟩
  dsimp only [Option.bind_some]
  generalize (List.isSuffixOf? fileSuffix rest : Option (List Char)) = named
  rcases named with - | name
  · exact .inl ⟨(fun h => by cases h), rfl⟩
  rcases hread : readToString var.2 with err | content
  · refine .inr ⟨fun h => ?_, _, rfl⟩
    obtain ⟨content, hcontent⟩ := h rfl
    cases hcontent
  · exact .inl ⟨fun _ => ⟨content, rfl⟩, rfl⟩

/-- The files give a dictionary exactly when all of them can be read. -/
lemma fileSecrets_data_eq_ok_iff {dict : Dict Str Value} :
    FileSecrets.data u readToString vars = .ok dict ↔ FilesRead u readToString vars ∧
      dict = Dict.insertAll (vars.filterMap (FileSecrets.entry? u readToString)) := by
  rw [Dict.insertAll_filterMap, FileSecrets.data]
  generalize Dict.empty = start
  induction vars generalizing start with
  | nil =>
    exact ⟨fun h => ⟨(fun _ hvar => by cases hvar), (Except.ok.inj h).symm⟩,
      fun h => congrArg Except.ok h.2.symm⟩
  | cons var vars ih =>
    have hall : FilesRead u readToString (var :: vars) ↔
        ((FileSecrets.path? u var).isSome → ∃ content, readToString var.2 = .ok content) ∧
          FilesRead u readToString vars := List.forall_mem_cons
    rw [List.foldlM_cons, List.foldl_cons, hall]
    rcases @fileSecrets_read_cases u readToString start var with
      ⟨hone, hread⟩ | ⟨hone, err, hread⟩
    · rw [hread, and_iff_right hone]
      exact ih _
    · rw [hread]
      exact ⟨(fun h => by cases h), fun h => absurd h.1.1 hone⟩

/-! ## In any order -/

lemma map_fst_envVars : (vars.filterMap (EnvVars.entry? u lists)).map Prod.fst =
    vars.filterMap (EnvVars.path? u) := by
  rw [List.map_filterMap]
  congr 1
  funext var
  unfold EnvVars.entry?
  cases EnvVars.path? u var <;> rfl

lemma map_fst_fileSecrets : ((vars.filterMap (FileSecrets.entry? u readToString)).map
    Prod.fst).Sublist (vars.filterMap (FileSecrets.path? u)) := by
  induction vars with
  | nil => exact .slnil
  | cons var vars ih =>
    unfold FileSecrets.entry? at ih ⊢
    cases hpath : FileSecrets.path? u var with
    | none => simpa [hpath] using ih
    | some path =>
      rw [List.filterMap_cons_some hpath]
      cases hread : readToString var.2 with
      | error err =>
        refine List.Sublist.cons _ ?_
        simpa [hpath, hread, Except.toOption] using ih
      | ok content => simpa [hpath, hread, Except.toOption] using ih

lemma envVars_entry_ne_nil : ∀ e ∈ vars.filterMap (EnvVars.entry? u lists), e.1 ≠ [] := by
  intro e he
  obtain ⟨var, -, hvar⟩ := List.mem_filterMap.mp he
  obtain ⟨path, hpath, rfl⟩ := Option.map_eq_some_iff.mp hvar
  exact envVars_path_ne_nil hpath

lemma fileSecrets_entry_ne_nil :
    ∀ e ∈ vars.filterMap (FileSecrets.entry? u readToString), e.1 ≠ [] := by
  intro e he
  obtain ⟨var, -, hvar⟩ := List.mem_filterMap.mp he
  obtain ⟨path, hpath, hvar⟩ := Option.bind_eq_some_iff.mp hvar
  obtain ⟨content, -, rfl⟩ := Option.map_eq_some_iff.mp hvar
  exact fileSecrets_path_ne_nil hpath

/-- Where no two variables stand for one path, the variables give the same dictionary in every
order, and the files they name too, or none in any; and what stands at a path is the value of the
variable given there, unless another stands for a shorter path. -/
theorem settings_order (hperm : vars.Perm vars')
    (henv : (vars.filterMap (EnvVars.path? u)).Nodup)
    (hfiles : (vars.filterMap (FileSecrets.path? u)).Nodup) :
    EnvVars.data u vars' lists = EnvVars.data u vars lists ∧
      (FileSecrets.data u readToString vars').toOption =
        (FileSecrets.data u readToString vars).toOption ∧
      (∀ q value, (EnvVars.data u vars lists).stands q = .leaf value ↔
        (q, value) ∈ vars.filterMap (EnvVars.entry? u lists) ∧
          ∀ p ∈ vars.filterMap (EnvVars.path? u), p <+: q → p = q) ∧
      ∀ dict, FileSecrets.data u readToString vars = .ok dict → ∀ q value,
        dict.stands q = .leaf value ↔
          (q, value) ∈ vars.filterMap (FileSecrets.entry? u readToString) ∧
            ∀ p ∈ vars.filterMap (FileSecrets.path? u), p <+: q → p = q := by
  have hnodup : ((vars.filterMap (EnvVars.entry? u lists)).map Prod.fst).Nodup :=
    map_fst_envVars ▸ henv
  have hnodup' : ((vars.filterMap (FileSecrets.entry? u readToString)).map Prod.fst).Nodup :=
    hfiles.sublist map_fst_fileSecrets
  refine ⟨?_, ?_, fun q value => ?_, fun dict hdict q value => ?_⟩
  · rw [envVars_data_eq, envVars_data_eq]
    exact Dict.insertAll_perm envVars_entry_ne_nil hnodup (hperm.filterMap _)
  · refine Option.ext fun dict => ?_
    have hread : FilesRead u readToString vars' ↔ FilesRead u readToString vars :=
      forall_congr' fun var => by rw [hperm.mem_iff]
    have hiff (vars : List Var) : (FileSecrets.data u readToString vars).toOption = some dict ↔
        FileSecrets.data u readToString vars = .ok dict := by
      cases FileSecrets.data u readToString vars <;> simp [Except.toOption]
    rw [hiff, hiff, fileSecrets_data_eq_ok_iff, fileSecrets_data_eq_ok_iff, hread,
      Dict.insertAll_perm fileSecrets_entry_ne_nil hnodup' (hperm.filterMap _)]
  · rw [envVars_data_eq, Dict.stands_insertAll_leaf_iff envVars_entry_ne_nil hnodup,
      ← @map_fst_envVars u lists vars, List.forall_mem_map]
  · obtain ⟨hall, rfl⟩ := fileSecrets_data_eq_ok_iff.1 hdict
    rw [Dict.stands_insertAll_leaf_iff fileSecrets_entry_ne_nil hnodup']
    refine and_congr_right fun _ => ?_
    -- every file was read, so every path has its value
    constructor
    · intro h p hp hpre
      obtain ⟨var, hvar, hpath⟩ := List.mem_filterMap.mp hp
      obtain ⟨content, hcontent⟩ := hall var hvar (by rw [hpath]; rfl)
      refine h (p, .text (Str.trim content)) (List.mem_filterMap.mpr ⟨var, hvar, ?_⟩) hpre
      simp [FileSecrets.entry?, hpath, hcontent, Except.toOption]
    · intro h e he hpre
      exact h e.1 (map_fst_fileSecrets.subset (List.mem_map_of_mem he)) hpre

def sampleVars : List Var :=
  [("POSTIT__PUBLISHER__LEASE".toList, "60s".toList), ("PATH".toList, "/bin".toList),
    ("POSTIT__AUTH__SECRET_FILE".toList, "/run/secret".toList),
    ("POSTIT__PUBLISHER".toList, "off".toList)]

theorem settings_order_sample :
    EnvVars.data asciiTables sampleVars.reverse true = EnvVars.data asciiTables sampleVars true ∧
      (EnvVars.data asciiTables sampleVars true).stands ["publisher".toList] =
        .leaf (.text "off".toList) := by
  have h := @settings_order asciiTables true (fun _ => .ok []) sampleVars _
    sampleVars.reverse_perm.symm (by decide) (by decide)
  exact ⟨h.1, (h.2.2.1 _ _).mpr ⟨by decide, by decide⟩⟩

/-! ## Written and read -/

section Written

lemma trim_concat {s : Str} {c : Char} (hc : isWhiteSpace c = true) :
    Str.trim (s ++ [c]) = Str.trim s := by
  unfold Str.trim Str.trimEnd Str.trimStart
  rw [List.dropWhile_append]
  split
  · next h =>
    rw [List.isEmpty_iff.mp h]
    simp [hc]
  · simp [hc]

/-- The lines that are looked at. -/
def kept (line : Str) : Bool := !line.isEmpty && line.head? ≠ some '#'

/-- Carriage returns and the last end of line make no difference to them. -/
lemma filter_lines (s : Str) : ((lines s).map Str.trim).filter kept =
    ((s.splitOn '\n').map Str.trim).filter kept := by
  have hne : s.splitOn '\n' ≠ [] := List.splitOn_ne_nil _ _
  obtain ⟨earlier, last, hpieces⟩ := List.eq_nil_or_concat (s.splitOn '\n') |>.resolve_left hne
  have hreturn : ∀ line : Str,
      Str.trim (if line.getLast? = some '\r' then line.dropLast else line) = Str.trim line := by
    intro line
    split
    · next hlast =>
      obtain ⟨front, rfl⟩ := List.getLast?_eq_some_iff.mp hlast
      rw [List.dropLast_concat, trim_concat rfl]
    · rfl
  unfold lines
  rw [hpieces]
  simp only [List.concat_eq_append, List.dropLast_concat, List.getLast?_concat, Option.toList_some,
    List.map_append, List.map_map, List.filter_append]
  congr 1
  · exact congrArg (List.filter kept) (List.map_congr_left fun line _ => hreturn line)
  · cases last <;> rfl

lemma parseDotenv_append (s t : Str) :
    parseDotenv (s ++ '\n' :: t) = parseDotenv s ++ parseDotenv t := by
  have hlines (s : Str) : parseDotenv s = (((((s.splitOn '\n').map Str.trim).filter kept).filterMap
      (Str.splitOnce '=')).map fun var => (Str.trim var.1, unquote (Str.trim var.2))) := by
    rw [← filter_lines]
    rfl
  have hsplit : (s ++ '\n' :: t).splitOn '\n' = s.splitOn '\n' ++ t.splitOn '\n' := by
    simp only [List.splitOn_eq_splitOnP]
    exact List.splitOnP_append_cons _ _ (by simp)
  rw [hlines, hlines, hlines, hsplit]
  simp

lemma quoted_trimmed (s : Str) : Str.Trimmed ('"' :: (s ++ ['"'])) := by
  refine ⟨fun c hc => ?_, fun c hc => ?_⟩
  · obtain rfl : '"' = c := by simpa using hc
    rfl
  · rw [← List.cons_append, List.getLast?_concat] at hc
    obtain rfl : '"' = c := by simpa using hc
    rfl

@[simp] lemma stripBoth_append (front back : Char) (s : Str) :
    stripBoth front back (front :: (s ++ [back])) = some s := by
  simp [stripBoth]

lemma unquote_quoted (s : Str) : unquote ('"' :: (s ++ ['"'])) = s := by
  simp [unquote]

/-- A text in quotes. -/
def quoted (s : Str) : Str := '"' :: (s ++ ['"'])

/-- A variable as a line of the file of secrets. -/
def written (var : Var) : Str := var.1 ++ '=' :: quoted var.2

/-- A variable that a line can hold. -/
structure Writable (var : Var) : Prop where
  trimmed : Str.Trimmed var.1
  name : '=' ∉ var.1
  comment : var.1.head? ≠ some '#'
  line : '\n' ∉ var.1 ++ var.2

lemma Writable.parseDotenv {var : Var} (h : Writable var) : parseDotenv (written var) = [var] := by
  have hsplit : (written var).splitOn '\n' = [written var] := by
    rw [List.splitOn_eq_splitOnP]
    refine List.splitOnP_eq_singleton fun c hc => ?_
    have hline := h.line
    rw [beq_eq_false_iff_ne]
    rintro rfl
    simp only [written, quoted, List.mem_append, List.mem_cons, List.not_mem_nil, Char.reduceEq,
      false_or, or_false] at hc hline
    exact hline hc
  have htrimmed : Str.Trimmed (written var) := by
    refine ⟨fun c hc => ?_, fun c hc => ?_⟩
    · cases hname : var.1 with
      | nil =>
        obtain rfl : '=' = c := by simpa [written, hname] using hc
        rfl
      | cons a name =>
        obtain rfl : a = c := by simpa [written, hname] using hc
        exact h.trimmed.1 a (by simp [hname])
    · have hwritten : written var = (var.1 ++ '=' :: '"' :: var.2) ++ ['"'] := by
        simp [written, quoted]
      rw [hwritten, List.getLast?_concat] at hc
      obtain rfl : '"' = c := by simpa using hc
      rfl
  have hkept : kept (written var) = true := by
    cases hname : var.1 with
    | nil => simp [kept, written, hname]
    | cons a name =>
      have hcomment := h.comment
      rw [hname] at hcomment
      simpa [kept, written, hname] using hcomment
  have hfilter := filter_lines (written var)
  rw [hsplit, List.map_singleton, Str.trim_of_trimmed htrimmed, List.filter_cons_of_pos hkept,
    List.filter_nil] at hfilter
  show ((((lines (written var)).map Str.trim).filter kept).filterMap (Str.splitOnce '=')).map _ = _
  have honce : Str.splitOnce '=' (written var) = some (var.1, quoted var.2) :=
    Str.splitOnce_append h.name _
  rw [hfilter, List.filterMap_cons_some honce, List.filterMap_nil, List.map_singleton,
    Str.trim_of_trimmed h.trimmed, quoted, Str.trim_of_trimmed (quoted_trimmed var.2),
    unquote_quoted]

/-- The items as a list. -/
def bracketed (items : List Str) : Str :=
  '[' :: (List.intercalate [',', ' '] (items.map quoted) ++ [']'])

/-- The pieces between the commas. -/
lemma splitOn_items {item : Str} {items : List Str} (h : ∀ item' ∈ item :: items, ',' ∉ item') :
    (List.intercalate [',', ' '] ((item :: items).map quoted)).splitOn ',' =
      quoted item :: items.map fun item => ' ' :: quoted item := by
  have hblank : ∀ (first : Str) (rest : List Str), List.intercalate [',', ' '] (first :: rest) =
      List.intercalate [','] (first :: rest.map (' ' :: ·)) := by
    intro first rest
    induction rest generalizing first with
    | nil => simp [List.intercalate]
    | cons next rest ih =>
      rw [Str.intercalate_cons_cons, ih, List.map_cons, Str.intercalate_cons_cons]
      cases rest <;> simp [List.intercalate]
  have hcomma : ∀ item' ∈ item :: items, ',' ∉ quoted item' := by
    intro item' hmem
    simpa [quoted] using h item' hmem
  rw [List.map_cons, hblank, List.splitOn_intercalate]
  · simp
  · intro piece hpiece
    rcases List.mem_cons.mp hpiece with rfl | hpiece
    · exact hcomma item List.mem_cons_self
    · simp only [List.map_map, List.mem_map, Function.comp_apply] at hpiece
      obtain ⟨item', hmem, rfl⟩ := hpiece
      simpa using hcomma item' (List.mem_cons_of_mem _ hmem)
  · simp

lemma listOrString_bracketed {items : List Str} (h : ∀ item ∈ items, ',' ∉ item) :
    listOrString (bracketed items) = .list items := by
  have htrimmed : Str.Trimmed (bracketed items) := by
    refine ⟨fun c hc => ?_, fun c hc => ?_⟩
    · obtain rfl : '[' = c := by simpa [bracketed] using hc
      rfl
    · rw [bracketed, ← List.cons_append, List.getLast?_concat] at hc
      obtain rfl : ']' = c := by simpa using hc
      rfl
  unfold listOrString
  rw [Str.trim_of_trimmed htrimmed, bracketed, stripBoth_append]
  dsimp only
  cases items with
  | nil => rfl
  | cons item items =>
    have hblank (item : Str) : Str.trim (' ' :: quoted item) = quoted item :=
      Str.trim_of_trimmed (quoted_trimmed item)
    have htrim (item : Str) : Str.trim (quoted item) = quoted item :=
      Str.trim_of_trimmed (quoted_trimmed item)
    rw [splitOn_items h, List.map_cons, htrim, List.map_map]
    simp only [Function.comp_def, hblank]
    rw [← List.map_cons, List.filter_eq_self.mpr, List.map_map]
    · congr 1
      exact (List.map_congr_left fun item _ => unquote_quoted item).trans (List.map_id _)
    · simp [quoted]

/-- A file of secrets whose values are in quotes is read as what was written, and a list whose items
are in quotes, none with a comma, is read as its items. -/
theorem written_read :
    (∀ vars : List Var, (∀ var ∈ vars, Writable var) →
      parseDotenv (vars.flatMap fun var => written var ++ ['\n']) = vars) ∧
    ∀ items : List Str, (∀ item ∈ items, ',' ∉ item) →
      listOrString (bracketed items) = .list items := by
  refine ⟨fun vars h => ?_, fun items h => listOrString_bracketed h⟩
  induction vars with
  | nil => rfl
  | cons var vars ih =>
    rw [List.flatMap_cons, List.append_assoc, List.singleton_append, parseDotenv_append,
      (h var List.mem_cons_self).parseDotenv,
      ih fun var' hvar' => h var' (List.mem_cons_of_mem _ hvar')]
    rfl

theorem written_read_sample :
    parseDotenv ("KEY".toList ++ '=' :: '"' :: ("a #b".toList ++ "\"\n".toList)) =
        [("KEY".toList, "a #b".toList)] ∧
      listOrString "[\"a\", \"b\"]".toList = .list ["a".toList, "b".toList] := by
  refine ⟨?_, written_read.2 ["a".toList, "b".toList] (by decide)⟩
  refine written_read.1 [("KEY".toList, "a #b".toList)] fun var hvar => ?_
  obtain rfl := List.mem_singleton.mp hvar
  exact {
    trimmed := ⟨fun _ hc => Option.some.inj hc ▸ rfl, fun _ hc => Option.some.inj hc ▸ rfl⟩
    name := by decide
    comment := by decide
    line := by decide }

end Written

end Postit.Config
