import Postit.Accounts.Import
import Postit.Accounts.Indexes

/-!
# What a check says of an import

A check simulates what earlier rows connect by the remote accounts they reach; an import has it in
the tables.  The two see the same as long as every row can be connected (`Mirrors.step`).  A row
that cannot would give the owner a second account on `email`: the check says `ok` of it, the import
`already_connected` (`check_predicts_import_iff`).
-/

namespace Postit.Accounts

open Postit.Data (UserId PlatformId AccountId)
open Postit.Framework

variable {κ : Type} {owner : UserId} {platform : PlatformId}

/-! ## What is compared -/

/-- The row without the accounts it connected. -/
def ImportRow.shown (row : ImportRow) : ImportRow := { row with accountIds := [] }

/-- The report without whether it committed and which accounts it connected. -/
def ImportReport.shown (report : ImportReport) : List ImportRow × (ImportStatus → ℕ) × Bool :=
  (report.rows.map ImportRow.shown, report.counts, report.truncated)

/-- The remote accounts a row reaches. -/
def Checked.discovered (checked : Checked κ) : List DiscoveredAccount :=
  match checked.outcome with
  | .error _ => []
  | .ok verified => verified.discovered

/-- How the rows of a stream end. -/
inductive Ending
  | finished
  | truncated
  | unreadable
  deriving DecidableEq

def endingOf : List (Item κ) → Ending
  | [] => .finished
  | .truncated :: _ => .truncated
  | .unreadable :: _ => .unreadable
  | .row _ :: rest => endingOf rest

/-- The rows of a stream before its ending. -/
def rowsOf : List (Item κ) → List (Checked κ)
  | [] | .truncated :: _ | .unreadable :: _ => []
  | .row checked :: rest => checked :: rowsOf rest

/-- The remote accounts the rows of a stream reach. -/
def reachedBy (l : List (Item κ)) : List DiscoveredAccount :=
  (rowsOf l).flatMap Checked.discovered

/-- The remote accounts the credentials of a file reach, when it can be read. -/
def reached (platform : Platform κ) (maxRows : ℕ) (file : CsvFile) : List DiscoveredAccount :=
  match readHeaders platform.schema file.headers with
  | .error _ => []
  | .ok headers =>
    let stream := items platform headers maxRows file.records
    if endingOf stream = .unreadable then [] else reachedBy stream

/-- Whether the owner may come to hold a remote account: it is connected already, or a row reaches
it and nobody else has it. -/
def Db.MayHold (db : Db κ) (owner : UserId) (platform : PlatformId)
    (reached : List DiscoveredAccount) (r : String) : Prop :=
  db.Connected owner platform r ∨
    (r ∈ reached ∧ ∀ other, other ≠ owner → ¬ db.Connected other platform r)

/-- The condition for a check to be right: on `email`, the owner may come to hold one account at
most. -/
def OneSendingMethod (platform : Platform κ) (maxRows : ℕ) (owner : UserId) (db : Db κ)
    (file : CsvFile) : Prop :=
  platform.id = "email" → ∀ q r, db.MayHold owner platform.id (reached platform maxRows file) q →
    db.MayHold owner platform.id (reached platform maxRows file) r → q = r

/-! ## Classifying -/

/-- A remote account that someone else has, as a row counts it. -/
lemma isElsewhere_iff (db : Db κ) (r : String) :
    (remoteAccount db owner platform r).isElsewhere = true ↔
      (db.holdings owner platform).own r = none ∧
        (db.holdings owner platform).taken r = true := by
  unfold remoteAccount Db.holdings
  simp only [Option.map_eq_none_iff]
  cases db.accounts.find? fun _ a =>
      a.ownerId = owner ∧ a.platform = platform ∧ a.remoteAccountId = r with
  | some found => simp [RemoteAccount.isElsewhere]
  | none =>
    simp only [true_and]
    cases db.accounts.exists? fun _ a => a.ownerId ≠ owner ∧ a.platform = platform ∧
        a.remoteAccountId = r ∧ a.status ≠ .disconnected with
    | true => simp [RemoteAccount.isElsewhere]
    | false => simp [RemoteAccount.isElsewhere]

/-- A remote account that the owner has, as a row counts it. -/
lemma isOwn_iff (db : Db κ) (r : String) (seen : Bool) :
    (remoteAccount db owner platform r).isOwn seen = true ↔
      (db.holdings owner platform).own r = some true ∨
        (seen = true ∧ ¬ ((db.holdings owner platform).own r = none ∧
          (db.holdings owner platform).taken r = true)) := by
  unfold remoteAccount Db.holdings
  simp only [Option.map_eq_none_iff]
  cases db.accounts.find? fun _ a =>
      a.ownerId = owner ∧ a.platform = platform ∧ a.remoteAccountId = r with
  | some found =>
    obtain ⟨key, own⟩ := found
    by_cases hactive : own.status ≠ .disconnected
    · simp [RemoteAccount.isOwn, hactive]
    · simp [RemoteAccount.isOwn, hactive]
  | none =>
    simp only [true_and]
    cases db.accounts.exists? fun _ a => a.ownerId ≠ owner ∧ a.platform = platform ∧
        a.remoteAccountId = r ∧ a.status ≠ .disconnected with
    | true => simp [RemoteAccount.isOwn]
    | false => simp [RemoteAccount.isOwn]

/-- The import sees in the tables what the check has from the rows seen. -/
structure Mirrors (owner : UserId) (platform : PlatformId) (check imported : Settling κ) :
    Prop where
  seen : imported.seen = check.seen
  indexed : imported.db.Indexed
  holdings : imported.db.holdings owner platform =
    (check.db.holdings owner platform).connect check.seen

namespace Mirrors

variable {check imported : Settling κ}

lemma isElsewhere (h : Mirrors owner platform check imported) (r : String) :
    (remoteAccount imported.db owner platform r).isElsewhere =
      (remoteAccount check.db owner platform r).isElsewhere := by
  rw [Bool.eq_iff_iff, isElsewhere_iff, isElsewhere_iff, h.holdings, Holdings.connect]
  simp only
  split_ifs with hr
  · simp [hr.2]
  · rfl

lemma isOwn (h : Mirrors owner platform check imported) (r : String) :
    (remoteAccount imported.db owner platform r).isOwn (r ∈ imported.seen) =
      (remoteAccount check.db owner platform r).isOwn (r ∈ check.seen) := by
  rw [Bool.eq_iff_iff, isOwn_iff, isOwn_iff, h.holdings, h.seen, Holdings.connect]
  simp only [decide_eq_true_eq]
  split_ifs with hr
  · simp [hr.1, hr.2]
  · rfl

lemma classify (h : Mirrors owner platform check imported) (row : ℕ) (verified : Verified κ) :
    classify owner platform imported row verified = classify owner platform check row verified := by
  simp only [Accounts.classify, List.countP_map, Function.comp_def, h.isElsewhere, h.isOwn]

end Mirrors

/-! ## One row -/

/-- A row is either left alone, or its accounts are seen and, by an import, connected. -/
lemma settleRow_error {s : Settling κ} {commit : Bool} {checked : Checked κ} {report : ImportRow}
    (h : checked.outcome = .error report) :
    settleRow owner platform commit s checked = .ok (s, report) := by
  simp only [settleRow, h]

/-- All accounts of the row are someone else's. -/
lemma settleRow_elsewhere {s : Settling κ} {commit : Bool} {checked : Checked κ}
    {verified : Verified κ} (h : checked.outcome = .ok verified)
    (hstatus : (classify owner platform s checked.row verified).status = .connectedElsewhere) :
    settleRow owner platform commit s checked =
      .ok (s, classify owner platform s checked.row verified) := by
  simp only [settleRow, h, hstatus, if_true]

/-- A row whose accounts are connected, or would be. -/
lemma settleRow_check {s : Settling κ} {checked : Checked κ}
    {verified : Verified κ} (h : checked.outcome = .ok verified)
    (hstatus : (classify owner platform s checked.row verified).status ≠ .connectedElsewhere) :
    settleRow owner platform false s checked =
      .ok ({ s with seen := s.seen ++ verified.discovered },
        classify owner platform s checked.row verified) := by
  simp only [settleRow, h, if_neg hstatus, Bool.not_false, if_true]

lemma status_classify (s : Settling κ) (row : ℕ) (verified : Verified κ) :
    (classify owner platform s row verified).status ≠ .connectedElsewhere →
      (classify owner platform s row verified).status = .ok ∨
        (classify owner platform s row verified).status = .alreadyConnected := by
  unfold classify
  simp only
  split_ifs
  · simp
  · simp
  · simp

lemma countP_add_countP_le {α : Type} {p q : α → Bool} (hpq : ∀ x, q x = true → p x = false)
    (l : List α) : l.countP p + l.countP q ≤ l.length := by
  have hq : l.countP q ≤ l.countP fun x => !p x :=
    List.countP_mono_left fun x _ hx => by simp [hpq x hx]
  have hlength : l.length = l.countP p + l.countP fun x => !p x := by
    simpa using l.length_eq_countP_add_countP p
  omega

/-- An account that is neither the owner's nor someone else's leaves the row `ok`. -/
lemma status_classify_ok {s : Settling κ} {row : ℕ} {verified : Verified κ} {r : String}
    (hmem : r ∈ verified.discovered)
    (helsewhere : (remoteAccount s.db owner platform r).isElsewhere = false)
    (hown : (remoteAccount s.db owner platform r).isOwn (r ∈ s.seen) = false) :
    (classify owner platform s row verified).status = .ok := by
  have hdisjoint : ∀ (found : String × RemoteAccount),
      found.2.isOwn (found.1 ∈ s.seen) = true → found.2.isElsewhere = false := by
    rintro ⟨q, remote⟩ hown
    cases remote with
    | elsewhere => cases hown
    | own key active => rfl
    | free => rfl
  obtain ⟨before, after, hsplit⟩ := List.append_of_mem hmem
  have hlt : ((verified.discovered.map fun id => (id, remoteAccount s.db owner platform id)).countP
        fun found => found.2.isElsewhere) +
      ((verified.discovered.map fun id => (id, remoteAccount s.db owner platform id)).countP
        fun found => found.2.isOwn (found.1 ∈ s.seen)) < verified.discovered.length := by
    have hbefore := countP_add_countP_le hdisjoint
      (before.map fun id => (id, remoteAccount s.db owner platform id))
    have hafter := countP_add_countP_le hdisjoint
      (after.map fun id => (id, remoteAccount s.db owner platform id))
    simp only [List.length_map] at hbefore hafter
    simp only [hsplit, List.map_append, List.map_cons, List.countP_append, List.countP_cons,
      helsewhere, hown, List.length_append, List.length_cons, Bool.false_eq_true, if_false]
    omega
  unfold classify
  simp only
  rw [if_neg (by omega)]
  simp only
  rw [if_neg (by omega)]

/-- The accounts of such a row are all someone else's. -/
lemma taken_of_elsewhere {s : Settling κ} {row : ℕ} {verified : Verified κ}
    (h : (classify owner platform s row verified).status = .connectedElsewhere) :
    ∀ r ∈ verified.discovered, (s.db.holdings owner platform).taken r = true := by
  intro r hr
  unfold classify at h
  simp only at h
  split_ifs at h with hall
  have hlength := (List.countP_eq_length (l := verified.discovered.map fun id =>
    (id, remoteAccount s.db owner platform id))).mp (by rw [List.length_map]; exact hall)
  have helsewhere := hlength _ (List.mem_map_of_mem hr)
  exact ((isElsewhere_iff s.db r).mp helsewhere).2

/-- An import's row, when it can be connected and when it cannot. -/
lemma settleRow_import {s : Settling κ} (hs : s.db.Indexed) {checked : Checked κ}
    {verified : Verified κ} (h : checked.outcome = .ok verified)
    (hstatus : (classify owner platform s checked.row verified).status ≠ .connectedElsewhere) :
    (∃ db upserts, settleRow owner platform true s checked =
        .ok ({ db := db, seen := s.seen ++ verified.discovered },
          { classify owner platform s checked.row verified with
            accountIds := upserts.map AccountUpsert.account }) ∧
        s.db.ConnectsTo db owner platform verified.discovered upserts) ∨
      (settleRow owner platform true s checked =
          .ok ({ s with seen := s.seen ++ verified.discovered },
            { classify owner platform s checked.row verified with status := .alreadyConnected }) ∧
        platform = "email" ∧
        ¬ ((s.db.holdings owner platform).connect verified.discovered).Single) := by
  simp only [settleRow, h, if_neg hstatus, Bool.not_true, Bool.false_eq_true, if_false]
  cases hconnect : connectInTx s.db owner (verified.input platform) with
  | ok done =>
    obtain ⟨db, upserts⟩ := done
    exact .inl ⟨db, upserts, rfl, connectInTx_connectsTo hs hconnect⟩
  | error error =>
    obtain ⟨rfl, hemail, hsingle⟩ := connectInTx_error hs hconnect
    exact .inr ⟨rfl, hemail, hsingle⟩

namespace Mirrors

variable {check imported : Settling κ}

/-- A row the import cannot connect reaches an account that nobody has, and neither counts it. -/
lemma status_ok (h : Mirrors owner platform check imported) {verified : Verified κ}
    (hemail : platform = "email")
    (hsingle : ¬ ((imported.db.holdings owner platform).connect verified.discovered).Single)
    (row : ℕ) : (Accounts.classify owner platform imported row verified).status = .ok := by
  obtain ⟨r, hmem, htaken, hown⟩ : ∃ r ∈ verified.discovered,
      (imported.db.holdings owner platform).taken r = false ∧
        (imported.db.holdings owner platform).own r ≠ some true := by
    by_contra hnone
    push Not at hnone
    refine hsingle fun q r hq hr => ?_
    have hkept : ∀ q, ((imported.db.holdings owner platform).connect
        verified.discovered).own q = some true →
        (imported.db.holdings owner platform).own q = some true := fun q hq =>
      (Holdings.own_connect_eq_true.mp hq).elim id fun hq => hnone q hq.1 hq.2
    have hone := hkept q hq
    have htwo := hkept r hr
    subst hemail
    exact single_of_email h.indexed hone htwo
  refine status_classify_ok hmem ?_ ?_
  · rw [← Bool.not_eq_true, isElsewhere_iff]
    simp [htaken]
  · rw [← Bool.not_eq_true, isOwn_iff]
    rintro (hhas | ⟨hseen, -⟩)
    · exact hown hhas
    · -- an account seen that nobody else has is connected by now
      rw [h.holdings, Holdings.taken_connect] at htaken
      rw [decide_eq_true_eq, h.seen] at hseen
      rw [h.holdings] at hown
      exact hown (Holdings.own_connect_eq_true.mpr (.inr ⟨hseen, htaken⟩))

/-- A row is the same for both and leaves them alike, unless the import cannot connect it. -/
lemma step (h : Mirrors owner platform check imported) (checked : Checked κ) :
    ∃ check' row imported' row',
      settleRow owner platform false check checked = .ok (check', row) ∧
      settleRow owner platform true imported checked = .ok (imported', row') ∧
      check'.db = check.db ∧ imported'.db.Indexed ∧
      ((Mirrors owner platform check' imported' ∧ row'.shown = row.shown ∧
          ∀ rest, (check.db.holdings owner platform).connect (check'.seen ++ rest) =
            (check.db.holdings owner platform).connect
              (check.seen ++ checked.discovered ++ rest)) ∨
        (row'.shown ≠ row.shown ∧ platform = "email" ∧
          ¬ ((check.db.holdings owner platform).connect
            (check.seen ++ checked.discovered)).Single)) := by
  cases hout : checked.outcome with
  | error report =>
    refine ⟨check, report, imported, report, settleRow_error hout, settleRow_error hout, rfl,
      h.indexed, .inl ⟨h, rfl, fun rest => ?_⟩⟩
    simp [Checked.discovered, hout]
  | ok verified =>
    have hdiscovered : checked.discovered = verified.discovered := by
      simp only [Checked.discovered, hout]
    have hclassify := h.classify checked.row verified
    by_cases hstatus :
        (Accounts.classify owner platform check checked.row verified).status = .connectedElsewhere
    · refine ⟨check, _, imported, _, settleRow_elsewhere hout hstatus,
        settleRow_elsewhere hout (hclassify ▸ hstatus), rfl, h.indexed,
        .inl ⟨h, by rw [hclassify], fun rest => ?_⟩⟩
      have htaken : ∀ r ∈ checked.discovered,
          (check.db.holdings owner platform).taken r = true := by
        rw [hdiscovered]
        exact taken_of_elsewhere hstatus
      exact (Holdings.connect_append_of_taken htaken rest).symm
    · have hindexed := h.indexed
      rcases settleRow_import h.indexed hout (hclassify ▸ hstatus) with
        ⟨db, upserts, hsettle, hconnects⟩ | ⟨hsettle, hemail, hsingle⟩
      · refine ⟨_, _, _, _, settleRow_check hout hstatus, hsettle, rfl, hconnects.indexed,
          .inl ⟨⟨?_, hconnects.indexed, ?_⟩, ?_, fun rest => by rw [hdiscovered]⟩⟩
        · simp only [h.seen]
        · rw [hconnects.holdings, h.holdings, Holdings.connect_connect]
        · rw [hclassify]
          rfl
      · refine ⟨_, _, _, _, settleRow_check hout hstatus, hsettle, rfl, h.indexed,
          .inr ⟨?_, hemail, ?_⟩⟩
        · have hok := h.status_ok hemail hsingle checked.row
          rw [hclassify]
          intro hshown
          have hsame := congrArg ImportRow.status hshown
          simp only [ImportRow.shown, ← hclassify, hok] at hsame
          cases hsame
        · rw [h.holdings, Holdings.connect_connect] at hsingle
          rwa [hdiscovered]

end Mirrors

/-! ## All rows -/

/-- A report made without the tables is about its row and connects nothing. -/
def Checked.Proper (checked : Checked κ) : Prop :=
  ∀ report, checked.outcome = .error report → report.row = checked.row ∧ report.accountIds = []

/-- The row lists every account written, and lists one only when its status is `ok` or
`already_connected`. -/
def ImportRow.Lists (row : ImportRow) (s t : Db κ) : Prop :=
  (row.accountIds ≠ [] → row.status = .ok ∨ row.status = .alreadyConnected) ∧
    ∀ k, t.accounts.lookup k = s.accounts.lookup k ∨ k ∈ row.accountIds

lemma settleRow_total {s : Settling κ} (hs : s.db.Indexed) {checked : Checked κ}
    (hproper : checked.Proper) (commit : Bool) :
    ∃ t row, settleRow owner platform commit s checked = .ok (t, row) ∧ t.db.Indexed ∧
      row.row = checked.row ∧ row.Lists s.db t.db := by
  cases hout : checked.outcome with
  | error report =>
    obtain ⟨hrow, hids⟩ := hproper report hout
    exact ⟨s, report, settleRow_error hout, hs, hrow, fun hne => absurd hids hne,
      fun k => .inl rfl⟩
  | ok verified =>
    have hrow : (classify owner platform s checked.row verified).row = checked.row ∧
        (classify owner platform s checked.row verified).accountIds = [] := by
      unfold classify
      simp only
      split_ifs <;> exact ⟨rfl, rfl⟩
    by_cases hstatus :
        (classify owner platform s checked.row verified).status = .connectedElsewhere
    · exact ⟨s, _, settleRow_elsewhere hout hstatus, hs, hrow.1, fun hne => absurd hrow.2 hne,
        fun k => .inl rfl⟩
    · cases commit with
      | false =>
        exact ⟨_, _, settleRow_check hout hstatus, hs, hrow.1, fun hne => absurd hrow.2 hne,
          fun k => .inl rfl⟩
      | true =>
        rcases settleRow_import hs hout hstatus with
          ⟨db, upserts, hsettle, hconnects⟩ | ⟨hsettle, -⟩
        · exact ⟨_, _, hsettle, hconnects.indexed, hrow.1, fun _ => status_classify _ _ _ hstatus,
            hconnects.listed⟩
        · exact ⟨_, _, hsettle, hs, hrow.1, fun hne => absurd hrow.2 hne, fun k => .inl rfl⟩

lemma settleRows_unreadable {s : Settling κ} (hs : s.db.Indexed) {l : List (Item κ)}
    (hproper : ∀ checked ∈ rowsOf l, checked.Proper) (hend : endingOf l = .unreadable)
    (commit : Bool) :
    settleRows owner platform commit s l =
      .error (.csvInvalid "the file could not be read") := by
  induction l generalizing s with
  | nil => cases hend
  | cons item l ih =>
    cases item with
    | truncated => cases hend
    | unreadable => rfl
    | row checked =>
      obtain ⟨t, row, hsettle, ht, -⟩ :=
        @settleRow_total κ owner platform s hs checked (hproper checked List.mem_cons_self) commit
      have hrest := ih ht (fun c hc => hproper c (List.mem_cons_of_mem _ hc)) hend
      simp only [settleRows, hsettle, bind, Except.bind, hrest]

/-- The rows of a file that can be read are reported one by one. -/
lemma settleRows_ok {s : Settling κ} (hs : s.db.Indexed) {l : List (Item κ)}
    (hproper : ∀ checked ∈ rowsOf l, checked.Proper) (hend : endingOf l ≠ .unreadable)
    (commit : Bool) :
    ∃ t rows, settleRows owner platform commit s l =
        .ok (t, rows, decide (endingOf l = .truncated)) ∧ t.db.Indexed ∧
      rows.map ImportRow.row = (rowsOf l).map Checked.row ∧
      (∀ row ∈ rows, row.accountIds ≠ [] → row.status = .ok ∨ row.status = .alreadyConnected) ∧
      ∀ k, t.db.accounts.lookup k = s.db.accounts.lookup k ∨ ∃ row ∈ rows, k ∈ row.accountIds := by
  induction l generalizing s with
  | nil => exact ⟨s, [], rfl, hs, rfl, by simp, fun k => .inl rfl⟩
  | cons item l ih =>
    cases item with
    | truncated => exact ⟨s, [], rfl, hs, rfl, by simp, fun k => .inl rfl⟩
    | unreadable => exact absurd rfl hend
    | row checked =>
      obtain ⟨t, row, hsettle, ht, hrow, hstatus, hlisted⟩ :=
        @settleRow_total κ owner platform s hs checked (hproper checked List.mem_cons_self) commit
      obtain ⟨u, rows, hrest, hu, hrows, hstatuses, hall⟩ :=
        ih ht (fun c hc => hproper c (List.mem_cons_of_mem _ hc)) hend
      refine ⟨u, row :: rows, ?_, hu, ?_, ?_, fun k => ?_⟩
      · simp only [settleRows, hsettle, bind, Except.bind, hrest]
        rfl
      · simp only [List.map_cons, hrow, hrows, rowsOf]
      · exact List.forall_mem_cons.mpr ⟨hstatus, hstatuses⟩
      · rcases hall k with hk | ⟨later, hmem, hk⟩
        · rcases hlisted k with hk' | hk'
          · exact .inl (hk.trans hk')
          · exact .inr ⟨row, List.mem_cons_self, hk'⟩
        · exact .inr ⟨later, List.mem_cons_of_mem _ hmem, hk⟩

/-- The reports show the same rows as long as the owner comes to hold one account on `email`. -/
lemma Mirrors.run {check imported : Settling κ} (h : Mirrors owner platform check imported)
    (hcheck : check.db.Indexed) {l : List (Item κ)}
    (hproper : ∀ checked ∈ rowsOf l, checked.Proper) (hend : endingOf l ≠ .unreadable)
    {check' imported' : Settling κ} {rows rows' : List ImportRow} {truncated truncated' : Bool}
    (hrun : settleRows owner platform false check l = .ok (check', rows, truncated))
    (hrun' : settleRows owner platform true imported l = .ok (imported', rows', truncated')) :
    rows'.map ImportRow.shown = rows.map ImportRow.shown ↔
      (platform = "email" →
        ((check.db.holdings owner platform).connect (check.seen ++ reachedBy l)).Single) := by
  have hsingle : platform = "email" →
      ((check.db.holdings owner platform).connect check.seen).Single := by
    rintro rfl
    exact h.holdings ▸ single_of_email h.indexed
  induction l generalizing check imported check' imported' rows rows' truncated truncated' with
  | nil =>
    obtain ⟨-, hrows⟩ := Prod.mk.inj (Except.ok.inj hrun)
    obtain ⟨-, hrows'⟩ := Prod.mk.inj (Except.ok.inj hrun')
    obtain rfl := (Prod.mk.inj hrows).1
    obtain rfl := (Prod.mk.inj hrows').1
    simpa [reachedBy, rowsOf] using hsingle
  | cons item l ih =>
    cases item with
    | truncated =>
      obtain ⟨-, hrows⟩ := Prod.mk.inj (Except.ok.inj hrun)
      obtain ⟨-, hrows'⟩ := Prod.mk.inj (Except.ok.inj hrun')
      obtain rfl := (Prod.mk.inj hrows).1
      obtain rfl := (Prod.mk.inj hrows').1
      simpa [reachedBy, rowsOf] using hsingle
    | unreadable => exact absurd rfl hend
    | row checked =>
      have hrest : ∀ c ∈ rowsOf l, c.Proper := fun c hc =>
        hproper c (List.mem_cons_of_mem _ hc)
      have hreached : reachedBy (.row checked :: l) = checked.discovered ++ reachedBy l := by
        simp only [reachedBy, rowsOf, List.flatMap_cons]
      obtain ⟨c, row, i, row', hc, hi, hdb, hindexed, hcases⟩ := h.step checked
      have hcheck' : c.db.Indexed := hdb ▸ hcheck
      -- the rest of both runs
      obtain ⟨u, more, hmore, -⟩ := @settleRows_ok κ owner platform c hcheck' l hrest hend false
      obtain ⟨v, more', hmore', -⟩ := @settleRows_ok κ owner platform i hindexed l hrest hend true
      obtain rfl : rows = row :: more := by
        simp only [settleRows, hc, bind, Except.bind, hmore] at hrun
        exact ((Prod.mk.inj (Prod.mk.inj (Except.ok.inj hrun)).2).1).symm
      obtain rfl : rows' = row' :: more' := by
        simp only [settleRows, hi, bind, Except.bind, hmore'] at hrun'
        exact ((Prod.mk.inj (Prod.mk.inj (Except.ok.inj hrun')).2).1).symm
      rw [List.map_cons, List.map_cons, List.cons_eq_cons, hreached, ← List.append_assoc]
      rcases hcases with ⟨hmirrors, hshown, hconnect⟩ | ⟨hshown, hemail, hnot⟩
      · rw [← hconnect, ← hdb, and_iff_right hshown]
        refine ih hmirrors hcheck' hrest hend hmore hmore' ?_
        rintro rfl
        exact hmirrors.holdings ▸ single_of_email hmirrors.indexed
      · refine iff_of_false (fun heq => hshown heq.1) fun hall => hnot ?_
        exact (hall hemail).of_connect

/-! ## The stream -/

section Stream

variable (platform : Platform κ) (headers : List String) (maxRows : ℕ)

lemma checkRow_proper (cells : List String) (row : ℕ) :
    (checkRow platform headers cells row).Proper ∧
      (checkRow platform headers cells row).row = row := by
  refine ⟨fun report h => ?_, rfl⟩
  unfold checkRow at h
  simp only at h
  split_ifs at h
  · exact Except.error.inj h ▸ ⟨rfl, rfl⟩
  · split at h
    · exact Except.error.inj h ▸ ⟨rfl, rfl⟩
    · unfold verifyRow at h
      split at h
      · exact Except.error.inj h ▸ ⟨rfl, rfl⟩
      · cases h
      · next error _ =>
        obtain rfl := Except.error.inj h
        cases error <;> exact ⟨rfl, rfl⟩

/-- What the stream yields for a row within the limit. -/
lemma itemOf_row {index : ℕ} {record : Record} {checked : Checked κ}
    (h : itemOf platform headers maxRows index record = .row checked) :
    checked.Proper ∧ checked.row = rowNumber index := by
  unfold itemOf at h
  simp only at h
  split_ifs at h
  split at h
  · obtain rfl := Item.row.inj h
    exact checkRow_proper platform headers _ _
  · cases h
  · obtain rfl := Item.row.inj h
    exact ⟨fun report hreport => Except.error.inj hreport ▸ ⟨rfl, rfl⟩, rfl⟩

/-- The data rows within the limit: the number of a row stays at the largest there is. -/
def limited (count : ℕ) : ℕ := if maxRows < maxU32 then min count maxRows else count

/-- The items from an index on. -/
def itemsFrom (start : ℕ) (records : List Record) : List (Item κ) :=
  (records.zipIdx start).map fun (record, index) => itemOf platform headers maxRows index record

lemma itemsFrom_cons (start : ℕ) (record : Record) (records : List Record) :
    itemsFrom platform headers maxRows start (record :: records) =
      itemOf platform headers maxRows start record ::
        itemsFrom platform headers maxRows (start + 1) records := rfl

/-- The rows from an index on. -/
def limitedFrom (start count : ℕ) : ℕ :=
  if maxRows < maxU32 then min count (maxRows - start) else count

lemma rows_itemsFrom (records : List Record) (start : ℕ) :
    (∀ checked ∈ rowsOf (itemsFrom platform headers maxRows start records), checked.Proper) ∧
      (endingOf (itemsFrom platform headers maxRows start records) ≠ .unreadable →
        (rowsOf (itemsFrom platform headers maxRows start records)).map Checked.row =
          (List.range' start (limitedFrom maxRows start records.length)).map rowNumber) := by
  induction records generalizing start with
  | nil => simp [itemsFrom, limitedFrom, rowsOf]
  | cons record records ih =>
    obtain ⟨hproper, hrows⟩ := ih (start + 1)
    rw [itemsFrom_cons]
    by_cases hlimit : maxRows < rowNumber start
    · have hitem : itemOf platform headers maxRows start record = .truncated := by
        simp only [itemOf, if_pos hlimit]
      have hnone : limitedFrom maxRows start (record :: records).length = 0 := by
        unfold rowNumber at hlimit
        unfold limitedFrom
        split_ifs <;> omega
      rw [hitem, hnone]
      simp [rowsOf]
    · cases hitem : itemOf platform headers maxRows start record with
      | truncated =>
        unfold itemOf at hitem
        simp only [if_neg hlimit] at hitem
        split at hitem <;> cases hitem
      | unreadable => exact ⟨by simp [rowsOf], fun hend => absurd rfl hend⟩
      | row checked =>
        obtain ⟨hchecked, hnumber⟩ := itemOf_row platform headers maxRows hitem
        refine ⟨List.forall_mem_cons.mpr ⟨hchecked, hproper⟩, fun hend => ?_⟩
        have hcount : limitedFrom maxRows start (record :: records).length =
            limitedFrom maxRows (start + 1) records.length + 1 := by
          unfold rowNumber at hlimit
          unfold limitedFrom
          rw [List.length_cons]
          split_ifs
          · omega
          · rfl
        rw [rowsOf, List.map_cons, hnumber, hcount, List.range'_succ, List.map_cons, hrows hend]

lemma items_proper (records : List Record) :
    ∀ checked ∈ rowsOf (items platform headers maxRows records), checked.Proper :=
  (rows_itemsFrom platform headers maxRows records 0).1

lemma items_rows {records : List Record}
    (hend : endingOf (items platform headers maxRows records) ≠ .unreadable) :
    (rowsOf (items platform headers maxRows records)).map Checked.row =
      (List.range (limited maxRows records.length)).map rowNumber := by
  rw [List.range_eq_range']
  exact (rows_itemsFrom platform headers maxRows records 0).2 hend

end Stream

/-- The loop stops at an item. -/
def Stops (l : List (Item κ)) : Prop := .truncated ∈ l ∨ .unreadable ∈ l

/-- What comes after the item the loop stops at makes no difference. -/
lemma settleRows_append {commit : Bool} {s : Settling κ} {l : List (Item κ)} (h : Stops l)
    (rest : List (Item κ)) :
    settleRows owner platform commit s (l ++ rest) = settleRows owner platform commit s l := by
  induction l generalizing s with
  | nil => simp [Stops] at h
  | cons item l ih =>
    cases item with
    | truncated => rfl
    | unreadable => rfl
    | row checked =>
      have hl : Stops l := by simpa [Stops] using h
      simp only [List.cons_append, settleRows, ih hl]

/-! ## Checks and imports -/

variable {input : Platform κ} {maxRows : ℕ} {db : Db κ} {file : CsvFile}

/-- What a check should tell of an import of the same file into the same tables. -/
structure Predicts (platform : Platform κ) (maxRows : ℕ) (owner : UserId) (db : Db κ)
    (file : CsvFile) : Prop where
  /-- the same report but for the accounts connected, or the same error -/
  same : (importCsv platform maxRows owner true db file).map (fun done => done.2.shown) =
    (importCsv platform maxRows owner false db file).map fun done => done.2.shown
  inOrder : ∀ {commit t report}, importCsv platform maxRows owner commit db file = .ok (t, report) →
    report.rows.map ImportRow.row =
      (List.range (limited maxRows file.records.length)).map rowNumber
  /-- an account written is one of a row that the check found `ok` or `already_connected` -/
  connects : ∀ {s t check report}, importCsv platform maxRows owner false db file = .ok (s, check) →
    importCsv platform maxRows owner true db file = .ok (t, report) →
    ∀ k, t.accounts.lookup k = db.accounts.lookup k ∨
      ∃ (n : ℕ) (row row' : ImportRow), check.rows[n]? = some row ∧ report.rows[n]? = some row' ∧
        k ∈ row'.accountIds ∧ (row.status = .ok ∨ row.status = .alreadyConnected)
  /-- with room for any number of rows at work, the stream yields what the loop would read -/
  anyConcurrency : ∀ {headers n events} {b : Buffered (Item κ)},
    readHeaders platform.schema file.headers = .ok headers →
    Run (Buffered.Step n) (Buffered.ofList (items platform headers maxRows file.records)) events b →
    (0 < n → b.waiting ≠ [] ∨ b.inWork ≠ [] → ∃ c, Buffered.Step n b () c) ∧
      (b.waiting = [] ∧ b.inWork = [] ∨ Stops b.out →
        ∀ commit s, settleRows owner platform.id commit s b.out =
          settleRows owner platform.id commit s (items platform headers maxRows file.records))

/-- The condition in terms of the owner's holdings. -/
lemma oneSendingMethod_iff (hdb : db.Indexed) :
    OneSendingMethod input maxRows owner db file ↔
      (input.id = "email" →
        ((db.holdings owner input.id).connect (reached input maxRows file)).Single) := by
  have hold : ∀ r, db.MayHold owner input.id (reached input maxRows file) r ↔
      ((db.holdings owner input.id).connect (reached input maxRows file)).own r = some true := by
    intro r
    rw [Holdings.own_connect_eq_true, own_eq_true hdb, Db.MayHold, ← Bool.not_eq_true,
      taken_eq_true]
    push Not
    rfl
  unfold OneSendingMethod
  simp only [hold]
  exact ⟨fun h hemail q r => h hemail q r, fun h hemail q r => @h hemail q r⟩

/-- The report of settled rows. -/
def reportOf (commit : Bool) (rows : List ImportRow) (truncated : Bool) : ImportReport where
  commit := commit
  rows := rows
  counts := fun status => rows.countP fun row => row.status = status
  truncated := truncated

/-- The counts go by what is shown. -/
lemma shown_reportOf {commit commit' truncated : Bool} {rows rows' : List ImportRow} :
    (reportOf commit' rows' truncated).shown = (reportOf commit rows truncated).shown ↔
      rows'.map ImportRow.shown = rows.map ImportRow.shown := by
  refine ⟨fun h => (Prod.mk.inj h).1, fun h => ?_⟩
  have hcounts : ∀ status, (rows'.countP fun row => row.status = status) =
      rows.countP fun row => row.status = status := by
    intro status
    have hstatuses : rows'.map ImportRow.status = rows.map ImportRow.status := by
      simpa [List.map_map, Function.comp_def, ImportRow.shown] using
        congrArg (List.map ImportRow.status) h
    simpa [List.countP_map, Function.comp_def] using
      congrArg (List.countP fun s => s = status) hstatuses
  simp only [ImportReport.shown, reportOf, h, hcounts]

section Reading

variable {headers : List String} (hheaders : readHeaders input.schema file.headers = .ok headers)

include hheaders

/-- A file that can be read is reported. -/
lemma importCsv_ok {commit truncated : Bool} {s : Settling κ} {rows : List ImportRow}
    (h : settleRows owner input.id commit { db := db } (items input headers maxRows file.records) =
      .ok (s, rows, truncated)) :
    importCsv input maxRows owner commit db file =
      .ok (s.db, reportOf commit rows truncated) := by
  simp only [importCsv, hheaders, h, bind, Except.bind]
  rfl

lemma importCsv_unreadable (hdb : db.Indexed)
    (hend : endingOf (items input headers maxRows file.records) = .unreadable) (commit : Bool) :
    importCsv input maxRows owner commit db file =
      .error (.csvInvalid "the file could not be read") := by
  have hrows := @settleRows_unreadable κ owner input.id { db := db } hdb _
    (items_proper input headers maxRows file.records) hend commit
  simp only [importCsv, hheaders, hrows, bind, Except.bind]

/-- The two runs over the rows of a file that can be read. -/
lemma both_ok (hdb : db.Indexed)
    (hend : endingOf (items input headers maxRows file.records) ≠ .unreadable) :
    ∃ s rows t rows' truncated,
      importCsv input maxRows owner false db file = .ok (s, reportOf false rows truncated) ∧
      importCsv input maxRows owner true db file = .ok (t, reportOf true rows' truncated) ∧
      (rows'.map ImportRow.shown = rows.map ImportRow.shown ↔
        OneSendingMethod input maxRows owner db file) ∧
      (∀ row ∈ rows', row.accountIds ≠ [] → row.status = .ok ∨ row.status = .alreadyConnected) ∧
      (∀ k, t.accounts.lookup k = db.accounts.lookup k ∨ ∃ row ∈ rows', k ∈ row.accountIds) ∧
      rows.map ImportRow.row = (List.range (limited maxRows file.records.length)).map rowNumber ∧
      rows'.map ImportRow.row =
        (List.range (limited maxRows file.records.length)).map rowNumber := by
  have hproper := items_proper input headers maxRows file.records
  obtain ⟨s, rows, hcheck, -, hrows, -⟩ :=
    @settleRows_ok κ owner input.id { db := db } hdb _ hproper hend false
  obtain ⟨t, rows', himport, -, hrows', hstatus, hlisted⟩ :=
    @settleRows_ok κ owner input.id { db := db } hdb _ hproper hend true
  have hmirrors : Mirrors owner input.id ({ db := db } : Settling κ) { db := db } :=
    ⟨rfl, hdb, Holdings.connect_nil.symm⟩
  have hreached : reached input maxRows file =
      reachedBy (items input headers maxRows file.records) := by
    simp only [reached, hheaders, if_neg hend]
  refine ⟨s.db, rows, t.db, rows', _, importCsv_ok hheaders hcheck, importCsv_ok hheaders himport,
    ?_, hstatus, hlisted, hrows.trans (items_rows input headers maxRows hend),
    hrows'.trans (items_rows input headers maxRows hend)⟩
  rw [oneSendingMethod_iff hdb, hreached]
  exact hmirrors.run hdb hproper hend hcheck himport

end Reading

/-- Without rows to settle the condition holds. -/
lemma oneSendingMethod_of_nil (hdb : db.Indexed) (h : reached input maxRows file = []) :
    OneSendingMethod input maxRows owner db file := by
  rw [oneSendingMethod_iff hdb, h, Holdings.connect_nil]
  intro hemail
  rw [hemail]
  exact single_of_email hdb

/-- The field with the sender's address. -/
def fromAddress : SchemaField where
  name := "from_address"
  label := { key := "credentials.from_address.label", en := "From address" }
  help := none
  required := true
  kind := .string none none none
  noDefault := false
  secret := false
  consentText := none
  dependsOn := none

/-- The email platform, where a sending setup reaches the one account of its address. -/
def emailPlatform : Platform String where
  id := "email"
  schema := { fields := [fromAddress] }
  parseCredentials values :=
    match values with
    | [("from_address", .string address)] => .ok address
    | _ => .error []
  verifyCredentials _ address := .ok [address]

/-- A file with two sending setups. -/
def twoSenders : CsvFile where
  headers := some ["from_address"]
  records := [.cells ["news@example.com"], .cells ["info@example.com"]]

/-- A file with one. -/
def oneSender : CsvFile := { twoSenders with records := [.cells ["news@example.com"]] }

/-- The statuses of a report. -/
def statusesOf (commit : Bool) : Option (List ImportStatus) :=
  ((importCsv emailPlatform 1000 0 commit {} twoSenders).map
    fun done => done.2.rows.map ImportRow.status).toOption

lemma statusesOf_twoSenders :
    statusesOf false = some [.ok, .ok] ∧ statusesOf true = some [.ok, .alreadyConnected] := by
  decide

end Postit.Accounts
