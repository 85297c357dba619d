import Mathlib.Data.List.Dedup
import Postit.Data.TargetGroups
import Postit.Framework.Observed
import Postit.Framework.Results

/-!
# Members beyond a delegate's limit stay hidden, and stay

A delegate limited to some accounts learns nothing of which other accounts are members of the
owner's groups: over two runs of the same calls, from tables that differ in such members only,
everything they are told is the same (`hidden_members_unseen`).  And whatever such delegates do, the
members beyond their limit stay until their group is deleted (`hidden_members_kept`).
-/

namespace Postit.Data

open Postit.Framework TargetGroupRepo

variable {before : String → String → Bool} {scope : OwnerScope} {owner : UserId}
  {limit : List AccountId} {db db' dbA dbB : GroupDb} {k : MemberKey} {row : MemberRow}
  {group : TargetGroupId} {accounts : List AccountId} {now : Time} {answer : GroupAnswer}

/-! ## Who sees what -/

/-- The scope reaches none of the owner's accounts beyond the limit. -/
def OwnerScope.isWithin (scope : OwnerScope) (owner : UserId) (limit : List AccountId) : Bool :=
  scope.owner ≠ owner || scope.accountFilter.any fun ids => ids.all fun id => limit.contains id

/-- Who makes the call. -/
def GroupCall.scope? : GroupCall → Option OwnerScope
  | .create scope .. | .get scope _ | .list scope _ | .rename scope .. | .setAccounts scope ..
  | .delete scope _ => some scope
  | .connected .. | .disconnected .. | .userDeleted _ => none

/-- The call is made by someone who sees none of the owner's members beyond the limit. -/
def GroupCall.isWithin (call : GroupCall) (owner : UserId) (limit : List AccountId) : Bool :=
  call.scope?.all fun scope => scope.isWithin owner limit

/-- One of the owner's members, of an account beyond the limit. -/
def Hidden (owner : UserId) (limit : List AccountId) (k : MemberKey) (row : MemberRow) : Prop :=
  row.owner = owner ∧ k.2 ∉ limit

/-- The tables differ in hidden members only. -/
structure Alike (owner : UserId) (limit : List AccountId) (db db' : GroupDb) : Prop where
  groups : db.groups = db'.groups
  accounts : db.accounts = db'.accounts
  members : ∀ k row, ¬ Hidden owner limit k row →
    (db.members.lookup k = some row ↔ db'.members.lookup k = some row)

/-- The scope reaches the member. -/
def Reached (scope : OwnerScope) (k : MemberKey) (row : MemberRow) : Prop :=
  row.owner = scope.owner ∧ scope.allowsAccount k.2 = true

lemma not_hidden_of_reached (hscope : scope.isWithin owner limit = true)
    (h : Reached scope k row) : ¬ Hidden owner limit k row := by
  rintro ⟨howner, hlimit⟩
  obtain ⟨hrow, hallows⟩ := h
  rw [OwnerScope.isWithin, Bool.or_eq_true] at hscope
  rcases hscope with hne | hids
  · exact absurd (hrow.symm.trans howner) (of_decide_eq_true hne)
  · obtain ⟨ids, hids, hall⟩ := Option.any_eq_true _ _ |>.mp hids
    rw [OwnerScope.allowsAccount, hids] at hallows
    have hmem := List.all_eq_true.mp hall k.2 (by simpa using hallows)
    exact hlimit (by simpa using hmem)

/-! ## Reading -/

/-- In the order of creation, one after the other. -/
abbrev CreatedBefore (a b : MemberKey × MemberRow) : Prop := byCreation a b = true

section Order

variable {s t u : Int} {i j k : ℕ}

lemma creation_trans (h : s < t ∨ s = t ∧ i ≤ j) (h' : t < u ∨ t = u ∧ j ≤ k) :
    s < u ∨ s = u ∧ i ≤ k := by omega

lemma creation_total : (s < t ∨ s = t ∧ i ≤ j) ∨ (t < s ∨ t = s ∧ j ≤ i) := by omega

lemma creation_antisymm (h : s < t ∨ s = t ∧ i ≤ j) (h' : t < s ∨ t = s ∧ j ≤ i) : i = j := by
  omega

end Order

instance : IsTrans (MemberKey × MemberRow) CreatedBefore := ⟨fun _ _ _ hab hbc =>
  decide_eq_true (creation_trans (of_decide_eq_true hab) (of_decide_eq_true hbc))⟩

instance : Std.Total CreatedBefore := ⟨fun _ _ =>
  creation_total.imp (decide_eq_true ·) (decide_eq_true ·)⟩

lemma mem_membersOf {groups : List TargetGroupId} : (k, row) ∈ membersOf db scope groups ↔
    db.members.lookup k = some row ∧ k.1 ∈ groups ∧ Reached scope k row := by
  rw [membersOf, List.mem_insertionSort, Table.mem_select]
  simp [Reached, OwnerScope.allowsAccount]
  tauto

/-- The accounts of a group are told by the members that are reached. -/
lemma accountsIn_congr (h : ∀ k row, Reached scope k row →
    (dbA.members.lookup k = some row ↔ dbB.members.lookup k = some row))
    (groups : List TargetGroupId) (group : TargetGroupId) :
    accountsIn (membersOf dbA scope groups) group =
      accountsIn (membersOf dbB scope groups) group := by
  have hsorted (db : GroupDb) : ((membersOf db scope groups).filter fun r =>
      r.1.1 = group).Pairwise CreatedBefore :=
    (List.pairwise_insertionSort CreatedBefore _).filter _
  have hnodup (db : GroupDb) : ((membersOf db scope groups).filter fun r =>
      decide (r.1.1 = group)).Nodup :=
    (((List.perm_insertionSort _ _).nodup_iff).mpr
      (List.Nodup.of_map _ (db.members.nodup_select _))).filter _
  unfold accountsIn
  congr 1
  refine @List.Perm.eq_of_pairwise _ CreatedBefore _ _ (fun a b ha hb hab hba => ?_) (hsorted dbA)
    (hsorted dbB) ?_
  · -- no two members of a group have the same account
    rw [List.mem_filter, mem_membersOf, decide_eq_true_eq] at ha hb
    have hkey : a.1 = b.1 := Prod.ext (ha.2.trans hb.2.symm)
      (creation_antisymm (of_decide_eq_true hab) (of_decide_eq_true hba))
    have hrow := (h _ _ ha.1.2.2).mp ha.1.1
    rw [hkey, hb.1.1, Option.some.injEq] at hrow
    exact Prod.ext hkey hrow.symm
  · refine (List.perm_ext_iff_of_nodup (hnodup dbA) (hnodup dbB)).mpr fun r => ?_
    rw [List.mem_filter, List.mem_filter, mem_membersOf, mem_membersOf]
    refine and_congr_left fun _ => ⟨fun hr => ⟨?_, hr.2⟩, fun hr => ⟨?_, hr.2⟩⟩
    · exact (h _ _ hr.2.2).mp hr.1
    · exact (h _ _ hr.2.2).mpr hr.1

lemma accountsIn_alike (hscope : scope.isWithin owner limit = true)
    (h : Alike owner limit dbA dbB) (groups : List TargetGroupId) (group : TargetGroupId) :
    accountsIn (membersOf dbA scope groups) group =
      accountsIn (membersOf dbB scope groups) group :=
  accountsIn_congr (fun _ _ hr => h.members _ _ (not_hidden_of_reached hscope hr)) _ _

lemma get_alike (hscope : scope.isWithin owner limit = true) (h : Alike owner limit dbA dbB)
    (group : TargetGroupId) :
    TargetGroupRepo.get scope dbA group = TargetGroupRepo.get scope dbB group := by
  unfold TargetGroupRepo.get
  rw [h.groups, accountsIn_alike hscope h]

lemma list_alike (hscope : scope.isWithin owner limit = true) (h : Alike owner limit dbA dbB)
    (pagination : Pagination) : TargetGroupRepo.list scope before dbA pagination =
      TargetGroupRepo.list scope before dbB pagination := by
  unfold TargetGroupRepo.list
  rw [h.groups]
  simp only [accountsIn_alike hscope h]

/-! ## Adding members -/

/-- Rows are added for the accounts. -/
structure Added (db db' : GroupDb) (group : TargetGroupId) (added : List AccountId)
    (row : MemberRow) : Prop where
  groups : db'.groups = db.groups
  accounts : db'.accounts = db.accounts
  members : ∀ k, db'.members.lookup k =
    if k.1 = group ∧ k.2 ∈ added then some row else db.members.lookup k

/-- The accounts are added if all of them are the owner's, and none is otherwise. -/
lemma addMembers_cases (now : Time) (hnodup : accounts.Nodup)
    (hfree : ∀ account ∈ accounts, db.members.lookup (group, account) = none)
    (hgroup : owns scope db group = true) :
    ((∀ account ∈ accounts, db.accounts.lookup account = some scope.owner) ∧
        ∃ db', addMembers scope db group accounts now = .ok db' ∧
          Added db db' group accounts { owner := scope.owner, createdAt := now }) ∨
      (¬ ∀ account ∈ accounts, db.accounts.lookup account = some scope.owner) ∧
        addMembers scope db group accounts now = .error .notFound := by
  induction accounts generalizing db with
  | nil =>
    refine .inl ⟨by simp, db, rfl, rfl, rfl, fun k => ?_⟩
    rw [if_neg (by simp)]
  | cons account accounts ih =>
    rw [List.forall_mem_cons]
    have hstep : addMembers scope db group (account :: accounts) now =
        addMember scope group now db account >>= fun db' =>
          addMembers scope db' group accounts now := rfl
    rw [hstep, addMember]
    by_cases hown : db.accounts.lookup account = some scope.owner
    · -- the row goes in
      have howner : (db.groups.lookup group).map GroupRow.owner = some scope.owner := by
        obtain ⟨row, hrow, howner⟩ := Option.any_eq_true _ _ |>.mp hgroup
        rw [hrow, Option.map_some, of_decide_eq_true howner]
      obtain ⟨db', hdb', hgroups, haccounts, hmembers⟩ : ∃ db', db.insertMember? (group, account)
          { owner := scope.owner, createdAt := now } = some db' ∧ db'.groups = db.groups ∧
            db'.accounts = db.accounts ∧ db'.members =
              db.members.insert (group, account) { owner := scope.owner, createdAt := now } :=
        ⟨_, dif_pos ⟨hfree account List.mem_cons_self, howner, hown⟩, rfl, rfl, rfl⟩
      rw [if_pos hown, hdb', and_iff_right hown]
      rw [List.nodup_cons] at hnodup
      have hlookup (k : MemberKey) : db'.members.lookup k = if k = (group, account) then
          some { owner := scope.owner, createdAt := now } else db.members.lookup k := by
        rw [hmembers]
        split
        · next heq => rw [heq, AList.lookup_insert]
        · next hne => exact AList.lookup_insert_ne hne
      have hfree' : ∀ account' ∈ accounts, db'.members.lookup (group, account') = none := by
        intro account' hmem
        have hne : (group, account') ≠ (group, account) := fun heq =>
          hnodup.1 ((Prod.mk.inj heq).2 ▸ hmem)
        rw [hlookup, if_neg hne]
        exact hfree account' (List.mem_cons_of_mem _ hmem)
      have hgroup' : owns scope db' group = true := by rwa [owns, hgroups]
      have hrest := ih hnodup.2 hfree' hgroup'
      rw [haccounts] at hrest
      refine hrest.imp (And.imp_right ?_) id
      rintro ⟨db'', hok, hadded⟩
      refine ⟨db'', hok, hadded.groups.trans hgroups, hadded.accounts.trans haccounts,
        fun k => ?_⟩
      rw [hadded.members, hlookup]
      by_cases hk : k = (group, account)
      · simp [hk]
      · have hiff : k.1 = group ∧ k.2 ∈ account :: accounts ↔ k.1 = group ∧ k.2 ∈ accounts := by
          refine and_congr_right fun hgroup => ?_
          rw [List.mem_cons, or_iff_right]
          exact fun haccount => hk (Prod.ext hgroup haccount)
        rw [if_neg hk]
        simp only [hiff]
    · rw [if_neg hown]
      exact .inr ⟨fun h => hown h.1, rfl⟩

/-! ## Writing -/

lemma of_reachable_ok {members : List AccountId} (h : reachable scope accounts = .ok members) :
    members.Nodup ∧ ∀ account ∈ members, scope.allowsAccount account = true := by
  unfold reachable at h
  split at h
  · cases h
  · next hall =>
    cases h
    refine ⟨List.nodup_dedup _, fun account hmem => ?_⟩
    rw [List.mem_dedup, List.mem_insertionSort] at hmem
    rw [List.any_eq_true] at hall
    push Not at hall
    simpa using hall account hmem

lemma owner_of_owns (hgroup : owns scope db k.1 = true) (hk : db.members.lookup k = some row) :
    row.owner = scope.owner := by
  obtain ⟨group, hlookup, howner⟩ := Option.any_eq_true _ _ |>.mp hgroup
  have hkey := db.groupKey hk
  rw [hlookup, Option.map_some, Option.some.injEq] at hkey
  exact hkey.symm.trans (of_decide_eq_true howner)

lemma owns_updateGroups {p : TargetGroupId → GroupRow → Bool} {name : String → String} :
    owns scope (db.updateGroups p name now) group = owns scope db group := by
  unfold owns GroupDb.updateGroups
  rw [Table.lookup_updateWhere]
  cases db.groups.lookup group with
  | none => rfl
  | some row =>
    rw [Option.map_some, Option.any_some, Option.any_some]
    split <;> rfl

lemma owns_deleteReached : owns scope (deleteReached scope group db) group = owns scope db group :=
  rfl

/-- Where the group's members that the scope reaches were deleted, none of them is left. -/
lemma lookup_deleteReached (hgroup : owns scope db group = true) {account : AccountId}
    (hallowed : scope.allowsAccount account = true) :
    (deleteReached scope group db).members.lookup (group, account) = none := by
  rw [Option.eq_none_iff_forall_ne_some]
  intro row hk
  rw [deleteReached, GroupDb.deleteMembers, Table.lookup_deleteWhere,
    Option.filter_eq_some_iff] at hk
  have howner := owner_of_owns (k := (group, account)) hgroup hk.1
  have hnot := hk.2
  rw [decide_eq_true ⟨howner, rfl, hallowed⟩] at hnot
  cases hnot

/-- A group that is not there has no members. -/
lemma lookup_of_new (hnew : db.groups.lookup k.1 = none) : db.members.lookup k = none := by
  rw [Option.eq_none_iff_forall_ne_some]
  intro row hk
  have hkey := db.groupKey hk
  rw [hnew] at hkey
  cases hkey

/-- A new group. -/
lemma insertGroup?_cases {row : GroupRow} (db : GroupDb) (group : TargetGroupId) :
    (db.groups.lookup group = none ∧ ∃ db', db.insertGroup? group row = some db' ∧
        db'.groups = db.groups.insert group row ∧ db'.accounts = db.accounts ∧
          db'.members = db.members) ∨
      db.groups.lookup group ≠ none ∧ db.insertGroup? group row = none := by
  by_cases hnew : db.groups.lookup group = none
  · exact .inl ⟨hnew, _, dif_pos hnew, rfl, rfl, rfl⟩
  · exact .inr ⟨hnew, dif_neg hnew⟩

/-! ## What a call makes of tables that are alike -/

namespace Alike

variable (h : Alike owner limit dbA dbB)
include h

lemma updateGroups (p : TargetGroupId → GroupRow → Bool) (name : String → String) :
    Alike owner limit (dbA.updateGroups p name now) (dbB.updateGroups p name now) where
  groups := by
    dsimp only [GroupDb.updateGroups]
    rw [h.groups]
  accounts := h.accounts
  members := h.members

lemma deleteMembers (p : MemberKey → MemberRow → Bool) :
    Alike owner limit (dbA.deleteMembers p) (dbB.deleteMembers p) where
  groups := h.groups
  accounts := h.accounts
  members k row hk := by
    rw [GroupDb.deleteMembers, GroupDb.deleteMembers, Table.lookup_deleteWhere,
      Table.lookup_deleteWhere, Option.filter_eq_some_iff, Option.filter_eq_some_iff,
      h.members k row hk]

lemma deleteGroups (p : TargetGroupId → GroupRow → Bool) :
    Alike owner limit (dbA.deleteGroups p) (dbB.deleteGroups p) where
  groups := congrArg (Table.deleteWhere · p) h.groups
  accounts := h.accounts
  members k row hk := by
    rw [GroupDb.deleteGroups, GroupDb.deleteGroups, Table.lookup_deleteWhere,
      Table.lookup_deleteWhere, Option.filter_eq_some_iff, Option.filter_eq_some_iff,
      h.members k row hk, h.groups]

lemma deleteUser (user : UserId) : Alike owner limit (dbA.deleteUser user) (dbB.deleteUser user)
    where
  groups := by
    dsimp only [GroupDb.deleteUser]
    rw [h.groups]
  accounts := by
    dsimp only [GroupDb.deleteUser]
    rw [h.accounts]
  members k row hk := by
    rw [GroupDb.deleteUser, GroupDb.deleteUser, Table.lookup_deleteWhere,
      Table.lookup_deleteWhere, Option.filter_eq_some_iff, Option.filter_eq_some_iff,
      h.members k row hk]

lemma insertAccount (account : AccountId) (user : UserId) :
    Alike owner limit ((dbA.insertAccount? account user).getD dbA)
      ((dbB.insertAccount? account user).getD dbB) := by
  unfold GroupDb.insertAccount?
  by_cases hnew : dbA.accounts.lookup account = none
  · rw [dif_pos hnew, dif_pos (h.accounts ▸ hnew)]
    refine ⟨h.groups, ?_, h.members⟩
    dsimp only [Option.getD_some]
    rw [h.accounts]
  · rw [dif_neg hnew, dif_neg (h.accounts ▸ hnew)]
    exact h

end Alike

/-- Both fail with the same error, or both end in tables that are alike. -/
inductive BothAlike (owner : UserId) (limit : List AccountId) :
    Except DataError GroupDb → Except DataError GroupDb → Prop
  | ok {db db' : GroupDb} (h : Alike owner limit db db') : BothAlike owner limit (.ok db) (.ok db')
  | error (err : DataError) : BothAlike owner limit (.error err) (.error err)

lemma committed_alike {resultA resultB : Except DataError GroupDb} (h : Alike owner limit dbA dbB)
    (hresult : BothAlike owner limit resultA resultB) (group : TargetGroupId) :
    Alike owner limit (committed scope dbA group resultA).2 (committed scope dbB group resultB).2 ∧
      (scope.isWithin owner limit = true →
        (committed scope dbA group resultA).1 = (committed scope dbB group resultB).1) := by
  cases hresult with
  | ok halike => exact ⟨halike, fun hscope => get_alike hscope halike group⟩
  | error err => exact ⟨h, fun _ => rfl⟩

lemma addMembers_alike (h : Alike owner limit dbA dbB) (hnodup : accounts.Nodup)
    (hfreeA : ∀ account ∈ accounts, dbA.members.lookup (group, account) = none)
    (hfreeB : ∀ account ∈ accounts, dbB.members.lookup (group, account) = none)
    (hgroup : owns scope dbA group = true) :
    BothAlike owner limit (addMembers scope dbA group accounts now)
      (addMembers scope dbB group accounts now) := by
  have hgroup' : owns scope dbB group = true := by rwa [owns, ← h.groups]
  rcases addMembers_cases now hnodup hfreeA hgroup with
    ⟨howned, dbA', hokA, haddedA⟩ | ⟨howned, herrorA⟩
  · rcases addMembers_cases now hnodup hfreeB hgroup' with
      ⟨-, dbB', hokB, haddedB⟩ | ⟨hnot, -⟩
    · rw [hokA, hokB]
      refine .ok ⟨?_, ?_, fun k row hk => ?_⟩
      · rw [haddedA.groups, haddedB.groups, h.groups]
      · rw [haddedA.accounts, haddedB.accounts, h.accounts]
      · rw [haddedA.members, haddedB.members]
        split
        · exact Iff.rfl
        · exact h.members k row hk
    · exact absurd (h.accounts ▸ howned) hnot
  · rcases addMembers_cases now hnodup hfreeB hgroup' with
      ⟨howned', -⟩ | ⟨-, herrorB⟩
    · exact absurd (h.accounts ▸ howned') howned
    · rw [herrorA, herrorB]
      exact .error _

section Calls

variable (h : Alike owner limit dbA dbB)
include h

lemma create_alike (name : String) :
    BothAlike owner limit (createTx scope group name accounts now dbA)
      (createTx scope group name accounts now dbB) := by
  unfold createTx
  rcases require_ scope .edit with err | ⟨⟩
  · exact .error err
  rcases hreach : reachable scope accounts with err | members
  · exact .error err
  obtain ⟨hnodup, -⟩ := of_reachable_ok hreach
  dsimp only [bind, Except.bind]
  rcases insertGroup?_cases dbA group with ⟨hnew, dbA', hA, hgA, haA, hmA⟩ | ⟨hold, hA⟩
  · rcases insertGroup?_cases dbB group with ⟨hnew', dbB', hB, hgB, haB, hmB⟩ | ⟨hold, -⟩
    · rw [hA, hB]
      refine addMembers_alike ⟨by rw [hgA, hgB, h.groups], by rw [haA, haB, h.accounts], ?_⟩
        hnodup (fun account _ => ?_) (fun account _ => ?_) ?_
      · rw [hmA, hmB]
        exact h.members
      · rw [hmA]
        exact lookup_of_new hnew
      · rw [hmB]
        exact lookup_of_new hnew'
      · rw [owns, hgA, AList.lookup_insert]
        exact decide_eq_true rfl
    · exact absurd (h.groups ▸ hnew) hold
  · rcases insertGroup?_cases dbB group with ⟨hnew', -⟩ | ⟨-, hB⟩
    · exact absurd (h.groups ▸ hnew') hold
    · rw [hA, hB]
      exact .error _

lemma rename_alike (name : String) : BothAlike owner limit (renameTx scope group name now dbA)
    (renameTx scope group name now dbB) := by
  unfold renameTx owns
  rcases require_ scope .edit with err | ⟨⟩
  · exact .error err
  dsimp only [bind, Except.bind]
  rw [h.groups]
  split
  · exact .ok (h.updateGroups _ _)
  · exact .error _

lemma setAccounts_alike : BothAlike owner limit (setAccountsTx scope group accounts now dbA)
    (setAccountsTx scope group accounts now dbB) := by
  unfold setAccountsTx
  rcases require_ scope .edit with err | ⟨⟩
  · exact .error err
  rcases hreach : reachable scope accounts with err | members
  · exact .error err
  obtain ⟨hnodup, hallowed⟩ := of_reachable_ok hreach
  have howns : owns scope dbA group = owns scope dbB group := by rw [owns, owns, h.groups]
  dsimp only [bind, Except.bind]
  rw [howns]
  by_cases hgroup : owns scope dbB group = true
  · rw [if_pos hgroup, if_pos hgroup]
    have hA : ∀ p name, owns scope (dbA.updateGroups p name now) group = true := fun _ _ =>
      owns_updateGroups.trans (howns.trans hgroup)
    have hB : ∀ p name, owns scope (dbB.updateGroups p name now) group = true := fun _ _ =>
      owns_updateGroups.trans hgroup
    exact addMembers_alike ((h.updateGroups _ _).deleteMembers _) hnodup
      (fun account hmem => lookup_deleteReached (hA _ _) (hallowed account hmem))
      (fun account hmem => lookup_deleteReached (hB _ _) (hallowed account hmem))
      (owns_deleteReached.trans (hA _ _))
  · rw [if_neg hgroup, if_neg hgroup]
    exact .error _

lemma delete_alike : Alike owner limit (delete scope group dbA).2 (delete scope group dbB).2 ∧
    (delete scope group dbA).1 = (delete scope group dbB).1 := by
  unfold delete owns
  rcases require_ scope .edit with err | ⟨⟩
  · exact ⟨h, rfl⟩
  dsimp only
  rw [h.groups]
  split
  · exact ⟨h.deleteGroups _, rfl⟩
  · exact ⟨h, rfl⟩

end Calls

/-- One call keeps tables alike, and its answer is the same if it is made within the limit. -/
lemma Alike.step (before : String → String → Bool) (h : Alike owner limit dbA dbB)
    (call : GroupCall) :
    Alike owner limit (call.perform before dbA).2 (call.perform before dbB).2 ∧
      (call.isWithin owner limit = true →
        (call.perform before dbA).1 = (call.perform before dbB).1) := by
  cases call with
  | create scope group name accounts now =>
    exact (committed_alike h (create_alike h name) group).imp_right fun hsame hscope =>
      congrArg GroupAnswer.group (hsame hscope)
  | get scope group => exact ⟨h, fun hscope => congrArg GroupAnswer.group (get_alike hscope h _)⟩
  | list scope pagination =>
    exact ⟨h, fun hscope => congrArg GroupAnswer.page (list_alike hscope h _)⟩
  | rename scope group name now =>
    exact (committed_alike h (rename_alike h name) group).imp_right fun hsame hscope =>
      congrArg GroupAnswer.group (hsame hscope)
  | setAccounts scope group accounts now =>
    exact (committed_alike h (setAccounts_alike h) group).imp_right fun hsame hscope =>
      congrArg GroupAnswer.group (hsame hscope)
  | delete scope group =>
    exact (delete_alike h).imp_right fun hsame _ => congrArg GroupAnswer.done hsame
  | connected user account => exact ⟨h.insertAccount account user, fun _ => rfl⟩
  | disconnected user account => exact ⟨h.deleteMembers _, fun _ => rfl⟩
  | userDeleted user => exact ⟨h.deleteUser user, fun _ => rfl⟩

/-- In two runs of the same calls, by anyone, from tables that differ in members of the owner's
groups beyond the limit only, those whose limit is within it are told the same, and the tables still
differ in such members only. -/
theorem hidden_members_unseen {esA esB : List (GroupCall × GroupAnswer)} {dbA' dbB' : GroupDb}
    (halike : Alike owner limit dbA dbB) (hA : Run (GroupStep before) dbA esA dbA')
    (hB : Run (GroupStep before) dbB esB dbB') (hcalls : esA.map Prod.fst = esB.map Prod.fst) :
    Alike owner limit dbA' dbB' ∧ esA.filter (fun e => e.1.isWithin owner limit) =
      esB.filter fun e => e.1.isWithin owner limit := by
  refine Run.observed Prod.fst (fun call => call.isWithin owner limit) ?_ hA hB hcalls halike
  intro dbA dbB dbA' dbB' e f h hA hB hcall
  have hstep := h.step before e.1
  rw [GroupStep] at hA hB
  rw [← hcall] at hB
  rw [hA, hB] at hstep
  exact ⟨hstep.1, fun hwithin => Prod.ext hcall (hstep.2 hwithin)⟩

/-- User 7 has two accounts, both in a group. -/
def sampleGroups : GroupDb :=
  ([.connected 7 1, .connected 7 2, .create (.own 7) 1 "all" [1, 2] 0] : List GroupCall).foldl
    (fun db call => (call.perform (fun _ _ => false) db).2) .empty

/-- A delegate of user 7 who may edit, limited to the first account. -/
def sampleDelegate : OwnerScope := ⟨8, 7, .delegated .edit (some [1])⟩

lemma sampleGroups_alike : Alike 7 [1] sampleGroups
    (sampleGroups.deleteMembers fun k _ => k = (1, 2)) where
  groups := rfl
  accounts := rfl
  members k row hk := by
    rw [GroupDb.deleteMembers, Table.lookup_deleteWhere, Option.filter_eq_some_iff]
    refine ⟨fun h => ⟨h, ?_⟩, And.left⟩
    have hne : k ≠ (1, 2) := by
      rintro rfl
      have howner : sampleGroups.accounts.lookup 2 = some row.owner := sampleGroups.accountKey h
      exact hk ⟨(Option.some.inj howner).symm, by decide⟩
    rw [decide_eq_false hne]
    rfl

/-- What the delegate is told of the group. -/
def sampleAnswer (db : GroupDb) : GroupCall × GroupAnswer :=
  (.get sampleDelegate 1, ((GroupCall.get sampleDelegate 1).perform (fun _ _ => false) db).1)

theorem hidden_members_unseen_sample :
    sampleAnswer sampleGroups =
      sampleAnswer (sampleGroups.deleteMembers fun k _ => k = (1, 2)) := by
  have hrun (db : GroupDb) : Run (GroupStep fun _ _ => false) db [sampleAnswer db] db :=
    Run.single rfl
  have h := hidden_members_unseen sampleGroups_alike (hrun _) (hrun _) rfl
  exact (List.cons.inj h.2).1

/-! ## What stays -/

/-- Nobody disconnects one of the owner's accounts beyond the limit, or deletes the owner. -/
def GroupCall.spares (owner : UserId) (limit : List AccountId) : GroupCall → Prop
  | .disconnected user account => user = owner → account ∈ limit
  | .userDeleted user => user ≠ owner
  | _ => True

/-- The group is deleted. -/
def Deletes (group : TargetGroupId) (event : GroupCall × GroupAnswer) : Prop :=
  ∃ scope, event = (.delete scope group, .done (.ok ()))

/-- A hidden member is there as it was. -/
def Keeps (k : MemberKey) (row : MemberRow) (db db' : GroupDb) : Prop :=
  db'.members.lookup k = some row ↔ db.members.lookup k = some row

lemma Keeps.trans (h : Keeps k row db dbA) (h' : Keeps k row dbA dbB) : Keeps k row db dbB :=
  Iff.trans h' h

lemma keeps_of_eq (h : db'.members = db.members) : Keeps k row db db' := by rw [Keeps, h]

/-- Deleting others keeps a member. -/
lemma keeps_deleteMembers {p : MemberKey → MemberRow → Bool} (hp : p k row = false) :
    Keeps k row db (db.deleteMembers p) := by
  rw [Keeps, GroupDb.deleteMembers, Table.lookup_deleteWhere, Option.filter_eq_some_iff, hp]
  exact and_iff_left rfl

section Within

variable (hscope : scope.isWithin owner limit = true) (hhidden : Hidden owner limit k row)
include hscope hhidden

lemma keeps_addMembers (hnodup : accounts.Nodup)
    (hfree : ∀ account ∈ accounts, db.members.lookup (group, account) = none)
    (hallowed : ∀ account ∈ accounts, scope.allowsAccount account = true)
    (hgroup : owns scope db group = true)
    (hok : addMembers scope db group accounts now = .ok db') : Keeps k row db db' := by
  rcases addMembers_cases now hnodup hfree hgroup with ⟨-, db'', hok', hadded⟩ | ⟨-, herror⟩
  · obtain rfl : db' = db'' := Except.ok.inj (hok.symm.trans hok')
    rw [Keeps, hadded.members]
    split
    · next hk =>
      -- the account is one that the scope reaches
      have hnone : db.members.lookup k = none := by
        rw [← hfree k.2 hk.2, ← hk.1]
      rw [hnone]
      refine iff_of_false (fun hrow => ?_) (fun hrow => by cases hrow)
      have howner : row.owner = scope.owner := (Option.some.inj hrow) ▸ rfl
      exact not_hidden_of_reached hscope ⟨howner, hallowed k.2 hk.2⟩ hhidden
    · exact Iff.rfl
  · rw [hok] at herror
    cases herror

lemma keeps_createTx {name : String} (hok : createTx scope group name accounts now db = .ok db') :
    Keeps k row db db' := by
  unfold createTx at hok
  obtain ⟨_, -, hok⟩ := bind_eq_ok hok
  obtain ⟨members, hreach, hok⟩ := bind_eq_ok hok
  obtain ⟨hnodup, hallowed⟩ := of_reachable_ok hreach
  rcases insertGroup?_cases db group with ⟨hnew, db'', hinsert, hgroups, -, hmembers⟩ | ⟨-, hnone⟩
  · rw [hinsert] at hok
    refine (keeps_of_eq hmembers).trans
      (keeps_addMembers hscope hhidden hnodup (fun account _ => ?_) hallowed ?_ hok)
    · rw [hmembers]
      exact lookup_of_new hnew
    · rw [owns, hgroups, AList.lookup_insert]
      exact decide_eq_true rfl
  · rw [hnone] at hok
    cases hok

lemma keeps_setAccountsTx (hok : setAccountsTx scope group accounts now db = .ok db') :
    Keeps k row db db' := by
  unfold setAccountsTx at hok
  obtain ⟨_, -, hok⟩ := bind_eq_ok hok
  obtain ⟨members, hreach, hok⟩ := bind_eq_ok hok
  obtain ⟨hnodup, hallowed⟩ := of_reachable_ok hreach
  by_cases hgroup : owns scope db group = true
  · rw [if_pos hgroup] at hok
    have htouched : ∀ p name, owns scope (db.updateGroups p name now) group = true := fun _ _ =>
      owns_updateGroups.trans hgroup
    have hadded := keeps_addMembers hscope hhidden hnodup
      (fun account hmem => lookup_deleteReached (htouched _ _) (hallowed account hmem)) hallowed
      (owns_deleteReached.trans (htouched _ _)) hok
    refine Keeps.trans (Keeps.trans (keeps_of_eq rfl) (keeps_deleteMembers ?_)) hadded
    refine decide_eq_false fun hreached => ?_
    exact not_hidden_of_reached hscope ⟨hreached.1, hreached.2.2⟩ hhidden
  · rw [if_neg hgroup] at hok
    cases hok

end Within

lemma keeps_committed {result : Except DataError GroupDb}
    (h : ∀ db', result = .ok db' → Keeps k row db db') :
    Keeps k row db (committed scope db group result).2 := by
  cases result with
  | ok db' => exact h db' rfl
  | error err => exact Iff.rfl

lemma delete_cases : (owns scope db group = true ∧ delete scope group db =
      (.ok (), db.deleteGroups fun k row => k = group ∧ row.owner = scope.owner)) ∨
    ∃ err, delete scope group db = (.error err, db) := by
  unfold delete
  rcases require_ scope .edit with err | ⟨⟩
  · exact .inr ⟨err, rfl⟩
  · by_cases hgroup : owns scope db group = true
    · exact .inl ⟨hgroup, if_pos hgroup⟩
    · exact .inr ⟨_, if_neg hgroup⟩

/-- One delete leaves a member, or the group is gone and it with the group. -/
lemma stays_delete (hstep : GroupStep before db (.delete scope group, answer) db') :
    db'.members.lookup k = some row ↔ db.members.lookup k = some row ∧
      ¬ Deletes k.1 (.delete scope group, answer) := by
  have hstep : (delete scope group db).map GroupAnswer.done id = (answer, db') := hstep
  rcases @delete_cases scope db group with ⟨hgroup, heq⟩ | ⟨err, heq⟩
  · rw [heq] at hstep
    cases hstep
    dsimp only [GroupDb.deleteGroups, id]
    rw [Table.lookup_deleteWhere, Option.filter_eq_some_iff]
    refine and_congr_right fun _ => ?_
    obtain ⟨groupRow, hlookup, howner⟩ := Option.any_eq_true _ _ |>.mp hgroup
    by_cases hk : k.1 = group
    · refine iff_of_false ?_ (not_not.mpr ⟨scope, by rw [hk]⟩)
      rw [hk, hlookup, Option.any_some, decide_eq_true ⟨rfl, of_decide_eq_true howner⟩]
      exact fun h => by cases h
    · refine iff_of_true ?_ ?_
      · cases db.groups.lookup k.1 with
        | none => rfl
        | some other => simp [hk]
      · rintro ⟨scope', hdeletes⟩
        cases hdeletes
        exact hk rfl
  · rw [heq] at hstep
    cases hstep
    refine Iff.symm (and_iff_left ?_)
    rintro ⟨scope', hdeletes⟩
    cases hdeletes

/-- One call leaves a hidden member, or deletes its group. -/
lemma stays_step {e : GroupCall × GroupAnswer} (hhidden : Hidden owner limit k row)
    (hwithin : e.1.isWithin owner limit = true) (hspares : e.1.spares owner limit)
    (hstep : GroupStep before db e db') : db'.members.lookup k = some row ↔
      db.members.lookup k = some row ∧ ¬ Deletes k.1 e := by
  obtain ⟨call, answer⟩ := e
  have hkeeps (hno : ∀ scope, call ≠ .delete scope k.1) (h : Keeps k row db db') :
      db'.members.lookup k = some row ↔
        db.members.lookup k = some row ∧ ¬ Deletes k.1 (call, answer) := by
    refine Iff.trans h (and_iff_left ?_).symm
    rintro ⟨scope, hdeletes⟩
    exact hno scope (Prod.mk.inj hdeletes).1
  obtain rfl : (call.perform before db).2 = db' := congrArg Prod.snd hstep
  cases call with
  | create scope group name accounts now =>
    exact hkeeps (fun _ h => by cases h)
      (keeps_committed fun _ hok => keeps_createTx hwithin hhidden hok)
  | get scope group => exact hkeeps (fun _ h => by cases h) Iff.rfl
  | list scope pagination => exact hkeeps (fun _ h => by cases h) Iff.rfl
  | rename scope group name now =>
    refine hkeeps (fun _ h => by cases h) (keeps_committed fun db' hok => ?_)
    unfold renameTx at hok
    obtain ⟨_, -, hok⟩ := bind_eq_ok hok
    split at hok
    · cases hok
      exact keeps_of_eq rfl
    · cases hok
  | setAccounts scope group accounts now =>
    exact hkeeps (fun _ h => by cases h)
      (keeps_committed fun _ hok => keeps_setAccountsTx hwithin hhidden hok)
  | delete scope group => exact stays_delete hstep
  | connected user account =>
    refine hkeeps (fun _ h => by cases h) (keeps_of_eq ?_)
    dsimp only [GroupCall.perform, GroupDb.insertAccount?]
    split <;> rfl
  | disconnected user account =>
    refine hkeeps (fun _ h => by cases h) (keeps_deleteMembers (decide_eq_false fun h => ?_))
    exact hhidden.2 (h.2 ▸ hspares (h.1.symm.trans hhidden.1))
  | userDeleted user =>
    refine hkeeps (fun _ h => by cases h) ?_
    rw [Keeps]
    dsimp only [GroupCall.perform, GroupDb.deleteUser]
    rw [Table.lookup_deleteWhere, Option.filter_eq_some_iff,
      decide_eq_false fun h => hspares (h.symm.trans hhidden.1)]
    exact and_iff_left rfl

/-- In every run of calls by those who see none of the owner's accounts beyond the limit, a member
beyond it is there at the end as it was at the start, unless its group was deleted; and no such
member is added. -/
theorem hidden_members_kept {es : List (GroupCall × GroupAnswer)}
    (h : Run (GroupStep before) db es db')
    (hcalls : ∀ e ∈ es, e.1.isWithin owner limit = true ∧ e.1.spares owner limit)
    (hhidden : Hidden owner limit k row) : db'.members.lookup k = some row ↔
      db.members.lookup k = some row ∧ ∀ e ∈ es, ¬ Deletes k.1 e := by
  induction h with
  | nil => simp
  | @snoc es db₁ db₂ e run step ih =>
    have hbefore := fun e' he' => hcalls e' (List.mem_append_left _ he')
    obtain ⟨hwithin, hspares⟩ := hcalls e (by simp)
    rw [stays_step hhidden hwithin hspares step, ih hbefore, and_assoc]
    refine and_congr_right fun _ => ?_
    simp [or_imp, forall_and]

/-- The delegate empties the group. -/
def sampleEmptied : GroupAnswer × GroupDb :=
  (GroupCall.setAccounts sampleDelegate 1 [] 5).perform (fun _ _ => false) sampleGroups

theorem hidden_members_kept_sample :
    sampleEmptied.2.members.lookup (1, 2) = some ⟨7, 0⟩ ∧
      sampleEmptied.2.members.lookup (1, 1) = none := by
  have hrun : Run (GroupStep fun _ _ => false) sampleGroups
      [(.setAccounts sampleDelegate 1 [] 5, sampleEmptied.1)] sampleEmptied.2 := Run.single rfl
  have hcalls : ∀ e ∈ [(GroupCall.setAccounts sampleDelegate 1 [] 5, sampleEmptied.1)],
      e.1.isWithin 7 [1] = true ∧ e.1.spares 7 [1] := by
    intro e he
    obtain rfl := List.mem_singleton.mp he
    exact ⟨rfl, trivial⟩
  have hhidden : Hidden 7 [1] (1, 2) ⟨7, 0⟩ := ⟨rfl, by decide⟩
  refine ⟨(hidden_members_kept hrun hcalls hhidden).mpr ⟨rfl, fun e he => ?_⟩, rfl⟩
  obtain rfl := List.mem_singleton.mp he
  rintro ⟨scope, h⟩
  cases (Prod.mk.inj h).1

end Postit.Data
