import Postit.Accounts.Grants
import Postit.Framework.Trace

/-!
# The unique indexes over connected accounts

The table `connected_accounts` keeps its indexes through every operation (`Db.Indexed.run`), and
then all that a connect does to the accounts of an owner on a platform is told by which remote
accounts the owner has and which others have (`Holdings`): the accounts it reaches that nobody else
has become the owner's (`Db.Indexed.connectInTx`), unless that would give an owner a second account
on the platform `email`.
-/

namespace Postit.Accounts

open Postit.Data (UserId PlatformId AccountId)
open Postit.Framework

variable {κ : Type} {s t : Db κ}

/-- Whether the account is the owner's own for a remote account. -/
def Account.IsFor (a : Account) (owner : UserId) (platform : PlatformId) (remoteId : String) :
    Prop :=
  a.ownerId = owner ∧ a.platform = platform ∧ a.remoteAccountId = remoteId

instance (a : Account) (owner : UserId) (platform : PlatformId) (remoteId : String) :
    Decidable (a.IsFor owner platform remoteId) :=
  inferInstanceAs (Decidable (_ ∧ _ ∧ _))

/-- The owner has the remote account connected. -/
def Db.Connected (s : Db κ) (owner : UserId) (platform : PlatformId) (remoteId : String) : Prop :=
  ∃ k a, s.accounts.lookup k = some a ∧ a.IsFor owner platform remoteId ∧ a.status ≠ .disconnected

/-- The table's unique indexes hold, an owner has one row for a remote account, and new keys are
unused. -/
structure Db.Indexed (s : Db κ) : Prop where
  own : ∀ {j k a b}, s.accounts.lookup j = some a → s.accounts.lookup k = some b →
    a.IsFor b.ownerId b.platform b.remoteAccountId → j = k
  remoteKey : ∀ {j k a b}, s.accounts.lookup j = some a → s.accounts.lookup k = some b →
    a.status ≠ .disconnected → b.status ≠ .disconnected →
    a.platform = b.platform → a.remoteAccountId = b.remoteAccountId → j = k
  oneEmail : ∀ {j k a b}, s.accounts.lookup j = some a → s.accounts.lookup k = some b →
    a.status ≠ .disconnected → b.status ≠ .disconnected →
    a.platform = "email" → b.platform = "email" → a.ownerId = b.ownerId → j = k
  fresh : ∀ {k a}, s.accounts.lookup k = some a → k < s.nextAccount

/-! ## What an owner has on a platform -/

/-- The remote accounts of a platform, as one owner sees them: whether the owner has a row for it
and whether that is connected, and whether someone else has it connected. -/
@[ext]
structure Holdings where
  own : String → Option Bool
  taken : String → Bool

namespace Holdings

/-- The owner connects those of the accounts that nobody else has. -/
def connect (h : Holdings) (accounts : List String) : Holdings where
  own r := if r ∈ accounts ∧ h.taken r = false then some true else h.own r
  taken := h.taken

/-- The owner has at most one account connected. -/
def Single (h : Holdings) : Prop := ∀ ⦃q r⦄, h.own q = some true → h.own r = some true → q = r

variable {h : Holdings} {accounts others : List String} {r : String}

@[simp] lemma taken_connect : (h.connect accounts).taken = h.taken := rfl

lemma own_connect_eq_true :
    (h.connect accounts).own r = some true ↔
      h.own r = some true ∨ (r ∈ accounts ∧ h.taken r = false) := by
  simp only [connect]
  split_ifs with hr
  · simp [hr]
  · simp [hr]

@[simp] lemma connect_nil : h.connect [] = h := by simp [connect]

lemma connect_connect : (h.connect accounts).connect others = h.connect (accounts ++ others) := by
  refine Holdings.ext (funext fun r => ?_) rfl
  by_cases htaken : h.taken r = false
  · by_cases hmem : r ∈ accounts
    · simp [connect, htaken, hmem]
    · simp [connect, htaken, hmem]
  · simp [connect, htaken]

/-- Accounts that others have make no difference. -/
lemma connect_append_of_taken (htaken : ∀ r ∈ others, h.taken r = true) (rest : List String) :
    h.connect (accounts ++ others ++ rest) = h.connect (accounts ++ rest) := by
  refine Holdings.ext (funext fun r => ?_) rfl
  by_cases hmem : r ∈ others
  · simp [connect, htaken r hmem]
  · simp [connect, hmem]

lemma Single.of_connect (hsingle : (h.connect (accounts ++ others)).Single) :
    (h.connect accounts).Single := by
  intro q r hq hr
  rw [own_connect_eq_true] at hq hr
  refine hsingle (own_connect_eq_true.2 (hq.imp_right ?_))
    (own_connect_eq_true.2 (hr.imp_right ?_))
  · exact fun hq => ⟨List.mem_append_left _ hq.1, hq.2⟩
  · exact fun hr => ⟨List.mem_append_left _ hr.1, hr.2⟩

end Holdings

/-- What an owner has on a platform. -/
def Db.holdings (s : Db κ) (owner : UserId) (platform : PlatformId) : Holdings where
  own r := (s.accounts.find? fun _ a =>
    a.ownerId = owner ∧ a.platform = platform ∧ a.remoteAccountId = r).map
      fun e => decide (e.2.status ≠ .disconnected)
  taken r := s.accounts.exists? fun _ a =>
    a.ownerId ≠ owner ∧ a.platform = platform ∧ a.remoteAccountId = r ∧ a.status ≠ .disconnected

section Holdings

variable {owner : UserId} {platform : PlatformId} {r : String}

lemma own_eq_some (h : s.Indexed) {b : Bool} :
    (s.holdings owner platform).own r = some b ↔
      ∃ k a, s.accounts.lookup k = some a ∧ a.IsFor owner platform r ∧
        decide (a.status ≠ .disconnected) = b := by
  constructor
  · intro hown
    obtain ⟨⟨k, a⟩, hfind, hb⟩ := Option.map_eq_some_iff.mp hown
    obtain ⟨hk, ha⟩ := Table.of_find?_eq_some hfind
    exact ⟨k, a, hk, of_decide_eq_true ha, hb⟩
  · rintro ⟨k, a, hk, ha, hb⟩
    cases hfind : s.accounts.find? fun _ a =>
        a.ownerId = owner ∧ a.platform = platform ∧ a.remoteAccountId = r with
    | none => exact absurd ha (of_decide_eq_false (Table.find?_eq_none.mp hfind k a hk))
    | some found =>
      obtain ⟨j, c⟩ := found
      obtain ⟨hj, hc⟩ := Table.of_find?_eq_some hfind
      obtain ⟨rfl, rfl, rfl⟩ := ha
      obtain rfl : j = k := h.own hj hk (of_decide_eq_true hc)
      obtain rfl : c = a := Option.some.inj (hj.symm.trans hk)
      simp only [Db.holdings, hfind, Option.map_some, hb]

lemma own_eq_none :
    (s.holdings owner platform).own r = none ↔
      ∀ k a, s.accounts.lookup k = some a → ¬ a.IsFor owner platform r := by
  simp only [Db.holdings, Option.map_eq_none_iff, Table.find?_eq_none, decide_eq_false_iff_not,
    Account.IsFor]

/-- The owner's connected accounts. -/
lemma own_eq_true (h : s.Indexed) :
    (s.holdings owner platform).own r = some true ↔ s.Connected owner platform r := by
  simp only [own_eq_some h, decide_eq_true_eq, Db.Connected]

/-- What others have connected. -/
lemma taken_eq_true :
    (s.holdings owner platform).taken r = true ↔
      ∃ other, other ≠ owner ∧ s.Connected other platform r := by
  simp only [Db.holdings, Table.exists?_eq_true, decide_eq_true_eq, Db.Connected, Account.IsFor]
  constructor
  · rintro ⟨k, a, hk, howner, hplatform, hremote, hstatus⟩
    exact ⟨a.ownerId, howner, k, a, hk, ⟨rfl, hplatform, hremote⟩, hstatus⟩
  · rintro ⟨other, howner, k, a, hk, ⟨rfl, hplatform, hremote⟩, hstatus⟩
    exact ⟨k, a, hk, howner, hplatform, hremote, hstatus⟩

/-- Holdings are read off the accounts. -/
lemma holdings_congr (h : t.accounts = s.accounts) :
    t.holdings owner platform = s.holdings owner platform := by
  simp only [Db.holdings, h]

lemma single_of_email (h : s.Indexed) : (s.holdings owner "email").Single := by
  intro q r hq hr
  obtain ⟨j, a, hj, ⟨hao, hap, rfl⟩, ha⟩ := (own_eq_true h).mp hq
  obtain ⟨k, b, hk, ⟨hbo, hbp, rfl⟩, hb⟩ := (own_eq_true h).mp hr
  obtain rfl : j = k := h.oneEmail hj hk ha hb hap hbp (hao.trans hbo.symm)
  rw [Option.some.inj (hj.symm.trans hk)]

end Holdings

/-! ## Statements -/

/-- The accounts change in place: they stay with their owner and remote account, and no
disconnected one comes back. -/
lemma Db.Indexed.updateAccounts (h : s.Indexed) {p : AccountId → Account → Bool}
    {f : Account → Account}
    (hsame : ∀ a, (f a).IsFor a.ownerId a.platform a.remoteAccountId)
    (hkeeps : ∀ k a, p k a = true → (f a).status ≠ .disconnected → a.status ≠ .disconnected) :
    (s.updateAccounts p f).Indexed := by
  have hrow : ∀ {k a'}, (s.updateAccounts p f).accounts.lookup k = some a' →
      ∃ a, s.accounts.lookup k = some a ∧ a'.IsFor a.ownerId a.platform a.remoteAccountId ∧
        (a'.status ≠ .disconnected → a.status ≠ .disconnected) := by
    intro k a' hk
    obtain ⟨a, ha, rfl⟩ := Option.map_eq_some_iff.mp ((Table.lookup_updateWhere ..).symm.trans hk)
    refine ⟨a, ha, ?_⟩
    split_ifs with hp
    · exact ⟨hsame a, hkeeps k a hp⟩
    · exact ⟨⟨rfl, rfl, rfl⟩, fun hstatus => hstatus⟩
  refine ⟨fun hj hk hab => ?_, fun hj hk ha hb hplatform hremote => ?_,
    fun hj hk ha hb hap hbp howner => ?_, fun hk => ?_⟩
  · obtain ⟨a, hj, ⟨hao, hap, har⟩, -⟩ := hrow hj
    obtain ⟨b, hk, ⟨hbo, hbp, hbr⟩, -⟩ := hrow hk
    refine h.own hj hk ?_
    rwa [Account.IsFor, hao, hap, har, hbo, hbp, hbr] at hab
  · obtain ⟨a, hj, ⟨-, hap, har⟩, hac⟩ := hrow hj
    obtain ⟨b, hk, ⟨-, hbp, hbr⟩, hbc⟩ := hrow hk
    rw [hap, hbp] at hplatform
    rw [har, hbr] at hremote
    exact h.remoteKey hj hk (hac ha) (hbc hb) hplatform hremote
  · obtain ⟨a, hj, ⟨hao, hap', -⟩, hac⟩ := hrow hj
    obtain ⟨b, hk, ⟨hbo, hbp', -⟩, hbc⟩ := hrow hk
    rw [hao, hbo] at howner
    exact h.oneEmail hj hk (hac ha) (hbc hb) (hap'.symm.trans hap) (hbp'.symm.trans hbp) howner
  · obtain ⟨a, hk, -, -⟩ := hrow hk
    exact h.fresh hk

/-- The rows are the same. -/
lemma Db.Indexed.congr (h : s.Indexed) (haccounts : t.accounts = s.accounts)
    (hnext : s.nextAccount ≤ t.nextAccount) : t.Indexed := by
  have hlookup : ∀ k, t.accounts.lookup k = s.accounts.lookup k := fun k => by rw [haccounts]
  refine ⟨fun hj hk => ?_, fun hj hk => ?_, fun hj hk => ?_, fun hk => ?_⟩
  · exact h.own ((hlookup _).symm.trans hj) ((hlookup _).symm.trans hk)
  · exact h.remoteKey ((hlookup _).symm.trans hj) ((hlookup _).symm.trans hk)
  · exact h.oneEmail ((hlookup _).symm.trans hj) ((hlookup _).symm.trans hk)
  · exact (h.fresh ((hlookup _).symm.trans hk)).trans_le hnext

lemma Db.Indexed.updateGrants (h : s.Indexed) {p : GrantId → Grant κ → Bool}
    {f : Grant κ → Grant κ} : (s.updateGrants p f).Indexed :=
  h.congr rfl le_rfl

lemma accounts_deleteIfUnused (owner : UserId) (id : GrantId) :
    (GrantRepo.deleteIfUnused s owner id).accounts = s.accounts ∧
      (GrantRepo.deleteIfUnused s owner id).nextAccount = s.nextAccount := by
  unfold GrantRepo.deleteIfUnused
  split
  · exact ⟨rfl, rfl⟩
  · split_ifs
    · exact ⟨rfl, rfl⟩
    · exact ⟨rfl, rfl⟩

lemma accounts_deleteAll (owner : UserId) (grants : List GrantId) :
    (grants.foldl (GrantRepo.deleteIfUnused · owner) s).accounts = s.accounts ∧
      (grants.foldl (GrantRepo.deleteIfUnused · owner) s).nextAccount = s.nextAccount := by
  induction grants generalizing s with
  | nil => exact ⟨rfl, rfl⟩
  | cons id grants ih =>
    obtain ⟨haccounts, hnext⟩ := accounts_deleteIfUnused (s := s) owner id
    obtain ⟨hrest, hrestNext⟩ := ih (s := GrantRepo.deleteIfUnused s owner id)
    exact ⟨hrest.trans haccounts, hrestNext.trans hnext⟩

/-! ## Connecting -/

section Connecting

variable {owner : UserId} {platform : PlatformId} {r : String} {key : AccountId} {row : Account}

/-- The key is the place of the owner's own row for the remote account. -/
def Db.Place (s : Db κ) (owner : UserId) (platform : PlatformId) (r : String) (key : AccountId) :
    Prop :=
  key < s.nextAccount ∧ ∀ {k a}, s.accounts.lookup k = some a →
    (k = key ↔ a.IsFor owner platform r)

/-- What the unique indexes say of a connected row in its place. -/
lemma refused_cases (h : s.Indexed) (hplace : s.Place owner platform r key)
    (hrow : row.IsFor owner platform r) :
    (AccountRepo.refused s key row = some .accountConnectedElsewhere ∧
        (s.holdings owner platform).taken r = true) ∨
      (AccountRepo.refused s key row = some .sendingMethodExists ∧ platform = "email" ∧
        (s.holdings owner platform).taken r = false ∧
        ∃ q, q ≠ r ∧ (s.holdings owner platform).own q = some true) ∨
      (AccountRepo.refused s key row = none ∧ (s.holdings owner platform).taken r = false ∧
        (platform = "email" → ∀ q, (s.holdings owner platform).own q = some true → q = r)) := by
  obtain ⟨rfl, rfl, rfl⟩ := hrow
  have htaken : (s.accounts.exists? fun k a => k ≠ key ∧ a.status ≠ .disconnected ∧
      decide (a.platform = row.platform ∧ a.remoteAccountId = row.remoteAccountId)) = true ↔
      (s.holdings row.ownerId row.platform).taken row.remoteAccountId = true := by
    simp only [Db.holdings, Table.exists?_eq_true, decide_eq_true_eq]
    refine exists_congr fun k => exists_congr fun a => and_congr_right fun hk => ?_
    rw [ne_eq, hplace.2 hk, Account.IsFor]
    tauto
  have hemail : (s.accounts.exists? fun k a => k ≠ key ∧ a.status ≠ .disconnected ∧
      decide (a.platform = "email" ∧ a.ownerId = row.ownerId)) = true ↔
      ∃ q, s.Connected row.ownerId "email" q ∧ ¬ (row.platform = "email" ∧
        q = row.remoteAccountId) := by
    simp only [Table.exists?_eq_true, decide_eq_true_eq, Db.Connected]
    constructor
    · rintro ⟨k, a, hk, hne, hstatus, hplatform, howner⟩
      refine ⟨_, ⟨k, a, hk, ⟨howner, hplatform, rfl⟩, hstatus⟩, ?_⟩
      rw [ne_eq, hplace.2 hk] at hne
      exact fun hsame => hne ⟨howner, hplatform.trans hsame.1.symm, hsame.2⟩
    · rintro ⟨q, ⟨k, a, hk, ⟨howner, hplatform, rfl⟩, hstatus⟩, hq⟩
      refine ⟨k, a, hk, ?_, hstatus, hplatform, howner⟩
      rw [ne_eq, hplace.2 hk]
      exact fun hsame => hq ⟨hsame.2.1.symm.trans hplatform, hsame.2.2⟩
  unfold AccountRepo.refused
  simp only
  by_cases ht : (s.holdings row.ownerId row.platform).taken row.remoteAccountId = true
  · rw [if_pos (htaken.mpr ht)]
    exact .inl ⟨rfl, ht⟩
  · rw [if_neg (mt htaken.mp ht)]
    rw [Bool.not_eq_true] at ht
    by_cases hp : row.platform = "email"
    · rw [hp] at ht ⊢
      by_cases hq : ∃ q, s.Connected row.ownerId "email" q ∧
          ¬ (row.platform = "email" ∧ q = row.remoteAccountId)
      · rw [if_pos ⟨rfl, hemail.mpr hq⟩]
        obtain ⟨q, hconnected, hne⟩ := hq
        exact .inr (.inl ⟨rfl, rfl, ht, q, fun h => hne ⟨hp, h⟩, (own_eq_true h).mpr hconnected⟩)
      · rw [if_neg fun hboth => hq (hemail.mp hboth.2)]
        refine .inr (.inr ⟨rfl, ht, fun _ q hown => ?_⟩)
        by_contra hne
        exact hq ⟨q, (own_eq_true h).mp hown, fun hboth => hne hboth.2⟩
    · rw [if_neg fun hboth => hp hboth.1]
      exact .inr (.inr ⟨rfl, ht, fun h => absurd h hp⟩)

/-- A connected row is stored in its place. -/
lemma indexed_insert (h : s.Indexed) (hplace : s.Place owner platform r key)
    (hrow : row.IsFor owner platform r)
    (htaken : (s.holdings owner platform).taken r = false)
    (hsingle : platform = "email" → ∀ q, (s.holdings owner platform).own q = some true → q = r) :
    ({ s with accounts := s.accounts.insert key row } : Db κ).Indexed := by
  have hrows : ∀ {k a}, (s.accounts.insert key row).lookup k = some a →
      (k = key ∧ a = row) ∨ (k ≠ key ∧ s.accounts.lookup k = some a) := by
    intro k a hk
    by_cases hkey : k = key
    · subst hkey
      rw [AList.lookup_insert] at hk
      exact .inl ⟨rfl, (Option.some.inj hk).symm⟩
    · rw [AList.lookup_insert_ne hkey] at hk
      exact .inr ⟨hkey, hk⟩
  obtain ⟨rfl, rfl, rfl⟩ := hrow
  -- another connected row is neither for the same remote account nor, on email, of the owner
  have hremote : ∀ {k a}, k ≠ key → s.accounts.lookup k = some a → a.status ≠ .disconnected →
      ¬ (a.platform = row.platform ∧ a.remoteAccountId = row.remoteAccountId) := by
    rintro k a hne hk hstatus ⟨hplatform, hr⟩
    have hother : a.ownerId ≠ row.ownerId := fun howner =>
      hne ((hplace.2 hk).mpr ⟨howner, hplatform, hr⟩)
    have : (s.holdings row.ownerId row.platform).taken row.remoteAccountId = true :=
      taken_eq_true.2 ⟨_, hother, k, a, hk, ⟨rfl, hplatform, hr⟩, hstatus⟩
    rw [htaken] at this
    cases this
  have hemail : ∀ {k a}, k ≠ key → s.accounts.lookup k = some a → a.status ≠ .disconnected →
      a.platform = "email" → row.platform = "email" → a.ownerId ≠ row.ownerId := by
    intro k a hne hk hstatus hap hp howner
    have hq := hsingle hp _
      ((own_eq_true h).mpr ⟨k, a, hk, ⟨howner, hap.trans hp.symm, rfl⟩, hstatus⟩)
    exact hne ((hplace.2 hk).mpr ⟨howner, hap.trans hp.symm, hq⟩)
  refine ⟨fun hj hk hab => ?_, fun hj hk ha hb hplatform hr => ?_,
    fun hj hk ha hb hap hbp howner => ?_, fun hk => ?_⟩
  · rcases hrows hj with ⟨rfl, rfl⟩ | ⟨hne, hj'⟩ <;>
      rcases hrows hk with ⟨rfl, rfl⟩ | ⟨hne', hk'⟩
    · rfl
    · obtain ⟨ho, hp, hr⟩ := hab
      exact absurd ((hplace.2 hk').mpr ⟨ho.symm, hp.symm, hr.symm⟩) hne'
    · exact absurd ((hplace.2 hj').mpr hab) hne
    · exact h.own hj' hk' hab
  · rcases hrows hj with ⟨rfl, rfl⟩ | ⟨hne, hj'⟩ <;>
      rcases hrows hk with ⟨rfl, rfl⟩ | ⟨hne', hk'⟩
    · rfl
    · exact absurd ⟨hplatform.symm, hr.symm⟩ (hremote hne' hk' hb)
    · exact absurd ⟨hplatform, hr⟩ (hremote hne hj' ha)
    · exact h.remoteKey hj' hk' ha hb hplatform hr
  · rcases hrows hj with ⟨rfl, rfl⟩ | ⟨hne, hj'⟩ <;>
      rcases hrows hk with ⟨rfl, rfl⟩ | ⟨hne', hk'⟩
    · rfl
    · exact absurd howner.symm (hemail hne' hk' hb hbp hap)
    · exact absurd howner (hemail hne hj' ha hap hbp)
    · exact h.oneEmail hj' hk' ha hb hap hbp howner
  · rcases hrows hk with ⟨rfl, -⟩ | ⟨-, hk⟩
    · exact hplace.1
    · exact h.fresh hk

lemma holdings_insert (h : s.Indexed) (hplace : s.Place owner platform r key)
    (hrow : row.IsFor owner platform r) (hactive : row.status = .active)
    (htaken : (s.holdings owner platform).taken r = false)
    (hindexed : ({ s with accounts := s.accounts.insert key row } : Db κ).Indexed) :
    ({ s with accounts := s.accounts.insert key row } : Db κ).holdings owner platform =
      (s.holdings owner platform).connect [r] := by
  have hlookup : ∀ {k}, k ≠ key → (s.accounts.insert key row).lookup k = s.accounts.lookup k :=
    fun hne => AList.lookup_insert_ne hne
  obtain ⟨rfl, rfl, rfl⟩ := hrow
  refine Holdings.ext (funext fun q => Option.ext fun b => ?_) (funext fun q => ?_)
  · by_cases hq : q = row.remoteAccountId
    · subst hq
      have hown : (({ s with accounts := s.accounts.insert key row } : Db κ).holdings
          row.ownerId row.platform).own row.remoteAccountId = some true :=
        (own_eq_true hindexed).mpr
          ⟨key, row, AList.lookup_insert _, ⟨rfl, rfl, rfl⟩, by simp [hactive]⟩
      simp [hown, Holdings.connect, htaken]
    · have hother : ∀ {k a}, a.IsFor row.ownerId row.platform q →
          ((s.accounts.insert key row).lookup k = some a ↔ s.accounts.lookup k = some a) := by
        intro k a ha
        by_cases hkey : k = key
        · subst hkey
          refine iff_of_false (fun hk => ?_) (fun hk => ?_)
          · rw [AList.lookup_insert] at hk
            exact hq (ha.2.2.symm.trans (Option.some.inj hk ▸ rfl))
          · exact hq (ha.2.2.symm.trans ((hplace.2 hk).mp rfl).2.2)
        · rw [hlookup hkey]
      have hconnect : ((s.holdings row.ownerId row.platform).connect [row.remoteAccountId]).own q =
          (s.holdings row.ownerId row.platform).own q := by
        simp [Holdings.connect, hq]
      rw [hconnect, own_eq_some hindexed, own_eq_some h]
      refine exists_congr fun k => exists_congr fun a => ?_
      exact ⟨fun ⟨hk, ha, hb⟩ => ⟨(hother ha).mp hk, ha, hb⟩,
        fun ⟨hk, ha, hb⟩ => ⟨(hother ha).mpr hk, ha, hb⟩⟩
  · -- only the owner's own row has changed
    rw [Holdings.taken_connect, Bool.eq_iff_iff, taken_eq_true, taken_eq_true]
    refine exists_congr fun other => and_congr_right fun hne => exists_congr fun k =>
      exists_congr fun a => and_congr_left fun hfor => ?_
    by_cases hkey : k = key
    · subst hkey
      refine iff_of_false (fun hk => ?_) (fun hk => ?_)
      · rw [AList.lookup_insert] at hk
        exact hne (hfor.1.1.symm.trans (Option.some.inj hk ▸ rfl))
      · exact hne (hfor.1.1.symm.trans ((hplace.2 hk).mp rfl).1)
    · rw [hlookup hkey]

/-- The owner's own row for the remote account is in its place. -/
lemma Db.Indexed.place (h : s.Indexed) {existing : Account}
    (hfind : (s.accounts.find? fun _ a =>
      a.ownerId = owner ∧ a.platform = platform ∧ a.remoteAccountId = r) = some (key, existing)) :
    s.Place owner platform r key ∧ existing.IsFor owner platform r := by
  obtain ⟨hkey, hfor⟩ := Table.of_find?_eq_some hfind
  obtain ⟨rfl, rfl, rfl⟩ := of_decide_eq_true hfor
  refine ⟨⟨h.fresh hkey, fun {k a} hk => ⟨?_, fun ha => h.own hk hkey ha⟩⟩, rfl, rfl, rfl⟩
  rintro rfl
  obtain rfl := Option.some.inj (hk.symm.trans hkey)
  exact ⟨rfl, rfl, rfl⟩

/-- A new key is the place of a row that does not exist yet. -/
lemma Db.Indexed.place_new (h : s.Indexed)
    (hfind : (s.accounts.find? fun _ a =>
      a.ownerId = owner ∧ a.platform = platform ∧ a.remoteAccountId = r) = none) :
    ({ s with nextAccount := s.nextAccount + 1 } : Db κ).Place owner platform r s.nextAccount := by
  refine ⟨Nat.lt_succ_self _, fun {k a} hk => iff_of_false (fun hkey => ?_) ?_⟩
  · exact (h.fresh hk).ne hkey
  · exact of_decide_eq_false (Table.find?_eq_none.mp hfind k a hk)

/-- The owner has connected those of the accounts that nobody else has, and every row written is
among the upserts. -/
structure Db.ConnectsTo (s t : Db κ) (owner : UserId) (platform : PlatformId)
    (accounts : List String) (upserts : List AccountUpsert) : Prop where
  indexed : t.Indexed
  holdings : t.holdings owner platform = (s.holdings owner platform).connect accounts
  listed : ∀ k, t.accounts.lookup k = s.accounts.lookup k ∨
    k ∈ upserts.map AccountUpsert.account

lemma Db.ConnectsTo.trans {u : Db κ} {accounts accounts' : List String}
    {upserts upserts' : List AccountUpsert} (h : s.ConnectsTo t owner platform accounts upserts)
    (h' : t.ConnectsTo u owner platform accounts' upserts') :
    s.ConnectsTo u owner platform (accounts ++ accounts') (upserts ++ upserts') := by
  refine ⟨h'.indexed, ?_, fun k => ?_⟩
  · rw [h'.holdings, h.holdings, Holdings.connect_connect]
  · rw [List.map_append, List.mem_append]
    rcases h'.listed k with hk' | hk'
    · rcases h.listed k with hk | hk
      · exact .inl (hk'.trans hk)
      · exact .inr (.inl hk)
    · exact .inr (.inr hk')

lemma store_connectsTo (h : s.Indexed) (hplace : s.Place owner platform r key)
    (hrow : row.IsFor owner platform r) (hactive : row.status = .active) {upsert : AccountUpsert}
    (hupsert : upsert.account = key) (hok : AccountRepo.store s key row = .ok t) :
    s.ConnectsTo t owner platform [r] [upsert] := by
  unfold AccountRepo.store at hok
  rcases refused_cases h hplace hrow with ⟨hr, -⟩ | ⟨hr, -⟩ | ⟨hr, htaken, hsingle⟩
  · rw [hr] at hok
    cases hok
  · rw [hr] at hok
    cases hok
  · rw [hr] at hok
    obtain rfl := Except.ok.inj hok
    have hindexed := indexed_insert h hplace hrow htaken hsingle
    refine ⟨hindexed, holdings_insert h hplace hrow hactive htaken hindexed, fun k => ?_⟩
    by_cases hk : k = key
    · exact .inr (by simp [hupsert, hk])
    · exact .inl (AList.lookup_insert_ne hk)

/-- Why a row is not stored. -/
lemma store_error (h : s.Indexed) (hplace : s.Place owner platform r key)
    (hrow : row.IsFor owner platform r) {error : DataError}
    (herror : AccountRepo.store s key row = .error error) :
    (error = .accountConnectedElsewhere ∧ (s.holdings owner platform).taken r = true) ∨
      (error = .sendingMethodExists ∧ platform = "email" ∧
        ¬ ((s.holdings owner platform).connect [r]).Single) := by
  unfold AccountRepo.store at herror
  rcases refused_cases h hplace hrow with ⟨hr, htaken⟩ | ⟨hr, hp, htaken, q, hne, hq⟩ | ⟨hr, -⟩
  · rw [hr] at herror
    exact .inl ⟨(Except.error.inj herror).symm, htaken⟩
  · rw [hr] at herror
    refine .inr ⟨(Except.error.inj herror).symm, hp, fun hsingle => hne (hsingle ?_ ?_)⟩
    · exact Holdings.own_connect_eq_true.mpr (.inl hq)
    · exact Holdings.own_connect_eq_true.mpr (.inr ⟨List.mem_singleton_self r, htaken⟩)
  · rw [hr] at herror
    cases herror

variable {grant : GrantId} {upsert : AccountUpsert} {error : DataError}

lemma insertOrReactivate_connectsTo (h : s.Indexed)
    (hok : AccountRepo.insertOrReactivate s owner grant platform r = .ok (t, upsert)) :
    s.ConnectsTo t owner platform [r] [upsert] := by
  unfold AccountRepo.insertOrReactivate at hok
  split at hok
  · next key existing hfind =>
    obtain ⟨hplace, hfor⟩ := h.place hfind
    obtain ⟨u, hstore, hok⟩ := bind_eq_ok hok
    obtain ⟨rfl, hupsert⟩ : u = t ∧ upsert.account = key := by
      split at hok
      · obtain ⟨rfl, rfl⟩ := Prod.mk.inj (Except.ok.inj hok)
        exact ⟨rfl, rfl⟩
      · obtain ⟨rfl, rfl⟩ := Prod.mk.inj (Except.ok.inj hok)
        exact ⟨rfl, rfl⟩
    have hrow : ({ existing with grantId := some grant, status := .active } : Account).IsFor
        owner platform r := hfor
    exact store_connectsTo h hplace hrow rfl hupsert hstore
  · next hfind =>
    obtain ⟨u, hstore, hok⟩ := bind_eq_ok hok
    obtain ⟨rfl, rfl⟩ := Prod.mk.inj (Except.ok.inj hok)
    have hnext : ({ s with nextAccount := s.nextAccount + 1 } : Db κ).Indexed :=
      h.congr rfl (Nat.le_succ _)
    have hupsert : (AccountUpsert.created s.nextAccount).account = s.nextAccount := rfl
    obtain ⟨hindexed, hholdings, hlisted⟩ :=
      store_connectsTo hnext (h.place_new hfind) ⟨rfl, rfl, rfl⟩ rfl hupsert hstore
    exact ⟨hindexed, hholdings, hlisted⟩

lemma insertOrReactivate_error (h : s.Indexed)
    (herror : AccountRepo.insertOrReactivate s owner grant platform r = .error error) :
    (error = .accountConnectedElsewhere ∧ (s.holdings owner platform).taken r = true) ∨
      (error = .sendingMethodExists ∧ platform = "email" ∧
        ¬ ((s.holdings owner platform).connect [r]).Single) := by
  unfold AccountRepo.insertOrReactivate at herror
  split at herror
  · next key existing hfind =>
    obtain ⟨hplace, hfor⟩ := h.place hfind
    rcases bind_eq_error herror with hstore | ⟨u, -, herror⟩
    · have hrow : ({ existing with grantId := some grant, status := .active } : Account).IsFor
          owner platform r := hfor
      exact store_error h hplace hrow hstore
    · split at herror
      · cases herror
      · cases herror
  · next hfind =>
    rcases bind_eq_error herror with hstore | ⟨u, -, herror⟩
    · have hnext : ({ s with nextAccount := s.nextAccount + 1 } : Db κ).Indexed :=
        h.congr rfl (Nat.le_succ _)
      exact store_error hnext (h.place_new hfind) ⟨rfl, rfl, rfl⟩ hstore
    · cases herror

lemma connectOne_connectsTo (h : s.Indexed) {done done' : List AccountUpsert}
    (hok : connectOne owner grant platform (s, done) r = .ok (t, done')) :
    ∃ upserts, done' = done ++ upserts ∧ s.ConnectsTo t owner platform [r] upserts := by
  unfold connectOne at hok
  split at hok
  · next hinsert =>
    obtain ⟨rfl, rfl⟩ := Prod.mk.inj (Except.ok.inj hok)
    exact ⟨_, rfl, insertOrReactivate_connectsTo h hinsert⟩
  · next hinsert =>
    obtain ⟨rfl, rfl⟩ := Prod.mk.inj (Except.ok.inj hok)
    refine ⟨[], (List.append_nil _).symm, h, ?_, fun k => .inl rfl⟩
    rcases insertOrReactivate_error h hinsert with ⟨-, htaken⟩ | ⟨hother, -⟩
    · have hall : ∀ q ∈ [r], (s.holdings owner platform).taken q = true := by simpa using htaken
      simpa using (@Holdings.connect_append_of_taken _ [] _ hall []).symm
    · cases hother
  · cases hok

lemma connectOne_error (h : s.Indexed) {done : List AccountUpsert}
    (herror : connectOne owner grant platform (s, done) r = .error error) :
    error = .sendingMethodExists ∧ platform = "email" ∧
      ¬ ((s.holdings owner platform).connect [r]).Single := by
  unfold connectOne at herror
  split at herror
  · cases herror
  · cases herror
  · next e hother hinsert =>
    obtain rfl := Except.error.inj herror
    rcases insertOrReactivate_error h hinsert with ⟨helsewhere, -⟩ | hrefused
    · exact absurd helsewhere hother
    · exact hrefused

lemma connectAll_connectsTo (h : s.Indexed) {accounts : List String}
    {done done' : List AccountUpsert}
    (hok : accounts.foldlM (connectOne owner grant platform) (s, done) = .ok (t, done')) :
    ∃ upserts, done' = done ++ upserts ∧ s.ConnectsTo t owner platform accounts upserts := by
  induction accounts generalizing s done with
  | nil =>
    obtain ⟨rfl, rfl⟩ := Prod.mk.inj (Except.ok.inj hok)
    exact ⟨[], (List.append_nil _).symm, h, Holdings.connect_nil.symm, fun k => .inl rfl⟩
  | cons r accounts ih =>
    rw [List.foldlM_cons] at hok
    obtain ⟨⟨u, mid⟩, hone, hrest⟩ := bind_eq_ok hok
    obtain ⟨first, rfl, hfirst⟩ := connectOne_connectsTo h hone
    obtain ⟨rest, rfl, hall⟩ := ih hfirst.indexed hrest
    exact ⟨first ++ rest, List.append_assoc .., hfirst.trans hall⟩

lemma connectAll_error (h : s.Indexed) {accounts : List String} {done : List AccountUpsert}
    (herror : accounts.foldlM (connectOne owner grant platform) (s, done) = .error error) :
    error = .sendingMethodExists ∧ platform = "email" ∧
      ¬ ((s.holdings owner platform).connect accounts).Single := by
  induction accounts generalizing s done with
  | nil => cases herror
  | cons r accounts ih =>
    rw [List.foldlM_cons] at herror
    rcases bind_eq_error herror with hone | ⟨⟨u, mid⟩, hone, hrest⟩
    · obtain ⟨he, hp, hsingle⟩ := connectOne_error h hone
      exact ⟨he, hp, fun hall => hsingle (@Holdings.Single.of_connect _ [r] _ hall)⟩
    · obtain ⟨first, rfl, hfirst⟩ := connectOne_connectsTo h hone
      obtain ⟨he, hp, hsingle⟩ := ih hfirst.indexed hrest
      rw [hfirst.holdings, Holdings.connect_connect] at hsingle
      exact ⟨he, hp, hsingle⟩

variable {input : ConnectInput κ}

lemma connectInTx_connectsTo (h : s.Indexed) {upserts : List AccountUpsert}
    (hok : connectInTx s owner input = .ok (t, upserts)) :
    s.ConnectsTo t owner input.platform input.accounts upserts := by
  obtain ⟨⟨u, done⟩, hall, hok⟩ := bind_eq_ok hok
  have hgrant : (GrantRepo.insert s (input.newGrant owner)).1.Indexed := h.congr rfl le_rfl
  obtain ⟨upserts', hdone, hindexed, hholdings, hlisted⟩ := connectAll_connectsTo hgrant hall
  obtain rfl : done = upserts' := by simpa using hdone
  obtain ⟨rfl, rfl⟩ := Prod.mk.inj (Except.ok.inj hok)
  -- deleting grants leaves the accounts alone
  obtain ⟨hdeleted, hnext⟩ := accounts_deleteAll (s := u) owner
    (done.filterMap AccountUpsert.previousGrant).dedup
  have hsame : ∀ v : Db κ, v.accounts = u.accounts → v.nextAccount = u.nextAccount →
      s.ConnectsTo v owner input.platform input.accounts done := by
    intro v haccounts hnext
    refine ⟨hindexed.congr haccounts hnext.ge, ?_, fun k => ?_⟩
    · rw [holdings_congr haccounts, hholdings]
      rfl
    · rw [haccounts]
      exact hlisted k
  split_ifs
  · obtain ⟨hlast, hlastNext⟩ :=
      accounts_deleteIfUnused owner (GrantRepo.insert s (input.newGrant owner)).2
    exact hsame _ (hlast.trans hdeleted) (hlastNext.trans hnext)
  · exact hsame _ hdeleted hnext

lemma connectInTx_error (h : s.Indexed) (herror : connectInTx s owner input = .error error) :
    error = .sendingMethodExists ∧ input.platform = "email" ∧
      ¬ ((s.holdings owner input.platform).connect input.accounts).Single := by
  have hgrant : (GrantRepo.insert s (input.newGrant owner)).1.Indexed := h.congr rfl le_rfl
  rcases bind_eq_error herror with hall | ⟨⟨u, done⟩, -, herror⟩
  · exact connectAll_error hgrant hall
  · cases herror

/-- A connect succeeds unless it would give an owner a second account on `email`. -/
lemma connectInTx_ok_single (h : s.Indexed) {upserts : List AccountUpsert}
    (hok : connectInTx s owner input = .ok (t, upserts)) (hemail : input.platform = "email") :
    ((s.holdings owner input.platform).connect input.accounts).Single := by
  have hconnects := connectInTx_connectsTo h hok
  rw [← hconnects.holdings, hemail]
  exact single_of_email hconnects.indexed

end Connecting

/-! ## Runs -/

lemma Db.Indexed.step {a : Action κ} (h : s.Indexed) (hstep : s.Step a t) : t.Indexed := by
  cases a with
  | connect owner input =>
    obtain ⟨⟨u, upserts⟩, hok, rfl⟩ := map_eq_ok hstep
    exact (connectInTx_connectsTo h hok).indexed
  | refreshed grant credential expiresAt =>
    simp only [Db.Step, Db.perform, GrantRepo.storeTokens] at hstep
    split at hstep
    · cases hstep
    · split_ifs at hstep
      exact Except.ok.inj hstep ▸ h.updateGrants
  | refused grant =>
    obtain rfl := Except.ok.inj hstep
    unfold GrantRepo.markNeedsReconnect
    split
    · exact h
    · split_ifs
      · refine h.updateGrants.updateAccounts ?_ ?_
        · exact fun a => ⟨rfl, rfl, rfl⟩
        · exact fun k a hp _ => (of_decide_eq_true hp).2.1
      · exact h
  | markNeedsReconnect owner grant =>
    obtain ⟨⟨u, previous⟩, hset, hok⟩ := bind_eq_ok hstep
    obtain rfl := Except.ok.inj hok
    unfold GrantRepo.setStatus at hset
    split at hset
    · cases hset
    · split_ifs at hset
      obtain ⟨rfl, -⟩ := Prod.mk.inj (Except.ok.inj hset)
      refine h.updateGrants.updateAccounts ?_ ?_
      · exact fun a => ⟨rfl, rfl, rfl⟩
      · exact fun k a hp _ => (of_decide_eq_true hp).2.2
  | markAccountNeedsReconnect owner account =>
    obtain rfl := Except.ok.inj hstep
    refine h.updateAccounts ?_ fun k a hp _ => ?_
    · exact fun a => ⟨rfl, rfl, rfl⟩
    · simp [(of_decide_eq_true hp).2.2]
  | markActive owner account =>
    obtain rfl := Except.ok.inj hstep
    refine h.updateAccounts ?_ fun k a hp _ => ?_
    · exact fun a => ⟨rfl, rfl, rfl⟩
    · simp [(of_decide_eq_true hp).2.2.1]
  | deauthorize platform remoteUserId =>
    obtain rfl := Except.ok.inj hstep
    refine h.updateGrants.updateAccounts ?_ ?_
    · exact fun a => ⟨rfl, rfl, rfl⟩
    · exact fun k a hp _ => (of_decide_eq_true hp).2.1
  | setRevoked grant =>
    obtain rfl := Except.ok.inj hstep
    refine h.updateGrants.updateAccounts ?_ ?_
    · exact fun a => ⟨rfl, rfl, rfl⟩
    · exact fun k a hp _ => (of_decide_eq_true hp).2.1
  | disconnect owner account =>
    simp only [Db.Step, Db.perform, AccountRepo.disconnect] at hstep
    split at hstep
    · cases hstep
    · split_ifs at hstep
      obtain rfl := Except.ok.inj hstep
      refine h.updateAccounts ?_ fun k a hp hconnected => ?_
      · exact fun a => ⟨rfl, rfl, rfl⟩
      · exact absurd rfl hconnected
  | deleteUnused owner grant =>
    obtain rfl := Except.ok.inj hstep
    obtain ⟨haccounts, hnext⟩ := accounts_deleteIfUnused (s := s) owner grant
    exact h.congr haccounts hnext.ge

lemma indexed_init : ({} : Db κ).Indexed := by
  constructor <;> intros <;> contradiction

/-- Every database the operations reach keeps the indexes. -/
lemma indexed_of_run {es : List (Action κ)} (h : Run Db.Step {} es s) : s.Indexed :=
  h.invariant (I := Db.Indexed) (fun hstep hs => hs.step hstep) indexed_init

end Postit.Accounts
