import Postit.Framework.Results
import Postit.Framework.Trace
import Postit.Vault.Reseal

/-!
# Key rotation

A stored value stays what the application last wrote, through every re-wrap, whichever key rings
hold its key.  The invariant is that the stored envelope is an honest one (`Holds`): its data key
is encrypted under the key of the version it names, and its value under its data key, both for the
place it is stored in.
-/

namespace Postit.Sealing

open Postit.Framework

/-- The ring's keys are those of their versions. -/
def Vault.Agrees (vault : Vault) (keyOf : UInt32 → Key) : Prop :=
  ∀ version kek, vault.keks.1.lookup version = some kek → kek = keyOf version

/-- A vault built from material agrees with the keys derived from it. -/
lemma Vault.agrees_fromKeys {deriveKek : UInt32 → Bytes → Key} {keyOf : UInt32 → Key}
    {keys : List (UInt32 × Bytes)} {vault : Vault} (h : Vault.fromKeys deriveKek keys = .ok vault)
    (hkeys : ∀ entry ∈ keys, deriveKek entry.1 entry.2 = keyOf entry.1) : vault.Agrees keyOf := by
  have hfold : ∀ (keys : List (UInt32 × Bytes)) (start keks : Keks),
      (∀ entry ∈ keys, deriveKek entry.1 entry.2 = keyOf entry.1) →
      (∀ version kek, start.1.lookup version = some kek → kek = keyOf version) →
      keys.foldlM (addKey deriveKek) start = .ok keks →
      ∀ version kek, keks.1.lookup version = some kek → kek = keyOf version := by
    intro keys
    induction keys with
    | nil =>
      intro start keks _ hstart hfold
      rw [List.foldlM_nil] at hfold
      cases hfold
      exact hstart
    | cons entry keys ih =>
      intro start keks hkeys hstart hfold
      rw [List.foldlM_cons] at hfold
      obtain ⟨next, hnext, hfold⟩ := bind_eq_ok hfold
      refine ih next keks (fun e he => hkeys e (List.mem_cons_of_mem _ he)) ?_ hfold
      intro version kek hkek
      unfold addKey at hnext
      split at hnext
      · cases hnext
      split at hnext
      · cases hnext
      split at hnext
      · cases hnext
      cases hnext
      by_cases hversion : version = entry.1
      · subst hversion
        rw [AList.lookup_insert, Option.some.injEq] at hkek
        rw [← hkek]
        exact hkeys entry List.mem_cons_self
      · rw [AList.lookup_insert_ne hversion] at hkek
        exact hstart version kek hkek
  unfold Vault.fromKeys at h
  split at h
  · cases h
  next keks hkeks =>
  split at h
  · cases h
  · cases h
    exact hfold keys _ _ hkeys (fun version kek hkek => by simp at hkek) hkeks

/-- The ciphertext decrypts under no other key, nonce or associated data than it was made with. -/
def Cipher.Authenticates (c : Cipher) (sealed : Bytes) : Prop :=
  ∀ key nonce msg aad, c.encrypt key nonce msg aad = some sealed →
    ∀ key' nonce' aad', (key', nonce', aad') ≠ (key, nonce, aad) →
      c.decrypt key' nonce' sealed aad' = none

/-! ## Honest envelopes -/

section Holds

variable {α : Type} {c : Cipher} {codec : Codec α} {keyOf : UInt32 → Key} {vault : Vault}
  {s s' : Sealed} {ctx : SealContext} {value : α}

/-- The envelope seals the value for the place. -/
structure Holds (c : Cipher) (codec : Codec α) (keyOf : UInt32 → Key) (s : Sealed)
    (ctx : SealContext) (value : α) (aad : Bytes) (dek : Key) (plaintext : Bytes) : Prop where
  place : associatedData ctx = .ok aad
  wrapped : c.encrypt (keyOf s.keyVersion).1 s.wrapNonce dek.1 aad = some s.wrappedDek
  data : c.encrypt dek.1 s.dataNonce plaintext aad = some s.ciphertext
  encoded : codec.toVec value = some plaintext

lemma Vault.kek_eq_ok {version : UInt32} {kek : Key} :
    vault.kek version = .ok kek ↔ vault.keks.1.lookup version = some kek := by
  unfold Vault.kek
  cases vault.keks.1.lookup version <;> simp

lemma Vault.Agrees.kek (hagrees : vault.Agrees keyOf) {version : UInt32}
    (hheld : version ∈ vault.keks.1) : vault.kek version = .ok (keyOf version) := by
  obtain ⟨kek, hkek⟩ := Option.isSome_iff_exists.mp (AList.lookup_isSome.mpr hheld)
  rw [Vault.kek_eq_ok, hkek, hagrees _ _ hkek]

lemma Vault.Agrees.newestKek (hagrees : vault.Agrees keyOf) :
    vault.newestKek = .ok (⟨vault.newest, vault.newest_ne_zero⟩, keyOf vault.newest) := by
  rw [Vault.newestKek, hagrees.kek vault.held]
  rfl

/-- A sealed value is held. -/
lemma holds_sealParts (hagrees : vault.Agrees keyOf) {dek : Key} {wrapNonce dataNonce : Nonce}
    (h : vault.sealParts c codec value ctx dek wrapNonce dataNonce = .ok s) :
    ∃ aad plaintext, Holds c codec keyOf s ctx value aad dek plaintext := by
  obtain ⟨plaintext, hplain, h⟩ := bind_eq_ok h
  obtain ⟨aad, haad, h⟩ := bind_eq_ok h
  obtain ⟨⟨version, kek⟩, hnewest, h⟩ := bind_eq_ok h
  obtain ⟨wrapped, hwrapped, h⟩ := bind_eq_ok h
  obtain ⟨ciphertext, hciphertext, h⟩ := bind_eq_ok h
  rw [hagrees.newestKek, Except.ok.injEq, Prod.mk.injEq] at hnewest
  obtain ⟨rfl, rfl⟩ := hnewest
  cases h
  have hencoded : codec.toVec value = some plaintext := by
    cases hvec : codec.toVec value with
    | none => simp [hvec] at hplain
    | some bytes => simpa [hvec] using hplain
  refine ⟨aad, plaintext, haad, ?_, ?_, hencoded⟩
  · simpa using encrypt_eq_ok.1 hwrapped
  · rw [Sealed.dataNonce_eq, Sealed.ciphertext_eq, Sealed.payload_fromValid,
      List.take_left' dataNonce.2, List.drop_left' dataNonce.2]
    exact encrypt_eq_ok.1 hciphertext

namespace Holds

variable {aad plaintext : Bytes} {dek : Key}

lemma unwrapDek (h : Holds c codec keyOf s ctx value aad dek plaintext)
    (hagrees : vault.Agrees keyOf) (hheld : s.keyVersion ∈ vault.keks.1) :
    vault.unwrapDek c s aad = .ok dek := by
  have hdecrypt := decrypt_eq_ok.2 (c.decrypt_encrypt h.wrapped)
  rw [Vault.unwrapDek, hagrees.kek hheld]
  show (decrypt c (keyOf s.keyVersion).1 s.wrapNonce s.wrappedDek aad >>= _) = _
  rw [hdecrypt]
  show (if hlen : dek.1.length = 32 then _ else _) = _
  rw [dif_pos dek.2]
  rfl

/-- A ring that has the key opens the value. -/
lemma open_ (h : Holds c codec keyOf s ctx value aad dek plaintext)
    (hagrees : vault.Agrees keyOf) (hheld : s.keyVersion ∈ vault.keks.1) :
    vault.open_ c codec s ctx = .ok value := by
  have hdecrypt := decrypt_eq_ok.2 (c.decrypt_encrypt h.data)
  rw [Vault.open_, h.place]
  show (vault.unwrapDek c s aad >>= _) = _
  rw [h.unwrapDek hagrees hheld]
  show (decrypt c dek.1 s.dataNonce s.ciphertext aad >>= _) = _
  rw [hdecrypt]
  show (codec.fromSlice plaintext).elim _ _ = _
  rw [codec.fromSlice_toVec h.encoded]
  rfl

/-- Re-wrapping moves the data key to the newest version and leaves the rest. -/
lemma rewrap (h : Holds c codec keyOf s ctx value aad dek plaintext)
    (hagrees : vault.Agrees keyOf) (hheld : s.keyVersion ∈ vault.keks.1) (wrapNonce : Nonce) :
    (s.keyVersion = vault.newest ∧ vault.rewrap c s ctx wrapNonce = .ok none) ∨
      (s.keyVersion ≠ vault.newest ∧ ∃ s', vault.rewrap c s ctx wrapNonce = .ok (some s') ∧
        s'.keyVersion = vault.newest ∧ s'.payload = s.payload ∧
        Holds c codec keyOf s' ctx value aad dek plaintext) := by
  rw [Vault.rewrap, hagrees.newestKek]
  by_cases hnewest : s.keyVersion = vault.newest
  · refine .inl ⟨hnewest, ?_⟩
    show (if s.keyVersion = vault.newest then _ else _) = _
    rw [if_pos hnewest]
    rfl
  refine .inr ⟨hnewest, ?_⟩
  show ∃ s', (if s.keyVersion = vault.newest then _ else _) = _ ∧ _
  rw [if_neg hnewest, h.place]
  show ∃ s', (vault.unwrapDek c s aad >>= _) = _ ∧ _
  rw [h.unwrapDek hagrees hheld]
  obtain ⟨wrapped, hwrapped⟩ := Option.isSome_iff_exists.mp
    (c.encrypt_isSome (keyOf vault.newest).1 wrapNonce.1 dek.1 aad
      (dek.2.le.trans c.dekLen_le_limit))
  have hencrypt : encrypt c (keyOf vault.newest) wrapNonce dek.1 aad =
      .ok ⟨wrapped, c.length_encrypt hwrapped⟩ := encrypt_eq_ok.2 hwrapped
  show ∃ s', (encrypt c (keyOf vault.newest) wrapNonce dek.1 aad >>= _) = _ ∧ _
  rw [hencrypt]
  refine ⟨_, rfl, ?_, ?_, h.place, ?_, ?_, h.encoded⟩
  · simp
  · simp
  · simpa using hwrapped
  · rw [Sealed.dataNonce_eq, Sealed.ciphertext_eq, Sealed.payload_fromValid,
      ← Sealed.dataNonce_eq, ← Sealed.ciphertext_eq]
    exact h.data

/-- What is re-wrapped is held as before, even by a ring that does not have its key. -/
lemma of_rewrap (h : Holds c codec keyOf s ctx value aad dek plaintext)
    (hagrees : vault.Agrees keyOf) {wrapNonce : Nonce}
    (hrewrap : vault.rewrap c s ctx wrapNonce = .ok (some s')) :
    s'.payload = s.payload ∧ Holds c codec keyOf s' ctx value aad dek plaintext := by
  have hheld : s.keyVersion ∈ vault.keks.1 := by
    obtain ⟨⟨newest, kek⟩, -, hrest⟩ := bind_eq_ok hrewrap
    dsimp only at hrest
    split at hrest
    · cases hrest
    obtain ⟨aad', -, hrest⟩ := bind_eq_ok hrest
    obtain ⟨dek', hunwrap, -⟩ := bind_eq_ok hrest
    obtain ⟨kek', hkek, -⟩ := bind_eq_ok hunwrap
    exact AList.lookup_isSome.mp (Option.isSome_iff_exists.mpr ⟨kek', Vault.kek_eq_ok.1 hkek⟩)
  rcases h.rewrap hagrees hheld wrapNonce with ⟨-, hnone⟩ | ⟨-, s'', hsome, -, hpayload, hholds⟩
  · rw [hnone] at hrewrap
    cases hrewrap
  · rw [hsome] at hrewrap
    cases hrewrap
    exact ⟨hpayload, hholds⟩

/-- In another place the value does not open. -/
lemma not_open_elsewhere (h : Holds c codec keyOf s ctx value aad dek plaintext)
    (hauthentic : c.Authenticates s.wrappedDek)
    {ctx' : SealContext} (hctx : ctx' ≠ ctx) {β : Type} (codec' : Codec β) (x : β) :
    vault.open_ c codec' s ctx' ≠ .ok x := by
  intro hopen
  obtain ⟨aad', haad', hopen⟩ := bind_eq_ok hopen
  obtain ⟨dek', hunwrap, -⟩ := bind_eq_ok hopen
  obtain ⟨kek, hkek, hunwrap⟩ := bind_eq_ok hunwrap
  obtain ⟨bytes, hbytes, -⟩ := bind_eq_ok hunwrap
  have hsome := decrypt_eq_ok.1 hbytes
  have haad : aad' ≠ aad := by
    rintro rfl
    exact hctx (associatedData_injective haad' h.place)
  rw [hauthentic _ _ _ _ h.wrapped kek.1 s.wrapNonce aad' (by simp [haad])] at hsome
  cases hsome

end Holds

/-- The same, for some data key and nonces. -/
def Keeps (c : Cipher) (codec : Codec α) (keyOf : UInt32 → Key) (s : Sealed) (ctx : SealContext)
    (value : α) : Prop :=
  ∃ aad dek plaintext, Holds c codec keyOf s ctx value aad dek plaintext

/-- The envelope is re-wrapped by a ring. -/
def RewrapStep (c : Cipher) (keyOf : UInt32 → Key) (ctx : SealContext) (s : Sealed) (vault : Vault)
    (s' : Sealed) : Prop :=
  vault.Agrees keyOf ∧ ∃ wrapNonce, vault.rewrap c s ctx wrapNonce = .ok (some s')

lemma Keeps.run (h : Keeps c codec keyOf s ctx value) {vaults : List Vault}
    (hrun : Run (RewrapStep c keyOf ctx) s vaults s') :
    s'.payload = s.payload ∧ Keeps c codec keyOf s' ctx value := by
  induction hrun with
  | nil => exact ⟨rfl, h⟩
  | snoc _ step ih =>
    obtain ⟨hpayload, aad, dek, plaintext, hholds⟩ := ih
    obtain ⟨hagrees, wrapNonce, hrewrap⟩ := step
    obtain ⟨hpayload', hholds'⟩ := hholds.of_rewrap hagrees hrewrap
    exact ⟨hpayload'.trans hpayload, aad, dek, plaintext, hholds'⟩

end Holds

/-! ## Runs -/

/-- The sealed cells, and the re-seal runs in progress. -/
structure World where
  cells : Cells := ∅
  runs : Table ℕ Reseal := ∅

/-- What is done: the application writes or clears a cell, or a re-seal run moves on. -/
inductive Event (α : Type)
  | write (cell : SealedColumn × Uuid) (value : α)
  | clear (cell : SealedColumn × Uuid)
  | reseal

/-- A run after a statement: it goes on, or it is over. -/
def World.advance (w : World) (id : ℕ) (progress : Progress) (cells : Cells) : World where
  cells := cells
  runs := match progress with
    | .running run => w.runs.insert id run
    | _ => w.runs.erase id

section Runs

variable {α : Type} (c : Cipher) (codec : SealedColumn → Codec α) (keyOf : UInt32 → Key)

/-- One step of the system.  Every ring has, of each version, the same key, but each may hold
other versions.  A run may be stopped at any point. -/
inductive Step (w : World) : Event α → World → Prop
  | write {vault : Vault} {cell : SealedColumn × Uuid} {value : α} {dek : Key}
      {wrapNonce dataNonce : Nonce} {s : Sealed} (hagrees : vault.Agrees keyOf)
      (h : vault.sealParts c (codec cell.1) value (cell.1.context cell.2) dek wrapNonce dataNonce =
        .ok s) :
      Step w (.write cell value) { w with cells := w.cells.insert cell s.bytes }
  | clear (cell : SealedColumn × Uuid) : Step w (.clear cell) { w with cells := w.cells.erase cell }
  | start {vault : Vault} {locked : Bool} {newestKeyVersion : Option ℤ}
      {columns : List SealedColumn} {batchSize : ℕ} {run : Reseal} (id : ℕ)
      (hagrees : vault.Agrees keyOf)
      (h : Reseal.start vault locked newestKeyVersion columns batchSize = .ok run) :
      Step w .reseal { w with runs := w.runs.insert id run }
  | advance {id : ℕ} {run : Reseal} {wrapNonce : Nonce} {progress : Progress} {cells : Cells}
      (hrun : w.runs.lookup id = some run)
      (h : run.step c wrapNonce w.cells = (progress, cells)) :
      Step w .reseal (w.advance id progress cells)
  | stop (id : ℕ) : Step w .reseal { w with runs := w.runs.erase id }

/-- The value the application last wrote to a cell, if it did not clear the cell since. -/
def lastWritten (es : List (Event α)) (cell : SealedColumn × Uuid) : Option α :=
  es.foldl (fun last e =>
    match e with
    | .write cell' value => if cell' = cell then some value else last
    | .clear cell' => if cell' = cell then none else last
    | .reseal => last) none

/-- Every cell keeps what was last written to it, and the runs' rings agree. -/
structure Faithful (es : List (Event α)) (w : World) : Prop where
  rings : ∀ id run, w.runs.lookup id = some run → run.vault.Agrees keyOf
  empty : ∀ cell, lastWritten es cell = none → w.cells.lookup cell = none
  kept : ∀ cell value, lastWritten es cell = some value →
    ∃ s : Sealed, w.cells.lookup cell = some s.bytes ∧
      Keeps c (codec cell.1) keyOf s (cell.1.context cell.2) value

end Runs

section Steps

variable {α : Type} {c : Cipher} {codec : SealedColumn → Codec α} {keyOf : UInt32 → Key}
  {es : List (Event α)} {w w' : World}

lemma lastWritten_snoc (es : List (Event α)) (e : Event α) (cell : SealedColumn × Uuid) :
    lastWritten (es ++ [e]) cell =
      match e with
      | .write cell' value => if cell' = cell then some value else lastWritten es cell
      | .clear cell' => if cell' = cell then none else lastWritten es cell
      | .reseal => lastWritten es cell := by
  rw [lastWritten, List.foldl_append]
  cases e <;> rfl

lemma Reseal.start_vault {vault : Vault} {locked : Bool} {newestKeyVersion : Option ℤ}
    {columns : List SealedColumn} {batchSize : ℕ} {run : Reseal}
    (h : Reseal.start vault locked newestKeyVersion columns batchSize = .ok run) :
    run.vault = vault := by
  unfold Reseal.start at h
  split at h
  · cases h
  · dsimp only at h
    split at h
    · cases h
      rfl
    · split at h <;> cases h
      rfl

/-- A value is written back only over the bytes it was re-wrapped from. -/
lemma writeRow_ok {vault : Vault} {column : SealedColumn} {id : Uuid} {old : Bytes}
    {wrapNonce : Nonce} {cells cells' : Cells} {resealed : Bool}
    (h : writeRow c vault column id old wrapNonce cells = .ok (resealed, cells')) :
    cells' = cells ∨ ∃ s s', cells.lookup (column, id) = some s.bytes ∧
      vault.rewrap c s (column.context id) wrapNonce = .ok (some s') ∧
      cells' = cells.insert (column, id) s'.bytes := by
  obtain ⟨s, hs, h⟩ := bind_eq_ok h
  obtain ⟨new, hnew, h⟩ := bind_eq_ok h
  have hbytes : s.bytes = old := by
    unfold Sealed.fromBytes at hs
    split at hs <;> cases hs
    rfl
  subst hbytes
  cases new with
  | none =>
    cases h
    exact .inl rfl
  | some s' =>
    have hswap : compareAndSwap cells (column, id) s.bytes s'.bytes = (resealed, cells') :=
      Except.ok.inj h
    unfold compareAndSwap at hswap
    split at hswap
    · next hsame =>
      cases hswap
      exact .inr ⟨s, s', hsame, hnew, rfl⟩
    · cases hswap
      exact .inl rfl

/-- One statement of a run re-wraps at most one cell, and the run keeps its ring. -/
lemma Reseal.step_cases {run : Reseal} {wrapNonce : Nonce} {cells cells' : Cells}
    {progress : Progress} (h : run.step c wrapNonce cells = (progress, cells')) :
    (∀ run', progress = .running run' → run'.vault = run.vault) ∧
      (cells' = cells ∨ ∃ column id s s', cells.lookup (column, id) = some s.bytes ∧
        run.vault.rewrap c s (column.context id) wrapNonce = .ok (some s') ∧
        cells' = cells.insert (column, id) s'.bytes) := by
  unfold Reseal.step at h
  split at h
  · cases h
    exact ⟨nofun, .inl rfl⟩
  next column columns _ =>
  split at h
  · next id old rows _ =>
    split at h
    · cases h
      exact ⟨nofun, .inl rfl⟩
    · next resealed cells'' hwrite =>
      cases h
      refine ⟨fun run' hrun' => by cases hrun'; rfl, ?_⟩
      exact (writeRow_ok hwrite).imp_right fun hswap => ⟨column, id, hswap⟩
  · split at h
    · cases h
      exact ⟨fun run' hrun' => by cases hrun'; rfl, .inl rfl⟩
    · cases h
      exact ⟨fun run' hrun' => by cases hrun'; rfl, .inl rfl⟩

/-- A cell that keeps its value does so after a re-wrap of any cell. -/
lemma Faithful.rewrapped (h : Faithful c codec keyOf es w) {vault : Vault}
    (hagrees : vault.Agrees keyOf) {column : SealedColumn} {id : Uuid} {s s' : Sealed}
    {wrapNonce : Nonce} (hlookup : w.cells.lookup (column, id) = some s.bytes)
    (hrewrap : vault.rewrap c s (column.context id) wrapNonce = .ok (some s')) :
    Faithful c codec keyOf es { w with cells := w.cells.insert (column, id) s'.bytes } := by
  refine ⟨h.rings, fun cell hnone => ?_, fun cell value hvalue => ?_⟩
  · have hempty := h.empty cell hnone
    by_cases hcell : cell = (column, id)
    · rw [hcell, hlookup] at hempty
      cases hempty
    · rwa [AList.lookup_insert_ne hcell]
  · obtain ⟨t, ht, aad, dek, plaintext, hholds⟩ := h.kept cell value hvalue
    by_cases hcell : cell = (column, id)
    · subst hcell
      have hst : t = s := by
        rw [hlookup, Option.some.injEq] at ht
        cases s
        cases t
        simp_all
      subst hst
      exact ⟨s', by simp, aad, dek, plaintext, (hholds.of_rewrap hagrees hrewrap).2⟩
    · exact ⟨t, by rwa [AList.lookup_insert_ne hcell], aad, dek, plaintext, hholds⟩

/-- One step keeps every cell. -/
lemma Step.faithful {e : Event α} (hstep : Step c codec keyOf w e w')
    (h : Faithful c codec keyOf es w) : Faithful c codec keyOf (es ++ [e]) w' := by
  cases hstep with
  | @write vault cell value dek wrapNonce dataNonce s hagrees hseal =>
    refine ⟨h.rings, fun cell' hnone => ?_, fun cell' value' hvalue => ?_⟩
    · rw [lastWritten_snoc] at hnone
      by_cases hcell : cell = cell'
      · simp [hcell] at hnone
      · rw [AList.lookup_insert_ne (Ne.symm hcell)]
        exact h.empty cell' (by simpa [hcell] using hnone)
    · rw [lastWritten_snoc] at hvalue
      by_cases hcell : cell = cell'
      · subst hcell
        obtain ⟨aad, plaintext, hholds⟩ := holds_sealParts hagrees hseal
        obtain rfl : value = value' := by simpa using hvalue
        exact ⟨s, by simp, aad, dek, plaintext, hholds⟩
      · obtain ⟨t, ht, hkeeps⟩ := h.kept cell' value' (by simpa [hcell] using hvalue)
        exact ⟨t, by rwa [AList.lookup_insert_ne (Ne.symm hcell)], hkeeps⟩
  | clear cell =>
    refine ⟨h.rings, fun cell' hnone => ?_, fun cell' value hvalue => ?_⟩
    · rw [lastWritten_snoc] at hnone
      by_cases hcell : cell = cell'
      · rw [hcell, AList.lookup_erase]
      · rw [AList.lookup_erase_ne (Ne.symm hcell)]
        exact h.empty cell' (by simpa [hcell] using hnone)
    · rw [lastWritten_snoc] at hvalue
      by_cases hcell : cell = cell'
      · simp [hcell] at hvalue
      · obtain ⟨t, ht, hkeeps⟩ := h.kept cell' value (by simpa [hcell] using hvalue)
        exact ⟨t, by rwa [AList.lookup_erase_ne (Ne.symm hcell)], hkeeps⟩
  | @start vault locked newest columns batchSize run id hagrees hstart =>
    refine ⟨fun id' run' hrun' => ?_, ?_, ?_⟩
    · by_cases hid : id' = id
      · rw [hid, AList.lookup_insert, Option.some.injEq] at hrun'
        rw [← hrun', Reseal.start_vault hstart]
        exact hagrees
      · rw [AList.lookup_insert_ne hid] at hrun'
        exact h.rings id' run' hrun'
    · simpa [lastWritten_snoc] using h.empty
    · simpa [lastWritten_snoc] using h.kept
  | @advance id run wrapNonce progress cells hrun hadvance =>
    have hagrees := h.rings id run hrun
    obtain ⟨hring, hcells⟩ := Reseal.step_cases hadvance
    have hcells' : Faithful c codec keyOf es { w with cells := cells } := by
      rcases hcells with rfl | ⟨column, row, s, s', hlookup, hrewrap, rfl⟩
      · exact h
      · exact h.rewrapped hagrees hlookup hrewrap
    refine ⟨fun id' run' hrun' => ?_, ?_, ?_⟩
    · by_cases hid : id' = id
      · subst hid
        cases progress with
        | running next =>
          simp only [World.advance, AList.lookup_insert, Option.some.injEq] at hrun'
          rw [← hrun', hring next rfl]
          exact hagrees
        | finished report => simp [World.advance] at hrun'
        | failed error => simp [World.advance] at hrun'
      · refine h.rings id' run' ?_
        cases progress <;>
          simpa [World.advance, AList.lookup_insert_ne hid, AList.lookup_erase_ne hid] using hrun'
    · simpa [lastWritten_snoc, World.advance] using hcells'.empty
    · simpa [lastWritten_snoc, World.advance] using hcells'.kept
  | stop id =>
    refine ⟨fun id' run' hrun' => ?_, ?_, ?_⟩
    · by_cases hid : id' = id
      · rw [hid, AList.lookup_erase] at hrun'
        cases hrun'
      · rw [AList.lookup_erase_ne hid] at hrun'
        exact h.rings id' run' hrun'
    · simpa [lastWritten_snoc] using h.empty
    · simpa [lastWritten_snoc] using h.kept

lemma faithful_run (hrun : Run (Step c codec keyOf) {} es w) : Faithful c codec keyOf es w := by
  induction hrun with
  | nil => exact ⟨by simp, by simp, by simp [lastWritten]⟩
  | snoc _ step ih => exact step.faithful ih

end Steps

/-- **Key rotation.**  Whatever the application wrote and cleared, and whichever re-seal runs
went over the cells in between under whichever rings, a cell holds an envelope of the value last
written to it.  A ring that has its key opens it there to that value, and so does every envelope
re-wrapped from it any number of times; re-wrapping does nothing exactly when the envelope is under
the ring's newest version, and otherwise changes neither the data nonce nor the ciphertext; and
nowhere else does the envelope open, since no two places have the same associated data. -/
theorem rotation_keeps_values {α : Type} {c : Cipher} {codec : SealedColumn → Codec α}
    {keyOf : UInt32 → Key} {es : List (Event α)} {w : World}
    (hrun : Run (Step c codec keyOf) {} es w) (column : SealedColumn) (row : Uuid) :
    (lastWritten es (column, row) = none → w.cells.lookup (column, row) = none) ∧
    (∀ value, lastWritten es (column, row) = some value →
      ∃ bytes s, w.cells.lookup (column, row) = some bytes ∧ Sealed.fromBytes bytes = .ok s ∧
        (∀ vaults s', Run (RewrapStep c keyOf (column.context row)) s vaults s' →
          s'.dataNonce = s.dataNonce ∧ s'.ciphertext = s.ciphertext ∧
          ∀ vault : Vault, vault.Agrees keyOf → s'.keyVersion ∈ vault.keks.1 →
            vault.open_ c (codec column) s' (column.context row) = .ok value ∧
            ∀ wrapNonce,
              (vault.rewrap c s' (column.context row) wrapNonce = .ok none ↔
                s'.keyVersion = vault.newest) ∧
              (s'.keyVersion ≠ vault.newest →
                ∃ new, vault.rewrap c s' (column.context row) wrapNonce = .ok (some new) ∧
                  new.keyVersion = vault.newest)) ∧
        (c.Authenticates s.wrappedDek →
          ∀ ctx, ctx ≠ column.context row → ∀ (vault : Vault) (β : Type) (codec' : Codec β) x,
            vault.open_ c codec' s ctx ≠ .ok x)) ∧
    ∀ ctx ctx' aad, associatedData ctx = .ok aad → associatedData ctx' = .ok aad → ctx = ctx' := by
  have hfaithful := faithful_run hrun
  refine ⟨hfaithful.empty (column, row), fun value hvalue => ?_,
    fun ctx ctx' aad => associatedData_injective⟩
  obtain ⟨s, hs, hkeeps⟩ := hfaithful.kept (column, row) value hvalue
  refine ⟨s.bytes, s, hs, s.fromBytes_bytes, fun vaults s' hrewraps => ?_, ?_⟩
  · obtain ⟨hpayload, aad, dek, plaintext, hholds⟩ := hkeeps.run hrewraps
    refine ⟨by rw [Sealed.dataNonce_eq, Sealed.dataNonce_eq, hpayload],
      by rw [Sealed.ciphertext_eq, Sealed.ciphertext_eq, hpayload],
      fun vault hagrees hheld => ⟨hholds.open_ hagrees hheld, fun wrapNonce => ?_⟩⟩
    rcases hholds.rewrap hagrees hheld wrapNonce with
      ⟨hnewest, hnone⟩ | ⟨hnewest, new, hsome, hversion, -⟩
    · exact ⟨by simp [hnone, hnewest], fun hne => absurd hnewest hne⟩
    · exact ⟨by simp [hsome, hnewest], fun _ => ⟨new, hsome, hversion⟩⟩
  · obtain ⟨aad, dek, plaintext, hholds⟩ := hkeeps
    exact fun hauthentic ctx hctx vault β codec' x =>
      hholds.not_open_elsewhere hauthentic hctx codec' x

/-! ### The format's test vector, rotated -/

def sampleColumn : SealedColumn := ⟨"accounts", "access_token", "id"⟩

def sampleRow : Uuid := ⟨bytesOf 16 0x01923e4f5a6b7c8d9eafb0c1d2e3f405, by decide⟩

def sampleAad : Bytes :=
  ((associatedData (sampleColumn.context sampleRow)).toOption).getD []

/-- The key-encryption keys of the test's material. -/
def sampleKey (version : UInt32) : Key :=
  if version = 1 then
    ⟨bytesOf 32 0xcaff9647fd09418d3dd0fe25725618bf34ffd6791ca416a088d8ce3db1420b5a,
      by decide⟩
  else ⟨bytesOf 32 0xedd7d90f8697b02dc805b1ea0c791b29f9b1b3d855259b337df5d1e7a22898f6,
      by decide⟩

def sampleDek : Key := ⟨List.replicate 32 0x11, by decide⟩

def sampleNonce (byte : UInt8) : Nonce := ⟨List.replicate 24 byte, by simp⟩

/-- `"vector"`, in JSON. -/
def sampleJson : Bytes := [34, 118, 101, 99, 116, 111, 114, 34]

def sampleWrapped : Bytes :=
  bytesOf 24 0xc5ce07965a1046761b03a8f4581ccbbb62bdaa4f68387140 ++
    bytesOf 24 0x991a51c4689e55a99ab4ec077d2f45c5e5fa353b9fa2bb03

def sampleRewrapped : Bytes :=
  bytesOf 24 0x26814928016f14eafa6ec875022ce5030b15d5392ff1d23c ++
    bytesOf 24 0x6ffe173e811b3840016b2e04c74e681ae8b6bff9cbe47477

def sampleCiphertext : Bytes := bytesOf 24 0x98d212ea0c04711562cf89ddf7396f87fc288b340aa6bb28

/-- What XChaCha20-Poly1305 does at the vector's inputs. -/
def sampleCalls : List ((Bytes × Bytes × Bytes) × Bytes × Bytes) :=
  [(((sampleKey 1).1, (sampleNonce 0x22).1, sampleAad), sampleDek.1, sampleWrapped),
    ((sampleDek.1, (sampleNonce 0x33).1, sampleAad), sampleJson, sampleCiphertext),
    (((sampleKey 2).1, (sampleNonce 0x44).1, sampleAad), sampleDek.1, sampleRewrapped)]

lemma of_find? {β : Type} {p : β → Prop} [DecidablePred p] {l : List β} {b : β}
    (h : l.find? (fun b => decide (p b)) = some b) : b ∈ l ∧ p b :=
  ⟨List.mem_of_find?_eq_some h, by simpa using List.find?_some h⟩

/-- A cipher that is the real one at those inputs; elsewhere the tag is sixteen zeros. -/
def sampleCipher : Cipher where
  encrypt key nonce msg aad :=
    match sampleCalls.find? fun call => call.1 = (key, nonce, aad) ∧ call.2.1 = msg with
    | some call => some call.2.2
    | none => some (msg ++ List.replicate 16 0)
  decrypt key nonce msg aad :=
    match sampleCalls.find? fun call => call.1 = (key, nonce, aad) ∧ call.2.2 = msg with
    | some call => some call.2.1
    | none =>
      if msg.drop (msg.length - 16) = List.replicate 16 0 then some (msg.take (msg.length - 16))
      else none
  limit := 32
  dekLen_le_limit := le_rfl
  encrypt_isSome key nonce msg aad _ := by
    split <;> rfl
  length_encrypt {key nonce msg aad sealed} h := by
    have hcalls : ∀ call ∈ sampleCalls, call.2.2.length = call.2.1.length + 16 := by decide
    split at h
    · next call hfind =>
      obtain ⟨hmem, -, hmsg⟩ := of_find? hfind
      cases h
      rw [hcalls call hmem, hmsg]
    · cases h
      simp
  decrypt_encrypt {key nonce msg aad sealed} h := by
    have hinj : ∀ call ∈ sampleCalls, ∀ call' ∈ sampleCalls, call.1 = call'.1 →
        call.2.2 = call'.2.2 → call.2.1 = call'.2.1 := by decide
    have htag : ∀ call ∈ sampleCalls,
        call.2.2.drop (call.2.2.length - 16) ≠ List.replicate 16 0 := by decide
    split at h
    · next call hfind =>
      obtain ⟨hmem, hkey, hmsg⟩ := of_find? hfind
      cases h
      split
      · next call' hfind' =>
        obtain ⟨hmem', hkey', hsealed⟩ := of_find? hfind'
        rw [hinj call' hmem' call hmem (hkey'.trans hkey.symm) hsealed, hmsg]
      · next hnone =>
        have := List.find?_eq_none.mp hnone call hmem
        simp [hkey] at this
    · cases h
      split
      · next call' hfind' =>
        obtain ⟨hmem', -, hsealed⟩ := of_find? hfind'
        have := htag call' hmem'
        rw [hsealed] at this
        simp at this
      · simp

/-- JSON, of the string `vector`. -/
def sampleCodec : Codec String where
  toVec value := if value = "vector" then some sampleJson else none
  fromSlice bytes := if bytes = sampleJson then some "vector" else none
  fromSlice_toVec {value bytes} h := by
    split at h
    · next hvalue =>
      cases h
      simp [hvalue]
    · cases h

/-- The test's vault with the keys of some versions. -/
def sampleVault (versions : List UInt32) : Except VaultError Vault :=
  Vault.fromKeys (fun version _ => sampleKey version)
    (versions.map fun version => (version, List.replicate 47 0))

def sampleOld : Vault := ((sampleVault [1]).toOption).get (by decide)

def sampleBoth : Vault := ((sampleVault [1, 2]).toOption).get (by decide)

/-- The test vector, as it is stored. -/
def sampleBytes : Bytes :=
  header 1 (sampleNonce 0x22).1 sampleWrapped ++ ((sampleNonce 0x33).1 ++ sampleCiphertext)

def sampleReseal : Reseal where
  vault := sampleBoth
  batchSize := 100
  columns := [sampleColumn]

/-- The cells after the vector is written. -/
def sampleCells : Cells := AList.insert (sampleColumn, sampleRow) sampleBytes ∅

/-- The cells after the run that read the batch re-sealed its only row. -/
def sampleResealed : Cells :=
  match (sampleReseal.step sampleCipher (sampleNonce 0x44) sampleCells).1 with
  | .running run => (run.step sampleCipher (sampleNonce 0x44) sampleCells).2
  | _ => ∅

lemma sampleVault_agrees {versions : List UInt32} {vault : Vault}
    (h : (sampleVault versions).toOption = some vault) : vault.Agrees sampleKey := by
  refine Vault.agrees_fromKeys (ok_of_toOption h) fun entry hentry => ?_
  obtain ⟨version, -, rfl⟩ := List.mem_map.mp hentry
  rfl

lemma sampleCipher_authenticates : sampleCipher.Authenticates sampleRewrapped := by
  have honly : ∀ call ∈ sampleCalls, call.2.2 = sampleRewrapped →
      call.1 = ((sampleKey 2).1, (sampleNonce 0x44).1, sampleAad) := by decide
  have htag : sampleRewrapped.drop (sampleRewrapped.length - 16) ≠ List.replicate 16 0 := by
    decide
  intro key nonce msg aad hencrypt key' nonce' aad' hother
  have hmade : (key, nonce, aad) = ((sampleKey 2).1, (sampleNonce 0x44).1, sampleAad) := by
    unfold sampleCipher at hencrypt
    dsimp only at hencrypt
    split at hencrypt
    · next call hfind =>
      obtain ⟨hmem, hkey, -⟩ := of_find? hfind
      rw [← hkey]
      exact honly call hmem (Option.some.inj hencrypt)
    · have hzeros := Option.some.inj hencrypt
      rw [← hzeros] at htag
      simp at htag
  unfold sampleCipher
  dsimp only
  split
  · next call hfind =>
    obtain ⟨hmem, hkey, hsealed⟩ := of_find? hfind
    exact absurd (hkey.symm.trans ((honly call hmem hsealed).trans hmade.symm)) hother
  · rw [if_neg htag]

/-- The test vector, written under the first key and re-sealed under the second. -/
theorem rotation_keeps_values_vector :
    ∃ (es : List (Event String)) (w : World) (s : Sealed),
      Run (Step sampleCipher (fun _ => sampleCodec) sampleKey) {} es w ∧
      w.cells.lookup (sampleColumn, sampleRow) = some s.bytes ∧ s.keyVersion = 2 ∧
      sampleBoth.open_ sampleCipher sampleCodec s (sampleColumn.context sampleRow) =
        .ok "vector" ∧
      ∀ ctx, ctx ≠ sampleColumn.context sampleRow → ∀ x,
        sampleBoth.open_ sampleCipher sampleCodec s ctx ≠ .ok x := by
  have hold : sampleOld.Agrees sampleKey := sampleVault_agrees (Option.some_get _).symm
  have hboth : sampleBoth.Agrees sampleKey := sampleVault_agrees (Option.some_get _).symm
  have hbytes : (sampleOld.sealParts sampleCipher sampleCodec "vector"
      (sampleColumn.context sampleRow) sampleDek (sampleNonce 0x22)
      (sampleNonce 0x33)).toOption.map Sealed.bytes = some sampleBytes := by
    decide
  have hresealed : sampleResealed.lookup (sampleColumn, sampleRow) =
      some (header 2 (sampleNonce 0x44).1 sampleRewrapped ++
        ((sampleNonce 0x33).1 ++ sampleCiphertext)) := by
    decide +kernel
  obtain ⟨run, hread⟩ : ∃ run, sampleReseal.step sampleCipher (sampleNonce 0x44) sampleCells =
      (.running run, sampleCells) := ⟨_, rfl⟩
  have hwrite : run.step sampleCipher (sampleNonce 0x44) sampleCells =
      ((run.step sampleCipher (sampleNonce 0x44) sampleCells).1, sampleResealed) := by
    rw [sampleResealed, hread]
  obtain ⟨first, hfirst, hfirstBytes⟩ := Option.map_eq_some_iff.mp hbytes
  have hseal : sampleOld.sealParts sampleCipher sampleCodec "vector"
      (sampleColumn.context sampleRow) sampleDek (sampleNonce 0x22) (sampleNonce 0x33) =
        .ok first := ok_of_toOption hfirst
  have hwritten : Step sampleCipher (fun _ => sampleCodec) sampleKey {}
      (.write (sampleColumn, sampleRow) "vector") { cells := sampleCells } := by
    have hcells : sampleCells = AList.insert (sampleColumn, sampleRow) first.bytes ∅ := by
      rw [hfirstBytes, sampleCells]
    rw [hcells]
    exact @Step.write _ _ _ _ {} sampleOld (sampleColumn, sampleRow) _ _ _ _ _ hold hseal
  have hstarted : Step sampleCipher (fun _ => sampleCodec) sampleKey { cells := sampleCells }
      .reseal { cells := sampleCells, runs := AList.insert 0 sampleReseal ∅ } :=
    .start 0 hboth (show Reseal.start sampleBoth false none [sampleColumn] 100 = _ from rfl)
  obtain ⟨w, hcells, hrun⟩ : ∃ w : World, w.cells = sampleResealed ∧
      Run (Step sampleCipher (fun _ => sampleCodec) sampleKey) {}
        [.write (sampleColumn, sampleRow) "vector", .reseal, .reseal, .reseal] w := by
    refine ⟨_, ?_, (((Run.single hwritten).snoc hstarted).snoc
      (.advance (AList.lookup_insert _) hread)).snoc (.advance (AList.lookup_insert _) hwrite)⟩
    simp only [World.advance]
  obtain ⟨-, hkept, -⟩ := rotation_keeps_values hrun sampleColumn sampleRow
  obtain ⟨bytes, s, hlookup, hs, hopens, helsewhere⟩ := hkept "vector" (by simp [lastWritten])
  rw [← hcells, hlookup, Option.some.injEq] at hresealed
  subst hresealed
  have hsbytes : s.bytes = header 2 (sampleNonce 0x44).1 sampleRewrapped ++
      ((sampleNonce 0x33).1 ++ sampleCiphertext) := by
    unfold Sealed.fromBytes at hs
    split at hs <;> cases hs
    rfl
  have hversion : s.keyVersion = 2 := by
    rw [Sealed.keyVersion, hsbytes, readVersion_header]
  have hwrapped : s.wrappedDek = sampleRewrapped := by
    rw [Sealed.wrappedDek, hsbytes, slice_wrappedDek (sampleNonce 0x44).2 (by decide)]
  refine ⟨_, _, s, hrun, hlookup.trans (congrArg some hsbytes.symm), hversion,
    ((hopens [] s .nil).2.2 sampleBoth hboth ?_).1,
    fun ctx hctx x => helsewhere (hwrapped ▸ sampleCipher_authenticates) ctx hctx sampleBoth
      String sampleCodec x⟩
  rw [hversion]
  decide

end Postit.Sealing
