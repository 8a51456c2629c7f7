import Moira.Keyring.Properties.Audit
import Moira.Keyring.Rewrap

/-!
# Rewrapping keeps every data key

- `assemble_map_rewrappedRow` — the snapshots before and after have the same keys
- **`rewrapWith_keeps_data_keys`**
-/

namespace Moira.Keyring

open Bytes

section

variable {A : Aead} {keyCheckValue : DataKey → FixedBytes 8}
  {custody target : EnvironmentMasterKeyCustody} {targetMasterKeyId : String}
  {nonce : RawUuid → FixedBytes 12}

/-! ## One row -/

/-- The wrap of a data key under the target's master key. -/
def newWrap (A : Aead) (masterKey : DataKey) (targetMasterKeyId : String)
    (nonce : RawUuid → FixedBytes 12) (id : RawUuid) (dataKey : DataKey) : WrappedKey where
  masterKeyId := targetMasterKeyId
  wrapAlgorithm := wrapAlgorithmAes256Gcm
  nonce := (nonce id).bytes
  wrapped := A.encrypt masterKey (nonce id)
    (utf8 (wrappedDataKeyAad id targetMasterKeyId wrapAlgorithmAes256Gcm)) dataKey.bytes

variable {row : KeyringRow} {masterKey : DataKey}

theorem rewrapKey_eq_ok {wrapped : WrappedKey}
    (hkey : target.keys.lookup targetMasterKeyId = some masterKey)
    (h : rewrapKey A keyCheckValue custody target targetMasterKeyId nonce row = .ok wrapped) :
    ∃ dataKey, unwrapRow A keyCheckValue custody row = .ok dataKey ∧
      wrapped = newWrap A masterKey targetMasterKeyId nonce row.id dataKey := by
  unfold rewrapKey at h
  split at h
  · cases h
  rename_i dataKey hunwrap
  refine ⟨dataKey, hunwrap, ?_⟩
  have hwrap : target.wrapUnder A targetMasterKeyId dataKey
      (utf8 (wrappedDataKeyAad row.id targetMasterKeyId wrapAlgorithmAes256Gcm)) (nonce row.id) =
      .ok (newWrap A masterKey targetMasterKeyId nonce row.id dataKey) := by
    simp only [EnvironmentMasterKeyCustody.wrapUnder, EnvironmentMasterKeyCustody.cipher, hkey]
    rfl
  simp only [EnvironmentMasterKeyCustody.wrapAlgorithm, hwrap, newWrap, ne_eq, not_true_eq_false,
    if_false] at h
  exact (Except.ok.inj h).symm

/-- What the transaction makes of a row. -/
def rewrappedRow (A : Aead) (keyCheckValue : DataKey → FixedBytes 8)
    (custody target : EnvironmentMasterKeyCustody) (masterKey : DataKey) (targetMasterKeyId : String)
    (nonce : RawUuid → FixedBytes 12) (row : KeyringRow) : KeyringRow :=
  if row.state.isUnwrappedAtLoad then
    match unwrapRow A keyCheckValue custody row with
    | .ok dataKey =>
      row.withWrap (newWrap A masterKey targetMasterKeyId nonce row.id dataKey) target.backendName
    | .error _ => row
  else row

theorem rewrappedRow_of_unwrap {dataKey : DataKey} (hload : row.state.isUnwrappedAtLoad)
    (hunwrap : unwrapRow A keyCheckValue custody row = .ok dataKey) :
    rewrappedRow A keyCheckValue custody target masterKey targetMasterKeyId nonce row =
      row.withWrap (newWrap A masterKey targetMasterKeyId nonce row.id dataKey)
        target.backendName := by
  rw [rewrappedRow, if_pos hload, hunwrap]

/-- Rows that differ in nothing but how the key is wrapped. -/
structure KeyringRow.SameColumns (a b : KeyringRow) : Prop where
  id : a.id = b.id
  keyVersion : a.keyVersion = b.keyVersion
  purpose : a.purpose = b.purpose
  state : a.state = b.state
  keyCheckValue : a.keyCheckValue = b.keyCheckValue

theorem sameColumns_rewrappedRow (masterKey : DataKey) (row : KeyringRow) :
    (rewrappedRow A keyCheckValue custody target masterKey targetMasterKeyId nonce row).SameColumns
      row := by
  rw [rewrappedRow]
  split
  · split
    · exact ⟨rfl, rfl, rfl, rfl, rfl⟩
    · exact ⟨rfl, rfl, rfl, rfl, rfl⟩
  · exact ⟨rfl, rfl, rfl, rfl, rfl⟩

/-! ## The loops -/

theorem rowsToRewrap_eq_ok {rows todo : List KeyringRow} (h : rowsToRewrap custody rows = .ok todo) :
    todo = rows.filter fun row => row.state.isUnwrappedAtLoad := by
  induction rows generalizing todo with
  | nil => exact (Except.ok.inj h).symm
  | cons row rows ih =>
    by_cases hload : row.state.isUnwrappedAtLoad
    · rw [rowsToRewrap, if_neg (not_not.mpr hload)] at h
      split at h
      · cases h
      · obtain ⟨rest, hrest, hok⟩ := Fallible.bind_eq_ok.mp h
        rw [List.filter_cons, if_pos hload, ← ih hrest]
        exact (Except.ok.inj hok).symm
    · rw [rowsToRewrap, if_pos hload] at h
      rw [List.filter_cons, if_neg hload]
      exact ih h

variable {table : KeyTable}

theorem KeyTable.eq_of_id {a b : KeyringRow} (ha : a ∈ table.rows) (hb : b ∈ table.rows)
    (h : a.id = b.id) : a = b :=
  List.inj_on_of_nodup_map table.id_unique ha hb h

theorem KeyTable.rows_setWrap (table : KeyTable) (id : RawUuid) (wrapped : WrappedKey)
    (backend : String) :
    (table.setWrap id wrapped backend).rows =
      table.rows.map (KeyringRow.setWrap id wrapped backend) :=
  rfl

variable {table' : KeyTable}

theorem rewrapRows_eq_ok (hkey : target.keys.lookup targetMasterKeyId = some masterKey)
    {start : KeyTable} {todo : List KeyringRow}
    (htodo : ∀ row ∈ todo, row ∈ start.rows ∧ row.state.isUnwrappedAtLoad) (done : List RawUuid)
    (htable : table.rows = start.rows.map fun row =>
      if row.id ∈ done then
        rewrappedRow A keyCheckValue custody target masterKey targetMasterKeyId nonce row
      else row)
    (h : rewrapRows A keyCheckValue custody target targetMasterKeyId nonce todo table = .ok table') :
    (table'.rows = start.rows.map fun row =>
      if row.id ∈ done ++ todo.map KeyringRow.id then
        rewrappedRow A keyCheckValue custody target masterKey targetMasterKeyId nonce row
      else row) ∧
    ∀ row ∈ todo, ∃ dataKey, unwrapRow A keyCheckValue custody row = .ok dataKey := by
  induction todo generalizing done table with
  | nil =>
    cases h
    simpa using htable
  | cons row todo ih =>
    obtain ⟨wrapped, hwrapped, hrest⟩ := Fallible.bind_eq_ok.mp h
    obtain ⟨dataKey, hunwrap, rfl⟩ := rewrapKey_eq_ok hkey hwrapped
    obtain ⟨hrow, hload⟩ := htodo row List.mem_cons_self
    have hnext : (table.setWrap row.id
        (newWrap A masterKey targetMasterKeyId nonce row.id dataKey) target.backendName).rows =
        start.rows.map fun other =>
          if other.id ∈ done ++ [row.id] then
            rewrappedRow A keyCheckValue custody target masterKey targetMasterKeyId nonce other
          else other := by
      rw [KeyTable.rows_setWrap, htable, List.map_map]
      apply List.map_congr_left
      intro other hother
      by_cases hid : other.id = row.id
      · -- the id is a primary key, so this is the row itself
        obtain rfl := start.eq_of_id hother hrow hid
        simp only [Function.comp_apply, List.mem_append, List.mem_singleton, or_true, if_true]
        rw [rewrappedRow_of_unwrap hload hunwrap]
        split <;> simp [KeyringRow.setWrap, KeyringRow.withWrap]
      · have hother' : (if other.id ∈ done then
            rewrappedRow A keyCheckValue custody target masterKey targetMasterKeyId nonce other
            else other).id = other.id := by
          split
          · exact (sameColumns_rewrappedRow masterKey other).id
          · rfl
        rw [Function.comp_apply, KeyringRow.setWrap, hother', if_neg hid]
        simp only [List.mem_append, List.mem_singleton, hid, or_false]
    obtain ⟨hrows, hopened⟩ := ih (fun r hr => htodo r (List.mem_cons_of_mem _ hr)) _ hnext hrest
    refine ⟨?_, ?_⟩
    · simpa [List.append_assoc] using hrows
    · intro r hr
      rcases List.mem_cons.mp hr with rfl | hr
      · exact ⟨dataKey, hunwrap⟩
      · exact hopened r hr

/-- **The table after a transaction that committed.** -/
theorem rows_of_rewrapWith {report : RewrapReport}
    (h : rewrapWith A keyCheckValue custody target targetMasterKeyId nonce table = (.ok report, table')) :
    ∃ masterKey, target.keys.lookup targetMasterKeyId = some masterKey ∧
      table'.rows = table.rows.map
        (rewrappedRow A keyCheckValue custody target masterKey targetMasterKeyId nonce) ∧
      ∀ row ∈ table.rows, row.state.isUnwrappedAtLoad →
        ∃ dataKey, unwrapRow A keyCheckValue custody row = .ok dataKey := by
  unfold rewrapWith at h
  split at h
  · cases h
  rename_i report' committed hbody
  cases h
  unfold rewrapTransaction at hbody
  split at hbody
  · cases hbody
  rename_i hheld
  obtain ⟨masterKey, hkey⟩ := Option.isSome_iff_exists.mp (not_not.mp hheld)
  obtain ⟨todo, htodo, hbody⟩ := Fallible.bind_eq_ok.mp hbody
  obtain ⟨written, hwritten, hbody⟩ := Fallible.bind_eq_ok.mp hbody
  cases hbody
  have hfilter := rowsToRewrap_eq_ok htodo
  have hmem : ∀ row, row ∈ todo ↔ row ∈ table.rows ∧ row.state.isUnwrappedAtLoad := by
    intro row
    rw [hfilter, List.mem_filter, rowsForUpdate, List.mem_insertionSort]
  obtain ⟨hrows, hopened⟩ := rewrapRows_eq_ok hkey (fun row hrow => (hmem row).mp hrow) []
    (by simp) hwritten
  refine ⟨masterKey, hkey, ?_, ?_⟩
  · rw [hrows]
    apply List.map_congr_left
    intro row hrow
    by_cases hload : row.state.isUnwrappedAtLoad
    · rw [if_pos]
      simp only [List.nil_append]
      exact List.mem_map_of_mem ((hmem row).mpr ⟨hrow, hload⟩)
    · -- a row that is not loadable is written under no other row's id
      rw [if_neg]
      · rw [rewrappedRow, if_neg hload]
      · simp only [List.nil_append, List.mem_map, not_exists, not_and]
        intro other hother hid
        obtain ⟨hother, hload'⟩ := (hmem other).mp hother
        exact hload (table.eq_of_id hother hrow hid ▸ hload')
  · intro row hrow hload
    exact hopened row ((hmem row).mpr ⟨hrow, hload⟩)

/-! ## Unwrapping the new row -/

theorem unwrap_of_unwrapRow {dataKey : DataKey}
    (h : unwrapRow A keyCheckValue custody row = .ok dataKey) :
    custody.unwrap A row.wrapped row.aad = .ok dataKey ∧ keyCheckValue dataKey = row.keyCheckValue := by
  unfold unwrapRow at h
  split at h
  · cases h
  rename_i opened hunwrap
  split at h
  · cases h
  rename_i hcheck
  cases h
  exact ⟨hunwrap, not_not.mp hcheck⟩

theorem unwrapRow_eq_ok {dataKey : DataKey}
    (hunwrap : custody.unwrap A row.wrapped row.aad = .ok dataKey)
    (hcheck : keyCheckValue dataKey = row.keyCheckValue) :
    unwrapRow A keyCheckValue custody row = .ok dataKey := by
  rw [unwrapRow, hunwrap]
  simp [hcheck]

theorem unwrap_newWrap (hround : A.RoundTrips) (masterKey : DataKey) (row : KeyringRow)
    (dataKey : DataKey) (backend : String) :
    let row' := row.withWrap (newWrap A masterKey targetMasterKeyId nonce row.id dataKey) backend
    (EnvironmentMasterKeyCustody.only targetMasterKeyId masterKey).unwrap A row'.wrapped row'.aad =
      .ok dataKey := by
  have hcipher : (EnvironmentMasterKeyCustody.only targetMasterKeyId masterKey).cipher
      targetMasterKeyId = .ok masterKey := by
    simp [EnvironmentMasterKeyCustody.cipher, EnvironmentMasterKeyCustody.only]
  have hlen : (nonce row.id).bytes.length = wrapNonceLength := (nonce row.id).length_bytes
  have hdecrypt : A.decrypt masterKey ⟨(nonce row.id).bytes, hlen⟩
      (utf8 (wrappedDataKeyAad row.id targetMasterKeyId wrapAlgorithmAes256Gcm))
      (A.encrypt masterKey (nonce row.id)
        (utf8 (wrappedDataKeyAad row.id targetMasterKeyId wrapAlgorithmAes256Gcm)) dataKey.bytes) =
      some dataKey.bytes := hround ..
  simp only [EnvironmentMasterKeyCustody.unwrap, KeyringRow.wrapped, KeyringRow.aad,
    KeyringRow.withWrap, newWrap, hcipher, bind, Except.bind, ne_eq, not_true_eq_false, if_false,
    dif_pos hlen, hdecrypt, dif_pos dataKey.length_bytes]

/-- The new row opens to the same bytes under the new master key alone. -/
theorem unwrapRow_rewrappedRow (hround : A.RoundTrips) {dataKey : DataKey}
    (hload : row.state.isUnwrappedAtLoad)
    (h : unwrapRow A keyCheckValue custody row = .ok dataKey) :
    unwrapRow A keyCheckValue (.only targetMasterKeyId masterKey)
      (rewrappedRow A keyCheckValue custody target masterKey targetMasterKeyId nonce row) =
      .ok dataKey := by
  have hcheck : (rewrappedRow A keyCheckValue custody target masterKey targetMasterKeyId nonce
      row).keyCheckValue = row.keyCheckValue := (sameColumns_rewrappedRow masterKey row).keyCheckValue
  rw [rewrappedRow_of_unwrap hload h] at hcheck ⊢
  exact unwrapRow_eq_ok (unwrap_newWrap hround ..) ((unwrap_of_unwrapRow h).2.trans hcheck.symm)

/-! ## The snapshots -/

/-- Entries that answer alike to a reader. -/
def KeyEntry.SameKey (a b : KeyEntry) : Prop :=
  a.id = b.id ∧ a.cipher = b.cipher

/-- Loops of `assemble` that have put together the same keys. -/
structure Assembly.SameKeys (a b : Assembly) : Prop where
  activeContent : a.activeContent = b.activeContent
  activeMemoryDedupe : a.activeMemoryDedupe = b.activeMemoryDedupe
  byId : List.Forall₂ KeyEntry.SameKey a.byId b.byId

/-- Loads with the same outcome: the same refusal, or the same active keys and the same ciphers. -/
def SameKeys : Except KeyringError KeyringSnapshot → Except KeyringError KeyringSnapshot → Prop
  | .ok a, .ok b =>
    a.activeContent = b.activeContent ∧ a.activeMemoryDedupe = b.activeMemoryDedupe ∧
      ∀ id, a.resolve id = b.resolve id
  | .error e, .error e' => e = e'
  | _, _ => False

theorem sameKey_keyEntry {row' : KeyringRow} (hrow : row'.SameColumns row)
    (opened : Option OpenedKey) :
    KeyEntry.SameKey (keyEntry row opened) (keyEntry row' opened) := by
  refine ⟨hrow.id.symm, ?_⟩
  simp only [KeyEntry.cipher, keyEntry, hrow.id, hrow.purpose]

theorem sameKeys_add {acc acc' : Assembly} (h : acc.SameKeys acc') {row' : KeyringRow}
    (hrow : row'.SameColumns row) (opened : Option OpenedKey) :
    (acc.add row opened).SameKeys (acc'.add row' opened) where
  activeContent := by simp only [Assembly.add, hrow.state, h.activeContent]
  activeMemoryDedupe := by simp only [Assembly.add, hrow.state, h.activeMemoryDedupe]
  byId := by
    have hentry := sameKey_keyEntry hrow opened
    simp only [Assembly.add, insertEntry]
    refine List.rel_append (List.rel_filter ?_ h.byId) (.cons hentry .nil)
    intro a b hab
    simp [hab.1, hentry.1]

theorem find?_sameKey {xs ys : List KeyEntry} (h : List.Forall₂ KeyEntry.SameKey xs ys)
    (id : RawUuid) :
    (xs.find? fun entry => entry.id = id).map KeyEntry.cipher =
      (ys.find? fun entry => entry.id = id).map KeyEntry.cipher := by
  induction h with
  | nil => rfl
  | @cons a b _ _ hab _ ih =>
    by_cases ha : a.id = id
    · have hb : b.id = id := hab.1.symm.trans ha
      simp [ha, hb, hab.2]
    · have hb : b.id ≠ id := fun hb => ha (hab.1.trans hb)
      simpa [List.find?_cons, ha, hb] using ih

theorem assembleRow_rewrappedRow (hround : A.RoundTrips)
    (hopens : row.state.isUnwrappedAtLoad →
      ∃ dataKey, unwrapRow A keyCheckValue custody row = .ok dataKey)
    {acc acc' : Assembly} (h : acc.SameKeys acc') :
    ∃ next next', assembleRow A keyCheckValue custody acc row = .ok next ∧
      assembleRow A keyCheckValue (.only targetMasterKeyId masterKey) acc'
        (rewrappedRow A keyCheckValue custody target masterKey targetMasterKeyId nonce row) =
        .ok next' ∧ next.SameKeys next' := by
  have hrow : (rewrappedRow A keyCheckValue custody target masterKey targetMasterKeyId nonce
      row).SameColumns row := sameColumns_rewrappedRow masterKey row
  by_cases hcarried : row.state.isCarriedInSnapshot
  · by_cases hload : row.state.isUnwrappedAtLoad
    · obtain ⟨dataKey, hunwrap⟩ := hopens hload
      have hopened : openedKey (rewrappedRow A keyCheckValue custody target masterKey
          targetMasterKeyId nonce row) dataKey = openedKey row dataKey := by
        simp only [openedKey, hrow.id, hrow.purpose]
      refine ⟨_, _, ?_, ?_, sameKeys_add h hrow (some (openedKey row dataKey))⟩
      · rw [assembleRow, if_neg (not_not.mpr hcarried), if_pos hload, hunwrap]
        rfl
      · rw [assembleRow, hrow.state, if_neg (not_not.mpr hcarried), if_pos hload,
          unwrapRow_rewrappedRow hround hload hunwrap, ← hopened]
        rfl
    · refine ⟨_, _, ?_, ?_, sameKeys_add h hrow none⟩
      · rw [assembleRow, if_neg (not_not.mpr hcarried), if_neg hload]
      · rw [assembleRow, hrow.state, if_neg (not_not.mpr hcarried), if_neg hload]
  · refine ⟨acc, acc', ?_, ?_, h⟩
    · rw [assembleRow, if_pos hcarried]
    · rw [assembleRow, hrow.state, if_pos hcarried]

theorem mem_of_mem_fetchRows (h : row ∈ fetchRows table) : row ∈ table.rows := by
  rw [fetchRows, List.mem_insertionSort] at h
  exact List.mem_of_mem_filter h

theorem fetchRows_map {f : KeyringRow → KeyringRow} (hf : ∀ row, (f row).SameColumns row)
    (hrows : table'.rows = table.rows.map f) : fetchRows table' = (fetchRows table).map f := by
  have hfilter : (table.rows.map f).filter (fun row => row.state ≠ .retired) =
      (table.rows.filter fun row => row.state ≠ .retired).map f := by
    rw [List.filter_map]
    congr 1
    apply List.filter_congr
    intro row _
    simp [(hf row).state]
  rw [fetchRows, fetchRows, hrows, hfilter]
  symm
  apply List.map_insertionSort
  intro a _ b _
  rw [(hf a).keyVersion, (hf b).keyVersion]

/-- **Loads before and after the transaction have the same keys.** -/
theorem sameKeys_loadSnapshot (hround : A.RoundTrips)
    (hrows : table'.rows = table.rows.map
      (rewrappedRow A keyCheckValue custody target masterKey targetMasterKeyId nonce))
    (hopens : ∀ row ∈ table.rows, row.state.isUnwrappedAtLoad →
      ∃ dataKey, unwrapRow A keyCheckValue custody row = .ok dataKey)
    (generation : Nat) :
    SameKeys (loadSnapshot A keyCheckValue custody table generation)
      (loadSnapshot A keyCheckValue (.only targetMasterKeyId masterKey) table' generation) := by
  obtain ⟨acc, acc', hacc, hacc', hsame⟩ : ∃ acc acc',
      (fetchRows table).foldlM (assembleRow A keyCheckValue custody) {} = .ok acc ∧
      ((fetchRows table).map (rewrappedRow A keyCheckValue custody target masterKey
        targetMasterKeyId nonce)).foldlM
        (assembleRow A keyCheckValue (.only targetMasterKeyId masterKey)) {} = .ok acc' ∧
      acc.SameKeys acc' := by
    apply Fallible.foldlM_related
    · intro row hrow acc acc' h
      exact assembleRow_rewrappedRow hround (hopens row (mem_of_mem_fetchRows hrow)) h
    · exact ⟨rfl, rfl, .nil⟩
  rw [← fetchRows_map (sameColumns_rewrappedRow masterKey) hrows] at hacc'
  simp only [loadSnapshot, assemble, hacc, hacc', bind, Except.bind]
  rw [← hsame.activeContent]
  cases acc.activeContent with
  | none =>
    simp only [SameKeys, KeyringError.noActiveKey.injEq, true_and]
    exact hsame.byId.length_eq
  | some cipher => exact ⟨rfl, hsame.activeMemoryDedupe, find?_sameKey hsame.byId⟩

/-! ## The theorem -/

/-- What the transaction may do to a row: nothing, when no instance loads it; else store another
wrap of the same 32 bytes, which the new master key alone opens. -/
structure KeepsDataKey (A : Aead) (custody : EnvironmentMasterKeyCustody) (targetMasterKeyId : String)
    (masterKey : DataKey) (old new : KeyringRow) : Prop where
  columns : new.SameColumns old
  unloaded : ¬old.state.isUnwrappedAtLoad → new = old
  loaded : old.state.isUnwrappedAtLoad → new.masterKeyId = targetMasterKeyId ∧
    ∃ dataKey, custody.unwrap A old.wrapped old.aad = .ok dataKey ∧
      (EnvironmentMasterKeyCustody.only targetMasterKeyId masterKey).unwrap A new.wrapped new.aad =
        .ok dataKey

theorem keepsDataKey_rewrappedRow (hround : A.RoundTrips)
    (hopens : row.state.isUnwrappedAtLoad →
      ∃ dataKey, unwrapRow A keyCheckValue custody row = .ok dataKey) :
    KeepsDataKey A custody targetMasterKeyId masterKey row
      (rewrappedRow A keyCheckValue custody target masterKey targetMasterKeyId nonce row) where
  columns := sameColumns_rewrappedRow masterKey row
  unloaded hload := by rw [rewrappedRow, if_neg hload]
  loaded hload := by
    obtain ⟨dataKey, hunwrap⟩ := hopens hload
    have hnew : unwrapRow A keyCheckValue (.only targetMasterKeyId masterKey)
        (rewrappedRow A keyCheckValue custody target masterKey targetMasterKeyId nonce row) =
        .ok dataKey := unwrapRow_rewrappedRow hround hload hunwrap
    refine ⟨?_, dataKey, (unwrap_of_unwrapRow hunwrap).1, (unwrap_of_unwrapRow hnew).1⟩
    rw [rewrappedRow_of_unwrap hload hunwrap]
    rfl

end

/-- **Rewrapping keeps every data key**: a transaction that commits leaves row by row the same keys
behind, loaded alike by an instance with the new master key alone; one that fails changes nothing.
-/
theorem rewrapWith_keeps_data_keys (A : Aead) (hround : A.RoundTrips)
    (keyCheckValue : DataKey → FixedBytes 8) (custody target : EnvironmentMasterKeyCustody)
    (targetMasterKeyId : String) (nonce : RawUuid → FixedBytes 12) (table : KeyTable) :
    (∀ report table',
      rewrapWith A keyCheckValue custody target targetMasterKeyId nonce table = (.ok report, table') →
      ∃ masterKey, target.keys.lookup targetMasterKeyId = some masterKey ∧
        List.Forall₂ (KeepsDataKey A custody targetMasterKeyId masterKey) table.rows table'.rows ∧
        ∀ generation, SameKeys (loadSnapshot A keyCheckValue custody table generation)
          (loadSnapshot A keyCheckValue (.only targetMasterKeyId masterKey) table' generation)) ∧
    (∀ error table',
      rewrapWith A keyCheckValue custody target targetMasterKeyId nonce table = (.error error, table') →
      table' = table) := by
  constructor
  · intro report table' h
    obtain ⟨masterKey, hkey, hrows, hopens⟩ := rows_of_rewrapWith h
    refine ⟨masterKey, hkey, ?_, sameKeys_loadSnapshot hround hrows hopens⟩
    rw [hrows, List.forall₂_map_right_iff, List.forall₂_same]
    intro row hrow
    exact keepsDataKey_rewrappedRow hround (hopens row hrow)
  · intro error table' h
    unfold rewrapWith at h
    split at h
    · cases h
      rfl
    · cases h

namespace Sample

/-! A keyring of two keys, one of them retired, moved from the master key `2025-01` to `2026-01`. -/

def dataKeyId : RawUuid :=
  ⟨List.replicate 4 0x11 ++ [0x22, 0x22, 0x33, 0x33, 0x44, 0x44] ++ List.replicate 6 0x55, rfl⟩

def dataKey : DataKey :=
  ⟨List.replicate 32 0x5a, rfl⟩

def retiredId : RawUuid :=
  ⟨List.replicate 16 0x77, rfl⟩

/-- The check value of the data key, as the source computes it. -/
def checkValue : FixedBytes 8 :=
  ⟨[0x19, 0x1f, 0x58, 0x38, 0x22, 0xe6, 0x9a, 0x6c], rfl⟩

def masterKey2025 : DataKey :=
  ⟨(List.range 32).map fun n => UInt8.ofNat (n + 0x40), rfl⟩

def masterKey2026 : DataKey :=
  ⟨(List.range 32).map fun n => UInt8.ofNat (n + 0x60), rfl⟩

def nonce2025 : FixedBytes 12 :=
  ⟨(List.range 12).map fun n => UInt8.ofNat (n + 0x10), rfl⟩

def nonce2026 : FixedBytes 12 :=
  ⟨(List.range 12).map fun n => UInt8.ofNat (n + 0x20), rfl⟩

def wrapped2025 : Recorded where
  call :=
    { key := masterKey2025
      nonce := nonce2025
      aad := utf8 (wrappedDataKeyAad dataKeyId "2025-01" wrapAlgorithmAes256Gcm)
      plaintext := dataKey.bytes }
  body :=
    [0x23, 0x60, 0x67, 0x8b, 0x0c, 0xcb, 0x4e, 0x79, 0xf4, 0xfc, 0x8c, 0x0a, 0xb1, 0xa2, 0x55, 0xec,
      0x5f, 0x4d, 0xde, 0x93, 0x5c, 0x4b, 0x10, 0x51, 0x22, 0x34, 0x93, 0x8b, 0x81, 0x33, 0xe8, 0x8a,
      0xea, 0x37, 0xe2, 0x03, 0xc6, 0x87, 0x7c, 0x63, 0x6a, 0xb0, 0x38, 0x7c, 0x11, 0x55, 0xcb, 0x4c]
  length_body := rfl
  tagged := by decide

def wrapped2026 : Recorded where
  call :=
    { key := masterKey2026
      nonce := nonce2026
      aad := utf8 (wrappedDataKeyAad dataKeyId "2026-01" wrapAlgorithmAes256Gcm)
      plaintext := dataKey.bytes }
  body :=
    [0xcc, 0x34, 0x25, 0x73, 0xd2, 0x76, 0x7f, 0x0a, 0xc2, 0x88, 0xe8, 0x5b, 0xbc, 0xb5, 0x61, 0xcd,
      0x12, 0x51, 0x85, 0x07, 0x62, 0xf6, 0x77, 0xcc, 0xb7, 0x1b, 0x1f, 0x2a, 0xd4, 0xb1, 0x64, 0xba,
      0x71, 0xf0, 0x64, 0xb7, 0xc4, 0x2e, 0xdb, 0x9f, 0x78, 0x3c, 0x96, 0xea, 0x10, 0x46, 0xf6, 0x12]
  length_body := rfl
  tagged := by decide

def wrapCipher : Aead :=
  Recorded.aead [wrapped2025, wrapped2026]

theorem roundTrips_wrapCipher : wrapCipher.RoundTrips := by
  apply Recorded.roundTrips_aead
  decide

/-- The custody during the rotation: it holds both master keys. -/
def custody : EnvironmentMasterKeyCustody where
  keys := [("2025-01", masterKey2025), ("2026-01", masterKey2026)]
  activeMasterKeyId := "2025-01"
  active_held := by decide

def activeRow : KeyringRow :=
  { id := dataKeyId, keyVersion := 2, purpose := .content, state := .active
    custodyBackend := custodyBackendEnvironment, masterKeyId := "2025-01"
    wrapAlgorithm := wrapAlgorithmAes256Gcm, wrapNonce := nonce2025.bytes
    wrappedKey := wrapped2025.body, keyCheckValue := checkValue }

def keyTable : KeyTable where
  rows := [activeRow, { activeRow with id := retiredId, keyVersion := 1, state := .retired }]
  id_unique := by decide
  version_unique := by decide
  single_active := by decide

theorem rewrapped_ok : (rewrapWith wrapCipher (fun _ => checkValue) custody custody "2026-01"
    (fun _ => nonce2026) keyTable).1.toOption =
    some { targetMasterKeyId := "2026-01", targetBackend := "environment",
           rewrapped := [dataKeyId], leftAlone := [(retiredId, "retired")] } := by
  decide +kernel

end Sample

open Sample in
theorem rewrapWith_keeps_data_keys_rotated :
    ∃ table', (rewrapWith wrapCipher (fun _ => checkValue) custody custody "2026-01"
      (fun _ => nonce2026) keyTable).2 = table' ∧
      ∃ masterKey, custody.keys.lookup "2026-01" = some masterKey ∧
        List.Forall₂ (KeepsDataKey wrapCipher custody "2026-01" masterKey) keyTable.rows table'.rows := by
  obtain ⟨hkept, -⟩ := rewrapWith_keeps_data_keys wrapCipher roundTrips_wrapCipher
    (fun _ => checkValue) custody custody "2026-01" (fun _ => nonce2026) keyTable
  cases hresult : rewrapWith wrapCipher (fun _ => checkValue) custody custody "2026-01"
      (fun _ => nonce2026) keyTable with
  | mk result table' =>
    have hok := rewrapped_ok
    cases result with
    | error e =>
      rw [hresult] at hok
      cases hok
    | ok report =>
      obtain ⟨masterKey, hkey, hrows, -⟩ := hkept report table' hresult
      exact ⟨table', rfl, masterKey, hkey, hrows⟩

end Moira.Keyring
