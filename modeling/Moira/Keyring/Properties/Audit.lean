import Mathlib.Data.List.Nodup
import Moira.Keyring.ContentAccess
import Moira.Keyring.Properties.Envelope
import Moira.Lib.Fallible

/-!
# Snapshots and the retirement audit

AES-256-GCM on the inputs a trace uses, from the bytes it really produced there. Any other input is
padded instead, so that the whole is a cipher again: `roundTrips_aead`.

**`entry_of_loadSnapshot`** — an entry for every row an instance unwraps, opened as its purpose
says.

The database names the key of a sealed value without opening it. Whatever the reader accepts, the
database names the same way, so a key whose usage is zero opens nothing that is stored.
-/

namespace Moira.Keyring

open Bytes

/-- What was encrypted decrypts again. -/
def Aead.RoundTrips (A : Aead) : Prop :=
  ∀ key nonce aad plaintext, A.decrypt key nonce aad (A.encrypt key nonce aad plaintext) = some plaintext

/-- An encryption and the bytes it gave: as many as the plaintext has, and a tag. -/
structure Recorded where
  call : AeadCall
  body : Bytes
  length_body : body.length = call.plaintext.length + envelopeTagLen
  tagged : body.drop call.plaintext.length ≠ List.replicate envelopeTagLen 0

namespace Recorded

def aead (records : List Recorded) : Aead where
  encrypt key nonce aad plaintext :=
    match records.find? fun r => r.call = { key, nonce, aad, plaintext } with
    | some r => r.body
    | none => plaintext ++ List.replicate envelopeTagLen 0
  decrypt key nonce aad body :=
    match records.find? fun r =>
      r.call.key = key ∧ r.call.nonce = nonce ∧ r.call.aad = aad ∧ r.body = body with
    | some r => some r.call.plaintext
    | none =>
      if body.drop (body.length - envelopeTagLen) = List.replicate envelopeTagLen 0 then
        some (body.take (body.length - envelopeTagLen))
      else none
  length_encrypt key nonce aad plaintext := by
    split
    · rename_i r hfound
      have hcall : r.call = { key, nonce, aad, plaintext } := by simpa using List.find?_some hfound
      rw [r.length_body, hcall]
    · simp

theorem roundTrips_aead {records : List Recorded}
    (hnonces : (records.map fun r => r.call.nonce).Nodup) : (aead records).RoundTrips := by
  intro key nonce aad plaintext
  simp only [Recorded.aead]
  cases hencrypt : records.find? fun r => r.call = { key, nonce, aad, plaintext } with
  | some r =>
    have hr : r ∈ records := List.mem_of_find?_eq_some hencrypt
    have hcall : r.call = { key, nonce, aad, plaintext } := by simpa using List.find?_some hencrypt
    cases hdecrypt : records.find? fun r' =>
        r'.call.key = key ∧ r'.call.nonce = nonce ∧ r'.call.aad = aad ∧ r'.body = r.body with
    | none =>
      have hnone := List.find?_eq_none.mp hdecrypt r hr
      simp [hcall] at hnone
    | some r' =>
      -- the nonce tells the record
      have hr' : r' ∈ records := List.mem_of_find?_eq_some hdecrypt
      have hnonce : r'.call.nonce = r.call.nonce := by
        have hfound := List.find?_some hdecrypt
        simp only [decide_eq_true_eq] at hfound
        rw [hfound.2.1, hcall]
      obtain rfl := List.inj_on_of_nodup_map hnonces hr' hr hnonce
      show some r'.call.plaintext = some plaintext
      rw [hcall]
  | none =>
    cases hdecrypt : records.find? fun r =>
        r.call.key = key ∧ r.call.nonce = nonce ∧ r.call.aad = aad ∧
          r.body = plaintext ++ List.replicate envelopeTagLen 0 with
    | none => simp
    | some r =>
      -- no recorded tag is the padding
      have hfound := List.find?_some hdecrypt
      simp only [decide_eq_true_eq] at hfound
      have hplaintext : r.call.plaintext.length = plaintext.length := by
        have hbody := r.length_body
        rw [hfound.2.2.2] at hbody
        simpa using hbody.symm
      refine absurd ?_ r.tagged
      rw [hfound.2.2.2, hplaintext]
      simp

end Recorded

/-! ## Entries -/

theorem find?_insertEntry (byId : List KeyEntry) (entry : KeyEntry) (id : RawUuid) :
    (insertEntry byId entry).find? (fun e => e.id = id) =
      if entry.id = id then some entry else byId.find? fun e => e.id = id := by
  unfold insertEntry
  rw [List.find?_append]
  by_cases hid : entry.id = id
  · subst hid
    have hnone : (byId.filter fun other => other.id ≠ entry.id).find? (fun e => e.id = entry.id) =
        none := by
      rw [List.find?_eq_none]
      intro e he
      simpa using (List.mem_filter.mp he).2
    rw [hnone]
    simp
  · have hothers : (byId.filter fun other => other.id ≠ entry.id).find? (fun e => e.id = id) =
        byId.find? fun e => e.id = id := by
      rw [List.find?_filter]
      congr 1
      funext e
      by_cases he : e.id = id
      · have hne : id ≠ entry.id := Ne.symm hid
        simp [he, hne]
      · simp [he]
    rw [hothers]
    simp [hid]

section

variable {A : Aead} {keyCheckValue : DataKey → FixedBytes 8} {custody : EnvironmentMasterKeyCustody}

theorem find?_assembleRow {acc next : Assembly} {row : KeyringRow}
    (h : assembleRow A keyCheckValue custody acc row = .ok next) :
    (∀ id, id ≠ row.id → next.byId.find? (fun e => e.id = id) = acc.byId.find? fun e => e.id = id) ∧
    (row.state.isUnwrappedAtLoad → ∃ dataKey, unwrapRow A keyCheckValue custody row = .ok dataKey ∧
      next.byId.find? (fun e => e.id = row.id) =
        some (keyEntry row (some (openedKey row dataKey)))) := by
  unfold assembleRow at h
  split at h
  · rename_i hcarried
    cases h
    refine ⟨fun _ _ => rfl, fun hload => ?_⟩
    cases hstate : row.state <;>
      simp_all [DataKeyState.isCarriedInSnapshot, DataKeyState.isUnwrappedAtLoad]
  · split at h
    · obtain ⟨dataKey, hunwrap, hnext⟩ := Fallible.bind_eq_ok.mp h
      cases hnext
      constructor
      · intro id hid
        show (insertEntry acc.byId (keyEntry row _)).find? _ = _
        rw [find?_insertEntry, if_neg]
        exact Ne.symm hid
      · intro _
        refine ⟨dataKey, hunwrap, ?_⟩
        show (insertEntry acc.byId (keyEntry row _)).find? _ = _
        rw [find?_insertEntry]
        exact if_pos rfl
    · rename_i hload
      cases h
      constructor
      · intro id hid
        show (insertEntry acc.byId (keyEntry row _)).find? _ = _
        rw [find?_insertEntry, if_neg]
        exact Ne.symm hid
      · intro hload'
        exact absurd hload' hload

theorem find?_foldlM {rows : List KeyringRow} (hnodup : (rows.map KeyringRow.id).Nodup)
    {acc result : Assembly}
    (h : rows.foldlM (assembleRow A keyCheckValue custody) acc = .ok result) :
    (∀ id, id ∉ rows.map KeyringRow.id →
      result.byId.find? (fun e => e.id = id) = acc.byId.find? fun e => e.id = id) ∧
    (∀ row ∈ rows, row.state.isUnwrappedAtLoad →
      ∃ dataKey, unwrapRow A keyCheckValue custody row = .ok dataKey ∧
        result.byId.find? (fun e => e.id = row.id) =
          some (keyEntry row (some (openedKey row dataKey)))) := by
  induction rows generalizing acc with
  | nil =>
    cases h
    exact ⟨fun _ _ => rfl, fun row hrow => by cases hrow⟩
  | cons row rows ih =>
    rw [List.map_cons, List.nodup_cons] at hnodup
    rw [List.foldlM_cons, Fallible.bind_eq_ok] at h
    obtain ⟨next, hnext, hrest⟩ := h
    obtain ⟨hothers, hentry⟩ := find?_assembleRow hnext
    obtain ⟨hkept, hfound⟩ := ih hnodup.2 hrest
    constructor
    · intro id hid
      rw [List.map_cons, List.mem_cons, not_or] at hid
      rw [hkept id hid.2, hothers id hid.1]
    · intro other hother hload
      rcases List.mem_cons.mp hother with rfl | hother
      · -- the ids are distinct, so no later row touches this entry
        obtain ⟨dataKey, hunwrap, hnow⟩ := hentry hload
        exact ⟨dataKey, hunwrap, (hkept other.id hnodup.1).trans hnow⟩
      · exact hfound other hother hload

/-- **A row that an instance unwraps has its entry in the snapshot.** -/
theorem entry_of_loadSnapshot {table : KeyTable} {generation : Nat} {snapshot : KeyringSnapshot}
    (h : loadSnapshot A keyCheckValue custody table generation = .ok snapshot) {row : KeyringRow}
    (hrow : row ∈ table.rows) (hload : row.state.isUnwrappedAtLoad) :
    ∃ dataKey, unwrapRow A keyCheckValue custody row = .ok dataKey ∧
      snapshot.entry row.id = some (keyEntry row (some (openedKey row dataKey))) := by
  obtain ⟨acc, hacc, hresult⟩ := Fallible.bind_eq_ok.mp h
  have hbyId : snapshot.byId = acc.byId := by
    split at hresult
    · cases hresult
    · cases hresult
      rfl
  have hnodup : ((fetchRows table).map KeyringRow.id).Nodup := by
    have hperm : (fetchRows table).Perm (table.rows.filter fun row => row.state ≠ .retired) :=
      List.perm_insertionSort _ _
    rw [(hperm.map _).nodup_iff]
    exact table.id_unique.sublist (List.filter_sublist.map _)
  have hmem : row ∈ fetchRows table := by
    rw [fetchRows, List.mem_insertionSort, List.mem_filter]
    refine ⟨hrow, ?_⟩
    cases hstate : row.state <;> simp_all [DataKeyState.isUnwrappedAtLoad]
  obtain ⟨dataKey, hunwrap, hentry⟩ := (find?_foldlM hnodup hacc).2 row hmem hload
  exact ⟨dataKey, hunwrap, by rw [KeyringSnapshot.entry, hbyId, hentry]⟩

end

/-! ## Keys that are named -/

open Bytes

theorem contentEnvelopeDataKeyId_of_parse {envelope : Bytes} {header : EnvelopeHeader}
    (h : EnvelopeHeader.parse envelope = .ok header) :
    contentEnvelopeDataKeyId envelope = some header.dataKeyId := by
  obtain ⟨hlen, hmagic, hformat, -, -, -, hid, -⟩ := EnvelopeHeader.checks_of_parse h
  -- `substring` counts from one
  have hmagic : slice envelope (1 - 1) 4 = [0x4D, 0x4F, 0x45, 0x31] := hmagic
  have hformat : byteAt envelope 4 = 1 := hformat
  rw [contentEnvelopeDataKeyId, dif_neg (by omega), if_neg (not_not.mpr hmagic),
    if_neg (not_not.mpr hformat)]
  exact congrArg some (FixedBytes.ext hid)

theorem parse_of_openWithSnapshot {A : Aead} {snapshot : KeyringSnapshot} {envelope : Bytes}
    {identity : ContentIdentity} {profile : AadProfile} {dataKeyId : RawUuid}
    {result : Except AppError String}
    (h : openWithSnapshot A snapshot envelope identity = (.opened profile dataKeyId, result)) :
    ∃ header, EnvelopeHeader.parse envelope = .ok header ∧ header.dataKeyId = dataKeyId := by
  unfold openWithSnapshot at h
  simp only at h
  split at h
  · cases h
  rename_i header hparse
  split at h
  · cases h
  split at h
  · cases h
  · cases h
  rename_i cipher hcipher
  split at h
  · cases h
  rename_i plaintext hopen
  split at h
  · cases h
  cases h
  -- the cipher has checked that its id is the header's
  obtain ⟨header', hparse', -, hid, -⟩ := ContentCipher.open_eq_ok hopen
  rw [hparse] at hparse'
  cases hparse'
  exact ⟨header, hparse, hid⟩

theorem ContentTables.namesKey_eq_false {tables : ContentTables} {dataKeyId : RawUuid}
    (h : KeyUsage.total (tables.usage dataKeyId) = 0) {row : SealedRow} (hrow : row ∈ tables.rows) :
    row.namesKey dataKeyId = false := by
  have hcount : (tables.column row.identity.profile).countP (fun row => row.namesKey dataKeyId) = 0 := by
    refine List.sum_eq_zero_iff.mp h _ (List.mem_map.mpr ⟨(row.identity.profile, _), ?_, rfl⟩)
    refine List.mem_map.mpr ⟨row.identity.profile, ?_, rfl⟩
    cases row.identity.profile <;> decide
  rw [List.countP_eq_zero] at hcount
  have hmem : row ∈ tables.column row.identity.profile := by
    rw [ContentTables.column, List.mem_filter]
    exact ⟨hrow, by simp⟩
  simpa using hcount row hmem

/-- **The audit covers the reader**: the database names every key the parser reads, and a key whose
usage is zero is not the one any stored value opens under. -/
theorem audit_covers_reader :
    (∀ envelope header, EnvelopeHeader.parse envelope = .ok header →
      contentEnvelopeDataKeyId envelope = some header.dataKeyId) ∧
    (∀ (tables : ContentTables) (dataKeyId : RawUuid),
      KeyUsage.total (tables.usage dataKeyId) = 0 →
      ∀ row ∈ tables.rows, ∀ envelope, row.envelope = some envelope →
        ∀ A snapshot identity profile,
          (openWithSnapshot A snapshot envelope identity).1 ≠ .opened profile dataKeyId) := by
  constructor
  · intro envelope header h
    exact contentEnvelopeDataKeyId_of_parse h
  · intro tables dataKeyId hzero row hrow envelope henvelope A snapshot identity profile hopened
    obtain ⟨header, hparse, hid⟩ := parse_of_openWithSnapshot (Prod.ext hopened rfl)
    have hnames := ContentTables.namesKey_eq_false hzero hrow
    simp [SealedRow.namesKey, henvelope, contentEnvelopeDataKeyId_of_parse hparse, hid] at hnames

namespace Sample

/-- The source's golden vector, as it is stored. -/
def goldenEnvelope : Bytes :=
  golden.header.toBytes ++ goldenBody

theorem parse_goldenEnvelope : EnvelopeHeader.parse goldenEnvelope = .ok golden.header := by
  have hbody : golden.header.bodyLen = 52 := by
    rw [SealCall.header, ContentCipher.header, length_golden_plaintext]
    rfl
  apply EnvelopeHeader.parse_toBytes_append
  · rw [hbody]
    rfl
  · rw [hbody]
    decide
  · rw [hbody]
    decide

/-- One stored message. -/
def goldenTables : ContentTables where
  rows := [{ identity := golden.identity, envelope := some goldenEnvelope }]
  key_unique := List.nodup_singleton _

def unusedKeyId : RawUuid :=
  ⟨List.replicate 16 0, rfl⟩

end Sample

open Sample in
theorem audit_covers_reader_golden :
    contentEnvelopeDataKeyId goldenEnvelope = some golden.cipher.dataKeyId ∧
      ∀ A snapshot identity profile,
        (openWithSnapshot A snapshot goldenEnvelope identity).1 ≠ .opened profile unusedKeyId := by
  constructor
  · exact audit_covers_reader.1 goldenEnvelope golden.header parse_goldenEnvelope
  · exact audit_covers_reader.2 goldenTables unusedKeyId (by decide +kernel)
      { identity := golden.identity, envelope := some goldenEnvelope } List.mem_cons_self
      goldenEnvelope rfl

end Moira.Keyring
