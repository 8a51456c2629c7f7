import Moira.Keyring.Envelope
import Mathlib

/-!
# An envelope is bound to its row

- `parse_toBytes_append`, `parse_eq_ok` — the header is read back exactly
- **`content_envelopes_bound_to_row`** — what opens was sealed, for this row and under this key
-/

namespace Moira.Keyring

open Bytes

/-! ## The header -/

variable (profile : AadProfile)

namespace AadProfile

@[simp] theorem fromId_id : fromId profile.id = some profile := by
  cases profile <;> rfl

theorem id_of_fromId {id : Nat} {profile : AadProfile} (h : fromId id = some profile) :
    profile.id = id := by
  have hfound := List.find?_some h
  simpa using hfound

theorem id_lt : profile.id < 256 ^ 2 := by
  cases profile <;> decide

end AadProfile

variable {envelope : Bytes}

namespace EnvelopeHeader

@[simp] theorem length_toBytes (header : EnvelopeHeader) :
    header.toBytes.length = envelopeHeaderLen := by
  simp [toBytes, envelopeMagic, header.dataKeyId.length_bytes, header.nonce.length_bytes,
    envelopeHeaderLen]

theorem toBytes_inj {a b : EnvelopeHeader} (h : a.toBytes = b.toBytes) :
    a.dataKeyId = b.dataKeyId ∧ a.nonce = b.nonce := by
  have hrest := (List.append_inj h rfl).2
  simp only [List.singleton_append, List.cons.injEq, true_and] at hrest
  obtain ⟨hid, hrest⟩ := List.append_inj hrest
    (by rw [a.dataKeyId.length_bytes, b.dataKeyId.length_bytes])
  obtain ⟨hnonce, -⟩ := List.append_inj hrest (by rw [a.nonce.length_bytes, b.nonce.length_bytes])
  exact ⟨FixedBytes.ext hid, FixedBytes.ext hnonce⟩

theorem checks_of_parse {header : EnvelopeHeader} (h : parse envelope = .ok header) :
    58 ≤ envelope.length ∧ slice envelope 0 4 = envelopeMagic ∧
      byteAt envelope 4 = formatVersionV1 ∧ byteAt envelope 5 = algorithmAes256Gcm ∧
      byteAt envelope 6 = keyModeWrappedDek ∧ byteAt envelope 7 = 0 ∧
      slice envelope 8 16 = header.dataKeyId.bytes ∧ slice envelope 24 12 = header.nonce.bytes ∧
      ofBe (slice envelope 36 2) = header.aadProfile.id ∧
      ofBe (slice envelope 38 4) = header.bodyLen ∧
      header.bodyLen + envelopeHeaderLen = envelope.length := by
  unfold parse at h
  -- one split for each check, in the order of the source
  split at h
  · cases h
  rename_i hlen
  have hlen : 58 ≤ envelope.length := Nat.le_of_not_lt hlen
  split at h
  · cases h
  rename_i hmagic
  split at h
  · cases h
  rename_i hformat
  split at h
  · cases h
  rename_i halgorithm
  split at h
  · cases h
  rename_i hmode
  split at h
  · cases h
  rename_i hreserved
  split at h
  · cases h
  rename_i profile hprofile
  simp only at h
  split at h
  · cases h
  rename_i hbody
  cases h
  refine ⟨hlen, not_not.mp hmagic, not_not.mp hformat, not_not.mp halgorithm, not_not.mp hmode,
    not_not.mp hreserved, rfl, rfl, (AadProfile.id_of_fromId hprofile).symm, rfl, ?_⟩
  have hbody := not_not.mp hbody
  simp only [envelopeHeaderLen] at hbody ⊢
  omega

/-- **An accepted header is the one the stored bytes spell.** -/
theorem take_of_parse {header : EnvelopeHeader} (h : parse envelope = .ok header) :
    envelope.take envelopeHeaderLen = header.toBytes := by
  obtain ⟨hlen, hmagic, hformat, halgorithm, hmode, hreserved, hid, hnonce, hprofile, hbody, -⟩ :=
    checks_of_parse h
  have hprofile : be 2 header.aadProfile.id = slice envelope 36 2 := by
    rw [← hprofile, be_ofBe (length_slice (by omega))]
  have hbody : be 4 header.bodyLen = slice envelope 38 4 := by
    rw [← hbody, be_ofBe (length_slice (by omega))]
  -- cut the first 42 bytes at the offsets of the fields
  have hcut : envelope.take 42 = slice envelope 0 4 ++ slice envelope 4 1 ++ slice envelope 5 1 ++
      slice envelope 6 1 ++ slice envelope 7 1 ++ slice envelope 8 16 ++ slice envelope 24 12 ++
      slice envelope 36 2 ++ slice envelope 38 4 := by
    have hzero : slice envelope 0 4 = envelope.take 4 := rfl
    rw [hzero, ← take_eq_slices, ← take_eq_slices, ← take_eq_slices, ← take_eq_slices,
      ← take_eq_slices, ← take_eq_slices, ← take_eq_slices, ← take_eq_slices]
  rw [envelopeHeaderLen, hcut, toBytes, hmagic, slice_one (by omega), slice_one (by omega),
    slice_one (by omega), slice_one (by omega), hformat, halgorithm, hmode, hreserved, hid, hnonce,
    hprofile, hbody]
  simp only [List.append_assoc]

theorem bodyLen_lt_of_parse {header : EnvelopeHeader} (h : parse envelope = .ok header) :
    header.bodyLen < 2 ^ 32 := by
  obtain ⟨hlen, -, -, -, -, -, -, -, -, hbody, -⟩ := checks_of_parse h
  have hwidth : (slice envelope 38 4).length = 4 := length_slice (by omega)
  have hlt := ofBe_lt (slice envelope 38 4)
  rw [hwidth, hbody] at hlt
  exact hlt

theorem slices_toBytes_append (header : EnvelopeHeader) (body : Bytes) :
    slice (header.toBytes ++ body) 0 4 = envelopeMagic ∧
      byteAt (header.toBytes ++ body) 4 = formatVersionV1 ∧
      byteAt (header.toBytes ++ body) 5 = algorithmAes256Gcm ∧
      byteAt (header.toBytes ++ body) 6 = keyModeWrappedDek ∧
      byteAt (header.toBytes ++ body) 7 = 0 ∧
      slice (header.toBytes ++ body) 8 16 = header.dataKeyId.bytes ∧
      slice (header.toBytes ++ body) 24 12 = header.nonce.bytes ∧
      slice (header.toBytes ++ body) 36 2 = be 2 header.aadProfile.id ∧
      slice (header.toBytes ++ body) 38 4 = be 4 header.bodyLen := by
  have hid := header.dataKeyId.length_bytes
  have hnonce := header.nonce.length_bytes
  -- the last field starts behind both
  have hbehindId : header.dataKeyId.bytes.drop 30 = [] := List.drop_eq_nil_of_le (by omega)
  have hbehindNonce : header.nonce.bytes.drop 14 = [] := List.drop_eq_nil_of_le (by omega)
  simp [slice, byteAt, toBytes, envelopeMagic, List.drop_append, List.take_append, hid, hnonce,
    hbehindId, hbehindNonce]

/-- **A header is read back from its bytes**, when the body has the length it declares. -/
theorem parse_toBytes_append {header : EnvelopeHeader} {body : Bytes}
    (hbody : body.length = header.bodyLen) (htag : envelopeTagLen ≤ header.bodyLen)
    (hfits : header.bodyLen < 2 ^ 32) : parse (header.toBytes ++ body) = .ok header := by
  have hlen : (header.toBytes ++ body).length = envelopeHeaderLen + header.bodyLen := by
    rw [List.length_append, length_toBytes, hbody]
  obtain ⟨hmagic, hformat, halgorithm, hmode, hreserved, hid, hnonce, hprofile, hlenField⟩ :=
    slices_toBytes_append header body
  unfold parse
  rw [dif_neg (by simp only [hlen, minEnvelopeLen]; omega), if_neg (not_not.mpr hmagic),
    if_neg (not_not.mpr hformat), if_neg (not_not.mpr halgorithm), if_neg (not_not.mpr hmode),
    if_neg (not_not.mpr hreserved), hprofile, ofBe_be header.aadProfile.id_lt,
    AadProfile.fromId_id]
  have hdeclared : ofBe (slice (header.toBytes ++ body) 38 4) = header.bodyLen := by
    rw [hlenField, ofBe_be hfits]
  have hactual : (header.toBytes ++ body).length - envelopeHeaderLen = header.bodyLen := by
    rw [hlen]
    omega
  simp only [hdeclared, hactual]
  rw [if_neg (not_not.mpr rfl)]
  simp only [hid, hnonce]

end EnvelopeHeader

/-! ## The identity -/

namespace RawUuid

theorem toList_text (id : RawUuid) : id.text.toList = uuidText id.bytes := by
  simp [text]

theorem length_text (id : RawUuid) : id.text.toList.length = 36 := by
  rw [toList_text, length_uuidText id.length_bytes]

theorem text_injective : Function.Injective text := by
  intro a b h
  have hlist : uuidText a.bytes = uuidText b.bytes := by rw [← toList_text, h, toList_text]
  exact FixedBytes.ext (uuidText_inj a.length_bytes b.length_bytes hlist)

end RawUuid

namespace AadProfile

/-- Enough of a table's name to tell the profile. -/
def tableMark : AadProfile → List Char
  | conversationMessageContent =>
    ['c', 'o', 'n', 'v', 'e', 'r', 's', 'a', 't', 'i', 'o', 'n', '_', 'm']
  | conversationSummaryText =>
    ['c', 'o', 'n', 'v', 'e', 'r', 's', 'a', 't', 'i', 'o', 'n', '_', 's']
  | memoryRecordContent => ['m']
  | ragDocumentVersionContent => ['r', 'a', 'g', '_', 'd']
  | ragChunkText => ['r', 'a', 'g', '_', 'c']

theorem toList_table : ∃ rest, profile.table.toList = profile.tableMark ++ rest := by
  cases profile <;> exact ⟨_, String.toList_ofList⟩

theorem table_append_inj {p q : AadProfile} {r s : List Char}
    (h : p.table.toList ++ r = q.table.toList ++ s) : p = q := by
  obtain ⟨restP, hp⟩ := p.toList_table
  obtain ⟨restQ, hq⟩ := q.toList_table
  rw [hp, hq] at h
  cases p <;> cases q <;> first | rfl | simp [tableMark] at h

end AadProfile

namespace ContentIdentity

theorem fields_inj {profile : AadProfile} {first second last : String} {a a' b b' : RawUuid}
    {value value' : String}
    (h : fields profile first second last a b value =
      fields profile first second last a' b' value') : a = a' ∧ b = b' ∧ value = value' := by
  have hlist := congrArg String.toList h
  simp only [fields, String.toList_append, List.append_assoc, List.append_cancel_left_eq] at hlist
  obtain ⟨ha, hlist⟩ := List.append_inj hlist (by rw [a.length_text, a'.length_text])
  simp only [List.append_cancel_left_eq] at hlist
  obtain ⟨hb, hlist⟩ := List.append_inj hlist (by rw [b.length_text, b'.length_text])
  simp only [List.append_cancel_left_eq] at hlist
  exact ⟨RawUuid.text_injective (String.ext ha), RawUuid.text_injective (String.ext hb),
    String.ext hlist⟩

theorem identityString_eq_head (identity : ContentIdentity) :
    ∃ rest, identity.identityString.toList = (head identity.profile).toList ++ rest := by
  cases identity <;>
    simp only [identityString, fields, profile, String.toList_append, List.append_assoc] <;>
    exact ⟨_, rfl⟩

theorem toList_join (first second third fourth : String) :
    (first ++ second ++ third ++ fourth).toList =
      first.toList ++ (second.toList ++ (third.toList ++ fourth.toList)) := by
  simp

theorem toList_head :
    ∃ start : List Char, ∀ profile : AadProfile, ∃ rest,
      (head profile).toList = start ++ (profile.table.toList ++ rest) :=
  ⟨_, fun _ => ⟨_, toList_join _ _ _ _⟩⟩

theorem head_append_inj {p q : AadProfile} {r s : List Char}
    (h : (head p).toList ++ r = (head q).toList ++ s) : p = q := by
  obtain ⟨start, hhead⟩ := toList_head
  obtain ⟨restP, hp⟩ := hhead p
  obtain ⟨restQ, hq⟩ := hhead q
  rw [hp, hq] at h
  simp only [List.append_assoc, List.append_cancel_left_eq] at h
  exact AadProfile.table_append_inj h

/-- **No two rows have one identity.** -/
theorem identityString_injective : Function.Injective identityString := by
  intro i j h
  have hprofile : i.profile = j.profile := by
    obtain ⟨r, hi⟩ := i.identityString_eq_head
    obtain ⟨s, hj⟩ := j.identityString_eq_head
    apply head_append_inj (r := r) (s := s)
    rw [← hi, ← hj, h]
  cases i <;> cases j <;> cases hprofile <;>
    simp only [identityString] at h <;>
    obtain ⟨ha, hb, hvalue⟩ := fields_inj h <;>
    subst ha hb
  · rw [Int.repr_injective hvalue]
  · rw [Int.repr_injective hvalue]
  · rw [hvalue]
  · rw [Int.repr_injective hvalue]
  · rw [Int.repr_injective hvalue]

end ContentIdentity

/-! ## Sealing and opening -/

theorem utf8_inj {a b : String} (h : a.toUTF8.data.toList = b.toUTF8.data.toList) : a = b := by
  apply String.toByteArray_inj.mp
  exact ByteArray.ext (Array.ext' h)

theorem envelopeAad_inj {a b : Bytes} {i j : ContentIdentity} (hlen : a.length = b.length)
    (h : envelopeAad a i = envelopeAad b j) : a = b ∧ i = j := by
  obtain ⟨hheader, hrest⟩ := List.append_inj h hlen
  simp only [List.cons.injEq, true_and] at hrest
  exact ⟨hheader, ContentIdentity.identityString_injective (utf8_inj hrest)⟩

variable {plaintext : Bytes}

variable {cipher : ContentCipher} {identity : ContentIdentity}

namespace ContentCipher

variable {A : Aead}

theorem open_eq_ok (h : cipher.open A envelope identity = .ok plaintext) :
    ∃ header, EnvelopeHeader.parse envelope = .ok header ∧
      header.aadProfile = identity.profile ∧ header.dataKeyId = cipher.dataKeyId ∧
      A.decrypt cipher.key header.nonce (envelopeAad (envelope.take envelopeHeaderLen) identity)
        (envelope.drop envelopeHeaderLen) = some plaintext := by
  cases hparse : EnvelopeHeader.parse envelope with
  | error e =>
    rw [ContentCipher.open, hparse] at h
    cases h
  | ok header =>
    simp only [ContentCipher.open, hparse, bind, Except.bind] at h
    split at h
    · cases h
    rename_i hprofile
    split at h
    · cases h
    rename_i hid
    split at h
    · rename_i opened hdecrypt
      cases h
      exact ⟨header, rfl, not_not.mp hprofile, not_not.mp hid, hdecrypt⟩
    · cases h

theorem open_of_decrypt {header : EnvelopeHeader}
    (hparse : EnvelopeHeader.parse envelope = .ok header)
    (hprofile : header.aadProfile = identity.profile) (hid : header.dataKeyId = cipher.dataKeyId)
    (hdecrypt : A.decrypt cipher.key header.nonce
      (envelopeAad (envelope.take envelopeHeaderLen) identity)
      (envelope.drop envelopeHeaderLen) = some plaintext) :
    cipher.open A envelope identity = .ok plaintext := by
  simp only [ContentCipher.open, hparse, bind, Except.bind]
  rw [if_neg (not_not.mpr hprofile), if_neg (not_not.mpr hid), hdecrypt]

end ContentCipher

/-- One call of `seal`, with the nonce it drew. -/
structure SealCall where
  cipher : ContentCipher
  identity : ContentIdentity
  plaintext : Bytes
  nonce : FixedBytes 12

namespace SealCall

def header (s : SealCall) : EnvelopeHeader :=
  s.cipher.header s.identity s.plaintext s.nonce

/-- The encryption a seal makes. -/
def encryption (s : SealCall) : AeadCall where
  key := s.cipher.key
  nonce := s.nonce
  aad := envelopeAad s.header.toBytes s.identity
  plaintext := s.plaintext

def output (A : Aead) (s : SealCall) : Except ContentEnvelopeError Bytes :=
  s.cipher.sealWithNonce A s.identity s.plaintext s.nonce

/-- The encryptions of a collection of seals. -/
def Made (seals : Set SealCall) (call : AeadCall) : Prop :=
  ∃ s ∈ seals, s.encryption = call

variable {A : Aead} {s : SealCall}

theorem output_eq (hfits : s.plaintext.length + envelopeTagLen < 2 ^ 32) :
    s.output A = .ok (s.header.toBytes ++
      A.encrypt s.cipher.key s.nonce (envelopeAad s.header.toBytes s.identity) s.plaintext) := by
  rw [output, ContentCipher.sealWithNonce, if_pos hfits]
  rfl

theorem fits_of_output (h : s.output A = .ok envelope) :
    s.plaintext.length + envelopeTagLen < 2 ^ 32 := by
  by_contra hlarge
  rw [output, ContentCipher.sealWithNonce, if_neg hlarge] at h
  cases h

theorem parse_output (h : s.output A = .ok envelope) :
    EnvelopeHeader.parse envelope = .ok s.header := by
  have hfits := fits_of_output h
  rw [output_eq hfits] at h
  cases h
  exact EnvelopeHeader.parse_toBytes_append (A.length_encrypt ..)
    (Nat.le_add_left ..) hfits

theorem take_output (h : s.output A = .ok envelope) :
    envelope.take envelopeHeaderLen = s.header.toBytes :=
  EnvelopeHeader.take_of_parse (parse_output h)

theorem drop_output (h : s.output A = .ok envelope) :
    envelope.drop envelopeHeaderLen =
      A.encrypt s.cipher.key s.nonce (envelopeAad s.header.toBytes s.identity) s.plaintext := by
  rw [output_eq (fits_of_output h)] at h
  cases h
  rw [List.drop_append_of_le_length (by rw [EnvelopeHeader.length_toBytes])]
  rw [List.drop_of_length_le (by rw [EnvelopeHeader.length_toBytes]), List.nil_append]

section Ideal

variable {seals : Set SealCall} (hideal : A.IdealFor (Made seals))

include hideal

theorem open_output (hs : s ∈ seals) (h : s.output A = .ok envelope) :
    s.cipher.open A envelope s.identity = .ok s.plaintext := by
  apply ContentCipher.open_of_decrypt (parse_output h) rfl rfl
  rw [take_output h, drop_output h, hideal.decrypt_eq_some_iff]
  exact ⟨⟨s, hs, rfl⟩, rfl⟩

theorem sealed_of_open (h : cipher.open A envelope identity = .ok plaintext) :
    ∃ s ∈ seals, s.cipher = cipher ∧ s.identity = identity ∧ s.plaintext = plaintext ∧
      s.output A = .ok envelope := by
  obtain ⟨header, hparse, hprofile, hid, hdecrypt⟩ := ContentCipher.open_eq_ok h
  rw [hideal.decrypt_eq_some_iff] at hdecrypt
  obtain ⟨⟨s, hs, hcall⟩, hbody⟩ := hdecrypt
  simp only [encryption, AeadCall.mk.injEq] at hcall
  obtain ⟨hkey, hnonce, haad, hplaintext⟩ := hcall
  have htake := EnvelopeHeader.take_of_parse hparse
  -- the authenticated data carry the header the seal wrote, and its row
  rw [htake] at haad hbody
  obtain ⟨hheader, hidentity⟩ := envelopeAad_inj (by simp) haad
  have hcipher : s.cipher = cipher := by
    have hkeyId : s.cipher.dataKeyId = cipher.dataKeyId :=
      (EnvelopeHeader.toBytes_inj hheader).1.trans hid
    exact ContentCipher.ext hkeyId hkey
  refine ⟨s, hs, hcipher, hidentity, hplaintext, ?_⟩
  have hfits : s.plaintext.length + envelopeTagLen < 2 ^ 32 := by
    have hlen := congrArg List.length hbody
    obtain ⟨-, -, -, -, -, -, -, -, -, -, hdeclared⟩ := EnvelopeHeader.checks_of_parse hparse
    rw [A.length_encrypt, List.length_drop, ← hplaintext] at hlen
    have hlt := EnvelopeHeader.bodyLen_lt_of_parse hparse
    omega
  rw [output_eq hfits, hkey, hnonce, hplaintext, hheader, hidentity, hbody, ← htake,
    List.take_append_drop]

theorem identity_of_open
    (hfresh : ∀ s ∈ seals, ∀ t ∈ seals, s.cipher.key = t.cipher.key → s.nonce = t.nonce → s = t)
    (hs : s ∈ seals) (hsealed : s.output A = .ok envelope) (hkey : cipher.key = s.cipher.key)
    (h : cipher.open A envelope identity = .ok plaintext) :
    identity = s.identity ∧ plaintext = s.plaintext := by
  obtain ⟨t, ht, rfl, rfl, rfl, hagain⟩ := sealed_of_open hideal h
  have hheader : s.header = t.header := by
    have hparse := (parse_output hsealed).symm.trans (parse_output hagain)
    exact Except.ok.inj hparse
  have hnonce : s.nonce = t.nonce := congrArg EnvelopeHeader.nonce hheader
  rw [hfresh s hs t ht hkey.symm hnonce]
  exact ⟨rfl, rfl⟩

end Ideal

end SealCall

/-- **What opens was sealed, for this row and under this key**: sealing and opening are inverse to
each other over any collection of seals, and the identity of a row has one text. -/
theorem content_envelopes_bound_to_row (A : Aead) (seals : Set SealCall)
    (hideal : A.IdealFor (SealCall.Made seals)) :
    (∀ s ∈ seals, s.plaintext.length < 2 ^ 32 - 16 →
      ∃ envelope, s.output A = .ok envelope ∧
        s.cipher.open A envelope s.identity = .ok s.plaintext) ∧
    (∀ cipher envelope identity plaintext,
      ContentCipher.open A cipher envelope identity = .ok plaintext →
      ∃ s ∈ seals, s.cipher = cipher ∧ s.identity = identity ∧ s.plaintext = plaintext ∧
        s.output A = .ok envelope) ∧
    Function.Injective ContentIdentity.identityString ∧
    ((∀ s ∈ seals, ∀ t ∈ seals, s.cipher.key = t.cipher.key → s.nonce = t.nonce → s = t) →
      ∀ s ∈ seals, ∀ envelope, s.output A = .ok envelope →
        ∀ cipher : ContentCipher, cipher.key = s.cipher.key → ∀ identity plaintext,
          cipher.open A envelope identity = .ok plaintext →
          identity = s.identity ∧ plaintext = s.plaintext) := by
  refine ⟨?_, ?_, ContentIdentity.identityString_injective, ?_⟩
  · intro s hs hlen
    have hfits : s.plaintext.length + envelopeTagLen < 2 ^ 32 := by
      rw [envelopeTagLen]
      omega
    have houtput := SealCall.output_eq (A := A) hfits
    exact ⟨_, houtput, SealCall.open_output hideal hs houtput⟩
  · intro cipher envelope identity plaintext h
    exact SealCall.sealed_of_open hideal h
  · intro hfresh s hs envelope hsealed cipher hkey identity plaintext h
    exact SealCall.identity_of_open hideal hfresh hs hsealed hkey h

namespace Sample

/-- The key, nonce, row and plaintext of the source's golden vector. -/
def golden : SealCall where
  cipher :=
    { dataKeyId := ⟨[0x11, 0x11, 0x11, 0x11, 0x22, 0x22, 0x33, 0x33, 0x44, 0x44, 0x55, 0x55, 0x55,
        0x55, 0x55, 0x55], rfl⟩
      key := ⟨(List.range 32).map UInt8.ofNat, rfl⟩ }
  identity := .conversationMessage
    ⟨(List.range 16).map fun n => UInt8.ofNat (n + 0x01), rfl⟩
    ⟨(List.range 16).map fun n => UInt8.ofNat (n + 0x21), rfl⟩ 7
  plaintext := "moira content envelope golden vector".toUTF8.data.toList
  nonce := ⟨(List.range 12).map fun n => UInt8.ofNat (n + 0xa0), rfl⟩

/-- The body of the golden vector: 36 bytes and the tag. -/
def goldenBody : Bytes :=
  [0x8b, 0x77, 0x15, 0x5f, 0x24, 0xeb, 0x61, 0xd0, 0x0c, 0x11, 0xe2, 0xbd, 0x73, 0x5a, 0xa5, 0xb0,
    0x06, 0xc9, 0x35, 0x7f, 0xe2, 0xd2, 0x62, 0x0b, 0xf3, 0x62, 0x42, 0xe3, 0x11, 0x8b, 0x03, 0x64,
    0xb1, 0x02, 0x28, 0x8d, 0xde, 0x77, 0x3f, 0x05, 0x24, 0x7d, 0xf4, 0x31, 0x09, 0x56, 0xe4, 0x3b,
    0x8c, 0x5e, 0xb9, 0xea]

theorem length_golden_plaintext : golden.plaintext.length = 36 := by decide +kernel

/-- A cipher that has made one encryption, the golden one. -/
def goldenAead : Aead where
  encrypt key nonce aad plaintext :=
    if ⟨key, nonce, aad, plaintext⟩ = golden.encryption then goldenBody
    else plaintext ++ List.replicate 16 0
  decrypt key nonce aad body :=
    if ⟨key, nonce, aad, golden.plaintext⟩ = golden.encryption ∧ body = goldenBody then
      some golden.plaintext
    else none
  length_encrypt key nonce aad plaintext := by
    split
    · rename_i hgolden
      have hplaintext : plaintext = golden.plaintext := congrArg AeadCall.plaintext hgolden
      rw [hplaintext, length_golden_plaintext]
      rfl
    · simp [envelopeTagLen]

theorem golden_ideal : goldenAead.IdealFor (SealCall.Made {golden}) where
  decrypt_eq_some_iff key nonce aad body plaintext := by
    simp only [goldenAead, SealCall.Made, Set.mem_singleton_iff, exists_eq_left]
    constructor
    · intro h
      split at h
      · rename_i hgolden
        obtain ⟨hcall, rfl⟩ := hgolden
        cases h
        exact ⟨hcall.symm, if_pos hcall⟩
      · cases h
    · rintro ⟨hcall, hbody⟩
      have hplaintext : golden.plaintext = plaintext := congrArg AeadCall.plaintext hcall
      subst hplaintext
      rw [if_pos hcall.symm] at hbody
      rw [if_pos ⟨hcall.symm, hbody.symm⟩]

end Sample

open Sample in
theorem content_envelopes_bound_to_row_golden :
    ∃ envelope, golden.output goldenAead = .ok envelope ∧
      golden.cipher.open goldenAead envelope golden.identity = .ok golden.plaintext :=
  (content_envelopes_bound_to_row goldenAead {golden} golden_ideal).1 golden rfl
    (by rw [length_golden_plaintext]; decide)

/-- The identity is spelled as the source's test has it. -/
example : Sample.golden.identity.identityString =
    "moira/content/v1;table=conversation_messages;column=content_encrypted" ++
      ";message_id=01020304-0506-0708-090a-0b0c0d0e0f10" ++
      ";conversation_id=21222324-2526-2728-292a-2b2c2d2e2f30;sequence_number=7" := by
  decide +kernel

end Moira.Keyring
