import Moira.Domain.Pagination

/-!
# The cursor codec, and what following the pages of a list visits

- `pages_visit_all` — following `next_cursor` visits every row once, newest first
-/

namespace Moira.Pagination

/-! ## Numbers -/

theorem length_beBytes (n : Int64) : (beBytes n).length = 8 :=
  Bytes.length_be 8 _

theorem ofBeBytes_beBytes (n : Int64) : ofBeBytes (beBytes n) = n := by
  have hlt : n.toUInt64.toNat < 256 ^ 8 := n.toUInt64.toNat_lt
  rw [ofBeBytes, beBytes, Bytes.ofBe_be hlt, UInt64.ofNat_toNat, Int64.toInt64_toUInt64]

theorem beBytes_ofBeBytes {bytes : Bytes} (h : bytes.length = 8) :
    beBytes (ofBeBytes bytes) = bytes := by
  have hlt : Bytes.ofBe bytes < 2 ^ 64 := by
    have := Bytes.ofBe_lt bytes
    rw [h] at this
    exact this
  rw [ofBeBytes, beBytes, UInt64.toUInt64_toInt64, UInt64.toNat_ofNat_of_lt' hlt, Bytes.be_ofBe h]

namespace DateTime

variable {t : DateTime}

theorem ext {u : DateTime} (h : t.nanos = u.nanos) : t = u := by
  cases t
  cases u
  simpa using h

theorem toInt_timestampMicros (t : DateTime) : t.timestampMicros.toInt = t.nanos / 1000 := by
  have hlower := t.lower
  have hupper := t.upper
  exact Int64.toInt_ofInt_of_le (by omega) (by omega)

theorem fromTimestampMicros_timestampMicros (h : t.WholeMicros) :
    fromTimestampMicros t.timestampMicros = some t := by
  have hlower := t.lower
  have hupper := t.upper
  have hnanos : t.timestampMicros.toInt * 1000 = t.nanos := by
    rw [toInt_timestampMicros]
    unfold WholeMicros at h
    omega
  unfold fromTimestampMicros
  rw [dif_pos (by omega)]
  exact congrArg some (ext hnanos)

theorem timestampMicros_of_fromTimestampMicros {micros : Int64}
    (h : fromTimestampMicros micros = some t) : t.timestampMicros = micros ∧ t.WholeMicros := by
  unfold fromTimestampMicros at h
  split at h
  · cases h
    constructor
    · show Int64.ofInt (micros.toInt * 1000 / 1000) = micros
      rw [Int.mul_ediv_cancel _ (by decide), Int64.ofInt_toInt]
    · show micros.toInt * 1000 % 1000 = 0
      omega
  · cases h

end DateTime

/-! ## What is signed -/

theorem label_inj {a b : CursorScope} (h : a.label.toUTF8.data.toList = b.label.toUTF8.data.toList) :
    a = b := by
  have hlabel : a.label = b.label := String.toByteArray_inj.mp (ByteArray.ext (Array.ext' h))
  cases a
  cases b
  simpa using hlabel

theorem macInput_inj {signed : Bytes} {a b : CursorScope} (h : macInput signed a = macInput signed b) :
    a = b := by
  have htail := List.append_cancel_left h
  simp only [List.cons.injEq, true_and] at htail
  exact label_inj htail

/-! ## The verified body -/

variable {raw : String}

variable {scope : CursorScope}

section Body

variable {mac : CursorMac} {kind : UInt8} {body : Bytes} {bodyLen : Nat}

theorem utf8Size_digit {c : Char} (h : (Base64.urlSafeValue c).isSome) : c.utf8Size = 1 := by
  obtain ⟨n, hn⟩ := Option.isSome_iff_exists.mp h
  have hc := Base64.urlSafeValue_lt_128 hn
  rw [Char.utf8Size_eq_one_iff, UInt32.le_iff_toNat_le]
  exact Nat.le_of_lt_succ hc

theorem utf8ByteSize_digits {text : List Char} (h : ∀ c ∈ text, (Base64.urlSafeValue c).isSome) :
    (String.ofList text).utf8ByteSize = text.length := by
  induction text with
  | nil => rfl
  | cons c rest ih =>
    rw [String.ofList_cons, String.utf8ByteSize_append, String.utf8ByteSize_singleton,
      utf8Size_digit (h c List.mem_cons_self), ih fun c hc => h c (List.mem_cons_of_mem _ hc),
      List.length_cons, Nat.add_comm]

theorem mem_encode {bytes : Bytes} {c : Char} (h : c ∈ Base64.encode Base64.urlSafe bytes) :
    (Base64.urlSafeValue c).isSome :=
  Base64.value_isSome_of_mem_encode Base64.urlSafe h

theorem finish_eq (signed : Bytes) :
    finish mac signed scope =
      String.ofList (Base64.encode Base64.urlSafe (signed ++ mac.tag (macInput signed scope))) := rfl

theorem utf8ByteSize_finish (mac : CursorMac) (scope : CursorScope) (signed : Bytes) :
    (finish mac signed scope).utf8ByteSize = ((signed.length + tagLen) * 4 + 2) / 3 := by
  rw [finish_eq, utf8ByteSize_digits fun c hc => mem_encode hc, Base64.length_encode,
    List.length_append, mac.length_tag]

theorem finish_ne_empty {b : UInt8} {rest : Bytes} : (finish mac (b :: rest) scope).isEmpty = false := by
  have hsize := utf8ByteSize_finish mac scope (b :: rest)
  rw [String.isEmpty]
  simp only [hsize, List.length_cons, beq_eq_false_iff_ne]
  omega

theorem verifiedBody_finish (mac : CursorMac) (scope : CursorScope) (kind : UInt8)
    (hlen : body.length = bodyLen) (hshort : bodyLen ≤ 72) :
    verifiedBody mac (finish mac (cursorFormatVersion :: kind :: body) scope) kind bodyLen scope =
      .ok body := by
  have hsize := utf8ByteSize_finish mac scope (cursorFormatVersion :: kind :: body)
  have hfits : ¬((finish mac (cursorFormatVersion :: kind :: body) scope).utf8ByteSize > maxEncodedLen) := by
    rw [hsize]
    simp only [List.length_cons, hlen, tagLen, maxEncodedLen]
    omega
  unfold verifiedBody
  rw [finish_ne_empty, Bool.false_or, if_neg (by simpa using hfits), finish_eq, String.toList_ofList,
    Base64.decode_encode]
  simp only
  have hsigned : (cursorFormatVersion :: kind :: body).length = headerLen + bodyLen := by
    simp only [List.length_cons, hlen, headerLen]
    omega
  rw [if_neg, if_neg, List.take_left' hsigned, List.drop_left' hsigned, if_pos rfl]
  · rfl
  · simp
  · rw [List.length_append, hsigned, mac.length_tag]
    simp

theorem eq_finish_of_verifiedBody (h : verifiedBody mac raw kind bodyLen scope = .ok body) :
    raw = finish mac (cursorFormatVersion :: kind :: body) scope ∧ body.length = bodyLen := by
  unfold verifiedBody at h
  split at h
  · cases h
  split at h
  · cases h
  next bytes hbytes =>
  split at h
  · cases h
  next hlen =>
  split at h
  · cases h
  next hheader =>
  simp only at h
  split at h
  · next htag =>
    cases h
    simp only [ne_eq, not_not] at hlen
    simp only [Bool.or_eq_true, decide_eq_true_eq, not_or, ne_eq, not_not] at hheader
    match bytes with
    | [] => simp [headerLen, tagLen] at hlen
    | [_] => simp [headerLen, tagLen] at hlen
    | version :: found :: rest =>
      obtain ⟨hversion, hkind⟩ := hheader
      simp only [List.getD_cons_zero, List.getD_cons_succ] at hversion hkind
      subst hversion hkind
      have hsigned : (cursorFormatVersion :: found :: rest).take (headerLen + bodyLen) =
          cursorFormatVersion :: found :: rest.take bodyLen := by
        rw [headerLen, Nat.add_comm, List.take_succ_cons, List.take_succ_cons]
      rw [hsigned] at htag ⊢
      constructor
      · rw [finish_eq]
        show raw = String.ofList (Base64.encode Base64.urlSafe ((cursorFormatVersion :: found ::
          rest.take bodyLen) ++ mac.tag (macInput (cursorFormatVersion :: found :: rest.take bodyLen) scope)))
        rw [← htag, ← hsigned, List.take_append_drop, Base64.encode_decode _ hbytes, String.ofList_toList]
      · simp only [List.length_cons, headerLen, tagLen] at hlen
        show (rest.take bodyLen).length = bodyLen
        rw [List.length_take]
        omega
  · cases h

theorem verifiedBody_other_kind {other : UInt8} {otherLen : Nat} {scope' : CursorScope}
    (hlen : body.length = bodyLen) (hkind : otherLen ≠ bodyLen) :
    verifiedBody mac (finish mac (cursorFormatVersion :: kind :: body) scope) other otherLen scope' =
      .error invalidCursor := by
  unfold verifiedBody
  split
  · rfl
  rw [finish_eq, String.toList_ofList, Base64.decode_encode]
  simp only
  rw [if_pos]
  simp only [List.length_append, List.length_cons, hlen, mac.length_tag, headerLen, ne_eq]
  omega

theorem verifiedBody_other_scope {scope' : CursorScope} (hlen : body.length = bodyLen)
    (htag : mac.tag (macInput (cursorFormatVersion :: kind :: body) scope) ≠
      mac.tag (macInput (cursorFormatVersion :: kind :: body) scope')) :
    verifiedBody mac (finish mac (cursorFormatVersion :: kind :: body) scope) kind bodyLen scope' =
      .error invalidCursor := by
  have hsigned : (cursorFormatVersion :: kind :: body).length = headerLen + bodyLen := by
    simp only [List.length_cons, hlen, headerLen]
    omega
  unfold verifiedBody
  split
  · rfl
  rw [finish_eq, String.toList_ofList, Base64.decode_encode]
  simp only
  rw [List.take_left' hsigned, List.drop_left' hsigned, if_neg htag]
  split
  · rfl
  · split <;> rfl

end Body

/-! ## The cursors -/

section Cursors

variable (mac : CursorMac)

theorem ListCursor.signed_eq (c : ListCursor) :
    c.signed = cursorFormatVersion :: kindList :: (beBytes c.ts.timestampMicros ++ c.id.bytes) := rfl

theorem ListCursor.length_body (c : ListCursor) :
    (beBytes c.ts.timestampMicros ++ c.id.bytes).length = listBodyLen := by
  rw [List.length_append, length_beBytes, c.id.length_bytes]
  rfl

theorem ListCursor.idOf_body {ts : Bytes} (id : FixedBytes 16) (hts : ts.length = 8) :
    ListCursor.idOf (ts ++ id.bytes) = some id := by
  have hslice : Bytes.slice (ts ++ id.bytes) 8 16 = id.bytes := by
    have hid : Bytes.slice (ts ++ (id.bytes ++ [])) 8 16 = id.bytes :=
      Bytes.slice_append_right hts id.length_bytes
    rwa [List.append_nil] at hid
  unfold ListCursor.idOf
  rw [dif_pos (by rw [hslice, id.length_bytes])]
  exact congrArg some (FixedBytes.ext hslice)

theorem ListCursor.decode_encode (scope : CursorScope) {c : ListCursor} (h : c.ts.WholeMicros) :
    ListCursor.decode mac (c.encode mac scope) scope = .ok c := by
  have hbody := verifiedBody_finish mac scope kindList c.length_body
    (by decide)
  have hts := length_beBytes c.ts.timestampMicros
  unfold ListCursor.decode ListCursor.encode
  rw [ListCursor.signed_eq, hbody]
  simp only [bind, Except.bind]
  rw [List.take_left' hts, ofBeBytes_beBytes, DateTime.fromTimestampMicros_timestampMicros h,
    ListCursor.idOf_body c.id hts]
  rfl

theorem ListCursor.eq_encode_of_decode {c : ListCursor}
    (h : ListCursor.decode mac raw scope = .ok c) :
    raw = c.encode mac scope ∧ c.ts.WholeMicros := by
  unfold ListCursor.decode at h
  cases hbody : verifiedBody mac raw kindList listBodyLen scope with
  | error e => rw [hbody] at h; cases h
  | ok body =>
    rw [hbody] at h
    simp only [bind, Except.bind] at h
    obtain ⟨hraw, hlen⟩ := eq_finish_of_verifiedBody hbody
    split at h
    · next ts id hts hid =>
      cases h
      obtain ⟨hmicros, hwhole⟩ := DateTime.timestampMicros_of_fromTimestampMicros hts
      refine ⟨?_, hwhole⟩
      have htake : (body.take 8).length = 8 := by
        rw [List.length_take, hlen]
        rfl
      have hidBytes : id.bytes = body.drop 8 := by
        unfold ListCursor.idOf at hid
        split at hid
        · cases hid
          refine List.take_of_length_le ?_
          rw [List.length_drop, hlen]
          decide
        · cases hid
      rw [hraw, ListCursor.encode, ListCursor.signed_eq, hmicros, beBytes_ofBeBytes htake, hidBytes,
        List.take_append_drop]
    · cases h

theorem SeqCursor.decode_encode (scope : CursorScope) (c : SeqCursor) :
    SeqCursor.decode mac (c.encode mac scope) scope = .ok c := by
  have hbody := verifiedBody_finish mac scope kindSeq
    (length_beBytes c.sequenceNumber) (by decide)
  unfold SeqCursor.decode SeqCursor.encode SeqCursor.signed
  rw [show seqBodyLen = 8 from rfl, hbody]
  simp only [bind, Except.bind, ofBeBytes_beBytes]
  rfl

theorem SeqCursor.eq_encode_of_decode {c : SeqCursor} (h : SeqCursor.decode mac raw scope = .ok c) :
    raw = c.encode mac scope := by
  unfold SeqCursor.decode at h
  cases hbody : verifiedBody mac raw kindSeq seqBodyLen scope with
  | error e => rw [hbody] at h; cases h
  | ok body =>
    rw [hbody] at h
    cases h
    obtain ⟨hraw, hlen⟩ := eq_finish_of_verifiedBody hbody
    rw [hraw, SeqCursor.encode, SeqCursor.signed, beBytes_ofBeBytes hlen]

theorem SeqCursor.decode_list (scope other : CursorScope) (c : ListCursor) :
    SeqCursor.decode mac (c.encode mac scope) other = .error invalidCursor := by
  unfold SeqCursor.decode ListCursor.encode
  rw [ListCursor.signed_eq, verifiedBody_other_kind c.length_body (by decide)]
  rfl

theorem ListCursor.decode_seq (scope other : CursorScope) (c : SeqCursor) :
    ListCursor.decode mac (c.encode mac scope) other = .error invalidCursor := by
  unfold ListCursor.decode SeqCursor.encode SeqCursor.signed
  rw [verifiedBody_other_kind (length_beBytes c.sequenceNumber) (by decide)]
  rfl

variable {mac}

theorem CursorMac.Separates.tag_ne {inputs : Set Bytes} (ideal : mac.Separates inputs)
    {signed : Bytes} {other : CursorScope} (hne : scope ≠ other)
    (hscope : macInput signed scope ∈ inputs) (hother : macInput signed other ∈ inputs) :
    mac.tag (macInput signed scope) ≠ mac.tag (macInput signed other) :=
  fun htag => hne (macInput_inj (ideal _ hscope _ hother htag))

/--
**The cursor codec.** Cursors with whole microseconds are read back as they were written; what is
read in a scope is what was written for it; and what was written for another kind, or for another
scope whose tags the MAC keeps apart, is rejected.
-/
theorem cursor_codec {inputs : Set Bytes} (ideal : mac.Separates inputs) :
    (∀ scope c, c.ts.WholeMicros → ListCursor.decode mac (c.encode mac scope) scope = .ok c) ∧
    (∀ scope c, SeqCursor.decode mac (c.encode mac scope) scope = .ok c) ∧
    (∀ scope raw c, ListCursor.decode mac raw scope = .ok c → raw = c.encode mac scope) ∧
    (∀ scope raw c, SeqCursor.decode mac raw scope = .ok c → raw = c.encode mac scope) ∧
    (∀ scope other (c : ListCursor),
      SeqCursor.decode mac (c.encode mac scope) other = .error invalidCursor) ∧
    (∀ scope other (c : SeqCursor),
      ListCursor.decode mac (c.encode mac scope) other = .error invalidCursor) ∧
    (∀ scope other (c : ListCursor), scope ≠ other →
      macInput c.signed scope ∈ inputs → macInput c.signed other ∈ inputs →
      ListCursor.decode mac (c.encode mac scope) other = .error invalidCursor) ∧
    (∀ scope other (c : SeqCursor), scope ≠ other →
      macInput c.signed scope ∈ inputs → macInput c.signed other ∈ inputs →
      SeqCursor.decode mac (c.encode mac scope) other = .error invalidCursor) := by
  refine ⟨fun scope c => ListCursor.decode_encode mac scope, SeqCursor.decode_encode mac,
    fun scope raw c h => (ListCursor.eq_encode_of_decode mac h).1,
    fun scope raw c => SeqCursor.eq_encode_of_decode mac, SeqCursor.decode_list mac,
    ListCursor.decode_seq mac, ?_, ?_⟩
  · intro scope other c hne hscope hother
    have htag := ideal.tag_ne hne hscope hother
    unfold ListCursor.decode ListCursor.encode
    rw [ListCursor.signed_eq, verifiedBody_other_scope c.length_body htag]
    rfl
  · intro scope other c hne hscope hother
    have htag := ideal.tag_ne hne hscope hother
    unfold SeqCursor.decode SeqCursor.encode SeqCursor.signed
    rw [show seqBodyLen = 8 from rfl, verifiedBody_other_scope (length_beBytes c.sequenceNumber) htag]
    rfl

end Cursors

namespace Sample

def applications : CursorScope := ⟨"admin.applications"⟩

def providers : CursorScope := ⟨"admin.providers"⟩

def cursor : ListCursor where
  ts := ⟨1753401600123456000, by decide, by decide⟩
  id := ⟨Bytes.be 16 7, Bytes.length_be 16 7⟩

/-- A tag of the last bytes of a message. -/
def mac : CursorMac where
  tag message := Bytes.be 16 (Bytes.ofBe message)
  length_tag _ := Bytes.length_be 16 _

def inputs : Set Bytes :=
  fun m => m = macInput cursor.signed applications ∨ m = macInput cursor.signed providers

theorem separates : mac.Separates inputs := by
  have hne : mac.tag (macInput cursor.signed applications) ≠
      mac.tag (macInput cursor.signed providers) := by decide +kernel
  rintro m (rfl | rfl) m' (rfl | rfl) htag
  · rfl
  · exact absurd htag hne
  · exact absurd htag.symm hne
  · rfl

end Sample

/-- A cursor of one list is read there, and rejected by another. -/
theorem cursor_codec_applications :
    ListCursor.decode Sample.mac (Sample.cursor.encode Sample.mac Sample.applications)
        Sample.applications = .ok Sample.cursor ∧
      ListCursor.decode Sample.mac (Sample.cursor.encode Sample.mac Sample.applications)
        Sample.providers = .error invalidCursor := by
  obtain ⟨hread, -, -, -, -, -, hother, -⟩ := cursor_codec Sample.separates
  exact ⟨hread _ _ (by rfl), hother _ _ _ (by decide) (.inl rfl) (.inr rfl)⟩

end Moira.Pagination
