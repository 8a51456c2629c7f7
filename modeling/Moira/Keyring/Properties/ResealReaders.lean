import Moira.Keyring.Properties.ResealTraffic

/-!
# What readers see after a reseal

With no writer in between, `reseal` moves the first rows of each column, batch by batch, and nothing
else. A row it moved is readable again exactly when the new key is a content key: `cipher_for` looks
at the state of a key and not at its purpose.

- **`reseal_preserves_readers_iff`**
-/

namespace Moira.Keyring

open Transition (runFrom)
open Bytes

variable {row : SealedRow} {resealed : Bytes}

variable {tables : ContentTables} {value : SealedValue} {profile : AadProfile}

section Values

variable {dataKeyId : RawUuid}

theorem ContentTables.eq_of_key {a b : SealedRow} (ha : a ∈ tables.rows) (hb : b ∈ tables.rows)
    (h : a.key = b.key) : a = b :=
  List.inj_on_of_nodup_map tables.key_unique ha hb h

/-- The rows of a column by id. -/
def ContentTables.sortedColumn (tables : ContentTables) (profile : AadProfile) : List SealedRow :=
  (tables.column profile).insertionSort fun a b =>
    ofBe a.identity.rowId.bytes ≤ ofBe b.identity.rowId.bytes

theorem mem_sortedColumn :
    row ∈ tables.sortedColumn profile ↔ row ∈ tables.rows ∧ row.identity.profile = profile := by
  rw [ContentTables.sortedColumn, List.mem_insertionSort, ContentTables.column, List.mem_filter,
    decide_eq_true_eq]

theorem sortedColumn_mapEnvelopes (f : SealedRow → Option Bytes) :
    (tables.mapEnvelopes f).sortedColumn profile =
      (tables.sortedColumn profile).map fun row => { row with envelope := f row } := by
  have hcolumn : (tables.mapEnvelopes f).column profile =
      (tables.column profile).map fun row => { row with envelope := f row } := by
    rw [ContentTables.column, ContentTables.column, ContentTables.mapEnvelopes, List.filter_map]
    rfl
  rw [ContentTables.sortedColumn, ContentTables.sortedColumn, hcolumn]
  symm
  apply List.map_insertionSort
  intro a _ b _
  exact Iff.rfl

theorem nodup_sealedValues (tables : ContentTables) (profile : AadProfile) (dataKeyId : RawUuid) :
    (tables.sealedValues profile dataKeyId).Nodup := by
  have hrows : (tables.sortedColumn profile).Nodup := by
    rw [ContentTables.sortedColumn, (List.perm_insertionSort _ _).nodup_iff]
    exact (List.Nodup.of_map _ tables.key_unique).filter _
  apply hrows.filterMap
  intro a b value ha hb
  have ha := sealedUnder_eq_some.mp ha
  have hb := sealedUnder_eq_some.mp hb
  cases a
  cases b
  simp_all

/-- **A swap takes its value off the column**, and touches no other one. -/
theorem sealedValues_swap (hvalue : tables.Sealed dataKeyId value)
    (hother : contentEnvelopeDataKeyId resealed ≠ some dataKeyId) (profile : AadProfile) :
    (tables.swap value resealed).sealedValues profile dataKeyId =
      (tables.sealedValues profile dataKeyId).filter (· ≠ value) := by
  show ((tables.mapEnvelopes _).sortedColumn profile).filterMap _ =
    ((tables.sortedColumn profile).filterMap _).filter _
  rw [sortedColumn_mapEnvelopes, List.filterMap_map, List.filter_filterMap]
  apply List.filterMap_congr
  intro row hrow
  obtain ⟨hrow, -⟩ := mem_sortedColumn.mp hrow
  rw [Function.comp_apply]
  by_cases hmatch : ContentTables.matchesValue value row
  · -- the row of the value: it named the key, and does not any more
    have hunder : row.sealedUnder dataKeyId = some value := by
      obtain ⟨home, hhome, hunder⟩ := hvalue
      have hkey : row.key = home.key :=
        (matchesValue_iff.mp hmatch).1.trans (matchesValue_iff.mp (matches_of_sealed hunder)).1.symm
      rw [tables.eq_of_key hrow hhome hkey]
      exact hunder
    rw [hunder]
    simp [hmatch, SealedRow.sealedUnder, hother, Option.filter]
  · have hunder : row.sealedUnder dataKeyId ≠ some value := fun h => hmatch (matches_of_sealed h)
    have hsame : ({ row with envelope := if ContentTables.matchesValue value row then some resealed
        else row.envelope } : SealedRow) = row := by simp [hmatch]
    rw [hsame]
    cases hcase : row.sealedUnder dataKeyId with
    | none => rfl
    | some other =>
      have hne : other ≠ value := fun h => hunder (h ▸ hcase)
      simp [hne, Option.filter]

end Values

/-! ## What happens to a row -/

section Rows

variable (A : Aead) (fromKey : RawUuid) (source destination : ContentCipher)

/-- A row that was moved: opened under the old key, and sealed again under the new one. -/
structure Moved (old new : SealedRow) (envelope plaintext resealed : Bytes) : Prop where
  stored : old.envelope = some envelope
  names : contentEnvelopeDataKeyId envelope = some fromKey
  opened : source.open A envelope old.identity = .ok plaintext
  sealed : ∃ nonce, destination.sealWithNonce A old.identity plaintext nonce = .ok resealed
  replaced : new.envelope = some resealed

/-- A row is as it was, or it was moved. -/
def RowResealed (old new : SealedRow) : Prop :=
  new.identity = old.identity ∧ (new.envelope = old.envelope ∨
    ∃ envelope plaintext resealed,
      Moved A fromKey source destination old new envelope plaintext resealed)

/-- The tables during a reseal, with the values of each column that are still to do. -/
structure Resealing (start tables : ContentTables) (left : AadProfile → List SealedValue) : Prop where
  rows : List.Forall₂ (RowResealed A fromKey source destination) start.rows tables.rows
  left : ∀ profile, tables.sealedValues profile fromKey = left profile

end Rows

variable {old new : SealedRow} {plaintext : Bytes} {nonce : FixedBytes 12}

section Progress

variable {A : Aead} {fromKey : RawUuid} {source destination : ContentCipher}
  {start : ContentTables} {left : AadProfile → List SealedValue}

theorem rowResealed_swap (h : RowResealed A fromKey source destination old new)
    (hne : fromKey ≠ destination.dataKeyId) (hunder : new.sealedUnder fromKey = some value)
    (hopened : source.open A value.envelope value.identity = .ok plaintext)
    (hsealed : destination.sealWithNonce A value.identity plaintext nonce = .ok resealed) :
    RowResealed A fromKey source destination old { new with envelope := some resealed } := by
  obtain ⟨hidentity, hrow⟩ := h
  obtain ⟨hvalue, henvelope, hnames⟩ := sealedUnder_eq_some.mp hunder
  refine ⟨hidentity, .inr ⟨value.envelope, plaintext, resealed, ?_⟩⟩
  rcases hrow with hsame | ⟨envelope', plaintext', resealed', hmoved⟩
  · rw [← hvalue, hidentity] at hopened hsealed
    exact ⟨hsame ▸ henvelope, hnames, hopened, ⟨nonce, hsealed⟩, rfl⟩
  · -- a moved row names the new key
    obtain ⟨nonce', hsealed'⟩ := hmoved.sealed
    have hstored := hmoved.replaced.symm.trans henvelope
    have hto := contentEnvelopeDataKeyId_of_seal hsealed'
    rw [Option.some.inj hstored, hnames] at hto
    exact absurd (Option.some.inj hto) hne

theorem resealing_swap (h : Resealing A fromKey source destination start tables left)
    (hne : fromKey ≠ destination.dataKeyId) {rest : List SealedValue}
    (hleft : left profile = value :: rest)
    (hopened : source.open A value.envelope value.identity = .ok plaintext)
    (hsealed : destination.sealWithNonce A value.identity plaintext nonce = .ok resealed) :
    Resealing A fromKey source destination start (tables.swap value resealed)
      (Function.update left profile rest) := by
  have hmem : value ∈ tables.sealedValues profile fromKey := by
    rw [h.left, hleft]
    exact List.mem_cons_self
  obtain ⟨hprofile, hvalue⟩ := mem_sealedValues.mp hmem
  have hother : contentEnvelopeDataKeyId resealed ≠ some fromKey := by
    rw [contentEnvelopeDataKeyId_of_seal hsealed]
    exact fun heq => hne (Option.some.inj heq).symm
  constructor
  · show List.Forall₂ _ start.rows (tables.rows.map _)
    rw [List.forall₂_map_right_iff]
    have hrows : List.Forall₂ (fun new old => new ∈ tables.rows ∧
        RowResealed A fromKey source destination old new) tables.rows start.rows :=
      (List.forall₂_and_left _ _).mpr ⟨fun _ hrow => hrow, h.rows.flip⟩
    refine hrows.flip.imp fun old new hpair => ?_
    obtain ⟨hnew, hresealed⟩ := hpair
    by_cases hmatch : ContentTables.matchesValue value new
    · -- the one row with this key
      obtain ⟨home, hhome, hunder⟩ := hvalue
      have hkey : new.key = home.key :=
        (matchesValue_iff.mp hmatch).1.trans (matchesValue_iff.mp (matches_of_sealed hunder)).1.symm
      obtain rfl := tables.eq_of_key hnew hhome hkey
      simpa [hmatch] using rowResealed_swap hresealed hne hunder hopened hsealed
    · simpa [hmatch] using hresealed
  · intro other
    rw [sealedValues_swap hvalue hother, h.left]
    by_cases hcase : other = profile
    · subst hcase
      have hnodup := nodup_sealedValues tables other fromKey
      rw [h.left, hleft, List.nodup_cons] at hnodup
      rw [hleft, Function.update_self, List.filter_cons_of_neg (by simp)]
      apply List.filter_eq_self.mpr
      intro v hv
      simp only [decide_eq_true_eq]
      rintro rfl
      exact hnodup.1 hv
    · rw [Function.update_of_ne hcase]
      apply List.filter_eq_self.mpr
      intro v hv
      simp only [decide_eq_true_eq]
      rintro rfl
      rw [← h.left] at hv
      exact hcase ((mem_sealedValues.mp hv).1.symm.trans hprofile)

/-! ## The program alone -/

/-- With no writer, every answer is about the tables as the last statement left them. -/
def tablesContract (keys : KeyTable) : Contract resealSig ContentTables where
  may _ _ := True
  answers g o x :=
    match o, x with
    | .keyRow id, some found => found = keys.rows.find? fun row => row.id = id
    | .selectSealedBatch profile dataKeyId batch, some values =>
      values = g.selectSealedBatch profile dataKeyId batch
    | .swap value _, some updated => updated = g.swapCount value
    | _, _ => True
  next g o x :=
    match o, x with
    | .swap value resealed, some _ => g.swap value resealed
    | _, _ => g

variable {keys : KeyTable}

theorem wp_resealRow_alone (h : Resealing A fromKey source destination start tables left)
    (hne : fromKey ≠ destination.dataKeyId) {rest : List SealedValue}
    (hleft : left profile = value :: rest) (pass : ResealPass) :
    (resealRow A source destination pass value).wp (tablesContract keys) tables
      (fun g pass' => Resealing A fromKey source destination start g (Function.update left profile rest) ∧
        pass'.movedThisPass = pass.movedThisPass + 1 ∧ pass'.report.batches = pass.report.batches)
      (fun _ _ => True) := by
  unfold resealRow
  rw [Prog.wp_bind]
  cases hopened : source.open A value.envelope value.identity with
  | error e => trivial
  | ok plaintext =>
    refine ⟨trivial, fun nonce _ => ?_⟩
    show Prog.wp _ (orUnreadable value _ >>= _) _ _ _
    rw [Prog.wp_bind]
    cases hsealed : destination.sealWithNonce A value.identity plaintext nonce with
    | error e => trivial
    | ok resealed =>
      refine ⟨trivial, fun answer hanswer => ?_⟩
      cases answer with
      | none => trivial
      | some updated =>
        have hupdated : updated ≠ 0 := by
          have hmem : value ∈ tables.sealedValues profile fromKey := by
            rw [h.left, hleft]
            exact List.mem_cons_self
          rw [show updated = tables.swapCount value from hanswer]
          exact swapCount_ne_zero (mem_sealedValues.mp hmem).2
        show Prog.wp _ (if updated = 0 then _ else _) (tables.swap value resealed) _ _
        rw [if_neg hupdated]
        exact ⟨resealing_swap h hne hleft hopened hsealed, rfl, rfl⟩

theorem wp_resealRows_alone (hne : fromKey ≠ destination.dataKeyId) {values : List SealedValue}
    (rest : List SealedValue) (h : Resealing A fromKey source destination start tables left)
    (hleft : left profile = values ++ rest) (pass : ResealPass) :
    (resealRows A source destination values pass).wp (tablesContract keys) tables
      (fun g pass' => Resealing A fromKey source destination start g (Function.update left profile rest) ∧
        pass'.movedThisPass = pass.movedThisPass + values.length ∧
        pass'.report.batches = pass.report.batches)
      (fun _ _ => True) := by
  induction values generalizing tables left pass with
  | nil =>
    refine ⟨?_, rfl, rfl⟩
    rw [← show left profile = rest from hleft, Function.update_eq_self]
    exact h
  | cons value values ih =>
    rw [resealRows]
    refine Prog.wp_bind_mono (wp_resealRow_alone h hne hleft pass) ?_
    rintro g pass₁ ⟨hnext, hmoved, hbatches⟩
    refine Prog.wp_mono (ih hnext (Function.update_self ..) pass₁) ?_ (fun _ _ h => h)
    rintro g' pass₂ ⟨hend, hmoved', hbatches'⟩
    rw [Function.update_idem] at hend
    refine ⟨hend, ?_, hbatches'.trans hbatches⟩
    rw [hmoved', hmoved, List.length_cons]
    omega

theorem wp_resealColumns_alone (hne : fromKey ≠ destination.dataKeyId) (batch : Nat)
    (hbatch : 1 ≤ batch) {profiles : List AadProfile} (hnodup : profiles.Nodup)
    (h : Resealing A fromKey source destination start tables left) (pass : ResealPass) :
    (resealColumns A source destination fromKey batch profiles pass).wp (tablesContract keys) tables
      (fun g pass' => Resealing A fromKey source destination start g
          (fun p => if p ∈ profiles then (left p).drop batch else left p) ∧
        pass'.report.batches = pass.report.batches ∧ pass.movedThisPass ≤ pass'.movedThisPass ∧
        (pass'.movedThisPass = pass.movedThisPass → ∀ p ∈ profiles, left p = []))
      (fun _ _ => True) := by
  induction profiles generalizing tables left pass with
  | nil => exact ⟨by simpa using h, rfl, le_rfl, fun _ p hp => by cases hp⟩
  | cons profile profiles ih =>
    rw [List.nodup_cons] at hnodup
    rw [resealColumns]
    refine ⟨trivial, fun answer hanswer => ?_⟩
    cases answer with
    | none => trivial
    | some values =>
      have hvalues : values = (left profile).take batch := by
        rw [← h.left]
        exact hanswer
      show Prog.wp _ (resealRows A source destination values pass >>= _) tables _ _
      refine Prog.wp_bind_mono (wp_resealRows_alone hne ((left profile).drop batch) h
        (by rw [hvalues, List.take_append_drop]) pass) ?_
      rintro g pass₁ ⟨hnext, hmoved, hbatches⟩
      refine Prog.wp_mono (ih hnodup.2 hnext pass₁) ?_ (fun _ _ h => h)
      rintro g' pass₂ ⟨hend, hbatches', hle, hnothing⟩
      have hothers : ∀ p ∈ profiles, p ≠ profile := fun p hp heq => hnodup.1 (heq ▸ hp)
      refine ⟨?_, hbatches'.trans hbatches, by omega, fun heq => ?_⟩
      · convert hend using 1
        funext p
        by_cases hp : p = profile
        · subst hp
          simp [hnodup.1]
        · simp [hp]
      · -- nothing was moved, so every batch was empty
        have hempty : values.length = 0 := by omega
        intro p hp
        rcases List.mem_cons.mp hp with rfl | hp
        · rw [hvalues, List.length_take] at hempty
          exact List.eq_nil_of_length_eq_zero (by omega)
        · have hp' := hnothing (by omega) p hp
          rwa [Function.update_of_ne (hothers p hp)] at hp'

end Progress

/-! ## The passes -/

/-- The values of a column that the passes reach. -/
def ResealOptions.reached (options : ResealOptions) (values : List SealedValue) : List SealedValue :=
  match options.maxBatches with
  | none => values
  | some maxBatches => values.take (max maxBatches 1 * max options.batch 1)

/-- The values behind them. -/
def ResealOptions.remaining (options : ResealOptions) (values : List SealedValue) :
    List SealedValue :=
  match options.maxBatches with
  | none => []
  | some maxBatches => values.drop (max maxBatches 1 * max options.batch 1)

theorem ResealOptions.reached_append_remaining (options : ResealOptions) (values : List SealedValue) :
    options.reached values ++ options.remaining values = values := by
  unfold reached remaining
  split
  · exact List.append_nil _
  · exact List.take_append_drop _ _

section Alone

variable (A : Aead) (keyCheckValue : DataKey → FixedBytes 8) (custody : EnvironmentMasterKeyCustody)
  (keys : KeyTable) (fromKey toKey : RawUuid) (options : ResealOptions) (start : ContentTables)

/-- The cipher `cipher_for` gives for an id. -/
def cipherOfId (id : RawUuid) : Except KeyringAdminError ContentCipher :=
  cipherOfRow A keyCheckValue custody id (keys.rows.find? fun row => row.id = id)

/-- The two ciphers of a run. -/
structure Ciphers (source destination : ContentCipher) : Prop where
  ne : fromKey ≠ toKey
  source_eq : cipherOfId A keyCheckValue custody keys fromKey = .ok source
  destination_eq : cipherOfId A keyCheckValue custody keys toKey = .ok destination

/-- What is known at a control point when no writer has moved. -/
def aloneAt : ResealPoint → ContentTables → Prop
  | .start, tables => tables = start
  | .pass source destination report, tables =>
    Ciphers A keyCheckValue custody keys fromKey toKey source destination ∧
      Resealing A fromKey source destination start tables
        (fun p => (start.sealedValues p fromKey).drop (report.batches * max options.batch 1)) ∧
      ∀ maxBatches, options.maxBatches = some maxBatches → report.batches < max maxBatches 1
  | .returned (.ok _), tables => ∃ source destination,
    Ciphers A keyCheckValue custody keys fromKey toKey source destination ∧
      Resealing A fromKey source destination start tables
        (fun p => options.remaining (start.sealedValues p fromKey))
  | .returned (.error _), _ => True

end Alone

variable {cipher : ContentCipher}

section AloneCode

variable {A : Aead} {keyCheckValue : DataKey → FixedBytes 8} {custody : EnvironmentMasterKeyCustody}
  {keys : KeyTable} {fromKey toKey : RawUuid} {options : ResealOptions} {start : ContentTables}

theorem row_of_cipherOfId {id : RawUuid}
    (h : cipherOfId A keyCheckValue custody keys id = .ok cipher) :
    ∃ row ∈ keys.rows, row.id = id ∧ row.state.isUnwrappedAtLoad ∧
      unwrapRow A keyCheckValue custody row = .ok cipher.key ∧ cipher.dataKeyId = id := by
  unfold cipherOfId at h
  cases hfound : keys.rows.find? fun row => row.id = id with
  | none =>
    rw [hfound] at h
    cases h
  | some row =>
    have hid : row.id = id := by simpa using List.find?_some hfound
    rw [hfound, cipherOfRow] at h
    split at h
    · cases h
    rename_i hload
    split at h
    · cases h
    rename_i dataKey hunwrap
    cases h
    exact ⟨row, List.mem_of_find?_eq_some hfound, hid, not_not.mp hload, hunwrap, hid⟩

theorem wp_cipherFor_alone (id : RawUuid) (tables : ContentTables) :
    (cipherFor A keyCheckValue custody id).wp (tablesContract keys) tables
      (fun g cipher => g = tables ∧ cipherOfId A keyCheckValue custody keys id = .ok cipher)
      (fun _ _ => True) := by
  refine ⟨trivial, fun answer hanswer => ?_⟩
  cases answer with
  | none => trivial
  | some found =>
    have hfound : found = keys.rows.find? fun row => row.id = id := hanswer
    show Prog.wp _ (Prog.ofExcept (cipherOfRow A keyCheckValue custody id found)) tables _ _
    subst hfound
    cases hcipher : cipherOfRow A keyCheckValue custody id (keys.rows.find? fun row => row.id = id) with
    | error e => trivial
    | ok cipher => exact ⟨rfl, hcipher⟩

theorem aloneAt_afterPass {source destination : ContentCipher}
    (hciphers : Ciphers A keyCheckValue custody keys fromKey toKey source destination)
    {report : ResealReport}
    (hbound : ∀ maxBatches, options.maxBatches = some maxBatches → report.batches < max maxBatches 1)
    {pass : ResealPass} (hbatches : pass.report.batches = report.batches)
    (hnothing : pass.movedThisPass = 0 → ∀ p : AadProfile,
      (start.sealedValues p fromKey).drop (report.batches * max options.batch 1) = [])
    (h : Resealing A fromKey source destination start tables fun p =>
      ((start.sealedValues p fromKey).drop (report.batches * max options.batch 1)).drop
        (max options.batch 1)) :
    aloneAt A keyCheckValue custody keys fromKey toKey options start
      (afterPass options source destination pass) tables := by
  have hnext : ∀ p, ((start.sealedValues p fromKey).drop (report.batches * max options.batch 1)).drop
      (max options.batch 1) =
      (start.sealedValues p fromKey).drop ((report.batches + 1) * max options.batch 1) := by
    intro p
    rw [List.drop_drop, Nat.succ_mul]
  unfold afterPass
  simp only
  split
  · rename_i hzero
    refine ⟨source, destination, hciphers, h.rows, fun p => ?_⟩
    have hempty := hnothing hzero p
    rw [h.left, hempty, List.drop_nil]
    unfold ResealOptions.remaining
    split
    · rfl
    · rename_i maxBatches hmax
      have hlen := List.drop_eq_nil_iff.mp hempty
      symm
      apply List.drop_eq_nil_of_le
      refine hlen.trans (Nat.mul_le_mul_right _ ?_)
      exact (hbound maxBatches hmax).le
  · split
    · rename_i hstop
      obtain ⟨maxBatches, hmax, hle⟩ := (Option.any_eq_true _ _).mp hstop
      refine ⟨source, destination, hciphers, h.rows, fun p => ?_⟩
      have hpasses : report.batches + 1 = max maxBatches 1 := by
        have hlt := hbound maxBatches hmax
        rw [hbatches] at hle
        simp only [decide_eq_true_eq] at hle
        omega
      rw [h.left, hnext, ResealOptions.remaining, hmax, hpasses]
    · rename_i hgo
      refine ⟨hciphers, ⟨h.rows, fun p => ?_⟩, fun maxBatches hmax => ?_⟩
      · rw [h.left, hnext, hbatches]
      · rw [hmax] at hgo
        simp only [Option.any_some, decide_eq_true_eq] at hgo
        show pass.report.batches + 1 < _
        omega

theorem wp_resealCode_alone (point : ResealPoint) (tables : ContentTables)
    (h : aloneAt A keyCheckValue custody keys fromKey toKey options start point tables) :
    (resealCode A keyCheckValue custody fromKey toKey options point).wp (tablesContract keys) tables
      (fun g point => ∀ next, point = some next →
        aloneAt A keyCheckValue custody keys fromKey toKey options start next g)
      (fun _ _ => True) := by
  cases point with
  | start =>
    obtain rfl : tables = start := h
    apply wp_orReturned (fun _ _ => trivial)
    unfold resealStart
    split
    · trivial
    · rename_i hne
      refine Prog.wp_bind_mono (wp_cipherFor_alone fromKey tables) ?_
      rintro _ source ⟨rfl, hsource⟩
      refine Prog.wp_bind_mono (wp_cipherFor_alone toKey _) ?_
      rintro g destination ⟨rfl, hdestination⟩
      refine ⟨⟨hne, hsource, hdestination⟩, ⟨?_, fun p => by simp⟩, fun maxBatches _ => by simp⟩
      exact List.forall₂_same.mpr fun row _ => ⟨rfl, .inl rfl⟩
  | pass source destination report =>
    obtain ⟨hciphers, hresealing, hbound⟩ := h
    have hne : fromKey ≠ destination.dataKeyId := by
      obtain ⟨row, -, -, -, -, hid⟩ := row_of_cipherOfId hciphers.destination_eq
      rw [hid]
      exact hciphers.ne
    have hall : ∀ p : AadProfile, p ∈ AadProfile.all := fun p => by cases p <;> decide
    apply wp_orReturned (fun _ _ => trivial)
    unfold resealPass
    refine Prog.wp_bind_mono (wp_resealColumns_alone hne _ (le_max_right _ _) (by decide)
      hresealing _) ?_
    rintro g pass ⟨hend, hbatches, -, hnothing⟩
    refine aloneAt_afterPass hciphers hbound hbatches (fun hzero p => hnothing hzero p (hall p)) ?_
    simpa only [hall, if_true] using hend
  | returned result =>
    rintro next ⟨⟩

end AloneCode

section AloneOutline

variable (A : Aead) (keyCheckValue : DataKey → FixedBytes 8) (custody : EnvironmentMasterKeyCustody)
  (keys : KeyTable) (fromKey toKey : RawUuid) (options : ResealOptions)
  (writes : Nat → ForeignWrite fromKey) (start : ContentTables)

/-- The condition on a step: no writer moves. -/
def NoWriter : (i : ResealParty) → ResealWorld →
    ((resealSystem A keyCheckValue custody keys fromKey toKey options writes).sig i).Op → Prop
  | .reseal, _, _ => True
  | .writer _, _, _ => False

abbrev AloneGhost : ResealParty → Type
  | .reseal => ContentTables
  | .writer _ => Unit

def aloneContracts : (i : ResealParty) →
    Contract ((resealSystem A keyCheckValue custody keys fromKey toKey options writes).sig i)
      (AloneGhost i)
  | .reseal => tablesContract keys
  | .writer _ => trivialContract _

def alonePoints : (i : ResealParty) →
    (resealSystem A keyCheckValue custody keys fromKey toKey options writes).Point i →
      AloneGhost i → Prop
  | .reseal => aloneAt A keyCheckValue custody keys fromKey toKey options start
  | .writer _ => fun _ _ => True

theorem tables_grant {w w' : ResealWorld} {o : ResealOp} {x : resealSig.Ans o}
    (h : grantReseal keys w o x = some w') :
    (tablesContract keys).answers w.tables o x ∧
      w'.tables = (tablesContract keys).next w.tables o x := by
  cases o with
  | keyRow id =>
    cases x with
    | none =>
      cases h
      exact ⟨trivial, rfl⟩
    | some found =>
      simp only [grantReseal] at h
      split at h
      · rename_i hfound
        cases h
        exact ⟨hfound, rfl⟩
      · cases h
  | selectSealedBatch profile dataKeyId batch =>
    cases x with
    | none =>
      cases h
      exact ⟨trivial, rfl⟩
    | some values =>
      simp only [grantReseal] at h
      split at h
      · rename_i hvalues
        cases h
        exact ⟨hvalues, rfl⟩
      · cases h
  | drawNonce =>
    cases h
    exact ⟨trivial, rfl⟩
  | swap value resealed =>
    cases x with
    | none =>
      cases h
      exact ⟨trivial, rfl⟩
    | some updated =>
      simp only [grantReseal] at h
      split at h
      · rename_i hupdated
        cases h
        exact ⟨hupdated, rfl⟩
      · cases h

/-- The tables throughout a run without writers. -/
def aloneOutline :
    System.Outline (resealSystem A keyCheckValue custody keys fromKey toKey options writes) where
  Ghost := AloneGhost
  contract := aloneContracts A keyCheckValue custody keys fromKey toKey options writes
  at_ := alonePoints A keyCheckValue custody keys fromKey toKey options writes start
  shared w γ := w.tables = γ .reseal
  guard := NoWriter A keyCheckValue custody keys fromKey toKey options writes
  code_ok i l g h := by
    cases i with
    | reseal => exact wp_resealCode_alone l g h
    | writer n => exact ⟨trivial, fun _ _ _ _ => trivial⟩
  act_ok i w o x w' γ hshared hguard hmay hgrant := by
    cases i with
    | reseal =>
      obtain ⟨hanswers, hnext⟩ := tables_grant keys hgrant
      rw [hshared] at hanswers hnext
      refine ⟨hanswers, ?_⟩
      rw [Function.update_self]
      exact hnext
    | writer n => exact hguard.elim
  nature_ok _ e := nomatch e

theorem aloneOutline_initial :
    (aloneOutline A keyCheckValue custody keys fromKey toKey options writes start).Holds
      (resealInitial A keyCheckValue custody keys fromKey toKey options writes start) := by
  refine ⟨fun | .reseal => start | .writer _ => (), rfl, fun i => ?_⟩
  cases i with
  | reseal =>
    rintro l ⟨⟩
    rfl
  | writer n =>
    rintro l ⟨⟩
    trivial

end AloneOutline

/-! ## Readers -/

variable {envelope : Bytes} {text : String}

section Readers

variable {A : Aead} {keyCheckValue : DataKey → FixedBytes 8} {custody : EnvironmentMasterKeyCustody}
  {keys : KeyTable} {fromKey toKey : RawUuid}

/-- What a reader makes of a row. -/
theorem openWithSnapshot_eq_ok {snapshot : KeyringSnapshot} {identity : ContentIdentity} :
    (openWithSnapshot A snapshot envelope identity).2 = .ok text ↔
      ∃ header entry cipher plaintext, EnvelopeHeader.parse envelope = .ok header ∧
        snapshot.entry header.dataKeyId = some entry ∧ entry.cipher = .ok cipher ∧
        cipher.open A envelope identity = .ok plaintext ∧
        String.fromUTF8? ⟨plaintext.toArray⟩ = some text := by
  constructor
  · intro h
    unfold openWithSnapshot at h
    simp only at h
    split at h
    · cases h
    rename_i header hparse
    split at h
    · cases h
    rename_i entry hentry
    split at h
    · cases h
    · cases h
    rename_i cipher hcipher
    split at h
    · cases h
    rename_i plaintext hopen
    split at h
    · cases h
    rename_i found htext
    cases h
    exact ⟨header, entry, cipher, plaintext, hparse, hentry, hcipher, hopen, htext⟩
  · rintro ⟨header, entry, cipher, plaintext, hparse, hentry, hcipher, hopen, htext⟩
    simp only [openWithSnapshot, hparse, hentry, hcipher, hopen, htext]

theorem open_of_seal (hround : A.RoundTrips) {identity : ContentIdentity}
    (h : cipher.sealWithNonce A identity plaintext nonce = .ok envelope) :
    cipher.open A envelope identity = .ok plaintext := by
  have houtput : SealCall.output A { cipher, identity, plaintext, nonce } = .ok envelope := h
  apply ContentCipher.open_of_decrypt (SealCall.parse_output houtput) rfl rfl
  rw [SealCall.take_output houtput, SealCall.drop_output houtput]
  exact hround ..

end Readers

section Readable

variable (A : Aead) (keyCheckValue : DataKey → FixedBytes 8) (custody : EnvironmentMasterKeyCustody)
  (keys : KeyTable)

/-- A freshly loaded snapshot opens the row to this text. -/
def ReadableAs (row : SealedRow) (text : String) : Prop :=
  ∃ snapshot envelope, loadSnapshot A keyCheckValue custody keys 0 = .ok snapshot ∧
    row.envelope = some envelope ∧ (openWithSnapshot A snapshot envelope row.identity).2 = .ok text

/-- What could be read can still be read, and rows under other keys are as they were. -/
def ReadersKept (fromKey : RawUuid) (before after : ContentTables) : Prop :=
  (∀ row ∈ before.rows, ∀ text, ReadableAs A keyCheckValue custody keys row text →
    ∃ row' ∈ after.rows, row'.identity = row.identity ∧
      ReadableAs A keyCheckValue custody keys row' text) ∧
  ∀ row ∈ before.rows, row.namesKey fromKey = false → row ∈ after.rows

end Readable

section ReadMoved

variable {A : Aead} {keyCheckValue : DataKey → FixedBytes 8}
  {custody : EnvironmentMasterKeyCustody} {keys : KeyTable} {fromKey toKey : RawUuid}
  {options : ResealOptions} {source destination : ContentCipher} {start : ContentTables}

theorem readableAs_iff {keyRow : KeyringRow} (hkey : keyRow ∈ keys.rows)
    (hload : keyRow.state.isUnwrappedAtLoad) {dataKey : DataKey}
    (hunwrap : unwrapRow A keyCheckValue custody keyRow = .ok dataKey)
    (hstored : row.envelope = some envelope)
    (hnames : contentEnvelopeDataKeyId envelope = some keyRow.id) :
    ReadableAs A keyCheckValue custody keys row text ↔
      (∃ snapshot, loadSnapshot A keyCheckValue custody keys 0 = .ok snapshot) ∧
        keyRow.purpose = .content ∧ ∃ plaintext,
          ContentCipher.open A { dataKeyId := keyRow.id, key := dataKey } envelope row.identity =
            .ok plaintext ∧ String.fromUTF8? ⟨plaintext.toArray⟩ = some text := by
  have hentry : ∀ snapshot, loadSnapshot A keyCheckValue custody keys 0 = .ok snapshot →
      snapshot.entry keyRow.id = some (keyEntry keyRow (some (openedKey keyRow dataKey))) := by
    intro snapshot hsnapshot
    obtain ⟨dataKey', hunwrap', hentry⟩ := entry_of_loadSnapshot hsnapshot hkey hload
    rw [hunwrap] at hunwrap'
    cases hunwrap'
    exact hentry
  constructor
  · rintro ⟨snapshot, envelope', hsnapshot, hstored', hread⟩
    obtain rfl := Option.some.inj (hstored.symm.trans hstored')
    obtain ⟨header, entry, cipher, plaintext, hparse, hfound, hcipher, hopen, htext⟩ :=
      openWithSnapshot_eq_ok.mp hread
    have hid : header.dataKeyId = keyRow.id :=
      Option.some.inj ((contentEnvelopeDataKeyId_of_parse hparse).symm.trans hnames)
    rw [hid, hentry snapshot hsnapshot] at hfound
    obtain rfl := Option.some.inj hfound
    cases hpurpose : keyRow.purpose with
    | content =>
      simp only [KeyEntry.cipher, keyEntry, openedKey, hpurpose, Except.ok.injEq] at hcipher
      subst hcipher
      exact ⟨⟨snapshot, hsnapshot⟩, rfl, plaintext, hopen, htext⟩
    | memoryDedupe =>
      simp only [KeyEntry.cipher, keyEntry, openedKey, hpurpose] at hcipher
      cases hcipher
  · rintro ⟨⟨snapshot, hsnapshot⟩, hpurpose, plaintext, hopen, htext⟩
    refine ⟨snapshot, envelope, hsnapshot, hstored, openWithSnapshot_eq_ok.mpr ?_⟩
    obtain ⟨header, hparse, -, hid, -⟩ := ContentCipher.open_eq_ok hopen
    refine ⟨header, keyEntry keyRow (some (openedKey keyRow dataKey)), _, plaintext, hparse, ?_, ?_,
      hopen, htext⟩
    · rw [hid]
      exact hentry snapshot hsnapshot
    · simp only [KeyEntry.cipher, keyEntry, openedKey, hpurpose]

theorem readableAs_cipher {id : RawUuid}
    (hcipher : cipherOfId A keyCheckValue custody keys id = .ok cipher)
    (hstored : row.envelope = some envelope)
    (hnames : contentEnvelopeDataKeyId envelope = some id) :
    ReadableAs A keyCheckValue custody keys row text ↔
      (∃ snapshot, loadSnapshot A keyCheckValue custody keys 0 = .ok snapshot) ∧
        (∀ keyRow ∈ keys.rows, keyRow.id = id → keyRow.purpose = .content) ∧
          ∃ plaintext, cipher.open A envelope row.identity = .ok plaintext ∧
            String.fromUTF8? ⟨plaintext.toArray⟩ = some text := by
  obtain ⟨keyRow, hkey, hid, hload, hunwrap, hcipherId⟩ := row_of_cipherOfId hcipher
  have hpurpose : (∀ other ∈ keys.rows, other.id = id → other.purpose = .content) ↔
      keyRow.purpose = .content := by
    constructor
    · exact fun h => h keyRow hkey hid
    · intro h other hother hsame
      rwa [List.inj_on_of_nodup_map keys.id_unique hother hkey (hsame.trans hid.symm)]
  have heq : cipher = { dataKeyId := keyRow.id, key := cipher.key } := by
    ext1
    · exact hcipherId.trans hid.symm
    · rfl
  rw [readableAs_iff hkey hload hunwrap hstored (hid ▸ hnames), hpurpose, ← heq]

/-- What a reader makes of a moved row. -/
theorem readableAs_moved (hround : A.RoundTrips)
    (hciphers : Ciphers A keyCheckValue custody keys fromKey toKey source destination)
    (hidentity : new.identity = old.identity)
    (hmoved : Moved A fromKey source destination old new envelope plaintext resealed)
    (hread : ReadableAs A keyCheckValue custody keys old text) :
    ReadableAs A keyCheckValue custody keys new text ↔
      ∀ keyRow ∈ keys.rows, keyRow.id = toKey → keyRow.purpose = .content := by
  obtain ⟨hload, -, plaintext', hopen, htext⟩ :=
    (readableAs_cipher hciphers.source_eq hmoved.stored hmoved.names).mp hread
  rw [hmoved.opened] at hopen
  cases hopen
  obtain ⟨nonce, hsealed⟩ := hmoved.sealed
  have hnames : contentEnvelopeDataKeyId resealed = some toKey := by
    obtain ⟨row, -, -, -, -, hid⟩ := row_of_cipherOfId hciphers.destination_eq
    rw [contentEnvelopeDataKeyId_of_seal hsealed, hid]
  rw [readableAs_cipher hciphers.destination_eq hmoved.replaced hnames, hidentity]
  constructor
  · exact fun h => h.2.1
  · exact fun h => ⟨hload, h, plaintext, open_of_seal hround hsealed, htext⟩

/-! ## Which rows are moved -/

theorem sealed_row (hrow : row ∈ tables.rows) (hstored : row.envelope = some envelope)
    (hnames : contentEnvelopeDataKeyId envelope = some fromKey) :
    { identity := row.identity, envelope } ∈
      tables.sealedValues row.identity.profile fromKey := by
  refine mem_sealedValues.mpr ⟨rfl, row, hrow, ?_⟩
  exact sealedUnder_eq_some.mpr ⟨rfl, hstored, hnames⟩

theorem successor_of_resealing {before after : List SealedRow}
    (h : List.Forall₂ (RowResealed A fromKey source destination) before after)
    (hold : old ∈ before) : ∃ new ∈ after, RowResealed A fromKey source destination old new := by
  induction h with
  | nil => cases hold
  | cons hrow _ ih =>
    rcases List.mem_cons.mp hold with rfl | hold
    · exact ⟨_, List.mem_cons_self, hrow⟩
    · obtain ⟨new, hnew, hrow⟩ := ih hold
      exact ⟨new, List.mem_cons_of_mem _ hnew, hrow⟩

theorem moved_iff_reached (hne : fromKey ≠ destination.dataKeyId)
    (h : Resealing A fromKey source destination start tables
      fun p => options.remaining (start.sealedValues p fromKey))
    (hold : old ∈ start.rows) (hnew : new ∈ tables.rows)
    (hrow : RowResealed A fromKey source destination old new)
    (hstored : old.envelope = some envelope)
    (hnames : contentEnvelopeDataKeyId envelope = some fromKey) :
    { identity := old.identity, envelope } ∈
        options.reached (start.sealedValues old.identity.profile fromKey) ↔
      ∃ plaintext resealed,
        Moved A fromKey source destination old new envelope plaintext resealed := by
  have hvalue := sealed_row hold hstored hnames
  have hsplit := options.reached_append_remaining
    (start.sealedValues old.identity.profile fromKey)
  have hnodup := nodup_sealedValues start old.identity.profile fromKey
  rw [← hsplit] at hvalue hnodup
  obtain ⟨hidentity, hcases⟩ := hrow
  constructor
  · intro hreached
    rcases hcases with hsame | ⟨envelope', plaintext, resealed, hmoved⟩
    · -- a row that still has its value is among the remaining ones
      exfalso
      have hstill := sealed_row hnew (hsame.trans hstored) hnames
      rw [hidentity, h.left] at hstill
      exact (List.nodup_append.mp hnodup).2.2 _ hreached _ hstill rfl
    · obtain rfl := Option.some.inj (hstored.symm.trans hmoved.stored)
      exact ⟨plaintext, resealed, hmoved⟩
  · rintro ⟨plaintext, resealed, hmoved⟩
    rcases List.mem_append.mp hvalue with hreached | hremaining
    · exact hreached
    · exfalso
      rw [← h.left] at hremaining
      obtain ⟨-, home, hhome, hunder⟩ := mem_sealedValues.mp hremaining
      obtain ⟨hhomeIdentity, hhomeStored, -⟩ := sealedUnder_eq_some.mp hunder
      have hkey : home.key = new.key := by
        rw [SealedRow.key, SealedRow.key, hhomeIdentity, hidentity]
      rw [tables.eq_of_key hhome hnew hkey, hmoved.replaced] at hhomeStored
      obtain ⟨nonce, hsealed⟩ := hmoved.sealed
      have hto := contentEnvelopeDataKeyId_of_seal hsealed
      rw [Option.some.inj hhomeStored, hnames] at hto
      exact hne (Option.some.inj hto)

end ReadMoved

section Main

variable (A : Aead) (keyCheckValue : DataKey → FixedBytes 8) (custody : EnvironmentMasterKeyCustody)
  (keys : KeyTable) (fromKey toKey : RawUuid) (options : ResealOptions)

/-- The key `reseal` moves rows to is one that readers use. -/
def TargetReadable : Prop :=
  ∀ keyRow ∈ keys.rows, keyRow.id = toKey → keyRow.purpose = .content

/-- None of the rows that the passes reach could be read. -/
def NothingReadable (start : ContentTables) : Prop :=
  ∀ row ∈ start.rows, ∀ envelope, row.envelope = some envelope →
    { identity := row.identity, envelope } ∈
      options.reached (start.sealedValues row.identity.profile fromKey) →
    ∀ text, ¬ReadableAs A keyCheckValue custody keys row text

variable {A keyCheckValue custody keys fromKey toKey options}

theorem readersKept_iff (hround : A.RoundTrips) {source destination : ContentCipher}
    {start : ContentTables}
    (hciphers : Ciphers A keyCheckValue custody keys fromKey toKey source destination)
    (h : Resealing A fromKey source destination start tables
      fun p => options.remaining (start.sealedValues p fromKey)) :
    ReadersKept A keyCheckValue custody keys fromKey start tables ↔
      TargetReadable keys toKey ∨
        NothingReadable A keyCheckValue custody keys fromKey options start := by
  have hne : fromKey ≠ destination.dataKeyId := by
    obtain ⟨row, -, -, -, -, hid⟩ := row_of_cipherOfId hciphers.destination_eq
    rw [hid]
    exact hciphers.ne
  -- each row has its successor
  have hnext : ∀ old ∈ start.rows, ∃ new ∈ tables.rows,
      RowResealed A fromKey source destination old new := by
    exact fun old hold => successor_of_resealing h.rows hold
  constructor
  · rintro ⟨hreaders, -⟩
    by_contra hneither
    obtain ⟨htarget, hreadable⟩ := not_or.mp hneither
    refine hreadable fun old hold envelope hstored hreached text hread => htarget ?_
    obtain ⟨new, hnew, hrow⟩ := hnext old hold
    have hnames : contentEnvelopeDataKeyId envelope = some fromKey := by
      have hmem := List.mem_append_left
        (options.remaining (start.sealedValues old.identity.profile fromKey)) hreached
      rw [options.reached_append_remaining] at hmem
      exact names_of_sealed (mem_sealedValues.mp hmem).2
    obtain ⟨plaintext, resealed, hmoved⟩ :=
      (moved_iff_reached hne h hold hnew hrow hstored hnames).mp hreached
    obtain ⟨after, hafter, hidentity, hstill⟩ := hreaders old hold text hread
    have hkey : after.key = new.key := by
      rw [SealedRow.key, SealedRow.key, hidentity, hrow.1]
    rw [tables.eq_of_key hafter hnew hkey] at hstill
    exact (readableAs_moved hround hciphers hrow.1 hmoved hread).mp hstill
  · intro hcases
    constructor
    · intro old hold text hread
      obtain ⟨new, hnew, hrow⟩ := hnext old hold
      refine ⟨new, hnew, hrow.1, ?_⟩
      rcases hrow.2 with hsame | ⟨envelope, plaintext, resealed, hmoved⟩
      · obtain ⟨snapshot, envelope, hload, hstored, hopen⟩ := hread
        refine ⟨snapshot, envelope, hload, hsame.trans hstored, ?_⟩
        rwa [hrow.1]
      · rw [readableAs_moved hround hciphers hrow.1 hmoved hread]
        rcases hcases with htarget | hnothing
        · exact htarget
        · exfalso
          have hreached := (moved_iff_reached hne h hold hnew hrow hmoved.stored hmoved.names).mpr
            ⟨plaintext, resealed, hmoved⟩
          exact hnothing old hold envelope hmoved.stored hreached text hread
    · intro old hold hother
      obtain ⟨new, hnew, hidentity, hrow⟩ := hnext old hold
      rcases hrow with hsame | ⟨envelope, plaintext, resealed, hmoved⟩
      · have heq : new = old := by
          cases new
          cases old
          simp_all
        exact heq ▸ hnew
      · rw [SealedRow.namesKey, hmoved.stored, Option.bind_some, hmoved.names] at hother
        simp at hother

variable (writes : Nat → ForeignWrite fromKey)

/--
**What readers see after a reseal**: when `reseal` has returned `Ok` with no writer in between,
readers are served as before if and only if the new key is a content key, or none of the rows it
reached could be read in the first place.
-/
theorem reseal_preserves_readers_iff (hround : A.RoundTrips) (start : ContentTables)
    {moves : List (resealSystem A keyCheckValue custody keys fromKey toKey options writes).Move}
    (hmeets : Transition.Meets
      (resealSystem A keyCheckValue custody keys fromKey toKey options writes).step
      (System.Guarded (NoWriter A keyCheckValue custody keys fromKey toKey options writes))
      (resealInitial A keyCheckValue custody keys fromKey toKey options writes start) moves)
    {t : (resealSystem A keyCheckValue custody keys fromKey toKey options writes).State}
    (hrun : runFrom
      (resealSystem A keyCheckValue custody keys fromKey toKey options writes).step
      (resealInitial A keyCheckValue custody keys fromKey toKey options writes start) moves =
        some t)
    {report : ResealReport}
    (hreturned : t.proc .reseal = .ret (some (ResealPoint.returned (.ok report)))) :
    ReadersKept A keyCheckValue custody keys fromKey start t.world.tables ↔
      TargetReadable keys toKey ∨
        NothingReadable A keyCheckValue custody keys fromKey options start := by
  obtain ⟨γ, hshared, hproc⟩ :=
    (aloneOutline A keyCheckValue custody keys fromKey toKey options writes start).guarded
      (aloneOutline_initial A keyCheckValue custody keys fromKey toKey options writes start) hmeets
      hrun
  have hat := hproc .reseal
  rw [hreturned] at hat
  have hend : aloneAt A keyCheckValue custody keys fromKey toKey options start
      (.returned (.ok report)) (γ .reseal) := hat _ rfl
  obtain ⟨source, destination, hciphers, hresealing⟩ := hend
  have htables : t.world.tables = γ .reseal := hshared
  rw [htables]
  exact readersKept_iff hround hciphers hresealing

end Main

namespace Sample

def storedMessage : ContentTables where
  rows := [{ identity := message 1 1, envelope := some (stored firstOld sealedFirstOld) }]
  key_unique := List.nodup_singleton _

abbrev resealingOnto (toKey : RawUuid) : System ResealParty :=
  resealSystem resealCipher checkValueOf custody resealKeys oldKeyId toKey {} fun _ => edit

abbrev ontoInitial (toKey : RawUuid) : (resealingOnto toKey).State :=
  resealInitial resealCipher checkValueOf custody resealKeys oldKeyId toKey {} (fun _ => edit)
    storedMessage

/-- `reseal` alone: a statement with its nonce, or the jump to its next point. -/
def aloneMove {toKey : RawUuid} (s : (resealingOnto toKey).State) :
    Option Nat → (resealingOnto toKey).Move
  | some nonceStart => .act .reseal (workingDatabase s.world (nonceFrom nonceStart))
  | none => .jump .reseal

def performAlone (toKey : RawUuid) :
    List (Option Nat) → (resealingOnto toKey).State → List (resealingOnto toKey).Move
  | [], _ => []
  | cue :: rest, s =>
    aloneMove s cue ::
      (((resealingOnto toKey).step s (aloneMove s cue)).map (performAlone toKey rest)).getD []

/-- One row is moved, and the second pass finds nothing. -/
def aloneCues (nonceStart : Nat) : List (Option Nat) :=
  [none, some 0, some 0, none, some 0, some nonceStart, some 0, some 0, some 0, some 0, some 0, none,
    some 0, some 0, some 0, some 0, some 0]

def aloneMoves (toKey : RawUuid) (nonceStart : Nat) : List (resealingOnto toKey).Move :=
  performAlone toKey (aloneCues nonceStart) (ontoInitial toKey)

/-- What `reseal` has returned, and the sealed columns then. -/
def endOf {toKey : RawUuid} (s : (resealingOnto toKey).State) :
    Option ResealReport × List SealedRow :=
  (match s.proc .reseal with
    | .ret (some (.returned (.ok report))) => some report
    | _ => none, s.world.tables.rows)

theorem proc_of_endOf {toKey : RawUuid} {s : (resealingOnto toKey).State} {report : ResealReport}
    {rows : List SealedRow} (h : endOf s = (some report, rows)) :
    s.proc .reseal = .ret (some (ResealPoint.returned (.ok report))) ∧ s.world.tables.rows = rows := by
  unfold endOf at h
  obtain ⟨hreport, hrows⟩ := Prod.mk.inj h
  refine ⟨?_, hrows⟩
  split at hreport
  · rename_i found hproc
    rw [hproc, Option.some.inj hreport]
  · cases hreport

instance (toKey : RawUuid) (s : (resealingOnto toKey).State) (m : (resealingOnto toKey).Move) :
    Decidable (System.Guarded (NoWriter resealCipher checkValueOf custody resealKeys oldKeyId toKey
      {} fun _ => edit) s m) :=
  @System.instDecidableGuarded _ (resealingOnto toKey) _
    (fun
      | .reseal, _, _ => isTrue trivial
      | .writer _, _, _ => isFalse id) s m

/-- The row reads as the text that was sealed. -/
def readText (row : SealedRow) : Option String :=
  (loadSnapshot resealCipher checkValueOf custody resealKeys 0).toOption.bind fun snapshot =>
    row.envelope.bind fun envelope =>
      (openWithSnapshot resealCipher snapshot envelope row.identity).2.toOption

theorem readableAs_iff_readText :
    ReadableAs resealCipher checkValueOf custody resealKeys row text ↔ readText row = some text := by
  unfold ReadableAs readText
  cases hload : loadSnapshot resealCipher checkValueOf custody resealKeys 0 with
  | error e => simp [Except.toOption]
  | ok snapshot =>
    cases hstored : row.envelope with
    | none => simp [Except.toOption]
    | some envelope =>
      cases hread : (openWithSnapshot resealCipher snapshot envelope row.identity).2 <;>
        simp [Except.toOption, hread]

end Sample

open Sample in
theorem reseal_preserves_readers_iff_newKey :
    ∃ t, runFrom (resealingOnto newKeyId).step (ontoInitial newKeyId)
        (aloneMoves newKeyId 0x60) = some t ∧
      t.world.tables.rows =
        [{ identity := message 1 1, envelope := some (stored firstNew sealedFirstNew) }] ∧
      ReadersKept resealCipher checkValueOf custody resealKeys oldKeyId storedMessage
        t.world.tables := by
  have hmoves : (runFrom (resealingOnto newKeyId).step (ontoInitial newKeyId)
      (aloneMoves newKeyId 0x60)).map endOf =
        some (some { resealed := 1, skipped := 0, batches := 2 },
          [{ identity := message 1 1, envelope := some (stored firstNew sealedFirstNew) }]) := by
    decide +kernel
  obtain ⟨t, hrun, hend⟩ := Option.map_eq_some_iff.mp hmoves
  obtain ⟨hreturned, hrows⟩ := proc_of_endOf hend
  have hmeets : Transition.Meets (resealingOnto newKeyId).step
      (System.Guarded (NoWriter resealCipher checkValueOf custody resealKeys oldKeyId newKeyId {}
        fun _ => edit)) (ontoInitial newKeyId) (aloneMoves newKeyId 0x60) := by
    decide +kernel
  refine ⟨t, hrun, hrows, ?_⟩
  refine (reseal_preserves_readers_iff (fun _ => edit) roundTrips_resealCipher storedMessage hmeets
    hrun hreturned).mpr (.inl ?_)
  unfold TargetReadable
  decide +kernel

open Sample in
/-- Resealed onto a dedupe key, the message can be read by nobody. -/
theorem reseal_loses_a_row_dedupeKey :
    ∃ t, runFrom (resealingOnto dedupeKeyId).step (ontoInitial dedupeKeyId)
        (aloneMoves dedupeKeyId 0x80) = some t ∧
      t.proc .reseal =
        .ret (some (ResealPoint.returned (.ok { resealed := 1, skipped := 0, batches := 2 }))) ∧
      ¬ReadersKept resealCipher checkValueOf custody resealKeys oldKeyId storedMessage
        t.world.tables := by
  have hmoves : (runFrom (resealingOnto dedupeKeyId).step (ontoInitial dedupeKeyId)
      (aloneMoves dedupeKeyId 0x80)).map endOf =
        some (some { resealed := 1, skipped := 0, batches := 2 },
          [{ identity := message 1 1, envelope := some (stored firstDedupe sealedFirstDedupe) }]) := by
    decide +kernel
  obtain ⟨t, hrun, hend⟩ := Option.map_eq_some_iff.mp hmoves
  obtain ⟨hreturned, hrows⟩ := proc_of_endOf hend
  refine ⟨t, hrun, hreturned, fun hkept => ?_⟩
  have hbefore : ReadableAs resealCipher checkValueOf custody resealKeys
      { identity := message 1 1, envelope := some (stored firstOld sealedFirstOld) } "hello" := by
    rw [readableAs_iff_readText]
    decide +kernel
  obtain ⟨row, hrow, -, hafter⟩ := hkept.1 _ List.mem_cons_self "hello" hbefore
  rw [hrows, List.mem_singleton] at hrow
  rw [hrow, readableAs_iff_readText] at hafter
  have hnone : readText
      { identity := message 1 1, envelope := some (stored firstDedupe sealedFirstDedupe) } = none := by
    decide +kernel
  rw [hnone] at hafter
  cases hafter

end Moira.Keyring
