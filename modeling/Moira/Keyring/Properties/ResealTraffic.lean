import Moira.Keyring.Properties.ResealTables

/-!
# Resealing under live traffic

A swap that finds other bytes has lost its row to a writer, and skips it. The writers' values are
never overwritten. The loop ends on a pass that moved nothing; that pass has cleared every column,
unless the limit cut a batch off and writers took all of its rows.

- **`reseal_finishes`** — the condition, over whole runs
-/

namespace Moira.Keyring

open Transition (runFrom)
open Bytes

/-! ## The contract of `reseal` -/

/-- A batch as `reseal` sees it: the rows it has still to swap, and whether one was swapped. -/
structure SeenBatch where
  profile : AadProfile
  rest : List SealedValue
  swapped : Bool

/-- One row less, with what its swap was answered. -/
def SeenBatch.pop (b : SeenBatch) (updated : Nat) : SeenBatch :=
  { b with rest := b.rest.tail, swapped := b.swapped || updated ≠ 0 }

/-- What `reseal` knows while it runs, batch by batch. -/
def resealContract (fromKey toKey : RawUuid) : Contract resealSig (List SeenBatch) where
  may g
    | .selectSealedBatch _ dataKeyId batch =>
      dataKeyId = fromKey ∧ 1 ≤ batch ∧ ∀ b ∈ g, b.rest = []
    | .swap value resealed =>
      (∃ b bs, g = b :: bs ∧ b.rest.head? = some value ∧ ∀ b' ∈ bs, b'.rest = []) ∧
        contentEnvelopeDataKeyId value.envelope = some fromKey ∧
        contentEnvelopeDataKeyId resealed = some toKey ∧ fromKey ≠ toKey
    | _ => True
  answers _ o x :=
    match o, x with
    | .keyRow id, some (some row) => row.id = id
    | .selectSealedBatch profile dataKeyId _, some values =>
      ∀ value ∈ values, value.identity.profile = profile ∧
        contentEnvelopeDataKeyId value.envelope = some dataKeyId
    | _, _ => True
  next g o x :=
    match o, x with
    | .selectSealedBatch profile _ _, some values => ⟨profile, values, false⟩ :: g
    | .swap .., some updated =>
      match g with
      | b :: bs => b.pop updated :: bs
      | [] => []
    | _, _ => g

variable {value : SealedValue} {b : SeenBatch} {bs g : List SeenBatch}

section Code

variable {A : Aead} {keyCheckValue : DataKey → FixedBytes 8} {custody : EnvironmentMasterKeyCustody}
  {fromKey toKey : RawUuid} {source destination : ContentCipher} {options : ResealOptions}

theorem wp_resealRow (hne : fromKey ≠ toKey) (hdestination : destination.dataKeyId = toKey)
    (hnames : contentEnvelopeDataKeyId value.envelope = some fromKey)
    (hhead : b.rest.head? = some value) (hbs : ∀ b' ∈ bs, b'.rest = []) (pass : ResealPass) :
    (resealRow A source destination pass value).wp (resealContract fromKey toKey) (b :: bs)
      (fun g pass' => ∃ updated, g = b.pop updated :: bs ∧
        pass'.movedThisPass = pass.movedThisPass + if updated = 0 then 0 else 1)
      (fun _ _ => True) := by
  unfold resealRow
  rw [Prog.wp_bind]
  cases source.open A value.envelope value.identity with
  | error e => trivial
  | ok plaintext =>
    refine ⟨trivial, fun nonce _ => ?_⟩
    show Prog.wp _ (orUnreadable value _ >>= _) _ _ _
    rw [Prog.wp_bind]
    cases hseal : destination.sealWithNonce A value.identity plaintext nonce with
    | error e => trivial
    | ok resealed =>
      have hto : contentEnvelopeDataKeyId resealed = some toKey := by
        rw [contentEnvelopeDataKeyId_of_seal hseal, hdestination]
      refine ⟨⟨⟨b, bs, rfl, hhead, hbs⟩, hnames, hto, hne⟩, fun answer _ => ?_⟩
      cases answer with
      | none => trivial
      | some updated =>
        show Prog.wp _ (if updated = 0 then _ else _) (b.pop updated :: bs) _ _
        split
        · rename_i hlost
          exact ⟨updated, rfl, by simp [hlost]⟩
        · rename_i hmoved
          exact ⟨updated, rfl, by simp [hmoved]⟩

theorem wp_resealRows (hne : fromKey ≠ toKey) (hdestination : destination.dataKeyId = toKey)
    {values : List SealedValue}
    (hnames : ∀ value ∈ values, contentEnvelopeDataKeyId value.envelope = some fromKey)
    (hrest : b.rest = values) (hbs : ∀ b' ∈ bs, b'.rest = []) (pass : ResealPass) :
    (resealRows A source destination values pass).wp (resealContract fromKey toKey) (b :: bs)
      (fun g pass' => ∃ b', g = b' :: bs ∧ b'.rest = [] ∧ b'.profile = b.profile ∧
        (pass'.movedThisPass = 0 → pass.movedThisPass = 0 ∧ b'.swapped = b.swapped))
      (fun _ _ => True) := by
  induction values generalizing b pass with
  | nil => exact ⟨b, rfl, hrest, rfl, fun h => ⟨h, rfl⟩⟩
  | cons value values ih =>
    have hhead : b.rest.head? = some value := by rw [hrest]; rfl
    rw [resealRows]
    refine Prog.wp_bind_mono (wp_resealRow hne hdestination (hnames value List.mem_cons_self) hhead hbs
      pass) ?_
    rintro g pass₁ ⟨updated, rfl, hcount⟩
    have hrest' : (b.pop updated).rest = values := by rw [SeenBatch.pop, hrest]; rfl
    refine Prog.wp_mono (ih (fun v hv => hnames v (List.mem_cons_of_mem _ hv)) hrest' pass₁) ?_
      (fun _ _ h => h)
    rintro g pass' ⟨b', rfl, hend, hprofile, hmoved⟩
    refine ⟨b', rfl, hend, hprofile, fun h => ?_⟩
    obtain ⟨hzero, hswapped⟩ := hmoved h
    by_cases hlost : updated = 0
    · rw [hlost] at hcount hswapped
      exact ⟨by simpa [hzero] using hcount.symm, by simpa [SeenBatch.pop] using hswapped⟩
    · rw [if_neg hlost] at hcount
      omega

/-- A pass that moved nothing has used up, for each column, a batch that lost every row. -/
def LostEverywhere (profiles : List AadProfile) (g : List SeenBatch) : Prop :=
  ∀ profile ∈ profiles, ∃ b ∈ g, b.profile = profile ∧ b.swapped = false

theorem wp_resealColumns (hne : fromKey ≠ toKey) (hdestination : destination.dataKeyId = toKey)
    {batch : Nat} (hbatch : 1 ≤ batch) (profiles : List AadProfile) (hg : ∀ b ∈ g, b.rest = [])
    (pass : ResealPass) :
    (resealColumns A source destination fromKey batch profiles pass).wp
      (resealContract fromKey toKey) g
      (fun g' pass' => (∀ b ∈ g', b.rest = []) ∧ g ⊆ g' ∧
        (pass'.movedThisPass = 0 → pass.movedThisPass = 0 ∧ LostEverywhere profiles g'))
      (fun _ _ => True) := by
  induction profiles generalizing g pass with
  | nil => exact ⟨hg, List.Subset.refl g, fun h => ⟨h, fun _ hp => by cases hp⟩⟩
  | cons profile profiles ih =>
    rw [resealColumns]
    refine ⟨⟨rfl, hbatch, hg⟩, fun answer hanswer => ?_⟩
    cases answer with
    | none => trivial
    | some values =>
      show Prog.wp _ (resealRows A source destination values pass >>= _) (⟨profile, values, false⟩ :: g)
        _ _
      refine Prog.wp_bind_mono (wp_resealRows hne hdestination (fun v hv => (hanswer v hv).2) rfl hg
        pass) ?_
      rintro g₁ pass₁ ⟨b, rfl, hend, hprofile, hmoved⟩
      have hg₁ : ∀ b' ∈ b :: g, b'.rest = [] := by
        intro b' hb'
        rcases List.mem_cons.mp hb' with rfl | hb'
        · exact hend
        · exact hg b' hb'
      refine Prog.wp_mono (ih hg₁ pass₁) ?_ (fun _ _ h => h)
      rintro g₂ pass₂ ⟨hrest, hsub, hlost⟩
      refine ⟨hrest, fun b' hb' => hsub (List.mem_cons_of_mem _ hb'), fun h => ?_⟩
      obtain ⟨hzero, hcolumns⟩ := hlost h
      obtain ⟨hstart, hswapped⟩ := hmoved hzero
      refine ⟨hstart, fun p hp => ?_⟩
      rcases List.mem_cons.mp hp with rfl | hp
      · exact ⟨b, hsub List.mem_cons_self, hprofile, hswapped⟩
      · exact hcolumns p hp

/-! ## The control points -/

/-- What `reseal` knows at a control point, when it runs without a bound on its passes. -/
def resealAt (fromKey toKey : RawUuid) : ResealPoint → List SeenBatch → Prop
  | .start, g => g = []
  | .pass source destination _, g =>
    fromKey ≠ toKey ∧ source.dataKeyId = fromKey ∧ destination.dataKeyId = toKey ∧
      ∀ b ∈ g, b.rest = []
  | .returned (.ok _), g => (∀ b ∈ g, b.rest = []) ∧ LostEverywhere AadProfile.all g
  | .returned (.error _), _ => True

theorem wp_cipherFor (id : RawUuid) (g : List SeenBatch) :
    (cipherFor A keyCheckValue custody id).wp (resealContract fromKey toKey) g
      (fun g' cipher => g' = g ∧ cipher.dataKeyId = id) (fun _ _ => True) := by
  refine ⟨trivial, fun answer hanswer => ?_⟩
  cases answer with
  | none => trivial
  | some found =>
    show Prog.wp _ (Prog.ofExcept (cipherOfRow A keyCheckValue custody id found)) g _ _
    cases found with
    | none => trivial
    | some row =>
      have hid : row.id = id := hanswer
      rw [cipherOfRow]
      split
      · trivial
      · split
        · trivial
        · exact ⟨rfl, hid⟩

theorem wp_resealCode (hmax : options.maxBatches = none) (point : ResealPoint) (g : List SeenBatch)
    (h : resealAt fromKey toKey point g) :
    (resealCode A keyCheckValue custody fromKey toKey options point).wp
      (resealContract fromKey toKey) g
      (fun g point => ∀ next, point = some next → resealAt fromKey toKey next g)
      (fun _ _ => True) := by
  cases point with
  | start =>
    obtain rfl : g = [] := h
    apply wp_orReturned (fun _ _ => trivial)
    unfold resealStart
    split
    · trivial
    · rename_i hne
      refine Prog.wp_bind_mono (wp_cipherFor fromKey []) ?_
      rintro _ source ⟨rfl, hsource⟩
      refine Prog.wp_bind_mono (wp_cipherFor toKey _) ?_
      rintro _ destination ⟨rfl, hdestination⟩
      exact ⟨hne, hsource, hdestination, fun b hb => by cases hb⟩
  | pass source destination report =>
    obtain ⟨hne, hsource, hdestination, hg⟩ := h
    apply wp_orReturned (fun _ _ => trivial)
    unfold resealPass
    refine Prog.wp_bind_mono (wp_resealColumns hne hdestination (le_max_right _ _) _ hg _) ?_
    rintro g' pass ⟨hrest, -, hlost⟩
    show resealAt fromKey toKey (afterPass options source destination pass) g'
    simp only [afterPass, hmax, Option.any_none]
    split
    · rename_i hzero
      exact ⟨hrest, (hlost hzero).2⟩
    · exact ⟨hne, hsource, hdestination, hrest⟩
  | returned result =>
    rintro next ⟨⟩

end Code

/-! ## The tables -/

section Traffic

variable {A : Aead} {keyCheckValue : DataKey → FixedBytes 8} {custody : EnvironmentMasterKeyCustody}
  {keys : KeyTable} {fromKey toKey : RawUuid} {options : ResealOptions}
  {writes : Nat → ForeignWrite fromKey}

/-- The writers' values are under other keys, and the newest of each row is still there. -/
structure WritesKept (fromKey : RawUuid) (w : ResealWorld) : Prop where
  foreign : ∀ write ∈ w.written, contentEnvelopeDataKeyId write.2 ≠ some fromKey
  kept : ∀ key envelope, w.written.lookup key = some envelope →
    ∀ row ∈ w.tables.rows, row.key = key → row.envelope = some envelope

variable {w w' : ResealWorld}

theorem writesKept_swap (h : WritesKept fromKey w) {resealed : Bytes}
    (hnames : contentEnvelopeDataKeyId value.envelope = some fromKey)
    (htables : w'.tables = w.tables.swap value resealed) (hwritten : w'.written = w.written) :
    WritesKept fromKey w' where
  foreign := by
    rw [hwritten]
    exact h.foreign
  kept key envelope hlookup row hrow hkey := by
    rw [hwritten] at hlookup
    rw [htables] at hrow
    obtain ⟨before, hbefore, rfl⟩ := mem_mapEnvelopes.mp hrow
    have hkept := h.kept key envelope hlookup before hbefore hkey
    -- the swap looks for bytes that name the old key
    have hmatch : ¬ContentTables.matchesValue value before := by
      rw [matchesValue_iff]
      rintro ⟨-, henvelope⟩
      rw [hkept] at henvelope
      have hmem : (key, envelope) ∈ w.written := by
        obtain ⟨l₁, l₂, hl, -⟩ := List.lookup_eq_some_iff.mp hlookup
        simp [hl]
      have hforeign := h.foreign (key, envelope) hmem
      rw [Option.some.inj henvelope] at hforeign
      exact hforeign hnames
    simpa [hmatch] using hkept

theorem writesKept_replace (h : WritesKept fromKey w) (write : ForeignWrite fromKey) :
    WritesKept fromKey (grantWriter fromKey w write) where
  foreign other hother := by
    rcases List.mem_cons.mp hother with rfl | hother
    · exact write.other_key
    · exact h.foreign other hother
  kept key envelope hlookup row hrow hkey := by
    obtain ⟨before, hbefore, rfl⟩ := mem_mapEnvelopes.mp hrow
    have hkey : before.key = key := hkey
    simp only [grantWriter, List.lookup_cons] at hlookup
    by_cases hsame : key = write.key
    · have hbeq : (key == write.key) = true := by simp [hsame]
      simp only [hbeq, Option.some.injEq] at hlookup
      simp [hkey, hsame, hlookup]
    · have hbeq : (key == write.key) = false := by simp [hsame]
      simp only [hbeq] at hlookup
      simpa [hkey, hsame] using h.kept key envelope hlookup before hbefore hkey

variable {o : ResealOp}

variable {x : resealSig.Ans o}

theorem answers_of_grant (h : grantReseal keys w o x = some w') :
    (resealContract fromKey toKey).answers g o x := by
  cases o with
  | keyRow id =>
    cases x with
    | none => trivial
    | some found =>
      cases found with
      | none => trivial
      | some row =>
        simp only [grantReseal] at h
        split at h
        · rename_i hfound
          have hid := List.find?_some hfound.symm
          show row.id = id
          simpa using hid
        · cases h
  | selectSealedBatch profile dataKeyId batch =>
    cases x with
    | none => trivial
    | some values =>
      simp only [grantReseal] at h
      split at h
      · rename_i hvalues
        intro value hvalue
        rw [hvalues] at hvalue
        obtain ⟨hprofile, hsealed⟩ := mem_sealedValues.mp (List.mem_of_mem_take hvalue)
        exact ⟨hprofile, names_of_sealed hsealed⟩
      · cases h
  | drawNonce => trivial
  | swap value resealed => trivial

theorem writesKept_grant (hkept : WritesKept fromKey w)
    (hmay : (resealContract fromKey toKey).may g o) (h : grantReseal keys w o x = some w') :
    WritesKept fromKey w' := by
  cases o with
  | keyRow id =>
    have hw : w' = w := by
      cases x with
      | none => exact (Option.some.inj h).symm
      | some found =>
        simp only [grantReseal] at h
        split at h
        · exact (Option.some.inj h).symm
        · cases h
    exact hw ▸ hkept
  | selectSealedBatch profile dataKeyId batch =>
    cases x with
    | none => exact Option.some.inj h ▸ hkept
    | some values =>
      simp only [grantReseal] at h
      split at h
      · cases h
        exact ⟨hkept.foreign, hkept.kept⟩
      · cases h
  | drawNonce => exact Option.some.inj h ▸ hkept
  | swap value resealed =>
    cases x with
    | none => exact Option.some.inj h ▸ hkept
    | some updated =>
      simp only [grantReseal] at h
      split at h
      · cases h
        exact writesKept_swap hkept hmay.2.1 rfl rfl
      · cases h

/-- **The assertion**: a batch that is used up and lost every row has cleared its column. The newest
batch still has every value of its column, or else one of its rows was swapped or will be. -/
structure Traffic (fromKey : RawUuid) (w : ResealWorld) (g : List SeenBatch) : Prop where
  cleared : ∀ b ∈ g, b.rest = [] → b.swapped = false → w.tables.Clear fromKey b.profile
  newest : ∀ b bs, g = b :: bs → ∃ batch, w.batch = some batch ∧ batch.pending = b.rest ∧
    batch.swapped = b.swapped ∧
    (batch.cutOff = false → ∀ value, w.tables.Sealed fromKey value →
      value.identity.profile = b.profile → value ∈ b.rest) ∧
    (batch.cutOff = true → b.swapped = true ∨ ∃ value ∈ b.rest, w.tables.Sealed fromKey value)

theorem traffic_select (h : Traffic fromKey w g) (profile : AadProfile) {batch : Nat}
    (hbatch : 1 ≤ batch) :
    let values := w.tables.selectSealedBatch profile fromKey batch
    Traffic fromKey
      { w with
        batch := some
          { pending := values
            cutOff := batch < (w.tables.sealedValues profile fromKey).length
            swapped := false } }
      (⟨profile, values, false⟩ :: g) := by
  intro values
  -- the limit cuts nothing off: the batch has every value of the column
  have hall : ¬batch < (w.tables.sealedValues profile fromKey).length →
      ∀ value, w.tables.Sealed fromKey value → value.identity.profile = profile →
        value ∈ values := by
    intro hcut value hsealed hprofile
    have hmem : value ∈ w.tables.sealedValues profile fromKey :=
      mem_sealedValues.mpr ⟨hprofile, hsealed⟩
    rwa [show values = w.tables.sealedValues profile fromKey from
      List.take_of_length_le (Nat.le_of_not_lt hcut)]
  -- it does cut: the first value is held
  have hsome : batch < (w.tables.sealedValues profile fromKey).length →
      ∃ value ∈ values, w.tables.Sealed fromKey value := by
    intro hcut
    have hpos : 0 < values.length := by
      rw [show values = (w.tables.sealedValues profile fromKey).take batch from rfl,
        List.length_take]
      omega
    obtain ⟨value, hvalue⟩ := List.exists_mem_of_length_pos hpos
    exact ⟨value, hvalue, (mem_sealedValues.mp (List.mem_of_mem_take hvalue)).2⟩
  refine ⟨fun b hb hrest hswapped => ?_, fun b bs hg => ?_⟩
  · rcases List.mem_cons.mp hb with rfl | hb
    · by_cases hcut : batch < (w.tables.sealedValues profile fromKey).length
      · obtain ⟨value, hvalue, -⟩ := hsome hcut
        have hrest : values = [] := hrest
        rw [hrest] at hvalue
        cases hvalue
      · intro value hsealed hprofile
        have hmem := hall hcut value hsealed hprofile
        have hrest : values = [] := hrest
        rw [hrest] at hmem
        cases hmem
    · exact h.cleared b hb hrest hswapped
  · cases hg
    exact ⟨_, rfl, rfl, rfl, fun hcut => hall (by simpa using hcut),
      fun hcut => .inr (hsome (by simpa using hcut))⟩

theorem traffic_swap (h : Traffic fromKey w (b :: bs)) {resealed : Bytes}
    (hhead : b.rest.head? = some value)
    (hother : contentEnvelopeDataKeyId resealed ≠ some fromKey) :
    Traffic fromKey
      { w with
        tables := w.tables.swap value resealed
        batch := w.batch.map fun batch =>
          { batch with
            pending := batch.pending.tail
            swapped := batch.swapped || w.tables.swapCount value ≠ 0 } }
      (b.pop (w.tables.swapCount value) :: bs) := by
  obtain ⟨batch, hworld, hpending, hswapped, hall, hsome⟩ := h.newest b bs rfl
  obtain ⟨rest, hrest⟩ := List.head?_eq_some_iff.mp hhead
  have hrest' : (b.pop (w.tables.swapCount value)).rest = rest := by
    rw [SeenBatch.pop, hrest]
    rfl
  have hbefore {v : SealedValue} (hv : (w.tables.swap value resealed).Sealed fromKey v) :=
    sealed_of_sealed_swap hother hv
  -- a batch that was cut off has swapped a row now, or has one left that is held
  have hsome' : batch.cutOff = true → (b.pop (w.tables.swapCount value)).swapped = true ∨
      ∃ v ∈ rest, (w.tables.swap value resealed).Sealed fromKey v := by
    intro hcut
    by_cases hcount : w.tables.swapCount value = 0
    · rcases hsome hcut with hb | ⟨v, hv, hsealed⟩
      · exact .inl (by simp [SeenBatch.pop, hb])
      · rw [hrest] at hv
        rcases List.mem_cons.mp hv with rfl | hv
        · exact absurd hcount (swapCount_ne_zero hsealed)
        · rcases sealed_swap resealed hsealed with hkept | hfound
          · exact .inr ⟨v, hv, hkept⟩
          · exact absurd hcount hfound
    · exact .inl (by simp [SeenBatch.pop, hcount])
  have hall' : batch.cutOff = false → ∀ v, (w.tables.swap value resealed).Sealed fromKey v →
      v.identity.profile = b.profile → v ∈ rest := by
    intro hcut v hv hprofile
    obtain ⟨hsealed, hne⟩ := hbefore hv
    have hmem := hall hcut v hsealed hprofile
    rw [hrest] at hmem
    exact (List.mem_cons.mp hmem).resolve_left hne
  refine ⟨fun b' hb' hend hlost => ?_, fun b' bs' hg => ?_⟩
  · rcases List.mem_cons.mp hb' with rfl | hb'
    · rw [hrest'] at hend
      subst hend
      intro v hv hprofile
      cases hcut : batch.cutOff with
      | false => exact absurd (hall' hcut v hv hprofile) List.not_mem_nil
      | true =>
        rcases hsome' hcut with hswapped' | ⟨v', hv', -⟩
        · rw [hlost] at hswapped'
          cases hswapped'
        · cases hv'
    · exact fun v hv => h.cleared b' (List.mem_cons_of_mem _ hb') hend hlost v (hbefore hv).1
  · cases hg
    refine ⟨_, by rw [hworld]; rfl, ?_, ?_, ?_, ?_⟩
    · show batch.pending.tail = _
      rw [hrest', hpending, hrest]
      rfl
    · show (batch.swapped || _) = _
      rw [hswapped]
      rfl
    · rw [hrest']
      exact hall'
    · rw [hrest']
      exact hsome'

theorem traffic_grant (h : Traffic fromKey w g) (hmay : (resealContract fromKey toKey).may g o)
    (hgrant : grantReseal keys w o x = some w') :
    Traffic fromKey w' ((resealContract fromKey toKey).next g o x) := by
  cases o with
  | keyRow id =>
    cases x with
    | none => exact Option.some.inj hgrant ▸ h
    | some found =>
      simp only [grantReseal] at hgrant
      split at hgrant
      · exact Option.some.inj hgrant ▸ h
      · cases hgrant
  | selectSealedBatch profile dataKeyId batch =>
    cases x with
    | none => exact Option.some.inj hgrant ▸ h
    | some values =>
      obtain ⟨rfl, hbatch, -⟩ := hmay
      simp only [grantReseal] at hgrant
      split at hgrant
      · rename_i hvalues
        cases hgrant
        subst hvalues
        exact traffic_select h profile hbatch
      · cases hgrant
  | drawNonce => exact Option.some.inj hgrant ▸ h
  | swap value resealed =>
    cases x with
    | none => exact Option.some.inj hgrant ▸ h
    | some updated =>
      obtain ⟨⟨b, bs, rfl, hhead, -⟩, -, hto, hne⟩ := hmay
      have hother : contentEnvelopeDataKeyId resealed ≠ some fromKey := by
        rw [hto]
        exact fun heq => hne (Option.some.inj heq).symm
      simp only [grantReseal] at hgrant
      split at hgrant
      · rename_i hcount
        cases hgrant
        subst hcount
        exact traffic_swap h hhead hother
      · cases hgrant

/-! ## Writers -/

/-- **The condition on a writer**: of a batch that the limit cut off and that has no row swapped
yet, it leaves a row that is still held. -/
def LeavesARow (fromKey : RawUuid) (w : ResealWorld) (key : AadProfile × RawUuid) : Prop :=
  match w.batch with
  | none => True
  | some batch => batch.cutOff = false ∨ batch.swapped = true ∨
      ∃ value ∈ batch.pending, value.key ≠ key ∧ w.tables.Sealed fromKey value

instance instDecidableLeavesARow (w : ResealWorld) (key : AadProfile × RawUuid) :
    Decidable (LeavesARow fromKey w key) :=
  match h : w.batch with
  | none => isTrue (by rw [LeavesARow, h]; trivial)
  | some batch =>
    decidable_of_iff (batch.cutOff = false ∨ batch.swapped = true ∨
      ∃ value ∈ batch.pending, value.key ≠ key ∧ w.tables.Sealed fromKey value)
      (by rw [LeavesARow, h])

theorem traffic_replace (h : Traffic fromKey w g) {write : ForeignWrite fromKey}
    (hguard : LeavesARow fromKey w write.key) :
    Traffic fromKey (grantWriter fromKey w write) g := by
  have hbefore {v : SealedValue}
      (hv : (w.tables.replace write.key write.envelope).Sealed fromKey v) :=
    sealed_of_sealed_replace write.other_key hv
  refine ⟨fun b hb hrest hlost v hv => h.cleared b hb hrest hlost v (hbefore hv), fun b bs hg => ?_⟩
  obtain ⟨batch, hworld, hpending, hswapped, hall, hsome⟩ := h.newest b bs hg
  refine ⟨batch, hworld, hpending, hswapped, fun hcut v hv => hall hcut v (hbefore hv), ?_⟩
  intro hcut
  simp only [LeavesARow, hworld] at hguard
  rcases hguard with hwhole | hdone | ⟨v, hv, hkey, hsealed⟩
  · rw [hcut] at hwhole
    cases hwhole
  · exact .inl (hswapped ▸ hdone)
  · exact .inr ⟨v, hpending ▸ hv, sealed_replace hsealed hkey⟩

/-! ## The outlines -/

/-- What `reseal` knows, and nothing of the writers. -/
abbrev ResealGhost : ResealParty → Type
  | .reseal => List SeenBatch
  | .writer _ => Unit

end Traffic

section Outlines

variable (A : Aead) (keyCheckValue : DataKey → FixedBytes 8) (custody : EnvironmentMasterKeyCustody)
  (keys : KeyTable) (fromKey toKey : RawUuid) (options : ResealOptions)
  (writes : Nat → ForeignWrite fromKey)

/-- A writer is bound to nothing. -/
def trivialContract (S : Sig) : Contract S Unit where
  may _ _ := True
  answers _ _ _ := True
  next _ _ _ := ()

def resealContracts : (i : ResealParty) →
    Contract ((resealSystem A keyCheckValue custody keys fromKey toKey options writes).sig i)
      (ResealGhost i)
  | .reseal => resealContract fromKey toKey
  | .writer _ => trivialContract _

def resealPoints : (i : ResealParty) →
    (resealSystem A keyCheckValue custody keys fromKey toKey options writes).Point i →
      ResealGhost i → Prop
  | .reseal => resealAt fromKey toKey
  | .writer _ => fun _ _ => True

theorem resealCode_ok (hmax : options.maxBatches = none) (i : ResealParty)
    (l : (resealSystem A keyCheckValue custody keys fromKey toKey options writes).Point i)
    (g : ResealGhost i)
    (h : resealPoints A keyCheckValue custody keys fromKey toKey options writes i l g) :
    ((resealSystem A keyCheckValue custody keys fromKey toKey options writes).code i l).wp
      (resealContracts A keyCheckValue custody keys fromKey toKey options writes i) g
      (fun g' r => ∀ l', r = some l' →
        resealPoints A keyCheckValue custody keys fromKey toKey options writes i l' g')
      (fun _ _ => True) := by
  cases i with
  | reseal => exact wp_resealCode hmax l g h
  | writer n => exact ⟨trivial, fun _ _ _ _ => trivial⟩

/-- The writers' values are kept, whatever the writers do. -/
def keptOutline (hmax : options.maxBatches = none) :
    System.Outline (resealSystem A keyCheckValue custody keys fromKey toKey options writes) where
  Ghost := ResealGhost
  contract := resealContracts A keyCheckValue custody keys fromKey toKey options writes
  at_ := resealPoints A keyCheckValue custody keys fromKey toKey options writes
  shared w _ := WritesKept fromKey w
  code_ok := resealCode_ok A keyCheckValue custody keys fromKey toKey options writes hmax
  act_ok i w o x w' γ hshared _ hmay hgrant := by
    cases i with
    | reseal => exact ⟨answers_of_grant hgrant, writesKept_grant hshared hmay hgrant⟩
    | writer n =>
      refine ⟨trivial, ?_⟩
      obtain rfl := Option.some.inj hgrant
      exact writesKept_replace hshared o
  nature_ok _ e := nomatch e

/-- The condition on a step: it binds the writers only. -/
def WritersLeaveARow : (i : ResealParty) → ResealWorld →
    ((resealSystem A keyCheckValue custody keys fromKey toKey options writes).sig i).Op → Prop
  | .reseal, _, _ => True
  | .writer _, w, write => LeavesARow fromKey w (ForeignWrite.key write)

def clearedOutline (hmax : options.maxBatches = none) :
    System.Outline (resealSystem A keyCheckValue custody keys fromKey toKey options writes) where
  Ghost := ResealGhost
  contract := resealContracts A keyCheckValue custody keys fromKey toKey options writes
  at_ := resealPoints A keyCheckValue custody keys fromKey toKey options writes
  shared w γ := Traffic fromKey w (γ .reseal)
  guard := WritersLeaveARow A keyCheckValue custody keys fromKey toKey options writes
  code_ok := resealCode_ok A keyCheckValue custody keys fromKey toKey options writes hmax
  act_ok i w o x w' γ hshared hguard hmay hgrant := by
    cases i with
    | reseal =>
      refine ⟨answers_of_grant hgrant, ?_⟩
      rw [Function.update_self]
      exact traffic_grant hshared hmay hgrant
    | writer n =>
      refine ⟨trivial, ?_⟩
      obtain rfl := Option.some.inj hgrant
      rw [Function.update_of_ne (by simp)]
      exact traffic_replace hshared hguard
  nature_ok _ e := nomatch e

theorem keptOutline_initial (hmax : options.maxBatches = none) (tables : ContentTables) :
    (keptOutline A keyCheckValue custody keys fromKey toKey options writes hmax).Holds
      (resealInitial A keyCheckValue custody keys fromKey toKey options writes tables) := by
  refine ⟨fun | .reseal => ([] : List SeenBatch) | .writer _ => (), ⟨?_, ?_⟩, fun i => ?_⟩
  · rintro write ⟨⟩
  · rintro key envelope ⟨⟩
  · cases i with
    | reseal =>
      rintro l ⟨⟩
      rfl
    | writer n =>
      rintro l ⟨⟩
      trivial

theorem clearedOutline_initial (hmax : options.maxBatches = none) (tables : ContentTables) :
    (clearedOutline A keyCheckValue custody keys fromKey toKey options writes hmax).Holds
      (resealInitial A keyCheckValue custody keys fromKey toKey options writes tables) := by
  refine ⟨fun | .reseal => ([] : List SeenBatch) | .writer _ => (), ⟨?_, ?_⟩, fun i => ?_⟩
  · rintro b ⟨⟩
  · rintro b bs ⟨⟩
  · cases i with
    | reseal =>
      rintro l ⟨⟩
      rfl
    | writer n =>
      rintro l ⟨⟩
      trivial

/-- The writers' newest values are in the tables. -/
def NothingOverwritten (w : ResealWorld) : Prop :=
  ∀ key envelope, w.written.lookup key = some envelope →
    ∀ row ∈ w.tables.rows, row.key = key → row.envelope = some envelope

/--
**Resealing under live traffic**: no writer's value is ever overwritten; and in every run in which
the writers leave a row of each batch that the limit cut off, no row names the old key when `reseal`
returns.
-/
theorem reseal_finishes (hmax : options.maxBatches = none) (tables : ContentTables)
    {moves : List (resealSystem A keyCheckValue custody keys fromKey toKey options writes).Move}
    {t : (resealSystem A keyCheckValue custody keys fromKey toKey options writes).State}
    (hrun : runFrom
      (resealSystem A keyCheckValue custody keys fromKey toKey options writes).step
      (resealInitial A keyCheckValue custody keys fromKey toKey options writes tables) moves =
        some t) :
    NothingOverwritten t.world ∧
    (Transition.Meets (resealSystem A keyCheckValue custody keys fromKey toKey options writes).step
      (System.Guarded (WritersLeaveARow A keyCheckValue custody keys fromKey toKey options writes))
      (resealInitial A keyCheckValue custody keys fromKey toKey options writes tables) moves →
      ∀ report, t.proc .reseal = .ret (some (ResealPoint.returned (.ok report))) →
        ∀ row ∈ t.world.tables.rows, row.namesKey fromKey = false) := by
  constructor
  · obtain ⟨γ, hkept, -⟩ :=
      (keptOutline A keyCheckValue custody keys fromKey toKey options writes hmax).invariant
        (fun _ _ _ => trivial)
        (keptOutline_initial A keyCheckValue custody keys fromKey toKey options writes hmax tables)
        hrun
    exact hkept.kept
  · intro hmeets report hreturned row hrow
    obtain ⟨γ, htraffic, hproc⟩ :=
      (clearedOutline A keyCheckValue custody keys fromKey toKey options writes hmax).guarded
        (clearedOutline_initial A keyCheckValue custody keys fromKey toKey options writes hmax
          tables) hmeets hrun
    have hat := hproc .reseal
    rw [hreturned] at hat
    have hreturn : resealAt fromKey toKey (.returned (.ok report)) (γ .reseal) := hat _ rfl
    obtain ⟨hrest, hlost⟩ := hreturn
    have hclear : t.world.tables.Clear fromKey row.identity.profile := by
      obtain ⟨b, hb, hprofile, hswapped⟩ := hlost row.identity.profile
        (by cases row.identity.profile <;> decide)
      rw [← hprofile]
      exact htraffic.cleared b hb (hrest b hb) hswapped
    -- a row that names the key is a value its column still holds
    by_contra hnames
    rw [Bool.not_eq_false, SealedRow.namesKey, decide_eq_true_eq] at hnames
    obtain ⟨envelope, henvelope, hnames⟩ := Option.bind_eq_some_iff.mp hnames
    refine hclear { identity := row.identity, envelope } ⟨row, hrow, ?_⟩ rfl
    exact sealedUnder_eq_some.mpr ⟨rfl, henvelope, hnames⟩

end Outlines

namespace Sample

/-- Every writer stores the edited first message. -/
def edit : ForeignWrite oldKeyId where
  key := (message 1 1 |>.profile, message 1 1 |>.rowId)
  envelope := stored firstEdited sealedFirstEdited
  other_key := by decide +kernel

abbrev resealing (options : ResealOptions) : System ResealParty :=
  resealSystem resealCipher checkValueOf custody resealKeys oldKeyId newKeyId options fun _ => edit

abbrev resealingInitial (options : ResealOptions) : (resealing options).State :=
  resealInitial resealCipher checkValueOf custody resealKeys oldKeyId newKeyId options
    (fun _ => edit) storedMessages

/-- The answers of a database that works, with the nonces of the recorded seals. -/
def workingDatabase (w : ResealWorld) (nonce : FixedBytes 12) : (o : ResealOp) → resealSig.Ans o
  | .keyRow id => some (resealKeys.rows.find? fun row => row.id = id)
  | .selectSealedBatch profile dataKeyId batch =>
    some (w.tables.selectSealedBatch profile dataKeyId batch)
  | .drawNonce => nonce
  | .swap value _ => some (w.tables.swapCount value)

/-- `reseal` makes its next statement or goes to its next point; or a writer does. -/
inductive ResealCue
  | statement (nonceStart : Nat)
  | jump
  | startWriter (n : Nat)
  | write (n : Nat)

def resealMove {options : ResealOptions} (s : (resealing options).State) :
    ResealCue → (resealing options).Move
  | .statement nonceStart => .act .reseal (workingDatabase s.world (nonceFrom nonceStart))
  | .jump => .jump .reseal
  | .startWriter n => .jump (.writer n)
  | .write n => .act (.writer n) fun _ => ()

def performReseal (options : ResealOptions) :
    List ResealCue → (resealing options).State → List (resealing options).Move
  | [], _ => []
  | cue :: rest, s =>
    resealMove s cue ::
      (((resealing options).step s (resealMove s cue)).map (performReseal options rest)).getD []

/-- A writer takes the first of two rows, the second is swapped, and the next pass finds nothing. -/
def wideCues : List ResealCue :=
  [.jump, .statement 0, .statement 0, .jump, .statement 0, .statement 0x60, .startWriter 0, .write 0,
    .statement 0, .statement 0x70, .statement 0, .statement 0, .statement 0, .statement 0,
    .statement 0, .jump, .statement 0, .statement 0, .statement 0, .statement 0, .statement 0]

/-- A writer takes the one row that was selected, and the other columns are empty. -/
def narrowCues : List ResealCue :=
  [.jump, .statement 0, .statement 0, .jump, .statement 0, .statement 0x60, .startWriter 0, .write 0,
    .statement 0, .statement 0, .statement 0, .statement 0, .statement 0]

/-- The batch is wide enough for both rows. -/
def wideBatch : List (resealing {}).Move :=
  performReseal {} wideCues (resealingInitial {})

/-- The batch has room for one row. -/
def narrow : ResealOptions where
  batch := 1

def narrowBatch : List (resealing narrow).Move :=
  performReseal narrow narrowCues (resealingInitial narrow)

/-- What `reseal` has returned. -/
def returnedReport {options : ResealOptions} (s : (resealing options).State) : Option ResealReport :=
  match s.proc .reseal with
  | .ret (some (.returned (.ok report))) => some report
  | _ => none

theorem proc_of_returnedReport {options : ResealOptions} {s : (resealing options).State}
    {report : ResealReport} (h : returnedReport s = some report) :
    s.proc .reseal = .ret (some (ResealPoint.returned (.ok report))) := by
  unfold returnedReport at h
  split at h
  · rename_i found hproc
    rw [hproc, Option.some.inj h]
  · cases h

instance (options : ResealOptions) (s : (resealing options).State) (m : (resealing options).Move) :
    Decidable (System.Guarded (WritersLeaveARow resealCipher checkValueOf custody resealKeys oldKeyId
      newKeyId options fun _ => edit) s m) :=
  @System.instDecidableGuarded _ (resealing options) _
    (fun i w o => by
      cases i with
      | reseal => exact isTrue trivial
      | writer n => exact instDecidableLeavesARow w (ForeignWrite.key o)) s m

end Sample

open Sample in
theorem reseal_finishes_wideBatch :
    ∃ t, runFrom (resealing {}).step (resealingInitial {}) wideBatch = some t ∧
      returnedReport t = some { resealed := 1, skipped := 1, batches := 2 } ∧
      NothingOverwritten t.world ∧ ∀ row ∈ t.world.tables.rows, row.namesKey oldKeyId = false := by
  have hmoves : (runFrom (resealing {}).step (resealingInitial {}) wideBatch).map
      returnedReport = some (some { resealed := 1, skipped := 1, batches := 2 }) := by
    decide +kernel
  obtain ⟨t, hrun, hreport⟩ := Option.map_eq_some_iff.mp hmoves
  have hmeets : Transition.Meets (resealing {}).step
      (System.Guarded (WritersLeaveARow resealCipher checkValueOf custody resealKeys oldKeyId
        newKeyId {} fun _ => edit)) (resealingInitial {}) wideBatch := by
    decide +kernel
  obtain ⟨hkept, hclear⟩ := reseal_finishes resealCipher checkValueOf custody resealKeys oldKeyId
    newKeyId {} (fun _ => edit) rfl storedMessages hrun
  exact ⟨t, hrun, hreport, hkept, hclear hmeets _ (proc_of_returnedReport hreport)⟩

open Sample in
/-- `reseal` returns `Ok` and leaves the second row under the old key. -/
theorem reseal_leaves_a_row_narrowBatch :
    ∃ t, runFrom (resealing narrow).step (resealingInitial narrow) narrowBatch = some t ∧
      t.proc .reseal =
        .ret (some (ResealPoint.returned (.ok { resealed := 0, skipped := 1, batches := 1 }))) ∧
      ¬ ∀ row ∈ t.world.tables.rows, row.namesKey oldKeyId = false := by
  have hmoves : (runFrom (resealing narrow).step (resealingInitial narrow)
      narrowBatch).map (fun t => (returnedReport t,
        t.world.tables.rows.map fun row => row.namesKey oldKeyId)) =
      some (some { resealed := 0, skipped := 1, batches := 1 }, [false, true]) := by
    decide +kernel
  obtain ⟨t, hrun, hend⟩ := Option.map_eq_some_iff.mp hmoves
  obtain ⟨hreport, hnames⟩ := Prod.mk.inj hend
  refine ⟨t, hrun, proc_of_returnedReport hreport, fun hclear => ?_⟩
  have hmem : true ∈ t.world.tables.rows.map fun row => row.namesKey oldKeyId := by
    rw [hnames]
    decide
  obtain ⟨row, hrow, hnamed⟩ := List.mem_map.mp hmem
  rw [hclear row hrow] at hnamed
  cases hnamed

end Moira.Keyring
