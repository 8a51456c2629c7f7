import Mathlib.Algebra.GroupWithZero.Nat
import Mathlib.Data.List.DropRight
import Mathlib.Data.List.Infix

/-!
# Texts and byte offsets

A text is the list of its characters; an offset is the number of bytes of UTF-8 before a place of
it.

- `trimmed`, `trim_parts`, `trimmed_append` — a text without the characters around it that satisfy a
  predicate
-/

namespace Text

/-! ## Offsets -/

def byteLen (text : List Char) : Nat :=
  (text.map Char.utf8Size).sum

@[simp] theorem byteLen_nil : byteLen [] = 0 := rfl

@[simp] theorem byteLen_cons (c : Char) (text : List Char) :
    byteLen (c :: text) = c.utf8Size + byteLen text := by
  simp [byteLen]

@[simp] theorem byteLen_append (a b : List Char) : byteLen (a ++ b) = byteLen a + byteLen b := by
  simp [byteLen]

variable {text : List Char}

theorem byteLen_pos (h : text ≠ []) : 0 < byteLen text := by
  cases text with
  | nil => exact absurd rfl h
  | cons c rest =>
    have hc := c.utf8Size_pos
    rw [byteLen_cons]
    omega

/-- A text cut at an offset, if the offset is a boundary of it. -/
def splitAt : Nat → List Char → Option (List Char × List Char)
  | 0, text => some ([], text)
  | _ + 1, [] => none
  | n + 1, c :: rest =>
    if c.utf8Size ≤ n + 1 then
      (splitAt (n + 1 - c.utf8Size) rest).map fun parts => (c :: parts.1, parts.2)
    else none

/-- `&text[start..stop]`; none is the panic of an offset that is not a boundary. -/
def slice (text : List Char) (start stop : Nat) : Option (List Char) :=
  if stop < start then none
  else do
    let (_, rest) ← splitAt start text
    let (inside, _) ← splitAt (stop - start) rest
    return inside

theorem splitAt_byteLen (a b : List Char) : splitAt (byteLen a) (a ++ b) = some (a, b) := by
  induction a with
  | nil => cases b <;> rfl
  | cons c a ih =>
    have hc := c.utf8Size_pos
    obtain ⟨n, hn⟩ : ∃ n, byteLen (c :: a) = n + 1 := ⟨byteLen (c :: a) - 1, by
      rw [byteLen_cons]
      omega⟩
    have hrest : n + 1 - c.utf8Size = byteLen a := by
      rw [byteLen_cons] at hn
      omega
    rw [hn, List.cons_append, splitAt, if_pos (by rw [byteLen_cons] at hn; omega), hrest, ih]
    rfl

/-- **The characters between two boundaries.** -/
theorem slice_eq (a b c : List Char) :
    slice (a ++ b ++ c) (byteLen a) (byteLen a + byteLen b) = some b := by
  have hcut : byteLen a + byteLen b - byteLen a = byteLen b := by omega
  unfold slice
  rw [if_neg (by omega), List.append_assoc, splitAt_byteLen]
  simp only [Option.bind_eq_bind, Option.bind_some]
  rw [hcut, splitAt_byteLen]
  rfl

theorem isUpper_eq (c : Char) : c.isUpper = decide (c.val ≥ 'A'.val ∧ c.val ≤ 'Z'.val) := rfl

theorem isLower_eq (c : Char) : c.isLower = (decide (c.val ≥ 'a'.val) && decide (c.val ≤ 'z'.val)) := rfl

theorem isAlpha_eq (c : Char) : c.isAlpha = (c.isUpper || c.isLower) := rfl

variable {c : Char}

theorem alphanum_range (h : c.isAlphanum = true) : 0x30 ≤ c.toNat ∧ c.toNat ≤ 0x7a := by
  simp only [Char.isAlphanum, isAlpha_eq, isUpper_eq, isLower_eq, Char.isDigit, Bool.or_eq_true,
    Bool.and_eq_true, decide_eq_true_eq, ge_iff_le, UInt32.le_iff_toNat_le] at h
  have hvalue : c.toNat = c.val.toNat := rfl
  have hlow : 'A'.val.toNat = 65 ∧ 'a'.val.toNat = 97 ∧ '0'.val.toNat = 48 := ⟨rfl, rfl, rfl⟩
  have hhigh : 'Z'.val.toNat = 90 ∧ 'z'.val.toNat = 122 ∧ '9'.val.toNat = 57 := ⟨rfl, rfl, rfl⟩
  omega

/-! ## Trimming -/

section Trim

variable (blank : Char → Bool)

/-- `trim_matches` -/
def trimmed (text : List Char) : List Char :=
  (text.dropWhile blank).rdropWhile blank

/-- The text starts and ends with characters that are not blank. -/
structure Core (text : List Char) : Prop where
  ne_nil : text ≠ []
  head : ∀ c rest, text = c :: rest → blank c = false
  last : ∀ front c, text = front ++ [c] → blank c = false

variable {blank}

theorem all_blank_of_trimmed_nil (h : trimmed blank text = []) : ∀ c ∈ text, blank c = true := by
  have hall := List.rdropWhile_eq_nil_iff.mp h
  intro c hc
  rw [← List.takeWhile_append_dropWhile (p := blank) (l := text)] at hc
  rcases List.mem_append.mp hc with hc | hc
  · exact List.mem_takeWhile_imp hc
  · exact hall c hc

theorem core_trimmed (h : trimmed blank text ≠ []) : Core blank (trimmed blank text) := by
  refine ⟨h, fun c rest hcons => ?_, fun front c hconcat => ?_⟩
  · -- the first character is the one the leading blanks end at
    obtain ⟨trail, htrail⟩ := List.rdropWhile_prefix blank (text.dropWhile blank)
    have hdrop : text.dropWhile blank = c :: (rest ++ trail) := by
      rw [← htrail]
      show trimmed blank text ++ trail = _
      rw [hcons, List.cons_append]
    have hne : text.dropWhile blank ≠ [] := by
      rw [hdrop]
      exact List.cons_ne_nil _ _
    have hhead := List.head_dropWhile_not blank hne
    simp only [hdrop, List.head_cons] at hhead
    simpa using hhead
  · have hlast : ¬blank ((trimmed blank text).getLast h) = true :=
      List.rdropWhile_last_not blank (text.dropWhile blank) h
    have hget : (trimmed blank text).getLast h = c := by
      simp only [hconcat, List.getLast_append_singleton]
    simpa [hget] using hlast

theorem trim_parts (h : trimmed blank text ≠ []) :
    ∃ lead trail, text = lead ++ trimmed blank text ++ trail ∧
      text.dropWhile blank = trimmed blank text ++ trail ∧
      text.rdropWhile blank = lead ++ trimmed blank text ∧
      (∀ c ∈ lead, blank c = true) ∧ (∀ c ∈ trail, blank c = true) := by
  have hdrop : text.dropWhile blank =
      trimmed blank text ++ (text.dropWhile blank).rtakeWhile blank :=
    List.rdropWhile_append_rtakeWhile.symm
  refine ⟨text.takeWhile blank, (text.dropWhile blank).rtakeWhile blank, ?_, hdrop, ?_,
    fun c hc => List.mem_takeWhile_imp hc, fun c hc => List.mem_rtakeWhile_imp hc⟩
  · rw [List.append_assoc, ← hdrop, List.takeWhile_append_dropWhile]
  · have hne : ((text.dropWhile blank).reverse.dropWhile blank).isEmpty = false := by
      rw [List.isEmpty_eq_false_iff]
      intro hnil
      exact h (by rw [trimmed, List.rdropWhile, hnil, List.reverse_nil])
    conv_lhs => rw [← List.takeWhile_append_dropWhile (p := blank) (l := text)]
    rw [List.rdropWhile, List.reverse_append, List.dropWhile_append, hne]
    simp [trimmed, List.rdropWhile]

theorem Core.of_ends {d : Char} (hfirst : text.head? = some c) (hc : blank c = false)
    (hlast : text.getLast? = some d) (hd : blank d = false) : Core blank text := by
  refine ⟨?_, fun first rest hcons => ?_, fun front last hconcat => ?_⟩
  · rintro rfl
    cases hfirst
  · rw [hcons, List.head?_cons, Option.some.injEq] at hfirst
    rwa [hfirst]
  · rw [hconcat, List.getLast?_concat, Option.some.injEq] at hlast
    rwa [hlast]

theorem Core.exists_head (h : Core blank text) : ∃ c, text.head? = some c ∧ blank c = false := by
  cases text with
  | nil => exact absurd rfl h.ne_nil
  | cons c rest => exact ⟨c, rfl, h.head c rest rfl⟩

theorem Core.exists_last (h : Core blank text) : ∃ d, text.getLast? = some d ∧ blank d = false := by
  rcases List.eq_nil_or_concat text with hnil | ⟨front, d, hconcat⟩
  · exact absurd hnil h.ne_nil
  · rw [List.concat_eq_append] at hconcat
    exact ⟨d, by rw [hconcat, List.getLast?_concat], h.last front d hconcat⟩

theorem rdropWhile_append_of {p : Char → Bool} {front back : List Char} {d : Char}
    (hlast : front.getLast? = some d) (hd : p d = false) (hback : ∀ c ∈ back, p c = true) :
    (front ++ back).rdropWhile p = front := by
  obtain ⟨rest, rfl⟩ := List.getLast?_eq_some_iff.mp hlast
  rw [List.rdropWhile, List.reverse_append, List.dropWhile_append_of_pos (by simpa using hback),
    List.reverse_concat, List.dropWhile_cons_of_neg (by simp [hd]), List.reverse_cons, List.reverse_reverse]

theorem trimmed_append {lead trail : List Char} (hcore : Core blank text)
    (hlead : ∀ c ∈ lead, blank c = true) (htrail : ∀ c ∈ trail, blank c = true) :
    trimmed blank (lead ++ text ++ trail) = text := by
  obtain ⟨d, hlast, hd⟩ := hcore.exists_last
  have hdrop : (lead ++ text ++ trail).dropWhile blank = text ++ trail := by
    rw [List.append_assoc, List.dropWhile_append_of_pos hlead]
    cases text with
    | nil => exact absurd rfl hcore.ne_nil
    | cons c rest => rw [List.cons_append, List.dropWhile_cons_of_neg (by simp [hcore.head c rest rfl])]
  rw [trimmed, hdrop]
  exact rdropWhile_append_of hlast hd htrail

/-! Trimming a text in two parts that a character keeps apart -/

variable {l d : List Char}

theorem dropWhile_append_cons (hc : blank c = false) :
    (l ++ c :: d).dropWhile blank = l.dropWhile blank ++ c :: d := by
  induction l with
  | nil => rw [List.nil_append, List.dropWhile_cons_of_neg (by simp [hc]), List.dropWhile_nil, List.nil_append]
  | cons e l ih =>
    rw [List.cons_append]
    by_cases he : blank e = true
    · rw [List.dropWhile_cons_of_pos he, List.dropWhile_cons_of_pos he, ih]
    · rw [List.dropWhile_cons_of_neg he, List.dropWhile_cons_of_neg he, List.cons_append]

theorem trimmed_append_cons (hc : blank c = false) :
    trimmed blank (l ++ c :: d) = l.dropWhile blank ++ c :: d.rdropWhile blank := by
  rw [trimmed, dropWhile_append_cons hc, List.rdropWhile, List.reverse_append, List.reverse_cons,
    List.append_assoc, List.singleton_append, dropWhile_append_cons hc]
  simp [List.rdropWhile]

theorem trimmed_dropWhile (text : List Char) :
    trimmed blank (text.dropWhile blank) = trimmed blank text := by
  rw [trimmed, List.dropWhile_idempotent, trimmed]

theorem trimmed_rdropWhile (text : List Char) :
    trimmed blank (text.rdropWhile blank) = trimmed blank text := by
  by_cases h : trimmed blank text = []
  · have hnil : text.rdropWhile blank = [] := List.rdropWhile_eq_nil_iff.mpr (all_blank_of_trimmed_nil h)
    rw [hnil, h]
    rfl
  · obtain ⟨lead, trail, -, -, hr, hlead, -⟩ := trim_parts h
    rw [hr]
    simpa using trimmed_append (core_trimmed h) hlead (List.forall_mem_nil _)

end Trim

/-! ## Spans that cover a text -/

section Covers

/-- Every character of `text` that is not blank lies in one of the spans, where `text` starts at the
offset `base`. -/
def Covers (blank : Char → Bool) (spans : List (Nat × Nat)) (base : Nat) (text : List Char) : Prop :=
  ∀ pre c post, text = pre ++ c :: post → blank c = false →
    ∃ span ∈ spans, span.1 ≤ base + byteLen pre ∧ base + byteLen pre < span.2

variable {blank : Char → Bool} {spans more : List (Nat × Nat)} {base : Nat} {a b : List Char}

theorem Covers.nil : Covers blank spans base [] := by
  intro pre c post h
  simp at h

theorem Covers.of_blank (h : ∀ c ∈ text, blank c = true) : Covers blank spans base text := by
  intro pre c post htext hc
  have hmem : c ∈ text := by
    rw [htext]
    simp
  rw [h c hmem] at hc
  cases hc

theorem Covers.mono (h : Covers blank spans base text) (hsub : ∀ span ∈ spans, span ∈ more) :
    Covers blank more base text := by
  intro pre c post htext hc
  obtain ⟨span, hmem, hspan⟩ := h pre c post htext hc
  exact ⟨span, hsub span hmem, hspan⟩

theorem Covers.append (ha : Covers blank spans base a)
    (hb : Covers blank spans (base + byteLen a) b) : Covers blank spans base (a ++ b) := by
  intro pre c post htext hc
  rcases List.append_eq_append_iff.mp htext with ⟨mid, rfl, hmid⟩ | ⟨mid, rfl, hmid⟩
  · obtain ⟨span, hmem, hspan⟩ := hb mid c post hmid hc
    refine ⟨span, hmem, ?_⟩
    rw [byteLen_append]
    omega
  · cases mid with
    | nil =>
      obtain ⟨span, hmem, hspan⟩ := hb [] c post hmid.symm hc
      refine ⟨span, hmem, ?_⟩
      simpa using hspan
    | cons d mid =>
      rw [List.cons_append, List.cons.injEq] at hmid
      exact ha pre c mid (by rw [hmid.1]) hc

theorem Covers.left (h : Covers blank spans base (a ++ b)) : Covers blank spans base a := by
  intro pre c post htext hc
  exact h pre c (post ++ b) (by rw [htext, List.append_assoc, List.cons_append]) hc

theorem Covers.of_mem (h : (base, base + byteLen text) ∈ spans) : Covers blank spans base text := by
  intro pre c post htext _
  refine ⟨_, h, Nat.le_add_right _ _, ?_⟩
  have hc := c.utf8Size_pos
  show base + byteLen pre < base + byteLen text
  rw [htext, byteLen_append, byteLen_cons]
  omega

end Covers

end Text
