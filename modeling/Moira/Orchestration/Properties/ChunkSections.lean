import Moira.Orchestration.Properties.Chunking

/-!
# The section of a chunk

A Markdown chunk carries the title of the section it lies in.

- **`chunk_sections`** — the title of a chunk is that of the last heading before it, and no chunk
  lies on both sides of a heading
-/

namespace Moira.Chunking

open Text

/-! ## Heading lines -/

/-- A heading line: one to six hash marks, blank characters, and a text. The blank characters around
the line and the hash marks behind the text do not belong to it. -/
inductive HeadingLine (line text : List Char) : Prop
  | mk (hashes : Nat) (lead gap back closing trail : List Char)
      (hline : line = lead ++ (List.replicate hashes '#' ++ (gap ++ (text ++ (back ++ closing)))) ++ trail)
      (hhashes : 1 ≤ hashes ∧ hashes ≤ 6)
      (hlead : ∀ c ∈ lead, isWhiteSpace c = true) (htrail : ∀ c ∈ trail, isWhiteSpace c = true)
      (hgap : ∀ c ∈ gap, isWhiteSpace c = true) (hgapped : gap ≠ [])
      (hback : ∀ c ∈ back, isWhiteSpace c = true) (hclosing : ∀ c ∈ closing, c = '#')
      (htext : Core isWhiteSpace text)
      (hopen : closing = [] → back = [])
      (hclosed : back = [] → text.getLast? ≠ some '#')

theorem hash_not_blank : isWhiteSpace '#' = false := by
  decide

theorem rest_head {gap : List Char} (rest : List Char) (hgap : ∀ c ∈ gap, isWhiteSpace c = true)
    (hgapped : gap ≠ []) : ∃ c, (gap ++ rest).head? = some c ∧ isWhiteSpace c = true := by
  cases gap with
  | nil => exact absurd rfl hgapped
  | cons c gap => exact ⟨c, rfl, hgap c List.mem_cons_self⟩

variable {rest : List Char}

theorem takeWhile_hashes (hashes : Nat) {c : Char} (hhead : rest.head? = some c)
    (hblank : isWhiteSpace c = true) :
    (List.replicate hashes '#' ++ rest).takeWhile (· = '#') = List.replicate hashes '#' := by
  rw [List.takeWhile_append_of_pos (by simp)]
  obtain ⟨tail, rfl⟩ := List.head?_eq_some_iff.mp hhead
  have hne : c ≠ '#' := by
    rintro rfl
    rw [hash_not_blank] at hblank
    cases hblank
  rw [List.takeWhile_cons_of_neg (by simpa using hne), List.append_nil]

variable {text : List Char}

theorem heading_end {back closing : List Char} (hback : ∀ c ∈ back, isWhiteSpace c = true)
    (hclosing : ∀ c ∈ closing, c = '#') (htext : Core isWhiteSpace text)
    (hopen : closing = [] → back = []) (hclosed : back = [] → text.getLast? ≠ some '#') :
    Core isWhiteSpace (text ++ (back ++ closing)) ∧
      trim ((text ++ (back ++ closing)).rdropWhile (· = '#')) = text := by
  obtain ⟨first, hfirst, hfirstBlank⟩ := htext.exists_head
  obtain ⟨last, hlast, hlastBlank⟩ := htext.exists_last
  have hhead : (text ++ (back ++ closing)).head? = some first := by
    rw [List.head?_append, hfirst, Option.some_or]
  -- the last character before the closing marks is no mark
  obtain ⟨d, hd, hmark⟩ : ∃ d, (text ++ back).getLast? = some d ∧ d ≠ '#' := by
    rcases List.eq_nil_or_concat back with rfl | ⟨front, d, hconcat⟩
    · refine ⟨last, by rw [List.append_nil, hlast], ?_⟩
      rintro rfl
      exact hclosed rfl hlast
    · rw [List.concat_eq_append] at hconcat
      subst hconcat
      refine ⟨d, by rw [← List.append_assoc, List.getLast?_concat], ?_⟩
      rintro rfl
      have hblank := hback '#' (by simp)
      rw [hash_not_blank] at hblank
      cases hblank
  constructor
  · rcases List.eq_nil_or_concat closing with rfl | ⟨front, mark, hconcat⟩
    · rw [hopen rfl, List.append_nil, List.append_nil]
      exact htext
    · rw [List.concat_eq_append] at hconcat
      subst hconcat
      refine .of_ends hhead hfirstBlank (d := '#') ?_ hash_not_blank
      rw [← List.append_assoc, ← List.append_assoc, List.getLast?_concat, hclosing mark (by simp)]
  · rw [← List.append_assoc, rdropWhile_append_of hd (by simpa using hmark) (by simpa using hclosing)]
    exact trimmed_append htext (List.forall_mem_nil _) hback

variable {line : List Char}

theorem atxHeading_of (h : HeadingLine line text) :
    atxHeading (trim line) = some (text.take 512) := by
  obtain ⟨hashes, lead, gap, back, closing, trail, hline, hhashes, hlead, htrail, hgap, hgapped, hback,
    hclosing, htext, hopen, hclosed⟩ := h
  obtain ⟨hend, htitle⟩ := heading_end hback hclosing htext hopen hclosed
  obtain ⟨c, hhead, hblank⟩ := rest_head (text ++ (back ++ closing)) hgap hgapped
  -- trimmed, the line is the marks and what is behind them
  have hcore : Core isWhiteSpace (List.replicate hashes '#' ++ (gap ++ (text ++ (back ++ closing)))) := by
    obtain ⟨d, hlast, hd⟩ := hend.exists_last
    obtain ⟨n, hn⟩ : ∃ n, hashes = n + 1 := ⟨hashes - 1, by omega⟩
    refine .of_ends (c := '#') ?_ hash_not_blank (d := d) ?_ hd
    · rw [hn]
      rfl
    · rw [List.getLast?_append, List.getLast?_append, hlast, Option.some_or, Option.some_or]
  have htrimmed : trim line = List.replicate hashes '#' ++ (gap ++ (text ++ (back ++ closing))) := by
    rw [hline]
    exact trimmed_append hcore hlead htrail
  have hmarks := takeWhile_hashes hashes hhead hblank
  have hrest : trim (gap ++ (text ++ (back ++ closing))) = text ++ (back ++ closing) := by
    have htrim := trimmed_append hend hgap (List.forall_mem_nil _)
    rwa [List.append_nil] at htrim
  unfold atxHeading
  simp only [htrimmed, hmarks, List.length_replicate, List.drop_left', hhead,
    Option.any_some, hblank, hrest, htitle]
  rw [if_neg (by simp; omega), if_neg (by simp), if_neg (by simpa using htext.ne_nil)]

theorem heading_end_of {body : List Char} (hbody : Core isWhiteSpace body)
    (htext : trim (body.rdropWhile (· = '#')) = text) (hne : text ≠ []) :
    ∃ back closing, body = text ++ (back ++ closing) ∧ (∀ c ∈ back, isWhiteSpace c = true) ∧
      (∀ c ∈ closing, c = '#') ∧ (closing = [] → back = []) ∧
      (back = [] → text.getLast? ≠ some '#') := by
  set front := body.rdropWhile (· = '#') with hfront
  have hcut : front ++ body.rtakeWhile (· = '#') = body := List.rdropWhile_append_rtakeWhile
  have htextNe : trimmed isWhiteSpace front ≠ [] := by rwa [← htext] at hne
  obtain ⟨lead, back, hparts, -, -, hlead, hback⟩ := trim_parts htextNe
  -- the text starts where the body starts
  have hleadNil : lead = [] := by
    cases lead with
    | nil => rfl
    | cons c lead =>
      rw [← hcut, hparts] at hbody
      have hblank := hbody.head c _ rfl
      rw [hlead c List.mem_cons_self] at hblank
      cases hblank
  have hfrontText : front = text ++ back := by
    rw [hleadNil, List.nil_append] at hparts
    rw [← htext]
    exact hparts
  refine ⟨back, body.rtakeWhile (· = '#'), ?_, hback, ?_, fun hnil => ?_, fun hnil => ?_⟩
  · rw [← List.append_assoc, ← hfrontText, hcut]
  · intro c hc
    simpa using List.mem_rtakeWhile_imp hc
  · -- without closing marks the text ends where the body ends
    rw [hnil, List.append_nil, hfrontText] at hcut
    rcases List.eq_nil_or_concat back with hback' | ⟨before, d, hconcat⟩
    · exact hback'
    · rw [List.concat_eq_append] at hconcat
      have hlast := hbody.last (text ++ before) d (by rw [← hcut, hconcat, List.append_assoc])
      rw [hback d (by simp [hconcat])] at hlast
      cases hlast
  · rw [hnil, List.append_nil] at hfrontText
    intro hlast
    have hnot := List.rdropWhile_last_not (· = '#') body (by rw [← hfront, hfrontText]; exact hne)
    rw [List.getLast?_eq_some_getLast hne, Option.some.injEq] at hlast
    simp only [← hfront, hfrontText, hlast] at hnot
    exact hnot rfl

variable {title : List Char}

theorem headingLine_of (h : atxHeading (trim line) = some title) :
    ∃ text, HeadingLine line text ∧ title = text.take 512 := by
  unfold atxHeading at h
  set marks := (trim line).takeWhile (· = '#') with hmarks
  dsimp only at h
  split at h
  · cases h
  next hhashes =>
  split at h
  · cases h
  next hhead =>
  split at h
  · cases h
  next htext =>
  rw [Option.some.injEq] at h
  set rest := (trim line).drop marks.length with hrest
  have htextNe : trim ((trim rest).rdropWhile (· = '#')) ≠ [] := by simpa using htext
  have htrim : trim line = marks ++ rest := by
    obtain ⟨behind, hbehind⟩ := List.takeWhile_prefix (l := trim line) (· = '#')
    rw [← hmarks] at hbehind
    rw [hrest, ← hbehind, List.drop_left]
  have hmarked : marks = List.replicate marks.length '#' :=
    List.eq_replicate_iff.mpr ⟨rfl, fun c hc => by simpa using List.mem_takeWhile_imp hc⟩
  have hlen : 1 ≤ marks.length ∧ marks.length ≤ 6 := by
    simp only [Bool.or_eq_true, decide_eq_true_eq] at hhashes
    omega
  have hbodyNe : trim rest ≠ [] := by
    intro hnil
    rw [hnil] at htextNe
    exact htextNe rfl
  have htrimNe : trim line ≠ [] := by
    rw [htrim]
    intro hnil
    rw [(List.append_eq_nil_iff.mp hnil).1] at hlen
    exact absurd hlen.1 (by decide)
  obtain ⟨lead, trail, hline, -, -, hlead, htrail⟩ := trim_parts htrimNe
  obtain ⟨gap, tail, hparts, -, -, hgap, htail⟩ := trim_parts hbodyNe
  obtain ⟨back, closing, hbody, hback, hclosing, hopen, hclosed⟩ :=
    heading_end_of (core_trimmed hbodyNe) rfl htextNe
  refine ⟨_, .mk marks.length lead gap back closing (tail ++ trail) ?_ hlen hlead ?_ hgap ?_ hback
    hclosing (core_trimmed htextNe) hopen hclosed, h.symm⟩
  · have hwhole : line = lead ++ (marks ++ (gap ++ trimmed isWhiteSpace rest ++ tail)) ++ trail := by
      rw [← hparts, ← htrim]
      exact hline
    conv_lhs => rw [hwhole, hmarked, hbody]
    simp only [List.append_assoc]
  · intro c hc
    exact (List.mem_append.mp hc).elim (htail c) (htrail c)
  · -- the blank character behind the marks is not part of the text
    rintro rfl
    obtain ⟨c, hfirst, hblank⟩ := (core_trimmed hbodyNe).exists_head
    rw [hparts, List.nil_append, List.head?_append, hfirst] at hhead
    exact hhead (by simp [hblank])

/-- **The lines the parser takes for headings, and their titles.** -/
theorem atxHeading_iff :
    atxHeading (trim line) = some title ↔ ∃ text, HeadingLine line text ∧ title = text.take 512 :=
  ⟨headingLine_of, fun ⟨_, hline, htitle⟩ => htitle ▸ atxHeading_of hline⟩

/-! ## Sections -/

/-- A heading starts at an offset of the lines, with this title. -/
def HeadingAt (lines : List (List Char)) (offset : Nat) (title : List Char) : Prop :=
  ∃ before line after, lines = before ++ line :: after ∧ offset = byteLen before.flatten ∧
    ∃ text, HeadingLine (stripEnding line) text ∧ title = text.take 512

/-- The section an offset lies in: that of the last heading at or before it. -/
def SectionAt (lines : List (List Char)) (offset : Nat) : Option (List Char) → Prop
  | none => ∀ start title, HeadingAt lines start title → offset < start
  | some title => ∃ start ≤ offset, HeadingAt lines start title ∧
      ∀ later other, HeadingAt lines later other → later ≤ offset → later ≤ start

variable {lines : List (List Char)} {offset : Nat}

theorem HeadingAt.le (h : HeadingAt lines offset title) : offset ≤ byteLen lines.flatten := by
  obtain ⟨before, line, after, rfl, rfl, -⟩ := h
  rw [List.flatten_append, byteLen_append]
  omega

theorem headingAt_concat : HeadingAt (lines ++ [line]) offset title ↔
    HeadingAt lines offset title ∨
      (offset = byteLen lines.flatten ∧ atxHeading (trim (stripEnding line)) = some title) := by
  constructor
  · rintro ⟨before, found, after, hsplit, hoffset, hheading⟩
    rcases List.eq_nil_or_concat after with rfl | ⟨front, last, hconcat⟩
    · obtain ⟨hbefore, hline⟩ := List.append_inj' hsplit rfl
      rw [List.cons.injEq] at hline
      rw [hline.1, hbefore]
      exact .inr ⟨hoffset, atxHeading_iff.mpr hheading⟩
    · rw [List.concat_eq_append] at hconcat
      rw [hconcat, ← List.cons_append, ← List.append_assoc] at hsplit
      obtain ⟨hlines, -⟩ := List.append_inj' hsplit rfl
      exact .inl ⟨before, found, front, hlines, hoffset, hheading⟩
  · rintro (⟨before, found, after, hsplit, hoffset, hheading⟩ | ⟨hoffset, hheading⟩)
    · exact ⟨before, found, after ++ [line], by rw [hsplit]; simp, hoffset, hheading⟩
    · exact ⟨lines, line, [], rfl, hoffset, atxHeading_iff.mp hheading⟩

theorem headingAt_plain (hplain : atxHeading (trim (stripEnding line)) = none) :
    HeadingAt (lines ++ [line]) offset title ↔ HeadingAt lines offset title := by
  rw [headingAt_concat, hplain]
  simp

theorem SectionAt.later {section? : Option (List Char)}
    (h : SectionAt lines (byteLen lines.flatten) section?)
    (hlate : ∀ start title, HeadingAt lines start title → start ≤ offset) :
    SectionAt lines offset section? := by
  cases section? with
  | none => exact fun start title hheading => absurd (h start title hheading) (Nat.not_lt.mpr hheading.le)
  | some title =>
    obtain ⟨start, -, hheading, hlast⟩ := h
    exact ⟨start, hlate start title hheading, hheading, fun later other hother _ =>
      hlast later other hother hother.le⟩

theorem SectionAt.concat {section? : Option (List Char)} (h : SectionAt lines offset section?)
    (hinside : offset < byteLen lines.flatten) : SectionAt (lines ++ [line]) offset section? := by
  cases section? with
  | none =>
    intro start title hheading
    rcases headingAt_concat.mp hheading with hheading | ⟨rfl, -⟩
    · exact h start title hheading
    · exact hinside
  | some title =>
    obtain ⟨start, hle, hheading, hlast⟩ := h
    refine ⟨start, hle, headingAt_concat.mpr (.inl hheading), fun later other hother hbefore => ?_⟩
    rcases headingAt_concat.mp hother with hother | ⟨rfl, -⟩
    · exact hlast later other hother hbefore
    · omega

/-! ## The walk -/

/-- What the walk keeps: the section it is in, the section of every span it has closed, and that no
heading lies within a span or within the block. -/
structure Sectioned (lines : List (List Char)) (w : Walk) : Prop where
  here : SectionAt lines (byteLen lines.flatten) w.sectionTitle
  inside : ∀ span ∈ w.spans, span.start < span.stop ∧ span.stop ≤ byteLen lines.flatten
  titled : ∀ span ∈ w.spans, SectionAt lines span.start span.sectionTitle
  apart : ∀ span ∈ w.spans, ∀ start title, HeadingAt lines start title →
    span.stop ≤ start ∨ start ≤ span.start
  block : ∀ b, w.blockStart = some b → ∀ start title, HeadingAt lines start title → start ≤ b

variable {w : Walk} {maxChunkChars : Nat} {content : List Char}

theorem Sectioned.flush (h : Sectioned lines w) (hcontent : content = lines.flatten ++ rest)
    (hw : Walked content (max maxChunkChars 1) lines.flatten w) :
    ∃ w', w.flush content maxChunkChars = some w' ∧ w'.blockStart = none ∧ Sectioned lines w' := by
  obtain ⟨w', hflush, hstart', hgathered⟩ := Walk.flush_spec hcontent hw
  refine ⟨w', hflush, hstart', ?_⟩
  have hinside : ∀ span ∈ w'.spans, span.start < span.stop ∧ span.stop ≤ byteLen lines.flatten := by
    intro span hspan
    obtain ⟨pre, text, post, -, hoffsets, hcore, -⟩ := hgathered.sound _ (List.mem_map_of_mem hspan)
    obtain ⟨hspanStart, hspanStop⟩ := Prod.mk.inj hoffsets
    have hpos := byteLen_pos hcore.ne_nil
    exact ⟨by omega, hgathered.inside _ (List.mem_map_of_mem hspan)⟩
  rcases hw with ⟨hstart, -⟩ | ⟨before, block, blanks, hpassed, hstart, hend, -, -⟩
  · have hsame : w' = w := by
      rw [Walk.flush, hstart, Option.some.injEq] at hflush
      exact hflush.symm
    rw [hsame]
    exact h
  · have hplace : content = before ++ block ++ (blanks ++ rest) := by
      rw [hcontent, hpassed, List.append_assoc _ blanks]
    obtain ⟨spans, hspans, hwindows⟩ := windowSpans_spec hplace maxChunkChars 0
    simp only [Walk.flush, hstart, hend, hspans, Option.bind_eq_bind, Option.bind_some,
      Option.pure_def, Option.some.injEq] at hflush
    -- a window starts at or behind every heading so far
    have hnew : ∀ span ∈ spans, ∀ start title, HeadingAt lines start title → start ≤ span.1 :=
      fun span hspan start title hheading =>
        Nat.le_trans (h.block _ hstart start title hheading) (hwindows.inside span hspan).1
    subst hflush
    refine ⟨h.here, hinside, ?_, ?_, fun b hb => by cases hb⟩
    · intro span hspan
      rcases List.mem_append.mp hspan with hspan | hspan
      · exact h.titled span hspan
      · obtain ⟨window, hwindow, rfl⟩ := List.mem_map.mp hspan
        exact h.here.later (hnew window hwindow)
    · intro span hspan start title hheading
      rcases List.mem_append.mp hspan with hspan | hspan
      · exact h.apart span hspan start title hheading
      · obtain ⟨window, hwindow, rfl⟩ := List.mem_map.mp hspan
        exact .inr (hnew window hwindow start title hheading)

theorem Sectioned.plain (h : Sectioned lines w) (hplain : atxHeading (trim (stripEnding line)) = none) :
    Sectioned (lines ++ [line]) w := by
  have hlonger : byteLen lines.flatten ≤ byteLen (lines ++ [line]).flatten := by
    rw [List.flatten_append, byteLen_append]
    omega
  have hhere : SectionAt lines (byteLen (lines ++ [line]).flatten) w.sectionTitle :=
    h.here.later fun start title hheading => Nat.le_trans hheading.le hlonger
  refine ⟨?_, ?_, ?_, ?_, ?_⟩
  · revert hhere
    cases w.sectionTitle <;> simp only [SectionAt, headingAt_plain hplain, imp_self]
  · exact fun span hspan => ⟨(h.inside span hspan).1, Nat.le_trans (h.inside span hspan).2 hlonger⟩
  · intro span hspan
    have hinside := h.inside span hspan
    exact (h.titled span hspan).concat (by omega)
  · exact fun span hspan start title hheading =>
      h.apart span hspan start title ((headingAt_plain hplain).mp hheading)
  · exact fun b hb start title hheading => h.block b hb start title ((headingAt_plain hplain).mp hheading)

theorem Sectioned.heading (h : Sectioned lines w)
    (hheading : atxHeading (trim (stripEnding line)) = some title) (hstart : w.blockStart = none) :
    Sectioned (lines ++ [line]) { w with sectionTitle := some title } := by
  have hlonger : byteLen lines.flatten ≤ byteLen (lines ++ [line]).flatten := by
    rw [List.flatten_append, byteLen_append]
    omega
  refine ⟨?_, ?_, ?_, ?_, fun b hb => ?_⟩
  · refine ⟨byteLen lines.flatten, hlonger, headingAt_concat.mpr (.inr ⟨rfl, hheading⟩), ?_⟩
    intro later other hother _
    rcases headingAt_concat.mp hother with hother | ⟨rfl, -⟩
    · exact hother.le
    · exact Nat.le_refl _
  · exact fun span hspan => ⟨(h.inside span hspan).1, Nat.le_trans (h.inside span hspan).2 hlonger⟩
  · intro span hspan
    have hinside := h.inside span hspan
    exact (h.titled span hspan).concat (by omega)
  · intro span hspan start other hother
    rcases headingAt_concat.mp hother with hother | ⟨rfl, -⟩
    · exact h.apart span hspan start other hother
    · exact .inl (h.inside span hspan).2
  · rw [show ({ w with sectionTitle := some title } : Walk).blockStart = w.blockStart from rfl, hstart] at hb
    cases hb

theorem Sectioned.extend {lineStart : Nat} (h : Sectioned lines w)
    (hheadings : ∀ start title, HeadingAt lines start title → start ≤ lineStart) (joined : List Char) :
    Sectioned lines (w.extend lineStart joined) := by
  refine ⟨h.here, h.inside, h.titled, h.apart, fun b hb start title hheading => ?_⟩
  have hb : some (w.blockStart.getD (lineStart + leadingWhitespaceBytes joined)) = some b := hb
  rw [Option.some.injEq] at hb
  cases hstart : w.blockStart with
  | none =>
    rw [hstart, Option.getD_none] at hb
    have hle := hheadings start title hheading
    omega
  | some old =>
    rw [hstart, Option.getD_some] at hb
    rw [← hb]
    exact h.block old hstart start title hheading

theorem headings_concat_le (start : Nat) (found : List Char) (h : HeadingAt (lines ++ [line]) start found) :
    start ≤ byteLen lines.flatten := by
  rcases headingAt_concat.mp h with h | ⟨rfl, -⟩
  · exact h.le
  · exact Nat.le_refl _

/-- **One line keeps the sections**, whether it is blank, a heading or neither. -/
theorem Sectioned.walkLine (h : Sectioned lines w) (hcontent : content = lines.flatten ++ rest)
    (hw : Walked content (max maxChunkChars 1) lines.flatten w) (line : List Char) :
    ∃ w', walkLine content true maxChunkChars w (byteLen lines.flatten, stripEnding line) = some w' ∧
      Sectioned (lines ++ [line]) w' := by
  obtain ⟨flushed, hflush, hstart, hflushed⟩ := h.flush hcontent hw
  unfold Chunking.walkLine
  by_cases hnil : trim (stripEnding line) = []
  · have hplain : atxHeading (trim (stripEnding line)) = none := by
      rw [hnil]
      rfl
    simp only [hnil, List.isEmpty_nil, if_true]
    exact ⟨flushed, hflush, hflushed.plain hplain⟩
  · have hfull : (trim (stripEnding line)).isEmpty = false := List.isEmpty_eq_false_iff.mpr hnil
    simp only [hfull, Bool.false_eq_true, if_false, if_true]
    cases hheading : atxHeading (trim (stripEnding line)) with
    | none => exact ⟨_, rfl, (h.plain hheading).extend headings_concat_le _⟩
    | some heading =>
      -- the heading closes the block of the section before it
      refine ⟨_, by simp only [hflush, Option.bind_eq_bind, Option.bind_some]; rfl, ?_⟩
      exact (hflushed.heading hheading hstart).extend headings_concat_le _

theorem Sectioned.walkLines (more : List (List Char)) : ∀ (lines : List (List Char)) (w : Walk),
    content = (lines ++ more).flatten → Sectioned lines w →
    Walked content (max maxChunkChars 1) lines.flatten w →
    ∃ w', (lineSpans (byteLen lines.flatten) more).foldlM (Chunking.walkLine content true maxChunkChars) w =
        some w' ∧ Sectioned (lines ++ more) w' ∧ Walked content (max maxChunkChars 1) content w' := by
  induction more with
  | nil =>
    intro lines w hcontent h hw
    rw [List.append_nil] at hcontent ⊢
    rw [← hcontent] at hw
    exact ⟨w, rfl, h, hw⟩
  | cons line more ih =>
    intro lines w hcontent h hw
    have hrest : content = lines.flatten ++ (line :: more).flatten := by rw [hcontent, List.flatten_append]
    obtain ⟨w', hline, h'⟩ := h.walkLine hrest hw line
    obtain ⟨same, hsame, hw'⟩ := walkLine_spec line true hrest hw
    rw [hline, Option.some.injEq] at hsame
    subst hsame
    have hpassed : (lines ++ [line]).flatten = lines.flatten ++ line := by simp
    obtain ⟨last, hlast, hsectioned, hdone⟩ := ih (lines ++ [line]) w' (by rw [hcontent]; simp) h'
      (by rwa [hpassed])
    rw [List.append_assoc, List.singleton_append] at hsectioned
    refine ⟨last, ?_, hsectioned, hdone⟩
    rw [lineSpans, List.foldlM_cons, hline, ← byteLen_append, ← hpassed]
    exact hlast

theorem structuralSpans_sections (content : List Char) (maxChunkChars : Nat) :
    ∃ spans, structuralSpans content true maxChunkChars = some spans ∧ ∀ span ∈ spans,
      SectionAt (splitInclusive content) span.start span.sectionTitle ∧
      ∀ start title, HeadingAt (splitInclusive content) start title →
        span.stop ≤ start ∨ start ≤ span.start := by
  have hnone : ∀ start title, ¬HeadingAt [] start title := by
    rintro start title ⟨before, line, after, hsplit, -⟩
    simp at hsplit
  have hsectioned : Sectioned [] {} :=
    ⟨fun start title hheading => absurd hheading (hnone start title), by simp, by simp, by simp, by simp⟩
  have hwalked : Walked content (max maxChunkChars 1) [] {} :=
    .closed rfl ⟨by simp, by simp, .nil, by simp⟩
  obtain ⟨w, hw, hlast, hdone⟩ := Sectioned.walkLines (splitInclusive content) [] {}
    (by rw [List.nil_append, splitInclusive_flatten]) hsectioned hwalked
  rw [List.nil_append] at hlast
  have hwhole : content = (splitInclusive content).flatten ++ [] := by
    rw [splitInclusive_flatten, List.append_nil]
  obtain ⟨flushed, hflush, -, hfinal⟩ := hlast.flush hwhole (by rwa [splitInclusive_flatten])
  refine ⟨flushed.spans, ?_, fun span hspan => ⟨hfinal.titled span hspan, hfinal.apart span hspan⟩⟩
  unfold structuralSpans
  rw [List.flatten_nil, byteLen_nil] at hw
  simp only [hw, hflush, Option.bind_eq_bind, Option.bind_some]
  rfl

/-! ## Chunks -/

theorem candidates_origin {spans : List SectionSpan} : ∀ {index : Nat} {chunks : List ChunkCandidate},
    candidates content index spans = some chunks → ∀ c ∈ chunks,
      ∃ span ∈ spans, c.startOffset = span.start ∧ c.endOffset = span.stop ∧
        c.sectionTitle = span.sectionTitle := by
  induction spans with
  | nil =>
    intro index chunks h c hc
    rw [candidates, Option.some.injEq] at h
    rw [← h] at hc
    cases hc
  | cons span spans ih =>
    intro index chunks h c hc
    simp only [candidates, Option.bind_eq_bind, Option.bind_eq_some_iff, Option.pure_def,
      Option.some.injEq] at h
    obtain ⟨text, -, rest, hrest, rfl⟩ := h
    rcases List.mem_cons.mp hc with rfl | hc
    · exact ⟨span, List.mem_cons_self, rfl, rfl, rfl⟩
    · obtain ⟨found, hfound, hsame⟩ := ih hrest c hc
      exact ⟨found, List.mem_cons_of_mem _ hfound, hsame⟩

/-- **Sections.** A chunk of a Markdown document carries the title of the last heading line that
starts at or before it, and none if there is none; and a heading line starts at or before the chunk
or at or behind its end. -/
theorem chunk_sections {limits : ChunkingLimits} {chunks : List ChunkCandidate}
    (h : chunk content .markdown limits = some (.ok chunks)) : ∀ c ∈ chunks,
      SectionAt (splitInclusive content) c.startOffset c.sectionTitle ∧
      ∀ start title, HeadingAt (splitInclusive content) start title →
        c.endOffset ≤ start ∨ start ≤ c.startOffset := by
  obtain ⟨spans, hspans, hsections⟩ := structuralSpans_sections content (max limits.maxChunkChars 1)
  have hsame : spansOf content .markdown limits = some spans := hspans
  unfold chunk at h
  simp only [hsame, Option.bind_eq_bind, Option.bind_some] at h
  split at h
  · cases h
  · obtain ⟨found, hfound, hok⟩ := Option.bind_eq_some_iff.mp h
    cases hok
    intro c hc
    obtain ⟨span, hspan, hstart, hstop, htitle⟩ := candidates_origin hfound c hc
    rw [hstart, hstop, htitle]
    exact hsections span hspan

/-- Two sections, the first of them with text before its heading. -/
theorem chunk_sections_two : ∃ chunks,
    chunk "a\n# One\nb\n  ## Two ##\nc".toList .markdown ⟨80, 10, by decide⟩ = some (.ok chunks) ∧
    chunks.map (·.sectionTitle) = [none, some "One".toList, some "Two".toList] ∧
    ∀ c ∈ chunks,
      SectionAt (splitInclusive "a\n# One\nb\n  ## Two ##\nc".toList) c.startOffset c.sectionTitle ∧
      ∀ start title, HeadingAt (splitInclusive "a\n# One\nb\n  ## Two ##\nc".toList) start title →
        c.endOffset ≤ start ∨ start ≤ c.startOffset := by
  have h : ((chunk "a\n# One\nb\n  ## Two ##\nc".toList .markdown ⟨80, 10, by decide⟩).bind
      Except.toOption).map (·.map (·.sectionTitle)) =
        some [none, some "One".toList, some "Two".toList] := by
    decide +kernel
  obtain ⟨chunks, hchunks, htitles⟩ := Option.map_eq_some_iff.mp h
  obtain ⟨result, hresult, hok⟩ := Option.bind_eq_some_iff.mp hchunks
  cases result with
  | error refusal => cases hok
  | ok found =>
    cases hok
    exact ⟨chunks, hresult, htitles, chunk_sections hresult⟩

end Moira.Chunking
