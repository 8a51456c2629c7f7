import Moira.Lib.Text
import Moira.Runner.Properties.Truncation

/-!
# A value that a terminal has wrapped

What the runner looks for is written across rows, between escape sequences, and behind other text.

- **`wrapped_value`** — the value is put together from its rows, and taken from its hyperlink
-/

namespace Moira.Runner

/-! ## What a stream writes -/

/-- The controls that the reader drops: all but tab, line feed, carriage return and escape. -/
def isDropped (c : Char) : Bool :=
  isControl c && !"\n\r\t".toList.contains c && c ≠ escape

/-- A stream writes a text: the characters of the text, between controls that are dropped and whole
escape sequences. -/
inductive Shows : List Char → List Char → Prop
  | done : Shows [] []
  | char (c : Char) {s t : List Char} (hkept : (isControl c && !"\n\r\t".toList.contains c) = false)
      (h : Shows s t) : Shows (c :: s) (c :: t)
  | control (c : Char) {s t : List Char} (hdropped : isDropped c = true) (h : Shows s t) : Shows (c :: s) t
  /-- `ESC [`, parameters and a final character -/
  | csi (parameters : List Char) (final : Char) {s t : List Char}
      (hparameters : ∀ c ∈ parameters, (0x40 ≤ c.toNat && c.toNat ≤ 0x7e) = false)
      (hfinal : (0x40 ≤ final.toNat && final.toNat ≤ 0x7e) = true) (h : Shows s t) :
      Shows (escape :: '[' :: (parameters ++ final :: s)) t
  /-- `ESC ]` and the like, up to `BEL` or `ESC \` -/
  | osc (introducer : Char) (payload terminator : List Char) {s t : List Char}
      (hintroducer : introducesString introducer = true)
      (hpayload : bell ∉ payload) (hopen : ¬[escape, '\\'] <:+: payload)
      (hterminator : terminator = [bell] ∨ terminator = [escape, '\\']) (h : Shows s t) :
      Shows (escape :: introducer :: (payload ++ terminator ++ s)) t
  /-- `ESC 7` and the like -/
  | pair (second : Char) {s t : List Char} (hsecond : second ≠ '[')
      (hstring : introducesString second = false) (h : Shows s t) : Shows (escape :: second :: s) t

variable {text : List Char}

theorem shows_self (h : ∀ c ∈ text, isControl c = false) : Shows text text := by
  induction text with
  | nil => exact .done
  | cons c text ih =>
    exact .char c (by rw [h c List.mem_cons_self, Bool.false_and])
      (ih fun d hd => h d (List.mem_cons_of_mem _ hd))

variable {c : Char}

theorem stripAnsi_char (hescape : c ≠ escape) (rest : List Char) :
    stripAnsi (c :: rest) =
      (if isControl c && !"\n\r\t".toList.contains c then [] else [c]) ++ stripAnsi rest := by
  unfold stripAnsi
  cases rest with
  | nil =>
    rw [stripAnsiFrom, stripAnsiFrom, List.append_nil]
    simp only [hescape, decide_false, Bool.false_or]
  | cons d rest =>
    rw [stripAnsiFrom, if_neg hescape]
    split
    · rw [List.nil_append]
    · rw [List.singleton_append]

theorem stripAnsi_csi {parameters : List Char} {final : Char}
    (hparameters : ∀ c ∈ parameters, (0x40 ≤ c.toNat && c.toNat ≤ 0x7e) = false)
    (hfinal : (0x40 ≤ final.toNat && final.toNat ≤ 0x7e) = true) (rest : List Char) :
    stripAnsiFrom .csi (parameters ++ final :: rest) = stripAnsi rest := by
  induction parameters with
  | nil => rw [List.nil_append, stripAnsiFrom, if_pos hfinal, stripAnsi]
  | cons c parameters ih =>
    rw [List.cons_append, stripAnsiFrom, hparameters c List.mem_cons_self, if_neg Bool.false_ne_true]
    exact ih fun d hd => hparameters d (List.mem_cons_of_mem _ hd)

variable {terminator : List Char}

theorem stripAnsi_osc {payload : List Char} (hpayload : bell ∉ payload)
    (hopen : ¬[escape, '\\'] <:+: payload)
    (hterminator : terminator = [bell] ∨ terminator = [escape, '\\']) (rest : List Char) :
    stripAnsiFrom .osc (payload ++ terminator ++ rest) = stripAnsi rest := by
  induction payload with
  | nil =>
    rcases hterminator with rfl | rfl
    · cases rest with
      | nil => rfl
      | cons d rest =>
        show stripAnsiFrom .osc (bell :: d :: rest) = _
        rw [stripAnsiFrom, if_pos rfl, stripAnsi]
    · show stripAnsiFrom .osc (escape :: '\\' :: rest) = _
      rw [stripAnsiFrom, if_neg (by decide), if_pos (by decide), stripAnsi]
  | cons c payload ih =>
    have hbell : c ≠ bell := fun h => hpayload (h ▸ List.mem_cons_self)
    have hrest := ih (fun h => hpayload (List.mem_cons_of_mem _ h)) fun h => hopen (List.infix_cons h)
    -- a terminator follows, so the payload is not the last character
    obtain ⟨d, more, hmore, hd⟩ : ∃ d more, payload ++ terminator ++ rest = d :: more ∧
        (c = escape → d ≠ '\\') := by
      cases payload with
      | nil =>
        rcases hterminator with rfl | rfl
        · exact ⟨bell, rest, rfl, fun _ => by decide⟩
        · exact ⟨escape, '\\' :: rest, rfl, fun _ => by decide⟩
      | cons d payload =>
        refine ⟨d, payload ++ terminator ++ rest, rfl, ?_⟩
        rintro rfl rfl
        exact hopen ⟨[], payload, rfl⟩
    rw [List.cons_append, List.cons_append, hmore, stripAnsiFrom, if_neg hbell, if_neg (by simpa using hd),
      ← hmore, hrest]

/-- **The reader makes of a stream the text that it writes**, whatever the stream goes on with. -/
theorem stripAnsi_shows {s t : List Char} (h : Shows s t) (rest : List Char) :
    stripAnsi (s ++ rest) = t ++ stripAnsi rest := by
  induction h with
  | done => rfl
  | char c hkept _ ih =>
    have hescape : c ≠ escape := by
      rintro rfl
      exact absurd hkept (by decide)
    rw [List.cons_append, stripAnsi_char hescape, hkept, if_neg Bool.false_ne_true, ih]
    rfl
  | control c hdropped _ ih =>
    simp only [isDropped, Bool.and_eq_true, decide_eq_true_eq] at hdropped
    rw [List.cons_append, stripAnsi_char hdropped.2, if_pos (by simpa using hdropped.1), ih]
    rfl
  | @csi parameters final s _ hparameters hfinal _ ih =>
    have hrest := stripAnsi_csi hparameters hfinal (s ++ rest)
    rw [← ih, ← hrest]
    simp only [List.cons_append, List.append_assoc]
    rw [stripAnsi, stripAnsiFrom, if_pos rfl, if_pos rfl]
  | @osc introducer payload terminator s _ hintroducer hpayload hopen hterminator _ ih =>
    have hbracket : introducer ≠ '[' := by
      rintro rfl
      exact absurd hintroducer (by decide)
    have hrest := stripAnsi_osc hpayload hopen hterminator (s ++ rest)
    rw [← ih, ← hrest]
    simp only [List.cons_append, List.append_assoc]
    rw [stripAnsi, stripAnsiFrom, if_pos rfl, if_neg hbracket, if_pos hintroducer]
  | pair second hsecond hstring _ ih =>
    rw [List.cons_append, List.cons_append, stripAnsi, stripAnsiFrom, if_pos rfl, if_neg hsecond, hstring,
      if_neg Bool.false_ne_true, ← ih, stripAnsi]

/-! ## Rows -/

def isBreak (c : Char) : Bool :=
  c = '\n' || c = '\r'

/-- What stands between two rows: blank characters, with a line break among them. -/
structure Gap (gap : List Char) : Prop where
  blank : ∀ c ∈ gap, isWhiteSpace c = true
  broken : ∃ c ∈ gap, isBreak c = true

/-- Rows as they are laid out, each behind a gap. -/
inductive Rows : List (List Char) → List Char → Prop
  | nil : Rows [] []
  | cons (gap row : List Char) {rows : List (List Char)} {text : List Char} (hgap : Gap gap)
      (h : Rows rows text) : Rows (row :: rows) (gap ++ row ++ text)

/-- The line ends here, but for blank characters. -/
def LineEnds (text : List Char) : Prop :=
  ∀ c ∈ text.takeWhile fun c => !isBreak c, isWhiteSpace c = true

instance (text : List Char) : Decidable (LineEnds text) :=
  List.decidableBAll _ _

theorem isUrlChar_range (c : Char) : isUrlChar c = true → 0x21 ≤ c.toNat ∧ c.toNat ≤ 0x7e := by
  intro h
  rw [isUrlChar, Bool.or_eq_true] at h
  rcases h with h | h
  · have hrange := Text.alphanum_range h
    omega
  · have hall : ("-._~:/?#[]@!$&'()*+,;=%".toList.all fun c => 0x21 ≤ c.toNat && c.toNat ≤ 0x7e) = true := by
      decide
    have hc := List.all_eq_true.mp hall c (List.contains_iff_mem.mp h)
    simpa using hc

theorem not_blank_of_url (h : isUrlChar c = true) : isWhiteSpace c = false := by
  have hrange := isUrlChar_range c h
  unfold isWhiteSpace
  simp only [Bool.or_eq_false_iff, Bool.and_eq_false_iff, decide_eq_false_iff_not]
  omega

theorem not_break_of_url (h : isUrlChar c = true) : isBreak c = false := by
  cases hbreak : isBreak c with
  | false => rfl
  | true =>
    rw [isBreak, Bool.or_eq_true, decide_eq_true_eq, decide_eq_true_eq] at hbreak
    rcases hbreak with rfl | rfl <;> exact absurd h (by decide)

/-! ## Lines -/

theorem trimText_nil : trimText [] = [] := rfl

theorem trimText_cons_blank (hc : isWhiteSpace c = true) (line : List Char) :
    trimText (c :: line) = trimText line := by
  unfold trimText
  rw [List.dropWhile_cons_of_pos hc]

theorem trimText_append_blank {blanks : List Char} (hblanks : ∀ c ∈ blanks, isWhiteSpace c = true)
    (line : List Char) : trimText (line ++ blanks) = trimText line := by
  have hall : blanks.dropWhile isWhiteSpace = [] := List.dropWhile_eq_nil_iff.mpr hblanks
  have hreverse : ∀ front : List Char, (front ++ blanks).reverse.dropWhile isWhiteSpace =
      front.reverse.dropWhile isWhiteSpace := by
    intro front
    rw [List.reverse_append, List.dropWhile_append_of_pos (by simpa using hblanks)]
  unfold trimText
  rw [List.dropWhile_append]
  split
  · next hnil => rw [hall, List.isEmpty_iff.mp hnil]
  · rw [hreverse]

theorem trimText_append_url (hurl : text.all isUrlChar = true) (hne : text ≠ [])
    (line : List Char) : trimText (line ++ text) = line.dropWhile isWhiteSpace ++ text := by
  have hblank : ∀ c ∈ text, isWhiteSpace c = false := fun c hc =>
    not_blank_of_url (List.all_eq_true.mp hurl c hc)
  have hfront : (line ++ text).dropWhile isWhiteSpace = line.dropWhile isWhiteSpace ++ text := by
    rw [List.dropWhile_append]
    split
    · next hnil =>
      obtain ⟨c, rest, rfl⟩ := List.exists_cons_of_ne_nil hne
      rw [List.isEmpty_iff.mp hnil, List.dropWhile_cons_of_neg (by simp [hblank c List.mem_cons_self]),
        List.nil_append]
    · rfl
  unfold trimText
  rw [hfront, List.reverse_append]
  obtain ⟨c, rest, hreverse⟩ := List.exists_cons_of_ne_nil (List.reverse_eq_nil_iff.not.mpr hne)
  have hlast : isWhiteSpace c = false := by
    refine hblank c (List.mem_reverse.mp ?_)
    rw [hreverse]
    exact List.mem_cons_self
  rw [hreverse, List.cons_append, List.dropWhile_cons_of_neg (by simp [hlast]), ← List.cons_append, ← hreverse,
    ← List.reverse_append, List.reverse_reverse]

theorem textLines_eq (text : List Char) :
    textLines text = ((text.splitOnP isBreak).map trimText).filter fun line => !line.isEmpty := rfl

theorem textLines_break (hc : isBreak c = true) (a b : List Char) :
    textLines (a ++ c :: b) = textLines a ++ textLines b := by
  rw [textLines_eq, textLines_eq, textLines_eq, List.splitOnP_append_cons a b hc, List.map_append,
    List.filter_append]

variable {line : List Char}

theorem textLines_single (h : ∀ c ∈ line, isBreak c = false) :
    textLines line = [trimText line].filter fun line => !line.isEmpty := by
  rw [textLines_eq, List.splitOnP_eq_singleton h]
  rfl

theorem textLines_blank {blanks : List Char} (h : ∀ c ∈ blanks, isWhiteSpace c = true) (text : List Char) :
    textLines (blanks ++ text) = textLines text := by
  induction blanks with
  | nil => rfl
  | cons c blanks ih =>
    rw [← ih fun d hd => h d (List.mem_cons_of_mem _ hd), List.cons_append]
    have hc := h c List.mem_cons_self
    cases hbreak : isBreak c with
    | true =>
      have hnone : textLines [] = [] := rfl
      have hlines := textLines_break hbreak [] (blanks ++ text)
      rwa [hnone, List.nil_append, List.nil_append] at hlines
    | false =>
      obtain ⟨line, lines, hsplit⟩ := List.exists_cons_of_ne_nil
        (List.splitOnP_ne_nil isBreak (blanks ++ text))
      rw [textLines_eq, textLines_eq, List.splitOnP_cons_eq_if_modifyHead, if_neg (by simp [hbreak]), hsplit,
        List.modifyHead_cons, List.map_cons, List.map_cons, trimText_cons_blank hc]

theorem textLines_line (hline : ∀ c ∈ line, isBreak c = false) (hends : LineEnds text) :
    textLines (line ++ text) = ([trimText line].filter fun line => !line.isEmpty) ++ textLines text := by
  set blanks := text.takeWhile fun c => !isBreak c with hblanks
  have hunbroken : ∀ c ∈ line ++ blanks, isBreak c = false := by
    intro c hc
    rcases List.mem_append.mp hc with hc | hc
    · exact hline c hc
    · simpa using List.mem_takeWhile_imp hc
  have hfirst : textLines (line ++ blanks) = [trimText line].filter fun line => !line.isEmpty := by
    rw [textLines_single hunbroken, trimText_append_blank hends]
  have hsplit : text = blanks ++ text.dropWhile fun c => !isBreak c := List.takeWhile_append_dropWhile.symm
  cases hrest : text.dropWhile fun c => !isBreak c with
  | nil =>
    rw [hrest, List.append_nil] at hsplit
    have hnone : textLines text = [] := by
      have hblank := textLines_blank hends []
      rw [List.append_nil, ← hblanks, ← hsplit] at hblank
      exact hblank
    rw [hnone, List.append_nil, hsplit, hfirst]
  | cons c rest =>
    have hc : isBreak c = true := by
      have hhead := List.head_dropWhile_not (fun c => !isBreak c) (l := text) (by simp [hrest])
      simpa [hrest] using hhead
    have hnone : textLines blanks = [] := by
      have hblank := textLines_blank hends []
      rwa [List.append_nil] at hblank
    rw [hrest] at hsplit
    rw [hsplit, ← List.append_assoc, textLines_break hc, textLines_break hc, hfirst, hnone, List.nil_append]

theorem mem_textLines_within (h : line ∈ textLines text) : line <:+: text := by
  have hpieces : ∀ text : List Char, ∃ first rest, text.splitOnP isBreak = first :: rest ∧ first <+: text ∧
      ∀ piece ∈ rest, piece <:+: text := by
    intro text
    induction text with
    | nil => exact ⟨[], [], rfl, List.prefix_rfl, by simp⟩
    | cons c text ih =>
      obtain ⟨first, rest, hsplit, hfirst, hrest⟩ := ih
      have hlonger : ∀ piece ∈ rest, piece <:+: c :: text := fun piece hpiece =>
        (hrest piece hpiece).trans (List.suffix_cons c text).isInfix
      rw [List.splitOnP_cons_eq_if_modifyHead, hsplit]
      split
      · refine ⟨[], first :: rest, rfl, List.nil_prefix, fun piece hpiece => ?_⟩
        rcases List.mem_cons.mp hpiece with rfl | hpiece
        · exact hfirst.isInfix.trans (List.suffix_cons c text).isInfix
        · exact hlonger piece hpiece
      · exact ⟨c :: first, rest, rfl, List.cons_prefix_cons.mpr ⟨rfl, hfirst⟩, hlonger⟩
  have htrim : ∀ line : List Char, trimText line <:+: line := fun line => by
    have hfront := List.rdropWhile_prefix isWhiteSpace (line.dropWhile isWhiteSpace)
    exact hfront.isInfix.trans (List.dropWhile_suffix isWhiteSpace).isInfix
  rw [textLines_eq] at h
  obtain ⟨piece, hpiece, rfl⟩ := List.mem_map.mp (List.mem_filter.mp h).1
  obtain ⟨first, rest, hsplit, hfirst, hrest⟩ := hpieces text
  rw [hsplit] at hpiece
  rcases List.mem_cons.mp hpiece with rfl | hpiece
  · exact (htrim _).trans hfirst.isInfix
  · exact (htrim _).trans (hrest piece hpiece)

theorem textLines_open (text : List Char) : ∃ lines front last, text = front ++ last ∧
    (∀ c ∈ last, isBreak c = false) ∧ (∀ line ∈ lines, line <:+: text) ∧
    ∀ rest, textLines (text ++ rest) = lines ++ textLines (last ++ rest) := by
  set last := text.rtakeWhile fun c => !isBreak c with hlast
  have hsplit : text = (text.rdropWhile fun c => !isBreak c) ++ last :=
    List.rdropWhile_append_rtakeWhile.symm
  have hunbroken : ∀ c ∈ last, isBreak c = false := fun c hc => by
    simpa using List.mem_rtakeWhile_imp hc
  rcases List.eq_nil_or_concat (text.rdropWhile fun c => !isBreak c) with hnil | ⟨front, c, hconcat⟩
  · rw [hnil, List.nil_append] at hsplit
    exact ⟨[], [], last, hsplit, hunbroken, by simp, fun rest => by rw [← hsplit, List.nil_append]⟩
  · rw [List.concat_eq_append] at hconcat
    have hne : (text.rdropWhile fun c => !isBreak c) ≠ [] := by simp [hconcat]
    have hc : isBreak c = true := by
      have hnot := List.rdropWhile_last_not (fun c => !isBreak c) text hne
      simpa [hconcat] using hnot
    rw [hconcat] at hsplit
    refine ⟨textLines front, front ++ [c], last, hsplit, hunbroken, fun line hline => ?_, fun rest => ?_⟩
    · rw [hsplit, List.append_assoc]
      have hfront := List.prefix_append front ([c] ++ last)
      exact (mem_textLines_within hline).trans hfront.isInfix
    · have hwhole : text ++ rest = front ++ c :: (last ++ rest) := by
        conv_lhs => rw [hsplit]
        simp
      rw [hwhole, textLines_break hc]

theorem Gap.lineEnds {gap : List Char} (h : Gap gap) (text : List Char) : LineEnds (gap ++ text) := by
  intro c hc
  refine h.blank c ?_
  have htake := List.takeWhile_prefix (l := gap) fun c => !isBreak c
  rw [List.takeWhile_append, if_neg] at hc
  · exact htake.subset hc
  · intro hlength
    obtain ⟨d, hd, hbreak⟩ := h.broken
    have hall := htake.eq_of_length hlength
    rw [← hall] at hd
    have hnot := List.mem_takeWhile_imp hd
    rw [hbreak] at hnot
    cases hnot

theorem textLines_row {row : List Char} (hurl : row.all isUrlChar = true) (hends : LineEnds text) :
    textLines (row ++ text) = ([row].filter fun line => !line.isEmpty) ++ textLines text := by
  have hunbroken : ∀ c ∈ row, isBreak c = false := fun c hc =>
    not_break_of_url (List.all_eq_true.mp hurl c hc)
  rw [textLines_line hunbroken hends]
  by_cases hne : row = []
  · rw [hne, trimText_nil]
  · have htrim := trimText_append_url hurl hne []
    rw [List.nil_append, List.dropWhile_nil, List.nil_append] at htrim
    rw [htrim]

/-- **The lines of rows are the rows**, and what follows starts behind them. -/
theorem textLines_rows {rows : List (List Char)} {body tail : List Char} (h : Rows rows body)
    (hurl : ∀ row ∈ rows, row.all isUrlChar = true) (hends : LineEnds tail) :
    LineEnds (body ++ tail) ∧
      textLines (body ++ tail) = (rows.filter fun row => !row.isEmpty) ++ textLines tail := by
  induction h with
  | nil => exact ⟨hends, rfl⟩
  | cons gap row hgap _ ih =>
    obtain ⟨hline, hlines⟩ := ih fun row hrow => hurl row (List.mem_cons_of_mem _ hrow)
    rw [List.append_assoc, List.append_assoc]
    refine ⟨hgap.lineEnds _, ?_⟩
    rw [textLines_blank hgap.blank, textLines_row (hurl row List.mem_cons_self) hline, hlines,
      ← List.append_assoc, ← List.filter_append, List.singleton_append]

/-! ## The start of the value -/

variable {pattern before : List Char}

theorem splitOnce_first {after : List Char}
    (h : ∀ a b, before ++ pattern ++ after = a ++ pattern ++ b → before.length ≤ a.length) :
    splitOnce pattern (before ++ pattern ++ after) = some (before, after) := by
  induction before with
  | nil =>
    rw [List.nil_append]
    cases hpattern : pattern ++ after with
    | nil =>
      obtain ⟨rfl, rfl⟩ := List.append_eq_nil_iff.mp hpattern
      rfl
    | cons c rest =>
      have hstart : pattern.isPrefixOf (c :: rest) = true :=
        starts_iff.mpr (hpattern ▸ List.prefix_append pattern after)
      rw [splitOnce, if_pos hstart, ← hpattern, List.drop_left]
  | cons c before ih =>
    have hnot : ¬pattern.isPrefixOf (c :: (before ++ pattern ++ after)) = true := by
      intro hstart
      obtain ⟨rest, hrest⟩ := starts_iff.mp hstart
      have hle := h [] rest (by rw [List.nil_append, hrest]; rfl)
      exact absurd hle (by simp)
    have hrest := ih fun a b hab => by
      have hle := h (c :: a) b (by rw [List.cons_append, List.cons_append, hab]; rfl)
      simpa using hle
    rw [List.cons_append, List.cons_append, splitOnce, if_neg hnot, hrest]
    rfl

theorem splitOnce_none (h : ¬pattern <:+: text) : splitOnce pattern text = none := by
  cases hfound : splitOnce pattern text with
  | none => rfl
  | some found =>
    obtain ⟨before, after⟩ := found
    exact absurd ⟨before, after, (splitOnce_eq hfound).symm⟩ h

variable {start : List Char}

theorem valueLines_none {lines : List (List Char)} (h : ∀ line ∈ lines, ¬start <:+: line) :
    valueLines start lines = none := by
  induction lines with
  | nil => rfl
  | cons line lines ih =>
    rw [valueLines, splitOnce_none (h line List.mem_cons_self)]
    exact ih fun other hother => h other (List.mem_cons_of_mem _ hother)

/-! ## The value -/

/-- A value in a stream: behind a text without its start, cut into rows of which the first has the
whole start, and followed by the end of the line and a line that cannot belong to it, or none. -/
inductive Wrapped (start value : List Char) : List Char → Prop
  | mk (before beforeText first : List Char) (rows : List (List Char)) (body shown after : List Char)
      (hbefore : Shows before beforeText) (habsent : ¬start <:+: beforeText)
      (hacross : ∀ a b, beforeText ++ first = a ++ start ++ b → beforeText.length ≤ a.length)
      (hvalue : value = first ++ rows.flatten) (hfirst : start <+: first) (hrows : Rows rows body)
      (hshown : Shows shown (first ++ body))
      (hends : LineEnds (stripAnsi after))
      (hnext : ∀ line rest, textLines (stripAnsi after) = line :: rest → line.all isUrlChar = false) :
      Wrapped start value (before ++ shown ++ after)

theorem takeWhile_lines {rows lines : List (List Char)} (hrows : ∀ row ∈ rows, row.all isUrlChar = true)
    (hnext : ∀ line rest, lines = line :: rest → line.all isUrlChar = false) :
    (rows ++ lines).takeWhile (·.all isUrlChar) = rows := by
  rw [List.takeWhile_append_of_pos hrows]
  cases lines with
  | nil => rw [List.takeWhile_nil, List.append_nil]
  | cons line lines =>
    rw [List.takeWhile_cons_of_neg (by simp [hnext line lines rfl]), List.append_nil]

theorem rejoinWrapped_wrapped {value stream : List Char} (hurl : value.all isUrlChar = true)
    (hlong : start.length < value.length) (h : Wrapped start value stream) :
    rejoinWrapped (stripAnsi stream) start = some value := by
  obtain ⟨before, beforeText, first, rows, body, shown, after, hbefore, habsent, hacross, hvalue, hfirst,
    hrows, hshown, hends, hnext⟩ := h
  rw [hvalue, List.all_append, Bool.and_eq_true, List.all_flatten] at hurl
  obtain ⟨hfirstUrl, hall⟩ := hurl
  have hrowsUrl : ∀ row ∈ rows, row.all isUrlChar = true := List.all_eq_true.mp hall
  have hstart : start ≠ [] := fun hnil => habsent (hnil ▸ List.nil_infix)
  obtain ⟨more, rfl⟩ := hfirst
  have hfirstNe : start ++ more ≠ [] := by simp [hstart]
  obtain ⟨hline, hlines⟩ := textLines_rows hrows hrowsUrl hends
  obtain ⟨earlier, front, last, hsplit, hunbroken, hearlier, hopen⟩ := textLines_open beforeText
  -- the line that the value starts in
  have hunbroken' : ∀ c ∈ last ++ (start ++ more), isBreak c = false := by
    intro c hc
    rcases List.mem_append.mp hc with hc | hc
    · exact hunbroken c hc
    · exact not_break_of_url (List.all_eq_true.mp hfirstUrl c hc)
  have htrim := trimText_append_url hfirstUrl hfirstNe last
  set lead := last.dropWhile isWhiteSpace with hlead
  have hwhole : textLines (stripAnsi (before ++ shown ++ after)) =
      earlier ++ ((lead ++ (start ++ more)) ::
        ((rows.filter fun row => !row.isEmpty) ++ textLines (stripAnsi after))) := by
    rw [List.append_assoc, stripAnsi_shows hbefore, stripAnsi_shows hshown, hopen, List.append_assoc,
      ← List.append_assoc last, textLines_line hunbroken' hline, hlines, htrim,
      List.filter_cons_of_pos (by simp [hstart])]
    rfl
  have hfound : splitOnce start (lead ++ (start ++ more)) = some (lead, more) := by
    rw [← List.append_assoc]
    refine splitOnce_first fun a b hab => ?_
    obtain ⟨blanks, hblanks⟩ := List.dropWhile_suffix (l := last) isWhiteSpace
    rw [← hlead] at hblanks
    have hle := hacross (front ++ blanks ++ a) b (by
      have hlong := congrArg (fun text => front ++ blanks ++ text) hab
      simp only [List.append_assoc] at hlong
      rw [hsplit, ← hblanks]
      simpa only [List.append_assoc] using hlong)
    rw [hsplit, ← hblanks] at hle
    simp only [List.length_append] at hle
    omega
  have hlinesFound : valueLines start (textLines (stripAnsi (before ++ shown ++ after))) =
      some (start ++ more, (rows.filter fun row => !row.isEmpty) ++ textLines (stripAnsi after)) := by
    rw [hwhole, valueLines_append, valueLines_none fun line hline hin =>
      habsent (hin.trans (hearlier line hline))]
    dsimp only
    rw [valueLines, hfound]
    dsimp only
    rw [List.drop_left]
  have hjoin : joinLines (start ++ more)
      ((rows.filter fun row => !row.isEmpty) ++ textLines (stripAnsi after)) = value := by
    rw [joinLines, takeWhile_lines (fun row hrow => hrowsUrl row (List.mem_filter.mp hrow).1) hnext,
      List.flatten_filter_not_isEmpty, ← hvalue, List.takeWhile_eq_self_iff]
    rw [hvalue]
    intro c hc
    rcases List.mem_append.mp hc with hc | hc
    · exact List.all_eq_true.mp hfirstUrl c hc
    · obtain ⟨row, hrow, hc⟩ := List.mem_flatten.mp hc
      exact List.all_eq_true.mp (hrowsUrl row hrow) c hc
  have hbytes : byteLength start < byteLength value := by
    have hrest : more ++ rows.flatten ≠ [] := by
      intro hnil
      rw [hvalue, List.append_assoc, hnil, List.append_nil] at hlong
      exact Nat.lt_irrefl _ hlong
    have hpos := byteLength_pos hrest
    rw [hvalue, List.append_assoc, byteLength_append]
    omega
  rw [rejoinWrapped_eq hlinesFound, hjoin, if_neg (by omega)]

/-! ## Hyperlinks -/

def introducer : List Char :=
  escape :: "]8;".toList

/-- `BEL` or `ESC \` -/
def Terminator (terminator : List Char) : Prop :=
  terminator = [bell] ∨ terminator = [escape, '\\']

def hyperlink (params target terminator : List Char) : List Char :=
  introducer ++ params ++ ';' :: (target ++ terminator)

/-- A stream with hyperlinks to these targets, in their order, between text that introduces none. -/
inductive Links : List Char → List (List Char) → Prop
  | text (text : List Char) (h : ¬introducer <:+: text) : Links text []
  | link (text params target terminator : List Char) {rest : List Char} {targets : List (List Char)}
      (htext : ¬introducer <:+: text) (hparams : ';' ∉ params)
      (htarget : ∀ c ∈ target, c ≠ bell ∧ c ≠ escape) (hterminator : Terminator terminator)
      (h : Links rest targets) :
          Links (text ++ hyperlink params target terminator ++ rest) (target :: targets)

/-- A hyperlink to the value, before any other whose target starts like it. -/
inductive Linked (start value : List Char) : List Char → Prop
  | mk (before params terminator after : List Char) (targets : List (List Char)) (hbefore : Links before targets)
      (hearlier : ∀ target ∈ targets, ¬start <+: target) (hparams : ';' ∉ params)
      (hterminator : Terminator terminator) :
      Linked start value (before ++ hyperlink params value terminator ++ after)

theorem splitOnce_absent (after : List Char) (hc : c ∉ pattern)
    (habsent : ¬(c :: pattern) <:+: before) :
    splitOnce (c :: pattern) (before ++ c :: pattern ++ after) = some (before, after) := by
  refine splitOnce_first fun a b hab => ?_
  by_contra hlt
  rw [List.append_assoc, List.append_assoc] at hab
  rcases List.append_eq_append_iff.mp hab with ⟨mid, ha, -⟩ | ⟨mid, hbefore, hmid⟩
  · rw [ha, List.length_append] at hlt
    omega
  · -- the pattern begins within the text: it ends there, or goes on with its own first character
    rcases List.append_eq_append_iff.mp hmid with ⟨more, hmid', -⟩ | ⟨more, hpattern, hmore⟩
    · exact habsent ⟨a, more, by rw [hbefore, hmid', List.append_assoc]⟩
    · cases mid with
      | nil =>
        rw [List.append_nil] at hbefore
        rw [hbefore] at hlt
        omega
      | cons d mid =>
        cases more with
        | nil =>
          rw [List.append_nil] at hpattern
          exact habsent ⟨a, [], by rw [hbefore, hpattern, List.append_nil]⟩
        | cons d' more =>
          simp only [List.cons_append, List.cons.injEq] at hpattern hmore
          refine hc ?_
          rw [hpattern.2, hmore.1]
          simp

variable {target : List Char}

theorem untilTerminator_eq (htarget : ∀ c ∈ target, c ≠ bell ∧ c ≠ escape)
    (hterminator : Terminator terminator) (after : List Char) :
    untilTerminator (target ++ terminator ++ after) = some (target, terminator ++ after) := by
  induction target with
  | nil =>
    rcases hterminator with rfl | rfl
    · show untilTerminator (bell :: after) = _
      rw [untilTerminator, if_pos (by simp)]
      rfl
    · show untilTerminator (escape :: '\\' :: after) = _
      rw [untilTerminator, if_pos (by simp)]
      rfl
  | cons c target ih =>
    obtain ⟨hbell, hescape⟩ := htarget c List.mem_cons_self
    rw [List.cons_append, List.cons_append, untilTerminator, if_neg (by simp [hbell, hescape]),
      ih fun d hd => htarget d (List.mem_cons_of_mem _ hd)]
    rfl

/-- Nothing, or what is left of a hyperlink when its target has been read. -/
def Lead (lead : List Char) : Prop :=
  lead = [] ∨ Terminator lead

theorem Lead.absent {lead : List Char} (hlead : Lead lead) (htext : ¬introducer <:+: text) :
    ¬introducer <:+: lead ++ text := by
  have hskip : ∀ {c : Char} {rest : List Char}, ¬introducer <:+: rest →
      (∀ more, c :: rest ≠ introducer ++ more) → ¬introducer <:+: c :: rest := by
    intro c rest hrest hhead hin
    rcases List.infix_cons_iff.mp hin with ⟨more, hmore⟩ | hin
    · exact hhead more hmore.symm
    · exact hrest hin
  rcases hlead with rfl | rfl | rfl
  · exact htext
  · exact hskip htext fun more hmore => by
      have hhead := (List.cons.inj hmore).1
      exact absurd hhead (by decide)
  · refine hskip (hskip htext fun more hmore => ?_) fun more hmore => ?_
    · have hhead := (List.cons.inj hmore).1
      exact absurd hhead (by decide)
    · have hsecond := (List.cons.inj (List.cons.inj hmore).2).1
      exact absurd hsecond (by decide)

theorem osc8TargetsFrom_link {lead params : List Char} (hlead : Lead lead)
    (htext : ¬introducer <:+: text) (hparams : ';' ∉ params)
    (htarget : ∀ c ∈ target, c ≠ bell ∧ c ≠ escape) (hterminator : Terminator terminator)
    (rounds : Nat) (after : List Char) :
    osc8TargetsFrom (rounds + 1) (lead ++ (text ++ hyperlink params target terminator ++ after)) =
      if !target.isEmpty && target.all isUrlChar then
        target :: osc8TargetsFrom rounds (terminator ++ after)
      else osc8TargetsFrom rounds (terminator ++ after) := by
  have hfirst : splitOnce introducer (lead ++ (text ++ hyperlink params target terminator ++ after)) =
      some (lead ++ text, params ++ ';' :: (target ++ terminator ++ after)) := by
    have honce : escape ∉ "]8;".toList := by decide
    have hsplit := splitOnce_absent (params ++ ';' :: (target ++ terminator ++ after)) honce
      (hlead.absent htext)
    rw [← hsplit]
    simp [hyperlink, introducer]
  have hsecond : splitOnce [';'] (params ++ ';' :: (target ++ terminator ++ after)) =
      some (params, target ++ terminator ++ after) := by
    have habsent : ¬[';'] <:+: params := fun hin => hparams (hin.subset List.mem_cons_self)
    have hsplit := splitOnce_absent (target ++ terminator ++ after) List.not_mem_nil habsent
    rw [← hsplit]
    simp
  rw [osc8TargetsFrom]
  simp only [show escape :: "]8;".toList = introducer from rfl, hfirst, hsecond,
    untilTerminator_eq htarget hterminator]

theorem not_terminator_of_url (hurl : target.all isUrlChar = true) :
    ∀ c ∈ target, c ≠ bell ∧ c ≠ escape := by
  intro c hc
  have hrange := isUrlChar_range c (List.all_eq_true.mp hurl c hc)
  constructor <;> rintro rfl <;> exact absurd hrange (by decide)

/-- **The first hyperlink whose target starts like the value is the one that is taken.** -/
theorem osc8_first {value params : List Char} {targets : List (List Char)}
    (hurl : value.all isUrlChar = true) (hstart : start <+: value) (hne : value ≠ [])
    (hbefore : Links before targets) (hearlier : ∀ target ∈ targets, ¬start <+: target)
    (hparams : ';' ∉ params) (hterminator : Terminator terminator) (after : List Char) :
    ∀ (lead : List Char) (rounds : Nat), Lead lead →
      (lead ++ (before ++ hyperlink params value terminator ++ after)).length ≤ rounds →
      (osc8TargetsFrom rounds (lead ++ (before ++ hyperlink params value terminator ++ after))).find?
        start.isPrefixOf = some value := by
  induction hbefore with
  | text text htext =>
    intro lead rounds hlead hrounds
    obtain ⟨r, rfl⟩ : ∃ r, rounds = r + 1 := ⟨rounds - 1, by
      simp only [hyperlink, introducer, List.length_append, List.length_cons] at hrounds
      omega⟩
    have hfull : (!value.isEmpty && value.all isUrlChar) = true := by simp [hne, hurl]
    rw [osc8TargetsFrom_link hlead htext hparams (not_terminator_of_url hurl) hterminator, if_pos hfull,
      List.find?_cons_of_pos (starts_iff.mpr hstart)]
  | @link text params' target terminator' rest targets htext hparams' htarget hterminator' _ ih =>
    intro lead rounds hlead hrounds
    obtain ⟨r, rfl⟩ : ∃ r, rounds = r + 1 := ⟨rounds - 1, by
      simp only [hyperlink, introducer, List.length_append, List.length_cons] at hrounds
      omega⟩
    have hrest := ih (fun other hother => hearlier other (List.mem_cons_of_mem _ hother)) terminator' r
      (.inr hterminator') (by
        simp only [hyperlink, introducer, List.length_append, List.length_cons] at hrounds ⊢
        omega)
    have hshape : text ++ hyperlink params' target terminator' ++ rest ++ hyperlink params value terminator ++
        after = text ++ hyperlink params' target terminator' ++
          (rest ++ hyperlink params value terminator ++ after) := by
      simp only [List.append_assoc]
    rw [hshape, osc8TargetsFrom_link hlead htext hparams' htarget hterminator']
    have hnot : ¬start.isPrefixOf target = true := fun h =>
      hearlier target List.mem_cons_self (starts_iff.mp h)
    split
    · rw [List.find?_cons_of_neg hnot, hrest]
    · exact hrest

/-- **A wrapped value is recovered**: put together from its rows, or taken from the hyperlink to it.
-/
theorem wrapped_value {start value : List Char} (hurl : value.all isUrlChar = true)
    (hstart : start <+: value)
    (hlong : start.length < value.length) (transcript : TtyTranscript) :
    (Wrapped start value transcript.toList →
      rejoinWrapped (stripAnsi transcript.toList) start = some value) ∧
    (Linked start value transcript.toList →
      extractAuthorizationUrl transcript (String.ofList start) = some (String.ofList value)) := by
  refine ⟨rejoinWrapped_wrapped hurl hlong, fun hlinked => ?_⟩
  have hne : value ≠ [] := by
    rintro rfl
    exact absurd hlong (Nat.not_lt_zero _)
  have hfound : (osc8Targets transcript.toList).find? start.isPrefixOf = some value := by
    generalize transcript.toList = stream at hlinked ⊢
    obtain ⟨before, params, terminator, after, targets, hbefore, hearlier, hparams, hterminator⟩ := hlinked
    exact osc8_first hurl hstart hne hbefore hearlier hparams hterminator after [] _ (.inl rfl) (Nat.le_refl _)
  rw [extractAuthorizationUrl, String.toList_ofList, hfound]

/-- A token in two rows, with colours around it and a bell within it. -/
def tokenStream : List Char :=
  "a ".toList ++ (escape :: "[1msk-ant-".toList ++ [bell] ++ "0 \r\n1".toList) ++ "\n>".toList

/-- A link to a token, behind a title. -/
def tokenLink : List Char :=
  (escape :: "]0;title".toList ++ [bell]) ++ hyperlink "id=1".toList "sk-ant-01".toList [bell] ++
    "sk-ant-0".toList

theorem wrapped_tokenStream : Wrapped "sk-ant-".toList "sk-ant-01".toList tokenStream := by
  refine .mk "a ".toList "a ".toList "sk-ant-0".toList ["1".toList] " \r\n1".toList _ "\n>".toList
    (shows_self (@of_decide_eq_true _ (List.decidableBAll _ _) rfl)) ?_ ?_ rfl ⟨['0'], rfl⟩ ?_ ?_ (by decide) ?_
  · exact fun hin => absurd hin.length_le (by decide)
  · rintro (_ | ⟨c, _ | ⟨d, a⟩⟩) b hab
    · exact absurd (List.cons.inj hab).1 (by decide)
    · exact absurd (List.cons.inj (List.cons.inj hab).2).1 (by decide)
    · exact Nat.le_add_left 2 a.length
  · exact .cons " \r\n".toList "1".toList
      ⟨@of_decide_eq_true _ (List.decidableBAll _ _) rfl, '\n', List.mem_of_getLast? rfl, rfl⟩ .nil
  · refine .csi ['1'] 'm' (List.forall_mem_singleton.mpr (by decide)) (by decide) ?_
    refine .char 's' (by decide) <| .char 'k' (by decide) <| .char '-' (by decide) <| .char 'a' (by decide) <|
      .char 'n' (by decide) <| .char 't' (by decide) <| .char '-' (by decide) <| .control bell (by decide) <|
      .char '0' (by decide) <| .char ' ' (by decide) <| .char '\r' (by decide) <| .char '\n' (by decide) <|
      .char '1' (by decide) .done
  · intro line rest hlines
    have hnext : textLines (stripAnsi "\n>".toList) = [">".toList] := by decide
    rw [hnext, List.cons.injEq] at hlines
    rw [← hlines.1]
    rfl

theorem linked_tokenLink : Linked "sk-ant-".toList "sk-ant-01".toList tokenLink :=
  .mk (escape :: "]0;title".toList ++ [bell]) "id=1".toList [bell] "sk-ant-0".toList []
    (.text _ fun hin => absurd (hin.subset (show '8' ∈ introducer by decide)) (by decide)) (by decide) (by decide)
    (.inl rfl)

theorem wrapped_value_token :
    rejoinWrapped (stripAnsi (String.ofList tokenStream).toList) "sk-ant-".toList = some "sk-ant-01".toList ∧
    extractAuthorizationUrl (String.ofList tokenLink) (String.ofList "sk-ant-".toList) =
      some (String.ofList "sk-ant-01".toList) :=
  ⟨(wrapped_value (by decide) (by decide) (by decide) _).1 (by
      rw [String.toList_ofList]
      exact wrapped_tokenStream),
    (wrapped_value (by decide) (by decide) (by decide) _).2 (by
      rw [String.toList_ofList]
      exact linked_tokenLink)⟩

/-- **Tab and escape are controls that the value does not survive**, and a line of characters of a
URL goes on with the value when only blank characters follow it. -/
theorem wrapped_value_interrupted :
    rejoinWrapped (stripAnsi "sk-ant-0\t1".toList) "sk-ant-".toList = some "sk-ant-0".toList ∧
    rejoinWrapped (stripAnsi ("sk-ant-0".toList ++ escape :: "12".toList)) "sk-ant-".toList =
      some "sk-ant-02".toList ∧
    rejoinWrapped (stripAnsi "sk-ant-01\nend \n".toList) "sk-ant-".toList = some "sk-ant-01end".toList := by
  decide

end Moira.Runner
