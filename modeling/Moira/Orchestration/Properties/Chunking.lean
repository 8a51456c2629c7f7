import Moira.Orchestration.Chunking

/-!
# Chunking loses and invents nothing

- **`chunk_spec`** — the chunks of a document, and when they are refused
-/

namespace Moira.Chunking

open Text

variable {content : List Char}

/-! ## One span -/

/-- A span of the content between two boundaries, with a core of at most `window` characters. -/
def Sound (content : List Char) (window : Nat) (span : Nat × Nat) : Prop :=
  ∃ pre text post, content = pre ++ text ++ post ∧ span = (byteLen pre, byteLen pre + byteLen text) ∧
    Core isWhiteSpace text ∧ text.length ≤ window

variable {window : Nat}

theorem Sound.mono {wider : Nat} {span : Nat × Nat} (h : Sound content window span)
    (hle : window ≤ wider) : Sound content wider span := by
  obtain ⟨pre, text, post, hcontent, hspan, hcore, hlen⟩ := h
  exact ⟨pre, text, post, hcontent, hspan, hcore, hlen.trans hle⟩

/-- The spans of a part of the content that starts at `base`. -/
structure Windows (content : List Char) (window base : Nat) (text : List Char) (overlap : Nat)
    (spans : List (Nat × Nat)) : Prop where
  sound : ∀ span ∈ spans, Sound content window span
  inside : ∀ span ∈ spans, base ≤ span.1 ∧ span.2 ≤ base + byteLen text
  covers : Covers isWhiteSpace spans base text
  ordered : overlap = 0 → spans.Pairwise fun a b => a.2 ≤ b.1

variable {pre text post : List Char}

theorem trimSpan_spec (hcontent : content = pre ++ text ++ post) (overlap : Nat) :
    ∃ span, trimSpan content (byteLen pre) (byteLen pre + byteLen text) = some span ∧
      Windows content text.length (byteLen pre) text overlap span.toList := by
  have hslice : slice content (byteLen pre) (byteLen pre + byteLen text) = some text := by
    rw [hcontent]
    exact slice_eq pre text post
  unfold trimSpan
  rw [hslice]
  simp only [Option.bind_eq_bind, Option.bind_some]
  by_cases hnil : trim text = []
  · rw [if_pos (by rw [hnil]; rfl)]
    refine ⟨none, rfl, by simp, by simp, ?_, by simp⟩
    exact .of_blank (all_blank_of_trimmed_nil hnil)
  · rw [if_neg (by rwa [List.isEmpty_iff])]
    obtain ⟨lead, trail, htext, hdrop, -, hlead, htrail⟩ := trim_parts hnil
    have hlen : byteLen text = byteLen lead + byteLen (trim text) + byteLen trail := by
      have hbytes := congrArg byteLen htext
      rwa [byteLen_append, byteLen_append] at hbytes
    have hleadLen : byteLen text - byteLen (text.dropWhile isWhiteSpace) = byteLen lead := by
      have hrest : text.dropWhile isWhiteSpace = trim text ++ trail := hdrop
      rw [hrest, byteLen_append, hlen]
      omega
    refine ⟨_, rfl, ?_, ?_, ?_, by simp⟩
    · rintro span hspan
      rw [Option.toList_some, List.mem_singleton] at hspan
      subst hspan
      refine ⟨pre ++ lead, trim text, trail ++ post, ?_, ?_, core_trimmed hnil, ?_⟩
      · have hwhole := congrArg (fun part => pre ++ part ++ post) htext
        rw [hcontent]
        refine hwhole.trans ?_
        simp
      · rw [hleadLen, byteLen_append]
      · have hchars := congrArg List.length htext
        rw [List.length_append, List.length_append] at hchars
        show (trimmed isWhiteSpace text).length ≤ text.length
        omega
    · rintro span hspan
      rw [Option.toList_some, List.mem_singleton] at hspan
      subst hspan
      simp only [hleadLen]
      omega
    · -- the blank characters around the core need no cover
      have hcore : Covers isWhiteSpace
          [(byteLen pre + byteLen lead, byteLen pre + byteLen lead + byteLen (trim text))]
          (byteLen pre + byteLen lead) (trim text) :=
        .of_mem List.mem_cons_self
      have hparts := ((Covers.of_blank hlead).append hcore).append (.of_blank htrail)
      rw [← htext] at hparts
      simpa only [Option.toList_some, hleadLen] using hparts

/-! ## Windows -/

theorem length_charIndices (text : List Char) :
    ∀ offset, (charIndices offset text).length = text.length := by
  induction text with
  | nil => intro offset; rfl
  | cons c rest ih =>
    intro offset
    rw [charIndices, List.length_cons, ih, List.length_cons]

theorem charIndices_getElem? (text : List Char) : ∀ (offset i : Nat), i < text.length →
    (charIndices offset text)[i]? = some (offset + byteLen (text.take i)) := by
  induction text with
  | nil => intro offset i h; simp at h
  | cons c rest ih =>
    intro offset i h
    cases i with
    | zero => simp [charIndices]
    | succ i =>
      rw [charIndices, List.getElem?_cons_succ, ih _ i (by simpa using h), List.take_succ_cons,
        byteLen_cons, Nat.add_assoc]

theorem boundaries_getElem? {i : Nat} (h : i ≤ text.length) :
    (boundaries text)[i]? = some (byteLen (text.take i)) := by
  have hlen := length_charIndices text 0
  unfold boundaries
  rcases Nat.lt_or_eq_of_le h with hlt | rfl
  · rw [List.getElem?_append_left (by omega), charIndices_getElem? text 0 i hlt, Nat.zero_add]
  · rw [List.getElem?_append_right (by omega), hlen]
    simp

theorem byteLen_take_drop (text : List Char) (i n : Nat) :
    byteLen (text.take (i + n)) = byteLen (text.take i) + byteLen ((text.drop i).take n) := by
  rw [List.take_add, byteLen_append]

/-- The loop returns, and its spans are windows of the rest. -/
theorem windowLoop_spec (overlap : Nat) (hcontent : content = pre ++ text ++ post)
    (hwindow : 1 ≤ window) (remaining : Nat) : ∀ cursor, text.length - cursor = remaining →
    cursor < text.length →
    ∃ spans, windowLoop content (byteLen pre) (boundaries text) text.length window overlap cursor = some spans ∧
      Windows content window (byteLen pre + byteLen (text.take cursor)) (text.drop cursor) overlap spans := by
  induction remaining using Nat.strong_induction_on with
  | _ remaining ih =>
    intro cursor hremaining hcursor
    have hstop : cursor < min (cursor + window) text.length := by omega
    obtain ⟨n, hn⟩ := Nat.exists_eq_add_of_lt hstop
    rw [Nat.add_assoc] at hn
    -- the window at the cursor
    set base := byteLen pre + byteLen (text.take cursor) with hbase
    set win := (text.drop cursor).take (n + 1) with hwin
    have hwinLen : win.length = n + 1 := by
      rw [hwin, List.length_take, List.length_drop]
      omega
    have hplace : content = (pre ++ text.take cursor) ++ win ++ (text.drop (cursor + (n + 1)) ++ post) := by
      have hrest : text.drop cursor = win ++ text.drop (cursor + (n + 1)) := by
        rw [hwin, ← List.drop_drop, List.take_append_drop]
      have htext : text = text.take cursor ++ (win ++ text.drop (cursor + (n + 1))) := by
        rw [← hrest, List.take_append_drop]
      rw [hcontent]
      conv_lhs => rw [htext]
      simp
    obtain ⟨span, hspan, hfirst⟩ := trimSpan_spec hplace overlap
    rw [byteLen_append, ← hbase] at hspan hfirst
    have hraw : base + byteLen win = byteLen pre + byteLen (text.take (cursor + (n + 1))) := by
      have htake := byteLen_take_drop text cursor (n + 1)
      rw [← hwin] at htake
      omega
    have hend : (boundaries text)[cursor + (n + 1)]? = some (byteLen (text.take (cursor + (n + 1)))) :=
      boundaries_getElem? (by omega)
    have hstep : windowLoop content (byteLen pre) (boundaries text) text.length window overlap cursor =
        (if cursor + (n + 1) = text.length then some span.toList
        else (windowLoop content (byteLen pre) (boundaries text) text.length window overlap
          (cursor + max (window - overlap) 1)).map (span.toList ++ ·)) := by
      rw [windowLoop, if_pos hcursor]
      simp only [hn, boundaries_getElem? (Nat.le_of_lt hcursor), hend, Option.bind_eq_bind,
        Option.bind_some]
      rw [← hbase, ← hraw, hspan]
      simp only [Option.bind_some]
      split
      · rfl
      · exact (Option.map_eq_bind ..).symm
    rw [hstep]
    by_cases hlast : cursor + (n + 1) = text.length
    · -- the last window ends the loop
      rw [if_pos hlast]
      have hwhole : win = text.drop cursor := by
        rw [hwin, List.take_of_length_le]
        rw [List.length_drop]
        omega
      rw [hwhole] at hfirst hwinLen
      refine ⟨_, rfl, fun span hspan => (hfirst.sound span hspan).mono ?_, hfirst.inside, hfirst.covers,
        hfirst.ordered⟩
      omega
    · rw [if_neg hlast]
      set stride := max (window - overlap) 1 with hstride
      obtain ⟨rest, hrest, hmore⟩ := ih (text.length - (cursor + stride)) (by omega) (cursor + stride) rfl
        (by omega)
      rw [hrest]
      -- what the stride passes over is the start of the window
      have hpassed : byteLen (text.take (cursor + stride)) =
          byteLen (text.take cursor) + byteLen ((text.drop cursor).take stride) :=
        byteLen_take_drop text cursor stride
      have hsplit : text.drop cursor = (text.drop cursor).take stride ++ text.drop (cursor + stride) := by
        rw [← List.drop_drop, List.take_append_drop]
      have hlen := congrArg byteLen hsplit
      rw [byteLen_append] at hlen
      have hwinSplit : win = (text.drop cursor).take stride ++ ((text.drop cursor).drop stride).take
          (n + 1 - stride) := by
        rw [hwin, ← List.take_add]
        congr 1
        omega
      refine ⟨_, rfl, ?_, ?_, ?_, ?_⟩
      · intro found hfound
        rcases List.mem_append.mp hfound with hfound | hfound
        · exact (hfirst.sound found hfound).mono (by omega)
        · exact hmore.sound found hfound
      · intro found hfound
        rcases List.mem_append.mp hfound with hfound | hfound
        · have hinside := hfirst.inside found hfound
          have hwinBytes := byteLen_take_drop text cursor (n + 1)
          have hdropBytes : byteLen (text.drop cursor) = byteLen win + byteLen (text.drop (cursor + (n + 1))) := by
            rw [← byteLen_append, hwin, ← List.drop_drop, List.take_append_drop]
          omega
        · have hinside := hmore.inside found hfound
          omega
      · have hwinCovers := hfirst.covers
        rw [hwinSplit] at hwinCovers
        have hpassedCovers : Covers isWhiteSpace (span.toList ++ rest) base
            ((text.drop cursor).take stride) :=
          hwinCovers.left.mono fun _ h => List.mem_append_left _ h
        rw [hsplit]
        refine hpassedCovers.append ?_
        have hbaseEq : base + byteLen ((text.drop cursor).take stride) =
            byteLen pre + byteLen (text.take (cursor + stride)) := by omega
        rw [hbaseEq]
        exact hmore.covers.mono fun _ h => List.mem_append_right _ h
      · intro hzero
        refine List.pairwise_append.mpr ⟨hfirst.ordered hzero, hmore.ordered hzero, ?_⟩
        intro a ha b hb
        have hend := (hfirst.inside a ha).2
        have hstart := (hmore.inside b hb).1
        -- without overlap the stride passes over the whole window
        have hsame : win = (text.drop cursor).take stride := by
          rw [hwin]
          congr 1
          omega
        rw [hsame] at hend
        omega

/-- **The windows of a part of the content.** -/
theorem windowSpans_spec (hcontent : content = pre ++ text ++ post) (windowChars overlap : Nat) :
    ∃ spans, windowSpans content (byteLen pre) (byteLen pre + byteLen text) windowChars overlap = some spans ∧
      Windows content (max windowChars 1) (byteLen pre) text overlap spans := by
  by_cases hnil : text = []
  · subst hnil
    refine ⟨[], by simp [windowSpans], by simp, by simp, .nil, by simp⟩
  · have hbytes := byteLen_pos hnil
    have hlen : (boundaries text).length - 1 = text.length := by
      rw [boundaries, List.length_append, length_charIndices]
      rfl
    have hchars : 0 < text.length := List.length_pos_iff.mpr hnil
    have hslice : slice content (byteLen pre) (byteLen pre + byteLen text) = some text := by
      rw [hcontent]
      exact slice_eq pre text post
    obtain ⟨spans, hspans, hwindows⟩ := windowLoop_spec overlap hcontent
      (Nat.le_max_right windowChars 1) text.length 0 (Nat.sub_zero _) hchars
    refine ⟨spans, ?_, by simpa using hwindows⟩
    unfold windowSpans
    rw [if_neg (by omega), hslice]
    simp only [Option.bind_eq_bind, Option.bind_some, hlen]
    rw [if_neg (by omega), hspans]

/-! ## Lines -/

theorem splitInclusive_flatten (text : List Char) : (splitInclusive text).flatten = text := by
  induction text with
  | nil => rfl
  | cons c rest ih =>
    rw [splitInclusive]
    split
    · rw [List.flatten_cons, ih]
      rfl
    · split
      · next hsplit =>
        rw [hsplit] at ih
        rw [← ih]
        rfl
      · next line lines hsplit =>
        rw [hsplit] at ih
        rw [List.flatten_cons, List.cons_append, ← List.flatten_cons, ih]

theorem stripEnding_append (line : List Char) :
    ∃ ending, line = stripEnding line ++ ending ∧ ∀ c ∈ ending, isWhiteSpace c = true := by
  refine ⟨(line.rdropWhile (· = '\n')).rtakeWhile (· = '\r') ++ line.rtakeWhile (· = '\n'), ?_, ?_⟩
  · rw [stripEnding, ← List.append_assoc, List.rdropWhile_append_rtakeWhile,
      List.rdropWhile_append_rtakeWhile]
  · intro c hc
    rcases List.mem_append.mp hc with hc | hc
    · have hcr : c = '\r' := by simpa using List.mem_rtakeWhile_imp hc
      rw [hcr]
      decide
    · have hlf : c = '\n' := by simpa using List.mem_rtakeWhile_imp hc
      rw [hlf]
      decide

/-! ## The walk -/

/-- The offsets of a section span. -/
def SectionSpan.offsets (span : SectionSpan) : Nat × Nat :=
  (span.start, span.stop)

/-- The spans of the part of the content that ends at `passed`. -/
structure Gathered (content : List Char) (window : Nat) (passed : List Char) (spans : List (Nat × Nat)) :
    Prop where
  sound : ∀ span ∈ spans, Sound content window span
  inside : ∀ span ∈ spans, span.2 ≤ byteLen passed
  covers : Covers isWhiteSpace spans 0 passed
  ordered : spans.Pairwise fun a b => a.2 ≤ b.1

variable {spans : List (Nat × Nat)}

variable {passed : List Char}

theorem Gathered.blank {blanks : List Char} (h : Gathered content window passed spans)
    (hblank : ∀ c ∈ blanks, isWhiteSpace c = true) :
    Gathered content window (passed ++ blanks) spans := by
  refine ⟨h.sound, fun span hspan => ?_, h.covers.append (.of_blank hblank), h.ordered⟩
  have hinside := h.inside span hspan
  rw [byteLen_append]
  omega

theorem Gathered.windows {block : List Char} {more : List (Nat × Nat)}
    (h : Gathered content window passed spans)
    (hmore : Windows content window (byteLen passed) block 0 more) :
    Gathered content window (passed ++ block) (spans ++ more) := by
  refine ⟨?_, ?_, ?_, List.pairwise_append.mpr ⟨h.ordered, hmore.ordered rfl, ?_⟩⟩
  · intro span hspan
    rcases List.mem_append.mp hspan with hspan | hspan
    · exact h.sound span hspan
    · exact hmore.sound span hspan
  · intro span hspan
    rw [byteLen_append]
    rcases List.mem_append.mp hspan with hspan | hspan
    · have hinside := h.inside span hspan
      omega
    · exact (hmore.inside span hspan).2
  · have hcovers := hmore.covers.mono fun _ hspan => List.mem_append_right spans hspan
    refine (h.covers.mono fun _ hspan => List.mem_append_left _ hspan).append ?_
    rwa [Nat.zero_add]
  · intro a ha b hb
    exact (h.inside a ha).trans (hmore.inside b hb).1

/-- The invariant of the walk: without a block everything passed is gathered; with one, everything
before the block is, and behind the block there are only blank characters. -/
inductive Walked (content : List Char) (window : Nat) (passed : List Char) (w : Walk) : Prop
  | closed (hstart : w.blockStart = none)
      (hgathered : Gathered content window passed (w.spans.map SectionSpan.offsets))
  | opened (before block blanks : List Char) (hpassed : passed = before ++ block ++ blanks)
      (hstart : w.blockStart = some (byteLen before))
      (hend : w.blockEnd = byteLen before + byteLen block)
      (hblank : ∀ c ∈ blanks, isWhiteSpace c = true)
      (hgathered : Gathered content window before (w.spans.map SectionSpan.offsets))

variable {maxChunkChars : Nat}

variable {line : List Char} {w : Walk}

theorem Walk.flush_spec {rest : List Char} (hcontent : content = passed ++ rest)
    (hw : Walked content (max maxChunkChars 1) passed w) :
    ∃ w', w.flush content maxChunkChars = some w' ∧ w'.blockStart = none ∧
      Gathered content (max maxChunkChars 1) passed (w'.spans.map SectionSpan.offsets) := by
  rcases hw with ⟨hstart, hgathered⟩ | ⟨before, block, blanks, hpassed, hstart, hend, hblank, hgathered⟩
  · exact ⟨w, by simp [Walk.flush, hstart], hstart, hgathered⟩
  · have hplace : content = before ++ block ++ (blanks ++ rest) := by
      rw [hcontent, hpassed, List.append_assoc _ blanks]
    obtain ⟨spans, hspans, hwindows⟩ := windowSpans_spec hplace maxChunkChars 0
    refine ⟨_, by simp only [Walk.flush, hstart, hend, hspans]; rfl, rfl, ?_⟩
    have hall := (hgathered.windows hwindows).blank hblank
    rw [← hpassed] at hall
    -- the titles aside, the spans are the windows
    have hoffsets : ∀ title : Option (List Char), (spans.map fun span =>
        { start := span.1, stop := span.2, sectionTitle := title : SectionSpan }).map
          SectionSpan.offsets = spans := by
      intro title
      rw [List.map_map]
      exact List.map_id _
    rw [List.map_append, hoffsets]
    exact hall

theorem Walk.extend_spec {ending : List Char} (hcore : trim line ≠ [])
    (hending : ∀ c ∈ ending, isWhiteSpace c = true) (hw : Walked content window passed w) :
    Walked content window (passed ++ (line ++ ending)) (w.extend (byteLen passed) line) := by
  obtain ⟨lead, trail, hline, hdrop, hcut, hlead, htrail⟩ := trim_parts hcore
  have hblank : ∀ c ∈ trail ++ ending, isWhiteSpace c = true := fun c hc =>
    (List.mem_append.mp hc).elim (htrail c) (hending c)
  have hleadBytes : leadingWhitespaceBytes line = byteLen lead := by
    have hbytes := congrArg byteLen hline
    rw [byteLen_append, byteLen_append] at hbytes
    rw [leadingWhitespaceBytes, hdrop, byteLen_append]
    omega
  have hend : (w.extend (byteLen passed) line).blockEnd =
      byteLen passed + (byteLen lead + byteLen (trimmed isWhiteSpace line)) := by
    show byteLen passed + byteLen (line.rdropWhile isWhiteSpace) = _
    rw [hcut, byteLen_append]
  rcases hw with ⟨hstart, hgathered⟩ | ⟨before, block, blanks, hpassed, hstart, -, -, hgathered⟩
  · -- a new block starts at the core of the line
    refine .opened (passed ++ lead) (trimmed isWhiteSpace line) (trail ++ ending) ?_ ?_ ?_ hblank
      (hgathered.blank hlead)
    · conv_lhs => rw [hline]
      simp
    · show some (w.blockStart.getD _) = _
      rw [hstart, Option.getD_none, hleadBytes, byteLen_append]
    · rw [hend, byteLen_append, Nat.add_assoc]
  · refine .opened before (block ++ blanks ++ lead ++ trimmed isWhiteSpace line) (trail ++ ending) ?_ ?_ ?_
      hblank hgathered
    · conv_lhs => rw [hline, hpassed]
      simp
    · show some (w.blockStart.getD _) = _
      rw [hstart, Option.getD_some]
    · rw [hend, hpassed]
      simp only [byteLen_append]
      omega

/-- **One line keeps the invariant of the walk**, whether it closes a block, starts one or joins
one. -/
theorem walkLine_spec {rest : List Char} (line : List Char) (markdown : Bool)
    (hcontent : content = passed ++ rest)
    (hw : Walked content (max maxChunkChars 1) passed w) :
    ∃ w', walkLine content markdown maxChunkChars w (byteLen passed, stripEnding line) = some w' ∧
      Walked content (max maxChunkChars 1) (passed ++ line) w' := by
  obtain ⟨ending, hline, hending⟩ := stripEnding_append line
  obtain ⟨flushed, hflush, hstart, hgathered⟩ := Walk.flush_spec hcontent hw
  unfold walkLine
  by_cases hnil : trim (stripEnding line) = []
  · simp only [hnil, List.isEmpty_nil, if_true]
    refine ⟨flushed, hflush, .closed hstart (hgathered.blank fun c hc => ?_)⟩
    rw [hline] at hc
    exact (List.mem_append.mp hc).elim (all_blank_of_trimmed_nil hnil c) (hending c)
  · have hfull : (trim (stripEnding line)).isEmpty = false := List.isEmpty_eq_false_iff.mpr hnil
    simp only [hfull, Bool.false_eq_true, if_false]
    cases (if markdown = true then atxHeading (trim (stripEnding line)) else none) with
    | none =>
      refine ⟨_, rfl, ?_⟩
      have hnext := Walk.extend_spec hnil hending hw
      rwa [← hline] at hnext
    | some heading =>
      -- the heading closes the block and starts the next one
      refine ⟨_, by simp only [hflush, Option.bind_eq_bind, Option.bind_some]; rfl, ?_⟩
      have htitled : Walked content (max maxChunkChars 1) passed
          { flushed with sectionTitle := some heading } := .closed hstart hgathered
      have hnext := Walk.extend_spec hnil hending htitled
      rwa [← hline] at hnext

/-- The walk over the lines returns, at the end of the content. -/
theorem walkLines_spec (markdown : Bool) (lines : List (List Char)) : ∀ (passed : List Char) (w : Walk),
    content = passed ++ lines.flatten → Walked content (max maxChunkChars 1) passed w →
    ∃ w', (lineSpans (byteLen passed) lines).foldlM (walkLine content markdown maxChunkChars) w = some w' ∧
      Walked content (max maxChunkChars 1) content w' := by
  induction lines with
  | nil =>
    intro passed w hcontent hw
    have hall : content = passed := by simpa using hcontent
    rw [← hall] at hw
    exact ⟨w, rfl, hw⟩
  | cons line lines ih =>
    intro passed w hcontent hw
    rw [List.flatten_cons] at hcontent
    obtain ⟨w', hline, hw'⟩ := walkLine_spec line markdown hcontent hw
    obtain ⟨last, hlast, hdone⟩ := ih (passed ++ line) w' (by rw [hcontent, List.append_assoc]) hw'
    refine ⟨last, ?_, hdone⟩
    rw [lineSpans, List.foldlM_cons, hline, ← byteLen_append]
    exact hlast

/-- **The walk gathers the whole content.** -/
theorem structuralSpans_spec (content : List Char) (markdown : Bool) (maxChunkChars : Nat) :
    ∃ spans, structuralSpans content markdown maxChunkChars = some spans ∧
      Gathered content (max maxChunkChars 1) content (spans.map SectionSpan.offsets) := by
  have hinit : Walked content (max maxChunkChars 1) [] {} :=
    .closed rfl ⟨by simp, by simp, .nil, by simp⟩
  obtain ⟨w, hw, hdone⟩ := walkLines_spec markdown (splitInclusive content) [] {}
    (by rw [splitInclusive_flatten, List.nil_append]) hinit
  obtain ⟨flushed, hflush, -, hgathered⟩ := Walk.flush_spec (List.append_nil content).symm hdone
  refine ⟨flushed.spans, ?_, hgathered⟩
  unfold structuralSpans
  rw [byteLen_nil] at hw
  simp only [hw, hflush, Option.bind_eq_bind, Option.bind_some]
  rfl

/-! ## Chunks -/

/-- The strategies whose blocks do not overlap. -/
def ChunkStrategy.Structural (strategy : ChunkStrategy) : Prop :=
  strategy = .paragraph ∨ strategy = .markdown

/-- The text of a chunk is the content between its offsets, which are boundaries. -/
structure Excerpt (content : List Char) (limit : Nat) (c : ChunkCandidate) : Prop where
  placed : ∃ pre post, content = pre ++ c.text ++ post ∧ c.startOffset = byteLen pre ∧
    c.endOffset = byteLen pre + byteLen c.text
  core : Core isWhiteSpace c.text
  short : c.text.length ≤ max 1 limit

/-- The character at an offset lies in the chunk. -/
def ChunkCandidate.Holds (c : ChunkCandidate) (offset : Nat) : Prop :=
  c.startOffset ≤ offset ∧ offset < c.endOffset

/-- The chunks of a content. -/
structure Chunked (content : List Char) (strategy : ChunkStrategy) (maxChunkChars : Nat)
    (chunks : List ChunkCandidate) : Prop where
  excerpt : ∀ c ∈ chunks, Excerpt content maxChunkChars c
  complete : ∀ pre char post, content = pre ++ char :: post → isWhiteSpace char = false →
    ∃ c ∈ chunks, c.Holds (byteLen pre)
  ordered : strategy.Structural → chunks.Pairwise fun a b =>
    a.startOffset < b.startOffset ∧ a.endOffset ≤ b.startOffset
  once : strategy.Structural → ∀ pre char post, content = pre ++ char :: post →
    isWhiteSpace char = false → ∃! i : Nat, ∃ c : ChunkCandidate, chunks[i]? = some c ∧ c.Holds (byteLen pre)

/-- The spans of a strategy: within the limit, covering the content, and in order if it is
structural. -/
structure Spanned (content : List Char) (strategy : ChunkStrategy) (maxChunkChars : Nat)
    (spans : List (Nat × Nat)) : Prop where
  sound : ∀ span ∈ spans, Sound content (max 1 maxChunkChars) span
  covers : Covers isWhiteSpace spans 0 content
  ordered : strategy.Structural → spans.Pairwise fun a b => a.2 ≤ b.1

theorem Gathered.spanned {strategy : ChunkStrategy}
    (h : Gathered content (max (max maxChunkChars 1) 1) content spans) :
    Spanned content strategy maxChunkChars spans :=
  ⟨fun span hspan => (h.sound span hspan).mono (by omega), h.covers, fun _ => h.ordered⟩

theorem spansOf_spec (content : List Char) (strategy : ChunkStrategy) (limits : ChunkingLimits) :
    ∃ spans, spansOf content strategy limits = some spans ∧
      Spanned content strategy limits.maxChunkChars (spans.map SectionSpan.offsets) := by
  cases strategy with
  | paragraph =>
    obtain ⟨spans, hspans, hgathered⟩ := structuralSpans_spec content false (max limits.maxChunkChars 1)
    exact ⟨spans, hspans, hgathered.spanned⟩
  | markdown =>
    obtain ⟨spans, hspans, hgathered⟩ := structuralSpans_spec content true (max limits.maxChunkChars 1)
    exact ⟨spans, hspans, hgathered.spanned⟩
  | fixedWindow windowChars overlapChars =>
    have hplace : content = [] ++ content ++ [] := by simp
    set window := min (max windowChars 1) (max limits.maxChunkChars 1) with hwindow
    obtain ⟨spans, hspans, hwindows⟩ := windowSpans_spec hplace window (min overlapChars (window - 1))
    rw [byteLen_nil, Nat.zero_add] at hspans
    refine ⟨spans.map fun span => ⟨span.1, span.2, none⟩, ?_, ?_⟩
    · unfold spansOf
      simp only [← hwindow, hspans, Option.bind_eq_bind, Option.bind_some]
      rfl
    · have hoffsets : (spans.map fun span => (⟨span.1, span.2, none⟩ : SectionSpan)).map
          SectionSpan.offsets = spans := by
        rw [List.map_map]
        exact List.map_id _
      rw [hoffsets]
      refine ⟨fun span hspan => (hwindows.sound span hspan).mono (by omega), hwindows.covers, ?_⟩
      rintro (h | h) <;> cases h

theorem candidates_spec (limit : Nat) (spans : List SectionSpan) : ∀ index,
    (∀ span ∈ spans, Sound content (max 1 limit) span.offsets) →
    ∃ chunks, candidates content index spans = some chunks ∧
      chunks.map (fun c => (c.startOffset, c.endOffset)) = spans.map SectionSpan.offsets ∧
      (∀ c ∈ chunks, Excerpt content limit c) ∧
      ∀ i c, chunks[i]? = some c → c.chunkIndex = Int32.ofNat (index + i) := by
  induction spans with
  | nil =>
    intro index _
    exact ⟨[], rfl, rfl, by simp, by simp⟩
  | cons span spans ih =>
    intro index hsound
    obtain ⟨rest, hrest, hoffsets, hexcerpt, hindex⟩ := ih (index + 1) fun span hspan =>
      hsound span (List.mem_cons_of_mem _ hspan)
    obtain ⟨pre, text, post, hcontent, hspan, hcore, hshort⟩ := hsound span List.mem_cons_self
    obtain ⟨hstart, hstop⟩ := Prod.mk.inj hspan
    have hslice : slice content span.start span.stop = some text := by
      rw [hstart, hstop, hcontent]
      exact slice_eq pre text post
    refine ⟨_, by simp only [candidates, hslice, hrest, Option.bind_eq_bind, Option.bind_some]; rfl,
      ?_, ?_, ?_⟩
    · rw [List.map_cons, List.map_cons, hoffsets]
      rfl
    · intro c hc
      rcases List.mem_cons.mp hc with rfl | hc
      · exact ⟨⟨pre, post, hcontent, hstart, hstop⟩, hcore, hshort⟩
      · exact hexcerpt c hc
    · intro i c hc
      cases i with
      | zero =>
        rw [List.getElem?_cons_zero, Option.some.injEq] at hc
        rw [← hc]
        rfl
      | succ i =>
        rw [List.getElem?_cons_succ] at hc
        rw [hindex i c hc]
        congr 1
        omega

theorem holds_once {chunks : List ChunkCandidate} {offset i j : Nat} {a b : ChunkCandidate}
    (hordered : chunks.Pairwise fun a b => a.endOffset ≤ b.startOffset)
    (ha : chunks[i]? = some a) (hb : chunks[j]? = some b) (hia : a.Holds offset) (hjb : b.Holds offset) :
    i = j := by
  obtain ⟨hi, rfl⟩ := List.getElem?_eq_some_iff.mp ha
  obtain ⟨hj, rfl⟩ := List.getElem?_eq_some_iff.mp hb
  have hpair := List.pairwise_iff_getElem.mp hordered
  have hia' := hia
  have hjb' := hjb
  rw [ChunkCandidate.Holds] at hia' hjb'
  rcases Nat.lt_trichotomy i j with hlt | heq | hgt
  · have hsep := hpair i j hi hj hlt
    omega
  · exact heq
  · have hsep := hpair j i hj hi hgt
    omega

theorem Spanned.chunked {strategy : ChunkStrategy} {chunks : List ChunkCandidate}
    (h : Spanned content strategy maxChunkChars spans)
    (hoffsets : chunks.map (fun c => (c.startOffset, c.endOffset)) = spans)
    (hexcerpt : ∀ c ∈ chunks, Excerpt content maxChunkChars c) :
    Chunked content strategy maxChunkChars chunks := by
  have hcomplete : ∀ pre char post, content = pre ++ char :: post → isWhiteSpace char = false →
      ∃ c ∈ chunks, c.Holds (byteLen pre) := by
    intro pre char post hcontent hchar
    obtain ⟨span, hspan, hle, hlt⟩ := h.covers pre char post hcontent hchar
    rw [← hoffsets] at hspan
    obtain ⟨c, hc, rfl⟩ := List.mem_map.mp hspan
    rw [Nat.zero_add] at hle hlt
    exact ⟨c, hc, hle, hlt⟩
  have hends : strategy.Structural → chunks.Pairwise fun a b => a.endOffset ≤ b.startOffset := by
    intro hstructural
    have hpair := h.ordered hstructural
    rw [← hoffsets] at hpair
    exact List.pairwise_map.mp hpair
  refine ⟨hexcerpt, hcomplete, fun hstructural => ?_, fun hstructural => ?_⟩
  · refine (hends hstructural).imp_of_mem fun {a b} ha _ hle => ⟨?_, hle⟩
    -- a chunk is not empty
    obtain ⟨⟨pre, post, -, hstart, hstop⟩, hcore, -⟩ := hexcerpt a ha
    have hpos := byteLen_pos hcore.ne_nil
    omega
  · intro pre char post hcontent hchar
    obtain ⟨c, hc, hholds⟩ := hcomplete pre char post hcontent hchar
    obtain ⟨i, hi⟩ := List.mem_iff_getElem?.mp hc
    refine ⟨i, ⟨c, hi, hholds⟩, ?_⟩
    rintro j ⟨d, hd, hdholds⟩
    exact holds_once (hends hstructural) hd hi hdholds hholds

/-- **Chunking loses and invents nothing.** The chunks of a content are excerpts of it that hold
every character that is not blank, exactly once under the structural strategies; they are refused
exactly when there are more than the limit, and numbered from zero otherwise. -/
theorem chunk_spec (content : List Char) (strategy : ChunkStrategy) (maxChunkChars : Nat) :
    ∃ chunks : List ChunkCandidate, Chunked content strategy maxChunkChars chunks ∧
      ∀ ceiling : { n : Nat // n < 2147483647 },
        chunk content strategy ⟨maxChunkChars, ceiling, ceiling.2⟩ =
          some (if ceiling.1 < chunks.length then .error (.tooManyChunks chunks.length ceiling)
            else .ok chunks) ∧
        (chunks.length ≤ ceiling.1 → ∀ (i : Nat) (c : ChunkCandidate), chunks[i]? = some c →
            c.chunkIndex.toInt = i) := by
  -- the spans depend on the characters of a chunk only
  obtain ⟨spans, hspans, hspanned⟩ := spansOf_spec content strategy ⟨maxChunkChars, 0, by decide⟩
  obtain ⟨chunks, hchunks, hoffsets, hexcerpt, hindex⟩ := candidates_spec maxChunkChars spans 0
    fun span hspan => hspanned.sound _ (List.mem_map_of_mem hspan)
  have hlen : spans.length = chunks.length := by
    have hboth := congrArg List.length hoffsets
    rwa [List.length_map, List.length_map, eq_comm] at hboth
  refine ⟨chunks, hspanned.chunked hoffsets hexcerpt, fun ceiling => ⟨?_, fun hle i c hc => ?_⟩⟩
  · have hsame : spansOf content strategy ⟨maxChunkChars, ceiling, ceiling.2⟩ = some spans := hspans
    unfold chunk
    simp only [hsame, Option.bind_eq_bind, Option.bind_some, hlen, hchunks]
    split
    · rfl
    · rfl
  · obtain ⟨hi, -⟩ := List.getElem?_eq_some_iff.mp hc
    have hceiling := ceiling.2
    rw [hindex i c hc, Nat.zero_add, Int32.toInt_ofNat_of_lt (by omega)]

end Moira.Chunking
