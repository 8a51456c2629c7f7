import Mathlib.Data.List.DropRight
import Moira.Runner.Properties.OneShot

/-!
# A token that is read while it is printed

A stream may be read at any moment, also in the middle of a token, and whatever follows the start of
a token makes the runner ready.
-/

namespace Moira.Runner

/-! ## The beginning of a text -/

theorem stripAnsiFrom_take (mode : AnsiMode) (p q : List Char) :
    stripAnsiFrom mode p <+: stripAnsiFrom mode (p ++ q) := by
  fun_induction stripAnsiFrom mode p with
  | case1 mode => exact List.nil_prefix
  | case2 c _ => exact List.nil_prefix
  | case3 c hkept =>
    -- the last character that was read is kept, whatever follows
    cases q with
    | nil =>
      rewrite [List.append_nil, stripAnsiFrom, if_neg hkept]
      exact List.prefix_rfl
    | cons d rest =>
      rw [Bool.not_eq_true, Bool.or_eq_false_iff, decide_eq_false_iff_not] at hkept
      rw [List.singleton_append, stripAnsiFrom, if_neg hkept.1, hkept.2, if_neg Bool.false_ne_true]
      exact ⟨_, rfl⟩
  | case4 rest ih | case5 d rest hcsi hosc ih | case6 d rest hcsi hosc ih =>
    simp [stripAnsiFrom, *]
  | case7 c d rest hescape hcontrol ih =>
    simp only [List.cons_append, stripAnsiFrom, if_neg hescape, if_pos hcontrol]
    exact ih
  | case8 c d rest hescape hkept ih =>
    rw [List.cons_append, List.cons_append, stripAnsiFrom, if_neg hescape, if_neg hkept]
    exact (List.prefix_cons_inj c).mpr ih
  | case9 c rest hfinal ih | case10 c rest hfinal ih =>
    simp only [List.cons_append, stripAnsiFrom, hfinal, if_true]
    exact ih
  | case11 c => exact List.nil_prefix
  | case12 d rest ih => simpa [stripAnsiFrom] using ih
  | case13 c d rest hbell hst ih =>
    rw [List.cons_append, List.cons_append, stripAnsiFrom, if_neg hbell, if_pos hst]
    exact ih
  | case14 c d rest hbell hst ih =>
    rw [List.cons_append, List.cons_append, stripAnsiFrom, if_neg hbell, if_neg hst]
    exact ih

variable {p s : List Char}

/-- What the text of a stream says of the text of its beginning. -/
theorem stripAnsi_take (h : p <+: s) : stripAnsi p <+: stripAnsi s := by
  obtain ⟨q, rfl⟩ := h
  exact stripAnsiFrom_take .text p q

theorem trimText_take (p q : List Char) : trimText p <+: trimText (p ++ q) := by
  have hright : ∀ a b : List Char, (a.reverse.dropWhile isWhiteSpace).reverse <+:
      ((a ++ b).reverse.dropWhile isWhiteSpace).reverse := by
    intro a b
    rw [List.reverse_append, List.dropWhile_append]
    split
    · exact List.prefix_rfl
    · rw [List.reverse_append, List.reverse_reverse]
      have hstart := List.rdropWhile_prefix isWhiteSpace a
      exact hstart.trans (List.prefix_append a _)
  unfold trimText
  rw [List.dropWhile_append]
  split
  · next hblank =>
    rw [List.isEmpty_iff.mp hblank]
    exact List.nil_prefix
  · exact hright _ _

theorem splitOnP_take (b : Char → Bool) (p q : List Char) :
    ∃ lines line more rest, p.splitOnP b = lines ++ [line] ∧
      (p ++ q).splitOnP b = lines ++ (line ++ more) :: rest := by
  induction p with
  | nil =>
    obtain ⟨more, rest, hq⟩ := List.exists_cons_of_ne_nil (List.splitOnP_ne_nil b q)
    exact ⟨[], [], more, rest, List.splitOnP_nil, hq⟩
  | cons c p ih =>
    obtain ⟨lines, line, more, rest, hp, hpq⟩ := ih
    rw [List.cons_append, List.splitOnP_cons_eq_if_modifyHead, List.splitOnP_cons_eq_if_modifyHead, hp, hpq]
    split
    · exact ⟨[] :: lines, line, more, rest, rfl, rfl⟩
    · cases lines with
      | nil => exact ⟨[], c :: line, more, rest, rfl, rfl⟩
      | cons first lines => exact ⟨(c :: first) :: lines, line, more, rest, rfl, rfl⟩

/-- The lines of the beginning are lines of the stream, but for the last one, which may go on there.
-/
theorem textLines_take (h : p <+: s) : textLines p = [] ∨
    ∃ lines line more rest, textLines p = lines ++ [line] ∧
      textLines s = lines ++ (line ++ more) :: rest ∧ line ≠ [] := by
  obtain ⟨q, rfl⟩ := h
  obtain ⟨lines, line, more, rest, hp, hpq⟩ := splitOnP_take (fun c => c = '\n' || c = '\r') p q
  unfold textLines
  rw [hp, hpq]
  simp only [List.map_append, List.filter_append, List.map_cons, List.map_nil]
  set before := (lines.map trimText).filter fun line => !line.isEmpty
  cases hline : trimText line with
  | cons c rest' =>
    -- the last line has something in it, and keeps it
    obtain ⟨more', hmore⟩ := trimText_take line more
    refine .inr ⟨before, c :: rest', more', (rest.map trimText).filter fun line => !line.isEmpty, rfl, ?_,
      List.cons_ne_nil _ _⟩
    rw [← hmore, hline]
    rfl
  | nil =>
    cases hbefore : before.reverse with
    | nil =>
      rw [List.reverse_eq_nil_iff.mp hbefore]
      exact .inl rfl
    | cons line' before' =>
      rw [List.reverse_eq_cons_iff.mp hbefore]
      refine .inr ⟨before'.reverse, line', [], (trimText (line ++ more) :: rest.map trimText).filter
        fun line => !line.isEmpty, List.append_nil _, ?_, ?_⟩
      · rw [List.append_assoc, List.append_nil]
        rfl
      · have hmem : line' ∈ before := by
          rw [List.reverse_eq_cons_iff.mp hbefore]
          exact List.mem_append_right _ (List.mem_singleton_self _)
        simpa using (List.mem_filter.mp hmem).2

/-! ## The value in the lines -/

variable {l : List Char}

variable {start : List Char}

theorem starts_iff : start.isPrefixOf l = true ↔ start <+: l :=
  List.isPrefixOf_iff_prefix

theorem splitOnce_eq {before after : List Char} (h : splitOnce start l = some (before, after)) :
    l = before ++ start ++ after := by
  induction l generalizing before with
  | nil =>
    rw [splitOnce] at h
    split at h
    · next hstart =>
      obtain ⟨rfl, rfl⟩ := Prod.mk.inj (Option.some.inj h)
      rw [hstart]
      rfl
    · cases h
  | cons c rest ih =>
    rw [splitOnce] at h
    split at h
    · next hprefix =>
      obtain ⟨rfl, rfl⟩ := Prod.mk.inj (Option.some.inj h)
      obtain ⟨tail, htail⟩ := starts_iff.mp hprefix
      rw [← htail, List.nil_append, List.drop_left]
    · obtain ⟨⟨before', after'⟩, hrest, heq⟩ := Option.map_eq_some_iff.mp h
      obtain ⟨rfl, rfl⟩ := Prod.mk.inj heq
      rw [List.cons_append, List.cons_append, ← ih hrest]

theorem splitOnce_append {before after : List Char} (more : List Char)
    (h : splitOnce start l = some (before, after)) :
    splitOnce start (l ++ more) = some (before, after ++ more) := by
  induction l generalizing before with
  | nil =>
    rw [splitOnce] at h
    split at h
    · next hstart =>
      obtain ⟨rfl, rfl⟩ := Prod.mk.inj (Option.some.inj h)
      subst hstart
      cases more <;> rfl
    · cases h
  | cons c rest ih =>
    rw [splitOnce] at h
    rw [List.cons_append, splitOnce]
    split at h
    · next hprefix =>
      obtain ⟨rfl, rfl⟩ := Prod.mk.inj (Option.some.inj h)
      have hstart : start <+: c :: rest := starts_iff.mp hprefix
      have hlong : start <+: c :: (rest ++ more) := hstart.trans (List.prefix_append (c :: rest) more)
      rw [if_pos (starts_iff.mpr hlong), ← List.cons_append,
        List.drop_append_of_le_length hstart.length_le]
    · next hnot =>
      obtain ⟨⟨before', after'⟩, hrest, heq⟩ := Option.map_eq_some_iff.mp h
      obtain ⟨rfl, rfl⟩ := Prod.mk.inj heq
      -- what does not begin here and is found further on does not begin here in a longer text
      rw [if_neg, ih hrest]
      · rfl
      · intro hlong
        refine hnot (starts_iff.mpr ?_)
        have hstart : start <+: (c :: rest) ++ more := starts_iff.mp hlong
        refine List.prefix_of_prefix_length_le hstart (List.prefix_append _ _) ?_
        rw [splitOnce_eq hrest, List.length_cons, List.length_append, List.length_append]
        omega

theorem valueLines_append (start : List Char) (a b : List (List Char)) :
    valueLines start (a ++ b) = match valueLines start a with
      | some (first, rest) => some (first, rest ++ b)
      | none => valueLines start b := by
  induction a with
  | nil => rfl
  | cons line a ih =>
    rw [List.cons_append, valueLines, valueLines]
    cases splitOnce start line with
    | some found => rfl
    | none => exact ih

variable {first : List Char}

theorem valueLines_goOn {line : List Char} {rest' : List (List Char)}
    (h : valueLines start [line] = some (first, rest')) (more : List Char)
    (rest : List (List Char)) :
    rest' = [] ∧ valueLines start ((line ++ more) :: rest) = some (first ++ more, rest) := by
  rw [valueLines] at h ⊢
  cases hfound : splitOnce start line with
  | none =>
    rw [hfound] at h
    cases h
  | some found =>
    obtain ⟨before, after⟩ := found
    rw [hfound] at h
    obtain ⟨rfl, rfl⟩ := Prod.mk.inj (Option.some.inj h)
    rw [splitOnce_append more hfound]
    have hle : before.length ≤ line.length := by
      rw [splitOnce_eq hfound, List.length_append, List.length_append]
      omega
    refine ⟨rfl, ?_⟩
    show some ((line ++ more).drop before.length, rest) = _
    rw [List.drop_append_of_le_length hle]

variable {rest : List (List Char)}

theorem valueLines_start {lines : List (List Char)}
    (h : valueLines start lines = some (first, rest)) : start <+: first := by
  induction lines with
  | nil => cases h
  | cons line lines ih =>
    rw [valueLines] at h
    cases hfound : splitOnce start line with
    | none =>
      rw [hfound] at h
      exact ih h
    | some found =>
      obtain ⟨before, after⟩ := found
      rw [hfound] at h
      obtain ⟨rfl, rfl⟩ := Prod.mk.inj (Option.some.inj h)
      rw [splitOnce_eq hfound, List.append_assoc, List.drop_left]
      exact List.prefix_append _ _

/-! ## The value -/

/-- The lines that make up a value, up to the first character that cannot be in it. -/
def joinLines (first : List Char) (rest : List (List Char)) : List Char :=
  (first ++ (rest.takeWhile (·.all isUrlChar)).flatten).takeWhile isUrlChar

theorem rejoinWrapped_eq {stripped : List Char}
    (h : valueLines start (textLines stripped) = some (first, rest)) :
    rejoinWrapped stripped start =
      if byteLength (joinLines first rest) ≤ byteLength start then none else some (joinLines first rest) := by
  rw [rejoinWrapped, h]
  rfl

variable {α : Type}

theorem takeWhile_append_of_not_all {f : α → Bool} {l : List α} (h : l.all f = false)
    (l' : List α) : (l ++ l').takeWhile f = l.takeWhile f := by
  rw [List.takeWhile_append, if_neg]
  intro hlength
  obtain ⟨a, ha, hnot⟩ := List.all_eq_false.mp h
  have hstart : l.takeWhile f <+: l := List.takeWhile_prefix f
  have hself := hstart.eq_of_length hlength
  exact hnot (List.takeWhile_eq_self_iff.mp hself a ha)

theorem takeWhile_append_of_head {f : α → Bool} (l : List α) {l' : List α}
    (h : ∀ a, l'.head? = some a → f a = false) : (l ++ l').takeWhile f = l.takeWhile f := by
  have hnil : l'.takeWhile f = [] := by
    cases l' with
    | nil => rfl
    | cons a l' => rw [List.takeWhile_cons, h a rfl, if_neg Bool.false_ne_true]
  rw [List.takeWhile_append]
  split
  · next hlength =>
    have hstart : l.takeWhile f <+: l := List.takeWhile_prefix f
    rw [hnil, List.append_nil, hstart.eq_of_length hlength]
  · rfl

theorem joinLines_of_all (h : first.all isUrlChar = true)
    (hrest : ∀ line ∈ rest, line.all isUrlChar = true) (more : List (List Char)) :
    joinLines first (rest ++ more) =
      first ++ rest.flatten ++ (more.takeWhile (·.all isUrlChar)).flatten := by
  rw [joinLines, List.takeWhile_append_of_pos hrest, List.flatten_append, ← List.append_assoc,
    List.takeWhile_eq_self_iff]
  intro c hc
  rw [List.mem_append, List.mem_append] at hc
  rcases hc with (hc | hc) | hc
  · exact List.all_eq_true.mp h c hc
  · obtain ⟨line, hline, hc⟩ := List.mem_flatten.mp hc
    exact List.all_eq_true.mp (hrest line hline) c hc
  · obtain ⟨line, hline, hc⟩ := List.mem_flatten.mp hc
    have hall : line.all isUrlChar = true :=
      List.mem_takeWhile_imp (p := fun line : List Char => line.all isUrlChar) hline
    exact List.all_eq_true.mp hall c hc

/-- How the token of a beginning of a stream is the token of the stream. The lines are those of the
texts. -/
inductive Harmless (start : List Char) (p s : List (List Char)) : Prop
  /-- No token has begun. -/
  | unbegun (h : valueLines start p = none)
  /-- Nothing but the start of a token is there. -/
  | bare (h : valueLines start p = some (start, []))
  /-- A character that cannot be in a token has been printed after its start. -/
  | closed {first : List Char} {rest : List (List Char)} (h : valueLines start p = some (first, rest))
      (hclosed : ∃ line ∈ first :: rest, line.all isUrlChar = false)
  /-- What is printed next, in the same line, is a character that cannot be in a token. -/
  | spaced {first more : List Char} {c : Char} {rest : List (List Char)}
      (h : valueLines start p = some (first, [])) (hs : valueLines start s = some (first ++ c :: more, rest))
      (hc : isUrlChar c = false)
  /-- The line goes on no further, and the next one, if any, does not continue the token. -/
  | outgrown {first : List Char} {rest more : List (List Char)} (h : valueLines start p = some (first, rest))
      (hs : valueLines start s = some (first, rest ++ more))
      (hover : ∀ line, more.head? = some line → line.all isUrlChar = false)

theorem valueLines_cut (hcut : p <+: s) (h : valueLines start (textLines p) = some (first, rest)) :
    (rest = [] ∧ ∃ more rest', valueLines start (textLines s) = some (first ++ more, rest')) ∨
      ∃ lines line more rest', rest = lines ++ [line] ∧ line ≠ [] ∧
        valueLines start (textLines s) = some (first, lines ++ (line ++ more) :: rest') := by
  rcases textLines_take hcut with hnil | ⟨lines, line, more, rest', hp, hs, hline⟩
  · rw [hnil] at h
    cases h
  · rw [hp, valueLines_append] at h
    rw [hs, valueLines_append]
    cases hfound : valueLines start lines with
    | none =>
      rw [hfound] at h
      obtain ⟨hrest, hgoOn⟩ := valueLines_goOn h more rest'
      exact .inl ⟨hrest, more, rest', hgoOn⟩
    | some found =>
      obtain ⟨first', rest''⟩ := found
      rw [hfound] at h
      obtain ⟨rfl, rfl⟩ := Prod.mk.inj (Option.some.inj h)
      exact .inr ⟨rest'', line, more, rest', rfl, hline, rfl⟩

theorem byteLength_append (a b : List Char) : byteLength (a ++ b) = byteLength a + byteLength b := by
  rw [byteLength, List.map_append, List.sum_append]
  rfl

theorem byteLength_pos {a : List Char} (h : a ≠ []) : 0 < byteLength a := by
  obtain ⟨c, rest, rfl⟩ := List.exists_cons_of_ne_nil h
  rw [byteLength, List.map_cons, List.sum_cons]
  have hc := Char.utf8Size_pos c
  omega

theorem valueLines_mem {lines : List (List Char)}
    (h : valueLines start lines = some (first, rest)) : rest ⊆ lines := by
  induction lines with
  | nil => cases h
  | cons line lines ih =>
    rw [valueLines] at h
    cases hfound : splitOnce start line with
    | none =>
      rw [hfound] at h
      exact List.Subset.trans (ih h) (List.subset_cons_self _ _)
    | some found =>
      rw [hfound] at h
      obtain ⟨rfl, rfl⟩ := Prod.mk.inj (Option.some.inj h)
      exact List.subset_cons_self _ _

theorem ne_nil_of_mem_textLines {stripped line : List Char} (h : line ∈ textLines stripped) : line ≠ [] := by
  simpa using (List.mem_filter.mp h).2

theorem not_all_of_flatten {more : List (List Char)} (hne : ∀ line ∈ more, line ≠ [])
    (h : (more.takeWhile (·.all isUrlChar)).flatten = []) (line : List Char)
    (hline : more.head? = some line) : line.all isUrlChar = false := by
  obtain ⟨rest, rfl⟩ := List.head?_eq_some_iff.mp hline
  cases hall : line.all isUrlChar with
  | false => rfl
  | true =>
    rw [List.takeWhile_cons, hall, if_pos rfl, List.flatten_cons, List.append_eq_nil_iff] at h
    exact absurd h.1 (hne line List.mem_cons_self)

section Cut

variable {v : List Char}

theorem rejoinWrapped_eq_of_join {first' : List Char} {rest' : List (List Char)}
    (hp : valueLines start (textLines p) = some (first, rest))
    (hs : valueLines start (textLines s) = some (first', rest'))
    (hjoin : joinLines first rest = joinLines first' rest') :
    rejoinWrapped p start = rejoinWrapped s start := by
  rw [rejoinWrapped_eq hp, rejoinWrapped_eq hs, hjoin]

theorem Harmless.rejoin (h : Harmless start (textLines p) (textLines s)) (hcut : p <+: s)
    (v' : List Char) (hv' : rejoinWrapped p start = some v') : rejoinWrapped s start = some v' := by
  cases h with
  | unbegun h =>
    rw [rejoinWrapped, h] at hv'
    cases hv'
  | bare h =>
    have hle : byteLength (joinLines start []) ≤ byteLength start := by
      obtain ⟨t, ht⟩ := List.takeWhile_prefix (l := start ++ ([] : List (List Char)).flatten) isUrlChar
      have hlength := byteLength_append ((start ++ ([] : List (List Char)).flatten).takeWhile isUrlChar) t
      rw [ht, List.flatten_nil, List.append_nil] at hlength
      rw [joinLines, List.takeWhile_nil, List.flatten_nil, List.append_nil]
      omega
    rw [rejoinWrapped_eq h, if_pos hle] at hv'
    cases hv'
  | @closed first rest h hclosed =>
    obtain ⟨line, hline, hnot⟩ := hclosed
    rcases valueLines_cut hcut h with ⟨rfl, more, rest', hs⟩ | ⟨lines, last, more, rest', rfl, -, hs⟩
    · obtain rfl := List.mem_singleton.mp hline
      rw [← hv']
      refine (rejoinWrapped_eq_of_join h hs ?_).symm
      rw [joinLines, joinLines, List.append_assoc, takeWhile_append_of_not_all hnot,
        takeWhile_append_of_not_all hnot]
    · rw [← hv']
      refine (rejoinWrapped_eq_of_join h hs ?_).symm
      rcases List.mem_cons.mp hline with rfl | hline
      · rw [joinLines, joinLines, takeWhile_append_of_not_all hnot, takeWhile_append_of_not_all hnot]
      · rw [joinLines, joinLines]
        rcases List.mem_append.mp hline with hline | hline
        · have hlines : (lines.all fun line => line.all isUrlChar) = false :=
            List.all_eq_false.mpr ⟨line, hline, by rw [hnot]; exact Bool.false_ne_true⟩
          rw [takeWhile_append_of_not_all hlines, takeWhile_append_of_not_all hlines]
        · obtain rfl := List.mem_singleton.mp hline
          have hnot' : (line ++ more).all isUrlChar = false := by rw [List.all_append, hnot, Bool.false_and]
          rw [takeWhile_append_of_head lines, takeWhile_append_of_head lines]
          · intro a ha
            cases ha
            exact hnot'
          · intro a ha
            cases ha
            exact hnot
  | @spaced first more c rest h hs hc =>
    rw [← hv']
    refine (rejoinWrapped_eq_of_join h hs ?_).symm
    rw [joinLines, joinLines, List.takeWhile_nil, List.flatten_nil, List.append_nil, List.append_assoc,
      takeWhile_append_of_head first]
    intro a ha
    cases ha
    exact hc
  | @outgrown first rest more h hs hover =>
    rw [← hv']
    refine (rejoinWrapped_eq_of_join h hs ?_).symm
    rw [joinLines, joinLines, takeWhile_append_of_head rest hover]

/-- **A cut into a value gives another value, unless it is harmless.** -/
theorem harmless_of_rejoin (hcut : p <+: s) (hs : rejoinWrapped s start = some v)
    (h : ∀ v', rejoinWrapped p start = some v' → v' = v) :
    Harmless start (textLines p) (textLines s) := by
  cases hp : valueLines start (textLines p) with
  | none => exact .unbegun hp
  | some found =>
    obtain ⟨first, rest⟩ := found
    by_cases hclosed : ∃ line ∈ first :: rest, line.all isUrlChar = false
    · exact .closed hp hclosed
    · have hopen : ∀ line ∈ first :: rest, line.all isUrlChar = true := by
        intro line hline
        by_contra hnot
        exact hclosed ⟨line, hline, by simpa using hnot⟩
      have hfirst := hopen first List.mem_cons_self
      have hrest : ∀ line ∈ rest, line.all isUrlChar = true := fun line hline =>
        hopen line (List.mem_cons_of_mem _ hline)
      obtain ⟨t, rfl⟩ := valueLines_start hp
      -- the value that is there so far, if it is one, is the value of the whole text
      have hvalue : byteLength start < byteLength (start ++ t ++ rest.flatten) →
          start ++ t ++ rest.flatten = v := by
        intro hlength
        have hjoin : joinLines (start ++ t) rest = start ++ t ++ rest.flatten := by
          have hall := joinLines_of_all hfirst hrest []
          rwa [List.append_nil, List.takeWhile_nil, List.flatten_nil, List.append_nil] at hall
        refine h _ ?_
        rw [rejoinWrapped_eq hp, hjoin, if_neg (by omega)]
      have hwhole : ∀ {first' rest'}, valueLines start (textLines s) = some (first', rest') →
          joinLines first' rest' = v := by
        intro first' rest' hfound
        rw [rejoinWrapped_eq hfound] at hs
        split at hs
        · cases hs
        · exact Option.some.inj hs
      rcases valueLines_cut hcut hp with ⟨rfl, more, rest', hfound⟩ |
          ⟨lines, line, more, rest', rfl, hne, hfound⟩
      · rw [List.flatten_nil, List.append_nil] at hvalue
        by_cases hbare : t = []
        · subst hbare
          rw [List.append_nil] at hp
          exact .bare hp
        · have hlong : byteLength start < byteLength (start ++ t) := by
            rw [byteLength_append]
            have hpos := byteLength_pos hbare
            omega
          have hjoin := (hwhole hfound).trans (hvalue hlong).symm
          cases more with
          | nil =>
            rw [List.append_nil] at hfound hjoin
            have hall := joinLines_of_all hfirst (fun _ h => absurd h List.not_mem_nil) rest'
            rw [List.nil_append, hjoin, List.flatten_nil, List.append_nil, List.self_eq_append_right] at hall
            refine .outgrown hp hfound (not_all_of_flatten (fun line hline => ?_) hall)
            exact ne_nil_of_mem_textLines (valueLines_mem hfound hline)
          | cons c more =>
            refine .spaced hp hfound ?_
            cases hc : isUrlChar c with
            | false => rfl
            | true =>
              rw [joinLines, List.append_assoc, List.takeWhile_append_of_pos (List.all_eq_true.mp hfirst),
                List.cons_append, List.takeWhile_cons, hc, if_pos rfl, List.append_right_eq_self] at hjoin
              cases hjoin
      · have hlines : ∀ line ∈ lines, line.all isUrlChar = true := fun line hline =>
          hrest line (List.mem_append_left _ hline)
        have hlong : byteLength start < byteLength (start ++ t ++ (lines ++ [line]).flatten) := by
          rw [List.flatten_append, List.flatten_singleton, byteLength_append, byteLength_append,
            byteLength_append]
          have hpos := byteLength_pos hne
          omega
        have hjoin := (hwhole hfound).trans (hvalue hlong).symm
        rw [joinLines_of_all hfirst hlines, List.flatten_append, List.flatten_singleton, ← List.append_assoc,
          List.append_cancel_left_eq, List.takeWhile_cons] at hjoin
        split at hjoin
        · rw [List.flatten_cons, List.append_assoc, List.append_right_eq_self, List.append_eq_nil_iff] at hjoin
          obtain ⟨rfl, hmore⟩ := hjoin
          rw [List.append_nil, List.append_cons] at hfound
          refine .outgrown hp hfound (not_all_of_flatten (fun line hline => ?_) hmore)
          exact ne_nil_of_mem_textLines (valueLines_mem hfound (List.mem_append_right _ hline))
        · exact absurd hjoin.symm hne

theorem rejoinWrapped_cut_iff (hcut : p <+: s) (hs : rejoinWrapped s start = some v) :
    (∀ v', rejoinWrapped p start = some v' → v' = v) ↔ Harmless start (textLines p) (textLines s) := by
  refine ⟨harmless_of_rejoin hcut hs, fun h v' hv' => ?_⟩
  have hsame := h.rejoin hcut v' hv'
  rw [hs] at hsame
  exact (Option.some.inj hsame).symm

end Cut

/-! ## The call -/

open Prog Service

/-- What of a call is looked at here: the stream that it has read last. -/
def reading : Contract runnerSig (Option TtyTranscript) where
  may _ _ := True
  answers _ _ _ := True
  next
    | _, .transcript _, .ok transcript => some transcript
    | read, _, _ => read

variable {lib : Libraries} {config : RunnerConfig}

theorem wp_reading (p : Service α) (read : Option TtyTranscript) :
    wp reading p read (fun _ _ => True) fun _ _ => True := by
  induction p generalizing read with
  | ret a => trivial
  | fail e => trivial
  | op o k ih => exact ⟨trivial, fun x _ => ih x _⟩

theorem wp_takeToken_reads (id : Uuid) (read : Option TtyTranscript) :
    wp reading (takeToken lib config id) read
      (fun read token => ∃ transcript, read = some transcript ∧
        extractToken transcript config.tokenPrefix = some token) fun _ _ => True := by
  refine ⟨trivial, fun _ _ => ?_⟩
  show wp reading ((takeTokenGated lib config id).attempt >>= _) _ _ _
  rw [wp_bind, wp_attempt]
  suffices wp reading (takeTokenGated lib config id) read
      (fun read token => ∃ transcript, read = some transcript ∧
        extractToken transcript config.tokenPrefix = some token) fun _ _ => True from
    wp_mono this (fun _ _ h => ⟨trivial, fun _ _ => h⟩) fun _ _ _ => ⟨trivial, fun _ _ => trivial⟩
  unfold takeTokenGated
  refine wp_bind_mono (wp_reading (find lib id) read) fun read identity _ => ?_
  split
  · trivial
  · refine wp_bind_mono (wp_reading (viewOf lib config identity) read) fun read view _ => ?_
    split
    · trivial
    · -- the token is that of the stream as it is read once more
      refine ⟨trivial, fun answer _ => ?_⟩
      cases answer with
      | error err => trivial
      | ok transcript =>
        dsimp only [Prog.bind]
        rw [show engine (.ok transcript) = .ret transcript from rfl, Prog.ret_bind]
        cases hextract : extractToken transcript config.tokenPrefix with
        | none => trivial
        | some token =>
          refine ⟨trivial, fun reply _ => ?_⟩
          obtain ⟨result, effective⟩ := reply
          cases result with
          | error err => trivial
          | ok _ => exact ⟨trivial, fun _ _ => ⟨transcript, rfl, hextract⟩⟩

theorem honest_reading (read : Option TtyTranscript) (tr : List (Exchange runnerSig)) :
    reading.Honest read tr := by
  induction tr generalizing read with
  | nil => trivial
  | cons exchange tr ih => exact ⟨trivial, ih _⟩

theorem takeToken_reads {id : Uuid} {tr : List (Exchange runnerSig)} {taken : MintedToken}
    (hrun : After (takeToken lib config id) tr (.ret taken)) :
    ∃ transcript, reading.track none tr = some transcript ∧
      extractToken transcript config.tokenPrefix = some taken :=
  wp_after hrun (honest_reading none tr) (wp_takeToken_reads id none)

/-- An engine with one runner, which is read as this stream. -/
def streamAnswer (lib : Libraries) (id : Uuid) (expiresAt : Nat) (transcript : TtyTranscript) :
    (o : RunnerOp) → o.Ans
  | .listRunners => .ok [⟨0, "moira-runner", runnerLabels lib id expiresAt, true⟩]
  | .transcript _ => .ok transcript
  | .attach _ => .ok ()
  | .writeStdin .. | .rename .. | .remove _ | .start _ => ⟨.ok (), true⟩
  | .create _ => (0, ⟨.ok (), true⟩)
  | .containsExchanging _ => false
  | .utcNow => (0 : Nat)
  | .newId => id
  | .begin | .lockGate | .unlockGate | .insertExchanging _ | .removeExchanging _ | .answer _ => ()

section Stream

variable {id : Uuid} {expiresAt : Nat} {transcript : TtyTranscript} {taken : MintedToken}

/-- The runner of the engine. -/
def streamIdentity (id : Uuid) (expiresAt : Nat) : RunnerIdentity where
  id := id
  containerId := 0
  containerName := "moira-runner"
  expiresAt := expiresAt
  running := true
  consumed := false

theorem fromRecord_stream (hid : lib.parseUuid (lib.formatUuid id) = some id)
    (hexpires : lib.parseRfc3339 (lib.formatRfc3339 expiresAt) = some expiresAt) :
    RunnerIdentity.fromRecord lib ⟨0, "moira-runner", runnerLabels lib id expiresAt, true⟩ =
      some (streamIdentity id expiresAt) := by
  have hconsumed : isConsumed "moira-runner" = false := by decide +kernel
  simp [RunnerIdentity.fromRecord, runnerLabels, labelMarker, labelMarkerValue, labelId, labelExpiresAt,
    List.lookup_cons, hid, hexpires, hconsumed, streamIdentity]

theorem deriveState_stream (hlater : 0 < expiresAt)
    (htoken : extractToken transcript config.tokenPrefix = some taken) :
    (deriveState lib (streamIdentity id expiresAt) transcript config 0 false).1 = .ready := by
  simp [deriveState, streamIdentity, htoken, hlater.ne']

/-- The engine gives its own answers. -/
def streaming (lib : Libraries) (id : Uuid) (expiresAt : Nat) (transcript : TtyTranscript) :
    Contract runnerSig (Option TtyTranscript) :=
  { reading with answers := fun _ o x => x = streamAnswer lib id expiresAt transcript o }

theorem track_streaming (read : Option TtyTranscript) (tr : List (Exchange runnerSig)) :
    (streaming lib id expiresAt transcript).track read tr = reading.track read tr := by
  induction tr generalizing read with
  | nil => rfl
  | cons exchange tr ih => exact ih _

theorem wp_streaming (lib : Libraries) (config : RunnerConfig)
    (hid : lib.parseUuid (lib.formatUuid id) = some id)
    (hexpires : lib.parseRfc3339 (lib.formatRfc3339 expiresAt) = some expiresAt) (hlater : 0 < expiresAt)
    (htoken : extractToken transcript config.tokenPrefix = some taken) (read : Option TtyTranscript) :
    wp (streaming lib id expiresAt transcript) (takeToken lib config id) read
      (fun read token => token = taken ∧ read = some transcript) fun _ _ => False := by
  refine ⟨trivial, fun _ _ => ?_⟩
  show wp _ ((takeTokenGated lib config id).attempt >>= _) _ _ _
  rw [wp_bind, wp_attempt]
  suffices wp (streaming lib id expiresAt transcript) (takeTokenGated lib config id) read
      (fun read token => token = taken ∧ read = some transcript) fun _ _ => False from
    wp_mono this (fun _ _ h => ⟨trivial, fun _ _ => h⟩) fun _ _ h => h.elim
  have hfind : wp (streaming lib id expiresAt transcript) (find lib id) read
      (fun _ identity => identity = streamIdentity id expiresAt) fun _ _ => False := by
    unfold find
    rw [wp_bind]
    refine ⟨trivial, fun records hrecords => ?_⟩
    obtain rfl := hrecords
    have hlist : [(⟨0, "moira-runner", runnerLabels lib id expiresAt, true⟩ : ContainerRecord)].filterMap
        (RunnerIdentity.fromRecord lib) = [streamIdentity id expiresAt] := by
      rw [List.filterMap_cons, fromRecord_stream hid hexpires]
      rfl
    have hfound : [streamIdentity id expiresAt].find? (fun identity => identity.id = id) =
        some (streamIdentity id expiresAt) := List.find?_cons_of_pos (decide_eq_true rfl)
    dsimp only [Prog.bind]
    rw [show engine (streamAnswer lib id expiresAt transcript .listRunners) = .ret _ from rfl, Prog.ret_bind,
      Prog.pure_def, wp_ret]
    rw [hlist, hfound]
    rfl
  have hview : ∀ read, wp (streaming lib id expiresAt transcript)
      (viewOf lib config (streamIdentity id expiresAt)) read (fun _ view => view.state = .ready)
      fun _ _ => False := by
    intro read
    refine ⟨trivial, fun answer hanswer => ?_⟩
    obtain rfl := hanswer
    refine ⟨trivial, fun submitted hsubmitted => ?_⟩
    obtain rfl := hsubmitted
    refine ⟨trivial, fun now hnow => ?_⟩
    obtain rfl := hnow
    exact deriveState_stream hlater htoken
  unfold takeTokenGated
  refine wp_bind_mono hfind fun read identity hidentity => ?_
  subst hidentity
  rw [if_neg (show ¬(streamIdentity id expiresAt).consumed = true from Bool.false_ne_true)]
  refine wp_bind_mono (hview read) fun read view hstate => ?_
  rw [if_neg (not_not.mpr hstate)]
  refine ⟨trivial, fun answer hanswer => ?_⟩
  obtain rfl := hanswer
  dsimp only [Prog.bind]
  rw [show engine (streamAnswer lib id expiresAt transcript (.transcript _)) = .ret transcript from rfl,
    Prog.ret_bind]
  rw [htoken]
  refine ⟨trivial, fun reply hreply => ?_⟩
  obtain rfl := hreply
  exact ⟨trivial, fun _ _ => ⟨rfl, rfl⟩⟩

theorem exists_takeToken (lib : Libraries) (config : RunnerConfig)
    (hid : lib.parseUuid (lib.formatUuid id) = some id)
    (hexpires : lib.parseRfc3339 (lib.formatRfc3339 expiresAt) = some expiresAt) (hlater : 0 < expiresAt)
    (htoken : extractToken transcript config.tokenPrefix = some taken) :
    ∃ tr, After (takeToken lib config id) tr (.ret taken) ∧ reading.track none tr = some transcript := by
  set C := streaming lib id expiresAt transcript with hC
  have hafter := after_runWith (fun read o => (streamAnswer lib id expiresAt transcript o,
    C.next read o (streamAnswer lib id expiresAt transcript o))) (takeToken lib config id) none
  have hhonest : C.Honest none ((takeToken lib config id).runOn C
      (fun _ => streamAnswer lib id expiresAt transcript) none).1 :=
    honest_runOn (takeToken lib config id) (fun _ _ => rfl) none
  have hends := wp_after hafter hhonest (wp_streaming lib config hid hexpires hlater htoken none)
  cases hresult : ((takeToken lib config id).runWith (fun read o => (streamAnswer lib id expiresAt transcript o,
      C.next read o (streamAnswer lib id expiresAt transcript o))) none).2 with
  | error err =>
    rw [hresult] at hends
    exact hends.elim
  | ok token =>
    rw [hresult] at hafter hends
    obtain ⟨rfl, hread⟩ := hends
    rw [hC, track_streaming] at hread
    exact ⟨_, hafter, hread⟩

end Stream

/-- **What is read of a stream hands out the token of the stream exactly if the cut is harmless.**
-/
theorem token_is_whole_iff {id : Uuid} {expiresAt : Nat} {P T : TtyTranscript} {token : MintedToken}
    (hid : lib.parseUuid (lib.formatUuid id) = some id)
    (hexpires : lib.parseRfc3339 (lib.formatRfc3339 expiresAt) = some expiresAt) (hlater : 0 < expiresAt)
    (hcut : P.toList <+: T.toList) (hT : extractToken T config.tokenPrefix = some token) :
    (∀ tr taken, After (takeToken lib config id) tr (.ret taken) → reading.track none tr = some P →
        taken = token) ↔
      Harmless config.tokenPrefix.toList (textLines (stripAnsi P.toList))
        (textLines (stripAnsi T.toList)) := by
  obtain ⟨v, hv, rfl⟩ := Option.map_eq_some_iff.mp hT
  rw [← rejoinWrapped_cut_iff (stripAnsi_take hcut) hv]
  constructor
  · intro h v' hv'
    have htoken : extractToken P config.tokenPrefix = some (String.ofList v') := by
      rw [extractToken, hv']
      rfl
    obtain ⟨tr, hafter, hread⟩ := exists_takeToken lib config hid hexpires hlater htoken
    exact String.ofList_injective (h tr _ hafter hread)
  · intro h tr taken hafter hread
    obtain ⟨transcript, hread', htoken⟩ := takeToken_reads hafter
    obtain rfl : transcript = P := Option.some.inj (hread'.symm.trans hread)
    obtain ⟨v', hv', rfl⟩ := Option.map_eq_some_iff.mp htoken
    rw [h v' hv']

open Sample in
/-- A token that is followed by a blank and a word is whole, wherever the word is cut. -/
theorem token_is_whole_iff_closed :
    extractToken "sk-ant-oat01 valid\r\n" settings.tokenPrefix = some "sk-ant-oat01" ∧
    ∀ tr taken, After (takeToken libraries settings 5) tr (.ret taken) →
      reading.track none tr = some "sk-ant-oat01 va" → taken = "sk-ant-oat01" := by
  have hexpires : libraries.parseRfc3339 (libraries.formatRfc3339 900) = some 900 := by decide +kernel
  have hcut : "sk-ant-oat01 va".toList <+: "sk-ant-oat01 valid\r\n".toList := by decide +kernel
  have htoken : extractToken "sk-ant-oat01 valid\r\n" settings.tokenPrefix = some "sk-ant-oat01" := by
    decide +kernel
  have hlines : valueLines settings.tokenPrefix.toList (textLines (stripAnsi "sk-ant-oat01 va".toList)) =
      some ("sk-ant-oat01 va".toList, []) := by decide +kernel
  refine ⟨htoken, (token_is_whole_iff (by decide +kernel) hexpires (by decide) hcut htoken).mpr ?_⟩
  exact .closed hlines ⟨_, List.mem_singleton_self _, by decide +kernel⟩

open Sample in
/-- A stream that is read in the middle of its token hands out the half of it. -/
theorem half_a_token_is_handed_out :
    ¬∀ (P T : TtyTranscript) (token taken : MintedToken) (tr : List (Exchange runnerSig)),
      P.toList <+: T.toList → extractToken T settings.tokenPrefix = some token →
        After (takeToken libraries settings 5) tr (.ret taken) → reading.track none tr = some P →
          taken = token := by
  intro hall
  have hhalf : extractToken "sk-ant-oat" settings.tokenPrefix = some "sk-ant-oat" := by decide +kernel
  have hexpires : libraries.parseRfc3339 (libraries.formatRfc3339 900) = some 900 := by decide +kernel
  have hid : libraries.parseUuid (libraries.formatUuid 5) = some 5 := by decide +kernel
  obtain ⟨tr, hafter, hread⟩ := exists_takeToken libraries settings hid hexpires (by decide) hhalf
  have hsame := hall "sk-ant-oat" "sk-ant-oat01\r\n" "sk-ant-oat01" _ tr (by decide +kernel)
    (by decide +kernel) hafter hread
  exact absurd hsame (by decide +kernel)

end Moira.Runner
