import Moira.Console.Sse
import Moira.Lib.Url

/-!
# Chunks do not matter
-/

namespace Moira.Console

namespace Sse

open Split (splitTwice complete unfinished)

/-! ## Line ends -/

/-- A carriage return stands directly in front of a line feed. -/
def CrOnlyBeforeLf (text : List Char) : Prop :=
  ∀ front back, text = front ++ '\r' :: back → back.head? = some '\n'

variable {x y text : List Char}

theorem CrOnlyBeforeLf.suffix (h : CrOnlyBeforeLf (x ++ y)) : CrOnlyBeforeLf y := fun front back hy =>
  h (x ++ front) back (by rw [hy, List.append_assoc])

theorem CrOnlyBeforeLf.append (hx : '\r' ∉ x) (hy : CrOnlyBeforeLf y) : CrOnlyBeforeLf (x ++ y) := by
  intro front back h
  rcases List.append_eq_append_iff.mp h with ⟨mid, rfl, hmid⟩ | ⟨mid, rfl, hmid⟩
  · exact hy mid back hmid
  · cases mid with
    | nil => exact hy [] back (by rw [List.nil_append] at hmid ⊢; exact hmid.symm)
    | cons c mid =>
      obtain ⟨rfl, -⟩ := List.cons.inj hmid
      exact absurd (List.mem_append_right front List.mem_cons_self) hx

theorem CrOnlyBeforeLf.front (h : CrOnlyBeforeLf (x ++ y))
    (hcut : y.head? ≠ some '\n' ∨ x.getLast? ≠ some '\r') : CrOnlyBeforeLf x := by
  rintro front back rfl
  have hnext := h front (back ++ y) (by rw [List.append_assoc, List.cons_append])
  cases back with
  | nil => exact absurd hnext (hcut.resolve_right (fun hlast => hlast (List.getLast?_concat ..)))
  | cons c back => exact hnext

theorem normalizeLineEnds_of_free (hx : '\r' ∉ x) (y : List Char) :
    normalizeLineEnds (x ++ y) = x ++ normalizeLineEnds y := by
  induction x with
  | nil => rfl
  | cons c x ih =>
    rw [List.mem_cons, not_or] at hx
    rw [List.cons_append, List.cons_append, ← ih hx.2]
    cases hrest : x ++ y with
    | nil => rfl
    | cons d rest => rw [normalizeLineEnds, if_neg (fun h => hx.1 h.1.symm)]

theorem normalizeLineEnds_crlf (rest : List Char) :
    normalizeLineEnds ('\r' :: '\n' :: rest) = '\n' :: normalizeLineEnds rest := by
  rw [normalizeLineEnds, if_pos ⟨rfl, rfl⟩]

/-- Line ends may be normalised in pieces that do not end between CR and LF. -/
theorem normalizeLineEnds_append (hx : CrOnlyBeforeLf x) :
    '\r' ∉ normalizeLineEnds x ∧
    normalizeLineEnds (x ++ y) = normalizeLineEnds x ++ normalizeLineEnds y := by
  fun_induction normalizeLineEnds x with
  | case1 => exact ⟨List.not_mem_nil, rfl⟩
  | case2 c =>
    have hc : c ≠ '\r' := by
      rintro rfl
      exact absurd (hx [] [] rfl) (by simp)
    have hfree : '\r' ∉ [c] := by simpa using hc.symm
    exact ⟨hfree, normalizeLineEnds_of_free hfree y⟩
  | case3 c d rest hcd ih =>
    obtain ⟨rfl, rfl⟩ := hcd
    obtain ⟨hfree, happend⟩ := ih (CrOnlyBeforeLf.suffix (x := ['\r', '\n']) hx)
    refine ⟨by simpa using hfree, ?_⟩
    rw [List.cons_append, List.cons_append, normalizeLineEnds_crlf, happend, List.cons_append]
  | case4 c d rest hcd ih =>
    obtain ⟨hfree, happend⟩ := ih (CrOnlyBeforeLf.suffix (x := [c]) hx)
    have hc : c ≠ '\r' := by
      rintro rfl
      have hd := hx [] (d :: rest) rfl
      exact hcd ⟨rfl, Option.some.inj hd⟩
    refine ⟨by simp [hfree, hc.symm], ?_⟩
    rw [List.cons_append, List.cons_append, normalizeLineEnds, if_neg hcd, ← List.cons_append, happend,
      List.cons_append]

/-! ## Frames -/

theorem splitSseFrames_eq (buffer : List Char) :
    splitSseFrames buffer =
      (complete '\n' (normalizeLineEnds buffer), unfinished '\n' (normalizeLineEnds buffer)) := rfl

theorem free_unfinished (hx : '\r' ∉ x) : '\r' ∉ unfinished '\n' x := fun hmem =>
  hx ((Split.unfinished_suffix '\n' x).subset hmem)

theorem frames_rest (h : CrOnlyBeforeLf (x ++ y)) : (splitSseFrames (splitSseFrames x).2).1 = [] := by
  simp only [splitSseFrames_eq]
  by_cases hlast : x.getLast? = some '\r'
  · obtain ⟨front, rfl⟩ := List.getLast?_eq_some_iff.mp hlast
    rw [List.append_assoc, List.singleton_append] at h
    have hfront : CrOnlyBeforeLf front := h.front (Or.inl (by simp))
    have hfree := free_unfinished (normalizeLineEnds_append (y := []) hfront).1
    have hcr : '\r' ≠ '\n' := by decide
    rw [(normalizeLineEnds_append hfront).2]
    show complete '\n' (normalizeLineEnds (unfinished '\n' (normalizeLineEnds front ++ ['\r']))) = []
    rw [Split.unfinished_concat hcr, normalizeLineEnds_of_free hfree]
    show complete '\n' (unfinished '\n' (normalizeLineEnds front) ++ ['\r']) = []
    rw [Split.complete_concat hcr, Split.complete_unfinished]
  · have hfree := free_unfinished (normalizeLineEnds_append (y := []) (h.front (Or.inr hlast))).1
    have hsame := normalizeLineEnds_of_free hfree []
    rw [List.append_nil] at hsame
    rw [hsame]
    show complete '\n' (unfinished '\n' (normalizeLineEnds x) ++ []) = []
    rw [List.append_nil, Split.complete_unfinished]

/-- What is left of one chunk and the next chunk give the frames of both. -/
theorem frames_append (h : CrOnlyBeforeLf (x ++ y)) :
    (splitSseFrames (x ++ y)).1 = (splitSseFrames x).1 ++ (splitSseFrames ((splitSseFrames x).2 ++ y)).1 ∧
      CrOnlyBeforeLf ((splitSseFrames x).2 ++ y) := by
  simp only [splitSseFrames_eq]
  by_cases hlast : x.getLast? = some '\r'
  · -- The buffer ends between CR and LF: its last character waits for the next one.
    obtain ⟨front, rfl⟩ := List.getLast?_eq_some_iff.mp hlast
    rw [List.append_assoc, List.singleton_append] at h ⊢
    obtain ⟨rest, rfl⟩ : ∃ rest, y = '\n' :: rest := List.head?_eq_some_iff.mp (h front y rfl)
    have hfront : CrOnlyBeforeLf front := h.front (Or.inl (by simp))
    have hend : normalizeLineEnds (front ++ ['\r']) = normalizeLineEnds front ++ ['\r'] :=
      (normalizeLineEnds_append hfront).2
    have hfree := free_unfinished (normalizeLineEnds_append (y := []) hfront).1
    have hcr : '\r' ≠ '\n' := by decide
    rw [(normalizeLineEnds_append hfront).2, hend, Split.complete_concat hcr, Split.unfinished_concat hcr,
      List.append_assoc, List.singleton_append, normalizeLineEnds_of_free hfree, Split.complete_append]
    exact ⟨rfl, CrOnlyBeforeLf.append hfree h.suffix⟩
  · have hx : CrOnlyBeforeLf x := h.front (Or.inr hlast)
    have hfree := free_unfinished (normalizeLineEnds_append (y := []) hx).1
    rw [(normalizeLineEnds_append hx).2, normalizeLineEnds_of_free hfree, Split.complete_append]
    exact ⟨rfl, CrOnlyBeforeLf.append hfree h.suffix⟩

/-! ## Bodies -/

/-- A body: the encoding of a text whose lines end with LF or with CRLF, cut into chunks. -/
structure Body where
  text : List Char
  crOnlyBeforeLf : CrOnlyBeforeLf text
  chunks : List (List UInt8)
  cut : chunks.flatten = WebUrl.utf8 text

variable {parseJson : List Char → Option Json}

/-- The envelopes of a text, all at once. -/
def textEnvelopes (parseJson : List Char → Option Json) (text : List Char) : List PublicSseEnvelope :=
  (splitSseFrames text).1.filterMap (frameEnvelope parseJson)

/-- **The loop yields the envelopes of what is buffered and of what is still to be decoded.** -/
theorem loop_eq (chunks : List (List UInt8)) : ∀ (n : Nat) (r : SseReader),
    (splitSseFrames r.buffer).1 = [] →
    CrOnlyBeforeLf (r.buffer ++ (r.decoder.decodeStream chunks.flatten).1) →
    SseReader.loop parseJson (fun _ => false) n r chunks =
      textEnvelopes parseJson (r.buffer ++ (r.decoder.decodeStream chunks.flatten).1) := by
  induction chunks with
  | nil =>
    intro n r hbuffer _
    have hnothing : (r.decoder.decodeStream [].flatten).1 = [] := by
      cases hseen : r.decoder.bomSeen <;> simp [Utf8.TextDecoder.decodeStream, Utf8.TextDecoder.serialize,
        Utf8.feed, hseen]
    rw [hnothing, List.append_nil, textEnvelopes, hbuffer]
    rfl
  | cons value values ih =>
    intro n r hbuffer hcr
    rw [List.flatten_cons, Utf8.TextDecoder.decodeStream_append] at hcr ⊢
    simp only [← List.append_assoc] at hcr ⊢
    obtain ⟨hframes, hrest⟩ := frames_append hcr
    rw [SseReader.loop, if_neg Bool.false_ne_true, ih (n + 1) (r.read parseJson value).2 (frames_rest hcr) hrest,
      textEnvelopes, textEnvelopes, hframes, List.filterMap_append]
    rfl

theorem decoded_suffix (text : List Char) :
    (({} : Utf8.TextDecoder).decodeStream (WebUrl.utf8 text)).1 <:+ text := by
  rw [Utf8.TextDecoder.decodeStream, WebUrl.utf8, Utf8.feed_utf8]
  cases text with
  | nil => exact List.suffix_rfl
  | cons c rest =>
    simp only [Utf8.TextDecoder.serialize, Bool.false_eq_true, if_false]
    split
    · exact List.suffix_cons c rest
    · exact List.suffix_rfl

/-- **The envelopes of a body are those of its text, decoded at once, whatever its chunks are.** -/
theorem readSseEnvelopes_eq (parseJson : List Char → Option Json) (body : Body) :
    readSseEnvelopes parseJson (fun _ => false) body.chunks =
      textEnvelopes parseJson (Utf8.TextDecoder.decode body.chunks.flatten) := by
  have hdecoded : Utf8.TextDecoder.decode body.chunks.flatten =
      (({} : Utf8.TextDecoder).decodeStream body.chunks.flatten).1 := by
    rw [body.cut]
    exact Utf8.TextDecoder.decode_utf8 body.text
  have hcr : CrOnlyBeforeLf (({} : Utf8.TextDecoder).decodeStream body.chunks.flatten).1 := by
    rw [body.cut]
    obtain ⟨front, hfront⟩ := decoded_suffix body.text
    exact CrOnlyBeforeLf.suffix (hfront ▸ body.crOnlyBeforeLf)
  rw [readSseEnvelopes, loop_eq body.chunks 0 {} rfl hcr, hdecoded]
  rfl

namespace Sample

/-- `{é}` stands for an envelope. -/
def parse (data : List Char) : Option Json :=
  if data = "{é}".toList then
    some (.obj [("type", .str "delta"), ("execution_id", .str "e"), ("response_id", .str "r"),
      ("request_id", .str "q"), ("sequence", .num 1), ("timestamp", .str "t")])
  else none

theorem crOnlyBeforeLf_crlf (h : CrOnlyBeforeLf y) : CrOnlyBeforeLf ('\r' :: '\n' :: y) := by
  rintro (_ | ⟨c, _ | ⟨d, front⟩⟩) back hback
  · obtain ⟨-, rfl⟩ := List.cons.inj hback
    rfl
  · exact absurd (List.cons.inj (List.cons.inj hback).2).1 (by decide)
  · exact h front back (List.cons.inj (List.cons.inj hback).2).2

/-- A body that is cut inside of a character, between CR and LF and inside of the terminator. -/
def cutBody : Body where
  text := "data: {é}".toList ++ ['\r', '\n', '\r', '\n']
  crOnlyBeforeLf := by
    refine CrOnlyBeforeLf.append (by decide) (crOnlyBeforeLf_crlf (crOnlyBeforeLf_crlf ?_))
    rintro (_ | ⟨c, front⟩) back hback <;> exact absurd hback (by simp)
  chunks := [[100, 97, 116, 97, 58, 32, 123, 195], [169, 125, 13], [10], [13, 10]]
  cut := by decide

end Sample

open Sse.Sample in
theorem cutBody_envelopes :
    readSseEnvelopes parse (fun _ => false) cutBody.chunks =
      [{ responseId := "r", executionId := "e", requestId := "q", sequence := 1, timestamp := "t",
         type := "delta", payload := .null }] := by
  rw [readSseEnvelopes_eq parse cutBody]
  decide +kernel

theorem loop_aborted (aborted : Nat → Bool) (chunks : List (List UInt8)) : ∀ (n : Nat) (r : SseReader),
    SseReader.loop parseJson aborted n r chunks <+: SseReader.loop parseJson (fun _ => false) n r chunks := by
  induction chunks with
  | nil => exact fun n r => List.nil_prefix
  | cons value values ih =>
    intro n r
    rw [SseReader.loop, SseReader.loop, if_neg Bool.false_ne_true]
    split
    · exact List.nil_prefix
    · rw [List.prefix_append_right_inj]
      exact ih _ _

/-- A signal only cuts the envelopes off. -/
theorem readSseEnvelopes_aborted (parseJson : List Char → Option Json) (aborted : Nat → Bool) (body : Body) :
    readSseEnvelopes parseJson aborted body.chunks <+:
      textEnvelopes parseJson (Utf8.TextDecoder.decode body.chunks.flatten) := by
  rw [← readSseEnvelopes_eq]
  exact loop_aborted aborted body.chunks 0 {}

end Sse

end Moira.Console
