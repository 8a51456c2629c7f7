import Mathlib.Data.List.Basic
import Mathlib.Tactic.Common

/-!
# A decoder of UTF-8 that reads chunks

The decoder of the WHATWG Encoding standard, with errors replaced by U+FFFD.

- `step`, `feed` — the state after a byte, and after some bytes; the state is what a chunk leaves
  behind
-/

namespace Utf8

def replacement : Char :=
  Char.ofNat 0xFFFD

/-- The bytes of an unfinished character: what they give so far, how many more it needs, and between
which bounds the next one has to be. -/
structure Decoder where
  codePoint : Nat := 0
  needed : Nat := 0
  lower : Nat := 0x80
  upper : Nat := 0xBF

def fresh : Decoder := {}

/-- A byte that no character is waiting for. -/
def start (b : Nat) : List Char × Decoder :=
  if b ≤ 0x7F then ([Char.ofNat b], fresh)
  else if 0xC2 ≤ b ∧ b ≤ 0xDF then ([], { codePoint := b % 0x20, needed := 1 })
  else if 0xE0 ≤ b ∧ b ≤ 0xEF then
    -- No overlong forms and no surrogates.
    ([], { codePoint := b % 0x10
           needed := 2
           lower := if b = 0xE0 then 0xA0 else 0x80
           upper := if b = 0xED then 0x9F else 0xBF })
  else if 0xF0 ≤ b ∧ b ≤ 0xF4 then
    ([], { codePoint := b % 8
           needed := 3
           lower := if b = 0xF0 then 0x90 else 0x80
           upper := if b = 0xF4 then 0x8F else 0xBF })
  else ([replacement], fresh)

/-- A byte out of bounds ends the unfinished character, and is then read on its own. -/
def step (s : Decoder) (byte : UInt8) : List Char × Decoder :=
  let b := byte.toNat
  if s.needed = 0 then start b
  else if b < s.lower ∨ s.upper < b then (replacement :: (start b).1, (start b).2)
  else
    let codePoint := s.codePoint * 64 + b % 64
    if s.needed = 1 then ([Char.ofNat codePoint], fresh)
    else ([], { codePoint := codePoint, needed := s.needed - 1 })

def feed : Decoder → List UInt8 → List Char × Decoder
  | s, [] => ([], s)
  | s, byte :: rest => ((step s byte).1 ++ (feed (step s byte).2 rest).1, (feed (step s byte).2 rest).2)

/-- The end of the bytes. -/
def flush (s : Decoder) : List Char :=
  if s.needed = 0 then [] else [replacement]

/-- Two chunks in a row are their concatenation. -/
theorem feed_append (s : Decoder) (a b : List UInt8) :
    feed s (a ++ b) = ((feed s a).1 ++ (feed (feed s a).2 b).1, (feed (feed s a).2 b).2) := by
  induction a generalizing s with
  | nil => simp [feed]
  | cons byte a ih => simp [feed, ih]

/-! ## Encoded characters -/

section Encoded

variable {s : Decoder} {v b : Nat}

theorem start_one (h : b ≤ 0x7F) : start b = ([Char.ofNat b], fresh) :=
  if_pos h

theorem start_two (h : 0xC2 ≤ b) (h' : b ≤ 0xDF) :
    start b = ([], { codePoint := b % 0x20, needed := 1 }) := by
  unfold start
  rw [if_neg (by omega), if_pos ⟨h, h'⟩]

theorem start_three (h : 0xE0 ≤ b) (h' : b ≤ 0xEF) :
    start b = ([], { codePoint := b % 0x10
                     needed := 2
                     lower := if b = 0xE0 then 0xA0 else 0x80
                     upper := if b = 0xED then 0x9F else 0xBF }) := by
  unfold start
  rw [if_neg (by omega), if_neg (by omega), if_pos ⟨h, h'⟩]

theorem start_four (h : 0xF0 ≤ b) (h' : b ≤ 0xF4) :
    start b = ([], { codePoint := b % 8
                     needed := 3
                     lower := if b = 0xF0 then 0x90 else 0x80
                     upper := if b = 0xF4 then 0x8F else 0xBF }) := by
  unfold start
  rw [if_neg (by omega), if_neg (by omega), if_neg (by omega), if_pos ⟨h, h'⟩]

theorem toNat_ofNat_byte (h : b < 256) : (UInt8.ofNat b).toNat = b := by
  rw [UInt8.toNat_ofNat', Nat.mod_eq_of_lt h]

theorem step_fresh (h : b < 256) : step fresh (UInt8.ofNat b) = start b := by
  unfold step
  rw [toNat_ofNat_byte h]
  rfl

theorem step_more (hneeded : 1 < s.needed) (hlower : s.lower ≤ b) (hupper : b ≤ s.upper) (h : b < 256) :
    step s (UInt8.ofNat b) = ([], { codePoint := s.codePoint * 64 + b % 64, needed := s.needed - 1 }) := by
  unfold step
  rw [toNat_ofNat_byte h]
  simp only
  rw [if_neg (by omega), if_neg (by omega), if_neg (by omega)]

theorem step_last (hneeded : s.needed = 1) (hlower : s.lower ≤ b) (hupper : b ≤ s.upper) (h : b < 256) :
    step s (UInt8.ofNat b) = ([Char.ofNat (s.codePoint * 64 + b % 64)], fresh) := by
  unfold step
  rw [toNat_ofNat_byte h]
  simp only
  rw [if_neg (by omega), if_neg (by omega), if_pos hneeded]

theorem feed_cons (s : Decoder) (byte : UInt8) (rest : List UInt8) {text : List Char} {s' : Decoder}
    (h : step s byte = (text, s')) :
    feed s (byte :: rest) = (text ++ (feed s' rest).1, (feed s' rest).2) := by
  rw [feed, h]

theorem feed_utf8EncodeChar (c : Char) : feed fresh (String.utf8EncodeChar c) = ([c], fresh) := by
  have hvalid : c.val.toNat < 0xD800 ∨ (0xDFFF < c.val.toNat ∧ c.val.toNat < 0x110000) := c.valid
  have hc : Char.ofNat c.val.toNat = c := Char.ofNat_toNat c
  unfold String.utf8EncodeChar
  simp only
  generalize c.val.toNat = v at hvalid hc ⊢
  split
  · rw [feed_cons _ _ _ ((step_fresh (by omega)).trans (start_one (by omega))), hc]
    rfl
  · split
    · rw [feed_cons _ _ _ ((step_fresh (by omega)).trans (start_two (by omega) (by omega))),
        feed_cons _ _ _ (step_last rfl (show 0x80 ≤ _ by omega) (show _ ≤ 0xBF by omega) (by omega))]
      simp only [feed]
      rw [show (v / 64 % 32 + 192) % 32 * 64 + (v % 64 + 128) % 64 = v by omega, hc]
      rfl
    · split
      · rw [feed_cons _ _ _ ((step_fresh (by omega)).trans (start_three (by omega) (by omega))),
          feed_cons _ _ _ (step_more (show 1 < 2 by omega) (by simp only; split <;> omega)
            (by simp only; split <;> omega) (by omega)),
          feed_cons _ _ _ (step_last rfl (show 0x80 ≤ _ by omega) (show _ ≤ 0xBF by omega) (by omega))]
        simp only [feed]
        rw [show ((v / 4096 % 16 + 224) % 16 * 64 + (v / 64 % 64 + 128) % 64) * 64 + (v % 64 + 128) % 64 = v by
          omega, hc]
        rfl
      · rw [feed_cons _ _ _ ((step_fresh (by omega)).trans (start_four (by omega) (by omega))),
          feed_cons _ _ _ (step_more (show 1 < 3 by omega) (by simp only; split <;> omega)
            (by simp only; split <;> omega) (by omega)),
          feed_cons _ _ _ (step_more (show 1 < 2 by omega) (show 0x80 ≤ _ by omega) (show _ ≤ 0xBF by omega)
            (by omega)),
          feed_cons _ _ _ (step_last rfl (show 0x80 ≤ _ by omega) (show _ ≤ 0xBF by omega) (by omega))]
        simp only [feed]
        rw [show (((v / 262144 % 8 + 240) % 8 * 64 + (v / 4096 % 64 + 128) % 64) * 64 + (v / 64 % 64 + 128) % 64) *
            64 + (v % 64 + 128) % 64 = v by omega, hc]
        rfl

end Encoded

/-- **The bytes that encode a text give the text**, and no character is unfinished. -/
theorem feed_utf8 (text : List Char) : feed fresh (text.flatMap String.utf8EncodeChar) = (text, fresh) := by
  induction text with
  | nil => rfl
  | cons c text ih => rw [List.flatMap_cons, feed_append, feed_utf8EncodeChar, ih, List.singleton_append]

/-! ## The byte order mark -/

def byteOrderMark : Char :=
  Char.ofNat 0xFEFF

/-- A decoder that leaves out the byte order mark in front. -/
structure TextDecoder where
  decoder : Decoder := fresh
  bomSeen : Bool := false

namespace TextDecoder

/-- What is left of some decoded characters, and whether the first one has been seen. -/
def serialize (bomSeen : Bool) (text : List Char) : List Char × Bool :=
  if bomSeen then (text, true)
  else
    match text with
    | [] => ([], false)
    | c :: rest => (if c = byteOrderMark then rest else c :: rest, true)

/-- `decode(chunk, { stream: true })` -/
def decodeStream (d : TextDecoder) (chunk : List UInt8) : List Char × TextDecoder :=
  ((serialize d.bomSeen (feed d.decoder chunk).1).1,
    { decoder := (feed d.decoder chunk).2
      bomSeen := (serialize d.bomSeen (feed d.decoder chunk).1).2 })

/-- `decode(bytes)` on a new decoder -/
def decode (bytes : List UInt8) : List Char :=
  (serialize false ((feed fresh bytes).1 ++ flush (feed fresh bytes).2)).1

theorem serialize_append (bomSeen : Bool) (a b : List Char) :
    serialize bomSeen (a ++ b) =
      ((serialize bomSeen a).1 ++ (serialize (serialize bomSeen a).2 b).1,
        (serialize (serialize bomSeen a).2 b).2) := by
  cases bomSeen with
  | true => rfl
  | false =>
    cases a with
    | nil => rfl
    | cons c a =>
      by_cases hc : c = byteOrderMark
      · simp [serialize, hc]
      · simp [serialize, hc]

theorem decodeStream_append (d : TextDecoder) (a b : List UInt8) :
    decodeStream d (a ++ b) =
      ((decodeStream d a).1 ++ (decodeStream (decodeStream d a).2 b).1, (decodeStream (decodeStream d a).2 b).2) := by
  simp only [decodeStream, feed_append, serialize_append]

theorem decode_utf8 (text : List Char) :
    decode (text.flatMap String.utf8EncodeChar) = (decodeStream {} (text.flatMap String.utf8EncodeChar)).1 := by
  rw [decode, decodeStream, feed_utf8]
  simp [flush, fresh]

end TextDecoder

end Utf8
