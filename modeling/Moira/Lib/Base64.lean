import Moira.Lib.Bytes

/-!
# Base64 without padding

Three bytes are four digits; a rest of two bytes is three digits and a rest of one byte is two,
whose unused bits are zero. A decoder that insists on this is the exact inverse of the encoder.
-/

namespace Base64

/-- Sixty-four digits, and how a character is read as one. -/
structure Alphabet where
  digit : Nat → Char
  value : Char → Option Nat
  value_digit : ∀ n < 64, value (digit n) = some n
  digit_value : ∀ c n, value c = some n → n < 64 ∧ digit n = c

variable (alphabet : Alphabet)

def encode : Bytes → List Char
  | a :: b :: c :: rest =>
    let n := a.toNat * 65536 + b.toNat * 256 + c.toNat
    alphabet.digit (n / 262144) :: alphabet.digit (n / 4096 % 64) :: alphabet.digit (n / 64 % 64) ::
      alphabet.digit (n % 64) :: encode rest
  | [a, b] =>
    let n := (a.toNat * 256 + b.toNat) * 4
    [alphabet.digit (n / 4096), alphabet.digit (n / 64 % 64), alphabet.digit (n % 64)]
  | [a] =>
    let n := a.toNat * 16
    [alphabet.digit (n / 64), alphabet.digit (n % 64)]
  | [] => []

/-- Rejects what is not in the alphabet, a single digit left over and bits that stand for nothing.
-/
def decode : List Char → Option Bytes
  | p :: q :: r :: s :: rest => do
    let p ← alphabet.value p
    let q ← alphabet.value q
    let r ← alphabet.value r
    let s ← alphabet.value s
    let n := p * 262144 + q * 4096 + r * 64 + s
    let bytes ← decode rest
    return UInt8.ofNat (n / 65536) :: UInt8.ofNat (n / 256 % 256) :: UInt8.ofNat (n % 256) :: bytes
  | [p, q, r] => do
    let p ← alphabet.value p
    let q ← alphabet.value q
    let r ← alphabet.value r
    let n := p * 4096 + q * 64 + r
    if n % 4 = 0 then return [UInt8.ofNat (n / 1024), UInt8.ofNat (n / 4 % 256)] else none
  | [p, q] => do
    let p ← alphabet.value p
    let q ← alphabet.value q
    let n := p * 64 + q
    if n % 16 = 0 then return [UInt8.ofNat (n / 16)] else none
  | [_] => none
  | [] => some []

variable {n : Nat}

theorem ofNat_toNat_eq {b : UInt8} (h : n = b.toNat) : UInt8.ofNat n = b := by
  rw [h]
  exact UInt8.ofNat_toNat

theorem toNat_ofNat_of_lt (h : n < 256) : (UInt8.ofNat n).toNat = n := by
  rw [UInt8.toNat_ofNat']
  omega

/-- **What is encoded is read back.** -/
theorem decode_encode (bytes : Bytes) : decode alphabet (encode alphabet bytes) = some bytes := by
  induction bytes using encode.induct with
  | case1 a b c rest ih =>
    have ha := a.toNat_lt
    have hb := b.toNat_lt
    have hc := c.toNat_lt
    rw [encode, decode, alphabet.value_digit _ (by omega), alphabet.value_digit _ (by omega),
      alphabet.value_digit _ (by omega), alphabet.value_digit _ (by omega), ih]
    simp only [Option.bind_eq_bind, Option.bind_some, Option.pure_def]
    rw [ofNat_toNat_eq (b := a) (by omega), ofNat_toNat_eq (b := b) (by omega),
      ofNat_toNat_eq (b := c) (by omega)]
  | case2 a b =>
    have ha := a.toNat_lt
    have hb := b.toNat_lt
    rw [encode, decode, alphabet.value_digit _ (by omega), alphabet.value_digit _ (by omega),
      alphabet.value_digit _ (by omega)]
    simp only [Option.bind_eq_bind, Option.bind_some, Option.pure_def]
    rw [if_pos (by omega), ofNat_toNat_eq (b := a) (by omega), ofNat_toNat_eq (b := b) (by omega)]
  | case3 a =>
    have ha := a.toNat_lt
    rw [encode, decode, alphabet.value_digit _ (by omega), alphabet.value_digit _ (by omega)]
    simp only [Option.bind_eq_bind, Option.bind_some, Option.pure_def]
    rw [if_pos (by omega), ofNat_toNat_eq (b := a) (by omega)]
  | case4 => rfl

variable {c : Char}

theorem digit_eq {v : Nat} (h : alphabet.value c = some v) (hn : n = v) : alphabet.digit n = c :=
  hn ▸ (alphabet.digit_value c v h).2

/-- **What is read is the encoding of what it reads as.** -/
theorem encode_decode {text : List Char} {bytes : Bytes} (h : decode alphabet text = some bytes) :
    encode alphabet bytes = text := by
  induction text using decode.induct generalizing bytes with
  | case1 p q r s rest ih =>
    simp only [decode, Option.bind_eq_bind, Option.bind_eq_some_iff, Option.pure_def,
      Option.some.injEq] at h
    obtain ⟨vp, hp, vq, hq, vr, hr, vs, hs, more, hmore, rfl⟩ := h
    have := (alphabet.digit_value p vp hp).1
    have := (alphabet.digit_value q vq hq).1
    have := (alphabet.digit_value r vr hr).1
    have := (alphabet.digit_value s vs hs).1
    rw [encode, ih hmore, toNat_ofNat_of_lt (by omega), toNat_ofNat_of_lt (by omega),
      toNat_ofNat_of_lt (by omega), digit_eq alphabet hp (by omega), digit_eq alphabet hq (by omega),
      digit_eq alphabet hr (by omega), digit_eq alphabet hs (by omega)]
  | case2 p q r =>
    simp only [decode, Option.bind_eq_bind, Option.bind_eq_some_iff, Option.pure_def] at h
    obtain ⟨vp, hp, vq, hq, vr, hr, h⟩ := h
    have := (alphabet.digit_value p vp hp).1
    have := (alphabet.digit_value q vq hq).1
    have := (alphabet.digit_value r vr hr).1
    split at h
    · cases h
      rw [encode, toNat_ofNat_of_lt (by omega), toNat_ofNat_of_lt (by omega),
        digit_eq alphabet hp (by omega), digit_eq alphabet hq (by omega),
        digit_eq alphabet hr (by omega)]
    · cases h
  | case3 p q =>
    simp only [decode, Option.bind_eq_bind, Option.bind_eq_some_iff, Option.pure_def] at h
    obtain ⟨vp, hp, vq, hq, h⟩ := h
    have := (alphabet.digit_value p vp hp).1
    have := (alphabet.digit_value q vq hq).1
    split at h
    · cases h
      rw [encode, toNat_ofNat_of_lt (by omega), digit_eq alphabet hp (by omega),
        digit_eq alphabet hq (by omega)]
    · cases h
  | case4 p => cases h
  | case5 => cases h; rfl

theorem value_isSome_of_mem_encode {bytes : Bytes} (h : c ∈ encode alphabet bytes) :
    (alphabet.value c).isSome := by
  have hdigit : ∀ n < 64, (alphabet.value (alphabet.digit n)).isSome := fun n hn => by
    rw [alphabet.value_digit n hn]
    rfl
  induction bytes using encode.induct with
  | case1 a b d rest ih =>
    have ha := a.toNat_lt
    have hb := b.toNat_lt
    have hd := d.toNat_lt
    simp only [encode, List.mem_cons] at h
    rcases h with rfl | rfl | rfl | rfl | h
    · exact hdigit _ (by omega)
    · exact hdigit _ (by omega)
    · exact hdigit _ (by omega)
    · exact hdigit _ (by omega)
    · exact ih h
  | case2 a b =>
    have ha := a.toNat_lt
    have hb := b.toNat_lt
    simp only [encode, List.mem_cons, List.not_mem_nil, or_false] at h
    rcases h with rfl | rfl | rfl
    · exact hdigit _ (by omega)
    · exact hdigit _ (by omega)
    · exact hdigit _ (by omega)
  | case3 a =>
    have ha := a.toNat_lt
    simp only [encode, List.mem_cons, List.not_mem_nil, or_false] at h
    rcases h with rfl | rfl
    · exact hdigit _ (by omega)
    · exact hdigit _ (by omega)
  | case4 => cases h

theorem length_encode (bytes : Bytes) :
    (encode alphabet bytes).length = (bytes.length * 4 + 2) / 3 := by
  induction bytes using encode.induct with
  | case1 a b c rest ih =>
    simp only [encode, List.length_cons, ih]
    omega
  | case2 a b => simp [encode]
  | case3 a => simp [encode]
  | case4 => rfl

/-! ## The URL-safe alphabet -/

def urlSafeDigit (n : Nat) : Char :=
  if n < 26 then Char.ofNat (0x41 + n)
  else if n < 52 then Char.ofNat (0x61 + (n - 26))
  else if n < 62 then Char.ofNat (0x30 + (n - 52))
  else if n = 62 then '-'
  else '_'

def urlSafeValue (c : Char) : Option Nat :=
  if 'A' ≤ c ∧ c ≤ 'Z' then some (c.toNat - 0x41)
  else if 'a' ≤ c ∧ c ≤ 'z' then some (c.toNat - 0x61 + 26)
  else if '0' ≤ c ∧ c ≤ '9' then some (c.toNat - 0x30 + 52)
  else if c = '-' then some 62
  else if c = '_' then some 63
  else none

theorem urlSafeValue_lt_128 (h : urlSafeValue c = some n) : c.toNat < 128 := by
  unfold urlSafeValue at h
  split_ifs at h with h1 h2 h3 h4 h5
  · exact Nat.lt_of_le_of_lt (UInt32.le_iff_toNat_le.mp h1.2) (by decide)
  · exact Nat.lt_of_le_of_lt (UInt32.le_iff_toNat_le.mp h2.2) (by decide)
  · exact Nat.lt_of_le_of_lt (UInt32.le_iff_toNat_le.mp h3.2) (by decide)
  · rw [h4]; decide
  · rw [h5]; decide

def urlSafe : Alphabet where
  digit := urlSafeDigit
  value := urlSafeValue
  value_digit := by decide
  digit_value := by
    intro c n h
    -- a digit is one of the first 128 characters
    have hall : ∀ k < 128, ∀ m, urlSafeValue (Char.ofNat k) = some m →
        m < 64 ∧ urlSafeDigit m = Char.ofNat k := by
      intro k hk m hm
      have hone : ∀ k < 128, (urlSafeValue (Char.ofNat k)).all fun m =>
          decide (m < 64 ∧ urlSafeDigit m = Char.ofNat k) := by decide
      have hk := hone k hk
      rw [hm] at hk
      simpa using hk
    have hc := hall c.toNat (urlSafeValue_lt_128 h) n (by rw [Char.ofNat_toNat]; exact h)
    rw [Char.ofNat_toNat] at hc
    exact hc

end Base64
