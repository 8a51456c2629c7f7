import Mathlib.Algebra.GroupWithZero.Nat
import Mathlib.Data.List.Induction
import Mathlib.Tactic.Common

/-!
# Byte strings

Slices of fixed width, big-endian numbers and the hexadecimal text of bytes.
-/

abbrev Bytes := List UInt8

/-- A byte string of a fixed width, such as `[u8; 16]`. -/
structure FixedBytes (n : Nat) where
  bytes : Bytes
  length_bytes : bytes.length = n
  deriving DecidableEq

variable {n : Nat}

namespace FixedBytes

theorem ext {a b : FixedBytes n} (h : a.bytes = b.bytes) : a = b := by
  cases a
  cases b
  simpa using h

end FixedBytes

namespace Bytes

/-! ## Slices -/

def slice (bs : Bytes) (offset width : Nat) : Bytes :=
  (bs.drop offset).take width

def byteAt (bs : Bytes) (offset : Nat) : UInt8 :=
  bs.getD offset 0

variable {bs : Bytes} {offset width : Nat}

theorem length_slice (h : offset + width ≤ bs.length) : (slice bs offset width).length = width := by
  simp only [slice, List.length_take, List.length_drop]
  omega

/-- A byte string cut at two offsets, put together again. -/
theorem take_eq_slices (bs : Bytes) (offset width : Nat) :
    bs.take (offset + width) = bs.take offset ++ slice bs offset width :=
  List.take_add

theorem slice_one (h : offset < bs.length) : slice bs offset 1 = [byteAt bs offset] := by
  rw [slice, List.drop_eq_getElem_cons h, byteAt, List.getD_eq_getElem?_getD,
    List.getElem?_eq_getElem h]
  rfl

theorem slice_append_right {xs ys zs : Bytes} (hoffset : xs.length = offset)
    (hwidth : ys.length = width) : slice (xs ++ (ys ++ zs)) offset width = ys := by
  subst hoffset hwidth
  simp [slice]

/-! ## Big-endian numbers -/

/-- The lowest `width` bytes of a number, the most significant first. -/
def be : Nat → Nat → Bytes
  | 0, _ => []
  | width + 1, n => be width (n / 256) ++ [UInt8.ofNat n]

def ofBe (bs : Bytes) : Nat :=
  bs.foldl (fun n b => n * 256 + b.toNat) 0

@[simp] theorem length_be (width n : Nat) : (be width n).length = width := by
  induction width generalizing n with
  | zero => rfl
  | succ width ih => simp [be, ih]

theorem ofBe_snoc (bs : Bytes) (b : UInt8) : ofBe (bs ++ [b]) = ofBe bs * 256 + b.toNat := by
  simp [ofBe]

/-- A big-endian number is read back. -/
theorem ofBe_be (h : n < 256 ^ width) : ofBe (be width n) = n := by
  induction width generalizing n with
  | zero =>
    have hn : n = 0 := by simpa using h
    simp [be, ofBe, hn]
  | succ width ih =>
    have hdiv : n / 256 < 256 ^ width := by
      rw [Nat.div_lt_iff_lt_mul (by omega), ← Nat.pow_succ]
      exact h
    rw [be, ofBe_snoc, ih hdiv, UInt8.toNat_ofNat']
    omega

/-- The bytes of a big-endian number are read back. -/
theorem be_ofBe (h : bs.length = width) : be width (ofBe bs) = bs := by
  induction width generalizing bs with
  | zero =>
    have hnil : bs = [] := List.length_eq_zero_iff.mp h
    simp [be, hnil]
  | succ width ih =>
    -- the last byte is the lowest one
    obtain ⟨init, last, rfl⟩ : ∃ init last, bs = init ++ [last] := by
      have hne : bs ≠ [] := by
        rintro rfl
        simp at h
      exact ⟨bs.dropLast, bs.getLast hne, (List.dropLast_concat_getLast hne).symm⟩
    have hinit : init.length = width := by simpa using h
    have hlast : last.toNat < 256 := last.toNat_lt
    rw [ofBe_snoc, be]
    have hdiv : (ofBe init * 256 + last.toNat) / 256 = ofBe init := by omega
    rw [hdiv, ih hinit]
    congr 2
    apply UInt8.toNat.inj
    rw [UInt8.toNat_ofNat']
    omega

theorem ofBe_lt (bs : Bytes) : ofBe bs < 256 ^ bs.length := by
  induction bs using List.reverseRecOn with
  | nil => simp [ofBe]
  | append_singleton bs b ih =>
    have hb : b.toNat < 256 := b.toNat_lt
    rw [ofBe_snoc, List.length_append, List.length_singleton, Nat.pow_succ]
    omega

/-! ## Text -/

/-- A hexadecimal digit in lower case. -/
def hexDigit (n : Nat) : Char :=
  Char.ofNat (if n < 10 then 0x30 + n else 0x57 + n)

theorem hexDigit_inj {m : Nat} (hm : m < 16) (hn : n < 16) (h : hexDigit m = hexDigit n) :
    m = n := by
  have hall : ∀ m < 16, ∀ n < 16, hexDigit m = hexDigit n → m = n := by decide
  exact hall m hm n hn h

def hexText : Bytes → List Char
  | [] => []
  | b :: bs => hexDigit (b.toNat / 16) :: hexDigit (b.toNat % 16) :: hexText bs

theorem length_hexText (bs : Bytes) : (hexText bs).length = 2 * bs.length := by
  induction bs with
  | nil => rfl
  | cons b bs ih => simp [hexText, ih]; omega

/-- Bytes are determined by their text. -/
theorem hexText_injective : Function.Injective hexText := by
  intro as bs h
  induction as generalizing bs with
  | nil =>
    cases bs with
    | nil => rfl
    | cons b bs => cases h
  | cons a as ih =>
    cases bs with
    | nil => cases h
    | cons b bs =>
      simp only [hexText, List.cons.injEq] at h
      obtain ⟨hhigh, hlow, hrest⟩ := h
      have ha : a.toNat < 256 := a.toNat_lt
      have hb : b.toNat < 256 := b.toNat_lt
      have hdiv := hexDigit_inj (by omega) (by omega) hhigh
      have hmod := hexDigit_inj (by omega) (by omega) hlow
      have hab : a = b := by
        apply UInt8.toNat.inj
        omega
      rw [hab, ih hrest]

/-- The text of the UUID with these bytes. -/
def uuidText (bs : Bytes) : List Char :=
  hexText (bs.take 4) ++ '-' :: hexText (slice bs 4 2) ++ '-' :: hexText (slice bs 6 2) ++
    '-' :: hexText (slice bs 8 2) ++ '-' :: hexText (bs.drop 10)

theorem length_uuidText (h : bs.length = 16) : (uuidText bs).length = 36 := by
  have h₁ : (slice bs 4 2).length = 2 := length_slice (by omega)
  have h₂ : (slice bs 6 2).length = 2 := length_slice (by omega)
  have h₃ : (slice bs 8 2).length = 2 := length_slice (by omega)
  simp only [uuidText, List.length_append, List.length_cons, length_hexText, List.length_take,
    List.length_drop, h, h₁, h₂, h₃]
  omega

theorem uuidText_inj {as : Bytes} (ha : as.length = 16) (hb : bs.length = 16)
    (h : uuidText as = uuidText bs) : as = bs := by
  have hlen {xs ys : Bytes} (hxy : xs.length = ys.length) :
      (hexText xs).length = (hexText ys).length := by
    rw [length_hexText, length_hexText, hxy]
  have hslice (offset : Nat) (ho : offset + 2 ≤ 16) :
      (slice as offset 2).length = (slice bs offset 2).length := by
    rw [length_slice (by omega), length_slice (by omega)]
  unfold uuidText at h
  simp only [List.append_assoc, List.cons_append] at h
  -- the five groups have the same widths on both sides
  obtain ⟨hgroup₁, h⟩ := List.append_inj h (hlen (by simp [ha, hb]))
  obtain ⟨hgroup₂, h⟩ := List.append_inj (List.cons.inj h).2 (hlen (hslice 4 (by omega)))
  obtain ⟨hgroup₃, h⟩ := List.append_inj (List.cons.inj h).2 (hlen (hslice 6 (by omega)))
  obtain ⟨hgroup₄, h⟩ := List.append_inj (List.cons.inj h).2 (hlen (hslice 8 (by omega)))
  have hgroup₅ := hexText_injective (List.cons.inj h).2
  have hcut (xs : Bytes) :
      xs = xs.take 4 ++ slice xs 4 2 ++ slice xs 6 2 ++ slice xs 8 2 ++ xs.drop 10 := by
    rw [← take_eq_slices, ← take_eq_slices, ← take_eq_slices, List.take_append_drop]
  rw [hcut as, hcut bs, hexText_injective hgroup₁, hexText_injective hgroup₂,
    hexText_injective hgroup₃, hexText_injective hgroup₄, hgroup₅]

end Bytes
