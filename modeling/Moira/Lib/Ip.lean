import Mathlib.Algebra.GroupWithZero.Nat
import Mathlib.Data.Fintype.Basic
import Mathlib.Data.List.SplitBy
import Mathlib.Tactic.Common

/-!
# IP addresses

Addresses as octets, with the predicates of `std::net`.

What `std::net` reads as an address, and the dotted text of an IPv4 one.

- `Ipv4Addr`, `Ipv6Addr`, `IpAddr`
- `readIpv4`, `readIpv6`, `readIp` — `from_str`
-/

namespace Net

scoped instance neZeroEight : NeZero 8 := ⟨by decide⟩

scoped instance neZeroSixteen : NeZero 16 := ⟨by decide⟩

structure Ipv4Addr where
  a : UInt8
  b : UInt8
  c : UInt8
  d : UInt8
  deriving DecidableEq

namespace Ipv4Addr

variable (ip : Ipv4Addr)

def octets : List UInt8 := [ip.a, ip.b, ip.c, ip.d]

def isUnspecified : Bool := ip.octets = [0, 0, 0, 0]

def isLoopback : Bool := ip.a = 127

def isPrivate : Bool :=
  ip.a = 10 || (ip.a = 172 && 16 ≤ ip.b && ip.b ≤ 31) || (ip.a = 192 && ip.b = 168)

def isLinkLocal : Bool := ip.a = 169 && ip.b = 254

def isMulticast : Bool := 224 ≤ ip.a && ip.a ≤ 239

def isBroadcast : Bool := ip.octets = [255, 255, 255, 255]

end Ipv4Addr

structure Ipv6Addr where
  octet : Fin 16 → UInt8
  deriving DecidableEq

namespace Ipv6Addr

/-- The octets of a list, and zeros where it is too short. -/
def ofOctets (octets : List UInt8) : Ipv6Addr where
  octet i := octets.getD i 0

variable (ip : Ipv6Addr)

theorem even_lt (i : Fin 8) : 2 * i.val < 16 := by
  omega

theorem odd_lt (i : Fin 8) : 2 * i.val + 1 < 16 := by
  omega

/-- A group of two octets. -/
def segment (i : Fin 8) : Nat :=
  (ip.octet ⟨2 * i, even_lt i⟩).toNat * 256 + (ip.octet ⟨2 * i + 1, odd_lt i⟩).toNat

def segments : List Nat := List.ofFn ip.segment

/-- The IPv4 address in the last four octets. -/
def lastIpv4 : Ipv4Addr := ⟨ip.octet 12, ip.octet 13, ip.octet 14, ip.octet 15⟩

def isUnspecified : Bool := ip = ofOctets []

def isLoopback : Bool := ip = ofOctets [0, 0, 0, 0, 0, 0, 0, 0, 0, 0, 0, 0, 0, 0, 0, 1]

def isMulticast : Bool := ip.octet 0 = 0xff

/-- `fc00::/7` -/
def isUniqueLocal : Bool := ip.segment 0 &&& 0xfe00 = 0xfc00

/-- `::ffff:a.b.c.d` -/
def toIpv4Mapped : Option Ipv4Addr :=
  if ip.segments.take 6 = [0, 0, 0, 0, 0, 0xffff] then some ip.lastIpv4 else none

/-- `::ffff:a.b.c.d` and `::a.b.c.d` -/
def toIpv4 : Option Ipv4Addr :=
  if ip.segments.take 5 = [0, 0, 0, 0, 0] ∧ (ip.segment 5 = 0 ∨ ip.segment 5 = 0xffff) then some ip.lastIpv4
  else none

/-- `::ffff:a.b.c.d` -/
def mapped (v4 : Ipv4Addr) : Ipv6Addr :=
  ofOctets ([0, 0, 0, 0, 0, 0, 0, 0, 0, 0, 0xff, 0xff] ++ v4.octets)

/-- `::a.b.c.d` -/
def compatible (v4 : Ipv4Addr) : Ipv6Addr :=
  ofOctets ([0, 0, 0, 0, 0, 0, 0, 0, 0, 0, 0, 0] ++ v4.octets)

/-- `::ffff:0:a.b.c.d` -/
def translated (v4 : Ipv4Addr) : Ipv6Addr :=
  ofOctets ([0, 0, 0, 0, 0, 0, 0, 0, 0xff, 0xff, 0, 0] ++ v4.octets)

/-- `2002:a.b.c.d::/48` -/
def sixToFour (v4 : Ipv4Addr) (rest : List UInt8) : Ipv6Addr :=
  ofOctets ([0x20, 0x02] ++ v4.octets ++ rest)

/-- RFC 6052: the octets behind the prefix, around a zero octet at position 8, and zeros. -/
def embed (netPrefix : List UInt8) (v4 : Ipv4Addr) : Ipv6Addr :=
  let octets := netPrefix ++ v4.octets
  ofOctets (if netPrefix.length ≤ 8 then octets.take 8 ++ 0 :: octets.drop 8 else octets)

end Ipv6Addr

inductive IpAddr
  | v4 (ip : Ipv4Addr)
  | v6 (ip : Ipv6Addr)
  deriving DecidableEq

/-! ## IPv4 -/

/-- An octet in decimal. -/
def decimal (octet : UInt8) : List Char :=
  Nat.toDigits 10 octet.toNat

def digitsValue (base : Nat) (digit : Char → Option Nat) (text : List Char) : Option Nat :=
  text.foldl (fun value c => value.bind fun n => (digit c).map fun d => n * base + d) (some 0)

def decimalDigit (c : Char) : Option Nat :=
  if '0' ≤ c ∧ c ≤ '9' then some (c.toNat - 0x30) else none

def hexDigit (c : Char) : Option Nat :=
  if '0' ≤ c ∧ c ≤ '9' then some (c.toNat - 0x30)
  else if 'a' ≤ c ∧ c ≤ 'f' then some (c.toNat - 0x57)
  else if 'A' ≤ c ∧ c ≤ 'F' then some (c.toNat - 0x37)
  else none

/-- One to three digits without a zero in front. -/
def readOctet (text : List Char) : Option UInt8 :=
  if text.isEmpty || 3 < text.length || (text.head? = some '0' && 1 < text.length) then none
  else (digitsValue 10 decimalDigit text).bind fun n => if n < 256 then some (UInt8.ofNat n) else none

def readIpv4 (text : List Char) : Option Ipv4Addr :=
  match text.splitOn '.' with
  | [a, b, c, d] => do
    let a ← readOctet a
    let b ← readOctet b
    let c ← readOctet c
    let d ← readOctet d
    return ⟨a, b, c, d⟩
  | _ => none

/-- `Display` -/
def Ipv4Addr.toText (ip : Ipv4Addr) : List Char :=
  ['.'].intercalate (ip.octets.map decimal)

/-! ## IPv6 -/

/-- One to four hexadecimal digits, as two octets. -/
def readGroup (text : List Char) : Option (List UInt8) :=
  if text.isEmpty || 4 < text.length then none
  else (digitsValue 16 hexDigit text).map fun n => [UInt8.ofNat (n / 256), UInt8.ofNat (n % 256)]

/-- The octets of some groups; the last one may be a dotted address. -/
def readGroups (dotted : Bool) : List (List Char) → Option (List UInt8)
  | [] => some []
  | [last] =>
    match readGroup last with
    | some octets => some octets
    | none => if dotted then (readIpv4 last).map Ipv4Addr.octets else none
  | group :: groups => (readGroup group).bind fun octets => (readGroups dotted groups).map (octets ++ ·)

/-- The texts before and after the first `::`. -/
def cutGap : List Char → Option (List Char × List Char)
  | ':' :: ':' :: rest => some ([], rest)
  | c :: rest => (cutGap rest).map fun cut => (c :: cut.1, cut.2)
  | [] => none

def readSide (dotted : Bool) (text : List Char) : Option (List UInt8) :=
  if text.isEmpty then some [] else readGroups dotted (text.splitOn ':')

/-- Eight groups, or fewer around a gap of zeros. -/
def readIpv6 (text : List Char) : Option Ipv6Addr :=
  match cutGap text with
  | none =>
    (readSide true text).bind fun octets => if octets.length = 16 then some (.ofOctets octets) else none
  | some (front, back) =>
    (readSide false front).bind fun front =>
      (readSide true back).bind fun back =>
        if front.length + back.length ≤ 14 then
          some (.ofOctets (front ++ List.replicate (16 - (front.length + back.length)) 0 ++ back))
        else none

/-- `IpAddr::from_str` -/
def readIp (text : List Char) : Option IpAddr :=
  match readIpv4 text with
  | some ip => some (.v4 ip)
  | none => (readIpv6 text).map .v6

example : readIp "::ffff:169.254.169.254".toList = some (.v6 (.mapped ⟨169, 254, 169, 254⟩)) := by decide +kernel
example : readIp "01.2.3.4".toList = none := by decide +kernel

/-! ## Reading back -/

theorem decimal_spec (octet : UInt8) :
    readOctet (decimal octet) = some octet ∧ (decimal octet).all Char.isDigit = true := by
  have h : ∀ n : Fin 256, readOctet (Nat.toDigits 10 n) = some (UInt8.ofNat n) ∧
      (Nat.toDigits 10 n).all Char.isDigit = true := by
    decide +kernel
  have hoctet := h ⟨octet.toNat, octet.toNat_lt⟩
  rw [UInt8.ofNat_toNat] at hoctet
  exact hoctet

theorem dot_not_mem_decimal (octet : UInt8) : '.' ∉ decimal octet := by
  intro hmem
  have := List.all_eq_true.mp (decimal_spec octet).2 '.' hmem
  exact absurd this (by decide)

theorem readIpv4_toText (ip : Ipv4Addr) : readIpv4 ip.toText = some ip := by
  have hsplit : ip.toText.splitOn '.' = [decimal ip.a, decimal ip.b, decimal ip.c, decimal ip.d] := by
    refine List.splitOn_intercalate '.' ?_ (List.cons_ne_nil _ _)
    intro text htext
    obtain ⟨octet, -, rfl⟩ := List.mem_map.mp htext
    exact dot_not_mem_decimal octet
  rw [readIpv4, hsplit]
  simp [(decimal_spec _).1]

/-- **A dotted text is read as its address.** -/
theorem readIp_toText (ip : Ipv4Addr) : readIp ip.toText = some (.v4 ip) := by
  rw [readIp, readIpv4_toText]

theorem mem_toText {ip : Ipv4Addr} {c : Char} (h : c ∈ ip.toText) : c.isDigit = true ∨ c = '.' := by
  rw [Ipv4Addr.toText, Ipv4Addr.octets] at h
  simp only [List.map_cons, List.map_nil, List.intercalate, List.intersperse, List.flatten_cons, List.flatten_nil,
    List.mem_append, List.mem_singleton, List.not_mem_nil, or_false] at h
  have hdigit : ∀ octet, c ∈ decimal octet → c.isDigit = true := fun octet hmem =>
    List.all_eq_true.mp (decimal_spec octet).2 c hmem
  rcases h with h | h | h | h | h | h | h
  · exact .inl (hdigit _ h)
  · exact .inr h
  · exact .inl (hdigit _ h)
  · exact .inr h
  · exact .inl (hdigit _ h)
  · exact .inr h
  · exact .inl (hdigit _ h)

end Net
