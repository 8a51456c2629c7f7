import Moira.Security.ProviderEndpoint

/-!
# What the address checks let through
-/

namespace Moira

namespace Ssrf

open Net

/-! ## Carriers -/

/-- The lengths that RFC 6052 has, in octets. -/
def prefixLengths : List Nat := [4, 5, 6, 7, 8, 12]

/-- `64:ff9b::/32` and `64:ff9b:1::/48` -/
def translationPrefixes : List (List UInt8) :=
  [[0x00, 0x64, 0xff, 0x9b], [0x00, 0x64, 0xff, 0x9b, 0x00, 0x01]]

/-- The IPv6 addresses that carry an IPv4 address. -/
inductive Carries (v4 : Ipv4Addr) : Ipv6Addr → Prop
  | mapped : Carries v4 (.mapped v4)
  | compatible : Carries v4 (.compatible v4)
  | translated : Carries v4 (.translated v4)
  | sixToFour (rest : List UInt8) : Carries v4 (.sixToFour v4 rest)
  | embedded {base netPrefix : List UInt8} (hbase : base ∈ translationPrefixes) (hfits : base <+: netPrefix)
      (hlength : netPrefix.length ∈ prefixLengths) : Carries v4 (.embed netPrefix v4)

variable {v4 : Ipv4Addr} {ip : Ipv6Addr}

theorem segments_eq : ip.segments = [ip.segment 0, ip.segment 1, ip.segment 2, ip.segment 3, ip.segment 4,
    ip.segment 5, ip.segment 6, ip.segment 7] :=
  rfl

theorem segment_eq (i : Fin 8) (hi lo : UInt8) {n : Nat} (hhi : ip.octet ⟨2 * i, Ipv6Addr.even_lt i⟩ = hi)
    (hlo : ip.octet ⟨2 * i + 1, Ipv6Addr.odd_lt i⟩ = lo) (h : hi.toNat * 256 + lo.toNat = n) :
    ip.segment i = n := by
  unfold Ipv6Addr.segment
  rw [hhi, hlo, h]

theorem ipv4_forms_none (h : ip.segment 0 ≠ 0 ∨ ip.segment 4 ≠ 0) :
    ip.toIpv4Mapped = none ∧ ip.toIpv4 = none := by
  constructor
  · refine if_neg fun hzero => ?_
    rw [segments_eq] at hzero
    simp only [List.take_succ_cons, List.cons.injEq] at hzero
    omega
  · refine if_neg fun hzero => ?_
    rw [segments_eq] at hzero
    simp only [List.take_succ_cons, List.cons.injEq] at hzero
    omega

theorem denied_of_embedded (hsegment : ip.segment 0 ≠ 0 ∨ ip.segment 4 ≠ 0)
    (hmem : v4 ∈ embeddedIpv4Addresses ip) (h : isDeniedIpv4 v4 = true) : isDeniedIpv6 ip = true := by
  have hany : (embeddedIpv4Addresses ip).any isDeniedIpv4 = true := List.any_eq_true.mpr ⟨v4, hmem, h⟩
  unfold isDeniedIpv6
  split
  · rfl
  · rw [(ipv4_forms_none hsegment).1, (ipv4_forms_none hsegment).2]
    simp only [hany, Bool.true_or]

theorem denied_of_mapped (h : ip.toIpv4Mapped = some v4) (hv4 : isDeniedIpv4 v4 = true) :
    isDeniedIpv6 ip = true := by
  unfold isDeniedIpv6
  split
  · rfl
  · rw [h]
    exact hv4

theorem denied_of_ipv4 (hmapped : ip.toIpv4Mapped = none) (h : ip.toIpv4 = some v4)
    (hv4 : isDeniedIpv4 v4 = true) : isDeniedIpv6 ip = true := by
  unfold isDeniedIpv6
  split
  · rfl
  · rw [hmapped, h]
    exact hv4

theorem mem_embedded_of_translation (h0 : ip.segment 0 = 0x64) (h1 : ip.segment 1 = 0xff9b) :
    v4 ∈ embeddedIpv4Addresses ip ↔ v4 = ip.lastIpv4 ∨
      ip.octet 8 = 0 ∧ ∃ i j k l suffixStart, ((i, j, k, l), suffixStart) ∈ layouts ∧
        zeroFrom ip suffixStart = true ∧ v4 = ⟨ip.octet i, ip.octet j, ip.octet k, ip.octet l⟩ := by
  have hnot : ¬ ip.segments.take 6 = [0, 0, 0, 0, 0xffff, 0] := by
    intro hzero
    rw [segments_eq] at hzero
    simp only [List.take_succ_cons, List.cons.injEq] at hzero
    omega
  unfold embeddedIpv4Addresses
  simp only [if_neg hnot, h0, h1, and_self, if_true, List.nil_append]
  rw [if_neg (by decide), List.nil_append, List.mem_cons]
  refine or_congr_right ?_
  split
  · next h8 =>
    simp only [List.mem_map, List.mem_filter, Prod.exists, h8, true_and]
    constructor
    · rintro ⟨i, j, k, l, suffixStart, ⟨hmem, hzero⟩, rfl⟩
      exact ⟨i, j, k, l, suffixStart, hmem, hzero, rfl⟩
    · rintro ⟨i, j, k, l, suffixStart, hmem, hzero, rfl⟩
      exact ⟨i, j, k, l, suffixStart, ⟨hmem, hzero⟩, rfl⟩
  · next h8 => simp [h8]

theorem toIpv4Mapped_mapped : (Ipv6Addr.mapped v4).toIpv4Mapped = some v4 := by
  have hzero (i : Fin 8) (hhi hlo) : (Ipv6Addr.mapped v4).segment i = 0 := segment_eq i 0 0 hhi hlo rfl
  have hones : (Ipv6Addr.mapped v4).segment 5 = 0xffff := segment_eq 5 0xff 0xff rfl rfl rfl
  have hsegments : (Ipv6Addr.mapped v4).segments.take 6 = [0, 0, 0, 0, 0, 0xffff] := by
    rw [segments_eq, hzero 0 rfl rfl, hzero 1 rfl rfl, hzero 2 rfl rfl, hzero 3 rfl rfl, hzero 4 rfl rfl, hones]
    rfl
  unfold Ipv6Addr.toIpv4Mapped
  rw [if_pos hsegments]
  rfl

theorem toIpv4_compatible :
    (Ipv6Addr.compatible v4).toIpv4Mapped = none ∧ (Ipv6Addr.compatible v4).toIpv4 = some v4 := by
  have hzero (i : Fin 8) (hhi hlo) : (Ipv6Addr.compatible v4).segment i = 0 := segment_eq i 0 0 hhi hlo rfl
  have h5 := hzero 5 rfl rfl
  constructor
  · refine if_neg fun hones => ?_
    rw [segments_eq, h5] at hones
    simp only [List.take_succ_cons, List.cons.injEq] at hones
    omega
  · have hsegments : (Ipv6Addr.compatible v4).segments.take 5 = [0, 0, 0, 0, 0] := by
      rw [segments_eq, hzero 0 rfl rfl, hzero 1 rfl rfl, hzero 2 rfl rfl, hzero 3 rfl rfl, hzero 4 rfl rfl]
      rfl
    unfold Ipv6Addr.toIpv4
    rw [if_pos ⟨hsegments, Or.inl h5⟩]
    rfl

theorem translated_carried : v4 ∈ embeddedIpv4Addresses (.translated v4) := by
  have hzero (i : Fin 8) (hhi hlo) : (Ipv6Addr.translated v4).segment i = 0 := segment_eq i 0 0 hhi hlo rfl
  have hones : (Ipv6Addr.translated v4).segment 4 = 0xffff := segment_eq 4 0xff 0xff rfl rfl rfl
  have hsegments : (Ipv6Addr.translated v4).segments.take 6 = [0, 0, 0, 0, 0xffff, 0] := by
    rw [segments_eq, hzero 0 rfl rfl, hzero 1 rfl rfl, hzero 2 rfl rfl, hzero 3 rfl rfl, hones, hzero 5 rfl rfl]
    rfl
  unfold embeddedIpv4Addresses
  rw [if_pos hsegments]
  exact List.mem_append_left _ (List.mem_append_left _ (List.mem_singleton.mpr rfl))

theorem sixToFour_carried {rest : List UInt8} : v4 ∈ embeddedIpv4Addresses (.sixToFour v4 rest) := by
  have hsegment : (Ipv6Addr.sixToFour v4 rest).segment 0 = 0x2002 := segment_eq 0 0x20 0x02 rfl rfl rfl
  unfold embeddedIpv4Addresses
  refine List.mem_append_left _ (List.mem_append_right _ ?_)
  rw [if_pos hsegment]
  exact List.mem_singleton.mpr rfl

theorem zeroFrom_iff {suffixStart : Nat} :
    zeroFrom ip suffixStart = true ↔ ∀ i : Fin 16, suffixStart ≤ i → ip.octet i = 0 := by
  simp only [zeroFrom, List.all_eq_true, List.mem_finRange, forall_const, Bool.or_eq_true, decide_eq_true_eq]
  exact forall_congr' fun i => by rw [← not_le, ← imp_iff_not_or]

theorem embed_segments (v4 : Ipv4Addr) (more : List UInt8) :
    (Ipv6Addr.embed ([0x00, 0x64, 0xff, 0x9b] ++ more) v4).segment 0 = 0x64 ∧
      (Ipv6Addr.embed ([0x00, 0x64, 0xff, 0x9b] ++ more) v4).segment 1 = 0xff9b := by
  unfold Ipv6Addr.embed
  constructor
  · split <;> exact segment_eq 0 0x00 0x64 rfl rfl rfl
  · split <;> exact segment_eq 1 0xff 0x9b rfl rfl rfl

theorem embed_carried {more : List UInt8} (hmore : more.length ∈ [0, 1, 2, 3, 4, 8]) :
    v4 ∈ embeddedIpv4Addresses (.embed ([0x00, 0x64, 0xff, 0x9b] ++ more) v4) := by
  obtain ⟨h0, h1⟩ := embed_segments v4 more
  rw [mem_embedded_of_translation h0 h1]
  -- One layout for each length of the prefix.
  rcases more with _ | ⟨e, _ | ⟨f, _ | ⟨g, _ | ⟨h, _ | ⟨u, rest⟩⟩⟩⟩⟩
  · exact Or.inr ⟨rfl, 4, 5, 6, 7, 9, by decide, rfl, rfl⟩
  · exact Or.inr ⟨rfl, 5, 6, 7, 9, 10, by decide, rfl, rfl⟩
  · exact Or.inr ⟨rfl, 6, 7, 9, 10, 11, by decide, rfl, rfl⟩
  · exact Or.inr ⟨rfl, 7, 9, 10, 11, 12, by decide, rfl, rfl⟩
  · exact Or.inr ⟨rfl, 9, 10, 11, 12, 13, by decide, rfl, rfl⟩
  · have hrest : rest.length = 3 := by
      simp only [List.length_cons, List.mem_cons, List.not_mem_nil, or_false] at hmore
      omega
    obtain ⟨x, y, z, rfl⟩ := List.length_eq_three.mp hrest
    exact Or.inl rfl

theorem exists_more {base netPrefix : List UInt8} (hbase : base ∈ translationPrefixes)
    (hfits : base <+: netPrefix) (hlength : netPrefix.length ∈ prefixLengths) :
    ∃ more, netPrefix = [0x00, 0x64, 0xff, 0x9b] ++ more ∧ more.length ∈ [0, 1, 2, 3, 4, 8] := by
  have hwide : [0x00, 0x64, 0xff, 0x9b] <+: netPrefix := by
    refine List.IsPrefix.trans ?_ hfits
    rcases List.mem_cons.mp hbase with rfl | hbase
    · exact List.prefix_rfl
    · rw [List.mem_singleton.mp hbase]
      exact ⟨[0x00, 0x01], rfl⟩
  obtain ⟨more, rfl⟩ := hwide
  refine ⟨more, rfl, ?_⟩
  simp only [prefixLengths, List.length_append, List.length_cons, List.length_nil, List.mem_cons,
    List.not_mem_nil, or_false] at hlength ⊢
  omega

/-- **The carriers of a denied address are denied.** -/
theorem denied_of_carries (hcarries : Carries v4 ip) (h : isDeniedIpv4 v4 = true) :
    isDeniedIp (.v6 ip) = true := by
  show isDeniedIpv6 ip = true
  cases hcarries with
  | mapped => exact denied_of_mapped toIpv4Mapped_mapped h
  | compatible => exact denied_of_ipv4 toIpv4_compatible.1 toIpv4_compatible.2 h
  | translated =>
    have hones : (Ipv6Addr.translated v4).segment 4 = 0xffff := segment_eq 4 0xff 0xff rfl rfl rfl
    exact denied_of_embedded (Or.inr (by omega)) translated_carried h
  | sixToFour rest =>
    have hsegment : (Ipv6Addr.sixToFour v4 rest).segment 0 = 0x2002 := segment_eq 0 0x20 0x02 rfl rfl rfl
    exact denied_of_embedded (Or.inl (by omega)) sixToFour_carried h
  | embedded hbase hfits hlength =>
    obtain ⟨more, rfl, hmore⟩ := exists_more hbase hfits hlength
    have hsegment := (embed_segments v4 more).1
    exact denied_of_embedded (Or.inl (by omega)) (embed_carried hmore) h

/-- The metadata address behind the /40 form. -/
theorem denied_of_carries_metadata :
    isDeniedIp (.v6 (.embed [0x00, 0x64, 0xff, 0x9b, 0x07] ⟨169, 254, 169, 254⟩)) = true :=
  denied_of_carries (.embedded (by decide : [0x00, 0x64, 0xff, 0x9b] ∈ translationPrefixes) (by decide) (by decide))
    (by decide)

/-! ## The well-known prefix -/

/-- `64:ff9b::a.b.c.d` -/
def wellKnown (v4 : Ipv4Addr) : Ipv6Addr :=
  .embed [0x00, 0x64, 0xff, 0x9b, 0, 0, 0, 0, 0, 0, 0, 0] v4

theorem mem_embedded_wellKnown {carried : Ipv4Addr} (h : carried ∈ embeddedIpv4Addresses (wellKnown v4)) :
    carried = v4 ∨ (v4.b = 0 ∧ v4.c = 0 ∧ v4.d = 0) := by
  obtain ⟨h0, h1⟩ := embed_segments v4 [0, 0, 0, 0, 0, 0, 0, 0]
  rcases (mem_embedded_of_translation h0 h1).mp h with rfl | ⟨-, i, j, k, l, suffixStart, hlayout, hzero, -⟩
  · exact Or.inl rfl
  · have hsuffix : suffixStart ≤ 13 := by
      revert hlayout
      simp only [layouts, List.mem_cons, Prod.mk.injEq, List.not_mem_nil, or_false]
      omega
    have hlast := zeroFrom_iff.mp hzero
    exact Or.inr ⟨hlast 13 hsuffix, hlast 14 (by simpa using by omega), hlast 15 (by simpa using by omega)⟩

theorem isDeniedIpv4_first_zero (h : v4.a = 0) : isDeniedIpv4 v4 = true := by
  simp [isDeniedIpv4, h]

theorem isDeniedIp_wellKnown :
    isDeniedIp (.v6 (wellKnown v4)) = (embeddedIpv4Addresses (wellKnown v4)).any isDeniedIpv4 := by
  have h0 : (wellKnown v4).segment 0 = 0x64 := (embed_segments v4 _).1
  -- The second octet is neither that of `::` and `::1` nor the first of a multicast address.
  have hspecial :
      ((wellKnown v4).isUnspecified || (wellKnown v4).isLoopback || (wellKnown v4).isMulticast) = false := by
    have hne (octets : List UInt8) (hoctet : octets.getD 1 0 = 0) : wellKnown v4 ≠ .ofOctets octets := by
      intro heq
      have hone : (wellKnown v4).octet 1 = (Ipv6Addr.ofOctets octets).octet 1 := by rw [heq]
      have hvalue : (wellKnown v4).octet 1 = 0x64 := rfl
      rw [hvalue] at hone
      exact absurd (hone.trans hoctet) (by decide)
    have hfirst : (wellKnown v4).octet 0 = 0x00 := rfl
    have hunspecified := hne [] rfl
    have hloopback := hne [0, 0, 0, 0, 0, 0, 0, 0, 0, 0, 0, 0, 0, 0, 0, 1] rfl
    unfold Ipv6Addr.isUnspecified Ipv6Addr.isLoopback Ipv6Addr.isMulticast
    rw [decide_eq_false hunspecified, decide_eq_false hloopback, hfirst]
    rfl
  obtain ⟨hmapped, hform⟩ := ipv4_forms_none (Or.inl (by omega) : (wellKnown v4).segment 0 ≠ 0 ∨ _)
  show isDeniedIpv6 (wellKnown v4) = _
  unfold isDeniedIpv6
  rw [hspecial, hmapped, hform, h0]
  simp

/-- **Behind the well-known prefix** an address that is allowed is, unless its last three octets are
zeros. -/
theorem wellKnown_allowed_iff (h : isDeniedIpv4 v4 = false) :
    isDeniedIp (.v6 (wellKnown v4)) = false ↔ ¬ (v4.b = 0 ∧ v4.c = 0 ∧ v4.d = 0) := by
  rw [isDeniedIp_wellKnown, List.any_eq_false]
  constructor
  · rintro hall ⟨hb, hc, hd⟩
    -- Read as the /64 form, it carries an address of "this network".
    have hmem : (⟨0, 0, 0, v4.a⟩ : Ipv4Addr) ∈ embeddedIpv4Addresses (wellKnown v4) := by
      obtain ⟨h0, h1⟩ := embed_segments v4 [0, 0, 0, 0, 0, 0, 0, 0]
      refine (mem_embedded_of_translation h0 h1).mpr (Or.inr ⟨rfl, 9, 10, 11, 12, 13, by decide, ?_, rfl⟩)
      refine zeroFrom_iff.mpr fun i hi => ?_
      have hi : i = 13 ∨ i = 14 ∨ i = 15 := by omega
      rcases hi with rfl | rfl | rfl
      · exact hb
      · exact hc
      · exact hd
    exact hall _ hmem (isDeniedIpv4_first_zero rfl)
  · intro hlast carried hmem
    rcases mem_embedded_wellKnown hmem with rfl | hzero
    · rw [h]
      exact Bool.false_ne_true
    · exact absurd hzero hlast

theorem wellKnown_allowed_eights : isDeniedIp (.v6 (wellKnown ⟨8, 8, 8, 8⟩)) = false :=
  (wellKnown_allowed_iff (by decide)).mpr (by decide)

/-- `8.0.0.0` is allowed, and `64:ff9b::8.0.0.0` is read as `0.0.0.8`. -/
theorem wellKnown_denied_eight :
    isDeniedIpv4 ⟨8, 0, 0, 0⟩ = false ∧ isDeniedIp (.v6 (wellKnown ⟨8, 0, 0, 0⟩)) = true := by
  decide +kernel

end Ssrf

namespace ProviderEndpoint

open Net

/-! ## Hosts in any spelling -/

def metadataNames : List (List Char) :=
  ["metadata.google.internal".toList, "metadata".toList, "instance-data".toList]

def metadataAddresses : List Ipv4Addr :=
  [⟨169, 254, 169, 254⟩, ⟨100, 100, 100, 200⟩]

/-- The name, with or without a dot at its end. -/
def Spells (name text : List Char) : Prop :=
  lowercase text = name ∨ lowercase text = name ++ ['.']

/-- The metadata service of a cloud. -/
inductive Metadata : Host → Prop
  | name {name text : List Char} (hmem : name ∈ metadataNames) (h : Spells name text) :
      Metadata (.domain text)
  | ipv4 {ip : Ipv4Addr} (hmem : ip ∈ metadataAddresses) : Metadata (.ipv4 ip)
  | mapped {ip : Ipv4Addr} (hmem : ip ∈ metadataAddresses) : Metadata (.ipv6 (.mapped ip))

/-- `localhost`, or a name under it. -/
def IsLocalhost (name : List Char) : Prop :=
  name = "localhost".toList ∨ ".localhost".toList <:+ name

/-- A host that is only reached from inside. -/
inductive Internal : Host → Prop
  | name {name text : List Char} (hlocal : IsLocalhost name) (h : Spells name text) : Internal (.domain text)
  | ipv4 {ip : Ipv4Addr} (h : isForbiddenIp (.v4 ip) = true) : Internal (.ipv4 ip)
  | ipv6 {ip : Ipv6Addr} (h : isForbiddenIp (.v6 ip) = true) : Internal (.ipv6 ip)
  | mapped {ip : Ipv4Addr} (h : isForbiddenIp (.v4 ip) = true) : Internal (.ipv6 (.mapped ip))

/-- A host that a credential may be sent to. -/
structure Safe (allowPrivate : Bool) (host : Host) : Prop where
  not_metadata : ¬Metadata host
  not_internal : allowPrivate = false → ¬Internal host

/-- A dot at the end of a name, and the IPv4-mapped form of an address. -/
inductive SlipsThrough (allowPrivate : Bool) : Host → Prop
  | dottedMetadata {name text : List Char} (hmem : name ∈ metadataNames) (h : lowercase text = name ++ ['.']) :
    SlipsThrough allowPrivate (.domain text)
  | mappedMetadata {ip : Ipv4Addr} (hmem : ip ∈ metadataAddresses) :
    SlipsThrough allowPrivate (.ipv6 (.mapped ip))
  | dottedLocalhost {name text : List Char} (hprivate : allowPrivate = false) (hlocal : IsLocalhost name)
      (h : lowercase text = name ++ ['.']) : SlipsThrough allowPrivate (.domain text)
  | mappedInternal {ip : Ipv4Addr} (hprivate : allowPrivate = false) (h : isForbiddenIp (.v4 ip) = true) :
    SlipsThrough allowPrivate (.ipv6 (.mapped ip))

/-! ## What the two comparisons see -/

/-- What the parser says of a host. -/
structure WellFormed (parser : UrlParser) (host : Host) : Prop where
  domain : ∀ name, host = .domain name → readIp name = none ∧ '[' ∉ name
  ipv6 : ∀ ip, host = .ipv6 ip → readIp (parser.ipv6Text ip) = some (.v6 ip)

variable {parser : UrlParser} {host : Host} {allowPrivate allowHttp : Bool} {value : List Char}

theorem stripBrackets_of_free {text : List Char} (h : '[' ∉ text) : stripBrackets text = text := by
  cases text with
  | nil => rfl
  | cons c rest =>
    unfold stripBrackets
    split
    · next heq =>
      obtain ⟨rfl, -⟩ := List.cons.inj heq
      exact absurd List.mem_cons_self h
    · rfl

theorem stripBrackets_bracketed (text : List Char) : stripBrackets ('[' :: (text ++ [']'])) = text := by
  show (if (text ++ [']']).getLast? = some ']' then (text ++ [']']).dropLast else _) = text
  rw [if_pos List.getLast?_concat, List.dropLast_concat]

theorem bracket_not_mem_toText (ip : Ipv4Addr) : '[' ∉ ip.toText := by
  intro h
  rcases mem_toText h with hdigit | hdot
  · exact absurd hdigit (by decide)
  · exact absurd hdot (by decide)

theorem names_unseen {text : List Char} {c : Char} (hlast : (lowercase text).getLast? = some c)
    (hc : c = '.' ∨ c = ']') : isCloudMetadataHost text = false ∧ lowercase text ≠ "localhost".toList ∧
      ".localhost".toList.isSuffixOf (lowercase text) = false := by
  have hends : ∀ name ∈ "localhost".toList :: cloudMetadataHosts, name.getLast? ≠ some c := by
    rcases hc with rfl | rfl <;> decide
  refine ⟨?_, ?_, ?_⟩
  · rw [isCloudMetadataHost, Bool.eq_false_iff]
    intro hmem
    exact hends _ (List.mem_cons_of_mem _ (List.contains_iff_mem.mp hmem)) hlast
  · intro heq
    rw [heq] at hlast
    exact hends _ List.mem_cons_self hlast
  · rw [Bool.eq_false_iff]
    intro hsuffix
    obtain ⟨front, hfront⟩ := List.isSuffixOf_iff_suffix.mp hsuffix
    rw [← hfront, List.getLast?_append] at hlast
    have hend : some 't' = some c := hlast
    rcases hc with rfl | rfl <;> exact absurd hend (by decide)

variable {text : List Char}

theorem isPrivateHost_eq (hname : lowercase text ≠ "localhost".toList)
    (hsuffix : ".localhost".toList.isSuffixOf (lowercase text) = false) :
    isPrivateHost text = (readIp (stripBrackets text)).any isForbiddenIp := by
  unfold isPrivateHost
  simp only [hsuffix, hname]
  rfl

theorem dotted_unseen {text name : List Char} (h : lowercase text = name ++ ['.']) (hip : readIp text = none)
    (hbracket : '[' ∉ text) : isCloudMetadataHost text = false ∧ isPrivateHost text = false := by
  have hlast : (lowercase text).getLast? = some '.' := by rw [h, List.getLast?_concat]
  obtain ⟨hmetadata, hname, hsuffix⟩ := names_unseen hlast (Or.inl rfl)
  refine ⟨hmetadata, ?_⟩
  rw [isPrivateHost_eq hname hsuffix, stripBrackets_of_free hbracket, hip]
  rfl

theorem ipv6_seen {ip : Ipv6Addr} (h : WellFormed parser (.ipv6 ip)) :
    isCloudMetadataHost (parser.hostStr (.ipv6 ip)) = false ∧
      isPrivateHost (parser.hostStr (.ipv6 ip)) = isForbiddenIp (.v6 ip) := by
  have hlast : (lowercase (parser.hostStr (.ipv6 ip))).getLast? = some ']' := by
    show (List.map Char.toLower ('[' :: (parser.ipv6Text ip ++ [']']))).getLast? = some ']'
    rw [← List.cons_append, List.map_append, List.map_singleton, List.getLast?_concat]
    rfl
  obtain ⟨hmetadata, hname, hsuffix⟩ := names_unseen hlast (Or.inr rfl)
  refine ⟨hmetadata, ?_⟩
  rw [isPrivateHost_eq hname hsuffix]
  show (readIp (stripBrackets ('[' :: (parser.ipv6Text ip ++ [']'])))).any isForbiddenIp = _
  rw [stripBrackets_bracketed, h.ipv6 ip rfl]
  rfl

theorem mapped_not_forbidden (ip : Ipv4Addr) : isForbiddenIp (.v6 (.mapped ip)) = false := by
  have hsegment : (Ipv6Addr.mapped ip).segment 0 = 0 := Ssrf.segment_eq 0 0 0 rfl rfl rfl
  have hdiffers : ∀ octets : List UInt8, octets.getD 10 0 = 0 → Ipv6Addr.mapped ip ≠ .ofOctets octets := by
    intro octets hzero heq
    have hoctet : (0xff : UInt8) = octets.getD 10 0 := congrFun (Ipv6Addr.mk.inj heq) 10
    rw [hzero] at hoctet
    exact absurd hoctet (by decide)
  have hloopback : (Ipv6Addr.mapped ip).isLoopback = false := decide_eq_false (hdiffers _ rfl)
  have hunspecified : (Ipv6Addr.mapped ip).isUnspecified = false := decide_eq_false (hdiffers _ rfl)
  have hlocal : (Ipv6Addr.mapped ip).isUniqueLocal = false := by
    rw [Ipv6Addr.isUniqueLocal, hsegment]
    decide
  have hlink : isIpv6UnicastLinkLocal (.mapped ip) = false := by
    rw [isIpv6UnicastLinkLocal, hsegment]
    decide
  have hmulticast : (Ipv6Addr.mapped ip).isMulticast = false := rfl
  simp only [isForbiddenIp, hloopback, hunspecified, hlocal, hlink, hmulticast, Bool.or_false]

theorem ipv4_private {ip : Ipv4Addr} (h : isForbiddenIp (.v4 ip) = true) :
    isPrivateHost (parser.hostStr (.ipv4 ip)) = true := by
  show isPrivateHost ip.toText = true
  unfold isPrivateHost
  simp only [stripBrackets_of_free (bracket_not_mem_toText ip), readIp_toText, Option.any_some, h, ite_self]

theorem name_metadata {name : List Char} (hmem : name ∈ metadataNames) (h : lowercase text = name) :
    isCloudMetadataHost text = true := by
  have hall : ∀ name ∈ metadataNames, name ∈ cloudMetadataHosts := by decide
  rw [isCloudMetadataHost, h, List.contains_iff_mem]
  exact hall name hmem

theorem name_private {name : List Char} (hlocal : IsLocalhost name) (h : lowercase text = name) :
    isPrivateHost text = true := by
  unfold isPrivateHost
  rw [h]
  rcases hlocal with rfl | hsuffix
  · rfl
  · simp only [List.isSuffixOf_iff_suffix.mpr hsuffix, Bool.or_true, if_true]

theorem ipv4_metadata {ip : Ipv4Addr} (hmem : ip ∈ metadataAddresses) :
    isCloudMetadataHost (parser.hostStr (.ipv4 ip)) = true := by
  have hall : ∀ ip ∈ metadataAddresses, isCloudMetadataHost ip.toText = true := by decide +kernel
  exact hall ip hmem

/-- **A host that the comparisons let pass is safe exactly when it is not a spelling that slips
through.** -/
theorem safe_iff (hparsed : WellFormed parser host)
    (hmetadata : isCloudMetadataHost (parser.hostStr host) = false)
    (hprivate : allowPrivate = false → isPrivateHost (parser.hostStr host) = false) :
    Safe allowPrivate host ↔ ¬SlipsThrough allowPrivate host := by
  constructor
  · rintro ⟨hsafe, hinternal⟩ hslips
    cases hslips with
    | dottedMetadata hmem h => exact hsafe (.name hmem (.inr h))
    | mappedMetadata hmem => exact hsafe (.mapped hmem)
    | dottedLocalhost hflag hlocal h => exact hinternal hflag (.name hlocal (.inr h))
    | mappedInternal hflag h => exact hinternal hflag (.mapped h)
  · intro hslips
    refine ⟨fun h => ?_, fun hflag h => ?_⟩
    · cases h with
      | name hmem h =>
        rcases h with h | h
        · exact absurd (name_metadata hmem h) (Bool.eq_false_iff.mp hmetadata)
        · exact hslips (.dottedMetadata hmem h)
      | ipv4 hmem => exact absurd (ipv4_metadata hmem) (Bool.eq_false_iff.mp hmetadata)
      | mapped hmem => exact hslips (.mappedMetadata hmem)
    · have hprivate := hprivate hflag
      cases h with
      | name hlocal h =>
        rcases h with h | h
        · exact absurd (name_private hlocal h) (Bool.eq_false_iff.mp hprivate)
        · exact hslips (.dottedLocalhost hflag hlocal h)
      | ipv4 h => exact absurd (ipv4_private h) (Bool.eq_false_iff.mp hprivate)
      | ipv6 h => rw [(ipv6_seen hparsed).2, h] at hprivate; exact absurd hprivate (by simp)
      | mapped h => exact hslips (.mappedInternal hflag h)

theorem slips_unseen (hparsed : WellFormed parser host) (h : SlipsThrough allowPrivate host) :
    isCloudMetadataHost (parser.hostStr host) = false ∧ isPrivateHost (parser.hostStr host) = false := by
  cases h with
  | @dottedMetadata _ text _ h =>
    obtain ⟨hip, hbracket⟩ := hparsed.domain text rfl
    exact dotted_unseen h hip hbracket
  | @dottedLocalhost _ text _ _ h =>
    obtain ⟨hip, hbracket⟩ := hparsed.domain text rfl
    exact dotted_unseen h hip hbracket
  | mappedMetadata hmem =>
    obtain ⟨hmetadata, hprivate⟩ := ipv6_seen hparsed
    exact ⟨hmetadata, hprivate.trans (mapped_not_forbidden _)⟩
  | mappedInternal _ h =>
    obtain ⟨hmetadata, hprivate⟩ := ipv6_seen hparsed
    exact ⟨hmetadata, hprivate.trans (mapped_not_forbidden _)⟩

/-! ## The guard -/

/-- A URL whose scheme and credentials pass. -/
structure Presents (parser : UrlParser) (value : List Char) (allowHttp : Bool) (url : ParsedUrl)
    (host : Host) :
    Prop where
  parsed : parser.parse (trimEndpoint value) = .ok url
  scheme : url.scheme = "https" ∨ (url.scheme = "http" ∧ allowHttp = true)
  username : url.username = []
  password : url.password = none
  host_eq : url.host = some host

theorem Presents.wellFormed {url : ParsedUrl} (h : Presents parser value allowHttp url host) :
    WellFormed parser host where
  domain name hname :=
    parser.domain_spec _ url name h.parsed (h.scheme.imp_right And.left) (hname ▸ h.host_eq)
  ipv6 ip hip := parser.ipv6_spec _ url ip h.parsed (h.scheme.imp_right And.left) (hip ▸ h.host_eq)

/-- What the guard lets pass. -/
theorem shapeDenial_eq_none_iff :
    providerEndpointShapeDenial parser value allowPrivate allowHttp = none ↔
      ∃ url host, Presents parser value allowHttp url host ∧
        isCloudMetadataHost (parser.hostStr host) = false ∧
        (allowPrivate = false → isPrivateHost (parser.hostStr host) = false) := by
  unfold providerEndpointShapeDenial
  constructor
  · intro h
    cases hparsed : parser.parse (trimEndpoint value) with
    | error error => simp [hparsed] at h
    | ok url =>
      simp only [hparsed] at h
      split at h
      · exact absurd h (by simp)
      · next hscheme =>
        split at h
        · exact absurd h (by simp)
        · next hcredentials =>
          split at h
          · exact absurd h (by simp)
          · next host hhost =>
            split at h
            · exact absurd h (by simp)
            · next hmetadata =>
              split at h
              · exact absurd h (by simp)
              · next hprivate =>
                refine ⟨url, host, ⟨hparsed, ?_, ?_, ?_, hhost⟩, Bool.eq_false_iff.mpr hmetadata, ?_⟩
                · simpa [or_iff_not_imp_left] using hscheme
                · by_contra hname
                  exact hcredentials (by simp [hname])
                · by_contra hpassword
                  exact hcredentials (by simp [Option.isSome_iff_ne_none, hpassword])
                · intro hflag
                  simpa [hflag] using hprivate
  · rintro ⟨url, host, hpresents, hmetadata, hprivate⟩
    have hscheme : (url.scheme = "https" || (url.scheme = "http" && allowHttp)) = true := by
      simpa using hpresents.scheme
    have hflag : (!allowPrivate && isPrivateHost (parser.hostStr host)) = false := by
      cases allowPrivate with
      | true => rfl
      | false => simpa using hprivate rfl
    simp only [hpresents.parsed, hscheme, hpresents.username, hpresents.password, hpresents.host_eq, hmetadata, hflag]
    rfl

/-- The promise of the guard for a value: what it lets pass has a safe host, and what is accepted
where an address is written is permitted, in the form that is stored, where it is used. -/
structure Guarded (parser : UrlParser) (value : List Char) (allowPrivate allowHttp : Bool) : Prop where
  safe : providerEndpointShapeDenial parser value allowPrivate allowHttp = none →
    ∃ url host, parser.parse (trimEndpoint value) = .ok url ∧ url.host = some host ∧ Safe allowPrivate host
  permitted : ∀ resolve label stored,
    validateProviderEndpoint parser value allowPrivate allowHttp resolve label = .ok stored →
      ProviderEndpointPolicy.permits parser ⟨allowPrivate, allowHttp⟩ stored = .ok ()

theorem permitted_of_validated {resolve : List Char → Nat → Option (List IpAddr)} {label : String}
    {stored : List Char} (h : validateProviderEndpoint parser value allowPrivate allowHttp resolve label = .ok stored) :
    ProviderEndpointPolicy.permits parser ⟨allowPrivate, allowHttp⟩ stored = .ok () := by
  unfold validateProviderEndpoint at h
  simp only at h
  split at h
  · exact absurd h (by simp)
  · next hshape =>
    have hstored : stored = trimEndpoint value := by
      split at h
      · exact absurd h (by simp)
      · split at h
        · exact absurd h (by simp)
        · split at h
          · exact absurd h (by simp)
          · exact (Except.ok.inj h).symm
    rw [ProviderEndpointPolicy.permits, hstored, hshape]

/-- **The guard keeps its promise exactly on the values whose host is not a spelling that slips
through.** -/
theorem guarded_iff (parser : UrlParser) (value : List Char) (allowPrivate allowHttp : Bool) :
    Guarded parser value allowPrivate allowHttp ↔
      ¬∃ url host, Presents parser value allowHttp url host ∧ SlipsThrough allowPrivate host := by
  constructor
  · rintro hguarded ⟨url, host, hpresents, hslips⟩
    obtain ⟨hmetadata, hprivate⟩ := slips_unseen hpresents.wellFormed hslips
    have hshape : providerEndpointShapeDenial parser value allowPrivate allowHttp = none :=
      shapeDenial_eq_none_iff.mpr ⟨url, host, hpresents, hmetadata, fun _ => hprivate⟩
    obtain ⟨url', host', hparsed, hhost, hsafe⟩ := hguarded.safe hshape
    obtain rfl := Except.ok.inj (hpresents.parsed.symm.trans hparsed)
    obtain rfl := Option.some.inj (hpresents.host_eq.symm.trans hhost)
    exact (safe_iff hpresents.wellFormed hmetadata fun _ => hprivate).mp hsafe hslips
  · intro hno
    refine ⟨fun hshape => ?_, fun _ _ _ h => permitted_of_validated h⟩
    obtain ⟨url, host, hpresents, hmetadata, hprivate⟩ := shapeDenial_eq_none_iff.mp hshape
    exact ⟨url, host, hpresents.parsed, hpresents.host_eq,
      (safe_iff hpresents.wellFormed hmetadata hprivate).mpr fun hslips => hno ⟨url, host, hpresents, hslips⟩⟩

namespace Sample

/-- `https://[::ffff:169.254.169.254]` and `https://localhost.` -/
def table (text : List Char) : Except String ParsedUrl :=
  if text = "https://[::ffff:169.254.169.254]".toList then
    .ok { scheme := "https", host := some (.ipv6 (.mapped ⟨169, 254, 169, 254⟩)) }
  else if text = "https://localhost.".toList then
    .ok { scheme := "https", host := some (.domain "localhost.".toList) }
  else .error "relative URL without a base"

theorem table_host {url : ParsedUrl} (h : table text = .ok url) :
    url.host = some (.ipv6 (.mapped ⟨169, 254, 169, 254⟩)) ∨
    url.host = some (.domain "localhost.".toList) := by
  unfold table at h
  split at h
  · exact Or.inl (by rw [← Except.ok.inj h])
  · split at h
    · exact Or.inr (by rw [← Except.ok.inj h])
    · exact absurd h (by simp)

def someParser : UrlParser where
  parse := table
  ipv6Text _ := "::ffff:a9fe:a9fe".toList
  domain_spec text url name h _ hname := by
    rcases table_host h with hhost | hhost
    · rw [hhost] at hname
      exact absurd hname (by simp)
    · obtain rfl : "localhost.".toList = name := by simpa [hhost] using hname
      exact ⟨by decide +kernel, by decide⟩
  ipv6_spec text url ip h _ hip := by
    rcases table_host h with hhost | hhost
    · obtain rfl : Ipv6Addr.mapped ⟨169, 254, 169, 254⟩ = ip := by simpa [hhost] using hip
      decide +kernel
    · rw [hhost] at hip
      exact absurd hip (by simp)

end Sample

open Sample in
/-- The IPv4-mapped form of the metadata address and `localhost` with a dot are let through, with no
flag set. -/
theorem mapped_metadata_permitted :
    providerEndpointShapeDenial someParser "https://[::ffff:169.254.169.254]/".toList false false = none ∧
      Metadata (.ipv6 (.mapped ⟨169, 254, 169, 254⟩)) ∧
      providerEndpointShapeDenial someParser "https://localhost./".toList false false = none ∧
      Internal (.domain "localhost.".toList) ∧
      ¬Guarded someParser "https://[::ffff:169.254.169.254]/".toList false false := by
  refine ⟨by decide +kernel, .mapped (by decide), by decide +kernel,
    .name (show IsLocalhost "localhost".toList from .inl rfl) (.inr (by decide)), ?_⟩
  intro hguarded
  obtain ⟨url, host, hparsed, hhost, hsafe⟩ := hguarded.safe (by decide +kernel)
  have htrim : trimEndpoint "https://[::ffff:169.254.169.254]/".toList = "https://[::ffff:169.254.169.254]".toList := by
    decide +kernel
  rw [htrim] at hparsed
  obtain rfl : _ = url := Except.ok.inj hparsed
  obtain rfl : _ = host := Option.some.inj hhost
  exact hsafe.not_metadata (.mapped (by decide))

end ProviderEndpoint

end Moira
