import Moira.Console.AuthConfig
import Moira.Lib.Text

/-!
# Provider ids and allow-lists

The console and the claim of a grant compare the domain of an address with the same list.
-/

namespace Moira.Console

variable {c : Char} {b i j s id : List Char}

/-! ## Trailing slashes -/

theorem trimTrailingSlash_cases (value : List Char) :
    trimTrailingSlash value = value ∨ value = trimTrailingSlash value ++ ['/'] := by
  unfold trimTrailingSlash
  by_cases h : value.getLast? = some '/'
  · rw [if_pos h]
    obtain ⟨front, rfl⟩ := List.getLast?_eq_some_iff.mp h
    rw [List.dropLast_concat]
    exact Or.inr rfl
  · rw [if_neg h]
    exact Or.inl rfl

theorem trimTrailingSlash_of_getLast? {value : List Char} (h : value.getLast? = some c)
    (hc : c ≠ '/') : trimTrailingSlash value = value := by
  unfold trimTrailingSlash
  rw [h, if_neg]
  intro heq
  exact hc (Option.some.inj heq)

/-! ## Slugs -/

theorem isSlugEnd_ne_slash (h : isSlugEnd c = true) : c ≠ '/' := by
  rintro rfl
  exact absurd h (by decide)

theorem slug_getLast? (hs : isProviderSlug s = true) : ∃ c, s.getLast? = some c ∧ isSlugEnd c = true := by
  cases s with
  | nil => exact absurd hs (by decide)
  | cons first tail =>
    rw [isProviderSlug, Bool.and_eq_true, isSlugTail] at hs
    obtain ⟨hfirst, htail⟩ := hs
    cases hlast : tail.getLast? with
    | none =>
      rw [List.getLast?_eq_none_iff] at hlast
      subst hlast
      exact ⟨first, rfl, hfirst⟩
    | some last =>
      rw [hlast] at htail
      simp only [Bool.and_eq_true] at htail
      refine ⟨last, ?_, htail.2⟩
      rw [List.getLast?_cons, hlast]
      rfl

/-! ## Issuers -/

/-- The issuer of the console itself, with or without a slash at its end. -/
def IsIncumbent (b i : List Char) : Prop :=
  i = trimTrailingSlash b ∨ i = trimTrailingSlash b ++ ['/']

def issuerOfSlug (b s : List Char) : List Char :=
  trimTrailingSlash b ++ consoleIssuerPathPrefix ++ s

/-- The two kinds of issuer that have an id. -/
theorem consoleProviderIdFor_cases (h : consoleProviderIdFor b i = some id) :
    (IsIncumbent b i ∧ id = consoleOauthProviderId) ∨
      ∃ s, isProviderSlug s = true ∧ i = issuerOfSlug b s ∧ id = providerIdOfSlug s := by
  unfold consoleProviderIdFor at h
  simp only at h
  split at h
  · next heq =>
    refine Or.inl ⟨?_, (Option.some.inj h).symm⟩
    rw [IsIncumbent, ← heq]
    exact (trimTrailingSlash_cases i).imp_left Eq.symm
  · split at h
    · exact absurd h (by simp)
    · next hfront =>
      split at h
      · exact absurd h (by simp)
      · next hslug =>
        rw [Bool.not_eq_true', Bool.not_eq_false] at hfront hslug
        obtain ⟨slug, rfl⟩ := List.isPrefixOf_iff_prefix.mp hfront
        rw [List.drop_left] at hslug h
        exact Or.inr ⟨slug, hslug, rfl, (Option.some.inj h).symm⟩

theorem consoleProviderIdFor_slug (b : List Char) (hs : isProviderSlug s = true) :
    consoleProviderIdFor b (issuerOfSlug b s) = some (providerIdOfSlug s) := by
  obtain ⟨c, hlast, hc⟩ := slug_getLast? hs
  have htrim : trimTrailingSlash (issuerOfSlug b s) = issuerOfSlug b s := by
    refine trimTrailingSlash_of_getLast? (c := c) ?_ (isSlugEnd_ne_slash hc)
    rw [issuerOfSlug, List.getLast?_append, hlast]
    rfl
  unfold consoleProviderIdFor
  simp only
  -- The path makes the issuer longer than the base.
  rw [htrim, if_neg]
  · have hfront : (trimTrailingSlash b ++ consoleIssuerPathPrefix).isPrefixOf (issuerOfSlug b s) = true :=
      List.isPrefixOf_iff_prefix.mpr ⟨s, rfl⟩
    rw [hfront, issuerOfSlug, List.drop_left, hs]
    rfl
  · intro heq
    have hlength := congrArg List.length heq
    simp [issuerOfSlug, consoleIssuerPathPrefix] at hlength

theorem providerIdOfSlug_ne (s : List Char) : providerIdOfSlug s ≠ consoleOauthProviderId := by
  intro h
  have hlength := congrArg List.length h
  simp [providerIdOfSlug] at hlength

theorem same_issuer (hi : consoleProviderIdFor b i = some id) (hj : consoleProviderIdFor b j = some id) :
    i = j ∨ (IsIncumbent b i ∧ IsIncumbent b j) := by
  rcases consoleProviderIdFor_cases hi with ⟨hincumbent, rfl⟩ | ⟨s, -, rfl, rfl⟩
  · rcases consoleProviderIdFor_cases hj with ⟨hincumbent', -⟩ | ⟨s, -, -, heq⟩
    · exact Or.inr ⟨hincumbent, hincumbent'⟩
    · exact absurd heq.symm (providerIdOfSlug_ne s)
  · rcases consoleProviderIdFor_cases hj with ⟨-, heq⟩ | ⟨t, -, rfl, heq⟩
    · exact absurd heq (providerIdOfSlug_ne s)
    · have : s = t := (List.cons.inj (List.append_cancel_left heq)).2
      exact Or.inl (congrArg (issuerOfSlug b) this)

/-! ## Sessions -/

theorem providerId_of_resolved {configs : List (ResolvedAuthConfig b)} {session : SessionWithProvider}
    {config : ResolvedAuthConfig b} (h : resolveSessionProviderIn configs session = .ok config) :
    config ∈ configs ∧ session.providerId = some config.providerId := by
  unfold resolveSessionProviderIn sessionProviderId at h
  cases hstamped : session.providerId with
  | none => rw [hstamped] at h; exact absurd h (by simp)
  | some stamped =>
    rw [hstamped] at h
    cases stamped with
    | nil => exact absurd h (by simp)
    | cons c rest =>
      simp only at h
      split at h
      · exact absurd h (by simp)
      · next found hfind =>
        obtain rfl := Except.ok.inj h
        have hid := List.find?_some hfind
        exact ⟨List.mem_of_find?_eq_some hfind, congrArg some (of_decide_eq_true hid).symm⟩

/-- What the provider ids of a console with the issuer `b` say. -/
structure NamesOneIssuer (b : List Char) : Prop where
  /-- One id, one issuer. -/
  injective : ∀ i j id, consoleProviderIdFor b i = some id → consoleProviderIdFor b j = some id →
    i = j ∨ (IsIncumbent b i ∧ IsIncumbent b j)
  /-- A slug goes to an issuer and from there to the id that is made of it. -/
  slug : ∀ s, isProviderSlug s = true →
    ∃ issuer, consoleIssuerForSlug b s = .ok issuer ∧
        consoleProviderIdFor b issuer = some (providerIdOfSlug s)
  /-- A session that is stamped with the id of an issuer gets the configuration of this issuer. -/
  session : ∀ (configs : List (ResolvedAuthConfig b)) (session : SessionWithProvider) (i id : List Char)
    (config : ResolvedAuthConfig b), session.providerId = some id → consoleProviderIdFor b i = some id →
    resolveSessionProviderIn configs session = .ok config →
    config.consoleIssuer = i ∨ (IsIncumbent b config.consoleIssuer ∧ IsIncumbent b i)

/-- **An id names one issuer, up to one trailing slash on the issuer of the console itself.** -/
theorem namesOneIssuer (b : List Char) : NamesOneIssuer b where
  injective _ _ _ hi hj := same_issuer hi hj
  slug s hs := by
    refine ⟨issuerOfSlug b s, ?_, consoleProviderIdFor_slug b hs⟩
    rw [consoleIssuerForSlug, hs]
    rfl
  session configs session i id config hstamped hid hresolved := by
    have hconfig := (providerId_of_resolved hresolved).2
    rw [hstamped] at hconfig
    exact same_issuer (config.derived.trans hconfig.symm) hid

namespace Sample

def console : List Char :=
  "https://console.example".toList

def consoleSlash : List Char :=
  "https://console.example/".toList

/-- A configuration with the issuer of the console, as it is spelled there. -/
def incumbent : ResolvedAuthConfig console where
  providerId := consoleOauthProviderId
  consoleIssuer := console
  trustedJwtIssuerId := "issuer-1"
  method := .genericOidc
  moiraProviderId := "provider-1"
  moiraProviderVersion := 1
  issuer := none
  discoveryUrl := some "https://idp.example/.well-known/openid-configuration"
  authorizationUrl := none
  tokenUrl := none
  userInfoUrl := none
  clientId := "client"
  clientSecret := "secret"
  scopes := []
  allowedEmailDomains := ["example.com"]
  derived := by decide

def stamped : SessionWithProvider where
  id := "session-1"
  providerId := some consoleOauthProviderId

end Sample

open Sample in
/-- The two spellings of the issuer of the console have one id, and a session that is stamped with
it gets the configuration of either. -/
theorem slash_same_id :
    consoleProviderIdFor console console = some consoleOauthProviderId ∧
      consoleProviderIdFor console consoleSlash = some consoleOauthProviderId ∧ console ≠ consoleSlash ∧
      (resolveSessionProviderIn [incumbent] stamped).map (·.consoleIssuer) = .ok console :=
  ⟨by decide, by decide, by decide, rfl⟩

open Identity (rsplitOnce emailDomain toAsciiLowercase evaluateClaimPolicy)
open Text (trimmed)

/-! ## Cutting at the last separator -/

section Cut

variable {l d text : List Char}

theorem rsplitOnce_eq_none : rsplitOnce c text = none ↔ c ∉ text := by
  induction text with
  | nil => simp [rsplitOnce]
  | cons e rest ih =>
    rw [rsplitOnce, List.mem_cons, not_or, ← ih]
    cases hrest : rsplitOnce c rest with
    | some cut => simp
    | none =>
      by_cases he : e = c
      · simp [he]
      · simp [he, Ne.symm he]

theorem rsplitOnce_append (hd : c ∉ d) (l : List Char) : rsplitOnce c (l ++ c :: d) = some (l, d) := by
  induction l with
  | nil =>
    rw [List.nil_append, rsplitOnce, rsplitOnce_eq_none.mpr hd]
    simp
  | cons e l ih => rw [List.cons_append, rsplitOnce, ih]

theorem rsplitOnce_eq_some : rsplitOnce c text = some (l, d) ↔ text = l ++ c :: d ∧ c ∉ d := by
  constructor
  · intro h
    induction text generalizing l with
    | nil => simp [rsplitOnce] at h
    | cons e rest ih =>
      rw [rsplitOnce] at h
      cases hrest : rsplitOnce c rest with
      | some cut =>
        obtain ⟨before, after⟩ := cut
        rw [hrest] at h
        obtain ⟨rfl, rfl⟩ := Prod.mk.inj (Option.some.inj h)
        obtain ⟨rfl, hd⟩ := ih hrest
        exact ⟨rfl, hd⟩
      | none =>
        rw [hrest] at h
        by_cases he : e = c
        · simp only [he, if_true] at h
          obtain ⟨rfl, rfl⟩ := Prod.mk.inj (Option.some.inj h)
          exact ⟨by rw [he, List.nil_append], rsplitOnce_eq_none.mp hrest⟩
        · simp [he] at h
  · rintro ⟨rfl, hd⟩
    exact rsplitOnce_append hd l

end Cut

/-! ## What each side admits -/

variable {lower : List Char → List Char} {email : String} {domains : List String} {l d text : List Char}

/-- The parts of an address before and after its last `@`. -/
structure Parts (email : String) (l d : List Char) : Prop where
  cut : email.toList = l ++ '@' :: d
  last : '@' ∉ d

/-- What a domain is compared by in the claim of a grant: without the blanks around it, in ASCII
lower case. -/
def asciiKey (text : List Char) : List Char :=
  (trimmed isWhiteSpace text).map Char.toLower

def IsBlank (text : List Char) : Prop :=
  ∀ c ∈ text, isWhiteSpace c = true

instance (text : List Char) : Decidable (IsBlank text) :=
  List.decidableBAll _ _

theorem trimmed_eq_nil_iff : trimmed isWhiteSpace text = [] ↔ IsBlank text := by
  constructor
  · exact Text.all_blank_of_trimmed_nil
  · intro h
    rw [trimmed, List.dropWhile_eq_nil_iff.mpr h]
    rfl

theorem toList_trim (s : String) : (trim s).toList = trimmed isWhiteSpace s.toList := by
  rw [trim, String.toList_ofList]
  rfl

theorem toAsciiLowercase_trim (s : String) : (toAsciiLowercase (trim s)).toList = asciiKey s.toList := by
  rw [toAsciiLowercase, String.toList_map, toList_trim]
  rfl

theorem Parts.unique {l' d' : List Char} (h : Parts email l d) (h' : Parts email l' d') :
    l = l' ∧ d = d' := by
  have hsplit := rsplitOnce_eq_some.mpr ⟨h.cut, h.last⟩
  rw [rsplitOnce_eq_some.mpr ⟨h'.cut, h'.last⟩] at hsplit
  obtain ⟨rfl, rfl⟩ := Prod.mk.inj (Option.some.inj hsplit)
  exact ⟨rfl, rfl⟩

/-- What the console admits. -/
theorem isEmailDomainAllowed_iff :
    isEmailDomainAllowed lower email.toList (domains.map String.toList) = true ↔
      ∃ l d, Parts email l d ∧ l ≠ [] ∧ d ≠ [] ∧ ∃ a ∈ domains, lower a.toList = lower d := by
  unfold isEmailDomainAllowed
  cases hsplit : rsplitOnce '@' email.toList with
  | none =>
    constructor
    · intro h
      split at h <;> exact absurd h (by simp)
    · rintro ⟨l, d, hparts, -⟩
      rw [rsplitOnce_eq_some.mpr ⟨hparts.cut, hparts.last⟩] at hsplit
      exact absurd hsplit (by simp)
  | some cut =>
    obtain ⟨l, d⟩ := cut
    have hcut := rsplitOnce_eq_some.mp hsplit
    have hparts : Parts email l d := ⟨hcut.1, hcut.2⟩
    constructor
    · intro h
      split at h
      · exact absurd h (by simp)
      · simp only at h
        split at h
        · exact absurd h (by simp)
        · next hempty =>
          simp only [Bool.or_eq_true, List.isEmpty_iff, not_or] at hempty
          obtain ⟨key, hkey, heq⟩ := List.any_eq_true.mp h
          obtain ⟨a, ha, rfl⟩ := List.mem_map.mp hkey
          exact ⟨l, d, hparts, hempty.1, hempty.2, a, ha, of_decide_eq_true heq⟩
    · rintro ⟨l', d', hparts', hl, hd, a, ha, heq⟩
      obtain ⟨rfl, rfl⟩ := hparts.unique hparts'
      have hdomains : (domains.map String.toList).isEmpty = false := by
        rw [List.isEmpty_eq_false_iff]
        exact List.ne_nil_of_mem (List.mem_map_of_mem ha)
      have hl' : l.isEmpty = false := List.isEmpty_eq_false_iff.mpr hl
      have hd' : d.isEmpty = false := List.isEmpty_eq_false_iff.mpr hd
      simp only [hdomains, hl', hd', Bool.or_false, Bool.false_eq_true, if_false]
      exact List.any_eq_true.mpr ⟨a.toList, List.mem_map_of_mem ha, decide_eq_true heq⟩

theorem rsplitOnce_trim (hparts : Parts email l d) :
    rsplitOnce '@' (trim email).toList = some (l.dropWhile isWhiteSpace, d.rdropWhile isWhiteSpace) := by
  rw [toList_trim, hparts.cut, Text.trimmed_append_cons (by decide)]
  have hdrop := List.rdropWhile_prefix isWhiteSpace d
  exact rsplitOnce_append (fun hmem => hparts.last (hdrop.subset hmem)) _

theorem rsplitOnce_trim_none (h : '@' ∉ email.toList) : rsplitOnce '@' (trim email).toList = none := by
  rw [rsplitOnce_eq_none, toList_trim]
  intro hmem
  have hdrop := List.rdropWhile_prefix isWhiteSpace (email.toList.dropWhile isWhiteSpace)
  exact h ((List.dropWhile_suffix isWhiteSpace).subset (hdrop.subset hmem))

theorem isEmpty_trim (text : List Char) : (trim (String.ofList text)).isEmpty = true ↔ IsBlank text := by
  rw [String.isEmpty_iff, ← String.toList_eq_nil_iff, toList_trim, String.toList_ofList, trimmed_eq_nil_iff]

theorem emailDomain_eq_some {domain : String} :
    emailDomain email = some domain ↔
      ∃ l d, Parts email l d ∧ ¬IsBlank l ∧ ¬IsBlank d ∧ domain.toList = asciiKey d := by
  cases hcut : rsplitOnce '@' email.toList with
  | none =>
    have hnone := rsplitOnce_trim_none (rsplitOnce_eq_none.mp hcut)
    constructor
    · intro h
      rw [emailDomain, hnone] at h
      exact absurd h (by simp)
    · rintro ⟨l, d, hparts, -⟩
      rw [rsplitOnce_eq_some.mpr ⟨hparts.cut, hparts.last⟩] at hcut
      exact absurd hcut (by simp)
  | some cut =>
    obtain ⟨l, d⟩ := cut
    have hparts : Parts email l d := ⟨(rsplitOnce_eq_some.mp hcut).1, (rsplitOnce_eq_some.mp hcut).2⟩
    have hl : IsBlank (l.dropWhile isWhiteSpace) ↔ IsBlank l := by
      rw [← trimmed_eq_nil_iff, Text.trimmed_dropWhile, trimmed_eq_nil_iff]
    have hd : IsBlank (d.rdropWhile isWhiteSpace) ↔ IsBlank d := by
      rw [← trimmed_eq_nil_iff, Text.trimmed_rdropWhile, trimmed_eq_nil_iff]
    have hkey : (toAsciiLowercase (trim (String.ofList (d.rdropWhile isWhiteSpace)))).toList = asciiKey d := by
      rw [toAsciiLowercase_trim, String.toList_ofList, asciiKey, Text.trimmed_rdropWhile, asciiKey]
    have hcond : ((trim (String.ofList (l.dropWhile isWhiteSpace))).isEmpty ||
        (trim (String.ofList (d.rdropWhile isWhiteSpace))).isEmpty) = true ↔ IsBlank l ∨ IsBlank d := by
      rw [Bool.or_eq_true, isEmpty_trim, isEmpty_trim, hl, hd]
    rw [emailDomain, rsplitOnce_trim hparts]
    constructor
    · intro h
      simp only at h
      split at h
      · exact absurd h (by simp)
      · next hblank =>
        rw [hcond, not_or] at hblank
        obtain rfl := Option.some.inj h
        exact ⟨l, d, hparts, hblank.1, hblank.2, hkey⟩
    · rintro ⟨l', d', hparts', hl', hd', hdomain⟩
      obtain ⟨rfl, rfl⟩ := hparts.unique hparts'
      simp only
      rw [if_neg (hcond.not.mpr (not_or.mpr ⟨hl', hd'⟩))]
      exact congrArg some (String.toList_inj.mp (hkey.trans hdomain.symm))

/-- What the claim of a grant admits. -/
theorem evaluateClaimPolicy_iff (id : Uuid) :
    evaluateClaimPolicy email true (some ⟨id, domains⟩) = .ok () ↔
      ∃ l d, Parts email l d ∧ ¬IsBlank l ∧ ¬IsBlank d ∧ ∃ a ∈ domains, asciiKey a.toList = asciiKey d := by
  have hsame : ∀ (a : String) (domain : String), toAsciiLowercase (trim a) = domain ↔
      asciiKey a.toList = domain.toList := by
    intro a domain
    rw [← toAsciiLowercase_trim, String.toList_inj]
  unfold evaluateClaimPolicy
  simp only [Bool.not_true, Bool.false_eq_true, if_false]
  cases hdomain : emailDomain email with
  | none =>
    constructor
    · intro h
      exact absurd h (by simp)
    · rintro ⟨l, d, hparts, hl, hd, -⟩
      have hsome := emailDomain_eq_some.mpr ⟨l, d, hparts, hl, hd, String.toList_ofList⟩
      rw [hsome] at hdomain
      exact absurd hdomain (by simp)
  | some domain =>
    obtain ⟨l, d, hparts, hl, hd, hkey⟩ := emailDomain_eq_some.mp hdomain
    simp only
    constructor
    · intro h
      split at h
      · next hany =>
        obtain ⟨a, ha, heq⟩ := List.any_eq_true.mp hany
        refine ⟨l, d, hparts, hl, hd, a, ha, ?_⟩
        rw [(hsame a domain).mp (of_decide_eq_true heq), hkey]
      · exact absurd h (by simp)
    · rintro ⟨l', d', hparts', -, -, a, ha, heq⟩
      obtain ⟨rfl, rfl⟩ := hparts.unique hparts'
      have hany : (domains.any fun allowed => toAsciiLowercase (trim allowed) = domain) = true :=
        List.any_eq_true.mpr ⟨a, ha, decide_eq_true ((hsame a domain).mpr (heq.trans hkey.symm))⟩
      rw [if_pos hany]

/-! ## Where the two differ -/

/-- The two answers on an address and a list, of which one is yes and the other no. -/
inductive Disagreement (lower : List Char → List Char) (email : String) (domains : List String) : Prop
  /-- Nothing but blanks stands before or after the last `@`: only the console admits. -/
  | blankPart (l d : List Char) (a : String) (hparts : Parts email l d) (hl : l ≠ []) (hd : d ≠ [])
      (hblank : IsBlank l ∨ IsBlank d) (ha : a ∈ domains) (heq : lower a.toList = lower d)
  /-- An entry has the domain in full lower case, none has it in ASCII lower case: only the console
  admits. -/
  | fullCase (l d : List Char) (a : String) (hparts : Parts email l d) (hl : ¬IsBlank l) (hd : ¬IsBlank d)
      (ha : a ∈ domains) (heq : lower a.toList = lower d)
      (hnone : ∀ other ∈ domains, asciiKey other.toList ≠ asciiKey d)
  /-- An entry has the domain up to the blanks around the two, none has it with its blanks: only the
  claim of a grant admits. -/
  | blanksAround (l d : List Char) (a : String) (hparts : Parts email l d) (hl : ¬IsBlank l)
      (hd : ¬IsBlank d) (ha : a ∈ domains) (heq : asciiKey a.toList = asciiKey d)
      (hnone : ∀ other ∈ domains, lower other.toList ≠ lower d)

theorem ne_nil_of_not_isBlank (h : ¬IsBlank text) : text ≠ [] := by
  rintro rfl
  exact h (List.forall_mem_nil _)

/-- **The console and the claim of a grant give the same answer exactly where there is no
disagreement.** -/
theorem same_answer_iff (lower : List Char → List Char) (email : String) (domains : List String)
    (id : Uuid) :
    (isEmailDomainAllowed lower email.toList (domains.map String.toList) = true ↔
        evaluateClaimPolicy email true (some ⟨id, domains⟩) = .ok ()) ↔
      ¬Disagreement lower email domains := by
  rw [isEmailDomainAllowed_iff, evaluateClaimPolicy_iff]
  constructor
  · rintro hsame (⟨l, d, a, hparts, hl, hd, hblank, ha, heq⟩ | ⟨l, d, a, hparts, hl, hd, ha, heq, hnone⟩ |
      ⟨l, d, a, hparts, hl, hd, ha, heq, hnone⟩)
    · obtain ⟨l', d', hparts', hl', hd', -⟩ := hsame.mp ⟨l, d, hparts, hl, hd, a, ha, heq⟩
      obtain ⟨rfl, rfl⟩ := hparts.unique hparts'
      exact hblank.elim hl' hd'
    · obtain ⟨l', d', hparts', -, -, other, hother, heq'⟩ := hsame.mp
        ⟨l, d, hparts, ne_nil_of_not_isBlank hl, ne_nil_of_not_isBlank hd, a, ha, heq⟩
      obtain ⟨rfl, rfl⟩ := hparts.unique hparts'
      exact hnone other hother heq'
    · obtain ⟨l', d', hparts', -, -, other, hother, heq'⟩ := hsame.mpr ⟨l, d, hparts, hl, hd, a, ha, heq⟩
      obtain ⟨rfl, rfl⟩ := hparts.unique hparts'
      exact hnone other hother heq'
  · intro hno
    constructor
    · rintro ⟨l, d, hparts, hl, hd, a, ha, heq⟩
      have hblank : ¬(IsBlank l ∨ IsBlank d) := fun hblank =>
        hno (.blankPart l d a hparts hl hd hblank ha heq)
      rw [not_or] at hblank
      refine ⟨l, d, hparts, hblank.1, hblank.2, ?_⟩
      by_contra hnone
      push Not at hnone
      exact hno (.fullCase l d a hparts hblank.1 hblank.2 ha heq hnone)
    · rintro ⟨l, d, hparts, hl, hd, a, ha, heq⟩
      refine ⟨l, d, hparts, ne_nil_of_not_isBlank hl, ne_nil_of_not_isBlank hd, ?_⟩
      by_contra hnone
      push Not at hnone
      exact hno (.blanksAround l d a hparts hl hd ha heq hnone)

/-- An ASCII text without blanks. -/
def Plain (text : List Char) : Prop :=
  ∀ c ∈ text, c.toNat < 128 ∧ isWhiteSpace c = false

theorem Plain.asciiKey_eq (h : Plain text) : asciiKey text = text.map Char.toLower := by
  have hdrop : ∀ t : List Char, (∀ c ∈ t, isWhiteSpace c = false) → t.dropWhile isWhiteSpace = t := by
    intro t ht
    cases t with
    | nil => rfl
    | cons c rest => exact List.dropWhile_cons_of_neg (by simp [ht c List.mem_cons_self])
  have hblank : ∀ c ∈ text, isWhiteSpace c = false := fun c hc => (h c hc).2
  rw [asciiKey, trimmed, hdrop text hblank, List.rdropWhile, hdrop text.reverse (by simpa using hblank),
    List.reverse_reverse]

theorem Plain.eq_nil_of_isBlank (h : Plain text) (hblank : IsBlank text) : text = [] := by
  cases text with
  | nil => rfl
  | cons c rest =>
    have hc := hblank c List.mem_cons_self
    rw [(h c List.mem_cons_self).2] at hc
    exact absurd hc (by simp)

/-- **On ASCII addresses and domains without blanks, the console and the claim of a grant agree.**
-/
theorem same_answer_of_plain
    (hlower : ∀ text : List Char, (∀ c ∈ text, c.toNat < 128) → lower text = text.map Char.toLower)
    (hemail : Plain email.toList) (hdomains : ∀ a ∈ domains, Plain a.toList) (id : Uuid) :
    isEmailDomainAllowed lower email.toList (domains.map String.toList) = true ↔
      evaluateClaimPolicy email true (some ⟨id, domains⟩) = .ok () := by
  have hkey : ∀ text, Plain text → lower text = asciiKey text := by
    intro text htext
    rw [hlower text fun c hc => (htext c hc).1, htext.asciiKey_eq]
  have hleft : ∀ l d, Parts email l d → Plain l := fun l d hparts c hc =>
    hemail c (hparts.cut ▸ List.mem_append_left _ hc)
  have hright : ∀ l d, Parts email l d → Plain d := fun l d hparts c hc =>
    hemail c (hparts.cut ▸ List.mem_append_right _ (List.mem_cons_of_mem _ hc))
  rw [isEmailDomainAllowed_iff, evaluateClaimPolicy_iff]
  constructor
  · rintro ⟨l, d, hparts, hl, hd, a, ha, heq⟩
    refine ⟨l, d, hparts, fun hblank => hl ((hleft l d hparts).eq_nil_of_isBlank hblank),
      fun hblank => hd ((hright l d hparts).eq_nil_of_isBlank hblank), a, ha, ?_⟩
    rw [← hkey _ (hdomains a ha), heq, hkey _ (hright l d hparts)]
  · rintro ⟨l, d, hparts, hl, hd, a, ha, heq⟩
    refine ⟨l, d, hparts, ne_nil_of_not_isBlank hl, ne_nil_of_not_isBlank hd, a, ha, ?_⟩
    rw [hkey _ (hdomains a ha), heq, hkey _ (hright l d hparts)]

theorem same_answer_of_plain_mixedCase :
    isEmailDomainAllowed (List.map Char.toLower) "Ada@Example.com".toList (["example.COM"].map String.toList) =
        true ↔ evaluateClaimPolicy "Ada@Example.com" true (some ⟨0, ["example.COM"]⟩) = .ok () := by
  refine same_answer_of_plain (fun _ _ => rfl) ?_ (List.forall_mem_singleton.mpr ?_) 0
  · exact @of_decide_eq_true _ (List.decidableBAll _ _) rfl
  · exact @of_decide_eq_true _ (List.decidableBAll _ _) rfl

/-- A blank behind the address is refused by the console only, a blank local part by the claim only.
-/
theorem answers_differ :
    (isEmailDomainAllowed (List.map Char.toLower) "ada@example.com ".toList (["example.com"].map String.toList) =
          false ∧
        evaluateClaimPolicy "ada@example.com " true (some ⟨0, ["example.com"]⟩) = .ok ()) ∧
      isEmailDomainAllowed (List.map Char.toLower) " @example.com".toList (["example.com"].map String.toList) =
          true ∧
        evaluateClaimPolicy " @example.com" true (some ⟨0, ["example.com"]⟩) ≠ .ok () := by
  refine ⟨⟨by decide +kernel, ?_⟩, by decide +kernel, ?_⟩
  · rw [evaluateClaimPolicy_iff]
    exact ⟨"ada".toList, "example.com ".toList, ⟨rfl, by decide⟩, by decide, by decide, "example.com",
      List.mem_cons_self, by decide⟩
  · rw [ne_eq, evaluateClaimPolicy_iff]
    rintro ⟨l, d, hparts, hl, -⟩
    have hcut : Parts " @example.com" [' '] "example.com".toList := ⟨rfl, by decide⟩
    obtain ⟨rfl, -⟩ := hparts.unique hcut
    exact hl (by decide)

/-! ## Resolution -/

section Resolution

variable {toLowerCase : List Char → List Char} {input : AuthConfigsInput} {row : AuthProviderSettingsRecord}

/-- A text that is there and not empty. -/
def Given (value : Option String) : Prop :=
  ∃ text, value = some text ∧ text ≠ ""

theorem isGiven_iff {value : Option String} : isGiven value = true ↔ Given value := by
  cases value <;> simp [isGiven, Given]

/-- The active issuer that its id stands for: the last one that has it. -/
def LastActive (issuers : List TrustedJwtIssuerRecord) (issuer : TrustedJwtIssuerRecord) : Prop :=
  issuer.status = .active ∧ ∃ front back, issuers = front ++ issuer :: back ∧
    ∀ later ∈ back, later.status = .active → later.id ≠ issuer.id

/-- A row that a human can sign in through. -/
structure Usable (input : AuthConfigsInput) (row : AuthProviderSettingsRecord)
    (trusted : TrustedJwtIssuerRecord) (providerId : List Char) (clientId clientSecret : String) : Prop where
  interactive : row.method = .googleOauth ∨ row.method = .genericOidc ∨ row.method = .githubOauth
  endpoints : Given row.discoveryUrl ∨ Given row.authorizationUrl ∧ Given row.tokenUrl ∧
    (row.method = .githubOauth → Given row.userinfoUrl)
  domains : row.allowedEmailDomains ≠ []
  bound : row.trustedJwtIssuerId = some trusted.id ∧ trusted.id ≠ ""
  issuer : LastActive input.trustedIssuers trusted
  derived : consoleProviderIdFor input.bffIssuerUrl trusted.issuer = some providerId
  client : row.clientId = some clientId ∧ clientId ≠ ""
  inSync : input.sealed row.id = some clientId
  secret : input.secrets row.id = some clientSecret ∧ clientSecret ≠ ""

/-- The configuration of a usable row. -/
structure MadeFrom (toLowerCase : List Char → List Char) (input : AuthConfigsInput)
    (row : AuthProviderSettingsRecord) (config : ResolvedAuthConfig input.bffIssuerUrl) : Prop where
  usable : ∃ trusted : TrustedJwtIssuerRecord, config.trustedJwtIssuerId = trusted.id ∧
    config.consoleIssuer = trusted.issuer ∧
    Usable input row trusted config.providerId config.clientId config.clientSecret
  method : config.method = row.method
  id : config.moiraProviderId = row.id
  version : config.moiraProviderVersion = row.version
  endpoints : config.issuer = row.issuer ∧ config.discoveryUrl = row.discoveryUrl ∧
    config.authorizationUrl = row.authorizationUrl ∧ config.tokenUrl = row.tokenUrl ∧
    config.userInfoUrl = row.userinfoUrl
  scopes : config.scopes = row.requestedScopes
  domains : config.allowedEmailDomains = row.allowedEmailDomains.map fun domain =>
    String.ofList (toLowerCase domain.toList)

theorem isInteractiveMethod_iff {method : Identity.AuthMethod} : isInteractiveMethod method = true ↔
    method = .googleOauth ∨ method = .genericOidc ∨ method = .githubOauth := by
  simp [isInteractiveMethod, or_assoc]

theorem hasUsableEndpoints_iff : hasUsableEndpoints row = true ↔ Given row.discoveryUrl ∨
    Given row.authorizationUrl ∧ Given row.tokenUrl ∧
    (row.method = .githubOauth → Given row.userinfoUrl) := by
  simp only [← isGiven_iff, hasUsableEndpoints]
  cases isGiven row.discoveryUrl <;> cases isGiven row.authorizationUrl <;> cases isGiven row.tokenUrl <;>
    by_cases hmethod : row.method = .githubOauth <;> simp [hmethod]

theorem classifySecretDrift_iff {moiraClientId sealed : Option String} :
    classifySecretDrift moiraClientId sealed = .inSync ↔
      ∃ clientId, (moiraClientId = some clientId ∧ clientId ≠ "") ∧ sealed = some clientId := by
  unfold classifySecretDrift
  cases moiraClientId with
  | none => simp [isGiven]
  | some clientId =>
    by_cases hempty : clientId = ""
    · simp [isGiven, hempty]
    · cases sealed with
      | none => simp [isGiven, hempty]
      | some found => by_cases hsame : clientId = found <;> simp [isGiven, hempty, hsame]

theorem find?_reverse_filter {α : Type} {p q : α → Bool} {l : List α} {a : α} :
    (l.filter p).reverse.find? q = some a ↔
      p a = true ∧ q a = true ∧ ∃ front back, l = front ++ a :: back ∧ ∀ b ∈ back, p b = true →
          q b = false := by
  rw [← List.filter_reverse, List.find?_filter, List.find?_eq_some_iff_append]
  simp only [decide_eq_true_eq, Bool.not_eq_true', decide_eq_false_iff_not, not_and, Bool.not_eq_true, and_assoc]
  refine and_congr_right fun _ => and_congr_right fun _ => ?_
  constructor
  · rintro ⟨back, front, hsplit, hback⟩
    refine ⟨front.reverse, back.reverse, ?_, fun b hb => hback b (List.mem_reverse.mp hb)⟩
    rw [← List.reverse_reverse l, hsplit]
    simp
  · rintro ⟨front, back, rfl, hback⟩
    exact ⟨back.reverse, front.reverse, by simp, fun b hb => hback b (List.mem_reverse.mp hb)⟩

theorem issuersById_iff {id : String} {issuer : TrustedJwtIssuerRecord} :
    input.issuersById id = some issuer ↔ issuer.id = id ∧ LastActive input.trustedIssuers issuer := by
  simp only [AuthConfigsInput.issuersById, find?_reverse_filter, decide_eq_true_eq, decide_eq_false_iff_not,
    LastActive]
  constructor
  · rintro ⟨hactive, rfl, hlast⟩
    exact ⟨rfl, hactive, hlast⟩
  · rintro ⟨rfl, hactive, hlast⟩
    exact ⟨hactive, rfl, hlast⟩

theorem resolveOne_error {problem : AuthConfigProviderProblem}
    (h : resolveOne toLowerCase input row = .error problem) : problem.moiraProviderId = row.id := by
  simp only [resolveOne] at h
  repeat' split at h
  all_goals cases h <;> rfl

theorem resolveOne_ok {config : ResolvedAuthConfig input.bffIssuerUrl}
    (h : resolveOne toLowerCase input row = .ok config) : MadeFrom toLowerCase input row config := by
  simp only [resolveOne] at h
  split at h
  · cases h
  rename_i hmethod
  split at h
  · cases h
  rename_i hendpoints
  split at h
  · cases h
  rename_i hdomains
  split at h
  · cases h
  rename_i hbound
  split at h
  · cases h
  rename_i trusted htrusted
  split at h
  · cases h
  rename_i providerId hderived
  split at h
  · cases h
  rename_i hsecret
  cases h
  simp only [Bool.not_eq_true', Bool.not_eq_false] at hmethod hendpoints hbound
  rw [Bool.or_eq_true, not_or, decide_eq_true_eq, not_not, Bool.not_eq_true', Bool.not_eq_false] at hsecret
  obtain ⟨clientId, hclient, hsealed⟩ := classifySecretDrift_iff.mp hsecret.1
  obtain ⟨secret, hstored, hgiven⟩ := isGiven_iff.mp hsecret.2
  obtain ⟨issuerId, hissuerId, hnamed⟩ := isGiven_iff.mp hbound
  rw [hissuerId] at htrusted
  obtain ⟨rfl, hlast⟩ := issuersById_iff.mp htrusted
  refine ⟨⟨trusted, by rw [hissuerId]; rfl, rfl, ?_⟩, rfl, rfl, rfl, ⟨rfl, rfl, rfl, rfl, rfl⟩, rfl, rfl⟩
  rw [hclient.1, hstored]
  exact
    { interactive := isInteractiveMethod_iff.mp hmethod
      endpoints := hasUsableEndpoints_iff.mp hendpoints
      domains := by simpa using hdomains
      bound := ⟨hissuerId, hnamed⟩
      issuer := hlast
      derived := hderived
      client := hclient
      inSync := hsealed
      secret := ⟨hstored, hgiven⟩ }

/-- A row is made into a configuration where it is usable. -/
theorem resolveOne_of_usable {trusted : TrustedJwtIssuerRecord} {providerId : List Char}
    {clientId clientSecret : String} (h : Usable input row trusted providerId clientId clientSecret) :
    ∃ config, resolveOne toLowerCase input row = .ok config := by
  have htrusted : input.issuersById (row.trustedJwtIssuerId.getD "") = some trusted := by
    rw [h.bound.1]
    exact issuersById_iff.mpr ⟨rfl, h.issuer⟩
  have hdrift := classifySecretDrift_iff.mpr ⟨clientId, h.client, h.inSync⟩
  have hdomains : row.allowedEmailDomains.isEmpty = false := by simpa using h.domains
  simp only [resolveOne, isInteractiveMethod_iff.mpr h.interactive, hasUsableEndpoints_iff.mpr h.endpoints,
    hdomains, isGiven_iff.mpr ⟨_, h.bound⟩, htrusted, hdrift, isGiven_iff.mpr ⟨_, h.secret⟩, Bool.not_true,
    Bool.false_eq_true, if_false, ne_eq, not_true_eq_false, decide_false, Bool.or_false]
  split
  · next hnone => exact nomatch hnone.symm.trans h.derived
  · exact ⟨_, rfl⟩

theorem resolved_ids {pick : Except AuthConfigProviderProblem (ResolvedAuthConfig input.bffIssuerUrl) →
      Option AuthConfigProviderProblem} (herror : ∀ problem, pick (.error problem) = some problem)
    (hok : ∀ config, pick (.ok config) = none) (rows : List AuthProviderSettingsRecord) :
    (((rows.map (resolveOne toLowerCase input)).filterMap Except.toOption).map (·.moiraProviderId) ++
      ((rows.map (resolveOne toLowerCase input)).filterMap pick).map (·.moiraProviderId)).Perm
        (rows.map (·.id)) := by
  induction rows with
  | nil => exact .nil
  | cons row rows ih =>
    cases hrow : resolveOne toLowerCase input row with
    | error problem =>
      simp only [List.map_cons, hrow, List.filterMap_cons, Except.toOption, herror, resolveOne_error hrow]
      exact List.perm_middle.trans (ih.cons _)
    | ok config =>
      simp only [List.map_cons, hrow, List.filterMap_cons, Except.toOption, hok, (resolveOne_ok hrow).id]
      exact ih.cons _

/-- How the enabled rows are accounted for. -/
inductive Accounts (toLowerCase : List Char → List Char) (input : AuthConfigsInput) :
    AuthConfigsResolution input.bffIssuerUrl → Prop
  /-- Each is made into a configuration or is a problem; the configurations are those of the usable
  rows. -/
  | resolved {configs : List (ResolvedAuthConfig input.bffIssuerUrl)} {problems : List AuthConfigProviderProblem}
      (ids : (configs.map (·.moiraProviderId) ++ problems.map (·.moiraProviderId)).Perm
        (input.enabledRows.map (·.id))) (some : configs ≠ [])
      (made : ∀ config ∈ configs, ∃ row ∈ input.enabledRows, MadeFrom toLowerCase input row config)
      (all : ∀ row ∈ input.enabledRows, ∀ {trusted providerId clientId clientSecret},
        Usable input row trusted providerId clientId clientSecret →
          ∃ config ∈ configs, MadeFrom toLowerCase input row config) :
      Accounts toLowerCase input (.ok configs problems)
  | none (h : input.enabledRows = []) : Accounts toLowerCase input (.failure .noEnabledProvider none)
  /-- None is usable; the failure is that of the least id. -/
  | refused {first : AuthProviderSettingsRecord} {problem : AuthConfigProviderProblem}
      (hfirst : first ∈ input.enabledRows) (least : ∀ row ∈ input.enabledRows, first.id ≤ row.id)
      (refused : ∀ row ∈ input.enabledRows, ∀ trusted providerId clientId clientSecret,
        ¬Usable input row trusted providerId clientId clientSecret)
      (h : resolveOne toLowerCase input first = .error problem) :
      Accounts toLowerCase input (.failure problem.problem problem.drift)

/-- **Every enabled row is accounted for**, and what can be signed in through is usable. -/
theorem resolveAuthConfigs_accounts (toLowerCase : List Char → List Char) (input : AuthConfigsInput) :
    Accounts toLowerCase input (resolveAuthConfigs toLowerCase input) := by
  unfold resolveAuthConfigs
  split
  · next hnone => exact .none (List.isEmpty_iff.mp hnone)
  · next hsome =>
    have hperm := List.mergeSort_perm input.enabledRows fun a b => a.id ≤ b.id
    have hsorted : (input.enabledRows.mergeSort fun a b => a.id ≤ b.id).Pairwise fun a b => a.id ≤ b.id := by
      refine (List.pairwise_mergeSort (fun a b c hab hbc => ?_) (fun a b => ?_) _).imp of_decide_eq_true
      · exact decide_eq_true (String.le_trans (of_decide_eq_true hab) (of_decide_eq_true hbc))
      · simpa using String.le_total a.id b.id
    dsimp only
    generalize (input.enabledRows.mergeSort fun a b => a.id ≤ b.id) = sorted at hperm hsorted
    have hmade : ∀ row ∈ sorted, ∀ config, resolveOne toLowerCase input row = .ok config →
        config ∈ (sorted.map (resolveOne toLowerCase input)).filterMap Except.toOption := fun row hrow config hok =>
      List.mem_filterMap.mpr ⟨_, List.mem_map_of_mem hrow, by rw [hok]; rfl⟩
    split
    · next hconfigs =>
      have hnone : ∀ row ∈ sorted, ∀ config, resolveOne toLowerCase input row ≠ .ok config := by
        intro row hrow config hok
        have hmem := hmade row hrow config hok
        rw [List.isEmpty_iff.mp hconfigs] at hmem
        exact List.not_mem_nil hmem
      cases sorted with
      | nil => exact absurd hperm.symm.eq_nil (by simpa using hsome)
      | cons first rest =>
        cases hfirst : resolveOne toLowerCase input first with
        | ok config => exact absurd hfirst (hnone first List.mem_cons_self config)
        | error problem =>
          simp only [List.map_cons, hfirst, List.filterMap_cons, List.head?_cons]
          refine .refused (hperm.mem_iff.mp List.mem_cons_self) (fun row hrow => ?_)
            (fun row hrow trusted providerId clientId clientSecret husable => ?_) hfirst
          · rcases List.mem_cons.mp (hperm.mem_iff.mpr hrow) with rfl | hrest
            · exact String.le_refl _
            · exact List.rel_of_pairwise_cons hsorted hrest
          · obtain ⟨config, hok⟩ : ∃ config, resolveOne toLowerCase input row = .ok config :=
            resolveOne_of_usable husable
            exact hnone row (hperm.mem_iff.mpr hrow) config hok
    · next hconfigs =>
      refine .resolved ((resolved_ids (fun _ => rfl) (fun _ => rfl) sorted).trans (hperm.map _))
        (by simpa using hconfigs) (fun config hconfig => ?_)
        fun row hrow trusted providerId clientId clientSecret husable => ?_
      · obtain ⟨result, hresult, hok⟩ := List.mem_filterMap.mp hconfig
        obtain ⟨row, hrow, rfl⟩ := List.mem_map.mp hresult
        cases hresolved : resolveOne toLowerCase input row with
        | error problem => rw [hresolved] at hok; cases hok
        | ok found =>
          rw [hresolved] at hok
          cases hok
          exact ⟨row, hperm.mem_iff.mp hrow, resolveOne_ok hresolved⟩
      · obtain ⟨config, hok⟩ : ∃ config, resolveOne toLowerCase input row = .ok config :=
          resolveOne_of_usable husable
        exact ⟨config, hmade row (hperm.mem_iff.mpr hrow) config hok, resolveOne_ok hok⟩

end Resolution

end Moira.Console
