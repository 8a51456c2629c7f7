import Moira.Execution.Types
import Moira.Lib.Ip
import Moira.Lib.Text

/-!
# Addresses that may be called

A decrypted credential is sent to the address of its provider, so the address is checked where it is
written and where it is used.

The URL parser and the resolver are parameters.
-/

namespace Moira

namespace Ssrf

open Net

def isDeniedIpv4 (ip : Ipv4Addr) : Bool :=
  ip.isUnspecified || ip.isLoopback || ip.isPrivate || ip.isLinkLocal || ip.isMulticast || ip.isBroadcast ||
    -- "this network"
    ip.a = 0 ||
    -- carrier-grade NAT
    (ip.a = 100 && 64 ≤ ip.b && ip.b ≤ 127) ||
    -- protocol assignments, and the deprecated 6to4 relays
    (ip.a = 192 && ip.b = 0 && ip.c = 0) || (ip.a = 192 && ip.b = 88 && ip.c = 99) ||
    -- benchmarking
    (ip.a = 198 && (ip.b = 18 || ip.b = 19)) ||
    -- reserved
    240 ≤ ip.a

/-- The positions of the four octets, and the first octet of the suffix. -/
def layouts : List ((Fin 16 × Fin 16 × Fin 16 × Fin 16) × Nat) :=
  [((4, 5, 6, 7), 9), ((5, 6, 7, 9), 10), ((6, 7, 9, 10), 11), ((7, 9, 10, 11), 12), ((9, 10, 11, 12), 13)]

def zeroFrom (ip : Ipv6Addr) (suffixStart : Nat) : Bool :=
  (List.finRange 16).all fun i => i.val < suffixStart || ip.octet i = 0

/-- Every IPv4 address that an IPv6 address can be carrying, beyond the forms of the standard
library. -/
def embeddedIpv4Addresses (ip : Ipv6Addr) : List Ipv4Addr :=
  let o := ip.octet
  -- `::ffff:0:0:0/96`
  (if ip.segments.take 6 = [0, 0, 0, 0, 0xffff, 0] then [ip.lastIpv4] else []) ++
  -- `2002::/16`
  (if ip.segment 0 = 0x2002 then [⟨o 2, o 3, o 4, o 5⟩] else []) ++
  -- `64:ff9b::/32`
  (if ip.segment 0 = 0x64 ∧ ip.segment 1 = 0xff9b then
    ip.lastIpv4 ::
      (if o 8 = 0 then
        (layouts.filter fun (_, suffixStart) => zeroFrom ip suffixStart).map fun ((i, j, k, l), _) =>
          ⟨o i, o j, o k, o l⟩
      else [])
  else [])

def isDeniedIpv6 (ip : Ipv6Addr) : Bool :=
  if ip.isUnspecified || ip.isLoopback || ip.isMulticast then true
  else
    match ip.toIpv4Mapped with
    | some v4 => isDeniedIpv4 v4
    | none =>
      match ip.toIpv4 with
      | some v4 => isDeniedIpv4 v4
      | none =>
        (embeddedIpv4Addresses ip).any isDeniedIpv4 ||
          -- unique local, link-local, site-local
          ip.segment 0 &&& 0xfe00 = 0xfc00 || ip.segment 0 &&& 0xffc0 = 0xfe80 || ip.segment 0 &&& 0xffc0 = 0xfec0

/-- The ranges, and the IPv4 addresses that IPv6 ones carry. -/
def isDeniedIp : IpAddr → Bool
  | .v4 ip => isDeniedIpv4 ip
  | .v6 ip => isDeniedIpv6 ip

end Ssrf

namespace ProviderEndpoint

open Net

/-! ## URLs -/

inductive Host
  | domain (name : List Char)
  | ipv4 (ip : Ipv4Addr)
  | ipv6 (ip : Ipv6Addr)

/-- The parts of a URL that are looked at. -/
structure ParsedUrl where
  scheme : String
  username : List Char := []
  password : Option (List Char) := none
  host : Option Host
  port : Option Nat := none

/-- A URL with one of the schemes that have a host in the sense of addresses. -/
def ParsedUrl.IsSpecial (url : ParsedUrl) : Prop :=
  url.scheme = "https" ∨ url.scheme = "http"

/-- The parser of the crate `url`, and its text of an IPv6 host. -/
structure UrlParser where
  parse : List Char → Except String ParsedUrl
  ipv6Text : Ipv6Addr → List Char
  /-- What is an address is not a domain, and brackets are not part of one. -/
  domain_spec : ∀ text url name, parse text = .ok url → url.IsSpecial → url.host = some (.domain name) →
    readIp name = none ∧ '[' ∉ name
  /-- The text of an IPv6 host is read as this address. -/
  ipv6_spec : ∀ text url ip, parse text = .ok url → url.IsSpecial → url.host = some (.ipv6 ip) →
    readIp (ipv6Text ip) = some (.v6 ip)

variable (parser : UrlParser)

/-- `Url::host_str` -/
def UrlParser.hostStr : Host → List Char
  | .domain name => name
  | .ipv4 ip => ip.toText
  | .ipv6 ip => '[' :: (parser.ipv6Text ip ++ [']'])

/-! ## Hosts -/

/-- `str::to_ascii_lowercase` -/
def lowercase (text : List Char) : List Char :=
  text.map Char.toLower

/-- The texts that stand for the metadata service of a cloud. -/
def cloudMetadataHosts : List (List Char) :=
  ["169.254.169.254".toList, "metadata.google.internal".toList, "metadata".toList, "instance-data".toList,
    "100.100.100.200".toList]

def isCloudMetadataHost (host : List Char) : Bool :=
  cloudMetadataHosts.contains (lowercase host)

/-- `fe80::/10` -/
def isIpv6UnicastLinkLocal (ip : Ipv6Addr) : Bool :=
  ip.segment 0 &&& 0xffc0 = 0xfe80

def isForbiddenIp : IpAddr → Bool
  | .v4 ip =>
    ip.isPrivate || ip.isLoopback || ip.isLinkLocal || ip.isUnspecified || ip.isBroadcast || ip.isMulticast ||
      ip = ⟨0, 0, 0, 0⟩
  | .v6 ip =>
    ip.isLoopback || ip.isUnspecified || ip.isUniqueLocal || isIpv6UnicastLinkLocal ip || ip.isMulticast

/-- The text between brackets, or the text itself. -/
def stripBrackets (host : List Char) : List Char :=
  match host with
  | '[' :: rest => if rest.getLast? = some ']' then rest.dropLast else host
  | _ => host

def isPrivateHost (host : List Char) : Bool :=
  let lower := lowercase host
  if lower = "localhost".toList || ".localhost".toList.isSuffixOf lower then true
  else (readIp (stripBrackets host)).any isForbiddenIp

/-! ## The shape -/

inductive ProviderEndpointDenial
  | unparseable (error : String)
  | scheme
  | credentials
  | noHost
  | cloudMetadata
  | privateAddress

/-- `trim` and `trim_end_matches('/')` -/
def trimEndpoint (value : List Char) : List Char :=
  (Text.trimmed isWhiteSpace value).rdropWhile (· = '/')

variable (value : List Char) (allowPrivate allowHttp : Bool)

/-- `none` is nothing to refuse without a lookup. -/
def providerEndpointShapeDenial : Option ProviderEndpointDenial :=
  match parser.parse (trimEndpoint value) with
  | .error error => some (.unparseable error)
  | .ok parsed =>
    if !(parsed.scheme = "https" || (parsed.scheme = "http" && allowHttp)) then some .scheme
    else if parsed.username ≠ [] || parsed.password.isSome then some .credentials
    else
      match parsed.host with
      | none => some .noHost
      | some host =>
        if isCloudMetadataHost (parser.hostStr host) then some .cloudMetadata
        else if !allowPrivate && isPrivateHost (parser.hostStr host) then some .privateAddress
        else none

/-! ## The write path -/

/-- `resolve` answers a host and a port with addresses, or fails. -/
def resolvesToForbiddenIp (resolve : List Char → Nat → Option (List IpAddr)) (host : List Char)
    (parsed : ParsedUrl) : Bool :=
  if (readIp host).isSome then false
  else
    let knownDefault := if parsed.scheme = "http" then some 80 else if parsed.scheme = "https" then some 443 else none
    let port := (parsed.port.or knownDefault).getD 443
    match resolve host port with
    | some addresses => addresses.any isForbiddenIp
    | none => false

def denialError (label : String) : ProviderEndpointDenial → AppError
  | .unparseable error => .badRequest ("invalid provider " ++ label ++ ": " ++ error)
  | .scheme => .badRequest ("provider " ++ label ++ " must use https unless HTTP is explicitly allowed")
  | .credentials => .badRequest ("provider " ++ label ++ " must not contain credentials")
  | .noHost => .badRequest ("provider " ++ label ++ " must include a host")
  | .cloudMetadata =>
    .coded 422 "provider_url_not_allowed" ("provider " ++ label ++ " targets a cloud metadata endpoint")
  | .privateAddress =>
    .badRequest ("provider " ++ label ++ " host is private, loopback, link-local, or otherwise unsafe")

/-- The value that is stored. -/
def validateProviderEndpoint (resolve : List Char → Nat → Option (List IpAddr)) (label : String) :
    Except AppError (List Char) :=
  let trimmed := trimEndpoint value
  match providerEndpointShapeDenial parser trimmed allowPrivate allowHttp with
  | some denial => .error (denialError label denial)
  | none =>
    match parser.parse trimmed with
    | .error error => .error (denialError label (.unparseable error))
    | .ok parsed =>
      match parsed.host with
      | none => .error (denialError label .noHost)
      | some host =>
        if !allowPrivate && resolvesToForbiddenIp resolve (parser.hostStr host) parsed then
          .error (denialError label .privateAddress)
        else .ok trimmed

/-! ## The use -/

/-- The part of the address policy that a deployment waives. -/
structure ProviderEndpointPolicy where
  allowPrivate : Bool := false
  allowHttp : Bool := false

/-- The check before the credential is sent. -/
def ProviderEndpointPolicy.permits (policy : ProviderEndpointPolicy) (value : List Char) :
    Except ProviderEndpointDenial Unit :=
  match providerEndpointShapeDenial parser value policy.allowPrivate policy.allowHttp with
  | some denial => .error denial
  | none => .ok ()

end ProviderEndpoint

end Moira
