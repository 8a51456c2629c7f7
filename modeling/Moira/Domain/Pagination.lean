import Mathlib.Data.Prod.Lex
import Moira.Lib.Base64
import Moira.Lib.Rows
import Moira.Execution.Types

/-!
# List cursors and pages

An opaque cursor is the sort key of the last row of a page, with a tag over the key, its kind and
the scope of the list. A list over-fetches by one row to learn whether there is another page.

- `adminList`, `runtimeList` — one page of a list, from the request to the response
-/

namespace Moira.Pagination

/-! ## Timestamps -/

/-- A `DateTime<Utc>` without leap seconds, in nanoseconds since the epoch; the bounds are those of
`DateTime::MIN_UTC` and `DateTime::MAX_UTC`. -/
structure DateTime where
  nanos : Int
  lower : -8334601228800000000000 ≤ nanos
  upper : nanos ≤ 8210266876799999999999
  deriving DecidableEq

namespace DateTime

def timestampMicros (t : DateTime) : Int64 :=
  Int64.ofInt (t.nanos / 1000)

def fromTimestampMicros (micros : Int64) : Option DateTime :=
  if h : -8334601228800000000000 ≤ micros.toInt * 1000 ∧ micros.toInt * 1000 ≤ 8210266876799999999999 then
    some ⟨micros.toInt * 1000, h.1, h.2⟩
  else none

def WholeMicros (t : DateTime) : Prop :=
  t.nanos % 1000 = 0

end DateTime

/-- `i64::to_be_bytes` -/
def beBytes (n : Int64) : Bytes :=
  Bytes.be 8 n.toUInt64.toNat

/-- `i64::from_be_bytes` -/
def ofBeBytes (bytes : Bytes) : Int64 :=
  (UInt64.ofNat (Bytes.ofBe bytes)).toInt64

/-! ## The tag -/

def cursorFormatVersion : UInt8 := 1
def kindList : UInt8 := 1
def kindSeq : UInt8 := 2
def headerLen : Nat := 2
def listBodyLen : Nat := 24
def seqBodyLen : Nat := 8
def tagLen : Nat := 16
def scopeSeparator : UInt8 := 0xff
def maxEncodedLen : Nat := 128

def invalidCursor : AppError :=
  .coded 400 "invalid_cursor" "The pagination cursor is invalid."

/-- The label of a list. -/
structure CursorScope where
  label : String
  deriving DecidableEq

/-- HMAC-SHA-256 under the fixed key, cut to the length of a tag. -/
structure CursorMac where
  tag : Bytes → Bytes
  length_tag : ∀ message, (tag message).length = tagLen

/-- The tags of the messages in `inputs` are all different: what is expected of the MAC on the
messages it is used on. -/
def CursorMac.Separates (mac : CursorMac) (inputs : Set Bytes) : Prop :=
  ∀ m ∈ inputs, ∀ m' ∈ inputs, mac.tag m = mac.tag m' → m = m'

/-- What the tag is over. -/
def macInput (signed : Bytes) (scope : CursorScope) : Bytes :=
  signed ++ scopeSeparator :: scope.label.toUTF8.data.toList

def finish (mac : CursorMac) (signed : Bytes) (scope : CursorScope) : String :=
  String.ofList (Base64.encode Base64.urlSafe (signed ++ mac.tag (macInput signed scope)))

def verifiedBody (mac : CursorMac) (raw : String) (kind : UInt8) (bodyLen : Nat) (scope : CursorScope) :
    Except AppError Bytes :=
  if raw.isEmpty || raw.utf8ByteSize > maxEncodedLen then .error invalidCursor
  else match Base64.decode Base64.urlSafe raw.toList with
    | none => .error invalidCursor
    | some bytes =>
      if bytes.length ≠ headerLen + bodyLen + tagLen then .error invalidCursor
      else if bytes.getD 0 0 ≠ cursorFormatVersion || bytes.getD 1 0 ≠ kind then .error invalidCursor
      else
        let signed := bytes.take (headerLen + bodyLen)
        let tag := bytes.drop (headerLen + bodyLen)
        if tag = mac.tag (macInput signed scope) then .ok (signed.drop headerLen)
        else .error invalidCursor

/-! ## Cursors -/

/-- The sort key of a list ordered by timestamp and id. -/
structure ListCursor where
  ts : DateTime
  id : FixedBytes 16

/-- The sort key of a list ordered by sequence number. -/
structure SeqCursor where
  sequenceNumber : Int64

/-- `raw.map(str::trim).filter(|value| !value.is_empty())`: a blank cursor is none. -/
def presentCursor (raw : Option String) : Option String :=
  (raw.map trim).filter fun value => !value.isEmpty

namespace ListCursor

def signed (c : ListCursor) : Bytes :=
  cursorFormatVersion :: kindList :: (beBytes c.ts.timestampMicros ++ c.id.bytes)

def encode (mac : CursorMac) (scope : CursorScope) (c : ListCursor) : String :=
  finish mac c.signed scope

/-- The last sixteen bytes of a body. -/
def idOf (body : Bytes) : Option (FixedBytes 16) :=
  if h : (Bytes.slice body 8 16).length = 16 then some ⟨Bytes.slice body 8 16, h⟩ else none

def decode (mac : CursorMac) (raw : String) (scope : CursorScope) : Except AppError ListCursor := do
  let body ← verifiedBody mac raw kindList listBodyLen scope
  match DateTime.fromTimestampMicros (ofBeBytes (body.take 8)), idOf body with
  | some ts, some id => return { ts, id }
  | _, _ => .error invalidCursor

def decodeOptional (mac : CursorMac) (raw : Option String) (scope : CursorScope) :
    Except AppError (Option ListCursor) :=
  match presentCursor raw with
  | some value => (decode mac value scope).map some
  | none => .ok none

/-- How PostgreSQL compares `(timestamptz, uuid)`: a uuid by its bytes, the first byte first. -/
def rank (c : ListCursor) : Int ×ₗ Nat :=
  toLex (c.ts.nanos, Bytes.ofBe c.id.bytes)

end ListCursor

namespace SeqCursor

def signed (c : SeqCursor) : Bytes :=
  cursorFormatVersion :: kindSeq :: beBytes c.sequenceNumber

def encode (mac : CursorMac) (scope : CursorScope) (c : SeqCursor) : String :=
  finish mac c.signed scope

def decode (mac : CursorMac) (raw : String) (scope : CursorScope) : Except AppError SeqCursor := do
  let body ← verifiedBody mac raw kindSeq seqBodyLen scope
  return { sequenceNumber := ofBeBytes body }

end SeqCursor

/-! ## Pages -/

/-- `PageQuery::limit`, and the limit of every other list query. -/
def clampLimit (limit : Option Int) : Int :=
  max 1 (min 200 (limit.getD 50))

structure PageRequest where
  limit : Int
  cursor : Option String

def PageRequest.decode (mac : CursorMac) (page : PageRequest) (scope : CursorScope) :
    Except AppError (Option ListCursor) :=
  ListCursor.decodeOptional mac page.cursor scope

structure ListResponse (ρ : Type) where
  data : List ρ
  nextCursor : Option String
  hasMore : Bool

section Lists

variable {ρ : Type} (mac : CursorMac)

/-- `paginate` of the admin services and, over rows with their keys, of the public ones. -/
def paginate (rows : List ρ) (page : PageRequest) (scope : CursorScope) (key : ρ → ListCursor) :
    ListResponse ρ :=
  let limit := page.limit.toNat
  let hasMore := decide (rows.length > limit)
  let data := rows.take limit
  { data, hasMore
    nextCursor := (data.getLast?.filter fun _ => hasMore).map fun row => (key row).encode mac scope }

/-- `paginate_by_created_at` of the runtime admin and the agent platform services. -/
def paginateByCreatedAt (rows : List ρ) (limit : Int) (scope : CursorScope) (key : ρ → ListCursor) :
    ListResponse ρ :=
  let hasMore := decide ((rows.length : Int) > limit)
  let data := if hasMore then rows.take (max limit 0).toNat else rows
  { data, hasMore
    nextCursor := if hasMore then data.getLast?.map fun row => (key row).encode mac scope else none }

def overFetchLimit (limit : Int) : Int :=
  limit + 1

/-- `where .. and (column, id) < ($1, $2) order by column desc, id desc limit $3`, of the rows that
meet the other conditions of the list. -/
def keysetQuery (key : ρ → ListCursor) (visible : ρ → Bool) (table : List ρ)
    (cursor : Option ListCursor) (limit : Int) : List ρ :=
  Rows.top (fun row => OrderDual.toDual (key row).rank) limit.toNat
    (table.filter fun row => visible row && cursor.all fun c => (key row).rank < c.rank)

variable (scope : CursorScope) (key : ρ → ListCursor) (visible : ρ → Bool) (table : List ρ)

def adminList (page : PageRequest) : Except AppError (ListResponse ρ) := do
  let cursor ← page.decode mac scope
  return paginate mac (keysetQuery key visible table cursor (overFetchLimit page.limit)) page scope key

def runtimeList (cursor : Option String) (limit : Int) : Except AppError (ListResponse ρ) := do
  let cursor ← ListCursor.decodeOptional mac cursor scope
  return paginateByCreatedAt mac (keysetQuery key visible table cursor (overFetchLimit limit)) limit scope key

end Lists

/-- The pages of a client that follows `next_cursor` until `has_more` is false. -/
inductive Follows {ρ : Type} (list : Option String → Except AppError (ListResponse ρ)) :
    Option String → List (ListResponse ρ) → Prop
  | last {cursor : Option String} {page : ListResponse ρ} (ask : list cursor = .ok page)
      (done : page.hasMore = false) : Follows list cursor [page]
  | more {cursor : Option String} {page : ListResponse ρ} {pages : List (ListResponse ρ)}
      (ask : list cursor = .ok page) (more : page.hasMore = true)
      (rest : Follows list page.nextCursor pages) : Follows list cursor (page :: pages)

end Moira.Pagination
