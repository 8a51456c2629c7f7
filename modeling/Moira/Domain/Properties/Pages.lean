import Moira.Domain.Properties.Pagination
import Moira.Lib.Ranking

/-!
# Following the pages of a list

- **`pages_visit_all`** — following `next_cursor` visits every row once, newest first
-/

namespace Moira.Pagination

/-! ## The table -/

/-- The content of a list while it is traversed. The id is a primary key, and the sort column is a
`timestamptz`, which holds whole microseconds. -/
structure KeysetTable (ρ : Type) where
  rows : List ρ
  key : ρ → ListCursor
  /-- The other conditions of the list. -/
  visible : ρ → Bool
  unique : rows.Pairwise fun a b => (key a).id ≠ (key b).id
  whole : ∀ row ∈ rows, (key row).ts.WholeMicros

theorem ListCursor.id_eq_of_rank_eq {a b : ListCursor} (h : a.rank = b.rank) : a.id = b.id := by
  have hid : Bytes.ofBe a.id.bytes = Bytes.ofBe b.id.bytes := congrArg (fun r => (ofLex r).2) h
  apply FixedBytes.ext
  rw [← Bytes.be_ofBe a.id.length_bytes, ← Bytes.be_ofBe b.id.length_bytes, hid]

namespace KeysetTable

variable {ρ : Type} (table : KeysetTable ρ)

/-- What the list orders by, downwards. -/
def column (row : ρ) : (Int ×ₗ Nat)ᵒᵈ :=
  OrderDual.toDual (table.key row).rank

def shown : List ρ :=
  table.rows.filter table.visible

/-- The rows of the list, newest first. -/
def newest : List ρ :=
  table.shown.insertionSort fun a b => table.column a ≤ table.column b

theorem distinct_shown : Rows.Distinct table.column table.shown := by
  have hdistinct : Rows.Distinct table.column table.rows := by
    refine table.unique.imp fun {a b} hne hcolumn => hne ?_
    exact ListCursor.id_eq_of_rank_eq (OrderDual.toDual_inj.mp hcolumn)
  exact hdistinct.filter

theorem perm_newest : table.newest.Perm table.shown :=
  List.perm_insertionSort _ _

theorem pairwise_newest : table.newest.Pairwise fun a b => table.column a < table.column b :=
  Rows.pairwise_sorted table.distinct_shown

theorem nodup_newest : table.newest.Nodup :=
  table.pairwise_newest.imp fun hlt heq => absurd (congrArg table.column heq) (ne_of_lt hlt)

theorem whole_of_mem_newest {row : ρ} (h : row ∈ table.newest) : (table.key row).ts.WholeMicros := by
  have hshown := table.perm_newest.mem_iff.mp h
  exact table.whole row (List.mem_filter.mp hshown).1

theorem keysetQuery_none (n : Int) :
    keysetQuery table.key table.visible table.rows none n = table.newest.take n.toNat := by
  simp only [keysetQuery, Option.all_none, Bool.and_true]
  rfl

theorem keysetQuery_some {front rest : List ρ} {last : ρ} (h : table.newest = front ++ last :: rest)
    (n : Int) :
    keysetQuery table.key table.visible table.rows (some (table.key last)) n = rest.take n.toNat := by
  have hfilter : (table.rows.filter fun row => table.visible row &&
      (some (table.key last)).all fun c => decide ((table.key row).rank < c.rank)) =
        table.shown.filter fun row => table.column last < table.column row := by
    rw [shown, List.filter_filter]
    refine List.filter_congr fun row _ => ?_
    rw [Bool.and_comm]
    rfl
  rw [keysetQuery, hfilter]
  exact Rows.top_after table.distinct_shown n.toNat h

end KeysetTable

/-! ## One page -/

section Page

variable {ρ : Type} (mac : CursorMac) (scope : CursorScope) (key : ρ → ListCursor)

theorem filter_true {α : Type} (o : Option α) : (o.filter fun _ => true) = o := by
  cases o <;> rfl

/-- **The two implementations of a page agree** for every limit that is not negative. -/
theorem paginate_eq (rows : List ρ) {limit : Int} (hlimit : 0 ≤ limit) (cursor : Option String) :
    paginateByCreatedAt mac rows limit scope key = paginate mac rows { limit, cursor } scope key := by
  obtain ⟨n, rfl⟩ := Int.eq_ofNat_of_zero_le hlimit
  have hmax : (max (n : Int) 0).toNat = n := by omega
  unfold paginateByCreatedAt paginate
  simp only [Int.toNat_natCast, hmax, gt_iff_lt, Int.ofNat_lt, decide_eq_true_eq]
  by_cases hmore : n < rows.length
  · simp [hmore, filter_true]
  · simp [hmore, List.take_of_length_le (Nat.le_of_not_lt hmore)]

/-- The page at a place of the list, from the rows that remain there. -/
def pageOf (limit : Nat) (rest : List ρ) : ListResponse ρ where
  data := rest.take limit
  hasMore := decide (limit < rest.length)
  nextCursor :=
    if limit < rest.length then (rest.take limit).getLast?.map fun row => (key row).encode mac scope
    else none

theorem paginate_take (rest : List ρ) (limit : Nat) (cursor : Option String) :
    paginate mac (rest.take (limit + 1)) { limit, cursor } scope key = pageOf mac scope key limit rest := by
  unfold paginate pageOf
  have hmore : (limit < (rest.take (limit + 1)).length) = (limit < rest.length) := by
    rw [List.length_take, eq_iff_iff]
    omega
  simp only [Int.toNat_natCast, gt_iff_lt, List.take_take, Nat.min_eq_left (Nat.le_succ limit), hmore]
  by_cases hlt : limit < rest.length
  · simp [hlt, filter_true]
  · simp [hlt]

end Page

/-! ## The cursor on its way -/

theorem isWhiteSpace_digit {c : Char} (h : (Base64.urlSafeValue c).isSome) : isWhiteSpace c = false := by
  have hall : ∀ k < 128, (Base64.urlSafeValue (Char.ofNat k)).isSome →
      isWhiteSpace (Char.ofNat k) = false := by decide
  obtain ⟨n, hn⟩ := Option.isSome_iff_exists.mp h
  have hc := hall c.toNat (Base64.urlSafeValue_lt_128 hn)
  rw [Char.ofNat_toNat] at hc
  exact hc h

theorem trim_digits {text : List Char} (h : ∀ c ∈ text, (Base64.urlSafeValue c).isSome) :
    trim (String.ofList text) = String.ofList text := by
  have hkeep : ∀ l : List Char, (∀ c ∈ l, (Base64.urlSafeValue c).isSome) →
      l.dropWhile isWhiteSpace = l := by
    intro l hl
    cases l with
    | nil => rfl
    | cons c rest =>
      have hc := isWhiteSpace_digit (hl c List.mem_cons_self)
      rw [List.dropWhile_cons_of_neg (by simp [hc])]
  rw [trim, String.toList_ofList, hkeep text h,
    hkeep text.reverse fun c hc => h c (List.mem_reverse.mp hc), List.reverse_reverse]

theorem ListCursor.decodeOptional_encode (mac : CursorMac) (scope : CursorScope) {c : ListCursor}
    (h : c.ts.WholeMicros) :
    ListCursor.decodeOptional mac (some (c.encode mac scope)) scope = .ok (some c) := by
  have htrim : trim (c.encode mac scope) = c.encode mac scope := trim_digits fun _ hc => mem_encode hc
  have hpresent : presentCursor (some (c.encode mac scope)) = some (c.encode mac scope) := by
    unfold presentCursor
    rw [Option.map_some, htrim, Option.filter_some, if_pos]
    rw [ListCursor.encode, ListCursor.signed_eq, finish_ne_empty]
    rfl
  unfold ListCursor.decodeOptional
  rw [hpresent]
  simp only
  rw [ListCursor.decode_encode mac scope h]
  rfl

/-! ## The traversal -/

section Traversal

variable {ρ : Type} (mac : CursorMac) (scope : CursorScope) (table : KeysetTable ρ)

/-- Where a cursor stands: the rows behind it. -/
inductive At : Option String → List ρ → Prop
  | start : At none table.newest
  | after {front rest : List ρ} {last : ρ} (cut : table.newest = front ++ last :: rest) :
      At (some ((table.key last).encode mac scope)) rest

theorem adminList_at {cursor : Option String} {rest : List ρ} (h : At mac scope table cursor rest)
    (limit : Nat) :
    adminList mac scope table.key table.visible table.rows { limit, cursor } =
      .ok (pageOf mac scope table.key limit rest) := by
  have hover : (overFetchLimit (limit : Int)).toNat = limit + 1 := by
    unfold overFetchLimit
    omega
  unfold adminList PageRequest.decode
  cases h with
  | start =>
    rw [← paginate_take mac scope table.key table.newest limit none]
    show Except.ok (paginate mac (keysetQuery table.key table.visible table.rows none _) _ _ _) = _
    rw [table.keysetQuery_none, hover]
  | after cut =>
    rename_i front last
    have hmem : last ∈ table.newest := by
      rw [cut]
      simp
    rw [ListCursor.decodeOptional_encode mac scope (table.whole_of_mem_newest hmem)]
    rw [← paginate_take mac scope table.key rest limit (some ((table.key last).encode mac scope))]
    show Except.ok (paginate mac (keysetQuery table.key table.visible table.rows (some (table.key last)) _)
      _ _ _) = _
    rw [table.keysetQuery_some cut, hover]

theorem At.next {cursor : Option String} {rest : List ρ} {limit : Nat} (h : At mac scope table cursor rest)
    (hpos : 0 < limit) (hmore : limit < rest.length) :
    At mac scope table (pageOf mac scope table.key limit rest).nextCursor (rest.drop limit) := by
  obtain ⟨before, last, htake⟩ : ∃ before last, rest.take limit = before ++ [last] := by
    have hne : rest.take limit ≠ [] := by
      intro hnil
      have hlen := congrArg List.length hnil
      rw [List.length_take, List.length_nil] at hlen
      omega
    exact ⟨_, _, (List.dropLast_concat_getLast hne).symm⟩
  have hnext : (pageOf mac scope table.key limit rest).nextCursor =
      some ((table.key last).encode mac scope) := by
    simp [pageOf, hmore, htake]
  have hrest : rest = before ++ last :: rest.drop limit := by
    conv_lhs => rw [← List.take_append_drop limit rest, htake]
    simp
  rw [hnext]
  cases h with
  | start => exact .after hrest
  | after cut =>
    rename_i front row
    have hcut : table.newest = (front ++ row :: before) ++ last :: rest.drop limit := by
      rw [cut]
      conv_lhs => rw [hrest]
      simp
    exact .after hcut

end Traversal

theorem Follows.unique {ρ : Type} {list : Option String → Except AppError (ListResponse ρ)}
    {cursor : Option String} {pages other : List (ListResponse ρ)} (h : Follows list cursor pages)
    (h' : Follows list cursor other) : other = pages := by
  induction h generalizing other with
  | last ask done =>
    cases h' with
    | last ask' done' =>
      rw [ask] at ask'
      cases ask'
      rfl
    | more ask' more' rest' =>
      rw [ask] at ask'
      cases ask'
      rw [done] at more'
      cases more'
  | more ask more rest ih =>
    cases h' with
    | last ask' done' =>
      rw [ask] at ask'
      cases ask'
      rw [more] at done'
      cases done'
    | more ask' more' rest' =>
      rw [ask] at ask'
      cases ask'
      rw [ih rest']

/-- What a client has received and what it has not, after each page. -/
structure Visits {ρ : Type} (rest : List ρ) (pages : List (ListResponse ρ)) : Prop where
  all : pages.flatMap ListResponse.data = rest
  more : ∀ before page after, pages = before ++ page :: after →
    (page.hasMore = true ↔ after.flatMap ListResponse.data ≠ [])

theorem visits_last {ρ : Type} {page : ListResponse ρ} (hdone : page.hasMore = false) :
    Visits page.data [page] := by
  refine ⟨by simp, fun before other after h => ?_⟩
  cases before with
  | nil =>
    cases h
    simp [hdone]
  | cons first before =>
    exfalso
    have hlen := congrArg List.length h
    simp at hlen

theorem Visits.cons {ρ : Type} {rest : List ρ} {page : ListResponse ρ} {pages : List (ListResponse ρ)}
    (h : Visits rest pages) (hmore : page.hasMore = true) (hrest : rest ≠ []) :
    Visits (page.data ++ rest) (page :: pages) := by
  refine ⟨by rw [List.flatMap_cons, h.all], fun before other after heq => ?_⟩
  cases before with
  | nil =>
    cases heq
    rw [h.all]
    exact iff_of_true hmore hrest
  | cons first before =>
    cases heq
    exact h.more before other after rfl

theorem exists_follows {ρ : Type} (mac : CursorMac) (scope : CursorScope) (table : KeysetTable ρ)
    {limit : Nat} (hpos : 0 < limit) (rest : List ρ) : ∀ cursor, At mac scope table cursor rest →
    ∃ pages, Follows (fun cursor => adminList mac scope table.key table.visible table.rows
      { limit, cursor }) cursor pages ∧ Visits rest pages := by
  -- on the number of rows that remain
  induction hlen : rest.length using Nat.strong_induction_on generalizing rest with
  | _ n ih =>
    intro cursor hat
    have hask := adminList_at mac scope table hat limit
    by_cases hmore : limit < rest.length
    · have hshort : (rest.drop limit).length < n := by
        rw [List.length_drop]
        omega
      obtain ⟨pages, hfollows, hvisits⟩ := ih _ hshort (rest.drop limit) rfl _
        (hat.next mac scope table hpos hmore)
      have hhas : (pageOf mac scope table.key limit rest).hasMore = true := decide_eq_true hmore
      refine ⟨_ :: pages, .more hask hhas hfollows, ?_⟩
      have hcons := hvisits.cons hhas (by
        intro hnil
        have hzero := congrArg List.length hnil
        rw [List.length_drop, List.length_nil] at hzero
        omega)
      have hdata : (pageOf mac scope table.key limit rest).data ++ rest.drop limit = rest :=
        List.take_append_drop limit rest
      rwa [hdata] at hcons
    · have hhas : (pageOf mac scope table.key limit rest).hasMore = false := decide_eq_false hmore
      refine ⟨[_], .last hask hhas, ?_⟩
      have hvisits := visits_last hhas
      have hdata : (pageOf mac scope table.key limit rest).data = rest :=
        List.take_of_length_le (Nat.le_of_not_lt hmore)
      rwa [hdata] at hvisits

/--
**Following the pages of a list visits every row once**, newest first, under every limit a client
may ask for; a page has more exactly if rows remain after it, and the lists of the two services
answer alike.
-/
theorem pages_visit_all {ρ : Type} (mac : CursorMac) (scope : CursorScope) (table : KeysetTable ρ)
    (requested : Option Int) :
    (∀ cursor, runtimeList mac scope table.key table.visible table.rows cursor (clampLimit requested) =
      adminList mac scope table.key table.visible table.rows { limit := clampLimit requested, cursor }) ∧
    ∃ pages,
      (∀ other, Follows (fun cursor => adminList mac scope table.key table.visible table.rows
        { limit := clampLimit requested, cursor }) none other ↔ other = pages) ∧
      (pages.flatMap ListResponse.data).Perm (table.rows.filter table.visible) ∧
      (pages.flatMap ListResponse.data).Pairwise (fun a b => (table.key b).rank < (table.key a).rank) ∧
      ∀ before page after, pages = before ++ page :: after →
        (page.hasMore = true ↔ ∃ row ∈ table.rows.filter table.visible,
          row ∉ (before ++ [page]).flatMap ListResponse.data) := by
  have hone : 1 ≤ clampLimit requested := le_max_left _ _
  obtain ⟨limit, hlimit⟩ := Int.eq_ofNat_of_zero_le (le_trans (by decide) hone)
  rw [hlimit] at hone ⊢
  have hpos : 0 < limit := by omega
  constructor
  · intro cursor
    unfold runtimeList adminList PageRequest.decode
    cases ListCursor.decodeOptional mac cursor scope with
    | error e => rfl
    | ok after =>
      show Except.ok _ = Except.ok _
      rw [paginate_eq mac scope table.key _ (Int.natCast_nonneg limit) cursor]
  obtain ⟨pages, hfollows, hall, hmore⟩ := exists_follows mac scope table hpos table.newest none .start
  refine ⟨pages, fun other => ⟨hfollows.unique, fun heq => heq ▸ hfollows⟩, ?_, ?_, ?_⟩
  · rw [hall]
    exact table.perm_newest
  · rw [hall]
    exact table.pairwise_newest
  · intro before page after hpages
    rw [hmore before page after hpages]
    have hsplit : (before ++ [page]).flatMap ListResponse.data ++ after.flatMap ListResponse.data =
        table.newest := by
      rw [← List.flatMap_append, List.append_assoc, List.singleton_append, ← hpages, hall]
    have hnodup := table.nodup_newest
    rw [← hsplit, List.nodup_append] at hnodup
    constructor
    · intro hne
      obtain ⟨row, hrow⟩ := List.exists_mem_of_ne_nil _ hne
      refine ⟨row, table.perm_newest.mem_iff.mp ?_, fun hseen => hnodup.2.2 row hseen row hrow rfl⟩
      rw [← hsplit]
      exact List.mem_append_right _ hrow
    · rintro ⟨row, hrow, hunseen⟩ hnil
      have hmem := table.perm_newest.mem_iff.mpr hrow
      rw [← hsplit, hnil, List.append_nil] at hmem
      exact hunseen hmem

namespace Sample

def second : ListCursor :=
  { cursor with id := ⟨Bytes.be 16 9, Bytes.length_be 16 9⟩ }

def older : ListCursor where
  ts := ⟨1753315200000000000, by decide, by decide⟩
  id := ⟨Bytes.be 16 8, Bytes.length_be 16 8⟩

/-- Three rows, two of them of one timestamp. -/
def tied : KeysetTable ListCursor where
  rows := [cursor, older, second]
  key row := row
  visible _ := true
  unique := by decide
  whole := by
    unfold DateTime.WholeMicros
    decide

end Sample

open Sample in
/-- With a limit of one, every row is a page of its own; of two with one timestamp, the one with the
greater id comes first. -/
theorem pages_visit_all_tied : ∃ pages,
    Follows (fun cursor => adminList mac applications tied.key tied.visible tied.rows
      { limit := clampLimit (some 1), cursor }) none pages ∧
    pages.flatMap ListResponse.data = [second, Sample.cursor, older] := by
  obtain ⟨-, pages, hfollows, hperm, hsorted, -⟩ := pages_visit_all mac applications tied (some 1)
  refine ⟨pages, (hfollows pages).mpr rfl, ?_⟩
  refine List.Perm.eq_of_pairwise (fun a b _ _ h h' => absurd h (lt_asymm h')) hsorted ?_ (hperm.trans ?_)
  · decide
  · have hperm : ([Sample.cursor, older] ++ [second]).Perm ([second] ++ [Sample.cursor, older]) :=
      List.perm_append_comm
    exact hperm

end Moira.Pagination
