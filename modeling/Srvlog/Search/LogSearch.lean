import Srvlog.Database.StoreLedger
import Srvlog.Library.Decimal
import Srvlog.Library.JavaInt
import Srvlog.Library.Sorter

/-! The log search. The index gives the identifiers of a slice of the matching logs, and
the database gives the rows with these identifiers, sorted once more by their dates. -/
namespace Srvlog.Search
open Library Database

/-- What a Sphinx query is asked for. The filters stand for all values when empty. -/
structure SphinxQuery where
  logDate : Option (Int × Int)
  facility : List Int
  hostId : List Int
  severity : List Int
  offset : Int
  limit : Int
  pattern : Text

/-- The identifiers are absent when the result is null. -/
structure SphinxReply where
  docIds : Option (List Nat)
  lastError : Text

/-- The third-party client: which settings it accepts, and its reply unless it throws.
A date filter also sets the sort mode, descending by log_date. -/
structure SphinxClient where
  setFilterRange : Int → Int → Bool
  setFilter : List Int → Bool
  setLimits : Int → Int → Bool
  query : SphinxQuery → Option SphinxReply

/-- The arguments of a search that stay the same on all of its pages. -/
structure SearchFilter where
  fromDate : Option Int
  toDate : Option Int
  facilities : Option (List Int)
  severities : Option (List Int)
  hosts : Option (List Int)
  pattern : Option Text

inductive SearchError where
  | indexerService (message : Text)
  | sql
  deriving DecidableEq

/-- Java's division truncates towards zero. -/
def toUnixTime (date : Int) : Int := date.tdiv 1000

section index
variable (client : SphinxClient)

def setDate (fromDate toDate : Option Int) : Except SearchError (Option (Int × Int)) :=
  match fromDate, toDate with
  | some fromDate, some toDate =>
    if client.setFilterRange (toUnixTime fromDate) (toUnixTime toDate) then
      .ok (some (toUnixTime fromDate, toUnixTime toDate))
    else .error (.indexerService "While trying to set date range".toList)
  | _, _ => .ok none

def setAttributeFilter (filterValues : Option (List Int)) (attributeName : Text) :
    Except SearchError (List Int) :=
  let values := filterValues.getD []
  if values = [] ∨ client.setFilter values then .ok values
  else .error (.indexerService ("While trying to set ".toList ++ attributeName ++ " filter".toList))

def setLimits (offset limit : Int) : Except SearchError Unit :=
  if client.setLimits offset limit then .ok ()
  else .error (.indexerService "While trying to set limits".toList)

/-- A result without matches is an error if the client has a message about it. -/
def matchedIds (reply : SphinxReply) : Except SearchError (List Nat) :=
  let docIds := reply.docIds.getD []
  if docIds = [] ∧ reply.lastError ≠ [] then
    .error (.indexerService ("While sending query to Sphinx Daemon: ".toList ++ reply.lastError))
  else .ok docIds

/-- `SphinxIndexerService.search`. -/
def searchIndex (filter : SearchFilter) (offset limit : Int) : Except SearchError (List Nat) := do
  let logDate ← setDate client filter.fromDate filter.toDate
  let facility ← setAttributeFilter client filter.facilities "facility".toList
  let hostId ← setAttributeFilter client filter.hosts "host_id".toList
  let severity ← setAttributeFilter client filter.severities "severity".toList
  setLimits client offset limit
  match client.query ⟨logDate, facility, hostId, severity, offset, limit, filter.pattern.getD []⟩ with
  | some reply => matchedIds reply
  | none => .error (.indexerService "While sending query to Sphinx Daemon".toList)

end index

section database
variable {c : Collation}

/-- `order by l.log_date desc`. -/
def logDateDesc (a b : LogResult) : Prop := b.logDate.seconds ≤ a.logDate.seconds

instance : DecidableRel logDateDesc := fun a b => inferInstanceAs (Decidable (b.logDate.seconds ≤ a.logDate.seconds))
instance : Std.Total logDateDesc := ⟨fun a b => Nat.le_total b.logDate.seconds a.logDate.seconds⟩
instance : IsTrans LogResult logDateDesc := ⟨fun _ _ _ h h' => Nat.le_trans h' h⟩

def collectionToCommaDelimitedString (ids : List Nat) : Text := [','].intercalate (ids.map decimal)

def hasText (t : Text) : Bool := t.any fun ch => !ch.isWhitespace

/-- The numbers of an in-list. Any other text makes the prepared statement fail. -/
def inList (t : Text) : Option (List Nat) :=
  let parts := t.splitOn ','
  if parts.all fun part => decide (part ≠ []) && part.all Char.isDigit then some (parts.map digitsValue) else none

/-- The rows that `get_logs_by_ids` selects. -/
def selectByIds (s : Store c) (ids : List Nat) : List LogResult :=
  (s.logs.rows.filter fun l => decide (l.1 ∈ ids)).flatMap fun l =>
    (s.hosts.rows.filter fun h => decide (h.1 = l.2.hostId)).map fun h =>
      { l.2.toLogColumns with logId := l.1, host := h.2.hostname, call := l.2.call }

/-- `get_logs_by_ids`. Its parameter is a text, of 65535 bytes at most. -/
def getLogsByIds (engine : Sorter logDateDesc) (s : Store c) (logIds : Text) : Option (List LogResult) :=
  if logIds.length ≤ 65535 then (inList logIds).map fun ids => engine.sort (selectByIds s ids) else none

/-- `SimpleLogCollector.search`. -/
def search (client : SphinxClient) (engine : Sorter logDateDesc) (s : Store c) (filter : SearchFilter)
    (offset limit : Int) : Except SearchError (List LogResult) := do
  let ids ← searchIndex client filter offset limit
  let stringIds := collectionToCommaDelimitedString ids
  if hasText stringIds then
    match getLogsByIds engine s stringIds with
    | some logs => .ok logs
    | none => .error .sql
  else .ok []

end database

section identifiers

/-- The dynamic statement reads back the numbers that the collector has written. -/
theorem inList_collectionToCommaDelimitedString {ids : List Nat} (h : ids ≠ []) :
    inList (collectionToCommaDelimitedString ids) = some ids := by
  have hcomma : ∀ part ∈ ids.map decimal, ',' ∉ part := by
    intro part hpart hmem
    obtain ⟨n, -, rfl⟩ := List.mem_map.mp hpart
    exact absurd (isDigit_of_mem_decimal hmem) (by decide)
  have hparts : (collectionToCommaDelimitedString ids).splitOn ',' = ids.map decimal :=
    List.splitOn_intercalate ',' hcomma (by simpa using h)
  rw [inList, hparts, if_pos]
  · rw [List.map_map]
    congr 1
    exact List.map_id'' digitsValue_decimal ids
  · simp only [List.all_eq_true, Bool.and_eq_true, decide_eq_true_eq]
    intro part hpart
    obtain ⟨n, -, rfl⟩ := List.mem_map.mp hpart
    exact ⟨decimal_ne_nil n, fun digit hdigit => isDigit_of_mem_decimal hdigit⟩

theorem collectionToCommaDelimitedString_cons (id : Nat) (ids : List Nat) :
    collectionToCommaDelimitedString (id :: ids) =
      decimal id ++ if ids = [] then [] else ',' :: collectionToCommaDelimitedString ids := by
  cases ids with
  | nil => simp [collectionToCommaDelimitedString]
  | cons id' ids => simp [collectionToCommaDelimitedString, List.intercalate_cons_cons]

theorem hasText_collectionToCommaDelimitedString {ids : List Nat} (h : ids ≠ []) :
    hasText (collectionToCommaDelimitedString ids) = true := by
  obtain ⟨id, rest, rfl⟩ := List.exists_cons_of_ne_nil h
  obtain ⟨digit, hdigit⟩ := List.exists_mem_of_ne_nil _ (decimal_ne_nil id)
  have hspace : digit.isWhitespace = false := by
    have hrange := isDigit_of_mem_decimal hdigit
    by_contra hblank
    rw [Bool.not_eq_false] at hblank
    simp only [Char.isWhitespace, Bool.or_eq_true, decide_eq_true_eq] at hblank
    rcases hblank with ((rfl | rfl) | rfl) | rfl
    all_goals exact absurd hrange (by decide)
  rw [hasText, collectionToCommaDelimitedString_cons, List.any_append, List.any_eq_true.mpr, Bool.true_or]
  exact ⟨digit, hdigit, by rw [hspace]; rfl⟩

theorem length_collectionToCommaDelimitedString {ids : List Nat} (h : ∀ id ∈ ids, id < 2 ^ 32) :
    (collectionToCommaDelimitedString ids).length ≤ 11 * ids.length := by
  induction ids with
  | nil => exact Nat.zero_le _
  | cons id ids ih =>
    have hid : (decimal id).length ≤ 10 := by
      have hlt := h id List.mem_cons_self
      exact (decimal_length_le_iff (by decide)).mpr (by omega)
    have hrest := ih fun i hi => h i (List.mem_cons_of_mem _ hi)
    rw [collectionToCommaDelimitedString_cons, List.length_append, List.length_cons]
    split
    · rw [List.length_nil]
      omega
    · rw [List.length_cons]
      omega

end identifiers

section rows
variable {c : Collation} {s : Store c}

theorem mem_selectByIds {ids : List Nat} {r : LogResult} :
    r ∈ selectByIds s ids ↔ r.logId ∈ ids ∧ r ∈ getLogById s r.logId := by
  simp only [selectByIds, getLogById, List.mem_flatMap, List.mem_filter, List.mem_map, decide_eq_true_eq]
  constructor
  · rintro ⟨l, ⟨hl, hid⟩, h, hh, rfl⟩
    exact ⟨hid, l, ⟨hl, rfl⟩, h, hh, rfl⟩
  · rintro ⟨hid, l, ⟨hl, hlog⟩, h, hh, rfl⟩
    exact ⟨l, ⟨hl, hid⟩, h, hh, rfl⟩

/-- A row of logs is joined with one row of hosts at most. -/
theorem nodup_selectByIds (ids : List Nat) : ((selectByIds s ids).map (·.logId)).Nodup := by
  have hjoin : (selectByIds s ids).map (·.logId) = (s.logs.rows.filter fun l => decide (l.1 ∈ ids)).flatMap
      fun l => (s.hosts.rows.filter fun h => decide (h.1 = l.2.hostId)).map fun _ => l.1 := by
    rw [selectByIds, List.map_flatMap]
    congr 1
    funext l
    rw [List.map_map]
    rfl
  rw [hjoin, List.nodup_flatMap]
  constructor
  · intro l _
    have hlength := s.hosts.filter_key_length_le_one l.2.hostId
    rw [← List.length_map (f := fun _ => l.1)] at hlength
    generalize ((s.hosts.rows.filter fun h => decide (h.1 = l.2.hostId)).map fun _ => l.1) = joined at hlength ⊢
    match joined, hlength with
    | [], _ => exact List.nodup_nil
    | [_], _ => exact List.nodup_singleton _
  · refine (s.logs.increasing.sublist List.filter_sublist).imp ?_
    rintro a b hab x hxa hxb
    obtain ⟨_, -, rfl⟩ := List.mem_map.mp hxa
    obtain ⟨_, -, heq⟩ := List.mem_map.mp hxb
    omega

/-- Rows that are found one by one are also found together. -/
theorem selectByIds_perm {rows : List LogResult} (hpresent : ∀ r ∈ rows, getLogById s r.logId = [r])
    (hnodup : (rows.map (·.logId)).Nodup) : (selectByIds s (rows.map (·.logId))).Perm rows := by
  refine (List.perm_ext_iff_of_nodup (List.Nodup.of_map _ (nodup_selectByIds _)) (List.Nodup.of_map _ hnodup)).mpr
    fun r => ?_
  rw [mem_selectByIds]
  constructor
  · rintro ⟨hid, hr⟩
    obtain ⟨r', hr', heq⟩ := List.mem_map.mp hid
    rw [← heq, hpresent r' hr', List.mem_singleton] at hr
    exact hr ▸ hr'
  · intro hr
    exact ⟨List.mem_map_of_mem hr, by rw [hpresent r hr]; exact List.mem_cons_self⟩

end rows

section slices
variable {c : Collation}

/-- The query that a search with accepted settings ends in. -/
def SearchFilter.sphinxQuery (filter : SearchFilter) (offset limit : Int) : SphinxQuery where
  logDate := filter.fromDate.bind fun fromDate => filter.toDate.map fun toDate =>
    (toUnixTime fromDate, toUnixTime toDate)
  facility := filter.facilities.getD []
  hostId := filter.hosts.getD []
  severity := filter.severities.getD []
  offset := offset
  limit := limit
  pattern := filter.pattern.getD []

/-- The rows of all matches of a search, in the order of the index, which answers with
their slices, and which the tables all have. The client refuses limits that ask for nothing. -/
structure Matches (client : SphinxClient) (s : Store c) (filter : SearchFilter) (rows : List LogResult) : Prop where
  size : rows.length ≤ 1000
  sorted : rows.Pairwise logDateDesc
  nodup : (rows.map (·.logId)).Nodup
  key : ∀ r ∈ rows, r.logId < 2 ^ 32
  present : ∀ r ∈ rows, getLogById s r.logId = [r]
  range : ∃ fromDate toDate, filter.fromDate = some fromDate ∧ filter.toDate = some toDate ∧
    client.setFilterRange (toUnixTime fromDate) (toUnixTime toDate) = true
  filters : ∀ values, values ≠ [] → client.setFilter values = true
  limits : ∀ offset limit, client.setLimits offset limit = decide (0 ≤ offset ∧ 0 < limit)
  slice : ∀ offset limit, 0 ≤ offset → 0 < limit → client.query (filter.sphinxQuery offset limit) =
    some ⟨some (((rows.drop offset.toNat).take limit.toNat).map (·.logId)), []⟩

variable {client : SphinxClient} {s : Store c} {filter : SearchFilter} {rows : List LogResult}

theorem Matches.setAttributeFilter_eq (hm : Matches client s filter rows) (filterValues : Option (List Int))
    (attributeName : Text) : setAttributeFilter client filterValues attributeName = .ok (filterValues.getD []) := by
  apply if_pos
  by_cases h : filterValues.getD [] = []
  · exact .inl h
  · exact .inr (hm.filters _ h)

theorem Matches.setDate_eq (hm : Matches client s filter rows) (offset limit : Int) :
    setDate client filter.fromDate filter.toDate = .ok (filter.sphinxQuery offset limit).logDate := by
  obtain ⟨fromDate, toDate, hfrom, hto, hrange⟩ := hm.range
  simp [setDate, SearchFilter.sphinxQuery, hfrom, hto, hrange]

theorem Matches.searchIndex_eq (hm : Matches client s filter rows) (offset limit : Int) :
    searchIndex client filter offset limit =
      if 0 ≤ offset ∧ 0 < limit then .ok (((rows.drop offset.toNat).take limit.toNat).map (·.logId))
      else .error (.indexerService "While trying to set limits".toList) := by
  rw [searchIndex, hm.setDate_eq offset limit, hm.setAttributeFilter_eq, hm.setAttributeFilter_eq,
    hm.setAttributeFilter_eq]
  by_cases h : 0 ≤ offset ∧ 0 < limit
  · have hquery := hm.slice offset limit h.1 h.2
    rw [SearchFilter.sphinxQuery] at hquery
    simp [setLimits, hm.limits, h, SearchFilter.sphinxQuery, hquery, matchedIds, bind, Except.bind]
  · simp [setLimits, hm.limits, h, bind, Except.bind]

theorem Matches.search_of_limits (hm : Matches client s filter rows) (engine : Sorter logDateDesc) {offset limit : Int}
    (h : ¬ (0 ≤ offset ∧ 0 < limit)) : search client engine s filter offset limit =
      .error (.indexerService "While trying to set limits".toList) := by
  rw [search, hm.searchIndex_eq, if_neg h]
  rfl

/-- The rows that a search selects in the database before it sorts them. -/
def sliceRows (s : Store c) (rows : List LogResult) (offset limit : Nat) : List LogResult :=
  selectByIds s (((rows.drop offset).take limit).map (·.logId))

private theorem slice_sublist (rows : List LogResult) (offset limit : Nat) :
    ((rows.drop offset).take limit).Sublist rows := (List.take_sublist _ _).trans (List.drop_sublist _ _)

theorem Matches.sliceRows_perm (hm : Matches client s filter rows) (offset limit : Nat) :
    (sliceRows s rows offset limit).Perm ((rows.drop offset).take limit) :=
  selectByIds_perm (fun r hr => hm.present r ((slice_sublist rows offset limit).subset hr))
    (hm.nodup.sublist ((slice_sublist rows offset limit).map _))

/-- A search returns a slice of the matches in the order of the database. -/
theorem Matches.search_eq (hm : Matches client s filter rows) (engine : Sorter logDateDesc) {offset limit : Int}
    (ho : 0 ≤ offset) (hl : 0 < limit) : search client engine s filter offset limit =
      .ok (engine.sort (sliceRows s rows offset.toNat limit.toNat)) := by
  rw [search, hm.searchIndex_eq, if_pos ⟨ho, hl⟩, sliceRows]
  generalize hids : ((rows.drop offset.toNat).take limit.toNat).map (·.logId) = ids
  by_cases hnil : ids = []
  · subst hnil
    have hnone : selectByIds s [] = [] := by
      apply List.eq_nil_iff_forall_not_mem.mpr
      exact fun r hr => List.not_mem_nil (mem_selectByIds.mp hr).1
    have hempty : engine.sort [] = [] := (engine.perm []).eq_nil
    rw [hnone, hempty]
    rfl
  · have hsub := slice_sublist rows offset.toNat limit.toNat
    have hkey : ∀ id ∈ ids, id < 2 ^ 32 := by
      intro id hid
      obtain ⟨r, hr, rfl⟩ := List.mem_map.mp (hids ▸ hid)
      exact hm.key r (hsub.subset hr)
    have hlength : (collectionToCommaDelimitedString ids).length ≤ 65535 := by
      have hle := length_collectionToCommaDelimitedString hkey
      have hcount : ids.length ≤ 1000 := by
        rw [← hids, List.length_map]
        exact hsub.length_le.trans hm.size
      omega
    simp [hasText_collectionToCommaDelimitedString hnil, getLogsByIds, if_pos hlength,
      inList_collectionToCommaDelimitedString hnil, bind, Except.bind]

end slices
end Srvlog.Search
