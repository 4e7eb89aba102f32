import Srvlog.Search.SearchedLogs
import Srvlog.Search.UncountablyPageableListView

/-! What the pages list of the matches in the index when some of their logs are no longer in the
tables: a page that comes short of rows is the last one. -/
namespace Srvlog.Search
open Library Database

namespace UncountablyPageableListView
variable {α : Type} {itemsPerPage : Nat}

/-- The walk ends at the first page that does not fill up with a row behind it. -/
theorem walk_until {load : Nat → Int → Int → Option (List α)} {slice : Nat → List α} {last : Nat}
    (hk : 1 ≤ itemsPerPage) (hk' : itemsPerPage < 2 ^ 31 - 1) (hfit : last * itemsPerPage < 2 ^ 31)
    (hload : ∀ page : Nat, load page (page * itemsPerPage : Nat) (itemsPerPage + 1 : Nat) = some (slice page))
    (hfull : ∀ page < last, (slice page).length = itemsPerPage + 1) (hlast : (slice last).length ≤ itemsPerPage)
    {fuel page : Nat} (hpage : page ≤ last) (hfuel : last < page + fuel) {view : UncountablyPageableListView}
    (hcurrent : view.currentPage = page) (hitems : view.itemsPerPage = itemsPerPage) :
    walk load fuel page view =
      some ((List.range' page (last + 1 - page)).map fun page => (slice page).take itemsPerPage) := by
  induction fuel generalizing page view with
  | zero => omega
  | succ fuel ih =>
    have hoffset : page * itemsPerPage < 2 ^ 31 := (Nat.mul_le_mul_right itemsPerPage hpage).trans_lt hfit
    by_cases hmore : page < last
    · have hlength : (slice page).length =
          min (itemsPerPage + 1) ((page + 1) * itemsPerPage + 1 - page * itemsPerPage) := by
        rw [hfull page hmore, Nat.succ_mul]
        omega
      have hview := getItemModels_eq hk' hoffset (hload page) hlength hcurrent hitems
      have hbound : page + 1 < 2 ^ 31 := by
        have hmul := Nat.mul_le_mul hmore hk
        omega
      have hnext : int32 (view.currentPage + 1) = ((page + 1 : Nat) : Int) := by
        rw [hcurrent, Int.natCast_add]
        exact int32_of_range (by omega) (by omega)
      have hrest := @ih _ hmore (by omega) (({ view with
        itemsFetched := (slice page).length
        hasNextPage := decide ((page + 1) * itemsPerPage < (page + 1) * itemsPerPage + 1) } :
          UncountablyPageableListView).setCurrentPage (int32 (view.currentPage + 1))) (by rw [hnext]; rfl) hitems
      obtain ⟨count, hcount⟩ : ∃ count, last + 1 - page = count + 1 := ⟨last - page, by omega⟩
      have hcount' : last + 1 - (page + 1) = count := by omega
      rw [walk, hview, Option.bind_eq_bind, Option.bind_some]
      dsimp only
      rw [if_pos (decide_eq_true (Nat.lt_succ_self _)), hrest, hcount, List.range'_succ, List.map_cons, hcount']
      rfl
    · obtain rfl : page = last := by omega
      have hlength : (slice page).length =
          min (itemsPerPage + 1) (page * itemsPerPage + (slice page).length - page * itemsPerPage) := by
        omega
      have hview := getItemModels_eq hk' hoffset (hload page) hlength hcurrent hitems
      have hcount : page + 1 - page = 1 := by omega
      have hend : ¬ (page + 1) * itemsPerPage < page * itemsPerPage + (slice page).length := by
        rw [Nat.succ_mul]
        omega
      rw [walk, hview, Option.bind_eq_bind, Option.bind_some]
      dsimp only
      rw [if_neg fun h => hend (of_decide_eq_true h), hcount]
      rfl

end UncountablyPageableListView

section slices
variable {c : Collation}

/-- The index answers a search with the slices of these matches, whether the tables have their
rows or not. -/
structure Slices (client : SphinxClient) (filter : SearchFilter) (ids : List Nat) : Prop where
  size : ids.length ≤ 1000
  nodup : ids.Nodup
  key : ∀ id ∈ ids, id < 2 ^ 32
  range : ∃ fromDate toDate, filter.fromDate = some fromDate ∧ filter.toDate = some toDate ∧
    client.setFilterRange (toUnixTime fromDate) (toUnixTime toDate) = true
  filters : ∀ values, values ≠ [] → client.setFilter values = true
  limits : ∀ offset limit, client.setLimits offset limit = decide (0 ≤ offset ∧ 0 < limit)
  slice : ∀ offset limit, 0 ≤ offset → 0 < limit → client.query (filter.sphinxQuery offset limit) =
    some ⟨some ((ids.drop offset.toNat).take limit.toNat), []⟩

variable {client : SphinxClient} {s : Store c} {filter : SearchFilter} {ids : List Nat} {itemsPerPage : Nat}

/-- The matches that a page asks for. -/
def sliceIds (ids : List Nat) (itemsPerPage page : Nat) : List Nat :=
  (ids.drop (page * itemsPerPage)).take (itemsPerPage + 1)

theorem sliceIds_sublist (page : Nat) : (sliceIds ids itemsPerPage page).Sublist ids :=
  (List.take_sublist _ _).trans (List.drop_sublist _ _)

/-- What a page loads: the rows that the tables have of its slice. -/
theorem Slices.load_eq (h : Slices client filter ids) (engine : Sorter logDateDesc) (page : Nat) :
    load client engine s filter (page * itemsPerPage : Nat) (itemsPerPage + 1 : Nat) =
      some (engine.sort (selectByIds s (sliceIds ids itemsPerPage page))) := by
  have hpositive : (0 : Int) < (itemsPerPage + 1 : Nat) := by omega
  have hlimits : client.setLimits (page * itemsPerPage : Nat) (itemsPerPage + 1 : Nat) = true := by
    rw [h.limits]
    exact decide_eq_true ⟨Int.natCast_nonneg _, hpositive⟩
  have hids : searchIndex client filter (page * itemsPerPage : Nat) (itemsPerPage + 1 : Nat) =
      .ok (sliceIds ids itemsPerPage page) :=
    searchIndex_of_query h.range h.filters hlimits (h.slice _ _ (Int.natCast_nonneg _) hpositive)
  have hsub := @sliceIds_sublist ids itemsPerPage page
  rw [load, search_of_ids engine hids (hsub.length_le.trans h.size) fun id hid => h.key id (hsub.subset hid)]

/-- The tables have a row of the log, with its host. -/
def hasRow (s : Store c) (id : Nat) : Bool := !(getLogById s id).isEmpty

theorem hasRow_iff {id : Nat} : hasRow s id = true ↔ ∃ r ∈ getLogById s id, r.logId = id := by
  rw [hasRow, Bool.not_eq_true', List.isEmpty_eq_false_iff]
  constructor
  · intro hne
    obtain ⟨r, hr⟩ := List.exists_mem_of_ne_nil _ hne
    refine ⟨r, hr, ?_⟩
    obtain ⟨l, hl, hjoin⟩ := List.mem_flatMap.mp hr
    obtain ⟨-, -, rfl⟩ := List.mem_map.mp hjoin
    exact of_decide_eq_true (List.mem_filter.mp hl).2
  · rintro ⟨r, hr, -⟩
    exact List.ne_nil_of_mem hr

/-- One row for each log that has one. -/
theorem length_selectByIds (hids : ids.Nodup) : (selectByIds s ids).length = ids.countP (hasRow s) := by
  have hperm : ((selectByIds s ids).map (·.logId)).Perm (ids.filter (hasRow s)) := by
    refine (List.perm_ext_iff_of_nodup (nodup_selectByIds ids) (hids.filter _)).mpr fun id => ?_
    rw [List.mem_map, List.mem_filter, hasRow_iff]
    constructor
    · rintro ⟨r, hr, rfl⟩
      obtain ⟨hid, hrow⟩ := mem_selectByIds.mp hr
      exact ⟨hid, r, hrow, rfl⟩
    · rintro ⟨hid, r, hrow, rfl⟩
      exact ⟨r, mem_selectByIds.mpr ⟨hid, hrow⟩, rfl⟩
  rw [← List.length_map (f := (·.logId)), hperm.length_eq, List.countP_eq_length_filter]

/-- Full pages cover the matches up to the next one. -/
theorem forall_mem_take {p : Nat → Prop} {pages : Nat}
    (h : ∀ page < pages, ∀ id ∈ sliceIds ids itemsPerPage page, p id) : ∀ id ∈ ids.take (pages * itemsPerPage), p id := by
  induction pages with
  | zero =>
    rw [Nat.zero_mul, List.take_zero]
    exact fun id hid => absurd hid List.not_mem_nil
  | succ pages ih =>
    rw [Nat.succ_mul, List.take_add]
    refine List.forall_mem_append.mpr ⟨ih fun page hpage => h page (Nat.lt_succ_of_lt hpage), fun id hid => ?_⟩
    have hmem : id ∈ sliceIds ids itemsPerPage pages := (List.take_prefix_take_left (Nat.le_succ _)).subset hid
    exact h pages (Nat.lt_succ_self _) id hmem

/-- There is a first page that comes short of rows, and all matches in front of it have theirs. -/
theorem exists_last_page (hids : ids.Nodup) (hk : 1 ≤ itemsPerPage) : ∃ last,
    (∀ page < last, (selectByIds s (sliceIds ids itemsPerPage page)).length = itemsPerPage + 1) ∧
      (selectByIds s (sliceIds ids itemsPerPage last)).length ≤ itemsPerPage ∧
      last * itemsPerPage ≤ ids.length ∧ ∀ id ∈ ids.take (last * itemsPerPage), hasRow s id = true := by
  have hshort : ∃ page, (selectByIds s (sliceIds ids itemsPerPage page)).length ≤ itemsPerPage := by
    refine ⟨ids.length, ?_⟩
    have hnil : sliceIds ids itemsPerPage ids.length = [] := by
      rw [sliceIds, List.drop_eq_nil_of_le (Nat.le_mul_of_pos_right _ hk), List.take_nil]
    rw [hnil, length_selectByIds List.nodup_nil]
    exact Nat.zero_le _
  have hle (page : Nat) : (selectByIds s (sliceIds ids itemsPerPage page)).length ≤ (sliceIds ids itemsPerPage page).length := by
    rw [length_selectByIds (hids.sublist (sliceIds_sublist page))]
    exact List.countP_le_length
  have hfull : ∀ page < Nat.find hshort,
      (selectByIds s (sliceIds ids itemsPerPage page)).length = itemsPerPage + 1 := by
    intro page hpage
    have hmore := Nat.find_min hshort hpage
    have hbound := hle page
    have hslice : (sliceIds ids itemsPerPage page).length ≤ itemsPerPage + 1 := List.length_take_le _ _
    omega
  refine ⟨Nat.find hshort, hfull, Nat.find_spec hshort, ?_, forall_mem_take fun page hpage id hid => ?_⟩
  · cases hfind : Nat.find hshort with
    | zero => omega
    | succ last =>
      have hlast := hfull last (by omega)
      have hbound := hle last
      rw [hlast, sliceIds, List.length_take, List.length_drop] at hbound
      rw [Nat.succ_mul]
      omega
  · have hall := hfull page hpage
    rw [length_selectByIds (hids.sublist (sliceIds_sublist page))] at hall
    have hslice : (sliceIds ids itemsPerPage page).length ≤ itemsPerPage + 1 := List.length_take_le _ _
    refine List.countP_eq_length.mp (Nat.le_antisymm List.countP_le_length ?_) id hid
    omega

open UncountablyPageableListView

theorem length_flatten_pages {α : Type} {slice : Nat → List α} {last : Nat}
    (hfull : ∀ page < last, (slice page).length = itemsPerPage + 1) (hlast : (slice last).length ≤ itemsPerPage) :
    ((List.range' 0 (last + 1)).map fun page => (slice page).take itemsPerPage).flatten.length =
      last * itemsPerPage + (slice last).length := by
  have hconst : (List.range last).map (List.length ∘ fun page => (slice page).take itemsPerPage) =
      List.replicate last itemsPerPage := by
    refine List.eq_replicate_iff.mpr ⟨by rw [List.length_map, List.length_range], fun n hn => ?_⟩
    obtain ⟨page, hpage, rfl⟩ := List.mem_map.mp hn
    rw [Function.comp_apply, List.length_take, hfull page (List.mem_range.mp hpage)]
    omega
  rw [List.length_flatten, List.map_map, ← List.range_eq_range', List.range_succ, List.map_append, List.sum_append,
    hconst, List.sum_replicate_nat, List.map_singleton, List.sum_singleton, Function.comp_apply,
    List.take_of_length_le hlast]

/-- The pages list as many logs as the index has matches exactly when the tables have the rows of
all of them. -/
theorem Slices.listed_iff (h : Slices client filter ids) (engine : Nat → Sorter logDateDesc) (hk : 1 ≤ itemsPerPage)
    (hk' : itemsPerPage < 2 ^ 31 - 1) :
    ∃ pages, walk (fun request => load client (engine request) s filter) (ids.length + 1) 0 (.new itemsPerPage) =
        some pages ∧ (pages.flatten.length = ids.length ↔ ∀ id ∈ ids, hasRow s id = true) := by
  obtain ⟨last, hfull, hlast, hle, hrows⟩ := @exists_last_page c s ids itemsPerPage h.nodup hk
  have hsize := h.size
  have hpages : last ≤ last * itemsPerPage := Nat.le_mul_of_pos_right _ hk
  have hsort (page : Nat) : ((engine page).sort (selectByIds s (sliceIds ids itemsPerPage page))).length =
      (selectByIds s (sliceIds ids itemsPerPage page)).length := ((engine page).perm _).length_eq
  have hwalk : walk (fun request => load client (engine request) s filter) (ids.length + 1) 0 (.new itemsPerPage) =
      some ((List.range' 0 (last + 1)).map fun page =>
        ((engine page).sort (selectByIds s (sliceIds ids itemsPerPage page))).take itemsPerPage) :=
    walk_until hk hk' (by omega) (fun page => h.load_eq (engine page) page)
      (fun page hpage => (hsort page).trans (hfull page hpage)) ((hsort last).trans_le hlast) (Nat.zero_le _) (by omega)
      rfl rfl
  have hlength : (selectByIds s (sliceIds ids itemsPerPage last)).length =
      (sliceIds ids itemsPerPage last).countP (hasRow s) :=
    length_selectByIds (h.nodup.sublist (sliceIds_sublist last))
  refine ⟨_, hwalk, ?_⟩
  rw [length_flatten_pages (fun page hpage => (hsort page).trans (hfull page hpage)) ((hsort last).trans_le hlast),
    hsort, hlength]
  rw [hlength] at hlast
  have hslice : (sliceIds ids itemsPerPage last).length = min (itemsPerPage + 1) (ids.length - last * itemsPerPage) := by
    rw [sliceIds, List.length_take, List.length_drop]
  constructor
  · intro hall
    -- the last page then asks for all matches that are left
    have hrest : sliceIds ids itemsPerPage last = ids.drop (last * itemsPerPage) := by
      refine List.take_of_length_le ?_
      rw [List.length_drop]
      omega
    have hcount : (sliceIds ids itemsPerPage last).countP (hasRow s) = (sliceIds ids itemsPerPage last).length := by
      omega
    rw [← List.take_append_drop (last * itemsPerPage) ids]
    refine List.forall_mem_append.mpr ⟨hrows, ?_⟩
    rw [← hrest]
    exact List.countP_eq_length.mp hcount
  · intro hall
    have hcount := List.countP_eq_length.mpr fun id hid => hall id ((@sliceIds_sublist ids itemsPerPage last).subset hid)
    omega

end slices
end Srvlog.Search
