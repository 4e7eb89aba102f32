import Srvlog.Search.LogSearch
import Mathlib.Data.List.Perm.Basic

/-! The pages of a log search: the view loads one row more than it shows, to know
whether there is a next page. -/
namespace Srvlog.Search
open Library Database

structure UncountablyPageableListView where
  currentPage : Int
  itemsPerPage : Int
  hasNextPage : Bool
  itemsFetched : Int

namespace UncountablyPageableListView
variable {α : Type}

def new (itemsPerPage : Int) : UncountablyPageableListView := ⟨0, itemsPerPage, false, 0⟩

def setCurrentPage (view : UncountablyPageableListView) (page : Int) : UncountablyPageableListView :=
  { view with currentPage := page }

/-- The shown rows, and the view after it has loaded them from its provider, which may throw. -/
def getItemModels (load : Int → Int → Option (List α)) (view : UncountablyPageableListView) :
    Option (List α × UncountablyPageableListView) := do
  let offset := int32 (view.currentPage * view.itemsPerPage)
  let collection ← load offset (int32 (view.itemsPerPage + 1))
  let itemsFetched : Int := collection.length
  return (collection.take view.itemsPerPage.toNat, { view with
    itemsFetched := itemsFetched
    hasNextPage := decide (0 < int32 (itemsFetched - view.itemsPerPage)) })

/-- Show the current page and follow the link to the next one while it is enabled. Each
request may be answered differently. The walk gives up when it runs out of fuel. -/
def walk (load : Nat → Int → Int → Option (List α)) :
    Nat → Nat → UncountablyPageableListView → Option (List (List α))
  | 0, _, _ => none
  | fuel + 1, request, view => do
    let (items, view) ← view.getItemModels (load request)
    if view.hasNextPage then
      let pages ← walk load fuel (request + 1) (view.setCurrentPage (int32 (view.currentPage + 1)))
      return items :: pages
    else return [items]

section slices
variable {itemsPerPage total : Nat}

/-- A load that returns the rows of a page and the one behind them tells whether there is a next page. -/
theorem getItemModels_eq {load : Int → Int → Option (List α)} {page : Nat} {slice : List α}
    (hk : itemsPerPage < 2 ^ 31 - 1) (hpage : page * itemsPerPage < 2 ^ 31)
    (hload : load (page * itemsPerPage : Nat) (itemsPerPage + 1 : Nat) = some slice)
    (hlength : slice.length = min (itemsPerPage + 1) (total - page * itemsPerPage))
    {view : UncountablyPageableListView} (hcurrent : view.currentPage = page)
    (hitems : view.itemsPerPage = itemsPerPage) :
    view.getItemModels load = some (slice.take itemsPerPage, { view with
      itemsFetched := slice.length
      hasNextPage := decide ((page + 1) * itemsPerPage < total) }) := by
  have hoffset : int32 (view.currentPage * view.itemsPerPage) = ((page * itemsPerPage : Nat) : Int) := by
    rw [hcurrent, hitems, ← Int.natCast_mul]
    exact int32_of_range (by omega) (by omega)
  have hlimit : int32 (view.itemsPerPage + 1) = ((itemsPerPage + 1 : Nat) : Int) := by
    rw [hitems, Int.natCast_add]
    exact int32_of_range (by omega) (by omega)
  have hnext : decide (0 < int32 ((slice.length : Int) - view.itemsPerPage)) =
      decide ((page + 1) * itemsPerPage < total) := by
    rw [hlength, hitems, int32_of_range (by omega) (by omega), Nat.succ_mul]
    exact decide_eq_decide.mpr (by omega)
  have hcut : view.itemsPerPage.toNat = itemsPerPage := by rw [hitems, Int.toNat_natCast]
  rw [getItemModels, hoffset, hlimit, hload, Option.bind_eq_bind, Option.bind_some]
  dsimp only
  rw [hnext, hcut, Option.pure_def]

/-- The walk ends with the page that has the last row. -/
theorem walk_eq {load : Nat → Int → Int → Option (List α)} {slice : Nat → List α} (hk : 1 ≤ itemsPerPage)
    (hk' : itemsPerPage < 2 ^ 31 - 1) (hfit : (total - 1) / itemsPerPage * itemsPerPage < 2 ^ 31)
    (hload : ∀ page : Nat, load page (page * itemsPerPage : Nat) (itemsPerPage + 1 : Nat) = some (slice page) ∧
      (slice page).length = min (itemsPerPage + 1) (total - page * itemsPerPage))
    {fuel page : Nat} (hpage : page ≤ (total - 1) / itemsPerPage) (hfuel : (total - 1) / itemsPerPage < page + fuel)
    {view : UncountablyPageableListView} (hcurrent : view.currentPage = page)
    (hitems : view.itemsPerPage = itemsPerPage) :
    walk load fuel page view =
      some ((List.range' page ((total - 1) / itemsPerPage + 1 - page)).map fun page =>
        (slice page).take itemsPerPage) := by
  induction fuel generalizing page view with
  | zero => omega
  | succ fuel ih =>
    have hoffset : page * itemsPerPage < 2 ^ 31 := (Nat.mul_le_mul_right itemsPerPage hpage).trans_lt hfit
    obtain ⟨hslice, hlength⟩ := hload page
    have hview := getItemModels_eq hk' hoffset hslice hlength hcurrent hitems
    -- the link is enabled exactly in front of the last page
    have hlast : (page + 1) * itemsPerPage < total ↔ page + 1 ≤ (total - 1) / itemsPerPage := by
      rw [Nat.le_div_iff_mul_le hk]
      have hpos : 1 ≤ (page + 1) * itemsPerPage := Nat.mul_pos (Nat.succ_pos _) hk
      omega
    rw [walk, hview, Option.bind_eq_bind, Option.bind_some]
    dsimp only
    by_cases hmore : page + 1 ≤ (total - 1) / itemsPerPage
    · have hbound : page + 1 < 2 ^ 31 := by
        have hmul := Nat.mul_le_mul hmore hk
        omega
      have hpage' : int32 (view.currentPage + 1) = ((page + 1 : Nat) : Int) := by
        rw [hcurrent, Int.natCast_add]
        exact int32_of_range (by omega) (by omega)
      have hrest := @ih _ hmore (by omega) (({ view with
        itemsFetched := (slice page).length
        hasNextPage := decide ((page + 1) * itemsPerPage < total) } : UncountablyPageableListView).setCurrentPage
          (int32 (view.currentPage + 1))) (by rw [hpage']; rfl) hitems
      obtain ⟨count, hcount⟩ : ∃ count, (total - 1) / itemsPerPage + 1 - page = count + 1 :=
        ⟨(total - 1) / itemsPerPage - page, by omega⟩
      have hcount' : (total - 1) / itemsPerPage + 1 - (page + 1) = count := by omega
      rw [if_pos (decide_eq_true (hlast.mpr hmore)), hrest, hcount, List.range'_succ, List.map_cons, hcount']
      rfl
    · have hcount : (total - 1) / itemsPerPage + 1 - page = 1 := by omega
      rw [if_neg fun h => hmore (hlast.mp (of_decide_eq_true h)), hcount]
      rfl

end slices
end UncountablyPageableListView

section pages
variable {c : Collation}

/-- The data provider of the log monitor page, which reports errors of the index and
shows nothing then. -/
def load (client : SphinxClient) (engine : Sorter logDateDesc) (s : Store c) (filter : SearchFilter)
    (offset limit : Int) : Option (List LogResult) :=
  match search client engine s filter offset limit with
  | .ok logs => some logs
  | .error (.indexerService _) => some []
  | .error .sql => none

/-- The last log of each page is strictly newer than the first one of the next page. -/
def BordersApart (itemsPerPage : Nat) (rows : List LogResult) : Prop :=
  ∀ page a b, rows[(page + 1) * itemsPerPage - 1]? = some a → rows[(page + 1) * itemsPerPage]? = some b →
    ¬ logDateDesc b a

variable {client : SphinxClient} {s : Store c} {filter : SearchFilter} {rows : List LogResult}

/-- The rows that a page shows. -/
def shown (s : Store c) (rows : List LogResult) (itemsPerPage : Nat) (engine : Sorter logDateDesc) (page : Nat) :
    List LogResult :=
  (engine.sort (sliceRows s rows (page * itemsPerPage) (itemsPerPage + 1))).take itemsPerPage

open UncountablyPageableListView

/-- What the view loads for a page: its logs and the one behind them in the index, sorted. -/
theorem Matches.load_eq (hm : Matches client s filter rows) (engine : Sorter logDateDesc) (itemsPerPage page : Nat) :
    load client engine s filter (page * itemsPerPage : Nat) (itemsPerPage + 1 : Nat) =
      some (engine.sort (sliceRows s rows (page * itemsPerPage) (itemsPerPage + 1))) ∧
    (engine.sort (sliceRows s rows (page * itemsPerPage) (itemsPerPage + 1))).length =
      min (itemsPerPage + 1) (rows.length - page * itemsPerPage) := by
  constructor
  · rw [load, hm.search_eq engine (Int.natCast_nonneg _) (by omega), Int.toNat_natCast, Int.toNat_natCast]
  · rw [((engine.perm _).trans (hm.sliceRows_perm _ _)).length_eq, List.length_take, List.length_drop]

theorem Matches.walk_pages (hm : Matches client s filter rows) (engine : Nat → Sorter logDateDesc)
    {itemsPerPage : Nat} (hk : 1 ≤ itemsPerPage) (hk' : itemsPerPage < 2 ^ 31 - 1) :
    walk (fun request => load client (engine request) s filter) (rows.length + 1) 0 (.new itemsPerPage) =
      some ((List.range ((rows.length - 1) / itemsPerPage + 1)).map fun page =>
        shown s rows itemsPerPage (engine page) page) := by
  have hlast := Nat.div_le_self (rows.length - 1) itemsPerPage
  have hoffset := Nat.div_mul_le_self (rows.length - 1) itemsPerPage
  have hsize := hm.size
  rw [List.range_eq_range']
  exact walk_eq hk hk' (by omega) (fun page => hm.load_eq (engine page) itemsPerPage page) (Nat.zero_le _)
    (by omega) rfl rfl

/-- The size of the largest int overflows in the limit, and nothing is shown. -/
theorem Matches.walk_overflow (hm : Matches client s filter rows) (engine : Nat → Sorter logDateDesc) :
    walk (fun request => load client (engine request) s filter) (rows.length + 1) 0 (.new (2 ^ 31 - 1)) =
      some [[]] := by
  have hlimit : ¬ (0 ≤ int32 (0 * (2 ^ 31 - 1)) ∧ 0 < int32 (2 ^ 31 - 1 + 1)) := by decide
  rw [walk, getItemModels, load, UncountablyPageableListView.new, hm.search_of_limits _ hlimit]
  rfl

section borders
variable {itemsPerPage : Nat}

/-- A page shows the logs of its own part of the index if the borders are apart. -/
theorem Matches.shown_perm (hm : Matches client s filter rows) (hk : 1 ≤ itemsPerPage)
    (hb : BordersApart itemsPerPage rows) (engine : Sorter logDateDesc) (page : Nat) :
    (shown s rows itemsPerPage engine page).Perm ((rows.drop (page * itemsPerPage)).take itemsPerPage) := by
  have hslice := hm.sliceRows_perm (page * itemsPerPage) (itemsPerPage + 1)
  by_cases hnext : (page + 1) * itemsPerPage < rows.length
  · have hpage : (page + 1) * itemsPerPage = page * itemsPerPage + itemsPerPage := Nat.succ_mul _ _
    have hfull : (rows.drop (page * itemsPerPage)).take (itemsPerPage + 1) =
        (rows.drop (page * itemsPerPage)).take itemsPerPage ++ [rows[(page + 1) * itemsPerPage]] := by
      rw [List.take_add_one, List.getElem?_drop, ← hpage, List.getElem?_eq_getElem hnext]
      rfl
    rw [hfull] at hslice
    have hcut : ((rows.drop (page * itemsPerPage)).take itemsPerPage).length = itemsPerPage := by
      rw [List.length_take, List.length_drop]
      omega
    have hperm := engine.take_perm hslice fun a ha => ?_
    · rwa [hcut] at hperm
    -- every log of the page is as new as its last one, which is newer than the next page
    obtain ⟨i, hi, rfl⟩ := List.mem_take_iff_getElem.mp ha
    rw [List.length_drop] at hi
    have hlast : (page + 1) * itemsPerPage - 1 < rows.length := by omega
    have hborder := hb page _ _ (List.getElem?_eq_getElem hlast) (List.getElem?_eq_getElem hnext)
    have hnewer : rows[(page + 1) * itemsPerPage - 1].logDate.seconds ≤
        rows[page * itemsPerPage + i].logDate.seconds := by
      rcases Nat.lt_or_ge (page * itemsPerPage + i) ((page + 1) * itemsPerPage - 1) with hlt | hge
      · exact List.pairwise_iff_getElem.mp hm.sorted _ _ _ _ hlt
      · have heq : page * itemsPerPage + i = (page + 1) * itemsPerPage - 1 := by omega
        simp only [heq, le_refl]
    rw [List.getElem_drop]
    exact fun hle => hborder (hnewer.trans hle)
  · have hlength : (rows.drop (page * itemsPerPage)).length ≤ itemsPerPage := by
      rw [List.length_drop]
      rw [Nat.succ_mul] at hnext
      omega
    rw [List.take_of_length_le (hlength.trans (Nat.le_succ _))] at hslice
    rw [List.take_of_length_le hlength]
    have hsorted := (engine.perm _).trans hslice
    rwa [shown, List.take_of_length_le (hsorted.length_eq.trans_le hlength)]

/-- An order of the database that puts one log before all others of its date. -/
def favouring (r : LogResult) : Sorter logDateDesc :=
  (Sorter.insertion (Prefer logDateDesc r)).weaken fun _ _ h => h.1

/-- A page that has loaded the favoured log and another one that is not newer shows it. -/
theorem Matches.mem_shown (hm : Matches client s filter rows) {r r' : LogResult} {page : Nat}
    (hr : r ∈ (rows.drop (page * itemsPerPage)).take (itemsPerPage + 1))
    (hr' : r' ∈ (rows.drop (page * itemsPerPage)).take (itemsPerPage + 1)) (hne : r' ≠ r) (hle : logDateDesc r r') :
    r ∈ shown s rows itemsPerPage (favouring r) page := by
  have hslice := hm.sliceRows_perm (page * itemsPerPage) (itemsPerPage + 1)
  refine (Sorter.insertion (Prefer logDateDesc r)).mem_take (hslice.mem_iff.mpr hr) (hslice.mem_iff.mpr hr') hne.symm
    (not_prefer hle hne) ?_
  rw [hslice.length_eq, List.length_take]
  exact Nat.min_le_left _ _

/-- At a border of equal dates the first log of the next page can be shown on both pages. -/
theorem Matches.shown_twice (hm : Matches client s filter rows) (hk : 1 ≤ itemsPerPage) {page : Nat}
    {a b : LogResult} (ha : rows[(page + 1) * itemsPerPage - 1]? = some a)
    (hb : rows[(page + 1) * itemsPerPage]? = some b) (htie : logDateDesc b a) :
    b ∈ shown s rows itemsPerPage (favouring b) page ∧ b ∈ shown s rows itemsPerPage (favouring b) (page + 1) := by
  have hpage : (page + 1) * itemsPerPage = page * itemsPerPage + itemsPerPage := Nat.succ_mul _ _
  obtain ⟨hblt, hbeq⟩ := List.getElem?_eq_some_iff.mp hb
  have hrows : rows.Nodup := List.Nodup.of_map _ hm.nodup
  have hmem (page i : Nat) (r : LogResult) (hi : i ≤ itemsPerPage) (hr : rows[page * itemsPerPage + i]? = some r) :
      r ∈ (rows.drop (page * itemsPerPage)).take (itemsPerPage + 1) := by
    refine List.mem_of_getElem? (i := i) ?_
    rw [List.getElem?_take_of_lt (Nat.lt_succ_of_le hi), List.getElem?_drop, hr]
  have hne {i j : Nat} {r r' : LogResult} (hr : rows[i]? = some r) (hr' : rows[j]? = some r') (hij : i ≠ j) : r ≠ r' := by
    rintro rfl
    exact hij ((List.getElem?_inj (List.getElem?_eq_some_iff.mp hr).1 hrows).mp (hr.trans hr'.symm))
  constructor
  · refine hm.mem_shown (hmem page itemsPerPage b le_rfl (hpage ▸ hb)) (hmem page (itemsPerPage - 1) a (Nat.sub_le _ _) ?_)
      (hne ha hb (by omega)) htie
    rw [← ha, hpage]
    congr 1
    omega
  · have hfirst := hmem (page + 1) 0 b (Nat.zero_le _) hb
    by_cases hmore : (page + 1) * itemsPerPage + itemsPerPage < rows.length
    · have hlast := List.getElem?_eq_getElem hmore
      refine hm.mem_shown hfirst (hmem (page + 1) itemsPerPage _ le_rfl hlast) (hne hlast hb (by omega)) ?_
      rw [← hbeq]
      exact List.pairwise_iff_getElem.mp hm.sorted _ _ _ _ (by omega)
    · -- the last page shows all that it has loaded
      have hslice := ((favouring b).perm _).trans (hm.sliceRows_perm ((page + 1) * itemsPerPage) (itemsPerPage + 1))
      rw [shown, List.take_of_length_le]
      · exact hslice.mem_iff.mpr hfirst
      · rw [hslice.length_eq, List.length_take, List.length_drop]
        omega

end borders

/-- Walking through the pages shows each of at most a thousand matches exactly once, in
whatever order the database returns logs of one date, if and only if the dates at all
borders between pages differ. A page of the largest size shows nothing. -/
theorem walk_shows_every_match_once_iff (hm : Matches client s filter rows) {itemsPerPage : Nat}
    (hk : 1 ≤ itemsPerPage) (hk' : itemsPerPage < 2 ^ 31) :
    (∀ engine : Nat → Sorter logDateDesc, ∃ pages,
      walk (fun request => load client (engine request) s filter) (rows.length + 1) 0 (.new itemsPerPage) = some pages ∧
      ∀ r ∈ rows, pages.flatten.count r = 1) ↔
    (itemsPerPage = 2 ^ 31 - 1 → rows = []) ∧ BordersApart itemsPerPage rows := by
  have hrows : rows.Nodup := List.Nodup.of_map _ hm.nodup
  rcases Nat.lt_or_ge itemsPerPage (2 ^ 31 - 1) with hlt | hge
  · constructor
    · intro honce
      refine ⟨fun h => by omega, fun page a b ha hb htie => ?_⟩
      obtain ⟨pages, hpages, hcount⟩ := honce fun _ => favouring b
      rw [hm.walk_pages _ hk hlt] at hpages
      obtain rfl := Option.some.inj hpages
      obtain ⟨hblt, -⟩ := List.getElem?_eq_some_iff.mp hb
      have hlast : page + 1 ≤ (rows.length - 1) / itemsPerPage := (Nat.le_div_iff_mul_le hk).mpr (by omega)
      obtain ⟨hthis, hnext⟩ := hm.shown_twice hk ha hb htie
      have htwo := two_le_count_flatMap (l := List.range ((rows.length - 1) / itemsPerPage + 1))
        (f := fun page => shown s rows itemsPerPage (favouring b) page)
        (List.mem_range.mpr (show page < _ by omega)) (List.mem_range.mpr (show page + 1 < _ by omega))
        (Nat.succ_ne_self page).symm hthis hnext
      have hone := hcount b (List.mem_of_getElem? hb)
      rw [← List.flatMap_def] at hone
      omega
    · rintro ⟨-, hb⟩ engine
      refine ⟨_, hm.walk_pages engine hk hlt, fun r hr => ?_⟩
      have hperm : ((List.range ((rows.length - 1) / itemsPerPage + 1)).map fun page =>
          shown s rows itemsPerPage (engine page) page).flatten.Perm rows := by
        rw [← List.flatMap_def]
        refine (List.Perm.flatMap_left _ fun page _ => hm.shown_perm hk hb (engine page) page).trans ?_
        rw [flatMap_slices, List.take_of_length_le]
        have hdiv := Nat.div_add_mod (rows.length - 1) itemsPerPage
        have hmod := Nat.mod_lt (rows.length - 1) hk
        rw [Nat.succ_mul, Nat.mul_comm]
        omega
      rw [hperm.count_eq, List.count_eq_one_of_mem hrows hr]
  · obtain rfl : itemsPerPage = 2 ^ 31 - 1 := by omega
    constructor
    · intro honce
      have hnil : rows = [] := by
        obtain ⟨pages, hpages, hcount⟩ := honce fun _ => Sorter.insertion logDateDesc
        obtain rfl := Option.some.inj ((hm.walk_overflow _).symm.trans hpages)
        apply List.eq_nil_iff_forall_not_mem.mpr
        intro r hr
        have hzero : ([[]] : List (List LogResult)).flatten.count r = 0 := List.count_nil
        rw [hcount r hr] at hzero
        exact absurd hzero Nat.one_ne_zero
      refine ⟨fun _ => hnil, fun page a b ha => ?_⟩
      rw [hnil] at ha
      cases ha
    · rintro ⟨hnil, -⟩ engine
      refine ⟨_, hm.walk_overflow engine, fun r hr => ?_⟩
      rw [hnil rfl] at hr
      exact absurd hr List.not_mem_nil

end pages

section examples

/-- A client whose index has the given identifiers, whatever is asked for. -/
def clientOf (ids : List Nat) : SphinxClient where
  setFilterRange _ _ := true
  setFilter values := decide (values ≠ [])
  setLimits offset limit := decide (0 ≤ offset ∧ 0 < limit)
  query q := some ⟨some ((ids.drop q.offset.toNat).take q.limit.toNat), []⟩

def today : SearchFilter := ⟨some 0, some 86399999, none, none, none, none⟩

/-- A log of host h in the first or the second second of year zero. -/
def logOfHost (later : Bool) : LogParameters where
  logDate := ⟨later.toNat, by cases later <;> decide⟩
  facility := none
  severity := none
  message := none
  program := none
  hash := none
  host := ⟨"h".toList, h_fits_host⟩

/-- Two logs, of different dates or of one. -/
def twoLogs (different : Bool) : Store Collation.binary :=
  Store.empty.calls [.saveHost (some ⟨"h".toList, h_fits_hostname⟩) none, .saveLog (logOfHost different),
    .saveLog (logOfHost false)]

def twoRows (different : Bool) : List LogResult := selectByIds (twoLogs different) [1, 2]

theorem matches_twoRows (different : Bool) : Matches (clientOf [1, 2]) (twoLogs different) today (twoRows different) where
  size := by cases different <;> decide
  sorted := by cases different <;> decide
  nodup := by cases different <;> decide
  key := by cases different <;> decide
  present := by cases different <;> decide
  range := ⟨0, 86399999, rfl, rfl, rfl⟩
  filters _ h := decide_eq_true h
  limits _ _ := rfl
  slice _ _ _ _ := by
    have hids : (twoRows different).map (·.logId) = [1, 2] := by cases different <;> decide
    rw [List.map_take, List.map_drop, hids]
    rfl

theorem distinct_dates_shown_once :
    Matches (clientOf [1, 2]) (twoLogs true) today (twoRows true) ∧
    ∀ engine : Nat → Sorter logDateDesc, ∃ pages,
      UncountablyPageableListView.walk
        (fun request => load (clientOf [1, 2]) (engine request) (twoLogs true) today) 3 0 (.new 1) = some pages ∧
        ∀ r ∈ twoRows true, pages.flatten.count r = 1 := by
  refine ⟨matches_twoRows true, (walk_shows_every_match_once_iff (matches_twoRows true) le_rfl (by decide)).mpr
    ⟨fun h => absurd h (by decide), ?_⟩⟩
  intro page a b ha hb
  match page with
  | 0 =>
    obtain rfl := Option.some.inj ha
    obtain rfl := Option.some.inj hb
    decide
  | page + 1 => cases hb

def firstOfTwo : LogResult := (twoRows false).head (by decide)
def secondOfTwo : LogResult := (twoRows false).getLast (by decide)

/-- With equal dates and one log on a page the second log is shown twice, the first one never. -/
theorem equal_dates_shown_twice_and_never :
    Matches (clientOf [1, 2]) (twoLogs false) today [firstOfTwo, secondOfTwo] ∧
    UncountablyPageableListView.walk
      (fun _ => load (clientOf [1, 2]) (favouring secondOfTwo) (twoLogs false) today) 3 0 (.new 1) =
        some [[secondOfTwo], [secondOfTwo]] ∧
    firstOfTwo ≠ secondOfTwo := by
  refine ⟨matches_twoRows false, ?_, by decide⟩
  decide

end examples
end Srvlog.Search
