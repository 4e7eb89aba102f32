import Srvlog.Search.UncountablyPageableListView
import Srvlog.Library.Runs

/-! The page with a list view and its navigator: what it says about the rows it shows,
and the walk through the pages of rows that do not change. -/
namespace Srvlog.Search
open Library

variable {α : Type}

namespace UncountablyPageableListView

def getFromRow (view : UncountablyPageableListView) : Int :=
  int32 (int32 (view.currentPage * view.itemsPerPage) + 1)

def getToRow (view : UncountablyPageableListView) : Int :=
  int32 (int32 (view.getFromRow - 1) + min view.itemsFetched view.itemsPerPage)

def isEmpty (view : UncountablyPageableListView) : Bool := !decide (view.getToRow > 0)

def setItemsPerPage (view : UncountablyPageableListView) (itemsPerPage : Int) : UncountablyPageableListView :=
  { view with itemsPerPage }

end UncountablyPageableListView

/-- A link can only be clicked while it is enabled. -/
structure Link where
  isEnabled : UncountablyPageableListView → Bool
  onClick : UncountablyPageableListView → UncountablyPageableListView

def Link.click (link : Link) (view : UncountablyPageableListView) : Option UncountablyPageableListView :=
  if link.isEnabled view then some (link.onClick view) else none

namespace UncountablyPageableNavigator

def pagingNext : Link where
  isEnabled pageable := pageable.hasNextPage
  onClick pageable := pageable.setCurrentPage (int32 (pageable.currentPage + 1))

def pagingPrevious : Link where
  isEnabled pageable := decide (pageable.currentPage > 0)
  onClick pageable := pageable.setCurrentPage (int32 (pageable.currentPage - 1))

def pagingFirst : Link where
  isEnabled pageable := decide (pageable.currentPage > 0)
  onClick pageable := pageable.setCurrentPage 0

end UncountablyPageableNavigator
open UncountablyPageableListView UncountablyPageableNavigator

/-- A provider that returns a part of a list of rows. -/
def slices (rows : List α) (offset limit : Int) : Option (List α) :=
  some ((rows.drop offset.toNat).take limit.toNat)

/-- What one rendering shows, and the rows there were at that moment. -/
structure Rendering (α : Type) where
  rows : List α
  displayed : List α
  isEmpty : Bool
  fromRow : Int
  toRow : Int
  hasNextPage : Bool

/-- The view, the rows behind it, and all renderings so far. -/
structure Page (α : Type) where
  view : UncountablyPageableListView
  rows : List α
  renderings : List (Rendering α)

inductive Operation (α : Type) where
  | render
  | next
  | previous
  | first
  | setItemsPerPage (itemsPerPage : Int)
  | search
  | change (rows : List α)

namespace Page

def start (itemsPerPage : Int) (rows : List α) : Page α := ⟨.new itemsPerPage, rows, []⟩

def step (page : Page α) : Operation α → Option (Page α)
  | .render => do
    let (displayed, view) ← page.view.getItemModels (slices page.rows)
    return { page with
      view
      renderings := page.renderings ++
        [⟨page.rows, displayed, view.isEmpty, view.getFromRow, view.getToRow, view.hasNextPage⟩] }
  | .next => do return { page with view := ← pagingNext.click page.view }
  | .previous => do return { page with view := ← pagingPrevious.click page.view }
  | .first => do return { page with view := ← pagingFirst.click page.view }
  | .setItemsPerPage itemsPerPage =>
    if 1 ≤ itemsPerPage then some { page with view := page.view.setItemsPerPage itemsPerPage } else none
  | .search => some { page with view := page.view.setCurrentPage 0 }
  | .change rows => some { page with rows }

/-- The positions of the rows of the page, and the number of rows to load, are ints. -/
def NoOverflow (page : Page α) : Operation α → Prop
  | .render => page.view.itemsPerPage + 1 < 2 ^ 31 ∧ page.view.currentPage * page.view.itemsPerPage + 1 < 2 ^ 31 ∧
    min (page.rows.length : Int) ((page.view.currentPage + 1) * page.view.itemsPerPage) < 2 ^ 31
  | .next => page.view.currentPage + 1 < 2 ^ 31
  | .setItemsPerPage itemsPerPage => itemsPerPage < 2 ^ 31
  | _ => True

instance (page : Page α) (op : Operation α) : Decidable (page.NoOverflow op) :=
  match op with
  | .render => inferInstanceAs (Decidable (_ ∧ _ ∧ _))
  | .next => inferInstanceAs (Decidable (_ < _))
  | .setItemsPerPage _ => inferInstanceAs (Decidable (_ < _))
  | .previous | .first | .search | .change _ => isTrue trivial

/-- A page behind the first one is only rendered while it has a row. -/
def RendersRows (page : Page α) : Operation α → Prop
  | .render => page.view.currentPage = 0 ∨ page.view.currentPage * page.view.itemsPerPage < page.rows.length
  | _ => True

/-- Pages are counted from zero, and have room for a row. -/
structure WellFormed (page : Page α) : Prop where
  currentPage : 0 ≤ page.view.currentPage
  currentPage_lt : page.view.currentPage < 2 ^ 31
  itemsPerPage : 1 ≤ page.view.itemsPerPage

end Page

/-- The emptiness, the positions and the link to the next page are those of the shown rows. -/
structure Rendering.Truthful (r : Rendering α) : Prop where
  isEmpty : r.isEmpty = true ↔ r.displayed = []
  rows : r.displayed ≠ [] → ∃ before upTo : Nat, r.fromRow = before + 1 ∧ r.toRow = upTo ∧
    before < upTo ∧ upTo ≤ r.rows.length ∧ r.displayed = (r.rows.take upTo).drop before ∧
    (r.hasNextPage = true ↔ upTo < r.rows.length)

/-- What the rendering of a page shows of the rows. -/
def renderingOf (rows : List α) (currentPage itemsPerPage : Nat) : Rendering α where
  rows
  displayed := (rows.drop (currentPage * itemsPerPage)).take itemsPerPage
  isEmpty := !decide (0 < currentPage * itemsPerPage + min itemsPerPage (rows.length - currentPage * itemsPerPage))
  fromRow := (currentPage * itemsPerPage : Nat) + 1
  toRow := (currentPage * itemsPerPage + min itemsPerPage (rows.length - currentPage * itemsPerPage) : Nat)
  hasNextPage := decide ((currentPage + 1) * itemsPerPage < rows.length)

section rendering
variable {currentPage itemsPerPage : Nat} {rows : List α}

theorem slices_page (rows : List α) (currentPage itemsPerPage : Nat) :
    slices rows (currentPage * itemsPerPage : Nat) (itemsPerPage + 1 : Nat) =
      some ((rows.drop (currentPage * itemsPerPage)).take (itemsPerPage + 1)) ∧
    ((rows.drop (currentPage * itemsPerPage)).take (itemsPerPage + 1)).length =
      min (itemsPerPage + 1) (rows.length - currentPage * itemsPerPage) := by
  refine ⟨?_, by rw [List.length_take, List.length_drop]⟩
  rw [slices, Int.toNat_natCast, Int.toNat_natCast]

theorem take_of_slice (rows : List α) (currentPage itemsPerPage : Nat) :
    ((rows.drop (currentPage * itemsPerPage)).take (itemsPerPage + 1)).take itemsPerPage =
      (rows.drop (currentPage * itemsPerPage)).take itemsPerPage := by
  rw [List.take_take, Nat.min_eq_left (Nat.le_succ _)]

/-- The page tells the truth unless it is behind the first one and has no row: the rows
of the pages before it then pass for its own. -/
theorem renderingOf_truthful_iff (hk : 1 ≤ itemsPerPage) :
    (renderingOf rows currentPage itemsPerPage).Truthful ↔
      currentPage = 0 ∨ currentPage * itemsPerPage < rows.length := by
  have hdisplayed : (rows.drop (currentPage * itemsPerPage)).take itemsPerPage = [] ↔
      rows.length ≤ currentPage * itemsPerPage := by
    rw [← List.length_eq_zero_iff, List.length_take, List.length_drop]
    omega
  have hisEmpty : (renderingOf rows currentPage itemsPerPage).isEmpty = true ↔
      currentPage * itemsPerPage + min itemsPerPage (rows.length - currentPage * itemsPerPage) = 0 := by
    rw [renderingOf, Bool.not_eq_true', decide_eq_false_iff_not]
    omega
  constructor
  · intro ht
    by_contra hno
    rw [not_or, Nat.not_lt] at hno
    have hpos : 0 < currentPage * itemsPerPage := Nat.mul_pos (Nat.pos_of_ne_zero hno.1) hk
    have hzero := hisEmpty.mp (ht.isEmpty.mpr (hdisplayed.mpr hno.2))
    omega
  · intro hrow
    constructor
    · rw [hisEmpty]
      refine Iff.trans ?_ hdisplayed.symm
      rcases hrow with rfl | hrow
      · rw [Nat.zero_mul]
        omega
      · omega
    · intro hne
      have hlt : currentPage * itemsPerPage < rows.length := Nat.not_le.mp fun hle => hne (hdisplayed.mpr hle)
      refine ⟨currentPage * itemsPerPage,
        currentPage * itemsPerPage + min itemsPerPage (rows.length - currentPage * itemsPerPage), rfl, rfl,
        by omega, ?_, ?_, ?_⟩
      · dsimp only [renderingOf]
        omega
      · rw [List.drop_take, Nat.add_sub_cancel_left]
        dsimp only [renderingOf]
        rw [← List.length_drop, ← List.take_eq_take_min]
      · dsimp only [renderingOf]
        rw [decide_eq_true_iff, Nat.succ_mul]
        omega

theorem getFromRow_eq {view : UncountablyPageableListView} (hcurrent : view.currentPage = currentPage)
    (hitems : view.itemsPerPage = itemsPerPage) (hfit : currentPage * itemsPerPage + 1 < 2 ^ 31) :
    view.getFromRow = (currentPage * itemsPerPage : Nat) + 1 := by
  rw [getFromRow, hcurrent, hitems, ← Int.natCast_mul, int32_of_range (n := ((currentPage * itemsPerPage : Nat) : Int))
    (by omega) (by omega), int32_of_range (by omega) (by omega)]

theorem getToRow_eq {view : UncountablyPageableListView} (hcurrent : view.currentPage = currentPage)
    (hitems : view.itemsPerPage = itemsPerPage) (hfit : currentPage * itemsPerPage + 1 < 2 ^ 31) {fetched : Nat}
    (hfetched : view.itemsFetched = fetched) (hlast : currentPage * itemsPerPage + min fetched itemsPerPage < 2 ^ 31) :
    view.getToRow = (currentPage * itemsPerPage + min fetched itemsPerPage : Nat) := by
  have hbefore : int32 (view.getFromRow - 1) = (currentPage * itemsPerPage : Nat) := by
    rw [getFromRow_eq hcurrent hitems hfit, Int.add_sub_cancel]
    exact int32_of_range (by omega) (by omega)
  rw [getToRow, hbefore, hfetched, hitems, int32_of_range (by omega) (by omega)]
  omega

theorem Page.step_render_of {page : Page α} {displayed : List α} {view : UncountablyPageableListView}
    (h : page.view.getItemModels (slices page.rows) = some (displayed, view)) :
    page.step .render = some { page with
      view
      renderings := page.renderings ++
        [⟨page.rows, displayed, view.isEmpty, view.getFromRow, view.getToRow, view.hasNextPage⟩] } := by
  rw [step, h]
  rfl

theorem Page.step_render {page : Page α} (hcurrent : page.view.currentPage = currentPage)
    (hitems : page.view.itemsPerPage = itemsPerPage) (hfit : page.NoOverflow .render) :
    ∃ view : UncountablyPageableListView, view.currentPage = page.view.currentPage ∧
      view.itemsPerPage = page.view.itemsPerPage ∧
      page.step .render = some { page with
        view
        renderings := page.renderings ++ [renderingOf page.rows currentPage itemsPerPage] } := by
  obtain ⟨hlimit, hfrom, hto⟩ := hfit
  rw [hitems] at hlimit
  rw [hcurrent, hitems, ← Int.natCast_mul] at hfrom
  have hlast : (page.view.currentPage + 1) * page.view.itemsPerPage =
      ((currentPage * itemsPerPage + itemsPerPage : Nat) : Int) := by
    rw [hcurrent, hitems, Int.add_mul, Int.one_mul, Int.natCast_add, Int.natCast_mul]
  rw [hlast] at hto
  obtain ⟨hslice, hlength⟩ := slices_page page.rows currentPage itemsPerPage
  have hview := UncountablyPageableListView.getItemModels_eq (by omega) (by omega) hslice hlength hcurrent hitems
  rw [take_of_slice, hlength] at hview
  obtain ⟨view, hview, hcurrent', hitems', hfetched, hnext⟩ :
      ∃ view, page.view.getItemModels (slices page.rows) =
        some ((page.rows.drop (currentPage * itemsPerPage)).take itemsPerPage, view) ∧
        view.currentPage = page.view.currentPage ∧ view.itemsPerPage = page.view.itemsPerPage ∧
        view.itemsFetched = (min (itemsPerPage + 1) (page.rows.length - currentPage * itemsPerPage) : Nat) ∧
        view.hasNextPage = decide ((currentPage + 1) * itemsPerPage < page.rows.length) :=
    ⟨_, hview, rfl, rfl, rfl, rfl⟩
  have hfromRow := getFromRow_eq (hcurrent'.trans hcurrent) (hitems'.trans hitems) (by omega)
  have htoRow := getToRow_eq (hcurrent'.trans hcurrent) (hitems'.trans hitems) (by omega) hfetched (by omega)
  -- the row behind the page is loaded, but not counted
  have hmin : min (min (itemsPerPage + 1) (page.rows.length - currentPage * itemsPerPage)) itemsPerPage =
      min itemsPerPage (page.rows.length - currentPage * itemsPerPage) := by omega
  rw [hmin] at htoRow
  have hisEmpty : view.isEmpty = (renderingOf page.rows currentPage itemsPerPage).isEmpty := by
    rw [UncountablyPageableListView.isEmpty, htoRow]
    exact congrArg not (decide_eq_decide.mpr (by omega))
  refine ⟨view, hcurrent', hitems', ?_⟩
  rw [step_render_of hview, hisEmpty, hfromRow, htoRow, hnext]
  rfl

end rendering

theorem Link.click_eq_some_iff {link : Link} {view view' : UncountablyPageableListView} :
    link.click view = some view' ↔ link.isEnabled view = true ∧ link.onClick view = view' := by
  rw [click, Option.ite_none_right_eq_some, Option.some_inj]

namespace Page
variable {page page' : Page α} {op : Operation α}

/-- A click is only possible on an enabled link, and changes nothing but the view. -/
theorem eq_of_click (link : Link) (h : (do return { page with view := ← link.click page.view }) = some page') :
    link.isEnabled page.view = true ∧ { page with view := link.onClick page.view } = page' := by
  obtain ⟨view, hclick, hpage⟩ := Option.bind_eq_some_iff.mp h
  obtain ⟨henabled, rfl⟩ := Link.click_eq_some_iff.mp hclick
  exact ⟨henabled, Option.some.inj hpage⟩

/-- Every operation but a rendering leaves the renderings alone. -/
theorem renderings_of_step (hop : op ≠ .render) (h : page.step op = some page') :
    page'.renderings = page.renderings := by
  cases op with
  | render => exact absurd rfl hop
  | next | previous | first =>
    obtain ⟨-, rfl⟩ := eq_of_click _ h
    rfl
  | setItemsPerPage k =>
    obtain ⟨-, hpage⟩ := Option.ite_none_right_eq_some.mp h
    obtain rfl := Option.some.inj hpage
    rfl
  | search | change rows =>
    obtain rfl := Option.some.inj h
    rfl

theorem WellFormed.step (hw : page.WellFormed) (hfit : page.NoOverflow op) (h : page.step op = some page') :
    page'.WellFormed := by
  obtain ⟨hcurrent, hcurrent', hitems⟩ := hw
  have hzero : (0 : Int) < 2 ^ 31 := by decide
  cases op with
  | render =>
    obtain ⟨p, hp⟩ := Int.eq_ofNat_of_zero_le hcurrent
    obtain ⟨k, hk⟩ := Int.eq_ofNat_of_zero_le (Int.le_of_lt hitems)
    obtain ⟨view, hc, hi, hstep⟩ := step_render hp hk hfit
    obtain rfl := Option.some.inj (hstep.symm.trans h)
    exact ⟨hc.symm ▸ hcurrent, hc.symm ▸ hcurrent', hi.symm ▸ hitems⟩
  | next =>
    obtain ⟨-, rfl⟩ := eq_of_click pagingNext h
    have hfit' : page.view.currentPage + 1 < 2 ^ 31 := hfit
    have hnext : int32 (page.view.currentPage + 1) = page.view.currentPage + 1 :=
      int32_of_range (by omega) (by omega)
    refine ⟨?_, ?_, hitems⟩ <;> dsimp only [pagingNext, setCurrentPage] <;> omega
  | previous =>
    obtain ⟨henabled, rfl⟩ := eq_of_click pagingPrevious h
    have hpos : page.view.currentPage > 0 := of_decide_eq_true henabled
    have hprevious : int32 (page.view.currentPage - 1) = page.view.currentPage - 1 :=
      int32_of_range (by omega) (by omega)
    refine ⟨?_, ?_, hitems⟩ <;> dsimp only [pagingPrevious, setCurrentPage] <;> omega
  | first =>
    obtain ⟨-, rfl⟩ := eq_of_click pagingFirst h
    exact ⟨le_rfl, hzero, hitems⟩
  | setItemsPerPage k =>
    obtain ⟨hk, hpage⟩ := Option.ite_none_right_eq_some.mp h
    obtain rfl := Option.some.inj hpage
    exact ⟨hcurrent, hcurrent', hk⟩
  | search =>
    obtain rfl := Option.some.inj h
    exact ⟨le_rfl, hzero, hitems⟩
  | change rows =>
    obtain rfl := Option.some.inj h
    exact ⟨hcurrent, hcurrent', hitems⟩

/-- Among all operations only the rendering of a page without rows adds an untruth. -/
theorem truthful_step_iff (hw : page.WellFormed) (hfit : page.NoOverflow op) (h : page.step op = some page') :
    (∀ r ∈ page'.renderings, r.Truthful) ↔ (∀ r ∈ page.renderings, r.Truthful) ∧ page.RendersRows op := by
  by_cases hop : op = .render
  · subst hop
    obtain ⟨p, hp⟩ := Int.eq_ofNat_of_zero_le hw.currentPage
    obtain ⟨k, hk⟩ := Int.eq_ofNat_of_zero_le (Int.le_of_lt hw.itemsPerPage)
    obtain ⟨view, -, -, hstep⟩ := step_render hp hk hfit
    obtain rfl := Option.some.inj (hstep.symm.trans h)
    have hk' : 1 ≤ k := by
      have hpos := hw.itemsPerPage
      omega
    rw [List.forall_mem_append, List.forall_mem_singleton, renderingOf_truthful_iff hk']
    refine and_congr_right fun _ => ?_
    rw [RendersRows, hp, hk, ← Int.natCast_mul]
    omega
  · rw [renderings_of_step hop h]
    refine (and_iff_left ?_).symm
    cases op with
    | render => exact absurd rfl hop
    | _ => trivial

/-- In every run without overflow all renderings tell the truth if and only if each of
them was of the first page or of one that had a row at that moment. -/
theorem renderings_truthful_iff {itemsPerPage : Int} (hk : 1 ≤ itemsPerPage) {rows : List α} {ops : List (Operation α)}
    (hrun : Run step (start itemsPerPage rows) ops page) (hfit : AllSteps step NoOverflow (start itemsPerPage rows) ops) :
    (∀ r ∈ page.renderings, r.Truthful) ↔ AllSteps step RendersRows (start itemsPerPage rows) ops := by
  have hzero : (0 : Int) < 2 ^ 31 := by decide
  have hstart : (start itemsPerPage rows).WellFormed := ⟨le_rfl, hzero, hk⟩
  rw [hrun.holds_iff_allSteps_of hfit (fun _ _ _ hw hfit h => hw.step hfit h)
    (fun _ _ _ hw hfit h => truthful_step_iff hw hfit h) hstart]
  exact and_iff_right (List.forall_mem_nil _)

/-- The second page is opened, and then only one row is left, or still both. -/
def openSecond (rows : List Bool) : List (Operation Bool) := [.render, .next, .change rows, .render]

theorem second_page_truthful : ∃ page, Run step (start 1 [true, false]) (openSecond [true, false]) page ∧
    AllSteps step NoOverflow (start 1 [true, false]) (openSecond [true, false]) ∧
    ((∀ r ∈ page.renderings, r.Truthful) ↔
      AllSteps step RendersRows (start 1 [true, false]) (openSecond [true, false])) := by
  have hrun : ∃ page, exec step (start 1 [true, false]) (openSecond [true, false]) = some page := ⟨_, rfl⟩
  have hfit : AllSteps step NoOverflow (start 1 [true, false]) (openSecond [true, false]) := by decide
  obtain ⟨page, hrun⟩ := hrun
  exact ⟨page, exec_eq_some_iff.mp hrun, hfit, renderings_truthful_iff (by decide) (exec_eq_some_iff.mp hrun) hfit⟩

/-- The second page is shown without a row and without being empty. -/
theorem second_page_not_isEmpty : ∃ page, Run step (start 1 [true, false]) (openSecond [true]) page ∧
    AllSteps step NoOverflow (start 1 [true, false]) (openSecond [true]) ∧
    ∃ r ∈ page.renderings, r.displayed = [] ∧ r.isEmpty = false := by
  refine ⟨_, exec_eq_some_iff.mp rfl, by decide, _, List.mem_cons_of_mem _ List.mem_cons_self, ?_⟩
  decide

end Page

section walk
variable {itemsPerPage : Nat} {rows : List α}

/-- What the walk through unchanging rows shows, page by page. -/
def pagesOf (rows : List α) (itemsPerPage : Nat) : List (List α) :=
  (List.range ((rows.length - 1) / itemsPerPage + 1)).map fun page =>
    (rows.drop (page * itemsPerPage)).take itemsPerPage

theorem walk_slices (hk : 1 ≤ itemsPerPage) (hk' : itemsPerPage < 2 ^ 31 - 1)
    (hfit : (rows.length - 1) / itemsPerPage * itemsPerPage < 2 ^ 31) :
    walk (fun _ => slices rows) (rows.length + 1) 0 (.new itemsPerPage) = some (pagesOf rows itemsPerPage) := by
  have hlast := Nat.div_le_self (rows.length - 1) itemsPerPage
  rw [walk_eq hk hk' hfit (fun page => slices_page rows page itemsPerPage) (Nat.zero_le _) (by omega) rfl rfl,
    pagesOf, List.range_eq_range', Nat.sub_zero]
  simp only [take_of_slice]

theorem pagesOf_flatten (hk : 1 ≤ itemsPerPage) : (pagesOf rows itemsPerPage).flatten = rows := by
  rw [pagesOf, ← List.flatMap_def, flatMap_slices, List.take_of_length_le]
  have hdiv := Nat.div_add_mod (rows.length - 1) itemsPerPage
  have hmod := Nat.mod_lt (rows.length - 1) hk
  rw [Nat.succ_mul, Nat.mul_comm]
  omega

theorem length_pagesOf (hk : 1 ≤ itemsPerPage) :
    (pagesOf rows itemsPerPage).length = max 1 ((rows.length + itemsPerPage - 1) / itemsPerPage) := by
  rw [pagesOf, List.length_map, List.length_range]
  rcases Nat.eq_zero_or_pos rows.length with hzero | hpos
  · rw [hzero, Nat.zero_sub, Nat.zero_div, Nat.zero_add, Nat.zero_add, Nat.div_eq_of_lt (by omega)]
    rfl
  · have hceil : rows.length + itemsPerPage - 1 = rows.length - 1 + itemsPerPage := by omega
    rw [hceil, Nat.add_div_right _ hk]
    exact (Nat.max_eq_right (Nat.succ_le_succ (Nat.zero_le _))).symm

/-- Every page in front of the last one is full. -/
theorem length_of_mem_dropLast (hk : 1 ≤ itemsPerPage) {page : List α}
    (h : page ∈ (pagesOf rows itemsPerPage).dropLast) : page.length = itemsPerPage := by
  rw [pagesOf, List.range_succ, List.map_append, List.map_singleton, List.dropLast_concat] at h
  obtain ⟨i, hi, rfl⟩ := List.mem_map.mp h
  have hle : (i + 1) * itemsPerPage ≤ rows.length - 1 := (Nat.le_div_iff_mul_le hk).mp (List.mem_range.mp hi)
  rw [Nat.succ_mul] at hle
  rw [List.length_take, List.length_drop]
  omega

/-- The load depends on the number and the size of the page alone. -/
theorem getItemModels_congr {load : Int → Int → Option (List α)} {view view' : UncountablyPageableListView}
    (hcurrent : view.currentPage = view'.currentPage) (hitems : view.itemsPerPage = view'.itemsPerPage) :
    view.getItemModels load = view'.getItemModels load := by
  rw [getItemModels, getItemModels, hcurrent, hitems]

theorem getItemModels_slices (rows : List α) (view : UncountablyPageableListView) :
    ∃ items shown, view.getItemModels (slices rows) = some (items, shown) ∧
      shown.currentPage = view.currentPage ∧ shown.itemsPerPage = view.itemsPerPage :=
  ⟨_, _, rfl, rfl, rfl⟩

/-- From the next page the link back is enabled, and leads to the page as it was. -/
theorem previous_after_next {view shown : UncountablyPageableListView} {items : List α}
    (hpage : 0 ≤ view.currentPage) (hfit : view.currentPage + 1 < 2 ^ 31)
    (hshown : view.getItemModels (slices rows) = some (items, shown)) (hnext : pagingNext.isEnabled shown = true) :
    ∃ nextView nextItems nextShown previousView, pagingNext.click shown = some nextView ∧
      nextView.getItemModels (slices rows) = some (nextItems, nextShown) ∧
      pagingPrevious.click nextShown = some previousView ∧
      previousView.getItemModels (slices rows) = some (items, shown) := by
  obtain ⟨items', shown', hshown', hcurrent, hitems⟩ := getItemModels_slices rows view
  obtain ⟨rfl, rfl⟩ := Prod.mk.inj (Option.some.inj (hshown'.symm.trans hshown))
  obtain ⟨nextItems, nextShown, hnextShown, hnextCurrent, hnextItems⟩ :=
    getItemModels_slices rows (pagingNext.onClick shown')
  have hplus : nextShown.currentPage = view.currentPage + 1 := by
    rw [hnextCurrent, ← hcurrent]
    exact int32_of_range (by omega) (by omega)
  refine ⟨_, nextItems, nextShown, _, Link.click_eq_some_iff.mpr ⟨hnext, rfl⟩, hnextShown,
    Link.click_eq_some_iff.mpr ⟨decide_eq_true (by omega), rfl⟩, ?_⟩
  rw [← hshown]
  apply getItemModels_congr
  · rw [← Int.add_sub_cancel view.currentPage 1, ← hplus]
    exact int32_of_range (by omega) (by omega)
  · exact hnextItems.trans hitems

/-- The walk through unchanging rows shows each of them once and in order, in full pages but
for the last one. Going back from a page shows the one before it again. -/
theorem walk_complete (hk : 1 ≤ itemsPerPage) (hk' : itemsPerPage < 2 ^ 31 - 1)
    (hfit : (rows.length - 1) / itemsPerPage * itemsPerPage < 2 ^ 31) :
    (∃ pages, walk (fun _ => slices rows) (rows.length + 1) 0 (.new itemsPerPage) = some pages ∧
      pages.flatten = rows ∧ pages.length = max 1 ((rows.length + itemsPerPage - 1) / itemsPerPage) ∧
      ∀ page ∈ pages.dropLast, page.length = itemsPerPage) ∧
    ∀ (view shown : UncountablyPageableListView) (items : List α), 0 ≤ view.currentPage →
      view.currentPage + 1 < 2 ^ 31 → view.getItemModels (slices rows) = some (items, shown) →
      pagingNext.isEnabled shown = true →
      ∃ nextView nextItems nextShown previousView, pagingNext.click shown = some nextView ∧
        nextView.getItemModels (slices rows) = some (nextItems, nextShown) ∧
        pagingPrevious.click nextShown = some previousView ∧
        previousView.getItemModels (slices rows) = some (items, shown) := by
  constructor
  · exact ⟨_, walk_slices hk hk' hfit, pagesOf_flatten hk, length_pagesOf hk, fun page => length_of_mem_dropLast hk⟩
  · intro view shown items hpage hlt hshown hnext
    exact previous_after_next hpage hlt hshown hnext

theorem walk_of_three_rows : walk (fun _ => slices [true, false, true]) 4 0 (.new 2) = some [[true, false], [true]] ∧
    [[true, false], [true]].flatten = [true, false, true] := by
  obtain ⟨⟨pages, hpages, hflatten, -⟩, -⟩ := @walk_complete Bool 2 [true, false, true] (by decide) (by decide) (by decide)
  obtain rfl := Option.some.inj (hpages.symm.trans (by decide : _ = some [[true, false], [true]]))
  exact ⟨hpages, hflatten⟩

end walk

end Srvlog.Search
