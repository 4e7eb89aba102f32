import Mathlib.Data.List.Nodup
import Srvlog.Library.Decimal
import Srvlog.Library.Runs

/-! The dropdowns of the terminal page: what the script keeps in the elements of the document. -/
namespace Srvlog.Web
open Library

/-- The options of the script that its handlers read, with the limit in force. -/
structure MultiSelectOptions where
  max : Option Nat
  search : Bool
  selectAll : Bool
  listAll : Bool
  closeListOnItemSelect : Bool

/-- The defaults, which the terminal page leaves as they are. -/
def MultiSelectOptions.defaults : MultiSelectOptions := ⟨none, true, false, true, false⟩

/-- A character that stands for itself between double quotes, in HTML and in a selector. -/
def isPlain (ch : Char) : Bool := decide (32 ≤ ch.toNat ∧ ch ∉ ['"', '\\', '&'])

/-- A value is put between quotes as it is. The text and the HTML are those that the browser
writes for the content of an element. -/
structure DataItem where
  value : Text
  text : Text
  selected : Bool
  html : Option Text
  plain : ∀ ch ∈ value, isPlain ch = true
  deriving DecidableEq

/-- The content of the element of an item: its HTML, unless there is none. -/
def DataItem.content (item : DataItem) : Text :=
  match item.html with
  | none | some [] => item.text
  | some html => html

theorem plain_decimal (n : Nat) : ∀ ch ∈ decimal n, isPlain ch = true := by
  intro ch hch
  obtain ⟨hlow, hhigh⟩ := toNat_of_isDigit (isDigit_of_mem_decimal hch)
  refine decide_eq_true ⟨by omega, fun hmem => ?_⟩
  have hother : ∀ other ∈ ['"', '\\', '&'], ¬(48 ≤ other.toNat ∧ other.toNat ≤ 57) := by decide
  exact hother ch hmem ⟨hlow, hhigh⟩

/-- The data of a list of choices with these contents: the value of a choice is its number,
and none is selected. -/
def dataOfChoices (choices : List Text) : List DataItem :=
  choices.zipIdx.map fun (text, i) => ⟨decimal i, text, false, none, plain_decimal i⟩

theorem nodup_dataOfChoices (choices : List Text) : ((dataOfChoices choices).map DataItem.value).Nodup := by
  have hvalues : (dataOfChoices choices).map DataItem.value = (choices.zipIdx.map Prod.snd).map decimal := by
    rw [dataOfChoices, List.map_map, List.map_map]
    rfl
  rw [hvalues, List.zipIdx_map_snd, ← List.range_eq_range']
  refine List.nodup_range.map fun i j hij => ?_
  rw [← digitsValue_decimal i, hij, digitsValue_decimal]

structure OptionElement where
  value : Text
  text : Text
  selected : Bool
  displayed : Bool
  deriving DecidableEq

/-- The element that counts the selected values has no value. -/
structure HeaderOption where
  value : Option Text
  text : Text
  deriving DecidableEq

/-- The data and the elements made of it: the options, the options and placeholders in the
header, and the hidden inputs. -/
structure MultiSelect where
  data : List DataItem
  optionElements : List OptionElement
  headerOptions : List HeaderOption
  placeholders : Nat
  headerMax : Text
  inputs : List Text
  search : Text
  active : Bool
  allSelected : Bool
  deriving DecidableEq

/-- What a user can do. -/
inductive UserAction where
  | click (option : Nat)
  | search (text : Text)
  | header
  | outside
  | selectAll

namespace MultiSelect

def selectedValues (s : MultiSelect) : List Text := (s.data.filter DataItem.selected).map DataItem.value

def counter (n : Nat) : HeaderOption := ⟨none, decimal n ++ " selected".toList⟩

def maxText (max : Option Nat) (n : Nat) : Text := max.elim [] fun max => decimal n ++ '/' :: decimal max

section model
variable (options : MultiSelectOptions) (toLowerCase : Text → Text)

def template (data : List DataItem) : MultiSelect :=
  let selectedValues := (data.filter DataItem.selected).map DataItem.value
  { data := data
    optionElements := data.map fun item =>
      ⟨item.value, item.content, decide (item.value ∈ selectedValues), true⟩
    headerOptions := []
    placeholders := 1
    headerMax := maxText options.max selectedValues.length
    inputs := selectedValues
    search := []
    active := false
    allSelected := false }

/-- Each option is put in front of those that the header has already. -/
def updateSelected (s : MultiSelect) : MultiSelect :=
  let headerOptions :=
    if options.listAll then
      (s.optionElements.filter OptionElement.selected).foldl
        (fun headerOptions option => ⟨some option.value, option.text⟩ :: headerOptions) s.headerOptions
    else if s.selectedValues = [] then s.headerOptions
    else counter s.selectedValues.length :: s.headerOptions
  { s with
    headerOptions := headerOptions
    placeholders := if headerOptions = [] then s.placeholders else s.placeholders - 1 }

def new (data : List DataItem) : MultiSelect := updateSelected options (template options data)

/-- The first item of the value is marked; without one this throws. -/
def markFirst (value : Text) (selected : Bool) : List DataItem → Option (List DataItem)
  | [] => none
  | item :: data =>
    if item.value = value then some ({ item with selected := selected } :: data)
    else (markFirst value selected data).map (item :: ·)

def setSelected (s : MultiSelect) (i : Nat) (option : OptionElement) (selected : Bool) : List OptionElement :=
  s.optionElements.set i { option with selected := selected }

/-- The first part of the handler, for an option that is selected by the click. -/
def select (s : MultiSelect) (i : Nat) (option : OptionElement) : Option MultiSelect :=
  (markFirst option.value true s.data).map fun data => { s with
    optionElements := setSelected s i option true
    headerOptions := if options.listAll then s.headerOptions ++ [⟨some option.value, option.text⟩] else s.headerOptions
    inputs := option.value :: s.inputs
    data := data }

/-- The first part of the handler, for an option that was selected. A missing input throws. -/
def unselect (s : MultiSelect) (i : Nat) (option : OptionElement) : Option MultiSelect :=
  if option.value ∈ s.inputs then
    (markFirst option.value false s.data).map fun data => { s with
      optionElements := setSelected s i option false
      headerOptions := s.headerOptions.filter fun headerOption => decide (headerOption.value ≠ some option.value)
      inputs := s.inputs.erase option.value
      data := data }
  else none

/-- The rest of the handler. -/
def refresh (s : MultiSelect) : MultiSelect :=
  let headerOptions :=
    if options.listAll then s.headerOptions else counter s.selectedValues.length :: s.headerOptions.tail
  { s with
    headerOptions := headerOptions
    placeholders := if headerOptions = [] then s.placeholders + 1 else s.placeholders - 1
    headerMax := if options.max.isSome then maxText options.max s.selectedValues.length else s.headerMax
    search := if options.search then [] else s.search
    optionElements := s.optionElements.map fun option => { option with displayed := true }
    active := if options.closeListOnItemSelect then false else s.active }

/-- With its result the click reports whether it has selected or unselected the option. -/
def click (s : MultiSelect) (i : Nat) : Option (MultiSelect × Option Bool) :=
  match s.optionElements[i]? with
  | none => none
  | some option =>
    if option.selected then (unselect s i option).map fun s => (refresh options s, some false)
    else if options.max.any fun max => decide (max ≤ s.selectedValues.length) then some (s, none)
    else (select options s i option).map fun s => (refresh options s, some true)

/-- The loop of the button that selects all, from the option with the given number on. -/
def clickAll (allSelected : Bool) (s : MultiSelect) : List Nat → Option MultiSelect
  | [] => some s
  | i :: is =>
    match s.optionElements[i]?.bind fun option => s.data.find? fun item => decide (item.value = option.value) with
    | none => clickAll allSelected s is
    | some item =>
      if item.selected = allSelected then (click options s i).bind fun clicked => clickAll allSelected clicked.1 is
      else clickAll allSelected s is

def occursIn (part text : Text) : Bool := text.tails.any part.isPrefixOf

def step (s : MultiSelect) : UserAction → Option MultiSelect
  | .click i => (click options s i).map Prod.fst
  | .search text => if options.search then some { s with
      search := text
      optionElements := s.optionElements.map fun option =>
        { option with displayed := occursIn (toLowerCase text) (toLowerCase option.text) } } else none
  | .header => some { s with active := !s.active }
  | .outside => some { s with active := false }
  | .selectAll => if options.selectAll then
      (clickAll options s.allSelected s (List.range s.optionElements.length)).map fun s =>
        { s with allSelected := !s.allSelected } else none

end model
end MultiSelect

/-! What the dropdown is for: a list of chosen values, in the order in which they were chosen. -/

structure Selection where
  chosen : List Text
  allSelected : Bool

namespace Selection

/-- What is selected in the beginning is shown in the reverse order. -/
def start (data : List DataItem) : Selection := ⟨((data.filter DataItem.selected).map DataItem.value).reverse, false⟩

variable (options : MultiSelectOptions) (values : List Text)

def toggle (max : Option Nat) (value : Text) (chosen : List Text) : List Text :=
  if value ∈ chosen then chosen.erase value
  else if max.any fun max => decide (max ≤ chosen.length) then chosen
  else chosen ++ [value]

/-- All values that the button finds as it is itself are toggled. -/
def toggleAll (max : Option Nat) (allSelected : Bool) (chosen : List Text) : List Text → List Text
  | [] => chosen
  | value :: values =>
    toggleAll max allSelected (if decide (value ∈ chosen) = allSelected then toggle max value chosen else chosen) values

def step (s : Selection) : UserAction → Selection
  | .click i => { s with chosen := values[i]?.elim s.chosen fun value => toggle options.max value s.chosen }
  | .selectAll => ⟨toggleAll options.max s.allSelected s.chosen values, !s.allSelected⟩
  | .search _ | .header | .outside => s

end Selection

end Srvlog.Web
