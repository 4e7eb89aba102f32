import Srvlog.Web.MultiSelect

/-! The document of a dropdown shows the chosen values, whatever its user does. -/
namespace Srvlog.Web
open Library

namespace MultiSelect
variable {options : MultiSelectOptions}

/-- The document shows the chosen values: every part of it is what they and the items make it. -/
structure Shows (options : MultiSelectOptions) (items : List (Text × Text)) (s : MultiSelect) (chosen : List Text) :
    Prop where
  nodup : chosen.Nodup
  known : ∀ value ∈ chosen, value ∈ items.map Prod.fst
  data : s.data.map (fun item => (item.value, item.selected)) = items.map fun p => (p.1, decide (p.1 ∈ chosen))
  optionElements : s.optionElements.map (fun option => (option.value, option.text, option.selected)) =
    items.map fun p => (p.1, p.2, decide (p.1 ∈ chosen))
  inputs : s.inputs = chosen.reverse
  headerOptions : if options.listAll then
      s.headerOptions = chosen.map fun value => ⟨some value, (items.lookup value).getD []⟩
    else s.headerOptions = [counter chosen.length] ∨ s.headerOptions = [] ∧ chosen = []
  placeholders : s.placeholders = if s.headerOptions = [] then 1 else 0
  headerMax : s.headerMax = maxText options.max chosen.length

section items
variable {items : List (Text × Text)} {s : MultiSelect} {chosen : List Text}

theorem selectedValues_eq (h : s.data.map (fun item => (item.value, item.selected)) =
      items.map fun p => (p.1, decide (p.1 ∈ chosen))) :
    s.selectedValues = (items.map Prod.fst).filter fun value => decide (value ∈ chosen) := by
  have hpairs : s.selectedValues =
      ((s.data.map fun item => (item.value, item.selected)).filter Prod.snd).map Prod.fst := by
    rw [List.filter_map, List.map_map]
    rfl
  rw [hpairs, h, List.filter_map, List.filter_map, List.map_map]
  rfl

/-- As many values are selected in the data as are chosen. -/
theorem length_selectedValues (hitems : (items.map Prod.fst).Nodup) (hnodup : chosen.Nodup)
    (hknown : ∀ value ∈ chosen, value ∈ items.map Prod.fst)
    (h : s.data.map (fun item => (item.value, item.selected)) = items.map fun p => (p.1, decide (p.1 ∈ chosen))) :
    s.selectedValues.length = chosen.length := by
  rw [selectedValues_eq h]
  refine ((List.perm_ext_iff_of_nodup (hitems.filter _) hnodup).mpr fun value => ?_).length_eq
  rw [List.mem_filter, decide_eq_true_iff]
  exact ⟨fun hvalue => hvalue.2, fun hvalue => ⟨hknown value hvalue, hvalue⟩⟩

theorem lookup_of_getElem? (hitems : (items.map Prod.fst).Nodup) {i : Nat} {p : Text × Text} (h : items[i]? = some p) :
    items.lookup p.1 = some p.2 := by
  induction items generalizing i with
  | nil => cases h
  | cons q items ih =>
    obtain ⟨hq, hrest⟩ := List.nodup_cons.mp hitems
    rw [List.lookup_cons]
    cases i with
    | zero =>
      obtain rfl := Option.some.inj h
      rw [beq_self_eq_true]
    | succ i =>
      have hmem : p.1 ∈ items.map Prod.fst := List.mem_map_of_mem (List.mem_of_getElem? h)
      have hne : (p.1 == q.1) = false := beq_false_of_ne fun heq => hq (heq ▸ hmem)
      rw [hne]
      exact ih hrest h

/-- In data with distinct values the first item of a value is the only one. -/
theorem markFirst_eq {data : List DataItem} {value : Text} (selected : Bool) (hdata : (data.map DataItem.value).Nodup)
    (hvalue : value ∈ data.map DataItem.value) : ∃ data', markFirst value selected data = some data' ∧
      data'.map (fun item => (item.value, item.selected)) =
        data.map fun item => (item.value, if item.value = value then selected else item.selected) := by
  induction data with
  | nil => cases hvalue
  | cons item data ih =>
    obtain ⟨hitem, hrest⟩ := List.nodup_cons.mp hdata
    rw [markFirst]
    by_cases heq : item.value = value
    · rw [if_pos heq]
      refine ⟨_, rfl, ?_⟩
      rw [List.map_cons, List.map_cons, if_pos heq]
      refine congrArg _ (List.map_congr_left fun other hother => ?_)
      have hne : other.value ≠ value := by
        intro hsame
        rw [heq, ← hsame] at hitem
        exact hitem (List.mem_map_of_mem hother)
      rw [if_neg hne]
    · rw [if_neg heq]
      obtain ⟨data', hdata', hmap⟩ := ih hrest ((List.mem_cons.mp hvalue).resolve_left fun h => heq h.symm)
      refine ⟨item :: data', by rw [hdata']; rfl, ?_⟩
      rw [List.map_cons, List.map_cons, if_neg heq, hmap]

/-- Marking one item marks the value of one item. -/
theorem set_marks (hitems : (items.map Prod.fst).Nodup) {i : Nat} {p : Text × Text} (hi : items[i]? = some p)
    {chosen' : List Text} (hother : ∀ value, value ≠ p.1 → (value ∈ chosen' ↔ value ∈ chosen)) :
    (items.map fun q => (q.1, q.2, decide (q.1 ∈ chosen))).set i (p.1, p.2, decide (p.1 ∈ chosen')) =
      items.map fun q => (q.1, q.2, decide (q.1 ∈ chosen')) := by
  refine List.ext_getElem? fun j => ?_
  rw [List.getElem?_set, List.getElem?_map, List.getElem?_map, List.length_map]
  split
  · next hij =>
    obtain ⟨hlt, -⟩ := List.getElem?_eq_some_iff.mp hi
    rw [if_pos hlt, ← hij, hi]
    rfl
  · next hij =>
    cases hj : items[j]? with
    | none => rfl
    | some q =>
      have hne : q.1 ≠ p.1 := by
        intro hsame
        have hlt : i < (items.map Prod.fst).length := by
          rw [List.length_map]
          exact (List.getElem?_eq_some_iff.mp hi).1
        refine hij ((List.getElem?_inj hlt hitems).mp ?_)
        rw [List.getElem?_map, List.getElem?_map, hi, hj, Option.map_some, Option.map_some, hsame]
      rw [Option.map_some, Option.map_some, decide_eq_decide.mpr (hother q.1 hne)]

/-- The same of the data. -/
theorem data_marks {data data' : List DataItem} {value : Text} {selected : Bool} {chosen' : List Text}
    (hdata' : data'.map (fun item => (item.value, item.selected)) =
      data.map fun item => (item.value, if item.value = value then selected else item.selected))
    (hdata : data.map (fun item => (item.value, item.selected)) = items.map fun p => (p.1, decide (p.1 ∈ chosen)))
    (hself : selected = decide (value ∈ chosen')) (hother : ∀ v, v ≠ value → (v ∈ chosen' ↔ v ∈ chosen)) :
    data'.map (fun item => (item.value, item.selected)) = items.map fun p => (p.1, decide (p.1 ∈ chosen')) := by
  have hmarked := congrArg (List.map fun q : Text × Bool => (q.1, if q.1 = value then selected else q.2)) hdata
  rw [List.map_map, List.map_map] at hmarked
  refine hdata'.trans (hmarked.trans (List.map_congr_left fun p _ => ?_))
  dsimp only [Function.comp_apply]
  split
  · next heq => rw [hself, heq]
  · next hne => rw [decide_eq_decide.mpr (hother p.1 hne)]

/-- What the rest of the handler makes of the elements that the first part has changed. -/
theorem shows_refresh (hitems : (items.map Prod.fst).Nodup) (hnodup : chosen.Nodup)
    (hknown : ∀ value ∈ chosen, value ∈ items.map Prod.fst)
    (hdata : s.data.map (fun item => (item.value, item.selected)) = items.map fun p => (p.1, decide (p.1 ∈ chosen)))
    (helements : s.optionElements.map (fun option => (option.value, option.text, option.selected)) =
      items.map fun p => (p.1, p.2, decide (p.1 ∈ chosen)))
    (hinputs : s.inputs = chosen.reverse)
    (hheader : if options.listAll then
        s.headerOptions = chosen.map fun value => ⟨some value, (items.lookup value).getD []⟩
      else s.headerOptions.tail = [])
    (hplaceholders : s.placeholders ≤ 1)
    (hempty : options.listAll = true → s.headerOptions = [] → s.placeholders = 0)
    (hmax : options.max = none → s.headerMax = []) : Shows options items (refresh options s) chosen := by
  have hlength := length_selectedValues hitems hnodup hknown hdata
  refine ⟨hnodup, hknown, hdata, ?_, hinputs, ?_, ?_, ?_⟩
  · unfold refresh
    rw [List.map_map]
    exact helements
  · unfold refresh
    dsimp only
    split
    · next hall =>
      rw [if_pos hall] at hheader
      exact hheader
    · next hall =>
      rw [if_neg hall] at hheader
      left
      rw [hheader, hlength]
  · unfold refresh
    dsimp only
    split
    · next hall =>
      split
      · next hnil => rw [hempty hall hnil]
      · omega
    · rw [if_neg (List.cons_ne_nil _ _), if_neg (List.cons_ne_nil _ _)]
      omega
  · unfold refresh
    dsimp only
    cases hmaximum : options.max with
    | none => exact hmax hmaximum
    | some max => exact congrArg (maxText (some max)) hlength

end items

section clicks
variable {items : List (Text × Text)} {s : MultiSelect} {chosen : List Text}

theorem distinct_of_shows (hitems : (items.map Prod.fst).Nodup) (hs : Shows options items s chosen) :
    (s.data.map DataItem.value).Nodup := by
  have hvalues := congrArg (List.map Prod.fst) hs.data
  rw [List.map_map, List.map_map] at hvalues
  exact hvalues.symm ▸ hitems

theorem value_mem_of_shows (hs : Shows options items s chosen) {value : Text} (h : value ∈ items.map Prod.fst) :
    value ∈ s.data.map DataItem.value := by
  have hvalues := congrArg (List.map Prod.fst) hs.data
  rw [List.map_map, List.map_map] at hvalues
  exact hvalues.symm ▸ h

/-- The item of an option. -/
theorem item_of_option (hs : Shows options items s chosen) {i : Nat} {option : OptionElement}
    (h : s.optionElements[i]? = some option) :
    items[i]? = some (option.value, option.text) ∧ option.selected = decide (option.value ∈ chosen) := by
  have hpair := congrArg (·[i]?) hs.optionElements
  rw [List.getElem?_map, List.getElem?_map, h, Option.map_some] at hpair
  obtain ⟨p, hp, heq⟩ := Option.map_eq_some_iff.mp hpair.symm
  obtain ⟨hvalue, hrest⟩ := Prod.mk.inj heq
  obtain ⟨htext, hselected⟩ := Prod.mk.inj hrest
  rw [hp, ← hvalue, ← htext, ← hselected]
  exact ⟨rfl, rfl⟩

theorem shows_unselect (hitems : (items.map Prod.fst).Nodup) (hs : Shows options items s chosen) {i : Nat}
    {option : OptionElement} (hi : s.optionElements[i]? = some option) (hchosen : option.value ∈ chosen) :
    ∃ t, unselect s i option = some t ∧ Shows options items (refresh options t) (chosen.erase option.value) := by
  obtain ⟨hitem, -⟩ := item_of_option hs hi
  have hvalue := value_mem_of_shows hs (hs.known _ hchosen)
  obtain ⟨data', hdata', hmap⟩ := markFirst_eq false (distinct_of_shows hitems hs) hvalue
  have hother : ∀ value, value ≠ option.value → (value ∈ chosen.erase option.value ↔ value ∈ chosen) :=
    fun value hne => List.mem_erase_of_ne hne
  have hnot : option.value ∉ chosen.erase option.value := fun h => (hs.nodup.mem_erase_iff.mp h).1 rfl
  have hinput : option.value ∈ s.inputs := by
    rw [hs.inputs]
    exact List.mem_reverse.mpr hchosen
  refine ⟨_, by rw [unselect, if_pos hinput, hdata']; rfl, shows_refresh hitems (hs.nodup.erase _) ?_ ?_ ?_ ?_ ?_ ?_ ?_ ?_⟩
  · exact fun value h => hs.known value (List.mem_of_mem_erase h)
  · exact data_marks hmap hs.data (decide_eq_false hnot).symm hother
  · unfold setSelected
    rw [List.map_set, hs.optionElements, ← set_marks hitems hitem hother, decide_eq_false hnot]
  · rw [hs.inputs, (List.nodup_reverse.mpr hs.nodup).erase_eq_filter, hs.nodup.erase_eq_filter, List.filter_reverse]
  · have hheader := hs.headerOptions
    dsimp only
    split at hheader
    · next hall =>
      rw [if_pos hall, hheader, hs.nodup.erase_eq_filter, List.filter_map]
      refine congrArg _ (List.filter_congr fun value _ => ?_)
      exact Bool.eq_iff_iff.mpr (by simp)
    · next hall =>
      rw [if_neg hall]
      rcases hheader with hcounter | ⟨hnone, -⟩
      · rw [hcounter]
        rfl
      · rw [hnone]
        rfl
  · rw [hs.placeholders]
    split
    · exact Nat.le_refl 1
    · exact Nat.zero_le 1
  · intro hall _
    have hheader := hs.headerOptions
    rw [if_pos hall] at hheader
    rw [hs.placeholders, hheader, if_neg]
    rw [List.map_eq_nil_iff]
    exact List.ne_nil_of_mem hchosen
  · intro hmax
    have hnone := hs.headerMax
    rw [hmax] at hnone
    exact hnone

theorem shows_select (hitems : (items.map Prod.fst).Nodup) (hs : Shows options items s chosen) {i : Nat}
    {option : OptionElement} (hi : s.optionElements[i]? = some option) (hchosen : option.value ∉ chosen) :
    ∃ t, select options s i option = some t ∧ Shows options items (refresh options t) (chosen ++ [option.value]) := by
  obtain ⟨hitem, -⟩ := item_of_option hs hi
  have hmem : option.value ∈ items.map Prod.fst := List.mem_map_of_mem (List.mem_of_getElem? hitem)
  obtain ⟨data', hdata', hmap⟩ := markFirst_eq true (distinct_of_shows hitems hs) (value_mem_of_shows hs hmem)
  have hother : ∀ value, value ≠ option.value → (value ∈ chosen ++ [option.value] ↔ value ∈ chosen) := by
    intro value hne
    rw [List.mem_append, List.mem_singleton, or_iff_left hne]
  have hlast : option.value ∈ chosen ++ [option.value] := List.mem_append_right _ (List.mem_singleton.mpr rfl)
  have hnodup : (chosen ++ [option.value]).Nodup := List.nodup_append.mpr
    ⟨hs.nodup, List.pairwise_singleton _ _, fun a ha b hb hab => hchosen (List.mem_singleton.mp hb ▸ hab ▸ ha)⟩
  refine ⟨_, by rw [select, hdata']; rfl, shows_refresh hitems hnodup ?_ ?_ ?_ ?_ ?_ ?_ ?_ ?_⟩
  · exact List.forall_mem_append.mpr ⟨hs.known, List.forall_mem_singleton.mpr hmem⟩
  · exact data_marks hmap hs.data (decide_eq_true hlast).symm hother
  · unfold setSelected
    rw [List.map_set, hs.optionElements, ← set_marks hitems hitem hother, decide_eq_true hlast]
  · rw [hs.inputs, List.reverse_append]
    rfl
  · have hheader := hs.headerOptions
    dsimp only
    split at hheader
    · next hall =>
      rw [if_pos hall, if_pos hall, hheader, List.map_append, List.map_singleton, lookup_of_getElem? hitems hitem]
      rfl
    · next hall =>
      rw [if_neg hall, if_neg hall]
      rcases hheader with hcounter | ⟨hnone, -⟩
      · rw [hcounter]
        rfl
      · rw [hnone]
        rfl
  · rw [hs.placeholders]
    split
    · exact Nat.le_refl 1
    · exact Nat.zero_le 1
  · intro hall hnil
    dsimp only at hnil
    rw [if_pos hall] at hnil
    exact absurd hnil (List.append_ne_nil_of_right_ne_nil _ (List.cons_ne_nil _ _))
  · intro hmax
    have hnone := hs.headerMax
    rw [hmax] at hnone
    exact hnone

/-- A click on an option toggles its value, and throws nothing. -/
theorem shows_click (hitems : (items.map Prod.fst).Nodup) (hs : Shows options items s chosen) {i : Nat}
    {p : Text × Text} (hi : items[i]? = some p) : ∃ t selected, click options s i = some (t, selected) ∧
      Shows options items t (Selection.toggle options.max p.1 chosen) := by
  have hlength := length_selectedValues hitems hs.nodup hs.known hs.data
  have hoption := congrArg (·[i]?) hs.optionElements
  rw [List.getElem?_map, List.getElem?_map, hi, Option.map_some] at hoption
  obtain ⟨option, hoption, heq⟩ := Option.map_eq_some_iff.mp hoption
  obtain ⟨hvalue, hrest⟩ := Prod.mk.inj heq
  obtain ⟨-, hselected⟩ := Prod.mk.inj hrest
  unfold click Selection.toggle
  rw [hoption, ← hvalue]
  dsimp only
  rw [hselected, ← hvalue]
  by_cases hchosen : option.value ∈ chosen
  · obtain ⟨t, ht, hshows⟩ := shows_unselect hitems hs hoption hchosen
    rw [if_pos (decide_eq_true hchosen), if_pos hchosen, ht]
    exact ⟨_, _, rfl, hshows⟩
  · rw [if_neg (by simpa using hchosen), if_neg hchosen, hlength]
    split
    · exact ⟨_, _, rfl, hs⟩
    · obtain ⟨t, ht, hshows⟩ := shows_select hitems hs hoption hchosen
      rw [ht]
      exact ⟨_, _, rfl, hshows⟩

/-- A click leaves the button that selects all as it is. -/
theorem allSelected_of_click {t : MultiSelect} {i : Nat} {selected : Option Bool}
    (h : click options s i = some (t, selected)) : t.allSelected = s.allSelected := by
  unfold click at h
  split at h
  · cases h
  split at h
  · obtain ⟨u, hu, heq⟩ := Option.map_eq_some_iff.mp h
    obtain ⟨rfl, -⟩ := Prod.mk.inj heq
    unfold unselect at hu
    split at hu
    · obtain ⟨data, -, rfl⟩ := Option.map_eq_some_iff.mp hu
      rfl
    · cases hu
  split at h
  · obtain ⟨rfl, -⟩ := Prod.mk.inj (Option.some.inj h)
    rfl
  · obtain ⟨u, hu, heq⟩ := Option.map_eq_some_iff.mp h
    obtain ⟨rfl, -⟩ := Prod.mk.inj heq
    obtain ⟨data, -, rfl⟩ := Option.map_eq_some_iff.mp hu
    rfl

/-- The item that the loop of the button finds for an option. -/
theorem find?_of_shows (hs : Shows options items s chosen) {i : Nat} {p : Text × Text} (hi : items[i]? = some p) :
    ∃ item, (s.optionElements[i]?.bind fun option => s.data.find? fun item => decide (item.value = option.value)) =
      some item ∧ item.selected = decide (p.1 ∈ chosen) := by
  have hoption := congrArg (·[i]?) hs.optionElements
  rw [List.getElem?_map, List.getElem?_map, hi, Option.map_some] at hoption
  obtain ⟨option, hoption, heq⟩ := Option.map_eq_some_iff.mp hoption
  have hvalue : option.value = p.1 := (Prod.mk.inj heq).1
  rw [hoption, Option.bind_some, hvalue]
  have hmem := value_mem_of_shows hs (List.mem_map_of_mem (List.mem_of_getElem? hi))
  obtain ⟨known, hknown, hsame⟩ := List.mem_map.mp hmem
  have hsome : (s.data.find? fun item => decide (item.value = p.1)).isSome :=
    List.find?_isSome.mpr ⟨known, hknown, decide_eq_true hsame⟩
  obtain ⟨item, hitem⟩ := Option.isSome_iff_exists.mp hsome
  refine ⟨item, hitem, ?_⟩
  have hpair : (item.value, item.selected) ∈ items.map fun p => (p.1, decide (p.1 ∈ chosen)) :=
    hs.data ▸ List.mem_map_of_mem (List.mem_of_find?_eq_some hitem)
  obtain ⟨q, -, hq⟩ := List.mem_map.mp hpair
  obtain ⟨hq, hselected⟩ := Prod.mk.inj hq
  have hfound := List.find?_some hitem
  rw [decide_eq_true_iff] at hfound
  rw [← hselected, hq, hfound]

/-- The button toggles the values that it finds as it is itself. -/
theorem shows_clickAll (hitems : (items.map Prod.fst).Nodup) (allSelected : Bool) (n : Nat) {k : Nat}
    (hk : k + n = items.length) (hs : Shows options items s chosen) :
    ∃ t, clickAll options allSelected s (List.range' k n) = some t ∧ t.allSelected = s.allSelected ∧
      Shows options items t
        (Selection.toggleAll options.max allSelected chosen ((items.drop k).map Prod.fst)) := by
  induction n generalizing k s chosen with
  | zero =>
    refine ⟨s, rfl, rfl, ?_⟩
    have hle : items.length ≤ k := Nat.le_of_eq hk.symm
    rw [List.drop_of_length_le hle]
    exact hs
  | succ n ih =>
    have hlt : k < items.length := by omega
    have hi : items[k]? = some items[k] := List.getElem?_eq_getElem hlt
    obtain ⟨item, hitem, hselected⟩ := find?_of_shows hs hi
    rw [List.range'_succ, clickAll, hitem, List.drop_eq_getElem_cons hlt, List.map_cons, Selection.toggleAll]
    dsimp only
    rw [hselected]
    split
    · obtain ⟨t, selected, ht, hshows⟩ := shows_click hitems hs hi
      obtain ⟨u, hu, hsame, hall⟩ := ih (k := k + 1) (by omega) hshows
      rw [ht]
      exact ⟨u, hu, hsame.trans (allSelected_of_click ht), hall⟩
    · exact ih (k := k + 1) (by omega) hs

end clicks

section runs
variable {toLowerCase : Text → Text} {data : List DataItem}

def itemsOf (data : List DataItem) : List (Text × Text) := data.map fun item => (item.value, item.content)

/-- With distinct values an item is selected when its value is among the selected ones. -/
theorem selected_iff (hdata : (data.map DataItem.value).Nodup) {item : DataItem} (hitem : item ∈ data) :
    item.selected = decide (item.value ∈ (data.filter DataItem.selected).map DataItem.value) := by
  refine Bool.eq_iff_iff.mpr ?_
  rw [decide_eq_true_iff, List.mem_map]
  constructor
  · exact fun hselected => ⟨item, List.mem_filter.mpr ⟨hitem, hselected⟩, rfl⟩
  · rintro ⟨other, hother, hvalue⟩
    obtain ⟨hmem, hselected⟩ := List.mem_filter.mp hother
    obtain rfl := List.inj_on_of_nodup_map hdata hmem hitem hvalue
    exact hselected

theorem lookup_itemsOf (hdata : ((itemsOf data).map Prod.fst).Nodup) {item : DataItem} (hitem : item ∈ data) :
    (itemsOf data).lookup item.value = some item.content := by
  have hmem : (item.value, item.content) ∈ itemsOf data := List.mem_map_of_mem hitem
  obtain ⟨i, hi⟩ := List.mem_iff_getElem?.mp hmem
  exact lookup_of_getElem? hdata hi

theorem shows_new (hdata : (data.map DataItem.value).Nodup) :
    Shows options (itemsOf data) (new options data) (Selection.start data).chosen := by
  have hvalues : (itemsOf data).map Prod.fst = data.map DataItem.value := by
    unfold itemsOf
    rw [List.map_map]
    rfl
  have hmem : ∀ value, value ∈ (Selection.start data).chosen ↔
      value ∈ (data.filter DataItem.selected).map DataItem.value := fun value => List.mem_reverse
  have hlength : (Selection.start data).chosen.length = ((data.filter DataItem.selected).map DataItem.value).length :=
    List.length_reverse
  have hsublist : ((data.filter DataItem.selected).map DataItem.value).Sublist (data.map DataItem.value) :=
    List.filter_sublist.map _
  refine ⟨List.nodup_reverse.mpr (hsublist.nodup hdata), fun value hvalue => ?_, ?_, ?_, ?_, ?_, ?_, ?_⟩
  · rw [hvalues]
    exact hsublist.subset ((hmem value).mp hvalue)
  · change data.map _ = _
    unfold itemsOf
    rw [List.map_map]
    refine List.map_congr_left fun item hitem => ?_
    dsimp only [Function.comp_apply]
    rw [selected_iff hdata hitem, decide_eq_decide.mpr (hmem item.value)]
  · change ((data.map _).map _) = _
    unfold itemsOf
    rw [List.map_map, List.map_map]
    refine List.map_congr_left fun item _ => ?_
    dsimp only [Function.comp_apply]
    rw [decide_eq_decide.mpr (hmem item.value)]
  · exact List.reverse_reverse _ |>.symm
  · unfold new updateSelected
    dsimp only
    split
    · next hall =>
      have hmarked : data.filter (fun item => decide (item.value ∈ (data.filter DataItem.selected).map DataItem.value)) =
          data.filter DataItem.selected := List.filter_congr fun item hitem => (selected_iff hdata hitem).symm
      unfold template Selection.start
      dsimp only
      rw [List.foldl_flip_cons_eq_append, List.append_nil, List.filter_map, List.map_map, List.map_reverse, List.map_map]
      change ((data.filter fun item => decide (item.value ∈ _)).map _).reverse = _
      rw [hmarked]
      refine congrArg List.reverse (List.map_congr_left fun item hitem => ?_)
      dsimp only [Function.comp_apply]
      rw [lookup_itemsOf (hvalues ▸ hdata) (List.mem_filter.mp hitem).1]
      rfl
    · by_cases hnone : (data.filter DataItem.selected).map DataItem.value = []
      · refine .inr ⟨if_pos hnone, ?_⟩
        unfold Selection.start
        dsimp only
        rw [hnone]
        rfl
      · rw [hlength]
        exact .inl (if_neg hnone)
  · rfl
  · exact congrArg (maxText options.max) hlength.symm

theorem shows_step {items : List (Text × Text)} {s t : MultiSelect} {selection : Selection} {a : UserAction}
    (hitems : (items.map Prod.fst).Nodup) (hs : Shows options items s selection.chosen)
    (hall : s.allSelected = selection.allSelected) (h : step options toLowerCase s a = some t) :
    Shows options items t (Selection.step options (items.map Prod.fst) selection a).chosen ∧
      t.allSelected = (Selection.step options (items.map Prod.fst) selection a).allSelected := by
  cases a with
  | click i =>
    obtain ⟨⟨u, selected⟩, hclick, rfl⟩ := Option.map_eq_some_iff.mp h
    have hoption : ∃ option, s.optionElements[i]? = some option := by
      unfold click at hclick
      split at hclick
      · cases hclick
      · next option hoption => exact ⟨option, hoption⟩
    obtain ⟨option, hoption⟩ := hoption
    obtain ⟨hitem, -⟩ := item_of_option hs hoption
    obtain ⟨u', selected', hclick', hshows⟩ := shows_click hitems hs hitem
    obtain ⟨rfl, -⟩ := Prod.mk.inj (Option.some.inj (hclick'.symm.trans hclick))
    refine ⟨?_, (allSelected_of_click hclick).trans hall⟩
    unfold Selection.step
    dsimp only
    rw [List.getElem?_map, hitem]
    exact hshows
  | search text =>
    simp only [step] at h
    split at h
    · obtain rfl := Option.some.inj h
      refine ⟨⟨hs.nodup, hs.known, hs.data, ?_, hs.inputs, hs.headerOptions, hs.placeholders, hs.headerMax⟩, hall⟩
      rw [List.map_map]
      exact hs.optionElements
    · cases h
  | header | outside =>
    obtain rfl := Option.some.inj h
    exact ⟨⟨hs.nodup, hs.known, hs.data, hs.optionElements, hs.inputs, hs.headerOptions, hs.placeholders, hs.headerMax⟩, hall⟩
  | selectAll =>
    simp only [step] at h
    split at h
    · obtain ⟨u, hu, rfl⟩ := Option.map_eq_some_iff.mp h
      have hlength := congrArg List.length hs.optionElements
      rw [List.length_map, List.length_map] at hlength
      obtain ⟨u', hu', hsame, hshows⟩ := shows_clickAll hitems s.allSelected items.length (k := 0) (Nat.zero_add _) hs
      rw [hlength, List.range_eq_range'] at hu
      obtain rfl := Option.some.inj (hu'.symm.trans hu)
      rw [List.drop_zero, hall] at hshows
      refine ⟨⟨hshows.nodup, hshows.known, hshows.data, hshows.optionElements, hshows.inputs, hshows.headerOptions,
        hshows.placeholders, hshows.headerMax⟩, ?_⟩
      change (!u'.allSelected) = !selection.allSelected
      rw [hsame, hall]
    · cases h

theorem length_toggle_le {max n : Nat} {value : Text} {chosen : List Text} (h : chosen.length ≤ Nat.max max n) :
    (Selection.toggle (some max) value chosen).length ≤ Nat.max max n := by
  unfold Selection.toggle
  split
  · exact Nat.le_trans List.erase_sublist.length_le h
  split
  · exact h
  · next hmax =>
    have hlt : chosen.length < max := by simpa using hmax
    rw [List.length_append, List.length_singleton]
    exact Nat.le_trans hlt (Nat.le_max_left _ _)

theorem length_toggleAll_le {max n : Nat} {allSelected : Bool} (values : List Text) {chosen : List Text}
    (h : chosen.length ≤ Nat.max max n) : (Selection.toggleAll (some max) allSelected chosen values).length ≤ Nat.max max n := by
  induction values generalizing chosen with
  | nil => exact h
  | cons value values ih =>
    refine ih ?_
    split
    · exact length_toggle_le h
    · exact h

theorem length_step_le {max n : Nat} {values : List Text} {selection : Selection} {a : UserAction}
    (hmax : options.max = some max) (h : selection.chosen.length ≤ Nat.max max n) :
    (Selection.step options values selection a).chosen.length ≤ Nat.max max n := by
  cases a with
  | click i =>
    unfold Selection.step
    dsimp only
    cases values[i]? with
    | none => exact h
    | some value =>
      rw [hmax]
      exact length_toggle_le h
  | selectAll =>
    unfold Selection.step
    dsimp only
    rw [hmax]
    exact length_toggleAll_le values h
  | search | header | outside => exact h

/-- Whatever the user does, all parts of the document show the same values, in the order in
which they were chosen, never more of them than the limit unless the page began with more,
and a click on an option never throws. -/
theorem dropdown_shows_selection {as : List UserAction} {s : MultiSelect} (hdata : (data.map DataItem.value).Nodup)
    (h : Run (step options toLowerCase) (new options data) as s) :
    Shows options (itemsOf data) s (as.foldl (Selection.step options (data.map DataItem.value)) (Selection.start data)).chosen ∧
      (∀ max, options.max = some max →
        (as.foldl (Selection.step options (data.map DataItem.value)) (Selection.start data)).chosen.length ≤
          Nat.max max (Selection.start data).chosen.length) ∧
      ∀ i < data.length, (click options s i).isSome := by
  have hvalues : (itemsOf data).map Prod.fst = data.map DataItem.value := by
    unfold itemsOf
    rw [List.map_map]
    rfl
  have hitems : ((itemsOf data).map Prod.fst).Nodup := hvalues.symm ▸ hdata
  obtain ⟨hshows, -⟩ := h.simulated
    (R := fun s selection => Shows options (itemsOf data) s selection.chosen ∧ s.allSelected = selection.allSelected)
    (f := Selection.step options (data.map DataItem.value))
    (fun s a t selection hs ha => hvalues ▸ shows_step hitems hs.1 hs.2 ha) ⟨shows_new hdata, rfl⟩
  refine ⟨hshows, fun max hmax => ?_, fun i hi => ?_⟩
  · exact h.simulated (R := fun (_ : MultiSelect) (selection : Selection) =>
        selection.chosen.length ≤ Nat.max max (Selection.start data).chosen.length)
      (fun _ _ _ _ hs _ => length_step_le hmax hs) (Nat.le_max_right _ _)
  · have hlt : i < (itemsOf data).length := by
      unfold itemsOf
      rw [List.length_map]
      exact hi
    obtain ⟨t, selected, ht, -⟩ := shows_click hitems hshows (List.getElem?_eq_getElem hlt)
    rw [ht]
    rfl

def sampleData : List DataItem := (dataOfChoices [['a'], ['b'], ['c']]).map fun item =>
  { item with selected := decide (item.value = ['1']) }

/-- With a limit of two the click on the third value does nothing. -/
theorem third_value_not_chosen : ∃ s, s.headerOptions = [⟨some ['1'], ['b']⟩, ⟨some ['0'], ['a']⟩] ∧
    Shows ⟨some 2, true, false, true, false⟩ (itemsOf sampleData) s [['1'], ['0']] := by
  have hrun : ∃ s, exec (step ⟨some 2, true, false, true, false⟩ id) (new ⟨some 2, true, false, true, false⟩ sampleData)
      [.click 0, .search ['b'], .click 2] = some s ∧ s.headerOptions = [⟨some ['1'], ['b']⟩, ⟨some ['0'], ['a']⟩] :=
    ⟨_, rfl, rfl⟩
  obtain ⟨s, hs, hheader⟩ := hrun
  exact ⟨s, hheader, (dropdown_shows_selection (by decide) (exec_eq_some_iff.mp hs)).1⟩

end runs
end MultiSelect
end Srvlog.Web
