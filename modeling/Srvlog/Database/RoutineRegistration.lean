import Srvlog.Database.RoutineArguments

/-! Registering a procedure with its columns: the loop over the text ends, its rows are the
columns in their order, and they are put together again. -/
namespace Srvlog.Database
open Library

section rounds
variable {routineName : Varchar 128}

/-- The rows of a routine with these columns, numbered from the given number on. -/
def rowsOf (routineName : Varchar 128) : Int → List Argument → List RoutineArgument
  | _, [] => []
  | ordinal, a :: arguments => ⟨routineName, a.name, a.type, some ordinal⟩ :: rowsOf routineName (ordinal + 1) arguments

theorem varchar?_chars {n : Nat} (v : Varchar n) : varchar? n v.chars = some v := dif_pos v.fits

theorem length_rest_le (definition : Text) : (splitDefinition definition).2.2.length ≤ definition.length := by
  refine (length_trimSpaces_le _).trans ?_
  rw [substringFrom, if_neg (Nat.succ_ne_zero _)]
  exact (List.drop_suffix _ _).length_le

/-- What is left becomes shorter in every round. -/
theorem length_rest_lt {definition : Text} (h : definition ≠ []) :
    (splitDefinition definition).2.2.length < definition.length := by
  refine (length_trimSpaces_le _).trans_lt ?_
  have hpos := List.length_pos_iff.mpr h
  have hbytes := length_le_octetLength definition
  rw [substringFrom, if_neg (Nat.succ_ne_zero _), Nat.add_sub_cancel, List.length_drop]
  split
  · omega
  · omega

theorem splitDefinition_nil : splitDefinition [] = ([], [], []) := rfl

theorem saveArgument_eq_ok {c : Collation} {s s' : Saving c} (h : saveArgument routineName s = .ok s') :
    s'.argumentName.map (·.chars) = some (splitDefinition s.resultsetDefinition.chars).1 ∧
      s'.argumentType.map (·.chars) = some (splitDefinition s.resultsetDefinition.chars).2.1 ∧
      s'.resultsetDefinition.chars = (splitDefinition s.resultsetDefinition.chars).2.2 := by
  unfold saveArgument at h
  split at h
  next name type rest hsplit =>
  split at h
  · next name' type' rest' hname htype hrest =>
    cases hinsert : insertArgument routineName s name' type' with
    | error e =>
      rw [hinsert] at h
      cases h
    | ok arguments =>
      rw [hinsert] at h
      obtain rfl := Except.ok.inj h
      rw [hsplit]
      exact ⟨congrArg some (varchar?_eq_some hname), congrArg some (varchar?_eq_some htype), varchar?_eq_some hrest⟩
  · cases h

/-- A round whose values fit, and whose pair is new. -/
theorem saveArgument_insert {c : Collation} {s : Saving c} {a : Argument} {rest : Varchar 10000}
    (hsplit : splitDefinition s.resultsetDefinition.chars = (a.name.chars, a.type.chars, rest.chars))
    (hname : c.same a.name.chars [] = false) {arguments : RoutineArguments c}
    (hinsert : s.arguments.insert ⟨routineName, a.name, a.type, some s.ordinalNumber⟩ = .ok arguments) :
    saveArgument routineName s = .ok ⟨some a.name, some a.type, rest, s.ordinalNumber + 1, arguments⟩ := by
  unfold saveArgument
  rw [hsplit]
  dsimp only
  rw [varchar?_chars, varchar?_chars, varchar?_chars]
  dsimp only
  rw [insertArgument, hname, if_neg Bool.false_ne_true, hinsert]
  rfl

/-- The round after the last pair inserts nothing. -/
theorem saveArgument_nil {c : Collation} {s : Saving c} (h : s.resultsetDefinition.chars = []) :
    saveArgument routineName s = .ok ⟨some ⟨[], Nat.zero_le _⟩, some ⟨[], Nat.zero_le _⟩, ⟨[], Nat.zero_le _⟩,
      s.ordinalNumber + 1, s.arguments⟩ := by
  unfold saveArgument
  rw [h, splitDefinition_nil]
  dsimp only
  have hempty (n : Nat) : varchar? n [] = some ⟨[], Nat.zero_le n⟩ := varchar?_chars (⟨[], Nat.zero_le n⟩ : Varchar n)
  rw [hempty, hempty]
  dsimp only
  rw [insertArgument, c.refl, if_pos rfl]
  rfl

end rounds

section termination
variable {routineName : Varchar 128}

theorem hasMore_of_nil {s : Saving .generalCi} (hdefinition : s.resultsetDefinition.chars = [])
    (hname : s.argumentName.map (·.chars) = some []) (htype : s.argumentType.map (·.chars) = some []) :
    s.hasMore = false := by
  rw [Saving.hasMore, Saving.lastPair, hdefinition, hname, htype]
  rfl

/-- The loop ends, with an exception or without, since what is left becomes shorter and one
more round follows the last one. -/
theorem save_ends (s : Saving .generalCi) : ∃ outcome, EndsWith Saving.hasMore (saveArgument routineName) s outcome := by
  refine EndsWith.exists_of_measure
    (fun s => 2 * s.resultsetDefinition.chars.length + if s.hasMore then 1 else 0) ?_ s
  intro s s' hmore hround
  obtain ⟨hname, htype, hrest⟩ := saveArgument_eq_ok hround
  rw [if_pos hmore]
  by_cases hnil : s.resultsetDefinition.chars = []
  · rw [hnil, splitDefinition_nil] at hname htype hrest
    rw [hasMore_of_nil hrest hname htype, hrest, if_neg Bool.false_ne_true]
    exact Nat.succ_pos _
  · have hlt := length_rest_lt hnil
    rw [← hrest] at hlt
    split <;> omega

end termination

section registration
variable {routineName : Varchar 128} {separator : Text}

/-- No row of the routine has one of the names. -/
def Fresh (routineName : Varchar 128) (arguments : List Argument) (t : RoutineArguments .generalCi) : Prop :=
  ∀ a ∈ arguments, ∀ row ∈ t.rows, (Collation.generalCi.same row.routineName.chars routineName.chars &&
    Collation.generalCi.same row.argumentName.chars a.name.chars) = false

/-- The names differ in more than case. -/
def DistinctNames (arguments : List Argument) : Prop :=
  arguments.Pairwise fun a b => Collation.generalCi.same a.name.chars b.name.chars = false

theorem insert_of_fresh {a : Argument} {arguments : List Argument} {t : RoutineArguments .generalCi}
    (h : Fresh routineName (a :: arguments) t) (ordinal : Int) :
    ∃ t', t.insert ⟨routineName, a.name, a.type, some ordinal⟩ = .ok t' ∧
      t'.rows = t.rows ++ [⟨routineName, a.name, a.type, some ordinal⟩] :=
  ⟨_, dif_pos (h a List.mem_cons_self), rfl⟩

theorem same_eq_false_of_firstWord {a b : Text} (h : firstWord a ≠ firstWord b) :
    Collation.generalCi.same a b = false := by
  rw [Bool.eq_false_iff]
  exact fun hsame => h (firstWord_of_same hsame)

theorem Argument.firstWord_name_ne_nil (a : Argument) : firstWord a.name.chars ≠ [] := by
  rw [firstWord_of_no_space a.name_no_space]
  exact fun hnil => a.name_ne_nil (List.map_eq_nil_iff.mp hnil)

theorem Argument.firstWord_definition (a : Argument) (separator : Text) (arguments : List Argument) :
    firstWord (Argument.definition separator (a :: arguments)) = firstWord a.name.chars := by
  obtain ⟨more, hmore⟩ := a.definition_cons_prefix separator arguments
  rw [hmore, firstWord_append a.name_no_space]

/-- After a pair the loop goes on: what is left does not begin with the same name. -/
theorem hasMore_after {a : Argument} {arguments : List Argument} (hnames : DistinctNames (a :: arguments))
    {s : Saving .generalCi} (hdefinition : s.resultsetDefinition.chars = Argument.definition separator arguments)
    (hname : s.argumentName = some a.name) (htype : s.argumentType = some a.type) : s.hasMore = true := by
  have hpair : firstWord s.lastPair = firstWord a.name.chars := by
    rw [Saving.lastPair, hname, htype]
    exact firstWord_append a.name_no_space _
  rw [Saving.hasMore, Bool.not_eq_true', hdefinition]
  apply same_eq_false_of_firstWord
  rw [hpair]
  cases arguments with
  | nil => exact fun hnil => a.firstWord_name_ne_nil hnil.symm
  | cons b arguments =>
    rw [b.firstWord_definition]
    intro hword
    have hdiffer := (List.pairwise_cons.mp hnames).1 b List.mem_cons_self
    rw [same_of_firstWord a.name_no_space b.name_no_space hword.symm] at hdiffer
    cases hdiffer

/-- The loop over a definition of columns inserts them in their order. -/
theorem save_arguments (hsep : separator = [','] ∨ separator = [',', ' ']) {arguments : List Argument}
    (hne : arguments ≠ []) (hnames : DistinctNames arguments) {s : Saving .generalCi}
    (hdefinition : s.resultsetDefinition.chars = Argument.definition separator arguments) (hmore : s.hasMore = true)
    (hfresh : Fresh routineName arguments s.arguments) :
    ∃ s', EndsWith Saving.hasMore (saveArgument routineName) s (.ok s') ∧
      s'.arguments.rows = s.arguments.rows ++ rowsOf routineName s.ordinalNumber arguments := by
  induction arguments generalizing s with
  | nil => exact absurd rfl hne
  | cons a arguments ih =>
    have hsplit : splitDefinition s.resultsetDefinition.chars =
        (a.name.chars, a.type.chars, Argument.definition separator arguments) :=
      hdefinition ▸ a.splitDefinition_cons hsep arguments
    have hfits : (Argument.definition separator arguments).length ≤ 10000 := by
      have hle := length_rest_le s.resultsetDefinition.chars
      rw [hsplit] at hle
      exact hle.trans s.resultsetDefinition.fits
    have hname : Collation.generalCi.same a.name.chars [] = false := same_eq_false_of_firstWord a.firstWord_name_ne_nil
    obtain ⟨t, hinsert, hrows⟩ := insert_of_fresh hfresh s.ordinalNumber
    have hround := @saveArgument_insert routineName _ s a ⟨_, hfits⟩ hsplit hname t hinsert
    have hmore' : (⟨some a.name, some a.type, ⟨_, hfits⟩, s.ordinalNumber + 1, t⟩ : Saving .generalCi).hasMore = true :=
      hasMore_after hnames rfl rfl rfl
    cases arguments with
    | nil =>
      -- one more round finds nothing, and the loop ends
      refine ⟨_, .step hmore hround (.step hmore' (saveArgument_nil rfl) (.of_not (hasMore_of_nil rfl rfl rfl))), hrows⟩
    | cons b arguments =>
      have hfresh' : Fresh routineName (b :: arguments) t := by
        intro other hother row hrow
        rw [hrows] at hrow
        rcases List.mem_append.mp hrow with hrow | hrow
        · exact hfresh other (List.mem_cons_of_mem _ hother) row hrow
        · obtain rfl := List.mem_singleton.mp hrow
          have hdiffer := (List.pairwise_cons.mp hnames).1 other hother
          dsimp only
          rw [hdiffer, Bool.and_false]
      obtain ⟨s', hends, hall⟩ := ih (List.cons_ne_nil _ _) (List.pairwise_cons.mp hnames).2 rfl hmore' hfresh'
      refine ⟨s', .step hmore hround hends, ?_⟩
      rw [hall, hrows, List.append_assoc]
      rfl

/-- Nothing of the routine is left when the loop begins. -/
theorem fresh_delete (routineName : Varchar 128) (arguments : List Argument) (t : RoutineArguments .generalCi) :
    Fresh routineName arguments (t.delete routineName) := by
  intro a _ row hrow
  have hother := of_decide_eq_true (List.mem_filter.mp hrow).2
  rw [hother, Bool.false_and]

theorem hasMore_startSaving {arguments : List Argument} (hne : arguments ≠ []) {definition : Varchar 10000}
    (hdefinition : definition.chars = Argument.definition separator arguments) (t : RoutineArguments .generalCi) :
    (startSaving routineName definition t).hasMore = true := by
  obtain ⟨a, rest, rfl⟩ := List.exists_cons_of_ne_nil hne
  have hblank : firstWord [' '] = [] := rfl
  change (!Collation.generalCi.same definition.chars [' ']) = true
  rw [Bool.not_eq_true', hdefinition]
  apply same_eq_false_of_firstWord
  rw [a.firstWord_definition, hblank]
  exact a.firstWord_name_ne_nil

theorem routineName_of_mem_rowsOf {ordinal : Int} {arguments : List Argument} {row : RoutineArgument}
    (h : row ∈ rowsOf routineName ordinal arguments) : row.routineName = routineName := by
  induction arguments generalizing ordinal with
  | nil => exact absurd h List.not_mem_nil
  | cons a arguments ih =>
    rcases List.mem_cons.mp h with rfl | h
    · rfl
    · exact ih h

/-- The table after the registration. -/
structure Registered (routineName : Varchar 128) (arguments : List Argument)
    (before after : RoutineArguments .generalCi) : Prop where
  own : after.rows.filter (fun row => Collation.generalCi.same row.routineName.chars routineName.chars) =
    rowsOf routineName 1 arguments
  others : after.rows.filter (fun row => !Collation.generalCi.same row.routineName.chars routineName.chars) =
    before.rows.filter fun row => !Collation.generalCi.same row.routineName.chars routineName.chars

theorem registered_of_rows {arguments : List Argument} {before after : RoutineArguments .generalCi}
    (h : after.rows = (before.delete routineName).rows ++ rowsOf routineName 1 arguments) :
    Registered routineName arguments before after := by
  have hown : ∀ row ∈ rowsOf routineName 1 arguments,
      Collation.generalCi.same row.routineName.chars routineName.chars = true := by
    intro row hrow
    rw [routineName_of_mem_rowsOf hrow]
    exact Collation.generalCi.refl _
  have hother : ∀ row ∈ (before.delete routineName).rows,
      Collation.generalCi.same row.routineName.chars routineName.chars = false :=
    fun row hrow => of_decide_eq_true (List.mem_filter.mp hrow).2
  constructor
  · rw [h, List.filter_append, List.filter_eq_self.mpr hown, List.filter_eq_nil_iff.mpr, List.nil_append]
    intro row hrow
    rw [hother row hrow]
    exact Bool.false_ne_true
  · have hnone : (rowsOf routineName 1 arguments).filter
        (fun row => !Collation.generalCi.same row.routineName.chars routineName.chars) = [] := by
      rw [List.filter_eq_nil_iff]
      intro row hrow
      rw [hown row hrow]
      exact Bool.false_ne_true
    rw [h, List.filter_append, hnone, List.append_nil, RoutineArguments.delete, List.filter_filter]
    apply List.filter_congr
    intro row _
    cases Collation.generalCi.same row.routineName.chars routineName.chars <;> rfl

/-- What is done by the loop is done by the procedure. -/
theorem saveRoutineInformation_of_ends {definition : Varchar 10000} {t : RoutineArguments .generalCi}
    {outcome : Except SqlException (Saving .generalCi)}
    (h : EndsWith Saving.hasMore (saveArgument routineName) (startSaving routineName definition t) outcome) :
    ∃ enough, ∀ fuel, enough ≤ fuel →
      saveRoutineInformation routineName definition t fuel = some (outcome.map (·.arguments)) := by
  obtain ⟨enough, hends⟩ := h
  refine ⟨enough, fun fuel hfuel => ?_⟩
  rw [saveRoutineInformation, hends fuel hfuel]
  rfl

end registration

section resultset
variable {routineName : Varchar 128} {arguments : List Argument} {before after : RoutineArguments .generalCi}

theorem text_of_rowsOf (ordinal : Int) (arguments : List Argument) :
    ((rowsOf routineName ordinal arguments).map fun row => row.argumentName.chars ++ ' ' :: row.argumentType.chars) =
      arguments.map Argument.text := by
  induction arguments generalizing ordinal with
  | nil => rfl
  | cons a arguments ih =>
    rw [rowsOf, List.map_cons, ih, List.map_cons]
    rfl

theorem ordinal_of_mem_rowsOf {ordinal : Int} {arguments : List Argument} {row : RoutineArgument}
    (h : row ∈ rowsOf routineName ordinal arguments) : ∃ n, ordinal ≤ n ∧ row.ordinalNumber = some n := by
  induction arguments generalizing ordinal with
  | nil => exact absurd h List.not_mem_nil
  | cons a arguments ih =>
    rcases List.mem_cons.mp h with rfl | h
    · exact ⟨ordinal, le_rfl, rfl⟩
    · obtain ⟨n, hn, hrow⟩ := ih h
      exact ⟨n, by omega, hrow⟩

/-- The ordinal numbers increase, so there is one order for them. -/
theorem pairwise_rowsOf (ordinal : Int) (arguments : List Argument) :
    (rowsOf routineName ordinal arguments).Pairwise fun a b => ordinalLe a b ∧ ¬ ordinalLe b a := by
  induction arguments generalizing ordinal with
  | nil => exact .nil
  | cons a arguments ih =>
    refine List.pairwise_cons.mpr ⟨fun row hrow => ?_, ih (ordinal + 1)⟩
    obtain ⟨n, hn, hordinal⟩ := ordinal_of_mem_rowsOf hrow
    simp only [ordinalLe, hordinal]
    omega

theorem sort_rowsOf (engine : Sorter ordinalLe) (ordinal : Int) (arguments : List Argument) :
    engine.sort (rowsOf routineName ordinal arguments) = rowsOf routineName ordinal arguments := by
  have hpairwise := @pairwise_rowsOf routineName ordinal arguments
  refine List.Perm.eq_of_pairwise ?_ (engine.sorted _) (hpairwise.imp And.left) (engine.perm _)
  intro a b ha hb hab hba
  obtain ⟨i, hi, rfl⟩ := List.getElem_of_mem ((engine.perm _).mem_iff.mp ha)
  obtain ⟨j, hj, rfl⟩ := List.getElem_of_mem hb
  rcases Nat.lt_trichotomy i j with hlt | rfl | hgt
  · exact absurd hba (List.pairwise_iff_getElem.mp hpairwise i j hi hj hlt).2
  · rfl
  · exact absurd hab (List.pairwise_iff_getElem.mp hpairwise j i hj hi hgt).2

theorem length_intercalate_le {separator separator' : Text} (h : separator.length ≤ separator'.length)
    (parts : List Text) : (separator.intercalate parts).length ≤ (separator'.intercalate parts).length := by
  induction parts with
  | nil => exact le_rfl
  | cons part parts ih =>
    cases parts with
    | nil => exact (congrArg List.length (List.intercalate_singleton.trans List.intercalate_singleton.symm)).le
    | cons next parts =>
      rw [List.intercalate_cons_cons, List.intercalate_cons_cons]
      simp only [List.length_append]
      omega

theorem Argument.ascii_definition {separator : Text} (hsep : ∀ ch ∈ separator, ch.toNat < 128)
    (arguments : List Argument) : ∀ ch ∈ definition separator arguments, ch.toNat < 128 := by
  apply forall_mem_intercalate hsep
  intro part hpart ch hch
  obtain ⟨a, -, rfl⟩ := List.mem_map.mp hpart
  rcases List.mem_append.mp hch with hname | htype
  · exact a.ascii ch (List.mem_append_left _ hname)
  · rcases List.mem_cons.mp htype with rfl | htype
    · decide
    · exact a.ascii ch (List.mem_append_right _ htype)

/-- One element of a list of different ones. -/
theorem filter_eq_singleton {α : Type} {R : α → α → Prop} {l : List α} {p : α → Bool} {x : α} (hl : l.Pairwise R)
    (hx : x ∈ l) (hp : p x = true) (hirrefl : ¬ R x x) (hunique : ∀ y ∈ l, p y = true → y = x) : l.filter p = [x] := by
  have hall : ∀ y ∈ l.filter p, y = x := fun y hy => hunique y (List.mem_filter.mp hy).1 (List.mem_filter.mp hy).2
  have hpairwise : (l.filter p).Pairwise R := hl.sublist List.filter_sublist
  have hmem : x ∈ l.filter p := List.mem_filter.mpr ⟨hx, hp⟩
  match hfilter : l.filter p, hall, hpairwise, hmem with
  | [y], hall, _, _ => rw [hall y List.mem_cons_self]
  | y :: z :: rest, hall, hpairwise, _ =>
    have hyz := (List.pairwise_cons.mp hpairwise).1 z List.mem_cons_self
    rw [hall y List.mem_cons_self, hall z (List.mem_cons_of_mem _ List.mem_cons_self)] at hyz
    exact absurd hyz hirrefl

/-- The result set has one row for the routine, with its columns in their order. -/
theorem Registered.resultset (h : Registered routineName arguments before after) (hne : arguments ≠ [])
    (hlength : (Argument.definition [','] arguments).length ≤ 10240) (engine : Sorter ordinalLe) :
    (getProceduresResultset engine after).filter
        (fun row => Collation.generalCi.same row.1.chars routineName.chars) =
      [(routineName, Argument.definition [','] arguments)] := by
  have hname : ∀ row ∈ after.rows, Collation.generalCi.same row.routineName.chars routineName.chars = true →
      row.routineName = routineName := by
    intro row hrow hsame
    apply @routineName_of_mem_rowsOf routineName 1 arguments
    rw [← h.own]
    exact List.mem_filter.mpr ⟨hrow, hsame⟩
  have hkey : ∀ key ∈ (after.rows.map (·.routineName)).pwFilter fun a b =>
      Collation.generalCi.same a.chars b.chars = false,
      Collation.generalCi.same key.chars routineName.chars = true → key = routineName := by
    intro key hkey hsame
    obtain ⟨row, hrow, rfl⟩ := List.mem_map.mp ((List.pwFilter_sublist _).mem hkey)
    exact hname row hrow hsame
  have hown : routineName ∈ (after.rows.map (·.routineName)).pwFilter fun a b =>
      Collation.generalCi.same a.chars b.chars = false := by
    obtain ⟨a, rest, rfl⟩ := List.exists_cons_of_ne_nil hne
    have hrow : (⟨routineName, a.name, a.type, some 1⟩ : RoutineArgument) ∈ after.rows := by
      apply List.mem_of_mem_filter (p := fun row => Collation.generalCi.same row.routineName.chars routineName.chars)
      rw [h.own]
      exact List.mem_cons_self
    obtain ⟨key, hmem, hsame⟩ := @exists_same_of_mem _
      (fun a b : Varchar 128 => Collation.generalCi.same a.chars b.chars) (fun a => Collation.generalCi.refl a.chars)
      (fun a b => Collation.generalCi.symm a.chars b.chars)
      (fun a b d => Collation.generalCi.trans a.chars b.chars d.chars) _ _ (List.mem_map_of_mem hrow)
    exact hkey key hmem hsame ▸ hmem
  have hgroup : (after.rows.filter fun row => Collation.generalCi.same routineName.chars row.routineName.chars) =
      rowsOf routineName 1 arguments := by
    rw [← h.own]
    apply List.filter_congr
    intro row _
    rw [Bool.eq_iff_iff]
    exact ⟨Collation.generalCi.symm _ _, Collation.generalCi.symm _ _⟩
  have hbytes : octetLength (Argument.definition [','] arguments) ≤ 10240 :=
    (octetLength_of_ascii (Argument.ascii_definition (by decide) arguments)).trans_le hlength
  rw [getProceduresResultset, List.filter_map]
  have hsingle := filter_eq_singleton
    (List.pairwise_pwFilter (R := fun a b : Varchar 128 => Collation.generalCi.same a.chars b.chars = false)
      (after.rows.map (·.routineName)))
    hown (p := fun key => Collation.generalCi.same key.chars routineName.chars) (Collation.generalCi.refl _)
    (by rw [Collation.generalCi.refl]; exact Bool.noConfusion) hkey
  have hrow : groupConcat 10240 ((engine.sort (rowsOf routineName 1 arguments)).map fun row =>
      row.argumentName.chars ++ ' ' :: row.argumentType.chars) = Argument.definition [','] arguments := by
    rw [sort_rowsOf, text_of_rowsOf]
    exact truncateBytes_of_le hbytes
  refine (congrArg (List.map _) hsingle).trans ?_
  rw [List.map_singleton, hgroup, hrow]

end resultset

/-- The call ends for every definition. A definition of columns leaves the columns as the
rows of the routine and the other rows as they were, and is put together again. -/
theorem save_routine_information_terminates_and_round_trips :
    (∀ (routineName : Varchar 128) (definition : Varchar 10000) (before : RoutineArguments .generalCi),
      ∃ outcome enough, ∀ fuel, enough ≤ fuel →
        saveRoutineInformation routineName definition before fuel = some outcome) ∧
    ∀ (routineName : Varchar 128) (arguments : List Argument) (separator : Text) (definition : Varchar 10000)
      (before : RoutineArguments .generalCi), arguments ≠ [] → DistinctNames arguments →
      (separator = [','] ∨ separator = [',', ' ']) → definition.chars = Argument.definition separator arguments →
      ∃ after enough, (∀ fuel, enough ≤ fuel →
          saveRoutineInformation routineName definition before fuel = some (.ok after)) ∧
        Registered routineName arguments before after ∧
        ∀ engine : Sorter ordinalLe, (getProceduresResultset engine after).filter
            (fun row => Collation.generalCi.same row.1.chars routineName.chars) =
          [(routineName, Argument.definition [','] arguments)] := by
  constructor
  · intro routineName definition before
    obtain ⟨outcome, hends⟩ := save_ends (startSaving routineName definition before)
    exact ⟨_, saveRoutineInformation_of_ends hends⟩
  · intro routineName arguments separator definition before hne hnames hsep hdefinition
    obtain ⟨s, hends, hrows⟩ := save_arguments hsep hne hnames (s := startSaving routineName definition before)
      hdefinition (hasMore_startSaving hne hdefinition before) (fresh_delete routineName arguments before)
    obtain ⟨enough, hcall⟩ := saveRoutineInformation_of_ends hends
    have hregistered := registered_of_rows hrows
    have hlength : (Argument.definition [','] arguments).length ≤ 10240 := by
      have hseparator : [','].length ≤ separator.length := by
        rcases hsep with rfl | rfl <;> decide
      have hle := length_intercalate_le hseparator (arguments.map Argument.text)
      have hfits := definition.fits
      rw [hdefinition] at hfits
      exact hle.trans (hfits.trans (by decide))
    exact ⟨s.arguments, enough, hcall, hregistered, hregistered.resultset hne hlength⟩

section example_registration

/-- A column of one letter and of the type `int`. -/
def intColumn (ch : Char) (h : ch ≠ ' ' ∧ ch ≠ ',' ∧ ch.toNat < 128) : Argument where
  name := ⟨[ch], (by decide : 1 ≤ 128)⟩
  type := ⟨['i', 'n', 't'], by decide⟩
  name_ne_nil := List.cons_ne_nil _ _
  name_no_space hmem := h.1 (List.mem_singleton.mp hmem).symm
  name_no_comma hmem := h.2.1 (List.mem_singleton.mp hmem).symm
  type_ne_nil := List.cons_ne_nil _ _
  type_no_comma := by decide
  type_trimmed := by
    constructor
    all_goals
      rintro _ ⟨⟩
      decide
  ascii := List.forall_mem_cons.mpr ⟨h.2.2, by decide⟩

theorem two_columns_registered : ∃ after enough,
    (∀ fuel, enough ≤ fuel → saveRoutineInformation ⟨['r'], by decide⟩
      ⟨['a', ' ', 'i', 'n', 't', ',', ' ', 'b', ' ', 'i', 'n', 't'], by decide⟩ ⟨[], .nil⟩ fuel = some (.ok after)) ∧
    Registered ⟨['r'], by decide⟩ [intColumn 'a' (by decide), intColumn 'b' (by decide)] ⟨[], .nil⟩ after := by
  obtain ⟨after, enough, hcall, hregistered, -⟩ := save_routine_information_terminates_and_round_trips.2
    ⟨['r'], by decide⟩ [intColumn 'a' (by decide), intColumn 'b' (by decide)] [',', ' ']
    ⟨['a', ' ', 'i', 'n', 't', ',', ' ', 'b', ' ', 'i', 'n', 't'], by decide⟩ ⟨[], .nil⟩ (List.cons_ne_nil _ _)
    (List.pairwise_pair.mpr (by decide)) (.inr rfl) rfl
  exact ⟨after, enough, hcall, hregistered⟩

end example_registration
end Srvlog.Database
