import Srvlog.Database.Schema
import Srvlog.Library.Sorter
import Srvlog.Library.SqlText
import Srvlog.Library.WhileLoop

/-! The columns that the procedures of the database return: the procedure that takes
them out of a text, and the one that puts them together again. -/
namespace Srvlog.Database
open Library

section collation

/-- The weight of an ASCII character in `utf8_general_ci`. -/
def weight (ch : Char) : Nat := if 97 ≤ ch.toNat ∧ ch.toNat ≤ 122 then ch.toNat - 32 else ch.toNat

/-- Blanks at the end count for nothing. -/
def padWeights (t : Text) : List Nat := (t.map weight).rdropWhile fun w => decide (w = 32)

/-- `utf8_general_ci`, for ASCII texts. -/
def Collation.generalCi : Collation where
  same a b := decide (padWeights a = padWeights b)
  refl _ := decide_eq_true rfl
  symm _ _ h := decide_eq_true (of_decide_eq_true h).symm
  trans _ _ _ h h' := decide_eq_true ((of_decide_eq_true h).trans (of_decide_eq_true h'))

end collation

inductive SqlException where
  | dataTooLong
  | duplicateEntry
  deriving DecidableEq

structure RoutineArgument where
  routineName : Varchar 128
  argumentName : Varchar 128
  argumentType : Varchar 128
  ordinalNumber : Option Int
  deriving DecidableEq

/-- The table mysql_routines_return_arguments under its unique key. -/
structure RoutineArguments (c : Collation) where
  rows : List RoutineArgument
  unqRoutinesArguments : rows.Pairwise fun a b =>
    (c.same a.routineName.chars b.routineName.chars && c.same a.argumentName.chars b.argumentName.chars) = false

namespace RoutineArguments
variable {c : Collation}

def insert (t : RoutineArguments c) (row : RoutineArgument) : Except SqlException (RoutineArguments c) :=
  if h : ∀ a ∈ t.rows,
      (c.same a.routineName.chars row.routineName.chars && c.same a.argumentName.chars row.argumentName.chars) = false then
    .ok ⟨t.rows ++ [row], by
      rw [List.pairwise_append]
      refine ⟨t.unqRoutinesArguments, List.pairwise_singleton _ _, fun a ha b hb => ?_⟩
      obtain rfl := List.mem_singleton.mp hb
      exact h a ha⟩
  else .error .duplicateEntry

/-- `delete` of the rows of a routine. -/
def delete (t : RoutineArguments c) (routineName : Varchar 128) : RoutineArguments c where
  rows := t.rows.filter fun row => c.same row.routineName.chars routineName.chars = false
  unqRoutinesArguments := t.unqRoutinesArguments.sublist List.filter_sublist

end RoutineArguments

section save_routine_information
variable {c : Collation}

/-- The local variables of `save_routine_information`, and the table. -/
structure Saving (c : Collation) where
  argumentName : Option (Varchar 128)
  argumentType : Option (Varchar 128)
  resultsetDefinition : Varchar 10000
  ordinalNumber : Int
  arguments : RoutineArguments c

namespace Saving

/-- The pair that was read last, null for none. -/
def lastPair (s : Saving c) : Text :=
  (s.argumentName.map (·.chars)).getD [] ++ ' ' :: (s.argumentType.map (·.chars)).getD []

def hasMore (s : Saving c) : Bool := !c.same s.resultsetDefinition.chars s.lastPair

end Saving

/-- The name and the type in front of the first comma, and what is behind it. -/
def splitDefinition (definition : Text) : Text × Text × Text :=
  (trimSpaces (substringIndex definition [' '] 1),
    trimSpaces (substringFrom (substringIndex definition [','] 1) (octetLength (substringIndex definition [' '] 1) + 1)),
    trimSpaces (substringFrom definition
      ((if instr definition [','] = 0 then octetLength definition else instr definition [',']) + 1)))

/-- The insert of a round; an empty name inserts nothing. -/
def insertArgument (routineName : Varchar 128) (s : Saving c) (name type : Varchar 128) :
    Except SqlException (RoutineArguments c) :=
  if c.same name.chars [] then .ok s.arguments
  else s.arguments.insert ⟨routineName, name, type, some s.ordinalNumber⟩

/-- The body of the loop. A value too long for its variable is an error. -/
def saveArgument (routineName : Varchar 128) (s : Saving c) : Except SqlException (Saving c) :=
  let (name, type, rest) := splitDefinition s.resultsetDefinition.chars
  match varchar? 128 name, varchar? 128 type, varchar? 10000 rest with
  | some name, some type, some rest => do
    let arguments ← insertArgument routineName s name type
    return ⟨some name, some type, rest, s.ordinalNumber + 1, arguments⟩
  | _, _, _ => .error .dataTooLong

/-- What `save_routine_information` begins its loop with. -/
def startSaving (routineName : Varchar 128) (definition : Varchar 10000) (arguments : RoutineArguments c) : Saving c :=
  ⟨none, none, definition, 1, arguments.delete routineName⟩

/-- The table after the call, or its error; none while there is too little fuel. -/
def saveRoutineInformation (routineName : Varchar 128) (definition : Varchar 10000) (arguments : RoutineArguments c)
    (fuel : Nat) : Option (Except SqlException (RoutineArguments c)) :=
  (whileLoop Saving.hasMore (saveArgument routineName) fuel (startSaving routineName definition arguments)).map
    (Except.map (·.arguments))

end save_routine_information

section get_procedures_resultset
variable {c : Collation}

/-- `order by ordinal_number`, null first. -/
def ordinalLe (a b : RoutineArgument) : Prop :=
  match a.ordinalNumber, b.ordinalNumber with
  | none, _ => True
  | some _, none => False
  | some x, some y => x ≤ y

/-- `get_procedures_resultset`: one row for each routine. -/
def getProceduresResultset (engine : Sorter ordinalLe) (arguments : RoutineArguments c) : List (Varchar 128 × Text) :=
  ((arguments.rows.map (·.routineName)).pwFilter fun a b => c.same a.chars b.chars = false).map fun specificName =>
    (specificName, groupConcat 10240 ((engine.sort (arguments.rows.filter fun row =>
      c.same specificName.chars row.routineName.chars)).map fun row =>
        row.argumentName.chars ++ ' ' :: row.argumentType.chars))

end get_procedures_resultset

section words

theorem weight_eq_space_iff {ch : Char} : weight ch = 32 ↔ ch = ' ' := by
  have hspace : ch = ' ' ↔ ch.toNat = 32 := by
    rw [← Char.toNat_inj]
    rfl
  rw [hspace, weight]
  split <;> omega

/-- The weights of the first word of a text. -/
def firstWord (t : Text) : List Nat := (t.map weight).takeWhile fun w => !decide (w = 32)

theorem takeWhile_rdropWhile {α : Type} (p : α → Bool) (l : List α) :
    (l.rdropWhile p).takeWhile (fun a => !p a) = l.takeWhile fun a => !p a := by
  have hend : (l.rtakeWhile p).takeWhile (fun a => !p a) = [] := by
    rw [List.takeWhile_eq_nil_iff]
    intro hpos hnot
    have hall := List.mem_rtakeWhile_imp (List.get_mem _ ⟨0, hpos⟩)
    rw [hall] at hnot
    cases hnot
  conv_rhs => rw [← List.rdropWhile_append_rtakeWhile (p := p) (l := l), List.takeWhile_append, hend, List.append_nil]
  split
  · next hlength => exact (List.takeWhile_prefix _).eq_of_length hlength
  · rfl

/-- Equal texts have equal first words. -/
theorem firstWord_of_same {a b : Text} (h : Collation.generalCi.same a b = true) : firstWord a = firstWord b := by
  have hpad : padWeights a = padWeights b := of_decide_eq_true h
  have hwords := congrArg (List.takeWhile fun w => !decide (w = 32)) hpad
  rwa [padWeights, padWeights, takeWhile_rdropWhile, takeWhile_rdropWhile] at hwords

theorem weight_of_no_space {word : Text} (h : ' ' ∉ word) : ∀ w ∈ word.map weight, (!decide (w = 32)) = true := by
  intro w hw
  obtain ⟨ch, hch, rfl⟩ := List.mem_map.mp hw
  rw [Bool.not_eq_true', decide_eq_false_iff_not, weight_eq_space_iff]
  rintro rfl
  exact h hch

theorem firstWord_of_no_space {word : Text} (h : ' ' ∉ word) : firstWord word = word.map weight :=
  List.takeWhile_eq_self_iff.mpr (weight_of_no_space h)

theorem firstWord_append {word : Text} (h : ' ' ∉ word) (t : Text) : firstWord (word ++ ' ' :: t) = firstWord word := by
  rw [firstWord, List.map_append, List.takeWhile_append_of_pos (weight_of_no_space h), List.map_cons,
    List.takeWhile_cons_of_neg (by decide), List.append_nil, firstWord_of_no_space h]

theorem same_of_firstWord {word word' : Text} (h : ' ' ∉ word) (h' : ' ' ∉ word')
    (heq : firstWord word = firstWord word') : Collation.generalCi.same word word' = true := by
  rw [firstWord_of_no_space h, firstWord_of_no_space h'] at heq
  exact decide_eq_true (congrArg (List.rdropWhile _) heq)

end words

section definitions

/-- A column of a result set, as a procedure is registered with it. -/
structure Argument where
  name : Varchar 128
  type : Varchar 128
  name_ne_nil : name.chars ≠ []
  name_no_space : ' ' ∉ name.chars
  name_no_comma : ',' ∉ name.chars
  type_ne_nil : type.chars ≠ []
  type_no_comma : ',' ∉ type.chars
  type_trimmed : SpaceTrimmed type.chars
  ascii : ∀ ch ∈ name.chars ++ type.chars, ch.toNat < 128

namespace Argument

def text (a : Argument) : Text := a.name.chars ++ ' ' :: a.type.chars

/-- The text that a procedure is registered with. -/
def definition (separator : Text) (arguments : List Argument) : Text := separator.intercalate (arguments.map text)

variable (a : Argument)

theorem spaceTrimmed_name : SpaceTrimmed a.name.chars := by
  constructor
  · intro ch hch heq
    exact a.name_no_space (heq ▸ List.mem_of_mem_head? hch)
  · intro ch hch heq
    exact a.name_no_space (heq ▸ List.mem_of_getLast? hch)

theorem comma_not_mem_text : ',' ∉ a.text := by
  rw [text, List.mem_append, List.mem_cons]
  rintro (hmem | hcomma | hmem)
  · exact a.name_no_comma hmem
  · exact absurd hcomma (by decide)
  · exact a.type_no_comma hmem

theorem octetLength_name : octetLength a.name.chars = a.name.chars.length :=
  octetLength_of_ascii fun ch hch => a.ascii ch (List.mem_append_left _ hch)

/-- The first pair of a definition is read, and what follows its comma is left. -/
theorem splitDefinition_text {tail : Text} (htail : tail = [] ∨ ∃ more, tail = ',' :: more) :
    splitDefinition (a.text ++ tail) = (a.name.chars, a.type.chars, trimSpaces (tail.drop 1)) := by
  have hname : substringIndex (a.text ++ tail) [' '] 1 = a.name.chars := by
    rw [text, List.append_assoc, List.cons_append]
    exact substringIndex_first a.name_no_space _
  have hpair : substringIndex (a.text ++ tail) [','] 1 = a.text := by
    rcases htail with rfl | ⟨more, rfl⟩
    · rw [List.append_nil]
      exact substringIndex_of_not_mem a.comma_not_mem_text
    · exact substringIndex_first a.comma_not_mem_text more
  have htype : substringFrom a.text (octetLength a.name.chars + 1) = ' ' :: a.type.chars := by
    rw [substringFrom, if_neg (Nat.succ_ne_zero _), Nat.add_sub_cancel, octetLength_name, text, List.drop_left]
  have hrest : substringFrom (a.text ++ tail)
      ((if instr (a.text ++ tail) [','] = 0 then octetLength (a.text ++ tail) else instr (a.text ++ tail) [',']) + 1) =
        tail.drop 1 := by
    rw [substringFrom, if_neg (Nat.succ_ne_zero _), Nat.add_sub_cancel]
    rcases htail with rfl | ⟨more, rfl⟩
    · rw [List.append_nil, instr, cutFirst_of_not_mem a.comma_not_mem_text]
      exact List.drop_of_length_le (length_le_octetLength _)
    · rw [instr, cutFirst_at a.comma_not_mem_text]
      change (a.text ++ ',' :: more).drop (a.text.length + 1) = more
      rw [← List.singleton_append, ← List.append_assoc]
      exact List.drop_left' (by rw [List.length_append, List.length_singleton])
  rw [splitDefinition, hname, hpair, htype, hrest, trimSpaces_cons_space, trimSpaces_of_trimmed a.spaceTrimmed_name,
    trimSpaces_of_trimmed a.type_trimmed]

theorem text_ne_nil : a.text ≠ [] := List.append_ne_nil_of_left_ne_nil a.name_ne_nil _

theorem spaceTrimmed_text : SpaceTrimmed a.text := by
  constructor
  · rw [text, List.head?_append_of_ne_nil _ a.name_ne_nil]
    exact a.spaceTrimmed_name.1
  · obtain ⟨ch, t, htype⟩ := List.exists_cons_of_ne_nil a.type_ne_nil
    rw [text, List.getLast?_append_of_ne_nil _ (List.cons_ne_nil _ _), htype, List.getLast?_cons_cons, ← htype]
    exact a.type_trimmed.2

theorem spaceTrimmed_definition (separator : Text) (arguments : List Argument) :
    SpaceTrimmed (definition separator arguments) := by
  apply SpaceTrimmed.intercalate
  intro part hpart
  obtain ⟨a, -, rfl⟩ := List.mem_map.mp hpart
  exact ⟨a.text_ne_nil, a.spaceTrimmed_text⟩

/-- One pair is read off a definition, with a comma and perhaps a space behind it. -/
theorem splitDefinition_cons {separator : Text} (hsep : separator = [','] ∨ separator = [',', ' '])
    (arguments : List Argument) : splitDefinition (definition separator (a :: arguments)) =
      (a.name.chars, a.type.chars, definition separator arguments) := by
  cases arguments with
  | nil =>
    have h := a.splitDefinition_text (.inl rfl)
    rw [List.append_nil] at h
    rw [definition, List.map_singleton, List.intercalate_singleton, h]
    rfl
  | cons b arguments =>
    have htrim := trimSpaces_of_trimmed (spaceTrimmed_definition separator (b :: arguments))
    have hjoin : definition separator (a :: b :: arguments) =
        a.text ++ (separator ++ definition separator (b :: arguments)) := by
      rw [definition, List.map_cons, List.map_cons, List.intercalate_cons_cons, List.append_assoc]
      rfl
    rw [hjoin]
    rcases hsep with rfl | rfl
    · refine (a.splitDefinition_text (.inr ⟨definition [','] (b :: arguments), rfl⟩)).trans ?_
      exact congrArg (fun rest => (a.name.chars, a.type.chars, rest)) htrim
    · refine (a.splitDefinition_text (.inr ⟨' ' :: definition [',', ' '] (b :: arguments), rfl⟩)).trans ?_
      exact congrArg (fun rest => (a.name.chars, a.type.chars, rest)) ((trimSpaces_cons_space _).trans htrim)

theorem definition_cons_prefix (separator : Text) (arguments : List Argument) :
    ∃ more, definition separator (a :: arguments) = a.name.chars ++ ' ' :: more := by
  cases arguments with
  | nil => exact ⟨a.type.chars, List.intercalate_singleton⟩
  | cons b arguments =>
    refine ⟨a.type.chars ++ separator ++ definition separator (b :: arguments), ?_⟩
    rw [definition, List.map_cons, List.map_cons, List.intercalate_cons_cons, text]
    simp only [List.append_assoc, List.cons_append]
    rfl

end Argument
end definitions

end Srvlog.Database
