import Srvlog.Library.Decimal
import Mathlib.Data.List.DropRight
import Mathlib.Data.List.Infix

/-! Java's texts: trimming, parsing of ints, searching, and the exceptions these throw. -/
namespace Srvlog.Library

inductive JavaException where
  | runtimeException (message : Text)
  | nullPointerException
  | numberFormatException
  | noSuchElementException
  | arrayIndexOutOfBoundsException
  | ioException
  deriving DecidableEq

theorem exists_of_bind_eq_ok {ε α β : Type} {x : Except ε α} {f : α → Except ε β} {b : β} (h : x >>= f = .ok b) :
    ∃ a, x = .ok a ∧ f a = .ok b := by
  cases x with
  | error e => cases h
  | ok a => exact ⟨a, rfl, h⟩

/-- `StringUtils.isEmpty`. -/
def isEmpty (t : Option Text) : Bool := t.elim true List.isEmpty

theorem getD_of_isEmpty {t : Option Text} (h : (!isEmpty t) = false) : t.getD [] = [] := by
  cases t with
  | none => rfl
  | some t => exact List.isEmpty_iff.mp (Bool.not_eq_eq_eq_not.mp h)

/-- The characters that `String.trim` removes on both sides. -/
def isBlank (ch : Char) : Bool := decide (ch ≤ ' ')

def trim (t : Text) : Text := (t.dropWhile isBlank).rdropWhile isBlank

/-- `String.contains`. -/
def contains (t part : Text) : Bool := t.tails.any part.isPrefixOf

/-- Drop so many characters, then replace each occurrence. -/
def replaceFrom (target replacement : Text) : (skip : Nat) → Text → Text
  | _, [] => []
  | skip + 1, _ :: t => replaceFrom target replacement skip t
  | 0, ch :: t => if target.isPrefixOf (ch :: t) then replacement ++ replaceFrom target replacement (target.length - 1) t
    else ch :: replaceFrom target replacement 0 t

/-- `String.replace`, for a target that is not empty. -/
def replace (target replacement : Text) : Text → Text := replaceFrom target replacement 0

/-- `String.split` at a character: empty texts at the end are left out. -/
def splitAtChar (separator : Char) (t : Text) : List Text :=
  if t = [] then [[]] else (t.splitOn separator).rdropWhile fun part => decide (part = [])

/-- The value of an ASCII digit. -/
def digit (radix : Nat) (ch : Char) : Option Nat :=
  let value := if '0' ≤ ch ∧ ch ≤ '9' then ch.toNat - '0'.toNat
    else if 'a' ≤ ch ∧ ch ≤ 'z' then ch.toNat - 'a'.toNat + 10
    else if 'A' ≤ ch ∧ ch ≤ 'Z' then ch.toNat - 'A'.toNat + 10
    else radix
  if value < radix then some value else none

/-- `Integer.parseInt`, for texts of ASCII characters. -/
def parseInt (radix : Nat) (t : Option Text) : Except JavaException Int :=
  let (negative, digits) := match t with
    | some ('-' :: digits) => (true, digits)
    | some ('+' :: digits) => (false, digits)
    | some digits => (false, digits)
    | none => (false, [])
  match digits.mapM (digit radix) with
  | some values =>
    let magnitude := values.foldl (fun n value => radix * n + value) 0
    let n : Int := if negative then -magnitude else magnitude
    if digits ≠ [] ∧ -2 ^ 31 ≤ n ∧ n < 2 ^ 31 then .ok n else .error .numberFormatException
  | none => .error .numberFormatException

/-- Numbers with the given separators between them, as a date format reads them; a
text behind the last one is ignored. -/
def parseNumbers : List Char → Text → Option (List Int)
  | [], t =>
    let number := t.takeWhile Char.isDigit
    if number = [] then none else some [(digitsValue number : Int)]
  | separator :: separators, t =>
    let number := t.takeWhile Char.isDigit
    match t.dropWhile Char.isDigit with
    | ch :: rest => if number ≠ [] ∧ ch = separator then
        (parseNumbers separators rest).map fun numbers => (digitsValue number : Int) :: numbers
      else none
    | [] => none

theorem contains_iff {t part : Text} : contains t part = true ↔ part <:+: t := by
  rw [contains, List.any_eq_true, List.infix_iff_prefix_suffix]
  simp only [List.mem_tails, List.isPrefixOf_iff_prefix, and_comm]

/-- One blank on each side is trimmed away. -/
theorem trim_pad (t : Text) : trim (' ' :: (t ++ [' '])) = trim t := by
  have hblank : isBlank ' ' = true := rfl
  rw [trim, List.dropWhile_cons_of_pos hblank, trim]
  by_cases hall : ∀ ch ∈ t, isBlank ch = true
  · rw [List.dropWhile_append_of_pos hall, List.dropWhile_cons_of_pos hblank, List.dropWhile_eq_nil_iff.mpr hall]
    rfl
  · have hne : t.dropWhile isBlank ≠ [] := fun h => hall (List.dropWhile_eq_nil_iff.mp h)
    rw [List.dropWhile_append, if_neg (by simpa using hne), List.rdropWhile_concat_pos _ _ _ hblank]

theorem splitAtChar_intercalate {separator : Char} {parts : List Text} (hne : parts ≠ [])
    (hparts : ∀ part ∈ parts, separator ∉ part) (hlast : ∀ part ∈ parts.getLast?, part ≠ []) :
    splitAtChar separator ([separator].intercalate parts) = parts := by
  have hsplit : ([separator].intercalate parts).splitOn separator = parts :=
    List.splitOn_intercalate separator hparts hne
  have hjoined : [separator].intercalate parts ≠ [] := by
    intro hempty
    rw [hempty, List.splitOn_nil] at hsplit
    exact hlast [] (hsplit ▸ rfl) rfl
  rw [splitAtChar, if_neg hjoined, hsplit, List.rdropWhile_eq_self_iff]
  intro hl hempty
  exact hlast _ (List.getLast?_eq_some_getLast hl) (of_decide_eq_true hempty)

theorem splitAtChar_of_not_mem {separator : Char} {t : Text} (hne : t ≠ []) (h : separator ∉ t) :
    splitAtChar separator t = [t] := by
  have hjoin := @splitAtChar_intercalate separator [t] (List.cons_ne_nil t [])
    (List.forall_mem_singleton.mpr h) (by rintro _ ⟨⟩; exact hne)
  rwa [List.intercalate_singleton] at hjoin

theorem eq_nil_of_mem_splitOn {separator : Char} {t part : Text} (ht : ∀ ch ∈ t, ch = separator)
    (h : part ∈ t.splitOn separator) : part = [] := by
  induction t with
  | nil => exact List.mem_singleton.mp h
  | cons ch t ih =>
    rw [List.forall_mem_cons] at ht
    rw [List.splitOn_cons_eq_if_modifyHead, if_pos (by simp [ht.1])] at h
    rcases List.mem_cons.mp h with h | h
    · exact h
    · exact ih ht.2 h

/-- Nothing is left of a text of separators alone. -/
theorem splitAtChar_eq_nil_iff {separator : Char} {t : Text} :
    splitAtChar separator t = [] ↔ t ≠ [] ∧ ∀ ch ∈ t, ch = separator := by
  rw [splitAtChar]
  split
  · next hnil => simp [hnil]
  · next hne =>
    rw [List.rdropWhile_eq_nil_iff]
    simp only [decide_eq_true_eq, ne_eq, hne, not_false_eq_true, true_and]
    constructor
    · intro hparts
      have hjoin : [separator].intercalate (t.splitOn separator) = t := List.intercalate_splitOn separator
      rw [← hjoin]
      apply forall_mem_intercalate
      · exact fun ch hch => List.mem_singleton.mp hch
      · intro part hpart ch hch
        rw [hparts part hpart] at hch
        cases hch
    · exact fun hall part => eq_nil_of_mem_splitOn hall

theorem getLast_splitAtChar_ne_nil {separator : Char} {t last : Text} (ht : t ≠ [])
    (h : (splitAtChar separator t).getLast? = some last) : last ≠ [] := by
  rw [splitAtChar, if_neg ht] at h
  have hne : (t.splitOn separator).rdropWhile (fun part => decide (part = [])) ≠ [] := by
    intro hnil
    rw [hnil] at h
    cases h
  have hlast := List.rdropWhile_last_not _ _ hne
  rw [(List.getLast_eq_iff_getLast?_eq_some hne).mpr h] at hlast
  exact fun hempty => hlast (decide_eq_true hempty)

/-- The texts at the end that are left out are empty. -/
theorem filter_splitAtChar (separator : Char) (t : Text) :
    (splitAtChar separator t).filter (fun part => decide (part ≠ [])) =
      (t.splitOn separator).filter fun part => decide (part ≠ []) := by
  rw [splitAtChar]
  split
  · next hnil =>
    rw [hnil]
    rfl
  · conv_rhs => rw [← List.rdropWhile_append_rtakeWhile (p := fun part : Text => decide (part = []))
      (l := t.splitOn separator)]
    rw [List.filter_append, List.self_eq_append_right, List.filter_eq_nil_iff]
    intro part hpart
    simpa using List.mem_rtakeWhile_imp hpart

/-- No character that `trim` removes is at either end. -/
def Trimmed (t : Text) : Prop :=
  (∀ ch ∈ t.head?, isBlank ch = false) ∧ ∀ ch ∈ t.getLast?, isBlank ch = false

theorem trim_of_trimmed {t : Text} (h : Trimmed t) : trim t = t := by
  have hfront : t.dropWhile isBlank = t := by
    cases t with
    | nil => rfl
    | cons ch t =>
      have hhead := h.1 ch rfl
      exact List.dropWhile_cons_of_neg (by rw [hhead]; exact Bool.false_ne_true)
  rw [trim, hfront, List.rdropWhile_eq_self_iff]
  intro hl hlast
  rw [h.2 _ (List.getLast?_eq_some_getLast hl)] at hlast
  exact absurd hlast Bool.false_ne_true

theorem Trimmed.intercalate {separator : Text} {parts : List Text} (hparts : ∀ part ∈ parts, part ≠ [] ∧ Trimmed part) :
    Trimmed (separator.intercalate parts) := ends_intercalate hparts

theorem digit_of_isDigit {ch : Char} (h : ch.isDigit) : digit 10 ch = some (ch.toNat - '0'.toNat) := by
  have hrange : '0' ≤ ch ∧ ch ≤ '9' := by
    simpa [Char.isDigit, Char.le_def, UInt32.le_iff_toNat_le] using h
  have hlt : ch.toNat - '0'.toNat < 10 := by
    have hle : ch.toNat ≤ '9'.toNat := hrange.2
    have h9 : '9'.toNat = 57 := rfl
    have h0 : '0'.toNat = 48 := rfl
    omega
  rw [digit, if_pos hrange]
  exact if_pos hlt

theorem mapM_digit {t : Text} (h : ∀ ch ∈ t, ch.isDigit) :
    t.mapM (digit 10) = some (t.map fun ch => ch.toNat - '0'.toNat) := by
  induction t with
  | nil => rfl
  | cons ch t ih =>
    rw [List.mapM_cons, digit_of_isDigit (h ch List.mem_cons_self), ih fun c hc => h c (List.mem_cons_of_mem _ hc)]
    rfl

theorem parseInt_of_values {radix : Nat} {ch : Char} {t : Text} {values : List Nat} (hsign : ch ≠ '-' ∧ ch ≠ '+')
    (hvalues : (ch :: t).mapM (digit radix) = some values)
    (hint : values.foldl (fun n value => radix * n + value) 0 < 2 ^ 31) :
    parseInt radix (some (ch :: t)) = .ok (values.foldl (fun n value => radix * n + value) 0 : Nat) := by
  unfold parseInt
  split
  next negative digits hplain =>
  have hunsigned : (negative, digits) = (false, ch :: t) := by
    rw [← hplain]
    split
    · next heq => exact absurd (List.cons.inj (Option.some.inj heq)).1 hsign.1
    · next heq => exact absurd (List.cons.inj (Option.some.inj heq)).1 hsign.2
    · next heq => rw [Option.some.inj heq]
    · next heq => cases heq
  obtain ⟨rfl, rfl⟩ := Prod.mk.inj hunsigned
  rw [hvalues]
  dsimp only
  rw [if_neg Bool.false_ne_true, if_pos ⟨List.cons_ne_nil _ _, by omega, by omega⟩]

theorem parseInt_digits {t : Text} (ht : t ≠ []) (hdigits : ∀ ch ∈ t, ch.isDigit) (hint : digitsValue t < 2 ^ 31) :
    parseInt 10 (some t) = .ok (digitsValue t) := by
  obtain ⟨ch, rest, rfl⟩ := List.exists_cons_of_ne_nil ht
  have hch := hdigits ch List.mem_cons_self
  have hvalue : ((ch :: rest).map fun ch => ch.toNat - '0'.toNat).foldl (fun n value => 10 * n + value) 0 =
      digitsValue (ch :: rest) := List.foldl_map
  have hsign : ch ≠ '-' ∧ ch ≠ '+' := by
    constructor <;> (rintro rfl; exact absurd hch (by decide))
  rw [parseInt_of_values hsign (mapM_digit hdigits) (hvalue ▸ hint), hvalue]

theorem parseInt_decimal {n : Nat} (h : n < 2 ^ 31) : parseInt 10 (some (decimal n)) = .ok n := by
  rw [parseInt_digits (decimal_ne_nil n) (fun _ => isDigit_of_mem_decimal) (by rwa [digitsValue_decimal]),
    digitsValue_decimal]

theorem parseNumbers_last {number : Text} (hne : number ≠ []) (hdigits : ∀ ch ∈ number, ch.isDigit) :
    parseNumbers [] number = some [(digitsValue number : Int)] := by
  rw [parseNumbers, List.takeWhile_eq_self_iff.mpr hdigits, if_neg hne]

theorem parseNumbers_cons {separator : Char} {separators : List Char} {number rest : Text} (hne : number ≠ [])
    (hdigits : ∀ ch ∈ number, ch.isDigit) (hsep : separator.isDigit = false) :
    parseNumbers (separator :: separators) (number ++ separator :: rest) =
      (parseNumbers separators rest).map fun numbers => (digitsValue number : Int) :: numbers := by
  have hstop : ¬ separator.isDigit = true := by rw [hsep]; exact Bool.false_ne_true
  rw [parseNumbers, List.takeWhile_append_of_pos hdigits, List.takeWhile_cons_of_neg hstop, List.append_nil,
    List.dropWhile_append_of_pos hdigits, List.dropWhile_cons_of_neg hstop]
  exact if_pos ⟨hne, rfl⟩

end Srvlog.Library
