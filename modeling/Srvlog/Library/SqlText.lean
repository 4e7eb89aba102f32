import Srvlog.Library.Text
import Mathlib.Data.List.DropRight
import Mathlib.Data.List.Infix
import Mathlib.Data.List.Pairwise
import Mathlib.Data.List.Sort

/-! The functions of SQL on texts, and grouping under a comparison of texts. -/
namespace Srvlog.Library

section delimiters

/-- The text in front of the first delimiter and the text behind it. -/
def cutFirst (delim : Text) : Text → Option (Text × Text)
  | [] => none
  | ch :: t => if delim.isPrefixOf (ch :: t) then some ([], (ch :: t).drop delim.length)
    else (cutFirst delim t).map fun parts => (ch :: parts.1, parts.2)

/-- What stands in front of so many delimiters, the whole text if there are fewer. -/
def beforeDelimiter (delim : Text) : (count : Nat) → Text → Text
  | 0, _ => []
  | count + 1, t => match cutFirst delim t with
    | none => t
    | some (before, after) => if count = 0 then before else before ++ delim ++ beforeDelimiter delim count after

/-- `substring_index`; a negative count counts the delimiters from the end. -/
def substringIndex (t delim : Text) (count : Int) : Text :=
  if 0 ≤ count then beforeDelimiter delim count.toNat t
  else (beforeDelimiter delim.reverse (-count).toNat t.reverse).reverse

theorem cutFirst_append {a b : Char} (hab : a ≠ b) {before after : Text} (h : ¬ [a, b] <:+: before) :
    cutFirst [a, b] (before ++ a :: b :: after) = some (before, after) := by
  induction before with
  | nil =>
    have hstarts : [a, b].isPrefixOf (a :: b :: after) = true := by simp
    rw [List.nil_append, cutFirst, if_pos hstarts]
    rfl
  | cons ch before ih =>
    have hbefore : ¬ [a, b] <:+: before := fun hin => h (hin.trans (List.suffix_cons ch before).isInfix)
    have hstarts : ¬ [a, b].isPrefixOf (ch :: (before ++ a :: b :: after)) = true := by
      rw [List.isPrefixOf_iff_prefix, List.cons_prefix_cons]
      rintro ⟨rfl, hnext⟩
      cases before with
      | nil => exact hab (List.cons_prefix_cons.mp hnext).1.symm
      | cons next before =>
        obtain ⟨rfl, -⟩ := List.cons_prefix_cons.mp hnext
        exact h (List.prefix_append [a, b] before).isInfix
    rw [List.cons_append, cutFirst, if_neg hstarts, ih hbefore]
    rfl

/-- The text in front of the second delimiter. -/
theorem substringIndex_second {a b : Char} (hab : a ≠ b) {before middle after : Text} (hbefore : ¬ [a, b] <:+: before)
    (hmiddle : ¬ [a, b] <:+: middle) :
    substringIndex (before ++ a :: b :: (middle ++ a :: b :: after)) [a, b] 2 = before ++ a :: b :: middle := by
  rw [substringIndex, if_pos (by decide)]
  change beforeDelimiter [a, b] 2 _ = _
  rw [beforeDelimiter, cutFirst_append hab hbefore]
  dsimp only
  rw [if_neg (by decide), beforeDelimiter, cutFirst_append hab hmiddle]
  dsimp only
  rw [if_pos rfl, List.append_assoc]
  rfl

/-- The text behind the last delimiter. -/
theorem substringIndex_last {a b : Char} (hab : a ≠ b) {before after : Text} (hafter : ¬ [a, b] <:+: after) :
    substringIndex (before ++ a :: b :: after) [a, b] (-1) = after := by
  have hreverse : (before ++ a :: b :: after).reverse = after.reverse ++ b :: a :: before.reverse := by simp
  have hin : ¬ [b, a] <:+: after.reverse := fun h => hafter (List.reverse_infix.mp h)
  rw [substringIndex, if_neg (by decide), hreverse]
  change (beforeDelimiter [b, a] 1 _).reverse = _
  rw [beforeDelimiter, cutFirst_append (Ne.symm hab) hin]
  dsimp only
  rw [if_pos rfl, List.reverse_reverse]

theorem cutFirst_of_not_mem {ch : Char} {t : Text} (h : ch ∉ t) : cutFirst [ch] t = none := by
  induction t with
  | nil => rfl
  | cons first t ih =>
    rw [List.mem_cons, not_or] at h
    have hstarts : ¬ [ch].isPrefixOf (first :: t) = true := by
      rw [List.isPrefixOf_iff_prefix, List.cons_prefix_cons]
      exact fun heq => h.1 heq.1
    rw [cutFirst, if_neg hstarts, ih h.2]
    rfl

theorem cutFirst_at {ch : Char} {before : Text} (h : ch ∉ before) (after : Text) :
    cutFirst [ch] (before ++ ch :: after) = some (before, after) := by
  induction before with
  | nil =>
    have hstarts : [ch].isPrefixOf (ch :: after) = true := by
      rw [List.isPrefixOf_iff_prefix]
      exact List.prefix_append [ch] after
    rw [List.nil_append, cutFirst, if_pos hstarts]
    rfl
  | cons first before ih =>
    rw [List.mem_cons, not_or] at h
    have hstarts : ¬ [ch].isPrefixOf (first :: (before ++ ch :: after)) = true := by
      rw [List.isPrefixOf_iff_prefix, List.cons_prefix_cons]
      exact fun heq => h.1 heq.1
    rw [List.cons_append, cutFirst, if_neg hstarts, ih h.2]
    rfl

/-- The text in front of the first delimiter. -/
theorem substringIndex_first {ch : Char} {before : Text} (h : ch ∉ before) (after : Text) :
    substringIndex (before ++ ch :: after) [ch] 1 = before := by
  rw [substringIndex, if_pos (by decide)]
  change beforeDelimiter [ch] 1 _ = _
  rw [beforeDelimiter, cutFirst_at h]
  exact if_pos rfl

theorem substringIndex_of_not_mem {ch : Char} {t : Text} (h : ch ∉ t) : substringIndex t [ch] 1 = t := by
  rw [substringIndex, if_pos (by decide)]
  change beforeDelimiter [ch] 1 _ = _
  rw [beforeDelimiter, cutFirst_of_not_mem h]

end delimiters

section functions

/-- `length`, in bytes. -/
def octetLength (t : Text) : Nat := (t.map Char.utf8Size).sum

/-- `substring` up to the end, from a position that counts from one. -/
def substringFrom (t : Text) (position : Nat) : Text := if position = 0 then [] else t.drop (position - 1)

/-- `instr`: the position of the first occurrence, zero for none. -/
def instr (t part : Text) : Nat := (cutFirst part t).elim 0 fun parts => parts.1.length + 1

def isSpace (ch : Char) : Bool := decide (ch = ' ')

/-- `trim(both ' ' from t)`. -/
def trimSpaces (t : Text) : Text := (t.dropWhile isSpace).rdropWhile isSpace

/-- The longest part from the beginning that has no more bytes. -/
def truncateBytes : Nat → Text → Text
  | _, [] => []
  | bytes, ch :: t => if ch.utf8Size ≤ bytes then ch :: truncateBytes (bytes - ch.utf8Size) t else []

/-- `group_concat` with the separator `,`. -/
def groupConcat (maxLen : Nat) (values : List Text) : Text := truncateBytes maxLen ([','].intercalate values)

theorem length_le_octetLength (t : Text) : t.length ≤ octetLength t := by
  induction t with
  | nil => exact Nat.le_refl 0
  | cons ch t ih =>
    have hpos := ch.utf8Size_pos
    rw [octetLength, List.map_cons, List.sum_cons, List.length_cons]
    rw [octetLength] at ih
    omega

/-- ASCII characters have one byte each. -/
theorem octetLength_of_ascii {t : Text} (h : ∀ ch ∈ t, ch.toNat < 128) : octetLength t = t.length := by
  induction t with
  | nil => rfl
  | cons ch t ih =>
    rw [List.forall_mem_cons] at h
    have hbyte : ch.utf8Size = 1 := Char.utf8Size_eq_one_iff.mpr (Nat.le_of_lt_succ h.1)
    rw [octetLength] at ih
    rw [octetLength, List.map_cons, List.sum_cons, ih h.2, hbyte, List.length_cons, Nat.add_comm]

theorem truncateBytes_of_le {t : Text} {bytes : Nat} (h : octetLength t ≤ bytes) : truncateBytes bytes t = t := by
  induction t generalizing bytes with
  | nil => rfl
  | cons ch t ih =>
    rw [octetLength, List.map_cons, List.sum_cons] at h
    rw [truncateBytes, if_pos (by omega), ih (by rw [octetLength]; omega)]

/-- No space is at either end. -/
def SpaceTrimmed (t : Text) : Prop := (∀ ch ∈ t.head?, ch ≠ ' ') ∧ ∀ ch ∈ t.getLast?, ch ≠ ' '

theorem SpaceTrimmed.intercalate {separator : Text} {parts : List Text}
    (hparts : ∀ part ∈ parts, part ≠ [] ∧ SpaceTrimmed part) : SpaceTrimmed (separator.intercalate parts) :=
  ends_intercalate hparts

theorem trimSpaces_of_trimmed {t : Text} (h : SpaceTrimmed t) : trimSpaces t = t := by
  have hfront : t.dropWhile isSpace = t := by
    cases t with
    | nil => rfl
    | cons ch t => exact List.dropWhile_cons_of_neg fun hspace => h.1 ch rfl (of_decide_eq_true hspace)
  rw [trimSpaces, hfront, List.rdropWhile_eq_self_iff]
  exact fun hl hspace => h.2 _ (List.getLast?_eq_some_getLast hl) (of_decide_eq_true hspace)

theorem trimSpaces_cons_space (t : Text) : trimSpaces (' ' :: t) = trimSpaces t := by
  rw [trimSpaces, List.dropWhile_cons_of_pos rfl, trimSpaces]

theorem length_trimSpaces_le (t : Text) : (trimSpaces t).length ≤ t.length :=
  ((List.rdropWhile_prefix _ _).length_le).trans (List.dropWhile_suffix _).length_le

end functions

section patterns
variable {same : Text → Text → Bool}

/-- The pattern is compared with the text character by character. -/
def sameStart (same : Text → Text → Bool) : (part t : Text) → Bool
  | [], _ => true
  | _ :: _, [] => false
  | a :: part, b :: t => same [a] [b] && sameStart same part t

/-- `like`, for a pattern that has `%` only at its two ends. -/
def likeContains (same : Text → Text → Bool) (part t : Text) : Bool := t.tails.any (sameStart same part)

theorem likeContains_of_infix (hrefl : ∀ t, same t t = true) {part t : Text} (h : part <:+: t) :
    likeContains same part t = true := by
  obtain ⟨before, after, rfl⟩ := h
  have hstart : sameStart same part (part ++ after) = true := by
    induction part with
    | nil => rfl
    | cons a part ih => rw [List.cons_append, sameStart, hrefl, Bool.true_and, ih]
  rw [likeContains, List.any_eq_true]
  refine ⟨part ++ after, (List.mem_tails _ _).mpr ?_, hstart⟩
  rw [List.append_assoc]
  exact List.suffix_append _ _

end patterns

section groups
variable {α : Type}

/-- The rows of a `group by` with a `count`: one for each class of keys that are the same,
under one of these keys. -/
structure GroupedBy (same : α → α → Bool) (keys : List α) (rows : List (α × Nat)) : Prop where
  distinct : rows.Pairwise fun a b => same a.1 b.1 = false
  counts : ∀ row ∈ rows, row.1 ∈ keys ∧ row.2 = keys.countP (same row.1)
  complete : ∀ key ∈ keys, ∃ row ∈ rows, same row.1 key = true

/-- Such rows, the largest count first. -/
def groupedRows (same : α → α → Bool) (keys : List α) : List (α × Nat) :=
  ((keys.pwFilter fun a b => same a b = false).map fun key => (key, keys.countP (same key))).insertionSort
    fun a b => b.2 ≤ a.2

theorem groupedRows_perm (same : α → α → Bool) (keys : List α) : (groupedRows same keys).Perm
    ((keys.pwFilter fun a b => same a b = false).map fun key => (key, keys.countP (same key))) :=
  List.perm_insertionSort _ _

theorem ordered_groupedRows (same : α → α → Bool) (keys : List α) :
    (groupedRows same keys).Pairwise fun a b => b.2 ≤ a.2 := by
  have : Std.Total fun a b : α × Nat => b.2 ≤ a.2 := ⟨fun a b => Nat.le_total b.2 a.2⟩
  have : IsTrans (α × Nat) fun a b => b.2 ≤ a.2 := ⟨fun _ _ _ hab hbd => Nat.le_trans hbd hab⟩
  exact List.pairwise_insertionSort _ _

variable {same : α → α → Bool} (hrefl : ∀ a, same a a = true) (hsymm : ∀ a b, same a b = true → same b a = true)
  (htrans : ∀ a b d, same a b = true → same b d = true → same a d = true)
include hrefl hsymm htrans

/-- Every key has one of the selected keys that is the same. -/
theorem exists_same_of_mem {keys : List α} {key : α} (h : key ∈ keys) :
    ∃ selected ∈ keys.pwFilter fun a b => same a b = false, same selected key = true := by
  by_contra hnone
  have hfree : ∀ selected ∈ keys.pwFilter fun a b => same a b = false, same key selected = false := by
    intro selected hselected
    rw [Bool.eq_false_iff]
    exact fun hsame => hnone ⟨selected, hselected, hsymm _ _ hsame⟩
  have hneg {x y z : α} (hxz : same x z = false) : same x y = false ∨ same y z = false := by
    by_cases hxy : same x y = false
    · exact .inl hxy
    · right
      rw [Bool.eq_false_iff]
      intro hyz
      rw [Bool.not_eq_false] at hxy
      rw [htrans _ _ _ hxy hyz] at hxz
      cases hxz
  have hself := (List.forall_mem_pwFilter (R := fun a b => same a b = false) hneg key keys).mp hfree key h
  rw [hrefl] at hself
  cases hself

theorem groupedBy_groupedRows (keys : List α) : GroupedBy same keys (groupedRows same keys) where
  distinct := by
    have hmap : ((keys.pwFilter fun a b => same a b = false).map fun key => (key, keys.countP (same key))).Pairwise
        fun a b => same a.1 b.1 = false := List.pairwise_map.mpr (List.pairwise_pwFilter _)
    refine (groupedRows_perm same keys).symm.pairwise hmap fun {a b} hab => ?_
    rw [Bool.eq_false_iff]
    intro hba
    rw [hsymm _ _ hba] at hab
    cases hab
  counts row hrow := by
    obtain ⟨key, hkey, rfl⟩ := List.mem_map.mp ((groupedRows_perm same keys).mem_iff.mp hrow)
    exact ⟨(List.pwFilter_sublist _).mem hkey, rfl⟩
  complete key hkey := by
    obtain ⟨selected, hselected, hsame⟩ := exists_same_of_mem hrefl hsymm htrans hkey
    exact ⟨_, (groupedRows_perm same keys).mem_iff.mpr (List.mem_map_of_mem hselected), hsame⟩

end groups
end Srvlog.Library
