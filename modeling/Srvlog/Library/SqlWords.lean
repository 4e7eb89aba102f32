import Srvlog.Library.SqlText

/-! Values in a text of words, each behind its key: what `substring_index` cuts out of it. -/
namespace Srvlog.Library

section delimiters
variable {x : Char} {key word : Text}

theorem prefix_word_iff (hkey : x ∉ key) (hword : x ∉ word) (rest : Text) :
    key ++ [x] <+: word ++ x :: rest ↔ key = word := by
  induction key generalizing word with
  | nil =>
    cases word with
    | nil => exact ⟨fun _ => rfl, fun _ => List.prefix_append [x] rest⟩
    | cons ch word =>
      refine ⟨fun h => ?_, by rintro ⟨⟩⟩
      obtain rfl := (List.cons_prefix_cons.mp h).1
      exact absurd List.mem_cons_self hword
  | cons k key ih =>
    cases word with
    | nil =>
      refine ⟨fun h => ?_, by rintro ⟨⟩⟩
      obtain rfl := (List.cons_prefix_cons.mp h).1
      exact absurd List.mem_cons_self hkey
    | cons ch word =>
      rw [List.cons_append, List.cons_append, List.cons_prefix_cons, List.cons.injEq,
        ih (List.not_mem_of_not_mem_cons hkey) (List.not_mem_of_not_mem_cons hword)]

theorem cutFirst_cons (delim : Text) (ch : Char) (t : Text) : cutFirst delim (ch :: t) =
    if delim <+: ch :: t then some ([], (ch :: t).drop delim.length)
    else (cutFirst delim t).map fun parts => (ch :: parts.1, parts.2) := by
  simp only [cutFirst, List.isPrefixOf_iff_prefix]

/-- A delimiter that ends in a character is found in front of the first such character, when
the text there ends in the rest of the delimiter, or behind it. -/
theorem cutFirst_word (hkey : x ∉ key) (hword : x ∉ word) (rest : Text) : cutFirst (key ++ [x]) (word ++ x :: rest) =
    if key <:+ word then some (word.take (word.length - key.length), rest)
    else (cutFirst (key ++ [x]) rest).map fun parts => (word ++ x :: parts.1, parts.2) := by
  induction word with
  | nil =>
    have hstarts : key ++ [x] <+: x :: rest ↔ key = [] := prefix_word_iff hkey hword rest
    rw [List.nil_append, cutFirst_cons]
    by_cases hnil : key = []
    · rw [if_pos (hstarts.mpr hnil), if_pos (List.suffix_nil.mpr hnil), hnil]
      rfl
    · rw [if_neg (mt hstarts.mp hnil), if_neg (mt List.suffix_nil.mp hnil)]
      rfl
  | cons ch word ih =>
    have hstarts : key ++ [x] <+: ch :: (word ++ x :: rest) ↔ key = ch :: word := prefix_word_iff hkey hword rest
    rw [List.cons_append, cutFirst_cons, ih (List.not_mem_of_not_mem_cons hword)]
    by_cases hall : key = ch :: word
    · have hbehind : (ch :: (word ++ x :: rest)).drop (key ++ [x]).length = rest := by
        rw [hall]
        simp
      rw [if_pos (hstarts.mpr hall), if_pos (hall ▸ List.suffix_rfl), hbehind, hall, Nat.sub_self, List.take_zero]
    · rw [if_neg (mt hstarts.mp hall)]
      by_cases hends : key <:+ word
      · have hlength := hends.length_le
        rw [if_pos hends, if_pos (hends.trans (List.suffix_cons ch word)), Option.map_some, List.length_cons,
          Nat.succ_sub hlength, List.take_succ_cons]
      · have hnot : ¬ key <:+ ch :: word := by
          rw [List.suffix_cons_iff, not_or]
          exact ⟨hall, hends⟩
        rw [if_neg hends, if_neg hnot, Option.map_map]
        rfl

theorem cutFirst_of_missing {delim t : Text} (hdelim : x ∈ delim) (ht : x ∉ t) : cutFirst delim t = none := by
  induction t with
  | nil => rfl
  | cons ch t ih =>
    have hnot : ¬ delim.isPrefixOf (ch :: t) = true := by
      rw [List.isPrefixOf_iff_prefix]
      exact fun h => ht (h.subset hdelim)
    rw [cutFirst, if_neg hnot, ih (List.not_mem_of_not_mem_cons ht)]
    rfl

/-- What stands in front of the first delimiter, or the whole text. -/
theorem beforeDelimiter_one (delim t : Text) : beforeDelimiter delim 1 t = ((cutFirst delim t).map Prod.fst).getD t := by
  rw [beforeDelimiter]
  cases cutFirst delim t with
  | none => rfl
  | some parts => exact if_pos rfl

theorem substringIndex_back (t delim : Text) : substringIndex t delim (-1) =
    (((cutFirst delim.reverse t.reverse).map Prod.fst).getD t.reverse).reverse :=
  congrArg List.reverse (beforeDelimiter_one _ _)

/-- The last word is cut off its key, or else stays behind what is cut out of the text in front. -/
theorem substringIndex_back_word (hkey : x ∉ key) (hword : x ∉ word) (t : Text) :
    substringIndex (t ++ x :: word) (x :: key) (-1) =
      if key <+: word then word.drop key.length else substringIndex t (x :: key) (-1) ++ x :: word := by
  have hreverse : (t ++ x :: word).reverse = word.reverse ++ x :: t.reverse := by simp
  rw [substringIndex_back, substringIndex_back, hreverse, List.reverse_cons,
    cutFirst_word (fun h => hkey (List.mem_reverse.mp h)) (fun h => hword (List.mem_reverse.mp h))]
  by_cases hstarts : key <+: word
  · have hlength := hstarts.length_le
    rw [if_pos (List.reverse_suffix.mpr hstarts), if_pos hstarts, Option.map_some, Option.getD_some,
      List.length_reverse, List.length_reverse, List.take_reverse, List.reverse_reverse, Nat.sub_sub_self hlength]
  · rw [if_neg (mt List.reverse_suffix.mp hstarts), if_neg hstarts]
    cases cutFirst (key.reverse ++ [x]) t.reverse with
    | none => simp
    | some parts => simp

/-- A further word does not matter to what stands in front of the first separator. -/
theorem substringIndex_front_word (t word : Text) :
    substringIndex (t ++ x :: word) [x] 1 = substringIndex t [x] 1 := by
  by_cases hmem : x ∈ t
  · obtain ⟨before, after, rfl, hbefore⟩ := List.eq_append_cons_of_mem hmem
    rw [List.append_assoc, List.cons_append, substringIndex_first hbefore, substringIndex_first hbefore]
  · rw [substringIndex_first hmem, substringIndex_of_not_mem hmem]

end delimiters

section words

/-- The rest of the last word, the first one apart, that begins with the key, or the first word
if there is none. -/
def lastWordValue (key : Text) (words : List Text) : Text :=
  ((words.tail.reverse.find? key.isPrefixOf).map (·.drop key.length)).getD (words.headD [])

theorem lastWordValue_append (key word : Text) {words : List Text} (h : words ≠ []) :
    lastWordValue key (words ++ [word]) = if key <+: word then word.drop key.length else lastWordValue key words := by
  obtain ⟨first, rest, rfl⟩ := List.exists_cons_of_ne_nil h
  unfold lastWordValue
  rw [List.cons_append, List.tail_cons, List.reverse_append, List.reverse_singleton, List.singleton_append,
    List.find?_cons]
  by_cases hstarts : key <+: word
  · rw [List.isPrefixOf_iff_prefix.mpr hstarts, if_pos hstarts]
    rfl
  · rw [Bool.eq_false_iff.mpr (fun h => hstarts (List.isPrefixOf_iff_prefix.mp h)), if_neg hstarts]
    rfl

/-- The text behind the last key that follows a separator, up to the next separator. -/
theorem substringIndex_words {x : Char} {key : Text} (hkey : x ∉ key) (t : Text) :
    substringIndex (substringIndex t (x :: key) (-1)) [x] 1 = lastWordValue key (t.splitOn x) := by
  induction h : t.length using Nat.strong_induction_on generalizing t with
  | _ n ih =>
    by_cases hmem : x ∈ t
    · -- the last word of the text
      obtain ⟨after, before, hreverse, hafter⟩ := List.eq_append_cons_of_mem (List.mem_reverse.mpr hmem)
      have ht : t = before.reverse ++ x :: after.reverse := by
        rw [← List.reverse_reverse t, hreverse]
        simp
      have hword : x ∉ after.reverse := fun hin => hafter (List.mem_reverse.mp hin)
      have hshort : before.reverse.length < n := by
        rw [← h, ht]
        simp
      rw [ht, List.splitOn_append_cons_self, List.splitOn_eq_singleton hword,
        lastWordValue_append _ _ (List.splitOn_ne_nil _ _), substringIndex_back_word hkey hword]
      by_cases hstarts : key <+: after.reverse
      · rw [if_pos hstarts, if_pos hstarts]
        exact substringIndex_of_not_mem fun hin => hword (List.mem_of_mem_drop hin)
      · rw [if_neg hstarts, if_neg hstarts, substringIndex_front_word]
        exact ih _ hshort _ rfl
    · have hmissing : cutFirst (x :: key).reverse t.reverse = none :=
        cutFirst_of_missing (List.mem_reverse.mpr List.mem_cons_self) fun hin => hmem (List.mem_reverse.mp hin)
      rw [substringIndex_back, hmissing, List.splitOn_eq_singleton hmem, Option.map_none, Option.getD_none,
        List.reverse_reverse, substringIndex_of_not_mem hmem]
      rfl

end words

section patterns
variable {same : Text → Text → Bool}

/-- `like`, for a pattern of several parts that has `%` at its ends and between the parts. -/
def likeInOrder (same : Text → Text → Bool) : List Text → Text → Bool
  | [], _ => true
  | part :: parts, t => t.tails.any fun rest => sameStart same part rest && likeInOrder same parts (rest.drop part.length)

end patterns

section groups
variable {α : Type}

theorem countP_or {p q : α → Bool} (h : ∀ a, p a = true → q a = false) (l : List α) :
    l.countP (fun a => p a || q a) = l.countP p + l.countP q := by
  induction l with
  | nil => rfl
  | cons a l ih =>
    rw [List.countP_cons, List.countP_cons, List.countP_cons, ih]
    cases hp : p a with
    | false => simp [Nat.add_assoc]
    | true =>
      simp [h a hp]
      omega

variable {same : α → α → Bool} {keys : List α} {rows : List (α × Nat)}

/-- Classes that are apart count each key once. -/
theorem sum_countP_classes (hsymm : ∀ a b, same a b = true → same b a = true)
    (htrans : ∀ a b d, same a b = true → same b d = true → same a d = true)
    (hdistinct : rows.Pairwise fun a b => same a.1 b.1 = false) :
    (rows.map fun row => keys.countP (same row.1)).sum = keys.countP fun key => rows.any fun row => same row.1 key := by
  induction rows with
  | nil => simp
  | cons row rows ih =>
    obtain ⟨hrow, hrest⟩ := List.pairwise_cons.mp hdistinct
    have hapart (key : α) (hkey : same row.1 key = true) : (rows.any fun other => same other.1 key) = false := by
      rw [Bool.eq_false_iff]
      intro hany
      obtain ⟨other, hother, hsame⟩ := List.any_eq_true.mp hany
      exact Bool.false_ne_true ((hrow other hother).symm.trans (htrans _ _ _ hkey (hsymm _ _ hsame)))
    rw [List.map_cons, List.sum_cons, ih hrest, ← countP_or hapart]
    rfl

/-- The counts of the groups add up to the keys. -/
theorem GroupedBy.sum_counts (hsymm : ∀ a b, same a b = true → same b a = true)
    (htrans : ∀ a b d, same a b = true → same b d = true → same a d = true) (h : GroupedBy same keys rows) :
    (rows.map Prod.snd).sum = keys.length := by
  have hcounts : rows.map Prod.snd = rows.map fun row => keys.countP (same row.1) :=
    List.map_congr_left fun row hrow => (h.counts row hrow).2
  rw [hcounts, sum_countP_classes hsymm htrans h.distinct, List.countP_eq_length]
  intro key hkey
  obtain ⟨row, hrow, hsame⟩ := h.complete key hkey
  exact List.any_eq_true.mpr ⟨row, hrow, hsame⟩

end groups
end Srvlog.Library
