import Srvlog.Library.JavaText

/-! Texts inside JSON: their escapes, and what becomes of an escaped text when the escapes of
line ends are replaced in it as in any other text. -/
namespace Srvlog.Library

section replace
variable {a b ch : Char} {replacement t : Text}

theorem replace_cons_of_ne (h : ch ≠ a) : replace [a, b] replacement (ch :: t) = ch :: replace [a, b] replacement t := by
  rw [replace, replaceFrom, if_neg]
  intro hstarts
  exact h (List.cons_prefix_cons.mp (List.isPrefixOf_iff_prefix.mp hstarts)).1.symm

theorem replace_cons_of_head (h : b ∉ t.head?) : replace [a, b] replacement (a :: t) = a :: replace [a, b] replacement t := by
  rw [replace, replaceFrom, if_neg]
  intro hstarts
  obtain ⟨-, u, rfl⟩ := List.cons_prefix_cons.mp (List.isPrefixOf_iff_prefix.mp hstarts)
  exact h rfl

theorem replace_pair : replace [a, b] replacement (a :: b :: t) = replacement ++ replace [a, b] replacement t := by
  have hstarts : [a, b].isPrefixOf (a :: b :: t) = true := List.isPrefixOf_iff_prefix.mpr (List.prefix_append [a, b] t)
  rw [replace, replaceFrom, if_pos hstarts]
  rfl

end replace

section escapes

/-- The escapes that Jackson writes. -/
def jsonEscape (ch : Char) : Text :=
  if ch = '"' then ['\\', '"']
  else if ch = '\\' then ['\\', '\\']
  else if ch = '\n' then ['\\', 'n']
  else if ch = '\r' then ['\\', 'r']
  else if ch = '\t' then ['\\', 't']
  else if ch.toNat = 8 then ['\\', 'b']
  else if ch.toNat = 12 then ['\\', 'f']
  else if ch.toNat < 32 then
    ['\\', 'u', '0', '0', Nat.digitChar (ch.toNat / 16), (Nat.digitChar (ch.toNat % 16)).toUpper]
  else [ch]

/-- The escapes that `JSON.stringify` writes, with small hex digits. -/
def quoteEscape (ch : Char) : Text :=
  if ch.toNat < 32 ∧ ch ∉ ['\n', '\r', '\t'] ∧ ch.toNat ∉ [8, 12] then
    ['\\', 'u', '0', '0', Nat.digitChar (ch.toNat / 16), Nat.digitChar (ch.toNat % 16)]
  else jsonEscape ch

/-- The escapes of Jackson, but line feeds stand for themselves and carriage returns are left out. -/
def readableEscape (ch : Char) : Text := if ch = '\n' then ['\n'] else if ch = '\r' then [] else jsonEscape ch

/-- `replace("\\n", "\n").replace("\\r", "")`. -/
def unescapeLineEnds (t : Text) : Text := replace ['\\', 'r'] [] (replace ['\\', 'n'] ['\n'] t)

/-- No backslash in front of one of the two letters. -/
def NoFalseEscape (t : Text) : Prop := ¬ ['\\', 'n'] <:+: t ∧ ¬ ['\\', 'r'] <:+: t

instance (t : Text) : Decidable (NoFalseEscape t) := inferInstanceAs (Decidable (_ ∧ _))

/-- What the replacements make of a text that has been escaped. -/
def unescaped : Text → Text
  | [] => []
  | '\\' :: 'n' :: t => '\\' :: '\n' :: unescaped t
  | '\\' :: 'r' :: t => '\\' :: unescaped t
  | ch :: t => readableEscape ch ++ unescaped t

example : unescapeLineEnds (['C', '\\', 'n', '\n', '\r'].flatMap jsonEscape) = ['C', '\\', '\n', '\n'] := by decide

theorem unescapeLineEnds_cons {ch : Char} (h : ch ≠ '\\') (t : Text) :
    unescapeLineEnds (ch :: t) = ch :: unescapeLineEnds t := by
  rw [unescapeLineEnds, replace_cons_of_ne h, replace_cons_of_ne h]
  rfl

theorem unescapeLineEnds_append {s : Text} (h : '\\' ∉ s) (t : Text) :
    unescapeLineEnds (s ++ t) = s ++ unescapeLineEnds t := by
  induction s with
  | nil => rfl
  | cons ch s ih =>
    rw [List.mem_cons, not_or] at h
    rw [List.cons_append, unescapeLineEnds_cons (Ne.symm h.1), ih h.2, List.cons_append]

/-- A backslash stays in front of what is left of a text that does not begin with one of the letters. -/
theorem unescapeLineEnds_backslash {t : Text} (hn : 'n' ∉ t.head?) (hr : 'r' ∉ t.head?) :
    unescapeLineEnds ('\\' :: t) = '\\' :: unescapeLineEnds t := by
  have hhead : 'r' ∉ (replace ['\\', 'n'] ['\n'] t).head? := by
    cases t with
    | nil => exact hr
    | cons ch t =>
      by_cases hch : ch = '\\'
      · subst hch
        by_cases hnext : 'n' ∈ t.head?
        · obtain ⟨t, rfl⟩ := List.head?_eq_some_iff.mp hnext
          rw [replace_pair]
          simp
        · rw [replace_cons_of_head hnext]
          simp
      · rwa [replace_cons_of_ne hch]
  rw [unescapeLineEnds, replace_cons_of_head hn, replace_cons_of_head hhead]
  rfl

theorem unescapeLineEnds_lineFeed (t : Text) : unescapeLineEnds ('\\' :: 'n' :: t) = '\n' :: unescapeLineEnds t := by
  rw [unescapeLineEnds, replace_pair, List.singleton_append, replace_cons_of_ne (by decide)]
  rfl

theorem unescapeLineEnds_carriageReturn (t : Text) : unescapeLineEnds ('\\' :: 'r' :: t) = unescapeLineEnds t := by
  have hfirst : replace ['\\', 'n'] ['\n'] ('\\' :: 'r' :: t) = '\\' :: 'r' :: replace ['\\', 'n'] ['\n'] t := by
    rw [replace_cons_of_head (by simp), replace_cons_of_ne (by decide)]
  rw [unescapeLineEnds, hfirst, replace_pair]
  rfl

/-- Every escape but the one of the backslash is kept or becomes its line end. -/
theorem unescapeLineEnds_jsonEscape {ch : Char} (h : ch ≠ '\\') (t : Text) :
    unescapeLineEnds (jsonEscape ch ++ t) = readableEscape ch ++ unescapeLineEnds t := by
  have hkeep {c : Char} {s : Text} (hs : '\\' ∉ c :: s) (hn : c ≠ 'n') (hr : c ≠ 'r') :
      unescapeLineEnds (('\\' :: c :: s) ++ t) = ('\\' :: c :: s) ++ unescapeLineEnds t := by
    rw [List.cons_append, unescapeLineEnds_backslash (by simpa using hn) (by simpa using hr), unescapeLineEnds_append hs]
    rfl
  have hcontrol : ∀ n : Fin 32, '\\' ∉ ['u', '0', '0', Nat.digitChar (n / 16), (Nat.digitChar (n % 16)).toUpper] := by
    decide
  by_cases hline : ch = '\n'
  · subst hline
    exact unescapeLineEnds_lineFeed t
  by_cases hreturn : ch = '\r'
  · subst hreturn
    exact unescapeLineEnds_carriageReturn t
  rw [readableEscape, if_neg hline, if_neg hreturn]
  unfold jsonEscape
  split_ifs with hquote htab hback hform hlow
  · exact hkeep (by decide) (by decide) (by decide)
  · exact hkeep (by decide) (by decide) (by decide)
  · exact hkeep (by decide) (by decide) (by decide)
  · exact hkeep (by decide) (by decide) (by decide)
  · exact hkeep (hcontrol ⟨_, hlow⟩) (by decide) (by decide)
  · exact unescapeLineEnds_cons h t

theorem head_jsonEscape (ch : Char) : (jsonEscape ch).head? = some '\\' ∨ jsonEscape ch = [ch] := by
  have hstep (p : Prop) [Decidable p] {s u : Text} (hs : s.head? = some '\\') (hu : u.head? = some '\\' ∨ u = [ch]) :
      (if p then s else u).head? = some '\\' ∨ (if p then s else u) = [ch] := by
    split
    · exact .inl hs
    · exact hu
  unfold jsonEscape
  iterate 8 refine hstep _ rfl ?_
  exact .inr rfl

/-- A letter at the beginning of an escaped text is the first character of the text. -/
theorem head_escaped {letter : Char} (hbackslash : letter ≠ '\\') (hquote : letter ≠ '"') {t rest : Text}
    (h : letter ∈ (t.flatMap jsonEscape ++ '"' :: rest).head?) : ∃ t', t = letter :: t' := by
  cases t with
  | nil => exact absurd (Option.some.inj h).symm hquote
  | cons ch t =>
    rw [List.flatMap_cons] at h
    rcases head_jsonEscape ch with hhead | hsame
    · obtain ⟨s, hs⟩ := List.head?_eq_some_iff.mp hhead
      rw [hs] at h
      exact absurd (Option.some.inj h).symm hbackslash
    · rw [hsame] at h
      exact ⟨t, congrArg (· :: t) (Option.some.inj h)⟩

/-- A closing quotation mark follows each escaped text. -/
theorem unescapeLineEnds_escaped (t rest : Text) :
    unescapeLineEnds (t.flatMap jsonEscape ++ '"' :: rest) = unescaped t ++ '"' :: unescapeLineEnds rest := by
  fun_induction unescaped t with
  | case1 => exact unescapeLineEnds_cons (by decide) rest
  | case2 t ih =>
    change unescapeLineEnds ('\\' :: '\\' :: 'n' :: (t.flatMap jsonEscape ++ '"' :: rest)) = _
    rw [unescapeLineEnds_backslash (by simp) (by simp), unescapeLineEnds_lineFeed, ih]
    rfl
  | case3 t ih =>
    change unescapeLineEnds ('\\' :: '\\' :: 'r' :: (t.flatMap jsonEscape ++ '"' :: rest)) = _
    rw [unescapeLineEnds_backslash (by simp) (by simp), unescapeLineEnds_carriageReturn, ih]
    rfl
  | case4 ch t hn hr ih =>
    rw [List.flatMap_cons, List.append_assoc, List.append_assoc, ← ih]
    by_cases hch : ch = '\\'
    · subst hch
      change unescapeLineEnds ('\\' :: '\\' :: (t.flatMap jsonEscape ++ '"' :: rest)) = '\\' :: '\\' :: _
      have hn' : 'n' ∉ (t.flatMap jsonEscape ++ '"' :: rest).head? := fun h => by
        obtain ⟨t', rfl⟩ := head_escaped (by decide) (by decide) h
        exact hn t' rfl rfl
      have hr' : 'r' ∉ (t.flatMap jsonEscape ++ '"' :: rest).head? := fun h => by
        obtain ⟨t', rfl⟩ := head_escaped (by decide) (by decide) h
        exact hr t' rfl rfl
      rw [unescapeLineEnds_backslash (by simp) (by simp), unescapeLineEnds_backslash hn' hr']
      rfl
    · exact unescapeLineEnds_jsonEscape hch _

theorem NoFalseEscape.tail {ch : Char} {t : Text} (h : NoFalseEscape (ch :: t)) : NoFalseEscape t :=
  ⟨fun hn => h.1 (hn.trans (List.suffix_cons ch t).isInfix), fun hr => h.2 (hr.trans (List.suffix_cons ch t).isInfix)⟩

theorem unescaped_eq {t : Text} (h : NoFalseEscape t) : unescaped t = t.flatMap readableEscape := by
  fun_induction unescaped t with
  | case1 => rfl
  | case2 t ih => exact absurd (List.prefix_append ['\\', 'n'] t).isInfix h.1
  | case3 t ih => exact absurd (List.prefix_append ['\\', 'r'] t).isInfix h.2
  | case4 ch t hn hr ih => rw [ih h.tail, List.flatMap_cons]

/-- Each false escape makes the text shorter. -/
theorem length_unescaped (t : Text) : (unescaped t).length ≤ (t.flatMap readableEscape).length ∧
    ((unescaped t).length = (t.flatMap readableEscape).length → NoFalseEscape t) := by
  have hletter (letter : Char) (h : letter ∈ ['n', 'r']) (t : Text) :
      (('\\' :: letter :: t).flatMap readableEscape).length = (t.flatMap readableEscape).length + 3 := by
    simp only [List.mem_cons, List.not_mem_nil, or_false] at h
    rcases h with rfl | rfl <;> rfl
  fun_induction unescaped t with
  | case1 => exact ⟨le_rfl, fun _ => ⟨by decide, by decide⟩⟩
  | case2 t ih =>
    rw [hletter 'n' (by decide), List.length_cons, List.length_cons]
    exact ⟨by omega, fun h => by omega⟩
  | case3 t ih =>
    rw [hletter 'r' (by decide), List.length_cons]
    exact ⟨by omega, fun h => by omega⟩
  | case4 ch t hn hr ih =>
    rw [List.flatMap_cons, List.length_append, List.length_append]
    refine ⟨by omega, fun h => ?_⟩
    obtain ⟨hnone, hnone'⟩ := ih.2 (by omega)
    refine ⟨fun hin => ?_, fun hin => ?_⟩
    · rcases List.infix_cons_iff.mp hin with hstarts | hin
      · obtain ⟨rfl, t', rfl⟩ := List.cons_prefix_cons.mp hstarts
        exact hn t' rfl rfl
      · exact hnone hin
    · rcases List.infix_cons_iff.mp hin with hstarts | hin
      · obtain ⟨rfl, t', rfl⟩ := List.cons_prefix_cons.mp hstarts
        exact hr t' rfl rfl
      · exact hnone' hin

end escapes
end Srvlog.Library
