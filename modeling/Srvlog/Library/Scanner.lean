import Srvlog.Library.JavaText
import Srvlog.Library.Regex

/-! A scanner over a text, which alternates between tokens up to a delimiter and searches
of a pattern in the rest of the line. -/
namespace Srvlog.Library

def isLineSeparator (ch : Char) : Bool := decide (ch ∈ ['\n', '\r', '\u0085', '\u2028', '\u2029'])

/-- The text up to the first delimiter, or all of it. -/
def upTo (delimiter : Text) : Text → Text
  | [] => []
  | ch :: text => if delimiter.isPrefixOf (ch :: text) then [] else ch :: upTo delimiter text

/-- The text in front of the position is kept reversed. -/
structure Scanner where
  before : Text
  rest : Text

namespace Scanner

/-- Lookarounds see the text outside of the line. Nothing is found in an empty rest of a line. -/
def findInLine (r : Regex) (s : Scanner) : Option Text × Scanner :=
  let line := s.rest.takeWhile fun ch => !isLineSeparator ch
  let beyond := s.rest.dropWhile fun ch => !isLineSeparator ch
  if line = [] then (none, s)
  else match r.find beyond s.before line with
    | some (skipped, x) => (some x.matched, ⟨x.matched.reverse ++ (skipped.reverse ++ s.before), x.rest ++ beyond⟩)
    | none => (none, s)

/-- One delimiter in front of the token is skipped. -/
def next (delimiter : Text) (s : Scanner) : Except JavaException (Text × Scanner) :=
  let skipped := if delimiter.isPrefixOf s.rest then delimiter else []
  let rest := s.rest.drop skipped.length
  let token := upTo delimiter rest
  if rest = [] then .error .noSuchElementException
  else .ok (token, ⟨token.reverse ++ (skipped.reverse ++ s.before), rest.drop token.length⟩)

theorem findInLine_of_first {r : Regex} {before skip text : Text} {x : Match}
    (hline : ∀ ch ∈ skip ++ text, isLineSeparator ch = false) (hne : skip ++ text ≠ [])
    (hskip : ∀ s t, skip = s ++ t → t ≠ [] → r.first [] (s.reverse ++ before) (t ++ text) = none)
    (hfirst : r.first [] (skip.reverse ++ before) text = some x) :
    findInLine r ⟨before, skip ++ text⟩ = (some x.matched, ⟨x.matched.reverse ++ (skip.reverse ++ before), x.rest⟩) := by
  have hall : ∀ ch ∈ skip ++ text, (!isLineSeparator ch) = true := fun ch hch => by rw [hline ch hch]; rfl
  have hbeyond : (skip ++ text).dropWhile (fun ch => !isLineSeparator ch) = [] := List.dropWhile_eq_nil_iff.mpr hall
  rw [findInLine, List.takeWhile_eq_self_iff.mpr hall, hbeyond, if_neg hne, Regex.find_skip hskip,
    Regex.find_of_first hfirst, Option.map_some, List.append_nil]
  dsimp only
  rw [List.append_nil]

/-- The next characters of one kind in the line. -/
theorem findInLine_repeated {p : Char → Bool} {most : Option Nat} {before skip m rest : Text}
    (hline : ∀ ch ∈ skip ++ (m ++ rest), isLineSeparator ch = false) (hskip : ∀ ch ∈ skip, p ch = false)
    (hall : ∀ ch ∈ m, p ch) (hm : m ≠ []) (hmost : ∀ bound ∈ most, m.length ≤ bound)
    (hstop : ∀ ch ∈ rest.head?, p ch = false) :
    findInLine (.repeated true 1 most p) ⟨before, skip ++ (m ++ rest)⟩ =
      (some m, ⟨m.reverse ++ (skip.reverse ++ before), rest⟩) := by
  have hne : skip ++ (m ++ rest) ≠ [] := fun h => hm (List.append_eq_nil_iff.mp (List.append_eq_nil_iff.mp h).2).1
  refine findInLine_of_first hline hne (fun s t hst ht => ?_)
    (Regex.first_greedy hall (List.length_pos_iff.mpr hm) hmost (.inr hstop))
  obtain ⟨ch, t, rfl⟩ := List.exists_cons_of_ne_nil ht
  apply Regex.first_repeated_none Nat.one_pos
  intro c hc
  obtain rfl := Option.some.inj hc
  exact hskip ch (hst ▸ List.mem_append_right s List.mem_cons_self)

theorem upTo_append {delimiter token rest : Text} {ch : Char} (hhead : delimiter.head? = some ch)
    (htoken : ch ∉ token) : upTo delimiter (token ++ (delimiter ++ rest)) = token := by
  obtain ⟨delimiter, rfl⟩ := List.head?_eq_some_iff.mp hhead
  induction token with
  | nil =>
    rw [List.nil_append, List.cons_append, upTo, if_pos]
    exact List.isPrefixOf_iff_prefix.mpr (List.prefix_append (ch :: delimiter) rest)
  | cons c token ih =>
    have hne : ¬ (ch :: delimiter).isPrefixOf (c :: (token ++ (ch :: delimiter ++ rest))) = true := by
      rw [List.isPrefixOf_iff_prefix, List.cons_prefix_cons]
      rintro ⟨rfl, -⟩
      exact htoken List.mem_cons_self
    rw [List.cons_append, upTo, if_neg hne, ih fun h => htoken (List.mem_cons_of_mem _ h)]

/-- The token between two delimiters, in front of the first of which the scanner may stand. -/
theorem next_token {delimiter before skipped token rest : Text} {ch : Char} (hhead : delimiter.head? = some ch)
    (htoken : ch ∉ token) (hne : token ≠ []) (hskipped : skipped = delimiter ∨ skipped = []) :
    next delimiter ⟨before, skipped ++ (token ++ (delimiter ++ rest))⟩ =
      .ok (token, ⟨token.reverse ++ (skipped.reverse ++ before), delimiter ++ rest⟩) := by
  have hskip : (if delimiter.isPrefixOf (skipped ++ (token ++ (delimiter ++ rest))) then delimiter else []) = skipped := by
    rcases hskipped with rfl | rfl
    · exact if_pos (List.isPrefixOf_iff_prefix.mpr (List.prefix_append _ _))
    · apply if_neg
      rw [List.isPrefixOf_iff_prefix]
      rintro ⟨u, hu⟩
      have hfirst := congrArg List.head? hu
      obtain ⟨c, token, rfl⟩ := List.exists_cons_of_ne_nil hne
      rw [List.head?_append, hhead] at hfirst
      exact htoken (Option.some.inj hfirst ▸ List.mem_cons_self)
  have hrest : token ++ (delimiter ++ rest) ≠ [] := fun h => hne (List.append_eq_nil_iff.mp h).1
  rw [next]
  dsimp only
  rw [hskip, List.drop_left, upTo_append hhead htoken, if_neg hrest, List.drop_left]

end Scanner
end Srvlog.Library
