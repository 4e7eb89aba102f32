import Srvlog.Library.Text
import Mathlib.Data.List.TakeWhile

/-! Regular expressions as a backtracking engine reads them: all ways to match at a
place, in the order in which they are tried, and the first place with a match. -/
namespace Srvlog.Library

/-- The constructs that the patterns use. Only single characters are repeated. -/
inductive Regex where
  | literal (t : Text)
  | repeated (greedy : Bool) (least : Nat) (most : Option Nat) (p : Char → Bool)
  | seq (a b : Regex)
  | alt (a b : Regex)
  | group (name : Text) (r : Regex)
  | followedBy (t : Text)
  | precededBy (t : Text)
  | start

structure Match where
  matched : Text
  rest : Text
  groups : List (Text × Text)
  deriving DecidableEq

namespace Regex

/-- The numbers of repetitions in the order of the attempts. -/
def counts (greedy : Bool) (least : Nat) (most : Option Nat) (available : Nat) : List Nat :=
  let ks := List.range' least (most.elim available (min available) + 1 - least)
  if greedy then ks.reverse else ks

section engine
-- the text behind the region, which only a lookahead sees
variable (beyond : Text)

/-- All matches at one place. The text in front of it is reversed. -/
def run : Regex → (before text : Text) → List Match
  | literal t, _, text => if t.isPrefixOf text then [⟨t, text.drop t.length, []⟩] else []
  | repeated greedy least most p, _, text =>
    (counts greedy least most (text.takeWhile p).length).map fun k => ⟨text.take k, text.drop k, []⟩
  | seq a b, before, text => (run a before text).flatMap fun x =>
    (run b (x.matched.reverse ++ before) x.rest).map fun y => ⟨x.matched ++ y.matched, y.rest, x.groups ++ y.groups⟩
  | alt a b, before, text => run a before text ++ run b before text
  | group name r, before, text => (run r before text).map fun x => { x with groups := (name, x.matched) :: x.groups }
  | followedBy t, _, text => if t.isPrefixOf (text ++ beyond) then [⟨[], text, []⟩] else []
  | precededBy t, before, text => if t.reverse.isPrefixOf before then [⟨[], text, []⟩] else []
  | start, before, text => if before.isEmpty then [⟨[], text, []⟩] else []

section steps
variable (before text : Text)

theorem run_literal (t : Text) : run beyond (literal t) before text =
    if t.isPrefixOf text then [⟨t, text.drop t.length, []⟩] else [] := rfl

theorem run_repeated (greedy : Bool) (least : Nat) (most : Option Nat) (p : Char → Bool) :
    run beyond (repeated greedy least most p) before text =
      (counts greedy least most (text.takeWhile p).length).map fun k => ⟨text.take k, text.drop k, []⟩ := rfl

theorem run_seq (a b : Regex) : run beyond (seq a b) before text = (run beyond a before text).flatMap fun x =>
    (run beyond b (x.matched.reverse ++ before) x.rest).map fun y =>
      ⟨x.matched ++ y.matched, y.rest, x.groups ++ y.groups⟩ := rfl

theorem run_alt (a b : Regex) : run beyond (alt a b) before text = run beyond a before text ++ run beyond b before text := rfl

theorem run_group (name : Text) (r : Regex) : run beyond (group name r) before text =
    (run beyond r before text).map fun x => { x with groups := (name, x.matched) :: x.groups } := rfl

theorem run_followedBy (t : Text) : run beyond (followedBy t) before text =
    if t.isPrefixOf (text ++ beyond) then [⟨[], text, []⟩] else [] := rfl

theorem run_precededBy (t : Text) : run beyond (precededBy t) before text =
    if t.reverse.isPrefixOf before then [⟨[], text, []⟩] else [] := rfl

theorem run_start : run beyond start before text = if before.isEmpty then [⟨[], text, []⟩] else [] := rfl

end steps

def first (r : Regex) (before text : Text) : Option Match := (run beyond r before text).head?

/-- The first match at the first place that has one, and the text skipped in front of it. -/
def find (r : Regex) : (before text : Text) → Option (Text × Match)
  | before, [] => (first beyond r before []).map fun x => ([], x)
  | before, c :: text => match first beyond r before (c :: text) with
    | some x => some ([], x)
    | none => (find r (c :: before) text).map fun (skipped, x) => (c :: skipped, x)

end engine

/-- Whether a text contains a match, and its first one, as a matcher on the whole text sees it. -/
def findIn (r : Regex) (text : Text) : Option (Text × Match) := r.find [] [] text

def occursIn (r : Regex) (text : Text) : Bool := (r.findIn text).isSome

/-- What it means that the middle one of three texts matches. -/
def Matches (beyond : Text) : Regex → (before matched rest : Text) → Prop
  | literal t, _, m, _ => m = t
  | repeated _ least most p, _, m, _ => (∀ ch ∈ m, p ch) ∧ least ≤ m.length ∧ ∀ bound ∈ most, m.length ≤ bound
  | seq a b, before, m, rest => ∃ m₁ m₂, m = m₁ ++ m₂ ∧ Matches beyond a before m₁ (m₂ ++ rest) ∧
    Matches beyond b (m₁.reverse ++ before) m₂ rest
  | alt a b, before, m, rest => Matches beyond a before m rest ∨ Matches beyond b before m rest
  | group _ r, before, m, rest => Matches beyond r before m rest
  | followedBy t, _, m, rest => m = [] ∧ t <+: rest ++ beyond
  | precededBy t, before, m, _ => m = [] ∧ t.reverse <+: before
  | start, before, m, _ => m = [] ∧ before = []

theorem mem_counts {greedy : Bool} {least available k : Nat} {most : Option Nat} :
    k ∈ counts greedy least most available ↔ least ≤ k ∧ k ≤ available ∧ ∀ bound ∈ most, k ≤ bound := by
  have hmem : k ∈ counts greedy least most available ↔
      k ∈ List.range' least (most.elim available (min available) + 1 - least) := by
    unfold counts
    cases greedy with
    | true => exact List.mem_reverse
    | false => exact Iff.rfl
  rw [hmem, List.mem_range'_1]
  cases most with
  | none =>
    simp only [Option.elim_none, Option.mem_def, reduceCtorEq, false_implies, implies_true, and_true]
    omega
  | some bound =>
    simp only [Option.elim_some, Option.mem_def, Option.some.injEq, forall_eq']
    omega

theorem length_le_length_takeWhile {p : Char → Bool} {m rest : Text} :
    m.length ≤ ((m ++ rest).takeWhile p).length ↔ ∀ ch ∈ m, p ch := by
  constructor
  · intro hle ch hch
    have htake : (m ++ rest).takeWhile p <+: m ++ rest := List.takeWhile_prefix p
    have hm : m <+: (m ++ rest).takeWhile p := List.prefix_of_prefix_length_le (List.prefix_append m rest) htake hle
    exact List.mem_takeWhile_imp (hm.subset hch)
  · intro hall
    rw [List.takeWhile_append_of_pos hall, List.length_append]
    exact Nat.le_add_right _ _

theorem exists_mem_guard_iff {condition : Bool} {x : Match} {m rest : Text} :
    (∃ y ∈ (if condition then [x] else []), y.matched = m ∧ y.rest = rest) ↔
      condition = true ∧ x.matched = m ∧ x.rest = rest := by
  cases condition with
  | true => simp
  | false => simp

/-- The engine tries exactly the ways to match. -/
theorem exists_mem_run_iff {beyond : Text} {r : Regex} {before text m rest : Text} :
    (∃ x ∈ run beyond r before text, x.matched = m ∧ x.rest = rest) ↔
      text = m ++ rest ∧ Matches beyond r before m rest := by
  induction r generalizing before text m rest with
  | literal t =>
    rw [run_literal, exists_mem_guard_iff, List.isPrefixOf_iff_prefix, Matches]
    constructor
    · rintro ⟨⟨u, rfl⟩, rfl, hrest⟩
      rw [← hrest]
      exact ⟨congrArg _ List.drop_left.symm, rfl⟩
    · rintro ⟨rfl, rfl⟩
      exact ⟨List.prefix_append _ _, rfl, List.drop_left⟩
  | repeated greedy least most p =>
    simp only [run_repeated, List.mem_map, Matches]
    constructor
    · rintro ⟨_, ⟨k, hk, rfl⟩, rfl, rfl⟩
      obtain ⟨hleast, havailable, hmost⟩ := mem_counts.mp hk
      have hlength : (text.take k).length = k := by
        have htext := (List.takeWhile_prefix p (l := text)).length_le
        rw [List.length_take]
        omega
      have hall : (text.take k).length ≤ ((text.take k ++ text.drop k).takeWhile p).length := by
        rwa [List.take_append_drop, hlength]
      refine ⟨(List.take_append_drop k text).symm, length_le_length_takeWhile.mp hall, ?_, ?_⟩
      · rwa [hlength]
      · rwa [hlength]
    · rintro ⟨rfl, hall, hleast, hmost⟩
      exact ⟨_, ⟨m.length, mem_counts.mpr ⟨hleast, length_le_length_takeWhile.mpr hall, hmost⟩, rfl⟩,
        List.take_left, List.drop_left⟩
  | seq a b iha ihb =>
    simp only [run_seq, List.mem_flatMap, List.mem_map, Matches]
    constructor
    · rintro ⟨_, ⟨x, hx, y, hy, rfl⟩, rfl, rfl⟩
      obtain ⟨htext, ha⟩ := iha.mp ⟨x, hx, rfl, rfl⟩
      obtain ⟨hrest, hb⟩ := ihb.mp ⟨y, hy, rfl, rfl⟩
      refine ⟨by rw [htext, hrest, List.append_assoc], x.matched, y.matched, rfl, hrest ▸ ha, hb⟩
    · rintro ⟨rfl, m₁, m₂, rfl, ha, hb⟩
      obtain ⟨x, hx, rfl, hxr⟩ := iha.mpr ⟨(List.append_assoc m₁ m₂ rest), ha⟩
      obtain ⟨y, hy, rfl, rfl⟩ := ihb.mpr ⟨hxr, hb⟩
      exact ⟨_, ⟨x, hx, y, hy, rfl⟩, rfl, rfl⟩
  | alt a b iha ihb =>
    rw [Matches, and_or_left, ← iha, ← ihb]
    simp only [run_alt, List.mem_append, or_and_right, exists_or]
  | group name r ih =>
    rw [Matches, ← ih]
    simp only [run_group, List.mem_map]
    constructor
    · rintro ⟨_, ⟨x, hx, rfl⟩, rfl, rfl⟩
      exact ⟨x, hx, rfl, rfl⟩
    · rintro ⟨x, hx, rfl, rfl⟩
      exact ⟨_, ⟨x, hx, rfl⟩, rfl, rfl⟩
  | followedBy t =>
    rw [run_followedBy, exists_mem_guard_iff, List.isPrefixOf_iff_prefix, Matches]
    constructor
    · rintro ⟨hstarts, rfl, rfl⟩
      exact ⟨rfl, rfl, hstarts⟩
    · rintro ⟨rfl, rfl, hstarts⟩
      exact ⟨hstarts, rfl, rfl⟩
  | precededBy t =>
    rw [run_precededBy, exists_mem_guard_iff, List.isPrefixOf_iff_prefix, Matches]
    constructor
    · rintro ⟨hstarts, rfl, rfl⟩
      exact ⟨rfl, rfl, hstarts⟩
    · rintro ⟨rfl, rfl, hstarts⟩
      exact ⟨hstarts, rfl, rfl⟩
  | start =>
    rw [run_start, exists_mem_guard_iff, List.isEmpty_iff, Matches]
    constructor
    · rintro ⟨hempty, rfl, rfl⟩
      exact ⟨rfl, rfl, hempty⟩
    · rintro ⟨rfl, rfl, hempty⟩
      exact ⟨hempty, rfl, rfl⟩

theorem first_eq_none_iff {beyond : Text} {r : Regex} {before text : Text} :
    first beyond r before text = none ↔ ∀ m rest, text = m ++ rest → ¬ Matches beyond r before m rest := by
  rw [first, List.head?_eq_none_iff, List.eq_nil_iff_forall_not_mem]
  constructor
  · intro h m rest htext hm
    obtain ⟨x, hx, -⟩ := exists_mem_run_iff.mpr ⟨htext, hm⟩
    exact h x hx
  · intro h x hx
    obtain ⟨htext, hm⟩ := exists_mem_run_iff.mp ⟨x, hx, rfl, rfl⟩
    exact h _ _ htext hm

section first
variable {beyond : Text} {before text : Text}

theorem first_literal (t rest : Text) : first beyond (literal t) before (t ++ rest) = some ⟨t, rest, []⟩ := by
  rw [first, run_literal, if_pos (List.isPrefixOf_iff_prefix.mpr (List.prefix_append _ _)), List.drop_left]
  rfl

theorem first_followedBy (t rest : Text) : first beyond (followedBy t) before (t ++ rest) = some ⟨[], t ++ rest, []⟩ := by
  rw [first, run_followedBy, List.append_assoc, if_pos (List.isPrefixOf_iff_prefix.mpr (List.prefix_append _ _))]
  rfl

theorem first_precededBy (t : Text) :
    first beyond (precededBy t) (t.reverse ++ before) text = some ⟨[], text, []⟩ := by
  rw [first, run_precededBy, if_pos (List.isPrefixOf_iff_prefix.mpr (List.prefix_append _ _))]
  rfl

theorem first_seq {a b : Regex} {x y : Match} (ha : first beyond a before text = some x)
    (hb : first beyond b (x.matched.reverse ++ before) x.rest = some y) :
    first beyond (seq a b) before text = some ⟨x.matched ++ y.matched, y.rest, x.groups ++ y.groups⟩ := by
  obtain ⟨xs, hxs⟩ := List.head?_eq_some_iff.mp ha
  obtain ⟨ys, hys⟩ := List.head?_eq_some_iff.mp hb
  rw [first, run_seq, hxs, List.flatMap_cons, hys]
  rfl

theorem first_alt (a b : Regex) :
    first beyond (alt a b) before text = (first beyond a before text).or (first beyond b before text) := by
  rw [first, run_alt, List.head?_append]
  rfl

theorem first_literal_none {t : Text} (h : ¬ t <+: text) : first beyond (literal t) before text = none := by
  rw [first, run_literal, if_neg (fun hstarts => h (List.isPrefixOf_iff_prefix.mp hstarts))]
  rfl

theorem first_group {r : Regex} (name : Text) {x : Match} (h : first beyond r before text = some x) :
    first beyond (group name r) before text = some { x with groups := (name, x.matched) :: x.groups } := by
  obtain ⟨xs, hxs⟩ := List.head?_eq_some_iff.mp h
  rw [first, run_group, hxs]
  rfl

/-- A greedy repetition takes all characters up to its bound or up to one that it may not take. -/
theorem first_greedy {p : Char → Bool} {least : Nat} {most : Option Nat} {m rest : Text} (hall : ∀ ch ∈ m, p ch)
    (hleast : least ≤ m.length) (hmost : ∀ bound ∈ most, m.length ≤ bound)
    (hstop : m.length ∈ most ∨ ∀ ch ∈ rest.head?, p ch = false) :
    first beyond (repeated true least most p) before (m ++ rest) = some ⟨m, rest, []⟩ := by
  have havailable : m.length ≤ ((m ++ rest).takeWhile p).length := length_le_length_takeWhile.mpr hall
  have hcount : most.elim ((m ++ rest).takeWhile p).length (min ((m ++ rest).takeWhile p).length) = m.length := by
    rcases hstop with hstop | hstop
    · rw [Option.mem_def] at hstop
      rw [hstop, Option.elim_some]
      omega
    · have hend : rest.takeWhile p = [] := by
        cases rest with
        | nil => rfl
        | cons ch rest => exact List.takeWhile_cons_of_neg (by simp [hstop ch rfl])
      rw [List.takeWhile_append_of_pos hall, hend, List.append_nil]
      cases most with
      | none => rfl
      | some bound => exact Nat.min_eq_left (hmost bound rfl)
  have hhead : (counts true least most ((m ++ rest).takeWhile p).length).head? = some m.length := by
    rw [counts, if_pos rfl, List.head?_reverse, hcount, List.getLast?_range', if_neg (by omega)]
    congr 1
    omega
  rw [first, run_repeated, List.head?_map, hhead, Option.map_some, List.take_left, List.drop_left]

theorem first_repeated_none {greedy : Bool} {p : Char → Bool} {least : Nat} {most : Option Nat} (hleast : 0 < least)
    (hstop : ∀ ch ∈ text.head?, p ch = false) : first beyond (repeated greedy least most p) before text = none := by
  rw [first_eq_none_iff]
  rintro m rest rfl ⟨hall, hlength, -⟩
  obtain ⟨ch, m, rfl⟩ := List.exists_cons_of_length_pos (Nat.lt_of_lt_of_le hleast hlength)
  have hch := hall ch List.mem_cons_self
  rw [hstop ch rfl] at hch
  cases hch

theorem first_group_none {r : Regex} {name : Text} (h : first beyond r before text = none) :
    first beyond (group name r) before text = none := by
  rw [first, List.head?_eq_none_iff] at h
  rw [first, run_group, h]
  rfl

theorem first_seq_none {a b : Regex} (h : first beyond a before text = none) :
    first beyond (seq a b) before text = none := by
  rw [first, List.head?_eq_none_iff] at h
  rw [first, run_seq, h]
  rfl

/-- A lazy repetition stops where the pattern behind it first matches. -/
theorem first_lazy {p : Char → Bool} {b : Regex} {m rest : Text} {y : Match} (hall : ∀ ch ∈ m, p ch)
    (hearlier : ∀ s t, m = s ++ t → t ≠ [] → first beyond b (s.reverse ++ before) (t ++ rest) = none)
    (hb : first beyond b (m.reverse ++ before) rest = some y) :
    first beyond (seq (repeated false 0 none p) b) before (m ++ rest) = some ⟨m ++ y.matched, y.rest, y.groups⟩ := by
  have havailable : m.length ≤ ((m ++ rest).takeWhile p).length := length_le_length_takeWhile.mpr hall
  obtain ⟨more, hmore⟩ := Nat.exists_eq_add_of_le havailable
  have hcounts : counts false 0 none ((m ++ rest).takeWhile p).length =
      List.range' 0 m.length ++ m.length :: List.range' (m.length + 1) more := by
    have hsplit : List.range' 0 m.length ++ List.range' (0 + m.length) (more + 1) = List.range' 0 (m.length + (more + 1)) :=
      List.range'_append_1
    rw [Nat.zero_add] at hsplit
    rw [counts, if_neg Bool.false_ne_true, Option.elim_none, hmore, ← List.range'_succ, hsplit]
    rfl
  obtain ⟨ys, hys⟩ := List.head?_eq_some_iff.mp hb
  rw [first, run_seq, run_repeated, hcounts, List.map_append, List.flatMap_append, List.map_cons, List.flatMap_cons,
    List.flatMap_eq_nil_iff.mpr, List.nil_append, List.take_left, List.drop_left, hys]
  · rfl
  · intro x hx
    obtain ⟨k, hk, rfl⟩ := List.mem_map.mp hx
    have hlt : k < m.length := by
      have hrange := List.mem_range'_1.mp hk
      omega
    have hnone := hearlier (m.take k) (m.drop k) (List.take_append_drop k m).symm
      (List.ne_nil_of_length_pos (by rw [List.length_drop]; omega))
    rw [first, List.head?_eq_none_iff] at hnone
    rw [List.take_append_of_le_length hlt.le, List.drop_append_of_le_length hlt.le, hnone]
    rfl

end first

section find
variable {beyond : Text} {r : Regex}

theorem find_of_first {before text : Text} {x : Match} (h : first beyond r before text = some x) :
    find beyond r before text = some ([], x) := by
  cases text with
  | nil => rw [find, h, Option.map_some]
  | cons ch text => rw [find, h]

theorem first_of_find {before text skipped : Text} {x : Match} (h : find beyond r before text = some (skipped, x)) :
    ∃ before' text', first beyond r before' text' = some x := by
  induction text generalizing before skipped with
  | nil =>
    obtain ⟨y, hy, hx⟩ := Option.map_eq_some_iff.mp h
    exact ⟨before, [], hy.trans (congrArg some (Prod.mk.inj hx).2)⟩
  | cons ch text ih =>
    rw [find] at h
    split at h
    · next y hy => exact ⟨before, ch :: text, hy.trans (congrArg some (Prod.mk.inj (Option.some.inj h)).2)⟩
    · obtain ⟨⟨skipped', y⟩, hy, hx⟩ := Option.map_eq_some_iff.mp h
      obtain rfl := (Prod.mk.inj hx).2
      exact ih hy

/-- Places without a match are skipped. -/
theorem find_skip {skip before text : Text}
    (h : ∀ s t, skip = s ++ t → t ≠ [] → first beyond r (s.reverse ++ before) (t ++ text) = none) :
    find beyond r before (skip ++ text) =
      (find beyond r (skip.reverse ++ before) text).map fun found => (skip ++ found.1, found.2) := by
  induction skip generalizing before with
  | nil =>
    rw [List.nil_append, List.reverse_nil, List.nil_append]
    exact Option.map_id'.symm
  | cons ch skip ih =>
    have hfirst : first beyond r before (ch :: (skip ++ text)) = none := h [] (ch :: skip) rfl (List.cons_ne_nil _ _)
    have hrest := @ih (ch :: before) fun s t hskip ht => by
      have hnone := h (ch :: s) t (by rw [hskip]; rfl) ht
      rwa [List.reverse_cons, List.append_assoc] at hnone
    rw [List.cons_append, find, hfirst, hrest, Option.map_map, List.reverse_cons, List.append_assoc]
    rfl

theorem find_eq_none_iff {before text : Text} : find beyond r before text = none ↔
    ∀ s t, text = s ++ t → first beyond r (s.reverse ++ before) t = none := by
  induction text generalizing before with
  | nil =>
    rw [find, Option.map_eq_none_iff]
    constructor
    · intro h s t hst
      obtain ⟨rfl, rfl⟩ := List.append_eq_nil_iff.mp hst.symm
      exact h
    · exact fun h => h [] [] rfl
  | cons ch text ih =>
    rw [find]
    constructor
    · intro h
      split at h
      · cases h
      · next hfirst =>
        rw [Option.map_eq_none_iff, ih] at h
        rintro (_ | ⟨ch', s⟩) t hst
        · rw [List.nil_append] at hst
          rwa [← hst]
        · obtain ⟨rfl, htext⟩ := List.cons.inj hst
          rw [List.reverse_cons, List.append_assoc]
          exact h s t htext
    · intro h
      have hfirst : first beyond r before (ch :: text) = none := h [] (ch :: text) rfl
      rw [hfirst]
      dsimp only
      rw [Option.map_eq_none_iff, ih]
      intro s t hst
      have hnone := h (ch :: s) t (by rw [hst]; rfl)
      rwa [List.reverse_cons, List.append_assoc] at hnone

/-- A text contains no match at all. -/
theorem not_occursIn_iff {text : Text} : occursIn r text = false ↔
    ∀ s m t, text = s ++ (m ++ t) → ¬ Matches [] r s.reverse m t := by
  rw [occursIn, Option.isSome_eq_false_iff, Option.isNone_iff_eq_none, findIn, find_eq_none_iff]
  constructor
  · intro h s m t hst
    have hnone := first_eq_none_iff.mp (h s (m ++ t) hst) m t rfl
    rwa [List.append_nil] at hnone
  · intro h s u hst
    rw [first_eq_none_iff, List.append_nil]
    intro m t hmt
    exact h s m t (hmt ▸ hst)

end find

section split

/-- The parts between the matches of a pattern that matches no empty text, so many matches at most. -/
def splitAt (r : Regex) : (most : Nat) → Text → List Text
  | 0, text => [text]
  | most + 1, text => match r.findIn text with
    | none => [text]
    | some (skipped, x) => skipped :: splitAt r most x.rest

def split (r : Regex) (text : Text) : List Text := splitAt r text.length text

end split

section plain

/-- A pattern without context, all of whose characters come from a set. -/
def Within (q : Char → Bool) : Regex → Prop
  | literal t => ∀ ch ∈ t, q ch
  | repeated _ _ _ p => ∀ ch, p ch → q ch
  | seq a b => Within q a ∧ Within q b
  | alt a b => Within q a ∧ Within q b
  | group _ r => Within q r
  | followedBy _ | precededBy _ | start => False

theorem Matches.within {q : Char → Bool} {r : Regex} (hr : Within q r) {beyond before m rest : Text}
    (h : Matches beyond r before m rest) :
    (∀ ch ∈ m, q ch) ∧ ∀ beyond' before' rest', Matches beyond' r before' m rest' := by
  induction r generalizing before m rest with
  | literal t =>
    obtain rfl := h
    exact ⟨hr, fun _ _ _ => rfl⟩
  | repeated greedy least most p => exact ⟨fun ch hch => hr ch (h.1 ch hch), fun _ _ _ => h⟩
  | seq a b iha ihb =>
    obtain ⟨m₁, m₂, rfl, ha, hb⟩ := h
    obtain ⟨hq₁, ha'⟩ := iha hr.1 ha
    obtain ⟨hq₂, hb'⟩ := ihb hr.2 hb
    refine ⟨fun ch hch => ?_, fun _ _ _ => ⟨m₁, m₂, rfl, ha' _ _ _, hb' _ _ _⟩⟩
    rcases List.mem_append.mp hch with hch | hch
    · exact hq₁ ch hch
    · exact hq₂ ch hch
  | alt a b iha ihb =>
    rcases h with h | h
    · obtain ⟨hq, ha⟩ := iha hr.1 h
      exact ⟨hq, fun _ _ _ => .inl (ha _ _ _)⟩
    · obtain ⟨hq, hb⟩ := ihb hr.2 h
      exact ⟨hq, fun _ _ _ => .inr (hb _ _ _)⟩
  | group name r ih => exact ih hr h
  | followedBy t => exact hr.elim
  | precededBy t => exact hr.elim
  | start => exact hr.elim

end plain

section unique

/-- A pattern with at most one match at a place. -/
def Unique (r : Regex) : Prop := ∀ ⦃beyond before m m' rest rest' : Text⦄, Matches beyond r before m rest →
  Matches beyond r before m' rest' → m ++ rest = m' ++ rest' → m = m'

theorem unique_literal (t : Text) : Unique (literal t) := fun _ _ _ _ _ _ h h' _ => Eq.trans h (Eq.symm h')

theorem unique_fixed (greedy : Bool) (count : Nat) (p : Char → Bool) : Unique (repeated greedy count (some count) p) := by
  rintro beyond before m m' rest rest' ⟨-, hleast, hmost⟩ ⟨-, hleast', hmost'⟩ htext
  have hlength := hmost count rfl
  have hlength' := hmost' count rfl
  exact List.append_inj_left htext (by omega)

theorem Unique.seq {a b : Regex} (ha : Unique a) (hb : Unique b) : Unique (.seq a b) := by
  rintro beyond before _ _ rest rest' ⟨m₁, m₂, rfl, h₁, h₂⟩ ⟨m₁', m₂', rfl, h₁', h₂'⟩ htext
  rw [List.append_assoc, List.append_assoc] at htext
  obtain rfl := ha h₁ h₁' htext
  rw [hb h₂ h₂' (List.append_cancel_left htext)]

/-- All matches begin with a character outside the set. -/
def BeginsOutside (p : Char → Bool) (r : Regex) : Prop :=
  ∀ ⦃beyond before m rest : Text⦄, Matches beyond r before m rest → ∃ ch ∈ m.head?, p ch = false

theorem beginsOutside_literal {p : Char → Bool} {ch : Char} (hch : p ch = false) (b : Regex) :
    BeginsOutside p (seq (literal [ch]) b) := by
  rintro beyond before _ rest ⟨_, m, rfl, rfl, -⟩
  exact ⟨ch, rfl, hch⟩

theorem beginsOutside_repeated {p q : Char → Bool} {greedy : Bool} {least : Nat} {most : Option Nat} (hleast : 0 < least)
    (hq : ∀ ch, q ch → p ch = false) (b : Regex) : BeginsOutside p (seq (repeated greedy least most q) b) := by
  rintro beyond before _ rest ⟨m₁, m₂, rfl, ⟨hall, hlength, -⟩, -⟩
  obtain ⟨ch, m₁, rfl⟩ := List.exists_cons_of_length_pos (Nat.lt_of_lt_of_le hleast hlength)
  exact ⟨ch, rfl, hq ch (hall ch List.mem_cons_self)⟩

/-- A repetition ends where the pattern behind it begins. -/
theorem Unique.repeated_seq {greedy : Bool} {least : Nat} {most : Option Nat} {p : Char → Bool} {b : Regex}
    (hb : Unique b) (hbegins : BeginsOutside p b) : Unique (.seq (.repeated greedy least most p) b) := by
  have htake {beyond before m₁ m₂ rest : Text} (hall : ∀ ch ∈ m₁, p ch) (h₂ : Matches beyond b before m₂ rest) :
      ((m₁ ++ m₂) ++ rest).takeWhile p = m₁ := by
    obtain ⟨ch, hhead, hch⟩ := hbegins h₂
    obtain ⟨m₂, rfl⟩ := List.head?_eq_some_iff.mp hhead
    rw [List.append_assoc, List.takeWhile_append_of_pos hall, List.cons_append,
      List.takeWhile_cons_of_neg (hch ▸ Bool.false_ne_true), List.append_nil]
  rintro beyond before _ _ rest rest' ⟨m₁, m₂, rfl, h₁, h₂⟩ ⟨m₁', m₂', rfl, h₁', h₂'⟩ htext
  obtain rfl : m₁ = m₁' := by rw [← htake h₁.1 h₂, htext, htake h₁'.1 h₂']
  rw [List.append_assoc, List.append_assoc] at htext
  rw [hb h₂ h₂' (List.append_cancel_left htext)]

/-- A pattern that begins with a named group has a match of the group in each of its own. -/
theorem exists_leading_group {beyond before text name : Text} {r b : Regex} {y : Match}
    (hy : y ∈ run beyond (seq (group name r) b) before text) :
    ∃ m rest, y.groups.lookup name = some m ∧ text = m ++ rest ∧ Matches beyond r before m rest := by
  rw [run_seq, run_group, List.mem_flatMap] at hy
  obtain ⟨_, hgroup, hy⟩ := hy
  obtain ⟨z, hz, rfl⟩ := List.mem_map.mp hgroup
  obtain ⟨w, -, rfl⟩ := List.mem_map.mp hy
  obtain ⟨htext, hmatch⟩ := exists_mem_run_iff.mp ⟨z, hz, rfl, rfl⟩
  exact ⟨z.matched, z.rest, List.lookup_cons_self, htext, hmatch⟩

/-- A named group that the text begins with, then any characters, then more. A match anywhere in a text
gives one from its beginning, and the group of that one is what the text begins with. -/
theorem findIn_leading {r b : Regex} {name m rest : Text} {greedy : Bool} {p : Char → Bool} (hr : Unique r)
    (hm : ∀ rest', Matches [] r [] m rest') (hb : Within (fun _ => true) b)
    (hinside : ∀ s m' t, s ≠ [] → m ++ rest = s ++ (m' ++ t) → Matches [] r s.reverse m' t → m.length ≤ s.length)
    (hp : ∀ ch ∈ m ++ rest, p ch)
    (hoccurs : (seq (group name r) (seq (repeated greedy 1 none p) b)).occursIn (m ++ rest) = true) :
    ∃ x, (seq (group name r) (seq (repeated greedy 1 none p) b)).findIn (m ++ rest) = some ([], x) ∧
      x.groups.lookup name = some m := by
  have hstart : ∃ m' t, m ++ rest = m' ++ t ∧
      Matches [] (seq (group name r) (seq (repeated greedy 1 none p) b)) [] m' t := by
    by_contra hnone
    rw [← Bool.not_eq_false, not_occursIn_iff] at hoccurs
    refine hoccurs fun s m' t hst hmatches => hnone ?_
    by_cases hs : s = []
    · subst hs
      exact ⟨m', t, hst, hmatches⟩
    · obtain ⟨d, _, rfl, hd, u, v, rfl, ⟨-, hu, -⟩, hv⟩ := hmatches
      have hle := hinside s d ((u ++ v) ++ t) hs (by rw [hst, List.append_assoc]) hd
      obtain ⟨s, rfl⟩ := List.prefix_of_prefix_length_le (List.prefix_append m rest) ⟨_, hst.symm⟩ hle
      have htext : m ++ rest = (m ++ ((s ++ (d ++ u)) ++ v)) ++ t := by simpa using hst
      have hany : ∀ ch ∈ s ++ (d ++ u), p ch := by
        intro ch hch
        refine hp ch ?_
        rw [htext]
        simp only [List.mem_append] at hch ⊢
        tauto
      refine ⟨_, t, htext, m, (s ++ (d ++ u)) ++ v, rfl, hm _, s ++ (d ++ u), v, rfl, ⟨hany, ?_, ?_⟩, ?_⟩
      · rw [List.length_append, List.length_append]
        omega
      · exact fun _ h => nomatch h
      · exact (hv.within hb).2 _ _ _
  obtain ⟨m', t, hst, hmatches⟩ := hstart
  obtain ⟨x, hx, -⟩ := exists_mem_run_iff.mpr ⟨hst, hmatches⟩
  obtain ⟨y, ys, hrun⟩ := List.exists_cons_of_ne_nil (List.ne_nil_of_mem hx)
  have hfirst : first [] (seq (group name r) (seq (repeated greedy 1 none p) b)) [] (m ++ rest) = some y := by
    rw [first, hrun, List.head?_cons]
  refine ⟨y, find_of_first hfirst, ?_⟩
  obtain ⟨m'', t', hlookup, htext, hmatch⟩ := exists_leading_group (hrun ▸ List.mem_cons_self)
  rw [hlookup, hr (hm rest) hmatch htext]

end unique

section fields

/-- Named groups with a separator between them. -/
def separated (separator : Text) : List (Text × Regex) → Regex
  | [] => literal []
  | [field] => group field.1 field.2
  | field :: fields => seq (group field.1 field.2) (seq (literal separator) (separated separator fields))

theorem within_separated {q : Char → Bool} {separator : Text} (hsep : ∀ ch ∈ separator, q ch) {fields : List (Text × Regex)}
    (hfields : ∀ field ∈ fields, Within q field.2) : Within q (separated separator fields) := by
  induction fields with
  | nil => exact fun _ hch => absurd hch List.not_mem_nil
  | cons field fields ih =>
    rw [List.forall_mem_cons] at hfields
    cases fields with
    | nil => exact hfields.1
    | cons next fields => exact ⟨hfields.1, hsep, ih hfields.2⟩

/-- In front of a character outside the set the pattern takes the whole text. -/
def Reads (p : Char → Bool) (r : Regex) (m : Text) : Prop :=
  ∀ beyond before rest, (∀ ch ∈ rest.head?, p ch = false) →
    first beyond r before (m ++ rest) = some ⟨m, rest, []⟩

theorem reads_greedy {p : Char → Bool} {least : Nat} {most : Option Nat} {m : Text} (hall : ∀ ch ∈ m, p ch)
    (hleast : least ≤ m.length) (hmost : ∀ bound ∈ most, m.length ≤ bound) :
    Reads p (repeated true least most p) m :=
  fun _ _ _ hstop => first_greedy hall hleast hmost (.inr hstop)

theorem Reads.seq {p : Char → Bool} {a b : Regex} {m m' : Text} (ha : Reads p a m) (hb : Reads p b m')
    (hm : ∀ rest : Text, (∀ ch ∈ rest.head?, p ch = false) → ∀ ch ∈ (m' ++ rest).head?, p ch = false) :
    Reads p (.seq a b) (m ++ m') := by
  intro beyond before rest hrest
  have hboth := first_seq (ha beyond before (m' ++ rest) (hm rest hrest)) (hb beyond (m.reverse ++ before) rest hrest)
  rwa [← List.append_assoc] at hboth

theorem Reads.seq_literal {p : Char → Bool} {a b : Regex} {m m' : Text} {ch : Char} (ha : Reads p a m)
    (hch : p ch = false) (hb : Reads p b m') : Reads p (.seq a (.seq (.literal [ch]) b)) (m ++ ch :: m') := by
  intro beyond before rest hrest
  have hstop : ∀ c ∈ (ch :: (m' ++ rest)).head?, p c = false := by
    intro c hc
    rwa [← Option.some.inj hc]
  have htail := first_seq (first_literal [ch] (m' ++ rest)) (hb beyond ([ch].reverse ++ (m.reverse ++ before)) rest hrest)
  have hall := first_seq (ha beyond before (ch :: (m' ++ rest)) hstop) htail
  simpa using hall

structure FieldText where
  name : Text
  pattern : Regex
  text : Text

/-- Each of the fields is read up to the separator that follows it. -/
theorem first_separated {p : Char → Bool} {separator : Text} (hsep : ∃ ch ∈ separator.head?, p ch = false)
    {fields : List FieldText} (hfields : fields ≠ []) (hreads : ∀ f ∈ fields, Reads p f.pattern f.text)
    {beyond before rest : Text} (hrest : ∀ ch ∈ rest.head?, p ch = false) :
    first beyond (separated separator (fields.map fun f => (f.name, f.pattern))) before
      (separator.intercalate (fields.map (·.text)) ++ rest) =
        some ⟨separator.intercalate (fields.map (·.text)), rest, fields.map fun f => (f.name, f.text)⟩ := by
  induction fields generalizing before with
  | nil => exact absurd rfl hfields
  | cons f fields ih =>
    have hf := hreads f List.mem_cons_self
    cases fields with
    | nil =>
      have hfirst := first_group f.name (hf beyond before rest hrest)
      simpa [separated] using hfirst
    | cons g fields =>
      obtain ⟨ch, hch, hstop⟩ := hsep
      have hnext : ∀ c ∈ (separator ++ (separator.intercalate ((g :: fields).map (·.text)) ++ rest)).head?,
          p c = false := by
        intro c hc
        rw [List.head?_append, Option.mem_def.mp hch, Option.some_or] at hc
        rwa [← Option.some.inj hc]
      have hhead := first_group f.name (hf beyond before _ hnext)
      have htail := @ih (List.cons_ne_nil _ _) (fun f' hf' => hreads f' (List.mem_cons_of_mem _ hf'))
        (separator.reverse ++ (f.text.reverse ++ before))
      have hboth := first_seq hhead (first_seq (first_literal separator _) htail)
      simpa [separated, List.intercalate_cons_cons] using hboth

end fields
end Regex
end Srvlog.Library
