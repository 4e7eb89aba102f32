import Srvlog.Syslog.SyslogAdapter

/-! The tag in front of a message of rfc3164: which texts are read as a program, and what
becomes of the message. -/
namespace Srvlog.Syslog
open Library Data Collector

section branches

theorem utf16Length_append (s t : Text) : utf16Length (s ++ t) = utf16Length s + utf16Length t := by
  rw [utf16Length, List.map_append, List.sum_append]
  rfl

theorem length_le_utf16Length (t : Text) : t.length ≤ utf16Length t := by
  induction t with
  | nil => exact Nat.le_refl 0
  | cons ch t ih =>
    rw [List.length_cons, utf16Length, List.map_cons, List.sum_cons]
    change t.length + 1 ≤ _ + utf16Length t
    split <;> omega

theorem indexOf_of_not_mem {ch : Char} {t : Text} (h : ch ∉ t) : indexOf ch t = -1 := if_neg h

theorem decide_ne_of_not_mem {ch : Char} {front : Text} (h : ch ∉ front) : ∀ c ∈ front, decide (c ≠ ch) = true :=
  fun _ hc => decide_eq_true fun heq => h (heq ▸ hc)

theorem takeWhile_append_cons {ch : Char} {front : Text} (h : ch ∉ front) (rest : Text) :
    (front ++ ch :: rest).takeWhile (fun c => decide (c ≠ ch)) = front := by
  rw [List.takeWhile_append_of_pos (decide_ne_of_not_mem h), List.takeWhile_cons_of_neg (by simp), List.append_nil]

theorem dropWhile_append_cons {ch : Char} {front : Text} (h : ch ∉ front) (rest : Text) :
    (front ++ ch :: rest).dropWhile (fun c => decide (c ≠ ch)) = ch :: rest := by
  rw [List.dropWhile_append_of_pos (decide_ne_of_not_mem h), List.dropWhile_cons_of_neg (by simp)]

theorem indexOf_append_cons {ch : Char} {front : Text} (h : ch ∉ front) (rest : Text) :
    indexOf ch (front ++ ch :: rest) = utf16Length front := by
  rw [indexOf, if_pos (List.mem_append_right _ List.mem_cons_self), takeWhile_append_cons h]

/-- Behind a text without it, and another character, a character comes later. -/
theorem lt_indexOf {ch other : Char} {front rest : Text} (h : ch ∉ front) (hne : ch ≠ other) (hmem : ch ∈ rest) :
    (utf16Length front : Int) < indexOf ch (front ++ other :: rest) := by
  have hin : ch ∈ front ++ other :: rest := List.mem_append_right _ (List.mem_cons_of_mem _ hmem)
  have hother : decide (other ≠ ch) = true := decide_eq_true (Ne.symm hne)
  have hlong := length_le_utf16Length (other :: rest.takeWhile fun c => decide (c ≠ ch))
  rw [List.length_cons] at hlong
  rw [indexOf, if_pos hin, List.takeWhile_append_of_pos (decide_ne_of_not_mem h),
    List.takeWhile_cons_of_pos (p := fun c => decide (c ≠ ch)) hother, utf16Length_append]
  omega

/-- The character that ends the tag, with the text in front of it and behind it. -/
structure EndsTag (front : Text) (ch : Char) (rest : Text) : Prop where
  no_bracket : '[' ∉ front
  no_colon : ':' ∉ front
  ends : ch = '[' ∨ ch = ':' ∧ (2 ≤ utf16Length front ∨ '[' ∈ rest)

theorem EndsTag.not_mem {front rest : Text} {ch : Char} (h : EndsTag front ch rest) : ch ∉ front := by
  rcases h.ends with rfl | ⟨rfl, -⟩
  · exact h.no_bracket
  · exact h.no_colon

theorem parseTag_of_endsTag {front rest : Text} {ch : Char} (h : EndsTag front ch rest) :
    parseTag (front ++ ch :: rest) = parseProgramField (front ++ ch :: rest) ch := by
  rw [parseTag]
  rcases h.ends with rfl | ⟨rfl, hcolon⟩
  · -- the colon, if there is one, comes behind the bracket
    have hcolon : ¬ (indexOf ':' (front ++ '[' :: rest) > -1 ∧
        indexOf ':' (front ++ '[' :: rest) < utf16Length front) := by
      by_cases hmem : ':' ∈ rest
      · have hlt := @lt_indexOf ':' '[' front rest h.no_colon (by decide) hmem
        omega
      · have hnone : ':' ∉ front ++ '[' :: rest := by simp [h.no_colon, hmem]
        rw [indexOf_of_not_mem hnone]
        omega
    rw [indexOf_append_cons h.no_bracket, if_neg (by omega), if_neg hcolon, if_pos (by omega)]
  · rw [indexOf_append_cons h.no_colon]
    by_cases hmem : '[' ∈ rest
    · have hlt := @lt_indexOf '[' ':' front rest h.no_bracket (by decide) hmem
      rw [if_neg (by omega), if_pos ⟨by omega, hlt⟩]
    · have hlong := hcolon.resolve_right hmem
      have hnone : '[' ∉ front ++ ':' :: rest := by simp [h.no_bracket, hmem]
      rw [indexOf_of_not_mem hnone, if_pos ⟨rfl, by omega⟩]

theorem parseTag_of_no_tag {message : Text} (hbracket : '[' ∉ message) (hcolon : indexOf ':' message ≤ 1) :
    parseTag message = if ' ' ∈ message then .ok (none, (message.dropWhile fun c => decide (c ≠ ' ')).tail)
      else .ok (none, message) := by
  rw [parseTag, indexOf_of_not_mem hbracket, if_neg (by omega), if_neg (by omega), if_neg (by omega)]

/-- A text up to the first character of a kind. -/
theorem exists_first {p : Char → Prop} [DecidablePred p] {t : Text} (h : ∃ ch ∈ t, p ch) :
    ∃ front ch rest, t = front ++ ch :: rest ∧ p ch ∧ ∀ c ∈ front, ¬ p c := by
  induction t with
  | nil =>
    obtain ⟨ch, hch, -⟩ := h
    cases hch
  | cons c t ih =>
    by_cases hc : p c
    · exact ⟨[], c, t, rfl, hc, fun _ hmem => absurd hmem List.not_mem_nil⟩
    · obtain ⟨front, ch, rest, rfl, hch, hfront⟩ := ih (by simpa [hc] using h)
      refine ⟨c :: front, ch, rest, rfl, hch, fun d hd => ?_⟩
      rcases List.mem_cons.mp hd with rfl | hd
      · exact hc
      · exact hfront d hd

theorem endsTag_or_no_tag (message : Text) :
    (∃ front ch rest, message = front ++ ch :: rest ∧ EndsTag front ch rest) ∨
      '[' ∉ message ∧ indexOf ':' message ≤ 1 := by
  by_cases hex : ∃ ch ∈ message, ch = '[' ∨ ch = ':'
  · obtain ⟨front, ch, rest, rfl, hch, hfront⟩ := exists_first hex
    have hbracket : '[' ∉ front := fun hmem => hfront _ hmem (Or.inl rfl)
    have hcolon : ':' ∉ front := fun hmem => hfront _ hmem (Or.inr rfl)
    rcases hch with rfl | rfl
    · exact Or.inl ⟨front, '[', rest, rfl, hbracket, hcolon, Or.inl rfl⟩
    · by_cases hends : 2 ≤ utf16Length front ∨ '[' ∈ rest
      · exact Or.inl ⟨front, ':', rest, rfl, hbracket, hcolon, Or.inr ⟨rfl, hends⟩⟩
      · rw [not_or] at hends
        rw [indexOf_append_cons hcolon]
        exact Or.inr ⟨by simp [hbracket, hends.2], by omega⟩
  · have hbracket : '[' ∉ message := fun hmem => hex ⟨_, hmem, Or.inl rfl⟩
    have hcolon : ':' ∉ message := fun hmem => hex ⟨_, hmem, Or.inr rfl⟩
    exact Or.inr ⟨hbracket, by rw [indexOf_of_not_mem hcolon]; omega⟩

/-- The last of at most two words in front of the terminator is the program. -/
theorem parseProgramField_append_cons {front rest : Text} {ch : Char} (h : ch ∉ front) :
    parseProgramField (front ++ ch :: rest) ch =
      if (splitAtChar ' ' front).length ≤ 2 ∧ utf16Length front ≤ 32 then
        match (splitAtChar ' ' front).getLast? with
        | none => .error .arrayIndexOutOfBoundsException
        | some tag => .ok (some tag, ch :: rest)
      else .ok (none, front ++ ch :: rest) := by
  rw [parseProgramField, takeWhile_append_cons h, dropWhile_append_cons h]
  split
  · next hshort =>
    match hsplit : splitAtChar ' ' front, hshort.1 with
    | [], _ => rfl
    | [tag], _ => rfl
    | [host, tag], _ => rfl
  · rfl

end branches

section messages

/-- The non-empty words of a text. -/
def nonEmptyWords (t : Text) : List Text := (t.splitOn ' ').filter fun word => decide (word ≠ [])

theorem nonEmptyWords_eq (t : Text) : nonEmptyWords t = (splitAtChar ' ' t).filter fun word => decide (word ≠ []) :=
  (filter_splitAtChar ' ' t).symm

theorem getLast_nonEmptyWords {t last : Text} (ht : t ≠ []) (h : (splitAtChar ' ' t).getLast? = some last) :
    (nonEmptyWords t).getLast? = some last := by
  have hlast := getLast_splitAtChar_ne_nil ht h
  obtain ⟨words, hwords⟩ := List.getLast?_eq_some_iff.mp h
  rw [nonEmptyWords_eq, hwords, List.filter_append, List.filter_singleton, decide_eq_true hlast]
  exact List.getLast?_concat

/-- What the parsing of the tag of a plain event may do to its message. -/
def LosesOnlyTag (e : SyslogServerEvent) (message : Text) : Prop :=
  ∃ log dropped rest, logOfEvent e = .ok log ∧ log.message = some rest ∧ message = dropped ++ rest ∧
    (∀ program, log.program = some program → utf16Length dropped ≤ 32 ∧ (nonEmptyWords dropped).length ≤ 2 ∧
      '[' ∉ dropped ∧ ':' ∉ dropped ∧ (dropped = [] ∧ program = [] ∨ (nonEmptyWords dropped).getLast? = some program)) ∧
    (log.program = none → dropped = [] ∨
      (∃ front, dropped = front ++ [' '] ∧ ' ' ∉ front) ∧ '[' ∉ message ∧ indexOf ':' message ≤ 1)

/-- Nothing but blanks, up to 32, stands in front of the character that ends the tag. -/
def BlankTag (message : Text) : Prop :=
  ∃ count ch rest, message = List.replicate count ' ' ++ ch :: rest ∧ 1 ≤ count ∧ count ≤ 32 ∧
    (ch = '[' ∨ ch = ':' ∧ (2 ≤ count ∨ '[' ∈ rest))

theorem utf16Length_replicate (count : Nat) : utf16Length (List.replicate count ' ') = count := by
  rw [utf16Length, List.map_replicate, List.sum_replicate_nat]
  exact Nat.mul_one count

theorem endsTag_replicate {count : Nat} {ch : Char} {rest : Text} :
    EndsTag (List.replicate count ' ') ch rest ↔ ch = '[' ∨ ch = ':' ∧ (2 ≤ count ∨ '[' ∈ rest) := by
  constructor
  · intro h
    have hends := h.ends
    rwa [utf16Length_replicate] at hends
  · intro h
    refine ⟨fun hmem => ?_, fun hmem => ?_, by rwa [utf16Length_replicate]⟩
    · exact absurd (List.mem_replicate.mp hmem).2 (by decide)
    · exact absurd (List.mem_replicate.mp hmem).2 (by decide)

/-- For such a message the split has no field. -/
theorem parseTag_of_blankTag {message : Text} (h : BlankTag message) :
    parseTag message = .error .arrayIndexOutOfBoundsException := by
  obtain ⟨count, ch, rest, rfl, hpos, hle, hends⟩ := h
  have htag := endsTag_replicate.mpr hends
  have hnone : splitAtChar ' ' (List.replicate count ' ') = [] := by
    refine splitAtChar_eq_nil_iff.mpr ⟨?_, fun c hc => (List.mem_replicate.mp hc).2⟩
    exact List.ne_nil_of_length_pos (by rw [List.length_replicate]; exact hpos)
  rw [parseTag_of_endsTag htag, parseProgramField_append_cons htag.not_mem, hnone, utf16Length_replicate,
    if_pos ⟨Nat.zero_le 2, hle⟩]
  rfl

/-- A split without a field comes from blanks alone. -/
theorem blankTag_of_split {front rest : Text} {ch : Char} (h : EndsTag front ch rest) (hshort : utf16Length front ≤ 32)
    (hsplit : splitAtChar ' ' front = []) : BlankTag (front ++ ch :: rest) := by
  obtain ⟨hne, hblank⟩ := splitAtChar_eq_nil_iff.mp hsplit
  obtain ⟨count, rfl⟩ : ∃ count, front = List.replicate count ' ' := ⟨_, List.eq_replicate_of_mem hblank⟩
  rw [utf16Length_replicate] at hshort
  refine ⟨count, ch, rest, rfl, ?_, hshort, endsTag_replicate.mp h⟩
  have hpos := List.length_pos_iff.mpr hne
  rwa [List.length_replicate] at hpos

/-- The tag parsing loses nothing but a tag exactly on the messages that do not begin with
blanks alone in front of the character that ends the tag; on those it throws. -/
theorem losesOnlyTag_iff {e : SyslogServerEvent} {message : Text} (hkind : e.kind = .plain)
    (hmessage : e.message = some message) : LosesOnlyTag e message ↔ ¬ BlankTag message := by
  constructor
  · intro h hblank
    obtain ⟨log, -, -, hlog, -⟩ := h
    have hthrows : logOfEvent e = .error .arrayIndexOutOfBoundsException := by
      rw [logOfEvent, hkind, hmessage]
      dsimp only
      rw [parseTag_of_blankTag hblank]
      rfl
    rw [hthrows] at hlog
    cases hlog
  · intro hblank
    rcases endsTag_or_no_tag message with ⟨front, ch, rest, rfl, htag⟩ | ⟨hbracket, hcolon⟩
    · have hfield := parseTag_of_endsTag htag
      rw [parseProgramField_append_cons htag.not_mem] at hfield
      split at hfield
      · next hshort =>
        match hlast : (splitAtChar ' ' front).getLast? with
        | none => exact absurd (blankTag_of_split htag hshort.2 (List.getLast?_eq_none_iff.mp hlast)) hblank
        | some tag =>
          rw [hlast] at hfield
          refine ⟨_, front, ch :: rest, logOfEvent_of_parseTag hkind hmessage hfield, rfl, rfl, fun program hprogram => ?_,
            fun hnone => by cases hnone⟩
          obtain rfl := Option.some.inj hprogram
          refine ⟨hshort.2, ?_, htag.no_bracket, htag.no_colon, ?_⟩
          · rw [nonEmptyWords_eq]
            exact Nat.le_trans (List.length_filter_le _ _) hshort.1
          · by_cases hfront : front = []
            · rw [hfront] at hlast
              exact Or.inl ⟨hfront, (Option.some.inj hlast).symm⟩
            · exact Or.inr (getLast_nonEmptyWords hfront hlast)
      · exact ⟨_, [], _, logOfEvent_of_parseTag hkind hmessage hfield, rfl, rfl, fun _ hprogram => (by cases hprogram),
          fun _ => Or.inl rfl⟩
    · have hfield := parseTag_of_no_tag hbracket hcolon
      split at hfield
      · next hblank =>
        obtain ⟨front, ch, rest, rfl, rfl, hfront⟩ := @exists_first (· = ' ') _ message ⟨' ', hblank, rfl⟩
        have hnot : ' ' ∉ front := fun hmem => hfront _ hmem rfl
        rw [dropWhile_append_cons hnot, List.tail_cons] at hfield
        refine ⟨_, front ++ [' '], rest, logOfEvent_of_parseTag hkind hmessage hfield, rfl, by simp,
          fun _ hprogram => (by cases hprogram), fun _ => Or.inr ⟨⟨front, rfl, hnot⟩, hbracket, hcolon⟩⟩
      · exact ⟨_, [], _, logOfEvent_of_parseTag hkind hmessage hfield, rfl, rfl, fun _ hprogram => (by cases hprogram),
          fun _ => Or.inl rfl⟩

/-- An event of the local host with a message. -/
def plainEvent (message : Text) : SyslogServerEvent :=
  ⟨.plain, some 0, none, none, some ['h'], some message, message⟩

theorem tag_of_sample_lost : LosesOnlyTag (plainEvent "host tag: text".toList) "host tag: text".toList := by
  refine (losesOnlyTag_iff rfl rfl).mpr fun hblank => ?_
  obtain ⟨count, ch, rest, hmessage, hpos, -⟩ := hblank
  obtain ⟨count, rfl⟩ := Nat.exists_eq_add_of_le' hpos
  rw [List.replicate_succ] at hmessage
  exact absurd (List.cons.inj hmessage).1 (by decide)

/-- One blank in front of a bracket is split into no field at all. -/
theorem blank_in_front_throws : logOfEvent (plainEvent [' ', '[', 'x']) = .error .arrayIndexOutOfBoundsException ∧
    ¬ LosesOnlyTag (plainEvent [' ', '[', 'x']) [' ', '[', 'x'] := by
  have hthrows : logOfEvent (plainEvent [' ', '[', 'x']) = .error .arrayIndexOutOfBoundsException := rfl
  refine ⟨hthrows, fun h => ?_⟩
  obtain ⟨log, -, -, hlog, -⟩ := h
  rw [hthrows] at hlog
  cases hlog

end messages

section tags

/-- The words of a tag in front of the terminator. -/
theorem parseProgramField_of_parts {parts : List Text} {rest : Text} {ch : Char} (hlength : parts.length ≤ 2)
    (hshort : utf16Length ([' '].intercalate parts) ≤ 32) (hblank : ch ≠ ' ')
    (hparts : ∀ part ∈ parts, ' ' ∉ part ∧ ch ∉ part) {program : Text} (hlast : parts.getLast? = some program)
    (hprogram : program ≠ []) :
    parseProgramField ([' '].intercalate parts ++ ch :: rest) ch = .ok (some program, ch :: rest) := by
  have hfree : ∀ c ∈ [' '].intercalate parts, c ≠ ch := by
    apply forall_mem_intercalate
    · intro c hc
      rw [List.mem_singleton.mp hc]
      exact hblank.symm
    · exact fun part hpart c hc heq => (hparts part hpart).2 (heq ▸ hc)
  have hne : parts ≠ [] := by
    intro hnil
    rw [hnil] at hlast
    cases hlast
  have hsplit : splitAtChar ' ' ([' '].intercalate parts) = parts := by
    refine splitAtChar_intercalate hne (fun part hpart => (hparts part hpart).1) fun part hpart => ?_
    obtain rfl := Option.some.inj (hlast.symm.trans hpart)
    exact hprogram
  rw [parseProgramField_append_cons fun hmem => hfree ch hmem rfl, hsplit, if_pos ⟨hlength, hshort⟩, hlast]

/-- `[HOST ]TAG`, as rfc3164 has it in front of a message. -/
structure Tag where
  host : Option Text
  name : Text
  filled : name ≠ []
  free : ∀ word ∈ host.toList ++ [name], ' ' ∉ word ∧ '[' ∉ word ∧ ':' ∉ word
  short : utf16Length ([' '].intercalate (host.toList ++ [name])) ≤ 32

namespace Tag
variable (tag : Tag)

def text : Text := match tag.host with
  | some host => host ++ ' ' :: tag.name
  | none => tag.name

theorem text_eq : tag.text = [' '].intercalate (tag.host.toList ++ [tag.name]) := by
  rw [text]
  cases tag.host with
  | none => exact List.intercalate_singleton.symm
  | some host => simp [List.intercalate_cons_cons]

theorem not_mem_text {ch : Char} (hblank : ch ≠ ' ') (hwords : ∀ word ∈ tag.host.toList ++ [tag.name], ch ∉ word) :
    ch ∉ tag.text := by
  rw [tag.text_eq]
  intro hmem
  refine forall_mem_intercalate (q := (· ≠ ch)) (fun c hc => ?_) (fun word hword c hc heq => ?_) ch hmem rfl
  · rw [List.mem_singleton.mp hc]
    exact hblank.symm
  · exact hwords word hword (heq ▸ hc)

/-- With a host, a tag is never too short. -/
theorem two_le_length_text : 2 ≤ utf16Length tag.text ↔ tag.host ≠ none ∨ 2 ≤ utf16Length tag.name := by
  rw [text]
  cases tag.host with
  | none => simp
  | some host =>
    have hname := length_le_utf16Length tag.name
    have hpos := List.length_pos_iff.mpr tag.filled
    have hblank : utf16Length (' ' :: tag.name) = 1 + utf16Length tag.name := utf16Length_append [' '] tag.name
    refine iff_of_true ?_ (Or.inl (Option.some_ne_none host))
    rw [utf16Length_append, hblank]
    omega

theorem no_bracket : '[' ∉ tag.text := tag.not_mem_text (by decide) fun word hword => (tag.free word hword).2.1

theorem no_colon : ':' ∉ tag.text := tag.not_mem_text (by decide) fun word hword => (tag.free word hword).2.2

theorem parseTag_text {ch : Char} {rest : Text} (h : EndsTag tag.text ch rest) :
    parseTag (tag.text ++ ch :: rest) = .ok (some tag.name, ch :: rest) := by
  have hblank : ch ≠ ' ' := by rcases h.ends with rfl | ⟨rfl, -⟩ <;> decide
  have hlength : (tag.host.toList ++ [tag.name]).length ≤ 2 := by cases tag.host <;> simp
  rw [parseTag_of_endsTag h, tag.text_eq]
  refine parseProgramField_of_parts hlength tag.short hblank (fun word hword => ⟨(tag.free word hword).1, ?_⟩)
    List.getLast?_concat tag.filled
  rcases h.ends with rfl | ⟨rfl, -⟩
  · exact (tag.free word hword).2.1
  · exact (tag.free word hword).2.2

end Tag

/-- The log of the event has the program, and the rest of the message. -/
def ReadsTag (e : SyslogServerEvent) (program rest : Text) : Prop :=
  ∃ log, logOfEvent e = .ok log ∧ log.program = some program ∧ log.message = some rest

/-- A tag in front of its terminator is recognised unless it is one character alone in front
of a colon, with no bracket in the rest of the message. -/
theorem readsTag_iff (tag : Tag) {ch : Char} (hch : ch = '[' ∨ ch = ':') (rest : Text) {e : SyslogServerEvent}
    (hkind : e.kind = .plain) (hmessage : e.message = some (tag.text ++ ch :: rest)) :
    ReadsTag e tag.name (ch :: rest) ↔
      tag.host ≠ none ∨ 2 ≤ utf16Length tag.name ∨ ch = '[' ∨ '[' ∈ rest := by
  rw [← or_assoc, ← tag.two_le_length_text]
  constructor
  · intro h
    by_contra hnot
    rw [not_or, not_or] at hnot
    obtain ⟨hlength, hcolonEnds, hrest⟩ := hnot
    obtain rfl := hch.resolve_left hcolonEnds
    have hnone : '[' ∉ tag.text ++ ':' :: rest := by simp [tag.no_bracket, hrest]
    have hfield := parseTag_of_no_tag hnone (by rw [indexOf_append_cons tag.no_colon]; omega)
    obtain ⟨log, hlog, hprogram, -⟩ := h
    split at hfield
    all_goals
      rw [logOfEvent_of_parseTag hkind hmessage hfield] at hlog
      obtain rfl := Except.ok.inj hlog
      cases hprogram
  · intro h
    have htag : EndsTag tag.text ch rest := by
      refine ⟨tag.no_bracket, tag.no_colon, ?_⟩
      rcases hch with rfl | rfl
      · exact Or.inl rfl
      · exact Or.inr ⟨rfl, h.imp_right fun h => h.resolve_left (by decide)⟩
    exact ⟨_, logOfEvent_of_parseTag hkind hmessage (tag.parseTag_text htag), rfl, rfl⟩

/-- A tag without a host. -/
def sampleTag (name : Text) (filled : name ≠ []) (free : ' ' ∉ name ∧ '[' ∉ name ∧ ':' ∉ name)
    (short : utf16Length name ≤ 32) : Tag :=
  ⟨none, name, filled, List.forall_mem_singleton.mpr free,
    by rwa [Option.toList_none, List.nil_append, List.intercalate_singleton]⟩

theorem long_tag_read : ReadsTag (plainEvent ['s', 'u', ':', ' ', 'x']) ['s', 'u'] [':', ' ', 'x'] :=
  (readsTag_iff (sampleTag ['s', 'u'] (by decide) (by decide) (by decide)) (Or.inr rfl) [' ', 'x'] rfl rfl).mpr
    (Or.inr (Or.inl (by decide)))

/-- The colon behind one character is taken for none: the tag is dropped and no program is set. -/
theorem short_tag_dropped : logOfEvent (plainEvent ['a', ':', ' ', 'x']) = .ok {
      date := some 0, facility := some 16, severity := some 6, host := some ['h'], program := none,
      message := some ['x'], id := none, hash := none } ∧
    ¬ ReadsTag (plainEvent ['a', ':', ' ', 'x']) ['a'] [':', ' ', 'x'] := by
  have hlog : logOfEvent (plainEvent ['a', ':', ' ', 'x']) = .ok {
      date := some 0, facility := some 16, severity := some 6, host := some ['h'], program := none,
      message := some ['x'], id := none, hash := none } := rfl
  refine ⟨hlog, fun h => ?_⟩
  obtain ⟨log, hread, hprogram, -⟩ := h
  rw [hlog] at hread
  obtain rfl := Except.ok.inj hread
  cases hprogram

end tags
end Srvlog.Syslog
