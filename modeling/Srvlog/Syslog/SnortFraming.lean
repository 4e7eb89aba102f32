import Srvlog.Syslog.SnortRecord

/-! Where the text of an alert has the form of an IP header. -/
namespace Srvlog.Syslog
open Library Data

section form

def IsHeader (m : Text) : Prop := Regex.Matches [] (.separated [' '] ipHeaderFields) [] m []

def framed (m : Text) : Text := "|| ".toList ++ (m ++ " ||".toList)

def isHeaderChar (ch : Char) : Bool := ch.isDigit || decide (ch ∈ ['.', ' '])

theorem within_ipHeaderFields : Regex.Within isHeaderChar (.separated [' '] ipHeaderFields) := by
  have hdigits (ch : Char) (h : ch.isDigit = true) : isHeaderChar ch = true := by rw [isHeaderChar, h, Bool.true_or]
  have hdot : ∀ ch ∈ ['.'], isHeaderChar ch = true := by decide
  have haddress : Regex.Within isHeaderChar dottedAddress := ⟨hdigits, hdot, hdigits, hdot, hdigits, hdot, hdigits⟩
  refine Regex.within_separated (by decide) ?_
  simp only [ipHeaderFields, List.forall_mem_cons]
  exact ⟨hdigits, haddress, haddress, hdigits, hdigits, hdigits, hdigits, hdigits, hdigits, hdigits, hdigits, hdigits,
    fun _ h => absurd h List.not_mem_nil⟩

theorem IsHeader.not_mem {m : Text} (hm : IsHeader m) {ch : Char} (hch : isHeaderChar ch = false) : ch ∉ m := by
  intro hmem
  have htrue := (hm.within within_ipHeaderFields).1 ch hmem
  rw [hch] at htrue
  cases htrue

theorem IsHeader.not_mem_framed {m : Text} (hm : IsHeader m) {ch : Char} (hch : isHeaderChar ch = false)
    (hbar : ch ≠ '|') : ch ∉ framed m := by
  have hblank : ch ≠ ' ' := by
    rintro rfl
    cases hch
  simp [framed, hbar, hblank, hm.not_mem hch]

theorem matches_ipHeader_iff {beyond before m rest : Text} : Regex.Matches beyond IP_HEADER_REGEX before m rest ↔
    "|| ".toList.reverse <+: before ∧ IsHeader m ∧ " ||".toList <+: rest ++ beyond := by
  constructor
  · rintro ⟨_, _, rfl, ⟨rfl, hbefore⟩, m, _, rfl, hm, rfl, hrest⟩
    rw [List.append_nil, List.nil_append]
    exact ⟨hbefore, (hm.within within_ipHeaderFields).2 _ _ _, hrest⟩
  · rintro ⟨hbefore, hm, hrest⟩
    exact ⟨[], m, rfl, ⟨rfl, hbefore⟩, m, [], (List.append_nil m).symm,
      (hm.within within_ipHeaderFields).2 _ _ _, rfl, hrest⟩

/-- A match stands between two separators. -/
theorem exists_framed {s m t : Text} (h : Regex.Matches [] IP_HEADER_REGEX s.reverse m t) :
    IsHeader m ∧ ∃ before after, s = before ++ "|| ".toList ∧ before ++ (framed m ++ after) = s ++ (m ++ t) := by
  obtain ⟨hbefore, hm, hrest⟩ := matches_ipHeader_iff.mp h
  obtain ⟨before, rfl⟩ := List.reverse_prefix.mp hbefore
  rw [List.append_nil] at hrest
  obtain ⟨after, rfl⟩ := hrest
  refine ⟨hm, before, after, rfl, ?_⟩
  simp only [framed, List.append_assoc]

theorem isContainsIpHeader_eq_false_iff {text : Text} :
    isContainsIpHeader text = false ↔ ∀ m, IsHeader m → ¬ framed m <:+: text := by
  rw [isContainsIpHeader, Regex.not_occursIn_iff]
  constructor
  · rintro h m hm ⟨s, t, rfl⟩
    refine h (s ++ "|| ".toList) m (" ||".toList ++ t) ?_ (matches_ipHeader_iff.mpr ⟨?_, hm, ?_⟩)
    · simp only [framed, List.append_assoc]
    · exact List.reverse_prefix.mpr (List.suffix_append _ _)
    · rw [List.append_nil]
      exact List.prefix_append _ _
  · rintro h s m t rfl hmatch
    obtain ⟨hm, before, after, -, htext⟩ := exists_framed hmatch
    refine h m hm ⟨before, after, ?_⟩
    rw [List.append_assoc, htext]

end form

section places
variable {m : Text}

theorem count_framed (hm : '|' ∉ m) : (framed m).count '|' = 4 := by
  have hzero : m.count '|' = 0 := List.count_eq_zero.mpr hm
  rw [framed, List.count_append, List.count_append, hzero]
  rfl

/-- Two bars end what stands in front of them. -/
theorem eq_of_framed_start (hm : '|' ∉ m) {s rest : Text} (hs : '|' ∉ s)
    (h : framed m <+: "|| ".toList ++ (s ++ (" ||".toList ++ rest))) : m = s := by
  obtain ⟨u, hu⟩ := h
  have hafter : m ++ (' ' :: '|' :: ('|' :: u)) = s ++ (' ' :: '|' :: ('|' :: rest)) := by
    simpa [framed] using hu
  have hupTo {t : Text} (ht : '|' ∉ t) (v : Text) :
      (t ++ (' ' :: '|' :: v)).takeWhile (fun ch => decide (ch ≠ '|')) = t ++ [' '] := by
    have hplain : ∀ ch ∈ t, decide (ch ≠ '|') = true := by
      intro ch hch
      refine decide_eq_true ?_
      rintro rfl
      exact ht hch
    rw [List.takeWhile_append_of_pos hplain]
    rfl
  have htake := congrArg (List.takeWhile fun ch => decide (ch ≠ '|')) hafter
  rw [hupTo hm, hupTo hs] at htake
  exact List.append_cancel_right htake

/-- What begins in front of two bars ends there at the latest. -/
theorem framed_prefix_bars (hm : '|' ∉ m) {t rest : Text} (ht : t ≠ []) (h : framed m <+: t ++ ("||".toList ++ rest)) :
    framed m <+: t ++ "||".toList := by
  have hbars : t ++ "||".toList <+: t ++ ("||".toList ++ rest) :=
    (List.prefix_append_right_inj t).mpr (List.prefix_append _ _)
  rcases Nat.le_total (framed m).length (t ++ "||".toList).length with hle | hle
  · exact List.prefix_of_prefix_length_le h hbars hle
  obtain ⟨u, hu⟩ := List.prefix_of_prefix_length_le hbars h hle
  rcases List.eq_nil_or_concat u with rfl | ⟨u, z, rfl⟩
  · rw [List.append_nil] at hu
    exact ⟨[], by rw [List.append_nil, hu]⟩
  -- more than four bars, or a bar in place of the blank behind the first two
  exfalso
  obtain ⟨x, t, rfl⟩ := List.exists_cons_of_ne_nil ht
  have hall : x :: (t ++ ('|' :: '|' :: (u ++ [z]))) = '|' :: '|' :: ' ' :: (m ++ [' ', '|', '|']) := by
    simpa [framed] using hu
  obtain ⟨-, htail⟩ := List.cons.inj hall
  cases t with
  | nil => cases (List.cons.inj (List.cons.inj htail).2).1
  | cons y t =>
    have hrest : (t ++ ('|' :: '|' :: u)) ++ [z] = (' ' :: (m ++ [' ', '|'])) ++ ['|'] := by
      simpa using (List.cons.inj htail).2
    have hcount := congrArg (List.count '|') (List.append_inj' hrest rfl).1
    have hzero : m.count '|' = 0 := List.count_eq_zero.mpr hm
    simp [hzero] at hcount
    omega

/-- The sections with bars on both sides, up to the last one. -/
def tokens (sections : List Text) (last : Text) : Text :=
  sections.foldr (fun t text => "||".toList ++ (' ' :: (t ++ [' ']) ++ text)) ("|| ".toList ++ (last ++ ['|']))

theorem tokens_cons (t : Text) (sections : List Text) (last : Text) :
    tokens (t :: sections) last = "||".toList ++ (' ' :: (t ++ [' ']) ++ tokens sections last) := by
  simp only [tokens, List.foldr_cons]

theorem exists_tokens (sections : List Text) (last : Text) : ∃ rest, tokens sections last = "||".toList ++ rest := by
  cases sections with
  | nil => exact ⟨' ' :: (last ++ ['|']), rfl⟩
  | cons t sections => exact ⟨_, rfl⟩

theorem mem_of_framed_infix_tokens (hm : '|' ∉ m) {sections : List Text} {last : Text} (hs : ∀ t ∈ sections, '|' ∉ t)
    (hlast : '|' ∉ last) (h : framed m <:+: tokens sections last) : m ∈ sections := by
  induction sections with
  | nil =>
    have hcount := h.sublist.count_le '|'
    have hzero : last.count '|' = 0 := List.count_eq_zero.mpr hlast
    rw [count_framed hm] at hcount
    simp [tokens, hzero] at hcount
  | cons t sections ih =>
    obtain ⟨ht, hs⟩ := List.forall_mem_cons.mp hs
    obtain ⟨rest, hrest⟩ := exists_tokens sections last
    have hcons : tokens (t :: sections) last = '|' :: '|' :: ((' ' :: (t ++ [' '])) ++ tokens sections last) := rfl
    rw [hcons] at h
    rcases List.infix_cons_iff.mp h with h | h
    · refine List.mem_cons.mpr (.inl (@eq_of_framed_start _ hm _ rest ht ?_))
      rw [hrest] at h
      simpa using h
    rcases List.infix_cons_iff.mp h with h | h
    · cases (List.cons_prefix_cons.mp (List.cons_prefix_cons.mp h).2).1
    · have hblanks : '|' ∉ ' ' :: (t ++ [' ']) := by simpa using ht
      exact List.mem_cons_of_mem _ (ih hs (infix_of_head? rfl hblanks h))

end places
section characters

/-- The characters of everything but the texts that the record brings along. -/
def isRecordChar (ch : Char) : Bool := isHeaderChar ch || decide (ch ∈ ['-', ':', 'A', 'B', 'C', 'D', 'E', 'F'])

def RecordText (t : Text) : Prop := ∀ ch ∈ t, isRecordChar ch = true

theorem isRecordChar_of_isDigit {ch : Char} (h : ch.isDigit = true) : isRecordChar ch = true := by
  rw [isRecordChar, isHeaderChar, h]
  rfl

theorem RecordText.append {s t : Text} (hs : RecordText s) (ht : RecordText t) : RecordText (s ++ t) :=
  List.forall_mem_append.mpr ⟨hs, ht⟩

theorem RecordText.cons {ch : Char} {t : Text} (hch : isRecordChar ch = true) (ht : RecordText t) :
    RecordText (ch :: t) := List.forall_mem_cons.mpr ⟨hch, ht⟩

theorem RecordText.singleLine {t : Text} (h : RecordText t) : SingleLine t := by
  intro ch hch
  by_contra hsep
  have hmem : ch ∈ ['\n', '\r', '\u0085', '\u2028', '\u2029'] :=
    of_decide_eq_true (Bool.of_not_eq_false hsep)
  have hfalse : ∀ c ∈ ['\n', '\r', '\u0085', '\u2028', '\u2029'], isRecordChar c = false := by decide
  have htrue := h ch hch
  rw [hfalse ch hmem] at htrue
  cases htrue

theorem RecordText.bar {t : Text} (h : RecordText t) : '|' ∉ t := fun hmem => absurd (h _ hmem) (by decide)

theorem recordText_decimal (n : Nat) : RecordText (decimal n) :=
  fun _ h => isRecordChar_of_isDigit (isDigit_of_mem_decimal h)

theorem recordText_numbers (numbers : List Nat) : RecordText (numbersText numbers) := by
  refine forall_mem_intercalate (by decide) ?_
  rw [List.forall_mem_map]
  exact fun n _ => recordText_decimal n

theorem recordText_address (address : Address) : RecordText address.text :=
  (recordText_decimal _).append (.cons rfl ((recordText_decimal _).append (.cons rfl
    ((recordText_decimal _).append (.cons rfl (recordText_decimal _))))))

theorem recordText_header (p : Packet) : RecordText p.headerText := by
  refine forall_mem_intercalate (by decide) ?_
  simp only [List.forall_mem_cons, List.not_mem_nil, false_implies, implies_true, and_true]
  exact ⟨recordText_decimal _, recordText_address _, recordText_address _, recordText_decimal _, recordText_decimal _,
    recordText_decimal _, recordText_decimal _, recordText_decimal _, recordText_decimal _, recordText_decimal _,
    recordText_decimal _, recordText_decimal _⟩

theorem recordText_transport (transport : Transport) : ∀ t ∈ transport.sections, RecordText t := by
  intro t ht
  cases transport with
  | tcp => exact List.mem_singleton.mp ht ▸ recordText_numbers _
  | udp => exact List.mem_singleton.mp ht ▸ recordText_numbers _
  | icmp => exact List.mem_singleton.mp ht ▸ recordText_numbers _
  | other => exact absurd ht List.not_mem_nil

theorem exists_of_mem_hexText {payload : List (Fin 256)} {ch : Char} (hch : ch ∈ hexText payload) :
    ∃ n : Fin 16, ch = hexDigit n := by
  obtain ⟨b, -, hb⟩ := List.mem_flatMap.mp hch
  rcases List.mem_pair.mp hb with hb | hb
  · exact ⟨⟨b.val / 16, Nat.div_lt_of_lt_mul b.isLt⟩, hb⟩
  · exact ⟨⟨b.val % 16, Nat.mod_lt _ (by decide)⟩, hb⟩

theorem recordText_hex (payload : List (Fin 256)) : RecordText (hexText payload) := by
  have hdigit (n : Fin 16) : isRecordChar (hexDigit n) = true := by
    revert n
    decide
  intro ch hch
  obtain ⟨n, rfl⟩ := exists_of_mem_hexText hch
  exact hdigit n

theorem recordText_timestamp (t : Timestamp) : RecordText t.text := by
  have hpadded (width n : Nat) : RecordText (padded width n) :=
    fun _ h => isRecordChar_of_isDigit (isDigit_of_mem_padded h)
  exact (hpadded _ _).append (.cons rfl ((hpadded _ _).append (.cons rfl ((hpadded _ _).append (.cons rfl
    ((hpadded _ _).append (.cons rfl ((hpadded _ _).append (.cons rfl ((hpadded _ _).append
      (.cons rfl (hpadded _ _))))))))))))

end characters

namespace SnortRecord
variable (r : SnortRecord)

def packetSections : List Text := r.packet.elim [] fun p => p.headerText :: p.transport.sections

def payloadSection : Text := decimal r.payloadLength ++ ' ' :: hexText r.payload

def alertSection : Text := r.timestamp.text ++ ' ' :: (decimal r.priority ++ ' ' :: r.classification)

theorem intercalate_tokens (t : Text) (sections : List Text) (last : Text) :
    " || ".toList.intercalate (t :: (sections ++ [last])) ++ ['|'] = t ++ ' ' :: tokens sections last := by
  induction sections generalizing t with
  | nil =>
    rw [List.nil_append, List.intercalate_cons_cons, List.intercalate_singleton]
    simp [tokens]
  | cons next sections ih =>
    rw [List.cons_append, List.intercalate_cons_cons, List.append_assoc, ih]
    simp [tokens]

theorem sections_eq :
    r.sections = r.alertSection :: ((r.alertCause :: r.packetSections) ++ [r.payloadSection]) := by
  rw [sections, List.append_assoc]
  rfl

theorem render_eq : r.render = "| [SNORTIDS[LOG]: [".toList ++ (r.sensorName ++ ("] ] || ".toList ++
    (r.alertSection ++ ' ' :: tokens (r.alertCause :: r.packetSections) r.payloadSection))) := by
  have htokens : " || ".toList.intercalate r.sections ++ ['|'] =
      r.alertSection ++ ' ' :: tokens (r.alertCause :: r.packetSections) r.payloadSection := by
    simp only [sections_eq]
    exact intercalate_tokens r.alertSection (r.alertCause :: r.packetSections) r.payloadSection
  unfold render
  simp only [htokens]

theorem recordText_payloadSection : RecordText r.payloadSection :=
  (recordText_decimal _).append (.cons rfl (recordText_hex _))

theorem recordText_packetSections : ∀ t ∈ r.packetSections, RecordText t := by
  unfold packetSections
  cases r.packet with
  | none => exact fun _ h => absurd h List.not_mem_nil
  | some p => exact List.forall_mem_cons.mpr ⟨recordText_header p, recordText_transport _⟩

theorem sections_bar : ∀ t ∈ r.alertCause :: r.packetSections, '|' ∉ t :=
  List.forall_mem_cons.mpr ⟨r.alertCause_bar, fun t ht => (r.recordText_packetSections t ht).bar⟩

theorem alertSection_bar : '|' ∉ r.alertSection := by
  have htimestamp := (recordText_timestamp r.timestamp).bar
  have hpriority := (recordText_decimal r.priority).bar
  simp [alertSection, htimestamp, hpriority, r.classification_bar]

/-- The form of an IP header is only in the sensor name, the cause and the sections of the packet. -/
theorem framed_infix_render {m : Text} (hm : IsHeader m) (h : framed m <:+: r.render) :
    framed m <:+: r.sensorName ∨ m = r.alertCause ∨ m ∈ r.packetSections := by
  have hbar : '|' ∉ m := hm.not_mem rfl
  have hclose : ']' ∉ framed m := hm.not_mem_framed rfl (by decide)
  have hfew {t : Text} (ht : t.count '|' < 4) : ¬ framed m <:+: t := by
    intro hin
    have hcount := hin.sublist.count_le '|'
    rw [count_framed hbar] at hcount
    exact absurd hcount (Nat.not_le.mpr ht)
  -- only a part of the date is in front of the dash
  obtain ⟨rest, hrest⟩ : ∃ rest, r.alertSection = padded 4 r.timestamp.year ++ '-' :: rest :=
    ⟨_, by rw [alertSection, Timestamp.text, List.append_assoc, List.cons_append]⟩
  obtain ⟨hyear, hfront⟩ : '|' ∉ padded 4 r.timestamp.year ∧ '|' ∉ rest ++ [' '] := by
    simpa [hrest] using r.alertSection_bar
  have hparts : r.render = "| [SNORTIDS[LOG]: ".toList ++ '[' :: (r.sensorName ++ ']' :: ([' '] ++ ']' ::
      ((" || ".toList ++ padded 4 r.timestamp.year) ++ '-' :: ((rest ++ [' ']) ++
        tokens (r.alertCause :: r.packetSections) r.payloadSection)))) := by
    rw [render_eq, hrest]
    simp
  have hdate : (" || ".toList ++ padded 4 r.timestamp.year).count '|' < 4 := by
    rw [List.count_append, List.count_eq_zero.mpr hyear]
    decide
  rw [hparts] at h
  rcases infix_of_not_mem (hm.not_mem_framed rfl (by decide)) h with h | h
  · exact absurd h (hfew (by decide))
  rcases infix_of_not_mem hclose h with h | h
  · exact .inl h
  rcases infix_of_not_mem hclose h with h | h
  · exact absurd h (hfew (by decide))
  rcases infix_of_not_mem (hm.not_mem_framed rfl (by decide)) h with h | h
  · exact absurd h (hfew hdate)
  exact .inr (List.mem_cons.mp (mem_of_framed_infix_tokens hbar r.sections_bar r.recordText_payloadSection.bar
    (infix_of_head? rfl hfront h)))

/-- Everything in front of the bars behind the cause. -/
def front : Text := "| [SNORTIDS[LOG]: [".toList ++ (r.sensorName ++ ("] ] || ".toList ++
  (r.alertSection ++ ' ' :: ("||".toList ++ (' ' :: (r.alertCause ++ [' ']))))))

theorem render_front : r.render = r.front ++ tokens r.packetSections r.payloadSection := by
  rw [render_eq, tokens_cons]
  unfold front
  simp only [List.append_assoc, List.cons_append, List.nil_append]

section places
variable {r} (h : isContainsIpHeader r.sensorName = false) {m : Text} (hm : IsHeader m)
include h hm

theorem mem_packetSections_of_framed (hin : framed m <:+: r.render) : m ∈ r.packetSections := by
  rcases r.framed_infix_render hm hin with hsensor | hcause | hsection
  · exact absurd hsensor (isContainsIpHeader_eq_false_iff.mp h m hm)
  · have hno := isContainsIpHeader_eq_false_iff.mp r.alertCause_no_header m hm
    rw [hcause, framed, ← List.append_assoc] at hno
    exact absurd List.infix_rfl hno
  · exact hsection

/-- As in the alert without its packet. -/
theorem not_framed_infix_front : ¬ framed m <:+: r.front ++ "||".toList := by
  intro hin
  let alert : SnortRecord := { r with packet := none }
  obtain ⟨rest, hrest⟩ := exists_tokens alert.packetSections alert.payloadSection
  have hstarts : r.front ++ "||".toList <+: alert.render := by
    rw [alert.render_front, hrest, ← List.append_assoc]
    exact List.prefix_append _ _
  exact absurd (mem_packetSections_of_framed (r := alert) h hm (hin.trans hstarts.isInfix)) List.not_mem_nil

end places

theorem isContainsIpHeader_render (h : isContainsIpHeader r.sensorName = false) (hnone : r.packet = none) :
    isContainsIpHeader r.render = false := by
  refine isContainsIpHeader_eq_false_iff.mpr fun m hm hin => ?_
  have hmem := mem_packetSections_of_framed h hm hin
  rw [packetSections, hnone] at hmem
  exact absurd hmem List.not_mem_nil

/-- No match begins in front of the section behind the cause. -/
theorem first_header_eq_none (h : isContainsIpHeader r.sensorName = false) {s t text : Text}
    (hst : r.front ++ "|| ".toList = s ++ t) (ht : t ≠ []) :
    IP_HEADER_REGEX.first [] s.reverse (t ++ text) = none := by
  rw [Regex.first_eq_none_iff]
  intro m after htext hmatch
  obtain ⟨hm, before, after', rfl, heq⟩ := exists_framed hmatch
  have hlength : before.length < r.front.length := by
    have hlen := congrArg List.length hst
    have hpos := List.length_pos_iff.mpr ht
    simp only [List.length_append] at hlen
    omega
  have hall : before ++ (framed m ++ after') = r.front ++ ("||".toList ++ (' ' :: text)) := by
    rw [heq, ← htext, ← List.append_assoc, ← hst, List.append_assoc]
    rfl
  obtain ⟨t', hfront⟩ : before <+: r.front :=
    List.prefix_of_prefix_length_le ⟨_, hall⟩ (List.prefix_append _ _) hlength.le
  have ht' : t' ≠ [] := by
    rintro rfl
    rw [← hfront, List.append_nil] at hlength
    exact lt_irrefl _ hlength
  rw [← hfront, List.append_assoc] at hall
  have hbars := framed_prefix_bars (hm.not_mem rfl) ht' ⟨after', List.append_cancel_left hall⟩
  refine not_framed_infix_front h hm ?_
  rw [← hfront, List.append_assoc]
  exact List.infix_append_of_infix_right hbars.isInfix

end SnortRecord
end Srvlog.Syslog
