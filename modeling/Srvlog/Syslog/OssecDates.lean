import Srvlog.Library.WallClock
import Srvlog.Syslog.OssecSnortMessage
import Srvlog.Syslog.SnortFraming

/-! The instant that an alert of ossec gets from its date, which has no year. -/
namespace Srvlog.Syslog
open Library Data

section pattern

theorem unique_ossecDateRegex : ossecDateRegex.Unique := by
  have hdigit (ch : Char) (h : ch.isDigit = true) : decide (ch = ' ') = false := by
    rw [decide_eq_false_iff_not]
    rintro rfl
    cases h
  refine (Regex.unique_fixed _ _ _).seq ((Regex.unique_fixed _ _ _).seq
    (Regex.Unique.repeated_seq (Regex.Unique.repeated_seq ?_ ?_) ?_))
  · refine (Regex.unique_literal _).seq (Regex.Unique.repeated_seq ?_ ?_)
    · exact (Regex.unique_literal _).seq ((Regex.unique_fixed _ _ _).seq
        ((Regex.unique_literal _).seq (Regex.unique_fixed _ _ _)))
    · exact Regex.beginsOutside_literal rfl _
  · exact Regex.beginsOutside_literal rfl _
  · exact Regex.beginsOutside_repeated Nat.one_pos hdigit _

/-- A date of the pattern begins with the only capital letter in it. -/
theorem isUpper_of_matches {beyond before m rest : Text} (h : Regex.Matches beyond ossecDateRegex before m rest) :
    ∃ ch t, m = ch :: t ∧ ch.isUpper := by
  obtain ⟨m₁, m₂, rfl, ⟨hupper, hlength, -⟩, -⟩ := h
  obtain ⟨ch, m₁, rfl⟩ := List.exists_cons_of_length_pos hlength
  exact ⟨ch, m₁ ++ m₂, rfl, hupper ch List.mem_cons_self⟩

end pattern

section printed

/-- The format `MMM d HH:mm:ss`, with blanks in front of the day. -/
def printedDate (padding : Nat) (date : Date) (secondOfDay : Nat) : Text :=
  MONTHS.getD (date.month - 1) [] ++ (List.replicate (padding + 1) ' ' ++ (decimal date.day ++ ' ' ::
    (padded 2 (secondOfDay / 3600) ++ ':' :: (padded 2 (secondOfDay / 60 % 60) ++ ':' :: padded 2 (secondOfDay % 60)))))

theorem month_name {month : Nat} (h : 1 ≤ month ∧ month ≤ 12) :
    ∃ a b c : Char, MONTHS.getD (month - 1) [] = [a, b, c] ∧ a.isUpper ∧ b.isLower ∧ c.isLower ∧
      MONTHS.findIdx? (fun name => decide (name = [a, b, c])) = some (month - 1) := by
  obtain ⟨hlow, hhigh⟩ := h
  interval_cases month <;> exact ⟨_, _, _, rfl, by decide⟩

theorem matches_padded (count n : Nat) (beyond before rest : Text) :
    Regex.Matches beyond (digitsOf count) before (padded count n) rest := by
  refine ⟨fun _ => isDigit_of_mem_padded, (length_lpad _ _ _).ge, fun bound hbound => ?_⟩
  obtain rfl := Option.some.inj hbound
  exact (length_lpad _ _ _).le

theorem matches_printedDate {date : Date} (hmonth : 1 ≤ date.month ∧ date.month ≤ 12) (hday : date.day < 100)
    (padding secondOfDay : Nat) (beyond before rest : Text) :
    Regex.Matches beyond ossecDateRegex before (printedDate padding date secondOfDay) rest := by
  obtain ⟨a, b, c, hname, ha, hb, hc, -⟩ := month_name hmonth
  have hhour (beyond before rest : Text) :
      Regex.Matches beyond (digitsUpTo 2) before (padded 2 (secondOfDay / 3600)) rest := by
    refine ⟨fun _ => isDigit_of_mem_padded, ?_, fun bound hbound => ?_⟩
    · rw [padded, length_lpad]
      decide
    · obtain rfl := Option.some.inj hbound
      exact (length_lpad _ _ _).le
  have hday' (beyond before rest : Text) : Regex.Matches beyond (digitsUpTo 2) before (decimal date.day) rest := by
    refine ⟨fun _ => isDigit_of_mem_decimal, List.length_pos_iff.mpr (decimal_ne_nil _), fun bound hbound => ?_⟩
    obtain rfl := Option.some.inj hbound
    exact (decimal_length_le_iff (by decide)).mpr hday
  unfold printedDate
  rw [hname]
  refine ⟨[a], b :: c :: _, rfl, by simp [Regex.Matches, ha], [b, c], _, rfl, by simp [Regex.Matches, hb, hc],
    _, _, rfl, by simp [Regex.Matches], _, _, rfl, hday' _ _ _, [' '], _, rfl, rfl, _, _, rfl, hhour _ _ _,
    [':'], _, rfl, rfl, _, _, rfl, matches_padded 2 _ _ _ _, [':'], _, rfl, rfl, matches_padded 2 _ _ _ _⟩

/-- No other capital letter follows the first one. -/
theorem printedDate_eq_cons {date : Date} (hmonth : 1 ≤ date.month ∧ date.month ≤ 12) (padding secondOfDay : Nat) :
    ∃ ch t, printedDate padding date secondOfDay = ch :: t ∧ ∀ c ∈ t, c.isUpper = false := by
  obtain ⟨a, b, c, hname, -, hb, hc, -⟩ := month_name hmonth
  have hdigit {ch : Char} (h : ch.isDigit) : ch.isUpper = false := by
    refine Bool.eq_false_iff.mpr fun hupper => ?_
    have hmost : ch.val ≤ '9'.val := of_decide_eq_true (Bool.and_eq_true_iff.mp h).2
    have hleast : 'A'.val ≤ ch.val := (of_decide_eq_true hupper : ch.val ≥ 'A'.val ∧ ch.val ≤ 'Z'.val).1
    exact absurd (UInt32.le_trans hleast hmost) (by decide)
  have hlower {ch : Char} (h : ch.isLower) : ch.isUpper = false := by
    refine Bool.eq_false_iff.mpr fun hupper => ?_
    have hleast : 'a'.val ≤ ch.val := of_decide_eq_true (Bool.and_eq_true_iff.mp h).1
    have hmost : ch.val ≤ 'Z'.val := (of_decide_eq_true hupper : ch.val ≥ 'A'.val ∧ ch.val ≤ 'Z'.val).2
    exact absurd (UInt32.le_trans hleast hmost) (by decide)
  refine ⟨a, b :: c :: (List.replicate (padding + 1) ' ' ++ _), by rw [printedDate, hname]; rfl, ?_⟩
  simp only [List.forall_mem_cons, List.forall_mem_append]
  refine ⟨hlower hb, hlower hc, fun ch hch => (List.mem_replicate.mp hch).2 ▸ rfl,
    fun ch hch => hdigit (isDigit_of_mem_decimal hch), rfl, fun ch hch => hdigit (isDigit_of_mem_padded hch), rfl,
    fun ch hch => hdigit (isDigit_of_mem_padded hch), rfl, fun ch hch => hdigit (isDigit_of_mem_padded hch)⟩

theorem dropWhile_blanks {blanks day : Text} (hblanks : ∀ ch ∈ blanks, ch = ' ') (hne : day ≠ [])
    (hdigits : ∀ ch ∈ day, ch.isDigit) (rest : Text) :
    (blanks ++ (day ++ rest)).dropWhile (fun ch => decide (ch = ' ')) = day ++ rest := by
  obtain ⟨digit, day, rfl⟩ := List.exists_cons_of_ne_nil hne
  have hstop : ¬ (fun ch : Char => decide (ch = ' ')) digit = true := by
    rw [decide_eq_true_eq]
    rintro rfl
    have hdigit := hdigits ' ' List.mem_cons_self
    cases hdigit
  rw [List.dropWhile_append_of_pos (fun ch hch => decide_eq_true (hblanks ch hch))]
  exact List.dropWhile_cons_of_neg hstop

theorem parseOssecDate_printedDate (platform : Platform) {date : Date} (hmonth : 1 ≤ date.month ∧ date.month ≤ 12)
    (padding : Nat) {secondOfDay : Nat} (hsecond : secondOfDay < 86400) :
    parseOssecDate platform (printedDate padding date secondOfDay) = .ok (platform.instantOf
      (utcTime platform.year date.month date.day (secondOfDay / 3600 : Nat) (secondOfDay / 60 % 60 : Nat)
        (secondOfDay % 60 : Nat) 0)) := by
  obtain ⟨a, b, c, hname, -, -, -, hindex⟩ := month_name hmonth
  have hblanks : ((printedDate padding date secondOfDay).drop 3).dropWhile (fun ch => decide (ch = ' ')) =
      decimal date.day ++ ' ' :: (padded 2 (secondOfDay / 3600) ++ ':' :: (padded 2 (secondOfDay / 60 % 60) ++
        ':' :: padded 2 (secondOfDay % 60))) := by
    rw [printedDate, hname]
    exact dropWhile_blanks (fun ch hch => (List.mem_replicate.mp hch).2) (decimal_ne_nil _)
      (fun _ => isDigit_of_mem_decimal) _
  have htake : (printedDate padding date secondOfDay).take 3 = [a, b, c] := by
    rw [printedDate, hname]
    rfl
  have hnumbers : parseNumbers [' ', ':', ':'] (decimal date.day ++ ' ' :: (padded 2 (secondOfDay / 3600) ++
      ':' :: (padded 2 (secondOfDay / 60 % 60) ++ ':' :: padded 2 (secondOfDay % 60)))) =
        some [(date.day : Int), (secondOfDay / 3600 : Nat), (secondOfDay / 60 % 60 : Nat), (secondOfDay % 60 : Nat)] := by
    have hpadded {n : Nat} (h : n < 10 ^ 2) : digitsValue (padded 2 n) = n := digitsValue_lpad (by decide) h
    rw [parseNumbers_cons (decimal_ne_nil _) (fun _ => isDigit_of_mem_decimal) rfl,
      parseNumbers_cons (padded_ne_nil (by decide)) (fun _ => isDigit_of_mem_padded) rfl,
      parseNumbers_cons (padded_ne_nil (by decide)) (fun _ => isDigit_of_mem_padded) rfl,
      parseNumbers_last (padded_ne_nil (by decide)) (fun _ => isDigit_of_mem_padded), digitsValue_decimal,
      hpadded (by omega), hpadded (by omega), hpadded (by omega)]
    rfl
  have hfirst : ((date.month - 1 : Nat) : Int) + 1 = date.month := by omega
  simp only [parseOssecDate, htake, hindex, hblanks, hnumbers, hfirst]

end printed

section alert
variable (clock : WallClock) (md5 : Text → Text)

/-- The platform of a receiver at an instant. -/
def platformAt (now : Int) : Platform := ⟨isoYear (clock.localDay now), clock.instantOf, md5⟩

/-- What a sender in the same time zone puts in front of its alert. -/
def sentDate (padding : Nat) (sent : Int) : Text :=
  printedDate padding (dateOf (clock.localDay sent)) (clock.secondOfDay sent)

/-- The alert lies at the instant, and its window around it. -/
def GetsInstant (platform : Platform) (rawMessage : Text) (sent : Int) : Prop :=
  ∃ message, createOssecSnortMessage platform rawMessage = .ok message ∧
    message.dateFrom = sent / 1000 * 1000 - 300000 ∧ message.dateTo = sent / 1000 * 1000 + 60000 ∧
    ∀ logDataId, ∃ ossecLogData, { message with logDataId := some logDataId }.toOssecLogData = .ok ossecLogData ∧
      ossecLogData.date = sent / 1000 * 1000

/-- The group that the parser reads is the date at the beginning. -/
theorem findIn_sentDate {padding : Nat} {sent : Int} {rest : Text}
    (haccepted : isSnortMessageFromOssec (sentDate clock padding sent ++ rest) = true)
    (hline : ∀ ch ∈ sentDate clock padding sent ++ rest, isLineEnd ch = false) :
    ∃ x, MESSAGE_REGEX.findIn (sentDate clock padding sent ++ rest) = some ([], x) ∧
      groupOf x "DATE".toList = some (sentDate clock padding sent) := by
  obtain ⟨hlow, hhigh, hday⟩ := dateOf_range (clock.localDay sent)
  have hmatches := matches_printedDate ⟨hlow, hhigh⟩ hday padding (clock.secondOfDay sent)
  obtain ⟨ch, t, hcons, hrest⟩ := printedDate_eq_cons ⟨hlow, hhigh⟩ padding (clock.secondOfDay sent)
  refine Regex.findIn_leading unique_ossecDateRegex (hmatches [] []) ?_ ?_ ?_ haccepted
  · simp only [Regex.Within, digits, identifierRegex, someText, implies_true, and_self]
  · intro s m' t' hs hst hm'
    obtain ⟨first, m', rfl, hfirst⟩ := isUpper_of_matches hm'
    by_contra hlt
    obtain ⟨ch', s, rfl⟩ := List.exists_cons_of_ne_nil hs
    rw [sentDate, hcons, List.cons_append, List.cons_append] at hst
    rw [sentDate, hcons, List.length_cons, List.length_cons] at hlt
    have htail := (List.cons.inj hst).2
    obtain ⟨u, rfl⟩ := List.prefix_of_prefix_length_le ⟨_, htail.symm⟩ (List.prefix_append t rest) (by omega)
    rw [List.append_assoc] at htail
    have hmem : first ∈ s ++ u := by
      cases u with
      | nil => simp at hlt
      | cons c u =>
        have hc := (List.cons.inj (List.append_cancel_left htail)).1
        exact hc ▸ List.mem_append_right s List.mem_cons_self
    rw [hrest first hmem] at hfirst
    cases hfirst
  · intro ch hch
    rw [hline ch hch]
    rfl

theorem createOssecSnortMessage_sentDate {padding : Nat} {sent : Int} {rest : Text} (now : Int)
    (haccepted : isSnortMessageFromOssec (sentDate clock padding sent ++ rest) = true)
    (hline : ∀ ch ∈ sentDate clock padding sent ++ rest, isLineEnd ch = false) :
    ∃ message, createOssecSnortMessage (platformAt clock md5 now) (sentDate clock padding sent ++ rest) = .ok message ∧
      message.date = clock.instantOf (utcTime (isoYear (clock.localDay now)) (dateOf (clock.localDay sent)).month
        (dateOf (clock.localDay sent)).day (clock.secondOfDay sent / 3600 : Nat) (clock.secondOfDay sent / 60 % 60 : Nat)
        (clock.secondOfDay sent % 60 : Nat) 0) := by
  obtain ⟨x, hfind, hgroup⟩ := findIn_sentDate clock haccepted hline
  obtain ⟨hlow, hhigh, -⟩ := dateOf_range (clock.localDay sent)
  have hparse := parseOssecDate_printedDate (platformAt clock md5 now) ⟨hlow, hhigh⟩ padding (clock.secondOfDay_lt sent)
  refine ⟨⟨_, (groupOf x "IDENTIFIER".toList).getD [], md5 (stripOssecDate (sentDate clock padding sent ++ rest)), none⟩,
    ?_, rfl⟩
  simp only [createOssecSnortMessage, hfind, hgroup, Option.getD_some]
  rw [← sentDate] at hparse
  rw [hparse]
  rfl

theorem getsInstant_iff_date {platform : Platform} {rawMessage : Text} {message : OssecSnortMessage}
    (h : createOssecSnortMessage platform rawMessage = .ok message) (sent : Int) :
    GetsInstant platform rawMessage sent ↔ message.date = sent / 1000 * 1000 := by
  constructor
  · rintro ⟨message', h', hfrom, -⟩
    obtain rfl := Except.ok.inj (h.symm.trans h')
    rw [OssecSnortMessage.dateFrom] at hfrom
    omega
  · intro hdate
    refine ⟨message, h, ?_, ?_, fun logDataId => ⟨_, rfl, hdate⟩⟩
    · rw [OssecSnortMessage.dateFrom, hdate]
    · rw [OssecSnortMessage.dateTo, hdate]

/-- The instant comes back if the receiver's clock shows the year of the date and clocks are not set back
afterwards to show the same time again. -/
theorem getsInstant_iff (sent now : Int) (padding : Nat) (rest : Text)
    (haccepted : isSnortMessageFromOssec (sentDate clock padding sent ++ rest) = true)
    (hline : ∀ ch ∈ sentDate clock padding sent ++ rest, isLineEnd ch = false) :
    GetsInstant (platformAt clock md5 now) (sentDate clock padding sent ++ rest) sent ↔
      isoYear (clock.localDay now) = (dateOf (clock.localDay sent)).year ∧
        ∀ later, sent / 1000 * 1000 < later → clock.wallTime later ≠ clock.wallTime (sent / 1000 * 1000) := by
  obtain ⟨message, hmessage, hdate⟩ := createOssecSnortMessage_sentDate clock md5 now haccepted hline
  have hsecond := clock.secondOfDay_lt sent
  have hwall := clock.wallTime_wholeSecond sent
  have hfields := utcTime_dateOf (clock.localDay sent) (show clock.secondOfDay sent / 3600 < 24 by omega)
    (show clock.secondOfDay sent / 60 % 60 < 60 by omega) (show clock.secondOfDay sent % 60 < 60 by omega)
  have hshown : utcTime (dateOf (clock.localDay sent)).year (dateOf (clock.localDay sent)).month
      (dateOf (clock.localDay sent)).day (clock.secondOfDay sent / 3600 : Nat) (clock.secondOfDay sent / 60 % 60 : Nat)
      (clock.secondOfDay sent % 60 : Nat) 0 = clock.wallTime (sent / 1000 * 1000) := by
    rw [hfields, hwall]
    omega
  rw [getsInstant_iff_date hmessage, hdate]
  constructor
  · intro h
    have hyear : isoYear (clock.localDay now) = (dateOf (clock.localDay sent)).year := by
      have hnear := clock.near_of_instantOf_eq h
      obtain ⟨hlow, hhigh, -⟩ := dateOf_range (clock.localDay sent)
      by_contra hne
      rcases Int.lt_or_gt_of_ne hne with hlt | hgt
      · have hfar := utcTime_year_far hlt ⟨hlow, hhigh⟩ (dateOf (clock.localDay sent)).day
          (clock.secondOfDay sent / 3600) (clock.secondOfDay sent / 60 % 60) (clock.secondOfDay sent % 60)
        omega
      · have hfar := utcTime_year_far hgt ⟨hlow, hhigh⟩ (dateOf (clock.localDay sent)).day
          (clock.secondOfDay sent / 3600) (clock.secondOfDay sent / 60 % 60) (clock.secondOfDay sent % 60)
        omega
    refine ⟨hyear, ?_⟩
    rwa [hyear, hshown, clock.instantOf_wallTime_iff] at h
  · rintro ⟨hyear, hlatest⟩
    rwa [hyear, hshown, clock.instantOf_wallTime_iff]

def utcClock : WallClock := .fixed 0 (by decide)

def restOfAlert : Text :=
  " log-1 ossec: Alert Level: 12; Rule: 20112 - MIDSE on FW; snort[11379]: [119:33:1] (http_inspect)".toList

theorem alert_in_year : GetsInstant (platformAt utcClock id 1391613485500) (sentDate utcClock 1 1391613485000 ++ restOfAlert)
    1391613485000 := by
  refine (getsInstant_iff utcClock id 1391613485000 1391613485500 1 restOfAlert (by decide +kernel) (by decide)).mpr
    ⟨by decide, fun later hlater => ?_⟩
  change later + 1000 * 0 ≠ 1391613485000 / 1000 * 1000 + 1000 * 0
  omega

/-- The alert was sent in the last second of a year and is read in the first one of the next. -/
theorem alert_over_new_year : isSnortMessageFromOssec (sentDate utcClock 0 1388534399000 ++ restOfAlert) = true ∧
    (∀ ch ∈ sentDate utcClock 0 1388534399000 ++ restOfAlert, isLineEnd ch = false) ∧
    ¬ GetsInstant (platformAt utcClock id 1388534400000) (sentDate utcClock 0 1388534399000 ++ restOfAlert)
      1388534399000 := by
  have haccepted : isSnortMessageFromOssec (sentDate utcClock 0 1388534399000 ++ restOfAlert) = true := by decide +kernel
  have hline : ∀ ch ∈ sentDate utcClock 0 1388534399000 ++ restOfAlert, isLineEnd ch = false := by decide
  refine ⟨haccepted, hline, ?_⟩
  obtain ⟨message, hmessage, hdate⟩ := createOssecSnortMessage_sentDate utcClock id 1388534400000 haccepted hline
  rw [getsInstant_iff_date hmessage, hdate]
  decide

end alert
end Srvlog.Syslog
