import Srvlog.Library.WallClock
import Srvlog.Web.Terminal

/-! Which logs the terminal prints completely and line by line. -/
namespace Srvlog.Web
open Library Data Broadcasting Collector

section lines

/-- The lines of a text, ended by CRLF, CR or LF. The CR of a CRLF adds nothing. -/
def lines : Text → List Text
  | [] => [[]]
  | ch :: t =>
    if ch = '\r' ∧ t.head? = some '\n' then lines t
    else if isLineBreak ch then [] :: lines t
    else match lines t with
      | [] => [[ch]]
      | line :: rest => (ch :: line) :: rest

def Unbroken (t : Text) : Prop := ∀ ch ∈ t, isLineBreak ch = false

theorem lines_unbroken (t : Text) : ∀ line ∈ lines t, Unbroken line := by
  induction t with
  | nil =>
    rw [lines, List.forall_mem_singleton]
    exact fun _ h => absurd h List.not_mem_nil
  | cons ch t ih =>
    rw [lines]
    split
    · exact ih
    split
    · exact List.forall_mem_cons.mpr ⟨fun _ h => absurd h List.not_mem_nil, ih⟩
    · next hch =>
      have hplain : isLineBreak ch = false := Bool.eq_false_of_not_eq_true hch
      cases hlines : lines t with
      | nil => exact List.forall_mem_singleton.mpr (List.forall_mem_singleton.mpr hplain)
      | cons line rest =>
        rw [hlines, List.forall_mem_cons] at ih
        exact List.forall_mem_cons.mpr ⟨List.forall_mem_cons.mpr ⟨hplain, ih.1⟩, ih.2⟩

theorem lines_ne_nil (t : Text) : lines t ≠ [] := by
  induction t with
  | nil => exact List.cons_ne_nil _ _
  | cons ch t ih =>
    rw [lines]
    split
    · exact ih
    split
    · exact List.cons_ne_nil _ _
    · split
      · exact List.cons_ne_nil _ _
      · exact List.cons_ne_nil _ _

/-- A text without line breaks adds to the first line behind it. -/
theorem lines_append {m t line : Text} {rest : List Text} (hm : Unbroken m) (h : lines t = line :: rest) :
    lines (m ++ t) = (m ++ line) :: rest := by
  induction m with
  | nil => exact h
  | cons ch m ih =>
    obtain ⟨hch, hm⟩ := List.forall_mem_cons.mp hm
    have hne : ¬ (ch = '\r' ∧ (m ++ t).head? = some '\n') := by
      rintro ⟨rfl, -⟩
      cases hch
    rw [List.cons_append, lines, if_neg hne, if_neg (Bool.eq_false_iff.mp hch), ih hm]
    rfl

end lines

section split

theorem first_crlf (before t : Text) :
    lineBreakRegex.first [] before ('\r' :: '\n' :: t) = some ⟨['\r', '\n'], t, []⟩ := by
  have hcr : (Regex.repeated true 0 (some 1) fun ch => decide (ch = '\r')).first [] before (['\r'] ++ '\n' :: t) =
      some ⟨['\r'], '\n' :: t, []⟩ :=
    Regex.first_greedy (by simp) (Nat.zero_le _) (by simp) (.inl rfl)
  have hcrlf : (Regex.seq (.repeated true 0 (some 1) fun ch => decide (ch = '\r')) (.literal ['\n'])).first [] before
      ('\r' :: '\n' :: t) = some ⟨['\r', '\n'], t, []⟩ := Regex.first_seq hcr (Regex.first_literal ['\n'] t)
  rw [lineBreakRegex, Regex.first_alt, hcrlf, Option.some_or]

theorem first_lf (before t : Text) : lineBreakRegex.first [] before ('\n' :: t) = some ⟨['\n'], t, []⟩ := by
  have hcr : (Regex.repeated true 0 (some 1) fun ch => decide (ch = '\r')).first [] before ([] ++ '\n' :: t) =
      some ⟨[], '\n' :: t, []⟩ :=
    Regex.first_greedy (by simp) (Nat.zero_le _) (by simp) (.inr (by simp))
  have hlf : (Regex.seq (.repeated true 0 (some 1) fun ch => decide (ch = '\r')) (.literal ['\n'])).first [] before
      ('\n' :: t) = some ⟨['\n'], t, []⟩ := Regex.first_seq hcr (Regex.first_literal ['\n'] t)
  rw [lineBreakRegex, Regex.first_alt, hlf, Option.some_or]

theorem first_alone {before t : Text} (ht : ∀ s, t ≠ '\n' :: s ∧ t ≠ '\r' :: '\n' :: s) :
    (Regex.seq (.repeated true 0 (some 1) fun ch => decide (ch = '\r')) (.literal ['\n'])).first [] before t = none := by
  rw [Regex.first_eq_none_iff]
  rintro m rest rfl ⟨m₁, m₂, rfl, ⟨hall, -, hmost⟩, rfl⟩
  rcases m₁ with _ | ⟨ch, _ | ⟨ch', m₁⟩⟩
  · exact (ht rest).1 rfl
  · obtain rfl := of_decide_eq_true (hall ch List.mem_cons_self)
    exact (ht rest).2 rfl
  · have hle := hmost 1 rfl
    rw [List.length_cons, List.length_cons] at hle
    omega

theorem first_cr (before : Text) {t : Text} (ht : t.head? ≠ some '\n') :
    lineBreakRegex.first [] before ('\r' :: t) = some ⟨['\r'], t, []⟩ := by
  have hseq := @first_alone before ('\r' :: t) fun s =>
    ⟨by simp, fun h => ht (by rw [(List.cons.inj h).2]; rfl)⟩
  rw [lineBreakRegex, Regex.first_alt, hseq, Option.none_or, Regex.first_alt]
  have hcr := @Regex.first_literal [] before ['\r'] t
  rw [List.singleton_append] at hcr
  rw [hcr]
  rfl

theorem first_plain (before : Text) {t : Text} (ht : ∀ ch ∈ t.head?, isLineBreak ch = false) :
    lineBreakRegex.first [] before t = none := by
  have hne : ∀ ch s, isLineBreak ch = true → t ≠ ch :: s := by
    rintro ch s hch rfl
    rw [ht ch rfl] at hch
    cases hch
  have hseq := @first_alone before t fun s => ⟨hne _ _ (by decide), hne _ _ (by decide)⟩
  have hliteral : ∀ ch, isLineBreak ch = true → (Regex.literal [ch]).first [] before t = none := by
    intro ch hch
    apply Regex.first_literal_none
    rintro ⟨s, rfl⟩
    exact hne ch s hch rfl
  rw [lineBreakRegex, Regex.first_alt, hseq, Regex.first_alt, hliteral _ (by decide), hliteral _ (by decide)]
  rfl

/-- A text is a single line, or its first line ends at a place where the pattern matches. -/
theorem unbroken_or_break (t : Text) : Unbroken t ∨ ∃ skipped mark rest, Unbroken skipped ∧ mark ≠ [] ∧
    t = skipped ++ (mark ++ rest) ∧ lines (mark ++ rest) = [] :: lines rest ∧
    ∀ before, lineBreakRegex.first [] before (mark ++ rest) = some ⟨mark, rest, []⟩ := by
  induction t with
  | nil => exact .inl fun _ h => absurd h List.not_mem_nil
  | cons ch t ih =>
    have hnil : Unbroken [] := fun _ h => absurd h List.not_mem_nil
    rcases Bool.eq_false_or_eq_true (isLineBreak ch) with hch | hch
    · right
      rcases List.mem_pair.mp (of_decide_eq_true hch) with rfl | rfl
      · by_cases hlf : t.head? = some '\n'
        · obtain ⟨rest, rfl⟩ := List.head?_eq_some_iff.mp hlf
          refine ⟨[], ['\r', '\n'], rest, hnil, List.cons_ne_nil _ _, rfl, ?_, fun before => first_crlf before rest⟩
          change lines ('\r' :: '\n' :: rest) = _
          rw [lines, if_pos ⟨rfl, rfl⟩, lines, if_neg (fun h => absurd h.1 (by decide)), if_pos (by decide)]
        · refine ⟨[], ['\r'], t, hnil, List.cons_ne_nil _ _, rfl, ?_, fun before => first_cr before hlf⟩
          change lines ('\r' :: t) = _
          rw [lines, if_neg (fun h => hlf h.2), if_pos (by decide)]
      · refine ⟨[], ['\n'], t, hnil, List.cons_ne_nil _ _, rfl, ?_, fun before => first_lf before t⟩
        change lines ('\n' :: t) = _
        rw [lines, if_neg (fun h => absurd h.1 (by decide)), if_pos (by decide)]
    · rcases ih with ih | ⟨skipped, mark, rest, hskipped, hmark, rfl, hlines, hfirst⟩
      · exact .inl (List.forall_mem_cons.mpr ⟨hch, ih⟩)
      · exact .inr ⟨ch :: skipped, mark, rest, List.forall_mem_cons.mpr ⟨hch, hskipped⟩, hmark, rfl, hlines, hfirst⟩

theorem find_lineBreak {skipped : Text} (hskipped : Unbroken skipped) (before t : Text) :
    lineBreakRegex.find [] before (skipped ++ t) =
      (lineBreakRegex.find [] (skipped.reverse ++ before) t).map fun found => (skipped ++ found.1, found.2) := by
  apply Regex.find_skip
  intro s u hsu hu
  apply first_plain
  intro ch hch
  rw [List.head?_append_of_ne_nil _ hu] at hch
  exact hskipped ch (hsu ▸ List.mem_append_right s (List.mem_of_mem_head? hch))

/-- The splitter of the script finds the lines. -/
theorem splitAt_eq_lines {most : Nat} {t : Text} (hmost : t.length ≤ most) : lineBreakRegex.splitAt most t = lines t := by
  induction most generalizing t with
  | zero =>
    rw [List.length_eq_zero_iff.mp (Nat.le_zero.mp hmost)]
    rfl
  | succ most ih =>
    rcases unbroken_or_break t with ht | ⟨skipped, mark, rest, hskipped, hmark, rfl, hlines, hfirst⟩
    · have hfind : lineBreakRegex.findIn (t ++ []) = none := by
        rw [Regex.findIn, find_lineBreak ht, Regex.find, first_plain _ (by simp)]
        rfl
      have hline : lines (t ++ []) = [t ++ []] := lines_append ht rfl
      rw [List.append_nil] at hfind hline
      rw [Regex.splitAt, hfind, hline]
    · have hfind : lineBreakRegex.findIn (skipped ++ (mark ++ rest)) = some (skipped ++ [], ⟨mark, rest, []⟩) := by
        rw [Regex.findIn, find_lineBreak hskipped, Regex.find_of_first (hfirst _)]
        rfl
      have hlength : rest.length ≤ most := by
        have hpos := List.length_pos_iff.mpr hmark
        rw [List.length_append, List.length_append] at hmost
        omega
      rw [Regex.splitAt, hfind, lines_append hskipped hlines]
      dsimp only
      rw [ih hlength, List.append_nil]

theorem split_eq_lines (t : Text) : lineBreakRegex.split t = lines t := splitAt_eq_lines (Nat.le_refl _)

end split

section handler
variable (localTime : LocalTime)

/-- The local form of a date with its milliseconds. -/
def timeText (logDate : Int) : Text := localTime.toLocaleString logDate ++ [' '] ++ milliseconds logDate ++ ['m', 's']

/-- The lines of a log behind its time and `[host] [program] `. An absent message is empty,
and an absent host or program is written as null. -/
def expectedLines (item : LogData) : List Text :=
  let names := "[".toList ++ item.host.getD "null".toList ++ "] [".toList ++ item.program.getD "null".toList ++ "] ".toList
  match lines (item.message.getD []) with
  | [] => []
  | line :: rest => (timeText localTime (item.date.getD 0) ++ [' '] ++ names ++ line) :: rest

theorem expectedLines_eq (item : LogData) : expectedLines localTime item =
    match lines (item.message.getD []) with
    | [] => []
    | line :: rest => (header localTime item ++ line) :: rest := by
  have hheader : header localTime item = timeText localTime (item.date.getD 0) ++ [' '] ++ ("[".toList ++
      item.host.getD "null".toList ++ "] [".toList ++ item.program.getD "null".toList ++ "] ".toList) := by
    simp [header, timeText, stringOf, List.append_assoc]
  rw [hheader]
  rfl

/-- What the script prints for a log with a message. -/
def outputLines (item : LogData) (message : Text) : List Text :=
  if '\n' ∈ message then expectedLines localTime item else [header localTime item ++ message]

theorem forM_println (ts printed : List Text) : ts.forM println printed = (.ok ⟨⟩, printed ++ ts) := by
  induction ts generalizing printed with
  | nil => exact congrArg (Prod.mk _) (List.append_nil printed).symm
  | cons t ts ih =>
    have hcons : (t :: ts).forM println printed = ts.forM println (printed ++ [t]) := bind_of_ok rfl
    rw [hcons, ih, List.append_assoc, List.singleton_append]

/-- One step: a log without a message stops the handler. -/
theorem printItem_none {item : LogData} (h : item.message = none) (printed : List Text) :
    printItem localTime item printed = (.error .null, printed) := by
  unfold printItem
  rw [h]
  exact bind_of_error rfl

theorem printItem_some {item : LogData} {message : Text} (h : item.message = some message) (printed : List Text) :
    printItem localTime item printed = (.ok ⟨⟩, printed ++ outputLines localTime item message) := by
  have hbind : printItem localTime item printed =
      (if decide ('\n' ∈ message) then printMultilineMessage localTime item
        else println (header localTime item ++ stringOf item.message)) printed := by
    unfold printItem
    rw [h]
    exact bind_of_ok rfl
  rw [hbind, outputLines]
  by_cases hlf : '\n' ∈ message
  · rw [if_pos (decide_eq_true hlf), if_pos hlf, printMultilineMessage, h, expectedLines_eq, h, Option.getD_some]
    dsimp only
    rw [split_eq_lines]
    cases lines message with
    | nil => exact congrArg (Prod.mk _) (List.append_nil printed).symm
    | cons line rest =>
      have hline : printLines localTime item (line :: rest) printed =
          rest.forM println (printed ++ [header localTime item ++ line]) := bind_of_ok rfl
      rw [hline, forM_println, List.append_assoc, List.singleton_append]
  · rw [if_neg (fun h => hlf (of_decide_eq_true h)), if_neg hlf, h]
    rfl

/-- What the handler prints: the logs in front of the first one without a message. -/
def printedLines : List LogData → List Text
  | [] => []
  | item :: items => match item.message with
    | none => []
    | some message => outputLines localTime item message ++ printedLines items

theorem forM_printItem (items : List LogData) (printed : List Text) :
    (items.forM (printItem localTime) printed).2 = printed ++ printedLines localTime items := by
  induction items generalizing printed with
  | nil => exact (List.append_nil printed).symm
  | cons item items ih =>
    rw [printedLines]
    cases hmessage : item.message with
    | none =>
      have hstop : (item :: items).forM (printItem localTime) printed = (.error .null, printed) :=
        bind_of_error (printItem_none localTime hmessage printed)
      rw [hstop, List.append_nil]
    | some message =>
      have hnext : (item :: items).forM (printItem localTime) printed =
          items.forM (printItem localTime) (printed ++ outputLines localTime item message) :=
        bind_of_ok (printItem_some localTime hmessage printed)
      rw [hnext, ih, List.append_assoc]

theorem unbroken_append {s t : Text} : Unbroken (s ++ t) ↔ Unbroken s ∧ Unbroken t := List.forall_mem_append

theorem unbroken_digit {digit : Char} (h : digit.isDigit) : isLineBreak digit = false := by
  apply decide_eq_false
  rintro hbreak
  rcases List.mem_pair.mp hbreak with rfl | rfl
  · exact absurd h (by decide)
  · exact absurd h (by decide)

theorem unbroken_decimal (n : Nat) : Unbroken (decimal n) := fun _ hch => unbroken_digit (isDigit_of_mem_decimal hch)

theorem unbroken_milliseconds (logDate : Int) : Unbroken (milliseconds logDate) := by
  rw [milliseconds]
  split
  · exact unbroken_decimal _
  · unfold Unbroken
    decide

/-- The other parts of a header have no line breaks. -/
theorem unbroken_header {item : LogData} :
    Unbroken (header localTime item) ↔ Unbroken (stringOf item.host) ∧ Unbroken (stringOf item.program) := by
  have htime : Unbroken (localTime.toLocaleString (item.date.getD 0)) := localTime.single_line _
  have hblank : Unbroken [' '] := List.forall_mem_singleton.mpr (by decide)
  have hms : Unbroken "ms [".toList := by unfold Unbroken; decide
  have hbetween : Unbroken "] [".toList := by unfold Unbroken; decide
  have hend : Unbroken "] ".toList := by unfold Unbroken; decide
  have hcons : ∀ t, Unbroken (' ' :: t) ↔ Unbroken t :=
    fun t => (@unbroken_append [' '] t).trans (and_iff_right hblank)
  rw [header, unbroken_append, hcons, unbroken_append, unbroken_append, unbroken_append, unbroken_append, unbroken_append,
    and_iff_left hend, and_iff_left hbetween, and_iff_right (⟨unbroken_milliseconds _, hms⟩ : _ ∧ _),
    and_iff_right htime]

theorem expectedLines_of_unbroken {item : LogData} {message : Text} (h : item.message = some message)
    (hm : Unbroken message) : expectedLines localTime item = [header localTime item ++ message] := by
  have hline : lines (message ++ []) = [message ++ []] := lines_append hm rfl
  rw [List.append_nil] at hline
  rw [expectedLines_eq, h, Option.getD_some, hline]

theorem exists_expectedLines (item : LogData) : ∃ line rest, lines (item.message.getD []) = line :: rest ∧
    expectedLines localTime item = (header localTime item ++ line) :: rest := by
  obtain ⟨line, rest, hlines⟩ := List.exists_cons_of_ne_nil (lines_ne_nil (item.message.getD []))
  exact ⟨line, rest, hlines, by rw [expectedLines_eq, hlines]⟩

def Printable (host program : Option Text) (message : Text) : Prop :=
  ('\n' ∈ message ∨ '\r' ∉ message) ∧ Unbroken (stringOf host) ∧ Unbroken (stringOf program)

theorem outputLines_unbroken_iff {item : LogData} {message : Text} :
    (∀ line ∈ outputLines localTime item message, Unbroken line) ↔ Printable item.host item.program message := by
  rw [Printable, ← unbroken_header localTime, outputLines]
  split
  · next hlf =>
    obtain ⟨line, rest, hlines, hexpected⟩ := exists_expectedLines localTime item
    have hall := lines_unbroken (item.message.getD [])
    rw [hlines, List.forall_mem_cons] at hall
    rw [hexpected, List.forall_mem_cons, unbroken_append]
    exact ⟨fun hprinted => ⟨.inl hlf, hprinted.1.1⟩, fun hprintable => ⟨⟨hprintable.2, hall.1⟩, hall.2⟩⟩
  · next hlf =>
    rw [List.forall_mem_singleton, unbroken_append, and_comm]
    apply and_congr_left'
    constructor
    · exact fun hm => .inr fun hcr => absurd (hm _ hcr) (by decide)
    · rintro (hm | hcr) ch hch
      · exact absurd hm hlf
      · apply decide_eq_false
        intro hbreak
        rcases List.mem_pair.mp hbreak with rfl | rfl
        · exact hcr hch
        · exact hlf hch

theorem outputLines_eq_expectedLines {item : LogData} {message : Text} (h : item.message = some message)
    (hprinted : ∀ line ∈ outputLines localTime item message, Unbroken line) :
    outputLines localTime item message = expectedLines localTime item := by
  unfold outputLines at hprinted ⊢
  split
  · rfl
  · next hlf =>
    rw [if_neg hlf, List.forall_mem_singleton, unbroken_append] at hprinted
    exact (expectedLines_of_unbroken localTime h hprinted.2).symm

/-- Nothing is missing and nothing is broken exactly when every log can be printed. -/
theorem printedLines_iff (items : List LogData) :
    (printedLines localTime items = items.flatMap (expectedLines localTime) ∧
      ∀ line ∈ printedLines localTime items, Unbroken line) ↔
    ∀ item ∈ items, ∃ message, item.message = some message ∧ Printable item.host item.program message := by
  induction items with
  | nil => exact ⟨fun _ item h => absurd h List.not_mem_nil, fun _ => ⟨rfl, fun _ h => absurd h List.not_mem_nil⟩⟩
  | cons item items ih =>
    rw [List.forall_mem_cons, ← ih, printedLines, List.flatMap_cons]
    cases hmessage : item.message with
    | none =>
      obtain ⟨line, rest, -, hexpected⟩ := exists_expectedLines localTime item
      constructor
      · rintro ⟨hnil, -⟩
        rw [hexpected] at hnil
        cases hnil
      · rintro ⟨⟨message, hsome, -⟩, -⟩
        cases hsome
    | some message =>
      dsimp only
      rw [List.forall_mem_append, outputLines_unbroken_iff localTime]
      constructor
      · rintro ⟨heq, hprintable, hrest⟩
        have hout := outputLines_eq_expectedLines localTime hmessage
          ((outputLines_unbroken_iff localTime).mpr hprintable)
        rw [hout] at heq
        exact ⟨⟨message, rfl, hprintable⟩, List.append_cancel_left heq, hrest⟩
      · rintro ⟨⟨_, hsome, hprintable⟩, heq, hrest⟩
        obtain rfl := Option.some.inj hsome
        have hout := outputLines_eq_expectedLines localTime hmessage
          ((outputLines_unbroken_iff localTime).mpr hprintable)
        exact ⟨by rw [hout, heq], hprintable, hrest⟩

/-- What is printed for a log is never longer than its lines. -/
theorem length_printedLines_le (items : List LogData) :
    (printedLines localTime items).length ≤ (items.flatMap (expectedLines localTime)).length := by
  induction items with
  | nil => exact Nat.le_refl _
  | cons item items ih =>
    rw [printedLines, List.flatMap_cons, List.length_append]
    cases hmessage : item.message with
    | none => exact Nat.zero_le _
    | some message =>
      have hfirst : (outputLines localTime item message).length ≤ (expectedLines localTime item).length := by
        obtain ⟨line, rest, -, hexpected⟩ := exists_expectedLines localTime item
        unfold outputLines
        split
        · exact Nat.le_refl _
        · rw [hexpected]
          exact Nat.succ_le_succ (Nat.zero_le _)
      rw [List.length_append]
      exact Nat.add_le_add hfirst ih

end handler

section responses
variable (localTime : LocalTime)

/-- The lines that a response has to show. -/
def responseLines (response : LogBroadcastingResponse) : List Text :=
  if response.success then response.logDataList.flatMap (expectedLines localTime)
  else ["WEBSOCKET: Log subscription error message: [".toList ++ response.errorMessage.getD "null".toList ++ "]".toList]

/-- A response without logs has no lines. -/
def HasLines (response : LogBroadcastingResponse) : Prop := ¬(response.success = true ∧ response.logDataList = [])

/-- All lines of the response can be printed. -/
def PrintableResponse (response : LogBroadcastingResponse) : Prop :=
  if response.success then
    ∀ item ∈ response.logDataList, ∃ message, item.message = some message ∧ Printable item.host item.program message
  else Unbroken (stringOf response.errorMessage)

theorem onmessage_append (response : LogBroadcastingResponse) (printed : List Text) :
    (onmessage localTime response printed).2 = printed ++ (onmessage localTime response []).2 := by
  unfold onmessage
  split
  · rw [forM_printItem, forM_printItem, List.nil_append]
  · rfl

theorem responseLines_eq_nil_iff {response : LogBroadcastingResponse} :
    responseLines localTime response = [] ↔ ¬ HasLines response := by
  unfold responseLines HasLines
  rw [not_not]
  by_cases hsuccess : response.success = true
  · rw [if_pos hsuccess, and_iff_right hsuccess, List.flatMap_eq_nil_iff]
    constructor
    · intro hnone
      rw [List.eq_nil_iff_forall_not_mem]
      intro item hitem
      obtain ⟨line, rest, -, hexpected⟩ := exists_expectedLines localTime item
      rw [hnone item hitem] at hexpected
      cases hexpected
    · rintro hnil item hitem
      rw [hnil] at hitem
      cases hitem
  · rw [if_neg hsuccess]
    exact iff_of_false (List.cons_ne_nil _ _) fun h => hsuccess h.1

theorem printableResponse_of_not_hasLines {response : LogBroadcastingResponse} (h : ¬ HasLines response) :
    PrintableResponse response := by
  obtain ⟨hsuccess, hnil⟩ := not_not.mp h
  rw [PrintableResponse, if_pos hsuccess, hnil]
  exact fun item hitem => absurd hitem List.not_mem_nil

theorem length_onmessage_le (response : LogBroadcastingResponse) :
    (onmessage localTime response []).2.length ≤ (responseLines localTime response).length := by
  unfold onmessage responseLines
  split
  · rw [forM_printItem]
    exact length_printedLines_le localTime _
  · exact Nat.le_refl _

/-- The handler prints the lines of a response, none of them broken, exactly when it can. -/
theorem onmessage_eq_responseLines_iff (response : LogBroadcastingResponse) :
    ((onmessage localTime response []).2 = responseLines localTime response ∧
      ∀ line ∈ (onmessage localTime response []).2, Unbroken line) ↔ PrintableResponse response := by
  unfold onmessage responseLines PrintableResponse
  by_cases hsuccess : response.success = true
  · rw [if_pos hsuccess, if_pos hsuccess, if_pos hsuccess, forM_printItem]
    exact printedLines_iff localTime _
  · have hfirst : Unbroken "WEBSOCKET: Log subscription error message: [".toList := by unfold Unbroken; decide
    have hlast : Unbroken "]".toList := by unfold Unbroken; decide
    rw [if_neg hsuccess, if_neg hsuccess, if_neg hsuccess]
    refine (and_iff_right rfl).trans (List.forall_mem_singleton.trans ?_)
    rw [unbroken_append, unbroken_append, and_iff_left hlast, and_iff_right hfirst]

end responses

section delivery
variable (localTime : LocalTime) (toString : LogData → Text)

/-- Every log is printed behind its header, line by line, and nothing else. -/
def PrintsEveryLog (response : LogBroadcastingResponse) (earlier : List Text) : Prop :=
  ∃ printed, (onmessage localTime response earlier).2 = earlier ++ printed ∧
    printed = response.logDataList.flatMap (expectedLines localTime) ∧ ∀ line ∈ printed, Unbroken line

theorem prints_every_log_iff {received : List (Int × LogData)} {response : LogBroadcastingResponse}
    (hsuccess : response.success = true)
    (haccepted : List.Forall₂ (fun log item => acceptedLog toString log.1 log.2 = .ok item) received response.logDataList)
    (earlier : List Text) : PrintsEveryLog localTime response earlier ↔
      ∀ log ∈ received, ∃ message, truncateString MESSAGE_MAX_BYTES log.2.message = some message ∧
        Printable log.2.host log.2.program message := by
  have hrun : (onmessage localTime response earlier).2 = earlier ++ printedLines localTime response.logDataList := by
    rw [onmessage, if_pos hsuccess, forM_printItem]
  have hprints : PrintsEveryLog localTime response earlier ↔
      printedLines localTime response.logDataList = response.logDataList.flatMap (expectedLines localTime) ∧
        ∀ line ∈ printedLines localTime response.logDataList, Unbroken line := by
    unfold PrintsEveryLog
    rw [hrun]
    constructor
    · rintro ⟨printed, heq, hprinted⟩
      rwa [List.append_cancel_left heq]
    · exact fun h => ⟨_, rfl, h⟩
  rw [hprints, printedLines_iff]
  generalize response.logDataList = items at haccepted
  clear hprints hrun hsuccess
  induction haccepted with
  | nil => exact ⟨fun _ log h => absurd h List.not_mem_nil, fun _ item h => absurd h List.not_mem_nil⟩
  | cons hlog hrest ih =>
    obtain ⟨-, rfl⟩ := (acceptedLog_eq_ok_iff toString).mp hlog
    rw [List.forall_mem_cons, List.forall_mem_cons]
    exact and_congr_right' ih

def twoDigits (n : Nat) : Text := lpad (decimal n) 2 '0'

/-- The local form of dates in Sweden, of a clock that shows the universal time. -/
def swedishTime : LocalTime where
  toLocaleString logDate :=
    let date := gregorianDate (logDate / 86400000)
    let second := (logDate % 86400000 / 1000).toNat
    decimal date.year.toNat ++ ['-'] ++ twoDigits date.month ++ ['-'] ++ twoDigits date.day ++ [' '] ++
      twoDigits (second / 3600) ++ [':'] ++ twoDigits (second / 60 % 60) ++ [':'] ++ twoDigits (second % 60)
  single_line logDate := by
    have htwo (n : Nat) : Unbroken (twoDigits n) := fun ch hch => unbroken_digit (isDigit_of_mem_lpad hch)
    have hmark {ch : Char} (h : isLineBreak ch = false) : Unbroken [ch] := List.forall_mem_singleton.mpr h
    have hdash : Unbroken ['-'] := hmark rfl
    have hblank : Unbroken [' '] := hmark rfl
    have hcolon : Unbroken [':'] := hmark rfl
    change Unbroken _
    simp only [unbroken_append, unbroken_decimal, htwo, hdash, hblank, hcolon, and_self]

example : swedishTime.toLocaleString 1388534399000 = "2013-12-31 23:59:59".toList := by decide

def sampleLog (message : Option Text) : LogData := ⟨some 0, some ['h'], some 1, some 6, message, none, some ['p'], none⟩

/-- The empty message is absent once it is accepted, and the handler stops there. -/
theorem log_behind_empty_message_not_printed :
    ∃ (received : List (Int × LogData)) (response : LogBroadcastingResponse), response.success = true ∧
      List.Forall₂ (fun log item => acceptedLog (fun _ => []) log.1 log.2 = .ok item) received response.logDataList ∧
      onmessage swedishTime response [] = (.error .null, []) ∧ ¬ PrintsEveryLog swedishTime response [] := by
  refine ⟨[(0, sampleLog (some [])), (0, sampleLog (some ['m']))],
    ⟨true, [sampleLog none, sampleLog (some ['m'])], none⟩, rfl, ?_, ?_, ?_⟩
  · exact .cons rfl (.cons (by decide) .nil)
  · exact bind_of_error (printItem_none _ rfl [])
  · rintro ⟨printed, hprinted, hexpected, -⟩
    have hnone : printed = [] := hprinted.symm
    obtain ⟨line, rest, -, hlines⟩ := exists_expectedLines swedishTime (sampleLog none)
    rw [hnone, List.flatMap_cons, hlines] at hexpected
    cases hexpected

/-- Two logs, one of them with two lines, reach the terminal. -/
theorem both_logs_printed : PrintsEveryLog swedishTime
    ⟨true, [sampleLog (some ['a', '\r', '\n', 'b']), sampleLog (some ['m'])], none⟩ [] := by
  refine (@prints_every_log_iff swedishTime (fun _ => [])
    [(0, sampleLog (some ['a', '\r', '\n', 'b'])), (0, sampleLog (some ['m']))] _
    rfl (.cons (by decide) (.cons (by decide) .nil)) []).mpr ?_
  rw [List.forall_mem_cons, List.forall_mem_singleton]
  have hword : ∀ ch, isLineBreak ch = false → Unbroken [ch] := fun ch h => List.forall_mem_singleton.mpr h
  refine ⟨⟨['a', '\r', '\n', 'b'], by decide, .inl (by decide), hword _ (by decide), hword _ (by decide)⟩,
    ⟨['m'], by decide, .inr (by decide), hword _ (by decide), hword _ (by decide)⟩⟩

end delivery
end Srvlog.Web
