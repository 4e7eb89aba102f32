import Srvlog.Syslog.SnortHeaders

/-! The headers of a request, as its lines have them and as the searches in its text find them. -/
namespace Srvlog.Syslog
open Library Data

section lines

def CRLF : Text := ['\r', '\n']

def lower (name : Text) : Text := name.map Char.toLower

/-- The value of a line with this field name. -/
def fieldValue (name line : Text) : Option Text :=
  match line.dropWhile fun ch => decide (ch ≠ ':') with
  | _ :: value => if lower (line.takeWhile fun ch => decide (ch ≠ ':')) = lower name then some value else none
  | [] => none

/-- The trimmed value of the first line with this field name. -/
def headerValue (name : Text) (lines : List Text) : Option Text := (lines.findSome? (fieldValue name)).map trim

/-- What follows the name, in any case, and a colon at the beginning of a text, if anything does. -/
def mentionedAt (name text : Text) : Option Text :=
  match text.drop name.length with
  | ':' :: rest => if lower (text.take name.length) = lower name ∧ rest ≠ [] then some rest else none
  | _ => none

/-- What follows the first mention of the name in a line. -/
def mentioned (name line : Text) : Option Text := line.tails.findSome? (mentionedAt name)

theorem mentionedAt_eq_some_iff {name text rest : Text} :
    mentionedAt name text = some rest ↔ ∃ n, text = n ++ ':' :: rest ∧ lower n = lower name ∧ rest ≠ [] := by
  have hlength {n : Text} (h : lower n = lower name) : n.length = name.length := by
    have hmap := congrArg List.length h
    rwa [lower, lower, List.length_map, List.length_map] at hmap
  constructor
  · intro h
    unfold mentionedAt at h
    split at h
    · next rest' hdrop =>
      obtain ⟨⟨hsame, hne⟩, hrest⟩ := (Option.ite_none_right_eq_some).mp h
      obtain rfl := Option.some.inj hrest
      refine ⟨text.take name.length, ?_, hsame, hne⟩
      rw [← hdrop, List.take_append_drop]
    · cases h
  · rintro ⟨n, rfl, hsame, hne⟩
    unfold mentionedAt
    rw [← hlength hsame, List.drop_left, List.take_left]
    exact if_pos ⟨hsame, hne⟩

theorem mentioned_nil (name : Text) : mentioned name [] = none := by
  rw [mentioned, List.tails, List.findSome?_singleton, mentionedAt, List.drop_nil]

theorem mentioned_cons (name : Text) (ch : Char) (line : Text) :
    mentioned name (ch :: line) = (mentionedAt name (ch :: line)).or (mentioned name line) := by
  rw [mentioned, List.tails_cons, List.findSome?_cons]
  cases mentionedAt name (ch :: line) with
  | some rest => rfl
  | none => rfl

theorem mentionedAt_of_fieldValue {name line value : Text} (h : fieldValue name line = some value) (hne : value ≠ []) :
    mentionedAt name line = some value := by
  unfold fieldValue at h
  split at h
  · next colon value' hdrop =>
    obtain ⟨hsame, hvalue⟩ := (Option.ite_none_right_eq_some).mp h
    obtain rfl := Option.some.inj hvalue
    have hcolon : ':' = colon := by
      have hhead := List.head?_dropWhile_not (fun ch => decide (ch ≠ ':')) line
      rw [hdrop] at hhead
      exact (not_not.mp (of_decide_eq_false hhead)).symm
    subst hcolon
    refine mentionedAt_eq_some_iff.mpr ⟨_, ?_, hsame, hne⟩
    rw [← hdrop, List.takeWhile_append_dropWhile]
  · cases h

end lines

section search
variable {name group : Text}

def nameRegex (name : Text) : Regex :=
  name.foldr (fun ch r => .seq (.repeated true 1 (some 1) fun c => decide (c.toLower = ch.toLower)) r) (.literal [':'])

theorem matches_nameRegex {beyond before m rest : Text} (h : Regex.Matches beyond (nameRegex name) before m rest) :
    ∃ n, m = n ++ [':'] ∧ lower n = lower name := by
  induction name generalizing before m with
  | nil => exact ⟨[], h, rfl⟩
  | cons ch name ih =>
    obtain ⟨m₁, m₂, rfl, ⟨hall, hleast, hmost⟩, h₂⟩ := h
    obtain ⟨c, rfl⟩ := List.length_eq_one_iff.mp (Nat.le_antisymm (hmost 1 rfl) hleast)
    obtain ⟨n, rfl, hn⟩ := ih h₂
    have hc : c.toLower = ch.toLower := of_decide_eq_true (hall c List.mem_cons_self)
    refine ⟨c :: n, rfl, ?_⟩
    rw [lower, List.map_cons, hc, ← lower, hn]
    rfl

theorem first_nameRegex {n : Text} (h : lower n = lower name) (beyond before rest : Text) :
    Regex.first beyond (nameRegex name) before (n ++ ':' :: rest) = some ⟨n ++ [':'], rest, []⟩ := by
  induction name generalizing n before with
  | nil =>
    obtain rfl := List.map_eq_nil_iff.mp h
    exact Regex.first_literal [':'] rest
  | cons ch name ih =>
    obtain ⟨c, n, rfl, hc, hn⟩ := List.map_eq_cons_iff.mp h
    have hhead : Regex.first beyond (.repeated true 1 (some 1) fun c => decide (c.toLower = ch.toLower)) before
        ([c] ++ (n ++ ':' :: rest)) = some ⟨[c], n ++ ':' :: rest, []⟩ :=
      Regex.first_greedy (by simpa using hc) le_rfl (fun _ hbound => (Option.some.inj hbound).le) (.inl rfl)
    exact Regex.first_seq hhead (ih hn _)

/-- At a place of a line the pattern reads the rest of the line, if the name is mentioned there. -/
theorem first_httpHeaderRegex (hname : ∀ ch ∈ lower name, ch ∉ ['\r', '\n']) {line tail : Text}
    (hline : ∀ ch ∈ line, ch ∉ ['\r', '\n']) (htail : ∀ ch ∈ tail.head?, ch ∈ ['\r', '\n']) (beyond before : Text) :
    Regex.first beyond (httpHeaderRegex name group) before (line ++ tail) =
      (mentionedAt name line).map fun rest => ⟨line, tail, [(group, rest)]⟩ := by
  have hregex : httpHeaderRegex name group =
      .seq (nameRegex name) (.group group (.repeated true 1 none fun c => decide (c ∉ ['\r', '\n']))) := rfl
  rw [hregex]
  cases hmention : mentionedAt name line with
  | some rest =>
    obtain ⟨n, rfl, hn, hne⟩ := mentionedAt_eq_some_iff.mp hmention
    have hrest : ∀ ch ∈ rest, decide (ch ∉ ['\r', '\n']) = true := fun ch hch =>
      decide_eq_true (hline ch (List.mem_append_right n (List.mem_cons_of_mem _ hch)))
    have hvalue := Regex.first_group group (@Regex.first_greedy beyond ((n ++ [':']).reverse ++ before)
      (fun c => decide (c ∉ ['\r', '\n'])) 1 none rest tail hrest (List.length_pos_iff.mpr hne) (fun _ h => nomatch h)
      (.inr fun ch hch => decide_eq_false (not_not.mpr (htail ch hch))))
    have hboth := Regex.first_seq (first_nameRegex hn beyond before (rest ++ tail)) hvalue
    simpa using hboth
  | none =>
    rw [Option.map_none, Regex.first_eq_none_iff]
    rintro m rest htext ⟨m₁, w, rfl, h₁, hall, hlength, -⟩
    obtain ⟨n, rfl, hn⟩ := matches_nameRegex h₁
    have hbreak (ch : Char) (h : ch ∈ ['\r', '\n']) : ch.toLower = ch := by
      revert h
      revert ch
      decide
    have hin : ∀ ch ∈ (n ++ [':']) ++ w, decide (ch ∉ ['\r', '\n']) = true := by
      intro ch hch
      rw [decide_eq_true_eq]
      intro hmem
      rcases List.mem_append.mp hch with hch | hch
      · rcases List.mem_append.mp hch with hch | hch
        · refine hname ch ?_ hmem
          rw [← hn, ← hbreak ch hmem]
          exact List.mem_map_of_mem hch
        · rw [List.mem_singleton.mp hch] at hmem
          exact absurd hmem (by decide)
      · exact of_decide_eq_true (hall ch hch) hmem
    have hprefix : (n ++ [':']) ++ w <+: line := by
      have hall' : ∀ ch ∈ line, decide (ch ∉ ['\r', '\n']) = true := fun ch hch => decide_eq_true (hline ch hch)
      have htake : ((n ++ [':']) ++ w).length ≤ ((line ++ tail).takeWhile fun ch => decide (ch ∉ ['\r', '\n'])).length := by
        rw [htext]
        exact Regex.length_le_length_takeWhile.mpr hin
      have hend : tail.takeWhile (fun ch => decide (ch ∉ ['\r', '\n'])) = [] := by
        cases tail with
        | nil => rfl
        | cons ch tail => exact List.takeWhile_cons_of_neg fun h => of_decide_eq_true h (htail ch rfl)
      rw [List.takeWhile_append_of_pos hall', hend, List.append_nil] at htake
      exact List.prefix_of_prefix_length_le ⟨_, htext.symm⟩ (List.prefix_append line tail) htake
    obtain ⟨more, rfl⟩ := hprefix
    have hsome : mentionedAt name ((n ++ [':']) ++ w ++ more) = some (w ++ more) := by
      refine mentionedAt_eq_some_iff.mpr ⟨n, by simp, hn, ?_⟩
      rintro h
      rw [(List.append_eq_nil_iff.mp h).1] at hlength
      cases hlength
    rw [hsome] at hmention
    cases hmention

/-- The groups of the match that the search behind a place finds. -/
def groupsFound (name group before text : Text) : Option (List (Text × Text)) :=
  (Regex.find [] (httpHeaderRegex name group) before text).map fun found => found.2.groups

theorem groupsFound_cons (before : Text) (ch : Char) (text : Text) : groupsFound name group before (ch :: text) =
    ((Regex.first [] (httpHeaderRegex name group) before (ch :: text)).map (·.groups)).or
      (groupsFound name group (ch :: before) text) := by
  unfold groupsFound
  rw [Regex.find]
  cases Regex.first [] (httpHeaderRegex name group) before (ch :: text) with
  | some x => rfl
  | none =>
    rw [Option.map_none, Option.none_or, Option.map_map]
    rfl

theorem groupsFound_line (hname : ∀ ch ∈ lower name, ch ∉ ['\r', '\n']) {line tail : Text}
    (hline : ∀ ch ∈ line, ch ∉ ['\r', '\n']) (htail : ∀ ch ∈ tail.head?, ch ∈ ['\r', '\n']) (before : Text) :
    groupsFound name group before (line ++ tail) = ((mentioned name line).map fun rest => [(group, rest)]).or
      (groupsFound name group (line.reverse ++ before) tail) := by
  induction line generalizing before with
  | nil =>
    rw [mentioned_nil]
    rfl
  | cons ch line ih =>
    rw [List.forall_mem_cons] at hline
    have hfirst := @first_httpHeaderRegex name group hname (ch :: line) tail (List.forall_mem_cons.mpr hline) htail [] before
    rw [List.cons_append, groupsFound_cons, ← List.cons_append, hfirst, ih hline.2, mentioned_cons]
    cases mentionedAt name (ch :: line) with
    | some rest => rfl
    | none => simp

/-- The search finds the first mention in the first line that has one. -/
theorem groupsFound_lines (hname : ∀ ch ∈ lower name, ch ∉ ['\r', '\n']) {lines : List Text}
    (hlines : ∀ line ∈ lines, ∀ ch ∈ line, ch ∉ ['\r', '\n']) (before : Text) :
    groupsFound name group before (CRLF.intercalate lines) =
      (lines.findSome? (mentioned name)).map fun rest => [(group, rest)] := by
  have hend (before : Text) : groupsFound name group before [] = none := by
    have hfirst := @first_httpHeaderRegex name group hname [] [] (fun _ h => nomatch h) (fun _ h => nomatch h) [] before
    rw [groupsFound, Regex.find]
    simp only [List.append_nil] at hfirst
    rw [hfirst, mentionedAt, List.drop_nil]
    rfl
  have hbreak (before : Text) {ch : Char} (hch : ch ∈ ['\r', '\n']) (text : Text) :
      groupsFound name group before (ch :: text) = groupsFound name group (ch :: before) text := by
    have hfirst := @first_httpHeaderRegex name group hname [] (ch :: text) (fun _ h => nomatch h)
      (fun c hc => Option.some.inj hc ▸ hch) [] before
    rw [List.nil_append] at hfirst
    rw [groupsFound_cons, hfirst, mentionedAt, List.drop_nil]
    rfl
  induction lines generalizing before with
  | nil => exact hend before
  | cons line lines ih =>
    rw [List.forall_mem_cons] at hlines
    cases lines with
    | nil =>
      have hline := @groupsFound_line name group hname line [] hlines.1 (fun _ h => nomatch h) before
      rw [List.append_nil, hend, Option.or_none] at hline
      rw [List.intercalate_singleton, hline, List.findSome?_singleton]
    | cons next lines =>
      have hcrlf : ∀ ch ∈ (CRLF ++ CRLF.intercalate (next :: lines)).head?, ch ∈ ['\r', '\n'] := by
        intro ch hch
        obtain rfl := Option.some.inj hch
        exact List.mem_cons_self
      rw [List.intercalate_cons_cons, List.append_assoc, groupsFound_line hname hlines.1 hcrlf, List.findSome?_cons]
      cases mentioned name line with
      | some rest => rfl
      | none =>
        rw [Option.map_none, Option.none_or]
        change groupsFound name group _ ('\r' :: '\n' :: CRLF.intercalate (next :: lines)) = _
        rw [hbreak _ (by decide), hbreak _ (by decide), ih hlines.2]

end search

section headers

/-- The first mention of the name is in its header, or it reads the same; a name that no line has as its
field name is mentioned nowhere. -/
def FirstMentionReads (name : Text) (lines : List Text) : Prop :=
  (∀ line ∈ lines, fieldValue name line = none ∧ mentioned name line = none) ∨
    ∃ before line after rest value, lines = before ++ line :: after ∧ (∀ other ∈ before, mentioned name other = none) ∧
      mentioned name line = some rest ∧ lines.findSome? (fieldValue name) = some value ∧ trim rest = trim value

theorem firstMentionReads_iff {name : Text} {lines : List Text} : FirstMentionReads name lines ↔
    (lines.findSome? (mentioned name)).map trim = headerValue name lines := by
  unfold FirstMentionReads headerValue
  constructor
  · rintro (hnone | ⟨before, line, after, rest, value, rfl, hbefore, hrest, hvalue, htrim⟩)
    · rw [List.findSome?_eq_none_iff.mpr fun line hline => (hnone line hline).1,
        List.findSome?_eq_none_iff.mpr fun line hline => (hnone line hline).2]
    · rw [hvalue, List.findSome?_eq_some_iff.mpr ⟨before, line, after, rfl, hrest, hbefore⟩, Option.map_some, htrim]
      rfl
  · intro h
    cases hmention : lines.findSome? (mentioned name) with
    | none =>
      rw [hmention] at h
      have hvalue := Option.map_eq_none_iff.mp h.symm
      rw [List.findSome?_eq_none_iff] at hmention hvalue
      exact .inl fun line hline => ⟨hvalue line hline, hmention line hline⟩
    | some rest =>
      rw [hmention] at h
      obtain ⟨value, hvalue, htrim⟩ := Option.map_eq_some_iff.mp h.symm
      obtain ⟨before, line, after, hlines, hrest, hbefore⟩ := List.findSome?_eq_some_iff.mp hmention
      exact .inr ⟨before, line, after, rest, value, hlines, hbefore, hrest, hvalue, htrim.symm⟩

def httpHeaders : List Text := ["Host".toList, "X-Forwarded-For".toList, "X-Real-IP".toList]

/-- The parser finds the headers that the lines have. -/
def ExtractsHeaders (lines : List Text) : Prop :=
  ∃ header, createHttpHeader (CRLF.intercalate lines) = .ok header ∧ ∀ data, header.fillSnortLogData data =
    { data with host := headerValue "Host".toList lines, xForwardedFor := headerValue "X-Forwarded-For".toList lines,
                xRealIp := headerValue "X-Real-IP".toList lines }

theorem trimmedGroup_lines {name : Text} (group : Text) (hname : ∀ ch ∈ lower name, ch ∉ ['\r', '\n']) {lines : List Text}
    (hlines : ∀ line ∈ lines, ∀ ch ∈ line, ch ∉ ['\r', '\n']) :
    trimmedGroup (httpHeaderRegex name group) (CRLF.intercalate lines) group =
      (lines.findSome? (mentioned name)).map trim := by
  have hgroups := @groupsFound_lines name group hname lines hlines []
  unfold groupsFound at hgroups
  unfold trimmedGroup Regex.findIn groupOf
  cases hfind : Regex.find [] (httpHeaderRegex name group) [] (CRLF.intercalate lines) with
  | none =>
    rw [hfind, Option.map_none] at hgroups
    rw [Option.map_eq_none_iff.mp hgroups.symm]
    rfl
  | some found =>
    rw [hfind, Option.map_some] at hgroups
    obtain ⟨rest, hrest, hfound⟩ := Option.map_eq_some_iff.mp hgroups.symm
    rw [hrest, Option.bind_some, ← hfound, List.lookup_cons_self]

theorem occursIn_lines {name : Text} (group : Text) (hname : ∀ ch ∈ lower name, ch ∉ ['\r', '\n']) {lines : List Text}
    (hlines : ∀ line ∈ lines, ∀ ch ∈ line, ch ∉ ['\r', '\n']) :
    (httpHeaderRegex name group).occursIn (CRLF.intercalate lines) = (lines.findSome? (mentioned name)).isSome := by
  have hgroups := congrArg Option.isSome (@groupsFound_lines name group hname lines hlines [])
  rwa [groupsFound, Option.isSome_map, Option.isSome_map] at hgroups

/-- A header with a value is mentioned. -/
theorem isSome_mentioned {name line value : Text} (h : fieldValue name line = some value) (hne : value ≠ []) :
    (mentioned name line).isSome := by
  have hat := mentionedAt_of_fieldValue h hne
  cases line with
  | nil =>
    obtain ⟨n, hn, -⟩ := mentionedAt_eq_some_iff.mp hat
    exact absurd hn.symm (List.append_ne_nil_of_right_ne_nil n (List.cons_ne_nil _ _))
  | cons ch line =>
    rw [mentioned_cons, hat]
    rfl

theorem extractsHeaders_iff (lines : List Text) (hlines : ∀ line ∈ lines, ∀ ch ∈ line, ch ∉ ['\r', '\n'])
    (hpresent : ∃ name ∈ httpHeaders, ∃ line ∈ lines, ∃ value, fieldValue name line = some value ∧ trim value ≠ []) :
    ExtractsHeaders lines ↔ ∀ name ∈ httpHeaders, FirstMentionReads name lines := by
  have hhost : ∀ ch ∈ lower "Host".toList, ch ∉ ['\r', '\n'] := by decide
  have hforwarded : ∀ ch ∈ lower "X-Forwarded-For".toList, ch ∉ ['\r', '\n'] := by decide
  have hreal : ∀ ch ∈ lower "X-Real-IP".toList, ch ∉ ['\r', '\n'] := by decide
  have hcontains : isContainsHttpHeader (CRLF.intercalate lines) = true := by
    obtain ⟨name, hname, line, hline, value, hvalue, htrim⟩ := hpresent
    have hne : value ≠ [] := by
      rintro rfl
      exact htrim rfl
    have hsome : (lines.findSome? (mentioned name)).isSome :=
      List.findSome?_isSome_iff.mpr ⟨line, hline, isSome_mentioned hvalue hne⟩
    simp only [isContainsHttpHeader, HOST_REGEX, X_FORWARDED_FOR_REGEX, X_REAL_IP_REGEX, occursIn_lines _ hhost hlines,
      occursIn_lines _ hforwarded hlines, occursIn_lines _ hreal hlines, Bool.or_eq_true]
    simp only [httpHeaders, List.mem_cons, List.not_mem_nil, or_false] at hname
    rcases hname with rfl | rfl | rfl
    · exact .inl (.inl hsome)
    · exact .inl (.inr hsome)
    · exact .inr hsome
  have hheader : createHttpHeader (CRLF.intercalate lines) = .ok ⟨(lines.findSome? (mentioned "Host".toList)).map trim,
      (lines.findSome? (mentioned "X-Forwarded-For".toList)).map trim,
      (lines.findSome? (mentioned "X-Real-IP".toList)).map trim⟩ := by
    rw [createHttpHeader, if_pos hcontains, HOST_REGEX, X_FORWARDED_FOR_REGEX, X_REAL_IP_REGEX,
      trimmedGroup_lines _ hhost hlines, trimmedGroup_lines _ hforwarded hlines, trimmedGroup_lines _ hreal hlines]
  simp only [httpHeaders, List.forall_mem_cons, firstMentionReads_iff]
  constructor
  · rintro ⟨header, hcreated, hfill⟩
    obtain rfl := Except.ok.inj (hheader.symm.trans hcreated)
    have hdata := hfill {}
    have hhost' := congrArg SnortLogData.host hdata
    have hforwarded' := congrArg SnortLogData.xForwardedFor hdata
    have hreal' := congrArg SnortLogData.xRealIp hdata
    exact ⟨hhost', hforwarded', hreal', fun _ h => absurd h List.not_mem_nil⟩
  · rintro ⟨hhost', hforwarded', hreal', -⟩
    refine ⟨_, hheader, fun data => ?_⟩
    rw [HttpHeader.fillSnortLogData, hhost', hforwarded', hreal']

def requestLines : List Text :=
  ["GET / HTTP/1.1".toList, "Host: www.test.org".toList, "X-Geo: US".toList, "x-real-ip: 54.83.132.159".toList, []]

theorem headers_of_request : ExtractsHeaders requestLines := by
  refine (extractsHeaders_iff requestLines (by decide) ?_).mpr ?_
  · exact ⟨"Host".toList, by decide, "Host: www.test.org".toList, by decide, " www.test.org".toList, by decide, by decide⟩
  · simp only [httpHeaders, List.forall_mem_cons, firstMentionReads_iff]
    exact ⟨by decide, by decide, by decide, fun _ h => absurd h List.not_mem_nil⟩

def proxyLines : List Text :=
  ["GET / HTTP/1.1".toList, "X-Forwarded-Host: proxy.test.org".toList, "Host: www.test.org".toList, []]

/-- The name of the header that a proxy has added ends in the name of another one. -/
theorem host_of_proxy : (∀ line ∈ proxyLines, ∀ ch ∈ line, ch ∉ ['\r', '\n']) ∧
    (fieldValue "Host".toList "Host: www.test.org".toList).isSome ∧
    createHttpHeader (CRLF.intercalate proxyLines) = .ok ⟨some "proxy.test.org".toList, none, none⟩ ∧
    ¬ ExtractsHeaders proxyLines := by
  have hcreated : createHttpHeader (CRLF.intercalate proxyLines) = .ok ⟨some "proxy.test.org".toList, none, none⟩ := by
    decide
  refine ⟨by decide, by decide, hcreated, ?_⟩
  rintro ⟨header, hcreated', hfill⟩
  obtain rfl := Except.ok.inj (hcreated.symm.trans hcreated')
  have hhost : some "proxy.test.org".toList = headerValue "Host".toList proxyLines :=
    congrArg SnortLogData.host (hfill {})
  exact absurd hhost (by decide)

end headers
end Srvlog.Syslog
