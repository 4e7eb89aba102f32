import Srvlog.Syslog.OssecHashes
import Srvlog.Syslog.SuricataPayload
import Srvlog.Syslog.SyslogAdapter

/-! Which texts the parsers behind the guards accept, and that their events are stored. -/
namespace Srvlog.Syslog
open Library Data Collector

section ossec

/-- The date that the pattern of ossec finds. -/
def foundDate (rawMessage : Text) : Option Text :=
  (MESSAGE_REGEX.findIn rawMessage).bind fun found => groupOf found.2 "DATE".toList

def NamesMonth (date : Text) : Prop := date.take 3 ∈ MONTHS

instance (date : Text) : Decidable (NamesMonth date) := inferInstanceAs (Decidable (date.take 3 ∈ MONTHS))

theorem exists_foundDate {rawMessage : Text} (h : isSnortMessageFromOssec rawMessage = true) :
    ∃ skipped x, ∃ date : OssecDate, MESSAGE_REGEX.findIn rawMessage = some (skipped, x) ∧
      groupOf x "DATE".toList = some date.text := by
  obtain ⟨⟨skipped, x⟩, hfind⟩ := Option.isSome_iff_exists.mp h
  obtain ⟨before, text, hfirst⟩ := Regex.first_of_find hfind
  obtain ⟨m, rest, hlookup, -, hmatch⟩ := Regex.exists_leading_group (List.mem_of_mem_head? hfirst)
  obtain ⟨date, rfl⟩ := matches_ossecDateRegex_iff.mp hmatch
  exact ⟨skipped, x, date, hfind, hlookup⟩

theorem exists_numbers (date : OssecDate) : ∃ day hour minute second,
    parseNumbers [' ', ':', ':'] ((date.text.drop 3).dropWhile fun ch => decide (ch = ' ')) =
      some [day, hour, minute, second] := by
  have hsplit : date.text = ([date.capital] ++ date.small) ++ (date.blanks ++ (date.day ++ ' ' :: (date.hour ++ ':' ::
      (date.minute ++ ':' :: date.second)))) := by
    rw [List.append_assoc]
    rfl
  have hlength : ([date.capital] ++ date.small).length = 3 := by
    rw [List.length_append, date.small_length, List.length_singleton]
  have hne {t : Text} {least most : Nat} (h : DigitsBetween (least + 1) most t) : t ≠ [] :=
    List.ne_nil_of_length_pos (Nat.lt_of_lt_of_le (Nat.succ_pos least) h.2.1)
  have hblanks : (date.text.drop 3).dropWhile (fun ch => decide (ch = ' ')) =
      date.day ++ ' ' :: (date.hour ++ ':' :: (date.minute ++ ':' :: date.second)) := by
    rw [hsplit, ← hlength, List.drop_left, dropWhile_blanks date.blanks_blank (hne date.day_digits) date.day_digits.1]
  rw [hblanks, parseNumbers_cons (hne date.day_digits) date.day_digits.1 rfl,
    parseNumbers_cons (hne date.hour_digits) date.hour_digits.1 rfl,
    parseNumbers_cons (hne date.minute_digits) date.minute_digits.1 rfl,
    parseNumbers_last (hne date.second_digits) date.second_digits.1]
  exact ⟨_, _, _, _, rfl⟩

/-- All that the pattern does not ask of the date is the name of its month. -/
theorem exists_ossecSnortMessage_iff (platform : Platform) {rawMessage : Text}
    (h : isSnortMessageFromOssec rawMessage = true) :
    (∃ message, createOssecSnortMessage platform rawMessage = .ok message) ↔
      ∀ date ∈ foundDate rawMessage, NamesMonth date := by
  obtain ⟨skipped, x, date, hfind, hgroup⟩ := exists_foundDate h
  obtain ⟨day, hour, minute, second, hnumbers⟩ := exists_numbers date
  have hfound : foundDate rawMessage = some date.text := by
    rw [foundDate, hfind, Option.bind_some, hgroup]
  have hmonth : (MONTHS.findIdx? fun name => decide (name = date.text.take 3)).isSome ↔ NamesMonth date.text := by
    rw [List.findIdx?_isSome, List.any_eq_true]
    constructor
    · rintro ⟨name, hname, hsame⟩
      rwa [of_decide_eq_true hsame] at hname
    · exact fun hname => ⟨_, hname, decide_eq_true rfl⟩
  rw [hfound]
  simp only [createOssecSnortMessage, hfind, hgroup, Option.getD_some, parseOssecDate, hnumbers]
  cases hindex : MONTHS.findIdx? fun name => decide (name = date.text.take 3) with
  | none =>
    rw [hindex] at hmonth
    constructor
    · rintro ⟨message, hmessage⟩
      cases hmessage
    · intro hname
      exact absurd (hmonth.mpr (hname _ rfl)) Bool.false_ne_true
  | some month =>
    rw [hindex] at hmonth
    constructor
    · rintro - date' hdate'
      rw [← Option.some.inj hdate']
      exact hmonth.mp rfl
    · exact fun _ => ⟨_, rfl⟩

end ossec

section suricata
variable {mapper : SuricataMapper}

/-- The field is missing, empty or base64. -/
def DecodesField (aRoot : JsonNode) (aName : Text) : Prop :=
  ∀ node ∈ aRoot.get aName, node.asText = [] ∨ (decodeBase64 node.asText).isSome

theorem exists_replaceNode_iff {aRoot : JsonNode} {aName : Text} :
    (∃ decoded, replaceNode mapper aRoot aName = .ok decoded) ↔ DecodesField aRoot aName := by
  rw [replaceNode, DecodesField]
  cases aRoot.get aName with
  | none => exact ⟨fun _ _ hnode => absurd hnode (Option.not_mem_none _), fun _ => ⟨_, rfl⟩⟩
  | some node =>
    simp only [Option.mem_def, Option.some.injEq, forall_eq']
    split
    · next hempty => exact ⟨fun _ => .inl hempty, fun _ => ⟨_, rfl⟩⟩
    · next hne =>
      cases decodeBase64 node.asText with
      | none =>
        constructor
        · rintro ⟨decoded, hdecoded⟩
          cases hdecoded
        · intro h
          exact absurd (h.resolve_left hne) Bool.false_ne_true
      | some bytes => exact ⟨fun _ => .inr rfl, fun _ => ⟨_, rfl⟩⟩

theorem get_of_replaceNode {aRoot decoded : JsonNode} {aName name : Text} (h : replaceNode mapper aRoot aName = .ok decoded)
    (hne : name ≠ aName) : decoded.get name = aRoot.get name := by
  rw [replaceNode] at h
  split at h
  · rw [Except.ok.inj h]
  · dsimp only at h
    split at h
    · rw [Except.ok.inj h]
    · split at h
      · cases h
      · rw [← Except.ok.inj h, JsonNode.get_set_of_ne _ _ hne]

/-- The fields of an event that the manager decodes. -/
structure DecodesEvent (jsonRoot : JsonNode) : Prop where
  payload : DecodesField jsonRoot "payload".toList
  packet : DecodesField jsonRoot "packet".toList
  body : ∀ httpNode ∈ jsonRoot.get "http".toList, DecodesField httpNode "http_response_body".toList

theorem exists_replaceBase64ToUtf8_iff {jsonRoot : JsonNode} :
    (∃ decoded, replaceBase64ToUtf8 mapper jsonRoot = .ok decoded) ↔ DecodesEvent jsonRoot := by
  constructor
  · rintro ⟨decoded, h⟩
    obtain ⟨first, hfirst, h⟩ := exists_of_bind_eq_ok h
    obtain ⟨second, hsecond, h⟩ := exists_of_bind_eq_ok h
    have hpayload := exists_replaceNode_iff.mp ⟨first, hfirst⟩
    have hpacket := exists_replaceNode_iff.mp ⟨second, hsecond⟩
    rw [DecodesField, get_of_replaceNode hfirst (by decide)] at hpacket
    have hhttp : second.get "http".toList = jsonRoot.get "http".toList := by
      rw [get_of_replaceNode hsecond (by decide), get_of_replaceNode hfirst (by decide)]
    refine ⟨hpayload, hpacket, fun httpNode hnode => ?_⟩
    rw [hhttp, Option.mem_def.mp hnode] at h
    obtain ⟨body, hbody, -⟩ := exists_of_bind_eq_ok h
    exact exists_replaceNode_iff.mp ⟨body, hbody⟩
  · intro h
    obtain ⟨first, hfirst⟩ := (@exists_replaceNode_iff mapper _ _).mpr h.payload
    have hpacket : DecodesField first "packet".toList := by
      rw [DecodesField, get_of_replaceNode hfirst (by decide)]
      exact h.packet
    obtain ⟨second, hsecond⟩ := (@exists_replaceNode_iff mapper _ _).mpr hpacket
    have hhttp : second.get "http".toList = jsonRoot.get "http".toList := by
      rw [get_of_replaceNode hsecond (by decide), get_of_replaceNode hfirst (by decide)]
    simp only [replaceBase64ToUtf8, hfirst, hsecond, hhttp, bind, Except.bind]
    cases hnode : jsonRoot.get "http".toList with
    | none => exact ⟨second, rfl⟩
    | some httpNode =>
      obtain ⟨body, hbody⟩ := (@exists_replaceNode_iff mapper _ _).mpr (h.body httpNode hnode)
      simp only [hbody]
      exact ⟨_, rfl⟩

/-- The mapper reads an event with a date and with fields that can be decoded. -/
def ReadableJson (mapper : SuricataMapper) (jsonText : Text) : Prop :=
  ∃ jsonRoot surricataMessage, mapper.readTree jsonText = .ok jsonRoot ∧
    mapper.convertValue jsonRoot = .ok surricataMessage ∧ surricataMessage.timestamp.isSome ∧ DecodesEvent jsonRoot

def jsonText (aRawMessage : Text) : Text := aRawMessage.dropWhile fun ch => decide (ch ≠ '{')

theorem extractJson_of_guard {aRawMessage : Text} (h : isMessageFromSurricata aRawMessage = true) :
    extractJson aRawMessage = .ok (jsonText aRawMessage) := by
  rw [isMessageFromSurricata, Bool.and_eq_true, Bool.and_eq_true] at h
  have hbrace : '{' ∈ aRawMessage := (contains_iff.mp h.1.2).subset (List.mem_singleton_self _)
  rw [extractJson, if_pos hbrace]
  rfl

theorem exists_snortLogData_iff (hwrites : ∀ node, ∃ json, mapper.writeValueAsString node = .ok json)
    {aRawMessage : Text} (h : isMessageFromSurricata aRawMessage = true) :
    (∃ snortLogData, createSnortLogData mapper aRawMessage = .ok snortLogData) ↔
      ReadableJson mapper (jsonText aRawMessage) := by
  have hjson := extractJson_of_guard h
  constructor
  · rintro ⟨snortLogData, h⟩
    obtain ⟨json, htext, h⟩ := exists_of_bind_eq_ok h
    obtain rfl := Except.ok.inj (hjson.symm.trans htext)
    obtain ⟨jsonRoot, hread, h⟩ := exists_of_bind_eq_ok h
    obtain ⟨surricataMessage, hconvert, h⟩ := exists_of_bind_eq_ok h
    obtain ⟨decoded, hdecoded, h⟩ := exists_of_bind_eq_ok h
    obtain ⟨payloadJson, -, h⟩ := exists_of_bind_eq_ok h
    refine ⟨jsonRoot, surricataMessage, hread, hconvert, ?_, exists_replaceBase64ToUtf8_iff.mp ⟨decoded, hdecoded⟩⟩
    rw [convertToSnort] at h
    split at h
    · cases h
    · next timestamp htimestamp => rw [htimestamp, Option.isSome_some]
  · rintro ⟨jsonRoot, surricataMessage, hread, hconvert, htimestamp, hdecodes⟩
    obtain ⟨decoded, hdecoded⟩ := (@exists_replaceBase64ToUtf8_iff mapper _).mpr hdecodes
    obtain ⟨payloadJson, hwritten⟩ := hwrites decoded
    obtain ⟨timestamp, htimestamp⟩ := Option.isSome_iff_exists.mp htimestamp
    simp only [createSnortLogData, hjson, hread, hconvert, hdecoded, hwritten, convertToSnort, htimestamp, bind, Except.bind]
    exact ⟨_, rfl⟩

end suricata

section collector
variable {σ : Type} {collector : ILogCollector σ} {calls : σ → List CollectorCall} {platform : Platform}
  {mapper : SuricataMapper}

/-- The collector accepts every call, notes it and gives identifiers to the logs that it saves. -/
structure Accepts (collector : ILogCollector σ) (calls : σ → List CollectorCall) : Prop where
  saveLog : ∀ log s, ∃ id s', collector.saveLog log s = (.ok { log with id := some id }, s') ∧
    calls s' = calls s ++ [.saveLog log]
  saveSnortLog : ∀ snortLog s, ∃ s', collector.saveSnortLog snortLog s = (.ok ⟨⟩, s') ∧
    calls s' = calls s ++ [.saveSnortLog snortLog]
  saveOssecLog : ∀ ossecLog s, ∃ s', collector.saveOssecLog ossecLog s = (.ok ⟨⟩, s') ∧
    calls s' = calls s ++ [.saveOssecLog ossecLog]

/-- The call saves the log of an event, or the alert that one of the parsers reads from its text. -/
def Saves (mapper : SuricataMapper) (log : LogData) (rawMessage : Text) : CollectorCall → Prop
  | .saveLog saved => saved = { log with hash := saved.hash }
  | .saveSnortLog snortLog => (∃ message, createSnortMessage rawMessage = .ok message ∧ snortLog = message.toSnortLogData) ∨
      createSnortLogData mapper rawMessage = .ok snortLog
  | .saveOssecLog _ => False

/-- The event is handled, and it is saved. -/
def Stored (collector : ILogCollector σ) (calls : σ → List CollectorCall) (platform : Platform) (mapper : SuricataMapper)
    (e : SyslogServerEvent) (log : LogData) (s : σ) : Prop :=
  ∃ s' made, event collector platform mapper e s = (.ok ⟨⟩, s') ∧ calls s' = calls s ++ made ∧
    ∃ call ∈ made, Saves mapper log (getRawMessage e.raw) call

theorem processOssecSnortMessage_of_ok (haccepts : Accepts collector calls) {rawMessage : Text}
    {message : OssecSnortMessage} (hmessage : createOssecSnortMessage platform rawMessage = .ok message) (log : LogData)
    (s : σ) : ∃ s' made, processOssecSnortMessage collector platform rawMessage log s = (.ok ⟨⟩, s') ∧
      calls s' = calls s ++ made ∧ .saveLog { log with hash := some message.hash } ∈ made := by
  obtain ⟨id, s₁, hsave, hcalls⟩ := haccepts.saveLog { log with hash := some message.hash } s
  obtain ⟨s₂, hossec, hcalls'⟩ := haccepts.saveOssecLog ⟨id, message.identifier, message.hash, message.date⟩ s₁
  refine ⟨s₂, _, ?_, by rw [hcalls', hcalls, List.append_assoc], List.mem_append_left _ (List.mem_singleton_self _)⟩
  have hread : ofResult (createOssecSnortMessage platform rawMessage) s = (.ok message, s) := congrArg (·, s) hmessage
  rw [processOssecSnortMessage, bind_of_ok hread, bind_of_ok hsave]
  exact hossec

/-- The parser behind the first guard that fires accepts the text. -/
def ReadableText (mapper : SuricataMapper) (rawMessage : Text) : Prop :=
  if isSnortMessageFromOssec rawMessage then ∀ date ∈ foundDate rawMessage, NamesMonth date
  else if isMessageFromSnort rawMessage then ∃ message, createSnortMessage rawMessage = .ok message
  else if isMessageFromSurricata rawMessage then ReadableJson mapper (jsonText rawMessage)
  else True

theorem stored_of_readable (haccepts : Accepts collector calls)
    (hwrites : ∀ node, ∃ json, mapper.writeValueAsString node = .ok json) {e : SyslogServerEvent} {log : LogData}
    (hlog : logOfEvent e = .ok log) (hreadable : ReadableText mapper (getRawMessage e.raw)) (s : σ) :
    Stored collector calls platform mapper e log s := by
  rw [ReadableText] at hreadable
  rw [Stored, event_of_log hlog]
  by_cases hossec : isSnortMessageFromOssec (getRawMessage e.raw) = true
  · rw [if_pos hossec] at hreadable ⊢
    obtain ⟨message, hmessage⟩ := (exists_ossecSnortMessage_iff platform hossec).mpr hreadable
    obtain ⟨s', made, hprocess, hcalls, hmade⟩ := processOssecSnortMessage_of_ok haccepts hmessage log s
    exact ⟨s', made, hprocess, hcalls, _, hmade, rfl⟩
  rw [if_neg hossec] at hreadable ⊢
  by_cases hsnort : isMessageFromSnort (getRawMessage e.raw) = true
  · rw [if_pos hsnort] at hreadable ⊢
    obtain ⟨message, hmessage⟩ := hreadable
    obtain ⟨s', hsave, hcalls⟩ := haccepts.saveSnortLog message.toSnortLogData s
    have hread : ofResult (createSnortMessage (getRawMessage e.raw)) s = (.ok message, s) := congrArg (·, s) hmessage
    refine ⟨s', _, ?_, hcalls, _, List.mem_singleton_self _, .inl ⟨message, hmessage, rfl⟩⟩
    rw [processRawSnortMessage, bind_of_ok hread]
    exact hsave
  rw [if_neg hsnort] at hreadable ⊢
  by_cases hsuricata : isMessageFromSurricata (getRawMessage e.raw) = true
  · rw [if_pos hsuricata] at hreadable ⊢
    obtain ⟨snortLogData, hdata⟩ := (exists_snortLogData_iff hwrites hsuricata).mpr hreadable
    obtain ⟨s', hsave, hcalls⟩ := haccepts.saveSnortLog snortLogData s
    refine ⟨s', _, ?_, hcalls, _, List.mem_singleton_self _, .inr hdata⟩
    rw [processRawMessage, hdata]
    exact hsave
  · rw [if_neg hsuricata]
    obtain ⟨id, s', hsave, hcalls⟩ := haccepts.saveLog log s
    refine ⟨s', _, ?_, hcalls, _, List.mem_singleton_self _, rfl⟩
    rw [bind_of_ok hsave]
    rfl

/-- An event of suricata that is no JSON is only written to the log of the application. -/
theorem event_of_brokenJson {e : SyslogServerEvent} {log : LogData} (hlog : logOfEvent e = .ok log)
    (hossec : isSnortMessageFromOssec (getRawMessage e.raw) = false)
    (hsnort : isMessageFromSnort (getRawMessage e.raw) = false)
    (hsuricata : isMessageFromSurricata (getRawMessage e.raw) = true)
    (hbroken : mapper.readTree (jsonText (getRawMessage e.raw)) = .error .ioException) (s : σ) :
    event collector platform mapper e s = (.ok ⟨⟩, s) := by
  have hdata : createSnortLogData mapper (getRawMessage e.raw) = .error .ioException := by
    simp only [createSnortLogData, extractJson_of_guard hsuricata, hbroken, bind, Except.bind]
  rw [event_of_log hlog, if_neg (Bool.eq_false_iff.mp hossec), if_neg (Bool.eq_false_iff.mp hsnort), if_pos hsuricata,
    processRawMessage, hdata]
  rfl

end collector

/-- Every event is stored unless a parser does not accept it. Of those that are not, a broken text of
suricata does no harm. -/
theorem readable_events_stored {σ : Type} {collector : ILogCollector σ} {calls : σ → List CollectorCall}
    (haccepts : Accepts collector calls) (platform : Platform) {mapper : SuricataMapper}
    (hwrites : ∀ node, ∃ json, mapper.writeValueAsString node = .ok json) {e : SyslogServerEvent} {log : LogData}
    (hlog : logOfEvent e = .ok log) (s : σ) :
    (ReadableText mapper (getRawMessage e.raw) → Stored collector calls platform mapper e log s) ∧
      (isSnortMessageFromOssec (getRawMessage e.raw) = false → isMessageFromSnort (getRawMessage e.raw) = false →
        isMessageFromSurricata (getRawMessage e.raw) = true →
        mapper.readTree (jsonText (getRawMessage e.raw)) = .error .ioException →
        event collector platform mapper e s = (.ok ⟨⟩, s)) :=
  ⟨fun hreadable => stored_of_readable haccepts hwrites hlog hreadable s, fun hossec hsnort hsuricata hbroken =>
    event_of_brokenJson hlog hossec hsnort hsuricata hbroken s⟩

theorem accepts_acceptingCollector : Accepts acceptingCollector fun calls => calls where
  saveLog _ calls := ⟨calls.length, _, rfl, rfl⟩
  saveSnortLog _ _ := ⟨_, rfl, rfl⟩
  saveOssecLog _ _ := ⟨_, rfl, rfl⟩

/-- A mapper that reads one event and no other text. -/
def oneEventMapper : SuricataMapper := suricataMapper (suricataJson "SGVsbG8K".toList) (suricataEvent "SGVsbG8K".toList)

def alertEvent : SyslogServerEvent :=
  ⟨.structured none, some 0, none, none, some "log-1".toList, none, juneDate.text ++ ' ' :: repeatedAlert⟩

def cutEvent : SyslogServerEvent :=
  ⟨.structured none, some 0, none, none, some "log-1".toList, none, "suricata[1]: \x7b\"flow_id\":".toList⟩

def emptyLog : LogData := ⟨some 0, some "log-1".toList, some 16, some 6, none, none, none, none⟩

theorem cutEvent_broken :
    oneEventMapper.readTree (jsonText (getRawMessage cutEvent.raw)) = .error .ioException := by
  have hother : jsonText (getRawMessage cutEvent.raw) ≠ suricataJson "SGVsbG8K".toList := by decide
  have hread (t : Text) : oneEventMapper.readTree t = if t = suricataJson "SGVsbG8K".toList then
    .ok (suricataEvent "SGVsbG8K".toList) else .error .ioException := rfl
  rw [hread, if_neg hother]

theorem alert_stored : Stored acceptingCollector (fun calls => calls) (platformOfYear 2016) oneEventMapper alertEvent
      emptyLog [] ∧
    event acceptingCollector (platformOfYear 2016) oneEventMapper cutEvent [] = (.ok ⟨⟩, []) := by
  have hwrites : ∀ node, ∃ json, oneEventMapper.writeValueAsString node = .ok json := fun _ => ⟨_, rfl⟩
  have halert := readable_events_stored accepts_acceptingCollector (platformOfYear 2016) hwrites
    (rfl : logOfEvent alertEvent = .ok emptyLog) []
  have hcut := readable_events_stored accepts_acceptingCollector (platformOfYear 2016) hwrites
    (rfl : logOfEvent cutEvent = .ok emptyLog) []
  have hossec : isSnortMessageFromOssec (getRawMessage alertEvent.raw) = true := by decide
  have hfound : foundDate (getRawMessage alertEvent.raw) = some juneDate.text := by decide
  refine ⟨halert.1 ?_, hcut.2 (by decide) (by decide) (by decide) cutEvent_broken⟩
  rw [ReadableText, if_pos hossec, hfound]
  intro date hdate
  rw [← Option.some.inj hdate]
  decide

theorem cut_event_not_stored : cutEvent.host ≠ none ∧ logOfEvent cutEvent = .ok emptyLog ∧
    ¬ Stored acceptingCollector (fun calls => calls) (platformOfYear 2016) oneEventMapper cutEvent emptyLog [] := by
  refine ⟨by decide, rfl, ?_⟩
  rintro ⟨calls, made, hevent, hcalls, call, hcall, -⟩
  have hnothing : event acceptingCollector (platformOfYear 2016) oneEventMapper cutEvent [] = (.ok ⟨⟩, []) :=
    event_of_brokenJson rfl (by decide) (by decide) (by decide) cutEvent_broken []
  rw [hnothing] at hevent
  rw [← (Prod.mk.inj hevent).2, List.nil_append] at hcalls
  rw [← hcalls] at hcall
  exact absurd hcall List.not_mem_nil

end Srvlog.Syslog
