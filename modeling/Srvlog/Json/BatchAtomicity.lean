import Mathlib.Data.List.Forall2
import Srvlog.Json.SaveLogs

/-! A request stores all of its messages or none of them. -/
namespace Srvlog.Json
open Library Data

section service
variable {uuid removeIpAddress : Text}

theorem saveMessage_cases (message : Option SaveLogsMessage) (collector : LogCollector) :
    (∃ e after, saveMessage removeIpAddress message collector = (.error e, after)) ∨
      ∃ after log, saveMessage removeIpAddress message collector = (.ok ⟨⟩, after) ∧
        message.map (mapMessage removeIpAddress) = some log ∧ after.stored = collector.stored ++ [log] := by
  cases message with
  | none => exact .inl ⟨_, _, rfl⟩
  | some message =>
    cases houtcome : collector.outcomes 0 with
    | none =>
      have hsave : saveLog (mapMessage removeIpAddress message) collector =
          (.ok ⟨⟩, ⟨collector.stored ++ [mapMessage removeIpAddress message],
            fun n => collector.outcomes (n + 1)⟩) := by
        rw [saveLog, houtcome]
      exact .inr ⟨_, _, tryCatch_of_ok hsave, rfl, rfl⟩
    | some e =>
      have hsave : saveLog (mapMessage removeIpAddress message) collector =
          (.error e, ⟨collector.stored, fun n => collector.outcomes (n + 1)⟩) := by
        rw [saveLog, houtcome]
      left
      rw [saveMessage, tryCatch_of_error hsave]
      cases e with
      | exception e => exact ⟨_, _, rfl⟩
      | processJson e => exact ⟨_, _, rfl⟩
      | error text => exact ⟨_, _, rfl⟩

theorem exists_of_map_eq_map_some {α β : Type} {f : α → β} {as : List (Option α)} {bs : List β}
    (h : as.map (Option.map f) = bs.map some) : ∃ items : List α, as = items.map some ∧ bs = items.map f := by
  induction as generalizing bs with
  | nil => exact ⟨[], rfl, List.map_eq_nil_iff.mp h.symm⟩
  | cons a as ih =>
    cases bs with
    | nil => cases h
    | cons b bs =>
      obtain ⟨hhead, htail⟩ := List.cons.inj h
      obtain ⟨item, rfl, rfl⟩ := Option.map_eq_some_iff.mp hhead
      obtain ⟨items, rfl, rfl⟩ := ih htail
      exact ⟨item :: items, rfl, rfl⟩

/-- Before any transaction: a failure may leave the first messages stored. -/
theorem saveLogs_cases (logs : SaveLogsRequest) (collector : LogCollector) :
    (∃ e after, saveLogs uuid removeIpAddress (some logs) collector = (.error e, after)) ∨
      (saveLogs uuid removeIpAddress (some logs) collector =
        (.ok (.error uuid logs.requestId "No messages".toList), collector)) ∨
      ∃ (messages : List SaveLogsMessage) (after : LogCollector), logs.messages = some (messages.map some) ∧
        saveLogs uuid removeIpAddress (some logs) collector = (.ok (.success logs.requestId), after) ∧
        after.stored = collector.stored ++ messages.map (mapMessage removeIpAddress) := by
  obtain ⟨requestId, messages⟩ := logs
  cases messages with
  | none => exact .inr (.inl rfl)
  | some messages =>
    rcases forM_cases saveMessage_cases messages collector with ⟨e, after, h⟩ | ⟨after, stored, h, hmapped, hstored⟩
    · exact .inl ⟨e, after, bind_of_error h⟩
    · obtain ⟨items, rfl, rfl⟩ := exists_of_map_eq_map_some hmapped
      exact .inr (.inr ⟨items, after, rfl, bind_of_ok h, hstored⟩)

end service

namespace SaveLogsAdapter
variable (adapter : SaveLogsAdapter)

/-- The response has the status 200 and its body reports success. -/
def succeeds : Except Throwable HttpResponse → Bool
  | .ok response => decide (response.statusCode = 200 ∧ adapter.mapper.status response.body = some .SUCCESS)
  | .error _ => false

/-- A client that sends a request again until it succeeds, so many times at most. -/
def resend (request : HttpRequest) : (attempts : Nat) → LogCollector → Bool × LogCollector
  | 0, collector => (false, collector)
  | attempts + 1, collector =>
    let (response, after) := adapter.handleRequest request collector
    if adapter.succeeds response then (true, after) else resend request attempts after

/-- The log that is stored for a message that came from this address. -/
structure StoredFrom (remoteAddress : Text) (message : SaveLogsMessage) (log : LogData) : Prop where
  date : log.date = some message.time
  facility : log.facility = message.facility
  severity : log.severity = message.severity
  program : log.program = message.program
  host : log.host = some remoteAddress
  message : log.message = message.message

theorem storedFrom_messages (remoteAddress : Text) (messages : List SaveLogsMessage) :
    List.Forall₂ (StoredFrom remoteAddress) messages (messages.map (mapMessage remoteAddress)) :=
  List.forall₂_map_right_iff.mpr (List.forall₂_same.mpr fun _ _ => ⟨rfl, rfl, rfl, rfl, rfl, rfl⟩)

/-- What a request for these messages stores when it succeeds, one log for each message in
their order, and when it does not. -/
def StoresAll (logs : SaveLogsRequest) (remoteAddress : Text) (collector after : LogCollector) : Bool → Prop
  | true => ∃ (messages : List SaveLogsMessage) (stored : List LogData), logs.messages = some (messages.map some) ∧
    after.stored = collector.stored ++ stored ∧ List.Forall₂ (StoredFrom remoteAddress) messages stored
  | false => after.stored = collector.stored

section request
variable {adapter} {request : HttpRequest} {logs : SaveLogsRequest} (hpath : adapter.path = request.requestUri)
  (htoken : adapter.isTokenOk request.token = true) (hparsed : adapter.mapper.readValue request.body = .ok (some logs))
include hpath htoken hparsed

omit hparsed in
theorem handleRequest_of_ok {bytes : Bytes} {collector after : LogCollector}
    (h : adapter.processJson request.remoteAddress request.body collector = (.ok bytes, after)) :
    adapter.handleRequest request collector = (.ok ⟨200, "OK".toList, bytes⟩, after) := by
  rw [handleRequest, if_neg (not_not.mpr hpath), htoken, Bool.not_true, if_neg Bool.false_ne_true, h]

omit hparsed in
/-- Whatever the status code, the body of a failed request reports an error. -/
theorem handleRequest_of_error {e : Throwable} {collector after : LogCollector}
    (h : adapter.processJson request.remoteAddress request.body collector = (.error e, after)) :
    (adapter.handleRequest request collector).2 = after ∧
      adapter.succeeds (adapter.handleRequest request collector).1 = false := by
  rw [handleRequest, if_neg (not_not.mpr hpath), htoken, Bool.not_true, if_neg Bool.false_ne_true, h]
  cases e with
  | exception e => exact ⟨rfl, rfl⟩
  | processJson e =>
    obtain ⟨bytes, hwrite, hstatus⟩ := adapter.mapper.writes (.error adapter.uuid e.requestId e.message)
    have hno (response : HttpResponse) (hbody : response.body = bytes) : adapter.succeeds (.ok response) = false := by
      rw [succeeds, hbody, hstatus]
      refine decide_eq_false fun hyes => ?_
      cases hyes.2
    dsimp only
    rw [createJson, hwrite]
    exact ⟨rfl, hno _ rfl⟩
  | error message => exact ⟨rfl, rfl⟩

omit hpath htoken in
theorem processJson_of_done {response : SaveLogsResponse} {bytes : Bytes} {collector after : LogCollector}
    (hdone : adapter.transactions.required (saveLogs adapter.uuid request.remoteAddress (some logs)) collector =
      (.ok response, after)) (hwrite : adapter.mapper.writeValueAsBytes response = .ok bytes) :
    adapter.processJson request.remoteAddress request.body collector = (.ok bytes, after) := by
  rw [processJson, parseRequest, hparsed]
  dsimp only
  rw [bind_of_ok hdone, hwrite]
  rfl

omit hpath htoken in
theorem processJson_of_failed {e : Throwable} {collector after : LogCollector}
    (hfailed : adapter.transactions.required (saveLogs adapter.uuid request.remoteAddress (some logs)) collector =
      (.error e, after)) : adapter.processJson request.remoteAddress request.body collector = (.error e, after) := by
  rw [processJson, parseRequest, hparsed]
  dsimp only
  rw [bind_of_error hfailed]

theorem handleRequest_stores_all (collector : LogCollector) :
    StoresAll logs request.remoteAddress collector (adapter.handleRequest request collector).2
      (adapter.succeeds (adapter.handleRequest request collector).1) := by
  rcases adapter.transactions.required_cases (saveLogs adapter.uuid request.remoteAddress (some logs)) collector with
    ⟨response, after, hbody, hdone⟩ | ⟨e, after, hfailed, hstored⟩
  · obtain ⟨bytes, hwrite, hstatus⟩ := adapter.mapper.writes response
    rw [handleRequest_of_ok hpath htoken (processJson_of_done hparsed hdone hwrite)]
    rcases @saveLogs_cases adapter.uuid _ logs collector with ⟨e, after', h⟩ | h | ⟨messages, after', hmessages, h, hstored⟩
    · rw [hbody] at h
      cases h
    · obtain ⟨hresponse, rfl⟩ := Prod.mk.inj (hbody.symm.trans h)
      obtain rfl := Except.ok.inj hresponse
      have hno : adapter.succeeds (.ok ⟨200, "OK".toList, bytes⟩) = false := by
        rw [succeeds, hstatus]
        rfl
      rw [hno]
      rfl
    · obtain ⟨hresponse, rfl⟩ := Prod.mk.inj (hbody.symm.trans h)
      obtain rfl := Except.ok.inj hresponse
      have hyes : adapter.succeeds (.ok ⟨200, "OK".toList, bytes⟩) = true := by
        rw [succeeds, hstatus]
        rfl
      rw [hyes]
      exact ⟨messages, _, hmessages, hstored, storedFrom_messages _ messages⟩
  · obtain ⟨hafter, hno⟩ := handleRequest_of_error hpath htoken (processJson_of_failed hparsed hfailed)
    rw [hafter, hno]
    exact hstored

/-- The induction over the attempts: all that fail leave the store as it was. -/
theorem resend_stores_all (attempts : Nat) (collector : LogCollector) :
    StoresAll logs request.remoteAddress collector (adapter.resend request attempts collector).2
      (adapter.resend request attempts collector).1 := by
  induction attempts generalizing collector with
  | zero => rfl
  | succ attempts ih =>
    have hone := handleRequest_stores_all hpath htoken hparsed collector
    rw [resend]
    rcases hhandled : adapter.handleRequest request collector with ⟨response, after⟩
    rw [hhandled] at hone
    dsimp only at hone ⊢
    cases hsuccess : adapter.succeeds response with
    | true =>
      rw [hsuccess] at hone
      rw [if_pos rfl]
      exact hone
    | false =>
      rw [hsuccess] at hone
      rw [if_neg Bool.false_ne_true]
      have hstored : after.stored = collector.stored := hone
      have hrest := ih after
      cases hlast : (adapter.resend request attempts after).1 with
      | true =>
        rw [hlast] at hrest
        obtain ⟨messages, stored, hmessages, hall, hfrom⟩ := hrest
        exact ⟨messages, stored, hmessages, by rw [hall, hstored], hfrom⟩
      | false =>
        rw [hlast] at hrest
        exact Eq.trans hrest hstored

/-- A batch is atomic, and sending it again until it succeeds stores it once. -/
theorem batch_is_atomic (collector : LogCollector) :
    StoresAll logs request.remoteAddress collector (adapter.handleRequest request collector).2
      (adapter.succeeds (adapter.handleRequest request collector).1) ∧
    ∀ attempts, StoresAll logs request.remoteAddress collector (adapter.resend request attempts collector).2
      (adapter.resend request attempts collector).1 :=
  ⟨handleRequest_stores_all hpath htoken hparsed collector,
    fun attempts => resend_stores_all hpath htoken hparsed attempts collector⟩

end request
section sample

def asciiBytes (t : Text) : Bytes := t.map fun ch => UInt8.ofNat ch.toNat

def sampleLogs : SaveLogsRequest :=
  ⟨none, some [some ⟨1000, some "sshd".toList, some 4, some 6, some "opened".toList⟩,
    some ⟨2000, none, none, none, none⟩]⟩

def sampleJson : Text := "\x7b\"messages\":[\x7b\"time\":1000,\"program\":\"sshd\",\"facility\":4,\"severity\":6,".toList ++
  "\"message\":\"opened\"\x7d,\x7b\"time\":2000\x7d]\x7d".toList

def statusJson : SaveLogsStatus → Text
  | .SUCCESS => "\x7b\"status\":\"SUCCESS\"\x7d".toList
  | .ERROR => "\x7b\"status\":\"ERROR\"\x7d".toList

/-- A mapper that reads the text of one request and nothing else. Of a response it writes the
status; one of success to a request without an identifier has no other field. -/
def sampleMapper : ObjectMapper where
  readValue json := if json = asciiBytes sampleJson then .ok (some sampleLogs) else .error .other
  writeValueAsBytes response := .ok (asciiBytes (statusJson response.status))
  status bytes := some (if bytes = asciiBytes (statusJson .SUCCESS) then .SUCCESS else .ERROR)
  writes response := by
    obtain ⟨requestId, status, errorMessage, errorId⟩ := response
    cases status <;> exact ⟨_, rfl, rfl⟩

def sampleTransactions : TransactionManager LogCollector Throwable LogCollector.stored where
  required body s := match body s with
    | (.ok a, s') => (.ok a, s')
    | (.error e, s') => (.error e, ⟨s.stored, s'.outcomes⟩)
  commits h := by
    rw [h]
    exact .inl rfl
  rollsBack h := by
    rw [h]
    exact ⟨_, _, rfl, rfl⟩

def sampleAdapter : SaveLogsAdapter where
  path := "/save-logs".toList
  token := "token".toList
  mapper := sampleMapper
  transactions := sampleTransactions
  uuid := "uuid".toList
  getMessage _ := []

def sampleRequest : HttpRequest :=
  ⟨"/save-logs".toList, some "token".toList, "10.0.0.1".toList, asciiBytes sampleJson⟩

/-- The second message of the batch fails once. -/
def failsOnce : LogCollector := ⟨[], fun n => if n = 1 then some (.exception .ioException) else none⟩

theorem sampleMapper_readValue : sampleMapper.readValue (asciiBytes sampleJson) = .ok (some sampleLogs) := by
  simp only [sampleMapper, if_true]

/-- The second attempt stores the two messages. -/
theorem failed_batch_sent_again :
    (StoresAll sampleLogs sampleRequest.remoteAddress failsOnce (sampleAdapter.handleRequest sampleRequest failsOnce).2
      (sampleAdapter.succeeds (sampleAdapter.handleRequest sampleRequest failsOnce).1) ∧
    ∀ attempts, StoresAll sampleLogs sampleRequest.remoteAddress failsOnce
      (sampleAdapter.resend sampleRequest attempts failsOnce).2
      (sampleAdapter.resend sampleRequest attempts failsOnce).1) ∧
    (sampleAdapter.resend sampleRequest 2 failsOnce).1 = true :=
  ⟨@batch_is_atomic sampleAdapter sampleRequest sampleLogs rfl rfl sampleMapper_readValue failsOnce, rfl⟩

end sample
end SaveLogsAdapter
end Srvlog.Json
