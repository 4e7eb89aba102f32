import Srvlog.Library.JsonText
import Srvlog.Syslog.SuricataMessage

/-! What the manager of suricata makes of the texts of an event when it stores the event for readers. -/
namespace Srvlog.Syslog
open Library Data

section writer

/-- What a pretty printer writes around the texts: at the beginning and the end of an object or an array, in
front of a field or an element, and between name and value. The depth counts the objects around. -/
structure Layout where
  objectStart : Text
  fieldStart (first : Bool) (depth : Nat) : Text
  nameEnd : Text
  objectEnd (empty : Bool) (depth : Nat) : Text
  arrayStart : Text
  elementStart (first : Bool) (depth : Nat) : Text
  arrayEnd (empty : Bool) (depth : Nat) : Text
  plain_objectStart : '\\' ∉ objectStart
  plain_fieldStart : ∀ first depth, '\\' ∉ fieldStart first depth
  plain_nameEnd : '\\' ∉ nameEnd
  plain_objectEnd : ∀ empty depth, '\\' ∉ objectEnd empty depth
  plain_arrayStart : '\\' ∉ arrayStart
  plain_elementStart : ∀ first depth, '\\' ∉ elementStart first depth
  plain_arrayEnd : ∀ empty depth, '\\' ∉ arrayEnd empty depth

inductive Token where
  | raw (t : Text)
  | text (t : Text)
  deriving DecidableEq

def Token.Plain : Token → Prop
  | raw t => '\\' ∉ t
  | text _ => True

/-- The text of the tokens, with the texts among them written in the given way. -/
def render (encode : Text → Text) (tokens : List Token) : Text :=
  tokens.flatMap fun
    | .raw t => t
    | .text t => '"' :: (encode t ++ ['"'])

/-- The pretty printer of Jackson, on a platform with LF as its line separator. -/
def defaultPrettyPrinter : Layout where
  objectStart := ['\x7b']
  fieldStart first depth := (if first then [] else [',']) ++ '\n' :: List.replicate (2 * depth) ' '
  nameEnd := [' ', ':', ' ']
  objectEnd empty depth := (if empty then [' '] else '\n' :: List.replicate (2 * depth) ' ') ++ ['\x7d']
  arrayStart := ['[']
  elementStart first _ := (if first then [] else [',']) ++ [' ']
  arrayEnd _ _ := [' ', ']']
  plain_objectStart := by decide
  plain_fieldStart first depth := by cases first <;> simp
  plain_nameEnd := by decide
  plain_objectEnd empty depth := by cases empty <;> simp
  plain_arrayStart := by decide
  plain_elementStart first _ := by cases first <;> simp
  plain_arrayEnd _ _ := by decide

end writer

namespace JsonNode

section tokens
variable (layout : Layout)

mutual

def tokens : (depth : Nat) → JsonNode → List Token
  | depth, .object fields => .raw layout.objectStart :: (fieldTokens true (depth + 1) fields ++
      [.raw (layout.objectEnd fields.isEmpty depth)])
  | depth, .array elements => .raw layout.arrayStart :: (elementTokens true depth elements ++
      [.raw (layout.arrayEnd elements.isEmpty depth)])
  | _, .text value => [.text value]
  | _, .scalar literal => [.raw literal]

def fieldTokens : (first : Bool) → (depth : Nat) → List (Text × JsonNode) → List Token
  | _, _, [] => []
  | first, depth, (name, value) :: fields => .raw (layout.fieldStart first depth) :: .text name :: .raw layout.nameEnd ::
      (tokens depth value ++ fieldTokens false depth fields)

def elementTokens : (first : Bool) → (depth : Nat) → List JsonNode → List Token
  | _, _, [] => []
  | first, depth, element :: elements => .raw (layout.elementStart first depth) ::
      (tokens depth element ++ elementTokens false depth elements)

end

end tokens

mutual

/-- The names and the values that are texts. -/
def texts : JsonNode → List Text
  | .object fields => fieldTexts fields
  | .array elements => elementTexts elements
  | .text value => [value]
  | .scalar _ => []

def fieldTexts : List (Text × JsonNode) → List Text
  | [] => []
  | (name, value) :: fields => name :: (texts value ++ fieldTexts fields)

def elementTexts : List JsonNode → List Text
  | [] => []
  | element :: elements => texts element ++ elementTexts elements

end

mutual

/-- No number and no other word has a backslash. -/
def PlainScalars : JsonNode → Prop
  | .object fields => PlainFields fields
  | .array elements => PlainElements elements
  | .text _ => True
  | .scalar literal => '\\' ∉ literal

def PlainFields : List (Text × JsonNode) → Prop
  | [] => True
  | (_, value) :: fields => PlainScalars value ∧ PlainFields fields

def PlainElements : List JsonNode → Prop
  | [] => True
  | element :: elements => PlainScalars element ∧ PlainElements elements

end

section laws
variable {layout : Layout}

mutual

theorem plain_tokens : (depth : Nat) → (node : JsonNode) → PlainScalars node →
    ∀ token ∈ tokens layout depth node, token.Plain
  | depth, .object fields, h => by
    rw [tokens, List.forall_mem_cons, List.forall_mem_append, List.forall_mem_singleton]
    exact ⟨layout.plain_objectStart, plain_fieldTokens true (depth + 1) fields h, layout.plain_objectEnd _ depth⟩
  | depth, .array elements, h => by
    rw [tokens, List.forall_mem_cons, List.forall_mem_append, List.forall_mem_singleton]
    exact ⟨layout.plain_arrayStart, plain_elementTokens true depth elements h, layout.plain_arrayEnd _ depth⟩
  | _, .text value, _ => by
    rw [tokens, List.forall_mem_singleton]
    trivial
  | _, .scalar literal, h => by
    rw [tokens, List.forall_mem_singleton]
    exact h

theorem plain_fieldTokens : (first : Bool) → (depth : Nat) → (fields : List (Text × JsonNode)) →
    PlainFields fields → ∀ token ∈ fieldTokens layout first depth fields, token.Plain
  | _, _, [], _ => fun _ h => absurd h List.not_mem_nil
  | first, depth, (name, value) :: fields, h => by
    rw [fieldTokens, List.forall_mem_cons, List.forall_mem_cons, List.forall_mem_cons, List.forall_mem_append]
    exact ⟨layout.plain_fieldStart first depth, trivial, layout.plain_nameEnd,
      plain_tokens depth value h.1, plain_fieldTokens false depth fields h.2⟩

theorem plain_elementTokens : (first : Bool) → (depth : Nat) → (elements : List JsonNode) →
    PlainElements elements → ∀ token ∈ elementTokens layout first depth elements, token.Plain
  | _, _, [], _ => fun _ h => absurd h List.not_mem_nil
  | first, depth, element :: elements, h => by
    rw [elementTokens, List.forall_mem_cons, List.forall_mem_append]
    exact ⟨layout.plain_elementStart first depth, plain_tokens depth element h.1,
      plain_elementTokens false depth elements h.2⟩

end

mutual

theorem text_mem_tokens (t : Text) : (depth : Nat) → (node : JsonNode) →
    (.text t ∈ tokens layout depth node ↔ t ∈ texts node)
  | depth, .object fields => by
    rw [tokens, texts, ← text_mem_fieldTokens t true (depth + 1) fields]
    simp
  | depth, .array elements => by
    rw [tokens, texts, ← text_mem_elementTokens t true depth elements]
    simp
  | _, .text value => by
    rw [tokens, texts]
    simp
  | _, .scalar literal => by
    rw [tokens, texts]
    simp

theorem text_mem_fieldTokens (t : Text) : (first : Bool) → (depth : Nat) → (fields : List (Text × JsonNode)) →
    (.text t ∈ fieldTokens layout first depth fields ↔ t ∈ fieldTexts fields)
  | _, _, [] => by
    rw [fieldTokens, fieldTexts]
    simp
  | first, depth, (name, value) :: fields => by
    have hvalue := text_mem_tokens t depth value
    have hfields := text_mem_fieldTokens t false depth fields
    simp [fieldTokens, fieldTexts, hvalue, hfields]

theorem text_mem_elementTokens (t : Text) : (first : Bool) → (depth : Nat) → (elements : List JsonNode) →
    (.text t ∈ elementTokens layout first depth elements ↔ t ∈ elementTexts elements)
  | _, _, [] => by
    rw [elementTokens, elementTexts]
    simp
  | first, depth, element :: elements => by
    have helement := text_mem_tokens t depth element
    have helements := text_mem_elementTokens t false depth elements
    simp [elementTokens, elementTexts, helement, helements]

end
end laws

section fields

theorem get_set_of_ne (aRoot value : JsonNode) {aName name : Text} (h : name ≠ aName) :
    (aRoot.set aName value).get name = aRoot.get name := by
  cases aRoot with
  | object fields =>
    rw [set, get, get]
    induction fields with
    | nil => rfl
    | cons field fields ih =>
      rw [List.map_cons]
      by_cases hfield : field.1 = aName
      · rw [if_pos hfield, List.lookup_cons, List.lookup_cons, hfield, beq_false_of_ne h]
        exact ih
      · rw [if_neg hfield, List.lookup_cons, List.lookup_cons]
        cases name == field.1 with
        | true => rfl
        | false => exact ih
  | array _ => rfl
  | text _ => rfl
  | scalar _ => rfl

theorem PlainScalars.get {aRoot node : JsonNode} {aName : Text} (h : aRoot.PlainScalars)
    (hget : aRoot.get aName = some node) : node.PlainScalars := by
  cases aRoot with
  | object fields =>
    rw [JsonNode.get] at hget
    rw [PlainScalars] at h
    induction fields with
    | nil => cases hget
    | cons field fields ih =>
      rw [List.lookup_cons] at hget
      cases hname : aName == field.1 with
      | true =>
        rw [hname] at hget
        exact Option.some.inj hget ▸ h.1
      | false =>
        rw [hname] at hget
        exact ih h.2 hget
  | array _ => cases hget
  | text _ => cases hget
  | scalar _ => cases hget

theorem PlainScalars.set {aRoot value : JsonNode} (h : aRoot.PlainScalars) (aName : Text) (hvalue : value.PlainScalars) :
    (aRoot.set aName value).PlainScalars := by
  cases aRoot with
  | object fields =>
    rw [JsonNode.set, PlainScalars]
    rw [PlainScalars] at h
    induction fields with
    | nil => trivial
    | cons field fields ih =>
      rw [List.map_cons]
      by_cases hname : field.1 = aName
      · rw [if_pos hname]
        exact ⟨hvalue, ih h.2⟩
      · rw [if_neg hname]
        exact ⟨h.1, ih h.2⟩
  | array _ => exact h
  | text _ => exact h
  | scalar _ => exact h

end fields
end JsonNode

section replacement

/-- The replacements work on the whole text, but each text in it is closed by a quotation mark. -/
theorem unescapeLineEnds_render {tokens : List Token} (h : ∀ token ∈ tokens, token.Plain) :
    unescapeLineEnds (render (·.flatMap jsonEscape) tokens) = render unescaped tokens := by
  induction tokens with
  | nil => rfl
  | cons token tokens ih =>
    rw [List.forall_mem_cons] at h
    cases token with
    | raw t =>
      change unescapeLineEnds (t ++ render _ tokens) = t ++ render _ tokens
      rw [unescapeLineEnds_append h.1, ih h.2]
    | text t =>
      change unescapeLineEnds ('"' :: (t.flatMap jsonEscape ++ ['"']) ++ render _ tokens) =
        '"' :: (unescaped t ++ ['"']) ++ render _ tokens
      rw [List.cons_append, unescapeLineEnds_cons (by decide), List.append_assoc, List.singleton_append,
        unescapeLineEnds_escaped, ih h.2]
      simp

theorem length_render_cons (encode : Text → Text) (token : Token) (tokens : List Token) :
    (render encode (token :: tokens)).length = (render encode [token]).length + (render encode tokens).length := by
  rw [render, render, render, List.flatMap_cons, List.length_append, List.flatMap_singleton]

/-- Where a text is damaged, the whole is shorter than it should be. -/
theorem render_unescaped_iff {tokens : List Token} :
    render unescaped tokens = render (·.flatMap readableEscape) tokens ↔ ∀ t, .text t ∈ tokens → NoFalseEscape t := by
  constructor
  · intro h
    have hlength : (render unescaped tokens).length ≤ (render (·.flatMap readableEscape) tokens).length ∧
        ((render unescaped tokens).length = (render (·.flatMap readableEscape) tokens).length →
          ∀ t, .text t ∈ tokens → NoFalseEscape t) := by
      clear h
      induction tokens with
      | nil => exact ⟨le_rfl, fun _ _ h => absurd h List.not_mem_nil⟩
      | cons token tokens ih =>
        rw [length_render_cons unescaped token tokens, length_render_cons (·.flatMap readableEscape) token tokens]
        cases token with
        | raw t =>
          refine ⟨Nat.add_le_add_left ih.1 _, fun h t' ht' => ?_⟩
          rcases List.mem_cons.mp ht' with heq | ht'
          · cases heq
          · exact ih.2 (Nat.add_left_cancel h) t' ht'
        | text t =>
          have ht := length_unescaped t
          have hsingle (encode : Text → Text) : (render encode [.text t]).length = (encode t).length + 2 := by
            simp [render]
          rw [hsingle, hsingle]
          refine ⟨by omega, fun h t' ht' => ?_⟩
          rcases List.mem_cons.mp ht' with heq | ht'
          · obtain rfl := Token.text.inj heq
            exact ht.2 (by omega)
          · exact ih.2 (by omega) t' ht'
    exact hlength.2 (congrArg List.length h)
  · intro h
    refine List.flatMap_congr fun token htoken => ?_
    cases token with
    | raw t => rfl
    | text t =>
      change '"' :: (unescaped t ++ ['"']) = '"' :: (t.flatMap readableEscape ++ ['"'])
      rw [unescaped_eq (h t htoken)]

end replacement

section event
variable {mapper : SuricataMapper} {layout : Layout}

/-- What the manager needs of Jackson: its scalars are words without a backslash, and it writes a tree in the
layout of the pretty printer with all texts escaped. -/
structure WritesJson (mapper : SuricataMapper) (layout : Layout) : Prop where
  scalars : ∀ jsonText jsonRoot, mapper.readTree jsonText = .ok jsonRoot → jsonRoot.PlainScalars
  writes : ∀ node, mapper.writeValueAsString node = .ok (render (·.flatMap jsonEscape) (node.tokens layout 0))

/-- Base64 of well-formed UTF-8, and not empty. -/
def IsEncodedText (node : JsonNode) : Prop :=
  node.asText ≠ [] ∧ ∃ bytes t, decodeBase64 node.asText = some bytes ∧ utf8Text bytes = some t

structure EncodedFields (jsonRoot : JsonNode) : Prop where
  payload : ∀ node, jsonRoot.get "payload".toList = some node → IsEncodedText node
  packet : ∀ node, jsonRoot.get "packet".toList = some node → IsEncodedText node
  body : ∀ httpNode node, jsonRoot.get "http".toList = some httpNode →
    httpNode.get "http_response_body".toList = some node → IsEncodedText node

/-- A field that is there has its decoded text. -/
def decodedField (aName : Text) (aRoot : JsonNode) : JsonNode :=
  match aRoot.get aName with
  | none => aRoot
  | some node => aRoot.set aName (.text (((decodeBase64 node.asText).bind utf8Text).getD []))

def decodedEvent (jsonRoot : JsonNode) : JsonNode :=
  let decoded := decodedField "packet".toList (decodedField "payload".toList jsonRoot)
  match decoded.get "http".toList with
  | none => decoded
  | some httpNode => decoded.set "http".toList (decodedField "http_response_body".toList httpNode)

/-- The text of an event for readers. -/
def readableJson (layout : Layout) (node : JsonNode) : Text := render (·.flatMap readableEscape) (node.tokens layout 0)

theorem replaceNode_eq {aRoot : JsonNode} {aName : Text} (h : ∀ node, aRoot.get aName = some node → IsEncodedText node) :
    replaceNode mapper aRoot aName = .ok (decodedField aName aRoot) := by
  unfold replaceNode decodedField
  cases hget : aRoot.get aName with
  | none => rfl
  | some node =>
    obtain ⟨hne, bytes, t, hbytes, ht⟩ := h node hget
    simp only [if_neg hne, hbytes, ht, Option.bind_some, Option.getD_some]

theorem get_decodedField (aRoot : JsonNode) {aName name : Text} (h : name ≠ aName) :
    (decodedField aName aRoot).get name = aRoot.get name := by
  unfold decodedField
  cases aRoot.get aName with
  | none => rfl
  | some node => exact JsonNode.get_set_of_ne aRoot _ h

theorem plainScalars_decodedField {aRoot : JsonNode} (h : aRoot.PlainScalars) (aName : Text) :
    (decodedField aName aRoot).PlainScalars := by
  unfold decodedField
  cases aRoot.get aName with
  | none => exact h
  | some node => exact h.set aName trivial

/-- With encoded texts in the three fields nothing is thrown and nothing is dumped. -/
theorem replaceBase64ToUtf8_eq {jsonRoot : JsonNode} (h : EncodedFields jsonRoot) :
    replaceBase64ToUtf8 mapper jsonRoot = .ok (decodedEvent jsonRoot) := by
  have hpacket : ∀ node, (decodedField "payload".toList jsonRoot).get "packet".toList = some node → IsEncodedText node := by
    rw [get_decodedField jsonRoot (by decide)]
    exact h.packet
  have hhttp : (decodedField "packet".toList (decodedField "payload".toList jsonRoot)).get "http".toList =
      jsonRoot.get "http".toList := by
    rw [get_decodedField _ (by decide), get_decodedField _ (by decide)]
  simp only [replaceBase64ToUtf8, decodedEvent, replaceNode_eq h.payload, replaceNode_eq hpacket, hhttp, bind, Except.bind]
  cases hnode : jsonRoot.get "http".toList with
  | none => rfl
  | some httpNode =>
    simp only [replaceNode_eq fun node hbody => h.body httpNode node hnode hbody]
    rfl

theorem plainScalars_decodedEvent {jsonRoot : JsonNode} (h : jsonRoot.PlainScalars) :
    (decodedEvent jsonRoot).PlainScalars := by
  have hdecoded := plainScalars_decodedField (plainScalars_decodedField h "payload".toList) "packet".toList
  unfold decodedEvent
  cases hget : (decodedField "packet".toList (decodedField "payload".toList jsonRoot)).get "http".toList with
  | none => simpa only [hget] using hdecoded
  | some httpNode =>
    simp only [hget]
    exact hdecoded.set _ (plainScalars_decodedField (hdecoded.get hget) _)

/-- An event that is accepted is stored with the replacements made in its whole text. -/
theorem payload_of_createSnortLogData {aRawMessage jsonText : Text} {jsonRoot : JsonNode} {snortLogData : SnortLogData}
    (hjson : extractJson aRawMessage = .ok jsonText) (hroot : mapper.readTree jsonText = .ok jsonRoot)
    (hfields : EncodedFields jsonRoot) (hmapper : WritesJson mapper layout)
    (haccepted : createSnortLogData mapper aRawMessage = .ok snortLogData) : snortLogData.payload =
      some (unescapeLineEnds (render (·.flatMap jsonEscape) ((decodedEvent jsonRoot).tokens layout 0))) := by
  simp only [createSnortLogData, hjson, hroot, replaceBase64ToUtf8_eq hfields, hmapper.writes, bind, Except.bind] at haccepted
  cases hconvert : mapper.convertValue jsonRoot with
  | error e =>
    rw [hconvert] at haccepted
    cases haccepted
  | ok surricataMessage =>
    simp only [hconvert, convertToSnort] at haccepted
    cases htimestamp : surricataMessage.timestamp with
    | none =>
      rw [htimestamp] at haccepted
      cases haccepted
    | some timestamp =>
      rw [htimestamp] at haccepted
      rw [← Except.ok.inj haccepted]
      rfl

theorem storedPayload_iff {aRawMessage jsonText : Text} {jsonRoot : JsonNode} {snortLogData : SnortLogData}
    (hmapper : WritesJson mapper layout) (hjson : extractJson aRawMessage = .ok jsonText)
    (hroot : mapper.readTree jsonText = .ok jsonRoot) (hfields : EncodedFields jsonRoot)
    (haccepted : createSnortLogData mapper aRawMessage = .ok snortLogData) :
    snortLogData.payload = some (readableJson layout (decodedEvent jsonRoot)) ↔
      ∀ t ∈ (decodedEvent jsonRoot).texts, NoFalseEscape t := by
  have hplain := @JsonNode.plain_tokens layout 0 _
    (plainScalars_decodedEvent (hmapper.scalars jsonText jsonRoot hroot))
  rw [payload_of_createSnortLogData hjson hroot hfields hmapper haccepted, Option.some.injEq, unescapeLineEnds_render hplain,
    readableJson, render_unescaped_iff]
  simp only [JsonNode.text_mem_tokens]

/-- A mapper that behaves like the one of Jackson on one event. -/
def suricataMapper (jsonText : Text) (jsonRoot : JsonNode) : SuricataMapper where
  readTree t := if t = jsonText then .ok jsonRoot else .error .ioException
  convertValue _ := .ok ⟨some 1528892084393, none, none, 0, none, 0, none, none, none⟩
  writeValueAsString node := .ok (render (·.flatMap jsonEscape) (node.tokens defaultPrettyPrinter 0))
  prettyHexDump _ := []

def suricataEvent (payload : Text) : JsonNode :=
  .object [("timestamp".toList, .text "2018-06-13T12:14:44.393449+0000".toList), ("flow_id".toList, .scalar ['1']),
    ("payload".toList, .text payload)]

def suricataJson (payload : Text) : Text :=
  "\x7b\"timestamp\":\"2018-06-13T12:14:44.393449+0000\",\"flow_id\":1,\"payload\":\"".toList ++ (payload ++ "\"\x7d".toList)

theorem writesJson_suricataMapper (jsonText payload : Text) :
    WritesJson (suricataMapper jsonText (suricataEvent payload)) defaultPrettyPrinter := by
  refine ⟨fun t jsonRoot h => ?_, fun _ => rfl⟩
  change (if t = jsonText then _ else _) = _ at h
  split at h
  · obtain rfl := Except.ok.inj h
    exact ⟨trivial, show '\\' ∉ ['1'] by decide, trivial, trivial⟩
  · cases h

theorem encodedFields_suricataEvent {payload : Text} (h : IsEncodedText (.text payload)) :
    EncodedFields (suricataEvent payload) := by
  have hpayload : (suricataEvent payload).get "payload".toList = some (.text payload) := rfl
  have hpacket : (suricataEvent payload).get "packet".toList = none := rfl
  have hhttp : (suricataEvent payload).get "http".toList = none := rfl
  refine ⟨fun node hnode => ?_, fun node hnode => ?_, fun httpNode node hnode => ?_⟩
  · rwa [← Option.some.inj (hpayload.symm.trans hnode)]
  · cases hpacket.symm.trans hnode
  · cases hhttp.symm.trans hnode

/-- The payload is a greeting and a line feed. -/
theorem greeting_stored : ∃ snortLogData, createSnortLogData
      (suricataMapper (suricataJson "SGVsbG8K".toList) (suricataEvent "SGVsbG8K".toList))
      ("suricata[1]: ".toList ++ suricataJson "SGVsbG8K".toList) = .ok snortLogData ∧
    snortLogData.payload = some (readableJson defaultPrettyPrinter (decodedEvent (suricataEvent "SGVsbG8K".toList))) := by
  have hencoded : IsEncodedText (.text "SGVsbG8K".toList) :=
    ⟨by decide, [72, 101, 108, 108, 111, 10], "Hello\n".toList, by decide, by decide⟩
  have hok : (createSnortLogData (suricataMapper (suricataJson "SGVsbG8K".toList) (suricataEvent "SGVsbG8K".toList))
      ("suricata[1]: ".toList ++ suricataJson "SGVsbG8K".toList)).toOption.isSome := by decide
  cases haccepted : createSnortLogData (suricataMapper (suricataJson "SGVsbG8K".toList) (suricataEvent "SGVsbG8K".toList))
      ("suricata[1]: ".toList ++ suricataJson "SGVsbG8K".toList) with
  | error e =>
    rw [haccepted] at hok
    cases hok
  | ok snortLogData =>
    refine ⟨snortLogData, rfl, (storedPayload_iff (writesJson_suricataMapper _ _) (by decide) (if_pos rfl)
      (encodedFields_suricataEvent hencoded) haccepted).mpr ?_⟩
    decide

/-- The payload names the folder `new` of a drive. -/
theorem path_damaged : EncodedFields (suricataEvent "QzpcbmV3".toList) ∧ ∃ snortLogData, createSnortLogData
      (suricataMapper (suricataJson "QzpcbmV3".toList) (suricataEvent "QzpcbmV3".toList))
      ("suricata[1]: ".toList ++ suricataJson "QzpcbmV3".toList) = .ok snortLogData ∧
    snortLogData.payload ≠ some (readableJson defaultPrettyPrinter (decodedEvent (suricataEvent "QzpcbmV3".toList))) := by
  have hfields : EncodedFields (suricataEvent "QzpcbmV3".toList) := encodedFields_suricataEvent
    ⟨by decide, [67, 58, 92, 110, 101, 119], "C:\\new".toList, by decide, by decide⟩
  have hok : (createSnortLogData (suricataMapper (suricataJson "QzpcbmV3".toList) (suricataEvent "QzpcbmV3".toList))
      ("suricata[1]: ".toList ++ suricataJson "QzpcbmV3".toList)).toOption.isSome := by decide
  have hdiffer : unescapeLineEnds (render (·.flatMap jsonEscape)
      ((decodedEvent (suricataEvent "QzpcbmV3".toList)).tokens defaultPrettyPrinter 0)) ≠
        readableJson defaultPrettyPrinter (decodedEvent (suricataEvent "QzpcbmV3".toList)) := by decide
  cases haccepted : createSnortLogData (suricataMapper (suricataJson "QzpcbmV3".toList) (suricataEvent "QzpcbmV3".toList))
      ("suricata[1]: ".toList ++ suricataJson "QzpcbmV3".toList) with
  | error e =>
    rw [haccepted] at hok
    cases hok
  | ok snortLogData =>
    refine ⟨hfields, snortLogData, rfl, fun h => hdiffer ?_⟩
    rw [payload_of_createSnortLogData (by decide) (if_pos rfl) hfields (writesJson_suricataMapper _ _) haccepted] at h
    exact Option.some.inj h

end event
end Srvlog.Syslog
