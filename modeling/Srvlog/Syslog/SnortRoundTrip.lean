import Srvlog.Syslog.SnortFraming

/-! The parser reads from the text of an alert the data of the alert. -/
namespace Srvlog.Syslog
open Library Data

section numbers

theorem isNumber_decimal (n : Nat) : IsNumber (decimal n) := ⟨decimal_ne_nil n, fun _ => isDigit_of_mem_decimal⟩

theorem reads_digits {t : Text} (h : IsNumber t) : Regex.Reads Char.isDigit digits t :=
  Regex.reads_greedy h.2 (List.length_pos_iff.mpr h.1) fun _ hbound => nomatch hbound

theorem reads_digitsUpTo {n most : Nat} (hmost : 0 < most) (h : n < 10 ^ most) :
    Regex.Reads Char.isDigit (digitsUpTo most) (decimal n) := by
  refine Regex.reads_greedy (fun _ => isDigit_of_mem_decimal) (List.length_pos_iff.mpr (decimal_ne_nil n)) ?_
  intro bound hbound
  obtain rfl := Option.some.inj hbound
  exact (decimal_length_le_iff hmost).mpr h

theorem reads_dottedAddress (address : Address) : Regex.Reads Char.isDigit dottedAddress address.text := by
  have hoctet (i : Fin 4) : Regex.Reads Char.isDigit (digitsUpTo 3) (decimal (address.octets i)) :=
    reads_digitsUpTo (by decide) ((address.octets i).isLt.trans (by decide))
  exact (hoctet 0).seq_literal rfl ((hoctet 1).seq_literal rfl ((hoctet 2).seq_literal rfl (hoctet 3)))

end numbers

section timestamp

/-- A fixed number of digits is read whatever follows. -/
theorem reads_digitsOf (count n : Nat) : Regex.Reads (fun _ => false) (digitsOf count) (padded count n) := by
  have hlength : (padded count n).length = count := length_lpad _ _ _
  intro beyond before rest _
  refine Regex.first_greedy (fun _ => isDigit_of_mem_padded) hlength.ge ?_ (.inl ?_)
  · intro bound hbound
    obtain rfl := Option.some.inj hbound
    exact hlength.le
  · rw [hlength]
    rfl

theorem reads_dateRegex (t : Timestamp) : Regex.Reads (fun _ => false) dateRegex t.text := by
  have hmillis : Regex.Reads (fun _ => false)
      (.seq (.repeated true 1 (some 1) fun ch => !isLineSeparator ch) (digitsOf 3)) ('.' :: padded 3 t.milli) := by
    refine Regex.Reads.seq (m := ['.']) (fun beyond before rest _ => ?_) (reads_digitsOf 3 t.milli) fun _ _ _ _ => rfl
    exact Regex.first_greedy (by decide) le_rfl (fun bound hbound => (Option.some.inj hbound).le) (.inl rfl)
  exact (reads_digitsOf 4 _).seq_literal rfl ((reads_digitsOf 2 _).seq_literal rfl
    ((reads_digitsOf 2 _).seq_literal rfl ((reads_digitsOf 2 _).seq_literal rfl ((reads_digitsOf 2 _).seq_literal rfl
      ((reads_digitsOf 2 _).seq hmillis fun _ _ _ _ => rfl)))))

theorem parseDate_text (t : Timestamp) : parseDate (some t.text) = .ok t.instant := by
  have hcons {separator : Char} {separators : List Char} {width n : Nat} {rest : Text} (hwidth : 0 < width)
      (hn : n < 10 ^ width) (hsep : separator.isDigit = false) :
      parseNumbers (separator :: separators) (padded width n ++ separator :: rest) =
        (parseNumbers separators rest).map fun numbers => (n : Int) :: numbers := by
    rw [parseNumbers_cons (padded_ne_nil hwidth) (fun _ => isDigit_of_mem_padded) hsep, padded, digitsValue_lpad hwidth hn]
  have hlast : parseNumbers [] (padded 3 t.milli) = some [(t.milli : Int)] := by
    rw [parseNumbers_last (padded_ne_nil (by decide)) fun _ => isDigit_of_mem_padded, padded,
      digitsValue_lpad (by decide) t.milli_lt]
  have hday := t.day_range
  have hmonth := t.month_range
  have hhour := t.hour_lt
  have hminute := t.minute_lt
  have hsecond := t.second_lt
  have hnumbers : parseNumbers ['-', '-', ' ', ':', ':', '.'] t.text =
      some [(t.year : Int), t.month, t.day, t.hour, t.minute, t.second, t.milli] := by
    rw [Timestamp.text, hcons (by decide) t.year_lt rfl, hcons (by decide) (by omega) rfl,
      hcons (by decide) (by omega) rfl, hcons (by decide) (by omega) rfl, hcons (by decide) (by omega) rfl,
      hcons (by decide) (by omega) rfl, hlast]
    rfl
  simp only [parseDate, hnumbers]
  rfl

end timestamp

section payload

theorem digit_hexDigit (n : Fin 16) :
    digit 16 (hexDigit n) = some n.val ∧ hexDigit n ≠ '-' ∧ hexDigit n ≠ '+' := by
  revert n
  decide

theorem parseInt_hex (b : Fin 256) : parseInt 16 (some [hexDigit (b.val / 16), hexDigit (b.val % 16)]) = .ok b := by
  obtain ⟨hhigh, hsign⟩ := digit_hexDigit ⟨b.val / 16, Nat.div_lt_of_lt_mul b.isLt⟩
  obtain ⟨hlow, -⟩ := digit_hexDigit ⟨b.val % 16, Nat.mod_lt _ (by decide)⟩
  have hvalues : [hexDigit (b.val / 16), hexDigit (b.val % 16)].mapM (digit 16) = some [b.val / 16, b.val % 16] := by
    rw [List.mapM_cons, hhigh, List.mapM_cons, hlow]
    rfl
  have hvalue : [b.val / 16, b.val % 16].foldl (fun n value => 16 * n + value) 0 = b.val := by
    simp only [List.foldl_cons, List.foldl_nil]
    omega
  rw [parseInt_of_values hsign hvalues (by rw [hvalue]; omega), hvalue]

theorem decodePairs_hexText (payload : List (Fin 256)) :
    decodePairs (hexText payload) = .ok (payload.map fun b : Fin 256 => Char.ofNat b.val) := by
  induction payload with
  | nil => rfl
  | cons b payload ih =>
    rw [hexText_cons, decodePairs, parseInt_hex, ih]
    rfl

theorem length_hexText (payload : List (Fin 256)) : (hexText payload).length = 2 * payload.length := by
  induction payload with
  | nil => rfl
  | cons b payload ih =>
    rw [hexText_cons, List.length_cons, List.length_cons, ih, List.length_cons]
    omega

theorem decodePayload_hexText (payload : List (Fin 256)) :
    decodePayload (some (hexText payload)) = .ok (payload.map fun b : Fin 256 => Char.ofNat b.val) := by
  have heven : ¬ (hexText payload).length % 2 ≠ 0 := by
    rw [length_hexText]
    omega
  rw [decodePayload, if_neg heven, decodePairs_hexText]

end payload

section signature

theorem isSignature_of_matches {beyond before m rest : Text}
    (h : Regex.Matches beyond SIGNATURE_REGEX before m rest) : IsSignature m := by
  obtain ⟨_, _, rfl, rfl, _, _, rfl, ⟨g, _, rfl, hg, _, _, rfl, rfl, s, _, rfl, hs, _, v, rfl, rfl, hv⟩, rfl⟩ := h
  have hnumber {t : Text} (hall : ∀ ch ∈ t, ch.isDigit = true) (hone : 1 ≤ t.length) : IsNumber t :=
    ⟨List.ne_nil_of_length_pos hone, hall⟩
  refine ⟨g, s, v, ?_, hnumber hg.1 hg.2.1, hnumber hs.1 hs.2.1, hnumber hv.1 hv.2.1⟩
  simp [signatureText, List.intercalate_cons_cons, List.intercalate_singleton]

theorem first_signatureText {g s v : Text} (hg : IsNumber g) (hs : IsNumber s) (hv : IsNumber v)
    (beyond before after : Text) : SIGNATURE_REGEX.first beyond before (signatureText g s v ++ after) =
      some ⟨signatureText g s v, after, [("GENERATOR_ID".toList, g), ("SIGNATURE_ID".toList, s),
        ("SIGNATURE_REVISION".toList, v)]⟩ := by
  let fields : List Regex.FieldText := [⟨"GENERATOR_ID".toList, digits, g⟩, ⟨"SIGNATURE_ID".toList, digits, s⟩,
    ⟨"SIGNATURE_REVISION".toList, digits, v⟩]
  have hreads : ∀ f ∈ fields, Regex.Reads Char.isDigit f.pattern f.text := by
    intro f hf
    simp only [fields, List.mem_cons, List.not_mem_nil, or_false] at hf
    rcases hf with rfl | rfl | rfl
    · exact reads_digits hg
    · exact reads_digits hs
    · exact reads_digits hv
  have hstop : ∀ ch ∈ ([']'] ++ after).head?, ch.isDigit = false := fun ch hch => Option.some.inj hch ▸ rfl
  have hcolon : ∃ ch ∈ [':'].head?, ch.isDigit = false := ⟨':', rfl, rfl⟩
  have hfields := @Regex.first_separated _ _ hcolon fields (List.cons_ne_nil _ _) hreads beyond (['['].reverse ++ before)
    _ hstop
  have hall := Regex.first_seq (Regex.first_literal ['['] _)
    (Regex.first_seq hfields (Regex.first_literal [']'] after))
  simpa [fields, signatureText, SIGNATURE_REGEX] using hall

theorem createSnortSignature_eq {classification : Text} {signature : SnortSignature}
    (h : FirstSignature classification signature) : createSnortSignature classification = .ok signature := by
  obtain ⟨before, g, s, v, after, rfl, ⟨hg, hgint⟩, ⟨hs, hsint⟩, ⟨hv, hvint⟩, rfl, hfirst⟩ := h
  have hskip : ∀ s' t, before = s' ++ t → t ≠ [] →
      SIGNATURE_REGEX.first [] (s'.reverse ++ []) (t ++ (signatureText g s v ++ after)) = none := by
    rintro s' t rfl ht
    rw [Regex.first_eq_none_iff]
    intro m rest hm hmatch
    have hle := hfirst s' m rest (isSignature_of_matches hmatch) (by rw [List.append_assoc, hm])
    have hpos := List.length_pos_iff.mpr ht
    rw [List.length_append] at hle
    omega
  have hfind := Regex.find_skip hskip
  rw [Regex.find_of_first (first_signatureText hg hs hv _ _ after)] at hfind
  simp only [createSnortSignature, Regex.findIn, hfind, Option.map_some]
  change (do
    let generatorId ← parseInt 10 (some g)
    let signatureId ← parseInt 10 (some s)
    let signatureRevision ← parseInt 10 (some v)
    return SnortSignature.mk generatorId signatureId signatureRevision) = _
  rw [parseInt_digits hg.1 hg.2 hgint, parseInt_digits hs.1 hs.2 hsint, parseInt_digits hv.1 hv.2 hvint]
  rfl

end signature

section ipHeader

def Packet.fields (p : Packet) : List Regex.FieldText :=
  [⟨"PROTOCOL".toList, digitsUpTo 3, decimal p.transport.protocolNumber⟩,
    ⟨"SOURCE_IP".toList, dottedAddress, p.source.text⟩, ⟨"DESTINATION_IP".toList, dottedAddress, p.destination.text⟩,
    ⟨"PROTOCOL_VERSION".toList, digitsUpTo 1, decimal p.version⟩,
    ⟨"HEADER_LENGTH".toList, digits, decimal p.headerLength⟩,
    ⟨"SERVICE_TYPE".toList, digits, decimal p.serviceType⟩,
    ⟨"DATAGRAM_LENGTH".toList, digits, decimal p.datagramLength⟩,
    ⟨"IDENTIFICATION".toList, digits, decimal p.identification⟩, ⟨"FLAGS".toList, digits, decimal p.flags⟩,
    ⟨"FRAGMENT_OFFSET".toList, digits, decimal p.fragmentOffset⟩,
    ⟨"TIME_TO_LIVE".toList, digits, decimal p.timeToLive⟩, ⟨"CHECKSUM".toList, digits, decimal p.checksum⟩]

def Packet.ipHeader (p : Packet) : IpHeader where
  protocolNumber := p.transport.protocolNumber
  protocolAlias := getAlias p.transport.protocolNumber
  sourceIp := some p.source.text
  destinationIp := some p.destination.text
  protocolVersion := p.version
  headerLength := p.headerLength
  serviceType := p.serviceType
  datagramLength := p.datagramLength
  identification := p.identification
  flags := p.flags
  fragmentOffset := p.fragmentOffset
  timeToLive := p.timeToLive
  checksum := p.checksum

theorem reads_fields (p : Packet) : ∀ f ∈ p.fields, Regex.Reads Char.isDigit f.pattern f.text := by
  have hdigits (n : Nat) : Regex.Reads Char.isDigit digits (decimal n) := reads_digits (isNumber_decimal n)
  simp only [Packet.fields, List.forall_mem_cons, List.not_mem_nil, false_implies, implies_true, and_true]
  exact ⟨reads_digitsUpTo (by decide) (p.transport.protocolNumber_lt.trans (by decide)), reads_dottedAddress _,
    reads_dottedAddress _, reads_digitsUpTo (by decide) p.version.isLt, hdigits _, hdigits _, hdigits _, hdigits _,
    hdigits _, hdigits _, hdigits _, hdigits _⟩

theorem first_ipHeader (p : Packet) (before rest : Text) :
    IP_HEADER_REGEX.first [] ("|| ".toList.reverse ++ before) (p.headerText ++ (" ||".toList ++ rest)) =
      some ⟨p.headerText, " ||".toList ++ rest, p.fields.map fun f => (f.name, f.text)⟩ := by
  have hne : p.fields ≠ [] := List.cons_ne_nil _ _
  have hstop : ∀ ch ∈ (" ||".toList ++ rest).head?, ch.isDigit = false := fun ch hch => Option.some.inj hch ▸ rfl
  have hblank : ∃ ch ∈ [' '].head?, ch.isDigit = false := ⟨' ', rfl, rfl⟩
  have hfields := @Regex.first_separated _ _ hblank _ hne (reads_fields p) [] ("|| ".toList.reverse ++ before) _ hstop
  have hpatterns : p.fields.map (fun f => (f.name, f.pattern)) = ipHeaderFields := rfl
  have htexts : [' '].intercalate (p.fields.map (·.text)) = p.headerText := rfl
  rw [hpatterns, htexts] at hfields
  have hall := Regex.first_seq (@Regex.first_precededBy _ before _ "|| ".toList)
    (Regex.first_seq hfields (Regex.first_followedBy " ||".toList rest))
  simp only [List.nil_append, List.append_nil] at hall
  unfold IP_HEADER_REGEX
  exact hall

variable {r : SnortRecord} (h : isContainsIpHeader r.sensorName = false) {p : Packet} (hp : r.packet = some p)
include h hp

theorem findIn_render : ∃ after, IP_HEADER_REGEX.findIn r.render =
    some (r.front ++ "|| ".toList, ⟨p.headerText, after, p.fields.map fun f => (f.name, f.text)⟩) := by
  obtain ⟨rest, hrest⟩ := exists_tokens p.transport.sections r.payloadSection
  have htokens : tokens r.packetSections r.payloadSection =
      "|| ".toList ++ (p.headerText ++ (" ||".toList ++ rest)) := by
    have hsections : r.packetSections = p.headerText :: p.transport.sections := by
      unfold SnortRecord.packetSections
      rw [hp]
      rfl
    rw [hsections, tokens_cons, hrest]
    simp
  have hskip : ∀ s t, r.front ++ "|| ".toList = s ++ t → t ≠ [] →
      IP_HEADER_REGEX.first [] (s.reverse ++ []) (t ++ (p.headerText ++ (" ||".toList ++ rest))) = none := by
    intro s t hst ht
    rw [List.append_nil]
    exact r.first_header_eq_none h hst ht
  have hfind := Regex.find_skip hskip
  rw [List.reverse_append, List.append_nil, Regex.find_of_first (first_ipHeader p _ rest)] at hfind
  refine ⟨" ||".toList ++ rest, ?_⟩
  rw [Regex.findIn, r.render_front, htokens, ← List.append_assoc, hfind]
  simp

theorem createIpHeader_render : createIpHeader r.render = .ok p.ipHeader := by
  obtain ⟨after, hfind⟩ := findIn_render h hp
  have hprotocol := parseInt_decimal (p.transport.protocolNumber_lt.trans (by decide : 256 < 2 ^ 31))
  have hversion := parseInt_decimal (p.version.isLt.trans (by decide : 10 < 2 ^ 31))
  have hint (n : Fin (2 ^ 31)) : parseInt 10 (some (decimal n)) = .ok (n.val : Int) := parseInt_decimal n.isLt
  simp only [createIpHeader, hfind]
  change (do
    let protocolNumber ← parseInt 10 (some (decimal p.transport.protocolNumber))
    let protocolVersion ← parseInt 10 (some (decimal p.version))
    let headerLength ← parseInt 10 (some (decimal p.headerLength))
    let serviceType ← parseInt 10 (some (decimal p.serviceType))
    let datagramLength ← parseInt 10 (some (decimal p.datagramLength))
    let identification ← parseInt 10 (some (decimal p.identification))
    let flags ← parseInt 10 (some (decimal p.flags))
    let fragmentOffset ← parseInt 10 (some (decimal p.fragmentOffset))
    let timeToLive ← parseInt 10 (some (decimal p.timeToLive))
    let checksum ← parseInt 10 (some (decimal p.checksum))
    return IpHeader.mk protocolNumber (getAlias protocolNumber) (some p.source.text) (some p.destination.text)
      protocolVersion headerLength serviceType datagramLength identification flags fragmentOffset timeToLive
      checksum) = _
  simp only [hprotocol, hversion, hint]
  rfl

end ipHeader
section protocolHeader

/-- The ports are the first two of the numbers, whatever the others are. -/
theorem parseProtocolHeader_numbers (sourcePort destinationPort : Fin (2 ^ 31)) (others : List (Text × Nat)) :
    parseProtocolHeader (.separated [' '] (("SOURCE_PORT".toList, digits) :: ("DESTINATION_PORT".toList, digits) ::
      others.map fun x => (x.1, digits)))
      (' ' :: (numbersText (sourcePort :: destinationPort :: others.map (·.2)) ++ [' '])) =
        .ok ⟨sourcePort, destinationPort⟩ := by
  let numbers : List (Text × Nat) :=
    ("SOURCE_PORT".toList, sourcePort.val) :: ("DESTINATION_PORT".toList, destinationPort.val) :: others
  let fields : List Regex.FieldText := numbers.map fun x => ⟨x.1, digits, decimal x.2⟩
  have hpatterns : fields.map (fun f => (f.name, f.pattern)) = numbers.map fun x => (x.1, digits) := List.map_map
  have htexts : [' '].intercalate (fields.map (·.text)) = numbersText (numbers.map (·.2)) := by
    rw [numbersText, List.map_map, List.map_map]
    rfl
  have hreads : ∀ f ∈ fields, Regex.Reads Char.isDigit f.pattern f.text :=
    List.forall_mem_map.mpr fun x _ => reads_digits (isNumber_decimal x.2)
  have hblank : ∃ ch ∈ [' '].head?, ch.isDigit = false := ⟨' ', rfl, rfl⟩
  have hstop : ∀ ch ∈ [' '].head?, ch.isDigit = false := fun ch hch => Option.some.inj hch ▸ rfl
  have hfirst := @Regex.first_separated _ _ hblank fields (List.cons_ne_nil _ _) hreads [] ([' '].reverse ++ []) _ hstop
  rw [hpatterns, htexts] at hfirst
  have hskip : ∀ s t, [' '] = s ++ t → t ≠ [] →
      (Regex.separated [' '] (numbers.map fun x => (x.1, digits))).first [] (s.reverse ++ [])
        (t ++ (numbersText (numbers.map (·.2)) ++ [' '])) = none := by
    intro s t hst ht
    obtain ⟨ch, t, rfl⟩ := List.exists_cons_of_ne_nil ht
    have hch : ch = ' ' := List.mem_singleton.mp (hst ▸ List.mem_append_right s List.mem_cons_self)
    refine Regex.first_seq_none (Regex.first_group_none (Regex.first_repeated_none Nat.one_pos ?_))
    intro c hc
    rw [← Option.some.inj hc, hch]
    rfl
  have hfind := Regex.find_skip hskip
  rw [Regex.find_of_first hfirst, Option.map_some] at hfind
  have hfound : Regex.findIn (.separated [' '] (("SOURCE_PORT".toList, digits) :: ("DESTINATION_PORT".toList, digits) ::
      others.map fun x => (x.1, digits)))
      (' ' :: (numbersText (sourcePort :: destinationPort :: others.map (·.2)) ++ [' '])) = some _ := hfind
  have hint (n : Fin (2 ^ 31)) : parseInt 10 (some (decimal n)) = .ok (n.val : Int) := parseInt_decimal n.isLt
  rw [parseProtocolHeader, hfound]
  change (do
    let sourcePort ← parseInt 10 (some (decimal sourcePort))
    let destinationPort ← parseInt 10 (some (decimal destinationPort))
    return ProtocolHeader.mk sourcePort destinationPort) = _
  rw [hint, hint]
  rfl

def Transport.protocolHeader : Transport → Option ProtocolHeader
  | .tcp sourcePort destinationPort _ | .udp sourcePort destinationPort _ => some ⟨sourcePort, destinationPort⟩
  | .icmp _ | .other _ _ => none

theorem parseTcpHeader_numbers (sourcePort destinationPort : Fin (2 ^ 31)) (numbers : Fin 8 → Nat) :
    parseTcpHeader (' ' :: (numbersText (sourcePort :: destinationPort :: List.ofFn numbers) ++ [' '])) =
      .ok ⟨sourcePort, destinationPort⟩ :=
  parseProtocolHeader_numbers sourcePort destinationPort
    [("SEQUENCE_NUMBER".toList, numbers 0), ("ACKNOWLEDGEMENT_NUMBER".toList, numbers 1), ("OFFSET".toList, numbers 2),
      ("RESERVED".toList, numbers 3), ("FLAGS".toList, numbers 4), ("WINDOW_SIZE".toList, numbers 5),
      ("CHECKSUM".toList, numbers 6), ("URGENT_POINTER".toList, numbers 7)]

theorem parseUdpHeader_numbers (sourcePort destinationPort : Fin (2 ^ 31)) (numbers : Fin 2 → Nat) :
    parseUdpHeader (' ' :: (numbersText (sourcePort :: destinationPort :: List.ofFn numbers) ++ [' '])) =
      .ok ⟨sourcePort, destinationPort⟩ :=
  parseProtocolHeader_numbers sourcePort destinationPort
    [("DATAGRAM_LENGTH".toList, numbers 0), ("CHECKSUM".toList, numbers 1)]

end protocolHeader

section lines

theorem SingleLine.append {s t : Text} (hs : SingleLine s) (ht : SingleLine t) : SingleLine (s ++ t) :=
  List.forall_mem_append.mpr ⟨hs, ht⟩

theorem SingleLine.cons {ch : Char} {t : Text} (hch : isLineSeparator ch = false) (ht : SingleLine t) :
    SingleLine (ch :: t) := List.forall_mem_cons.mpr ⟨hch, ht⟩

theorem singleLine_tokens {sections : List Text} {last : Text} (hsections : ∀ t ∈ sections, SingleLine t)
    (hlast : SingleLine last) : SingleLine (tokens sections last) := by
  induction sections with
  | nil => exact SingleLine.append (by decide) (hlast.append (by decide))
  | cons t sections ih =>
    obtain ⟨ht, hsections⟩ := List.forall_mem_cons.mp hsections
    rw [tokens_cons]
    exact SingleLine.append (by decide) ((SingleLine.cons rfl (ht.append (by decide))).append (ih hsections))

end lines

section scanning
variable (r : SnortRecord)

theorem singleLine_sections : ∀ t ∈ r.alertCause :: r.packetSections, SingleLine t :=
  List.forall_mem_cons.mpr ⟨r.alertCause_line, fun t ht => (r.recordText_packetSections t ht).singleLine⟩

theorem next_tokens (before : Text) {t : Text} (ht : '|' ∉ t) (sections : List Text) (last : Text) : ∃ before',
    Scanner.next "||".toList ⟨before, tokens (t :: sections) last⟩ =
      .ok (' ' :: (t ++ [' ']), ⟨before', tokens sections last⟩) := by
  obtain ⟨rest, hrest⟩ := exists_tokens sections last
  have hbar : '|' ∉ ' ' :: (t ++ [' ']) := by simpa using ht
  have hnext := @Scanner.next_token "||".toList before _ _ rest _ rfl hbar (List.cons_ne_nil _ _) (.inl rfl)
  rw [← hrest, ← tokens_cons] at hnext
  exact ⟨_, hnext⟩

theorem readHeaders_render (h : isContainsIpHeader r.sensorName = false) (before : Text) : ∃ before',
    readHeaders r.render ⟨before, tokens r.packetSections r.payloadSection⟩ =
      .ok (r.packet.map Packet.ipHeader, r.packet.bind (·.transport.protocolHeader),
        ⟨before', tokens [] r.payloadSection⟩) := by
  have hbars := r.sections_bar
  unfold SnortRecord.packetSections at hbars ⊢
  cases hp : r.packet with
  | none =>
    refine ⟨before, ?_⟩
    rw [readHeaders, r.isContainsIpHeader_render h hp]
    rfl
  | some p =>
    obtain ⟨after, hfind⟩ := findIn_render h hp
    have hcontains : isContainsIpHeader r.render = true := by
      rw [isContainsIpHeader, Regex.occursIn, hfind]
      rfl
    rw [hp] at hbars
    have hheader : '|' ∉ p.headerText := hbars _ (List.mem_cons_of_mem _ List.mem_cons_self)
    obtain ⟨before₁, hnext⟩ := next_tokens before hheader p.transport.sections r.payloadSection
    rw [readHeaders, if_pos hcontains, createIpHeader_render h hp]
    simp only [Option.elim_some, Option.map_some, Option.bind_some, bind, Except.bind, hnext]
    have hnumber : p.ipHeader.protocolNumber = p.transport.protocolNumber := rfl
    rw [hnumber]
    have hnext₂ {t : Text} (ht : t ∈ p.transport.sections) := next_tokens before₁
      (hbars t (List.mem_cons_of_mem _ (List.mem_cons_of_mem _ ht))) [] r.payloadSection
    cases htransport : p.transport with
    | tcp sourcePort destinationPort numbers =>
      rw [htransport] at hnext₂
      obtain ⟨before₂, hnext₂⟩ := hnext₂ List.mem_cons_self
      refine ⟨before₂, ?_⟩
      have htcp : ((Transport.tcp sourcePort destinationPort numbers).protocolNumber : Int) = TCP := rfl
      rw [if_pos htcp, Transport.sections, hnext₂]
      simp only [parseTcpHeader_numbers]
      rfl
    | udp sourcePort destinationPort numbers =>
      rw [htransport] at hnext₂
      obtain ⟨before₂, hnext₂⟩ := hnext₂ List.mem_cons_self
      refine ⟨before₂, ?_⟩
      have htcp : ((Transport.udp sourcePort destinationPort numbers).protocolNumber : Int) ≠ TCP :=
        (by decide : ((17 : Nat) : Int) ≠ 6)
      have hudp : ((Transport.udp sourcePort destinationPort numbers).protocolNumber : Int) = UDP := rfl
      rw [if_neg htcp, if_pos hudp, Transport.sections, hnext₂]
      simp only [parseUdpHeader_numbers]
      rfl
    | icmp numbers =>
      rw [htransport] at hnext₂
      obtain ⟨before₂, hnext₂⟩ := hnext₂ List.mem_cons_self
      refine ⟨before₂, ?_⟩
      have htcp : ((Transport.icmp numbers).protocolNumber : Int) ≠ TCP := (by decide : ((1 : Nat) : Int) ≠ 6)
      have hudp : ((Transport.icmp numbers).protocolNumber : Int) ≠ UDP := (by decide : ((1 : Nat) : Int) ≠ 17)
      have hicmp : ((Transport.icmp numbers).protocolNumber : Int) = ICMP := rfl
      rw [if_neg htcp, if_neg hudp, if_pos hicmp, Transport.sections, hnext₂]
      rfl
    | other protocolNumber unknown =>
      have hother : (protocolNumber.val : Int) ≠ TCP ∧ (protocolNumber.val : Int) ≠ UDP ∧
          (protocolNumber.val : Int) ≠ ICMP := by
        simp only [List.mem_cons, List.not_mem_nil, or_false] at unknown
        simp only [TCP, UDP, ICMP]
        omega
      have hprotocol : ((Transport.other protocolNumber unknown).protocolNumber : Int) = protocolNumber.val := rfl
      refine ⟨before₁, ?_⟩
      rw [hprotocol, if_neg hother.1, if_neg hother.2.1, if_neg hother.2.2]
      rfl

/-- The length is read and dropped. -/
theorem findInLine_payload (before : Text) : ∃ before' before'',
    Scanner.findInLine digits ⟨before, tokens [] r.payloadSection⟩ =
      (some (decimal r.payloadLength), ⟨before', ' ' :: (hexText r.payload ++ ['|'])⟩) ∧
    Scanner.findInLine payloadRegex ⟨before', ' ' :: (hexText r.payload ++ ['|'])⟩ =
      (some (hexText r.payload), ⟨before'', ['|']⟩) := by
  have hline : SingleLine (tokens [] r.payloadSection) :=
    singleLine_tokens (fun _ h => absurd h List.not_mem_nil) r.recordText_payloadSection.singleLine
  have htext : tokens [] r.payloadSection =
      "|| ".toList ++ (decimal r.payloadLength ++ (' ' :: (hexText r.payload ++ ['|']))) := by
    simp [tokens, SnortRecord.payloadSection]
  have hdigit (n : Fin 16) : decide (hexDigit n ∈ "0123456789ABCDEF".toList) = true := by
    revert n
    decide
  have hhex : ∀ ch ∈ hexText r.payload, decide (ch ∈ "0123456789ABCDEF".toList) = true := by
    intro ch hch
    obtain ⟨n, rfl⟩ := exists_of_mem_hexText hch
    exact hdigit n
  have hnonempty : hexText r.payload ≠ [] := by
    refine List.ne_nil_of_length_pos ?_
    rw [length_hexText]
    have hpos := List.length_pos_iff.mpr r.payload_ne_nil
    omega
  rw [htext] at hline ⊢
  have hrest : SingleLine ([' '] ++ (hexText r.payload ++ ['|'])) :=
    (List.forall_mem_append.mp (List.forall_mem_append.mp hline).2).2
  have hlength := @Scanner.findInLine_repeated _ none before _ _ _ hline (by decide) (isNumber_decimal _).2
    (isNumber_decimal _).1 (fun _ h => absurd h (Option.not_mem_none _)) (fun ch hch => Option.some.inj hch ▸ rfl)
  have hpayload (before' : Text) := @Scanner.findInLine_repeated _ none before' [' '] _ ['|'] hrest (by decide) hhex
    hnonempty (fun _ h => absurd h (Option.not_mem_none _)) (fun ch hch => Option.some.inj hch ▸ rfl)
  exact ⟨_, _, hlength, hpayload _⟩

theorem findInLine_sensorName {rest : Text} (hrest : SingleLine rest) : ∃ before,
    Scanner.findInLine sensorNameRegex
      ⟨[], "| [SNORTIDS[LOG]: [".toList ++ (r.sensorName ++ ("] ] ||".toList ++ rest))⟩ =
        (some r.sensorName, ⟨before, "] ] ||".toList ++ rest⟩) := by
  have hline : SingleLine ("| [SNORTIDS[LOG]: [".toList ++ (r.sensorName ++ ("] ] ||".toList ++ rest))) :=
    SingleLine.append (by decide) (r.sensorName_line.append (SingleLine.append (by decide) hrest))
  have hborder : ∀ k < "] ] ||".toList.length, 0 < k → ¬ "] ] ||".toList.drop k <+: "] ] ||".toList := by decide
  have hearlier : ∀ s t, r.sensorName = s ++ t → t ≠ [] →
      (Regex.followedBy "] ] ||".toList).first [] (s.reverse ++ "| [SNORTIDS[LOG]: [".toList.reverse)
        (t ++ ("] ] ||".toList ++ rest)) = none := by
    intro s t hst ht
    rw [Regex.first_eq_none_iff]
    rintro m after hmatch ⟨rfl, hstarts⟩
    rw [List.append_nil, ← List.nil_append after, ← hmatch] at hstarts
    refine not_prefix_of_not_infix hborder ht (fun hin => r.sensorName_end ?_) hstarts
    exact hst ▸ List.infix_append_of_infix_right hin
  have hall : ∀ ch ∈ r.sensorName, (!isLineSeparator ch) = true := by
    intro ch hch
    rw [r.sensorName_line ch hch]
    rfl
  have hbefore : "| [SNORTIDS[LOG]: [".toList.reverse = "[SNORTIDS[LOG]: [".toList.reverse ++ "| ".toList.reverse := by
    decide
  have hfirst := Regex.first_seq (@Regex.first_precededBy [] "| ".toList.reverse
    (r.sensorName ++ ("] ] ||".toList ++ rest)) "[SNORTIDS[LOG]: [".toList)
    (hbefore ▸ Regex.first_lazy hall hearlier (Regex.first_followedBy _ rest))
  rw [← hbefore, List.nil_append, List.append_nil] at hfirst
  have hskip : ∀ s t, "| [SNORTIDS[LOG]: [".toList = s ++ t → t ≠ [] →
      sensorNameRegex.first [] (s.reverse ++ []) (t ++ (r.sensorName ++ ("] ] ||".toList ++ rest))) = none := by
    intro s t hst ht
    have hs : s = "| [SNORTIDS[LOG]: [".toList.take s.length := by rw [hst, List.take_left]
    have hlt : s.length < 19 := by
      have hlen : 19 = s.length + t.length := by
        rw [← List.length_append, ← hst]
        rfl
      have hpos := List.length_pos_iff.mpr ht
      omega
    have hshort : ∀ k < 19, ¬ "[SNORTIDS[LOG]: [".toList.reverse <+: ("| [SNORTIDS[LOG]: [".toList.take k).reverse := by
      decide
    refine Regex.first_seq_none (Regex.first_eq_none_iff.mpr ?_)
    rintro m after - ⟨-, hstarts⟩
    rw [List.append_nil, hs] at hstarts
    exact hshort _ hlt hstarts
  rw [← List.append_nil "| [SNORTIDS[LOG]: [".toList.reverse] at hfirst
  exact ⟨_, Scanner.findInLine_of_first hline (List.cons_ne_nil _ _) hskip hfirst⟩

theorem findInLine_date (before : Text) {rest : Text} (hrest : SingleLine rest) : ∃ before',
    Scanner.findInLine dateRegex ⟨before, "] ] ||".toList ++ (' ' :: (r.timestamp.text ++ rest))⟩ =
      (some r.timestamp.text, ⟨before', rest⟩) := by
  have htext : "] ] ||".toList ++ (' ' :: (r.timestamp.text ++ rest)) =
      "] ] || ".toList ++ (r.timestamp.text ++ rest) := by simp
  have hline : SingleLine ("] ] || ".toList ++ (r.timestamp.text ++ rest)) :=
    SingleLine.append (by decide) ((recordText_timestamp _).singleLine.append hrest)
  have hskip : ∀ s t, "] ] || ".toList = s ++ t → t ≠ [] →
      dateRegex.first [] (s.reverse ++ before) (t ++ (r.timestamp.text ++ rest)) = none := by
    intro s t hst ht
    obtain ⟨ch, t, rfl⟩ := List.exists_cons_of_ne_nil ht
    have hnodigit : ∀ c ∈ "] ] || ".toList, c.isDigit = false := by decide
    refine Regex.first_seq_none (Regex.first_repeated_none (by decide) ?_)
    intro c hc
    obtain rfl := Option.some.inj hc
    exact hnodigit ch (hst ▸ List.mem_append_right s List.mem_cons_self)
  rw [htext]
  exact ⟨_, Scanner.findInLine_of_first hline (List.cons_ne_nil _ _) hskip
    (reads_dateRegex r.timestamp [] _ rest fun _ _ => rfl)⟩

theorem findInLine_priority (before : Text) {rest : Text} (hrest : SingleLine (' ' :: rest)) : ∃ before',
    Scanner.findInLine (digitsUpTo 2) ⟨before, ' ' :: (decimal r.priority ++ ' ' :: rest)⟩ =
      (some (decimal r.priority), ⟨before', ' ' :: rest⟩) := by
  have hline : SingleLine ([' '] ++ (decimal r.priority ++ ' ' :: rest)) :=
    SingleLine.append (by decide) ((recordText_decimal _).singleLine.append hrest)
  have htwo : ∀ bound ∈ some 2, (decimal r.priority).length ≤ bound := by
    intro bound hbound
    obtain rfl := Option.some.inj hbound
    exact (decimal_length_le_iff (by decide)).mpr r.priority.isLt
  exact ⟨_, Scanner.findInLine_repeated hline (by decide) (isNumber_decimal _).2 (isNumber_decimal _).1 htwo
    (fun ch hch => Option.some.inj hch ▸ rfl)⟩

end scanning
namespace SnortRecord
variable (r : SnortRecord)

/-- The message that the parser should create. -/
def message : SnortMessage where
  sensorName := some r.sensorName
  date := r.timestamp.instant
  priority := r.priority
  classification := r.classification
  alertCause := r.alertCause
  signature := r.signature
  ipHeader := r.packet.map Packet.ipHeader
  protocolHeader := r.packet.bind (·.transport.protocolHeader)
  httpHeader := r.httpHeader
  payload := r.payloadText

theorem toSnortLogData_message : r.message.toSnortLogData = r.toSnortLogData := by
  unfold SnortMessage.toSnortLogData toSnortLogData message
  cases hp : r.packet with
  | none => rfl
  | some p =>
    dsimp only [Option.elim_some, Option.map_some, Option.bind_some]
    cases ht : p.transport with
    | tcp sourcePort destinationPort numbers =>
      unfold Packet.fill Packet.ipHeader
      rw [ht]
      rfl
    | udp sourcePort destinationPort numbers =>
      unfold Packet.fill Packet.ipHeader
      rw [ht]
      rfl
    | icmp numbers =>
      unfold Packet.fill Packet.ipHeader
      rw [ht]
      rfl
    | other protocolNumber unknown =>
      unfold Packet.fill Packet.ipHeader
      rw [ht]
      rfl

theorem isMessageFromSnort_render : isMessageFromSnort r.render = true := by
  rw [isMessageFromSnort, contains_iff, render_eq]
  exact List.infix_append_of_infix_left (by decide)

theorem httpHeader_eq : (if (r.packet.map Packet.ipHeader).map (·.protocolNumber) = some TCP ∧
    isContainsHttpHeader r.payloadText then (createHttpHeader r.payloadText).map some else .ok none) =
      .ok r.httpHeader := by
  have hprotocol : (r.packet.map Packet.ipHeader).map (·.protocolNumber) = some TCP ↔
      r.packet.map (·.transport.protocolNumber) = some 6 := by
    cases r.packet with
    | none => simp
    | some p =>
      simp only [Option.map_some, Option.some.injEq, TCP, Packet.ipHeader]
      omega
  unfold httpHeader createHttpHeader
  by_cases htcp : r.packet.map (·.transport.protocolNumber) = some 6
  · by_cases hhttp : isContainsHttpHeader r.payloadText = true
    · rw [if_pos ⟨hprotocol.mpr htcp, hhttp⟩, if_pos htcp, if_pos hhttp]
      rfl
    · rw [if_neg (fun h => hhttp h.2), if_pos htcp, if_neg hhttp]
      rfl
  · rw [if_neg (fun h => htcp (hprotocol.mp h.1)), if_neg htcp]

theorem createSnortMessage_render (h : isContainsIpHeader r.sensorName = false) :
    createSnortMessage r.render = .ok r.message := by
  have hsections := singleLine_sections r
  have hlast := r.recordText_payloadSection.singleLine
  have htokens : SingleLine (tokens (r.alertCause :: r.packetSections) r.payloadSection) :=
    singleLine_tokens hsections hlast
  have hline₁ : SingleLine (' ' :: (r.classification ++ ' ' ::
      tokens (r.alertCause :: r.packetSections) r.payloadSection)) :=
    .cons rfl (r.classification_line.append (.cons rfl htokens))
  have hline₂ : SingleLine (' ' :: (decimal r.priority ++ ' ' :: (r.classification ++ ' ' ::
      tokens (r.alertCause :: r.packetSections) r.payloadSection))) :=
    .cons rfl ((recordText_decimal _).singleLine.append hline₁)
  have hrender : r.render = "| [SNORTIDS[LOG]: [".toList ++ (r.sensorName ++ ("] ] ||".toList ++
      (' ' :: (r.timestamp.text ++ (' ' :: (decimal r.priority ++ ' ' :: (r.classification ++ ' ' ::
        tokens (r.alertCause :: r.packetSections) r.payloadSection))))))) := by
    rw [render_eq]
    simp [alertSection]
  obtain ⟨before₁, hsensor⟩ := findInLine_sensorName r (@SingleLine.cons ' ' _ rfl
    ((recordText_timestamp r.timestamp).singleLine.append hline₂))
  rw [← hrender] at hsensor
  obtain ⟨before₂, hdate⟩ := findInLine_date r before₁ hline₂
  obtain ⟨before₃, hpriority⟩ := findInLine_priority r before₂ hline₁
  obtain ⟨rest, hrest⟩ := exists_tokens (r.alertCause :: r.packetSections) r.payloadSection
  have hclassification : ∃ before₄, Scanner.next "||".toList ⟨before₃, ' ' :: (r.classification ++ ' ' ::
      tokens (r.alertCause :: r.packetSections) r.payloadSection)⟩ =
        .ok (' ' :: (r.classification ++ [' ']),
          ⟨before₄, tokens (r.alertCause :: r.packetSections) r.payloadSection⟩) := by
    have hbar : '|' ∉ ' ' :: (r.classification ++ [' ']) := by simpa using r.classification_bar
    have hnext := @Scanner.next_token "||".toList before₃ _ _ rest _ rfl hbar (List.cons_ne_nil _ _) (.inr rfl)
    rw [← hrest] at hnext
    have htext : [] ++ (' ' :: (r.classification ++ [' ']) ++ tokens (r.alertCause :: r.packetSections) r.payloadSection) =
        ' ' :: (r.classification ++ ' ' :: tokens (r.alertCause :: r.packetSections) r.payloadSection) := by simp
    rw [htext] at hnext
    exact ⟨_, hnext⟩
  obtain ⟨before₄, hclassification⟩ := hclassification
  obtain ⟨before₅, hcause⟩ := next_tokens before₄ r.alertCause_bar r.packetSections r.payloadSection
  obtain ⟨before₆, hheaders⟩ := readHeaders_render r h before₅
  obtain ⟨before₇, before₈, hlength, hpayload⟩ := findInLine_payload r before₆
  have hsignature := createSnortSignature_eq r.first_signature
  have hnumber : parseInt 10 (some (decimal r.priority)) = .ok (r.priority.val : Int) :=
    parseInt_decimal (r.priority.isLt.trans (by decide))
  have hhttp := r.httpHeader_eq
  unfold payloadText at hhttp
  simp only [createSnortMessage, r.isMessageFromSnort_render, if_true, hsensor, hdate, parseDate_text, hpriority, hnumber,
    hclassification, hcause, hsignature, hheaders, hlength, hpayload, decodePayload_hexText, bind, Except.bind,
    trim_pad, r.classification_trimmed, r.alertCause_trimmed]
  split
  · next hcond =>
    rw [if_pos hcond] at hhttp
    rw [hhttp]
    rfl
  · next hcond =>
    rw [if_neg hcond] at hhttp
    rw [message, ← Except.ok.inj hhttp]
    rfl

end SnortRecord

/-- The parser inverts the record format when no sensor name looks like an IP header. -/
theorem parser_inverts_render (r : SnortRecord) (h : isContainsIpHeader r.sensorName = false) :
    (createSnortMessage r.render).map SnortMessage.toSnortLogData = .ok r.toSnortLogData := by
  rw [r.createSnortMessage_render h, ← r.toSnortLogData_message]
  rfl

/-- An alert of one byte. -/
def sampleRecord (sensorName : Text) (sensorName_line : SingleLine sensorName)
    (sensorName_end : ¬ "] ] ||".toList <:+: sensorName) (packet : Option Packet) : SnortRecord where
  sensorName := sensorName
  timestamp := ⟨2017, 10, 12, 7, 13, 42, 88, by decide, by decide, by decide, by decide, by decide, by decide, by decide⟩
  priority := 3
  classification := "[129:15:1]".toList
  signature := ⟨129, 15, 1⟩
  alertCause := "Reset outside window".toList
  packet := packet
  payloadLength := 1
  payload := [65]
  sensorName_line := sensorName_line
  sensorName_end := sensorName_end
  classification_line := by decide
  classification_bar := by decide
  classification_trimmed := by decide
  first_signature := ⟨[], "129".toList, "15".toList, "1".toList, [], by decide, ⟨⟨by decide, by decide⟩, by decide⟩,
    ⟨⟨by decide, by decide⟩, by decide⟩, ⟨⟨by decide, by decide⟩, by decide⟩, by decide, fun _ _ _ _ _ => Nat.zero_le _⟩
  alertCause_line := by decide
  alertCause_bar := by decide
  alertCause_trimmed := by decide
  alertCause_ne_nil := by decide
  alertCause_no_header := by decide
  payload_ne_nil := by decide

def samplePacket : Packet where
  source := ⟨fun _ => 10⟩
  destination := ⟨fun _ => 11⟩
  version := 4
  headerLength := 20
  serviceType := 0
  datagramLength := 40
  identification := 0
  flags := 2
  fragmentOffset := 0
  timeToLive := 64
  checksum := 7
  transport := .tcp 80 8080 fun _ => 1

theorem parser_inverts_sample_alert :
    (createSnortMessage (sampleRecord "sensor".toList (by decide) (by decide) (some samplePacket)).render).map
      SnortMessage.toSnortLogData =
        .ok (sampleRecord "sensor".toList (by decide) (by decide) (some samplePacket)).toSnortLogData :=
  parser_inverts_render _ (by decide)

/-- A sensor name in the form of an IP header is read as one, and the sections run out. -/
theorem sensor_read_as_header :
    createSnortMessage (sampleRecord "|| 6 1.1.1.1 2.2.2.2 4 20 0 1 2 3 4 5 6 ||".toList (by decide) (by decide)
      none).render = .error .noSuchElementException := by
  decide +kernel

end Srvlog.Syslog
