import Srvlog.Library.Utf16
import Srvlog.Syslog.OssecDates

/-! The hash of an alert of ossec, which its date and its priority leave as it is. -/
namespace Srvlog.Syslog
open Library

section removal
variable {r : Regex}

theorem unique_start : Regex.Unique .start := fun _ _ _ _ _ _ h h' _ => h.1.trans h'.1.symm

theorem matches_start_iff {before m rest : Text} :
    Regex.Matches [] (.seq .start r) before m rest ↔ before = [] ∧ Regex.Matches [] r [] m rest := by
  constructor
  · rintro ⟨_, m, rfl, ⟨rfl, rfl⟩, h⟩
    exact ⟨rfl, h⟩
  · rintro ⟨rfl, h⟩
    exact ⟨[], m, rfl, ⟨rfl, rfl⟩, h⟩

/-- What matches at the beginning is removed, and nothing else. -/
theorem removeFirst_leading {m rest : Text} (hr : r.Unique) (hm : Regex.Matches [] r [] m rest) :
    removeFirst (.seq .start r) (m ++ rest) = rest := by
  have hmatches := matches_start_iff.mpr ⟨rfl, hm⟩
  cases hfirst : Regex.first [] (.seq .start r) [] (m ++ rest) with
  | none => exact absurd hmatches (Regex.first_eq_none_iff.mp hfirst m rest rfl)
  | some x =>
    obtain ⟨htext, hx⟩ := Regex.exists_mem_run_iff.mp ⟨x, List.mem_of_mem_head? hfirst, rfl, rfl⟩
    have hmatched : m = x.matched := (unique_start.seq hr) hmatches hx htext
    rw [hmatched] at htext
    have hrest : rest = x.rest := List.append_cancel_left htext
    rw [removeFirst, Regex.findIn, Regex.find_of_first hfirst]
    exact hrest.symm

theorem removeFirst_of_not_leading {text : Text} (h : ∀ m rest, text = m ++ rest → ¬ Regex.Matches [] r [] m rest) :
    removeFirst (.seq .start r) text = text := by
  have hnone : (Regex.seq .start r).findIn text = none := by
    rw [← Option.isNone_iff_eq_none, ← Option.isSome_eq_false_iff, ← Regex.occursIn, Regex.not_occursIn_iff]
    rintro s m rest rfl hm
    obtain ⟨hs, hm⟩ := matches_start_iff.mp hm
    rw [List.reverse_eq_nil_iff] at hs
    exact h m rest (by rw [hs, List.nil_append]) hm
  rw [removeFirst, hnone]

end removal

section priority

/-- `<\d+>`. -/
def priorityRegex : Regex := .seq (.literal ['<']) (.seq digits (.literal ['>']))

theorem unique_priorityRegex : priorityRegex.Unique := by
  refine (Regex.unique_literal _).seq (Regex.Unique.repeated_seq (Regex.unique_literal _) ?_)
  rintro _ _ _ _ rfl
  exact ⟨'>', rfl, rfl⟩

theorem matches_priorityRegex_iff {m rest : Text} :
    Regex.Matches [] priorityRegex [] m rest ↔ ∃ priority, IsNumber priority ∧ m = '<' :: (priority ++ ['>']) := by
  constructor
  · rintro ⟨_, _, rfl, rfl, priority, _, rfl, ⟨hdigits, hlength, -⟩, rfl⟩
    exact ⟨priority, ⟨List.ne_nil_of_length_pos hlength, hdigits⟩, rfl⟩
  · rintro ⟨priority, ⟨hne, hdigits⟩, rfl⟩
    exact ⟨['<'], priority ++ ['>'], rfl, rfl, priority, ['>'], rfl,
      ⟨hdigits, List.length_pos_iff.mpr hne, fun _ h => nomatch h⟩, rfl⟩

theorem getRawMessage_priority {priority : Text} (hpriority : IsNumber priority) (rawMessage : Text) :
    getRawMessage ('<' :: (priority ++ '>' :: rawMessage)) = rawMessage := by
  have hm := (@matches_priorityRegex_iff _ rawMessage).mpr ⟨priority, hpriority, rfl⟩
  have hremoved := removeFirst_leading unique_priorityRegex hm
  rwa [List.cons_append, List.append_assoc, List.singleton_append] at hremoved

theorem getRawMessage_of_no_priority {rawMessage : Text}
    (h : ∀ priority rest, IsNumber priority → rawMessage ≠ '<' :: (priority ++ '>' :: rest)) :
    getRawMessage rawMessage = rawMessage := by
  refine removeFirst_of_not_leading fun m rest htext hm => ?_
  obtain ⟨priority, hpriority, rfl⟩ := matches_priorityRegex_iff.mp hm
  rw [List.cons_append, List.append_assoc, List.singleton_append] at htext
  exact h priority rest hpriority htext

end priority

section dates

def DigitsBetween (least most : Nat) (t : Text) : Prop := (∀ ch ∈ t, ch.isDigit) ∧ least ≤ t.length ∧ t.length ≤ most

instance (least most : Nat) (t : Text) : Decidable (DigitsBetween least most t) :=
  inferInstanceAs (Decidable ((∀ ch ∈ t, ch.isDigit) ∧ least ≤ t.length ∧ t.length ≤ most))

/-- A date in front of an alert. It may name a month or a day that does not exist. -/
structure OssecDate where
  capital : Char
  small : Text
  blanks : Text
  day : Text
  hour : Text
  minute : Text
  second : Text
  capital_upper : capital.isUpper
  small_lower : ∀ ch ∈ small, ch.isLower
  small_length : small.length = 2
  blanks_ne_nil : blanks ≠ []
  blanks_blank : ∀ ch ∈ blanks, ch = ' '
  day_digits : DigitsBetween 1 2 day
  hour_digits : DigitsBetween 1 2 hour
  minute_digits : DigitsBetween 2 2 minute
  second_digits : DigitsBetween 2 2 second

def OssecDate.text (date : OssecDate) : Text :=
  [date.capital] ++ (date.small ++ (date.blanks ++ (date.day ++ ([' '] ++ (date.hour ++ ([':'] ++
    (date.minute ++ ([':'] ++ date.second))))))))

theorem matches_digitsBetween_iff {beyond before m rest : Text} {least most : Nat} :
    Regex.Matches beyond (.repeated true least (some most) Char.isDigit) before m rest ↔ DigitsBetween least most m := by
  rw [Regex.Matches, DigitsBetween]
  constructor
  · rintro ⟨hdigits, hleast, hmost⟩
    exact ⟨hdigits, hleast, hmost most rfl⟩
  · rintro ⟨hdigits, hleast, hmost⟩
    refine ⟨hdigits, hleast, fun bound hbound => ?_⟩
    rwa [← Option.some.inj hbound]

/-- The dates are exactly the texts that match the pattern. -/
theorem matches_ossecDateRegex_iff {beyond before m rest : Text} :
    Regex.Matches beyond ossecDateRegex before m rest ↔ ∃ date : OssecDate, m = date.text := by
  constructor
  · rintro ⟨capital, _, rfl, ⟨hcapital, hone, hmost⟩, small, _, rfl, ⟨hsmall, htwo, htwo'⟩, blanks, _, rfl,
      ⟨hblanks, hsome, -⟩, day, _, rfl, hday, _, _, rfl, rfl, hour, _, rfl, hhour, _, _, rfl, rfl, minute, _, rfl,
      hminute, _, second, rfl, rfl, hsecond⟩
    obtain ⟨ch, rfl⟩ := List.length_eq_one_iff.mp (Nat.le_antisymm (hmost 1 rfl) hone)
    refine ⟨{
      capital := ch, small, blanks, day, hour, minute, second
      capital_upper := hcapital ch List.mem_cons_self
      small_lower := hsmall
      small_length := Nat.le_antisymm (htwo' 2 rfl) htwo
      blanks_ne_nil := List.ne_nil_of_length_pos hsome
      blanks_blank := fun ch hch => of_decide_eq_true (hblanks ch hch)
      day_digits := matches_digitsBetween_iff.mp hday
      hour_digits := matches_digitsBetween_iff.mp hhour
      minute_digits := matches_digitsBetween_iff.mp hminute
      second_digits := matches_digitsBetween_iff.mp hsecond }, rfl⟩
  · rintro ⟨date, rfl⟩
    have hfixed {count : Nat} {m : Text} (hm : m.length = count) :
        count ≤ m.length ∧ ∀ bound ∈ some count, m.length ≤ bound :=
      ⟨hm.ge, fun bound hbound => (hm.trans (Option.some.inj hbound)).le⟩
    refine ⟨_, _, rfl, ⟨?_, hfixed rfl⟩, _, _, rfl, ⟨date.small_lower, hfixed date.small_length⟩, _, _, rfl, ⟨?_, ?_, ?_⟩,
      _, _, rfl, matches_digitsBetween_iff.mpr date.day_digits, _, _, rfl, rfl, _, _, rfl,
      matches_digitsBetween_iff.mpr date.hour_digits, _, _, rfl, rfl, _, _, rfl,
      matches_digitsBetween_iff.mpr date.minute_digits, _, _, rfl, rfl, matches_digitsBetween_iff.mpr date.second_digits⟩
    · exact List.forall_mem_singleton.mpr date.capital_upper
    · exact fun ch hch => decide_eq_true (date.blanks_blank ch hch)
    · exact List.length_pos_iff.mpr date.blanks_ne_nil
    · exact fun _ h => nomatch h

/-- The date is removed whole, however it pads the day and the hour. -/
theorem stripOssecDate_date (date : OssecDate) (rest : Text) : stripOssecDate (date.text ++ ' ' :: rest) = rest := by
  have hm : Regex.Matches [] (.seq ossecDateRegex (.literal [' '])) [] (date.text ++ [' ']) rest :=
    ⟨date.text, [' '], rfl, matches_ossecDateRegex_iff.mpr ⟨date, rfl⟩, rfl⟩
  have hremoved := removeFirst_leading (unique_ossecDateRegex.seq (Regex.unique_literal _)) hm
  rwa [List.append_assoc, List.singleton_append] at hremoved

end dates

section hashes

theorem hash_of_createOssecSnortMessage {platform : Platform} {rawMessage : Text} {message : OssecSnortMessage}
    (h : createOssecSnortMessage platform rawMessage = .ok message) :
    message.hash = platform.md5 (stripOssecDate rawMessage) := by
  rw [createOssecSnortMessage] at h
  split at h
  · cases h
  · obtain ⟨date, -, h⟩ := exists_of_bind_eq_ok h
    obtain rfl := Except.ok.inj h
    rfl

/-- Two alerts, read at any two times, share their hash if and only if they have the same text behind
their dates. A priority in front changes nothing. -/
theorem hash_of_text_after_date {digest : List UInt8 → Text} (hdigest : Function.Injective digest)
    {platform platform' : Platform} (hmd5 : ∀ t, platform.md5 t = digest (utf8 t))
    (hmd5' : ∀ t, platform'.md5 t = digest (utf8 t)) :
    (∀ (date date' : OssecDate) (rest rest' : Text) (message message' : OssecSnortMessage),
      createOssecSnortMessage platform (date.text ++ ' ' :: rest) = .ok message →
      createOssecSnortMessage platform' (date'.text ++ ' ' :: rest') = .ok message' →
      (message.hash = message'.hash ↔ utf8 rest = utf8 rest')) ∧
    (∀ priority rawMessage : Text, IsNumber priority →
      createOssecSnortMessage platform (getRawMessage ('<' :: (priority ++ '>' :: rawMessage))) =
        createOssecSnortMessage platform rawMessage) ∧
    ∀ (date : OssecDate) (rest : Text),
      createOssecSnortMessage platform (getRawMessage (date.text ++ ' ' :: rest)) =
        createOssecSnortMessage platform (date.text ++ ' ' :: rest) := by
  refine ⟨?_, ?_, ?_⟩
  · intro date date' rest rest' message message' h h'
    rw [hash_of_createOssecSnortMessage h, hash_of_createOssecSnortMessage h', stripOssecDate_date, stripOssecDate_date,
      hmd5, hmd5']
    exact hdigest.eq_iff
  · intro priority rawMessage hpriority
    rw [getRawMessage_priority hpriority]
  · intro date rest
    rw [getRawMessage_of_no_priority]
    intro priority more _ h
    have hcapital := date.capital_upper
    rw [OssecDate.text, List.append_assoc, List.singleton_append] at h
    rw [(List.cons.inj h).1] at hcapital
    cases hcapital

def repeatedAlert : Text := "log-1 ossec: Alert Level: 10; snort[7]: [1:2016979:3] x".toList

/-- A digest that is right for this alert. -/
def alertDigest (bytes : List UInt8) : Text :=
  if bytes = utf8 repeatedAlert then "f5a2ae0839d4e8dbc95c82b990f41016".toList
  else 'x' :: bytes.map fun byte => Char.ofNat byte.toNat

theorem alertDigest_injective : Function.Injective alertDigest := by
  have hbyte (byte : UInt8) : (Char.ofNat byte.toNat).toNat = byte.toNat :=
    toNat_ofNat (.inl (byte.toNat_lt.trans (by decide)))
  have hinjective : Function.Injective fun byte : UInt8 => Char.ofNat byte.toNat := by
    intro a b h
    have htoNat := congrArg Char.toNat h
    rw [hbyte, hbyte] at htoNat
    exact UInt8.toNat_inj.mp htoNat
  have hother (t : Text) : "f5a2ae0839d4e8dbc95c82b990f41016".toList ≠ 'x' :: t := by
    intro h
    have hhead := congrArg List.head? h
    have hne : "f5a2ae0839d4e8dbc95c82b990f41016".toList.head? ≠ some 'x' := by decide
    exact hne hhead
  intro a b h
  rw [alertDigest, alertDigest] at h
  split at h
  · next ha =>
    split at h
    · next hb => rw [ha, hb]
    · exact absurd h (hother _)
  · split at h
    · exact absurd h.symm (hother _)
    · exact List.map_injective_iff.mpr hinjective (List.cons.inj h).2

def juneDate : OssecDate where
  capital := 'J'
  small := ['u', 'n']
  blanks := [' ', ' ']
  day := ['9']
  hour := ['1', '6']
  minute := ['0', '8']
  second := ['1', '0']
  capital_upper := by decide
  small_lower := by decide
  small_length := rfl
  blanks_ne_nil := List.cons_ne_nil _ _
  blanks_blank := by decide
  day_digits := by decide
  hour_digits := by decide
  minute_digits := by decide
  second_digits := by decide

def laterDate : OssecDate := { juneDate with
  blanks := [' ']
  day := ['2', '1']
  hour := ['7']
  blanks_ne_nil := List.cons_ne_nil _ _
  blanks_blank := by decide
  day_digits := by decide
  hour_digits := by decide }

def platformOfYear (year : Int) : Platform := ⟨year, id, fun t => alertDigest (utf8 t)⟩

theorem repeated_alert_shares_hash : ∃ message message',
    createOssecSnortMessage (platformOfYear 2016) (getRawMessage ('<' :: (['1', '3', '2'] ++ '>' ::
      (juneDate.text ++ ' ' :: repeatedAlert)))) = .ok message ∧
    createOssecSnortMessage (platformOfYear 2017) (laterDate.text ++ ' ' :: repeatedAlert) = .ok message' ∧
    message.hash = message'.hash := by
  obtain ⟨hhash, hpriority, -⟩ := hash_of_text_after_date alertDigest_injective
    (fun _ => rfl : ∀ t, (platformOfYear 2016).md5 t = alertDigest (utf8 t))
    (fun _ => rfl : ∀ t, (platformOfYear 2017).md5 t = alertDigest (utf8 t))
  have hok {result : Except JavaException OssecSnortMessage} (h : result.isOk) : ∃ message, result = .ok message := by
    cases result with
    | error failure => cases h
    | ok message => exact ⟨message, rfl⟩
  obtain ⟨message, h⟩ :=
    @hok (createOssecSnortMessage (platformOfYear 2016) (juneDate.text ++ ' ' :: repeatedAlert)) (by decide)
  obtain ⟨message', h'⟩ :=
    @hok (createOssecSnortMessage (platformOfYear 2017) (laterDate.text ++ ' ' :: repeatedAlert)) (by decide)
  refine ⟨message, message', ?_, h', (hhash juneDate laterDate _ _ _ _ h h').mpr rfl⟩
  rw [hpriority ['1', '3', '2'] _ ⟨List.cons_ne_nil _ _, by decide⟩, h]

end hashes
end Srvlog.Syslog
