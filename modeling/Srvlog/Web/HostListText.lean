import Srvlog.Web.AddHostsPage
import Srvlog.Library.Transaction

/-! The text of hosts and addresses that the page for adding hosts reads, and its calls
of the collector. -/
namespace Srvlog.Web.AddHostsPage
open Library

/-- `parseHosts` with its call of the collector; the result tells whether the text was accepted. -/
def submitHosts {σ : Type} (saveHosts : List HostData → Action σ JavaException Unit) (originValue : Text) :
    Action σ JavaException Bool := do
  match ← ofResult (parseHosts originValue) with
  | none => return false
  | some hostDataList =>
    saveHosts hostDataList
    return true

/-- A collector that notes what it is called with. -/
def recordHosts (hostDataList : List HostData) : Action (List (List HostData)) JavaException Unit :=
  fun calls => (.ok (), calls ++ [hostDataList])

section submit
variable {originValue : Text} {calls : List (List HostData)}

theorem submitHosts_of_hosts {hostDataList : List HostData} (h : parseHosts originValue = .ok (some hostDataList)) :
    submitHosts recordHosts originValue calls = (.ok true, calls ++ [hostDataList]) := by
  rw [submitHosts, h]
  rfl

theorem submitHosts_of_none (h : parseHosts originValue = .ok none) :
    submitHosts recordHosts originValue calls = (.ok false, calls) := by
  rw [submitHosts, h]
  rfl

theorem submitHosts_of_error {e : JavaException} (h : parseHosts originValue = .error e) :
    submitHosts recordHosts originValue calls = (.error e, calls) := by
  rw [submitHosts, h]
  rfl

end submit

section rendering

/-- A host as the text has it, without its address when that is empty. -/
def renderHost (host : HostData) : Text :=
  if host.ipAddress = [] then host.hostname else host.hostname ++ ',' :: host.ipAddress

def renderHosts (hosts : List HostData) : Text := [';'].intercalate (hosts.map renderHost)

/-- Neither the name nor the address has a separator in it or a blank at its ends. -/
structure WellFormed (host : HostData) : Prop where
  hostname : WellNamed host.hostname
  no_semicolon : ';' ∉ host.ipAddress
  no_comma : ',' ∉ host.ipAddress
  trimmed : Trimmed host.ipAddress

variable {host : HostData} (h : WellFormed host)
include h

theorem renderHost_ne_nil : renderHost host ≠ [] := by
  rw [renderHost]
  split
  · exact h.hostname.ne_nil
  · exact List.append_ne_nil_of_left_ne_nil h.hostname.ne_nil _

theorem semicolon_not_mem_renderHost : ';' ∉ renderHost host := by
  rw [renderHost]
  split
  · exact h.hostname.no_semicolon
  · rw [List.mem_append, List.mem_cons]
    rintro (hmem | hcomma | hmem)
    · exact h.hostname.no_semicolon hmem
    · exact absurd hcomma (by decide)
    · exact h.no_semicolon hmem

theorem trimmed_renderHost : Trimmed (renderHost host) := by
  rw [renderHost]
  split
  · exact h.hostname.trimmed
  · next hne =>
    constructor
    · rw [List.head?_append_of_ne_nil _ h.hostname.ne_nil]
      exact h.hostname.trimmed.1
    · obtain ⟨ch, t, hip⟩ := List.exists_cons_of_ne_nil hne
      rw [List.getLast?_append_of_ne_nil _ (List.cons_ne_nil _ _), hip, List.getLast?_cons_cons, ← hip]
      exact h.trimmed.2

/-- The fields of a rendered host are read back. -/
theorem hostOfFields_renderHost : hostOfFields (splitAtChar ',' (renderHost host)) = .ok (some host) := by
  obtain ⟨hostname, ipAddress⟩ := host
  rw [renderHost]
  split
  · next hip =>
    dsimp only at hip ⊢
    rw [splitAtChar_of_not_mem h.hostname.ne_nil h.hostname.no_comma, hip]
    rfl
  · next hip =>
    have hjoin : [','].intercalate [hostname, ipAddress] = hostname ++ ',' :: ipAddress := by
      rw [List.intercalate_cons_cons, List.intercalate_singleton, List.append_assoc, List.singleton_append]
    have hparts : ∀ part ∈ [hostname, ipAddress], ',' ∉ part := by
      rintro part hpart
      rcases List.mem_pair.mp hpart with rfl | rfl
      · exact h.hostname.no_comma
      · exact h.no_comma
    have hlast : ∀ part ∈ [hostname, ipAddress].getLast?, part ≠ [] := by
      rintro _ ⟨⟩
      exact hip
    dsimp only
    rw [← hjoin, splitAtChar_intercalate (List.cons_ne_nil _ _) hparts hlast]
    rfl

end rendering

section round_trips
variable {hosts : List HostData}

theorem hostsOfTexts_renderHost (h : ∀ host ∈ hosts, WellFormed host) :
    hostsOfTexts (hosts.map renderHost) = .ok (some hosts) := by
  induction hosts with
  | nil => rfl
  | cons host hosts ih =>
    rw [List.forall_mem_cons] at h
    rw [List.map_cons, hostsOfTexts, hostOfFields_renderHost h.1, ih h.2]
    rfl

/-- Hosts with and without addresses are read back in their order. -/
theorem parseHosts_renderHosts (hne : hosts ≠ []) (h : ∀ host ∈ hosts, WellFormed host) :
    parseHosts (renderHosts hosts) = .ok (some hosts) := by
  have hparts {part : Text} (hpart : part ∈ hosts.map renderHost) : part ≠ [] ∧ ';' ∉ part ∧ Trimmed part := by
    obtain ⟨host, hhost, rfl⟩ := List.mem_map.mp hpart
    exact ⟨renderHost_ne_nil (h host hhost), semicolon_not_mem_renderHost (h host hhost), trimmed_renderHost (h host hhost)⟩
  have htrim : trim (renderHosts hosts) = renderHosts hosts :=
    trim_of_trimmed (.intercalate fun part hpart => ⟨(hparts hpart).1, (hparts hpart).2.2⟩)
  have hsplit : splitAtChar ';' (renderHosts hosts) = hosts.map renderHost :=
    splitAtChar_intercalate (fun hnil => hne (List.map_eq_nil_iff.mp hnil)) (fun part hpart => (hparts hpart).2.1)
      fun part hpart => (hparts (List.mem_of_getLast? hpart)).1
  have hread := hostsOfTexts_renderHost h
  obtain ⟨host, rest, rfl⟩ := List.exists_cons_of_ne_nil hne
  rw [parseHosts, htrim, hsplit]
  exact hread

end round_trips

section too_long

/-- The part has more fields than a name and an address. -/
def TooLong (part : Text) : Prop := 2 < (splitAtChar ',' part).length

/-- Java's split leaves no field of the part. -/
def OnlyCommas (part : Text) : Prop := part ≠ [] ∧ ∀ ch ∈ part, ch = ','

instance (part : Text) : Decidable (TooLong part) := inferInstanceAs (Decidable (2 < _))
instance (part : Text) : Decidable (OnlyCommas part) := inferInstanceAs (Decidable (_ ∧ _))

/-- The parts that the loop reads before it comes to one that is too long. -/
def partsBefore (parts : List Text) : List Text := parts.takeWhile fun part => decide (¬ TooLong part)

theorem partsBefore_of_tooLong {part : Text} {parts : List Text} (h : TooLong part) :
    partsBefore (part :: parts) = [] :=
  List.takeWhile_cons_of_neg (by rw [decide_eq_true_iff]; exact not_not_intro h)

theorem partsBefore_of_short {part : Text} {parts : List Text} (h : ¬ TooLong part) :
    partsBefore (part :: parts) = part :: partsBefore parts :=
  List.takeWhile_cons_of_pos (decide_eq_true h)

theorem hostOfFields_of_tooLong {part : Text} (h : TooLong part) : hostOfFields (splitAtChar ',' part) = .ok none := by
  unfold TooLong at h
  match splitAtChar ',' part, h with
  | _ :: _ :: _ :: _, _ => rfl

theorem hostOfFields_of_onlyCommas {part : Text} (h : OnlyCommas part) :
    hostOfFields (splitAtChar ',' part) = .error .arrayIndexOutOfBoundsException := by
  rw [splitAtChar_eq_nil_iff.mpr h]
  rfl

theorem hostOfFields_of_short {part : Text} (hshort : ¬ TooLong part) (h : ¬ OnlyCommas part) :
    ∃ host, hostOfFields (splitAtChar ',' part) = .ok (some host) := by
  have hne : splitAtChar ',' part ≠ [] := fun hnil => h (splitAtChar_eq_nil_iff.mp hnil)
  unfold TooLong at hshort
  match splitAtChar ',' part, hshort, hne with
  | [hostname], _, _ => exact ⟨_, rfl⟩
  | [hostname, ipAddress], _, _ => exact ⟨_, rfl⟩
  | _ :: _ :: _ :: _, hshort, _ =>
    exact absurd (Nat.succ_le_succ (Nat.succ_le_succ (Nat.succ_le_succ (Nat.zero_le _)))) hshort

/-- A part that is too long ends the loop, unless one of commas alone throws before. -/
theorem hostsOfTexts_of_tooLong {parts : List Text} (h : ∃ part ∈ parts, TooLong part) :
    (hostsOfTexts parts = .ok none ∧ ∀ part ∈ partsBefore parts, ¬ OnlyCommas part) ∨
      (hostsOfTexts parts = .error .arrayIndexOutOfBoundsException ∧ ∃ part ∈ partsBefore parts, OnlyCommas part) := by
  induction parts with
  | nil =>
    obtain ⟨part, hpart, -⟩ := h
    exact absurd hpart List.not_mem_nil
  | cons part parts ih =>
    by_cases hlong : TooLong part
    · rw [hostsOfTexts, hostOfFields_of_tooLong hlong, partsBefore_of_tooLong hlong]
      exact .inl ⟨rfl, List.forall_mem_nil _⟩
    rw [partsBefore_of_short hlong]
    by_cases hcommas : OnlyCommas part
    · rw [hostsOfTexts, hostOfFields_of_onlyCommas hcommas]
      exact .inr ⟨rfl, part, List.mem_cons_self, hcommas⟩
    · have hrest : ∃ part ∈ parts, TooLong part := by
        obtain ⟨other, hother, htooLong⟩ := h
        rcases List.mem_cons.mp hother with rfl | hother
        · exact absurd htooLong hlong
        · exact ⟨other, hother, htooLong⟩
      obtain ⟨host, hhost⟩ := hostOfFields_of_short hlong hcommas
      rw [hostsOfTexts, hhost]
      rcases ih hrest with ⟨hnone, hall⟩ | ⟨herror, other, hother, honly⟩
      · rw [hnone]
        exact .inl ⟨rfl, List.forall_mem_cons.mpr ⟨hcommas, hall⟩⟩
      · rw [herror]
        exact .inr ⟨rfl, other, List.mem_cons_of_mem _ hother, honly⟩

theorem parseHosts_of_tooLong {text : Text} (h : ∃ part ∈ splitAtChar ';' (trim text), TooLong part) :
    parseHosts text = hostsOfTexts (splitAtChar ';' (trim text)) := by
  obtain ⟨part, hpart, -⟩ := h
  rw [parseHosts]
  split
  · next hnil =>
    rw [hnil] at hpart
    exact absurd hpart List.not_mem_nil
  · rfl

end too_long

/-- What is rendered, by the user or by the page itself, is saved as it was, in one call.
Nothing is saved of a text with a part of too many fields; it is refused if and only if no
part of commas alone comes before that one. -/
theorem host_list_text (hosts : List HostData) (text : Text) (names : List Text) (calls : List (List HostData)) :
    (hosts ≠ [] → (∀ host ∈ hosts, WellFormed host) →
      submitHosts recordHosts (renderHosts hosts) calls = (.ok true, calls ++ [hosts])) ∧
    ((∃ part ∈ splitAtChar ';' (trim text), TooLong part) →
      (submitHosts recordHosts text calls).2 = calls ∧
      ((submitHosts recordHosts text calls).1 = .ok false ↔
        ∀ part ∈ partsBefore (splitAtChar ';' (trim text)), ¬ OnlyCommas part)) ∧
    (names ≠ [] → names.Nodup → (∀ name ∈ names, WellNamed name) →
      submitHosts recordHosts (joinHosts names) calls = (.ok true, calls ++ [names.map fun name => ⟨name, []⟩])) := by
  refine ⟨fun hne h => ?_, fun htext => ?_, fun hne hnodup h => ?_⟩
  · exact submitHosts_of_hosts (parseHosts_renderHosts hne h)
  · have hparse := parseHosts_of_tooLong htext
    rcases hostsOfTexts_of_tooLong htext with ⟨hnone, hall⟩ | ⟨herror, part, hpart, hcommas⟩
    · rw [submitHosts_of_none (hparse.trans hnone)]
      exact ⟨rfl, iff_of_true rfl hall⟩
    · rw [submitHosts_of_error (hparse.trans herror)]
      refine ⟨rfl, iff_of_false ?_ fun hall => hall part hpart hcommas⟩
      rintro ⟨⟩
  · exact submitHosts_of_hosts (parseHosts_joinHosts hne hnodup h)

theorem two_hosts_submitted : submitHosts recordHosts ['a', ',', '1', ';', 'b'] [] =
    (.ok true, [[⟨['a'], ['1']⟩, ⟨['b'], []⟩]]) := by
  have hempty : Trimmed [] := ⟨fun _ h => absurd h (Option.not_mem_none _), fun _ h => absurd h (Option.not_mem_none _)⟩
  have ha : WellFormed ⟨['a'], ['1']⟩ :=
    ⟨wellNamed_singleton (by decide), by decide, by decide, (wellNamed_singleton (by decide)).trimmed⟩
  have hb : WellFormed ⟨['b'], []⟩ := ⟨wellNamed_singleton (by decide), List.not_mem_nil, List.not_mem_nil, hempty⟩
  exact (host_list_text [⟨['a'], ['1']⟩, ⟨['b'], []⟩] [] [] []).1 (List.cons_ne_nil _ _)
    (List.forall_mem_cons.mpr ⟨ha, List.forall_mem_singleton.mpr hb⟩)

/-- The part of too many fields is not reached. -/
theorem only_commas_before_tooLong :
    (∃ part ∈ splitAtChar ';' (trim [',', ';', 'a', ',', 'b', ',', 'c']), TooLong part) ∧
    submitHosts recordHosts [',', ';', 'a', ',', 'b', ',', 'c'] [] = (.error .arrayIndexOutOfBoundsException, []) := by
  refine ⟨⟨['a', ',', 'b', ',', 'c'], by decide, by decide⟩, submitHosts_of_error ?_⟩
  decide

end Srvlog.Web.AddHostsPage
