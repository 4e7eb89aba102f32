import Srvlog.Web.DisplayedLogs

/-! Whether the lines of the messages that the page handles are shown where they can be seen.
A terminal is set up asynchronously, and until then its messages go to the one before it. -/
namespace Srvlog.Web
open Library Data Broadcasting

/-- What the handlers of the page print to. -/
structure View where
  terminals : List (List Output)
  notReady : List Nat
  terminalIO : Option Nat
  handled : List LogBroadcastingResponse

namespace View

def print (v : View) (output : Output) : View :=
  match v.terminalIO with
  | none => v
  | some j => { v with terminals := v.terminals.modify j (· ++ [output]) }

def displayed (v : View) : List Output := v.terminals.getLast?.getD []

/-- The callbacks come in the order of the terminals. -/
structure Ordered (v : View) : Prop where
  terminals : v.terminals ≠ []
  ready : ∃ m ≤ v.terminals.length, v.notReady = List.range' m (v.terminals.length - m) ∧
    v.terminalIO = if m = 0 then none else some (m - 1)

def messagesOf (outputs : List Output) : List LogBroadcastingResponse :=
  outputs.filterMap fun
    | .message response => some response
    | .closed _ | .error => none

theorem messagesOf_append (outputs : List Output) (output : Output) :
    messagesOf (outputs ++ [output]) = messagesOf outputs ++ messagesOf [output] := List.filterMap_append

/-- With its callback the last terminal is the one that is printed to. -/
theorem terminalIO_eq_last_iff {v : View} (hv : v.Ordered) :
    v.terminalIO = some (v.terminals.length - 1) ↔ v.notReady = [] := by
  obtain ⟨m, hm, hnot, hio⟩ := hv.ready
  have hpos := List.length_pos_iff.mpr hv.terminals
  rw [hnot, hio, List.range'_eq_nil_iff]
  split
  · next hzero =>
    refine ⟨by rintro ⟨⟩, fun h => ?_⟩
    omega
  · rw [Option.some.injEq]
    omega

theorem displayed_print {v : View} (hv : v.Ordered) (output : Output) :
    (v.print output).displayed = if v.notReady = [] then v.displayed ++ [output] else v.displayed := by
  have hlast := terminalIO_eq_last_iff hv
  have hpos := List.length_pos_iff.mpr hv.terminals
  unfold print
  cases hio : v.terminalIO with
  | none =>
    rw [if_neg]
    intro hready
    rw [hio] at hlast
    cases hlast.mpr hready
  | some j =>
    rw [hio, Option.some.injEq] at hlast
    unfold displayed
    dsimp only
    rw [List.getLast?_eq_getElem?, List.getLast?_eq_getElem?, List.getElem?_modify, List.length_modify]
    have hsome : v.terminals[v.terminals.length - 1]? = some v.terminals[v.terminals.length - 1] :=
      List.getElem?_eq_getElem (by omega)
    rw [hsome]
    by_cases hj : j = v.terminals.length - 1
    · rw [if_pos (hlast.mp hj)]
      simp [hj]
    · rw [if_neg fun hready => hj (hlast.mpr hready)]
      simp [hj]

theorem handled_print (v : View) (output : Output) : (v.print output).handled = v.handled := by
  unfold print
  split
  · rfl
  · rfl

theorem ordered_print {v : View} (hv : v.Ordered) (output : Output) : (v.print output).Ordered := by
  unfold print
  split
  · exact hv
  · refine ⟨fun hnil => hv.terminals ?_, ?_⟩
    · have hlength := congrArg List.length hnil
      rw [List.length_modify] at hlength
      exact List.eq_nil_of_length_eq_zero hlength
    · rw [List.length_modify]
      exact hv.ready

end View

namespace TerminalPage
variable {innerText toLowerCase : Text → Text} {sessions : PageSessions} {readValue : RequestReader}

def view (s : TerminalPage) : View := ⟨s.terminals, s.notReady, s.terminalIO, s.handled⟩

theorem view_print (s : TerminalPage) (output : Output) : (print s output).view = s.view.print output := by
  cases hio : s.terminalIO with
  | none => simp only [print, View.print, view, hio]
  | some j => simp only [print, View.print, view, hio]

/-- The handler of an open socket runs for a message. -/
def Handles (s : TerminalPage) (response : LogBroadcastingResponse) : PageAction → Prop
  | .onmessage k => ∃ socket, s.sockets[k]? = some socket ∧ socket.readyState = .OPEN ∧ response ∈ socket.toPage.head?
  | _ => False

/-- A click on an option of one of the dropdowns. -/
def Selects : PageAction → Prop
  | .hosts (.click _) | .programs (.click _) => True
  | _ => False

/-- What a step can do to the view. -/
inductive ViewStep (s : TerminalPage) : PageAction → View → Prop where
  | rest {a : PageAction} (hquiet : ∀ response, ¬ s.Handles response a) : ViewStep s a s.view
  | selects {a : PageAction} (hselects : Selects a) :
    ViewStep s a ⟨s.terminals ++ [[]], s.notReady ++ [s.terminals.length], s.terminalIO, []⟩
  | ready {j : Nat} {notReady : List Nat} (hnot : s.notReady = j :: notReady) :
    ViewStep s .onTerminalReady ⟨s.terminals, notReady, some j, s.handled⟩
  | message {a : PageAction} {response : LogBroadcastingResponse} (hhandles : ∀ other, s.Handles other a ↔ other = response) :
    ViewStep s a (View.print ⟨s.terminals, s.notReady, s.terminalIO, s.handled ++ [response]⟩ (.message response))
  | status {a : PageAction} (hquiet : ∀ response, ¬ s.Handles response a) {output : Output} (houtput : View.messagesOf [output] = []) :
    ViewStep s a (s.view.print output)

theorem view_handle (s : TerminalPage) :
    (handleMultiSelectAction innerText s).view = ⟨s.terminals ++ [[]], s.notReady ++ [s.terminals.length], s.terminalIO, []⟩ := by
  unfold handleMultiSelectAction getLatestLogs
  dsimp only
  split
  · rfl
  · rfl

theorem view_actOn {dropdown : MultiSelect} {set : MultiSelect → TerminalPage} {s t : TerminalPage} {a : UserAction}
    (h : actOn innerText toLowerCase dropdown set a = some t) (hset : ∀ dropdown', (set dropdown').view = s.view) :
    t.view = s.view ∨ (∃ i, a = .click i) ∧
      t.view = ⟨s.terminals ++ [[]], s.notReady ++ [s.terminals.length], s.terminalIO, []⟩ := by
  rcases actOn_cases h with ⟨dropdown', rfl⟩ | ⟨i, dropdown', rfl, rfl⟩
  · exact .inl (hset dropdown')
  · have hview := hset dropdown'
    unfold view at hview
    obtain ⟨hterminals, hnot, hio, -⟩ := View.mk.inj hview
    refine .inr ⟨⟨i, rfl⟩, ?_⟩
    rw [← hterminals, ← hnot, ← hio]
    exact view_handle (set dropdown')

theorem viewStep {s t : TerminalPage} {a : PageAction}
    (h : step innerText toLowerCase sessions readValue s a = some t) : ViewStep s a t.view := by
  cases step_cases h with
  | hosts hact =>
    rcases view_actOn (s := s) hact (fun _ => rfl) with hview | ⟨⟨i, rfl⟩, hview⟩
    · rw [hview]
      exact .rest fun _ => id
    · rw [hview]
      exact .selects trivial
  | programs hact =>
    rcases view_actOn (s := s) hact (fun _ => rfl) with hview | ⟨⟨i, rfl⟩, hview⟩
    · rw [hview]
      exact .rest fun _ => id
    · rw [hview]
      exact .selects trivial
  | ready hnot => exact .ready hnot
  | @message k socket response _ hsocket hpage hopen =>
    have hhandles : ∀ other, s.Handles other (.onmessage k) ↔ other = response := by
      intro other
      constructor
      · rintro ⟨socket', hsocket', -, hhead⟩
        obtain rfl := Option.some.inj (hsocket.symm.trans hsocket')
        rw [hpage] at hhead
        exact (Option.some.inj hhead).symm
      · rintro rfl
        exact ⟨socket, hsocket, hopen, by rw [hpage]; rfl⟩
    rw [view_print]
    exact .message hhandles
  | drops hsocket _ hclosed =>
    refine .rest ?_
    rintro response ⟨socket', hsocket', hopen, -⟩
    obtain rfl := Option.some.inj (hsocket.symm.trans hsocket')
    exact hclosed hopen
  | closes | fails =>
    rw [view_print]
    exact .status (fun _ => id) rfl
  | opens | serverOpen | serverText | serverClose | other => exact .rest fun _ => id

theorem ordered_step {s t : TerminalPage} {a : PageAction} (hs : s.view.Ordered)
    (h : step innerText toLowerCase sessions readValue s a = some t) : t.view.Ordered := by
  have hstep := viewStep h
  generalize t.view = v at hstep
  cases hstep with
  | rest => exact hs
  | selects =>
    obtain ⟨m, hm, hnot, hio⟩ := hs.ready
    change m ≤ s.terminals.length at hm
    change s.notReady = List.range' m (s.terminals.length - m) at hnot
    refine ⟨List.append_ne_nil_of_right_ne_nil _ (List.cons_ne_nil _ _), m, ?_, ?_, hio⟩
    · rw [List.length_append]
      exact Nat.le_add_right_of_le hm
    · have hmore : s.terminals.length + 1 - m = s.terminals.length - m + 1 := by omega
      have hend : m + (s.terminals.length - m) = s.terminals.length := by omega
      dsimp only
      rw [List.length_append, List.length_singleton, hmore, List.range'_1_concat, hend, hnot]
  | @ready j notReady hcons =>
    obtain ⟨m, hm, hnot, hio⟩ := hs.ready
    obtain ⟨rfl, hpos, hrest⟩ := List.range'_eq_cons_iff.mp (hnot.symm.trans hcons)
    refine ⟨hs.terminals, m + 1, ?_, ?_, rfl⟩
    · exact Nat.lt_of_sub_pos hpos
    · rw [Nat.sub_sub] at hrest
      exact hrest
  | message =>
    refine View.ordered_print ?_ _
    exact ⟨hs.terminals, hs.ready⟩
  | status => exact View.ordered_print hs _

section lines
variable (localTime : LocalTime)

/-- The lines that the messages among these outputs have printed. -/
def messageLines (outputs : List Output) : List Text := screen localTime ((View.messagesOf outputs).map Output.message)

theorem messageLines_append (outputs : List Output) (output : Output) :
    messageLines localTime (outputs ++ [output]) =
      messageLines localTime outputs ++
        (View.messagesOf [output]).flatMap fun response => (onmessage localTime response []).2 := by
  unfold messageLines
  rw [View.messagesOf_append]
  cases output with
  | message response =>
    have hone : View.messagesOf [.message response] = [response] := rfl
    unfold screen
    rw [hone, List.map_append, List.foldl_append, List.flatMap_singleton]
    exact onmessage_append localTime response _
  | closed failure =>
    have hnone : View.messagesOf [.closed failure] = [] := rfl
    rw [hnone, List.append_nil, List.flatMap_nil, List.append_nil]
  | error =>
    have hnone : View.messagesOf [.error] = [] := rfl
    rw [hnone, List.append_nil, List.flatMap_nil, List.append_nil]

/-- The lines that the messages handled for the selection have to show. -/
def handledLines (s : TerminalPage) : List Text := s.handled.flatMap (responseLines localTime)

/-- The visible terminal shows the lines of all messages that have been handled, in order and
none of them broken. -/
def ShowsHandled (s : TerminalPage) : Prop :=
  messageLines localTime s.displayed = s.handledLines localTime ∧
    ∀ line ∈ messageLines localTime s.displayed, Unbroken line

/-- A message with lines is handled when the terminal of the selection is ready, and its lines
can be printed. -/
def ShownWhenHandled (s : TerminalPage) (a : PageAction) : Prop :=
  ∀ response, s.Handles response a → HasLines response → s.notReady = [] ∧ PrintableResponse response

/-- What a message adds to lines of which some may be missing already. -/
theorem append_shown_iff {shown expected printed lines : List Text} (hle : shown.length ≤ expected.length)
    (hle' : printed.length ≤ lines.length) :
    (shown ++ printed = expected ++ lines ∧ ∀ line ∈ shown ++ printed, Unbroken line) ↔
      (shown = expected ∧ ∀ line ∈ shown, Unbroken line) ∧ printed = lines ∧ ∀ line ∈ printed, Unbroken line := by
  have hsplit : shown ++ printed = expected ++ lines ↔ shown = expected ∧ printed = lines := by
    constructor
    · intro heq
      have hlength := congrArg List.length heq
      rw [List.length_append, List.length_append] at hlength
      exact List.append_inj heq (by omega)
    · rintro ⟨rfl, rfl⟩
      rfl
  rw [hsplit, List.forall_mem_append]
  tauto

/-- A message is shown completely when the terminal is ready and prints it, or when it has no lines. -/
theorem printed_iff (ready : Prop) [Decidable ready] (response : LogBroadcastingResponse) :
    let printed := if ready then (onmessage localTime response []).2 else []
    printed.length ≤ (responseLines localTime response).length ∧
      ((printed = responseLines localTime response ∧ ∀ line ∈ printed, Unbroken line) ↔
        (HasLines response → ready ∧ PrintableResponse response)) := by
  dsimp only
  split
  · next hready =>
    refine ⟨length_onmessage_le localTime response, ?_⟩
    rw [onmessage_eq_responseLines_iff, and_iff_right hready]
    by_cases hlines : HasLines response
    · exact ⟨fun h _ => h, fun h => h hlines⟩
    · exact iff_of_true (printableResponse_of_not_hasLines hlines) fun h => absurd h hlines
  · next hnot =>
    refine ⟨Nat.zero_le _, ?_⟩
    rw [eq_comm, responseLines_eq_nil_iff]
    constructor
    · exact fun h hlines => absurd hlines h.1
    · exact fun h => ⟨fun hlines => hnot (h hlines).1, fun line hline => absurd hline List.not_mem_nil⟩

/-- The steps between two selections turn the equation false at a message that comes too early
or cannot be printed: a line that is missing stays missing. -/
theorem shown_step {s t : TerminalPage} {a : PageAction} (hs : s.view.Ordered)
    (hle : (messageLines localTime s.displayed).length ≤ (s.handledLines localTime).length) (ha : ¬ Selects a)
    (h : step innerText toLowerCase sessions readValue s a = some t) :
    (messageLines localTime t.displayed).length ≤ (t.handledLines localTime).length ∧
      (t.ShowsHandled localTime ↔ s.ShowsHandled localTime ∧ s.ShownWhenHandled a) := by
  have hstep := viewStep h
  have hdisplayed : t.displayed = t.view.displayed := rfl
  have hhandled : t.handled = t.view.handled := rfl
  unfold ShowsHandled handledLines at *
  rw [hdisplayed, hhandled]
  generalize t.view = v at hstep
  clear hdisplayed hhandled h
  have hquietGuard : (∀ response, ¬ s.Handles response a) → s.ShownWhenHandled a :=
    fun hquiet response hhandles => absurd hhandles (hquiet response)
  cases hstep with
  | rest hquiet => exact ⟨hle, (and_iff_left (hquietGuard hquiet)).symm⟩
  | selects hselects => exact absurd hselects ha
  | ready => exact ⟨hle, (and_iff_left (hquietGuard fun _ => id)).symm⟩
  | @message _ response hhandles =>
    have hlater : View.Ordered ⟨s.terminals, s.notReady, s.terminalIO, s.handled ++ [response]⟩ := ⟨hs.terminals, hs.ready⟩
    have hone : View.messagesOf [.message response] = [response] := rfl
    have hguard : s.ShownWhenHandled a ↔ (HasLines response → s.notReady = [] ∧ PrintableResponse response) :=
      ⟨fun hguard => hguard response ((hhandles response).mpr rfl), fun hguard other hother =>
        (hhandles other).mp hother ▸ hguard⟩
    have hdisplayed : (View.print ⟨s.terminals, s.notReady, s.terminalIO, s.handled ++ [response]⟩
        (.message response)).displayed = if s.notReady = [] then s.displayed ++ [.message response] else s.displayed :=
      View.displayed_print hlater _
    have hshown : messageLines localTime (if s.notReady = [] then s.displayed ++ [.message response] else s.displayed) =
        messageLines localTime s.displayed ++ if s.notReady = [] then (onmessage localTime response []).2 else [] := by
      split
      · rw [messageLines_append, hone, List.flatMap_singleton]
      · rw [List.append_nil]
    obtain ⟨hlength, hprinted⟩ := printed_iff localTime (s.notReady = []) response
    rw [hdisplayed, View.handled_print, hshown]
    dsimp only
    rw [List.flatMap_append, List.flatMap_singleton, append_shown_iff hle hlength, hprinted, hguard,
      List.length_append, List.length_append]
    exact ⟨Nat.add_le_add hle hlength, Iff.rfl⟩
  | @status _ hquiet output houtput =>
    have hsame : messageLines localTime (s.view.print output).displayed = messageLines localTime s.displayed := by
      rw [View.displayed_print hs]
      split
      · rw [messageLines_append, houtput, List.flatMap_nil, List.append_nil]
        rfl
      · rfl
    rw [hsame, View.handled_print]
    exact ⟨hle, (and_iff_left (hquietGuard hquiet)).symm⟩

end lines

theorem ordered_initial {hostData programData : List DataItem} {capacity : ℕ+} :
    (initial hostData programData capacity).view.Ordered :=
  ⟨List.cons_ne_nil _ _, 0, Nat.zero_le _, rfl, rfl⟩

theorem ordered_run {hostData programData : List DataItem} {capacity : ℕ+} {as : List PageAction} {s : TerminalPage}
    (h : Run (step innerText toLowerCase sessions readValue) (initial hostData programData capacity) as s) :
    s.view.Ordered := h.invariant (fun _ _ _ hs ha => ordered_step hs ha) ordered_initial

/-- The steps of a run without a selection, taken together. -/
theorem showsHandled_iff (localTime : LocalTime) {as : List PageAction} {s t : TerminalPage} (hordered : s.view.Ordered)
    (hbegins : s.handled = [] ∧ s.displayed = [])
    (h : Run (step innerText toLowerCase sessions readValue) s as t) (hkeeps : ∀ a ∈ as, ¬ Selects a) :
    t.ShowsHandled localTime ↔ AllSteps (step innerText toLowerCase sessions readValue) ShownWhenHandled s as := by
  have hkept : AllSteps (step innerText toLowerCase sessions readValue) (fun _ a => ¬ Selects a) s as :=
    allSteps_of_forall_mem hkeeps s
  have hnone : messageLines localTime s.displayed = [] := by
    rw [hbegins.2]
    rfl
  have hnothing : s.handledLines localTime = [] := by
    rw [handledLines, hbegins.1]
    rfl
  have hshows : s.ShowsHandled localTime := by
    rw [ShowsHandled, hnone, hnothing]
    exact ⟨rfl, fun line hline => absurd hline List.not_mem_nil⟩
  rw [h.holds_iff_allSteps_of hkept
    (I := fun s => s.view.Ordered ∧ (messageLines localTime s.displayed).length ≤ (s.handledLines localTime).length)
    (P := fun s => s.ShowsHandled localTime)
    (fun s a t hi ha hstep => ⟨ordered_step hi.1 hstep, (shown_step localTime hi.1 hi.2 ha hstep).1⟩)
    (fun s a t hi ha hstep => (shown_step localTime hi.1 hi.2 ha hstep).2)
    ⟨hordered, Nat.le_of_eq (congrArg List.length hshows.1)⟩]
  exact and_iff_right hshows

/-- From a selection to the next one the terminal that can be seen shows the lines of all
messages that the page handles, in order and unbroken, exactly when each message that has
lines is handled with that terminal ready and can be printed. -/
theorem handled_messages_displayed_iff (localTime : LocalTime) {hostData programData : List DataItem} {capacity : ℕ+}
    {before after : List PageAction} {s t : TerminalPage}
    (hs : Run (step innerText toLowerCase sessions readValue) (initial hostData programData capacity) before s)
    (hbegins : s.handled = [] ∧ s.displayed = [])
    (h : Run (step innerText toLowerCase sessions readValue) s after t) (hkeeps : ∀ a ∈ after, ¬ Selects a) :
    t.ShowsHandled localTime ↔ AllSteps (step innerText toLowerCase sessions readValue) ShownWhenHandled s after :=
  showsHandled_iff localTime (ordered_run hs) hbegins h hkeeps

/-- Logs of two hosts have been received when the user selects one of them. -/
def selectingActions : List PageAction :=
  [.other (.handleReceivedLogData (logAt 0 ['a'] ['p']) .stored fun _ => true),
    .other (.handleReceivedLogData (logAt 1 ['b'] ['p']) .stored fun _ => true), .onTerminalReady, .hosts (.click 1),
    .programs (.click 0)]

/-- The history comes while the second and the third terminal are still being set up. -/
def earlyActions : List PageAction := [.serverOpen 0, .onopen 0, .serverText 0 .stored (true, true) [], .onmessage 0]

/-- The history is printed to the first terminal, which nobody sees any more. -/
theorem early_history_not_displayed : ∃ s t : TerminalPage, t.handled = [⟨true, [logAt 1 ['b'] ['p']], none⟩] ∧
    t.displayed = [] ∧ (t.ShowsHandled swedishTime ↔
      AllSteps (step id id ownSessions sampleReader) ShownWhenHandled s earlyActions) := by
  have hrun : ∃ s t : TerminalPage, exec (step id id ownSessions sampleReader) samplePage selectingActions = some s ∧
      exec (step id id ownSessions sampleReader) s earlyActions = some t ∧ s.handled = [] ∧ s.displayed = [] ∧
      t.handled = [⟨true, [logAt 1 ['b'] ['p']], none⟩] ∧ t.displayed = [] := ⟨_, _, rfl, rfl, rfl, rfl, rfl, rfl⟩
  obtain ⟨s, t, hs, ht, hnone, hempty, hhandled, hdisplayed⟩ := hrun
  refine ⟨s, t, hhandled, hdisplayed, handled_messages_displayed_iff swedishTime (exec_eq_some_iff.mp hs) ⟨hnone, hempty⟩
    (exec_eq_some_iff.mp ht) ?_⟩
  simp [earlyActions, Selects]

end TerminalPage
end Srvlog.Web
