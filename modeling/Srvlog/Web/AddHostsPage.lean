import Srvlog.Database.StoreProcedures
import Srvlog.Library.JavaText
import Mathlib.Data.List.Pairwise

/-! The page for adding hosts: the text it is opened with, and what it does with the text
that is submitted. -/
namespace Srvlog.Web
open Library Database
variable {c : Collation}

section database

/-- `select distinct host from unprocessed_logs`: one of the equal names, the others are left out. -/
def getUnprocessedHostsName (s : Store c) : List (Varchar 60) :=
  (s.unprocessedLogs.rows.map (·.2.host)).pwFilter fun a b => c.same a.chars b.chars = false

structure HostData where
  hostname : Text
  ipAddress : Text
  deriving DecidableEq

/-- The call of `save_host`, none for an exception. -/
def saveHostData (hosts : Hosts c) (hostData : HostData) : Option (Hosts c) := do
  let hostname ← varchar? 120 hostData.hostname
  let ip ← varchar? 60 hostData.ipAddress
  hosts.insert? ⟨some hostname, some ip⟩

/-- `saveHosts` is one transaction, so its first exception undoes it. -/
def saveHosts (hosts : Hosts c) (hostDataList : List HostData) : Option (Hosts c) := hostDataList.foldlM saveHostData hosts

end database

namespace AddHostsPage

/-- The loop that joins the names; a name that equals the last one gets no separator. -/
def joinHosts (unprocessedHosts : List Text) : Text :=
  unprocessedHosts.flatMap fun unprocessedHost =>
    if unprocessedHosts.getLast? = some unprocessedHost then unprocessedHost else unprocessedHost ++ [';']

/-- The text of the form when the page is opened for the unprocessed hosts. Without any
there is no form. -/
def openedText (unprocessedHosts : List Text) : Option Text :=
  if unprocessedHosts = [] then none else some (joinHosts unprocessedHosts)

def hostOfFields : List Text → Except JavaException (Option HostData)
  | [] => .error .arrayIndexOutOfBoundsException
  | [hostname] => .ok (some ⟨hostname, []⟩)
  | [hostname, ipAddress] => .ok (some ⟨hostname, ipAddress⟩)
  | _ => .ok none

/-- The loop of `parseHosts`; it ends without a result at a text of too many fields. -/
def hostsOfTexts : List Text → Except JavaException (Option (List HostData))
  | [] => .ok (some [])
  | hostDataString :: rest => do
    match ← hostOfFields (splitAtChar ',' hostDataString) with
    | none => return none
    | some hostData => return (← hostsOfTexts rest).map (hostData :: ·)

def parseHosts (originValue : Text) : Except JavaException (Option (List HostData)) :=
  match splitAtChar ';' (trim originValue) with
  | [] => .ok none
  | hostsDataArray => hostsOfTexts hostsDataArray

inductive Feedback where
  | info
  | error
  | duplicateError
  deriving DecidableEq

/-- `onSubmit`, which takes every exception for a duplicate. -/
def onSubmit (s : Store c) (hosts : Text) : Feedback × Store c :=
  match parseHosts hosts with
  | .error _ => (.duplicateError, s)
  | .ok none => (.error, s)
  | .ok (some hostDataList) => match saveHosts s.hosts hostDataList with
    | none => (.duplicateError, s)
    | some hosts => (.info, { s with hosts := hosts })

section texts

/-- A host name that the page can read back. -/
structure WellNamed (name : Text) : Prop where
  ne_nil : name ≠ []
  no_semicolon : ';' ∉ name
  no_comma : ',' ∉ name
  trimmed : Trimmed name

theorem wellNamed_singleton {ch : Char} (h : ch ≠ ';' ∧ ch ≠ ',' ∧ isBlank ch = false) : WellNamed [ch] where
  ne_nil := List.cons_ne_nil _ _
  no_semicolon hmem := h.1 (List.mem_singleton.mp hmem).symm
  no_comma hmem := h.2.1 (List.mem_singleton.mp hmem).symm
  trimmed := by
    constructor
    all_goals
      rintro _ ⟨⟩
      exact h.2.2

theorem flatMap_separated {last : Text} {names : List Text} (h : last ∉ names) :
    ((names ++ [last]).flatMap fun name => if some last = some name then name else name ++ [';']) =
      [';'].intercalate (names ++ [last]) := by
  induction names with
  | nil => simp
  | cons name names ih =>
    rw [List.mem_cons, not_or] at h
    have hne : ¬ some last = some name := fun heq => h.1 (Option.some.inj heq)
    obtain ⟨next, rest, hrest⟩ := List.exists_cons_of_ne_nil (List.concat_ne_nil last names)
    rw [List.cons_append, List.flatMap_cons, if_neg hne, ih h.2, hrest, List.intercalate_cons_cons]

/-- Different names are joined with a separator between each two of them. -/
theorem joinHosts_eq {names : List Text} (h : names.Nodup) : joinHosts names = [';'].intercalate names := by
  rcases List.eq_nil_or_concat names with rfl | ⟨front, last, rfl⟩
  · rfl
  · rw [List.concat_eq_append] at h ⊢
    rw [joinHosts, List.getLast?_concat]
    exact flatMap_separated fun hmem => (List.nodup_append.mp h).2.2 last hmem last (List.mem_singleton_self _) rfl

theorem hostsOfTexts_names {names : List Text} (h : ∀ name ∈ names, WellNamed name) :
    hostsOfTexts names = .ok (some (names.map fun name => ⟨name, []⟩)) := by
  induction names with
  | nil => rfl
  | cons name names ih =>
    rw [List.forall_mem_cons] at h
    rw [hostsOfTexts, splitAtChar_of_not_mem h.1.ne_nil h.1.no_comma, ih h.2]
    rfl

/-- The names that the page is opened with are read back, without addresses. -/
theorem parseHosts_joinHosts {names : List Text} (hne : names ≠ []) (hnodup : names.Nodup)
    (h : ∀ name ∈ names, WellNamed name) :
    parseHosts (joinHosts names) = .ok (some (names.map fun name => ⟨name, []⟩)) := by
  have htrim : trim ([';'].intercalate names) = [';'].intercalate names :=
    trim_of_trimmed (.intercalate fun name hname => ⟨(h name hname).ne_nil, (h name hname).trimmed⟩)
  have hsplit : splitAtChar ';' ([';'].intercalate names) = names :=
    splitAtChar_intercalate hne (fun name hname => (h name hname).no_semicolon)
      fun name hname => (h name (List.mem_of_getLast? hname)).ne_nil
  obtain ⟨name, rest, rfl⟩ := List.exists_cons_of_ne_nil hne
  rw [parseHosts, joinHosts_eq hnodup, htrim, hsplit]
  exact hostsOfTexts_names h

end texts
end AddHostsPage
end Srvlog.Web
