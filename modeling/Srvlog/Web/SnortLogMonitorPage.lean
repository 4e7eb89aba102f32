import Srvlog.Syslog.SnortCorrelation

/-! The page with the snort rows of the alerts that share a hash. -/
namespace Srvlog.Web
open Library Data Collector Database Syslog
variable {c : Collation}

section page
variable (dates : DateColumns)

/-- `Comparator.comparing(SnortLogData::getDate)`; no date in the table is null. -/
def notAfter (a b : SnortLogData) : Prop := a.date.getD 0 ≤ b.date.getD 0

instance : DecidableRel notAfter := fun a b => inferInstanceAs (Decidable (a.date.getD 0 ≤ b.date.getD 0))

/-- The list of `SnortLogMonitorPage.addSnortLogs`, for the rows that the query for the hash has answered with. -/
def addSnortLogs (db : LogDatabase c) (ossecLogs : List OssecLogData) : Except JavaException (List SnortLogData) := do
  let snortLogs ← ossecLogs.mapM fun ossecLogData => Syslog.getSnortLogs dates db (.ofOssecLogData ossecLogData)
  return snortLogs.flatten.insertionSort notAfter

/-- The snort row has the signature of the alert and lies in its window. -/
def inWindow (alert : OssecRow) (l : Nat × SnortRow) : Bool :=
  match createSnortSignature alert.identifier.chars with
  | .ok signature => belongs dates alert signature l.2.toSnortColumns
  | .error _ => false

def alertsWith (db : LogDatabase c) (hash : Varchar 32) : List (Nat × OssecRow) :=
  db.store.ossecLogs.rows.filter fun l => c.equal l.2.hash (some hash)

/-- So few rows lie in the window of each of the alerts that the query leaves none out. -/
def WindowsLimited (db : LogDatabase c) (hash : Varchar 32) : Prop :=
  ∀ row ∈ alertsWith db hash, (db.snortLogs.rows.filter (inWindow dates row.2)).length ≤ 10

/-- In whatever order the alerts are read, each row in one of their windows is shown once, no other row is, and
the dates do not decrease. -/
def ShowsOnce (db : LogDatabase c) (hash : Varchar 32) : Prop :=
  ∀ rows, OssecLogsByHash db.store hash rows →
    ∃ page, addSnortLogs dates db (rows.map fun row => readOssecLog dates row.2) = .ok page ∧ page.Nodup ∧
      (∀ data, data ∈ page ↔ ∃ l ∈ db.snortLogs.rows, (∃ row ∈ alertsWith db hash, inWindow dates row.2 l = true) ∧
        data = readSnortLog dates l) ∧
      page.Pairwise notAfter

/-- Some row lies in the windows of both alerts. -/
def Overlap (db : LogDatabase c) (a b : Nat × OssecRow) : Prop :=
  ∃ l ∈ db.snortLogs.rows, inWindow dates a.2 l = true ∧ inWindow dates b.2 l = true

end page

section lists
variable {dates : DateColumns} {db : LogDatabase c} {rows : List (Nat × OssecRow)}

instance : Std.Total notAfter := ⟨fun _ _ => Int.le_total _ _⟩

instance : IsTrans SnortLogData notAfter := ⟨fun _ _ _ => Int.le_trans⟩

/-- Rows of the table are told apart by what is read of them. -/
theorem readSnortLog_injOn {l l' : Nat × SnortRow} (hl : l ∈ db.snortLogs.rows) (hl' : l' ∈ db.snortLogs.rows)
    (h : readSnortLog dates l = readSnortLog dates l') : l = l' := by
  have hid : (l.1 : Int) = l'.1 := Option.some.inj (congrArg SnortLogData.id h)
  exact db.snortLogs.eq_of_key_eq hl hl' (Int.ofNat_inj.mp hid)

def shownFor (dates : DateColumns) (db : LogDatabase c) (row : Nat × OssecRow) : List SnortLogData :=
  (db.snortLogs.rows.filter (inWindow dates row.2)).map (readSnortLog dates)

theorem nodup_shownFor (row : Nat × OssecRow) : (shownFor dates db row).Nodup := by
  refine List.Nodup.map_on (fun l hl l' hl' => ?_) ((List.Nodup.of_map _ db.snortLogs.keys_nodup).filter _)
  exact readSnortLog_injOn (List.mem_filter.mp hl).1 (List.mem_filter.mp hl').1

theorem disjoint_shownFor_iff (a b : Nat × OssecRow) :
    List.Disjoint (shownFor dates db a) (shownFor dates db b) ↔ ¬ Overlap dates db a b := by
  constructor
  · rintro hdisjoint ⟨l, hl, ha, hb⟩
    exact hdisjoint (List.mem_map_of_mem (List.mem_filter.mpr ⟨hl, ha⟩)) (List.mem_map_of_mem (List.mem_filter.mpr ⟨hl, hb⟩))
  · intro hapart data hdata hdata'
    obtain ⟨l, hl, rfl⟩ := List.mem_map.mp hdata
    obtain ⟨l', hl', hsame⟩ := List.mem_map.mp hdata'
    obtain ⟨hmem, ha⟩ := List.mem_filter.mp hl
    obtain ⟨hmem', hb⟩ := List.mem_filter.mp hl'
    obtain rfl := readSnortLog_injOn hmem' hmem hsame
    exact hapart ⟨l', hmem, ha, hb⟩

theorem Overlap.symm {a b : Nat × OssecRow} (h : Overlap dates db a b) : Overlap dates db b a := by
  obtain ⟨l, hl, ha, hb⟩ := h
  exact ⟨l, hl, hb, ha⟩

/-- The query for one alert. -/
theorem getSnortLogs_ofOssecLogData {row : Nat × OssecRow} {signature : SnortSignature}
    (hsignature : createSnortSignature row.2.identifier.chars = .ok signature)
    (hlimited : (db.snortLogs.rows.filter (inWindow dates row.2)).length ≤ 10) :
    ∃ found, Syslog.getSnortLogs dates db (.ofOssecLogData (readOssecLog dates row.2)) = .ok found ∧
      found.Perm (shownFor dates db row) := by
  have hwindow : inWindow dates row.2 = fun l : Nat × SnortRow => (snortLogsParameters dates
      (.ofOssecLogData (readOssecLog dates row.2)) signature).selects l.2.toSnortColumns := by
    funext l
    simp only [inWindow, hsignature, selects_eq_belongs]
  refine ⟨_, ?_, (getSnortLogs_perm (hwindow ▸ hlimited)).map (readSnortLog dates) |>.trans ?_⟩
  · unfold Syslog.getSnortLogs
    rw [show createSnortSignature (OssecSnortMessage.ofOssecLogData (readOssecLog dates row.2)).identifier =
      .ok signature from hsignature]
    rfl
  · rw [shownFor, hwindow]

theorem addSnortLogs_rows : addSnortLogs dates db (rows.map fun row => readOssecLog dates row.2) =
    (rows.mapM fun row => Syslog.getSnortLogs dates db (.ofOssecLogData (readOssecLog dates row.2))).map
      fun found => found.flatten.insertionSort notAfter := by
  rw [addSnortLogs, List.mapM_map]
  rfl

/-- A page exists if all identifiers can be read, and then it has the rows of all windows. -/
theorem addSnortLogs_eq_ok
    (hlimited : ∀ row ∈ rows, (db.snortLogs.rows.filter (inWindow dates row.2)).length ≤ 10)
    (hreadable : ∀ row ∈ rows, Readable row.2.identifier.chars) :
    ∃ page, addSnortLogs dates db (rows.map fun row => readOssecLog dates row.2) = .ok page ∧ page.Pairwise notAfter ∧
      page.Perm (rows.flatMap (shownFor dates db)) := by
  obtain ⟨found, hfound, hall⟩ := @mapM_eq_ok_of_forall _ _ _ (fun row : Nat × OssecRow =>
    Syslog.getSnortLogs dates db (.ofOssecLogData (readOssecLog dates row.2)))
      (fun row found => found.Perm (shownFor dates db row)) rows fun row hrow => by
    obtain ⟨signature, hsignature⟩ := hreadable row hrow
    exact getSnortLogs_ofOssecLogData hsignature (hlimited row hrow)
  refine ⟨found.flatten.insertionSort notAfter, ?_, List.pairwise_insertionSort _ _, ?_⟩
  · rw [addSnortLogs_rows, hfound]
    rfl
  · refine (List.perm_insertionSort _ _).trans ?_
    clear hfound
    induction hall with
    | nil => exact .refl _
    | cons hfirst _ ih =>
      rw [List.flatten_cons, List.flatMap_cons]
      exact hfirst.append (ih (fun row hrow => hlimited row (List.mem_cons_of_mem _ hrow))
        fun row hrow => hreadable row (List.mem_cons_of_mem _ hrow))

theorem readable_of_addSnortLogs {page : List SnortLogData}
    (h : addSnortLogs dates db (rows.map fun row => readOssecLog dates row.2) = .ok page) :
    ∀ row ∈ rows, Readable row.2.identifier.chars := by
  rw [addSnortLogs_rows] at h
  cases hfound : rows.mapM fun row => Syslog.getSnortLogs dates db (.ofOssecLogData (readOssecLog dates row.2)) with
  | error e =>
    rw [hfound] at h
    cases h
  | ok found =>
    intro row hrow
    obtain ⟨snortLogs, hread⟩ := exists_eq_ok_of_mapM hfound row hrow
    cases hsignature : createSnortSignature row.2.identifier.chars with
    | ok signature => exact ⟨signature, hsignature⟩
    | error e =>
      rw [Syslog.getSnortLogs, show createSnortSignature (OssecSnortMessage.ofOssecLogData
        (readOssecLog dates row.2)).identifier = .error e from hsignature] at hread
      cases hread

theorem nodup_flatMap_shownFor :
    (rows.flatMap (shownFor dates db)).Nodup ↔ rows.Pairwise fun a b => ¬ Overlap dates db a b := by
  rw [List.nodup_flatMap]
  simp only [nodup_shownFor, implies_true, true_and]
  exact List.Pairwise.iff fun a b => disjoint_shownFor_iff a b

end lists

/-- In every state that messages lead to, the page of a hash shows each row once if the identifiers can be read
and no row lies in the windows of two alerts. -/
theorem snortPage_shows_once_iff (toString : LogData → Text) (dates : DateColumns) (platform : Platform) (db : LogDatabase c)
    (messages : List (Int × IdsMessage)) (hash : Varchar 32)
    (hlimited : WindowsLimited dates (processMessages toString dates platform db messages) hash) :
    ShowsOnce dates (processMessages toString dates platform db messages) hash ↔
      (∀ row ∈ alertsWith (processMessages toString dates platform db messages) hash, Readable row.2.identifier.chars) ∧
        (alertsWith (processMessages toString dates platform db messages) hash).Pairwise fun a b =>
          ¬ Overlap dates (processMessages toString dates platform db messages) a b := by
  generalize processMessages toString dates platform db messages = final at hlimited ⊢
  constructor
  · intro h
    obtain ⟨page, hpage, honce, -, -⟩ := h (alertsWith final hash) (List.Perm.refl _)
    have hreadable := readable_of_addSnortLogs hpage
    obtain ⟨page', hpage', -, hperm⟩ := addSnortLogs_eq_ok hlimited hreadable
    obtain rfl := Except.ok.inj (hpage.symm.trans hpage')
    exact ⟨hreadable, nodup_flatMap_shownFor.mp (hperm.nodup_iff.mp honce)⟩
  · rintro ⟨hreadable, hapart⟩ rows hrows
    have hmem {row : Nat × OssecRow} : row ∈ rows ↔ row ∈ alertsWith final hash := hrows.mem_iff
    obtain ⟨page, hpage, hsorted, hperm⟩ := @addSnortLogs_eq_ok c dates final rows
      (fun row hrow => hlimited row (hmem.mp hrow)) fun row hrow => hreadable row (hmem.mp hrow)
    have hapart' : rows.Pairwise fun a b => ¬ Overlap dates final a b :=
      (hrows.pairwise_iff fun h hover => h hover.symm).mpr hapart
    refine ⟨page, hpage, hperm.nodup_iff.mpr (nodup_flatMap_shownFor.mpr hapart'), fun data => ?_, hsorted⟩
    rw [hperm.mem_iff, List.mem_flatMap]
    constructor
    · rintro ⟨row, hrow, hdata⟩
      obtain ⟨l, hl, rfl⟩ := List.mem_map.mp hdata
      obtain ⟨hstored, hin⟩ := List.mem_filter.mp hl
      exact ⟨l, hstored, ⟨row, hmem.mp hrow, hin⟩, rfl⟩
    · rintro ⟨l, hstored, ⟨row, hrow, hin⟩, rfl⟩
      exact ⟨row, hmem.mpr hrow, List.mem_map_of_mem (List.mem_filter.mpr ⟨hstored, hin⟩)⟩

section samples

def stored (messages : List (Int × IdsMessage)) : LogDatabase Collation.binary :=
  processMessages (fun _ => []) utcColumns samplePlatform emptyDatabase messages

/-- The alert comes again after an hour; one snort row lies in the window of each of the two,
and one in neither. -/
def hourlyMessages : List (Int × IdsMessage) :=
  sampleMessages ++ [
    (1000, .ossec "Oct 12 08:14:00 log-1 ossec: Alert Level: 12; snort[7]: [129:15:1] x".toList sampleLog),
    (1000, .snort "[SNORTIDS[LOG]: [sensor] ] || 2017-10-12 08:14:31.500 3 [129:15:1] || Reset || 1 41 |".toList),
    (2000, .snort "[SNORTIDS[LOG]: [sensor] ] || 2017-10-12 08:08:59.000 3 [129:15:1] || Reset || 1 41 |".toList)]

def repeatedMessages : List (Int × IdsMessage) :=
  sampleMessages ++ [(1000, .ossec "Oct 12 07:14:01 log-1 ossec: Alert Level: 12; snort[7]: [129:15:1] x".toList sampleLog)]

theorem page_of_hourly_alerts : (alertsWith (stored hourlyMessages) sampleHash).length = 2 ∧
    (stored hourlyMessages).snortLogs.rows.length = 3 ∧ ShowsOnce utcColumns (stored hourlyMessages) sampleHash := by
  have hfacts : (alertsWith (stored hourlyMessages) sampleHash).length = 2 ∧
      (stored hourlyMessages).snortLogs.rows.length = 3 ∧
      (∀ row ∈ alertsWith (stored hourlyMessages) sampleHash,
        ((stored hourlyMessages).snortLogs.rows.filter (inWindow utcColumns row.2)).length = 1 ∧
          (createSnortSignature row.2.identifier.chars).toOption.isSome) ∧
      (alertsWith (stored hourlyMessages) sampleHash).Pairwise fun a b =>
        ∀ l ∈ (stored hourlyMessages).snortLogs.rows,
          inWindow utcColumns a.2 l = true → ¬ inWindow utcColumns b.2 l = true := by decide +kernel
  obtain ⟨htwo, hthree, hrows, hdisjoint⟩ := hfacts
  have hreadable : ∀ row ∈ alertsWith (stored hourlyMessages) sampleHash, Readable row.2.identifier.chars := by
    intro row hrow
    have hsome := (hrows row hrow).2
    cases hsignature : createSnortSignature row.2.identifier.chars with
    | ok signature => exact ⟨signature, hsignature⟩
    | error e =>
      rw [hsignature] at hsome
      cases hsome
  have hapart : (alertsWith (stored hourlyMessages) sampleHash).Pairwise fun a b =>
      ¬ Overlap utcColumns (stored hourlyMessages) a b :=
    hdisjoint.imp fun hab ⟨l, hl, ha, hb⟩ => hab l hl ha hb
  have hlimited : WindowsLimited utcColumns (stored hourlyMessages) sampleHash := by
    intro row hrow
    rw [(hrows row hrow).1]
    decide
  exact ⟨htwo, hthree, (snortPage_shows_once_iff (fun _ => []) utcColumns samplePlatform emptyDatabase hourlyMessages
    sampleHash hlimited).mpr ⟨hreadable, hapart⟩⟩

/-- The alert is repeated after a second, and the page shows its row for each of the two. -/
theorem row_of_repeated_alert : WindowsLimited utcColumns (stored repeatedMessages) sampleHash ∧
    ¬ ShowsOnce utcColumns (stored repeatedMessages) sampleHash := by
  have hfacts : (∀ row ∈ alertsWith (stored repeatedMessages) sampleHash,
      ((stored repeatedMessages).snortLogs.rows.filter (inWindow utcColumns row.2)).length ≤ 10) ∧
      (addSnortLogs utcColumns (stored repeatedMessages) ((alertsWith (stored repeatedMessages) sampleHash).map
        fun row => readOssecLog utcColumns row.2)).toOption.map (fun page => decide page.Nodup) = some false := by
    decide +kernel
  obtain ⟨hlimited, htwice⟩ := hfacts
  refine ⟨hlimited, fun h => ?_⟩
  obtain ⟨page, hpage, honce, -, -⟩ := h _ (List.Perm.refl _)
  rw [alertsWith, hpage] at htwice
  exact absurd honce (of_decide_eq_false (Option.some.inj htwice))

end samples
end Srvlog.Web
