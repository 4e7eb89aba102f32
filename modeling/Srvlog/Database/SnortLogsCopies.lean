import Srvlog.Database.SnortLogsMigration

/-! The new table holds one row per row of snort_logs unless a row is both copied by the
loop and recorded by a trigger. -/
namespace Srvlog.Database
open Library
namespace Migration

section statements
variable {s t : Migration}

theorem snortLogsNewIndexes_not_unique : ∀ index ∈ snortLogsNewIndexes, index.unique = false := by
  intro index hindex
  simp only [snortLogsNewIndexes, List.mem_cons, List.not_mem_nil, or_false] at hindex
  rcases hindex with rfl | rfl | rfl | rfl
  all_goals rfl

theorem mem_ids {id : Nat} : id ∈ s.ids ↔ ∃ p ∈ s.snortLogs.rows, p.1 = id := List.mem_map

theorem ids_insert (row : SnortColumns) : (s.insert row).ids = s.ids ++ [s.snortLogs.autoIncrement] := List.map_append

theorem ids_update (id : Nat) (row : SnortColumns) : (s.update id row).ids = s.ids := List.map_map

theorem copyNext_eq_some (h : s.copyNext = some t) :
    t = { s with currentId := s.currentId + copyCount, snortLogsNew := s.snortLogsNew ++ s.nextRows } := by
  unfold copyNext at h
  split at h
  · rw [insertSelect_of_not_unique snortLogsNewIndexes_not_unique] at h
    exact (Option.some.inj h).symm
  · cases h

theorem insertRecorded_eq_some {snortLogsNew : List (Nat × SnortRow)} (h : s.insertRecorded = some snortLogsNew) :
    s.trgSnortLogsAu = true ∧ maxId ≤ s.currentId ∧ snortLogsNew = s.snortLogsNew ++ s.recordedRows := by
  unfold insertRecorded at h
  split at h
  · next hguard =>
    rw [foldl_insertOrUpdate_of_not_unique snortLogsNewIndexes_not_unique] at h
    exact ⟨hguard.1, hguard.2.1, (Option.some.inj h).symm⟩
  · cases h

theorem mem_nextRows {r : Nat × SnortRow} : r ∈ s.nextRows ↔
    ∃ p ∈ s.snortLogs.rows, (s.currentId ≤ p.1 ∧ p.1 < s.currentId + copyCount) ∧ newRow p = r := by
  unfold nextRows
  simp only [List.mem_map, List.mem_filter, decide_eq_true_eq, and_assoc]

theorem mem_recordedRows {r : Nat × SnortRow} : r ∈ s.recordedRows ↔
    ∃ p ∈ s.snortLogs.rows, p.1 ∈ s.identifiers ∧ newRow p = r := by
  unfold recordedRows
  simp only [List.mem_dedup, List.mem_flatMap, List.mem_map, List.mem_filter, decide_eq_true_eq]
  constructor
  · rintro ⟨p, hp, id, ⟨hid, rfl⟩, rfl⟩
    exact ⟨p, hp, hid, rfl⟩
  · rintro ⟨p, hp, hid, rfl⟩
    exact ⟨p, hp, p.1, ⟨hid, rfl⟩, rfl⟩

/-- What a step does, with what must hold for it. -/
theorem migrationStep_cases {a : MigrationStep} (h : migrationStep s a = some t) :
    (∃ row, a = .insert row ∧ t = s.insert row) ∨ (∃ id row, a = .update id row ∧ t = s.update id row) ∨
      (a = .createTriggerAi ∧ s.trgSnortLogsAi = false ∧ t = { s with trgSnortLogsAi := true }) ∨
      (a = .createTriggerAu ∧ s.trgSnortLogsAi = true ∧ s.trgSnortLogsAu = false ∧ t = { s with trgSnortLogsAu := true }) ∨
      (a = .copyNext ∧ s.trgSnortLogsAu = true ∧ s.currentId < maxId ∧
        t = { s with currentId := s.currentId + copyCount, snortLogsNew := s.snortLogsNew ++ s.nextRows }) := by
  cases a with
  | insert row => exact .inl ⟨row, rfl, (Option.some.inj h).symm⟩
  | update id row => exact .inr (.inl ⟨id, row, rfl, (Option.some.inj h).symm⟩)
  | createTriggerAi =>
    unfold migrationStep at h
    dsimp only at h
    split at h
    · cases h
    · next hai => exact .inr (.inr (.inl ⟨rfl, Bool.eq_false_of_not_eq_true hai, (Option.some.inj h).symm⟩))
  | createTriggerAu =>
    unfold migrationStep at h
    dsimp only at h
    split at h
    · next hguard =>
      exact .inr (.inr (.inr (.inl ⟨rfl, hguard.1, Bool.eq_false_of_not_eq_true hguard.2, (Option.some.inj h).symm⟩)))
    · cases h
  | copyNext =>
    unfold migrationStep at h
    dsimp only at h
    split at h
    · next hguard => exact .inr (.inr (.inr (.inr ⟨rfl, hguard.1, hguard.2, copyNext_eq_some h⟩)))
    · cases h

end statements

section invariant

/-- What holds while the loop copies: up to the current identifier each row was copied as
it is now, or was recorded. -/
structure Copying (s : Migration) : Prop where
  counter : 1 ≤ s.snortLogs.autoIncrement
  positive : ∀ id ∈ s.ids, 1 ≤ id
  chunks : ∃ k, k ≤ 40 ∧ s.currentId = 1 + k * copyCount
  started : s.currentId ≠ 1 → s.trgSnortLogsAu = true
  triggers : s.trgSnortLogsAu = true → s.trgSnortLogsAi = true
  recorded : ∀ id ∈ s.identifiers, id ∈ s.ids
  copied : ∀ id ∈ s.snortLogsNew.map Prod.fst, id < s.currentId ∧ id ∈ s.ids
  nodup : (s.snortLogsNew.map Prod.fst).Nodup
  covered : ∀ p ∈ s.snortLogs.rows, p.1 < s.currentId → p.1 ∈ s.identifiers ∨ newRow p ∈ s.snortLogsNew

theorem Initial.copying {s : Migration} (h : s.Initial) : s.Copying where
  counter := h.counter
  positive id hid := by
    obtain ⟨p, hp, rfl⟩ := mem_ids.mp hid
    exact (h.ids p hp).1
  chunks := ⟨0, Nat.zero_le _, h.currentId⟩
  started hne := absurd h.currentId hne
  triggers hau := by
    rw [h.trgSnortLogsAu] at hau
    cases hau
  recorded id hid := by
    rw [h.identifiers] at hid
    cases hid
  copied id hid := by
    rw [h.snortLogsNew] at hid
    cases hid
  nodup := by
    rw [h.snortLogsNew]
    exact List.nodup_nil
  covered p hp hlt := by
    have hpositive := (h.ids p hp).1
    rw [h.currentId] at hlt
    omega

variable {s t : Migration}

theorem Copying.insert (h : s.Copying) (row : SnortColumns) : (s.insert row).Copying := by
  have hids := @ids_insert s row
  have hincl : ∀ id ∈ s.ids, id ∈ (s.insert row).ids := by
    intro id hid
    rw [hids]
    exact List.mem_append_left _ hid
  refine ⟨Nat.le_succ_of_le h.counter, ?_, h.chunks, h.started, h.triggers, ?_, ?_, h.nodup, ?_⟩
  · intro id hid
    rw [hids, List.mem_append, List.mem_singleton] at hid
    rcases hid with hid | rfl
    · exact h.positive id hid
    · exact h.counter
  · intro id hid
    unfold Migration.insert at hid
    dsimp only at hid
    split at hid
    · rcases List.mem_append.mp hid with hid | hid
      · exact hincl id (h.recorded id hid)
      · rw [hids]
        exact List.mem_append_right _ hid
    · exact hincl id (h.recorded id hid)
  · exact fun id hid => ⟨(h.copied id hid).1, hincl id (h.copied id hid).2⟩
  · intro p hp hlt
    rcases List.mem_append.mp hp with hp | hp
    · rcases h.covered p hp hlt with hrecorded | hcopied
      · left
        unfold Migration.insert
        dsimp only
        split
        · exact List.mem_append_left _ hrecorded
        · exact hrecorded
      · exact .inr hcopied
    · -- a row behind the current identifier: the loop has started, so both triggers are there
      obtain rfl := List.mem_singleton.mp hp
      have hstarted : s.currentId ≠ 1 := by
        have hcounter := h.counter
        change s.snortLogs.autoIncrement < s.currentId at hlt
        omega
      left
      unfold Migration.insert
      dsimp only
      rw [if_pos (h.triggers (h.started hstarted))]
      exact List.mem_append_right _ (List.mem_singleton_self _)

theorem Copying.update (h : s.Copying) (id : Nat) (row : SnortColumns) : (s.update id row).Copying := by
  have hids := @ids_update s id row
  have hincl : ∀ key ∈ s.identifiers, key ∈ (s.update id row).identifiers := by
    intro key hkey
    unfold Migration.update
    dsimp only
    split
    · exact List.mem_append_left _ hkey
    · exact hkey
  refine ⟨h.counter, ?_, h.chunks, h.started, h.triggers, ?_, ?_, h.nodup, ?_⟩
  · rw [hids]
    exact h.positive
  · rw [hids]
    intro key hkey
    unfold Migration.update at hkey
    dsimp only at hkey
    split at hkey
    · next hrecords =>
      rcases List.mem_append.mp hkey with hkey | hkey
      · exact h.recorded key hkey
      · obtain rfl := List.mem_singleton.mp hkey
        exact hrecords.2
    · exact h.recorded key hkey
  · rw [hids]
    exact h.copied
  · intro p hp hlt
    obtain ⟨old, hold, rfl⟩ := List.mem_map.mp hp
    dsimp only at hlt ⊢
    by_cases hkey : old.1 = id
    · -- the updated row lies behind the current identifier, so its update is recorded
      have hpositive := h.positive old.1 (mem_ids.mpr ⟨old, hold, rfl⟩)
      have hstarted : s.currentId ≠ 1 := by
        change old.1 < s.currentId at hlt
        omega
      left
      unfold Migration.update
      dsimp only
      rw [if_pos ⟨h.started hstarted, mem_ids.mpr ⟨old, hold, hkey⟩⟩, hkey]
      exact List.mem_append_right _ (List.mem_singleton_self _)
    · rw [if_neg hkey]
      exact (h.covered old hold hlt).imp (hincl _) fun hcopied => hcopied

theorem Copying.copyNext (h : s.Copying) (hau : s.trgSnortLogsAu = true) (hlt : s.currentId < maxId) :
    Copying { s with currentId := s.currentId + copyCount, snortLogsNew := s.snortLogsNew ++ s.nextRows } := by
  have hnext : ∀ id ∈ s.nextRows.map Prod.fst, s.currentId ≤ id ∧ id < s.currentId + copyCount ∧ id ∈ s.ids := by
    intro id hid
    obtain ⟨r, hr, rfl⟩ := List.mem_map.mp hid
    obtain ⟨p, hp, hrange, rfl⟩ := mem_nextRows.mp hr
    exact ⟨hrange.1, hrange.2, mem_ids.mpr ⟨p, hp, rfl⟩⟩
  refine ⟨h.counter, h.positive, ?_, fun _ => hau, h.triggers, h.recorded, ?_, ?_, ?_⟩
  · obtain ⟨k, hk, hcurrent⟩ := h.chunks
    refine ⟨k + 1, ?_, ?_⟩
    · unfold maxId at hlt
      unfold copyCount at hcurrent
      omega
    · dsimp only
      rw [hcurrent, Nat.succ_mul, Nat.add_assoc]
  · intro id hid
    rw [List.map_append, List.mem_append] at hid
    dsimp only
    rcases hid with hid | hid
    · exact ⟨Nat.lt_add_right _ (h.copied id hid).1, (h.copied id hid).2⟩
    · exact (hnext id hid).2
  · rw [List.map_append, List.nodup_append]
    refine ⟨h.nodup, ?_, ?_⟩
    · have hsub : (s.nextRows.map Prod.fst).Sublist (s.snortLogs.rows.map Prod.fst) := by
        unfold nextRows
        rw [List.map_map]
        exact List.filter_sublist.map _
      exact s.snortLogs.keys_nodup.sublist hsub
    · intro id hid key hkey
      have hlow := (hnext key hkey).1
      have hhigh := (h.copied id hid).1
      omega
  · intro p hp hbelow
    dsimp only at hbelow ⊢
    by_cases hcurrent : p.1 < s.currentId
    · exact (h.covered p hp hcurrent).imp id (List.mem_append_left _)
    · right
      exact List.mem_append_right _ (mem_nextRows.mpr ⟨p, hp, ⟨Nat.le_of_not_lt hcurrent, hbelow⟩, rfl⟩)

theorem Copying.step {a : MigrationStep} (h : s.Copying) (hstep : migrationStep s a = some t) : t.Copying := by
  rcases migrationStep_cases hstep with ⟨row, rfl, rfl⟩ | ⟨id, row, rfl, rfl⟩ | ⟨rfl, hai, rfl⟩ | ⟨rfl, hai, hau, rfl⟩ |
    ⟨rfl, hau, hlt, rfl⟩
  · exact h.insert row
  · exact h.update id row
  · exact { h with triggers := fun _ => rfl }
  · exact { h with started := fun _ => rfl, triggers := fun _ => hai }
  · exact h.copyNext hau hlt

end invariant
section copies
variable {s t : Migration}

/-- The loop has copied the row or is still to copy it. -/
def ByLoop (s : Migration) (id : Nat) : Prop := id ∈ s.snortLogsNew.map Prod.fst ∨ (s.currentId ≤ id ∧ id ≤ maxId)

/-- No recorded row is one of the loop's. -/
def Separate (s : Migration) : Prop := ∀ id ∈ s.identifiers, ¬ s.ByLoop id

/-- A write that a trigger records does not concern a row of the loop. -/
def SafeWrite (s : Migration) : MigrationStep → Prop
  | .insert _ => s.trgSnortLogsAi = true → ¬ s.ByLoop s.snortLogs.autoIncrement
  | .update id _ => s.trgSnortLogsAu = true → id ∈ s.ids → ¬ s.ByLoop id
  | .createTriggerAi | .createTriggerAu | .copyNext => True

theorem separate_insert (row : SnortColumns) : (s.insert row).Separate ↔ s.Separate ∧ s.SafeWrite (.insert row) := by
  unfold Separate SafeWrite Migration.insert
  dsimp only
  by_cases hai : s.trgSnortLogsAi = true
  · rw [if_pos hai, List.forall_mem_append, List.forall_mem_singleton]
    exact and_congr_right fun _ => ⟨fun h _ => h, fun h => h hai⟩
  · rw [if_neg hai]
    exact (and_iff_left fun h => absurd h hai).symm

theorem separate_update (id : Nat) (row : SnortColumns) :
    (s.update id row).Separate ↔ s.Separate ∧ s.SafeWrite (.update id row) := by
  unfold Separate SafeWrite Migration.update
  dsimp only
  by_cases hrecords : s.trgSnortLogsAu = true ∧ id ∈ s.ids
  · rw [if_pos hrecords, List.forall_mem_append, List.forall_mem_singleton]
    exact and_congr_right fun _ => ⟨fun h _ _ => h, fun h => h hrecords.1 hrecords.2⟩
  · rw [if_neg hrecords]
    exact (and_iff_left fun hau hid => absurd ⟨hau, hid⟩ hrecords).symm

/-- Copying the next rows does not change which rows are the loop's. -/
theorem byLoop_copyNext (h : s.Copying) (hlt : s.currentId < maxId) {id : Nat} (hid : id ∈ s.ids) :
    ByLoop { s with currentId := s.currentId + copyCount, snortLogsNew := s.snortLogsNew ++ s.nextRows } id ↔
      s.ByLoop id := by
  have hend : s.currentId + copyCount ≤ maxId + 1 := by
    obtain ⟨k, hk, hcurrent⟩ := h.chunks
    unfold maxId at hlt ⊢
    unfold copyCount at hcurrent ⊢
    omega
  have hnext : id ∈ s.nextRows.map Prod.fst ↔ s.currentId ≤ id ∧ id < s.currentId + copyCount := by
    constructor
    · intro hmem
      obtain ⟨r, hr, rfl⟩ := List.mem_map.mp hmem
      obtain ⟨p, -, hrange, rfl⟩ := mem_nextRows.mp hr
      exact hrange
    · intro hrange
      obtain ⟨p, hp, rfl⟩ := mem_ids.mp hid
      exact List.mem_map.mpr ⟨newRow p, mem_nextRows.mpr ⟨p, hp, hrange, rfl⟩, rfl⟩
  unfold ByLoop
  dsimp only
  rw [List.map_append, List.mem_append, hnext, or_assoc]
  refine or_congr_right ?_
  omega

theorem separate_step {a : MigrationStep} (h : s.Copying) (hstep : migrationStep s a = some t) :
    t.Separate ↔ s.Separate ∧ s.SafeWrite a := by
  rcases migrationStep_cases hstep with ⟨row, rfl, rfl⟩ | ⟨id, row, rfl, rfl⟩ | ⟨rfl, -, rfl⟩ | ⟨rfl, -, -, rfl⟩ |
    ⟨rfl, hau, hlt, rfl⟩
  · exact separate_insert row
  · exact separate_update id row
  · exact (and_iff_left trivial).symm
  · exact (and_iff_left trivial).symm
  · rw [SafeWrite, and_true]
    exact forall₂_congr fun id hid => not_congr (byLoop_copyNext h hlt (h.recorded id hid))

theorem nodup_keys_recordedRows : (s.recordedRows.map Prod.fst).Nodup := by
  refine List.Nodup.map_on ?_ (List.nodup_dedup _)
  intro r hr r' hr' hkey
  obtain ⟨p, hp, -, rfl⟩ := mem_recordedRows.mp hr
  obtain ⟨p', hp', -, rfl⟩ := mem_recordedRows.mp hr'
  rw [s.snortLogs.eq_of_key_eq hp hp' hkey]

/-- When the loop has ended, the new table is a faithful copy exactly when no row comes
from both sources and no row from neither. -/
theorem perm_iff (h : s.Copying) (hend : maxId ≤ s.currentId) :
    (s.snortLogsNew ++ s.recordedRows).Perm (s.snortLogs.rows.map newRow) ↔
      s.Separate ∧ ∀ id ∈ s.ids, id ≤ maxId ∨ id ∈ s.identifiers := by
  have hlast : maxId < s.currentId := by
    obtain ⟨k, hk, hcurrent⟩ := h.chunks
    unfold maxId at hend ⊢
    unfold copyCount at hcurrent
    omega
  have hkeys : (s.snortLogs.rows.map newRow).map Prod.fst = s.ids := List.map_map
  have hids : s.ids.Nodup := s.snortLogs.keys_nodup
  constructor
  · intro hperm
    have hpermKeys := hperm.map Prod.fst
    rw [hkeys, List.map_append] at hpermKeys
    have hnodup := hpermKeys.nodup_iff.mpr hids
    constructor
    · intro id hid hloop
      have hrecorded : id ∈ s.recordedRows.map Prod.fst := by
        obtain ⟨p, hp, rfl⟩ := mem_ids.mp (h.recorded id hid)
        exact List.mem_map.mpr ⟨newRow p, mem_recordedRows.mpr ⟨p, hp, hid, rfl⟩, rfl⟩
      rcases hloop with hcopied | ⟨hlow, hhigh⟩
      · exact (List.nodup_append.mp hnodup).2.2 id hcopied id hrecorded rfl
      · omega
    · intro id hid
      rcases List.mem_append.mp (hpermKeys.mem_iff.mpr hid) with hcopied | hrecorded
      · left
        obtain ⟨k, hk, hcurrent⟩ := h.chunks
        have hlt := (h.copied id hcopied).1
        unfold copyCount at hcurrent
        unfold maxId
        omega
      · right
        obtain ⟨r, hr, rfl⟩ := List.mem_map.mp hrecorded
        obtain ⟨p, -, hmem, rfl⟩ := mem_recordedRows.mp hr
        exact hmem
  · rintro ⟨hseparate, hcomplete⟩
    have hnodup : ((s.snortLogsNew ++ s.recordedRows).map Prod.fst).Nodup := by
      rw [List.map_append, List.nodup_append]
      refine ⟨h.nodup, nodup_keys_recordedRows, ?_⟩
      rintro id hcopied key hrecorded rfl
      obtain ⟨r, hr, rfl⟩ := List.mem_map.mp hrecorded
      obtain ⟨p, -, hmem, rfl⟩ := mem_recordedRows.mp hr
      exact hseparate _ hmem (.inl hcopied)
    refine (List.perm_ext_iff_of_nodup (List.Nodup.of_map _ hnodup) (List.Nodup.of_map _ (hkeys ▸ hids))).mpr fun r => ?_
    rw [List.mem_append, mem_recordedRows, List.mem_map]
    constructor
    · rintro (hcopied | ⟨p, hp, -, rfl⟩)
      · -- a copied row was not recorded, so it is still as it was copied
        obtain ⟨hlt, hid⟩ := h.copied r.1 (List.mem_map_of_mem hcopied)
        obtain ⟨p, hp, hkey⟩ := mem_ids.mp hid
        refine ⟨p, hp, ?_⟩
        rcases h.covered p hp (hkey ▸ hlt) with hrecorded | hsame
        · exact absurd (.inl (List.mem_map_of_mem hcopied)) (hkey ▸ hseparate p.1 hrecorded)
        · exact List.inj_on_of_nodup_map h.nodup hsame hcopied hkey
      · exact ⟨p, hp, rfl⟩
    · rintro ⟨p, hp, rfl⟩
      by_cases hrecorded : p.1 ∈ s.identifiers
      · exact .inr ⟨p, hp, hrecorded, rfl⟩
      · have hrange := (hcomplete p.1 (mem_ids.mpr ⟨p, hp, rfl⟩)).resolve_right hrecorded
        exact .inl ((h.covered p hp (by omega)).resolve_left hrecorded)

end copies
section faithful

/-- One row for each row of the old table, with its identifier and all its columns as they are
now, and with the month of its date as the key of the partitions. -/
structure FaithfulCopy (rows : List (Nat × SnortColumns)) (copies : List (Nat × SnortRow)) : Prop where
  columns : (copies.map fun copy => (copy.1, copy.2.toSnortColumns)).Perm rows
  keys : ∀ copy ∈ copies, copy.2.snortLogsPartitionKey = 100 * copy.2.date.year + copy.2.date.month

theorem faithfulCopy_iff {rows : List (Nat × SnortColumns)} {copies : List (Nat × SnortRow)} :
    FaithfulCopy rows copies ↔ copies.Perm (rows.map newRow) := by
  constructor
  · intro h
    have hcopies : copies = (copies.map fun copy => (copy.1, copy.2.toSnortColumns)).map newRow := by
      rw [List.map_map]
      refine (List.map_id' copies).symm.trans (List.map_congr_left fun copy hcopy => ?_)
      have hkey : copy.2.snortLogsPartitionKey = copy.2.date.dateFormatYm := h.keys copy hcopy
      dsimp only [Function.comp_apply, newRow]
      rw [← hkey]
    rw [hcopies]
    exact h.columns.map newRow
  · intro h
    refine ⟨?_, fun copy hcopy => ?_⟩
    · have hcolumns := h.map fun copy => (copy.1, copy.2.toSnortColumns)
      rw [List.map_map] at hcolumns
      exact hcolumns.trans (List.Perm.of_eq (List.map_id' rows))
    · obtain ⟨row, -, rfl⟩ := List.mem_map.mp (h.mem_iff.mp hcopy)
      exact row.2.date.dateFormatYm_eq

end faithful

section runs
variable {start s : Migration}

/-- The new table is a faithful copy if and only if no recorded write concerned a row of the
loop, and the rows that the loop does not reach are recorded. -/
theorem snort_logs_copied_iff {as : List MigrationStep} (hstart : start.Initial) (hrun : Run migrationStep start as s)
    {snortLogsNew : List (Nat × SnortRow)} (hlast : s.insertRecorded = some snortLogsNew) :
    FaithfulCopy s.snortLogs.rows snortLogsNew ↔
      AllSteps migrationStep SafeWrite start as ∧ ∀ id ∈ s.ids, id ≤ maxId ∨ id ∈ s.identifiers := by
  have hcopying := hrun.invariant (fun _ _ _ h hstep => h.step hstep) hstart.copying
  have hseparate := hrun.holds_iff_allSteps (fun _ _ _ h hstep => Copying.step h hstep)
    (fun _ _ _ h hstep => separate_step h hstep) hstart.copying
  have hnone : start.Separate := by
    intro id hid
    rw [hstart.identifiers] at hid
    cases hid
  obtain ⟨-, hend, rfl⟩ := insertRecorded_eq_some hlast
  rw [faithfulCopy_iff, perm_iff hcopying hend, hseparate, and_iff_right hnone]

/-- Rows that have a partition never stop the loop. -/
theorem exists_copy_all (hau : s.trgSnortLogsAu = true) (hpartition : ∀ p ∈ s.snortLogs.rows, hasPartition (newRow p) = true)
    (n : Nat) (hn : s.currentId + n * copyCount = maxId + 1) :
    ∃ t, Run migrationStep s (List.replicate n .copyNext) t ∧ t.snortLogs = s.snortLogs ∧ t.identifiers = s.identifiers ∧
      t.trgSnortLogsAu = true ∧ t.currentId = maxId + 1 := by
  induction n generalizing s with
  | zero => exact ⟨s, .nil s, rfl, rfl, hau, by omega⟩
  | succ n ih =>
    have hrows : s.nextRows.all hasPartition = true := by
      rw [List.all_eq_true]
      intro r hr
      obtain ⟨p, hp, -, rfl⟩ := mem_nextRows.mp hr
      exact hpartition p hp
    have hguard : s.trgSnortLogsAu = true ∧ s.currentId < maxId := by
      refine ⟨hau, ?_⟩
      unfold copyCount maxId at hn
      unfold maxId
      omega
    have hstep : migrationStep s .copyNext =
        some { s with currentId := s.currentId + copyCount, snortLogsNew := s.snortLogsNew ++ s.nextRows } := by
      unfold migrationStep
      dsimp only
      rw [if_pos hguard, Migration.copyNext, if_pos hrows, insertSelect_of_not_unique snortLogsNewIndexes_not_unique]
      rfl
    obtain ⟨t, hrun, hrest⟩ := ih (s := { s with
      currentId := s.currentId + copyCount
      snortLogsNew := s.snortLogsNew ++ s.nextRows }) hau hpartition (by rw [← hn, Nat.succ_mul]; dsimp only; omega)
    exact ⟨t, .cons hstep hrun, hrest⟩

theorem exists_insertRecorded (hau : s.trgSnortLogsAu = true)
    (hpartition : ∀ p ∈ s.snortLogs.rows, hasPartition (newRow p) = true) (hend : maxId ≤ s.currentId) :
    ∃ snortLogsNew, s.insertRecorded = some snortLogsNew := by
  have hrows : s.recordedRows.all hasPartition = true := by
    rw [List.all_eq_true]
    intro r hr
    obtain ⟨p, hp, -, rfl⟩ := mem_recordedRows.mp hr
    exact hpartition p hp
  exact ⟨_, if_pos ⟨hau, hend, hrows⟩⟩

end runs

section example_runs

/-- An alert of 2015. -/
def alertRow : SnortColumns where
  program := ⟨[], by decide⟩
  sensorName := ⟨[], by decide⟩
  date := ⟨736000 * 86400, by decide⟩
  priority := 1
  classification := ⟨[], by decide⟩
  alertCause := ⟨[], by decide⟩
  generatorId := 1
  signatureId := 2
  signatureRevision := 3
  protocolNumber := none
  protocolAlias := none
  protocolVersion := none
  sourceIp := none
  destinationIp := none
  headerLength := none
  serviceType := none
  datagramLength := none
  identification := none
  flags := none
  fragmentOffset := none
  timeToLive := none
  checksum := none
  sourcePort := none
  destinationPort := none
  host := none
  xForwardedFor := none
  xRealIp := none
  payload := ⟨[], by decide⟩

def oneAlert : Migration := ⟨Table.empty.insert alertRow, false, false, [], 1, []⟩

theorem oneAlert_initial : oneAlert.Initial where
  ids p hp := by
    obtain rfl := List.mem_singleton.mp hp
    decide
  counter := by decide
  trgSnortLogsAi := rfl
  trgSnortLogsAu := rfl
  identifiers := rfl
  currentId := rfl
  snortLogsNew := rfl

theorem hasPartition_alertRow (id priority : Nat) : hasPartition (newRow (id, { alertRow with priority })) = true := by
  have hdate : alertRow.date.dateFormatYm = 201502 := by decide
  unfold hasPartition newRow
  rw [hdate]
  rfl

theorem allSteps_copyNext (n : Nat) (s : Migration) : AllSteps migrationStep SafeWrite s (List.replicate n .copyNext) := by
  induction n generalizing s with
  | zero => trivial
  | succ n ih => exact ⟨trivial, fun t _ => ih t⟩

/-- A table whose next identifier is behind the range of the loop. -/
def lastAlert : Migration where
  snortLogs := ⟨[(maxId, alertRow)], maxId + 1, List.pairwise_singleton _ _, fun p hp => by
    obtain rfl := List.mem_singleton.mp hp
    exact Nat.lt_succ_self _⟩
  trgSnortLogsAi := false
  trgSnortLogsAu := false
  identifiers := []
  currentId := 1
  snortLogsNew := []

theorem lastAlert_initial : lastAlert.Initial where
  ids p hp := by
    obtain rfl := List.mem_singleton.mp hp
    decide
  counter := by decide
  trgSnortLogsAi := rfl
  trgSnortLogsAu := rfl
  identifiers := rfl
  currentId := rfl
  snortLogsNew := rfl

/-- The alert is updated before the triggers are there. -/
def stepsToTriggers : List MigrationStep :=
  [.update maxId { alertRow with priority := 2 }, .createTriggerAi, .createTriggerAu]

def lastAlertUpdated : Migration :=
  { update lastAlert maxId { alertRow with priority := 2 } with trgSnortLogsAi := true, trgSnortLogsAu := true }

/-- A second alert comes in before the loop and is updated after it: the loop copies the first
one, and the last insert the second. -/
theorem recorded_alert_copied : ∃ s snortLogsNew,
    Run migrationStep lastAlert (stepsToTriggers ++ ([.insert alertRow] ++ (List.replicate 40 .copyNext ++
        [.update (maxId + 1) { alertRow with priority := 3 }]))) s ∧
      s.insertRecorded = some snortLogsNew ∧ s.ids = [maxId, maxId + 1] ∧ s.identifiers = [maxId + 1, maxId + 1] ∧
      FaithfulCopy s.snortLogs.rows snortLogsNew := by
  have htriggers : Run migrationStep lastAlert stepsToTriggers lastAlertUpdated :=
    .cons rfl (.cons rfl (.cons rfl (.nil _)))
  have hinsert : Run migrationStep lastAlertUpdated [.insert alertRow] (lastAlertUpdated.insert alertRow) :=
    .cons rfl (.nil _)
  have hids : (lastAlertUpdated.insert alertRow).ids = [maxId, maxId + 1] := rfl
  have hpartition : ∀ p ∈ (lastAlertUpdated.insert alertRow).snortLogs.rows, hasPartition (newRow p) = true := by
    intro p hp
    rcases List.mem_append.mp hp with hp | hp
    all_goals obtain rfl := List.mem_singleton.mp hp
    · exact hasPartition_alertRow maxId 2
    · exact hasPartition_alertRow (maxId + 1) 1
  obtain ⟨t, hloop, hrows, hidentifiers, hau, hend⟩ := exists_copy_all (s := lastAlertUpdated.insert alertRow) rfl
    hpartition 40 rfl
  have htids : t.ids = [maxId, maxId + 1] := by
    rw [← hids]
    unfold ids
    rw [hrows]
  have hupdate : Run migrationStep t [.update (maxId + 1) { alertRow with priority := 3 }]
      (t.update (maxId + 1) { alertRow with priority := 3 }) := .cons rfl (.nil _)
  have hrun := htriggers.append (hinsert.append (hloop.append hupdate))
  have hsids : (t.update (maxId + 1) { alertRow with priority := 3 }).ids = [maxId, maxId + 1] := by
    rw [ids_update, htids]
  have hspartition : ∀ p ∈ (t.update (maxId + 1) { alertRow with priority := 3 }).snortLogs.rows,
      hasPartition (newRow p) = true := by
    intro p hp
    obtain ⟨q, hq, rfl⟩ := List.mem_map.mp hp
    dsimp only
    split
    · exact hasPartition_alertRow q.1 3
    · exact hpartition q (hrows ▸ hq)
  have hloopEnds : maxId ≤ t.currentId := by omega
  obtain ⟨snortLogsNew, hlast⟩ := exists_insertRecorded (s := t.update (maxId + 1) { alertRow with priority := 3 }) hau
    hspartition hloopEnds
  have hsidentifiers : (t.update (maxId + 1) { alertRow with priority := 3 }).identifiers = [maxId + 1, maxId + 1] := by
    have hmem : maxId + 1 ∈ t.ids := by
      rw [htids]
      exact List.mem_cons_of_mem _ List.mem_cons_self
    unfold update
    dsimp only
    rw [if_pos ⟨hau, hmem⟩, hidentifiers]
    rfl
  refine ⟨_, snortLogsNew, hrun, hlast, hsids, hsidentifiers,
    (snort_logs_copied_iff lastAlert_initial hrun hlast).mpr ⟨?_, fun id hid => ?_⟩⟩
  · have hcopying := (htriggers.append (hinsert.append hloop)).invariant (fun _ _ _ h hstep => Copying.step h hstep)
      lastAlert_initial.copying
    have hbefore : AllSteps migrationStep SafeWrite lastAlert stepsToTriggers :=
      ⟨(nomatch ·), fun _ _ => ⟨trivial, fun _ _ => ⟨trivial, fun _ _ => trivial⟩⟩⟩
    refine htriggers.allSteps_append.mpr ⟨hbefore, hinsert.allSteps_append.mpr ⟨⟨fun _ hbyLoop => ?_, fun _ _ => trivial⟩,
      hloop.allSteps_append.mpr ⟨allSteps_copyNext 40 _, fun _ _ hbyLoop => ?_, fun _ _ => trivial⟩⟩⟩
    · rcases hbyLoop with hcopied | ⟨-, hle⟩
      · exact absurd hcopied List.not_mem_nil
      · exact absurd hle (Nat.not_succ_le_self maxId)
    · rcases hbyLoop with hcopied | ⟨-, hle⟩
      · exact absurd (hcopying.copied _ hcopied).1 (by omega)
      · exact absurd hle (Nat.not_succ_le_self maxId)
  · rw [hsids, List.mem_cons, List.mem_singleton] at hid
    refine hid.imp Nat.le_of_eq fun heq => ?_
    rw [hsidentifiers, heq]
    exact List.mem_cons_self

def oneAlertUpdated : Migration :=
  update ⟨oneAlert.snortLogs, true, true, [], 1, []⟩ 1 { alertRow with priority := 2 }

/-- An alert that is updated after the triggers is copied by the loop and by the last insert. -/
theorem updated_alert_doubled : ∃ s snortLogsNew,
    Run migrationStep oneAlert (.createTriggerAi :: .createTriggerAu :: .update 1 { alertRow with priority := 2 } ::
        List.replicate 40 .copyNext) s ∧
      s.insertRecorded = some snortLogsNew ∧ s.ids = [1] ∧ ¬ FaithfulCopy s.snortLogs.rows snortLogsNew := by
  have hpartition : ∀ p ∈ oneAlertUpdated.snortLogs.rows, hasPartition (newRow p) = true := by
    intro p hp
    obtain rfl := List.mem_singleton.mp hp
    exact hasPartition_alertRow 1 2
  obtain ⟨s, hloop, hrows, -, hau, hend⟩ := exists_copy_all (s := oneAlertUpdated) rfl hpartition 40 rfl
  obtain ⟨snortLogsNew, hlast⟩ := exists_insertRecorded hau (hrows ▸ hpartition) (by omega)
  have hids : s.ids = [1] := by
    unfold ids
    rw [hrows]
    rfl
  refine ⟨s, snortLogsNew, .cons rfl (.cons rfl (.cons rfl hloop)), hlast, hids, fun hfaithful => ?_⟩
  have hcopying : oneAlertUpdated.Copying := ((oneAlert_initial.copying.step (a := .createTriggerAi) rfl).step
    (a := .createTriggerAu) rfl).update 1 _
  obtain ⟨-, hlastId, rfl⟩ := insertRecorded_eq_some hlast
  have hseparate := ((perm_iff (hloop.invariant (fun _ _ _ h hstep => Copying.step h hstep) hcopying) hlastId).mp
    (faithfulCopy_iff.mp hfaithful)).1
  -- the update is recorded while the loop is still to copy its row
  have hbefore := ((hloop.holds_iff_allSteps (fun _ _ _ h hstep => Copying.step h hstep)
    (fun _ _ _ h hstep => separate_step h hstep) hcopying).mp hseparate).1
  exact hbefore 1 (by decide) (.inr ⟨Nat.le_refl 1, by decide⟩)

end example_runs
end Migration
end Srvlog.Database
