import Srvlog.Database.Schema
import Srvlog.Library.Decimal
import Srvlog.Library.Runs

/-! The partitions of the logs table by month and their maintenance. A partition is
named by its month, `YYYYMM`, and holds the rows whose key is below its bound. -/
namespace Srvlog.Database
open Library

/-- A partition; `rows` are the partition keys of its rows. -/
structure Partition where
  name : Nat
  bound : Nat
  rows : List Nat
  deriving DecidableEq

abbrev Partitions := List Partition

/-- The partition the table is created with. -/
def initialPartitions : Partitions := [⟨100000, 100001, []⟩]

namespace Datetime

def dateFormatY (d : Datetime) : Text := lpad (decimal d.year) 4 '0'
def dateFormatM (d : Datetime) : Text := lpad (decimal d.month) 2 '0'

end Datetime

/-- The variable v_part_year. -/
def partYear (d : Datetime) : Text :=
  if d.dateFormatM = "12".toList then lpad (decimal (digitsValue d.dateFormatY + 1)) 4 '0'
  else d.dateFormatY

/-- The variable v_part_month. -/
def partMonth (d : Datetime) : Text :=
  if d.dateFormatM = "12".toList then "01".toList
  else lpad (decimal (digitsValue d.dateFormatM + 1)) 2 '0'

def partitionBound (d : Datetime) : Nat := digitsValue (partYear d ++ partMonth d)

/-- `date_format(date_sub(d, interval n month), '%Y%m')`; before year zero it is null. -/
def dateSubMonths (d : Datetime) (n : Nat) : Option Nat :=
  let index := 12 * d.year + (d.month - 1)
  if n ≤ index then some (100 * ((index - n) / 12) + ((index - n) % 12 + 1)) else none

/-- `alter table add partition` is refused unless the bounds stay increasing. -/
def addPartition (ps : Partitions) (name bound : Nat) : Option Partitions :=
  if ∀ p ∈ ps, p.name ≠ name ∧ p.bound < bound then some (ps ++ [⟨name, bound, []⟩]) else none

/-- `alter table drop partition` deletes the rows, and is refused for the last partition. -/
def dropPartition (ps : Partitions) (name : Nat) : Option Partitions :=
  let rest := ps.filter fun p => decide (p.name ≠ name)
  if rest = [] then none else some rest

/-- The cursor over the names below the cutoff; a comparison with null selects nothing. -/
def expiredPartitions (ps : Partitions) (d : Datetime) (n : Nat) : List Nat :=
  match dateSubMonths d n with
  | some cutoff => (ps.filter fun p => decide (p.name < cutoff)).map Partition.name
  | none => []

/-- The partition of the date's month is added unless there is one for it or a later month. -/
def addMissingPartition (ps : Partitions) (d : Datetime) : Option Partitions :=
  if ps.countP (fun p => decide (d.dateFormatYm ≤ p.name)) = 0 then
    addPartition ps d.dateFormatYm (partitionBound d)
  else some ps

def checkMonthlyPartitions (ps : Partitions) (d : Datetime) (n : Nat) : Option Partitions :=
  (addMissingPartition ps d).bind fun ps => (expiredPartitions ps d n).foldlM dropPartition ps

/-- A row goes to the first partition whose bound lies above its key. -/
def insertRow : Partitions → Nat → Option Partitions
  | [], _ => none
  | p :: ps, key =>
    if key < p.bound then some ({ p with rows := p.rows ++ [key] } :: ps)
    else (insertRow ps key).map (p :: ·)

inductive PartitionCall where
  | check (d : Datetime) (n : Nat)
  | insert (key : Nat)

def partitionStep (ps : Partitions) : PartitionCall → Option Partitions
  | .check d n => checkMonthlyPartitions ps d n
  | .insert key => insertRow ps key

/-- The month after a month `YYYYMM`; month zero is followed by January. -/
def nextMonth (name : Nat) : Nat := if name % 100 = 12 then name + 89 else name + 1

/-- The invariant of the partitions. Only the first one may be named by month zero. -/
structure Sound (ps : Partitions) : Prop where
  nonempty : ps ≠ []
  names : ps.Pairwise fun a b => a.name < b.name ∧ 1 ≤ b.name % 100
  months : ∀ p ∈ ps, p.name % 100 ≤ 12
  bounds : ∀ p ∈ ps, p.bound = nextMonth p.name
  placed : ∀ p ∈ ps, ∀ key ∈ p.rows, key < p.bound

section months

theorem lt_nextMonth (name : Nat) : name < nextMonth name := by
  unfold nextMonth
  split <;> omega

/-- Nothing lies between a month and the next one. -/
theorem nextMonth_le {a b : Nat} (h : a < b) (hb : 1 ≤ b % 100 ∧ b % 100 ≤ 12) : nextMonth a ≤ b := by
  unfold nextMonth
  split <;> omega

theorem dateFormatYm_month (d : Datetime) : 1 ≤ d.dateFormatYm % 100 ∧ d.dateFormatYm % 100 ≤ 12 := by
  have h := d.month_range
  rw [d.dateFormatYm_eq]
  omega

theorem dateSubMonths_month {d : Datetime} {n cutoff : Nat} (h : dateSubMonths d n = some cutoff) :
    (1 ≤ cutoff % 100 ∧ cutoff % 100 ≤ 12) ∧ cutoff ≤ d.dateFormatYm := by
  have hm := d.month_range
  rw [dateSubMonths] at h
  rw [d.dateFormatYm_eq]
  split at h
  · have hc := Option.some.inj h
    omega
  · cases h

private theorem dateFormatM_value (d : Datetime) : digitsValue d.dateFormatM = d.month := by
  have h := d.month_range
  exact digitsValue_lpad (by decide) (by omega)

private theorem dateFormatM_eq_iff (d : Datetime) : d.dateFormatM = "12".toList ↔ d.month = 12 := by
  constructor
  · intro h
    rw [← dateFormatM_value, h]
    decide
  · intro h
    rw [Datetime.dateFormatM, h]
    decide

/-- Up to November 9999 the new partition is bounded by the month after the date. -/
theorem partitionBound_eq {d : Datetime} (h : d.dateFormatYm < 999912) :
    partitionBound d = nextMonth d.dateFormatYm := by
  have hm := d.month_range
  have hy : digitsValue d.dateFormatY = d.year :=
    digitsValue_lpad (by decide) (Nat.lt_succ_of_le d.in_range)
  rw [d.dateFormatYm_eq] at h ⊢
  rw [partitionBound, digitsValue_append, partYear, partMonth, nextMonth]
  by_cases h12 : d.month = 12
  · have hnext : digitsValue (lpad (decimal (d.year + 1)) 4 '0') = d.year + 1 :=
      digitsValue_lpad (by decide) (by omega)
    have hone : digitsValue "01".toList = 1 := by decide
    rw [if_pos ((dateFormatM_eq_iff d).mpr h12), if_pos ((dateFormatM_eq_iff d).mpr h12), if_pos (by omega),
      hy, hnext, hone, h12]
    change 10 ^ 2 * _ + _ = _
    omega
  · have hne : d.dateFormatM ≠ "12".toList := fun he => h12 ((dateFormatM_eq_iff d).mp he)
    have hnext : digitsValue (lpad (decimal (d.month + 1)) 2 '0') = d.month + 1 :=
      digitsValue_lpad (by decide) (by omega)
    rw [if_neg hne, if_neg hne, if_neg (by omega), dateFormatM_value, length_lpad, hy, hnext]
    omega

end months

section sound

theorem sound_initial : Sound initialPartitions where
  nonempty := by simp [initialPartitions]
  names := by simp [initialPartitions]
  months := by simp [initialPartitions]
  bounds := by simp [initialPartitions, nextMonth]
  placed := by simp [initialPartitions]

theorem Sound.bounds_increasing {ps : Partitions} (h : Sound ps) :
    ps.Pairwise fun a b => a.bound < b.bound := by
  apply List.Pairwise.imp_of_mem _ h.names
  rintro a b ha hb ⟨hlt, hpos⟩
  rw [h.bounds a ha, h.bounds b hb]
  have hle := nextMonth_le hlt ⟨hpos, h.months b hb⟩
  exact Nat.lt_of_le_of_lt hle (lt_nextMonth b.name)

/-- The partitions after the first part of the procedure. -/
def grown (ps : Partitions) (d : Datetime) : Partitions :=
  if ∃ p ∈ ps, d.dateFormatYm ≤ p.name then ps
  else ps ++ [⟨d.dateFormatYm, nextMonth d.dateFormatYm, []⟩]

theorem Sound.grown {ps : Partitions} (h : Sound ps) (d : Datetime) : Sound (grown ps d) := by
  have hd := dateFormatYm_month d
  unfold Database.grown
  split
  · exact h
  · next hnone =>
    have hlt : ∀ p ∈ ps, p.name < d.dateFormatYm := fun p hp => not_le.mp fun hle => hnone ⟨p, hp, hle⟩
    refine ⟨by simp, ?_, ?_, ?_, ?_⟩
    · rw [List.pairwise_append]
      refine ⟨h.names, List.pairwise_singleton _ _, fun p hp q hq => ?_⟩
      obtain rfl := List.mem_singleton.mp hq
      exact ⟨hlt p hp, hd.1⟩
    all_goals
      intro p hp
      rcases List.mem_append.mp hp with hp | hp
    · exact h.months p hp
    · obtain rfl := List.mem_singleton.mp hp
      exact hd.2
    · exact h.bounds p hp
    · obtain rfl := List.mem_singleton.mp hp
      rfl
    · exact h.placed p hp
    · obtain rfl := List.mem_singleton.mp hp
      simp

theorem exists_grown (ps : Partitions) (d : Datetime) : ∃ p ∈ grown ps d, d.dateFormatYm ≤ p.name := by
  unfold grown
  split
  · next hex => exact hex
  · exact ⟨_, List.mem_append_right _ (List.mem_singleton_self _), le_refl _⟩

/-- The partition that is added is legal: all bounds so far are at most its name. -/
theorem addPartition_eq {ps : Partitions} (h : Sound ps) {d : Datetime}
    (hnone : ∀ p ∈ ps, p.name < d.dateFormatYm) :
    addPartition ps d.dateFormatYm (nextMonth d.dateFormatYm) =
      some (ps ++ [⟨d.dateFormatYm, nextMonth d.dateFormatYm, []⟩]) := by
  rw [addPartition, if_pos]
  intro p hp
  have hle := nextMonth_le (hnone p hp) (dateFormatYm_month d)
  rw [h.bounds p hp]
  exact ⟨(hnone p hp).ne, Nat.lt_of_le_of_lt hle (lt_nextMonth _)⟩

/-- Dropping names one by one removes just these, as long as one name stays. -/
theorem foldlM_dropPartition {ps : Partitions} {names : List Nat} (h : ∃ p ∈ ps, p.name ∉ names) :
    names.foldlM dropPartition ps = some (ps.filter fun p => decide (p.name ∉ names)) := by
  induction names generalizing ps with
  | nil => simp
  | cons name names ih =>
    obtain ⟨p, hp, hkept⟩ := h
    rw [List.mem_cons, not_or] at hkept
    have hmem : p ∈ ps.filter fun p => decide (p.name ≠ name) :=
      List.mem_filter.mpr ⟨hp, decide_eq_true hkept.1⟩
    have hdrop : dropPartition ps name = some (ps.filter fun p => decide (p.name ≠ name)) :=
      if_neg (List.ne_nil_of_mem hmem)
    rw [List.foldlM_cons, hdrop]
    change List.foldlM dropPartition _ names = _
    rw [ih ⟨p, hmem, hkept.2⟩, List.filter_filter]
    congr 1
    apply List.filter_congr
    intro q _
    simp [Bool.and_comm]

/-- A month that the retention keeps. -/
def Retained (d : Datetime) (n name : Nat) : Prop := ∀ cutoff, dateSubMonths d n = some cutoff → cutoff ≤ name

instance (d : Datetime) (n name : Nat) : Decidable (Retained d n name) :=
  decidable_of_iff (∀ cutoff ∈ dateSubMonths d n, cutoff ≤ name) (by simp [Retained])

theorem not_mem_expiredPartitions {ps : Partitions} {d : Datetime} {n : Nat} {p : Partition} (hp : p ∈ ps) :
    p.name ∉ expiredPartitions ps d n ↔ Retained d n p.name := by
  unfold expiredPartitions Retained
  cases dateSubMonths d n with
  | none => simp
  | some cutoff =>
    simp only [Option.some.injEq, forall_eq', List.mem_map, List.mem_filter, decide_eq_true_eq, not_exists,
      not_and, and_imp]
    constructor
    · intro h
      exact not_lt.mp fun hlt => h p hp hlt rfl
    · intro h q _ hlt he
      omega

/-- The partition for the date itself is never expired. -/
theorem exists_retained (ps : Partitions) (d : Datetime) (n : Nat) :
    ∃ p ∈ grown ps d, Retained d n p.name ∧ d.dateFormatYm ≤ p.name := by
  obtain ⟨p, hp, hle⟩ := exists_grown ps d
  exact ⟨p, hp, fun cutoff hc => (dateSubMonths_month hc).2.trans hle, hle⟩

/-- What the procedure does to sound partitions, for any date before December 9999. -/
theorem checkMonthlyPartitions_eq {ps : Partitions} (h : Sound ps) {d : Datetime}
    (hd : d.dateFormatYm < 999912) (n : Nat) :
    checkMonthlyPartitions ps d n =
      some ((grown ps d).filter fun p => decide (Retained d n p.name)) := by
  have hgrown : addMissingPartition ps d = some (grown ps d) := by
    unfold addMissingPartition grown
    by_cases hex : ∃ p ∈ ps, d.dateFormatYm ≤ p.name
    · rw [if_pos hex, if_neg]
      simpa [List.countP_eq_zero] using hex
    · have hnone : ∀ p ∈ ps, p.name < d.dateFormatYm := fun p hp => not_le.mp fun hle => hex ⟨p, hp, hle⟩
      rw [if_neg hex, if_pos, partitionBound_eq hd, addPartition_eq h hnone]
      simpa [List.countP_eq_zero] using hnone
  rw [checkMonthlyPartitions, hgrown, Option.bind_some]
  obtain ⟨p, hp, hkept⟩ := exists_retained ps d n
  rw [foldlM_dropPartition ⟨p, hp, (not_mem_expiredPartitions hp).mpr hkept.1⟩]
  congr 1
  apply List.filter_congr
  intro q hq
  rw [decide_eq_decide, not_mem_expiredPartitions hq]

theorem Sound.check {ps : Partitions} (h : Sound ps) (d : Datetime) (n : Nat) :
    Sound ((Database.grown ps d).filter fun p => decide (Retained d n p.name)) := by
  have hg := h.grown d
  obtain ⟨p, hp, hkept⟩ := exists_retained ps d n
  refine ⟨List.ne_nil_of_mem (List.mem_filter.mpr ⟨hp, decide_eq_true hkept.1⟩),
    hg.names.sublist List.filter_sublist, ?_, ?_, ?_⟩
  all_goals
    intro q hq
    have hmem := (List.mem_filter.mp hq).1
  · exact hg.months q hmem
  · exact hg.bounds q hmem
  · exact hg.placed q hmem

/-- An inserted row changes no name and no bound. -/
theorem insertRow_cases {ps qs : Partitions} {key : Nat} (h : insertRow ps key = some qs) :
    ∃ before p after, ps = before ++ p :: after ∧ (∀ q ∈ before, q.bound ≤ key) ∧ key < p.bound ∧
      qs = before ++ { p with rows := p.rows ++ [key] } :: after := by
  induction ps generalizing qs with
  | nil => cases h
  | cons p ps ih =>
    rw [insertRow] at h
    split at h
    · next hlt =>
      exact ⟨[], p, ps, rfl, by simp, hlt, (Option.some.inj h).symm⟩
    · next hge =>
      obtain ⟨rs, hrs, rfl⟩ := Option.map_eq_some_iff.mp h
      obtain ⟨before, q, after, rfl, hbefore, hlt, rfl⟩ := ih hrs
      refine ⟨p :: before, q, after, rfl, fun r hr => ?_, hlt, rfl⟩
      rcases List.mem_cons.mp hr with rfl | hr
      · exact not_lt.mp hge
      · exact hbefore r hr

theorem insertRow_isSome {ps : Partitions} {key : Nat} (h : ∃ p ∈ ps, key < p.bound) :
    (insertRow ps key).isSome := by
  induction ps with
  | nil =>
    obtain ⟨p, hp, _⟩ := h
    cases hp
  | cons q ps ih =>
    rw [insertRow]
    split
    · rfl
    · next hge =>
      obtain ⟨p, hp, hlt⟩ := h
      rw [Option.isSome_map]
      rcases List.mem_cons.mp hp with rfl | hp
      · exact absurd hlt hge
      · exact ih ⟨p, hp, hlt⟩

theorem Sound.insertRow {ps qs : Partitions} {key : Nat} (h : Sound ps) (hi : insertRow ps key = some qs) :
    Sound qs := by
  obtain ⟨before, p, after, rfl, -, hlt, rfl⟩ := insertRow_cases hi
  refine ⟨by simp, ?_, ?_, ?_, ?_⟩
  · have hn := h.names
    rw [List.pairwise_append, List.pairwise_cons] at hn ⊢
    refine ⟨hn.1, hn.2.1, fun a ha b hb => ?_⟩
    rcases List.mem_cons.mp hb with rfl | hb
    · exact hn.2.2 a ha p List.mem_cons_self
    · exact hn.2.2 a ha b (List.mem_cons_of_mem _ hb)
  all_goals
    intro q hq
    have hold : q ∈ before ++ p :: after ∨ q = { p with rows := p.rows ++ [key] } := by
      simp only [List.mem_append, List.mem_cons] at hq ⊢
      tauto
    rcases hold with hold | rfl
  · exact h.months q hold
  · exact h.months p (by simp)
  · exact h.bounds q hold
  · exact h.bounds p (by simp)
  · exact h.placed q hold
  · intro k hk
    rcases List.mem_append.mp hk with hk | hk
    · exact h.placed p (by simp) k hk
    · obtain rfl := List.mem_singleton.mp hk
      exact hlt

theorem Sound.step {ps qs : Partitions} {a : PartitionCall} (h : Sound ps)
    (ha : ∀ d n, a = .check d n → d.dateFormatYm < 999912) (hs : partitionStep ps a = some qs) : Sound qs := by
  cases a with
  | check d n =>
    rw [partitionStep, checkMonthlyPartitions_eq h (ha d n rfl) n] at hs
    obtain rfl := Option.some.inj hs
    exact h.check d n
  | insert key => exact h.insertRow hs

end sound

section retention

def allRows (ps : Partitions) : List Nat := ps.flatMap Partition.rows

/-- A dropped partition holds rows of months before the retained ones only. -/
theorem count_allRows_filter {ps : Partitions} (h : Sound ps) {d : Datetime} {n key : Nat}
    (hkey : Retained d n key) :
    (allRows (ps.filter fun p => decide (Retained d n p.name))).count key = (allRows ps).count key := by
  have hpart : ∀ p ∈ ps, ¬ Retained d n p.name → p.rows.count key = 0 := by
    intro p hp hnot
    rw [List.count_eq_zero]
    intro hmem
    have hlt := h.placed p hp key hmem
    simp only [Retained, not_forall, not_le] at hnot
    obtain ⟨cutoff, hc, hname⟩ := hnot
    have hle := nextMonth_le hname (dateSubMonths_month hc).1
    have hcut := hkey cutoff hc
    rw [h.bounds p hp] at hlt
    omega
  clear h
  induction ps with
  | nil => rfl
  | cons p ps ih =>
    have hrest := ih fun q hq => hpart q (List.mem_cons_of_mem _ hq)
    by_cases hret : Retained d n p.name
    · rw [List.filter_cons, if_pos (decide_eq_true hret)]
      simp only [allRows, List.flatMap_cons, List.count_append] at hrest ⊢
      omega
    · have hzero := hpart p List.mem_cons_self hret
      rw [List.filter_cons, if_neg (by simpa using hret)]
      simp only [allRows, List.flatMap_cons, List.count_append] at hrest ⊢
      omega

theorem allRows_grown (ps : Partitions) (d : Datetime) : allRows (grown ps d) = allRows ps := by
  unfold grown
  split
  · rfl
  · simp [allRows]

/-- After a call some partition reaches beyond the month of its date. -/
theorem exists_partition_check {ps : Partitions} (h : Sound ps) (d : Datetime) (n : Nat) :
    ∃ p ∈ (grown ps d).filter (fun p => decide (Retained d n p.name)), d.dateFormatYm < p.bound := by
  obtain ⟨p, hp, hkept, hle⟩ := exists_retained ps d n
  refine ⟨p, List.mem_filter.mpr ⟨hp, decide_eq_true hkept⟩, ?_⟩
  rw [(h.grown d).bounds p hp]
  exact Nat.lt_of_le_of_lt hle (lt_nextMonth p.name)

theorem bounds_of_inserts {keys : List Nat} {ps qs : Partitions}
    (h : Run partitionStep ps (keys.map .insert) qs) : ∀ p ∈ ps, ∃ q ∈ qs, q.bound = p.bound := by
  induction keys generalizing ps with
  | nil =>
    cases h
    exact fun p hp => ⟨p, hp, rfl⟩
  | cons key keys ih =>
    cases h with
    | cons hs hrest =>
      obtain ⟨before, r, after, rfl, -, -, rfl⟩ := insertRow_cases hs
      intro p hp
      rcases List.mem_append.mp hp with hp | hp
      · exact ih hrest p (List.mem_append_left _ hp)
      · rcases List.mem_cons.mp hp with rfl | hp
        · exact ih hrest { p with rows := p.rows ++ [key] } (List.mem_append_right _ List.mem_cons_self)
        · exact ih hrest p (List.mem_append_right _ (List.mem_cons_of_mem _ hp))

end retention

/-- One firing of ev_check_log_partitions: it calls the procedure for the day after. -/
structure Firing where
  now : Datetime
  date : Datetime
  next_day : date.seconds = now.seconds + 86400

def Firing.call (f : Firing) : PartitionCall := .check f.date 999

/-- Calls for dates before December 9999 keep the partitions sound, whatever rows come in
between: each call succeeds, leaves a partition for every key up to its date's month and
none below the months it retains, and deletes no row of a retained month. Up to a day
after the event has fired there is a partition for every log dated up to then. -/
theorem monthly_partitions_maintained {ps qs : Partitions} {as : List PartitionCall} (hsound : Sound ps)
    (hrun : Run partitionStep ps as qs)
    (hdates : ∀ d n, .check d n ∈ as → d.dateFormatYm < 999912) :
    Sound qs ∧ (qs.Pairwise fun a b => a.bound < b.bound) ∧
    (∀ d n, d.dateFormatYm < 999912 → ∃ rs, checkMonthlyPartitions qs d n = some rs ∧ Sound rs ∧
      (∀ key ≤ d.dateFormatYm, (insertRow rs key).isSome) ∧
      (∀ key, Retained d n key → (allRows rs).count key = (allRows qs).count key) ∧
      ∀ p ∈ rs, Retained d n p.name) ∧
    (∀ before (f : Firing) (keys : List Nat) (now log : Datetime), as = before ++ f.call :: keys.map .insert →
      now.seconds ≤ f.now.seconds + 86400 → log.seconds ≤ now.seconds →
      (insertRow qs log.dateFormatYm).isSome) := by
  have hpreserved : ∀ s a t, Sound s → (∀ d n, a = .check d n → d.dateFormatYm < 999912) →
      partitionStep s a = some t → Sound t := fun _ _ _ hs ha ht => hs.step ha ht
  have hqs : Sound qs := by
    refine hrun.guarded_invariant (allSteps_of_forall_mem (fun a ha d n he => ?_) ps) hpreserved hsound
    exact hdates d n (he ▸ ha)
  refine ⟨hqs, hqs.bounds_increasing, fun d n hd => ?_, ?_⟩
  · refine ⟨_, checkMonthlyPartitions_eq hqs hd n, hqs.check d n, fun key hkey => ?_, fun key hkey => ?_,
      fun p hp => of_decide_eq_true (List.mem_filter.mp hp).2⟩
    · obtain ⟨p, hp, hlt⟩ := exists_partition_check hqs d n
      exact insertRow_isSome ⟨p, hp, Nat.lt_of_le_of_lt hkey hlt⟩
    · rw [count_allRows_filter (hqs.grown d) hkey, allRows_grown]
  · rintro before f keys now log rfl hnow hlog
    obtain ⟨s, hs, hrest⟩ := hrun.split
    have hsafe : f.date.dateFormatYm < 999912 := hdates f.date 999 (by simp [Firing.call])
    have hsSound : Sound s := by
      refine hs.guarded_invariant (allSteps_of_forall_mem (fun a ha d n he => ?_) ps) hpreserved hsound
      exact hdates d n (he ▸ List.mem_append_left _ ha)
    cases hrest with
    | cons hcall hinserts =>
      rw [Firing.call, partitionStep, checkMonthlyPartitions_eq hsSound hsafe] at hcall
      obtain rfl := Option.some.inj hcall
      obtain ⟨p, hp, hlt⟩ := exists_partition_check hsSound f.date 999
      obtain ⟨q, hq, hbound⟩ := bounds_of_inserts hinserts p hp
      refine insertRow_isSome ⟨q, hq, ?_⟩
      have hday : log.seconds / 86400 ≤ f.date.seconds / 86400 := by
        have := f.next_day
        exact Nat.div_le_div_right (by omega)
      rw [hbound]
      exact Nat.lt_of_le_of_lt (yearMonthOfDay_mono hday) hlt

/-- The event fires on the last days of the years 2012 and 2013. -/
def newYear2013 : Firing :=
  ⟨⟨86400 * (daysBeforeYear 2013 - 1), by decide⟩, ⟨86400 * daysBeforeYear 2013, by decide⟩, by decide⟩

def newYear2014 : Firing :=
  ⟨⟨86400 * (daysBeforeYear 2014 - 1), by decide⟩, ⟨86400 * daysBeforeYear 2014, by decide⟩, by decide⟩

/-- Calls over two ends of a year with rows between them; that for the first of March keeps two
months, and the one after it goes back to January. -/
def callsBeforeNewYear2014 : List PartitionCall :=
  [.check ⟨86400 * (daysBeforeYear 2012 + daysBeforeMonth 2012 12), by decide⟩ 999, .insert 201211, .insert 201212,
    newYear2013.call, .insert 201212, .insert 201301,
    .check ⟨86400 * (daysBeforeYear 2013 + daysBeforeMonth 2013 3), by decide⟩ 2, .insert 201303,
    .check newYear2013.date 1]

/-- The rows of 2012 are deleted with their partition, and those that come after the event of
the last of December have their partitions. -/
theorem year_ends_maintained : ∃ qs,
    Run partitionStep initialPartitions (callsBeforeNewYear2014 ++ newYear2014.call :: [201312, 201401].map .insert) qs ∧
      qs = [⟨201301, 201302, [201301]⟩, ⟨201303, 201304, [201303]⟩, ⟨201401, 201402, [201312, 201401]⟩] ∧
      Sound qs ∧ (insertRow qs newYear2014.date.dateFormatYm).isSome := by
  have hrun : Run partitionStep initialPartitions
      (callsBeforeNewYear2014 ++ newYear2014.call :: [201312, 201401].map .insert)
      [⟨201301, 201302, [201301]⟩, ⟨201303, 201304, [201303]⟩, ⟨201401, 201402, [201312, 201401]⟩] :=
    exec_eq_some_iff.mp (by decide)
  have hdates : ∀ d n, .check d n ∈ callsBeforeNewYear2014 ++ newYear2014.call :: [201312, 201401].map .insert →
      d.dateFormatYm < 999912 := by
    intro d n hmem
    simp only [callsBeforeNewYear2014, Firing.call, List.map_cons, List.map_nil, List.cons_append, List.nil_append,
      List.mem_cons, List.not_mem_nil, PartitionCall.check.injEq, reduceCtorEq, false_or, or_false] at hmem
    rcases hmem with ⟨rfl, -⟩ | ⟨rfl, -⟩ | ⟨rfl, -⟩ | ⟨rfl, -⟩ | ⟨rfl, -⟩ <;> decide
  obtain ⟨hsound, -, -, hfired⟩ := monthly_partitions_maintained sound_initial hrun hdates
  exact ⟨_, hrun, rfl, hsound, hfired _ newYear2014 _ newYear2014.date newYear2014.date rfl (by decide) (Nat.le_refl _)⟩

/-- The first of December 9999. -/
def december9999 : Datetime := ⟨86400 * (daysBeforeYear 9999 + daysBeforeMonth 9999 12), by decide⟩

/-- The following year does not fit its four characters, so the bound of the partition for
December 9999 becomes 100001; `add partition` is refused and the month gets no partition. -/
theorem december_9999_refused : december9999.dateFormatYm = 999912 ∧ partitionBound december9999 = 100001 ∧
    addPartition initialPartitions december9999.dateFormatYm (partitionBound december9999) = none ∧
    checkMonthlyPartitions initialPartitions december9999 0 = none ∧
    insertRow initialPartitions december9999.dateFormatYm = none := by decide

end Srvlog.Database
