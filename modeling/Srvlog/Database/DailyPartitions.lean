import Srvlog.Database.MonthlyPartitions
import Srvlog.Library.LocalCalendar

/-! The partitions by day of unprocessed_snort_logs and their maintenance. A partition is
named by its day, `YYYYMMDD`; a date before the last ones splits the next partition. -/
namespace Srvlog.Database
open Library

/-- The partition the table is created with. -/
def initialDailyPartitions : Partitions := [⟨10000100, 10000101, []⟩]

/-- `date_format(d, '%Y%m%d')`, read as a number. -/
def Datetime.dateFormatYmd (d : Datetime) : Nat := yearMonthDay (d.seconds / 86400)

/-- The variable v_part_name; the day after the last one is null. -/
def partName (d : Datetime) : Option Nat :=
  let tomorrow := d.seconds / 86400 + 1
  if yearOfDay tomorrow ≤ 9999 then some (yearMonthDay tomorrow) else none

/-- `date_format(date_sub(d, interval n day), '%Y%m%d')`. Before year one it is null or the
zero date, and no name is below it. -/
def dateSubDays (d : Datetime) (n : Nat) : Option Nat :=
  let today := d.seconds / 86400
  if daysBeforeYear 1 + n ≤ today then some (yearMonthDay (today - n)) else none

/-- `min` over texts; over no row it is null. -/
def minText : List Text → Option Text
  | [] => none
  | t :: ts => some (ts.foldl (fun least t => if t < least then t else least) t)

/-- The variables v_future_partition and v_future_partition_desc: the least name and the
least bound, both as texts, of the partitions of later days. -/
def futurePartition (ps : Partitions) (d : Datetime) : Option (Text × Text) :=
  let later := ps.filter fun p => decide (d.dateFormatYmd < p.name)
  match minText (later.map fun p => lpad (decimal p.name) 8 '0'), minText (later.map fun p => decimal p.bound) with
  | some name, some description => some (name, description)
  | _, _ => none

/-- The new partitions end where the old one did; the last one may be extended. -/
def SameRange (p : Partition) (into after : Partitions) : Prop :=
  ∃ q ∈ into.getLast?, q.bound = p.bound ∨ after = [] ∧ p.bound < q.bound

instance (p : Partition) (into after : Partitions) : Decidable (SameRange p into after) :=
  inferInstanceAs (Decidable (∃ q ∈ into.getLast?, _))

/-- Each row of the old partition goes to the new one that its key belongs to. -/
def replacePartition : Partitions → Nat → Partitions → Option Partitions
  | [], _, _ => none
  | p :: ps, old, into =>
    if p.name = old then
      if SameRange p into ps then (p.rows.foldlM insertRow into).map (· ++ ps) else none
    else (replacePartition ps old into).map (p :: ·)

/-- `alter table reorganize partition` is refused unless the names differ, the bounds are
increasing and the range stays the same. -/
def reorganizePartition (ps : Partitions) (old : Nat) (into : Partitions) : Option Partitions :=
  (replacePartition ps old into).filter fun qs =>
    decide ((qs.map Partition.name).Nodup ∧ qs.Pairwise fun a b => a.bound < b.bound)

/-- The partition of the date's day is added, or split off the first later one. -/
def createDailyPartition (ps : Partitions) (d : Datetime) : Option Partitions :=
  if ps.countP (fun p => decide (p.name = d.dateFormatYmd)) = 0 then
    match futurePartition ps d with
    | none => (partName d).bind fun bound => addPartition ps d.dateFormatYmd bound
    | some (name, description) => (partName d).bind fun bound =>
      reorganizePartition ps (digitsValue name)
        [⟨d.dateFormatYmd, bound, []⟩, ⟨digitsValue name, digitsValue description, []⟩]
  else some ps

/-- The cursor's rows; a comparison with null selects nothing. -/
def expiredDailyPartitions (ps : Partitions) (d : Datetime) (n : Nat) : List Nat :=
  match dateSubDays d n with
  | some cutoff => (ps.filter fun p => decide (p.name < cutoff)).map Partition.name
  | none => []

def checkDailyPartitions (ps : Partitions) (d : Datetime) (n : Nat) : Option Partitions :=
  (createDailyPartition ps d).bind fun ps => (expiredDailyPartitions ps d n).foldlM dropPartition ps

def dailyStep (ps : Partitions) : PartitionCall → Option Partitions
  | .check d n => checkDailyPartitions ps d n
  | .insert key => insertRow ps key

example : (exec dailyStep initialDailyPartitions
    [.check ⟨86400 * daysBeforeYear 2014, by decide⟩ 2, .insert 20131229, .insert 20140101,
      .check ⟨86400 * (daysBeforeYear 2014 - 3), by decide⟩ 9]).map (·.map fun p => (p.name, p.bound, p.rows)) =
    some [(20131229, 20131230, [20131229]), (20140101, 20140102, [20140101])] := by decide

/-- The bound of the first partition is given with the table, any other is the day after the name. -/
def BoundOf (name bound : Nat) : Prop :=
  name = 10000100 ∧ bound = 10000101 ∨
  ∃ day, 1000 ≤ yearOfDay day ∧ yearOfDay day ≤ 9998 ∧ name = yearMonthDay day ∧ bound = yearMonthDay (day + 1)

/-- The partition a key belongs to is the one with the least bound above it. -/
def PartitionOf (ps : Partitions) (key : Nat) (p : Partition) : Prop :=
  p ∈ ps ∧ key < p.bound ∧ ∀ q ∈ ps, key < q.bound → p.bound ≤ q.bound

/-- The invariant of the partitions by day. -/
structure SoundDaily (ps : Partitions) : Prop where
  names : ps.Pairwise fun a b => a.name < b.name
  bounds : ∀ p ∈ ps, BoundOf p.name p.bound
  below : ∀ p ∈ ps, ∀ key ∈ p.rows, key < p.bound
  above : ∀ p ∈ ps, ∀ q ∈ ps, p.name < q.name → ∀ key ∈ q.rows, p.bound ≤ key

section days

theorem BoundOf.range {name bound : Nat} (h : BoundOf name bound) :
    10000100 ≤ name ∧ name < bound ∧ bound < 10 ^ 8 := by
  rcases h with ⟨rfl, rfl⟩ | ⟨day, hlow, hhigh, rfl, rfl⟩
  · decide
  · have hday := yearMonthDay_range day
    have htomorrow := yearMonthDay_range (day + 1)
    have hlt := yearMonthDay_strictMono (Nat.lt_succ_self day)
    have hyear : yearOfDay (day + 1) ≤ yearOfDay day + 1 := by
      have hend := (yearOfDay_spec day).2
      have hstart := (yearOfDay_spec (day + 1)).1
      have hyears : daysBeforeYear (yearOfDay day + 1) < daysBeforeYear (yearOfDay day + 2) := by
        unfold daysBeforeYear
        omega
      by_contra hlater
      have := daysBeforeYear_mono (show yearOfDay day + 2 ≤ yearOfDay (day + 1) by omega)
      omega
    refine ⟨by omega, hlt, ?_⟩
    omega

/-- Nothing lies between a day and the next one. -/
theorem BoundOf.le_day {name bound day : Nat} (h : BoundOf name bound) (hlt : name < yearMonthDay day) :
    bound ≤ yearMonthDay day := by
  rcases h with ⟨rfl, rfl⟩ | ⟨before, -, -, rfl, rfl⟩
  · exact hlt
  · exact yearMonthDay_strictMono.monotone (yearMonthDay_strictMono.lt_iff_lt.mp hlt)

theorem BoundOf.le_name {a b c d : Nat} (h : BoundOf a b) (h' : BoundOf c d) (hlt : a < c) : b ≤ c := by
  rcases h' with ⟨rfl, rfl⟩ | ⟨day, -, -, rfl, rfl⟩
  · have := h.range
    omega
  · exact h.le_day hlt

theorem BoundOf.unique {name b b' : Nat} (h : BoundOf name b) (h' : BoundOf name b') : b = b' := by
  rcases h with ⟨rfl, rfl⟩ | ⟨day, hlow, -, rfl, rfl⟩
  · rcases h' with ⟨-, rfl⟩ | ⟨day', hlow', -, hname, -⟩
    · rfl
    · have := yearMonthDay_range day'
      omega
  · rcases h' with ⟨hname, -⟩ | ⟨day', -, -, hname, rfl⟩
    · have := yearMonthDay_range day
      omega
    · rw [yearMonthDay_injective hname]

theorem boundOf_date {d : Datetime} (hlow : 1000 ≤ d.year) (hhigh : d.year ≤ 9998) :
    ∃ bound, partName d = some bound ∧ BoundOf d.dateFormatYmd bound := by
  have hbound : BoundOf d.dateFormatYmd (yearMonthDay (d.seconds / 86400 + 1)) :=
    Or.inr ⟨_, hlow, hhigh, rfl, rfl⟩
  refine ⟨_, if_pos ?_, hbound⟩
  have hrange := yearMonthDay_range (d.seconds / 86400 + 1)
  have hsize := hbound.range
  omega

theorem dateSubDays_le {d : Datetime} {n cutoff : Nat} (h : dateSubDays d n = some cutoff) :
    (∃ day, cutoff = yearMonthDay day) ∧ cutoff ≤ d.dateFormatYmd := by
  simp only [dateSubDays, Option.ite_none_right_eq_some] at h
  obtain ⟨-, h⟩ := h
  obtain rfl := Option.some.inj h
  exact ⟨⟨_, rfl⟩, yearMonthDay_strictMono.monotone (Nat.sub_le _ _)⟩

end days

section least

theorem minText_cons {t : Text} {ts : List Text} (h : ∀ u ∈ ts, ¬ u < t) : minText (t :: ts) = some t := by
  rw [minText]
  induction ts with
  | nil => rfl
  | cons u ts ih =>
    rw [List.foldl_cons, if_neg (h u List.mem_cons_self)]
    exact ih fun v hv => h v (List.mem_cons_of_mem _ hv)

theorem length_decimal_bound {name bound : Nat} (h : BoundOf name bound) : (decimal bound).length = 8 := by
  have hrange := h.range
  have hle : (decimal bound).length ≤ 8 := (decimal_length_le_iff (by decide)).mpr hrange.2.2
  have hgt : ¬ (decimal bound).length ≤ 7 := fun hle => by
    have := (decimal_length_le_iff (by decide)).mp hle
    omega
  omega

/-- The first of the later partitions has both the least name and the least bound. -/
theorem futurePartition_eq {before after : Partitions} {p : Partition} {d : Datetime}
    (h : SoundDaily (before ++ p :: after)) (hbefore : ∀ q ∈ before, q.name < d.dateFormatYmd)
    (hp : d.dateFormatYmd < p.name) :
    futurePartition (before ++ p :: after) d = some (lpad (decimal p.name) 8 '0', decimal p.bound) := by
  have hmem : p ∈ before ++ p :: after := by simp
  have hnames : ∀ q ∈ after, p.name < q.name := by
    have hpair := (List.pairwise_append.mp h.names).2.1
    exact (List.pairwise_cons.mp hpair).1
  have hlater : (before ++ p :: after).filter (fun q => decide (d.dateFormatYmd < q.name)) = p :: after := by
    rw [List.filter_append, List.filter_eq_nil_iff.mpr fun q hq => by simpa using (hbefore q hq).le, List.nil_append]
    apply List.filter_eq_self.mpr
    intro q hq
    rcases List.mem_cons.mp hq with rfl | hq
    · exact decide_eq_true hp
    · exact decide_eq_true (hp.trans (hnames q hq))
  have hleast : minText ((p :: after).map fun q => lpad (decimal q.name) 8 '0') = some (lpad (decimal p.name) 8 '0') := by
    apply minText_cons
    intro u hu
    obtain ⟨q, hq, rfl⟩ := List.mem_map.mp hu
    have hqsize := (h.bounds q (List.mem_append_right _ (List.mem_cons_of_mem _ hq))).range
    have hpsize := (h.bounds p hmem).range
    rw [lt_iff_digitsValue_lt (by rw [length_lpad, length_lpad]) (fun _ => isDigit_of_mem_lpad)
      (fun _ => isDigit_of_mem_lpad), digitsValue_lpad (by decide) (by omega), digitsValue_lpad (by decide) (by omega)]
    exact not_lt.mpr (hnames q hq).le
  have hleast' : minText ((p :: after).map fun q => decimal q.bound) = some (decimal p.bound) := by
    apply minText_cons
    intro u hu
    obtain ⟨q, hq, rfl⟩ := List.mem_map.mp hu
    have hqbound := h.bounds q (List.mem_append_right _ (List.mem_cons_of_mem _ hq))
    have hpbound := h.bounds p hmem
    have hle := hpbound.le_name hqbound (hnames q hq)
    rw [lt_iff_digitsValue_lt (by rw [length_decimal_bound hqbound, length_decimal_bound hpbound])
      (fun _ => isDigit_of_mem_decimal) (fun _ => isDigit_of_mem_decimal), digitsValue_decimal, digitsValue_decimal]
    exact not_lt.mpr (hle.trans hqbound.range.2.1.le)
  simp only [futurePartition, hlater, hleast, hleast']

theorem futurePartition_none {ps : Partitions} {d : Datetime} (h : ∀ q ∈ ps, q.name < d.dateFormatYmd) :
    futurePartition ps d = none := by
  have hlater : ps.filter (fun q => decide (d.dateFormatYmd < q.name)) = [] :=
    List.filter_eq_nil_iff.mpr fun q hq => by simpa using (h q hq).le
  simp only [futurePartition, hlater, List.map_nil, minText]

end least

section create

theorem SoundDaily.bounds_increasing {ps : Partitions} (h : SoundDaily ps) :
    ps.Pairwise fun a b => a.bound < b.bound := by
  apply List.Pairwise.imp_of_mem _ h.names
  intro a b ha hb hlt
  exact ((h.bounds a ha).le_name (h.bounds b hb) hlt).trans_lt (h.bounds b hb).range.2.1

theorem SoundDaily.partitionOf {ps : Partitions} (h : SoundDaily ps) {p : Partition} (hp : p ∈ ps) {key : Nat}
    (hkey : key < p.bound) (habove : ∀ q ∈ ps, q.name < p.name → q.bound ≤ key) : PartitionOf ps key p := by
  refine ⟨hp, hkey, fun q hq hlt => ?_⟩
  rcases Nat.lt_trichotomy q.name p.name with hless | heq | hmore
  · exact absurd hlt (not_lt.mpr (habove q hq hless))
  · have hbound := h.bounds q hq
    rw [heq] at hbound
    exact ((h.bounds p hp).unique hbound).le
  · exact ((h.bounds p hp).le_name (h.bounds q hq) hmore).trans (h.bounds q hq).range.2.1.le

theorem SoundDaily.rows_partitionOf {ps : Partitions} (h : SoundDaily ps) {p : Partition} (hp : p ∈ ps) {key : Nat}
    (hkey : key ∈ p.rows) : PartitionOf ps key p :=
  h.partitionOf hp (h.below p hp key hkey) fun q hq hlt => h.above q hq p hp hlt key hkey

theorem soundDaily_initial : SoundDaily initialDailyPartitions := by
  constructor
  · exact List.pairwise_singleton _ _
  all_goals
    intro p hp
    obtain rfl := List.mem_singleton.mp hp
  · exact Or.inl ⟨rfl, rfl⟩
  · simp
  · intro q hq hlt
    obtain rfl := List.mem_singleton.mp hq
    exact absurd hlt (lt_irrefl _)

theorem SoundDaily.sublist {ps qs : Partitions} (h : SoundDaily ps) (hsub : qs.Sublist ps) : SoundDaily qs where
  names := h.names.sublist hsub
  bounds p hp := h.bounds p (hsub.subset hp)
  below p hp := h.below p (hsub.subset hp)
  above p hp q hq := h.above p (hsub.subset hp) q (hsub.subset hq)

/-- A partition put between those of earlier and those of later days. -/
theorem SoundDaily.insertPartition {before after : Partitions} {p : Partition} (h : SoundDaily (before ++ after))
    (hp : BoundOf p.name p.bound) (hbefore : ∀ q ∈ before, q.name < p.name) (hafter : ∀ q ∈ after, p.name < q.name)
    (hrows : ∀ key ∈ p.rows, key < p.bound ∧ ∀ q ∈ before, q.bound ≤ key)
    (hlater : ∀ q ∈ after, ∀ key ∈ q.rows, p.bound ≤ key) : SoundDaily (before ++ p :: after) := by
  have hcases : ∀ q ∈ before ++ p :: after, q ∈ before ++ after ∨ q = p := by
    intro q hq
    simp only [List.mem_append, List.mem_cons] at hq ⊢
    tauto
  constructor
  · have hnames := List.pairwise_append.mp h.names
    rw [List.pairwise_append, List.pairwise_cons]
    refine ⟨hnames.1, ⟨hafter, hnames.2.1⟩, fun a ha b hb => ?_⟩
    rcases List.mem_cons.mp hb with rfl | hb
    · exact hbefore a ha
    · exact hnames.2.2 a ha b hb
  · intro q hq
    rcases hcases q hq with hq | rfl
    · exact h.bounds q hq
    · exact hp
  · intro q hq key hkey
    rcases hcases q hq with hq | rfl
    · exact h.below q hq key hkey
    · exact (hrows key hkey).1
  · intro a ha b hb hlt key hkey
    rcases hcases a ha with hold | hnew
    · rcases hcases b hb with hold' | hnew'
      · exact h.above a hold b hold' hlt key hkey
      · rw [hnew'] at hlt hkey
        refine (hrows key hkey).2 a ((List.mem_append.mp hold).resolve_right fun hmem => ?_)
        exact absurd hlt (hafter a hmem).asymm
    · rw [hnew] at hlt ⊢
      rcases hcases b hb with hold' | hnew'
      · refine hlater b ((List.mem_append.mp hold').resolve_left fun hmem => ?_) key hkey
        exact absurd hlt (hbefore b hmem).asymm
      · rw [hnew'] at hlt
        exact absurd hlt (lt_irrefl _)

/-- The rows of the old partition are divided at the first of the two new bounds. -/
theorem foldlM_insertRow_two {rows : List Nat} {p q : Partition} (hrows : ∀ key ∈ rows, key < q.bound) :
    rows.foldlM insertRow [p, q] =
      some [{ p with rows := p.rows ++ rows.filter fun key => decide (key < p.bound) },
        { q with rows := q.rows ++ rows.filter fun key => !decide (key < p.bound) }] := by
  induction rows generalizing p q with
  | nil => simp
  | cons key rows ih =>
    have hrest : ∀ key ∈ rows, key < q.bound := fun k hk => hrows k (List.mem_cons_of_mem _ hk)
    have hkey := hrows key List.mem_cons_self
    rw [List.foldlM_cons]
    by_cases hlt : key < p.bound
    · have hstep : insertRow [p, q] key = some [{ p with rows := p.rows ++ [key] }, q] := if_pos hlt
      rw [hstep]
      change List.foldlM insertRow _ rows = _
      rw [ih hrest]
      simp [hlt]
    · have hstep : insertRow [p, q] key = some [p, { q with rows := q.rows ++ [key] }] := by
        rw [insertRow, if_neg hlt, insertRow, if_pos hkey]
        rfl
      rw [hstep]
      change List.foldlM insertRow _ rows = _
      rw [ih (q := { q with rows := q.rows ++ [key] }) hrest]
      simp [hlt]

theorem replacePartition_append {before after into new : Partitions} {p : Partition}
    (hbefore : ∀ q ∈ before, q.name ≠ p.name) (hrange : SameRange p into after)
    (hrows : p.rows.foldlM insertRow into = some new) :
    replacePartition (before ++ p :: after) p.name into = some (before ++ (new ++ after)) := by
  induction before with
  | nil =>
    rw [List.nil_append, replacePartition, if_pos rfl, if_pos hrange, hrows]
    rfl
  | cons q before ih =>
    rw [List.cons_append, replacePartition, if_neg (hbefore q List.mem_cons_self),
      ih fun r hr => hbefore r (List.mem_cons_of_mem _ hr)]
    rfl

/-- The partition that a missing day is split off, and what is left of it. -/
def splitAt (p : Partition) (name bound : Nat) : Partition × Partition :=
  (⟨name, bound, p.rows.filter fun key => decide (key < bound)⟩,
    { p with rows := p.rows.filter fun key => !decide (key < bound) })

theorem SoundDaily.split {before after : Partitions} {p : Partition} {name bound : Nat}
    (h : SoundDaily (before ++ p :: after)) (hname : BoundOf name bound) (hbefore : ∀ q ∈ before, q.name < name)
    (hp : name < p.name) :
    SoundDaily (before ++ (splitAt p name bound).1 :: (splitAt p name bound).2 :: after) := by
  have hnames := List.pairwise_append.mp h.names
  have hmem : p ∈ before ++ p :: after := by simp
  have hbound := hname.le_name (h.bounds p hmem) hp
  have hless : SoundDaily (before ++ (splitAt p name bound).2 :: after) := by
    have hrest : SoundDaily (before ++ after) :=
      h.sublist (List.Sublist.append_left (List.sublist_cons_self p after) before)
    refine hrest.insertPartition (h.bounds p hmem) (fun q hq => hnames.2.2 q hq p List.mem_cons_self)
      (List.pairwise_cons.mp hnames.2.1).1 (fun key hkey => ?_) fun q hq key hkey => ?_
    · have hrow := (List.mem_filter.mp hkey).1
      exact ⟨h.below p hmem key hrow, fun q hq =>
        h.above q (List.mem_append_left _ hq) p hmem (hnames.2.2 q hq p List.mem_cons_self) key hrow⟩
    · exact h.above p hmem q (by simp [hq]) ((List.pairwise_cons.mp hnames.2.1).1 q hq) key hkey
  refine hless.insertPartition hname hbefore (fun q hq => ?_) (fun key hkey => ?_) fun q hq key hkey => ?_
  · rcases List.mem_cons.mp hq with rfl | hq
    · exact hp
    · exact hp.trans ((List.pairwise_cons.mp hnames.2.1).1 q hq)
  · obtain ⟨hrow, hlt⟩ := List.mem_filter.mp hkey
    exact ⟨of_decide_eq_true hlt, fun q hq =>
      h.above q (List.mem_append_left _ hq) p hmem (hnames.2.2 q hq p List.mem_cons_self) key hrow⟩
  · rcases List.mem_cons.mp hq with rfl | hq
    · have hge : ¬ key < bound := by simpa using (List.mem_filter.mp hkey).2
      exact not_lt.mp hge
    · have habove := h.above p hmem q (by simp [hq]) ((List.pairwise_cons.mp hnames.2.1).1 q hq) key hkey
      exact hbound.trans ((h.bounds p hmem).range.2.1.le.trans habove)

/-- The reorganization is legal, and only divides the rows of the old partition. -/
theorem reorganizePartition_eq {before after : Partitions} {p : Partition} {name bound : Nat}
    (h : SoundDaily (before ++ p :: after)) (hname : BoundOf name bound) (hbefore : ∀ q ∈ before, q.name < name)
    (hp : name < p.name) :
    reorganizePartition (before ++ p :: after) p.name [⟨name, bound, []⟩, ⟨p.name, p.bound, []⟩] =
      some (before ++ (splitAt p name bound).1 :: (splitAt p name bound).2 :: after) := by
  have hnew := h.split hname hbefore hp
  have hmem : p ∈ before ++ p :: after := by simp
  have hrows : p.rows.foldlM insertRow [⟨name, bound, []⟩, ⟨p.name, p.bound, []⟩] =
      some [(splitAt p name bound).1, (splitAt p name bound).2] := by
    rw [foldlM_insertRow_two (q := ⟨p.name, p.bound, []⟩) fun key hkey => h.below p hmem key hkey]
    rfl
  have hreplaced := @replacePartition_append before after [⟨name, bound, []⟩, ⟨p.name, p.bound, []⟩] _ p
    (fun q hq => ((hbefore q hq).trans hp).ne) ⟨_, rfl, Or.inl rfl⟩ hrows
  rw [reorganizePartition, hreplaced]
  apply Option.filter_some_pos
  apply decide_eq_true
  exact ⟨List.pairwise_map.mpr (hnew.names.imp fun hlt => hlt.ne), hnew.bounds_increasing⟩

/-- A day's place among the partitions. -/
theorem exists_place {ps : Partitions} (h : ps.Pairwise fun a b => a.name < b.name) (name : Nat) :
    ∃ before after, ps = before ++ after ∧ (∀ p ∈ before, p.name < name) ∧ ∀ p ∈ after, name ≤ p.name := by
  induction ps with
  | nil => exact ⟨[], [], rfl, by simp, by simp⟩
  | cons p ps ih =>
    obtain ⟨hp, hps⟩ := List.pairwise_cons.mp h
    by_cases hlt : p.name < name
    · obtain ⟨before, after, rfl, hbefore, hafter⟩ := ih hps
      refine ⟨p :: before, after, rfl, fun q hq => ?_, hafter⟩
      rcases List.mem_cons.mp hq with rfl | hq
      · exact hlt
      · exact hbefore q hq
    · refine ⟨[], p :: ps, rfl, by simp, fun q hq => ?_⟩
      rcases List.mem_cons.mp hq with rfl | hq
      · exact not_lt.mp hlt
      · exact (not_lt.mp hlt).trans (hp q hq).le

/-- What the first part of the procedure does to sound partitions. -/
theorem createDailyPartition_cases {ps : Partitions} (h : SoundDaily ps) {d : Datetime} (hlow : 1000 ≤ d.year)
    (hhigh : d.year ≤ 9998) : ∃ bound, BoundOf d.dateFormatYmd bound ∧
    ((createDailyPartition ps d = some ps ∧ ∃ p ∈ ps, p.name = d.dateFormatYmd) ∨
    (createDailyPartition ps d = some (ps ++ [⟨d.dateFormatYmd, bound, []⟩]) ∧ ∀ p ∈ ps, p.name < d.dateFormatYmd) ∨
    ∃ before p after, ps = before ++ p :: after ∧ (∀ q ∈ before, q.name < d.dateFormatYmd) ∧ d.dateFormatYmd < p.name ∧
      createDailyPartition ps d = some (before ++ (splitAt p d.dateFormatYmd bound).1 ::
        (splitAt p d.dateFormatYmd bound).2 :: after)) := by
  obtain ⟨bound, hpart, hbound⟩ := boundOf_date hlow hhigh
  refine ⟨bound, hbound, ?_⟩
  by_cases hex : ∃ p ∈ ps, p.name = d.dateFormatYmd
  · refine Or.inl ⟨if_neg ?_, hex⟩
    simpa [List.countP_eq_zero] using hex
  · have hcount : ps.countP (fun p => decide (p.name = d.dateFormatYmd)) = 0 := by
      simpa [List.countP_eq_zero] using hex
    obtain ⟨before, after, rfl, hbefore, hafter⟩ := exists_place h.names d.dateFormatYmd
    cases after with
    | nil =>
      rw [List.append_nil] at h hcount ⊢
      refine Or.inr (Or.inl ⟨?_, hbefore⟩)
      rw [createDailyPartition, if_pos hcount, futurePartition_none hbefore, hpart]
      refine if_pos fun p hp => ⟨(hbefore p hp).ne, ?_⟩
      exact ((h.bounds p hp).le_name hbound (hbefore p hp)).trans_lt hbound.range.2.1
    | cons p after =>
      have hp : d.dateFormatYmd < p.name :=
        Nat.lt_of_le_of_ne (hafter p List.mem_cons_self) fun he => hex ⟨p, by simp, he.symm⟩
      refine Or.inr (Or.inr ⟨before, p, after, rfl, hbefore, hp, ?_⟩)
      have hsize := (h.bounds p (by simp)).range
      rw [createDailyPartition, if_pos hcount, futurePartition_eq h hbefore hp, hpart]
      simp only [Option.bind_some, digitsValue_lpad (show 0 < 8 by decide) (show p.name < 10 ^ 8 by omega),
        digitsValue_decimal]
      exact reorganizePartition_eq h hbound hbefore hp

end create

/-- A day before the ones that a call keeps. -/
def Expired (d : Datetime) (n name : Nat) : Prop := ∃ cutoff ∈ dateSubDays d n, name < cutoff

instance (d : Datetime) (n name : Nat) : Decidable (Expired d n name) :=
  inferInstanceAs (Decidable (∃ cutoff ∈ dateSubDays d n, name < cutoff))

section expiry

theorem not_expired {d : Datetime} {n name : Nat} (h : d.dateFormatYmd ≤ name) : ¬ Expired d n name := by
  intro hexp
  obtain ⟨cutoff, hcutoff, hlt⟩ := hexp
  have hle := (dateSubDays_le hcutoff).2
  omega

theorem mem_expiredDailyPartitions {ps : Partitions} {d : Datetime} {n : Nat} {p : Partition} (hp : p ∈ ps) :
    p.name ∈ expiredDailyPartitions ps d n ↔ Expired d n p.name := by
  unfold expiredDailyPartitions Expired
  cases dateSubDays d n with
  | none => simp
  | some cutoff =>
    simp only [Option.mem_some_iff, exists_eq_left', List.mem_map, List.mem_filter, decide_eq_true_eq]
    constructor
    · intro h
      obtain ⟨q, ⟨-, hlt⟩, he⟩ := h
      exact he ▸ hlt
    · intro hlt
      exact ⟨p, ⟨hp, hlt⟩, rfl⟩

theorem allRows_append (ps qs : Partitions) : allRows (ps ++ qs) = allRows ps ++ allRows qs := List.flatMap_append

/-- The first part of the procedure succeeds, keeps the rows and touches no expired partition. -/
theorem SoundDaily.create {ps : Partitions} (h : SoundDaily ps) {d : Datetime} (hlow : 1000 ≤ d.year)
    (hhigh : d.year ≤ 9998) : ∃ created, createDailyPartition ps d = some created ∧ SoundDaily created ∧
    (∃ p ∈ created, p.name = d.dateFormatYmd) ∧ (allRows created).Perm (allRows ps) ∧
    ∀ n, created.filter (fun p => decide (Expired d n p.name)) = ps.filter fun p => decide (Expired d n p.name) := by
  obtain ⟨bound, hbound, hcases⟩ := createDailyPartition_cases h hlow hhigh
  rcases hcases with ⟨hcreate, hex⟩ | ⟨hcreate, hall⟩ | ⟨before, p, after, rfl, hbefore, hp, hcreate⟩
  · exact ⟨ps, hcreate, h, hex, List.Perm.refl _, fun n => rfl⟩
  · refine ⟨_, hcreate, ?_, ⟨_, List.mem_append_right _ (List.mem_singleton_self _), rfl⟩, ?_, fun n => ?_⟩
    · exact SoundDaily.insertPartition (by rw [List.append_nil]; exact h) hbound hall (by simp) (by simp) (by simp)
    · simp [allRows]
    · simp [List.filter_append, not_expired (le_refl d.dateFormatYmd)]
  · refine ⟨_, hcreate, h.split hbound hbefore hp,
      ⟨_, List.mem_append_right _ List.mem_cons_self, rfl⟩, ?_, fun n => ?_⟩
    · have hrows := List.filter_append_perm (fun key => decide (key < bound)) p.rows
      simp only [allRows, splitAt, List.flatMap_append, List.flatMap_cons]
      rw [← List.append_assoc (p.rows.filter _)]
      exact List.Perm.append_left _ (List.Perm.append_right _ hrows)
    · have hnew := not_expired (n := n) (le_refl d.dateFormatYmd)
      have hold := not_expired (n := n) hp.le
      simp [List.filter_append, splitAt, hnew, hold]

/-- Keys of an expired partition lie before the days that the call keeps. -/
theorem SoundDaily.expired_key {ps : Partitions} (h : SoundDaily ps) {d : Datetime} {n : Nat} {p : Partition}
    (hp : p ∈ ps) (hexp : Expired d n p.name) {key : Nat} (hkey : key ∈ p.rows) :
    ∃ cutoff ∈ dateSubDays d n, key < cutoff := by
  obtain ⟨cutoff, hcutoff, hlt⟩ := hexp
  obtain ⟨⟨day, rfl⟩, -⟩ := dateSubDays_le hcutoff
  exact ⟨_, hcutoff, (h.below p hp key hkey).trans_le ((h.bounds p hp).le_day hlt)⟩

/-- What the whole procedure does to sound partitions. -/
theorem SoundDaily.check {ps : Partitions} (h : SoundDaily ps) {d : Datetime} (hlow : 1000 ≤ d.year)
    (hhigh : d.year ≤ 9998) (n : Nat) : ∃ created rest, createDailyPartition ps d = some created ∧
    checkDailyPartitions ps d n = some rest ∧ SoundDaily created ∧ SoundDaily rest ∧
    (∃ p ∈ rest, p.name = d.dateFormatYmd ∧ PartitionOf rest d.dateFormatYmd p) ∧
    (allRows created).Perm (allRows ps) ∧ rest = created.filter (fun p => !decide (Expired d n p.name)) ∧
    (allRows ps).Perm (allRows (ps.filter fun p => decide (Expired d n p.name)) ++ allRows rest) := by
  obtain ⟨created, hcreate, hsound, ⟨p, hp, hname⟩, hrows, hkept⟩ := h.create hlow hhigh
  have hstays : ¬ Expired d n p.name := not_expired hname.ge
  have hdrop : checkDailyPartitions ps d n = some (created.filter fun p => !decide (Expired d n p.name)) := by
    rw [checkDailyPartitions, hcreate, Option.bind_some,
      foldlM_dropPartition ⟨p, hp, fun hmem => hstays ((mem_expiredDailyPartitions hp).mp hmem)⟩]
    congr 1
    apply List.filter_congr
    intro q hq
    rw [decide_not, decide_eq_decide.mpr (mem_expiredDailyPartitions hq)]
  have hrest : SoundDaily (created.filter fun p => !decide (Expired d n p.name)) := hsound.sublist List.filter_sublist
  refine ⟨created, _, hcreate, hdrop, hsound, hrest, ?_, hrows, rfl, ?_⟩
  · have hmem : p ∈ created.filter fun p => !decide (Expired d n p.name) :=
      List.mem_filter.mpr ⟨hp, by simpa using hstays⟩
    refine ⟨p, hmem, hname, hrest.partitionOf hmem ?_ fun q hq hlt => ?_⟩
    · rw [← hname]
      exact (hrest.bounds p hmem).range.2.1
    · rw [← hname]
      exact (hrest.bounds q hq).le_name (hrest.bounds p hmem) hlt
  · rw [← hkept n, ← allRows_append]
    refine hrows.symm.trans (List.Perm.flatMap_right _ ?_)
    exact (List.filter_append_perm (fun p : Partition => decide (Expired d n p.name)) created).symm

theorem SoundDaily.insertRow {ps qs : Partitions} {key : Nat} (h : SoundDaily ps) (hi : insertRow ps key = some qs) :
    SoundDaily qs := by
  obtain ⟨before, p, after, rfl, hbefore, hlt, rfl⟩ := insertRow_cases hi
  have hnames := List.pairwise_append.mp h.names
  have hlater := (List.pairwise_cons.mp hnames.2.1).1
  have hmem : p ∈ before ++ p :: after := by simp
  have hrest : SoundDaily (before ++ after) :=
    h.sublist (List.Sublist.append_left (List.sublist_cons_self p after) before)
  refine hrest.insertPartition (h.bounds p hmem) (fun q hq => hnames.2.2 q hq p List.mem_cons_self) hlater
    (fun k hk => ?_) fun q hq k hk => h.above p hmem q (by simp [hq]) (hlater q hq) k hk
  rcases List.mem_append.mp hk with hk | hk
  · refine ⟨h.below p hmem k hk, fun q hq => ?_⟩
    exact h.above q (List.mem_append_left _ hq) p hmem (hnames.2.2 q hq p List.mem_cons_self) k hk
  · obtain rfl := List.mem_singleton.mp hk
    exact ⟨hlt, hbefore⟩

theorem SoundDaily.step {ps qs : Partitions} {a : PartitionCall} (h : SoundDaily ps)
    (ha : ∀ d n, a = .check d n → 1000 ≤ d.year ∧ d.year ≤ 9998) (hs : dailyStep ps a = some qs) : SoundDaily qs := by
  cases a with
  | check d n =>
    obtain ⟨hlow, hhigh⟩ := ha d n rfl
    obtain ⟨created, rest, -, hcheck, -, hrest, -⟩ := h.check hlow hhigh n
    obtain rfl := Option.some.inj (hcheck.symm.trans hs)
    exact hrest
  | insert key => exact h.insertRow hs

end expiry

/-- Calls for dates of the years 1000 to 9998 in any order, and rows inserted in between, keep
names, bounds and rows in order. Each further call succeeds: reorganizing loses no row and
leaves every row in the partition of its key, the date's own partition exists afterwards, and
only rows of expired partitions are gone, whose keys are before the days that the call keeps. -/
theorem daily_partitions_maintained {ps : Partitions} {as : List PartitionCall}
    (hrun : Run dailyStep initialDailyPartitions as ps)
    (hdates : ∀ d n, .check d n ∈ as → 1000 ≤ d.year ∧ d.year ≤ 9998) :
    SoundDaily ps ∧
    ∀ (d : Datetime) n, 1000 ≤ d.year → d.year ≤ 9998 → ∃ created rest,
      createDailyPartition ps d = some created ∧ checkDailyPartitions ps d n = some rest ∧
      (∃ p ∈ rest, p.name = d.dateFormatYmd ∧ PartitionOf rest d.dateFormatYmd p) ∧
      (allRows created).Perm (allRows ps) ∧
      (∀ p ∈ created, ∀ key ∈ p.rows, PartitionOf created key p) ∧
      rest = created.filter (fun p => !decide (Expired d n p.name)) ∧
      (allRows ps).Perm (allRows (ps.filter fun p => decide (Expired d n p.name)) ++ allRows rest) ∧
      ∀ p ∈ ps, Expired d n p.name → ∀ key ∈ p.rows, ∃ cutoff ∈ dateSubDays d n, key < cutoff := by
  have hpreserved : ∀ s a t, SoundDaily s → (∀ d n, a = .check d n → 1000 ≤ d.year ∧ d.year ≤ 9998) →
      dailyStep s a = some t → SoundDaily t := fun _ _ _ hs ha ht => hs.step ha ht
  have hsound : SoundDaily ps := by
    refine hrun.guarded_invariant (allSteps_of_forall_mem (fun a ha d n he => ?_) _) hpreserved soundDaily_initial
    exact hdates d n (he ▸ ha)
  refine ⟨hsound, fun d n hlow hhigh => ?_⟩
  obtain ⟨created, rest, hcreate, hcheck, hcreated, -, hexists, hrows, hkept, hgone⟩ := hsound.check hlow hhigh n
  refine ⟨created, rest, hcreate, hcheck, hexists, hrows, fun p hp key hkey => ?_, hkept, hgone, fun p hp hexp key hkey => ?_⟩
  · exact hcreated.rows_partitionOf hp hkey
  · exact hsound.expired_key hp hexp hkey

/-- A row of the thirty-first of December between calls for the first of January and for that day. -/
theorem december_split_off_maintained : ∃ ps,
    Run dailyStep initialDailyPartitions [.check ⟨86400 * daysBeforeYear 2014, by decide⟩ 2, .insert 20131231,
      .check ⟨86400 * (daysBeforeYear 2014 - 1), by decide⟩ 2] ps ∧ SoundDaily ps := by
  have hex : ∃ ps, Run dailyStep initialDailyPartitions [.check ⟨86400 * daysBeforeYear 2014, by decide⟩ 2,
      .insert 20131231, .check ⟨86400 * (daysBeforeYear 2014 - 1), by decide⟩ 2] ps :=
    ⟨_, exec_eq_some_iff.mp rfl⟩
  obtain ⟨ps, hrun⟩ := hex
  refine ⟨ps, hrun, (daily_partitions_maintained hrun fun d n hmem => ?_).1⟩
  rcases List.mem_cons.mp hmem with he | hmem
  · obtain ⟨rfl, rfl⟩ := PartitionCall.check.inj he
    decide
  · rcases List.mem_cons.mp hmem with he | hmem
    · cases he
    · obtain ⟨rfl, rfl⟩ := PartitionCall.check.inj (List.mem_singleton.mp hmem)
      decide

end Srvlog.Database
