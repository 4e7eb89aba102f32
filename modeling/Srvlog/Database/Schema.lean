import Srvlog.Library.AutoIncrementTable
import Srvlog.Library.Calendar
import Srvlog.Library.Text

/-! The tables of the log store. Values fit their column types, keys come from the
tables' counters, and no two hosts rows have equal hostnames. -/
namespace Srvlog.Database
open Library

structure Varchar (n : Nat) where
  chars : Text
  fits : chars.length ≤ n
  deriving DecidableEq

-- The host of the samples, as the name of a log's sender and of a row of hosts.
theorem h_fits_host : "h".toList.length ≤ 60 := by decide
theorem h_fits_hostname : "h".toList.length ≤ 120 := by decide

/-- A value of a text column: at most 65535 bytes of UTF-8. -/
structure SqlText where
  chars : Text
  fits : (chars.map Char.utf8Size).sum ≤ 65535
  deriving DecidableEq

/-- A text as a parameter of a procedure, which refuses one that is too long. -/
def varchar? (n : Nat) (chars : Text) : Option (Varchar n) := if h : chars.length ≤ n then some ⟨chars, h⟩ else none

theorem varchar?_eq_some {n : Nat} {chars : Text} {value : Varchar n} (h : varchar? n chars = some value) :
    value.chars = chars := by
  obtain ⟨hfits, hvalue⟩ := Option.dite_none_right_eq_some.mp h
  rw [← Option.some.inj hvalue]

def sqlText? (chars : Text) : Option SqlText :=
  if h : (chars.map Char.utf8Size).sum ≤ 65535 then some ⟨chars, h⟩ else none

/-- A number as a parameter for an unsigned column. -/
def unsigned? (n : Int) : Option Nat := if 0 ≤ n then some n.toNat else none

/-- A value of a datetime column, as seconds from the start of year zero. -/
structure Datetime where
  seconds : Nat
  in_range : yearOfDay (seconds / 86400) ≤ 9999
  deriving DecidableEq

namespace Datetime

theorem zero_in_range : yearOfDay (0 / 86400) ≤ 9999 := by decide

def year (d : Datetime) : Nat := yearOfDay (d.seconds / 86400)
def month (d : Datetime) : Nat := monthOfDay (d.seconds / 86400)

/-- `date_format(d, '%Y%m')`, read as a number. -/
def dateFormatYm (d : Datetime) : Nat := yearMonthOfDay (d.seconds / 86400)

theorem month_range (d : Datetime) : 1 ≤ d.month ∧ d.month ≤ 12 := monthOfDay_range _

theorem dateFormatYm_eq (d : Datetime) : d.dateFormatYm = 100 * d.year + d.month := rfl

end Datetime

/-- The comparison of host names in the where clauses and in the unique key. -/
structure Collation where
  same : Text → Text → Bool
  refl : ∀ a, same a a = true
  symm : ∀ a b, same a b = true → same b a = true
  trans : ∀ a b d, same a b = true → same b d = true → same a d = true

def Collation.binary : Collation where
  same a b := decide (a = b)
  refl _ := decide_eq_true rfl
  symm _ _ h := decide_eq_true (of_decide_eq_true h).symm
  trans _ _ _ h h' := decide_eq_true ((of_decide_eq_true h).trans (of_decide_eq_true h'))

/-- `=` on nullable names: a comparison with null selects nothing. -/
def Collation.equal {m n : Nat} (c : Collation) : Option (Varchar m) → Option (Varchar n) → Bool
  | some a, some b => c.same a.chars b.chars
  | _, _ => false

structure LogColumns where
  logDate : Datetime
  facility : Option Int
  severity : Option Int
  message : Option SqlText
  program : Option (Varchar 60)
  hash : Option (Varchar 32)
  deriving DecidableEq

/-- The field `call` of a row is an auxiliary variable: the number of the `saveLog`
call the row stems from. No procedure reads it. -/
structure LogRow extends LogColumns where
  logsPartitionKey : Nat
  hostId : Nat
  call : Nat
  deriving DecidableEq

structure UnprocessedRow extends LogColumns where
  host : Varchar 60
  call : Nat
  deriving DecidableEq

structure HostRow where
  hostname : Option (Varchar 120)
  ip : Option (Varchar 60)
  deriving DecidableEq

structure OssecRow where
  logId : Nat
  date : Datetime
  identifier : Varchar 60
  hash : Option (Varchar 32)
  call : Nat
  deriving DecidableEq

/-- The table hosts under its unique key on the hostname. -/
structure Hosts (c : Collation) extends Table HostRow where
  unqHostsHostname : rows.Pairwise fun a b => c.equal a.2.hostname b.2.hostname = false

namespace Hosts
variable {c : Collation}

def empty : Hosts c := ⟨Table.empty, .nil⟩

/-- A duplicate hostname makes the insert fail. -/
def insert? (t : Hosts c) (r : HostRow) : Option (Hosts c) :=
  if h : ∀ p ∈ t.rows, c.equal p.2.hostname r.hostname = false then
    some ⟨t.insert r, by
      rw [Table.insert_rows, List.pairwise_append]
      refine ⟨t.unqHostsHostname, List.pairwise_singleton _ _, ?_⟩
      intro a ha b hb
      obtain rfl := List.mem_singleton.mp hb
      exact h a ha⟩
  else none

def withName {n : Nat} (t : Hosts c) (name : Varchar n) : List (Nat × HostRow) :=
  t.rows.filter fun p => c.equal p.2.hostname (some name)

theorem mem_withName {n : Nat} {t : Hosts c} {name : Varchar n} {p : Nat × HostRow} :
    p ∈ t.withName name ↔ p ∈ t.rows ∧ c.equal p.2.hostname (some name) = true :=
  List.mem_filter

private theorem equal_of_equal {n : Nat} {a b : Option (Varchar 120)} {name : Varchar n}
    (ha : c.equal a (some name) = true) (hb : c.equal b (some name) = true) : c.equal a b = true := by
  cases a with
  | none => simp [Collation.equal] at ha
  | some a =>
    cases b with
    | none => simp [Collation.equal] at hb
    | some b => exact c.trans _ _ _ ha (c.symm _ _ hb)

/-- The unique key lets a name select at most one row. -/
theorem withName_length_le_one {n : Nat} (t : Hosts c) (name : Varchar n) :
    (t.withName name).length ≤ 1 := by
  have hp : (t.withName name).Pairwise fun a b => c.equal a.2.hostname b.2.hostname = false :=
    t.unqHostsHostname.sublist List.filter_sublist
  match hl : t.withName name with
  | [] => simp
  | [_] => simp
  | a :: b :: _ =>
    have ha := mem_withName.mp (show a ∈ t.withName name by simp [hl])
    have hb := mem_withName.mp (show b ∈ t.withName name by simp [hl])
    rw [hl] at hp
    have hne := (List.pairwise_cons.mp hp).1 b (by simp)
    simp [equal_of_equal ha.2 hb.2] at hne

end Hosts
end Srvlog.Database
