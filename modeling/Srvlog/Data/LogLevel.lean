import Srvlog.Library.Text

/-! The severities that the program knows. -/
namespace Srvlog.Data
open Library

inductive LogLevel where
  | emergency | alert | critical | error | warn | notice | info | debug
  deriving DecidableEq

namespace LogLevel

def values : List LogLevel := [emergency, alert, critical, error, warn, notice, info, debug]

def value : LogLevel → Int
  | emergency => 0
  | alert => 1
  | critical => 2
  | error => 3
  | warn => 4
  | notice => 5
  | info => 6
  | debug => 7

def name : LogLevel → Text
  | emergency => "EMERGENCY".toList
  | alert => "ALERT".toList
  | critical => "CRITICAL".toList
  | error => "ERROR".toList
  | warn => "WARN".toList
  | notice => "NOTICE".toList
  | info => "INFO".toList
  | debug => "DEBUG".toList

def levelForValue (n : Int) : Option LogLevel := values.find? fun level => decide (level.value = n)

/-- The name of the level, null for other numbers. -/
def forValue (n : Int) : Option Text := (levelForValue n).map name

theorem levelForValue_value (level : LogLevel) : levelForValue level.value = some level := by
  cases level <;> rfl

theorem levelForValue_eq_some_iff {n : Int} {level : LogLevel} : levelForValue n = some level ↔ n = level.value := by
  constructor
  · intro h
    have hvalue := List.find?_some h
    exact (of_decide_eq_true hvalue).symm
  · rintro rfl
    exact levelForValue_value level

theorem isSome_levelForValue {n : Int} : (levelForValue n).isSome ↔ 0 ≤ n ∧ n ≤ 7 := by
  rw [Option.isSome_iff_exists]
  constructor
  · rintro ⟨level, h⟩
    rw [levelForValue_eq_some_iff.mp h]
    cases level <;> decide
  · rintro ⟨hlow, hhigh⟩
    have hcases : n = 0 ∨ n = 1 ∨ n = 2 ∨ n = 3 ∨ n = 4 ∨ n = 5 ∨ n = 6 ∨ n = 7 := by omega
    rcases hcases with rfl | rfl | rfl | rfl | rfl | rfl | rfl | rfl
    all_goals exact ⟨_, rfl⟩

/-- For other texts it throws. -/
def valueOf (text : Text) : Option LogLevel := values.find? fun level => decide (level.name = text)

theorem valueOf_name (level : LogLevel) : valueOf level.name = some level := by
  cases level <;> rfl

theorem mem_values (level : LogLevel) : level ∈ values := by
  cases level <;> decide

end LogLevel
end Srvlog.Data
