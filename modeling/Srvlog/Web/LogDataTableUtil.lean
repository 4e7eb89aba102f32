import Srvlog.Data.LogData
import Srvlog.Data.LogLevel
import Srvlog.Library.JavaText

/-! The highlighting of the rows of a log page. -/
namespace Srvlog.Web
open Library Data

/-- `LogLevel.valueOf`, which throws for null and for any text that is no level's name. -/
def valueOfLevel : Option Text → Except JavaException LogLevel
  | none => .error .nullPointerException
  | some logLevel => match LogLevel.values.find? fun level => decide (level.name = logLevel) with
    | some level => .ok level
    | none => .error (.runtimeException ("No enum constant com.payneteasy.srvlog.data.LogLevel.".toList ++ logLevel))

/-- The class that the component gets. -/
def setHighlightCssClassBySeverity (logLevel : Option Text) : Except JavaException Text :=
  match valueOfLevel logLevel with
  | .ok level => .ok ("LEVEL-".toList ++ level.name)
  | .error e => .error e

/-- What both log pages do with the severity of a row. -/
def highlightRow (logData : LogData) : Except JavaException Text :=
  setHighlightCssClassBySeverity (logData.severity.bind LogLevel.forValue)

def highlightPage (page : List LogData) : Except JavaException (List Text) := page.mapM highlightRow

/-- The pages know the severity. -/
def KnownSeverity (logData : LogData) : Prop := ∃ level : LogLevel, logData.severity = some level.value

theorem valueOfLevel_name (level : LogLevel) : valueOfLevel (some level.name) = .ok level := by
  cases level <;> rfl

theorem knownSeverity_iff {logData : LogData} :
    KnownSeverity logData ↔ ∃ n, logData.severity = some n ∧ 0 ≤ n ∧ n ≤ 7 := by
  constructor
  · rintro ⟨level, h⟩
    exact ⟨level.value, h, by cases level <;> decide, by cases level <;> decide⟩
  · rintro ⟨n, h, hlow, hhigh⟩
    obtain ⟨level, hlevel⟩ := Option.isSome_iff_exists.mp (LogLevel.isSome_levelForValue.mpr ⟨hlow, hhigh⟩)
    exact ⟨level, by rw [h, LogLevel.levelForValue_eq_some_iff.mp hlevel]⟩

theorem highlightRow_iff {logData : LogData} : (∃ css, highlightRow logData = .ok css) ↔ KnownSeverity logData := by
  constructor
  · rintro ⟨css, h⟩
    unfold highlightRow setHighlightCssClassBySeverity at h
    cases hname : logData.severity.bind LogLevel.forValue with
    | none =>
      rw [hname] at h
      cases h
    | some name =>
      obtain ⟨n, hn, hvalue⟩ := Option.bind_eq_some_iff.mp hname
      obtain ⟨level, hlevel, -⟩ := Option.map_eq_some_iff.mp hvalue
      exact ⟨level, by rw [hn, LogLevel.levelForValue_eq_some_iff.mp hlevel]⟩
  · rintro ⟨level, h⟩
    refine ⟨"LEVEL-".toList ++ level.name, ?_⟩
    have hname : logData.severity.bind LogLevel.forValue = some level.name := by
      rw [h, Option.bind_some, LogLevel.forValue, LogLevel.levelForValue_value, Option.map_some]
    rw [highlightRow, hname, setHighlightCssClassBySeverity, valueOfLevel_name]

/-- A page is shown if and only if each of its rows has a severity that is known. -/
theorem highlightPage_iff {page : List LogData} :
    (∃ classes, highlightPage page = .ok classes) ↔ ∀ logData ∈ page, KnownSeverity logData := by
  induction page with
  | nil => exact ⟨fun _ _ h => absurd h List.not_mem_nil, fun _ => ⟨[], rfl⟩⟩
  | cons row page ih =>
    rw [List.forall_mem_cons, ← ih, ← highlightRow_iff]
    unfold highlightPage
    rw [List.mapM_cons]
    cases hrow : highlightRow row with
    | error e =>
      constructor
      · rintro ⟨classes, h⟩
        cases h
      · rintro ⟨⟨css, h⟩, -⟩
        cases h
    | ok css =>
      cases hpage : page.mapM highlightRow with
      | error e =>
        constructor
        · rintro ⟨classes, h⟩
          cases h
        · rintro ⟨-, classes, h⟩
          cases h
      | ok classes =>
        constructor
        · exact fun _ => ⟨⟨css, rfl⟩, classes, rfl⟩
        · intro _
          exact ⟨css :: classes, rfl⟩

end Srvlog.Web
