import Srvlog.Data.LogLevel
import Srvlog.Search.LogSearch
import Srvlog.Util.DateRange

/-! The page that lists logs: the model of its filter, and what page parameters make of it. -/
namespace Srvlog.Web
open Library Data Search Util

inductive DateRangeType where
  | TODAY | YESTERDAY | THIS_WEEK | LAST_WEEK | THIS_MONTH | LAST_MONTH | EXACTLY_DATE | EXACTLY_TIME
  deriving DecidableEq

namespace DateRangeType

def values : List DateRangeType :=
  [TODAY, YESTERDAY, THIS_WEEK, LAST_WEEK, THIS_MONTH, LAST_MONTH, EXACTLY_DATE, EXACTLY_TIME]

def name : DateRangeType → Text
  | TODAY => "TODAY".toList
  | YESTERDAY => "YESTERDAY".toList
  | THIS_WEEK => "THIS_WEEK".toList
  | LAST_WEEK => "LAST_WEEK".toList
  | THIS_MONTH => "THIS_MONTH".toList
  | LAST_MONTH => "LAST_MONTH".toList
  | EXACTLY_DATE => "EXACTLY_DATE".toList
  | EXACTLY_TIME => "EXACTLY_TIME".toList

/-- For other texts it throws. -/
def valueOf (text : Text) : Option DateRangeType := values.find? fun type => decide (type.name = text)

theorem valueOf_name (type : DateRangeType) : valueOf type.name = some type := by
  cases type <;> rfl

end DateRangeType

section filter
variable (zone : TimeZone) (firstDayOfWeek now : Int)

/-- The range of a type at one moment. Exact ranges come from the form. -/
def dateRangeOf : DateRangeType → Option DateRange
  | .TODAY => some (.today zone now)
  | .YESTERDAY => some (.yesterday zone now)
  | .THIS_WEEK => some (.thisWeek zone firstDayOfWeek now)
  | .LAST_WEEK => some (.lastWeek zone firstDayOfWeek now)
  | .THIS_MONTH => some (.thisMonth zone now)
  | .LAST_MONTH => some (.lastMonth zone now)
  | .EXACTLY_DATE | .EXACTLY_TIME => none

structure DateRangeModel where
  dateRange : DateRange
  dateRangeType : DateRangeType
  exactlyDateFrom : Option Int
  exactlyDateTo : Option Int

namespace DateRangeModel

def new : DateRangeModel := ⟨.today zone now, .TODAY, none, none⟩

def setDateRangeType (m : DateRangeModel) (type : DateRangeType) : DateRangeModel :=
  { m with dateRangeType := type, dateRange := (dateRangeOf zone firstDayOfWeek now type).getD m.dateRange }

/-- Both ends. What the source also writes to its field is not read again. -/
def getDateRange (m : DateRangeModel) : Option Int × Option Int :=
  match m.dateRangeType with
  | .EXACTLY_DATE | .EXACTLY_TIME => (m.exactlyDateFrom, m.exactlyDateTo)
  | _ => (some m.dateRange.fromDate, some m.dateRange.toDate)

end DateRangeModel

structure FilterModel where
  dateRangeModel : DateRangeModel
  facilityIds : Option (List Int)
  severityIds : Option (List Int)
  hostIds : Option (List Int)
  pattern : Option Text
  itemPrePage : Nat

namespace FilterModel

def new : FilterModel := ⟨.new zone now, none, none, none, none, 25⟩

def setSeverities (m : FilterModel) (severities : List LogLevel) : FilterModel :=
  { m with severityIds := some (severities.map LogLevel.value) }

/-- What the data provider of the page asks the collector for. -/
def searchFilter (m : FilterModel) : SearchFilter where
  fromDate := m.dateRangeModel.getDateRange.1
  toDate := m.dateRangeModel.getDateRange.2
  facilities := m.facilityIds
  severities := m.severityIds
  hosts := m.hostIds
  pattern := m.pattern

end FilterModel

/-- The parameters that are not empty. -/
structure PageParameters where
  severity : Option Text
  dateRangeType : Option Text
  timeFrom : Option Text
  pattern : Option Text

/-- `fillFilterModel`, with the parser for the time. Names that there are not and unreadable times
make it throw. -/
def fillFilterModel (parse : Text → Option Int) (m : FilterModel) (p : PageParameters) : Option FilterModel := do
  let m ← match p.severity with
    | none => some m
    | some severity => (LogLevel.valueOf severity).map fun level => m.setSeverities [level]
  let m ← match p.dateRangeType with
    | none => some m
    | some dateRangeType => (DateRangeType.valueOf dateRangeType).map fun type =>
      { m with dateRangeModel := m.dateRangeModel.setDateRangeType zone firstDayOfWeek now type }
  let m ← match p.timeFrom with
    | none => some m
    | some timeFrom => (parse timeFrom).map fun dateTimeFrom => { m with dateRangeModel :=
      { m.dateRangeModel.setDateRangeType zone firstDayOfWeek now .EXACTLY_TIME with
        exactlyDateFrom := some dateTimeFrom, exactlyDateTo := some (dateTimeFrom + 60000) } }
  return match p.pattern with
    | none => m
    | some pattern => { m with pattern := some pattern }

end filter
end Srvlog.Web
