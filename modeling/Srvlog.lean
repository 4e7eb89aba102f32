import Srvlog.Library.Runs
import Srvlog.Library.AutoIncrementTable
import Srvlog.Library.Calendar
import Srvlog.Library.Text
import Srvlog.Library.Decimal
import Srvlog.Library.RingBuffer
import Srvlog.Library.ConcurrentMap
import Srvlog.Library.Sorter
import Srvlog.Library.JavaInt
import Srvlog.Library.JavaText
import Srvlog.Library.Regex
import Srvlog.Library.Scanner
import Srvlog.Library.GregorianCalendar
import Srvlog.Database.Schema
import Srvlog.Database.StoreProcedures
import Srvlog.Database.StoreLedger
import Srvlog.Database.LogIdentifiers
import Srvlog.Database.ConcurrentMoves
import Srvlog.Database.MonthlyPartitions
import Srvlog.Data.LogData
import Srvlog.Data.SnortLogData
import Srvlog.Broadcasting.InMemoryLogStorage
import Srvlog.Broadcasting.LogHistory
import Srvlog.Broadcasting.LogBroadcastingService
import Srvlog.Broadcasting.DeliveredLogs
import Srvlog.Broadcasting.ConcurrentDelivery
import Srvlog.Search.LogSearch
import Srvlog.Search.UncountablyPageableListView
import Srvlog.Syslog.SnortHeaders
import Srvlog.Syslog.SnortMessage
import Srvlog.Syslog.SnortRecord
import Srvlog.Syslog.SnortRoundTrip
import Srvlog.Syslog.SnortFraming
import Srvlog.Json.SaveLogs
import Srvlog.Json.BatchAtomicity
import Srvlog.Library.BoundedQueue
import Srvlog.Udp.UDPServer
import Srvlog.Udp.DatagramDelivery
import Srvlog.Collector.SimpleLogCollector
import Srvlog.Web.Terminal
import Srvlog.Web.TerminalOutput
import Srvlog.Data.LogLevel
import Srvlog.Library.Grouping
import Srvlog.Library.LocalCalendar
import Srvlog.Search.LogStatistics
import Srvlog.Util.DateRange
import Srvlog.Search.AdjacentRanges
import Srvlog.Search.DashboardTotals
import Srvlog.Collector.LogCollector
import Srvlog.Syslog.OssecSnortMessage
import Srvlog.Library.Base64
import Srvlog.Syslog.SuricataMessage
import Srvlog.Syslog.SyslogAdapter
import Srvlog.Collector.Ingestion
import Srvlog.Web.LogDataTableUtil
import Srvlog.Web.KnownSeverities
import Srvlog.Database.SnortLogs
import Srvlog.Database.SnortLogsMigration
import Srvlog.Database.SnortLogsCopies
import Srvlog.Web.AddHostsPage
import Srvlog.Web.UnprocessedHosts
import Srvlog.Collector.DatabaseCollector
import Srvlog.Database.FirewallAlerts
import Srvlog.Syslog.FirewallEvents
import Srvlog.Database.SnortQueries
import Srvlog.Syslog.SnortCorrelation
import Srvlog.Database.DailyPartitions
import Srvlog.Udp.ServerShutdown
import Srvlog.Library.Utf16
import Srvlog.Collector.Utf16Truncation
import Srvlog.Library.WallClock
import Srvlog.Syslog.OssecDates
import Srvlog.Library.JsonText
import Srvlog.Syslog.HttpHeaderLines
import Srvlog.Syslog.SuricataPayload
import Srvlog.Web.SnortLogMonitorPage
import Srvlog.Syslog.SnortTransfer
import Srvlog.Search.PagingNavigator
import Srvlog.Broadcasting.ArrivalOrder
import Srvlog.Library.CalendarMonths
import Srvlog.Util.CalendarRanges
import Srvlog.Web.HostListText
import Srvlog.Library.WhileLoop
import Srvlog.Database.RoutineArguments
import Srvlog.Database.RoutineRegistration
import Srvlog.Library.Chunks
import Srvlog.Web.HexViewerPanel
import Srvlog.Syslog.OssecHashes
import Srvlog.Syslog.StoredEvents
import Srvlog.Library.Components
import Srvlog.Tcp.LoggerAcceptorNode
import Srvlog.Tcp.ThreadPooledServer
import Srvlog.Tcp.ServedConnections
import Srvlog.Tcp.AcceptorThread
import Srvlog.Broadcasting.AskedForLogs
import Srvlog.Web.MultiSelect
import Srvlog.Web.ChosenValues
import Srvlog.Web.TerminalPage
import Srvlog.Web.DisplayedLogs
import Srvlog.Web.ReadyTerminals
import Srvlog.Library.TableCopies
import Srvlog.Search.SearchIndexes
import Srvlog.Search.IndexedLogs
import Srvlog.Search.SearchedLogs
import Srvlog.Search.ListedLogs
import Srvlog.Library.SqlWords
import Srvlog.Database.FirewallDrops
import Srvlog.Logback.SavedEvents
import Srvlog.Logback.LogbackUDPAdapter
import Srvlog.Logback.DatagramEvents
import Srvlog.Logback.LogbackTCPAdapter
import Srvlog.Web.LogMonitorPage
import Srvlog.Web.DashboardPage
import Srvlog.Web.SelectedLogs
