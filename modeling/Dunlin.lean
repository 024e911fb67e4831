import Dunlin.Lib.Prog
import Dunlin.Lib.Run
import Dunlin.Config
import Dunlin.Dispatch
import Dunlin.Telegram
import Dunlin.Store
import Dunlin.Alert
import Dunlin.AlertSystem
import Dunlin.AlertRun
import Dunlin.IncidentRows
import Dunlin.ManualIncidents
import Dunlin.Orphans
import Dunlin.AlertFaults
import Dunlin.ForgetRetry
import Dunlin.OpenIncidents
import Dunlin.AlertSync
import Dunlin.MessageGrammar
import Dunlin.DispatchRun
import Dunlin.GivenUp
import Dunlin.SubscriptionSystem
import Dunlin.SubscriptionRun
import Dunlin.OutboxLifecycle
import Dunlin.DoubleOptIn
import Dunlin.Lib.Keyed
import Dunlin.Rollup
import Dunlin.TokenLinks
import Dunlin.Maintenance
import Dunlin.MaintenanceMessages
import Dunlin.Site
import Dunlin.QuietIncidents
import Dunlin.Cancellations
import Dunlin.MessageLinks
import Dunlin.Webhook
import Dunlin.WebhookGuard
import Dunlin.ClientIp
import Dunlin.LoginLimiter
import Dunlin.Days
import Dunlin.Uptime
import Dunlin.Lib.Script
import Dunlin.Requests
import Dunlin.Timelines
import Dunlin.Lib.Network
import Dunlin.Lib.LastSeen
import Dunlin.Lib.Newest
import Dunlin.Lib.Transaction
import Dunlin.Lib.Tumbling
import Dunlin.PublicAddresses
import Dunlin.LimiterLog
import Dunlin.MachineTrace
import Dunlin.CheckResults
import Dunlin.StatusPage
import Dunlin.SeriesPicker
import Dunlin.Sessions
import Dunlin.Lib.Watch
import Dunlin.HotReload
import Dunlin.HotReloadRun
import Dunlin.SessionRun
import Dunlin.Quarantine
import Dunlin.ResendLimit
import Dunlin.ChatLinks
import Dunlin.TimedRounds
import Dunlin.PacingGaps
import Dunlin.Backoff
import Dunlin.DayTiling
import Dunlin.Retention
import Dunlin.LocalTimes
import Dunlin.StatusHistory
import Dunlin.BotDelivery
import Dunlin.BotEffects
import Dunlin.BotPolling
import Dunlin.CalledOff
import Dunlin.Lib.Numeral
import Dunlin.Summary
import Dunlin.Heartbeats
import Dunlin.Durations
import Dunlin.Lib.Floating
import Dunlin.Reload
import Dunlin.Csrf
import Dunlin.Escaping
import Dunlin.Lib.Escape
import Dunlin.IncidentComponents
import Dunlin.HeartbeatTokens
import Dunlin.CpuUsage
import Dunlin.Lib.Exposition
import Dunlin.Prometheus
import Dunlin.Lib.Xml
import Dunlin.Lib.Html
import Dunlin.Feed
import Dunlin.FeedTimes
import Dunlin.Monitor
import Dunlin.MonitorRun
import Dunlin.RollupRun
import Dunlin.ProberViews
