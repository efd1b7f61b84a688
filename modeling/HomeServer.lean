import HomeServer.Lib.Transition
import HomeServer.Ble.Submissions
import HomeServer.Ble.Peripheral
import HomeServer.Services.ScanWindow
import HomeServer.Services.BleRuntime
import HomeServer.Services.MonitorTick
import HomeServer.Services.Reconnect
import HomeServer.Services.StatusTrace
import HomeServer.Ble.Parser
import HomeServer.Services.Requests
import HomeServer.Ble.Links
import HomeServer.Services.Subscriptions
import HomeServer.Services.Operations
import HomeServer.Services.SubscriptionRuns
import HomeServer.Ble.RateLimiter
import HomeServer.Lib.Greedy
import HomeServer.Services.ChannelService
import HomeServer.Services.Throttle
import HomeServer.Db.Latest
import HomeServer.Services.FlagState
import HomeServer.Db.Downsample
import HomeServer.Services.Endpoints
import HomeServer.Services.Serving
import HomeServer.Services.Ingest
import HomeServer.Services.ControlCalls
import HomeServer.Services.ControlState
import HomeServer.Ble.Manager
import HomeServer.Services.DeviceThreads
import HomeServer.Services.OrphanLinks
import HomeServer.Ble.Sequential
import HomeServer.Services.ChannelThreads
import HomeServer.Db.History
import HomeServer.Services.ChannelRows
import HomeServer.Services.ChannelUuids
import HomeServer.Services.ChannelLinks
import HomeServer.Services.GhostSubscriptions
import HomeServer.Services.AdapterScans
import HomeServer.Ble.ManagerCalls
import HomeServer.Ble.ConnectCalls
import HomeServer.Core.PeriodicRuns
import HomeServer.Services.NotifyThreads
import HomeServer.Services.Registration
import HomeServer.Services.TickFaults
import HomeServer.Services.TickIsolation
import HomeServer.Lib.Interrupted
import HomeServer.Db.MigrationRuns
import HomeServer.Ble.Mac
import HomeServer.Services.Addresses
import HomeServer.Services.Presets
import HomeServer.Services.SubscribedTable
import HomeServer.Dashboard.Flags
import HomeServer.Core.Packing
import HomeServer.Services.Commands
import HomeServer.Services.FailedCalls
import HomeServer.Services.HistoryLimit
import HomeServer.Core.PyText
import HomeServer.Services.WriteRequests
import HomeServer.Db.Buckets
import HomeServer.Services.HistoryWindow
import HomeServer.Core.DateTime
import HomeServer.Db.ReadingTexts
import HomeServer.Db.Timestamps
import HomeServer.Services.FlagEdges
import HomeServer.Services.Catalogues
import HomeServer.Services.FailedRequests
import HomeServer.Services.UserService
import HomeServer.Web.SafeNext
import HomeServer.Lib.Overwrites
import HomeServer.Services.Units
import HomeServer.Core.Doubles
import HomeServer.Lib.Tally
import HomeServer.Services.MockFeed
import HomeServer.Services.FeedIndependence
import HomeServer.Db.Statements
import HomeServer.Web.Analytics
import HomeServer.Ble.FloatFormats
import HomeServer.Dashboard.Moments
import HomeServer.Dashboard.Merged
import HomeServer.Dashboard.MergedRuns
import HomeServer.Ble.MockManager
import HomeServer.Services.DemoLinks
import HomeServer.Services.DemoRuns
import HomeServer.Services.DemoFeed
import HomeServer.Services.DemoServer
import HomeServer.Lib.Rooms
import HomeServer.Services.Scanning
import HomeServer.Web.Live
import HomeServer.Web.Overview
import HomeServer.Web.Sessions
import HomeServer.Lib.Component
import HomeServer.Lib.Keyed
import HomeServer.Db.Store
import HomeServer.Db.StoreRefinement
import HomeServer.Db.StoreRuns
import HomeServer.Services.TableRuns
import HomeServer.Services.Recordings
import HomeServer.Db.DownsampleTexts
import HomeServer.Db.Installation
