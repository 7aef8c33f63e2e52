import DirectLink.Lib.Program
import DirectLink.Lib.Pool
import DirectLink.Lib.Redis
import DirectLink.Lib.Decimal
import DirectLink.Session.Model
import DirectLink.Session.Effects
import DirectLink.Session.RedisStore
import DirectLink.Session.StoreSpec
import DirectLink.Signaling.Server
import DirectLink.Janitor.Sweep
import DirectLink.System
import DirectLink.Interleaving.Duties
import DirectLink.Interleaving.Ownership
import DirectLink.Client.CameraController
import DirectLink.Client.CameraRequests
import DirectLink.Client.DirectorTransport
import DirectLink.Client.TransportOrder
import DirectLink.Client.VideoPipeline
import DirectLink.Interleaving.ClosedFinal
import DirectLink.Interleaving.CompleteHashes
import DirectLink.Interleaving.Gauge
import DirectLink.Interleaving.RoomCodes
import DirectLink.Interleaving.SweepLock
import DirectLink.Interleaving.Teardown
import DirectLink.Lib.Commute
import DirectLink.Lib.Repeat
import DirectLink.Session.Apart
import DirectLink.Session.Commuting
import DirectLink.Session.Indexes
import DirectLink.Session.Retries
import DirectLink.Signaling.AllOrNothing
import DirectLink.Signaling.CameraJoin
import DirectLink.Signaling.CloseSession
import DirectLink.Signaling.Lifecycle
import DirectLink.Lib.Rounding
import DirectLink.Client.Timestamps
import DirectLink.Client.PipelineRuns
import DirectLink.Client.MainWindow
import DirectLink.Interleaving.Commands
import DirectLink.Interleaving.LockOwner
import DirectLink.Interleaving.CameraLimit
import DirectLink.Janitor.SweepAlone
import DirectLink.Janitor.ActiveSet
import DirectLink.Janitor.Expiry
import DirectLink.Signaling.Shutdown
import DirectLink.Lib.SortedMap
import DirectLink.Client.EncoderTimestamps
import DirectLink.Client.FrameCopies
import DirectLink.Client.DirectorView
import DirectLink.Client.CameraCapture
import DirectLink.Client.KeyframeRequests
import DirectLink.Session.RecordedRuns
import DirectLink.Session.Deletion
import DirectLink.Session.AccessLifetime
import DirectLink.Signaling.RoomCleanup
import DirectLink.Signaling.NotFound
import DirectLink.Signaling.RoomCodeDraws
import DirectLink.Session.RetryLoop
import DirectLink.Client.RoomCodeField
import DirectLink.Client.Bitrate
import DirectLink.Lib.Duration
import DirectLink.Signaling.Config
import DirectLink.Session.StoreReplies
import DirectLink.Session.StoreCommands
import DirectLink.Lib.Ledger
import DirectLink.Interleaving.Origins
import DirectLink.Interleaving.Backed
import DirectLink.Interleaving.Admission
import DirectLink.Interleaving.Counters
import DirectLink.Interleaving.Deadlines
import DirectLink.Signaling.Daemon
import DirectLink.Lib.Handles
import DirectLink.Client.Native
import DirectLink.Client.Holders
import DirectLink.Client.Resources
import DirectLink.Client.VideoTrack
import DirectLink.Client.Deployment
import DirectLink.Lib.Pointers
import DirectLink.Client.Decoders
import DirectLink.Client.Station
