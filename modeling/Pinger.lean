import Pinger.Lib.Run
import Pinger.Lib.Timer
import Pinger.Lib.Fsm
import Pinger.Lib.Bytes
import Pinger.Session.Client
import Pinger.Session.Start
import Pinger.Session.Steps
import Pinger.Exchange.Response
import Pinger.Exchange.LongPoll
import Pinger.Session.Events
import Pinger.Session.Channels
import Pinger.Session.Results
import Pinger.Exchange.Sharing
import Pinger.Imap.LongPoll
import Pinger.Lib.Jobs
import Pinger.Exchange.Abandoned
import Pinger.Imap.Abandoned
import Pinger.Session.Shutdown
import Pinger.Imap.OneResult
import Pinger.Imap.Independence
import Pinger.Rpc.Ownership
import Pinger.Rpc.Requests
import Pinger.Rpc.Server
import Pinger.Rpc.Lock
import Pinger.Device.Info
import Pinger.Device.Push
import Pinger.Session.LoopHead
import Pinger.Session.Deferral
import Pinger.Session.Exit
import Pinger.Web.Identity
import Pinger.Web.Credentials
import Pinger.Web.Register
import Pinger.Web.Tokens
import Pinger.Lib.Serial
import Pinger.Imap.Serial
import Pinger.Telemetry.Writer
import Pinger.Lib.Table
import Pinger.Device.Store
import Pinger.Device.Endpoint
import Pinger.Rpc.Creation
import Pinger.Exchange.Classify
import Pinger.Exchange.OneResult
import Pinger.Lib.Numeral
import Pinger.Imap.Parse
import Pinger.Imap.Counts
import Pinger.Imap.Done
import Pinger.Imap.Deadline
import Pinger.Imap.Status
import Pinger.Device.Update
import Pinger.Imap.Tag
import Pinger.Rpc.Failure
import Pinger.Web.Atomic
import Pinger.Device.Alert
import Pinger.Device.Attributes
import Pinger.Session.Rearm
import Pinger.Session.Wait
import Pinger.Rpc.Admission
import Pinger.Rpc.Alone
import Pinger.Exchange.Redact
import Pinger.Device.Trim
import Pinger.Lib.Calendar
import Pinger.Lib.Json
import Pinger.Telemetry.Message
import Pinger.Telemetry.Line
import Pinger.Telemetry.Files
import Pinger.Telemetry.Rollback
import Pinger.Dynamo.Item
import Pinger.Dynamo.PingerInfo
import Pinger.Dynamo.Contact
import Pinger.Web.PushToken
import Pinger.Web.LogPrefix
import Pinger.Exchange.Backoff
import Pinger.Lib.Address
import Pinger.Lib.Format
import Pinger.Web.AliveCheck
import Pinger.Web.Reply
import Pinger.Lib.Panic
import Pinger.Rpc.Crash
import Pinger.Telemetry.Upload
import Pinger.Telemetry.Conserve
import Pinger.Lib.Versioned
import Pinger.Device.Contact
import Pinger.Web.Isolation
import Pinger.Web.Grants
import Pinger.Rpc.Sessions
import Pinger.Lib.JsonValue
import Pinger.Lib.Wire
import Pinger.Device.Payload
import Pinger.Device.Frame
