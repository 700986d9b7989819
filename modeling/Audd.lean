import Audd.BodyEncodings
import Audd.CallPlan
import Audd.CallbackBodies
import Audd.CurlCalls
import Audd.Decode
import Audd.DeprecationCode
import Audd.DoubleTexts
import Audd.EnterpriseAnchors
import Audd.ErrorCategory
import Audd.FormData
import Audd.FormEncoding
import Audd.GlobalInit
import Audd.Lifecycle
import Audd.LinkResolution
import Audd.LongpollClock
import Audd.LongpollRequests
import Audd.LongpollTeardown
import Audd.Md5Streaming
import Audd.Metering
import Audd.NullBlocks
import Audd.Preflight
import Audd.QueueHistory
import Audd.QueueMonitor
import Audd.RequestId
import Audd.SourceRequest
import Audd.Subscription
import Audd.TextFields
import Audd.TokenRotation
import Audd.TokenUse
import Audd.UrlParameters
import Audd.WireKeys
