import Luwes.Lib.LabelledRun
import Luwes.Sahl.Program
import Luwes.Shared.Api
import Luwes.Lib.History
import Luwes.Lib.ObjectPool
import Luwes.Sahl.Applied
import Luwes.Sahl.BodyAware
import Luwes.Sahl.Isolation
import Luwes.Sahl.Metrics
import Luwes.Sahl.Observer
import Luwes.Sahl.ResponseBody
import Luwes.AbiImpl.Callbacks
import Luwes.AbiImpl.HandlePool
import Luwes.AbiImpl.SharedData
import Luwes.Buffer.Ring
import Luwes.Sahl.DoContents
import Luwes.Sahl.NilWriter
import Luwes.Sahl.Process
import Luwes.Sahl.StreamDone
import Luwes.Sahl.CarryOver
import Luwes.Buffer.HeadTail
import Luwes.Buffer.Termination
import Luwes.Sahl.GoContext
import Luwes.Sahl.LocalReplyDetails
import Luwes.Sahl.ObserverCalls
import Luwes.AbiImpl.Config
import Luwes.AbiImpl.Span
import Luwes.Sahl.HostStrings
import Luwes.Sahl.PassedStrings
import Luwes.Sahl.HeaderReaders
import Luwes.Sahl.RequestBody
import Luwes.AbiImpl.ManagerThreads
import Luwes.Sahl.DirectStyle
import Luwes.Sahl.Continuations
import Luwes.Examples.MemStore
import Luwes.Examples.Sink
import Luwes.Examples.SseTap
import Luwes.Examples.Decoder
import Luwes.Examples.LlmProxy
import Luwes.Examples.RequestLogger
import Luwes.Examples.RequestUi
import Luwes.Examples.HeaderAuth
import Luwes.Examples.Spa
import Luwes.Examples.CalloutFilters
import Luwes.Examples.ErrorHandling
