import Iec61850.CertificatesV1
import Iec61850.Asn1Cursor
import Iec61850.CommandRuns
import Iec61850.ControlOutcome
import Iec61850.Directory
import Iec61850.GooseSupervision
import Iec61850.GooseTracker
import Iec61850.LinkRuns
import Iec61850.ObtainRuns
import Iec61850.OsiFraming
import Iec61850.RSessionReplayRuns
import Iec61850.ReportBuffer
import Iec61850.ReportOrigins
import Iec61850.ServerCancel
import Iec61850.ServerHoldings
import Iec61850.ServerReads
import Iec61850.ServerTimers
import Iec61850.SettingRuns
import Iec61850.TimeEncodings
import Iec61850.MmsCalls
import Iec61850.SampledRuns
