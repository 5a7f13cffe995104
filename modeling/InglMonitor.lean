import InglMonitor.TransitionRuns
import InglMonitor.BorshSchema
import InglMonitor.StateInstructionFormat
import InglMonitor.StateAccounts
import InglMonitor.ProgramVersionVerify
import InglMonitor.MonitorLostUpdate
import InglMonitor.MonitorQuiet
import InglMonitor.MonitorFinalized
import InglMonitor.MonitorContained
import InglMonitor.ProgramTracking
import InglMonitor.ProgramSelection
import InglMonitor.RegisterValidatorUnchanged
import InglMonitor.GovernanceParameters
import InglMonitor.AuthSignIn
import InglMonitor.UploadKept
import InglMonitor.UploadFits
import InglMonitor.ProgramVersionLatest
import InglMonitor.MonitorSeeds
import InglMonitor.ForwardRepeatable
import InglMonitor.LookupTableRetry
import InglMonitor.MonitorDocuments
import InglMonitor.MonitorConverges
import InglMonitor.StateFormats
import InglMonitor.ForwardArray
import InglMonitor.LookupTableResumed
import InglMonitor.RegisterTransaction
import InglMonitor.StateRegistration
import InglMonitor.AuthSession
import InglMonitor.ProgramAllocation
import InglMonitor.UploadRoute
