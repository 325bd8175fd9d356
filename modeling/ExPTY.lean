import ExPTY.Proofs.CommandLineRoundTrip
import ExPTY.Proofs.ServerWrites
import ExPTY.Proofs.SmartCellTracking
import ExPTY.Proofs.SignalSafety
import ExPTY.Proofs.LaunchProtocol
import ExPTY.Descriptors
import ExPTY.Slots
import ExPTY.Spawning
import ExPTY.Proofs.DescriptorOwnership
import ExPTY.Proofs.SessionIsolation
import ExPTY.OwnerCell
import ExPTY.Proofs.OwnerCellLifetime
import ExPTY.Proofs.SpawnAccounting
import ExPTY.SmartCellStart
import ExPTY.Proofs.SmartCellDelivery
import ExPTY.Proofs.ProcessTable
import ExPTY.Termios
import ExPTY.NativeCalls
import ExPTY.SharedDescriptor
import ExPTY.Proofs.ClosedDescriptor
import ExPTY.Terminal
import ExPTY.Proofs.TerminalRuns
import ExPTY.Proofs.FlowControl
import ExPTY.Proofs.ResizeTracking
import ExPTY.Proofs.TerminalAgreement
import ExPTY.Base64
import ExPTY.Page
import ExPTY.Proofs.KeyboardPath
import ExPTY.Delimited
import ExPTY.Handover
import ExPTY.Proofs.FaithfulHandover
import ExPTY.EnvironmentBlock
import ExPTY.Proofs.FaithfulEnvironment
import ExPTY.Callbacks
import ExPTY.Start
import ExPTY.Proofs.CallbackChecks
import ExPTY.Proofs.SpawnContract
import ExPTY.Proofs.MessageClauses
import ExPTY.WriteCall
import ExPTY.Proofs.ResendLaw
import ExPTY.Proofs.WriteTermination
import ExPTY.Proofs.ReaderSafety
import ExPTY.Proofs.TerminalSettings
import ExPTY.Credentials
import ExPTY.Proofs.CredentialOrder
import ExPTY.Proofs.DescriptorPlumbing
import ExPTY.Proofs.QuoteEscaping
import ExPTY.Proofs.ShellLookup
import ExPTY.Proofs.ExitReport
import ExPTY.Proofs.WindowSizes
import ExPTY.ConptyWrite
import ExPTY.Proofs.WriteMutex
import ExPTY.Proofs.WriteOrder
import ExPTY.OutputPath
import ExPTY.PageButton
import ExPTY.Proofs.ButtonAgreement
import ExPTY.Proofs.ScreenOutput
import ExPTY.Proofs.Shutdown
import ExPTY.Decimal
import ExPTY.NifTerms
import ExPTY.SpawnPath
import ExPTY.Proofs.TermDecoding
import ExPTY.Proofs.SpawnOptions
import ExPTY.SessionResource
import ExPTY.Proofs.ResourceLifetime
import ExPTY.ConptySessions
import ExPTY.Proofs.ConsoleIsolation
import ExPTY.DescriptorReuse
import ExPTY.Proofs.DescriptorIsolation
import ExPTY.ConptyPath
import ExPTY.Proofs.ConsoleStart
import ExPTY.PageSize
import ExPTY.Proofs.SizeAgreement
import ExPTY.NativeTable
import ExPTY.Proofs.NativeDispatch
import ExPTY.InputPath
import ExPTY.Proofs.KeysInOrder
import ExPTY.SessionQueue
import ExPTY.Proofs.ServerRefinement
import ExPTY.Proofs.StuckWrite
import ExPTY.Proofs.ConsoleNames
