import OverlaySugar.Main
import OverlaySugar.Proofs.Balance
import OverlaySugar.Proofs.Expanded
import OverlaySugar.Proofs.Provenance
import OverlaySugar.Proofs.Reachable
import OverlaySugar.Proofs.Targets
import OverlaySugar.Proofs.Accounts
import OverlaySugar.Proofs.Strict
import OverlaySugar.Proofs.Force
import OverlaySugar.Proofs.Dropped
import OverlaySugar.Proofs.Grammar
import OverlaySugar.Proofs.Reconversion
import OverlaySugar.Proofs.Unwrapped
import OverlaySugar.Proofs.SideBySide
import OverlaySugar.Proofs.Composition
import OverlaySugar.Proofs.Remarks
import OverlaySugar.Proofs.Presentation
import OverlaySugar.Proofs.RootBlocks
import OverlaySugar.Proofs.Decoding
import OverlaySugar.Proofs.WrittenFiles
import OverlaySugar.Proofs.CommandLine
import OverlaySugar.Proofs.Endings
import OverlaySugar.Proofs.LogCalls
import OverlaySugar.Proofs.OverrideLists
import OverlaySugar.Proofs.ConversionLog
