import Linewise.Main
import Linewise.Settings.Schema
import Linewise.Proofs.Reference
import Linewise.Proofs.FileSystem
import Linewise.Proofs.InPlace
import Linewise.Proofs.ReadFailure
import Linewise.Proofs.Encoding
import Linewise.Proofs.LimitedRoom
import Linewise.Proofs.FileLines
import Linewise.Proofs.Binary64
import Linewise.Proofs.Shortest
import Linewise.Proofs.Metrics
import Linewise.Proofs.Exposition
import Linewise.Proofs.Balance
import Linewise.Proofs.Accounting
import Linewise.Proofs.Attribution
import Linewise.Proofs.Variables
import Linewise.Proofs.Settings
import Linewise.Proofs.Layers
import Linewise.Proofs.Override
import Linewise.Proofs.Preflight
import Linewise.Proofs.Newlines
import Linewise.Proofs.Registry
import Linewise.Proofs.Reporting
import Linewise.Proofs.Reload
import Linewise.Proofs.LineLimit
import Linewise.Proofs.Cancellation
import Linewise.Proofs.Squeeze
import Linewise.Proofs.Delivery
import Linewise.Proofs.Logging
import Linewise.Proofs.SqueezedText
import Linewise.Proofs.Conversion
import Linewise.Proofs.Counters
import Linewise.Proofs.Size
import Linewise.Proofs.Table
import Linewise.Proofs.Splitting
import Linewise.Proofs.Quoted
