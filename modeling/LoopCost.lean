import LoopCost.Main
import LoopCost.Proofs.Parser
import LoopCost.Proofs.Reaches
import LoopCost.Proofs.Descent
import LoopCost.Proofs.ScanTree
import LoopCost.Proofs.Nest
import LoopCost.Proofs.Pieces
import LoopCost.Proofs.Masking
import LoopCost.Proofs.Evidence
import LoopCost.Proofs.Boundary
import LoopCost.Proofs.Words
import LoopCost.Proofs.Occurrence
import LoopCost.Proofs.Search
import LoopCost.Proofs.Showing
import LoopCost.Proofs.Steps
import LoopCost.Proofs.Entry
import LoopCost.Proofs.Watching
import LoopCost.Proofs.Balance
import LoopCost.Proofs.Partner
import LoopCost.Proofs.LevelSplit
import LoopCost.Proofs.Independence
import LoopCost.Proofs.Directive
import LoopCost.Proofs.Ending
import LoopCost.Proofs.Mirror
import LoopCost.Proofs.Nesting
import LoopCost.Proofs.Spread
import LoopCost.Proofs.Spacing
import LoopCost.Proofs.Stretching
import LoopCost.Proofs.Calls
import LoopCost.Proofs.CallSites
import LoopCost.Proofs.Comment
import LoopCost.Proofs.Remasking
import LoopCost.Proofs.Separator
import LoopCost.Proofs.Cutting
import LoopCost.Proofs.Truncation
import LoopCost.Proofs.Trail
import LoopCost.Proofs.Keywords
import LoopCost.Proofs.Expression
import LoopCost.Proofs.Double
import LoopCost.Proofs.Verdict
import LoopCost.Proofs.Fault
import LoopCost.Proofs.Assignment
import LoopCost.Proofs.Rounding
import LoopCost.Proofs.Nearest
import LoopCost.Proofs.Decimal
import LoopCost.Proofs.Display
import LoopCost.Proofs.Sign
import LoopCost.Proofs.Overflow
import LoopCost.Proofs.Utf8
import LoopCost.Proofs.Exit
import LoopCost.Proofs.Ordered
import LoopCost.Proofs.Signed
import LoopCost.Proofs.HalfSum
import LoopCost.Proofs.ReadBack
import LoopCost.Proofs.Printed
import LoopCost.Proofs.Formula
import LoopCost.Proofs.Larger
