import Flowchart.Main
import Flowchart.Output.Request
import Flowchart.Shape.Desk
import Flowchart.Chart.StrandDesk
import Flowchart.Proofs.Lane.History
import Flowchart.Proofs.Lane.Refold
import Flowchart.Proofs.Chart.Bookings
import Flowchart.Proofs.Chart.Progress
import Flowchart.Proofs.Chart.Faithful
import Flowchart.Proofs.Chart.Spaced
import Flowchart.Proofs.Chart.Stacked
import Flowchart.Proofs.Chart.Routed
import Flowchart.Proofs.Chart.Margins
import Flowchart.Proofs.Chart.Nested
import Flowchart.Proofs.Chart.Pruned
import Flowchart.Proofs.Chart.Debugged
import Flowchart.Proofs.Chart.Fitted
import Flowchart.Proofs.Chart.Entered
import Flowchart.Proofs.Chart.DescendingFan
import Flowchart.Proofs.Shape.Inscribed
import Flowchart.Proofs.Shape.Recomputed
import Flowchart.Proofs.Json.Laws
import Flowchart.Proofs.Style.Overridden
import Flowchart.Proofs.Output.Depicted
import Flowchart.Proofs.Output.Fronts
import Flowchart.Proofs.Output.Fenced
import Flowchart.Proofs.Command.Directory
import Flowchart.Proofs.Measure.Remembered
import Flowchart.Proofs.Pseudocode.Orderly
import Flowchart.Proofs.Pseudocode.Inserted
import Flowchart.Proofs.Pseudocode.Blamed
