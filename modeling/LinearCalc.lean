import LinearCalc.Log.Template
import LinearCalc.Main
import LinearCalc.Number.Quantity
import LinearCalc.Proofs.Acceptance
import LinearCalc.Proofs.Poisoning
import LinearCalc.Proofs.Termination
import LinearCalc.Proofs.Spans
import LinearCalc.View.TickLabel
import LinearCalc.Proofs.Composition
import LinearCalc.Proofs.Scanning
import LinearCalc.Proofs.Grammar.Limited
import LinearCalc.Proofs.Grammar.Skipping
import LinearCalc.Proofs.Nesting
import LinearCalc.Proofs.Sources.Nodes
import LinearCalc.Proofs.Sources
import LinearCalc.Proofs.Grammar.Replaced
import LinearCalc.Proofs.Gridlines
import LinearCalc.Proofs.Domain
import LinearCalc.Proofs.Layout
import LinearCalc.Proofs.Transposes
import LinearCalc.Proofs.Cellwise
import LinearCalc.Proofs.Products
import LinearCalc.Proofs.Carets
import LinearCalc.Proofs.Transposes.Values
import LinearCalc.Proofs.Carets.Search
import LinearCalc.Proofs.Powers
import LinearCalc.Proofs.Slots
import LinearCalc.Proofs.Lookahead
import LinearCalc.Proofs.Painting
import LinearCalc.Proofs.Plotting
import LinearCalc.Proofs.Viewports
import LinearCalc.Proofs.Spans.Results
import LinearCalc.Proofs.Formulas
import LinearCalc.Proofs.Floats.Order
import LinearCalc.Proofs.Labels
import LinearCalc.Proofs.PlotArguments
import LinearCalc.Proofs.Limits
import LinearCalc.Proofs.NestingLimit
