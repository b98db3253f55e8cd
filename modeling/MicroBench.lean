import MicroBench.Main
import MicroBench.Script
import MicroBench.Sink.Writer
import MicroBench.Proofs.Record.RoundTrip
import MicroBench.Proofs.Sink.Delivery
import MicroBench.Proofs.Runner.Outcome
import MicroBench.Proofs.Record.Resolution
import MicroBench.Proofs.Record.Language
import MicroBench.Proofs.Record.RateOrder
import MicroBench.Proofs.Record.Verdict
import MicroBench.Proofs.Plugin.Output
import MicroBench.Proofs.Binary64.Scaling
import MicroBench.Proofs.Clock
import MicroBench.Proofs.Decimal.Fixed
import MicroBench.Proofs.Record.Figures
import MicroBench.Proofs.CommandLine.OptionOrder
import MicroBench.Proofs.Workload.Inputs
