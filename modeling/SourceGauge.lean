import SourceGauge.Failure.Making
import SourceGauge.Main
import SourceGauge.Metric.Spelling
import SourceGauge.Proofs.Aggregation.Independence
import SourceGauge.Proofs.Histogram.MergeTrees
import SourceGauge.Proofs.Histogram.RoundTrip
import SourceGauge.Proofs.Node.Queries
import SourceGauge.Proofs.Session.Histories
import SourceGauge.Proofs.Settings.Promises
import SourceGauge.Proofs.Store.Saving
import SourceGauge.Report
import SourceGauge.Proofs.Node.Reading
import SourceGauge.Proofs.Node.RoundTrip
import SourceGauge.Proofs.Aggregation.Rereading
import SourceGauge.Proofs.Histogram.MergeSums
import SourceGauge.Proofs.Number.Order
import SourceGauge.Proofs.Histogram.Lookup
import SourceGauge.Proofs.Histogram.Rejection
import SourceGauge.Proofs.Histogram.TextInjective
import SourceGauge.Proofs.Settings.LimitPriority
import SourceGauge.Proofs.Histogram.Finishing
import SourceGauge.Proofs.Histogram.SearchOrder
import SourceGauge.Proofs.Metric.Grammar
import SourceGauge.Proofs.Node.MetricEntries
import SourceGauge.Proofs.Node.Hierarchy
import SourceGauge.Proofs.Files.RelativePaths
import SourceGauge.Proofs.Node.Documents
import SourceGauge.Proofs.Settings.Validity
import SourceGauge.Proofs.Logging.Handlers
import SourceGauge.Proofs.Histogram.Acceptance
import SourceGauge.Proofs.Settings.Lists
