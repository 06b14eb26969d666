import Markiro.Registry.Arrival
import Markiro.Intake.Repeats
import Markiro.Intake.Refusals
import Markiro.Shifts.Totals
import Markiro.Feed.Paging
import Markiro.License.Emergency
import Markiro.License.Clock
import Markiro.License.Phases
import Markiro.Backups.Retention
import Markiro.Commercial.Cycles
import Markiro.Commercial.ExplicitTerms
import Markiro.Inventory.BoxInvariant
import Markiro.Inventory.DocumentAgreement
import Markiro.Delta.Walk
import Markiro.Labels.ZplMarkingCodes
import Markiro.Labels.ZplIsolation
import Markiro.Labels.TsplRoundTrip
import Markiro.Labels.Carriers
import Markiro.Labels.Wrapping
import Markiro.ProductLabels.Runs
import Markiro.Cloud.RetiredScans
import Markiro.Subscriptions.JobTiming
import Markiro.Subscriptions.Projection
import Markiro.InventorySync.Deliveries
import Markiro.InventorySync.PackedRuns
import Markiro.InventorySync.Polling
import Markiro.InventorySync.StoredAnswers
import Markiro.InventorySync.VoidRestore
import Markiro.Station.Journal
import Markiro.Station.Drain
import Markiro.Station.ScanQueue
import Markiro.Station.OperatorRoster
import Markiro.BoxReconciliation.Commits
import Markiro.InventoryJournal.Runs
import Markiro.Gtin.CheckDigits
import Markiro.License.Validity
import Markiro.Commercial.OfferAmounts
import Markiro.Host.History
import Markiro.License.TaxpayerNumbers
import Markiro.Grants.Budgets
import Markiro.Export.ReadBack
import Markiro.CloudSscc.StationLabels
