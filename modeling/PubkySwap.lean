import PubkySwap.Lib.Word
import PubkySwap.Lib.KeyedSum
import PubkySwap.Swap
import PubkySwap.RiskPrediction
import PubkySwap.Validate
import PubkySwap.ValidateArithmetic
import PubkySwap.HoldInvoice
import PubkySwap.ReverseVerdict
import PubkySwap.ClientReverseVerdict
import PubkySwap.SubmarineVerdict
import PubkySwap.ClientSubmarineVerdict
import PubkySwap.ClaimScript
import PubkySwap.SpendSize
import PubkySwap.ClientSpendVerdict
import PubkySwap.ClientPaymentVerdict
import PubkySwap.CapHistory
import PubkySwap.QuoteBook
import PubkySwap.QuoteBookRun
import PubkySwap.Admission
import PubkySwap.Reorg
import PubkySwap.RecordedFunding
import PubkySwap.NotedSpends
import PubkySwap.OwnSpendsVerdict
import PubkySwap.StuckVerdict
import PubkySwap.SwapListingVerdict
import PubkySwap.OutboxCapacity
import PubkySwap.OutboxJournal
import PubkySwap.AdmissionLocks
import PubkySwap.DispatchVerdict
import PubkySwap.PollingVerdict
import PubkySwap.FundsOnce
import PubkySwap.PaysOnce
import PubkySwap.PinnedFunding
import PubkySwap.InboxesVerdict
import PubkySwap.Deliveries
import PubkySwap.DeliveriesRun
import PubkySwap.DeliveriesVerdict
