import Mvua.RiskPool.Reconciliation
import Mvua.RiskPool.Seniority
import Mvua.RiskPool.Shares
import Mvua.RiskPool.Custody
import Mvua.RiskPool.Lifecycle
import Mvua.RiskPool.Settlement
import Mvua.OracleAdapter.Influence
import Mvua.OracleAdapter.Replay
import Mvua.OracleAdapter.Median
import Mvua.OracleAdapter.Registry
import Mvua.TriggerEngine.Lifecycle
import Mvua.TriggerEngine.Calendar
import Mvua.TriggerEngine.Curve
import Mvua.PayoutVault.Payments
import Mvua.PayoutVault.Withdrawals
import Mvua.PayoutVault.Books
import Mvua.PayoutVault.Backing
import Mvua.PayoutVault.Chunking
import Mvua.Policy.Premiums
import Mvua.Policy.Lifecycle
import Mvua.Policy.Housekeeping
import Mvua.Policy.Cancellation
import Mvua.Policy.Purchase
import Mvua.Policy.Batch
import Mvua.TriggerEngine.Payable
import Mvua.RiskPool.Pricing
import Mvua.RiskPool.Fees
import Mvua.RiskPool.Openness
import Mvua.RiskPool.Exactness
import Mvua.Feed.Dispute
import Mvua.RiskPool.Journal
import Mvua.Policy.Journal
import Mvua.PayoutVault.Journal
import Mvua.TriggerEngine.Journal
import Mvua.OracleAdapter.Journal
import Mvua.Protocol.Solvency
import Mvua.Protocol.Governance
import Mvua.Protocol.Evidence
import Mvua.Protocol.Isolation
import Mvua.Protocol.Drought
import Mvua.Protocol.Redemption
import Mvua.Protocol.Pause
import Mvua.Protocol.Timelock
