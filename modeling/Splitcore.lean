import Splitcore.Banks.Listing
import Splitcore.Banks.Resolving
import Splitcore.Calendar.Date
import Splitcore.Calendar.Gregorian
import Splitcore.Dashboard.Earnings
import Splitcore.Dashboard.Pending
import Splitcore.Dashboard.Performers
import Splitcore.Dashboard.Takings
import Splitcore.Dashboard.Windows
import Splitcore.Encoding.Hex
import Splitcore.EntertainerAuth.Redeemed
import Splitcore.EntertainerAuth.Service
import Splitcore.EntertainerAuth.Superseded
import Splitcore.Http.Actors
import Splitcore.Http.Confirming
import Splitcore.Http.Consenting
import Splitcore.Http.Controllers
import Splitcore.Http.Documents
import Splitcore.Http.Effects
import Splitcore.Http.Exchanges
import Splitcore.Http.Isolated
import Splitcore.Http.LockedOut
import Splitcore.Http.Performing
import Splitcore.Http.Privileges
import Splitcore.Http.Routes
import Splitcore.Http.Server
import Splitcore.Http.Services
import Splitcore.Interleaving.Alike
import Splitcore.Interleaving.Errors
import Splitcore.Interleaving.History
import Splitcore.Interleaving.Inputs
import Splitcore.Interleaving.Once
import Splitcore.Interleaving.Outcome
import Splitcore.Interleaving.Recording
import Splitcore.Interleaving.Sequential
import Splitcore.Isolation.Alone
import Splitcore.Isolation.Guarantees
import Splitcore.Isolation.Promises
import Splitcore.Ledger.Reversals
import Splitcore.Money.Accepted
import Splitcore.Money.Apportioned
import Splitcore.Money.Atomic
import Splitcore.Money.Checkout
import Splitcore.Money.Claimed
import Splitcore.Money.Committed
import Splitcore.Money.Crowding
import Splitcore.Money.Dated
import Splitcore.Money.Delivered
import Splitcore.Money.Drained
import Splitcore.Money.Duties
import Splitcore.Money.Fencing
import Splitcore.Money.Figures
import Splitcore.Money.Gated
import Splitcore.Money.Incurred
import Splitcore.Money.Limited
import Splitcore.Money.Paid
import Splitcore.Money.Retries
import Splitcore.Money.Returned
import Splitcore.Money.Reversal
import Splitcore.Money.Statuses
import Splitcore.Money.Swept
import Splitcore.Onboarding.Onboarded
import Splitcore.Onboarding.Rejected
import Splitcore.Onboarding.Sequences
import Splitcore.Providers.Charged
import Splitcore.Providers.Cleared
import Splitcore.Providers.PaystackKyc
import Splitcore.Providers.PaystackPayment
import Splitcore.Providers.Wired
import Splitcore.QrCodes.Performing
import Splitcore.QrCodes.Replacing
import Splitcore.Reconciliation.Identities
import Splitcore.Redis.Retries
import Splitcore.Redis.Service
import Splitcore.Redis.Shutdown
import Splitcore.Relational.Limit
import Splitcore.Rounding.Doubles
import Splitcore.SplitRules.Alone
import Splitcore.SplitRules.Consent
import Splitcore.SplitRules.Proposals
import Splitcore.SplitRules.Shares
import Splitcore.SplitRules.Trail
import Splitcore.Webhooks.Authentic
import Splitcore.Webhooks.Completed
import Splitcore.Webhooks.Ingest
import Splitcore.Webhooks.Polled
import Splitcore.Webhooks.Remembered
import Splitcore.Webhooks.Signed
import Splitcore.Webhooks.Warranted
import Splitcore.Webhooks.Watched
