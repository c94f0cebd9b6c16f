import Altior.Domain.Masking
import Altior.Storage.Identity
import Altior.Storage.TurnDelivery
import Altior.Storage.Search
import Altior.Storage.Transaction
import Altior.Storage.Correction
import Altior.Context.Accounting
import Altior.Runtime.Redaction
import Altior.Runtime.Confirmation
import Altior.Application.Dispatch
import Altior.Application.Replies
import Altior.Application.Registry
import Altior.Application.Minting
import Altior.Application.Cancel
import Altior.Application.Summaries
import Altior.Application.Durability
import Altior.Ipc.Stability
import Altior.Ipc.Transport
import Altior.Acp.Delivery
import Altior.Acp.StopReasons
import Altior.Acp.Acknowledgement
import Altior.Acp.RoundTrip
import Altior.Ipc.Published
import Altior.Crypto.Lease
import Altior.Crypto.Tampering
import Altior.Crypto.Opening
import Altior.Sync.Compaction
import Altior.Sync.Forgotten
import Altior.Sync.Frontier
import Altior.Sync.Paging
import Altior.Sync.StateDigest
import Altior.Sync.HalfDone
import Altior.Sync.Transfer
import Altior.Desktop.Answers
import Altior.Desktop.Ledger
import Altior.Desktop.Replies
import Altior.Desktop.Subscription
import Altior.Desktop.Recovery
import Altior.Desktop.Facts
import Altior.Storage.Framing
import Altior.Storage.Protocol
import Altior.Crypto.Contexts
import Altior.Desktop.TimelineCache
import Altior.Desktop.VirtualWindow
