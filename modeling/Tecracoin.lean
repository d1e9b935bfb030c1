import Tecracoin.Sigma.FailedConnect
import Tecracoin.Sigma.AnonymitySet
import Tecracoin.Sigma.Groups
import Tecracoin.Sigma.Disconnect
import Tecracoin.Sigma.Surge
import Tecracoin.Validation.Value
import Tecracoin.Validation.Undo
import Tecracoin.Db.EvoDb
import Tecracoin.Llmq.RootCache
import Tecracoin.Mempool.Spends
import Tecracoin.Mempool.Mineable
import Tecracoin.Elysium.Freeze
import Tecracoin.Elysium.Sends
import Tecracoin.Elysium.Fundraiser
import Tecracoin.Elysium.MetaDExReserves
import Tecracoin.Elysium.DExReserves
import Tecracoin.Elysium.Snapshots
import Tecracoin.Elysium.PacketEncoder
import Tecracoin.SigmaPlus.Completeness
import Tecracoin.SigmaPlus.CoinSpend
import Tecracoin.Validation.Payees
import Tecracoin.Llmq.Votes
import Tecracoin.Llmq.BatchVerify
import Tecracoin.Validation.CheckBlock
import Tecracoin.Elysium.Pending
import Tecracoin.Bls.Contributions
import Tecracoin.Mtp.Verify
import Tecracoin.Evo.Connections
import Tecracoin.Elysium.Records
import Tecracoin.Primitives.BlockHeader
import Tecracoin.Validation.SkipList
