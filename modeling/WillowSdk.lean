import WillowSdk.Errors
import WillowSdk.Lib.Outcome
import WillowSdk.Machine
import WillowSdk.Lib.Merkle
import WillowSdk.Lib.Hex
import WillowSdk.Lib.Joined
import WillowSdk.Lib.Markers
import WillowSdk.Lib.BigEndian
import WillowSdk.Lib.Rlp
import WillowSdk.Lib.Text
import WillowSdk.Lib.Ranked
import WillowSdk.Lib.Runs
import WillowSdk.Lib.OrderedMap
import WillowSdk.Lib.Tally
import WillowSdk.Lib.Utf8
import WillowSdk.Lib.Delimited
import WillowSdk.Lib.Chunked
import WillowSdk.Lib.Foremost
import WillowSdk.Lib.JsonText
import WillowSdk.Lib.BitStream
import WillowSdk.Lib.HashLevels
import WillowSdk.HttpBody
import WillowSdk.JsonBudget
import WillowSdk.JsonScan
import WillowSdk.JsonCost
import WillowSdk.Grove.Layer
import WillowSdk.Grove.ScanGrammar
import WillowSdk.Grove.Ops
import WillowSdk.Grove.OpsTree
import WillowSdk.Grove.Verify
import WillowSdk.Grove.Descended
import WillowSdk.Grove.Encoding
import WillowSdk.Grove.Contract
import WillowSdk.Grove.State
import WillowSdk.Grove.Binding
import WillowSdk.Grove.Ambiguity
import WillowSdk.Grove.OwnChecks
import WillowSdk.Grove.Served
import WillowSdk.Grove.OnlyPath
import WillowSdk.Nonces
import WillowSdk.NonceState
import WillowSdk.NonceRuns
import WillowSdk.LightClient
import WillowSdk.LatestHeight
import WillowSdk.Headers
import WillowSdk.VotingPower
import WillowSdk.HeaderStore
import WillowSdk.PowerCheck
import WillowSdk.HeaderSync
import WillowSdk.Data
import WillowSdk.VerifiedReads
import WillowSdk.SignedMessages
import WillowSdk.InlineMessages
import WillowSdk.EthState
import WillowSdk.EthReads
import WillowSdk.Lib.Slots
import WillowSdk.TokenReads
import WillowSdk.EthCalls
import WillowSdk.Completeness
import WillowSdk.Files
import WillowSdk.FileTransfer
import WillowSdk.ManifestSizes
import WillowSdk.MerkleRoot
import WillowSdk.UploadChecks
import WillowSdk.Indexers
import WillowSdk.Subscriptions
import WillowSdk.Failover
import WillowSdk.Reconnects
import WillowSdk.VerifiableRpc
import WillowSdk.Continuity
import WillowSdk.Consensus
import WillowSdk.NonceFlights
import WillowSdk.NonceHistory
import WillowSdk.NonceLimit
import WillowSdk.GivenBack
import WillowSdk.Rebroadcasts
import WillowSdk.TxPolls
import WillowSdk.Refusals
import WillowSdk.Retries
import WillowSdk.DidRotation
import WillowSdk.RotateDid
import WillowSdk.Requests
import WillowSdk.KeyUses
import WillowSdk.ChainReads
import WillowSdk.NonceChain
import WillowSdk.SocketFrames
import WillowSdk.HeaderRestarts
import WillowSdk.Routing
