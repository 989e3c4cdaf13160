import Cellora.Lib.Except
import Cellora.Lib.Table
import Cellora.Lib.GroupBy
import Cellora.Lib.Machine
import Cellora.Lib.Numbered
import Cellora.Lib.Hex
import Cellora.Lib.Decimal
import Cellora.Lib.Base64
import Cellora.Lib.Keyset
import Cellora.Lib.TokenBucket
import Cellora.Lib.RedisList
import Cellora.Lib.Isolation
import Cellora.Lib.Cidr
import Cellora.Lib.Broadcast
import Cellora.Lib.Lease
import Cellora.Ckb.Types
import Cellora.Ckb.Ledger
import Cellora.Db.Models
import Cellora.Db.Tables
import Cellora.Db.Blocks
import Cellora.Db.Cells
import Cellora.Db.ApiKeys
import Cellora.Db.Users
import Cellora.Db.Sessions
import Cellora.Indexer.Parser
import Cellora.Indexer.Reorg
import Cellora.Indexer.Poller
import Cellora.Indexer.Stored
import Cellora.Indexer.Mirror
import Cellora.Indexer.Runs
import Cellora.Indexer.Stabilization
import Cellora.Indexer.Telemetry
import Cellora.Indexer.Utxo
import Cellora.Indexer.CommitAck
import Cellora.Indexer.Convergence
import Cellora.Indexer.ForkPoint
import Cellora.Indexer.ReorgAudit
import Cellora.Indexer.Lossless
import Cellora.Indexer.Events
import Cellora.Indexer.History
import Cellora.Api.Hex
import Cellora.Api.Pagination
import Cellora.Api.Registry
import Cellora.Api.Cells
import Cellora.Api.Walk
import Cellora.Api.Graphql
import Cellora.Api.Agreement
import Cellora.Api.Fidelity
import Cellora.Api.Blocks
import Cellora.Api.Gateway
import Cellora.Api.Holdings
import Cellora.Api.Subscription
import Cellora.Api.RateLimit
import Cellora.Api.Admission
import Cellora.Api.ClockSkew
import Cellora.Api.Promises
import Cellora.Api.Keys
import Cellora.Api.Auth
import Cellora.Api.RateLimitHeaders
import Cellora.Api.Staleness
import Cellora.Api.Lifecycle
import Cellora.Api.Mediation
import Cellora.Api.Metering
import Cellora.Api.Quota
import Cellora.Api.Tip
import Cellora.Api.RequestLog
import Cellora.Api.AdminCli
import Cellora.Api.OAuth
import Cellora.Api.OAuthState
import Cellora.Api.Webhooks
import Cellora.Api.PublicAddress
import Cellora.Api.Delivery
import Cellora.Api.Fanout
import Cellora.Api.Dispatch
import Cellora.Api.EventPath
import Cellora.Api.Dashboard
import Cellora.Api.Usage
import Cellora.Api.Tenancy
import Cellora.Api.Session
import Cellora.Api.SessionLife
