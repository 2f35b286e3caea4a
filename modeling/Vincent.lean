import Vincent.General.Run
import Vincent.General.LinkedChain
import Vincent.Mesh.Replay
import Vincent.Mesh.ForkAdmission
import Vincent.Mesh.Durability
import Vincent.Mesh.PeerSync
import Vincent.Mesh.History
import Vincent.Mesh.Validate
import Vincent.Mesh.Sequences
import Vincent.Mesh.Heads
import Vincent.Mesh.Revoked
import Vincent.Mesh.Persisted
import Vincent.Mesh.Ibf
import Vincent.Mesh.Push
import Vincent.Mesh.GateDurable
import Vincent.Economy.Conservation
import Vincent.Economy.Lifecycle
import Vincent.Economy.Dispute
import Vincent.Economy.GateShutdown
import Vincent.Economy.DslExecutor
import Vincent.Economy.Upgrade
import Vincent.Economy.Finality
import Vincent.Economy.Commitment
import Vincent.Economy.Symmetry
import Vincent.Economy.Decided
import Vincent.Economy.Entries
import Vincent.Economy.Merge
import Vincent.Dm.Persistence
import Vincent.Dm.Nonces
import Vincent.Dm.SenderCap
import Vincent.Dm.Shared
import Vincent.Dm.Parked
import Vincent.Dm.Conversation
import Vincent.Dm.Rejected
import Vincent.Auth.OpenClaw
import Vincent.Signed.RevocationCache
import Vincent.Signed.WriteGuard
import Vincent.Signed.OneMeaning
import Vincent.Prekey.Bootstrap
import Vincent.Prekey.Bundle
import Vincent.Contacts.Trust
import Vincent.Contacts.Roots
import Vincent.Contacts.Transparency
import Vincent.Contacts.AliasFrames
import Vincent.Contacts.AliasLane
import Vincent.Mesh.Swarm
import Vincent.Mesh.Served
import Vincent.Mesh.SyncCycle
import Vincent.Mesh.Patience
import Vincent.Python.AsciiJson
import Vincent.Root.Manifest
import Vincent.Root.Witnesses
import Vincent.Root.Record
import Vincent.Root.Honest
import Vincent.Root.Ideal
import Vincent.Root.Pinned
import Vincent.Root.Ledger
import Vincent.Root.Exports
import Vincent.Root.Quorum
import Vincent.Mesh.MerkleRoots
import Vincent.Mesh.ForkOrder
import Vincent.Mesh.Refused
import Vincent.Mesh.MerkleCache
import Vincent.Mesh.DeltaSync
import Vincent.Mesh.Outbox
import Vincent.Mesh.Delivered
import Vincent.Mesh.SyncQuorum
import Vincent.Mesh.Decisions
import Vincent.Mesh.Incremental
import Vincent.Oracle.Ledger
import Vincent.Oracle.Balances
import Vincent.Oracle.Solvent
import Vincent.General.OrderStatistics
import Vincent.Economy.DisputeSettlement
import Vincent.Economy.StakedSettlement
import Vincent.Economy.MajorityTime
import Vincent.Economy.PhaseAdvice
import Vincent.Economy.VoteWeights
import Vincent.Economy.LateSignatures
import Vincent.Economy.PredictorExclusion
import Vincent.Economy.FloatResolution
import Vincent.Economy.BadStakes
import Vincent.General.Peeling
import Vincent.Mesh.IbfExact
import Vincent.Mesh.GateSegments
import Vincent.Economy.EvidenceIdentity
import Vincent.Dm.Padding
import Vincent.Signed.SequenceDomains
import Vincent.Signed.Acknowledged
import Vincent.General.Paging
import Vincent.Dm.Paged
import Vincent.Dm.Repeated
import Vincent.Dm.Interleaved
import Vincent.Economy.AntiGaming
import Vincent.Mesh.VoteLedger
import Vincent.Mesh.CurrentScores
import Vincent.Mesh.ReplayWindow
import Vincent.Mesh.OrderedIngest
import Vincent.Mesh.SyncReply
import Vincent.Mesh.LinkedPairs
import Vincent.Mesh.PeerInstall
import Vincent.Contacts.AliasPayload
import Vincent.Contacts.InviteLookup
import Vincent.Mesh.Shards
