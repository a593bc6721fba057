import PolicyWarden.Blank
import PolicyWarden.Cache.Counters
import PolicyWarden.Cache.Effect
import PolicyWarden.Cache.Snapshot
import PolicyWarden.Cache.Store
import PolicyWarden.Calendar
import PolicyWarden.Cedar.Compiler
import PolicyWarden.Cedar.Document
import PolicyWarden.Cedar.Evaluation
import PolicyWarden.Cedar.Expression
import PolicyWarden.Cedar.Extension
import PolicyWarden.Cedar.Meaning
import PolicyWarden.Cedar.Parser
import PolicyWarden.Cedar.Phrase
import PolicyWarden.Cedar.PolicyText
import PolicyWarden.Cedar.Schema
import PolicyWarden.Cedar.SchemaMeaning
import PolicyWarden.Cedar.SchemaText
import PolicyWarden.Cedar.Text
import PolicyWarden.Cedar.Token
import PolicyWarden.Cedar.Typing
import PolicyWarden.Cedar.Validation
import PolicyWarden.Cedar.Value
import PolicyWarden.Cluster.Address
import PolicyWarden.Cluster.Fetch
import PolicyWarden.CommandLine.Help
import PolicyWarden.CommandLine.Reading
import PolicyWarden.CommandLine.Settings
import PolicyWarden.CommandLine.Startup
import PolicyWarden.Delay
import PolicyWarden.Dispatch.Call
import PolicyWarden.Dispatch.Intake
import PolicyWarden.Failure
import PolicyWarden.Identity
import PolicyWarden.Json.Basic
import PolicyWarden.Json.Decoding
import PolicyWarden.Json.Parser
import PolicyWarden.Json.Printer
import PolicyWarden.Main
import PolicyWarden.Number.Shortest
import PolicyWarden.Number.Width
import PolicyWarden.Proofs.Execution
import PolicyWarden.Proofs.Reconcile.Advance
import PolicyWarden.Proofs.Reconcile.Concurrent
import PolicyWarden.Proofs.Reconcile.Effects
import PolicyWarden.Proofs.Reconcile.Footprint
import PolicyWarden.Proofs.Reconcile.Cancellation
import PolicyWarden.Proofs.Reconcile.Course
import PolicyWarden.Proofs.Reconcile.Order
import PolicyWarden.Proofs.Reconcile.History
import PolicyWarden.Reconcile
import PolicyWarden.Resource.Manifest
import PolicyWarden.Resource.Metadata
import PolicyWarden.Resource.Policy
import PolicyWarden.Retry
import PolicyWarden.Scenario.ApiServer
import PolicyWarden.Scenario.CacheSession
import PolicyWarden.Scenario.ClusterSession
import PolicyWarden.Scenario.Folder
import PolicyWarden.Scenario.HeldSource
import PolicyWarden.Scenario.Rehearsal
import PolicyWarden.Scenario.Surroundings
import PolicyWarden.Scenario.World
import PolicyWarden.Table
import PolicyWarden.Timestamp
import PolicyWarden.Watch.Relist
import PolicyWarden.Watch.Watcher
import PolicyWarden.Yaml.Printer
import PolicyWarden.Proofs.Snapshot.Freshness
import PolicyWarden.Proofs.Dispatch.Turn
import PolicyWarden.Proofs.Dispatch.Concurrent
import PolicyWarden.Proofs.Dispatch.InFlight
import PolicyWarden.Proofs.Dispatch.Record
import PolicyWarden.Proofs.Dispatch.Coverage
import PolicyWarden.Proofs.Dispatch.Admission
import PolicyWarden.Proofs.Dispatch.Remembrance
import PolicyWarden.Proofs.Dispatch.Exclusion
import PolicyWarden.Proofs.Snapshot.Passage
import PolicyWarden.Proofs.Snapshot.Publication
import PolicyWarden.Proofs.Snapshot.Tally
import PolicyWarden.Proofs.Snapshot.Flight
import PolicyWarden.Proofs.Reconcile.Memoized
import PolicyWarden.Proofs.Dispatch.Clearing
import PolicyWarden.Proofs.Watch.Controlling
import PolicyWarden.Proofs.Watch.Relisting
import PolicyWarden.Proofs.Watch.Outage
import PolicyWarden.Proofs.Snapshot.Monotone
import PolicyWarden.Proofs.Dispatch.Occupancy
import PolicyWarden.Proofs.Dispatch.Serving
import PolicyWarden.Proofs.Dispatch.Ending
import PolicyWarden.Proofs.Dispatch.Workload
import PolicyWarden.Proofs.Dispatch.Perseverance
import PolicyWarden.Proofs.Reconcile.Bookkeeping
import PolicyWarden.Proofs.Reconcile.Balance
import PolicyWarden.Proofs.Watch.Listing
import PolicyWarden.Proofs.Reconcile.Redelivery
import PolicyWarden.Proofs.Retry.LastCall
import PolicyWarden.Proofs.Dispatch.Rerun
import PolicyWarden.Proofs.Cluster.Naming
import PolicyWarden.Proofs.Dispatch.Stranding
import PolicyWarden.Proofs.Store.Arrangement
import PolicyWarden.Proofs.Store.Mapping
import PolicyWarden.Proofs.Resource.RoundTrip
import PolicyWarden.Proofs.Json.Members
