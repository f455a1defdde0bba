import CollectionInterfaces.CommandLine.Generate
import CollectionInterfaces.CommandLine.Publish
import CollectionInterfaces.Main
import CollectionInterfaces.Proofs.Disk.Growth
import CollectionInterfaces.Proofs.Disk.Walk
import CollectionInterfaces.Proofs.Disk.Operations
import CollectionInterfaces.Proofs.Disk.Waypoints
import CollectionInterfaces.Proofs.Disk.Making
import CollectionInterfaces.Proofs.Disk.Resolve
import CollectionInterfaces.Proofs.Generation.Run
import CollectionInterfaces.Proofs.Generation.Outcome
import CollectionInterfaces.Proofs.Generation.Order
import CollectionInterfaces.Proofs.Generation.Rerun
import CollectionInterfaces.Proofs.Generation.Failure
import CollectionInterfaces.Proofs.Generation.Containment
import CollectionInterfaces.Proofs.Generation.Resolution
import CollectionInterfaces.Proofs.CommandLine.Options
import CollectionInterfaces.Proofs.CommandLine.Generate
import CollectionInterfaces.Proofs.CommandLine.Rerun
import CollectionInterfaces.Proofs.CommandLine.Regeneration
import CollectionInterfaces.Proofs.Json.LongInteger
import CollectionInterfaces.Proofs.Schema.LoadFailure
import CollectionInterfaces.Proofs.CommandLine.Course
import CollectionInterfaces.Proofs.Json.Validity
import CollectionInterfaces.Proofs.Schema.Publication
import CollectionInterfaces.Proofs.Json.Writing
import CollectionInterfaces.Proofs.Schema.RoundTrip
import CollectionInterfaces.Proofs.Json.Atoms
import CollectionInterfaces.Proofs.Json.Places
import CollectionInterfaces.Proofs.Yaml.Flow.Atoms
import CollectionInterfaces.Proofs.Yaml.Flow.Lexemes
import CollectionInterfaces.Proofs.Yaml.Flow.Making
import CollectionInterfaces.Proofs.Yaml.Flow.Tokens
import CollectionInterfaces.Proofs.Schema.Notations
import CollectionInterfaces.Proofs.Interface.Bindings
import CollectionInterfaces.Proofs.Schema.Checking
import CollectionInterfaces.Proofs.Schema.Entries
import CollectionInterfaces.Proofs.Schema.Skeleton
import CollectionInterfaces.Proofs.Interface.Reading
import CollectionInterfaces.Proofs.Schema.Rendering
import CollectionInterfaces.Proofs.CommandLine.Flags
import CollectionInterfaces.Proofs.Generation.Placement
import CollectionInterfaces.Proofs.Interface.Recased
import CollectionInterfaces.Proofs.Schema.Relevance
import CollectionInterfaces.Proofs.Interface.Words
import CollectionInterfaces.Proofs.Interface.Identifier
import CollectionInterfaces.Proofs.Interface.Settled
import CollectionInterfaces.Proofs.Config
import CollectionInterfaces.Proofs.CommandLine.ExtraOptions
