import AnnotationCache.Annotation
import AnnotationCache.Annotation.Read
import AnnotationCache.CommandLine.Arguments
import AnnotationCache.CommandLine.Failure
import AnnotationCache.CommandLine.Options
import AnnotationCache.CommandLine.Run
import AnnotationCache.CommandLine.Usage
import AnnotationCache.CommandLine.Verbosity
import AnnotationCache.Dict
import AnnotationCache.Digest.Sha256
import AnnotationCache.Double
import AnnotationCache.Double.Shortest
import AnnotationCache.Error
import AnnotationCache.Files.Access
import AnnotationCache.Files.Disk
import AnnotationCache.Files.Path
import AnnotationCache.Files.Tree
import AnnotationCache.Json.Decode
import AnnotationCache.Json.Numeral
import AnnotationCache.Json.Problem
import AnnotationCache.Json.Render
import AnnotationCache.Json.Tree
import AnnotationCache.Json.Tree.Read
import AnnotationCache.Json.Value
import AnnotationCache.Main
import AnnotationCache.Manifest
import AnnotationCache.Manifest.Load
import AnnotationCache.Manifest.Read
import AnnotationCache.Reading.Cached
import AnnotationCache.Reading.Collaborators
import AnnotationCache.Reading.Declared
import AnnotationCache.Reading.Dialogue
import AnnotationCache.Reading.Freshness
import AnnotationCache.Record
import AnnotationCache.Record.Format
import AnnotationCache.Report
import AnnotationCache.Store.Access
import AnnotationCache.Store.Folder
import AnnotationCache.Store.Key
import AnnotationCache.Store.Map
import AnnotationCache.Store.Memory
import AnnotationCache.Store.Value
import AnnotationCache.Text.Quoted
import AnnotationCache.Text.Visible
import AnnotationCache.Types.Closure
import AnnotationCache.Types.Descriptor
import AnnotationCache.Types.Member
import AnnotationCache.Types.Name
import AnnotationCache.Types.Registry
import AnnotationCache.Word
import AnnotationCache.Yaml.BlockScalar
import AnnotationCache.Yaml.Cursor
import AnnotationCache.Yaml.Decode
import AnnotationCache.Yaml.Document
import AnnotationCache.Yaml.Folding
import AnnotationCache.Yaml.Node
import AnnotationCache.Yaml.Scalar
import AnnotationCache.Yaml.Tag
import AnnotationCache.Yaml.Token
import AnnotationCache.Yaml.Tokenizer
import AnnotationCache.Proofs.Types.Name
import AnnotationCache.Proofs.Types.Registered
import AnnotationCache.Proofs.Types.Reach
import AnnotationCache.Proofs.Types.Walk
import AnnotationCache.Proofs.Types.Search
import AnnotationCache.Proofs.Types.Nearest
import AnnotationCache.Proofs.Types.Lookup
import AnnotationCache.Proofs.Types.Plain
import AnnotationCache.Proofs.Types.Precedence
import AnnotationCache.Proofs.Types.Order
import AnnotationCache.Proofs.Types.Offered
import AnnotationCache.Proofs.Reading.Locality
import AnnotationCache.Proofs.Reading.Latest
import AnnotationCache.Proofs.Store.Key
import AnnotationCache.Proofs.Store.Recorded
import AnnotationCache.Proofs.Reading.Course
import AnnotationCache.Proofs.Reading.Declined
import AnnotationCache.Proofs.Reading.World
import AnnotationCache.Proofs.Reading.Staleness
import AnnotationCache.Proofs.Reading.Standstill
import AnnotationCache.Proofs.Reading.Timeline
import AnnotationCache.Proofs.Reading.Interleaving
import AnnotationCache.Proofs.Reading.Refinement
import AnnotationCache.Proofs.Reading.LiveFiles
import AnnotationCache.Proofs.Reading.Age
import AnnotationCache.Proofs.Reading.Editions
import AnnotationCache.Proofs.Files.Walk
import AnnotationCache.Proofs.Requests
import AnnotationCache.Proofs.Json.Scalar
import AnnotationCache.Proofs.Json.Value
import AnnotationCache.Proofs.Json.Text
import AnnotationCache.Proofs.Json.Spelling
import AnnotationCache.Proofs.Json.Meaning
import AnnotationCache.Proofs.Json.Canonical
import AnnotationCache.Proofs.Annotation
import AnnotationCache.Proofs.Json.Numeral
import AnnotationCache.Proofs.Record
import AnnotationCache.Proofs.Json.Reading
import AnnotationCache.Proofs.Json.Record
import AnnotationCache.Proofs.Store.Entry
import AnnotationCache.Proofs.Files.Path
import AnnotationCache.Proofs.Files.Folder
import AnnotationCache.Proofs.Store.Folder
import AnnotationCache.Proofs.Reading.Backends
import AnnotationCache.Proofs.Files.Written
import AnnotationCache.Proofs.Store.RoundTrip
import AnnotationCache.Proofs.Store.Clearing
import AnnotationCache.Proofs.Double.Finite
import AnnotationCache.Proofs.Store.History
import AnnotationCache.Proofs.Yaml.Reading
import AnnotationCache.Proofs.Manifest.Spelled
import AnnotationCache.Proofs.Manifest.Declared
import AnnotationCache.Proofs.Reading.Spelling
import AnnotationCache.Proofs.Reading.Calls
import AnnotationCache.Proofs.Reading.Memo
import AnnotationCache.Proofs.Reading.Trusted
import AnnotationCache.Proofs.Reading.Minutes
import AnnotationCache.Proofs.Reading.Protocol
import AnnotationCache.Proofs.Reading.Setback
import AnnotationCache.Proofs.Reading.LeftOut
import AnnotationCache.Proofs.Manifest.Loading
import AnnotationCache.Proofs.Reading.Answered
import AnnotationCache.Proofs.Store.Usable
import AnnotationCache.Proofs.CommandLine.Run
import AnnotationCache.Proofs.CommandLine.Repeated
import AnnotationCache.Proofs.Report
