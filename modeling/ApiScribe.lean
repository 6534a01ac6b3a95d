import ApiScribe.Document.File
import ApiScribe.Document.Same
import ApiScribe.Recording.Run
import ApiScribe.Recording.Union
import ApiScribe.Proofs.Members
import ApiScribe.Proofs.Schema.Join
import ApiScribe.Proofs.Schema.Sample
import ApiScribe.Proofs.Schema.Cover
import ApiScribe.Proofs.Schema.Absorb
import ApiScribe.Proofs.Template.Match
import ApiScribe.Proofs.Template.Resolve
import ApiScribe.Proofs.Template.Placeholder
import ApiScribe.Proofs.Template.Cut
import ApiScribe.Proofs.Template.Filling
import ApiScribe.Proofs.Template.Uuid
import ApiScribe.Proofs.Recording.Evidence
import ApiScribe.Proofs.Recording.History
import ApiScribe.Proofs.Recording.Absorption
import ApiScribe.Proofs.Recording.Digest
import ApiScribe.Proofs.Recording.Reference
import ApiScribe.Proofs.Schema.Outline
import ApiScribe.Proofs.Schema.Rejoin
import ApiScribe.Proofs.Schema.Sides
import ApiScribe.Proofs.Schema.Growth
import ApiScribe.Proofs.Recording.Union
import ApiScribe.Proofs.Recording.Parameters
import ApiScribe.Proofs.Recording.Singles
import ApiScribe.Proofs.Recording.Cells
import ApiScribe.Proofs.Recording.SideBySide
import ApiScribe.Proofs.Schema.Sound
import ApiScribe.Proofs.Schema.Showable
import ApiScribe.Proofs.Schema.Joint
import ApiScribe.Proofs.Schema.Run
import ApiScribe.Proofs.Traffic.Body
import ApiScribe.Proofs.Recording.Recorded
import ApiScribe.Proofs.Recording.Reachable
import ApiScribe.Proofs.Recording.Idempotence
import ApiScribe.Proofs.Recording.CellWise
import ApiScribe.Proofs.Recording.Failure
import ApiScribe.Proofs.Recording.Skipping
import ApiScribe.Proofs.Recording.Distinct
import ApiScribe.Proofs.Recording.Declared
import ApiScribe.Proofs.Recording.Independence
import ApiScribe.Proofs.Recording.Growth
import ApiScribe.Proofs.Data.Json
import ApiScribe.Proofs.Validation.Fields
import ApiScribe.Proofs.Document.Extras
import ApiScribe.Proofs.Document.Reads
import ApiScribe.Proofs.Document.Parse
import ApiScribe.Proofs.Document.Shown
import ApiScribe.Proofs.Document.Restore
import ApiScribe.Proofs.Document.Contains
import ApiScribe.Proofs.Document.Lossless
import ApiScribe.Proofs.Document.Depth
import ApiScribe.Proofs.Number.Nearest
import ApiScribe.Proofs.Number.Shortest
import ApiScribe.Proofs.Number.Written
import ApiScribe.Proofs.Number.Whole
import ApiScribe.Proofs.Schema.Exact
import ApiScribe.Proofs.Text.Utf8
import ApiScribe.Proofs.Json.Written
import ApiScribe.Proofs.Json.RoundTrip
import ApiScribe.Proofs.Recording.BodyForm
import ApiScribe.Proofs.Yaml.Literal
import ApiScribe.Proofs.Yaml.Steps
import ApiScribe.Proofs.Yaml.Quoted
import ApiScribe.Proofs.Yaml.Tree
import ApiScribe.Proofs.Yaml.Steady
import ApiScribe.Proofs.Yaml.Flow
import ApiScribe.Proofs.Yaml.Text
import ApiScribe.Proofs.Yaml.Scalar
import ApiScribe.Proofs.Yaml.Block
import ApiScribe.Proofs.Yaml.Lines
import ApiScribe.Proofs.Yaml.Written
import ApiScribe.Proofs.Document.File
