import AddonLint.Artifact
import AddonLint.Bundle
import AddonLint.CommandLine
import AddonLint.ConfigError
import AddonLint.Decimal.Binary64
import AddonLint.Decimal.Numeral
import AddonLint.Decimal.Shortest
import AddonLint.Dict
import AddonLint.Environment
import AddonLint.Environment.Json
import AddonLint.Extraction.Basic
import AddonLint.Extraction.Cache
import AddonLint.Extraction.Channel
import AddonLint.Extraction.Deadline
import AddonLint.Extraction.Duration
import AddonLint.Files.Path
import AddonLint.Files.Tree
import AddonLint.Icon.Base64
import AddonLint.Icon.Inflate
import AddonLint.Icon.Png
import AddonLint.ImageReference
import AddonLint.ImageSet
import AddonLint.ImageSetName
import AddonLint.Json.Basic
import AddonLint.Json.Printer
import AddonLint.Main
import AddonLint.Manifest
import AddonLint.Manifest.Directory
import AddonLint.Metadata
import AddonLint.Pipeline
import AddonLint.Proofs.Accounting
import AddonLint.Proofs.AddonDirectories
import AddonLint.Proofs.Base64
import AddonLint.Proofs.Blanks
import AddonLint.Proofs.BuiltinRuns
import AddonLint.Proofs.BundleFiles
import AddonLint.Proofs.ByteOrder
import AddonLint.Proofs.CacheNames
import AddonLint.Proofs.CachePlaces
import AddonLint.Proofs.CachedBundles
import AddonLint.Proofs.Channels
import AddonLint.Proofs.Chunks
import AddonLint.Proofs.ClosedRecords
import AddonLint.Proofs.Conditions
import AddonLint.Proofs.Crews
import AddonLint.Proofs.CutImages
import AddonLint.Proofs.Deadlines
import AddonLint.Proofs.Declarations
import AddonLint.Proofs.Dictionaries
import AddonLint.Proofs.Documents
import AddonLint.Proofs.Fallible
import AddonLint.Proofs.FieldLists
import AddonLint.Proofs.Filters
import AddonLint.Proofs.FirstOffers
import AddonLint.Proofs.ForeignBundles
import AddonLint.Proofs.FrameSizes
import AddonLint.Proofs.IconTexts
import AddonLint.Proofs.ImageSetNames
import AddonLint.Proofs.JointRegistrations
import AddonLint.Proofs.LateAnswers
import AddonLint.Proofs.LineBreaks
import AddonLint.Proofs.Listings
import AddonLint.Proofs.Messages
import AddonLint.Proofs.MetadataKeys
import AddonLint.Proofs.Numerals
import AddonLint.Proofs.OwnBundles
import AddonLint.Proofs.Paths
import AddonLint.Proofs.Pictures
import AddonLint.Proofs.Pipelines
import AddonLint.Proofs.Places
import AddonLint.Proofs.PlainVersions
import AddonLint.Proofs.Rearrangements
import AddonLint.Proofs.ReferenceParts
import AddonLint.Proofs.ReferencePatterns
import AddonLint.Proofs.RefusedVersions
import AddonLint.Proofs.Registrations
import AddonLint.Proofs.ReportedVersions
import AddonLint.Proofs.Restrictions
import AddonLint.Proofs.Returns
import AddonLint.Proofs.Runs
import AddonLint.Proofs.Schemas
import AddonLint.Proofs.Selection
import AddonLint.Proofs.ServiceVersions
import AddonLint.Proofs.SettingsLayers
import AddonLint.Proofs.ShadowedSettings
import AddonLint.Proofs.Stages
import AddonLint.Proofs.TextReport
import AddonLint.Proofs.Validations
import AddonLint.Proofs.Verdicts
import AddonLint.Proofs.VersionTexts
import AddonLint.Proofs.Versions
import AddonLint.Proofs.WrittenLists
import AddonLint.Report.Basic
import AddonLint.Report.Instant
import AddonLint.Report.Printer
import AddonLint.Resolution
import AddonLint.Rule.Basic
import AddonLint.Rule.Filter
import AddonLint.Rule.Listing
import AddonLint.Rule.Registry
import AddonLint.Rules.Builtin
import AddonLint.Rules.Icon
import AddonLint.Rules.Membership
import AddonLint.Rules.Naming
import AddonLint.Rules.References
import AddonLint.Rules.ServiceVersion
import AddonLint.Run
import AddonLint.Run.Crew
import AddonLint.Schema.Basic
import AddonLint.Schema.Choice
import AddonLint.Schema.Fault
import AddonLint.Schema.Json
import AddonLint.Schema.Yaml
import AddonLint.SemVer
import AddonLint.Settings
import AddonLint.Subject
import AddonLint.Text.Blank
import AddonLint.Text.Fields
import AddonLint.Text.Hex
import AddonLint.Text.Printable
import AddonLint.Text.Quoted
import AddonLint.Validate
import AddonLint.VersionRequest
import AddonLint.VersionRequest.Json
import AddonLint.Yaml.Character
import AddonLint.Yaml.Document
import AddonLint.Yaml.Error
import AddonLint.Yaml.Event
import AddonLint.Yaml.Lexer
import AddonLint.Yaml.Resolve
import AddonLint.Yaml.Scalar
import AddonLint.Yaml.Token
