import Embargo.Catalog.Bundled
import Embargo.Catalog.Name
import Embargo.Catalog.Store
import Embargo.CodePoint
import Embargo.Config
import Embargo.Config.Sources
import Embargo.Event
import Embargo.Failure
import Embargo.FileTree
import Embargo.Glob
import Embargo.Index
import Embargo.Jvm.Method
import Embargo.Jvm.Method.Reader
import Embargo.Jvm.Type
import Embargo.Jvm.Type.Descriptor
import Embargo.Jvm.Type.SourceName
import Embargo.Line
import Embargo.Line.Reader
import Embargo.Loading
import Embargo.Log
import Embargo.Logging
import Embargo.Missing
import Embargo.Number.Binary64
import Embargo.Proofs.Answers
import Embargo.Proofs.BrokenSources
import Embargo.Proofs.CanonicalNames
import Embargo.Proofs.CatalogSpellings
import Embargo.Proofs.Coherence
import Embargo.Proofs.Comparison
import Embargo.Proofs.Concatenation
import Embargo.Proofs.Declaration
import Embargo.Proofs.Dependence
import Embargo.Proofs.Descriptors
import Embargo.Proofs.Diagnostics
import Embargo.Proofs.Documented
import Embargo.Proofs.Gaps
import Embargo.Proofs.GlobLanguage
import Embargo.Proofs.GlobSegments
import Embargo.Proofs.GlobWidening
import Embargo.Proofs.Growth
import Embargo.Proofs.InProgress
import Embargo.Proofs.IncludeGraph
import Embargo.Proofs.Inheritance
import Embargo.Proofs.InlineMessages
import Embargo.Proofs.KeptPrefix
import Embargo.Proofs.LineGrammar
import Embargo.Proofs.LineParts
import Embargo.Proofs.Lines
import Embargo.Proofs.MethodForms
import Embargo.Proofs.MethodIndex
import Embargo.Proofs.MethodQuestions
import Embargo.Proofs.MissingClasses
import Embargo.Proofs.Precedence
import Embargo.Proofs.Reading
import Embargo.Proofs.Relaxation
import Embargo.Proofs.Releases
import Embargo.Proofs.Reload
import Embargo.Proofs.Requests
import Embargo.Proofs.Resolving
import Embargo.Proofs.Respelling
import Embargo.Proofs.Run
import Embargo.Proofs.Scoping
import Embargo.Proofs.Settings
import Embargo.Proofs.Sources
import Embargo.Proofs.Spelling
import Embargo.Proofs.Stopping
import Embargo.Proofs.Summary
import Embargo.Proofs.TargetVersions
import Embargo.Proofs.TextOrder
import Embargo.Proofs.TomlTables
import Embargo.Proofs.TypeNames
import Embargo.Proofs.TypeQuestions
import Embargo.Proofs.TypeSpellings
import Embargo.Proofs.UserTexts
import Embargo.Proofs.Utf8
import Embargo.Proofs.Utf8Classes
import Embargo.Proofs.Validation
import Embargo.Proofs.View
import Embargo.Registry
import Embargo.Resolution
import Embargo.SyntaxError
import Embargo.Table
import Embargo.Text
import Embargo.Text.Alphanumeric
import Embargo.Text.Feed
import Embargo.Text.Numeral
import Embargo.Text.Printable
import Embargo.Text.Quoted
import Embargo.Text.Utf8
import Embargo.Universe
import Embargo.Universe.Manifest
import Embargo.Value
import Embargo.Value.Json
import Embargo.Value.Scalar
import Embargo.Value.Scan
import Embargo.Value.Toml
