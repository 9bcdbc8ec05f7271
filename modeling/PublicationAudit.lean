import PublicationAudit.Collection
import PublicationAudit.CommandLine.Arguments
import PublicationAudit.CommandLine.Messages
import PublicationAudit.CommandLine.Run
import PublicationAudit.Constraint
import PublicationAudit.Crawl.Basic
import PublicationAudit.Crawl.Concurrent
import PublicationAudit.Crawl.Entity
import PublicationAudit.Datum.Basic
import PublicationAudit.Datum.JsonReader
import PublicationAudit.Datum.JsonWriter
import PublicationAudit.Datum.Toml
import PublicationAudit.Datum.Yaml
import PublicationAudit.Dereference.Directory
import PublicationAudit.Dereference.Http
import PublicationAudit.Dereference.Offline
import PublicationAudit.Dereference.Proxy
import PublicationAudit.DocumentType
import PublicationAudit.Fact
import PublicationAudit.FactSet
import PublicationAudit.Failure
import PublicationAudit.Files
import PublicationAudit.Forest
import PublicationAudit.LogSettings
import PublicationAudit.Main
import PublicationAudit.Maturity.Score
import PublicationAudit.Maturity.Tally
import PublicationAudit.Maturity.Tier
import PublicationAudit.OrderedMap
import PublicationAudit.Proofs.Collections
import PublicationAudit.Proofs.ConstraintResults
import PublicationAudit.Proofs.Crawl.BlankNodes
import PublicationAudit.Proofs.Crawl.Concurrency
import PublicationAudit.Proofs.Crawl.EntityPaths
import PublicationAudit.Proofs.Crawl.Growth
import PublicationAudit.Proofs.Crawl.LevelFetch
import PublicationAudit.Proofs.Crawl.Merging
import PublicationAudit.Proofs.Crawl.Repetition
import PublicationAudit.Proofs.Crawl.Requests
import PublicationAudit.Proofs.Dereference.Attempts
import PublicationAudit.Proofs.Dereference.OfflineIndex
import PublicationAudit.Proofs.FactHistory
import PublicationAudit.Proofs.FactOrder
import PublicationAudit.Proofs.Failures
import PublicationAudit.Proofs.Forest.Calls
import PublicationAudit.Proofs.Forest.Copies
import PublicationAudit.Proofs.Forest.EdgeClaims
import PublicationAudit.Proofs.Forest.Faithfulness
import PublicationAudit.Proofs.Forest.FirstCopies
import PublicationAudit.Proofs.Forest.SingleExpansion
import PublicationAudit.Proofs.Forest.Size
import PublicationAudit.Proofs.Forest.SkippingWalk
import PublicationAudit.Proofs.Forest.Termination
import PublicationAudit.Proofs.Grouping
import PublicationAudit.Proofs.Maturity.AchievedTier
import PublicationAudit.Proofs.Maturity.Ceiling
import PublicationAudit.Proofs.Maturity.Findings
import PublicationAudit.Proofs.Maturity.Ledger
import PublicationAudit.Proofs.Maturity.MissingItems
import PublicationAudit.Proofs.Maturity.Monotonicity
import PublicationAudit.Proofs.Maturity.Reordering
import PublicationAudit.Proofs.MessageTemplates
import PublicationAudit.Proofs.QueryStores
import PublicationAudit.Proofs.QueryTemplates
import PublicationAudit.Proofs.Shape.Noise
import PublicationAudit.Proofs.Shape.Reading
import PublicationAudit.Proofs.Shape.Statements
import PublicationAudit.Proofs.ShortNames
import PublicationAudit.Proofs.Substitution
import PublicationAudit.Proofs.TermConversion
import PublicationAudit.Proofs.Threading
import PublicationAudit.Proofs.TypedSubjects
import PublicationAudit.Proofs.Validation.Answers
import PublicationAudit.Proofs.Validation.AtMostOnce
import PublicationAudit.Proofs.Validation.Coherence
import PublicationAudit.Proofs.Validation.FlatReading
import PublicationAudit.Proofs.Validation.Knowledge
import PublicationAudit.Proofs.Validation.Moments
import PublicationAudit.Proofs.Validation.NaiveRecursion
import PublicationAudit.Proofs.Validation.NestedWalks
import PublicationAudit.Proofs.Validation.PlainReports
import PublicationAudit.Proofs.Validation.Questions
import PublicationAudit.Proofs.Validation.Reordering
import PublicationAudit.Proofs.Validation.Resumption
import PublicationAudit.Proofs.Validation.Runs
import PublicationAudit.Proofs.Validation.Settling
import PublicationAudit.Proofs.Validation.SingleEntry
import PublicationAudit.Proofs.Validation.SingleSubject
import PublicationAudit.Proofs.Validation.Termination
import PublicationAudit.Proofs.Validation.WalkAccounts
import PublicationAudit.Publication
import PublicationAudit.Query
import PublicationAudit.QueryStore
import PublicationAudit.Rdf.Format
import PublicationAudit.Rdf.Iri
import PublicationAudit.Rdf.LanguageTag
import PublicationAudit.Rdf.Lines
import PublicationAudit.Rdf.Name
import PublicationAudit.Rdf.Namespaces
import PublicationAudit.Rdf.Reader
import PublicationAudit.Rdf.Term
import PublicationAudit.Rdf.Token
import PublicationAudit.Rdf.Turtle
import PublicationAudit.Report.Encode
import PublicationAudit.Settings.Basic
import PublicationAudit.Settings.File
import PublicationAudit.Settings.Layers
import PublicationAudit.Shape.Basic
import PublicationAudit.Shape.Compile
import PublicationAudit.Shape.Statement
import PublicationAudit.Sparql.Evaluate
import PublicationAudit.Sparql.Parser
import PublicationAudit.Sparql.Query
import PublicationAudit.Sparql.Token
import PublicationAudit.Sparql.Value
import PublicationAudit.Text.Blank
import PublicationAudit.Text.Escape
import PublicationAudit.Text.Numeral
import PublicationAudit.Text.Quoted
import PublicationAudit.Text.Search
import PublicationAudit.Text.Visible
import PublicationAudit.Threaded
import PublicationAudit.Validation.Entry
import PublicationAudit.Validation.Judgement
import PublicationAudit.Validation.RunState
import PublicationAudit.Validation.Walk
import PublicationAudit.Vocabulary
