import PublicationAudit.Dereference.Http
import PublicationAudit.Files
import PublicationAudit.Publication
import PublicationAudit.Text.Quoted

/-!
# Settings

Everything about an audit that can be set, with its defaults, and what settings have to satisfy.
-/

namespace PublicationAudit

/-- Settings of the crawl. -/
structure CrawlSettings where
  isEnabled : Bool := true
  expandGoverningBodies : Bool := true
  skipWhenAdministrativeUnitKnown : Bool := true
  maxConcurrentFetches : Nat := 8
  /-- Where offline copies are read from instead of fetching documents. -/
  offlineDirectory : Option String := none
  deriving DecidableEq, Repr

/-- Settings of single fetches. -/
structure FetchSettings where
  retryCount : UInt32 := 2
  retryDelayMs : Nat := 2000
  timeoutSecs : Nat := 30
  isLenient : Bool := true
  proxy : Option String := none
  deriving DecidableEq, Repr

/-- All settings. -/
structure Settings where
  crawl : CrawlSettings := {}
  fetch : FetchSettings := {}
  /-- Optional properties that are never reported as missing. -/
  sparsePaths : List String := defaultSparsePaths
  deriving DecidableEq, Repr

/-- The formats of settings files. -/
inductive SettingsFormat where
  | toml
  | yaml
  | json
  deriving DecidableEq, Repr

/-- The name of a format. -/
def SettingsFormat.name : SettingsFormat → String
  | toml => "TOML"
  | yaml => "YAML"
  | json => "JSON"

/-- Why settings cannot be used. -/
inductive SettingsError where
  | noConcurrentFetch
  | noTimeout
  | notADirectory (path : String)
  | missingFile (path : String)
  | unreadableFile (path : String)
  | malformedFile (format : SettingsFormat) (path : String)
  | unknownExtension (extension : String)
  deriving DecidableEq, Repr

namespace SettingsError

/-- A path as it is shown in a message. -/
def showPath (path : String) : String := Text.quote .path path

/-- The wording of an error. -/
def message : SettingsError → String
  | noConcurrentFetch => "crawl.max_concurrent_fetches must be at least 1"
  | noTimeout => "fetch.timeout_secs must be greater than zero"
  | notADirectory path => "offline directory " ++ showPath path ++ " is not a directory"
  | missingFile path => "config file " ++ showPath path ++ " does not exist"
  | unreadableFile path => "failed to read config file " ++ showPath path
  | malformedFile format path => "failed to parse " ++ format.name ++ " config " ++ showPath path
  | unknownExtension extension => "unsupported config extension: " ++ extension

end SettingsError

namespace Settings

/-- Refuses settings that cannot work. -/
def check (settings : Settings) (files : Files) : Except SettingsError Unit :=
  if settings.crawl.maxConcurrentFetches = 0 then .error .noConcurrentFetch
  else if settings.fetch.timeoutSecs = 0 then .error .noTimeout
  else
    match settings.crawl.offlineDirectory with
    | some path => if files.hasDirectory path then .ok () else .error (.notADirectory path)
    | none => .ok ()

/-- How far the crawl goes. -/
def crawlPolicy (settings : Settings) : CrawlPolicy where
  expandGoverningBodies := settings.crawl.expandGoverningBodies
  skipWhenAdministrativeUnitKnown := settings.crawl.skipWhenAdministrativeUnitKnown
  maxConcurrentFetches := settings.crawl.maxConcurrentFetches

/-- What an audit may do. -/
def auditPolicy (settings : Settings) : AuditPolicy where
  crawls := settings.crawl.isEnabled
  crawl := settings.crawlPolicy
  sparse := settings.sparsePaths

/-- How documents are fetched. -/
def fetchPolicy (settings : Settings) : Http.Policy where
  retryCount := settings.fetch.retryCount
  retryDelayMs := settings.fetch.retryDelayMs
  isLenient := settings.fetch.isLenient

end Settings

end PublicationAudit
