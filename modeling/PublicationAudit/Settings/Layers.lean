import PublicationAudit.CommandLine.Arguments
import PublicationAudit.Settings.File
import PublicationAudit.Text.Blank

/-!
# Layers of settings

What the command line gives wins over what the settings file sets, and that over the defaults.
-/

namespace PublicationAudit

open CommandLine (Arguments)

/-- What the command line can set. -/
structure Overrides where
  noCrawl : Bool := false
  offlineDirectory : Option String := none
  maxConcurrentFetches : Option Nat := none
  retryCount : Option Nat := none
  timeoutSecs : Option Nat := none
  proxy : Option String := none
  deriving DecidableEq, Repr

/-- What arguments set. -/
def Overrides.ofArguments (arguments : Arguments) : Overrides where
  noCrawl := arguments.noCrawl
  offlineDirectory := arguments.offlineDir
  maxConcurrentFetches := arguments.maxConcurrentFetches
  retryCount := arguments.retryCount
  timeoutSecs := arguments.timeoutSecs
  proxy := arguments.proxy

namespace Settings

/-- The settings of three layers. A proxy of blanks is no proxy. -/
def layer (overrides : Overrides) (file : FileSettings) (defaults : Settings) : Settings where
  crawl :=
    { isEnabled := !overrides.noCrawl && file.isEnabled.getD defaults.crawl.isEnabled
      expandGoverningBodies :=
        file.expandGoverningBodies.getD defaults.crawl.expandGoverningBodies
      skipWhenAdministrativeUnitKnown :=
        file.skipWhenAdministrativeUnitKnown.getD defaults.crawl.skipWhenAdministrativeUnitKnown
      maxConcurrentFetches :=
        (overrides.maxConcurrentFetches <|> file.maxConcurrentFetches).getD
          defaults.crawl.maxConcurrentFetches
      offlineDirectory := overrides.offlineDirectory <|> file.offlineDirectory }
  fetch :=
    { retryCount :=
        ((overrides.retryCount <|> file.retryCount).map UInt32.ofNat).getD defaults.fetch.retryCount
      retryDelayMs := file.retryDelayMs.getD defaults.fetch.retryDelayMs
      timeoutSecs := (overrides.timeoutSecs <|> file.timeoutSecs).getD defaults.fetch.timeoutSecs
      isLenient := file.isLenient.getD defaults.fetch.isLenient
      proxy := (overrides.proxy <|> file.proxy).filter fun proxy => !Text.allBlank proxy }
  sparsePaths := file.sparsePaths.getD defaults.sparsePaths

/-- Layers settings over the defaults and checks them. -/
def build (files : Files) (overrides : Overrides) (file : FileSettings) :
    Except SettingsError Settings := do
  let settings := layer overrides file {}
  settings.check files
  return settings

/-- The settings of a run with a settings file or without one. -/
def load (files : Files) (overrides : Overrides) (config : Option String) :
    Except SettingsError Settings := do
  let file ← match config with
    | some path => FileSettings.load files path
    | none => pure {}
  build files overrides file

end Settings

end PublicationAudit
