import PublicationAudit.Datum.JsonReader
import PublicationAudit.Datum.Toml
import PublicationAudit.Datum.Yaml
import PublicationAudit.Rdf.Format
import PublicationAudit.Settings.Basic

/-!
# Settings files

A settings file sets some of the settings. Its three sections have known fields, each at most once;
a section may also be a list of its fields in their order. A field without a value sets nothing.
-/

namespace PublicationAudit

/-- What a settings file sets. -/
structure FileSettings where
  isEnabled : Option Bool := none
  expandGoverningBodies : Option Bool := none
  skipWhenAdministrativeUnitKnown : Option Bool := none
  maxConcurrentFetches : Option Nat := none
  offlineDirectory : Option String := none
  retryCount : Option Nat := none
  retryDelayMs : Option Nat := none
  timeoutSecs : Option Nat := none
  isLenient : Option Bool := none
  proxy : Option String := none
  sparsePaths : Option (List String) := none
  deriving DecidableEq, Repr

/-! ## Reading values -/

namespace Datum

/-- The plain scalars that stand for no value. -/
def nullWords : List String := ["", "~", "null", "Null", "NULL"]

/-- Whether there is no value. -/
def isNull : Datum → Bool
  | null => true
  | plain written => nullWords.contains written
  | _ => false

/-- A truth value. -/
def boolean? : Datum → Option Bool
  | boolean b => some b
  | plain written =>
    if ["true", "True", "TRUE"].contains written then some true
    else if ["false", "False", "FALSE"].contains written then some false
    else none
  | _ => none

/-- The count that a plain scalar writes: decimal without leading zeros, or in another base after
its mark. -/
def plainCount? (written : String) : Option Nat :=
  let digits := match written.toList with
    | '+' :: rest => rest
    | rest => rest
  match digits with
  | '0' :: 'x' :: rest => Text.readHex? rest
  | '0' :: 'o' :: rest => inBase 8 rest
  | '0' :: 'b' :: rest => inBase 2 rest
  | '0' :: _ :: _ => none
  | digits => Text.readDigits? digits
where
  inBase (base : Nat) (digits : List Char) : Option Nat :=
    if !digits.isEmpty && digits.all fun d => d.isDigit && d.toNat - '0'.toNat < base then
      some (digits.foldl (fun n d => base * n + (d.toNat - '0'.toNat)) 0)
    else none

/-- A count of at most `bound`. -/
def count? (bound : Nat) (datum : Datum) : Option Nat :=
  let n := match datum with
    | integer n => if 0 ≤ n then some n.toNat else none
    | plain written => plainCount? written
    | _ => none
  n.filter (· ≤ bound)

/-- A text. -/
def text? : Datum → Option String
  | text value => some value
  | plain written => some written
  | _ => none

/-- A list of texts. -/
def texts? : Datum → Option (List String)
  | list items => items.mapM text?
  | _ => none

/-- The values of a section by the names of its fields; none where a field is unknown or comes
twice. -/
def section? (names : List String) : Datum → Option (List (Option Datum))
  | record fields =>
    if fields.all (fun field => names.contains field.1) && decide (fields.map Prod.fst).Nodup then
      some (names.map fun name => fields.lookup name)
    else none
  | list items =>
    if items.length ≤ names.length then
      some (items.map some ++ List.replicate (names.length - items.length) none)
    else none
  | plain "" => some (names.map fun _ => none)
  | _ => none

/-- The value of a field, which may be left out. -/
def field? {α : Type} (read : Datum → Option α) : Option Datum → Option (Option α)
  | none => some none
  | some datum => if datum.isNull then some none else (read datum).map some

end Datum

namespace FileSettings

/-- Reads the settings of the crawl. -/
def readCrawl (settings : FileSettings) (datum : Datum) : Option FileSettings := do
  match ← datum.section? ["enabled", "expand_governing_bodies",
      "skip_when_administrative_unit_known", "max_concurrent_fetches", "offline_dir"] with
  | [enabled, expand, skip, fetches, directory] =>
    some { settings with
      isEnabled := ← Datum.field? Datum.boolean? enabled
      expandGoverningBodies := ← Datum.field? Datum.boolean? expand
      skipWhenAdministrativeUnitKnown := ← Datum.field? Datum.boolean? skip
      maxConcurrentFetches := ← Datum.field? (Datum.count? Text.maxCount64) fetches
      offlineDirectory := ← Datum.field? Datum.text? directory }
  | _ => none

/-- Reads the settings of single fetches. -/
def readFetch (settings : FileSettings) (datum : Datum) : Option FileSettings := do
  match ← datum.section? ["retry_count", "retry_delay_ms", "timeout_secs", "lenient", "proxy"] with
  | [count, delay, timeout, lenient, proxy] =>
    some { settings with
      retryCount := ← Datum.field? (Datum.count? Text.maxCount32) count
      retryDelayMs := ← Datum.field? (Datum.count? Text.maxCount64) delay
      timeoutSecs := ← Datum.field? (Datum.count? Text.maxCount64) timeout
      isLenient := ← Datum.field? Datum.boolean? lenient
      proxy := ← Datum.field? Datum.text? proxy }
  | _ => none

/-- Reads the settings of the maturity report. -/
def readMaturity (settings : FileSettings) (datum : Datum) : Option FileSettings := do
  match ← datum.section? ["sparse_optional_paths"] with
  | [paths] => some { settings with sparsePaths := ← Datum.field? Datum.texts? paths }
  | _ => none

/-- Reads a section that may be left out. -/
def readSection (read : FileSettings → Datum → Option FileSettings) (settings : FileSettings) :
    Option Datum → Option FileSettings
  | none => some settings
  | some datum => read settings datum

/-- Reads the contents of a settings file. -/
def ofDatum? (datum : Datum) : Option FileSettings := do
  match ← datum.section? ["crawl", "fetch", "maturity"] with
  | [crawl, fetch, maturity] =>
    let settings ← readSection readCrawl {} crawl
    let settings ← readSection readFetch settings fetch
    readSection readMaturity settings maturity
  | _ => none

end FileSettings

/-! ## Reading files -/

namespace SettingsFormat

/-- The format with a file name extension in lower case. -/
def ofExtension? : String → Option SettingsFormat
  | "toml" => some toml
  | "yaml" => some yaml
  | "yml" => some yaml
  | "json" => some json
  | _ => none

/-- Reads a text in a format. -/
def read (format : SettingsFormat) (text : String) : Option Datum :=
  match format with
  | toml => Toml.read text
  | yaml => Yaml.read text
  | json => Json.read text

end SettingsFormat

/-- Reads the settings file at a path. Its extension says its format, but it is read in any case. -/
def FileSettings.load (files : Files) (path : String) : Except SettingsError FileSettings :=
  if !files.contains path then .error (.missingFile path)
  else
    match (files.read path).toOption.bind fun bytes => String.fromUTF8? bytes with
    | none => .error (.unreadableFile path)
    | some text =>
      let extension := Text.lowerAscii ((Rdf.pathExtension? path).getD "")
      match SettingsFormat.ofExtension? extension with
      | none => .error (.unknownExtension extension)
      | some format =>
        match (format.read text).bind FileSettings.ofDatum? with
        | some settings => .ok settings
        | none => .error (.malformedFile format path)

end PublicationAudit
