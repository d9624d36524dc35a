import KeysetQuery.Notice
import KeysetQuery.Text.UpperCase
import KeysetQuery.Value.Access

/-!
# Settings

The settings of a document store come from the environment; what is not set there has a default.

* `Settings` — the settings, and `Settings.load` reads them;
* `SettingsError` — why an environment cannot be read;
* `Settings.shown` — the notices that are grave enough to be shown;
* `Settings.defaultOptions` — the options of a client that is given none.
-/

namespace KeysetQuery

open Number Text

/-! ### Levels of notices -/

def severities : List (String × Nat) :=
  [("CRITICAL", 50), ("FATAL", 50), ("ERROR", 40), ("WARN", 30), ("WARNING", 30), ("INFO", 20),
    ("DEBUG", 10), ("NOTSET", 0)]

/-! ### Settings -/

/-- The settings of a document store. -/
structure Settings where
  region : String
  endpoint : String
  defaultLimit : Int
  maxCountPages : Int
  rejectOnFail : Bool
  logLevel : String
  severity : Nat

/-- Why an environment cannot be read. -/
inductive SettingsError where
  | notAnInteger (text : String)
  | tooManyDigits (digits : Nat)
  | unknownLevel (name : String)
deriving DecidableEq, Inhabited

/-- How many characters of a text that is no number are shown at most. -/
def shownCharacters : Nat := 200

def SettingsError.message : SettingsError → String
  | notAnInteger text =>
    "invalid literal for int() with base 10: "
      ++ String.ofList ((quoted text).toList.take shownCharacters)
  | tooManyDigits n =>
    "Exceeds the limit (" ++ toString digitLimit ++ " digits) for integer string conversion: "
      ++ "value has " ++ toString n
      ++ " digits; use sys.set_int_max_str_digits() to increase the limit"
  | unknownLevel name => "Unknown level: " ++ quoted name

namespace Settings

/-- The texts that switch a setting on. -/
def affirmatives : List String := ["1", "true", "yes", "on"]

/-- Whether a text switches a setting on, whatever its case and the blanks around it. -/
def isAffirmative (s : String) : Bool :=
  affirmatives.contains (String.ofList ((trim isBlank s.toList).map Char.toLower))

def integer (s : String) : Except SettingsError Int :=
  match readInteger s with
  | .value i => .ok i
  | .tooLong n => .error (.tooManyDigits n)
  | .unreadable => .error (.notAnInteger s)

def severityOf (name : String) : Except SettingsError Nat :=
  match severities.lookup (upperCase name) with
  | some n => .ok n
  | none => .error (.unknownLevel (upperCase name))

/-- Read the settings from an environment.  The page size is read before the bound of counts, and
the level of notices last. -/
def load (env : String → Option String) : Except SettingsError Settings := do
  let limit ← integer ((env "DYNAMO_QUERY_DEFAULT_LIMIT").getD "10")
  let pages ← integer ((env "DYNAMO_QUERY_MAX_COUNT_PAGES").getD "1000")
  let level := (env "LOG_LEVEL").getD "INFO"
  let severity ← severityOf level
  pure {
    region := (env "AWS_REGION").getD "us-east-1"
    endpoint := (env "DYNAMO_ENDPOINT_URL").getD ""
    defaultLimit := limit
    maxCountPages := pages
    rejectOnFail := isAffirmative ((env "DYNAMO_QUERY_REJECT_ON_FAIL").getD "true")
    logLevel := level
    severity := severity }

/-- From which severity on notices are shown.  Where none is set, warnings and what is graver are
shown. -/
def threshold (s : Settings) : Nat :=
  if s.severity = 0 then Level.warning.severity else s.severity

def shown (s : Settings) (ns : List Notice) : List Notice :=
  ns.filter fun n => decide (s.threshold ≤ n.level.severity)

/-- The options of a client that is given none. -/
def defaultOptions (s : Settings) : Entries :=
  let region : Entries := [(.str "region_name", .str s.region)]
  if s.endpoint = "" then region else region ++ [(.str "endpoint_url", .str s.endpoint)]

/-- The options of a client: those given, unless none are. -/
def clientOptions (s : Settings) (given : Value) : Except Fault Entries :=
  if given.truthy then given.toMap else .ok s.defaultOptions

end Settings

end KeysetQuery
