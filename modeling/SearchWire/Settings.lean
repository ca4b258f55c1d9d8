import SearchWire.Number.Numeral
import SearchWire.Schema.Check
import SearchWire.Text.Uppercase
import SearchWire.Value.Reading

/-!
# Settings

What all requests have in common: how many hits a request without pages asks for, how many a
page has by default, and the level of the log.

* `Settings`, `Settings.standard`: the settings and their defaults.
* `Settings.ofEnvironment`: settings from texts in an environment.
* `Settings.level`: the number of the log level.
-/

namespace SearchWire

structure Settings where
  maxResultWindow : Nat
  pageSize : Nat
  logLevel : String
  deriving DecidableEq, Repr

namespace Settings

def standard : Settings := ⟨10000, 10, "WARNING"⟩

def model : Model :=
  .plain "Settings" [
    .withDefault "max_result_window" (.integer (some 1) none) (.int standard.maxResultWindow),
    .withDefault "default_page_size" (.integer (some 1) none) (.int standard.pageSize),
    .withDefault "log_level" .text (.str standard.logLevel)]

/-- The settings that a record holds. -/
def ofValue? (v : Value) : Option Settings := do
  some ⟨← (v.field "max_result_window").nat?, ← (v.field "default_page_size").nat?,
    ← (v.field "log_level").text?⟩

/-- The settings with the given arguments, defaults for the others. -/
def ofArguments (args : Fields) : Except Failure Settings := do
  legible (ofValue? (← Catalogue.build ⟨[model], []⟩ "Settings" args))

/-- The settings as a record. -/
def toValue (s : Settings) : Value :=
  model.record [.int s.maxResultWindow, .int s.pageSize, .str s.logLevel]

/-- A text of the environment as a whole number; the default where there is none. -/
def wholeFrom (environment : String → Option String) (key : String) (default : Nat) :
    Except Failure Value :=
  match environment key with
  | none => .ok (.int default)
  | some s =>
    match Numeral.integer? s with
    | none => .error (.notWhole s)
    | some n =>
      if Json.maxDigits < Numeral.digitCount s then .error (.manyDigits (Numeral.digitCount s))
      else .ok (.int n)

/-- Settings from the texts of an environment, defaults where there is none. -/
def ofEnvironment (environment : String → Option String) : Except Failure Settings := do
  let window ← wholeFrom environment "MAX_RESULT_WINDOW" standard.maxResultWindow
  let size ← wholeFrom environment "DEFAULT_PAGE_SIZE" standard.pageSize
  let level := (environment "LOG_LEVEL").getD standard.logLevel
  ofArguments [("max_result_window", window), ("default_page_size", size),
    ("log_level", .str level)]

/-- The log levels by name. -/
def levels : List (String × Nat) :=
  [("CRITICAL", 50), ("FATAL", 50), ("ERROR", 40), ("WARNING", 30), ("WARN", 30), ("INFO", 20),
    ("DEBUG", 10), ("NOTSET", 0)]

/-- The number of the log level, whose name may be in any case. -/
def level (s : Settings) : Except Failure Nat :=
  let name := Text.uppercase s.logLevel
  match levels.lookup name with
  | some n => .ok n
  | none => .error (.unknownLevel name)

end Settings

end SearchWire
