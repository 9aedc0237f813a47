import Runbook.Settings
import Runbook.Text.Case

/-! # Log lines

How urgent a line of a log is, as a number; which records are written, and what a line says. A logger writes the lines
that reach its own level, and one without a level of its own has that of the logger above it. A line has the entries of
its record and of the context in which it was made, and tells the service and environment unless the record does.
-/

namespace Runbook.Log

/-! ## Levels -/

/-- The level that a word names, whatever its case. -/
def level? (name : String) : Option Int :=
  match Text.upper name with
  | "NOTSET" => some 0
  | "DEBUG" => some 10
  | "INFO" => some 20
  | "WARN" | "WARNING" => some 30
  | "ERROR" => some 40
  | "CRITICAL" | "FATAL" => some 50
  | _ => none

/-- The level that a word names, or another one if it names none. -/
def levelOr (name : String) (fallback : Int) : Int := (level? name).getD fallback

/-- The word for a level. -/
def levelWord (level : Int) : String :=
  if level ≥ 50 then "critical"
  else if level ≥ 40 then "error"
  else if level ≥ 30 then "warning"
  else if level ≥ 20 then "info"
  else "debug"

/-! ## Loggers and lines -/

/-- The loggers of the engine. -/
def engineLoggers : List String := ["workflow", "core"]

/-- The loggers of the tools. -/
def toolLoggers : List String := ["tasks"]

/-- Loggers that tell their warnings only. -/
def quietLoggers : List String := ["uvicorn.access", "httpx", "httpcore", "asyncio"]

/-- The level of the root logger. -/
def rootLevel (s : Settings) : Int := levelOr s.logLevel 20

/-- The levels that are set for loggers. -/
def levels (s : Settings) : List (String × Int) :=
  engineLoggers.map (fun name => (name, levelOr s.engineLogLevel (rootLevel s))) ++
    toolLoggers.map (fun name => (name, levelOr s.toolLogLevel (rootLevel s))) ++
    quietLoggers.map fun name => (name, 30)

/-- The level of a logger, by the parts of its name from the last to the first. -/
def levelFrom (s : Settings) : List String → Int
  | [] => rootLevel s
  | part :: above =>
    match (levels s).find? (·.1 == ".".intercalate (part :: above).reverse) with
    | some (_, level) => if level == 0 then levelFrom s above else level
    | none => levelFrom s above

/-- The level of a logger; the empty name is the root's. -/
def effectiveLevel (s : Settings) (logger : String) : Int :=
  if logger == "" then rootLevel s else levelFrom s (Text.split '.' logger).reverse

/-- A record. -/
structure Record where
  logger : String
  level : String
  message : String
  entries : Entries := []

/-- The word for a level in a line. -/
def levelName : String → String
  | "warn" => "warning"
  | "exception" => "error"
  | "fatal" => "critical"
  | word => word

/-- The entries of a line. -/
def line (s : Settings) (context : Entries) (r : Record) : Entries :=
  let entries := Entries.merge context r.entries
  let entries := Entries.merge entries
    [(.text "event", .text r.message), (.text "logger", .text r.logger),
      (.text "level", .text (levelName r.level)), (.text "timestamp", .text "<time>")]
  Entries.merge [(.text "service", .text s.appName), (.text "environment", .text s.environment)]
    entries

/-- The lines of the records that are written. -/
def lines (s : Settings) (context : Entries) (records : List Record) : List Entries :=
  (records.filter fun r =>
    decide (effectiveLevel s r.logger ≤ levelOr (levelName r.level) 0)).map (line s context)

end Runbook.Log
