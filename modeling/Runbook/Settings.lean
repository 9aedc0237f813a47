import Runbook.Engine.Config
import Runbook.Form.Field
import Runbook.Text.Character
import Runbook.Text.Search

/-! # Settings

What can be configured about the engine, its tools and its interface. A setting is given by name,
where an argument goes before a variable of the environment; every setting has a default. All that is
wrong with the settings is told at once.
-/

namespace Runbook

/-- The settings. -/
structure Settings where
  appName : String
  appVersion : String
  /-- The path under which the interface is found. -/
  apiPrefix : String
  debug : Bool
  environment : String
  /-- The origins that browsers may ask from, with commas between them. -/
  allowedOrigins : String
  maxConcurrent : Int
  executionTimeout : Float
  historySize : Int
  maxIterations : Int
  loopOutputs : String
  manualSteps : String
  conditionalResults : String
  commandTool : String
  commandTimeout : Float
  workspaceRoot : String
  defaultMode : String
  logLevel : String
  logFormat : String
  /-- The level of the engine's own loggers, if it is not the common one. -/
  engineLogLevel : String
  /-- The level of the tools' loggers, if it is not the common one. -/
  toolLogLevel : String

namespace Settings

/-- A setting as it is given: by an argument, else by the environment. -/
def given? (environment : List (String × String)) (arguments : Entries) (name : String) :
    Option Value :=
  (arguments.get? name).orElse fun _ =>
    ((environment.find? (·.1 == name)).map (·.2)).map Value.text

/-- Read one setting; a flaw is noted and the default stands in. -/
def readOne {α : Type} (given : String → Option Value) (field : Value → Except Form.Flaw α)
    (name : String) (fallback : α) : StateM (List Form.Problem) α := do
  match given name with
  | none => return fallback
  | some v =>
    match field v with
    | .ok a => return a
    | .error flaw =>
      modify (· ++ [⟨[.text name], flaw⟩])
      return fallback

/-- Read all settings and note all flaws. -/
def readAll (given : String → Option Value) : StateM (List Form.Problem) Settings := do
  let appName ← readOne given Form.text "APP_NAME" "Workflow Execution Engine"
  let appVersion ← readOne given Form.text "APP_VERSION" "1.0.0"
  let apiPrefix ← readOne given Form.text "API_V1_PREFIX" "/api/v1"
  let debug ← readOne given Form.bool "DEBUG" false
  let environment ← readOne given Form.text "ENVIRONMENT" "development"
  let allowedOrigins ← readOne given Form.text "ALLOWED_ORIGINS"
    "http://localhost:3000,http://localhost:8080"
  let maxConcurrent ← readOne given Form.integer "MAX_CONCURRENT_EXECUTIONS" 5
  let executionTimeout ← readOne given Form.number "EXECUTION_TIMEOUT_SECONDS" 300.0
  let historySize ← readOne given Form.integer "EXECUTION_HISTORY_SIZE" 100
  let maxIterations ← readOne given Form.integer "LOOP_MAX_ITERATIONS" 100
  let loopOutputs ← readOne given Form.text "LOOP_OUTPUT_POLICY" "isolate"
  let manualSteps ← readOne given Form.text "MANUAL_STEP_POLICY" "auto"
  let conditionalResults ← readOne given Form.text "CONDITIONAL_RESULT_POLICY" "nest"
  let commandTool ← readOne given Form.text "COMMAND_TOOL_NAME" "execute_command"
  let commandTimeout ← readOne given Form.number "COMMAND_TIMEOUT_SECONDS" 300.0
  let workspaceRoot ← readOne given Form.text "WORKSPACE_ROOT" "."
  let defaultMode ← readOne given Form.text "DEFAULT_MODE" "code"
  let logLevel ← readOne given Form.text "LOG_LEVEL" "INFO"
  let logFormat ← readOne given Form.text "LOG_FORMAT" "json"
  let engineLogLevel ← readOne given Form.text "ENGINE_LOG_LEVEL" ""
  let toolLogLevel ← readOne given Form.text "TOOL_LOG_LEVEL" ""
  return { appName, appVersion, apiPrefix, debug, environment, allowedOrigins, maxConcurrent,
           executionTimeout, historySize, maxIterations, loopOutputs, manualSteps,
           conditionalResults, commandTool, commandTimeout, workspaceRoot, defaultMode, logLevel,
           logFormat, engineLogLevel, toolLogLevel }

/-- The settings under their names. -/
def named (s : Settings) : List (String × Value) :=
  [("APP_NAME", .text s.appName), ("APP_VERSION", .text s.appVersion),
    ("API_V1_PREFIX", .text s.apiPrefix), ("DEBUG", .bool s.debug),
    ("ENVIRONMENT", .text s.environment), ("ALLOWED_ORIGINS", .text s.allowedOrigins),
    ("MAX_CONCURRENT_EXECUTIONS", .int s.maxConcurrent),
    ("EXECUTION_TIMEOUT_SECONDS", .float s.executionTimeout),
    ("EXECUTION_HISTORY_SIZE", .int s.historySize), ("LOOP_MAX_ITERATIONS", .int s.maxIterations),
    ("LOOP_OUTPUT_POLICY", .text s.loopOutputs), ("MANUAL_STEP_POLICY", .text s.manualSteps),
    ("CONDITIONAL_RESULT_POLICY", .text s.conditionalResults),
    ("COMMAND_TOOL_NAME", .text s.commandTool), ("COMMAND_TIMEOUT_SECONDS", .float s.commandTimeout),
    ("WORKSPACE_ROOT", .text s.workspaceRoot), ("DEFAULT_MODE", .text s.defaultMode),
    ("LOG_LEVEL", .text s.logLevel), ("LOG_FORMAT", .text s.logFormat),
    ("ENGINE_LOG_LEVEL", .text s.engineLogLevel), ("TOOL_LOG_LEVEL", .text s.toolLogLevel)]

/-- The settings that an environment and arguments give, or all that is wrong with them. -/
def read (environment : List (String × String)) (arguments : Entries) :
    Except (List Form.Problem) Settings :=
  let (settings, problems) := (readAll (given? environment arguments)).run []
  let known := settings.named.map (·.1)
  let extra := arguments.names.filter fun name => !known.contains name
  match problems ++ extra.map fun name => ⟨[.text name], .extra⟩ with
  | [] => .ok settings
  | problems => .error problems

/-- The settings when nothing is configured. -/
def standard : Settings := ((readAll fun _ => none).run []).1

/-- The settings are for development. -/
def isDevelopment (s : Settings) : Bool := s.environment == "development"

/-- The settings are for production. -/
def isProduction (s : Settings) : Bool := s.environment == "production"

/-- The origins that browsers may ask from. -/
def origins (s : Settings) : List String :=
  ((Text.split ',' s.allowedOrigins).map Text.trim).filter (· != "")

/-- Log lines are for people rather than programs. -/
def plainLog (s : Settings) : Bool := s.isDevelopment || s.logFormat == "text"

/-- The configuration of an engine. -/
def engineConfig (s : Settings) : Except Fault Engine.Config := do
  let loopOutputs ← LoopOutputPolicy.ofValue (.text s.loopOutputs)
  let manualSteps ← ManualStepPolicy.ofValue (.text s.manualSteps)
  let conditionalResults ← ConditionalResultPolicy.ofValue (.text s.conditionalResults)
  let historyLimit ← Engine.Config.limitOf (.int s.historySize)
  return {
    policies := {
      commandTool := .text s.commandTool
      maxIterations := .int s.maxIterations
      loopOutputs, manualSteps, conditionalResults }
    historyLimit
    maxConcurrent := .int s.maxConcurrent
    defaultTimeout := .float s.executionTimeout }

end Settings

end Runbook
