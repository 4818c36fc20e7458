import Criteria.Formula.Parse
import Criteria.Settings.Convert
import Criteria.Settings.File

/-!
The settings of the service. They come in layers: what is built in, three files of a directory from
the general to the particular, and the environment. The types are checked after the last layer.
-/

set_option autoImplicit false
set_option relaxedAutoImplicit false

namespace Criteria

/-- How the service reports what it does. -/
structure Reporting where
  serviceName : String
  logLevel : String
  jsonLogs : Bool
  metricsEnabled : Bool
  metricsPort : Nat
  deriving DecidableEq, Repr

def Reporting.standard : Reporting :=
  ⟨"unknown-service", "info", false, false, 9090⟩

structure Settings where
  serviceName : String
  environment : String
  limits : Limits
  tracing : Bool
  seedFile : Option String
  reporting : Reporting
  deriving DecidableEq, Repr

namespace Settings

/-- What holds without any configuration. -/
def standard : Settings :=
  ⟨"", "", .standard, false, none, .standard⟩

def isProduction (s : Settings) : Bool :=
  s.environment == "production"

namespace Tree

/-- A setting of a section: by its name in a table, by its place in a list. -/
def setting? (v : Tree) (place : Nat) (name : String) : Option Tree :=
  match v with
  | .table t => Table.get? t name
  | .list vs => vs[place]?
  | _ => none

/-- A setting in a type that it has to have, if it is given. -/
def asOption {α : Type} (v : Tree) (place : Nat) (name : String) (convert : Tree → Option α) :
    Option (Option α) :=
  match v.setting? place name with
  | none => some none
  | some w => (convert w).map some

/-- The same with a value for a setting that is not given. -/
def asOr {α : Type} (v : Tree) (place : Nat) (name : String) (convert : Tree → Option α)
    (standard : α) : Option α :=
  (v.asOption place name convert).map (·.getD standard)

/-- A text, or nothing. -/
def asTextOrNothing? : Tree → Option (Option String)
  | .nothing => some none
  | v => v.asText?.map some

end Tree

/-- The section of a name, which is empty if the name is not given. -/
def Table.section? (t : Table) (name : String) : Option Tree :=
  match t.get? name with
  | none => some (.table [])
  | some (.table u) => some (.table u)
  | some (.list vs) => some (.list vs)
  | some _ => none

/-- The reporting that a section asks for. -/
def reporting? (v : Tree) : Option Reporting := do
  let std := Reporting.standard
  return {
    serviceName := ← v.asOr 0 "service_name" Tree.asText? std.serviceName
    logLevel := ← v.asOr 1 "log_level" Tree.asText? std.logLevel
    jsonLogs := ← v.asOr 2 "json_logs" Tree.asBool? std.jsonLogs
    metricsEnabled := ← v.asOr 3 "metrics_enabled" Tree.asBool? std.metricsEnabled
    metricsPort := ← v.asOr 4 "metrics_port" (Tree.asNat? 0x10000) std.metricsPort }

/-- The first number that does not fit in a word of 64 bits. -/
def wordBound : Nat :=
  0x10000000000000000

/-- The settings that a table makes, if all that it gives has the right type. -/
def ofTable? (t : Table) : Option Settings := do
  let engine ← t.section? "engine"
  let rules ← t.section? "rules"
  return {
    serviceName := ← (← t.get? "service_name").asText?
    environment := ← (← t.get? "environment").asText?
    limits := {
      maxTokens := ← engine.asOr 0 "max_tokens" (Tree.asNat? wordBound) Limits.standard.maxTokens
      maxDepth := ← engine.asOr 1 "max_depth" (Tree.asNat? wordBound) Limits.standard.maxDepth }
    tracing := ← engine.asOr 2 "trace_enabled" Tree.asBool? false
    seedFile := ← rules.asOr 0 "seed_file" Tree.asTextOrNothing? none
    reporting := ← reporting? (← t.section? "observability") }

/-- The settings that layers make, the later ones above the earlier ones. -/
def ofLayers? (layers : List Layer) : Option Settings :=
  ofTable? (Tree.entries (some (layers.foldl (fun v layer ↦ layer.onto v) (Tree.table []))))

/-- The values that hold below all files. -/
def builtIn (environment service : String) : Layer :=
  [([.name "service_name"], .text service), ([.name "environment"], .text environment)]

/-- The files of a directory that settings are read from, the general one first. -/
def fileNames (environment service : String) : List String :=
  ["default.toml", environment ++ ".toml", service ++ ".toml"]

/-- The settings of a service in an environment. `contents` gives the text of a file of the
configuration directory. -/
def load? (contents : String → Option String) (vars : List (String × String))
    (environment service : String) : Option Settings := do
  let files ← (fileNames environment service).mapM (fileLayer? contents)
  ofLayers? (builtIn environment service :: files ++ [.ofVariables vars])

end Settings

end Criteria
