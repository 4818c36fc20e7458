import Criteria.Proofs.Settings.Merge

/-!
The settings one by one. A table makes settings if its sections are tables or lists and each
setting, by itself, can be read from what the table has for it; so what is read depends on that
value alone.
-/

set_option autoImplicit false
set_option relaxedAutoImplicit false

namespace Criteria.Settings

open Criteria.Settings.Tree

/-! ### The settings one by one -/

/-- What a configuration may give. -/
inductive Setting where
  | serviceName
  | environment
  | maxTokens
  | maxDepth
  | tracing
  | seedFile
  | reportedName
  | logLevel
  | jsonLogs
  | metricsEnabled
  | metricsPort
  deriving DecidableEq, Repr

/-- The names of the sections. -/
def sectionNames : List String :=
  ["engine", "rules", "observability"]

namespace Setting

def all : List Setting :=
  [.serviceName, .environment, .maxTokens, .maxDepth, .tracing, .seedFile, .reportedName, .logLevel,
    .jsonLogs, .metricsEnabled, .metricsPort]

theorem mem_all (k : Setting) : k ∈ all := by
  cases k <;> decide

instance {p : Setting → Prop} [DecidablePred p] : Decidable (∀ k, p k) :=
  decidable_of_iff (∀ k ∈ all, p k) ⟨fun h k ↦ h k (mem_all k), fun h k _ ↦ h k⟩

/-- What a setting is set to. -/
def Value : Setting → Type
  | .serviceName | .environment | .reportedName | .logLevel => String
  | .maxTokens | .maxDepth | .metricsPort => Nat
  | .tracing | .jsonLogs | .metricsEnabled => Bool
  | .seedFile => Option String

instance : (k : Setting) → DecidableEq k.Value
  | .serviceName | .environment | .reportedName | .logLevel => inferInstanceAs (DecidableEq String)
  | .maxTokens | .maxDepth | .metricsPort => inferInstanceAs (DecidableEq Nat)
  | .tracing | .jsonLogs | .metricsEnabled => inferInstanceAs (DecidableEq Bool)
  | .seedFile => inferInstanceAs (DecidableEq (Option String))

def name : Setting → String
  | .serviceName => "service_name"
  | .environment => "environment"
  | .maxTokens => "max_tokens"
  | .maxDepth => "max_depth"
  | .tracing => "trace_enabled"
  | .seedFile => "seed_file"
  | .reportedName => "service_name"
  | .logLevel => "log_level"
  | .jsonLogs => "json_logs"
  | .metricsEnabled => "metrics_enabled"
  | .metricsPort => "metrics_port"

/-- The section of a setting and its place there. Two settings belong to no section. -/
def home? : Setting → Option (String × Nat)
  | .serviceName | .environment => none
  | .maxTokens => some ("engine", 0)
  | .maxDepth => some ("engine", 1)
  | .tracing => some ("engine", 2)
  | .seedFile => some ("rules", 0)
  | .reportedName => some ("observability", 0)
  | .logLevel => some ("observability", 1)
  | .jsonLogs => some ("observability", 2)
  | .metricsEnabled => some ("observability", 3)
  | .metricsPort => some ("observability", 4)

def section? (k : Setting) : Option String :=
  k.home?.map Prod.fst

/-- A value in the type of a setting. -/
def convert? : (k : Setting) → Tree → Option k.Value
  | .serviceName | .environment | .reportedName | .logLevel => asText?
  | .maxTokens | .maxDepth => asNat? wordBound
  | .metricsPort => asNat? 0x10000
  | .tracing | .jsonLogs | .metricsEnabled => asBool?
  | .seedFile => asTextOrNothing?

/-- What holds for a setting that is not given. Two settings have to be given. -/
def standard? : (k : Setting) → Option k.Value
  | .serviceName | .environment => none
  | .maxTokens => some Limits.standard.maxTokens
  | .maxDepth => some Limits.standard.maxDepth
  | .tracing => some false
  | .seedFile => some none
  | .reportedName => some Reporting.standard.serviceName
  | .logLevel => some Reporting.standard.logLevel
  | .jsonLogs => some Reporting.standard.jsonLogs
  | .metricsEnabled => some Reporting.standard.metricsEnabled
  | .metricsPort => some Reporting.standard.metricsPort

/-- What a setting is set to by a value, or without one. -/
def read? (k : Setting) : Option Tree → Option k.Value
  | none => k.standard?
  | some v => k.convert? v

/-- The value for a setting where names stand for trees. -/
def from? (k : Setting) (given : String → Option Tree) : Option Tree :=
  match k.home? with
  | none => given k.name
  | some (home, place) => (given home).bind fun v ↦ v.setting? place k.name

end Setting

/-- What a setting is set to. -/
def value (s : Settings) : (k : Setting) → k.Value
  | .serviceName => s.serviceName
  | .environment => s.environment
  | .maxTokens => s.limits.maxTokens
  | .maxDepth => s.limits.maxDepth
  | .tracing => s.tracing
  | .seedFile => s.seedFile
  | .reportedName => s.reporting.serviceName
  | .logLevel => s.reporting.logLevel
  | .jsonLogs => s.reporting.jsonLogs
  | .metricsEnabled => s.reporting.metricsEnabled
  | .metricsPort => s.reporting.metricsPort

theorem asOr_eq {α : Type} (v : Tree) (place : Nat) (name : String) (convert : Tree → Option α)
    (standard : α) : v.asOr place name convert standard =
      match v.setting? place name with
      | none => some standard
      | some w => convert w := by
  unfold asOr asOption
  cases v.setting? place name with
  | none => rfl
  | some w => cases h : convert w <;> simp [h]

theorem setting?_of_section? {t : Table} {name : String} {v : Tree} (h : t.section? name = some v)
    (place : Nat) (k : String) :
    v.setting? place k = (t.get? name).bind fun w ↦ w.setting? place k := by
  unfold Table.section? at h
  split at h
  · rename_i hnone
    obtain rfl := Option.some.inj h
    rw [hnone]
    rfl
  · rename_i hsome
    obtain rfl := Option.some.inj h
    rw [hsome]
    rfl
  · rename_i hsome
    obtain rfl := Option.some.inj h
    rw [hsome]
    rfl
  · exact absurd h (by simp)

/-- A setting of a section is read where the section has it, and else has its standard value. -/
theorem asOr_eq_read? {t : Table} {home : String} {place : Nat} {v : Tree} (k : Setting)
    (hsection : t.section? home = some v) (hhome : k.home? = some (home, place))
    {standard : k.Value} (hstandard : k.standard? = some standard) :
    v.asOr place k.name k.convert? standard = k.read? (k.from? t.get?) := by
  rw [asOr_eq, setting?_of_section? hsection, Setting.from?, hhome]
  dsimp only
  cases (t.get? home).bind fun w ↦ w.setting? place k.name with
  | none => exact hstandard.symm
  | some w => rfl

/-- A table makes settings if each section is a table or a list and each setting, by itself, is read
from what the table has for it. -/
theorem ofTable?_eq_some_iff {t : Table} {s : Settings} : ofTable? t = some s ↔
    (∀ name ∈ sectionNames, (t.section? name).isSome = true) ∧
      ∀ k : Setting, k.read? (k.from? t.get?) = some (s.value k) := by
  have hname : Setting.serviceName.read? (t.get? "service_name") =
      (t.get? "service_name").bind asText? := by
    cases t.get? "service_name" <;> rfl
  have henvironment : Setting.environment.read? (t.get? "environment") =
      (t.get? "environment").bind asText? := by
    cases t.get? "environment" <;> rfl
  dsimp only [ofTable?, reporting?, Option.bind_eq_bind, Option.pure_def]
  -- The binds are opened from outside in, since rewriting inside them first visits each many times.
  simp only [↓Option.bind_eq_some_iff, Option.some.injEq]
  constructor
  · rintro ⟨engine, hengine, rules, hrules, v, hv, a, ha, w, hw, b, hb, tokens, htokens, depth,
      hdepth, tracing, htracing, seed, hseed, observability, hobservability, _, ⟨n, hn, level,
      hlevel, json, hjson, metrics, hmetrics, port, hport, rfl⟩, rfl⟩
    have hsections : ∀ name ∈ sectionNames, (t.section? name).isSome = true := by
      simp only [sectionNames, List.forall_mem_cons, hengine, hrules, hobservability,
        Option.isSome_some, true_and]
      exact List.forall_mem_nil _
    refine ⟨hsections, fun k ↦ ?_⟩
    cases k with
    | serviceName => exact hname.trans (Option.bind_eq_some_iff.mpr ⟨v, hv, ha⟩)
    | environment => exact henvironment.trans (Option.bind_eq_some_iff.mpr ⟨w, hw, hb⟩)
    | maxTokens => exact (asOr_eq_read? .maxTokens hengine rfl rfl).symm.trans htokens
    | maxDepth => exact (asOr_eq_read? .maxDepth hengine rfl rfl).symm.trans hdepth
    | tracing => exact (asOr_eq_read? .tracing hengine rfl rfl).symm.trans htracing
    | seedFile => exact (asOr_eq_read? .seedFile hrules rfl rfl).symm.trans hseed
    | reportedName => exact (asOr_eq_read? .reportedName hobservability rfl rfl).symm.trans hn
    | logLevel => exact (asOr_eq_read? .logLevel hobservability rfl rfl).symm.trans hlevel
    | jsonLogs => exact (asOr_eq_read? .jsonLogs hobservability rfl rfl).symm.trans hjson
    | metricsEnabled =>
      exact (asOr_eq_read? .metricsEnabled hobservability rfl rfl).symm.trans hmetrics
    | metricsPort => exact (asOr_eq_read? .metricsPort hobservability rfl rfl).symm.trans hport
  · rintro ⟨hsections, h⟩
    simp only [sectionNames, List.forall_mem_cons, Option.isSome_iff_exists] at hsections
    obtain ⟨⟨engine, hengine⟩, ⟨rules, hrules⟩, ⟨observability, hobservability⟩, -⟩ := hsections
    obtain ⟨v, hv, ha⟩ := Option.bind_eq_some_iff.mp (hname.symm.trans (h .serviceName))
    obtain ⟨w, hw, hb⟩ := Option.bind_eq_some_iff.mp (henvironment.symm.trans (h .environment))
    exact ⟨engine, hengine, rules, hrules, v, hv, _, ha, w, hw, _, hb,
      _, (asOr_eq_read? .maxTokens hengine rfl rfl).trans (h .maxTokens),
      _, (asOr_eq_read? .maxDepth hengine rfl rfl).trans (h .maxDepth),
      _, (asOr_eq_read? .tracing hengine rfl rfl).trans (h .tracing),
      _, (asOr_eq_read? .seedFile hrules rfl rfl).trans (h .seedFile),
      observability, hobservability, _,
      ⟨_, (asOr_eq_read? .reportedName hobservability rfl rfl).trans (h .reportedName),
        _, (asOr_eq_read? .logLevel hobservability rfl rfl).trans (h .logLevel),
        _, (asOr_eq_read? .jsonLogs hobservability rfl rfl).trans (h .jsonLogs),
        _, (asOr_eq_read? .metricsEnabled hobservability rfl rfl).trans (h .metricsEnabled),
        _, (asOr_eq_read? .metricsPort hobservability rfl rfl).trans (h .metricsPort), rfl⟩, rfl⟩

namespace Setting

theorem convert?_eq_bind_scalar? (k : Setting) (v : Tree) :
    k.convert? v = v.scalar?.bind k.convert? := by
  cases k <;> cases v <;> rfl

/-- What is read depends on what a value is converted to. -/
theorem read?_eq (k : Setting) (v : Option Tree) :
    k.read? v = (v.map k.convert?).getD k.standard? := by
  cases v <;> rfl

theorem map_convert?_of_alike {v w : Option Tree} (k : Setting) (h : Alike v w) :
    v.map k.convert? = w.map k.convert? := by
  match v, w with
  | none, none => rfl
  | some v, some w =>
    have hscalar : v.scalar? = w.scalar? := Option.some.inj h
    rw [Option.map_some, Option.map_some, convert?_eq_bind_scalar?, convert?_eq_bind_scalar? k w,
      hscalar]

theorem read?_congr {v w : Option Tree} (k : Setting) (h : v.map k.convert? = w.map k.convert?) :
    k.read? v = k.read? w := by
  rw [read?_eq, read?_eq, h]

end Setting

end Criteria.Settings
