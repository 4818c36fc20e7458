import Criteria.LogFilter.Directive

/-!
Which messages a log keeps. Of the directives of a filter some hold for messages outside spans, some
for messages inside them, and some for both; the most particular ones come first.
-/

set_option autoImplicit false
set_option relaxedAutoImplicit false

namespace Criteria

/-- The directives for messages outside and inside spans. -/
structure LogFilter where
  statics : List Directive
  dynamics : List Directive
  deriving BEq

namespace LogFilter

/-- The filter of directives. Of two for the same messages the later one counts. -/
def ofDirectives (directives : List Directive) : LogFilter :=
  let sorted (ds : List Directive) : List Directive := ds.foldl (fun ds d ↦ d.insert ds) []
  ⟨sorted (directives.filter Directive.isStatic), sorted (directives.filter Directive.isDynamic)⟩

/-- The filter that a text spells. Empty places between commas mean nothing. -/
def read? (s : String) : Option LogFilter :=
  (((s.toList.splitOn ',').filter (· ≠ [])).mapM Directive.read?).map ofDirectives

def write (f : LogFilter) : String :=
  ",".intercalate ((f.statics ++ f.dynamics).map Directive.write)

def standard : LogFilter :=
  ofDirectives [{ Directive.keepAll with level := .info }]

/-- The first of two texts that is well-formed, the particular one before the general one. -/
def choose (particular : Option String) (general : String) : LogFilter :=
  ((particular.bind read?).or (read? general)).getD standard

end LogFilter

end Criteria
