import Criteria.Compiled
import Criteria.Proofs.Formula.Matched
import Mathlib

/-!
The trace of a decision. It has one line for each part of the formula, the parts of a join before
the join, and each line names the path to its part and tells whether that part holds. An explanation
that is filled on a walk through the formula, line after line, comes out the same.
-/

set_option autoImplicit false
set_option relaxedAutoImplicit false

namespace Criteria

inductive Side where
  | left
  | right
  deriving DecidableEq, Repr

def Side.name : Side → String
  | .left => "left"
  | .right => "right"

/-- The sides to take from a formula to one of its parts. -/
abbrev Route : Type :=
  List Side

namespace Route

/-- What a trace line puts behind the path of the formula. -/
def steps : Route → String
  | [] => ""
  | side :: route => "." ++ side.name ++ steps route

def write (route : Route) : String :=
  "root" ++ route.steps

/-- Whether the part at one path is told of before the part at another one: it is a proper part of
it, or stands further left. -/
def ComesBefore (p q : Route) : Prop :=
  (∃ side rest, p = q ++ side :: rest) ∨
    ∃ common p' q', p = common ++ .left :: p' ∧ q = common ++ .right :: q'

variable {p q : Route}

theorem ComesBefore.cons (h : ComesBefore p q) (side : Side) :
    ComesBefore (side :: p) (side :: q) := by
  rcases h with ⟨next, rest, rfl⟩ | ⟨common, p', q', rfl, rfl⟩
  · exact Or.inl ⟨next, rest, rfl⟩
  · exact Or.inr ⟨side :: common, p', q', rfl, rfl⟩

theorem comesBefore_root (side : Side) (p : Route) : ComesBefore (side :: p) [] :=
  Or.inl ⟨side, p, rfl⟩

theorem comesBefore_of_sides (p q : Route) : ComesBefore (.left :: p) (.right :: q) :=
  Or.inr ⟨[], p, q, rfl, rfl⟩

theorem ComesBefore.ne (h : ComesBefore p q) : p ≠ q := by
  rcases h with ⟨side, rest, rfl⟩ | ⟨common, p', q', rfl, rfl⟩
  · simp
  · simp

/-! ### Written paths -/

theorem toList_steps_cons (side : Side) (p : Route) :
    (steps (side :: p)).toList = '.' :: (side.name.toList ++ (steps p).toList) := by
  simp [steps]

theorem steps_injective : Function.Injective steps := by
  intro p q h
  replace h : (steps p).toList = (steps q).toList := by rw [h]
  induction p generalizing q with
  | nil =>
    cases q with
    | nil => rfl
    | cons side q => simp [steps] at h
  | cons side p ih =>
    cases q with
    | nil => simp [steps] at h
    | cons other q =>
      rw [toList_steps_cons, toList_steps_cons, List.cons.injEq] at h
      have hsides : side = other := by
        cases side <;> cases other <;> simp_all [Side.name]
      subst hsides
      rw [ih (List.append_cancel_left h.2)]

theorem write_injective : Function.Injective write := by
  intro p q h
  apply steps_injective
  simpa [write, ← String.toList_inj] using h

/-- No path has a colon. -/
theorem ne_colon_of_mem_write {c : Char} (h : c ∈ p.write.toList) : c ≠ ':' := by
  have hsteps (p : Route) : ∀ c ∈ (steps p).toList, c ≠ ':' := by
    induction p with
    | nil => simp [steps]
    | cons side p ih =>
      rw [toList_steps_cons]
      cases side <;> simpa [Side.name] using ih
  rw [write, String.toList_append, List.mem_append] at h
  rcases h with h | h
  · have hroot : ∀ c ∈ "root".toList, c ≠ ':' := by simp
    exact hroot c h
  · exact hsteps p c h

end Route

namespace Formula

open Explanation Route

/-- The part of a formula to which a route leads. -/
def partAt? : Formula → Route → Option Formula
  | f, [] => some f
  | .join _ left _, .left :: route => left.partAt? route
  | .join _ _ right, .right :: route => right.partAt? route
  | .test _, _ :: _ => none

/-- All parts with the routes to them, the parts of a join before the join. -/
def parts : Formula → List (Route × Formula)
  | .test c => [([], .test c)]
  | .join connective left right =>
    left.parts.map (fun part ↦ (.left :: part.1, part.2)) ++
      right.parts.map (fun part ↦ (.right :: part.1, part.2)) ++ [([], .join connective left right)]

/-- The trace line of a formula that stands at `path`. -/
def line (r : Record) (path : String) : Formula → String
  | .test c => testLine c (r.get? c.field) (c.holds r) path
  | .join connective left right => joinLine connective (left.holds r) (right.holds r) path

variable {f g : Formula} {r : Record} {route : Route}

/-! ### Parts -/

theorem mem_parts : (route, g) ∈ f.parts ↔ f.partAt? route = some g := by
  induction f generalizing route with
  | test c =>
    cases route with
    | nil => simp [parts, partAt?, eq_comm]
    | cons side route => simp [parts, partAt?]
  | join connective left right ihleft ihright =>
    cases route with
    | nil => simp [parts, partAt?, eq_comm]
    | cons side route => cases side <;> simp [parts, partAt?, ihleft, ihright]

theorem length_parts (f : Formula) : f.parts.length = 2 * f.size - 1 := by
  induction f with
  | test c => rfl
  | join connective left right ihleft ihright =>
    have hleft := left.size_pos
    have hright := right.size_pos
    simp only [parts, size, List.length_append, List.length_map, List.length_singleton, ihleft,
      ihright]
    omega

theorem getLast?_parts (f : Formula) : f.parts.getLast? = some ([], f) := by
  cases f <;> simp [parts]

/-- The parts of a join come before the join, and those of its left side before those of its right
side. -/
theorem pairwise_parts (f : Formula) : f.parts.Pairwise fun p q ↦ ComesBefore p.1 q.1 := by
  induction f with
  | test c => exact List.pairwise_singleton _ _
  | join connective left right ihleft ihright =>
    simp only [parts, List.pairwise_append, List.pairwise_map, List.mem_append, List.mem_map,
      List.mem_singleton]
    refine ⟨⟨ihleft.imp fun h ↦ h.cons .left, ihright.imp fun h ↦ h.cons .right, ?_⟩,
      List.pairwise_singleton _ _, ?_⟩
    · rintro _ ⟨p, -, rfl⟩ _ ⟨q, -, rfl⟩
      exact comesBefore_of_sides p.1 q.1
    · rintro _ (⟨p, -, rfl⟩ | ⟨p, -, rfl⟩) _ rfl
      · exact comesBefore_root .left p.1
      · exact comesBefore_root .right p.1

/-! ### Lines -/

/-- A trace has the lines of the parts. -/
theorem trace_explainAt (root : String) (f : Formula) :
    (f.explainAt (some root) r).trace =
      f.parts.map fun part ↦ part.2.line r (root ++ part.1.steps) := by
  induction f generalizing root with
  | test c => simp [explainAt, parts, line, steps]
  | join connective left right ihleft ihright =>
    simp [explainAt, parts, line, steps, ihleft, ihright, holds_explainAt, Side.name,
      Function.comp_def, String.append_assoc]

theorem trace_explainAt_none (f : Formula) : (f.explainAt none r).trace = [] := by
  induction f with
  | test c => rfl
  | join connective left right ihleft ihright => simp [explainAt, ihleft, ihright]

/-- Whether a trace line tells of the part at a route whether it holds: it begins with the path, up
to the first colon, and ends with the outcome. -/
structure Tells (line : String) (route : Route) (holds : Bool) : Prop where
  eq_append : ∃ body, line = route.write ++ ": " ++ body ++ " => " ++ outcome holds
  path : line.toList.takeWhile (· ≠ ':') = route.write.toList
  outcome : " => MATCHED".toList <:+ line.toList ↔ holds = true

theorem exists_body (r : Record) (path : String) (g : Formula) :
    ∃ body, g.line r path = path ++ ": " ++ body ++ " => " ++ outcome (g.holds r) := by
  cases g with
  | test c =>
    refine ⟨c.write ++ " (实际值 " ++ shown (r.get? c.field) ++ ")", ?_⟩
    simp [line, testLine, holds, String.append_assoc]
  | join connective left right =>
    refine ⟨truth (left.holds r) ++ " " ++ connective.symbol ++ " " ++ truth (right.holds r), ?_⟩
    simp [line, joinLine, holds, String.append_assoc]

theorem matched_suffix_iff (front : List Char) (holds : Bool) :
    " => MATCHED".toList <:+ front ++ (" => ".toList ++ (outcome holds).toList) ↔
      holds = true := by
  cases holds with
  | true => exact iff_of_true (List.suffix_append _ _) rfl
  | false =>
    refine iff_of_false (fun h ↦ ?_) Bool.false_ne_true
    have hother : "NOT_MATCHED".toList <:+ front ++ (" => ".toList ++ "NOT_MATCHED".toList) :=
      (List.suffix_append _ _).trans (List.suffix_append _ _)
    have hsame := (List.suffix_of_suffix_length_le h hother (by simp)).eq_of_length (by simp)
    simp at hsame

theorem tells_line (r : Record) (route : Route) (g : Formula) :
    Tells (g.line r route.write) route (g.holds r) := by
  obtain ⟨body, hbody⟩ := exists_body r route.write g
  refine ⟨⟨body, hbody⟩, ?_, ?_⟩
  · rw [hbody]
    simp only [String.toList_append, List.append_assoc]
    rw [List.takeWhile_append_of_pos fun c hc ↦ by simpa using ne_colon_of_mem_write hc]
    simp
  · rw [hbody, String.toList_append, String.toList_append, List.append_assoc]
    exact matched_suffix_iff _ (g.holds r)

/-! ### An explanation that is filled -/

/-- A walk through a formula. What is found goes behind what an explanation has already; without a
path there are no lines. -/
def fill (r : Record) : Formula → Option String → StateM Explanation Bool
  | .test c, path => do
    if let some path := path then
      modify fun e ↦
        { e with trace := e.trace ++ [testLine c (r.get? c.field) (c.holds r) path] }
    if c.holds r then
      modify fun e ↦ { e with matched := e.matched ++ [c.write] }
    return c.holds r
  | .join connective left right, path => do
    let l ← fill r left (path.map (· ++ ".left"))
    let k ← fill r right (path.map (· ++ ".right"))
    if let some path := path then
      modify fun e ↦ { e with trace := e.trace ++ [joinLine connective l k path] }
    return connective.apply l k

/-- The explanation that is filled from an empty one on. -/
def explainInPlace (tracing : Bool) (f : Formula) (r : Record) : Explanation :=
  let (holds, e) := ((f.fill r (if tracing then some "root" else none)).run ⟨false, [], []⟩).run
  { e with holds }

/-- A walk adds what the explanation of its part has. -/
theorem run_fill (path : Option String) (f : Formula) (e : Explanation) :
    ((f.fill r path).run e).run =
      ((f.explainAt path r).holds, { e with
        matched := e.matched ++ (f.explainAt path r).matched
        trace := e.trace ++ (f.explainAt path r).trace }) := by
  induction f generalizing path e with
  | test c =>
    cases path <;> cases h : c.holds r <;> simp [fill, explainAt, h]
  | join connective left right ihleft ihright =>
    -- What either side adds goes behind what the explanation has by then.
    cases path with
    | none => simp [fill, explainAt, ihleft, ihright]
    | some path => simp [fill, explainAt, ihleft, ihright]

theorem explainInPlace_eq (tracing : Bool) (f : Formula) (r : Record) :
    f.explainInPlace tracing r = f.explain tracing r := by
  rw [explainInPlace, run_fill, explain]
  simp

/-- A decision that gives its grounds is the plain decision, and the grounds are the written forms
of the conditions that hold, from left to right, whether there is a trace or not. Filled on a walk,
the explanation is the same. Without tracing the trace is empty. With tracing each part of the
formula has one line, on which stand its path and whether it holds, and which comes after the lines
of its own parts; the paths are pairwise different, and the last line is for the formula itself. -/
theorem trace_refines_decision (c : Compiled) (r : Record) :
    (∀ tracing, (c.explain tracing r).holds = c.formula.holds r ∧
      (c.explain tracing r).matched =
        (c.formula.conditions.filter fun d ↦ (Formula.test d).holds r).map
          (fun d ↦ (Formula.test d).write) ∧
      c.formula.explainInPlace tracing r = c.explain tracing r) ∧
    (c.explain false r).trace = [] ∧
    (c.explain true r).trace.length = 2 * c.formula.size - 1 ∧
    ∃ routes : List Route,
      (∀ route, route ∈ routes ↔ ∃ g, c.formula.partAt? route = some g) ∧
      routes.Pairwise ComesBefore ∧ (routes.map Route.write).Nodup ∧
      routes.getLast? = some [] ∧
      List.Forall₂
        (fun route line ↦ ∃ g, c.formula.partAt? route = some g ∧ Tells line route (g.holds r))
        routes (c.explain true r).trace := by
  have htrace : (c.explain true r).trace =
      c.formula.parts.map fun part ↦ part.2.line r part.1.write :=
    trace_explainAt "root" c.formula
  have hordered : (c.formula.parts.map Prod.fst).Pairwise ComesBefore :=
    List.pairwise_map.mpr (pairwise_parts c.formula)
  refine ⟨fun tracing ↦ ⟨holds_explain tracing c.formula r, matched_explain tracing,
    explainInPlace_eq tracing c.formula r⟩, trace_explainAt_none c.formula, ?_,
    c.formula.parts.map Prod.fst, fun route ↦ ?_, hordered, ?_, ?_, ?_⟩
  · rw [htrace, List.length_map, length_parts]
  · simp [mem_parts]
  · exact List.Nodup.map Route.write_injective (hordered.imp ComesBefore.ne)
  · rw [List.getLast?_map, getLast?_parts]
    rfl
  · rw [htrace, List.forall₂_map_left_iff, List.forall₂_map_right_iff, List.forall₂_same]
    intro part hpart
    exact ⟨part.2, mem_parts.mp hpart, tells_line r part.1 part.2⟩

example :
    (explain true
      (.join .or (.test ⟨"a", .equal, .text "x"⟩) (.test ⟨"b", .different, .text "y"⟩))
      ⟨[("a", .text "x")]⟩).trace =
    ["root.left: a = 'x' (实际值 x) => MATCHED",
      "root.right: b != 'y' (实际值 <缺失>) => NOT_MATCHED",
      "root: true OR false => MATCHED"] := by
  decide +kernel

end Formula

end Criteria
