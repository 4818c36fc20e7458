import Criteria.LogFilter.Pattern

/-!
Which texts are patterns. Every text has a pattern that stands for just this text: its characters,
with a backslash before each one that has a meaning of its own. A pattern may be put in parentheses,
and what stands in parentheses may be repeated. Behind a whole pattern nothing can be opened that
stays open, nor closed.
-/

set_option autoImplicit false
set_option relaxedAutoImplicit false

namespace Criteria.Pattern

variable {c : Char} {cs : List Char} {s t : Scanner}

/-! ### Texts that stand for themselves -/

/-- The text as a pattern, a backslash before each character that has a meaning of its own. -/
def escaped (cs : List Char) : List Char :=
  cs.flatMap fun c ↦ if isEscapable c then ['\\', c] else [c]

namespace Scanner

/-- The scanner between two characters of a text that stands for itself. -/
def between (operand : Bool) : Scanner :=
  { start with operand }

theorem step_between (h : isEscapable c = false) (operand : Bool) :
    (between operand).step c = some (between true) := by
  change (between operand).outsideStep c = some (between true)
  unfold outsideStep
  -- Each character with a case of its own has a meaning of its own.
  split
  all_goals first | exact absurd h (by decide) | rfl

theorem escapeStep_between (h : isEscapable c = true) (operand : Bool) :
    ({ between operand with mode := .escape } : Scanner).escapeStep c = some (between true) := by
  unfold escapeStep
  -- Letters, and the brackets for the ends of words, are not escaped.
  split
  all_goals first | exact absurd h (by decide) | (rw [if_pos h]; rfl)

theorem foldlM_escaped (cs : List Char) (operand : Bool) :
    ∃ last, (escaped cs).foldlM step (between operand) = some (between last) := by
  induction cs generalizing operand with
  | nil => exact ⟨operand, rfl⟩
  | cons c cs ih =>
    obtain ⟨last, hlast⟩ := ih true
    refine ⟨last, ?_⟩
    rw [escaped, List.flatMap_cons, ← escaped, List.foldlM_append]
    by_cases h : isEscapable c = true
    · rw [if_pos h, List.foldlM_cons]
      change (([c].foldlM step { between operand with mode := .escape }) >>= _) = _
      rw [List.foldlM_cons]
      change (Option.bind (escapeStep { between operand with mode := .escape } c) some >>= _) = _
      rw [escapeStep_between h]
      exact hlast
    · rw [if_neg h, List.foldlM_cons, step_between (Bool.eq_false_iff.mpr h)]
      exact hlast

end Scanner

/-- Every text has a pattern that stands for it. -/
theorem isValid_escaped (cs : List Char) : isValid (escaped cs) = true := by
  obtain ⟨last, hlast⟩ := Scanner.foldlM_escaped cs false
  rw [isValid, show Scanner.start = Scanner.between false from rfl, hlast]
  rfl

/-- A text in which no character has a meaning of its own stands for itself. -/
theorem isValid_of_plain (h : ∀ c ∈ cs, isEscapable c = false) : isValid cs = true := by
  have hself : escaped cs = cs := by
    induction cs with
    | nil => rfl
    | cons c cs ih =>
      obtain ⟨hc, hcs⟩ := List.forall_mem_cons.mp h
      rw [escaped, List.flatMap_cons, hc, if_neg Bool.false_ne_true, ← escaped, ih hcs]
      rfl
  rw [← hself]
  exact isValid_escaped cs

/-! ### Parentheses -/

namespace Scanner

/-- The same scanner inside one more group, which is open around all others. -/
def within (ascii : Bool) (s : Scanner) : Scanner :=
  { s with groups := s.groups ++ [ascii] }

/-- What stands at the beginning of a group is read while the group is open. -/
def Grouped (s : Scanner) : Prop :=
  match s.mode with
  | .groupStart | .groupKind | .flags _ _ _ => s.groups ≠ []
  | _ => True

/-- Where one step leads somewhere, the other one leads to the same place in one more group. -/
def Widens (ascii : Bool) (inner outer : Option Scanner) : Prop :=
  ∀ t, inner = some t → outer = some (t.within ascii) ∧ t.Grouped

variable {ascii : Bool}

theorem widens_none {outer : Option Scanner} : Widens ascii none outer :=
  fun _ h ↦ nomatch h

theorem widens_some (h : t.Grouped) : Widens ascii (some t) (some (t.within ascii)) := by
  rintro _ ⟨rfl⟩
  exact ⟨rfl, h⟩

theorem widens_ite {p : Prop} [Decidable p] {inner outer inner' outer' : Option Scanner}
    (h : Widens ascii inner outer) (h' : Widens ascii inner' outer') :
    Widens ascii (if p then inner else inner') (if p then outer else outer') := by
  split
  · exact h
  · exact h'

theorem widens_unlessAscii {inner outer : Option Scanner} (h : Widens ascii inner outer) :
    Widens ascii (s.unlessAscii inner) ((s.within ascii).unlessAscii outer) :=
  widens_ite widens_none h

theorem widens_put (s : Scanner) (item : Item) :
    Widens ascii (s.put item) ((s.within ascii).put item) := by
  obtain ⟨groups, names, flag, operand, depth, low, mode⟩ := s
  refine widens_ite (widens_some trivial) ?_
  cases low with
  | none => exact widens_some trivial
  | some low =>
    cases item with
    | set => exact widens_none
    | char c => exact widens_ite (widens_some trivial) widens_none

theorem widens_outsideStep (s : Scanner) (c : Char) :
    Widens ascii (s.outsideStep c) ((s.within ascii).outsideStep c) := by
  obtain ⟨groups, names, flag, operand, depth, low, mode⟩ := s
  unfold outsideStep
  split
  case h_1 => exact widens_some (List.cons_ne_nil _ _)
  case h_2 =>
    cases groups with
    | nil => exact widens_none
    | cons first rest => exact widens_some trivial
  all_goals
    first
    | exact widens_none
    | exact widens_some trivial
    | exact widens_ite (widens_some trivial) widens_none
    | exact widens_unlessAscii (widens_put _ _)
    | exact widens_put _ _

theorem widens_insideStep (s : Scanner) (c : Char) :
    Widens ascii (s.insideStep c) ((s.within ascii).insideStep c) := by
  unfold insideStep
  split
  case h_1 =>
    by_cases hdepth : s.depth = 1
    · rw [if_pos hdepth, if_pos (by exact hdepth)]
      exact widens_some trivial
    · rw [if_neg hdepth, if_neg (by exact hdepth)]
      exact widens_some trivial
  all_goals first | exact widens_some trivial | exact widens_put _ _

theorem widens_doubledStep (s : Scanner) (sign c : Char) :
    Widens ascii (s.doubledStep sign c) ((s.within ascii).doubledStep sign c) :=
  widens_ite (widens_some trivial) (widens_ite (widens_some trivial) (widens_insideStep s c))

theorem widens_dashStep (s : Scanner) (item : Item) (c : Char) :
    Widens ascii (s.dashStep item c) ((s.within ascii).dashStep item c) := by
  unfold dashStep
  split
  all_goals
    first
    | exact widens_none
    | exact widens_some trivial
    | exact widens_insideStep _ _
    | exact widens_put { s with low := some _ } _

theorem widens_classStep (s : Scanner) (negatable empty : Bool) (c : Char) :
    Widens ascii (s.classStep negatable empty c) ((s.within ascii).classStep negatable empty c) :=
  widens_ite (widens_unlessAscii (widens_some trivial)) <|
    widens_ite (widens_some trivial) <| widens_ite (widens_some trivial) (widens_insideStep s c)

theorem widens_escapeStep (s : Scanner) (c : Char) :
    Widens ascii (s.escapeStep c) ((s.within ascii).escapeStep c) := by
  unfold escapeStep
  split
  all_goals
    first
    | exact widens_some trivial
    | exact widens_put _ _
    | exact widens_unlessAscii (widens_some trivial)
    | exact widens_unlessAscii (widens_put _ _)
    | exact widens_ite (widens_put _ _) widens_none

theorem widens_codeStep (s : Scanner) (missing value digit : Nat) :
    Widens ascii (s.codeStep missing value digit)
      ((s.within ascii).codeStep missing value digit) := by
  refine widens_ite ?_ (widens_some trivial)
  by_cases hvalid : (16 * value + digit).isValidChar
  · rw [dif_pos hvalid, dif_pos hvalid]
    exact widens_ite widens_none (widens_put _ _)
  · rw [dif_neg hvalid]
    exact widens_none

theorem widens_nameStep (s : Scanner) (done : List Char) (c : Char) :
    Widens ascii (s.nameStep done c) ((s.within ascii).nameStep done c) :=
  widens_ite (widens_ite widens_none (widens_some trivial))
    (widens_ite (widens_some trivial) widens_none)

/-- The sign that ends flags closes a group of the inner scanner, which has one. -/
theorem widens_flagStep (h : s.groups ≠ []) (seen : List Char) (off dangling : Bool) (c : Char) :
    Widens ascii (s.flagStep seen off dangling c)
      ((s.within ascii).flagStep seen off dangling c) := by
  obtain ⟨groups, names, flag, operand, depth, low, mode⟩ := s
  obtain ⟨first, rest, rfl⟩ := List.exists_cons_of_ne_nil h
  unfold flagStep
  split
  all_goals
    first
    | exact widens_ite widens_none (widens_some trivial)
    | exact widens_ite widens_none (widens_some (List.cons_ne_nil _ _))
    | exact widens_ite (widens_some (List.cons_ne_nil _ _)) widens_none

theorem widens_step (h : s.Grouped) (c : Char) :
    Widens ascii (s.step c) ((s.within ascii).step c) := by
  obtain ⟨groups, names, flag, operand, depth, low, mode⟩ := s
  cases mode with
  | outside => exact widens_outsideStep _ c
  | repeated => exact widens_ite (widens_some trivial) (widens_outsideStep _ c)
  | groupStart => exact widens_ite (widens_some h) (widens_outsideStep _ c)
  | groupKind =>
    exact widens_ite (widens_some trivial) <|
      widens_ite (widens_some trivial) (widens_flagStep h [] false false c)
  | namedKind => exact widens_ite (widens_some trivial) widens_none
  | name done => exact widens_nameStep _ done c
  | flags seen off dangling => exact widens_flagStep h seen off dangling c
  | escape => exact widens_escapeStep _ c
  | code missing value =>
    change Widens ascii ((Text.hexValue? c).bind _) ((Text.hexValue? c).bind _)
    cases Text.hexValue? c with
    | none => exact widens_none
    | some digit => exact widens_codeStep _ missing value digit
  | property => exact widens_ite (widens_put _ _) widens_none
  | classStart negatable empty => exact widens_classStep _ negatable empty c
  | inside => exact widens_insideStep _ c
  | after item => exact widens_ite (widens_some trivial) (widens_insideStep _ c)
  | dash item => exact widens_dashStep _ item c
  | doubled sign => exact widens_doubledStep _ sign c

/-- A run inside one more group is the same run. -/
theorem widens_foldlM (h : s.Grouped) (cs : List Char) :
    Widens ascii (cs.foldlM step s) (cs.foldlM step (s.within ascii)) := by
  induction cs generalizing s with
  | nil => exact widens_some h
  | cons c cs ih =>
    rw [List.foldlM_cons, List.foldlM_cons]
    intro u hu
    obtain ⟨t, hstep, hrun⟩ := Option.bind_eq_some_iff.mp hu
    have hwidens : Widens ascii (s.step c) _ := widens_step h c
    obtain ⟨hwide, hgrouped⟩ := hwidens t hstep
    rw [hwide]
    exact ih hgrouped u hrun

/-- Nothing is open, and what was read last may be repeated. -/
structure Repeatable (s : Scanner) : Prop where
  groups : s.groups = []
  operand : s.operand = true
  mode : s.mode = .outside

theorem isComplete_iff : s.isComplete = true ↔
    s.groups = [] ∧ (s.mode = .outside ∨ s.mode = .repeated) := by
  obtain ⟨groups, names, flag, operand, depth, low, mode⟩ := s
  cases mode <;> simp [isComplete]

theorem step_close (h : s.isComplete = true) :
    ∃ t, (s.within ascii).step ')' = some t ∧ t.Repeatable := by
  obtain ⟨groups, names, flag, operand, depth, low, mode⟩ := s
  obtain ⟨rfl, rfl | rfl⟩ := isComplete_iff.mp h
  all_goals exact ⟨_, rfl, rfl, rfl, rfl⟩

/-- Behind a parenthesis a pattern is read as at the beginning of the text. -/
theorem foldlM_openGroup (h : cs.foldlM step start = some t) (hcs : cs ≠ []) :
    cs.foldlM step start.openGroup = some (t.within false) := by
  cases cs with
  | nil => exact absurd rfl hcs
  | cons c cs =>
    have hfirst : start.openGroup.step c = (start.within false).step c := by
      change (if c = '?' then _ else _) = _
      split
      · rename_i hc
        subst hc
        exact absurd h nofun
      · rfl
    rw [List.foldlM_cons, hfirst, ← List.foldlM_cons]
    exact (widens_foldlM (s := start) trivial (c :: cs) t h).1

end Scanner

theorem isValid_iff : isValid cs = true ↔
    ∃ s, cs.foldlM Scanner.step .start = some s ∧ s.isComplete = true :=
  Option.any_eq_true _ _

theorem foldlM_group (h : isValid cs = true) :
    ∃ s, ('(' :: (cs ++ [')'])).foldlM Scanner.step .start = some s ∧ s.Repeatable := by
  obtain ⟨s, hrun, hcomplete⟩ := isValid_iff.mp h
  obtain ⟨t, hclose, hrepeatable⟩ : ∃ t, (s.within false).step ')' = some t ∧ t.Repeatable :=
    Scanner.step_close hcomplete
  refine ⟨t, ?_, hrepeatable⟩
  have hopen : Scanner.start.step '(' = some Scanner.start.openGroup := rfl
  by_cases hcs : cs = []
  · subst hcs
    cases hrun
    exact hclose
  · rw [List.foldlM_cons, hopen, Option.bind_eq_bind, Option.bind_some, List.foldlM_append,
      Scanner.foldlM_openGroup hrun hcs, Option.bind_eq_bind, Option.bind_some, List.foldlM_cons,
      hclose]
    rfl

/-- A pattern in parentheses is a pattern, and it may be repeated. -/
theorem isValid_group (h : isValid cs = true) :
    isValid ('(' :: (cs ++ [')'])) = true ∧
      ∀ sign ∈ ['*', '+', '?'], isValid ('(' :: (cs ++ [')']) ++ [sign]) = true := by
  obtain ⟨⟨groups, names, flag, operand, depth, low, mode⟩, hrun, rfl, rfl, rfl⟩ :=
    foldlM_group h
  refine ⟨isValid_iff.mpr ⟨_, hrun, rfl⟩, fun sign hsign ↦ ?_⟩
  rw [isValid, List.foldlM_append, hrun]
  simp only [List.mem_cons, List.not_mem_nil, or_false] at hsign
  rcases hsign with rfl | rfl | rfl <;> rfl

/-- What would be open or closed behind a whole pattern is no part of one. -/
theorem isValid_concat_eq_false (h : isValid cs = true) :
    ∀ sign ∈ ['(', ')', '[', '\x7b', '\\'], isValid (cs ++ [sign]) = false := by
  obtain ⟨⟨groups, names, flag, operand, depth, low, mode⟩, hrun, hcomplete⟩ := isValid_iff.mp h
  obtain ⟨rfl, rfl | rfl⟩ := Scanner.isComplete_iff.mp hcomplete
  all_goals
    intro sign hsign
    rw [isValid, List.foldlM_append, hrun]
    simp only [List.mem_cons, List.not_mem_nil, or_false] at hsign
    rcases hsign with rfl | rfl | rfl | rfl | rfl <;> rfl

end Criteria.Pattern
