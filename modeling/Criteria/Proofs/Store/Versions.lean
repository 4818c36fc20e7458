import Criteria.Proofs.Store.Batch
import Criteria.Proofs.Store.LastWrite

/-!
The numbers that a compiler gives. Each rule that it accepts takes the next number, and one that it
refuses takes none. Every call on a store that may put rules in force loads a batch of them, so the
entries of a store are rules that its compiler has accepted; and since no two of these have one
number, the number of an entry tells the entry, at whatever moments of a run it is looked at.
-/

set_option autoImplicit false
set_option relaxedAutoImplicit false

namespace Criteria

/-- The rules that were accepted, in order. -/
def successes (attempts : List (Except Fault Compiled)) : List Compiled :=
  attempts.filterMap Except.toOption

theorem mem_successes {attempts : List (Except Fault Compiled)} {c : Compiled} :
    c ∈ successes attempts ↔ .ok c ∈ attempts := by
  simp [successes, toOption_eq_some_iff]

theorem successes_append (attempts more : List (Except Fault Compiled)) :
    successes (attempts ++ more) = successes attempts ++ successes more :=
  List.filterMap_append

/-- The rules that were accepted are numbered one after another, the first one behind `start`, and
`stop` is the number reached. -/
structure Numbered (start stop : Nat) (attempts : List (Except Fault Compiled)) : Prop where
  versions : (successes attempts).map Compiled.version =
    List.range' (start + 1) (successes attempts).length
  stop_eq : stop = start + (successes attempts).length

namespace Numbered

variable {start middle stop : Nat} {attempts more : List (Except Fault Compiled)} {c d : Compiled}

theorem nil (n : Nat) : Numbered n n [] :=
  ⟨rfl, rfl⟩

theorem refused (h : Numbered start stop attempts) (fault : Fault) :
    Numbered start stop (.error fault :: attempts) :=
  ⟨h.versions, h.stop_eq⟩

theorem accepted (hc : c.version = start + 1) (h : Numbered (start + 1) stop attempts) :
    Numbered start stop (.ok c :: attempts) := by
  obtain ⟨hversions, hstop⟩ := h
  have hfirst : successes (.ok c :: attempts) = c :: successes attempts := rfl
  constructor
  · rw [hfirst, List.map_cons, List.length_cons, List.range'_succ, hversions, hc]
  · rw [hfirst, List.length_cons]
    omega

theorem append (h : Numbered start middle attempts) (hmore : Numbered middle stop more) :
    Numbered start stop (attempts ++ more) := by
  obtain ⟨hversions, hmiddle⟩ := h
  obtain ⟨hversions', hstop⟩ := hmore
  have hnext : middle + 1 = start + 1 + 1 * (successes attempts).length := by omega
  constructor
  · rw [successes_append, List.map_append, List.length_append, hversions, hversions', hnext,
      List.range'_append]
  · rw [successes_append, List.length_append]
    omega

theorem bounds (h : Numbered start stop attempts) (hc : .ok c ∈ attempts) :
    start < c.version ∧ c.version ≤ stop := by
  have hmem := List.mem_map_of_mem (f := Compiled.version) (mem_successes.mpr hc)
  rw [h.versions, List.mem_range'_1] at hmem
  have hstop := h.stop_eq
  omega

/-- No two of them have one number. -/
theorem eq_of_version_eq (h : Numbered start stop attempts) (hc : .ok c ∈ attempts)
    (hd : .ok d ∈ attempts) (hversion : c.version = d.version) : c = d := by
  refine List.inj_on_of_nodup_map (f := Compiled.version) ?_ (mem_successes.mpr hc)
    (mem_successes.mpr hd) hversion
  rw [h.versions]
  exact List.nodup_range'

end Numbered

namespace Compiler

/-- What a compiler makes of rules that it is given one after another. A rule that it refuses leaves
it as it was. -/
def compileAll (k : Compiler) : List Rule → List (Except Fault Compiled)
  | [] => []
  | r :: rules =>
    match k.compile r with
    | .error fault => .error fault :: k.compileAll rules
    | .ok (c, k) => .ok c :: k.compileAll rules

variable {k : Compiler} {r : Rule} {f : Formula}

theorem compileAll_cons_of_resolve_error {fault : Fault} (h : r.resolve k.limits = .error fault)
    (rules : List Rule) : k.compileAll (r :: rules) = .error fault :: k.compileAll rules := by
  rw [compileAll, compile_of_resolve_error h]

theorem compileAll_cons_of_resolve (h : r.resolve k.limits = .ok f) (rules : List Rule) :
    k.compileAll (r :: rules) =
      .ok (k.accepted r f).1 :: (k.accepted r f).2.compileAll rules := by
  rw [compileAll, compile_of_resolve h]

end Compiler

namespace Store

variable {s : Store} {r : Rule} {f : Formula} {c : Compiled} {id : String} {limits : Limits}

/-! ### The attempts of a batch -/

/-- The accepted rules of a batch take the numbers that follow the one given last, and the compiler
goes on behind them. -/
theorem numbered_compileAll (s : Store) (rules : List Rule) :
    Numbered s.compiler.version (s.loadAll rules).2.compiler.version
      (s.compiler.compileAll rules) := by
  refine loadAll_induction (motive := fun s rules result ↦ Numbered s.compiler.version
    result.2.compiler.version (s.compiler.compileAll rules)) ?_ ?_ ?_ s rules
  · intro s
    exact .nil s.compiler.version
  · intro s r fault rules hresolve ih
    rw [Compiler.compileAll_cons_of_resolve_error hresolve]
    exact ih.refused fault
  · intro s r f rules hresolve ih
    rw [Compiler.compileAll_cons_of_resolve hresolve]
    exact .accepted rfl ih

/-- What is in force after a batch was so before, or the batch has made it. -/
theorem get?_loadAll_cases {rules : List Rule} (h : (s.loadAll rules).2.get? id = some c) :
    s.get? id = some c ∨ .ok c ∈ s.compiler.compileAll rules := by
  refine loadAll_induction (motive := fun s rules result ↦ result.2.get? id = some c →
    s.get? id = some c ∨ .ok c ∈ s.compiler.compileAll rules) ?_ ?_ ?_ s rules h
  · intro s h
    exact Or.inl h
  · intro s r fault rules hresolve ih h
    rw [Compiler.compileAll_cons_of_resolve_error hresolve]
    exact (ih h).imp_right (List.mem_cons_of_mem _)
  · intro s r f rules hresolve ih h
    rw [Compiler.compileAll_cons_of_resolve hresolve]
    rcases ih h with hput | hrest
    · rw [get?_put] at hput
      by_cases hid : r.id = id
      · rw [if_pos hid, Option.some.injEq] at hput
        subst hput
        exact Or.inr List.mem_cons_self
      · exact Or.inl (by rwa [if_neg hid] at hput)
    · exact Or.inr (List.mem_cons_of_mem _ hrest)

/-- Each rule that a batch makes is in force after it, unless a later one has its identifier, which
then has a greater number. -/
theorem exists_get?_loadAll {rules : List Rule} (hc : .ok c ∈ s.compiler.compileAll rules) :
    ∃ d, (s.loadAll rules).2.get? c.id = some d ∧ c.version ≤ d.version := by
  refine loadAll_induction (motive := fun s rules result ↦ .ok c ∈ s.compiler.compileAll rules →
    ∃ d, result.2.get? c.id = some d ∧ c.version ≤ d.version) ?_ ?_ ?_ s rules hc
  · intro s hc
    exact absurd hc List.not_mem_nil
  · intro s r fault rules hresolve ih hc
    rw [Compiler.compileAll_cons_of_resolve_error hresolve] at hc
    exact ih (List.mem_of_ne_of_mem (by simp) hc)
  · intro s r f rules hresolve ih hc
    rw [Compiler.compileAll_cons_of_resolve hresolve] at hc
    rcases List.mem_cons.mp hc with hfirst | hrest
    · obtain rfl : c = (s.compiler.accepted r f).1 := Except.ok.inj hfirst
      have hheld := get?_put_self s r f
      obtain ⟨d, hd⟩ := contains_eq_true_iff.mp <| (contains_loadAll (s.put r f) rules r.id).mpr <|
        Or.inl (contains_eq_true_iff.mpr ⟨_, hheld⟩)
      refine ⟨d, hd, ?_⟩
      rcases get?_loadAll_cases hd with hput | hlater
      · rw [hheld, Option.some.injEq] at hput
        exact le_of_eq (congrArg Compiled.version hput)
      · exact ((numbered_compileAll (s.put r f) rules).bounds hlater).1.le
    · exact ih hrest

/-! ### The attempts of a call -/

/-- The rules that a call gives to the compiler. -/
def given (s : Store) : Call → List Rule
  | .create id now text description => [⟨id, Text.trim text, description, none, now, now⟩]
  | .update now id text description =>
    (s.get? id).toList.map fun c ↦ updated c now text description
  | .combine id now members =>
    match (s.parts members).bind (Part.combine s.limits) with
    | .ok text => [⟨id, Text.trim text, "由 " ++ toString members.length ++ " 条规则组合生成", none,
        now, now⟩]
    | .error _ => []
  | .delete _ | .clear => []
  | .load r => [r]
  | .loadText now text => (Rule.ofText now text).toOption.toList
  | .loadAll rules => rules

/-- What the compiler makes of the rules that a call gives to it. -/
def attempts (s : Store) (call : Call) : List (Except Fault Compiled) :=
  s.compiler.compileAll (s.given call)

/-- What the compiler makes of all rules that it is given during some calls. -/
def allAttempts (s : Store) : List Call → List (Except Fault Compiled)
  | [] => []
  | call :: calls => s.attempts call ++ (s.after call).allAttempts calls

theorem kept_load (s : Store) (r : Rule) : s.kept (s.load r) = (s.loadAll [r]).2 := by
  rw [loadAll]
  cases s.load r <;> rfl

/-- A call loads the rules that it gives to the compiler; or it gives none, and takes rules out of
force. -/
theorem after_cases (s : Store) (call : Call) :
    s.after call = (s.loadAll (s.given call)).2 ∨
      s.given call = [] ∧ (s.after call).compiler = s.compiler ∧
        ∀ id c, (s.after call).get? id = some c → s.get? id = some c := by
  cases call with
  | create id now text description => exact Or.inl (kept_load s _)
  | update now id text description =>
    left
    cases hc : s.get? id with
    | none =>
      rw [after, update_of_absent hc, given, hc]
      rfl
    | some c =>
      rw [after, update, find_eq_ok_iff.mpr hc, given, hc]
      exact kept_load s (updated c now text description)
  | combine id now members =>
    left
    rw [after, combine, given]
    cases s.parts members with
    | error fault => rfl
    | ok parts =>
      change s.kept (Part.combine s.limits parts >>= _) = _
      simp only [Except.bind]
      cases Part.combine s.limits parts with
      | error fault => rfl
      | ok text => exact kept_load s _
  | delete id =>
    right
    cases hc : s.get? id with
    | none =>
      rw [after, delete_of_absent hc]
      exact ⟨rfl, rfl, fun _ _ hheld ↦ hheld⟩
    | some c =>
      rw [after, delete_eq_ok_iff.mpr ⟨c, hc, rfl, rfl⟩]
      refine ⟨rfl, rfl, fun j d hheld ↦ ?_⟩
      rw [kept, get?_erase] at hheld
      split at hheld
      · exact absurd hheld (Option.some_ne_none d).symm
      · exact hheld
  | clear => exact Or.inr ⟨rfl, rfl, fun _ _ hheld ↦ absurd hheld (Option.some_ne_none _).symm⟩
  | load r => exact Or.inl (kept_load s r)
  | loadText now text =>
    left
    rw [after, loadText, given]
    cases Rule.ofText now text with
    | error mismatch => rfl
    | ok r => exact kept_load s r
  | loadAll rules => exact Or.inl rfl

/-- The rules that a call makes take the next numbers, and the compiler goes on behind them. -/
theorem numbered_attempts (s : Store) (call : Call) :
    Numbered s.compiler.version (s.after call).compiler.version (s.attempts call) := by
  rcases s.after_cases call with hload | ⟨hgiven, hcompiler, -⟩
  · rw [hload]
    exact s.numbered_compileAll (s.given call)
  · rw [hcompiler, attempts, hgiven]
    exact .nil s.compiler.version

theorem get?_after_cases {call : Call} (h : (s.after call).get? id = some c) :
    s.get? id = some c ∨ .ok c ∈ s.attempts call := by
  rcases s.after_cases call with hload | ⟨-, -, hkept⟩
  · rw [hload] at h
    exact get?_loadAll_cases h
  · exact Or.inl (hkept id c h)

/-- What a call makes is in force after it, or something later that has its identifier. -/
theorem exists_get?_after {call : Call} (hc : .ok c ∈ s.attempts call) :
    ∃ d, (s.after call).get? c.id = some d ∧ c.version ≤ d.version := by
  rcases s.after_cases call with hload | ⟨hgiven, -, -⟩
  · rw [hload]
    exact exists_get?_loadAll hc
  · rw [attempts, hgiven] at hc
    exact absurd hc List.not_mem_nil

/-! ### The attempts of a run -/

theorem numbered_allAttempts (s : Store) (calls : List Call) :
    Numbered s.compiler.version (calls.foldl after s).compiler.version (s.allAttempts calls) := by
  induction calls generalizing s with
  | nil => exact .nil s.compiler.version
  | cons call calls ih => exact (s.numbered_attempts call).append (ih (s.after call))

theorem allAttempts_append (s : Store) (calls more : List Call) :
    s.allAttempts (calls ++ more) =
      s.allAttempts calls ++ (calls.foldl after s).allAttempts more := by
  induction calls generalizing s with
  | nil => rfl
  | cons call calls ih => simp [allAttempts, ih]

theorem get?_foldl_cases {calls : List Call} (h : (calls.foldl after s).get? id = some c) :
    s.get? id = some c ∨ .ok c ∈ s.allAttempts calls := by
  induction calls generalizing s with
  | nil => exact Or.inl h
  | cons call calls ih =>
    rw [allAttempts, List.mem_append]
    rcases ih h with hafter | hlater
    · exact (get?_after_cases hafter).imp_right Or.inl
    · exact Or.inr (Or.inr hlater)

/-- What is in force at some moment of a run was made during the run. -/
theorem mem_allAttempts_of_get? {calls earlier : List Call} (hearlier : earlier <+: calls)
    (h : (run limits earlier).get? id = some c) : .ok c ∈ (ofLimits limits).allAttempts calls := by
  obtain ⟨later, rfl⟩ := hearlier
  rw [allAttempts_append, List.mem_append]
  refine Or.inl ((get?_foldl_cases h).resolve_left ?_)
  exact (Option.some_ne_none c).symm

/-- The rules made in a run are numbered from one up to the number that the compiler has reached. -/
theorem numbered_run (limits : Limits) (calls : List Call) :
    Numbered 0 (run limits calls).compiler.version ((ofLimits limits).allAttempts calls) :=
  numbered_allAttempts (ofLimits limits) calls

/-- In a run the rules that are accepted are numbered one, two, three and so on, whatever is refused
between them. The rules in force are some of these, with numbers that are all different and none
beyond the compiler's. What a call makes is in force after it, unless the call makes something later
under the same identifier, and has a greater number than anything that was in force under that
identifier before. So what is in force at any two moments under any two identifiers is the same if
the numbers are. -/
theorem versions_identify_rules (limits : Limits) (calls : List Call) :
    (successes ((ofLimits limits).allAttempts calls)).map Compiled.version =
      List.range' 1 (run limits calls).compiler.version ∧
    (∀ c ∈ (run limits calls).entries, .ok c ∈ (ofLimits limits).allAttempts calls ∧
      c.version ≤ (run limits calls).compiler.version) ∧
    ((run limits calls).entries.map Compiled.version).Nodup ∧
    (∀ call c, .ok c ∈ (run limits calls).attempts call →
      (∃ d, ((run limits calls).after call).get? c.id = some d ∧ c.version ≤ d.version) ∧
        ∀ earlier old, earlier <+: calls → (run limits earlier).get? c.id = some old →
          old.version < c.version) ∧
    ∀ m n id id' c d, m <+: calls → n <+: calls → (run limits m).get? id = some c →
      (run limits n).get? id' = some d → c.version = d.version → c = d := by
  have hnumbered := numbered_run limits calls
  have hnodup := nodup_run limits calls
  have hmade : ∀ c ∈ (run limits calls).entries, .ok c ∈ (ofLimits limits).allAttempts calls :=
    fun c hc ↦ mem_allAttempts_of_get? List.prefix_rfl (get?_of_mem hnodup hc)
  refine ⟨?_, fun c hc ↦ ⟨hmade c hc, (hnumbered.bounds (hmade c hc)).2⟩, ?_, ?_, ?_⟩
  · have hstop := hnumbered.stop_eq
    rw [Nat.zero_add] at hstop
    rw [hnumbered.versions, hstop]
  · refine (List.Nodup.of_map Compiled.id hnodup).map_on ?_
    exact fun c hc d hd ↦ hnumbered.eq_of_version_eq (hmade c hc) (hmade d hd)
  · intro call c hc
    refine ⟨exists_get?_after hc, fun earlier old hearlier hold ↦ ?_⟩
    have hle := (hnumbered.bounds (mem_allAttempts_of_get? hearlier hold)).2
    exact hle.trans_lt ((numbered_attempts _ call).bounds hc).1
  · intro m n id id' c d hm hn hc hd
    exact hnumbered.eq_of_version_eq (mem_allAttempts_of_get? hm hc)
      (mem_allAttempts_of_get? hn hd)

/-- Refused rules take no number, and a rule that comes back takes a new one. -/
example :
    (run .standard [.create "a" ⟨0, 0⟩ "x = 'y'" "", .create "b" ⟨1, 0⟩ "x =" "", .delete "a",
      .loadAll [⟨"c", "x = 'y'", "", none, ⟨2, 0⟩, ⟨2, 0⟩⟩, ⟨"c", "x", "", none, ⟨3, 0⟩, ⟨3, 0⟩⟩,
        ⟨"c", "x = 'z'", "", none, ⟨4, 0⟩, ⟨4, 0⟩⟩],
      .load ⟨"a", "x = 'y'", "", none, ⟨0, 0⟩, ⟨0, 0⟩⟩]).entries.map
        (fun c ↦ (c.id, c.version)) = [("a", 4), ("c", 3)] := by
  decide +kernel

end Store

end Criteria
