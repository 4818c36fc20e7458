import Criteria.Proofs.Grammar

/-!
The stack machine reads exactly the grammar. Tokens that derive a formula drive the machine from
wanting a condition to holding the formula, unless their groups lie too deep, and then the depth is
the fault. A run that ends well has read tokens that derive its formula.
-/

set_option autoImplicit false
set_option relaxedAutoImplicit false

namespace Criteria.Grammar

open Formula

variable {maxDepth stop : Nat} {groups : List Group} {pending : Pending} {f : Formula} {t : Token}

/-! ### The steps of the machine -/

theorem parseFrom_open (ht : t.kind = .leftParen) (hroom : groups.length < maxDepth)
    (rest : List Token) :
    parseFrom maxDepth stop groups (.wanting pending) (t :: rest) =
      parseFrom maxDepth stop (⟨t.offset, pending⟩ :: groups) (.wanting none) rest := by
  rw [parseFrom.eq_def]
  simp only [ht, ↓reduceIte, if_neg (show ¬maxDepth ≤ groups.length by omega)]

theorem parseFrom_open_tooDeep (ht : t.kind = .leftParen) (hfull : maxDepth ≤ groups.length)
    (rest : List Token) :
    parseFrom maxDepth stop groups (.wanting pending) (t :: rest) =
      .error ⟨t.offset, .tooDeep maxDepth⟩ := by
  rw [parseFrom.eq_def]
  simp only [ht, ↓reduceIte, if_pos hfull]

theorem parseFrom_condition {op literal : Token} {c : Condition} (ht : t.kind ≠ .leftParen)
    (hc : condition t op literal = .ok c) (rest : List Token) :
    parseFrom maxDepth stop groups (.wanting pending) (t :: op :: literal :: rest) =
      parseFrom maxDepth stop groups (.holding (pending.close (.test c))) rest := by
  rw [parseFrom.eq_def]
  simp only [if_neg ht, hc]

theorem parseFrom_connective {connective : Connective} (ht : t.kind = .connective)
    (hconnective : Connective.ofSymbol? t.text = some connective) (rest : List Token) :
    parseFrom maxDepth stop groups (.holding f) (t :: rest) =
      parseFrom maxDepth stop groups (.wanting (some (f, connective))) rest := by
  rw [parseFrom.eq_def]
  simp only [ht, ↓reduceIte, hconnective]

theorem parseFrom_close {group : Group} (ht : t.kind = .rightParen) (rest : List Token) :
    parseFrom maxDepth stop (group :: groups) (.holding f) (t :: rest) =
      parseFrom maxDepth stop groups (.holding (group.pending.close f)) rest := by
  rw [parseFrom.eq_def]
  simp only [ht, reduceCtorEq, ↓reduceIte]

theorem condition_eq_ok_iff {field sign literal : Token} {c : Condition} :
    condition field sign literal = .ok c ↔
      field.kind = .identifier ∧ sign.kind = .comparison ∧
        (literal.kind = .text ∨ literal.kind = .number) ∧
        ∃ op, Comparison.ofSymbol? sign.text = some op ∧
          c = ⟨field.text, op, Literal.ofTokenText literal.text⟩ := by
  unfold condition
  by_cases hfield : field.kind = .identifier
  · by_cases hsign : sign.kind = .comparison
    · cases hop : Comparison.ofSymbol? sign.text with
      | none => simp [hfield, hsign]
      | some op =>
        by_cases hliteral : literal.kind = .text ∨ literal.kind = .number
        · simp only [hfield, hsign, ne_eq, not_true_eq_false, ↓reduceIte, if_pos hliteral]
          exact ⟨fun h ↦ ⟨trivial, trivial, hliteral, op, rfl, (Except.ok.inj h).symm⟩,
            fun ⟨_, _, _, _, hop', hc⟩ ↦ by rw [hc, Option.some.inj hop']⟩
        · simp [hfield, hsign, hliteral]
    · simp [hfield, hsign]
  · simp [hfield]

/-! ### Derived tokens are read -/

/-- Tokens that derive a formula and find room for their groups take the machine from wanting a
condition to holding the formula, joined to what was pending. -/
theorem parseFrom_of_derives {p : Phrase} {ls : List Lexeme} (h : Derives p ls f)
    {tokens : List Token} (htokens : tokens.map Token.lexeme = ls)
    (hpending : p = .expression → pending = none)
    (hroom : groups.length + nesting ls ≤ maxDepth) (rest : List Token) :
    parseFrom maxDepth stop groups (.wanting pending) (tokens ++ rest) =
      parseFrom maxDepth stop groups (.holding (pending.close f)) rest := by
  induction h generalizing tokens groups pending rest with
  | @comparison field sign literal op hfield hsign hop hliteral =>
    obtain ⟨t, tail, rfl, rfl, htail⟩ := List.map_eq_cons_iff.mp htokens
    obtain ⟨u, last, rfl, rfl, hlast⟩ := List.map_eq_cons_iff.mp htail
    obtain ⟨v, rfl, rfl⟩ := List.map_eq_singleton_iff.mp hlast
    have hc : condition t u v = .ok ⟨t.text, op, Literal.ofTokenText v.text⟩ :=
      condition_eq_ok_iff.mpr ⟨hfield, hsign, hliteral, op, hop, rfl⟩
    have hne : t.kind ≠ .leftParen := by
      rw [show t.kind = .identifier from hfield]
      decide
    exact parseFrom_condition hne hc rest
  | @group opener closer ls f hopener hcloser inner ih =>
    obtain ⟨t, tail, rfl, rfl, htail⟩ := List.map_eq_cons_iff.mp htokens
    obtain ⟨body, last, rfl, hbody, hlast⟩ := List.map_eq_append_iff.mp htail
    obtain ⟨u, rfl, rfl⟩ := List.map_eq_singleton_iff.mp hlast
    rw [nesting_group hopener hcloser inner] at hroom
    have hinner : parseFrom maxDepth stop (⟨t.offset, pending⟩ :: groups) (.wanting none)
        (body ++ u :: rest) =
          parseFrom maxDepth stop (⟨t.offset, pending⟩ :: groups) (.holding f) (u :: rest) :=
      ih hbody (fun _ ↦ rfl) (by simp only [List.length_cons]; omega) (u :: rest)
    rw [List.cons_append, parseFrom_open hopener (by omega), List.append_assoc,
      List.singleton_append, hinner]
    exact parseFrom_close hcloser rest
  | single _ ih => exact ih htokens (by simp [hpending]) hroom rest
  | @chain ls ms sign connective f g front hsign hconnective last ihfront ihlast =>
    obtain ⟨head, tail, rfl, hhead, htail⟩ := List.map_eq_append_iff.mp htokens
    obtain ⟨t, body, rfl, rfl, hbody⟩ := List.map_eq_cons_iff.mp htail
    rw [nesting_chain front hsign] at hroom
    -- Nothing is pending before an expression, so its front is held as it stands.
    obtain rfl : pending = none := hpending rfl
    rw [List.append_assoc, List.cons_append, ihfront hhead (fun _ ↦ rfl) (by omega),
      parseFrom_connective hsign hconnective]
    exact ihlast hbody (by simp) (by omega) rest

/-- Tokens that derive a formula but do not find room for their groups are refused for their depth,
whatever follows them. -/
theorem parseFrom_of_derives_tooDeep {p : Phrase} {ls : List Lexeme} (h : Derives p ls f)
    {tokens : List Token} (htokens : tokens.map Token.lexeme = ls)
    (hpending : p = .expression → pending = none) (hopen : groups.length ≤ maxDepth)
    (hdeep : maxDepth < groups.length + nesting ls) (rest : List Token) :
    ∃ offset, parseFrom maxDepth stop groups (.wanting pending) (tokens ++ rest) =
      .error ⟨offset, .tooDeep maxDepth⟩ := by
  induction h generalizing tokens groups pending rest with
  | comparison hfield hsign _ hliteral =>
    rw [nesting, deepest_of_flat (flat_comparison hfield hsign hliteral)] at hdeep
    omega
  | @group opener closer ls f hopener hcloser inner ih =>
    obtain ⟨t, tail, rfl, rfl, htail⟩ := List.map_eq_cons_iff.mp htokens
    obtain ⟨body, last, rfl, hbody, hlast⟩ := List.map_eq_append_iff.mp htail
    rw [nesting_group hopener hcloser inner] at hdeep
    rw [List.cons_append, List.append_assoc]
    by_cases hfull : maxDepth ≤ groups.length
    · exact ⟨t.offset, parseFrom_open_tooDeep hopener hfull _⟩
    · rw [parseFrom_open hopener (by omega)]
      exact ih hbody (fun _ ↦ rfl) (by simp only [List.length_cons]; omega)
        (by simp only [List.length_cons]; omega) _
  | single _ ih => exact ih htokens (by simp [hpending]) hopen hdeep rest
  | @chain ls ms sign connective f g front hsign hconnective last ihfront ihlast =>
    obtain ⟨head, tail, rfl, hhead, htail⟩ := List.map_eq_append_iff.mp htokens
    obtain ⟨t, body, rfl, rfl, hbody⟩ := List.map_eq_cons_iff.mp htail
    rw [nesting_chain front hsign] at hdeep
    obtain rfl : pending = none := hpending rfl
    rw [List.append_assoc, List.cons_append]
    by_cases hfront : groups.length + nesting (head.map Token.lexeme) ≤ maxDepth
    · rw [hhead] at hfront
      rw [parseFrom_of_derives front hhead (fun _ ↦ rfl) hfront,
        parseFrom_connective hsign hconnective]
      exact ihlast hbody (by simp) hopen (by omega) rest
    · rw [hhead] at hfront
      exact ihfront hhead (fun _ ↦ rfl) hopen (by omega) _

/-! ### What is read is derived -/

/-- What the lexemes before a condition amount to: nothing, or an expression and a connective. -/
def Awaits : Pending → List Lexeme → Prop
  | none, ls => ls = []
  | some (f, connective), ls => ∃ front sign, ls = front ++ [sign] ∧
      Derives .expression front f ∧ sign.kind = .connective ∧
      Connective.ofSymbol? sign.text = some connective

/-- What the lexemes up to and with the parenthesis of the innermost open group amount to. -/
def Opened : List Group → List Lexeme → Prop
  | [], ls => ls = []
  | group :: groups, ls => ∃ outside left opener, ls = outside ++ left ++ [opener] ∧
      Opened groups outside ∧ Awaits group.pending left ∧ opener.kind = .leftParen

/-- What the lexemes inside the innermost open group amount to. -/
def Focused : Focus → List Lexeme → Prop
  | .wanting pending, ls => Awaits pending ls
  | .holding f, ls => Derives .expression ls f

/-- A condition after what was pending completes an expression. -/
theorem Awaits.close {left ls : List Lexeme} (hleft : Awaits pending left)
    (h : Derives .condition ls f) : Derives .expression (left ++ ls) (pending.close f) := by
  match pending, hleft with
  | none, hleft =>
    obtain rfl : left = [] := hleft
    exact .single h
  | some (_, _), hleft =>
    obtain ⟨front, sign, rfl, hfront, hsign, hconnective⟩ := hleft
    rw [List.append_assoc, List.singleton_append]
    exact .chain hfront hsign hconnective h

/-- A run that ends well has read an expression: `outside` and `inside` are the lexemes before the
tokens that are left. -/
theorem derives_of_parseFrom (maxDepth stop : Nat) (groups : List Group) (focus : Focus)
    (tokens : List Token) {g : Formula} (h : parseFrom maxDepth stop groups focus tokens = .ok g)
    {outside inside : List Lexeme} (houtside : Opened groups outside)
    (hinside : Focused focus inside) :
    Derives .expression (outside ++ inside ++ tokens.map Token.lexeme) g := by
  fun_induction parseFrom maxDepth stop groups focus tokens generalizing outside inside with
  | case1 | case2 => simp at h
  | case3 groups pending t rest ht hroom ih =>
    have hopened : Opened (⟨t.offset, pending⟩ :: groups) (outside ++ inside ++ [t.lexeme]) :=
      ⟨outside, inside, t.lexeme, rfl, houtside, hinside, ht⟩
    simpa using ih h hopened rfl
  | case4 => simp at h
  | case5 groups pending t ht op literal rest c hc ih =>
    obtain ⟨hfield, hsign, hliteral, sign, hop, rfl⟩ := condition_eq_ok_iff.mp hc
    have hcondition : Derives .condition [t.lexeme, op.lexeme, literal.lexeme]
        (.test ⟨t.text, sign, Literal.ofTokenText literal.text⟩) :=
      .comparison hfield hsign hop hliteral
    simpa using ih h houtside (hinside.close hcondition)
  | case6 => simp at h
  | case7 f =>
    obtain rfl : f = g := by simpa using h
    obtain rfl : outside = [] := houtside
    have hread : Derives .expression inside f := hinside
    simpa using hread
  | case8 => simp at h
  | case9 => simp at h
  | case10 groups f t rest ht connective hconnective ih =>
    simpa using ih h houtside ⟨inside, t.lexeme, rfl, hinside, ht, hconnective⟩
  | case11 => simp at h
  | case12 f t rest _ group groups ht ih =>
    obtain ⟨before, left, opener, rfl, hbefore, hleft, hopener⟩ := houtside
    have hgroup : Derives .condition (opener :: (inside ++ [t.lexeme])) f :=
      .group hopener ht hinside
    simpa using ih h hbefore (hleft.close hgroup)
  | case13 => simp at h

/-- A run that ends well has opened no group beyond the bound. -/
theorem deepest_le_of_parseFrom (maxDepth stop : Nat) (groups : List Group) (focus : Focus)
    (tokens : List Token) {g : Formula} (h : parseFrom maxDepth stop groups focus tokens = .ok g)
    (hopen : groups.length ≤ maxDepth) :
    deepest groups.length (tokens.map Token.lexeme) ≤ maxDepth := by
  fun_induction parseFrom maxDepth stop groups focus tokens with
  | case1 | case2 => simp at h
  | case3 groups pending t rest ht hroom ih =>
    have hrest := ih h (by simp only [List.length_cons]; omega)
    rw [List.map_cons, deepest, depthAfter_of_leftParen (l := t.lexeme) ht]
    simp only [List.length_cons] at hrest
    omega
  | case4 => simp at h
  | case5 groups pending t ht op literal rest c hc ih =>
    obtain ⟨hfield, hsign, hliteral, -⟩ := condition_eq_ok_iff.mp hc
    have hflat : ∀ l ∈ [t.lexeme, op.lexeme, literal.lexeme],
        l.kind ≠ .leftParen ∧ l.kind ≠ .rightParen := flat_comparison hfield hsign hliteral
    have hrest := ih h hopen
    have hsplit : (t :: op :: literal :: rest).map Token.lexeme =
      [t.lexeme, op.lexeme, literal.lexeme] ++ rest.map Token.lexeme := rfl
    rw [hsplit, deepest_append, deepest_of_flat hflat, foldl_depthAfter_of_flat hflat]
    omega
  | case6 => simp at h
  | case7 => exact hopen
  | case8 => simp at h
  | case9 => simp at h
  | case10 groups f t rest ht connective hconnective ih =>
    have hkind : t.lexeme.kind = .connective := ht
    have hrest := ih h hopen
    rw [List.map_cons, deepest, depthAfter_of_ne (by simp [hkind]) (by simp [hkind])]
    omega
  | case11 => simp at h
  | case12 f t rest _ group groups ht ih =>
    simp only [List.length_cons] at hopen
    have hrest := ih h (by omega)
    rw [List.map_cons, deepest, depthAfter_of_rightParen (l := t.lexeme) ht]
    simp only [List.length_cons, Nat.add_sub_cancel]
    omega
  | case13 => simp at h

/-! ### The parser -/

theorem Derives.ne_nil {p : Phrase} {ls : List Lexeme} (h : Derives p ls f) : ls ≠ [] := by
  induction h with
  | comparison => simp
  | group => simp
  | single _ ih => exact ih
  | chain => simp

theorem parse_of_tooMany {limits : Limits} {tokens : List Token} (hne : tokens ≠ [])
    (h : limits.maxTokens < tokens.length) :
    parse limits tokens = .error ⟨0, .tooManyTokens tokens.length limits.maxTokens⟩ := by
  rw [parse, List.getLast?_eq_some_getLast hne]
  simp only [if_pos h]

/-- Tokens that are not too many are left to the machine. -/
theorem parse_eq_parseFrom {limits : Limits} {tokens : List Token} (hne : tokens ≠ [])
    (h : tokens.length ≤ limits.maxTokens) :
    parse limits tokens =
      parseFrom limits.maxDepth (tokens.getLast hne).stop [] (.wanting none) tokens := by
  rw [parse, List.getLast?_eq_some_getLast hne]
  simp only [if_neg (Nat.not_lt.mpr h)]

theorem exists_parse_eq {limits : Limits} {tokens : List Token} (hne : tokens ≠ [])
    (h : tokens.length ≤ limits.maxTokens) :
    ∃ stop, parse limits tokens = parseFrom limits.maxDepth stop [] (.wanting none) tokens :=
  ⟨_, parse_eq_parseFrom hne h⟩

theorem parse_eq_ok_iff (limits : Limits) (tokens : List Token) (f : Formula) :
    parse limits tokens = .ok f ↔
      tokens.length ≤ limits.maxTokens ∧ nesting (tokens.map Token.lexeme) ≤ limits.maxDepth ∧
        Derives .expression (tokens.map Token.lexeme) f := by
  constructor
  · intro h
    have hne : tokens ≠ [] := by
      rintro rfl
      simp [parse] at h
    by_cases hcount : tokens.length ≤ limits.maxTokens
    · obtain ⟨stop, hparse⟩ := exists_parse_eq hne hcount
      rw [hparse] at h
      have hread : Derives .expression ([] ++ [] ++ tokens.map Token.lexeme) f :=
        derives_of_parseFrom _ _ _ _ _ h rfl rfl
      exact ⟨hcount, deepest_le_of_parseFrom _ _ _ _ _ h (Nat.zero_le _), hread⟩
    · rw [parse_of_tooMany hne (by omega)] at h
      exact absurd h (by simp)
  · rintro ⟨hcount, hdeep, hread⟩
    have hne : tokens ≠ [] := fun hnil ↦ hread.ne_nil (by rw [hnil]; rfl)
    obtain ⟨stop, hparse⟩ := exists_parse_eq hne hcount
    have hrun : parseFrom limits.maxDepth stop [] (.wanting none) (tokens ++ []) =
        parseFrom limits.maxDepth stop [] (.holding f) [] :=
      parseFrom_of_derives hread rfl (fun _ ↦ rfl) (by simpa using hdeep) []
    rw [List.append_nil] at hrun
    rw [hparse, hrun]
    rfl

/-- Whether a rule is refused for its size alone. -/
def isLimit : ParseCause → Bool
  | .tooManyTokens .. | .tooDeep _ => true
  | _ => false

/-- Tokens of the grammar that break a limit are refused for that limit. -/
theorem parse_of_derives_of_exceeds {limits : Limits} {tokens : List Token}
    (h : Derives .expression (tokens.map Token.lexeme) f)
    (hlimits : limits.maxTokens < tokens.length ∨
      limits.maxDepth < nesting (tokens.map Token.lexeme)) :
    ∃ fault, parse limits tokens = .error fault ∧ isLimit fault.cause = true := by
  have hne : tokens ≠ [] := fun hnil ↦ h.ne_nil (by rw [hnil]; rfl)
  by_cases hcount : limits.maxTokens < tokens.length
  · exact ⟨_, parse_of_tooMany hne hcount, rfl⟩
  · have hdeep := hlimits.resolve_left hcount
    obtain ⟨stop, hparse⟩ := exists_parse_eq hne (Nat.not_lt.mp hcount)
    obtain ⟨offset, hrun⟩ : ∃ offset, parseFrom limits.maxDepth stop [] (.wanting none)
        (tokens ++ []) = .error ⟨offset, .tooDeep limits.maxDepth⟩ :=
      parseFrom_of_derives_tooDeep h rfl (fun _ ↦ rfl) (Nat.zero_le _) (by simpa using hdeep) []
    rw [List.append_nil] at hrun
    exact ⟨_, hparse.trans hrun, rfl⟩

/-- Any lexemes are the lexemes of tokens. -/
theorem exists_tokens (ls : List Lexeme) : ∃ tokens : List Token, tokens.map Token.lexeme = ls :=
  ⟨ls.map fun l ↦ ⟨l.kind, l.text, 0⟩, by simp [Function.comp_def, Token.lexeme]⟩

/-- The grammar is unambiguous: the parser, under limits that hold the lexemes, finds the one
formula that they spell. -/
theorem Derives.unique {ls : List Lexeme} {g : Formula} (hf : Derives .expression ls f)
    (hg : Derives .expression ls g) : f = g := by
  obtain ⟨tokens, rfl⟩ := exists_tokens ls
  let limits : Limits := ⟨tokens.length, nesting (tokens.map Token.lexeme)⟩
  have hparse {h : Formula} (hh : Derives .expression (tokens.map Token.lexeme) h) :
      parse limits tokens = .ok h :=
    (parse_eq_ok_iff limits tokens h).mpr ⟨Nat.le_refl _, Nat.le_refl _, hh⟩
  exact Except.ok.inj ((hparse hf).symm.trans (hparse hg))

/-- The parser accepts exactly the token lists of the grammar that keep both limits, and no list of
tokens spells two formulas. -/
theorem parse_accepts_exactly_grammar (tokens : List Token) :
    (∀ (limits : Limits) (f : Formula), parse limits tokens = .ok f ↔
      tokens.length ≤ limits.maxTokens ∧ nesting (tokens.map Token.lexeme) ≤ limits.maxDepth ∧
        Derives .expression (tokens.map Token.lexeme) f) ∧
    ∀ f g : Formula, Derives .expression (tokens.map Token.lexeme) f →
      Derives .expression (tokens.map Token.lexeme) g → f = g :=
  ⟨fun limits f ↦ parse_eq_ok_iff limits tokens f, fun _ _ hf hg ↦ hf.unique hg⟩

end Criteria.Grammar
