import Criteria.Proofs.Grammar.Machine

/-!
How the machine goes on and how it halts. It reads tokens from one state to another, whatever
follows them, and it halts in a few ways, each with its answer. A bound on the depth makes it halt
earlier at most, so a run under a lower bound is the run under a higher one, or is cut short for
want of room.
-/

set_option autoImplicit false
set_option relaxedAutoImplicit false

namespace Criteria.Grammar

open Formula

variable {maxDepth stop : Nat} {groups groups' groups'' : List Group}
variable {focus focus' focus'' : Focus} {pending : Pending} {f : Formula} {t op literal : Token}

/-! ### Going on -/

/-- The tokens take the machine from a state to another one, whatever follows them, where groups
may lie `maxDepth` deep. -/
def Reads (maxDepth : Nat) (groups : List Group) (focus : Focus) (tokens : List Token)
    (groups' : List Group) (focus' : Focus) : Prop :=
  ∀ depth stop rest, maxDepth ≤ depth →
    parseFrom depth stop groups focus (tokens ++ rest) =
      parseFrom depth stop groups' focus' rest

theorem Reads.refl (maxDepth : Nat) (groups : List Group) (focus : Focus) :
    Reads maxDepth groups focus [] groups focus :=
  fun _ _ _ _ ↦ rfl

theorem Reads.trans {front back : List Token}
    (hfront : Reads maxDepth groups focus front groups' focus')
    (hback : Reads maxDepth groups' focus' back groups'' focus'') :
    Reads maxDepth groups focus (front ++ back) groups'' focus'' := by
  intro depth stop rest hle
  rw [List.append_assoc, hfront depth stop _ hle, hback depth stop rest hle]

theorem reads_open (ht : t.kind = .leftParen) (hroom : groups.length < maxDepth) :
    Reads maxDepth groups (.wanting pending) [t] (⟨t.offset, pending⟩ :: groups)
      (.wanting none) :=
  fun _ _ rest hle ↦ parseFrom_open ht (Nat.lt_of_lt_of_le hroom hle) rest

theorem reads_condition {c : Condition} (ht : t.kind ≠ .leftParen)
    (hc : condition t op literal = .ok c) :
    Reads maxDepth groups (.wanting pending) [t, op, literal] groups
      (.holding (pending.close (.test c))) :=
  fun _ _ rest _ ↦ parseFrom_condition ht hc rest

theorem reads_connective {connective : Connective} (ht : t.kind = .connective)
    (hconnective : Connective.ofSymbol? t.text = some connective) :
    Reads maxDepth groups (.holding f) [t] groups (.wanting (some (f, connective))) :=
  fun _ _ rest _ ↦ parseFrom_connective ht hconnective rest

theorem reads_close {group : Group} (ht : t.kind = .rightParen) :
    Reads maxDepth (group :: groups) (.holding f) [t] groups
      (.holding (group.pending.close f)) :=
  fun _ _ rest _ ↦ parseFrom_close ht rest

/-! ### Halting -/

/-- The machine halts in the state with the tokens still to come, and this is its answer. -/
inductive Halts (maxDepth stop : Nat) :
    List Group → Focus → List Token → Except ParseFault Formula → Prop
  | complete (f : Formula) : Halts maxDepth stop [] (.holding f) [] (.ok f)
  | missing (groups : List Group) (pending : Pending) :
    Halts maxDepth stop groups (.wanting pending) [] (.error ⟨stop, .missingCondition⟩)
  | tooDeep {groups : List Group} {t : Token} (pending : Pending) (rest : List Token)
    (ht : t.kind = .leftParen) (hfull : maxDepth ≤ groups.length) :
    Halts maxDepth stop groups (.wanting pending) (t :: rest)
      (.error ⟨t.offset, .tooDeep maxDepth⟩)
  | short {t : Token} {rest : List Token} (groups : List Group) (pending : Pending)
    (ht : t.kind ≠ .leftParen) (hrest : rest.length < 2) :
    Halts maxDepth stop groups (.wanting pending) (t :: rest)
      (.error ⟨t.offset, .shortCondition⟩)
  | condition {t op literal : Token} {fault : ParseFault} (groups : List Group)
    (pending : Pending) (rest : List Token) (ht : t.kind ≠ .leftParen)
    (hc : Formula.condition t op literal = .error fault) :
    Halts maxDepth stop groups (.wanting pending) (t :: op :: literal :: rest) (.error fault)
  | unclosed (group : Group) (groups : List Group) (f : Formula) :
    Halts maxDepth stop (group :: groups) (.holding f) []
      (.error ⟨stop, .unclosedGroup group.opener⟩)
  | connective {t : Token} (groups : List Group) (f : Formula) (rest : List Token)
    (ht : t.kind = .connective) (hconnective : Connective.ofSymbol? t.text = none) :
    Halts maxDepth stop groups (.holding f) (t :: rest)
      (.error ⟨t.offset, .unknownConnective t.text⟩)
  | trailing {t : Token} (f : Formula) (rest : List Token) (ht : t.kind ≠ .connective) :
    Halts maxDepth stop [] (.holding f) (t :: rest) (.error ⟨t.offset, .trailing t.text⟩)
  | unclosedAt {t : Token} (group : Group) (groups : List Group) (f : Formula)
    (rest : List Token) (hconnective : t.kind ≠ .connective) (ht : t.kind ≠ .rightParen) :
    Halts maxDepth stop (group :: groups) (.holding f) (t :: rest)
      (.error ⟨t.offset, .unclosedGroupAt group.opener t.text⟩)

/-- The machine gives the answer with which it halts. -/
theorem Halts.parseFrom_eq {tokens : List Token} {answer : Except ParseFault Formula}
    (h : Halts maxDepth stop groups focus tokens answer) :
    parseFrom maxDepth stop groups focus tokens = answer := by
  cases h with
  | complete | missing | unclosed => rfl
  | tooDeep pending rest ht hfull => exact parseFrom_open_tooDeep ht hfull rest
  | @short t rest groups pending ht hrest =>
    rw [parseFrom.eq_def]
    rcases rest with _ | ⟨u, _ | ⟨v, rest⟩⟩
    · simp only [if_neg ht]
    · simp only [if_neg ht]
    · simp only [List.length_cons] at hrest
      omega
  | condition groups pending rest ht hc =>
    rw [parseFrom.eq_def]
    simp only [if_neg ht, hc]
  | connective groups f rest ht hconnective =>
    rw [parseFrom.eq_def]
    simp only [if_pos ht, hconnective]
  | trailing f rest ht =>
    rw [parseFrom.eq_def]
    simp only [if_neg ht]
  | unclosedAt group groups f rest hconnective ht =>
    rw [parseFrom.eq_def]
    simp only [if_neg hconnective, if_neg ht]

/-- The machine reads some of the tokens, and then halts with the answer. -/
def Ends (maxDepth stop : Nat) (groups : List Group) (focus : Focus) (tokens : List Token)
    (answer : Except ParseFault Formula) : Prop :=
  ∃ done left groups' focus', tokens = done ++ left ∧
    Reads maxDepth groups focus done groups' focus' ∧
    Halts maxDepth stop groups' focus' left answer

theorem Halts.ends {tokens : List Token} {answer : Except ParseFault Formula}
    (h : Halts maxDepth stop groups focus tokens answer) :
    Ends maxDepth stop groups focus tokens answer :=
  ⟨[], tokens, groups, focus, rfl, .refl maxDepth groups focus, h⟩

theorem Reads.ends {front rest : List Token} {answer : Except ParseFault Formula}
    (hfront : Reads maxDepth groups focus front groups' focus')
    (hrest : Ends maxDepth stop groups' focus' rest answer) :
    Ends maxDepth stop groups focus (front ++ rest) answer := by
  obtain ⟨done, left, groups'', focus'', rfl, hdone, hleft⟩ := hrest
  exact ⟨front ++ done, left, groups'', focus'', (List.append_assoc _ _ _).symm,
    hfront.trans hdone, hleft⟩

/-- The answer of the machine is one with which it halts. -/
theorem ends_parseFrom (maxDepth stop : Nat) (groups : List Group) (focus : Focus)
    (tokens : List Token) :
    Ends maxDepth stop groups focus tokens (parseFrom maxDepth stop groups focus tokens) := by
  fun_induction parseFrom maxDepth stop groups focus tokens with
  | case1 groups pending => exact (Halts.missing groups pending).ends
  | case2 groups pending t rest ht hfull => exact (Halts.tooDeep pending rest ht hfull).ends
  | case3 groups pending t rest ht hroom ih =>
    exact (reads_open ht (Nat.not_le.mp hroom)).ends ih
  | case4 groups pending t ht op literal rest fault hc =>
    exact (Halts.condition groups pending rest ht hc).ends
  | case5 groups pending t ht op literal rest c hc ih => exact (reads_condition ht hc).ends ih
  | case6 groups pending t rest ht hshort =>
    have hrest : rest.length < 2 := by
      rcases rest with _ | ⟨u, _ | ⟨v, rest⟩⟩
      · exact Nat.two_pos
      · exact Nat.one_lt_two
      · exact absurd rfl (hshort u v rest)
    exact (Halts.short groups pending ht hrest).ends
  | case7 f => exact (Halts.complete f).ends
  | case8 group groups f => exact (Halts.unclosed group groups f).ends
  | case9 groups f t rest ht hconnective =>
    exact (Halts.connective groups f rest ht hconnective).ends
  | case10 groups f t rest ht connective hconnective ih =>
    exact (reads_connective ht hconnective).ends ih
  | case11 f t rest ht => exact (Halts.trailing f rest ht).ends
  | case12 f t rest _ group groups ht ih => exact (reads_close ht).ends ih
  | case13 f t rest hconnective group groups ht =>
    exact (Halts.unclosedAt group groups f rest hconnective ht).ends

/-! ### Bounds on the depth -/

/-- Under another bound the machine halts in the same way, unless it halts for want of room. -/
theorem Halts.of_bound {bound : Nat} {tokens : List Token} {answer : Except ParseFault Formula}
    (h : Halts bound stop groups focus tokens answer) (maxDepth : Nat) :
    Halts maxDepth stop groups focus tokens answer ∨
      ∃ offset, answer = .error ⟨offset, .tooDeep bound⟩ := by
  cases h with
  | complete f => exact Or.inl (.complete f)
  | missing groups pending => exact Or.inl (.missing groups pending)
  | tooDeep => exact Or.inr ⟨_, rfl⟩
  | short groups pending ht hrest => exact Or.inl (.short groups pending ht hrest)
  | condition groups pending rest ht hc => exact Or.inl (.condition groups pending rest ht hc)
  | unclosed group groups f => exact Or.inl (.unclosed group groups f)
  | connective groups f rest ht hconnective =>
    exact Or.inl (.connective groups f rest ht hconnective)
  | trailing f rest ht => exact Or.inl (.trailing f rest ht)
  | unclosedAt group groups f rest hconnective ht =>
    exact Or.inl (.unclosedAt group groups f rest hconnective ht)

/-- Under a lower bound the machine gives the same answer, or the bound is its fault. -/
theorem parseFrom_eq_or_tooDeep {low high : Nat} (hle : low ≤ high) (stop : Nat)
    (groups : List Group) (focus : Focus) (tokens : List Token) :
    parseFrom low stop groups focus tokens = parseFrom high stop groups focus tokens ∨
      ∃ offset, parseFrom low stop groups focus tokens = .error ⟨offset, .tooDeep low⟩ := by
  obtain ⟨done, left, groups', focus', htokens, hdone, hhalts⟩ :=
    ends_parseFrom low stop groups focus tokens
  refine (hhalts.of_bound high).imp_left fun hhigh ↦ ?_
  rw [htokens] at hhigh ⊢
  rw [hdone high stop left hle, hhigh.parseFrom_eq]

/-- What is read under a bound is read under a higher one. -/
theorem parseFrom_mono {low high : Nat} (hle : low ≤ high) {tokens : List Token}
    (h : parseFrom low stop groups focus tokens = .ok f) :
    parseFrom high stop groups focus tokens = .ok f := by
  rcases parseFrom_eq_or_tooDeep hle stop groups focus tokens with hsame | ⟨offset, hdeep⟩
  · rw [← hsame, h]
  · rw [h] at hdeep
    cases hdeep

end Criteria.Grammar
