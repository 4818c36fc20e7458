import Criteria.Combination
import Criteria.Formula.Holds
import Criteria.Proofs.Formula.Read
import Criteria.Proofs.Steps
import Mathlib

/-!
Combined rule texts. The whole is read as the parts, each as one group of a chain, so it spells the
formulas of the parts joined from left to right, and only its size can keep it from being read.
-/

set_option autoImplicit false
set_option relaxedAutoImplicit false

namespace Criteria

open Formula Grammar Token

/-- The values joined from left to right, each link with the connective that stands before it. -/
def chain {α : Type} (join : Connective → α → α → α) (first : α) (links : List (Connective × α)) :
    α :=
  links.foldl (fun left link ↦ join link.1 left link.2) first

/-! ### Chains of lexemes -/

section Chain

variable {connectives : List Connective} {ls : List Lexeme} {lss : List (List Lexeme)}
variable {f : Formula} {fs : List Formula}

/-- A chain that begins with a join begins with the left side of it. -/
theorem chain_join (connective : Connective) (ls ms : List Lexeme)
    (links : List (Connective × List Lexeme)) :
    chain Lexeme.join (Lexeme.join connective ls ms) links =
      Lexeme.join connective ls (chain Lexeme.join ms links) := by
  induction links generalizing ms with
  | nil => rfl
  | cons link links ih =>
    have hassoc : Lexeme.join link.1 (Lexeme.join connective ls ms) link.2 =
        Lexeme.join connective ls (Lexeme.join link.1 ms link.2) := by simp [Lexeme.join]
    change chain _ (Lexeme.join link.1 (Lexeme.join connective ls ms) link.2) links = _
    rw [hassoc]
    exact ih (Lexeme.join link.1 ms link.2)

/-- A chain of conditions spells their formulas joined from left to right. -/
theorem derives_chain (hf : Derives .expression ls f)
    (h : List.Forall₂ (Derives .condition) lss fs) (connectives : List Connective) :
    Derives .expression (chain Lexeme.join ls (connectives.zip lss))
      (chain .join f (connectives.zip fs)) := by
  induction h generalizing ls f connectives with
  | nil => simpa [chain] using hf
  | cons hg _ ih =>
    cases connectives with
    | nil => exact hf
    | cons connective connectives => exact ih (derives_join hf hg) connectives

theorem length_chain (h : connectives.length = lss.length) (ls : List Lexeme) :
    (chain Lexeme.join ls (connectives.zip lss)).length =
      ls.length + (lss.map fun ms ↦ ms.length + 1).sum := by
  induction lss generalizing connectives ls with
  | nil => simp [chain]
  | cons ms lss ih =>
    cases connectives with
    | nil => simp at h
    | cons connective connectives =>
      have hrest := ih (Nat.succ.inj h) (Lexeme.join connective ls ms)
      rw [Lexeme.join, List.length_append, List.length_cons] at hrest
      rw [List.map_cons, List.sum_cons, ← Nat.add_assoc]
      exact hrest

/-- A chain is as deep as the deepest of its links. -/
theorem nesting_chain_le (hlength : connectives.length = lss.length)
    (hf : Derives .expression ls f) (h : List.Forall₂ (Derives .condition) lss fs) (depth : Nat) :
    nesting (chain Lexeme.join ls (connectives.zip lss)) ≤ depth ↔
      nesting ls ≤ depth ∧ ∀ ms ∈ lss, nesting ms ≤ depth := by
  induction h generalizing ls f connectives with
  | nil => simp [chain]
  | @cons ms g lss fs hg _ ih =>
    cases connectives with
    | nil => simp at hlength
    | cons connective connectives =>
      have hjoin : Derives .expression (Lexeme.join connective ls ms) (.join connective f g) :=
        derives_join hf hg
      have hrest := ih (Nat.succ.inj hlength) hjoin
      have hfirst : nesting (Lexeme.join connective ls ms) = max (nesting ls) (nesting ms) :=
        nesting_chain hf rfl
      rw [List.forall_mem_cons, ← and_assoc, ← Nat.max_le, ← hfirst]
      exact hrest

/-- A chain of formulas holds as its links do, joined from left to right. -/
theorem holds_chain (f : Formula) (links : List (Connective × Formula)) (r : Record) :
    (chain .join f links).holds r =
      chain Connective.apply (f.holds r) (links.map fun link ↦ (link.1, link.2.holds r)) := by
  induction links generalizing f with
  | nil => rfl
  | cons link links ih => exact ih (.join link.1 f link.2)

end Chain

namespace Part

variable {limits : Limits} {p : Part} {rest : List Part} {f : Formula}

/-- The tokens of the part's text. -/
def tokens (p : Part) : List Token :=
  (scan p.text).toOption.getD []

def lexemes (p : Part) : List Lexeme :=
  p.tokens.map lexeme

/-- The lexemes of the part in the whole. -/
def groupLexemes (p : Part) : List Lexeme :=
  Lexeme.parens p.lexemes

/-- The lexemes of the whole. -/
def wholeLexemes (p : Part) (rest : List Part) (connectives : List Connective) : List Lexeme :=
  chain Lexeme.join p.groupLexemes (connectives.zip (rest.map groupLexemes))

/-! ### The parts in the whole -/

theorem lexemes?_text (h : Formula.read limits p.text = .ok f) :
    lexemes? p.text.toList = some p.lexemes ∧ Derives .expression p.lexemes f := by
  obtain ⟨ls, hls, -, -, hderives⟩ := read_eq_ok_iff.mp h
  obtain ⟨ts, hts, rfl⟩ := lexemes?_eq_some_iff.mp hls
  have htokens : p.tokens = ts := by
    change (scanFrom [] 0 p.text.toList).toOption.getD [] = ts
    rw [hts]
    rfl
  rw [lexemes, htokens]
  exact ⟨hls, hderives⟩

theorem lexemes?_write (h : Formula.read limits p.text = .ok f) :
    lexemes? p.write.toList = some p.groupLexemes := by
  have htrim : lexemes? (Text.trimChars p.text.toList) = some p.lexemes :=
    (lexemes?_trimChars _).trans (lexemes?_text h).1
  simpa [write, Text.trim, groupLexemes] using lexemes?_parens htrim

theorem derives_groupLexemes (h : Formula.read limits p.text = .ok f) :
    Derives .condition p.groupLexemes f :=
  .group rfl rfl (lexemes?_text h).2

theorem length_groupLexemes (p : Part) : p.groupLexemes.length = p.tokens.length + 2 := by
  simp [groupLexemes, Lexeme.parens, lexemes]

theorem nesting_groupLexemes (h : Formula.read limits p.text = .ok f) :
    nesting p.groupLexemes = nesting p.lexemes + 1 :=
  nesting_group rfl rfl (lexemes?_text h).2

/-- Parts that can be read are joined, and the whole is read as the chain of their groups. -/
theorem exists_join {fs : List Formula} {connectives : List Connective}
    (hf : Formula.read limits p.text = .ok f)
    (hfs : List.Forall₂ (fun q g ↦ Formula.read limits q.text = .ok g) rest fs)
    (hconnectives : (p :: rest).dropLast.map Part.connective = connectives.map some)
    (index : Nat) :
    ∃ whole, join limits index (p :: rest) = .ok whole ∧
      lexemes? whole.toList = some (wholeLexemes p rest connectives) := by
  induction hfs generalizing p f connectives index with
  | nil =>
    refine ⟨p.write, ?_, by simpa [wholeLexemes, chain] using lexemes?_write hf⟩
    rw [join, hf]
    rfl
  | @cons q g rest fs hg _ ih =>
    cases connectives with
    | nil => simp at hconnectives
    | cons connective connectives =>
      obtain ⟨hconnective, htail⟩ : p.connective = some connective ∧
          (q :: rest).dropLast.map Part.connective = connectives.map some := by
        simpa using hconnectives
      obtain ⟨joined, hjoined, hlexemes⟩ := ih hg htail (index + 1)
      refine ⟨p.write ++ " " ++ connective.symbol ++ " " ++ joined, ?_, ?_⟩
      · rw [join, hf, hconnective, hjoined]
        rfl
      · have hsides := lexemes?_spaced (lexemes?_write hf)
          (lexemes?_spaced (lexemes?_of_whole (whole_connective connective)) hlexemes)
        have hchain : wholeLexemes p (q :: rest) (connective :: connectives) =
            Lexeme.join connective p.groupLexemes (wholeLexemes q rest connectives) :=
          chain_join connective p.groupLexemes q.groupLexemes _
        rw [hchain]
        simpa [Lexeme.join] using hsides

/-! ### Combining -/

/-- The whole has the tokens of its parts, two parentheses for each, and the connectives. -/
theorem length_whole {connectives : List Connective} (h : connectives.length = rest.length) :
    (wholeLexemes p rest connectives).length =
      ((p :: rest).map fun q ↦ q.tokens.length).sum + 2 * (p :: rest).length +
        ((p :: rest).length - 1) := by
  have hsum : ((rest.map groupLexemes).map fun ms ↦ ms.length + 1).sum =
      (rest.map fun q ↦ q.tokens.length).sum + 3 * rest.length := by
    clear h
    induction rest with
    | nil => rfl
    | cons q rest ih =>
      simp only [List.map_cons, List.sum_cons, List.length_cons, length_groupLexemes] at ih ⊢
      omega
  rw [wholeLexemes, length_chain (by simpa using h), hsum, length_groupLexemes, List.map_cons,
    List.sum_cons, List.length_cons]
  omega

theorem derives_groups {parts : List Part} {gs : List Formula}
    (h : List.Forall₂ (fun q g ↦ Formula.read limits q.text = .ok g) parts gs) :
    List.Forall₂ (Derives .condition) (parts.map groupLexemes) gs :=
  List.forall₂_map_left_iff.mpr (h.imp fun _ _ hq ↦ derives_groupLexemes hq)

theorem derives_whole {fs : List Formula} (hf : Formula.read limits p.text = .ok f)
    (hfs : List.Forall₂ (fun q g ↦ Formula.read limits q.text = .ok g) rest fs)
    (connectives : List Connective) :
    Derives .expression (wholeLexemes p rest connectives) (chain .join f (connectives.zip fs)) :=
  derives_chain (.single (derives_groupLexemes hf)) (derives_groups hfs) connectives

theorem nesting_groups_le {gs : List Formula}
    (h : List.Forall₂ (fun q g ↦ Formula.read limits q.text = .ok g) rest gs) (depth : Nat) :
    (∀ ms ∈ rest.map groupLexemes, nesting ms ≤ depth) ↔
      ∀ q ∈ rest, nesting q.lexemes + 1 ≤ depth := by
  induction h with
  | nil => simp
  | cons hg _ ih =>
    rw [List.map_cons, List.forall_mem_cons, List.forall_mem_cons, nesting_groupLexemes hg, ih]

/-- The whole is one group deeper than the deepest of its parts. -/
theorem nesting_whole_le {fs : List Formula} {connectives : List Connective}
    (hf : Formula.read limits p.text = .ok f)
    (hfs : List.Forall₂ (fun q g ↦ Formula.read limits q.text = .ok g) rest fs)
    (hcount : connectives.length = rest.length) (depth : Nat) :
    nesting (wholeLexemes p rest connectives) ≤ depth ↔
      ∀ q ∈ p :: rest, nesting q.lexemes + 1 ≤ depth := by
  rw [wholeLexemes, nesting_chain_le (by simpa using hcount) (.single (derives_groupLexemes hf))
    (derives_groups hfs), nesting_groups_le hfs, nesting_groupLexemes hf, List.forall_mem_cons]

/-- What combining comes to, once every part is known to be read. -/
theorem combine_of_join {parts : List Part} {whole : String}
    (h : join limits 1 parts = .ok whole) :
    combine limits parts = (Formula.read limits whole).map fun _ ↦ whole := by
  rw [combine, h]
  change ((Formula.read limits whole).bind fun _ ↦ .ok whole) = _
  cases Formula.read limits whole <;> rfl

/-- Only parts that can be read, with a connective after each but the last, are joined. -/
theorem exists_of_join {parts : List Part} {index : Nat} {whole : String}
    (h : join limits index parts = .ok whole) :
    ∃ (f : Formula) (fs : List Formula) (connectives : List Connective),
      List.Forall₂ (fun p g ↦ Formula.read limits p.text = .ok g) parts (f :: fs) ∧
        parts.dropLast.map Part.connective = connectives.map some := by
  induction parts generalizing index whole with
  | nil => exact absurd h (by simp [join])
  | cons p parts ih =>
    cases parts with
    | nil =>
      obtain ⟨f, hf, -⟩ := bind_eq_ok_iff.mp h
      exact ⟨f, [], [], .cons hf .nil, rfl⟩
    | cons q rest =>
      obtain ⟨f, hf, h⟩ := bind_eq_ok_iff.mp h
      cases hconnective : p.connective with
      | none =>
        rw [hconnective] at h
        exact absurd h (by simp)
      | some connective =>
        rw [hconnective] at h
        obtain ⟨joined, hjoined, -⟩ := bind_eq_ok_iff.mp h
        obtain ⟨g, gs, connectives, hreads, hrest⟩ := ih hjoined
        exact ⟨f, g :: gs, connective :: connectives, .cons hf hreads,
          by simpa [hconnective] using hrest⟩

/-- What is combined spells the formulas of its parts joined from left to right. -/
theorem exists_chain_of_combine {parts : List Part} {whole : String}
    (h : combine limits parts = .ok whole) :
    ∃ (f : Formula) (fs : List Formula) (connectives : List Connective),
      List.Forall₂ (fun p g ↦ Formula.read limits p.text = .ok g) parts (f :: fs) ∧
        parts.dropLast.map Part.connective = connectives.map some ∧
          Formula.read limits whole = .ok (chain .join f (connectives.zip fs)) := by
  obtain ⟨joined, hjoin, h⟩ := bind_eq_ok_iff.mp h
  obtain ⟨g, hwhole, h⟩ := bind_eq_ok_iff.mp h
  obtain rfl : joined = whole := Except.ok.inj h
  obtain ⟨f, fs, connectives, hreads, hconnectives⟩ := exists_of_join hjoin
  refine ⟨f, fs, connectives, hreads, hconnectives, ?_⟩
  cases hreads with
  | @cons p _ rest _ hf hfs =>
    -- The lexemes of the whole keep the limits, since it is read as some formula.
    obtain ⟨_, hjoined, hlexemes⟩ := exists_join hf hfs hconnectives 1
    obtain rfl := Except.ok.inj (hjoined.symm.trans hjoin)
    obtain ⟨ls, hls, hshort, hshallow, -⟩ := read_eq_ok_iff.mp hwhole
    obtain rfl := Option.some.inj (hlexemes.symm.trans hls)
    exact read_eq_ok_iff.mpr ⟨_, hlexemes, hshort, hshallow, derives_whole hf hfs connectives⟩

/-- Parts that can be read, with a connective after each but the last, are combined if and only if
the whole keeps the limits: its tokens are those of the parts, two parentheses for each and the
connectives, and each part lies one group deeper. The whole then spells the formulas joined from
left to right and holds as they do, and otherwise it is refused for a limit. -/
theorem combine_folds_parts (limits : Limits) (parts : List Part) (f : Formula) (fs : List Formula)
    (connectives : List Connective)
    (hread : List.Forall₂ (fun p g ↦ Formula.read limits p.text = .ok g) parts (f :: fs))
    (hconnectives : parts.dropLast.map Part.connective = connectives.map some) :
    ((∃ whole, combine limits parts = .ok whole) ↔
      (parts.map fun p ↦ p.tokens.length).sum + 2 * parts.length + (parts.length - 1) ≤
          limits.maxTokens ∧
        ∀ p ∈ parts, nesting p.lexemes + 1 ≤ limits.maxDepth) ∧
    (∀ whole, combine limits parts = .ok whole →
      Formula.read limits whole = .ok (chain .join f (connectives.zip fs)) ∧
        ∀ r : Record, (chain .join f (connectives.zip fs)).holds r =
          chain Connective.apply (f.holds r) (connectives.zip (fs.map fun g ↦ g.holds r))) ∧
    ∀ fault, combine limits parts = .error fault →
      ∃ cause, fault = .grammatical cause ∧ isLimit cause.cause = true := by
  cases hread with
  | @cons p _ rest _ hf hfs =>
    obtain ⟨whole, hjoin, hlexemes⟩ := exists_join hf hfs hconnectives 1
    have hcount : connectives.length = rest.length := by
      simpa using (congrArg List.length hconnectives).symm
    have hderives := derives_whole hf hfs connectives
    rw [combine_of_join hjoin, ← length_whole hcount, ← nesting_whole_le hf hfs hcount]
    by_cases hkept : (wholeLexemes p rest connectives).length ≤ limits.maxTokens ∧
        nesting (wholeLexemes p rest connectives) ≤ limits.maxDepth
    · have hwhole := read_eq_ok_iff.mpr ⟨_, hlexemes, hkept.1, hkept.2, hderives⟩
      rw [hwhole]
      refine ⟨iff_of_true ⟨whole, rfl⟩ hkept, fun text htext ↦ ?_, fun fault hfault ↦ ?_⟩
      · obtain rfl : whole = text := Except.ok.inj htext
        refine ⟨hwhole, fun r ↦ ?_⟩
        rw [holds_chain, List.zip_map_right]
        rfl
      · exact absurd hfault (by simp [Except.map])
    · have hexceeds : limits.maxTokens < (wholeLexemes p rest connectives).length ∨
          limits.maxDepth < nesting (wholeLexemes p rest connectives) := by
        omega
      obtain ⟨fault, hwhole, hcause⟩ := read_of_exceeds hlexemes hderives hexceeds
      rw [hwhole]
      refine ⟨iff_of_false ?_ hkept, fun text htext ↦ ?_, fun other hother ↦ ?_⟩
      · rintro ⟨text, htext⟩
        exact absurd htext (by simp [Except.map])
      · exact absurd htext (by simp [Except.map])
      · exact ⟨fault, (Except.error.inj hother).symm, hcause⟩

/-- Three parts with blanks and a parenthesis in quotes, under limits that the whole just keeps. -/
theorem combine_folds_parts_of_three :
    ∃ f g h whole, combine ⟨23, 2⟩ [⟨" a>-1\n", some .or⟩, ⟨"b = 'x' AND ANDs < 2", some .and⟩,
        ⟨"(d != ')')", some .or⟩] = .ok whole ∧
      Formula.read ⟨23, 2⟩ whole = .ok (.join .and (.join .or f g) h) := by
  have hf := read_eq_ok_get ⟨23, 2⟩ " a>-1\n" (by decide +kernel)
  have hg := read_eq_ok_get ⟨23, 2⟩ "b = 'x' AND ANDs < 2" (by decide +kernel)
  have hh := read_eq_ok_get ⟨23, 2⟩ "(d != ')')" (by decide +kernel)
  obtain ⟨hcombine, hfold, -⟩ := combine_folds_parts ⟨23, 2⟩ [⟨" a>-1\n", some .or⟩,
    ⟨"b = 'x' AND ANDs < 2", some .and⟩, ⟨"(d != ')')", some .or⟩] _ _ [.or, .and]
    (.cons hf (.cons hg (.cons hh .nil))) rfl
  obtain ⟨whole, hwhole⟩ := hcombine.mpr (by decide +kernel)
  exact ⟨_, _, _, whole, hwhole, (hfold whole hwhole).1⟩

end Part

end Criteria
