import Criteria.Proofs.Grammar
import Criteria.Proofs.Token.Seam
import Criteria.Token.Scan

/-!
Whole texts read from left to right. A text read after another one, across a seam, gives the tokens
of both; places move with the text before them, and blanks at either end give no token.
-/

set_option autoImplicit false
set_option relaxedAutoImplicit false

namespace Criteria

open Text

/-- The fault of a text that stands `n` bytes further on. -/
def LexicalFault.shift (n : Nat) (fault : LexicalFault) : LexicalFault :=
  { fault with offset := n + fault.offset }

/-- The text of the lexeme is read as that one lexeme. -/
def Lexeme.Whole (l : Lexeme) : Prop :=
  Token.lexeme? l.text.toList = some (l.kind, l.text.toList, [])

/-- The lexemes between a pair of parentheses. -/
def Lexeme.parens (ls : List Lexeme) : List Lexeme :=
  ⟨.leftParen, "("⟩ :: (ls ++ [⟨.rightParen, ")"⟩])

namespace Token

/-- The token of a text that stands `n` bytes further on. -/
def shift (n : Nat) (t : Token) : Token :=
  { t with offset := n + t.offset }

@[simp] theorem lexeme_shift (n : Nat) (t : Token) : (t.shift n).lexeme = t.lexeme := rfl

/-! ### The steps of the scanner -/

theorem scanFrom_nil (done : List Token) (offset : Nat) :
    scanFrom done offset [] = .ok done.reverse := by
  rw [scanFrom]

theorem scanFrom_blank {c : Char} (hc : isBlank c = true) (done : List Token) (offset : Nat)
    (cs : List Char) : scanFrom done offset (c :: cs) = scanFrom done (offset + c.utf8Size) cs := by
  rw [scanFrom, if_pos hc]

theorem scanFrom_stuck {c : Char} {cs : List Char} (hc : isBlank c = false)
    (hlexeme : lexeme? (c :: cs) = none) (done : List Token) (offset : Nat) :
    scanFrom done offset (c :: cs) =
      .error ⟨offset, if c = '\'' then .unclosedText else .unexpected c⟩ := by
  rw [scanFrom, if_neg (by simp [hc])]
  split
  · rfl
  · rename_i heq
    rw [hlexeme] at heq
    exact absurd heq.symm (Option.some_ne_none _)

theorem scanFrom_lexeme {c : Char} {cs text after : List Char} {kind : Kind}
    (hc : isBlank c = false) (hlexeme : lexeme? (c :: cs) = some (kind, text, after))
    (done : List Token) (offset : Nat) :
    scanFrom done offset (c :: cs) =
      scanFrom (⟨kind, String.ofList text, offset⟩ :: done) (offset + byteLength text) after := by
  rw [scanFrom, if_neg (by simp [hc])]
  split
  · rename_i heq
    rw [hlexeme] at heq
    exact absurd heq (Option.some_ne_none _)
  · rename_i heq
    rw [hlexeme] at heq
    obtain ⟨rfl, rfl, rfl⟩ : kind = _ ∧ text = _ ∧ after = _ := by simpa using heq
    rfl

/-- A text is empty, begins with a blank, begins with no lexeme, or begins with a lexeme. -/
theorem text_induction {motive : List Char → Prop} (nil : motive [])
    (blank : ∀ c cs, isBlank c = true → motive cs → motive (c :: cs))
    (stuck : ∀ c cs, isBlank c = false → lexeme? (c :: cs) = none → motive (c :: cs))
    (lexeme : ∀ c cs kind text after, isBlank c = false →
      lexeme? (c :: cs) = some (kind, text, after) → motive after → motive (c :: cs))
    (cs : List Char) : motive cs := by
  induction hn : cs.length using Nat.strongRecOn generalizing cs with
  | ind n ih =>
    cases cs with
    | nil => exact nil
    | cons c cs =>
      have hrest (ds : List Char) (hds : ds.length < (c :: cs).length) : motive ds :=
        ih ds.length (hn ▸ hds) ds rfl
      cases hc : isBlank c with
      | true => exact blank c cs hc (hrest cs (by simp))
      | false =>
        cases hlexeme : lexeme? (c :: cs) with
        | none => exact stuck c cs hc hlexeme
        | some r =>
          obtain ⟨kind, text, after⟩ := r
          exact lexeme c cs kind text after hc hlexeme (hrest after (length_lt_of_lexeme? hlexeme))

/-! ### Texts after texts -/

/-- Reading on across a seam: the tokens before it are kept, and the text behind it is read from
the byte at which it begins. -/
theorem scanFrom_append {tail : List Char} (h : Seam tail) (cs : List Char) (done : List Token)
    (offset : Nat) (hquote : '\'' ∉ tail ∨ ∃ ts, scanFrom done offset cs = .ok ts) :
    scanFrom done offset (cs ++ tail) = (scanFrom done offset cs).bind fun ts ↦
      scanFrom ts.reverse (offset + byteLength cs) tail := by
  induction cs using text_induction generalizing done offset with
  | nil =>
    rw [scanFrom_nil]
    simp [Except.bind, byteLength]
  | blank c cs hc ih =>
    rw [scanFrom_blank hc] at hquote
    rw [List.cons_append, scanFrom_blank hc, scanFrom_blank hc, ih _ _ hquote, Nat.add_assoc]
    rfl
  | stuck c cs hc hlexeme =>
    -- Only a quote in the tail could close the text literal at which the scanner is stuck.
    have htail : '\'' ∉ tail := by
      refine hquote.resolve_right ?_
      rintro ⟨ts, hts⟩
      rw [scanFrom_stuck hc hlexeme] at hts
      simp at hts
    have hstuck : lexeme? (c :: (cs ++ tail)) = none := by
      rw [← List.cons_append, lexeme?_seam h (by simp) (Or.inl htail), hlexeme]
      rfl
    rw [List.cons_append, scanFrom_stuck hc hstuck, scanFrom_stuck hc hlexeme]
    rfl
  | lexeme c cs kind text after hc hlexeme ih =>
    have happend : lexeme? (c :: (cs ++ tail)) = some (kind, text, after ++ tail) := by
      rw [← List.cons_append, lexeme?_seam h (by simp) (Or.inr (by simp [hlexeme])), hlexeme]
      rfl
    have hlength : byteLength (c :: cs) = byteLength text + byteLength after := by
      rw [← byteLength_append, (lexeme?_append hlexeme).1]
    rw [scanFrom_lexeme hc hlexeme] at hquote
    rw [List.cons_append, scanFrom_lexeme hc happend, scanFrom_lexeme hc hlexeme, ih _ _ hquote,
      hlength, Nat.add_assoc]

/-- What was read before and how far the text stands from the start changes no token but in its
place. -/
theorem scanFrom_eq (cs : List Char) (done : List Token) (offset : Nat) :
    scanFrom done offset cs =
      match scanFrom [] 0 cs with
      | .ok ts => .ok (done.reverse ++ ts.map (shift offset))
      | .error fault => .error (fault.shift offset) := by
  induction cs using text_induction generalizing done offset with
  | nil => simp [scanFrom_nil]
  | blank c cs hc ih =>
    rw [scanFrom_blank hc, scanFrom_blank hc, ih, ih [] (0 + c.utf8Size)]
    cases scanFrom [] 0 cs with
    | ok ts => simp [shift, Function.comp_def, Nat.add_assoc]
    | error fault => simp [LexicalFault.shift, Nat.add_assoc]
  | stuck c cs hc hlexeme =>
    rw [scanFrom_stuck hc hlexeme, scanFrom_stuck hc hlexeme]
    rfl
  | lexeme c cs kind text after hc hlexeme ih =>
    rw [scanFrom_lexeme hc hlexeme, scanFrom_lexeme hc hlexeme, ih,
      ih [⟨kind, String.ofList text, 0⟩]]
    cases scanFrom [] 0 after with
    | ok ts => simp [shift, Function.comp_def, Nat.add_assoc]
    | error fault => simp [LexicalFault.shift, Nat.add_assoc]

/-! ### The lexemes of a text -/

/-- The tokens of a text apart from their places, if the text is made of tokens. -/
def lexemes? (cs : List Char) : Option (List Lexeme) :=
  (scanFrom [] 0 cs).toOption.map (List.map lexeme)

theorem lexemes?_eq_some_iff {cs : List Char} {ls : List Lexeme} :
    lexemes? cs = some ls ↔ ∃ ts, scanFrom [] 0 cs = .ok ts ∧ ts.map lexeme = ls := by
  unfold lexemes?
  cases scanFrom [] 0 cs with
  | ok ts => simp [Except.toOption]
  | error fault => simp [Except.toOption]

/-- The lexemes of a text do not depend on what was read before it. -/
theorem map_lexeme_scanFrom (cs : List Char) (done : List Token) (offset : Nat) :
    (scanFrom done offset cs).toOption.map (List.map lexeme) =
      (lexemes? cs).map (done.reverse.map lexeme ++ ·) := by
  unfold lexemes?
  rw [scanFrom_eq]
  cases scanFrom [] 0 cs with
  | ok ts => simp [Except.toOption, Function.comp_def]
  | error fault => rfl

theorem lexemes?_nil : lexemes? [] = some [] := by
  rw [lexemes?, scanFrom_nil]
  rfl

theorem lexemes?_blank {c : Char} (hc : isBlank c = true) (cs : List Char) :
    lexemes? (c :: cs) = lexemes? cs := by
  rw [lexemes?, scanFrom_blank hc, map_lexeme_scanFrom]
  simp

theorem lexemes?_stuck {c : Char} {cs : List Char} (hc : isBlank c = false)
    (hlexeme : lexeme? (c :: cs) = none) : lexemes? (c :: cs) = none := by
  rw [lexemes?, scanFrom_stuck hc hlexeme]
  rfl

theorem lexemes?_lexeme {c : Char} {cs text after : List Char} {kind : Kind}
    (hc : isBlank c = false) (hlexeme : lexeme? (c :: cs) = some (kind, text, after)) :
    lexemes? (c :: cs) = (lexemes? after).map (⟨kind, String.ofList text⟩ :: ·) := by
  rw [lexemes?, scanFrom_lexeme hc hlexeme, map_lexeme_scanFrom]
  rfl

theorem lexemes?_append {tail : List Char} (h : Seam tail) (cs : List Char)
    (hquote : '\'' ∉ tail ∨ (lexemes? cs).isSome) :
    lexemes? (cs ++ tail) = (lexemes? cs).bind fun ls ↦ (lexemes? tail).map (ls ++ ·) := by
  have hscan : '\'' ∉ tail ∨ ∃ ts, scanFrom [] 0 cs = .ok ts := by
    refine hquote.imp_right fun hsome ↦ ?_
    obtain ⟨ls, hls⟩ := Option.isSome_iff_exists.mp hsome
    obtain ⟨ts, hts, -⟩ := lexemes?_eq_some_iff.mp hls
    exact ⟨ts, hts⟩
  rw [lexemes?, scanFrom_append h cs [] 0 hscan, lexemes?]
  cases scanFrom [] 0 cs with
  | ok ts =>
    have htail := map_lexeme_scanFrom tail ts.reverse (0 + byteLength cs)
    rw [List.reverse_reverse] at htail
    exact htail
  | error fault => rfl

/-! ### Texts put together -/

/-- Two texts with a space between them. -/
theorem lexemes?_spaced {cs ds : List Char} {ls ms : List Lexeme} (hcs : lexemes? cs = some ls)
    (hds : lexemes? ds = some ms) : lexemes? (cs ++ ' ' :: ds) = some (ls ++ ms) := by
  have hblank : isBlank ' ' = true := by decide
  rw [lexemes?_append (Seam.cons (Or.inl hblank) ds) cs (Or.inr (by simp [hcs])),
    lexemes?_blank hblank, hcs, hds]
  rfl

/-- A text between parentheses. -/
theorem lexemes?_parens {cs : List Char} {ls : List Lexeme} (h : lexemes? cs = some ls) :
    lexemes? ('(' :: (cs ++ [')'])) = some (Lexeme.parens ls) := by
  have hopen (ds : List Char) :
      lexemes? ('(' :: ds) = (lexemes? ds).map (⟨.leftParen, "("⟩ :: ·) :=
    lexemes?_lexeme (by decide) rfl
  have hclose : lexemes? [')'] = some [⟨.rightParen, ")"⟩] := by
    rw [lexemes?_lexeme (by decide) rfl, lexemes?_nil]
    rfl
  rw [hopen, lexemes?_append (Seam.cons (Or.inr rfl) []) cs (Or.inl (by decide)), h, hclose]
  rfl

/-! ### Blanks around a text -/

theorem lexemes?_blanks {blanks : List Char} (h : ∀ c ∈ blanks, isBlank c = true)
    (cs : List Char) : lexemes? (blanks ++ cs) = lexemes? cs := by
  induction blanks with
  | nil => rfl
  | cons c blanks ih =>
    rw [List.cons_append, lexemes?_blank (h c List.mem_cons_self)]
    exact ih fun d hd ↦ h d (List.mem_cons_of_mem c hd)

theorem seam_of_blanks {blanks : List Char} (h : ∀ c ∈ blanks, isBlank c = true) : Seam blanks :=
  fun c hc ↦ Or.inl (h c (List.mem_of_mem_head? hc))

theorem lexemes?_append_blanks {blanks : List Char} (h : ∀ c ∈ blanks, isBlank c = true)
    (cs : List Char) : lexemes? (cs ++ blanks) = lexemes? cs := by
  have hquote : '\'' ∉ blanks := fun hmem ↦ absurd (h '\'' hmem) (by decide)
  have hnone : lexemes? blanks = some [] := by
    simpa [lexemes?_nil] using lexemes?_blanks h []
  rw [lexemes?_append (seam_of_blanks h) cs (Or.inl hquote), hnone]
  cases lexemes? cs <;> simp

/-- Trimming takes away the blanks at the beginning, and blanks at the end. -/
theorem exists_trail_trimChars (cs : List Char) :
    ∃ trail, cs = cs.takeWhile isBlank ++ (trimChars cs ++ trail) ∧
      ∀ c ∈ trail, isBlank c = true := by
  refine ⟨(((cs.dropWhile isBlank).reverse).takeWhile isBlank).reverse, ?_,
    fun c hc ↦ List.mem_takeWhile_imp (List.mem_reverse.mp hc)⟩
  rw [trimChars, ← List.reverse_append, List.takeWhile_append_dropWhile, List.reverse_reverse,
    List.takeWhile_append_dropWhile]

theorem trimChars_eq_nil_iff {cs : List Char} :
    trimChars cs = [] ↔ ∀ c ∈ cs, isBlank c = true := by
  constructor
  · intro hnil c hc
    obtain ⟨trail, hcs, htrail⟩ := exists_trail_trimChars cs
    rw [hnil, List.nil_append] at hcs
    rw [hcs] at hc
    exact (List.mem_append.mp hc).elim List.mem_takeWhile_imp (htrail c)
  · intro hblank
    rw [trimChars, List.dropWhile_eq_nil_iff.mpr hblank]
    rfl

theorem lexemes?_trimChars (cs : List Char) : lexemes? (trimChars cs) = lexemes? cs := by
  obtain ⟨trail, hcs, htrail⟩ := exists_trail_trimChars cs
  have hlead : ∀ c ∈ cs.takeWhile isBlank, isBlank c = true := fun _ hc ↦ List.mem_takeWhile_imp hc
  have h := lexemes?_blanks hlead (trimChars cs ++ trail)
  rw [← hcs, lexemes?_append_blanks htrail] at h
  exact h.symm

/-! ### Lexemes by themselves -/

/-- No lexeme begins with a blank. -/
theorem lexeme?_of_blank {c : Char} (hc : isBlank c = true) (cs : List Char) :
    lexeme? (c :: cs) = none := by
  have hword := isWord_eq_false_of_isBlank hc
  have hne {d : Char} (hd : isBlank d = false) : c ≠ d := by
    rintro rfl
    rw [hd] at hc
    exact Bool.false_ne_true hc
  have hdigit : isDigit c = false := by
    rw [Bool.eq_false_iff]
    intro hdigit
    rw [isWord_of_isDigit hdigit] at hword
    exact Bool.false_ne_true hword.symm
  have hplain : Plain c := by
    intro hmem
    have hall : (['\'', '(', ')', '>', '<', '!', '='].all fun d ↦ !isBlank d) = true := by decide
    have hout := List.all_eq_true.mp hall c hmem
    rw [hc] at hout
    exact Bool.false_ne_true hout
  have hnumber : number? (c :: cs) = none := by
    rw [number?_of_ne (hne (by decide))]
    simp [unsigned?, hdigit]
  have hname : word? (c :: cs) = none := by simp [word?, hword]
  rw [lexeme?_of_plain hplain, keyword?_of_ne (hne (by decide)) (hne (by decide)), hnumber, hname]
  rfl

/-- The text of a lexeme is scanned as that one token. -/
theorem scan_of_whole {l : Lexeme} (h : l.Whole) : scan l.text = .ok [⟨l.kind, l.text, 0⟩] := by
  have hne := (lexeme?_append h).2
  obtain ⟨c, cs, hcs⟩ := List.exists_cons_of_ne_nil hne
  unfold Lexeme.Whole at h
  rw [hcs] at h
  have hc : isBlank c = false := by
    rw [Bool.eq_false_iff]
    intro hblank
    rw [lexeme?_of_blank hblank] at h
    exact Option.some_ne_none _ h.symm
  rw [scan, hcs, scanFrom_lexeme hc h, scanFrom_nil, ← hcs, String.ofList_toList]
  rfl

theorem lexemes?_of_whole {l : Lexeme} (h : l.Whole) : lexemes? l.text.toList = some [l] :=
  lexemes?_eq_some_iff.mpr ⟨_, scan_of_whole h, rfl⟩

/-- Every lexeme that is read in a text is read by itself too. -/
theorem whole_of_mem_lexemes? {cs : List Char} {ls : List Lexeme} (h : lexemes? cs = some ls) :
    ∀ l ∈ ls, l.Whole := by
  induction cs using text_induction generalizing ls with
  | nil =>
    obtain rfl : ls = [] := by simpa [lexemes?_nil] using h.symm
    simp
  | blank c cs hc ih =>
    rw [lexemes?_blank hc] at h
    exact ih h
  | stuck c cs hc hlexeme =>
    rw [lexemes?_stuck hc hlexeme] at h
    exact absurd h.symm (Option.some_ne_none _)
  | lexeme c cs kind text after hc hlexeme ih =>
    rw [lexemes?_lexeme hc hlexeme] at h
    obtain ⟨ms, hms, rfl⟩ := Option.map_eq_some_iff.mp h
    intro l hl
    rcases List.mem_cons.mp hl with rfl | hl
    · simpa [Lexeme.Whole] using lexeme?_self hlexeme
    · exact ih hms l hl

theorem scan_eq_ok_iff_whole {l : Lexeme} :
    scan l.text = .ok [⟨l.kind, l.text, 0⟩] ↔ l.Whole :=
  ⟨fun h ↦ whole_of_mem_lexemes? (lexemes?_eq_some_iff.mpr ⟨_, h, rfl⟩) l (by simp [lexeme]),
    scan_of_whole⟩

end Token

end Criteria
