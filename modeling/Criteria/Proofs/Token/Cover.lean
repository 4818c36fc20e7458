import Criteria.Proofs.Token.Scan

/-!
The tokens of a text and the places between them. A text that is read is made of its tokens, in
order and apart from each other, and of blanks. A text that is not read is stuck at a character with
which no token begins, and all that stands before this character is read.
-/

set_option autoImplicit false
set_option relaxedAutoImplicit false

namespace Criteria

open Text

namespace Token

/-! ### Classes of tokens -/

/-- The comparison signs. -/
def signs : List (List Char) :=
  [['>', '='], ['<', '='], ['!', '='], ['=', '='], ['>'], ['<'], ['=']]

/-- Whether characters are a token of a kind, if the last argument follows them. Several tokens may
match at one place; the scanner takes one of them. -/
inductive Matches : Kind → List Char → List Char → Prop
  | text {front : List Char} (rest : List Char) (h : '\'' ∉ front) :
    Matches .text ('\'' :: (front ++ ['\''])) rest
  | leftParen (rest : List Char) : Matches .leftParen ['('] rest
  | rightParen (rest : List Char) : Matches .rightParen [')'] rest
  | comparison {sign : List Char} (rest : List Char) (h : sign ∈ signs) :
    Matches .comparison sign rest
  | connective {word rest : List Char} (h : Keyword word) (hends : endsWord rest = true) :
    Matches .connective word rest
  | number {digits rest : List Char} (h : Unsigned digits) (hends : endsWord rest = true) :
    Matches .number digits rest
  | negative {digits rest : List Char} (h : Unsigned digits) (hends : endsWord rest = true) :
    Matches .number ('-' :: digits) rest
  | identifier {word : List Char} (rest : List Char) (hne : word ≠ [])
    (hword : ∀ c ∈ word, isWord c = true) : Matches .identifier word rest

theorem mem_signs_of_comparison? {cs text rest : List Char}
    (h : comparison? cs = some (text, rest)) : text ∈ signs := by
  rcases comparison?_eq_some h with ⟨c, hc, rfl⟩ | ⟨⟨c, hc, rfl⟩, -⟩
  · simp only [List.mem_cons, List.not_mem_nil, or_false] at hc
    rcases hc with rfl | rfl | rfl | rfl <;> decide
  · simp only [List.mem_cons, List.not_mem_nil, or_false] at hc
    rcases hc with rfl | rfl | rfl <;> decide

theorem comparison?_isSome_of_mem_signs {sign : List Char} (h : sign ∈ signs)
    (rest : List Char) : (comparison? (sign ++ rest)).isSome = true := by
  have hsingle {c : Char} (hc : c ∈ ['>', '<', '=']) :
      (comparison? (c :: rest)).isSome = true := by
    by_cases hhead : rest.head? = some '='
    · obtain ⟨tail, rfl⟩ := List.head?_eq_some_iff.mp hhead
      rw [comparison?_pair]
      · rfl
      · simp only [List.mem_cons, List.not_mem_nil, or_false] at hc
        rcases hc with rfl | rfl | rfl <;> simp
    · rw [comparison?_single hhead, if_pos hc]
      rfl
  simp only [signs, List.mem_cons, List.not_mem_nil, or_false] at h
  rcases h with rfl | rfl | rfl | rfl | rfl | rfl | rfl
  · rfl
  · rfl
  · rfl
  · rfl
  · exact hsingle (by decide)
  · exact hsingle (by decide)
  · exact hsingle (by decide)

/-- A lexeme is a token of its kind. -/
theorem matches_of_lexeme? {cs text rest : List Char} {kind : Kind}
    (h : lexeme? cs = some (kind, text, rest)) : Matches kind text rest := by
  cases readAs_of_lexeme? h with
  | text h =>
    obtain ⟨front, hfront, rfl⟩ := quoted?_eq_some h
    exact .text _ hfront
  | leftParen => exact .leftParen _
  | rightParen => exact .rightParen _
  | comparison h => exact .comparison _ (mem_signs_of_comparison? h)
  | connective h =>
    obtain ⟨hkeyword, hword⟩ := keyword?_eq_some_iff.mp h
    exact .connective hkeyword (word?_eq_some_iff.mp hword).2.2.1
  | number h =>
    have hends := endsWord_of_number? h
    rcases signed_of_number? h with hdigits | ⟨digits, rfl, hdigits⟩
    · exact .number hdigits hends
    · exact .negative hdigits hends
  | identifier _ _ h =>
    obtain ⟨hne, hword, -⟩ := word?_eq_some_iff.mp h
    exact .identifier _ hne hword

/-- Where a token matches, some lexeme begins. -/
theorem Matches.lexeme?_isSome {kind : Kind} {text rest : List Char} (h : Matches kind text rest) :
    (lexeme? (text ++ rest)).isSome = true := by
  rw [lexeme?_eq_or]
  simp only [Option.isSome_or, Option.isSome_map, Bool.or_eq_true]
  cases h with
  | text rest h =>
    left
    rw [List.cons_append, List.append_assoc, List.singleton_append, quoted?_of_closed h]
    rfl
  | leftParen rest => exact Or.inr (Or.inl rfl)
  | rightParen rest => exact Or.inr (Or.inl rfl)
  | comparison rest h =>
    exact Or.inr (Or.inr (Or.inl (comparison?_isSome_of_mem_signs h rest)))
  | connective h hends =>
    refine Or.inr (Or.inr (Or.inr (Or.inl ?_)))
    rw [keyword?_of_keyword h, if_pos hends]
    rfl
  | @number digits rest h hends =>
    refine Or.inr (Or.inr (Or.inr (Or.inr (Or.inl ?_))))
    have hsome := h.unsigned?_isSome hends
    obtain ⟨d, ds, rfl, hd⟩ := h.exists_cons
    have hsign : d ≠ '-' := by
      rintro rfl
      exact absurd hd (by decide)
    rwa [List.cons_append, number?_of_ne hsign]
  | @negative digits rest h hends =>
    refine Or.inr (Or.inr (Or.inr (Or.inr (Or.inl ?_))))
    rw [List.cons_append, number?, Option.isSome_map]
    exact h.unsigned?_isSome hends
  | identifier rest hne hword =>
    refine Or.inr (Or.inr (Or.inr (Or.inr (Or.inr ?_))))
    rw [word?_append_of_isWord hword hne]
    rfl

theorem lexeme?_eq_none_iff {cs : List Char} :
    lexeme? cs = none ↔
      ∀ kind text rest, cs = text ++ rest → ¬Matches kind text rest := by
  constructor
  · rintro hnone kind text rest rfl hmatch
    have hsome := hmatch.lexeme?_isSome
    rw [hnone] at hsome
    cases hsome
  · intro h
    rw [Option.eq_none_iff_forall_ne_some]
    rintro ⟨kind, text, rest⟩ hlexeme
    exact h kind text rest (lexeme?_append hlexeme).1.symm (matches_of_lexeme? hlexeme)

/-! ### Texts that are read -/

/-- A text from byte `offset` on that is made of the tokens, in this order, and of blanks. -/
inductive Covers : Nat → List Char → List Token → Prop
  | nil (offset : Nat) : Covers offset [] []
  | blank {offset : Nat} {c : Char} {cs : List Char} {ts : List Token} (hc : isBlank c = true)
    (h : Covers (offset + c.utf8Size) cs ts) : Covers offset (c :: cs) ts
  | token {t : Token} {rest : List Char} {ts : List Token}
    (hmatch : Matches t.kind t.text.toList rest) (h : Covers t.stop rest ts) :
    Covers t.offset (t.text.toList ++ rest) (t :: ts)

theorem byteLength_toList (s : String) : byteLength s.toList = s.utf8ByteSize := by
  have hlength : ∀ cs, byteLength cs = (String.ofList cs).utf8ByteSize := by
    intro cs
    induction cs with
    | nil => rfl
    | cons c cs ih =>
      rw [String.ofList_cons, String.utf8ByteSize_append, String.utf8ByteSize_singleton, ← ih]
      rfl
  rw [hlength, String.ofList_toList]

/-- The scanner goes on as the tokens cover the text. -/
theorem covers_of_scanFrom {cs : List Char} {done ts : List Token} {offset : Nat}
    (h : scanFrom done offset cs = .ok ts) :
    ∃ us, ts = done.reverse ++ us ∧ Covers offset cs us := by
  induction cs using text_induction generalizing done offset with
  | nil =>
    rw [scanFrom_nil] at h
    cases h
    exact ⟨[], by simp, .nil offset⟩
  | blank c cs hc ih =>
    rw [scanFrom_blank hc] at h
    obtain ⟨us, hus, hcovers⟩ := ih h
    exact ⟨us, hus, .blank hc hcovers⟩
  | stuck c cs hc hlexeme =>
    rw [scanFrom_stuck hc hlexeme] at h
    cases h
  | lexeme c cs kind text after hc hlexeme ih =>
    rw [scanFrom_lexeme hc hlexeme] at h
    obtain ⟨us, rfl, hcovers⟩ := ih h
    refine ⟨⟨kind, String.ofList text, offset⟩ :: us, by simp, ?_⟩
    have hbytes : byteLength text = (String.ofList text).utf8ByteSize := by
      rw [← byteLength_toList, String.toList_ofList]
    have hmatch : Matches kind (String.ofList text).toList after := by
      rw [String.toList_ofList]
      exact matches_of_lexeme? hlexeme
    have htoken := Covers.token (t := ⟨kind, String.ofList text, offset⟩) hmatch
      (by rwa [stop, ← hbytes])
    rwa [String.toList_ofList, (lexeme?_append hlexeme).1] at htoken

/-- A character of two texts put together stands in the first one or in the second. -/
theorem exists_of_append_eq {text rest before after : List Char} {c : Char}
    (h : text ++ rest = before ++ c :: after) :
    (∃ inside, text = before ++ c :: inside) ∨
      ∃ between, before = text ++ between ∧ rest = between ++ c :: after := by
  rcases List.append_eq_append_iff.mp h with ⟨between, hbefore, hrest⟩ | ⟨inside, rfl, hinside⟩
  · exact Or.inr ⟨between, hbefore, hrest⟩
  · cases inside with
    | nil => exact Or.inr ⟨[], by simp, hinside.symm⟩
    | cons d inside =>
      obtain ⟨rfl, -⟩ := List.cons.inj hinside
      exact Or.inl ⟨inside, rfl⟩

namespace Covers

variable {offset : Nat} {cs : List Char} {ts : List Token}

theorem offset_le (h : Covers offset cs ts) : ∀ t ∈ ts, offset ≤ t.offset := by
  induction h with
  | nil => simp
  | blank _ _ ih => exact fun t ht ↦ (Nat.le_add_right _ _).trans (ih t ht)
  | @token t rest ts _ _ ih =>
    exact List.forall_mem_cons.mpr
      ⟨le_rfl, fun u hu ↦ (Nat.le_add_right t.offset _).trans (ih u hu)⟩

/-- The tokens are in order, and none begins before the one in front of it ends. -/
theorem pairwise (h : Covers offset cs ts) : ts.Pairwise fun t u ↦ t.stop ≤ u.offset := by
  induction h with
  | nil => exact .nil
  | blank _ _ ih => exact ih
  | token _ h ih => exact .cons h.offset_le ih

/-- Each token stands at its place, and matches there. -/
theorem exists_append (h : Covers offset cs ts) :
    ∀ t ∈ ts, ∃ before after, cs = before ++ (t.text.toList ++ after) ∧
      t.offset = offset + byteLength before ∧ Matches t.kind t.text.toList after := by
  induction h with
  | nil => simp
  | @blank offset c cs ts _ _ ih =>
    intro t ht
    obtain ⟨before, after, rfl, hoffset, hmatch⟩ := ih t ht
    refine ⟨c :: before, after, rfl, ?_, hmatch⟩
    rw [hoffset, Nat.add_assoc]
    rfl
  | @token t rest ts hmatch _ ih =>
    refine List.forall_mem_cons.mpr ⟨⟨[], rest, rfl, rfl, hmatch⟩, fun u hu ↦ ?_⟩
    obtain ⟨before, after, rfl, hoffset, hmatch⟩ := ih u hu
    refine ⟨t.text.toList ++ before, after, by simp, ?_, hmatch⟩
    rw [hoffset, byteLength_append, byteLength_toList, stop, Nat.add_assoc]

/-- A character is blank, or it stands in one of the tokens. -/
theorem isBlank_or_mem (h : Covers offset cs ts) {before after : List Char} {c : Char}
    (hcs : cs = before ++ c :: after) :
    isBlank c = true ∨ ∃ t ∈ ts, t.offset ≤ offset + byteLength before ∧
      offset + byteLength before + c.utf8Size ≤ t.stop := by
  induction h generalizing before with
  | nil => simp at hcs
  | @blank offset d cs ts hd _ ih =>
    cases before with
    | nil =>
      obtain ⟨rfl, -⟩ := List.cons.inj hcs
      exact Or.inl hd
    | cons e before =>
      obtain ⟨rfl, htail⟩ := List.cons.inj hcs
      have hbytes : offset + byteLength (d :: before) =
          offset + d.utf8Size + byteLength before := (Nat.add_assoc _ _ _).symm
      rw [hbytes]
      exact ih htail
  | @token t rest ts _ _ ih =>
    rcases exists_of_append_eq hcs with ⟨inside, htext⟩ | ⟨between, rfl, hrest⟩
    · refine Or.inr ⟨t, List.mem_cons_self, Nat.le_add_right _ _, ?_⟩
      have hbytes := byteLength_toList t.text
      rw [htext, byteLength_append] at hbytes
      have hcons : byteLength (c :: inside) = c.utf8Size + byteLength inside := rfl
      rw [stop]
      omega
    · rcases ih hrest with hc | ⟨u, hu, hplace⟩
      · exact Or.inl hc
      · refine Or.inr ⟨u, List.mem_cons_of_mem t hu, ?_⟩
        have hbytes : t.offset + byteLength (t.text.toList ++ between) =
            t.stop + byteLength between := by
          rw [byteLength_append, byteLength_toList, stop, Nat.add_assoc]
        rwa [hbytes]

end Covers

/-! ### Texts that are not read -/

theorem lexeme?_of_point (cs : List Char) : lexeme? ('.' :: cs) = none := by
  have hdigit : isDigit '.' = false := by decide
  have hword : isWord '.' = false := by decide
  have hnumber : number? ('.' :: cs) = none := by
    rw [number?_of_ne (by decide)]
    simp [unsigned?, hdigit]
  have hname : word? ('.' :: cs) = none := by simp [word?, hword]
  rw [lexeme?_of_plain (by unfold Plain; decide), keyword?_of_ne (by decide) (by decide), hnumber,
    hname]
  rfl

/-- A text that is read may be followed by what follows it anyway. It begins with no point, so the
lexeme in front of it stays as it is. -/
theorem cut_of_lexemes? {before after : List Char} (h : (lexemes? before).isSome = true) :
    Cut (before ++ after) before := by
  cases before with
  | nil => exact .nil _
  | cons c before =>
    rintro d ⟨⟩
    refine ⟨rfl, ?_⟩
    rintro rfl
    rw [lexemes?_stuck (by decide) (lexeme?_of_point before)] at h
    cases h

/-- A text that is not read is stuck at a character, and the text before that character is read. -/
theorem exists_of_scanFrom_error {cs : List Char} {done : List Token} {offset : Nat}
    {fault : LexicalFault} (h : scanFrom done offset cs = .error fault) :
    ∃ before c after, cs = before ++ c :: after ∧
      fault = ⟨offset + byteLength before, if c = '\'' then .unclosedText else .unexpected c⟩ ∧
      isBlank c = false ∧ lexeme? (c :: after) = none ∧ (lexemes? before).isSome = true := by
  induction cs using text_induction generalizing done offset with
  | nil =>
    rw [scanFrom_nil] at h
    cases h
  | blank c cs hc ih =>
    rw [scanFrom_blank hc] at h
    obtain ⟨before, d, after, rfl, hfault, hd, hnone, hread⟩ := ih h
    refine ⟨c :: before, d, after, rfl, ?_, hd, hnone, ?_⟩
    · rw [hfault, Nat.add_assoc]
      rfl
    · rwa [lexemes?_blank hc]
  | stuck c cs hc hlexeme =>
    rw [scanFrom_stuck hc hlexeme] at h
    cases h
    refine ⟨[], c, cs, rfl, rfl, hc, hlexeme, ?_⟩
    rw [lexemes?_nil]
    rfl
  | lexeme c cs kind text rest hc hlexeme ih =>
    rw [scanFrom_lexeme hc hlexeme] at h
    obtain ⟨before, d, after, rfl, hfault, hd, hnone, hread⟩ := ih h
    refine ⟨text ++ before, d, after, ?_, ?_, hd, hnone, ?_⟩
    · rw [← (lexeme?_append hlexeme).1, List.append_assoc]
    · rw [hfault, byteLength_append, Nat.add_assoc]
    · -- The lexeme looks at what follows it, but no further than where the text is cut off.
      have hcut := lexeme?_cut hlexeme (cut_of_lexemes? hread)
      obtain ⟨happend, hne⟩ := lexeme?_append hlexeme
      obtain ⟨e, es, rfl⟩ := List.exists_cons_of_ne_nil hne
      obtain ⟨rfl, -⟩ := List.cons.inj happend
      rw [List.cons_append] at hcut ⊢
      rw [lexemes?_lexeme hc hcut, Option.isSome_map]
      exact hread

/-- Where a quote begins no token, no other quote follows. -/
theorem quote_notMem_of_lexeme? {cs : List Char} (h : lexeme? ('\'' :: cs) = none) :
    '\'' ∉ cs := by
  intro hmem
  obtain ⟨front, back, rfl, hfront⟩ := List.eq_append_cons_of_mem hmem
  rw [lexeme?_of_quote, quoted?_of_closed hfront] at h
  cases h

theorem utf8ByteSize_of_append_eq {s t u : String} {c : Char}
    (h : s ++ String.singleton c ++ t = u) :
    s.utf8ByteSize + c.utf8Size + t.utf8ByteSize = u.utf8ByteSize := by
  rw [← h, String.utf8ByteSize_append, String.utf8ByteSize_append, String.utf8ByteSize_singleton]

/-- The message that names a character is shorter than the other one, whatever the character. -/
theorem message_unexpected_ne (c : Char) :
    (LexicalCause.unexpected c).message ≠ LexicalCause.unclosedText.message := by
  intro h
  have hbytes := utf8ByteSize_of_append_eq h
  have hbefore : "无法识别的字符 '".utf8ByteSize = 23 := by decide
  have hafter : "'".utf8ByteSize = 1 := by decide
  have hunclosed : LexicalCause.unclosedText.message.utf8ByteSize = 36 := by decide
  rw [hbefore, hafter, hunclosed] at hbytes
  have hfour := c.utf8Size_le_four
  clear hbefore hafter hunclosed h
  omega

theorem message_eq_unclosedText_iff (c : Char) :
    (if c = '\'' then LexicalCause.unclosedText else .unexpected c).message =
      LexicalCause.unclosedText.message ↔ c = '\'' := by
  split
  · rename_i hc
    exact iff_of_true rfl hc
  · rename_i hc
    exact iff_of_false (message_unexpected_ne c) hc

/-! ### Whole texts -/

/-- The token stands in the text at its place, between whole characters, and matches there. -/
def StandsIn (s : String) (t : Token) : Prop :=
  ∃ before after : String, s = before ++ (t.text ++ after) ∧ before.utf8ByteSize = t.offset ∧
    Matches t.kind t.text.toList after.toList

/-- Nothing of a text is lost. If it is read, its tokens stand in it one after another, and whatever
stands in none of them is blank. If it is not, it is stuck at a character at which no token begins;
the text before that character is read; and a text literal is said to be unclosed just if the
character is a quote, and then no other quote follows. -/
theorem scan_loses_nothing (s : String) :
    (∀ ts, scan s = .ok ts →
      (∀ t ∈ ts, t.StandsIn s) ∧ (ts.Pairwise fun t u ↦ t.stop ≤ u.offset) ∧
      ∀ (before after : String) (c : Char), s = before ++ (String.singleton c ++ after) →
        isBlank c = true ∨ ∃ t ∈ ts, t.offset ≤ before.utf8ByteSize ∧
          before.utf8ByteSize + c.utf8Size ≤ t.stop) ∧
    ∀ fault, scan s = .error fault →
      fault.offset < s.utf8ByteSize ∧
      ∃ (before after : String) (c : Char), s = before ++ (String.singleton c ++ after) ∧
        before.utf8ByteSize = fault.offset ∧ (∃ ts, scan before = .ok ts) ∧
        isBlank c = false ∧
        (∀ kind text rest, c :: after.toList = text ++ rest → ¬Matches kind text rest) ∧
        (fault.cause.message = LexicalCause.unclosedText.message ↔ c = '\'') ∧
        (c = '\'' → '\'' ∉ after.toList) := by
  constructor
  · intro ts hts
    obtain ⟨us, rfl, hcovers⟩ := covers_of_scanFrom hts
    refine ⟨fun t ht ↦ ?_, hcovers.pairwise, ?_⟩
    · obtain ⟨before, after, hs, hoffset, hmatch⟩ := hcovers.exists_append t ht
      refine ⟨String.ofList before, String.ofList after, ?_, ?_, ?_⟩
      · rw [← s.ofList_toList, hs]
        simp
      · rw [← byteLength_toList, String.toList_ofList, hoffset, Nat.zero_add]
      · rwa [String.toList_ofList]
    · rintro before after c rfl
      have hs : (before ++ (String.singleton c ++ after)).toList =
          before.toList ++ c :: after.toList := by simp
      have hplace := hcovers.isBlank_or_mem hs
      rwa [Nat.zero_add, byteLength_toList] at hplace
  · intro fault hfault
    obtain ⟨before, c, after, hs, rfl, hc, hnone, hread⟩ := exists_of_scanFrom_error hfault
    have hbefore : (String.ofList before).utf8ByteSize = 0 + byteLength before := by
      rw [← byteLength_toList, String.toList_ofList, Nat.zero_add]
    refine ⟨?_, String.ofList before, String.ofList after, c, ?_, hbefore, ?_, hc, ?_,
      message_eq_unclosedText_iff c, ?_⟩
    · rw [← byteLength_toList, hs, byteLength_append, Nat.zero_add]
      have hcons : byteLength (c :: after) = c.utf8Size + byteLength after := rfl
      have hpos := c.utf8Size_pos
      dsimp only
      omega
    · rw [← s.ofList_toList, hs]
      simp
    · obtain ⟨ls, hls⟩ := Option.isSome_iff_exists.mp hread
      obtain ⟨ts, hts, -⟩ := lexemes?_eq_some_iff.mp hls
      exact ⟨ts, by rwa [scan, String.toList_ofList]⟩
    · rw [String.toList_ofList]
      exact lexeme?_eq_none_iff.mp hnone
    · rintro rfl
      rw [String.toList_ofList]
      exact quote_notMem_of_lexeme? hnone

/-- A number that would run into a word ends before its point, at which no token begins; and a text
literal keeps its blank. -/
theorem scan_loses_nothing_of_point :
    (scan "年龄 > 3.5abc" = .error ⟨10, .unexpected '.'⟩ ∧
      ∃ (before after : String) (c : Char),
        "年龄 > 3.5abc" = before ++ (String.singleton c ++ after) ∧ before.utf8ByteSize = 10 ∧
        ∃ ts, scan before = .ok ts) ∧
    scan "名='李 雷'" =
      .ok [⟨.identifier, "名", 0⟩, ⟨.comparison, "=", 3⟩, ⟨.text, "'李 雷'", 4⟩] ∧
    StandsIn "名='李 雷'" ⟨.text, "'李 雷'", 4⟩ := by
  have hfault : scan "年龄 > 3.5abc" = .error ⟨10, .unexpected '.'⟩ := by decide +kernel
  have htokens : scan "名='李 雷'" =
      .ok [⟨.identifier, "名", 0⟩, ⟨.comparison, "=", 3⟩, ⟨.text, "'李 雷'", 4⟩] := by decide +kernel
  obtain ⟨-, before, after, c, hs, hbytes, hread, -⟩ := (scan_loses_nothing _).2 _ hfault
  obtain ⟨hstands, -⟩ := (scan_loses_nothing _).1 _ htokens
  exact ⟨⟨hfault, before, after, c, hs, hbytes, hread⟩, htokens, hstands _ (by simp)⟩

end Token

end Criteria
