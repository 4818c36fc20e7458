import Criteria.Text.Class
import Criteria.Token

/-!
The lexeme at the head of a text. The classes are tried in a fixed order, keywords and numbers
before names, and each function returns the characters of the lexeme and those that follow it.
-/

set_option autoImplicit false
set_option relaxedAutoImplicit false

namespace Criteria.Token

open Text

/-- Whether a word that ends here is whole: no word character follows. -/
def endsWord : List Char → Bool
  | [] => true
  | c :: _ => !isWord c

/-- A text literal: everything from one single quote to the next. -/
def quoted? : List Char → Option (List Char × List Char)
  | '\'' :: cs =>
    match cs.dropWhile (· != '\'') with
    | [] => none
    | close :: rest => some ('\'' :: (cs.takeWhile (· != '\'') ++ [close]), rest)
  | _ => none

def paren? : List Char → Option (Kind × List Char × List Char)
  | '(' :: rest => some (.leftParen, ['('], rest)
  | ')' :: rest => some (.rightParen, [')'], rest)
  | _ => none

/-- A comparison sign, two characters before one. -/
def comparison? : List Char → Option (List Char × List Char)
  | '>' :: '=' :: rest => some (['>', '='], rest)
  | '<' :: '=' :: rest => some (['<', '='], rest)
  | '!' :: '=' :: rest => some (['!', '='], rest)
  | '=' :: '=' :: rest => some (['=', '='], rest)
  | '>' :: rest => some (['>'], rest)
  | '<' :: rest => some (['<'], rest)
  | '=' :: rest => some (['='], rest)
  | _ => none

/-- `AND` or `OR` as a whole word. -/
def keyword? : List Char → Option (List Char × List Char)
  | 'A' :: 'N' :: 'D' :: rest => if endsWord rest then some (['A', 'N', 'D'], rest) else none
  | 'O' :: 'R' :: rest => if endsWord rest then some (['O', 'R'], rest) else none
  | _ => none

/-- A point and the digits behind it, if there are any. -/
def fraction? : List Char → Option (List Char × List Char)
  | '.' :: cs =>
    match cs.takeWhile isDigit with
    | [] => none
    | d :: ds => some ('.' :: d :: ds, cs.dropWhile isDigit)
  | _ => none

/-- Digits and, if it leaves the number a whole word, a fraction. A fraction that runs into a word
is left out, and the number then ends before its point. -/
def unsigned? (cs : List Char) : Option (List Char × List Char) :=
  let whole := cs.takeWhile isDigit
  let after := cs.dropWhile isDigit
  if whole = [] then none
  else
    match (fraction? after).filter (endsWord ·.2) with
    | some (fraction, rest) => some (whole ++ fraction, rest)
    | none => if endsWord after then some (whole, after) else none

def number? : List Char → Option (List Char × List Char)
  | '-' :: cs => (unsigned? cs).map fun (digits, rest) ↦ ('-' :: digits, rest)
  | cs => unsigned? cs

/-- A name: the longest run of word characters. -/
def word? (cs : List Char) : Option (List Char × List Char) :=
  if cs.takeWhile isWord = [] then none else some (cs.takeWhile isWord, cs.dropWhile isWord)

/-- The kind of the lexeme at the head, its characters and what follows. -/
def lexeme? (cs : List Char) : Option (Kind × List Char × List Char) :=
  ((quoted? cs).map (.text, ·))
    <|> paren? cs
    <|> ((comparison? cs).map (.comparison, ·))
    <|> ((keyword? cs).map (.connective, ·))
    <|> ((number? cs).map (.number, ·))
    <|> ((word? cs).map (.identifier, ·))

theorem quoted?_append {cs text rest : List Char} (h : quoted? cs = some (text, rest)) :
    text ++ rest = cs ∧ text ≠ [] := by
  unfold quoted? at h
  split at h
  · rename_i cs
    split at h
    · simp at h
    · rename_i close tail hdrop
      obtain ⟨rfl, rfl⟩ : _ ∧ _ := by simpa using h
      refine ⟨?_, by simp⟩
      have := List.takeWhile_append_dropWhile (p := (· != '\'')) (l := cs)
      rw [hdrop] at this
      simpa using this
  · simp at h

theorem paren?_append {cs text rest : List Char} {kind : Kind}
    (h : paren? cs = some (kind, text, rest)) : text ++ rest = cs ∧ text ≠ [] := by
  unfold paren? at h
  split at h <;> simp at h <;> obtain ⟨_, rfl, rfl⟩ := h <;> simp

theorem comparison?_append {cs text rest : List Char} (h : comparison? cs = some (text, rest)) :
    text ++ rest = cs ∧ text ≠ [] := by
  unfold comparison? at h
  split at h <;> simp at h <;> obtain ⟨rfl, rfl⟩ := h <;> simp

theorem keyword?_append {cs text rest : List Char} (h : keyword? cs = some (text, rest)) :
    text ++ rest = cs ∧ text ≠ [] := by
  unfold keyword? at h
  split at h <;> simp at h <;> obtain ⟨_, rfl, rfl⟩ := h <;> simp

theorem fraction?_append {cs text rest : List Char} (h : fraction? cs = some (text, rest)) :
    text ++ rest = cs := by
  unfold fraction? at h
  split at h
  · rename_i cs
    split at h
    · simp at h
    · rename_i d ds htake
      obtain ⟨rfl, rfl⟩ : _ ∧ _ := by simpa using h
      have := List.takeWhile_append_dropWhile (p := isDigit) (l := cs)
      rw [htake] at this
      simpa using this
  · simp at h

theorem unsigned?_append {cs text rest : List Char} (h : unsigned? cs = some (text, rest)) :
    text ++ rest = cs ∧ text ≠ [] := by
  simp only [unsigned?] at h
  split at h
  · simp at h
  · rename_i hwhole
    split at h
    · rename_i fraction tail hfraction
      obtain ⟨rfl, rfl⟩ : _ ∧ _ := by simpa using h
      have hf := fraction?_append (Option.filter_eq_some_iff.mp hfraction).1
      exact ⟨by rw [List.append_assoc, hf, List.takeWhile_append_dropWhile], by simp [hwhole]⟩
    · split at h
      · obtain ⟨rfl, rfl⟩ : _ ∧ _ := by simpa using h
        exact ⟨List.takeWhile_append_dropWhile, hwhole⟩
      · simp at h

theorem number?_append {cs text rest : List Char} (h : number? cs = some (text, rest)) :
    text ++ rest = cs ∧ text ≠ [] := by
  unfold number? at h
  split at h
  · simp only [Option.map_eq_some_iff, Prod.mk.injEq, Prod.exists] at h
    obtain ⟨digits, tail, hd, rfl, rfl⟩ := h
    exact ⟨by simp [(unsigned?_append hd).1], by simp⟩
  · exact unsigned?_append h

theorem word?_append {cs text rest : List Char} (h : word? cs = some (text, rest)) :
    text ++ rest = cs ∧ text ≠ [] := by
  unfold word? at h
  split at h
  · simp at h
  · rename_i hword
    obtain ⟨rfl, rfl⟩ : _ ∧ _ := by simpa using h
    exact ⟨List.takeWhile_append_dropWhile, hword⟩

/-- A lexeme is not empty, and with what follows it makes up the text. -/
theorem lexeme?_append {cs text rest : List Char} {kind : Kind}
    (h : lexeme? cs = some (kind, text, rest)) : text ++ rest = cs ∧ text ≠ [] := by
  have tagged {tag : Kind} {o : Option (List Char × List Char)}
      (whole : ∀ {a b : List Char}, o = some (a, b) → a ++ b = cs ∧ a ≠ [])
      (h : o.map (tag, ·) = some (kind, text, rest)) : text ++ rest = cs ∧ text ≠ [] := by
    simp only [Option.map_eq_some_iff, Prod.mk.injEq, Prod.exists] at h
    obtain ⟨a, b, ho, _, rfl, rfl⟩ := h
    exact whole ho
  simp only [lexeme?, Option.orElse_eq_orElse, Option.orElse_eq_or, Option.or_eq_some_iff] at h
  rcases h with h | ⟨_, h | ⟨_, h | ⟨_, h | ⟨_, h | ⟨_, h⟩⟩⟩⟩⟩
  · exact tagged quoted?_append h
  · exact paren?_append h
  · exact tagged comparison?_append h
  · exact tagged keyword?_append h
  · exact tagged number?_append h
  · exact tagged word?_append h

theorem length_lt_of_lexeme? {cs text rest : List Char} {kind : Kind}
    (h : lexeme? cs = some (kind, text, rest)) : rest.length < cs.length := by
  obtain ⟨rfl, hne⟩ := lexeme?_append h
  have := List.length_pos_iff.mpr hne
  simp only [List.length_append]
  omega

end Criteria.Token
