import Criteria.Json.Draft
import Criteria.Proofs.Json.Number
import Criteria.Proofs.Json.Text

/-!
Values written as JSON texts read back. The text of a value is cut into the tokens of its parts, a
reader takes these tokens one by one, and what it then holds is a whole draft of the value, nested
to any depth.
-/

set_option autoImplicit false
set_option relaxedAutoImplicit false

namespace Criteria.Json

mutual

/-- Whether the text of a value says what the value holds: its integers have 64 bits, and its
numbers are finite. -/
def IsWritable : Json → Prop
  | .null | .bool _ | .text _ => True
  | .int n => -(2 ^ 63) ≤ n ∧ n < 2 ^ 64
  | .real x => x.isFinite = true
  | .array items => AreWritable items
  | .object members => MembersWritable members

def AreWritable : List Json → Prop
  | [] => True
  | item :: items => item.IsWritable ∧ AreWritable items

def MembersWritable : List (String × Json) → Prop
  | [] => True
  | (_, v) :: members => v.IsWritable ∧ MembersWritable members

end

mutual

/-- The tokens of the text of a value. -/
def spelled : Json → List Token
  | .null => [.scalar (some .null)]
  | .bool b => [.scalar (some (.bool b))]
  | .int n => [.scalar (some (.int n))]
  | .real x => [.scalar (some (.real x))]
  | .text s => [.text (some s)]
  | .array items => .openArray :: itemsSpelled items
  | .object members => .openObject :: membersSpelled members

def itemsSpelled : List Json → List Token
  | [] => [.closeArray]
  | [item] => item.spelled ++ [.closeArray]
  | item :: next :: items => item.spelled ++ .comma :: itemsSpelled (next :: items)

def membersSpelled : List (String × Json) → List Token
  | [] => [.closeObject]
  | [(name, v)] => .text (some name) :: .colon :: (v.spelled ++ [.closeObject])
  | (name, v) :: next :: members =>
    .text (some name) :: .colon :: (v.spelled ++ .comma :: membersSpelled (next :: members))

end

mutual

/-- The draft of which every part is complete. -/
def toDraft : Json → Draft
  | .array items => .array (itemDrafts items) true
  | .object members => .object (memberDrafts members) true
  | v => .leaf (some v)

def itemDrafts : List Json → List Draft
  | [] => []
  | item :: items => item.toDraft :: itemDrafts items

def memberDrafts : List (String × Json) → List (Option String × Draft)
  | [] => []
  | (name, v) :: members => (some name, v.toDraft) :: memberDrafts members

end

/-! ### From texts to tokens -/

theorem isLayout_of_token? {c : Char} {cs rest : List Char} {t : Token}
    (h : token? (c :: cs) = some (t, rest)) : isLayout c = false := by
  rw [Bool.eq_false_iff]
  intro hlayout
  have hnone : token? (c :: cs) = none := by
    simp only [isLayout, Bool.or_eq_true, beq_iff_eq] at hlayout
    obtain ((rfl | rfl) | rfl) | rfl := hlayout <;> rfl
  rw [hnone] at h
  cases h

/-- The next token of a text goes to those read so far. -/
theorem tokensFrom_of_token? {cs rest : List Char} {t : Token} (h : token? cs = some (t, rest))
    (done : List Token) : tokensFrom done cs = tokensFrom (t :: done) rest := by
  cases cs with
  | nil =>
    have hnone : token? [] = none := rfl
    rw [hnone] at h
    cases h
  | cons c cs =>
    rw [tokensFrom, if_neg (by simp [isLayout_of_token? h])]
    split
    · rename_i hnone
      rw [h] at hnone
      cases hnone
    · rename_i heq
      rw [h] at heq
      cases heq
      rfl

theorem endsNumber_of_mark {c : Char} (hc : c ∈ [']', '}', ',']) (rest : List Char) :
    EndsNumber (c :: rest) := by
  rintro d ⟨⟩
  simp only [List.mem_cons, List.not_mem_nil, or_false] at hc
  obtain rfl | rfl | rfl := hc <;> decide

mutual

/-- The text of a value holds its tokens, if what follows does not lengthen a number. -/
theorem tokensFrom_onto (v : Json) (h : v.IsWritable) (done : List Token) {rest : List Char}
    (hrest : EndsNumber rest) :
    tokensFrom done (v.onto rest) = tokensFrom (v.spelled.reverse ++ done) rest := by
  match v, h with
  | .null, _ => exact tokensFrom_of_token? rfl done
  | .bool true, _ => exact tokensFrom_of_token? rfl done
  | .bool false, _ => exact tokensFrom_of_token? rfl done
  | .int n, h => exact tokensFrom_of_token? (token?_int h.1 h.2 hrest) done
  | .real x, h => exact tokensFrom_of_token? (token?_real h hrest) done
  | .text s, _ => exact tokensFrom_of_token? (token?_quotedOnto s rest) done
  | .array items, h =>
    rw [onto, tokensFrom_of_token? (t := .openArray) rfl, tokensFrom_itemsOnto items h]
    simp [spelled]
  | .object members, h =>
    rw [onto, tokensFrom_of_token? (t := .openObject) rfl, tokensFrom_membersOnto members h]
    simp [spelled]

theorem tokensFrom_itemsOnto (items : List Json) (h : AreWritable items) (done : List Token)
    (rest : List Char) :
    tokensFrom done (itemsOnto items rest) =
      tokensFrom ((itemsSpelled items).reverse ++ done) rest := by
  match items, h with
  | [], _ => exact tokensFrom_of_token? rfl done
  | [item], h =>
    rw [itemsOnto, tokensFrom_onto item h.1 done (endsNumber_of_mark (by decide) rest),
      tokensFrom_of_token? (t := .closeArray) rfl]
    simp [itemsSpelled]
  | item :: next :: items, h =>
    rw [itemsOnto, tokensFrom_onto item h.1 done (endsNumber_of_mark (by decide) _),
      tokensFrom_of_token? (t := .comma) rfl, tokensFrom_itemsOnto (next :: items) h.2]
    simp [itemsSpelled]

theorem tokensFrom_membersOnto (members : List (String × Json)) (h : MembersWritable members)
    (done : List Token) (rest : List Char) :
    tokensFrom done (membersOnto members rest) =
      tokensFrom ((membersSpelled members).reverse ++ done) rest := by
  match members, h with
  | [], _ => exact tokensFrom_of_token? rfl done
  | [(name, v)], h =>
    rw [membersOnto, tokensFrom_of_token? (token?_quotedOnto name _),
      tokensFrom_of_token? (t := .colon) rfl,
      tokensFrom_onto v h.1 _ (endsNumber_of_mark (by decide) rest),
      tokensFrom_of_token? (t := .closeObject) rfl]
    simp [membersSpelled]
  | (name, v) :: next :: members, h =>
    rw [membersOnto, tokensFrom_of_token? (token?_quotedOnto name _),
      tokensFrom_of_token? (t := .colon) rfl,
      tokensFrom_onto v h.1 _ (endsNumber_of_mark (by decide) _),
      tokensFrom_of_token? (t := .comma) rfl, tokensFrom_membersOnto (next :: members) h.2]
    simp [membersSpelled]

end

/-- The text of a value is its tokens, up to its end. -/
theorem tokens_write {v : Json} (h : v.IsWritable) : tokens v.write = (v.spelled, true) := by
  rw [tokens, write, String.toList_ofList, tokensFrom_onto v h [] (by simp [EndsNumber]),
    tokensFrom, List.append_nil, List.reverse_reverse]

/-! ### From tokens to drafts -/

namespace Reader

theorem run_cons {limit : Option Nat} {r s : Reader} {t : Token} (h : r.step limit t = some s)
    (tokens : List Token) : r.run limit (t :: tokens) = s.run limit tokens := by
  rw [run, h]

/-- At its beginning an array reads an item as anywhere else. -/
theorem run_itemOrEnd {items : List Json} (h : items ≠ []) (done : List Draft)
    (frames : List Frame) (tokens : List Token) :
    run none ⟨.array done :: frames, .itemOrEnd⟩ (itemsSpelled items ++ tokens) =
      run none ⟨.array done :: frames, .value⟩ (itemsSpelled items ++ tokens) := by
  match items, h with
  | [item], _ => cases item <;> rfl
  | item :: _ :: _, _ => cases item <;> rfl

/-- At its beginning an object reads a member as anywhere else. -/
theorem run_nameOrEnd {members : List (String × Json)} (h : members ≠ [])
    (done : List (Option String × Draft)) (frames : List Frame) (tokens : List Token) :
    run none ⟨.object done :: frames, .nameOrEnd⟩ (membersSpelled members ++ tokens) =
      run none ⟨.object done :: frames, .name⟩ (membersSpelled members ++ tokens) := by
  match members, h with
  | [_], _ => rfl
  | _ :: _ :: _, _ => rfl

mutual

/-- A reader without a limit takes all tokens of a value, and then holds its draft. -/
theorem run_spelled (v : Json) (frames : List Frame) (tokens : List Token) :
    run none ⟨frames, .value⟩ (v.spelled ++ tokens) =
      run none ⟨frames, .complete v.toDraft⟩ tokens := by
  match v with
  | .null | .bool _ | .int _ | .real _ | .text _ => rfl
  | .array items =>
    rw [spelled, List.cons_append, run_cons (s := ⟨.array [] :: frames, .itemOrEnd⟩) rfl]
    by_cases h : items = []
    · rw [h]
      rfl
    · rw [run_itemOrEnd h, run_itemsSpelled items h]
      rfl
  | .object members =>
    rw [spelled, List.cons_append, run_cons (s := ⟨.object [] :: frames, .nameOrEnd⟩) rfl]
    by_cases h : members = []
    · rw [h]
      rfl
    · rw [run_nameOrEnd h, run_membersSpelled members h]
      rfl

/-- The items go to those that are done, and the closing bracket ends the array. -/
theorem run_itemsSpelled (items : List Json) (h : items ≠ []) (done : List Draft)
    (frames : List Frame) (tokens : List Token) :
    run none ⟨.array done :: frames, .value⟩ (itemsSpelled items ++ tokens) =
      run none ⟨frames, .complete (.array (done.reverse ++ itemDrafts items) true)⟩ tokens := by
  match items, h with
  | [item], _ =>
    rw [itemsSpelled, List.append_assoc, run_spelled item, List.singleton_append,
      run_cons rfl, List.reverse_cons]
    rfl
  | item :: next :: items, _ =>
    rw [itemsSpelled, List.append_assoc, run_spelled item, List.cons_append,
      run_cons (s := ⟨.array (item.toDraft :: done) :: frames, .value⟩) rfl,
      run_itemsSpelled (next :: items) (by simp), List.reverse_cons, List.append_assoc]
    rfl

/-- The members go to those that are done, and the closing brace ends the object. -/
theorem run_membersSpelled (members : List (String × Json)) (h : members ≠ [])
    (done : List (Option String × Draft)) (frames : List Frame) (tokens : List Token) :
    run none ⟨.object done :: frames, .name⟩ (membersSpelled members ++ tokens) =
      run none ⟨frames, .complete (.object (done.reverse ++ memberDrafts members) true)⟩
        tokens := by
  match members, h with
  | [(name, v)], _ =>
    rw [membersSpelled, List.cons_append, List.cons_append, List.append_assoc,
      run_cons (s := ⟨.member done (some name) :: frames, .colon⟩) rfl,
      run_cons (s := ⟨.member done (some name) :: frames, .value⟩) rfl, run_spelled v,
      List.singleton_append, run_cons rfl, List.reverse_cons]
    rfl
  | (name, v) :: next :: members, _ =>
    rw [membersSpelled, List.cons_append, List.cons_append, List.append_assoc,
      run_cons (s := ⟨.member done (some name) :: frames, .colon⟩) rfl,
      run_cons (s := ⟨.member done (some name) :: frames, .value⟩) rfl, run_spelled v,
      List.cons_append,
      run_cons (s := ⟨.object ((some name, v.toDraft) :: done) :: frames, .name⟩) rfl,
      run_membersSpelled (next :: members) (by simp), List.reverse_cons, List.append_assoc]
    rfl

end

end Reader

/-- Reading the text of a value gives its draft, and nothing is left over. -/
theorem readDraft_write {v : Json} (h : v.IsWritable) :
    readDraft none v.write = (v.toDraft, true) := by
  have hrun := Reader.run_spelled v [] []
  rw [List.append_nil] at hrun
  simp only [readDraft, tokens_write h, Reader.start, hrun]
  rfl

/-! ### From drafts to values -/

mutual

/-- A draft of which every part is complete has a value. -/
theorem whole?_toDraft (v : Json) : v.toDraft.whole? = some v := by
  match v with
  | .null | .bool _ | .int _ | .real _ | .text _ => rfl
  | .array items =>
    rw [toDraft, Draft.whole?, if_pos rfl, wholeItems_itemDrafts items]
    rfl
  | .object members =>
    rw [toDraft, Draft.whole?, if_pos rfl, wholeMembers_memberDrafts members]
    rfl

theorem wholeItems_itemDrafts (items : List Json) (done : List Json) :
    Draft.wholeItems done (itemDrafts items) = some (done.reverse ++ items) := by
  match items with
  | [] => rw [itemDrafts, Draft.wholeItems, List.append_nil]
  | item :: items =>
    simp only [itemDrafts, Draft.wholeItems, whole?_toDraft item, wholeItems_itemDrafts items]
    simp

theorem wholeMembers_memberDrafts (members : List (String × Json))
    (done : List (String × Json)) :
    Draft.wholeMembers done (memberDrafts members) = some (done.reverse ++ members) := by
  match members with
  | [] => rw [memberDrafts, Draft.wholeMembers, List.append_nil]
  | (name, v) :: members =>
    simp only [memberDrafts, Draft.wholeMembers, whole?_toDraft v,
      wholeMembers_memberDrafts members]
    simp

end

/-- Every value that is written by what it holds is read back from its text. -/
theorem read?_write {v : Json} (h : v.IsWritable) : read? none v.write = some v := by
  rw [read?, readDraft_write h]
  exact whole?_toDraft v

end Criteria.Json
