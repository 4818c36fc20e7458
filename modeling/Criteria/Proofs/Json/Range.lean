import Criteria.Json.Decode
import Criteria.Proofs.Json.Write
import Criteria.Proofs.Steps

/-!
What JSON texts can hold. A number out of range is refused where it stands, and a large integer
becomes the nearest number, which is finite; so each value that a text holds, or that stands
anywhere in it, has integers of 64 bits and finite numbers only. Such a value is written by what it
holds, and its own text reads back to it.
-/

set_option autoImplicit false
set_option relaxedAutoImplicit false

namespace Criteria.Json

/-! ### Values and their parts -/

theorem areWritable_iff {items : List Json} :
    AreWritable items ↔ ∀ item ∈ items, item.IsWritable := by
  induction items with
  | nil => simp [AreWritable]
  | cons item items ih => rw [AreWritable, ih, List.forall_mem_cons]

theorem membersWritable_iff {members : List (String × Json)} :
    MembersWritable members ↔ ∀ m ∈ members, m.2.IsWritable := by
  induction members with
  | nil => simp [MembersWritable]
  | cons m members ih => rw [MembersWritable, ih, List.forall_mem_cons]

/-- A large integer is not too large for binary64. -/
theorem isFinite_toFloat (negative : Bool) {n : Nat} (h : n < 2 ^ 64) :
    (Decimal.toFloat negative ⟨n, 0⟩).isFinite = true := by
  refine Binary64.isFinite_signedBits negative (Decimal.bits_lt_infinityBits ?_)
  rw [Decimal.value, zpow_zero, mul_one]
  calc (n : ℚ) < 2 ^ (64 : Int) := by exact_mod_cast h
    _ ≤ 2 ^ (1023 : Int) := zpow_le_zpow_right₀ one_le_two (by omega)

/-! ### Tokens -/

/-- Whether the value of a token is one that a text can hold, if it has one. -/
def Token.IsWritable : Token → Prop
  | .scalar v => ∀ j ∈ v, j.IsWritable
  | _ => True

theorem isWritable_ofInteger (negative : Bool) (n : Nat)
    (h : isInRange (ofInteger negative n) = true) : (ofInteger negative n).IsWritable := by
  unfold ofInteger at h ⊢
  simp only [Nat.pow_eq] at h ⊢
  split_ifs at h ⊢ with hnegative hlarge hfits
  · exact h
  · exact ⟨by omega, by omega⟩
  · exact ⟨by omega, by omega⟩
  · exact h

theorem isWritable_ofNumeral {negative : Bool} {whole : List Char} {fraction : Option (List Char)}
    {power : Option Int} (h : isInRange (ofNumeral negative whole fraction power) = true) :
    (ofNumeral negative whole fraction power).IsWritable := by
  unfold ofNumeral at h ⊢
  split at h
  · exact isWritable_ofInteger negative _ h
  · exact h

theorem Token.isWritable_of_unsigned? {negative : Bool} {cs rest : List Char} {t : Token}
    (h : unsigned? negative cs = some (t, rest)) : t.IsWritable := by
  simp only [unsigned?, bind, Option.bind_eq_some_iff, Prod.exists] at h
  obtain ⟨whole, _, -, h⟩ := h
  split at h
  · simp at h
  · simp only [pure, Option.bind_eq_some_iff, Prod.exists, Option.some.injEq, Prod.mk.injEq] at h
    obtain ⟨fraction, _, -, power, _, -, rfl, -⟩ := h
    intro j hj
    obtain ⟨rfl, hrange⟩ : ofNumeral negative whole fraction power = j ∧ isInRange j = true := by
      simpa [Option.filter_eq_some_iff] using hj
    exact isWritable_ofNumeral hrange

theorem Token.isWritable_of_token? {cs rest : List Char} {t : Token}
    (h : token? cs = some (t, rest)) : t.IsWritable := by
  unfold token? at h
  split at h
  case h_7 =>
    obtain ⟨_, -, h⟩ := Option.map_eq_some_iff.mp h
    cases h
    trivial
  case h_11 => exact isWritable_of_unsigned? h
  case h_12 => exact isWritable_of_unsigned? h
  all_goals
    cases h
    simp [IsWritable, Json.IsWritable]

theorem isWritable_tokensFrom {done : List Token} {cs : List Char}
    (h : ∀ t ∈ done, t.IsWritable) : ∀ t ∈ (tokensFrom done cs).1, t.IsWritable := by
  fun_induction tokensFrom done cs with
  | case1 done => simpa using h
  | case2 done c rest _ ih => exact ih h
  | case3 done c rest _ hnone => simpa using h
  | case4 done c rest _ t after htoken ih =>
    exact ih (List.forall_mem_cons.mpr ⟨Token.isWritable_of_token? htoken, h⟩)

/-! ### Drafts -/

/-- Whether the values of all leaves are ones that a text can hold. -/
inductive Draft.IsWritable : Draft → Prop
  | broken : IsWritable .broken
  | leaf {v : Option Json} (h : ∀ j ∈ v, j.IsWritable) : IsWritable (.leaf v)
  | array {items : List Draft} (closed : Bool) (h : ∀ d ∈ items, d.IsWritable) :
    IsWritable (.array items closed)
  | object {members : List (Option String × Draft)} (closed : Bool)
    (h : ∀ m ∈ members, m.2.IsWritable) : IsWritable (.object members closed)

def Frame.IsWritable : Frame → Prop
  | .array done => ∀ d ∈ done, d.IsWritable
  | .object done | .member done _ => ∀ m ∈ done, m.2.IsWritable

/-- Whether all that has been read are values that a text can hold. -/
structure Reader.IsWritable (r : Reader) : Prop where
  frames : ∀ frame ∈ r.frames, frame.IsWritable
  complete : ∀ d, r.focus = .complete d → d.IsWritable

namespace Frame.IsWritable

theorem items {done : List Draft} (h : (Frame.array done).IsWritable) {d : Draft}
    (hd : d.IsWritable) : ∀ item ∈ d :: done, item.IsWritable :=
  List.forall_mem_cons.mpr ⟨hd, h⟩

theorem members {done : List (Option String × Draft)} {name : Option String}
    (h : (Frame.member done name).IsWritable) {d : Draft} (hd : d.IsWritable) :
    ∀ m ∈ (name, d) :: done, m.2.IsWritable :=
  List.forall_mem_cons.mpr ⟨hd, h⟩

theorem draft {frame : Frame} (h : frame.IsWritable) {last : Option Draft}
    (hlast : ∀ d ∈ last, d.IsWritable) : (frame.draft last).IsWritable := by
  cases frame with
  | array done =>
    refine .array false ?_
    simp only [List.mem_reverse, List.forall_mem_append, Option.mem_toList]
    exact ⟨hlast, h⟩
  | object done => exact .object false fun m hm ↦ h m (List.mem_reverse.mp hm)
  | member done name =>
    refine .object false ?_
    simp only [List.mem_reverse, List.forall_mem_cons]
    refine ⟨?_, h⟩
    cases last with
    | none => exact .broken
    | some d => exact hlast d rfl

end Frame.IsWritable

/-- What is open makes up a draft with the part that it ends in. -/
theorem isWritable_foldl_draft {frames : List Frame} (h : ∀ frame ∈ frames, frame.IsWritable)
    {d : Draft} (hd : d.IsWritable) :
    (frames.foldl (fun d frame ↦ frame.draft (some d)) d).IsWritable := by
  induction frames generalizing d with
  | nil => exact hd
  | cons frame frames ih =>
    obtain ⟨hframe, hframes⟩ := List.forall_mem_cons.mp h
    exact ih hframes (hframe.draft (by simpa using hd))

namespace Reader

variable {r s : Reader} {limit : Option Nat} {t : Token}

theorem isWritable_start : start.IsWritable :=
  ⟨by simp [start], nofun⟩

theorem isWritable_complete {frames : List Frame} {d : Draft}
    (h : ∀ frame ∈ frames, frame.IsWritable) (hd : d.IsWritable) :
    Reader.IsWritable ⟨frames, .complete d⟩ :=
  ⟨h, by
    rintro _ ⟨⟩
    exact hd⟩

theorem IsWritable.beginValue (hr : r.IsWritable) (ht : t.IsWritable)
    (h : r.beginValue limit t = some s) : s.IsWritable := by
  unfold Reader.beginValue at h
  split at h
  · cases h
    exact isWritable_complete hr.frames (.leaf (by simp [Json.IsWritable]))
  · cases h
    exact isWritable_complete hr.frames (.leaf ht)
  · split at h <;> cases h
    exact ⟨List.forall_mem_cons.mpr ⟨by simp [Frame.IsWritable], hr.frames⟩, nofun⟩
  · split at h <;> cases h
    exact ⟨List.forall_mem_cons.mpr ⟨by simp [Frame.IsWritable], hr.frames⟩, nofun⟩
  · cases h

theorem IsWritable.beginMember (hr : r.IsWritable) (h : r.beginMember t = some s) :
    s.IsWritable := by
  obtain ⟨frames, focus⟩ := r
  unfold Reader.beginMember at h
  split at h
  · rename_i hframes
    cases h
    obtain rfl : frames = _ := hframes
    obtain ⟨hframe, hframes⟩ := List.forall_mem_cons.mp hr.frames
    exact ⟨List.forall_mem_cons.mpr ⟨hframe, hframes⟩, nofun⟩
  · cases h

/-- The value goes to the array or object that holds it, which a comma keeps open. -/
theorem isWritable_of_afterValue {frames : List Frame} {d : Draft}
    (hframes : ∀ frame ∈ frames, frame.IsWritable) (hd : d.IsWritable)
    (h : afterValue frames d t = some s) : s.IsWritable := by
  unfold afterValue at h
  split at h
  case h_5 => cases h
  all_goals
    cases h
    obtain ⟨hframe, hframes⟩ := List.forall_mem_cons.mp hframes
  case h_1 => exact ⟨List.forall_mem_cons.mpr ⟨hframe.items hd, hframes⟩, nofun⟩
  case h_2 =>
    exact isWritable_complete hframes
      (.array true fun item hitem ↦ hframe.items hd item (List.mem_reverse.mp hitem))
  case h_3 => exact ⟨List.forall_mem_cons.mpr ⟨hframe.members hd, hframes⟩, nofun⟩
  case h_4 =>
    exact isWritable_complete hframes
      (.object true fun m hm ↦ hframe.members hd m (List.mem_reverse.mp hm))

/-- A step keeps what has been read, and adds the value of a token at most. -/
theorem IsWritable.step (hr : r.IsWritable) (ht : t.IsWritable)
    (h : r.step limit t = some s) : s.IsWritable := by
  obtain ⟨frames, focus⟩ := r
  cases focus with
  | value => exact hr.beginValue ht h
  | itemOrEnd =>
    simp only [Reader.step] at h
    split at h
    · cases h
      exact isWritable_complete (List.forall_mem_cons.mp hr.frames).2 (.array true (by simp))
    · exact hr.beginValue ht h
  | name => exact hr.beginMember h
  | nameOrEnd =>
    simp only [Reader.step] at h
    split at h
    · cases h
      exact isWritable_complete (List.forall_mem_cons.mp hr.frames).2 (.object true (by simp))
    · exact hr.beginMember h
  | colon =>
    simp only [Reader.step] at h
    split at h <;> cases h
    exact ⟨hr.frames, nofun⟩
  | complete d => exact isWritable_of_afterValue hr.frames (hr.complete d rfl) h

theorem IsWritable.run {tokens : List Token} (hr : r.IsWritable)
    (ht : ∀ t ∈ tokens, t.IsWritable) : (r.run limit tokens).1.IsWritable := by
  induction tokens generalizing r with
  | nil => exact hr
  | cons t tokens ih =>
    obtain ⟨ht, htokens⟩ := List.forall_mem_cons.mp ht
    cases hstep : r.step limit t with
    | none =>
      rw [Reader.run, hstep]
      exact hr
    | some s =>
      rw [run_cons hstep]
      exact ih (hr.step ht hstep) htokens

theorem IsWritable.of_mem_last (hr : r.IsWritable) : ∀ d ∈ r.last, d.IsWritable := by
  obtain ⟨frames, focus⟩ := r
  cases focus with
  | complete d => exact fun e he ↦ hr.complete e (congrArg Focus.complete (Option.some.inj he))
  | value | itemOrEnd | name | nameOrEnd | colon => nofun

theorem IsWritable.draft (hr : r.IsWritable) : r.draft.IsWritable := by
  have hlast := hr.of_mem_last
  unfold Reader.draft
  split
  · cases hfocus : r.last with
    | none => exact .broken
    | some d => exact hlast d hfocus
  · rename_i frame frames heq
    obtain ⟨hframe, hframes⟩ := List.forall_mem_cons.mp (heq ▸ hr.frames)
    exact isWritable_foldl_draft hframes (hframe.draft hlast)

end Reader

/-- Each value that stands in a text is one that a text can hold, even where the text is not
well-formed further on. -/
theorem isWritable_readDraft (limit : Option Nat) (s : String) :
    (readDraft limit s).1.IsWritable :=
  (Reader.isWritable_start.run (isWritable_tokensFrom (by simp))).draft

/-! ### Whole values -/

namespace Draft

theorem isWritable_wholeItems {items : List Draft} {done values : List Json}
    (hitems : ∀ d ∈ items, ∀ v, d.whole? = some v → v.IsWritable)
    (hdone : ∀ v ∈ done, v.IsWritable) (h : wholeItems done items = some values) :
    ∀ v ∈ values, v.IsWritable := by
  induction items generalizing done with
  | nil =>
    cases h
    simpa using hdone
  | cons d items ih =>
    obtain ⟨hd, hitems⟩ := List.forall_mem_cons.mp hitems
    rw [wholeItems] at h
    split at h
    · cases h
    · rename_i v hv
      exact ih hitems (List.forall_mem_cons.mpr ⟨hd v hv, hdone⟩) h

theorem isWritable_wholeMembers {members : List (Option String × Draft)}
    {done values : List (String × Json)}
    (hmembers : ∀ m ∈ members, ∀ v, m.2.whole? = some v → v.IsWritable)
    (hdone : ∀ m ∈ done, m.2.IsWritable) (h : wholeMembers done members = some values) :
    ∀ m ∈ values, m.2.IsWritable := by
  induction members generalizing done with
  | nil =>
    cases h
    simpa using hdone
  | cons m members ih =>
    obtain ⟨_ | name, d⟩ := m <;> obtain ⟨hm, hmembers⟩ := List.forall_mem_cons.mp hmembers
    · simp [wholeMembers] at h
    · cases hv : d.whole? with
      | none => simp [wholeMembers, hv] at h
      | some v =>
        simp only [wholeMembers, hv] at h
        exact ih hmembers (List.forall_mem_cons.mpr ⟨hm v hv, hdone⟩) h

/-- The value of a draft is made of those of its leaves. -/
theorem IsWritable.whole {d : Draft} (hd : d.IsWritable) :
    ∀ v, d.whole? = some v → v.IsWritable := by
  induction hd with
  | broken => nofun
  | leaf h => exact h
  | array closed _ ih =>
    intro v h
    rw [whole?] at h
    split at h
    · obtain ⟨values, hvalues, rfl⟩ := Option.map_eq_some_iff.mp h
      exact areWritable_iff.mpr (isWritable_wholeItems ih (by simp) hvalues)
    · cases h
  | object closed _ ih =>
    intro v h
    rw [whole?] at h
    split at h
    · obtain ⟨values, hvalues, rfl⟩ := Option.map_eq_some_iff.mp h
      exact membersWritable_iff.mpr (isWritable_wholeMembers ih (by simp) hvalues)
    · cases h

theorem IsWritable.asJson {d : Draft} (hd : d.IsWritable) {v : Json} (h : d.asJson = .ok v) :
    v.IsWritable := by
  unfold Draft.asJson at h
  split at h
  · rename_i w hw
    cases h
    exact hd.whole v hw
  · cases h

end Draft

/-- What is decoded from a text is decoded from a draft of values that a text can hold. -/
theorem exists_of_decodeText {α : Type} {limit : Option Nat}
    {decode : Draft → Except Mismatch α} {s : String} {a : α}
    (h : decodeText limit decode s = .ok a) : ∃ d, d.IsWritable ∧ decode d = .ok a := by
  obtain ⟨b, hdecode, h⟩ := bind_eq_ok_iff.mp h
  obtain ⟨_, -, h⟩ := bind_eq_ok_iff.mp h
  cases h
  exact ⟨_, isWritable_readDraft limit s, hdecode⟩

/-- The value of a text has integers of 64 bits and finite numbers only. -/
theorem isWritable_of_ofText {limit : Option Nat} {s : String} {v : Json}
    (h : ofText limit s = .ok v) : v.IsWritable := by
  obtain ⟨d, hd, hv⟩ := exists_of_decodeText h
  exact hd.asJson hv

end Criteria.Json
