import Criteria.LogFilter.Directive
import Criteria.Proofs.LogFilter.SpanField
import Criteria.Proofs.Text.Class

/-!
Directives read back from what is written of them. The reader goes through the text sign by sign,
and cuts out each part at the bytes where its signs stand.
-/

set_option autoImplicit false
set_option relaxedAutoImplicit false

namespace Criteria

open Text

theorem LogLevel.read?_name (l : LogLevel) : read? l.name.toList = some l := by
  cases l <;> rfl

theorem LogLevel.toList_name_ne_nil (l : LogLevel) : l.name.toList ≠ [] := by
  cases l <;> decide

namespace Directive

/-! ### Parts of a text by their bytes -/

variable {cs ds : List Char}

/-- A text that is not empty has bytes, and behind its first character those of the rest. -/
theorem exists_byteLength_cons (c : Char) (cs : List Char) :
    ∃ n, byteLength (c :: cs) = n + 1 ∧ c.utf8Size ≤ n + 1 ∧
      n + 1 - c.utf8Size = byteLength cs := by
  obtain ⟨n, hn⟩ := Nat.exists_eq_add_of_lt c.utf8Size_pos
  refine ⟨n + byteLength cs, ?_, by omega, by omega⟩
  change c.utf8Size + byteLength cs = _
  omega

theorem dropBytes?_append (cs ds : List Char) :
    dropBytes? (byteLength cs) (cs ++ ds) = some ds := by
  induction cs with
  | nil => cases ds <;> rfl
  | cons c cs ih =>
    obtain ⟨n, hlength, hle, hrest⟩ := exists_byteLength_cons c cs
    rw [hlength, List.cons_append, dropBytes?, if_pos hle, hrest, ih]

theorem takeBytes?_append (cs ds : List Char) :
    takeBytes? (byteLength cs) (cs ++ ds) = some cs := by
  induction cs with
  | nil => cases ds <;> rfl
  | cons c cs ih =>
    obtain ⟨n, hlength, hle, hrest⟩ := exists_byteLength_cons c cs
    rw [hlength, List.cons_append, takeBytes?, if_pos hle, hrest, ih]
    rfl

theorem slice?_append (before cs after : List Char) :
    slice? (before ++ (cs ++ after)) (byteLength before) (byteLength (before ++ cs)) = some cs := by
  rw [slice?, dropBytes?_append, byteLength_append, Nat.add_sub_cancel_left]
  exact takeBytes?_append cs after

/-! ### Reading on -/

/-- What is read of a text in two pieces, of which the first one has been read. -/
def readOn (before rest : List Char) (r : Reader) : Option Reader :=
  readFrom? (before ++ rest) r (byteLength before) rest

variable {before rest : List Char} {r : Reader}

theorem readOn_cons (before : List Char) (c : Char) (rest : List Char) (r : Reader) :
    readOn before (c :: rest) r =
      (step (before ++ c :: rest) r (byteLength before) c).bind (readOn (before ++ [c]) rest) := by
  have hplace : byteLength (before ++ [c]) = byteLength before + c.utf8Size :=
    byteLength_append before [c]
  rw [readOn, readFrom?]
  refine congrArg (Option.bind _) (funext fun r ↦ ?_)
  rw [readOn, hplace, List.append_assoc]
  rfl

/-- Characters that change nothing are passed over. -/
theorem readOn_append (h : ∀ c ∈ cs, ∀ whole place, step whole r place c = some r) :
    readOn before (cs ++ rest) r = readOn (before ++ cs) rest r := by
  induction cs generalizing before with
  | nil => rw [List.nil_append, List.append_nil]
  | cons c cs ih =>
    obtain ⟨hc, hcs⟩ := List.forall_mem_cons.mp h
    rw [List.cons_append, readOn_cons, hc, Option.bind_some, ih hcs, List.append_assoc]
    rfl

/-- A target ends at an equals sign, or at the bracket that opens a span. -/
theorem readOn_target {c sign : Char} (hc : beginsHead c = true)
    (hcs : ∀ c' ∈ c :: cs, c' ≠ '=' ∧ c' ≠ '[') (hsign : sign = '=' ∨ sign = '[') :
    readOn [] (c :: (cs ++ sign :: rest)) ⟨keepAll, .outset⟩ =
      readOn (c :: cs ++ [sign]) rest ⟨{ keepAll with target := some (String.ofList (c :: cs)) },
        if sign = '=' then .level (byteLength (c :: cs ++ [sign]))
        else .span (byteLength (c :: cs ++ [sign]))⟩ := by
  obtain ⟨hfirst, hcs⟩ := List.forall_mem_cons.mp hcs
  have hstart : step ([] ++ c :: (cs ++ sign :: rest)) ⟨keepAll, .outset⟩ 0 c =
      some ⟨keepAll, .head 0⟩ := by
    rw [step, if_neg hfirst.2, if_pos hc]
  have hstay : ∀ c ∈ cs, ∀ whole place,
      step whole ⟨keepAll, .head 0⟩ place c = some ⟨keepAll, .head 0⟩ :=
    fun c hc whole place ↦ if_neg (not_or.mpr (hcs c hc))
  have hplace : byteLength (c :: cs ++ [sign]) = byteLength (c :: cs) + 1 := by
    rw [byteLength_append]
    rcases hsign with rfl | rfl <;> rfl
  have hend : step (c :: cs ++ sign :: rest) ⟨keepAll, .head 0⟩ (byteLength (c :: cs)) sign =
      some ⟨{ keepAll with target := some (String.ofList (c :: cs)) },
        if sign = '=' then .level (byteLength (c :: cs ++ [sign]))
        else .span (byteLength (c :: cs ++ [sign]))⟩ := by
    have hslice : slice? (c :: cs ++ sign :: rest) 0 (byteLength (c :: cs)) = some (c :: cs) :=
      slice?_append [] (c :: cs) (sign :: rest)
    change (if sign = '=' ∨ sign = '[' then (slice? _ 0 _).bind _ else _) = _
    rw [if_pos hsign, hslice, hplace]
    rfl
  rw [readOn_cons]
  change (step ([] ++ c :: (cs ++ sign :: rest)) ⟨keepAll, .outset⟩ 0 c).bind _ = _
  rw [hstart, Option.bind_some, readOn_append hstay, readOn_cons]
  exact congrArg (Option.bind · _) hend

/-- A span's name ends at the bracket that closes the span, or at the brace before a field. -/
theorem readOn_span {done : Directive} (hcs : ∀ c ∈ cs, c ≠ ']' ∧ c ≠ '\x7b') :
    readOn before (cs ++ rest) ⟨done, .span (byteLength before)⟩ =
      readOn (before ++ cs) rest ⟨done, .span (byteLength before)⟩ := by
  refine readOn_append fun c hc whole place ↦ ?_
  obtain ⟨hbracket, hbrace⟩ := hcs c hc
  change spanStep whole _ _ _ c = _
  unfold spanStep
  split
  · exact absurd rfl hbracket
  · exact absurd rfl hbrace
  · rfl

theorem readOn_sign {sign : Char} {r r' : Reader}
    (h : step (before ++ (cs ++ sign :: rest)) r (byteLength (before ++ cs)) sign = some r') :
    readOn (before ++ cs) (sign :: rest) r = readOn (before ++ cs ++ [sign]) rest r' := by
  rw [readOn_cons, List.append_assoc, h, Option.bind_some, List.append_assoc]

variable {done : Directive}

theorem readOn_closeSpan (hcs : ∀ c ∈ cs, c ≠ ']' ∧ c ≠ '\x7b') :
    readOn before (cs ++ ']' :: rest) ⟨done, .span (byteLength before)⟩ =
      readOn (before ++ cs ++ [']']) rest
        ⟨{ done with span := some (String.ofList cs) }, .spanEnd⟩ := by
  rw [readOn_span hcs]
  refine readOn_sign ?_
  change (slice? _ _ _).bind _ = _
  rw [slice?_append]
  rfl

theorem readOn_openField (hcs : ∀ c ∈ cs, c ≠ ']' ∧ c ≠ '\x7b') :
    readOn before (cs ++ '\x7b' :: rest) ⟨done, .span (byteLength before)⟩ =
      readOn (before ++ cs ++ ['\x7b']) rest
        ⟨{ done with span := if cs = [] then none else some (String.ofList cs) },
          .field (byteLength (before ++ cs ++ ['\x7b']))⟩ := by
  rw [readOn_span hcs]
  refine readOn_sign ?_
  change (slice? _ _ _).bind _ = _
  rw [slice?_append, byteLength_append (before ++ cs)]
  rfl

theorem readOn_field {f : SpanField} (h : f.IsPlain) :
    readOn before (f.write.toList ++ '\x7d' :: ']' :: rest) ⟨done, .field (byteLength before)⟩ =
      readOn (before ++ f.write.toList ++ ['\x7d'] ++ [']']) rest
        ⟨{ done with field := some f }, .spanEnd⟩ := by
  have hne : f.write.toList ≠ [] := fun hnil ↦ h.write (String.toList_eq_nil_iff.mp hnil)
  have hstay : ∀ c ∈ f.write.toList, ∀ whole place,
      step whole ⟨done, .field (byteLength before)⟩ place c =
        some ⟨done, .field (byteLength before)⟩ :=
    fun c hc whole place ↦ if_neg (SpanField.ne_of_mem_write h c hc).1
  have hclose : step (before ++ (f.write.toList ++ '\x7d' :: ']' :: rest))
      ⟨done, .field (byteLength before)⟩ (byteLength (before ++ f.write.toList)) '\x7d' =
        some ⟨{ done with field := some f }, .fieldEnd⟩ := by
    change (slice? _ _ _).bind _ = _
    rw [slice?_append, Option.bind_some, if_neg hne, SpanField.read?_write h]
    rfl
  rw [readOn_append hstay, readOn_sign hclose, readOn_cons]
  rfl

theorem readOn_level (before cs : List Char) (done : Directive) (first : Nat) :
    readOn before cs ⟨done, .level first⟩ = some ⟨done, .level first⟩ := by
  have hstay : readOn before (cs ++ []) ⟨done, .level first⟩ =
      readOn (before ++ cs) [] ⟨done, .level first⟩ := readOn_append fun _ _ _ _ ↦ rfl
  rwa [List.append_nil] at hstay

theorem readOn_spanEnd (before cs : List Char) (done : Directive) :
    readOn before ('=' :: cs) ⟨done, .spanEnd⟩ =
      some ⟨done, .level (byteLength (before ++ ['=']))⟩ := by
  rw [readOn_cons, byteLength_append]
  exact readOn_level ..

theorem finish?_level (before : List Char) (done : Directive) (l : LogLevel) :
    finish? (before ++ l.name.toList) ⟨done, .level (byteLength before)⟩ =
      some { done with level := l } := by
  change (dropBytes? _ _).bind _ = _
  rw [dropBytes?_append, Option.bind_some, if_neg l.toList_name_ne_nil, LogLevel.read?_name]
  rfl

/-! ### Written directives -/

/-- No part is empty or holds a sign that ends it, and no comma stands in the text. -/
structure IsPlain (d : Directive) : Prop where
  target : ∀ t ∈ d.target, (∃ c ∈ t.toList.head?, beginsHead c = true) ∧
    ∀ c ∈ t.toList, c ≠ '=' ∧ c ≠ '[' ∧ c ≠ ','
  span : ∀ s ∈ d.span, (d.field.isSome = true → s ≠ "") ∧
    ∀ c ∈ s.toList, c ≠ ']' ∧ c ≠ '\x7b' ∧ c ≠ ','
  field : ∀ f ∈ d.field, f.IsPlain

variable {d : Directive}

/-- The text between the bracket that opens a span and the equals sign. -/
def placeChars (d : Directive) : List Char :=
  (d.span.getD "").toList ++
    ((d.field.map fun f ↦ '\x7b' :: (f.write.toList ++ ['\x7d'])).getD [] ++ [']'])

/-- A directive for all messages is written as its level. -/
theorem toList_write (d : Directive) : d.write.toList =
    if d.target = none ∧ ¬d.isDynamic = true then d.level.name.toList
    else (d.target.getD "").toList ++ ((if d.isDynamic then '[' :: d.placeChars else []) ++
      '=' :: d.level.name.toList) := by
  obtain ⟨target, span, field, level⟩ := d
  rw [write, apply_ite String.toList]
  congr 1
  cases field with
  | none => cases span <;> simp [isDynamic, placeChars]
  | some f => simp [isDynamic, placeChars]

theorem readOn_place (h : d.IsPlain) (hdynamic : d.isDynamic = true) (hspan : done.span = none)
    (hfield : done.field = none) :
    readOn before (d.placeChars ++ rest) ⟨done, .span (byteLength before)⟩ =
      readOn (before ++ d.placeChars) rest
        ⟨{ done with span := d.span, field := d.field }, .spanEnd⟩ := by
  obtain ⟨target, span, field, level⟩ := d
  obtain ⟨target', span', field', level'⟩ := done
  obtain rfl : span' = none := hspan
  obtain rfl : field' = none := hfield
  cases field with
  | none =>
    obtain ⟨s, rfl⟩ : ∃ s, span = some s := by
      simpa [isDynamic, Option.isSome_iff_exists] using hdynamic
    have hs := (h.span s rfl).2
    have hclose : readOn before (s.toList ++ ']' :: rest)
        ⟨⟨target', none, none, level'⟩, .span (byteLength before)⟩ = _ :=
      readOn_closeSpan fun c hc ↦ ⟨(hs c hc).1, (hs c hc).2.1⟩
    simpa [placeChars] using hclose
  | some f =>
    have hf := h.field f rfl
    have hopen (cs : List Char) (hcs : ∀ c ∈ cs, c ≠ ']' ∧ c ≠ '\x7b') :
        readOn before (cs ++ '\x7b' :: (f.write.toList ++ '\x7d' :: ']' :: rest))
          ⟨⟨target', none, none, level'⟩, .span (byteLength before)⟩ = _ :=
      readOn_openField hcs
    cases span with
    | none =>
      have hnone := (hopen [] (by simp)).trans (readOn_field hf)
      simpa [placeChars] using hnone
    | some s =>
      obtain ⟨hne, hs⟩ := h.span s rfl
      have hsome := (hopen s.toList fun c hc ↦ ⟨(hs c hc).1, (hs c hc).2.1⟩).trans (readOn_field hf)
      have hne' : s ≠ "" := hne rfl
      simpa [placeChars, hne'] using hsome

/-- What is read of a directive's text is the directive. -/
theorem finish?_place (h : d.IsPlain) (hdynamic : d.isDynamic = true) (before : List Char)
    (target : Option String) :
    (readOn before (d.placeChars ++ '=' :: d.level.name.toList)
      ⟨{ keepAll with target }, .span (byteLength before)⟩).bind
        (finish? (before ++ (d.placeChars ++ '=' :: d.level.name.toList))) =
      some { d with target } := by
  have hwhole : before ++ (d.placeChars ++ '=' :: d.level.name.toList) =
      before ++ d.placeChars ++ ['='] ++ d.level.name.toList := by simp
  rw [readOn_place h hdynamic rfl rfl, readOn_spanEnd, Option.bind_some, hwhole, finish?_level]

theorem isBlank_eq_false_of_beginsHead {c : Char} (h : beginsHead c = true) :
    isBlank c = false := by
  simp only [beginsHead, Bool.or_eq_true, decide_eq_true_eq] at h
  rcases h with ((h | rfl) | rfl) | rfl
  · exact isBlank_eq_false_of_isAlphanumeric h
  all_goals rfl

/-- A text that begins without a blank and ends in a level is read from its beginning on. -/
theorem read?_eq_bind {text : List Char} (hfirst : ∀ c ∈ text.head?, isBlank c = false)
    (hlast : ∃ front, ∃ l : LogLevel, text = front ++ l.name.toList) :
    read? text = (readOn [] text ⟨keepAll, .outset⟩).bind (finish? text) := by
  have htrim : trimChars text = text := by
    refine trimChars_eq_self hfirst ?_
    obtain ⟨front, l, rfl⟩ := hlast
    rw [List.getLast?_append_of_ne_nil _ l.toList_name_ne_nil]
    cases l <;> simp [LogLevel.name] <;> rfl
  rw [read?, htrim]
  rfl

/-- A target is read up to the sign behind it. -/
theorem read?_target {t : String} {sign : Char}
    (hfirst : ∃ c ∈ t.toList.head?, beginsHead c = true)
    (ht : ∀ c ∈ t.toList, c ≠ '=' ∧ c ≠ '[' ∧ c ≠ ',') (hsign : sign = '=' ∨ sign = '[')
    (hlast : ∃ front, ∃ l : LogLevel, rest = front ++ l.name.toList) :
    read? (t.toList ++ sign :: rest) =
      (readOn (t.toList ++ [sign]) rest ⟨{ keepAll with target := some t },
        if sign = '=' then .level (byteLength (t.toList ++ [sign]))
        else .span (byteLength (t.toList ++ [sign]))⟩).bind
          (finish? (t.toList ++ [sign] ++ rest)) := by
  obtain ⟨c, hc, hbegins⟩ := hfirst
  obtain ⟨cs, hcs⟩ : ∃ cs, t.toList = c :: cs := ⟨_, (List.head?_eq_some_iff.mp hc).choose_spec⟩
  have hself : String.ofList (c :: cs) = t := by rw [← hcs, String.ofList_toList]
  rw [hcs] at ht ⊢
  obtain ⟨front, l, hrest⟩ := hlast
  have hread : readOn [] (c :: (cs ++ sign :: rest)) _ = _ :=
    readOn_target hbegins (fun c' hc' ↦ ⟨(ht c' hc').1, (ht c' hc').2.1⟩) hsign
  rw [read?_eq_bind (by simpa using isBlank_eq_false_of_beginsHead hbegins)
    ⟨c :: (cs ++ sign :: front), l, by simp [hrest]⟩, ← hself, List.append_assoc]
  exact congrArg (Option.bind · _) hread

/-- A directive reads back from what is written of it. -/
theorem read?_write (h : d.IsPlain) : read? d.write.toList = some d := by
  rw [toList_write]
  cases hdynamic : d.isDynamic with
  | true =>
    rw [if_neg (by simp), if_pos rfl]
    cases htarget : d.target with
    | none =>
      change read? ('[' :: (d.placeChars ++ '=' :: d.level.name.toList)) = _
      rw [read?_eq_bind (by simpa using by decide)
        ⟨'[' :: (d.placeChars ++ ['=']), d.level, by simp⟩, readOn_cons]
      exact (finish?_place h hdynamic ['['] none).trans (by rw [← htarget])
    | some t =>
      obtain ⟨hfirst, ht⟩ := h.target t htarget
      rw [Option.getD_some, List.cons_append,
        read?_target hfirst ht (.inr rfl) ⟨d.placeChars ++ ['='], d.level, by simp⟩]
      exact (finish?_place h hdynamic (t.toList ++ ['[']) (some t)).trans (by rw [← htarget])
  | false =>
    obtain ⟨target, span, field, level⟩ := d
    obtain ⟨rfl, rfl⟩ : span = none ∧ field = none := by simpa [isDynamic] using hdynamic
    cases target with
    | none => cases level <;> rfl
    | some t =>
      obtain ⟨hfirst, ht⟩ := h.target t rfl
      rw [if_neg (by simp), if_neg (by simp), Option.getD_some, List.nil_append,
        read?_target hfirst ht (.inl rfl) ⟨[], level, (List.nil_append _).symm⟩, if_pos rfl,
        readOn_level, Option.bind_some]
      exact finish?_level ..

/-- No comma stands in the text of a directive, so directives can be listed. -/
theorem comma_notMem_write (h : d.IsPlain) : ',' ∉ d.write.toList := by
  have hlevel : ',' ∉ d.level.name.toList := by cases d.level <;> decide
  have hspan : ',' ∉ (d.span.getD "").toList := by
    cases hspan : d.span with
    | none => simp
    | some s => exact fun hmem ↦ ((h.span s hspan).2 ',' hmem).2.2 rfl
  have hfield : ',' ∉ (d.field.map fun f ↦ '\x7b' :: (f.write.toList ++ ['\x7d'])).getD [] := by
    cases hfield : d.field with
    | none => simp
    | some f =>
      have hf : ',' ∉ f.write.toList :=
        fun hmem ↦ (SpanField.ne_of_mem_write (h.field f hfield) ',' hmem).2 rfl
      simpa using hf
  have htarget : ',' ∉ (d.target.getD "").toList := by
    cases htarget : d.target with
    | none => simp
    | some t => exact fun hmem ↦ ((h.target t htarget).2 ',' hmem).2.2 rfl
  have hplace : ',' ∉ d.placeChars := by
    rw [placeChars, List.mem_append, List.mem_append, not_or, not_or]
    exact ⟨hspan, hfield, by decide⟩
  rw [toList_write]
  split
  · exact hlevel
  · cases d.isDynamic <;> simp [htarget, hplace, hlevel]

theorem write_ne_nil (d : Directive) : d.write.toList ≠ [] := by
  rw [toList_write]
  split
  · exact d.level.toList_name_ne_nil
  · simp

end Directive

end Criteria
