import Criteria.Proofs.LogFilter.Directive
import Criteria.Proofs.LogFilter.Order

/-!
Filters of logs. Of the directives for the same messages a filter keeps the last one, and the most
particular messages come first; no two lists say the same in another order. So a filter is made
again from its own directives, whatever text it was read from, and one whose parts hold no signs
that end them reads back from its text.
-/

set_option autoImplicit false
set_option relaxedAutoImplicit false

namespace Criteria

open Std

theorem FieldValue.IsSpelled.isOrdered {v : FieldValue} (h : v.IsSpelled) : v.IsOrdered := by
  cases v with
  | real x => exact h.1
  | _ => trivial

namespace Directive

variable {d e : Directive} {ds : List Directive}

theorem IsPlain.isOrdered (h : d.IsPlain) : d.IsOrdered :=
  fun f hf v hv ↦ ((h.field f hf).value v hv).isOrdered

/-! ### Directives put in order -/

/-- The most particular ones come first, and no two are for the same messages. -/
def Descending (ds : List Directive) : Prop :=
  ds.Pairwise fun a b ↦ compare a b = .gt

theorem mem_insert (hd : d.IsOrdered) (hds : ∀ e ∈ ds, e.IsOrdered) (h : Descending ds) :
    e ∈ d.insert ds ↔ e = d ∨ e ∈ ds ∧ compare e d ≠ .eq := by
  induction ds with
  | nil => simp [insert]
  | cons other rest ih =>
    obtain ⟨hother, hrest⟩ := List.pairwise_cons.mp h
    obtain ⟨hordered, hds⟩ := List.forall_mem_cons.mp hds
    rw [insert, order_eq_compare hd hordered]
    cases hcompare : compare d other with
    | gt =>
      -- All of the others are below the new one.
      have hbelow : ∀ e ∈ other :: rest, compare e d ≠ .eq := by
        intro e he
        have hgt : compare d e = .gt := by
          rcases List.mem_cons.mp he with rfl | he
          · exact hcompare
          · exact TransCmp.gt_trans hcompare (hother e he)
        rw [OrientedOrd.eq_swap, hgt]
        decide
      dsimp only
      rw [List.mem_cons]
      exact or_congr_right (iff_self_and.mpr (hbelow e))
    | eq =>
      have hbelow : ∀ e ∈ rest, compare e d ≠ .eq := by
        intro e he
        rw [OrientedOrd.eq_swap, TransCmp.congr_left hcompare, hother e he]
        decide
      have hsame : ¬compare other d ≠ .eq := not_not.mpr (OrientedCmp.eq_symm hcompare)
      dsimp only
      rw [List.mem_cons, List.mem_cons]
      constructor
      · rintro (rfl | he)
        · exact .inl rfl
        · exact .inr ⟨.inr he, hbelow e he⟩
      · rintro (rfl | ⟨rfl | he, hne⟩)
        · exact .inl rfl
        · exact absurd hne hsame
        · exact .inr he
    | lt =>
      have hne : compare other d ≠ .eq := by
        rw [OrientedOrd.eq_swap, hcompare]
        decide
      dsimp only
      rw [List.mem_cons, List.mem_cons, ih hds hrest]
      constructor
      · rintro (rfl | rfl | ⟨he, he'⟩)
        · exact .inr ⟨.inl rfl, hne⟩
        · exact .inl rfl
        · exact .inr ⟨.inr he, he'⟩
      · rintro (rfl | ⟨rfl | he, he'⟩)
        · exact .inr (.inl rfl)
        · exact .inl rfl
        · exact .inr (.inr ⟨he, he'⟩)

theorem descending_insert (hd : d.IsOrdered) (hds : ∀ e ∈ ds, e.IsOrdered) (h : Descending ds) :
    Descending (d.insert ds) := by
  induction ds with
  | nil => exact List.pairwise_singleton _ _
  | cons other rest ih =>
    obtain ⟨hother, hrest⟩ := List.pairwise_cons.mp h
    obtain ⟨hordered, hds⟩ := List.forall_mem_cons.mp hds
    rw [insert, order_eq_compare hd hordered]
    cases hcompare : compare d other with
    | gt =>
      refine List.pairwise_cons.mpr ⟨List.forall_mem_cons.mpr ⟨hcompare, fun e he ↦ ?_⟩, h⟩
      exact TransCmp.gt_trans hcompare (hother e he)
    | eq =>
      refine List.pairwise_cons.mpr ⟨fun e he ↦ ?_, hrest⟩
      rw [TransCmp.congr_left hcompare, hother e he]
    | lt =>
      refine List.pairwise_cons.mpr ⟨fun e he ↦ ?_, ih hds hrest⟩
      rcases (mem_insert hd hds hrest).mp he with rfl | ⟨he, -⟩
      · exact OrientedCmp.gt_of_lt hcompare
      · exact hother e he

/-! ### The last directive for its messages -/

/-- Of the directives for the same messages this is the last one. -/
def IsLast (ds : List Directive) (d : Directive) : Prop :=
  ∃ before after, ds = before ++ d :: after ∧ ∀ e ∈ after, d.order e ≠ .eq

theorem isLast_concat : IsLast (ds ++ [e]) d ↔ d = e ∨ IsLast ds d ∧ d.order e ≠ .eq := by
  constructor
  · rintro ⟨before, after, hds, hafter⟩
    rcases List.eq_nil_or_concat after with rfl | ⟨after, last, rfl⟩
    · exact .inl (List.cons.inj (List.append_inj' hds rfl).2).1.symm
    · rw [List.concat_eq_append, ← List.cons_append, ← List.append_assoc] at hds
      obtain ⟨hfront, hlast⟩ := List.append_inj' hds rfl
      obtain rfl : e = last := (List.cons.inj hlast).1
      rw [List.concat_eq_append, List.forall_mem_append, List.forall_mem_singleton] at hafter
      exact .inr ⟨⟨before, after, hfront, hafter.1⟩, hafter.2⟩
  · rintro (rfl | ⟨⟨before, after, rfl, hafter⟩, hne⟩)
    · exact ⟨ds, [], rfl, List.forall_mem_nil _⟩
    · refine ⟨before, after ++ [e], by simp, ?_⟩
      rw [List.forall_mem_append, List.forall_mem_singleton]
      exact ⟨hafter, hne⟩

theorem not_isLast_nil : ¬IsLast [] d := by
  rintro ⟨before, after, h, -⟩
  simp at h

theorem IsLast.mem (h : IsLast ds d) : d ∈ ds := by
  obtain ⟨before, after, rfl, -⟩ := h
  simp

/-- Where directives for the same messages are equal, each one is the last one. -/
theorem isLast_iff_mem (h : ∀ d ∈ ds, ∀ e ∈ ds, d.order e = .eq → d = e) :
    IsLast ds d ↔ d ∈ ds := by
  induction ds using List.reverseRecOn with
  | nil => simp [not_isLast_nil]
  | append_singleton ds e ih =>
    have hfront := ih fun d hd e' he' ↦
      h d (List.mem_append_left _ hd) e' (List.mem_append_left _ he')
    rw [isLast_concat, hfront, List.mem_append, List.mem_singleton, or_comm]
    constructor
    · exact Or.imp_left And.left
    · rintro (hd | rfl)
      · by_cases heq : d.order e = .eq
        · exact .inr (h d (List.mem_append_left _ hd) e (by simp) heq)
        · exact .inl ⟨hd, heq⟩
      · exact .inr rfl

/-- Directives for the same messages are together among those that are kept. -/
theorem isLast_filter {p : Directive → Bool} (hp : ∀ d e, order d e = .eq → p d = p e) :
    IsLast (ds.filter p) d ↔ IsLast ds d ∧ p d = true := by
  induction ds using List.reverseRecOn with
  | nil => simp [not_isLast_nil]
  | append_singleton ds e ih =>
    rw [List.filter_append, isLast_concat]
    cases hpe : p e with
    | true =>
      rw [List.filter_cons_of_pos hpe, List.filter_nil, isLast_concat, ih]
      constructor
      · rintro (rfl | ⟨⟨hlast, hpd⟩, hne⟩)
        · exact ⟨.inl rfl, hpe⟩
        · exact ⟨.inr ⟨hlast, hne⟩, hpd⟩
      · rintro ⟨rfl | ⟨hlast, hne⟩, hpd⟩
        · exact .inl rfl
        · exact .inr ⟨⟨hlast, hpd⟩, hne⟩
    | false =>
      rw [List.filter_cons_of_neg (by simp [hpe]), List.filter_nil, List.append_nil, ih]
      constructor
      · rintro ⟨hlast, hpd⟩
        refine ⟨.inr ⟨hlast, fun heq ↦ ?_⟩, hpd⟩
        rw [hp d e heq, hpe] at hpd
        exact Bool.false_ne_true hpd
      · rintro ⟨rfl | ⟨hlast, -⟩, hpd⟩
        · rw [hpe] at hpd
          exact absurd hpd Bool.false_ne_true
        · exact ⟨hlast, hpd⟩

theorem order_symm (hd : d.IsOrdered) (he : e.IsOrdered) (h : d.order e = .eq) :
    e.order d = .eq := by
  rw [order_eq_compare hd he] at h
  rw [order_eq_compare he hd]
  exact OrientedCmp.eq_symm h

/-- There is one last directive for any messages. -/
theorem IsLast.eq_of_order (hordered : ∀ d ∈ ds, d.IsOrdered) (hd : IsLast ds d)
    (he : IsLast ds e) (h : d.order e = .eq) : d = e := by
  have hsymm := order_symm (hordered d hd.mem) (hordered e he.mem) h
  induction ds using List.reverseRecOn with
  | nil => exact absurd hd not_isLast_nil
  | append_singleton ds last ih =>
    rcases isLast_concat.mp hd with rfl | ⟨hd, hdne⟩
    · rcases isLast_concat.mp he with rfl | ⟨-, hene⟩
      · rfl
      · exact absurd hsymm hene
    · rcases isLast_concat.mp he with rfl | ⟨he, -⟩
      · exact absurd h hdne
      · exact ih (fun d hd ↦ hordered d (List.mem_append_left _ hd)) hd he

/-- Directives for the same messages have the same parts. -/
theorem parts_eq_of_order {d e : Directive} (h : d.order e = .eq) :
    d.span.isSome = e.span.isSome ∧ d.field.isSome = e.field.isSome ∧
      ∀ f ∈ d.field, ∀ g ∈ e.field, f.value.isSome = g.value.isSome := by
  obtain ⟨target, span, field, level⟩ := d
  obtain ⟨target', span', field', level'⟩ := e
  simp only [order, Ordering.then_eq_eq, Std.compare_eq_iff_eq] at h
  obtain ⟨-, hspan, hfield, -, -, hvalue⟩ := h
  refine ⟨hspan, hfield, ?_⟩
  rintro f ⟨rfl⟩ g ⟨rfl⟩
  simp only [SpanField.order, Ordering.then_eq_eq, Std.compare_eq_iff_eq] at hvalue
  exact hvalue.1

theorem isDynamic_eq_of_order (d e : Directive) (h : d.order e = .eq) :
    d.isDynamic = e.isDynamic := by
  obtain ⟨hspan, hfield, -⟩ := parts_eq_of_order h
  rw [isDynamic, isDynamic, hspan, hfield]

theorem isStatic_eq_of_order (d e : Directive) (h : d.order e = .eq) :
    d.isStatic = e.isStatic := by
  obtain ⟨hspan, hfield, hvalue⟩ := parts_eq_of_order h
  obtain ⟨target, span, field, level⟩ := d
  obtain ⟨target', span', field', level'⟩ := e
  rw [isStatic, isStatic, ← Option.not_isSome, ← Option.not_isSome, hspan]
  congr 1
  cases field with
  | none =>
    obtain rfl : field' = none := by simpa using hfield.symm
    rfl
  | some f =>
    obtain ⟨g, rfl⟩ : ∃ g, field' = some g := Option.isSome_iff_exists.mp hfield.symm
    rw [Option.all_some, Option.all_some, ← Option.not_isSome, ← Option.not_isSome,
      hvalue f rfl g rfl]

theorem isStatic_or_isDynamic (d : Directive) : d.isStatic = true ∨ d.isDynamic = true := by
  obtain ⟨target, span, field, level⟩ := d
  cases span with
  | some s => exact .inr rfl
  | none =>
    cases field with
    | some f => exact .inr rfl
    | none => exact .inl rfl

/-! ### Directives without repetitions, in order -/

/-- Directives put in order one after another. -/
def sorted (ds : List Directive) : List Directive :=
  ds.foldl (fun ds d ↦ d.insert ds) []

theorem sorted_concat (ds : List Directive) (d : Directive) :
    sorted (ds ++ [d]) = d.insert (sorted ds) :=
  List.foldl_concat ..

theorem descending_sorted (h : ∀ d ∈ ds, d.IsOrdered) :
    Descending (sorted ds) ∧ ∀ d, d ∈ sorted ds ↔ IsLast ds d := by
  induction ds using List.reverseRecOn with
  | nil => exact ⟨.nil, fun d ↦ iff_of_false List.not_mem_nil not_isLast_nil⟩
  | append_singleton ds e ih =>
    rw [List.forall_mem_append, List.forall_mem_singleton] at h
    obtain ⟨hdescending, hmem⟩ := ih h.1
    have hordered : ∀ d ∈ sorted ds, d.IsOrdered := fun d hd ↦ h.1 d ((hmem d).mp hd).mem
    rw [sorted_concat]
    refine ⟨descending_insert h.2 hordered hdescending, fun d ↦ ?_⟩
    rw [mem_insert h.2 hordered hdescending, isLast_concat, hmem d]
    refine or_congr_right (and_congr_right fun hd ↦ ?_)
    rw [order_eq_compare (h.1 d hd.mem) h.2]

/-- Lists in this order are equal if they have the same members. -/
theorem Descending.eq_of_mem_iff {ds es : List Directive} (hds : Descending ds)
    (hes : Descending es) (h : ∀ d, d ∈ ds ↔ d ∈ es) : ds = es := by
  have hirrefl {ds : List Directive} (h : Descending ds) : ds.Nodup :=
    h.imp fun {a b} hgt heq ↦ by
      rw [heq, ReflOrd.compare_self] at hgt
      cases hgt
  refine List.Perm.eq_of_pairwise (fun a b _ _ hab hba ↦ ?_) hds hes
    ((List.perm_ext_iff_of_nodup (hirrefl hds) (hirrefl hes)).mpr h)
  rw [OrientedOrd.eq_swap, hba] at hab
  cases hab

end Directive

namespace LogFilter

open Directive

variable {d : Directive} {ds : List Directive}

/-! ### Filters -/

/-- The directives of a filter, those for both kinds of messages twice. -/
def directives (f : LogFilter) : List Directive :=
  f.statics ++ f.dynamics

/-- A filter keeps the last directive for any messages, and no other, the most particular ones in
front. -/
theorem ofDirectives_keeps_last (h : ∀ d ∈ ds, d.IsOrdered) :
    Descending (ofDirectives ds).statics ∧ Descending (ofDirectives ds).dynamics ∧
      (∀ d, d ∈ (ofDirectives ds).statics ↔ IsLast ds d ∧ d.isStatic = true) ∧
      ∀ d, d ∈ (ofDirectives ds).dynamics ↔ IsLast ds d ∧ d.isDynamic = true := by
  have hpart (p : Directive → Bool) : ∀ d ∈ ds.filter p, d.IsOrdered :=
    fun d hd ↦ h d (List.mem_of_mem_filter hd)
  obtain ⟨hstatics, hmem⟩ := descending_sorted (hpart isStatic)
  obtain ⟨hdynamics, hmem'⟩ := descending_sorted (hpart isDynamic)
  exact ⟨hstatics, hdynamics, fun d ↦ (hmem d).trans (isLast_filter isStatic_eq_of_order),
    fun d ↦ (hmem' d).trans (isLast_filter isDynamic_eq_of_order)⟩

theorem mem_directives_ofDirectives (h : ∀ d ∈ ds, d.IsOrdered) :
    d ∈ (ofDirectives ds).directives ↔ IsLast ds d := by
  obtain ⟨-, -, hstatics, hdynamics⟩ := ofDirectives_keeps_last h
  rw [directives, List.mem_append, hstatics, hdynamics, ← and_or_left]
  exact and_iff_left d.isStatic_or_isDynamic

/-- A filter is the one of its own directives. -/
theorem ofDirectives_directives (h : ∀ d ∈ ds, d.IsOrdered) :
    ofDirectives (ofDirectives ds).directives = ofDirectives ds := by
  have hmem := fun d ↦ mem_directives_ofDirectives (d := d) h
  have hordered : ∀ d ∈ (ofDirectives ds).directives, d.IsOrdered :=
    fun d hd ↦ h d ((hmem d).mp hd).mem
  -- Of the directives for the same messages one alone is kept.
  have hlast (d : Directive) : IsLast (ofDirectives ds).directives d ↔ IsLast ds d :=
    (isLast_iff_mem fun d hd e he ↦
      IsLast.eq_of_order h ((hmem d).mp hd) ((hmem e).mp he)).trans (hmem d)
  obtain ⟨hstatics, hdynamics, hmem, hmem'⟩ := ofDirectives_keeps_last h
  obtain ⟨hstatics', hdynamics', hagain, hagain'⟩ := ofDirectives_keeps_last hordered
  have hsame : (ofDirectives (ofDirectives ds).directives).statics = (ofDirectives ds).statics :=
    hstatics'.eq_of_mem_iff hstatics fun d ↦ by rw [hagain, hmem, hlast]
  have hsame' : (ofDirectives (ofDirectives ds).directives).dynamics = (ofDirectives ds).dynamics :=
    hdynamics'.eq_of_mem_iff hdynamics fun d ↦ by rw [hagain', hmem', hlast]
  exact congrArg₂ LogFilter.mk hsame hsame'

theorem isOrdered_of_mapM_read? {texts : List (List Char)}
    (h : texts.mapM Directive.read? = some ds) : ∀ d ∈ ds, d.IsOrdered := by
  induction texts generalizing ds with
  | nil =>
    cases h
    exact List.forall_mem_nil _
  | cons text texts ih =>
    rw [List.mapM_cons] at h
    obtain ⟨d, hd, hrest⟩ := Option.bind_eq_some_iff.mp h
    obtain ⟨ds, hds, hself⟩ := Option.bind_eq_some_iff.mp hrest
    cases hself
    exact List.forall_mem_cons.mpr ⟨Directive.isOrdered_of_read? hd, ih hds⟩

/-- A filter that is read is the one of directives that have their places in the order. -/
theorem exists_ofDirectives_of_read? {s : String} {f : LogFilter} (h : read? s = some f) :
    ∃ ds, (∀ d ∈ ds, d.IsOrdered) ∧ ofDirectives ds = f := by
  obtain ⟨ds, hds, rfl⟩ := Option.map_eq_some_iff.mp h
  exact ⟨ds, isOrdered_of_mapM_read? hds, rfl⟩

theorem exists_ofDirectives_of_choose (particular : Option String) (general : String) :
    ∃ ds, (∀ d ∈ ds, d.IsOrdered) ∧ ofDirectives ds = choose particular general := by
  rw [choose]
  cases h : (particular.bind read?).or (read? general) with
  | none =>
    refine ⟨_, List.forall_mem_singleton.mpr fun f hf ↦ ?_, rfl⟩
    cases hf
  | some f =>
    rw [Option.getD_some]
    rcases Option.or_eq_some_iff.mp h with hparticular | ⟨-, hgeneral⟩
    · obtain ⟨s, -, hs⟩ := Option.bind_eq_some_iff.mp hparticular
      exact exists_ofDirectives_of_read? hs
    · exact exists_ofDirectives_of_read? hgeneral

/-- Whatever the texts are, the filter in force has the most particular directives in front, none
of them for the same messages as another one, and is made again from its directives. -/
theorem choose_is_in_order (particular : Option String) (general : String) :
    Descending (choose particular general).statics ∧
      Descending (choose particular general).dynamics ∧
      ofDirectives (choose particular general).directives = choose particular general := by
  obtain ⟨ds, hordered, hds⟩ := exists_ofDirectives_of_choose particular general
  obtain ⟨hstatics, hdynamics, -⟩ := ofDirectives_keeps_last hordered
  rw [← hds]
  exact ⟨hstatics, hdynamics, ofDirectives_directives hordered⟩

/-! ### Written filters -/

theorem mapM_read? (h : ∀ d ∈ ds, d.IsPlain) :
    (ds.map fun d ↦ d.write.toList).mapM Directive.read? = some ds := by
  induction ds with
  | nil => rfl
  | cons d ds ih =>
    obtain ⟨hd, hds⟩ := List.forall_mem_cons.mp h
    rw [List.map_cons, List.mapM_cons, Directive.read?_write hd, ih hds]
    rfl

/-- Directives that are written with commas between them are told apart again. -/
theorem mapM_read?_splitOn (h : ∀ d ∈ ds, d.IsPlain) :
    (((",".intercalate (ds.map Directive.write)).toList.splitOn ',').filter (· ≠ [])).mapM
      Directive.read? = some ds := by
  by_cases hds : ds = []
  · subst hds
    rfl
  have hcomma : ∀ cs ∈ ds.map fun d ↦ d.write.toList, ',' ∉ cs :=
    List.forall_mem_map.mpr fun d hd ↦ comma_notMem_write (h d hd)
  have hnonempty : ∀ cs ∈ ds.map fun d ↦ d.write.toList, decide (cs ≠ []) = true :=
    List.forall_mem_map.mpr fun d _ ↦ decide_eq_true d.write_ne_nil
  have htext : (",".intercalate (ds.map Directive.write)).toList =
      [','].intercalate (ds.map fun d ↦ d.write.toList) := by
    rw [String.toList_intercalate, List.map_map]
    rfl
  rw [htext, List.splitOn_intercalate ',' hcomma (by simpa using hds),
    List.filter_eq_self.mpr hnonempty, mapM_read? h]

/-- A filter reads back from what is written of it. -/
theorem read?_write (h : ∀ d ∈ ds, d.IsPlain) :
    read? (ofDirectives ds).write = some (ofDirectives ds) := by
  have hordered : ∀ d ∈ ds, d.IsOrdered := fun d hd ↦ (h d hd).isOrdered
  have hplain : ∀ d ∈ (ofDirectives ds).directives, d.IsPlain :=
    fun d hd ↦ h d ((mem_directives_ofDirectives hordered).mp hd).mem
  have hread := mapM_read?_splitOn hplain
  rw [read?, write, ← directives, hread, Option.map_some, ofDirectives_directives hordered]

example : (read? "a=info,,[s\x7bf=x\x7d]=debug,a=warn").map write =
    some "a=warn,[s\x7bf=x\x7d]=debug" := by
  decide +kernel

end LogFilter

end Criteria
