import Criteria.Settings
import Mathlib.Data.List.Basic

/-!
What layers make of a name. The entries of a layer for a name act on what the layers below it have
made of that name, and on nothing else. A value that a setting can have comes from the last entry
for it alone; a section keeps the names of the layers below as long as tables are laid over tables.
-/

set_option autoImplicit false
set_option relaxedAutoImplicit false

namespace Criteria.Settings

theorem findSome?_cons_eq_or {α β : Type} (f : α → Option β) (a : α) (l : List α) :
    (a :: l).findSome? f = (f a).or (l.findSome? f) := by
  rw [← List.singleton_append, List.findSome?_append, List.findSome?_singleton]

theorem findSome?_congr {α β : Type} {f g : α → Option β} {l : List α}
    (h : ∀ a ∈ l, f a = g a) : l.findSome? f = l.findSome? g := by
  induction l with
  | nil => rfl
  | cons a l ih =>
    rw [findSome?_cons_eq_or, findSome?_cons_eq_or, h a List.mem_cons_self,
      ih fun b hb ↦ h b (List.mem_cons_of_mem a hb)]

/-! ### Tables -/

namespace Table

theorem get?_cons_self (name : String) (v : Tree) (t : Table) :
    Table.get? ((name, v) :: t) name = some v := by
  simp [get?]

theorem get?_cons_of_ne {name other : String} (h : other ≠ name) (v : Tree) (t : Table) :
    Table.get? ((name, v) :: t) other = t.get? other := by
  have hskip : (other == name) = false := by simpa using h
  simp [get?, List.lookup_cons, hskip]

theorem get?_put_self (t : Table) (name : String) (v : Tree) :
    (t.put name v).get? name = some v := by
  induction t with
  | nil => exact get?_cons_self name v []
  | cons e t ih =>
    obtain ⟨first, w⟩ := e
    rw [put]
    split
    · exact get?_cons_self name v t
    · rename_i hne
      rw [get?_cons_of_ne (Ne.symm hne), ih]

theorem get?_put_of_ne {name other : String} (h : other ≠ name) (t : Table) (v : Tree) :
    (t.put name v).get? other = t.get? other := by
  induction t with
  | nil => exact get?_cons_of_ne h v []
  | cons e t ih =>
    obtain ⟨first, w⟩ := e
    rw [put]
    split
    · rename_i heq
      rw [get?_cons_of_ne h, get?_cons_of_ne (heq ▸ h)]
    · by_cases hfirst : other = first
      · rw [hfirst, get?_cons_self, get?_cons_self]
      · rw [get?_cons_of_ne hfirst, get?_cons_of_ne hfirst, ih]

end Table

/-! ### Values alike -/

namespace Tree

/-- The form of a tree. -/
inductive Form where
  | leaf
  | list
  | table
  deriving DecidableEq, Repr

def form : Tree → Form
  | .list _ => .list
  | .table _ => .table
  | _ => .leaf

def isTable (v : Tree) : Bool :=
  v.form = .table

/-- Whether a tree can be a section. -/
def isSection (v : Tree) : Bool :=
  v.form ≠ .leaf

/-- A value with no trees below it, which is what a setting has to have. -/
def scalar? : Tree → Option Tree
  | .list _ | .table _ => none
  | v => some v

/-- Two values are alike for a setting, which refuses lists and tables whatever they hold. -/
def Alike (v w : Option Tree) : Prop :=
  v.map scalar? = w.map scalar?

theorem Alike.refl (v : Option Tree) : Alike v v :=
  rfl

theorem Alike.trans {u v w : Option Tree} (huv : Alike u v) (hvw : Alike v w) : Alike u w :=
  Eq.trans huv hvw

theorem Alike.or {v v' w w' : Option Tree} (hv : Alike v v') (hw : Alike w w') :
    Alike (v.or w) (v'.or w') := by
  rw [Alike, Option.map_or, Option.map_or, hv, hw]

/-- What has been laid over a step and over a step from nothing is alike, up to what the step
keeps. -/
theorem Alike.of_step {v v₀ rest step step₀ lower : Option Tree} (h : Alike v (rest.or step))
    (h₀ : Alike v₀ (rest.or step₀)) (hstep : Alike step (step₀.or lower)) :
    Alike v (v₀.or lower) := by
  have hassoc : (rest.or step₀).or lower = rest.or (step₀.or lower) := Option.or_assoc
  have hlower : Alike (v₀.or lower) (rest.or (step₀.or lower)) := by
    rw [← hassoc]
    exact h₀.or (Alike.refl lower)
  exact (h.trans ((Alike.refl rest).or hstep)).trans hlower.symm

theorem alike_above (lower : Option Tree) (v : Tree) :
    Alike (some (above lower v)) (some (above none v)) := by
  cases v <;> rfl

/-- Laid at a path, a value is for a setting what it is without anything there. -/
theorem alike_put (lower : Option Tree) (v : Tree) (path : Path) :
    Alike (some (v.put lower path)) (some (v.put none path)) := by
  match path with
  | [] => exact alike_above lower v
  | .name _ :: _ => rfl
  | .item _ :: _ => rfl

/-- What a tree has under a name, if it is a table. -/
def under? (v : Option Tree) (name : String) : Option Tree :=
  (entries v).get? name

theorem under?_put_name (v : Tree) (lower : Option Tree) (name other : String) (path : Path) :
    under? (some (v.put lower (.name name :: path))) other =
      if other = name then some (v.put (under? lower name) path) else under? lower other := by
  change ((entries lower).put name (v.put (under? lower name) path)).get? other = _
  split
  · rename_i h
    rw [h, Table.get?_put_self]
  · rename_i h
    exact Table.get?_put_of_ne h _ _

theorem all_isSection_of_isTable {v : Option Tree} (h : v.any isTable = true) :
    v.all isSection = true := by
  match v with
  | none => rfl
  | some v => simp_all [isTable, isSection]

theorem all_isSection_eq (v : Option Tree) :
    v.all isSection = (v.map form).all (· ≠ .leaf) := by
  cases v <;> rfl

theorem under?_of_not_isTable {v : Option Tree} (h : v.any isTable = false) (k : String) :
    under? v k = none := by
  match v with
  | none => rfl
  | some (.table t) => simp [isTable, form] at h
  | some .nothing | some (.flag _) | some (.integer _) | some (.real _) | some (.text _)
  | some (.list _) => rfl

theorem bind_setting?_of_isTable {v : Option Tree} (h : v.any isTable = true) (place : Nat)
    (k : String) : (v.bind fun w ↦ w.setting? place k) = under? v k := by
  match v with
  | some (.table t) => rfl
  | some (.list vs) => simp [isTable, form] at h

/-- A table laid over a tree: what it has under a name itself comes first. -/
theorem alike_get?_aboveTable (lower upper : Table) (name : String) :
    Alike ((aboveTable lower upper).get? name)
      (((aboveTable [] upper).get? name).or (lower.get? name)) := by
  induction upper generalizing lower with
  | nil => exact Alike.refl _
  | cons e upper ih =>
    obtain ⟨first, v⟩ := e
    rw [aboveTable, aboveTable]
    -- Both sides have laid down the first value, above what is there or above nothing.
    have hfirst : Alike ((lower.put first (above (lower.get? first) v)).get? name)
        (((Table.put [] first (above none v)).get? name).or (lower.get? name)) := by
      by_cases hname : name = first
      · rw [hname, Table.get?_put_self, Table.get?_put_self, Option.some_or]
        exact alike_above _ v
      · rw [Table.get?_put_of_ne hname, Table.get?_put_of_ne hname]
        exact Alike.refl _
    exact .of_step (ih _) (ih _) hfirst

end Tree

/-! ### The entries of one layer -/

namespace Layer

open Criteria.Settings.Tree

/-- The entries of a layer for a name, each with the path that is left. -/
def entriesOf (layer : Layer) (name : String) : Layer :=
  layer.filterMap fun (path, v) ↦
    match path with
    | .name first :: rest => if first = name then some (rest, v) else none
    | _ => none

/-- What entries make of a tree, or of nothing. -/
def over? (layer : Layer) (lower : Option Tree) : Option Tree :=
  layer.foldl (fun lower (path, v) ↦ some (v.put lower path)) lower

/-- What a layer makes of a name by itself. -/
def given? (layer : Layer) (name : String) : Option Tree :=
  (layer.entriesOf name).over? none

/-- Whether an entry adds to a section: it is a table, or a value for a name in it. -/
def adds : Path × Tree → Bool
  | ([], v) => v.isTable
  | (.name _ :: _, _) => true
  | (.item _ :: _, _) => false

/-- Whether a layer adds to the section of a name, as far as it has entries for it. -/
def addsTo (layer : Layer) (name : String) : Bool :=
  (layer.entriesOf name).all adds

/-- Every path begins with a name. -/
def Named (layer : Layer) : Prop :=
  ∀ e ∈ layer, ∃ name path, e.1 = .name name :: path

variable {layer : Layer} {name : String}

theorem over?_cons (path : Path) (v : Tree) (layer : Layer) (lower : Option Tree) :
    over? ((path, v) :: layer) lower = layer.over? (some (v.put lower path)) :=
  rfl

/-- The entries for a name act on what was there under that name. -/
theorem under?_onto (h : layer.Named) (v : Tree) (name : String) :
    under? (some (layer.onto v)) name = (layer.entriesOf name).over? (under? (some v) name) := by
  induction layer generalizing v with
  | nil => rfl
  | cons e layer ih =>
    obtain ⟨path, w⟩ := e
    obtain ⟨first, rest, rfl⟩ := h _ List.mem_cons_self
    have hnamed : Layer.Named layer := fun e he ↦ h e (List.mem_cons_of_mem _ he)
    have hrest := ih hnamed (w.put (some v) (.name first :: rest))
    rw [under?_put_name] at hrest
    refine Eq.trans hrest ?_
    by_cases hfirst : first = name
    · simp [entriesOf, hfirst, over?_cons]
    · simp [entriesOf, hfirst, Ne.symm hfirst]

/-- For a setting, the last entry decides, whatever is below. -/
theorem alike_over? (layer : Layer) (lower : Option Tree) :
    Alike (layer.over? lower) ((layer.over? none).or lower) := by
  induction layer generalizing lower with
  | nil => exact Alike.refl lower
  | cons e layer ih =>
    obtain ⟨path, v⟩ := e
    rw [over?_cons, over?_cons]
    have hentry : Alike (some (v.put lower path)) ((some (v.put none path)).or lower) :=
      alike_put lower v path
    exact .of_step (ih _) (ih _) hentry

/-- Entries that add to a section keep what it has under a name, unless they have the name. -/
theorem alike_under?_over? (h : layer.addsTo name) (lower : Option Tree) (k : String) :
    Alike (under? ((layer.entriesOf name).over? lower) k)
      ((under? (layer.given? name) k).or (under? lower k)) := by
  unfold given? addsTo at *
  generalize layer.entriesOf name = entries at h
  induction entries generalizing lower with
  | nil => exact Alike.refl _
  | cons e entries ih =>
    obtain ⟨path, v⟩ := e
    rw [List.all_cons, Bool.and_eq_true] at h
    rw [over?_cons, over?_cons]
    have hentry : Alike (under? (some (v.put lower path)) k)
        ((under? (some (v.put none path)) k).or (under? lower k)) := by
      match path, v with
      | [], .table t => exact alike_get?_aboveTable _ t k
      | .name first :: path, v =>
        rw [under?_put_name, under?_put_name]
        split
        · exact alike_put _ v path
        · exact Alike.refl _
    exact .of_step (ih _ h.2) (ih _ h.2) hentry

/-- Whether no path leads to an item of what a name stands for. -/
def avoidsItems (layer : Layer) : Bool :=
  layer.all fun (path, _) ↦
    match path with
    | _ :: .item _ :: _ => false
    | _ => true

theorem mem_entriesOf {path : Path} {v : Tree} :
    (path, v) ∈ layer.entriesOf name ↔ (.name name :: path, v) ∈ layer := by
  rw [entriesOf, List.mem_filterMap]
  constructor
  · rintro ⟨⟨full, w⟩, hmem, heq⟩
    match full with
    | [] | .item _ :: _ => simp at heq
    | .name first :: rest =>
      simp only [Option.ite_none_right_eq_some, Option.some.injEq, Prod.mk.injEq] at heq
      obtain ⟨rfl, rfl, rfl⟩ := heq
      exact hmem
  · exact fun hmem ↦ ⟨_, hmem, by simp⟩

theorem over?_append (front back : Layer) (lower : Option Tree) :
    over? (front ++ back) lower = over? back (over? front lower) :=
  List.foldl_append

theorem given?_eq_none_iff : layer.given? name = none ↔ layer.entriesOf name = [] := by
  rcases List.eq_nil_or_concat (layer.entriesOf name) with hnil | ⟨entries, e, hlast⟩
  · simp [given?, hnil, over?]
  · simp [given?, hlast, over?]

/-- Entries that add to a section make it a table. -/
theorem isTable_over? (h : layer.addsTo name) (hne : layer.entriesOf name ≠ [])
    (lower : Option Tree) : ((layer.entriesOf name).over? lower).any isTable = true := by
  obtain ⟨entries, e, hlast⟩ := (List.eq_nil_or_concat _).resolve_left hne
  rw [List.concat_eq_append] at hlast
  have hadds : adds e = true := List.all_eq_true.mp h e (by simp [hlast])
  rw [hlast, over?_append]
  match e with
  | ([], .table t) => rfl
  | (.name first :: path, v) => rfl

/-- An entry that does not add to a section is all that is left of it. -/
theorem put_of_not_adds {path : Path} {v : Tree} (h : adds (path, v) = false)
    (hpath : ∀ n rest, path ≠ .item n :: rest) (lower : Option Tree) : v.put lower path = v := by
  match path with
  | [] =>
    cases v with
    | table t => simp [adds, isTable, form] at h
    | _ => rfl
  | .name _ :: _ => simp [adds] at h
  | .item n :: rest => exact absurd rfl (hpath n rest)

/-- Entries that do not add to a section replace it, whatever is below. -/
theorem over?_of_not_addsTo (hitems : layer.avoidsItems) (h : layer.addsTo name = false)
    (lower : Option Tree) : (layer.entriesOf name).over? lower = layer.given? name := by
  obtain ⟨⟨path, v⟩, hmem, hadds⟩ : ∃ e ∈ layer.entriesOf name, adds e = false := by
    simpa [addsTo] using h
  have hpath : ∀ n rest, path ≠ .item n :: rest := by
    rintro n rest rfl
    simpa using List.all_eq_true.mp hitems _ (mem_entriesOf.mp hmem)
  obtain ⟨front, back, hsplit⟩ := List.append_of_mem hmem
  rw [given?, hsplit, over?_append, over?_append, over?_cons, over?_cons,
    put_of_not_adds hadds hpath, put_of_not_adds hadds hpath]

end Layer

/-! ### Layers above one another -/

namespace Layer

open Criteria.Settings.Tree

variable {name : String} {layers : List Layer}

/-- What layers make of a name, the highest layer first. -/
def merged? (name : String) (layers : List Layer) : Option Tree :=
  layers.foldr (fun layer lower ↦ (layer.entriesOf name).over? lower) none

def givesTable (name : String) (layer : Layer) : Bool :=
  (layer.given? name).any isTable

theorem givesTable_eq (name : String) (layer : Layer) :
    givesTable name layer = ((layer.given? name).map form).any (· = .table) := by
  rw [givesTable, Option.any_map]
  rfl

/-- The layers that are in force for a section, the highest layer first. A layer that adds to the
section leaves the tables below it in force, and any other layer for the section stands alone. -/
def inForce (name : String) : List Layer → List Layer
  | [] => []
  | layer :: lower =>
    match layer.given? name with
    | none => inForce name lower
    | some _ =>
      if layer.addsTo name then layer :: (inForce name lower).filter (givesTable name) else [layer]

theorem under?_foldl_onto (h : ∀ layer ∈ layers, layer.Named) (name : String) :
    under? (some (layers.foldl (fun v layer ↦ layer.onto v) (.table []))) name =
      merged? name layers.reverse := by
  rw [List.foldl_eq_foldr_reverse]
  have hnamed : ∀ layer ∈ layers.reverse, layer.Named :=
    fun layer hmem ↦ h layer (List.mem_reverse.mp hmem)
  generalize layers.reverse = above at hnamed
  induction above with
  | nil => rfl
  | cons layer lower ih =>
    rw [List.foldr_cons, under?_onto (hnamed layer List.mem_cons_self),
      ih fun l hl ↦ hnamed l (List.mem_cons_of_mem _ hl)]
    rfl

/-- For a setting, the highest layer that gives a name decides. -/
theorem alike_merged? (name : String) (layers : List Layer) :
    Alike (merged? name layers) (layers.findSome? fun layer ↦ layer.given? name) := by
  induction layers with
  | nil => exact Alike.refl _
  | cons layer lower ih =>
    rw [findSome?_cons_eq_or]
    exact (alike_over? _ _).trans ((Alike.refl _).or ih)

/-- What layers make of a section, told by the layers in force: a table has come from tables, name
by name, and anything else from one layer alone. -/
structure Stands (name : String) (layers : List Layer) (v : Option Tree) : Prop where
  none_iff : v = none ↔ layers = []
  tables : v.any isTable = true → layers.filter (givesTable name) = layers
  alone : v.any isTable = false → layers ≠ [] → ∃ layer, layers = [layer] ∧ layer.given? name = v
  under : ∀ k, Alike (under? v k)
    ((layers.filter (givesTable name)).findSome? fun layer ↦ under? (layer.given? name) k)

/-- A layer for a section that stands alone. -/
theorem Stands.single {layer : Layer} (h : (layer.given? name).isSome) :
    Stands name [layer] (layer.given? name) where
  none_iff := by simp [Option.isSome_iff_ne_none.mp h]
  tables htable := by simp [givesTable, htable]
  alone _ _ := ⟨layer, rfl, rfl⟩
  under k := by
    by_cases htable : givesTable name layer = true
    · rw [List.filter_cons_of_pos htable, List.filter_nil, List.findSome?_singleton]
      exact Alike.refl _
    · have hnot : (layer.given? name).any isTable = false := Bool.eq_false_iff.mpr htable
      rw [List.filter_cons_of_neg htable, under?_of_not_isTable hnot]
      exact Alike.refl _

/-- A layer that adds to a section, above layers in force for it. -/
theorem Stands.cons {layer : Layer} {v : Option Tree} (h : Stands name layers v)
    (hgiven : (layer.given? name).isSome) (hadds : layer.addsTo name) :
    Stands name (layer :: layers.filter (givesTable name))
      ((layer.entriesOf name).over? v) := by
  have hne : layer.entriesOf name ≠ [] := fun hnil ↦ by
    rw [given?_eq_none_iff.mpr hnil] at hgiven
    exact absurd hgiven (by simp)
  have hlayer : givesTable name layer = true := isTable_over? hadds hne none
  have htable := isTable_over? hadds hne v
  refine ⟨?_, fun _ ↦ ?_, fun hnot ↦ ?_, fun k ↦ ?_⟩
  · refine iff_of_false (fun hnone ↦ ?_) (List.cons_ne_nil _ _)
    rw [hnone] at htable
    exact absurd htable (by simp)
  · rw [List.filter_cons_of_pos hlayer, List.filter_filter]
    simp
  · rw [htable] at hnot
    exact absurd hnot (by simp)
  · rw [List.filter_cons_of_pos hlayer, List.filter_filter, findSome?_cons_eq_or]
    simp only [Bool.and_self]
    exact (alike_under?_over? hadds v k).trans ((Alike.refl _).or (h.under k))

/-- The layers in force tell what all layers make of a section. -/
theorem stands_inForce (h : ∀ layer ∈ layers, layer.avoidsItems) (name : String) :
    Stands name (inForce name layers) (merged? name layers) := by
  induction layers with
  | nil => exact ⟨by simp [inForce, merged?], fun _ ↦ rfl, by simp [inForce], fun _ ↦ Alike.refl _⟩
  | cons layer lower ih =>
    have hlower := ih fun l hl ↦ h l (List.mem_cons_of_mem _ hl)
    rw [merged?, List.foldr_cons, ← merged?, inForce]
    cases hgiven : layer.given? name with
    | none =>
      rw [given?_eq_none_iff.mp hgiven]
      exact hlower
    | some u =>
      have hsome : (layer.given? name).isSome = true := by rw [hgiven]; rfl
      dsimp only
      split
      · rename_i hadds
        exact hlower.cons hsome hadds
      · rename_i hadds
        rw [over?_of_not_addsTo (h layer List.mem_cons_self) (by simpa using hadds)]
        exact .single hsome

/-- The layer on top of those in force tells whether there is a section. -/
theorem Stands.all_isSection {v : Option Tree} (h : Stands name layers v) :
    v.all isSection = (layers.head?.bind fun layer ↦ layer.given? name).all isSection := by
  cases htable : v.any isTable with
  | true =>
    match layers, h.tables htable with
    | [], _ => rw [h.none_iff.mpr rfl] at htable; exact absurd htable (by simp)
    | layer :: _, hfilter =>
      have hlayer : (layer.given? name).any isTable = true :=
        List.filter_eq_self.mp hfilter layer List.mem_cons_self
      rw [all_isSection_of_isTable htable, List.head?_cons, Option.bind_some,
        all_isSection_of_isTable hlayer]
  | false =>
    by_cases hnil : layers = []
    · rw [hnil, h.none_iff.mpr hnil]
      rfl
    · obtain ⟨layer, rfl, hgiven⟩ := h.alone htable hnil
      rw [List.head?_cons, Option.bind_some, hgiven]

/-- In a section that is a table, the highest of the tables in force decides. -/
theorem Stands.alike_setting? {v : Option Tree} (h : Stands name layers v) (place : Nat)
    (k : String) : Alike (v.bind fun w ↦ w.setting? place k)
      (layers.findSome? fun layer ↦ (layer.given? name).bind fun w ↦ w.setting? place k) := by
  cases htable : v.any isTable with
  | true =>
    have hlayers : ∀ layer ∈ layers, (layer.given? name).bind (fun w ↦ w.setting? place k) =
        under? (layer.given? name) k := by
      intro layer hmem
      exact bind_setting?_of_isTable (List.filter_eq_self.mp (h.tables htable) layer hmem) place k
    have hunder := h.under k
    rw [h.tables htable] at hunder
    rwa [bind_setting?_of_isTable htable, findSome?_congr hlayers]
  | false =>
    by_cases hnil : layers = []
    · rw [hnil, h.none_iff.mpr hnil]
      exact Alike.refl _
    · obtain ⟨layer, rfl, hgiven⟩ := h.alone htable hnil
      rw [List.findSome?_singleton, hgiven]
      exact Alike.refl _

section Recursion

variable {layer : Layer} {g : Layer → Option Tree}

theorem addsTo_of_given?_eq_none (h : layer.given? name = none) : layer.addsTo name = true := by
  rw [addsTo, given?_eq_none_iff.mp h]
  rfl

theorem inForce_cons_of_none (h : layer.given? name = none) (lower : List Layer) :
    inForce name (layer :: lower) = inForce name lower := by
  rw [inForce, h]

theorem inForce_cons_of_some (h : layer.given? name ≠ none) (lower : List Layer) :
    inForce name (layer :: lower) =
      if layer.addsTo name then layer :: (inForce name lower).filter (givesTable name)
      else [layer] := by
  obtain ⟨v, hv⟩ := Option.ne_none_iff_exists'.mp h
  rw [inForce, hv]

theorem head?_inForce_cons (h : layer.given? name ≠ none) (lower : List Layer) :
    (inForce name (layer :: lower)).head? = some layer := by
  rw [inForce_cons_of_some h]
  split <;> rfl

/-- What the tables in force give. Below a layer that does not add to the section there are none. -/
theorem findSome?_tables_cons (hg : layer.given? name = none → g layer = none)
    (lower : List Layer) :
    ((inForce name (layer :: lower)).filter (givesTable name)).findSome? g =
      if layer.addsTo name then
        (g layer).or (((inForce name lower).filter (givesTable name)).findSome? g)
      else if givesTable name layer then g layer else none := by
  by_cases hgiven : layer.given? name = none
  · rw [inForce_cons_of_none hgiven, addsTo_of_given?_eq_none hgiven, if_pos rfl, hg hgiven,
      Option.none_or]
  · rw [inForce_cons_of_some hgiven]
    by_cases hadds : layer.addsTo name = true
    · have htable : givesTable name layer = true :=
        isTable_over? hadds (fun hnil ↦ hgiven (given?_eq_none_iff.mpr hnil)) none
      rw [if_pos hadds, if_pos hadds, List.filter_cons_of_pos htable, List.filter_filter,
        findSome?_cons_eq_or]
      simp only [Bool.and_self]
    · rw [if_neg hadds, if_neg hadds]
      by_cases htable : givesTable name layer = true
      · rw [if_pos htable, List.filter_cons_of_pos htable, List.filter_nil,
          List.findSome?_singleton]
      · rw [if_neg htable, List.filter_cons_of_neg htable, List.filter_nil, List.findSome?_nil]

theorem findSome?_inForce_cons (hgiven : layer.given? name ≠ none) (lower : List Layer) :
    (inForce name (layer :: lower)).findSome? g =
      if layer.addsTo name then
        (g layer).or (((inForce name lower).filter (givesTable name)).findSome? g)
      else g layer := by
  rw [inForce_cons_of_some hgiven]
  split
  · rw [findSome?_cons_eq_or]
  · rw [List.findSome?_singleton]

/-- Layers that all add to a section are all in force for it. -/
theorem findSome?_tables {layers : List Layer}
    (hg : ∀ layer : Layer, layer.given? name = none → g layer = none)
    (h : ∀ layer ∈ layers, layer.addsTo name = true) :
    ((inForce name layers).filter (givesTable name)).findSome? g = layers.findSome? g := by
  induction layers with
  | nil => rfl
  | cons layer lower ih =>
    rw [findSome?_tables_cons (hg layer), if_pos (h layer List.mem_cons_self),
      ih fun l hl ↦ h l (List.mem_cons_of_mem _ hl), findSome?_cons_eq_or]

theorem findSome?_inForce {layers : List Layer}
    (hg : ∀ layer : Layer, layer.given? name = none → g layer = none)
    (h : ∀ layer ∈ layers, layer.addsTo name = true) :
    (inForce name layers).findSome? g = layers.findSome? g := by
  induction layers with
  | nil => rfl
  | cons layer lower ih =>
    have hlower : ∀ l ∈ lower, l.addsTo name = true := fun l hl ↦ h l (List.mem_cons_of_mem _ hl)
    rw [findSome?_cons_eq_or]
    by_cases hgiven : layer.given? name = none
    · rw [inForce_cons_of_none hgiven, ih hlower, hg layer hgiven, Option.none_or]
    · rw [findSome?_inForce_cons hgiven, if_pos (h layer List.mem_cons_self),
        findSome?_tables hg hlower]

end Recursion

end Layer

end Criteria.Settings
