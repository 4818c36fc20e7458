import Criteria.Proofs.Settings.Setting

/-!
Which layer decides a setting. Layers that give a section as a table are in force together, and the
highest of them that gives a setting decides it, whatever the layers below give for it. A section
given in another form takes away what lies below it, and a table takes it away in turn.
-/

set_option autoImplicit false
set_option relaxedAutoImplicit false

namespace Criteria.Settings

open Criteria.Settings.Tree

namespace Setting

/-- The layers in force for a setting, the highest layer first. -/
def inForce (k : Setting) (layers : List Layer) : List Layer :=
  match k.home? with
  | none => layers.reverse
  | some (home, _) => Layer.inForce home layers.reverse

/-- The value of a setting that the highest layer gives that is in force for it. -/
def prevailing? (k : Setting) (layers : List Layer) : Option Tree :=
  (k.inForce layers).findSome? fun layer ↦ k.from? layer.given?

/-- The value of a setting that the highest layer gives that has one for it, in force or not. -/
def highest? (k : Setting) (layers : List Layer) : Option Tree :=
  layers.reverse.findSome? fun layer ↦ k.from? layer.given?

end Setting

/-! ### The layers of a service -/

/-- The layers of a service in an environment, the lowest layer first. -/
def layersOf? (contents : String → Option String) (vars : List (String × String))
    (environment service : String) : Option (List Layer) := do
  let files ← (fileNames environment service).mapM (fileLayer? contents)
  return builtIn environment service :: files ++ [.ofVariables vars]

theorem load?_eq_bind (contents : String → Option String) (vars : List (String × String))
    (environment service : String) : load? contents vars environment service =
      (layersOf? contents vars environment service).bind ofLayers? := by
  unfold load? layersOf?
  cases (fileNames environment service).mapM (fileLayer? contents) <;> rfl

theorem layersOf?_eq_some_getD (contents : String → Option String) (vars : List (String × String))
    (environment service : String)
    (h : (layersOf? contents vars environment service).isSome = true) :
    layersOf? contents vars environment service =
      some ((layersOf? contents vars environment service).getD []) :=
  (Option.eq_some_of_isSome h).trans (congrArg some (Option.get_eq_getD _))

namespace Layer

/-- A name spells a path that begins with a name. -/
theorem pathOf_eq_name_cons (name : String) :
    ∃ first path, pathOf name = .name first :: path := by
  unfold pathOf
  rw [placesFrom?]
  split
  · exact ⟨name, [], rfl⟩
  · cases placesFrom? (name.toList.dropWhile isNameChar) with
    | none => exact ⟨name, [], rfl⟩
    | some path => exact ⟨_, path, rfl⟩

theorem named_ofTable (t : Table) : (ofTable t).Named := by
  intro e he
  obtain ⟨⟨name, v⟩, -, rfl⟩ := List.mem_map.mp he
  exact pathOf_eq_name_cons name

theorem named_ofVariables (vars : List (String × String)) : (ofVariables vars).Named := by
  intro e he
  obtain ⟨⟨name, s⟩, -, hvariable⟩ := List.mem_filterMap.mp he
  unfold ofVariable? at hvariable
  simp only [Option.ite_none_right_eq_some, Option.some.injEq] at hvariable
  obtain ⟨-, rfl⟩ := hvariable
  exact pathOf_eq_name_cons _

theorem named_of_fileLayer? {contents : String → Option String} {name : String} {layer : Layer}
    (h : fileLayer? contents name = some layer) : layer.Named := by
  unfold fileLayer? at h
  split at h
  · obtain rfl := Option.some.inj h
    exact fun e he ↦ absurd he List.not_mem_nil
  · split at h
    · obtain rfl := Option.some.inj h
      exact fun e he ↦ absurd he List.not_mem_nil
    · simp only [Option.bind_eq_bind, Option.bind_eq_some_iff, Option.pure_def] at h
      obtain ⟨s, -, t, -, ht⟩ := h
      obtain rfl := Option.some.inj ht
      exact named_ofTable t

end Layer

theorem named_of_layersOf? {contents : String → Option String} {vars : List (String × String)}
    {environment service : String} {layers : List Layer}
    (h : layersOf? contents vars environment service = some layers) :
    ∀ layer ∈ layers, layer.Named := by
  simp only [layersOf?, fileNames, List.mapM_cons, List.mapM_nil, Option.bind_eq_bind,
    Option.bind_eq_some_iff, Option.pure_def, Option.some.injEq] at h
  obtain ⟨_, ⟨first, hfirst, _, ⟨second, hsecond, _, ⟨third, hthird, _, rfl, rfl⟩, rfl⟩, rfl⟩,
    rfl⟩ := h
  have hbuiltIn : (builtIn environment service).Named := by
    intro e he
    simp only [builtIn, List.mem_cons, List.not_mem_nil, or_false] at he
    rcases he with rfl | rfl <;> exact ⟨_, [], rfl⟩
  simp only [List.cons_append, List.nil_append, List.forall_mem_cons]
  exact ⟨hbuiltIn, Layer.named_of_fileLayer? hfirst, Layer.named_of_fileLayer? hsecond,
    Layer.named_of_fileLayer? hthird, Layer.named_ofVariables vars, List.forall_mem_nil _⟩

theorem isSome_section?_iff (t : Table) (name : String) :
    (t.section? name).isSome = (t.get? name).all isSection := by
  unfold Table.section?
  cases t.get? name with
  | none => rfl
  | some v => cases v <;> rfl

/-- What layers make of a setting is alike to what prevails for it. -/
theorem alike_from?_merged? {layers : List Layer}
    (hitems : ∀ layer ∈ layers, layer.avoidsItems = true) (k : Setting) :
    Alike (k.from? fun name ↦ Layer.merged? name layers.reverse) (k.prevailing? layers) := by
  unfold Setting.prevailing? Setting.inForce Setting.from?
  cases k.home? with
  | none => exact Layer.alike_merged? k.name layers.reverse
  | some home =>
    have hreverse : ∀ layer ∈ layers.reverse, layer.avoidsItems = true :=
      fun layer hmem ↦ hitems layer (List.mem_reverse.mp hmem)
    exact (Layer.stands_inForce hreverse home.1).alike_setting? home.2 k.name

/-- Layers make settings if what is in force for each section is a table or a list, and each
setting, by itself, is read from the value that prevails. -/
theorem ofLayers?_eq_some_iff {layers : List Layer} {s : Settings}
    (hnamed : ∀ layer ∈ layers, layer.Named)
    (hitems : ∀ layer ∈ layers, layer.avoidsItems = true) : ofLayers? layers = some s ↔
      (∀ home ∈ sectionNames, ((Layer.inForce home layers.reverse).head?.bind fun layer ↦
        layer.given? home).all isSection = true) ∧
      ∀ k : Setting, k.read? (k.prevailing? layers) = some (s.value k) := by
  have hreverse : ∀ layer ∈ layers.reverse, layer.avoidsItems = true :=
    fun layer hmem ↦ hitems layer (List.mem_reverse.mp hmem)
  have hmerged : Table.get? (entries (some (layers.foldl (fun v layer ↦ layer.onto v) (.table []))))
      = fun name ↦ Layer.merged? name layers.reverse :=
    funext fun name ↦ Layer.under?_foldl_onto hnamed name
  have hsection (home : String) : (Layer.merged? home layers.reverse).all isSection =
      ((Layer.inForce home layers.reverse).head?.bind fun layer ↦ layer.given? home).all
        isSection :=
    (Layer.stands_inForce hreverse home).all_isSection
  have hread (k : Setting) : k.read? (k.from? fun name ↦ Layer.merged? name layers.reverse) =
      k.read? (k.prevailing? layers) :=
    k.read?_congr (k.map_convert?_of_alike (alike_from?_merged? hitems k))
  simp only [ofLayers?, ofTable?_eq_some_iff, isSome_section?_iff, hmerged, hsection, hread]

/-! ### Values that are overridden -/

/-- Two layers that give the same, apart from settings that are overridden. What is in force does
not depend on a section from which all but overridden settings are left out. -/
structure Layer.SameBut (overridden : Setting → Prop) (layer layer' : Layer) : Prop where
  value : ∀ k : Setting, ¬ overridden k →
    (k.from? layer.given?).map k.convert? = (k.from? layer'.given?).map k.convert?
  adds : ∀ home ∈ sectionNames, layer.addsTo home = layer'.addsTo home
  form : ∀ home ∈ sectionNames,
    layer.addsTo home = false ∨ (∀ k : Setting, k.section? = some home → ¬ overridden k) →
      (layer.given? home).map form = (layer'.given? home).map form

/-- Layers that give the same, the highest layers first, apart from settings that are overridden: by
a layer above, or by what lies above all these layers. -/
inductive AgreeBut : (Setting → Prop) → List Layer → List Layer → Prop
  | nil (overridden : Setting → Prop) : AgreeBut overridden [] []
  | cons {overridden : Setting → Prop} {layer layer' : Layer} {lower lower' : List Layer}
    (hlayer : layer.SameBut overridden layer')
    (hlower : AgreeBut (fun k ↦ overridden k ∨ (k.from? layer.given?).isSome = true)
      lower lower') :
    AgreeBut overridden (layer :: lower) (layer' :: lower')

section Overridden

variable {overridden : Setting → Prop} {layers layers' : List Layer} {k : Setting} {home : String}

/-- If the first values convert to the same, and else the second ones, then what is chosen does. -/
theorem map_or_congr {v v' w w' : Option Tree} (hv : v.map k.convert? = v'.map k.convert?)
    (hw : v = none → w.map k.convert? = w'.map k.convert?) :
    (v.or w).map k.convert? = (v'.or w').map k.convert? := by
  rw [Option.map_or, Option.map_or, ← hv]
  cases v with
  | none => rw [hw rfl]
  | some v => rfl

theorem not_overridden_below {layer : Layer} (hk : ¬ overridden k)
    (h : k.from? layer.given? = none) :
    ¬ (overridden k ∨ (k.from? layer.given?).isSome = true) := by
  simp [hk, h]

theorem from?_eq_none {layer : Layer} (hk : k.section? = some home)
    (h : layer.given? home = none) : k.from? layer.given? = none := by
  obtain ⟨⟨_, place⟩, hhome, rfl⟩ := Option.map_eq_some_iff.mp hk
  rw [Setting.from?, hhome]
  simp only [h, Option.bind_none]

theorem section?_mem (hk : k.section? = some home) : home ∈ sectionNames := by
  cases k <;> simp [Setting.section?, Setting.home?] at hk <;> simp [← hk, sectionNames]

/-- Below a table of a section, layers that agree give the same for its other settings. -/
theorem AgreeBut.map_tables (h : AgreeBut overridden layers layers')
    (hsection : k.section? = some home) (hk : ¬ overridden k) :
    (((Layer.inForce home layers).filter (Layer.givesTable home)).findSome? fun layer ↦
        k.from? layer.given?).map k.convert? =
      (((Layer.inForce home layers').filter (Layer.givesTable home)).findSome? fun layer ↦
        k.from? layer.given?).map k.convert? := by
  have hmem := section?_mem hsection
  induction h with
  | nil => rfl
  | @cons overridden layer layer' lower lower' hlayer _ ih =>
    rw [Layer.findSome?_tables_cons (from?_eq_none hsection),
      Layer.findSome?_tables_cons (from?_eq_none hsection), ← hlayer.adds home hmem]
    cases hadds : layer.addsTo home with
    | true =>
      exact map_or_congr (hlayer.value k hk) fun hnone ↦ ih (not_overridden_below hk hnone)
    | false =>
      have htable : Layer.givesTable home layer = Layer.givesTable home layer' := by
        rw [Layer.givesTable_eq, Layer.givesTable_eq, hlayer.form home hmem (Or.inl hadds)]
      rw [if_neg Bool.false_ne_true, if_neg Bool.false_ne_true, ← htable]
      split
      · exact hlayer.value k hk
      · rfl

/-- Where no setting of a section is overridden, layers that agree give the same for them, and what
is on top for the section has the same form. -/
theorem AgreeBut.map_inForce (h : AgreeBut overridden layers layers')
    (hhome : home ∈ sectionNames) (hfree : ∀ k : Setting, k.section? = some home → ¬ overridden k) :
    (((Layer.inForce home layers).head?.bind fun layer ↦ layer.given? home).map form =
      ((Layer.inForce home layers').head?.bind fun layer ↦ layer.given? home).map form) ∧
    ∀ k : Setting, k.section? = some home →
      ((Layer.inForce home layers).findSome? fun layer ↦ k.from? layer.given?).map k.convert? =
        ((Layer.inForce home layers').findSome? fun layer ↦ k.from? layer.given?).map
          k.convert? := by
  induction h with
  | nil => exact ⟨rfl, fun _ _ ↦ rfl⟩
  | @cons overridden layer layer' lower lower' hlayer hlower ih =>
    have hform := hlayer.form home hhome (Or.inr hfree)
    by_cases hgiven : layer.given? home = none
    · have hgiven' : layer'.given? home = none := by
        rw [hgiven, Option.map_none] at hform
        exact Option.map_eq_none_iff.mp hform.symm
      rw [Layer.inForce_cons_of_none hgiven, Layer.inForce_cons_of_none hgiven']
      exact ih fun k hk ↦ not_overridden_below (hfree k hk) (from?_eq_none hk hgiven)
    · have hgiven' : layer'.given? home ≠ none := by
        intro hnone
        rw [hnone, Option.map_none] at hform
        exact hgiven (Option.map_eq_none_iff.mp hform)
      refine ⟨?_, fun k hk ↦ ?_⟩
      · rw [Layer.head?_inForce_cons hgiven, Layer.head?_inForce_cons hgiven']
        exact hform
      · rw [Layer.findSome?_inForce_cons hgiven, Layer.findSome?_inForce_cons hgiven',
          ← hlayer.adds home hhome]
        split
        · exact map_or_congr (hlayer.value k (hfree k hk)) fun hnone ↦
            hlower.map_tables hk (not_overridden_below (hfree k hk) hnone)
        · exact hlayer.value k (hfree k hk)

/-- Layers that agree give the same for a setting of no section. -/
theorem AgreeBut.map_findSome? (h : AgreeBut overridden layers layers') (hk : ¬ overridden k) :
    (layers.findSome? fun layer ↦ k.from? layer.given?).map k.convert? =
      (layers'.findSome? fun layer ↦ k.from? layer.given?).map k.convert? := by
  induction h with
  | nil => rfl
  | cons hlayer _ ih =>
    rw [findSome?_cons_eq_or, findSome?_cons_eq_or]
    exact map_or_congr (hlayer.value k hk) fun hnone ↦ ih (not_overridden_below hk hnone)

instance [DecidablePred overridden] (layer layer' : Layer) :
    Decidable (layer.SameBut overridden layer') :=
  decidable_of_iff (_ ∧ _ ∧ _)
    ⟨fun ⟨hvalue, hadds, hform⟩ ↦ ⟨hvalue, hadds, hform⟩, fun h ↦ ⟨h.value, h.adds, h.form⟩⟩

theorem agreeBut_cons_iff {layer layer' : Layer} {lower lower' : List Layer} :
    AgreeBut overridden (layer :: lower) (layer' :: lower') ↔
      layer.SameBut overridden layer' ∧
        AgreeBut (fun k ↦ overridden k ∨ (k.from? layer.given?).isSome = true) lower lower' := by
  constructor
  · rintro (_ | ⟨hlayer, hlower⟩)
    exact ⟨hlayer, hlower⟩
  · exact fun ⟨hlayer, hlower⟩ ↦ .cons hlayer hlower

instance decidableAgreeBut (overridden : Setting → Prop) [DecidablePred overridden] :
    (layers layers' : List Layer) → Decidable (AgreeBut overridden layers layers')
  | [], [] => isTrue (.nil overridden)
  | [], _ :: _ => isFalse nofun
  | _ :: _, [] => isFalse nofun
  | layer :: lower, _ :: lower' =>
    have := decidableAgreeBut (fun k ↦ overridden k ∨ (k.from? layer.given?).isSome = true)
      lower lower'
    decidable_of_iff _ agreeBut_cons_iff.symm

/-- Layers that agree but for overridden values make the same settings, or fail both. -/
theorem AgreeBut.ofLayers?_eq (h : AgreeBut (fun _ ↦ False) layers.reverse layers'.reverse)
    (hnamed : ∀ layer ∈ layers, layer.Named) (hnamed' : ∀ layer ∈ layers', layer.Named)
    (hitems : ∀ layer ∈ layers, layer.avoidsItems = true)
    (hitems' : ∀ layer ∈ layers', layer.avoidsItems = true) :
    ofLayers? layers = ofLayers? layers' := by
  have hsection : ∀ home ∈ sectionNames,
      ((Layer.inForce home layers.reverse).head?.bind fun layer ↦ layer.given? home).all isSection =
        ((Layer.inForce home layers'.reverse).head?.bind fun layer ↦ layer.given? home).all
          isSection := by
    intro home hhome
    rw [all_isSection_eq, all_isSection_eq, (h.map_inForce hhome fun _ _ ↦ id).1]
  have hread (k : Setting) : k.read? (k.prevailing? layers) = k.read? (k.prevailing? layers') := by
    refine k.read?_congr ?_
    unfold Setting.prevailing? Setting.inForce
    cases hhome : k.home? with
    | none => exact h.map_findSome? id
    | some home =>
      have hk : k.section? = some home.1 := by rw [Setting.section?, hhome]; rfl
      exact (h.map_inForce (section?_mem hk) fun _ _ ↦ id).2 k hk
  refine Option.ext fun s ↦ ?_
  rw [ofLayers?_eq_some_iff hnamed hitems, ofLayers?_eq_some_iff hnamed' hitems']
  refine and_congr (forall₂_congr fun home hhome ↦ ?_) (forall_congr' fun k ↦ ?_)
  · rw [hsection home hhome]
  · rw [hread k]

/-- Layers that all add to the section of a setting are all in force for it. -/
theorem prevailing?_of_addsTo (h : ∀ layer ∈ layers, ∀ home, k.section? = some home →
      layer.addsTo home = true) :
    k.prevailing? layers = k.highest? layers := by
  unfold Setting.prevailing? Setting.inForce
  cases hhome : k.home? with
  | none => rfl
  | some home =>
    have hk : k.section? = some home.1 := by rw [Setting.section?, hhome]; rfl
    exact Layer.findSome?_inForce (fun _ hnone ↦ from?_eq_none hk hnone)
      fun layer hmem ↦ h layer (List.mem_reverse.mp hmem) home.1 hk

end Overridden

/-- Whatever the files hold that are there and well-formed, and whatever the variables, a setting
has the value that the highest layer gives that is in force for it, or else its standard value; and
altering or leaving out values that a layer above overrides changes nothing, not even whether there
are settings at all. Where layers give a section as tables only, each of them is in force, and the
highest of all that gives the setting decides. Items of lists are left aside: a path to one takes
apart what lies below it in other ways. -/
theorem highest_layer_decides {contents : String → Option String} {vars : List (String × String)}
    {environment service : String} {layers : List Layer}
    (hlayers : layersOf? contents vars environment service = some layers)
    (hitems : ∀ layer ∈ layers, layer.avoidsItems = true) :
    (∀ s, load? contents vars environment service = some s →
      ∀ k : Setting, k.read? (k.prevailing? layers) = some (s.value k)) ∧
    (∀ contents' vars' layers', layersOf? contents' vars' environment service = some layers' →
      (∀ layer ∈ layers', layer.avoidsItems = true) →
      AgreeBut (fun _ ↦ False) layers.reverse layers'.reverse →
      load? contents' vars' environment service = load? contents vars environment service) ∧
    ∀ k : Setting, (∀ layer ∈ layers, ∀ home, k.section? = some home →
        layer.addsTo home = true) → k.prevailing? layers = k.highest? layers := by
  have hnamed := named_of_layersOf? hlayers
  refine ⟨fun s hs ↦ ?_, fun contents' vars' layers' hlayers' hitems' hagree ↦ ?_,
    fun k hadds ↦ prevailing?_of_addsTo hadds⟩
  · rw [load?_eq_bind, hlayers, Option.bind_some] at hs
    exact ((ofLayers?_eq_some_iff hnamed hitems).mp hs).2
  · rw [load?_eq_bind, load?_eq_bind, hlayers, hlayers', Option.bind_some, Option.bind_some]
    exact (hagree.ofLayers?_eq hnamed (named_of_layersOf? hlayers') hitems hitems').symm

/-- A depth of the wrong type and a number of tokens lie below other values for them. Without the
one and with another number, the wrong type now among the numbers, the settings are the same. -/
theorem highest_layer_decides_of_five :
    ∃ (contents contents' : String → Option String) (vars : List (String × String))
      (layers layers' : List Layer) (s : Settings),
      layersOf? contents vars "test" "svc" = some layers ∧
      (∀ layer ∈ layers, layer.avoidsItems = true) ∧
      (contents "test.toml" = some "[engine]\nmax_depth = 'deep'" ∧ contents' "test.toml" = none) ∧
      AgreeBut (fun _ ↦ False) layers.reverse layers'.reverse ∧
      load? contents vars "test" "svc" = some s ∧ s.limits = ⟨512, 16⟩ ∧
      (∀ k : Setting, k.read? (k.prevailing? layers) = some (s.value k)) ∧
      load? contents' vars "test" "svc" = some s ∧
      Setting.maxDepth.prevailing? layers = Setting.maxDepth.highest? layers := by
  let contents (name : String) := List.lookup name [
    ("default.toml", "[engine]\nmax_tokens = 9\nmax_depth = 4"),
    ("test.toml", "[engine]\nmax_depth = 'deep'"), ("svc.toml", "[engine]\nmax_depth = 16")]
  let contents' (name : String) := List.lookup name [
    ("default.toml", "[engine]\nmax_tokens = 'many'"), ("svc.toml", "[engine]\nmax_depth = 16")]
  let vars := [("ELIGIBILITY_ENGINE__MAX_TOKENS", "512")]
  let s : Settings := ⟨"svc", "test", ⟨512, 16⟩, false, none, .standard⟩
  have hlayers := layersOf?_eq_some_getD contents vars "test" "svc" (by decide +kernel)
  have hlayers' := layersOf?_eq_some_getD contents' vars "test" "svc" (by decide +kernel)
  have hitems : ∀ layer ∈ (layersOf? contents vars "test" "svc").getD [],
      layer.avoidsItems = true := by
    decide +kernel
  have hitems' : ∀ layer ∈ (layersOf? contents' vars "test" "svc").getD [],
      layer.avoidsItems = true := by
    decide +kernel
  have hagree : AgreeBut (fun _ ↦ False) ((layersOf? contents vars "test" "svc").getD []).reverse
      ((layersOf? contents' vars "test" "svc").getD []).reverse := by
    decide +kernel
  have hengine : ∀ layer ∈ (layersOf? contents vars "test" "svc").getD [],
      layer.addsTo "engine" = true := by
    decide +kernel
  have hload : load? contents vars "test" "svc" = some s := by decide +kernel
  obtain ⟨hvalues, hsame, htables⟩ := highest_layer_decides hlayers hitems
  exact ⟨contents, contents', vars, _, _, s, hlayers, hitems, ⟨rfl, rfl⟩, hagree, hload, rfl,
    hvalues s hload, (hsame contents' vars _ hlayers' hitems' hagree).trans hload,
    htables .maxDepth fun layer hmem home hhome ↦ Option.some.inj hhome ▸ hengine layer hmem⟩

/-- A section that is given as a number, or by an item of a list, takes away the depth that a lower
layer gives, although no layer above gives the depth. -/
theorem value_for_section_takes_away_depth :
    ∃ (contents indexed : String → Option String) (layers layers' : List Layer) (s : Settings),
      (contents "default.toml" = some "[engine]\nmax_depth = 2\n" ∧
        contents "test.toml" = some "engine = 5\n" ∧
        contents "rule-engine.toml" = some "[engine]\nmax_tokens = 7\n") ∧
      (indexed "default.toml" = some "[engine]\nmax_depth = 2\n" ∧ indexed "test.toml" = none ∧
        indexed "rule-engine.toml" = some "'engine[0]' = 7\n") ∧
      (layersOf? contents [] "test" "rule-engine" = some layers ∧
        ∀ layer ∈ layers, layer.avoidsItems = true) ∧
      layersOf? indexed [] "test" "rule-engine" = some layers' ∧
      ((Setting.maxDepth.highest? layers).bind (asNat? wordBound) = some 2 ∧
        (Setting.maxDepth.highest? layers').bind (asNat? wordBound) = some 2) ∧
      load? contents [] "test" "rule-engine" = some s ∧
      load? indexed [] "test" "rule-engine" = some s ∧ s.limits = ⟨7, 64⟩ := by
  let contents (name : String) := List.lookup name [
    ("default.toml", "[engine]\nmax_depth = 2\n"), ("test.toml", "engine = 5\n"),
    ("rule-engine.toml", "[engine]\nmax_tokens = 7\n")]
  let indexed (name : String) := List.lookup name [
    ("default.toml", "[engine]\nmax_depth = 2\n"), ("rule-engine.toml", "'engine[0]' = 7\n")]
  let s : Settings := ⟨"rule-engine", "test", ⟨7, 64⟩, false, none, .standard⟩
  have hlayers := layersOf?_eq_some_getD contents [] "test" "rule-engine" (by decide +kernel)
  have hlayers' := layersOf?_eq_some_getD indexed [] "test" "rule-engine" (by decide +kernel)
  exact ⟨contents, indexed, _, _, s, ⟨rfl, rfl, rfl⟩, ⟨rfl, rfl, rfl⟩,
    ⟨hlayers, by decide +kernel⟩, hlayers', ⟨by decide +kernel, by decide +kernel⟩,
    by decide +kernel, by decide +kernel, rfl⟩

end Criteria.Settings
