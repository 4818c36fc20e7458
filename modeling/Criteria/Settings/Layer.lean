import Criteria.Decimal.Numeral
import Criteria.Settings.Tree

/-!
Layers of settings: values for paths. Of two layers the later one wins, leaf by leaf. A name spells
a path if names stand between its dots and numbers in its brackets.
-/

set_option autoImplicit false
set_option relaxedAutoImplicit false

namespace Criteria.Settings

/-- Values for paths, the later ones above the earlier ones. -/
abbrev Layer : Type :=
  List (Path × Tree)

namespace Layer

def isNameChar (c : Char) : Bool :=
  c.isAlphanum || c = '_' || c = '-'

/-- The number between brackets, with or without blanks around it. -/
def number? (cs : List Char) : Option Int :=
  let isGap (c : Char) : Bool := c = ' ' || c = '\t'
  let word := ((cs.dropWhile isGap).reverse.dropWhile isGap).reverse
  if word.head? = some '+' then none else integer? word

/-- Steps of a path: each is a dot and a name, or a number in brackets. -/
def placesFrom? (cs : List Char) : Option Path :=
  match cs with
  | [] => some []
  | '.' :: rest =>
    if rest.takeWhile isNameChar = [] then none
    else
      (placesFrom? (rest.dropWhile isNameChar)).map
        (.name (String.ofList (rest.takeWhile isNameChar)) :: ·)
  | '[' :: rest =>
    match number? (rest.takeWhile (· ≠ ']')) with
    | none => none
    | some n =>
      if rest.dropWhile (· ≠ ']') = [] then none
      else (placesFrom? ((rest.dropWhile (· ≠ ']')).drop 1)).map (.item n :: ·)
  | _ => none
termination_by cs.length
decreasing_by
  · have := (List.dropWhile_sublist (p := isNameChar) (l := rest)).length_le
    simp only [List.length_cons]
    omega
  · have := (List.dropWhile_sublist (p := fun c ↦ decide (c ≠ ']')) (l := rest)).length_le
    simp only [List.length_cons, List.length_drop]
    omega

/-- The path that a name spells. A text of any other form is one name. -/
def pathOf (name : String) : Path :=
  (placesFrom? ('.' :: name.toList)).getD [.name name]

/-- A file's entries as a layer, in written order. Of two that touch one path, as a table `a` and a
quoted key `"a.b"` do, the later one counts here. A reader that collects its keys in a hash map
takes them in no fixed order. -/
def ofTable (t : Table) : Layer :=
  t.map fun (name, v) ↦ (pathOf name, v)

/-- Lays the values of a layer over a tree. -/
def onto (layer : Layer) (v : Tree) : Tree :=
  layer.foldl (fun v (path, w) ↦ w.put (some v) path) v

end Layer

end Criteria.Settings
