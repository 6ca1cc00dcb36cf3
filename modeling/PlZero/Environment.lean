import PlZero.Fault
import Std.Data.ExtTreeMap.Lemmas

/-! # Environments

The variables of a run and their values, in one flat scope. Bindings are listed by name, in the
order of code points, which is also the order of the names' UTF-8 encodings. Two environments
are equal exactly if they list the same bindings.
-/

namespace PlZero

/-- Finitely many variables, each bound to one value. -/
structure Environment where
  bindings : Std.ExtTreeMap String Value

namespace Environment

/-- No variable is bound. -/
def empty : Environment := ⟨∅⟩

/-- The value of a variable, if it is bound. -/
def get? (env : Environment) (name : String) : Option Value := env.bindings[name]?

/-- The value of a variable that is used; an unbound one is a fault. -/
def lookup (env : Environment) (name : String) : Except Fault Value :=
  match env.get? name with
  | some value => .ok value
  | none => .error (.undefinedVariable name)

/-- Binds a variable, or changes the value of a bound one. -/
def assign (env : Environment) (name : String) (value : Value) : Environment :=
  ⟨env.bindings.insert name value⟩

/-- How many variables are bound. -/
def size (env : Environment) : Nat := env.bindings.size

/-- Whether no variable is bound. -/
def isEmpty (env : Environment) : Bool := env.bindings.isEmpty

/-- Every binding, by name. -/
def toList (env : Environment) : List (String × Value) := env.bindings.toList

/-- One line of text for every binding, by name. -/
def lines (env : Environment) : List String :=
  env.toList.map fun (name, value) => name ++ " = " ++ value.render

@[simp]
theorem get?_empty (name : String) : empty.get? name = none := by
  simp [empty, get?]

theorem get?_assign (env : Environment) (name other : String) (value : Value) :
    (env.assign name value).get? other = if name = other then some value else env.get? other := by
  simp [assign, get?, Std.ExtTreeMap.getElem?_insert]

theorem toList_inj {left right : Environment} : left.toList = right.toList ↔ left = right := by
  constructor
  · intro hlist
    rcases left with ⟨left⟩
    rcases right with ⟨right⟩
    simp only [toList] at hlist
    exact congrArg Environment.mk (Std.ExtTreeMap.ext_toList (hlist ▸ List.Perm.refl _))
  · exact fun heq => heq ▸ rfl

instance : DecidableEq Environment := fun _ _ => decidable_of_iff _ toList_inj

end Environment

end PlZero
