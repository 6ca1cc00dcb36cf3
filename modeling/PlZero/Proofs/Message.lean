import Mathlib.Data.List.Basic
import PlZero.SyntaxError

/-! # What a message names

The message about a text that does not match names the rules that are expected, one after another,
with nothing but commas and an `or` between the names. A name tells which family of rules is
meant, so nothing is named that is not expected.
-/

namespace PlZero

/-- Names one after another in a sentence, with commas or an `or` between them. -/
inductive Enumerates : List String → String → Prop where
  | last (name : String) : Enumerates [name] name
  | more {names : List String} {separator sentence : String} (name : String)
      (hseparator : separator ∈ [", ", " or ", ", or "]) (hnames : Enumerates names sentence) :
      Enumerates (name :: names) (name ++ separator ++ sentence)

theorem Enumerates.occurs {names : List String} {sentence : String}
    (hnames : Enumerates names sentence) {name : String} (hname : name ∈ names) :
    name.toList <:+: sentence.toList := by
  induction hnames with
  | last other =>
      obtain rfl : name = other := List.mem_singleton.mp hname
      exact List.infix_refl _
  | @more names separator sentence first _ _ ih =>
      rw [String.toList_append, String.toList_append, List.append_assoc]
      rcases List.mem_cons.mp hname with rfl | hname
      · exact (List.prefix_append _ _).isInfix
      · have hrest := (ih hname).trans (List.suffix_append separator.toList _).isInfix
        exact hrest.trans (List.suffix_append first.toList _).isInfix

theorem enumerates_intercalate {names : List String} (hnames : names ≠ []) (last : String) :
    Enumerates (names ++ [last]) (", ".intercalate names ++ ", or " ++ last) := by
  induction names with
  | nil => exact absurd rfl hnames
  | cons name names ih =>
      cases names with
      | nil =>
          rw [String.intercalate_singleton]
          exact .more name (by decide) (.last last)
      | cons second names =>
          have hrest := ih (List.cons_ne_nil second names)
          have hassoc : ", ".intercalate (name :: second :: names) ++ ", or " ++ last =
              name ++ ", " ++ (", ".intercalate (second :: names) ++ ", or " ++ last) := by
            simp only [String.intercalate_cons_cons, String.append_assoc]
          rw [hassoc]
          exact .more name (by decide) hrest

/-- Alternatives are named one after another. -/
theorem SyntaxError.enumerates_alternatives {names : List String} (hnames : names ≠ []) :
    Enumerates names (alternatives names) := by
  match names with
  | [] => exact absurd rfl hnames
  | [name] => exact .last name
  | [first, second] => exact .more first (by decide) (.last second)
  | first :: second :: third :: names =>
      have hinit : (first :: second :: third :: names).dropLast ≠ [] := List.cons_ne_nil _ _
      have hall := enumerates_intercalate hinit ((first :: second :: third :: names).getLast hnames)
      rwa [List.dropLast_concat_getLast] at hall

/-! ## Names of rules -/

namespace Rule

/-- The rule that stands for those which have a name in common. -/
def family : Rule → Rule
  | .wholeStmt => .stmt
  | .wholeExpr | .chain => .expr
  | .compare _ => .compare .eq
  | .arith _ => .arith .add
  | .bool _ => .bool true
  | .printWord => .reserved
  | rule => rule

theorem describe_eq_iff {rule other : Rule} :
    rule.describe = other.describe ↔ rule.family = other.family := by
  have hall : ∀ rule ∈ list, ∀ other ∈ list,
      rule.describe = other.describe ↔ rule.family = other.family := by
    decide +kernel
  exact hall rule rule.mem_list other other.mem_list

theorem describe_ne_empty (rule : Rule) : rule.describe ≠ "" := by
  have hall : ∀ rule ∈ list, rule.describe ≠ "" := by decide
  exact hall rule rule.mem_list

end Rule

namespace SyntaxError

/-- A message names some rules, one after another, and nothing that is not of their families. -/
structure NamesRules (message : String) (expected : List Rule) : Prop where
  enumerates : ∃ sentence, message = "expected " ++ sentence ∧
    Enumerates (expected.map Rule.describe) sentence
  occurs : ∀ rule ∈ expected, rule.describe ≠ "" ∧ rule.describe.toList <:+: message.toList
  only : ∀ rule : Rule, rule.describe ∈ expected.map Rule.describe →
    ∃ other ∈ expected, other.family = rule.family

/-- The message of a text that does not match names the rules that are expected. -/
theorem namesRules_of_unexpected {error : SyntaxError} {expected : List Rule}
    (hcause : error.cause = .unexpected expected) (hnil : expected ≠ []) :
    NamesRules error.message expected := by
  have hmessage : error.message = "expected " ++ alternatives (expected.map Rule.describe) := by
    rw [message, hcause]
  have hnames : Enumerates (expected.map Rule.describe)
      (alternatives (expected.map Rule.describe)) :=
    enumerates_alternatives (mt List.map_eq_nil_iff.mp hnil)
  refine ⟨⟨_, hmessage, hnames⟩, fun rule hrule => ⟨rule.describe_ne_empty, ?_⟩, ?_⟩
  · rw [hmessage, String.toList_append]
    exact (hnames.occurs (List.mem_map_of_mem hrule)).trans (List.suffix_append _ _).isInfix
  · intro rule hrule
    obtain ⟨other, hother, hdescribe⟩ := List.mem_map.mp hrule
    exact ⟨other, hother, Rule.describe_eq_iff.mp hdescribe⟩

end SyntaxError

end PlZero
