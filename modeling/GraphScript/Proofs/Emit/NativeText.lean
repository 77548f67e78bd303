import GraphScript.Emit.Source
import GraphScript.Proofs.Literal
import Mathlib.Data.List.TakeWhile

/-!
# Proofs/Emit/NativeText — strings in native source

Native source constructs a string from its literal.  The literal denotes the string, control
characters included, but the constructor takes no more than the characters before the first NUL.  So
the expression denotes the string exactly if no NUL is in it (`constructed_string_iff`).
-/

namespace GraphScript.Emit.Source

/-- The characters that are taken of a literal: those before the first NUL. -/
def beforeNul (cs : List Char) : List Char := cs.takeWhile (· ≠ '\x00')

/-- What an expression denotes that constructs a string from one literal. -/
def constructed? (expression : String) : Option (List Char) :=
  let opening := "std::string(".toList
  if opening.isPrefixOf expression.toList then
    match Literal.read? .native (expression.toList.drop opening.length) with
    | some (cs, [')']) => some (beforeNul cs)
    | _ => none
  else none

/-- A text is all before its first zero exactly if it has none. -/
theorem beforeNul_eq_self_iff {cs : List Char} : beforeNul cs = cs ↔ '\x00' ∉ cs := by
  rw [beforeNul, List.takeWhile_eq_self_iff]
  constructor
  · intro h hm
    exact absurd (h _ hm) (by decide)
  · intro h c hc
    exact decide_eq_true fun he => h (he ▸ hc)

/-- A text is constructed from its literal. -/
theorem toList_datum_string (s : String) : (datum (.string s)).toList =
    "std::string(".toList ++ ((Literal.string .native s).toList ++ [')']) := by
  rw [datum, String.toList_append, String.toList_append, List.append_assoc]
  rfl

/-- A string in native source denotes its characters before the first NUL. -/
theorem constructed?_datum (s : String) :
    constructed? (datum (.string s)) = some (beforeNul s.toList) := by
  have hopening : "std::string(".toList.isPrefixOf (datum (.string s)).toList = true := by
    rw [List.isPrefixOf_iff_prefix, toList_datum_string]
    exact List.prefix_append _ _
  have hliteral : (datum (.string s)).toList.drop "std::string(".toList.length =
      (Literal.string .native s).toList ++ [')'] := by
    rw [toList_datum_string, List.drop_left]
  simp only [constructed?, hopening, hliteral, Literal.read?_string, if_true]

/-- **A string in native source denotes itself exactly if there is no NUL in it.**  Its literal
denotes the whole string in any case, but of that only what stands before the first NUL is
taken. -/
theorem constructed_string_iff (s : String) :
    Literal.read? .native ((Literal.string .native s).toList ++ [')']) = some (s.toList, [')']) ∧
      constructed? (datum (.string s)) = some (beforeNul s.toList) ∧
      (constructed? (datum (.string s)) = some s.toList ↔ '\x00' ∉ s.toList) := by
  refine ⟨Literal.read?_string .native s _, constructed?_datum s, ?_⟩
  rw [constructed?_datum, Option.some.injEq, beforeNul_eq_self_iff]

example : datum (.string "a\x00b") = "std::string(\"a\\000b\")" ∧
    constructed? (datum (.string "a\x00b")) = some ['a'] := by decide

end GraphScript.Emit.Source
