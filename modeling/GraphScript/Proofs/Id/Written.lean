import GraphScript.Id.Written
import GraphScript.Proofs.Id.Token
import GraphScript.Proofs.Json.Token
import Mathlib.Tactic.Ring

/-!
# Proofs/Id/Written — a variable is read back from its hyphenated digits

The digits of a number are read back as its remainder (`hexNumber?_hexDigits`), and the five groups
of a written identifier are taken apart where they were put together (`grouped?_hyphenated`).
-/

namespace GraphScript.VariableId

/-- The values of the digits of a number, appended to another. -/
theorem mapM_hexDigits (count n : Nat) :
    ∃ ds, (hexDigits count n).mapM Json.hexValue? = some ds ∧
      ∀ m, ds.foldl (fun n d => n * 16 + d) m = m * 16 ^ count + n % 16 ^ count := by
  induction count with
  | zero => exact ⟨[], rfl, fun m => by rw [Nat.pow_zero, Nat.mod_one, Nat.mul_one]; rfl⟩
  | succ count ih =>
    obtain ⟨ds, hds, hvalue⟩ := ih
    have hdigit := Json.hexValue?_digitChar (n / 16 ^ count % 16) (Nat.mod_lt _ (by decide))
    refine ⟨(n / 16 ^ count % 16) :: ds, ?_, fun m => ?_⟩
    · rw [hexDigits_succ, List.mapM_cons, hdigit, hds]
      rfl
    · rw [List.foldl_cons, hvalue, Nat.mod_pow_succ, Nat.pow_succ]
      ring

/-- Digits that were written are read back, as far as they reach. -/
theorem hexNumber?_hexDigits (count n : Nat) :
    hexNumber? (hexDigits count n) = some (n % 16 ^ count) := by
  obtain ⟨ds, hds, hvalue⟩ := mapM_hexDigits count n
  rw [hexNumber?, hds, Option.map_some, hvalue, Nat.zero_mul, Nat.zero_add]

/-- The groups of a written identifier are taken apart where they were put together. -/
theorem grouped?_hyphenated (v : VariableId) :
    grouped? v.hyphenated.toList = hexNumber? v.digits := by
  rw [hyphenated, String.toList_ofList]
  rfl

/-- A text that starts with neither the mark nor a brace stands alone. -/
theorem unwrapped_of_ne {c : Char} (hmark : c ≠ 'u') (hbrace : c ≠ '\x7b') (cs : List Char) :
    unwrapped (c :: cs) = (c :: cs, 0, true) := by
  have hmark' : "urn:uuid:".toList.isPrefixOf (c :: cs) = false := by
    have hbeq : ('u' == c) = false := beq_false_of_ne (Ne.symm hmark)
    have htext : "urn:uuid:".toList = 'u' :: "rn:uuid:".toList := rfl
    rw [htext, List.isPrefixOf_cons_cons, hbeq, Bool.false_and]
  unfold unwrapped
  rw [hmark']
  split
  · contradiction
  · rename_i hcs _ _
    exact absurd (List.cons.inj hcs).1 hbrace
  · rfl

/-- **A variable is read back from its hyphenated digits.** -/
theorem ofText_hyphenated (v : VariableId) : ofText v.hyphenated = .ok v := by
  have hfirst : ∃ tail, v.hyphenated.toList = Nat.digitChar (v.toNat / 16 ^ 31 % 16) :: tail := by
    rw [hyphenated, String.toList_ofList]
    exact ⟨_, rfl⟩
  have hlength : v.hyphenated.toList.length = 36 := by
    rw [hyphenated, String.toList_ofList]
    rfl
  have hnumber : hexNumber? v.digits = some v.toNat := by
    have hlt : v.toNat < 16 ^ 32 := v.val.isLt
    rw [digits, hexNumber?_hexDigits, Nat.mod_eq_of_lt hlt]
  obtain ⟨tail, hfirst⟩ := hfirst
  have hunwrapped : unwrapped v.hyphenated.toList = (v.hyphenated.toList, 0, true) := by
    have hdigit : ∀ d < 16, Nat.digitChar d ≠ 'u' ∧ Nat.digitChar d ≠ '\x7b' := by decide
    obtain ⟨hmark, hbrace⟩ := hdigit (v.toNat / 16 ^ 31 % 16) (Nat.mod_lt _ (by decide))
    rw [hfirst]
    exact unwrapped_of_ne hmark hbrace tail
  unfold ofText
  simp only [hlength, hunwrapped, grouped?_hyphenated, hnumber, Nat.reduceEqDiff, if_false]
  exact congrArg Except.ok (congrArg VariableId.mk (BitVec.ofNat_toNat _ _))

end GraphScript.VariableId
