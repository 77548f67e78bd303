import GraphScript.Id.Token
import Mathlib.Data.Nat.ModEq

/-!
# Proofs/Id/Token — a token names one variable

The last digits of a number say what it leaves after division by a power of sixteen
(`mod_eq_of_hexDigits_eq`).  A token has all digits of an identifier, so two variables with the same
token are the same (`token_injective`).
-/

namespace GraphScript

/-- The first digit of one more is the highest. -/
theorem hexDigits_succ (count n : Nat) :
    hexDigits (count + 1) n = Nat.digitChar (n / 16 ^ count % 16) :: hexDigits count n := by
  rw [hexDigits, List.range_succ, List.reverse_append, List.reverse_singleton,
    List.singleton_append, List.map_cons]
  rfl

theorem digitChar_inj : ∀ a < 16, ∀ b < 16, Nat.digitChar a = Nat.digitChar b → a = b := by decide

/-- **The last digits of a number are those of its remainder**, and no other remainder has them. -/
theorem mod_eq_of_hexDigits_eq {count a b : Nat} (h : hexDigits count a = hexDigits count b) :
    a % 16 ^ count = b % 16 ^ count := by
  induction count with
  | zero => rw [Nat.pow_zero, Nat.mod_one, Nat.mod_one]
  | succ count ih =>
    rw [hexDigits_succ, hexDigits_succ] at h
    obtain ⟨hdigit, hrest⟩ := List.cons_eq_cons.mp h
    have hfirst := digitChar_inj _ (Nat.mod_lt _ (by decide)) _ (Nat.mod_lt _ (by decide)) hdigit
    rw [Nat.mod_pow_succ, Nat.mod_pow_succ, ih hrest, hfirst]

namespace VariableId

/-- Tokens are made of digits. -/
theorem exists_digit_of_mem_digits {v : VariableId} {c : Char} (h : c ∈ v.digits) :
    ∃ n < 16, c = Nat.digitChar n := by
  obtain ⟨i, _, rfl⟩ := List.mem_map.mp h
  exact ⟨_, Nat.mod_lt _ (by decide), rfl⟩

/-- **Different variables have different tokens.** -/
theorem token_injective : Function.Injective token := by
  intro v w h
  have hdigits : v.digits = w.digits := String.ofList_injective h
  have hmod := mod_eq_of_hexDigits_eq hdigits
  have hlt : ∀ u : VariableId, u.toNat < 16 ^ 32 := fun u => u.val.isLt
  rw [Nat.mod_eq_of_lt (hlt v), Nat.mod_eq_of_lt (hlt w)] at hmod
  have hval : v.val = w.val := BitVec.eq_of_toNat_eq hmod
  rw [VariableId.mk.injEq]
  exact hval

end VariableId

end GraphScript
