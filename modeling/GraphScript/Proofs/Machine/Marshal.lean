import GraphScript.Machine.Marshal
import Mathlib

/-!
# Proofs/Machine/Marshal — data that go into a machine and come back

A value is read by a type as the datum that it carries, if that is of the type (`toDatum_eq`).  So a
datum that was made a value of a machine is read back by its own type (`toDatum_ofDatum`), what is
read by a type is of that type (`isA_of_toDatum`), and reading by a type never disagrees with
reading without one (`typed_reading_agrees`).
-/

namespace GraphScript.Script

/-- All doubles come back, also what is not a number: there is one of it. -/
theorem Number.toFloat_ofFloat (x : Float) : (ofFloat x).toFloat = x := by
  unfold ofFloat
  split
  · rename_i hnan
    rw [Float.isNaN_eq_decide_eq_nan, decide_eq_true_eq] at hnan
    rw [hnan]
    decide
  · rfl

namespace Value

theorem length_fit (count : Nat) (vs : List Value) : (fit count vs).length = count := by
  rw [fit, List.length_append, List.length_take, List.length_replicate]
  omega

/-- Values are taken in order, and those that are missing are `nil`. -/
theorem getElem?_fit {count j : Nat} (vs : List Value) (h : j < count) :
    (fit count vs)[j]? = some (vs.getD j .nil) := by
  rw [fit]
  by_cases hj : j < vs.length
  · rw [List.getElem?_append_left (by rw [List.length_take]; omega), List.getElem?_take_of_lt h,
      List.getElem?_eq_getElem hj, List.getD_eq_getElem _ _ hj]
  · rw [List.getElem?_append_right (by rw [List.length_take]; omega), List.getElem?_replicate,
      List.getD_eq_default _ _ (by omega), if_pos (by rw [List.length_take]; omega)]

theorem textOf?_toUTF8 (s : String) : textOf? s.toUTF8 = some s := by
  unfold textOf? String.fromUTF8?
  rw [String.toUTF8_eq_toByteArray, dif_pos s.isValidUTF8]
  rfl

/-- What a value is read as by a type is the datum that it carries, if that is of the type. -/
theorem toDatum_eq (t : DataType) (v : Value) :
    v.toDatum t = (v.datum?.filter (·.isA t)).elim (.error v.hostType) .ok := by
  cases v with
  | nil | boolean | number | table | closure | builtin | callable => cases t with
    | boolean | number | string | entityId | object => rfl
  | str bytes =>
    cases htext : textOf? bytes with
    | none => cases t with
      | boolean | number | string | entityId | object => simp [toDatum, datum?, htext]
    | some s => cases t with
      | boolean | number | string | entityId | object =>
        simp only [toDatum, datum?, htext, Option.map_some]
        rfl
  | host address ref => cases ref with
    | entity | state => cases t with
      | boolean | number | string | entityId | object => rfl
    | object o => cases t with
      | boolean | number | string | entityId => rfl
      | object className =>
        have hisA : (Datum.object o).isA (.object className) =
            decide (o.className = className) := by
          simp [Datum.isA, Datum.dataType]
        simp only [toDatum, datum?, Option.filter_some, hisA, decide_eq_true_eq]
        cases (if o.className = className then some (Datum.object o) else none) with
        | none => rfl
        | some d => rfl

theorem toDatum_eq_ok_iff {t : DataType} {v : Value} {d : Datum} :
    v.toDatum t = .ok d ↔ v.datum? = some d ∧ d.isA t = true := by
  have hsome : v.datum?.filter (·.isA t) = some d ↔ v.datum? = some d ∧ d.isA t = true :=
    Option.filter_eq_some_iff
  rw [toDatum_eq, ← hsome]
  cases v.datum?.filter (·.isA t) with
  | none => simp
  | some d' => simp

theorem toDatum_eq_error_iff {t : DataType} {v : Value} {found : String} :
    v.toDatum t = .error found ↔
      (∀ d, v.datum? = some d → d.isA t = false) ∧ found = v.hostType := by
  have hnone : v.datum?.filter (·.isA t) = none ↔ ∀ d, v.datum? = some d → d.isA t = false := by
    rw [Option.filter_eq_none_iff]
    exact forall₂_congr fun _ _ => Bool.eq_false_iff.symm
  rw [toDatum_eq, ← hnone]
  cases v.datum?.filter (·.isA t) with
  | none => simp [eq_comm]
  | some d' => simp

/-- What is read by a type is of that type. -/
theorem isA_of_toDatum {t : DataType} {v : Value} {d : Datum} (h : v.toDatum t = .ok d) :
    d.isA t = true := (toDatum_eq_ok_iff.mp h).2

/-- **A datum that was made a value is carried by it.** -/
theorem datum?_ofDatum (address : Nat) (d : Datum) : (ofDatum address d).datum? = some d := by
  cases d with
  | boolean | entityId | object => rfl
  | number x => simp only [ofDatum, datum?, Number.toFloat_ofFloat]
  | string s => simp only [ofDatum, ofText, datum?, textOf?_toUTF8, Option.map_some]

theorem toDatum_ofDatum_iff {address : Nat} {d : Datum} {t : DataType} :
    (ofDatum address d).toDatum t = .ok d ↔ d.isA t = true := by
  simp [toDatum_eq_ok_iff, datum?_ofDatum]

/-- **A datum that was made a value is read back by its type.** -/
theorem toDatum_ofDatum (address : Nat) (d : Datum) :
    (ofDatum address d).toDatum d.dataType = .ok d := toDatum_ofDatum_iff.mpr (decide_eq_true rfl)

/-- **Reading by a type and reading without one agree.**  By a type a value is read as the datum
that it carries, exactly if that is of the type; otherwise what the host calls its type is reported.
A datum that was made a value is carried by it, and read back exactly by its own type. -/
theorem typed_reading_agrees :
    (∀ (t : DataType) (v : Value) (d : Datum),
      v.toDatum t = .ok d ↔ v.datum? = some d ∧ d.isA t = true) ∧
    (∀ (t : DataType) (v : Value) (found : String), v.toDatum t = .error found ↔
      (∀ d, v.datum? = some d → d.isA t = false) ∧ found = v.hostType) ∧
    ∀ (m : Machine) (d : Datum), (m.embed d).1.datum? = some d ∧
      ∀ t, (m.embed d).1.toDatum t = .ok d ↔ d.isA t = true :=
  ⟨fun _ _ _ => toDatum_eq_ok_iff, fun _ _ _ => toDatum_eq_error_iff,
    fun m d => ⟨datum?_ofDatum m.nextHost d, fun _ => toDatum_ofDatum_iff⟩⟩

end Value

end GraphScript.Script
