import GraphScript.Proofs.Names.Reserve
import Mathlib.Computability.StateTransition

/-!
# Proofs/Names/Trial — the search for a free spelling ends

An identifier is found by trial: its spellings are tried in order until one is new.  `seek` runs the
trials to completion with no bound on their number, so nothing in its definition makes it end.  It
passes over taken spellings only (`reaches_nth`), and these cannot be all, since spellings differ
from each other and only so many names are taken.  So the search always ends, and with the spelling
that `reserve` picks out of a bounded number of them (`seek_first_free`).
-/

namespace GraphScript.Names

open StateTransition (Reaches eval mem_eval)

/-! ## Trials -/

/-- A search under way: the spelling to try next, and the number for the one after it.  The number
is a natural one and never runs out; a counter of 32 bits with a sign goes the same way as long as
fewer than `2 ^ 31 - 2` spellings of the base are taken. -/
structure Trial where
  used : List String
  base : String
  spelling : String
  number : Nat

namespace Trial

/-- A taken spelling gives way to the one with the next number; at a new one the search stops. -/
def step (t : Trial) : Option Trial :=
  if t.spelling ∈ t.used then
    some { t with spelling := s!"{t.base}_{t.number}", number := t.number + 1 }
  else none

/-- The first trial is the base as it is; numbers begin with two. -/
def start (used : List String) (base : String) : Trial := ⟨used, base, base, 2⟩

end Trial

/-- The search for the identifier of a name under a mark: what it finds, and the names that are taken
from then on. -/
def seek (used : List String) (mark name : String) : Part (String × List String) :=
  (eval Trial.step (.start used (mark ++ cleanName name))).map fun t =>
    (t.spelling, t.spelling :: t.used)

/-! ## What a search passes over -/

namespace Trial

variable {used : List String} {base : String} {k : Nat}

/-- The trial of the spelling with this place in the order. -/
def nth (used : List String) (base : String) (k : Nat) : Trial :=
  ⟨used, base, candidate base k, k + 2⟩

theorem step_nth_of_mem (h : candidate base k ∈ used) :
    (nth used base k).step = some (nth used base (k + 1)) := if_pos h

theorem step_nth_of_notMem (h : candidate base k ∉ used) : (nth used base k).step = none := if_neg h

/-- **A search passes over the taken spellings in front**, one after the other. -/
theorem reaches_nth (h : ∀ j < k, candidate base j ∈ used) :
    Reaches step (start used base) (nth used base k) := by
  induction k with
  | zero => exact Relation.ReflTransGen.refl
  | succ k ih =>
    have hbefore := ih fun j hj => h j (Nat.lt_succ_of_lt hj)
    exact hbefore.tail (step_nth_of_mem (h k (Nat.lt_succ_self k)))

theorem eval_of_firstFree (h : FirstFree used base k) :
    eval step (start used base) = Part.some (nth used base k) :=
  Part.eq_some_iff.mpr (mem_eval.mpr ⟨reaches_nth h.taken, step_nth_of_notMem h.free⟩)

end Trial

/-! ## The end of the search -/

/-- **The search ends with the first free spelling.**  At most as many spellings are passed over as
there are taken names; afterwards the one found is taken as well, and nothing else has changed.
Identifiers that are reserved one after the other are those that such searches find. -/
theorem seek_first_free (used : List String) (mark name : String) :
    ∃ k ≤ used.length, ∃ used',
      seek used mark name = Part.some (candidate (mark ++ cleanName name) k, used') ∧
      candidate (mark ++ cleanName name) k ∉ used ∧
      (∀ j < k, candidate (mark ++ cleanName name) j ∈ used) ∧
      (∀ s, s ∈ used' ↔ s ∈ used ∨ s = candidate (mark ++ cleanName name) k) ∧
      ∀ rest, reserveAll used ((mark ++ cleanName name) :: rest) =
        candidate (mark ++ cleanName name) k :: reserveAll used' rest := by
  obtain ⟨k, hreserve, hfirst⟩ := reserve_spec used (mark ++ cleanName name)
  have hend : seek used mark name = Part.some (candidate (mark ++ cleanName name) k,
      candidate (mark ++ cleanName name) k :: used) := by
    rw [seek, Trial.eval_of_firstFree hfirst, Part.map_some]
    rfl
  refine ⟨k, hfirst.le_length, _, hend, hfirst.free, hfirst.taken, fun s => ?_, fun rest => ?_⟩
  · rw [List.mem_cons, or_comm]
  · rw [reserveAll, hreserve]

/-- A gap among the numbers is filled, and then they go on behind the taken ones. -/
example : reserveAll ["m_hp", "m_hp_2", "m_hp_4"] ["m_hp", "m_hp"] = ["m_hp_3", "m_hp_5"] := by decide

end GraphScript.Names
