import GraphScript.Emit.Script
import GraphScript.Proofs.Decimal.Layout
import GraphScript.Proofs.References

/-!
# Proofs/Emit/Unsigned — negative number literals are negations

A negative number literal is written like the negation of its absolute value
(`Literal.number_of_negative`), so an expression and the one in which its negative literals are
replaced, `Expr.unsigned`, have one text (`expr_unsigned`).  What is left of a valid expression is
`Expr.Signless`: number literals without a sign, and references to what is declared.
-/

namespace GraphScript

open Decimal

/-! ## Number literals -/

namespace Literal

/-- A number that is none is written as a quotient. -/
theorem number_nan {x : Float} (h : classify x = .nan) : number .script x = "(0/0)" := by
  rw [number, h]
  rfl

theorem number_infinite {x : Float} (h : classify x = .infinite false) :
    number .script x = "math.huge" := by
  rw [number, h]
  rfl

theorem number_plain {x : Float} (h : (classify x).isPlain = true) :
    number .script x = layout.write x := by
  unfold number
  rcases Kind.isPlain_iff.mp h with hx | ⟨b, hx⟩
  · rw [hx]
  · rw [hx]

/-- A minus sign before the text of a number that is not negative. -/
theorem paren_minus (cs : List Char) :
    "(" ++ String.ofList ('-' :: cs) ++ ")" = "(-" ++ String.ofList cs ++ ")" := by
  refine String.toList_inj.mp ?_
  simp

/-- **A negative literal is written as the negation of its absolute value.** -/
theorem number_of_negative {x : Float} (h : (classify x).negative = true) :
    number .script x = "(-" ++ number .script x.abs ++ ")" := by
  have habs := classify_abs x
  cases hx : classify x with
  | nan => rw [hx] at h; cases h
  | infinite negative =>
    rw [hx] at h habs
    obtain rfl : negative = true := h
    rw [number_infinite habs, number, hx]
    rfl
  | zero negative =>
    rw [hx] at h habs
    obtain rfl : negative = true := h
    rw [number, number, hx, habs, Layout.write, Layout.write, hx, habs]
    exact paren_minus _
  | finite negative b =>
    rw [hx] at h habs
    obtain rfl : negative = true := h
    rw [number, number, hx, habs, Layout.write, Layout.write, hx, habs]
    exact paren_minus _

/-- A number literal without a sign is no number, infinite or plain. -/
theorem kind_of_not_negative {k : Kind} (h : k.negative = false) :
    k = .nan ∨ k = .infinite false ∨ k.isPlain = true := by
  cases k with
  | nan => exact .inl rfl
  | infinite negative => exact .inr (.inl (congrArg _ h))
  | zero negative => exact .inr (.inr (congrArg not h))
  | finite negative b => exact .inr (.inr (congrArg not h))

/-- A plain number is written as a numeral. -/
theorem numeral_number {x : Float} (h : (classify x).isPlain = true) :
    ∃ v, Numeral (number .script x).toList v := by
  obtain ⟨v, hv, -⟩ := Layout.numeral_write (l := layout) rfl h
  exact ⟨v, number_plain h ▸ hv⟩

theorem marks_number {x : Float} (h : (classify x).isPlain = true) :
    Layout.Marks (number .script x).toList := by
  rw [number_plain h, Layout.write]
  rcases Kind.isPlain_iff.mp h with hx | ⟨b, hx⟩
  · rw [hx, String.toList_ofList]
    exact layout.marks_decimal Scientific.proper_zero
  · rw [hx, String.toList_ofList]
    exact layout.marks_decimal (layout.proper_digitsOf b)

end Literal

/-! ## Expressions without negative literals -/

/-- The expression with every negative number literal replaced by the negation of its absolute
value.  There is only one double that is no number, and it has no sign. -/
def Expr.unsigned : Expr → Expr
  | .literal (.number x) =>
    if (classify x).negative then .negate (.literal (.number x.abs)) else .literal (.number x)
  | .binary op l r => .binary op l.unsigned r.unsigned
  | .not e => .not e.unsigned
  | .negate e => .negate e.unsigned
  | e => e

/-- Valid in the body of `f`, as far as validation looks at expressions. -/
def Expr.ValidIn (m : Model) (f : FunctionDef) (e : Expr) : Prop :=
  ∀ node, ∀ part ∈ e.walk, m.exprProblems f node part = []

/-- Valid in the body of `f`, and without negative number literals. -/
def Expr.Signless (m : Model) (f : FunctionDef) : Expr → Prop
  | .literal (.number x) => (classify x).negative = false
  | .literal (.object _) => False
  | .literal _ => True
  | .member v => (m.variableAt? v).isSome
  | .param i => i.toNat < f.params.length
  | .localVar i => i.toNat < f.locals.length
  | .binary _ l r => l.Signless m f ∧ r.Signless m f
  | .not e => e.Signless m f
  | .negate e => e.Signless m f

namespace Expr

variable {m : Model} {f : FunctionDef}

/-- What is valid has valid parts. -/
theorem ValidIn.parts {op : BinaryOp} {l r : Expr} (h : (Expr.binary op l r).ValidIn m f) :
    l.ValidIn m f ∧ r.ValidIn m f := by
  refine ⟨fun node part hpart => h node part ?_, fun node part hpart => h node part ?_⟩
  · exact List.mem_cons_of_mem _ (List.mem_append_left _ hpart)
  · exact List.mem_cons_of_mem _ (List.mem_append_right _ hpart)

theorem validIn_param {i : UInt16} (h : i.toNat < f.params.length) :
    (Expr.param i).ValidIn m f := fun _ => List.forall_mem_singleton.mpr (if_pos h)

theorem validIn_localVar {i : UInt16} (h : i.toNat < f.locals.length) :
    (Expr.localVar i).ValidIn m f := fun _ => List.forall_mem_singleton.mpr (if_pos h)

/-- Without its negative literals an expression is still valid, and signless. -/
theorem signless_unsigned : ∀ {e : Expr}, e.ValidIn m f → e.unsigned.Signless m f
  | .literal (.number x), _ => by
      rw [unsigned]
      split
      · show (classify x.abs).negative = false
        rw [classify_abs, Kind.negative_abs]
      · rename_i h
        exact Bool.eq_false_iff.mpr h
  | .literal (.object _), h => by
      have := h default _ List.mem_cons_self
      cases this
  | .literal (.boolean _), _ => trivial
  | .literal (.string _), _ => trivial
  | .literal (.entityId _), _ => trivial
  | .member v, h => Model.memberProblems_eq_nil.mp (h default _ List.mem_cons_self)
  | .param i, h => by
      have hi := h default _ List.mem_cons_self
      rw [Model.exprProblems] at hi
      split at hi
      · assumption
      · cases hi
  | .localVar i, h => Model.localProblems_eq_nil.mp (h default _ List.mem_cons_self)
  | .binary _ _ _, h => ⟨signless_unsigned h.parts.1, signless_unsigned h.parts.2⟩
  | .not e, h => signless_unsigned (e := e) fun node part hpart =>
      h node part (List.mem_cons_of_mem _ hpart)
  | .negate e, h => signless_unsigned (e := e) fun node part hpart =>
      h node part (List.mem_cons_of_mem _ hpart)

end Expr

namespace Emit.Script

/-- **Negative literals and negations of literals are written alike.** -/
theorem expr_unsigned (names : Names) (own : Names.Function) :
    ∀ e : Expr, expr names own e.unsigned = expr names own e
  | .literal (.number x) => by
      rw [Expr.unsigned]
      split
      · rename_i h
        exact (Literal.number_of_negative h).symm
      · rfl
  | .literal (.object _) => rfl
  | .literal (.boolean _) => rfl
  | .literal (.string _) => rfl
  | .literal (.entityId _) => rfl
  | .member _ => rfl
  | .param _ => rfl
  | .localVar _ => rfl
  | .binary op l r => by
      rw [Expr.unsigned, expr, expr_unsigned names own l, expr_unsigned names own r, expr]
  | .not e => by rw [Expr.unsigned, expr, expr_unsigned names own e, expr]
  | .negate e => by rw [Expr.unsigned, expr, expr_unsigned names own e, expr]

end Emit.Script

end GraphScript
