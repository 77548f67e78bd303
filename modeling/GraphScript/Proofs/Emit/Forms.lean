import GraphScript.Proofs.Emit.Unsigned
import GraphScript.Proofs.Literal
import GraphScript.Proofs.Names.Distinct

/-!
# Proofs/Emit/Forms — the form of an expression and its leaves

The first characters of a text tell which form of expression begins there (`formOf`,
`begins_chars`), and a leaf ends before the first blank or closing parenthesis or by its own
closing mark, so that it can be told from what follows (`number_append_inj`, `entity_append_inj`,
`Literal.toList_string_append_inj`).
-/

namespace GraphScript

open Decimal

namespace Emit.Script

/-! ## What follows an expression -/

/-- A character that ends a word. -/
def Delimits (c : Char) : Prop := c = ' ' ∨ c = ')'

/-- The text is empty or begins with the end of a word. -/
def Ends (cs : List Char) : Prop := ∀ c, cs.head? = some c → Delimits c

/-- A text without the end of a word. -/
def Word (cs : List Char) : Prop := ∀ c ∈ cs, ¬ Delimits c

theorem ends_nil : Ends [] := fun _ h => by cases h

theorem ends_cons {c : Char} (h : Delimits c) (cs : List Char) : Ends (c :: cs) := fun _ hd =>
  Option.some.inj hd ▸ h

/-- Two texts that stop at the first character of a kind are cut there alike. -/
theorem append_inj_of_stops {p : Char → Prop} {a b r s : List Char} (ha : ∀ c ∈ a, ¬ p c)
    (hb : ∀ c ∈ b, ¬ p c) (hr : ∀ c, r.head? = some c → p c) (hs : ∀ c, s.head? = some c → p c)
    (h : a ++ r = b ++ s) : a = b ∧ r = s := by
  have hempty : ∀ {a mid s : List Char}, (∀ c ∈ a ++ mid, ¬ p c) →
      (∀ c, (mid ++ s).head? = some c → p c) → mid = [] := fun {a mid s} hkept hstops => by
    cases mid with
    | nil => rfl
    | cons c mid =>
      exact absurd (hstops c rfl) (hkept c (List.mem_append_right a List.mem_cons_self))
  rcases List.append_eq_append_iff.mp h with ⟨mid, rfl, rfl⟩ | ⟨mid, rfl, rfl⟩
  · obtain rfl := hempty hb hr
    simp
  · obtain rfl := hempty ha hs
    simp

/-- **A word ends where it is followed by the end of one.** -/
theorem word_append_inj {a b r s : List Char} (ha : Word a) (hb : Word b) (hr : Ends r)
    (hs : Ends s) (h : a ++ r = b ++ s) : a = b ∧ r = s :=
  append_inj_of_stops ha hb hr hs h

/-! ## Forms -/

/-- What an expression looks like at its beginning. -/
inductive Form where
  | negation | complement | operation
  | boolean | number | string | entity | object
  | member | param | localVar
  deriving DecidableEq, Repr

/-- The form of an expression in parentheses. -/
def opened : List Char → Form
  | '-' :: _ => .negation
  | 'n' :: 'o' :: _ => .complement
  | '0' :: '/' :: _ => .number
  | _ => .operation

/-- The form of the expression that a text begins with. -/
def formOf : List Char → Form
  | '(' :: cs => opened cs
  | '"' :: _ => .string
  | '_' :: '_' :: _ => .entity
  | '_' :: _ => .localVar
  | 'l' :: _ => .localVar
  | 'p' :: _ => .param
  | 'n' :: _ => .param
  | 's' :: _ => .member
  | 't' :: _ => .boolean
  | 'f' :: _ => .boolean
  | _ => .number

/-- What begins with a digit is a number. -/
theorem formOf_digit {c : Char} (hc : c.isDigit = true) (cs : List Char) :
    formOf (c :: cs) = .number := by
  unfold formOf
  split
  case h_11 => rfl
  all_goals
    rename_i heq
    cases heq
    cases hc

/-- A placeholder for a local is followed by no second underscore. -/
theorem formOf_placeholder {r : List Char} (hr : Ends r) :
    formOf ("_".toList ++ r) = .localVar := by
  cases r with
  | nil => rfl
  | cons c r =>
    rcases hr c rfl with rfl | rfl
    · rfl
    · rfl

/-- The form of an expression. -/
def form : Expr → Form
  | .literal (.boolean _) => .boolean
  | .literal (.number _) => .number
  | .literal (.string _) => .string
  | .literal (.entityId _) => .entity
  | .literal (.object _) => .object
  | .member _ => .member
  | .param _ => .param
  | .localVar _ => .localVar
  | .binary _ _ _ => .operation
  | .not _ => .complement
  | .negate _ => .negation

/-- Two expressions are built by the same constructor. -/
inductive Alike : Expr → Expr → Prop
  | boolean (b b' : Bool) : Alike (.literal (.boolean b)) (.literal (.boolean b'))
  | number (x x' : Float) : Alike (.literal (.number x)) (.literal (.number x'))
  | string (s s' : String) : Alike (.literal (.string s)) (.literal (.string s'))
  | entity (a a' : EntityId) : Alike (.literal (.entityId a)) (.literal (.entityId a'))
  | member (v v' : VariableId) : Alike (.member v) (.member v')
  | param (i i' : UInt16) : Alike (.param i) (.param i')
  | localVar (i i' : UInt16) : Alike (.localVar i) (.localVar i')
  | binary (op op' : BinaryOp) (l r l' r' : Expr) : Alike (.binary op l r) (.binary op' l' r')
  | not (e e' : Expr) : Alike (.not e) (.not e')
  | negate (e e' : Expr) : Alike (.negate e) (.negate e')

/-- Expressions of the same form are of the same kind. -/
theorem alike_of_form {m : Model} {f : FunctionDef} {e e' : Expr} (he : e.Signless m f)
    (h : form e = form e') : Alike e e' := by
  rcases e with (_ | _ | _ | _ | _) | _ | _ | _ | _ | _ | _ <;>
    rcases e' with (_ | _ | _ | _ | _) | _ | _ | _ | _ | _ | _ <;> cases h
  exacts [.boolean _ _, .number _ _, .string _ _, .entity _ _, he.elim, .member _ _, .param _ _,
    .localVar _ _, .binary _ _ _ _ _ _, .not _ _, .negate _ _]

/-- However the text goes on, it begins like an expression of this form, and like nothing else after
an opening parenthesis. -/
def Begins (cs : List Char) (form : Form) : Prop :=
  ∀ r, Ends r → formOf (cs ++ r) = form ∧ opened (cs ++ r) = .operation

/-- A numeral begins like a number. -/
theorem begins_numeral {cs : List Char} {v : ℚ} (h : Numeral cs v) (hmarks : Layout.Marks cs) :
    Begins cs .number := by
  obtain ⟨c, cs, rfl, hc⟩ := h.exists_cons
  have hslash : '/' ∉ c :: cs := fun hm => absurd (hmarks '/' hm) (by decide)
  intro r hr
  refine ⟨formOf_digit hc _, ?_⟩
  unfold opened
  split
  · rename_i heq
    cases (List.cons.inj heq).1
    cases hc
  · rename_i heq
    cases (List.cons.inj heq).1
    cases hc
  · -- a slash would be in the number, or end the word after it
    rename_i heq
    have hrest := (List.cons.inj heq).2
    cases cs with
    | nil => exact absurd (hr '/' (congrArg List.head? hrest)) (by unfold Delimits; decide)
    | cons d cs =>
      obtain rfl := (List.cons.inj hrest).1
      exact absurd (List.mem_cons_of_mem _ List.mem_cons_self) hslash
  · rfl

/-- What the identifiers of a table look like. -/
structure Table (names : Names) (own : Names.Function) : Prop where
  member : ∀ v, Names.Plain (names.member v)
  params : ∀ p ∈ own.params, Names.Plain p ∧ ∃ r, p = "p_" ++ r
  locals : ∀ l ∈ own.locals, Names.Plain l ∧ ∃ r, l = "l_" ++ r

/-- An item of a list is one of its items, or the one that stands for a missing one. -/
theorem getD_cases (xs : List String) (i : ℕ) (d : String) :
    xs.getD i d ∈ xs ∨ xs.getD i d = d := by
  rw [List.getD_eq_getElem?_getD]
  cases h : xs[i]? with
  | none => exact .inr rfl
  | some x => exact .inl (List.mem_of_getElem? h)

namespace Table

variable {names : Names} {own : Names.Function} (ht : Table names own)

include ht

/-- A parameter is written as a plain name. -/
theorem plain_param (i : UInt16) : Names.Plain (own.params.getD i.toNat "nil") := by
  rcases getD_cases own.params i.toNat "nil" with hmem | hnil
  · exact (ht.params _ hmem).1
  · rw [hnil]
    decide

theorem plain_localVar (i : UInt16) : Names.Plain (own.locals.getD i.toNat "_") := by
  rcases getD_cases own.locals i.toNat "_" with hmem | hnil
  · exact (ht.locals _ hmem).1
  · rw [hnil]
    decide

end Table

section Text

variable {names : Names} {own : Names.Function}

/-- The characters of an expression. -/
def chars (names : Names) (own : Names.Function) (e : Expr) : List Char := (expr names own e).toList

/-- An operation is written in parentheses, with its operator between blanks. -/
theorem chars_binary (op : BinaryOp) (l r : Expr) : chars names own (.binary op l r) =
    '(' :: (chars names own l ++ ' ' :: ((operator op).toList ++ ' ' ::
      (chars names own r ++ [')']))) := by
  simp [chars, expr]

theorem chars_not (e : Expr) : chars names own (.not e) =
    '(' :: 'n' :: 'o' :: 't' :: ' ' :: (chars names own e ++ [')']) := by
  simp [chars, expr]

theorem chars_negate (e : Expr) : chars names own (.negate e) =
    '(' :: '-' :: (chars names own e ++ [')']) := by
  simp [chars, expr]

/-- The service that gives an entity, called with its number as a string. -/
theorem toList_entity (n : ℕ) : (s!"__sc_entity(\"{n}\")").toList =
    "__sc_entity(\"".toList ++ (Nat.toDigits 10 n ++ ['"', ')']) := by
  show ("__sc_entity(\"" ++ n.repr ++ "\")").toList = _
  rw [String.toList_append, String.toList_append, Nat.toList_repr, List.append_assoc]
  rfl

/-- **An expression begins like its form.** -/
theorem begins_chars (ht : Table names own) {m : Model} {f : FunctionDef} : ∀ {e : Expr},
    e.Signless m f → Begins (chars names own e) (form e)
  | .literal (.boolean b), _ => by
      cases b with
      | true =>
        show Begins "true".toList _
        exact fun r _ => ⟨rfl, rfl⟩
      | false =>
        show Begins "false".toList _
        exact fun r _ => ⟨rfl, rfl⟩
  | .literal (.number x), h => by
      show Begins (Literal.number .script x).toList _
      rcases Literal.kind_of_not_negative h with hx | hx | hx
      · rw [Literal.number_nan hx]
        exact fun r _ => ⟨rfl, rfl⟩
      · rw [Literal.number_infinite hx]
        exact fun r _ => ⟨rfl, rfl⟩
      · obtain ⟨v, hv⟩ := Literal.numeral_number hx
        exact begins_numeral hv (Literal.marks_number hx)
  | .literal (.string s), _ => by
      show Begins (Literal.string .script s).toList _
      rw [Literal.toList_string]
      exact fun r _ => ⟨rfl, rfl⟩
  | .literal (.entityId e), _ => by
      show Begins (datum (.entityId e)).toList _
      rw [datum]
      split
      · exact fun r _ => ⟨rfl, rfl⟩
      · rw [toList_entity]
        exact fun r _ => ⟨rfl, rfl⟩
  | .member v, _ => by
      show Begins ("self." ++ names.member v).toList _
      rw [String.toList_append]
      exact fun r _ => ⟨rfl, rfl⟩
  | .param i, _ => by
      show Begins (own.params.getD i.toNat "nil").toList _
      rcases getD_cases own.params i.toNat "nil" with hmem | hnil
      · obtain ⟨-, r, hr⟩ := ht.params _ hmem
        rw [hr, String.toList_append]
        exact fun r _ => ⟨rfl, rfl⟩
      · rw [hnil]
        exact fun r _ => ⟨rfl, rfl⟩
  | .localVar i, _ => by
      show Begins (own.locals.getD i.toNat "_").toList _
      rcases getD_cases own.locals i.toNat "_" with hmem | hnil
      · obtain ⟨-, r, hr⟩ := ht.locals _ hmem
        rw [hr, String.toList_append]
        exact fun r _ => ⟨rfl, rfl⟩
      · rw [hnil]
        intro r hr
        exact ⟨formOf_placeholder hr, rfl⟩
  | .binary op l r, h => by
      have hl := begins_chars ht h.1
      rw [chars_binary]
      intro rest _
      refine ⟨?_, rfl⟩
      rw [List.cons_append, List.append_assoc]
      exact (hl _ (ends_cons (.inl rfl) _)).2
  | .not e, _ => by
      rw [chars_not]
      exact fun r _ => ⟨rfl, rfl⟩
  | .negate e, _ => by
      rw [chars_negate]
      exact fun r _ => ⟨rfl, rfl⟩

/-! ## Leaves -/

theorem word_append {a b : List Char} (ha : Word a) (hb : Word b) : Word (a ++ b) :=
  List.forall_mem_append.mpr ⟨ha, hb⟩

/-- A text without a blank and without a closing parenthesis is a word. -/
theorem word_of_notMem {cs : List Char} (hblank : ' ' ∉ cs) (hclosing : ')' ∉ cs) : Word cs :=
  fun c hc hdelimits => by
    rcases hdelimits with rfl | rfl
    · exact hblank hc
    · exact hclosing hc

theorem word_of_plain {s : String} (h : Names.Plain s) : Word s.toList :=
  word_of_notMem (fun hc => absurd (h _ hc) (by decide)) fun hc => absurd (h _ hc) (by decide)

theorem word_of_marks {cs : List Char} (h : Layout.Marks cs) : Word cs :=
  word_of_notMem (fun hc => absurd (h _ hc) (by decide)) fun hc => absurd (h _ hc) (by decide)

/-- A truth value is known from the text that begins with it. -/
theorem boolean_append_inj {b b' : Bool} {r r' : List Char}
    (h : (datum (.boolean b)).toList ++ r = (datum (.boolean b')).toList ++ r') :
    b = b' ∧ r = r' := by
  cases b <;> cases b'
  · exact ⟨rfl, List.append_cancel_left h⟩
  · cases (List.cons.inj h).1
  · cases (List.cons.inj h).1
  · exact ⟨rfl, List.append_cancel_left h⟩

/-- The text of a number that is none is no other's. -/
theorem nan_of_append {x x' : Float} (hx : classify x = .nan) (hx' : (classify x').negative = false)
    {r r' : List Char}
    (h : (Literal.number .script x).toList ++ r = (Literal.number .script x').toList ++ r') :
    classify x' = .nan := by
  rw [Literal.number_nan hx] at h
  rcases Literal.kind_of_not_negative hx' with hx' | hx' | hx'
  · exact hx'
  · rw [Literal.number_infinite hx'] at h
    cases (List.cons.inj h).1
  · obtain ⟨v, hv⟩ := Literal.numeral_number hx'
    obtain ⟨c, cs, hcs, hc⟩ := hv.exists_cons
    rw [hcs] at h
    cases (List.cons.inj h).1
    cases hc

/-- A number without a sign is written as a word. -/
theorem word_number {x : Float} (h : (classify x).negative = false) (hnan : classify x ≠ .nan) :
    Word (Literal.number .script x).toList := by
  rcases Literal.kind_of_not_negative h with hx | hx | hx
  · exact absurd hx hnan
  · rw [Literal.number_infinite hx]
    exact word_of_notMem (by decide) (by decide)
  · exact word_of_marks (Literal.marks_number hx)

/-- A finite number is not written like infinity. -/
theorem number_ne_infinity {x : Float} (h : (classify x).isPlain = true) :
    Literal.number .script x ≠ "math.huge" := by
  intro htext
  obtain ⟨v, hv⟩ := Literal.numeral_number h
  obtain ⟨c, cs, hcs, hc⟩ := hv.exists_cons
  rw [htext] at hcs
  cases (List.cons.inj hcs).1
  cases hc

/-- Numbers that are written alike are the same. -/
theorem number_inj {x x' : Float} (hx : (classify x).negative = false)
    (hx' : (classify x').negative = false) (hnan : classify x ≠ .nan) (hnan' : classify x' ≠ .nan)
    (h : Literal.number .script x = Literal.number .script x') : x = x' := by
  rcases (Literal.kind_of_not_negative hx).resolve_left hnan with hx | hx <;>
    rcases (Literal.kind_of_not_negative hx').resolve_left hnan' with hx' | hx'
  · exact classify_injective (hx.trans hx'.symm)
  · exact absurd (h.symm.trans (Literal.number_infinite hx)) (number_ne_infinity hx')
  · exact absurd (h.trans (Literal.number_infinite hx')) (number_ne_infinity hx)
  · rw [Literal.number_plain hx, Literal.number_plain hx'] at h
    exact Layout.write_inj (l := Literal.layout) rfl hx hx' h

/-- A number is known from the text that begins with it. -/
theorem number_append_inj {x x' : Float} (hx : (classify x).negative = false)
    (hx' : (classify x').negative = false) {r r' : List Char} (hr : Ends r) (hr' : Ends r')
    (h : (Literal.number .script x).toList ++ r = (Literal.number .script x').toList ++ r') :
    x = x' ∧ r = r' := by
  by_cases hnan : classify x = .nan
  · have hnan' := nan_of_append hnan hx' h
    obtain rfl := classify_injective (hnan.trans hnan'.symm)
    exact ⟨rfl, List.append_cancel_left h⟩
  · have hnan' : classify x' ≠ .nan := fun hx' => hnan (nan_of_append hx' hx h.symm)
    obtain ⟨htext, rfl⟩ := word_append_inj (word_number hx hnan) (word_number hx' hnan') hr hr' h
    exact ⟨number_inj hx hx' hnan hnan' (String.toList_inj.mp htext), rfl⟩

theorem digits_append_inj {n n' : ℕ} {r r' : List Char}
    (h : Nat.toDigits 10 n ++ '"' :: r = Nat.toDigits 10 n' ++ '"' :: r') : n = n' ∧ r = r' := by
  have hdigits : ∀ n, ∀ c ∈ Nat.toDigits 10 n, ¬ c.isDigit = false := fun n c hc => by
    rw [Nat.isDigit_of_mem_toDigits (by decide) (by decide) hc]
    decide
  have hquote : ∀ (r : List Char) (c : Char), ('"' :: r).head? = some c → c.isDigit = false :=
    fun r c hc => by
      rw [← Option.some.inj hc]
      decide
  obtain ⟨hn, hrest⟩ := append_inj_of_stops (hdigits n) (hdigits n') (hquote r) (hquote r') h
  have hvalue := congrArg (Nat.ofDigitChars 10 · 0) hn
  simp only [Nat.ofDigitChars_ten_toDigits] at hvalue
  exact ⟨hvalue, (List.cons.inj hrest).2⟩

/-- An entity is known from the text that begins with it. -/
theorem entity_append_inj {a a' : EntityId} {r r' : List Char}
    (h : (datum (.entityId a)).toList ++ r = (datum (.entityId a')).toList ++ r') :
    a = a' ∧ r = r' := by
  rw [datum, datum] at h
  split at h <;> rename_i ha <;> split at h <;> rename_i ha'
  · obtain rfl : a = a' := (of_decide_eq_true ha).trans (of_decide_eq_true ha').symm
    exact ⟨rfl, List.append_cancel_left h⟩
  · rw [toList_entity] at h
    have hsixth : some 'o' = some 'e' := congrArg (fun cs => cs[5]?) h
    cases hsixth
  · rw [toList_entity] at h
    have hsixth : some 'e' = some 'o' := congrArg (fun cs => cs[5]?) h
    cases hsixth
  · rw [toList_entity, toList_entity, List.append_assoc, List.append_assoc, List.append_assoc,
      List.append_assoc] at h
    obtain ⟨hn, hrest⟩ := digits_append_inj (List.append_cancel_left h)
    obtain ⟨v⟩ := a
    obtain ⟨v'⟩ := a'
    exact ⟨congrArg _ (UInt64.toNat_inj.mp hn), (List.cons.inj hrest).2⟩

/-- Operators are told apart by their signs. -/
theorem operator_injective : Function.Injective operator := by
  intro op op'
  cases op <;> cases op' <;> decide

theorem word_operator (op : BinaryOp) : Word (operator op).toList := by
  cases op <;> exact word_of_notMem (by decide) (by decide)

end Text

end Emit.Script

end GraphScript
