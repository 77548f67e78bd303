import GraphScript.Document.Statement
import GraphScript.Proofs.Document.Datum

/-!
# Proofs/Document/Statement — expressions and statements are read back

Every level of an expression or a statement opens at least one object, so a reader that may go as
deep as the document is nested has levels enough for what it reads (`Expr.reads_readerFrom`,
`Statement.reads_readerFrom`).
-/

namespace GraphScript

open Json (Legible depth_tagged)
open Json.Reader

theorem BinaryOp.reads (op : BinaryOp) : Reads BinaryOp.reader (.str op.name) op := by
  cases op <;> exact reads_plain rfl

namespace Expr

/-! ## Expressions -/

/-- The doubles of an expression. -/
def doubles (e : Expr) : List Float :=
  e.walk.flatMap fun
    | .literal d => d.doubles
    | _ => []

theorem doubles_literal (d : Datum) : (literal d).doubles = d.doubles :=
  List.flatMap_singleton _ _

/-- The doubles of an expression are those of its parts. -/
theorem doubles_binary (op : BinaryOp) (l r : Expr) :
    (binary op l r).doubles = l.doubles ++ r.doubles := by
  rw [doubles, walk, List.cons_append, List.flatMap_cons, List.flatMap_append]
  rfl

theorem doubles_not (e : Expr) : (Expr.not e).doubles = e.doubles := rfl

theorem doubles_negate (e : Expr) : (negate e).doubles = e.doubles := rfl

/-- An expression takes up at least one level. -/
theorem depth_pos (e : Expr) : 0 < e.toJson.depth := by
  cases e <;> exact Nat.succ_pos _

/-- An expression is read back with as many levels as its document has. -/
theorem reads_readerFrom {e : Expr} (h : ∀ x ∈ e.doubles, Legible x) {fuel : Nat}
    (hdepth : e.toJson.depth ≤ fuel) : Reads (readerFrom fuel) e.toJson e := by
  -- Every form opens an object, so there is a level for it.
  induction e generalizing fuel with
    obtain ⟨fuel, rfl⟩ :=
      Nat.exists_eq_succ_of_ne_zero (Nat.ne_zero_of_lt (Nat.lt_of_lt_of_le (depth_pos _) hdepth))
  | literal d =>
    rw [doubles_literal] at h
    exact reads_tagged (.inl rfl) ((Datum.reads h).map literal)
  | member v => exact reads_tagged (.inl rfl) (v.reads.map member)
  | param i => exact reads_tagged (.inl rfl) ((reads_position i).map param)
  | localVar i => exact reads_tagged (.inl rfl) ((reads_position i).map localVar)
  | binary op l r ihl ihr =>
    rw [doubles_binary, List.forall_mem_append] at h
    rw [toJson, depth_tagged] at hdepth
    simp only [Json.depth, Json.fieldsDepth] at hdepth
    have hl := ihl h.1 (show l.toJson.depth ≤ fuel by omega)
    have hr := ihr h.2 (show r.toJson.depth ≤ fuel by omega)
    exact reads_tagged (.inr rfl) (reads_record
      (.cons (takes_field rfl rfl op.reads)
      (.cons (takes_field rfl rfl hl)
      (.cons (takes_field rfl rfl hr)
      (.nil _)))) rfl)
  | not e ih =>
    rw [doubles_not] at h
    rw [toJson, depth_tagged] at hdepth
    exact reads_tagged (.inl rfl) ((ih h (Nat.le_of_succ_le_succ hdepth)).map Expr.not)
  | negate e ih =>
    rw [doubles_negate] at h
    rw [toJson, depth_tagged] at hdepth
    exact reads_tagged (.inl rfl) ((ih h (Nat.le_of_succ_le_succ hdepth)).map negate)

/-- **An expression is read back** where its doubles are. -/
theorem reads {e : Expr} (h : ∀ x ∈ e.doubles, Legible x) : Reads Expr.reader e.toJson e := by
  have hopens : Json.Opens e.toJson.chars := (reads_readerFrom h (Nat.le_refl _)).opens
  exact reads_of_depth hopens (reads_readerFrom h)

end Expr

namespace Statement

/-! ## Records of a few fields -/

section Fields

variable {α β γ δ : Type} {r : Json.Reader α} {s : Json.Reader β} {t : Json.Reader γ}
  {i j k : Json} {a : α} {b : β} {c : γ}

/-- A record of one field is read back. -/
theorem reads_oneField {title name : String} {f : α → δ} (hr : Reads r i a) :
    Reads (record (oneField title name r f)) (.obj [(name, i)]) (f a) := by
  have hfind : (oneField title name r f).fields.find? (·.name == name) =
      some (required name r id fun v _ => some v) := by
    simp only [oneField, required, List.find?_cons, beq_self_eq_true]
  exact reads_record (.cons (takes_field hfind rfl hr) (.nil _)) rfl

/-- A record of two fields with different names is read back. -/
theorem reads_twoFields {title first second : String} {f : α → β → δ} (hne : first ≠ second)
    (hr : Reads r i a) (hs : Reads s j b) :
    Reads (record (twoFields title first r second s f)) (.obj [(first, i), (second, j)])
      (f a b) := by
  have hsecond := beq_false_of_ne hne
  have hfind : (twoFields title first r second s f).fields.find? (·.name == first) =
      some (required first r (·.1) fun v d => (some v, d.2)) := by
    simp only [twoFields, required, List.find?_cons, beq_self_eq_true]
  have hfind' : (twoFields title first r second s f).fields.find? (·.name == second) =
      some (required second s (·.2) fun v d => (d.1, some v)) := by
    simp only [twoFields, required, List.find?_cons, hsecond, beq_self_eq_true]
  exact reads_record
    (.cons (takes_field hfind rfl hr)
    (.cons (takes_field hfind' rfl hs)
    (.nil _))) rfl

theorem reads_threeFields {title first second third : String} {f : α → β → γ → δ}
    (hne : [first, second, third].Nodup) (hr : Reads r i a) (hs : Reads s j b) (ht : Reads t k c) :
    Reads (record (threeFields title first r second s third t f))
      (.obj [(first, i), (second, j), (third, k)]) (f a b c) := by
  have hnames : first ≠ second ∧ first ≠ third ∧ second ≠ third := by simpa [and_assoc] using hne
  obtain ⟨hfirst, hfirst', hsecond⟩ := hnames
  have hfind : (threeFields title first r second s third t f).fields.find? (·.name == first) =
      some (required first r (·.1) fun v d => (some v, d.2)) := by
    simp only [threeFields, required, List.find?_cons, beq_self_eq_true]
  have hfind' : (threeFields title first r second s third t f).fields.find? (·.name == second) =
      some (required second s (·.2.1) fun v d => (d.1, some v, d.2.2)) := by
    simp only [threeFields, required, List.find?_cons, beq_false_of_ne hfirst, beq_self_eq_true]
  have hfind'' : (threeFields title first r second s third t f).fields.find? (·.name == third) =
      some (required third t (·.2.2) fun v d => (d.1, d.2.1, some v)) := by
    simp only [threeFields, required, List.find?_cons, beq_false_of_ne hfirst',
      beq_false_of_ne hsecond, beq_self_eq_true]
  exact reads_record
    (.cons (takes_field hfind rfl hr)
    (.cons (takes_field hfind' rfl hs)
    (.cons (takes_field hfind'' rfl ht)
    (.nil _)))) rfl

end Fields

/-! ## Statements -/

/-- The doubles in the expressions of some statements have texts that are read back. -/
def LegibleIn (ss : List Statement) : Prop :=
  ∀ s ∈ ss, ∀ e ∈ s.expressions, ∀ x ∈ e.doubles, Legible x

/-- A body is written statement by statement. -/
theorem bodyToJson_eq_map (body : List Statement) : bodyToJson body = body.map toJson := by
  induction body with
  | nil => rw [bodyToJson, List.map_nil]
  | cons s r ih => rw [bodyToJson, ih, List.map_cons]

theorem reads_bodyToJson {r : Json.Reader Statement} {body : List Statement}
    (h : ∀ s ∈ body, Reads r s.toJson s) :
    Reads (array r) (.arr (bodyToJson body)) body := by
  rw [bodyToJson_eq_map]
  exact reads_array h

/-- What kind of statement it is takes up fewer levels than the statement. -/
theorem depth_kindToJson_lt (origin : NodeId) (slot : Option SlotId) (kind : StatementKind) :
    (kindToJson kind).depth < (mk origin slot kind).toJson.depth := by
  cases slot with
  | none =>
    simp only [toJson, List.cons_append, List.nil_append, Json.depth, Json.fieldsDepth]
    omega
  | some slot =>
    simp only [toJson, List.cons_append, List.nil_append, Json.depth, Json.fieldsDepth]
    omega

theorem reads_args {es : List Expr} (h : ∀ e ∈ es, ∀ x ∈ e.doubles, Legible x) :
    Reads (array Expr.reader) (.arr (es.map Expr.toJson)) es :=
  reads_array fun e he => Expr.reads (h e he)

theorem reads_results (results : List UInt16) :
    Reads (array position) (.arr (results.map fun i => .int i.toNat)) results :=
  reads_array fun i _ => reads_position i

mutual

/-- **Statements come back** if there is fuel for their depth. -/
theorem reads_readerFrom : ∀ (s : Statement) {fuel : Nat}, LegibleIn s.walk →
    s.toJson.depth ≤ fuel → Reads (readerFrom fuel) s.toJson s
  | .mk origin slot kind, fuel, h, hdepth => by
      rw [walk] at h
      obtain ⟨hown, hnested⟩ := List.forall_mem_cons.mp h
      have hlt := depth_kindToJson_lt origin slot kind
      obtain ⟨fuel, rfl⟩ : ∃ n, fuel = n + 1 := Nat.exists_eq_succ_of_ne_zero (by omega)
      have hkind := reads_kindReader kind hown hnested
        (show (kindToJson kind).depth ≤ fuel by omega)
      cases slot with
      | none =>
        rw [toJson]
        exact reads_record
          (.cons (takes_field rfl rfl origin.reads)
          (.cons (takes_field rfl rfl hkind)
          (.nil _))) rfl
      | some slot =>
        rw [toJson]
        exact reads_record
          (.cons (takes_field rfl rfl origin.reads)
          (.cons (takes_field rfl rfl slot.reads_option)
          (.cons (takes_field rfl rfl hkind)
          (.nil _)))) rfl

theorem reads_kindReader {origin : NodeId} {slot : Option SlotId} :
    ∀ (k : StatementKind) {fuel : Nat},
    (∀ e ∈ (mk origin slot k).expressions, ∀ x ∈ e.doubles, Legible x) → LegibleIn (walkKind k) →
    (kindToJson k).depth ≤ fuel → Reads (kindReader (array (readerFrom fuel))) (kindToJson k) k
  | .setMember v e, _, hown, _, _ =>
      reads_tagged (.inr rfl) (reads_twoFields (by decide) v.reads
        (Expr.reads (hown e List.mem_cons_self)))
  | .setLocal i e, _, hown, _, _ =>
      reads_tagged (.inr rfl) (reads_twoFields (by decide) (reads_position i)
        (Expr.reads (hown e List.mem_cons_self)))
  | .cond c t e, fuel, hown, hnested, hdepth => by
      rw [kindToJson, depth_tagged] at hdepth
      simp only [Json.depth, Json.fieldsDepth] at hdepth
      obtain ⟨hthen, helse⟩ := List.forall_mem_append.mp hnested
      have ht := reads_body t hthen (show Json.itemsDepth (bodyToJson t) ≤ fuel by omega)
      have he := reads_body e helse (show Json.itemsDepth (bodyToJson e) ≤ fuel by omega)
      exact reads_tagged (.inr rfl) (reads_threeFields (by decide)
        (Expr.reads (hown c List.mem_cons_self)) (reads_bodyToJson ht) (reads_bodyToJson he))
  | .loop c b, fuel, hown, hnested, hdepth => by
      rw [kindToJson, depth_tagged] at hdepth
      simp only [Json.depth, Json.fieldsDepth] at hdepth
      have hb := reads_body b hnested (show Json.itemsDepth (bodyToJson b) ≤ fuel by omega)
      exact reads_tagged (.inr rfl) (reads_twoFields (by decide)
        (Expr.reads (hown c List.mem_cons_self)) (reads_bodyToJson hb))
  | .call f args results, _, hown, _, _ =>
      reads_tagged (.inr rfl) (reads_threeFields (by decide) f.reads (reads_args hown)
        (reads_results results))
  | .fire out args results, _, hown, _, _ =>
      reads_tagged (.inr rfl) (reads_threeFields (by decide) (reads_text _ out) (reads_args hown)
        (reads_results results))
  | .log e, _, hown, _, _ =>
      reads_tagged (.inr rfl) (reads_oneField (Expr.reads (hown e List.mem_cons_self)))
  | .ret vs, _, hown, _, _ => reads_tagged (.inr rfl) (reads_oneField (reads_args hown))
  | .script source, _, _, _, _ => reads_tagged (.inr rfl) (reads_oneField (reads_text _ source))

/-- Bodies come back if there is fuel for their depth. -/
theorem reads_body : ∀ (body : List Statement) {fuel : Nat}, LegibleIn (walkAll body) →
    Json.itemsDepth (bodyToJson body) ≤ fuel → ∀ s ∈ body, Reads (readerFrom fuel) s.toJson s
  | [], _, _, _ => List.forall_mem_nil _
  | s :: r, fuel, h, hdepth => by
      rw [bodyToJson, Json.itemsDepth] at hdepth
      obtain ⟨hs, hr⟩ := List.forall_mem_append.mp h
      exact List.forall_mem_cons.mpr
        ⟨reads_readerFrom s hs (by omega), reads_body r hr (by omega)⟩

end

/-- The doubles of a body. -/
def doubles (body : List Statement) : List Float :=
  (walkAll body).flatMap fun s => s.expressions.flatMap Expr.doubles

/-- **A body is read back** where its doubles are. -/
theorem reads_array_reader {body : List Statement} (h : ∀ x ∈ doubles body, Legible x) :
    Reads (array Statement.reader) (.arr (bodyToJson body)) body := by
  have hbody : LegibleIn (walkAll body) := fun s hs e he x hx =>
    h x (List.mem_flatMap.mpr ⟨s, hs, List.mem_flatMap.mpr ⟨e, he, hx⟩⟩)
  have hopens := (reads_bodyToJson (reads_body body hbody (Nat.le_refl _))).opens
  refine reads_of_depth hopens fun hdepth => reads_bodyToJson (reads_body body hbody ?_)
  exact Nat.le_trans (Nat.le_succ _) hdepth

end Statement

end GraphScript
