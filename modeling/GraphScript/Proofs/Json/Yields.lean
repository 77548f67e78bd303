import GraphScript.Document.Model
import GraphScript.Proofs.Keys
import GraphScript.Proofs.Validity

/-!
# Proofs/Json/Yields — what a reader can give

`Yields r Q` says that all that `r` reads has the property `Q`, at any depth and off any text.  A
record is read field by field into a draft, so that an invariant of the draft carries over to the
record (`yields_record`).  For a model this gives tables with pairwise different keys: a text is
accepted only for a valid model with such tables (`Model.ofJson_ok`).
-/

namespace GraphScript

open Json (Fault Reader)

namespace Json.Reader

variable {α β σ : Type} {P : α → Prop} {Q : β → Prop}

/-- All that a reader reads has the property. -/
def Yields (r : Reader α) (P : α → Prop) : Prop :=
  ∀ (levels : Nat) (text : List Char) (a : α) (rest : List Char),
    r levels text = .ok (a, rest) → P a

/-! ## Steps of a reader -/

theorem yields_pure {a : α} (h : P a) : Yields (pure a) P := by
  intro levels text b rest hread
  obtain ⟨rfl, -⟩ : a = b ∧ text = rest := by simpa using Except.ok.inj hread
  exact h

theorem yields_throw (fault : Fault) : Yields (throw fault : Reader α) P := by
  intro levels text a rest hread
  cases hread

/-- What steps yield one after the other, they yield together. -/
theorem yields_bind {r : Reader α} {f : α → Reader β} (hr : Yields r P)
    (hf : ∀ a, P a → Yields (f a) Q) : Yields (r >>= f) Q := by
  intro levels text b rest hread
  change (r levels text >>= fun p => f p.1 levels p.2) = .ok (b, rest) at hread
  cases hfirst : r levels text with
  | error fault =>
    rw [hfirst] at hread
    cases hread
  | ok p =>
    rw [hfirst] at hread
    exact hf p.1 (hr levels text p.1 p.2 hfirst) levels p.2 b rest hread

/-- What the first step reads may not matter. -/
theorem yields_then {r : Reader α} {f : α → Reader β} (hf : ∀ a, Yields (f a) Q) :
    Yields (r >>= f) Q :=
  yields_bind (P := fun _ => True) (fun _ _ _ _ _ => trivial) fun a _ => hf a

/-- Levels take no part in what is yielded. -/
theorem yields_deeper {r : Reader α} (h : Yields r P) : Yields (deeper r) P := by
  intro levels text a rest hread
  unfold deeper at hread
  split at hread
  · cases hread
  · exact h _ _ _ _ hread

theorem yields_ite {c : Prop} [Decidable c] {r s : Reader α} (hr : Yields r P) (hs : Yields s P) :
    Yields (if c then r else s) P := by
  split
  · exact hr
  · exact hs

theorem yields_wrongType (expected : String) : Yields (wrongType expected : Reader α) P := by
  unfold wrongType
  refine yields_then fun next => ?_
  split
  · exact yields_throw _
  · repeat' apply yields_ite
    all_goals first
      | exact yields_throw _
      | exact yields_then fun _ => yields_throw _
      | exact yields_then fun _ => yields_then fun _ => yields_throw _

/-- What a reader yields holds of every document that it accepts. -/
theorem of_decode {r : Reader α} (hr : Yields r P) {text : String} {a : α}
    (h : decode r text = .ok a) : P a := by
  have heq : decode r text = (r levelLimit text.toList).bind fun p =>
      if (skipBlanks p.2).isEmpty then .ok p.1 else .error .trailingCharacters := rfl
  rw [heq] at h
  cases hread : r levelLimit text.toList with
  | error fault =>
    rw [hread] at h
    cases h
  | ok p =>
    rw [hread, Except.bind] at h
    split at h
    · obtain rfl : p.1 = a := Except.ok.inj h
      exact hr _ _ _ _ hread
    · cases h

/-! ## Records -/

/-- An item that is read has what the reader yields. -/
theorem yields_element? {r : Reader α} (h : Yields r P) (isFirst : Bool) :
    Yields (element? isFirst r) fun read => ∀ a, read = some a → P a := by
  have hread : Yields (do return some (← r)) fun read => ∀ a, read = some a → P a :=
    yields_bind h fun a ha => yields_pure fun b hb => Option.some.inj hb ▸ ha
  unfold element?
  refine yields_then fun next => ?_
  split
  · exact yields_throw _
  · split
    · exact yields_pure nofun
    · split
      · split
        · exact yields_throw _
        · refine yields_then fun _ => yields_then fun next => ?_
          split
          · exact yields_throw _
          · split
            · exact yields_throw _
            · exact hread
      · exact hread

variable {I : σ → Prop} {fields : List (Field σ)}

/-- Each field that is read leaves the draft as the invariant wants it. -/
def Keeps (I : σ → Prop) (fields : List (Field σ)) : Prop :=
  ∀ f ∈ fields, Yields f.read fun set => ∀ draft, I draft → I (set draft)

/-- A field that is read keeps the draft as it has to be. -/
theorem yields_fieldStep (hfields : Keeps I fields) {draft : σ} (hdraft : I draft) :
    Yields (fieldStep fields draft) I := by
  unfold fieldStep
  refine yields_then fun _ => yields_then fun name => ?_
  split
  · rename_i f hfind
    split
    · exact yields_throw _
    · refine yields_then fun _ => ?_
      exact yields_bind (hfields f (List.mem_of_find?_eq_some hfind)) fun set hset =>
        yields_pure (hset draft hdraft)
  · exact yields_then fun _ => yields_then fun _ => yields_pure hdraft

theorem yields_fieldsOf {step : σ → Reader σ} (hstep : ∀ draft, I draft → Yields (step draft) I) :
    ∀ (fuel : Nat) (isFirst : Bool) {draft : σ}, I draft →
      Yields (fieldsOf step fuel isFirst draft) I
  | 0, _, _, _ => yields_throw _
  | fuel + 1, isFirst, draft, hdraft => by
      unfold fieldsOf
      refine yields_then fun more => ?_
      split
      · exact yields_bind (hstep draft hdraft) fun next hnext =>
          yields_fieldsOf hstep fuel false hnext
      · exact yields_pure hdraft

theorem yields_objectFrom {step : σ → Reader σ} (hstep : ∀ draft, I draft → Yields (step draft) I)
    {start : σ} (hstart : I start) : Yields (objectFrom start step) I := by
  unfold objectFrom
  refine yields_bind (yields_deeper (yields_then fun _ => yields_then fun _ => ?_))
    fun draft hdraft => yields_then fun _ => yields_pure hdraft
  exact yields_fieldsOf hstep _ true hstart

/-- An array that stands for an object keeps the draft as it has to be. -/
theorem yields_positional (expected : String) :
    ∀ (index : Nat) {fields : List (Field σ)} {draft : σ}, Keeps I fields → I draft →
      Yields (positional expected index fields draft) I
  | _, [], _, _, hdraft => yields_pure hdraft
  | index, f :: fields, draft, hfields, hdraft => by
      obtain ⟨hf, hrest⟩ := List.forall_mem_cons.mp hfields
      unfold positional
      refine yields_bind (yields_element? hf _) fun read hread => ?_
      split
      · exact yields_positional expected (index + 1) hrest (hread _ rfl draft hdraft)
      · split
        · exact yields_throw _
        · exact yields_positional expected (index + 1) hrest hdraft

/-- **A record is built from a draft that has kept the invariant**, however it was written. -/
theorem yields_record {s : Shape σ α} (hstart : I s.start) (hfields : Keeps I s.fields)
    (hbuild : ∀ draft a, I draft → s.build draft = .ok a → P a) : Yields (record s) P := by
  unfold record
  refine yields_then fun next => ?_
  extract_lets finish
  have hend : ∀ draft, I draft → Yields (finish draft) P := by
    intro draft hdraft
    simp only [finish]
    split
    · exact yields_pure (hbuild draft _ hdraft ‹_›)
    · exact yields_throw _
  split
  · exact yields_bind (yields_objectFrom (fun draft => yields_fieldStep hfields) hstart) hend
  · refine yields_bind (yields_deeper (yields_then fun _ => ?_)) fun draft hdraft =>
      yields_then fun _ => yields_bind (yields_pure hdraft) hend
    exact yields_positional _ 0 hfields hstart
  · exact yields_bind (yields_wrongType _) hend

/-- The value of a field is put into the draft. -/
theorem yields_set {r : Reader α} {set : α → σ → σ} (hr : Yields r P)
    (hset : ∀ a, P a → ∀ draft, I draft → I (set a draft)) :
    Yields (do return set (← r)) fun set => ∀ draft, I draft → I (set draft) :=
  yields_bind hr fun a ha => yields_pure (hset a ha)

/-- Setting a field to anything may not matter to the invariant. -/
theorem yields_set_any {r : Reader α} {set : α → σ → σ}
    (hset : ∀ a draft, I draft → I (set a draft)) :
    Yields (do return set (← r)) fun set => ∀ draft, I draft → I (set draft) :=
  yields_then fun a => yields_pure (hset a)

end Json.Reader

/-! ## Models -/

namespace Model

open Json.Reader

/-- Entries that are put into a table leave its keys distinct. -/
theorem nodup_foldl_put {κ α : Type} [DecidableEq κ] : ∀ (read table : List (κ × α)),
    (table.map (·.1)).Nodup →
      ((read.foldl (fun es e => Entries.put es e.1 e.2) table).map (·.1)).Nodup
  | [], _, h => h
  | e :: read, _, h => nodup_foldl_put read _ (Entries.nodup_put h e.1 e.2)

/-- So a table that is read has distinct keys. -/
theorem yields_tableReader {κ α : Type} [DecidableEq κ] (key : Reader κ) (value : Reader α) :
    Yields (tableReader key value) fun table => (table.map (·.1)).Nodup :=
  yields_then fun read => yields_pure (nodup_foldl_put read [] List.nodup_nil)

/-- The tables that were read have pairwise different keys. -/
def Draft.Keyed (d : Draft) : Prop :=
  (∀ table, d.members = some table → (table.map (·.1)).Nodup) ∧
    ∀ table, d.functions = some table → (table.map (·.1)).Nodup

theorem keeps_keyed : Keeps Draft.Keyed shape.fields := by
  refine List.forall_mem_cons.mpr ⟨yields_set_any fun _ _ h => h, ?_⟩
  refine List.forall_mem_cons.mpr ⟨yields_set_any fun _ _ h => h, ?_⟩
  refine List.forall_mem_cons.mpr ⟨yields_set (yields_tableReader _ _) fun table ht d h => ?_, ?_⟩
  · exact ⟨fun _ heq => Option.some.inj heq ▸ ht, h.2⟩
  refine List.forall_mem_cons.mpr ⟨yields_set (yields_tableReader _ _) fun table ht d h => ?_, ?_⟩
  · exact ⟨h.1, fun _ heq => Option.some.inj heq ▸ ht⟩
  exact List.forall_mem_singleton.mpr (yields_set_any fun _ _ h => h)

/-- A model that is built from tables with distinct keys is keyed. -/
theorem keyed_build {d : Draft} {m : Model} (hd : d.Keyed) (h : shape.build d = .ok m) :
    m.Keyed := by
  obtain ⟨name, characteristics, members, functions, outEvents⟩ := d
  cases name <;> cases members <;> cases functions <;> cases h
  exact ⟨hd.1 _ rfl, hd.2 _ rfl⟩

/-- **Models that are read are keyed.** -/
theorem yields_reader : Yields reader Keyed :=
  yields_record ⟨nofun, nofun⟩ keeps_keyed fun _ _ => keyed_build

/-- **A text is accepted for a valid model whose tables have pairwise different keys.** -/
theorem ofJson_ok {text : String} {m : Model} (h : ofJson text = .ok m) : m.Valid ∧ m.Keyed := by
  unfold ofJson at h
  cases hread : Json.Reader.decode reader text with
  | error fault =>
    rw [hread] at h
    cases h
  | ok m' =>
    rw [hread] at h
    dsimp only at h
    split at h
    · rename_i hproblems
      obtain rfl : m' = m := Except.ok.inj h
      exact ⟨isValid_iff.mp (List.isEmpty_iff.mpr hproblems), of_decode yields_reader hread⟩
    · cases h

end Model

end GraphScript
