import GraphScript.Document.Datum
import GraphScript.Proofs.Id.Written
import GraphScript.Proofs.Json.Reads
import GraphScript.Proofs.Sorted

/-!
# Proofs/Document/Datum — identifiers and values are read back

Every identifier, type and value is read back from the document it is written as.  Of a value that
holds doubles this needs that their texts are read back, and of a lookup that its keys ascend
(`StaticValue.Ordered`).
-/

namespace GraphScript

open Json (Legible)
open Json.Reader

/-! ## Identifiers -/

/-- A number of 32 bits comes back. -/
theorem reads_word (n : UInt32) {α : Type} (f : UInt32 → α) :
    Reads (do return f (UInt32.ofNat (← unsigned "u32" 32))) (.int n.toNat) (f n) := by
  have h := (reads_unsigned "u32" n.toNat_lt (by decide)).map fun k => f (UInt32.ofNat k)
  rwa [UInt32.ofNat_toNat] at h

theorem reads_doubleWord (n : UInt64) {α : Type} (f : UInt64 → α) :
    Reads (do return f (UInt64.ofNat (← unsigned "u64" 64))) (.int n.toNat) (f n) := by
  have h := (reads_unsigned "u64" n.toNat_lt (by decide)).map fun k => f (UInt64.ofNat k)
  rwa [UInt64.ofNat_toNat] at h

theorem reads_position (n : UInt16) : Reads position (.int n.toNat) n := by
  have h := (reads_unsigned "u16" n.toNat_lt (by decide)).map UInt16.ofNat
  rwa [UInt16.ofNat_toNat] at h

theorem NodeId.reads (n : NodeId) : Reads NodeId.reader n.toJson n := reads_word n.val NodeId.mk

theorem SlotId.reads (s : SlotId) : Reads SlotId.reader s.toJson s := reads_word s.val SlotId.mk

/-- A slot that is known is not taken for one that is not. -/
theorem SlotId.reads_option (s : SlotId) : Reads (option SlotId.reader) s.toJson (some s) := by
  refine reads_some s.reads ?_
  obtain ⟨c, tail, hdigits, hc⟩ := exists_digit s.val.toNat
  rw [SlotId.toJson, chars_natCast, hdigits, List.head?_cons]
  intro h
  rw [Option.some.inj h] at hc
  cases hc

theorem FunctionId.reads (f : FunctionId) : Reads FunctionId.reader f.toJson f :=
  reads_word f.val FunctionId.mk

theorem EntityId.reads (e : EntityId) : Reads EntityId.reader e.toJson e :=
  reads_doubleWord e.val EntityId.mk

/-- An identifier comes back from its written form. -/
theorem VariableId.reads (v : VariableId) : Reads VariableId.reader v.toJson v := by
  refine (reads_text "a formatted UUID string" v.hyphenated).bind fun levels rest => ?_
  rw [ofString, ofText_hyphenated]
  rfl

/-! ## Types and values -/

/-- Types come back, an object's with its class. -/
theorem DataType.reads (t : DataType) : Reads DataType.reader t.toJson t := by
  cases t with
  | boolean => exact reads_plain rfl
  | number => exact reads_plain rfl
  | string => exact reads_plain rfl
  | entityId => exact reads_plain rfl
  | object className => exact reads_tagged (.inl rfl) ((reads_text _ className).map DataType.object)

theorem ObjectRef.reads (o : ObjectRef) : Reads ObjectRef.reader o.toJson o :=
  reads_record
    (.cons (takes_field rfl rfl (reads_text _ o.className))
    (.cons (takes_field rfl rfl (reads_doubleWord o.handle id))
    (.nil _))) rfl

namespace Datum

/-- The doubles of a value. -/
def doubles : Datum → List Float
  | .number x => [x]
  | _ => []

/-- **Data come back** whose doubles can be read. -/
theorem reads {d : Datum} (h : ∀ x ∈ d.doubles, Legible x) : Reads Datum.reader d.toJson d := by
  cases d with
  | boolean b => exact reads_tagged (.inl rfl) ((reads_bool b).map boolean)
  | number x =>
    have hx : Legible x := h x (List.mem_singleton.mpr rfl)
    exact reads_tagged (.inl rfl) ((reads_float hx).map number)
  | string s => exact reads_tagged (.inl rfl) ((reads_text _ s).map string)
  | entityId e => exact reads_tagged (.inl rfl) (e.reads.map entityId)
  | object o => exact reads_tagged (.inl rfl) (o.reads.map object)

end Datum

namespace StaticValue

/-- The doubles of a static value. -/
def doubles : StaticValue → List Float
  | .number x => [x]
  | .numberList xs => xs
  | .lookup entries => entries.map (·.2)
  | _ => []

/-- The entries of a lookup are in the order of their keys. -/
def Ordered : StaticValue → Prop
  | .lookup entries => Entries.Sorted entries
  | _ => True

/-- **Static values come back**, lists in their order and tables in the order of their keys. -/
theorem reads {s : StaticValue} (hordered : s.Ordered) (h : ∀ x ∈ s.doubles, Legible x) :
    Reads StaticValue.reader s.toJson s := by
  cases s with
  | number x =>
    have hx : Legible x := h x (List.mem_singleton.mpr rfl)
    exact reads_tagged (.inl rfl) ((reads_float hx).map number)
  | text s => exact reads_tagged (.inl rfl) ((reads_text _ s).map text)
  | numberList xs =>
    have hxs := reads_array fun x hx => reads_float (h x hx)
    exact reads_tagged (.inl rfl) (hxs.map numberList)
  | textList ss =>
    have hss : Reads (array str) (.arr (ss.map .str)) ss :=
      reads_array fun s _ => reads_text "a string" s
    exact reads_tagged (.inl rfl) (hss.map textList)
  | lookup entries =>
    have hentries : Reads (Json.Reader.entries str float) _ entries :=
      reads_entries fun e he => reads_float (h e.2 (List.mem_map_of_mem he))
    have hlookup := hentries.map fun es => lookup (Entries.sorted es)
    rw [hordered.sorted_eq] at hlookup
    exact reads_tagged (.inl rfl) hlookup

end StaticValue

end GraphScript
