import GraphScript.Emit.Native

/-!
# Emit/Header — the native header

The declaration of the native class: entries and out-events are public, helpers and members private.
-/

namespace GraphScript.Emit.Header

open Native

/-- The lines that declare the methods of a kind. -/
def methods (m : Model) (names : Names) (k : FunctionKind) : List Line :=
  (m.functions.filter (·.kind = k)).map fun f => ⟨1, signature names "" f ++ ";", none⟩

/-- The lines that declare the out-events, after an empty line. -/
def outs (m : Model) (names : Names) : List Line :=
  if m.outEvents.isEmpty then []
  else Line.blank :: m.outEvents.map fun out =>
    ⟨1, outType out.params out.returns ++ " " ++ names.out out.name ++ ";", none⟩

/-- The lines that declare the members. -/
def members (m : Model) (names : Names) : List Line :=
  ⟨1, "canvasc::EntityId m_owner;", none⟩ ::
    m.members.map fun v => ⟨1, type v.dataType ++ " " ++ names.member v.id ++ ";", none⟩

/-- The lines of the header. -/
def lines (m : Model) (o : Options) : List Line :=
  let names := Names.ofModel m
  [banner m, ⟨0, "#pragma once", none⟩, Line.blank,
    ⟨0, "#include <functional>", none⟩, ⟨0, "#include <string>", none⟩,
    ⟨0, "#include <tuple>", none⟩,
    ⟨0, "#include \"canvasc/runtime.h\"", none⟩, Line.blank] ++
    openNamespace o ++
    [⟨0, "class " ++ names.className, none⟩, ⟨0, "\x7b", none⟩, ⟨0, "public:", none⟩,
      ⟨1, "explicit " ++ names.className ++ "(const canvasc::RuntimeInputs& inputs);", none⟩] ++
    methods m names .entry ++ outs m names ++ [Line.blank, ⟨0, "private:", none⟩] ++
    methods m names .internal ++ members m names ++ [⟨0, "\x7d;", none⟩, Line.blank] ++
    closeNamespace o

/-- Emits the native header. -/
def emit (m : Model) (o : Options) : Except (List EmitError) Emission := do
  let runtimeInputs ← Emission.inputs m .compiled
  return { text := Code.text o.indentWidth (lines m o), runtimeInputs }

end GraphScript.Emit.Header
