import GraphScript.Json.Reader

/-!
# Options — choices about emitted text
-/

namespace GraphScript

open Json (Reader)

/-- Choices for everything emitted in one request. -/
structure Options where
  /-- A comment with the node's number stands above each statement. -/
  nodeComments : Bool := false
  /-- Blanks per level. -/
  indentWidth : Nat := 4
  /-- Targets may be emitted side by side. -/
  parallel : Bool := false
  /-- The namespace around native text. -/
  nativeNamespace : String := "canvas"
  deriving DecidableEq, Inhabited, Repr

namespace Options

/-- Options as JSON. -/
def toJson (o : Options) : Json :=
  .obj [("emit_node_comments", .bool o.nodeComments), ("indent_width", .int o.indentWidth),
    ("parallel", .bool o.parallel), ("native_namespace", .str o.nativeNamespace)]

/-- Options being read. -/
structure Draft where
  nodeComments : Option Bool := none
  indentWidth : Option Nat := none
  parallel : Option Bool := none
  nativeNamespace : Option String := none

/-- The form of options; whatever is left out has its usual value. -/
def shape : Reader.Shape Draft Options where
  title := "struct TranslationConfig"
  start := {}
  fields := [
    Reader.optional "emit_node_comments" Reader.bool (·.nodeComments)
      (fun v d => { d with nodeComments := some v }),
    Reader.optional "indent_width" (Reader.unsigned "usize" 64) (·.indentWidth)
      (fun v d => { d with indentWidth := some v }),
    Reader.optional "parallel" Reader.bool (·.parallel) (fun v d => { d with parallel := some v }),
    Reader.optional "native_namespace" Reader.str (·.nativeNamespace)
      (fun v d => { d with nativeNamespace := some v })]
  build d :=
    let usual : Options := {}
    .ok {
      nodeComments := d.nodeComments.getD usual.nodeComments
      indentWidth := d.indentWidth.getD usual.indentWidth
      parallel := d.parallel.getD usual.parallel
      nativeNamespace := d.nativeNamespace.getD usual.nativeNamespace }

/-- Reads options. -/
def reader : Reader Options := Reader.record shape

end Options

end GraphScript
