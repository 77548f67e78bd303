import GraphScript.Emit
import GraphScript.Options

/-!
# Emit/Native — what native source and header share

Both halves of the native class take types, signatures and identifiers from here, so that what one
declares the other defines.
-/

namespace GraphScript.Emit.Native

/-- The native type of a value. -/
def type : DataType → String
  | .boolean => "bool"
  | .number => "double"
  | .string => "std::string"
  | .entityId => "canvasc::EntityId"
  | .object className => "canvasc::ObjectHandle /* " ++ cleanName className ++ " */"

/-- Types with commas between them. -/
def types (ps : List Param) : String := ", ".intercalate (ps.map fun p => type p.dataType)

/-- The type of the results of a function. -/
def returnType : List Param → String
  | [] => "void"
  | [p] => type p.dataType
  | ps => "std::tuple<" ++ types ps ++ ">"

/-- The type of an out-event's member. -/
def outType (params returns : List Param) : String :=
  "std::function<" ++ returnType returns ++ "(" ++ types params ++ ")>"

/-- The identifier of a method. -/
def methodName (names : Names) (f : FunctionDef) : String :=
  ((names.function? f.id).map (·.name)).getD ("fn_" ++ cleanName f.name)

/-- The signature of a method, after a qualifier for its name. -/
def signature (names : Names) (qualifier : String) (f : FunctionDef) : String :=
  match names.function? f.id with
  | none => ""
  | some own =>
    let params := (f.params.zip own.params).map fun (p, name) => type p.dataType ++ " " ++ name
    returnType f.returns ++ " " ++ qualifier ++ methodName names f ++ "(" ++
      ", ".intercalate params ++ ")"

/-- The lines that open the namespace, if there is one. -/
def openNamespace (o : Options) : List Line :=
  if o.nativeNamespace.isEmpty then []
  else [⟨0, "namespace " ++ o.nativeNamespace ++ " \x7b", none⟩, Line.blank]

/-- The line that closes the namespace, if there is one. -/
def closeNamespace (o : Options) : List Line :=
  if o.nativeNamespace.isEmpty then []
  else [⟨0, "\x7d // namespace " ++ o.nativeNamespace, none⟩]

/-- The comment at the top. -/
def banner (m : Model) : Line := ⟨0, "// " ++ m.name ++ ": generated by canvasc, do not edit", none⟩

end GraphScript.Emit.Native
