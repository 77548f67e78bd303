import GraphScript.Model

/-!
# Names — identifiers in emitted text

Names in a graph are free text.  An emitted identifier is a mark that tells what it names, followed
by the name with every character that cannot stand in an identifier replaced; if it is taken, the
first free number from two on is appended.  The marks keep identifiers of different kinds apart from
each other and from every word of the target languages.
-/

namespace GraphScript

/-- A name as it can stand in an identifier. -/
def cleanName (name : String) : String :=
  if name.isEmpty then "unnamed"
  else name.map fun c => if c.isAlphanum || c == '_' then c else '_'

namespace Names

/-- The spellings to try for an identifier, in order. -/
def candidate (base : String) : Nat → String
  | 0 => base
  | n + 1 => s!"{base}_{n + 2}"

/-- The first spelling that is not taken; among one more than there are taken, one is free. -/
def reserve (used : List String) (base : String) : String :=
  (((List.range (used.length + 1)).map (candidate base)).find? (· ∉ used)).getD base

/-- Reserves identifiers one after the other. -/
def reserveAll (used : List String) : List String → List String
  | [] => []
  | base :: rest =>
    let name := reserve used base
    name :: reserveAll (name :: used) rest

/-- The identifiers of a function, its parameters and its locals. -/
structure Function where
  name : String
  params : List String
  locals : List String
  deriving DecidableEq, Inhabited, Repr

end Names

/-- The identifiers of a model, each next to what it names, in the order of declaration. -/
structure Names where
  className : String
  members : List (VariableId × String)
  outs : List (String × String)
  functions : List (FunctionId × Names.Function)
  deriving Repr

namespace Names

/-- The mark of a function. -/
def functionMark : FunctionKind → String
  | .entry => "in_"
  | .internal => "fn_"

/-- What the identifiers of a model are made from, in the order in which they are reserved. -/
def bases (m : Model) : List String :=
  ("cls_" ++ cleanName m.name) ::
    m.members.map (fun v => "m_" ++ cleanName v.name) ++
    m.outEvents.map (fun o => "out_" ++ cleanName o.name) ++
    m.functions.map (fun f => functionMark f.kind ++ cleanName f.name)

/-- What the identifiers inside a function are made from. -/
def localBases (f : FunctionDef) : List String :=
  f.params.map (fun p => "p_" ++ cleanName p.name) ++
    f.locals.map (fun l => "l_" ++ cleanName l.name)

/-- The identifiers of a function, given its own. -/
def ofFunction (name : String) (f : FunctionDef) : Function :=
  let inner := reserveAll [] (localBases f)
  ⟨name, inner.take f.params.length, inner.drop f.params.length⟩

/-- The identifiers of a model. -/
def ofModel (m : Model) : Names :=
  let all := reserveAll [] (bases m)
  let rest := all.drop 1
  let vars := m.members
  let afterVars := rest.drop vars.length
  let afterOuts := afterVars.drop m.outEvents.length
  { className := all.headD ""
    members := (vars.zip rest).map fun e => (e.1.id, e.2)
    outs := (m.outEvents.zip afterVars).map fun e => (e.1.name, e.2)
    functions := (m.functions.zip afterOuts).map fun e => (e.1.id, ofFunction e.2 e.1) }

/-- The last entry under a key. -/
def last? {κ α : Type} [DecidableEq κ] (entries : List (κ × α)) (k : κ) : Option α :=
  Entries.get? entries.reverse k

/-- The identifier of a variable. -/
def member? (n : Names) (id : VariableId) : Option String := last? n.members id

/-- The identifier of an out-event. -/
def out? (n : Names) (name : String) : Option String := last? n.outs name

/-- The identifiers of a function. -/
def function? (n : Names) (id : FunctionId) : Option Function := last? n.functions id

/-- The identifier of a variable, or a placeholder. -/
def member (n : Names) (id : VariableId) : String := (n.member? id).getD "m_unknown"

/-- The identifier of an out-event, or a placeholder. -/
def out (n : Names) (name : String) : String := (n.out? name).getD "out_unknown"

end Names

end GraphScript
