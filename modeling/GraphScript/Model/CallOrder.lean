import GraphScript.Model

/-!
# Model/CallOrder — callees before callers

The functions of a model form a graph with an edge from each function to those that call it.  The
order of the functions comes from a depth-first search: a function is listed when the search leaves
it for good, and the list is read backwards.  A second search against the edges then looks for a
function that can be reached from a function listed after it, which is the mark of a cycle.
-/

namespace GraphScript

/-- The functions of a model by position and, most recent first, the pairs of a callee and its
caller. -/
structure CallGraph where
  functions : List FunctionId
  edges : List (Nat × Nat)
  deriving Repr

namespace CallGraph

/-- The last position at which a function stands. -/
def position? (functions : List FunctionId) (id : FunctionId) : Option Nat :=
  (functions.zipIdx.reverse.find? fun e => e.1 = id).map (·.2)

/-- The functions that a function calls, in the order of its text. -/
def callees (f : FunctionDef) : List FunctionId :=
  (Statement.walkAll f.body).filterMap fun s =>
    match s.kind with
    | .call id _ _ => some id
    | _ => none

/-- Adds an edge, if it is not there yet. -/
def addEdge (edges : List (Nat × Nat)) (e : Nat × Nat) : List (Nat × Nat) :=
  if edges.contains e then edges else e :: edges

/-- The calls of a model. -/
def ofModel (m : Model) : CallGraph :=
  let functions := m.functions.map (·.id)
  let calls := m.functions.flatMap fun f => (callees f).map fun callee => (callee, f.id)
  let edges := calls.foldl (fun edges (callee, caller) =>
    match position? functions callee, position? functions caller with
    | some i, some j => addEdge edges (i, j)
    | _, _ => edges) []
  ⟨functions, edges⟩

/-- The callers of a function, by position, most recent edge first. -/
def callers (g : CallGraph) (i : Nat) : List Nat :=
  g.edges.filterMap fun e => if e.1 = i then some e.2 else none

/-- The callees of a function, by position, most recent edge first. -/
def calleesAt (g : CallGraph) (i : Nat) : List Nat :=
  g.edges.filterMap fun e => if e.2 = i then some e.1 else none

/-- A depth-first search under way: what was discovered, what is still to be looked at, and what was
left for good, last first. -/
structure Search where
  discovered : List Nat
  stack : List Nat
  finished : List Nat
  deriving Repr

/-- What follows a step of a search. -/
inductive Step where
  | more (s : Search)
  | done
  /-- The function at this position calls itself. -/
  | selfCall (i : Nat)

/-- Looks at the top of the stack: the first time its callers are put on the stack, the next time it
is left. -/
def Search.step (g : CallGraph) (s : Search) : Step :=
  match s.stack with
  | [] => .done
  | i :: rest =>
    if i ∉ s.discovered then
      let next := g.callers i
      if i ∈ next then .selfCall i
      else
        let discovered := i :: s.discovered
        let fresh := next.filter (· ∉ discovered)
        .more { s with discovered, stack := fresh.reverse ++ s.stack }
    else
      .more { s with
        stack := rest
        finished := if i ∈ s.finished then s.finished else i :: s.finished }

/-- Steps until the stack is empty; `fuel` bounds their number. -/
def Search.run (g : CallGraph) : Nat → Search → Except Nat Search
  | 0, s => .ok s
  | fuel + 1, s =>
    match s.step g with
    | .more s => run g fuel s
    | .done => .ok s
    | .selfCall i => .error i

/-- More steps than a search from one function can take: each function is discovered once, each edge
puts one entry on the stack, and each entry is taken off once. -/
def stepBound (g : CallGraph) : Nat := g.functions.length + g.edges.length + 2

/-- Searches from every function in turn. -/
def search (g : CallGraph) : Except Nat (List Nat) := do
  let s ← (List.range g.functions.length).foldlM (fun (s : Search) i =>
    if i ∈ s.discovered then .ok s else { s with stack := [i] }.run g g.stepBound) ⟨[], [], []⟩
  return s.finished

/-- The functions met against the edges, in order, starting from those on the stack; `fuel` bounds
the steps. -/
def explore (g : CallGraph) : Nat → List Nat → List Nat → List Nat
  | 0, _, _ => []
  | _ + 1, _, [] => []
  | fuel + 1, discovered, i :: stack =>
    if i ∈ discovered then explore g fuel discovered stack
    else
      let discovered := i :: discovered
      let fresh := (g.calleesAt i).filter (· ∉ discovered)
      i :: explore g fuel discovered (fresh.reverse ++ stack)

/-- Checks an order: no function may reach one that was not met before. -/
def check (g : CallGraph) : List Nat → List Nat → Except Nat Unit
  | _, [] => .ok ()
  | discovered, i :: rest =>
    match explore g g.stepBound discovered [i] with
    | _ :: j :: _ => .error j
    | met => check g (met ++ discovered) rest

/-- The positions in an order that puts callees first, or a position that a cycle was found at. -/
def order (g : CallGraph) : Except Nat (List Nat) := do
  let positions ← g.search
  g.check [] positions
  return positions

end CallGraph

/-- The functions of a model, callees before their callers, or the identifier of a function that a
cycle of calls was found at. -/
def Model.callOrder (m : Model) : Except FunctionId (List FunctionId) :=
  let g := CallGraph.ofModel m
  let idAt (i : Nat) : FunctionId := g.functions.getD i default
  match g.order with
  | .ok positions => .ok (positions.map idAt)
  | .error i => .error (idAt i)

end GraphScript
