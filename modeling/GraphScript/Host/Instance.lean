import GraphScript.Compilation
import GraphScript.Emit.Script
import GraphScript.Host.Vm
import GraphScript.Id.Token
import GraphScript.Text.Quoted

/-!
# Host/Instance — the life of an instance

An instance is known to the host by its number in the machine.  Every operation names the states in
which it is allowed; in others it is refused and changes nothing.
-/

namespace GraphScript

open Script (Value Table)
open Machine (Run)

/-- The name of a state's form. -/
def InstanceState.formName : InstanceState → String
  | .uninitialized => "Uninitialized"
  | .activated => "Activated"
  | .running => "Running"
  | .suspended => "SuspendedOnOut"
  | .unloaded => "Unloaded"

namespace Instance

/-- An instance described. -/
def describe (i : Instance) : String :=
  "GraphInstance \x7b " ++ s!"chunk: {Text.quoted i.chunk}, state: {i.state.formName}, " ++
    s!"owner: EntityId({i.owner.val.toNat})" ++ " \x7d"

/-- The instance of a number. -/
def get? (vm : Vm) (number : Nat) : Option Instance := vm.machine.instances[number]?

/-- The instance of a number, for an operation that is allowed in some states. -/
def require (number : Nat) (operation : String) (allowed : List InstanceState) : Op Instance := do
  match get? (← get) number with
  | none => throw (.lifecycle operation .unloaded)
  | some i => if i.state ∈ allowed then return i else throw (.lifecycle operation i.state)

/-- Changes an instance. -/
def change (number : Nat) (f : Instance → Instance) : Op Unit := modify fun vm =>
  { vm with machine := vm.machine.changeInstance number f }

/-- Prepares an instance of what was emitted, and gives its number. -/
def prepare (o : Output) (owner : EntityId) : Op Nat := do
  if o.target ≠ .lua then throw (.vm s!"cannot interpret a '{o.target}' translation")
  if o.runtimeInputs.executionMode ≠ .interpreted then
    throw (.wrongExecutionMode o.runtimeInputs.executionMode)
  let vm ← get
  let i : Instance := {
    owner
    interface := o.interface
    chunk := Emit.Script.chunkName o.interface.name
    text := o.text
    inputs := o.runtimeInputs
    debugMap := o.debugMap }
  set { vm with machine := { vm.machine with instances := vm.machine.instances.push i } }
  return vm.machine.instances.size

/-- Adds the node that a failure came from, if the build asks for it. -/
def located (vm : Vm) (i : Instance) (message : String) : String :=
  if vm.build.policy.annotatesErrors then
    match i.debugMap.resolve? i.chunk message with
    | some (line, s) => message ++ s!"\n  at node {s.node} in '{s.function}' (line {line})"
    | none => message
  else message

/-- Calls what lies below some arguments on behalf of an instance. -/
def annotatedCall (i : Instance) (argCount returnCount : Nat) : Op Unit :=
  tryCatch (Vm.safeCall argCount returnCount) fun e => do
    match e with
    | .runtime message => throw (.runtime (located (← get) i message))
    | e => throw e

/-- What is wrong with the host objects given to an instance. -/
def nodeableFault? (number : Nat) : List NodeableInput → List ObjectRef → Option HostError
  | n :: ns, o :: os =>
    if n.className = o.className then nodeableFault? (number + 1) ns os
    else some (.typeMismatch number (toString (DataType.object n.className))
      (toString (DataType.object o.className)))
  | _, _ => none

/-- An entity, or the owner where it stands for the owner. -/
def resolveOwner (owner e : EntityId) : EntityId := if e.isGraphOwner then owner else e

/-- The data that an instance is built from, by the identifiers of its variables. -/
def inputData (i : Instance) (nodeables : List ObjectRef) : List (VariableId × Datum) :=
  i.inputs.values ++
    i.inputs.entityIds.map (fun e => (e.1, .entityId (resolveOwner i.owner e.2))) ++
    (i.inputs.nodeables.zip nodeables).map fun e => (e.1.id, .object e.2)

/-- Enters what variables start with into a table, under their tokens. -/
def enter {α : Type} (embed : Machine → α → Value × Machine) (m : Machine) (t : Table) :
    List (VariableId × α) → Table × Machine
  | [] => (t, m)
  | (id, a) :: rest =>
    let (v, m) := embed m a
    enter embed m (t.set (.str id.token.toUTF8) v) rest

/-- The table that the constructor of an instance is given. -/
def inputsTable (i : Instance) (nodeables : List ObjectRef) (m : Machine) : Table × Machine :=
  let (t, m) := enter Machine.embed m {} (i.inputData nodeables)
  enter Machine.embedStatic m t i.inputs.statics

/-- What a table holds under a name. -/
def entryOf (t : Value) (name : String) : Op Value := do
  let budget := (← get).budget
  Vm.run .vm (Run.index ⟨"?", 0, [], [], 0⟩ 0 (.ofText name) budget t)

/-- Whether a value is a table. -/
def isTable : Value → Bool
  | .table _ => true
  | _ => false

/-- Loads the script of an instance and runs its constructor. -/
def activate (number : Nat) (nodeables : List ObjectRef) : Op Unit := do
  let i ← require number "activate" [.uninitialized]
  let expected := i.inputs.nodeables
  if nodeables.length ≠ expected.length then
    throw (.nodeableCount expected.length nodeables.length)
  if let some e := nodeableFault? 1 expected nodeables then throw e
  modify fun vm => vm.activate.2
  let classTable ← Vm.evalChunk i.chunk i.text
  if !isTable classTable then
    throw (.load i.chunk s!"chunk returned {classTable.hostType}, not a class table")
  let constructor ← entryOf classTable "new"
  change number fun i => { i with classTable := some classTable, state := .activated }
  let vm ← get
  let (t, machine) := i.inputsTable nodeables vm.machine
  let inputs : Value := .table machine.tables.size
  let (state, machine) := { machine with tables := machine.tables.push t }.embedState number
  set { vm with machine }
  Vm.pushValue constructor
  Vm.pushValue state
  Vm.pushValue inputs
  annotatedCall i 2 1
  let object ← Vm.readValue (-1)
  Vm.pop 1
  if !isTable object then throw (.load i.chunk s!"constructor returned {object.hostType}")
  change number fun i => { i with object := some object, state := .running }

/-- Prepares an instance and activates it. -/
def instantiate (o : Output) (owner : EntityId) (nodeables : List ObjectRef) : Op Nat := do
  let number ← prepare o owner
  activate number nodeables
  return number

/-- What is wrong with the arguments of an entry. -/
def argFault? (number : Nat) : List Param → List Datum → Option HostError
  | p :: ps, d :: ds =>
    if d.isA p.dataType then argFault? (number + 1) ps ds
    else some (.typeMismatch number (toString p.dataType) (toString d.dataType))
  | _, _ => none

/-- Reads results off the stack, the deepest first. -/
def readResults : List Param → Op (List Datum)
  | [] => return []
  | p :: ps => do
    let d ← Vm.read (-(ps.length + 1 : Nat)) p.dataType
    return d :: (← readResults ps)

/-- Calls an entry. -/
def callIn (number : Nat) (name : String) (args : List Datum) : Op (List Datum) := do
  let operation := "call an In function"
  let i ← require number operation [.running]
  let some signature := i.interface.findIn? name | throw (.unknownIn name)
  if args.length ≠ signature.params.length then
    throw (.argumentCount name signature.params.length args.length)
  if let some e := argFault? 1 signature.params args then throw e
  let some classTable := i.classTable | throw (.lifecycle operation i.state)
  let some object := i.object | throw (.lifecycle operation i.state)
  Vm.pushValue (← entryOf classTable name)
  Vm.pushValue object
  args.forM Vm.push
  annotatedCall i (args.length + 1) signature.returns.length
  let results ← observing (readResults signature.returns)
  Vm.pop signature.returns.length
  match results with
  | .ok ds => return ds
  | .error e => throw e

/-- Binds a handler to an out-event. -/
def bindOut (number : Nat) (key : String) (mode : OutMode) (c : Callable) : Op Unit := do
  let i ← require number "bind an out-event" [.uninitialized, .activated, .running]
  if (i.interface.findOut? key).isNone then throw (.unknownOut key)
  change number fun i => { i with bindings := Entries.put i.bindings key ⟨mode, c.function⟩ }

/-- The states in which the stack may be used through an instance. -/
def stackStates : List InstanceState := [.activated, .running]

/-- Pushes a datum through an instance. -/
def push (number : Nat) (d : Datum) : Op Unit := do
  let _ ← require number "push onto the stack" stackStates
  Vm.push d

/-- Reads the stack through an instance. -/
def read (number : Nat) (index : Int) (t : DataType) : Op Datum := do
  let _ ← require number "read the stack" stackStates
  Vm.read index t

/-- Calls through an instance. -/
def safeCall (number : Nat) (argCount returnCount : Nat) : Op Unit := do
  let i ← require number "call" stackStates
  annotatedCall i argCount returnCount

/-- Ends the life of an instance. -/
def unload (number : Nat) : Op Unit := do
  let _ ← require number "unload" [.uninitialized, .activated, .running, .suspended]
  change number fun i =>
    { i with classTable := none, object := none, bindings := [], state := .unloaded }

end Instance

end GraphScript
