import GraphScript.Host.Error
import GraphScript.Machine.Run
import GraphScript.Script.Chunk
import GraphScript.Settings

/-!
# Host/Vm — a machine and its stack of values

The host pushes values, calls what lies below them, and reads what the call left.  A call that fails
takes the function and its arguments off the stack like one that succeeds, and leaves nothing.

All operations are on one machine.  A `Callable` does not say which machine it was made in: it stands
for a function of the machine that it is used with, so that looking it up cannot fail.  A host that
keeps several machines and hands a function of one to another, which is refused because the function
cannot be found there, is out of scope.
-/

namespace GraphScript

open Script (Value)
open Machine (Failure Outcome Run)

/-- A machine as the host uses it. -/
structure Vm where
  machine : Machine
  /-- The values of the stack, the bottom first. -/
  stack : List Value := []
  activated : Bool := false
  limit : Option UInt64 := none
  /-- The fuel of a run.  Scripts run without such a bound: what takes more is left open. -/
  budget : Nat := 1000000000

/-- An operation of the host. -/
abbrev Op (α : Type) := ExceptT HostError (StateM Vm) α

/-- A function that the host can call and bind, in the machine where it was made. -/
structure Callable where
  function : Value

namespace Vm

/-- A machine in the debug build without a limit. -/
def new (hookInterval : UInt32) : Vm := { machine := Machine.fresh (max hookInterval.toNat 1) }

/-- The build that scripts run under. -/
def build (vm : Vm) : Build := vm.machine.build

/-- The limit, if the build enforces it. -/
def enforcedLimit (vm : Vm) : Option Nat :=
  if vm.build.policy.limitsInstructions then vm.limit.map (·.toNat) else none

/-- Lets the meter enforce the limit. -/
def installLimit (vm : Vm) : Vm :=
  { vm with machine := { vm.machine with meter := vm.machine.meter.install vm.enforcedLimit } }

/-- Changes the build. -/
def setBuild (vm : Vm) (b : Build) : Vm :=
  { vm with machine := { vm.machine with build := b } }.installLimit

/-- Changes the limit. -/
def setLimit (vm : Vm) (limit : Option UInt64) : Vm := { vm with limit }.installLimit

/-- Offers the services of the host to scripts, once; tells whether this was the time. -/
def activate (vm : Vm) : Bool × Vm :=
  if vm.activated then (false, vm)
  else (true, { vm with activated := true, machine := vm.machine.offerServices })

/-- The machine described. -/
def describe (vm : Vm) : String :=
  let limit := Settings.describeOption (fun n => toString n.toNat) vm.limit
  "ScriptVm \x7b " ++ s!"mode: {vm.build.formName}, activated: {vm.activated}, " ++
    s!"stack_len: {vm.stack.length}, instruction_limit: {limit}" ++ " \x7d"

/-! ## The stack -/

/-- Pushes a value. -/
def pushValue (v : Value) : Op Unit := modify fun vm => { vm with stack := vm.stack ++ [v] }

/-- Pushes a datum. -/
def push (d : Datum) : Op Unit := do
  let vm ← get
  let (v, machine) := vm.machine.embed d
  set { vm with machine }
  pushValue v

/-- Pushes a function. -/
def pushCallable (c : Callable) : Op Unit := pushValue c.function

/-- The place of an index in a stack of some length.  Positive indices count from the bottom,
negative ones from the top. -/
def slot? (length : Nat) (index : Int) : Option Nat :=
  if 0 < index then
    if index.toNat ≤ length then some (index.toNat - 1) else none
  else if index < 0 then
    if index.natAbs ≤ length then some (length - index.natAbs) else none
  else none

/-- The value at an index. -/
def readValue (index : Int) : Op Value := do
  let stack := (← get).stack
  match slot? stack.length index with
  | some i => return stack.getD i .nil
  | none => throw (.invalidIndex index stack.length)

/-- The datum of a type at an index. -/
def read (index : Int) (t : DataType) : Op Datum := do
  match (← readValue index).toDatum t with
  | .ok d => return d
  | .error found => throw (.typeMismatch index (toString t) found)

/-- Takes the top values off, and gives them with the lowest first. -/
def take (count : Nat) : Op (List Value) := do
  let vm ← get
  let available := vm.stack.length
  if available < count then throw (.stackUnderflow count available)
  set { vm with stack := vm.stack.take (available - count) }
  return vm.stack.drop (available - count)

/-- Takes the top values off. -/
def pop (count : Nat) : Op Unit := do
  let _ ← take count

/-! ## Calls -/

/-- A failure as the build wants it reported. -/
def failureText (vm : Vm) (e : Failure) : String :=
  if vm.build.policy.keepsTraceback then e.text else e.brief

/-- Runs something in the machine; `onFailure` tells how a failure is reported. -/
def run {α : Type} (onFailure : String → HostError) (r : Run α) : Op α := do
  let vm ← get
  match r vm.machine with
  | .done a machine =>
    set { vm with machine }
    return a
  | .failed e machine =>
    set { vm with machine }
    throw (onFailure (vm.failureText e))
  | .exhausted machine =>
    set { vm with machine }
    throw .unfinished

/-- Starts to count instructions anew. -/
def resetMeter : Op Unit := modify fun vm =>
  { vm with machine := { vm.machine with meter := { vm.machine.meter with used := 0 } } }

/-- Calls what lies below some arguments, and leaves as many results as asked for. -/
def safeCall (argCount returnCount : Nat) : Op Unit := do
  let values ← take (argCount + 1)
  let callee := values.headD .nil
  if !callee.isFunction then throw (.notCallable callee.hostType)
  resetMeter
  let budget := (← get).budget
  let results ← run .runtime (Run.call budget [] 0 callee (values.drop 1))
  modify fun vm => { vm with stack := vm.stack ++ Value.fit returnCount results }

/-! ## Loading -/

/-- The first value that a script returns. -/
def evalChunk (name source : String) : Op Value := do
  match Script.Chunk.zeroAt? name with
  | some i =>
    throw (.load name (Failure.runtimeText
      s!"invalid name: nul byte found in provided data at position: {i}"))
  | none =>
    match Script.Chunk.parse source with
    | .error f => throw (.load name (Script.Chunk.faultText name f))
    | .ok body =>
      let budget := (← get).budget
      let closure : Script.Closure := ⟨.mk 0 [] true body, [], Script.Chunk.shownName name⟩
      let values ← run (.load name) do
        let main ← Run.newClosure closure
        Run.call budget [] 0 main []
      return values.headD .nil

/-- Pushes the first value that a script returns. -/
def loadChunk (name source : String) : Op Unit := do pushValue (← evalChunk name source)

/-- Makes a function of the host callable. -/
def createCallable (f : HostFunction) : Op Callable := do
  let vm ← get
  let machine := vm.machine
  set { vm with machine := { machine with callables := machine.callables.push f } }
  return ⟨.callable machine.callables.size⟩

/-- The function that a script returns. -/
def loadCallable (name source : String) : Op Callable := do
  let v ← evalChunk name source
  if v.isFunction then return ⟨v⟩ else throw (.notCallable v.hostType)

end Vm

end GraphScript
