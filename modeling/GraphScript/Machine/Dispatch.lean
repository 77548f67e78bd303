import GraphScript.Machine.Marshal
import GraphScript.Text.Numeral

/-!
# Machine/Dispatch — the services that scripts call

A script fires out-events, logs, and asks for entities.  How a handler is called is a parameter of
`fire`: a firing checks its arguments if the build asks for it, calls the handler once, restores the
state of the instance whatever became of the call, and records what was passed and answered.
-/

namespace GraphScript.Machine

open Script (Value)

/-- What the host reports in its own words. -/
def Run.complain {α : Type} (frames : List Frame) (reason : String) : Run α :=
  .report frames (Failure.runtimeText reason)

/-- What the host reports about bytes that are no text. -/
def notText (fault : Text.Utf8.Fault) : String :=
  s!"error converting Lua string to &str ({fault.message})"

namespace Dispatch

/-- The instance that a value refers to. -/
def instanceOf (frames : List Frame) : Value → Run Nat
  | .host _ (.state n) => pure n
  | .host _ _ => .complain frames "expected execution state"
  | v => .complain frames s!"expected execution state, got {v.hostType}"

/-- The key of an out-event. -/
def keyOf (frames : List Frame) : Value → Run String
  | .str bytes =>
    match Value.textOf? bytes with
    | some s => pure s
    | none => .report frames (notText ((Text.Utf8.fault? bytes).getD (.cut 0)))
  | v => .complain frames s!"out key must be a string, got {v.hostType}"

/-- What is wrong with the arguments of a firing. -/
def argFault? (signature : Signature) (args : List Value) : Option String :=
  if args.length ≠ signature.params.length then
    some (s!"out '{signature.name}' expects {signature.params.length} arguments, " ++
      s!"got {args.length}")
  else
    (signature.params.zip args).findSome? fun e =>
      match e.2.toDatum e.1.dataType with
      | .ok _ => none
      | .error found =>
        some (s!"out '{signature.name}' argument '{e.1.name}' expects {e.1.dataType}, " ++
          s!"got {found}")

/-- The data of declared results, or what is wrong with the first that has none. -/
def resultData (key : String) : List (Param × Value) → Except String (List Datum)
  | [] => .ok []
  | (p, v) :: rest =>
    match v.toDatum p.dataType with
    | .error found => .error s!"out '{key}' returned {found} for '{p.name}' ({p.dataType})"
    | .ok d =>
      match resultData key rest with
      | .ok ds => .ok (d :: ds)
      | .error e => .error e

/-- Adds a record to an instance. -/
def record (number : Nat) (r : OutRecord) : Run Unit :=
  .change fun m => m.changeInstance number fun i => { i with records := i.records ++ [r] }

/-- Takes over what a handler returned. -/
def accept (frames : List Frame) (number : Nat) (signature : Signature) (key : String)
    (mode : OutMode) (args returned : List Value) : Run (List Value) :=
  let recorded := args.map Value.datum?
  match mode with
  | .immediate => do
    record number ⟨key, mode, recorded, []⟩
    return []
  | .result | .userSubgraph => do
    let values := Value.fit signature.returns.length returned
    match resultData key (signature.returns.zip values) with
    | .error reason => .complain frames reason
    | .ok results =>
      record number ⟨key, mode, recorded, results⟩
      return values

/-- Runs the handler of an instance's out-event while the instance is suspended, and takes over
what it returned. -/
def handle (invoke : Value → List Value → Run (List Value)) (frames : List Frame) (number : Nat)
    (signature : Signature) (key : String) (b : Binding) (state : Value) (args : List Value) :
    Run (List Value) := fun m =>
  let passed := if b.mode = .userSubgraph then state :: args else args
  let previous := m.instanceState number
  match invoke b.handler passed (m.setInstanceState number .suspended) with
  | .done returned m =>
    accept frames number signature key b.mode args returned (m.setInstanceState number previous)
  | .failed e m =>
    let reason := s!"out '{key}' handler failed: {e.text}"
    Run.complain frames reason (m.setInstanceState number previous)
  | .exhausted m => .exhausted (m.setInstanceState number previous)

/-- Fires an out-event. -/
def fire (invoke : Value → List Value → Run (List Value)) (frames : List Frame) :
    List Value → Run (List Value)
  | state :: key :: args => do
    let key ← keyOf frames key
    let number ← instanceOf frames state
    let i? ← Run.read fun m => m.instances[number]?
    match i? with
    | none => .complain frames s!"unknown out-event '{key}'"
    | some i =>
      match i.interface.findOut? key with
      | none => .complain frames s!"unknown out-event '{key}'"
      | some signature =>
        let build ← Run.read (·.build)
        let fault? := if build.policy.checksOutArgs then argFault? signature args else none
        match fault? with
        | some reason => .complain frames reason
        | none =>
          match Entries.get? i.bindings key with
          | none => return []
          | some b => handle invoke frames number signature key b state args
  | _ => .complain frames "__sc_execution_out needs a state and a key"

/-- Logs a value. -/
def log (frames : List Frame) (args : List Value) : Run (List Value) := do
  let number ← instanceOf frames (args.headD .nil)
  let line := ((args.drop 1).headD .nil).logText
  .change fun m => m.changeInstance number fun i => { i with logs := i.logs ++ [line] }
  return []

/-- A datum as a value. -/
def embedded (d : Datum) : Run Value := fun m =>
  let (v, m) := m.embed d
  .done v m

/-- The text of a value that has to be one. -/
def textArg (frames : List Frame) : Value → Run String
  | .str bytes =>
    match Value.textOf? bytes with
    | some s => pure s
    | none =>
      .report frames s!"bad argument #1: {notText ((Text.Utf8.fault? bytes).getD (.cut 0))}"
  | .number n => pure n.text
  | v =>
    .report frames (s!"bad argument #1: error converting Lua {v.typeName} to String " ++
      "(expected string or number)")

/-- Makes an entity from its number. -/
def entity (frames : List Frame) (args : List Value) : Run (List Value) := do
  let s ← textArg frames (args.headD .nil)
  match Text.numeral 64 s with
  | .ok n => return [← embedded (.entityId ⟨UInt64.ofNat n⟩)]
  | .error fault => .complain frames s!"bad entity id '{s}': {fault.message}"

/-- The entity that owns an instance. -/
def owner (frames : List Frame) (args : List Value) : Run (List Value) := do
  let number ← instanceOf frames (args.headD .nil)
  let e ← Run.read fun m => (m.instances[number]?.map (·.owner)).getD .invalid
  return [← embedded (.entityId e)]

/-- The data that arguments carry, or what is wrong with the first that carries none. -/
def argData (number : Nat) : List Value → Except String (List Datum)
  | [] => .ok []
  | v :: vs =>
    match v.datum? with
    | none => .error s!"argument {number} has unsupported type {v.hostType}"
    | some d =>
      match argData (number + 1) vs with
      | .ok ds => .ok (d :: ds)
      | .error e => .error e

/-- Calls a function of the host. -/
def callHost (frames : List Frame) (f : HostFunction) (args : List Value) : Run (List Value) :=
  match argData 1 args with
  | .error reason => .complain frames reason
  | .ok ds =>
    match f ds with
    | .values results => fun m =>
      let (vs, m) := m.embedAll results
      .done vs m
    | .failure text => .complain frames text
    | .crash reason => .fail (.crashed reason)

end Dispatch

end GraphScript.Machine
