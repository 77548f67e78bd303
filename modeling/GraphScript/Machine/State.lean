import GraphScript.Build
import GraphScript.Machine.Failure
import GraphScript.Machine.Instance

/-!
# Machine/State — what a machine holds

A machine holds the tables, functions and variables of scripts, the functions that the host
supplies, the instances of graphs, and a meter of the instructions that ran.  Running something in a
machine finishes with a value, fails, or exhausts the steps it was given; in each case there is a
machine after it.
-/

namespace GraphScript

/-- What a host function answers. -/
inductive HostReply where
  | values (ds : List Datum)
  | failure (text : String)
  | crash (reason : Option String)

/-- A function that the host supplies. -/
abbrev HostFunction := List Datum → HostReply

/-- Counts instructions.  After each interval the instructions used grow by the interval and are
compared with the limit. -/
structure Meter where
  interval : Nat := 1000
  /-- The limit, if it is enforced. -/
  limit : Option Nat := none
  /-- Instructions up to the next look at the limit. -/
  countdown : Nat := 1000
  used : Nat := 0
  deriving DecidableEq, Inhabited, Repr

namespace Meter

/-- Counts an instruction; false if the limit is exceeded. -/
def tick (t : Meter) : Meter × Bool :=
  match t.limit with
  | none => (t, true)
  | some limit =>
    if t.countdown ≤ 1 then
      let used := t.used + t.interval
      ({ t with countdown := t.interval, used }, decide (used ≤ limit))
    else ({ t with countdown := t.countdown - 1 }, true)

/-- Enforces a limit, or none, from here on. -/
def install (t : Meter) (limit : Option Nat) : Meter :=
  { t with limit, countdown := t.interval }

end Meter

/-- A machine.  The table at address 0 holds the global variables. -/
structure Machine where
  tables : Array Script.Table
  closures : Array Script.Closure := #[]
  cells : Array Script.Value := #[]
  callables : Array HostFunction := #[]
  instances : Array Instance := #[]
  /-- The address of the next reference to a thing of the host. -/
  nextHost : Nat := 0
  build : Build := .debug
  meter : Meter := {}

namespace Machine

open Script (Value Key Table Closure)

/-- What running something comes to. -/
inductive Outcome (α : Type) where
  | done (value : α) (machine : Machine)
  | failed (failure : Failure) (machine : Machine)
  | exhausted (machine : Machine)

/-- Something that runs in a machine. -/
def Run (α : Type) := Machine → Outcome α

namespace Run

@[always_inline]
instance : Monad Run where
  pure a := fun m => .done a m
  bind x f := fun m =>
    match x m with
    | .done a m => f a m
    | .failed e m => .failed e m
    | .exhausted m => .exhausted m

/-- Fails. -/
def fail {α : Type} (e : Failure) : Run α := fun m => .failed e m

/-- Gives up for want of steps. -/
def exhaust {α : Type} : Run α := fun m => .exhausted m

/-- Reads the machine. -/
def read {α : Type} (f : Machine → α) : Run α := fun m => .done (f m) m

/-- Changes the machine. -/
def change (f : Machine → Machine) : Run Unit := fun m => .done () (f m)

/-- Fails as a script does, at the latest of the calls under way. -/
def raise {α : Type} (frames : List Frame) (reason : String) : Run α :=
  fail (.raised (Frame.placeAt frames 1 ++ reason) (Frame.traceback (.host :: frames)))

/-- Fails as a host function does that was called from the calls under way. -/
def report {α : Type} (frames : List Frame) (cause : String) : Run α :=
  fail (.reported cause (Frame.traceback (.host :: frames)))

/-- Counts an instruction. -/
def tick (frames : List Frame) : Run Unit := fun m =>
  match m.meter.limit with
  | none => .done () m
  | some limit =>
    let (meter, isFine) := m.meter.tick
    let m := { m with meter }
    if isFine then .done () m
    else
      .failed (.reported (Failure.runtimeText s!"instruction limit of {limit} exceeded")
        (Frame.traceback frames)) m

/-! ## Tables, functions and variables -/

/-- Makes a table. -/
def newTable (t : Table) : Run Value := fun m =>
  .done (.table m.tables.size) { m with tables := m.tables.push t }

/-- The table at an address. -/
def tableAt (address : Nat) : Run Table := read fun m => (m.tables[address]?).getD {}

/-- Changes the table at an address. -/
def changeTable (address : Nat) (f : Table → Table) : Run Unit :=
  change fun m => { m with tables := m.tables.modify address f }

/-- Makes a function. -/
def newClosure (c : Closure) : Run Value := fun m =>
  .done (.closure m.closures.size) { m with closures := m.closures.push c }

/-- Makes a variable. -/
def newCell (v : Value) : Run Nat := fun m =>
  .done m.cells.size { m with cells := m.cells.push v }

/-- The value of a variable. -/
def cell (address : Nat) : Run Value := read fun m => (m.cells[address]?).getD .nil

/-- Gives a variable a value. -/
def setCell (address : Nat) (v : Value) : Run Unit :=
  change fun m => { m with cells := m.cells.setIfInBounds address v }

/-- The value of a global variable. -/
def global (name : String) : Run Value := do return (← tableAt 0).get (.str name.toUTF8)

/-- Gives a global variable a value. -/
def setGlobal (name : String) (v : Value) : Run Unit :=
  changeTable 0 fun t => t.set (.str name.toUTF8) v

end Run

/-! ## A new machine -/

/-- A table of values under names. -/
def namedTable (entries : List (String × Value)) : Table :=
  entries.foldl (fun t e => t.set (.str e.1.toUTF8) e.2) {}

/-- A machine with the functions that scripts find in it.  Others of the standard library are out of
scope.  Those that catch a failure are among them, so a failure ends the whole run that it happens
in. -/
def fresh (interval : Nat) : Machine where
  tables := #[
    namedTable [("error", .builtin .error), ("assert", .builtin .assert),
      ("print", .builtin .print), ("type", .builtin .type), ("tostring", .builtin .tostring),
      ("setmetatable", .builtin .setmetatable), ("math", .table 1)],
    namedTable [("huge", .number (.float (1.0 / 0.0)))]]
  meter := { interval, countdown := interval }

/-- The services that an activated machine offers to scripts, by name. -/
def services : List (String × Value) :=
  [("__sc_execution_out", .builtin .fire), ("__sc_log", .builtin .log),
    ("__sc_entity", .builtin .entity), ("__sc_owner", .builtin .owner)]

/-- Offers the services. -/
def offerServices (m : Machine) : Machine :=
  { m with tables := m.tables.modify 0 fun t =>
      services.foldl (fun t e => t.set (.str e.1.toUTF8) e.2) t }

/-! ## Instances -/

/-- Changes an instance. -/
def changeInstance (m : Machine) (number : Nat) (f : Instance → Instance) : Machine :=
  { m with instances := m.instances.modify number f }

/-- The state of an instance. -/
def instanceState (m : Machine) (number : Nat) : InstanceState :=
  match m.instances[number]? with
  | some i => i.state
  | none => .unloaded

/-- Puts an instance into a state. -/
def setInstanceState (m : Machine) (number : Nat) (s : InstanceState) : Machine :=
  m.changeInstance number fun i => { i with state := s }

end Machine

end GraphScript
