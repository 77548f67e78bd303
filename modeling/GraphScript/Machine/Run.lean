import GraphScript.Machine.Dispatch
import GraphScript.Script.Operation
import GraphScript.Script.Parser

/-!
# Machine/Run — running scripts

The functions below say what expressions, statements and calls come to.  `fuel` bounds how many of
them are under way; a loop spends some with each turn.  Too little of it exhausts the run, which is
told apart from every way in which a script itself can end.  So do calls that go too deep.
-/

namespace GraphScript.Machine

open Script

/-- Where code runs: its script, the function it is in, the extra arguments of that function, and
the calls under way around it. -/
structure Context where
  source : String
  definedAt : Nat
  varargs : List Value
  callers : List Frame
  depth : Nat

/-- The calls under way, with this function at a line. -/
def Context.frames (c : Context) (line : Nat) : List Frame :=
  .script c.source line c.definedAt :: c.callers

/-- How a statement ends. -/
inductive Flow where
  | next
  /-- The innermost loop is left. -/
  | leave
  | ret (values : List Value)

/-- A place that a value can be assigned to. -/
inductive Place where
  | cell (address : Nat)
  | global (name : String)
  | entry (line : Nat) (object key : Value)

/-- The depth of calls from which on nothing is said about a run: a call there exhausts it, as a
want of fuel does.  A machine has some bound on the calls under way; where it lies depends on the
size of each call, and this depth is on the safe side of it.  A call of a script function goes one
deeper. -/
def depthLimit : Nat := 3000

/-- How much deeper a call goes that passes through the host, of which fewer can be under way. -/
def handlerDepth : Nat := 100

namespace Run

/-- Makes variables; those without a value hold `nil`. -/
def bindNames : List String → List Value → Scope → Run Scope
  | [], _, scope => pure scope
  | n :: ns, vs, scope => do
    let address ← newCell (vs.headD .nil)
    bindNames ns (vs.drop 1) ((n, address) :: scope)

/-- The value of a variable. -/
def lookup (scope : Scope) (name : String) : Run Value :=
  match scope.cell? name with
  | some address => cell address
  | none => global name

/-- Takes the result of an operator, or raises its reason. -/
def ofExcept (frames : List Frame) : Except String Value → Run Value
  | .ok v => pure v
  | .error reason => raise frames reason

/-- Lets a key of an object hold a value. -/
def store (frames : List Frame) (object key v : Value) : Run Unit :=
  match object with
  | .table address =>
    match key.key? with
    | some k => changeTable address fun t => t.set k v
    | none =>
      if key.isNil then raise frames "table index is nil" else raise frames "table index is NaN"
  | o => raise frames s!"attempt to index a {o.title} value"

/-- Assigns a value. -/
def assign (c : Context) (v : Value) : Place → Run Unit
  | .cell address => setCell address v
  | .global name => setGlobal name v
  | .entry line object key => store (c.frames line) object key v

/-- Assigns values to places, the last place first; places without a value get `nil`. -/
def assignAll (c : Context) : List Place → List Value → Run Unit
  | [], _ => pure ()
  | p :: ps, vs => do
    assignAll c ps (vs.drop 1)
    assign c (vs.headD .nil) p

/-- Lets the items of a table from number `n` on hold values, the last that are listed. -/
def storeItems (frames : List Frame) (t : Value) (n : Nat) : List Value → Run Unit
  | [] =>
    match t with
    | .table address => changeTable address fun t => { t with listed := n - 1 }
    | _ => pure ()
  | v :: vs => do
    store frames t (.ofInt (Int64.ofNat n)) v
    storeItems frames t (n + 1) vs

/-- The number of items of a value. -/
def length (frames : List Frame) : Value → Run Value
  | .str bytes => pure (.ofInt (Int64.ofNat bytes.size))
  | .table address => do return .ofInt (Int64.ofNat (← tableAt address).length)
  | v => raise frames s!"attempt to get length of a {v.title} value"

/-! ## Functions of every machine -/

/-- Raises a value.  A text is given the position of the call so many levels up. -/
def raiseValue (frames : List Frame) (args : List Value) : Run (List Value) :=
  let v := args.headD .nil
  let level : Int := match (args.drop 1).headD .nil with
    | .number (.int i) => i.toInt
    | .number n => (Number.integral? n.toFloat).getD 1
    | _ => 1
  let message := Text.Utf8.lossy v.text
  let place := match v with
    | .str _ => if 0 < level then Frame.placeAt frames level.toNat else ""
    | _ => ""
  fail (.raised (place ++ message) (Frame.traceback (.host :: .host :: frames)))

/-- Complains about an argument that is missing. -/
def missingArgument {α : Type} (frames : List Frame) (function : String) : Run α :=
  raise frames s!"bad argument #1 to '{function}' (value expected)"

/-- Raises the second argument, or a text if there is none, unless the first counts as true. -/
def assertTruthy (frames : List Frame) (args : List Value) : Run (List Value) :=
  match args with
  | [] => missingArgument frames "assert"
  | v :: rest =>
    if v.isTruthy then return args
    else raiseValue frames [rest.headD (.ofText "assertion failed!")]

/-- Gives a table another table to ask. -/
def setMetatable (frames : List Frame) (args : List Value) : Run (List Value) :=
  match args with
  | .table address :: .table other :: _ => do
    changeTable address fun t => { t with metatable := some other }
    return [.table address]
  | .table address :: .nil :: _ => do
    changeTable address fun t => { t with metatable := none }
    return [.table address]
  | .table _ :: _ => raise frames "bad argument #2 to 'setmetatable' (nil or table expected)"
  | v :: _ =>
    raise frames s!"bad argument #1 to 'setmetatable' (table expected, got {v.typeName})"
  | [] => raise frames "bad argument #1 to 'setmetatable' (table expected, got no value)"

/-- Calls a function that machines have; `invoke` calls the handlers of out-events. -/
def builtin (invoke : Value → List Value → Run (List Value)) (frames : List Frame)
    (args : List Value) : Builtin → Run (List Value)
  | .error => raiseValue frames args
  | .assert => assertTruthy frames args
  -- what is printed leaves the program: nothing here can see it
  | .print => return []
  | .type =>
    match args with
    | v :: _ => return [.ofText v.typeName]
    | [] => missingArgument frames "type"
  | .tostring =>
    match args with
    | v :: _ => return [.str v.text]
    | [] => missingArgument frames "tostring"
  | .setmetatable => setMetatable frames args
  | .fire => Dispatch.fire invoke frames args
  | .log => Dispatch.log frames args
  | .entity => Dispatch.entity frames args
  | .owner => Dispatch.owner frames args

/-! ## Expressions, statements and calls -/

mutual

/-- What a key of an object holds; a table that has no such key asks the `__index` of its
metatable. -/
def index (c : Context) (line : Nat) (key : Value) : Nat → Value → Run Value
  | 0, _ => exhaust
  | fuel + 1, object =>
    match object with
    | .table address => do
      let t ← tableAt address
      let v := match key.key? with
        | some k => t.get k
        | none => .nil
      if !v.isNil then return v
      match t.metatable with
      | none => return .nil
      | some other =>
        let next := (← tableAt other).get (.str "__index".toUTF8)
        if next.isNil then return .nil
        else if next.isFunction then
          let vs ← call fuel (c.frames line) (c.depth + handlerDepth) next [object, key]
          return vs.headD .nil
        else index c line key fuel next
    | .str _ => return .nil
    | o => raise (c.frames line) s!"attempt to index a {o.title} value"
termination_by structural fuel => fuel

/-- The one value of an expression. -/
def value (c : Context) (scope : Scope) : Nat → Term → Run Value
  | 0, _ => exhaust
  | fuel + 1, e =>
    match e with
    | .nil => return .nil
    | .boolean b => return .boolean b
    | .number n => return .number n
    | .str bytes => return .str bytes
    | .varargs => return c.varargs.headD .nil
    | .name n => lookup scope n
    | .index line o k => do
      let o ← value c scope fuel o
      let k ← value c scope fuel k
      index c line k fuel o
    | .call _ _ _ | .invoke _ _ _ _ => do
      let vs ← values c scope fuel e
      return vs.headD .nil
    | .function f => newClosure ⟨f, scope, c.source⟩
    | .binary line op l r => do
      let a ← value c scope fuel l
      let b ← value c scope fuel r
      tick (c.frames line)
      ofExcept (c.frames line) (Operation.binary op a b)
    | .unary line op e => do
      let a ← value c scope fuel e
      match op with
      | .not => return .boolean (!a.isTruthy)
      | .negate => ofExcept (c.frames line) (Operation.negate a)
      | .length => length (c.frames line) a
    | .and l r => do
      let a ← value c scope fuel l
      if a.isTruthy then value c scope fuel r else return a
    | .or l r => do
      let a ← value c scope fuel l
      if a.isTruthy then return a else value c scope fuel r
    | .paren e => value c scope fuel e
    | .table line fields => do
      let t ← newTable {}
      fill c scope line t fuel [] fields
      return t
termination_by structural fuel => fuel

/-- Fills a table from a constructor.  Items are stored in the end; `items` are those already
known, the last first. -/
def fill (c : Context) (scope : Scope) (line : Nat) (t : Value) :
    Nat → List Value → List Field → Run Unit
  | 0, _, _ => exhaust
  | _ + 1, items, [] => storeItems (c.frames line) t 1 items.reverse
  | fuel + 1, items, [.item e] => do
    let vs ← values c scope fuel e
    storeItems (c.frames line) t 1 (items.reverse ++ vs)
  | fuel + 1, items, .item e :: rest => do
    let v ← value c scope fuel e
    fill c scope line t fuel (v :: items) rest
  | fuel + 1, items, .entry k e :: rest => do
    let k ← value c scope fuel k
    let v ← value c scope fuel e
    store (c.frames line) t k v
    fill c scope line t fuel items rest
termination_by structural fuel => fuel

/-- All values of an expression; only a call and extra arguments have other than one. -/
def values (c : Context) (scope : Scope) : Nat → Term → Run (List Value)
  | 0, _ => exhaust
  | fuel + 1, e =>
    match e with
    | .varargs => return c.varargs
    | .call line f args => do
      let f ← value c scope fuel f
      let args ← valueList c scope fuel args
      tick (c.frames line)
      call fuel (c.frames line) c.depth f args
    | .invoke line o n args => do
      let o ← value c scope fuel o
      let f ← index c line (.ofText n) fuel o
      let args ← valueList c scope fuel args
      tick (c.frames line)
      call fuel (c.frames line) c.depth f (o :: args)
    | e => return [← value c scope fuel e]
termination_by structural fuel => fuel

/-- The values of expressions: one of each, and all of the last. -/
def valueList (c : Context) (scope : Scope) : Nat → List Term → Run (List Value)
  | 0, _ => exhaust
  | _ + 1, [] => return []
  | fuel + 1, [e] => values c scope fuel e
  | fuel + 1, e :: es => do
    let v ← value c scope fuel e
    return v :: (← valueList c scope fuel es)
termination_by structural fuel => fuel

/-- Calls a value, where `frames` are the calls under way and `depth` is how deep they go. -/
def call : Nat → List Frame → Nat → Value → List Value → Run (List Value)
  | 0, _, _, _, _ => exhaust
  | fuel + 1, frames, depth, f, args => do
    if depthLimit ≤ depth then exhaust
    match f with
    | .closure address =>
      let closure ← read fun m => (m.closures[address]?).getD default
      match closure.function with
      | .mk line params isVariadic body =>
        let scope ← bindNames params args closure.scope
        let c : Context := {
          source := closure.source
          definedAt := line
          varargs := if isVariadic then args.drop params.length else []
          callers := frames
          depth := depth + 1 }
        match ← block c scope fuel body with
        | .ret vs => return vs
        | .next | .leave => return []
    | .builtin b =>
      builtin (fun g vs => call fuel (.host :: frames) (depth + handlerDepth) g vs) frames args b
    | .callable n =>
      match ← read fun m => m.callables[n]? with
      | some g => Dispatch.callHost frames g args
      | none => return []
    | v => raise frames s!"attempt to call a {v.title} value"
termination_by structural fuel => fuel

/-- The values that a function returns.  A single call in their place takes the place of the
function, if it calls a script function. -/
def returned (c : Context) (scope : Scope) (line : Nat) : Nat → List Term → Run (List Value)
  | 0, _ => exhaust
  | fuel + 1, es =>
    match es with
    | [.call callLine f args] => do
      let f ← value c scope fuel f
      let args ← valueList c scope fuel args
      tick (c.frames callLine)
      match f with
      | .closure _ => call fuel c.callers (c.depth - 1) f args
      | _ => call fuel (c.frames callLine) c.depth f args
    | es => do
      let vs ← valueList c scope fuel es
      tick (c.frames line)
      return vs
termination_by structural fuel => fuel

/-- The place that an expression names. -/
def place (c : Context) (scope : Scope) : Nat → Term → Run Place
  | 0, _ => exhaust
  | fuel + 1, e =>
    match e with
    | .name n =>
      match scope.cell? n with
      | some address => return .cell address
      | none => return .global n
    | .index line o k => do
      let o ← value c scope fuel o
      let k ← value c scope fuel k
      return .entry line o k
    | _ => return .global ""
termination_by structural fuel => fuel

/-- The places that expressions name. -/
def places (c : Context) (scope : Scope) : Nat → List Term → Run (List Place)
  | 0, _ => exhaust
  | _ + 1, [] => return []
  | fuel + 1, e :: es => do
    let p ← place c scope fuel e
    return p :: (← places c scope fuel es)
termination_by structural fuel => fuel

/-- Runs statements one after the other. -/
def block (c : Context) (scope : Scope) : Nat → List Stat → Run Flow
  | 0, _ => exhaust
  | fuel + 1, stats =>
    match stats with
    | [] => return .next
    | .declare line names es :: rest => do
      let vs ← valueList c scope fuel es
      tick (c.frames line)
      let scope ← bindNames names vs scope
      block c scope fuel rest
    | .declareFunction name f :: rest => do
      let address ← newCell .nil
      let scope := (name, address) :: scope
      let v ← newClosure ⟨f, scope, c.source⟩
      setCell address v
      block c scope fuel rest
    | s :: rest => do
      match ← statement c scope fuel s with
      | .next => block c scope fuel rest
      | flow => return flow
termination_by structural fuel => fuel

/-- Runs a statement that declares nothing. -/
def statement (c : Context) (scope : Scope) : Nat → Stat → Run Flow
  | 0, _ => exhaust
  | fuel + 1, s =>
    match s with
    | .assign line targets es => do
      let ps ← places c scope fuel targets
      let vs ← valueList c scope fuel es
      tick (c.frames line)
      assignAll c ps vs
      return .next
    | .evaluate _ e => do
      let _ ← values c scope fuel e
      return .next
    | .cond line condition thenBranch elseBranch => do
      tick (c.frames line)
      let v ← value c scope fuel condition
      block c scope fuel (if v.isTruthy then thenBranch else elseBranch)
    | .loop line condition body => loop c scope line condition body fuel
    | .block body => block c scope fuel body
    | .leaveLoop => return .leave
    | .ret line es => do return .ret (← returned c scope line fuel es)
    | .declare _ _ _ | .declareFunction _ _ => return .next
termination_by structural fuel => fuel

/-- Runs a loop. -/
def loop (c : Context) (scope : Scope) (line : Nat) (condition : Term) (body : List Stat) :
    Nat → Run Flow
  | 0 => exhaust
  | fuel + 1 => do
    tick (c.frames line)
    let v ← value c scope fuel condition
    if v.isTruthy then
      match ← block c scope fuel body with
      | .next => loop c scope line condition body fuel
      | .leave => return .next
      | .ret vs => return .ret vs
    else return .next
termination_by structural fuel => fuel

end

end Run

end GraphScript.Machine
