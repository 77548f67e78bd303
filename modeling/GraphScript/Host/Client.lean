import GraphScript.Host.Vm

/-!
# Host/Client — a machine made on first use

A client knows the settings that its machine is to have.  The machine is made when it is first asked
for and is the same from then on.
-/

namespace GraphScript

/-- Settings and the machine that was made from them, if one was. -/
structure Client where
  settings : Settings
  /-- A last change to the settings. -/
  adjust : Option (Settings → Settings) := none
  vm : Option Vm := none

namespace Client

/-- The settings that the machine is made from. -/
def effective (c : Client) : Settings :=
  match c.adjust with
  | some f => f c.settings
  | none => c.settings

/-- Whether the machine was made. -/
def isInitialized (c : Client) : Bool := c.vm.isSome

/-- A machine with some settings, activated. -/
def make (s : Settings) : Vm :=
  (((Vm.new s.hookInterval).setLimit s.instructionLimit).setBuild s.build).activate.2

/-- The machine, made now if it was not before. -/
def machine (c : Client) : Vm × Client :=
  match c.vm with
  | some vm => (vm, c)
  | none =>
    let vm := make c.effective
    (vm, { c with vm := some vm })

/-- The client described. -/
def describe (c : Client) : String :=
  "ClientConfig \x7b " ++ s!"config: {c.settings.describe}, " ++
    s!"has_initializer: {c.adjust.isSome}, initialized: {c.isInitialized}" ++ " \x7d"

end Client

end GraphScript
