/-!
# Machine/Failure — how running a script can fail

A failure that a script raises carries its position, one that a host function reports does not; both
come with a traceback of the calls under way.  A host function may also break down.
-/

namespace GraphScript.Machine

/-- A call under way. -/
inductive Frame where
  /-- A script function, the line it is at, and the line it starts on; 0 for a whole script. -/
  | script (source : String) (line definedAt : Nat)
  | host
  deriving DecidableEq, Repr

namespace Frame

/-- The position that messages start with; a host function has none. -/
def place : Frame → String
  | .script source line _ => s!"{source}:{line}: "
  | .host => ""

/-- A line of a traceback. -/
def text : Frame → String
  | .script source line definedAt =>
    if definedAt = 0 then s!"\n\t{source}:{line}: in main chunk"
    else s!"\n\t{source}:{line}: in function <{source}:{definedAt}>"
  | .host => "\n\t[C]: in ?"

/-- The first calls that a long traceback shows. -/
def shownFirst : Nat := 10

/-- The last calls that a long traceback shows. -/
def shownLast : Nat := 11

/-- A traceback of calls, the latest first. -/
def traceback (frames : List Frame) : String :=
  let n := frames.length
  let lines :=
    if shownFirst + shownLast + 1 < n then
      (frames.take shownFirst).map text ++
        [s!"\n\t...\t(skipping {n - shownFirst - shownLast} levels)"] ++
        (frames.drop (n - shownLast)).map text
    else frames.map text
  "stack traceback:" ++ String.join lines

/-- The position of the call so many levels up. -/
def placeAt (frames : List Frame) (level : Nat) : String :=
  match frames.drop (level - 1) with
  | f :: _ => f.place
  | [] => ""

end Frame

/-- Why a script did not finish. -/
inductive Failure where
  /-- Raised by a script or an operator. -/
  | raised (message traceback : String)
  /-- Reported by a host function. -/
  | reported (cause traceback : String)
  /-- A host function broke down, possibly with a text. -/
  | crashed (reason : Option String)
  deriving DecidableEq, Repr

namespace Failure

/-- What a failure is called that came from running code. -/
def runtimeText (message : String) : String := s!"runtime error: {message}"

/-- A breakdown in words. -/
def crashText : Option String → String
  | some reason => s!"host panic: {reason}"
  | none => "host panic"

/-- A failure with its traceback. -/
def text : Failure → String
  | .raised message traceback => s!"{runtimeText message}\n{traceback}"
  | .reported cause traceback => s!"{cause}\n{traceback}\n"
  | .crashed reason => crashText reason

/-- The text before the first traceback in it. -/
def beforeTraceback (s : String) : String := (s.splitOn "\nstack traceback:").headD s

/-- A failure without any traceback. -/
def brief : Failure → String
  | .raised message _ => beforeTraceback (runtimeText message)
  | .reported cause _ => beforeTraceback cause
  | .crashed reason => crashText reason

end Failure

end GraphScript.Machine
