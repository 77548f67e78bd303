/-!
# Entries — lists of keys and values

Two kinds of table are kept as lists.  In one, entries stay in the order in which their keys first
came (`put`); in the other they are in the order of their keys (`insert`).  In both a key has one
value, the last that was given.
-/

namespace GraphScript.Entries

variable {κ α : Type}

/-- The value of a key. -/
def get? [DecidableEq κ] (entries : List (κ × α)) (k : κ) : Option α :=
  (entries.find? fun e => e.1 = k).map (·.2)

/-- Whether a key has a value. -/
def contains [DecidableEq κ] (entries : List (κ × α)) (k : κ) : Bool :=
  entries.any fun e => e.1 = k

/-- Gives a key a value, where the key first stood or else at the end. -/
def put [DecidableEq κ] (entries : List (κ × α)) (k : κ) (a : α) : List (κ × α) :=
  match entries with
  | [] => [(k, a)]
  | e :: r => if e.1 = k then (k, a) :: r else e :: put r k a

/-- Gives a key a value in a list that is in the order of its keys. -/
def insert [LT κ] [DecidableRel (LT.lt : κ → κ → Prop)] (entries : List (κ × α)) (k : κ) (a : α) :
    List (κ × α) :=
  match entries with
  | [] => [(k, a)]
  | e :: r =>
    if k < e.1 then (k, a) :: e :: r
    else if e.1 < k then e :: insert r k a
    else (k, a) :: r

/-- The entries in the order of their keys. -/
def sorted [LT κ] [DecidableRel (LT.lt : κ → κ → Prop)] (entries : List (κ × α)) : List (κ × α) :=
  entries.foldl (fun es e => insert es e.1 e.2) []

end GraphScript.Entries
