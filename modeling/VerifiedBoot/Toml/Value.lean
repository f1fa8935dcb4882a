/-
TOML values and tables. A table lists its entries in the order in which they were made, each key
once. It remembers how it came into being, since that decides what may be added to it later: a
table between braces takes nothing more, one with a header of its own takes no dotted keys from
outside, and one that merely lies on the path of a header may still get a header.
-/

namespace VerifiedBoot
namespace Toml

/-- How a table came into being. -/
inductive Origin where
  /-- By a header of its own. -/
  | header
  /-- On the path of a header. -/
  | onPath
  /-- On the path of a dotted key. -/
  | dotted
  /-- Between braces. -/
  | inline
deriving DecidableEq, Repr

/-- A value. Of fractions, dates and times only their presence is kept. -/
inductive Value where
  | string (text : String)
  | integer (n : Int)
  | float
  | boolean (b : Bool)
  | dateTime
  | array (items : List Value)
  | table (origin : Origin) (entries : List (String × Value))
  /-- Tables under headers that repeat. -/
  | tables (items : List (List (String × Value)))

abbrev Table := List (String × Value)

/-- A key, and the keys of the tables above it. -/
structure KeyPath where
  above : List String
  name : String
deriving DecidableEq, Repr

namespace Table

/-- Puts a value under a key, in the place of the one that is there. -/
def put : Table → String → Value → Table
  | [], key, value => [(key, value)]
  | (k, old) :: rest, key, value =>
    if k = key then (key, value) :: rest else (k, old) :: put rest key value

/-- Changes the table at a path below a table, and makes the tables on the path that are missing.
The change is given the origin of the table. -/
def change (dotted : Bool) (f : Origin → Table → Option Table) :
    List String → Origin → Table → Option Table
  | [], origin, t => f origin t
  | key :: path, _, t =>
    match t.lookup key with
    | none =>
      let origin : Origin := if dotted then .dotted else .onPath
      (change dotted f path origin []).map fun sub => t.put key (.table origin sub)
    | some (.table origin sub) =>
      if origin = .inline ∨ (dotted ∧ origin = .header) then none
      else (change dotted f path origin sub).map fun sub => t.put key (.table origin sub)
    | some (.tables items) =>
      items.getLast?.bind fun last =>
        (change dotted f path .header last).map fun last =>
          t.put key (.tables (items.dropLast ++ [last]))
    | some _ => none

/-- Adds an entry under a key that may be dotted. Only tables that dotted keys have made take
entries under dotted keys. -/
def addEntry (t : Table) (key : KeyPath) (value : Value) : Option Table :=
  change true
    (fun origin t =>
      if (key.above = [] ∨ origin = .dotted) ∧ (t.lookup key.name).isNone then
        some (t ++ [(key.name, value)])
      else none)
    key.above .header t

def addEntries (t : Table) (entries : List (KeyPath × Value)) : Option Table :=
  entries.foldlM (fun t (key, value) => t.addEntry key value) t

def addTable (t : Table) (key : KeyPath) (entries : List (KeyPath × Value)) : Option Table :=
  change false
    (fun _ t =>
      match t.lookup key.name with
      | none => (addEntries [] entries).map fun sub => t.put key.name (.table .header sub)
      | some (.table .onPath sub) =>
        (addEntries sub entries).map fun sub => t.put key.name (.table .header sub)
      | some _ => none)
    key.above .header t

/-- Adds a table with its entries to the tables of a header that repeats. -/
def addToTables (t : Table) (key : KeyPath) (entries : List (KeyPath × Value)) : Option Table :=
  change false
    (fun _ t =>
      match t.lookup key.name with
      | none => (addEntries [] entries).map fun item => t.put key.name (.tables [item])
      | some (.tables items) =>
        (addEntries [] entries).map fun item => t.put key.name (.tables (items ++ [item]))
      | some _ => none)
    key.above .header t

end Table
end Toml
end VerifiedBoot
