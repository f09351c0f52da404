/-!
# Tables of TOML

A table maps keys to values. How a table came about says what may still be added to it: one that
was written as a whole is closed, one with a header of its own gets no second header, and one that
dotted keys brought about takes only dotted keys.
-/

namespace SyntaxGateway.Toml

/-- How a table came about. -/
inductive Origin where
  /-- Written between braces. -/
  | inline
  /-- By its own header; the outermost table counts as such. -/
  | header
  /-- By the header of a table inside it. -/
  | implied
  /-- By dotted keys. -/
  | dotted
deriving DecidableEq, Repr

inductive Value where
  | string (text : List Char)
  | integer (n : Int)
  | boolean (b : Bool)
  | float
  | moment
  | array (items : List Value)
  | table (origin : Origin) (entries : List (List Char × Value))
  /-- Tables under one header, the latest first. -/
  | tables (items : List (List (List Char × Value)))

/-- Keys with their values. -/
abbrev Entries := List (List Char × Value)

structure Table where
  origin : Origin
  entries : Entries

namespace Entries

/-- Replaces what a key has, or adds it at the end; `f` may refuse. -/
def alter (key : List Char) (f : Option Value → Option Value) : Entries → Option Entries
  | [] => (f none).map fun v => [(key, v)]
  | (k, v) :: rest =>
    if k = key then (f (some v)).map fun v => (k, v) :: rest
    else (alter key f rest).map ((k, v) :: ·)

end Entries

namespace Table

/-- A document without lines. -/
def empty : Table := ⟨.header, []⟩

/-- Changes the table at the end of a path. Tables that are missing on the way are made; of tables
under one header the latest is meant. Dotted keys do not lead into a table with its own header. -/
def within (dotted : Bool) (f : Table → Option Table) :
    (path : List (List Char)) → Table → Option Table
  | [], t => f t
  | key :: path, t => do
    let entries ← t.entries.alter key fun
      | none => do
        let t ← within dotted f path ⟨if dotted then .dotted else .implied, []⟩
        return .table t.origin t.entries
      | some (.table origin entries) =>
        if origin = .inline || (dotted && origin = .header) then none
        else do
          let t ← within dotted f path ⟨origin, entries⟩
          return .table t.origin t.entries
      | some (.tables (last :: before)) => do
        let t ← within dotted f path ⟨.header, last⟩
        return .tables (t.entries :: before)
      | some _ => none
    return { t with entries := entries }

/-- Gives a new key its value. The key may be dotted, but not lead into a table of another kind. -/
def assign (path : List (List Char)) (value : Value) (t : Table) : Option Table :=
  match path.getLast? with
  | none => none
  | some key =>
    within true (fun t => do
      if decide (t.origin = .dotted) == path.dropLast.isEmpty then none
      let entries ← t.entries.alter key fun
        | none => some value
        | some _ => none
      return { t with entries := entries }) path.dropLast t

/-- Opens the table of a header: a new one, or one that was only implied. -/
def openTable (path : List (List Char)) (t : Table) : Option Table :=
  match path.getLast? with
  | none => none
  | some key =>
    within false (fun t => do
      let entries ← t.entries.alter key fun
        | none => some (.table .header [])
        | some (.table .implied entries) => some (.table .header entries)
        | some _ => none
      return { t with entries := entries }) path.dropLast t

/-- Opens one more table under a header that may come several times. -/
def openNext (path : List (List Char)) (t : Table) : Option Table :=
  match path.getLast? with
  | none => none
  | some key =>
    within false (fun t => do
      let entries ← t.entries.alter key fun
        | none => some (.tables [[]])
        | some (.tables items) => some (.tables ([] :: items))
        | some _ => none
      return { t with entries := entries }) path.dropLast t

end Table

end SyntaxGateway.Toml
