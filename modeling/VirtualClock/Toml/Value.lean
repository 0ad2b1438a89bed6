/-!
What a TOML document says: tables of named items. An item is a value, a table, or an array of
tables; only a table can be added to after it was first named, and its two marks say by what.
-/

namespace VirtualClock.Toml

mutual

inductive Value where
  | string (s : String)
  | integer (n : Int)
  | float
  | boolean (b : Bool)
  | datetime
  | array (items : List Value)
  | inline (t : Table)

inductive Item where
  | value (v : Value)
  | table (t : Table)
  | tables (ts : List Table)

/-- A table is implicit until a header names it, and dotted if a dotted key made it. -/
inductive Table where
  | mk (implicit dotted : Bool) (entries : List (String × Item))

end

def Value.kind : Value → String
  | string _ => "string"
  | integer _ => "integer"
  | float => "float"
  | boolean _ => "boolean"
  | datetime => "datetime"
  | array _ => "array"
  | inline _ => "inline table"

namespace Table

def implicit : Table → Bool
  | mk implicit _ _ => implicit

def dotted : Table → Bool
  | mk _ dotted _ => dotted

def entries : Table → List (String × Item)
  | mk _ _ entries => entries

/-- A table that a header or braces name. -/
def empty : Table := .mk false false []

def get? (t : Table) (key : String) : Option Item := t.entries.lookup key

/-- Replace the item of a key, or add it at the end. -/
def set (t : Table) (key : String) (item : Item) : Table :=
  let entries :=
    if (t.get? key).isSome then t.entries.map fun e => if e.1 == key then (key, item) else e
    else t.entries ++ [(key, item)]
  .mk t.implicit t.dotted entries

/-- The same table, now named by a header. -/
def explicit (t : Table) : Table := .mk false t.dotted t.entries

/-- Change the last table of an array of tables. -/
def modifyLast (ts : List Table) (f : Table → Option Table) : Option (List Table) :=
  match ts.reverse with
  | [] => none
  | last :: before => (f last).map fun t => (t :: before).reverse

/-- Add a value under a key reached by a dotted path; `top` for an empty path. The tables on
the way are made by dotted keys only, and the last one must not mix both ways of naming. -/
def insertAt (key : String) (v : Value) : (top : Bool) → List String → Table → Option Table
  | top, [], t =>
    if t.dotted == top || (t.get? key).isSome then none else some (t.set key (.value v))
  | _, k :: path, t =>
    match t.get? k with
    | none => (insertAt key v false path (.mk true true [])).map fun c => t.set k (.table c)
    | some (.table c) =>
      if c.implicit then (insertAt key v false path c).map fun c => t.set k (.table c) else none
    | some (.tables ts) =>
      (modifyLast ts (insertAt key v false path)).map fun ts => t.set k (.tables ts)
    | some (.value _) => none

def insert (t : Table) (path : List String) (key : String) (v : Value) : Option Table :=
  insertAt key v path.isEmpty path t

/-- Change the item under a key reached by the path of a header. Tables missing on the way are
made; in an array of tables the way goes through the last one. -/
def modifyAt (key : String) (f : Option Item → Option Item) : List String → Table → Option Table
  | [], t => (f (t.get? key)).map (t.set key)
  | k :: path, t =>
    match t.get? k with
    | none => (modifyAt key f path (.mk true false [])).map fun c => t.set k (.table c)
    | some (.table c) => (modifyAt key f path c).map fun c => t.set k (.table c)
    | some (.tables ts) => (modifyLast ts (modifyAt key f path)).map fun ts => t.set k (.tables ts)
    | some (.value _) => none

end Table

end VirtualClock.Toml
