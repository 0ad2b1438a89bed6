import VirtualClock.Toml.DateTime
import VirtualClock.Toml.Strings
import VirtualClock.Toml.Value

/-!
Reading a TOML document: its lines one by one, each a header or an entry, and then the table
that the lines build. A document is read or refused as a whole.
-/

namespace VirtualClock.Toml

/-! ## Keys -/

def isBareKeyChar (c : Char) : Bool := c.isAlphanum || c == '_' || c == '-'

def readSimpleKey : Reader String
  | '"' :: rest => (basicBody rest).map fun (cs, rest) => (String.ofList cs, rest)
  | '\'' :: rest => (literalBody rest).map fun (cs, rest) => (String.ofList cs, rest)
  | s =>
    let key := s.takeWhile isBareKeyChar
    if key.isEmpty then none else some (String.ofList key, s.dropWhile isBareKeyChar)

def skipSpaces (s : List Char) : List Char := s.dropWhile isSpace

def readKeysFrom : (fuel : Nat) → Reader (List String)
  | 0, _ => none
  | fuel + 1, s => do
    let (key, s) ← readSimpleKey (skipSpaces s)
    match skipSpaces s with
    | '.' :: rest => (readKeysFrom fuel rest).map fun (keys, rest) => (key :: keys, rest)
    | rest => some ([key], rest)

/-- Nesting, of values or along a dotted key, stays below this depth. -/
def depthLimit : Nat := 80

/-- A dotted key, split into its path and its last part. -/
structure KeyPath where
  path : List String
  last : String

def readKeyPath : Reader KeyPath := fun s => do
  let (keys, rest) ← readKeysFrom s.length s
  let last ← keys.getLast?
  if keys.length < depthLimit then some (⟨keys.dropLast, last⟩, rest) else none

/-! ## Values -/

/-- Past white space, line ends and comments. -/
def skipBlankFrom : (inComment : Bool) → List Char → List Char
  | _, '\r' :: '\n' :: rest => skipBlankFrom false rest
  | inComment, c :: rest =>
    if c == '\n' then skipBlankFrom false rest
    else if inComment then (if isLineChar c then skipBlankFrom true rest else c :: rest)
    else if isSpace c then skipBlankFrom false rest
    else if c == '#' then skipBlankFrom true rest
    else c :: rest
  | _, [] => []

def skipBlank (s : List Char) : List Char := skipBlankFrom false s

/-- The elements of an array after its opening bracket; a comma may follow the last one. -/
def readElements (element : Reader Value) : (fuel : Nat) → Reader (List Value)
  | 0, _ => none
  | fuel + 1, s =>
    match skipBlank s with
    | ']' :: rest => some ([], rest)
    | s => do
      let (v, s) ← element s
      match skipBlank s with
      | ',' :: rest => (readElements element fuel rest).map fun (vs, rest) => (v :: vs, rest)
      | ']' :: rest => some ([v], rest)
      | _ => none

/-- A key, an equals sign and a value. -/
def readPair (value : Reader Value) : Reader (KeyPath × Value) := fun s => do
  let (key, s) ← readKeyPath s
  let (_, s) ← expect '=' s
  let (v, s) ← value (skipSpaces s)
  some ((key, v), s)

/-- The entries of an inline table, at least one. -/
def readEntries (value : Reader Value) : (fuel : Nat) → Table → Reader Table
  | 0, _, _ => none
  | fuel + 1, t, s => do
    let ((key, v), s) ← readPair value s
    let t ← t.insert key.path key.last v
    match skipSpaces s with
    | ',' :: rest => readEntries value fuel t rest
    | '}' :: rest => some (t, rest)
    | _ => none

def readInline (value : Reader Value) : Reader Table := fun s =>
  match skipSpaces s with
  | '}' :: rest => some (.empty, rest)
  | s => readEntries value s.length .empty s

def readScalar : Reader Value := fun s =>
  match s with
  | '"' :: _ | '\'' :: _ =>
    (readString s).map fun (cs, rest) => (.string (String.ofList cs), rest)
  | 't' :: 'r' :: 'u' :: 'e' :: rest => some (.boolean true, rest)
  | 'f' :: 'a' :: 'l' :: 's' :: 'e' :: rest => some (.boolean false, rest)
  | s =>
    match readDateTime s with
    | some (_, rest) => some (.datetime, rest)
    | none =>
      match readFloat s with
      | some (_, rest) => some (.float, rest)
      | none => (readInteger s).map fun (n, rest) => (.integer n, rest)

/-- A value in which arrays and inline tables nest at most `depth` deep. -/
def readValue : (depth : Nat) → Reader Value
  | 0, '[' :: _ => none
  | 0, '{' :: _ => none
  | depth + 1, '[' :: rest =>
    (readElements (readValue depth) rest.length rest).map fun (vs, rest) => (.array vs, rest)
  | depth + 1, '{' :: rest =>
    (readInline (readValue depth) rest).map fun (t, rest) => (.inline t, rest)
  | _, s => readScalar s

/-! ## Lines -/

inductive Line where
  | blank
  | table (key : KeyPath)
  | element (key : KeyPath)
  | entry (key : KeyPath) (v : Value)

/-- The end of a line, after white space and a comment. -/
def lineEnd? (s : List Char) : Option (List Char) :=
  let s := match skipSpaces s with
    | '#' :: rest => rest.dropWhile isLineChar
    | s => s
  match s with
  | [] => some []
  | s => newline? s

def readLine (s : List Char) : Option (Line × List Char) :=
  match skipSpaces s with
  | '[' :: '[' :: rest => do
    let (key, s) ← readKeyPath rest
    let (_, s) ← expect ']' s
    let (_, s) ← expect ']' s
    (lineEnd? s).map fun rest => (.element key, rest)
  | '[' :: rest => do
    let (key, s) ← readKeyPath rest
    let (_, s) ← expect ']' s
    (lineEnd? s).map fun rest => (.table key, rest)
  | s =>
    match lineEnd? s with
    | some rest => some (.blank, rest)
    | none => do
      let ((key, v), s) ← readPair (readValue (depthLimit - 1)) s
      (lineEnd? s).map fun rest => (.entry key v, rest)

def readLines : (fuel : Nat) → List Char → Option (List Line)
  | _, [] => some []
  | 0, _ :: _ => none
  | fuel + 1, s => do
    let (line, rest) ← readLine s
    let lines ← readLines fuel rest
    some (line :: lines)

/-! ## Building the table -/

/-- What a header makes of the item that is there: a table may be named once. -/
def openTable : Option Item → Option Item
  | none => some (.table .empty)
  | some (.table t) => if t.implicit && !t.dotted then some (.table t.explicit) else none
  | some _ => none

def openElement : Option Item → Option Item
  | none => some (.tables [.empty])
  | some (.tables ts) => some (.tables (ts ++ [.empty]))
  | some _ => none

/-- Add an entry to the table of a header. -/
def addEntry (key : KeyPath) (v : Value) : Option Item → Option Item
  | some (.table t) => (t.insert key.path key.last v).map .table
  | some (.tables ts) =>
    (Table.modifyLast ts fun t => t.insert key.path key.last v).map .tables
  | _ => none

/-- A table so far, and the header that entries go to. -/
structure Draft where
  root : Table := .empty
  header : Option KeyPath := none

def Draft.add (d : Draft) : Line → Option Draft
  | .blank => some d
  | .table key => (d.root.modifyAt key.last openTable key.path).map fun root => ⟨root, some key⟩
  | .element key => (d.root.modifyAt key.last openElement key.path).map fun root => ⟨root, some key⟩
  | .entry key v =>
    match d.header with
    | none => (d.root.insert key.path key.last v).map fun root => ⟨root, none⟩
    | some header =>
      (d.root.modifyAt header.last (addEntry key v) header.path).map fun root =>
        ⟨root, some header⟩

def dropByteOrderMark : List Char → List Char
  | '\uFEFF' :: rest => rest
  | s => s

def parse (text : String) : Option Table := do
  let s := dropByteOrderMark text.toList
  let lines ← readLines s.length s
  let draft ← lines.foldlM Draft.add {}
  some draft.root

end VirtualClock.Toml
