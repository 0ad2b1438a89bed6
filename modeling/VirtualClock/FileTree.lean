import VirtualClock.Path
import VirtualClock.Text.Utf8

/-!
Reading files. A reader is any function that gives a path its bytes or the reason why it has
none; a file tree is one, with a working directory at its root and nothing around it but the
directories above.
-/

namespace VirtualClock

inductive ReadError where
  | notFound
  | notDirectory
  | isDirectory
  | nameTooLong
  /-- The path holds the byte that would end it for the host. -/
  | zeroByte
  | notText
  | other (text : String)
  deriving DecidableEq

def ReadError.message : ReadError → String
  | notFound => "No such file or directory (os error 2)"
  | notDirectory => "Not a directory (os error 20)"
  | isDirectory => "Is a directory (os error 21)"
  | nameTooLong => "File name too long (os error 36)"
  | zeroByte => "file name contained an unexpected NUL byte"
  | notText => "stream did not contain valid UTF-8"
  | other text => text

abbrev FileReader := Path → Except ReadError (List UInt8)

/-- The text of a file. -/
def FileReader.readText (files : FileReader) (p : Path) : Except ReadError String := do
  let bytes ← files p
  match Text.decode? bytes with
  | some s => .ok s
  | none => .error .notText

inductive FileNode where
  | file (bytes : List UInt8)
  | directory

/-- Files and directories by their components, the latest first; directories on the way are
implied. -/
structure FileTree where
  nodes : List (List (List UInt8) × FileNode) := []

namespace FileTree

/-- The directory itself. -/
def dot : List UInt8 := [46]

/-- The directory above. -/
def dotDot : List UInt8 := [46, 46]

/-- The nodes that come from making directories along the components of a path and `node` at
its end. A directory that the path leaves again by `..` stays. -/
def nodesAlong
    (node : FileNode) :
    (names : List (List UInt8)) → List (List UInt8) → List (List (List UInt8) × FileNode)
  | names, [] => [(names, node)]
  | names, name :: rest =>
    if name ∈ [[], dot] then nodesAlong node names rest
    else if name = dotDot then (names, .directory) :: nodesAlong node names.dropLast rest
    else nodesAlong node (names ++ [name]) rest

def insert (tree : FileTree) (p : Path) (node : FileNode) : FileTree :=
  ⟨nodesAlong node [] p.components ++ tree.nodes⟩

def ofList (entries : List (Path × FileNode)) : FileTree :=
  entries.foldl (fun tree (p, node) => tree.insert p node) {}

/-- Where a walk has come to. -/
inductive Place where
  /-- A directory above the root of the tree. -/
  | above
  | directory (names : List (List UInt8))
  | file (bytes : List UInt8)

def node? (tree : FileTree) (names : List (List UInt8)) : Option FileNode :=
  match tree.nodes.lookup names with
  | some node => some node
  | none => if tree.nodes.any (names.isPrefixOf ·.1) then some .directory else none

/-- Most bytes of a component. -/
def nameLimit : Nat := 255

/-- Most bytes of a path. -/
def pathLimit : Nat := 4095

/-- One component further; an empty one stays, as `.` does. A name is measured only where it is
looked up. -/
def walkTo (tree : FileTree) (place : Place) (name : List UInt8) : Except ReadError Place :=
  match place with
  | .file _ => .error .notDirectory
  | .above =>
    if name ∈ [[], dot, dotDot] then .ok .above
    else .error (if nameLimit < name.length then .nameTooLong else .notFound)
  | .directory names =>
    if name ∈ [[], dot] then .ok (.directory names)
    else if name = dotDot then
      .ok (if names.isEmpty then .above else .directory names.dropLast)
    else if nameLimit < name.length then .error .nameTooLong
    else
      match tree.node? (names ++ [name]) with
      | none => .error .notFound
      | some .directory => .ok (.directory (names ++ [name]))
      | some (.file bytes) => .ok (.file bytes)

def read (tree : FileTree) : FileReader := fun p =>
  if 0 ∈ p.bytes then .error .zeroByte
  else if p.bytes.isEmpty then .error .notFound
  else if pathLimit < p.bytes.length then .error .nameTooLong
  else do
    let start := if p.isAbsolute then Place.above else .directory []
    match ← p.components.foldlM tree.walkTo start with
    | .file bytes => .ok bytes
    | _ => .error .isDirectory

end FileTree

end VirtualClock
