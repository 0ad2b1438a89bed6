import VirtualClock.Mode
import VirtualClock.Toml.Document

/-!
The configuration of clocks, a TOML document. It names a mode under the key `mode`, as a string
or as a table whose only key is the name, with nothing in it. Without the key the mode is real;
other keys are not looked at.
-/

namespace VirtualClock

structure Config where
  mode : Mode := .real
  deriving DecidableEq

/-- Why a text is no configuration. -/
inductive ConfigFault where
  /-- It is not TOML at all. -/
  | malformed
  | neitherStringNorTable
  | unknownName (name : String)
  | emptyTable
  | severalKeys
  | nonemptyTable
  | nonemptyArray
  | notTable (kind : String)
  deriving DecidableEq

def ConfigFault.message : ConfigFault → String
  | malformed => "not a TOML document"
  | neitherStringNorTable => "wanted string or table"
  | unknownName name => "unknown variant \x60" ++ name ++ "\x60, expected \x60real\x60 or \x60fake\x60"
  | emptyTable => "wanted exactly 1 element, found 0 elements"
  | severalKeys => "wanted exactly 1 element, more than 1 element"
  | nonemptyTable => "expected empty table"
  | nonemptyArray => "expected empty array"
  | notTable kind => "expected table, found " ++ kind

namespace Config

def modeOfName (name : String) : Except ConfigFault Mode :=
  match Mode.ofName? name with
  | some m => .ok m
  | none => .error (.unknownName name)

/-- What stands beside a mode's name in a table has to be empty. -/
def checkEmpty : Toml.Item → Except ConfigFault Unit
  | .table t => if t.entries.isEmpty then .ok () else .error .nonemptyTable
  | .tables ts => if ts.isEmpty then .ok () else .error .nonemptyArray
  | .value (.inline t) => if t.entries.isEmpty then .ok () else .error .nonemptyTable
  | .value (.array vs) => if vs.isEmpty then .ok () else .error .nonemptyTable
  | .value v => .error (.notTable v.kind)

def modeOfTable (t : Toml.Table) : Except ConfigFault Mode :=
  match t.entries with
  | [] => .error .emptyTable
  | [(name, item)] => do
    let m ← modeOfName name
    checkEmpty item
    pure m
  | _ :: _ :: _ => .error .severalKeys

def modeOfItem : Toml.Item → Except ConfigFault Mode
  | .value (.string name) => modeOfName name
  | .value (.inline t) => modeOfTable t
  | .table t => modeOfTable t
  | _ => .error .neitherStringNorTable

def ofToml (text : String) : Except ConfigFault Config :=
  match Toml.parse text with
  | none => .error .malformed
  | some root =>
    match root.get? "mode" with
    | none => .ok {}
    | some item => (modeOfItem item).map fun mode => { mode }

def toToml (c : Config) : String := "mode = \"" ++ c.mode.name ++ "\"\n"

end Config

end VirtualClock
