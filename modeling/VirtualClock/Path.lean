/-!
Paths as the host sees them: bytes, with a slash between components.
-/

namespace VirtualClock

structure Path where
  bytes : List UInt8
  deriving DecidableEq

namespace Path

def slash : UInt8 := 47

def ofString (s : String) : Path := ⟨s.toUTF8.toList⟩

/-- One slash goes between the two parts, but none after an empty part or another slash. -/
def join (base : Path) (below : String) : Path :=
  let between :=
    match base.bytes.getLast? with
    | none => []
    | some b => if b = slash then [] else [slash]
  ⟨base.bytes ++ between ++ (ofString below).bytes⟩

/-- What stands between slashes; a path that starts or ends with one has an empty component
there. -/
def components (p : Path) : List (List UInt8) := p.bytes.splitOn slash

def isAbsolute (p : Path) : Bool := p.bytes.head? == some slash

end Path

end VirtualClock
