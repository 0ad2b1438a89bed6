import VirtualClock.Text.Quoted

/-!
Bytes as UTF-8. Any bytes split into characters and broken pieces, a broken piece being the
longest start of an encoding at that place, or one byte that starts none. Bytes decode exactly
when nothing is broken; the two other readings show broken pieces as a replacement character
or, in quotes, byte by byte.
-/

namespace VirtualClock.Text

inductive Piece where
  | char (c : Char)
  | broken (bytes : List UInt8)

/-- The start of an encoding: what it has and what the next byte may be. -/
structure Opening where
  bytes : List UInt8
  code : Nat
  missing : Nat
  low : Nat
  high : Nat

/-- Encodings that are too long, surrogates, and codes past the last one have no opening. -/
def Opening.of? (b : UInt8) : Option Opening :=
  let n := b.toNat
  if 0xC2 ≤ n && n ≤ 0xDF then some ⟨[b], n - 0xC0, 1, 0x80, 0xBF⟩
  else if n == 0xE0 then some ⟨[b], 0x0, 2, 0xA0, 0xBF⟩
  else if n == 0xED then some ⟨[b], 0xD, 2, 0x80, 0x9F⟩
  else if 0xE1 ≤ n && n ≤ 0xEF then some ⟨[b], n - 0xE0, 2, 0x80, 0xBF⟩
  else if n == 0xF0 then some ⟨[b], 0x0, 3, 0x90, 0xBF⟩
  else if 0xF1 ≤ n && n ≤ 0xF3 then some ⟨[b], n - 0xF0, 3, 0x80, 0xBF⟩
  else if n == 0xF4 then some ⟨[b], 0x4, 3, 0x80, 0x8F⟩
  else none

/-- A byte where no encoding is open. -/
def startByte (b : UInt8) : List Piece × Option Opening :=
  if b.toNat < 0x80 then ([.char (Char.ofNat b.toNat)], none)
  else
    match Opening.of? b with
    | some o => ([], some o)
    | none => ([.broken [b]], none)

def piecesFrom : Option Opening → List UInt8 → List Piece
  | none, [] => []
  | some o, [] => [.broken o.bytes]
  | none, b :: rest =>
    let (out, state) := startByte b
    out ++ piecesFrom state rest
  | some o, b :: rest =>
    if o.low ≤ b.toNat && b.toNat ≤ o.high then
      let code := o.code * 64 + (b.toNat - 0x80)
      if o.missing ≤ 1 then .char (Char.ofNat code) :: piecesFrom none rest
      else piecesFrom (some ⟨o.bytes ++ [b], code, o.missing - 1, 0x80, 0xBF⟩) rest
    else
      let (out, state) := startByte b
      .broken o.bytes :: out ++ piecesFrom state rest

def pieces (bytes : List UInt8) : List Piece := piecesFrom none bytes

namespace Piece

def char? : Piece → Option Char
  | char c => some c
  | broken _ => none

def bytes : Piece → List UInt8
  | char c => String.utf8EncodeChar c
  | broken bytes => bytes

end Piece

def decode? (bytes : List UInt8) : Option String :=
  ((pieces bytes).mapM Piece.char?).map String.ofList

/-- A replacement character for each broken piece. -/
def decodeLossy (bytes : List UInt8) : String :=
  String.ofList ((pieces bytes).map fun piece => piece.char?.getD '\uFFFD')

def escapeByte (b : UInt8) : List Char :=
  ['\\', 'x'] ++ ((hexDigits (b.toNat / 16)) ++ (hexDigits (b.toNat % 16))).map Char.toUpper

def quotedBytes (bytes : List UInt8) : String :=
  inQuotes ((pieces bytes).flatMap fun
    | .char c => escape c
    | .broken bytes => bytes.flatMap escapeByte)

end VirtualClock.Text
