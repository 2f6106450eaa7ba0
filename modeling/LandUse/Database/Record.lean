import LandUse.Text.Bytes
import LandUse.Value

namespace LandUse.Database

open Text (Bytes)

def bigEndian (bs : Bytes) : Nat := bs.foldl (fun n b => 256 * n + b.toNat) 0

def signedBigEndian (bs : Bytes) : Int :=
  let n := bigEndian bs
  let span := Nat.pow 256 bs.length
  if 2 * n < span then n else (n : Int) - span

/-- Groups of seven bits, most significant first; every byte but the last has its top bit set. -/
def readGroups : Nat → Nat → Bytes → Option (Nat × Bytes)
  | _, _, [] => none
  | 0, n, b :: r => some (256 * n + b.toNat, r)
  | left + 1, n, b :: r =>
    if b < 128 then some (128 * n + b.toNat, r) else readGroups left (128 * n + (b.toNat - 128)) r

def readNumber (bs : Bytes) : Option (Nat × Bytes) := readGroups 8 0 bs

def cellSize : Nat → Nat
  | 0 | 8 | 9 => 0
  | 5 => 6
  | 6 | 7 => 8
  | type => if type < 5 then type else (type - 12) / 2

def cell (type : Nat) (bs : Bytes) : Cell :=
  match type with
  | 0 => none
  | 7 => some (.double (Float.ofBits (UInt64.ofNat (bigEndian bs))))
  | 8 => some (.int 0)
  | 9 => some (.int 1)
  | _ => if type < 7 then some (.int (Int64.ofInt (signedBigEndian bs))) else some (.text (Text.ofBytes bs))

def readTypes : Nat → Bytes → List Nat
  | 0, _ => []
  | fuel + 1, bs =>
    match readNumber bs with
    | none => []
    | some (type, rest) => type :: readTypes fuel rest

def readCells : List Nat → Bytes → List Cell
  | [], _ => []
  | type :: types, bs => cell type (bs.take (cellSize type)) :: readCells types (bs.drop (cellSize type))

def readRecord (bs : Bytes) : List Cell :=
  match readNumber bs with
  | none => []
  | some (size, rest) =>
    let types := rest.take (size - (bs.length - rest.length))
    readCells (readTypes types.length types) (bs.drop size)

end LandUse.Database
