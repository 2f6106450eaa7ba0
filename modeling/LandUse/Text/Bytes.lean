/-! Positions count bytes, so sources are lists of bytes; a piece of one may end inside a character. -/

namespace LandUse.Text

abbrev Bytes := List UInt8

def bytes (s : String) : Bytes := s.toList.flatMap String.utf8EncodeChar

def ascii (bs : Bytes) : String := String.ofList (bs.map fun b => Char.ofNat b.toNat)

def slice (bs : Bytes) (a b : Nat) : Bytes := (bs.drop a).take (b - a)

/-- A whole character, or a byte that belongs to none. -/
inductive Glyph where
  | char (c : Char)
  | stray (b : UInt8)

def isContinuation (b : UInt8) : Bool := 0x80 ≤ b && b < 0xC0

/-- Overlong forms, surrogates and values past the last code point start no character. -/
def leadingChar : Bytes → Option (Char × Nat)
  | [] => none
  | a :: r =>
    if a < 0x80 then some (Char.ofNat a.toNat, 1)
    else if 0xC2 ≤ a && a < 0xE0 then
      match r with
      | b :: _ =>
        if isContinuation b then some (Char.ofNat ((a.toNat - 0xC0) * 64 + (b.toNat - 0x80)), 2) else none
      | _ => none
    else if 0xE0 ≤ a && a < 0xF0 then
      match r with
      | b :: c :: _ =>
        if isContinuation b && isContinuation c && (a != 0xE0 || 0xA0 ≤ b) && (a != 0xED || b < 0xA0) then
          some (Char.ofNat ((a.toNat - 0xE0) * 4096 + (b.toNat - 0x80) * 64 + (c.toNat - 0x80)), 3)
        else none
      | _ => none
    else if 0xF0 ≤ a && a < 0xF5 then
      match r with
      | b :: c :: d :: _ =>
        if isContinuation b && isContinuation c && isContinuation d &&
            (a != 0xF0 || 0x90 ≤ b) && (a != 0xF4 || b < 0x90) then
          some (Char.ofNat ((a.toNat - 0xF0) * 262144 + (b.toNat - 0x80) * 4096 +
            (c.toNat - 0x80) * 64 + (d.toNat - 0x80)), 4)
        else none
      | _ => none
    else none

def glyphsFrom : Nat → Bytes → List Glyph
  | 0, _ => []
  | _ + 1, [] => []
  | fuel + 1, b :: r =>
    match leadingChar (b :: r) with
    | some (c, n) => .char c :: glyphsFrom fuel (r.drop (n - 1))
    | none => .stray b :: glyphsFrom fuel r

def glyphs (bs : Bytes) : List Glyph := glyphsFrom bs.length bs

def ofBytes (bs : Bytes) : String :=
  String.ofList ((glyphs bs).map fun | .char c => c | .stray _ => Char.ofNat 0xFFFD)

end LandUse.Text
