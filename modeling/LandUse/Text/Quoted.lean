import LandUse.Text.Bytes
import LandUse.Text.Printable

namespace LandUse.Text

def hexDigits (width n : Nat) : String :=
  let ds := String.ofList (Nat.toDigits 16 n)
  String.ofList (List.replicate (width - ds.length) '0') ++ ds

def quoteChar (c : Char) : String :=
  if c == '"' then "\\\""
  else if c == '\\' then "\\\\"
  else if isPrintable c then String.singleton c
  else match c.toNat with
    | 7 => "\\a"
    | 8 => "\\b"
    | 12 => "\\f"
    | 10 => "\\n"
    | 13 => "\\r"
    | 9 => "\\t"
    | 11 => "\\v"
    | n =>
      if n < 0x20 || n == 0x7F then "\\x" ++ hexDigits 2 n
      else if n < 0x10000 then "\\u" ++ hexDigits 4 n
      else "\\U" ++ hexDigits 8 n

def quoteGlyph : Glyph → String
  | .char c => quoteChar c
  | .stray b => "\\x" ++ hexDigits 2 b.toNat

def quoteBytes (bs : Bytes) : String := "\"" ++ String.join ((glyphs bs).map quoteGlyph) ++ "\""

def quote (s : String) : String := "\"" ++ String.join (s.toList.map quoteChar) ++ "\""

end LandUse.Text
