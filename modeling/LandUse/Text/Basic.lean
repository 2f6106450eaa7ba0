namespace LandUse.Text

/-- Runs are given by their lengths and count in turns; behind the last one all is alike. -/
def inRun : Bool → List Nat → Nat → Bool
  | counts, [], _ => counts
  | counts, n :: runs, place => if place < n then counts else inRun (!counts) runs (place - n)

def isBlank (c : Char) : Bool :=
  let n := c.toNat
  (9 ≤ n && n ≤ 13) || n == 0x20 || n == 0x85 || n == 0xA0 || n == 0x1680 ||
    (0x2000 ≤ n && n ≤ 0x200A) || n == 0x2028 || n == 0x2029 || n == 0x202F || n == 0x205F || n == 0x3000

def trimChars (cs : List Char) : List Char :=
  ((cs.dropWhile isBlank).reverse.dropWhile isBlank).reverse

def trim (s : String) : String := String.ofList (trimChars s.toList)

def fieldsFrom : List Char → List Char → List (List Char)
  | [], [] => []
  | word, [] => [word.reverse]
  | word, c :: cs =>
    if isBlank c then
      if word.isEmpty then fieldsFrom [] cs else word.reverse :: fieldsFrom [] cs
    else fieldsFrom (c :: word) cs

def fields (s : String) : List String := (fieldsFrom [] s.toList).map String.ofList

def occursIn (needle hay : List Char) : Bool :=
  needle.isPrefixOf hay ||
    match hay with
    | [] => false
    | _ :: r => occursIn needle r

def contains (s part : String) : Bool := occursIn part.toList s.toList

def startsWith (s start : String) : Bool := start.toList.isPrefixOf s.toList

end LandUse.Text
