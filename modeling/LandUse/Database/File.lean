import LandUse.Database.Record

/-! A file is a sequence of pages; the rows of a table are the leaves of a tree of pages. -/

namespace LandUse.Database

open Text (Bytes)

structure File where
  bytes : ByteArray
  pageSize : Nat
  usable : Nat

namespace File

def slice (bs : ByteArray) (start stop : Nat) : Bytes := (bs.extract start stop).toList

def magic : Bytes := Text.bytes "SQLite format 3" ++ [0]

def open? (bs : ByteArray) : Option File :=
  let size := bigEndian (slice bs 16 18)
  let pageSize := if size = 1 then 65536 else size
  let usable := pageSize - bigEndian (slice bs 20 21)
  if slice bs 0 16 == magic && 512 ≤ pageSize && 480 ≤ usable && bigEndian (slice bs 56 60) ≤ 1 then
    some ⟨bs, pageSize, usable⟩
  else none

def pageCount (f : File) : Nat := f.bytes.size / f.pageSize

def pageFrom (f : File) (page start : Nat) : Bytes :=
  slice f.bytes ((page - 1) * f.pageSize + start) ((page - 1) * f.pageSize + f.usable)

def localSize (f : File) (length : Nat) : Nat :=
  let most := f.usable - 35
  let least := (f.usable - 12) * 32 / 255 - 23
  let kept := least + (length - least) % (f.usable - 4)
  if length ≤ most then length else if kept ≤ most then kept else least

def chain (f : File) : Nat → Nat → Nat → Bytes
  | 0, _, _ => []
  | fuel + 1, page, left =>
    if page = 0 || left = 0 then []
    else
      let content := f.pageFrom page 0
      let part := (content.drop 4).take left
      part ++ chain f fuel (bigEndian (content.take 4)) (left - part.length)

abbrev NumberedRow := Nat × List Cell

def readRow (f : File) (page start : Nat) : Option NumberedRow := do
  let (length, rest) ← readNumber (f.pageFrom page start)
  let (number, rest) ← readNumber rest
  let here := f.localSize length
  let next := bigEndian ((rest.drop here).take 4)
  return (number, readRecord (rest.take here ++ f.chain f.pageCount next (length - here)))

def entries (content : Bytes) (header count : Nat) : List Nat :=
  (List.range count).map fun i => bigEndian ((content.drop (header + 2 * i)).take 2)

def rowsBelow (f : File) : Nat → List Nat → List NumberedRow
  | 0, _ => []
  | _, [] => []
  | fuel + 1, page :: pages =>
    let offset := if page = 1 then 100 else 0
    let content := f.pageFrom page 0
    let header := content.drop offset
    let count := bigEndian ((header.drop 3).take 2)
    match header.head? with
    | some 13 => (entries header 8 count).filterMap (f.readRow page) ++ rowsBelow f fuel pages
    | some 5 =>
      let children := (entries header 12 count).map fun i => bigEndian ((content.drop i).take 4)
      rowsBelow f fuel (children ++ bigEndian ((header.drop 8).take 4) :: pages)
    | _ => rowsBelow f fuel pages

def rows (f : File) (page : Nat) : List NumberedRow := f.rowsBelow f.pageCount [page]

end File

end LandUse.Database
