import LandUse.Text.Bytes

namespace LandUse.Hash.Blake3

open Text (Bytes)

abbrev Words := Array UInt32

def initial : Words := #[0x6A09E667, 0xBB67AE85, 0x3C6EF372, 0xA54FF53A, 0x510E527F, 0x9B05688C, 0x1F83D9AB, 0x5BE0CD19]

def schedule : List Nat := [2, 6, 3, 10, 7, 0, 4, 13, 1, 11, 12, 5, 9, 14, 15, 8]

def chunkStart : UInt32 := 1

def chunkEnd : UInt32 := 2

def parent : UInt32 := 4

def root : UInt32 := 8

def word (ws : Words) (i : Nat) : UInt32 := ws.getD i 0

def rotateRight (w : UInt32) (n : UInt32) : UInt32 := (w >>> n) ||| (w <<< (32 - n))

def mix (s : Words) (a b c d : Nat) (x y : UInt32) : Words :=
  let va := word s a + word s b + x
  let vd := rotateRight (word s d ^^^ va) 16
  let vc := word s c + vd
  let vb := rotateRight (word s b ^^^ vc) 12
  let va := va + vb + y
  let vd := rotateRight (vd ^^^ va) 8
  let vc := vc + vd
  let vb := rotateRight (vb ^^^ vc) 7
  (((s.setIfInBounds a va).setIfInBounds b vb).setIfInBounds c vc).setIfInBounds d vd

def lanes : List (Nat × Nat × Nat × Nat) :=
  [(0, 4, 8, 12), (1, 5, 9, 13), (2, 6, 10, 14), (3, 7, 11, 15), (0, 5, 10, 15), (1, 6, 11, 12),
    (2, 7, 8, 13), (3, 4, 9, 14)]

def mixAll (s block : Words) : Words :=
  lanes.zipIdx.foldl (fun s ((a, b, c, d), i) => mix s a b c d (word block (2 * i)) (word block (2 * i + 1))) s

def permute (block : Words) : Words := (schedule.map (word block)).toArray

def rounds : Nat → Words → Words → Words
  | 0, s, _ => s
  | n + 1, s, block => rounds n (mixAll s block) (permute block)

structure Node where
  chaining : Words
  block : Words
  counter : Nat
  length : Nat
  flags : UInt32

def Node.compress (n : Node) (flags : UInt32) : Words :=
  let state := n.chaining ++ #[word initial 0, word initial 1, word initial 2, word initial 3,
    UInt32.ofNat n.counter, UInt32.ofNat (n.counter / 4294967296), UInt32.ofNat n.length, n.flags ||| flags]
  let s := rounds 7 state n.block
  ((List.range 8).map fun i => word s i ^^^ word s (i + 8)).toArray

def blockWords (bs : Bytes) : Words :=
  ((List.range 16).map fun i =>
    ((bs.drop (4 * i)).take 4).foldr (fun b (w : UInt32) => (w <<< 8) ||| b.toUInt32) 0).toArray

def chunkBlocks (counter : Nat) : Nat → Words → UInt32 → Bytes → Node
  | 0, chaining, flags, bs => ⟨chaining, blockWords bs, counter, bs.length, flags ||| chunkEnd⟩
  | fuel + 1, chaining, flags, bs =>
    if bs.length ≤ 64 then ⟨chaining, blockWords bs, counter, bs.length, flags ||| chunkEnd⟩
    else
      let node : Node := ⟨chaining, blockWords (bs.take 64), counter, 64, flags⟩
      chunkBlocks counter fuel (node.compress 0) 0 (bs.drop 64)

def chunk (counter : Nat) (bs : Bytes) : Node := chunkBlocks counter 16 initial chunkStart bs

def tree : Nat → Nat → Bytes → Node
  | 0, counter, bs => chunk counter bs
  | fuel + 1, counter, bs =>
    if bs.length ≤ 1024 then chunk counter bs
    else
      let left := Nat.pow 2 ((bs.length - 1) / 1024).log2
      let l := (tree fuel counter (bs.take (1024 * left))).compress 0
      let r := (tree fuel (counter + left) (bs.drop (1024 * left))).compress 0
      ⟨initial, l ++ r, 0, 64, parent⟩

def wordBytes (w : UInt32) : Bytes :=
  [w.toUInt8, (w >>> 8).toUInt8, (w >>> 16).toUInt8, (w >>> 24).toUInt8]

def hash (bs : Bytes) : Bytes := ((tree bs.length 0 bs).compress root).toList.flatMap wordBytes

end LandUse.Hash.Blake3
