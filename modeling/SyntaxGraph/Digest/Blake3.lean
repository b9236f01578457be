/-!
# BLAKE3

The 256-bit digest that fingerprints a graph. The input is cut into chunks of 1024
bytes, each chunk is folded block by block into a chaining value, and the chaining
values are joined in a binary tree whose left side is always a complete one. The
compression at the root of the tree is marked as such and gives the digest.
-/

namespace SyntaxGraph.Blake3

/-- Sixteen words of a block or of a compression state. -/
abbrev Words := Array UInt32

def word (ws : Words) (i : Nat) : UInt32 := ws.getD i 0

/-- The words every chaining value starts from. -/
def startWords : Words :=
  #[0x6A09E667, 0xBB67AE85, 0x3C6EF372, 0xA54FF53A, 0x510E527F, 0x9B05688C, 0x1F83D9AB, 0x5BE0CD19]

/-- Where each word of a block moves from between two rounds. -/
def schedule : List Nat := [2, 6, 3, 10, 7, 0, 4, 13, 1, 11, 12, 5, 9, 14, 15, 8]

/-- Marks the first block of a chunk. -/
def chunkStart : UInt32 := 1

/-- Marks the last block of a chunk. -/
def chunkEnd : UInt32 := 2

/-- Marks the joining of two subtrees. -/
def parentFlag : UInt32 := 4

/-- Marks the compression that gives the digest. -/
def rootFlag : UInt32 := 8

def rotate (x : UInt32) (n : UInt32) : UInt32 := (x >>> n) ||| (x <<< (32 - n))

/-- Mix two words of a block into four words of the state. -/
def mix (state : Words) (a b c d : Nat) (x y : UInt32) : Words :=
  let va := word state a + word state b + x
  let vd := rotate (word state d ^^^ va) 16
  let vc := word state c + vd
  let vb := rotate (word state b ^^^ vc) 12
  let va := va + vb + y
  let vd := rotate (vd ^^^ va) 8
  let vc := vc + vd
  let vb := rotate (vb ^^^ vc) 7
  (((state.setIfInBounds a va).setIfInBounds b vb).setIfInBounds c vc).setIfInBounds d vd

/-- Mix a whole block into the state, first by columns, then by diagonals. -/
def mixRound (state block : Words) : Words :=
  let m := word block
  let state := mix state 0 4 8 12 (m 0) (m 1)
  let state := mix state 1 5 9 13 (m 2) (m 3)
  let state := mix state 2 6 10 14 (m 4) (m 5)
  let state := mix state 3 7 11 15 (m 6) (m 7)
  let state := mix state 0 5 10 15 (m 8) (m 9)
  let state := mix state 1 6 11 12 (m 10) (m 11)
  let state := mix state 2 7 8 13 (m 12) (m 13)
  mix state 3 4 9 14 (m 14) (m 15)

def permute (block : Words) : Words := (schedule.map (word block)).toArray

def rounds : Nat → Words → Words → Words
  | 0, state, _ => state
  | n + 1, state, block => rounds n (mixRound state block) (permute block)

/-- What is left to be compressed at a node of the tree. -/
structure Pending where
  /-- The chaining value so far, eight words. -/
  chaining : Words
  block : Words
  counter : UInt64
  length : UInt32
  flags : UInt32

/-- Compress a block; the first eight words are the next chaining value. -/
def Pending.compress (p : Pending) (extra : UInt32) (counter : UInt64) : Words :=
  let state := p.chaining ++ startWords.extract 0 4 ++
    #[counter.toUInt32, (counter >>> 32).toUInt32, p.length, p.flags ||| extra]
  let state := rounds 7 state p.block
  ((List.range 8).map fun i => word state i ^^^ word state (i + 8)).toArray

/-- The chaining value of a node that is not the root. -/
def Pending.chainingValue (p : Pending) : Words := p.compress 0 p.counter

def Pending.digest (p : Pending) : Words := p.compress rootFlag 0

/-- The word at byte `offset`, least byte first; bytes past the end are zero. -/
def wordAt (bytes : ByteArray) (stop offset : Nat) : UInt32 :=
  let byte (i : Nat) : UInt32 :=
    if offset + i < stop then
      if h : offset + i < bytes.size then bytes[offset + i].toUInt32 else 0
    else 0
  byte 0 ||| (byte 1 <<< 8) ||| (byte 2 <<< 16) ||| (byte 3 <<< 24)

def blockAt (bytes : ByteArray) (stop offset : Nat) : Words :=
  ((List.range 16).map fun i => wordAt bytes stop (offset + 4 * i)).toArray

/-- Fold the blocks of a chunk from `offset` to `stop`; `fuel` bounds their number. -/
def chunkFrom (bytes : ByteArray) (stop : Nat) (counter : UInt64) :
    Nat → Nat → UInt32 → Words → Pending
  | 0, offset, flags, chaining =>
    ⟨chaining, blockAt bytes stop offset, counter, UInt32.ofNat (stop - offset), flags ||| chunkEnd⟩
  | fuel + 1, offset, flags, chaining =>
    if stop - offset ≤ 64 then
      ⟨chaining, blockAt bytes stop offset, counter, UInt32.ofNat (stop - offset),
        flags ||| chunkEnd⟩
    else
      let next := Pending.chainingValue ⟨chaining, blockAt bytes stop offset, counter, 64, flags⟩
      chunkFrom bytes stop counter fuel (offset + 64) 0 next

def chunk (bytes : ByteArray) (index : Nat) : Pending :=
  let start := index * 1024
  let stop := min bytes.size (start + 1024)
  chunkFrom bytes stop (UInt64.ofNat index) 16 start chunkStart startWords

/-- The number of chunks; an empty input still has one. -/
def chunkCount (size : Nat) : Nat := max 1 ((size + 1023) / 1024)

/-- How many of `n` chunks, at least two, go to the left: the greatest power of two below `n`. -/
def leftCount (n : Nat) : Nat := Nat.pow 2 (n - 1).log2

/-- The tree over `count` chunks from number `first` on; `fuel` bounds its height. -/
def tree (bytes : ByteArray) : Nat → Nat → Nat → Pending
  | 0, first, _ => chunk bytes first
  | fuel + 1, first, count =>
    if count ≤ 1 then chunk bytes first
    else
      let left := leftCount count
      let leftValue := (tree bytes fuel first left).chainingValue
      let rightValue := (tree bytes fuel (first + left) (count - left)).chainingValue
      ⟨startWords, leftValue ++ rightValue, 0, 64, parentFlag⟩

/-- A word as eight hexadecimal digits, least byte first. -/
def wordHex (w : UInt32) : List Char :=
  (List.range 4).flatMap fun i =>
    let byte := (w >>> (8 * UInt32.ofNat i)).toNat % 256
    [Nat.digitChar (byte / 16), Nat.digitChar (byte % 16)]

def hexDigest (bytes : ByteArray) : String :=
  let count := chunkCount bytes.size
  let words := (tree bytes (count.log2 + 1) 0 count).digest
  String.ofList (words.toList.flatMap wordHex)

end SyntaxGraph.Blake3
