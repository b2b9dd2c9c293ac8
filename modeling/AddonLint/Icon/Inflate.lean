/-!
# Compressed streams

Decompression of deflate blocks and of the zlib frame around them. A code is a binary tree that is
grown from the lengths of its code words; every code but the one for distances has to use up all
code words. The checksum at the end has to be there but is not compared.
-/
namespace AddonLint.Inflate

/-- Bits still to be read, the first one in front. -/
abbrev Bits := List Bool

/-- The bits of a byte, the lowest in front. -/
def bitsOfByte (b : UInt8) : Bits := (List.range 8).map fun i => b.toNat.testBit i

def bitsOfBytes (bytes : List UInt8) : Bits := bytes.flatMap bitsOfByte

/-- A number of `count` bits, the lowest in front. -/
def number : (count : Nat) → Bits → Option (Nat × Bits)
  | 0, bits => some (0, bits)
  | _ + 1, [] => none
  | count + 1, b :: bits => do
    let (n, rest) ← number count bits
    return (2 * n + b.toNat, rest)

/-- The bits from the next byte border on. -/
def align (bits : Bits) : Bits := bits.drop (bits.length % 8)

/-- A code: its words are the paths from the root to the leaves. -/
inductive CodeTree where
  | gap
  | leaf (symbol : Nat)
  | node (zero one : CodeTree)
  deriving Inhabited

namespace CodeTree

/-- Grow the subtree at a depth from the symbols still to be placed, which are given with the
lengths of their words in increasing order; also the symbols that found no place. -/
def grow : (room depth : Nat) → List (Nat × Nat) → CodeTree × List (Nat × Nat)
  | _, _, [] => (.gap, [])
  | room, depth, (length, symbol) :: rest =>
    if length = depth then (.leaf symbol, rest)
    else
      match room with
      | 0 => (.gap, (length, symbol) :: rest)
      | room + 1 =>
        let (zero, rest) := grow room (depth + 1) ((length, symbol) :: rest)
        let (one, rest) := grow room (depth + 1) rest
        (.node zero one, rest)

/-- The symbols that have a word, by increasing length and then by symbol. -/
def symbols (lengths : List Nat) : List (Nat × Nat) :=
  (List.range 15).flatMap fun i => (lengths.zipIdx).filter fun p => p.1 = i + 1

/-- Whether every path ends at a leaf. -/
def isFull : CodeTree → Bool
  | .gap => false
  | .leaf _ => true
  | .node zero one => zero.isFull && one.isFull

/-- The code of given lengths, which uses every word; a length of zero means no word. -/
def full? (lengths : List Nat) : Option CodeTree :=
  let (tree, left) := grow 15 0 (symbols lengths)
  if left.isEmpty && tree.isFull then some tree else none

/-- The code of the distances, which may also have no word, or a single one of one bit. -/
def distances? (lengths : List Nat) : Option CodeTree :=
  match symbols lengths with
  | [] => some .gap
  | [(1, symbol)] => some (.node (.leaf symbol) .gap)
  | _ => full? lengths

def read : CodeTree → Bits → Option (Nat × Bits)
  | .leaf symbol, bits => some (symbol, bits)
  | .node zero one, b :: bits => if b then one.read bits else zero.read bits
  | _, _ => none

end CodeTree

/-- The base and the number of extra bits of each length symbol from 257 on. -/
def lengthTable : List (Nat × Nat) :=
  [(3, 0), (4, 0), (5, 0), (6, 0), (7, 0), (8, 0), (9, 0), (10, 0), (11, 1), (13, 1), (15, 1),
    (17, 1), (19, 2), (23, 2), (27, 2), (31, 2), (35, 3), (43, 3), (51, 3), (59, 3), (67, 4),
    (83, 4), (99, 4), (115, 4), (131, 5), (163, 5), (195, 5), (227, 5), (258, 0)]

/-- The base and the number of extra bits of each distance symbol. -/
def distanceTable : List (Nat × Nat) :=
  [(1, 0), (2, 0), (3, 0), (4, 0), (5, 1), (7, 1), (9, 2), (13, 2), (17, 3), (25, 3), (33, 4),
    (49, 4), (65, 5), (97, 5), (129, 6), (193, 6), (257, 7), (385, 7), (513, 8), (769, 8),
    (1025, 9), (1537, 9), (2049, 10), (3073, 10), (4097, 11), (6145, 11), (8193, 12),
    (12289, 12), (16385, 13), (24577, 13)]

/-- The number that a symbol of a table stands for, with its extra bits. -/
def extended (table : List (Nat × Nat)) (symbol : Nat) (bits : Bits) : Option (Nat × Bits) := do
  let (base, extra) ← table[symbol]?
  let (n, rest) ← number extra bits
  return (base + n, rest)

/-- Repeat output from `distance` bytes back; there are that many. -/
def copyBack (distance : Nat) : (count : Nat) → Array UInt8 → Array UInt8
  | 0, out => out
  | count + 1, out => copyBack distance count (out.push (out.getD (out.size - distance) 0))

/-- Read symbols up to the end of a block. Every symbol takes a bit at least. -/
def readSymbols (literals distances : CodeTree) :
    (fuel : Nat) → Bits → Array UInt8 → Option (Bits × Array UInt8)
  | 0, _, _ => none
  | fuel + 1, bits, out => do
    let (symbol, bits) ← literals.read bits
    if symbol < 256 then readSymbols literals distances fuel bits (out.push (UInt8.ofNat symbol))
    else if symbol = 256 then some (bits, out)
    else
      let (count, bits) ← extended lengthTable (symbol - 257) bits
      let (symbol, bits) ← distances.read bits
      let (distance, bits) ← extended distanceTable symbol bits
      if out.size < distance then none
      else readSymbols literals distances fuel bits (copyBack distance count out)

/-- The order in which the lengths of the code of the code lengths are given. -/
def lengthOrder : List Nat := [16, 17, 18, 0, 8, 7, 9, 6, 10, 5, 11, 4, 12, 3, 13, 2, 14, 1, 15]

def readTriples : (count : Nat) → Bits → Option (List Nat × Bits)
  | 0, bits => some ([], bits)
  | count + 1, bits => do
    let (n, bits) ← number 3 bits
    let (rest, bits) ← readTriples count bits
    return (n :: rest, bits)

/-- Read code lengths, newest in front, until there are `wanted` of them. -/
def readLengths (code : CodeTree) (wanted : Nat) :
    (fuel : Nat) → Bits → List Nat → Option (List Nat × Bits)
  | 0, _, _ => none
  | fuel + 1, bits, lengths =>
    if lengths.length = wanted then some (lengths.reverse, bits)
    else if wanted < lengths.length then none
    else do
      let (symbol, bits) ← code.read bits
      match symbol, lengths with
      | 16, [] => none
      | 16, last :: _ =>
        let (n, bits) ← number 2 bits
        readLengths code wanted fuel bits (List.replicate (n + 3) last ++ lengths)
      | 17, _ =>
        let (n, bits) ← number 3 bits
        readLengths code wanted fuel bits (List.replicate (n + 3) 0 ++ lengths)
      | 18, _ =>
        let (n, bits) ← number 7 bits
        readLengths code wanted fuel bits (List.replicate (n + 11) 0 ++ lengths)
      | _, _ => readLengths code wanted fuel bits (symbol :: lengths)

/-- The two codes at the start of a block that brings its own. -/
def readCodes (fuel : Nat) (bits : Bits) : Option (CodeTree × CodeTree × Bits) := do
  let (literalCount, bits) ← number 5 bits
  let (distanceCount, bits) ← number 5 bits
  let (orderCount, bits) ← number 4 bits
  if 29 < literalCount ∨ 29 < distanceCount then none
  let (triples, bits) ← readTriples (orderCount + 4) bits
  let given := lengthOrder.zip triples
  let code ← CodeTree.full? ((List.range 19).map fun symbol => (given.lookup symbol).getD 0)
  let (lengths, bits) ← readLengths code (literalCount + distanceCount + 258) fuel bits []
  let literalLengths := lengths.take (literalCount + 257)
  if literalLengths[256]? = some 0 then none
  let literals ← CodeTree.full? literalLengths
  let distances ← CodeTree.distances? (lengths.drop (literalCount + 257))
  return (literals, distances, bits)

def fixedLiteralLengths : List Nat :=
  List.replicate 144 8 ++ List.replicate 112 9 ++ List.replicate 24 7 ++ List.replicate 8 8

/-- The fixed code for literals and lengths. -/
def fixedLiterals : CodeTree := (CodeTree.full? fixedLiteralLengths).getD .gap

def fixedDistances : CodeTree := (CodeTree.full? (List.replicate 32 5)).getD .gap

def readStored : (count : Nat) → Bits → Array UInt8 → Option (Bits × Array UInt8)
  | 0, bits, out => some (bits, out)
  | count + 1, bits, out => do
    let (b, bits) ← number 8 bits
    readStored count bits (out.push (UInt8.ofNat b))

/-- The contents of a block of one of the three kinds. -/
def readBlock (fuel kind : Nat) (bits : Bits) (out : Array UInt8) :
    Option (Bits × Array UInt8) :=
  match kind with
  | 0 => do
    let (count, bits) ← number 16 (align bits)
    let (complement, bits) ← number 16 bits
    if count + complement = 65535 then readStored count bits out else none
  | 1 => readSymbols fixedLiterals fixedDistances fuel bits out
  | 2 => do
    let (literals, distances, bits) ← readCodes fuel bits
    readSymbols literals distances fuel bits out
  | _ => none

/-- Read blocks up to the last one. Every block takes three bits at least. -/
def readBlocks : (fuel : Nat) → Bits → Array UInt8 → Option (Bits × Array UInt8)
  | 0, _, _ => none
  | fuel + 1, bits, out => do
    let (last, bits) ← number 1 bits
    let (kind, bits) ← number 2 bits
    let (bits, out) ← readBlock fuel kind bits out
    if last = 1 then some (bits, out) else readBlocks fuel bits out

/-- The two bytes at the start of a zlib stream: a deflate stream, a window of at most 32 KiB, no
preset dictionary, and a multiple of thirty-one. -/
def isHeader (method flags : Nat) : Bool :=
  method % 16 = 8 && method / 16 ≤ 7 && flags / 32 % 2 = 0 && (256 * method + flags) % 31 = 0

/-- The bytes that a zlib stream stands for. What follows the checksum is not looked at. -/
def zlib (bytes : List UInt8) : Option (Array UInt8) :=
  match bytes with
  | method :: flags :: rest => do
    if !isHeader method.toNat flags.toNat then none
    let bits := bitsOfBytes rest
    let (bits, out) ← readBlocks (bits.length + 1) bits #[]
    let _ ← number 32 (align bits)
    return out
  | _ => none

end AddonLint.Inflate
