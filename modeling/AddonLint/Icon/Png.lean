import AddonLint.Icon.Inflate

/-!
# PNG images

Whether a byte string is a PNG image whose picture can be decoded. It starts with a signature; then
chunks follow, each with a length, a type, data and a checksum. The header comes first and limits
the size of the picture; the picture is one compressed stream in consecutive data chunks, and
nothing behind the first bytes of the chunk after them is looked at. The chunks in front of the
picture have to be well formed where their type is known, and their data have to fit into a limited
memory, together with a row of the picture.
-/
namespace AddonLint.Png

def signature : List UInt8 := [0x89, 0x50, 0x4E, 0x47, 0x0D, 0x0A, 0x1A, 0x0A]

/-- A number of bytes, the highest in front. -/
def bigEndian (bytes : List UInt8) : Nat := bytes.foldl (fun n b => 256 * n + b.toNat) 0

/-- One round of the checksum for each of the eight bits of a byte. -/
def checksumRounds : (count : Nat) → UInt32 → UInt32
  | 0, c => c
  | count + 1, c => checksumRounds count (if c % 2 = 1 then (c >>> 1) ^^^ 0xEDB88320 else c >>> 1)

/-- The checksum (CRC-32) of a byte string. -/
def checksum (bytes : List UInt8) : UInt32 :=
  bytes.foldl (fun c b => checksumRounds 8 (c ^^^ b.toUInt32)) 0xFFFFFFFF ^^^ 0xFFFFFFFF

def nameBytes (name : String) : List UInt8 := name.toList.map fun c => UInt8.ofNat c.toNat

/-- A chunk type. -/
abbrev ChunkType := List UInt8

def headerType : ChunkType := nameBytes "IHDR"

def paletteType : ChunkType := nameBytes "PLTE"

def dataType : ChunkType := nameBytes "IDAT"

def endType : ChunkType := nameBytes "IEND"

/-- The type of the transparency of a picture without an alpha channel. -/
def transparencyType : ChunkType := nameBytes "tRNS"

def gammaType : ChunkType := nameBytes "gAMA"

def densityType : ChunkType := nameBytes "pHYs"

/-- The type of how colours are to be rendered. -/
def intentType : ChunkType := nameBytes "sRGB"

/-- The type of the colours that the samples stand for. -/
def chromaType : ChunkType := nameBytes "cHRM"

def textType : ChunkType := nameBytes "tEXt"

def compressedTextType : ChunkType := nameBytes "zTXt"

def internationalTextType : ChunkType := nameBytes "iTXt"

def animationType : ChunkType := nameBytes "acTL"

/-- The type of the place and the duration of a frame. -/
def frameType : ChunkType := nameBytes "fcTL"

/-- The type of a piece of a compressed frame. -/
def frameDataType : ChunkType := nameBytes "fdAT"

/-- Whether the image cannot be shown without chunks of a type: its first letter is upper case. -/
def isCritical (type : ChunkType) : Bool :=
  match type with
  | b :: _ => b.toNat / 32 % 2 = 0
  | [] => false

/-- How the samples of a pixel are stored. -/
inductive Colour where
  | grey
  | rgb
  | indexed
  | greyAlpha
  | rgbAlpha
  deriving DecidableEq, Repr

namespace Colour

def ofNumber? : Nat → Option Colour
  | 0 => some .grey
  | 2 => some .rgb
  | 3 => some .indexed
  | 4 => some .greyAlpha
  | 6 => some .rgbAlpha
  | _ => none

def samples : Colour → Nat
  | .grey => 1
  | .rgb => 3
  | .indexed => 1
  | .greyAlpha => 2
  | .rgbAlpha => 4

/-- The bits that a sample may have. -/
def depths : Colour → List Nat
  | .grey => [1, 2, 4, 8, 16]
  | .indexed => [1, 2, 4, 8]
  | _ => [8, 16]

end Colour

/-- What the header says. -/
structure Header where
  width : Nat
  height : Nat
  depth : Nat
  colour : Colour
  interlaced : Bool
  deriving DecidableEq, Repr

namespace Header

/-- The header in the data of the first chunk. -/
def ofData? (data : List UInt8) : Option Header :=
  match data.drop 8 with
  | depth :: colour :: compression :: filter :: interlace :: _ => do
    let width := bigEndian (data.take 4)
    let height := bigEndian ((data.drop 4).take 4)
    let colour ← Colour.ofNumber? colour.toNat
    if width = 0 ∨ height = 0 ∨ depth.toNat ∉ colour.depths ∨ compression ≠ 0 ∨ filter ≠ 0 ∨
        1 < interlace.toNat then none
    else some ⟨width, height, depth.toNat, colour, interlace = 1⟩
  | _ => none

def rowBytes (h : Header) (width : Nat) : Nat := (width * (h.colour.samples * h.depth) + 7) / 8

def frameBytes (h : Header) : Nat := h.rowBytes h.width * h.height

/-- The largest picture that is decoded, and the limit on the memory for the chunks: 16 MiB. -/
def maxFrameBytes : Nat := 16 * 1024 * 1024

end Header

/-- One of the seven passes of an interlaced picture: where it starts and how far its pixels are
apart. -/
structure Pass where
  left : Nat
  top : Nat
  right : Nat
  down : Nat

def passes : List Pass :=
  [⟨0, 0, 8, 8⟩, ⟨4, 0, 8, 8⟩, ⟨0, 4, 4, 8⟩, ⟨2, 0, 4, 4⟩, ⟨0, 2, 2, 4⟩, ⟨1, 0, 2, 2⟩,
    ⟨0, 1, 1, 2⟩]

/-- Groups of equal rows: the bytes of a row and the number of rows. -/
def Header.rowGroups (h : Header) : List (Nat × Nat) :=
  if h.interlaced then
    passes.filterMap fun p =>
      let width := (h.width + p.right - 1 - p.left) / p.right
      let height := (h.height + p.down - 1 - p.top) / p.down
      if width = 0 ∨ height = 0 then none else some (h.rowBytes width, height)
  else [(h.rowBytes h.width, h.height)]

/-- The position after some equal rows, if they are all there and each starts with a known
filter. -/
def afterRows? (pixels : Array UInt8) (rowBytes : Nat) : (count position : Nat) → Option Nat
  | 0, position => some position
  | count + 1, position =>
    if pixels.size < position + rowBytes + 1 then none
    else if 4 < (pixels.getD position 0).toNat then none
    else afterRows? pixels rowBytes count (position + rowBytes + 1)

/-- Whether the decompressed data hold every row of the picture. -/
def holdsRows (pixels : Array UInt8) : List (Nat × Nat) → (position : Nat) → Bool
  | [], _ => true
  | (rowBytes, count) :: rest, position =>
    match afterRows? pixels rowBytes count position with
    | some position => holdsRows pixels rest position
    | none => false

/-- A chunk and whether its checksum is right. -/
structure Chunk where
  type : ChunkType
  data : List UInt8
  intact : Bool

/-- The first chunk and what follows it. -/
def readChunk (bytes : List UInt8) : Option (Chunk × List UInt8) :=
  let length := bigEndian (bytes.take 4)
  let type := (bytes.drop 4).take 4
  let data := (bytes.drop 8).take length
  let rest := bytes.drop (8 + length)
  let sum := rest.take 4
  if data.length = length ∧ sum.length = 4 then
    some (⟨type, data, bigEndian sum = (checksum (type ++ data)).toNat⟩, rest.drop 4)
  else none

/-- The memory that may still be set aside, and the size of the buffer for the data of a chunk. A
colour profile is not unpacked and takes none. -/
structure Memory where
  room : Nat
  buffer : Nat

namespace Memory

/-- The buffer of the beginning does not count. -/
def start (limit : Nat) : Memory := ⟨limit, 32 * 1024⟩

def spend? (m : Memory) (bytes : Nat) : Option Memory :=
  if bytes ≤ m.room then some { m with room := m.room - bytes } else none

/-- A buffer of twice the size, as far as there is room for the whole of it. -/
def grow? (m : Memory) : Option Memory :=
  let more := min (m.room - m.buffer) m.buffer
  if more = 0 then none else some ⟨m.room - more, m.buffer + more⟩

def growUntil (bytes : Nat) : (fuel : Nat) → Memory → Option Memory
  | 0, m => if bytes ≤ m.buffer then some m else none
  | fuel + 1, m => if bytes ≤ m.buffer then some m else m.grow?.bind (growUntil bytes fuel)

/-- A buffer that some bytes fit into. Every step makes it larger by a byte at least. -/
def hold? (m : Memory) (bytes : Nat) : Option Memory := growUntil bytes bytes m

end Memory

/-- What the chunks before the picture have said, with their types. -/
structure Info where
  header : Option Header
  seen : List ChunkType
  memory : Memory

/-- Nothing has been said. -/
def Info.start (limit : Nat) : Info := ⟨none, [], .start limit⟩

def wordAt (data : List UInt8) (position : Nat) : Nat := bigEndian ((data.drop position).take 4)

/-- What stands before and behind the first zero byte. -/
def cutAtZero? (data : List UInt8) : Option (List UInt8 × List UInt8) :=
  match data.dropWhile (· ≠ 0) with
  | [] => none
  | _ :: rest => some (data.takeWhile (· ≠ 0), rest)

/-- What follows the keyword of a text: one to seventy-nine bytes and a zero byte. -/
def afterKeyword? (data : List UInt8) : Option (List UInt8) := do
  let (keyword, rest) ← cutAtZero? data
  if 1 ≤ keyword.length ∧ keyword.length ≤ 79 then some rest else none

def isUtf8 (data : List UInt8) : Bool := (String.fromUTF8? ⟨data.toArray⟩).isSome

/-- A compressed text names its method, of which there is one. -/
def isCompressedText (data : List UInt8) : Bool :=
  match afterKeyword? data with
  | some (method :: _) => method = 0
  | _ => false

/-- An international text says whether it is compressed. A language, which is ASCII, and the keyword
in that language stand in front of it. -/
def isInternationalText (data : List UInt8) : Bool :=
  match afterKeyword? data with
  | some (compressed :: method :: rest) => Option.isSome do
    let (language, rest) ← cutAtZero? rest
    let (keyword, text) ← cutAtZero? rest
    guard (language.all (· < 128) && isUtf8 keyword)
    guard (compressed = 0 && isUtf8 text || compressed = 1 && method = 0)
  | _ => false

/-- A frame in front of the picture is the picture itself. The frames are numbered, and there are
three ways to dispose of one and two ways to blend it. -/
def isFrame (header : Header) (number : Nat) (data : List UInt8) : Bool :=
  match data.drop 24 with
  | disposal :: blending :: _ =>
    wordAt data 0 = number && wordAt data 4 = header.width && wordAt data 8 = header.height &&
      wordAt data 12 = 0 && wordAt data 16 = 0 && disposal.toNat ≤ 2 && blending.toNat ≤ 1
  | _ => false

/-- Whether the data of a chunk behind the header are well formed. Nothing is asked of a type that
is not known. -/
def isWellFormed (header : Header) (seen : List ChunkType) (type : ChunkType)
    (data : List UInt8) : Bool :=
  if type = gammaType then 4 ≤ data.length
  else if type = chromaType then 32 ≤ data.length
  else if type = densityType then
    match data[8]? with
    | some unit => unit.toNat ≤ 1
    | none => false
  else if type = intentType then
    match data with
    | intent :: _ => intent.toNat ≤ 3
    | [] => false
  else if type = transparencyType then
    match header.colour with
    | .grey => 2 ≤ data.length
    | .rgb => 6 ≤ data.length
    | .indexed => seen.contains paletteType
    | .greyAlpha | .rgbAlpha => false
  else if type = textType then (afterKeyword? data).isSome
  else if type = compressedTextType then isCompressedText data
  else if type = internationalTextType then isInternationalText data
  else if type = animationType then 8 ≤ data.length
  else if type = frameType then isFrame header (seen.count frameType) data
  else true

def singleTypes : List ChunkType :=
  [headerType, paletteType, transparencyType, gammaType, chromaType, densityType, intentType]

/-- The chunk types whose data are kept apart from the buffer. -/
def keptTypes : List ChunkType :=
  [paletteType, transparencyType, textType, compressedTextType, internationalTextType]

def Memory.keep? (m : Memory) (chunk : Chunk) : Option Memory :=
  if chunk.type ∈ keptTypes then m.spend? chunk.data.length else some m

/-- Whether a chunk may stand behind the header and what else has been said. -/
def Info.admits (info : Info) (header : Header) (chunk : Chunk) : Bool :=
  !(singleTypes.contains chunk.type && info.seen.contains chunk.type) &&
    isWellFormed header info.seen chunk.type chunk.data

/-- Take in a chunk before the picture; a chunk without data says nothing. No piece of a frame may
stand there, also if it is the frame of the picture. -/
def Info.take (info : Info) (chunk : Chunk) : Option Info :=
  if chunk.type = frameDataType then none
  else if chunk.data.isEmpty then some info
  else
    match info.header, info.memory.hold? chunk.data.length with
    | _, none => none
    | none, some memory =>
      (Header.ofData? chunk.data).map fun header => ⟨some header, [headerType], memory⟩
    | some header, some memory =>
      if info.admits header chunk then
        (memory.keep? chunk).map fun memory => ⟨some header, chunk.type :: info.seen, memory⟩
      else none

/-- Whether there is room for a row of the picture. -/
def Info.hasRoom (info : Info) (header : Header) : Bool :=
  header.rowBytes header.width ≤ info.memory.room

/-- Join the data chunks at the front; a chunk with a wrong checksum spoils them, and another
chunk has to begin after them. -/
def joinData : (fuel : Nat) → List UInt8 → List UInt8 → Option (List UInt8)
  | 0, _, _ => none
  | fuel + 1, joined, bytes =>
    let type := (bytes.drop 4).take 4
    if type.length < 4 then none
    else if type ≠ dataType then some joined
    else
      match readChunk bytes with
      | some (chunk, rest) =>
        if chunk.intact then joinData fuel (joined ++ chunk.data) rest else none
      | none => none

/-- Whether the picture that starts here can be decoded. -/
def isPicture (header : Header) (bytes : List UInt8) : Bool :=
  if Header.maxFrameBytes < header.frameBytes then false
  else
    match (joinData (bytes.length + 1) [] bytes).bind Inflate.zlib with
    | some pixels => holdsRows pixels header.rowGroups 0
    | none => false

/-- Go through the chunks up to the picture. Every chunk takes twelve bytes at least. -/
def isImageFrom : (fuel : Nat) → Info → List UInt8 → Bool
  | 0, _, _ => false
  | fuel + 1, info, bytes =>
    let type := (bytes.drop 4).take 4
    match info.header, decide (type = dataType) with
    | some header, true => info.hasRoom header && isPicture header bytes
    | header, _ =>
      if header = none ∧ type ≠ headerType then false
      else
        match readChunk bytes with
        | none => false
        | some (chunk, rest) =>
          match info.take chunk with
          | none => false
          | some info =>
            if (isCritical type ∧ !chunk.intact) ∨ type = endType then false
            else isImageFrom fuel info rest

/-- Whether a byte string is a PNG image with a picture that can be decoded. -/
def isImage (bytes : List UInt8) : Bool :=
  bytes.take 8 = signature &&
    isImageFrom bytes.length (.start Header.maxFrameBytes) (bytes.drop 8)

end AddonLint.Png
