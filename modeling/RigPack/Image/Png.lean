import RigPack.Image.Basic
import RigPack.Image.Chunk
import RigPack.Image.Inflate

/-!
Images in chunks. Reading takes every color type and depth without interlacing and gives eight bits
to a channel; writing stores the pixels of one image in one way, so that equal images have equal
bytes.
-/

namespace RigPack
namespace Png

def signature : List UInt8 :=
  [0x89, 0x50, 0x4E, 0x47, 0x0D, 0x0A, 0x1A, 0x0A]

inductive ColorType
  | gray
  | rgb
  | palette
  | grayAlpha
  | rgba
  deriving DecidableEq, Repr

namespace ColorType

def ofCode? : UInt8 → Option ColorType
  | 0 => some gray
  | 2 => some rgb
  | 3 => some palette
  | 4 => some grayAlpha
  | 6 => some rgba
  | _ => none

/-- The bits to a channel that go with a color type. -/
def depths : ColorType → List Nat
  | gray => [1, 2, 4, 8, 16]
  | palette => [1, 2, 4, 8]
  | rgb | grayAlpha | rgba => [8, 16]

def channels : ColorType → Nat
  | gray | palette => 1
  | grayAlpha => 2
  | rgb => 3
  | rgba => 4

end ColorType

structure Header where
  width : Nat
  height : Nat
  depth : Nat
  color : ColorType

namespace Header

def ofChunk? (c : Chunk) : Option Header := do
  if c.type ≠ "IHDR" ∨ c.content.size ≠ 13 ∨ !c.sound then none
  let width ← word32 c.content 0
  let height ← word32 c.content 4
  let depth := (← c.content[8]?).toNat
  let color ← ColorType.ofCode? (← c.content[9]?)
  let methods ← (List.range 3).mapM fun k => c.content[10 + k]?
  if width = 0 ∨ height = 0 ∨ depth ∉ color.depths ∨ methods ≠ [0, 0, 0] then none
  return ⟨width, height, depth, color⟩

/-- The bytes of a row, without the one that names its filter. -/
def rowSize (h : Header) : Nat :=
  (h.width * h.color.channels * h.depth + 7) / 8

/-- How far back the neighbouring pixel's byte stands. -/
def pixelSize (h : Header) : Nat :=
  max 1 (h.color.channels * h.depth / 8)

end Header

/-- What the chunks of a file bring together. -/
structure Parts where
  header : Header
  palette : Option ByteArray := none
  /-- The colors that are clear, or how clear the colors of the palette are. -/
  transparency : Option ByteArray := none
  /-- Whether the space of the colors has been named. -/
  namesColors : Bool := false
  /-- The number of the last chunk that belongs to a moving picture. -/
  sequence : Option Nat := none
  /-- The image data in pieces, the last one first. -/
  data : List ByteArray := []

namespace Parts

/-- The number that the next chunk of a moving picture bears. -/
def nextInSequence (p : Parts) : Nat :=
  (p.sequence.map (· + 1)).getD 0

/-- Whether the content of a chunk may have this size. -/
def admitsSize (type : String) (size : Nat) : Bool :=
  match type with
  | "PLTE" => 3 ≤ size && size ≤ 768
  | "tRNS" => 1 ≤ size && size ≤ 256
  | "cICP" => size = 4
  | "fcTL" => size = 26
  | _ => true

/-- A palette, of which there is one at most. -/
def withPalette? (p : Parts) (content : ByteArray) : Option Parts :=
  if p.palette.isSome then none else some { p with palette := some content }

/-- Whether such transparency can be meant: a sample of two bytes for each channel of a color, or
bytes for a palette that is there. -/
def admitsTransparency (p : Parts) (content : ByteArray) : Bool :=
  match p.header.color with
  | .gray | .rgb => 2 * p.header.color.channels ≤ content.size
  | .palette => p.palette.isSome
  | .grayAlpha | .rgba => false

/-- The first transparency counts. -/
def withTransparency (p : Parts) (content : ByteArray) : Parts :=
  if p.transparency.isNone && p.admitsTransparency content then
    { p with transparency := some content }
  else p

/-- The space of the colors, which only counts once and before a palette. Its third byte is a zero
and its last one a truth value. -/
def withColorSpace? (p : Parts) (content : ByteArray) : Option Parts := do
  if p.namesColors || p.palette.isSome then return p
  let matrix ← content[2]?
  let range ← content[3]?
  if matrix = 0 ∧ range ≤ 1 then return { p with namesColors := true } else none

/-- A frame of a moving picture. The one before the image data is the whole image. -/
def withFrame? (p : Parts) (content : ByteArray) : Option Parts := do
  let number ← word32 content 0
  let box ← [4, 8, 12, 16].mapM (word32 content)
  let disposal ← content[24]?
  let blending ← content[25]?
  if number = p.nextInSequence ∧ box = [p.header.width, p.header.height, 0, 0] ∧ disposal ≤ 2
      ∧ blending ≤ 1 then
    return { p with sequence := some number }
  else none

/-- What a chunk before the image data adds. A chunk that may be passed over is passed over if its
check or its size is wrong; only a frame has to have the right size. The data of further frames may
not come before those of the image. -/
def add? (p : Parts) (c : Chunk) : Option Parts :=
  if c.type = "fdAT" then none
  else if !admitsSize c.type c.content.size then
    if c.isCritical || c.type = "fcTL" then none else some p
  else if !c.sound then
    if c.isCritical then none else some p
  else match c.type with
    | "PLTE" => p.withPalette? c.content
    | "tRNS" => some (p.withTransparency c.content)
    | "cICP" => p.withColorSpace? c.content
    | "fcTL" => p.withFrame? c.content
    | _ => if c.isCritical then none else some p

/-- The chunks of image data from `i` on, up to a chunk of another type, of which only the start has
to be there. -/
def collect? (bytes : ByteArray) (i : Nat) (p : Parts) : Nat → Option Parts
  | 0 => none
  | n + 1 => do
    if (← Chunk.typeAt? bytes i) ≠ "IDAT" then return p
    let c ← Chunk.at? bytes i
    if c.sound then collect? bytes (i + c.size) { p with data := c.content :: p.data } n else none

/-- Goes through the chunks from `i` on up to the end of the image data. -/
def gather? (bytes : ByteArray) (i : Nat) (p : Parts) : Nat → Option Parts
  | 0 => none
  | n + 1 => do
    if (← Chunk.typeAt? bytes i) = "IDAT" then collect? bytes i p n
    else
      let c ← Chunk.at? bytes i
      gather? bytes (i + c.size) (← p.add? c) n

/-- Whether the colors of an image can be taken from its palette: there is one, and it holds whole
colors. -/
def hasUsablePalette (p : Parts) : Bool :=
  match p.palette with
  | some colors => colors.size % 3 = 0
  | none => false

end Parts

/-- The one of three neighbours that is nearest to `left + above - corner`. -/
def nearestNeighbour (left above corner : Int) : Int :=
  let p := left + above - corner
  let far (x : Int) : Nat := (p - x).natAbs
  if far left ≤ far above ∧ far left ≤ far corner then left
  else if far above ≤ far corner then above
  else corner

/-- What a filter adds to a byte, from the bytes to its left, above it, and above to its left. -/
def prediction (filter : UInt8) (left above corner : UInt8) : Option UInt8 :=
  match filter with
  | 0 => some 0
  | 1 => some left
  | 2 => some above
  | 3 => some ((left.toNat + above.toNat) / 2).toUInt8
  | 4 => some (nearestNeighbour left.toNat above.toNat corner.toNat).toNat.toUInt8
  | _ => none

/-- The bytes of a row from `k` on. Those before the first pixel count as zero, and so do all those
above the first row. -/
def unfilterFrom (filter : UInt8) (pixelSize : Nat) (above raw row : ByteArray) (k : Nat) :
    Nat → Option ByteArray
  | 0 => some row
  | n + 1 => do
    let left := if k < pixelSize then 0 else (row[k - pixelSize]?).getD 0
    let corner := if k < pixelSize then 0 else (above[k - pixelSize]?).getD 0
    let byte ← raw[k]?
    let guess ← prediction filter left ((above[k]?).getD 0) corner
    unfilterFrom filter pixelSize above raw (row.push (byte + guess)) (k + 1) n

/-- The rows of the image data, each behind the byte that names its filter. -/
def rows (h : Header) (raw above : ByteArray) (i : Nat) : Nat → Option (List ByteArray)
  | 0 => some []
  | n + 1 => do
    let filter ← raw[i]?
    let row ← unfilterFrom filter h.pixelSize above (raw.extract (i + 1) (i + 1 + h.rowSize))
      ByteArray.empty 0 h.rowSize
    return row :: (← rows h raw row (i + 1 + h.rowSize) n)

/-- Channel `k` of a row. -/
def sample (depth : Nat) (row : ByteArray) (k : Nat) : Nat :=
  let byte (i : Nat) : Nat := ((row[i]?).getD 0).toNat
  if depth = 8 then byte k
  else if depth = 16 then byte (2 * k) * 256 + byte (2 * k + 1)
  else (byte (k * depth / 8) >>> (8 - depth - k * depth % 8)) % Nat.pow 2 depth

/-- A sample brought to eight bits: stretched, or rounded to the nearest. -/
def toEight (depth v : Nat) : UInt8 :=
  if depth = 16 then ((v + 128) / 257).toUInt8 else (v * 255 / (Nat.pow 2 depth - 1)).toUInt8

/-- The sample of a color that is to be clear. Only as many of its bytes count as a sample has. -/
def clearSample (depth : Nat) (bytes : ByteArray) (k : Nat) : Option Nat := do
  let high ← bytes[2 * k]?
  let low ← bytes[2 * k + 1]?
  return if depth = 16 then high.toNat * 256 + low.toNat else low.toNat

namespace Parts

/-- The color that is clear. Of samples with two bytes there are as many as there are channels. -/
def clearColor? (p : Parts) : Option (List Nat) := do
  let bytes ← p.transparency
  let channels := p.header.color.channels
  if p.header.depth = 16 ∧ bytes.size ≠ 2 * channels then none
  (List.range channels).mapM (clearSample p.header.depth bytes)

def alphaOf (p : Parts) (samples : List Nat) : UInt8 :=
  if p.clearColor? = some samples then 0 else 255

/-- A color of the palette with its alpha. What the palette does not hold is black. Alphas for more
colors than there are do not count. -/
def paletteColor (p : Parts) (k : Nat) : List UInt8 :=
  let colors := p.palette.getD ByteArray.empty
  let part (i : Nat) : UInt8 := (colors[3 * k + i]?).getD 0
  let alpha := do
    let alphas ← p.transparency
    if 3 * alphas.size ≤ colors.size then alphas[k]? else none
  [part 0, part 1, part 2, alpha.getD 255]

end Parts

def pixel (p : Parts) (row : ByteArray) (x : Nat) : List UInt8 :=
  let depth := p.header.depth
  let channels := p.header.color.channels
  let samples := (List.range channels).map fun k => sample depth row (x * channels + k)
  let eight := samples.map (toEight depth)
  match p.header.color, samples, eight with
  | .palette, [k], _ => p.paletteColor k
  | .gray, _, [v] => [v, v, v, p.alphaOf samples]
  | .grayAlpha, _, [v, a] => [v, v, v, a]
  | .rgb, _, _ => eight ++ [p.alphaOf samples]
  | _, _, _ => eight

def pixels (p : Parts) (rows : List ByteArray) : ByteArray :=
  rows.foldl (fun out row =>
    (List.range p.header.width).foldl (fun out x =>
      (pixel p row x).foldl ByteArray.push out) out) ByteArray.empty

def decode? (bytes : ByteArray) : Option Image := do
  if (bytes.extract 0 8).toList ≠ signature then none
  let first ← Chunk.at? bytes 8
  let header ← Header.ofChunk? first
  let p ← Parts.gather? bytes 33 { header } bytes.size
  if header.color = .palette && !p.hasUsablePalette then none
  let raw ← Inflate.stream p.data.reverse (header.height * (header.rowSize + 1))
  let rows ← rows header raw ByteArray.empty 0 header.height
  return ⟨header.width, header.height, pixels p rows⟩

/-- The greatest size of a block of bytes as they are. -/
def blockLimit : Nat := 0xFFFF

/-- Bytes from `i` on as blocks without compression. -/
def storedFrom (bytes : ByteArray) (i : Nat) : ByteArray :=
  let size := min blockLimit (bytes.size - i)
  let last := bytes.size ≤ i + blockLimit
  let head : ByteArray := ⟨#[if last then 1 else 0, size.toUInt8, (size >>> 8).toUInt8,
    (blockLimit - size).toUInt8, ((blockLimit - size) >>> 8).toUInt8]⟩
  let block := head ++ bytes.extract i (i + size)
  if bytes.size ≤ i + blockLimit then block
  else block ++ storedFrom bytes (i + blockLimit)
termination_by bytes.size - i
decreasing_by
  simp only [blockLimit] at *
  omega

/-- The rows of an image, none of them filtered. -/
def plainRows (image : Image) : ByteArray :=
  (List.range image.height).foldl (fun out y =>
    out.push 0 ++ image.pixels.extract (4 * image.width * y) (4 * image.width * (y + 1)))
    ByteArray.empty

def encode (image : Image) : ByteArray :=
  let data := plainRows image
  let stream := ⟨#[0x78, 0x01]⟩ ++ storedFrom data 0 ++ bytesOf32 (Adler32.ofBytes data).toNat
  ⟨signature.toArray⟩
    ++ Chunk.encode "IHDR" (bytesOf32 image.width ++ bytesOf32 image.height ++ ⟨#[8, 6, 0, 0, 0]⟩)
    ++ Chunk.encode "IDAT" stream
    ++ Chunk.encode "IEND" ByteArray.empty

end Png
end RigPack
