import RigPack.Image.Crc32
import RigPack.Image.Huffman

/-!
Compressed data: blocks of bytes as they are, and blocks of coded symbols, each of which is a byte
or the length of a stretch that repeats earlier bytes.
-/

namespace RigPack
namespace Inflate

/-- What is added to the shortest length of a symbol's class, with the bits of the addition: the
table of lengths from symbol 257 on. -/
def lengthTable : Array (Nat × Nat) := #[
  (3, 0), (4, 0), (5, 0), (6, 0), (7, 0), (8, 0), (9, 0), (10, 0), (11, 1), (13, 1), (15, 1),
  (17, 1), (19, 2), (23, 2), (27, 2), (31, 2), (35, 3), (43, 3), (51, 3), (59, 3), (67, 4), (83, 4),
  (99, 4), (115, 4), (131, 5), (163, 5), (195, 5), (227, 5), (258, 0)]

def distanceTable : Array (Nat × Nat) := #[
  (1, 0), (2, 0), (3, 0), (4, 0), (5, 1), (7, 1), (9, 2), (13, 2), (17, 3), (25, 3), (33, 4),
  (49, 4), (65, 5), (97, 5), (129, 6), (193, 6), (257, 7), (385, 7), (513, 8), (769, 8), (1025, 9),
  (1537, 9),
  (2049, 10), (3073, 10), (4097, 11), (6145, 11), (8193, 12), (12289, 12), (16385, 13), (24577, 13)]

/-- The order in which the lengths of the code for lengths are given. -/
def lengthOrder : List Nat :=
  [16, 17, 18, 0, 8, 7, 9, 6, 10, 5, 11, 4, 12, 3, 13, 2, 14, 1, 15]

/-- A length or a distance from its class in a table. -/
def measure (table : Array (Nat × Nat)) (index : Nat) : BitReader Nat :=
  match table[index]? with
  | none => BitSource.fail .broken
  | some (least, extra) => do return least + (← BitSource.bits extra)

/-- What has been read and what came out of it. -/
structure Progress where
  source : BitSource
  /-- Where the pieces end that the source was put together from. -/
  ends : List Nat
  /-- How many bytes are wanted. -/
  goal : Nat
  out : ByteArray := ByteArray.empty

namespace Progress

def isComplete (p : Progress) : Bool :=
  p.goal ≤ p.out.size

/-- The same with no bytes behind the piece that was being read. -/
def withinPiece (p : Progress) : Progress :=
  match p.ends.find? fun e => p.source.position ≤ 8 * e with
  | some e => { p with source := { p.source with bytes := p.source.bytes.extract 0 e } }
  | none => p

end Progress

/-- Why there is nothing more to do. -/
inductive Halt
  | complete
  | fault (f : BitFault)

/-- Something done on the way. What came out before a halt is kept. -/
abbrev Inflating (β : Type) := ExceptT Halt (StateM Progress) β

def reading {β : Type} (reader : BitReader β) : Inflating β := fun p =>
  match reader p.source with
  | .ok (v, source) => (.ok v, { p with source })
  | .error fault => (.error (.fault fault), p)

def putByte (b : UInt8) : Inflating Unit :=
  modify fun p => { p with out := p.out.push b }

/-- The `length` bytes that start `distance` bytes before the end, once more. A stretch may run on
into itself. -/
def repeatBytes (out : ByteArray) (distance : Nat) : Nat → ByteArray
  | 0 => out
  | n + 1 => repeatBytes (out.push ((out[out.size - distance]?).getD 0)) distance n

/-- Repeats a stretch as far as its bytes are wanted. -/
def putStretch (distance length : Nat) : Inflating Unit := do
  let p ← get
  let room := p.goal - p.out.size
  if p.out.size < distance then throw (.fault .broken)
  modify fun p => { p with out := repeatBytes p.out distance (min length room) }
  if room < length then throw .complete

inductive Item
  | byte (b : UInt8)
  | stretch (distance length : Nat)
  | blockEnd

/-- The most bits that the words of two bytes may have if they are to be read at once. -/
def pairLimit : Nat := 12

/-- Bytes are read two at once if their words are short enough and the second has more than one bit,
where bits behind the end count as zeros. So a byte at the end can only be read if the second word
has not been cut off. -/
def needPair (literals : HuffmanCode) (start : Nat) : BitReader Unit := fun s =>
  let size := 8 * s.bytes.size
  if start + pairLimit ≤ size then .ok ((), s)
  else
    match literals.read { s with bytes := s.bytes ++ ⟨#[0, 0]⟩ } with
    | .error _ => .ok ((), s)
    | .ok (second, after) =>
      if second < 256 ∧ s.position + 1 < after.position ∧ after.position ≤ start + pairLimit
          ∧ size < after.position then
        .error .spent
      else .ok ((), s)

/-- The next symbol, with its length and distance if it has them. -/
def item (literals distances : HuffmanCode) : BitReader Item := do
  let start := (← get).position
  let symbol ← literals.read
  if symbol < 256 then
    needPair literals start
    pure (.byte symbol.toUInt8)
  else if symbol = 256 then pure .blockEnd
  else
    let length ← measure lengthTable (symbol - 257)
    let distance ← measure distanceTable (← distances.read)
    pure (.stretch distance length)

/-- Bits that have to be left for the end of a block to be noticed when nothing more is wanted:
those of the longest word. -/
def endMargin : Nat := 15

/-- The end of a block when nothing more is wanted. Anything else is left where it is. -/
def finalEnd (literals : HuffmanCode) : Inflating Unit := do
  modify Progress.withinPiece
  let p ← get
  match (do BitSource.need endMargin; literals.read) p.source with
  | .ok (256, source) => set { p with source }
  | _ => throw .complete

/-- The symbols of a block up to its end, as far as they are wanted. The last argument bounds their
number. -/
def symbols (literals distances : HuffmanCode) : Nat → Inflating Unit
  | 0 => throw (.fault .spent)
  | n + 1 => do
    if (← get).isComplete then finalEnd literals
    else match ← reading (item literals distances) with
      | .byte b =>
        putByte b
        symbols literals distances n
      | .stretch distance length =>
        putStretch distance length
        symbols literals distances n
      | .blockEnd => pure ()

/-- The most bits of a word for a length. So many have to be left when one is read. -/
def lengthWordLimit : Nat := 7

/-- The lengths of the words of two codes, themselves coded. -/
def wordLengths (code : HuffmanCode) (count : Nat) (done : List Nat) : Nat → BitReader (List Nat)
  | 0 => BitSource.fail .broken
  | n + 1 =>
    if count < done.length then BitSource.fail .broken
    else if done.length = count then pure done.reverse
    else do
      BitSource.need lengthWordLimit
      let symbol ← code.read
      if symbol < 16 then wordLengths code count (symbol :: done) n
      else if symbol = 16 then
        let times := 3 + (← BitSource.bits 2)
        match done with
        | [] => BitSource.fail .broken
        | last :: _ => wordLengths code count (List.replicate times last ++ done) n
      else
        let times ← if symbol = 17 then (3 + ·) <$> BitSource.bits 3
          else (11 + ·) <$> BitSource.bits 7
        wordLengths code count (List.replicate times 0 ++ done) n

/-- The code with these word lengths, which has to be one. -/
def code (lengths : List Nat) (mayLack : Bool) : BitReader HuffmanCode :=
  match HuffmanCode.ofLengths? lengths mayLack with
  | some c => pure c
  | none => BitSource.fail .broken

/-- The most symbols that a block's own codes may have words for: one for each byte, the end and
the lengths, and one for each distance. -/
def literalLimit : Nat := 286

def distanceLimit : Nat := 30

/-- The two codes that a block brings with it. -/
def ownCodes : BitReader (HuffmanCode × HuffmanCode) := do
  let literalCount := 257 + (← BitSource.bits 5)
  let distanceCount := 1 + (← BitSource.bits 5)
  let given := 4 + (← BitSource.bits 4)
  if literalLimit < literalCount ∨ distanceLimit < distanceCount then BitSource.fail .broken
  else
    let lengths ← (lengthOrder.take given).mapM fun symbol => do
      return (symbol, ← BitSource.bits 3)
    let lengthCode ← code ((List.range 19).map fun symbol => (lengths.lookup symbol).getD 0) false
    let count := literalCount + distanceCount
    let all ← wordLengths lengthCode count [] (count + 1)
    if all[256]? = some 0 then BitSource.fail .broken
    else
      let literals ← code (all.take literalCount) false
      let distances ← code (all.drop literalCount) true
      pure (literals, distances)

/-- The two codes that blocks without their own ones use. -/
def commonCodes : BitReader (HuffmanCode × HuffmanCode) := do
  let lengths := List.replicate 144 8 ++ List.replicate 112 9 ++ List.replicate 24 7
    ++ List.replicate 8 8
  let literals ← code lengths false
  let distances ← code (List.replicate 32 5) false
  pure (literals, distances)

/-- Bytes as they are, as far as they are wanted. -/
def plainBytes : Nat → Inflating Unit
  | 0 => pure ()
  | n + 1 => do
    if (← get).isComplete then throw .complete
    putByte (← reading (BitSource.bits 8)).toUInt8
    plainBytes n

/-- The number of bytes in a block of bytes as they are, given with its complement. -/
def plainSize : BitReader Nat := do
  BitSource.alignToByte
  BitSource.need 32
  let size ← BitSource.bits 16
  let complement ← BitSource.bits 16
  if size + complement = 0xFFFF then pure size else BitSource.fail .broken

/-- The bits of the shortest block. So many have to be left when a block starts. -/
def shortestBlock : Nat := 10

/-- Whether a block is the last one, and the way it is written in. -/
def blockHead : BitReader (Bool × Nat) := do
  BitSource.need shortestBlock
  let last ← BitSource.bit
  let way ← BitSource.bits 2
  pure (last = 1, way)

/-- Whether a block in the common codes ends at once: with the word of seven zeros, which is
read. -/
def endsAtOnce : BitReader Bool := fun s =>
  match BitSource.bits 7 s with
  | .ok (0, after) => .ok (true, after)
  | _ => .ok (false, s)

def block (size way : Nat) : Inflating Unit := do
  match way with
  | 0 => plainBytes (← reading plainSize)
  | 1 =>
    if ← reading endsAtOnce then pure ()
    else
      let (literals, distances) ← reading commonCodes
      symbols literals distances size
  | 2 =>
    let (literals, distances) ← reading ownCodes
    symbols literals distances size
  | _ => throw (.fault .broken)

/-- The blocks up to the last one. When nothing more is wanted the next block is still looked at,
but not in another piece. Every symbol takes a bit, so the size in bits bounds the number of symbols
and of blocks. -/
def blocks (size : Nat) : Nat → Inflating Unit
  | 0 => throw (.fault .spent)
  | n + 1 => do
    if (← get).isComplete then modify Progress.withinPiece
    let (last, way) ← reading blockHead
    block size way
    if last then pure () else blocks size n

/-- Where pieces end that are put together, the first one starting at `i`. -/
def endsFrom (i : Nat) : List ByteArray → List Nat
  | [] => []
  | piece :: rest => (i + piece.size) :: endsFrom (i + piece.size) rest

/-- The first `goal` bytes of a compressed stream in pieces, with its two bytes of header. What
comes behind them need not be there, and neither does the checksum. -/
def stream (pieces : List ByteArray) (goal : Nat) : Option ByteArray := do
  let bytes := pieces.foldl (· ++ ·) ByteArray.empty
  let method ← bytes[0]?
  let flags ← bytes[1]?
  if method &&& 0x0F ≠ 8 ∨ 0x7F < method ∨ flags &&& 0x20 ≠ 0
      ∨ (method.toNat * 256 + flags.toNat) % 31 ≠ 0 then none
  else
    let size := 8 * bytes.size
    let start : Progress := { source := ⟨bytes, 16⟩, ends := endsFrom 0 pieces, goal }
    match (blocks (size + 1) (size + 1)).run.run start with
    | (.error (.fault .broken), _) => none
    | (_, p) => if p.isComplete then some p.out else none

end Inflate
end RigPack
