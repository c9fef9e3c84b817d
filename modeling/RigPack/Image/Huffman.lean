import RigPack.Image.BitSource

/-!
Canonical codes. Such a code is given by the lengths of its words alone: words of one length follow
one another in the order of their symbols, and shorter words come before longer ones.
-/

namespace RigPack

/-- For each length from one up, the symbols whose words have that length, in order. -/
structure HuffmanCode where
  symbols : List (Array Nat)
  deriving Repr

namespace HuffmanCode

def longest : Nat := 15

/-- The part of all infinite words, in units of the longest word's part, that words of these lengths
take up. -/
def usage (lengths : List Nat) : Nat :=
  (lengths.filter (· ≠ 0)).foldl (fun sum n => sum + Nat.pow 2 (longest - n)) 0

/-- The code with these word lengths. A symbol of length zero has no word. Every infinite word has
to start with exactly one word; a code with at most one word, and that of one bit, may stay
incomplete if `mayLack` allows it. -/
def ofLengths? (lengths : List Nat) (mayLack : Bool) : Option HuffmanCode :=
  let used := usage lengths
  let few := (lengths.filter (· ≠ 0)).length ≤ 1 && lengths.all (· ≤ 1)
  if used = Nat.pow 2 longest || (mayLack && few) then
    some ⟨(List.range longest).map fun n =>
      ((lengths.zipIdx.filter fun (l, _) => l = n + 1).map Prod.snd).toArray⟩
  else none

/-- Reads a word of at least one bit. `first` is the least word of this length and `word` the one
read so far. -/
def readFrom (first word : Nat) : List (Array Nat) → BitReader Nat
  | [] => BitSource.fail .broken
  | symbols :: longer => do
    let word := 2 * word + (← BitSource.bit)
    let first := 2 * first
    match symbols[word - first]? with
    | some symbol => if first ≤ word then pure symbol else BitSource.fail .broken
    | none => readFrom (first + symbols.size) word longer

def read (code : HuffmanCode) : BitReader Nat :=
  readFrom 0 0 code.symbols

end HuffmanCode
end RigPack
