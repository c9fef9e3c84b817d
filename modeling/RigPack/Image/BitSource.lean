/-! Bytes read bit by bit, from the lowest bit of each byte up. -/

namespace RigPack

/-- Bytes and the number of bits that have been read. -/
structure BitSource where
  bytes : ByteArray
  position : Nat

/-- Why something cannot be read from bits. -/
inductive BitFault
  /-- There are too few bits left. -/
  | spent
  /-- The bits are not what they should be. -/
  | broken
  deriving DecidableEq, Repr

/-- Something read from bits, if they are what they should be. -/
abbrev BitReader (β : Type) := StateT BitSource (Except BitFault) β

namespace BitSource

def fail {β : Type} (fault : BitFault) : BitReader β :=
  fun _ => .error fault

/-- Goes on only if there are `n` bits left. -/
def need (n : Nat) : BitReader Unit := fun s =>
  if s.position + n ≤ 8 * s.bytes.size then .ok ((), s) else .error .spent

def bit : BitReader Nat := fun s =>
  match s.bytes[s.position / 8]? with
  | none => .error .spent
  | some byte =>
    .ok ((byte.toNat >>> (s.position % 8)) % 2, { s with position := s.position + 1 })

/-- A number of `n` bits, the lowest first. -/
def bits : Nat → BitReader Nat
  | 0 => pure 0
  | n + 1 => do
    let low ← bit
    return low + 2 * (← bits n)

/-- Passes over what is left of a byte that has been started. -/
def alignToByte : BitReader Unit :=
  modify fun s => { s with position := (s.position + 7) / 8 * 8 }

end BitSource
end RigPack
