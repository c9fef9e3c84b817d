import RigPack.Pack.Options
import RigPack.Skeleton.Leaf

/-!
What the entities of one pack share: the frame ids that are taken and the custom ids that are in
use. Frame ids are handed out in ranges from zero up; custom ids one by one, past those that are in
use.
-/

namespace RigPack

structure Context where
  options : Options
  /-- The least frame id that is not taken. -/
  nextFrame : Nat
  /-- The custom id from which the search for a free one starts. -/
  nextCustomId : UInt32
  usedCustomIds : List UInt32
  deriving DecidableEq, Repr

/-- Something that takes from a context. What it took before a failure stays taken. -/
abbrev Compiling (β : Type) := ExceptT Error (StateM Context) β

namespace Context

/-- A context in which nothing is taken. -/
def ofOptions (o : Options) : Except Error Context := do
  o.validate
  return ⟨o, 0, o.firstCustomId, []⟩

/-- One more than the greatest frame id. The frame counter of the game has thirty-two bits with a
sign. -/
def frameLimit : Nat := 0x7FFFFFFF

/-- Takes `count` frame ids in a row and gives the first. -/
def allocFrames (count : Nat) : Compiling Nat := do
  let c ← get
  if c.nextFrame + count ≤ frameLimit then
    set { c with nextFrame := c.nextFrame + count }
    return c.nextFrame
  else throw .framesExhausted

/-- Takes the ids that parts have chosen, in the order of the parts. -/
def reserve {α : Type} (entity : String) : List (Part α) → Compiling Unit
  | [] => pure ()
  | p :: rest => do
    match p.customId with
    | none => reserve entity rest
    | some id =>
      let c ← get
      if id ∈ c.usedCustomIds then throw (.customIdInUse entity p.name id)
      else
        set { c with usedCustomIds := id :: c.usedCustomIds }
        reserve entity rest

/-- Goes on to the next custom id. -/
def bump : Compiling Unit := do
  let c ← get
  if c.nextCustomId.toNat + 1 < UInt32.size then
    set { c with nextCustomId := c.nextCustomId + 1 }
  else throw .customIdsExhausted

/-- Goes on to the first custom id that is not in use. There are no more than `n` to go. -/
def skipUsed : Nat → Compiling Unit
  | 0 => pure ()
  | n + 1 => do
    let c ← get
    if c.nextCustomId ∈ c.usedCustomIds then
      bump
      skipUsed n

/-- The id of a part: the one it has chosen, or the next one that is not in use. -/
def customIdFor {α : Type} (p : Part α) : Compiling UInt32 := do
  match p.customId with
  | some id => return id
  | none =>
    skipUsed UInt32.size
    let c ← get
    let id := c.nextCustomId
    set { c with usedCustomIds := id :: c.usedCustomIds }
    bump
    return id

end Context
end RigPack
