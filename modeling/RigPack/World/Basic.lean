import RigPack.Program.Directive
import RigPack.Space.Vec3

/-!
The game that runs a pack, as far as programs can tell: stands with tags and integer scores, scores
of holders that are no stands, and a scheduler with at most one entry to a function. Coordinates are
of any scalar type, so that a world can be run on doubles and reasoned about over an ordered field.
-/

namespace RigPack

/-- An armor stand. One that was killed keeps its place and is never selected again. -/
structure Stand (N : Type) where
  alive : Bool := true
  tags : String → Bool := fun _ => false
  scores : String → Option Int := fun _ => none
  position : Vec3 N
  head : Option (Vec3 N) := none
  customId : Option UInt32 := none

namespace Stand

variable {N : Type}

def setTag (s : Stand N) (tag : String) (present : Bool) : Stand N :=
  { s with tags := fun t => if t = tag then present else s.tags t }

/-- The score of an objective. A stand that has none counts as having zero. -/
def score (s : Stand N) (objective : String) : Int :=
  (s.scores objective).getD 0

def setScore (s : Stand N) (objective : String) (value : Int) : Stand N :=
  { s with scores := fun o => if o = objective then some value else s.scores o }

end Stand

def ScoreRange.contains : ScoreRange → Int → Bool
  | exactly v, x => x = v
  | between low high, x => low ≤ x && x ≤ high

/-- Whether a stand has a score in a range. -/
def Stand.meets {N : Type} (s : Stand N) (objective : String) (range : ScoreRange) : Bool :=
  (s.scores objective).any range.contains

/-- Whether a stand is meant, were it alone in the world. -/
def Selector.admits {N : Type} (f : Selector) (s : Stand N) : Bool :=
  s.alive && f.tags.all s.tags && f.scores.all fun (objective, range) => s.meets objective range

/-- Who runs a directive and where. -/
structure Point (N : Type) where
  /-- The place of a stand in its world, unless the scheduler runs the directive. -/
  executor : Option Nat
  position : Vec3 N

/-- One run of a function. -/
structure Call where
  time : Nat
  function : ResourcePath
  executor : Option Nat
  deriving DecidableEq, Repr

/-- How the game keeps scores: as they are, or in words of so many bits with a sign, in which they
wrap around. -/
inductive Registers
  | unbounded
  | word (bits : Nat)
  deriving DecidableEq, Repr

/-- What is kept of a score that is written. -/
def Registers.wrap : Registers → Int → Int
  | unbounded, value => value
  | word bits, value => value.bmod (Nat.pow 2 bits)

structure World (N : Type) where
  registers : Registers := .unbounded
  /-- In the order in which they were made. -/
  stands : List (Stand N) := []
  /-- Scores by holder and objective. -/
  holders : String → String → Int := fun _ _ => 0
  /-- When a function is due, if it is scheduled. -/
  schedule : ResourcePath → Option Nat := fun _ => none
  /-- In ticks. -/
  now : Nat := 0
  /-- All runs so far, in their order. -/
  calls : List Call := []

namespace World

variable {N : Type}

/-- Does something to the stands at these places. -/
def change (w : World N) (places : List Nat) (f : Stand N → Stand N) : World N :=
  { w with stands := w.stands.mapIdx fun i s => if i ∈ places then f s else s }

def add (w : World N) (s : Stand N) : World N :=
  { w with stands := w.stands ++ [s] }

def setHolder (w : World N) (holder objective : String) (value : Int) : World N :=
  { w with holders := fun h o => if h = holder ∧ o = objective then value else w.holders h o }

def setSchedule (w : World N) (function : ResourcePath) (due : Option Nat) : World N :=
  { w with schedule := fun f => if f = function then due else w.schedule f }

/-- The places of the stands that a selector means, the earliest first. -/
def selected (w : World N) (f : Selector) : List Nat :=
  let places := (List.range w.stands.length).filter fun i => w.stands[i]?.any f.admits
  if f.single then places.take 1 else places

/-- The places of the stands that a target means. A holder is no stand. -/
def places (w : World N) (p : Point N) : Target → Option (List Nat)
  | .this => some (p.executor.toList.filter fun i => w.stands[i]?.any Stand.alive)
  | .holder _ => none
  | .select f => some (w.selected f)

/-- The score of a holder or of the one stand that a target means. -/
def readScore (w : World N) (p : Point N) (target : Target) (objective : String) : Option Int :=
  match target with
  | .holder h => some (w.holders h objective)
  | _ => do
    match ← w.places p target with
    | [i] => (w.stands[i]?).map fun s => s.score objective
    | _ => none

/-- Gives new scores to a holder or to all stands that a target means. -/
def writeScore (w : World N) (p : Point N) (target : Target) (objective : String)
    (f : Int → Int) : Option (World N) :=
  match target with
  | .holder h => some (w.setHolder h objective (w.registers.wrap (f (w.holders h objective))))
  | _ => do
    return w.change (← w.places p target) fun s =>
      s.setScore objective (w.registers.wrap (f (s.score objective)))

end World
end RigPack
