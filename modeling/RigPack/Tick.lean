import RigPack.Error
import RigPack.Numeric.Scalar

/-! The scheduler's clock. Ticks are counted from zero within one animation. -/

namespace RigPack

def ticksPerSecond : Nat := 20

/-- The time in seconds at which a tick is sampled. -/
def tickSeconds {α : Type} [Scalar α] (tick : Nat) : α :=
  (tick : α) / (ticksPerSecond : α)

/-- The greatest last tick. The number of ticks up to it still fits a word. -/
def greatestTick : Nat := UInt32.size - 2

/-- The whole number nearest to a double that is not negative. A half goes up. Of a double that no
word of sixty-four bits holds it is the greatest word or one more. -/
def nearestWhole (x : Float) : Nat :=
  let whole := x.toUInt64.toNat
  if 0.5 ≤ x - Float.ofNat whole then whole + 1 else whole

/-- The last tick of an animation of this many seconds. It belongs to the animation, so that every
animation has at least one tick. -/
def lastTick (seconds : Float) : Except Error Nat :=
  if !seconds.isFinite || seconds < 0 then .error (.impossibleDuration seconds)
  else
    let ticks := nearestWhole (seconds * Float.ofNat ticksPerSecond)
    if greatestTick < ticks then .error (.durationBeyondTicks seconds)
    else .ok ticks

end RigPack
