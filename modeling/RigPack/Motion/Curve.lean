import RigPack.Motion.Interpolation
import RigPack.Space.Vec3

/-!
Keyframed curves. A curve holds displacements from a rest pose, so a curve without keys is no
motion. Keys stand in the order of their times, and keys of one time in the order in which they were
added.
-/

namespace RigPack

/-- One key of a curve. A key with an `after` value is a jump: the curve reaches `value` and goes on
from `after`. -/
structure Key (α : Type) where
  time : α
  value : Vec3 α
  after : Option (Vec3 α)
  interpolation : Interpolation
  deriving DecidableEq, Repr

namespace Key

variable {α : Type}

/-- The value with which the curve leaves the key. -/
def outgoing (k : Key α) : Vec3 α :=
  k.after.getD k.value

end Key

/-- The keys of a curve, in the order in which time meets them. -/
structure Curve (α : Type) where
  keys : List (Key α)
  deriving DecidableEq, Repr

namespace Curve

variable {α : Type}

def empty : Curve α :=
  ⟨[]⟩

def isEmpty (c : Curve α) : Bool :=
  c.keys.isEmpty

def size (c : Curve α) : Nat :=
  c.keys.length

variable [Scalar α]

/-- How many of `keys` lie at or before `t`, found by halving: of a window of `n` keys that starts
at `base` the half is kept on which the middle key puts the answer. On keys in the order of their
times this counts the keys of a first part; on others it still ends. -/
def countUntil (keys : List (Key α)) (t : α) (base n : Nat) : Nat :=
  if n ≤ 1 then
    match keys[base]? with
    | some k => if k.time ≤ t then base + 1 else base
    | none => base
  else
    let middle := base + n / 2
    match keys[middle]? with
    | some k => countUntil keys t (if k.time ≤ t then middle else base) (n - n / 2)
    | none => base
termination_by n

/-- The place of the first key after `t`. -/
def placeAfter (c : Curve α) (t : α) : Nat :=
  countUntil c.keys t 0 c.keys.length

/-- The curve with one more key, put behind all keys of an earlier or the same time. -/
def add (c : Curve α) (k : Key α) : Curve α :=
  ⟨c.keys.insertIdx (c.placeAfter k.time) k⟩

/-- The spline through `b` and `c` whose slopes there follow their neighbours `a` and `d`. -/
def catmullRom (a b c d : Vec3 α) (u : α) : Vec3 α :=
  let n (k : Nat) (v : Vec3 α) : Vec3 α := ⟨(k : α) * v.x, (k : α) * v.y, (k : α) * v.z⟩
  let u2 := u * u
  let u3 := u2 * u
  let sum := n 2 b + (c - a).scale u + (n 2 a - n 5 b + n 4 c - d).scale u2
    + (n 3 b - a - n 3 c + d).scale u3
  let half : α := ((1 : Nat) : α) / ((2 : Nat) : α)
  ⟨half * sum.x, half * sum.y, half * sum.z⟩

/-- The value between two neighbouring keys `a` and `b` at time `t`. The key before `a` and the key
after `b`, where there are such keys, shape a spline only. -/
def between (before : Option (Key α)) (a b : Key α) (beyond : Option (Key α)) (t : α) : Vec3 α :=
  let span := b.time - a.time
  if span ≤ ((0 : Nat) : α) then
    a.outgoing
  else
    let u := (t - a.time) / span
    if a.interpolation = .catmullRom ∨ b.interpolation = .catmullRom then
      catmullRom ((before.map Key.outgoing).getD a.outgoing) a.outgoing b.value
        ((beyond.map Key.value).getD b.value) u
    else if a.interpolation = .step then
      a.outgoing
    else
      a.outgoing.lerp b.value u

/-- The value at time `t`: before the first key that key's value, from the last key on the value
with which the curve leaves it. -/
def eval (c : Curve α) (t : α) : Vec3 α :=
  match c.placeAfter t with
  | 0 => (c.keys.head?.map Key.value).getD .zero
  | i + 1 =>
    match c.keys[i]?, c.keys[i + 1]? with
    | some a, some b =>
      between (if i = 0 then none else c.keys[i - 1]?) a b c.keys[i + 2]? t
    | _, _ => (c.keys.getLast?.map Key.outgoing).getD .zero

end Curve
end RigPack
