import RigPack.Motion.LoopPolicy
import RigPack.Part.Exporter
import RigPack.Skeleton.Sample
import RigPack.Tick

/-!
Animations as programs that schedule themselves. Each tick has two: a dispatcher, which finds the
instances that wait on the tick's frame, and a body, which poses the proxies of one instance and
schedules what comes next.
-/

namespace RigPack

structure Functions where
  root : ResourcePath
  deriving DecidableEq, Repr

namespace Functions

def ofEntity (space entity : String) : Functions :=
  ⟨(ResourcePath.root space).child entity⟩

/-- Registers what the programs need. -/
def load (f : Functions) : ResourcePath :=
  f.root.child "load"

/-- Makes an instance of the stand that runs it. -/
def spawn (f : Functions) : ResourcePath :=
  f.root.child "spawn"

/-- Takes away the instance whose root runs it. -/
def remove (f : Functions) : ResourcePath :=
  f.root.child "remove"

/-- Starts the animation that was asked for. -/
def select (f : Functions) : ResourcePath :=
  f.root.child "select"

/-- What runs when an instance comes to rest. -/
def dormant (f : Functions) : ResourcePath :=
  f.root.child "dormant"

def animation (f : Functions) (name : String) : ResourcePath :=
  (f.root.child "animations").child name

def entry (f : Functions) (name : String) : ResourcePath :=
  (f.animation name).child "start"

def frames (f : Functions) (name : String) : ResourcePath :=
  (f.animation name).child "frames"

def dispatcher (f : Functions) (name : String) (tick : Nat) : ResourcePath :=
  (f.frames name).child (toString tick ++ "_")

def body (f : Functions) (name : String) (tick : Nat) : ResourcePath :=
  (f.frames name).child (toString tick)

end Functions

/-- What follows a tick, unless another animation was asked for at the last one. -/
inductive Successor
  | next (tick : Nat)
  | loopTo (tick : Nat)
  | hold (tick : Nat)
  | terminal
  deriving DecidableEq, Repr

/-- An animation with its range of frame ids. -/
structure Plan where
  name : String
  policy : LoopPolicy
  lastTick : Nat
  firstFrame : Nat
  deriving DecidableEq, Repr

namespace Plan

/-- The value of the frame counter while a tick is awaited. -/
def frameId (p : Plan) (tick : Nat) : Nat :=
  p.firstFrame + tick

def successor (p : Plan) (tick : Nat) : Successor :=
  if tick < p.lastTick then .next (tick + 1)
  else match p.policy with
    | .once => .terminal
    | .hold => .hold tick
    | .loop => .loopTo 0

end Plan

/-- A tick with its two programs. -/
structure Frame where
  tick : Nat
  id : Nat
  placed : List (Placed Float)
  dispatcherPath : ResourcePath
  dispatcher : Program
  bodyPath : ResourcePath
  body : Program
  successor : Successor

structure CompiledAnimation where
  plan : Plan
  entryPath : ResourcePath
  entry : Program
  frames : List Frame

/-- The programs of an animation with their paths: the one that starts it, then those of each tick.
-/
def CompiledAnimation.programs (a : CompiledAnimation) : List (ResourcePath × Program) :=
  (a.entryPath, a.entry) ::
    a.frames.flatMap fun f => [(f.dispatcherPath, f.dispatcher), (f.bodyPath, f.body)]

namespace Frames

/-- Ticks from the start of an animation to its first tick. -/
def entryDelay : Nat := 1

/-- Ticks from the first tick to the second. The longer wait takes up what the start came late. -/
def firstDelay : Nat := 2

/-- Ticks from any other tick to the next. -/
def delay : Nat := 1

def schedule (function : ResourcePath) (ticks : Nat) : Directive Float :=
  .schedule function ticks .replace

def setFrame (value : Int) : Directive Float :=
  .setScore .this Names.frame value

/-- Proxies whose id, as far as it has been taken down, is zero. -/
def proxiesAtZero : Target :=
  .select { tags := [Names.proxy], scores := [(Names.id, .exactly 0)] }

/-- Marks the proxies of the running instance as active. Its id is taken off every proxy's id, and
those at zero are its own. -/
def isolate : Program := [
  .operateScore (.holder Names.compared) Names.id .assign .this Names.id,
  .operateScore (.tagged Names.proxy) Names.id .subtract (.holder Names.compared) Names.id,
  .addTag proxiesAtZero Names.active,
  .removeTag (.tagged Names.active) Names.unposed]

/-- Takes the mark away and gives every proxy its id back. -/
def release : Program := [
  .removeTag (.tagged Names.active) Names.active,
  .operateScore (.tagged Names.proxy) Names.id .add (.holder Names.compared) Names.id]

/-- Starts an animation: the instance waits on the first frame, whose dispatcher is scheduled. The
second entry replaces the first. -/
def entry (f : Functions) (p : Plan) : Program :=
  let first := schedule (f.dispatcher p.name 0) entryDelay
  [setFrame (p.frameId 0), first, first]

/-- Runs the body of a tick as and at each instance of the entity that waits on it. -/
def dispatcher (entity : String) (f : Functions) (p : Plan) (tick : Nat) : Program :=
  let waiting := Target.select
    { tags := [Names.entityTag entity], scores := [(Names.frame, .exactly (p.frameId tick))] }
  [(Directive.call (f.body p.name tick)).under [.asEach waiting, .atSelf]]

/-- Holds if none of the entity's animations was asked for. -/
def notRequested (animationCount : Nat) : List Clause :=
  [.unlessScore Names.pending (.between 1 animationCount)]

/-- Takes the request for a successor and starts what was asked for. -/
def takeRequest (f : Functions) : Program := [
  .operateScore .this Names.pending .assign .this Names.next,
  .setScore .this Names.next 0,
  .call f.select]

/-- What a body does after posing. Scheduling comes last. -/
def transition (f : Functions) (animationCount : Nat) (p : Plan) (tick : Nat) : Program :=
  let otherwise (d : Directive Float) : Directive Float := d.under (notRequested animationCount)
  match p.successor tick with
  | .next following => [
      setFrame (p.frameId tick + 1),
      schedule (f.dispatcher p.name following) (if tick = 0 then firstDelay else delay)]
  | .terminal => takeRequest f ++ [
      otherwise (setFrame Names.dormantFrame),
      otherwise (schedule f.dormant delay)]
  | .hold again => takeRequest f ++ [otherwise (schedule (f.dispatcher p.name again) delay)]
  | .loopTo first => takeRequest f ++ [
      otherwise (setFrame (p.frameId first)),
      otherwise (schedule (f.dispatcher p.name first) delay)]

/-- Poses the proxies of the running instance and leaves all others as they are. -/
def posing (x : Exporter) (placed : List (Placed Float)) : Program :=
  isolate ++ [.blank] ++ placed.flatMap (fun l => x.pose l.leaf l.world) ++ [.blank] ++ release

/-- Poses the proxies of the running instance, then goes on. -/
def body (f : Functions) (animationCount : Nat) (x : Exporter) (p : Plan) (tick : Nat)
    (placed : List (Placed Float)) : Program :=
  posing x placed ++ transition f animationCount p tick

def frame (f : Functions) (animationCount : Nat) (x : Exporter) (s : Skeleton Float) (p : Plan)
    (tick : Nat) : Frame :=
  let placed := s.placedAt (tickSeconds tick) Mat4.identity
  { tick
    id := p.frameId tick
    placed
    dispatcherPath := f.dispatcher p.name tick
    dispatcher := dispatcher x.entity f p tick
    bodyPath := f.body p.name tick
    body := body f animationCount x p tick placed
    successor := p.successor tick }

def compile (f : Functions) (animationCount : Nat) (x : Exporter) (s : Skeleton Float) (p : Plan) :
    CompiledAnimation :=
  { plan := p
    entryPath := f.entry p.name
    entry := entry f p
    frames := (List.range (p.lastTick + 1)).map (frame f animationCount x s p) }

end Frames
end RigPack
