import RigPack.Pack.Frames

/-! The programs of an entity that belong to no animation. -/

namespace RigPack
namespace Support

/-- Registers the objectives and the counter of instances. It may run again at any time. -/
def load : Program :=
  [.addObjective Names.frame, .addObjective Names.id, .addObjective Names.next,
    .addObjective Names.pending, .addScore (.holder Names.instances) Names.id 0]

/-- Makes an instance of the stand that runs it: gives it an id and its proxies. -/
def spawn (x : Exporter) (leaves : List (Leaf Float)) : Program :=
  [.addScore (.holder Names.instances) Names.id 1,
    .operateScore .this Names.id .assign (.holder Names.instances) Names.id,
    .addTag .this (Names.entityTag x.entity),
    .blank]
  ++ leaves.map x.spawn ++
  [.blank,
    .operateScore (.tagged Names.fresh) Names.id .assign .this Names.id,
    .addTag (.tagged Names.fresh) Names.unposed,
    .removeTag (.tagged Names.fresh) Names.fresh,
    .setScore .this Names.next 0,
    .setScore .this Names.frame Names.dormantFrame]

/-- Takes an instance away: its proxies, then its root. -/
def remove : Program :=
  Frames.isolate ++ [.kill Frames.proxiesAtZero] ++ Frames.release ++ [.kill .this]

/-- Starts the animation whose number was asked for. -/
def select (f : Functions) (animations : List String) : Program :=
  animations.zipIdx.map fun (name, i) =>
    (Directive.call (f.entry name)).under [.ifScore Names.pending (.exactly (i + 1))]

/-- Runs after the last tick of an instance that comes to rest. -/
def dormant : Program :=
  [.comment "instance finished; nothing left to schedule"]

/-- All these programs with their paths. -/
def programs (f : Functions) (x : Exporter) (leaves : List (Leaf Float))
    (animations : List String) : List (ResourcePath × Program) :=
  [(f.load, load), (f.spawn, spawn x leaves), (f.remove, remove), (f.select, select f animations),
    (f.dormant, dormant)]

end Support
end RigPack
