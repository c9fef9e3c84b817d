import RigPack.Pack.Compile
import RigPack.World.Run

/-!
What may happen to a world into which entities are loaded. Callers spawn roots, start animations,
ask for successors and remove instances in any order; between two of their acts the scheduler runs
what is due, in any order, and time passes when nothing is due.
-/

namespace RigPack

/-- The programs of entities as a world runs them. `number` gives the worth of a printed number. -/
def Programs.ofEntities {N : Type} (number : Float → N) (entities : List CompiledEntity) :
    Programs N := fun path =>
  ((entities.flatMap CompiledEntity.programs).lookup path).map fun p => p.map (Directive.map number)

/-- A world with the stands that were spawned as roots, each with the name of its entity. -/
structure Session (N : Type) where
  world : World N := {}
  roots : List (Nat × String) := []

namespace Session

variable {N : Type}

/-- A root of an entity that was not removed. -/
def LiveRoot (s : Session N) (entity : String) (root : Nat) : Prop :=
  (root, entity) ∈ s.roots ∧ ∃ stand, s.world.stands[root]? = some stand ∧ stand.alive

variable [Scalar N]

/-- One act of a caller or of the scheduler. -/
inductive Step (programs : Programs N) (entities : List CompiledEntity) :
    Session N → Session N → Prop
  | load {s e w} : e ∈ entities → s.world.runAlone programs e.functions.load = some w →
      Step programs entities s { s with world := w }
  /-- Spawning happens on a stand without tags and scores. -/
  | spawn {s e position w} : e ∈ entities →
      (s.world.add { position }).runAs programs s.world.stands.length e.functions.spawn = some w →
      Step programs entities s ⟨w, s.roots ++ [(s.world.stands.length, e.name)]⟩
  | start {s e root a w} : e ∈ entities → s.LiveRoot e.name root → a ∈ e.animations →
      s.world.runAs programs root a.entryPath = some w →
      Step programs entities s { s with world := w }
  | request {s e root} (value : Int) : e ∈ entities → s.LiveRoot e.name root →
      Step programs entities s
        { s with world := s.world.change [root] (·.setScore Names.next value) }
  | remove {s e root w} : e ∈ entities → s.LiveRoot e.name root →
      s.world.runAs programs root e.functions.remove = some w →
      Step programs entities s { s with world := w }
  | fire {s function w} : s.world.Due function → s.world.fire programs function = some w →
      Step programs entities s { s with world := w }
  | pass {s} : (∀ function, ¬s.world.Due function) →
      Step programs entities s { s with world := s.world.pass }

/-- The sessions that acts lead to from an empty world. -/
inductive Reachable (programs : Programs N) (entities : List CompiledEntity) : Session N → Prop
  | empty : Reachable programs entities {}
  | step {s t} : Reachable programs entities s → Step programs entities s t →
      Reachable programs entities t

end Session
end RigPack
