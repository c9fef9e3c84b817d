import RigPack.World.Basic

/-!
What directives do to a world. A run has no result if a directive has no meaning where it stands: a
function that does not exist is called, a score is taken from no stand or from several, or a holder
is used as a stand.
-/

namespace RigPack

def ScoreOperator.apply : ScoreOperator → Int → Int → Int
  | assign, _, source => source
  | subtract, old, source => old - source
  | add, old, source => old + source

/-- The points at which a directive runs under a clause, if it would run at `points` without it. -/
def Clause.points {N : Type} (w : World N) (points : List (Point N)) :
    Clause → Option (List (Point N))
  | asEach target => do
    return (← points.mapM fun p => do
      return (← w.places p target).map fun i => { p with executor := some i }).flatten
  | atSelf => some (points.map fun p =>
    match p.executor.bind fun i => w.stands[i]? with
    | some s => { p with position := s.position }
    | none => p)
  | ifScore objective range => some (points.filter fun p => meets p objective range)
  | unlessScore objective range => some (points.filter fun p => !meets p objective range)
where
  meets (p : Point N) (objective : String) (range : ScoreRange) : Bool :=
    (p.executor.bind fun i => w.stands[i]?).any fun s => s.meets objective range

namespace Directive

variable {N : Type} [Scalar N]

/-- What a directive does that runs at a point. Functions are called through `call`. A directive
under clauses runs at one point after another. -/
def run (call : ResourcePath → Point N → World N → Option (World N)) :
    Directive N → Point N → World N → Option (World N)
  | blank, _, w => some w
  | comment _, _, w => some w
  | addObjective _, _, w => some w
  | setScore target objective value, p, w => w.writeScore p target objective fun _ => value
  | addScore target objective value, p, w => w.writeScore p target objective (· + value)
  | operateScore target objective operator source sourceObjective, p, w => do
    let value ← w.readScore p source sourceObjective
    w.writeScore p target objective (operator.apply · value)
  | addTag target tag, p, w => do return w.change (← w.places p target) (·.setTag tag true)
  | removeTag target tag, p, w => do return w.change (← w.places p target) (·.setTag tag false)
  | summon tags _ customId, p, w =>
    some (w.add { tags := (· ∈ tags), position := p.position, customId := some customId })
  | teleport target x y z, p, w => do
    return w.change (← w.places p target) fun s => { s with position := p.position + ⟨x, y, z⟩ }
  | poseHead target x y z, p, w => do
    return w.change (← w.places p target) fun s => { s with head := some ⟨x, y, z⟩ }
  | .call function, p, w => call function p w
  | schedule function ticks .replace, _, w => some (w.setSchedule function (some (w.now + ticks)))
  | schedule _ _ .append, _, _ => none
  | kill target, p, w => do
    return w.change (← w.places p target) fun s => { s with alive := false }
  | execute clauses d, p, w => do
    (← clauses.foldlM (Clause.points w) [p]).foldlM (fun w p => d.run call p w) w

end Directive

/-- Programs by their paths. -/
abbrev Programs (N : Type) := ResourcePath → Option (List (Directive N))

namespace World

variable {N : Type} [Scalar N] (programs : Programs N)

/-- Runs a function at a point. Calls go no deeper than the first argument. -/
def call : Nat → ResourcePath → Point N → World N → Option (World N)
  | 0, _, _, _ => none
  | depth + 1, function, p, w => do
    (← programs function).foldlM (fun w d => d.run (call depth) p w)
      { w with calls := w.calls ++ [⟨w.now, function, p.executor⟩] }

/-- A dispatcher calls a body, the body calls the selection, and the selection calls a start, which
calls nothing. -/
def deepestCall : Nat := 4

/-- Runs a function as and at a stand. -/
def runAs (w : World N) (place : Nat) (function : ResourcePath) : Option (World N) := do
  let s ← w.stands[place]?
  call programs deepestCall function ⟨some place, s.position⟩ w

/-- Runs a function for nobody, at the origin. -/
def runAlone (w : World N) (function : ResourcePath) : Option (World N) :=
  call programs deepestCall function ⟨none, .zero⟩ w

/-- A scheduled function whose time has come. -/
def Due (w : World N) (function : ResourcePath) : Prop :=
  ∃ time, w.schedule function = some time ∧ time ≤ w.now

/-- Takes a function off the schedule and runs it. -/
def fire (w : World N) (function : ResourcePath) : Option (World N) :=
  (w.setSchedule function none).runAlone programs function

def pass (w : World N) : World N :=
  { w with now := w.now + 1 }

end World
end RigPack
