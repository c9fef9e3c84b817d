import RigPack.Error
import RigPack.Rig.Basic
import RigPack.Text.Segment

/-!
The rules that a rig has to keep before it is compiled: names are segments and told apart within
their kind, faces show declared textures, and animations have a length and keyframes of one or two
values. The first breach is reported. Among the nodes of the hierarchy the last sibling is looked at
first, a bone before its children.
-/

namespace RigPack

namespace Node

variable {α σ : Type}

/-- The bone or the part that a node is, without what hangs below it. -/
def content : Node α → Bone α ⊕ Part α
  | .bone b _ => .inl b
  | .part p => .inr p

/-- What hangs right below a node. -/
def children : Node α → List (Node α)
  | .bone _ children => children
  | .part _ => []

mutual

/-- The number of bones and parts from a node on downwards. -/
def count : Node α → Nat
  | .bone _ children => countOf children + 1
  | .part _ => 1

/-- The number of bones and parts of a forest. -/
def countOf : List (Node α) → Nat
  | [] => 0
  | n :: rest => n.count + countOf rest

end

theorem count_eq (n : Node α) : n.count = countOf n.children + 1 := by
  cases n <;> simp [count, children, countOf]

theorem countOf_append (l l' : List (Node α)) : countOf (l ++ l') = countOf l + countOf l' := by
  induction l with
  | nil => simp [countOf]
  | cons n l ih => simp [countOf, ih, Nat.add_assoc]

theorem countOf_reverse (l : List (Node α)) : countOf l.reverse = countOf l := by
  induction l with
  | nil => rfl
  | cons n l ih => simp [countOf, countOf_append, ih, Nat.add_comm]

/-- Looks at the nodes that wait on a stack, the first one next, until none is left. What hangs
below a node is put on the stack when the node is looked at, so that the last of it comes first. -/
def walk (look : σ → Bone α ⊕ Part α → Except Error σ) (s : σ) : List (Node α) → Except Error σ
  | [] => .ok s
  | n :: stack => do
    let s ← look s n.content
    walk look s (n.children.reverse ++ stack)
termination_by stack => countOf stack
decreasing_by
  rw [countOf_append, countOf_reverse, countOf, count_eq]
  omega

end Node

namespace Validate

variable {α : Type}

/-- Goes through texture ids, of which `seen` have been met. -/
def textures (entity : String) (seen : List String) : List TextureSource → Except Error Unit
  | [] => .ok ()
  | t :: rest =>
    if !isSegment t.id then .error (.textureId entity t.id)
    else if t.id ∈ seen then .error (.repeatedTexture entity t.id)
    else textures entity (t.id :: seen) rest

/-- The face of a part has no texture or one of `known`. -/
def face (entity part : String) (known : List String) (side : Side) (f : Face α) :
    Except Error Unit :=
  match f.texture with
  | none => .ok ()
  | some id => if id ∈ known then .ok () else .error (.unknownTexture entity part side.name id)

/-- What has been met of a hierarchy. -/
structure Seen where
  bones : List String := []
  parts : List String := []
  /-- Chosen custom ids, each with its part. -/
  ids : List (UInt32 × String) := []

/-- A bone or a part that goes with what has been met. -/
def visit (entity : String) (known : List String) (seen : Seen) :
    Bone α ⊕ Part α → Except Error Seen
  | .inl b =>
    if b.uuid ∈ seen.bones then .error (.repeatedBone entity b.uuid)
    else .ok { seen with bones := b.uuid :: seen.bones }
  | .inr p => do
    if !isSegment p.name then throw (.partName entity p.name)
    p.faces.toList.forM fun (side, f) => face entity p.name known side f
    if p.name ∈ seen.parts then throw (.repeatedPart entity p.name)
    let seen := { seen with parts := p.name :: seen.parts }
    match p.customId with
    | none => return seen
    | some id =>
      match seen.ids.lookup id with
      | some other => throw (.repeatedCustomId entity id other p.name)
      | none => return { seen with ids := (id, p.name) :: seen.ids }

def keyframe (animation bone : String) (k : Keyframe Float) : Except Error Unit :=
  if !k.time.isFinite then .error (.keyframeTime animation bone)
  else if k.points.length = 0 ∨ 2 < k.points.length then
    .error (.keyframePoints animation bone k.time)
  else .ok ()

end Validate

/-- The rules for one animation, apart from its name. -/
def Animation.validate (a : Animation Float) : Except Error Unit := do
  if !a.length.isFinite || a.length < 0 then throw (.animationLength a.name)
  a.tracks.toList.forM fun (bone, keys) => keys.forM (Validate.keyframe a.name bone)

/-- Goes through animations, of which `seen` have been met. -/
def Validate.animations (entity : String) (seen : List String) :
    List (Animation Float) → Except Error Unit
  | [] => .ok ()
  | a :: rest => do
    if !isSegment a.name then throw (.animationName entity a.name)
    if a.name ∈ seen then throw (.repeatedAnimation entity a.name)
    match a.validate with
    | .error e => throw (.inEntity entity e)
    | .ok () => Validate.animations entity (a.name :: seen) rest

def Rig.validate (r : Rig Float) : Except Error Unit := do
  if !isSegment r.name then throw (.entityName r.name)
  Validate.textures r.name [] r.textures
  discard <| Node.walk (Validate.visit r.name (r.textures.map TextureSource.id)) {} r.roots.reverse
  Validate.animations r.name [] r.animations

end RigPack
