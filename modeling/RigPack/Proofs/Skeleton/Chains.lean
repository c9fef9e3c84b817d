import Mathlib.Tactic
import RigPack.Skeleton.Sample

/-!
The parts of a forest with the bones that they hang on. A bound forest places its parts one by one,
in the order of declaration, each by its own bones and by nothing else.
-/

namespace RigPack

/-- A part with all bones above it, the outermost first. -/
structure Chain (α : Type) where
  bones : List (Bone α)
  part : Part α
  deriving DecidableEq, Repr

/-- How a bone moves what hangs on it at time `t`: it turns about its pivot at rest, from its own
origin and rotation, each displaced by the keys that the bone's own track has for it. -/
def Bone.matrixAt {α : Type} [Trigonometric α] (tracks : Tracks α) (t : α) (b : Bone α) : Mat4 α :=
  let track := (tracks[b.uuid]?).getD []
  let position := Curve.ofKeys (Keyframe.keysOf .position track)
  let rotation := Curve.ofKeys (Keyframe.keysOf .rotation track)
  Pose.toMatrixAbout ⟨b.origin + position.eval t, b.rotation + rotation.eval t⟩ b.origin

/-- A bone moves as it does once it is bound to its curves. -/
lemma Bone.matrixAt_joint {α : Type} [Trigonometric α] (tracks : Tracks α) (t : α) (b : Bone α) :
    (Skeleton.joint tracks b).matrixAt t = b.matrixAt tracks t :=
  rfl

namespace Chain

variable {α : Type}

/-- The chain under one more bone. -/
def below (b : Bone α) (c : Chain α) : Chain α :=
  ⟨b::c.bones,c.part⟩

/-- The part stands in the forest, and the bones lead down to it from a root. -/
inductive Hangs : List (Node α) → Chain α → Prop
  | part {roots p} : .part p ∈ roots → Hangs roots ⟨[],p⟩
  | bone {roots b children c} : .bone b children ∈ roots → Hangs children c →
      Hangs roots (c.below b)

variable [Trigonometric α]

/-- What the bones of the chain make of `parent` at time `t`, one after another. -/
def carried (tracks : Tracks α) (t : α) (parent : Mat4 α) (c : Chain α) : Mat4 α :=
  c.bones.foldl (fun M b => M * b.matrixAt tracks t) parent

/-- Where the chain takes the origin of its part. -/
def world (tracks : Tracks α) (t : α) (parent : Mat4 α) (c : Chain α) : Mat4 α :=
  c.carried tracks t parent * Pose.toMatrix ⟨c.part.origin,c.part.rotation⟩

end Chain

namespace Node

variable {α : Type}

mutual

/-- The chains of a node's parts in the order of their declaration. -/
def chains : Node α → List (Chain α)
  | .bone b children => (chainsOf children).map (Chain.below b)
  | .part p => [⟨[],p⟩]

/-- The chains of a forest's parts in the order of their declaration. -/
def chainsOf : List (Node α) → List (Chain α)
  | [] => []
  | n::rest => n.chains ++ chainsOf rest

end

mutual

lemma chains_part (n : Node α) : n.chains.map Chain.part = n.parts := by
  cases n with
  | part p => rfl
  | bone b children =>
    rw [chains,parts,List.map_map]
    exact chainsOf_part children

/-- Each part has one chain. -/
lemma chainsOf_part (roots : List (Node α)) : (chainsOf roots).map Chain.part = partsOf roots := by
  cases roots with
  | nil => rfl
  | cons n rest => rw [chainsOf,partsOf,List.map_append,chains_part n,chainsOf_part rest]

end

lemma mem_chainsOf {roots : List (Node α)} {c : Chain α} :
    c ∈ chainsOf roots ↔ ∃ n ∈ roots, c ∈ n.chains := by
  induction roots with
  | nil => simp [chainsOf]
  | cons n rest ih => simp [chainsOf,ih]

mutual

lemma hangs_of_mem_chains {n : Node α} {roots : List (Node α)} (hn : n ∈ roots) :
    ∀ c ∈ n.chains, c.Hangs roots := by
  intro c hc
  cases n with
  | part p =>
    rw [List.mem_singleton.mp hc]
    exact .part hn
  | bone b children =>
    obtain ⟨d,hd,rfl⟩ := List.mem_map.mp hc
    exact .bone hn (hangs_of_mem_chainsOf (List.Subset.refl _) d hd)

lemma hangs_of_mem_chainsOf {ns roots : List (Node α)} (hns : ns ⊆ roots) :
    ∀ c ∈ chainsOf ns, c.Hangs roots := by
  intro c hc
  cases ns with
  | nil => exact absurd hc List.not_mem_nil
  | cons n rest =>
    obtain ⟨hn,hrest⟩ := List.cons_subset.mp hns
    exact (List.mem_append.mp hc).elim (hangs_of_mem_chains hn c) (hangs_of_mem_chainsOf hrest c)

end

/-- The chains of a forest are those that hang in it. -/
lemma mem_chainsOf_iff {roots : List (Node α)} {c : Chain α} :
    c ∈ chainsOf roots ↔ c.Hangs roots := by
  refine ⟨hangs_of_mem_chainsOf (List.Subset.refl _) c,fun h => ?_⟩
  induction h with
  | part hp => exact mem_chainsOf.mpr ⟨_,hp,List.mem_singleton_self _⟩
  | bone hb _ ih => exact mem_chainsOf.mpr ⟨_,hb,List.mem_map_of_mem ih⟩

end Node

section Placed

variable {α : Type} [Trigonometric α] (tracks : Tracks α) (leaves : List (Leaf α)) (t : α)

/-- The leaf of a chain's part, with its place among all leaves, where the bones take it. -/
def Chain.placed (P : Mat4 α) (c : Chain α) : Option (Placed α) :=
  (Skeleton.find? leaves c.part.name).map fun (i,l) => ⟨i,l,c.carried tracks t P * l.matrix⟩

/-- Under a bone a chain is placed as it is where the bone takes what is below it. -/
lemma Chain.placed_below (P : Mat4 α) (b : Bone α) (c : Chain α) :
    (c.below b).placed tracks leaves t P =
      c.placed tracks leaves t (P * b.matrixAt tracks t) :=
  rfl

mutual

lemma Limb.placedAt_eq (P : Mat4 α) (n : Node α) :
    ((Skeleton.bindNode tracks leaves n).toList.flatMap fun b => b.placedAt t P) =
      n.chains.filterMap (Chain.placed tracks leaves t P) := by
  cases n with
  | part p =>
    rw [Skeleton.bindNode,Node.chains]
    cases hx : Skeleton.find? leaves p.name with
    | none => simp [Chain.placed,hx]
    | some x => simp [Chain.placed,hx,Chain.carried,Limb.placedAt]
  | bone b children =>
    rw [Skeleton.bindNode,Option.toList_some,List.flatMap_singleton,Limb.placedAt,
      b.matrixAt_joint tracks,Node.chains,List.filterMap_map,Limb.allPlacedAt_eq _ children]
    exact List.filterMap_congr fun c _ => (c.placed_below tracks leaves t P b).symm

/-- A bound forest places the chains of its parts in the order of declaration. -/
lemma Limb.allPlacedAt_eq (P : Mat4 α) (ns : List (Node α)) :
    Limb.allPlacedAt t P (Skeleton.bindForest tracks leaves ns) =
      (Node.chainsOf ns).filterMap (Chain.placed tracks leaves t P) := by
  cases ns with
  | nil => rfl
  | cons n rest =>
    have hn := Limb.placedAt_eq P n
    have hrest := Limb.allPlacedAt_eq P rest
    rw [Node.chainsOf,List.filterMap_append,← hn,← hrest,Skeleton.bindForest]
    cases Skeleton.bindNode tracks leaves n with
    | none => rfl
    | some b => rw [Option.toList_some,List.flatMap_singleton]; rfl

end

end Placed

end RigPack
