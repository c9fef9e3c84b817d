import Mathlib.Tactic
import RigPack.Rig.Validate
import RigPack.Skeleton.Leaf

/-!
The order in which a walk looks at a forest: of siblings the last one first, and a bone before what
hangs below it. A walk looks at each bone and each part once, whatever it does with them.
-/

namespace RigPack
namespace Node

variable {α σ : Type}

mutual

/-- The bones and parts of a node in the order of their declaration. -/
def contents : Node α → List (Bone α ⊕ Part α)
  | .bone b children => .inl b::contentsOf children
  | .part p => [.inr p]

/-- The bones and parts of a forest in the order of their declaration. -/
def contentsOf : List (Node α) → List (Bone α ⊕ Part α)
  | [] => []
  | n::rest => n.contents ++ contentsOf rest

end

/-- The bones of a forest in the order of their declaration. -/
def bonesOf (roots : List (Node α)) : List (Bone α) :=
  (contentsOf roots).filterMap Sum.getLeft?

mutual

/-- The bones and parts of a node in the order in which they are looked at. -/
def visits : Node α → List (Bone α ⊕ Part α)
  | .bone b children => .inl b::visitsOf children
  | .part p => [.inr p]

/-- The bones and parts of a forest in the order in which they are looked at. -/
def visitsOf : List (Node α) → List (Bone α ⊕ Part α)
  | [] => []
  | n::rest => visitsOf rest ++ n.visits

end

lemma visits_eq (n : Node α) : n.visits = n.content::visitsOf n.children := by
  cases n <;> simp [visits,content,children,visitsOf]

lemma visitsOf_append (l l' : List (Node α)) : visitsOf (l ++ l') = visitsOf l' ++ visitsOf l := by
  induction l with
  | nil => simp [visitsOf]
  | cons n l ih => simp [visitsOf,ih]

/-- A walk goes through the visits of all that waits on its stack. -/
lemma walk_eq (look : σ → Bone α ⊕ Part α → Except Error σ) (s : σ) (stack : List (Node α)) :
    walk look s stack = (visitsOf stack.reverse).foldlM look s := by
  induction s,stack using walk.induct with
  | case1 s => simp [walk,visitsOf,pure,Except.pure]
  | case2 s n stack ih =>
    have hnext : visitsOf (n::stack).reverse =
        n.content::visitsOf (n.children.reverse ++ stack).reverse := by
      simp [visitsOf_append,visitsOf,visits_eq]
    rw [walk,hnext,List.foldlM_cons]
    exact congrArg _ (funext ih)

mutual

lemma visits_perm (n : Node α) : n.visits.Perm n.contents := by
  cases n with
  | part p => simp [visits,contents]
  | bone b children =>
    simp only [visits,contents]
    exact (visitsOf_perm children).cons _

/-- All bones and parts of a forest are looked at, and each of them once. -/
lemma visitsOf_perm (l : List (Node α)) : (visitsOf l).Perm (contentsOf l) := by
  cases l with
  | nil => simp [visitsOf,contentsOf]
  | cons n rest =>
    simp only [visitsOf,contentsOf]
    exact List.perm_append_comm.trans ((visits_perm n).append (visitsOf_perm rest))

end

mutual

lemma contents_parts (n : Node α) : n.contents.filterMap Sum.getRight? = n.parts := by
  cases n with
  | part p => simp [contents,parts]
  | bone b children =>
    simp only [contents,parts,List.filterMap_cons,Sum.getRight?_inl]
    exact contentsOf_parts children

lemma contentsOf_parts (l : List (Node α)) :
    (contentsOf l).filterMap Sum.getRight? = partsOf l := by
  cases l with
  | nil => simp [contentsOf,partsOf]
  | cons n rest =>
    simp only [contentsOf,partsOf,List.filterMap_append,contents_parts n,contentsOf_parts rest]

end

lemma visitsOf_parts (l : List (Node α)) :
    ((visitsOf l).filterMap Sum.getRight?).Perm (partsOf l) := by
  rw [← contentsOf_parts]
  exact (visitsOf_perm l).filterMap _

lemma visitsOf_bones (l : List (Node α)) :
    ((visitsOf l).filterMap Sum.getLeft?).Perm (bonesOf l) :=
  (visitsOf_perm l).filterMap _

end Node
end RigPack
