import Mathlib.Tactic
import RigPack.Proofs.Skeleton.Chains

/-!
Skeletons at an instant. A skeleton places each of its leaves once, in the order of declaration, and
all the places that it looks up, of leaves and of keys, are there.
-/

namespace RigPack

section Curve

variable {α : Type} [Scalar α]

/-- What halving finds lies in the window, or right behind it. -/
lemma Curve.countUntil_le (keys : List (Key α)) (t : α) (base n : Nat)
    (h : base + n ≤ keys.length) : countUntil keys t base n ≤ keys.length := by
  fun_induction countUntil keys t base n with
  | case1 base n _ k hk _ => exact (List.getElem?_eq_some_iff.mp hk).1
  | case2 base n _ k hk _ => omega
  | case3 base n _ hk => omega
  | case4 base n _ middle k hk ih =>
    refine ih ?_
    split <;> omega
  | case5 base n _ middle hk => omega

/-- The key before the place of a time is there. -/
lemma Curve.placeAfter_le (c : Curve α) (t : α) : c.placeAfter t ≤ c.keys.length :=
  countUntil_le c.keys t 0 c.keys.length (Nat.zero_add _).le

end Curve

section Skeleton

variable {α : Type}

lemma Skeleton.getElem?_of_find? {leaves : List (Leaf α)} {name : String} {i : Nat}
    {l : Leaf α} (h : Skeleton.find? leaves name = some (i,l)) :
    leaves[i]? = some l ∧ l.name = name := by
  obtain ⟨⟨l',i'⟩,hfind,heq⟩ := Option.map_eq_some_iff.mp h
  cases heq
  have hm := List.mem_of_find?_eq_some hfind
  rw [List.mem_reverse,List.mem_zipIdx_iff_getElem?] at hm
  exact ⟨hm,by simpa using List.find?_some hfind⟩

/-- Where names are told apart, a leaf is found at its own place. -/
lemma Skeleton.find?_name {leaves : List (Leaf α)} (hn : (leaves.map Leaf.name).Nodup) {i : Nat}
    {l : Leaf α} (hl : leaves[i]? = some l) : Skeleton.find? leaves l.name = some (i,l) := by
  cases hx : Skeleton.find? leaves l.name with
  | none =>
    rw [Skeleton.find?,Option.map_eq_none_iff,List.find?_eq_none] at hx
    have hm : (l,i) ∈ leaves.zipIdx.reverse := by simp [List.mem_zipIdx_iff_getElem?,hl]
    simpa using hx _ hm
  | some x =>
    obtain ⟨j,m⟩ := x
    obtain ⟨hm,hname⟩ := Skeleton.getElem?_of_find? hx
    have hij : (leaves.map Leaf.name)[j]? = (leaves.map Leaf.name)[i]? := by
      rw [List.getElem?_map,List.getElem?_map,hm,hl,Option.map_some,Option.map_some,hname]
    have hj : j < (leaves.map Leaf.name).length := by
      simpa using (List.getElem?_eq_some_iff.mp hm).1
    obtain rfl := (List.getElem?_inj hj hn).mp hij
    rw [Option.some.inj (hm.symm.trans hl)]

variable [Trigonometric α] (tracks : Tracks α) (leaves : List (Leaf α)) (t : α)

/-- A skeleton places its leaves one after another, each under the chain of its own part. -/
theorem Skeleton.placedAt_eq {roots : List (Node α)} (P : Mat4 α)
    (hn : (leaves.map Leaf.name).Nodup)
    (hleaves : leaves.map Leaf.name = (Node.partsOf roots).map Part.name) :
    (Skeleton.bind roots tracks leaves).placedAt t P =
      ((Node.chainsOf roots).zip leaves).mapIdx fun i (c,l) =>
        ⟨i,l,c.carried tracks t P * l.matrix⟩ := by
  have hnames : leaves.map Leaf.name = (Node.chainsOf roots).map fun c => c.part.name := by
    rw [hleaves,← Node.chainsOf_part,List.map_map]
    rfl
  have hlength : leaves.length = (Node.chainsOf roots).length := by
    simpa using congrArg List.length hnames
  have heach : (Node.chainsOf roots).map (Chain.placed tracks leaves t P) =
      (((Node.chainsOf roots).zip leaves).mapIdx fun i (c,l) =>
        (⟨i,l,c.carried tracks t P * l.matrix⟩ : Placed α)).map some := by
    refine List.ext_getElem (by simp [hlength]) fun i hi hi' => ?_
    have hlt : i < leaves.length := by simpa [hlength] using hi
    have hname := List.getElem_of_eq hnames (i := i) (by rwa [List.length_map])
    rw [List.getElem_map,List.getElem_map] at hname
    have hfind := Skeleton.find?_name hn (List.getElem?_eq_getElem hlt)
    simp [Chain.placed,← hname,hfind]
  calc (Skeleton.bind roots tracks leaves).placedAt t P
      = ((Node.chainsOf roots).map (Chain.placed tracks leaves t P)).filterMap id := by
        rw [List.filterMap_map]
        exact Limb.allPlacedAt_eq tracks leaves t P roots
    _ = _ := by rw [heach,List.filterMap_map]; exact List.filterMap_some

/-- At every time a skeleton places each of its leaves once, in the order of declaration. -/
theorem Skeleton.placedAt_leaf {roots : List (Node α)} (P : Mat4 α)
    (hn : (leaves.map Leaf.name).Nodup)
    (hleaves : leaves.map Leaf.name = (Node.partsOf roots).map Part.name) :
    ((Skeleton.bind roots tracks leaves).placedAt t P).map Placed.leaf = leaves := by
  have hlength : leaves.length ≤ (Node.chainsOf roots).length := by
    simpa [← Node.chainsOf_part] using (congrArg List.length hleaves).le
  rw [Skeleton.placedAt_eq tracks leaves t P hn hleaves]
  exact List.ext_getElem (by simpa using hlength) fun i _ _ => by simp

/-- What a bound forest places is the leaf at the place that is noted with it. -/
lemma Limb.getElem?_of_allPlacedAt (P : Mat4 α) (ns : List (Node α)) :
    ∀ q ∈ Limb.allPlacedAt t P (Skeleton.bindForest tracks leaves ns),
      leaves[q.index]? = some q.leaf := by
  rw [Limb.allPlacedAt_eq]
  intro q hq
  obtain ⟨c,_,hc⟩ := List.mem_filterMap.mp hq
  obtain ⟨⟨i,l⟩,hfind,rfl⟩ := Option.map_eq_some_iff.mp hc
  exact (Skeleton.getElem?_of_find? hfind).1

end Skeleton

end RigPack
