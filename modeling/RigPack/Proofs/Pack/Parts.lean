import RigPack.Proofs.Pack.Outcome
import RigPack.Proofs.World.Isolation

/-!
The parts of a rig on their way into a pack. The passes that give them ids, bind them to bones,
place them, pose their proxies and make these proxies all take them in the order of declaration,
each once and as itself.
-/

namespace RigPack

namespace Directive

variable {N : Type}

/-- Whether a directive moves or turns stands, inside all its clauses. -/
def isPose (d : Directive N) : Bool :=
  match d.innermost with
  | teleport _ _ _ _ => true
  | poseHead _ _ _ _ => true
  | _ => false

/-- Whether a directive makes a stand, inside all its clauses. -/
def isSummon (d : Directive N) : Bool :=
  match d.innermost with
  | summon _ _ _ => true
  | _ => false

end Directive

/-- What brings the active proxy of a chain's part to a place: it is addressed by the tag of this
part, moved, then turned. -/
def Chain.pose (x : Exporter) (world : Mat4 Float) (c : Chain Float) : Program :=
  let own := Target.select
    { tags := [Names.active,Names.partTag x.entity c.part.name], single := true }
  [.teleport own (Exporter.offset world).x (Exporter.offset world).y (Exporter.offset world).z,
    .poseHead own (Exporter.turn world).x (Exporter.turn world).y (Exporter.turn world).z]

/-- What the passes over a rig's forest make of its leaves. -/
structure Rig.Ordered (r : Rig Float) (leaves : List (Leaf Float)) : Prop where
  /-- At every time and under every parent each leaf is placed by the chain of its own part. -/
  placed : ∀ (tracks : Tracks Float) t P, (Skeleton.bind r.roots tracks leaves).placedAt t P =
    ((Node.chainsOf r.roots).zip leaves).mapIdx fun i (c,l) => ⟨i,l,c.world tracks t P⟩
  /-- The leaves are counted from zero on, and each count leads to its leaf. -/
  indices : ∀ (tracks : Tracks Float) t P,
    ((Skeleton.bind r.roots tracks leaves).placedAt t P).map Placed.index =
      List.range leaves.length ∧
    ∀ q ∈ (Skeleton.bind r.roots tracks leaves).placedAt t P,
      (Skeleton.bind r.roots tracks leaves).leaves[q.index]? = some q.leaf
  /-- A body poses the proxy of each part once, as the chain of the part places it. -/
  poses : ∀ (tracks : Tracks Float) f n x p,
    ∀ frame ∈ (Frames.compile f n x (Skeleton.bind r.roots tracks leaves) p).frames,
      frame.body.filter Directive.isPose = (Node.chainsOf r.roots).flatMap fun c =>
        c.pose x (c.world tracks (tickSeconds frame.tick) Mat4.identity)
  /-- The spawn program makes one proxy for each leaf, with its own tag and custom id. -/
  summons : ∀ x : Exporter, (Support.spawn x leaves).filter Directive.isSummon =
    leaves.map fun l =>
      .summon [Names.fresh,Names.partTag x.entity l.name,Names.proxy] x.item l.customId

section Programs

variable {f : Functions} {x : Exporter}

lemma Frames.transition_filter (n : Nat) (p : Plan) (t : Nat) :
    (transition f n p t).filter Directive.isPose = [] := by
  unfold transition Plan.successor
  by_cases hlast : t < p.lastTick
  · rw [if_pos hlast]
    rfl
  · rw [if_neg hlast]
    cases p.policy <;> rfl

/-- The poses of a body are those of what its tick places. -/
lemma Frames.body_filter (n : Nat) (p : Plan) (t : Nat) (placed : List (Placed Float)) :
    (body f n x p t placed).filter Directive.isPose =
      placed.flatMap fun l => x.pose l.leaf l.world := by
  have hall : (placed.flatMap fun l => x.pose l.leaf l.world).filter Directive.isPose =
      placed.flatMap fun l => x.pose l.leaf l.world := by
    refine List.filter_eq_self.mpr fun d hd => ?_
    obtain ⟨l,_,hd⟩ := List.mem_flatMap.mp hd
    rcases List.mem_pair.mp hd with rfl | rfl <;> rfl
  have hisolate : isolate.filter Directive.isPose = [] := rfl
  have hrelease : release.filter Directive.isPose = [] := rfl
  have hblank : [Directive.blank].filter (Directive.isPose (N := Float)) = [] := rfl
  simp only [body,posing,List.filter_append,hisolate,hrelease,hblank,hall,transition_filter,
    List.nil_append,List.append_nil]

/-- The spawn program summons nothing but the proxies of its leaves. -/
lemma Support.spawn_filter (leaves : List (Leaf Float)) :
    (spawn x leaves).filter Directive.isSummon = leaves.map x.spawn := by
  have hall : (leaves.map x.spawn).filter Directive.isSummon = leaves.map x.spawn := by
    refine List.filter_eq_self.mpr fun d hd => ?_
    obtain ⟨l,_,rfl⟩ := List.mem_map.mp hd
    rfl
  simp only [spawn,List.filter_append,hall]
  simp [Directive.isSummon,Directive.innermost]

end Programs

section Leaves

variable {α : Type}

/-- Ids make a leaf of each part. -/
lemma Part.withId_each {ps : List (Part α)} {ids : List UInt32} (h : ids.length = ps.length) :
    List.Forall₂ (fun p l => l = p.withId l.customId) ps (List.zipWith Part.withId ps ids) := by
  refine List.forall₂_iff_zip.mpr ⟨by simp [h],fun {p l} hpl => ?_⟩
  obtain ⟨i,hi,hi'⟩ := List.getElem_of_mem hpl
  simp only [List.getElem_zip,List.getElem_zipWith,Prod.mk.injEq] at hi'
  obtain ⟨rfl,rfl⟩ := hi'
  rfl

/-- Leaves that are made of parts are made of them by their ids. -/
lemma Part.eq_zipWith_withId {ps : List (Part α)} {ls : List (Leaf α)}
    (h : List.Forall₂ (fun p l => l = p.withId l.customId) ps ls) :
    ls = List.zipWith Part.withId ps (ls.map Leaf.customId) := by
  induction h with
  | nil => rfl
  | cons hl _ ih => rw [List.map_cons,List.zipWith_cons_cons,← hl,← ih]

/-- The leaves of a forest are its parts under the ids that are asked for one after another. -/
lemma Node.leaves_eq {m : Type → Type} [Monad m] [LawfulMonad m] (assign : Part α → m UInt32)
    (roots : List (Node α)) : Node.leaves assign roots =
      List.zipWith Part.withId (partsOf roots) <$> (partsOf roots).mapM assign := by
  unfold Node.leaves
  induction partsOf roots with
  | nil => simp
  | cons p ps ih =>
    rw [List.mapM_cons,ih,List.mapM_cons]
    simp

end Leaves

section Ordered

variable {r : Rig Float} {leaves : List (Leaf Float)}

/-- Leaves that are made of the parts of chains are posed as these chains. -/
lemma Chain.flatMap_pose {cs : List (Chain Float)}
    (h : List.Forall₂ (fun c l => l = c.part.withId l.customId) cs leaves) (x : Exporter)
    (world : Chain Float → Mat4 Float) :
    ((cs.zip leaves).mapIdx fun i (c,l) => (⟨i,l,world c⟩ : Placed Float)).flatMap
      (fun q => x.pose q.leaf q.world) = cs.flatMap fun c => c.pose x (world c) := by
  obtain ⟨hlength,hpart⟩ := List.forall₂_iff_zip.mp h
  rw [List.flatMap_def,List.flatMap_def]
  refine congrArg List.flatten (List.ext_getElem (by simp [hlength]) fun i hi hi' => ?_)
  rw [List.length_map] at hi'
  have hname : leaves[i].name = cs[i].part.name := by
    rw [hpart (List.mem_iff_getElem.mpr ⟨i,by simpa using hi,List.getElem_zip⟩)]
    rfl
  simp [Exporter.pose,Chain.pose,Exporter.tag,hname]

/-- Leaves of parts with names of their own are placed by the chains of these parts. -/
lemma Rig.placed_of_each (hn : ((Node.partsOf r.roots).map Part.name).Nodup)
    (h : List.Forall₂ (fun c l => l = c.part.withId l.customId) (Node.chainsOf r.roots) leaves)
    (tracks : Tracks Float) (t : Float) (P : Mat4 Float) :
    (Skeleton.bind r.roots tracks leaves).placedAt t P =
      ((Node.chainsOf r.roots).zip leaves).mapIdx fun i (c,l) => ⟨i,l,c.world tracks t P⟩ := by
  have hnames : leaves.map Leaf.name = (Node.partsOf r.roots).map Part.name := by
    rw [← Node.chainsOf_part,List.map_map]
    refine List.forall₂_eq_eq_eq ▸ List.forall₂_map_left_iff.mpr
      (List.forall₂_map_right_iff.mpr ?_)
    exact h.flip.imp fun _ _ hl => congrArg Leaf.name hl
  rw [Skeleton.placedAt_eq tracks leaves t P (hnames ▸ hn) hnames,List.mapIdx_eq_mapIdx_iff]
  intro i hi
  have hq := List.getElem_mem hi
  generalize ((Node.chainsOf r.roots).zip leaves)[i] = q at hq ⊢
  obtain ⟨c,l⟩ := q
  have hmatrix : l.matrix = Pose.toMatrix ⟨c.part.origin,c.part.rotation⟩ := by
    rw [(List.forall₂_iff_zip.mp h).2 hq]
    rfl
  simp only [Chain.world,hmatrix]

/-- Leaves of parts with names of their own are bound, placed, posed and summoned in their order. -/
lemma Rig.ordered_of_each (hn : ((Node.partsOf r.roots).map Part.name).Nodup)
    (h : List.Forall₂ (fun p l => l = p.withId l.customId) (Node.partsOf r.roots) leaves) :
    r.Ordered leaves := by
  rw [← Node.chainsOf_part,List.forall₂_map_left_iff] at h
  have hplaced := Rig.placed_of_each hn h
  refine ⟨hplaced,fun tracks t P => ⟨?_,?_⟩,fun tracks f n x p frame hframe => ?_,fun x => ?_⟩
  · rw [hplaced]
    exact List.ext_getElem (by simp [h.length_eq]) fun i _ _ => by simp
  · exact Limb.getElem?_of_allPlacedAt tracks leaves t P r.roots
  · obtain ⟨t,_,rfl⟩ := List.mem_map.mp hframe
    change (Frames.body f n x p t _).filter Directive.isPose = _
    rw [Frames.body_filter,hplaced,Chain.flatMap_pose h]
    rfl
  · exact Support.spawn_filter leaves

end Ordered

/-- No pass over a validated rig loses, repeats or mixes up parts. The ids are given out in the
order of declaration; every skeleton places the parts in this order, each by its own origin and
rotation and by the bones above it and no others; every body poses and the spawn program makes one
proxy for each, under a tag that no other part has. The programs of a compiled entity come from
these passes. -/
theorem Rig.parts_in_order {r : Rig Float} (h : r.validate = .ok ()) :
    ((Node.chainsOf r.roots).map Chain.part = Node.partsOf r.roots ∧
      ∀ c, c ∈ Node.chainsOf r.roots ↔ c.Hangs r.roots) ∧
    ((Node.partsOf r.roots).map fun p => Names.partTag r.name p.name).Nodup ∧
    (∀ (m : Type → Type) [Monad m] [LawfulMonad m] (assign : Part Float → m UInt32),
      Node.leaves assign r.roots =
        List.zipWith Part.withId (Node.partsOf r.roots) <$> (Node.partsOf r.roots).mapM assign) ∧
    (∀ ids : List UInt32, ids.length = (Node.partsOf r.roots).length →
      r.Ordered (List.zipWith Part.withId (Node.partsOf r.roots) ids)) ∧
    ∀ (disk : FileTree) base c e c', (⟨r,base⟩ : Entity).compile disk c = (.ok e,c') →
      (∃ ids : List UInt32, ids.length = (Node.partsOf r.roots).length ∧
        e.leaves = List.zipWith Part.withId (Node.partsOf r.roots) ids) ∧
      List.Forall₂ (fun a b => b = Frames.compile e.functions r.animations.length
        ⟨r.name,c.options.space,c.options.item⟩ (Skeleton.bind r.roots a.tracks e.leaves) b.plan)
          r.animations e.animations ∧
      (e.functions.spawn,Support.spawn ⟨r.name,c.options.space,c.options.item⟩ e.leaves) ∈
        e.programs := by
  have hn := (Rig.wellFormed_of_validate h).parts_distinct
  refine ⟨⟨Node.chainsOf_part _,fun _ => Node.mem_chainsOf_iff⟩,?_,
    fun m _ _ assign => Node.leaves_eq assign r.roots,
    fun ids hids => Rig.ordered_of_each hn (Part.withId_each hids),
    fun disk base c e c' hc => ?_⟩
  · have htags := hn.map (Names.partTag_injective r.name)
    rwa [List.map_map] at htags
  · obtain ⟨x,_,_,_,hp,_⟩ := Entity.compile_ok hc
    obtain rfl := hp.exporter
    refine ⟨⟨e.leaves.map Leaf.customId,?_,Part.eq_zipWith_withId hp.leaves_each⟩,?_,?_⟩
    · rw [List.length_map,hp.leaves_each.length_eq]
    · exact hp.functions ▸ hp.animations_made.imp fun _ _ hmade => hmade.compiled
    · exact hp.lawful.mem_programs.mpr ⟨.spawn,rfl,.spawn⟩

section Crane

def mast : Bone Float := ⟨"mast", "mast", ⟨0, 8, 0⟩, ⟨0, 45, 0⟩⟩

def jib : Bone Float := ⟨"jib", "jib", ⟨0, 32, 0⟩, ⟨10, 0, 0⟩⟩

def cranePart (name : String) (origin : Vec3 Float) : Part Float :=
  { name, low := ⟨0, 0, 0⟩, high := ⟨4, 4, 4⟩, origin, rotation := ⟨0, 0, 30⟩, faces := {}
    customId := none }

/-- A rig with parts under two bones, under one and under none. -/
def crane : Rig Float where
  name := "crane"
  textures := []
  roots := [
    .bone mast [
      .bone jib [.part (cranePart "hook" ⟨0, 30, 16⟩)],
      .part (cranePart "cab" ⟨0, 20, 0⟩)],
    .part (cranePart "base" ⟨0, 0, 0⟩)]
  animations := []

/-- The mast turns and the jib comes out. The third track is of no bone of the crane. -/
def craneTracks : Tracks Float :=
  let turning := [⟨.rotation, 0, .linear, [⟨0, 90, 0⟩]⟩]
  let reaching := [⟨.position, 0, .linear, [⟨0, 0, 4⟩]⟩, ⟨.position, 1, .linear, [⟨0, 0, 8⟩]⟩]
  let leaning := [⟨.rotation, 0, .linear, [⟨0, 0, 15⟩]⟩]
  ((Std.ExtTreeMap.insert ∅ "mast" turning).insert "jib" reaching).insert "boom" leaning

/-- The parts of the crane are placed in their order. The mast moves two of them by its own pose and
the keys of its rotation, the jib one of these by its own pose and the keys of its position. -/
theorem crane_in_order :
    (Skeleton.bind crane.roots craneTracks (List.zipWith Part.withId (Node.partsOf crane.roots)
      [4,9,2])).placedAt 0.5 Mat4.identity =
    let turn := Curve.ofKeys [⟨0,⟨0,90,0⟩,none,.linear⟩]
    let reach := Curve.ofKeys [⟨0,⟨0,0,4⟩,none,.linear⟩,⟨1,⟨0,0,8⟩,none,.linear⟩]
    let rest := Curve.ofKeys []
    let turned := Mat4.identity * Pose.toMatrixAbout
      ⟨⟨0,8,0⟩ + rest.eval 0.5,⟨0,45,0⟩ + turn.eval 0.5⟩ ⟨0,8,0⟩
    let reached := turned * Pose.toMatrixAbout
      ⟨⟨0,32,0⟩ + reach.eval 0.5,⟨10,0,0⟩ + rest.eval 0.5⟩ ⟨0,32,0⟩
    [⟨0,(cranePart "hook" ⟨0,30,16⟩).withId 4,reached * Pose.toMatrix ⟨⟨0,30,16⟩,⟨0,0,30⟩⟩⟩,
      ⟨1,(cranePart "cab" ⟨0,20,0⟩).withId 9,turned * Pose.toMatrix ⟨⟨0,20,0⟩,⟨0,0,30⟩⟩⟩,
      ⟨2,(cranePart "base" ⟨0,0,0⟩).withId 2,
        Mat4.identity * Pose.toMatrix ⟨⟨0,0,0⟩,⟨0,0,30⟩⟩⟩] := by
  have hvalid : crane.validate.toOption = some () := by decide +kernel
  have hordered := (Rig.parts_in_order (Except.ok_of_toOption hvalid)).2.2.2.1 [4,9,2] rfl
  obtain ⟨hmast,hjib⟩ : craneTracks["mast"]? = some [⟨.rotation,0,.linear,[⟨0,90,0⟩]⟩] ∧
      craneTracks["jib"]? =
        some [⟨.position,0,.linear,[⟨0,0,4⟩]⟩,⟨.position,1,.linear,[⟨0,0,8⟩]⟩] := by
    simp only [craneTracks,Std.ExtTreeMap.getElem?_insert,Std.compare_eq_iff_eq,String.reduceEq,
      if_false,if_true,and_self]
  have hturned : mast.matrixAt craneTracks 0.5 = Pose.toMatrixAbout
      ⟨⟨0,8,0⟩ + (Curve.ofKeys []).eval 0.5,
        ⟨0,45,0⟩ + (Curve.ofKeys [⟨0,⟨0,90,0⟩,none,.linear⟩]).eval 0.5⟩ ⟨0,8,0⟩ := by
    simp only [Bone.matrixAt,mast,hmast]
    rfl
  have hreached : jib.matrixAt craneTracks 0.5 = Pose.toMatrixAbout
      ⟨⟨0,32,0⟩ + (Curve.ofKeys [⟨0,⟨0,0,4⟩,none,.linear⟩,⟨1,⟨0,0,8⟩,none,.linear⟩]).eval 0.5,
        ⟨10,0,0⟩ + (Curve.ofKeys []).eval 0.5⟩ ⟨0,32,0⟩ := by
    simp only [Bone.matrixAt,jib,hjib]
    rfl
  simp only [← hturned,← hreached]
  exact hordered.placed craneTracks 0.5 Mat4.identity

end Crane

end RigPack
