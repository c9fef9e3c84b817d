import Mathlib.Tactic
import RigPack.Proofs.Pack.Contexts
import RigPack.Proofs.Skeleton.Sample

/-!
What a compiled entity is, told without the compiler's run: its programs are those of `Frames` and
`Support` for its own leaves and animations, its names are told apart, no two of its ticks share a
frame id, and every tick places every leaf once.
-/

namespace RigPack

/-- The leaves of a forest bear the names of its parts. -/
lemma Node.leaves_names {α : Type} {roots : List (Node α)} {leaves : List (Leaf α)} {c c' : Context}
    (h : Node.leaves Context.customIdFor roots c = (.ok leaves,c')) :
    leaves.map Leaf.name = (Node.partsOf roots).map Part.name := by
  refine Compiling.mapM_map (fun p c l c' hp => ?_) h
  obtain ⟨id,d,_,hp⟩ := Compiling.bind_ok hp
  obtain ⟨rfl,_⟩ := Compiling.pure_ok hp
  rfl

lemma Frames.compile_ticks (f : Functions) (animationCount : Nat) (x : Exporter)
    (s : Skeleton Float) (p : Plan) :
    (Frames.compile f animationCount x s p).frames.map Frame.tick =
      List.range (p.lastTick + 1) := by
  change ((List.range _).map _).map Frame.tick = _
  rw [List.map_map]
  exact List.map_id _

namespace Compile

variable {f : Functions} {x : Exporter} {rig : Rig Float} {leaves : List (Leaf Float)}
  {c c' : Context}

/-- An animation is compiled from its plan. -/
lemma animation_ok {a : Animation Float} {b : CompiledAnimation}
    (h : animation f x rig leaves a c = (.ok b,c')) :
    b = Frames.compile f rig.animations.length x (Skeleton.bind rig.roots a.tracks leaves) b.plan ∧
      plan rig.name a c = (.ok b.plan,c') := by
  obtain ⟨p,_,hp,h⟩ := Compiling.bind_ok h
  obtain ⟨rfl,rfl⟩ := Compiling.pure_ok h
  exact ⟨rfl,hp⟩

/-- An animation of a rig and what it is compiled into. -/
structure Made (rig : Rig Float) (x : Exporter) (leaves : List (Leaf Float)) (a : Animation Float)
    (b : CompiledAnimation) : Prop where
  name : b.plan.name = a.name
  policy : LoopPolicy.understand rig.name a.name a.loop = .ok b.plan.policy
  last : lastTick a.length = .ok b.plan.lastTick
  ticks : b.frames.map Frame.tick = List.range (b.plan.lastTick + 1)
  compiled : b = Frames.compile (Functions.ofEntity x.space x.entity) rig.animations.length x
    (Skeleton.bind rig.roots a.tracks leaves) b.plan

lemma animation_made {a : Animation Float} {b : CompiledAnimation}
    (hf : f = Functions.ofEntity x.space x.entity)
    (h : animation f x rig leaves a c = (.ok b,c')) : Made rig x leaves a b := by
  obtain ⟨hcompiled,hplan⟩ := animation_ok h
  obtain ⟨hname,hpolicy,hlast,_⟩ := plan_ok hplan
  subst hf
  refine ⟨hname,hpolicy,hlast,?_,hcompiled⟩
  rw [hcompiled]
  exact Frames.compile_ticks _ _ _ _ _

lemma animations_taking (l : List (Animation Float)) :
    Compiling.Taking (l.mapM (animation f x rig leaves)) :=
  .mapM (fun a => .bind (plan_taking _ a) fun _ => .of_pure _) l

/-- The frame ids of animations that are compiled one after another: each takes one for each of its
ticks, from where the one before it stopped. -/
structure Numbered (c c' : Context) (bs : List CompiledAnimation) : Prop where
  total : c'.nextFrame = c.nextFrame + (bs.map fun b => b.plan.lastTick + 1).sum
  within : ∀ b ∈ bs, c.nextFrame ≤ b.plan.firstFrame ∧
    b.plan.firstFrame + b.plan.lastTick < c'.nextFrame ∧
      b.plan.firstFrame + b.plan.lastTick < Context.frameLimit
  apart : bs.Pairwise fun b b' => b.plan.firstFrame + b.plan.lastTick < b'.plan.firstFrame
  limit : c.nextFrame ≤ Context.frameLimit → c'.nextFrame ≤ Context.frameLimit

lemma animations_ok {l : List (Animation Float)} {bs : List CompiledAnimation}
    (h : l.mapM (animation f x rig leaves) c = (.ok bs,c')) : Numbered c c' bs := by
  induction l generalizing c bs with
  | nil =>
    rw [List.mapM_nil] at h
    obtain ⟨rfl,rfl⟩ := Compiling.pure_ok h
    exact ⟨rfl,by simp,.nil,id⟩
  | cons a l ih =>
    rw [List.mapM_cons] at h
    obtain ⟨b,d,hb,h⟩ := Compiling.bind_ok h
    obtain ⟨rest,d',hrest,h⟩ := Compiling.bind_ok h
    obtain ⟨rfl,rfl⟩ := Compiling.pure_ok h
    obtain ⟨_,_,_,hfirst,hnext,hlimit⟩ := plan_ok (animation_ok hb).2
    obtain ⟨htotal,hwithin,hapart,hbound⟩ := ih hrest
    have hgrown : d'.nextFrame = c.nextFrame + (b.plan.lastTick + 1 +
        (rest.map fun b => b.plan.lastTick + 1).sum) := by omega
    refine ⟨by simpa using hgrown,?_,List.pairwise_cons.mpr ⟨fun b' hb' => ?_,hapart⟩,
      fun _ => hbound hlimit⟩
    · rintro b' (_ | ⟨_,hb'⟩)
      · omega
      · have := hwithin b' hb'
        omega
    · have := hwithin b' hb'
      omega

end Compile

/-- What holds of every compiled entity, for its own exporter. -/
structure CompiledEntity.Lawful (e : CompiledEntity) (x : Exporter) : Prop where
  name : e.name = x.entity
  functions : e.functions = Functions.ofEntity x.space x.entity
  /-- The tag of its roots is its own. -/
  tag_free : Names.entityTag x.entity ∉ Names.reserved
  leaves_distinct : (e.leaves.map Leaf.name).Nodup
  animations_distinct : (e.animations.map fun a => a.plan.name).Nodup
  /-- The ranges of frame ids follow one another. -/
  frames_disjoint : e.animations.Pairwise fun a b =>
    a.plan.firstFrame + a.plan.lastTick < b.plan.firstFrame
  support : e.support =
    Support.programs e.functions x e.leaves (e.animations.map fun a => a.plan.name)
  animations : ∀ a ∈ e.animations, ∃ s : Skeleton Float,
    a = Frames.compile e.functions e.animations.length x s a.plan ∧
      ∀ t, (s.placedAt t Mat4.identity).map Placed.leaf = e.leaves

/-- The stages of a compilation up to its files, with the contexts between them. -/
structure Entity.Prepared (disk : FileTree) (entity : Entity) (x : Exporter) (store : TextureStore)
    (e : CompiledEntity) (c c₁ c₂ c' : Context) : Prop where
  valid : entity.rig.validate = .ok ()
  tag_free : Names.entityTag entity.rig.name ∉ Names.reserved
  exporter : x = ⟨entity.rig.name,c.options.space,c.options.item⟩
  name : e.name = x.entity
  functions : e.functions = Functions.ofEntity x.space x.entity
  reserved : Context.reserve entity.rig.name (Node.partsOf entity.rig.roots) c = (.ok (),c₁)
  leaves : Node.leaves Context.customIdFor entity.rig.roots c₁ = (.ok e.leaves,c₂)
  textures : TextureStore.load disk entity.base entity.rig.textures = .ok store
  animations : entity.rig.animations.mapM (Compile.animation e.functions x entity.rig e.leaves) c₂ =
    (.ok e.animations,c')
  support : e.support =
    Support.programs e.functions x e.leaves (e.animations.map fun a => a.plan.name)

/-- A compilation that comes to an end has gone through all stages and has made its files. -/
lemma Entity.compile_ok {disk : FileTree} {entity : Entity} {c c' : Context} {e : CompiledEntity}
    (h : entity.compile disk c = (.ok e,c')) : ∃ x store c₁ c₂,
      entity.Prepared disk x store e c c₁ c₂ c' ∧
        Compile.artifacts x store e.leaves e.programs = .ok e.artifacts := by
  unfold Entity.compile at h
  obtain ⟨_,c₁,hvalid,h⟩ := Compiling.bind_ok h
  obtain ⟨hok,rfl⟩ := Compiling.lift_ok hvalid
  simp only at h
  split at h
  · obtain ⟨_,_,hthrow,_⟩ := Compiling.bind_ok h
    exact (Compiling.throw_ok hthrow).elim
  rename_i hfree
  obtain ⟨d,c₂,hget,h⟩ := Compiling.bind_ok h
  obtain ⟨rfl,rfl⟩ := Compiling.get_ok hget
  obtain ⟨_,c₃,hreserve,h⟩ := Compiling.bind_ok h
  obtain ⟨leaves,c₄,hleaves,h⟩ := Compiling.bind_ok h
  obtain ⟨store,c₅,hload,h⟩ := Compiling.bind_ok h
  obtain ⟨hstore,rfl⟩ := Compiling.lift_ok hload
  obtain ⟨animations,c₆,hmap,h⟩ := Compiling.bind_ok h
  obtain ⟨artifacts,c₇,hmade,h⟩ := Compiling.bind_ok h
  obtain ⟨hartifacts,rfl⟩ := Compiling.lift_ok hmade
  obtain ⟨rfl,rfl⟩ := Compiling.pure_ok h
  exact ⟨_,store,c₃,c₄,⟨hok,hfree,rfl,rfl,rfl,hreserve,hleaves,hstore,hmap,rfl⟩,hartifacts⟩

namespace Entity.Prepared

variable {disk : FileTree} {entity : Entity} {x : Exporter} {store : TextureStore}
  {e : CompiledEntity} {c c₁ c₂ c' : Context}

/-- The leaves and the animations of an entity are those of its rig, by their names. -/
lemma leaves_names (h : entity.Prepared disk x store e c c₁ c₂ c') :
    e.leaves.map Leaf.name = (Node.partsOf entity.rig.roots).map Part.name :=
  Node.leaves_names h.leaves

lemma animations_made (h : entity.Prepared disk x store e c c₁ c₂ c') :
    List.Forall₂ (Compile.Made entity.rig x e.leaves) entity.rig.animations e.animations := by
  refine Compiling.mapM_ok (fun a c b c' hb => ?_) h.animations
  exact Compile.animation_made h.functions hb

lemma animations_names (h : entity.Prepared disk x store e c c₁ c₂ c') :
    e.animations.map (fun a => a.plan.name) = entity.rig.animations.map Animation.name := by
  refine Compiling.mapM_map (fun a c b c' hb => ?_) h.animations
  exact (Compile.animation_made h.functions hb).name

lemma lawful (h : entity.Prepared disk x store e c c₁ c₂ c') : e.Lawful x := by
  have hrig := Rig.wellFormed_of_validate h.valid
  have hdistinct : (e.leaves.map Leaf.name).Nodup := h.leaves_names ▸ hrig.parts_distinct
  have hlength : e.animations.length = entity.rig.animations.length := by
    simpa using congrArg List.length h.animations_names
  refine ⟨h.name,h.functions,h.exporter ▸ h.tag_free,hdistinct,
    h.animations_names ▸ hrig.animations_distinct,
    (Compile.animations_ok h.animations).apart,h.support,?_⟩
  intro b hb
  obtain ⟨a,_,hmade⟩ := exists_partner_left h.animations_made b hb
  rw [hlength,h.functions]
  exact ⟨_,hmade.compiled,fun t => Skeleton.placedAt_leaf _ _ _ _ hdistinct h.leaves_names⟩

end Entity.Prepared

theorem Entity.compile_lawful {disk : FileTree} {entity : Entity} {c c' : Context}
    {e : CompiledEntity} (h : entity.compile disk c = (.ok e,c')) :
    e.Lawful ⟨entity.rig.name,c.options.space,c.options.item⟩ := by
  obtain ⟨x,_,_,_,hp,_⟩ := compile_ok h
  exact hp.exporter ▸ hp.lawful

/-- Every tick of a compiled animation places the leaves as the rig's animation of the same name has
them at the tick's time. -/
theorem Entity.compile_samples {disk : FileTree} {entity : Entity} {c c' : Context}
    {e : CompiledEntity} (h : entity.compile disk c = (.ok e,c')) {a : CompiledAnimation}
    (ha : a ∈ e.animations) : ∃ b ∈ entity.rig.animations, b.name = a.plan.name ∧
      ∀ f ∈ a.frames, f.placed = (Skeleton.bind entity.rig.roots b.tracks e.leaves).placedAt
        (tickSeconds f.tick) Mat4.identity := by
  obtain ⟨_,_,_,_,hp,_⟩ := compile_ok h
  obtain ⟨b,hb,hmade⟩ := exists_partner_left hp.animations_made a ha
  refine ⟨b,hb,hmade.name.symm,?_⟩
  rw [hmade.compiled]
  intro f hf
  obtain ⟨t,_,rfl⟩ := List.mem_map.mp hf
  rfl

end RigPack
