import Mathlib
import RigPack.Proofs.Pack.Compiled
import RigPack.World.Session

/-!
Which program stands under which path. The paths of an entity's programs are told apart by what the
programs are for, so entities with names of their own can be loaded into one world.
-/

namespace RigPack

/-- What a program of an entity is for. -/
inductive Role
  | load
  | spawn
  | remove
  | select
  | dormant
  | entry (animation : String)
  | dispatcher (animation : String) (tick : Nat)
  | body (animation : String) (tick : Nat)
  deriving DecidableEq, Repr

/-- The path of a program below its entity. -/
def Role.segments : Role → List String
  | load => ["load"]
  | spawn => ["spawn"]
  | remove => ["remove"]
  | select => ["select"]
  | dormant => ["dormant"]
  | entry animation => ["animations",animation,"start"]
  | dispatcher animation tick => ["animations",animation,"frames",toString tick ++ "_"]
  | body animation tick => ["animations",animation,"frames",toString tick]

/-- The number of a tick never looks like the name of a dispatcher. -/
lemma repr_ne_append_mark (m n : Nat) : m.repr ≠ n.repr ++ "_" := by
  intro h
  have h : Nat.toDigits 10 m = Nat.toDigits 10 n ++ ['_'] := by
    rw [← Nat.toList_repr,← Nat.toList_repr,h]
    simp
  exact Nat.underscore_not_in_toDigits (h ▸ by simp : '_' ∈ Nat.toDigits 10 m)

lemma Role.segments_injective : Function.Injective Role.segments := by
  intro r q h
  cases r <;> cases q <;> simp [segments] at h ⊢
  case entry.entry => exact h
  case dispatcher.dispatcher => exact h
  case body.body => exact h
  case dispatcher.body => exact repr_ne_append_mark _ _ h.2.symm
  case body.dispatcher => exact repr_ne_append_mark _ _ h.2

namespace Functions

/-- The path of the program for a role. -/
def path (f : Functions) : Role → ResourcePath
  | .load => f.load
  | .spawn => f.spawn
  | .remove => f.remove
  | .select => f.select
  | .dormant => f.dormant
  | .entry animation => f.entry animation
  | .dispatcher animation tick => f.dispatcher animation tick
  | .body animation tick => f.body animation tick

lemma segments_path (space entity : String) (r : Role) :
    ((ofEntity space entity).path r).segments = entity::r.segments := by
  cases r <;> rfl

/-- A path tells the entity and the role of its program. -/
theorem path_inj {space entity other : String} {r q : Role} :
    (ofEntity space entity).path r = (ofEntity space other).path q ↔ entity = other ∧ r = q := by
  constructor
  · intro h
    have hs := congrArg ResourcePath.segments h
    rw [segments_path,segments_path,List.cons.injEq] at hs
    exact ⟨hs.1,Role.segments_injective hs.2⟩
  · rintro ⟨rfl,rfl⟩
    rfl

end Functions

namespace CompiledEntity

/-- The programs of an entity by their roles. -/
inductive Plays (e : CompiledEntity) (x : Exporter) : Role → Program → Prop
  | load : Plays e x .load Support.load
  | spawn : Plays e x .spawn (Support.spawn x e.leaves)
  | remove : Plays e x .remove Support.remove
  | select : Plays e x .select
      (Support.select e.functions (e.animations.map fun a => a.plan.name))
  | dormant : Plays e x .dormant Support.dormant
  | entry {a} : a ∈ e.animations →
      Plays e x (.entry a.plan.name) (Frames.entry e.functions a.plan)
  | dispatcher {a f} : a ∈ e.animations → f ∈ a.frames →
      Plays e x (.dispatcher a.plan.name f.tick)
        (Frames.dispatcher x.entity e.functions a.plan f.tick)
  | body {a f} : a ∈ e.animations → f ∈ a.frames →
      Plays e x (.body a.plan.name f.tick)
        (Frames.body e.functions e.animations.length x a.plan f.tick f.placed)

/-- What holds of every tick of a lawful entity. -/
structure FrameLaw (e : CompiledEntity) (x : Exporter) (a : CompiledAnimation) (f : Frame) :
    Prop where
  tick_le : f.tick ≤ a.plan.lastTick
  id : f.id = a.plan.frameId f.tick
  dispatcherPath : f.dispatcherPath = e.functions.dispatcher a.plan.name f.tick
  dispatcher : f.dispatcher = Frames.dispatcher x.entity e.functions a.plan f.tick
  bodyPath : f.bodyPath = e.functions.body a.plan.name f.tick
  body : f.body = Frames.body e.functions e.animations.length x a.plan f.tick f.placed
  /-- Every leaf is placed once. -/
  placed : f.placed.map Placed.leaf = e.leaves

namespace Lawful

variable {e : CompiledEntity} {x : Exporter} {a b : CompiledAnimation} {f g : Frame}

lemma entryPath (h : e.Lawful x) (ha : a ∈ e.animations) :
    a.entryPath = e.functions.entry a.plan.name := by
  obtain ⟨s,hs,_⟩ := h.animations a ha
  rw [hs]
  rfl

lemma entry (h : e.Lawful x) (ha : a ∈ e.animations) :
    a.entry = Frames.entry e.functions a.plan := by
  obtain ⟨s,hs,_⟩ := h.animations a ha
  rw [hs]
  rfl

lemma frame (h : e.Lawful x) (ha : a ∈ e.animations) (hf : f ∈ a.frames) : e.FrameLaw x a f := by
  obtain ⟨s,hs,hplaced⟩ := h.animations a ha
  have hf' : f ∈ (List.range (a.plan.lastTick+1)).map
      (Frames.frame e.functions e.animations.length x s a.plan) := by
    rw [hs] at hf
    exact hf
  obtain ⟨t,ht,rfl⟩ := List.mem_map.mp hf'
  rw [List.mem_range] at ht
  exact ⟨Nat.lt_succ_iff.mp ht,rfl,rfl,rfl,rfl,rfl,hplaced _⟩

/-- The frames of an animation are its ticks in their order. -/
lemma frames_tick (h : e.Lawful x) (ha : a ∈ e.animations) :
    a.frames.map Frame.tick = List.range (a.plan.lastTick+1) := by
  obtain ⟨s,hs,_⟩ := h.animations a ha
  rw [hs]
  exact Frames.compile_ticks _ _ _ _ _

lemma length_frames (h : e.Lawful x) (ha : a ∈ e.animations) :
    a.frames.length = a.plan.lastTick + 1 := by
  have hticks := congrArg List.length (h.frames_tick ha)
  rwa [List.length_map,List.length_range] at hticks

/-- The frames of an animation are in the order of their ticks. -/
lemma tick_eq (h : e.Lawful x) (ha : a ∈ e.animations) {i : Nat}
    (hf : a.frames[i]? = some f) :
    f.tick = i := by
  have hlt := (List.getElem?_eq_some_iff.mp hf).1
  have htick : (a.frames.map Frame.tick)[i]? = some f.tick := by rw [List.getElem?_map,hf]; rfl
  rw [h.frames_tick ha,List.getElem?_range (h.length_frames ha ▸ hlt)] at htick
  exact (Option.some.inj htick).symm

lemma exists_tick (h : e.Lawful x) (ha : a ∈ e.animations) {i : Nat}
    (hi : i ≤ a.plan.lastTick) :
    ∃ f, a.frames[i]? = some f := by
  have hlt : i < a.frames.length := by
    rw [h.length_frames ha]
    omega
  exact ⟨_,List.getElem?_eq_getElem hlt⟩

lemma exists_frame (h : e.Lawful x) (ha : a ∈ e.animations) {t : Nat} (ht : t ≤ a.plan.lastTick) :
    ∃ f ∈ a.frames, f.tick = t := by
  have hm : t ∈ a.frames.map Frame.tick := by
    rw [h.frames_tick ha]
    exact List.mem_range.mpr (Nat.lt_succ_of_le ht)
  exact List.mem_map.mp hm

lemma frame_unique (h : e.Lawful x) (ha : a ∈ e.animations) (hf : f ∈ a.frames)
    (hg : g ∈ a.frames) (ht : f.tick = g.tick) : f = g :=
  List.inj_on_of_nodup_map (by rw [h.frames_tick ha]; exact List.nodup_range) hf hg ht

lemma animation_unique (h : e.Lawful x) (ha : a ∈ e.animations) (hb : b ∈ e.animations)
    (hn : a.plan.name = b.plan.name) : a = b :=
  List.inj_on_of_nodup_map h.animations_distinct ha hb hn

/-- The programs of an entity, each under the path of its role. -/
lemma mem_programs (h : e.Lawful x) {path : ResourcePath} {p : Program} :
    (path,p) ∈ e.programs ↔ ∃ r, path = e.functions.path r ∧ e.Plays x r p := by
  rw [CompiledEntity.programs,List.mem_append,List.mem_flatMap,h.support]
  constructor
  · rintro (⟨a,ha,hp⟩ | hp)
    · rw [CompiledAnimation.programs,List.mem_cons,List.mem_flatMap] at hp
      rcases hp with hp | ⟨f,hf,hp⟩
      · cases hp
        exact ⟨.entry a.plan.name,h.entryPath ha,h.entry ha ▸ .entry ha⟩
      · have hl := h.frame ha hf
        simp only [List.mem_cons,Prod.mk.injEq,List.not_mem_nil,or_false] at hp
        rcases hp with ⟨rfl,rfl⟩ | ⟨rfl,rfl⟩
        · exact ⟨.dispatcher a.plan.name f.tick,hl.dispatcherPath,
            hl.dispatcher ▸ .dispatcher ha hf⟩
        · exact ⟨.body a.plan.name f.tick,hl.bodyPath,hl.body ▸ .body ha hf⟩
    · simp only [Support.programs,List.mem_cons,Prod.mk.injEq,List.not_mem_nil,or_false] at hp
      rcases hp with ⟨rfl,rfl⟩ | ⟨rfl,rfl⟩ | ⟨rfl,rfl⟩ | ⟨rfl,rfl⟩ | ⟨rfl,rfl⟩
      · exact ⟨.load,rfl,.load⟩
      · exact ⟨.spawn,rfl,.spawn⟩
      · exact ⟨.remove,rfl,.remove⟩
      · exact ⟨.select,rfl,.select⟩
      · exact ⟨.dormant,rfl,.dormant⟩
  · rintro ⟨r,rfl,hr⟩
    cases hr with
    | @entry a ha =>
      refine .inl ⟨a,ha,?_⟩
      rw [CompiledAnimation.programs,h.entryPath ha,h.entry ha]
      exact List.mem_cons_self
    | @dispatcher a f ha hf =>
      have hl := h.frame ha hf
      refine .inl ⟨a,ha,List.mem_cons_of_mem _ (List.mem_flatMap.mpr ⟨f,hf,?_⟩)⟩
      rw [hl.dispatcherPath,hl.dispatcher]
      exact List.mem_cons_self
    | @body a f ha hf =>
      have hl := h.frame ha hf
      refine .inl ⟨a,ha,List.mem_cons_of_mem _ (List.mem_flatMap.mpr ⟨f,hf,?_⟩)⟩
      rw [hl.bodyPath,hl.body]
      exact List.mem_cons_of_mem _ List.mem_cons_self
    | _ => exact .inr (by simp [Support.programs,Functions.path])

/-- A path is that of one role. -/
lemma path_injective (h : e.Lawful x) : Function.Injective e.functions.path := by
  intro r q hpath
  rw [h.functions] at hpath
  exact (Functions.path_inj.mp hpath).2

/-- A role has one program. -/
lemma plays_unique (h : e.Lawful x) {r : Role} {p q : Program} (hp : e.Plays x r p)
    (hq : e.Plays x r q) : p = q := by
  cases hp with
  | @entry a ha =>
    generalize hr : Role.entry a.plan.name = r at hq
    cases hq <;> simp only [Role.entry.injEq,reduceCtorEq] at hr
    case entry b hb => rw [h.animation_unique ha hb hr]
  | @dispatcher a f ha hf =>
    generalize hr : Role.dispatcher a.plan.name f.tick = r at hq
    cases hq <;> simp only [Role.dispatcher.injEq,reduceCtorEq] at hr
    case dispatcher b g hb hg => rw [h.animation_unique ha hb hr.1,hr.2]
  | @body a f ha hf =>
    generalize hr : Role.body a.plan.name f.tick = r at hq
    cases hq <;> simp only [Role.body.injEq,reduceCtorEq] at hr
    case body b g hb hg =>
      obtain rfl := h.animation_unique ha hb hr.1
      rw [h.frame_unique ha hf hg hr.2]
  | _ => cases hq; rfl

end Lawful

/-- The programs of an entity are to be found under their paths. -/
def LoadedIn {N : Type} (e : CompiledEntity) (number : Float → N) (programs : Programs N) : Prop :=
  ∀ path p, (path,p) ∈ e.programs → programs path = some (p.map (Directive.map number))

lemma LoadedIn.program {N : Type} {e : CompiledEntity} {x : Exporter} {number : Float → N}
    {programs : Programs N} (h : e.LoadedIn number programs) (hx : e.Lawful x) {r : Role}
    {p : Program} (hp : e.Plays x r p) :
    programs (e.functions.path r) = some (p.map (Directive.map number)) :=
  h _ _ (hx.mem_programs.mpr ⟨r,rfl,hp⟩)

end CompiledEntity

/-- Entities of one namespace with names of their own are loaded together. -/
theorem Programs.ofEntities_loaded {N : Type} (number : Float → N) {space : String}
    {entities : List CompiledEntity} (hn : (entities.map CompiledEntity.name).Nodup)
    (hl : ∀ e ∈ entities, ∃ x : Exporter, x.space = space ∧ e.Lawful x) {e : CompiledEntity}
    (he : e ∈ entities) : e.LoadedIn number (ofEntities number entities) := by
  intro path p hp
  have hu : ∀ q, (path,q) ∈ entities.flatMap CompiledEntity.programs → q = p := by
    intro q hq
    obtain ⟨d,hd,hq⟩ := List.mem_flatMap.mp hq
    obtain ⟨x,hx,hex⟩ := hl e he
    obtain ⟨y,hy,hdy⟩ := hl d hd
    obtain ⟨r,hr,hplays⟩ := hex.mem_programs.mp hp
    obtain ⟨_,hd',_⟩ := hdy.mem_programs.mp hq
    rw [hr,hex.functions,hdy.functions,hx,hy] at hd'
    obtain rfl : e = d := List.inj_on_of_nodup_map hn he hd
      (by rw [hex.name,hdy.name,(Functions.path_inj.mp hd').1])
    obtain ⟨r',hr',hplays'⟩ := hex.mem_programs.mp hq
    rw [hr,hex.functions] at hr'
    obtain ⟨_,rfl⟩ := Functions.path_inj.mp hr'
    exact hex.plays_unique hplays' hplays
  rw [ofEntities,lookup_eq_some (List.mem_flatMap.mpr ⟨e,he,hp⟩) hu]
  rfl

end RigPack
