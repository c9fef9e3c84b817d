import RigPack.Proofs.Session.Waiting

/-!
What each act does to a sound session: it has a result, and the session after it is sound. So every
session that acts lead to is sound.
-/

namespace RigPack
namespace Session

variable {N : Type} {space : String} {entities : List CompiledEntity} {s : Session N}
  {e : CompiledEntity} {x : Exporter} {a : CompiledAnimation} {k r : Nat}

structure Sound (entities : List CompiledEntity) (s : Session N) : Prop where
  populated : s.Populated entities
  attended : s.Attended entities []

/-- Where the schedule stays, roots need only keep their frames or come to rest. -/
lemma Attended.of_frames (hatt : s.Attended entities []) {s' : Session N}
    (hs : s'.world.schedule = s.world.schedule)
    (hr : ∀ e ∈ entities, ∀ r t', s'.LiveRoot e.name r → s'.world.stands[r]? = some t' →
      t'.scores Names.frame = some Names.dormantFrame ∨ ∃ t, s.LiveRoot e.name r ∧
        s.world.stands[r]? = some t ∧ t'.scores Names.frame = t.scores Names.frame) :
    s'.Attended entities [] where
  known g due hg := hatt.known g due (hs ▸ hg)
  waits e he r t' hl ht' _ := by
    rcases hr e he r t' hl ht' with hrest | ⟨t,hl',ht,hsame⟩
    · exact .inl hrest
    · rcases hatt.waits e he r t hl' ht List.not_mem_nil with hrest | ⟨a,ha,f,hf,hid,hsome⟩
      · exact .inl (hsame.trans hrest)
      · exact .inr ⟨a,ha,f,hf,hsame.trans hid,by rw [hs]; exact hsome⟩

/-- Where nothing is done to stands and schedule, a sound session stays sound. -/
lemma Sound.of_same (hs : s.Sound entities) {w : World N} (hg : w.registers = s.world.registers)
    (hc : w.holders = s.world.holders) (hst : w.stands = s.world.stands)
    (hsch : w.schedule = s.world.schedule) : (⟨w,s.roots⟩ : Session N).Sound entities where
  populated := hs.populated.of_stands hg (by rw [hc]) hst
  attended := by
    refine hs.attended.of_frames hsch fun e he r t' hl ht' => .inr ⟨t',?_,hst ▸ ht',rfl⟩
    unfold LiveRoot at hl ⊢
    rwa [hst] at hl

lemma Sound.spawned (h : Ensemble space entities) (hs : s.Sound entities) (he : e ∈ entities)
    (hx : e.name = x.entity) (p : Vec3 N) :
    (⟨s.world.spawned e.functions x e.leaves p,s.roots ++ [(s.world.stands.length,e.name)]⟩ :
      Session N).Sound entities := by
  refine ⟨hs.populated.spawned h he hx p,hs.attended.of_frames rfl ?_⟩
  intro d hd r t' ⟨hm,t,ht,hlive⟩ ht'
  obtain rfl : t = t' := Option.some.inj (ht.symm.trans ht')
  rcases List.mem_append.mp hm with hm | hm
  · obtain ⟨k,hk⟩ := List.mem_iff_getElem?.mp hm
    obtain ⟨u,hu,_⟩ := hs.populated.root k r d ⟨hd,hk⟩
    have hsame : (s.world.spawned e.functions x e.leaves p).stands[r]? = some u := by
      have hlt := (List.getElem?_eq_some_iff.mp hu).1
      exact (List.getElem?_append_left hlt).trans hu
    obtain rfl : t = u := Option.some.inj (ht.symm.trans hsame)
    exact .inr ⟨t,⟨hm,t,hu,hlive⟩,hu,rfl⟩
  · simp only [List.mem_singleton,Prod.mk.injEq] at hm
    obtain ⟨rfl,_⟩ := hm
    have hroot : (s.world.spawned e.functions x e.leaves p).stands[s.world.stands.length]? =
        some (.root x.entity (s.world.holders Names.instances Names.id + 1) p) :=
      World.getElem?_extend _ _
    rw [hroot,Option.some.injEq] at ht
    exact .inl (ht ▸ rfl)

lemma Sound.started (h : Ensemble space entities) (hs : s.Sound entities)
    (hk : s.Has entities k r e) (ha : a ∈ e.animations) :
    (⟨s.world.turn r (.start e.functions a.plan),s.roots⟩ : Session N).Sound entities := by
  obtain ⟨x,_,hx⟩ := h.lawful hk.1
  obtain ⟨t,ht,_⟩ := hs.populated.root k r e hk
  refine ⟨hs.populated.turn h hk _,?_⟩
  exact (hs.attended.turned hs.populated h hk (Turn.start_leads hx ha none) ht
    (w := s.world.turn r (.start e.functions a.plan)) (fun g hg => by cases hg)
    (fun r' hr' => by cases hr') rfl (fun g => rfl)
    (fun k' r' d t _ ht => by rw [World.getElem?_turn,ht]; rfl)).1

lemma Sound.requested (h : Ensemble space entities) (hs : s.Sound entities)
    (hk : s.Has entities k r e) (v : Int) :
    (⟨s.world.change [r] (·.setScore Names.next v),s.roots⟩ : Session N).Sound entities := by
  refine ⟨hs.populated.request h hk v,hs.attended.of_frames rfl ?_⟩
  intro d hd r' t' ⟨hm,t,ht,hlive⟩ ht'
  rw [World.getElem?_change,Option.map_eq_some_iff] at ht'
  obtain ⟨u,hu,rfl⟩ := ht'
  have hu' : (s.world.change [r] (·.setScore Names.next v)).stands[r']? = some t := ht
  rw [World.getElem?_change,hu,Option.map_some,Option.some.injEq] at hu'
  have hne : Names.frame ≠ Names.next := by decide
  refine .inr ⟨u,⟨hm,u,hu,?_⟩,hu,?_⟩
  · rw [← hu'] at hlive
    split at hlive <;> exact hlive
  · split
    · rw [Stand.scores_setScore,if_neg hne]
    · rfl

lemma Sound.removed (h : Ensemble space entities) (hs : s.Sound entities)
    (hk : s.Has entities k r e) (f : Functions) :
    (⟨s.world.removed f r (k + 1),s.roots⟩ : Session N).Sound entities := by
  refine ⟨hs.populated.removed h hk f,hs.attended.of_frames rfl ?_⟩
  intro d hd r' t' ⟨hm,t,ht,hlive⟩ ht'
  obtain rfl : t = t' := Option.some.inj (ht.symm.trans ht')
  have hu := (World.alive_removed ht' hlive).1
  exact .inr ⟨t,⟨hm,t,hu,hlive⟩,hu,rfl⟩

section Acts

variable [Scalar N] (number : Float → N)

lemma Sound.load_runs (h : Ensemble space entities) (hs : s.Sound entities) (he : e ∈ entities) :
    s.world.runAlone (.ofEntities number entities) e.functions.load =
      some (s.world.begin e.functions.load none) := by
  obtain ⟨x,_,hx⟩ := h.lawful he
  exact e.load_runs hx (h.loaded number he) hs.populated.registers ⟨none,.zero⟩ 3

lemma Sound.spawn_runs (h : Ensemble space entities) (hs : s.Sound entities) (he : e ∈ entities)
    (hx : e.Lawful x) (p : Vec3 N) :
    (s.world.add { position := p }).runAs (.ofEntities number entities) s.world.stands.length
      e.functions.spawn = some (s.world.spawned e.functions x e.leaves p) := by
  have hnew : (s.world.add { position := p }).stands[s.world.stands.length]? =
      some { position := p } := World.getElem?_extend _ []
  rw [World.runAs,hnew]
  exact e.spawn_runs hx (h.loaded number he) hs.populated.registers
    (hs.populated.plain h (by decide) (by decide) (by decide)) p 3

lemma Sound.start_runs (h : Ensemble space entities) (hs : s.Sound entities) (he : e ∈ entities)
    (ha : a ∈ e.animations) (hl : s.LiveRoot e.name r) :
    s.world.runAs (.ofEntities number entities) r a.entryPath =
      some (s.world.turn r (.start e.functions a.plan)) := by
  obtain ⟨x,_,hx⟩ := h.lawful he
  obtain ⟨k,t,hk,ht,hlive,_⟩ := hs.populated.of_live he hl
  rw [World.runAs,ht,hx.entryPath ha]
  exact e.entry_runs hx (h.loaded number he) ha ht hlive 3

lemma Sound.remove_runs (h : Ensemble space entities) (hs : s.Sound entities)
    (hk : s.Has entities k r e) {t : Stand N} (ht : s.world.stands[r]? = some t)
    (hlive : t.alive = true) :
    s.world.runAs (.ofEntities number entities) r e.functions.remove =
      some (s.world.removed e.functions r (k + 1)) := by
  obtain ⟨x,_,hx⟩ := h.lawful hk.1
  have hwrap : s.world.registers.wrap ((k : Int) + 1) = k + 1 := by
    rw [hs.populated.registers]
    rfl
  rw [World.runAs,ht]
  exact e.remove_runs hx (h.loaded number hk.1) (hs.populated.settled h) ht hlive
    (hs.populated.not_proxy h hk ht) (hs.populated.isRoot hk ht).id hwrap t.position 3

lemma dormant_fires (h : Ensemble space entities) (he : e ∈ entities) (w : World N) :
    w.fire (.ofEntities number entities) e.functions.dormant =
      some ((w.setSchedule e.functions.dormant none).begin e.functions.dormant none) := by
  obtain ⟨x,_,hx⟩ := h.lawful he
  exact e.dormant_runs hx (h.loaded number he) ⟨none,.zero⟩ 3

variable {number}

lemma Sound.fired (h : Ensemble space entities) (hs : s.Sound entities) {g : ResourcePath}
    (hdue : s.world.Due g) {w : World N}
    (hw : s.world.fire (.ofEntities number entities) g = some w) :
    (⟨w,s.roots⟩ : Session N).Sound entities := by
  obtain ⟨due,hg,_⟩ := hdue
  obtain ⟨e,he,rfl | ⟨a,ha,f,hf,rfl⟩⟩ := hs.attended.known g due hg
  · rw [dormant_fires number h he,Option.some.injEq] at hw
    subst w
    refine ⟨hs.populated.of_stands rfl rfl rfl,⟨?_,?_⟩⟩
    · intro g' due' hg'
      change (if g' = e.functions.dormant then none else s.world.schedule g') = some due' at hg'
      split at hg'
      · cases hg'
      · exact hs.attended.known g' due' hg'
    · intro d hd r t hl ht _
      rcases hs.attended.waits d hd r t hl ht List.not_mem_nil with
        hrest | ⟨b,hb,f,hf,hid,hsome⟩
      · exact .inl hrest
      · obtain ⟨x,_,hx⟩ := h.lawful hd
        have hne : f.dispatcherPath ≠ e.functions.dormant := by
          rw [(hx.frame hb hf).dispatcherPath]
          intro heq
          have hrole := (h.path_inj (q := .dispatcher _ _) (r := .dormant) hd he heq).2
          exact absurd hrole (by simp)
        refine .inr ⟨b,hb,f,hf,hid,?_⟩
        change (if f.dispatcherPath = e.functions.dormant then none
          else s.world.schedule f.dispatcherPath).isSome = true
        rwa [if_neg hne]
  · obtain ⟨w',_,hw',hp,hatt,_⟩ :=
      hs.populated.fire_dispatcher number h hs.attended he ha hf
    obtain rfl : w' = w := Option.some.inj (hw'.symm.trans hw)
    exact ⟨hp,hatt⟩

/-- Acts lead from sound sessions to sound ones. -/
theorem Sound.step (h : Ensemble space entities) (hs : s.Sound entities) {s' : Session N}
    (hstep : Step (.ofEntities number entities) entities s s') : s'.Sound entities := by
  cases hstep with
  | load he hw =>
    rw [hs.load_runs number h he,Option.some.injEq] at hw
    subst hw
    exact hs.of_same rfl rfl rfl rfl
  | spawn he hw =>
    obtain ⟨x,_,hx⟩ := h.lawful he
    rw [hs.spawn_runs number h he hx,Option.some.injEq] at hw
    subst hw
    exact hs.spawned h he hx.name _
  | start he hl ha hw =>
    rw [hs.start_runs number h he ha hl,Option.some.injEq] at hw
    subst hw
    obtain ⟨_,_,hk,_⟩ := hs.populated.of_live he hl
    exact hs.started h hk ha
  | request v he hl =>
    obtain ⟨_,_,hk,_⟩ := hs.populated.of_live he hl
    exact hs.requested h hk v
  | remove he hl hw =>
    obtain ⟨_,_,hk,ht,hlive,_⟩ := hs.populated.of_live he hl
    rw [hs.remove_runs number h hk ht hlive,Option.some.injEq] at hw
    subst hw
    exact hs.removed h hk _
  | fire hdue hw => exact hs.fired h hdue hw
  | pass _ => exact hs.of_same rfl rfl rfl rfl

theorem Reachable.sound (h : Ensemble space entities)
    (hr : Reachable (.ofEntities number entities) entities s) : s.Sound entities := by
  induction hr with
  | empty =>
    refine ⟨⟨rfl,rfl,?_,?_,?_,?_⟩,⟨?_,?_⟩⟩ <;> simp [Has,LiveRoot]
  | step _ hstep ih => exact ih.step h hstep

end Acts

/-- Whatever a caller or the scheduler may want to do has a result. -/
structure Responds [Scalar N] (programs : Programs N) (entities : List CompiledEntity)
    (s : Session N) : Prop where
  load : ∀ e ∈ entities, ∃ w, s.world.runAlone programs e.functions.load = some w
  spawn : ∀ e ∈ entities, ∀ position, ∃ w, (s.world.add { position }).runAs programs
    s.world.stands.length e.functions.spawn = some w
  start : ∀ e ∈ entities, ∀ r, s.LiveRoot e.name r → ∀ a ∈ e.animations,
    ∃ w, s.world.runAs programs r a.entryPath = some w
  remove : ∀ e ∈ entities, ∀ r, s.LiveRoot e.name r →
    ∃ w, s.world.runAs programs r e.functions.remove = some w
  fire : ∀ g, s.world.Due g → ∃ w, s.world.fire programs g = some w

lemma Sound.responds [Scalar N] (number : Float → N) (h : Ensemble space entities)
    (hs : s.Sound entities) : s.Responds (.ofEntities number entities) entities where
  load e he := ⟨_,hs.load_runs number h he⟩
  spawn e he p := by
    obtain ⟨x,_,hx⟩ := h.lawful he
    exact ⟨_,hs.spawn_runs number h he hx p⟩
  start e he r hl a ha := ⟨_,hs.start_runs number h he ha hl⟩
  remove e he r hl := by
    obtain ⟨_,_,hk,ht,hlive,_⟩ := hs.populated.of_live he hl
    exact ⟨_,hs.remove_runs number h hk ht hlive⟩
  fire g hdue := by
    obtain ⟨due,hg,_⟩ := hdue
    obtain ⟨e,he,rfl | ⟨a,ha,f,hf,rfl⟩⟩ := hs.attended.known g due hg
    · exact ⟨_,dormant_fires number h he s.world⟩
    · obtain ⟨w,_,hw,_⟩ := hs.populated.fire_dispatcher number h hs.attended he ha hf
      exact ⟨w,hw⟩

section Waver

/-- The first instance of an entity is spawned, and nothing is scheduled. -/
lemma waver_spawned : ∃ (e : CompiledEntity) (a : CompiledAnimation) (s : Session Float),
    Ensemble "cmdent" [e] ∧ a ∈ e.animations ∧
      Reachable (.ofEntities (fun v => v) [e]) [e] s ∧ s.LiveRoot e.name 0 ∧
      ∀ g, s.world.schedule g = none := by
  obtain ⟨e,c,hc,_,_,hplans⟩ := waver_compiles
  have h : Ensemble "cmdent" [e] := by
    refine ⟨List.nodup_singleton _,fun d hd => ?_⟩
    obtain rfl := List.mem_singleton.mp hd
    exact ⟨_,_,_,_,hc,rfl⟩
  have hx := Entity.compile_lawful hc
  obtain ⟨a,ha,_⟩ : ∃ a ∈ e.animations, a.plan = ⟨"wave",.loop,1,0⟩ := by
    have hm : (⟨"wave",.loop,1,0⟩ : Plan) ∈ e.animations.map CompiledAnimation.plan := by
      simp [hplans]
    exact List.mem_map.mp hm
  have hempty : Reachable (N := Float) (.ofEntities (fun v => v) [e]) [e] {} := .empty
  have hrun := (hempty.sound h).spawn_runs (fun v => v) h List.mem_cons_self hx .zero
  refine ⟨e,a,_,h,ha,hempty.step (.spawn List.mem_cons_self hrun),?_,fun g => rfl⟩
  exact ⟨List.mem_append_right _ List.mem_cons_self,_,World.getElem?_extend _ _,rfl⟩

end Waver

end Session
end RigPack
