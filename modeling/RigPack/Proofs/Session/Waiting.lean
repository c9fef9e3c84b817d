import RigPack.Proofs.Session.Population

/-!
Who waits for what. A living root rests, or it waits on one tick and that tick's dispatcher is
scheduled. While a dispatcher runs, the roots that it has found are excused until they have run the
body.
-/

namespace RigPack

namespace CompiledEntity.Lawful

variable {e : CompiledEntity} {x : Exporter} {a b : CompiledAnimation} {f g : Frame}

/-- A frame id belongs to one tick of one animation. -/
theorem frame_id_unique (h : e.Lawful x) (ha : a ∈ e.animations) (hb : b ∈ e.animations)
    (hf : f ∈ a.frames) (hg : g ∈ b.frames) (hid : f.id = g.id) : a = b ∧ f = g := by
  have hfl := h.frame ha hf
  have hgl := h.frame hb hg
  have hfid : f.id = a.plan.firstFrame + f.tick := hfl.id
  have hgid : g.id = b.plan.firstFrame + g.tick := hgl.id
  have hft := hfl.tick_le
  have hgt := hgl.tick_le
  obtain ⟨i,hi,rfl⟩ := List.getElem_of_mem ha
  obtain ⟨j,hj,rfl⟩ := List.getElem_of_mem hb
  have hpair := List.pairwise_iff_getElem.mp h.frames_disjoint
  rcases Nat.lt_trichotomy i j with hij | rfl | hij
  · have := hpair i j hi hj hij
    omega
  · exact ⟨rfl,h.frame_unique ha hf hg (by omega)⟩
  · have := hpair j i hj hi hij
    omega

end CompiledEntity.Lawful

/-- Where a turn leads to: to rest, or to a tick whose dispatcher is then scheduled. A root that
gets no other frame stays on the one that it has. -/
structure Turn.Leads (t : Turn) (e : CompiledEntity) (f : Option Frame) : Prop where
  delay : 0 < t.delay
  goal : (t.frame = some Names.dormantFrame ∧ t.function = e.functions.dormant) ∨
    ∃ b ∈ e.animations, ∃ g ∈ b.frames, t.function = g.dispatcherPath ∧
      (t.frame = some (g.id : Int) ∨ (t.frame = none ∧ f = some g))

section Leads

variable {e : CompiledEntity} {x : Exporter} {a : CompiledAnimation} {f : Frame}

lemma Turn.start_leads (h : e.Lawful x) (ha : a ∈ e.animations) (f : Option Frame) :
    (Turn.start e.functions a.plan).Leads e f := by
  obtain ⟨g,hg,htick⟩ := h.exists_frame ha (Nat.zero_le _)
  have hl := h.frame ha hg
  refine ⟨Nat.one_pos,.inr ⟨a,ha,g,hg,?_,.inl ?_⟩⟩
  · rw [hl.dispatcherPath,htick]
    rfl
  · rw [hl.id,htick]
    rfl

/-- After a body a root rests or waits on a tick that there is. -/
lemma CompiledEntity.turn_leads (h : e.Lawful x) (ha : a ∈ e.animations) (hf : f ∈ a.frames)
    (v : Int) : (e.turn a.plan f.tick v).Leads e (some f) := by
  have hl := h.frame ha hf
  have hframe (t : Nat) (ht : t ≤ a.plan.lastTick) : ∃ g ∈ a.frames,
      e.functions.dispatcher a.plan.name t = g.dispatcherPath ∧ a.plan.frameId t = g.id := by
    obtain ⟨g,hg,htick⟩ := h.exists_frame ha ht
    have hgl := h.frame ha hg
    exact ⟨g,hg,by rw [hgl.dispatcherPath,htick],by rw [hgl.id,htick]⟩
  have hstart (b : CompiledAnimation) (hb : requested? e.animations v = some b)
      (calls : List ResourcePath) : (⟨true,some (b.plan.frameId 0),
        e.functions.dispatcher b.plan.name 0,Frames.entryDelay,calls⟩ : Turn).Leads e (some f) := by
    have hs := Turn.start_leads h (requested?_mem hb) (some f)
    exact ⟨hs.delay,hs.goal⟩
  unfold CompiledEntity.turn Plan.successor
  by_cases hlast : f.tick < a.plan.lastTick
  · rw [if_pos hlast]
    obtain ⟨g,hg,hpath,hid⟩ := hframe (f.tick + 1) hlast
    refine ⟨?_,.inr ⟨a,ha,g,hg,hpath,.inl ?_⟩⟩
    · dsimp only
      split <;> decide
    · rw [← hid]
      rfl
  · rw [if_neg hlast]
    cases hb : requested? e.animations v with
    | some b => cases a.plan.policy <;> exact hstart b hb _
    | none =>
      cases a.plan.policy with
      | once => exact ⟨Nat.one_pos,.inl ⟨rfl,rfl⟩⟩
      | hold => exact ⟨Nat.one_pos,.inr ⟨a,ha,f,hf,hl.dispatcherPath.symm,.inr ⟨rfl,rfl⟩⟩⟩
      | loop =>
        obtain ⟨g,hg,hpath,hid⟩ := hframe 0 (Nat.zero_le _)
        exact ⟨Nat.one_pos,.inr ⟨a,ha,g,hg,hpath,.inl (by rw [← hid])⟩⟩

end Leads

section Waits

variable {N : Type} {w w' : World N} {t : Stand N} {e : CompiledEntity}

/-- A root rests, or the tick on which it waits is scheduled. -/
def Stand.Waits (t : Stand N) (e : CompiledEntity) (w : World N) : Prop :=
  t.scores Names.frame = some Names.dormantFrame ∨ ∃ a ∈ e.animations, ∃ f ∈ a.frames,
    t.scores Names.frame = some (f.id : Int) ∧ (w.schedule f.dispatcherPath).isSome

/-- A root rests, or the tick on which it waits is still to come. -/
def Stand.Ahead (t : Stand N) (e : CompiledEntity) (w : World N) : Prop :=
  t.scores Names.frame = some Names.dormantFrame ∨ ∃ a ∈ e.animations, ∃ f ∈ a.frames,
    t.scores Names.frame = some (f.id : Int) ∧
      ∃ due, w.schedule f.dispatcherPath = some due ∧ w.now < due

lemma Stand.Ahead.waits (h : t.Ahead e w) : t.Waits e w := by
  rcases h with h | ⟨a,ha,f,hf,hid,due,hdue,_⟩
  · exact .inl h
  · exact .inr ⟨a,ha,f,hf,hid,by rw [hdue]; rfl⟩

/-- In the same tick nothing leaves the schedule, and what enters it is still to come. -/
structure World.Later (w w' : World N) : Prop where
  now : w'.now = w.now
  schedule : ∀ g due, w.schedule g = some due →
    ∃ due', w'.schedule g = some due' ∧ (due' = due ∨ w.now < due')

lemma World.Later.refl (w : World N) : w.Later w := ⟨rfl,fun _ due h => ⟨due,h,.inl rfl⟩⟩

lemma World.Later.trans {u : World N} (h : w.Later w') (h' : w'.Later u) : w.Later u := by
  refine ⟨h'.now.trans h.now,fun g due hg => ?_⟩
  obtain ⟨due',hdue',hor⟩ := h.schedule g due hg
  obtain ⟨due'',hdue'',hor'⟩ := h'.schedule g due' hdue'
  refine ⟨due'',hdue'',?_⟩
  rcases hor' with rfl | hlt
  · exact hor
  · exact .inr (h.now ▸ hlt)

lemma Stand.Waits.later (h : t.Waits e w) (hw : w.Later w') : t.Waits e w' := by
  rcases h with h | ⟨a,ha,f,hf,hid,hsome⟩
  · exact .inl h
  · obtain ⟨due,hdue⟩ := Option.isSome_iff_exists.mp hsome
    obtain ⟨due',hdue',_⟩ := hw.schedule _ due hdue
    exact .inr ⟨a,ha,f,hf,hid,by rw [hdue']; rfl⟩

lemma Stand.Ahead.later (h : t.Ahead e w) (hw : w.Later w') : t.Ahead e w' := by
  rcases h with h | ⟨a,ha,f,hf,hid,due,hdue,hlt⟩
  · exact .inl h
  · obtain ⟨due',hdue',hor⟩ := hw.schedule _ due hdue
    refine .inr ⟨a,ha,f,hf,hid,due',hdue',?_⟩
    rw [hw.now]
    rcases hor with rfl | hlt'
    · exact hlt
    · exact hlt'

lemma World.later_of_schedule {g : ResourcePath} {delay : Nat} (hd : 0 < delay)
    (hn : w'.now = w.now)
    (hs : ∀ f, w'.schedule f = if f = g then some (w.now + delay) else w.schedule f) :
    w.Later w' := by
  refine ⟨hn,fun f due hf => ?_⟩
  rw [hs]
  by_cases hfg : f = g
  · exact ⟨w.now + delay,if_pos hfg,.inr (by omega)⟩
  · exact ⟨due,by rw [if_neg hfg,hf],.inl rfl⟩

/-- A root that has taken a turn is ahead. -/
lemma Stand.turned_ahead {u : Turn} {f : Option Frame} (hu : u.Leads e f)
    (hf : ∀ g, f = some g → t.scores Names.frame = some (g.id : Int))
    (hs : w'.schedule u.function = some (w'.now + u.delay)) :
    (t.turned .unbounded u).Ahead e w' := by
  have hframe (v : Int) (hv : u.frame = some v) :
      (t.turned .unbounded u).scores Names.frame = some v := by
    simp only [turned,hv,Registers.wrap,scores_setScore_self]
  have hsame (hv : u.frame = none) :
      (t.turned .unbounded u).scores Names.frame = t.scores Names.frame := by
    have hne : Names.frame ≠ Names.next ∧ Names.frame ≠ Names.pending := by decide
    simp only [turned,hv]
    split
    · simp [taken,scores_setScore,hne]
    · rfl
  have hdelay := hu.delay
  rcases hu.goal with ⟨hrest,_⟩ | ⟨b,hb,g,hg,hgoal,hrest | ⟨hnone,hfg⟩⟩
  · exact .inl (hframe _ hrest)
  · exact .inr ⟨b,hb,g,hg,hframe _ hrest,_,hgoal ▸ hs,by omega⟩
  · exact .inr ⟨b,hb,g,hg,(hsame hnone).trans (hf g hfg),_,hgoal ▸ hs,by omega⟩

end Waits

namespace Session

variable {N : Type} {space : String} {entities : List CompiledEntity} {s : Session N}
  {e : CompiledEntity} {k r : Nat}

/-- What may be scheduled. -/
def Known (entities : List CompiledEntity) (g : ResourcePath) : Prop :=
  ∃ e ∈ entities, g = e.functions.dormant ∨
    ∃ a ∈ e.animations, ∃ f ∈ a.frames, g = f.dispatcherPath

/-- No root is stranded, but perhaps for some that are excused. -/
structure Attended (entities : List CompiledEntity) (excused : List Nat) (s : Session N) :
    Prop where
  known : ∀ g due, s.world.schedule g = some due → Known entities g
  waits : ∀ e ∈ entities, ∀ r t, s.LiveRoot e.name r → s.world.stands[r]? = some t →
    r ∉ excused → t.Waits e s.world

lemma Known.of_leads (he : e ∈ entities) {u : Turn} {f : Option Frame} (hu : u.Leads e f) :
    Known entities u.function := by
  rcases hu.goal with ⟨_,hg⟩ | ⟨b,hb,g,hg,hgoal,_⟩
  · exact ⟨e,he,.inl hg⟩
  · exact ⟨e,he,.inr ⟨b,hb,g,hg,hgoal⟩⟩

/-- Where a root takes a turn, nothing but its own stand and the schedule counts. -/
lemma Attended.turned {excused excused' : List Nat} (hp : s.Populated entities)
    (h : Ensemble space entities) (hatt : s.Attended entities excused)
    (hk : s.Has entities k r e) {u : Turn} {f : Option Frame} (hu : u.Leads e f) {t : Stand N}
    (ht : s.world.stands[r]? = some t)
    (hf : ∀ g, f = some g → t.scores Names.frame = some (g.id : Int))
    (hex : ∀ r' ∈ excused, r' = r ∨ r' ∈ excused') {w : World N} (hn : w.now = s.world.now)
    (hs : ∀ g, w.schedule g = if g = u.function then some (s.world.now + u.delay)
      else s.world.schedule g)
    (hroots : ∀ k' r' d t, s.Has entities k' r' d → s.world.stands[r']? = some t →
      w.stands[r']? = some (if r' = r then t.turned s.world.registers u else t)) :
    (⟨w,s.roots⟩ : Session N).Attended entities excused' ∧ s.world.Later w ∧
      (t.turned .unbounded u).Ahead e w := by
  have hahead : (t.turned .unbounded u).Ahead e w :=
    Stand.turned_ahead hu hf (by rw [hs,if_pos rfl,hn])
  have hlater : s.world.Later w := World.later_of_schedule hu.delay hn hs
  refine ⟨⟨?_,?_⟩,hlater,hahead⟩
  · intro g due hg
    rw [hs] at hg
    split at hg
    · rename_i heq
      exact heq ▸ .of_leads hk.1 hu
    · exact hatt.known g due hg
  · intro d hd r' t₁ hl ht₁ hnot
    obtain ⟨hm,_,hst,hlive⟩ := hl
    obtain ⟨k',hk'⟩ := List.mem_iff_getElem?.mp hm
    obtain ⟨t',ht',_⟩ := hp.root k' r' d ⟨hd,hk'⟩
    have hroot := hroots k' r' d t' ⟨hd,hk'⟩ ht'
    rw [ht₁,Option.some.injEq] at hroot
    obtain rfl := hroot
    by_cases hr : r' = r
    · subst r'
      obtain rfl : t = t' := by simpa [ht] using ht'
      obtain rfl := hp.number_unique hk ⟨hd,hk'⟩
      obtain ⟨_,rfl⟩ := hk.unique h ⟨hd,hk'⟩
      rw [if_pos rfl,hp.registers]
      exact hahead.waits
    · rw [if_neg hr] at ht₁ ⊢
      have hlive' : t'.alive = true := by
        obtain rfl := Option.some.inj (ht₁.symm.trans hst)
        exact hlive
      have hwait := hatt.waits d hd r' t' ⟨hm,t',ht',hlive'⟩ ht'
        fun hin => (hex r' hin).elim hr hnot
      exact hwait.later hlater

section Firing

variable [Scalar N] (number : Float → N) {x : Exporter} {a : CompiledAnimation} {f : Frame}

/-- A body has a result wherever a living root of the entity runs it. -/
lemma Populated.body_runs (h : Ensemble space entities) (hp : s.Populated entities)
    (hx : e.Lawful x) (ha : a ∈ e.animations) (hf : f ∈ a.frames) (hk : s.Has entities k r e)
    {t : Stand N} (ht : s.world.stands[r]? = some t) (hlive : t.alive = true) (p : Vec3 N)
    (depth : Nat) :
    World.call (.ofEntities number entities) (depth+3) f.bodyPath ⟨some r,p⟩ s.world =
      some (s.world.played number x r p (k + 1) f
        (e.turn a.plan f.tick (t.score Names.next))) := by
  have hwrap (v : Int) : s.world.registers.wrap v = v := by rw [hp.registers]; rfl
  have hone : ∀ l ∈ e.leaves, ∀ (i j : Nat) (t u : Stand N), s.world.stands[i]? = some t →
      s.world.stands[j]? = some u → t.isOwn (k + 1) = true → t.tags (x.tag l) = true →
      u.isOwn (k + 1) = true → u.tags (x.tag l) = true → i = j := by
    intro l hl i j t u ht hu hto htt huo hut
    have htag : x.tag l = Names.partTag e.name l.name := by rw [hx.name]; rfl
    rw [htag] at htt hut
    exact own_unique h hp hk hl ht hu hto htt huo hut
  have hruns := e.body_runs hx (h.loaded number hk.1) ha hf (hp.settled h) ht hlive
    (hp.not_proxy h hk ht) (hp.isRoot hk ht).id (hwrap _) hone (p := p) depth
  rwa [hwrap] at hruns

/-- What a root that runs a body calls, the body included. -/
def bodyCalls (w : World N) (e : CompiledEntity) (a : CompiledAnimation) (f : Frame) (r : Nat) :
    List Call :=
  let next := (w.stands[r]?.map (·.score Names.next)).getD 0
  ⟨w.now,f.bodyPath,some r⟩::(e.turn a.plan f.tick next).calls.map (⟨w.now,·,some r⟩)

/-- Bodies run as one waiting root after another, and each has then moved on. The induction is on
the roots that are still excused. -/
lemma bodies_run (h : Ensemble space entities) (hx : e.Lawful x)
    (ha : a ∈ e.animations) (hf : f ∈ a.frames) (q : Nat → Point N)
    (hq : ∀ i, (q i).executor = some i) {rs : List Nat}
    (hp : s.Populated entities) (hatt : s.Attended entities rs) (hn : rs.Nodup)
    (hrs : ∀ r ∈ rs, ∃ k t, s.Has entities k r e ∧ s.world.stands[r]? = some t ∧
      t.alive = true ∧ t.scores Names.frame = some (f.id : Int)) :
    ∃ w, rs.foldlM (fun u i =>
        World.call (.ofEntities number entities) 3 f.bodyPath (q i) u) s.world = some w ∧
      (⟨w,s.roots⟩ : Session N).Populated entities ∧
      (⟨w,s.roots⟩ : Session N).Attended entities [] ∧ s.world.Later w ∧
      w.calls = s.world.calls ++ rs.flatMap (bodyCalls s.world e a f) ∧
      (∀ r ∈ rs, ∀ t, w.stands[r]? = some t → t.Ahead e w) ∧
      ∀ k r d, s.Has entities k r d → r ∉ rs → w.stands[r]? = s.world.stands[r]? := by
  induction rs generalizing s with
  | nil => exact ⟨s.world,rfl,hp,hatt,.refl _,by simp,by simp,fun _ _ _ _ _ => rfl⟩
  | cons r rs ih =>
    obtain ⟨hr,hn⟩ := List.nodup_cons.mp hn
    obtain ⟨k,t,hk,ht,hlive,hframe⟩ := hrs r List.mem_cons_self
    let u := e.turn a.plan f.tick (t.score Names.next)
    let v := s.world.played number x r (q r).position (k + 1) f u
    have hv : World.call (.ofEntities number entities) 3 f.bodyPath (q r) s.world = some v := by
      have hpoint : q r = ⟨some r,(q r).position⟩ := by rw [← hq r]
      rw [hpoint]
      exact hp.body_runs number h hx ha hf hk ht hlive (q r).position 0
    have hroots (k' r' : Nat) (d : CompiledEntity) (t : Stand N) (hk' : s.Has entities k' r' d)
        (ht : s.world.stands[r']? = some t) :
        v.stands[r']? = some (if r' = r then t.turned s.world.registers u else t) :=
      hp.root_played h hk' ht ..
    have hexcused : ∀ r' ∈ r::rs, r' = r ∨ r' ∈ rs := fun r' hr' => List.mem_cons.mp hr'
    obtain ⟨hatt',hlater,hahead⟩ := hatt.turned hp h hk (e.turn_leads hx ha hf _) ht
      (fun g hg => by cases hg; exact hframe) hexcused (w := v) rfl (fun g => rfl) hroots
    have hp' : (⟨v,s.roots⟩ : Session N).Populated entities := hp.played h hk ..
    have hsame (k' r' : Nat) (d : CompiledEntity) (hk' : s.Has entities k' r' d) (hne : r' ≠ r) :
        v.stands[r']? = s.world.stands[r']? := by
      obtain ⟨t,ht,_⟩ := hp.root k' r' d hk'
      rw [hroots k' r' d t hk' ht,if_neg hne,ht]
    have hne : ∀ r' ∈ rs, r' ≠ r := fun r' hr' heq => hr (heq ▸ hr')
    have hrs' : ∀ r' ∈ rs, ∃ k t, (⟨v,s.roots⟩ : Session N).Has entities k r' e ∧
        v.stands[r']? = some t ∧ t.alive = true ∧ t.scores Names.frame = some (f.id : Int) := by
      intro r' hr'
      obtain ⟨k',t',hk',ht',hlive',hframe'⟩ := hrs r' (List.mem_cons_of_mem _ hr')
      exact ⟨k',t',hk',(hsame k' r' e hk' (hne r' hr')).trans ht',hlive',hframe'⟩
    obtain ⟨w,hw,hp'',hatt'',hlater',hcalls,haheads,hother⟩ := ih hp' hatt' hn hrs'
    refine ⟨w,?_,hp'',hatt'',hlater.trans hlater',?_,?_,?_⟩
    · rw [List.foldlM_cons,hv]
      exact hw
    · have hv' : v.calls = s.world.calls ++ bodyCalls s.world e a f r := by
        rw [World.calls_played,bodyCalls,ht]
        rfl
      have hrest : rs.flatMap (bodyCalls v e a f) = rs.flatMap (bodyCalls s.world e a f) := by
        refine List.flatMap_congr fun r' hr' => ?_
        obtain ⟨k',_,hk',_⟩ := hrs r' (List.mem_cons_of_mem _ hr')
        unfold bodyCalls
        rw [hsame k' r' e hk' (hne r' hr')]
        rfl
      rw [hcalls,hv',hrest,List.flatMap_cons,List.append_assoc]
    · intro r' hr' t' ht'
      rcases List.mem_cons.mp hr' with rfl | hr'
      · rw [hother k r' e hk hr,hroots k r' e t hk ht,if_pos rfl,Option.some.injEq,
          hp.registers] at ht'
        exact ht' ▸ hahead.later hlater'
      · exact haheads r' hr' t' ht'
    · intro k' r' d hk' hnot
      have hne' : r' ≠ r := fun heq => hnot (heq ▸ List.mem_cons_self)
      have hnot' : r' ∉ rs := fun hr' => hnot (List.mem_cons_of_mem _ hr')
      rw [hother k' r' d hk' hnot',hsame k' r' d hk' hne']

omit [Scalar N] in
/-- A dispatcher finds the living roots of its entity that wait on its tick. -/
lemma Populated.mem_waiting (h : Ensemble space entities) (hp : s.Populated entities)
    (hx : e.Lawful x) (he : e ∈ entities) (ha : a ∈ e.animations) (hf : f ∈ a.frames) :
    r ∈ s.world.selected (Frames.waiting x.entity a.plan f.tick) ↔
      ∃ k t, s.Has entities k r e ∧ s.world.stands[r]? = some t ∧ t.alive = true ∧
        t.scores Names.frame = some (f.id : Int) := by
  have hid : f.id = a.plan.frameId f.tick := (hx.frame ha hf).id
  have hadmits (t : Stand N) : (Frames.waiting x.entity a.plan f.tick).admits t = true ↔
      t.alive = true ∧ t.tags (Names.entityTag e.name) = true ∧
        t.scores Names.frame = some (f.id : Int) := by
    rw [hid,hx.name]
    simp only [Selector.admits,Frames.waiting,Stand.meets,List.all_cons,List.all_nil,Bool.and_true,
      Bool.and_eq_true,Option.any_eq_true,ScoreRange.contains,decide_eq_true_eq,and_assoc]
    simp
  rw [World.mem_selected rfl]
  constructor
  · rintro ⟨t,ht,hat⟩
    obtain ⟨hlive,htag,hframe⟩ := (hadmits t).mp hat
    obtain ⟨k,r',d,hk,⟨rfl,hroot⟩ | ⟨_,_,_,_,_,hproxy,_⟩⟩ := hp.of_alive ht hlive
    · obtain rfl : d = e := by
        have hname := Names.entityTag_injective ((hroot.tags _).mp htag)
        exact h.eq_of_name hk.1 he hname.symm
      exact ⟨k,t,hk,ht,hlive,hframe⟩
    · rw [hproxy.no_score (by decide)] at hframe
      cases hframe
  · rintro ⟨k,t,hk,ht,hlive,hframe⟩
    exact ⟨t,ht,(hadmits t).mpr ⟨hlive,((hp.isRoot hk ht).tags _).mpr rfl,hframe⟩⟩

/-- A dispatcher that is taken off the schedule runs its body once as each living root that waits
on its tick, and as nobody else; afterwards no root is stranded. -/
theorem Populated.fire_dispatcher (h : Ensemble space entities) (hp : s.Populated entities)
    (hatt : s.Attended entities []) (he : e ∈ entities) (ha : a ∈ e.animations)
    (hf : f ∈ a.frames) :
    ∃ (w : World N) (rs : List Nat),
      s.world.fire (.ofEntities number entities) f.dispatcherPath = some w ∧
      (⟨w,s.roots⟩ : Session N).Populated entities ∧
      (⟨w,s.roots⟩ : Session N).Attended entities [] ∧ w.now = s.world.now ∧
      rs.Nodup ∧
      (∀ r, r ∈ rs ↔ ∃ k t, s.Has entities k r e ∧ s.world.stands[r]? = some t ∧
        t.alive = true ∧ t.scores Names.frame = some (f.id : Int)) ∧
      w.calls = s.world.calls ++ ⟨s.world.now,f.dispatcherPath,none⟩::
        rs.flatMap (bodyCalls s.world e a f) ∧
      ∀ r ∈ rs, ∀ t, w.stands[r]? = some t → t.Ahead e w := by
  obtain ⟨x,_,hx⟩ := h.lawful he
  let v : World N := (s.world.setSchedule f.dispatcherPath none).begin f.dispatcherPath none
  let rs := v.selected (Frames.waiting x.entity a.plan f.tick)
  have hv : (⟨v,s.roots⟩ : Session N).Populated entities := hp.of_stands rfl rfl rfl
  have hmem (r : Nat) : r ∈ rs ↔ ∃ k t, s.Has entities k r e ∧ s.world.stands[r]? = some t ∧
      t.alive = true ∧ t.scores Names.frame = some (f.id : Int) :=
    mem_waiting (s := ⟨v,s.roots⟩) h hv hx he ha hf
  -- Whoever waits on this tick is found, and the others wait on other entries.
  have hatt' : (⟨v,s.roots⟩ : Session N).Attended entities rs := by
    refine ⟨?_,?_⟩
    · intro g due hg
      change (if g = f.dispatcherPath then none else s.world.schedule g) = some due at hg
      split at hg
      · cases hg
      · exact hatt.known g due hg
    · intro d hd r t hl ht hnot
      rcases hatt.waits d hd r t hl ht List.not_mem_nil with hrest | ⟨b,hb,g,hg,hid,hsome⟩
      · exact .inl hrest
      · refine .inr ⟨b,hb,g,hg,hid,?_⟩
        change (if g.dispatcherPath = f.dispatcherPath then none
          else s.world.schedule g.dispatcherPath).isSome = true
        rw [if_neg]
        · exact hsome
        · intro heq
          obtain ⟨rfl,rfl,rfl⟩ := h.dispatcher_inj hd he hb hg ha hf heq
          obtain ⟨k,t',hk,ht',hlive,_⟩ := hp.of_live hd hl
          obtain rfl : t = t' := Option.some.inj (ht.symm.trans ht')
          exact hnot ((hmem r).mpr ⟨k,t,hk,ht,hlive,hid⟩)
  have hrun := e.dispatcher_runs hx (h.loaded number he) ha hf (w := s.world.setSchedule
    f.dispatcherPath none) ⟨none,.zero⟩ 3
  have hpoint (i : Nat) : (v.pointOf ⟨none,.zero⟩ i).executor = some i := by
    unfold World.pointOf
    split <;> rfl
  obtain ⟨w,hw,hp',hatt'',hlater,hcalls,hahead,_⟩ := bodies_run number h hx ha hf _ hpoint hv hatt'
    (World.selected_nodup rfl) fun r hr => (hmem r).mp hr
  refine ⟨w,rs,hrun.trans hw,hp',hatt'',hlater.now,World.selected_nodup rfl,hmem,?_,hahead⟩
  rw [hcalls]
  exact List.append_assoc ..

end Firing

end Session

end RigPack
