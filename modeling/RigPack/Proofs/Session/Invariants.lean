import RigPack.Proofs.Session.Acts

/-!
What holds in every session. No playing instance is ever stranded, whatever the schedule's one entry
to a function goes through; and instances are kept apart, however many entities share the world.
-/

namespace RigPack

section Calls

variable {space : String} {entities : List CompiledEntity} {d e : CompiledEntity} {x : Exporter}
  {a b : CompiledAnimation} {f g : Frame}

/-- Apart from bodies, a root that runs one calls the selection and what that starts. -/
lemma CompiledEntity.turn_calls (p : Plan) (tick : Nat) (v : Int) {path : ResourcePath}
    (hp : path ∈ (e.turn p tick v).calls) :
    path = e.functions.select ∨ ∃ b ∈ e.animations, path = e.functions.entry b.plan.name := by
  unfold CompiledEntity.turn at hp
  cases hb : requested? e.animations v with
  | some b =>
    cases hs : p.successor tick <;>
      simp only [hb,hs,List.mem_cons,List.not_mem_nil,or_false] at hp <;>
      exact hp.imp_right fun heq => ⟨b,requested?_mem hb,heq⟩
  | none =>
    cases hs : p.successor tick <;> simp only [hb,hs,List.mem_singleton,List.not_mem_nil] at hp <;>
      exact .inl hp

/-- No tick's body is under the path of a program for something else. -/
lemma Ensemble.body_ne (h : Ensemble space entities) (hd : d ∈ entities) (he : e ∈ entities)
    (ha : a ∈ e.animations) (hf : f ∈ a.frames) {r : Role}
    (hr : ∀ animation tick, r ≠ .body animation tick) : d.functions.path r ≠ f.bodyPath := by
  obtain ⟨x,_,hx⟩ := h.lawful he
  rw [(hx.frame ha hf).bodyPath]
  intro heq
  exact hr _ _ (h.path_inj (r := .body _ _) hd he heq).2

end Calls

namespace Session

variable {N : Type} [Scalar N] {number : Float → N} {space : String}
  {entities : List CompiledEntity} {s : Session N} {e : CompiledEntity}

omit [Scalar N] in
/-- Who runs a tick's body while its dispatcher runs, and that no other body runs. -/
lemma filter_calls (h : Ensemble space entities) (he : e ∈ entities) {a b : CompiledAnimation}
    {f g : Frame} (ha : a ∈ e.animations) (hf : f ∈ a.frames) {d : CompiledEntity}
    (hd : d ∈ entities) (hb : b ∈ d.animations) (hg : g ∈ b.frames) (w : World N)
    (rs : List Nat) :
    (((⟨w.now,f.dispatcherPath,none⟩ : Call)::rs.flatMap (bodyCalls w e a f)).filter
      fun c => c.function = g.bodyPath) =
      if g.bodyPath = f.bodyPath then rs.map (⟨w.now,f.bodyPath,some ·⟩) else [] := by
  obtain ⟨x,_,hx⟩ := h.lawful he
  have hdispatcher : f.dispatcherPath ≠ g.bodyPath := by
    rw [(hx.frame ha hf).dispatcherPath]
    exact h.body_ne (r := .dispatcher _ _) he hd hb hg (by simp)
  have hcalls (r : Nat) : (bodyCalls w e a f r).filter (fun c => c.function = g.bodyPath) =
      if g.bodyPath = f.bodyPath then [⟨w.now,f.bodyPath,some r⟩] else [] := by
    have hrest (v : Int) :
        ((e.turn a.plan f.tick v).calls.map (⟨w.now,·,some r⟩ : ResourcePath → Call)).filter
          (fun c => c.function = g.bodyPath) = [] := by
      rw [List.filter_eq_nil_iff]
      intro c hc
      obtain ⟨path,hp,rfl⟩ := List.mem_map.mp hc
      simp only [decide_eq_true_eq]
      rcases e.turn_calls _ _ _ hp with rfl | ⟨b',_,rfl⟩
      · exact h.body_ne (r := .select) he hd hb hg (by simp)
      · exact h.body_ne (r := .entry _) he hd hb hg (by simp)
    unfold bodyCalls
    by_cases heq : g.bodyPath = f.bodyPath
    · rw [if_pos heq,List.filter_cons_of_pos (by simp [heq]),hrest]
    · rw [if_neg heq,List.filter_cons_of_neg (by simpa using Ne.symm heq),hrest]
  rw [List.filter_cons_of_neg (by simpa using hdispatcher),List.filter_flatMap]
  simp only [hcalls]
  split
  · exact List.map_eq_flatMap.symm
  · simp

/-- No playing instance is ever stranded: a living root rests, or it waits on one tick of one
animation, and the dispatcher of that tick is scheduled. A dispatcher that fires runs the body of
its tick once as each living root that waits on the tick, in no other way is a body run meanwhile,
and each of those roots then rests or waits on a tick that is still to come. -/
theorem no_root_stranded (h : Ensemble space entities)
    (hr : Reachable (.ofEntities number entities) entities s) :
    s.Responds (.ofEntities number entities) entities ∧
    (∀ e ∈ entities, ∀ r t, s.LiveRoot e.name r → s.world.stands[r]? = some t →
      t.scores Names.frame = some Names.dormantFrame ∨
      ∃ a ∈ e.animations, ∃ f ∈ a.frames, t.scores Names.frame = some (f.id : Int) ∧
        (∀ b ∈ e.animations, ∀ g ∈ b.frames, t.scores Names.frame = some (g.id : Int) →
          b = a ∧ g = f) ∧
        (s.world.schedule f.dispatcherPath).isSome) ∧
    ∀ e ∈ entities, ∀ a ∈ e.animations, ∀ f ∈ a.frames, ∀ w,
      s.world.fire (.ofEntities number entities) f.dispatcherPath = some w →
      ∃ (rs : List Nat) (new : List Call), w.calls = s.world.calls ++ new ∧ rs.Nodup ∧
        (∀ r, r ∈ rs ↔ s.LiveRoot e.name r ∧
          ∃ t, s.world.stands[r]? = some t ∧ t.scores Names.frame = some (f.id : Int)) ∧
        (∀ d ∈ entities, ∀ b ∈ d.animations, ∀ g ∈ b.frames,
          (new.filter fun c => c.function = g.bodyPath) =
            if g.bodyPath = f.bodyPath then rs.map (⟨s.world.now,f.bodyPath,some ·⟩) else []) ∧
        ∀ r ∈ rs, ∀ t, w.stands[r]? = some t → t.Ahead e w := by
  have hs := hr.sound h
  refine ⟨hs.responds number h,?_,?_⟩
  · intro e he r t hl ht
    obtain ⟨x,_,hx⟩ := h.lawful he
    rcases hs.attended.waits e he r t hl ht List.not_mem_nil with hrest | ⟨a,ha,f,hf,hid,hsome⟩
    · exact .inl hrest
    · refine .inr ⟨a,ha,f,hf,hid,fun b hb g hg hid' => ?_,hsome⟩
      have heq : g.id = f.id := by
        rw [hid,Option.some.injEq] at hid'
        omega
      exact hx.frame_id_unique hb ha hg hf heq
  · intro e he a ha f hf w hw
    obtain ⟨w',rs,hw',_,_,_,hn,hmem,hcalls,hahead⟩ :=
      hs.populated.fire_dispatcher number h hs.attended he ha hf
    obtain rfl : w' = w := Option.some.inj (hw'.symm.trans hw)
    refine ⟨rs,_,hcalls,hn,fun r => (hmem r).trans ?_,?_,hahead⟩
    · constructor
      · rintro ⟨k,t,hk,ht,hlive,hframe⟩
        exact ⟨⟨List.mem_of_getElem? hk.2,t,ht,hlive⟩,t,ht,hframe⟩
      · rintro ⟨hl,t,ht,hframe⟩
        obtain ⟨k,t',hk,ht',hlive,_⟩ := hs.populated.of_live he hl
        obtain rfl : t = t' := Option.some.inj (ht.symm.trans ht')
        exact ⟨k,t,hk,ht,hlive,hframe⟩
    · intro d hd b hb g hg
      exact filter_calls h he ha hf hd hb hg s.world rs

/-- An instance that starts waits on its first tick, and the dispatcher of that runs its body. -/
theorem waver_not_stranded : ∃ (e : CompiledEntity) (s : Session Float),
    Ensemble "cmdent" [e] ∧ Reachable (.ofEntities (fun v => v) [e]) [e] s ∧
      ∃ a ∈ e.animations, ∃ f ∈ a.frames, ∃ (w : World Float) (new : List Call),
        (s.world.schedule f.dispatcherPath).isSome ∧
        s.world.fire (.ofEntities (fun v => v) [e]) f.dispatcherPath = some w ∧
        w.calls = s.world.calls ++ new ∧ ⟨s.world.now,f.bodyPath,some 0⟩ ∈ new := by
  obtain ⟨e,a,s,h,ha,hr,hl,_⟩ := waver_spawned
  have he : e ∈ [e] := List.mem_cons_self
  have hrun := (hr.sound h).start_runs (fun v => v) h he ha hl
  have hr' := hr.step (.start he hl ha hrun)
  obtain ⟨hm,t,ht,hlive⟩ := hl
  have ht' : (s.world.turn 0 (.start e.functions a.plan)).stands[0]? =
      some (t.turned s.world.registers (.start e.functions a.plan)) := by
    rw [World.getElem?_turn,ht]
    rfl
  have hl' : (⟨s.world.turn 0 (.start e.functions a.plan),s.roots⟩ : Session Float).LiveRoot
      e.name 0 := ⟨hm,_,ht',hlive⟩
  have hframe : (t.turned s.world.registers (.start e.functions a.plan)).scores Names.frame =
      some (a.plan.frameId 0 : Int) := by
    rw [(hr.sound h).populated.registers]
    exact Stand.scores_setScore_self ..
  obtain ⟨_,hwaits,hfires⟩ := no_root_stranded h hr'
  rcases hwaits e he 0 _ hl' ht' with hrest | ⟨b,hb,f,hf,hid,_,hsome⟩
  · rw [hframe,Option.some.injEq] at hrest
    simp only [Names.dormantFrame] at hrest
    omega
  obtain ⟨w,_,hw,_⟩ := (hr'.sound h).populated.fire_dispatcher _ h (hr'.sound h).attended he hb hf
  obtain ⟨rs,new,hcalls,_,hmem,hbodies,_⟩ := hfires e he b hb f hf w hw
  refine ⟨e,_,h,hr',b,hb,f,hf,w,new,hsome,hw,hcalls,?_⟩
  have hzero : 0 ∈ rs := (hmem 0).mpr ⟨hl',_,ht',hid⟩
  have hran := hbodies e he b hb f hf
  rw [if_pos rfl] at hran
  exact List.mem_of_mem_filter (hran ▸ List.mem_map_of_mem hzero)

/-- Instances are kept apart. Roots are numbered in the order in which they were spawned, so no id
is given twice; every part of a living instance has one living proxy, and every living proxy is one
of those; a removed instance takes its own proxies with it and nothing else. -/
theorem instances_kept_apart (h : Ensemble space entities)
    (hr : Reachable (.ofEntities number entities) entities s) :
    s.Responds (.ofEntities number entities) entities ∧
    (∀ (k r : Nat) (name : String), s.roots[k]? = some (r,name) →
      ∃ t : Stand N, s.world.stands[r]? = some t ∧ t.scores Names.id = some ((k : Int) + 1)) ∧
    (∀ e ∈ entities, ∀ r, s.LiveRoot e.name r → ∃ (t : Stand N) (n : Int),
      s.world.stands[r]? = some t ∧ 1 ≤ n ∧ t.IsRoot e n ∧ t.Waits e s.world ∧
      (∀ d ∈ entities, ∀ r' t', s.LiveRoot d.name r' → s.world.stands[r']? = some t' →
        t'.scores Names.id = some n → r' = r) ∧
      ∀ l ∈ e.leaves, ∃! i : Nat, ∃ u : Stand N, s.world.stands[i]? = some u ∧
        u.isOwn n = true ∧ u.tags (Names.partTag e.name l.name) = true) ∧
    (∀ (i : Nat) (u : Stand N), s.world.stands[i]? = some u → u.isProxy = true →
      ∃ e ∈ entities, ∃ (r : Nat) (t : Stand N) (n : Int), s.LiveRoot e.name r ∧
        s.world.stands[r]? = some t ∧ t.IsRoot e n ∧ ∃ l ∈ e.leaves, u.IsProxy e l n) ∧
    (∀ t ∈ s.world.stands, t.alive = true →
      t.tags Names.active = false ∧ t.tags Names.fresh = false) ∧
    ∀ e ∈ entities, ∀ (r : Nat) (t : Stand N) (n : Int), s.LiveRoot e.name r →
      s.world.stands[r]? = some t → t.scores Names.id = some n →
      ∀ w, s.world.runAs (.ofEntities number entities) r e.functions.remove = some w →
        (∀ (i : Nat) (u : Stand N), w.stands[i]? = some u → u.alive = true →
          i ≠ r ∧ u.isOwn n = false) ∧
        ∀ (i : Nat) (u : Stand N), s.world.stands[i]? = some u → i ≠ r → u.isOwn n = false →
          w.stands[i]? = some u := by
  have hs := hr.sound h
  have hp := hs.populated
  refine ⟨hs.responds number h,?_,?_,?_,?_,?_⟩
  · intro k r name hk
    obtain ⟨e,he⟩ := hp.entity k (r,name) hk
    obtain ⟨t,ht,hroot⟩ := hp.root k r e he
    exact ⟨t,ht,hroot.id⟩
  · intro e he r hl
    obtain ⟨k,t,hk,ht,hlive,hroot⟩ := hp.of_live he hl
    refine ⟨t,k + 1,ht,by omega,hroot,hs.attended.waits e he r t hl ht List.not_mem_nil,?_,?_⟩
    · intro d hd r' t' hl' ht' hid
      obtain ⟨k',u,hk',hu,_,hroot'⟩ := hp.of_live hd hl'
      obtain rfl : t' = u := Option.some.inj (ht'.symm.trans hu)
      have heq := hroot'.id.symm.trans hid
      rw [Option.some.injEq] at heq
      obtain rfl : k' = k := by omega
      exact (hk'.unique h hk).1
    · exact fun l hl => hp.exists_unique_own h hk ht hlive hl
  · intro i u hu hproxy
    have hua : u.alive = true := by simp_all [Stand.isProxy]
    obtain ⟨k,r,e,hk,⟨_,hroot⟩ | ⟨j,l,t,hl,_,hup,ht,hlive⟩⟩ := hp.of_alive hu hua
    · have hplain := Populated.root_not_proxy h hk.1 hroot
      simp [Stand.isProxy,hplain] at hproxy
    · exact ⟨e,hk.1,r,t,k + 1,⟨List.mem_of_getElem? hk.2,t,ht,hlive⟩,ht,hp.isRoot hk ht,l,
        List.mem_of_getElem? hl,hup⟩
  · intro t ht ha
    exact ⟨hp.plain h (by decide) (by decide) (by decide) t ht ha,
      hp.plain h (by decide) (by decide) (by decide) t ht ha⟩
  · intro e he r t n hl ht hid w hw
    obtain ⟨k,t',hk,ht',hlive,hroot⟩ := hp.of_live he hl
    obtain rfl : t = t' := Option.some.inj (ht.symm.trans ht')
    obtain rfl : n = k + 1 := Option.some.inj (hid.symm.trans hroot.id)
    rw [hs.remove_runs number h hk ht hlive,Option.some.injEq] at hw
    subst hw
    exact ⟨fun i u hu ha => (World.alive_removed hu ha).2,
      fun i u hu hi ho => World.other_removed hu hi ho⟩

/-- The first instance is removed, and none of its stands lives on. -/
theorem waver_kept_apart : ∃ (e : CompiledEntity) (s : Session Float) (n : Int) (w : World Float),
    Ensemble "cmdent" [e] ∧ Reachable (.ofEntities (fun v => v) [e]) [e] s ∧
      s.LiveRoot e.name 0 ∧ 1 ≤ n ∧
      s.world.runAs (.ofEntities (fun v => v) [e]) 0 e.functions.remove = some w ∧
      ∀ (i : Nat) (u : Stand Float), w.stands[i]? = some u → u.alive = true →
        i ≠ 0 ∧ u.isOwn n = false := by
  obtain ⟨e,_,s,h,_,hr,hl,_⟩ := waver_spawned
  have he : e ∈ [e] := List.mem_cons_self
  obtain ⟨hresponds,_,hlive,_,_,hremove⟩ := instances_kept_apart h hr
  obtain ⟨t,n,ht,hn,hroot,_⟩ := hlive e he 0 hl
  obtain ⟨w,hw⟩ := hresponds.remove e he 0 hl
  exact ⟨e,s,n,w,h,hr,hl,hn,hw,(hremove e he 0 t n hl ht hroot.id w hw).1⟩

end Session

end RigPack
