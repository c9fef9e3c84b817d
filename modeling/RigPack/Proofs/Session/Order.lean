import RigPack.Proofs.Session.Acts

/-!
A dispatcher visits the roots that wait on its tick one after another. The bodies that they run
write to the same registers and to the same schedule, and yet the order of the visits does not
matter.
-/

namespace RigPack

namespace World

variable {N : Type}

/-- Worlds that no program and no caller can tell apart: they differ at most in the id that was
compared last and in the order of the calls so far. -/
structure Alike (w w' : World N) : Prop where
  registers : w'.registers = w.registers
  stands : w'.stands = w.stands
  schedule : w'.schedule = w.schedule
  now : w'.now = w.now
  holders : ∀ holder objective, ¬(holder = Names.compared ∧ objective = Names.id) →
    w'.holders holder objective = w.holders holder objective
  calls : w'.calls.Perm w.calls

namespace Alike

variable {u v w : World N}

lemma refl (w : World N) : w.Alike w :=
  ⟨rfl,rfl,rfl,rfl,fun _ _ _ => rfl,.refl _⟩

lemma trans (h : u.Alike v) (h' : v.Alike w) : u.Alike w where
  registers := h'.registers.trans h.registers
  stands := h'.stands.trans h.stands
  schedule := h'.schedule.trans h.schedule
  now := h'.now.trans h.now
  holders _ _ hne := (h'.holders _ _ hne).trans (h.holders _ _ hne)
  calls := h'.calls.trans h.calls

lemma played [Scalar N] (h : u.Alike v) (number : Float → N) (x : Exporter) (r : Nat)
    (p : Vec3 N) (id : Int) (f : Frame) (t : Turn) :
    (u.played number x r p id f t).Alike (v.played number x r p id f t) where
  registers := h.registers
  stands := by
    apply List.ext_getElem?
    intro i
    rw [getElem?_played,getElem?_played,h.stands,h.registers]
  schedule := by
    funext g
    rw [schedule_played,schedule_played,h.schedule,h.now]
  now := h.now
  holders _ _ hne := by
    rw [holders_played _ _ _ _ _ _ _ _ hne,holders_played _ _ _ _ _ _ _ _ hne,
      h.holders _ _ hne]
  calls := by
    rw [calls_played,calls_played,h.now]
    exact h.calls.append_right _

end Alike

/-- Runs a function as and at one stand after another. -/
def runAsEach [Scalar N] (w : World N) (programs : Programs N) (function : ResourcePath)
    (places : List Nat) : Option (World N) :=
  places.foldlM (fun w i => w.runAs programs i function) w

lemma runAsEach_cons [Scalar N] {w v : World N} {programs : Programs N} {function : ResourcePath}
    {i : Nat} (h : w.runAs programs i function = some v) (places : List Nat) :
    w.runAsEach programs function (i::places) = v.runAsEach programs function places := by
  rw [runAsEach,List.foldlM_cons,h]
  rfl

end World

/-- Posing a proxy does not make it another instance's. -/
lemma Stand.isOwn_posed {N : Type} [Scalar N] (s : Stand N) (number : Float → N) (x : Exporter)
    (p : Vec3 N) (placed : List (Placed Float)) (id : Int) :
    ((s.posed number x p placed).setTag Names.unposed false).isOwn id = s.isOwn id := by
  have hne : Names.proxy ≠ Names.unposed := by decide
  simp [isOwn,isProxy,tags_setTag,hne]

lemma Stand.isOwn_inj {N : Type} (s : Stand N) {m n : Int} (hm : s.isOwn m = true)
    (hn : s.isOwn n = true) : m = n := by
  simp only [isOwn,Bool.and_eq_true,decide_eq_true_eq] at hm hn
  exact Option.some.inj (hm.2.symm.trans hn.2)

/-- How long the next tick is waited for does not depend on what was asked for. -/
lemma CompiledEntity.turn_delay (e : CompiledEntity) (p : Plan) (tick : Nat) (v v' : Int) :
    (e.turn p tick v).delay = (e.turn p tick v').delay := by
  unfold CompiledEntity.turn
  cases p.successor tick <;> cases requested? e.animations v <;>
    cases requested? e.animations v' <;> rfl

namespace Session

variable {N : Type} [Scalar N] {number : Float → N} {space : String}
  {entities : List CompiledEntity} {s : Session N} {e : CompiledEntity} {x : Exporter}
  {a : CompiledAnimation} {f : Frame}

/-- A living root of an entity. -/
def Living (s : Session N) (entities : List CompiledEntity) (e : CompiledEntity) (r : Nat) : Prop :=
  ∃ k t, s.Has entities k r e ∧ s.world.stands[r]? = some t ∧ t.alive = true

namespace Populated

variable {k k' r r' : Nat} {t t' : Stand N}

omit [Scalar N] in
/-- A turn changes neither whose stand it is nor where it stands. -/
lemma turned_own (h : Ensemble space entities) (hp : s.Populated entities)
    (hk : s.Has entities k r e) (ht : s.world.stands[r]? = some t) (g : Registers) (u : Turn)
    (id : Int) : (t.turned g u).isOwn id = false := by
  obtain ⟨_,htags,_⟩ := t.turned_eq g u
  exact Stand.isOwn_of_plain _ (htags ▸ hp.not_proxy h hk ht) id

/-- Two roots run a body, and each stand ends as if they had done so in the other order: a stand is
one of the two roots, a proxy of one of them, or neither. -/
lemma stands_played_comm (h : Ensemble space entities) (hp : s.Populated entities)
    (hk : s.Has entities k r e) (ht : s.world.stands[r]? = some t)
    (hk' : s.Has entities k' r' e) (ht' : s.world.stands[r']? = some t') (hne : r ≠ r')
    (p p' : Vec3 N) (u u' : Turn) :
    ((s.world.played number x r p (k + 1) f u).played number x r' p' (k' + 1) f u').stands =
      ((s.world.played number x r' p' (k' + 1) f u').played number x r p (k + 1) f u).stands := by
  have hkk : k ≠ k' := by
    rintro rfl
    exact hne (hk.unique h hk').1
  have hroot (n : Nat) : t.isOwn (n + 1) = false := hp.not_own h hk ht _
  have hroot' (n : Nat) : t'.isOwn (n + 1) = false := hp.not_own h hk' ht' _
  have hturned (n : Nat) : (t.turned s.world.registers u).isOwn (n + 1) = false :=
    hp.turned_own h hk ht ..
  have hturned' (n : Nat) : (t'.turned s.world.registers u').isOwn (n + 1) = false :=
    hp.turned_own h hk' ht' ..
  have hg (r : Nat) (p : Vec3 N) (id : Int) (u : Turn) :
      (s.world.played number x r p id f u).registers = s.world.registers := rfl
  apply List.ext_getElem?
  intro i
  simp only [World.getElem?_played,hg]
  cases hi : s.world.stands[i]? with
  | none => rfl
  | some v =>
    by_cases hir : i = r
    · subst i
      obtain rfl : t = v := Option.some.inj (ht.symm.trans hi)
      simp [hroot,hturned,hne]
    · by_cases hir' : i = r'
      · subst i
        obtain rfl : t' = v := Option.some.inj (ht'.symm.trans hi)
        simp [hroot',hturned',hne.symm]
      · have hone : v.isOwn (k + 1) = true → v.isOwn (k' + 1) = false := by
          intro ho
          refine Bool.eq_false_iff.mpr fun ho' => hkk ?_
          have heq := v.isOwn_inj ho ho'
          omega
        cases ho : v.isOwn (k + 1) with
        | true => simp [hir,hir',ho,hone ho,Stand.isOwn_posed]
        | false => cases ho' : v.isOwn (k' + 1) <;> simp [hir,hir',ho,ho',Stand.isOwn_posed]

variable (number) in
/-- Two visits in either order. Both schedule for the same time, be it the same function or not. -/
lemma played_comm (h : Ensemble space entities) (hp : s.Populated entities)
    (hk : s.Has entities k r e) (ht : s.world.stands[r]? = some t)
    (hk' : s.Has entities k' r' e) (ht' : s.world.stands[r']? = some t') (hne : r ≠ r')
    (p p' : Vec3 N) {u u' : Turn} (hd : u.delay = u'.delay) :
    ((s.world.played number x r p (k + 1) f u).played number x r' p' (k' + 1) f u').Alike
      ((s.world.played number x r' p' (k' + 1) f u').played number x r p (k + 1) f u) where
  registers := rfl
  stands := (hp.stands_played_comm h hk ht hk' ht' hne p p' u u').symm
  schedule := by
    funext g
    simp only [World.schedule_played]
    have hnow (r : Nat) (p : Vec3 N) (id : Int) (u : Turn) :
        (s.world.played number x r p id f u).now = s.world.now := rfl
    rw [hnow,hnow,hd]
    split <;> split <;> rfl
  now := rfl
  holders _ _ hne := by
    simp only [World.holders_played _ _ _ _ _ _ _ _ hne]
  calls := by
    simp only [World.calls_played,List.append_assoc]
    exact List.perm_append_comm.append_left _

variable (number) in
/-- A visit, as the body of a tick makes it of a root. -/
lemma visit (h : Ensemble space entities) (hp : s.Populated entities) (hx : e.Lawful x)
    (ha : a ∈ e.animations) (hf : f ∈ a.frames) (hk : s.Has entities k r e)
    (ht : s.world.stands[r]? = some t) (hlive : t.alive = true) :
    s.world.runAs (.ofEntities number entities) r f.bodyPath =
      some (s.world.played number x r t.position (k + 1) f
        (e.turn a.plan f.tick (t.score Names.next))) := by
  rw [World.runAs,ht]
  exact hp.body_runs number h hx ha hf hk ht hlive t.position 1

/-- Who lives lives on when a root runs a body. -/
lemma living_played (h : Ensemble space entities) (hp : s.Populated entities) {r' : Nat}
    (hl : s.Living entities e r') (p : Vec3 N) (n : Int) (u : Turn) :
    (⟨s.world.played number x r p n f u,s.roots⟩ : Session N).Living entities e r' := by
  obtain ⟨k,t,hk,ht,hlive⟩ := hl
  refine ⟨k,_,hk,hp.root_played h hk ht number x p n f u,?_⟩
  split
  · exact (t.turned_eq _ u).1.trans hlive
  · exact hlive

/-- Visits of living roots have a result, the same wherever nobody can tell the worlds apart. -/
lemma runAsEach_alike (h : Ensemble space entities) (hp : s.Populated entities) (hx : e.Lawful x)
    (ha : a ∈ e.animations) (hf : f ∈ a.frames) {rs : List Nat}
    (hrs : ∀ r ∈ rs, s.Living entities e r) {w : World N} (hw : s.world.Alike w) :
    ∃ u u', s.world.runAsEach (.ofEntities number entities) f.bodyPath rs = some u ∧
      w.runAsEach (.ofEntities number entities) f.bodyPath rs = some u' ∧ u.Alike u' := by
  induction rs generalizing s w with
  | nil => exact ⟨s.world,w,rfl,rfl,hw⟩
  | cons r rs ih =>
    obtain ⟨k,t,hk,ht,hlive⟩ := hrs r List.mem_cons_self
    have hp' : (⟨w,s.roots⟩ : Session N).Populated entities :=
      hp.of_stands hw.registers (hw.holders _ _ (by decide)) hw.stands
    have ht' : w.stands[r]? = some t := hw.stands ▸ ht
    have hvisit := hp.visit number h hx ha hf hk ht hlive
    have hvisit' := hp'.visit number h hx ha hf hk ht' hlive
    rw [World.runAsEach_cons hvisit,World.runAsEach_cons hvisit']
    exact ih (hp.played h hk ..)
      (fun r' hr' => hp.living_played h (hrs r' (List.mem_cons_of_mem _ hr')) ..)
      (hw.played ..)

/-- A visit is the same whether or not another root was visited just before. -/
lemma runAsEach_two (h : Ensemble space entities) (hp : s.Populated entities) (hx : e.Lawful x)
    (ha : a ∈ e.animations) (hf : f ∈ a.frames) (hk : s.Has entities k r e)
    (ht : s.world.stands[r]? = some t) (hlive : t.alive = true) (hk' : s.Has entities k' r' e)
    (ht' : s.world.stands[r']? = some t') (hlive' : t'.alive = true) (hne : r ≠ r')
    (rs : List Nat) :
    s.world.runAsEach (.ofEntities number entities) f.bodyPath (r::r'::rs) =
      ((s.world.played number x r t.position (k + 1) f
        (e.turn a.plan f.tick (t.score Names.next))).played number x r' t'.position (k' + 1) f
          (e.turn a.plan f.tick (t'.score Names.next))).runAsEach (.ofEntities number entities)
            f.bodyPath rs := by
  have hsame := hp.root_played h hk' ht' number x t.position (k + 1) f
    (e.turn a.plan f.tick (t.score Names.next)) (r := r)
  rw [if_neg hne.symm] at hsame
  rw [World.runAsEach_cons (hp.visit number h hx ha hf hk ht hlive),
    World.runAsEach_cons ((hp.played h hk ..).visit number h hx ha hf hk' hsame hlive')]

/-- Visits of the same living roots in two orders. -/
lemma runAsEach_perm (h : Ensemble space entities) (hp : s.Populated entities) (hx : e.Lawful x)
    (ha : a ∈ e.animations) (hf : f ∈ a.frames) {rs rs' : List Nat} (hperm : rs.Perm rs')
    (hrs : ∀ r ∈ rs, s.Living entities e r) :
    ∃ u u', s.world.runAsEach (.ofEntities number entities) f.bodyPath rs = some u ∧
      s.world.runAsEach (.ofEntities number entities) f.bodyPath rs' = some u' ∧ u.Alike u' := by
  induction hperm generalizing s with
  | nil => exact ⟨s.world,s.world,rfl,rfl,.refl _⟩
  | cons r _ ih =>
    obtain ⟨k,t,hk,ht,hlive⟩ := hrs r List.mem_cons_self
    have hvisit := hp.visit number h hx ha hf hk ht hlive
    rw [World.runAsEach_cons hvisit,World.runAsEach_cons hvisit]
    exact ih (hp.played h hk ..)
      fun r' hr' => hp.living_played h (hrs r' (List.mem_cons_of_mem _ hr')) ..
  | swap r r' rs =>
    by_cases hne : r' = r
    · subst hne
      exact hp.runAsEach_alike h hx ha hf hrs (.refl _)
    obtain ⟨k,t,hk,ht,hlive⟩ := hrs r (List.mem_cons_of_mem _ List.mem_cons_self)
    obtain ⟨k',t',hk',ht',hlive'⟩ := hrs r' List.mem_cons_self
    rw [hp.runAsEach_two h hx ha hf hk' ht' hlive' hk ht hlive hne,
      hp.runAsEach_two h hx ha hf hk ht hlive hk' ht' hlive' (Ne.symm hne)]
    have hcomm := hp.played_comm number (x := x) (f := f) h hk' ht' hk ht hne
      t'.position t.position (e.turn_delay a.plan f.tick (t'.score Names.next)
        (t.score Names.next))
    refine ((hp.played h hk' ..).played h hk ..).runAsEach_alike h hx ha hf (fun i hi => ?_) hcomm
    have hl := hrs i (List.mem_cons_of_mem _ (List.mem_cons_of_mem _ hi))
    exact (hp.played h hk' ..).living_played h (hp.living_played h hl ..) ..
  | trans hperm _ ih ih' =>
    obtain ⟨u,v,hu,hv,huv⟩ := ih hp hrs
    obtain ⟨v',w,hv',hw,hvw⟩ := ih' hp fun r hr => hrs r (hperm.mem_iff.mpr hr)
    obtain rfl : v = v' := Option.some.inj (hv.symm.trans hv')
    exact ⟨u,w,hu,hw,huv.trans hvw⟩

/-- A dispatcher knows beforehand where it will visit whom, and roots do not move meanwhile. -/
lemma foldlM_call_eq_runAsEach (h : Ensemble space entities) (hp : s.Populated entities)
    (hx : e.Lawful x) (ha : a ∈ e.animations) (hf : f ∈ a.frames) {q : Nat → Point N}
    {rs : List Nat} (hrs : ∀ r ∈ rs, s.Living entities e r)
    (hq : ∀ r ∈ rs, ∀ t, s.world.stands[r]? = some t → q r = ⟨some r,t.position⟩) :
    rs.foldlM (fun w r => World.call (.ofEntities number entities) 3 f.bodyPath (q r) w) s.world =
      s.world.runAsEach (.ofEntities number entities) f.bodyPath rs := by
  induction rs generalizing s with
  | nil => rfl
  | cons r rs ih =>
    obtain ⟨k,t,hk,ht,hlive⟩ := hrs r List.mem_cons_self
    have hcall := hp.body_runs number h hx ha hf hk ht hlive t.position 0
    rw [← hq r List.mem_cons_self t ht] at hcall
    rw [World.runAsEach_cons (hp.visit number h hx ha hf hk ht hlive),List.foldlM_cons,hcall]
    refine ih (hp.played h hk ..)
      (fun r' hr' => hp.living_played h (hrs r' (List.mem_cons_of_mem _ hr')) ..) ?_
    intro r' hr' t' ht'
    obtain ⟨k',u,hk',hu,_⟩ := hrs r' (List.mem_cons_of_mem _ hr')
    have hsame := hp.root_played h hk' hu number x t.position (k + 1) f
      (e.turn a.plan f.tick (t.score Names.next)) (r := r)
    rw [hq r' (List.mem_cons_of_mem _ hr') u hu]
    obtain rfl := Option.some.inj (hsame.symm.trans ht')
    split
    · rw [(u.turned_eq _ _).2.2.1]
    · rfl

end Populated

/-- A dispatcher runs the body of its tick as and at each living root that waits on the tick, and
in whatever order it visits them, the world that it leaves is the same. The dispatcher may have been
called or taken off the schedule. -/
theorem visits_commute (h : Ensemble space entities)
    (hr : Reachable (.ofEntities number entities) entities s) (he : e ∈ entities)
    (ha : a ∈ e.animations) (hf : f ∈ a.frames) {w : World N}
    (hw : w = s.world ∨ w = s.world.setSchedule f.dispatcherPath none) :
    let v := w.begin f.dispatcherPath none
    let waiting := v.selected (Frames.waiting e.name a.plan f.tick)
    (∀ r, r ∈ waiting ↔ s.LiveRoot e.name r ∧
      ∃ t, s.world.stands[r]? = some t ∧ t.scores Names.frame = some (f.id : Int)) ∧
    w.runAlone (.ofEntities number entities) f.dispatcherPath =
      v.runAsEach (.ofEntities number entities) f.bodyPath waiting ∧
    ∀ rs rs', rs.Perm waiting → rs'.Perm waiting →
      ∃ u u', v.runAsEach (.ofEntities number entities) f.bodyPath rs = some u ∧
        v.runAsEach (.ofEntities number entities) f.bodyPath rs' = some u' ∧ u.Alike u' := by
  intro v waiting
  obtain ⟨x,_,hx⟩ := h.lawful he
  have hp := (hr.sound h).populated
  have hstands : v.stands = s.world.stands := by rcases hw with rfl | rfl <;> rfl
  have hv : (⟨v,s.roots⟩ : Session N).Populated entities := by
    rcases hw with rfl | rfl <;> exact hp.of_stands rfl rfl rfl
  have hwaiting : waiting = v.selected (Frames.waiting x.entity a.plan f.tick) := by
    rw [← hx.name]
  have hmem (r : Nat) : r ∈ waiting ↔ ∃ k t, s.Has entities k r e ∧ v.stands[r]? = some t ∧
      t.alive = true ∧ t.scores Names.frame = some (f.id : Int) := by
    rw [hwaiting]
    exact Populated.mem_waiting (s := ⟨v,s.roots⟩) h hv hx he ha hf
  have hliving : ∀ r ∈ waiting, (⟨v,s.roots⟩ : Session N).Living entities e r := by
    intro r hr
    obtain ⟨k,t,hk,ht,hlive,_⟩ := (hmem r).mp hr
    exact ⟨k,t,hk,ht,hlive⟩
  refine ⟨fun r => (hmem r).trans ?_,?_,fun rs rs' hrs hrs' => ?_⟩
  · rw [hstands]
    constructor
    · rintro ⟨k,t,hk,ht,hlive,hframe⟩
      exact ⟨⟨List.mem_of_getElem? hk.2,t,ht,hlive⟩,t,ht,hframe⟩
    · rintro ⟨hl,t,ht,hframe⟩
      obtain ⟨k,t',hk,ht',hlive,_⟩ := hp.of_live he hl
      obtain rfl : t = t' := Option.some.inj (ht.symm.trans ht')
      exact ⟨k,t,hk,ht,hlive,hframe⟩
  · have hrun := e.dispatcher_runs hx (h.loaded number he) ha hf (w := w) ⟨none,.zero⟩ 3
    refine hrun.trans ?_
    rw [← hwaiting]
    refine hv.foldlM_call_eq_runAsEach h hx ha hf hliving fun r _ t ht => ?_
    have ht' : v.stands[r]? = some t := ht
    change v.pointOf ⟨none,.zero⟩ r = _
    rw [World.pointOf,ht']
  · exact hv.runAsEach_perm h hx ha hf (hrs.trans hrs'.symm)
      fun r hr => hliving r (hrs.mem_iff.mp hr)

section Waver

/-- A started root waits on the first tick, and other roots stay as they are. -/
lemma waver_started {e : CompiledEntity} {a : CompiledAnimation} {s : Session Float} {r : Nat}
    (h : Ensemble "cmdent" [e]) (ha : a ∈ e.animations)
    (hr : Reachable (.ofEntities (fun v => v) [e]) [e] s) (hl : s.LiveRoot e.name r) :
    ∃ t : Session Float, Reachable (.ofEntities (fun v => v) [e]) [e] t ∧ t.LiveRoot e.name r ∧
      (∃ u, t.world.stands[r]? = some u ∧
        u.scores Names.frame = some (a.plan.frameId 0 : Int)) ∧
      t.roots = s.roots ∧ ∀ i, i ≠ r → t.world.stands[i]? = s.world.stands[i]? := by
  have he : e ∈ [e] := List.mem_cons_self
  have hs := hr.sound h
  have hrun := hs.start_runs (fun v => v) h he ha hl
  obtain ⟨hm,t,ht,hlive⟩ := hl
  have ht' : (s.world.turn r (.start e.functions a.plan)).stands[r]? =
      some (t.turned s.world.registers (.start e.functions a.plan)) := by
    rw [World.getElem?_turn,ht]
    simp
  refine ⟨_,hr.step (.start he ⟨hm,t,ht,hlive⟩ ha hrun),⟨hm,_,ht',hlive⟩,⟨_,ht',?_⟩,rfl,
    fun i hi => ?_⟩
  · rw [hs.populated.registers]
    exact Stand.scores_setScore_self ..
  · rw [World.getElem?_turn]
    simp [hi]

/-- Two instances wait on one tick. -/
lemma wavers_wait : ∃ (e : CompiledEntity) (a : CompiledAnimation) (f : Frame) (s : Session Float)
    (r : Nat), Ensemble "cmdent" [e] ∧ a ∈ e.animations ∧ f ∈ a.frames ∧
      Reachable (.ofEntities (fun v => v) [e]) [e] s ∧ r ≠ 0 ∧ ∀ i, i = 0 ∨ i = r →
        s.LiveRoot e.name i ∧
          ∃ t, s.world.stands[i]? = some t ∧ t.scores Names.frame = some (f.id : Int) := by
  obtain ⟨e,a,s,h,ha,hr,hl,_⟩ := waver_spawned
  have he : e ∈ [e] := List.mem_cons_self
  obtain ⟨x,_,hx⟩ := h.lawful he
  obtain ⟨f,hf,htick⟩ := hx.exists_frame ha (Nat.zero_le _)
  have hid : f.id = a.plan.frameId 0 := htick ▸ (hx.frame ha hf).id
  -- A second instance is spawned behind the first.
  have hrun := (hr.sound h).spawn_runs (fun v => v) h he hx .zero
  have hr₁ := hr.step (.spawn he hrun)
  obtain ⟨hm,t,ht,hlive⟩ := hl
  have hlt := (List.getElem?_eq_some_iff.mp ht).1
  have ht₁ : (s.world.spawned e.functions x e.leaves .zero).stands[0]? = some t :=
    (List.getElem?_append_left hlt).trans ht
  have hnew := World.getElem?_extend (w := s.world) (.root x.entity
    (s.world.holders Names.instances Names.id + 1) .zero : Stand Float)
    (e.leaves.map (.proxy x (s.world.holders Names.instances Names.id + 1) .zero))
  -- Both are started.
  obtain ⟨s₂,hr₂,⟨hm₂,hlive₂⟩,hwaits₂,hroots₂,hother₂⟩ :=
    waver_started h ha hr₁ (r := 0) ⟨List.mem_append_left _ hm,t,ht₁,hlive⟩
  have hr' : s.world.stands.length ≠ 0 := by omega
  obtain ⟨s₃,hr₃,hl₃,ht₃,hroots₃,hother₃⟩ := waver_started h ha hr₂ (r := s.world.stands.length)
    ⟨hroots₂ ▸ List.mem_append_right _ List.mem_cons_self,_,(hother₂ _ hr').trans hnew,rfl⟩
  refine ⟨e,a,f,s₃,s.world.stands.length,h,ha,hf,hr₃,hr',?_⟩
  rw [hid]
  rintro i (rfl | rfl)
  · have hsame : s₃.world.stands[0]? = s₂.world.stands[0]? := hother₃ 0 (Ne.symm hr')
    refine ⟨⟨hroots₃ ▸ hm₂,?_⟩,?_⟩
    · rwa [hsame]
    · rwa [hsame]
  · exact ⟨hl₃,ht₃⟩

/-- Two instances that wait on one tick are visited, and the order of the visits may be turned
around. -/
theorem wavers_commute : ∃ (e : CompiledEntity) (a : CompiledAnimation) (f : Frame)
    (s : Session Float) (r : Nat) (waiting : List Nat) (u u' : World Float),
    Ensemble "cmdent" [e] ∧ a ∈ e.animations ∧ f ∈ a.frames ∧
      Reachable (.ofEntities (fun v => v) [e]) [e] s ∧ r ≠ 0 ∧ 0 ∈ waiting ∧ r ∈ waiting ∧
      s.world.fire (.ofEntities (fun v => v) [e]) f.dispatcherPath = some u ∧
      ((s.world.setSchedule f.dispatcherPath none).begin f.dispatcherPath none).runAsEach
        (.ofEntities (fun v => v) [e]) f.bodyPath waiting.reverse = some u' ∧ u.Alike u' := by
  obtain ⟨e,a,f,s,r,h,ha,hf,hr,hne,hwait⟩ := wavers_wait
  obtain ⟨hmem,hruns,hcommute⟩ := visits_commute h hr List.mem_cons_self ha hf (.inr rfl)
  obtain ⟨u,u',hu,hu',halike⟩ := hcommute _ _ (.refl _) (List.reverse_perm _)
  exact ⟨e,a,f,s,r,_,u,u',h,ha,hf,hr,hne,(hmem 0).mpr (hwait 0 (.inl rfl)),
    (hmem r).mpr (hwait r (.inr rfl)),hruns.trans hu,hu',halike⟩

end Waver

end Session
end RigPack
