import RigPack.Proofs.Session.Acts

/-!
One root that plays while all others rest. Each tick of its animation comes at a time that is known
beforehand, its body runs once, and what follows the last tick depends on the request at hand and on
the animation's policy.
-/

namespace RigPack

/-- The world in which the dispatcher of a tick, taken off the schedule, begins to run. -/
def World.dispatched {N : Type} (w : World N) (f : Frame) : World N :=
  (w.setSchedule f.dispatcherPath none).begin f.dispatcherPath none

namespace Session

variable {N : Type}

/-- What becomes of a session in which nobody starts or removes anything. Requests may be written
at any time. -/
inductive Runs [Scalar N] (programs : Programs N) (entities : List CompiledEntity)
    (s : Session N) : Session N → Prop
  | refl : Runs programs entities s s
  | request {u e r} (value : Int) : Runs programs entities s u → e ∈ entities →
      u.LiveRoot e.name r →
      Runs programs entities s { u with world := u.world.change [r] (·.setScore Names.next value) }
  | fire {u function w} : Runs programs entities s u → u.world.Due function →
      u.world.fire programs function = some w → Runs programs entities s { u with world := w }
  | pass {u} : Runs programs entities s u → (∀ function, ¬u.world.Due function) →
      Runs programs entities s { u with world := u.world.pass }

/-- Every living root but perhaps one rests. -/
def OthersRest (entities : List CompiledEntity) (s : Session N) (r : Nat) : Prop :=
  ∀ d ∈ entities, ∀ r' t, s.LiveRoot d.name r' → s.world.stands[r']? = some t → r' ≠ r →
    t.scores Names.frame = some Names.dormantFrame

/-- A living root is on a frame, all others rest, and one function alone is scheduled. -/
structure Alone (entities : List CompiledEntity) (s : Session N) (e : CompiledEntity) (r : Nat)
    (frame : Int) (function : ResourcePath) (due : Nat) : Prop where
  live : s.LiveRoot e.name r
  frame : ∀ t, s.world.stands[r]? = some t → t.scores Names.frame = some frame
  rest : s.OthersRest entities r
  schedule : ∀ g, s.world.schedule g = if g = function then some due else none
  now : s.world.now ≤ due

variable {space : String} {entities : List CompiledEntity} {s u : Session N}
  {e : CompiledEntity} {x : Exporter} {a : CompiledAnimation} {f : Frame} {k r due : Nat}
  {frame : Int} {g : ResourcePath}

namespace Alone

lemma due_iff (h : s.Alone entities e r frame g due) {g' : ResourcePath} :
    s.world.Due g' ↔ g' = g ∧ s.world.now = due := by
  have hnow := h.now
  constructor
  · rintro ⟨time,hg,htime⟩
    rw [h.schedule] at hg
    split at hg
    · rename_i heq
      obtain rfl := Option.some.inj hg
      exact ⟨heq,by omega⟩
    · cases hg
  · rintro ⟨rfl,rfl⟩
    exact ⟨_,(h.schedule _).trans (if_pos rfl),Nat.le_refl _⟩

lemma not_due (h : s.Alone entities e r frame g due) (hlt : s.world.now < due)
    (g' : ResourcePath) : ¬s.world.Due g' := by
  rw [h.due_iff]
  omega

/-- With its one entry gone the schedule is empty. -/
lemma unscheduled (h : s.Alone entities e r frame g due) (g' : ResourcePath) :
    (s.world.setSchedule g none).schedule g' = none := by
  change (if g' = g then none else s.world.schedule g') = none
  rw [h.schedule]
  split <;> rfl

lemma pass (h : s.Alone entities e r frame g due) (hnot : ∀ g, ¬s.world.Due g) :
    (⟨s.world.pass,s.roots⟩ : Session N).Alone entities e r frame g due := by
  have hle := h.now
  have hne : s.world.now ≠ due := fun heq => hnot g (h.due_iff.mpr ⟨rfl,heq⟩)
  exact ⟨h.live,h.frame,h.rest,h.schedule,Nat.lt_of_le_of_ne hle hne⟩

lemma request (h : s.Alone entities e r frame g due) (i : Nat) (v : Int) :
    (⟨s.world.change [i] (·.setScore Names.next v),s.roots⟩ : Session N).Alone entities e r frame g
      due := by
  have hframe : Names.frame ≠ Names.next := by decide
  have hback : ∀ (j : Nat) (t : Stand N),
      (s.world.change [i] (·.setScore Names.next v)).stands[j]? = some t →
      ∃ t', s.world.stands[j]? = some t' ∧ t'.alive = t.alive ∧
        t.scores Names.frame = t'.scores Names.frame := by
    intro j t ht
    rw [World.getElem?_change,Option.map_eq_some_iff] at ht
    obtain ⟨t',ht',rfl⟩ := ht
    refine ⟨t',ht',?_⟩
    split
    · exact ⟨rfl,by rw [Stand.scores_setScore,if_neg hframe]⟩
    · exact ⟨rfl,rfl⟩
  refine ⟨?_,?_,?_,h.schedule,h.now⟩
  · obtain ⟨hm,t,ht,hlive⟩ := h.live
    refine ⟨hm,_,(World.getElem?_change ..).trans (congrArg (Option.map _) ht),?_⟩
    split <;> exact hlive
  · intro t ht
    obtain ⟨t',ht',_,hsame⟩ := hback r t ht
    exact hsame.trans (h.frame t' ht')
  · intro d hd r' t hl ht hne
    obtain ⟨t',ht',hlive,hsame⟩ := hback r' t ht
    obtain ⟨hm,_,ht₁,hlive₁⟩ := hl
    obtain rfl := Option.some.inj (ht.symm.trans ht₁)
    exact hsame.trans (h.rest d hd r' t' ⟨hm,t',ht',hlive.trans hlive₁⟩ ht' hne)

/-- A root that takes a turn while all others rest is alone. -/
lemma of_turn (hp : s.Populated entities) (hk : s.Has entities k r e)
    {t : Stand N} (ht : s.world.stands[r]? = some t) (hlive : t.alive = true)
    (hrest : s.OthersRest entities r) {u : Turn} {w : World N} (hn : w.now = s.world.now)
    (hs : ∀ g, w.schedule g = if g = u.function then some (s.world.now + u.delay) else none)
    (hroots : ∀ k' r' d t, s.Has entities k' r' d → s.world.stands[r']? = some t →
      w.stands[r']? = some (if r' = r then t.turned s.world.registers u else t))
    (hframe : (t.turned .unbounded u).scores Names.frame = some frame) :
    (⟨w,s.roots⟩ : Session N).Alone entities e r frame u.function (s.world.now + u.delay) := by
  have hr : w.stands[r]? = some (t.turned .unbounded u) := by
    rw [hroots k r e t hk ht,if_pos rfl,hp.registers]
  refine ⟨⟨List.mem_of_getElem? hk.2,_,hr,?_⟩,?_,?_,hs,?_⟩
  · rw [(t.turned_eq _ u).1]
    exact hlive
  · intro t' ht'
    obtain rfl := Option.some.inj (hr.symm.trans ht')
    exact hframe
  · intro d hd r' t' ⟨hm,t₁,ht₁,hlive'⟩ ht' hne
    obtain rfl := Option.some.inj (ht'.symm.trans ht₁)
    obtain ⟨k',hk'⟩ := List.mem_iff_getElem?.mp hm
    obtain ⟨t₂,ht₂,_⟩ := hp.root k' r' d ⟨hd,hk'⟩
    have hsame := (hroots k' r' d t₂ ⟨hd,hk'⟩ ht₂).symm.trans ht'
    rw [if_neg hne,Option.some.injEq] at hsame
    subst hsame
    exact hrest d hd r' t₂ ⟨hm,t₂,ht₂,hlive'⟩ ht₂ hne
  · change w.now ≤ _
    omega

/-- Starting an animation where everybody rests. -/
lemma of_start (h : Ensemble space entities) (hp : s.Populated entities) (hk : s.Has entities k r e)
    {t : Stand N} (ht : s.world.stands[r]? = some t) (hlive : t.alive = true)
    (hrest : s.OthersRest entities r) (hq : ∀ g, s.world.schedule g = none)
    (ha : a ∈ e.animations) (hf : a.frames[0]? = some f) :
    (⟨s.world.turn r (.start e.functions a.plan),s.roots⟩ : Session N).Alone entities e r f.id
      f.dispatcherPath (s.world.now + 1) := by
  obtain ⟨x,_,hx⟩ := h.lawful hk.1
  have hl := hx.frame ha (List.mem_of_getElem? hf)
  have htick := hx.tick_eq ha hf
  have hid : f.id = a.plan.frameId 0 := htick ▸ hl.id
  have hpath : f.dispatcherPath = e.functions.dispatcher a.plan.name 0 := htick ▸ hl.dispatcherPath
  rw [hpath]
  refine of_turn (w := s.world.turn r (.start e.functions a.plan))
    (u := .start e.functions a.plan) hp hk ht hlive hrest rfl (fun g => ?_)
    (fun k' r' d t' _ ht' => ?_) ?_
  · exact congrArg (if g = _ then _ else ·) (hq g)
  · rw [World.getElem?_turn,ht']
    rfl
  · rw [hid]
    exact Stand.scores_setScore_self ..

/-- The same after a root has run the body of the tick on which it waited. -/
lemma of_played [Scalar N] {number : Float → N} (h : Ensemble space entities)
    (hp : s.Populated entities) (hal : s.Alone entities e r f.id f.dispatcherPath due)
    (hk : s.Has entities k r e) {t : Stand N} (ht : s.world.stands[r]? = some t)
    (hlive : t.alive = true) (p : Vec3 N) (n : Int) {u : Turn} {d : Nat} (hg : u.function = g)
    (hd : u.delay = d) (hframe : (t.turned .unbounded u).scores Names.frame = some frame) :
    (⟨(s.world.dispatched f).played number x r p n f u,s.roots⟩ : Session N).Alone entities e r
      frame g (s.world.now + d) := by
  subst hg hd
  have hp' : (⟨s.world.dispatched f,s.roots⟩ : Session N).Populated entities :=
    hp.of_stands rfl rfl rfl
  refine of_turn (s := ⟨s.world.dispatched f,s.roots⟩) hp' hk ht hlive hal.rest rfl ?_ ?_ hframe
  · intro g
    have hgone : (s.world.dispatched f).schedule g = none := hal.unscheduled g
    rw [World.schedule_played,hgone]
  · intro k' r' d t' hk' ht'
    exact hp'.root_played h hk' ht' ..

end Alone

section Firing

variable [Scalar N] (number : Float → N)

/-- A dispatcher finds the one root that waits on its tick. -/
lemma Sound.fire_alone (h : Ensemble space entities) (hs : s.Sound entities) (hx : e.Lawful x)
    (ha : a ∈ e.animations) (hf : f ∈ a.frames)
    (hal : s.Alone entities e r f.id f.dispatcherPath due) (hk : s.Has entities k r e)
    {t : Stand N} (ht : s.world.stands[r]? = some t) (hlive : t.alive = true) :
    s.world.fire (.ofEntities number entities) f.dispatcherPath =
      some ((s.world.dispatched f).played number x r t.position (k + 1) f
        (e.turn a.plan f.tick (t.score Names.next))) := by
  let v := s.world.dispatched f
  have hv : (⟨v,s.roots⟩ : Session N).Populated entities := hs.populated.of_stands rfl rfl rfl
  have hfound : v.selected (Frames.waiting x.entity a.plan f.tick) = [r] := by
    refine World.selected_eq_singleton rfl fun i => ?_
    refine (Populated.mem_waiting (s := ⟨v,s.roots⟩) h hv hx hk.1 ha hf).trans ?_
    constructor
    · rintro ⟨k',t',hk',ht',hlive',hframe⟩
      by_contra hne
      have hrest := hal.rest e hk.1 i t' ⟨List.mem_of_getElem? hk'.2,t',ht',hlive'⟩ ht' hne
      rw [hframe,Option.some.injEq] at hrest
      simp only [Names.dormantFrame] at hrest
      omega
    · rintro rfl
      exact ⟨k,t,hk,ht,hlive,hal.frame t ht⟩
  have hrun := e.dispatcher_runs hx (h.loaded number hk.1) ha hf
    (w := s.world.setSchedule f.dispatcherPath none) ⟨none,.zero⟩ 3
  have hpoint : v.pointOf ⟨none,.zero⟩ r = ⟨some r,t.position⟩ := by
    have hvt : v.stands[r]? = some t := ht
    simp only [World.pointOf,hvt]
  have hbody := Populated.body_runs (s := ⟨v,s.roots⟩) number h hv hx ha hf hk ht hlive
    t.position 0
  have hfold : s.world.fire (.ofEntities number entities) f.dispatcherPath =
      [r].foldlM (fun u i => World.call (.ofEntities number entities) 3 f.bodyPath
        (v.pointOf ⟨none,.zero⟩ i) u) v := by
    rw [← hfound]
    exact hrun
  rw [hfold,List.foldlM_cons,hpoint]
  exact congrArg (Option.bind · _) hbody

/-- A tick that is not the last is followed by the next one. The first tick keeps it waiting. -/
lemma Sound.fire_tick (h : Ensemble space entities) (hs : s.Sound entities) (he : e ∈ entities)
    (ha : a ∈ e.animations) {i : Nat} {f' : Frame} (hf : a.frames[i]? = some f)
    (hf' : a.frames[i + 1]? = some f')
    (hal : s.Alone entities e r f.id f.dispatcherPath due) :
    ∃ w, s.world.fire (.ofEntities number entities) f.dispatcherPath = some w ∧
      (⟨w,s.roots⟩ : Session N).Alone entities e r f'.id f'.dispatcherPath
        (s.world.now + if i = 0 then 2 else 1) ∧
      w.calls = s.world.calls ++
        [⟨s.world.now,f.dispatcherPath,none⟩,⟨s.world.now,f.bodyPath,some r⟩] := by
  obtain ⟨x,_,hx⟩ := h.lawful he
  obtain ⟨k,t,hk,ht,hlive,_⟩ := hs.populated.of_live he hal.live
  have hm := List.mem_of_getElem? hf
  have hl' := hx.frame ha (List.mem_of_getElem? hf')
  have htick := hx.tick_eq ha hf
  have htick' := hx.tick_eq ha hf'
  have hlt : f.tick < a.plan.lastTick := by
    have hle := hl'.tick_le
    omega
  have hturn := CompiledEntity.turn_of_lt (e := e) hlt (t.score Names.next)
  refine ⟨_,hs.fire_alone number h hx ha hm hal hk ht hlive,?_,?_⟩
  · refine hal.of_played h hs.populated hk ht hlive _ _ ?_ ?_ ?_
    · rw [hturn,hl'.dispatcherPath,htick',htick]
    · rw [hturn,htick]
      rfl
    · have hid : (f'.id : Int) = a.plan.frameId f.tick + 1 := by
        rw [hl'.id,htick',htick]
        rfl
      rw [hturn,hid]
      exact Stand.scores_setScore_self ..
  · rw [World.calls_played,hturn]
    exact List.append_assoc ..

end Firing

/-- When the tick at an index comes, if the one at another index is due at a time: ticks follow each
other at once, but for the second, which is one late. -/
def beat (first due i : Nat) : Nat :=
  due + (i - first) + if first = 0 ∧ 0 < i then 1 else 0

lemma beat_self (first due : Nat) : beat first due first = due := by
  simp only [beat,Nat.sub_self,Nat.add_zero]
  split <;> omega

lemma beat_succ {first i : Nat} (due : Nat) (hi : first ≤ i) :
    beat first due (i + 1) = beat first due i + if i = 0 then 2 else 1 := by
  unfold beat
  split <;> split <;> split <;> omega

/-- Four ticks of an animation that was started at time zero. -/
example : (List.range 4).map (beat 0 1) = [1,3,4,5] := by decide

/-- Ticks that a root has run, each with its dispatcher and its body. -/
def tickCalls (r first due : Nat) (l : List Frame) : List Call :=
  l.flatMap fun f =>
    [⟨beat first due f.tick,f.dispatcherPath,none⟩,⟨beat first due f.tick,f.bodyPath,some r⟩]

/-- Since the session that comes first, one root has run the ticks of an animation from one index to
another, each at its time and nothing else. It waits on the tick that comes next. -/
structure Plays (s : Session N) (entities : List CompiledEntity) (e : CompiledEntity)
    (a : CompiledAnimation) (r first due i : Nat) (f : Frame) (u : Session N) : Prop where
  frame : a.frames[i]? = some f
  first_le : first ≤ i
  alone : u.Alone entities e r f.id f.dispatcherPath (beat first due i)
  calls : u.world.calls =
    s.world.calls ++ tickCalls r first due ((a.frames.take i).drop first)

section Runs

variable [Scalar N] {number : Float → N} {programs : Programs N} {first i : Nat}

lemma Runs.trans {v : Session N} (h : Runs programs entities s u)
    (h' : Runs programs entities u v) : Runs programs entities s v := by
  induction h' with
  | refl => exact h
  | request v _ he hl ih => exact ih.request v he hl
  | fire _ hdue hw ih => exact ih.fire hdue hw
  | pass _ hnot ih => exact ih.pass hnot

lemma Runs.reachable (hr : Reachable programs entities s) (h : Runs programs entities s u) :
    Reachable programs entities u := by
  induction h with
  | refl => exact hr
  | request v _ he hl ih => exact ih.step (.request v he hl)
  | fire _ hdue hw ih => exact ih.step (.fire hdue hw)
  | pass _ hnot ih => exact ih.step (.pass hnot)

/-- Time passes until what is scheduled is due. -/
lemma Alone.wait (programs : Programs N) (hal : s.Alone entities e r frame g due) :
    ∃ u, Runs programs entities s u ∧ u.Alone entities e r frame g due ∧ u.world.now = due ∧
      u.world.calls = s.world.calls := by
  have hsteps : ∀ n, s.world.now + n ≤ due → ∃ u, Runs programs entities s u ∧
      u.Alone entities e r frame g due ∧ u.world.now = s.world.now + n ∧
      u.world.calls = s.world.calls := by
    intro n
    induction n with
    | zero => exact fun _ => ⟨s,.refl,hal,rfl,rfl⟩
    | succ n ih =>
      intro hn
      obtain ⟨u,hu,halone,hnow,hcalls⟩ := ih (by omega)
      have hnot := halone.not_due (by omega)
      exact ⟨_,hu.pass hnot,halone.pass hnot,congrArg (· + 1) hnow,hcalls⟩
  have hnow := hal.now
  obtain ⟨u,hu,halone,hdue,hcalls⟩ := hsteps (due - s.world.now) (by omega)
  exact ⟨u,hu,halone,by omega,hcalls⟩

omit [Scalar N] in
lemma Plays.begin (hf : a.frames[first]? = some f)
    (hal : s.Alone entities e r f.id f.dispatcherPath due) :
    s.Plays entities e a r first due first f s := by
  refine ⟨hf,Nat.le_refl _,?_,?_⟩
  · rw [beat_self]
    exact hal
  · have hnone : (a.frames.take first).drop first = [] :=
      List.drop_eq_nil_of_le (List.length_take_le ..)
    rw [hnone]
    exact (List.append_nil _).symm

/-- A root that plays runs the tick on which it waits and waits on the next one. -/
lemma Plays.fire (h : Ensemble space entities) (hu : u.Sound entities) (he : e ∈ entities)
    (ha : a ∈ e.animations) (hp : s.Plays entities e a r first due i f u)
    (hi : i < a.plan.lastTick) (hnow : u.world.now = beat first due i) :
    ∃ f' w, u.world.fire (.ofEntities number entities) f.dispatcherPath = some w ∧
      s.Plays entities e a r first due (i + 1) f' ⟨w,u.roots⟩ := by
  obtain ⟨x,_,hx⟩ := h.lawful he
  obtain ⟨f',hf'⟩ := hx.exists_tick ha hi
  obtain ⟨w,hw,halone,hcalls⟩ := hu.fire_tick number h he ha hp.frame hf' hp.alone
  have hfirst := hp.first_le
  refine ⟨f',w,hw,hf',by omega,?_,?_⟩
  · rw [beat_succ due hp.first_le,← hnow]
    exact halone
  · have htake : (a.frames.take (i + 1)).drop first = (a.frames.take i).drop first ++ [f] := by
      have hlt := (List.getElem?_eq_some_iff.mp hp.frame).1
      rw [List.take_add_one,hp.frame,List.drop_append_of_le_length]
      · rfl
      · rw [List.length_take]
        omega
    rw [hcalls,hp.calls,htake,tickCalls,tickCalls,List.flatMap_append,List.append_assoc,hnow,
      ← hx.tick_eq ha hp.frame]
    simp

/-- The scheduler by itself leads a root that plays to its last tick. -/
lemma Plays.exists_last (h : Ensemble space entities)
    (hr : Reachable (.ofEntities number entities) entities s) (he : e ∈ entities)
    (ha : a ∈ e.animations) (hf : a.frames[first]? = some f)
    (hal : s.Alone entities e r f.id f.dispatcherPath due) :
    ∃ v l, Runs (.ofEntities number entities) entities s v ∧
      s.Plays entities e a r first due a.plan.lastTick l v ∧
      v.world.now = beat first due a.plan.lastTick := by
  obtain ⟨x,_,hx⟩ := h.lawful he
  have hfirst : first ≤ a.plan.lastTick := by
    have hlt := (List.getElem?_eq_some_iff.mp hf).1
    rw [hx.length_frames ha] at hlt
    omega
  have hwait {i : Nat} {l : Frame} {u : Session N}
      (hu : Runs (.ofEntities number entities) entities s u)
      (hp : s.Plays entities e a r first due i l u) :
      ∃ v, Runs (.ofEntities number entities) entities s v ∧
        s.Plays entities e a r first due i l v ∧ v.world.now = beat first due i := by
    obtain ⟨v,hv,halone,hnow,hcalls⟩ := hp.alone.wait (.ofEntities number entities)
    exact ⟨v,hu.trans hv,⟨hp.frame,hp.first_le,halone,hcalls.trans hp.calls⟩,hnow⟩
  -- The induction is on the number of ticks that have run.
  have hticks : ∀ n, first + n ≤ a.plan.lastTick → ∃ v l,
      Runs (.ofEntities number entities) entities s v ∧
      s.Plays entities e a r first due (first + n) l v ∧
      v.world.now = beat first due (first + n) := by
    intro n
    induction n with
    | zero =>
      intro _
      obtain ⟨v,hv,hp,hnow⟩ := hwait .refl (.begin hf hal)
      exact ⟨v,f,hv,hp,hnow⟩
    | succ n ih =>
      intro hn
      obtain ⟨u,g,hu,hp,hnow⟩ := ih (by omega)
      obtain ⟨l,w,hw,hp'⟩ := hp.fire h ((hu.reachable hr).sound h) he ha (by omega) hnow
      have hdue : u.world.Due g.dispatcherPath := hp.alone.due_iff.mpr ⟨rfl,hnow⟩
      obtain ⟨v,hv,hp'',hnow'⟩ := hwait (hu.fire hdue hw) hp'
      exact ⟨v,l,hv,hp'',hnow'⟩
  have hlast := hticks (a.plan.lastTick - first) (by omega)
  rwa [Nat.add_sub_cancel' hfirst] at hlast

/-- Whatever is asked for meanwhile, a root that plays is on some tick at its time, or it has come
past the last one. The induction is on the run. -/
lemma Plays.runs (h : Ensemble space entities)
    (hr : Reachable (.ofEntities number entities) entities s) (he : e ∈ entities)
    (ha : a ∈ e.animations) (hf : a.frames[first]? = some f)
    (hal : s.Alone entities e r f.id f.dispatcherPath due)
    (hu : Runs (.ofEntities number entities) entities s u) :
    (∃ i g, s.Plays entities e a r first due i g u) ∨
      ∃ v l w, Runs (.ofEntities number entities) entities s v ∧
        s.Plays entities e a r first due a.plan.lastTick l v ∧
        v.world.now = beat first due a.plan.lastTick ∧
        v.world.fire (.ofEntities number entities) l.dispatcherPath = some w ∧
        Runs (.ofEntities number entities) entities ⟨w,v.roots⟩ u := by
  obtain ⟨x,_,hx⟩ := h.lawful he
  induction hu with
  | refl => exact .inl ⟨first,f,.begin hf hal⟩
  | @request u d r' value hu hd hl ih =>
    rcases ih with ⟨i,g,hp⟩ | ⟨v,l,w,hv,hp,hnow,hw,hrest⟩
    · exact .inl ⟨i,g,hp.frame,hp.first_le,hp.alone.request r' value,hp.calls⟩
    · exact .inr ⟨v,l,w,hv,hp,hnow,hw,hrest.request value hd hl⟩
  | @pass u hu hnot ih =>
    rcases ih with ⟨i,g,hp⟩ | ⟨v,l,w,hv,hp,hnow,hw,hrest⟩
    · exact .inl ⟨i,g,hp.frame,hp.first_le,hp.alone.pass hnot,hp.calls⟩
    · exact .inr ⟨v,l,w,hv,hp,hnow,hw,hrest.pass hnot⟩
  | @fire u g' w' hu hdue hw' ih =>
    rcases ih with ⟨i,g,hp⟩ | ⟨v,l,w,hv,hp,hnow,hw,hrest⟩
    · obtain ⟨rfl,hnow⟩ := hp.alone.due_iff.mp hdue
      by_cases hi : i < a.plan.lastTick
      · obtain ⟨g',w,hw,hp'⟩ := hp.fire h ((hu.reachable hr).sound h) he ha hi hnow
        obtain rfl : w = w' := Option.some.inj (hw.symm.trans hw')
        exact .inl ⟨i + 1,g',hp'⟩
      · have hlast : i = a.plan.lastTick := by
          have hlt := (List.getElem?_eq_some_iff.mp hp.frame).1
          rw [hx.length_frames ha] at hlt
          omega
        subst hlast
        exact .inr ⟨u,g,w',hu,hp,hnow,hw',.refl⟩
    · exact .inr ⟨v,l,w,hv,hp,hnow,hw,hrest.fire hdue hw'⟩

/-- Once nothing but the dormancy is scheduled, it runs in its turn and leaves nothing scheduled. -/
lemma Alone.rest_runs (h : Ensemble space entities) (he : e ∈ entities)
    (hal : s.Alone entities e r Names.dormantFrame e.functions.dormant due)
    (hu : Runs (.ofEntities number entities) entities s u) :
    (u.Alone entities e r Names.dormantFrame e.functions.dormant due ∧
        u.world.calls = s.world.calls) ∨
      ((∀ g, u.world.schedule g = none) ∧
        u.world.calls = s.world.calls ++ [⟨due,e.functions.dormant,none⟩]) := by
  induction hu with
  | refl => exact .inl ⟨hal,rfl⟩
  | @request u d r' value hu hd hl ih =>
    rcases ih with ⟨hal',hcalls⟩ | hrest
    · exact .inl ⟨hal'.request r' value,hcalls⟩
    · exact .inr hrest
  | @pass u hu hnot ih =>
    rcases ih with ⟨hal',hcalls⟩ | hrest
    · exact .inl ⟨hal'.pass hnot,hcalls⟩
    · exact .inr hrest
  | @fire u g w hu hdue hw ih =>
    rcases ih with ⟨hal',hcalls⟩ | ⟨hnone,_⟩
    · obtain ⟨rfl,hnow⟩ := hal'.due_iff.mp hdue
      rw [dormant_fires number h he,Option.some.injEq] at hw
      subst hw
      refine .inr ⟨hal'.unscheduled,?_⟩
      change u.world.calls ++ [⟨u.world.now,e.functions.dormant,none⟩] = _
      rw [hcalls,hnow]
    · obtain ⟨time,hg,_⟩ := hdue
      rw [hnone] at hg
      cases hg

variable (number) in
lemma Sound.fire_last (h : Ensemble space entities) (hs : s.Sound entities) (hx : e.Lawful x)
    (ha : a ∈ e.animations) (hf : a.frames[a.plan.lastTick]? = some f)
    (hal : s.Alone entities e r f.id f.dispatcherPath due) (hk : s.Has entities k r e)
    {t : Stand N} (ht : s.world.stands[r]? = some t) (hlive : t.alive = true) :
    ∃ w, s.world.fire (.ofEntities number entities) f.dispatcherPath = some w ∧
      w = (s.world.dispatched f).played number x r t.position (k + 1) f
        (e.turn a.plan a.plan.lastTick (t.score Names.next)) ∧
      w.stands[r]? = some (t.turned .unbounded
        (e.turn a.plan a.plan.lastTick (t.score Names.next))) := by
  have hrun := hs.fire_alone number h hx ha (List.mem_of_getElem? hf) hal hk ht hlive
  rw [hx.tick_eq ha hf] at hrun
  refine ⟨_,hrun,rfl,?_⟩
  have hp : (⟨s.world.dispatched f,s.roots⟩ : Session N).Populated entities :=
    hs.populated.of_stands rfl rfl rfl
  rw [hp.root_played h hk ht,if_pos rfl]
  exact congrArg some (congrArg (t.turned · _) hs.populated.registers)

/-- Where nothing is scheduled everybody rests, and a start leaves its root alone. -/
lemma Sound.start_alone (h : Ensemble space entities) (hs : s.Sound entities) (he : e ∈ entities)
    (ha : a ∈ e.animations) (hl : s.LiveRoot e.name r) (hq : ∀ g, s.world.schedule g = none)
    (hf : a.frames[0]? = some f) :
    ∃ w, s.world.runAs (.ofEntities number entities) r a.entryPath = some w ∧
      w.calls = s.world.calls ++ [⟨s.world.now,a.entryPath,some r⟩] ∧
      (⟨w,s.roots⟩ : Session N).Alone entities e r f.id f.dispatcherPath (s.world.now + 1) := by
  obtain ⟨x,_,hx⟩ := h.lawful he
  obtain ⟨k,t,hk,ht,hlive,_⟩ := hs.populated.of_live he hl
  refine ⟨_,hs.start_runs number h he ha hl,?_,.of_start h hs.populated hk ht hlive ?_ hq ha hf⟩
  · rw [hx.entryPath ha]
    rfl
  · intro d hd r' t' hl' ht' _
    rcases hs.attended.waits d hd r' t' hl' ht' List.not_mem_nil with hrest | ⟨_,_,g,_,_,hsome⟩
    · exact hrest
    · rw [hq] at hsome
      cases hsome

/-- A request that is granted is the start of what was asked for. -/
lemma Sound.fire_requested (h : Ensemble space entities) (hs : s.Sound entities) (he : e ∈ entities)
    (ha : a ∈ e.animations) (hf : a.frames[a.plan.lastTick]? = some f)
    (hal : s.Alone entities e r f.id f.dispatcherPath due) {t : Stand N}
    (ht : s.world.stands[r]? = some t) {b : CompiledAnimation}
    (hb : requested? e.animations (t.score Names.next) = some b) {w : World N}
    (hw : s.world.fire (.ofEntities number entities) f.dispatcherPath = some w) :
    ∃ g, ∃ w₀ : World N, b.frames[0]? = some g ∧ w₀.now = s.world.now ∧
      (∀ g, w₀.schedule g = none) ∧ w₀.stands[r]? = some (t.taken .unbounded) ∧
      w₀.calls = s.world.calls ++ [⟨s.world.now,f.dispatcherPath,none⟩,
        ⟨s.world.now,f.bodyPath,some r⟩,⟨s.world.now,e.functions.select,some r⟩] ∧
      w₀.runAs (.ofEntities number entities) r b.entryPath = some w ∧
      (⟨w,s.roots⟩ : Session N).Alone entities e r g.id g.dispatcherPath (s.world.now + 1) := by
  obtain ⟨x,_,hx⟩ := h.lawful he
  obtain ⟨k,t',hk,ht',hlive,_⟩ := hs.populated.of_live he hal.live
  obtain rfl : t = t' := Option.some.inj (ht.symm.trans ht')
  have hbe := requested?_mem hb
  obtain ⟨g,hg⟩ := hx.exists_tick hbe (Nat.zero_le _)
  have hgl := hx.frame hbe (List.mem_of_getElem? hg)
  have hgtick := hx.tick_eq hbe hg
  have hown : t.isOwn (k + 1) = false := hs.populated.not_own h hk ht _
  let w₀ := (s.world.dispatched f).granted number x r t.position (k + 1) f e.functions.select
  have hstand : w₀.stands[r]? = some (t.taken .unbounded) := by
    have htaken := (s.world.dispatched f).getElem?_granted number x r t.position (k + 1) f ht hown
      e.functions.select
    rw [htaken]
    exact congrArg some (congrArg t.taken hs.populated.registers)
  obtain ⟨w',hw',heq,_⟩ := hs.fire_last number h hx ha hf hal hk ht hlive
  obtain rfl : w' = w := Option.some.inj (hw'.symm.trans hw)
  refine ⟨g,w₀,hg,rfl,hal.unscheduled,hstand,?_,?_,?_⟩
  · change ((s.world.calls ++ [_]) ++ [_]) ++ [_] = _
    rw [List.append_assoc,List.append_assoc]
    rfl
  · rw [heq,World.played_of_requested _ _ _ _ _ _ _ hb,World.runAs,hstand,hx.entryPath hbe]
    exact e.entry_runs hx (h.loaded number he) hbe hstand hlive 3
  · rw [heq]
    refine hal.of_played h hs.populated hk ht hlive _ _ ?_ ?_ ?_
    · rw [CompiledEntity.turn_of_requested hb,hgl.dispatcherPath,hgtick]
      rfl
    · rw [CompiledEntity.turn_of_requested hb]
      rfl
    · rw [CompiledEntity.turn_of_requested hb,hgl.id,hgtick]
      exact Stand.scores_setScore_self ..

/-- Where nothing is asked for, the policy of the animation decides. -/
lemma Sound.fire_unrequested (h : Ensemble space entities) (hs : s.Sound entities)
    (he : e ∈ entities) (ha : a ∈ e.animations) (hf : a.frames[a.plan.lastTick]? = some f)
    (hal : s.Alone entities e r f.id f.dispatcherPath due) {t : Stand N}
    (ht : s.world.stands[r]? = some t)
    (hnone : requested? e.animations (t.score Names.next) = none) {w : World N}
    (hw : s.world.fire (.ofEntities number entities) f.dispatcherPath = some w) :
    w.calls = s.world.calls ++ [⟨s.world.now,f.dispatcherPath,none⟩,
        ⟨s.world.now,f.bodyPath,some r⟩,⟨s.world.now,e.functions.select,some r⟩] ∧
      match a.plan.policy with
      | .once => (⟨w,s.roots⟩ : Session N).Alone entities e r Names.dormantFrame
          e.functions.dormant (s.world.now + 1)
      | .hold => (⟨w,s.roots⟩ : Session N).Alone entities e r f.id f.dispatcherPath
          (s.world.now + 1)
      | .loop => ∃ g, a.frames[0]? = some g ∧ (⟨w,s.roots⟩ : Session N).Alone entities e r g.id
          g.dispatcherPath (s.world.now + 1) := by
  obtain ⟨x,_,hx⟩ := h.lawful he
  obtain ⟨k,t',hk,ht',hlive,_⟩ := hs.populated.of_live he hal.live
  obtain rfl : t = t' := Option.some.inj (ht.symm.trans ht')
  have hl := hx.frame ha (List.mem_of_getElem? hf)
  have hturn := CompiledEntity.turn_of_none hnone a.plan
  obtain ⟨w',hw',heq,_⟩ := hs.fire_last number h hx ha hf hal hk ht hlive
  obtain rfl : w' = w := Option.some.inj (hw'.symm.trans hw)
  subst heq
  constructor
  · have hcalls : (e.turn a.plan a.plan.lastTick (t.score Names.next)).calls =
        [e.functions.select] := by
      rw [hturn]
      cases a.plan.policy <;> rfl
    rw [World.calls_played,hcalls]
    exact List.append_assoc ..
  · cases hpolicy : a.plan.policy with
    | once =>
      rw [hpolicy] at hturn
      refine hal.of_played h hs.populated hk ht hlive _ _ ?_ ?_ ?_ <;> rw [hturn]
      exact Stand.scores_setScore_self ..
    | hold =>
      rw [hpolicy] at hturn
      refine hal.of_played h hs.populated hk ht hlive _ _ ?_ ?_ ?_ <;> rw [hturn]
      · rw [hl.dispatcherPath,hx.tick_eq ha hf]
      · rw [← hal.frame t ht]
        rfl
    | loop =>
      obtain ⟨g,hg⟩ := hx.exists_tick ha (Nat.zero_le _)
      have hgl := hx.frame ha (List.mem_of_getElem? hg)
      have hgtick := hx.tick_eq ha hg
      rw [hpolicy] at hturn
      refine ⟨g,hg,hal.of_played h hs.populated hk ht hlive _ _ ?_ ?_ ?_⟩ <;> rw [hturn]
      · rw [hgl.dispatcherPath,hgtick]
      · rw [hgl.id,hgtick]
        exact Stand.scores_setScore_self ..

lemma Alone.exists_rest (h : Ensemble space entities) (he : e ∈ entities)
    (hal : s.Alone entities e r Names.dormantFrame e.functions.dormant due) :
    ∃ u, Runs (.ofEntities number entities) entities s u ∧ ∀ g, u.world.schedule g = none := by
  obtain ⟨u,hu,hal',hnow,_⟩ := hal.wait (.ofEntities number entities)
  exact ⟨_,hu.fire (hal'.due_iff.mpr ⟨rfl,hnow⟩) (dormant_fires number h he u.world),
    hal'.unscheduled⟩

variable (number) in
/-- How an animation plays where one root plays and all others rest. -/
theorem playback (h : Ensemble space entities) (he : e ∈ entities) (ha : a ∈ e.animations)
    (r : Nat) :
    -- A start where nothing is scheduled leaves its root alone on the first tick, due at once.
    (∀ s : Session N, Reachable (.ofEntities number entities) entities s → s.LiveRoot e.name r →
      (∀ g, s.world.schedule g = none) → ∃ f w, a.frames[0]? = some f ∧
        s.world.runAs (.ofEntities number entities) r a.entryPath = some w ∧
        w.calls = s.world.calls ++ [⟨s.world.now,a.entryPath,some r⟩] ∧
        (⟨w,s.roots⟩ : Session N).Alone entities e r f.id f.dispatcherPath (s.world.now + 1)) ∧
    -- From any tick on which a root waits alone the scheduler leads it to the last one. Meanwhile,
    -- whatever is asked for, the ticks before the one on which it waits have run once each, in order
    -- and in time; or the last one has run.
    (∀ (s : Session N) first f due, Reachable (.ofEntities number entities) entities s →
      a.frames[first]? = some f → s.Alone entities e r f.id f.dispatcherPath due →
      (∃ v l, Runs (.ofEntities number entities) entities s v ∧
        s.Plays entities e a r first due a.plan.lastTick l v ∧
        v.world.now = beat first due a.plan.lastTick) ∧
      ∀ u, Runs (.ofEntities number entities) entities s u →
        (∃ i g, s.Plays entities e a r first due i g u) ∨
        ∃ v l w, Runs (.ofEntities number entities) entities s v ∧
          s.Plays entities e a r first due a.plan.lastTick l v ∧
          v.world.now = beat first due a.plan.lastTick ∧
          v.world.fire (.ofEntities number entities) l.dispatcherPath = some w ∧
          Runs (.ofEntities number entities) entities ⟨w,v.roots⟩ u) ∧
    -- When the last one runs, the request is taken.
    ∀ (s : Session N) l t, Reachable (.ofEntities number entities) entities s →
      a.frames[a.plan.lastTick]? = some l →
      s.Alone entities e r l.id l.dispatcherPath s.world.now → s.world.stands[r]? = some t →
      ∃ (w : World N) (t' : Stand N),
        s.world.fire (.ofEntities number entities) l.dispatcherPath = some w ∧
        w.now = s.world.now ∧ w.stands[r]? = some t' ∧
        t'.scores Names.pending = some (t.score Names.next) ∧ t'.scores Names.next = some 0 ∧
        -- The number of an animation starts it where nothing is scheduled.
        (∀ b, 1 ≤ t.score Names.next →
          e.animations[(t.score Names.next - 1).toNat]? = some b →
          ∃ g, ∃ w₀ : World N, b.frames[0]? = some g ∧ w₀.now = s.world.now ∧
            (∀ g, w₀.schedule g = none) ∧ w₀.stands[r]? = some (t.taken .unbounded) ∧
            w₀.calls = s.world.calls ++ [⟨s.world.now,l.dispatcherPath,none⟩,
              ⟨s.world.now,l.bodyPath,some r⟩,⟨s.world.now,e.functions.select,some r⟩] ∧
            w₀.runAs (.ofEntities number entities) r b.entryPath = some w ∧
            (⟨w,s.roots⟩ : Session N).Alone entities e r g.id g.dispatcherPath
              (s.world.now + 1)) ∧
        -- Any other number leaves the root to the policy.
        (¬(1 ≤ t.score Names.next ∧ t.score Names.next ≤ e.animations.length) →
          w.calls = s.world.calls ++ [⟨s.world.now,l.dispatcherPath,none⟩,
            ⟨s.world.now,l.bodyPath,some r⟩,⟨s.world.now,e.functions.select,some r⟩] ∧
          match a.plan.policy with
          | .once =>
            (⟨w,s.roots⟩ : Session N).Alone entities e r Names.dormantFrame e.functions.dormant
              (s.world.now + 1) ∧
            (∃ u, Runs (.ofEntities number entities) entities ⟨w,s.roots⟩ u ∧
              ∀ g, u.world.schedule g = none) ∧
            ∀ u, Runs (.ofEntities number entities) entities ⟨w,s.roots⟩ u →
              (u.Alone entities e r Names.dormantFrame e.functions.dormant (s.world.now + 1) ∧
                u.world.calls = w.calls) ∨
              ((∀ g, u.world.schedule g = none) ∧
                u.world.calls = w.calls ++ [⟨s.world.now + 1,e.functions.dormant,none⟩])
          | .hold =>
            (⟨w,s.roots⟩ : Session N).Alone entities e r l.id l.dispatcherPath (s.world.now + 1)
          | .loop => ∃ g, a.frames[0]? = some g ∧
            (⟨w,s.roots⟩ : Session N).Alone entities e r g.id g.dispatcherPath
              (s.world.now + 1)) := by
  obtain ⟨x,_,hx⟩ := h.lawful he
  refine ⟨fun s hr hl hq => ?_,fun s first f due hr hf hal => ?_,fun s l t hr hf hal ht => ?_⟩
  · obtain ⟨f,hf⟩ := hx.exists_tick ha (Nat.zero_le _)
    obtain ⟨w,hw⟩ := (hr.sound h).start_alone h he ha hl hq hf
    exact ⟨f,w,hf,hw⟩
  · exact ⟨Plays.exists_last h hr he ha hf hal,fun u hu => Plays.runs h hr he ha hf hal hu⟩
  · have hs := hr.sound h
    obtain ⟨k,t',hk,ht',hlive,_⟩ := hs.populated.of_live he hal.live
    obtain rfl : t = t' := Option.some.inj (ht.symm.trans ht')
    obtain ⟨w,hw,heq,hr'⟩ := hs.fire_last number h hx ha hf hal hk ht hlive
    obtain ⟨hpending,hnext⟩ := t.turned_takes (e.takes_turn a.plan (t.score Names.next))
    refine ⟨w,_,hw,by rw [heq]; rfl,hr',hpending,hnext,fun b hlow hb => ?_,fun hout => ?_⟩
    · have hrequested : requested? e.animations (t.score Names.next) = some b := by
        rw [requested?,if_pos hlow]
        exact hb
      exact hs.fire_requested h he ha hf hal ht hrequested hw
    · have hnone := (requested?_eq_none e.animations _).mpr hout
      obtain ⟨hcalls,hpolicy⟩ := hs.fire_unrequested h he ha hf hal ht hnone hw
      refine ⟨hcalls,?_⟩
      cases hp : a.plan.policy with
      | once =>
        rw [hp] at hpolicy
        exact ⟨hpolicy,hpolicy.exists_rest h he,fun u hu => hpolicy.rest_runs h he hu⟩
      | hold =>
        rw [hp] at hpolicy
        exact hpolicy
      | loop =>
        rw [hp] at hpolicy
        exact hpolicy

/-- An instance that starts comes to its last tick in time, and runs it. -/
theorem waver_plays : ∃ (e : CompiledEntity) (a : CompiledAnimation) (s u : Session Float)
    (w w' : World Float) (l : Frame), Ensemble "cmdent" [e] ∧
      Reachable (.ofEntities (fun v => v) [e]) [e] s ∧ a ∈ e.animations ∧
      s.world.runAs (.ofEntities (fun v => v) [e]) 0 a.entryPath = some w ∧
      Runs (.ofEntities (fun v => v) [e]) [e] ⟨w,s.roots⟩ u ∧
      a.frames[a.plan.lastTick]? = some l ∧
      u.world.now = beat 0 (s.world.now + 1) a.plan.lastTick ∧
      u.world.fire (.ofEntities (fun v => v) [e]) l.dispatcherPath = some w' ∧
      ∃ t, w'.stands[0]? = some t ∧ t.scores Names.next = some 0 := by
  obtain ⟨e,a,s,h,ha,hr,hl,hq⟩ := waver_spawned
  have he : e ∈ [e] := List.mem_cons_self
  obtain ⟨hstart,hplay,hlast⟩ := playback (fun v : Float => v) h he ha 0
  obtain ⟨f,w,hf,hw,_,hal⟩ := hstart s hr hl hq
  have hr' := hr.step (.start he hl ha hw)
  obtain ⟨⟨u,l,hu,hp,hnow⟩,_⟩ := hplay ⟨w,s.roots⟩ 0 f _ hr' hf hal
  have hal' : u.Alone [e] e 0 l.id l.dispatcherPath u.world.now := hnow ▸ hp.alone
  obtain ⟨_,t,ht,_⟩ := hp.alone.live
  obtain ⟨w',t',hw',_,ht',_,hnext,_⟩ := hlast u l t (hu.reachable hr') hp.frame hal' ht
  exact ⟨e,a,s,u,w,w',l,h,hr,ha,hw,hu,hp.frame,hnow,hw',t',ht',hnext⟩

end Runs

end Session
end RigPack
