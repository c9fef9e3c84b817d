import RigPack.Proofs.World.Isolation

/-!
What a root goes on to do. Starting an animation, selecting a successor and ending a body come down
to one kind of change, a turn: the root gets other scores and one function is scheduled.
-/

namespace RigPack

structure Turn where
  /-- Whether the request for a successor is taken. -/
  takes : Bool
  /-- The frame on which the root waits from now on, if another one. -/
  frame : Option Int
  /-- What is scheduled, so many ticks from now. -/
  function : ResourcePath
  delay : Nat
  calls : List ResourcePath

def Turn.start (f : Functions) (p : Plan) : Turn :=
  ⟨false,some (p.frameId 0),f.dispatcher p.name 0,Frames.entryDelay,[f.entry p.name]⟩

/-- The animation that a number asks for. -/
def requested? (l : List CompiledAnimation) (v : Int) : Option CompiledAnimation :=
  if 1 ≤ v then l[(v - 1).toNat]? else none

/-- What follows a tick at which a number is the request. -/
def CompiledEntity.turn (e : CompiledEntity) (p : Plan) (tick : Nat) (v : Int) : Turn :=
  match p.successor tick, requested? e.animations v with
  | .next following, _ =>
    ⟨false,some (p.frameId tick + 1),e.functions.dispatcher p.name following,
      if tick = 0 then Frames.firstDelay else Frames.delay,[]⟩
  | _, some b =>
    ⟨true,some (b.plan.frameId 0),e.functions.dispatcher b.plan.name 0,Frames.entryDelay,
      [e.functions.select,e.functions.entry b.plan.name]⟩
  | .terminal, none =>
    ⟨true,some Names.dormantFrame,e.functions.dormant,Frames.delay,[e.functions.select]⟩
  | .hold again, none =>
    ⟨true,none,e.functions.dispatcher p.name again,Frames.delay,[e.functions.select]⟩
  | .loopTo first, none =>
    ⟨true,some (p.frameId first),e.functions.dispatcher p.name first,Frames.delay,
      [e.functions.select]⟩

lemma requested?_cons (b : CompiledAnimation) (l : List CompiledAnimation) (v : Int) :
    requested? (b::l) v = if v = 1 then some b else requested? l (v-1) := by
  by_cases hv : v = 1
  · simp [requested?,hv]
  by_cases hlow : 1 ≤ v
  · have hn : (v-1).toNat = (v-1-1).toNat+1 := by omega
    have hlow' : 1 ≤ v-1 := by omega
    rw [if_neg hv,requested?,requested?,if_pos hlow,if_pos hlow',hn,List.getElem?_cons_succ]
  · have hlow' : ¬1 ≤ v-1 := by omega
    rw [if_neg hv,requested?,requested?,if_neg hlow,if_neg hlow']

lemma requested?_eq_none (l : List CompiledAnimation) (v : Int) :
    requested? l v = none ↔ ¬(1 ≤ v ∧ v ≤ l.length) := by
  by_cases hv : 1 ≤ v
  · rw [requested?,if_pos hv,List.getElem?_eq_none_iff]
    omega
  · simp [requested?,hv]

lemma requested?_mem {l : List CompiledAnimation} {v : Int} {b : CompiledAnimation}
    (h : requested? l v = some b) : b ∈ l := by
  unfold requested? at h
  split at h
  · exact List.mem_of_getElem? h
  · cases h

section Last

variable {e : CompiledEntity} {b : CompiledAnimation} {p : Plan} {v : Int}

lemma CompiledEntity.turn_of_lt {tick : Nat} (ht : tick < p.lastTick) (v : Int) :
    e.turn p tick v = ⟨false,some (p.frameId tick + 1),e.functions.dispatcher p.name (tick + 1),
      if tick = 0 then Frames.firstDelay else Frames.delay,[]⟩ := by
  simp only [turn,Plan.successor,if_pos ht]

/-- At the last tick a request that is granted comes down to the start of another animation. -/
lemma CompiledEntity.turn_of_requested (hb : requested? e.animations v = some b) (p : Plan) :
    e.turn p p.lastTick v = { Turn.start e.functions b.plan with
      takes := true, calls := e.functions.select::(Turn.start e.functions b.plan).calls } := by
  simp only [turn,Plan.successor,if_neg (Nat.lt_irrefl _),hb]
  cases p.policy <;> rfl

lemma CompiledEntity.turn_of_none (hnone : requested? e.animations v = none) (p : Plan) :
    e.turn p p.lastTick v = match p.policy with
      | .once => ⟨true,some Names.dormantFrame,e.functions.dormant,1,[e.functions.select]⟩
      | .hold => ⟨true,none,e.functions.dispatcher p.name p.lastTick,1,[e.functions.select]⟩
      | .loop =>
        ⟨true,some (p.frameId 0),e.functions.dispatcher p.name 0,1,[e.functions.select]⟩ := by
  simp only [turn,Plan.successor,if_neg (Nat.lt_irrefl _),hnone]
  cases p.policy <;> rfl

lemma CompiledEntity.takes_turn (p : Plan) (v : Int) : (e.turn p p.lastTick v).takes = true := by
  simp only [turn,Plan.successor,if_neg (Nat.lt_irrefl _)]
  cases p.policy <;> cases requested? e.animations v <;> rfl

end Last

section Turned

variable {N : Type}

/-- A root that has taken the request for a successor. -/
def Stand.taken (s : Stand N) (g : Registers) : Stand N :=
  (s.setScore Names.pending (g.wrap (s.score Names.next))).setScore Names.next (g.wrap 0)

/-- A root after a turn. -/
def Stand.turned (s : Stand N) (g : Registers) (t : Turn) : Stand N :=
  let s := if t.takes then s.taken g else s
  match t.frame with
  | some v => s.setScore Names.frame (g.wrap v)
  | none => s

/-- The world after a turn of a root. -/
def World.turn (w : World N) (r : Nat) (t : Turn) : World N :=
  { (w.change [r] (·.turned w.registers t)).setSchedule t.function (some (w.now + t.delay)) with
    calls := w.calls ++ t.calls.map (⟨w.now,·,some r⟩) }

@[simp] lemma World.getElem?_turn (w : World N) (r : Nat) (t : Turn) (i : Nat) :
    (w.turn r t).stands[i]? = w.stands[i]?.map fun s =>
      if i = r then s.turned w.registers t else s := by
  have h : (w.turn r t).stands = (w.change [r] (·.turned w.registers t)).stands := rfl
  rw [h,World.getElem?_change]
  simp only [List.mem_singleton]

lemma Stand.turned_eq (s : Stand N) (g : Registers) (t : Turn) :
    (s.turned g t).alive = s.alive ∧ (s.turned g t).tags = s.tags ∧
      (s.turned g t).position = s.position ∧ (s.turned g t).head = s.head ∧
      (s.turned g t).customId = s.customId ∧
      ∀ o, o ≠ Names.frame → o ≠ Names.next → o ≠ Names.pending →
        (s.turned g t).scores o = s.scores o := by
  have htaken : ∀ o, o ≠ Names.next → o ≠ Names.pending →
      (s.taken g).scores o = s.scores o := by
    intro o hn hp
    rw [taken,scores_setScore,if_neg hn,scores_setScore,if_neg hp]
  unfold turned
  cases t.takes <;> cases t.frame <;> refine ⟨rfl,rfl,rfl,rfl,rfl,fun o hf hn hp => ?_⟩
  · rfl
  · rw [scores_setScore,if_neg hf]
    rfl
  · exact htaken o hn hp
  · rw [scores_setScore,if_neg hf]
    exact htaken o hn hp

/-- A turn that takes the request moves it on and leaves none. -/
lemma Stand.turned_takes (t : Stand N) {u : Turn} (hu : u.takes = true) :
    (t.turned .unbounded u).scores Names.pending = some (t.score Names.next) ∧
      (t.turned .unbounded u).scores Names.next = some 0 := by
  have hne : Names.pending ≠ Names.next ∧ Names.pending ≠ Names.frame ∧
    Names.next ≠ Names.frame := by decide
  unfold turned
  cases u.frame <;> simp [hu,taken,scores_setScore,hne,Registers.wrap]

/-- A turn after the request was taken and a function called. -/
lemma World.turn_of_taken (w : World N) (r : Nat) (t : Turn) (ht : t.takes = false)
    (f : ResourcePath) : ((w.change [r] (·.taken w.registers)).begin f (some r)).turn r t =
      w.turn r { t with takes := true, calls := f::t.calls } := by
  have hstands : ((w.change [r] (·.taken w.registers)).change [r] (·.turned w.registers t)) =
      w.change [r] (·.turned w.registers { t with takes := true, calls := f::t.calls }) := by
    rw [World.change_change]
    simp [Stand.turned,ht]
  have hs := congrArg World.stands hstands
  simp only [World.turn,World.begin,World.setSchedule,World.change,List.append_assoc,
    List.map_cons] at hs ⊢
  rw [hs]
  rfl

end Turned

section Points

variable {N : Type} {w : World N} {r : Nat} {s : Stand N} {p : Vec3 N}

lemma Clause.points_ifScore (hs : w.stands[r]? = some s) (o : String) (range : ScoreRange) :
    (ifScore o range).points w [⟨some r,p⟩] =
      some (if s.meets o range then [⟨some r,p⟩] else []) := by
  simp only [points,points.meets,List.filter_cons,List.filter_nil,Option.bind_some,hs,
    Option.any_some]

lemma Clause.points_unlessScore (hs : w.stands[r]? = some s) (o : String) (range : ScoreRange) :
    (unlessScore o range).points w [⟨some r,p⟩] =
      some (if !s.meets o range then [⟨some r,p⟩] else []) := by
  simp only [points,points.meets,List.filter_cons,List.filter_nil,Option.bind_some,hs,
    Option.any_some]

end Points

section Played

variable {N : Type} [Scalar N] (w : World N) (number : Float → N) (x : Exporter) (r : Nat)
  (p : Vec3 N) (id : Int) (f : Frame) (t : Turn)

/-- The world after a root has run a body: its proxies are posed and it has taken its turn. -/
def World.played : World N :=
  ((w.begin f.bodyPath (some r)).posed number x p id f.placed).turn r t

@[simp] lemma World.getElem?_played (i : Nat) :
    (w.played number x r p id f t).stands[i]? = w.stands[i]?.map fun s =>
      let posed := if s.isOwn id then
        (s.posed number x p f.placed).setTag Names.unposed false else s
      if i = r then posed.turned w.registers t else posed := by
  rw [played,getElem?_turn,getElem?_posed,Option.map_map]
  rfl

variable {w} in
/-- Who neither runs the body nor is a proxy of the instance stays as it is. -/
lemma World.other_played {i : Nat} {s : Stand N} (hs : w.stands[i]? = some s) (hi : i ≠ r)
    (ho : s.isOwn id = false) : (w.played number x r p id f t).stands[i]? = some s := by
  rw [getElem?_played,hs]
  simp [hi,ho]

variable {w r} in
lemma World.runner_played {s : Stand N} (hs : w.stands[r]? = some s)
    (ho : s.isOwn id = false) :
    (w.played number x r p id f t).stands[r]? = some (s.turned w.registers t) := by
  rw [getElem?_played,hs]
  simp [ho]

variable {w} in
lemma World.own_played {i : Nat} {s : Stand N} (hs : w.stands[i]? = some s) (hi : i ≠ r)
    (ho : s.isOwn id = true) : (w.played number x r p id f t).stands[i]? =
      some ((s.posed number x p f.placed).setTag Names.unposed false) := by
  rw [getElem?_played,hs]
  simp [hi,ho]

variable {w r} in
/-- A stand is the one that runs the body, a proxy of the instance, or another one. -/
lemma World.played_cases {s : Stand N} (hs : w.stands[r]? = some s) (ho : s.isOwn id = false)
    {i : Nat} {u u' : Stand N} (hu : w.stands[i]? = some u)
    (hu' : (w.played number x r p id f t).stands[i]? = some u') :
    u' = u ∨ (u = s ∧ u' = s.turned w.registers t) ∨
      u' = (u.posed number x p f.placed).setTag Names.unposed false := by
  by_cases hi : i = r
  · subst i
    obtain rfl : s = u := Option.some.inj (hs.symm.trans hu)
    rw [runner_played number x p id f t hs ho,Option.some.injEq] at hu'
    exact .inr (.inl ⟨rfl,hu'.symm⟩)
  · cases hown : u.isOwn id with
    | true =>
      rw [own_played number x r p id f t hu hi hown,Option.some.injEq] at hu'
      exact .inr (.inr hu'.symm)
    | false =>
      rw [other_played number x r p id f t hu hi hown,Option.some.injEq] at hu'
      exact .inl hu'.symm

@[simp] lemma World.length_played :
    (w.played number x r p id f t).stands.length = w.stands.length := by
  simp [played,turn,posed,changeEvery,begin,setSchedule,setHolder]

lemma World.holders_played {holder objective : String}
    (h : ¬(holder = Names.compared ∧ objective = Names.id)) :
    (w.played number x r p id f t).holders holder objective = w.holders holder objective :=
  if_neg h

lemma World.schedule_played (g : ResourcePath) : (w.played number x r p id f t).schedule g =
    if g = t.function then some (w.now + t.delay) else w.schedule g := rfl

lemma World.calls_played : (w.played number x r p id f t).calls =
    w.calls ++ (⟨w.now,f.bodyPath,some r⟩::t.calls.map (⟨w.now,·,some r⟩)) := by
  have h : (w.played number x r p id f t).calls =
      w.calls ++ [⟨w.now,f.bodyPath,some r⟩] ++ t.calls.map (⟨w.now,·,some r⟩) := rfl
  rw [h,List.append_assoc,List.singleton_append]

/-- The world after a root has run a body and its request was selected, in which the start of what
was asked for begins to run. -/
def World.granted (select : ResourcePath) : World N :=
  (((w.begin f.bodyPath (some r)).posed number x p id f.placed).change [r]
    (·.taken w.registers)).begin select (some r)

lemma World.played_of_requested {e : CompiledEntity} {b : CompiledAnimation} {v : Int}
    (hb : requested? e.animations v = some b) (q : Plan) :
    w.played number x r p id f (e.turn q q.lastTick v) =
      (w.granted number x r p id f e.functions.select).turn r (.start e.functions b.plan) := by
  rw [CompiledEntity.turn_of_requested hb q]
  exact (World.turn_of_taken _ r (.start e.functions b.plan) rfl e.functions.select).symm

lemma World.getElem?_granted {t : Stand N} (ht : w.stands[r]? = some t)
    (hown : t.isOwn id = false) (select : ResourcePath) :
    (w.granted number x r p id f select).stands[r]? = some (t.taken w.registers) := by
  change (((w.begin f.bodyPath (some r)).posed number x p id f.placed).change [r]
    (·.taken w.registers)).stands[r]? = _
  have ht' : (w.begin f.bodyPath (some r)).stands[r]? = some t := ht
  rw [World.getElem?_change,World.getElem?_posed,ht']
  simp [hown]

end Played

section Runs

variable {N : Type} [Scalar N] {number : Float → N} {w : World N} {r : Nat} {s : Stand N}
  {p : Vec3 N}

variable {c : ResourcePath → Point N → World N → Option (World N)}

lemma Directive.run_setScore_this (hs : w.stands[r]? = some s) (ha : s.alive = true) (o : String)
    (v : Int) : (setScore .this o v : Directive N).run c ⟨some r,p⟩ w =
      some (w.change [r] (·.setScore o (w.registers.wrap v))) := by
  simp only [run,World.writeScore_this hs ha]

/-- A directive that is left out if one of the animations was asked for. -/
lemma Frames.otherwise_runs (l : List CompiledAnimation) (hs : w.stands[r]? = some s) {v : Int}
    (hv : s.scores Names.pending = some v) (d : Directive Float) :
    ((d.under (notRequested l.length)).map number).run c ⟨some r,p⟩ w =
      if (requested? l v).isNone then (d.map number).run c ⟨some r,p⟩ w else some w := by
  have hmeets : (!s.meets Names.pending (.between 1 l.length)) = (requested? l v).isNone := by
    have hnone := requested?_eq_none l v
    simp only [Stand.meets,hv,Option.any_some,ScoreRange.contains]
    rw [Bool.eq_iff_iff,Option.isNone_iff_eq_none,hnone]
    simp only [Bool.not_eq_true',Bool.and_eq_false_iff,decide_eq_false_iff_not]
    omega
  rw [← hmeets]
  exact Directive.run_execute_if (Clause.points_unlessScore hs ..)

lemma Frames.go_on_runs (hs : w.stands[r]? = some s) (hlive : s.alive = true) (v : Int)
    (f : ResourcePath) (delay : Nat) : Directive.runAll c
      ([setFrame v,schedule f delay].map (Directive.map number)) ⟨some r,p⟩ w =
      some (w.turn r ⟨false,some v,f,delay,[]⟩) := by
  have hset := Directive.run_setScore_this (c := c) (p := p) hs hlive Names.frame v
  simp only [setFrame,schedule,List.map_cons,List.map_nil,Directive.map]
  rw [Directive.runAll_cons_of_run hset,Directive.runAll_cons_of_run rfl,Directive.runAll_nil]
  simp [World.turn,World.setSchedule,World.change,Stand.turned]

/-- Going on to another frame, unless one of the animations was asked for. -/
lemma Frames.otherwise_go_on_runs (l : List CompiledAnimation) (hs : w.stands[r]? = some s)
    (hlive : s.alive = true) {v : Int} (hv : s.scores Names.pending = some v) (u : Int)
    (f : ResourcePath) (delay : Nat) : Directive.runAll c
      ([(setFrame u).under (notRequested l.length),
        (schedule f delay).under (notRequested l.length)].map (Directive.map number))
      ⟨some r,p⟩ w =
      some (if (requested? l v).isNone then w.turn r ⟨false,some u,f,delay,[]⟩ else w) := by
  have hfirst : (((setFrame u).under (notRequested l.length)).map number).run c ⟨some r,p⟩ w = _ :=
    otherwise_runs l hs hv (setFrame u)
  have hset : ((setFrame u).map number).run c ⟨some r,p⟩ w =
      some (w.change [r] (·.setScore Names.frame (w.registers.wrap u))) :=
    Directive.run_setScore_this hs hlive Names.frame u
  cases hr : (requested? l v).isNone with
  | false =>
    have hsecond : (((schedule f delay).under (notRequested l.length)).map number).run c
        ⟨some r,p⟩ w = _ := otherwise_runs l hs hv (schedule f delay)
    rw [hr] at hfirst hsecond
    rw [List.map_cons,List.map_cons,Directive.runAll_cons_of_run hfirst,
      Directive.runAll_cons_of_run hsecond]
    rfl
  | true =>
    have hs' : (w.change [r] (·.setScore Names.frame (w.registers.wrap u))).stands[r]? =
        some (s.setScore Names.frame (w.registers.wrap u)) := by simp [hs]
    have hsecond : (((schedule f delay).under (notRequested l.length)).map number).run c
        ⟨some r,p⟩ (w.change [r] (·.setScore Names.frame (w.registers.wrap u))) = _ :=
      otherwise_runs l hs' hv (schedule f delay)
    have hplain : Directive.runAll c ([setFrame u,schedule f delay].map (Directive.map number))
        ⟨some r,p⟩ w = _ := go_on_runs hs hlive u f delay
    rw [hr] at hfirst hsecond
    rw [List.map_cons,List.map_cons,Directive.runAll_cons_of_run (hfirst.trans hset),
      Directive.runAll_cons,hsecond]
    rw [List.map_cons,List.map_cons,Directive.runAll_cons_of_run hset,
      Directive.runAll_cons] at hplain
    exact hplain

variable {programs : Programs N} {e : CompiledEntity} {x : Exporter} {a : CompiledAnimation}
  (h : e.Lawful x) (hload : e.LoadedIn number programs)

include h hload

lemma CompiledEntity.entry_runs (ha : a ∈ e.animations) (hs : w.stands[r]? = some s)
    (hlive : s.alive = true) (depth : Nat) :
    World.call programs (depth+1) (e.functions.entry a.plan.name) ⟨some r,p⟩ w =
      some (w.turn r (.start e.functions a.plan)) := by
  have hset := Directive.run_setScore_this (c := World.call programs depth)
    (w := w.begin (e.functions.entry a.plan.name) (some r)) (p := p) hs hlive
    Names.frame (a.plan.frameId 0)
  have hprogram : programs (e.functions.entry a.plan.name) = _ := hload.program h (.entry ha)
  rw [World.call_succ hprogram]
  simp only [Frames.entry,Frames.setFrame,Frames.schedule,List.map_cons,List.map_nil,Directive.map]
  rw [Directive.runAll_cons_of_run hset,Directive.runAll_cons_of_run rfl,
    Directive.runAll_cons_of_run rfl,Directive.runAll_nil]
  exact congrArg some (World.setSchedule_setSchedule ..)

/-- Selection from some of the animations, the first of which has number `k + 1`. -/
lemma CompiledEntity.select_from {l : List CompiledAnimation} (hl : ∀ b ∈ l, b ∈ e.animations)
    (k : Nat) (hs : w.stands[r]? = some s) (hlive : s.alive = true) {v : Int}
    (hv : s.scores Names.pending = some v) (depth : Nat) :
    Directive.runAll (World.call programs (depth+1))
      ((((l.map fun a => a.plan.name).zipIdx k).map fun (name,i) =>
        (Directive.call (e.functions.entry name)).under
          [.ifScore Names.pending (.exactly (i + 1))]).map (Directive.map number))
      ⟨some r,p⟩ w =
      some (match requested? l (v - k) with
        | some b => w.turn r (.start e.functions b.plan)
        | none => w) := by
  induction l generalizing k w s with
  | nil => simp [requested?]
  | cons b l ih =>
    have hb : b ∈ e.animations := hl b List.mem_cons_self
    have hrest := fun c hc => hl c (List.mem_cons_of_mem _ hc)
    have hmeets : s.meets Names.pending (.exactly (k+1)) = decide (v - k = 1) := by
      have hiff : v = k + 1 ↔ v - k = 1 := by omega
      simp only [Stand.meets,hv,Option.any_some,ScoreRange.contains,hiff]
    have hfirst : (Directive.execute [.ifScore Names.pending (.exactly (k+1))]
        (.call (e.functions.entry b.plan.name))).run (World.call programs (depth+1))
        ⟨some r,p⟩ w = _ := Directive.run_execute_if (Clause.points_ifScore hs ..)
    rw [hmeets] at hfirst
    simp only [List.map_cons,List.zipIdx_cons,Directive.under,Directive.map] at ih ⊢
    rw [Directive.runAll_cons,hfirst,requested?_cons]
    have hback : v - ((k+1 : Nat) : Int) = v - k - 1 := by omega
    by_cases hk : v - k = 1
    · -- Past the start nothing more is met, for the turn leaves the request as it is.
      have hcall : (Directive.call (e.functions.entry b.plan.name)).run
          (World.call programs (depth+1)) ⟨some r,p⟩ w =
            some (w.turn r (.start e.functions b.plan)) :=
        entry_runs h hload hb hs hlive depth
      have hs' : (w.turn r (.start e.functions b.plan)).stands[r]? =
          some (s.turned w.registers (.start e.functions b.plan)) := by
        simp [World.turn,hs]
      have hv' : (s.turned w.registers (.start e.functions b.plan)).scores Names.pending =
          some v := hv
      have hdone := ih hrest (k+1) hs' hlive hv'
      rw [hback,hk] at hdone
      simpa [hk,hcall,requested?] using hdone
    · have hskip := ih hrest (k+1) hs hlive hv
      rw [hback] at hskip
      simpa [hk] using hskip

lemma CompiledEntity.select_runs (hs : w.stands[r]? = some s) (hlive : s.alive = true) {v : Int}
    (hv : s.scores Names.pending = some v) (depth : Nat) :
    World.call programs (depth+2) e.functions.select ⟨some r,p⟩ w =
      some (match requested? e.animations v with
        | some b => (w.begin e.functions.select (some r)).turn r (.start e.functions b.plan)
        | none => w.begin e.functions.select (some r)) := by
  have hprogram : programs e.functions.select = _ := hload.program h .select
  have hruns := select_from h hload (fun b hb => hb) 0
    (w := w.begin e.functions.select (some r)) (p := p) hs hlive hv depth
  rw [Nat.cast_zero,sub_zero] at hruns
  rw [World.call_succ hprogram]
  exact hruns

lemma CompiledEntity.takeRequest_runs (hs : w.stands[r]? = some s) (hlive : s.alive = true)
    (depth : Nat) : Directive.runAll (World.call programs (depth+2))
      ((Frames.takeRequest e.functions).map (Directive.map number)) ⟨some r,p⟩ w =
      some (match requested? e.animations (w.registers.wrap (s.score Names.next)) with
        | some b => ((w.change [r] (·.taken w.registers)).begin e.functions.select
            (some r)).turn r (.start e.functions b.plan)
        | none => (w.change [r] (·.taken w.registers)).begin e.functions.select (some r)) := by
  let c := World.call programs (depth+2)
  have hcopy : (Directive.operateScore .this Names.pending .assign .this Names.next :
      Directive N).run c ⟨some r,p⟩ w =
      some (w.change [r] fun s =>
        s.setScore Names.pending (w.registers.wrap (s.score Names.next))) := by
    simp only [Directive.run,World.readScore_this hs hlive,World.writeScore_this hs hlive]
    exact congrArg some (World.change_single_congr hs rfl)
  have hs₁ : (w.change [r] fun s => s.setScore Names.pending
      (w.registers.wrap (s.score Names.next))).stands[r]? =
      some (s.setScore Names.pending (w.registers.wrap (s.score Names.next))) := by simp [hs]
  have hclear := Directive.run_setScore_this (c := c) (p := p) hs₁ hlive Names.next 0
  have hs₂ : (w.change [r] (·.taken w.registers)).stands[r]? = some (s.taken w.registers) := by
    simp [hs]
  have hv : (s.taken w.registers).scores Names.pending =
      some (w.registers.wrap (s.score Names.next)) := by
    simp [Stand.taken,Stand.scores_setScore,show Names.pending ≠ Names.next by decide]
  have hselect : (Directive.call e.functions.select).run c ⟨some r,p⟩
      (w.change [r] (·.taken w.registers)) = _ := select_runs h hload hs₂ hlive hv depth
  simp only [Frames.takeRequest,List.map_cons,List.map_nil,Directive.map]
  rw [Directive.runAll_cons_of_run hcopy,Directive.runAll_cons_of_run hclear,
    World.change_change]
  exact Directive.runAll_cons_of_run hselect

/-- After the request was taken and one of the animations started, the rest is left out. -/
lemma CompiledEntity.takeRequest_only (hs : w.stands[r]? = some s) (hlive : s.alive = true)
    {b : CompiledAnimation}
    (hb : requested? e.animations (w.registers.wrap (s.score Names.next)) = some b)
    (ds : List (Directive Float)) (depth : Nat) :
    Directive.runAll (World.call programs (depth+2))
      ((Frames.takeRequest e.functions ++ ds.map fun d =>
        d.under (Frames.notRequested e.animations.length)).map (Directive.map number))
      ⟨some r,p⟩ w =
      some (w.turn r ⟨true,some (b.plan.frameId 0),e.functions.dispatcher b.plan.name 0,
        Frames.entryDelay,[e.functions.select,e.functions.entry b.plan.name]⟩) := by
  have htake := takeRequest_runs h hload (p := p) hs hlive depth
  have hturn : ((w.change [r] (·.taken w.registers)).begin e.functions.select (some r)).turn r
      (.start e.functions b.plan) = w.turn r ⟨true,some (b.plan.frameId 0),
        e.functions.dispatcher b.plan.name 0,Frames.entryDelay,
        [e.functions.select,e.functions.entry b.plan.name]⟩ := w.turn_of_taken r _ rfl _
  simp only [hb,hturn] at htake
  generalize hv : w.registers.wrap (s.score Names.next) = v at hb
  have hs' : (w.turn r ⟨true,some (b.plan.frameId 0),e.functions.dispatcher b.plan.name 0,
      Frames.entryDelay,[e.functions.select,e.functions.entry b.plan.name]⟩).stands[r]? =
      some ((s.taken w.registers).setScore Names.frame (w.registers.wrap (b.plan.frameId 0))) := by
    simp [World.turn,Stand.turned,hs]
  have hpending : ((s.taken w.registers).setScore Names.frame
      (w.registers.wrap (b.plan.frameId 0))).scores Names.pending = some v := by
    simp [Stand.taken,Stand.scores_setScore,show Names.pending ≠ Names.next by decide,
      show Names.pending ≠ Names.frame by decide,hv]
  rw [List.map_append,Directive.runAll_append_of_run htake]
  clear htake hturn
  induction ds with
  | nil => rfl
  | cons d ds ih =>
    rw [List.map_cons,List.map_cons,Directive.runAll_cons,
      Frames.otherwise_runs e.animations hs' hpending,hb]
    exact ih

/-- After the request was taken and none of the animations started, the root goes on. -/
lemma CompiledEntity.takeRequest_go_on (hs : w.stands[r]? = some s) (hlive : s.alive = true)
    (hnone : requested? e.animations (w.registers.wrap (s.score Names.next)) = none) (u : Int)
    (f : ResourcePath) (delay depth : Nat) :
    Directive.runAll (World.call programs (depth+2))
      ((Frames.takeRequest e.functions ++
        [(Frames.setFrame u).under (Frames.notRequested e.animations.length),
          (Frames.schedule f delay).under (Frames.notRequested e.animations.length)]).map
        (Directive.map number)) ⟨some r,p⟩ w =
      some (w.turn r ⟨true,some u,f,delay,[e.functions.select]⟩) := by
  have htake := takeRequest_runs h hload (p := p) hs hlive depth
  simp only [hnone] at htake
  generalize hv : w.registers.wrap (s.score Names.next) = v at hnone
  have htaken : ((w.change [r] (·.taken w.registers)).begin e.functions.select
      (some r)).stands[r]? = some (s.taken w.registers) := by
    simp [World.begin,hs]
  have hpending : (s.taken w.registers).scores Names.pending = some v := by
    simp [Stand.taken,Stand.scores_setScore,show Names.pending ≠ Names.next by decide,hv]
  rw [List.map_append,Directive.runAll_append_of_run htake,
    Frames.otherwise_go_on_runs e.animations htaken hlive hpending,hnone]
  exact congrArg some (w.turn_of_taken r _ rfl _)

/-- The same where the root stays on its frame. -/
lemma CompiledEntity.takeRequest_stay (hs : w.stands[r]? = some s) (hlive : s.alive = true)
    (hnone : requested? e.animations (w.registers.wrap (s.score Names.next)) = none)
    (f : ResourcePath) (delay depth : Nat) :
    Directive.runAll (World.call programs (depth+2))
      ((Frames.takeRequest e.functions ++
        [(Frames.schedule f delay).under (Frames.notRequested e.animations.length)]).map
        (Directive.map number)) ⟨some r,p⟩ w =
      some (w.turn r ⟨true,none,f,delay,[e.functions.select]⟩) := by
  have htake := takeRequest_runs h hload (p := p) hs hlive depth
  simp only [hnone] at htake
  generalize hv : w.registers.wrap (s.score Names.next) = v at hnone
  have htaken : ((w.change [r] (·.taken w.registers)).begin e.functions.select
      (some r)).stands[r]? = some (s.taken w.registers) := by
    simp [World.begin,hs]
  have hpending : (s.taken w.registers).scores Names.pending = some v := by
    simp [Stand.taken,Stand.scores_setScore,show Names.pending ≠ Names.next by decide,hv]
  have hstay : (((w.change [r] (·.taken w.registers)).begin e.functions.select
      (some r)).setSchedule f (some (w.now + delay))) =
      ((w.change [r] (·.taken w.registers)).begin e.functions.select (some r)).turn r
        ⟨false,none,f,delay,[]⟩ := by
    simp [World.turn,World.setSchedule,World.begin,World.change,Stand.turned,Function.comp_def]
  rw [List.map_append,Directive.runAll_append_of_run htake,List.map_singleton,
    Directive.runAll_cons,Frames.otherwise_runs e.animations htaken hpending,hnone]
  rw [← w.turn_of_taken r ⟨false,none,f,delay,[]⟩ rfl,← hstay]
  rfl

/-- A transition is the turn that the request at hand leads to. -/
theorem CompiledEntity.transition_runs (a : CompiledAnimation) (hs : w.stands[r]? = some s)
    (hlive : s.alive = true) (tick depth : Nat) :
    Directive.runAll (World.call programs (depth+2))
      ((Frames.transition e.functions e.animations.length a.plan tick).map (Directive.map number))
      ⟨some r,p⟩ w =
      some (w.turn r (e.turn a.plan tick (w.registers.wrap (s.score Names.next)))) := by
  unfold Frames.transition CompiledEntity.turn
  cases a.plan.successor tick with
  | next following => exact Frames.go_on_runs hs hlive ..
  | terminal =>
    cases hb : requested? e.animations (w.registers.wrap (s.score Names.next)) with
    | some b => exact takeRequest_only h hload hs hlive hb [_,_] depth
    | none => exact takeRequest_go_on h hload hs hlive hb ..
  | hold again =>
    cases hb : requested? e.animations (w.registers.wrap (s.score Names.next)) with
    | some b => exact takeRequest_only h hload hs hlive hb [_] depth
    | none => exact takeRequest_stay h hload hs hlive hb ..
  | loopTo first =>
    cases hb : requested? e.animations (w.registers.wrap (s.score Names.next)) with
    | some b => exact takeRequest_only h hload hs hlive hb [_,_] depth
    | none => exact takeRequest_go_on h hload hs hlive hb ..

/-- A body poses the proxies of the root that runs it, and then the root takes its turn. -/
theorem CompiledEntity.body_runs (ha : a ∈ e.animations) {f : Frame} (hf : f ∈ a.frames)
    (hw : w.Settled) (hs : w.stands[r]? = some s) (hlive : s.alive = true)
    (hproxy : s.tags Names.proxy = false) {id : Int} (hid : s.scores Names.id = some id)
    (hwrap : w.registers.wrap id = id)
    (hone : ∀ l ∈ e.leaves, ∀ (i j : Nat) (s t : Stand N), w.stands[i]? = some s →
      w.stands[j]? = some t → s.isOwn id = true → s.tags (x.tag l) = true →
      t.isOwn id = true → t.tags (x.tag l) = true → i = j) (depth : Nat) :
    World.call programs (depth+3) f.bodyPath ⟨some r,p⟩ w =
      some (w.played number x r p id f
        (e.turn a.plan f.tick (w.registers.wrap (s.score Names.next)))) := by
  have hl := h.frame ha hf
  have hprogram : programs f.bodyPath = some ((Frames.body e.functions e.animations.length x
      a.plan f.tick f.placed).map (Directive.map number)) := by
    rw [hl.bodyPath]
    exact hload.program h (.body ha hf)
  have hone' : ∀ l ∈ f.placed, ∀ (i j : Nat) (s t : Stand N), w.stands[i]? = some s →
      w.stands[j]? = some t → s.isOwn id = true → s.tags (x.tag l.leaf) = true →
      t.isOwn id = true → t.tags (x.tag l.leaf) = true → i = j := by
    intro l hl'
    exact hone l.leaf (hl.placed ▸ List.mem_map_of_mem hl')
  have hsettled : (w.begin f.bodyPath (some r)).Settled := ⟨hw.active,hw.scored⟩
  have hposing : Directive.runAll (World.call programs (depth+2))
      ((Frames.posing x f.placed).map (Directive.map number)) ⟨some r,p⟩
      (w.begin f.bodyPath (some r)) = _ :=
    Frames.posing_runs hsettled hs hlive hid hwrap x f.placed hone' p
  have hs' : ((w.begin f.bodyPath (some r)).posed number x p id f.placed).stands[r]? =
      some s := by
    have hown : s.isOwn id = false := s.isOwn_of_plain hproxy id
    simp [World.posed,World.begin,World.setHolder,hs,hown]
  rw [World.call_succ hprogram,Frames.body,List.map_append,
    Directive.runAll_append_of_run hposing]
  exact transition_runs h hload a hs' hlive f.tick depth

end Runs

end RigPack
