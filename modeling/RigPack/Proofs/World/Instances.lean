import RigPack.Proofs.World.Bodies

/-!
How instances come and go, and how dispatchers find them. Spawning puts a root and its proxies at
the end of the world; removal kills a root and its own proxies; a dispatcher runs its body as one
waiting root after another.
-/

namespace RigPack

namespace World

variable {N : Type} {w : World N}

def extend (w : World N) (l : List (Stand N)) : World N :=
  { w with stands := w.stands ++ l }

lemma getElem?_extend (s : Stand N) (l : List (Stand N)) :
    (w.extend (s::l)).stands[w.stands.length]? = some s := by simp [extend]

lemma extend_change (s : Stand N) (l : List (Stand N)) (f : Stand N → Stand N) :
    (w.extend (s::l)).change [w.stands.length] f = w.extend (f s::l) := by
  simp only [change,extend,List.mem_singleton]
  congr 1
  apply List.ext_getElem?
  intro i
  rw [List.getElem?_mapIdx]
  rcases Nat.lt_trichotomy i w.stands.length with hi | rfl | hi
  · rw [List.getElem?_append_left hi,List.getElem?_append_left hi]
    cases w.stands[i]? <;> simp [Nat.ne_of_lt hi]
  · simp
  · obtain ⟨k,rfl⟩ := Nat.exists_eq_add_of_lt hi
    have hk : w.stands.length + k + 1 - w.stands.length = k+1 := by omega
    rw [List.getElem?_append_right (by omega),List.getElem?_append_right (by omega),hk,
      List.getElem?_cons_succ,List.getElem?_cons_succ]
    cases l[k]? with
    | none => rfl
    | some t =>
      rw [Option.map_some,if_neg (by omega)]

/-- A change that spares the stands there were. -/
lemma extend_changeEvery {f : Stand N → Stand N} (h : ∀ s ∈ w.stands, f s = s)
    (l : List (Stand N)) : (w.extend l).changeEvery f = w.extend (l.map f) := by
  have hw : w.stands.map f = w.stands := by
    rw [List.map_congr_left h,List.map_id']
  simp [changeEvery,extend,hw]

end World

namespace Stand

variable {N : Type}

/-- A root that was just spawned. -/
def root (entity : String) (id : Int) (p : Vec3 N) : Stand N :=
  ((({ position := p : Stand N }.setScore Names.id id).setTag (Names.entityTag entity)
    true).setScore Names.next 0).setScore Names.frame Names.dormantFrame

/-- A proxy as it is summoned, and as the instance then has it. -/
def made (x : Exporter) (p : Vec3 N) (l : Leaf Float) : Stand N :=
  { tags := (· ∈ [Names.fresh,x.tag l,Names.proxy]), position := p, customId := some l.customId }

def proxy (x : Exporter) (id : Int) (p : Vec3 N) (l : Leaf Float) : Stand N :=
  (((made x p l).setScore Names.id id).setTag Names.unposed true).setTag Names.fresh false

/-- A proxy whose instance was taken away. -/
def killed (s : Stand N) (g : Registers) (id : Int) : Stand N :=
  { s.isolated g id with alive := false }

/-- Of what isolation has found, removal leaves the other instances as they were. -/
lemma released_killed {s : Stand N} {g : Registers} {id : Int} (hid : g.wrap id = id)
    (hactive : s.alive = true → s.tags Names.active = false)
    (hscored : s.isProxy = true → ∃ v, s.scores Names.id = some v ∧ g.wrap v = v) :
    let i := s.isolated g id
    (if i.isOwn 0 then { i with alive := false } else i).released g id =
      if s.isOwn id then s.killed g id else s := by
  intro i
  have hown : i.isOwn 0 = s.isOwn id := s.isOwn_zero_isolated hid hscored
  rw [hown]
  by_cases ho : s.isOwn id = true
  · rw [if_pos ho,if_pos ho]
    simp [released,isProxy,killed,i]
  · rw [if_neg ho,if_neg ho]
    exact s.released_isolated hactive hscored ho

end Stand

namespace Support

/-- The part of spawning in which the root takes the next id and its entity's tag. -/
def naming (tag : String) : Program := [
  .addScore (.holder Names.instances) Names.id 1,
  .operateScore .this Names.id .assign (.holder Names.instances) Names.id,
  .addTag .this tag]

/-- The part in which the root gives its id to the proxies that were made for it. -/
def adoption : Program := [
  .operateScore (.tagged Names.fresh) Names.id .assign .this Names.id,
  .addTag (.tagged Names.fresh) Names.unposed,
  .removeTag (.tagged Names.fresh) Names.fresh]

lemma spawn_eq (x : Exporter) (leaves : List (Leaf Float)) : spawn x leaves =
    naming (Names.entityTag x.entity) ++ (.blank::(leaves.map x.spawn ++ (.blank::(adoption ++
      [.setScore .this Names.next 0,.setScore .this Names.frame Names.dormantFrame])))) := by
  simp [spawn,naming,adoption]

end Support

section Runs

variable {N : Type} [Scalar N] {number : Float → N} {w : World N} {programs : Programs N}
  {e : CompiledEntity} {x : Exporter} (h : e.Lawful x) (hload : e.LoadedIn number programs)

/-- The world after an instance was taken away. -/
def World.removed (w : World N) (f : Functions) (r : Nat) (id : Int) : World N :=
  (((w.begin f.remove (some r)).setHolder Names.compared Names.id id).changeEvery fun s =>
    if s.isOwn id then s.killed w.registers id else s).change [r] ({ · with alive := false })

omit [Scalar N] in
lemma World.getElem?_removed (w : World N) (f : Functions) (r : Nat) (id : Int) (i : Nat) :
    (w.removed f r id).stands[i]? = w.stands[i]?.map fun s =>
      let s := if s.isOwn id then s.killed w.registers id else s
      if i = r then { s with alive := false } else s := by
  rw [removed,getElem?_change,getElem?_changeEvery,Option.map_map]
  simp only [List.mem_singleton]
  rfl

omit [Scalar N] in
/-- Who lives on was not of the instance, and was not touched. -/
lemma World.alive_removed {f : Functions} {r : Nat} {id : Int} {i : Nat} {s : Stand N}
    (hs : (w.removed f r id).stands[i]? = some s) (ha : s.alive = true) :
    w.stands[i]? = some s ∧ i ≠ r ∧ s.isOwn id = false := by
  rw [getElem?_removed,Option.map_eq_some_iff] at hs
  obtain ⟨t,ht,rfl⟩ := hs
  dsimp only at ha ⊢
  by_cases hi : i = r
  · rw [if_pos hi] at ha
    cases ha
  rw [if_neg hi] at ha ⊢
  by_cases ho : t.isOwn id = true
  · rw [if_pos ho] at ha
    cases ha
  · rw [if_neg ho]
    exact ⟨ht,hi,by simpa using ho⟩

omit [Scalar N] in
lemma World.other_removed {f : Functions} {r : Nat} {id : Int} {i : Nat} {s : Stand N}
    (hs : w.stands[i]? = some s) (hi : i ≠ r) (ho : s.isOwn id = false) :
    (w.removed f r id).stands[i]? = some s := by
  rw [getElem?_removed,hs]
  simp [hi,ho]

omit [Scalar N] in
lemma World.root_removed {f : Functions} {r : Nat} {id : Int} {s : Stand N}
    (hs : w.stands[r]? = some s) (ho : s.isOwn id = false) :
    (w.removed f r id).stands[r]? = some { s with alive := false } := by
  rw [getElem?_removed,hs]
  simp [ho]

omit [Scalar N] in
/-- Dead or alive, a stand keeps its place. -/
lemma World.exists_removed {i : Nat} {s : Stand N} (hs : w.stands[i]? = some s) (f : Functions)
    (r : Nat) (id : Int) : ∃ s', (w.removed f r id).stands[i]? = some s' ∧
      s'.alive = (s.alive && decide (i ≠ r) && !s.isOwn id) := by
  rw [getElem?_removed,hs]
  refine ⟨_,rfl,?_⟩
  dsimp only
  by_cases hi : i = r
  · simp [hi]
  · cases ho : s.isOwn id <;> simp [hi,Stand.killed]

omit [Scalar N] in
lemma World.holders_removed (w : World N) (f : Functions) (r : Nat) (id : Int)
    {holder objective : String} (h : ¬(holder = Names.compared ∧ objective = Names.id)) :
    (w.removed f r id).holders holder objective = w.holders holder objective := if_neg h

/-- The world with one more instance. -/
def World.spawned (w : World N) (f : Functions) (x : Exporter) (leaves : List (Leaf Float))
    (p : Vec3 N) : World N :=
  let id := w.holders Names.instances Names.id + 1
  ((w.begin f.spawn (some w.stands.length)).setHolder Names.instances Names.id id).extend
    (.root x.entity id p::leaves.map (.proxy x id p))

omit [Scalar N] in
lemma World.count_spawned (w : World N) (f : Functions) (x : Exporter) (leaves : List (Leaf Float))
    (p : Vec3 N) : (w.spawned f x leaves p).holders Names.instances Names.id =
      w.holders Names.instances Names.id + 1 := by
  simp [spawned,extend,setHolder]

omit h hload in
lemma Support.summons_run {c : ResourcePath → Point N → World N → Option (World N)}
    (leaves : List (Leaf Float)) (q : Point N) :
    Directive.runAll c ((leaves.map x.spawn).map (Directive.map number)) q w =
      some (w.extend (leaves.map (.made x q.position))) := by
  induction leaves generalizing w with
  | nil => simp [World.extend]
  | cons l leaves ih =>
    have hrest := ih (w := w.extend [.made x q.position l])
    have hfirst : ((x.spawn l).map number).run c q w = some (w.extend [.made x q.position l]) := rfl
    rw [List.map_cons,List.map_cons,Directive.runAll_cons_of_run hfirst,hrest]
    simp [World.extend]

include h hload

lemma CompiledEntity.load_runs (hg : w.registers = .unbounded) (q : Point N) (depth : Nat) :
    World.call programs (depth+1) e.functions.load q w =
      some (w.begin e.functions.load q.executor) := by
  have hprogram : programs e.functions.load = _ := hload.program h .load
  have hsame : (w.begin e.functions.load q.executor).writeScore q (.holder Names.instances)
      Names.id (· + 0) = some (w.begin e.functions.load q.executor) := by
    simp only [World.writeScore,World.begin,World.setHolder,hg,Registers.wrap,Int.add_zero]
    refine congrArg some ?_
    congr 1
    funext holder objective
    split
    · rename_i heq
      rw [heq.1,heq.2]
    · rfl
  rw [World.call_succ hprogram]
  simp only [Support.load,List.map_cons,List.map_nil,Directive.map]
  iterate 4 rw [Directive.runAll_cons_of_run rfl]
  exact Directive.runAll_cons_of_run hsame

lemma CompiledEntity.dormant_runs (q : Point N) (depth : Nat) :
    World.call programs (depth+1) e.functions.dormant q w =
      some (w.begin e.functions.dormant q.executor) := by
  have hprogram : programs e.functions.dormant = _ := hload.program h .dormant
  rw [World.call_succ hprogram]
  rfl

/-- Removal runs as a root and kills it and its own proxies. -/
lemma CompiledEntity.remove_runs (hw : w.Settled) {r : Nat} {s : Stand N}
    (hs : w.stands[r]? = some s) (hlive : s.alive = true) (hproxy : s.tags Names.proxy = false)
    {id : Int} (hid : s.scores Names.id = some id) (hwrap : w.registers.wrap id = id)
    (p : Vec3 N) (depth : Nat) :
    World.call programs (depth+1) e.functions.remove ⟨some r,p⟩ w =
      some (w.removed e.functions r id) := by
  let c := World.call programs depth
  let v := (w.begin e.functions.remove (some r)).setHolder Names.compared Names.id id
  have hprogram : programs e.functions.remove = _ := hload.program h .remove
  have hsettled : (w.begin e.functions.remove (some r)).Settled := ⟨hw.active,hw.scored⟩
  have hisolate : Directive.runAll c (Frames.isolate.map (Directive.map number)) ⟨some r,p⟩
      (w.begin e.functions.remove (some r)) =
      some (v.changeEvery (Stand.isolated · w.registers id)) :=
    Frames.isolate_runs hsettled hs hlive hid hwrap p
  have hkill (u : World N) :
      (Directive.kill Frames.proxiesAtZero : Directive N).run c ⟨some r,p⟩ u =
        some (u.changeEvery fun s => if s.isOwn 0 then { s with alive := false } else s) := by
    rw [← World.places_proxiesAtZero ⟨some r,p⟩]
    rfl
  have hrelease (u : World N) (hu : u.holders Names.compared Names.id = id) :
      Directive.runAll c (Frames.release.map (Directive.map number)) ⟨some r,p⟩ u =
      some (u.changeEvery (Stand.released · u.registers id)) := Frames.release_runs hu _
  -- What becomes of each stand before the root itself is killed.
  have hproxies : ((v.changeEvery (Stand.isolated · w.registers id)).changeEvery fun s =>
      if s.isOwn 0 then { s with alive := false } else s).changeEvery
        (Stand.released · w.registers id) =
      v.changeEvery fun s => if s.isOwn id then s.killed w.registers id else s := by
    rw [World.changeEvery_changeEvery,World.changeEvery_changeEvery]
    refine World.changeEvery_congr fun s hs => ?_
    exact Stand.released_killed hwrap (hw.active s hs) (hw.scored s hs)
  have hs' : (v.changeEvery fun s =>
      if s.isOwn id then s.killed w.registers id else s).stands[r]? = some s := by
    have hown : s.isOwn id = false := s.isOwn_of_plain hproxy id
    simp [v,World.begin,hs,hown]
  have hroot : (Directive.kill .this : Directive N).run c ⟨some r,p⟩ (v.changeEvery fun s =>
      if s.isOwn id then s.killed w.registers id else s) = some (w.removed e.functions r id) := by
    simp only [Directive.run,World.places_this hs' hlive]
    rfl
  rw [World.call_succ hprogram,Support.remove]
  simp only [List.map_append,List.append_assoc,List.map_cons,List.map_nil,Directive.map]
  rw [Directive.runAll_append_of_run hisolate,List.singleton_append,
    Directive.runAll_cons_of_run (hkill _),
    Directive.runAll_append_of_run (hrelease _ (by simp [v,World.changeEvery,World.setHolder]))]
  exact (congrArg _ hproxies).trans (Directive.runAll_cons_of_run hroot)

section Spawn

variable {c : ResourcePath → Point N → World N → Option (World N)} {p : Vec3 N} {s : Stand N}

omit h hload in
lemma Support.naming_runs (hg : w.registers = .unbounded) (tag : String) (hlive : s.alive = true) :
    let id := w.holders Names.instances Names.id + 1
    Directive.runAll c ((naming tag).map (Directive.map number)) ⟨some w.stands.length,p⟩
      (w.extend [s]) = some ((w.setHolder Names.instances Names.id id).extend
        [(s.setScore Names.id id).setTag tag true]) := by
  intro id
  let v := w.setHolder Names.instances Names.id id
  have hwrap (k : Int) : w.registers.wrap k = k := by rw [hg]; rfl
  have hthis (s : Stand N) : (v.extend [s]).stands[w.stands.length]? = some s :=
    World.getElem?_extend (w := v) s []
  have hchange (s : Stand N) (f : Stand N → Stand N) :
      (v.extend [s]).change [w.stands.length] f = v.extend [f s] :=
    World.extend_change (w := v) s [] f
  have hcount : (Directive.addScore (.holder Names.instances) Names.id 1 : Directive N).run c
      ⟨some w.stands.length,p⟩ (w.extend [s]) = some (v.extend [s]) := by
    have hrun : (Directive.addScore (.holder Names.instances) Names.id 1 : Directive N).run c
        ⟨some w.stands.length,p⟩ (w.extend [s]) =
        some ((w.extend [s]).setHolder Names.instances Names.id (w.registers.wrap id)) := rfl
    rw [hrun,hwrap]
    rfl
  have htake : (Directive.operateScore .this Names.id .assign (.holder Names.instances) Names.id :
      Directive N).run c ⟨some w.stands.length,p⟩ (v.extend [s]) =
      some (v.extend [s.setScore Names.id id]) := by
    have hread : (v.extend [s]).readScore ⟨some w.stands.length,p⟩ (.holder Names.instances)
        Names.id = some id := by simp [World.readScore,World.extend,v,World.setHolder]
    have hk : (v.extend [s]).registers.wrap id = id := hwrap id
    simp only [Directive.run,hread,World.writeScore_this (hthis s) hlive,Option.bind_eq_bind,
      Option.bind_some,ScoreOperator.apply,hk,hchange]
  have hname : (Directive.addTag .this tag : Directive N).run c ⟨some w.stands.length,p⟩
      (v.extend [s.setScore Names.id id]) =
      some (v.extend [(s.setScore Names.id id).setTag tag true]) := by
    simp only [Directive.run,World.places_this (hthis (s.setScore Names.id id)) hlive]
    exact congrArg some (hchange _ _)
  simp only [naming,List.map_cons,List.map_nil,Directive.map]
  rw [Directive.runAll_cons_of_run hcount,Directive.runAll_cons_of_run htake,
    Directive.runAll_cons_of_run hname]
  rfl

omit h hload in
lemma Support.adoption_runs (hg : w.registers = .unbounded)
    (hfresh : ∀ s ∈ w.stands, s.alive = true → s.tags Names.fresh = false)
    (hlive : s.alive = true) (hs : s.tags Names.fresh = false) {id : Int}
    (hid : s.score Names.id = id) (leaves : List (Leaf Float)) :
    Directive.runAll c (adoption.map (Directive.map number)) ⟨some w.stands.length,p⟩
      (w.extend (s::leaves.map (.made x p))) =
      some (w.extend (s::leaves.map (.proxy x id p))) := by
  let v := w.extend (s::leaves.map (.made x p))
  have hthis : v.stands[w.stands.length]? = some s := World.getElem?_extend s _
  have hids : (Directive.operateScore (.tagged Names.fresh) Names.id .assign .this Names.id :
      Directive N).run c ⟨some w.stands.length,p⟩ v = some (v.changeEvery fun s =>
        if s.alive && s.tags Names.fresh then s.setScore Names.id id else s) := by
    have hk : v.registers.wrap id = id := by
      change w.registers.wrap id = id
      rw [hg]
      rfl
    simp only [Directive.run,World.readScore_this hthis hlive,hid,Option.bind_eq_bind,
      Option.bind_some,Target.tagged,ScoreOperator.apply]
    rw [World.writeScore_select _ rfl]
    simp only [World.admits_tagged,hk]
  let adopt (t : Stand N) : Stand N :=
    if t.alive && t.tags Names.fresh then
      ((t.setScore Names.id id).setTag Names.unposed true).setTag Names.fresh false
    else t
  have hspared (t : Stand N) (ht : t.alive = true → t.tags Names.fresh = false) :
      adopt t = t := by
    refine if_neg fun hf => ?_
    rw [Bool.and_eq_true] at hf
    exact absurd hf.2 (by rw [ht hf.1]; decide)
  simp only [adoption,List.map_cons,List.map_nil,Directive.map]
  rw [Directive.runAll_cons_of_run hids,Directive.runAll_cons_of_run Directive.run_addTag_tagged,
    Directive.runAll_cons_of_run Directive.run_removeTag_tagged,Directive.runAll_nil,
    World.changeEvery_changeEvery,World.changeEvery_changeEvery]
  refine congrArg some ?_
  calc v.changeEvery _ = v.changeEvery adopt := by
        refine World.changeEvery_congr fun t _ => ?_
        have hu : Names.fresh ≠ Names.unposed := by decide
        by_cases hf : (t.alive && t.tags Names.fresh) = true
        · obtain ⟨ha,ht⟩ : t.alive = true ∧ t.tags Names.fresh = true := by simpa using hf
          simp [adopt,ha,ht,Stand.tags_setTag,hu]
        · simp only [adopt,hf,Bool.false_eq_true,if_false]
    _ = w.extend ((s::leaves.map (.made x p)).map adopt) :=
        World.extend_changeEvery (fun t ht => hspared t (hfresh t ht)) _
    _ = w.extend (s::leaves.map (.proxy x id p)) := by
        rw [List.map_cons,hspared s fun _ => hs,List.map_map]
        rfl

end Spawn

/-- Spawning runs as a stand that was just put into the world, where nothing is fresh. -/
lemma CompiledEntity.spawn_runs (hg : w.registers = .unbounded)
    (hfresh : ∀ s ∈ w.stands, s.alive = true → s.tags Names.fresh = false) (p : Vec3 N)
    (depth : Nat) : World.call programs (depth+1) e.functions.spawn ⟨some w.stands.length,p⟩
      (w.add { position := p }) = some (w.spawned e.functions x e.leaves p) := by
  let c := World.call programs depth
  let id := w.holders Names.instances Names.id + 1
  let v := (w.begin e.functions.spawn (some w.stands.length)).setHolder Names.instances Names.id id
  let s : Stand N :=
    (({ position := p : Stand N }.setScore Names.id id).setTag (Names.entityTag x.entity) true)
  have hg' : v.registers = .unbounded := hg
  have hwrap (k : Int) : v.registers.wrap k = k := by rw [hg']; rfl
  have hprogram : programs e.functions.spawn = _ := hload.program h .spawn
  have hnaming : Directive.runAll c ((Support.naming (Names.entityTag x.entity)).map
      (Directive.map number)) ⟨some w.stands.length,p⟩
      ((w.begin e.functions.spawn (some w.stands.length)).extend [{ position := p }]) =
      some (v.extend [s]) :=
    Support.naming_runs (w := w.begin e.functions.spawn (some w.stands.length)) hg
      (Names.entityTag x.entity) rfl
  have hblank (u : World N) : Directive.blank.run c ⟨some w.stands.length,p⟩ u = some u := rfl
  have hsummons : Directive.runAll c ((e.leaves.map x.spawn).map (Directive.map number))
      ⟨some w.stands.length,p⟩ (v.extend [s]) = some (v.extend (s::e.leaves.map (.made x p))) := by
    rw [Support.summons_run]
    simp [World.extend]
  have hs : s.tags Names.fresh = false := by
    have hne : Names.fresh ≠ Names.entityTag x.entity := fun heq => h.tag_free (heq ▸ by decide)
    simp [s,Stand.tags_setTag,hne]
  have hadoption : Directive.runAll c (Support.adoption.map (Directive.map number))
      ⟨some w.stands.length,p⟩ (v.extend (s::e.leaves.map (.made x p))) =
      some (v.extend (s::e.leaves.map (.proxy x id p))) :=
    Support.adoption_runs (w := v) hg' hfresh rfl hs rfl e.leaves
  have hset (t : Stand N) (ht : t.alive = true) (o : String) (k : Int) :
      (Directive.setScore .this o k : Directive N).run c ⟨some w.stands.length,p⟩
        (v.extend (t::e.leaves.map (.proxy x id p))) =
      some (v.extend (t.setScore o k::e.leaves.map (.proxy x id p))) := by
    have hthis : (v.extend (t::e.leaves.map (.proxy x id p))).stands[w.stands.length]? = some t :=
      World.getElem?_extend (w := v) t _
    have hk : (v.extend (t::e.leaves.map (.proxy x id p))).registers.wrap k = k := hwrap k
    have hchange := World.extend_change (w := v) t (e.leaves.map (.proxy x id p))
      (·.setScore o k)
    rw [Directive.run_setScore_this hthis ht,hk]
    exact congrArg some hchange
  rw [World.call_succ hprogram,Support.spawn_eq]
  simp only [List.map_append,List.map_cons,List.map_nil,Directive.map]
  change Directive.runAll c _ _ ((w.begin e.functions.spawn (some w.stands.length)).extend
    [{ position := p }]) = _
  rw [Directive.runAll_append_of_run hnaming,Directive.runAll_cons_of_run (hblank _),
    Directive.runAll_append_of_run hsummons,Directive.runAll_cons_of_run (hblank _),
    Directive.runAll_append_of_run hadoption,Directive.runAll_cons_of_run (hset _ rfl _ _),
    Directive.runAll_cons_of_run (hset _ rfl _ _)]
  rfl

/-- The point at which a stand runs what it was found for. -/
def World.pointOf (w : World N) (q : Point N) (i : Nat) : Point N :=
  match w.stands[i]? with
  | some s => ⟨some i,s.position⟩
  | none => ⟨some i,q.position⟩

/-- The roots that a dispatcher looks for. -/
def Frames.waiting (entity : String) (p : Plan) (tick : Nat) : Selector :=
  { tags := [Names.entityTag entity], scores := [(Names.frame,.exactly (p.frameId tick))] }

/-- A dispatcher runs its body as and at one waiting root after another. -/
lemma CompiledEntity.dispatcher_runs {a : CompiledAnimation} (ha : a ∈ e.animations) {f : Frame}
    (hf : f ∈ a.frames) (q : Point N) (depth : Nat) :
    let v := w.begin f.dispatcherPath q.executor
    World.call programs (depth+1) f.dispatcherPath q w =
      (v.selected (Frames.waiting x.entity a.plan f.tick)).foldlM
        (fun u i => World.call programs depth f.bodyPath (v.pointOf q i) u) v := by
  intro v
  have hl := h.frame ha hf
  have hprogram : programs f.dispatcherPath = some ((Frames.dispatcher x.entity e.functions a.plan
      f.tick).map (Directive.map number)) := by
    rw [hl.dispatcherPath]
    exact hload.program h (.dispatcher ha hf)
  have hpoints : [Clause.asEach (.select (Frames.waiting x.entity a.plan f.tick)),
      .atSelf].foldlM (Clause.points v) [q] =
      some ((v.selected (Frames.waiting x.entity a.plan f.tick)).map (v.pointOf q)) := by
    simp only [List.foldlM_cons,List.foldlM_nil,Clause.points,World.places,List.mapM_cons,
      List.mapM_nil,Option.bind_eq_bind,Option.bind_some,Option.pure_def,List.flatten_cons,
      List.flatten_nil,List.append_nil,List.map_map]
    refine congrArg some (List.map_congr_left fun i _ => ?_)
    cases hi : v.stands[i]? <;> simp [World.pointOf,hi]
  have hrun : (Directive.execute [.asEach (.select (Frames.waiting x.entity a.plan f.tick)),
      .atSelf] (.call (e.functions.body a.plan.name f.tick))).run (World.call programs depth) q v =
      (v.selected (Frames.waiting x.entity a.plan f.tick)).foldlM
        (fun u i => World.call programs depth f.bodyPath (v.pointOf q i) u) v := by
    simp only [Directive.run,hpoints,Option.bind_eq_bind,Option.bind_some,List.foldlM_map,
      hl.bodyPath]
  rw [World.call_succ hprogram]
  change Directive.runAll (World.call programs depth) [_] q v = _
  rw [Directive.runAll_cons]
  exact (congrArg (Option.bind · _) hrun).trans (Option.bind_fun_some _)

end Runs

end RigPack
