import RigPack.Proofs.World.Directives

/-!
How one instance is taken apart from all others. Between isolation and release every proxy's id is
down by the id of the running instance and its own proxies are active; afterwards all that was done
to the other stands is undone, in registers of any width.
-/

namespace RigPack

namespace Registers

/-- Taking a held value down and up again gives it back. -/
lemma wrap_sub_add (g : Registers) {v : Int} (a : Int) (hv : g.wrap v = v) :
    g.wrap (g.wrap (v - a) + a) = v := by
  cases g with
  | unbounded => simp [wrap]
  | word n =>
    simp only [wrap,Int.bmod_add_bmod] at hv ⊢
    rw [Int.sub_add_cancel,hv]

/-- A held value comes down to zero only by itself. -/
lemma wrap_sub_eq_zero (g : Registers) {v a : Int} (hv : g.wrap v = v) (ha : g.wrap a = a) :
    g.wrap (v - a) = 0 ↔ v = a := by
  constructor
  · intro h
    have hs := g.wrap_sub_add a hv
    rw [h,Int.zero_add,ha] at hs
    exact hs.symm
  · rintro rfl
    cases g <;> simp [wrap]

end Registers

namespace Names

lemma toList_entityTag (entity : String) :
    (entityTag entity).toList = "cmdent.".toList ++ entity.toList := by simp [entityTag]

lemma toList_partTag (entity part : String) :
    (partTag entity part).toList = "cmdent.".toList ++ (entity.toList ++ ('.'::part.toList)) := by
  simp [partTag]

lemma entityTag_injective : Function.Injective entityTag := by
  intro a b h
  have h := congrArg String.toList h
  rw [toList_entityTag,toList_entityTag] at h
  exact String.toList_injective (List.append_cancel_left h)

lemma partTag_injective (entity : String) : Function.Injective (partTag entity) := by
  intro a b h
  have h := congrArg String.toList h
  rw [toList_partTag,toList_partTag] at h
  have h := List.append_cancel_left (List.append_cancel_left h)
  exact String.toList_injective (List.cons.inj h).2

/-- A part's tag has a second dot and the reserved ones have none. -/
lemma partTag_not_reserved (entity part : String) : partTag entity part ∉ reserved := by
  intro h
  have hdot : ∀ rest, (partTag entity part).toList = "cmdent.".toList ++ rest → '.' ∈ rest := by
    intro rest hr
    rw [toList_partTag] at hr
    rw [← List.append_cancel_left hr]
    simp
  simp only [reserved,List.mem_cons,List.not_mem_nil,or_false] at h
  rcases h with h | h | h | h
  · exact absurd (hdot "part".toList (by rw [h]; decide)) (by decide)
  · exact absurd (hdot "active".toList (by rw [h]; decide)) (by decide)
  · exact absurd (hdot "gc".toList (by rw [h]; decide)) (by decide)
  · exact absurd (hdot "temp".toList (by rw [h]; decide)) (by decide)

end Names

namespace Stand

variable {N : Type} (s : Stand N)

/-- A living proxy. -/
def isProxy : Bool :=
  s.alive && s.tags Names.proxy

/-- A living proxy of the instance with an id. -/
def isOwn (id : Int) : Bool :=
  s.isProxy && decide (s.scores Names.id = some id)

lemma isOwn_of_plain (h : s.tags Names.proxy = false) (id : Int) : s.isOwn id = false := by
  simp [isOwn,isProxy,h]

/-- A stand while the instance with an id is isolated. -/
def isolated (g : Registers) (id : Int) : Stand N :=
  if s.isProxy then
    let down := s.setScore Names.id (g.wrap (s.score Names.id - id))
    if s.isOwn id then (down.setTag Names.active true).setTag Names.unposed false else down
  else s

/-- A stand after the isolation of the instance with an id has ended. -/
def released (g : Registers) (id : Int) : Stand N :=
  let plain := if s.alive && s.tags Names.active then s.setTag Names.active false else s
  if s.isProxy then plain.setScore Names.id (g.wrap (s.score Names.id + id)) else plain

lemma tags_isolated (g : Registers) (id : Int) {t : String} (ht : t ∉ Names.reserved) :
    (s.isolated g id).tags t = s.tags t := by
  have ha : t ≠ Names.active := fun h => ht (h ▸ by decide)
  have hu : t ≠ Names.unposed := fun h => ht (h ▸ by decide)
  unfold isolated
  split
  · simp only
    split
    · rw [tags_setTag,if_neg hu,tags_setTag,if_neg ha,tags_setScore]
    · rw [tags_setScore]
  · rfl

/-- Only the proxies of the isolated instance become active. -/
lemma isOwn_of_isolated {g : Registers} {id : Int}
    (hactive : s.alive = true → s.tags Names.active = false)
    (ha : (s.isolated g id).alive = true) (hm : (s.isolated g id).tags Names.active = true) :
    s.isOwn id = true := by
  by_contra ho
  have hi : (s.isolated g id).tags = s.tags ∧ (s.isolated g id).alive = s.alive := by
    simp only [isolated,if_neg ho]
    split <;> exact ⟨rfl,rfl⟩
  rw [hi.2] at ha
  rw [hi.1,hactive ha] at hm
  exact absurd hm (by decide)

lemma released_of_active (g : Registers) (id : Int) (hp : s.isProxy = true)
    (ha : s.tags Names.active = true) : s.released g id =
      (s.setTag Names.active false).setScore Names.id (g.wrap (s.score Names.id + id)) := by
  have hlive : s.alive = true := by simp_all [isProxy]
  simp [released,hp,ha,hlive]

lemma released_of_plain (g : Registers) (id : Int) (hp : s.isProxy = true)
    (ha : s.tags Names.active = false) :
    s.released g id = s.setScore Names.id (g.wrap (s.score Names.id + id)) := by
  simp [released,hp,ha]

/-- Release gives the proxies of other instances back what isolation took. -/
lemma released_isolated {g : Registers} {id : Int}
    (hactive : s.alive = true → s.tags Names.active = false)
    (hscored : s.isProxy = true → ∃ v, s.scores Names.id = some v ∧ g.wrap v = v)
    (ho : ¬s.isOwn id = true) : (s.isolated g id).released g id = s := by
  by_cases hp : s.isProxy = true
  · obtain ⟨v,hv,hwrap⟩ := hscored hp
    have hplain : s.tags Names.active = false := hactive (by simp_all [isProxy])
    have hi : s.isolated g id = s.setScore Names.id (g.wrap (v - id)) := by
      simp only [isolated,hp,ho,s.score_eq_of_scores hv,if_true,Bool.false_eq_true,if_false]
    rw [hi,released_of_plain (s.setScore _ _) _ _ hp hplain,
      score_eq_of_scores _ (scores_setScore_self ..),g.wrap_sub_add id hwrap]
    exact s.setScore_restore hv _
  · have hplain : ¬(s.alive && s.tags Names.active) = true := by
      intro h
      rw [Bool.and_eq_true] at h
      rw [hactive h.1] at h
      exact absurd h.2 (by decide)
    have hi : s.isolated g id = s := if_neg hp
    rw [hi]
    simp only [released,if_neg hplain,if_neg hp]

/-- Isolation brings the ids of an instance's own proxies to zero, and no others. -/
lemma isOwn_zero_isolated {g : Registers} {id : Int} (hid : g.wrap id = id)
    (hscored : s.isProxy = true → ∃ v, s.scores Names.id = some v ∧ g.wrap v = v) :
    (s.isolated g id).isOwn 0 = s.isOwn id := by
  by_cases hp : s.isProxy = true
  · obtain ⟨v,hv,hwrap⟩ := hscored hp
    obtain ⟨hlive,hproxy⟩ : s.alive = true ∧ s.tags Names.proxy = true := by
      simpa [isProxy] using hp
    have hz := g.wrap_sub_eq_zero hwrap hid
    by_cases ho : s.isOwn id = true
    · obtain rfl : v = id := by simpa [isOwn,hp,hv] using ho
      simp only [isolated,hp,ho,s.score_eq_of_scores hv,hz.mpr rfl,if_true]
      simp [isOwn,isProxy,hlive,tags_setTag,hproxy,
        show Names.proxy ≠ Names.active by decide,show Names.proxy ≠ Names.unposed by decide]
    · have hne : v ≠ id := by
        rintro rfl
        exact ho (by simp [isOwn,hp,hv])
      have hdown : g.wrap (v - id) ≠ 0 := fun h => hne (hz.mp h)
      have hof : s.isOwn id = false := by simpa using ho
      simp only [isolated,hp,hof,s.score_eq_of_scores hv,if_true,Bool.false_eq_true,if_false]
      simp [isOwn,hdown]
  · have hi : s.isolated g id = s := if_neg hp
    simp [hi,isOwn,hp]

lemma admits_atZero :
    Selector.admits { tags := [Names.proxy], scores := [(Names.id,.exactly 0)] } s = s.isOwn 0 := by
  simp only [Selector.admits,isOwn,isProxy,meets,List.all_cons,List.all_nil,Bool.and_true]
  cases s.scores Names.id with
  | none => simp
  | some v => simp [ScoreRange.contains]

/-- What isolation does to one stand, directive by directive. -/
lemma isolated_eq {g : Registers} {id : Int} (hid : g.wrap id = id)
    (hactive : s.alive = true → s.tags Names.active = false)
    (hscored : s.isProxy = true → ∃ v, s.scores Names.id = some v ∧ g.wrap v = v) :
    let down := if s.alive && s.tags Names.proxy
      then s.setScore Names.id (g.wrap (s.score Names.id - id)) else s
    let marked := if down.isOwn 0 then down.setTag Names.active true else down
    (if marked.alive && marked.tags Names.active then marked.setTag Names.unposed false
      else marked) = s.isolated g id := by
  intro down marked
  by_cases hp : s.isProxy = true
  · obtain ⟨v,hv,hwrap⟩ := hscored hp
    have ha : s.alive = true := by simp_all [isProxy]
    have hdown : down = s.setScore Names.id (g.wrap (s.score Names.id - id)) := by
      simp only [down]
      rw [if_pos (by simpa [isProxy] using hp)]
    have hown : down.isOwn 0 = s.isOwn id := by
      have hscore : s.score Names.id = v := s.score_eq_of_scores hv
      have hz := g.wrap_sub_eq_zero hwrap hid
      have hproxy : down.isProxy = s.isProxy := by rw [hdown]; rfl
      rw [isOwn,isOwn,hproxy,hdown,scores_setScore_self,hscore,hv]
      simp [hz]
    simp only [marked,hown,isolated,hp,if_true,← hdown]
    by_cases ho : s.isOwn id = true
    · simp only [ho,if_true]
      rw [if_pos]
      simp [hdown,ha,tags_setTag]
    · simp only [ho,if_false,Bool.false_eq_true]
      rw [if_neg]
      simp [hdown,hactive ha]
  · have hdown : down = s := by
      simp only [down]
      rw [if_neg (by simpa [isProxy] using hp)]
    have hown : s.isOwn 0 = false := by simp_all [isOwn]
    simp only [marked,hdown,hown,isolated,hp]
    by_cases ha : s.alive = true
    · simp [ha,hactive ha]
    · simp [ha]

/-- A stand moved to a position, with its head turned. -/
def put (position head : Vec3 N) : Stand N :=
  { s with position, head := some head }

section Posed

variable [Scalar N] (number : Float → N) (x : Exporter) (root : Vec3 N)
  (placed : List (Placed Float))

/-- A proxy as the placing of leaves about a root leaves it. Of leaves of which it carries the tag
the last counts. -/
def posed : Stand N :=
  match placed.reverse.find? fun l => s.tags (x.tag l.leaf) with
  | some l => s.put (root + (Exporter.offset l.world).map number)
      ((Exporter.turn l.world).map number)
  | none => s

@[simp] lemma alive_posed : (s.posed number x root placed).alive = s.alive := by
  unfold posed; split <;> rfl
@[simp] lemma tags_posed : (s.posed number x root placed).tags = s.tags := by
  unfold posed; split <;> rfl
@[simp] lemma scores_posed : (s.posed number x root placed).scores = s.scores := by
  unfold posed; split <;> rfl

lemma posed_append (l : Placed Float) : s.posed number x root (placed ++ [l]) =
    if s.tags (x.tag l.leaf) then
      (s.posed number x root placed).put (root + (Exporter.offset l.world).map number)
        ((Exporter.turn l.world).map number)
    else s.posed number x root placed := by
  have hr : (placed ++ [l]).reverse = l::placed.reverse := by simp
  unfold posed
  rw [hr]
  by_cases h : s.tags (x.tag l.leaf) = true
  · rw [List.find?_cons_of_pos (p := fun l : Placed Float => s.tags (x.tag l.leaf)) h,if_pos h]
    cases placed.reverse.find? fun l => s.tags (x.tag l.leaf) <;> rfl
  · rw [List.find?_cons_of_neg (p := fun l : Placed Float => s.tags (x.tag l.leaf)) h,if_neg h]

lemma posed_setScore (o : String) (v : Int) : (s.setScore o v).posed number x root placed =
    (s.posed number x root placed).setScore o v := by
  unfold posed
  rw [tags_setScore]
  cases placed.reverse.find? fun l => s.tags (x.tag l.leaf) <;> rfl

lemma posed_setTag {t : String} (ht : t ∈ Names.reserved) (b : Bool) :
    (s.setTag t b).posed number x root placed =
      (s.posed number x root placed).setTag t b := by
  have hx : (fun l : Placed Float => (s.setTag t b).tags (x.tag l.leaf)) =
      fun l => s.tags (x.tag l.leaf) := by
    funext l
    exact if_neg fun h : x.tag l.leaf = t => Names.partTag_not_reserved _ _ (h ▸ ht)
  unfold posed
  rw [hx]
  cases placed.reverse.find? fun l => s.tags (x.tag l.leaf) <;> rfl

/-- What isolation, posing and release do to one stand together: its own proxies are posed, and all
others are as they were. -/
lemma released_posed_isolated {g : Registers} {id : Int} (hid : g.wrap id = id)
    (hactive : s.alive = true → s.tags Names.active = false)
    (hscored : s.isProxy = true → ∃ v, s.scores Names.id = some v ∧ g.wrap v = v) :
    let i := s.isolated g id
    (if i.alive && i.tags Names.active then i.posed number x root placed else i).released g id =
      if s.isOwn id then (s.posed number x root placed).setTag Names.unposed false else s := by
  have hau : Names.active ≠ Names.unposed := by decide
  have hpa : Names.proxy ≠ Names.active := by decide
  have hpu : Names.proxy ≠ Names.unposed := by decide
  intro i
  by_cases ho : s.isOwn id = true
  · have hp : s.isProxy = true := by simp_all [isOwn]
    have hv : s.scores Names.id = some id := by simpa [isOwn,hp] using ho
    obtain ⟨hlive,hproxy⟩ : s.alive = true ∧ s.tags Names.proxy = true := by
      simpa [isProxy] using hp
    have hplain := hactive hlive
    have hzero : g.wrap (id - id) = 0 := (g.wrap_sub_eq_zero hid hid).mpr rfl
    have hi : i = ((s.setScore Names.id 0).setTag Names.active true).setTag
        Names.unposed false := by
      simp only [i,isolated,hp,ho,s.score_eq_of_scores hv,hzero,if_true]
    have hmarked : (i.alive && i.tags Names.active) = true := by
      simp [hi,tags_setTag,hlive,hau]
    rw [if_pos hmarked,if_pos ho,hi,posed_setTag _ _ _ _ _ (by decide),
      posed_setTag _ _ _ _ _ (by decide),posed_setScore]
    generalize hq : s.posed number x root placed = q
    have hqtags : q.tags = s.tags := by rw [← hq,tags_posed]
    have hqalive : q.alive = true := by rw [← hq,alive_posed,hlive]
    have hqid : q.scores Names.id = some id := by rw [← hq,scores_posed,hv]
    have hback : (((q.setScore Names.id 0).setTag Names.active true).setTag Names.unposed
        false).setTag Names.active false = (q.setTag Names.unposed false).setScore Names.id 0 := by
      rw [setTag_comm _ hau,setTag_setTag,setTag_self]
      · rfl
      · rw [tags_setTag,if_neg hau,tags_setScore,hqtags,hplain]
    rw [released_of_active,hback]
    · simp only [score,scores_setTag,scores_setScore_self,Option.getD_some,Int.zero_add,hid]
      exact (q.setTag Names.unposed false).setScore_restore hqid 0
    · simp [isProxy,tags_setTag,hqalive,hqtags,hproxy,hpa,hpu]
    · simp [tags_setTag,hau]
  · have hplain : ¬(i.alive && i.tags Names.active) = true := by
      intro h
      rw [Bool.and_eq_true] at h
      exact ho (s.isOwn_of_isolated hactive h.1 h.2)
    rw [if_neg hplain,if_neg ho,s.released_isolated hactive hscored ho]

end Posed

end Stand

namespace World

variable {N : Type} {w : World N}

/-- What an instance may count on when it isolates itself. -/
structure Settled (w : World N) : Prop where
  active : ∀ s ∈ w.stands, s.alive = true → s.tags Names.active = false
  /-- Every proxy has an id that its register holds. -/
  scored : ∀ s ∈ w.stands, s.isProxy = true →
    ∃ v, s.scores Names.id = some v ∧ w.registers.wrap v = v

lemma places_proxiesAtZero (p : Point N) (g : Stand N → Stand N) :
    (w.places p Frames.proxiesAtZero).map (w.change · g) =
      some (w.changeEvery fun s => if s.isOwn 0 then g s else s) := by
  simp [Frames.proxiesAtZero,places,change_selected,Stand.admits_atZero]

/-- At most one living active stand carries a tag. -/
def Unique (w : World N) (tag : String) : Prop :=
  ∀ (i j : Nat) (s t : Stand N), w.stands[i]? = some s → w.stands[j]? = some t →
    s.alive = true → s.tags Names.active = true → s.tags tag = true →
    t.alive = true → t.tags Names.active = true → t.tags tag = true → i = j

lemma change_activeTagged {tag : String} (h : w.Unique tag) (g : Stand N → Stand N) :
    w.change (w.selected { tags := [Names.active,tag], single := true }) g =
      w.changeEvery fun s =>
        if s.alive && s.tags Names.active && s.tags tag then g s else s := by
  have hadmits (s : Stand N) : Selector.admits { tags := [Names.active,tag], single := true } s =
      (s.alive && s.tags Names.active && s.tags tag) := by
    simp [Selector.admits,Bool.and_assoc]
  rw [selected_single,change_selected rfl]
  · refine changeEvery_congr fun s _ => ?_
    rw [← hadmits]
    rfl
  · intro i j s t hs ht has hat
    rw [hadmits] at has hat
    simp only [Bool.and_eq_true] at has hat
    exact h i j s t hs ht has.1.1 has.1.2 has.2 hat.1.1 hat.1.2 hat.2

/-- What changes neither life nor tags leaves a tag unique. -/
lemma Unique.changeEvery {tag : String} (h : w.Unique tag) {f : Stand N → Stand N}
    (hf : ∀ s, (f s).alive = s.alive ∧ (f s).tags = s.tags) : (w.changeEvery f).Unique tag := by
  intro i j s t hs ht
  rw [getElem?_changeEvery,Option.map_eq_some_iff] at hs ht
  obtain ⟨s,hs,rfl⟩ := hs
  obtain ⟨t,ht,rfl⟩ := ht
  rw [(hf s).1,(hf s).2,(hf t).1,(hf t).2]
  exact h i j s t hs ht

end World

section Isolation

variable {N : Type} [Scalar N] {number : Float → N}
  {call : ResourcePath → Point N → World N → Option (World N)} {w : World N}

/-- Isolation runs as a root and marks its own proxies. -/
lemma Frames.isolate_runs (hw : w.Settled) {r : Nat} {s : Stand N} (hs : w.stands[r]? = some s)
    (ha : s.alive = true) {id : Int} (hid : s.scores Names.id = some id)
    (hwrap : w.registers.wrap id = id) (q : Vec3 N) :
    Directive.runAll call (Frames.isolate.map (Directive.map number)) ⟨some r,q⟩ w =
      some ((w.setHolder Names.compared Names.id id).changeEvery
        (Stand.isolated · w.registers id)) := by
  have hread : w.readScore ⟨some r,q⟩ .this Names.id = some id := by
    rw [World.readScore_this hs ha,Stand.score_eq_of_scores _ hid]
  have htake : (Directive.operateScore (.holder Names.compared) Names.id .assign .this Names.id :
      Directive N).run call ⟨some r,q⟩ w =
        some (w.setHolder Names.compared Names.id id) := by
    simp [Directive.run,hread,World.writeScore,ScoreOperator.apply,hwrap]
  have hdown (v : World N) (hv : v.holders Names.compared Names.id = id) :
      (Directive.operateScore (.tagged Names.proxy) Names.id .subtract (.holder Names.compared)
        Names.id : Directive N).run call ⟨some r,q⟩ v = some (v.changeEvery fun s =>
          if s.alive && s.tags Names.proxy then
            s.setScore Names.id (v.registers.wrap (s.score Names.id - id)) else s) := by
    simp [Directive.run,World.readScore,hv,Target.tagged,World.writeScore_select,
      World.admits_tagged,ScoreOperator.apply]
  have hmark (v : World N) : (Directive.addTag Frames.proxiesAtZero Names.active :
      Directive N).run call ⟨some r,q⟩ v = some (v.changeEvery fun s =>
        if s.isOwn 0 then s.setTag Names.active true else s) := by
    rw [← World.places_proxiesAtZero ⟨some r,q⟩]
    rfl
  simp only [Frames.isolate,List.map_cons,List.map_nil,Directive.map]
  rw [Directive.runAll_cons_of_run htake,
    Directive.runAll_cons_of_run (hdown _ (by simp [World.setHolder])),
    Directive.runAll_cons_of_run (hmark _),
    Directive.runAll_cons_of_run Directive.run_removeTag_tagged,Directive.runAll_nil,
    World.changeEvery_changeEvery,World.changeEvery_changeEvery]
  refine congrArg some (World.changeEvery_congr fun s hs => ?_)
  exact s.isolated_eq hwrap (hw.active s hs) (hw.scored s hs)

/-- Release runs as a root that has isolated itself. -/
lemma Frames.release_runs {id : Int} (hw : w.holders Names.compared Names.id = id)
    (p : Point N) : Directive.runAll call (Frames.release.map (Directive.map number)) p w =
      some (w.changeEvery (Stand.released · w.registers id)) := by
  have hup (v : World N) (hv : v.holders Names.compared Names.id = id) :
      (Directive.operateScore (.tagged Names.proxy) Names.id .add (.holder Names.compared)
        Names.id : Directive N).run call p v = some (v.changeEvery fun s =>
          if s.alive && s.tags Names.proxy then
            s.setScore Names.id (v.registers.wrap (s.score Names.id + id)) else s) := by
    simp [Directive.run,World.readScore,hv,Target.tagged,World.writeScore_select,
      World.admits_tagged,ScoreOperator.apply]
  simp only [Frames.release,List.map_cons,List.map_nil,Directive.map]
  rw [Directive.runAll_cons_of_run Directive.run_removeTag_tagged,
    Directive.runAll_cons_of_run (hup (w.changeEvery _) hw),Directive.runAll_nil,
    World.changeEvery_changeEvery]
  refine congrArg some (World.changeEvery_congr fun s _ => ?_)
  have hne : Names.proxy ≠ Names.active := by decide
  simp only [Stand.released,World.changeEvery,Stand.isProxy]
  by_cases h : (s.alive && s.tags Names.active) = true
  · simp only [h,if_true,Stand.alive_setTag,Stand.tags_setTag,if_neg hne]
    rfl
  · simp only [h,Bool.false_eq_true,if_false]

/-- The two directives that pose a leaf, where one active stand carries its tag. -/
lemma Frames.pose_runs (x : Exporter) (l : Leaf Float) (m : Mat4 Float) (h : w.Unique (x.tag l))
    (p : Point N) : Directive.runAll call ((x.pose l m).map (Directive.map number)) p w =
      some (w.changeEvery fun s => if s.alive && s.tags Names.active && s.tags (x.tag l) then
        s.put (p.position + (Exporter.offset m).map number) ((Exporter.turn m).map number)
        else s) := by
  have hmove : (Directive.teleport (.select { tags := [Names.active,x.tag l], single := true })
      (number (Exporter.offset m).x) (number (Exporter.offset m).y)
      (number (Exporter.offset m).z) : Directive N).run call p w =
      some (w.changeEvery fun s => if s.alive && s.tags Names.active && s.tags (x.tag l) then
        { s with position := p.position + (Exporter.offset m).map number } else s) := by
    rw [← World.change_activeTagged h]
    rfl
  have hturn (v : World N) (hv : v.Unique (x.tag l)) :
      (Directive.poseHead (.select { tags := [Names.active,x.tag l], single := true })
        (number (Exporter.turn m).x) (number (Exporter.turn m).y)
        (number (Exporter.turn m).z) : Directive N).run call p v =
      some (v.changeEvery fun s => if s.alive && s.tags Names.active && s.tags (x.tag l) then
        { s with head := some ((Exporter.turn m).map number) } else s) := by
    rw [← World.change_activeTagged hv]
    rfl
  simp only [Exporter.pose,List.map_cons,List.map_nil,Directive.map]
  rw [Directive.runAll_cons_of_run hmove,
    Directive.runAll_cons_of_run (hturn _ (h.changeEvery fun s => by split <;> exact ⟨rfl,rfl⟩)),
    Directive.runAll_nil,World.changeEvery_changeEvery]
  refine congrArg some (World.changeEvery_congr fun s _ => ?_)
  by_cases hs : (s.alive && s.tags Names.active && s.tags (x.tag l)) = true
  · simp only [hs,if_true]
    rfl
  · simp only [hs,Bool.false_eq_true,if_false]

/-- The directives that pose all leaves of a tick. -/
lemma Frames.poses_run (x : Exporter) (placed : List (Placed Float)) (p : Point N)
    (h : ∀ l ∈ placed, w.Unique (x.tag l.leaf)) : Directive.runAll call
      ((placed.flatMap fun l => x.pose l.leaf l.world).map (Directive.map number)) p w =
      some (w.changeEvery fun s =>
        if s.alive && s.tags Names.active then s.posed number x p.position placed else s) := by
  induction placed using List.reverseRecOn with
  | nil => simp [World.changeEvery,Stand.posed]
  | append_singleton placed l ih =>
    have hinit := ih fun k hk => h k (List.mem_append_left _ hk)
    have hlast : (w.changeEvery fun s => if s.alive && s.tags Names.active then
        s.posed number x p.position placed else s).Unique (x.tag l.leaf) := by
      refine (h l (by simp)).changeEvery fun s => ?_
      split
      · exact ⟨s.alive_posed ..,s.tags_posed ..⟩
      · exact ⟨rfl,rfl⟩
    rw [List.flatMap_append,List.map_append,Directive.runAll_append_of_run hinit,
      List.flatMap_singleton,Frames.pose_runs x l.leaf l.world hlast,
      World.changeEvery_changeEvery]
    refine congrArg some (World.changeEvery_congr fun s _ => ?_)
    by_cases hs : (s.alive && s.tags Names.active) = true
    · simp only [hs,if_true,Stand.alive_posed,Stand.tags_posed,Bool.true_and,Stand.posed_append]
    · simp [hs]

/-- The world with the proxies of an instance posed about a place. -/
def World.posed (w : World N) (number : Float → N) (x : Exporter) (root : Vec3 N) (id : Int)
    (placed : List (Placed Float)) : World N :=
  (w.setHolder Names.compared Names.id id).changeEvery fun s =>
    if s.isOwn id then (s.posed number x root placed).setTag Names.unposed false else s

@[simp] lemma World.getElem?_posed (x : Exporter) (root : Vec3 N) (id : Int)
    (placed : List (Placed Float)) (i : Nat) :
    (w.posed number x root id placed).stands[i]? = w.stands[i]?.map fun s =>
      if s.isOwn id then (s.posed number x root placed).setTag Names.unposed false else s := by
  rw [World.posed,World.getElem?_changeEvery,World.stands_setHolder]

/-- A body up to its transition: the proxies of the instance that runs it are posed about the place
where it runs, and every other stand is as it was. -/
theorem Frames.posing_runs (hw : w.Settled) {r : Nat} {s : Stand N} (hs : w.stands[r]? = some s)
    (ha : s.alive = true) {id : Int} (hid : s.scores Names.id = some id)
    (hwrap : w.registers.wrap id = id) (x : Exporter) (placed : List (Placed Float))
    (hone : ∀ l ∈ placed, ∀ (i j : Nat) (s t : Stand N), w.stands[i]? = some s →
      w.stands[j]? = some t → s.isOwn id = true → s.tags (x.tag l.leaf) = true →
      t.isOwn id = true → t.tags (x.tag l.leaf) = true → i = j) (q : Vec3 N) :
    Directive.runAll call ((posing x placed).map (Directive.map number)) ⟨some r,q⟩ w =
      some (w.posed number x q id placed) := by
  have hblank (v : World N) : Directive.runAll call
      (List.map (Directive.map number) [.blank]) ⟨some r,q⟩ v = some v := rfl
  have hunique (l) (hl : l ∈ placed) : ((w.setHolder Names.compared Names.id id).changeEvery
      (Stand.isolated · w.registers id)).Unique (x.tag l.leaf) := by
    intro i j s t hs ht hsa hsm hst hta htm htt
    rw [World.getElem?_changeEvery,Option.map_eq_some_iff] at hs ht
    obtain ⟨s,hs,rfl⟩ := hs
    obtain ⟨t,ht,rfl⟩ := ht
    have htag : x.tag l.leaf ∉ Names.reserved := Names.partTag_not_reserved _ _
    rw [Stand.tags_isolated _ _ _ htag] at hst htt
    exact hone l hl i j s t hs ht
      (s.isOwn_of_isolated (hw.active s (List.mem_of_getElem? hs)) hsa hsm) hst
      (t.isOwn_of_isolated (hw.active t (List.mem_of_getElem? ht)) hta htm) htt
  have hheld (f g : Stand N → Stand N) : (((w.setHolder Names.compared Names.id id).changeEvery
      f).changeEvery g).holders Names.compared Names.id = id := by
    simp [World.changeEvery,World.setHolder]
  simp only [posing,List.map_append]
  rw [Directive.runAll_append,Directive.runAll_append,Directive.runAll_append,
    Directive.runAll_append_of_run (isolate_runs hw hs ha hid hwrap q),hblank,
    Option.bind_some,poses_run x placed _ hunique,Option.bind_some,hblank,Option.bind_some,
    release_runs (hheld _ _),
    World.changeEvery_changeEvery,World.changeEvery_changeEvery]
  refine congrArg some (World.changeEvery_congr fun s hs => ?_)
  exact s.released_posed_isolated number x q placed hwrap (hw.active s hs) (hw.scored s hs)

end Isolation
end RigPack
