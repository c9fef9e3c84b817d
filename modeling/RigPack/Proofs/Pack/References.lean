import Mathlib
import RigPack.Proofs.Pack.Commands
import RigPack.Proofs.Pack.Contents
import RigPack.Proofs.Program.Mentions
import RigPack.Proofs.Program.Objectives

/-!
The programs of a pack refer to nothing that is missing from it. They name programs of the same
entity, and those that they call stand below them, so that what runs again and again has to go
through the scheduler; and objectives are registered. All this can be read from the texts alone.
-/

namespace RigPack

/-- The objectives that the entities of a pack have in common. -/
def Names.objectives : List String :=
  [frame,id,next,pending]

/-- How many calls deep a program may go. -/
def Role.depth : Role → Nat
  | dispatcher _ _ => 3
  | body _ _ => 2
  | select => 1
  | _ => 0

namespace CompiledEntity

variable {e : CompiledEntity} {x : Exporter} {r : Role} {p : Program} {d : Directive Float}

/-- What a directive of a program may refer to: it names programs of the entity, calls those below
its own, and is about registered objectives. -/
structure Refers (e : CompiledEntity) (x : Exporter) (r : Role) (d : Directive Float) : Prop where
  named : ∀ f, d.named? = some f → ∃ q program, f = e.functions.path q ∧ e.Plays x q program
  called : ∀ f, d.innermost = .call f → ∃ q, f = e.functions.path q ∧ q.depth < r.depth
  objectives : ∀ o ∈ d.objectives, o ∈ Names.objectives

/-- A directive that names no program. -/
lemma Refers.of_none (hd : d.named? = none) (ho : ∀ o ∈ d.objectives, o ∈ Names.objectives) :
    e.Refers x r d := by
  refine ⟨fun f hf => absurd (hd.symm.trans hf) nofun,fun f hf => ?_,ho⟩
  simp [Directive.named?,hf] at hd

/-- A directive that schedules a program of the entity. -/
lemma Refers.of_schedule {f : ResourcePath} {ticks : Nat} {mode : ScheduleMode} {q : Role}
    {program : Program} (hd : d.innermost = .schedule f ticks mode) (hf : f = e.functions.path q)
    (hq : e.Plays x q program) (ho : ∀ o ∈ d.objectives, o ∈ Names.objectives) :
    e.Refers x r d := by
  refine ⟨fun g hg => ⟨q,program,?_,hq⟩,fun g hg => ?_,ho⟩
  · rw [Directive.named?,hd] at hg
    exact (Option.some.inj hg).symm.trans hf
  · rw [hd] at hg
    cases hg

/-- A directive that calls a program below its own. -/
lemma Refers.of_call {f : ResourcePath} {q : Role} {program : Program}
    (hd : d.innermost = .call f) (hf : f = e.functions.path q) (hq : e.Plays x q program)
    (hdepth : q.depth < r.depth) (ho : ∀ o ∈ d.objectives, o ∈ Names.objectives) :
    e.Refers x r d := by
  refine ⟨fun g hg => ⟨q,program,?_,hq⟩,fun g hg => ⟨q,?_,hdepth⟩,ho⟩
  · rw [Directive.named?,hd] at hg
    exact (Option.some.inj hg).symm.trans hf
  · rw [hd] at hg
    cases hg
    exact hf

/-- Conditions add nothing but the objectives that they are about. -/
lemma Refers.under {clauses : List Clause} (hd : e.Refers x r d)
    (hc : ∀ o ∈ clauses.flatMap Clause.objectives, o ∈ Names.objectives) :
    e.Refers x r (d.under clauses) := by
  refine ⟨hd.named,hd.called,fun o ho => ?_⟩
  rcases List.mem_append.mp ho with ho | ho
  · exact hc o ho
  · exact hd.objectives o ho

end CompiledEntity

/-- A program whose directives name no other. -/
def Program.Still (p : Program) : Prop :=
  ∀ d ∈ p, d.named? = none ∧ ∀ o ∈ d.objectives, o ∈ Names.objectives

instance (p : Program) : Decidable p.Still :=
  inferInstanceAs (Decidable (∀ d ∈ p, d.named? = none ∧ ∀ o ∈ d.objectives, o ∈ Names.objectives))

namespace Program.Still

lemma append {p q : Program} (hp : p.Still) (hq : q.Still) : (p ++ q : Program).Still :=
  fun d hd => (List.mem_append.mp hd).elim (hp d) (hq d)

lemma of_load : Support.load.Still := by decide

lemma of_remove : Support.remove.Still := by decide

lemma of_dormant : Support.dormant.Still := by decide

lemma of_isolate : Frames.isolate.Still := by decide

lemma of_release : Frames.release.Still := by decide

lemma of_pose (x : Exporter) (l : Leaf Float) (world : Mat4 Float) :
    Program.Still (x.pose l world) := by
  intro d hd
  rcases List.mem_pair.mp hd with rfl | rfl <;> exact ⟨rfl,nofun⟩

lemma of_posing (x : Exporter) (placed : List (Placed Float)) :
    (Frames.posing x placed).Still := by
  have hposes : Program.Still (placed.flatMap fun l => x.pose l.leaf l.world) := by
    intro d hd
    obtain ⟨l,_,hd⟩ := List.mem_flatMap.mp hd
    exact of_pose x l.leaf l.world d hd
  have hblank : Program.Still [.blank] := by decide
  exact (((of_isolate.append hblank).append hposes).append hblank).append of_release

lemma of_spawn (x : Exporter) (leaves : List (Leaf Float)) : (Support.spawn x leaves).Still := by
  have hsummons : Program.Still (leaves.map x.spawn) := by
    intro d hd
    obtain ⟨l,_,rfl⟩ := List.mem_map.mp hd
    exact ⟨rfl,nofun⟩
  refine append (append ?_ hsummons) (by decide)
  intro d hd
  simp only [List.mem_cons,List.not_mem_nil,or_false] at hd
  rcases hd with rfl | rfl | rfl | rfl
  · decide
  · decide
  · exact ⟨rfl,nofun⟩
  · exact ⟨rfl,nofun⟩

end Program.Still

namespace CompiledEntity

variable {e : CompiledEntity} {x : Exporter} {r : Role} {p : Program} {d : Directive Float}
  {a : CompiledAnimation}

lemma Refers.of_still (hp : p.Still) (hd : d ∈ p) : e.Refers x r d :=
  .of_none (hp d hd).1 (hp d hd).2

namespace Lawful

lemma exists_dispatcher (h : e.Lawful x) (ha : a ∈ e.animations) {t : Nat}
    (ht : t ≤ a.plan.lastTick) : ∃ p, e.Plays x (.dispatcher a.plan.name t) p := by
  obtain ⟨f,hf,rfl⟩ := h.exists_frame ha ht
  exact ⟨_,.dispatcher ha hf⟩

/-- Any tick of an animation may be scheduled. -/
lemma schedule_refers (h : e.Lawful x) (ha : a ∈ e.animations) {t ticks : Nat}
    (ht : t ≤ a.plan.lastTick) :
    e.Refers x r (Frames.schedule (e.functions.dispatcher a.plan.name t) ticks) := by
  obtain ⟨p,hp⟩ := h.exists_dispatcher ha ht
  exact .of_schedule rfl rfl hp nofun

lemma setFrame_refers (e : CompiledEntity) (x : Exporter) (r : Role) (value : Int) :
    e.Refers x r (Frames.setFrame value) :=
  .of_none rfl (List.forall_mem_singleton.mpr (by decide))

lemma takeRequest_refers {t : Nat} {name : String}
    (hd : d ∈ Frames.takeRequest e.functions) : e.Refers x (.body name t) d := by
  have heach : ∀ d ∈ Frames.takeRequest e.functions, e.Refers x (.body name t) d :=
    List.forall_mem_cons.mpr ⟨.of_none rfl (by decide),List.forall_mem_cons.mpr
      ⟨.of_none rfl (by decide),List.forall_mem_singleton.mpr
        (.of_call rfl rfl .select Nat.one_lt_two (List.forall_mem_nil _))⟩⟩
  exact heach d hd

/-- What a body does after posing leads to a tick of its animation, to rest, or to what was asked
for. -/
lemma transition_refers (h : e.Lawful x) (ha : a ∈ e.animations) {t : Nat}
    (ht : t ≤ a.plan.lastTick)
    (hd : d ∈ Frames.transition e.functions e.animations.length a.plan t) :
    e.Refers x (.body a.plan.name t) d := by
  have hotherwise : ∀ {d}, e.Refers x (.body a.plan.name t) d →
      e.Refers x (.body a.plan.name t) (d.under (Frames.notRequested e.animations.length)) :=
    fun hd => hd.under (List.forall_mem_singleton.mpr (by decide))
  have hframe := setFrame_refers e x (.body a.plan.name t)
  unfold Frames.transition Plan.successor at hd
  by_cases hlast : t < a.plan.lastTick
  · rw [if_pos hlast] at hd
    rcases List.mem_pair.mp hd with rfl | rfl
    · exact hframe _
    · exact h.schedule_refers ha hlast
  · rw [if_neg hlast] at hd
    cases hpolicy : a.plan.policy with
    | once =>
      rw [hpolicy] at hd
      rcases List.mem_append.mp hd with hd | hd
      · exact takeRequest_refers hd
      · rcases List.mem_pair.mp hd with rfl | rfl
        · exact hotherwise (hframe _)
        · exact hotherwise (.of_schedule rfl rfl .dormant nofun)
    | hold =>
      rw [hpolicy] at hd
      rcases List.mem_append.mp hd with hd | hd
      · exact takeRequest_refers hd
      · rw [List.mem_singleton.mp hd]
        exact hotherwise (h.schedule_refers ha ht)
    | loop =>
      rw [hpolicy] at hd
      rcases List.mem_append.mp hd with hd | hd
      · exact takeRequest_refers hd
      · rcases List.mem_pair.mp hd with rfl | rfl
        · exact hotherwise (hframe _)
        · exact hotherwise (h.schedule_refers ha (Nat.zero_le _))

/-- All programs of an entity refer to what is there. -/
lemma refers (h : e.Lawful x) (hp : e.Plays x r p) (hd : d ∈ p) : e.Refers x r d := by
  cases hp with
  | load => exact .of_still .of_load hd
  | spawn => exact .of_still (.of_spawn x e.leaves) hd
  | remove => exact .of_still .of_remove hd
  | dormant => exact .of_still .of_dormant hd
  | select =>
    obtain ⟨⟨name,i⟩,hm,rfl⟩ := List.mem_map.mp hd
    have hname := List.mem_of_getElem? (List.mem_zipIdx_iff_getElem?.mp hm)
    obtain ⟨a,ha,rfl⟩ := List.mem_map.mp hname
    exact .under (.of_call rfl rfl (.entry ha) Nat.zero_lt_one nofun)
      (List.forall_mem_singleton.mpr (by decide))
  | @entry a ha =>
    simp only [Frames.entry,List.mem_cons,List.not_mem_nil,or_false] at hd
    rcases hd with rfl | rfl | rfl
    · exact setFrame_refers e x _ _
    · exact h.schedule_refers ha (Nat.zero_le _)
    · exact h.schedule_refers ha (Nat.zero_le _)
  | @dispatcher a f ha hf =>
    rw [List.mem_singleton.mp hd]
    exact .under (.of_call rfl rfl (.body ha hf) (Nat.lt_succ_self 2) nofun)
      (List.forall_mem_singleton.mpr List.mem_cons_self)
  | @body a f ha hf =>
    rcases List.mem_append.mp hd with hd | hd
    · exact .of_still (.of_posing x f.placed) hd
    · exact h.transition_refers ha (h.frame ha hf).tick_le hd

end Lawful

/-- One program calls another. -/
def Calls (e : CompiledEntity) (path path' : ResourcePath) : Prop :=
  ∃ p, (path,p) ∈ e.programs ∧ ∃ d ∈ p, d.innermost = .call path'

/-- Calls lead down. -/
lemma Lawful.depth_lt (h : e.Lawful x) {path path' : ResourcePath}
    (hc : Relation.TransGen e.Calls path path') : ∃ r q, path = e.functions.path r ∧
      path' = e.functions.path q ∧ q.depth < r.depth := by
  have hstep : ∀ {path path'}, e.Calls path path' → ∃ r q, path = e.functions.path r ∧
      path' = e.functions.path q ∧ q.depth < r.depth := by
    rintro path path' ⟨p,hp,d,hd,hcall⟩
    obtain ⟨r,hr,hplays⟩ := h.mem_programs.mp hp
    obtain ⟨q,hq,hdepth⟩ := (h.refers hplays hd).called path' hcall
    exact ⟨r,q,hr,hq,hdepth⟩
  induction hc with
  | single hc => exact hstep hc
  | tail _ hc ih =>
    obtain ⟨r,q,hr,hq,hdepth⟩ := ih
    obtain ⟨q',s,hq',hs,hdepth'⟩ := hstep hc
    obtain rfl := h.path_injective (hq.symm.trans hq')
    exact ⟨r,s,hr,hs,hdepth'.trans hdepth⟩

/-- The programs of an entity refer to nothing that is not there. What a program is called in a line
and where its file stands are told by its namespace and its segments. -/
structure ProgramsClosed (e : CompiledEntity) : Prop where
  files : ∀ q ∈ e.programs, e.artifacts.get? ("data/" ++ q.1.space ++ "/functions/" ++
    "/".intercalate q.1.segments ++ ".mcfunction") = some q.2.text.toUTF8
  named : ∀ q ∈ e.programs, ∀ d ∈ q.2, ∀ f, d.named? = some f →
    (∃ before after, d.text =
      before ++ "function " ++ f.space ++ ":" ++ "/".intercalate f.segments ++ after) ∧
    ∃ p, (f,p) ∈ e.programs ∧ e.artifacts.get? ("data/" ++ f.space ++ "/functions/" ++
      "/".intercalate f.segments ++ ".mcfunction") = some p.text.toUTF8
  acyclic : ∀ path, ¬Relation.TransGen e.Calls path path
  objectives : ∃ load, (e.functions.load,load) ∈ e.programs ∧
    ∀ q ∈ e.programs, ∀ d ∈ q.2, ∀ o ∈ d.objectives, ∃ r ∈ load, r = .addObjective o ∧
      r.text = "scoreboard objectives add " ++ o ++ " dummy"

/-- The text of one program calls another by its name. -/
def TextCalls (e : CompiledEntity) (name name' : String) : Prop :=
  ∃ q ∈ e.programs, name = q.1.space ++ ":" ++ "/".intercalate q.1.segments ∧
    .called name' ∈ Mention.inText q.2.text

/-- What can be read from the texts of the programs alone. All that their lines call or schedule has
a file, calls go in no circle, and the lines of the program that loads the entity register all
objectives that any line is about. -/
structure TextsClosed (e : CompiledEntity) (x : Exporter) : Prop where
  named : ∀ q ∈ e.programs, ∀ m ∈ Mention.inText q.2.text, ∃ f p, (f,p) ∈ e.programs ∧
    m.name = f.space ++ ":" ++ "/".intercalate f.segments ∧
      e.artifacts.get? ("data/" ++ f.space ++ "/functions/" ++ "/".intercalate f.segments ++
        ".mcfunction") = some p.text.toUTF8
  acyclic : ∀ name, ¬Relation.TransGen e.TextCalls name name
  objectives : ∃ load : String, e.artifacts.get? ("data/" ++ x.space ++ "/functions/" ++ x.entity ++
      "/load.mcfunction") = some load.toUTF8 ∧
    ∀ q ∈ e.programs, ∀ o ∈ objectivesInText q.2.text,
      "scoreboard objectives add " ++ o ++ " dummy" ∈ lines load

section Closed

variable {store : TextureStore}

lemma Filed.function (hget : e.Filed x store) (h : e.Lawful x) {f : ResourcePath}
    (hp : (f,p) ∈ e.programs) : e.artifacts.get? ("data/" ++ f.space ++ "/functions/" ++
      "/".intercalate f.segments ++ ".mcfunction") = some p.text.toUTF8 :=
  Compile.functionFile_eq f ▸ hget.program h hp

/-- The objectives of all programs are registered at loading. -/
lemma Lawful.registered (h : e.Lawful x) {q : ResourcePath × Program} (hq : q ∈ e.programs)
    (hd : d ∈ q.2) {o : String} (ho : o ∈ d.objectives) : .addObjective o ∈ Support.load := by
  obtain ⟨r,_,hr⟩ := h.mem_programs.mp hq
  have hall : ∀ o ∈ Names.objectives, .addObjective o ∈ Support.load := by decide
  exact hall o ((h.refers hr hd).objectives o ho)

/-- A program that is named is there. -/
lemma Lawful.exists_named (h : e.Lawful x) {q : ResourcePath × Program} (hq : q ∈ e.programs)
    (hd : d ∈ q.2) {f : ResourcePath} (hf : d.named? = some f) : ∃ p, (f,p) ∈ e.programs := by
  obtain ⟨r,_,hr⟩ := h.mem_programs.mp hq
  obtain ⟨s,p,rfl,hs⟩ := (h.refers hr hd).named f hf
  exact ⟨p,h.mem_programs.mpr ⟨s,rfl,hs⟩⟩

lemma Lawful.calls_acyclic (h : e.Lawful x) (path : ResourcePath) :
    ¬Relation.TransGen e.Calls path path := by
  intro hc
  obtain ⟨r,s,hr,hs,hdepth⟩ := h.depth_lt hc
  obtain rfl := h.path_injective (hr.symm.trans hs)
  exact absurd hdepth (lt_irrefl _)

lemma Filed.programsClosed (hget : e.Filed x store) (h : e.Lawful x) : e.ProgramsClosed := by
  refine ⟨fun q hq => hget.function h hq,fun q hq d hd f hf => ⟨?_,?_⟩,h.calls_acyclic,
    ⟨Support.load,h.mem_programs.mpr ⟨.load,rfl,.load⟩,fun q hq d hd o ho =>
      ⟨.addObjective o,h.registered hq hd ho,rfl,rfl⟩⟩⟩
  · exact Directive.exists_line_eq ((d.named?_map _).trans hf)
  · obtain ⟨p,hp⟩ := h.exists_named hq hd hf
    exact ⟨p,hp,hget.function h hp⟩

/-- What the text of a proper program says of others is what its directives say. -/
lemma inText_text (hp : p.Proper) : Mention.inText p.text = p.filterMap Directive.mention? := by
  have heach : ∀ d ∈ p, Mention.ofWords? (pieces d.text) = d.mention? := by
    intro d hd
    rw [Directive.pieces_text (hp d hd),Mention.ofWords?_words,Directive.mention?_map]
  rw [Mention.inText,Program.lines_text hp,List.filterMap_append,List.filterMap_map]
  exact (List.append_nil _).trans (List.filterMap_congr heach)

/-- The text of a proper program is about the objectives of its directives. -/
lemma objectivesInText_text (hp : p.Proper) :
    objectivesInText p.text = p.flatMap Directive.objectives := by
  have heach : ∀ d ∈ p, objectivesOfWords (pieces d.text) = d.objectives := by
    intro d hd
    rw [Directive.pieces_text (hp d hd),
      Directive.objectivesOfWords_words ((d.proper_map directiveNumber).mpr (hp d hd)),
      Directive.objectives_map]
  rw [objectivesInText,Program.lines_text hp,List.flatMap_append,List.flatMap_map]
  exact (List.append_nil _).trans (List.flatMap_congr heach)

/-- Calls in texts are calls of programs, which the names tell. -/
lemma Lawful.exists_calls (h : e.Lawful x) (hproper : ∀ q ∈ e.programs, q.1.Proper ∧ q.2.Proper)
    {name name' : String} (hc : Relation.TransGen e.TextCalls name name') : ∃ f g, f.Proper ∧
      g.Proper ∧ name = f.text ∧ name' = g.text ∧ Relation.TransGen e.Calls f g := by
  have hstep : ∀ {name name'}, e.TextCalls name name' → ∃ f g, f.Proper ∧ g.Proper ∧
      name = f.text ∧ name' = g.text ∧ e.Calls f g := by
    rintro name name' ⟨q,hq,hname,hm⟩
    rw [inText_text (hproper q hq).2,List.mem_filterMap] at hm
    obtain ⟨d,hd,hm⟩ := hm
    obtain ⟨g,hcall,hname'⟩ := Directive.mention?_eq_called hm
    obtain ⟨p,hp⟩ := h.exists_named hq hd (f := g) (by rw [Directive.named?,hcall])
    exact ⟨q.1,g,(hproper q hq).1,(hproper _ hp).1,hname,hname',q.2,hq,d,hd,hcall⟩
  induction hc with
  | single hc =>
    obtain ⟨f,g,hf,hg,hname,hname',hc⟩ := hstep hc
    exact ⟨f,g,hf,hg,hname,hname',.single hc⟩
  | tail _ hc ih =>
    obtain ⟨f,g,hf,hg,hname,hmid,hfg⟩ := ih
    obtain ⟨g',k,hg',hk,hmid',hname',hc⟩ := hstep hc
    obtain rfl := ResourcePath.text_inj hg hg' (hmid.symm.trans hmid')
    exact ⟨f,k,hf,hk,hname,hname',hfg.tail hc⟩

lemma Filed.textsClosed (hget : e.Filed x store) (h : e.Lawful x)
    (hproper : ∀ q ∈ e.programs, q.1.Proper ∧ q.2.Proper) : e.TextsClosed x := by
  refine ⟨fun q hq m hm => ?_,fun name hc => ?_,⟨Support.load.text,?_,fun q hq o ho => ?_⟩⟩
  · rw [inText_text (hproper q hq).2,List.mem_filterMap] at hm
    obtain ⟨d,hd,hm⟩ := hm
    obtain ⟨f,hf,hname⟩ := Directive.exists_named?_of_mention? hm
    obtain ⟨p,hp⟩ := h.exists_named hq hd hf
    exact ⟨f,p,hp,hname,hget.function h hp⟩
  · obtain ⟨f,g,hf,hg,hname,hname',hc⟩ := h.exists_calls hproper hc
    obtain rfl := ResourcePath.text_inj hf hg (hname.symm.trans hname')
    exact h.calls_acyclic f hc
  · have hplace : (Article.program .load).place x =
        "data/" ++ x.space ++ "/functions/" ++ x.entity ++ "/load.mcfunction" := by
      simp [Article.place,← String.toList_inj]
    exact hplace ▸ hget.get?_place (.program .load)
  · rw [objectivesInText_text (hproper q hq).2,List.mem_flatMap] at ho
    obtain ⟨d,hd,ho⟩ := ho
    rw [Program.lines_text .of_load]
    exact List.mem_append_left _ (List.mem_map.mpr ⟨_,h.registered hq hd ho,rfl⟩)

end Closed

end CompiledEntity

end RigPack
