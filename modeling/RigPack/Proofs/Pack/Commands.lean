import RigPack.Proofs.Pack.Outcome
import RigPack.Proofs.Program.Words

/-!
The text of programs. It has a line for each directive and tells the program, as far as numbers are
told by the way they are printed. The names of an entity are checked before it is compiled, so none
of them can make another command of a command, or several, or none.
-/

namespace RigPack

open Text

namespace Directive

variable {N M : Type} (f : N → M)

lemma proper_map (d : Directive N) : (d.map f).Proper ↔ d.Proper := by
  induction d with
  | execute clauses run ih => exact and_congr Iff.rfl ih
  | _ => rfl

lemma numbers_map (d : Directive N) : (d.map f).numbers = d.numbers.map f := by
  induction d with
  | execute clauses run ih => exact ih
  | _ => rfl

lemma isNumeral_numbers (d : Directive Float) :
    ∀ s ∈ (d.map directiveNumber).numbers, isNumeral s := by
  rw [numbers_map]
  exact List.forall_mem_map.mpr fun x _ => isNumeral_directiveNumber x

/-- The line of a proper directive is one line. -/
lemma break_not_mem_text {d : Directive Float} (hd : d.Proper) : '\n' ∉ d.text.toList :=
  break_not_mem_line ((d.proper_map directiveNumber).mpr hd) d.isNumeral_numbers

/-- The line of a proper directive tells its words. -/
lemma pieces_text {d : Directive Float} (hd : d.Proper) :
    pieces d.text = (d.map directiveNumber).words :=
  pieces_line ((d.proper_map directiveNumber).mpr hd) d.isNumeral_numbers

lemma map_eq_of_text {d e : Directive Float} (hd : d.Proper) (he : e.Proper)
    (h : d.text = e.text) : d.map directiveNumber = e.map directiveNumber :=
  line_inj ((d.proper_map directiveNumber).mpr hd) ((e.proper_map directiveNumber).mpr he)
    d.isNumeral_numbers e.isNumeral_numbers h

end Directive

namespace Program

/-- All directives of the program are proper. -/
def Proper (p : Program) : Prop :=
  ∀ d ∈ p, d.Proper

instance (p : Program) : Decidable p.Proper :=
  inferInstanceAs (Decidable (∀ d ∈ p, d.Proper))

lemma toList_text_cons (d : Directive Float) (p : Program) :
    (text (d::p)).toList = d.text.toList ++ '\n'::(text p).toList := by
  have htext : text (d::p) = d.text ++ "\n" ++ text p := String.join_cons
  rw [htext,String.toList_append,String.toList_append,List.append_assoc]
  rfl

/-- The text of a program, cut at its line breaks: a line to each directive, and nothing after the
last break. -/
lemma split_text {p : Program} (hp : p.Proper) :
    p.text.toList.splitOn '\n' = (p.map fun d => d.text.toList) ++ [[]] := by
  induction p with
  | nil => rfl
  | cons d p ih =>
    obtain ⟨hd,hrest⟩ := List.forall_mem_cons.mp hp
    rw [toList_text_cons,List.splitOn_append_cons_self_of_not_mem (Directive.break_not_mem_text hd),
      ih hrest]
    rfl

/-- The lines of a program, and what follows the last break. -/
lemma lines_text {p : Program} (hp : p.Proper) : lines p.text = p.map Directive.text ++ [""] := by
  have hback : String.ofList ∘ (fun d : Directive Float => d.text.toList) = Directive.text :=
    funext fun d => String.ofList_toList
  rw [lines,split_text hp,List.map_append,List.map_map,hback]
  rfl

lemma count_text {p : Program} (hp : p.Proper) : p.text.toList.count '\n' = p.length := by
  induction p with
  | nil => rfl
  | cons d p ih =>
    obtain ⟨hd,hrest⟩ := List.forall_mem_cons.mp hp
    rw [toList_text_cons,List.count_append,List.count_eq_zero.mpr (Directive.break_not_mem_text hd),
      List.count_cons_self,ih hrest,Nat.zero_add,List.length_cons]

lemma map_eq_of_text {p q : Program} (hp : p.Proper) (hq : q.Proper) (h : p.text = q.text) :
    p.map (Directive.map directiveNumber) = q.map (Directive.map directiveNumber) := by
  have hlines : p.map (fun d => d.text.toList) = q.map fun d => d.text.toList := by
    have hsplit := split_text hp
    rw [h,split_text hq] at hsplit
    exact (List.append_cancel_right hsplit).symm
  clear h
  induction p generalizing q with
  | nil => rw [List.map_eq_nil_iff.mp hlines.symm]
  | cons d p ih =>
    cases q with
    | nil => exact absurd hlines (List.cons_ne_nil _ _)
    | cons e q =>
      obtain ⟨hd,hp⟩ := List.forall_mem_cons.mp hp
      obtain ⟨he,hq⟩ := List.forall_mem_cons.mp hq
      obtain ⟨hline,hlines⟩ := List.cons.inj hlines
      rw [List.map_cons,List.map_cons,ih hp hq hlines,
        Directive.map_eq_of_text hd he (String.toList_inj.mp hline)]

end Program

/-- What an exporter goes by is made of names. -/
structure Exporter.Proper (x : Exporter) : Prop where
  entity : isName x.entity
  space : isName x.space
  item : isItem x.item

lemma isItem_of_split {item : String} (hspace : isSegment (splitItem item).1)
    (hname : isSegment (splitItem item).2) : isItem item := by
  have hparts := List.takeWhile_append_dropWhile (p := (· != ':')) (l := item.toList)
  unfold splitItem at hspace hname
  rw [List.span_eq_takeWhile_dropWhile] at hspace hname
  cases hrest : item.toList.dropWhile (· != ':') with
  | nil =>
    rw [hrest] at hname
    obtain ⟨hne,hall,_⟩ := isSegment_iff.mp hname
    rw [isItem,Bool.and_eq_true,bne_iff_ne]
    exact ⟨hne,List.all_eq_true.mpr fun c hc => by simp [hall c hc]⟩
  | cons c name =>
    rw [hrest] at hspace hname hparts
    have hcolon : c = ':' := by
      have := List.head_dropWhile_not (p := (· != ':')) (l := item.toList) (by simp [hrest])
      simpa [hrest] using this
    have hletters : ∀ a ∈ item.toList, isSegmentChar a = true ∨ a = ':' := by
      rw [← hparts]
      refine List.forall_mem_append.mpr ⟨fun a ha => .inl ?_,
        List.forall_mem_cons.mpr ⟨.inr hcolon,fun a ha => .inl ?_⟩⟩
      · exact (isSegment_iff.mp hspace).2.1 a (by rwa [String.toList_ofList])
      · exact (isSegment_iff.mp hname).2.1 a (by rwa [String.toList_ofList])
    rw [isItem,Bool.and_eq_true,bne_iff_ne]
    refine ⟨fun h => ?_,List.all_eq_true.mpr fun a ha => by simpa using hletters a ha⟩
    simp [h] at hrest

namespace Exporter.Proper

variable {x : Exporter}

lemma entityTag (h : x.Proper) : isName (Names.entityTag x.entity) :=
  isName_append (by decide) h.entity

lemma tag (h : x.Proper) {l : Leaf Float} (hl : isName l.name) : isName (x.tag l) :=
  isName_append (isName_append h.entityTag (by decide)) hl

/-- The paths of programs are made of names if those of the animations are. -/
lemma path (h : x.Proper) {r : Role} (hr : ∀ s ∈ r.segments, isName s) :
    ((Functions.ofEntity x.space x.entity).path r).Proper := by
  refine ⟨by cases r <;> exact h.space,?_⟩
  rw [Functions.segments_path]
  exact List.forall_mem_cons.mpr ⟨h.entity,hr⟩

lemma entry (h : x.Proper) {name : String} (hn : isName name) :
    ((Functions.ofEntity x.space x.entity).entry name).Proper := by
  refine h.path (r := .entry name) ?_
  simp only [Role.segments,List.forall_mem_cons,hn]
  decide

lemma dispatcher (h : x.Proper) {name : String} (hn : isName name) (t : Nat) :
    ((Functions.ofEntity x.space x.entity).dispatcher name t).Proper := by
  refine h.path (r := .dispatcher name t) ?_
  have ht : isName (toString t ++ "_") := isName_append (isName_nat t) (by decide)
  simp only [Role.segments,List.forall_mem_cons,hn,ht]
  decide

lemma body (h : x.Proper) {name : String} (hn : isName name) (t : Nat) :
    ((Functions.ofEntity x.space x.entity).body name t).Proper := by
  refine h.path (r := .body name t) ?_
  have ht : isName (toString t) := isName_nat t
  simp only [Role.segments,List.forall_mem_cons,hn,ht]
  decide

end Exporter.Proper

namespace Program.Proper

variable {p q : Program} {x : Exporter} {plan : Plan}

lemma append (hp : p.Proper) (hq : q.Proper) : (p ++ q : Program).Proper :=
  List.forall_mem_append.mpr ⟨hp,hq⟩

lemma of_load : Support.load.Proper := by decide

lemma of_remove : Support.remove.Proper := by decide

lemma of_dormant : Support.dormant.Proper := by decide

lemma of_posing (hx : x.Proper) {placed : List (Placed Float)}
    (hplaced : ∀ l ∈ placed, isName l.leaf.name) : (Frames.posing x placed).Proper := by
  have hposes : Program.Proper (placed.flatMap fun l => x.pose l.leaf l.world) := by
    intro d hd
    obtain ⟨l,hl,hd⟩ := List.mem_flatMap.mp hd
    have htarget : Target.Proper (.select
        { tags := [Names.active,x.tag l.leaf], single := true }) :=
      ⟨List.forall_mem_cons.mpr ⟨by decide,List.forall_mem_singleton.mpr
        (hx.tag (hplaced l hl))⟩,nofun⟩
    rcases List.mem_pair.mp hd with rfl | rfl <;> exact htarget
  have hblank : Program.Proper [.blank] := by decide
  have hisolate : Frames.isolate.Proper := by decide
  have hrelease : Frames.release.Proper := by decide
  exact (((hisolate.append hblank).append hposes).append hblank).append hrelease

lemma of_spawn (hx : x.Proper) {leaves : List (Leaf Float)}
    (hleaves : ∀ l ∈ leaves, isName l.name) : (Support.spawn x leaves).Proper := by
  have hsummons : Program.Proper (leaves.map x.spawn) := by
    refine List.forall_mem_map.mpr fun l hl => ⟨?_,hx.item⟩
    simp only [List.forall_mem_cons,hx.tag (hleaves l hl)]
    decide
  refine append (append ?_ hsummons) (by decide)
  simp only [Program.Proper,List.forall_mem_cons,Directive.Proper,hx.entityTag]
  decide

lemma of_select (hx : x.Proper) {names : List String} (hn : ∀ s ∈ names, isName s) :
    (Support.select (Functions.ofEntity x.space x.entity) names).Proper := by
  intro d hd
  obtain ⟨⟨name,i⟩,hm,rfl⟩ := List.mem_map.mp hd
  have hname := hn name (List.mem_of_getElem? (List.mem_zipIdx_iff_getElem?.mp hm))
  have hpending : isName Names.pending := by decide
  exact ⟨List.forall_mem_singleton.mpr hpending,hx.entry hname⟩

lemma of_entry (hx : x.Proper) (hp : isName plan.name) :
    (Frames.entry (Functions.ofEntity x.space x.entity) plan).Proper := by
  have hframe : isName Names.frame := by decide
  have hfirst := hx.dispatcher hp 0
  exact List.forall_mem_cons.mpr ⟨⟨trivial,hframe⟩,
    List.forall_mem_cons.mpr ⟨hfirst,List.forall_mem_singleton.mpr hfirst⟩⟩

lemma of_dispatcher (hx : x.Proper) (hp : isName plan.name) (t : Nat) :
    (Frames.dispatcher x.entity (Functions.ofEntity x.space x.entity) plan t).Proper := by
  have hframe : isName Names.frame := by decide
  have hwaiting : Target.Proper (.select
      ⟨[Names.entityTag x.entity],[(Names.frame,.exactly (plan.frameId t))],false⟩) :=
    ⟨List.forall_mem_singleton.mpr hx.entityTag,List.forall_mem_singleton.mpr hframe⟩
  exact List.forall_mem_singleton.mpr ⟨List.forall_mem_cons.mpr
    ⟨hwaiting,List.forall_mem_singleton.mpr trivial⟩,hx.body hp t⟩

lemma of_transition (hx : x.Proper) (hp : isName plan.name) (n t : Nat) :
    (Frames.transition (Functions.ofEntity x.space x.entity) n plan t).Proper := by
  have hframe (v : Int) : (Frames.setFrame v).Proper := ⟨trivial,by decide⟩
  have hselect : (Functions.ofEntity x.space x.entity).select.Proper :=
    hx.path (r := .select) (by decide)
  have hdormant : (Functions.ofEntity x.space x.entity).dormant.Proper :=
    hx.path (r := .dormant) (by decide)
  have htake : (Frames.takeRequest (Functions.ofEntity x.space x.entity)).Proper := by
    simp only [Frames.takeRequest,Program.Proper,List.forall_mem_cons,Directive.Proper,hselect]
    decide
  have hotherwise {d : Directive Float} (hd : d.Proper) :
      (d.under (Frames.notRequested n)).Proper :=
    ⟨List.forall_mem_singleton.mpr (by decide : isName Names.pending),hd⟩
  unfold Frames.transition Plan.successor
  by_cases hlast : t < plan.lastTick
  · rw [if_pos hlast]
    exact List.forall_mem_cons.mpr ⟨hframe _,List.forall_mem_singleton.mpr (hx.dispatcher hp _)⟩
  · rw [if_neg hlast]
    cases plan.policy with
    | once =>
      exact htake.append (List.forall_mem_cons.mpr
        ⟨hotherwise (hframe _),List.forall_mem_singleton.mpr (hotherwise hdormant)⟩)
    | hold =>
      exact htake.append (List.forall_mem_singleton.mpr (hotherwise (hx.dispatcher hp _)))
    | loop =>
      exact htake.append (List.forall_mem_cons.mpr
        ⟨hotherwise (hframe _),List.forall_mem_singleton.mpr (hotherwise (hx.dispatcher hp _))⟩)

end Program.Proper

/-- The programs of an entity are proper where its names are. -/
lemma CompiledEntity.Lawful.proper {e : CompiledEntity} {x : Exporter} {r : Role} {p : Program}
    (h : e.Lawful x) (hx : x.Proper) (hleaves : ∀ l ∈ e.leaves, isName l.name)
    (hanimations : ∀ a ∈ e.animations, isName a.plan.name) (hp : e.Plays x r p) : p.Proper := by
  cases hp with
  | load => exact .of_load
  | spawn => exact .of_spawn hx hleaves
  | remove => exact .of_remove
  | dormant => exact .of_dormant
  | select => exact h.functions ▸ .of_select hx (List.forall_mem_map.mpr hanimations)
  | entry ha => exact h.functions ▸ .of_entry hx (hanimations _ ha)
  | dispatcher ha hf => exact h.functions ▸ .of_dispatcher hx (hanimations _ ha) _
  | body ha hf =>
    refine (Program.Proper.of_posing hx fun l hl => hleaves l.leaf ?_).append
      (h.functions ▸ .of_transition hx (hanimations _ ha) _ _)
    exact (h.frame ha hf).placed ▸ List.mem_map_of_mem hl

/-- The paths of an entity's programs are made of names where its names are. -/
lemma CompiledEntity.Lawful.proper_path {e : CompiledEntity} {x : Exporter} {r : Role} {p : Program}
    (h : e.Lawful x) (hx : x.Proper) (hanimations : ∀ a ∈ e.animations, isName a.plan.name)
    (hp : e.Plays x r p) : (e.functions.path r).Proper := by
  rw [h.functions]
  cases hp with
  | entry ha => exact hx.entry (hanimations _ ha)
  | dispatcher ha hf => exact hx.dispatcher (hanimations _ ha) _
  | body ha hf => exact hx.body (hanimations _ ha) _
  | _ => exact hx.path (by decide)

lemma Entity.compile_proper {disk : FileTree} {entity : Entity} {c c' : Context}
    {e : CompiledEntity} (ho : c.options.validate = .ok ())
    (h : entity.compile disk c = (.ok e,c')) : ∀ q ∈ e.programs, q.1.Proper ∧ q.2.Proper ∧
      e.artifacts.get? (Compile.functionFile q.1) = some q.2.text.toUTF8 := by
  obtain ⟨x,store,c₁,c₂,hp,hget,_⟩ := compile_filed h
  obtain ⟨hspace,hitem,hname⟩ := Options.segments_of_validate ho
  have hrig := Rig.wellFormed_of_validate hp.valid
  have hx : x.Proper := by
    rw [hp.exporter]
    exact ⟨isName_of_isSegment hrig.name,isName_of_isSegment hspace,isItem_of_split hitem hname⟩
  have hleaves : ∀ l ∈ e.leaves, isName l.name := by
    intro l hl
    obtain ⟨q,hq,hlq⟩ := exists_partner_left hp.leaves_each l hl
    have hlname : l.name = q.name := congrArg Leaf.name hlq
    exact hlname ▸ isName_of_isSegment (hrig.parts q hq).1
  have hanimations : ∀ a ∈ e.animations, isName a.plan.name := by
    intro a ha
    obtain ⟨b,hb,hmade⟩ := exists_partner_left hp.animations_made a ha
    exact hmade.name ▸ isName_of_isSegment (hrig.animations b hb)
  intro q hq
  obtain ⟨r,hpath,hr⟩ := hp.lawful.mem_programs.mp hq
  exact ⟨hpath ▸ hp.lawful.proper_path hx hanimations hr,
    hp.lawful.proper hx hleaves hanimations hr,hget.program hp.lawful hq⟩

/-- The text of a program tells the program, up to the numbers of its poses, which it tells as they
are printed. It has a line to each directive. The programs of compiled entities are among those of
which this holds, so the file of each has as many lines as the program has directives, and whatever
names are in it, it can be read as this program only. -/
theorem Program.text_determines {p q : Program} (hp : p.Proper) (hq : q.Proper) :
    (p.text = q.text ↔
      p.map (Directive.map directiveNumber) = q.map (Directive.map directiveNumber)) ∧
    (p.text.toList.splitOn '\n' = (p.map fun d => d.text.toList) ++ [[]] ∧
      p.text.toList.count '\n' = p.length) ∧
    ∀ (disk : FileTree) (entity : Entity) (c c' : Context) (e : CompiledEntity),
      c.options.validate = .ok () → entity.compile disk c = (.ok e,c') →
        ∀ path program, (path,program) ∈ e.programs → program.Proper ∧
          e.artifacts.get? (Compile.functionFile path) = some program.text.toUTF8 ∧
          program.text.toList.count '\n' = program.length ∧
          ∀ other : Program, other.Proper → other.text = program.text →
            other.map (Directive.map directiveNumber) =
              program.map (Directive.map directiveNumber) := by
  refine ⟨⟨map_eq_of_text hp hq,fun h => ?_⟩,⟨split_text hp,count_text hp⟩,
    fun disk entity c c' e ho h path program hprogram => ?_⟩
  · have hlines := congrArg (fun l => String.join (l.map fun d => d.line ++ "\n")) h
    rw [List.map_map,List.map_map] at hlines
    exact hlines
  · obtain ⟨_,hproper,hfile⟩ := Entity.compile_proper ho h _ hprogram
    exact ⟨hproper,hfile,count_text hproper,fun other ho' => map_eq_of_text ho' hproper⟩

section Wrappers

/-- One wrapper with two clauses. -/
def once : Program := [.execute [.asEach .this,.atSelf] (.kill .this)]

/-- Two wrappers, each with one of them. -/
def twice : Program := [.execute [.asEach .this] (.execute [.atSelf] (.kill .this))]

/-- Wrappers that do the same have texts of their own. -/
theorem wrappers_told : once.Proper ∧ twice.Proper ∧ once.text ≠ twice.text := by
  have honce : once.Proper := by decide
  have htwice : twice.Proper := by decide
  refine ⟨honce,htwice,fun h => ?_⟩
  exact absurd ((Program.text_determines honce htwice).1.mp h) (by decide)

end Wrappers

end RigPack
