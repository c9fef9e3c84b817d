import Mathlib.Tactic
import RigPack.Proofs.Pack.Loading
import RigPack.Proofs.Pack.Identities
import RigPack.Proofs.World.Bodies

/-!
The whole numbers that stand in programs. Scores come from frame ids and from numbers of animations,
which the allocation of frames keeps within thirty-two bits with a sign. The custom ids of summoned
proxies come from authors and from the counter of custom ids, which nothing keeps there.
-/

namespace RigPack

/-- The scores that a condition names. -/
def ScoreRange.bounds : ScoreRange → List Int
  | exactly v => [v]
  | between low high => [low,high]

def Target.bounds : Target → List Int
  | select s => s.scores.flatMap fun r => r.2.bounds
  | _ => []

def Clause.bounds : Clause → List Int
  | asEach target => target.bounds
  | atSelf => []
  | ifScore _ range => range.bounds
  | unlessScore _ range => range.bounds

namespace Directive

variable {N : Type}

/-- The scores that a directive gives, and those that its targets and conditions name. -/
def scores : Directive N → List Int
  | blank => []
  | comment _ => []
  | addObjective _ => []
  | setScore target _ value => value::target.bounds
  | addScore target _ value => value::target.bounds
  | operateScore target _ _ source _ => target.bounds ++ source.bounds
  | addTag target _ => target.bounds
  | removeTag target _ => target.bounds
  | summon _ _ _ => []
  | teleport target _ _ _ => target.bounds
  | poseHead target _ _ _ => target.bounds
  | call _ => []
  | schedule _ _ _ => []
  | kill target => target.bounds
  | execute clauses run => clauses.flatMap Clause.bounds ++ run.scores

/-- The custom ids that a directive gives to stands, inside all its clauses. -/
def customIds (d : Directive N) : List UInt32 :=
  match d.innermost with
  | summon _ _ customId => [customId]
  | _ => []

/-- The whole numbers of a directive. -/
def integers (d : Directive N) : List Int :=
  d.scores ++ d.customIds.map fun id => (id.toNat : Int)

end Directive

/-- The numbers of thirty-two bits with a sign. -/
def Signed32 (v : Int) : Prop :=
  -2^31 ≤ v ∧ v ≤ 2^31 - 1

instance (v : Int) : Decidable (Signed32 v) :=
  inferInstanceAs (Decidable (_ ∧ _))

lemma Signed32.of_nat {n : Nat} (h : n ≤ Context.frameLimit) : Signed32 n := by
  simp only [Context.frameLimit] at h
  exact ⟨by omega,by omega⟩

/-- What a directive may hold of whole numbers: scores of thirty-two bits and certain custom ids. -/
structure Directive.Bounded (ids : List UInt32) (d : Directive Float) : Prop where
  scores : ∀ v ∈ d.scores, Signed32 v
  customIds : ∀ id ∈ d.customIds, id ∈ ids

namespace Directive.Bounded

variable {ids : List UInt32} {d : Directive Float}

/-- A directive that summons nothing. -/
lemma of_scores (hc : d.customIds = []) (h : ∀ v ∈ d.scores, Signed32 v) : d.Bounded ids :=
  ⟨h,by simp [hc]⟩

/-- A directive without whole numbers. -/
lemma of_integers (h : d.integers = []) : d.Bounded ids := by
  obtain ⟨hs,hc⟩ := List.append_eq_nil_iff.mp h
  exact .of_scores (List.map_eq_nil_iff.mp hc) (by simp [hs])

lemma under (h : d.Bounded ids) {clauses : List Clause}
    (hc : ∀ v ∈ clauses.flatMap Clause.bounds, Signed32 v) : (d.under clauses).Bounded ids :=
  ⟨List.forall_mem_append.mpr ⟨hc,h.scores⟩,h.customIds⟩

lemma schedule (path : ResourcePath) (ticks : Nat) : (Frames.schedule path ticks).Bounded ids :=
  .of_integers rfl

/-- The frame counter is set to the id of a tick or to the one after it. -/
lemma setFrame {n : Nat} (h : n ≤ Context.frameLimit) : (Frames.setFrame n).Bounded ids :=
  .of_scores rfl (List.forall_mem_singleton.mpr (.of_nat h))

end Directive.Bounded

/-- A program that holds no other whole numbers. -/
def Program.Bounded (ids : List UInt32) (p : Program) : Prop :=
  ∀ d ∈ p, d.Bounded ids

namespace Program.Bounded

variable {ids : List UInt32} {p q : Program}

lemma append (hp : p.Bounded ids) (hq : q.Bounded ids) : (p ++ q : Program).Bounded ids :=
  List.forall_mem_append.mpr ⟨hp,hq⟩

/-- A program that summons nothing. -/
lemma of_scores (h : ∀ d ∈ p, d.customIds = [] ∧ ∀ v ∈ d.scores, Signed32 v) : p.Bounded ids :=
  fun d hd => .of_scores (h d hd).1 (h d hd).2

lemma of_load : Support.load.Bounded ids := of_scores (by decide)

lemma of_remove : Support.remove.Bounded ids := of_scores (by decide)

lemma of_dormant : Support.dormant.Bounded ids := of_scores (by decide)

lemma of_posing (x : Exporter) (placed : List (Placed Float)) :
    (Frames.posing x placed).Bounded ids := by
  have hposes : Program.Bounded ids (placed.flatMap fun l => x.pose l.leaf l.world) := by
    refine of_scores fun d hd => ?_
    obtain ⟨l,_,hd⟩ := List.mem_flatMap.mp hd
    rcases List.mem_pair.mp hd with rfl | rfl <;> exact ⟨rfl,nofun⟩
  have hblank : Program.Bounded ids [.blank] := of_scores (by decide)
  have hisolate : Frames.isolate.Bounded ids := of_scores (by decide)
  have hrelease : Frames.release.Bounded ids := of_scores (by decide)
  exact (((hisolate.append hblank).append hposes).append hblank).append hrelease

/-- Each proxy gets the custom id of its leaf. -/
lemma of_spawn (x : Exporter) (leaves : List (Leaf Float)) :
    (Support.spawn x leaves).Bounded (leaves.map Leaf.customId) := by
  have hsummons : Program.Bounded (leaves.map Leaf.customId) (leaves.map x.spawn) := by
    intro d hd
    obtain ⟨l,hl,rfl⟩ := List.mem_map.mp hd
    refine ⟨nofun,fun id hid => ?_⟩
    rw [List.mem_singleton.mp hid]
    exact List.mem_map_of_mem hl
  refine append (append (of_scores fun d hd => ?_) hsummons) (of_scores (by decide))
  simp only [List.mem_cons,List.not_mem_nil,or_false] at hd
  rcases hd with rfl | rfl | rfl | rfl
  · decide
  · decide
  · exact ⟨rfl,nofun⟩
  · exact ⟨rfl,nofun⟩

/-- Animations are asked for by their numbers. -/
lemma of_select (f : Functions) {names : List String} (hn : names.length ≤ Context.frameLimit) :
    (Support.select f names).Bounded ids := by
  intro d hd
  obtain ⟨⟨name,i⟩,hm,rfl⟩ := List.mem_map.mp hd
  have hi := (List.getElem?_eq_some_iff.mp (List.mem_zipIdx_iff_getElem?.mp hm)).1
  refine Directive.Bounded.under (.of_integers rfl) (List.forall_mem_singleton.mpr ?_)
  exact Signed32.of_nat (Nat.succ_le_of_lt (hi.trans_le hn))

section Plan

variable {f : Functions} {plan : Plan} {t : Nat}

lemma of_entry (hlimit : plan.frameId plan.lastTick < Context.frameLimit) :
    (Frames.entry f plan).Bounded ids := by
  intro d hd
  simp only [Frames.entry,List.mem_cons,List.not_mem_nil,or_false] at hd
  rcases hd with rfl | rfl | rfl
  · exact .setFrame ((Nat.add_le_add_left (Nat.zero_le _) _).trans hlimit.le)
  · exact .schedule ..
  · exact .schedule ..

lemma of_dispatcher (entity : String) (ht : t ≤ plan.lastTick)
    (hlimit : plan.frameId plan.lastTick < Context.frameLimit) :
    (Frames.dispatcher entity f plan t).Bounded ids := by
  refine List.forall_mem_singleton.mpr (Directive.Bounded.under (.of_integers rfl) ?_)
  exact List.forall_mem_singleton.mpr
    (.of_nat ((Nat.add_le_add_left ht plan.firstFrame).trans hlimit.le))

lemma of_transition {animationCount : Nat} (hcount : animationCount ≤ Context.frameLimit)
    (ht : t ≤ plan.lastTick) (hlimit : plan.frameId plan.lastTick < Context.frameLimit) :
    (Frames.transition f animationCount plan t).Bounded ids := by
  have hotherwise {d : Directive Float} (hd : d.Bounded ids) :
      (d.under (Frames.notRequested animationCount)).Bounded ids :=
    hd.under (List.forall_mem_cons.mpr ⟨by decide,List.forall_mem_singleton.mpr (.of_nat hcount)⟩)
  have htake : (Frames.takeRequest f).Bounded ids := by
    refine of_scores fun d hd => ?_
    simp only [Frames.takeRequest,List.mem_cons,List.not_mem_nil,or_false] at hd
    rcases hd with rfl | rfl | rfl
    · decide
    · decide
    · exact ⟨rfl,List.forall_mem_nil _⟩
  have hframe {i : Nat} (hi : i ≤ plan.lastTick) : plan.frameId i < Context.frameLimit :=
    (Nat.add_le_add_left hi _).trans_lt hlimit
  unfold Frames.transition Plan.successor
  by_cases hlast : t < plan.lastTick
  · rw [if_pos hlast]
    exact List.forall_mem_cons.mpr
      ⟨.setFrame (hframe ht),List.forall_mem_singleton.mpr (.schedule ..)⟩
  · rw [if_neg hlast]
    cases plan.policy with
    | once =>
      refine htake.append (List.forall_mem_cons.mpr
        ⟨hotherwise ?_,List.forall_mem_singleton.mpr (hotherwise (.schedule ..))⟩)
      exact .of_scores rfl (by decide)
    | hold => exact htake.append (List.forall_mem_singleton.mpr (hotherwise (.schedule ..)))
    | loop =>
      refine htake.append (List.forall_mem_cons.mpr
        ⟨hotherwise ?_,List.forall_mem_singleton.mpr (hotherwise (.schedule ..))⟩)
      exact .setFrame (hframe (Nat.zero_le _)).le

end Plan

end Program.Bounded

/-- There are no more animations than frame ids. -/
lemma Compile.Numbered.length_le {c c' : Context} {bs : List CompiledAnimation}
    (h : Compile.Numbered c c' bs) : bs.length ≤ Context.frameLimit := by
  cases bs with
  | nil => exact Nat.zero_le _
  | cons b bs =>
    obtain ⟨hfirst,_,hlast⟩ := h.within b List.mem_cons_self
    have hlimit := h.limit (by omega)
    have hlength : (b::bs).length ≤ ((b::bs).map fun b => b.plan.lastTick + 1).sum := by
      have hle := List.length_le_sum_of_one_le ((b::bs).map fun b => b.plan.lastTick + 1)
        fun n hn => by
          obtain ⟨a,_,rfl⟩ := List.mem_map.mp hn
          omega
      simpa only [List.length_map] using hle
    have htotal := h.total
    omega

namespace CompiledEntity

variable {e : CompiledEntity} {x : Exporter} {r : Role} {p : Program} {c c' : Context}

/-- The programs of an entity hold scores of thirty-two bits and the custom ids of its leaves. -/
lemma Lawful.bounded (h : e.Lawful x) (hn : Compile.Numbered c c' e.animations)
    (hp : e.Plays x r p) : p.Bounded (e.leaves.map Leaf.customId) := by
  cases hp with
  | load => exact .of_load
  | spawn => exact .of_spawn x e.leaves
  | remove => exact .of_remove
  | dormant => exact .of_dormant
  | select => exact .of_select e.functions (by rw [List.length_map]; exact hn.length_le)
  | entry ha => exact .of_entry (hn.within _ ha).2.2
  | dispatcher ha hf => exact .of_dispatcher _ (h.frame ha hf).tick_le (hn.within _ ha).2.2
  | body ha hf =>
    refine (Program.Bounded.of_posing x _).append ?_
    exact .of_transition hn.length_le (h.frame ha hf).tick_le (hn.within _ ha).2.2

end CompiledEntity

/-- All scores in the programs of a compiled entity have thirty-two bits with a sign. The only other
whole numbers there are the custom ids of its parts, each of which is summoned, so that all numbers
are of this kind exactly if those ids are. -/
theorem Entity.compile_integers {disk : FileTree} {entity : Entity} {c c' : Context}
    {e : CompiledEntity} (h : entity.compile disk c = (.ok e,c')) :
    (∀ q ∈ e.programs, ∀ d ∈ q.2, ∀ v ∈ d.scores, Signed32 v) ∧
    (∀ id, (∃ q ∈ e.programs, ∃ d ∈ q.2, id ∈ d.customIds) ↔ id ∈ e.leaves.map Leaf.customId) ∧
    ((∀ q ∈ e.programs, ∀ d ∈ q.2, ∀ v ∈ d.integers, Signed32 v) ↔
      ∀ l ∈ e.leaves, l.customId.toNat ≤ 2^31 - 1) := by
  have hlawful := Entity.compile_lawful h
  have hbounded : ∀ q ∈ e.programs, q.2.Bounded (e.leaves.map Leaf.customId) := by
    intro q hq
    obtain ⟨r,_,hr⟩ := hlawful.mem_programs.mp hq
    exact hlawful.bounded (compile_issued h).frames hr
  have hspawned : ∀ l ∈ e.leaves, ∃ q ∈ e.programs, ∃ d ∈ q.2, l.customId ∈ d.customIds := by
    intro l hl
    let x : Exporter := ⟨entity.rig.name,c.options.space,c.options.item⟩
    have hmade : x.spawn l ∈ Support.spawn x e.leaves :=
      List.mem_append_left _ (List.mem_append_right _ (List.mem_map_of_mem hl))
    exact ⟨_,hlawful.mem_programs.mpr ⟨.spawn,rfl,.spawn⟩,_,hmade,List.mem_singleton_self _⟩
  refine ⟨fun q hq d hd => (hbounded q hq d hd).scores,fun id => ⟨?_,fun hid => ?_⟩,
    fun hall l hl => ?_,fun hids q hq d hd => ?_⟩
  · rintro ⟨q,hq,d,hd,hid⟩
    exact (hbounded q hq d hd).customIds id hid
  · obtain ⟨l,hl,rfl⟩ := List.mem_map.mp hid
    exact hspawned l hl
  · obtain ⟨q,hq,d,hd,hid⟩ := hspawned l hl
    have := (hall q hq d hd _ (List.mem_append_right _ (List.mem_map_of_mem hid))).2
    omega
  · refine List.forall_mem_append.mpr ⟨(hbounded q hq d hd).scores,fun v hv => ?_⟩
    obtain ⟨id,hid,rfl⟩ := List.mem_map.mp hv
    obtain ⟨l,hl,rfl⟩ := List.mem_map.mp ((hbounded q hq d hd).customIds id hid)
    have := hids l hl
    exact ⟨by omega,by omega⟩

section Waver

/-- From the first custom id on all numbers of the waver have thirty-two bits. -/
theorem waver_integers : ∃ e c', waver.compile {} ⟨{},0,1,[]⟩ = (.ok e,c') ∧
    e.leaves.map Leaf.customId = [1] ∧
      ∀ q ∈ e.programs, ∀ d ∈ q.2, ∀ v ∈ d.integers, Signed32 v := by
  have h : (match (waver.compile {} ⟨{},0,1,[]⟩).1 with
      | .ok e => decide (e.leaves.map Leaf.customId = [1])
      | .error _ => false) = true := by decide +kernel
  generalize hc : waver.compile {} ⟨{},0,1,[]⟩ = result at h
  obtain ⟨result,c'⟩ := result
  cases result with
  | error e => simp at h
  | ok e =>
    have hids := of_decide_eq_true h
    refine ⟨e,c',rfl,hids,(Entity.compile_integers hc).2.2.mpr fun l hl => ?_⟩
    have hid := List.mem_map_of_mem (f := Leaf.customId) hl
    rw [hids] at hid
    rw [List.mem_singleton.mp hid]
    decide

/-- A first custom id past all numbers with a sign is accepted, and a program gives it out. -/
theorem waver_exceeds : ∃ c, Context.ofOptions { firstCustomId := 0x80000000 } = .ok c ∧
    ∃ e c', waver.compile {} c = (.ok e,c') ∧
      ∃ q ∈ e.programs, ∃ d ∈ q.2, ∃ v ∈ d.integers, ¬Signed32 v := by
  refine ⟨⟨{ firstCustomId := 0x80000000 },0,0x80000000,[]⟩,rfl,?_⟩
  have h : (match (waver.compile {}
        ⟨{ firstCustomId := 0x80000000 },0,0x80000000,[]⟩).1 with
      | .ok e => decide (∃ q ∈ e.programs, ∃ d ∈ q.2, ∃ v ∈ d.integers, ¬Signed32 v)
      | .error _ => false) = true := by decide +kernel
  generalize waver.compile {} ⟨{ firstCustomId := 0x80000000 },0,0x80000000,[]⟩ = result at h
  obtain ⟨result,c'⟩ := result
  cases result with
  | error e => simp at h
  | ok e => exact ⟨e,c',rfl,of_decide_eq_true h⟩

end Waver

end RigPack
