import Mathlib.Tactic
import RigPack.Proofs.Except
import RigPack.Proofs.Rig.Walk

/-!
Validation against the rules themselves, told of the rig and not of the order in which it is looked
at: names are segments and told apart, bones and chosen ids are told apart, faces show declared
textures, lengths are finite and not negative, and keyframes have a finite time and one or two
values. What validation has met so far only serves to find repetitions, so a list of checks is
passed exactly if nothing in it is repeated or was met before.
-/

namespace RigPack

/-- The ids that the authors of parts have chosen. -/
def Part.chosenIds {α : Type} (ps : List (Part α)) : List UInt32 :=
  ps.filterMap Part.customId

@[simp] lemma Part.chosenIds_cons {α : Type} (p : Part α) (ps : List (Part α)) :
    Part.chosenIds (p::ps) = p.customId.toList ++ Part.chosenIds ps := by
  cases hp : p.customId <;> simp [Part.chosenIds,hp]

lemma Part.length_chosenIds {α : Type} (ps : List (Part α)) :
    (Part.chosenIds ps).length + ps.countP (fun p => p.customId.isNone) = ps.length := by
  induction ps with
  | nil => rfl
  | cons p ps ih =>
    cases hp : p.customId <;> simp [Part.chosenIds,hp] at ih ⊢ <;> omega

/-- Where numbers are finite, one that is not below zero is at least zero. -/
lemma not_neg_iff_nonneg {x : Float} (hx : x.isFinite) : ¬x < 0 ↔ 0 ≤ x := by
  have hfinite : x.toModel.unpack.isFinite := hx
  have hzero : (0 : Float).toModel.unpack = .zero .positive := rfl
  change ¬decide (Float.Model.lt _ _ = true) = true ↔ decide (Float.Model.le _ _ = true) = true
  simp only [Float.Model.lt,Float.Model.le,hzero,decide_eq_true_eq]
  generalize x.toModel.unpack = u at hfinite
  cases u with
  | notANumber => cases hfinite
  | infinity s => cases hfinite
  | zero s => cases s <;> decide
  | finite s m e hm =>
    cases s with
    | negative => exact ⟨fun h => absurd rfl h,nofun⟩
    | positive => exact ⟨fun _ => rfl,fun _ => nofun⟩

namespace Validate

variable {α : Type} {entity part animation bone : String} {known met : List String}
  {seen seen' : Seen}

/-- Names of which none is repeated and none was met before. -/
def Apart {β : Type} (l met : List β) : Prop :=
  l.Nodup ∧ l.Disjoint met

section Apart

variable {β : Type} {x : β} {l before : List β}

@[simp] lemma apart_nil : Apart [] before :=
  ⟨.nil,List.disjoint_nil_left _⟩

@[simp] lemma apart_of_none : Apart l [] ↔ l.Nodup :=
  and_iff_left (List.disjoint_nil_right _)

lemma apart_cons : Apart (x::l) before ↔ x ∉ before ∧ Apart l (x::before) := by
  simp only [Apart,List.nodup_cons,List.disjoint_cons_left,List.disjoint_cons_right]
  tauto

lemma apart_toList {o : Option β} : Apart (o.toList ++ l) before ↔
    (∀ x, o = some x → x ∉ before) ∧ Apart l (o.toList ++ before) := by
  cases o with
  | none => simp
  | some x => simp [apart_cons]

end Apart

/-- The rules for one part alone. -/
def Proper (known : List String) (p : Part α) : Prop :=
  isSegment p.name ∧ ∀ side f id, (side,f) ∈ p.faces.toList → f.texture = some id → id ∈ known

/-- The rules for one keyframe. -/
def Timed (k : Keyframe Float) : Prop :=
  k.time.isFinite ∧ (k.points.length = 1 ∨ k.points.length = 2)

lemma face_ok_iff {side : Side} {f : Face α} :
    face entity part known side f = .ok () ↔ ∀ id, f.texture = some id → id ∈ known := by
  unfold face
  cases ht : f.texture with
  | none => simp
  | some id => by_cases hid : id ∈ known <;> simp [hid]

lemma keyframe_ok_iff {k : Keyframe Float} : keyframe animation bone k = .ok () ↔ Timed k := by
  unfold keyframe Timed
  by_cases ht : k.time.isFinite
  · by_cases hp : k.points.length = 0 ∨ 2 < k.points.length
    · simp only [ht,hp,Bool.not_true,Bool.false_eq_true,if_false,if_true]
      exact ⟨nofun,fun h => by omega⟩
    · simp only [ht,hp,Bool.not_true,Bool.false_eq_true,if_false]
      exact ⟨fun _ => ⟨trivial,by omega⟩,fun _ => trivial⟩
  · simp [ht]

lemma textures_ok_iff {ts : List TextureSource} : textures entity met ts = .ok () ↔
    (∀ t ∈ ts, isSegment t.id) ∧ Apart (ts.map TextureSource.id) met := by
  induction ts generalizing met with
  | nil => simp [textures]
  | cons t ts ih =>
    unfold textures
    by_cases hname : isSegment t.id
    · by_cases hnew : t.id ∈ met <;> simp [hname,hnew,ih,apart_cons]
    · simp [hname]

/-- A bone passes if its identity was not met. -/
lemma visit_bone_iff {b : Bone α} : visit entity known seen (.inl b) = .ok seen' ↔
    b.uuid ∉ seen.bones ∧ seen' = { seen with bones := b.uuid::seen.bones } := by
  unfold visit
  by_cases h : b.uuid ∈ seen.bones <;> simp [h,eq_comm]

/-- What has been met after a part. -/
def Seen.withPart (seen : Seen) (p : Part α) : Seen :=
  { seen with
    parts := p.name::seen.parts
    ids := (p.customId.map (·,p.name)).toList ++ seen.ids }

lemma proper_iff (entity : String) {p : Part α} : Proper known p ↔ isSegment p.name ∧
    ∀ q ∈ p.faces.toList, face entity p.name known q.1 q.2 = .ok () := by
  simp only [Proper,face_ok_iff,Prod.forall]
  exact and_congr_right fun _ =>
    ⟨fun h side f hf id => h side f id hf,fun h side f id hf => h side f hf id⟩

/-- A part passes if it keeps its rules and its name and chosen id were not met. -/
lemma visit_part_iff {p : Part α} : visit entity known seen (.inr p) = .ok seen' ↔
    Proper known p ∧ p.name ∉ seen.parts ∧
      (∀ id, p.customId = some id → id ∉ seen.ids.map Prod.fst) ∧ seen' = seen.withPart p := by
  have hmet : ∀ id, seen.ids.lookup id = none ↔ id ∉ seen.ids.map Prod.fst := by
    intro id
    simp only [List.lookup_eq_none_iff,List.mem_map,not_exists,not_and,bne_iff_ne]
    exact ⟨fun h q hq he => h q hq he.symm,fun h q hq he => h q hq he.symm⟩
  unfold visit
  rw [Except.check_ok_iff,Except.bind_ok_iff,proper_iff entity,and_assoc]
  refine and_congr (by simp) ?_
  simp only [← Except.forM_ok_iff]
  constructor
  · rintro ⟨_,hfaces,h⟩
    obtain ⟨hnew,h⟩ := Except.check_ok h
    refine ⟨hfaces,hnew,?_⟩
    simp only [Seen.withPart]
    cases hp : p.customId with
    | none =>
      rw [hp] at h
      exact ⟨nofun,by cases h; rfl⟩
    | some id =>
      simp only [hp] at h
      cases hid : seen.ids.lookup id with
      | some other =>
        rw [hid] at h
        cases h
      | none =>
        rw [hid] at h
        refine ⟨?_,by cases h; rfl⟩
        rintro _ ⟨⟩
        exact (hmet id).mp hid
  · rintro ⟨hfaces,hnew,hchosen,rfl⟩
    refine ⟨(),hfaces,Except.check_ok_iff.mpr ⟨hnew,?_⟩⟩
    simp only [Seen.withPart]
    cases hp : p.customId with
    | none => rfl
    | some id =>
      simp only [(hmet id).mpr (hchosen id hp)]
      rfl

/-- Bones and parts pass one after another if the parts are proper and nothing is repeated or was
met before. -/
lemma visits_ok_iff {l : List (Bone α ⊕ Part α)} :
    (∃ seen', l.foldlM (visit entity known) seen = .ok seen') ↔
      (∀ p ∈ l.filterMap Sum.getRight?, Proper known p) ∧
      Apart ((l.filterMap Sum.getLeft?).map Bone.uuid) seen.bones ∧
      Apart ((l.filterMap Sum.getRight?).map Part.name) seen.parts ∧
      Apart (Part.chosenIds (l.filterMap Sum.getRight?)) (seen.ids.map Prod.fst) := by
  induction l generalizing seen with
  | nil => simp [Part.chosenIds,pure,Except.pure]
  | cons v l ih =>
    have hnext : (∃ seen', (v::l).foldlM (visit entity known) seen = .ok seen') ↔
        ∃ next, visit entity known seen v = .ok next ∧
          ∃ seen', l.foldlM (visit entity known) next = .ok seen' := by
      simp only [List.foldlM_cons,Except.bind_ok_iff]
      exact ⟨fun ⟨s,d,h,h'⟩ => ⟨d,h,s,h'⟩,fun ⟨d,h,s,h'⟩ => ⟨s,d,h,h'⟩⟩
    rw [hnext]
    cases v with
    | inl b =>
      simp only [visit_bone_iff,ih,and_assoc,exists_and_left,exists_eq_left,apart_cons,
        List.filterMap_cons,Sum.getLeft?_inl,Sum.getRight?_inl,List.map_cons]
      tauto
    | inr p =>
      have hids : (seen.withPart p).ids.map Prod.fst =
          p.customId.toList ++ seen.ids.map Prod.fst := by
        cases hp : p.customId <;> simp [Seen.withPart,hp]
      simp only [visit_part_iff,ih,and_assoc,exists_and_left,exists_eq_left,apart_cons,
        apart_toList,List.filterMap_cons,Sum.getLeft?_inr,Sum.getRight?_inr,List.map_cons,
        Part.chosenIds_cons,List.forall_mem_cons,hids]
      simp only [Seen.withPart]
      tauto

/-- Animations pass if their names are segments, none is repeated or was met before, and each of
them keeps its own rules. -/
lemma animations_ok_iff {as : List (Animation Float)} : animations entity met as = .ok () ↔
    (∀ a ∈ as, isSegment a.name ∧ a.validate = .ok ()) ∧ Apart (as.map Animation.name) met := by
  induction as generalizing met with
  | nil => simp [animations]
  | cons a as ih =>
    unfold animations
    rw [Except.check_ok_iff,Except.check_ok_iff,List.map_cons,apart_cons,List.forall_mem_cons]
    cases a.validate with
    | error e => simp
    | ok u =>
      simp only [ih]
      simp
      tauto

end Validate

/-- An animation passes if its length is finite and not negative and its keyframes keep their
rules. -/
lemma Animation.validate_ok_iff {a : Animation Float} : a.validate = .ok () ↔
    (a.length.isFinite ∧ 0 ≤ a.length) ∧
      ∀ (bone : String) keys, a.tracks[bone]? = some keys → ∀ k ∈ keys, Validate.Timed k := by
  unfold Animation.validate
  rw [Except.check_ok_iff]
  simp only [Except.forM_ok_iff,Validate.keyframe_ok_iff,Prod.forall,
    Std.ExtTreeMap.mem_toList_iff_getElem?_eq_some]
  refine and_congr ?_ Iff.rfl
  by_cases hfinite : a.length.isFinite
  · simp [hfinite,not_neg_iff_nonneg hfinite]
  · simp [hfinite]

/-- A rig as its compilation relies on it. -/
structure Rig.WellFormed (r : Rig Float) : Prop where
  name : isSegment r.name
  parts : ∀ p ∈ Node.partsOf r.roots, Validate.Proper (r.textures.map TextureSource.id) p
  parts_distinct : ((Node.partsOf r.roots).map Part.name).Nodup
  chosen_distinct : (Part.chosenIds (Node.partsOf r.roots)).Nodup
  animations : ∀ a ∈ r.animations, isSegment a.name
  animations_distinct : (r.animations.map Animation.name).Nodup

/-- A rig that keeps all rules, also those on which its compilation does not rely. -/
structure Rig.Conforms (r : Rig Float) : Prop extends r.WellFormed where
  textures : ∀ t ∈ r.textures, isSegment t.id
  textures_distinct : (r.textures.map TextureSource.id).Nodup
  bones_distinct : ((Node.bonesOf r.roots).map Bone.uuid).Nodup
  lengths : ∀ a ∈ r.animations, a.length.isFinite ∧ 0 ≤ a.length
  keyframes : ∀ a ∈ r.animations, ∀ (bone : String) keys, a.tracks[bone]? = some keys →
    ∀ k ∈ keys, Validate.Timed k

/-- The rules of the hierarchy are kept exactly if a walk that looks for breaches ends. -/
lemma Node.walk_ok_iff {α : Type} {entity : String} {known : List String}
    {roots : List (Node α)} :
    (∃ seen, Node.walk (Validate.visit entity known) {} roots.reverse = .ok seen) ↔
      (∀ p ∈ Node.partsOf roots, Validate.Proper known p) ∧
        ((Node.bonesOf roots).map Bone.uuid).Nodup ∧
          ((Node.partsOf roots).map Part.name).Nodup ∧
            (Part.chosenIds (Node.partsOf roots)).Nodup := by
  have hparts := Node.visitsOf_parts roots
  have hbones := Node.visitsOf_bones roots
  rw [Node.walk_eq,List.reverse_reverse,Validate.visits_ok_iff]
  simp only [List.map_nil,Validate.apart_of_none,Part.chosenIds]
  rw [(hbones.map Bone.uuid).nodup_iff,(hparts.map Part.name).nodup_iff,
    (hparts.filterMap Part.customId).nodup_iff]
  simp only [hparts.mem_iff]

lemma Rig.validate_ok_iff {r : Rig Float} : r.validate = .ok () ↔ r.Conforms := by
  have hends : ∀ x : Except Error Validate.Seen, (∃ u, discard x = .ok u) ↔ ∃ seen, x = .ok seen :=
    fun x => by cases x <;> simp [discard,Functor.mapConst,Except.map]
  unfold Rig.validate
  simp only [Except.check_ok_iff,Except.bind_ok_iff,Validate.animations_ok_iff,
    Validate.apart_of_none,Animation.validate_ok_iff]
  constructor
  · rintro ⟨hname,_,htextures,_,hwalk,hanimations,hdistinct⟩
    obtain ⟨hids,hapart⟩ := Validate.textures_ok_iff.mp htextures
    obtain ⟨hparts,hbones,hnames,hchosen⟩ := Node.walk_ok_iff.mp ((hends _).mp ⟨_,hwalk⟩)
    exact {
      name := by simpa using hname
      parts := hparts
      parts_distinct := hnames
      chosen_distinct := hchosen
      animations := fun a ha => (hanimations a ha).1
      animations_distinct := hdistinct
      textures := hids
      textures_distinct := Validate.apart_of_none.mp hapart
      bones_distinct := hbones
      lengths := fun a ha => (hanimations a ha).2.1
      keyframes := fun a ha => (hanimations a ha).2.2 }
  · intro h
    obtain ⟨u,hwalk⟩ := (hends _).mpr (Node.walk_ok_iff.mpr
      ⟨h.parts,h.bones_distinct,h.parts_distinct,h.chosen_distinct⟩)
    have htextures : Validate.textures r.name [] r.textures = .ok () :=
      Validate.textures_ok_iff.mpr ⟨h.textures,Validate.apart_of_none.mpr h.textures_distinct⟩
    exact ⟨by simp [h.name],(),htextures,u,hwalk,
      fun a ha => ⟨h.animations a ha,h.lengths a ha,h.keyframes a ha⟩,h.animations_distinct⟩

theorem Rig.wellFormed_of_validate {r : Rig Float} (h : r.validate = .ok ()) : r.WellFormed :=
  (Rig.validate_ok_iff.mp h).toWellFormed

/-- Validation accepts exactly the rigs that keep all rules. The walk by which it goes through the
hierarchy comes to its end and looks at every bone and every part once, whatever it looks for. -/
theorem Rig.accepts_conforming (r : Rig Float) :
    (r.validate = .ok () ↔ r.Conforms) ∧
    (Node.visitsOf r.roots).Perm (Node.contentsOf r.roots) ∧
    ∀ {σ : Type} (look : σ → Bone Float ⊕ Part Float → Except Error σ) (s : σ),
      Node.walk look s r.roots.reverse = (Node.visitsOf r.roots).foldlM look s := by
  refine ⟨Rig.validate_ok_iff,Node.visitsOf_perm _,fun look s => ?_⟩
  rw [Node.walk_eq,List.reverse_reverse]

end RigPack
