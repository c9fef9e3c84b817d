import Mathlib
import RigPack.Output.Directory
import RigPack.Proofs.Pack.Contents
import RigPack.Proofs.Storage.Directories

/-!
Sets of files that can stand in a directory side by side, together with the files under which they
are written first. The files of a compiled entity are such a set: their paths are made of segments,
and each name tells by its last letter whether it is that of a file, of a directory on the way to
one, or of a file that is written first.
-/

namespace RigPack

namespace RelativePath

/-- The names that lead to the file under which a path is written first. -/
def temporary (path : String) : List String :=
  (names path).dropLast ++ [DirectoryOutput.temporaryName ((names path).getLast?.getD "")]

end RelativePath

open RelativePath

/-- A set of files whose paths are in normal form, of which none leads through another, nor to the
file under which another is written first or through that. -/
structure ArtifactSet.Separate (s : ArtifactSet) : Prop where
  normal : ∀ p ∈ s.paths, normalize p = .ok p
  apart : ∀ p ∈ s.paths, ∀ q ∈ s.paths, p ≠ q → ¬names p <+: names q
  apart_temporary : ∀ p ∈ s.paths, ∀ q ∈ s.paths, p ≠ q → ¬temporary p <+: names q

/-- A longer name stays a segment with an extension. -/
lemma isSegment_append {s extension : String} (hs : ∀ c ∈ s.toList, isSegmentChar c)
    (he : isSegment extension) (hlength : 3 ≤ extension.length) : isSegment (s ++ extension) := by
  have hlong (t : String) (ht : t.length ≤ 2) : s ++ extension ≠ t := by
    rintro rfl
    rw [String.length_append] at ht
    omega
  refine isSegment_iff.mpr ⟨hlong _ (by decide),?_,hlong _ (by decide),hlong _ (by decide)⟩
  rw [String.toList_append]
  exact List.forall_mem_append.mpr ⟨hs,(isSegment_iff.mp he).2.1⟩

lemma isSegmentChar_of_mem_toString {n : Nat} : ∀ c ∈ (toString n).toList, isSegmentChar c := by
  intro c hc
  have hc : c ∈ Nat.toDigits 10 n := by simpa using hc
  have hdigit : c.isDigit = true := Nat.isDigit_of_mem_toDigits (by decide) (by decide) hc
  simp [isSegmentChar,hdigit]

/-- No segment holds a zero. -/
lemma FileTree.Storable.of_isSegment {name : String} (h : isSegment name) : Storable name := by
  refine ⟨.of_isSegment h,fun hc => ?_⟩
  exact absurd ((isSegment_iff.mp h).2.1 _ hc) (by decide)

namespace Article

variable {x : Exporter} {a b : Article} {l : List String}

/-- The names that lead to a file. -/
def names (x : Exporter) : Article → List String
  | program role => ["data",x.space,"functions",x.entity] ++ match role with
    | .load => ["load.mcfunction"]
    | .spawn => ["spawn.mcfunction"]
    | .remove => ["remove.mcfunction"]
    | .select => ["select.mcfunction"]
    | .dormant => ["dormant.mcfunction"]
    | .entry animation => ["animations",animation,"start.mcfunction"]
    | .dispatcher animation tick =>
      ["animations",animation,"frames",toString tick ++ "_.mcfunction"]
    | .body animation tick => ["animations",animation,"frames",toString tick ++ ".mcfunction"]
  | model part => ["assets",x.space,"models",x.entity,part ++ ".json"]
  | texture id => ["assets",x.space,"textures",x.entity,id ++ ".png"]
  | table => ["assets",(splitItem x.item).1,"models","item",(splitItem x.item).2 ++ ".json"]

lemma file_eq_join (x : Exporter) (a : Article) : a.file x = "/".intercalate (a.names x) := by
  rw [file_eq_place]
  cases a with
  | program role => cases role <;> simp [place,names,← String.toList_inj]
  | _ => simp [place,names,← String.toList_inj]

lemma length_names (x : Exporter) (a : Article) :
    (a.names x).length = 5 ∨ (a.names x).length = 7 ∨ (a.names x).length = 8 := by
  cases a with
  | program role => cases role <;> simp [names]
  | _ => simp [names]

/-- The last letter of the last name. -/
def ending (l : List String) : Option Char :=
  l.getLast?.bind fun name => name.toList.getLast?

lemma ending_concat (name : String) : ending (l ++ [name]) = name.toList.getLast? := by
  simp [ending]

/-- Programs and tables end in one letter, images in another. -/
lemma ending_names (x : Exporter) (a : Article) :
    ending (a.names x) = some 'n' ∨ ending (a.names x) = some 'g' := by
  cases a with
  | program role => cases role <;> simp [names,ending]
  | _ => simp [names,ending]

/-- Directories with as many names above them as a file has end in a third one. -/
lemma ending_of_isPrefix (h : l <+: a.names x) (hl : l.length = 5 ∨ l.length = 7 ∨ l.length = 8) :
    l = a.names x ∨ ending l = some 's' := by
  rw [List.prefix_iff_eq_take] at h
  rcases hl with hl | hl | hl
  all_goals
    rw [hl] at h
    cases a with
    | program role => cases role <;> simp [names,h,ending] at h ⊢
    | _ => simp [names,h,ending] at h ⊢

/-- No file leads through another. -/
lemma names_eq_of_isPrefix (h : a.names x <+: b.names x) : a.names x = b.names x := by
  refine (ending_of_isPrefix h (length_names x a)).resolve_right fun hs => ?_
  rcases ending_names x a with ha | ha
  · simp [hs] at ha
  · simp [hs] at ha

/-- A file that is written first stands in the way of no file. -/
lemma temporary_not_isPrefix (name : String) :
    ¬(a.names x).dropLast ++ [DirectoryOutput.temporaryName name] <+: b.names x := by
  intro h
  have hlength : ((a.names x).dropLast ++ [DirectoryOutput.temporaryName name]).length =
      (a.names x).length := by
    have := length_names x a
    rw [List.length_append,List.length_dropLast,List.length_singleton]
    omega
  have hending : ending ((a.names x).dropLast ++ [DirectoryOutput.temporaryName name]) =
      some 'p' := by
    rw [ending_concat,DirectoryOutput.temporaryName,String.toList_append,List.getLast?_append]
    rfl
  rcases ending_of_isPrefix h (hlength ▸ length_names x a) with heq | hs
  · rw [heq] at hending
    rcases ending_names x b with hb | hb
    · simp [hending] at hb
    · simp [hending] at hb
  · simp [hending] at hs

/-- The names that a file takes from its entity are segments. -/
def Named : Article → Prop
  | program role => ∀ animation, role.animation? = some animation → isSegment animation
  | model part => isSegment part
  | texture id => isSegment id
  | table => True

/-- So are all names on the way to it. -/
lemma segments (hspace : isSegment x.space) (hentity : isSegment x.entity)
    (hitem : isSegment (splitItem x.item).1) (hname : isSegment (splitItem x.item).2)
    (ha : a.Named) : ∀ name ∈ a.names x, isSegment name := by
  have hfile {s extension : String} (hs : isSegment s) (he : isSegment extension)
      (hlength : 3 ≤ extension.length) : isSegment (s ++ extension) :=
    isSegment_append (isSegment_iff.mp hs).2.1 he hlength
  have hframe {tick : Nat} {extension : String} (he : isSegment extension)
      (hlength : 3 ≤ extension.length) : isSegment (toString tick ++ extension) :=
    isSegment_append isSegmentChar_of_mem_toString he hlength
  cases a with
  | program role =>
    cases role with
    | entry animation =>
      simp only [names,List.cons_append,List.nil_append,List.forall_mem_cons,hspace,hentity,
        ha animation rfl]
      decide
    | dispatcher animation tick | body animation tick =>
      simp only [names,List.cons_append,List.nil_append,List.forall_mem_cons,hspace,hentity,
        ha animation rfl]
      rw [hframe (by decide) (by decide)]
      decide
    | _ =>
      simp only [names,List.cons_append,List.nil_append,List.forall_mem_cons,hspace,hentity]
      decide
  | model part | texture id =>
    simp only [names,List.forall_mem_cons,hspace,hentity]
    rw [hfile ha (by decide) (by decide)]
    decide
  | table =>
    simp only [names,List.forall_mem_cons,hitem]
    rw [hfile hname (by decide) (by decide)]
    decide

end Article

namespace Entity.Prepared

variable {disk : FileTree} {entity : Entity} {x : Exporter} {store : TextureStore}
  {e : CompiledEntity} {c c₁ c₂ c' : Context} {a : Article} {b : ByteArray}

lemma named (h : entity.Prepared disk x store e c c₁ c₂ c') (hb : e.Holds x store a b) :
    a.Named := by
  have hrig := Rig.validate_ok_iff.mp h.valid
  have hanimation : ∀ d ∈ e.animations, isSegment d.plan.name := by
    intro d hd
    obtain ⟨a,ha,hmade⟩ := exists_partner_left h.animations_made d hd
    exact hmade.name ▸ hrig.animations a ha
  cases hb with
  | program hp =>
    rintro animation hr
    cases hp <;> cases hr
    all_goals exact hanimation _ ‹_›
  | model hl hm =>
    obtain ⟨q,hq,hlq⟩ := exists_partner_left h.leaves_each _ hl
    have hlname : _ = q.name := congrArg Leaf.name hlq
    exact hlname ▸ (hrig.parts q hq).1
  | texture hl ht =>
    obtain ⟨_,_,_,_,_,hresolved⟩ := ht
    have hmem := TextureStore.mem_of_resolve? h.textures hresolved
    obtain ⟨source,hsource,hid⟩ := List.mem_map.mp hmem
    exact hid ▸ hrig.textures source hsource
  | table => trivial

/-- All names on the way to a file of an entity are segments. -/
lemma segments (h : entity.Prepared disk x store e c c₁ c₂ c') (ho : c.options.validate = .ok ())
    (hb : e.Holds x store a b) : ∀ name ∈ a.names x, isSegment name := by
  obtain ⟨hspace,hitem,hname⟩ := Options.segments_of_validate ho
  have hentity := (Rig.wellFormed_of_validate h.valid).name
  have hnamed := h.named hb
  rw [h.exporter]
  exact Article.segments hspace hentity hitem hname hnamed

end Entity.Prepared

/-- The files of a compiled entity can stand in a directory side by side, and no path of theirs
holds a zero. -/
lemma Entity.compile_separate {disk : FileTree} {entity : Entity} {c c' : Context}
    {e : CompiledEntity} (ho : c.options.validate = .ok ())
    (h : entity.compile disk c = (.ok e,c')) :
    e.artifacts.Separate ∧ ∀ p ∈ e.artifacts.paths, '\x00' ∉ p.toList := by
  obtain ⟨x,store,c₁,c₂,hp,hfiled,-⟩ := compile_filed h
  have hpath : ∀ p ∈ e.artifacts.paths, ∃ a : Article, p = "/".intercalate (a.names x) ∧
      names p = a.names x ∧ (∀ name ∈ a.names x, FileTree.Storable name) ∧ a.names x ≠ [] := by
    intro p hmem
    obtain ⟨⟨p,b⟩,hget,rfl⟩ := List.mem_map.mp hmem
    obtain ⟨a,rfl,hb⟩ := (hfiled p b).mp (ArtifactSet.mem_toList.mp hget)
    have hstorable := fun name hn => FileTree.Storable.of_isSegment (hp.segments ho hb name hn)
    have hne : a.names x ≠ [] := by
      have := a.length_names x
      exact List.ne_nil_of_length_pos (by omega)
    refine ⟨a,a.file_eq_join x,?_,hstorable,hne⟩
    simp only [Article.file_eq_join]
    exact names_join (fun name hn => (hstorable name hn).toProper) hne
  refine ⟨⟨fun p hmem => ?_,fun p hmem q hmem' hne hpre => ?_,
    fun p hmem q hmem' hne hpre => ?_⟩,fun p hmem => ?_⟩
  · obtain ⟨a,rfl,-,hstorable,hne⟩ := hpath p hmem
    exact normalize_join (fun name hn => (hstorable name hn).toProper) hne
  · obtain ⟨a,rfl,ha,-⟩ := hpath p hmem
    obtain ⟨b,rfl,hb,-⟩ := hpath q hmem'
    rw [ha,hb] at hpre
    exact hne (congrArg _ (Article.names_eq_of_isPrefix hpre))
  · obtain ⟨a,rfl,ha,-⟩ := hpath p hmem
    obtain ⟨b,rfl,hb,-⟩ := hpath q hmem'
    rw [temporary,ha,hb] at hpre
    exact Article.temporary_not_isPrefix _ hpre
  · obtain ⟨a,rfl,-,hstorable,-⟩ := hpath p hmem
    intro hzero
    refine forall_mem_intercalate (P := (· ≠ '\x00')) (by simp) (fun name hn c hc => ?_) _ hzero rfl
    rintro rfl
    exact (hstorable name hn).no_zero hc

end RigPack
