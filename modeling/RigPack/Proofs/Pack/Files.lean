import Mathlib
import RigPack.Proofs.Pack.Artifacts
import RigPack.Proofs.Pack.Paths
import RigPack.Proofs.Part.Exporter

/-!
What stands in the files of an entity. The compiler puts its files in one after another; all that
matters of that is which bytes each file is to hold, told by what the file is for.
-/

namespace RigPack

namespace Compile

variable {x : Exporter} {store : TextureStore} {s : ArtifactSet} {leaves : List (Leaf Float)}
  {filesOf : List (List (String × ByteArray))}

def programFile (q : ResourcePath × Program) : String × ByteArray :=
  (functionFile q.1,q.2.text.toUTF8)

/-- The files of a part: its model, then the textures that it shows. -/
def partFiles (x : Exporter) (store : TextureStore) (l : Leaf Float) (m : Model) :
    List (String × ByteArray) :=
  (modelFile (x.modelPath l),m.toValue.file.toUTF8) ::
    (Exporter.referenced l store).map fun t =>
      (textureFile (x.texturePath t.id),Png.encode t.image)

def tableFile (x : Exporter) (leaves : List (Leaf Float)) : String × ByteArray :=
  (modelFile (itemPath x.item),
    (OverrideTable.ofRows x.item (leaves.map x.override)).toValue.file.toUTF8)

/-- Parts that have models put their files in one after another. -/
lemma foldlM_putPart (h : List.Forall₂ (fun l files => ∃ m, x.model l store = .ok m ∧
    files = partFiles x store l m) leaves filesOf) :
    leaves.foldlM (putPart x store) s =
      filesOf.flatten.foldlM (fun s f => s.insert f.1 f.2) s := by
  induction h generalizing s with
  | nil => rfl
  | @cons l files leaves rest hl _ ih =>
    obtain ⟨m,hm,rfl⟩ := hl
    rw [List.foldlM_cons,List.flatten_cons,List.foldlM_append]
    have hput : putPart x store s l =
        (partFiles x store l m).foldlM (fun s f => s.insert f.1 f.2) s := by
      rw [putPart,hm,partFiles,List.foldlM_cons]
      simp only [List.foldlM_map]
      rfl
    rw [hput]
    exact bind_congr fun s => ih

/-- If all parts have models, an entity has the files of one list. -/
lemma artifacts_eq (programs : List (ResourcePath × Program))
    (h : List.Forall₂ (fun l files => ∃ m, x.model l store = .ok m ∧
      files = partFiles x store l m) leaves filesOf) :
    artifacts x store leaves programs = ArtifactSet.ofList
      (programs.map programFile ++ filesOf.flatten ++ [tableFile x leaves]) := by
  unfold artifacts ArtifactSet.ofList
  rw [List.foldlM_append,List.foldlM_append,List.foldlM_map,bind_assoc]
  refine bind_congr fun s => ?_
  rw [foldlM_putPart h]
  refine bind_congr fun s => ?_
  rw [List.foldlM_cons]
  exact (bind_pure _).symm

end Compile

/-- The file of a model is no table: they differ in the name of their first member. -/
lemma Model.file_ne_table (m : Model) (t : OverrideTable) : m.toValue.file ≠ t.toValue.file := by
  have htextures : Literal.quote "textures" = "\"textures\"" := by decide
  have hparent : Literal.quote "parent" = "\"parent\"" := by decide
  intro h
  simp [Model.toValue,OverrideTable.toValue,Value.file,Value.indented,Value.newline,htextures,
    hparent,← String.toList_inj] at h

namespace CompiledEntity

/-- The bytes of an entity's files, by what the files are for. -/
inductive Holds (e : CompiledEntity) (x : Exporter) (store : TextureStore) :
    Article → ByteArray → Prop
  | program {r p} : e.Plays x r p → Holds e x store (.program r) p.text.toUTF8
  | model {l m} : l ∈ e.leaves → x.model l store = .ok m →
      Holds e x store (.model l.name) m.toValue.file.toUTF8
  | texture {l t} : l ∈ e.leaves → Exporter.Shows store l.faces t →
      Holds e x store (.texture t.id) (Png.encode t.image)
  | table : Holds e x store .table
      (OverrideTable.ofRows x.item (e.leaves.map x.override)).toValue.file.toUTF8

variable {e : CompiledEntity} {x : Exporter} {store : TextureStore} {a : Article}
  {b b' : ByteArray}

/-- A file holds one thing. -/
lemma Lawful.holds_unique (h : e.Lawful x) (hs : store.Sound) (hb : e.Holds x store a b)
    (hb' : e.Holds x store a b') : b = b' := by
  cases hb with
  | program hp =>
    cases hb' with
    | program hp' => rw [h.plays_unique hp hp']
  | @model l m hl hm =>
    generalize ha : Article.model l.name = a at hb'
    cases hb' <;> simp only [Article.model.injEq,reduceCtorEq] at ha
    case model hl' hm' =>
      obtain rfl := List.inj_on_of_nodup_map h.leaves_distinct hl hl' ha
      rw [Except.ok.inj (hm.symm.trans hm')]
  | @texture l t hl ht =>
    generalize ha : Article.texture t.id = a at hb'
    cases hb' <;> simp only [Article.texture.injEq,reduceCtorEq] at ha
    case texture hl' ht' =>
      obtain ⟨_,_,_,_,_,hr⟩ := ht
      obtain ⟨_,_,_,_,_,hr'⟩ := ht'
      rw [hs.resolve?_inj hr hr' ha]
  | table =>
    cases hb'
    rfl

end CompiledEntity

namespace Entity.Prepared

variable {disk : FileTree} {entity : Entity} {x : Exporter} {store : TextureStore}
  {e : CompiledEntity} {c c₁ c₂ c' : Context} {a a' : Article} {b b' : ByteArray}

/-- Each leaf is a part of the rig with its id. -/
lemma leaves_each (h : entity.Prepared disk x store e c c₁ c₂ c') :
    List.Forall₂ (fun p l => l = p.withId l.customId) (Node.partsOf entity.rig.roots) e.leaves := by
  obtain ⟨_,ha⟩ := Context.leaves_ok h.leaves
  exact ha.each.imp fun _ _ hl => hl.1

/-- Faces only ask for textures of the rig, so nothing stays unbound. -/
lemma bound (h : entity.Prepared disk x store e c c₁ c₂ c') :
    ∀ l ∈ e.leaves, Exporter.Bound store l.faces := by
  intro l hl side f id hf hid
  obtain ⟨p,hp,hlp⟩ := exists_partner_left h.leaves_each l hl
  have hfaces : l.faces = p.faces := congrArg Leaf.faces hlp
  have hproper := (Rig.wellFormed_of_validate h.valid).parts p hp
  exact TextureStore.exists_resolve? h.textures (hproper.2 side f id (hfaces ▸ hf) hid)

/-- The files of an entity are a list of what its articles are to hold. -/
lemma exists_files (h : entity.Prepared disk x store e c c₁ c₂ c') :
    ∃ files, Compile.artifacts x store e.leaves e.programs = ArtifactSet.ofList files ∧
      ∀ p b, (p,b) ∈ files ↔ ∃ a, p = a.file x ∧ e.Holds x store a b := by
  have hsound := TextureStore.load_sound h.textures
  have hparts : ∀ l ∈ e.leaves, ∃ files, ∃ m, x.model l store = .ok m ∧
      files = Compile.partFiles x store l m := by
    intro l hl
    obtain ⟨m,hm⟩ := Exporter.exists_model (x := x) (h.bound l hl)
    exact ⟨_,m,hm,rfl⟩
  obtain ⟨filesOf,hparts⟩ := exists_partners hparts
  refine ⟨_,Compile.artifacts_eq e.programs hparts,fun p b => ?_⟩
  simp only [List.mem_append,List.mem_map,List.mem_flatten,List.mem_singleton,or_assoc]
  constructor
  · rintro (⟨⟨path,program⟩,hq,hf⟩ | ⟨files,hfiles,hf⟩ | hf)
    · obtain ⟨r,rfl,hr⟩ := h.lawful.mem_programs.mp hq
      cases hf
      exact ⟨.program r,by rw [h.functions]; rfl,.program hr⟩
    · obtain ⟨l,hl,m,hm,rfl⟩ := exists_partner_left hparts files hfiles
      rcases List.mem_cons.mp hf with hf | hf
      · cases hf
        exact ⟨.model l.name,rfl,.model hl hm⟩
      · obtain ⟨t,ht,hf⟩ := List.mem_map.mp hf
        cases hf
        exact ⟨.texture t.id,rfl,.texture hl ((Exporter.mem_referenced hsound).mp ht)⟩
    · cases hf
      exact ⟨.table,rfl,.table⟩
  · rintro ⟨a,rfl,hb⟩
    cases hb with
    | @program r program hr =>
      refine .inl ⟨(e.functions.path r,program),h.lawful.mem_programs.mpr ⟨r,rfl,hr⟩,?_⟩
      rw [h.functions]
      rfl
    | @model l m hl hm =>
      obtain ⟨files,hfiles,m',hm',rfl⟩ := exists_partner hparts l hl
      obtain rfl := Except.ok.inj (hm.symm.trans hm')
      exact .inr (.inl ⟨_,hfiles,List.mem_cons_self⟩)
    | @texture l t hl ht =>
      obtain ⟨files,hfiles,m,_,rfl⟩ := exists_partner hparts l hl
      have ht := (Exporter.mem_referenced hsound).mpr ht
      exact .inr (.inl ⟨_,hfiles,List.mem_cons_of_mem _ (List.mem_map.mpr ⟨t,ht,rfl⟩)⟩)
    | table => exact .inr (.inr rfl)

/-- The names by which files are called have no slash. -/
lemma plain (h : entity.Prepared disk x store e c c₁ c₂ c') (hb : e.Holds x store a b) :
    a.Plain := by
  have hrig := Rig.wellFormed_of_validate h.valid
  have hname : ∀ d ∈ e.animations, '/' ∉ d.plan.name.toList := by
    intro d hd
    have hm : d.plan.name ∈ e.animations.map fun d => d.plan.name := List.mem_map_of_mem hd
    rw [h.animations_names] at hm
    obtain ⟨a,ha,hn⟩ := List.mem_map.mp hm
    exact hn ▸ slash_not_mem (hrig.animations a ha)
  cases hb with
  | program hp =>
    cases hp with
    | entry ha => simp [Article.Plain,Role.segments,hname _ ha]
    | dispatcher ha hf => simp [Article.Plain,Role.segments,hname _ ha,slash_not_mem_toDigits]
    | body ha hf => simp [Article.Plain,Role.segments,hname _ ha,slash_not_mem_toDigits]
    | _ => simp [Article.Plain,Role.segments]
  | _ => trivial

/-- Only the table may stand in the place of another file, and only in that of a model. -/
lemma eq_or_table (h : entity.Prepared disk x store e c c₁ c₂ c') (hb : e.Holds x store a b)
    (hb' : e.Holds x store a' b') (hfile : a.file x = a'.file x) : a = a' ∨
      (∃ part, a = .model part ∧ a' = .table) ∨ ∃ part, a' = .model part ∧ a = .table := by
  by_cases ha : a = .table <;> by_cases ha' : a' = .table
  · exact .inl (ha.trans ha'.symm)
  · subst ha
    obtain ⟨part,hpart⟩ := Article.exists_model_of_file_eq_table hfile.symm ha'
    exact .inr (.inr ⟨part,hpart,rfl⟩)
  · subst ha'
    obtain ⟨part,hpart⟩ := Article.exists_model_of_file_eq_table hfile ha
    exact .inr (.inl ⟨part,hpart,rfl⟩)
  · have hentity : '/' ∉ x.entity.toList := by
      rw [h.exporter]
      exact slash_not_mem (Rig.wellFormed_of_validate h.valid).name
    exact .inl (Article.file_inj hentity (h.plain hb) (h.plain hb') ha ha' hfile)

end Entity.Prepared

/-- A model and the table never hold the same bytes. -/
lemma CompiledEntity.Holds.model_ne_table {e : CompiledEntity} {x : Exporter}
    {store : TextureStore} {part : String} {b b' : ByteArray}
    (hb : e.Holds x store (.model part) b) (hb' : e.Holds x store .table b') : b ≠ b' := by
  cases hb with
  | model hl hm =>
    cases hb' with
    | table => exact fun h => Model.file_ne_table _ _ (String.toByteArray_inj.mp h)

/-- The files of an entity are those that its articles are to hold. -/
def CompiledEntity.Filed (e : CompiledEntity) (x : Exporter) (store : TextureStore) : Prop :=
  ∀ p b, e.artifacts.get? p = some b ↔ ∃ a : Article, p = a.file x ∧ e.Holds x store a b

lemma CompiledEntity.Filed.program {e : CompiledEntity} {x : Exporter} {store : TextureStore}
    {p : Program} (hget : e.Filed x store) (h : e.Lawful x) {path : ResourcePath}
    (hp : (path,p) ∈ e.programs) :
    e.artifacts.get? (Compile.functionFile path) = some p.text.toUTF8 := by
  obtain ⟨r,rfl,hr⟩ := h.mem_programs.mp hp
  exact (hget _ _).mpr ⟨.program r,by rw [h.functions]; rfl,.program hr⟩

/-- A compiled entity has gone through all stages, and each of its articles has its own file. -/
lemma Entity.compile_filed {disk : FileTree} {entity : Entity} {c c' : Context} {e : CompiledEntity}
    (h : entity.compile disk c = (.ok e,c')) : ∃ x store c₁ c₂,
      entity.Prepared disk x store e c c₁ c₂ c' ∧ e.Filed x store ∧
        ∀ a b a' b', e.Holds x store a b → e.Holds x store a' b' → a.file x = a'.file x →
          a = a' := by
  obtain ⟨x,store,c₁,c₂,hp,hmade⟩ := compile_ok h
  obtain ⟨files,heq,hfiles⟩ := hp.exists_files
  have hfiled : e.Filed x store :=
    fun p b => (ArtifactSet.get?_of_ofList (heq ▸ hmade)).trans (hfiles p b)
  refine ⟨x,store,c₁,c₂,hp,hfiled,fun a b a' b' hb hb' hfile => ?_⟩
  -- One path has one content.
  have hsame : b = b' := Option.some.inj
    (((hfiled _ b).mpr ⟨a,rfl,hb⟩).symm.trans ((hfiled _ b').mpr ⟨a',hfile,hb'⟩))
  rcases hp.eq_or_table hb hb' hfile with heq | ⟨part,rfl,rfl⟩ | ⟨part,rfl,rfl⟩
  · exact heq
  · exact absurd hsame (hb.model_ne_table hb')
  · exact absurd hsame.symm (hb'.model_ne_table hb)

end RigPack
