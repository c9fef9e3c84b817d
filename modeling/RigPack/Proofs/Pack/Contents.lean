import Mathlib
import RigPack.Proofs.Pack.Outcome

/-!
The files of an entity, written out: each with its path as text and its bytes. No two of them share
a path, whatever the entity, its parts and its animations are called, so they can be counted.
-/

namespace RigPack

namespace Article

/-- Where a file stands, as the text of its path. -/
def place (x : Exporter) : Article → String
  | program role => "data/" ++ x.space ++ "/functions/" ++ x.entity ++ "/" ++ match role with
    | .load => "load.mcfunction"
    | .spawn => "spawn.mcfunction"
    | .remove => "remove.mcfunction"
    | .select => "select.mcfunction"
    | .dormant => "dormant.mcfunction"
    | .entry animation => "animations/" ++ animation ++ "/start.mcfunction"
    | .dispatcher animation tick =>
      "animations/" ++ animation ++ "/frames/" ++ toString tick ++ "_.mcfunction"
    | .body animation tick =>
      "animations/" ++ animation ++ "/frames/" ++ toString tick ++ ".mcfunction"
  | model part => "assets/" ++ x.space ++ "/models/" ++ x.entity ++ "/" ++ part ++ ".json"
  | texture id => "assets/" ++ x.space ++ "/textures/" ++ x.entity ++ "/" ++ id ++ ".png"
  | table => "assets/" ++ (splitItem x.item).1 ++ "/models/item/" ++ (splitItem x.item).2 ++ ".json"

lemma file_eq_place (x : Exporter) (a : Article) : a.file x = a.place x := by
  cases a with
  | program role =>
    cases role <;> simp [file,place,Compile.functionFile,ResourcePath.fileIn,ResourcePath.path,
      Functions.segments_path,Role.segments,← String.toList_inj] <;> rfl
  | _ => simp [file,place,Compile.modelFile,Compile.textureFile,Compile.itemPath,
      Exporter.texturePath,ResourcePath.fileIn,ResourcePath.path,ResourcePath.root,
      ResourcePath.child,← String.toList_inj]

end Article

/-- The animation whose program it is. -/
def Role.animation? : Role → Option String
  | entry animation => some animation
  | dispatcher animation _ => some animation
  | body animation _ => some animation
  | _ => none

/-- The programs of an animation by their roles. -/
def CompiledAnimation.entries (a : CompiledAnimation) : List (Role × Program) :=
  (.entry a.plan.name,a.entry) :: a.frames.flatMap fun f =>
    [(.dispatcher a.plan.name f.tick,f.dispatcher),(.body a.plan.name f.tick,f.body)]

namespace CompiledEntity

/-- The programs of an entity that belong to no animation, by their roles. -/
def supportEntries (e : CompiledEntity) (x : Exporter) : List (Role × Program) :=
  [(.load,Support.load),(.spawn,Support.spawn x e.leaves),(.remove,Support.remove),
    (.select,Support.select e.functions (e.animations.map fun a => a.plan.name)),
    (.dormant,Support.dormant)]

/-- The programs of an entity by their roles. -/
def entries (e : CompiledEntity) (x : Exporter) : List (Role × Program) :=
  e.supportEntries x ++ e.animations.flatMap CompiledAnimation.entries

def tableBytes (e : CompiledEntity) (x : Exporter) : ByteArray :=
  (OverrideTable.ofRows x.item (e.leaves.map x.override)).toValue.file.toUTF8

/-- All files of an entity with the models and the textures of its parts: programs, models,
textures, and the table. -/
def contents (e : CompiledEntity) (x : Exporter) (models : List Model) (shown : List Texture) :
    List (Article × ByteArray) :=
  (e.entries x).map (fun q => (Article.program q.1,q.2.text.toUTF8)) ++
  (e.leaves.zip models).map (fun q => (Article.model q.1.name,q.2.toValue.file.toUTF8)) ++
  shown.map (fun t => (Article.texture t.id,Png.encode t.image)) ++
  [(Article.table,e.tableBytes x)]

namespace Lawful

variable {e : CompiledEntity} {x : Exporter} {a : CompiledAnimation}

lemma animation?_eq {q : Role × Program} (hq : q ∈ a.entries) :
    q.1.animation? = some a.plan.name := by
  rcases List.mem_cons.mp hq with rfl | hq
  · rfl
  · obtain ⟨f,_,hq⟩ := List.mem_flatMap.mp hq
    rcases List.mem_pair.mp hq with rfl | rfl <;> rfl

/-- The roles of an animation are told apart by its ticks. -/
lemma nodup_animation (h : e.Lawful x) (ha : a ∈ e.animations) :
    (a.entries.map Prod.fst).Nodup := by
  have hticks : (a.frames.map Frame.tick).Nodup := h.frames_tick ha ▸ List.nodup_range
  rw [CompiledAnimation.entries,List.map_cons,List.map_flatMap,List.nodup_cons,List.nodup_flatMap]
  refine ⟨by simp,fun f _ => by simp,(List.pairwise_map.mp hticks).imp fun hne => ?_⟩
  simp [hne.symm]

/-- The roles of an entity's programs are told apart. -/
lemma nodup_entries (h : e.Lawful x) : ((e.entries x).map Prod.fst).Nodup := by
  rw [entries,List.map_append,List.map_flatMap]
  refine List.Nodup.append (by simp [supportEntries]) (List.nodup_flatMap.mpr
    ⟨fun a ha => h.nodup_animation ha,
      (List.pairwise_map.mp h.animations_distinct).imp fun hne r hr hr' => ?_⟩) fun r hr hr' => ?_
  · obtain ⟨q,hq,rfl⟩ := List.mem_map.mp hr
    obtain ⟨q',hq',heq⟩ := List.mem_map.mp hr'
    have hname := animation?_eq hq'
    rw [heq,animation?_eq hq] at hname
    exact hne (Option.some.inj hname)
  · obtain ⟨a,_,hr'⟩ := List.mem_flatMap.mp hr'
    obtain ⟨q,hq,rfl⟩ := List.mem_map.mp hr'
    have hname := animation?_eq hq
    revert hr
    generalize q.1 = r at hname ⊢
    cases r <;> simp [Role.animation?,supportEntries] at hname ⊢

/-- Two programs for each tick, one for each animation and five for the entity. -/
lemma length_entries (h : e.Lawful x) : (e.entries x).length =
    5 + (e.animations.map fun a => 1 + 2 * (a.plan.lastTick + 1)).sum := by
  have heach : ∀ a ∈ e.animations, a.entries.length = 1 + 2 * (a.plan.lastTick + 1) := by
    intro a ha
    rw [CompiledAnimation.entries,List.length_cons,List.length_flatMap,← h.length_frames ha]
    simp
    omega
  rw [entries,List.length_append,List.length_flatMap,List.map_congr_left heach]
  rfl

lemma programs_perm (h : e.Lawful x) :
    e.programs.Perm ((e.entries x).map fun q => (e.functions.path q.1,q.2)) := by
  have heach : ∀ a ∈ e.animations,
      a.programs = a.entries.map fun q => (e.functions.path q.1,q.2) := by
    intro a ha
    rw [CompiledAnimation.programs,CompiledAnimation.entries,List.map_cons,List.map_flatMap,
      h.entryPath ha]
    refine congrArg _ (List.flatMap_congr fun f hf => ?_)
    rw [(h.frame ha hf).dispatcherPath,(h.frame ha hf).bodyPath]
    rfl
  rw [programs,entries,List.map_append,List.map_flatMap,List.flatMap_congr heach,h.support]
  exact List.perm_append_comm

lemma mem_entries (h : e.Lawful x) {r : Role} {p : Program} :
    (r,p) ∈ e.entries x ↔ e.Plays x r p := by
  have hm := h.programs_perm.mem_iff (a := (e.functions.path r,p))
  rw [h.mem_programs] at hm
  simpa [h.path_injective.eq_iff] using hm.symm

end Lawful

variable {e : CompiledEntity} {x : Exporter} {store : TextureStore} {models : List Model}
  {shown : List Texture}

/-- What is written out is what the files are to hold. -/
lemma Lawful.mem_contents (h : e.Lawful x)
    (hm : e.leaves.mapM (fun l => x.model l store) = .ok models)
    (hshown : ∀ t, t ∈ shown ↔ ∃ l ∈ e.leaves, Exporter.Shows store l.faces t) {a : Article}
    {b : ByteArray} : (a,b) ∈ e.contents x models shown ↔ e.Holds x store a b := by
  have hmodels := Except.mapM_ok_iff.mp hm
  rw [contents,List.mem_append,List.mem_append,List.mem_append,List.mem_map,List.mem_map,
    List.mem_map,List.mem_singleton,or_assoc,or_assoc]
  constructor
  · rintro (⟨⟨r,p⟩,hq,hf⟩ | ⟨⟨l,m⟩,hq,hf⟩ | ⟨t,ht,hf⟩ | hf)
    · cases hf
      exact .program (h.mem_entries.mp hq)
    · cases hf
      exact .model (List.of_mem_zip hq).1 (List.forall₂_zip hmodels hq)
    · cases hf
      obtain ⟨l,hl,ht⟩ := (hshown t).mp ht
      exact .texture hl ht
    · cases hf
      exact .table
  · intro hb
    cases hb with
    | program hp => exact .inl ⟨_,h.mem_entries.mpr hp,rfl⟩
    | @model l m hl hm =>
      rw [← List.map_fst_zip hmodels.length_eq.le] at hl
      obtain ⟨⟨l,m'⟩,hq,rfl⟩ := List.mem_map.mp hl
      obtain rfl := Except.ok.inj (hm.symm.trans (List.forall₂_zip hmodels hq))
      exact .inr (.inl ⟨_,hq,rfl⟩)
    | texture hl ht => exact .inr (.inr (.inl ⟨_,(hshown _).mpr ⟨_,hl,ht⟩,rfl⟩))
    | table => exact .inr (.inr (.inr rfl))

lemma Lawful.nodup_contents (h : e.Lawful x) (hlength : e.leaves.length = models.length)
    (hshown : (shown.map Texture.id).Nodup) :
    ((e.contents x models shown).map Prod.fst).Nodup := by
  have hprograms : (((e.entries x).map Prod.fst).map Article.program).Nodup :=
    h.nodup_entries.map fun _ _ => Article.program.inj
  have hmodels : ((e.leaves.map Leaf.name).map Article.model).Nodup :=
    h.leaves_distinct.map fun _ _ => Article.model.inj
  have htextures : ((shown.map Texture.id).map Article.texture).Nodup :=
    hshown.map fun _ _ => Article.texture.inj
  have hkeys : (e.contents x models shown).map Prod.fst =
      ((e.entries x).map Prod.fst).map Article.program ++
        (e.leaves.map Leaf.name).map Article.model ++
          (shown.map Texture.id).map Article.texture ++ [Article.table] := by
    have hleaves : e.leaves.map Leaf.name = (e.leaves.zip models).map fun q => q.1.name := by
      have hfst := congrArg (List.map Leaf.name) (List.map_fst_zip hlength.le)
      rw [List.map_map] at hfst
      exact hfst.symm
    simp only [contents,List.map_append,List.map_map,hleaves]
    rfl
  rw [hkeys]
  refine ((hprograms.append hmodels ?_).append htextures ?_).append (List.nodup_singleton _) ?_
  all_goals
    intro a ha ha'
    cases a <;> simp at ha ha'

lemma Lawful.length_contents (h : e.Lawful x) (hlength : e.leaves.length = models.length) :
    (e.contents x models shown).length =
      6 + (e.animations.map fun a => 1 + 2 * (a.plan.lastTick + 1)).sum + e.leaves.length +
        shown.length := by
  simp [contents,h.length_entries,hlength]
  omega

/-- No two files share a path if no two articles share a file. -/
lemma nodup_places (hn : ((e.contents x models shown).map Prod.fst).Nodup)
    (hmem : ∀ a b, (a,b) ∈ e.contents x models shown → e.Holds x store a b)
    (hinj : ∀ a b a' b', e.Holds x store a b → e.Holds x store a' b' → a.file x = a'.file x →
      a = a') : ((e.contents x models shown).map fun q => q.1.place x).Nodup := by
  have hmap := hn.map_on (f := Article.place x) ?_
  · rwa [List.map_map] at hmap
  · intro a ha a' ha' hplace
    obtain ⟨⟨a,b⟩,hb,rfl⟩ := List.mem_map.mp ha
    obtain ⟨⟨a',b'⟩,hb',rfl⟩ := List.mem_map.mp ha'
    rw [← Article.file_eq_place,← Article.file_eq_place] at hplace
    exact hinj _ b _ b' (hmem a b hb) (hmem a' b' hb') hplace

/-- What an article holds stands at its place. -/
lemma Filed.get?_place (h : e.Filed x store) {a : Article} {b : ByteArray}
    (hb : e.Holds x store a b) : e.artifacts.get? (a.place x) = some b :=
  (h _ _).mpr ⟨a,(Article.file_eq_place x a).symm,hb⟩

/-- The files are those that are written out. -/
lemma Filed.toList_perm (h : e.Filed x store)
    (hn : ((e.contents x models shown).map fun q => q.1.place x).Nodup)
    (hmem : ∀ a b, (a,b) ∈ e.contents x models shown ↔ e.Holds x store a b) :
    e.artifacts.toList.Perm ((e.contents x models shown).map fun q => (q.1.place x,q.2)) := by
  refine (List.perm_ext_iff_of_nodup (.of_map Prod.fst e.artifacts.nodup_paths)
    (.of_map Prod.fst (by rwa [List.map_map]))).mpr fun ⟨p,b⟩ => ?_
  rw [ArtifactSet.mem_toList,h p b,List.mem_map]
  constructor
  · rintro ⟨a,rfl,hb⟩
    exact ⟨(a,b),(hmem a b).mpr hb,by rw [Article.file_eq_place]⟩
  · rintro ⟨⟨a,b⟩,hb,hf⟩
    cases hf
    exact ⟨a,(Article.file_eq_place _ a).symm,(hmem a b).mp hb⟩

end CompiledEntity

namespace Entity.Prepared

variable {disk : FileTree} {entity : Entity} {x : Exporter} {store : TextureStore}
  {e : CompiledEntity} {c c₁ c₂ c' : Context}

/-- Leaves have the faces of their parts. -/
lemma shows_iff (h : entity.Prepared disk x store e c c₁ c₂ c') {t : Texture} :
    (∃ l ∈ e.leaves, Exporter.Shows store l.faces t) ↔
      ∃ p ∈ Node.partsOf entity.rig.roots, Exporter.Shows store p.faces t := by
  constructor
  · rintro ⟨l,hl,ht⟩
    obtain ⟨p,hp,hlp⟩ := exists_partner_left h.leaves_each l hl
    have hfaces : l.faces = p.faces := congrArg Leaf.faces hlp
    exact ⟨p,hp,hfaces ▸ ht⟩
  · rintro ⟨p,hp,ht⟩
    obtain ⟨l,hl,hlp⟩ := exists_partner h.leaves_each p hp
    have hfaces : l.faces = p.faces := congrArg Leaf.faces hlp
    exact ⟨l,hl,hfaces ▸ ht⟩

end Entity.Prepared

/-- Textures that faces show can be listed, each under an id of its own. -/
lemma TextureStore.Sound.exists_shown {store : TextureStore} (hs : store.Sound)
    (leaves : List (Leaf Float)) : ∃ shown : List Texture, (shown.map Texture.id).Nodup ∧
      ∀ t, t ∈ shown ↔ ∃ l ∈ leaves, Exporter.Shows store l.faces t := by
  classical
  let shown := (leaves.flatMap fun l => Exporter.referenced l store).dedup
  have hshown : ∀ t, t ∈ shown ↔ ∃ l ∈ leaves, Exporter.Shows store l.faces t := by
    intro t
    simp only [shown,List.mem_dedup,List.mem_flatMap,Exporter.mem_referenced hs]
  refine ⟨shown,(List.nodup_dedup _).map_on fun t ht u hu hid => ?_,hshown⟩
  obtain ⟨_,_,_,_,_,_,_,ht⟩ := (hshown t).mp ht
  obtain ⟨_,_,_,_,_,_,_,hu⟩ := (hshown u).mp hu
  exact hs.resolve?_inj ht hu hid

/-- The files of a compiled entity are, each under a path of its own: the five programs of the
entity; for each animation the program that starts it and for each of its ticks a dispatcher and a
body; a model for each part; each texture that some face resolves to; and the table of overrides. -/
theorem Entity.compile_contents {disk : FileTree} {entity : Entity} {c c' : Context}
    {e : CompiledEntity} (h : entity.compile disk c = (.ok e,c')) :
    let x : Exporter := ⟨entity.rig.name,c.options.space,c.options.item⟩
    ∃ store models shown,
      TextureStore.load disk entity.base entity.rig.textures = .ok store ∧
      List.Forall₂ (fun p l => l = p.withId l.customId) (Node.partsOf entity.rig.roots) e.leaves ∧
      List.Forall₂ (Compile.Made entity.rig x e.leaves) entity.rig.animations e.animations ∧
      e.leaves.mapM (fun l => x.model l store) = .ok models ∧
      (∀ t, t ∈ shown ↔ ∃ p ∈ Node.partsOf entity.rig.roots, Exporter.Shows store p.faces t) ∧
      (shown.map Texture.id).Nodup ∧
      e.artifacts.toList.Perm ((e.contents x models shown).map fun q => (q.1.place x,q.2)) ∧
      ((e.contents x models shown).map fun q => q.1.place x).Nodup ∧
      e.artifacts.size = 6 + (e.animations.map fun a => 1 + 2 * (a.plan.lastTick + 1)).sum +
        (Node.partsOf entity.rig.roots).length + shown.length := by
  intro x
  obtain ⟨x',store,c₁,c₂,hp,hfiled,hinj⟩ := compile_filed h
  obtain rfl : x' = x := hp.exporter
  have hlawful := hp.lawful
  have hsound := TextureStore.load_sound hp.textures
  obtain ⟨models,hmodels⟩ :=
    Except.exists_mapM_ok fun l hl => Exporter.exists_model (x := x) (hp.bound l hl)
  obtain ⟨shown,hdistinct,hshown⟩ := hsound.exists_shown e.leaves
  have hlength := (Except.mapM_ok_iff.mp hmodels).length_eq
  have hmem : ∀ a b, (a,b) ∈ e.contents x models shown ↔ e.Holds x store a b :=
    fun a b => hlawful.mem_contents hmodels hshown
  have hplaces := CompiledEntity.nodup_places (hlawful.nodup_contents hlength hdistinct)
    (fun a b => (hmem a b).mp) hinj
  have hperm := hfiled.toList_perm hplaces hmem
  refine ⟨store,models,shown,hp.textures,hp.leaves_each,hp.animations_made,hmodels,
    fun t => (hshown t).trans hp.shows_iff,hdistinct,hperm,hplaces,?_⟩
  rw [← ArtifactSet.length_paths,ArtifactSet.paths,List.length_map,hperm.length_eq,
    List.length_map,hlawful.length_contents hlength,hp.leaves_each.length_eq]

/-- The banner has seventeen files: five programs of its own, five for the two ticks of one
animation and three for the one tick of the other, two models, the image that two ids stand for, and
the table. -/
theorem banner_contents : ∃ e c', (banner "banner").compile {} ⟨{},0,1,[]⟩ = (.ok e,c') ∧
    e.artifacts.size = 17 := by
  obtain ⟨e,c',h⟩ := banner_compiles
  obtain ⟨store,models,shown,hstore,_,hmade,_,hshown,hdistinct,_,_,hsize⟩ :=
    Entity.compile_contents h
  have hticks : (e.animations.map fun a => 1 + 2 * (a.plan.lastTick + 1)).sum = 8 := by
    obtain ⟨a,_,ha,hrest,heq⟩ := List.forall₂_cons_left_iff.mp hmade
    obtain ⟨b,_,hb,hnil,rfl⟩ := List.forall₂_cons_left_iff.mp hrest
    obtain rfl := List.forall₂_nil_left_iff.mp hnil
    rw [heq,List.map_cons,List.map_singleton,← Except.ok.inj (banner_ticks.1.symm.trans ha.last),
      ← Except.ok.inj (banner_ticks.2.symm.trans hb.last)]
    rfl
  have hred : (shown.map Texture.id).Perm ["red"] := by
    obtain ⟨store',hstore',hids⟩ := banner_store "banner"
    obtain rfl := Except.ok.inj (hstore.symm.trans hstore')
    refine (List.perm_ext_iff_of_nodup hdistinct (List.nodup_singleton _)).mpr fun id => ?_
    rw [List.mem_map,List.mem_singleton]
    constructor
    · rintro ⟨t,ht,rfl⟩
      obtain ⟨asked,hasked,hresolved⟩ := banner_shows.mp ((hshown t).mp ht)
      rcases List.mem_pair.mp hasked with rfl | rfl
      · exact Option.some.inj ((congrArg _ hresolved).symm.trans hids.2)
      · exact Option.some.inj ((congrArg _ hresolved).symm.trans hids.1)
    · rintro rfl
      obtain ⟨t,hresolved,ht⟩ := Option.map_eq_some_iff.mp hids.1
      exact ⟨t,(hshown t).mpr (banner_shows.mpr ⟨"red",by simp,hresolved⟩),ht⟩
  have hlength : shown.length = 1 := by simpa using hred.length_eq
  refine ⟨e,c',h,?_⟩
  rw [hsize,hticks,hlength]
  rfl

end RigPack
