import Mathlib
import RigPack.Proofs.Pack.Files

/-!
Which entities are compiled and which are refused. Every way in which a compilation can fail is
named by a fault of the entity itself; the checks that come after validation for ids, textures and
files find nothing more, but for one pair of files.
-/

namespace RigPack

lemma Names.entityTag_mem_reserved {name : String} :
    Names.entityTag name ∈ Names.reserved ↔ name ∈ ["part","active","gc","temp"] := by
  simp [Names.entityTag,Names.reserved,Names.proxy,Names.active,Names.unposed,Names.fresh,
    ← String.toList_inj]

lemma LoopPolicy.exists_ofName?_iff {found : String} :
    (∃ p, LoopPolicy.ofName? found = some p) ↔ found ∈ ["once","hold","loop"] := by
  unfold LoopPolicy.ofName?
  split <;> simp_all

lemma LoopPolicy.understand_error {entity animation found : String} {err : Error}
    (h : LoopPolicy.understand entity animation found = .error err) :
    err = .loopPolicy entity animation found ∧ found ∉ ["once","hold","loop"] := by
  unfold LoopPolicy.understand at h
  split at h
  · cases h
  · rename_i hnone
    cases h
    refine ⟨rfl,fun hm => ?_⟩
    obtain ⟨p,hp⟩ := exists_ofName?_iff.mpr hm
    exact absurd (hnone.symm.trans hp) nofun

lemma LoopPolicy.mem_of_understand {entity animation found : String} {policy : LoopPolicy}
    (h : LoopPolicy.understand entity animation found = .ok policy) :
    found ∈ ["once","hold","loop"] := by
  unfold LoopPolicy.understand at h
  split at h
  · rename_i p hp
    exact exists_ofName?_iff.mp ⟨p,hp⟩
  · cases h

/-- A last tick leaves room in its word for one more. -/
lemma le_of_lastTick {seconds : Float} {last : Nat} (h : lastTick seconds = .ok last) :
    last + 1 ≤ 2^32 - 1 := by
  unfold lastTick at h
  split at h
  · cases h
  · dsimp only at h
    split at h
    · cases h
    · rename_i hle
      cases h
      have hgreatest : greatestTick = 2^32 - 2 := rfl
      omega

lemma lastTick_error {seconds : Float} {err : Error} (h : lastTick seconds = .error err) :
    err = .impossibleDuration seconds ∨ err = .durationBeyondTicks seconds := by
  unfold lastTick at h
  split at h
  · cases h
    exact .inl rfl
  · dsimp only at h
    split at h
    · cases h
      exact .inr rfl
    · cases h

/-- What options are like that pass validation. -/
lemma Options.segments_of_validate {o : Options} (h : o.validate = .ok ()) :
    isSegment o.space ∧ isSegment (splitItem o.item).1 ∧ isSegment (splitItem o.item).2 := by
  unfold Options.validate at h
  simp only [Bool.or_eq_true,Bool.not_eq_true'] at h
  split at h
  · cases h
  · split at h
    · cases h
    · rename_i hspace hitem
      simp only [not_or,Bool.not_eq_false] at hspace hitem
      exact ⟨hspace,hitem⟩

namespace Compile

open Compiling

variable {c c' : Context} {err : Error}

/-- A plan fails by its policy, by its length, or because there are no frame ids for its ticks. -/
lemma plan_error {entity : String} {a : Animation Float}
    (h : plan entity a c = (.error err,c')) :
    LoopPolicy.understand entity a.name a.loop = .error err ∨ lastTick a.length = .error err ∨
      err = .framesExhausted ∧ ∃ last, lastTick a.length = .ok last ∧
        Context.frameLimit < c.nextFrame + (last + 1) := by
  rcases bind_error h with h | ⟨_,_,hpolicy,h⟩
  · exact .inl (lift_error h)
  obtain ⟨_,rfl⟩ := lift_ok hpolicy
  rcases bind_error h with h | ⟨last,_,hticks,h⟩
  · exact .inr (.inl (lift_error h))
  obtain ⟨hlast,rfl⟩ := lift_ok hticks
  rcases bind_error h with h | ⟨_,_,_,h⟩
  · rw [Context.allocFrames_run] at h
    split at h
    · cases h
    · rename_i hlimit
      cases h
      exact .inr (.inr ⟨rfl,last,hlast,by omega⟩)
  · exact (pure_error h).elim

lemma animations_error {f : Functions} {x : Exporter} {rig : Rig Float} {leaves : List (Leaf Float)}
    {l : List (Animation Float)} (h : l.mapM (animation f x rig leaves) c = (.error err,c')) :
    (∃ a ∈ l, LoopPolicy.understand rig.name a.name a.loop = .error err) ∨
      (∃ a ∈ l, lastTick a.length = .error err) ∨
        err = .framesExhausted ∧ ∀ ticks, l.mapM (fun a => lastTick a.length) = .ok ticks →
          Context.frameLimit < c.nextFrame + (ticks.map (· + 1)).sum := by
  induction l generalizing c with
  | nil => exact (pure_error h).elim
  | cons a l ih =>
    -- The ticks of the list are those of its first animation and those of the others.
    have hticks : ∀ {ticks}, (a::l).mapM (fun a => lastTick a.length) = .ok ticks →
        ∃ last rest, lastTick a.length = .ok last ∧
          l.mapM (fun a => lastTick a.length) = .ok rest ∧ ticks = last::rest := by
      intro ticks ht
      obtain ⟨last,rest,hlast,hrest,rfl⟩ :=
        List.forall₂_cons_left_iff.mp (Except.mapM_ok_iff.mp ht)
      exact ⟨last,rest,hlast,Except.mapM_ok_iff.mpr hrest,rfl⟩
    rw [List.mapM_cons] at h
    rcases bind_error h with h | ⟨b,d,hb,h⟩
    · rcases bind_error h with h | ⟨_,_,_,h⟩
      · rcases plan_error h with h | h | ⟨rfl,last,hlast,hlimit⟩
        · exact .inl ⟨a,List.mem_cons_self,h⟩
        · exact .inr (.inl ⟨a,List.mem_cons_self,h⟩)
        · refine .inr (.inr ⟨rfl,fun ticks ht => ?_⟩)
          obtain ⟨last',rest,hlast',_,rfl⟩ := hticks ht
          obtain rfl := Except.ok.inj (hlast.symm.trans hlast')
          simp only [List.map_cons,List.sum_cons]
          omega
      · exact (pure_error h).elim
    · rcases bind_error h with h | ⟨_,_,_,h⟩
      · obtain ⟨_,_,hlast,hfirst,hnext,_⟩ := plan_ok (animation_ok hb).2
        rcases ih h with ⟨a',ha',h⟩ | ⟨a',ha',h⟩ | ⟨rfl,hlimit⟩
        · exact .inl ⟨a',List.mem_cons_of_mem _ ha',h⟩
        · exact .inr (.inl ⟨a',List.mem_cons_of_mem _ ha',h⟩)
        · refine .inr (.inr ⟨rfl,fun ticks ht => ?_⟩)
          obtain ⟨last',rest,hlast',hrest,rfl⟩ := hticks ht
          obtain rfl := Except.ok.inj (hlast.symm.trans hlast')
          have := hlimit rest hrest
          simp only [List.map_cons,List.sum_cons]
          omega
      · exact (pure_error h).elim

end Compile

namespace Entity

/-- A part's model stands in the place of the table: the item's namespace is that of the pack, the
entity is called `item`, and the part is called as the item is. -/
def MeetsTable (entity : Entity) (o : Options) : Prop :=
  (splitItem o.item).1 = o.space ∧ entity.rig.name = "item" ∧
    ∃ p ∈ Node.partsOf entity.rig.roots, p.name = (splitItem o.item).2

/-- What an entity has to be like to be compiled with fresh ids. -/
structure Compilable (entity : Entity) (o : Options) : Prop where
  valid : entity.rig.validate = .ok ()
  name : entity.rig.name ∉ ["part","active","gc","temp"]
  policies : ∀ a ∈ entity.rig.animations, a.loop ∈ ["once","hold","loop"]
  frames : ∃ ticks, entity.rig.animations.mapM (fun a => lastTick a.length) = .ok ticks ∧
    (ticks.map (· + 1)).sum ≤ 2^31 - 1
  table : ¬entity.MeetsTable o

/-- The faults that validation does not find. -/
inductive Fault (entity : Entity) (o : Options) : Error → Prop
  | name : entity.rig.name ∈ ["part","active","gc","temp"] →
      Fault entity o (.reservedName entity.rig.name)
  | policy {a} : a ∈ entity.rig.animations → a.loop ∉ ["once","hold","loop"] →
      Fault entity o (.loopPolicy entity.rig.name a.name a.loop)
  | length {a err} : a ∈ entity.rig.animations → lastTick a.length = .error err →
      Fault entity o err
  | frames : (∀ ticks, entity.rig.animations.mapM (fun a => lastTick a.length) = .ok ticks →
      2^31 - 1 < (ticks.map (· + 1)).sum) → Fault entity o .framesExhausted
  | table : entity.MeetsTable o →
      Fault entity o (.conflictingArtifact (Compile.modelFile (Compile.itemPath o.item)))

variable {disk : FileTree} {entity : Entity} {o : Options} {c c' : Context}
  {store : TextureStore} {err : Error}

lemma Compilable.no_fault (h : entity.Compilable o) : ¬entity.Fault o err := by
  intro hf
  obtain ⟨ticks,hticks,hsum⟩ := h.frames
  cases hf with
  | name hname => exact h.name hname
  | policy ha hloop => exact hloop (h.policies _ ha)
  | length ha hlength =>
    obtain ⟨last,_,hlast⟩ := exists_partner (Except.mapM_ok_iff.mp hticks) _ ha
    exact absurd (hlast.symm.trans hlength) nofun
  | frames hframes => exact absurd (hframes ticks hticks) (by omega)
  | table hmeets => exact h.table hmeets

/-- Two contents for one path are those of a model and the table. -/
lemma Prepared.meets_table {x : Exporter} {e : CompiledEntity} {c₁ c₂ : Context}
    (h : entity.Prepared disk x store e c c₁ c₂ c') (ho : c.options.validate = .ok ())
    {a a' : Article} {b b' : ByteArray} (hb : e.Holds x store a b) (hb' : e.Holds x store a' b')
    (hfile : a.file x = a'.file x) (hne : b ≠ b') :
    entity.MeetsTable c.options ∧
      a.file x = Compile.modelFile (Compile.itemPath c.options.item) := by
  have hsound := TextureStore.load_sound h.textures
  have hrig := Rig.wellFormed_of_validate h.valid
  obtain ⟨hspace,hitem,hname⟩ := Options.segments_of_validate ho
  have hxspace : x.space = c.options.space := congrArg Exporter.space h.exporter
  have hxentity : x.entity = entity.rig.name := congrArg Exporter.entity h.exporter
  have hxitem : x.item = c.options.item := congrArg Exporter.item h.exporter
  -- A model that stands in the place of the table is that of a part.
  have hmeets : ∀ part b, e.Holds x store (.model part) b →
      (Article.model part).file x = Article.table.file x → entity.MeetsTable c.options := by
    intro part b hb hfile
    cases hb with
    | @model l _ hl _ =>
      obtain ⟨p,hp,hlp⟩ := exists_partner_left h.leaves_each l hl
      have hlname : l.name = p.name := congrArg Leaf.name hlp
      rw [Article.file_model_eq_table (hxspace ▸ slash_not_mem hspace)
        (hxentity ▸ slash_not_mem hrig.name) (hlname ▸ slash_not_mem (hrig.parts p hp).1)
        (hxitem ▸ slash_not_mem hitem) (hxitem ▸ slash_not_mem hname)] at hfile
      obtain ⟨hs,he,hn⟩ := hfile
      rw [hxspace,hxitem] at hs
      rw [hlname,hxitem] at hn
      exact ⟨hs.symm,hxentity ▸ he,p,hp,hn⟩
  have htable : Article.table.file x = Compile.modelFile (Compile.itemPath c.options.item) := by
    rw [Article.file,hxitem]
  rcases h.eq_or_table hb hb' hfile with rfl | ⟨part,rfl,rfl⟩ | ⟨part,rfl,rfl⟩
  · exact absurd (h.lawful.holds_unique hsound hb hb') hne
  · exact ⟨hmeets part b hb hfile,hfile.trans htable⟩
  · exact ⟨hmeets part b' hb' hfile.symm,htable⟩

/-- Animations that cannot be compiled are a fault of their entity. -/
lemma Fault.of_animations {f : Functions} {x : Exporter} {leaves : List (Leaf Float)}
    (hfirst : c.nextFrame = 0)
    (h : entity.rig.animations.mapM (Compile.animation f x entity.rig leaves) c =
      (.error err,c')) : entity.Fault o err := by
  rcases Compile.animations_error h with ⟨a,ha,h⟩ | ⟨a,ha,h⟩ | ⟨rfl,hlimit⟩
  · obtain ⟨rfl,hloop⟩ := LoopPolicy.understand_error h
    exact .policy ha hloop
  · exact .length ha h
  · refine .frames fun ticks hticks => ?_
    have hframes : Context.frameLimit = 2^31 - 1 := rfl
    have := hlimit ticks hticks
    omega

/-- So are files that do not go together. -/
lemma Prepared.fault {x : Exporter} {e : CompiledEntity} {c₁ c₂ : Context}
    (h : entity.Prepared disk x store e c c₁ c₂ c') (ho : c.options.validate = .ok ())
    (hmade : Compile.artifacts x store e.leaves e.programs = .error err) :
    entity.Fault c.options err := by
  obtain ⟨files,heq,hfiles⟩ := h.exists_files
  obtain ⟨p,b,b',rfl,hb,hb',hne⟩ := ArtifactSet.ofList_error (heq ▸ hmade)
  obtain ⟨a,rfl,ha⟩ := (hfiles _ _).mp hb
  obtain ⟨a',hfile,ha'⟩ := (hfiles _ _).mp hb'
  obtain ⟨hmeets,hplace⟩ := h.meets_table ho ha ha' hfile hne
  rw [hplace]
  exact .table hmeets

open Compiling in
/-- An entity that passes validation and whose textures are there fails by a fault of its own. -/
lemma fault_of_error (hc : Context.ofOptions o = .ok c)
    (hload : TextureStore.load disk entity.base entity.rig.textures = .ok store)
    (hroom : o.firstCustomId.toNat + (Node.partsOf entity.rig.roots).length ≤ 2^32 - 1)
    (hvalid : entity.rig.validate = .ok ()) (h : entity.compile disk c = (.error err,c')) :
    entity.Fault o err := by
  have hrig := Rig.wellFormed_of_validate hvalid
  obtain ⟨_,ho,hc⟩ := Except.bind_ok hc
  cases hc
  unfold Entity.compile at h
  rcases bind_error h with h | ⟨_,_,hv,h⟩
  · exact absurd (hvalid.symm.trans (lift_error h)) nofun
  obtain ⟨_,rfl⟩ := lift_ok hv
  simp only at h
  split at h
  · rename_i hreserved
    rcases bind_error h with h | ⟨_,_,hthrow,_⟩
    · cases throw_error h
      exact .name (Names.entityTag_mem_reserved.mp hreserved)
    · exact (throw_ok hthrow).elim
  rename_i hfree
  rcases bind_error h with h | ⟨d,c₁,hget,h⟩
  · exact (get_error h).elim
  obtain ⟨rfl,rfl⟩ := get_ok hget
  -- Chosen ids are told apart, and no id was in use before.
  have hreserve : Context.reserve entity.rig.name (Node.partsOf entity.rig.roots)
      ⟨o,0,o.firstCustomId,[]⟩ = (.ok (),⟨o,0,o.firstCustomId,_⟩) :=
    Context.reserve_ok_iff.mpr ⟨hrig.chosen_distinct,by simp,rfl⟩
  rcases bind_error h with h | ⟨_,c₁,hreserved,h⟩
  · exact absurd (hreserve.symm.trans h) nofun
  obtain rfl := congrArg Prod.snd (hreserve.symm.trans hreserved)
  rcases bind_error h with h | ⟨leaves,c₂,hleaves,h⟩
  · have hsize : UInt32.size = 2^32 := rfl
    have hfits : o.firstCustomId.toNat + (Node.partsOf entity.rig.roots).length < UInt32.size := by
      omega
    obtain ⟨_,_,hok⟩ := Context.leaves_room
      (Context.room_of_chosen (c := ⟨o,0,o.firstCustomId,_⟩) (List.append_nil _) hfits)
    exact absurd (hok.symm.trans h) nofun
  rcases bind_error h with h | ⟨_,_,hl,h⟩
  · exact absurd (hload.symm.trans (lift_error h)) nofun
  obtain ⟨hstore,rfl⟩ := lift_ok hl
  obtain rfl := Except.ok.inj (hload.symm.trans hstore)
  rcases bind_error h with h | ⟨animations,c₃,hmap,h⟩
  · obtain ⟨_,ha⟩ := Context.leaves_ok hleaves
    exact .of_animations ha.nextFrame h
  rcases bind_error h with h | ⟨_,_,_,h⟩
  · let x : Exporter := ⟨entity.rig.name,o.space,o.item⟩
    let f := Functions.ofEntity o.space entity.rig.name
    let e : CompiledEntity := ⟨entity.rig.name,f,leaves,animations,
      Support.programs f x leaves (animations.map fun a => a.plan.name),{}⟩
    have hp : entity.Prepared disk x store e ⟨o,0,o.firstCustomId,[]⟩ _ c₂ c₃ :=
      ⟨hvalid,hfree,rfl,rfl,rfl,hreserve,hleaves,hload,hmap,rfl⟩
    exact hp.fault ho (lift_error h)
  · exact (pure_error h).elim

lemma Compilable.exists_compiled (hc : Context.ofOptions o = .ok c)
    (hload : TextureStore.load disk entity.base entity.rig.textures = .ok store)
    (hroom : o.firstCustomId.toNat + (Node.partsOf entity.rig.roots).length ≤ 2^32 - 1)
    (h : entity.Compilable o) : ∃ e c', entity.compile disk c = (.ok e,c') := by
  cases hresult : entity.compile disk c with
  | mk result c' =>
    cases result with
    | ok e => exact ⟨e,c',rfl⟩
    | error err => exact absurd (fault_of_error hc hload hroom h.valid hresult) h.no_fault

/-- A compiled entity is as it has to be. -/
lemma compilable_of_ok {e : CompiledEntity} (hc : Context.ofOptions o = .ok c)
    (h : entity.compile disk c = (.ok e,c')) : entity.Compilable o := by
  obtain ⟨_,_,hc⟩ := Except.bind_ok hc
  cases hc
  obtain ⟨x,store,c₁,c₂,hp,_,hinj⟩ := compile_filed h
  obtain ⟨_,_,rfl⟩ := Context.reserve_ok_iff.mp hp.reserved
  obtain ⟨_,ha⟩ := Context.leaves_ok hp.leaves
  have hfirst : c₂.nextFrame = 0 := ha.nextFrame
  have hn := Compile.animations_ok hp.animations
  have heach := hp.animations_made
  refine ⟨hp.valid,fun hname => hp.tag_free (Names.entityTag_mem_reserved.mpr hname),
    fun a ha => ?_,⟨e.animations.map fun b => b.plan.lastTick,?_,?_⟩,?_⟩
  · obtain ⟨b,_,hmade⟩ := exists_partner heach a ha
    exact LoopPolicy.mem_of_understand hmade.policy
  · exact Except.mapM_ok_iff.mpr (List.forall₂_map_right_iff.mpr (heach.imp fun _ _ h => h.last))
  · have hlimit := hn.limit (hfirst ▸ Nat.zero_le _)
    rw [hn.total,hfirst,Nat.zero_add] at hlimit
    rwa [List.map_map]
  · rintro ⟨hspace,hname,p,hpart,hitem⟩
    obtain ⟨l,hl,hlp⟩ := exists_partner hp.leaves_each p hpart
    have hlname : l.name = p.name := congrArg Leaf.name hlp
    obtain ⟨m,hm⟩ := Exporter.exists_model (x := x) (hp.bound l hl)
    have hfile : (Article.model l.name).file x = Article.table.file x := by
      simp only [Article.file,Compile.itemPath,hlname,hitem,hp.exporter,hname,hspace]
    cases hinj _ _ _ _ (.model hl hm) .table hfile

/-- The lengths, frame ids and places that a compilation works with are in range: whatever comes of
adding one to them fits the words that hold them, and what is looked up is there. -/
structure InRange (entity : Entity) : Prop where
  ticks : ∀ seconds last, lastTick seconds = .ok last → last + 1 ≤ 2^32 - 1
  frames : ∀ a c c' p, Compile.plan entity.rig.name a c = (.ok p,c') →
    p.frameId p.lastTick + 1 ≤ 2^31 - 1
  leaves : ∀ (tracks : Tracks Float) leaves t M,
    ∀ q ∈ (Skeleton.bind entity.rig.roots tracks leaves).placedAt t M,
      leaves[q.index]? = some q.leaf
  keys : ∀ (curve : Curve Float) t, curve.placeAfter t ≤ curve.keys.length

lemma inRange (entity : Entity) : entity.InRange := by
  refine ⟨fun _ _ => le_of_lastTick,fun a c c' p h => ?_,fun tracks leaves t M q hq => ?_,
    fun curve t => curve.placeAfter_le t⟩
  · obtain ⟨_,_,_,_,hnext,hlimit⟩ := Compile.plan_ok h
    have hframes : Context.frameLimit = 2^31 - 1 := rfl
    unfold Plan.frameId
    omega
  · exact Limb.getElem?_of_allPlacedAt tracks leaves t M entity.rig.roots q hq

end Entity

/-- With fresh ids, an entity whose textures are there is compiled exactly if it passes validation,
has no reserved name, knows what its animations do at their end and how long they are, has frame ids
for all their ticks, and has no part whose model stands in the place of the table. After validation
nothing is found that was checked before: ids are free and there are enough of them, textures are
bound, and no two files meet but a model and the table. -/
theorem Entity.compile_succeeds_iff {disk : FileTree} {entity : Entity} {o : Options} {c : Context}
    {store : TextureStore} (hc : Context.ofOptions o = .ok c)
    (hload : TextureStore.load disk entity.base entity.rig.textures = .ok store)
    (hroom : o.firstCustomId.toNat + (Node.partsOf entity.rig.roots).length ≤ 2^32 - 1) :
    ((∃ e c', entity.compile disk c = (.ok e,c')) ↔ entity.Compilable o) ∧
    (entity.rig.validate = .ok () → ∀ err c', entity.compile disk c = (.error err,c') →
      (∀ name part id, err ≠ .customIdInUse name part id) ∧ err ≠ .customIdsExhausted ∧
      (∀ name part side id, err ≠ .unboundTexture name part side id) ∧
      ∀ path, err = .conflictingArtifact path →
        path = Compile.modelFile (Compile.itemPath o.item) ∧ entity.MeetsTable o) ∧
    entity.InRange := by
  refine ⟨⟨fun ⟨e,c',h⟩ => compilable_of_ok hc h,Compilable.exists_compiled hc hload hroom⟩,
    fun hvalid err c' h => ?_,inRange entity⟩
  cases fault_of_error hc hload hroom hvalid h with
  | length _ hlength =>
    rcases lastTick_error hlength with rfl | rfl <;> exact ⟨nofun,nofun,nofun,nofun⟩
  | table hmeets => exact ⟨nofun,nofun,nofun,fun path hpath => ⟨by cases hpath; rfl,hmeets⟩⟩
  | _ => exact ⟨nofun,nofun,nofun,nofun⟩

section Banner

/-- An image of one pixel. -/
def pixel : String :=
  "data:image/png;base64,iVBORw0KGgoAAAANSUhEUgAAAAEAAAABCAYAAAAfFcSJAAAAEElEQVR4" ++
    "AQEFAPr/AP8AAP8FAAH/+lyI0QAAAABJRU5ErkJggg=="

/-- A rig of two parts, one of which shows one image under two ids. -/
def banner (name : String) : Entity where
  rig := {
    name
    textures := [⟨"red", pixel⟩, ⟨"crimson", pixel⟩]
    roots := [.bone ⟨"pole", "pole", ⟨0, 0, 0⟩, ⟨0, 0, 0⟩⟩ [
      .part { name := "cloth", low := ⟨0, 16, 0⟩, high := ⟨8, 24, 1⟩, origin := ⟨0, 20, 0⟩,
              rotation := ⟨0, 0, 0⟩, customId := none,
              faces := { north := some ⟨some "crimson", ⟨0, 0, 1, 1⟩⟩,
                         south := some ⟨some "red", ⟨0, 0, 1, 1⟩⟩ } },
      .part { name := "tip", low := ⟨0, 24, 0⟩, high := ⟨1, 26, 1⟩, origin := ⟨0, 24, 0⟩,
              rotation := ⟨0, 0, 0⟩, faces := {}, customId := some 7 }]]
    animations := [⟨"wave", 0.05, "loop", ∅⟩, ⟨"fall", 0, "once", ∅⟩] }
  base := ⟨["."]⟩

/-- Both ids of the image stand for the first. -/
lemma banner_store (name : String) : ∃ store,
    TextureStore.load {} (banner name).base (banner name).rig.textures = .ok store ∧
      (store.resolve? "red").map Texture.id = some "red" ∧
        (store.resolve? "crimson").map Texture.id = some "red" := by
  have h : (TextureStore.load {} (banner "").base (banner "").rig.textures).toOption.map
      (fun s => ((s.resolve? "red").map Texture.id,(s.resolve? "crimson").map Texture.id)) =
        some (some "red",some "red") := by decide +kernel
  obtain ⟨store,hstore,hids⟩ := Option.map_eq_some_iff.mp h
  exact ⟨store,Except.ok_of_toOption hstore,Prod.ext_iff.mp hids⟩

/-- What its faces ask for. -/
lemma banner_shows {store : TextureStore} {t : Texture} :
    (∃ p ∈ Node.partsOf (banner "banner").rig.roots, Exporter.Shows store p.faces t) ↔
      ∃ id ∈ ["crimson","red"], store.resolve? id = some t := by
  have hasked : (Node.partsOf (banner "banner").rig.roots).flatMap (fun p =>
    p.faces.toList.filterMap fun q => q.2.texture) = ["crimson","red"] := rfl
  rw [← hasked]
  constructor
  · rintro ⟨p,hp,side,f,id,hf,hid,ht⟩
    exact ⟨id,List.mem_flatMap.mpr ⟨p,hp,List.mem_filterMap.mpr ⟨_,hf,hid⟩⟩,ht⟩
  · rintro ⟨id,hid,ht⟩
    obtain ⟨p,hp,hid⟩ := List.mem_flatMap.mp hid
    obtain ⟨⟨side,f⟩,hf,hid⟩ := List.mem_filterMap.mp hid
    exact ⟨p,hp,side,f,id,hf,hid,ht⟩

lemma banner_ticks : lastTick 0.05 = .ok 1 ∧ lastTick 0 = .ok 0 := by
  have hwave : (lastTick 0.05).toOption = some 1 := by decide +kernel
  have hfall : (lastTick 0).toOption = some 0 := by decide +kernel
  exact ⟨Except.ok_of_toOption hwave,Except.ok_of_toOption hfall⟩

lemma banner_compilable : (banner "banner").Compilable {} := by
  have hvalid : (banner "banner").rig.validate.toOption = some () := by decide +kernel
  exact ⟨Except.ok_of_toOption hvalid,by decide,by decide,
    ⟨[1,0],Except.mapM_ok_iff.mpr (.cons banner_ticks.1 (.cons banner_ticks.2 .nil)),by decide⟩,
    fun h => absurd h.2.1 (by decide)⟩

lemma banner_compiles : ∃ e c', (banner "banner").compile {} ⟨{},0,1,[]⟩ = (.ok e,c') := by
  obtain ⟨store,hstore,_⟩ := banner_store "banner"
  exact Entity.Compilable.exists_compiled (o := {}) rfl hstore (by decide) banner_compilable

/-- The banner is compiled under its own name. Called `item`, in the namespace of the item that its
cloth is called after, it is not. -/
theorem banner_outcomes : (∃ e c', (banner "banner").compile {} ⟨{},0,1,[]⟩ = (.ok e,c')) ∧
    ¬∃ e c', (banner "item").compile {} ⟨{ space := "minecraft", item := "cloth" },0,1,[]⟩ =
      (.ok e,c') := by
  have hc : Context.ofOptions {} = .ok ⟨{},0,1,[]⟩ := rfl
  have hc' : Context.ofOptions { space := "minecraft", item := "cloth" } =
    .ok ⟨{ space := "minecraft", item := "cloth" },0,1,[]⟩ := rfl
  obtain ⟨store,hstore,_⟩ := banner_store "banner"
  obtain ⟨store',hstore',_⟩ := banner_store "item"
  have hmeets : (banner "item").MeetsTable { space := "minecraft", item := "cloth" } := by
    refine ⟨by decide,rfl,_,List.mem_cons_self,by decide⟩
  refine ⟨(Entity.compile_succeeds_iff hc hstore (by decide)).1.mpr banner_compilable,fun h => ?_⟩
  exact ((Entity.compile_succeeds_iff hc' hstore' (by decide)).1.mp h).table hmeets

end Banner

end RigPack
