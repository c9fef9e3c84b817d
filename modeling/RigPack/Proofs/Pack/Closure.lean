import Mathlib
import RigPack.Proofs.Pack.Identities
import RigPack.Proofs.Pack.References

/-!
Packs are closed under reference. Beside the programs, the table of overrides leads to the files of
models and these to the files of textures. References and files are compared as they are written: a
reference is a namespace and a path with a colon between them, and from the same two the place of
the file is made up.
-/

namespace RigPack
namespace CompiledEntity

variable {e : CompiledEntity} {x : Exporter}

/-- The file of an entity's table has a row for each leaf, in the order of their ids, and each row
leads to the file of a model. -/
structure TableClosed (e : CompiledEntity) (x : Exporter) (rows : List (Leaf Float)) : Prop where
  file : e.artifacts.get? ("assets/" ++ (splitItem x.item).1 ++ "/models/item/" ++
      (splitItem x.item).2 ++ ".json") = some (Value.object [
    ("parent",.string "item/generated"),
    ("textures",.object [("layer0",.string ("item/" ++ (splitItem x.item).2))]),
    ("overrides",.array (rows.map fun l => .object [
      ("predicate",.object [("custom_model_data",.number (toString l.customId.toNat))]),
      ("model",.string (x.space ++ ":" ++ x.entity ++ "/" ++ l.name))]))]).file.toUTF8
  each : rows.Perm e.leaves
  increasing : rows.Pairwise fun l l' => l.customId < l'.customId
  models : ∀ l ∈ rows, ∃ m : Model, e.artifacts.get? ("assets/" ++ x.space ++ "/models/" ++
    x.entity ++ "/" ++ l.name ++ ".json") = some m.toValue.file.toUTF8

/-- A face of a leaf as it is written: it goes by the id of the texture that it shows, the table
leads from this id to a texture of the pack, and the file of that one has the image. -/
def FaceClosed (e : CompiledEntity) (x : Exporter) (store : TextureStore)
    (table : List (String × Value)) (p : Side × Face Float) (q : String × Value) : Prop :=
  ∃ id t uv, p.2.texture = some id ∧ store.resolve? id = some t ∧
    q = (p.1.name,.object [("texture",.string ("#" ++ t.id)),("uv",uv)]) ∧
      (t.id,.string (x.space ++ ":" ++ x.entity ++ "/" ++ t.id)) ∈ table ∧
        e.artifacts.get? ("assets/" ++ x.space ++ "/textures/" ++ x.entity ++ "/" ++ t.id ++
          ".png") = some (Png.encode t.image)

/-- The file of a leaf's model goes by textures that are there. Its faces are those of the leaf that
have a texture, and its table leads from the ids of what they show to the files of the textures. -/
structure ModelClosed (e : CompiledEntity) (x : Exporter) (store : TextureStore) (l : Leaf Float)
    (m : Model) (table sides : List (String × Value)) : Prop where
  file : e.artifacts.get? ("assets/" ++ x.space ++ "/models/" ++ x.entity ++ "/" ++ l.name ++
    ".json") = some m.toValue.file.toUTF8
  written : ∃ low high, m.toValue = .object [
    ("textures",.object table),
    ("elements",.array [.object [("from",low),("to",high),("faces",.object sides)]]),
    ("display",Model.display)]
  faces : List.Forall₂ (e.FaceClosed x store table)
    (l.faces.toList.filter fun p => p.2.texture.isSome) sides
  keys : (table.map Prod.fst).Nodup
  textures : ∀ q ∈ table, ∃ t, Exporter.Shows store l.faces t ∧
    q = (t.id,.string (x.space ++ ":" ++ x.entity ++ "/" ++ t.id)) ∧
      e.artifacts.get? ("assets/" ++ x.space ++ "/textures/" ++ x.entity ++ "/" ++ t.id ++
        ".png") = some (Png.encode t.image)

section Closed

variable {store : TextureStore} {l : Leaf Float} {m : Model}

/-- Leaves in the order of ids that are told apart. -/
lemma leaves_increasing {leaves : List (Leaf Float)} (h : (leaves.map Leaf.customId).Nodup) :
    (leaves.mergeSort fun l l' => l.customId ≤ l'.customId).Pairwise
      fun l l' => l.customId < l'.customId := by
  have hsorted : (leaves.mergeSort fun l l' => l.customId ≤ l'.customId).Pairwise
      fun l l' => l.customId ≤ l'.customId := by
    refine (List.pairwise_mergeSort (fun a b c hab hbc => ?_) (fun a b => ?_) leaves).imp
      of_decide_eq_true
    · exact decide_eq_true (UInt32.le_trans (of_decide_eq_true hab) (of_decide_eq_true hbc))
    · simpa using UInt32.le_total a.customId b.customId
  have hdistinct : (leaves.mergeSort fun l l' => l.customId ≤ l'.customId).Pairwise
      fun l l' => l.customId ≠ l'.customId :=
    List.pairwise_map.mp (((List.mergeSort_perm leaves _).map Leaf.customId).nodup_iff.mpr h)
  exact (hsorted.and hdistinct).imp fun h => UInt32.lt_of_le_of_ne h.1 h.2

lemma Filed.tableClosed (hget : e.Filed x store)
    (hids : (e.leaves.map Leaf.customId).Nodup)
    (hbound : ∀ l ∈ e.leaves, Exporter.Bound store l.faces) :
    e.TableClosed x (e.leaves.mergeSort fun l l' => l.customId ≤ l'.customId) := by
  have hrows : (OverrideTable.ofRows x.item (e.leaves.map x.override)).rows =
      (e.leaves.mergeSort fun l l' => l.customId ≤ l'.customId).map x.override :=
    (List.map_mergeSort (f := x.override) fun _ _ _ _ => rfl).symm
  refine ⟨(hget.get?_place .table).trans ?_,List.mergeSort_perm _ _,leaves_increasing hids,
    fun l hl => ?_⟩
  · rw [OverrideTable.toValue,hrows,List.map_map]
    simp only [Function.comp_def,Exporter.override,Exporter.modelPath,OverrideTable.row,
      ResourcePath.text_child_child]
    rfl
  · have hl := (List.mergeSort_perm _ _).mem_iff.mp hl
    obtain ⟨m,hm⟩ := Exporter.exists_model (x := x) (hbound l hl)
    exact ⟨m,hget.get?_place (.model hl hm)⟩

lemma Filed.modelClosed (hget : e.Filed x store) (hl : l ∈ e.leaves)
    (hm : x.model l store = .ok m) : e.ModelClosed x store l m
      (m.textures.toList.map fun (key,path) => (key,.string path))
      (m.faces.map fun (side,f) => (side.name,Model.face f)) := by
  have htextured := Exporter.model_ok hm
  have hpath (id : String) :
      (x.texturePath id).text = x.space ++ ":" ++ x.entity ++ "/" ++ id :=
    ResourcePath.text_child_child _ _ _
  refine ⟨hget.get?_place (.model hl hm),⟨_,_,rfl⟩,?_,?_,fun q hq => ?_⟩
  · refine List.forall₂_map_right_iff.mpr
      (((List.forall₂_and_left _ _).mpr ⟨fun p hp => hp,htextured.faces⟩).imp ?_)
    rintro ⟨side,f⟩ q ⟨hf,hside,id,t,hid,ht,hq⟩
    have hshows : Exporter.Shows store l.faces t := ⟨side,f,id,(List.mem_filter.mp hf).1,hid,ht⟩
    have hkey := (htextured.textures _ _).mpr ⟨t,hshows,rfl,rfl⟩
    rw [← Std.ExtTreeMap.mem_toList_iff_getElem?_eq_some,hpath] at hkey
    have hface : Model.face q.2 = .object [("texture",.string ("#" ++ t.id)),
        ("uv",.array (q.2.uv.toList.map Value.ofFloat))] := by
      rw [← hq]
      rfl
    exact ⟨id,t,_,hid,ht,Prod.ext (congrArg Side.name hside) hface,List.mem_map.mpr ⟨_,hkey,rfl⟩,
      hget.get?_place (.texture hl hshows)⟩
  · have hkeys : m.textures.keys.Nodup := Std.ExtTreeMap.nodup_keys
    rw [← Std.ExtTreeMap.map_fst_toList_eq_keys] at hkeys
    rwa [List.map_map]
  · obtain ⟨⟨k,v⟩,hkv,rfl⟩ := List.mem_map.mp hq
    rw [Std.ExtTreeMap.mem_toList_iff_getElem?_eq_some] at hkv
    obtain ⟨t,ht,rfl,rfl⟩ := (htextured.textures k v).mp hkv
    exact ⟨t,ht,by rw [hpath],hget.get?_place (.texture hl ht)⟩

end Closed

end CompiledEntity

/-- What is compiled is closed under reference: programs name programs of the same set, and call each
other in no circle; the objectives they are about are registered by the program that loads them; the
table leads to one model for each part; and the models show textures that are there. With options
that are checked, as a new context has them, the texts of the programs alone tell all that is said
of programs. -/
theorem Entity.compile_closed {disk : FileTree} {entity : Entity} {c c' : Context}
    {e : CompiledEntity} (h : entity.compile disk c = (.ok e,c')) :
    let x : Exporter := ⟨entity.rig.name,c.options.space,c.options.item⟩
    e.ProgramsClosed ∧ (c.options.validate = .ok () → e.TextsClosed x) ∧
      (∃ rows, e.TableClosed x rows) ∧
      List.Forall₂ (fun p l => l = p.withId l.customId) (Node.partsOf entity.rig.roots) e.leaves ∧
      ∃ store, TextureStore.load disk entity.base entity.rig.textures = .ok store ∧
        ∀ l ∈ e.leaves, ∃ m table sides, x.model l store = .ok m ∧
          e.ModelClosed x store l m table sides := by
  intro x
  obtain ⟨x',store,c₁,c₂,hp,hget,_⟩ := compile_filed h
  obtain rfl : x' = x := hp.exporter
  refine ⟨hget.programsClosed hp.lawful,fun ho => ?_,
    ⟨_,hget.tableClosed hp.issued.nodup hp.bound⟩,hp.leaves_each,store,hp.textures,fun l hl => ?_⟩
  · exact hget.textsClosed hp.lawful fun q hq =>
      ⟨(compile_proper ho h q hq).1,(compile_proper ho h q hq).2.1⟩
  · obtain ⟨m,hm⟩ := Exporter.exists_model (x := x) (hp.bound l hl)
    exact ⟨m,_,_,hm,hget.modelClosed hl hm⟩

/-- The program that starts what was asked for. -/
def bannerSelect : Program :=
  Support.select (Functions.ofEntity "cmdent" "banner") ["wave", "fall"]

lemma bannerSelect_mem {e : CompiledEntity} {c' : Context}
    (h : (banner "banner").compile {} ⟨{},0,1,[]⟩ = (.ok e,c')) :
    ((Functions.ofEntity "cmdent" "banner").select,bannerSelect) ∈ e.programs := by
  obtain ⟨x,_,_,_,hp,_⟩ := Entity.compile_filed h
  have hfunctions : e.functions = Functions.ofEntity "cmdent" "banner" := by
    rw [hp.functions,hp.exporter]
    rfl
  have hnames : e.animations.map (fun a => a.plan.name) = ["wave","fall"] := hp.animations_names
  have hselect := hp.lawful.mem_programs.mpr ⟨.select,rfl,.select⟩
  rw [hnames,hfunctions] at hselect
  exact hselect

/-- Whichever of its two ids a face asks for, it shows the one image. -/
lemma banner_face {e : CompiledEntity} {store : TextureStore} {table : List (String × Value)}
    {p : Side × Face Float} {q : String × Value}
    (hstore : TextureStore.load {} (banner "banner").base (banner "banner").rig.textures =
      .ok store)
    (hp : p.2.texture = some "crimson" ∨ p.2.texture = some "red")
    (h : e.FaceClosed ⟨"banner","cmdent","minecraft:white_dye"⟩ store table p q) :
    (∃ uv, q = (p.1.name,.object [("texture",.string "#red"),("uv",uv)])) ∧
      ("red",.string "cmdent:banner/red") ∈ table ∧
      ∃ image, e.artifacts.get? "assets/cmdent/textures/banner/red.png" =
        some (Png.encode image) := by
  obtain ⟨id,t,uv,hid,ht,hq,hkey,hfile⟩ := h
  obtain ⟨store',hstore',hred,hcrimson⟩ := banner_store "banner"
  obtain rfl := Except.ok.inj (hstore.symm.trans hstore')
  have hname : t.id = "red" := by
    rw [hid] at hp
    rcases hp with hp | hp
    · obtain rfl := Option.some.inj hp
      rw [ht] at hcrimson
      exact Option.some.inj hcrimson
    · obtain rfl := Option.some.inj hp
      rw [ht] at hred
      exact Option.some.inj hred
  rw [hname] at hq hkey hfile
  exact ⟨⟨uv,hq⟩,hkey,t.image,hfile⟩

/-- What the banner's programs name is there and what they are about is registered; its table has a
row for each of its parts; and both faces of its cloth show the one image that their two ids stand
for. -/
theorem banner_closed : ∃ e c', (banner "banner").compile {} ⟨{},0,1,[]⟩ = (.ok e,c') ∧
    (e.ProgramsClosed ∧ e.TextsClosed ⟨"banner","cmdent","minecraft:white_dye"⟩ ∧
      e.artifacts.get? "data/cmdent/functions/banner/select.mcfunction" =
        some bannerSelect.text.toUTF8 ∧
      Mention.inText bannerSelect.text = [.called "cmdent:banner/animations/wave/start",
        .called "cmdent:banner/animations/fall/start"] ∧
      (∃ p : Program, e.artifacts.get?
        "data/cmdent/functions/banner/animations/wave/start.mcfunction" = some p.text.toUTF8) ∧
      objectivesInText bannerSelect.text = ["cmdent.pending","cmdent.pending"] ∧
      ∃ load : String, e.artifacts.get? "data/cmdent/functions/banner/load.mcfunction" =
        some load.toUTF8 ∧ "scoreboard objectives add cmdent.pending dummy" ∈ lines load) ∧
    (∃ rows, e.TableClosed ⟨"banner","cmdent","minecraft:white_dye"⟩ rows ∧
      (rows.map fun l => "cmdent:banner/" ++ l.name).Perm
        ["cmdent:banner/cloth","cmdent:banner/tip"]) ∧
    ∃ table low high uv uv' image, e.artifacts.get? "assets/cmdent/models/banner/cloth.json" =
      some (Value.object [
        ("textures",.object table),
        ("elements",.array [.object [("from",low),("to",high),("faces",.object [
          ("north",.object [("texture",.string "#red"),("uv",uv)]),
          ("south",.object [("texture",.string "#red"),("uv",uv')])])]]),
        ("display",Model.display)]).file.toUTF8 ∧
      ("red",.string "cmdent:banner/red") ∈ table ∧
      e.artifacts.get? "assets/cmdent/textures/banner/red.png" = some (Png.encode image) := by
  obtain ⟨e,c',h⟩ := banner_compiles
  obtain ⟨hprograms,htexts,⟨rows,hrows⟩,hleaves,store,hstore,hmodels⟩ := Entity.compile_closed h
  have hselect := bannerSelect_mem h
  have hproper : bannerSelect.Proper := by decide
  have hpending : objectivesInText bannerSelect.text = ["cmdent.pending","cmdent.pending"] := by
    rw [CompiledEntity.objectivesInText_text hproper]
    decide
  refine ⟨e,c',h,⟨hprograms,htexts rfl,hprograms.files _ hselect,?_,?_,hpending,?_⟩,
    ⟨rows,hrows,?_⟩,?_⟩
  · rw [CompiledEntity.inText_text hproper]
    decide
  · exact (hprograms.named _ hselect _ List.mem_cons_self
      ((Functions.ofEntity "cmdent" "banner").entry "wave") rfl).2.imp fun p hp => hp.2
  · obtain ⟨load,hload,hall⟩ := (htexts rfl).objectives
    exact ⟨load,hload,hall _ hselect _ (hpending ▸ List.mem_cons_self)⟩
  · have hnames : e.leaves.map Leaf.name = ["cloth","tip"] := by
      obtain ⟨l,_,hl,hrest,heq⟩ := List.forall₂_cons_left_iff.mp hleaves
      obtain ⟨l',_,hl',hnil,rfl⟩ := List.forall₂_cons_left_iff.mp hrest
      obtain rfl := List.forall₂_nil_left_iff.mp hnil
      rw [heq,hl,hl']
      rfl
    have hperm := (hrows.each.map Leaf.name).map ("cmdent:banner/" ++ ·)
    rw [hnames,List.map_map] at hperm
    exact hperm
  · obtain ⟨l,hl,hcloth⟩ := exists_partner hleaves _ List.mem_cons_self
    obtain ⟨m,table,sides,_,hm⟩ := hmodels l hl
    obtain ⟨low,high,hwritten⟩ := hm.written
    have hasked : (l.faces.toList.filter fun p => p.2.texture.isSome) =
        [(.north,⟨some "crimson",⟨0,0,1,1⟩⟩),(.south,⟨some "red",⟨0,0,1,1⟩⟩)] := by
      rw [hcloth]
      rfl
    have hfaces := hm.faces
    rw [hasked] at hfaces
    obtain ⟨_,_,hnorth,hrest,rfl⟩ := List.forall₂_cons_left_iff.mp hfaces
    obtain ⟨_,_,hsouth,hnil,rfl⟩ := List.forall₂_cons_left_iff.mp hrest
    obtain rfl := List.forall₂_nil_left_iff.mp hnil
    obtain ⟨⟨uv,rfl⟩,_⟩ := banner_face hstore (.inl rfl) hnorth
    obtain ⟨⟨uv',rfl⟩,hkey,image,hfile⟩ := banner_face hstore (.inr rfl) hsouth
    have hname : l.name = "cloth" := congrArg Leaf.name hcloth
    have hmodel := hm.file
    rw [hwritten,hname] at hmodel
    exact ⟨table,low,high,uv,uv',image,hmodel,hkey,hfile⟩

end RigPack
