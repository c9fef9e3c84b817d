import RigPack.Proofs.Rig.Decode
import RigPack.Rig.Encode
import RigPack.Rig.Entity

/-!
Rigs that are written and read again.
-/

namespace RigPack

variable {α : Type}

open Decoder JsonNumber

lemma Faces.foldl_toList (fs : Faces α) :
    fs.toList.foldl (fun done p => done.set p.1 p.2) {} = fs := by
  obtain ⟨n,e,s,w,u,d⟩ := fs
  cases n <;> cases e <;> cases s <;> cases w <;> cases u <;> cases d <;> rfl

/-- A map is made again of its entries. -/
lemma Tracks.foldl_toList (t : Tracks α) :
    t.toList.foldl (fun done p => done.insert p.1 p.2) ∅ = t := by
  rw [← Std.ExtTreeMap.ofList_eq_foldl]
  refine Std.ExtTreeMap.ext_getElem? fun bone => ?_
  cases hb : t[bone]? with
  | some keys =>
    exact Std.ExtTreeMap.getElem?_ofList_of_mem Std.ReflCmp.compare_self
      Std.ExtTreeMap.distinct_keys_toList (Std.ExtTreeMap.mem_toList_iff_getElem?_eq_some.mpr hb)
  | none =>
    refine Std.ExtTreeMap.getElem?_ofList_of_contains_eq_false ?_
    rw [Std.ExtTreeMap.map_fst_toList_eq_keys]
    have hno : bone ∉ t := by simp [Std.ExtTreeMap.mem_iff_isSome_getElem?,hb]
    simpa using hno

section Takes

variable [JsonNumber α] {room : Nat}

lemma Vec3.takes {v : Vec3 α} (h : ∀ x ∈ v.toList, ReadsBack x)
    (hroom : (Encode.vec3 v).depth < room) : Takes Decode.vec3 room (Encode.vec3 v) v := by
  obtain ⟨n,rfl,_⟩ := Value.exists_room_array hroom
  exact .tuple (fun x hx => .number (h x hx)) rfl

lemma UvRect.takes {r : UvRect α} (h : ∀ x ∈ r.toList, ReadsBack x)
    (hroom : (Value.array (r.toList.map toValue)).depth < room) :
    Takes Decode.uvRect room (.array (r.toList.map toValue)) r := by
  obtain ⟨n,rfl,_⟩ := Value.exists_room_array hroom
  exact .tuple (fun x hx => .number (h x hx)) rfl

lemma TextureSource.takes {t : TextureSource} (hroom : (Encode.texture t).depth < room) :
    Takes Decode.texture room (Encode.texture t) t := by
  obtain ⟨n,rfl,_⟩ := Value.exists_room_object hroom
  exact .record (.cons .id t.id rfl rfl (.text _) (.cons .source t.source rfl rfl (.text _) .nil))
    rfl

lemma Face.takes {f : Face α} (h : ∀ x ∈ f.uv.toList, ReadsBack x)
    (hroom : (Encode.face f).depth < room) : Takes Decode.face room (Encode.face f) f := by
  obtain ⟨n,rfl,hfit⟩ := Value.exists_room_object hroom
  simp only [List.forall_mem_cons] at hfit
  have huv := UvRect.takes h hfit.2.1
  obtain ⟨_ | id,uv⟩ := f
  · exact .record (.cons .texture none rfl rfl .null (.cons .uv uv rfl rfl huv .nil)) rfl
  · have hid : Takes (.nullable .text) (n + 1) (.string id) (some id) :=
      (Takes.text id).nullable nofun
    exact .record (.cons .texture (some id) rfl rfl hid (.cons .uv uv rfl rfl huv .nil)) rfl

lemma Faces.takes {fs : Faces α} (h : ∀ x ∈ fs.toList.flatMap fun p => p.2.uv.toList, ReadsBack x)
    (hroom : (Encode.faces fs).depth < room) : Takes Decode.faces room (Encode.faces fs) fs := by
  obtain ⟨n,rfl,hfit⟩ := Value.exists_room_object hroom
  have htakes : Takes Decode.faces (n + 2) (Encode.faces fs) (fs.toList.foldl
      (fun (done : Faces α) p => done.set p.1 p.2) {}) := by
    refine .entries (fun p : Side × Face α => p.1.name) (fun p => Encode.face p.2) id ?_ _
    intro p hp
    have hface := Face.takes (fun x hx => h x (List.mem_flatMap_of_mem hp hx))
      (hfit _ (List.mem_map_of_mem hp))
    unfold Decode.side
    rw [Side.ofName?_name]
    exact hface.map fun f => (p.1,f)
  rwa [Faces.foldl_toList] at htakes

lemma Encode.forest_eq_map (l : List (Node α)) : Encode.forest l = l.map Encode.node := by
  induction l with
  | nil => rfl
  | cons n l ih => rw [Encode.forest,ih,List.map_cons]

variable {countsFirst : Bool}

lemma Keyframe.takes {k : Keyframe α} (h : ∀ x ∈ k.numbers, ReadsBack x)
    (hroom : (Encode.keyframe k).depth < room) :
    Takes (Decode.keyframe countsFirst) room (Encode.keyframe k) k := by
  obtain ⟨n,rfl,hfit⟩ := Value.exists_room_object hroom
  simp only [List.forall_mem_cons] at hfit
  obtain ⟨_,_,_,hpoints,_⟩ := hfit
  obtain ⟨m,hm,hfit⟩ := Value.exists_room_array hpoints
  obtain rfl : n = m + 1 := Nat.succ.inj hm
  simp only [Keyframe.numbers,List.forall_mem_cons,List.forall_mem_flatMap] at h
  have hlist : Takes (.list Decode.vec3) (m + 2) (.array (k.points.map Encode.vec3)) k.points :=
    .list fun v hv => Vec3.takes (h.2 v hv) (hfit _ (List.mem_map_of_mem hv))
  have hchannel : Takes (Decode.channel countsFirst) (m + 2) (.string k.channel.name) k.channel :=
    .kind (congrArg some (Channel.ofName_name _))
  have hinterpolation : Takes (Decode.interpolation countsFirst) (m + 2)
      (.string k.interpolation.name) k.interpolation :=
    .kind (Interpolation.ofName?_name _)
  exact .record (.cons .channel k.channel rfl rfl hchannel
    (.cons .time k.time rfl rfl (.number h.1)
      (.cons .interpolation k.interpolation rfl rfl hinterpolation
        (.cons .points k.points rfl rfl hlist .nil)))) rfl

lemma Tracks.takes {t : Tracks α}
    (h : ∀ p ∈ t.toList, ∀ k ∈ p.2, ∀ x ∈ k.numbers, ReadsBack x)
    (hroom : (Value.object (t.toList.map fun (bone,keys) =>
      (bone,.array (keys.map Encode.keyframe)))).depth < room) :
    Takes (Decode.tracks countsFirst) room (.object (t.toList.map fun (bone,keys) =>
      (bone,.array (keys.map Encode.keyframe)))) t := by
  obtain ⟨n,rfl,hfit⟩ := Value.exists_room_object hroom
  have htakes : Takes (Decode.tracks countsFirst) (n + 2) (.object (t.toList.map fun (bone,keys) =>
      (bone,.array (keys.map Encode.keyframe)))) (t.toList.foldl
        (fun (done : Tracks α) p => done.insert p.1 p.2) ∅) := by
    refine .entries Prod.fst
      (fun p : String × List (Keyframe α) => .array (p.2.map Encode.keyframe)) Prod.snd ?_ _
    intro p hp
    obtain ⟨m,hm,hkeys⟩ := Value.exists_room_array (hfit _ (List.mem_map_of_mem hp))
    obtain rfl : n = m + 1 := Nat.succ.inj hm
    exact .list fun k hk => Keyframe.takes (h p hp k hk) (hkeys _ (List.mem_map_of_mem hk))
  rwa [Tracks.foldl_toList] at htakes

lemma Animation.takes {a : Animation α} (h : ∀ x ∈ a.numbers, ReadsBack x)
    (hroom : (Encode.animation a).depth < room) :
    Takes (Decode.animation countsFirst) room (Encode.animation a) a := by
  obtain ⟨n,rfl,hfit⟩ := Value.exists_room_object hroom
  simp only [List.forall_mem_cons] at hfit
  simp only [Animation.numbers,List.forall_mem_cons,List.forall_mem_flatMap] at h
  exact .record (.cons .name a.name rfl rfl (.text _)
    (.cons .length a.length rfl rfl (.number h.1) (.cons .loop a.loop rfl rfl (.text _)
      (.cons .tracks a.tracks rfl rfl (Tracks.takes h.2 hfit.2.2.2.1) .nil)))) rfl

variable [Scalar α]

lemma Part.takes {p : Part α} (h : ∀ x ∈ p.numbers, ReadsBack x)
    (hroom : (Encode.part p).depth < room) : Takes Decode.part room (Encode.part p) p := by
  obtain ⟨n,rfl,hfit⟩ := Value.exists_room_object hroom
  simp only [List.forall_mem_append,List.forall_mem_cons] at hfit
  simp only [Part.numbers,List.forall_mem_append] at h
  obtain ⟨⟨_,hlow,hhigh,horigin,hrotation,hfaces,_⟩,_⟩ := hfit
  replace hlow := Vec3.takes h.1.1.1.1 hlow
  replace hhigh := Vec3.takes h.1.1.1.2 hhigh
  replace horigin := Vec3.takes h.1.1.2 horigin
  replace hrotation := Vec3.takes h.1.2 hrotation
  replace hfaces := Faces.takes h.2 hfaces
  obtain ⟨name,low,high,origin,rotation,faces,_ | id⟩ := p
  · exact .record (.cons .name name rfl rfl (.text _) (.cons .low low rfl rfl hlow
      (.cons .high high rfl rfl hhigh (.cons .origin origin rfl rfl horigin
        (.cons .rotation rotation rfl rfl hrotation (.cons .faces faces rfl rfl hfaces
          .nil)))))) rfl
  · have hid : Takes (.nullable .word) (n + 1) (.ofNat id.toNat) (some id) :=
      (Takes.word id).nullable (Draft.ofNumber_ne_null _)
    exact .record (.cons .name name rfl rfl (.text _) (.cons .low low rfl rfl hlow
      (.cons .high high rfl rfl hhigh (.cons .origin origin rfl rfl horigin
        (.cons .rotation rotation rfl rfl hrotation (.cons .faces faces rfl rfl hfaces
          (.cons .customId (some id) rfl rfl hid .nil))))))) rfl

lemma Node.takes_part {p : Part α} (h : ∀ x ∈ p.numbers, ReadsBack x)
    (hroom : (Encode.node (.part p)).depth < room) :
    Takes (Decode.node countsFirst) room (Encode.node (.part p)) (.part p) := by
  obtain ⟨child,hchild,_⟩ := Decode.node_eq (α := α) countsFirst room
  suffices Takes (Decode.nodeOver countsFirst child) room (Encode.node (.part p)) (.part p) by
    exact ⟨this.whole,hchild ▸ this.ok⟩
  rw [Encode.node] at hroom ⊢
  obtain ⟨n,rfl,hfit⟩ := Value.exists_room_object hroom
  exact .tagged rfl ((Part.takes h (hfit _ List.mem_cons_self)).map Node.part)

/-- A bone is taken if each of its children is, wherever there is room for it. -/
lemma Node.takes_bone {b : Bone α} {children : List (Node α)}
    (h : ∀ x ∈ b.origin.toList ++ b.rotation.toList, ReadsBack x)
    (hchild : ∀ c ∈ children, ∀ room, (Encode.node c).depth < room →
      Takes (Decode.node countsFirst) room (Encode.node c) c)
    (hroom : (Encode.node (.bone b children)).depth < room) :
    Takes (Decode.node countsFirst) room (Encode.node (.bone b children)) (.bone b children) := by
  obtain ⟨child,hnode,hdeeper⟩ := Decode.node_eq (α := α) countsFirst room
  suffices Takes (Decode.nodeOver countsFirst child) room (Encode.node (.bone b children))
      (.bone b children) by
    exact ⟨this.whole,hnode ▸ this.ok⟩
  rw [Encode.node] at hroom ⊢
  obtain ⟨m,rfl,hfit⟩ := Value.exists_room_object hroom
  obtain ⟨k,hk,hfields⟩ := Value.exists_room_object (hfit _ List.mem_cons_self)
  obtain rfl : m = k + 1 := Nat.succ.inj hk
  simp only [List.forall_mem_cons] at hfields
  obtain ⟨_,_,horigin,hrotation,hchildren,_⟩ := hfields
  obtain ⟨j,hj,hforest⟩ := Value.exists_room_array hchildren
  obtain rfl : k = j + 1 := Nat.succ.inj hj
  obtain rfl := hdeeper (j + 1) rfl
  rw [List.forall_mem_append] at h
  replace horigin := Vec3.takes h.1 horigin
  replace hrotation := Vec3.takes h.2 hrotation
  rw [Encode.forest_eq_map] at hforest ⊢
  have hlist : Takes (.list fun _ => Decode.node countsFirst (j + 1)) (j + 2)
      (.array (children.map Encode.node)) children := by
    refine .list fun c hc => ?_
    have h := hchild c hc _ (hforest _ (List.mem_map_of_mem hc))
    exact ⟨h.whole,h.ok⟩
  exact .tagged rfl (.record (.cons .uuid b.uuid rfl rfl (.text _)
    (.cons .name b.name rfl rfl (.text _) (.cons .origin b.origin rfl rfl horigin
      (.cons .rotation b.rotation rfl rfl hrotation (.cons .children children rfl rfl hlist
        .nil))))) rfl)

mutual

lemma Node.takes (n : Node α) (h : ∀ x ∈ n.numbers, ReadsBack x) (room : Nat)
    (hroom : (Encode.node n).depth < room) :
    Takes (Decode.node countsFirst) room (Encode.node n) n := by
  cases n with
  | part p => exact Node.takes_part (by simpa only [Node.numbers] using h) hroom
  | bone b children =>
    simp only [Node.numbers,List.forall_mem_append] at h
    exact Node.takes_bone (List.forall_mem_append.mpr h.1) (Node.takes_forest children h.2) hroom

lemma Node.takes_forest (l : List (Node α)) (h : ∀ x ∈ Node.numbersOf l, ReadsBack x) :
    ∀ n ∈ l, ∀ room, (Encode.node n).depth < room →
      Takes (Decode.node countsFirst) room (Encode.node n) n := by
  cases l with
  | nil => exact List.forall_mem_nil _
  | cons n l =>
    simp only [Node.numbersOf,List.forall_mem_append] at h
    exact List.forall_mem_cons.mpr ⟨Node.takes n h.1,Node.takes_forest l h.2⟩

end

/-- A rig is taken from what is written of it, if there is room. -/
theorem Rig.takes {r : Rig α} (h : ∀ x ∈ r.numbers, ReadsBack x) (hroom : r.toValue.depth < room) :
    Takes (Decode.rig countsFirst) room r.toValue r := by
  obtain ⟨n,rfl,hfit⟩ := Value.exists_room_object hroom
  simp only [List.forall_mem_cons] at hfit
  obtain ⟨_,htextures,hroots,hanimations,_⟩ := hfit
  simp only [Rig.numbers,List.forall_mem_append,List.forall_mem_flatMap] at h
  obtain ⟨m,hm,hsources⟩ := Value.exists_room_array htextures
  obtain rfl : n = m + 1 := Nat.succ.inj hm
  rw [Encode.forest_eq_map] at hroots
  have hroots := Value.depth_array_lt.mp hroots
  have hanimations := Value.depth_array_lt.mp hanimations
  replace htextures : Takes (.list Decode.texture) (m + 2)
      (.array (r.textures.map Encode.texture)) r.textures :=
    .list fun t ht => TextureSource.takes (hsources _ (List.mem_map_of_mem ht))
  have hforest : Takes (Decode.forest countsFirst) (m + 2)
      (.array (r.roots.map Encode.node)) r.roots :=
    .list fun n hn => Node.takes_forest r.roots h.1 n hn _ (hroots _ (List.mem_map_of_mem hn))
  rw [← Encode.forest_eq_map] at hforest
  have hlist : Takes (.list (Decode.animation countsFirst)) (m + 2)
      (.array (r.animations.map Encode.animation)) r.animations :=
    .list fun a ha => Animation.takes (h.2 a ha) (hanimations _ (List.mem_map_of_mem ha))
  exact .record (.cons .name r.name rfl rfl (.text _)
    (.cons .textures r.textures rfl rfl htextures (.cons .roots r.roots rfl rfl hforest
      (.cons .animations r.animations rfl rfl hlist .nil)))) rfl

end Takes

section Room

variable [JsonNumber α] {room : Nat} {countsFirst : Bool}

lemma depth_toValue {x : α} (h : ReadsBack x) : (toValue x).depth = 0 := by
  obtain ⟨text,_,hvalue,_⟩ := h.written
  rw [hvalue,Value.depth_number]

/-- Numbers in a list need room for one list. -/
lemma depth_numbers {l : List α} (h : ∀ x ∈ l, ReadsBack x) (n : Nat) :
    (Value.array (l.map toValue)).depth < n + 2 := by
  refine Value.depth_array_lt.mpr (List.forall_mem_map.mpr fun x hx => ?_)
  rw [depth_toValue (h x hx)]
  exact Nat.succ_pos _

lemma Face.fits {f : Face α} (h : ∀ x ∈ f.uv.toList, ReadsBack x)
    (hf : Yields Decode.face room f) : (Encode.face f).depth < room := by
  obtain ⟨n,rfl,_⟩ := Face.yields hf
  refine Value.depth_object_lt.mpr (List.forall_mem_cons.mpr ⟨?_,List.forall_mem_singleton.mpr ?_⟩)
  · cases f.texture <;> exact Nat.succ_pos _
  · exact depth_numbers h n

lemma Faces.fits {fs : Faces α} (h : ∀ x ∈ fs.toList.flatMap fun p => p.2.uv.toList, ReadsBack x)
    (hfs : Yields Decode.faces room fs) : (Encode.faces fs).depth < room := by
  obtain ⟨n,rfl,hall⟩ := Faces.yields hfs
  refine Value.depth_object_lt.mpr (List.forall_mem_map.mpr fun p hp => ?_)
  exact Face.fits (fun x hx => h x (List.mem_flatMap_of_mem hp hx)) (hall p hp)

lemma TextureSource.depth_lt (t : TextureSource) (n : Nat) : (Encode.texture t).depth < n + 2 := by
  refine Value.depth_object_lt.mpr ?_
  simp only [List.forall_mem_cons]
  exact ⟨Nat.succ_pos _,Nat.succ_pos _,List.forall_mem_nil _⟩

/-- Keyframes go through three lists and objects. -/
lemma Keyframe.depth_lt {k : Keyframe α} (h : ∀ x ∈ k.numbers, ReadsBack x) (n : Nat) :
    (Encode.keyframe k).depth < n + 4 := by
  simp only [Keyframe.numbers,List.forall_mem_cons,List.forall_mem_flatMap] at h
  refine Value.depth_object_lt.mpr ?_
  simp only [List.forall_mem_cons,depth_toValue h.1]
  refine ⟨Nat.succ_pos _,Nat.succ_pos _,Nat.succ_pos _,?_,List.forall_mem_nil _⟩
  exact Value.depth_array_lt.mpr (List.forall_mem_map.mpr fun v hv => depth_numbers (h.2 v hv) n)

/-- Animations go through six. -/
lemma Animation.depth_lt {a : Animation α} (h : ∀ x ∈ a.numbers, ReadsBack x) (n : Nat) :
    (Encode.animation a).depth < n + 7 := by
  simp only [Animation.numbers,List.forall_mem_cons,List.forall_mem_flatMap] at h
  refine Value.depth_object_lt.mpr ?_
  simp only [List.forall_mem_cons,depth_toValue h.1]
  refine ⟨Nat.succ_pos _,Nat.succ_pos _,Nat.succ_pos _,?_,List.forall_mem_nil _⟩
  refine Value.depth_object_lt.mpr (List.forall_mem_map.mpr fun t ht => ?_)
  exact Value.depth_array_lt.mpr (List.forall_mem_map.mpr fun k hk =>
    Keyframe.depth_lt (h.2 t ht k hk) n)

variable [Scalar α]

lemma Part.fits {p : Part α} (h : ∀ x ∈ p.numbers, ReadsBack x) (hp : Yields Decode.part room p) :
    (Encode.part p).depth < room := by
  obtain ⟨n,rfl,_,_,hfaces⟩ := Part.yields hp
  simp only [Part.numbers,List.forall_mem_append] at h
  refine Value.depth_object_lt.mpr (List.forall_mem_append.mpr ⟨?_,?_⟩)
  · simp only [List.forall_mem_cons]
    refine ⟨Nat.succ_pos _,depth_numbers h.1.1.1.1 n,depth_numbers h.1.1.1.2 n,
      depth_numbers h.1.1.2 n,depth_numbers h.1.2 n,?_,List.forall_mem_nil _⟩
    obtain hfaces | hfaces := hfaces
    · rw [hfaces]
      exact Value.depth_object_lt.mpr (List.forall_mem_nil _)
    · exact Faces.fits h.2 hfaces
  · cases p.customId with
    | none => exact List.forall_mem_nil _
    | some id =>
      refine List.forall_mem_singleton.mpr ?_
      rw [Value.ofNat,Value.depth_number]
      exact Nat.succ_pos _

/-- A node that was read is written no deeper than it was read, with all that was left out. -/
lemma Node.fits {n : Node α} (h : ∀ x ∈ n.numbers, ReadsBack x)
    (hn : Yields (Decode.node countsFirst) room n) : (Encode.node n).depth < room := by
  induction room using Nat.strong_induction_on generalizing n with
  | _ room ih =>
    obtain ⟨m,p,rfl,rfl,hp⟩ | ⟨m,b,children,rfl,rfl,_,_,hall⟩ := Node.yields hn
    · rw [Encode.node]
      refine Value.depth_object_lt.mpr (List.forall_mem_singleton.mpr ?_)
      exact Part.fits (by simpa only [Node.numbers] using h) hp
    · simp only [Node.numbers,List.forall_mem_append] at h
      have hchildren : (Value.array (Encode.forest children)).depth < m + 2 := by
        rw [Encode.forest_eq_map]
        refine Value.depth_array_lt.mpr (List.forall_mem_map.mpr fun c hc => ?_)
        exact ih (m + 1) (by omega) (fun x hx => h.2 x (Node.mem_numbersOf.mpr ⟨c,hc,hx⟩))
          (hall c hc)
      rw [Encode.node]
      refine Value.depth_object_lt.mpr (List.forall_mem_singleton.mpr ?_)
      refine Value.depth_object_lt.mpr ?_
      simp only [List.forall_mem_cons]
      exact ⟨Nat.succ_pos _,Nat.succ_pos _,depth_numbers h.1.1 m,depth_numbers h.1.2 m,hchildren,
        List.forall_mem_nil _⟩

/-- A rig that was read is written no deeper than it was read, or than eight lists and objects. -/
lemma Rig.fits {r : Rig α} (h : ∀ x ∈ r.numbers, ReadsBack x)
    (hr : Yields (Decode.rig countsFirst) room r) (hroom : 9 ≤ room) : r.toValue.depth < room := by
  obtain ⟨n,rfl,hroots,_⟩ := Rig.yields hr
  simp only [Rig.numbers,List.forall_mem_append,List.forall_mem_flatMap] at h
  refine Value.depth_object_lt.mpr ?_
  simp only [List.forall_mem_cons]
  refine ⟨Nat.succ_pos _,?_,?_,?_,List.forall_mem_nil _⟩
  · refine Value.depth_array_lt.mpr (List.forall_mem_map.mpr fun t _ => ?_)
    exact (TextureSource.depth_lt t 0).trans_le (by omega)
  · rw [Encode.forest_eq_map]
    refine Value.depth_array_lt.mpr (List.forall_mem_map.mpr fun c hc => ?_)
    exact Node.fits (fun x hx => h.1 x (Node.mem_numbersOf.mpr ⟨c,hc,hx⟩)) (hroots c hc)
  · refine Value.depth_array_lt.mpr (List.forall_mem_map.mpr fun a ha => ?_)
    exact (Animation.depth_lt (h.2 a ha) 0).trans_le (by omega)

end Room

section Text

variable [Scalar α] [JsonNumber α] {r : Rig α} {text : List Letter}

/-- What is written of a rig is read as the same rig, if a text has room for it. -/
theorem Rig.read_write (h : ∀ x ∈ r.numbers, ReadsBack x) (hroom : r.toValue.depth < textRoom) :
    Rig.read (Letters.ofString r.write) = .ok r := by
  have htakes : Takes (Decode.rig false) textRoom r.toValue r := Rig.takes h hroom
  unfold Rig.read Rig.write
  rw [Draft.ofLetters_compact htakes.whole]
  simp only [htakes.ok]
  rfl

lemma Rig.yields_of_read (h : Rig.read text = .ok r) : Yields (Decode.rig false) textRoom r := by
  obtain ⟨r',hrig,hends⟩ := Except.bind_ok h
  split at hends
  · cases hends
    exact ⟨_,hrig⟩
  · cases hends

end Text

/-- Zero is a double that a numeral denotes. -/
lemma denoted_zero : Denoted ((0 : Nat) : Float) :=
  ⟨⟨false,0,0,true⟩,by decide +kernel⟩

/-- The text of an entity, written anew. -/
def Entity.rewrite (text : List Letter) (base : DiskPath) : Except Error String :=
  (Entity.ofLetters text base).map fun e => e.rig.write

/-- An entity that was read from any text is written as a text from which it is read again; so
writing anew what was written anew changes nothing. Of doubles it is assumed that one which some
numeral denotes is printed as a numeral that denotes it. -/
theorem Entity.ofLetters_write {text : List Letter} {base : DiskPath} {e : Entity}
    (h : Entity.ofLetters text base = .ok e)
    (hprint : ∀ x ∈ e.rig.numbers, Denoted x → ReadsBack x) :
    Entity.ofLetters (Letters.ofBytes e.rig.write.toUTF8) base = .ok e ∧
    Entity.rewrite text base = .ok e.rig.write ∧
    Entity.rewrite (Letters.ofBytes e.rig.write.toUTF8) base = .ok e.rig.write := by
  have hread : Rig.read text = .ok e.rig ∧ e.base = base := by
    unfold Entity.ofLetters at h
    split at h
    · cases h
      exact ⟨‹_›,rfl⟩
    · cases h
  have hrig := Rig.yields_of_read hread.1
  have hback : ∀ x ∈ e.rig.numbers, ReadsBack x :=
    fun x hx => hprint x hx (Rig.denoted denoted_zero hrig x hx)
  have hagain : Entity.ofLetters (Letters.ofBytes e.rig.write.toUTF8) base = .ok e := by
    rw [Letters.ofBytes_toUTF8,Entity.ofLetters,
      Rig.read_write hback (Rig.fits hback hrig (by decide)),← hread.2]
  exact ⟨hagain,by rw [Entity.rewrite,h]; rfl,by rw [Entity.rewrite,hagain]; rfl⟩

section Kite

/-- A text with a bone inside a bone, an old name of a spline, a channel that no rig has, and
fields that are left out. -/
def kite : String :=
  "\x7b\"name\":\"kite\",\"outliner\":[\x7b\"bone\":\x7b\"uuid\":\"spar\",\"origin\":[0,8.5,0]," ++
  "\"children\":[\x7b\"bone\":[\"tail\",\"\\u0074ail\",[0,0,-2e1]]\x7d," ++
  "\x7b\"part\":\x7b\"name\":\"sail\",\"from\":[-4,0,0],\"to\":[4,16,0.5]," ++
  "\"origin\":[0,0,0],\"faces\":\x7b\"up\":\x7b\"uv\":[0,0,1,0.25]\x7d\x7d\x7d\x7d]\x7d\x7d]," ++
  "\"animations\":[\x7b\"name\":\"fly\",\"length\":1,\"animators\":\x7b\"spar\":[" ++
  "\x7b\"channel\":\"scale\",\"time\":0,\"interpolation\":\"smooth\"," ++
  "\"data_points\":[[0,45,0]]\x7d]\x7d\x7d]\x7d"

/-- What the text of the kite says in its own way is read, written in the usual way, and read again.
-/
theorem kite_rewritten : ∃ e, Entity.ofLetters (Letters.ofString kite) ⟨["."]⟩ = .ok e ∧
    (e.rig.animations.flatMap fun a => a.tracks.toList.flatMap fun t =>
      t.2.map fun k => (k.channel,k.interpolation)) = [(.unsupported,.catmullRom)] ∧
    Entity.ofLetters (Letters.ofBytes e.rig.write.toUTF8) ⟨["."]⟩ = .ok e := by
  have h : (match Entity.ofLetters (Letters.ofString kite) ⟨["."]⟩ with
      | .ok e => decide ((e.rig.animations.flatMap fun a => a.tracks.toList.flatMap fun t =>
          t.2.map fun k => (k.channel,k.interpolation)) = [(.unsupported,.catmullRom)] ∧
        ∀ x ∈ e.rig.numbers, ReadsBack x)
      | .error _ => false) = true := by decide +kernel
  generalize hk : Entity.ofLetters (Letters.ofString kite) ⟨["."]⟩ = result at h
  cases result with
  | error e => simp at h
  | ok e =>
    obtain ⟨hkeys,hnumbers⟩ := of_decide_eq_true h
    exact ⟨e,rfl,hkeys,(Entity.ofLetters_write hk fun x hx _ => hnumbers x hx).1⟩

end Kite

end RigPack
