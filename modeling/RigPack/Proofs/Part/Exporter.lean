import Mathlib.Tactic
import RigPack.Part.Exporter
import RigPack.Proofs.Texture.Store

/-!
Which textures a part's model needs. A face asks for a texture by an id, and the model, its table of
textures and the files beside it all go by what the id resolves to.
-/

namespace RigPack
namespace Exporter

variable {x : Exporter} {store : TextureStore} {l : Leaf Float} {m : Model} {t : Texture}

/-- One of the faces asks for an id that resolves to the texture. -/
def Shows (store : TextureStore) (faces : Faces Float) (t : Texture) : Prop :=
  ∃ side f id, (side,f) ∈ faces.toList ∧ f.texture = some id ∧ store.resolve? id = some t

/-- All ids that the faces ask for resolve. -/
def Bound (store : TextureStore) (faces : Faces Float) : Prop :=
  ∀ side f id, (side,f) ∈ faces.toList → f.texture = some id → ∃ t, store.resolve? id = some t

/-- Leaving out repeated ids leaves nothing out but repetitions. -/
lemma foldl_distinct (ts done : List Texture) :
    let kept := ts.foldl
      (fun done t => if done.any fun other => other.id = t.id then done else done ++ [t]) done
    (∀ t ∈ kept, t ∈ done ∨ t ∈ ts) ∧ ∀ t, t ∈ done ∨ t ∈ ts → ∃ u ∈ kept, u.id = t.id := by
  induction ts generalizing done with
  | nil => simpa using fun t ht => ⟨t,ht,rfl⟩
  | cons t ts ih =>
    rw [List.foldl_cons]
    split
    · rename_i hmet
      obtain ⟨u,hu,hid⟩ : ∃ u ∈ done, u.id = t.id := by simpa using hmet
      obtain ⟨honly,hall⟩ := ih done
      refine ⟨fun s hs => (honly s hs).imp_right (List.mem_cons_of_mem _),fun s hs => ?_⟩
      rcases hs with hs | hs
      · exact hall s (.inl hs)
      · rcases List.mem_cons.mp hs with rfl | hs
        · obtain ⟨w,hw,hwid⟩ := hall u (.inl hu)
          exact ⟨w,hw,hwid.trans hid⟩
        · exact hall s (.inr hs)
    · obtain ⟨honly,hall⟩ := ih (done ++ [t])
      simp only [List.mem_append,List.mem_singleton,or_assoc] at honly hall
      simpa only [List.mem_cons] using ⟨honly,hall⟩

/-- The textures that are exported beside a model are those that its faces show. -/
lemma mem_referenced (hs : store.Sound) : t ∈ referenced l store ↔ Shows store l.faces t := by
  have hasked : ∀ u, u ∈ (l.faces.toList.filterMap fun p => p.2.texture.bind store.resolve?) ↔
      Shows store l.faces u := by
    intro u
    rw [List.mem_filterMap]
    constructor
    · rintro ⟨⟨side,f⟩,hf,hb⟩
      obtain ⟨id,hid,hu⟩ := Option.bind_eq_some_iff.mp hb
      exact ⟨side,f,id,hf,hid,hu⟩
    · rintro ⟨side,f,id,hf,hid,hu⟩
      exact ⟨(side,f),hf,Option.bind_eq_some_iff.mpr ⟨id,hid,hu⟩⟩
  obtain ⟨honly,hall⟩ :=
    foldl_distinct (l.faces.toList.filterMap fun p => p.2.texture.bind store.resolve?) []
  constructor
  · intro ht
    exact (hasked t).mp ((honly t ht).resolve_left List.not_mem_nil)
  · intro ht
    obtain ⟨u,hu,hid⟩ := hall t (.inr ((hasked t).mpr ht))
    -- An id has one texture.
    obtain ⟨_,_,_,_,_,htr⟩ := ht
    obtain ⟨_,_,_,_,_,hur⟩ := (hasked u).mp ((honly u hu).resolve_left List.not_mem_nil)
    exact hs.resolve?_inj hur htr hid ▸ hu

/-- What a leaf's model says about textures: each textured face goes by the id of the texture that
it shows, and the table leads from these ids to the files of the textures. -/
structure Textured (x : Exporter) (store : TextureStore) (l : Leaf Float) (m : Model) : Prop where
  faces : List.Forall₂ (fun p q => q.1 = p.1 ∧ ∃ id t, p.2.texture = some id ∧
    store.resolve? id = some t ∧ q.2.texture = t.id)
      (l.faces.toList.filter fun p => p.2.texture.isSome) m.faces
  textures : ∀ k v, m.textures[k]? = some v ↔
    ∃ t, Shows store l.faces t ∧ k = t.id ∧ v = (x.texturePath t.id).text

lemma getElem?_foldl_insert (path : String → String) (faces : List (Side × Texture × Face Float))
    (known : Std.ExtTreeMap String String) (k : String) :
    (faces.foldl (fun m (_,t,_) => m.insert t.id (path t.id)) known)[k]? =
      if k ∈ faces.map fun p => p.2.1.id then some (path k) else known[k]? := by
  induction faces generalizing known with
  | nil => simp
  | cons p faces ih =>
    obtain ⟨side,t,f⟩ := p
    rw [List.foldl_cons,ih,Std.ExtTreeMap.getElem?_insert]
    simp only [Std.compare_eq_iff_eq,List.map_cons,List.mem_cons,eq_comm (a := k)]
    split <;> rename_i hk
    · simp [hk]
    · by_cases ht : t.id = k <;> simp [hk,ht]

/-- The faces of a model, one for each that has a texture. -/
lemma texturedFaces_ok {faces : List (Side × Texture × Face Float)}
    (h : x.texturedFaces l store = .ok faces) : List.Forall₂ (fun p q => q.1 = p.1 ∧ q.2.2 = p.2 ∧
      ∃ id, p.2.texture = some id ∧ store.resolve? id = some q.2.1)
        (l.faces.toList.filter fun p => p.2.texture.isSome) faces := by
  replace h := Except.mapM_ok_iff.mp h
  generalize l.faces.toList = all at h ⊢
  induction all generalizing faces with
  | nil => simpa using h
  | cons p all ih =>
    obtain ⟨side,f⟩ := p
    cases hid : f.texture with
    | none =>
      rw [List.filter_cons_of_neg (by simp [hid])]
      rw [List.filterMap_cons_none (by simp [hid])] at h
      exact ih h
    | some id =>
      rw [List.filter_cons_of_pos (by simp [hid])]
      rw [List.filterMap_cons_some (by simp only [hid]; rfl)] at h
      obtain ⟨q,rest,hq,hrest,rfl⟩ := List.forall₂_cons_left_iff.mp h
      refine .cons ?_ (ih hrest)
      simp only at hq
      split at hq
      · rename_i t ht
        cases hq
        exact ⟨rfl,rfl,id,hid,ht⟩
      · cases hq

lemma model_ok (h : x.model l store = .ok m) : x.Textured store l m := by
  obtain ⟨faces,hfaces,h⟩ := Except.bind_ok h
  cases h
  have hr := texturedFaces_ok hfaces
  refine ⟨List.forall₂_map_right_iff.mpr (hr.imp fun p q hq => ?_),fun k v => ?_⟩
  · obtain ⟨hside,_,id,hid,ht⟩ := hq
    exact ⟨hside,id,q.2.1,hid,ht,rfl⟩
  · rw [getElem?_foldl_insert fun id => (x.texturePath id).text,Std.ExtTreeMap.getElem?_empty]
    constructor
    · intro hv
      split at hv
      · rename_i hk
        obtain ⟨q,hq,rfl⟩ := List.mem_map.mp hk
        obtain ⟨p,hp,_,_,id,hid,ht⟩ := exists_partner_left hr q hq
        exact ⟨q.2.1,⟨p.1,p.2,id,(List.mem_filter.mp hp).1,hid,ht⟩,rfl,(Option.some.inj hv).symm⟩
      · cases hv
    · rintro ⟨t,⟨side,f,id,hf,hid,ht⟩,rfl,rfl⟩
      obtain ⟨q,hq,_,_,id',hid',hq'⟩ :=
        exists_partner hr (side,f) (List.mem_filter.mpr ⟨hf,by simp [hid]⟩)
      obtain rfl := Option.some.inj (hid.symm.trans hid')
      obtain rfl := Option.some.inj (ht.symm.trans hq')
      rw [if_pos (List.mem_map_of_mem hq)]

/-- A leaf whose ids all resolve has a model. -/
lemma exists_model (h : Bound store l.faces) : ∃ m, x.model l store = .ok m := by
  have hfaces : ∃ faces, x.texturedFaces l store = .ok faces := by
    refine Except.exists_mapM_ok fun a ha => ?_
    obtain ⟨⟨side,f⟩,hf,ha⟩ := List.mem_filterMap.mp ha
    obtain ⟨id,hid,rfl⟩ := Option.map_eq_some_iff.mp ha
    obtain ⟨t,ht⟩ := h side f id hf hid
    exact ⟨(side,t,f),by simp only [ht]⟩
  obtain ⟨faces,hfaces⟩ := hfaces
  rw [model,hfaces]
  exact ⟨_,rfl⟩

end Exporter
end RigPack
