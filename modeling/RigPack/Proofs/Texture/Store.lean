import Mathlib.Tactic
import RigPack.Proofs.Except
import RigPack.Texture.Store

/-!
Stores of textures hang together: every texture stands under its own id, and every id is exported as
a texture that is there. So an id that was defined always resolves, and what it resolves to is told
by its id.
-/

namespace RigPack
namespace TextureStore

variable {s : TextureStore} {t u : Texture} {id first : String} {sources : List TextureSource}
  {encode : Image → ByteArray}

lemma get?_add (s : TextureStore) (t : Texture) (id : String) :
    (s.add encode t).get? id = if id = t.id then some t else s.get? id := by
  unfold add get?
  split <;> simp only [Std.ExtTreeMap.getElem?_insert,Std.compare_eq_iff_eq,eq_comm (a := id)]

/-- A new id is exported as one that is there already, or as itself. -/
lemma exported_add (s : TextureStore) (t : Texture) (id : String) :
    (s.add encode t).exported[id]? =
      if id = t.id then some ((s.sameAs? encode t).getD t.id) else s.exported[id]? := by
  unfold add
  split <;> rename_i h <;>
    simp only [h,Std.ExtTreeMap.getElem?_insert,Std.compare_eq_iff_eq,eq_comm (a := id)] <;> rfl

lemma exists_of_sameAs? (h : s.sameAs? encode t = some first) : ∃ other, s.get? first = some other := by
  obtain ⟨⟨hash,id⟩,hfind,rfl⟩ := Option.map_eq_some_iff.mp h
  have hany := List.find?_some hfind
  simp only [fits,Bool.and_eq_true,Option.any_eq_true] at hany
  exact hany.2.imp fun _ h => h.1

/-- What holds of every store that is made from definitions. -/
structure Sound (s : TextureStore) : Prop where
  named : ∀ id t, s.get? id = some t → t.id = id
  bound : ∀ id first : String, s.exported[id]? = some first → ∃ t, s.get? first = some t

lemma Sound.empty : Sound {} :=
  ⟨fun _ _ h => absurd (Std.ExtTreeMap.getElem?_empty.symm.trans h) nofun,
    fun _ _ h => absurd (Std.ExtTreeMap.getElem?_empty.symm.trans h) nofun⟩

lemma Sound.add (h : s.Sound) (t : Texture) : (s.add encode t).Sound := by
  constructor
  · intro id u hu
    rw [get?_add] at hu
    split at hu
    · rename_i hid
      cases hu
      exact hid.symm
    · exact h.named id u hu
  · intro id first hfirst
    -- What is there stays there, and the new texture is there as well.
    have hstays : ∀ k, (∃ u, s.get? k = some u) ∨ k = t.id →
        ∃ u, (s.add encode t).get? k = some u := by
      intro k hk
      rw [get?_add]
      split
      · exact ⟨t,rfl⟩
      · rename_i hne
        exact hk.resolve_right hne
    rw [exported_add] at hfirst
    split at hfirst
    · cases hsame : s.sameAs? encode t with
      | some other =>
        rw [hsame] at hfirst
        cases hfirst
        exact hstays _ (.inl (exists_of_sameAs? hsame))
      | none =>
        rw [hsame] at hfirst
        cases hfirst
        exact hstays _ (.inr rfl)
    · exact hstays _ (.inl (h.bound id first hfirst))

lemma exists_exported_add (s : TextureStore) (t : Texture)
    (h : id = t.id ∨ ∃ first, s.exported[id]? = some first) :
    ∃ first, (s.add encode t).exported[id]? = some first := by
  rw [exported_add]
  split
  · exact ⟨_,rfl⟩
  · rename_i hne
    exact h.resolve_left hne

section Load

variable {hash : Image → UInt64} {image : TextureSource → Except Error Image}

/-- Adding definitions keeps a store sound, and all ids that were defined are exported. -/
lemma foldlM_sound {s' : TextureStore} (hs : s.Sound)
    (h : sources.foldlM (fun s t => do
      let image ← image t
      return s.add encode ⟨t.id,image,hash image⟩) s = .ok s') : s'.Sound ∧
        ∀ id, (id ∈ sources.map TextureSource.id ∨ ∃ first, s.exported[id]? = some first) →
          ∃ first, s'.exported[id]? = some first := by
  induction sources generalizing s with
  | nil =>
    cases h
    exact ⟨hs,by simp⟩
  | cons source sources ih =>
    rw [List.foldlM_cons] at h
    obtain ⟨u,hu,h⟩ := Except.bind_ok h
    obtain ⟨img,_,hu⟩ := Except.bind_ok hu
    cases hu
    obtain ⟨hsound,hbound⟩ := ih (hs.add _) h
    refine ⟨hsound,fun id hid => hbound id ?_⟩
    rw [List.map_cons,List.mem_cons,or_assoc,or_left_comm] at hid
    exact hid.imp_right (exists_exported_add s _)

/-- Only definitions bring ids into a store. -/
lemma foldlM_get? {s' : TextureStore} (h : sources.foldlM (fun s t => do
      let image ← image t
      return s.add encode ⟨t.id,image,hash image⟩) s = .ok s') (hget : s'.get? id = some t) :
    id ∈ sources.map TextureSource.id ∨ s.get? id = some t := by
  induction sources generalizing s with
  | nil =>
    cases h
    exact .inr hget
  | cons source sources ih =>
    rw [List.foldlM_cons] at h
    obtain ⟨u,hu,h⟩ := Except.bind_ok h
    obtain ⟨img,_,hu⟩ := Except.bind_ok hu
    cases hu
    rw [List.map_cons,List.mem_cons]
    rcases ih h with hid | hid
    · exact .inl (.inr hid)
    · rw [get?_add] at hid
      split_ifs at hid with hid'
      · exact .inl (.inl hid')
      · exact .inr hid

end Load

variable {disk : FileTree} {base : DiskPath}

lemma load_sound (h : load disk base sources = .ok s) : s.Sound :=
  (foldlM_sound .empty h).1

/-- What an id resolves to stands in the store under its own id. -/
lemma Sound.get?_of_resolve? (hs : s.Sound) (h : s.resolve? id = some t) :
    s.get? t.id = some t := by
  obtain ⟨first,_,hget⟩ := Option.bind_eq_some_iff.mp h
  rwa [hs.named first t hget]

/-- What an id resolves to has an id that was defined. -/
lemma mem_of_resolve? (h : load disk base sources = .ok s) (ht : s.resolve? id = some t) :
    t.id ∈ sources.map TextureSource.id := by
  rcases foldlM_get? h ((load_sound h).get?_of_resolve? ht) with hid | hid
  · exact hid
  · exact absurd (Std.ExtTreeMap.getElem?_empty.symm.trans hid) nofun

/-- Textures that ids resolve to are told apart by their ids. -/
lemma Sound.resolve?_inj (hs : s.Sound) {id' : String} (ht : s.resolve? id = some t)
    (hu : s.resolve? id' = some u) (hid : t.id = u.id) : t = u := by
  have ht := hs.get?_of_resolve? ht
  rw [hid,hs.get?_of_resolve? hu] at ht
  exact (Option.some.inj ht).symm

/-- Every id that was defined resolves. -/
lemma exists_resolve? (h : load disk base sources = .ok s)
    (hid : id ∈ sources.map TextureSource.id) : ∃ t, s.resolve? id = some t := by
  obtain ⟨hs,hexported⟩ := foldlM_sound .empty h
  obtain ⟨first,hfirst⟩ := hexported id (.inl hid)
  obtain ⟨t,ht⟩ := hs.bound id first hfirst
  exact ⟨t,by rw [resolve?,hfirst,Option.bind_some,ht]⟩

end TextureStore
end RigPack
