import Mathlib.Tactic
import RigPack.Proofs.Texture.Store

/-!
What ids of a store resolve to: the first definition of the same image. The search for it goes by a
hash, which may be anything, and by the encoded bytes, which have to tell the images of the store
apart. Of every image only its first definition is ever found, since only those are searched.
-/

namespace RigPack

/-- What becomes of a definition whose image is known. -/
def TextureSource.prepared (hash : Image → UInt64) (image : TextureSource → Image)
    (t : TextureSource) : Texture :=
  ⟨t.id,image t,hash (image t)⟩

/-- The first of some definitions that has the image of `t`. -/
def TextureSource.earliest (image : TextureSource → Image) (sources : List TextureSource)
    (t : TextureSource) : Option TextureSource :=
  sources.find? fun u => image u = image t

/-- The definitions that are the first ones of their images. -/
def TextureSource.originals (image : TextureSource → Image) (sources : List TextureSource) :
    List TextureSource :=
  sources.filter fun t => earliest image sources t = some t

namespace TextureStore

open TextureSource

variable {encode : Image → ByteArray} {hash : Image → UInt64} {image : TextureSource → Image}
  {s : TextureStore} {sources earlier : List TextureSource} {t u first : TextureSource}

section Earliest

lemma earliest_congr (h : image t = image u) :
    earliest image sources t = earliest image sources u := by
  simp only [earliest,h]

lemma earliest_spec (h : earliest image sources t = some first) :
    first ∈ sources ∧ image first = image t := by
  refine ⟨List.mem_of_find?_eq_some h,?_⟩
  simpa using List.find?_some h

/-- The first definition of an image is its own first definition. -/
lemma earliest_first (h : earliest image sources t = some first) :
    earliest image sources first = some first :=
  (earliest_congr (earliest_spec h).2).trans h

lemma exists_earliest (image : TextureSource → Image) (h : t ∈ sources) :
    ∃ first, earliest image sources t = some first := by
  apply Option.isSome_iff_exists.mp
  rw [earliest,List.find?_isSome]
  exact ⟨t,h,by simp⟩

/-- A later definition is the first one only of an image that was not defined. -/
lemma earliest_append (sources : List TextureSource) (t u : TextureSource) :
    earliest image (sources ++ [u]) t =
      (earliest image sources t).or (if image u = image t then some u else none) := by
  rw [earliest,List.find?_append]
  by_cases h : image u = image t <;> simp [earliest,h]

lemma earliest_append_of_mem (h : t ∈ sources) (u : TextureSource) :
    earliest image (sources ++ [u]) t = earliest image sources t := by
  obtain ⟨first,hfirst⟩ := exists_earliest image h
  rw [earliest_append,hfirst]
  rfl

lemma mem_originals :
    t ∈ originals image sources ↔ t ∈ sources ∧ earliest image sources t = some t := by
  simp [originals]

/-- No two first definitions have the same image. -/
lemma nodup_images_originals (image : TextureSource → Image) (h : sources.Nodup) :
    ((originals image sources).map image).Nodup := by
  refine List.Nodup.map_on ?_ (h.filter _)
  intro t ht u hu he
  have hboth := (earliest_congr he).symm.trans (mem_originals.mp ht).2
  exact Option.some.inj (hboth.symm.trans (mem_originals.mp hu).2)

/-- Every image has a first definition. -/
lemma mem_images_originals {i : Image} :
    i ∈ (originals image sources).map image ↔ i ∈ sources.map image := by
  simp only [List.mem_map]
  constructor
  · rintro ⟨t,ht,rfl⟩
    exact ⟨t,(mem_originals.mp ht).1,rfl⟩
  · rintro ⟨t,ht,rfl⟩
    obtain ⟨first,hfirst⟩ := exists_earliest image ht
    obtain ⟨hmem,hsame⟩ := earliest_spec hfirst
    exact ⟨first,mem_originals.mpr ⟨hmem,earliest_first hfirst⟩,hsame⟩

lemma length_originals (image : TextureSource → Image) (h : sources.Nodup) :
    (originals image sources).length = (sources.map image).toFinset.card := by
  have hall : ((originals image sources).map image).toFinset = (sources.map image).toFinset :=
    Finset.ext fun i => by rw [List.mem_toFinset,List.mem_toFinset,mem_images_originals]
  rw [← hall,List.toFinset_card_of_nodup (nodup_images_originals image h),List.length_map]

end Earliest

/-- A store in which the textures `sources` are defined, in this order. -/
structure Holds (hash : Image → UInt64) (image : TextureSource → Image)
    (sources : List TextureSource) (s : TextureStore) : Prop where
  defined : ∀ t ∈ sources, s.get? t.id = some (t.prepared hash image)
  undefined : ∀ id ∉ sources.map TextureSource.id, s.get? id = none ∧ s.exported[id]? = none
  exported : ∀ t ∈ sources, s.exported[t.id]? =
    (earliest image sources t).map TextureSource.id
  firsts : ∀ entry, entry ∈ s.firsts ↔ ∃ t ∈ sources, earliest image sources t = some t ∧
    entry = (hash (image t),t.id)

lemma Holds.empty : Holds hash image [] {} := by
  refine ⟨by simp,fun id _ => ⟨?_,?_⟩,by simp,by simp⟩
  · exact Std.ExtTreeMap.getElem?_empty
  · exact Std.ExtTreeMap.getElem?_empty

/-- A search finds the first definition of an image, whatever else has the same hash. -/
lemma Holds.sameAs?_eq (h : s.Holds hash image sources)
    (hencode : ∀ u ∈ sources, encode (image u) = encode (image t) → image u = image t) :
    s.sameAs? encode (t.prepared hash image) =
      (earliest image sources t).map TextureSource.id := by
  -- Only first definitions are searched, so an entry that fits is the first of the image.
  have hfits : ∀ u ∈ sources, s.fits encode (t.prepared hash image) (hash (image u),u.id) ↔
      image u = image t := by
    intro u hu
    simp only [fits,h.defined u hu,prepared,Option.any_some,Bool.and_eq_true,decide_eq_true_eq,
      ← ByteArray.ext_iff]
    constructor
    · rintro ⟨_,he⟩
      exact hencode u hu he
    · intro he
      rw [he]
      exact ⟨decide_eq_true rfl,rfl⟩
  unfold sameAs?
  cases he : earliest image sources t with
  | none =>
    simp only [Option.map_none,Option.map_eq_none_iff,List.find?_eq_none]
    intro entry hentry hfound
    obtain ⟨u,hu,_,rfl⟩ := (h.firsts entry).mp hentry
    simpa [(hfits u hu).mp hfound] using List.find?_eq_none.mp he u hu
  | some first =>
    obtain ⟨hmem,hfirst⟩ := earliest_spec he
    have hentry : (hash (image first),first.id) ∈ s.firsts :=
      (h.firsts _).mpr ⟨first,hmem,earliest_first he,rfl⟩
    obtain ⟨entry,hfound⟩ := Option.isSome_iff_exists.mp
      (List.find?_isSome.mpr ⟨_,hentry,(hfits first hmem).mpr hfirst⟩)
    obtain ⟨u,hu,hself,rfl⟩ := (h.firsts entry).mp (List.mem_of_find?_eq_some hfound)
    have hsame := (hfits u hu).mp (List.find?_some hfound)
    obtain rfl : u = first := by
      rw [← earliest_congr hsame,hself] at he
      exact Option.some.inj he
    rw [hfound]
    rfl

lemma firsts_add (s : TextureStore) (t : Texture) : (s.add encode t).firsts =
    s.firsts ++ if s.sameAs? encode t = none then [(t.hash,t.id)] else [] := by
  unfold add
  split <;> rename_i h <;> simp [h]

/-- One more definition. -/
lemma Holds.add (h : s.Holds hash image sources) (hnew : t.id ∉ sources.map TextureSource.id)
    (hencode : ∀ u ∈ sources, encode (image u) = encode (image t) → image u = image t) :
    (s.add encode (t.prepared hash image)).Holds hash image (sources ++ [t]) := by
  have hsame := h.sameAs?_eq hencode
  have hne : ∀ u ∈ sources, u.id ≠ t.id := by
    intro u hu he
    exact hnew (he ▸ List.mem_map_of_mem hu)
  have hlast : earliest image (sources ++ [t]) t = (earliest image sources t).or (some t) := by
    rw [earliest_append,if_pos rfl]
  constructor
  · intro u hu
    rw [get?_add]
    rcases List.mem_append.mp hu with hu | hu
    · exact (if_neg (hne u hu)).trans (h.defined u hu)
    · obtain rfl := List.mem_singleton.mp hu
      exact if_pos rfl
  · intro id hid
    rw [List.map_append,List.mem_append,not_or] at hid
    have hother : id ≠ (t.prepared hash image).id := by simpa [prepared] using hid.2
    rw [get?_add,exported_add,if_neg hother,if_neg hother]
    exact h.undefined id hid.1
  · intro u hu
    rw [exported_add]
    rcases List.mem_append.mp hu with hu | hu
    · rw [earliest_append_of_mem hu]
      exact (if_neg (hne u hu)).trans (h.exported u hu)
    · obtain rfl := List.mem_singleton.mp hu
      rw [hsame,hlast]
      cases earliest image sources u <;> simp [prepared]
  · intro entry
    rw [firsts_add,hsame,List.mem_append,h.firsts]
    constructor
    · rintro (⟨u,hu,hself,rfl⟩ | hentry)
      · exact ⟨u,List.mem_append_left _ hu,(earliest_append_of_mem hu t).trans hself,rfl⟩
      · split at hentry
        · rename_i hnone
          rw [Option.map_eq_none_iff] at hnone
          refine ⟨t,by simp,by rw [hlast,hnone]; rfl,?_⟩
          simpa [prepared] using hentry
        · cases hentry
    · rintro ⟨u,hu,hself,rfl⟩
      rcases List.mem_append.mp hu with hu | hu
      · exact .inl ⟨u,hu,(earliest_append_of_mem hu t).symm.trans hself,rfl⟩
      · obtain rfl := List.mem_singleton.mp hu
        right
        cases he : earliest image sources u with
        | none => simp [prepared]
        | some first =>
          rw [hlast,he] at hself
          have hself : first = u := Option.some.inj hself
          exact absurd (congrArg TextureSource.id hself) (hne first (earliest_spec he).1)

/-- Definitions that all load, one after another. -/
lemma Holds.ofSources {load : TextureSource → Except Error Image}
    (h : s.Holds hash image earlier)
    (hids : ((earlier ++ sources).map TextureSource.id).Nodup)
    (hload : ∀ t ∈ sources, load t = .ok (image t))
    (hencode : ∀ t ∈ earlier ++ sources, ∀ u ∈ earlier ++ sources,
      encode (image t) = encode (image u) → image t = image u) :
    ∃ s', sources.foldlM (fun s t => do
      let image ← load t
      return s.add encode ⟨t.id,image,hash image⟩) s = .ok s' ∧
        s'.Holds hash image (earlier ++ sources) := by
  induction sources generalizing s earlier with
  | nil => exact ⟨s,rfl,by simpa using h⟩
  | cons t sources ih =>
    have hnew : t.id ∉ earlier.map TextureSource.id := by
      intro hmem
      rw [List.map_append,List.map_cons] at hids
      exact List.disjoint_of_nodup_append hids hmem List.mem_cons_self
    have hadded := h.add hnew fun u hu => hencode u (List.mem_append_left _ hu) t (by simp)
    rw [List.append_cons] at hids hencode ⊢
    obtain ⟨s',hs',hholds⟩ := ih hadded hids
      (fun u hu => hload u (List.mem_cons_of_mem _ hu)) hencode
    refine ⟨s',?_,hholds⟩
    rw [List.foldlM_cons,hload t List.mem_cons_self]
    exact hs'

lemma Holds.resolve?_eq (h : s.Holds hash image sources) (ht : t ∈ sources)
    (hfirst : earliest image sources t = some first) :
    s.resolve? t.id = some (first.prepared hash image) := by
  rw [resolve?,h.exported t ht,hfirst]
  exact h.defined first (earliest_spec hfirst).1

/-- The ids that are exported as themselves are those of first definitions. -/
lemma Holds.exported_self_iff {id : String} (h : s.Holds hash image sources)
    (hids : (sources.map TextureSource.id).Nodup) :
    s.exported[id]? = some id ↔ id ∈ (originals image sources).map TextureSource.id := by
  simp only [List.mem_map,mem_originals]
  constructor
  · intro hself
    have hmem : id ∈ sources.map TextureSource.id := by
      by_contra hnot
      rw [(h.undefined id hnot).2] at hself
      cases hself
    obtain ⟨t,ht,rfl⟩ := List.mem_map.mp hmem
    obtain ⟨first,hfirst,hid⟩ := Option.map_eq_some_iff.mp ((h.exported t ht).symm.trans hself)
    obtain rfl := List.inj_on_of_nodup_map hids (earliest_spec hfirst).1 ht hid
    exact ⟨first,⟨ht,hfirst⟩,rfl⟩
  · rintro ⟨t,⟨ht,hself⟩,rfl⟩
    rw [h.exported t ht,hself]
    rfl

/-- Every image is counted at its first definition. -/
lemma Holds.distinctCount_eq (h : s.Holds hash image sources)
    (hids : (sources.map TextureSource.id).Nodup) :
    s.distinctCount = (sources.map image).toFinset.card := by
  have hkeys := Std.ExtTreeMap.nodup_keys (t := s.exported)
  rw [← Std.ExtTreeMap.map_fst_toList_eq_keys] at hkeys
  have horiginals : ((originals image sources).map TextureSource.id).Nodup :=
    hids.sublist (List.filter_sublist.map _)
  have hperm : ((s.exported.toList.filter fun p => p.1 = p.2).map Prod.fst).Perm
      ((originals image sources).map TextureSource.id) := by
    refine (List.perm_ext_iff_of_nodup (hkeys.sublist (List.filter_sublist.map _))
      horiginals).mpr fun id => ?_
    rw [← h.exported_self_iff hids]
    simp
  have hlength := hperm.length_eq
  rw [List.length_map,List.length_map] at hlength
  rw [distinctCount,hlength,length_originals image hids.of_map]

/-- In a store of definitions that all load, under ids of their own, an id resolves to the first
definition of its image, whatever the hash and however often it is the same for different images,
as long as encoding tells the images apart. -/
theorem resolves_to_first (encode : Image → ByteArray) (hash : Image → UInt64)
    {load : TextureSource → Except Error Image} (hids : (sources.map TextureSource.id).Nodup)
    (hload : ∀ t ∈ sources, load t = .ok (image t))
    (hencode : ∀ t ∈ sources, ∀ u ∈ sources,
      encode (image t) = encode (image u) → image t = image u) :
    ∃ s, ofSources encode hash load sources = .ok s ∧
      (∀ t ∈ sources, ∃ first, sources.find? (fun u => image u = image t) = some first ∧
        s.resolve? t.id = some ⟨first.id,image first,hash (image first)⟩) ∧
      (∀ t ∈ sources, ∀ u ∈ sources,
        s.resolve? t.id = s.resolve? u.id ↔ image t = image u) ∧
      (∀ id t, s.resolve? id = some t → s.resolve? t.id = some t) ∧
      (∀ t ∈ sources, s.get? t.id = some ⟨t.id,image t,hash (image t)⟩) ∧
      (∀ id ∉ sources.map TextureSource.id, s.get? id = none ∧ s.resolve? id = none) ∧
      s.distinctCount = (sources.map image).toFinset.card := by
  obtain ⟨s,hs,h⟩ := Holds.empty.ofSources hids hload hencode
  have hresolve : ∀ t ∈ sources, ∃ first, earliest image sources t = some first ∧
      s.resolve? t.id = some (first.prepared hash image) := by
    intro t ht
    obtain ⟨first,hfirst⟩ := exists_earliest image ht
    exact ⟨first,hfirst,h.resolve?_eq ht hfirst⟩
  have hundefined : ∀ id ∉ sources.map TextureSource.id, s.resolve? id = none := by
    intro id hid
    rw [resolve?,(h.undefined id hid).2]
    rfl
  refine ⟨s,hs,hresolve,fun t ht u hu => ?_,fun id t hid => ?_,h.defined,
    fun id hid => ⟨(h.undefined id hid).1,hundefined id hid⟩,h.distinctCount_eq hids⟩
  · obtain ⟨v,hv,ht'⟩ := hresolve t ht
    obtain ⟨w,hw,hu'⟩ := hresolve u hu
    rw [ht',hu']
    constructor
    · intro he
      have himage : image v = image w := congrArg Texture.image (Option.some.inj he)
      exact (earliest_spec hv).2.symm.trans (himage.trans (earliest_spec hw).2)
    · intro he
      rw [earliest_congr he,hw] at hv
      rw [Option.some.inj hv]
  · have hmem : id ∈ sources.map TextureSource.id := by
      by_contra hnot
      rw [hundefined id hnot] at hid
      cases hid
    obtain ⟨u,hu,rfl⟩ := List.mem_map.mp hmem
    obtain ⟨first,hfirst,hres⟩ := hresolve u hu
    obtain rfl := Option.some.inj (hid.symm.trans hres)
    exact h.resolve?_eq (earliest_spec hfirst).1 (earliest_first hfirst)

section Shapes

/-- Two pixels above each other, as a file. -/
def tall : String :=
  "data:image/png;base64,iVBORw0KGgoAAAANSUhEUgAAAAEAAAACCAYAAACZgbYnAAAAFUlEQVR4AQEKAPX/AAUF" ++
    "Bf8ACQkJ/wfMAil6cUaOAAAAAElFTkSuQmCC"

/-- The same two pixels beside each other, as a file. -/
def wide : String :=
  "data:image/png;base64,iVBORw0KGgoAAAANSUhEUgAAAAIAAAABCAYAAAD0In+KAAAAFElEQVR4AQEJAPb/AAUF" ++
    "Bf8JCQn/Br0CKUTI+MQAAAAASUVORK5CYII="

/-- An image of the two pixels. -/
def shape (width height : Nat) : Image :=
  ⟨width,height,⟨#[5,5,5,255,9,9,9,255]⟩⟩

/-- Two images that have the same pixels and so the same hash, and one of them again. -/
def shapes : List TextureSource :=
  [⟨"tall",tall⟩,⟨"wide",wide⟩,⟨"again",tall⟩]

/-- The image of another shape stands for itself, and the repeated one for the first. -/
theorem shapes_resolved : pixelHash (shape 1 2) = pixelHash (shape 2 1) ∧
    ∃ s, load {} ⟨["."]⟩ shapes = .ok s ∧
      s.resolve? "again" = some ⟨"tall",shape 1 2,pixelHash (shape 1 2)⟩ ∧
        s.resolve? "wide" = some ⟨"wide",shape 2 1,pixelHash (shape 2 1)⟩ ∧
          s.distinctCount = 2 := by
  let image : TextureSource → Image := fun t => if t.source = tall then shape 1 2 else shape 2 1
  have hload : ∀ t ∈ shapes, (TextureSource.image {} ⟨["."]⟩ t).toOption = some (image t) := by
    decide +kernel
  obtain ⟨s,hs,hfirst,_,_,_,_,hcount⟩ := resolves_to_first Png.encode pixelHash
    (by decide) (fun t ht => Except.ok_of_toOption (hload t ht))
    (by decide +kernel)
  obtain ⟨first,hfind,hagain⟩ := hfirst ⟨"again",tall⟩ (by decide)
  obtain rfl : ⟨"tall",tall⟩ = first := Option.some.inj hfind
  obtain ⟨first,hfind,hwide⟩ := hfirst ⟨"wide",wide⟩ (by decide)
  obtain rfl : ⟨"wide",wide⟩ = first := Option.some.inj hfind
  exact ⟨rfl,s,hs,hagain,hwide,hcount⟩

end Shapes

end TextureStore
end RigPack
