import Mathlib.Tactic
import RigPack.Pack.Artifacts
import RigPack.Proofs.Except

/-!
Sets of files as maps. A file goes in if its path has no other bytes, so a list of files that goes
in as a whole is what the set then holds, and the only way to fail is a path with two contents.
-/

namespace RigPack
namespace ArtifactSet

variable {s t : ArtifactSet} {path : String} {bytes : ByteArray} {e : Error}
  {files : List (String × ByteArray)}

lemma mem_toList {p : String} {b : ByteArray} : (p,b) ∈ s.toList ↔ s.get? p = some b :=
  Std.ExtTreeMap.mem_toList_iff_getElem?_eq_some

lemma nodup_paths (s : ArtifactSet) : s.paths.Nodup := by
  unfold paths toList
  rw [Std.ExtTreeMap.map_fst_toList_eq_keys]
  exact Std.ExtTreeMap.nodup_keys

lemma length_paths (s : ArtifactSet) : s.paths.length = s.size := by
  unfold paths toList size
  rw [List.length_map,Std.ExtTreeMap.length_toList]

lemma get?_empty (p : String) : (({} : ArtifactSet).get? p) = none :=
  Std.ExtTreeMap.getElem?_empty

/-- A file goes in if its path has no other bytes. The other files stay as they are. -/
lemma insert_ok (h : s.insert path bytes = .ok t) :
    (∀ b, s.get? path = some b → b = bytes) ∧
      ∀ p, t.get? p = if p = path then some bytes else s.get? p := by
  unfold insert at h
  split at h
  · rename_i hnone
    cases h
    refine ⟨fun b hb => absurd (hnone.symm.trans hb) nofun,fun p => ?_⟩
    rw [get?,Std.ExtTreeMap.getElem?_insert]
    simp only [Std.compare_eq_iff_eq,eq_comm (a := path)]
    rfl
  · rename_i known hknown
    split at h
    · rename_i hsame
      cases h
      have hsame : known = bytes := ByteArray.ext hsame
      refine ⟨fun b hb => (Option.some.inj (hknown.symm.trans hb)).symm.trans hsame,fun p => ?_⟩
      split
      · rename_i hp
        rw [hp,hknown,hsame]
      · rfl
    · cases h

lemma insert_error (h : s.insert path bytes = .error e) :
    e = .conflictingArtifact path ∧ ∃ known, s.get? path = some known ∧ known ≠ bytes := by
  unfold insert at h
  split at h
  · cases h
  · rename_i known hknown
    split at h
    · cases h
    · rename_i hother
      cases h
      exact ⟨rfl,known,hknown,fun hsame => hother (congrArg ByteArray.data hsame)⟩

/-- Files that all go in are there afterwards, beside those that were there before. -/
lemma insertAll_ok (h : files.foldlM (fun s f => s.insert f.1 f.2) s = .ok t) {p : String}
    {b : ByteArray} : t.get? p = some b ↔ s.get? p = some b ∨ (p,b) ∈ files := by
  induction files generalizing s with
  | nil =>
    cases h
    simp
  | cons f files ih =>
    rw [List.foldlM_cons] at h
    obtain ⟨u,hu,h⟩ := Except.bind_ok h
    obtain ⟨hsame,hget⟩ := insert_ok hu
    rw [ih h,hget p,List.mem_cons,Prod.ext_iff,← or_assoc]
    refine or_congr_left ?_
    split
    · rename_i hp
      subst hp
      constructor
      · exact fun hb => .inr ⟨rfl,(Option.some.inj hb).symm⟩
      · rintro (hb | ⟨_,rfl⟩)
        · rw [hsame b hb]
        · rfl
    · rename_i hp
      simp [hp]

/-- A list that does not go in as a whole has two contents for one path. -/
lemma insertAll_error (h : files.foldlM (fun s f => s.insert f.1 f.2) s = .error e) :
    ∃ p b b', e = .conflictingArtifact p ∧ (s.get? p = some b ∨ (p,b) ∈ files) ∧ (p,b') ∈ files ∧
      b ≠ b' := by
  induction files generalizing s with
  | nil => cases h
  | cons f files ih =>
    rw [List.foldlM_cons] at h
    rcases Except.bind_error h with hf | ⟨u,hu,h⟩
    · obtain ⟨rfl,known,hknown,hne⟩ := insert_error hf
      exact ⟨f.1,known,f.2,rfl,.inl hknown,List.mem_cons_self,hne⟩
    · obtain ⟨_,hget⟩ := insert_ok hu
      obtain ⟨p,b,b',rfl,hb,hb',hne⟩ := ih h
      refine ⟨p,b,b',rfl,?_,List.mem_cons_of_mem _ hb',hne⟩
      rw [hget] at hb
      split at hb
      · rename_i hp
        rcases hb with hb | hb
        · cases hb
          exact .inr (hp ▸ List.mem_cons_self)
        · exact .inr (List.mem_cons_of_mem _ hb)
      · exact hb.imp_right (List.mem_cons_of_mem _)

/-- The set of a list of files holds these files. -/
lemma get?_of_ofList (h : ofList files = .ok s) {p : String} {b : ByteArray} :
    s.get? p = some b ↔ (p,b) ∈ files := by
  rw [insertAll_ok h,get?_empty]
  simp

lemma ofList_error (h : ofList files = .error e) : ∃ p b b', e = .conflictingArtifact p ∧
    (p,b) ∈ files ∧ (p,b') ∈ files ∧ b ≠ b' := by
  obtain ⟨p,b,b',he,hb,hb',hne⟩ := insertAll_error h
  rw [get?_empty] at hb
  exact ⟨p,b,b',he,by simpa using hb,hb',hne⟩

/-- Files of which no path has two contents all go in. -/
lemma exists_ofList (h : ∀ f ∈ files, ∀ g ∈ files, f.1 = g.1 → f.2 = g.2) :
    ∃ s, ofList files = .ok s := by
  cases hs : ofList files with
  | ok s => exact ⟨s,rfl⟩
  | error e =>
    obtain ⟨p,b,b',_,hb,hb',hne⟩ := ofList_error hs
    exact absurd (h _ hb _ hb' rfl) hne

end ArtifactSet
end RigPack
