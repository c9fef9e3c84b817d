import Mathlib.Tactic
import RigPack.World.Run

/-! Who is meant by a target, and what a change of those who are meant does to the stands of a
world, one by one. A selector without a limit changes exactly the stands that it admits. -/

namespace RigPack

namespace Stand

variable {N : Type} (s : Stand N)

@[simp] lemma alive_setTag (t : String) (b : Bool) : (s.setTag t b).alive = s.alive := rfl
@[simp] lemma scores_setTag (t : String) (b : Bool) : (s.setTag t b).scores = s.scores := rfl

lemma tags_setTag (t : String) (b : Bool) (u : String) :
    (s.setTag t b).tags u = if u = t then b else s.tags u := rfl

@[simp] lemma alive_setScore (o : String) (v : Int) : (s.setScore o v).alive = s.alive := rfl
@[simp] lemma tags_setScore (o : String) (v : Int) : (s.setScore o v).tags = s.tags := rfl

lemma scores_setScore (o : String) (v : Int) (p : String) :
    (s.setScore o v).scores p = if p = o then some v else s.scores p := rfl

@[simp] lemma scores_setScore_self (o : String) (v : Int) :
    (s.setScore o v).scores o = some v := by simp [scores_setScore]

lemma setTag_self {t : String} {b : Bool} (h : s.tags t = b) : s.setTag t b = s := by
  have ht : (fun u => if u = t then b else s.tags u) = s.tags := by
    funext u
    by_cases hu : u = t <;> simp [hu,h]
  unfold setTag
  rw [ht]

lemma setTag_setTag (t : String) (b c : Bool) : (s.setTag t b).setTag t c = s.setTag t c := by
  unfold setTag
  congr 1
  funext u
  by_cases hu : u = t <;> simp [hu]

lemma setTag_comm {t u : String} (h : t ≠ u) (b c : Bool) :
    (s.setTag t b).setTag u c = (s.setTag u c).setTag t b := by
  unfold setTag
  congr 1
  funext v
  by_cases hv : v = u
  · simp [hv,h.symm]
  · simp [hv]

/-- A score that was changed is put back. -/
lemma setScore_restore {o : String} {v : Int} (h : s.scores o = some v) (u : Int) :
    (s.setScore o u).setScore o v = s := by
  have hs : (fun p => if p = o then some v else if p = o then some u else s.scores p) =
      s.scores := by
    funext p
    by_cases hp : p = o <;> simp [hp,h]
  unfold setScore
  rw [hs]

lemma score_eq_of_scores {o : String} {v : Int} (h : s.scores o = some v) : s.score o = v := by
  simp [score,h]

end Stand

namespace World

variable {N : Type} {w : World N}

@[simp] lemma stands_setHolder (h o : String) (v : Int) :
    (w.setHolder h o v).stands = w.stands := rfl
@[simp] lemma stands_setSchedule (f : ResourcePath) (t : Option Nat) :
    (w.setSchedule f t).stands = w.stands := rfl

lemma setSchedule_setSchedule (f : ResourcePath) (t u : Option Nat) :
    (w.setSchedule f t).setSchedule f u = w.setSchedule f u := by
  simp only [setSchedule]
  congr 1
  funext g
  by_cases hg : g = f <;> simp [hg]

@[simp] lemma getElem?_change (places : List Nat) (f : Stand N → Stand N) (i : Nat) :
    (w.change places f).stands[i]? = w.stands[i]?.map fun s => if i ∈ places then f s else s := by
  simp [change]

@[simp] lemma length_change (places : List Nat) (f : Stand N → Stand N) :
    (w.change places f).stands.length = w.stands.length := by simp [change]

/-- Changing a stand twice is changing it once by both changes. -/
lemma change_change (places : List Nat) (f g : Stand N → Stand N) :
    (w.change places f).change places g = w.change places fun s => g (f s) := by
  simp only [change,List.mapIdx_mapIdx]
  congr 2
  funext i s
  by_cases h : i ∈ places <;> simp [h]

lemma change_single_congr {r : Nat} {s : Stand N} (hs : w.stands[r]? = some s)
    {f g : Stand N → Stand N} (h : f s = g s) : w.change [r] f = w.change [r] g := by
  simp only [change]
  congr 1
  apply List.ext_getElem?
  intro i
  rw [List.getElem?_mapIdx,List.getElem?_mapIdx]
  by_cases hi : i = r
  · subst i
    simp [hs,h]
  · simp [hi]

/-- Does something to every stand. -/
def changeEvery (w : World N) (f : Stand N → Stand N) : World N :=
  { w with stands := w.stands.map f }

@[simp] lemma getElem?_changeEvery (f : Stand N → Stand N) (i : Nat) :
    (w.changeEvery f).stands[i]? = w.stands[i]?.map f := by simp [changeEvery]

lemma changeEvery_changeEvery (f g : Stand N → Stand N) :
    (w.changeEvery f).changeEvery g = w.changeEvery fun s => g (f s) := by
  simp [changeEvery,Function.comp_def]

lemma changeEvery_congr {f g : Stand N → Stand N} (h : ∀ s ∈ w.stands, f s = g s) :
    w.changeEvery f = w.changeEvery g := by
  simp only [changeEvery,List.map_congr_left h]

lemma mem_selected {f : Selector} (hf : f.single = false) {i : Nat} :
    i ∈ w.selected f ↔ ∃ s, w.stands[i]? = some s ∧ f.admits s = true := by
  simp only [selected,hf,Bool.false_eq_true,if_false,List.mem_filter,List.mem_range,
    Option.any_eq_true]
  constructor
  · rintro ⟨_,h⟩; exact h
  · rintro ⟨s,hs,h⟩
    exact ⟨(List.getElem?_eq_some_iff.mp hs).1,s,hs,h⟩

lemma selected_nodup {f : Selector} (hf : f.single = false) : (w.selected f).Nodup := by
  simpa [selected,hf] using List.nodup_range.filter _

lemma change_selected {f : Selector} (hf : f.single = false) (g : Stand N → Stand N) :
    w.change (w.selected f) g = w.changeEvery fun s => if f.admits s then g s else s := by
  simp only [change,changeEvery]
  congr 1
  apply List.ext_getElem?
  intro i
  rw [List.getElem?_mapIdx,List.getElem?_map]
  cases hs : w.stands[i]? with
  | none => rfl
  | some s =>
    have h : i ∈ w.selected f ↔ f.admits s = true := by simp [mem_selected hf,hs]
    simp [h]

/-- A limit to one stand takes nothing away where at most one stand is admitted. -/
lemma selected_single {f : Selector}
    (h : ∀ (i j : Nat) (s t : Stand N), w.stands[i]? = some s → w.stands[j]? = some t →
      f.admits s = true → f.admits t = true → i = j) :
    w.selected f = w.selected { f with single := false } := by
  have hl : (w.selected { f with single := false }).length ≤ 1 := by
    have hnodup : (w.selected { f with single := false }).Nodup := selected_nodup rfl
    by_contra hlt
    obtain ⟨i,j,rest,he⟩ : ∃ i j rest, w.selected { f with single := false } = i::j::rest := by
      match w.selected { f with single := false }, hlt with
      | i::j::rest, _ => exact ⟨i,j,rest,rfl⟩
      | [_], hlt => simp at hlt
      | [], hlt => simp at hlt
    obtain ⟨s,hs,has⟩ := (mem_selected rfl).mp (he ▸ List.mem_cons_self : i ∈ _)
    obtain ⟨t,ht,hat⟩ := (mem_selected rfl).mp
      (he ▸ List.mem_cons_of_mem _ List.mem_cons_self : j ∈ _)
    have hij : i = j := h i j s t hs ht has hat
    rw [he] at hnodup
    simp [hij] at hnodup
  cases hf : f.single with
  | false =>
    obtain ⟨tags,scores,single⟩ := f
    cases hf
    rfl
  | true =>
    simp only [selected,hf,if_true,Bool.false_eq_true,if_false] at hl ⊢
    exact List.take_of_length_le hl

/-- The places of a selector that means one known stand. -/
lemma selected_eq_singleton {f : Selector} (hf : f.single = false) {r : Nat}
    (h : ∀ i, i ∈ w.selected f ↔ i = r) : w.selected f = [r] := by
  exact List.perm_singleton.mp ((List.perm_ext_iff_of_nodup (selected_nodup hf)
    (List.nodup_singleton r)).mpr (by simpa using h))

section This

variable {r : Nat} {s : Stand N} {p : Vec3 N}

lemma places_this (hs : w.stands[r]? = some s) (ha : s.alive = true) :
    w.places ⟨some r,p⟩ .this = some [r] := by
  simp [places,hs,ha]

lemma readScore_this (hs : w.stands[r]? = some s) (ha : s.alive = true) (o : String) :
    w.readScore ⟨some r,p⟩ .this o = some (s.score o) := by
  simp [readScore,places_this hs ha,hs]

lemma writeScore_this (hs : w.stands[r]? = some s) (ha : s.alive = true) (o : String)
    (f : Int → Int) : w.writeScore ⟨some r,p⟩ .this o f =
      some (w.change [r] fun s => s.setScore o (w.registers.wrap (f (s.score o)))) := by
  simp [writeScore,places_this hs ha]

end This

lemma writeScore_select (p : Point N) {f : Selector} (hf : f.single = false) (o : String)
    (g : Int → Int) : w.writeScore p (.select f) o g = some (w.changeEvery fun s =>
      if f.admits s then s.setScore o (w.registers.wrap (g (s.score o))) else s) := by
  simp [writeScore,places,change_selected hf]

lemma admits_tagged (t : String) (s : Stand N) :
    Selector.admits { tags := [t] } s = (s.alive && s.tags t) := by
  simp [Selector.admits]

end World
end RigPack
