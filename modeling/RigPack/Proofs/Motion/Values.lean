import Mathlib.Tactic
import RigPack.Proofs.Motion.Curve
import RigPack.Proofs.Space.Coordinates

/-!
The values of a curve in exact arithmetic. A curve passes through its keys, splines included, rests
before the first and after the last of them, and without splines never leaves the range of their
values.
-/

namespace RigPack
namespace Curve

variable {K : Type} {l : List (Key K)} {t : K} {i : Nat} {a b k : Key K}

/-- The values of the keys, those with which they are left among them. -/
def values (l : List (Key K)) : List (Vec3 K) :=
  l.flatMap fun k => k.value::k.after.toList

lemma value_mem_values (hk : k ∈ l) : k.value ∈ values l :=
  List.mem_flatMap.mpr ⟨k,hk,List.mem_cons_self⟩

lemma outgoing_mem_values (hk : k ∈ l) : k.outgoing ∈ values l := by
  refine List.mem_flatMap.mpr ⟨k,hk,?_⟩
  cases ha : k.after <;> simp [Key.outgoing,ha]

variable [LinearOrder K]

/-- What lies between two of the values of the keys in the coordinate `f`. -/
def InRange (l : List (Key K)) (f : Vec3 K → K) (x : K) : Prop :=
  ∃ v ∈ values l, ∃ w ∈ values l, f v ≤ x ∧ x ≤ f w

lemma inRange_of_mem {v : Vec3 K} (hv : v ∈ values l) (f : Vec3 K → K) : InRange l f (f v) :=
  ⟨v,hv,v,hv,le_rfl,le_rfl⟩

variable [Field K]

lemma mem_ofKeys : k ∈ (ofKeys l).keys ↔ k ∈ l :=
  (ofKeys_rearranged (Comparable.of_exact Key.time l)).perm.mem_iff.symm

lemma ofKeys_parts (l : List (Key K)) (t : K) :
    Parts (ofKeys l).keys t ((ofKeys l).placeAfter t) :=
  placeAfter_parts (ofKeys_ordered l) (fits _ t)

/-- A segment is taken at its own times only. -/
lemma segment_of_place (hplace : (ofKeys l).placeAfter t = i + 1)
    (ha : (ofKeys l).keys[i]? = some a) (hb : (ofKeys l).keys[i + 1]? = some b) :
    a.time ≤ t ∧ t < b.time := by
  have hp := ofKeys_parts l t
  rw [hplace] at hp
  exact ⟨hp.before i a ha (Nat.lt_succ_self i),lt_of_not_ge (hp.after (i + 1) b hb le_rfl)⟩

/-- Between two keys a segment is taken. -/
lemma place_of_between (ha : a ∈ l) (hb : b ∈ l) (hat : a.time ≤ t) (htb : t < b.time) :
    ∃ i, (ofKeys l).placeAfter t = i + 1 ∧ i + 1 < (ofKeys l).keys.length := by
  have hp := ofKeys_parts l t
  obtain ⟨j,hj⟩ := List.mem_iff_getElem?.mp (mem_ofKeys.mpr ha)
  obtain ⟨j',hj'⟩ := List.mem_iff_getElem?.mp (mem_ofKeys.mpr hb)
  have hlow := hp.lt_of_le hj hat
  have hhigh := hp.le_of_not_le hj' (not_le_of_gt htb)
  have hlast := (List.getElem?_eq_some_iff.mp hj').1
  exact ⟨(ofKeys l).placeAfter t - 1,by omega,by omega⟩

/-- The key behind which a time of some key has its place is the last one added for this time. -/
lemma last_of_place (ha : a ∈ l) :
    ∃ i k, (ofKeys l).placeAfter a.time = i + 1 ∧ (ofKeys l).keys[i]? = some k ∧
      k.time = a.time ∧ (l.filter fun k => k.time = a.time).getLast? = some k := by
  have ho := ofKeys_ordered l
  have hp := ofKeys_parts l a.time
  generalize (ofKeys l).placeAfter a.time = n at hp ⊢
  obtain ⟨j,hj⟩ := List.mem_iff_getElem?.mp (mem_ofKeys.mpr ha)
  have hjn : j < n := hp.lt_of_le hj le_rfl
  obtain ⟨i,rfl⟩ : ∃ i, n = i + 1 := ⟨n - 1,by omega⟩
  obtain ⟨k,hk⟩ : ∃ k, (ofKeys l).keys[i]? = some k := ⟨_,List.getElem?_eq_getElem hp.le⟩
  have hak : a.time ≤ k.time := ho.until (fits _ _) (Nat.le_of_lt_succ hjn) hj hk le_rfl
  have htime : k.time = a.time := le_antisymm (hp.before i k hk (Nat.lt_succ_self i)) hak
  refine ⟨i,k,rfl,hk,htime,?_⟩
  -- no key of this time stands behind the place, so the last one before it is the last of all
  have hstable := (ofKeys_rearranged (Comparable.of_exact Key.time l)).stable a ha
  have hdrop : simultaneous Key.time a.time ((ofKeys l).keys.drop (i + 1)) = [] := by
    rw [simultaneous,List.filter_eq_nil_iff]
    exact fun b hb hba => hp.of_mem_drop hb (of_decide_eq_true hba).1
  have hsplit : (ofKeys l).keys = (ofKeys l).keys.take i ++ [k] ++ (ofKeys l).keys.drop (i + 1) := by
    rw [← Option.toList_some,← hk,← List.take_add_one,List.take_append_drop]
  have hlast : simultaneous Key.time a.time [k] = [k] := by
    simp [simultaneous,htime]
  have hfilter : (l.filter fun k => k.time = a.time) = simultaneous Key.time a.time l := by
    simp only [simultaneous,le_antisymm_iff]
  rw [hfilter,hstable,hsplit,simultaneous_append,simultaneous_append,hdrop,hlast]
  simp

/-- A curve of any keys has a first and a last one. -/
lemma exists_ends (hl : l ≠ []) :
    ∃ first ∈ l, ∃ last ∈ l, (ofKeys l).keys.head? = some first ∧
      (ofKeys l).keys.getLast? = some last ∧
        ∀ k ∈ l, first.time ≤ k.time ∧ k.time ≤ last.time := by
  have ho := ofKeys_ordered l
  have hmem (k : Key K) : k ∈ (ofKeys l).keys ↔ k ∈ l := mem_ofKeys
  have hne : (ofKeys l).keys ≠ [] := by
    obtain ⟨k,hk⟩ := List.exists_mem_of_ne_nil l hl
    exact List.ne_nil_of_mem ((hmem k).mpr hk)
  refine ⟨_,(hmem _).mp (List.head_mem hne),_,(hmem _).mp (List.getLast_mem hne),
    List.head?_eq_some_head hne,List.getLast?_eq_some_getLast hne,fun k hk => ?_⟩
  obtain ⟨j,hj⟩ := List.mem_iff_getElem?.mp ((hmem k).mpr hk)
  have hlt := (List.getElem?_eq_some_iff.mp hj).1
  constructor
  · refine ho.until (fits _ _) (Nat.zero_le j) ?_ hj le_rfl
    rw [← List.head?_eq_getElem?,List.head?_eq_some_head hne]
  · refine ho.until (fits _ _) (Nat.le_sub_one_of_lt hlt) hj ?_ le_rfl
    rw [← List.getLast?_eq_getElem?,List.getLast?_eq_some_getLast hne]

/-- Before all keys a curve rests at the first of them. -/
lemma eval_of_before (hfirst : (ofKeys l).keys.head? = some k) (ht : ∀ a ∈ l, t < a.time) :
    (ofKeys l).eval t = k.value := by
  have hp := ofKeys_parts l t
  have hplace : (ofKeys l).placeAfter t = 0 := by
    rw [List.head?_eq_getElem?] at hfirst
    have hk := mem_ofKeys.mp (List.mem_of_getElem? hfirst)
    exact Nat.le_zero.mp (hp.le_of_not_le hfirst (not_le_of_gt (ht k hk)))
  simp [eval,hplace,hfirst]

/-- From the last key on a curve rests at the value with which it leaves this key. -/
lemma eval_of_after (hlast : (ofKeys l).keys.getLast? = some k) (ht : ∀ a ∈ l, a.time ≤ t) :
    (ofKeys l).eval t = k.outgoing := by
  have hp := ofKeys_parts l t
  have hplace : (ofKeys l).placeAfter t = (ofKeys l).keys.length := by
    refine hp.le.antisymm (Nat.le_of_not_lt fun hlt => ?_)
    have hb := List.getElem?_eq_getElem hlt
    exact hp.after _ _ hb le_rfl (ht _ (mem_ofKeys.mp (List.mem_of_getElem? hb)))
  have hne : (ofKeys l).keys ≠ [] := by
    rintro hnil
    simp [hnil] at hlast
  obtain ⟨i,hi⟩ := Nat.exists_eq_succ_of_ne_zero (mt List.length_eq_zero_iff.mp hne)
  simp [eval,hplace,hi,hlast]

/-- A curve without keys rests at zero. -/
@[simp] lemma eval_empty (t : K) : (empty : Curve K).eval t = .zero := by
  simp [eval,placeAfter,countUntil,empty]

lemma eval_single (ht : k.time ≤ t) : (ofKeys [k]).eval t = k.outgoing := by
  have hlast := congrArg List.getLast? (ofKeys_keys (List.pairwise_singleton _ k))
  exact eval_of_after hlast (by simpa using ht)

variable [IsStrictOrderedRing K]

lemma fraction_mem (hat : a.time ≤ t) (htb : t < b.time) :
    0 ≤ fraction a b t ∧ fraction a b t < 1 := by
  have hspan : 0 < b.time - a.time := sub_pos.mpr (hat.trans_lt htb)
  constructor
  · exact div_nonneg (sub_nonneg.mpr hat) hspan.le
  · rw [fraction,div_lt_one hspan]
    exact sub_lt_sub_right htb _

/-- A spline starts at the second of its points. -/
lemma catmullRom_zero (p q r s : Vec3 K) : catmullRom p q r s 0 = q := by
  ext <;> simp [catmullRom]

/-- A curve leaves a key with the key's outgoing value. -/
lemma eval_of_place (hplace : (ofKeys l).placeAfter k.time = i + 1)
    (hk : (ofKeys l).keys[i]? = some k) : (ofKeys l).eval k.time = k.outgoing := by
  cases hb : (ofKeys l).keys[i + 1]? with
  | none =>
    have hlast : (ofKeys l).keys.getLast? = some k := by
      have hlen := List.getElem?_eq_none_iff.mp hb
      have hlt := (List.getElem?_eq_some_iff.mp hk).1
      rw [List.getLast?_eq_getElem?,← hk]
      congr 1
      omega
    simp [eval,hplace,hk,hb,hlast]
  | some b =>
    have hlt := (segment_of_place hplace hk hb).2
    have hzero : fraction k b k.time = 0 := by rw [fraction,sub_self,zero_div]
    rw [eval_eq_between (ofKeys_ordered l) hk hb le_rfl hlt,between_eq hlt,hzero,catmullRom_zero]
    split_ifs
    · rfl
    · rfl
    · ext <;> simp

/-- A point on the way between two values is in their range. -/
lemma inRange_of_way {v w : Vec3 K} (hv : v ∈ values l) (hw : w ∈ values l) (f : Vec3 K → K)
    {u : K} (h0 : 0 ≤ u) (h1 : u < 1) : InRange l f (f v + (f w - f v) * u) := by
  rcases le_total (f v) (f w) with hle | hle
  · refine ⟨v,hv,w,hw,?_,?_⟩
    · nlinarith
    · nlinarith
  · refine ⟨w,hw,v,hv,?_,?_⟩
    · nlinarith
    · nlinarith

/-- A segment that is no spline stays in the range of the keys' values. -/
lemma between_inRange (ha : a ∈ l) (hb : b ∈ l) (hplain : ∀ k ∈ l, k.interpolation ≠ .catmullRom)
    (hat : a.time ≤ t) (htb : t < b.time) (before beyond : Option (Key K)) :
    ∀ f ∈ [Vec3.x,Vec3.y,Vec3.z], InRange l f (f (between before a b beyond t)) := by
  intro f hf
  rw [between_eq (hat.trans_lt htb),if_neg (by simp [hplain a ha,hplain b hb])]
  split_ifs
  · exact inRange_of_mem (outgoing_mem_values ha) f
  · obtain ⟨h0,h1⟩ := fraction_mem hat htb
    have hway := inRange_of_way (outgoing_mem_values ha) (value_mem_values hb) f h0 h1
    simp only [List.mem_cons,List.not_mem_nil,or_false] at hf
    rcases hf with rfl | rfl | rfl <;> exact hway

/-- Without splines a curve stays in the range of its keys' values. -/
lemma eval_inRange (hl : l ≠ []) (hplain : ∀ k ∈ l, k.interpolation ≠ .catmullRom) (t : K) :
    ∀ f ∈ [Vec3.x,Vec3.y,Vec3.z], InRange l f (f ((ofKeys l).eval t)) := by
  intro f hf
  obtain ⟨first,hfirst,last,hlast,hhead,hend,hends⟩ := exists_ends hl
  by_cases hbefore : t < first.time
  · rw [eval_of_before hhead fun k hk => hbefore.trans_le (hends k hk).1]
    exact inRange_of_mem (value_mem_values hfirst) f
  by_cases hafter : last.time ≤ t
  · rw [eval_of_after hend fun k hk => (hends k hk).2.trans hafter]
    exact inRange_of_mem (outgoing_mem_values hlast) f
  obtain ⟨i,hplace,hi⟩ := place_of_between hfirst hlast (not_lt.mp hbefore) (not_le.mp hafter)
  have ha := List.getElem?_eq_getElem (Nat.lt_of_succ_lt hi)
  have hb := List.getElem?_eq_getElem hi
  obtain ⟨hat,htb⟩ := segment_of_place hplace ha hb
  rw [eval_eq_between (ofKeys_ordered l) ha hb hat htb]
  exact between_inRange (mem_ofKeys.mp (List.mem_of_getElem? ha))
    (mem_ofKeys.mp (List.mem_of_getElem? hb)) hplain hat htb _ _ f hf

/-- A curve passes through its keys and rests at its ends. Between two keys it takes a segment that
has a length, and there its fraction of this segment is less than the whole. Without splines it
stays in the range of its keys' values. -/
theorem passes_through_keys (l : List (Key K)) (hl : l ≠ []) :
    (∀ t, ∀ a ∈ l, ∀ b ∈ l, a.time ≤ t → t < b.time →
      ∃ i, (ofKeys l).placeAfter t = i + 1 ∧ i + 1 < (ofKeys l).keys.length) ∧
    (∀ t i a b, (ofKeys l).placeAfter t = i + 1 → (ofKeys l).keys[i]? = some a →
      (ofKeys l).keys[i + 1]? = some b → 0 < b.time - a.time ∧
        0 ≤ (t - a.time) / (b.time - a.time) ∧ (t - a.time) / (b.time - a.time) < 1) ∧
    (∀ a ∈ l, ∃ k, (l.filter fun k => k.time = a.time).getLast? = some k ∧
      (ofKeys l).eval a.time = k.outgoing) ∧
    (∃ first ∈ l, ∃ last ∈ l, (ofKeys l).keys.head? = some first ∧
      (ofKeys l).keys.getLast? = some last ∧
      (∀ k ∈ l, first.time ≤ k.time ∧ k.time ≤ last.time) ∧
      (∀ t < first.time, (ofKeys l).eval t = first.value) ∧
      ∀ t, last.time ≤ t → (ofKeys l).eval t = last.outgoing) ∧
    ((∀ k ∈ l, k.interpolation ≠ .catmullRom) → ∀ t, ∀ f ∈ [Vec3.x,Vec3.y,Vec3.z],
      ∃ v ∈ values l, ∃ w ∈ values l,
        f v ≤ f ((ofKeys l).eval t) ∧ f ((ofKeys l).eval t) ≤ f w) := by
  refine ⟨fun t a ha b hb => place_of_between ha hb,?_,?_,?_,eval_inRange hl⟩
  · intro t i a b hplace ha hb
    obtain ⟨hat,htb⟩ := segment_of_place hplace ha hb
    exact ⟨sub_pos.mpr (hat.trans_lt htb),fraction_mem hat htb⟩
  · intro a ha
    obtain ⟨i,k,hplace,hk,htime,hlast⟩ := last_of_place ha
    refine ⟨k,hlast,?_⟩
    rw [← htime] at hplace ⊢
    exact eval_of_place hplace hk
  · obtain ⟨first,hfirst,last,hlast,hhead,hend,hends⟩ := exists_ends hl
    refine ⟨first,hfirst,last,hlast,hhead,hend,hends,fun t ht => ?_,fun t ht => ?_⟩
    · exact eval_of_before hhead fun k hk => ht.trans_le (hends k hk).1
    · exact eval_of_after hend fun k hk => (hends k hk).2.trans ht

/-- Keys out of order, two of them at one time, the later of which ends a segment of its kind. -/
def scattered (kind : Interpolation) : List (Key ℚ) :=
  [⟨2,⟨0,0,0⟩,none,.linear⟩,⟨1,⟨4,4,4⟩,none,.step⟩,⟨0,⟨1,1,1⟩,none,.linear⟩,
    ⟨1,⟨2,2,2⟩,some ⟨6,7,8⟩,kind⟩]

/-- At the time of two keys the later one counts, a spline or not, and outside all keys the outer
ones do. Between the keys a segment is taken, and without splines the curve stays in range. -/
theorem scattered_passed :
    scattered .catmullRom ≠ [] ∧ (ofKeys (scattered .catmullRom)).eval 1 = ⟨6,7,8⟩ ∧
    (ofKeys (scattered .catmullRom)).eval (-1) = ⟨1,1,1⟩ ∧
    (ofKeys (scattered .catmullRom)).eval 2 = ⟨0,0,0⟩ ∧
    (∃ i, (ofKeys (scattered .catmullRom)).placeAfter (1 / 2) = i + 1 ∧
      i + 1 < (ofKeys (scattered .catmullRom)).keys.length) ∧
    (∀ k ∈ scattered .step, k.interpolation ≠ .catmullRom) ∧
    ∃ v ∈ values (scattered .step), ∃ w ∈ values (scattered .step),
      v.x ≤ ((ofKeys (scattered .step)).eval (1 / 2)).x ∧
        ((ofKeys (scattered .step)).eval (1 / 2)).x ≤ w.x := by
  have hne (kind : Interpolation) : scattered kind ≠ [] := by simp [scattered]
  have hplain : ∀ k ∈ scattered .step, k.interpolation ≠ .catmullRom := by simp [scattered]
  obtain ⟨hbetween,-,hkeys,⟨first,hfirst,last,hlast,-,-,hends,hbefore,hafter⟩,-⟩ :=
    passes_through_keys (scattered .catmullRom) (hne _)
  obtain ⟨-,-,-,-,hrange⟩ := passes_through_keys (scattered .step) (hne _)
  refine ⟨hne _,?_,?_,?_,?_,hplain,hrange hplain (1 / 2) Vec3.x List.mem_cons_self⟩
  · obtain ⟨k,hk,heval⟩ := hkeys ⟨1,⟨4,4,4⟩,none,.step⟩ (by simp [scattered])
    obtain rfl : ⟨1,⟨2,2,2⟩,some ⟨6,7,8⟩,.catmullRom⟩ = k := by simpa [scattered] using hk
    exact heval
  · have hzero := (hends ⟨0,⟨1,1,1⟩,none,.linear⟩ (by simp [scattered])).1
    obtain rfl : first = ⟨0,⟨1,1,1⟩,none,.linear⟩ := by
      simp only [scattered,List.mem_cons,List.not_mem_nil,or_false] at hfirst
      rcases hfirst with rfl | rfl | rfl | rfl
      · norm_num at hzero
      · norm_num at hzero
      · rfl
      · norm_num at hzero
    exact hbefore (-1) (by norm_num)
  · have htwo := (hends ⟨2,⟨0,0,0⟩,none,.linear⟩ (by simp [scattered])).2
    obtain rfl : last = ⟨2,⟨0,0,0⟩,none,.linear⟩ := by
      simp only [scattered,List.mem_cons,List.not_mem_nil,or_false] at hlast
      rcases hlast with rfl | rfl | rfl | rfl
      · rfl
      · norm_num at htwo
      · norm_num at htwo
      · norm_num at htwo
    exact hafter 2 le_rfl
  · exact hbetween (1 / 2) ⟨0,⟨1,1,1⟩,none,.linear⟩ (by simp [scattered])
      ⟨1,⟨4,4,4⟩,none,.step⟩ (by simp [scattered]) (by norm_num) (by norm_num)

end Curve
end RigPack
