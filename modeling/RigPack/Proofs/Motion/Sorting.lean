import Mathlib.Tactic
import RigPack.Proofs.Motion.Insertion
import RigPack.Proofs.Numeric.Doubles

/-!
Adding keys as a stable sort. A curve to which keys are added one after another holds them sorted by
their times, so all that the order of adding them can matter for is which of the keys of one time
comes first.
-/

namespace RigPack

section Times

variable {α β : Type} [Scalar α] {time : β → α} {l l' : List β}

/-- Finite times can be compared. -/
lemma Comparable.of_finite {time : β → Float} (h : ∀ b ∈ l, (time b).isFinite = true) :
    Comparable time l := by
  have hle {a b : β} (ha : a ∈ l) (hb : b ∈ l) : time a ≤ time b ↔
      Double.place (time a).toModel.unpack ≤ Double.place (time b).toModel.unpack :=
    Double.le_iff (Double.isNaN_of_isFinite (h a ha)) (Double.isNaN_of_isFinite (h b hb))
  constructor
  · intro a ha b hb
    apply (le_total _ _).imp (hle ha hb).mpr (hle hb ha).mpr
  · intro a ha b hb c hc hab hbc
    apply (hle ha hc).mpr
    exact ((hle ha hb).mp hab).trans ((hle hb hc).mp hbc)

/-- The members of a list in the order of their times, those of one time as they stood. -/
def sortedBy (time : β → α) (l : List β) : List β :=
  l.mergeSort fun a b => time a ≤ time b

namespace Comparable

variable (h : Comparable time l)
include h

lemma trans_attach (a b c : {b // b ∈ l}) (hab : decide (time a.1 ≤ time b.1) = true)
    (hbc : decide (time b.1 ≤ time c.1) = true) : decide (time a.1 ≤ time c.1) = true := by
  simp only [decide_eq_true_eq] at hab hbc ⊢
  exact h.trans a.1 a.2 b.1 b.2 c.1 c.2 hab hbc

lemma total_attach (a b : {b // b ∈ l}) :
    (decide (time a.1 ≤ time b.1) || decide (time b.1 ≤ time a.1)) = true := by
  simpa using h.total a.1 a.2 b.1 b.2

omit h in
/-- Sorting compares members of the list only. -/
lemma sortedBy_eq_attach (time : β → α) (l : List β) : sortedBy time l =
    (l.attach.mergeSort fun a b => time a.1 ≤ time b.1).map Subtype.val := by
  rw [List.map_mergeSort (s := fun a b => time a ≤ time b) fun a _ b _ => rfl,
    List.attach_map_subtype_val,sortedBy]

lemma pairwise_sortedBy : (sortedBy time l).Pairwise fun a b => time a ≤ time b := by
  rw [sortedBy_eq_attach,List.pairwise_map]
  exact (List.pairwise_mergeSort h.trans_attach h.total_attach l.attach).imp of_decide_eq_true

/-- The members of one time are among the sorted ones in the order in which they stood. -/
lemma simultaneous_sublist_sortedBy {b : β} (hb : b ∈ l) :
    (simultaneous time (time b) l).Sublist (sortedBy time l) := by
  have hsplit : simultaneous time (time b) l =
      (l.attach.filter fun a => time a.1 ≤ time b ∧ time b ≤ time a.1).map Subtype.val := by
    rw [simultaneous,← List.attach_map_subtype_val l,List.filter_map,List.attach_map_subtype_val]
    rfl
  rw [hsplit,sortedBy_eq_attach]
  apply List.Sublist.map
  apply List.sublist_mergeSort h.trans_attach h.total_attach _ List.filter_sublist
  apply List.pairwise_of_forall_mem_list
  intro a ha c hc
  simp only [List.mem_filter,decide_eq_true_eq] at ha hc ⊢
  exact h.trans a.1 a.2 b hb c.1 c.2 ha.2.1 hc.2.2

lemma rearranged_sortedBy : Rearranged time l (sortedBy time l) where
  perm := (List.mergeSort_perm ..).symm
  stable b hb := by
    have hsub := (h.simultaneous_sublist_sortedBy hb).filter
      fun a => time a ≤ time b ∧ time b ≤ time a
    rw [simultaneous,List.filter_filter] at hsub
    simp only [Bool.and_self] at hsub
    apply hsub.eq_of_length
    exact ((List.mergeSort_perm ..).filter _).length_eq.symm

end Comparable

end Times

namespace Curve

variable {α : Type} [Scalar α] {l l' : List (Key α)}

/-- Adding keys one after another sorts them. -/
lemma ofKeys_eq_sortedBy (h : Comparable Key.time l) : (ofKeys l).keys = sortedBy Key.time l := by
  have hr := ofKeys_rearranged h
  have hs := h.rearranged_sortedBy
  refine (ofKeys_ordered_perm h (List.Subset.refl l)).1.eq_of_rearranged
    (h.subset hr.perm.symm.subset) h.pairwise_sortedBy ⟨hr.perm.symm.trans hs.perm,?_⟩
  intro k hk
  have hkl := hr.perm.symm.subset hk
  rw [← hr.stable k hkl,hs.stable k hkl]

/-- A curve to which keys of finite times are added one after another is sorted at each moment and
holds the keys that were added. They stand as a stable sort puts them: by their times, and those of
one time in the order in which they were added. So keys that are added in another order, in which
those of one time come as before, make the same curve. -/
theorem adding_sorts (l : List (Key Float)) (h : ∀ k ∈ l, k.time.isFinite = true) :
    (∀ n, (ofKeys (l.take n)).keys.Pairwise (fun a b => a.time ≤ b.time) ∧
      (ofKeys (l.take n)).keys.Perm (l.take n)) ∧
    (ofKeys l).keys = l.mergeSort (fun a b => a.time ≤ b.time) ∧
    (∀ k ∈ l, simultaneous Key.time k.time (ofKeys l).keys = simultaneous Key.time k.time l) ∧
    ∀ l', Rearranged Key.time l l' →
      ofKeys l' = ofKeys l ∧ ∀ t, (ofKeys l').eval t = (ofKeys l).eval t := by
  have hc : Comparable Key.time l := .of_finite h
  refine ⟨fun n => ?_,ofKeys_eq_sortedBy hc,fun k hk => ?_,fun l' hl' => ?_⟩
  · exact ofKeys_ordered_perm hc (List.take_subset n l)
  · exact simultaneous_ofKeys hc (List.Subset.refl l) hk
  · have hcurve := (ofKeys_congr hc hl').symm
    exact ⟨hcurve,fun t => by rw [hcurve]⟩

/-- A key at each of the two zeros, and two others. -/
def jumbled : List (Key Float) :=
  [⟨1,⟨1,1,1⟩,none,.linear⟩,⟨-0.0,⟨2,2,2⟩,none,.step⟩,⟨0,⟨3,3,3⟩,some ⟨4,4,4⟩,.catmullRom⟩,
    ⟨-0.5,⟨5,5,5⟩,none,.linear⟩]

/-- The same with the zeros in the same order. -/
def rejumbled : List (Key Float) :=
  [⟨-0.5,⟨5,5,5⟩,none,.linear⟩,⟨-0.0,⟨2,2,2⟩,none,.step⟩,⟨1,⟨1,1,1⟩,none,.linear⟩,
    ⟨0,⟨3,3,3⟩,some ⟨4,4,4⟩,.catmullRom⟩]

/-- The zeros are one time, at which the keys stay as they were added, and all else may move. -/
theorem jumbled_sorted :
    (∀ k ∈ jumbled, k.time.isFinite = true) ∧ Rearranged Key.time jumbled rejumbled ∧
    ((simultaneous Key.time 0 (ofKeys jumbled).keys).map Key.interpolation) =
      [.step,.catmullRom] ∧
    (ofKeys rejumbled).eval 0.25 = (ofKeys jumbled).eval 0.25 := by
  have hfinite : ∀ k ∈ jumbled, k.time.isFinite = true := by decide
  have hr : Rearranged Key.time jumbled rejumbled := by
    constructor
    · decide
    · decide
  obtain ⟨-,-,hzero,hsame⟩ := adding_sorts jumbled hfinite
  refine ⟨hfinite,hr,?_,(hsame rejumbled hr).2 0.25⟩
  rw [hzero ⟨0,⟨3,3,3⟩,some ⟨4,4,4⟩,.catmullRom⟩ (by simp [jumbled])]
  decide

end Curve
end RigPack
