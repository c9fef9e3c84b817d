import Mathlib.Tactic
import RigPack.Skeleton.Basic

/-!
Keys put in order. In whatever order keys are added, a curve keeps them in the order of their times,
and keys of one time in the order in which they were added. All that this needs of the times is that
they can be compared.
-/

namespace RigPack

section Times

variable {α β : Type} [Scalar α] (time : β → α)

/-- The times of the entries can be compared: of two of them one is at or before the other, and what
is at or before one that is at or before a third is at or before the third. Of doubles only one that
is no number cannot be compared. -/
structure Comparable (l : List β) : Prop where
  total : ∀ a ∈ l, ∀ b ∈ l, time a ≤ time b ∨ time b ≤ time a
  trans : ∀ a ∈ l, ∀ b ∈ l, ∀ c ∈ l, time a ≤ time b → time b ≤ time c → time a ≤ time c

/-- The entries that stand at time `s`, in their order. -/
def simultaneous (s : α) (l : List β) : List β :=
  l.filter fun b => time b ≤ s ∧ s ≤ time b

/-- The entries of the one list are those of the other, in an order that differs for entries of
different times only. -/
structure Rearranged (l l' : List β) : Prop where
  perm : l.Perm l'
  stable : ∀ b ∈ l, simultaneous time (time b) l = simultaneous time (time b) l'

variable {time} {l l' : List β}

lemma Comparable.refl (h : Comparable time l) {b : β} (hb : b ∈ l) : time b ≤ time b :=
  (h.total b hb b hb).elim id id

lemma Comparable.subset (h : Comparable time l) (hl : l' ⊆ l) : Comparable time l' where
  total a ha b hb := h.total a (hl ha) b (hl hb)
  trans a ha b hb c hc := h.trans a (hl ha) b (hl hb) c (hl hc)

@[simp] lemma simultaneous_append (s : α) (l l' : List β) :
    simultaneous time s (l ++ l') = simultaneous time s l ++ simultaneous time s l' :=
  List.filter_append ..

lemma simultaneous_cons (s : α) (b : β) (l : List β) :
    simultaneous time s (b::l) =
      if time b ≤ s ∧ s ≤ time b then b::simultaneous time s l else simultaneous time s l := by
  simp only [simultaneous,List.filter_cons,decide_eq_true_eq]

end Times

namespace Curve

variable {α : Type} [Scalar α] {keys l : List (Key α)} {t : α} {c : Curve α} {k : Key α}

/-- The keys stand in the order of their times. -/
def Ordered (keys : List (Key α)) : Prop :=
  keys.Pairwise fun a b => a.time ≤ b.time

/-- A time that is put in order with the keys: what is at or before a key that is not after it is
not after it either. -/
def Fits (keys : List (Key α)) (t : α) : Prop :=
  ∀ a ∈ keys, ∀ b ∈ keys, a.time ≤ b.time → b.time ≤ t → a.time ≤ t

/-- Keys up to one that is not after a time are not after it. -/
lemma Ordered.until (h : Ordered keys) (ht : Fits keys t) {i j : Nat} (hij : i ≤ j) {a b : Key α}
    (ha : keys[i]? = some a) (hb : keys[j]? = some b) (hbt : b.time ≤ t) : a.time ≤ t := by
  obtain ⟨hi,rfl⟩ := List.getElem?_eq_some_iff.mp ha
  obtain ⟨hj,rfl⟩ := List.getElem?_eq_some_iff.mp hb
  rcases Nat.lt_or_eq_of_le hij with hlt | rfl
  · apply ht _ (List.getElem_mem hi) _ (List.getElem_mem hj) _ hbt
    exact List.pairwise_iff_getElem.mp h i j hi hj hlt
  · exact hbt

/-- A place between the keys up to a time and those after it. -/
structure Parts (keys : List (Key α)) (t : α) (n : Nat) : Prop where
  le : n ≤ keys.length
  before : ∀ i k, keys[i]? = some k → i < n → k.time ≤ t
  after : ∀ i k, keys[i]? = some k → n ≤ i → ¬k.time ≤ t

/-- Halving a window outside which the keys are parted already. -/
lemma countUntil_parts (h : Ordered keys) (ht : Fits keys t) {base n : Nat}
    (hle : base + n ≤ keys.length) (hbefore : ∀ i k, keys[i]? = some k → i < base → k.time ≤ t)
    (hafter : ∀ i k, keys[i]? = some k → base + n ≤ i → ¬k.time ≤ t) :
    Parts keys t (countUntil keys t base n) := by
  fun_induction countUntil keys t base n with
  | case1 base n hn k hk hkt =>
    have hlt := (List.getElem?_eq_some_iff.mp hk).1
    refine ⟨hlt,fun i k' hk' hi => ?_,fun i k' hk' hi => hafter i k' hk' (by omega)⟩
    exact h.until ht (Nat.le_of_lt_succ hi) hk' hk hkt
  | case2 base n hn k hk hkt =>
    exact ⟨by omega,hbefore,fun i k' hk' hi hk't => hkt (h.until ht hi hk hk' hk't)⟩
  | case3 base n hn hk =>
    have hlast := List.getElem?_eq_none_iff.mp hk
    refine ⟨by omega,hbefore,fun i k' hk' hi => ?_⟩
    have hlt := (List.getElem?_eq_some_iff.mp hk').1
    omega
  | case4 base n hn middle k hk ih =>
    by_cases hkt : k.time ≤ t
    · simp only [hkt,dite_true,if_true] at ih ⊢
      refine ih (by omega) (fun i k' hk' hi => ?_) fun i k' hk' hi => hafter i k' hk' (by omega)
      exact h.until ht hi.le hk' hk hkt
    · simp only [hkt,dite_false,if_false] at ih ⊢
      refine ih (by omega) hbefore fun i k' hk' hi hk't => hkt ?_
      exact h.until ht (by omega) hk hk' hk't
  | case5 base n hn middle hk =>
    have hlast := List.getElem?_eq_none_iff.mp hk
    omega

/-- Before its place stand the keys up to a time, from it on those after it. -/
lemma placeAfter_parts (h : Ordered c.keys) (ht : Fits c.keys t) :
    Parts c.keys t (c.placeAfter t) :=
  countUntil_parts h ht (by omega) (fun i _ _ hi => absurd hi (Nat.not_lt_zero i))
    fun i k hk hi => by
      have hlt := (List.getElem?_eq_some_iff.mp hk).1
      omega

lemma Parts.lt_of_le {n : Nat} (h : Parts keys t n) {i : Nat} {a : Key α} (ha : keys[i]? = some a)
    (hat : a.time ≤ t) : i < n := by
  by_contra hle
  exact h.after i a ha (Nat.le_of_not_lt hle) hat

lemma Parts.le_of_not_le {n : Nat} (h : Parts keys t n) {i : Nat} {b : Key α}
    (hb : keys[i]? = some b) (htb : ¬b.time ≤ t) : n ≤ i := by
  by_contra hlt
  exact htb (h.before i b hb (Nat.lt_of_not_le hlt))

/-- There is one such place. -/
lemma Parts.eq {n : Nat} (h : Parts keys t n) {i : Nat} {a b : Key α} (ha : keys[i]? = some a)
    (hb : keys[i + 1]? = some b) (hat : a.time ≤ t) (htb : ¬b.time ≤ t) : n = i + 1 :=
  Nat.le_antisymm (h.le_of_not_le hb htb) (h.lt_of_le ha hat)

lemma Parts.of_mem_take {n : Nat} (h : Parts keys t n) {a : Key α} (ha : a ∈ keys.take n) :
    a.time ≤ t := by
  obtain ⟨i,hi⟩ := List.mem_iff_getElem?.mp ha
  rw [List.getElem?_take] at hi
  split at hi
  · exact h.before i a hi ‹_›
  · cases hi

lemma Parts.of_mem_drop {n : Nat} (h : Parts keys t n) {b : Key α} (hb : b ∈ keys.drop n) :
    ¬b.time ≤ t := by
  obtain ⟨i,hi⟩ := List.mem_iff_getElem?.mp hb
  rw [List.getElem?_drop] at hi
  exact h.after _ b hi (Nat.le_add_right _ _)

lemma insertIdx_eq_append {β : Type} (x : β) {l : List β} {n : Nat} (h : n ≤ l.length) :
    l.insertIdx n x = l.take n ++ x::l.drop n := by
  induction l generalizing n with
  | nil => simp_all
  | cons y l ih =>
    cases n with
    | zero => rfl
    | succ n => simp [ih (Nat.le_of_succ_le_succ h)]

lemma add_keys (h : Parts c.keys k.time (c.placeAfter k.time)) :
    (c.add k).keys =
      c.keys.take (c.placeAfter k.time) ++ k::c.keys.drop (c.placeAfter k.time) :=
  insertIdx_eq_append k h.le

lemma add_perm (h : Parts c.keys k.time (c.placeAfter k.time)) :
    (c.add k).keys.Perm (k::c.keys) := by
  rw [add_keys h]
  apply List.perm_middle.trans
  rw [List.take_append_drop]

/-- A key that is added keeps the order. -/
lemma Ordered.add (h : Ordered c.keys) (hp : Parts c.keys k.time (c.placeAfter k.time))
    (hk : ∀ a ∈ c.keys, a.time ≤ k.time ∨ k.time ≤ a.time) : Ordered (c.add k).keys := by
  have hafter : ∀ b ∈ c.keys.drop (c.placeAfter k.time), k.time ≤ b.time := fun b hb =>
    (hk b (List.mem_of_mem_drop hb)).resolve_left (hp.of_mem_drop hb)
  rw [Ordered] at h
  rw [add_keys hp,Ordered,List.pairwise_append,List.pairwise_cons]
  refine ⟨h.sublist (List.take_sublist ..),⟨hafter,h.sublist (List.drop_sublist ..)⟩,?_⟩
  intro a ha b hb
  rcases List.mem_cons.mp hb with rfl | hb
  · exact hp.of_mem_take ha
  · rw [← List.take_append_drop (c.placeAfter k.time) c.keys,List.pairwise_append] at h
    exact h.2.2 a ha b hb

/-- A key that is added comes behind all other keys of its time. -/
lemma simultaneous_add {s : α} (hp : Parts c.keys k.time (c.placeAfter k.time))
    (hs : ∀ b ∈ c.keys, b.time ≤ s → s ≤ k.time → b.time ≤ k.time) :
    simultaneous Key.time s (c.add k).keys = simultaneous Key.time s (c.keys ++ [k]) := by
  have hdrop (hk : s ≤ k.time) :
      simultaneous Key.time s (c.keys.drop (c.placeAfter k.time)) = [] := by
    rw [simultaneous,List.filter_eq_nil_iff]
    intro b hb hbs
    apply hp.of_mem_drop hb
    exact hs b (List.mem_of_mem_drop hb) (of_decide_eq_true hbs).1 hk
  have hkeys : simultaneous Key.time s c.keys =
      simultaneous Key.time s (c.keys.take (c.placeAfter k.time)) ++
        simultaneous Key.time s (c.keys.drop (c.placeAfter k.time)) := by
    rw [← simultaneous_append,List.take_append_drop]
  rw [add_keys hp,simultaneous_append,simultaneous_append,hkeys,← List.singleton_append,
    simultaneous_append]
  by_cases hk : s ≤ k.time
  · simp [hdrop hk]
  · simp [simultaneous,hk]

lemma ofKeys_append (l : List (Key α)) (k : Key α) : ofKeys (l ++ [k]) = (ofKeys l).add k := by
  simp [ofKeys]

section Comparable

variable {L : List (Key α)} (h : Comparable Key.time L)
include h

lemma fits_of_comparable (hk : k ∈ L) (hkeys : keys ⊆ L) : Fits keys k.time :=
  fun a ha b hb => h.trans a (hkeys ha) b (hkeys hb) k hk

/-- What adding keys one after another keeps: the keys stand in order, and they are the keys that
were added. -/
lemma ofKeys_ordered_perm (hl : l ⊆ L) : Ordered (ofKeys l).keys ∧ (ofKeys l).keys.Perm l := by
  induction l using List.reverseRecOn with
  | nil => exact ⟨List.Pairwise.nil,.nil⟩
  | append_singleton l k ih =>
    obtain ⟨hl,hk⟩ := List.append_subset.mp hl
    obtain ⟨ho,hperm⟩ := ih hl
    have hkL : k ∈ L := hk (List.mem_singleton_self k)
    have hsub : (ofKeys l).keys ⊆ L := List.Subset.trans hperm.subset hl
    have hp := placeAfter_parts ho (fits_of_comparable h hkL hsub)
    rw [ofKeys_append]
    refine ⟨ho.add hp fun a ha => h.total a (hsub ha) k hkL,?_⟩
    exact (add_perm hp).trans ((hperm.cons k).trans (List.perm_append_singleton k l).symm)

/-- The place at which a key of one of the times is put. -/
lemma placeAfter_ofKeys_parts (hl : l ⊆ L) (hk : k ∈ L) :
    Parts (ofKeys l).keys k.time ((ofKeys l).placeAfter k.time) := by
  obtain ⟨ho,hperm⟩ := ofKeys_ordered_perm h hl
  exact placeAfter_parts ho (fits_of_comparable h hk (List.Subset.trans hperm.subset hl))

/-- Keys of one time stay in the order in which they are added. -/
lemma simultaneous_ofKeys (hl : l ⊆ L) {b : Key α} (hb : b ∈ L) :
    simultaneous Key.time b.time (ofKeys l).keys = simultaneous Key.time b.time l := by
  induction l using List.reverseRecOn with
  | nil => rfl
  | append_singleton l k ih =>
    obtain ⟨hl,hk⟩ := List.append_subset.mp hl
    have hkL : k ∈ L := hk (List.mem_singleton_self k)
    have hsub := List.Subset.trans (ofKeys_ordered_perm h hl).2.subset hl
    rw [ofKeys_append,simultaneous_add (placeAfter_ofKeys_parts h hl hkL),simultaneous_append,
      simultaneous_append,ih hl]
    exact fun a ha => h.trans a (hsub ha) b hb k hkL

/-- A curve holds a rearrangement of the keys that were added to it. -/
lemma ofKeys_rearranged : Rearranged Key.time L (ofKeys L).keys where
  perm := (ofKeys_ordered_perm h (List.Subset.refl L)).2.symm
  stable _ hb := (simultaneous_ofKeys h (List.Subset.refl L) hb).symm

end Comparable

/-- Keys in order are determined by those that stand at each time. -/
lemma Ordered.eq_of_rearranged (hc : Comparable Key.time keys) (h : Ordered keys)
    (hl : Ordered l) (hr : Rearranged Key.time keys l) : keys = l := by
  induction keys generalizing l with
  | nil => exact hr.perm.nil_eq
  | cons a keys ih =>
    cases l with
    | nil => exact absurd hr.perm.symm.nil_eq (List.cons_ne_nil a keys).symm
    | cons b l =>
      have ha : a ∈ a::keys := List.mem_cons_self
      have hb : b ∈ a::keys := hr.perm.symm.subset List.mem_cons_self
      have hab : a.time ≤ b.time := by
        rcases List.mem_cons.mp hb with rfl | hb
        · exact hc.refl ha
        · exact (List.pairwise_cons.mp h).1 b hb
      have hba : b.time ≤ a.time := by
        rcases List.mem_cons.mp (hr.perm.subset ha) with rfl | ha
        · exact hc.refl hb
        · exact (List.pairwise_cons.mp hl).1 a ha
      -- both lists have their first key at the head of the keys of this time
      have hheads := hr.stable a ha
      rw [simultaneous_cons,simultaneous_cons,if_pos ⟨hc.refl ha,hc.refl ha⟩,if_pos ⟨hba,hab⟩]
        at hheads
      obtain ⟨rfl,-⟩ := List.cons_eq_cons.mp hheads
      congr 1
      refine ih (hc.subset (List.subset_cons_self ..)) (List.pairwise_cons.mp h).2
        (List.pairwise_cons.mp hl).2 ⟨hr.perm.cons_inv,fun d hd => ?_⟩
      have htails := hr.stable d (List.mem_cons_of_mem a hd)
      rw [simultaneous_cons,simultaneous_cons] at htails
      split at htails
      · exact (List.cons_eq_cons.mp htails).2
      · exact htails

/-- Keys that are rearranged make the same curve. -/
lemma ofKeys_congr {l l' : List (Key α)} (hc : Comparable Key.time l)
    (h : Rearranged Key.time l l') : ofKeys l = ofKeys l' := by
  have hc' := hc.subset h.perm.symm.subset
  obtain ⟨ho,hp⟩ := ofKeys_ordered_perm hc (List.Subset.refl l)
  obtain ⟨ho',hp'⟩ := ofKeys_ordered_perm hc' (List.Subset.refl l')
  have hkeys : Rearranged Key.time (ofKeys l).keys (ofKeys l').keys := by
    refine ⟨hp.trans (h.perm.trans hp'.symm),fun k hk => ?_⟩
    have hkl := hp.subset hk
    rw [simultaneous_ofKeys hc (List.Subset.refl l) hkl,h.stable k hkl,
      simultaneous_ofKeys hc' (List.Subset.refl l') (h.perm.subset hkl)]
  exact congrArg Curve.mk (ho.eq_of_rearranged (hc.subset hp.subset) ho' hkeys)

end Curve
end RigPack
