import Mathlib.Tactic
import RigPack.Proofs.Motion.Insertion
import RigPack.Proofs.Numeric.Exact

/-!
Curves in exact arithmetic. The keys stand in the order of their times, so halving finds the place
of a time, and between two neighbouring keys the curve runs as the two of them say.
-/

namespace RigPack

variable {K : Type} [Field K] [LinearOrder K]

/-- Exact numbers can be compared. -/
lemma Comparable.of_exact {β : Type} (time : β → K) (l : List β) : Comparable time l where
  total _ _ _ _ := le_total _ _
  trans _ _ _ _ _ _ := le_trans

namespace Curve

variable {keys : List (Key K)} {t : K} {c : Curve K}

lemma fits (keys : List (Key K)) (t : K) : Fits keys t :=
  fun _ _ _ _ => le_trans

lemma ofKeys_ordered (l : List (Key K)) : Ordered (ofKeys l).keys :=
  (ofKeys_ordered_perm (Comparable.of_exact Key.time l) (List.Subset.refl l)).1

/-- Keys that are in order already stay as they are. -/
lemma ofKeys_keys (h : Ordered keys) : (ofKeys keys).keys = keys :=
  have hc := Comparable.of_exact Key.time keys
  (h.eq_of_rearranged hc (ofKeys_ordered keys) (ofKeys_rearranged hc)).symm

/-- Between two neighbouring keys the curve is evaluated from the two of them. -/
lemma eval_eq_between (h : Ordered c.keys) {i : Nat} {a b : Key K} (ha : c.keys[i]? = some a)
    (hb : c.keys[i + 1]? = some b) (hat : a.time ≤ t) (htb : t < b.time) :
    c.eval t =
      between (if i = 0 then none else c.keys[i - 1]?) a b c.keys[i + 2]? t := by
  have hplace : c.placeAfter t = i + 1 :=
    (placeAfter_parts h (fits _ t)).eq ha hb hat (not_le_of_gt htb)
  simp only [eval,hplace,ha,hb]

/-- The fraction of a segment at which a time stands. -/
def fraction (a b : Key K) (t : K) : K :=
  (t - a.time) / (b.time - a.time)

variable [IsStrictOrderedRing K]

lemma between_eq {a b : Key K} (hab : a.time < b.time) (before beyond : Option (Key K)) (t : K) :
    between before a b beyond t =
      if a.interpolation = .catmullRom ∨ b.interpolation = .catmullRom then
        catmullRom ((before.map Key.outgoing).getD a.outgoing) a.outgoing b.value
          ((beyond.map Key.value).getD b.value) (fraction a b t)
      else if a.interpolation = .step then a.outgoing
      else a.outgoing + (b.value - a.outgoing).scale (fraction a b t) := by
  have hspan : ¬b.time - a.time ≤ ((0 : Nat) : K) := by
    rw [Nat.cast_zero]
    exact not_le_of_gt (sub_pos.mpr hab)
  simp only [between]
  rw [if_neg hspan,← Vec3.lerp_eq]
  rfl

/-- A segment is shaped by the key that it leaves, if no spline ends at the other key. If one ends
there, the segment is that spline whatever the key that it leaves says. -/
theorem eval_segment (l : List (Key K)) {i : Nat} {a b : Key K}
    (ha : (ofKeys l).keys[i]? = some a) (hb : (ofKeys l).keys[i + 1]? = some b) {t : K}
    (hat : a.time ≤ t) (htb : t < b.time) :
    (b.interpolation ≠ .catmullRom →
      (a.interpolation = .step → (ofKeys l).eval t = a.outgoing) ∧
      (a.interpolation = .linear → (ofKeys l).eval t =
        a.outgoing + (b.value - a.outgoing).scale ((t - a.time) / (b.time - a.time)))) ∧
    (a.interpolation = .catmullRom ∨ b.interpolation = .catmullRom →
      (ofKeys l).eval t = catmullRom
        (((if i = 0 then none else (ofKeys l).keys[i - 1]?).map Key.outgoing).getD a.outgoing)
        a.outgoing b.value (((ofKeys l).keys[i + 2]?.map Key.value).getD b.value)
        ((t - a.time) / (b.time - a.time))) := by
  rw [eval_eq_between (ofKeys_ordered l) ha hb hat htb,between_eq (hat.trans_lt htb)]
  refine ⟨fun hplain => ⟨fun hstep => ?_,fun hlinear => ?_⟩,fun hspline => if_pos hspline⟩
  · rw [if_neg (by simp [hstep,hplain]),if_pos hstep]
  · rw [if_neg (by simp [hlinear,hplain]),if_neg (by simp [hlinear])]
    rfl

/-- A step and a straight line, each before a plain key and before a spline's key. -/
def mixed : List (Key ℚ) :=
  [⟨0,⟨0,0,0⟩,none,.step⟩,⟨1,⟨4,4,4⟩,none,.catmullRom⟩,⟨2,⟨0,0,0⟩,none,.step⟩,
    ⟨3,⟨4,4,4⟩,some ⟨8,8,8⟩,.linear⟩,⟨4,⟨0,0,0⟩,none,.linear⟩]

lemma mixed_keys : (ofKeys mixed).keys = mixed :=
  ofKeys_keys (by norm_num [Ordered,mixed])

/-- The step before a plain key is held, the line behind it runs from the value after its jump, and
the step before a spline's key is bent. -/
theorem mixed_segments :
    (ofKeys mixed).eval (5 / 2) = ⟨0,0,0⟩ ∧ (ofKeys mixed).eval (13 / 4) = ⟨6,6,6⟩ ∧
    (ofKeys mixed).eval (1 / 2) = ⟨9 / 4,9 / 4,9 / 4⟩ := by
  have hkeys := mixed_keys
  refine ⟨?_,?_,?_⟩
  · exact ((eval_segment mixed (i := 2) (t := 5 / 2) (by rw [hkeys]; rfl) (by rw [hkeys]; rfl)
      (by norm_num) (by norm_num)).1 (by decide)).1 rfl
  · rw [((eval_segment mixed (i := 3) (by rw [hkeys]; rfl) (by rw [hkeys]; rfl) (by norm_num)
      (by norm_num)).1 (by decide)).2 rfl]
    decide +kernel
  · rw [(eval_segment mixed (i := 0) (by rw [hkeys]; rfl) (by rw [hkeys]; rfl) (by norm_num)
      (by norm_num)).2 (.inr rfl),hkeys]
    decide +kernel

/-- A step is not held if the next key ends a spline. -/
theorem step_not_held :
    ∃ a b : Key ℚ, (ofKeys mixed).keys[0]? = some a ∧ (ofKeys mixed).keys[1]? = some b ∧
      a.time ≤ 1 / 2 ∧ 1 / 2 < b.time ∧ a.interpolation = .step ∧
      (ofKeys mixed).eval (1 / 2) ≠ a.outgoing := by
  have hkeys := mixed_keys
  have ha : (ofKeys mixed).keys[0]? = some ⟨0,⟨0,0,0⟩,none,.step⟩ := by rw [hkeys]; rfl
  have hb : (ofKeys mixed).keys[1]? = some ⟨1,⟨4,4,4⟩,none,.catmullRom⟩ := by rw [hkeys]; rfl
  refine ⟨_,_,ha,hb,by norm_num,by norm_num,rfl,?_⟩
  rw [eval_eq_between (ofKeys_ordered mixed) ha hb (by norm_num) (by norm_num),
    between_eq (by norm_num),hkeys]
  decide +kernel

end Curve
end RigPack
