import Mathlib.Tactic
import RigPack.Proofs.Motion.Curve
import RigPack.Proofs.Numeric.Angles
import RigPack.Proofs.Rig.Walk
import RigPack.Skeleton.Sample

/-!
What binding reads of keyframe tracks. A bone's motion depends on the keyframes of position and of
rotation that have a value, in the track of this bone, and on the order of those of one time only.
-/

namespace RigPack

section Times

variable {α β γ : Type} [Scalar α] {time : β → α} {time' : γ → α} {f : β → Option γ} {l l' : List β}

lemma Comparable.filterMap (h : Comparable time l) (hf : ∀ b c, f b = some c → time' c = time b) :
    Comparable time' (l.filterMap f) where
  total c hc d hd := by
    obtain ⟨a,ha,hfa⟩ := List.mem_filterMap.mp hc
    obtain ⟨b,hb,hfb⟩ := List.mem_filterMap.mp hd
    rw [hf a c hfa,hf b d hfb]
    exact h.total a ha b hb
  trans c hc d hd e he := by
    obtain ⟨a,ha,hfa⟩ := List.mem_filterMap.mp hc
    obtain ⟨b,hb,hfb⟩ := List.mem_filterMap.mp hd
    obtain ⟨b',hb',hfb'⟩ := List.mem_filterMap.mp he
    rw [hf a c hfa,hf b d hfb,hf b' e hfb']
    exact h.trans a ha b hb b' hb'

lemma simultaneous_filterMap (hf : ∀ b c, f b = some c → time' c = time b) (s : α) (l : List β) :
    simultaneous time' s (l.filterMap f) = (simultaneous time s l).filterMap f := by
  induction l with
  | nil => rfl
  | cons b l ih =>
    rw [simultaneous_cons]
    cases hfb : f b with
    | none =>
      rw [List.filterMap_cons_none hfb,ih]
      split_ifs
      · rw [List.filterMap_cons_none hfb]
      · rfl
    | some c =>
      rw [List.filterMap_cons_some hfb,simultaneous_cons,hf b c hfb,ih]
      split_ifs
      · rw [List.filterMap_cons_some hfb]
      · rfl

/-- What is made of the entries one by one, at their times, is rearranged as they are. -/
lemma Rearranged.filterMap (h : Rearranged time l l') (hf : ∀ b c, f b = some c → time' c = time b) :
    Rearranged time' (l.filterMap f) (l'.filterMap f) where
  perm := h.perm.filterMap f
  stable c hc := by
    obtain ⟨b,hb,hfb⟩ := List.mem_filterMap.mp hc
    rw [simultaneous_filterMap hf,simultaneous_filterMap hf,hf b c hfb,h.stable b hb]

end Times

namespace Keyframe

variable {α : Type}

/-- What of a track can matter to a channel: the keyframes of this channel that have a value, each
with two of its values at most. -/
def telling (channel : Channel) (track : List (Keyframe α)) : List (Keyframe α) :=
  (track.filter fun k => k.channel = channel ∧ k.points ≠ []).map fun k =>
    { k with points := k.points.take 2 }

lemma key?_take (k : Keyframe α) : key? { k with points := k.points.take 2 } = k.key? := by
  obtain ⟨channel,time,interpolation,points⟩ := k
  cases points with
  | nil => rfl
  | cons value rest => cases rest <;> rfl

lemma keysOf_eq (channel : Channel) (track : List (Keyframe α)) :
    keysOf channel track = (telling channel track).filterMap key? := by
  rw [keysOf,telling,List.filterMap_map,List.filterMap_filter,List.filterMap_filter]
  refine List.filterMap_congr fun k _ => ?_
  have hk : (key? ∘ fun k => { k with points := k.points.take 2 }) k = k.key? := key?_take k
  rw [hk]
  cases hp : k.points with
  | nil => simp [key?,hp]
  | cons value rest => simp

lemma time_of_key? {k : Keyframe α} {key : Key α} (h : k.key? = some key) : key.time = k.time := by
  unfold key? at h
  split at h
  · cases h
  · cases h
    rfl

end Keyframe

namespace Skeleton

variable {α : Type} {tracks tracks' : Tracks α} {leaves : List (Leaf α)}

/-- The keyframes that a bone finds under its name. -/
def trackOf (tracks : Tracks α) (b : Bone α) : List (Keyframe α) :=
  (tracks[b.uuid]?).getD []

lemma trackOf_insert (tracks : Tracks α) (name : String) (track : List (Keyframe α)) (b : Bone α) :
    trackOf (tracks.insert name track) b = if name = b.uuid then track else trackOf tracks b := by
  simp only [trackOf,Std.ExtTreeMap.getElem?_insert,Std.LawfulEqCmp.compare_eq_iff_eq]
  split_ifs <;> rfl

lemma joint_congr [Scalar α] {b : Bone α}
    (hc : ∀ channel ∈ [Channel.position,.rotation],
      Comparable Keyframe.time (Keyframe.telling channel (trackOf tracks b)))
    (h : ∀ channel ∈ [Channel.position,.rotation],
      Rearranged Keyframe.time (Keyframe.telling channel (trackOf tracks b))
        (Keyframe.telling channel (trackOf tracks' b))) :
    joint tracks b = joint tracks' b := by
  have hcurve (channel : Channel) (hmem : channel ∈ [Channel.position,.rotation]) :
      Curve.ofKeys (Keyframe.keysOf channel (trackOf tracks b)) =
        Curve.ofKeys (Keyframe.keysOf channel (trackOf tracks' b)) := by
    rw [Keyframe.keysOf_eq,Keyframe.keysOf_eq]
    exact Curve.ofKeys_congr ((hc channel hmem).filterMap fun _ _ => Keyframe.time_of_key?)
      ((h channel hmem).filterMap fun _ _ => Keyframe.time_of_key?)
  exact congrArg₂ (Joint.mk b) (hcurve .position (by simp)) (hcurve .rotation (by simp))

mutual

lemma bindNode_congr [Scalar α] (n : Node α)
    (h : ∀ b, .inl b ∈ n.contents → joint tracks b = joint tracks' b) :
    bindNode tracks leaves n = bindNode tracks' leaves n := by
  cases n with
  | part p => rfl
  | bone b children =>
    rw [Node.contents] at h
    rw [bindNode,bindNode,h b List.mem_cons_self,
      bindForest_congr children fun c hc => h c (List.mem_cons_of_mem _ hc)]

/-- Only the joints of bones that there are count. -/
lemma bindForest_congr [Scalar α] (roots : List (Node α))
    (h : ∀ b, .inl b ∈ Node.contentsOf roots → joint tracks b = joint tracks' b) :
    bindForest tracks leaves roots = bindForest tracks' leaves roots := by
  cases roots with
  | nil => rfl
  | cons n rest =>
    rw [Node.contentsOf] at h
    rw [bindForest,bindForest,bindNode_congr n fun b hb => h b (List.mem_append_left _ hb),
      bindForest_congr rest fun b hb => h b (List.mem_append_right _ hb)]

end

/-- Binding depends on the telling keyframes of the forest's bones only, and not on the order of
those of different times: tracks that agree in this make the same skeleton, which at every time and
under every parent places its leaves alike. -/
theorem bind_eq_of_telling [Trigonometric α] (roots : List (Node α)) (leaves : List (Leaf α))
    (tracks tracks' : Tracks α)
    (hc : ∀ b ∈ Node.bonesOf roots, ∀ channel ∈ [Channel.position,.rotation],
      Comparable Keyframe.time (Keyframe.telling channel (trackOf tracks b)))
    (h : ∀ b ∈ Node.bonesOf roots, ∀ channel ∈ [Channel.position,.rotation],
      Rearranged Keyframe.time (Keyframe.telling channel (trackOf tracks b))
        (Keyframe.telling channel (trackOf tracks' b))) :
    bind roots tracks leaves = bind roots tracks' leaves ∧
    ∀ t P, (bind roots tracks leaves).placedAt t P = (bind roots tracks' leaves).placedAt t P := by
  have hbones (b : Bone α) (hb : .inl b ∈ Node.contentsOf roots) : b ∈ Node.bonesOf roots :=
    List.mem_filterMap.mpr ⟨.inl b,hb,rfl⟩
  have hbind : bind roots tracks leaves = bind roots tracks' leaves := by
    rw [bind,bind,bindForest_congr roots fun b hb =>
      joint_congr (hc b (hbones b hb)) (h b (hbones b hb))]
  exact ⟨hbind,fun t P => by rw [hbind]⟩

/-- What hangs on the lower of two bones. -/
def hook : Part ℝ :=
  ⟨"hook",⟨0,0,0⟩,⟨1,1,1⟩,⟨0,1,1⟩,⟨0,0,0⟩,{},none⟩

/-- A bone that has a track above one that has none. -/
def derrick : List (Node ℝ) :=
  [.bone ⟨"mast","mast",⟨0,1,0⟩,⟨0,0,0⟩⟩ [.bone ⟨"jib","jib",⟨1,1,0⟩,⟨0,0,1⟩⟩ [.part hook]]]

/-- A turn, and a move that starts with two keyframes of one time. -/
def written : List (Keyframe ℝ) :=
  [⟨.position,1,.linear,[⟨0,-1,0⟩]⟩,⟨.rotation,0,.step,[⟨0,1,0⟩]⟩,
    ⟨.position,0,.linear,[⟨0,0,0⟩,⟨0,1,0⟩]⟩,⟨.position,0,.catmullRom,[⟨1,0,0⟩]⟩]

/-- The same in another order, among keyframes that do not count. -/
def rewritten : List (Keyframe ℝ) :=
  [⟨.unsupported,0,.linear,[⟨1,1,1⟩]⟩,⟨.position,0,.linear,[⟨0,0,0⟩,⟨0,1,0⟩,⟨1,1,1⟩]⟩,
    ⟨.position,-1,.linear,[]⟩,⟨.position,0,.catmullRom,[⟨1,0,0⟩]⟩,⟨.position,1,.linear,[⟨0,-1,0⟩]⟩,
    ⟨.rotation,0,.step,[⟨0,1,0⟩]⟩]

lemma rewritten_telling : ∀ channel ∈ [Channel.position,.rotation],
    Rearranged Keyframe.time (Keyframe.telling channel written)
      (Keyframe.telling channel rewritten) := by
  intro channel hchannel
  simp only [List.mem_cons,List.not_mem_nil,or_false] at hchannel
  rcases hchannel with rfl | rfl
  · constructor
    · exact (List.perm_append_singleton _ [_,_]).symm
    · intro k hk
      simp only [Keyframe.telling,written,rewritten] at hk ⊢
      simp at hk
      rcases hk with rfl | rfl | rfl <;> simp [simultaneous]
  · exact ⟨.refl _,fun _ _ => rfl⟩

/-- Both are bound alike, the second beside a track of no bone, and move the hook alike. -/
theorem derrick_bound_alike :
    bind derrick ((∅ : Tracks ℝ).insert "mast" written) [hook.withId 1] =
      bind derrick (((∅ : Tracks ℝ).insert "mast" rewritten).insert "stray" written)
        [hook.withId 1] ∧
    (bind derrick ((∅ : Tracks ℝ).insert "mast" written) [hook.withId 1]).placedAt 1 .identity =
      (bind derrick (((∅ : Tracks ℝ).insert "mast" rewritten).insert "stray" written)
        [hook.withId 1]).placedAt 1 .identity := by
  have halike := bind_eq_of_telling derrick [hook.withId 1] ((∅ : Tracks ℝ).insert "mast" written)
    (((∅ : Tracks ℝ).insert "mast" rewritten).insert "stray" written)
    (fun _ _ _ _ => .of_exact ..) fun b hb => ?_
  · exact ⟨halike.1,halike.2 1 .identity⟩
  have hb : b = ⟨"mast","mast",⟨0,1,0⟩,⟨0,0,0⟩⟩ ∨ b = ⟨"jib","jib",⟨1,1,0⟩,⟨0,0,1⟩⟩ := by
    simpa [derrick,Node.bonesOf,Node.contentsOf,Node.contents] using hb
  rcases hb with rfl | rfl
  · simpa [trackOf_insert] using rewritten_telling
  · intro channel _
    have hnone : trackOf (∅ : Tracks ℝ) ⟨"jib","jib",⟨1,1,0⟩,⟨0,0,1⟩⟩ = [] := by simp [trackOf]
    simp only [trackOf_insert,hnone,String.reduceEq,if_false]
    exact ⟨.refl _,fun _ _ => rfl⟩

end Skeleton
end RigPack
