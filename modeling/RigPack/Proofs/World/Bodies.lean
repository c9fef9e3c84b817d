import RigPack.Proofs.World.Turns

/-!
What running a body does to a world in which any number of instances of any entities stand: the
proxies of the instance that runs it are posed, three scores of its root change, and nothing else.
-/

namespace RigPack

section Bodies

variable {N : Type} [Scalar N] {number : Float → N}

/-- A proxy that carries the tag of one leaf only is put where that leaf is placed. -/
lemma Stand.posed_of_only (s : Stand N) (x : Exporter) (p : Vec3 N) {placed : List (Placed Float)}
    {l : Placed Float} (hl : l ∈ placed) (ht : s.tags (x.tag l.leaf) = true)
    (honly : ∀ m ∈ placed, s.tags (x.tag m.leaf) = true → m = l) :
    s.posed number x p placed =
      s.put (p + (Exporter.offset l.world).map number) ((Exporter.turn l.world).map number) := by
  have hfind : placed.reverse.find? (fun m => s.tags (x.tag m.leaf)) = some l := by
    cases hm : placed.reverse.find? (fun m => s.tags (x.tag m.leaf)) with
    | none => exact absurd ht (List.find?_eq_none.mp hm l (List.mem_reverse.mpr hl))
    | some m =>
      have hmem := List.mem_reverse.mp (List.mem_of_find?_eq_some hm)
      have htag : s.tags (x.tag m.leaf) = true :=
        List.find?_some (p := fun m : Placed Float => s.tags (x.tag m.leaf)) hm
      rw [honly m hmem htag]
  unfold posed
  rw [hfind]

/-- Instances are isolated from one another. -/
theorem Entity.compile_body_isolates {disk : FileTree} {entity : Entity} {c c' : Context}
    {e : CompiledEntity} (hc : entity.compile disk c = (.ok e,c')) {programs : Programs N}
    (hload : e.LoadedIn number programs) {a : CompiledAnimation} (ha : a ∈ e.animations)
    {f : Frame} (hf : f ∈ a.frames) {w : World N}
    (hactive : ∀ s ∈ w.stands, s.alive = true → s.tags Names.active = false)
    (hscored : ∀ s ∈ w.stands, s.isProxy = true →
      ∃ v, s.scores Names.id = some v ∧ w.registers.wrap v = v)
    {r : Nat} {s : Stand N} (hs : w.stands[r]? = some s) (hlive : s.alive = true)
    (hroot : s.tags Names.proxy = false) {A : Int} (hid : s.scores Names.id = some A)
    (hheld : w.registers.wrap A = A)
    (hparts : ∀ l ∈ e.leaves, ∃! i : Nat, ∃ t : Stand N, w.stands[i]? = some t ∧ t.isOwn A = true ∧
      t.tags (Names.partTag e.name l.name) = true)
    (hothers : ∀ t ∈ w.stands, t.isOwn A = true →
      ∃ l ∈ e.leaves, t.tags (Names.partTag e.name l.name) = true) :
    ∃ w', w.runAs programs r f.bodyPath = some w' ∧
      w'.stands.length = w.stands.length ∧
      -- The tick places every part as its animation has it at the tick's time.
      (∃ b ∈ entity.rig.animations, b.name = a.plan.name ∧
        f.placed = (Skeleton.bind entity.rig.roots b.tracks e.leaves).placedAt
          (tickSeconds f.tick) Mat4.identity) ∧
      f.placed.map Placed.leaf = e.leaves ∧
      -- Each proxy of the instance is put where the tick places its own part.
      (∀ (i : Nat) (t : Stand N), w.stands[i]? = some t → t.isOwn A = true →
        ∃ l ∈ f.placed, t.tags (Names.partTag e.name l.leaf.name) = true ∧
          ((∀ m ∈ f.placed, t.tags (Names.partTag e.name m.leaf.name) = true → m = l) →
            w'.stands[i]? = some ((t.put (s.position + (Exporter.offset l.world).map number)
              ((Exporter.turn l.world).map number)).setTag Names.unposed false))) ∧
      -- Every other stand is as it was.
      (∀ (i : Nat) (t : Stand N), w.stands[i]? = some t → i ≠ r → t.isOwn A = false →
        w'.stands[i]? = some t) ∧
      -- The root keeps all but three scores.
      (∃ s', w'.stands[r]? = some s' ∧ s'.alive = s.alive ∧ s'.tags = s.tags ∧
        s'.position = s.position ∧ s'.head = s.head ∧ s'.customId = s.customId ∧
        ∀ o, o ≠ Names.frame → o ≠ Names.next → o ≠ Names.pending →
          s'.scores o = s.scores o) ∧
      (∀ (i : Nat) (t t' : Stand N), w.stands[i]? = some t → w'.stands[i]? = some t' →
        t'.scores Names.id = t.scores Names.id) ∧
      ∀ t ∈ w'.stands, t.alive = true → t.tags Names.active = false := by
  let x : Exporter := ⟨entity.rig.name,c.options.space,c.options.item⟩
  have h : e.Lawful x := Entity.compile_lawful hc
  have hl := h.frame ha hf
  have htag (l : Leaf Float) : Names.partTag e.name l.name = x.tag l := by
    rw [h.name]
    rfl
  simp only [htag] at hparts hothers ⊢
  have hone : ∀ l ∈ e.leaves, ∀ (i j : Nat) (s t : Stand N), w.stands[i]? = some s →
      w.stands[j]? = some t → s.isOwn A = true → s.tags (x.tag l) = true →
      t.isOwn A = true → t.tags (x.tag l) = true → i = j := by
    intro l hm i j s t hi hj hso hst hto htt
    exact (hparts l hm).unique ⟨s,hi,hso,hst⟩ ⟨t,hj,hto,htt⟩
  generalize ht : e.turn a.plan f.tick (w.registers.wrap (s.score Names.next)) = t
  have hrun : w.runAs programs r f.bodyPath =
      some (w.played number x r s.position A f t) := by
    rw [World.runAs,hs,← ht]
    exact e.body_runs h hload ha hf ⟨hactive,hscored⟩ hs hlive hroot hid hheld hone 1
  have hrootOwn : s.isOwn A = false := s.isOwn_of_plain hroot A
  have hturned := s.turned_eq w.registers t
  have hcases {i : Nat} {u u' : Stand N} (hi : w.stands[i]? = some u)
      (hi' : (w.played number x r s.position A f t).stands[i]? = some u') :=
    World.played_cases number x s.position A f t hs hrootOwn hi hi'
  refine ⟨_,hrun,by simp,?_,hl.placed,?_,
    fun i u hi hne ho => World.other_played _ _ _ _ _ _ _ hi hne ho,
    ⟨_,World.runner_played _ _ _ _ _ _ hs hrootOwn,hturned⟩,?_,?_⟩
  · obtain ⟨b,hb,hname,hplaced⟩ := entity.compile_samples hc ha
    exact ⟨b,hb,hname,hplaced f hf⟩
  · intro i u hi ho
    obtain ⟨leaf,hleaf,htags⟩ := hothers u (List.mem_of_getElem? hi) ho
    rw [← hl.placed] at hleaf
    obtain ⟨l,hm,rfl⟩ := List.mem_map.mp hleaf
    refine ⟨l,hm,htags,fun honly => ?_⟩
    have hne : i ≠ r := by
      rintro rfl
      obtain rfl : s = u := Option.some.inj (hs.symm.trans hi)
      rw [hrootOwn] at ho
      cases ho
    rw [World.own_played _ _ _ _ _ _ _ hi hne ho,u.posed_of_only x _ hm htags honly]
  · intro i u u' hi hi'
    rcases hcases hi hi' with rfl | ⟨rfl,rfl⟩ | rfl
    · rfl
    · exact hturned.2.2.2.2.2 _ (by decide) (by decide) (by decide)
    · rw [Stand.scores_setTag,Stand.scores_posed]
  · intro u' hm halive
    obtain ⟨i,hi'⟩ := List.mem_iff_getElem?.mp hm
    have hi'' := hi'
    rw [World.getElem?_played,Option.map_eq_some_iff] at hi''
    obtain ⟨u,hi,_⟩ := hi''
    have hu := hactive u (List.mem_of_getElem? hi)
    rcases hcases hi hi' with rfl | ⟨rfl,rfl⟩ | rfl
    · exact hu halive
    · rw [hturned.2.1]
      exact hu (hturned.1 ▸ halive)
    · rw [Stand.tags_setTag,if_neg (by decide),Stand.tags_posed]
      exact hu (by simpa using halive)

end Bodies

section Waver

/-- A rig with one part and one animation of two ticks. -/
def waver : Entity where
  rig := {
    name := "waver"
    textures := []
    roots := [.bone ⟨"shoulder", "shoulder", ⟨0, 24, 0⟩, ⟨0, 0, 0⟩⟩ [.part
      { name := "arm", low := ⟨0, 12, 0⟩, high := ⟨4, 24, 4⟩, origin := ⟨2, 24, 2⟩,
        rotation := ⟨0, 0, 0⟩, faces := {}, customId := none }]]
    animations := [⟨"wave", 0.05, "loop", ∅⟩] }
  base := ⟨["."]⟩

lemma waver_compiles : ∃ e c', waver.compile {} ⟨{},0,1,[]⟩ = (.ok e,c') ∧ e.name = "waver" ∧
    e.leaves.map Leaf.name = ["arm"] ∧
    e.animations.map CompiledAnimation.plan = [⟨"wave",.loop,1,0⟩] := by
  have h : (match (waver.compile {} ⟨{},0,1,[]⟩).1 with
      | .ok e => decide (e.name = "waver" ∧ e.leaves.map Leaf.name = ["arm"] ∧
        e.animations.map CompiledAnimation.plan = [⟨"wave",.loop,1,0⟩])
      | .error _ => false) = true := by decide +kernel
  generalize hc : waver.compile {} ⟨{},0,1,[]⟩ = result at h
  obtain ⟨result,c'⟩ := result
  cases result with
  | error e => simp at h
  | ok e => exact ⟨e,c',rfl,of_decide_eq_true h⟩

/-- A root of this entity, and the proxy of its part. -/
def waverRoot (v : Int) : Stand Float :=
  { tags := (· = Names.entityTag "waver"),
    scores := fun o => if o = Names.id then some v else none
    position := ⟨0, 64, 0⟩ }

def waverArm (v : Int) : Stand Float :=
  { tags := fun t => t = Names.proxy ∨ t = Names.partTag "waver" "arm"
    scores := fun o => if o = Names.id then some v else none
    position := ⟨0, 64, 0⟩ }

/-- Of two instances one runs a body, and the proxy of the other stays as it is. -/
theorem waver_body_isolates : ∃ e c', waver.compile {} ⟨{},0,1,[]⟩ = (.ok e,c') ∧
    ∀ a ∈ e.animations, ∀ f ∈ a.frames, ∃ w',
      World.runAs (Programs.ofEntities (fun v => v) [e])
        { stands := [waverRoot 1,waverArm 1,waverRoot 2,waverArm 2] } 0 f.bodyPath = some w' ∧
      w'.stands[3]? = some (waverArm 2) := by
  obtain ⟨e,c',hc,hname,hleaves,_⟩ := waver_compiles
  have hload : e.LoadedIn (fun v : Float => v) (Programs.ofEntities (fun v => v) [e]) :=
    Programs.ofEntities_loaded _ (by simp)
      (fun d hd => ⟨_,rfl,List.mem_singleton.mp hd ▸ Entity.compile_lawful hc⟩)
      List.mem_cons_self
  have hleaf : ∀ l ∈ e.leaves, l.name = "arm" := by
    intro l hl
    have hm := List.mem_map_of_mem (f := Leaf.name) hl
    rw [hleaves] at hm
    exact List.mem_singleton.mp hm
  have harm : ∃ l ∈ e.leaves, l.name = "arm" := by
    have hm : "arm" ∈ e.leaves.map Leaf.name := by simp [hleaves]
    exact List.mem_map.mp hm
  have hactive : ∀ s ∈ [waverRoot 1,waverArm 1,waverRoot 2,waverArm 2], s.alive = true →
      s.tags Names.active = false := by
    simp only [List.forall_mem_cons,List.not_mem_nil,false_implies,implies_true,and_true]
    decide
  have hscored : ∀ s ∈ [waverRoot 1,waverArm 1,waverRoot 2,waverArm 2], s.isProxy = true →
      ∃ v, s.scores Names.id = some v ∧ Registers.unbounded.wrap v = v := by
    simp [waverRoot,waverArm,Registers.wrap]
  have hcarry (v : Int) : (waverArm v).tags (Names.partTag e.name "arm") = true := by
    simp [waverArm,hname]
  have hplain : ∀ i t, [waverRoot 1,waverArm 1,waverRoot 2,waverArm 2][i]? = some t →
      t.isOwn 1 = true → i = 1 ∧ t = waverArm 1 := by
    intro i t hi ho
    have hlt : i < 4 := (List.getElem?_eq_some_iff.mp hi).1
    interval_cases i
    · exact absurd (Option.some.inj hi ▸ ho : (waverRoot 1).isOwn 1 = true) (by decide)
    · exact ⟨rfl,(Option.some.inj hi).symm⟩
    · exact absurd (Option.some.inj hi ▸ ho : (waverRoot 2).isOwn 1 = true) (by decide)
    · exact absurd (Option.some.inj hi ▸ ho : (waverArm 2).isOwn 1 = true) (by decide)
  refine ⟨e,c',hc,fun a ha f hf => ?_⟩
  obtain ⟨w',hrun,_,_,_,_,hother,_⟩ := Entity.compile_body_isolates hc hload ha hf
    (w := { stands := [waverRoot 1,waverArm 1,waverRoot 2,waverArm 2] }) (r := 0)
    (s := waverRoot 1) (A := 1) hactive hscored rfl rfl (by decide) rfl rfl
    (by
      intro l hl
      rw [hleaf l hl]
      refine ⟨1,⟨waverArm 1,rfl,by decide,hcarry 1⟩,?_⟩
      rintro i ⟨t,hi,ho,_⟩
      exact (hplain i t hi ho).1)
    (by
      intro t ht ho
      obtain ⟨i,hi⟩ := List.mem_iff_getElem?.mp ht
      obtain ⟨l,hl,hn⟩ := harm
      exact ⟨l,hl,by rw [hn,(hplain i t hi ho).2]; exact hcarry 1⟩)
  exact ⟨w',hrun,hother 3 (waverArm 2) rfl (by decide) (by decide)⟩

end Waver

end RigPack
