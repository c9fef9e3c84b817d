import Mathlib
import RigPack.Proofs.Pack.Compiled

/-!
The ids of entities that are compiled in one context, over its whole life. What one entity got is
out of reach for all later ones: its frame ids lie below the counter of frames, and its custom ids
stand among those in use. Compilations that fail may leave ids taken, but they give none back.
-/

namespace RigPack

/-- A compilation gives nothing back, at whatever stage it may fail. -/
lemma Entity.compile_taking (disk : FileTree) (entity : Entity) :
    Compiling.Taking (entity.compile disk) := by
  unfold Entity.compile
  refine .bind (.of_lift _) fun _ => .check ?_
  refine .bind .of_get fun _ => .bind (Context.reserve_taking _) fun _ => ?_
  refine .bind (.mapM (fun p => ?_) _) fun _ => ?_
  · exact .bind (Context.customIdFor_taking p) fun _ => .of_pure _
  refine .bind (.of_lift _) fun _ => .bind (Compile.animations_taking _) fun _ => ?_
  exact .bind (.of_lift _) fun _ => .of_pure _

/-- The frame ids of an animation. -/
def Plan.frameIds (p : Plan) : Finset Nat :=
  Finset.Icc p.firstFrame (p.firstFrame + p.lastTick)

lemma Plan.disjoint_frameIds {p q : Plan} (h : p.firstFrame + p.lastTick < q.firstFrame) :
    Disjoint p.frameIds q.frameIds := by
  rw [Finset.disjoint_left]
  intro id hp hq
  have := (Finset.mem_Icc.mp hp).2
  have := (Finset.mem_Icc.mp hq).1
  omega

/-- What an entity takes from a context, which is at `c` before and at `c'` afterwards. -/
structure CompiledEntity.Issued (e : CompiledEntity) (rig : Rig Float) (c c' : Context) : Prop where
  nodup : (e.leaves.map Leaf.customId).Nodup
  free : ∀ l ∈ e.leaves, l.customId ∉ c.usedCustomIds
  used : ∀ l ∈ e.leaves, l.customId ∈ c'.usedCustomIds
  each : List.Forall₂ (fun p l => l = p.withId l.customId ∧
    (∀ id, p.customId = some id → l.customId = id) ∧
      (p.customId = none → c.nextCustomId.toNat ≤ l.customId.toNat ∧
        l.customId ∉ Part.chosenIds (Node.partsOf rig.roots))) (Node.partsOf rig.roots) e.leaves
  chosen : ∀ id ∈ Part.chosenIds (Node.partsOf rig.roots), id ∈ e.leaves.map Leaf.customId
  frames : Compile.Numbered c c' e.animations

lemma Entity.Prepared.issued {disk : FileTree} {entity : Entity} {x : Exporter}
    {store : TextureStore} {e : CompiledEntity} {c c₁ c₂ c' : Context}
    (h : entity.Prepared disk x store e c c₁ c₂ c') : e.Issued entity.rig c c' := by
  obtain ⟨hchosen,hfree,rfl⟩ := Context.reserve_ok_iff.mp h.reserved
  obtain ⟨ids,ha⟩ := Context.leaves_ok h.leaves
  have hgrown : c₂.Grows c' := by
    have htaken : Context.Grows c₂
        (entity.rig.animations.mapM (Compile.animation e.functions x entity.rig e.leaves) c₂).2 :=
      Compile.animations_taking _ c₂
    rwa [h.animations] at htaken
  have hids : ∀ id ∈ ids, id ∉ Part.chosenIds (Node.partsOf entity.rig.roots) ∧
      id ∉ c.usedCustomIds := by
    intro id hid
    simpa [List.mem_append] using (ha.free id hid).2
  have hmem : ∀ l ∈ e.leaves, l.customId ∈ Part.chosenIds (Node.partsOf entity.rig.roots) ++ ids :=
    fun l hl => ha.perm.mem_iff.mp (List.mem_map_of_mem hl)
  refine ⟨?_,?_,?_,?_,?_,?_⟩
  · refine ha.perm.nodup_iff.mpr (hchosen.append ha.nodup ?_)
    exact fun id hid hid' => (hids id hid').1 hid
  · intro l hl
    rcases List.mem_append.mp (hmem l hl) with hid | hid
    · exact hfree _ hid
    · exact (hids _ hid).2
  · intro l hl
    have hl := hmem l hl
    refine hgrown.used _ ?_
    simp only [ha.used,List.mem_append,List.mem_reverse] at hl ⊢
    tauto
  · exact ha.each.imp fun p l hl => ⟨hl.1,hl.2.1,fun hp =>
      ⟨(ha.free _ (hl.2.2 hp)).1,(hids _ (hl.2.2 hp)).1⟩⟩
  · exact fun id hid => ha.perm.mem_iff.mpr (List.mem_append_left _ hid)
  · obtain ⟨htotal,hwithin,hapart,hlimit⟩ := Compile.animations_ok h.animations
    rw [ha.nextFrame] at htotal hwithin hlimit
    exact ⟨htotal,hwithin,hapart,hlimit⟩

lemma Entity.compile_issued {disk : FileTree} {entity : Entity} {c c' : Context}
    {e : CompiledEntity} (h : entity.compile disk c = (.ok e,c')) : e.Issued entity.rig c c' := by
  obtain ⟨_,_,_,_,hp,_⟩ := compile_ok h
  exact hp.issued

/-- What comes of entities that are compiled one after another in one context, each from the disk as
it then is. A compilation that fails is passed over. -/
def Entity.compileEach : List (FileTree × Entity) → Context → List (Entity × CompiledEntity)
  | [],_ => []
  | (disk,entity)::calls,c =>
    match entity.compile disk c with
    | (.ok e,c') => (entity,e)::compileEach calls c'
    | (.error _,c') => compileEach calls c'

namespace Entity

variable {calls : List (FileTree × Entity)} {c : Context}

/-- Each entity takes its ids from a later state of the first context. -/
lemma issued_of_mem {m : Entity × CompiledEntity} (hm : m ∈ compileEach calls c) :
    ∃ d d', c.Grows d ∧ m.2.Issued m.1.rig d d' := by
  induction calls generalizing c with
  | nil => cases hm
  | cons call calls ih =>
    obtain ⟨disk,entity⟩ := call
    have hgrown := entity.compile_taking disk c
    rw [compileEach] at hm
    cases h : entity.compile disk c with
    | mk result c' =>
      rw [h] at hm hgrown
      cases result with
      | error e =>
        obtain ⟨d,d',hd,hi⟩ := ih hm
        exact ⟨d,d',hgrown.trans hd,hi⟩
      | ok e =>
        rcases List.mem_cons.mp hm with rfl | hm
        · exact ⟨c,c',.refl c,compile_issued h⟩
        · obtain ⟨d,d',hd,hi⟩ := ih hm
          exact ⟨d,d',hgrown.trans hd,hi⟩

/-- Of two entities the later one takes its ids from what the earlier one has left. -/
lemma issued_apart (calls : List (FileTree × Entity)) (c : Context) :
    (compileEach calls c).Pairwise fun m n => ∃ d₁ d₂ d₃ d₄,
      m.2.Issued m.1.rig d₁ d₂ ∧ d₂.Grows d₃ ∧ n.2.Issued n.1.rig d₃ d₄ := by
  induction calls generalizing c with
  | nil => exact .nil
  | cons call calls ih =>
    obtain ⟨disk,entity⟩ := call
    rw [compileEach]
    cases h : entity.compile disk c with
    | mk result c' =>
      cases result with
      | error e => exact ih c'
      | ok e =>
        refine List.pairwise_cons.mpr ⟨fun n hn => ?_,ih c'⟩
        obtain ⟨d,d',hd,hi⟩ := issued_of_mem hn
        exact ⟨c,c',d,d',compile_issued h,hd,hi⟩

end Entity

namespace CompiledEntity.Issued

variable {d e : CompiledEntity} {rig rig' : Rig Float} {c c' c₁ c₂ : Context}

/-- What a later entity gets is not among the custom ids of an earlier one. -/
lemma customId_ne (hd : d.Issued rig c c') (hg : c'.Grows c₁) (he : e.Issued rig' c₁ c₂) :
    List.Disjoint (d.leaves.map Leaf.customId) (e.leaves.map Leaf.customId) := by
  intro id hid hid'
  obtain ⟨l,hl,rfl⟩ := List.mem_map.mp hid
  obtain ⟨k,hk,hsame⟩ := List.mem_map.mp hid'
  exact he.free k hk (hsame ▸ hg.used _ (hd.used l hl))

lemma frameIds_disjoint (hd : d.Issued rig c c') (hg : c'.Grows c₁) (he : e.Issued rig' c₁ c₂)
    {a b : CompiledAnimation} (ha : a ∈ d.animations) (hb : b ∈ e.animations) :
    Disjoint a.plan.frameIds b.plan.frameIds := by
  refine Plan.disjoint_frameIds ?_
  have hbelow := (hd.frames.within a ha).2.1
  have habove := (he.frames.within b hb).1
  exact hbelow.trans_le (hg.nextFrame.trans habove)

end CompiledEntity.Issued

/-- Over the whole life of a context, whichever compilations fail and wherever they do: the frame
ids of all animations of all compiled entities are told apart and fit the frame counter; so are the
custom ids of all their parts; an author's choice is kept; and what is not chosen lies from the
first id on and is no choice of the same or an earlier entity. -/
theorem Context.identities_unique {o : Options} {c : Context} (hc : Context.ofOptions o = .ok c)
    (calls : List (FileTree × Entity)) :
    let made := Entity.compileEach calls c
    let animations := made.flatMap fun m => m.2.animations
    (animations.Pairwise fun a b => Disjoint a.plan.frameIds b.plan.frameIds) ∧
    (∀ a ∈ animations, ∀ id ∈ a.plan.frameIds, id ≤ 2^31 - 2) ∧
    (made.flatMap fun m => m.2.leaves.map Leaf.customId).Nodup ∧
    (∀ m ∈ made, List.Forall₂ (fun p l => l = p.withId l.customId ∧
      (∀ id, p.customId = some id → l.customId = id) ∧
        (p.customId = none → o.firstCustomId ≤ l.customId))
      (Node.partsOf m.1.rig.roots) m.2.leaves) ∧
    ∀ (i j : Nat) (m n : Entity × CompiledEntity), i ≤ j → made[i]? = some m → made[j]? = some n →
      List.Forall₂ (fun p l => p.customId = none →
        l.customId ∉ Part.chosenIds (Node.partsOf m.1.rig.roots))
        (Node.partsOf n.1.rig.roots) n.2.leaves := by
  have hfirst : c.nextCustomId = o.firstCustomId := by
    obtain ⟨_,_,hc⟩ := Except.bind_ok hc
    cases hc
    rfl
  intro made animations
  refine ⟨?_,?_,?_,?_,?_⟩
  · refine List.pairwise_flatMap.mpr ⟨fun m hm => ?_,?_⟩
    · obtain ⟨d,d',_,hi⟩ := Entity.issued_of_mem hm
      exact hi.frames.apart.imp Plan.disjoint_frameIds
    · refine (Entity.issued_apart calls c).imp ?_
      rintro m n ⟨_,_,_,_,hm,hg,hn⟩ a ha b hb
      exact hm.frameIds_disjoint hg hn ha hb
  · intro a ha id hid
    obtain ⟨m,hm,ha⟩ := List.mem_flatMap.mp ha
    obtain ⟨d,d',_,hi⟩ := Entity.issued_of_mem hm
    have hlimit := (hi.frames.within a ha).2.2
    have hle := (Finset.mem_Icc.mp hid).2
    simp only [Context.frameLimit] at hlimit
    omega
  · refine List.nodup_flatMap.mpr ⟨fun m hm => ?_,?_⟩
    · obtain ⟨d,d',_,hi⟩ := Entity.issued_of_mem hm
      exact hi.nodup
    · refine (Entity.issued_apart calls c).imp ?_
      rintro m n ⟨_,_,_,_,hm,hg,hn⟩
      exact hm.customId_ne hg hn
  · intro m hm
    obtain ⟨d,d',hd,hi⟩ := Entity.issued_of_mem hm
    refine hi.each.imp fun p l hl => ⟨hl.1,hl.2.1,fun hp => ?_⟩
    rw [UInt32.le_iff_toNat_le,← hfirst]
    exact hd.nextCustomId.trans (hl.2.2 hp).1
  · intro i j m n hij hm hn
    rcases hij.eq_or_lt with rfl | hlt
    · obtain rfl := Option.some.inj (hm.symm.trans hn)
      obtain ⟨d,d',_,hi⟩ := Entity.issued_of_mem (List.mem_of_getElem? hm)
      exact hi.each.imp fun p l hl hp => (hl.2.2 hp).2
    · obtain ⟨_,rfl⟩ := List.getElem?_eq_some_iff.mp hm
      obtain ⟨_,rfl⟩ := List.getElem?_eq_some_iff.mp hn
      obtain ⟨_,_,_,_,hi,hg,hi'⟩ := List.pairwise_iff_getElem.mp (Entity.issued_apart calls c)
        i j _ _ hlt
      refine List.forall₂_iff_get.mpr ⟨hi'.each.length_eq,fun k _ hk _ hid => ?_⟩
      exact hi.customId_ne hg hi' (hi.chosen _ hid) (List.mem_map_of_mem (List.getElem_mem hk))

section Pennant

/-- A rig of two parts, of which the first may have an id of its own. -/
def pennant (chosen : Option UInt32) : Entity where
  rig := {
    name := "pennant"
    textures := []
    roots := [.bone ⟨"pole", "pole", ⟨0, 0, 0⟩, ⟨0, 0, 0⟩⟩ [
      .part { name := "cloth", low := ⟨0, 16, 0⟩, high := ⟨8, 24, 1⟩, origin := ⟨0, 20, 0⟩,
              rotation := ⟨0, 0, 0⟩, faces := {}, customId := chosen },
      .part { name := "tip", low := ⟨0, 24, 0⟩, high := ⟨1, 26, 1⟩, origin := ⟨0, 24, 0⟩,
              rotation := ⟨0, 0, 0⟩, faces := {}, customId := none }]]
    animations := [⟨"fall", 0, "once", ∅⟩] }
  base := ⟨["."]⟩

/-- Of three compilations the second fails, since its id is in use, and the last one gets ids that
nothing else has. -/
theorem Context.pennants_told_apart : ∃ c, Context.ofOptions {} = .ok c ∧
    let made := Entity.compileEach [({},pennant (some 1)),({},pennant (some 1)),({},pennant none)] c
    made.map (fun m => m.2.leaves.map Leaf.customId) = [[1,2],[3,4]] ∧
      (made.flatMap fun m => m.2.leaves.map Leaf.customId).Nodup ∧
        (made.flatMap fun m => m.2.animations).Pairwise fun a b =>
          Disjoint a.plan.frameIds b.plan.frameIds := by
  have hc : Context.ofOptions {} = .ok ⟨{},0,1,[]⟩ := rfl
  obtain ⟨hframes,_,hids,_⟩ := Context.identities_unique hc
    [({},pennant (some 1)),({},pennant (some 1)),({},pennant none)]
  exact ⟨_,hc,by decide +kernel,hids,hframes⟩

end Pennant

end RigPack
