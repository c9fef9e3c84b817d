import RigPack.Proofs.World.Instances

/-!
Who stands in the world of a session. The roots that were spawned are numbered from one up, and each
is followed by its proxies, one to a leaf; a proxy lives as long as its root. Nothing else stands
there.
-/

namespace RigPack

/-- Entities that share a world: compiled under one namespace, each in a context of its own or one
after another, and told apart by name. -/
structure Ensemble (space : String) (entities : List CompiledEntity) : Prop where
  names : (entities.map CompiledEntity.name).Nodup
  compiled : ∀ e ∈ entities, ∃ disk entity c c', Entity.compile disk entity c = (.ok e,c') ∧
    c.options.space = space

namespace Ensemble

variable {space : String} {entities : List CompiledEntity} {d e : CompiledEntity}

lemma lawful (h : Ensemble space entities) (he : e ∈ entities) :
    ∃ x : Exporter, x.space = space ∧ e.Lawful x := by
  obtain ⟨_,_,_,_,hc,hs⟩ := h.compiled e he
  exact ⟨_,hs,Entity.compile_lawful hc⟩

lemma loaded {N : Type} (number : Float → N) (h : Ensemble space entities) (he : e ∈ entities) :
    e.LoadedIn number (.ofEntities number entities) :=
  Programs.ofEntities_loaded number h.names (fun _ hd => h.lawful hd) he

lemma eq_of_name (h : Ensemble space entities) (hd : d ∈ entities) (he : e ∈ entities)
    (hn : d.name = e.name) : d = e :=
  List.inj_on_of_nodup_map h.names hd he hn

lemma path_inj (h : Ensemble space entities) (hd : d ∈ entities) (he : e ∈ entities) {q r : Role}
    (hp : d.functions.path q = e.functions.path r) : d = e ∧ q = r := by
  obtain ⟨x,hx,hdx⟩ := h.lawful hd
  obtain ⟨y,hy,hey⟩ := h.lawful he
  rw [hdx.functions,hey.functions,hx,hy] at hp
  obtain ⟨hname,hrole⟩ := Functions.path_inj.mp hp
  exact ⟨h.eq_of_name hd he (by rw [hdx.name,hey.name,hname]),hrole⟩

/-- Ticks have dispatchers and bodies of their own. -/
lemma dispatcher_inj (h : Ensemble space entities) (hd : d ∈ entities) (he : e ∈ entities)
    {a b : CompiledAnimation} {f g : Frame} (ha : a ∈ d.animations) (hf : f ∈ a.frames)
    (hb : b ∈ e.animations) (hg : g ∈ b.frames) (hp : f.dispatcherPath = g.dispatcherPath) :
    d = e ∧ a = b ∧ f = g := by
  obtain ⟨x,_,hx⟩ := h.lawful hd
  obtain ⟨y,_,hy⟩ := h.lawful he
  have hpath : d.functions.path (.dispatcher a.plan.name f.tick) =
      e.functions.path (.dispatcher b.plan.name g.tick) := by
    rw [(hx.frame ha hf).dispatcherPath,(hy.frame hb hg).dispatcherPath] at hp
    exact hp
  obtain ⟨rfl,hrole⟩ := h.path_inj hd he hpath
  simp only [Role.dispatcher.injEq] at hrole
  obtain rfl := hx.animation_unique ha hb hrole.1
  exact ⟨rfl,rfl,hx.frame_unique ha hf hg hrole.2⟩

end Ensemble

lemma CompiledEntity.Lawful.tag_not_reserved {e : CompiledEntity} {x : Exporter}
    (h : e.Lawful x) : Names.entityTag e.name ∉ Names.reserved := h.name ▸ h.tag_free

namespace Stand

variable {N : Type} {s t : Stand N} {e : CompiledEntity} {l : Leaf Float} {n : Int}

/-- The root of an entity's instance, living or not. -/
structure IsRoot (s : Stand N) (e : CompiledEntity) (n : Int) : Prop where
  id : s.scores Names.id = some n
  tags : ∀ t, s.tags t = true ↔ t = Names.entityTag e.name

/-- The proxy of an entity's part. -/
structure IsProxy (s : Stand N) (e : CompiledEntity) (l : Leaf Float) (n : Int) : Prop where
  scores : s.scores = fun o => if o = Names.id then some n else none
  tags : ∀ t, t ≠ Names.unposed →
    (s.tags t = true ↔ t = Names.proxy ∨ t = Names.partTag e.name l.name)

lemma root_isRoot (e : CompiledEntity) (n : Int) (p : Vec3 N) : (root e.name n p).IsRoot e n where
  id := by
    have hi : Names.id ≠ Names.frame ∧ Names.id ≠ Names.next := by decide
    simp [root,scores_setScore,hi]
  tags t := by simp [root,tags_setTag]

lemma proxy_isProxy {x : Exporter} (hx : e.name = x.entity) (l : Leaf Float) (n : Int)
    (p : Vec3 N) : (proxy x n p l).IsProxy e l n where
  scores := rfl
  tags t ht := by
    have htag : x.tag l = Names.partTag e.name l.name := by rw [hx]; rfl
    have hfresh : Names.fresh ≠ Names.proxy ∧ Names.fresh ≠ Names.partTag e.name l.name :=
      ⟨by decide,fun h => Names.partTag_not_reserved e.name l.name (h ▸ by decide)⟩
    by_cases hf : t = Names.fresh
    · subst t
      simp [proxy,tags_setTag,hfresh]
    · simp [proxy,made,tags_setTag,hf,ht,htag,or_comm]

lemma IsRoot.plain (h : s.IsRoot e n) {t : String} (ht : t ≠ Names.entityTag e.name) :
    s.tags t = false :=
  Bool.eq_false_iff.mpr fun hs => ht ((h.tags t).mp hs)

lemma IsProxy.id (h : s.IsProxy e l n) : s.scores Names.id = some n := by
  simp [h.scores]

lemma IsProxy.no_score (h : s.IsProxy e l n) {o : String} (ho : o ≠ Names.id) :
    s.scores o = none := by
  rw [h.scores]
  exact if_neg ho

lemma IsProxy.proxy (h : s.IsProxy e l n) : s.tags Names.proxy = true :=
  (h.tags _ (by decide)).mpr (.inl rfl)

lemma IsProxy.isOwn (h : s.IsProxy e l n) (ha : s.alive = true) (m : Int) :
    s.isOwn m = decide (n = m) := by
  simp [Stand.isOwn,Stand.isProxy,ha,h.proxy,h.id]

lemma IsProxy.plain (h : s.IsProxy e l n) {t : String} (ht : t ∈ Names.reserved)
    (hu : t ≠ Names.unposed) (hp : t ≠ Names.proxy) : s.tags t = false := by
  refine Bool.eq_false_iff.mpr fun hs => ?_
  rcases (h.tags t hu).mp hs with heq | rfl
  · exact hp heq
  · exact Names.partTag_not_reserved _ _ ht

/-- What no program takes from a stand but by killing it. -/
structure Keeps (s t : Stand N) : Prop where
  alive : t.alive = s.alive
  root : ∀ e n, s.IsRoot e n → t.IsRoot e n
  proxy : ∀ e l n, s.IsProxy e l n → t.IsProxy e l n

lemma Keeps.refl (s : Stand N) : s.Keeps s := ⟨rfl,fun _ _ h => h,fun _ _ _ h => h⟩

/-- A stand that is no proxy may get other scores, but for its id. -/
lemma keeps_of_scores (hp : s.tags Names.proxy = false) (ha : t.alive = s.alive)
    (ht : t.tags = s.tags) (hid : t.scores Names.id = s.scores Names.id) : s.Keeps t where
  alive := ha
  root e n h := ⟨hid.trans h.id,fun u => ht ▸ h.tags u⟩
  proxy e l n h := by
    rw [h.proxy] at hp
    exact absurd hp (by decide)

lemma keeps_turned (hp : s.tags Names.proxy = false) (g : Registers) (u : Turn) :
    s.Keeps (s.turned g u) := by
  obtain ⟨ha,ht,_,_,_,hscores⟩ := s.turned_eq g u
  exact keeps_of_scores hp ha ht (hscores _ (by decide) (by decide) (by decide))

lemma keeps_posed [Scalar N] (hp : s.tags Names.proxy = true) (number : Float → N) (x : Exporter)
    (p : Vec3 N) (placed : List (Placed Float)) :
    s.Keeps ((s.posed number x p placed).setTag Names.unposed false) where
  alive := s.alive_posed ..
  root e n h := by
    have htag : Names.proxy = Names.entityTag e.name := (h.tags _).mp hp
    refine ⟨(congrFun (s.scores_posed ..) _).trans h.id,fun u => ?_⟩
    rw [tags_setTag,tags_posed]
    by_cases hu : u = Names.unposed
    · subst u
      rw [if_pos rfl,← htag]
      decide
    · rw [if_neg hu]
      exact h.tags u
  proxy e l n h := by
    refine ⟨(s.scores_posed ..).trans h.scores,fun u hu => ?_⟩
    rw [tags_setTag,if_neg hu,tags_posed]
    exact h.tags u hu

end Stand

namespace Session

variable {N : Type}

/-- The root with a number, counted from zero, is an entity's, at a place. -/
def Has (entities : List CompiledEntity) (s : Session N) (k r : Nat) (e : CompiledEntity) : Prop :=
  e ∈ entities ∧ s.roots[k]? = some (r,e.name)

structure Populated (entities : List CompiledEntity) (s : Session N) : Prop where
  registers : s.world.registers = .unbounded
  count : s.world.holders Names.instances Names.id = s.roots.length
  entity : ∀ k p, s.roots[k]? = some p → ∃ e, s.Has entities k p.1 e
  root : ∀ k r e, s.Has entities k r e →
    ∃ t, s.world.stands[r]? = some t ∧ t.IsRoot e (k + 1)
  proxy : ∀ k r e t, s.Has entities k r e → s.world.stands[r]? = some t →
    ∀ j l, e.leaves[j]? = some l → ∃ u, s.world.stands[r + 1 + j]? = some u ∧
      u.alive = t.alive ∧ (u.alive = true → u.IsProxy e l (k + 1))
  stand : ∀ i t, s.world.stands[i]? = some t → ∃ k r e, s.Has entities k r e ∧
    (i = r ∨ ∃ j l, e.leaves[j]? = some l ∧ i = r + 1 + j)

variable {space : String} {entities : List CompiledEntity} {s : Session N} {e : CompiledEntity}
  {k r : Nat}

/-- A number belongs to one root of one entity. -/
lemma Has.unique (h : Ensemble space entities) {d : CompiledEntity} {r' : Nat}
    (hk : s.Has entities k r d) (hk' : s.Has entities k r' e) : r = r' ∧ d = e := by
  have hpair := hk.2.symm.trans hk'.2
  simp only [Option.some.injEq,Prod.mk.injEq] at hpair
  exact ⟨hpair.1,h.eq_of_name hk.1 hk'.1 hpair.2⟩

/-- Who there is after one more root. -/
lemma has_append (h : Ensemble space entities) (he : e ∈ entities) {w : World N} {i : Nat}
    {d : CompiledEntity} :
    (⟨w,s.roots ++ [(i,e.name)]⟩ : Session N).Has entities k r d ↔
      s.Has entities k r d ∨ (k = s.roots.length ∧ r = i ∧ d = e) := by
  unfold Has
  dsimp only
  by_cases hlt : k < s.roots.length
  · have hne : k ≠ s.roots.length := Nat.ne_of_lt hlt
    rw [List.getElem?_append_left hlt]
    simp [hne]
  · rw [List.getElem?_append_right (Nat.le_of_not_lt hlt),List.getElem?_singleton,
      List.getElem?_eq_none_iff.mpr (Nat.le_of_not_lt hlt)]
    constructor
    · rintro ⟨hd,hk⟩
      split at hk
      · simp only [Option.some.injEq,Prod.mk.injEq] at hk
        exact .inr ⟨by omega,hk.1.symm,h.eq_of_name hd he hk.2.symm⟩
      · cases hk
    · rintro (⟨_,hk⟩ | ⟨rfl,rfl,rfl⟩)
      · cases hk
      · exact ⟨he,by simp⟩

namespace Populated

lemma isRoot (hp : s.Populated entities) (hk : s.Has entities k r e) {t : Stand N}
    (ht : s.world.stands[r]? = some t) : t.IsRoot e (k + 1) := by
  obtain ⟨u,hu,hroot⟩ := hp.root k r e hk
  obtain rfl : t = u := Option.some.inj (ht.symm.trans hu)
  exact hroot

lemma of_live (hp : s.Populated entities) (he : e ∈ entities) (hl : s.LiveRoot e.name r) :
    ∃ k t, s.Has entities k r e ∧ s.world.stands[r]? = some t ∧ t.alive = true ∧
      t.IsRoot e (k + 1) := by
  obtain ⟨hm,t,ht,ha⟩ := hl
  obtain ⟨k,hk⟩ := List.mem_iff_getElem?.mp hm
  exact ⟨k,t,⟨he,hk⟩,ht,ha,hp.isRoot ⟨he,hk⟩ ht⟩

lemma number_unique (hp : s.Populated entities) {k' : Nat} {d : CompiledEntity}
    (hk : s.Has entities k r e) (hk' : s.Has entities k' r d) : k = k' := by
  obtain ⟨t,ht,hroot⟩ := hp.root k r e hk
  have hid := hroot.id.symm.trans (hp.isRoot hk' ht).id
  rw [Option.some.injEq] at hid
  omega

/-- A living stand is a root or a proxy of a living root. -/
lemma of_alive (hp : s.Populated entities) {i : Nat} {t : Stand N}
    (ht : s.world.stands[i]? = some t) (ha : t.alive = true) :
    ∃ k r e, s.Has entities k r e ∧ ((i = r ∧ t.IsRoot e (k + 1)) ∨
      ∃ j l u, e.leaves[j]? = some l ∧ i = r + 1 + j ∧ t.IsProxy e l (k + 1) ∧
        s.world.stands[r]? = some u ∧ u.alive = true) := by
  obtain ⟨k,r,e,hk,hi⟩ := hp.stand i t ht
  refine ⟨k,r,e,hk,?_⟩
  rcases hi with rfl | ⟨j,l,hl,rfl⟩
  · exact .inl ⟨rfl,hp.isRoot hk ht⟩
  · obtain ⟨u,hu,_⟩ := hp.root k r e hk
    obtain ⟨t',ht',halive,hproxy⟩ := hp.proxy k r e u hk hu j l hl
    obtain rfl : t = t' := by simpa [ht] using ht'
    exact .inr ⟨j,l,u,hl,rfl,hproxy ha,hu,halive ▸ ha⟩

lemma plain (h : Ensemble space entities) (hp : s.Populated entities) {tag : String}
    (htag : tag ∈ Names.reserved) (hu : tag ≠ Names.unposed) (hx : tag ≠ Names.proxy) :
    ∀ t ∈ s.world.stands, t.alive = true → t.tags tag = false := by
  intro t ht ha
  obtain ⟨i,hi⟩ := List.mem_iff_getElem?.mp ht
  obtain ⟨k,r,e,hk,⟨_,hroot⟩ | ⟨_,_,_,_,_,hproxy,_⟩⟩ := hp.of_alive hi ha
  · obtain ⟨x,_,hlaw⟩ := h.lawful hk.1
    exact hroot.plain fun heq => hlaw.tag_not_reserved (heq ▸ htag)
  · exact hproxy.plain htag hu hx

lemma root_not_proxy (h : Ensemble space entities) (he : e ∈ entities) {t : Stand N} {n : Int}
    (ht : t.IsRoot e n) : t.tags Names.proxy = false := by
  obtain ⟨x,_,hlaw⟩ := h.lawful he
  exact ht.plain fun heq => hlaw.tag_not_reserved (heq ▸ by decide)

lemma not_proxy (h : Ensemble space entities) (hp : s.Populated entities)
    (hk : s.Has entities k r e) {t : Stand N} (ht : s.world.stands[r]? = some t) :
    t.tags Names.proxy = false :=
  root_not_proxy h hk.1 (hp.isRoot hk ht)

lemma not_own (h : Ensemble space entities) (hp : s.Populated entities)
    (hk : s.Has entities k r e) {t : Stand N} (ht : s.world.stands[r]? = some t) (n : Int) :
    t.isOwn n = false :=
  t.isOwn_of_plain (hp.not_proxy h hk ht) n

lemma settled (h : Ensemble space entities) (hp : s.Populated entities) : s.world.Settled where
  active := hp.plain h (by decide) (by decide) (by decide)
  scored := by
    intro t ht hproxy
    obtain ⟨ha,htag⟩ : t.alive = true ∧ t.tags Names.proxy = true := by
      simpa [Stand.isProxy] using hproxy
    obtain ⟨i,hi⟩ := List.mem_iff_getElem?.mp ht
    obtain ⟨k,r,e,hk,⟨_,hroot⟩ | ⟨_,_,_,_,_,hp',_⟩⟩ := hp.of_alive hi ha
    · rw [root_not_proxy h hk.1 hroot] at htag
      exact absurd htag (by decide)
    · exact ⟨_,hp'.id,by rw [hp.registers]; rfl⟩

/-- The proxies of an instance that is alive are those after its root. -/
lemma own_place (h : Ensemble space entities) (hp : s.Populated entities)
    (hk : s.Has entities k r e) {i : Nat} {t : Stand N} (ht : s.world.stands[i]? = some t)
    (ho : t.isOwn (k + 1) = true) :
    ∃ j l, e.leaves[j]? = some l ∧ i = r + 1 + j ∧ t.IsProxy e l (k + 1) := by
  obtain ⟨⟨ha,htag⟩,hid⟩ : (t.alive = true ∧ t.tags Names.proxy = true) ∧
      t.scores Names.id = some ((k : Int) + 1) := by
    simpa [Stand.isOwn,Stand.isProxy] using ho
  obtain ⟨k',r',e',hk',⟨_,hroot⟩ | ⟨j,l,_,hl,hi,hproxy,_⟩⟩ := hp.of_alive ht ha
  · rw [root_not_proxy h hk'.1 hroot] at htag
    exact absurd htag (by decide)
  · have heq := hproxy.id.symm.trans hid
    rw [Option.some.injEq] at heq
    obtain rfl : k' = k := by omega
    obtain ⟨rfl,rfl⟩ := hk.unique h hk'
    exact ⟨j,l,hl,hi,hproxy⟩

/-- Own proxies of one leaf are one. -/
lemma own_unique (h : Ensemble space entities) (hp : s.Populated entities)
    (hk : s.Has entities k r e) {l : Leaf Float} (hl : l ∈ e.leaves) {i j : Nat} {t u : Stand N}
    (ht : s.world.stands[i]? = some t) (hu : s.world.stands[j]? = some u)
    (hto : t.isOwn (k + 1) = true) (htt : t.tags (Names.partTag e.name l.name) = true)
    (huo : u.isOwn (k + 1) = true) (hut : u.tags (Names.partTag e.name l.name) = true) :
    i = j := by
  obtain ⟨x,_,hlaw⟩ := h.lawful hk.1
  have hplace (i : Nat) (t : Stand N) (ht : s.world.stands[i]? = some t)
      (hto : t.isOwn (k + 1) = true) (htt : t.tags (Names.partTag e.name l.name) = true) :
      ∃ m, e.leaves[m]? = some l ∧ i = r + 1 + m := by
    obtain ⟨m,l',hm,hi,hproxy⟩ := own_place h hp hk ht hto
    have hpart := Names.partTag_not_reserved e.name l.name
    have hunposed : Names.partTag e.name l.name ≠ Names.unposed :=
      fun heq => hpart (heq ▸ by decide)
    rcases (hproxy.tags _ hunposed).mp htt with heq | heq
    · exact absurd (by rw [heq]; decide) hpart
    · have hname : l.name = l'.name := Names.partTag_injective _ heq
      obtain rfl := List.inj_on_of_nodup_map hlaw.leaves_distinct hl (List.mem_of_getElem? hm) hname
      exact ⟨m,hm,hi⟩
  obtain ⟨m,hm,rfl⟩ := hplace i t ht hto htt
  obtain ⟨m',hm',rfl⟩ := hplace j u hu huo hut
  obtain ⟨hlt,hget⟩ := List.getElem?_eq_some_iff.mp hm
  obtain ⟨hlt',hget'⟩ := List.getElem?_eq_some_iff.mp hm'
  have hmm : m = m' :=
    (List.Nodup.of_map _ hlaw.leaves_distinct).getElem_inj_iff.mp (hget.trans hget'.symm)
  rw [hmm]

/-- A living instance has one proxy for each of its parts. -/
lemma exists_unique_own (h : Ensemble space entities) (hp : s.Populated entities)
    (hk : s.Has entities k r e) {t : Stand N} (ht : s.world.stands[r]? = some t)
    (hlive : t.alive = true) {l : Leaf Float} (hl : l ∈ e.leaves) :
    ∃! i : Nat, ∃ u : Stand N, s.world.stands[i]? = some u ∧ u.isOwn (k + 1) = true ∧
      u.tags (Names.partTag e.name l.name) = true := by
  obtain ⟨j,hj⟩ := List.mem_iff_getElem?.mp hl
  obtain ⟨u,hu,halive,hproxy⟩ := hp.proxy k r e t hk ht j l hj
  have hua : u.alive = true := halive.trans hlive
  have hup := hproxy hua
  have hown : u.isOwn (k + 1) = true := (hup.isOwn hua _).trans (decide_eq_true rfl)
  have hpart := Names.partTag_not_reserved e.name l.name
  have hunposed : Names.partTag e.name l.name ≠ Names.unposed :=
    fun heq => hpart (heq ▸ by decide)
  have htag : u.tags (Names.partTag e.name l.name) = true :=
    (hup.tags _ hunposed).mpr (.inr rfl)
  refine ⟨_,⟨u,hu,hown,htag⟩,?_⟩
  rintro i ⟨v,hv,hvo,hvt⟩
  exact own_unique h hp hk hl hv hu hvo hvt hown htag

/-- Nothing is lost where every stand keeps what it has. -/
lemma of_keeps (hp : s.Populated entities) {w : World N} (F : Nat → Stand N → Stand N)
    (hg : w.registers = s.world.registers)
    (hc : w.holders Names.instances Names.id = s.world.holders Names.instances Names.id)
    (hw : ∀ i, w.stands[i]? = s.world.stands[i]?.map (F i))
    (hF : ∀ (i : Nat) (t : Stand N), s.world.stands[i]? = some t → t.Keeps (F i t)) :
    (⟨w,s.roots⟩ : Session N).Populated entities where
  registers := hg.trans hp.registers
  count := hc.trans hp.count
  entity := hp.entity
  root k r e hk := by
    obtain ⟨t,ht,hroot⟩ := hp.root k r e hk
    exact ⟨F r t,by rw [hw,ht]; rfl,(hF r t ht).root _ _ hroot⟩
  proxy k r e t' hk ht' j l hl := by
    rw [hw,Option.map_eq_some_iff] at ht'
    obtain ⟨t,ht,rfl⟩ := ht'
    obtain ⟨u,hu,halive,hproxy⟩ := hp.proxy k r e t hk ht j l hl
    have hkeep := hF _ u hu
    refine ⟨F _ u,by rw [hw,hu]; rfl,?_,fun ha => ?_⟩
    · rw [hkeep.alive,halive,(hF r t ht).alive]
    · exact hkeep.proxy _ _ _ (hproxy (hkeep.alive ▸ ha))
  stand i t' ht' := by
    rw [hw,Option.map_eq_some_iff] at ht'
    obtain ⟨t,ht,_⟩ := ht'
    exact hp.stand i t ht

/-- The stands may stay as they are. -/
lemma of_stands (hp : s.Populated entities) {w : World N} (hg : w.registers = s.world.registers)
    (hc : w.holders Names.instances Names.id = s.world.holders Names.instances Names.id)
    (hw : w.stands = s.world.stands) : (⟨w,s.roots⟩ : Session N).Populated entities :=
  hp.of_keeps (fun _ t => t) hg hc (by simp [hw]) fun _ t _ => .refl t

lemma turn (h : Ensemble space entities) (hp : s.Populated entities) (hk : s.Has entities k r e)
    (u : Turn) : (⟨s.world.turn r u,s.roots⟩ : Session N).Populated entities := by
  refine hp.of_keeps (fun i t => if i = r then t.turned s.world.registers u else t) rfl rfl
    (fun i => World.getElem?_turn ..) fun i t ht => ?_
  split
  · subst i
    exact Stand.keeps_turned (hp.not_proxy h hk ht) _ _
  · exact .refl t

lemma played [Scalar N] (h : Ensemble space entities) (hp : s.Populated entities)
    (hk : s.Has entities k r e) (number : Float → N) (x : Exporter) (p : Vec3 N) (n : Int)
    (f : Frame) (u : Turn) :
    (⟨s.world.played number x r p n f u,s.roots⟩ : Session N).Populated entities := by
  have hcount : (s.world.played number x r p n f u).holders Names.instances Names.id =
      s.world.holders Names.instances Names.id := World.holders_played _ _ _ _ _ _ _ _ (by decide)
  refine hp.of_keeps _ rfl hcount (fun i => World.getElem?_played ..) fun i t ht => ?_
  dsimp only
  by_cases ho : t.isOwn n = true
  · have hproxy : t.tags Names.proxy = true := by
      simp only [Stand.isOwn,Stand.isProxy,Bool.and_eq_true] at ho
      exact ho.1.2
    have hne : i ≠ r := by
      rintro rfl
      rw [hp.not_proxy h hk ht] at hproxy
      exact absurd hproxy (by decide)
    rw [if_neg hne,if_pos ho]
    exact Stand.keeps_posed hproxy ..
  · rw [if_neg ho]
    split
    · subst i
      exact Stand.keeps_turned (hp.not_proxy h hk ht) _ _
    · exact .refl t

/-- A body changes no root but the one that runs it. -/
lemma root_played [Scalar N] (h : Ensemble space entities) (hp : s.Populated entities)
    {k' r' : Nat} {d : CompiledEntity} (hk : s.Has entities k' r' d) {t : Stand N}
    (ht : s.world.stands[r']? = some t) (number : Float → N) (x : Exporter) (p : Vec3 N) (n : Int)
    (f : Frame) (u : Turn) : (s.world.played number x r p n f u).stands[r']? =
      some (if r' = r then t.turned s.world.registers u else t) := by
  rw [World.getElem?_played,ht]
  simp [hp.not_own h hk ht n]

/-- A request changes one score of a root. -/
lemma request (h : Ensemble space entities) (hp : s.Populated entities)
    (hk : s.Has entities k r e) (v : Int) :
    (⟨s.world.change [r] (·.setScore Names.next v),s.roots⟩ : Session N).Populated entities := by
  refine hp.of_keeps (fun i t => if i ∈ [r] then t.setScore Names.next v else t) rfl rfl
    (fun i => World.getElem?_change ..) fun i t ht => ?_
  split
  · rename_i hi
    obtain rfl := List.mem_singleton.mp hi
    have hne : Names.id ≠ Names.next := by decide
    exact Stand.keeps_of_scores (hp.not_proxy h hk ht) rfl rfl
      (by rw [Stand.scores_setScore,if_neg hne])
  · exact .refl t

/-- An instance that is removed dies as a whole, and no other is touched. -/
lemma removed (h : Ensemble space entities) (hp : s.Populated entities)
    (hk : s.Has entities k r e) (f : Functions) :
    (⟨s.world.removed f r (k + 1),s.roots⟩ : Session N).Populated entities := by
  have hroot {k' r' : Nat} {e' : CompiledEntity} {t : Stand N} (hk' : s.Has entities k' r' e')
      (ht : s.world.stands[r']? = some t) : (s.world.removed f r (k + 1)).stands[r']? =
        some (if r' = r then { t with alive := false } else t) := by
    have ho := hp.not_own h hk' ht (k + 1)
    split
    · subst r'
      exact World.root_removed ht ho
    · exact World.other_removed ht ‹_› ho
  have hcount : (s.world.removed f r (k + 1)).holders Names.instances Names.id =
      s.world.holders Names.instances Names.id := World.holders_removed _ _ _ _ (by decide)
  refine ⟨hp.registers,hcount.trans hp.count,hp.entity,?_,?_,?_⟩
  · intro k' r' e' hk'
    obtain ⟨t,ht,ht'⟩ := hp.root k' r' e' hk'
    refine ⟨_,hroot hk' ht,?_⟩
    split
    · exact ⟨ht'.id,ht'.tags⟩
    · exact ht'
  · intro k' r' e' t' hk' ht' j l hl
    obtain ⟨t,ht,_⟩ := hp.root k' r' e' hk'
    obtain rfl := Option.some.inj ((hroot hk' ht).symm.trans ht')
    obtain ⟨u,hu,halive,hproxy⟩ := hp.proxy k' r' e' t hk' ht j l hl
    obtain ⟨u',hu',halive'⟩ := World.exists_removed hu f r (k + 1)
    -- Roots and proxies are told apart by tags, and proxies of two instances by ids.
    have hplace (ha : u.alive = true) : r' + 1 + j ≠ r := by
      rintro rfl
      have hnot := hp.not_proxy h hk hu
      rw [(hproxy ha).proxy] at hnot
      cases hnot
    have hown (ha : u.alive = true) : u.isOwn (k + 1) = decide (r' = r) := by
      rw [(hproxy ha).isOwn ha,decide_eq_decide]
      constructor
      · intro heq
        obtain rfl : k' = k := by omega
        exact (hk'.unique h hk).1
      · rintro rfl
        rw [hp.number_unique hk' hk]
    refine ⟨u',hu',?_,fun ha => ?_⟩
    · rw [halive']
      cases ha : u.alive with
      | false => split <;> simp [← halive,ha]
      | true =>
        rw [hown ha,decide_eq_true (hplace ha)]
        split
        · rw [decide_eq_true ‹_›]
          rfl
        · rw [decide_eq_false ‹_›,← halive,ha]
          rfl
    · obtain rfl : u = u' := Option.some.inj (hu.symm.trans (World.alive_removed hu' ha).1)
      exact hproxy ha
  · intro i t' ht'
    rw [World.getElem?_removed,Option.map_eq_some_iff] at ht'
    obtain ⟨t,ht,_⟩ := ht'
    exact hp.stand i t ht

/-- A new instance comes after all others, under the next number. -/
lemma spawned (h : Ensemble space entities) (hp : s.Populated entities)
    (he : e ∈ entities) {x : Exporter} (hx : e.name = x.entity) (p : Vec3 N) :
    (⟨s.world.spawned e.functions x e.leaves p,s.roots ++ [(s.world.stands.length,e.name)]⟩ :
      Session N).Populated entities := by
  let n : Int := s.world.holders Names.instances Names.id + 1
  have hn : n = s.roots.length + 1 := by simp only [n,hp.count]
  let block : List (Stand N) := .root x.entity n p::e.leaves.map (.proxy x n p)
  have hstands : (s.world.spawned e.functions x e.leaves p).stands = s.world.stands ++ block := rfl
  have hold (i : Nat) (t : Stand N) (ht : s.world.stands[i]? = some t) :
      (s.world.stands ++ block)[i]? = some t := by
    rw [List.getElem?_append_left (List.getElem?_eq_some_iff.mp ht).1,ht]
  have hnew (i : Nat) : (s.world.stands ++ block)[s.world.stands.length + i]? = block[i]? := by
    rw [List.getElem?_append_right (Nat.le_add_right ..),Nat.add_sub_cancel_left]
  refine ⟨hp.registers,?_,?_,?_,?_,?_⟩
  · rw [World.count_spawned,List.length_append]
    exact hn
  · intro k q hk
    by_cases hlt : k < s.roots.length
    · rw [List.getElem?_append_left hlt] at hk
      obtain ⟨e',he'⟩ := hp.entity k q hk
      exact ⟨e',(has_append h he).mpr (.inl he')⟩
    · rw [List.getElem?_append_right (Nat.le_of_not_lt hlt),List.getElem?_singleton] at hk
      split at hk
      · cases hk
        exact ⟨e,(has_append h he).mpr (.inr ⟨by omega,rfl,rfl⟩)⟩
      · cases hk
  · intro k r e' hk
    rcases (has_append h he).mp hk with hk | ⟨rfl,rfl,rfl⟩
    · obtain ⟨t,ht,hroot⟩ := hp.root k r e' hk
      exact ⟨t,hold r t ht,hroot⟩
    · refine ⟨.root e'.name n p,?_,?_⟩
      · have hfirst := hnew 0
        rw [hx]
        exact hfirst
      · rw [← hn]
        exact Stand.root_isRoot e' n p
  · intro k r e' t hk ht j l hl
    rcases (has_append h he).mp hk with hk | ⟨rfl,rfl,rfl⟩
    · obtain ⟨t',ht',_⟩ := hp.root k r e' hk
      obtain rfl : t' = t := Option.some.inj ((hold r t' ht').symm.trans ht)
      obtain ⟨u,hu,halive,hproxy⟩ := hp.proxy k r e' t' hk ht' j l hl
      exact ⟨u,hold _ u hu,halive,hproxy⟩
    · have hroot : t = .root x.entity n p := Option.some.inj (ht.symm.trans (hnew 0))
      refine ⟨.proxy x n p l,?_,?_,fun _ => ?_⟩
      · have hproxy := hnew (j + 1)
        have hplace : s.world.stands.length + (j + 1) = s.world.stands.length + 1 + j := by omega
        rw [hplace,List.getElem?_cons_succ,List.getElem?_map,hl] at hproxy
        exact hproxy
      · rw [hroot]
        rfl
      · rw [← hn]
        exact Stand.proxy_isProxy hx l n p
  · intro i t ht
    rw [hstands] at ht
    by_cases hlt : i < s.world.stands.length
    · rw [List.getElem?_append_left hlt] at ht
      obtain ⟨k,r,e',hk,hi⟩ := hp.stand i t ht
      exact ⟨k,r,e',(has_append h he).mpr (.inl hk),hi⟩
    · obtain ⟨m,rfl⟩ := Nat.exists_eq_add_of_le (Nat.le_of_not_lt hlt)
      rw [hnew] at ht
      refine ⟨_,_,e,(has_append h he).mpr (.inr ⟨rfl,rfl,rfl⟩),?_⟩
      cases m with
      | zero => exact .inl rfl
      | succ j =>
        rw [List.getElem?_cons_succ,List.getElem?_map,Option.map_eq_some_iff] at ht
        obtain ⟨l,hl,_⟩ := ht
        exact .inr ⟨j,l,hl,by omega⟩

end Populated

end Session

end RigPack
