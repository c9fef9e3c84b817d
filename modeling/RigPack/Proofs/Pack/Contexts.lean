import Mathlib.Tactic
import RigPack.Pack.Compile
import RigPack.Proofs.Pack.Compiling
import RigPack.Proofs.Rig.Validate

/-!
What a context gives out: chosen custom ids, which have to be free, custom ids that it finds itself,
and ranges of frame ids.
-/

namespace RigPack

namespace Context

open Compiling

variable {α : Type} {c c' : Context} {entity : String}

lemma allocFrames_run (count : Nat) (c : Context) : allocFrames count c =
    if c.nextFrame + count ≤ frameLimit then
      (.ok c.nextFrame,{ c with nextFrame := c.nextFrame + count })
    else (.error .framesExhausted,c) := by
  change (if _ then _ else _ : Compiling Nat) c = _
  split <;> rfl

lemma bump_run (c : Context) : bump c =
    if c.nextCustomId.toNat + 1 < UInt32.size then
      (.ok (),{ c with nextCustomId := c.nextCustomId + 1 })
    else (.error .customIdsExhausted,c) := by
  change (if _ then _ else _ : Compiling Unit) c = _
  split <;> rfl

lemma skipUsed_succ_run (n : Nat) (c : Context) : skipUsed (n+1) c =
    if c.nextCustomId ∈ c.usedCustomIds then (bump >>= fun _ => skipUsed n) c else (.ok (),c) := by
  change (if _ then _ else _ : Compiling Unit) c = _
  split <;> rfl

lemma reserve_none_run {p : Part α} (hp : p.customId = none) (ps : List (Part α)) (c : Context) :
    reserve entity (p::ps) c = reserve entity ps c := by
  rw [reserve,hp]

lemma reserve_some_run {p : Part α} {id : UInt32} (hp : p.customId = some id)
    (ps : List (Part α)) (c : Context) : reserve entity (p::ps) c =
    if id ∈ c.usedCustomIds then (.error (.customIdInUse entity p.name id),c)
    else reserve entity ps { c with usedCustomIds := id::c.usedCustomIds } := by
  rw [reserve,hp]
  change (if _ then _ else _ : Compiling Unit) c = _
  split <;> rfl

/-- Takes the next custom id as it is. -/
def takeNext : Compiling UInt32 := do
  let c ← get
  set { c with usedCustomIds := c.nextCustomId::c.usedCustomIds }
  bump
  return c.nextCustomId

lemma takeNext_run (c : Context) : takeNext c =
    (bump >>= fun _ => pure c.nextCustomId)
      { c with usedCustomIds := c.nextCustomId::c.usedCustomIds } :=
  rfl

lemma customIdFor_some {p : Part α} {id : UInt32} (hp : p.customId = some id) :
    customIdFor p = pure id := by
  rw [customIdFor,hp]

lemma customIdFor_none {p : Part α} (hp : p.customId = none) :
    customIdFor p = (skipUsed UInt32.size >>= fun _ => takeNext) := by
  rw [customIdFor,hp]
  rfl

lemma Grows.use (c : Context) (id : UInt32) :
    c.Grows { c with usedCustomIds := id::c.usedCustomIds } :=
  ⟨rfl,le_rfl,le_rfl,fun _ h => List.mem_cons_of_mem _ h⟩

lemma toNat_succ {id : UInt32} (h : id.toNat + 1 < UInt32.size) : (id+1).toNat = id.toNat + 1 := by
  rw [UInt32.toNat_add]
  exact Nat.mod_eq_of_lt h

lemma allocFrames_taking (count : Nat) : Taking (allocFrames count) := by
  intro c
  rw [allocFrames_run]
  split
  · exact ⟨rfl,Nat.le_add_right _ _,le_rfl,fun _ h => h⟩
  · exact .refl c

lemma bump_taking : Taking bump := by
  intro c
  rw [bump_run]
  split
  · rename_i h
    exact ⟨rfl,le_rfl,by rw [toNat_succ h]; omega,fun _ h => h⟩
  · exact .refl c

lemma skipUsed_taking (n : Nat) : Taking (skipUsed n) := by
  induction n with
  | zero => exact .of_pure _
  | succ n ih =>
    intro c
    rw [skipUsed_succ_run]
    split
    · exact bump_taking.bind (fun _ => ih) c
    · exact .refl c

lemma reserve_taking (ps : List (Part α)) : Taking (reserve entity ps) := by
  induction ps with
  | nil => exact .of_pure _
  | cons p ps ih =>
    intro c
    cases hp : p.customId with
    | none => exact reserve_none_run hp ps c ▸ ih c
    | some id =>
      rw [reserve_some_run hp]
      split
      · exact .refl c
      · exact (Grows.use c id).trans (ih _)

lemma customIdFor_taking (p : Part α) : Taking (customIdFor p) := by
  cases hp : p.customId with
  | some id => exact customIdFor_some hp ▸ .of_pure id
  | none =>
    rw [customIdFor_none hp]
    refine (skipUsed_taking _).bind fun _ c => ?_
    rw [takeNext_run]
    exact (Grows.use c _).trans (bump_taking.bind (fun _ => .of_pure _) _)

/-- Ids that are chosen go through if they are told apart and none of them is in use. -/
lemma reserve_ok_iff {ps : List (Part α)} : reserve entity ps c = (.ok (),c') ↔
    (Part.chosenIds ps).Nodup ∧ (∀ id ∈ Part.chosenIds ps, id ∉ c.usedCustomIds) ∧
      c' = { c with usedCustomIds := (Part.chosenIds ps).reverse ++ c.usedCustomIds } := by
  induction ps generalizing c with
  | nil =>
    change ((Except.ok () : Except Error Unit),c) = (.ok (),c') ↔ _
    simp [Part.chosenIds,eq_comm]
  | cons p ps ih =>
    cases hp : p.customId with
    | none =>
      have hids : Part.chosenIds (p::ps) = Part.chosenIds ps := List.filterMap_cons_none hp
      rw [reserve_none_run hp,hids]
      exact ih
    | some id =>
      have hids : Part.chosenIds (p::ps) = id::Part.chosenIds ps := List.filterMap_cons_some hp
      rw [reserve_some_run hp,hids,List.nodup_cons,List.forall_mem_cons]
      split
      · rename_i hused
        constructor
        · rintro ⟨⟩
        · rintro ⟨_,⟨hfree,_⟩,_⟩
          exact absurd hused hfree
      · rename_i hused
        rw [ih]
        simp only [List.mem_cons,not_or,List.reverse_cons,List.append_assoc,List.singleton_append]
        constructor
        · rintro ⟨hnodup,hnew,rfl⟩
          exact ⟨⟨fun hm => (hnew id hm).1 rfl,hnodup⟩,⟨hused,fun i hi => (hnew i hi).2⟩,rfl⟩
        · rintro ⟨⟨hid,hnodup⟩,⟨_,hnew⟩,rfl⟩
          exact ⟨hnodup,fun i hi => ⟨fun he => hid (he ▸ hi),hnew i hi⟩,rfl⟩

/-- The last custom id of all. -/
def lastCustomId : UInt32 := 0xFFFFFFFF

lemma le_lastCustomId (id : UInt32) : id ≤ lastCustomId := by
  have := id.toNat_lt
  rw [UInt32.le_iff_toNat_le,show lastCustomId.toNat = 4294967295 from rfl]
  omega

lemma toNat_succ_lt_iff {id : UInt32} : id.toNat + 1 < UInt32.size ↔ id < lastCustomId := by
  rw [UInt32.lt_iff_toNat_lt,show lastCustomId.toNat = 4294967295 from rfl,
    show UInt32.size = 4294967296 from rfl]
  omega

/-- The id at which a search ends: from the next one on, the least that is not in use. -/
structure LeastFree (c : Context) (id : UInt32) : Prop where
  next_le : c.nextCustomId ≤ id
  free : id ∉ c.usedCustomIds
  least : ∀ other, c.nextCustomId ≤ other → other ∉ c.usedCustomIds → id ≤ other

lemma LeastFree.unique {id id' : UInt32} (h : c.LeastFree id) (h' : c.LeastFree id') : id = id' :=
  UInt32.le_antisymm (h.least id' h'.next_le h'.free) (h'.least id h.next_le h.free)

/-- Where the next id is in use, all free ones from it on come after it. -/
lemma succ_le_of_free {id : UInt32} (hused : c.nextCustomId ∈ c.usedCustomIds)
    (hsize : c.nextCustomId.toNat + 1 < UInt32.size) (hle : c.nextCustomId ≤ id)
    (hfree : id ∉ c.usedCustomIds) : c.nextCustomId + 1 ≤ id := by
  have hne : c.nextCustomId.toNat ≠ id.toNat := by
    intro he
    exact hfree (UInt32.toNat_inj.mp he ▸ hused)
  rw [UInt32.le_iff_toNat_le] at hle
  rw [UInt32.le_iff_toNat_le,toNat_succ hsize]
  omega

/-- From an id in use the search goes on to the one after it. -/
lemma LeastFree.of_succ {id : UInt32} (hused : c.nextCustomId ∈ c.usedCustomIds)
    (hsize : c.nextCustomId.toNat + 1 < UInt32.size)
    (h : LeastFree { c with nextCustomId := c.nextCustomId + 1 } id) : c.LeastFree id := by
  refine ⟨?_,h.free,fun other hle hfree =>
    h.least other (succ_le_of_free hused hsize hle hfree) hfree⟩
  have hnext := h.next_le
  rw [UInt32.le_iff_toNat_le,toNat_succ hsize] at hnext
  rw [UInt32.le_iff_toNat_le]
  omega

/-- A search ends at the least id that is not in use, or at the last id of all if that and all
before it are in use. -/
lemma skipUsed_cases {n : Nat} (hn : UInt32.size ≤ c.nextCustomId.toNat + n) :
    (∃ id, c.LeastFree id ∧ skipUsed n c = (.ok (),{ c with nextCustomId := id })) ∨
      (∀ id, c.nextCustomId ≤ id → id ∈ c.usedCustomIds) ∧
        skipUsed n c = (.error .customIdsExhausted,{ c with nextCustomId := lastCustomId }) := by
  induction n generalizing c with
  | zero => exact absurd hn (Nat.not_le.mpr c.nextCustomId.toNat_lt)
  | succ n ih =>
    rw [skipUsed_succ_run]
    by_cases hused : c.nextCustomId ∈ c.usedCustomIds
    · rw [if_pos hused]
      by_cases hsize : c.nextCustomId.toNat + 1 < UInt32.size
      · have hbump := bump_run c
        rw [if_pos hsize] at hbump
        rw [bind_run hbump]
        have hleft : UInt32.size ≤ (c.nextCustomId + 1).toNat + n := by
          rw [toNat_succ hsize]
          omega
        rcases ih (c := { c with nextCustomId := c.nextCustomId + 1 }) hleft with
          ⟨id,hid,hrun⟩ | ⟨hall,hrun⟩
        · exact .inl ⟨id,hid.of_succ hused hsize,hrun⟩
        · refine .inr ⟨fun id hle => ?_,hrun⟩
          by_contra hfree
          exact hfree (hall id (succ_le_of_free hused hsize hle hfree))
      · have hlast : c.nextCustomId = lastCustomId :=
          UInt32.le_antisymm (le_lastCustomId _)
            (UInt32.not_lt.mp fun h => hsize (toNat_succ_lt_iff.mpr h))
        have hbump := bump_run c
        rw [if_neg hsize] at hbump
        refine .inr ⟨fun id hle => ?_,?_⟩
        · rw [UInt32.le_antisymm (le_lastCustomId id) (hlast ▸ hle),← hlast]
          exact hused
        · rw [bind_run_error hbump,← hlast]
    · rw [if_neg hused]
      exact .inl ⟨c.nextCustomId,⟨UInt32.le_refl _,hused,fun _ h _ => h⟩,rfl⟩

/-- What comes of a part without an id of its own: the least id that is not in use, unless it is
the last id of all, which is taken and not given; or nothing, if all ids are in use. -/
inductive Search (c : Context) : Except Error UInt32 × Context → Prop
  | found (id : UInt32) (h : c.LeastFree id) (hlt : id < lastCustomId) : Search c
      (.ok id,{ c with usedCustomIds := id::c.usedCustomIds, nextCustomId := id+1 })
  | last (h : c.LeastFree lastCustomId) : Search c (.error .customIdsExhausted,
      { c with usedCustomIds := lastCustomId::c.usedCustomIds, nextCustomId := lastCustomId })
  | none (h : ∀ id, c.nextCustomId ≤ id → id ∈ c.usedCustomIds) : Search c
      (.error .customIdsExhausted,{ c with nextCustomId := lastCustomId })

lemma customIdFor_search {p : Part α} (hp : p.customId = none) (c : Context) :
    c.Search (customIdFor p c) := by
  rw [customIdFor_none hp]
  rcases skipUsed_cases (Nat.le_add_left UInt32.size c.nextCustomId.toNat) with
    ⟨id,hid,hskip⟩ | ⟨hall,hskip⟩
  · rw [bind_run hskip,takeNext_run]
    have hbump := bump_run { c with usedCustomIds := id::c.usedCustomIds, nextCustomId := id }
    by_cases hsize : id.toNat + 1 < UInt32.size
    · rw [if_pos hsize] at hbump
      rw [bind_run hbump]
      exact .found id hid (toNat_succ_lt_iff.mp hsize)
    · obtain rfl : id = lastCustomId := UInt32.le_antisymm (le_lastCustomId id)
        (UInt32.not_lt.mp fun h => hsize (toNat_succ_lt_iff.mpr h))
      rw [if_neg hsize] at hbump
      rw [bind_run_error hbump]
      exact .last hid
  · rw [bind_run_error hskip]
    exact .none hall

/-- A part without an id of its own gets the least one that is not in use. -/
lemma customIdFor_ok {p : Part α} {id : UInt32} (hp : p.customId = none)
    (h : customIdFor p c = (.ok id,c')) : c.LeastFree id ∧ id < lastCustomId ∧
      c' = { c with usedCustomIds := id::c.usedCustomIds, nextCustomId := id+1 } := by
  have hsearch := customIdFor_search hp c
  rw [h] at hsearch
  cases hsearch with
  | found _ hid hlt => exact ⟨hid,hlt,rfl⟩

lemma customIdFor_found {p : Part α} {id : UInt32} (hp : p.customId = none) (hid : c.LeastFree id)
    (hlt : id < lastCustomId) : customIdFor p c =
      (.ok id,{ c with usedCustomIds := id::c.usedCustomIds, nextCustomId := id+1 }) := by
  have hsearch := customIdFor_search hp c
  generalize customIdFor p c = y at hsearch
  cases hsearch with
  | found id' hid' hlt' => rw [hid.unique hid']
  | last hlast => exact absurd (hid.unique hlast) (UInt32.ne_of_lt hlt)
  | none hall => exact absurd (hall id hid.next_le) hid.free

/-- Where no id but the last one is free, a search goes to the end and finds none. -/
lemma customIdFor_spent {p : Part α} (hp : p.customId = none)
    (hspent : ¬∃ id < lastCustomId, c.LeastFree id) :
    ∃ used, (∀ id < lastCustomId, id ∈ used ↔ id ∈ c.usedCustomIds) ∧ customIdFor p c =
      (.error .customIdsExhausted,{ c with
        usedCustomIds := used
        nextCustomId := lastCustomId }) := by
  have hsearch := customIdFor_search hp c
  generalize customIdFor p c = y at hsearch
  cases hsearch with
  | found id hid hlt => exact absurd ⟨id,hlt,hid⟩ hspent
  | last hlast => exact ⟨_,fun id hlt => by simp [UInt32.ne_of_lt hlt],rfl⟩
  | none hall => exact ⟨_,fun _ _ => Iff.rfl,rfl⟩

/-- What parts get. The ids that are not chosen lie from the next one on, and none was in use. -/
structure Assigned (c c' : Context) (ps : List (Part α)) (leaves : List (Leaf α))
    (ids : List UInt32) : Prop where
  nextFrame : c'.nextFrame = c.nextFrame
  nodup : ids.Nodup
  free : ∀ id ∈ ids, c.nextCustomId.toNat ≤ id.toNat ∧ id ∉ c.usedCustomIds
  used : c'.usedCustomIds = ids.reverse ++ c.usedCustomIds
  perm : (leaves.map Leaf.customId).Perm (Part.chosenIds ps ++ ids)
  each : List.Forall₂ (fun p l => l = p.withId l.customId ∧
    (∀ id, p.customId = some id → l.customId = id) ∧
      (p.customId = none → l.customId ∈ ids)) ps leaves

lemma leaves_ok {ps : List (Part α)} {leaves : List (Leaf α)}
    (h : (ps.mapM fun p => return p.withId (← customIdFor p) : Compiling _) c = (.ok leaves,c')) :
    ∃ ids, Assigned c c' ps leaves ids := by
  induction ps generalizing c leaves with
  | nil =>
    rw [List.mapM_nil] at h
    obtain ⟨rfl,rfl⟩ := pure_ok h
    exact ⟨[],rfl,.nil,by simp,rfl,.refl _,.nil⟩
  | cons p ps ih =>
    rw [List.mapM_cons] at h
    obtain ⟨l,d,hl,h⟩ := bind_ok h
    obtain ⟨rest,d',hrest,h⟩ := bind_ok h
    obtain ⟨rfl,rfl⟩ := pure_ok h
    obtain ⟨id,d',hid,hl⟩ := bind_ok hl
    obtain ⟨rfl,rfl⟩ := pure_ok hl
    obtain ⟨ids,ha⟩ := ih hrest
    cases hp : p.customId with
    | some chosen =>
      rw [customIdFor_some hp] at hid
      obtain ⟨rfl,rfl⟩ := pure_ok hid
      refine ⟨ids,ha.nextFrame,ha.nodup,ha.free,ha.used,?_,.cons ⟨rfl,?_,by simp [hp]⟩ ha.each⟩
      · rw [Part.chosenIds,List.filterMap_cons_some hp]
        exact ha.perm.cons _
      · rintro i hi
        exact Option.some.inj (hp.symm.trans hi)
    | none =>
      obtain ⟨hleast,hlt,rfl⟩ := customIdFor_ok hp hid
      have hle := UInt32.le_iff_toNat_le.mp hleast.next_le
      have hfree := hleast.free
      have hnext := toNat_succ (toNat_succ_lt_iff.mpr hlt)
      have hids : ∀ i ∈ ids, id.toNat + 1 ≤ i.toNat ∧ i ≠ id ∧ i ∉ c.usedCustomIds := by
        intro i hi
        obtain ⟨hlow,hnew⟩ := ha.free i hi
        simp only [List.mem_cons,not_or] at hnew
        exact ⟨hnext ▸ hlow,hnew⟩
      refine ⟨id::ids,ha.nextFrame,List.nodup_cons.mpr ⟨fun hm => (hids id hm).2.1 rfl,ha.nodup⟩,
        ?_,?_,?_,?_⟩
      · rintro i (_ | ⟨_,hi⟩)
        · exact ⟨hle,hfree⟩
        · exact ⟨by have := (hids i hi).1; omega,(hids i hi).2.2⟩
      · rw [ha.used]
        simp
      · rw [Part.chosenIds,List.filterMap_cons_none hp]
        exact (ha.perm.cons id).trans List.perm_middle.symm
      · refine .cons ⟨rfl,by simp [hp],fun _ => List.mem_cons_self⟩ ?_
        exact ha.each.imp fun _ _ h => ⟨h.1,h.2.1,fun hn => List.mem_cons_of_mem _ (h.2.2 hn)⟩

section Room

variable {n k : Nat}

lemma card_filter_succ {s : Finset Nat} (hk : k ∈ s) :
    (s.filter (k + 1 ≤ ·)).card + 1 ≤ (s.filter (k ≤ ·)).card := by
  refine Finset.card_lt_card ((Finset.ssubset_iff_of_subset fun i hi => ?_).mpr ⟨k,?_,?_⟩)
  · have := Finset.mem_filter.mp hi
    exact Finset.mem_filter.mpr ⟨this.1,by omega⟩
  · exact Finset.mem_filter.mpr ⟨hk,le_rfl⟩
  · simp

/-- The ids in use, as numbers. -/
def usedNumbers (c : Context) : Finset Nat :=
  (c.usedCustomIds.map UInt32.toNat).toFinset

lemma mem_usedNumbers {id : UInt32} : id.toNat ∈ c.usedNumbers ↔ id ∈ c.usedCustomIds := by
  simp [usedNumbers,UInt32.toNat_inj]

lemma usedNumbers_of_cons {id : UInt32} (h : c'.usedCustomIds = id::c.usedCustomIds) :
    c'.usedNumbers = insert id.toNat c.usedNumbers := by
  rw [usedNumbers,h,List.map_cons,List.toFinset_cons]
  rfl

/-- There are ids for `n` more parts: the next one, those in use from there on, and `n` others fit
below the end of all ids. -/
def Room (c : Context) (n : Nat) : Prop :=
  c.nextCustomId.toNat + (c.usedNumbers.filter (c.nextCustomId.toNat ≤ ·)).card + n < UInt32.size

/-- To skip an id that is in use leaves the room as it is. -/
lemma skipUsed_room (h : c.Room n) : ∃ d, skipUsed k c = (.ok (),d) ∧ d.Room n := by
  induction k generalizing c with
  | zero => exact ⟨c,rfl,h⟩
  | succ k ih =>
    rw [skipUsed_succ_run]
    split
    · rename_i hused
      have hcard := card_filter_succ (mem_usedNumbers.mpr hused)
      have hroom := h
      unfold Room at hroom
      have hsize : c.nextCustomId.toNat + 1 < UInt32.size := by omega
      have hbump := bump_run c
      rw [if_pos hsize] at hbump
      rw [bind_run hbump]
      refine ih ?_
      change (c.nextCustomId + 1).toNat +
        (c.usedNumbers.filter ((c.nextCustomId + 1).toNat ≤ ·)).card + n < UInt32.size
      rw [toNat_succ hsize]
      omega
    · exact ⟨c,rfl,h⟩

/-- An id that is taken makes the room less by one. -/
lemma takeNext_room (h : c.Room (n + 1)) : ∃ id d, takeNext c = (.ok id,d) ∧ d.Room n := by
  have hroom := h
  unfold Room at hroom
  have hsize : c.nextCustomId.toNat + 1 < UInt32.size := by omega
  rw [takeNext_run]
  have hbump := bump_run { c with usedCustomIds := c.nextCustomId::c.usedCustomIds }
  rw [if_pos hsize] at hbump
  rw [bind_run hbump]
  refine ⟨_,_,rfl,?_⟩
  have hcard : ((insert c.nextCustomId.toNat c.usedNumbers).filter
      (c.nextCustomId.toNat + 1 ≤ ·)).card ≤
        (c.usedNumbers.filter (c.nextCustomId.toNat ≤ ·)).card := by
    refine Finset.card_le_card fun i hi => ?_
    rw [Finset.mem_filter,Finset.mem_insert] at hi
    exact Finset.mem_filter.mpr ⟨hi.1.resolve_left (by omega),by omega⟩
  rw [Room,usedNumbers_of_cons rfl]
  dsimp only
  rw [toNat_succ hsize]
  omega

lemma customIdFor_room {p : Part α} (hp : p.customId = none) (h : c.Room (n + 1)) :
    ∃ id d, customIdFor p c = (.ok id,d) ∧ d.Room n := by
  obtain ⟨d,hskip,hd⟩ := skipUsed_room (k := UInt32.size) h
  rw [customIdFor_none hp,bind_run hskip]
  exact takeNext_room hd

/-- Where there is room for all parts that have chosen no id, all parts get their ids. -/
lemma leaves_room {ps : List (Part α)} (h : c.Room (ps.countP fun p => p.customId.isNone)) :
    ∃ leaves d, (ps.mapM fun p => return p.withId (← customIdFor p) : Compiling _) c =
      (.ok leaves,d) := by
  induction ps generalizing c with
  | nil => exact ⟨[],c,rfl⟩
  | cons p ps ih =>
    have hone : ∃ id d, customIdFor p c = (.ok id,d) ∧
        d.Room (ps.countP fun p => p.customId.isNone) := by
      cases hp : p.customId with
      | none =>
        rw [List.countP_cons_of_pos (by simp [hp])] at h
        exact customIdFor_room hp h
      | some id =>
        rw [List.countP_cons_of_neg (by simp [hp])] at h
        exact ⟨id,c,by rw [customIdFor_some hp]; rfl,h⟩
    obtain ⟨id,d,hid,hd⟩ := hone
    obtain ⟨leaves,d',hrest⟩ := ih hd
    have hleaf : (do return p.withId (← customIdFor p) : Compiling (Leaf α)) c =
        (.ok (p.withId id),d) := bind_run hid
    rw [List.mapM_cons,bind_run hleaf,bind_run hrest]
    exact ⟨_,_,rfl⟩

/-- Chosen ids take no more room than the parts that have chosen them. -/
lemma room_of_chosen {ps : List (Part α)} (hused : c.usedCustomIds = (Part.chosenIds ps).reverse)
    (h : c.nextCustomId.toNat + ps.length < UInt32.size) :
    c.Room (ps.countP fun p => p.customId.isNone) := by
  have hcard : (c.usedNumbers.filter (c.nextCustomId.toNat ≤ ·)).card ≤
      (Part.chosenIds ps).length :=
    calc (c.usedNumbers.filter (c.nextCustomId.toNat ≤ ·)).card
        ≤ c.usedNumbers.card := Finset.card_filter_le _ _
      _ ≤ (c.usedCustomIds.map UInt32.toNat).length := List.toFinset_card_le _
      _ = (Part.chosenIds ps).length := by rw [hused,List.length_map,List.length_reverse]
  have hlength := Part.length_chosenIds ps
  unfold Room
  omega

end Room

end Context

namespace Compile

open Compiling

lemma plan_taking (entity : String) (a : Animation Float) : Taking (plan entity a) :=
  .bind (.of_lift _) fun _ => .bind (.of_lift _) fun _ =>
    .bind (Context.allocFrames_taking _) fun _ => .of_pure _

/-- A plan takes one frame id for each tick of its animation. -/
lemma plan_ok {entity : String} {a : Animation Float} {c c' : Context} {p : Plan}
    (h : plan entity a c = (.ok p,c')) : p.name = a.name ∧
      LoopPolicy.understand entity a.name a.loop = .ok p.policy ∧
        lastTick a.length = .ok p.lastTick ∧ p.firstFrame = c.nextFrame ∧
          c'.nextFrame = p.firstFrame + p.lastTick + 1 ∧ c'.nextFrame ≤ Context.frameLimit := by
  obtain ⟨policy,_,hunderstand,h⟩ := bind_ok h
  obtain ⟨hpolicy,rfl⟩ := lift_ok hunderstand
  obtain ⟨last,_,hticks,h⟩ := bind_ok h
  obtain ⟨hlast,rfl⟩ := lift_ok hticks
  obtain ⟨first,_,hfirst,h⟩ := bind_ok h
  obtain ⟨rfl,rfl⟩ := pure_ok h
  rw [Context.allocFrames_run] at hfirst
  split at hfirst
  · rename_i hlimit
    cases hfirst
    exact ⟨rfl,hpolicy,hlast,rfl,rfl,hlimit⟩
  · cases hfirst

end Compile

end RigPack
