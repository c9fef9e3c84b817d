import Mathlib.Tactic
import RigPack.Proofs.Pack.Requests

/-!
What a context is like after a request has failed. A range of frame ids is taken as a whole or not at
all. Chosen ids are taken one by one, and those before the one that is in use stay taken. A search
for a free id leaves the next id behind all that are in use, which no later request notices: contexts
that differ in nothing but that, and in whether the last id of all is in use, answer alike.
-/

namespace RigPack

variable {α : Type}

/-- A request in which no part has chosen `id`. -/
def Request.Spares (id : UInt32) : Request α → Prop
  | .chosen _ roots => id ∉ Part.chosenIds (Node.partsOf roots)
  | _ => True

namespace Context

variable {c c' d : Context} {entity : String} {e : Error}

lemma allocFrames_error {count : Nat} (h : allocFrames count c = (.error e,c')) : c' = c := by
  rw [allocFrames_run] at h
  split at h
  · cases h
  · cases h
    rfl

/-- Chosen ids are refused at the first one that is in use. The parts before it have taken theirs. -/
lemma reserve_error {ps : List (Part α)} (h : reserve entity ps c = (.error e,c')) :
    ∃ before p id later, ps = before ++ p::later ∧ p.customId = some id ∧
      e = .customIdInUse entity p.name id ∧ reserve entity before c = (.ok (),c') ∧
        id ∈ c'.usedCustomIds := by
  induction ps generalizing c with
  | nil => cases h
  | cons p ps ih =>
    cases hp : p.customId with
    | none =>
      rw [reserve_none_run hp] at h
      obtain ⟨before,q,id,later,rfl,hq,he,hbefore,hid⟩ := ih h
      exact ⟨p::before,q,id,later,rfl,hq,he,by rw [reserve_none_run hp,hbefore],hid⟩
    | some id =>
      rw [reserve_some_run hp] at h
      split at h
      · rename_i hused
        cases h
        exact ⟨[],p,id,ps,rfl,hp,rfl,rfl,hused⟩
      · rename_i hfree
        obtain ⟨before,q,id',later,rfl,hq,he,hbefore,hid⟩ := ih h
        exact ⟨p::before,q,id',later,rfl,hq,he,
          by rw [reserve_some_run hp,if_neg hfree,hbefore],hid⟩

/-- Contexts that no request can tell apart, unless a part has chosen the last id of all. -/
structure Alike (c d : Context) : Prop where
  options : c.options = d.options
  nextFrame : c.nextFrame = d.nextFrame
  used : ∀ id < lastCustomId, id ∈ c.usedCustomIds ↔ id ∈ d.usedCustomIds
  ahead : ∀ id < lastCustomId, id ∉ c.usedCustomIds →
    (c.nextCustomId ≤ id ↔ d.nextCustomId ≤ id)

namespace Alike

lemma symm (h : c.Alike d) : d.Alike c :=
  ⟨h.options.symm,h.nextFrame.symm,fun id hid => (h.used id hid).symm,
    fun id hid hfree => (h.ahead id hid (mt (h.used id hid).mp hfree)).symm⟩

lemma leastFree (h : c.Alike d) {id : UInt32} (hid : c.LeastFree id) (hlt : id < lastCustomId) :
    d.LeastFree id := by
  refine ⟨(h.ahead id hlt hid.free).mp hid.next_le,mt (h.used id hlt).mpr hid.free,?_⟩
  intro other hle hfree
  by_cases hother : other < lastCustomId
  · exact hid.least other ((h.symm.ahead other hother hfree).mp hle)
      (mt (h.used other hother).mp hfree)
  · exact UInt32.le_trans (UInt32.le_of_lt hlt) (UInt32.not_lt.mp hother)

lemma use (h : c.Alike d) (id : UInt32) :
    Alike { c with usedCustomIds := id::c.usedCustomIds }
      { d with usedCustomIds := id::d.usedCustomIds } := by
  refine ⟨h.options,h.nextFrame,fun other hlt => ?_,fun other hlt hfree => ?_⟩
  · simp only [List.mem_cons,h.used other hlt]
  · exact h.ahead other hlt fun hused => hfree (List.mem_cons_of_mem _ hused)

lemma allocFrames (h : c.Alike d) (count : Nat) :
    (Context.allocFrames count c).1 = (Context.allocFrames count d).1 ∧
      (Context.allocFrames count c).2.Alike (Context.allocFrames count d).2 := by
  rw [allocFrames_run,allocFrames_run,h.nextFrame]
  split
  · exact ⟨rfl,h.options,rfl,h.used,h.ahead⟩
  · exact ⟨rfl,h⟩

lemma reserve (h : c.Alike d) {ps : List (Part α)}
    (hps : lastCustomId ∉ Part.chosenIds ps) :
    (Context.reserve entity ps c).1 = (Context.reserve entity ps d).1 ∧
      (Context.reserve entity ps c).2.Alike (Context.reserve entity ps d).2 := by
  induction ps generalizing c d with
  | nil => exact ⟨rfl,h⟩
  | cons p ps ih =>
    rw [Part.chosenIds_cons,List.mem_append,not_or] at hps
    cases hp : p.customId with
    | none =>
      rw [reserve_none_run hp,reserve_none_run hp]
      exact ih h hps.2
    | some id =>
      have hlt : id < lastCustomId := by
        refine UInt32.lt_of_le_of_ne (le_lastCustomId id) ?_
        rintro rfl
        exact hps.1 (by simp [hp])
      rw [reserve_some_run hp,reserve_some_run hp]
      by_cases hused : id ∈ c.usedCustomIds
      · rw [if_pos hused,if_pos ((h.used id hlt).mp hused)]
        exact ⟨rfl,h⟩
      · rw [if_neg hused,if_neg (mt (h.used id hlt).mpr hused)]
        exact ih (h.use id) hps.2

lemma customIdFor (h : c.Alike d) (p : Part α) :
    (Context.customIdFor p c).1 = (Context.customIdFor p d).1 ∧
      (Context.customIdFor p c).2.Alike (Context.customIdFor p d).2 := by
  cases hp : p.customId with
  | some id =>
    rw [customIdFor_some hp]
    exact ⟨rfl,h⟩
  | none =>
    -- What one of the two finds below the last id, the other finds as well.
    by_cases hfound : ∃ id < lastCustomId, c.LeastFree id
    · obtain ⟨id,hlt,hid⟩ := hfound
      rw [customIdFor_found hp hid hlt,customIdFor_found hp (h.leastFree hid hlt) hlt]
      exact ⟨rfl,h.options,h.nextFrame,(h.use id).used,fun _ _ _ => Iff.rfl⟩
    · have hfound' : ¬∃ id < lastCustomId, d.LeastFree id :=
        fun ⟨id,hlt,hid⟩ => hfound ⟨id,hlt,h.symm.leastFree hid hlt⟩
      obtain ⟨used,hc,hrun⟩ := customIdFor_spent hp hfound
      obtain ⟨used',hd,hrun'⟩ := customIdFor_spent hp hfound'
      rw [hrun,hrun']
      refine ⟨rfl,h.options,h.nextFrame,fun id hlt => ?_,fun _ _ _ => Iff.rfl⟩
      exact (hc id hlt).trans ((h.used id hlt).trans (hd id hlt).symm)

/-- One request is answered alike and leaves contexts that are alike. -/
lemma run (h : c.Alike d) {r : Request α} (hr : r.Spares lastCustomId) :
    (r.run c).1 = (r.run d).1 ∧ (r.run c).2.Alike (r.run d).2 := by
  cases r with
  | frames count =>
    simp only [Request.run_frames]
    exact (h.allocFrames count).imp_left (congrArg _)
  | chosen entity roots =>
    simp only [Request.run_chosen]
    exact (h.reserve hr).imp_left (congrArg _)
  | customId p =>
    simp only [Request.run_customId]
    exact (h.customIdFor p).imp_left (congrArg _)

/-- And so are all requests that follow. -/
lemma answers (h : c.Alike d) {requests : List (Request α)}
    (hspares : ∀ r ∈ requests, r.Spares lastCustomId) :
    c.answers requests = d.answers requests := by
  induction requests generalizing c d with
  | nil => rfl
  | cons r requests ih =>
    obtain ⟨hr,hrest⟩ := List.forall_mem_cons.mp hspares
    obtain ⟨hanswer,hnext⟩ := h.run hr
    exact congrArg₂ List.cons hanswer (ih hnext hrest)

end Alike

/-- A search that fails has gone past ids in use only, and leaves a context that is alike. -/
lemma customIdFor_error {p : Part α} (h : customIdFor p c = (.error e,c')) :
    c'.Alike c ∧ c.nextCustomId ≤ c'.nextCustomId ∧
      ∀ id, c.nextCustomId ≤ id → id < c'.nextCustomId → id ∈ c.usedCustomIds := by
  cases hp : p.customId with
  | some id =>
    rw [customIdFor_some hp] at h
    cases h
  | none =>
    have hsearch := customIdFor_search hp c
    rw [h] at hsearch
    cases hsearch with
    | last hid =>
      have hpast : ∀ id, c.nextCustomId ≤ id → id < lastCustomId → id ∈ c.usedCustomIds := by
        intro id hle hlt
        by_contra hfree
        exact UInt32.not_le.mpr hlt (hid.least id hle hfree)
      refine ⟨⟨rfl,rfl,fun id hlt => by simp [UInt32.ne_of_lt hlt],?_⟩,le_lastCustomId _,hpast⟩
      intro id hlt hfree
      have hnew : id ∉ c.usedCustomIds := fun hused => hfree (List.mem_cons_of_mem _ hused)
      exact ⟨fun hle => absurd hle (UInt32.not_le.mpr hlt),
        fun hle => absurd (hpast id hle hlt) hnew⟩
    | none hall =>
      refine ⟨⟨rfl,rfl,fun _ _ => Iff.rfl,?_⟩,le_lastCustomId _,fun id hle _ => hall id hle⟩
      intro id hlt hfree
      exact ⟨fun hle => absurd hle (UInt32.not_le.mpr hlt),fun hle => absurd (hall id hle) hfree⟩

/-- What stays after a failure. A range of frame ids that is refused changes nothing. Chosen ids that
are refused change nothing but that the parts before the first one whose id is in use have taken
theirs. A search that fails takes no id below the last one and no frame ids, and goes past nothing
but ids in use, so that all later requests are answered as if it had not been made, as long as no
part in them has chosen the last id. -/
theorem failure_keeps (c : Context) :
    (∀ count e c', allocFrames count c = (.error e,c') → c' = c) ∧
    (∀ (entity : String) (roots : List (Node α)) e c',
      reserve entity (Node.partsOf roots) c = (.error e,c') →
        ∃ before p id later, Node.partsOf roots = before ++ p::later ∧ p.customId = some id ∧
          e = .customIdInUse entity p.name id ∧ (Part.chosenIds before).Nodup ∧
          (∀ i ∈ Part.chosenIds before, i ∉ c.usedCustomIds) ∧ id ∈ c'.usedCustomIds ∧
          c' = { c with
            usedCustomIds := (Part.chosenIds before).reverse ++ c.usedCustomIds }) ∧
    (∀ (p : Part α) e c', customIdFor p c = (.error e,c') →
      c'.nextFrame = c.nextFrame ∧
      (∀ id < lastCustomId, id ∈ c'.usedCustomIds ↔ id ∈ c.usedCustomIds) ∧
      c.nextCustomId ≤ c'.nextCustomId ∧
      (∀ id, c.nextCustomId ≤ id → id < c'.nextCustomId → id ∈ c.usedCustomIds) ∧
      ∀ requests : List (Request α), (∀ r ∈ requests, r.Spares lastCustomId) →
        c'.answers requests = c.answers requests) := by
  refine ⟨fun _ _ _ => allocFrames_error,fun entity roots e c' h => ?_,fun p e c' h => ?_⟩
  · obtain ⟨before,p,id,later,hparts,hp,he,hbefore,hid⟩ := reserve_error h
    obtain ⟨hnodup,hfree,hc'⟩ := reserve_ok_iff.mp hbefore
    exact ⟨before,p,id,later,hparts,hp,he,hnodup,hfree,hid,hc'⟩
  · obtain ⟨halike,hle,hpast⟩ := customIdFor_error h
    exact ⟨halike.nextFrame,halike.used,hle,hpast,fun _ => halike.answers⟩

section Knobs

/-- A hierarchy of parts that have chosen these ids. -/
def knobsOf (chosen : List (String × UInt32)) : List (Node Float) :=
  chosen.map fun q => .part (knob q.1 (some q.2))

/-- A context in which no frame ids are left and the last two custom ids are in use. -/
def spent : Context :=
  ⟨{ firstCustomId := 0xFFFFFFFE },frameLimit,0xFFFFFFFE,[0xFFFFFFFE,0xFFFFFFFF]⟩

/-- Requests of every kind that fail there. The one for chosen ids keeps the first of them, and the
one for a free id is not noticed by the ones after it. -/
theorem spent_after_failures :
    allocFrames 1 spent = (.error .framesExhausted,spent) ∧
    (∃ e c', reserve "knobs" (Node.partsOf (knobsOf [("low",5),("high",5)])) spent =
      (.error e,c') ∧ 5 ∈ c'.usedCustomIds) ∧
    ∃ e c', customIdFor (knob "free" none) spent = (.error e,c') ∧ c' ≠ spent ∧
      c'.answers [.chosen "knobs" (knobsOf [("low",5)]),.customId (knob "late" none)] =
        spent.answers [.chosen "knobs" (knobsOf [("low",5)]),.customId (knob "late" none)] := by
  obtain ⟨hframes,hchosen,hfree⟩ := @failure_keeps Float spent
  have hrefused : allocFrames 1 spent = (.error .framesExhausted,(allocFrames 1 spent).2) := rfl
  have hused : reserve "knobs" (Node.partsOf (knobsOf [("low",5),("high",5)])) spent =
    (.error (.customIdInUse "knobs" "high" 5),{ spent with
      usedCustomIds := 5::spent.usedCustomIds }) := rfl
  have hnone : customIdFor (knob "free" none) spent =
    (.error .customIdsExhausted,{ spent with nextCustomId := lastCustomId }) := rfl
  refine ⟨?_,?_,_,_,hnone,by decide,?_⟩
  · rw [hrefused,hframes _ _ _ hrefused]
  · obtain ⟨_,p,id,_,_,_,he,_,_,hid,_⟩ := hchosen _ _ _ _ hused
    obtain ⟨_,_,rfl⟩ := Error.customIdInUse.inj he
    exact ⟨_,_,hused,hid⟩
  · refine (hfree _ _ _ hnone).2.2.2.2 _ (List.forall_mem_cons.mpr ⟨?_,?_⟩)
    · change lastCustomId ∉ [5]
      decide
    · exact List.forall_mem_singleton.mpr trivial

/-- Of three ids that parts have chosen the last is one that the first part has taken. After this
failure the first two are refused as well, though they could have been had before. -/
theorem failed_choice_kept :
    let c : Context := ⟨{},0,1,[]⟩
    let right := Node.partsOf (knobsOf [("low",7),("mid",8)])
    let wrong := Node.partsOf (knobsOf [("low",7),("mid",8),("high",7)])
    Context.ofOptions {} = .ok c ∧ (∃ d, reserve "knobs" right c = (.ok (),d)) ∧
      ∃ e c', reserve "knobs" wrong c = (.error e,c') ∧ c' ≠ c ∧
        ¬∃ d, reserve "knobs" right c' = (.ok (),d) := by
  intro c right wrong
  have hwrong : reserve "knobs" wrong c =
    (.error (.customIdInUse "knobs" "high" 7),{ c with usedCustomIds := [8,7] }) := rfl
  refine ⟨rfl,⟨_,rfl⟩,_,_,hwrong,by decide,?_⟩
  rintro ⟨d,h⟩
  have hagain : reserve "knobs" right { c with usedCustomIds := [8,7] } =
    (.error (.customIdInUse "knobs" "low" 7),{ c with usedCustomIds := [8,7] }) := rfl
  rw [hagain] at h
  cases h

end Knobs

end Context
end RigPack
