import Mathlib.Tactic
import RigPack.Proofs.Pack.Contexts

/-!
A context told by what is asked of it: ranges of frame ids, ids that parts have chosen, and ids for
single parts. A request may fail, and the context goes on from where the request has left it. A part
without an id of its own gets the least one that is not in use, and no two of them get the same.
-/

namespace RigPack

/-- What is asked of a context. -/
inductive Request (α : Type)
  /-- So many frame ids in a row. -/
  | frames (count : Nat)
  /-- The ids that the parts of an entity have chosen. -/
  | chosen (entity : String) (roots : List (Node α))
  /-- The id of a part. -/
  | customId (part : Part α)

/-- What a context gives. -/
inductive Grant
  | frames (first : Nat)
  | chosen
  | customId (id : UInt32)
  deriving DecidableEq

variable {α : Type}

namespace Request

def run : Request α → Compiling Grant
  | frames count => do return .frames (← Context.allocFrames count)
  | chosen entity roots => do
    Context.reserve entity (Node.partsOf roots)
    return .chosen
  | customId part => do return .customId (← Context.customIdFor part)

/-- The id that was found for a part without one of its own. -/
def found? : Request α → Except Error Grant → Option UInt32
  | customId part,.ok (.customId id) => if part.customId.isNone then some id else none
  | _,_ => none

lemma run_frames (count : Nat) (c : Context) : (frames count : Request α).run c =
    ((Context.allocFrames count c).1.map .frames,(Context.allocFrames count c).2) :=
  Compiling.map_run _ c

lemma run_chosen (entity : String) (roots : List (Node α)) (c : Context) :
    (chosen entity roots).run c =
      ((Context.reserve entity (Node.partsOf roots) c).1.map fun _ => .chosen,
        (Context.reserve entity (Node.partsOf roots) c).2) :=
  Compiling.map_run _ c

lemma run_customId (p : Part α) (c : Context) : (customId p).run c =
    ((Context.customIdFor p c).1.map .customId,(Context.customIdFor p c).2) :=
  Compiling.map_run _ c

/-- No request gives anything back. -/
lemma run_taking (r : Request α) : Compiling.Taking r.run := by
  cases r with
  | frames count => exact (Context.allocFrames_taking count).bind fun _ => .of_pure _
  | chosen entity roots => exact (Context.reserve_taking _).bind fun _ => .of_pure _
  | customId p => exact (Context.customIdFor_taking p).bind fun _ => .of_pure _

end Request

namespace Context

/-- A context after requests, of which any may have failed. -/
def after (c : Context) (requests : List (Request α)) : Context :=
  requests.foldl (fun c r => (r.run c).2) c

/-- What comes of requests that are made one after another. -/
def answers (c : Context) : List (Request α) → List (Except Error Grant)
  | [] => []
  | r::requests => (r.run c).1::(r.run c).2.answers requests

/-- The ids that are found for parts without one of their own, in the order of the requests. -/
def found (c : Context) (requests : List (Request α)) : List UInt32 :=
  (List.zipWith Request.found? requests (c.answers requests)).reduceOption

lemma grows_after (c : Context) (requests : List (Request α)) : c.Grows (c.after requests) := by
  induction requests generalizing c with
  | nil => exact .refl c
  | cons r requests ih => exact (r.run_taking c).trans (ih _)

lemma found_cons (c : Context) (r : Request α) (requests : List (Request α)) :
    c.found (r::requests) =
      (r.found? (r.run c).1).toList ++ (r.run c).2.found requests := by
  simp only [found,answers,List.zipWith_cons_cons]
  cases r.found? (r.run c).1 <;> rfl

/-- An id that is found was not in use, and is from then on. -/
lemma found?_run {c : Context} {r : Request α} {id : UInt32}
    (h : r.found? (r.run c).1 = some id) :
    id ∉ c.usedCustomIds ∧ id ∈ (r.run c).2.usedCustomIds := by
  cases r with
  | frames count => simp [Request.found?] at h
  | chosen entity roots => simp [Request.found?] at h
  | customId p =>
    rw [Request.run_customId] at h ⊢
    by_cases hp : p.customId = none
    · have hsearch := customIdFor_search hp c
      generalize customIdFor p c = y at h hsearch
      cases hsearch with
      | found id' hleast hlt =>
        simp only [Except.map,Request.found?,hp,Option.isNone_none,if_true,Option.some.injEq] at h
        subst h
        exact ⟨hleast.free,List.mem_cons_self⟩
      | last => simp [Except.map,Request.found?] at h
      | none => simp [Except.map,Request.found?] at h
    · obtain ⟨id',hid'⟩ := Option.ne_none_iff_exists'.mp hp
      rw [customIdFor_some hid'] at h
      change Request.found? (.customId p) (.ok (.customId id')) = some id at h
      simp [Request.found?,hid'] at h

/-- Ids that are found were not in use before, and no two of them are the same. -/
lemma found_nodup (c : Context) (requests : List (Request α)) :
    (c.found requests).Nodup ∧ ∀ id ∈ c.found requests, id ∉ c.usedCustomIds := by
  induction requests generalizing c with
  | nil => exact ⟨List.nodup_nil,fun _ h => absurd h List.not_mem_nil⟩
  | cons r requests ih =>
    obtain ⟨hnodup,hfresh⟩ := ih (r.run c).2
    have hlater : ∀ id ∈ (r.run c).2.found requests, id ∉ c.usedCustomIds :=
      fun id hid hused => hfresh id hid ((r.run_taking c).used id hused)
    rw [found_cons]
    cases hfound : r.found? (r.run c).1 with
    | none => exact ⟨hnodup,hlater⟩
    | some id =>
      obtain ⟨hfree,hused⟩ := found?_run hfound
      refine ⟨List.nodup_cons.mpr ⟨fun hid => hfresh id hid hused,hnodup⟩,?_⟩
      exact List.forall_mem_cons.mpr ⟨hfree,hlater⟩

/-- Whatever was asked of a context before, a part without an id of its own gets one exactly if an
id from the next one on, but not the last of all, is not in use. It gets the least such id, which
stays in use whatever is asked later. Otherwise the ids are exhausted, and the last one is in use as
well. No id is found twice. -/
theorem least_id_found (c : Context) (requests : List (Request α)) :
    (∀ p : Part α, p.customId = none →
      ((∃ id c', customIdFor p (c.after requests) = (.ok id,c')) ↔
        ∃ id, (c.after requests).nextCustomId ≤ id ∧ id < lastCustomId ∧
          id ∉ (c.after requests).usedCustomIds) ∧
      (∀ id c', customIdFor p (c.after requests) = (.ok id,c') →
        (c.after requests).LeastFree id ∧
          ∀ later : List (Request α), id ∈ (c'.after later).usedCustomIds) ∧
      ∀ e c', customIdFor p (c.after requests) = (.error e,c') →
        e = .customIdsExhausted ∧ lastCustomId ∈ c'.usedCustomIds) ∧
    (c.found requests).Nodup := by
  refine ⟨fun p hp => ?_,(found_nodup c requests).1⟩
  generalize c.after requests = d
  have hsearch := customIdFor_search hp d
  refine ⟨⟨?_,?_⟩,?_,?_⟩
  · rintro ⟨id,c',h⟩
    obtain ⟨hleast,hlt,_⟩ := customIdFor_ok hp h
    exact ⟨id,hleast.next_le,hlt,hleast.free⟩
  · rintro ⟨id,hle,hlt,hfree⟩
    generalize customIdFor p d = y at hsearch
    cases hsearch with
    | found id' hleast hlt' => exact ⟨_,_,rfl⟩
    | last hleast => exact absurd (hleast.least id hle hfree) (UInt32.not_le.mpr hlt)
    | none hall => exact absurd (hall id hle) hfree
  · intro id c' h
    obtain ⟨hleast,_,rfl⟩ := customIdFor_ok hp h
    exact ⟨hleast,fun later => (grows_after _ later).used id List.mem_cons_self⟩
  · intro e c' h
    rw [h] at hsearch
    cases hsearch with
    | last => exact ⟨rfl,List.mem_cons_self⟩
    | none hall => exact ⟨rfl,hall _ (le_lastCustomId _)⟩

section Knobs

/-- A part, which may have an id of its own. -/
def knob (name : String) (chosen : Option UInt32) : Part Float :=
  { name, low := ⟨0,0,0⟩, high := ⟨1,1,1⟩, origin := ⟨0,0,0⟩, rotation := ⟨0,0,0⟩, faces := {},
    customId := chosen }

/-- A context whose first id is the fourth from the end. -/
def nearEnd : Context :=
  ⟨{ firstCustomId := 0xFFFFFFFC },0,0xFFFFFFFC,[]⟩

/-- Two parts have chosen the first id and the one before the last. -/
def knobs : List (Request Float) :=
  [.chosen "knobs" [.part (knob "low" (some 0xFFFFFFFC)),.part (knob "high" (some 0xFFFFFFFE))]]

/-- Another part gets the id between the two, and keeps it. -/
theorem knobs_found : Context.ofOptions { firstCustomId := 0xFFFFFFFC } = .ok nearEnd ∧
    ∃ c', customIdFor (knob "free" none) (nearEnd.after knobs) = (.ok 0xFFFFFFFD,c') ∧
      (nearEnd.after knobs).LeastFree 0xFFFFFFFD ∧
        0xFFFFFFFD ∈ (c'.after [Request.customId (knob "late" none),.frames 1]).usedCustomIds := by
  have hknobs : nearEnd.after knobs =
    ⟨{ firstCustomId := 0xFFFFFFFC },0,0xFFFFFFFC,[0xFFFFFFFE,0xFFFFFFFC]⟩ := rfl
  obtain ⟨hiff,hleast,_⟩ := (least_id_found nearEnd knobs).1 (knob "free" none) rfl
  obtain ⟨id,c',h⟩ := hiff.mpr ⟨0xFFFFFFFD,by rw [hknobs]; decide⟩
  have hid : (customIdFor (knob "free" none) (nearEnd.after knobs)).1 = .ok 0xFFFFFFFD := rfl
  obtain rfl : id = 0xFFFFFFFD := by
    rw [h] at hid
    exact Except.ok.inj hid
  obtain ⟨hfound,hlater⟩ := hleast _ _ h
  exact ⟨rfl,c',h,hfound,hlater _⟩

/-- Where only the last id of all is left, a part without an id of its own gets none. -/
theorem last_id_not_found :
    let c : Context := ⟨{ firstCustomId := 0xFFFFFFFF },0,0xFFFFFFFF,[]⟩
    Context.ofOptions { firstCustomId := 0xFFFFFFFF } = .ok c ∧
      (∃ id, c.nextCustomId ≤ id ∧ id ∉ c.usedCustomIds) ∧
        ¬∃ id c', customIdFor (knob "free" none) c = (.ok id,c') := by
  intro c
  have hrun : (customIdFor (knob "free" none) c).1 = .error .customIdsExhausted := rfl
  refine ⟨rfl,⟨_,UInt32.le_refl _,List.not_mem_nil⟩,?_⟩
  rintro ⟨id,c',h⟩
  rw [h] at hrun
  cases hrun

end Knobs

end Context
end RigPack
