import RigPack.Proofs.Json.Decoder
import RigPack.Rig.Decode

/-!
What the decoders of rigs give: each record with the room that it took, and the parts of which it
was made. All numbers of a rig that was decoded are numbers that numerals denote.
-/

namespace RigPack

variable {α : Type}

section Numbers

/-- The numbers of a part, in the order in which they are written. -/
def Part.numbers (p : Part α) : List α :=
  p.low.toList ++ p.high.toList ++ p.origin.toList ++ p.rotation.toList ++
    p.faces.toList.flatMap fun f => f.2.uv.toList

mutual

def Node.numbers : Node α → List α
  | .part p => p.numbers
  | .bone b children => b.origin.toList ++ b.rotation.toList ++ numbersOf children

def Node.numbersOf : List (Node α) → List α
  | [] => []
  | n::rest => n.numbers ++ numbersOf rest

end

def Keyframe.numbers (k : Keyframe α) : List α :=
  k.time::k.points.flatMap Vec3.toList

def Animation.numbers (a : Animation α) : List α :=
  a.length::a.tracks.toList.flatMap fun t => t.2.flatMap Keyframe.numbers

/-- The numbers of a rig, in the order in which they are written. -/
def Rig.numbers (r : Rig α) : List α :=
  Node.numbersOf r.roots ++ r.animations.flatMap Animation.numbers

lemma Node.mem_numbersOf {l : List (Node α)} {x : α} :
    x ∈ Node.numbersOf l ↔ ∃ n ∈ l, x ∈ n.numbers := by
  induction l with
  | nil => simp [Node.numbersOf]
  | cons n l ih => simp [Node.numbersOf,ih]

end Numbers

lemma Faces.get?_of_mem {fs : Faces α} {p : Side × Face α} (h : p ∈ fs.toList) :
    fs.get? p.1 = some p.2 := by
  obtain ⟨side,_,hside⟩ := List.mem_filterMap.mp h
  obtain ⟨f,hf,rfl⟩ := Option.map_eq_some_iff.mp hside
  exact hf

open Decoder JsonNumber

section Yields

variable [JsonNumber α] {room : Nat} {countsFirst : Bool}

lemma Vec3.yields {v : Vec3 α} (h : Yields Decode.vec3 room v) :
    ∃ n, room = n + 2 ∧ ∀ x ∈ v.toList, Denoted x := by
  obtain ⟨n,l,hn,hv,hall⟩ := Yields.tuple h
  obtain rfl := Vec3.ofList?_eq_some_iff.mp hv
  exact ⟨n,hn,fun x hx => (hall x hx).number⟩

lemma Face.yields {f : Face α} (h : Yields Decode.face room f) :
    ∃ n, room = n + 3 ∧ ∀ x ∈ f.uv.toList, Denoted x := by
  obtain ⟨n,r,rfl,hfields,hmake⟩ := record_ok h
  obtain ⟨uv,huv,hmake⟩ := Except.bind_ok hmake
  cases hmake
  obtain ⟨m,l,hm,hl,hall⟩ := Yields.tuple (hfields.require huv)
  obtain rfl : n = m + 1 := Nat.succ.inj hm
  refine ⟨m,rfl,fun x hx => (hall x ?_).number⟩
  match l, hl with
  | [_,_,_,_], hl =>
    cases hl
    exact hx

lemma Faces.yields {fs : Faces α} (h : Yields Decode.faces room fs) :
    ∃ n, room = n + 2 ∧ ∀ p ∈ fs.toList, Yields Decode.face (n + 1) p.2 := by
  obtain ⟨n,hn,hall⟩ := Yields.entries h
  have hsides := hall (fun fs => ∀ side f, fs.get? side = some f → Yields Decode.face (n + 1) f)
    ?_ ?_
  · exact ⟨n,hn,fun p hp => hsides p.1 p.2 (Faces.get?_of_mem hp)⟩
  · rintro (_ | _) f hf <;> cases hf
  · rintro done k p hdone ⟨d,hp⟩ side f hf
    obtain ⟨side',_,hp⟩ := Except.bind_ok hp
    obtain ⟨f',hface,hp⟩ := Except.bind_ok hp
    cases hp
    rw [Faces.get?_set] at hf
    split at hf
    · cases hf
      exact ⟨d,hface⟩
    · exact hdone side f hf

lemma Keyframe.yields {k : Keyframe α} (h : Yields (Decode.keyframe countsFirst) room k) :
    ∀ x ∈ k.numbers, Denoted x := by
  obtain ⟨n,r,rfl,hfields,hmake⟩ := record_ok h
  obtain ⟨_,_,hmake⟩ := Except.bind_ok hmake
  obtain ⟨_,htime,hmake⟩ := Except.bind_ok hmake
  obtain ⟨_,hpoints,hmake⟩ := Except.bind_ok hmake
  cases hmake
  obtain ⟨m,_,hall⟩ := (hfields.require hpoints).list
  simp only [Keyframe.numbers,List.forall_mem_cons,List.forall_mem_flatMap]
  refine ⟨(hfields.require htime).number,fun v hv => ?_⟩
  obtain ⟨_,_,hv⟩ := Vec3.yields (hall v hv)
  exact hv

lemma Tracks.yields {t : Tracks α} (h : Yields (Decode.tracks countsFirst) room t) :
    ∀ p ∈ t.toList, ∀ k ∈ p.2, ∀ x ∈ k.numbers, Denoted x := by
  obtain ⟨n,_,hall⟩ := Yields.entries h
  have hbones := hall (fun t => ∀ (bone : String) (keys : List (Keyframe α)),
    t[bone]? = some keys → ∀ k ∈ keys, ∀ x ∈ k.numbers, Denoted x) ?_ ?_
  · exact fun p hp => hbones p.1 p.2 (Std.ExtTreeMap.mem_toList_iff_getElem?_eq_some.mp hp)
  · intro bone keys hkeys
    simp at hkeys
  · intro done bone keys hdone hkeys bone' keys' hkeys'
    rw [Std.ExtTreeMap.getElem?_insert] at hkeys'
    split at hkeys'
    · cases hkeys'
      obtain ⟨_,_,hlist⟩ := hkeys.list
      exact fun k hk => Keyframe.yields (hlist k hk)
    · exact hdone bone' keys' hkeys'

lemma Animation.yields {a : Animation α} (h : Yields (Decode.animation countsFirst) room a) :
    ∀ x ∈ a.numbers, Denoted x := by
  obtain ⟨n,r,rfl,hfields,hmake⟩ := record_ok h
  obtain ⟨_,_,hmake⟩ := Except.bind_ok hmake
  obtain ⟨_,hlength,hmake⟩ := Except.bind_ok hmake
  cases hmake
  simp only [Animation.numbers,List.forall_mem_cons,List.forall_mem_flatMap]
  refine ⟨(hfields.require hlength).number,?_⟩
  obtain htracks | htracks := hfields.getD .tracks ∅
  · rw [htracks]
    simp
  · exact Tracks.yields htracks

variable [Scalar α]

lemma Part.yields {p : Part α} (h : Yields Decode.part room p) :
    ∃ n, room = n + 3 ∧ (∀ v ∈ [p.low,p.high,p.origin], Yields Decode.vec3 (n + 2) v) ∧
      (p.rotation = .zero ∨ Yields Decode.vec3 (n + 2) p.rotation) ∧
      (p.faces = {} ∨ Yields Decode.faces (n + 2) p.faces) := by
  obtain ⟨n,r,rfl,hfields,hmake⟩ := record_ok h
  obtain ⟨_,_,hmake⟩ := Except.bind_ok hmake
  obtain ⟨_,hlow,hmake⟩ := Except.bind_ok hmake
  obtain ⟨_,hhigh,hmake⟩ := Except.bind_ok hmake
  obtain ⟨_,horigin,hmake⟩ := Except.bind_ok hmake
  cases hmake
  replace hlow := hfields.require hlow
  obtain ⟨m,hm,_⟩ := Vec3.yields hlow
  obtain rfl : n = m + 1 := Nat.succ.inj hm
  refine ⟨m,rfl,?_,hfields.getD .rotation .zero,hfields.getD .faces {}⟩
  simp only [List.forall_mem_cons]
  exact ⟨hlow,hfields.require hhigh,hfields.require horigin,List.forall_mem_nil _⟩

/-- A bone has three less room for its children than for its own record. -/
lemma Bone.yields {child : Draft → Except DecodeFault (Node α)} {n : Node α}
    (h : Yields (Decode.bone child) room n) : ∃ m b children, room = m + 3 ∧
      n = .bone b children ∧ Yields Decode.vec3 (m + 2) b.origin ∧
      (b.rotation = .zero ∨ Yields Decode.vec3 (m + 2) b.rotation) ∧
      ∀ c ∈ children, ∃ d, child d = .ok c := by
  obtain ⟨n,r,rfl,hfields,hmake⟩ := record_ok h
  obtain ⟨_,_,hmake⟩ := Except.bind_ok hmake
  obtain ⟨_,horigin,hmake⟩ := Except.bind_ok hmake
  cases hmake
  replace horigin := hfields.require horigin
  obtain ⟨m,hm,_⟩ := Vec3.yields horigin
  obtain rfl : n = m + 1 := Nat.succ.inj hm
  refine ⟨m,_,_,rfl,rfl,horigin,hfields.getD .rotation .zero,?_⟩
  obtain hchildren | hchildren := hfields.getD .children []
  · rw [hchildren]
    exact List.forall_mem_nil _
  · obtain ⟨_,_,hall⟩ := hchildren.list
    exact hall

variable (countsFirst) in
/-- What reads the children of a node has three less room than the node. -/
lemma Decode.node_eq (room : Nat) : ∃ child, Decode.node (α := α) countsFirst room =
    Decode.nodeOver countsFirst child room ∧
      ∀ n, room = n + 3 → child = Decode.node countsFirst n := by
  match room with
  | 0 => exact ⟨_,rfl,nofun⟩
  | 1 => exact ⟨_,rfl,nofun⟩
  | 2 => exact ⟨_,rfl,nofun⟩
  | n + 3 => exact ⟨_,rfl,fun m hm => by rw [Nat.add_right_cancel hm]⟩

/-- A node is a part, or it is a bone whose children had three less room. -/
lemma Node.yields {n : Node α} (h : Yields (Decode.node countsFirst) room n) :
    (∃ m p, room = m + 2 ∧ n = .part p ∧ Yields Decode.part (m + 1) p) ∨
      ∃ m b children, room = m + 4 ∧ n = .bone b children ∧ Yields Decode.vec3 (m + 2) b.origin ∧
        (b.rotation = .zero ∨ Yields Decode.vec3 (m + 2) b.rotation) ∧
        ∀ c ∈ children, Yields (Decode.node countsFirst) (m + 1) c := by
  obtain ⟨d,hd⟩ := h
  obtain ⟨child,hchild,hdeeper⟩ := Decode.node_eq (α := α) countsFirst room
  rw [hchild] at hd
  obtain ⟨s,hs⟩ | ⟨m,k,read,rfl,htag,hread⟩ := Yields.variant ⟨d,hd⟩
  · split at hs <;> cases hs
  split at htag
  · cases htag
    obtain ⟨j,b,children,hj,hn,horigin,hrotation,hall⟩ := Bone.yields hread
    obtain rfl : m = j + 2 := Nat.succ.inj hj
    obtain rfl := hdeeper (j + 1) rfl
    exact .inr ⟨j,b,children,rfl,hn,horigin,hrotation,hall⟩
  · cases htag
    obtain ⟨d,hread⟩ := hread
    obtain ⟨p,hp,hread⟩ := Except.bind_ok hread
    cases hread
    exact .inl ⟨m,p,rfl,rfl,d,hp⟩
  · cases htag

lemma Rig.yields {r : Rig α} (h : Yields (Decode.rig countsFirst) room r) :
    ∃ n, room = n + 3 ∧ (∀ c ∈ r.roots, Yields (Decode.node countsFirst) (n + 1) c) ∧
      ∀ a ∈ r.animations, ∃ room, Yields (Decode.animation countsFirst) room a := by
  obtain ⟨n,fields,rfl,hfields,hmake⟩ := record_ok h
  obtain ⟨_,_,hmake⟩ := Except.bind_ok hmake
  obtain ⟨roots,hroots,hmake⟩ := Except.bind_ok hmake
  cases hmake
  obtain ⟨m,hm,hnodes⟩ := (hfields.require hroots).list
  obtain rfl : n = m + 1 := Nat.succ.inj hm
  refine ⟨m,rfl,hnodes,?_⟩
  obtain hanimations | hanimations := hfields.getD .animations []
  · rw [hanimations]
    exact List.forall_mem_nil _
  · obtain ⟨_,_,hall⟩ := hanimations.list
    exact fun a ha => ⟨_,hall a ha⟩

end Yields

section Denoted

variable [JsonNumber α] [Scalar α] {room : Nat} {countsFirst : Bool}

/-- A vector that was decoded, or the one that stands where none was given. -/
lemma Vec3.denoted (hzero : Denoted ((0 : Nat) : α)) {v : Vec3 α}
    (h : v = .zero ∨ Yields Decode.vec3 room v) : ∀ x ∈ v.toList, Denoted x := by
  obtain rfl | h := h
  · simpa [Vec3.zero,Vec3.toList] using hzero
  · obtain ⟨_,_,hv⟩ := Vec3.yields h
    exact hv

lemma Part.denoted (hzero : Denoted ((0 : Nat) : α)) {p : Part α}
    (h : Yields Decode.part room p) : ∀ x ∈ p.numbers, Denoted x := by
  obtain ⟨n,_,hgiven,hrotation,hfaces⟩ := Part.yields h
  simp only [List.forall_mem_cons] at hgiven
  obtain ⟨hlow,hhigh,horigin,_⟩ := hgiven
  simp only [Part.numbers,List.forall_mem_append]
  refine ⟨⟨⟨⟨Vec3.denoted hzero (.inr hlow),Vec3.denoted hzero (.inr hhigh)⟩,
    Vec3.denoted hzero (.inr horigin)⟩,Vec3.denoted hzero hrotation⟩,?_⟩
  obtain hfaces | hfaces := hfaces
  · rw [hfaces]
    exact nofun
  · obtain ⟨_,_,hall⟩ := Faces.yields hfaces
    refine List.forall_mem_flatMap.mpr fun f hf => ?_
    obtain ⟨_,_,huv⟩ := Face.yields (hall f hf)
    exact huv

lemma Node.denoted (hzero : Denoted ((0 : Nat) : α)) {n : Node α}
    (h : Yields (Decode.node countsFirst) room n) : ∀ x ∈ n.numbers, Denoted x := by
  induction room using Nat.strong_induction_on generalizing n with
  | _ room ih =>
    obtain ⟨m,p,_,rfl,hp⟩ | ⟨m,b,children,hm,rfl,horigin,hrotation,hall⟩ := Node.yields h
    · rw [Node.numbers]
      exact Part.denoted hzero hp
    · simp only [Node.numbers,List.forall_mem_append]
      refine ⟨⟨Vec3.denoted hzero (.inr horigin),Vec3.denoted hzero hrotation⟩,fun x hx => ?_⟩
      obtain ⟨c,hc,hx⟩ := Node.mem_numbersOf.mp hx
      exact ih (m + 1) (by omega) (hall c hc) x hx

/-- All numbers of a rig come from numerals, if the number that stands where none was given does. -/
theorem Rig.denoted (hzero : Denoted ((0 : Nat) : α)) {r : Rig α}
    (h : Yields (Decode.rig countsFirst) room r) : ∀ x ∈ r.numbers, Denoted x := by
  obtain ⟨n,_,hroots,hanimations⟩ := Rig.yields h
  simp only [Rig.numbers,List.forall_mem_append,List.forall_mem_flatMap]
  constructor
  · intro x hx
    obtain ⟨c,hc,hx⟩ := Node.mem_numbersOf.mp hx
    exact Node.denoted hzero (hroots c hc) x hx
  · intro a ha
    obtain ⟨_,ha⟩ := hanimations a ha
    exact Animation.yields ha

end Denoted

end RigPack
