import RigPack.Json.Decoder
import RigPack.Proofs.Except
import RigPack.Proofs.Json.Draft

/-!
Decoders in both directions. A decoder takes a written value for what it stands for, if it has room
for the nesting of the value; and what a decoder gives shows how much room it had.
-/

namespace RigPack

namespace Draft

lemma ofNumber_of_read {text : String} {n : Numeral}
    (h : Numeral.read (Letters.ofString text) = some (n,[])) : ofNumber text = .numeral n := by
  rw [ofNumber,h]

lemma ofNumber_ne_null (text : String) : ofNumber text ≠ .null := by
  unfold ofNumber
  split <;> exact nofun

lemma ofItems_map {β : Type} (f : β → Value) (l : List β) :
    ofItems (l.map f) = l.map fun b => ofValue (f b) := by
  induction l with
  | nil => rfl
  | cons b l ih => rw [List.map_cons,ofItems,ih,List.map_cons]

lemma depthItems_lt {vs : List Value} {n : Nat} :
    depthItems (ofItems vs) < n + 1 ↔ ∀ v ∈ vs, (ofValue v).depth < n + 1 := by
  induction vs with
  | nil => simp [ofItems,depthItems]
  | cons v vs ih => simp only [ofItems,depthItems,max_lt_iff,List.forall_mem_cons,ih]

lemma depthMembers_lt {ms : List (String × Value)} {n : Nat} :
    depthMembers (ofMembers ms) < n + 1 ↔ ∀ m ∈ ms, (ofValue m.2).depth < n + 1 := by
  induction ms with
  | nil => simp [ofMembers,depthMembers]
  | cons m ms ih =>
    obtain ⟨k,v⟩ := m
    simp only [ofMembers,depthMembers,max_lt_iff,List.forall_mem_cons,ih]

end Draft

namespace Value

/-- How many lists and objects enclose the innermost part of a value. -/
def depth (v : Value) : Nat :=
  (Draft.ofValue v).depth

@[simp] lemma depth_number (text : String) : (Value.number text).depth = 0 := by
  rw [depth,Draft.ofValue,Draft.ofNumber]
  split <;> rfl

/-- Room for a list is room for its items and one more. -/
lemma depth_array_lt {vs : List Value} {n : Nat} :
    (Value.array vs).depth < n + 2 ↔ ∀ v ∈ vs, v.depth < n + 1 :=
  Nat.succ_lt_succ_iff.trans Draft.depthItems_lt

lemma depth_object_lt {ms : List (String × Value)} {n : Nat} :
    (Value.object ms).depth < n + 2 ↔ ∀ m ∈ ms, m.2.depth < n + 1 :=
  Nat.succ_lt_succ_iff.trans Draft.depthMembers_lt

lemma exists_room_array {vs : List Value} {room : Nat} (h : (Value.array vs).depth < room) :
    ∃ n, room = n + 2 ∧ ∀ v ∈ vs, v.depth < n + 1 := by
  have hpos : 0 < (Value.array vs).depth := Nat.succ_pos _
  obtain ⟨n,rfl⟩ : ∃ n, room = n + 2 := ⟨room - 2,by omega⟩
  exact ⟨n,rfl,depth_array_lt.mp h⟩

lemma exists_room_object {ms : List (String × Value)} {room : Nat}
    (h : (Value.object ms).depth < room) : ∃ n, room = n + 2 ∧ ∀ m ∈ ms, m.2.depth < n + 1 := by
  have hpos : 0 < (Value.object ms).depth := Nat.succ_pos _
  obtain ⟨n,rfl⟩ : ∃ n, room = n + 2 := ⟨room - 2,by omega⟩
  exact ⟨n,rfl,depth_object_lt.mp h⟩

end Value

namespace JsonNumber

variable {α : Type} [JsonNumber α] {x : α}

/-- A number that some numeral denotes. -/
def Denoted (x : α) : Prop :=
  ∃ n, ofNumeral? n = some x

/-- What is read of the text of a number. -/
def reread? (x : α) : Option α :=
  match toValue x with
  | .number text =>
    match Draft.ofNumber text with
    | .numeral n => ofNumeral? n
    | _ => none
  | _ => none

/-- A number that is printed and read again as the same number. -/
def ReadsBack (x : α) : Prop :=
  reread? x = some x

instance [DecidableEq α] (x : α) : Decidable (ReadsBack x) :=
  inferInstanceAs (Decidable (_ = _))

lemma ReadsBack.written (h : ReadsBack x) : ∃ text n, toValue x = .number text ∧
    Draft.ofNumber text = .numeral n ∧ ofNumeral? n = some x := by
  unfold ReadsBack reread? at h
  split at h
  · split at h
    · exact ⟨_,_,‹_›,‹_›,h⟩
    · cases h
  · cases h

end JsonNumber

namespace Decoder

variable {α β γ : Type} {room n : Nat}

/-- A decoder takes a written value, which can be read back, for what it stands for. -/
structure Takes (d : Decoder β) (room : Nat) (v : Value) (b : β) : Prop where
  whole : (Draft.ofValue v).whole
  ok : d room (Draft.ofValue v) = .ok b

namespace Takes

lemma text (s : String) : Takes Decoder.text room (.string s) s :=
  ⟨rfl,rfl⟩

lemma number [JsonNumber α] {x : α} (h : JsonNumber.ReadsBack x) :
    Takes Decoder.number room (JsonNumber.toValue x) x := by
  obtain ⟨text,numeral,hvalue,hdraft,hx⟩ := h.written
  rw [hvalue]
  constructor <;> simp [Draft.ofValue,hdraft,Draft.whole,Decoder.number,hx]

lemma word (x : UInt32) : Takes Decoder.word room (.ofNat x.toNat) x := by
  have hlimit : x.toNat ≤ Numeral.significandLimit :=
    x.toNat_lt.le.trans (by decide)
  have hdraft := Draft.ofNumber_of_read (Numeral.read_toString hlimit)
  constructor
  · rw [Value.ofNat,Draft.ofValue,hdraft]
    rfl
  · rw [Value.ofNat,Draft.ofValue,hdraft,Decoder.word,Numeral.toUInt32?_toNat]

lemma map {d : Decoder β} {v : Value} {b : β} (h : Takes d room v b) (f : β → γ) :
    Takes (fun room x => do return f (← d room x)) room v (f b) := by
  refine ⟨h.whole,?_⟩
  simp only [h.ok]
  rfl

lemma null {d : Decoder β} : Takes (Decoder.nullable d) room .null none :=
  ⟨rfl,rfl⟩

lemma nullable {d : Decoder β} {v : Value} {b : β} (h : Takes d room v b)
    (hv : Draft.ofValue v ≠ .null) : Takes (Decoder.nullable d) room v (some b) := by
  refine ⟨h.whole,?_⟩
  unfold Decoder.nullable
  split
  · contradiction
  · rw [h.ok]
    rfl

lemma list {item : Decoder β} {encode : β → Value} {bs : List β}
    (h : ∀ b ∈ bs, Takes item (n + 1) (encode b) b) :
    Takes (Decoder.list item) (n + 2) (.array (bs.map encode)) bs := by
  constructor
  · rw [Draft.ofValue,Draft.whole,Draft.wholeItems_ofItems,List.forall_mem_map]
    exact fun b hb => (h b hb).whole
  · unfold Decoder.list Draft.ofValue
    refine Except.mapM_ok_iff.mpr ?_
    rw [Draft.ofItems_map,List.forall₂_map_left_iff,List.forall₂_same]
    exact fun b hb => (h b hb).ok

lemma tuple {item : Decoder α} {make : List α → Option β} {encode : α → Value} {l : List α} {b : β}
    (h : ∀ a ∈ l, Takes item (n + 1) (encode a) a) (hb : make l = some b) :
    Takes (Decoder.tuple item make) (n + 2) (.array (l.map encode)) b := by
  obtain ⟨hwhole,hl⟩ := list h
  refine ⟨hwhole,?_⟩
  unfold Decoder.tuple
  rw [hl]
  simp only [bind,Except.bind,hb]

lemma entries {ι : Type} {read : String → Decoder β} {add : γ → String → β → γ} {l : List ι}
    (key : ι → String) (encode : ι → Value) (content : ι → β)
    (h : ∀ i ∈ l, Takes (read (key i)) (n + 1) (encode i) (content i)) (start : γ) :
    Takes (Decoder.entries read add start) (n + 2)
      (.object (l.map fun i => (key i,encode i)))
      (l.foldl (fun done i => add done (key i) (content i)) start) := by
  constructor
  · rw [Draft.ofValue,Draft.whole,Draft.wholeMembers_ofMembers,List.forall_mem_map]
    exact fun i hi => (h i hi).whole
  · unfold Decoder.entries Draft.ofValue
    simp only [enter]
    induction l generalizing start with
    | nil => rfl
    | cons i l ih =>
      obtain ⟨hi,hl⟩ := List.forall_mem_cons.mp h
      rw [List.map_cons,Draft.ofMembers,List.foldlM_cons]
      simp only [hi.ok]
      exact ih hl _

section Variant

variable {countsFirst : Bool} {expected : List String}
  {ofName : String → Option (Except DecodeFault β)} {ofTag : String → Option (Decoder β)}

lemma plain {s : String} {b : β} (h : ofName s = some (.ok b)) :
    Takes (variant countsFirst expected ofName ofTag) room (.string s) b := by
  refine ⟨rfl,?_⟩
  simp [Draft.ofValue,variant,h]

lemma kind {ofName : String → Option β} {s : String} {b : β} (h : ofName s = some b) :
    Takes (Decoder.kind countsFirst expected ofName) room (.string s) b :=
  .plain (by rw [h]; rfl)

lemma tagged {k : String} {v : Value} {d : Decoder β} {b : β} (hk : ofTag k = some d)
    (h : Takes d (n + 1) v b) :
    Takes (variant countsFirst expected ofName ofTag) (n + 2) (.object [(k,v)]) b := by
  constructor
  · simp [Draft.ofValue,Draft.ofMembers,Draft.whole,Draft.wholeMembers,h.whole]
  · simp only [Draft.ofValue,Draft.ofMembers,variant,enter,hk,h.ok]
    cases countsFirst <;> rfl

end Variant

end Takes

section Record

variable {F : Type} [DecidableEq F] {T : F → Type} {fields : List F} {name : F → String}
  {field : (f : F) → Decoder (T f)}

variable (fields name field room) in
/-- Members that give the fields of a record one by one, each of them once. -/
inductive Gives : List (String × Value) → Fields T → Fields T → Prop
  | nil {r} : Gives [] r r
  | cons {k v rest r r'} (f : F) (b : T f) :
      (fields.find? fun f => name f == k) = some f → r.get? f = none →
        Takes (field f) room v b → Gives rest (r.set f b) r' → Gives ((k,v)::rest) r r'

lemma Gives.named {ms : List (String × Value)} {r r' : Fields T}
    (h : Gives room fields name field ms r r') :
    Decoder.named fields name field room (Draft.ofMembers ms) r = .ok r' := by
  induction h with
  | nil => rfl
  | cons f b hf hr hb _ ih =>
    rw [Draft.ofMembers,Decoder.named,hf]
    simp only [hr,hb.ok,Option.isSome_none]
    exact ih

lemma Gives.whole {ms : List (String × Value)} {r r' : Fields T}
    (h : Gives room fields name field ms r r') : ∀ m ∈ ms, (Draft.ofValue m.2).whole := by
  induction h with
  | nil => exact List.forall_mem_nil _
  | cons f b hf hr hb _ ih => exact List.forall_mem_cons.mpr ⟨hb.whole,ih⟩

/-- A record is taken from an object that gives its fields. -/
lemma Takes.record {ms : List (String × Value)} {r : Fields T} {β : Type}
    {make : Fields T → Except DecodeFault β} {b : β}
    (h : Gives (n + 1) fields name field ms ⟨fun _ => none,true⟩ r) (hb : make r = .ok b) :
    Takes (fun room d => Decoder.record fields name field room d >>= make) (n + 2) (.object ms)
      b := by
  have hr : Decoder.record fields name field (n + 2) (Draft.ofValue (.object ms)) = .ok r :=
    h.named
  constructor
  · rw [Draft.ofValue,Draft.whole]
    exact Draft.wholeMembers_ofMembers.mpr h.whole
  · simp only [hr]
    exact hb

end Record

section Yields

/-- What a decoder gives for some draft. -/
def Yields (d : Decoder β) (room : Nat) (b : β) : Prop :=
  ∃ draft, d room draft = .ok b

/-- What is entered leaves room inside. -/
lemma enter_ok {inside : Nat → Except DecodeFault β} {b : β} (h : enter room inside = .ok b) :
    ∃ n, room = n + 2 ∧ inside (n + 1) = .ok b := by
  match room with
  | 0 => cases h
  | 1 => cases h
  | n + 2 => exact ⟨n,rfl,h⟩

lemma Yields.number [JsonNumber α] {x : α} (h : Yields Decoder.number room x) :
    JsonNumber.Denoted x := by
  obtain ⟨d,hd⟩ := h
  cases d with
  | numeral n =>
    rw [Decoder.number] at hd
    split at hd
    · cases hd
      exact ⟨n,‹_›⟩
    · cases hd
  | _ => cases hd

lemma Yields.list {item : Decoder β} {bs : List β} (h : Yields (list item) room bs) :
    ∃ n, room = n + 2 ∧ ∀ b ∈ bs, Yields item (n + 1) b := by
  obtain ⟨d,hd⟩ := h
  cases d with
  | array items =>
    rw [Decoder.list] at hd
    obtain ⟨n,rfl,hd⟩ := enter_ok hd
    refine ⟨n,rfl,fun b hb => ?_⟩
    obtain ⟨d,_,hd⟩ := exists_partner_left (Except.mapM_ok_iff.mp hd) b hb
    exact ⟨d,hd⟩
  | _ => cases hd

lemma Yields.tuple {item : Decoder α} {make : List α → Option β} {b : β}
    (h : Yields (tuple item make) room b) :
    ∃ n l, room = n + 2 ∧ make l = some b ∧ ∀ a ∈ l, Yields item (n + 1) a := by
  obtain ⟨d,hd⟩ := h
  obtain ⟨l,hl,hmake⟩ := Except.bind_ok hd
  obtain ⟨n,hn,hall⟩ := Yields.list ⟨d,hl⟩
  split at hmake
  · cases hmake
    exact ⟨n,l,hn,‹_›,hall⟩
  · cases hmake

/-- What holds of entries when there are none, and stays when one more is read, holds of all. -/
lemma Yields.entries {read : String → Decoder β} {add : γ → String → β → γ} {start c : γ}
    (h : Yields (entries read add start) room c) : ∃ n, room = n + 2 ∧ ∀ P : γ → Prop, P start →
      (∀ done k b, P done → Yields (read k) (n + 1) b → P (add done k b)) → P c := by
  obtain ⟨d,hd⟩ := h
  cases d with
  | object members =>
    rw [Decoder.entries] at hd
    obtain ⟨n,rfl,hall⟩ := enter_ok hd
    clear hd
    refine ⟨n,rfl,fun P hstart hadd => ?_⟩
    induction members generalizing start with
    | nil =>
      cases hall
      exact hstart
    | cons m members ih =>
      obtain ⟨k,d⟩ := m
      rw [List.foldlM_cons] at hall
      obtain ⟨done,hdone,hrest⟩ := Except.bind_ok hall
      cases k with
      | none => cases hdone
      | some k =>
        obtain ⟨b,hb,hdone⟩ := Except.bind_ok hdone
        cases hdone
        exact ih hrest (hadd _ _ _ hstart ⟨d,hb⟩)
  | _ => cases hd

lemma Yields.variant {countsFirst : Bool} {expected : List String}
    {plain : String → Option (Except DecodeFault β)} {tagged : String → Option (Decoder β)}
    {b : β} (h : Yields (variant countsFirst expected plain tagged) room b) :
    (∃ s, plain s = some (.ok b)) ∨
      ∃ n k read, room = n + 2 ∧ tagged k = some read ∧ Yields read (n + 1) b := by
  obtain ⟨d,h⟩ := h
  cases d with
  | string s =>
    cases s with
    | none => cases h
    | some s =>
      left
      refine ⟨s,?_⟩
      cases hs : plain s with
      | none => simp [Decoder.variant,hs] at h
      | some r =>
        simp only [Decoder.variant,hs,Option.getD_some] at h
        rw [h]
  | object members =>
    right
    rw [Decoder.variant] at h
    obtain ⟨n,rfl,h⟩ := enter_ok h
    split at h
    · cases h
    · split at h
      · split at h
        · cases h
        · obtain ⟨v,hv,h⟩ := Except.bind_ok h
          split at h
          · cases h
            exact ⟨n,_,_,rfl,‹_›,_,hv⟩
          · cases h
      · cases h
  | _ => cases h

section Record

variable {F : Type} [DecidableEq F] {T : F → Type} {fields : List F} {name : F → String}
  {field : (f : F) → Decoder (T f)}

/-- Fields that have been decoded, each from some draft. -/
def Decoded (field : (f : F) → Decoder (T f)) (room : Nat) (r : Fields T) : Prop :=
  ∀ f b, r.get? f = some b → Yields (field f) room b

lemma Decoded.set {r : Fields T} (h : Decoded field room r) {f : F} {b : T f} {d : Draft}
    (hb : field f room d = .ok b) : Decoded field room (r.set f b) := by
  intro g c hc
  simp only [Fields.set] at hc
  split at hc
  · subst g
    cases hc
    exact ⟨d,hb⟩
  · exact h g c hc

lemma named_ok {ms : List (Option String × Draft)} {r r' : Fields T}
    (h : Decoder.named fields name field room ms r = .ok r') (hr : Decoded field room r) :
    Decoded field room r' := by
  induction ms generalizing r with
  | nil =>
    cases h
    exact hr
  | cons m ms ih =>
    obtain ⟨k,d⟩ := m
    cases k with
    | none => cases h
    | some k =>
      rw [Decoder.named] at h
      split at h
      · split at h
        · exact ih h hr
        · cases h
      · split at h
        · cases h
        · obtain ⟨b,hb,h⟩ := Except.bind_ok h
          exact ih h (hr.set hb)

lemma listed_ok {fs : List F} {ds : List Draft} {r r' : Fields T}
    (h : Decoder.listed field room fs ds r = .ok r') (hr : Decoded field room r) :
    Decoded field room r' := by
  induction ds generalizing fs r with
  | nil =>
    rw [Decoder.listed] at h
    cases h
    exact hr
  | cons d ds ih =>
    cases fs with
    | nil => cases h
    | cons f fs =>
      rw [Decoder.listed] at h
      obtain ⟨b,hb,h⟩ := Except.bind_ok h
      exact ih h (hr.set hb)

/-- What is made of a record is made of fields that had one room less. -/
lemma record_ok {make : Fields T → Except DecodeFault β} {b : β}
    (h : Yields (fun room d => Decoder.record fields name field room d >>= make) room b) :
    ∃ n r, room = n + 2 ∧ Decoded field (n + 1) r ∧ make r = .ok b := by
  obtain ⟨d,hd⟩ := h
  obtain ⟨r,hr,hmake⟩ := Except.bind_ok hd
  cases d with
  | object members =>
    rw [record] at hr
    obtain ⟨n,hn,hnamed⟩ := enter_ok hr
    exact ⟨n,r,hn,named_ok hnamed nofun,hmake⟩
  | array items =>
    rw [record] at hr
    obtain ⟨n,hn,hlisted⟩ := enter_ok hr
    exact ⟨n,r,hn,listed_ok hlisted nofun,hmake⟩
  | _ => cases hr

omit [DecidableEq F] in
/-- A field that must be given has been decoded. -/
lemma Decoded.require {r : Fields T} (h : Decoded field room r) {f : F} {b : T f}
    (hb : r.require name f = .ok b) : Yields (field f) room b := by
  unfold Fields.require at hb
  split at hb
  · cases hb
    exact h f b ‹_›
  · cases hb

omit [DecidableEq F] in
/-- A field that may be left out has been decoded, or it is what it is then. -/
lemma Decoded.getD {r : Fields T} (h : Decoded field room r) (f : F) (b : T f) :
    (r.get? f).getD b = b ∨ Yields (field f) room ((r.get? f).getD b) := by
  cases hb : r.get? f with
  | none => exact .inl rfl
  | some c => exact .inr (h f c hb)

end Record

end Yields

end Decoder
end RigPack
