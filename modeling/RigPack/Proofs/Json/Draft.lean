import RigPack.Json.Draft
import RigPack.Json.Value
import RigPack.Proofs.Json.Numeral

/-!
Values that are written on one line and read again. The reader takes each value from the front of
its text to its last letter, whatever encloses it.
-/

namespace RigPack
namespace Draft

/-- A number as it is read: a numeral, if its whole text is one. -/
def ofNumber (text : String) : Draft :=
  match Numeral.read (Letters.ofString text) with
  | some (n,[]) => .numeral n
  | _ => .cut

mutual

/-- A value as it is read. -/
def ofValue : Value → Draft
  | .null => .null
  | .bool b => .bool b
  | .number text => ofNumber text
  | .string s => .string (some s)
  | .array items => .array (ofItems items)
  | .object members => .object (ofMembers members)

def ofItems : List Value → List Draft
  | [] => []
  | v::rest => ofValue v::ofItems rest

def ofMembers : List (String × Value) → List (Option String × Draft)
  | [] => []
  | (k,v)::rest => (some k,ofValue v)::ofMembers rest

end

lemma ofNumber_whole {text : String} (h : (ofNumber text).whole) :
    ∃ n, Numeral.read (Letters.ofString text) = some (n,[]) ∧ ofNumber text = .numeral n := by
  unfold ofNumber at h ⊢
  split at h
  · exact ⟨_,‹_›,rfl⟩
  · cases h

section Letters

variable {c : Char} {n : Nat} {d : Draft} {text rest tail : List Letter}

lemma skipBlanks_cons (h : c ∉ [' ','\n','\t','\r']) :
    skipBlanks (some c::rest) = some c::rest := by
  simp only [List.mem_cons,List.not_mem_nil,or_false] at h
  rw [skipBlanks,if_neg h]

lemma readValue_scalar (hblank : c ∉ [' ','\n','\t','\r']) (hlist : c ≠ '[')
    (hobject : c ≠ '\x7b') : readValue (n + 1) (some c::rest) = scalar (some c::rest) := by
  simp [readValue,skipBlanks_cons hblank,hlist,hobject]

/-- A list that does not end at once has items. -/
lemma readValue_items (hblank : c ∉ [' ','\n','\t','\r']) (hend : c ≠ ']') :
    readValue (n + 1) (some '['::some c::rest) =
      ⟨.array (readItems n (some c::rest)).result,(readItems n (some c::rest)).rest⟩ := by
  simp [readValue,skipBlanks_cons (by decide : '[' ∉ [' ','\n','\t','\r']),skipBlanks_cons hblank,
    hend]

lemma readValue_members :
    readValue (n + 1) (some '\x7b'::some '"'::rest) =
      ⟨.object (readMembers n (some '"'::rest)).result,(readMembers n (some '"'::rest)).rest⟩ := by
  simp [readValue,skipBlanks_cons (by decide : '\x7b' ∉ [' ','\n','\t','\r']),
    skipBlanks_cons (by decide : '"' ∉ [' ','\n','\t','\r'])]

lemma readItems_last (h : readValue n text = ⟨d,some (some ']'::tail)⟩) :
    readItems (n + 1) text = ⟨[d],some tail⟩ := by
  simp [readItems,h,skipBlanks_cons (by decide : ']' ∉ [' ','\n','\t','\r'])]

lemma readItems_more (h : readValue n text = ⟨d,some (some ','::rest)⟩) :
    readItems (n + 1) text = ⟨d::(readItems n rest).result,(readItems n rest).rest⟩ := by
  simp [readItems,h,skipBlanks_cons (by decide : ',' ∉ [' ','\n','\t','\r'])]

/-- A member up to its value. -/
lemma key_quote (k : String) :
    key (skipBlanks (some '"'::(Literal.inside k ++ some ':'::rest))) = ⟨some k,some rest⟩ := by
  simp [key,skipBlanks_cons (by decide : '"' ∉ [' ','\n','\t','\r']),Literal.read_inside,
    skipBlanks_cons (by decide : ':' ∉ [' ','\n','\t','\r'])]

lemma readMembers_last {k : String} (h : readValue n text = ⟨d,some (some '\x7d'::tail)⟩) :
    readMembers (n + 1) (some '"'::(Literal.inside k ++ some ':'::text)) =
      ⟨[(some k,d)],some tail⟩ := by
  simp [readMembers,key_quote,h,skipBlanks_cons (by decide : '\x7d' ∉ [' ','\n','\t','\r'])]

lemma readMembers_more {k : String} (h : readValue n text = ⟨d,some (some ','::rest)⟩) :
    readMembers (n + 1) (some '"'::(Literal.inside k ++ some ':'::text)) =
      ⟨(some k,d)::(readMembers n rest).result,(readMembers n rest).rest⟩ := by
  simp [readMembers,key_quote,h,skipBlanks_cons (by decide : ',' ∉ [' ','\n','\t','\r'])]

end Letters

/-- What stands first in the text of a value is no blank and ends no list. -/
lemma head_compact {v : Value} (h : (ofValue v).whole) : ∃ c rest,
    Letters.ofString v.compact = some c::rest ∧ c ∉ [' ','\n','\t','\r'] ∧ c ≠ ']' := by
  match v with
  | .null => exact ⟨'n',_,rfl,by decide,by decide⟩
  | .bool true => exact ⟨'t',_,rfl,by decide,by decide⟩
  | .bool false => exact ⟨'f',_,rfl,by decide,by decide⟩
  | .number text =>
    obtain ⟨n,hn,_⟩ := ofNumber_whole (by simpa [ofValue] using h)
    obtain ⟨c,rest,hc,hdigit⟩ := Numeral.head_of_read hn
    refine ⟨c,rest,hc,?_,?_⟩
    · intro hm
      fin_cases hm <;> simp at hdigit
    · rintro rfl
      simp at hdigit
  | .string s => exact ⟨'"',_,Literal.ofString_quote s,by decide,by decide⟩
  | .array [] => exact ⟨'[',_,rfl,by decide,by decide⟩
  | .array (v::rest) =>
    exact ⟨'[',_,by simp only [Value.compact,Letters.ofString_append]; rfl,by decide,by decide⟩
  | .object [] => exact ⟨'\x7b',_,rfl,by decide,by decide⟩
  | .object ((k,v)::rest) =>
    exact ⟨'\x7b',_,by simp only [Value.compact,Letters.ofString_append]; rfl,by decide,by decide⟩

/-- A number is read wherever it stands. -/
lemma readValue_number {text : String} {n : Nat} {tail : List Letter} (h : (ofNumber text).whole)
    (ht : Numeral.Bounds tail) :
    readValue (n + 1) (Letters.ofString text ++ tail) = ⟨ofNumber text,some tail⟩ := by
  obtain ⟨numeral,hread,hdraft⟩ := ofNumber_whole h
  have hlonger := Numeral.read_append ht hread
  obtain ⟨c,rest,hc,hdigit⟩ := Numeral.head_of_read hread
  rw [hc,List.cons_append] at hlonger ⊢
  have hne : ∀ l ∈ [' ','\n','\t','\r','[','\x7b','"','n','t','f'], c ≠ l := by
    rintro l hl rfl
    fin_cases hl <;> simp at hdigit
  simp only [List.forall_mem_cons] at hne
  obtain ⟨_,_,_,_,hlist,hobject,hquote,hnull,htrue,hfalse,_⟩ := hne
  rw [readValue_scalar (by simp [*]) hlist hobject]
  simp [scalar,hquote,hnull,htrue,hfalse,hlonger,hdraft]

lemma bounds_cons {c : Char} {tail : List Letter} (h : c ∈ [',',']','\x7d']) :
    Numeral.Bounds (some c::tail) := by
  rintro _ ⟨⟩
  fin_cases h <;> decide

section Texts

variable (k : String) (v : Value) (items : List Value) (members : List (String × Value))

lemma ofString_array : Letters.ofString (Value.array (v::items)).compact =
    some '['::(Letters.ofString v.compact ++
      (Letters.ofString (Value.compactItems items) ++ [some ']'])) := by
  simp only [Value.compact,Letters.ofString_append,List.append_assoc]
  rfl

lemma ofString_compactItems : Letters.ofString (Value.compactItems (v::items)) =
    some ','::(Letters.ofString v.compact ++ Letters.ofString (Value.compactItems items)) := by
  simp only [Value.compactItems,Letters.ofString_append,List.append_assoc]
  rfl

lemma ofString_object : Letters.ofString (Value.object ((k,v)::members)).compact =
    some '\x7b'::some '"'::(Literal.inside k ++ some ':'::(Letters.ofString v.compact ++
      (Letters.ofString (Value.compactMembers members) ++ [some '\x7d']))) := by
  simp only [Value.compact,Letters.ofString_append,List.append_assoc,Literal.ofString_quote]
  rfl

lemma ofString_compactMembers : Letters.ofString (Value.compactMembers ((k,v)::members)) =
    some ','::some '"'::(Literal.inside k ++ some ':'::(Letters.ofString v.compact ++
      Letters.ofString (Value.compactMembers members))) := by
  simp only [Value.compactMembers,Letters.ofString_append,List.append_assoc,
    Literal.ofString_quote]
  rfl

end Texts

lemma wholeItems_ofItems {l : List Value} :
    wholeItems (ofItems l) ↔ ∀ v ∈ l, (ofValue v).whole := by
  induction l with
  | nil => simp [ofItems,wholeItems]
  | cons v l ih => simp [ofItems,wholeItems,ih]

lemma wholeMembers_ofMembers {l : List (String × Value)} :
    wholeMembers (ofMembers l) ↔ ∀ m ∈ l, (ofValue m.2).whole := by
  induction l with
  | nil => simp [ofMembers,wholeMembers]
  | cons m l ih =>
    obtain ⟨k,v⟩ := m
    simp [ofMembers,wholeMembers,ih]

/-- A value is read as it was written, up to what follows it. -/
def ReadBack (v : Value) : Prop :=
  ∀ n tail, 2 * (Letters.ofString v.compact).length ≤ n → Numeral.Bounds tail →
    readValue n (Letters.ofString v.compact ++ tail) = ⟨ofValue v,some tail⟩

/-- A value that is read in one step. -/
lemma ReadBack.of_step {v : Value} (hv : (ofValue v).whole)
    (h : ∀ n tail, Numeral.Bounds tail →
      readValue (n + 1) (Letters.ofString v.compact ++ tail) = ⟨ofValue v,some tail⟩) :
    ReadBack v := by
  intro n tail hn ht
  obtain ⟨c,rest,hc,_⟩ := head_compact hv
  rw [hc,List.length_cons] at hn
  obtain ⟨n,rfl⟩ : ∃ m, n = m + 1 := ⟨n - 1,by omega⟩
  exact h n tail ht

/-- So are the items of a list, one after the other, if each of them is. -/
lemma readItems_compact {v : Value} {rest : List Value} (h : ∀ w ∈ v::rest, ReadBack w) (n : Nat)
    (tail : List Letter) (hn : 2 * ((Letters.ofString v.compact).length +
      (Letters.ofString (Value.compactItems rest)).length) + 1 ≤ n) :
    readItems n (Letters.ofString v.compact ++
      (Letters.ofString (Value.compactItems rest) ++ some ']'::tail)) =
        ⟨ofItems (v::rest),some tail⟩ := by
  induction rest generalizing v n with
  | nil =>
    obtain ⟨n,rfl⟩ : ∃ m, n = m + 1 := ⟨n - 1,by omega⟩
    have hv := h v List.mem_cons_self n (some ']'::tail) (by omega) (bounds_cons (by decide))
    simp only [Value.compactItems,Letters.ofString_empty,List.nil_append,ofItems]
    exact readItems_last hv
  | cons w rest ih =>
    obtain ⟨n,rfl⟩ : ∃ m, n = m + 1 := ⟨n - 1,by omega⟩
    obtain ⟨hv,hrest⟩ := List.forall_mem_cons.mp h
    rw [ofString_compactItems] at hn ⊢
    simp only [List.length_cons,List.length_append] at hn
    simp only [List.cons_append,List.append_assoc]
    rw [readItems_more (hv _ _ (by omega) (bounds_cons (by decide))),ih hrest n (by omega)]
    rfl

/-- And so are the members of an object. -/
lemma readMembers_compact {k : String} {v : Value} {rest : List (String × Value)}
    (h : ∀ m ∈ (k,v)::rest, ReadBack m.2) (n : Nat) (tail : List Letter)
    (hn : 2 * ((Letters.ofString v.compact).length +
      (Letters.ofString (Value.compactMembers rest)).length) + 1 ≤ n) :
    readMembers n (some '"'::(Literal.inside k ++ some ':'::(Letters.ofString v.compact ++
      (Letters.ofString (Value.compactMembers rest) ++ some '\x7d'::tail)))) =
        ⟨ofMembers ((k,v)::rest),some tail⟩ := by
  induction rest generalizing k v n with
  | nil =>
    obtain ⟨n,rfl⟩ : ∃ m, n = m + 1 := ⟨n - 1,by omega⟩
    have hv := h (k,v) List.mem_cons_self n (some '\x7d'::tail) (by dsimp only; omega)
      (bounds_cons (by decide))
    simp only [Value.compactMembers,Letters.ofString_empty,List.nil_append,ofMembers]
    exact readMembers_last hv
  | cons m rest ih =>
    obtain ⟨n,rfl⟩ : ∃ m, n = m + 1 := ⟨n - 1,by omega⟩
    obtain ⟨hv,hrest⟩ := List.forall_mem_cons.mp h
    obtain ⟨l,w⟩ := m
    rw [ofString_compactMembers] at hn ⊢
    simp only [List.length_cons,List.length_append] at hn
    simp only [List.cons_append,List.append_assoc]
    rw [readMembers_more (hv _ _ (by dsimp only; omega) (bounds_cons (by decide))),
      ih hrest n (by omega)]
    rfl

lemma readBack_array {items : List Value} (h : ∀ v ∈ items, (ofValue v).whole ∧ ReadBack v) :
    ReadBack (.array items) := by
  cases items with
  | nil => exact .of_step rfl fun _ _ _ => rfl
  | cons v rest =>
    intro n tail hn ht
    rw [ofString_array] at hn ⊢
    simp only [List.length_cons,List.length_append,List.length_nil] at hn
    obtain ⟨n,rfl⟩ : ∃ m, n = m + 1 := ⟨n - 1,by omega⟩
    have hitems := readItems_compact (fun w hw => (h w hw).2) n tail (by omega)
    obtain ⟨c,more,hc,hblank,hend⟩ := head_compact (h v List.mem_cons_self).1
    rw [hc,List.cons_append] at hitems
    simp only [hc,List.cons_append,List.append_assoc,List.nil_append]
    rw [readValue_items hblank hend,hitems]
    rfl

lemma readBack_object {members : List (String × Value)} (h : ∀ m ∈ members, ReadBack m.2) :
    ReadBack (.object members) := by
  cases members with
  | nil => exact .of_step rfl fun _ _ _ => rfl
  | cons m rest =>
    intro n tail hn ht
    obtain ⟨k,v⟩ := m
    rw [ofString_object] at hn ⊢
    simp only [List.length_cons,List.length_append,List.length_nil] at hn
    obtain ⟨n,rfl⟩ : ∃ m, n = m + 1 := ⟨n - 1,by omega⟩
    have hmembers := readMembers_compact h n tail (by omega)
    simp only [List.cons_append,List.append_assoc,List.nil_append]
    rw [readValue_members,hmembers]
    rfl

/-- A value whose numbers are numerals is read as it was written. -/
theorem readBack (v : Value) (h : (ofValue v).whole) : ReadBack v := by
  match v with
  | .array items =>
    have hitems := wholeItems_ofItems.mp (by simpa only [ofValue,whole] using h)
    exact readBack_array fun w hw => ⟨hitems w hw,readBack w (hitems w hw)⟩
  | .object members =>
    have hmembers := wholeMembers_ofMembers.mp (by simpa only [ofValue,whole] using h)
    exact readBack_object fun m hm => readBack m.2 (hmembers m hm)
  | .null => exact .of_step h fun _ _ _ => rfl
  | .bool true => exact .of_step h fun _ _ _ => rfl
  | .bool false => exact .of_step h fun _ _ _ => rfl
  | .number text =>
    refine .of_step h fun n tail ht => ?_
    rw [ofValue] at h ⊢
    exact readValue_number h ht
  | .string s =>
    refine .of_step h fun n tail _ => ?_
    rw [Value.compact,Literal.ofString_quote,List.cons_append,
      readValue_scalar (by decide) (by decide) (by decide)]
    simp [scalar,Literal.read_inside,ofValue]
termination_by sizeOf v
decreasing_by
  · have := List.sizeOf_lt_of_mem hw
    simp only [Value.array.sizeOf_spec]
    omega
  · have := List.sizeOf_lt_of_mem hm
    have : sizeOf m = 1 + sizeOf m.1 + sizeOf m.2 := by cases m; rfl
    simp only [Value.object.sizeOf_spec]
    omega

/-- A value whose numbers are numerals is read back whole from its text. -/
theorem ofLetters_compact {v : Value} (h : (ofValue v).whole) :
    ofLetters (Letters.ofString v.compact) = ⟨ofValue v,true⟩ := by
  have hread := readBack v h (2 * (Letters.ofString v.compact).length + 2) [] (by omega) nofun
  rw [List.append_nil] at hread
  rw [ofLetters,hread]
  rfl

end Draft
end RigPack
