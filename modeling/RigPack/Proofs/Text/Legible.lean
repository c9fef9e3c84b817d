import Mathlib
import RigPack.Text.Segment

/-!
Texts that can be told from what follows them. A name goes on as long as there are characters of
names, so any other character ends it, and so it is with scores, with lists of names and with lists
of scores.
-/

namespace RigPack
namespace Text

/-- Characters of one kind can be told from what follows them. -/
lemma run_inj {p : Char → Bool} {u v r s : List Char} (hu : ∀ c ∈ u, p c = true)
    (hv : ∀ c ∈ v, p c = true) (hr : ∀ c ∈ r.head?, p c = false) (hs : ∀ c ∈ s.head?, p c = false)
    (h : u ++ r = v ++ s) : u = v ∧ r = s := by
  have hrun {u r : List Char} (hu : ∀ c ∈ u, p c = true) (hr : ∀ c ∈ r.head?, p c = false) :
      (u ++ r).takeWhile p = u := by
    rw [List.takeWhile_append_of_pos hu]
    cases r with
    | nil => simp
    | cons c r => simp [hr c rfl]
  obtain rfl : u = v := by rw [← hrun hu hr,h,hrun hv hs]
  exact ⟨rfl,List.append_cancel_left h⟩

/-- A character that does not occur before ends a text. -/
lemma cut_inj {c : Char} {u v r s : List Char} (hu : c ∉ u) (hv : c ∉ v)
    (h : u ++ c::r = v ++ c::s) : u = v ∧ r = s := by
  have hlacks {u : List Char} (hu : c ∉ u) : ∀ d ∈ u, (d != c) = true :=
    fun d hd => bne_iff_ne.mpr fun hdc => hu (hdc ▸ hd)
  obtain ⟨huv,hrs⟩ := run_inj (hlacks hu) (hlacks hv) (by simp) (by simp) h
  exact ⟨huv,List.tail_eq_of_cons_eq hrs⟩

/-- Splitting takes away the separator and adds nothing. -/
lemma mem_splitOn {x : Char} {l w : List Char} (hw : w ∈ l.splitOn x) :
    ∀ c ∈ w, c ∈ l ∧ c ≠ x := by
  induction l generalizing w with
  | nil =>
    obtain rfl : w = [] := by simpa using hw
    exact nofun
  | cons a l ih =>
    obtain ⟨v,vs,hl⟩ := List.exists_cons_of_ne_nil (List.splitOn_ne_nil x l)
    rw [List.splitOn_cons_eq_if_modifyHead,hl] at hw
    rw [hl] at ih
    have hlater {w : List Char} (hw : w ∈ v::vs) : ∀ c ∈ w, c ∈ a::l ∧ c ≠ x :=
      fun c hc => (ih hw c hc).imp_left (List.mem_cons_of_mem a)
    split at hw
    · rcases List.mem_cons.mp hw with rfl | hw
      · exact nofun
      · exact hlater hw
    · rename_i hax
      rcases List.mem_cons.mp hw with rfl | hw
      · exact List.forall_mem_cons.mpr
          ⟨⟨List.mem_cons_self,by simpa using hax⟩,hlater List.mem_cons_self⟩
      · exact hlater (List.mem_cons_of_mem v hw)

/-- What follows does not go on with a character of names. -/
def Ends (r : List Char) : Prop :=
  ∀ c ∈ r.head?, isSegmentChar c = false

lemma ends_nil : Ends [] := nofun

lemma ends_cons {c : Char} {r : List Char} (h : isSegmentChar c = false) : Ends (c::r) := by
  simpa [Ends] using h

/-- What has the property can be told from its text, whatever follows that ends the text. -/
def Legible {α : Type} (P : α → Prop) (text : α → List Char) : Prop :=
  ∀ ⦃a b r s⦄, P a → P b → Ends r → Ends s → text a ++ r = text b ++ s → a = b ∧ r = s

namespace Legible

variable {α : Type} {P : α → Prop} {text : α → List Char}

lemma eq (h : Legible P text) {a b : α} (ha : P a) (hb : P b) (heq : text a = text b) : a = b :=
  (h ha hb ends_nil ends_nil (congrArg (· ++ []) heq)).1

/-- A mark that is in no name ends the text before it. -/
lemma ends_each {m : Char} {mark : List Char} (hm : isSegmentChar m = false) (l : List α)
    {r : List Char} (hr : Ends r) : Ends ((l.flatMap fun a => m::mark ++ text a) ++ r) := by
  cases l with
  | nil => exact hr
  | cons a l => exact ends_cons hm

/-- Texts that are each led in by a mark can be told from what follows without it. -/
lemma each (h : Legible P text) {m : Char} {mark : List Char} (hm : isSegmentChar m = false)
    {l l' : List α} {r s : List Char} (hl : ∀ a ∈ l, P a) (hl' : ∀ a ∈ l', P a) (hr : Ends r)
    (hs : Ends s) (hmr : ¬(m::mark) <+: r) (hms : ¬(m::mark) <+: s)
    (heq : (l.flatMap fun a => m::mark ++ text a) ++ r =
      (l'.flatMap fun a => m::mark ++ text a) ++ s) : l = l' ∧ r = s := by
  induction l generalizing l' with
  | nil =>
    cases l' with
    | nil => exact ⟨rfl,heq⟩
    | cons b l' => exact absurd ⟨_,by simpa using heq.symm⟩ hmr
  | cons a l ih =>
    cases l' with
    | nil => exact absurd ⟨_,by simpa using heq⟩ hms
    | cons b l' =>
      obtain ⟨ha,hl⟩ := List.forall_mem_cons.mp hl
      obtain ⟨hb,hl'⟩ := List.forall_mem_cons.mp hl'
      simp only [List.flatMap_cons,List.append_assoc,List.append_cancel_left_eq] at heq
      obtain ⟨hab,hrest⟩ := h ha hb (ends_each hm l hr) (ends_each hm l' hs) heq
      obtain ⟨hll,hrs⟩ := ih hl hl' hrest
      exact ⟨by rw [hab,hll],hrs⟩

/-- After the first of listed texts each is led in by the separator. -/
lemma intercalate_cons (c : Char) (a : α) (l : List α) :
    [c].intercalate ((a::l).map text) = text a ++ l.flatMap fun b => c::[] ++ text b := by
  induction l generalizing a with
  | nil => simp
  | cons b l ih =>
    rw [List.map_cons,List.map_cons,List.intercalate_cons_cons,← List.map_cons (f := text),ih]
    simp

/-- Listed texts can be told from what follows, if it does not go on with the separator. -/
lemma listed (h : Legible P text) (hstart : ∀ a, P a → ¬Ends (text a)) {c : Char}
    (hc : isSegmentChar c = false) {l l' : List α} {r s : List Char} (hl : ∀ a ∈ l, P a)
    (hl' : ∀ a ∈ l', P a) (hr : Ends r) (hs : Ends s) (hcr : ¬[c] <+: r) (hcs : ¬[c] <+: s)
    (heq : [c].intercalate (l.map text) ++ r = [c].intercalate (l'.map text) ++ s) :
    l = l' ∧ r = s := by
  -- What ends a text does not begin with one.
  have hne {a : α} (ha : P a) {r s : List Char} (hs : Ends s) : text a ++ r ≠ s := by
    rintro rfl
    exact hstart a ha fun d hd => hs d (by rw [List.head?_append,hd]; rfl)
  cases l with
  | nil =>
    cases l' with
    | nil => exact ⟨rfl,by simpa using heq⟩
    | cons b l' =>
      rw [intercalate_cons,List.append_assoc] at heq
      exact absurd heq.symm (hne (List.forall_mem_cons.mp hl').1 hr)
  | cons a l =>
    cases l' with
    | nil =>
      rw [intercalate_cons,List.append_assoc] at heq
      exact absurd heq (hne (List.forall_mem_cons.mp hl).1 hs)
    | cons b l' =>
      obtain ⟨ha,hl⟩ := List.forall_mem_cons.mp hl
      obtain ⟨hb,hl'⟩ := List.forall_mem_cons.mp hl'
      rw [intercalate_cons,intercalate_cons,List.append_assoc,List.append_assoc] at heq
      obtain ⟨hab,hrest⟩ := h ha hb (ends_each hc l hr) (ends_each hc l' hs) heq
      obtain ⟨hll,hrs⟩ := h.each hc hl hl' hr hs hcr hcs hrest
      exact ⟨by rw [hab,hll],hrs⟩

end Legible

/-- Whether a text is made of characters that names are made of, and is not empty. -/
def isName (s : String) : Bool :=
  s != "" && s.toList.all isSegmentChar

lemma isName_iff {s : String} : isName s ↔ s ≠ "" ∧ ∀ c ∈ s.toList, isSegmentChar c = true := by
  simp [isName]

lemma isName_of_isSegment {s : String} (h : isSegment s) : isName s :=
  isName_iff.mpr ⟨(isSegment_iff.mp h).1,(isSegment_iff.mp h).2.1⟩

lemma isName_append {s t : String} (hs : isName s) (ht : isName t) : isName (s ++ t) := by
  obtain ⟨hne,hs⟩ := isName_iff.mp hs
  refine isName_iff.mpr ⟨fun h => hne (String.append_eq_empty_iff.mp h).1,?_⟩
  rw [String.toList_append]
  exact List.forall_mem_append.mpr ⟨hs,(isName_iff.mp ht).2⟩

lemma not_ends_of_isName {s : String} (h : isName s) : ¬Ends s.toList := by
  obtain ⟨hne,hall⟩ := isName_iff.mp h
  cases hs : s.toList with
  | nil => exact absurd (String.toList_eq_nil_iff.mp hs) hne
  | cons c r =>
    intro hends
    have hc := hall c (hs ▸ List.mem_cons_self)
    rw [hends c rfl] at hc
    cases hc

lemma legible_name : Legible (fun s => isName s) String.toList := by
  intro a b r s ha hb hr hs h
  obtain ⟨hab,hrs⟩ := run_inj (isName_iff.mp ha).2 (isName_iff.mp hb).2 hr hs h
  exact ⟨String.toList_inj.mp hab,hrs⟩

/-- Digits and the sign of whole numbers. -/
def isWholeChar (c : Char) : Bool :=
  c.isDigit || c = '-'

lemma isWholeChar_of_nat {n : Nat} : ∀ c ∈ n.repr.toList, isWholeChar c = true := by
  intro c hc
  rw [Nat.toList_repr] at hc
  simp [isWholeChar,Nat.isDigit_of_mem_toDigits (by decide) (by decide) hc]

lemma isWholeChar_of_int {v : Int} : ∀ c ∈ (toString v).toList, isWholeChar c = true := by
  intro c hc
  rw [Int.toString_eq_repr,Int.repr_eq_if] at hc
  split at hc
  · exact isWholeChar_of_nat c hc
  · rw [String.toList_append] at hc
    rcases List.mem_append.mp hc with hc | hc
    · rw [List.mem_singleton.mp hc]
      rfl
    · exact isWholeChar_of_nat c hc

/-- A whole number can be told from what goes on with no digit and no sign. -/
lemma whole_inj {v w : Int} {r s : List Char} (hr : ∀ c ∈ r.head?, isWholeChar c = false)
    (hs : ∀ c ∈ s.head?, isWholeChar c = false)
    (h : (toString v).toList ++ r = (toString w).toList ++ s) : v = w ∧ r = s := by
  obtain ⟨hvw,hrs⟩ := run_inj isWholeChar_of_int isWholeChar_of_int hr hs h
  exact ⟨Int.repr_injective (String.toList_inj.mp hvw),hrs⟩

lemma isName_nat (n : Nat) : isName n.repr := by
  refine isName_iff.mpr ⟨Nat.repr_ne_empty,fun c hc => ?_⟩
  rw [Nat.toList_repr] at hc
  simp [isSegmentChar,Nat.isDigit_of_mem_toDigits (by decide) (by decide) hc]

end Text
end RigPack
