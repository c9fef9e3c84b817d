import Mathlib.Tactic
import RigPack.Json.Numeral
import RigPack.Proofs.Json.Literal

/-!
Numerals in a text. A numeral that makes up a whole text is read from the front of a longer one too,
if what follows it is no part of a numeral; and a count is read back from its digits.
-/

namespace RigPack
namespace Numeral

variable {tail : List Letter}

/-- What no numeral goes on with. -/
def Bounds (tail : List Letter) : Prop :=
  ∀ c, tail.head? = some (some c) →
    c.isDigit = false ∧ c ≠ '.' ∧ c ≠ 'e' ∧ c ≠ 'E' ∧ c ≠ '+' ∧ c ≠ '-'

lemma digitSpan_append (h : Bounds tail) (text : List Letter) :
    digitSpan (text ++ tail) = ((digitSpan text).1,(digitSpan text).2 ++ tail) := by
  induction text with
  | nil =>
    match tail with
    | [] => rfl
    | none::_ => rfl
    | some c::rest => simp [digitSpan,(h c rfl).1]
  | cons l text ih =>
    cases l with
    | none => rfl
    | some c =>
      by_cases hc : c.isDigit
      · simp [digitSpan,hc,ih]
      · simp [digitSpan,hc]

lemma wholePart_append (h : Bounds tail) (text : List Letter) :
    wholePart (text ++ tail) = (wholePart text).map fun (ds,rest) => (ds,rest ++ tail) := by
  unfold wholePart
  rw [digitSpan_append h]
  rcases digitSpan text with ⟨ds,rest⟩
  match ds with
  | [] => rfl
  | [c] => simp
  | c::d::ds => by_cases hc : c = '0' <;> simp [hc]

lemma fractionPart_append (h : Bounds tail) (text : List Letter) :
    fractionPart (text ++ tail) =
      (fractionPart text).map fun (fraction,rest) => (fraction,rest ++ tail) := by
  match text with
  | [] =>
    match tail with
    | [] => rfl
    | none::_ => rfl
    | some c::rest => simp [fractionPart,(h c rfl).2.1]
  | none::_ => rfl
  | some c::text =>
    by_cases hc : c = '.'
    · subst hc
      simp only [List.cons_append,fractionPart,digitSpan_append h]
      rcases digitSpan text with ⟨_ | _,_⟩ <;> rfl
    · simp [fractionPart,hc]

lemma powerSign_append (h : Bounds tail) (text : List Letter) :
    powerSign (text ++ tail) = ((powerSign text).1,(powerSign text).2 ++ tail) := by
  match text with
  | [] =>
    match tail with
    | [] => rfl
    | none::_ => rfl
    | some c::rest => simp [powerSign,(h c rfl).2]
  | none::_ => rfl
  | some c::text =>
    unfold powerSign
    split <;> simp_all

lemma powerPart_append (h : Bounds tail) (text : List Letter) :
    powerPart (text ++ tail) =
      (powerPart text).map fun (power,rest) => (power,rest ++ tail) := by
  match text with
  | [] =>
    match tail with
    | [] => rfl
    | none::_ => rfl
    | some c::rest => simp [powerPart,(h c rfl).2]
  | none::_ => rfl
  | some c::text =>
    by_cases hc : c = 'e' ∨ c = 'E'
    · simp only [List.cons_append,powerPart,if_pos hc,powerSign_append h,digitSpan_append h]
      rcases digitSpan (powerSign text).2 with ⟨_ | _,_⟩ <;> rfl
    · simp only [List.cons_append,powerPart,if_neg hc]
      rfl

lemma sign_append (h : Bounds tail) (text : List Letter) :
    sign (text ++ tail) = ((sign text).1,(sign text).2 ++ tail) := by
  match text with
  | [] =>
    match tail with
    | [] => rfl
    | none::_ => rfl
    | some c::rest => simp [sign,(h c rfl).2]
  | none::_ => rfl
  | some c::text =>
    unfold sign
    split <;> simp_all

/-- What follows a numeral is left as it is. -/
theorem read_append (h : Bounds tail) {text : List Letter} {n : Numeral} {rest : List Letter}
    (hr : read text = some (n,rest)) : read (text ++ tail) = some (n,rest ++ tail) := by
  unfold read at hr ⊢
  simp only [Option.bind_eq_bind,Option.bind_eq_some_iff,Prod.exists] at hr
  obtain ⟨whole,_,hwhole,fraction,_,hfraction,power,_,hpower,hn⟩ := hr
  simp only [sign_append h,wholePart_append h,fractionPart_append h,powerPart_append h,hwhole,
    hfraction,hpower,Option.map_some,Option.bind_eq_bind,Option.bind_some]
  cases hn
  rfl

/-- A numeral starts with a digit or with a minus sign. -/
lemma head_of_read {text : List Letter} {r : Numeral × List Letter} (h : read text = some r) :
    ∃ c rest, text = some c::rest ∧ (c.isDigit ∨ c = '-') := by
  match text with
  | [] => cases h
  | none::_ => cases h
  | some c::rest =>
    refine ⟨c,rest,rfl,?_⟩
    by_contra hc
    simp only [not_or] at hc
    simp [read,sign,hc.2,wholePart,digitSpan,hc.1] at h

section Count

lemma le_ofDigitChars (ds : List Char) (n : Nat) : n ≤ Nat.ofDigitChars 10 ds n := by
  induction ds generalizing n with
  | nil => exact le_rfl
  | cons d ds ih =>
    rw [Nat.ofDigitChars_cons]
    exact le_trans (by omega) (ih _)

/-- Digits that fit are all taken. -/
lemma appendDigits_of_le {ds : List Char} {n : Nat}
    (h : Nat.ofDigitChars 10 ds n ≤ significandLimit) :
    appendDigits n ds = (Nat.ofDigitChars 10 ds n,0) := by
  induction ds generalizing n with
  | nil => rfl
  | cons d ds ih =>
    rw [Nat.ofDigitChars_cons] at h ⊢
    rw [appendDigits,if_pos ((le_ofDigitChars ds _).trans h)]
    exact ih h

/-- Only zero starts with a zero. -/
lemma eq_zero_of_toDigits {n : Nat} {ds : List Char} (h : Nat.toDigits 10 n = '0'::ds) :
    n = 0 := by
  induction n using Nat.strong_induction_on generalizing ds with
  | _ n ih =>
    by_cases hn : n < 10
    · rw [Nat.toDigits_of_lt_base hn] at h
      have hzero : n.digitChar = '0' := (List.cons.inj h).1
      interval_cases n <;> first | rfl | exact absurd hzero (by decide)
    · rw [Nat.toDigits_of_base_le (by decide) (by omega)] at h
      cases hd : Nat.toDigits 10 (n / 10) with
      | nil => exact absurd hd Nat.toDigits_ne_nil
      | cons d rest =>
        rw [hd,List.cons_append] at h
        rw [(List.cons.inj h).1] at hd
        have := ih (n / 10) (by omega) hd
        omega

lemma digitSpan_of_digits {ds : List Char} (h : ∀ c ∈ ds, c.isDigit) :
    digitSpan (ds.map some) = (ds,[]) := by
  induction ds with
  | nil => rfl
  | cons c ds ih =>
    obtain ⟨hc,hds⟩ := List.forall_mem_cons.mp h
    simp [digitSpan,hc,ih hds]

lemma isDigit_toDigits (n : Nat) : ∀ c ∈ Nat.toDigits 10 n, c.isDigit :=
  fun _ => Nat.isDigit_of_mem_toDigits (by decide) (by decide)

lemma wholePart_toDigits (n : Nat) :
    wholePart ((Nat.toDigits 10 n).map some) = some (Nat.toDigits 10 n,[]) := by
  rw [wholePart,digitSpan_of_digits (isDigit_toDigits n)]
  match hd : Nat.toDigits 10 n with
  | [] => exact absurd hd Nat.toDigits_ne_nil
  | [c] => simp
  | c::d::ds =>
    have hc : c ≠ '0' := by
      rintro rfl
      rw [eq_zero_of_toDigits hd] at hd
      cases hd
    simp [hc]

lemma sign_toDigits (n : Nat) :
    sign ((Nat.toDigits 10 n).map some) = (false,(Nat.toDigits 10 n).map some) := by
  match hd : Nat.toDigits 10 n with
  | [] => rfl
  | c::ds =>
    have hc : c ≠ '-' := by
      rintro rfl
      exact absurd (isDigit_toDigits n '-' (hd ▸ List.mem_cons_self)) (by decide)
    simp [sign,hc]

/-- The digits of a count make up a numeral that denotes it. -/
theorem read_toString {n : Nat} (h : n ≤ significandLimit) :
    read (Letters.ofString (toString n)) = some (⟨false,n,0,true⟩,[]) := by
  have htext : Letters.ofString (toString n) = (Nat.toDigits 10 n).map some := by
    rw [Letters.ofString,Nat.toString_eq_ofList_toDigits,String.toList_ofList]
  have happend : appendDigits 0 (Nat.toDigits 10 n) = (n,0) := by
    rw [appendDigits_of_le (by rwa [Nat.ofDigitChars_ten_toDigits]),Nat.ofDigitChars_ten_toDigits]
  rw [htext,read,sign_toDigits]
  simp [wholePart_toDigits,fractionPart,powerPart,ofParts,happend,appendDigits]

lemma toUInt32?_toNat (x : UInt32) : toUInt32? ⟨false,x.toNat,0,true⟩ = some x := by
  simp [toUInt32?,x.toNat_lt]

end Count

end Numeral
end RigPack
