import Mathlib
import RigPack.Proofs.Text.Legible
import RigPack.Text.RelativePath

/-!
Relative paths in normal form. A path is read as the names between its slashes of either kind, and
its normal form is these names joined by plain slashes, from which they can be read again.
-/

namespace RigPack
namespace RelativePath

def isSlash (c : Char) : Bool :=
  c = '/' || c = '\\'

/-- What stands between the slashes of a path. -/
def split (s : String) : List String :=
  (s.toList.splitOnP isSlash).map String.ofList

/-- What stands between the slashes and names something. -/
def names (s : String) : List String :=
  (split s).filter fun p => p != "" && p != "."

/-- A name that something may have in a directory. -/
structure Proper (name : String) : Prop where
  ne_empty : name ≠ ""
  ne_here : name ≠ "."
  ne_above : name ≠ ".."
  no_slash : ∀ c ∈ name.toList, isSlash c = false

variable {s r : String} {l : List String}

lemma isSlash_eq_false_iff {c : Char} : isSlash c = false ↔ c ≠ '/' ∧ c ≠ '\\' := by
  simp [isSlash]

lemma slash_eq_iff {c : Char} : slash c = '/' ↔ isSlash c = true := by
  by_cases h : c = '\\' <;> simp [slash,isSlash,h]

lemma slash_of_not {c : Char} (h : isSlash c = false) : slash c = c := by
  rw [slash,if_neg (isSlash_eq_false_iff.mp h).2]

lemma slash_ne (c : Char) : slash c ≠ '\\' := by
  unfold slash
  split_ifs with h
  · decide
  · exact h

/-- Reading backslashes as slashes and splitting there is splitting at both. -/
lemma splitOn_slashes (l : List Char) : (l.map slash).splitOn '/' = l.splitOnP isSlash := by
  induction l with
  | nil => rfl
  | cons c l ih =>
    rw [List.map_cons,List.splitOn_cons_eq_if_modifyHead,List.splitOnP_cons_eq_if_modifyHead,ih]
    cases h : isSlash c with
    | true => simp [slash_eq_iff.mpr h]
    | false => simp [slash_of_not h,(isSlash_eq_false_iff.mp h).1]

lemma pieces_eq (s : String) : pieces s = split s := by
  rw [pieces,split,splitOn_slashes]

lemma segments_eq (s : String) : segments s = names s := by
  rw [segments,names,pieces_eq]

lemma mem_names {p : String} : p ∈ names s ↔ p ∈ split s ∧ p ≠ "" ∧ p ≠ "." := by
  simp [names]

/-- There are no slashes between slashes. -/
lemma no_slash_of_mem_split {p : String} (hp : p ∈ split s) :
    ∀ c ∈ p.toList, isSlash c = false := by
  intro c hc
  obtain ⟨w,hw,rfl⟩ := List.mem_map.mp hp
  rw [← splitOn_slashes] at hw
  rw [String.toList_ofList] at hc
  obtain ⟨hmem,hne⟩ := Text.mem_splitOn hw c hc
  obtain ⟨d,-,rfl⟩ := List.mem_map.mp hmem
  exact isSlash_eq_false_iff.mpr ⟨hne,slash_ne d⟩

/-- Before a slash at the start there is an empty piece. -/
lemma empty_mem_of_head (h : ∃ c ∈ s.toList.head?, isSlash c = true) : "" ∈ split s := by
  obtain ⟨c,hc,hslash⟩ := h
  obtain ⟨rest,hs⟩ : ∃ rest, s.toList = c::rest := List.head?_eq_some_iff.mp hc
  rw [split,hs,List.splitOnP_cons_eq_if_modifyHead,if_pos hslash]
  exact List.mem_map.mpr ⟨[],List.mem_cons_self,rfl⟩

/-- Behind a slash at the end there is an empty piece. -/
lemma empty_mem_of_last (h : ∃ c ∈ s.toList.getLast?, isSlash c = true) : "" ∈ split s := by
  obtain ⟨c,hc,hslash⟩ := h
  obtain ⟨rest,hs⟩ : ∃ rest, s.toList = rest ++ [c] := List.getLast?_eq_some_iff.mp hc
  rw [split,hs,List.splitOnP_append_cons _ _ hslash,List.splitOnP_nil,List.map_append]
  exact List.mem_append_right _ (List.mem_singleton.mpr rfl)

lemma names_empty : names "" = [] := rfl

/-- Which paths have a normal form, and which one. -/
lemma normalize_ok_iff : normalize s = .ok r ↔ (∀ c ∈ s.toList.head?, isSlash c = false) ∧
    ".." ∉ split s ∧ names s ≠ [] ∧ r = "/".intercalate (names s) := by
  have hhead : (s.toList.map slash).head? = some '/' ↔
      ¬∀ c ∈ s.toList.head?, isSlash c = false := by
    rw [List.head?_map,Option.map_eq_some_iff]
    simp [slash_eq_iff]
  have habove : ".." ∈ names s ↔ ".." ∈ split s := by simp [mem_names]
  simp only [normalize,segments_eq,hhead,habove]
  by_cases h : ∀ c ∈ s.toList.head?, isSlash c = false
  · rw [if_neg (not_not.mpr h)]
    by_cases hempty : s = ""
    · simp [hempty,names_empty]
    · rw [if_neg hempty]
      split_ifs with h' h'
      · simp [h']
      · simp [h']
      · rw [Except.ok.injEq]
        exact ⟨fun hr => ⟨h,‹_›,h',hr.symm⟩,fun hr => hr.2.2.2.symm⟩
  · rw [if_pos h]
    exact ⟨nofun,fun hr => absurd hr.1 h⟩

lemma proper_of_mem_names (h : ".." ∉ split s) {n : String} (hn : n ∈ names s) : Proper n := by
  obtain ⟨hmem,hempty,hhere⟩ := mem_names.mp hn
  refine ⟨hempty,hhere,?_,no_slash_of_mem_split hmem⟩
  rintro rfl
  exact h hmem

/-- Joining adds only separators. -/
lemma forall_mem_intercalate {P : Char → Prop} {sep : String} (hsep : ∀ c ∈ sep.toList, P c)
    (hl : ∀ n ∈ l, ∀ c ∈ n.toList, P c) : ∀ c ∈ (sep.intercalate l).toList, P c := by
  induction l with
  | nil => simp
  | cons n l ih =>
    obtain ⟨hn,hl⟩ := List.forall_mem_cons.mp hl
    cases l with
    | nil => simpa using hn
    | cons m l =>
      rw [String.intercalate_cons_cons,String.toList_append,String.toList_append]
      exact List.forall_mem_append.mpr ⟨List.forall_mem_append.mpr ⟨hn,hsep⟩,ih hl⟩

/-- Words without slashes, joined by slashes, are told by splitting. -/
lemma splitOnP_intercalate {ls : List (List Char)} (hls : ∀ w ∈ ls, ∀ c ∈ w, isSlash c = false)
    (hne : ls ≠ []) : (['/'].intercalate ls).splitOnP isSlash = ls := by
  induction ls with
  | nil => exact absurd rfl hne
  | cons w ls ih =>
    obtain ⟨hw,hls⟩ := List.forall_mem_cons.mp hls
    cases ls with
    | nil => rw [List.intercalate_singleton,List.splitOnP_eq_singleton hw]
    | cons v ls =>
      rw [List.intercalate_cons_cons,List.append_assoc,List.singleton_append,
        List.splitOnP_append_cons_of_forall_mem hw '/' rfl,ih hls (List.cons_ne_nil v ls)]

/-- Joined names are read again. -/
lemma split_join (hl : ∀ n ∈ l, Proper n) (hne : l ≠ []) : split ("/".intercalate l) = l := by
  have hwords : ∀ w ∈ l.map String.toList, ∀ c ∈ w, isSlash c = false :=
    List.forall_mem_map.mpr fun n hn => (hl n hn).no_slash
  rw [split,String.toList_intercalate]
  change ((['/'].intercalate (l.map String.toList)).splitOnP isSlash).map String.ofList = l
  rw [splitOnP_intercalate hwords (by simpa using hne),List.map_map]
  simp

lemma names_join (hl : ∀ n ∈ l, Proper n) (hne : l ≠ []) : names ("/".intercalate l) = l := by
  rw [names,split_join hl hne,List.filter_eq_self]
  intro n hn
  simp [(hl n hn).ne_empty,(hl n hn).ne_here]

/-- Joined names are in normal form. -/
lemma normalize_join (hl : ∀ n ∈ l, Proper n) (hne : l ≠ []) :
    normalize ("/".intercalate l) = .ok ("/".intercalate l) := by
  have hsplit := split_join hl hne
  rw [normalize_ok_iff,hsplit,names_join hl hne]
  refine ⟨?_,fun h => (hl _ h).ne_above rfl,hne,rfl⟩
  intro c hc
  by_contra hslash
  rw [Bool.not_eq_false] at hslash
  have hempty := empty_mem_of_head ⟨c,hc,hslash⟩
  rw [hsplit] at hempty
  exact (hl _ hempty).ne_empty rfl

/-- What is in normal form is made of its names. -/
lemma normal_iff : normalize s = .ok s ↔
    names s ≠ [] ∧ (∀ n ∈ names s, Proper n) ∧ s = "/".intercalate (names s) := by
  constructor
  · intro h
    obtain ⟨-,habove,hne,hs⟩ := normalize_ok_iff.mp h
    exact ⟨hne,fun n hn => proper_of_mem_names habove hn,hs⟩
  · rintro ⟨hne,hproper,hs⟩
    rw [hs]
    exact normalize_join hproper hne

/-- Names are joined by plain slashes only. -/
lemma backslash_not_mem_join (hl : ∀ n ∈ l, Proper n) : '\\' ∉ ("/".intercalate l).toList := by
  intro hc
  refine forall_mem_intercalate (P := (· ≠ '\\')) ?_ (fun n hn c hc => ?_) _ hc rfl
  · simp
  · exact (isSlash_eq_false_iff.mp ((hl n hn).no_slash c hc)).2

lemma Proper.of_isSegment {n : String} (h : isSegment n = true) : Proper n := by
  obtain ⟨hempty,hall,hhere,habove⟩ := isSegment_iff.mp h
  refine ⟨hempty,hhere,habove,fun c hc => ?_⟩
  have hc := hall c hc
  rw [isSlash_eq_false_iff]
  constructor <;> rintro rfl <;> exact absurd hc (by decide)

end RelativePath
end RigPack
