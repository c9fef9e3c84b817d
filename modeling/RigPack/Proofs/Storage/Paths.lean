import Mathlib
import RigPack.Proofs.Except
import RigPack.Proofs.Text.RelativePath
import RigPack.Storage.FileTree

/-!
Where paths lead. A path that leads anywhere leads to the place that its text says, so a relative
path in normal form, joined to a directory, leads to a place strictly below it.
-/

namespace RigPack

open RelativePath

namespace DiskPath

/-- Goes on by one piece of a path as if all directories were there. -/
def onward (place : List String) (piece : String) : List String :=
  if isIdle piece then place else if piece = ".." then place.dropLast else place ++ [piece]

/-- The place at which a path starts. -/
def start (here : List String) (p : DiskPath) : List String :=
  if p.pieces.head? = some "" ∧ p.pieces ≠ [""] then [] else here

/-- The pieces by which a path goes on from where it starts. -/
def way (p : DiskPath) : List String :=
  if p.pieces.head? = some "" then p.pieces.tail else p.pieces

/-- The place to which a path leads as its text says. -/
def destination (here : List String) (p : DiskPath) : List String :=
  p.way.foldl onward (p.start here)

/-- The pieces of a path without a slash at its end. -/
def unslashed (pieces : List String) : List String :=
  if pieces.getLast? = some "" then pieces.dropLast else pieces

variable {here place : List String} {p : DiskPath} {l : List String} {name : String}

lemma onward_idle (h : isIdle name = true) : onward place name = place :=
  if_pos h

lemma not_idle_of_proper (h : Proper name) : isIdle name = false := by
  simp [isIdle,h.ne_empty,h.ne_here]

lemma onward_proper (h : Proper name) : onward place name = place ++ [name] := by
  rw [onward,if_neg (by simp [not_idle_of_proper h]),if_neg h.ne_above]

lemma foldl_onward_proper (hl : ∀ n ∈ l, Proper n) (place : List String) :
    l.foldl onward place = place ++ l := by
  induction l generalizing place with
  | nil => simp
  | cons n l ih =>
    obtain ⟨hn,hl⟩ := List.forall_mem_cons.mp hl
    rw [List.foldl_cons,onward_proper hn,ih hl,List.append_assoc,List.singleton_append]

lemma foldl_onward_unslashed (place : List String) :
    (unslashed l).foldl onward place = l.foldl onward place := by
  unfold unslashed
  split_ifs with h
  · obtain ⟨r,rfl⟩ := List.getLast?_eq_some_iff.mp h
    rw [List.dropLast_concat,List.foldl_append,List.foldl_cons,onward_idle (by rfl),List.foldl_nil]
  · rfl

lemma unslashed_cons_cons (a b : String) (l : List String) :
    unslashed (a::b::l) = a::unslashed (b::l) := by
  rw [unslashed,unslashed,List.getLast?_cons_cons]
  split_ifs
  · rfl
  · rfl

lemma unslashed_concat (h : Proper name) : unslashed (l ++ [name]) = l ++ [name] := by
  simp [unslashed,h.ne_empty]

section Join

variable (hne : l ≠ []) (hl : ∀ n ∈ l, Proper n)
include hne hl

lemma head?_ne : l.head? ≠ some "" := by
  cases l with
  | nil => exact absurd rfl hne
  | cons n l => simpa using (hl n List.mem_cons_self).ne_empty

/-- What is joined to a path starts where the path does. -/
lemma start_join : (p.join l).start here = p.start here := by
  have hhead := head?_ne hne hl
  obtain ⟨pieces⟩ := p
  change (if (unslashed pieces ++ l).head? = some "" ∧ unslashed pieces ++ l ≠ [""] then []
    else here) = if pieces.head? = some "" ∧ pieces ≠ [""] then [] else here
  match pieces with
  | [] => simp [unslashed,hhead]
  | [a] =>
    by_cases ha : a = ""
    · simp [unslashed,ha,hhead]
    · simp [unslashed,ha]
  | a::b::pieces =>
    rw [unslashed_cons_cons]
    simp [hne]

/-- What is joined to a path goes on from there. -/
lemma way_join : (p.join l).way = unslashed p.way ++ l := by
  have hhead := head?_ne hne hl
  obtain ⟨pieces⟩ := p
  change (if (unslashed pieces ++ l).head? = some "" then (unslashed pieces ++ l).tail
    else unslashed pieces ++ l) =
      unslashed (if pieces.head? = some "" then pieces.tail else pieces) ++ l
  match pieces with
  | [] => simp [unslashed,hhead]
  | [a] =>
    by_cases ha : a = ""
    · simp [unslashed,ha,hhead]
    · simp [unslashed,ha]
  | a::b::pieces =>
    rw [unslashed_cons_cons]
    by_cases ha : a = ""
    · simp [ha]
    · simp [ha,unslashed_cons_cons]

/-- Names that are joined to a path lead on from where it leads. -/
lemma destination_join : (p.join l).destination here = p.destination here ++ l := by
  rw [destination,start_join hne hl,way_join hne hl,List.foldl_append,foldl_onward_unslashed,
    foldl_onward_proper hl,destination]

/-- The pieces of joined names are the names. -/
lemma pieces_ofText_join : (ofText ("/".intercalate l)).pieces = l := by
  have hslash : ∀ w ∈ l.map String.toList, '/' ∉ w :=
    List.forall_mem_map.mpr fun n hn hc => by cases (hl n hn).no_slash '/' hc
  rw [ofText,String.toList_intercalate]
  change (List.splitOn '/' (['/'].intercalate (l.map String.toList))).map String.ofList = l
  rw [List.splitOn_intercalate '/' hslash (by simpa using hne),List.map_map]
  simp

end Join

/-- A path in normal form has its names as pieces. -/
lemma pieces_ofText {s : String} (h : normalize s = .ok s) : (ofText s).pieces = names s := by
  obtain ⟨hne,hproper,hs⟩ := normal_iff.mp h
  nth_rewrite 1 [hs]
  exact pieces_ofText_join hne hproper

end DiskPath

namespace FileTree

open DiskPath

variable {t : FileTree} {p : DiskPath} {place place' : List String} {pieces : List String}
  {piece : String}

/-- Steps lead where their text says. -/
lemma step_ok (h : t.step place piece = .ok place') : place' = onward place piece := by
  unfold step at h
  unfold onward
  split at h
  · cases h
  · cases h
  · split_ifs at h ⊢ <;> cases h <;> rfl

lemma follow_ok (h : t.follow place pieces = .ok place') : place' = pieces.foldl onward place := by
  induction pieces generalizing place with
  | nil =>
    cases h
    rfl
  | cons piece pieces ih =>
    obtain ⟨next,hnext,h⟩ := Except.bind_ok h
    rw [List.foldl_cons,← step_ok hnext]
    exact ih h

lemma origin_ok {q : List String × List String} (h : t.origin p = .ok q) :
    q = (p.start t.here,p.way) := by
  unfold origin at h
  split_ifs at h
  obtain ⟨pieces⟩ := p
  unfold DiskPath.start DiskPath.way
  simp only at h ⊢
  split at h
  · cases h
  · cases h
  · cases h
    simp_all
  · rename_i hrelative
    cases h
    cases pieces with
    | nil => simp
    | cons first rest =>
      have hfirst : first ≠ "" := by
        rintro rfl
        exact hrelative rest rfl
      simp [hfirst]

/-- A path that leads somewhere leads where its text says. -/
lemma locate_ok (h : t.locate p = .ok place) : place = p.destination t.here := by
  obtain ⟨⟨start,pieces⟩,hstart,h⟩ := Except.bind_ok h
  cases origin_ok hstart
  exact follow_ok h

end FileTree

/-- A path has a normal form exactly if it does not start with a slash, does not go to a parent and
has a name. The normal form is the names joined by plain slashes. So it is a normal form itself, all
that stands in it between slashes are names, and it is shared exactly by the paths that have the
same names. Joined to any directory it leads to a place strictly below it. -/
theorem RelativePath.normal_form_below (s : String) :
    (∀ r, normalize s = .ok r ↔ (∀ c ∈ s.toList.head?, c ≠ '/' ∧ c ≠ '\\') ∧ ".." ∉ split s ∧
      (∃ n ∈ split s, n ≠ "" ∧ n ≠ ".") ∧ r = "/".intercalate (names s)) ∧
    ∀ r, normalize s = .ok r →
      ('\\' ∉ r.toList ∧ (∀ n ∈ split r, n ≠ "" ∧ n ≠ "." ∧ n ≠ "..") ∧
        r.toList.head? ≠ some '/' ∧ r.toList.getLast? ≠ some '/') ∧
      normalize r = .ok r ∧
      (∀ s' r', normalize s' = .ok r' → (r' = r ↔ names s' = names s)) ∧
      names s ≠ [] ∧ ∀ root : DiskPath,
        (∀ here, (root.join (DiskPath.ofText r).pieces).destination here =
          root.destination here ++ names s) ∧
        ∀ (t : FileTree) place, t.locate (root.join (DiskPath.ofText r).pieces) = .ok place →
          place = root.destination t.here ++ names s := by
  have hnames : names s ≠ [] ↔ ∃ n ∈ split s, n ≠ "" ∧ n ≠ "." := by
    simp [names,List.filter_eq_nil_iff]
  refine ⟨fun r => ?_,fun r h => ?_⟩
  · rw [normalize_ok_iff,hnames]
    simp only [isSlash_eq_false_iff]
  obtain ⟨-,habove,hne,rfl⟩ := normalize_ok_iff.mp h
  have hproper : ∀ n ∈ names s, Proper n := fun n hn => proper_of_mem_names habove hn
  have hsplit := split_join hproper hne
  have hends : "" ∉ split ("/".intercalate (names s)) := by
    rw [hsplit]
    exact fun h => (hproper _ h).ne_empty rfl
  refine ⟨⟨backslash_not_mem_join hproper,?_,?_,?_⟩,normalize_join hproper hne,?_,hne,?_⟩
  · rw [hsplit]
    exact fun n hn => ⟨(hproper n hn).ne_empty,(hproper n hn).ne_here,(hproper n hn).ne_above⟩
  · exact fun hc => hends (empty_mem_of_head ⟨_,hc,rfl⟩)
  · exact fun hc => hends (empty_mem_of_last ⟨_,hc,rfl⟩)
  · intro s' r' h'
    obtain ⟨-,habove',hne',rfl⟩ := normalize_ok_iff.mp h'
    have hproper' : ∀ n ∈ names s', Proper n := fun n hn => proper_of_mem_names habove' hn
    constructor
    · intro heq
      rw [← names_join hproper' hne',heq,names_join hproper hne]
    · exact fun heq => by rw [heq]
  · intro root
    have hjoin (here : List String) : (root.join (names s)).destination here =
        root.destination here ++ names s := DiskPath.destination_join hne hproper
    rw [DiskPath.pieces_ofText_join hne hproper]
    exact ⟨hjoin,fun t place h => (FileTree.locate_ok h).trans (hjoin t.here)⟩

/-- Slashes of both kinds, idle pieces between them, and where this leads from a base. A way up is
refused even if it goes down first. -/
theorem RelativePath.image_below :
    normalize "./a\\b//c.png" = .ok "a/b/c.png" ∧ normalize "a/b/c.png" = .ok "a/b/c.png" ∧
    (∀ (t : FileTree) place,
      t.locate ((⟨["","base"]⟩ : DiskPath).join (DiskPath.ofText "a/b/c.png").pieces) = .ok place →
        place = ["base","a","b","c.png"]) ∧
    ∀ r, normalize "a/../b" ≠ .ok r := by
  have hok : normalize "./a\\b//c.png" = .ok "a/b/c.png" := by rfl
  obtain ⟨-,hform⟩ := normal_form_below "./a\\b//c.png"
  obtain ⟨-,hagain,-,-,hbelow⟩ := hform "a/b/c.png" hok
  refine ⟨hok,hagain,fun t place h => ?_,fun r h => ?_⟩
  · exact (hbelow ⟨["","base"]⟩).2 t place h
  · obtain ⟨-,habove,-⟩ := ((normal_form_below "a/../b").1 r).mp h
    exact habove (by decide)

end RigPack
