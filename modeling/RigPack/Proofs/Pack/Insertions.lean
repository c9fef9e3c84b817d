import Mathlib
import RigPack.Pack.Fingerprint
import RigPack.Proofs.Pack.Artifacts
import RigPack.Proofs.Text.ByteOrder

/-!
Files put into a set one after another, also after some of them have been refused. Of each path the
first content stays, so without two contents for one path neither order nor repetition matters.
-/

namespace RigPack
namespace ArtifactSet

/-- Puts files in one after another and goes on when one is refused. What became of each of them is
the result. -/
def putEach (files : List (String × ByteArray)) : StateM ArtifactSet (List (Except Error Unit)) :=
  files.mapM fun f => (put f.1 f.2).run

/-- What becomes of files that are put into an empty set. -/
def answers (files : List (String × ByteArray)) : List (Except Error Unit) :=
  ((putEach files).run {}).1

/-- The set that files leave when they are put into an empty one. -/
def gathered (files : List (String × ByteArray)) : ArtifactSet :=
  ((putEach files).run {}).2

/-- What becomes of a file whose path has this content first. -/
def answer (first : Option ByteArray) (f : String × ByteArray) : Except Error Unit :=
  if first = some f.2 then .ok () else .error (.conflictingArtifact f.1)

variable {s t : ArtifactSet} {files files' : List (String × ByteArray)}

/-- Putting in a file is inserting it, where a set that refuses the file stays. -/
lemma put_run (path : String) (bytes : ByteArray) (s : ArtifactSet) : (put path bytes).run s =
    match s.insert path bytes with
    | .ok t => (.ok (),t)
    | .error e => (.error e,s) := by
  change ((match s.insert path bytes with
    | .ok t => set t
    | .error e => throw e : Filing Unit)).run s = _
  cases s.insert path bytes <;> rfl

/-- The content that a path had stays, and a path that had none gets its content. -/
lemma put_spec (f : String × ByteArray) (s : ArtifactSet) :
    ((put f.1 f.2).run s).1 = answer ((s.get? f.1).or (some f.2)) f ∧
      ∀ p, ((put f.1 f.2).run s).2.get? p =
        (s.get? p).or (if p = f.1 then some f.2 else none) := by
  rw [put_run]
  cases h : s.insert f.1 f.2 with
  | ok t =>
    obtain ⟨hsame,hget⟩ := insert_ok h
    refine ⟨?_,fun p => ?_⟩
    · cases hf : s.get? f.1 with
      | none => simp [answer]
      | some b => simp [answer,hsame b hf]
    · rw [hget]
      by_cases hp : p = f.1
      · subst hp
        cases hf : s.get? f.1 with
        | none => simp
        | some b => simp [hsame b hf]
      · simp [hp]
  | error e =>
    obtain ⟨rfl,known,hknown,hne⟩ := insert_error h
    refine ⟨by simp [answer,hknown,hne],fun p => ?_⟩
    by_cases hp : p = f.1
    · simp [hp,hknown]
    · simp [hp]

lemma lookup_cons_eq (f : String × ByteArray) (files : List (String × ByteArray)) (p : String) :
    (f::files).lookup p = (if p = f.1 then some f.2 else none).or (files.lookup p) := by
  obtain ⟨path,bytes⟩ := f
  by_cases hp : p = path
  · simp [hp]
  · simp [hp,List.lookup_cons,beq_eq_false_iff_ne.mpr hp]

/-- Each path keeps the content that it had, or else the first that comes, and a file with another
one is refused. -/
lemma putEach_spec (files : List (String × ByteArray)) (s : ArtifactSet) :
    ((putEach files).run s).1 =
        files.map (fun f => answer ((s.get? f.1).or (files.lookup f.1)) f) ∧
      ∀ p, ((putEach files).run s).2.get? p = (s.get? p).or (files.lookup p) := by
  induction files generalizing s with
  | nil => exact ⟨rfl,fun p => (Option.or_none ..).symm⟩
  | cons f files ih =>
    obtain ⟨hanswer,hget⟩ := put_spec f s
    obtain ⟨hanswers,hrest⟩ := ih ((put f.1 f.2).run s).2
    have hrun : (putEach (f::files)).run s = (((put f.1 f.2).run s).1::
        ((putEach files).run ((put f.1 f.2).run s).2).1,
          ((putEach files).run ((put f.1 f.2).run s).2).2) := by
      unfold putEach
      rw [List.mapM_cons]
      rfl
    have hfirst (p : String) : (((put f.1 f.2).run s).2.get? p).or (files.lookup p) =
        (s.get? p).or ((f::files).lookup p) := by
      rw [hget,lookup_cons_eq,Option.or_assoc]
    rw [hrun]
    refine ⟨?_,fun p => (hrest p).trans (hfirst p)⟩
    simp only [List.map_cons,hanswer,hanswers,hfirst]
    rw [lookup_cons_eq,if_pos rfl,Option.some_or]

/-- Sets are told by the contents of their paths. -/
lemma eq_of_get? (h : ∀ p, s.get? p = t.get? p) : s = t := by
  obtain ⟨files⟩ := s
  obtain ⟨files'⟩ := t
  exact congrArg mk (Std.ExtTreeMap.ext_getElem? h)

/-- The paths of a set stand in the order of their bytes, and none of them twice. -/
lemma paths_increasing (s : ArtifactSet) :
    s.paths.Pairwise fun p q => p.toUTF8.data.toList < q.toUTF8.data.toList := by
  unfold paths toList
  rw [Std.ExtTreeMap.map_fst_toList_eq_keys]
  refine Std.ExtTreeMap.ordered_keys.imp fun {p q} h => (Text.lt_iff_utf8_lt p q).mp ?_
  exact compareOfLessAndEq_eq_lt.mp h

/-- Files of which no path has two contents. -/
def Consistent (files : List (String × ByteArray)) : Prop :=
  ∀ f ∈ files, ∀ g ∈ files, f.1 = g.1 → f.2 = g.2

lemma Consistent.lookup_eq_some_iff (h : Consistent files) {p : String} {b : ByteArray} :
    files.lookup p = some b ↔ (p,b) ∈ files := by
  constructor
  · intro hb
    obtain ⟨_,_,rfl,_⟩ := List.lookup_eq_some_iff.mp hb
    simp
  · exact fun hb => lookup_eq_some hb fun c hc => h _ hc _ hb rfl

lemma Consistent.congr (h : Consistent files) (hsame : ∀ f, f ∈ files' ↔ f ∈ files) :
    Consistent files' :=
  fun f hf g hg => h f ((hsame f).mp hf) g ((hsame g).mp hg)

lemma get?_gathered (files : List (String × ByteArray)) (p : String) :
    (gathered files).get? p = files.lookup p := by
  rw [gathered,(putEach_spec files {}).2,get?_empty,Option.none_or]

lemma answers_eq (files : List (String × ByteArray)) :
    answers files = files.map fun f => answer (files.lookup f.1) f := by
  rw [answers,(putEach_spec files {}).1]
  simp only [get?_empty,Option.none_or]

/-- Files that agree on the content of each path all go in. -/
lemma Consistent.answers_eq (h : Consistent files) :
    answers files = files.map fun _ => .ok () := by
  rw [ArtifactSet.answers_eq]
  refine List.map_congr_left fun f hf => ?_
  rw [answer,if_pos (h.lookup_eq_some_iff.mpr hf)]

/-- Neither their order matters nor how often they come. -/
lemma Consistent.gathered_congr (h : Consistent files) (hsame : ∀ f, f ∈ files' ↔ f ∈ files) :
    gathered files' = gathered files := by
  refine eq_of_get? fun p => Option.ext fun b => ?_
  rw [get?_gathered,get?_gathered,h.lookup_eq_some_iff,(h.congr hsame).lookup_eq_some_iff,hsame]

lemma put_ok_iff {f : String × ByteArray} :
    (put f.1 f.2).run s = (.ok (),t) ↔ s.insert f.1 f.2 = .ok t := by
  rw [put_run]
  cases s.insert f.1 f.2 with
  | ok u => exact ⟨fun h => by cases h; rfl,fun h => by cases h; rfl⟩
  | error e => exact ⟨nofun,nofun⟩

/-- A set that refuses a file stays as it was. -/
lemma put_error_iff {f : String × ByteArray} {e : Error} :
    (put f.1 f.2).run s = (.error e,t) ↔ s.insert f.1 f.2 = .error e ∧ t = s := by
  rw [put_run]
  cases s.insert f.1 f.2 with
  | ok u => exact ⟨nofun,nofun⟩
  | error d => exact ⟨fun h => by cases h; exact ⟨rfl,rfl⟩,fun ⟨h,h'⟩ => by cases h; cases h'; rfl⟩

/-- Of each path a set keeps the first content that was put in. A file with another one is refused,
which changes nothing. If no path has two contents then all files go in, and in any order and with
any repetitions they give one set, listed by increasing paths, and one fingerprint. -/
theorem first_contents_stay (files : List (String × ByteArray)) :
    (∀ p, (gathered files).get? p = files.lookup p) ∧
    answers files = files.map (fun f : String × ByteArray =>
      if files.lookup f.1 = some f.2 then .ok () else .error (.conflictingArtifact f.1)) ∧
    (∀ (s t : ArtifactSet) (f : String × ByteArray),
      ((put f.1 f.2).run s = (.ok (),t) ↔ s.insert f.1 f.2 = .ok t) ∧
      ∀ e, (put f.1 f.2).run s = (.error e,t) ↔ s.insert f.1 f.2 = .error e ∧ t = s) ∧
    ((gathered files).paths.Pairwise fun p q => p.toUTF8.data.toList < q.toUTF8.data.toList) ∧
    (Consistent files → answers files = files.map (fun _ => .ok ()) ∧
      ∀ files', (∀ f, f ∈ files' ↔ f ∈ files) →
        answers files' = files'.map (fun _ => .ok ()) ∧ gathered files' = gathered files ∧
          (gathered files').toList = (gathered files).toList ∧
            (gathered files').fingerprint = (gathered files).fingerprint) := by
  refine ⟨get?_gathered files,answers_eq files,fun s t f => ⟨put_ok_iff,fun e => put_error_iff⟩,
    paths_increasing _,fun h => ⟨h.answers_eq,fun files' hsame => ?_⟩⟩
  have hset := h.gathered_congr hsame
  exact ⟨(h.congr hsame).answers_eq,hset,congrArg toList hset,congrArg fingerprint hset⟩

/-- A second content is refused, and what agrees may come in another order and again. -/
theorem pair_in_any_order :
    answers [("b","1".toUTF8),("a","2".toUTF8),("b","3".toUTF8)] =
      [.ok (),.ok (),.error (.conflictingArtifact "b")] ∧
    Consistent [("b","1".toUTF8),("a","2".toUTF8)] ∧
    (gathered [("a","2".toUTF8),("b","1".toUTF8),("a","2".toUTF8)]).fingerprint =
      (gathered [("b","1".toUTF8),("a","2".toUTF8)]).fingerprint := by
  have hpair : Consistent [("b","1".toUTF8),("a","2".toUTF8)] := by simp [Consistent]
  have hsame (f : String × ByteArray) :
      f ∈ [("a","2".toUTF8),("b","1".toUTF8),("a","2".toUTF8)] ↔
        f ∈ [("b","1".toUTF8),("a","2".toUTF8)] := by
    simp only [List.mem_cons,List.not_mem_nil,or_false]
    tauto
  refine ⟨?_,hpair,?_⟩
  · exact (first_contents_stay [("b","1".toUTF8),("a","2".toUTF8),("b","3".toUTF8)]).2.1.trans rfl
  · obtain ⟨_,_,_,_,hagree⟩ := first_contents_stay [("b","1".toUTF8),("a","2".toUTF8)]
    exact ((hagree hpair).2 _ hsame).2.2.2

end ArtifactSet
end RigPack
