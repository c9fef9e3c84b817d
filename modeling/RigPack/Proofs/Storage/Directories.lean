import Mathlib
import RigPack.Proofs.Action
import RigPack.Proofs.Storage.Paths

/-!
Directories that are made on a disk, and files that are written in them. A path that leads to a
directory, or to where one can be made below others, leads to a directory once it has been made, and
nothing else on the disk has changed.
-/

namespace RigPack

open RelativePath DiskPath

namespace DiskPath

variable {p q : DiskPath} {l : List String} {name : String}

lemma pieces_join_name : (p.join [name]).pieces = unslashed p.pieces ++ [name] := rfl

lemma join_name_ne_nil : (p.join [name]).pieces ≠ [] := by
  simp [pieces_join_name]

lemma join_name_ne_empty (hn : Proper name) : (p.join [name]).pieces ≠ [""] := by
  rw [pieces_join_name]
  intro h
  have hlast := congrArg List.getLast? h
  simp [hn.ne_empty] at hlast

lemma withoutIdleEnd_concat (hn : Proper name) : withoutIdleEnd (l ++ [name]) = l ++ [name] := by
  cases l with
  | nil => rfl
  | cons a l => simp [withoutIdleEnd,not_idle_of_proper hn]

/-- The directory above a name that is joined to a path. -/
lemma parent?_join (hn : Proper name) : (p.join [name]).parent? =
    if unslashed p.pieces = [] then some ⟨[""]⟩
    else if withoutIdleEnd (unslashed p.pieces) = [""] then some ⟨["",""]⟩
    else some ⟨withoutIdleEnd (unslashed p.pieces)⟩ := by
  unfold parent?
  rw [pieces_join_name,withoutIdleEnd_concat hn]
  generalize unslashed p.pieces = above
  rcases above with _ | ⟨first,rest⟩
  · simp [hn.ne_empty]
  · rw [if_neg (List.cons_ne_nil first rest)]
    have hrest : rest ++ [name] ≠ [] := by simp
    obtain ⟨second,rest',hrest⟩ := List.exists_cons_of_ne_nil hrest
    rw [List.cons_append,hrest]
    simp only
    rw [← hrest,← List.cons_append,List.dropLast_concat]
    split
    · rename_i h
      rw [if_pos h]
    · rename_i h
      rw [if_neg h]

/-- What stands below two names has the path of the first above it. -/
lemma parent?_join_join {above : String} (ha : Proper above) (hn : Proper name) :
    ((p.join [above]).join [name]).parent? = some (p.join [above]) := by
  have hpieces : unslashed (p.join [above]).pieces = (p.join [above]).pieces :=
    unslashed_concat ha
  rw [parent?_join hn,hpieces,if_neg join_name_ne_nil,pieces_join_name,withoutIdleEnd_concat ha,
    ← pieces_join_name,if_neg (join_name_ne_empty ha)]

/-- A path whose pieces can all be looked up: no name holds a zero. -/
def Plain (p : DiskPath) : Prop :=
  ∀ piece ∈ p.pieces, '\x00' ∉ piece.toList

instance (p : DiskPath) : Decidable p.Plain :=
  inferInstanceAs (Decidable (∀ piece ∈ p.pieces, '\x00' ∉ piece.toList))

lemma mem_of_mem_unslashed (h : name ∈ unslashed l) : name ∈ l := by
  unfold unslashed at h
  split_ifs at h
  · exact List.mem_of_mem_dropLast h
  · exact h

lemma mem_of_mem_withoutIdleEnd (h : name ∈ withoutIdleEnd l) : name ∈ l := by
  cases l with
  | nil => cases h
  | cons a l =>
    rcases List.mem_cons.mp h with rfl | h
    · exact List.mem_cons_self
    · have hmem := (List.dropWhile_suffix isIdle).subset (List.mem_reverse.mp h)
      exact List.mem_cons_of_mem a (List.mem_reverse.mp hmem)

end DiskPath

namespace FileTree

variable {t t' t'' : FileTree} {place place' start x : List String} {p q : DiskPath}
  {name : String} {pieces : List String} {e : DiskEntry}

/-- A disk that sets no limits. -/
structure Unlimited (t : FileTree) : Prop where
  name : t.nameLimit = none
  path : t.pathLimit = none

/-- A name that something may have on a disk. -/
structure Storable (name : String) : Prop extends Proper name where
  no_zero : '\x00' ∉ name.toList

lemma entry?_put (h : place ≠ []) :
    FileTree.entry? (t.put place e) x = if x = place then some e else t.entry? x := by
  unfold entry? put
  by_cases hx : x = []
  · rw [if_pos hx,if_neg (hx ▸ h.symm)]
    simp [hx]
  · simp only [if_neg hx,Std.ExtTreeMap.getElem?_insert,Std.compare_eq_iff_eq,eq_comm (a := place)]

lemma entry?_erase (h : place ≠ []) :
    FileTree.entry? (t.erase place) x = if x = place then none else t.entry? x := by
  unfold entry? erase
  by_cases hx : x = []
  · rw [if_pos hx,if_neg (hx ▸ h.symm)]
    simp [hx]
  · simp only [if_neg hx,Std.ExtTreeMap.getElem?_erase,Std.compare_eq_iff_eq,eq_comm (a := place)]

/-- A disk with all directories of another one. -/
structure Extends (t t' : FileTree) : Prop where
  settings : t' = { t with entries := t'.entries }
  directories : ∀ x, t.entry? x = some .directory → t'.entry? x = some .directory

namespace Extends

lemma here (h : Extends t t') : t'.here = t.here :=
  (congrArg FileTree.here h.settings).trans rfl

lemma unlimited (h : Extends t t') (ht : t.Unlimited) : t'.Unlimited :=
  ⟨(congrArg nameLimit h.settings).trans ht.name,(congrArg pathLimit h.settings).trans ht.path⟩

lemma trans (h : Extends t t') (h' : Extends t' t'') : Extends t t'' := by
  refine ⟨?_,fun x hx => h'.directories x (h.directories x hx)⟩
  rw [h'.settings,h.settings]

lemma step (h : Extends t t') {piece : String} (hs : t.step place piece = .ok place') :
    t'.step place piece = .ok place' := by
  unfold FileTree.step at hs ⊢
  split at hs
  · cases hs
  · cases hs
  · rename_i hd
    rw [h.directories _ hd,congrArg nameLimit h.settings]
    exact hs

lemma follow (h : Extends t t') (hf : t.follow place pieces = .ok place') :
    t'.follow place pieces = .ok place' := by
  induction pieces generalizing place with
  | nil => exact hf
  | cons piece pieces ih =>
    obtain ⟨next,hnext,hf⟩ := Except.bind_ok hf
    change (t'.step place piece >>= fun next => t'.follow next pieces) = _
    rw [h.step hnext]
    exact ih hf

lemma locate (h : Extends t t') (hl : t.locate p = .ok place) : t'.locate p = .ok place := by
  obtain ⟨⟨start,pieces⟩,ho,hf⟩ := Except.bind_ok hl
  have horigin : t'.origin p = t.origin p := by
    rw [h.settings]
    rfl
  unfold FileTree.locate
  rw [horigin,ho,Except.ok_bind]
  exact h.follow hf

/-- Whatever is put in the place of no directory leaves all directories there. -/
lemma put (h : t.entry? place ≠ some .directory) (e : DiskEntry) : Extends t (t.put place e) := by
  have hne : place ≠ [] := fun heq => h (by rw [heq]; rfl)
  refine ⟨rfl,fun x hx => ?_⟩
  rw [entry?_put hne,if_neg]
  · exact hx
  · rintro rfl
    exact h hx

lemma erase (h : t.entry? place ≠ some .directory) : Extends t (t.erase place) := by
  have hne : place ≠ [] := fun heq => h (by rw [heq]; rfl)
  refine ⟨rfl,fun x hx => ?_⟩
  rw [entry?_erase hne,if_neg]
  · exact hx
  · rintro rfl
    exact h hx

end Extends

lemma step_idle {piece : String} (h : t.entry? place = some .directory)
    (hidle : isIdle piece = true) : t.step place piece = .ok place := by
  simp [step,h,hidle]

lemma step_storable (ht : t.Unlimited) (h : t.entry? place = some .directory)
    (hn : Storable name) : t.step place name = .ok (place ++ [name]) := by
  simp [step,h,not_idle_of_proper hn.toProper,hn.ne_above,ht.name,keepsTo]

lemma step_missing {piece : String} (h : t.entry? place = none) :
    t.step place piece = .error .notFound := by
  simp [step,h]

lemma follow_append (l : List String) : t.follow start (pieces ++ l) =
    (t.follow start pieces >>= fun place => t.follow place l) := by
  unfold follow
  rw [List.foldlM_append]

lemma follow_singleton : t.follow start [name] = t.step start name := by
  unfold follow
  rw [List.foldlM_cons]
  exact bind_pure _

/-- A piece at the end that says nothing can be left out. -/
lemma follow_of_idle {piece : String} (hidle : isIdle piece = true)
    (h : t.follow start (pieces ++ [piece]) = .ok place) : t.follow start pieces = .ok place := by
  rw [follow_append] at h
  obtain ⟨above,habove,h⟩ := Except.bind_ok h
  rw [follow_singleton] at h
  rw [habove,step_ok h,onward_idle hidle]

/-- So can all such pieces. -/
lemma follow_dropIdle {f : String → Bool} (hf : ∀ s, f s = true → isIdle s = true)
    (h : t.follow start pieces = .ok place) :
    t.follow start (pieces.reverse.dropWhile f).reverse = .ok place := by
  induction pieces using List.reverseRecOn with
  | nil => exact h
  | append_singleton pieces piece ih =>
    rw [List.reverse_concat,List.dropWhile_cons]
    split_ifs with hpiece
    · exact ih (follow_of_idle (hf _ hpiece) h)
    · rwa [List.reverse_cons,List.reverse_reverse]

lemma follow_unslashed (h : t.follow start pieces = .ok place) :
    t.follow start (unslashed pieces) = .ok place := by
  unfold unslashed
  split_ifs with hlast
  · obtain ⟨r,rfl⟩ := List.getLast?_eq_some_iff.mp hlast
    rw [List.dropLast_concat]
    exact follow_of_idle (by rfl) h
  · exact h

/-- Where a path of a disk without limits starts and goes on. -/
lemma origin_eq (ht : t.Unlimited) (hp : p.Plain)
    (hne : p.pieces ≠ []) (hne' : p.pieces ≠ [""]) :
    t.origin p = .ok (p.start t.here,p.way) := by
  have hplain : (p.pieces.any fun piece => piece.toList.any (· = '\x00')) = false := by
    simpa [Plain] using hp
  have hok : ∃ q, t.origin p = .ok q := by
    unfold origin
    rw [hplain,ht.path]
    simp only [keepsTo,Bool.not_true,Bool.false_eq_true,if_false]
    split
    · contradiction
    · contradiction
    · exact ⟨_,rfl⟩
    · exact ⟨_,rfl⟩
  obtain ⟨q,hq⟩ := hok
  rw [hq,origin_ok hq]

/-- A path that leads to a directory. The empty path leads to where relative paths start. -/
structure IsAt (t : FileTree) (p : DiskPath) (place : List String) : Prop where
  plain : p.Plain
  leads : t.follow (p.start t.here) p.way = .ok place
  directory : t.entry? place = some .directory

/-- The place at which a directory of this path would be made. -/
def site (t : FileTree) (p : DiskPath) : Except DiskFault (List String) := do
  let (start,pieces) ← t.origin p
  let pieces := (pieces.reverse.dropWhile (· = "")).reverse
  let above ← t.follow start pieces.dropLast
  t.step above (pieces.getLast?.getD "")

/-- A directory is made at its site unless something stands there. -/
lemma makeDirectory_run : makeDirectory p t = match t.site p with
    | .error fault => (.error fault,t)
    | .ok place => match t.entry? place with
      | some _ => (.error .occupied,t)
      | none => (.ok (),t.put place .directory) := by
  unfold makeDirectory site
  rw [Action.get_bind]
  cases t.origin p with
  | error fault => rw [Action.lift_bind_error rfl,Except.error_bind]
  | ok q =>
    rw [Action.lift_bind rfl,Except.ok_bind]
    simp only
    cases t.follow q.1 (q.2.reverse.dropWhile (· = "")).reverse.dropLast with
    | error fault => rw [Action.lift_bind_error rfl,Except.error_bind]
    | ok above =>
      rw [Action.lift_bind rfl,Except.ok_bind]
      cases t.step above ((q.2.reverse.dropWhile (· = "")).reverse.getLast?.getD "") with
      | error fault => rw [Action.lift_bind_error rfl]
      | ok place =>
        rw [Action.lift_bind rfl]
        simp only
        cases t.entry? place <;> rfl

namespace IsAt

/-- What leads to a directory leads to it on a larger disk. -/
lemma mono (h : t.IsAt p place) (ht : Extends t t') : t'.IsAt p place :=
  ⟨h.plain,by rw [ht.here]; exact ht.follow h.leads,ht.directories _ h.directory⟩

lemma locate (h : t.IsAt p place) (ht : t.Unlimited) (hne : p.pieces ≠ [])
    (hne' : p.pieces ≠ [""]) : t.locate p = .ok place := by
  change (t.origin p >>= fun q => t.follow q.1 q.2) = _
  rw [origin_eq ht h.plain hne hne']
  exact h.leads

lemma isDirectory (h : t.IsAt p place) (ht : t.Unlimited) (hne : p.pieces ≠ [])
    (hne' : p.pieces ≠ [""]) : t.isDirectory p = true := by
  simp [FileTree.isDirectory,h.locate ht hne hne',h.directory]

lemma site (h : t.IsAt p place) (ht : t.Unlimited) (hne : p.pieces ≠ [])
    (hne' : p.pieces ≠ [""]) : t.site p = .ok place := by
  have hfollow := follow_dropIdle (f := fun s => s = "") (by simp [isIdle]) h.leads
  unfold FileTree.site
  rw [origin_eq ht h.plain hne hne',Except.ok_bind]
  simp only
  revert hfollow
  generalize (p.way.reverse.dropWhile fun s => s = "").reverse = pieces
  intro hfollow
  cases pieces using List.reverseRecOn with
  | nil =>
    cases hfollow
    exact step_idle h.directory (by rfl)
  | append_singleton pieces piece =>
    rw [follow_append] at hfollow
    simpa [follow_singleton] using hfollow

/-- To make a directory that is there changes nothing. -/
lemma ensureDirectory (h : t.IsAt p place) (ht : t.Unlimited) (hne : p.pieces ≠ [])
    (hne' : p.pieces ≠ [""]) : FileTree.ensureDirectory p t = (.ok (),t) := by
  have hmake : makeDirectory p t = (.error .occupied,t) := by
    simp only [makeDirectory_run,h.site ht hne hne',h.directory]
  unfold FileTree.ensureDirectory
  rw [Action.tryCatch_run_error hmake,Action.get_bind,if_pos ⟨rfl,h.isDirectory ht hne hne'⟩]
  rfl

lemma makeDirectoriesFrom (h : t.IsAt p place) (ht : t.Unlimited) (n : Nat) :
    FileTree.makeDirectoriesFrom n p t = (.ok (),t) := by
  have hparent : p.parent? = none ∨ p.pieces ≠ [] ∧ p.pieces ≠ [""] := by
    by_cases hnil : p.pieces = []
    · exact .inl (by simp [parent?,hnil,withoutIdleEnd])
    · by_cases hempty : p.pieces = [""]
      · exact .inl (by simp [parent?,hempty,withoutIdleEnd])
      · exact .inr ⟨hnil,hempty⟩
  rcases hparent with hparent | ⟨hne,hne'⟩
  · cases n <;> simp only [FileTree.makeDirectoriesFrom,hparent] <;> rfl
  have hensure := h.ensureDirectory ht hne hne'
  cases n with
  | zero =>
    unfold FileTree.makeDirectoriesFrom
    split_ifs
    · rfl
    · exact hensure
  | succ n =>
    unfold FileTree.makeDirectoriesFrom
    cases p.parent? with
    | none => rfl
    | some above => exact Action.tryCatch_run hensure

end IsAt

/-- Zeros stand in no piece of a joined path if they stand in none of its parts. -/
lemma plain_join (hp : p.Plain) (hn : Storable name) :
    (p.join [name]).Plain := by
  intro piece hpiece
  rw [pieces_join_name] at hpiece
  rcases List.mem_append.mp hpiece with hpiece | hpiece
  · exact hp piece (mem_of_mem_unslashed hpiece)
  · rw [List.mem_singleton.mp hpiece]
    exact hn.no_zero

section Join

variable (hp : p.Plain) (hn : Storable name) (ht : t.Unlimited)
include hp hn ht

lemma origin_join : t.origin (p.join [name]) =
    .ok (p.start t.here,unslashed p.way ++ [name]) := by
  have hproper : ∀ n ∈ [name], Proper n := by simpa using hn.toProper
  rw [origin_eq ht (plain_join hp hn) join_name_ne_nil (join_name_ne_empty hn.toProper),
    start_join (List.cons_ne_nil name []) hproper,way_join (List.cons_ne_nil name []) hproper]

lemma locate_join : t.locate (p.join [name]) =
    t.follow (p.start t.here) (unslashed p.way ++ [name]) := by
  unfold locate
  rw [origin_join hp hn ht,Except.ok_bind]

/-- A directory is made where its path leads. -/
lemma site_join : t.site (p.join [name]) = t.locate (p.join [name]) := by
  rw [locate_join hp hn ht]
  unfold site
  rw [origin_join hp hn ht,Except.ok_bind]
  simp only
  rw [List.reverse_concat,List.dropWhile_cons_of_neg (by simpa using hn.ne_empty),
    List.reverse_cons,List.reverse_reverse,List.dropLast_concat,List.getLast?_concat,follow_append]
  simp only [follow_singleton]
  rfl

/-- Paths of two names lead through the first. -/
lemma locate_join_join {above : String} (ha : Storable above) :
    t.locate ((p.join [above]).join [name]) =
      (t.locate (p.join [above]) >>= fun place => t.step place name) := by
  have hproper : ∀ n ∈ [above], Proper n := by simpa using ha.toProper
  rw [locate_join (plain_join hp ha) hn ht,locate_join hp ha ht,
    start_join (List.cons_ne_nil above []) hproper,way_join (List.cons_ne_nil above []) hproper,
    unslashed_concat ha.toProper,follow_append]
  simp only [follow_singleton]

end Join

lemma IsAt.locate_join (h : t.IsAt p place) (hn : Storable name) (ht : t.Unlimited) :
    t.locate (p.join [name]) = .ok (place ++ [name]) := by
  rw [FileTree.locate_join h.plain hn ht,follow_append,follow_unslashed h.leads,Except.ok_bind,
    follow_singleton,step_storable ht h.directory hn]

/-- What is joined to a path of a directory leads to a directory in it. -/
lemma IsAt.join (h : t.IsAt p place) (hn : Storable name) (ht : t.Unlimited)
    (hd : t.entry? (place ++ [name]) = some .directory) :
    t.IsAt (p.join [name]) (place ++ [name]) := by
  have hproper : ∀ n ∈ [name], Proper n := by simpa using hn.toProper
  refine ⟨plain_join h.plain hn,?_,hd⟩
  rw [start_join (List.cons_ne_nil name []) hproper,way_join (List.cons_ne_nil name []) hproper,
    ← h.locate_join hn ht,FileTree.locate_join h.plain hn ht]

/-- A path of a directory without what says nothing at its end. -/
lemma follow_dropEnd (h : t.follow start pieces = .ok place) : t.follow start
    ((unslashed pieces).reverse.dropWhile isIdle).reverse = .ok place :=
  follow_dropIdle (fun _ => id) (follow_unslashed h)

/-- The path above what is joined to a path of a directory leads to that directory. -/
lemma IsAt.parent (h : t.IsAt p place) (hn : Proper name) :
    ∃ d, (p.join [name]).parent? = some d ∧ t.IsAt d place := by
  have hplain : Plain ⟨withoutIdleEnd (unslashed p.pieces)⟩ :=
    fun piece hpiece => h.plain piece (mem_of_mem_unslashed (mem_of_mem_withoutIdleEnd hpiece))
  have hleads := h.leads
  rw [parent?_join hn]
  obtain ⟨pieces⟩ := p
  rcases pieces with _ | ⟨first,rest⟩
  · exact ⟨_,rfl,by simp [Plain],hleads,h.directory⟩
  -- A path from the root keeps the slash with which it starts even if nothing else is left of it.
  by_cases hfirst : first = ""
  · subst hfirst
    cases rest with
    | nil => exact ⟨_,rfl,by simp [Plain],hleads,h.directory⟩
    | cons second rest =>
      have hfollow : t.follow [] (second::rest) = .ok place := hleads
      have hend := follow_dropEnd hfollow
      rw [unslashed_cons_cons,withoutIdleEnd] at hplain ⊢
      rw [if_neg (List.cons_ne_nil _ _)]
      split_ifs with hroot
      · rw [(List.cons.inj hroot).2] at hend
        obtain rfl : [] = place := Except.ok.inj hend
        refine ⟨_,rfl,by simp [Plain],?_,h.directory⟩
        exact follow_singleton.trans (step_idle h.directory (by rfl))
      · refine ⟨_,rfl,hplain,?_,h.directory⟩
        simpa [start,way,hroot] using hend
  · have hunslashed : unslashed (first::rest) = first::unslashed rest := by
      cases rest with
      | nil => simp [unslashed,hfirst]
      | cons second rest => exact unslashed_cons_cons first second rest
    have hfollow : t.follow t.here (first::rest) = .ok place := by
      simpa [start,way,hfirst] using hleads
    obtain ⟨next,hnext,hfollow⟩ := Except.bind_ok hfollow
    have hend := follow_dropEnd hfollow
    rw [hunslashed,withoutIdleEnd] at hplain ⊢
    rw [if_neg (List.cons_ne_nil _ _),if_neg (by simp [hfirst])]
    refine ⟨_,rfl,hplain,?_,h.directory⟩
    suffices t.follow t.here (first::((unslashed rest).reverse.dropWhile isIdle).reverse) =
        .ok place by simpa [start,way,hfirst] using this
    change (t.step t.here first >>= fun next => t.follow next _) = _
    rw [hnext]
    exact hend

/-- A disk with more directories, all of them on the way to a place. -/
structure Grown (t t' : FileTree) (place : List String) : Prop where
  settings : t' = { t with entries := t'.entries }
  entries : ∀ x, t'.entry? x = t.entry? x ∨
    t.entry? x = none ∧ t'.entry? x = some .directory ∧ x <+: place

namespace Grown

lemma refl (t : FileTree) (place : List String) : Grown t t place :=
  ⟨rfl,fun _ => .inl rfl⟩

lemma trans (h : Grown t t' place) (h' : Grown t' t'' (place ++ [name])) :
    Grown t t'' (place ++ [name]) := by
  refine ⟨by rw [h'.settings,h.settings],fun x => ?_⟩
  rcases h.entries x with heq | ⟨hnone,hd,hx⟩
  · rw [← heq]
    exact h'.entries x
  · refine .inr ⟨hnone,?_,hx.trans (List.prefix_append _ _)⟩
    rcases h'.entries x with heq | ⟨hnone',-⟩
    · rw [heq,hd]
    · simp [hd] at hnone'

lemma extension (h : Grown t t' place) : Extends t t' := by
  refine ⟨h.settings,fun x hx => ?_⟩
  rcases h.entries x with heq | ⟨-,hd,-⟩
  · rwa [heq]
  · exact hd

/-- No files come with directories. -/
lemma file_iff (h : Grown t t' place) {bytes : ByteArray} :
    t'.entry? x = some (.file bytes) ↔ t.entry? x = some (.file bytes) := by
  rcases h.entries x with heq | ⟨hnone,hd,-⟩
  · rw [heq]
  · simp [hnone,hd]

/-- Nothing comes where nothing is on the way. -/
lemma entry?_eq (h : Grown t t' place) (hx : ¬x <+: place) : t'.entry? x = t.entry? x :=
  (h.entries x).resolve_right fun h => hx h.2.2

lemma put (h : t.entry? (place ++ [name]) = none) :
    Grown t (t.put (place ++ [name]) .directory) (place ++ [name]) := by
  refine ⟨rfl,fun x => ?_⟩
  rw [entry?_put (by simp)]
  split_ifs with hx
  · exact .inr ⟨hx ▸ h,rfl,hx ▸ List.prefix_rfl⟩
  · exact .inl rfl

end Grown

/-- To make a directory in one that is there, where no file stands. -/
lemma IsAt.ensureDirectory_join (h : t.IsAt p place) (hn : Storable name) (ht : t.Unlimited)
    (hfree : ∀ b, t.entry? (place ++ [name]) ≠ some (.file b)) :
    ∃ t', FileTree.ensureDirectory (p.join [name]) t = (.ok (),t') ∧
      Grown t t' (place ++ [name]) ∧ t'.IsAt (p.join [name]) (place ++ [name]) := by
  have hmake : makeDirectory (p.join [name]) t = match t.entry? (place ++ [name]) with
      | some _ => (.error .occupied,t)
      | none => (.ok (),t.put (place ++ [name]) .directory) := by
    rw [makeDirectory_run,site_join h.plain hn ht,h.locate_join hn ht]
  cases he : t.entry? (place ++ [name]) with
  | none =>
    rw [he] at hmake
    have hgrown := Grown.put he
    refine ⟨_,Action.tryCatch_run hmake,hgrown,?_⟩
    refine (h.mono hgrown.extension).join hn (hgrown.extension.unlimited ht) ?_
    rw [entry?_put (by simp),if_pos rfl]
  | some e =>
    cases e with
    | file b => exact absurd he (hfree b)
    | directory =>
      have hat := h.join hn ht he
      exact ⟨t,hat.ensureDirectory ht join_name_ne_nil (join_name_ne_empty hn.toProper),
        .refl _ _,hat⟩

/-- A path that leads to a directory or to where one can be made, together with those above it. -/
inductive Opens (t : FileTree) : DiskPath → List String → Prop
  | there {p : DiskPath} {place : List String} : t.IsAt p place → Opens t p place
  | inside {p : DiskPath} {place : List String} {name : String} : Opens t p place → Storable name →
      (∀ b, t.entry? (place ++ [name]) ≠ some (.file b)) → Opens t (p.join [name]) (place ++ [name])

namespace Opens

lemma plain (h : t.Opens p place) : p.Plain := by
  induction h with
  | there h => exact h.plain
  | inside h hn hfree ih => exact plain_join ih hn

/-- A path of names at which no directory is, so that nothing can be looked up in it. -/
structure Missing (t : FileTree) (p : DiskPath) : Prop where
  fails : ∀ {name}, Storable name → t.locate (p.join [name]) = .error .notFound
  parent : ∀ {name}, Proper name → (p.join [name]).parent? = some p
  length : ∀ name, (p.join [name]).pieces.length = p.pieces.length + 1

lemma isAt_or_missing (h : t.Opens p place) (ht : t.Unlimited) :
    t.IsAt p place ∨ Missing t p := by
  induction h with
  | there h => exact .inl h
  | @inside p place above h ha hfree ih =>
    have hmissing (hfails : ∀ {name}, Storable name →
        t.locate ((p.join [above]).join [name]) = .error .notFound) :
        Missing t (p.join [above]) := by
      refine ⟨hfails,fun hn => parent?_join_join ha.toProper hn,fun name => ?_⟩
      rw [pieces_join_name (p := p.join [above]),pieces_join_name (p := p),
        unslashed_concat ha.toProper,List.length_append,List.length_singleton]
    rcases ih with hat | hm
    · cases he : t.entry? (place ++ [above]) with
      | none =>
        refine .inr (hmissing fun hn => ?_)
        rw [locate_join_join hat.plain hn ht ha,hat.locate_join ha ht,Except.ok_bind,
          step_missing he]
      | some e =>
        cases e with
        | file b => exact absurd he (hfree b)
        | directory => exact .inl (hat.join ha ht he)
    · refine .inr (hmissing fun hn => ?_)
      rw [locate_join_join h.plain hn ht ha,hm.fails ha,Except.error_bind]

/-- The path above a name that is joined to a path opens what that path does. -/
lemma parent (h : t.Opens p place) (hn : Proper name) : ∃ d, (p.join [name]).parent? = some d ∧
    t.Opens d place ∧ ∀ {t'}, Extends t t' → t'.IsAt d place → t'.IsAt p place := by
  cases h with
  | there h =>
    obtain ⟨d,hd,hat⟩ := h.parent hn
    exact ⟨d,hd,.there hat,fun ht _ => h.mono ht⟩
  | inside h ha hfree =>
    exact ⟨_,parent?_join_join ha.toProper hn,.inside h ha hfree,fun _ => id⟩

/-- Directories are made wherever a path opens them, and nothing but directories on the way. -/
lemma makeDirectoriesFrom (h : t.Opens p place) (ht : t.Unlimited) {n : Nat}
    (hlength : p.pieces.length ≤ n) : ∃ t', FileTree.makeDirectoriesFrom n p t = (.ok (),t') ∧
      Grown t t' place ∧ t'.IsAt p place := by
  induction h generalizing n with
  | there h => exact ⟨t,h.makeDirectoriesFrom ht n,.refl t _,h⟩
  | @inside p place name h hn hfree ih =>
    obtain ⟨n,rfl⟩ : ∃ m, n = m + 1 := by
      rw [pieces_join_name,List.length_append,List.length_singleton] at hlength
      exact ⟨n - 1,by omega⟩
    obtain ⟨d,hd,-⟩ := h.parent hn.toProper
    unfold FileTree.makeDirectoriesFrom
    rw [hd]
    -- Only if nothing can be looked up in the directory above is that made first.
    rcases h.isAt_or_missing ht with hat | hmissing
    · obtain ⟨t',hensure,hmade⟩ := hat.ensureDirectory_join hn ht hfree
      exact ⟨t',Action.tryCatch_run hensure,hmade⟩
    · have hfails : ensureDirectory (p.join [name]) t = (.error .notFound,t) := by
        have hmake : makeDirectory (p.join [name]) t = (.error .notFound,t) := by
          rw [makeDirectory_run,site_join h.plain hn ht,hmissing.fails hn]
        exact Action.tryCatch_run_error hmake
      rw [hmissing.length] at hlength
      obtain rfl : d = p := Option.some.inj (hd.symm.trans (hmissing.parent hn.toProper))
      obtain ⟨t₁,hmade,hgrown,hat⟩ := ih (n := n) (by omega)
      obtain ⟨t₂,hensure,hgrown',hat'⟩ := hat.ensureDirectory_join hn
        (hgrown.extension.unlimited ht) fun b hb => hfree b (hgrown.file_iff.mp hb)
      refine ⟨t₂,?_,hgrown.trans hgrown',hat'⟩
      simp only
      rw [Action.tryCatch_run_error hfails,if_pos rfl,Action.bind_run hmade]
      exact hensure

/-- All directories of a path that opens them can be made. -/
lemma makeDirectories (h : t.Opens p place) (ht : t.Unlimited) :
    ∃ t', FileTree.makeDirectories p t = (.ok (),t') ∧ Grown t t' place ∧ t'.IsAt p place :=
  h.makeDirectoriesFrom ht le_rfl

/-- What opens a directory opens those that can be made below it. -/
lemma join (h : t.Opens p place) {dirs : List String} (hdirs : ∀ d ∈ dirs, Storable d)
    (hfree : ∀ l, l <+: dirs → ∀ b, t.entry? (place ++ l) ≠ some (.file b)) :
    ∃ q, t.Opens q (place ++ dirs) ∧ ∀ name, p.join (dirs ++ [name]) = q.join [name] := by
  induction dirs using List.reverseRecOn with
  | nil => exact ⟨p,by simpa using h,fun _ => rfl⟩
  | append_singleton dirs d ih =>
    obtain ⟨hdirs,hd⟩ := List.forall_mem_append.mp hdirs
    obtain ⟨q,hq,hjoin⟩ := ih hdirs fun l hl => hfree l (hl.trans (List.prefix_append _ _))
    have hinside := hq.inside (List.forall_mem_singleton.mp hd) fun b hb =>
      hfree _ List.prefix_rfl b (by rwa [← List.append_assoc])
    rw [List.append_assoc] at hinside
    refine ⟨_,hinside,fun name => ?_⟩
    have hpieces : unslashed p.pieces ++ (dirs ++ [d]) = unslashed q.pieces ++ [d] :=
      congrArg DiskPath.pieces (hjoin d)
    change DiskPath.mk (unslashed p.pieces ++ (dirs ++ [d] ++ [name])) =
      ⟨unslashed (unslashed q.pieces ++ [d]) ++ [name]⟩
    rw [unslashed_concat (List.forall_mem_singleton.mp hd).toProper,← hpieces]
    simp

end Opens

/-- Bytes go where no directory stands. -/
lemma write_run (hl : t.locate p = .ok place) (h : t.entry? place ≠ some .directory)
    (bytes : ByteArray) : write p bytes t = (.ok (),t.put place (.file bytes)) := by
  unfold write
  rw [Action.get_bind,Action.lift_bind hl]
  rcases he : t.entry? place with _ | _ | _
  · rfl
  · exact absurd he h
  · rfl

lemma rename_run (hold : t.locate p = .ok place) (hnew : t.locate q = .ok place')
    (he : t.entry? place = some e) (h : t.entry? place' ≠ some .directory) :
    rename p q t = (.ok (),(t.erase place).put place' e) := by
  unfold rename
  rw [Action.get_bind,Action.lift_bind hold,Action.lift_bind hnew,he]
  rcases he' : t.entry? place' with _ | _ | _
  · rfl
  · exact absurd he' h
  · rfl

end FileTree
end RigPack
