import Mathlib
import RigPack.Proofs.Pack.Separate

/-!
What it means to send a set of files to a directory. Each file is written under another name and
then renamed, beside files that have been sent before it, so the set arrives as a whole only because
the places at which its files and their first versions stand are apart.
-/

namespace RigPack

open RelativePath FileTree

namespace RelativePath

variable {p q : String}

/-- Two paths of which none leads through the other, nor through what is written first for it. -/
structure Apart (p q : String) : Prop where
  left : ¬names p <+: names q
  right : ¬names q <+: names p
  left_temporary : ¬temporary p <+: names q
  right_temporary : ¬temporary q <+: names p

/-- What stands between slashes of a path stands in the path. -/
lemma mem_toList_of_mem_names {name : String} (h : name ∈ names p) {c : Char}
    (hc : c ∈ name.toList) : c ∈ p.toList := by
  have hslash := no_slash_of_mem_split (mem_names.mp h).1 c hc
  obtain ⟨w,hw,rfl⟩ := List.mem_map.mp (mem_names.mp h).1
  rw [← splitOn_slashes] at hw
  rw [String.toList_ofList] at hc
  obtain ⟨d,hd,rfl⟩ := List.mem_map.mp (Text.mem_splitOn hw c hc).1
  have hd' : isSlash d = false := by
    by_contra hslashed
    rw [Bool.not_eq_false] at hslashed
    rw [slash_eq_iff.mpr hslashed] at hslash
    exact absurd hslash (by decide)
  rwa [slash_of_not hd']

lemma storable_of_normal (h : normalize p = .ok p) (hzero : '\x00' ∉ p.toList) :
    ∀ name ∈ names p, Storable name :=
  fun name hn => ⟨(normal_iff.mp h).2.1 name hn,fun hc => hzero (mem_toList_of_mem_names hn hc)⟩

lemma length_temporaryName (name : String) :
    (DirectoryOutput.temporaryName name).length = name.length + 5 := by
  have hdot : ".".length = 1 := by decide
  have hend : ".tmp".length = 4 := by decide
  rw [DirectoryOutput.temporaryName,String.length_append,String.length_append]
  omega

lemma storable_temporaryName {name : String} (h : Storable name) :
    Storable (DirectoryOutput.temporaryName name) := by
  have hlong (s : String) (hs : s.length ≤ 2) : DirectoryOutput.temporaryName name ≠ s := by
    rintro rfl
    rw [length_temporaryName] at hs
    omega
  have hchars : ∀ c ∈ (DirectoryOutput.temporaryName name).toList,
      isSlash c = false ∧ c ≠ '\x00' := by
    rw [DirectoryOutput.temporaryName,String.toList_append,String.toList_append]
    refine List.forall_mem_append.mpr ⟨List.forall_mem_append.mpr
      ⟨by simp [isSlash],?_⟩,by simp [isSlash]⟩
    rintro c hc
    refine ⟨h.no_slash c hc,?_⟩
    rintro rfl
    exact h.no_zero hc
  exact ⟨⟨hlong _ (by decide),hlong _ (by decide),hlong _ (by decide),
    fun c hc => (hchars c hc).1⟩,fun hc => (hchars _ hc).2 rfl⟩

lemma temporaryName_ne (name : String) : name ≠ DirectoryOutput.temporaryName name := by
  intro h
  have hlength := congrArg String.length h
  rw [length_temporaryName] at hlength
  omega

/-- The names of a path in normal form are those of a directory and one more. -/
lemma exists_names (h : normalize p = .ok p) : ∃ dirs name, names p = dirs ++ [name] ∧
    temporary p = dirs ++ [DirectoryOutput.temporaryName name] := by
  obtain ⟨dirs,name,hnames⟩ := (List.eq_nil_or_concat' (names p)).resolve_left (normal_iff.mp h).1
  refine ⟨dirs,name,hnames,?_⟩
  rw [temporary,hnames,List.dropLast_concat,List.getLast?_concat]
  rfl

end RelativePath

namespace FileTree

/-- A disk on which nothing stands in the way of a file below a base, nor of its first version. -/
structure HasRoom (t : FileTree) (base : List String) (path : String) : Prop where
  ways : ∀ l, l <+: (names path).dropLast → ∀ b, t.entry? (base ++ l) ≠ some (.file b)
  last : t.entry? (base ++ names path) ≠ some .directory
  first : t.entry? (base ++ temporary path) ≠ some .directory

/-- What stands below a place is not on the way to it. -/
lemma not_append_isPrefix {l : List String} (hl : l ≠ []) (place : List String) :
    ¬place ++ l <+: place := by
  intro h
  have hlength := h.length_le
  have := List.length_pos_of_ne_nil hl
  rw [List.length_append] at hlength
  omega

/-- Directories above a base leave room below it. -/
lemma HasRoom.grown {t t' : FileTree} {base : List String} {path : String}
    (h : t.HasRoom base path) (hgrown : Grown t t' base) (hne : names path ≠ []) :
    t'.HasRoom base path := by
  refine ⟨fun l hl b hb => h.ways l hl b (hgrown.file_iff.mp hb),?_,?_⟩
  · rw [hgrown.entry?_eq (not_append_isPrefix hne base)]
    exact h.last
  · rw [hgrown.entry?_eq (not_append_isPrefix (by simp [temporary]) base)]
    exact h.first

/-- What has become of a disk to which files have been sent. -/
structure Delivered (root : DiskPath) (base : List String) (files : List (String × ByteArray))
    (t t' : FileTree) : Prop where
  extension : Extends t t'
  reached : ∀ f ∈ files, t'.locate (root.join (names f.1)) = .ok (base ++ names f.1)
  last : ∀ f ∈ files, t'.entry? (base ++ names f.1) = some (.file f.2)
  first : ∀ f ∈ files, t'.entry? (base ++ temporary f.1) = none
  others : ∀ x, (∀ f ∈ files, x ≠ base ++ names f.1 ∧ x ≠ base ++ temporary f.1) →
    t'.entry? x = t.entry? x ∨ t.entry? x = none ∧ t'.entry? x = some .directory ∧
      ∃ f ∈ files, x <+: base ++ names f.1

/-- A disk on which a file has been written at `first` and then moved to `last`. -/
structure Replaced (first last : List String) (bytes : ByteArray) (t t' : FileTree) : Prop where
  extension : Extends t t'
  entries : ∀ x, t'.entry? x =
    if x = last then some (.file bytes) else if x = first then none else t.entry? x

/-- A file is written under one name of a directory and moved to another. -/
lemma IsAt.replace {t : FileTree} {place : List String} {p q : DiskPath} {first last : String}
    (hp : t.IsAt p place) (hq : t.IsAt q place) (hlast : Storable last) (hfirst : Storable first)
    (hne : last ≠ first) (ht : t.Unlimited) (hlast' : t.entry? (place ++ [last]) ≠ some .directory)
    (hfirst' : t.entry? (place ++ [first]) ≠ some .directory) (bytes : ByteArray) :
    ∃ t₁, write (p.join [first]) bytes t = (.ok (),t₁) ∧
      ∃ t₂, rename (p.join [first]) (q.join [last]) t₁ = (.ok (),t₂) ∧
        Replaced (place ++ [first]) (place ++ [last]) bytes t t₂ := by
  have hne' : place ++ [last] ≠ place ++ [first] := by simpa using hne
  have hput : Extends t (t.put (place ++ [first]) (.file bytes)) := .put hfirst' _
  have ht₁ := hput.unlimited ht
  have hentry (x : List String) : FileTree.entry? (t.put (place ++ [first]) (.file bytes)) x =
      if x = place ++ [first] then some (.file bytes) else t.entry? x :=
    entry?_put (by simp)
  have hlast₁ : FileTree.entry? (t.put (place ++ [first]) (.file bytes)) (place ++ [last]) ≠
      some .directory := by
    rwa [hentry,if_neg hne']
  refine ⟨_,write_run (hp.locate_join hfirst ht) hfirst' bytes,_,
    rename_run ((hp.mono hput).locate_join hfirst ht₁) ((hq.mono hput).locate_join hlast ht₁)
      ((hentry _).trans (if_pos rfl)) hlast₁,?_,fun x => ?_⟩
  · refine (hput.trans (.erase ?_)).trans (.put ?_ _)
    · rw [hentry,if_pos rfl]
      simp
    · rw [entry?_erase (by simp),if_neg hne']
      exact hlast₁
  · rw [entry?_put (by simp),entry?_erase (by simp),hentry]
    split_ifs
    · rfl
    · rfl
    · rfl

/-- A file that replaces another one, after the directories above it have been made. -/
lemma Replaced.delivered {t t₁ t₂ : FileTree} {root : DiskPath} {base dirs : List String}
    {path name first : String} {bytes : ByteArray} (hgrown : Grown t t₁ (base ++ dirs))
    (h : Replaced (base ++ dirs ++ [first]) (base ++ dirs ++ [name]) bytes t₁ t₂)
    (hne : name ≠ first) (hnames : names path = dirs ++ [name])
    (hfirst : temporary path = dirs ++ [first])
    (hreached : t₂.locate (root.join (names path)) = .ok (base ++ names path)) :
    Delivered root base [(path,bytes)] t t₂ := by
  refine ⟨hgrown.extension.trans h.extension,?_,?_,?_,fun x hx => ?_⟩
  · exact List.forall_mem_singleton.mpr hreached
  · rw [List.forall_mem_singleton,hnames,← List.append_assoc,h.entries,if_pos rfl]
  · rw [List.forall_mem_singleton,hfirst,← List.append_assoc,h.entries,
      if_neg (by simpa using hne.symm),if_pos rfl]
  · rw [List.forall_mem_singleton,hnames,hfirst,← List.append_assoc,← List.append_assoc] at hx
    rw [h.entries,if_neg hx.1,if_neg hx.2]
    refine (hgrown.entries x).imp_right fun ⟨hnone,hd,hpre⟩ =>
      ⟨hnone,hd,_,List.mem_singleton_self _,?_⟩
    rw [hnames,← List.append_assoc]
    exact hpre.trans (List.prefix_append _ _)

namespace Delivered

variable {t t₁ t' : FileTree} {root : DiskPath} {base : List String} {path q : String}
  {bytes : ByteArray} {f : String × ByteArray} {files : List (String × ByteArray)}

lemma nil (t : FileTree) : Delivered root base [] t t :=
  ⟨⟨rfl,fun _ => id⟩,by simp,by simp,by simp,fun _ _ => .inl rfl⟩

/-- What stands where no file leads through is as it was. -/
lemma entry?_eq (h : Delivered root base files t t') {l : List String}
    (hl : ∀ f ∈ files, ¬l <+: names f.1) (hl' : ∀ f ∈ files, l ≠ temporary f.1) :
    t'.entry? (base ++ l) = t.entry? (base ++ l) := by
  have hx : ∀ f ∈ files, base ++ l ≠ base ++ names f.1 ∧ base ++ l ≠ base ++ temporary f.1 := by
    refine fun f hf => ⟨fun heq => hl f hf ?_,fun heq => hl' f hf (List.append_cancel_left heq)⟩
    rw [List.append_cancel_left heq]
  refine (h.others _ hx).resolve_right fun ⟨_,_,f,hf,hpre⟩ => ?_
  exact hl f hf ((List.prefix_append_right_inj base).mp hpre)

/-- A file that has been sent leaves room for others. -/
lemma hasRoom (h : Delivered root base [(path,bytes)] t t') (hapart : Apart path q)
    (hq : t.HasRoom base q) : t'.HasRoom base q := by
  have hfirst := List.forall_mem_singleton.mp h.first
  refine ⟨fun l hl b hb => ?_,?_,?_⟩
  · have hl' : l <+: names q := hl.trans <| List.dropLast_prefix _
    have hne : l ≠ names path ∧ l ≠ temporary path := by
      constructor
      · rintro rfl
        exact hapart.left hl'
      · rintro rfl
        exact hapart.left_temporary hl'
    rcases h.others (base ++ l) (by simpa using hne) with heq | ⟨-,hd,-⟩
    · exact hq.ways l hl b (heq ▸ hb)
    · simp [hd] at hb
  · rw [h.entry?_eq (List.forall_mem_singleton.mpr hapart.right)]
    · exact hq.last
    · refine List.forall_mem_singleton.mpr fun heq => hapart.left_temporary ?_
      rw [heq]
  · by_cases hsame : temporary q = temporary path
    · rw [hsame,hfirst]
      simp
    · rw [h.entry?_eq (List.forall_mem_singleton.mpr hapart.right_temporary)
        (List.forall_mem_singleton.mpr hsame)]
      exact hq.first

/-- A file that is apart from those that are sent after it stays. -/
lemma cons (h : Delivered root base [f] t t₁) (h' : Delivered root base files t₁ t')
    (hapart : ∀ g ∈ files, Apart f.1 g.1) : Delivered root base (f::files) t t' := by
  have hreached := List.forall_mem_singleton.mp h.reached
  have hlast := List.forall_mem_singleton.mp h.last
  have hfirst := List.forall_mem_singleton.mp h.first
  refine ⟨h.extension.trans h'.extension,?_,?_,?_,?_⟩
  · exact List.forall_mem_cons.mpr ⟨h'.extension.locate hreached,h'.reached⟩
  · refine List.forall_mem_cons.mpr ⟨?_,h'.last⟩
    rw [h'.entry?_eq fun g hg => (hapart g hg).left,hlast]
    intro g hg heq
    apply (hapart g hg).right_temporary
    rw [heq]
  · refine List.forall_mem_cons.mpr ⟨?_,h'.first⟩
    by_cases hsame : ∃ g ∈ files, temporary f.1 = temporary g.1
    · obtain ⟨g,hg,hsame⟩ := hsame
      rw [hsame]
      exact h'.first g hg
    · rw [h'.entry?_eq (fun g hg => (hapart g hg).left_temporary) fun g hg heq =>
        hsame ⟨g,hg,heq⟩]
      exact hfirst
  · intro x hx
    obtain ⟨hf,hx⟩ := List.forall_mem_cons.mp hx
    have hbefore := h.others x (by simpa using hf)
    rcases h'.others x hx with heq | ⟨hnone,hd,g,hg,hpre⟩
    · rw [heq]
      refine hbefore.imp_right fun ⟨hnone,hd,g,hg,hpre⟩ => ⟨hnone,hd,f,List.mem_cons_self,?_⟩
      rwa [List.mem_singleton.mp hg] at hpre
    · refine .inr ⟨?_,hd,g,List.mem_cons_of_mem f hg,hpre⟩
      rcases hbefore with heq | ⟨hnone,-⟩
      · rw [← heq,hnone]
      · exact hnone

end Delivered

end FileTree

namespace DirectoryOutput

variable {β : Type} {error : DiskFault → Error} {action : DiskAction β} {o : DirectoryOutput}
  {v : β} {t t' : FileTree} {root : DiskPath} {base : List String} {path : String} {w : Nat}

lemma onDisk_run (h : action t = (.ok v,t')) :
    onDisk error action ⟨t,w⟩ = (.ok v,⟨t',w⟩) := by
  have hrun : action.run.run t = (.ok v,t') := h
  unfold onDisk
  rw [Action.get_bind,hrun]
  rfl

lemma orRemove_run {file : DiskPath} {action : Writing Unit} {o o' : DirectoryOutput}
    (h : action o = (.ok (),o')) : orRemove file action o = (.ok (),o') :=
  Action.tryCatch_run h

/-- One file arrives where its path leads, and all that is left of the way it went are directories.
-/
lemma writeFile_run (hnormal : normalize path = .ok path) (hzero : '\x00' ∉ path.toList)
    (ht : t.Unlimited) (hroot : t.IsAt root base) (hroom : t.HasRoom base path)
    (bytes : ByteArray) (w : Nat) : ∃ t', writeFile root path bytes ⟨t,w⟩ = (.ok (),⟨t',w + 1⟩) ∧
      Delivered root base [(path,bytes)] t t' := by
  obtain ⟨dirs,name,hnames,htemporary⟩ := exists_names hnormal
  have hpieces := DiskPath.pieces_ofText hnormal
  have hstorable := storable_of_normal hnormal hzero
  obtain ⟨hways,hlast,hfirst⟩ := hroom
  rw [hnames] at hstorable hways hlast hpieces
  rw [List.dropLast_concat] at hways
  rw [htemporary] at hfirst
  obtain ⟨hdirs,hname⟩ := List.forall_mem_append.mp hstorable
  have hname := List.forall_mem_singleton.mp hname
  have hname' := storable_temporaryName hname
  obtain ⟨q,hq,hjoin⟩ := (Opens.there hroot).join hdirs hways
  obtain ⟨d,hparent,hd,hback⟩ := hq.parent hname.toProper
  obtain ⟨t₁,hmade,hgrown,hat⟩ := hd.makeDirectories ht
  have ht₁ := hgrown.extension.unlimited ht
  have hatq := hback hgrown.extension hat
  rw [← List.append_assoc] at hlast hfirst
  have hlast₁ := hlast
  have hfirst₁ := hfirst
  rw [← hgrown.entry?_eq (not_append_isPrefix (List.cons_ne_nil _ _) _)] at hlast₁ hfirst₁
  obtain ⟨t₂,hwrite,t₃,hrename,hreplaced⟩ :=
    hat.replace hatq hname hname' (temporaryName_ne name) ht₁ hlast₁ hfirst₁ bytes
  refine ⟨t₃,?_,?_⟩
  · unfold writeFile
    rw [hnormal]
    simp only
    rw [hpieces,hjoin name,hparent,List.getLast?_concat]
    simp only [Option.getD_some]
    rw [Action.bind_run (onDisk_run hmade),Action.bind_run (orRemove_run (onDisk_run hwrite)),
      Action.bind_run (orRemove_run (onDisk_run hrename))]
    rfl
  · refine hreplaced.delivered hgrown (temporaryName_ne name) hnames htemporary ?_
    rw [hnames,hjoin name,← List.append_assoc]
    exact (hatq.mono hreplaced.extension).locate_join hname (hreplaced.extension.unlimited ht₁)

/-- Files that are apart arrive one after another. -/
lemma writeFiles_run {files : List (String × ByteArray)}
    (hnormal : ∀ f ∈ files, normalize f.1 = .ok f.1) (hzero : ∀ f ∈ files, '\x00' ∉ f.1.toList)
    (hapart : files.Pairwise fun f g => Apart f.1 g.1) (ht : t.Unlimited)
    (hroot : t.IsAt root base) (hroom : ∀ f ∈ files, t.HasRoom base f.1) (w : Nat) :
    ∃ t', (files.forM fun (path,bytes) => writeFile root path bytes : Writing Unit) ⟨t,w⟩ =
      (.ok (),⟨t',w + files.length⟩) ∧ Delivered root base files t t' := by
  induction files generalizing t w with
  | nil => exact ⟨t,rfl,.nil t⟩
  | cons f files ih =>
    obtain ⟨path,bytes⟩ := f
    obtain ⟨hapart,hrest⟩ := List.pairwise_cons.mp hapart
    obtain ⟨hroom,hrooms⟩ := List.forall_mem_cons.mp hroom
    obtain ⟨t₁,hfile,hone⟩ := writeFile_run (hnormal _ List.mem_cons_self)
      (hzero _ List.mem_cons_self) ht hroot hroom bytes w
    have hlater : ∀ g ∈ files, t₁.HasRoom base g.1 :=
      fun g hg => hone.hasRoom (hapart g hg) (hrooms g hg)
    obtain ⟨t₂,hfiles,hall⟩ := ih (fun g hg => hnormal g (List.mem_cons_of_mem _ hg))
      (fun g hg => hzero g (List.mem_cons_of_mem _ hg)) hrest (hone.extension.unlimited ht)
      (hroot.mono hone.extension) hlater (w + 1)
    refine ⟨t₂,?_,hone.cons hall hapart⟩
    refine (Action.bind_run hfile).trans (hfiles.trans ?_)
    rw [List.length_cons,Nat.add_right_comm,Nat.add_assoc]

end DirectoryOutput

namespace ArtifactSet

variable {s : ArtifactSet}

/-- A memory keeps the files of the set and forgets what it held. -/
lemma emit_memory (s : ArtifactSet) (held : Received) :
    s.emit memorySink held = ((),⟨some s.size,true,s.toList⟩) := by
  have hfiles (l : List (String × ByteArray)) (r : Received) :
      (l.forM fun (path,bytes) => memorySink.write path bytes : StateM Received Unit) r =
        ((),{ r with files := r.files ++ l }) := by
    induction l generalizing r with
    | nil =>
      rw [List.append_nil]
      rfl
    | cons f l ih =>
      refine (ih { r with files := r.files ++ [f] }).trans ?_
      rw [List.append_assoc,List.singleton_append]
  have hend : s.emit memorySink held = memorySink.finish
      (((s.toList.forM fun (path,bytes) => memorySink.write path bytes : StateM Received Unit)
        { expected := some s.size }).2) := rfl
  rw [hend,hfiles]
  rfl

/-- The files of a separate set are apart from one another. -/
lemma Separate.pairwise (h : s.Separate) : s.toList.Pairwise fun f g => Apart f.1 g.1 := by
  have hpaths : s.paths.Pairwise Apart := by
    refine s.nodup_paths.imp_of_mem fun {p q} hp hq hne => ?_
    exact ⟨h.apart p hp q hq hne,h.apart q hq p hp hne.symm,h.apart_temporary p hp q hq hne,
      h.apart_temporary q hq p hp hne.symm⟩
  exact List.pairwise_map.mp hpaths

lemma exists_of_mem_paths {p : String} (h : p ∈ s.paths) : ∃ b, (p,b) ∈ s.toList := by
  obtain ⟨⟨p,b⟩,hf,rfl⟩ := List.mem_map.mp h
  exact ⟨b,hf⟩

/-- The base is made first, then all files arrive. -/
lemma Separate.emit_run (h : s.Separate) {root : DiskPath} {base : List String} {disk : FileTree}
    (hzero : ∀ p ∈ s.paths, '\x00' ∉ p.toList) (ht : disk.Unlimited) (hroot : disk.Opens root base)
    (hroom : ∀ p ∈ s.paths, disk.HasRoom base p) (written : Nat) : ∃ t disk',
      s.emit (directorySink root) ⟨disk,written⟩ = (.ok (),⟨disk',s.size⟩) ∧
        Grown disk t base ∧ Delivered root base s.toList t disk' := by
  obtain ⟨t,hmade,hgrown,hat⟩ := hroot.makeDirectories ht
  have hpath : ∀ f ∈ s.toList, f.1 ∈ s.paths := fun f hf => List.mem_map_of_mem hf
  have hrooms : ∀ f ∈ s.toList, t.HasRoom base f.1 := fun f hf =>
    (hroom _ (hpath f hf)).grown hgrown (normal_iff.mp (h.normal _ (hpath f hf))).1
  obtain ⟨disk',hfiles,hall⟩ := DirectoryOutput.writeFiles_run
    (fun f hf => h.normal _ (hpath f hf)) (fun f hf => hzero _ (hpath f hf)) h.pairwise
    (hgrown.extension.unlimited ht) hat hrooms 0
  have hlength : s.toList.length = s.size := by
    rw [← length_paths,paths,List.length_map]
  rw [Nat.zero_add,hlength] at hfiles
  refine ⟨t,disk',?_,hgrown,hall⟩
  have hstart : (directorySink root).start s.size ⟨disk,written⟩ = (.ok (),⟨t,0⟩) :=
    DirectoryOutput.onDisk_run hmade
  unfold emit
  rw [Action.bind_run hstart]
  exact Action.bind_run hfiles

end ArtifactSet

/-- A disk that fails for no reason of its own: it sets no limits, and all paths can be looked up on
it. -/
structure FileTree.Faultless (t : FileTree) (paths : List String) : Prop where
  limits : t.Unlimited
  legible : ∀ p ∈ paths, '\x00' ∉ p.toList

/-- A set whose files can stand side by side arrives in a directory as a whole, wherever the
directory is there or can be made and nothing stands in the way of a file or of its first version.
Each path then leads to its bytes, no first version is left, all other files are as they were, and
the count of what has been written is that of the set. A sink in memory gets the same files,
whatever it held before. All files of a compiled entity can stand side by side. -/
theorem ArtifactSet.arrives_in_directory :
    (∀ (s : ArtifactSet) (root : DiskPath) (base : List String) (disk : FileTree) (written : Nat),
      s.Separate → disk.Faultless s.paths → disk.Opens root base →
      (∀ p ∈ s.paths, disk.HasRoom base p) →
      ∃ disk', s.emit (directorySink root) ⟨disk,written⟩ = (.ok (),⟨disk',s.size⟩) ∧
        (∀ p b, s.get? p = some b → disk'.entry? (base ++ names p) = some (.file b) ∧
          disk'.read (root.join (DiskPath.ofText p).pieces) = .ok b) ∧
        (∀ p ∈ s.paths, disk'.entry? (base ++ temporary p) = none) ∧
        (∀ x, (∀ p ∈ s.paths, x ≠ base ++ names p ∧ x ≠ base ++ temporary p) → ∀ b,
          disk'.entry? x = some (.file b) ↔ disk.entry? x = some (.file b)) ∧
        ∀ held, ∃ received, s.emit memorySink held = ((),received) ∧ received.files = s.toList ∧
          ∀ p b, (p,b) ∈ received.files ↔ p ∈ s.paths ∧
            disk'.read (root.join (DiskPath.ofText p).pieces) = .ok b) ∧
    ∀ (disk : FileTree) (entity : Entity) (c c' : Context) (e : CompiledEntity),
      c.options.validate = .ok () → entity.compile disk c = (.ok e,c') →
        e.artifacts.Separate ∧ ∀ p ∈ e.artifacts.paths, '\x00' ∉ p.toList := by
  refine ⟨fun s root base disk written hs hdisk hroot hroom => ?_,
    fun disk entity c c' e => Entity.compile_separate⟩
  obtain ⟨t,disk',hrun,hgrown,hall⟩ :=
    hs.emit_run hdisk.legible hdisk.limits hroot hroom written
  have hread : ∀ p b, (p,b) ∈ s.toList →
      disk'.read (root.join (DiskPath.ofText p).pieces) = .ok b := by
    intro p b hf
    have hp : p ∈ s.paths := List.mem_map_of_mem hf
    have hreached := hall.reached (p,b) hf
    have hlast := hall.last (p,b) hf
    rw [DiskPath.pieces_ofText (hs.normal p hp)]
    unfold FileTree.read
    rw [hreached,Except.ok_bind,hlast]
  refine ⟨disk',hrun,fun p b hb => ?_,fun p hp => ?_,fun x hx b => ?_,fun held => ?_⟩
  · have hf := mem_toList.mpr hb
    exact ⟨hall.last (p,b) hf,hread p b hf⟩
  · obtain ⟨b,hf⟩ := exists_of_mem_paths hp
    exact hall.first (p,b) hf
  · rw [← hgrown.file_iff]
    rcases hall.others x fun f hf => hx f.1 (List.mem_map_of_mem hf) with heq | ⟨hnone,hd,-⟩
    · rw [heq]
    · simp [hnone,hd]
  · refine ⟨_,emit_memory s held,rfl,fun p b => ⟨fun hf => ?_,fun ⟨hp,hb⟩ => ?_⟩⟩
    · exact ⟨List.mem_map_of_mem hf,hread p b hf⟩
    · obtain ⟨b',hf⟩ := exists_of_mem_paths hp
      obtain rfl : b' = b := Except.ok.inj ((hread p b' hf).symm.trans hb)
      exact hf

section Shelf

/-- A directory with an old version of a file, a first version that was left beside it, and a file
of someone else. -/
def shelf : FileTree :=
  ((((({} : FileTree).put ["out"] .directory).put ["out","a"] .directory).put
    ["out","a","b"] (.file "old".toUTF8)).put
    ["out","a",".b.tmp"] (.file "half".toUTF8)).put
    ["out","keep"] (.file "mine".toUTF8)

lemma entry?_shelf (x : List String) : shelf.entry? x =
    if x = ["out","keep"] then some (.file "mine".toUTF8)
    else if x = ["out","a",".b.tmp"] then some (.file "half".toUTF8)
    else if x = ["out","a","b"] then some (.file "old".toUTF8)
    else if x = ["out","a"] then some .directory
    else if x = ["out"] then some .directory
    else if x = [] then some .directory else none := by
  have hempty : FileTree.entry? {} x = if x = [] then some .directory else none := by
    unfold entry?
    split_ifs
    · rfl
    · exact Std.ExtTreeMap.getElem?_empty
  unfold shelf
  rw [entry?_put (by decide),entry?_put (by decide),entry?_put (by decide),entry?_put (by decide),
    entry?_put (by decide),hempty]

/-- The old version gives way, what was left is gone, and the file of someone else stays. The files
of the banner can stand side by side. -/
theorem ArtifactSet.shelf_replaced : ∃ s disk',
    ofList [("a/b","new".toUTF8),("c","more".toUTF8)] = .ok s ∧
      s.emit (directorySink ⟨["out"]⟩) ⟨shelf,7⟩ = (.ok (),⟨disk',s.size⟩) ∧
      disk'.read ⟨["out","a","b"]⟩ = .ok "new".toUTF8 ∧
      disk'.entry? ["out","a",".b.tmp"] = none ∧
      disk'.entry? ["out","keep"] = some (.file "mine".toUTF8) ∧
      ∃ e c', (banner "banner").compile {} ⟨{},0,1,[]⟩ = (.ok e,c') ∧ e.artifacts.Separate := by
  obtain ⟨s,hs⟩ : ∃ s, ofList [("a/b","new".toUTF8),("c","more".toUTF8)] = .ok s :=
    exists_ofList (by simp)
  have hget (p : String) (b : ByteArray) : s.get? p = some b ↔
      (p = "a/b" ∧ b = "new".toUTF8) ∨ (p = "c" ∧ b = "more".toUTF8) := by
    rw [get?_of_ofList hs]
    simp
  have hpaths : ∀ p ∈ s.paths, p = "a/b" ∨ p = "c" := by
    intro p hp
    obtain ⟨b,hb⟩ := exists_of_mem_paths hp
    exact ((hget p b).mp (mem_toList.mp hb)).imp And.left And.left
  have hmem : "a/b" ∈ s.paths :=
    List.mem_map_of_mem (mem_toList.mpr ((hget _ "new".toUTF8).mpr (.inl ⟨rfl,rfl⟩)))
  have hab : names "a/b" = ["a","b"] ∧ temporary "a/b" = ["a",".b.tmp"] := by decide
  have hc : names "c" = ["c"] ∧ temporary "c" = [".c.tmp"] := by decide
  have hseparate : s.Separate := by
    refine ⟨fun p hp => ?_,fun p hp q hq hne => ?_,fun p hp q hq hne => ?_⟩
    · rcases hpaths p hp with rfl | rfl <;> rfl
    all_goals
      rcases hpaths p hp with rfl | rfl <;> rcases hpaths q hq with rfl | rfl <;>
        first | exact absurd rfl hne | decide
  have hzero : ∀ p ∈ s.paths, '\x00' ∉ p.toList := by
    intro p hp
    rcases hpaths p hp with rfl | rfl <;> decide
  have hroot : shelf.Opens ⟨["out"]⟩ ["out"] :=
    .there ⟨by decide,rfl,by rw [entry?_shelf]; rfl⟩
  have hroom : ∀ p ∈ s.paths, shelf.HasRoom ["out"] p := by
    intro p hp
    rcases hpaths p hp with rfl | rfl
    · refine ⟨fun l hl b => ?_,?_,?_⟩
      · have hl : l <+: ["a"] := hl
        obtain rfl | rfl : l = [] ∨ l = ["a"] := by simpa [List.prefix_cons_iff] using hl
        · rw [entry?_shelf]
          simp
        · rw [entry?_shelf]
          simp
      · rw [hab.1,entry?_shelf]
        simp
      · rw [hab.2,entry?_shelf]
        simp
    · refine ⟨fun l hl b => ?_,?_,?_⟩
      · have hl : l <+: [] := hl
        rw [List.prefix_nil.mp hl,entry?_shelf]
        simp
      · rw [hc.1,entry?_shelf]
        simp
      · rw [hc.2,entry?_shelf]
        simp
  obtain ⟨hsets,hcompiled⟩ := arrives_in_directory
  obtain ⟨disk',hrun,hlast,hfirst,hothers,-⟩ := hsets s ⟨["out"]⟩ ["out"] shelf 7 hseparate
    ⟨⟨rfl,rfl⟩,hzero⟩ hroot hroom
  refine ⟨s,disk',hs,hrun,?_,?_,?_,?_⟩
  · exact (hlast "a/b" "new".toUTF8 ((hget _ _).mpr (.inl ⟨rfl,rfl⟩))).2
  · have hleft := hfirst "a/b" hmem
    rwa [hab.2] at hleft
  · refine (hothers _ (fun p hp => ?_) _).mpr (by rw [entry?_shelf]; rfl)
    rcases hpaths p hp with rfl | rfl
    · rw [hab.1,hab.2]
      decide
    · rw [hc.1,hc.2]
      decide
  · obtain ⟨e,c',h⟩ := banner_compiles
    exact ⟨e,c',h,(hcompiled _ _ _ _ _ rfl h).1⟩

end Shelf

end RigPack
