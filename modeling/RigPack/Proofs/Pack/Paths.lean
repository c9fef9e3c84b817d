import Mathlib
import RigPack.Proofs.Pack.Loading

/-!
Where the files of an entity stand in a pack. Names have no slash, so the text of a path tells its
segments, and only one file may meet another: the table of overrides stands among the models.
-/

namespace RigPack

lemma slash_not_mem {s : String} (h : isSegment s) : '/' ∉ s.toList := by
  intro hm
  exact absurd ((isSegment_iff.mp h).2.1 _ hm) (by decide)

lemma slash_not_mem_toDigits (n : Nat) : '/' ∉ Nat.toDigits 10 n := by
  intro hm
  have hdigit : Char.isDigit '/' := Nat.isDigit_of_mem_toDigits (by decide) (by decide) hm
  exact absurd hdigit (by decide)

namespace ResourcePath

variable {p q : ResourcePath} {part kind extension : String}

lemma toList_path (p : ResourcePath) :
    p.path.toList = ['/'].intercalate (p.segments.map String.toList) :=
  String.toList_intercalate

/-- Segments without slashes can be told from their path. -/
lemma segments_eq_of_path (hp : ∀ s ∈ p.segments, '/' ∉ s.toList)
    (hq : ∀ s ∈ q.segments, '/' ∉ s.toList) (hp' : p.segments ≠ []) (hq' : q.segments ≠ [])
    (h : p.path = q.path) : p.segments = q.segments := by
  have h := congrArg (fun s => s.toList.splitOn '/') h
  simp only [toList_path] at h
  rw [List.splitOn_intercalate,List.splitOn_intercalate] at h
  · exact List.map_injective_iff.mpr (fun _ _ => String.toList_inj.mp) h
  all_goals simpa

/-- Among the files of one kind and one namespace the path tells them apart. -/
lemma path_eq_of_fileIn (hspace : p.space = q.space)
    (h : p.fileIn part kind extension = q.fileIn part kind extension) : p.path = q.path := by
  simpa [fileIn,hspace,← String.toList_inj] using h

/-- How a resource two levels down is referred to. -/
lemma text_child_child (space directory name : String) :
    (((root space).child directory).child name).text =
      space ++ ":" ++ directory ++ "/" ++ name := by
  simp [text,path,root,child,← String.toList_inj]

/-- The file of a resource, as a path of its own. -/
lemma fileIn_child_child (space directory name part kind extension : String) :
    (((root space).child directory).child name).fileIn part kind extension =
      path ⟨space,[part,space,kind,directory,name ++ "." ++ extension]⟩ := by
  simp [fileIn,path,root,child,← String.toList_inj]

lemma name_eq_of_fileIn {space directory name other : String}
    (h : (((root space).child directory).child name).fileIn part kind extension =
      (((root space).child directory).child other).fileIn part kind extension) : name = other := by
  rw [fileIn_child_child,fileIn_child_child] at h
  simpa [path,← String.toList_inj] using h

end ResourcePath

/-- Where the file of a program stands. -/
lemma Compile.functionFile_eq (f : ResourcePath) : functionFile f =
    "data/" ++ f.space ++ "/functions/" ++ "/".intercalate f.segments ++ ".mcfunction" := by
  simp [functionFile,ResourcePath.fileIn,ResourcePath.path,← String.toList_inj]

/-- What a file of a pack is for. -/
inductive Article
  | program (role : Role)
  | model (part : String)
  | texture (id : String)
  /-- The overrides of the item that proxies wear. -/
  | table
  deriving DecidableEq, Repr

namespace Article

/-- Where an entity's file stands in a pack. -/
def file (x : Exporter) : Article → String
  | program role => Compile.functionFile ((Functions.ofEntity x.space x.entity).path role)
  | model part => Compile.modelFile (((ResourcePath.root x.space).child x.entity).child part)
  | texture id => Compile.textureFile (x.texturePath id)
  | table => Compile.modelFile (Compile.itemPath x.item)

/-- The names by which a file is called have no slash. -/
def Plain : Article → Prop
  | program role => ∀ s ∈ role.segments, '/' ∉ s.toList
  | _ => True

variable {x : Exporter} {a b : Article} {part : String}

/-- A model stands in the place of the table only for a part of an entity called `item`. -/
lemma file_model_eq_table (hspace : '/' ∉ x.space.toList) (hentity : '/' ∉ x.entity.toList)
    (hpart : '/' ∉ part.toList) (hitem : '/' ∉ (splitItem x.item).1.toList)
    (hname : '/' ∉ (splitItem x.item).2.toList) : (model part).file x = table.file x ↔
      x.space = (splitItem x.item).1 ∧ x.entity = "item" ∧ part = (splitItem x.item).2 := by
  constructor
  · intro h
    simp only [file,Compile.modelFile,Compile.itemPath,ResourcePath.fileIn_child_child] at h
    have h := ResourcePath.segments_eq_of_path (by simp [hspace,hentity,hpart])
      (by simp [hitem,hname]) (by simp) (by simp) h
    simpa using h
  · rintro ⟨hs,he,hn⟩
    simp only [file,Compile.itemPath,hs,he,hn]

/-- All other files are told apart by what they are for. -/
lemma file_inj (hentity : '/' ∉ x.entity.toList) (ha : a.Plain) (hb : b.Plain)
    (hat : a ≠ table) (hbt : b ≠ table) (h : a.file x = b.file x) : a = b := by
  cases a <;> cases b
  case table.table => rfl
  case program.program r q =>
    have h := ResourcePath.path_eq_of_fileIn (by cases r <;> cases q <;> rfl) h
    have h := ResourcePath.segments_eq_of_path
      (by simpa [Functions.segments_path,hentity,Plain] using ha)
      (by simpa [Functions.segments_path,hentity,Plain] using hb)
      (by simp [Functions.segments_path]) (by simp [Functions.segments_path]) h
    rw [Functions.segments_path,Functions.segments_path,List.cons.injEq] at h
    rw [Role.segments_injective h.2]
  case model.model => rw [ResourcePath.name_eq_of_fileIn h]
  case texture.texture => rw [ResourcePath.name_eq_of_fileIn h]
  case model.texture | texture.model =>
    -- They end in different letters.
    have h := congrArg (fun s => s.toList.reverse.head?) h
    simp [file,Compile.modelFile,Compile.textureFile,ResourcePath.fileIn] at h
  case program.model | program.texture | model.program | texture.program =>
    -- They begin with different letters.
    have h := congrArg (fun s => s.toList.head?) h
    simp [file,Compile.functionFile,Compile.modelFile,Compile.textureFile,ResourcePath.fileIn] at h
  all_goals first | exact absurd rfl hat | exact absurd rfl hbt

/-- Only models stand among the files of the kind that the table is of. -/
lemma exists_model_of_file_eq_table (h : a.file x = table.file x) (ha : a ≠ table) :
    ∃ part, a = model part := by
  cases a with
  | table => exact absurd rfl ha
  | model part => exact ⟨part,rfl⟩
  | program role =>
    have h := congrArg (fun s => s.toList.head?) h
    simp [file,Compile.functionFile,Compile.modelFile,ResourcePath.fileIn] at h
  | texture id =>
    have h := congrArg (fun s => s.toList.reverse.head?) h
    simp [file,Compile.textureFile,Compile.modelFile,ResourcePath.fileIn] at h

end Article

end RigPack
