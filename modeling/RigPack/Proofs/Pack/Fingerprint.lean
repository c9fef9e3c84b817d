import Mathlib
import RigPack.Pack.Fingerprint
import RigPack.Proofs.Pack.Artifacts

/-!
The stream that is hashed for a pack can be read in one way only. It opens with the number of files,
and every path and every content stands behind its size, so whatever bytes they hold there is no
second place at which one of them could end.
-/

namespace RigPack

namespace Hash

lemma size_bytesOf64 (w : UInt64) : (bytesOf64 w).size = 8 := by
  simp [bytesOf64,ByteArray.size]

/-- A number is told by its digits to base 256. -/
lemma eq_of_bytes {n v w : Nat} (hv : v < 256^n) (hw : w < 256^n)
    (h : ∀ k < n, v / 256^k % 256 = w / 256^k % 256) : v = w := by
  induction n generalizing v w with
  | zero => omega
  | succ n ih =>
    have hlow := h 0 n.succ_pos
    have hhigh : v / 256 = w / 256 := by
      refine ih (by omega) (by omega) fun k hk => ?_
      simpa only [Nat.div_div_eq_div_mul,← Nat.pow_succ'] using h (k+1) (by omega)
    omega

lemma bytesOf64_injective : Function.Injective bytesOf64 := by
  intro v w h
  refine UInt64.toNat_inj.mp (eq_of_bytes (n:=8) v.toNat_lt w.toNat_lt fun k hk => ?_)
  have hbyte := congrArg (fun b : ByteArray => b.data[k]?) h
  simp only [bytesOf64,Array.getElem?_map,Array.getElem?_range,hk,if_true,Option.map_some,
    Option.some.injEq] at hbyte
  have hdigit := congrArg UInt8.toNat hbyte
  have hshift : 8 * k % 64 = 8 * k := Nat.mod_eq_of_lt (by omega)
  simpa [UInt64.toNat_shiftRight,Nat.shiftRight_eq_div_pow,hshift,Nat.pow_mul] using hdigit

end Hash

namespace ArtifactSet

variable {s s' : ArtifactSet} {a b r r' : ByteArray} {l l' : List (String × ByteArray)}

/-- Bytes in front of which their number can be written. -/
def Framable (b : ByteArray) : Prop :=
  b.size < UInt64.size

instance (b : ByteArray) : Decidable (Framable b) :=
  inferInstanceAs (Decidable (_ < _))

/-- Framed bytes are told from what follows them. -/
lemma framed_append_inj (ha : Framable a) (hb : Framable b) (h : framed a ++ r = framed b ++ r') :
    a = b ∧ r = r' := by
  unfold framed at h
  rw [ByteArray.append_assoc,ByteArray.append_assoc,ByteArray.append_eq_append_iff_of_size_eq_left
    (by rw [Hash.size_bytesOf64,Hash.size_bytesOf64])] at h
  obtain ⟨hword,hrest⟩ := h
  have hsize : a.size = b.size := by
    have hmod := congrArg UInt64.toNat (Hash.bytesOf64_injective hword)
    simpa [Nat.mod_eq_of_lt ha,Nat.mod_eq_of_lt hb] using hmod
  exact (ByteArray.append_eq_append_iff_of_size_eq_left hsize).mp hrest

/-- What a stream says of files after their number. -/
def records : List (String × ByteArray) → ByteArray
  | [] => .empty
  | f::rest => framed f.1.toUTF8 ++ (framed f.2 ++ records rest)

lemma foldl_records (out : ByteArray) (l : List (String × ByteArray)) :
    l.foldl (fun out (path,bytes) => out ++ framed path.toUTF8 ++ framed bytes) out =
      out ++ records l := by
  induction l generalizing out with
  | nil => rw [List.foldl_nil,records,ByteArray.append_empty]
  | cons f l ih =>
    rw [List.foldl_cons,ih,records]
    simp only [ByteArray.append_assoc]

lemma stream_eq (s : ArtifactSet) :
    s.stream = Hash.bytesOf64 s.size.toUInt64 ++ records s.toList :=
  foldl_records _ _

/-- Equally many files are told by what a stream says of them. -/
lemma records_inj (hl : ∀ f ∈ l, Framable f.1.toUTF8 ∧ Framable f.2)
    (hl' : ∀ f ∈ l', Framable f.1.toUTF8 ∧ Framable f.2) (hlength : l.length = l'.length)
    (h : records l = records l') : l = l' := by
  induction l generalizing l' with
  | nil => exact (List.length_eq_zero_iff.mp hlength.symm).symm
  | cons f l ih =>
    obtain _ | ⟨f',l'⟩ := l'
    · cases hlength
    obtain ⟨hf,hl⟩ := List.forall_mem_cons.mp hl
    obtain ⟨hf',hl'⟩ := List.forall_mem_cons.mp hl'
    simp only [records] at h
    obtain ⟨hpath,h⟩ := framed_append_inj hf.1 hf'.1 h
    obtain ⟨hbytes,h⟩ := framed_append_inj hf.2 hf'.2 h
    rw [Prod.ext (String.toByteArray_inj.mp hpath) hbytes,ih hl hl' (Nat.succ.inj hlength) h]

/-- The number of files and all sizes fit a word. -/
structure Framed (s : ArtifactSet) : Prop where
  size : s.size < UInt64.size
  files : ∀ path bytes, s.get? path = some bytes → Framable path.toUTF8 ∧ Framable bytes

/-- A set of files that have been put in one after another. -/
lemma Framed.of_ofList {files : List (String × ByteArray)} (h : ofList files = .ok s)
    (hlength : files.length < UInt64.size)
    (hfiles : ∀ f ∈ files, Framable f.1.toUTF8 ∧ Framable f.2) : s.Framed := by
  have hfile : ∀ path bytes, s.get? path = some bytes → (path,bytes) ∈ files :=
    fun _ _ => (get?_of_ofList h).mp
  refine ⟨?_,fun path bytes hb => hfiles _ (hfile path bytes hb)⟩
  have hsub : s.paths ⊆ files.map Prod.fst := by
    intro path hpath
    obtain ⟨⟨path,bytes⟩,hf,rfl⟩ := List.mem_map.mp hpath
    exact List.mem_map_of_mem (hfile path bytes (mem_toList.mp hf))
  have hle := (s.nodup_paths.subperm hsub).length_le
  rw [length_paths,List.length_map] at hle
  omega

lemma stream_injective (hs : s.Framed) (hs' : s'.Framed) (h : s.stream = s'.stream) : s = s' := by
  rw [stream_eq,stream_eq,ByteArray.append_eq_append_iff_of_size_eq_left
    (by rw [Hash.size_bytesOf64,Hash.size_bytesOf64])] at h
  obtain ⟨hcount,hrecords⟩ := h
  have hsize : s.size = s'.size := by
    have hmod := congrArg UInt64.toNat (Hash.bytesOf64_injective hcount)
    simpa [Nat.mod_eq_of_lt hs.size,Nat.mod_eq_of_lt hs'.size] using hmod
  have hlist : s.toList = s'.toList := by
    refine records_inj (fun f hf => hs.files _ _ (mem_toList.mp hf))
      (fun f hf => hs'.files _ _ (mem_toList.mp hf)) ?_ hrecords
    rwa [toList,toList,Std.ExtTreeMap.length_toList,Std.ExtTreeMap.length_toList]
  obtain ⟨files⟩ := s
  obtain ⟨files'⟩ := s'
  exact congrArg mk (Std.ExtTreeMap.toList_inj.mp hlist)

/-- A pack is told by its stream. So two packs that differ have one fingerprint only if two streams
that differ have one hash. -/
theorem stream_determines (hs : s.Framed) (hs' : s'.Framed) :
    (s.stream = s'.stream ↔ s = s') ∧
    (s ≠ s' → s.fingerprint = s'.fingerprint → s.stream ≠ s'.stream ∧
      Xxh3.hash128 fingerprintSeed s.stream = Xxh3.hash128 fingerprintSeed s'.stream) := by
  refine ⟨⟨stream_injective hs hs',congrArg stream⟩,fun hne h =>
    ⟨fun hstream => hne (stream_injective hs hs' hstream),?_⟩⟩
  simp only [fingerprint,Fingerprint.mk.injEq] at h
  exact Prod.ext h.2 h.1

/-- A byte goes from the content of one file to the path of the next, and the stream is another. -/
theorem moved_byte_told : ∃ s s',
    ofList [("a","b".toUTF8),("c","".toUTF8)] = .ok s ∧
    ofList [("a","".toUTF8),("bc","".toUTF8)] = .ok s' ∧ s.stream ≠ s'.stream := by
  obtain ⟨s,hs⟩ : ∃ s, ofList [("a","b".toUTF8),("c","".toUTF8)] = .ok s := exists_ofList (by simp)
  obtain ⟨s',hs'⟩ : ∃ s, ofList [("a","".toUTF8),("bc","".toUTF8)] = .ok s :=
    exists_ofList (by simp)
  have hframed : s.Framed := .of_ofList hs (by decide) (by decide)
  have hframed' : s'.Framed := .of_ofList hs' (by decide) (by decide)
  refine ⟨s,s',hs,hs',fun h => ?_⟩
  have hget : s.get? "c" = some "".toUTF8 := (get?_of_ofList hs).mpr (by simp)
  rw [(stream_determines hframed hframed').1.mp h] at hget
  simpa using (get?_of_ofList hs').mp hget

end ArtifactSet
end RigPack
