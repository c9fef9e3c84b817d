import RigPack.Pack.Artifacts

/-!
Where packs go. A sink is told how many files come, gets each of them in the order of the paths, and
is told that they have come.
-/

namespace RigPack

/-- A receiver of files. -/
structure Sink (m : Type → Type) where
  start : Nat → m Unit
  write : String → ByteArray → m Unit
  finish : m Unit

/-- Sends all files of a set. -/
def ArtifactSet.emit {m : Type → Type} [Monad m] (s : ArtifactSet) (sink : Sink m) : m Unit := do
  sink.start s.size
  s.toList.forM fun (path, bytes) => sink.write path bytes
  sink.finish

/-- What a sink in memory has been sent. -/
structure Received where
  /-- The number of files that was announced. -/
  expected : Option Nat := none
  finished : Bool := false
  /-- In the order in which they came. -/
  files : List (String × ByteArray) := []

/-- A sink that keeps what it is sent. A new start forgets what came before. -/
def memorySink : Sink (StateM Received) where
  start n := set { expected := some n : Received }
  write path bytes := modify fun r => { r with files := r.files ++ [(path, bytes)] }
  finish := modify fun r => { r with finished := true }

end RigPack
