import RigPack.CommandLine.Usage
import RigPack.Output.Directory
import RigPack.Pack.Compile
import RigPack.Pack.Fingerprint

/-! The program as a function of its arguments and the disk. -/

namespace RigPack
namespace CommandLine

/-- What went wrong, and what the program was about when it did. -/
structure Failure where
  context : Option String
  cause : Error

namespace Failure

/-- A text with four blanks before each of its lines. -/
def indented (s : String) : String :=
  String.intercalate "\n" ((s.toList.splitOn '\n').map fun line => "    " ++ String.ofList line)

def text (f : Failure) : String :=
  match f.context with
  | none => "Error: " ++ f.cause.message ++ "\n"
  | some context => "Error: " ++ context ++ "\n\nCaused by:\n" ++ indented f.cause.message ++ "\n"

end Failure

/-- What a run leaves behind. -/
structure Outcome where
  code : Nat
  stdout : String := ""
  stderr : String := ""
  disk : FileTree
  /-- What made the run fail, if it was not the arguments. -/
  failure : Option Failure := none

/-- A result whose error belongs to what the program is about. -/
def about {β : Type} (context : String) : Except Error β → Except Failure β
  | .ok v => .ok v
  | .error cause => .error ⟨some context, cause⟩

def Input.options (i : Input) : Options :=
  let standard : Options := {}
  { space := i.space.getD standard.space
    item := i.item.getD standard.item
    firstCustomId := i.firstCustomId.getD standard.firstCustomId }

/-- The pack of the entity in the input's file. -/
def pack (disk : FileTree) (i : Input) : Except Failure CompiledEntity := do
  let entity ← about ("load entity " ++ Error.quoted i.file)
    (Entity.ofFile disk (DiskPath.ofText i.file))
  match Context.ofOptions i.options with
  | .error cause => .error ⟨none, cause⟩
  | .ok context =>
    about ("compile entity " ++ Error.quoted entity.rig.name)
      ((entity.compile disk).run.run context).1

/-- The files that a command reads, as far as the disk shows them: the rig, and what its textures
come from. -/
def filesRead (disk : FileTree) : Command → List DiskPath
  | .compile i _ | .fingerprint i =>
    let file := DiskPath.ofText i.file
    match Entity.ofFile disk file with
    | .error _ => [file]
    | .ok e => file :: e.rig.textures.filterMap fun t =>
      match TextureSource.reference e.base t.source with
      | .ok (.inr path) => some path
      | _ => none
  | .version | .help _ => []

/-- How much has been compiled. -/
def summary (e : CompiledEntity) : String :=
  "compiled " ++ Error.quoted e.name ++ ": " ++ toString e.leaves.length ++ " parts, "
    ++ toString e.animations.length ++ " animations, "
    ++ toString (e.animations.foldl (fun n a => n + a.frames.length) 0) ++ " ticks\n"

def failed (disk : FileTree) (f : Failure) : Outcome :=
  { code := 1, stderr := f.text, disk, failure := some f }

def runCompile (disk : FileTree) (i : Input) (out : String) : Outcome :=
  match pack disk i with
  | .error f => failed disk f
  | .ok e =>
    let (result, output) :=
      (e.artifacts.emit (directorySink (DiskPath.ofText out))).run.run { disk }
    match about ("write artifacts to " ++ Error.quoted out) result with
    | .error f => failed output.disk f
    | .ok () =>
      { code := 0
        stdout := e.artifacts.fingerprint.text ++ "\n"
        stderr := summary e
          ++ "wrote " ++ toString output.written ++ " artifacts to " ++ out ++ "\n"
        disk := output.disk }

def runFingerprint (disk : FileTree) (i : Input) : Outcome :=
  match pack disk i with
  | .error f => failed disk f
  | .ok e =>
    { code := 0
      stdout := e.artifacts.fingerprint.text ++ " " ++ toString e.artifacts.size ++ "\n"
      disk }

def Command.run (disk : FileTree) : Command → Outcome
  | .version => { code := 0, stdout := versionText, disk }
  | .help none => { code := 0, stdout := usage, disk }
  | .help (some verb) => { code := 0, stdout := verb.usage, disk }
  | .compile i out => runCompile disk i out
  | .fingerprint i => runFingerprint disk i

/-- Runs the program. Arguments that give no command end it with code two. -/
def run (disk : FileTree) (args : List String) : Outcome :=
  match parse? args with
  | none => { code := 2, stderr := usage, disk }
  | some c => c.run disk

end CommandLine
end RigPack
