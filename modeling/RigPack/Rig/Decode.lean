import RigPack.Json.Decoder
import RigPack.Rig.Basic

/-!
Rigs read from data files. A record is decoded field by field in the order of its text; each kind of
record lists its fields in the order in which they may also be given by position.
-/

namespace RigPack
namespace Decode

variable {α : Type} [Scalar α] [JsonNumber α]

def vec3 : Decoder (Vec3 α) :=
  .tuple .number Vec3.ofList?

def uvRect : Decoder (UvRect α) :=
  .tuple .number UvRect.ofList?

inductive TextureField
  | id
  | source
  deriving DecidableEq

namespace TextureField

def name : TextureField → String
  | id => "id"
  | source => "source"

abbrev Content : TextureField → Type
  | id => String
  | source => String

end TextureField

def texture : Decoder TextureSource := fun room d => do
  let r ← Decoder.record [.id, .source] TextureField.name (T := TextureField.Content)
    (fun
      | .id => .text
      | .source => .text) room d
  return {
    id := ← r.require TextureField.name .id
    source := ← r.require TextureField.name .source }

inductive FaceField
  | texture
  | uv
  deriving DecidableEq

namespace FaceField

def name : FaceField → String
  | texture => "texture"
  | uv => "uv"

abbrev Content (α : Type) : FaceField → Type
  | texture => Option String
  | uv => UvRect α

end FaceField

def face : Decoder (Face α) := fun room d => do
  let r ← Decoder.record [.texture, .uv] FaceField.name (T := FaceField.Content α)
    (fun
      | .texture => .nullable .text
      | .uv => uvRect) room d
  return {
    texture := (r.get? .texture).join
    uv := ← r.require FaceField.name .uv }

def side (key : String) : Except DecodeFault Side :=
  match Side.ofName? key with
  | some s => .ok s
  | none => .error (.unknownVariant key (Side.all.map Side.name))

def faces : Decoder (Faces α) :=
  Decoder.entries
    (fun key room d => do
      let s ← side key
      return (s, ← face room d))
    (fun done _ (s, f) => done.set s f) {}

inductive PartField
  | name
  | low
  | high
  | origin
  | rotation
  | faces
  | customId
  deriving DecidableEq

namespace PartField

def text : PartField → String
  | name => "name"
  | low => "from"
  | high => "to"
  | origin => "origin"
  | rotation => "rotation"
  | faces => "faces"
  | customId => "custom_model_data"

abbrev Content (α : Type) : PartField → Type
  | name => String
  | low | high | origin | rotation => Vec3 α
  | faces => Faces α
  | customId => Option UInt32

end PartField

def part : Decoder (Part α) := fun room d => do
  let r ← Decoder.record [.name, .low, .high, .origin, .rotation, .faces, .customId] PartField.text
    (T := PartField.Content α)
    (fun
      | .name => .text
      | .low => vec3
      | .high => vec3
      | .origin => vec3
      | .rotation => vec3
      | .faces => faces
      | .customId => .nullable .word) room d
  return {
    name := ← r.require PartField.text .name
    low := ← r.require PartField.text .low
    high := ← r.require PartField.text .high
    origin := ← r.require PartField.text .origin
    rotation := (r.get? .rotation).getD .zero
    faces := (r.get? .faces).getD {}
    customId := (r.get? .customId).join }

inductive BoneField
  | uuid
  | name
  | origin
  | rotation
  | children
  deriving DecidableEq

namespace BoneField

def text : BoneField → String
  | uuid => "uuid"
  | name => "name"
  | origin => "origin"
  | rotation => "rotation"
  | children => "children"

abbrev Content (α : Type) : BoneField → Type
  | uuid | name => String
  | origin | rotation => Vec3 α
  | children => List (Node α)

end BoneField

/-- A bone with its children, of which one is read by `child`. -/
def bone (child : Draft → Except DecodeFault (Node α)) : Decoder (Node α) := fun room d => do
  let r ← Decoder.record [.uuid, .name, .origin, .rotation, .children] BoneField.text
    (T := BoneField.Content α)
    (fun
      | .uuid => .text
      | .name => .text
      | .origin => vec3
      | .rotation => vec3
      | .children => .list fun _ => child) room d
  return .bone {
    uuid := ← r.require BoneField.text .uuid
    name := (r.get? .name).getD ""
    origin := ← r.require BoneField.text .origin
    rotation := (r.get? .rotation).getD .zero }
    ((r.get? .children).getD [])

/-- A node whose children are read by `child`. -/
def nodeOver (countsFirst : Bool) (child : Draft → Except DecodeFault (Node α)) :
    Decoder (Node α) :=
  Decoder.variant countsFirst ["bone", "part"]
    (fun
      | "bone" | "part" => some (.error .malformed)
      | _ => none)
    (fun
      | "bone" => some (bone child)
      | "part" => some fun room d => do return .part (← part room d)
      | _ => none)

/-- A node of the hierarchy. Between a bone and its child stand three steps: into the bone's tag,
into its record, and into the list of its children. With less room than that there are no children.
-/
def node (countsFirst : Bool) : Decoder (Node α)
  | room + 3 => nodeOver countsFirst (node countsFirst room) (room + 3)
  | room => nodeOver countsFirst (fun _ => .error .malformed) room

def forest (countsFirst : Bool) : Decoder (List (Node α)) :=
  .list (node countsFirst)

def interpolation (countsFirst : Bool) : Decoder Interpolation :=
  .kind countsFirst Interpolation.names Interpolation.ofName?

/-- Every name is the name of a channel, if only of an unsupported one. -/
def channel (countsFirst : Bool) : Decoder Channel :=
  .kind countsFirst [] fun s => some (Channel.ofName s)

inductive KeyframeField
  | channel
  | time
  | interpolation
  | points
  deriving DecidableEq

namespace KeyframeField

def name : KeyframeField → String
  | channel => "channel"
  | time => "time"
  | interpolation => "interpolation"
  | points => "data_points"

abbrev Content (α : Type) : KeyframeField → Type
  | channel => Channel
  | time => α
  | interpolation => Interpolation
  | points => List (Vec3 α)

end KeyframeField

def keyframe (countsFirst : Bool) : Decoder (Keyframe α) := fun room d => do
  let r ← Decoder.record [.channel, .time, .interpolation, .points] KeyframeField.name
    (T := KeyframeField.Content α)
    (fun
      | .channel => channel countsFirst
      | .time => .number
      | .interpolation => interpolation countsFirst
      | .points => .list vec3) room d
  return {
    channel := ← r.require KeyframeField.name .channel
    time := ← r.require KeyframeField.name .time
    interpolation := (r.get? .interpolation).getD .linear
    points := ← r.require KeyframeField.name .points }

def tracks (countsFirst : Bool) : Decoder (Tracks α) :=
  Decoder.entries (fun _ => .list (keyframe countsFirst))
    (fun done bone keys => done.insert bone keys) ∅

inductive AnimationField
  | name
  | length
  | loop
  | tracks
  deriving DecidableEq

namespace AnimationField

def text : AnimationField → String
  | name => "name"
  | length => "length"
  | loop => "loop"
  | tracks => "animators"

abbrev Content (α : Type) : AnimationField → Type
  | name | loop => String
  | length => α
  | tracks => Tracks α

end AnimationField

/-- The loop policy of an animation that names none. -/
def defaultLoop : String := "once"

def animation (countsFirst : Bool) : Decoder (Animation α) := fun room d => do
  let r ← Decoder.record [.name, .length, .loop, .tracks] AnimationField.text
    (T := AnimationField.Content α)
    (fun
      | .name => .text
      | .length => .number
      | .loop => .text
      | .tracks => tracks countsFirst) room d
  return {
    name := ← r.require AnimationField.text .name
    length := ← r.require AnimationField.text .length
    loop := (r.get? .loop).getD defaultLoop
    tracks := (r.get? .tracks).getD ∅ }

inductive RigField
  | name
  | textures
  | roots
  | animations
  deriving DecidableEq

namespace RigField

def text : RigField → String
  | name => "name"
  | textures => "textures"
  | roots => "outliner"
  | animations => "animations"

abbrev Content (α : Type) : RigField → Type
  | name => String
  | textures => List TextureSource
  | roots => List (Node α)
  | animations => List (Animation α)

end RigField

def rig (countsFirst : Bool) : Decoder (Rig α) := fun room d => do
  let r ← Decoder.record [.name, .textures, .roots, .animations] RigField.text
    (T := RigField.Content α)
    (fun
      | .name => .text
      | .textures => .list texture
      | .roots => forest countsFirst
      | .animations => .list (animation countsFirst)) room d
  return {
    name := ← r.require RigField.text .name
    textures := (r.get? .textures).getD []
    roots := ← r.require RigField.text .roots
    animations := (r.get? .animations).getD [] }

end Decode

namespace Rig

variable {α : Type} [Scalar α] [JsonNumber α]

/-- The rig that a text describes. Nothing but blanks may follow its description. -/
def read (text : List Letter) : Except DecodeFault (Rig α) := do
  let document := Draft.ofLetters text
  let rig ← Decode.rig false Decoder.textRoom document.root
  if document.ends then .ok rig else .error .malformed

end Rig
end RigPack
