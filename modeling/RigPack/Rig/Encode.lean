import RigPack.Json.Decoder
import RigPack.Rig.Basic

/-! Rigs written as data files, with every field in its place and an absent custom id left out. -/

namespace RigPack
namespace Encode

variable {α : Type} [JsonNumber α]

def vec3 (v : Vec3 α) : Value :=
  .array (v.toList.map JsonNumber.toValue)

def face (f : Face α) : Value :=
  .object [
    ("texture", match f.texture with
      | some id => .string id
      | none => .null),
    ("uv", .array (f.uv.toList.map JsonNumber.toValue))]

def faces (fs : Faces α) : Value :=
  .object (fs.toList.map fun (side, f) => (side.name, face f))

def part (p : Part α) : Value :=
  .object ([
    ("name", .string p.name),
    ("from", vec3 p.low),
    ("to", vec3 p.high),
    ("origin", vec3 p.origin),
    ("rotation", vec3 p.rotation),
    ("faces", faces p.faces)] ++
    match p.customId with
    | some id => [("custom_model_data", Value.ofNat id.toNat)]
    | none => [])

mutual

def node : Node α → Value
  | .part p => .object [("part", part p)]
  | .bone b children => .object [("bone", .object [
      ("uuid", .string b.uuid),
      ("name", .string b.name),
      ("origin", vec3 b.origin),
      ("rotation", vec3 b.rotation),
      ("children", .array (forest children))])]

def forest : List (Node α) → List Value
  | [] => []
  | n :: rest => node n :: forest rest

end

def texture (t : TextureSource) : Value :=
  .object [("id", .string t.id), ("source", .string t.source)]

def keyframe (k : Keyframe α) : Value :=
  .object [
    ("channel", .string k.channel.name),
    ("time", JsonNumber.toValue k.time),
    ("interpolation", .string k.interpolation.name),
    ("data_points", .array (k.points.map vec3))]

def animation (a : Animation α) : Value :=
  .object [
    ("name", .string a.name),
    ("length", JsonNumber.toValue a.length),
    ("loop", .string a.loop),
    ("animators", .object (a.tracks.toList.map fun (bone, keys) =>
      (bone, .array (keys.map keyframe))))]

end Encode

namespace Rig

variable {α : Type} [JsonNumber α]

def toValue (r : Rig α) : Value :=
  .object [
    ("name", .string r.name),
    ("textures", .array (r.textures.map Encode.texture)),
    ("outliner", .array (Encode.forest r.roots)),
    ("animations", .array (r.animations.map Encode.animation))]

def write (r : Rig α) : String :=
  r.toValue.compact

end Rig
end RigPack
