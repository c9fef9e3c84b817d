import RigPack.Decimal.Rounding
import RigPack.Json.Value
import RigPack.Part.Item
import RigPack.Rig.Basic

/-! The static files of parts: a model for each, and the table that selects one by its id. -/

namespace RigPack

/-- A textured side of a model. -/
structure ModelFace where
  /-- A key of the model's textures. -/
  texture : String
  uv : UvRect Float

/-- A box about the center of the place where a worn item is shown. -/
structure Model where
  /-- Resources by key. -/
  textures : Std.ExtTreeMap String String
  low : Vec3 Float
  high : Vec3 Float
  faces : List (Side × ModelFace)

namespace Model

def vec3 (v : Vec3 Float) : Value :=
  .array (v.toList.map Value.ofFloat)

def face (f : ModelFace) : Value :=
  .object [
    ("texture", .string ("#" ++ f.texture)),
    ("uv", .array (f.uv.toList.map Value.ofFloat))]

/-- How every model is worn: turned to the front, raised, and grown to one sixteenth of a block for
each unit. -/
def display : Value :=
  .object [("head", .object [
    ("rotation", vec3 ⟨0, -180, 0⟩),
    ("translation", vec3 ⟨0, 6.5, 0⟩),
    ("scale", vec3 ⟨1.6, 1.6, 1.6⟩)])]

def toValue (m : Model) : Value :=
  .object [
    ("textures", .object (m.textures.toList.map fun (key, path) => (key, .string path))),
    ("elements", .array [.object [
      ("from", vec3 m.low),
      ("to", vec3 m.high),
      ("faces", .object (m.faces.map fun (side, f) => (side.name, face f)))]]),
    ("display", display)]

end Model

/-- The model that an id selects. -/
structure Override where
  customId : UInt32
  model : String
  deriving DecidableEq, Repr

/-- The model of an item, with the models that ids select in its place. -/
structure OverrideTable where
  layer : String
  rows : List Override
  deriving DecidableEq, Repr

namespace OverrideTable

/-- The table of an item, with its rows in the order of their ids. -/
def ofRows (item : String) (rows : List Override) : OverrideTable :=
  ⟨"item/" ++ (splitItem item).2, rows.mergeSort fun a b => a.customId ≤ b.customId⟩

def row (r : Override) : Value :=
  .object [
    ("predicate", .object [("custom_model_data", .ofNat r.customId.toNat)]),
    ("model", .string r.model)]

def toValue (t : OverrideTable) : Value :=
  .object [
    ("parent", .string "item/generated"),
    ("textures", .object [("layer0", .string t.layer)]),
    ("overrides", .array (t.rows.map row))]

end OverrideTable
end RigPack
