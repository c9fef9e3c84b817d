import RigPack.Error
import RigPack.Json.Decoder
import RigPack.Part.Item
import RigPack.Text.Segment

/-! What a user may choose about a pack. -/

namespace RigPack

structure Options where
  /-- The namespace of all programs, models and textures. -/
  space : String := "cmdent"
  /-- The item that proxies wear. -/
  item : String := "minecraft:white_dye"
  /-- The least id that a part gets without having chosen one. -/
  firstCustomId : UInt32 := 1
  deriving DecidableEq, Repr

namespace Options

def validate (o : Options) : Except Error Unit :=
  let (itemSpace, itemName) := splitItem o.item
  if !isSegment o.space then .error (.outputNamespace o.space)
  else if !isSegment itemSpace || !isSegment itemName then .error (.modelItem o.item)
  else if o.firstCustomId = 0 then .error .firstCustomId
  else .ok ()

inductive Field
  | space
  | item
  | firstCustomId
  deriving DecidableEq

namespace Field

def name : Field → String
  | space => "namespace"
  | item => "model_item"
  | firstCustomId => "first_custom_id"

abbrev Content : Field → Type
  | space | item => String
  | firstCustomId => UInt32

end Field

/-- Options from data. What is not given keeps its default. -/
def decode : Decoder Options := fun room d => do
  let r ← Decoder.record [.space, .item, .firstCustomId] Field.name (T := Field.Content)
    (fun
      | .space => .text
      | .item => .text
      | .firstCustomId => .word) room d
  let standard : Options := {}
  return {
    space := (r.get? .space).getD standard.space
    item := (r.get? .item).getD standard.item
    firstCustomId := (r.get? .firstCustomId).getD standard.firstCustomId }

def toValue (o : Options) : Value :=
  .object [
    ("namespace", .string o.space),
    ("model_item", .string o.item),
    ("first_custom_id", .ofNat o.firstCustomId.toNat)]

end Options
end RigPack
