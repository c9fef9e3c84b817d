import RigPack.Decimal.Layout
import RigPack.Json.Decoder
import RigPack.Storage.FileTree
import RigPack.Text.RelativePath

/-!
Everything that can go wrong between a rig's file and its pack. A program that has been emitted has
no way to report a fault, so all faults are found here.
-/

namespace RigPack

/-- The kinds of errors, which open their texts. -/
inductive ErrorKind
  | validation
  | config
  | asset
  | serialization
  | io
  /-- A fault that speaks for itself. -/
  | other
  deriving DecidableEq, Repr

/-- The text of an error of a kind. -/
def ErrorKind.describe (kind : ErrorKind) (message : String) : String :=
  match kind with
  | validation => "validation error: " ++ message
  | config => "config error: " ++ message
  | asset => "asset error: " ++ message
  | serialization => "serialization error: " ++ message
  | io => "io error: " ++ message
  | other => message

inductive Error
  -- the clock
  | impossibleDuration (seconds : Float)
  | durationBeyondTicks (seconds : Float)
  -- names and references of a rig
  | entityName (entity : String)
  | textureId (entity id : String)
  | repeatedTexture (entity id : String)
  | repeatedBone (entity uuid : String)
  | partName (entity part : String)
  | repeatedPart (entity part : String)
  | repeatedCustomId (entity : String) (id : UInt32) (first second : String)
  | unknownTexture (entity part side texture : String)
  | animationName (entity animation : String)
  | repeatedAnimation (entity animation : String)
  | animationLength (animation : String)
  | keyframeTime (animation bone : String)
  | keyframePoints (animation bone : String) (seconds : Float)
  /-- A fault in the part of a rig that does not know the rig's name. -/
  | inEntity (entity : String) (cause : Error)
  -- options and the context of a run
  | loopPolicy (entity animation found : String)
  | outputNamespace (found : String)
  | modelItem (found : String)
  | firstCustomId
  | customIdInUse (entity part : String) (id : UInt32)
  | customIdsExhausted
  | framesExhausted
  | reservedName (entity : String)
  -- textures
  | unboundTexture (entity part side texture : String)
  | relativePath (fault : RelativePath.Fault)
  | encodedImage
  | imageScheme
  | unreadableImage (path : String) (fault : DiskFault)
  | textureSource (id : String) (cause : Error)
  | undecodableImage (id : String)
  -- packs and disks
  | conflictingArtifact (path : String)
  | rigSyntax (fault : DecodeFault)
  | unopenableRig (path : String) (fault : DiskFault)
  | outputDirectory (path : String) (fault : DiskFault)
  | directory (path : String) (fault : DiskFault)
  | unwritable (path : String) (fault : DiskFault)
  | unmovable (path : String) (fault : DiskFault)
  deriving Repr

namespace Error

def kind : Error → ErrorKind
  | loopPolicy .. | outputNamespace .. | modelItem .. | firstCustomId | customIdInUse ..
  | reservedName .. => .config
  | encodedImage | imageScheme | unreadableImage .. | textureSource ..
  | undecodableImage .. => .asset
  | rigSyntax .. => .serialization
  | unopenableRig .. | outputDirectory .. | directory .. | unwritable .. | unmovable .. => .io
  | _ => .validation

def quoted (s : String) : String :=
  "'" ++ s ++ "'"

/-- The rule for names, as messages state it. -/
def nameRule : String :=
  " must use only [a-z0-9_.-]"

/-- What an error says after its kind. -/
def detail : Error → String
  | impossibleDuration s =>
    "animation duration must be finite and >= 0, got " ++ plainText s
  | durationBeyondTicks s =>
    "animation duration " ++ plainText s ++ "s exceeds the tick range"
  | entityName e =>
    "entity name " ++ quoted e ++ " must be non-empty and use only [a-z0-9_.-]"
  | textureId e id => "entity " ++ quoted e ++ ": texture id " ++ quoted id ++ nameRule
  | repeatedTexture e id => "entity " ++ quoted e ++ ": duplicate texture id " ++ quoted id
  | repeatedBone e uuid => "entity " ++ quoted e ++ ": duplicate bone uuid " ++ quoted uuid
  | partName e p => "entity " ++ quoted e ++ ": part name " ++ quoted p ++ nameRule
  | repeatedPart e p => "entity " ++ quoted e ++ ": duplicate part name " ++ quoted p
  | repeatedCustomId e id first second =>
    "entity " ++ quoted e ++ ": duplicate custom id " ++ toString id.toNat ++ " on parts "
      ++ quoted first ++ " and " ++ quoted second
  | unknownTexture e p side texture =>
    "entity " ++ quoted e ++ ", part " ++ quoted p ++ ", face " ++ quoted side
      ++ ": unknown texture " ++ quoted texture
  | animationName e a => "entity " ++ quoted e ++ ": animation name " ++ quoted a ++ nameRule
  | repeatedAnimation e a => "entity " ++ quoted e ++ ": duplicate animation name " ++ quoted a
  | animationLength a => "animation " ++ quoted a ++ ": length must be finite and >= 0"
  | keyframeTime a bone =>
    "animation " ++ quoted a ++ ", bone " ++ quoted bone ++ ": keyframe time must be finite"
  | keyframePoints a bone s =>
    "animation " ++ quoted a ++ ", bone " ++ quoted bone ++ ": keyframe at " ++ plainText s
      ++ "s needs one or two data points"
  | inEntity e cause =>
    "entity " ++ quoted e ++ ": " ++ cause.kind.describe cause.detail
  | loopPolicy e a found =>
    "entity " ++ quoted e ++ ", animation " ++ quoted a ++ ": unrecognized loop policy "
      ++ quoted found ++ " (expected once, hold, or loop)"
  | outputNamespace found => "namespace " ++ quoted found ++ " is not a valid resource segment"
  | modelItem found => "model item " ++ quoted found ++ " must be 'namespace:name'"
  | firstCustomId => "first custom id must be >= 1"
  | customIdInUse e p id =>
    "entity " ++ quoted e ++ ", part " ++ quoted p ++ ": custom id " ++ toString id.toNat
      ++ " is already in use"
  | customIdsExhausted => "custom id space exhausted"
  | framesExhausted => "frame id space exhausted"
  | reservedName e => "entity name " ++ quoted e ++ " collides with a reserved tag"
  | unboundTexture e p side texture =>
    "entity " ++ quoted e ++ ", part " ++ quoted p ++ ", face " ++ quoted side ++ ": texture "
      ++ quoted texture ++ " is not bound"
  | relativePath fault => fault.message
  | encodedImage => "invalid base64 data URL: not the canonical form of any bytes"
  | imageScheme => "only data:image/png;base64 URLs are supported"
  | unreadableImage path fault => "read " ++ quoted path ++ ": " ++ fault.message
  | textureSource id cause =>
    "texture " ++ quoted id ++ ": " ++ cause.kind.describe cause.detail
  | undecodableImage id => "texture " ++ quoted id ++ ": decode png: no image of the format"
  | conflictingArtifact path =>
    "artifact " ++ quoted path ++ " produced twice with different content"
  | rigSyntax fault => "parse entity JSON: " ++ fault.message
  | unopenableRig path fault => "open entity JSON " ++ quoted path ++ ": " ++ fault.message
  | outputDirectory path fault => "create output dir " ++ quoted path ++ ": " ++ fault.message
  | directory path fault => "create dir " ++ quoted path ++ ": " ++ fault.message
  | unwritable path fault => "write " ++ quoted path ++ ": " ++ fault.message
  | unmovable path fault => "rename into " ++ quoted path ++ ": " ++ fault.message

def message (e : Error) : String :=
  e.kind.describe e.detail

end Error
end RigPack
