import RigPack.Main
import RigPack.Rig.Encode
import RigPack.World.Session
import RigPack.Proofs.Except
import RigPack.Proofs.Rig.Validate
import RigPack.Proofs.Skeleton.Sample
import RigPack.Proofs.Texture.Store
import RigPack.Proofs.Part.Exporter
import RigPack.Proofs.Pack.Compiling
import RigPack.Proofs.Pack.Contexts
import RigPack.Proofs.Pack.Compiled
import RigPack.Proofs.Pack.Identities
import RigPack.Proofs.Pack.Loading
import RigPack.Proofs.Pack.Artifacts
import RigPack.Proofs.Pack.Paths
import RigPack.Proofs.Pack.Files
import RigPack.Proofs.Pack.Outcome
import RigPack.Proofs.Pack.Contents
import RigPack.Proofs.Program.Tokens
import RigPack.Proofs.Program.Words
import RigPack.Proofs.Program.Mentions
import RigPack.Proofs.Program.Objectives
import RigPack.Proofs.Pack.Commands
import RigPack.Proofs.Pack.References
import RigPack.Proofs.Pack.Closure
import RigPack.Proofs.World.Stands
import RigPack.Proofs.World.Directives
import RigPack.Proofs.World.Isolation
import RigPack.Proofs.World.Turns
import RigPack.Proofs.World.Bodies
import RigPack.Proofs.World.Instances
import RigPack.Proofs.Session.Population
import RigPack.Proofs.Session.Waiting
import RigPack.Proofs.Session.Acts
import RigPack.Proofs.Session.Invariants
import RigPack.Proofs.Session.Playback
import RigPack.Proofs.Session.Order
import RigPack.Proofs.Numeric.Exact
import RigPack.Proofs.Motion.Insertion
import RigPack.Proofs.Motion.Curve
import RigPack.Proofs.Space.Coordinates
import RigPack.Proofs.Pack.Integers
import RigPack.Proofs.Text.Letters
import RigPack.Proofs.Json.Literal
import RigPack.Proofs.Json.Numeral
import RigPack.Proofs.Json.Draft
import RigPack.Proofs.Json.Decoder
import RigPack.Proofs.Rig.Decode
import RigPack.Proofs.Rig.RoundTrip
import RigPack.Proofs.Rig.Walk
import RigPack.Proofs.Pack.Failures
import RigPack.Proofs.Texture.Distinct
import RigPack.Proofs.Pack.Fingerprint
import RigPack.Proofs.Pack.Insertions
import RigPack.Proofs.Pack.Parts
import RigPack.Proofs.Motion.Values
import RigPack.Proofs.Numeric.Angles
import RigPack.Proofs.Space.Matrices
import RigPack.Proofs.Skeleton.Binding
import RigPack.Proofs.Skeleton.Kinematics
import RigPack.Proofs.Space.Angles
import RigPack.Proofs.Space.Decomposition
import RigPack.Proofs.Action
import RigPack.Proofs.Numeric.Doubles
import RigPack.Proofs.Motion.Sorting
import RigPack.Proofs.Text.RelativePath
import RigPack.Proofs.Storage.Paths
import RigPack.Proofs.Storage.Directories
import RigPack.Proofs.Pack.Separate
import RigPack.Proofs.Output.Directory
