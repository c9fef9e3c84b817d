import RigPack.Numeric.Scalar

/-! Points and displacements in model space, with componentwise arithmetic. -/

namespace RigPack

/-- Three coordinates in model units, or three angles in degrees. -/
structure Vec3 (α : Type) where
  x : α
  y : α
  z : α
  deriving DecidableEq, Repr, Inhabited

namespace Vec3

variable {α β : Type}

def map (f : α → β) (v : Vec3 α) : Vec3 β :=
  ⟨f v.x, f v.y, f v.z⟩

def toList (v : Vec3 α) : List α :=
  [v.x, v.y, v.z]

/-- The vector with these coordinates, if there are exactly three of them. -/
def ofList? : List α → Option (Vec3 α)
  | [x, y, z] => some ⟨x, y, z⟩
  | _ => none

theorem ofList?_eq_some_iff {l : List α} {v : Vec3 α} : ofList? l = some v ↔ l = v.toList := by
  constructor
  · intro h
    match l, h with
    | [x, y, z], h => cases h; rfl
  · rintro rfl
    rfl

variable [Scalar α]

instance : Add (Vec3 α) := ⟨fun a b => ⟨a.x + b.x, a.y + b.y, a.z + b.z⟩⟩
instance : Sub (Vec3 α) := ⟨fun a b => ⟨a.x - b.x, a.y - b.y, a.z - b.z⟩⟩
instance : Neg (Vec3 α) := ⟨fun a => ⟨-a.x, -a.y, -a.z⟩⟩

/-- Every coordinate times `s`, with `s` as the right factor. -/
def scale (v : Vec3 α) (s : α) : Vec3 α :=
  ⟨v.x * s, v.y * s, v.z * s⟩

def zero : Vec3 α :=
  ⟨(0 : Nat), (0 : Nat), (0 : Nat)⟩

/-- The point that divides the way from `a` to `b` at the fraction `s`. -/
def lerp (a b : Vec3 α) (s : α) : Vec3 α :=
  a.scale (((1 : Nat) : α) - s) + b.scale s

end Vec3
end RigPack
