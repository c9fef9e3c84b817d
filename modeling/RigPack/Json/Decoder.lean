import RigPack.Json.Draft
import RigPack.Json.Value

/-!
Typed data taken from drafts. Decoding goes through a draft in the order of its text and stops at
the first fault. Each list and object that it enters takes one unit of room, so nesting is bounded
and decoding of nested data ends with the room.
-/

namespace RigPack

/-- What is wrong with a draft. -/
inductive DecodeFault
  | missingField (name : String)
  | duplicateField (name : String)
  | unknownVariant (found : String) (expected : List String)
  /-- No text of the format, or a value of another kind than the one in its place. -/
  | malformed
  deriving DecidableEq, Repr

namespace DecodeFault

def quoted (s : String) : String :=
  "`" ++ s ++ "`"

/-- A choice put into words. -/
def choice : List String → String
  | [] => "nothing"
  | [a] => quoted a
  | [a, b] => quoted a ++ " or " ++ quoted b
  | names => "one of " ++ String.intercalate ", " (names.map quoted)

def message : DecodeFault → String
  | missingField name => "missing field " ++ quoted name
  | duplicateField name => "duplicate field " ++ quoted name
  | unknownVariant found expected =>
    "unknown variant " ++ quoted found ++ ", expected " ++ choice expected
  | malformed => "malformed data"

end DecodeFault

/-- Numbers that data files can hold. -/
class JsonNumber (α : Type) where
  toValue : α → Value
  ofNumeral? : Numeral → Option α

instance : JsonNumber Float where
  toValue := Value.ofFloat
  ofNumeral? := Numeral.toFloat?

/-- Data taken from a draft with room for so many lists and objects within each other. -/
abbrev Decoder (β : Type) := Nat → Draft → Except DecodeFault β

namespace Decoder

variable {α β γ : Type}

/-- Room for the nesting of a text: a hundred and twenty-seven lists and objects. -/
def textRoom : Nat := 128

/-- Goes into a list or an object. The last unit of room is never given away. -/
def enter (room : Nat) (inside : Nat → Except DecodeFault β) : Except DecodeFault β :=
  match room with
  | n + 2 => inside (n + 1)
  | _ => .error .malformed

def text : Decoder String
  | _, .string (some s) => .ok s
  | _, _ => .error .malformed

def number [JsonNumber α] : Decoder α
  | _, .numeral n =>
    match JsonNumber.ofNumeral? n with
    | some x => .ok x
    | none => .error .malformed
  | _, _ => .error .malformed

def word : Decoder UInt32
  | _, .numeral n =>
    match n.toUInt32? with
    | some x => .ok x
    | none => .error .malformed
  | _, _ => .error .malformed

/-- A value or null. -/
def nullable (d : Decoder β) : Decoder (Option β)
  | _, .null => .ok none
  | room, draft => (d room draft).map some

def list (item : Decoder β) : Decoder (List β)
  | room, .array items => enter room fun room => items.mapM (item room)
  | _, _ => .error .malformed

/-- A list of exactly as many items as `make` takes. -/
def tuple (item : Decoder α) (make : List α → Option β) (room : Nat) (d : Draft) :
    Except DecodeFault β := do
  match make (← list item room d) with
  | some v => .ok v
  | none => .error .malformed

/-- The entries of an object by key. Of entries with one key the last counts. -/
def entries (read : String → Decoder β) (add : γ → String → β → γ) (start : γ) : Decoder γ
  | room, .object members => enter room fun room =>
    members.foldlM (fun done (k, d) =>
      match k with
      | none => .error .malformed
      | some k => do return add done k (← read k room d)) start
  | _, _ => .error .malformed

/-- One of several named kinds. A kind without content may be given by its name alone; any kind may
be given as the one member of an object. Data from a text show their members one after another; with
`countsFirst` they are in memory and a wrong number of members is found before anything else. -/
def variant (countsFirst : Bool) (expected : List String)
    (plain : String → Option (Except DecodeFault β)) (tagged : String → Option (Decoder β)) :
    Decoder β
  | _, .string (some s) => (plain s).getD (.error (.unknownVariant s expected))
  | room, .object members => enter room fun room =>
    if countsFirst && members.length != 1 then .error .malformed
    else match members with
      | (some k, d) :: rest =>
        match tagged k with
        | none => .error (.unknownVariant k expected)
        | some read => do
          let v ← read room d
          if rest.isEmpty then .ok v else .error .malformed
      | _ => .error .malformed
  | _, _ => .error .malformed

/-- One of several kinds without content. -/
def kind (countsFirst : Bool) (expected : List String) (ofName : String → Option β) : Decoder β :=
  variant countsFirst expected (fun s => (ofName s).map .ok) fun s =>
    (ofName s).map fun v _ d =>
      match d with
      | .null => .ok v
      | _ => .error .malformed

/-- The fields of a record as far as they were given. -/
structure Fields {F : Type} (T : F → Type) where
  get? : (f : F) → Option (T f)
  /-- Whether they were given by name and not by position. -/
  named : Bool

namespace Fields

variable {F : Type} {T : F → Type}

def set [DecidableEq F] (r : Fields T) (f : F) (v : T f) : Fields T :=
  { r with get? := fun g => if h : g = f then some (h ▸ v) else r.get? g }

/-- The value of a field that must be given. -/
def require (r : Fields T) (name : F → String) (f : F) : Except DecodeFault (T f) :=
  match r.get? f with
  | some v => .ok v
  | none => .error (if r.named then .missingField (name f) else .malformed)

end Fields

section Record

variable {F : Type} [DecidableEq F] {T : F → Type} (fields : List F) (name : F → String)
  (field : (f : F) → Decoder (T f))

/-- Fields by name. Members with other names are passed over, as far as they are of the format. -/
def named (room : Nat) : List (Option String × Draft) → Fields T → Except DecodeFault (Fields T)
  | [], r => .ok r
  | (none, _) :: _, _ => .error .malformed
  | (some k, d) :: rest, r =>
    match fields.find? fun f => name f == k with
    | none => if d.whole then named room rest r else .error .malformed
    | some f =>
      if (r.get? f).isSome then .error (.duplicateField k)
      else do named room rest (r.set f (← field f room d))

/-- Fields by position. The last ones may be left out. -/
def listed (room : Nat) : List F → List Draft → Fields T → Except DecodeFault (Fields T)
  | _, [], r => .ok r
  | [], _ :: _, _ => .error .malformed
  | f :: fs, d :: ds, r => do listed room fs ds (r.set f (← field f room d))

/-- The fields of a record, given by name or in their order. -/
def record : Decoder (Fields T)
  | room, .object members => enter room fun room =>
    named fields name field room members ⟨fun _ => none, true⟩
  | room, .array items => enter room fun room =>
    listed field room fields items ⟨fun _ => none, false⟩
  | _, _ => .error .malformed

end Record

end Decoder
end RigPack
