import RigPack.Decimal.Layout
import RigPack.Json.Literal

/-! Data to be written, and its two written forms: on one line, and indented. -/

namespace RigPack

/-- A value of a data file. Numbers stand as they are written. -/
inductive Value
  | null
  | bool (b : Bool)
  | number (text : String)
  | string (s : String)
  | array (items : List Value)
  | object (members : List (String × Value))
  deriving Repr, Inhabited

namespace Value

def ofNat (n : Nat) : Value :=
  .number (toString n)

def ofInt (n : Int) : Value :=
  .number (toString n)

/-- A double. What is no finite number has no written form and becomes null. -/
def ofFloat (x : Float) : Value :=
  if x.isFinite then .number (Decimal.data.text x) else .null

mutual

/-- The value on one line, without blanks. -/
def compact : Value → String
  | .null => "null"
  | .bool true => "true"
  | .bool false => "false"
  | .number text => text
  | .string s => Literal.quote s
  | .array [] => "[]"
  | .array (v :: rest) => "[" ++ v.compact ++ compactItems rest ++ "]"
  | .object [] => "\x7b\x7d"
  | .object ((k, v) :: rest) =>
    "\x7b" ++ Literal.quote k ++ ":" ++ v.compact ++ compactMembers rest ++ "\x7d"

def compactItems : List Value → String
  | [] => ""
  | v :: rest => "," ++ v.compact ++ compactItems rest

def compactMembers : List (String × Value) → String
  | [] => ""
  | (k, v) :: rest => "," ++ Literal.quote k ++ ":" ++ v.compact ++ compactMembers rest

end

/-- A new line at a depth of nesting, two blanks to a level. -/
def newline (depth : Nat) : String :=
  "\n" ++ String.ofList (List.replicate (2 * depth) ' ')

mutual

/-- The value over many lines, an item or a member to a line. -/
def indented (depth : Nat) : Value → String
  | .array (v :: rest) =>
    "[" ++ newline (depth + 1) ++ v.indented (depth + 1) ++ indentedItems (depth + 1) rest
      ++ newline depth ++ "]"
  | .object ((k, v) :: rest) =>
    "\x7b" ++ newline (depth + 1) ++ Literal.quote k ++ ": " ++ v.indented (depth + 1)
      ++ indentedMembers (depth + 1) rest ++ newline depth ++ "\x7d"
  | .null => "null"
  | .bool true => "true"
  | .bool false => "false"
  | .number text => text
  | .string s => Literal.quote s
  | .array [] => "[]"
  | .object [] => "\x7b\x7d"

def indentedItems (depth : Nat) : List Value → String
  | [] => ""
  | v :: rest => "," ++ newline depth ++ v.indented depth ++ indentedItems depth rest

def indentedMembers (depth : Nat) : List (String × Value) → String
  | [] => ""
  | (k, v) :: rest =>
    "," ++ newline depth ++ Literal.quote k ++ ": " ++ v.indented depth
      ++ indentedMembers depth rest

end

/-- The file of a value: indented, with a newline at its end. -/
def file (v : Value) : String :=
  v.indented 0 ++ "\n"

end Value
end RigPack
