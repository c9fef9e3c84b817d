/-! The arguments of the program: a command, then its options in any order, each at most once. -/

namespace RigPack
namespace CommandLine

/-- A whole number with or without a sign, if it fits a word. -/
def wordOf? (s : String) : Option UInt32 :=
  match s.toList with
  | '+' :: digits => (number digits).bind fit
  | '-' :: digits => (number digits).bind fun n => if n = 0 then some 0 else none
  | digits => (number digits).bind fit
where
  number (digits : List Char) : Option Nat :=
    if digits.isEmpty || !digits.all Char.isDigit then none
    else some (digits.foldl (fun n c => 10 * n + (c.toNat - '0'.toNat)) 0)
  fit (n : Nat) : Option UInt32 :=
    if n < UInt32.size then some n.toUInt32 else none

/-- An option. Every option takes one value. -/
structure OptionRule where
  name : String
  /-- What stands for the value where the option is explained. -/
  placeholder : String
  about : String
  required : Bool
  admits : String → Bool

namespace OptionRule

/-- The file of the rig. No path is empty. -/
def file : OptionRule where
  name := "--in"
  placeholder := "IN_PATH"
  about := "Input entity JSON"
  required := true
  admits s := s != ""

def space : OptionRule where
  name := "--namespace"
  placeholder := "NAMESPACE"
  about := "Namespace for programs, models, and textures"
  required := false
  admits _ := true

def item : OptionRule where
  name := "--model-item"
  placeholder := "MODEL_ITEM"
  about := "Item worn by part proxies (`namespace:name`)"
  required := false
  admits _ := true

def firstCustomId : OptionRule where
  name := "--first-custom-id"
  placeholder := "FIRST_CUSTOM_ID"
  about := "First automatically assigned custom id"
  required := false
  admits s := (wordOf? s).isSome

def out : OptionRule where
  name := "--out"
  placeholder := "OUT"
  about := "Output pack directory"
  required := true
  admits s := s != ""

end OptionRule

/-- What the program can be told to do. -/
inductive Verb
  /-- Compile and write the pack. -/
  | compile
  /-- Compile and print the fingerprint alone. -/
  | fingerprint
  deriving DecidableEq, Repr

namespace Verb

def name : Verb → String
  | compile => "compile"
  | fingerprint => "fingerprint"

def all : List Verb :=
  [compile, fingerprint]

def ofName? (s : String) : Option Verb :=
  all.find? fun v => v.name == s

theorem ofName?_name (v : Verb) : ofName? v.name = some v := by
  cases v <;> rfl

def options : Verb → List OptionRule
  | compile => [.file, .space, .item, .firstCustomId, .out]
  | fingerprint => [.file, .space, .item, .firstCustomId]

end Verb

/-- The options that both verbs have. -/
structure Input where
  file : String
  space : Option String
  item : Option String
  firstCustomId : Option UInt32
  deriving DecidableEq, Repr

inductive Command
  | compile (input : Input) (out : String)
  | fingerprint (input : Input)
  | version
  | help (verb : Option Verb)
  deriving DecidableEq, Repr

/-- Options as given, each with its value. -/
abbrev Given := List (String × String)

/-- The options with one more, if there is such an option, the value may be its value, and it was
not given before. -/
def put (rules : List OptionRule) (given : Given) (name value : String) : Option Given :=
  if rules.any (fun r => r.name == name && r.admits value) ∧ (given.lookup name).isNone then
    some ((name, value) :: given)
  else none

/-- Whether an argument could be an option, and so is no value of the option before it. -/
def looksLikeOption (s : String) : Bool :=
  match s.toList with
  | '-' :: _ :: _ => true
  | _ => false

/-- Whether an argument is a switch, by its letter or by its full name. Other letters may follow. -/
def isSwitch (letter : Char) (name s : String) : Bool :=
  s == name || ['-', letter].isPrefixOf s.toList

def asksForHelp (s : String) : Bool :=
  isSwitch 'h' "--help" s

def asksForVersion (s : String) : Bool :=
  isSwitch 'V' "--version" s

/-- The name and the value of an option that holds both. -/
def splitAssignment (s : String) : String × Option String :=
  match s.toList.span (· != '=') with
  | (name, _ :: value) => (String.ofList name, some (String.ofList value))
  | (name, []) => (String.ofList name, none)

/-- What the arguments after a verb say. -/
inductive Reading
  | help
  | options (given : Given)

/-- Goes through the arguments after a verb. Who asks for help gets it if nothing before was wrong.
Two dashes end the options, and nothing may follow them. -/
def read (rules : List OptionRule) (given : Given) : List String → Option Reading
  | [] | ["--"] => some (.options given)
  | arg :: rest =>
    if asksForHelp arg then some .help
    else
      match splitAssignment arg with
      | (name, some value) => do read rules (← put rules given name value) rest
      | (name, none) =>
        match rest with
        | value :: rest =>
          if looksLikeOption value then none
          else do read rules (← put rules given name value) rest
        | [] => none

/-- The command of a verb with these options, if none is missing. -/
def Verb.command? (v : Verb) (given : Given) : Option Command := do
  let value? (r : OptionRule) : Option String := given.lookup r.name
  let input : Input := {
    file := ← value? .file
    space := value? .space
    item := value? .item
    firstCustomId := (value? .firstCustomId).bind wordOf? }
  match v with
  | .compile => return .compile input (← value? .out)
  | .fingerprint => return .fingerprint input

/-- The command that the arguments give, if they give one. -/
def parse? : List String → Option Command
  | [] => none
  | ["help"] => some (.help none)
  | ["help", name] =>
    if name = "help" then some (.help none) else (Verb.ofName? name).map (.help ∘ some)
  | arg :: rest =>
    if asksForHelp arg then some (.help none)
    else if asksForVersion arg then some .version
    else do
      let verb ← Verb.ofName? arg
      match ← read verb.options [] rest with
      | .help => return .help (some verb)
      | .options given => verb.command? given

end CommandLine
end RigPack
