import RigPack.Json.Literal
import RigPack.Json.Numeral

/-!
Data files as they are written. A draft keeps the members of an object in their order, repetitions
included, and ends where its text stops being one of the format. So whoever goes through a draft
from its start meets every fault at the place where a reader of the text would.
-/

namespace RigPack

/-- A text as far as it could be read. -/
inductive Draft
  | null
  | bool (b : Bool)
  | numeral (n : Numeral)
  /-- A string, with its text if it denotes one. -/
  | string (s : Option String)
  | array (items : List Draft)
  | object (members : List (Option String × Draft))
  /-- The place where the text stops being one of the format. It ends all that encloses it. -/
  | cut
  deriving Repr, Inhabited

namespace Draft

/-- What stands at the front of a text, and what follows it unless the text was cut. -/
structure Reading (α : Type) where
  result : α
  rest : Option (List Letter)

/-- The blanks of the format are four. -/
def skipBlanks : List Letter → List Letter
  | some c :: rest =>
    if c = ' ' ∨ c = '\n' ∨ c = '\t' ∨ c = '\r' then skipBlanks rest else some c :: rest
  | rest => rest

/-- What follows a word, if the text starts with it. -/
def afterWord : List Char → List Letter → Option (List Letter)
  | [], rest => some rest
  | w :: word, some c :: rest => if c = w then afterWord word rest else none
  | _ :: _, _ => none

/-- A value that is neither a list nor an object. -/
def scalar : List Letter → Reading Draft
  | some '"' :: rest =>
    match Literal.read rest with
    | some (s, rest) => ⟨.string s, some rest⟩
    | none => ⟨.cut, none⟩
  | some 'n' :: rest => word "ull" .null rest
  | some 't' :: rest => word "rue" (.bool true) rest
  | some 'f' :: rest => word "alse" (.bool false) rest
  | text =>
    match Numeral.read text with
    | some (n, rest) => ⟨.numeral n, some rest⟩
    | none => ⟨.cut, none⟩
where
  word (w : String) (d : Draft) (rest : List Letter) : Reading Draft :=
    match afterWord w.toList rest with
    | some rest => ⟨d, some rest⟩
    | none => ⟨.cut, none⟩

/-- The key of a member and the colon after it. Of a member without a colon the key is kept. -/
def key (text : List Letter) : Reading (Option String) :=
  match text with
  | some '"' :: rest =>
    match Literal.read rest with
    | none => ⟨none, none⟩
    | some (s, rest) =>
      match skipBlanks rest with
      | some ':' :: rest => ⟨s, some rest⟩
      | _ => ⟨s, none⟩
  | _ => ⟨none, none⟩

mutual

/-- The value at the front of a text. The first argument bounds how deep the reader may go. -/
def readValue : Nat → List Letter → Reading Draft
  | 0, _ => ⟨.cut, none⟩
  | n + 1, text =>
    match skipBlanks text with
    | some '[' :: rest =>
      match skipBlanks rest with
      | some ']' :: rest => ⟨.array [], some rest⟩
      | rest =>
        let r := readItems n rest
        ⟨.array r.result, r.rest⟩
    | some '\x7b' :: rest =>
      match skipBlanks rest with
      | some '\x7d' :: rest => ⟨.object [], some rest⟩
      | rest =>
        let r := readMembers n rest
        ⟨.object r.result, r.rest⟩
    | text => scalar text

/-- The items up to the end of a list that has some. -/
def readItems : Nat → List Letter → Reading (List Draft)
  | 0, _ => ⟨[.cut], none⟩
  | n + 1, text =>
    let first := readValue n text
    match first.rest.map skipBlanks with
    | none => ⟨[first.result], none⟩
    | some (some ']' :: rest) => ⟨[first.result], some rest⟩
    | some (some ',' :: rest) =>
      let more := readItems n rest
      ⟨first.result :: more.result, more.rest⟩
    | some _ => ⟨[first.result, .cut], none⟩

/-- The members up to the end of an object that has some. -/
def readMembers : Nat → List Letter → Reading (List (Option String × Draft))
  | 0, _ => ⟨[(none, .cut)], none⟩
  | n + 1, text =>
    let k := key (skipBlanks text)
    match k.rest with
    | none => ⟨[(k.result, .cut)], none⟩
    | some rest =>
      let first := readValue n rest
      match first.rest.map skipBlanks with
      | none => ⟨[(k.result, first.result)], none⟩
      | some (some '\x7d' :: rest) => ⟨[(k.result, first.result)], some rest⟩
      | some (some ',' :: rest) =>
        let more := readMembers n rest
        ⟨(k.result, first.result) :: more.result, more.rest⟩
      | some _ => ⟨[(k.result, first.result), (none, .cut)], none⟩

end

/-- A whole text: its value, and whether nothing but blanks follows it. -/
structure Document where
  root : Draft
  ends : Bool

/-- Every step into a value takes a letter or has taken one just before, so twice the length of the
text bounds the depth of reading. -/
def ofLetters (text : List Letter) : Document :=
  let r := readValue (2 * text.length + 2) text
  ⟨r.result, match r.rest with
    | some rest => (skipBlanks rest).isEmpty
    | none => false⟩

mutual

/-- Whether a draft came to its end. -/
def whole : Draft → Bool
  | .cut => false
  | .array items => wholeItems items
  | .object members => wholeMembers members
  | _ => true

def wholeItems : List Draft → Bool
  | [] => true
  | d :: rest => d.whole && wholeItems rest

def wholeMembers : List (Option String × Draft) → Bool
  | [] => true
  | (_, d) :: rest => d.whole && wholeMembers rest

end

mutual

/-- How many lists and objects enclose the innermost value. -/
def depth : Draft → Nat
  | .array items => depthItems items + 1
  | .object members => depthMembers members + 1
  | _ => 0

def depthItems : List Draft → Nat
  | [] => 0
  | d :: rest => max d.depth (depthItems rest)

def depthMembers : List (Option String × Draft) → Nat
  | [] => 0
  | (_, d) :: rest => max d.depth (depthMembers rest)

end

/-- Puts a member among members that are sorted by key, in place of one with its key. -/
def putSorted (k : Option String) (d : Draft) :
    List (Option String × Draft) → List (Option String × Draft)
  | [] => [(k, d)]
  | (k', d') :: rest =>
    match compare k k' with
    | .lt => (k, d) :: (k', d') :: rest
    | .eq => (k, d) :: rest
    | .gt => (k', d') :: putSorted k d rest

mutual

/-- The same data with the members of every object sorted by key, the last of each key kept. -/
def sorted : Draft → Draft
  | .array items => .array (sortedItems items)
  | .object members => .object (sortedMembers members [])
  | d => d

def sortedItems : List Draft → List Draft
  | [] => []
  | d :: rest => d.sorted :: sortedItems rest

def sortedMembers : List (Option String × Draft) → List (Option String × Draft) →
    List (Option String × Draft)
  | [], done => done
  | (k, d) :: rest, done => sortedMembers rest (putSorted k d.sorted done)

end

end Draft
end RigPack
