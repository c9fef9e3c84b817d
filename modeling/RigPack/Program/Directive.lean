import RigPack.Decimal.Rounding
import RigPack.Text.ResourcePath

/-!
Directives of the command language, and their text: one line each. A directive is written over the
type of its pose numbers, which are doubles when it is made and text when it is printed.
-/

namespace RigPack

/-- The scores that a condition admits. -/
inductive ScoreRange
  | exactly (value : Int)
  /-- Both ends belong to the range. -/
  | between (low high : Int)
  deriving DecidableEq, Repr

/-- Which stands are meant: those with all the tags and all the scores, or one of them. -/
structure Selector where
  tags : List String := []
  scores : List (String × ScoreRange) := []
  single : Bool := false
  deriving DecidableEq, Repr

/-- Whom a directive is about. -/
inductive Target
  /-- The stand that runs the program. -/
  | this
  /-- A holder of scores that is no stand. -/
  | holder (name : String)
  | select (selector : Selector)
  deriving DecidableEq, Repr

inductive ScoreOperator
  | assign
  | subtract
  | add
  deriving DecidableEq, Repr

inductive ScheduleMode
  /-- An entry for the same function gets the new time. -/
  | replace
  /-- Entries for the same function stay. -/
  | append
  deriving DecidableEq, Repr

/-- For whom, where, and on what condition a directive runs. -/
inductive Clause
  | asEach (target : Target)
  | atSelf
  | ifScore (objective : String) (range : ScoreRange)
  | unlessScore (objective : String) (range : ScoreRange)
  deriving DecidableEq, Repr

/-- One line of a program. -/
inductive Directive (N : Type)
  | blank
  | comment (text : String)
  | addObjective (objective : String)
  | setScore (target : Target) (objective : String) (value : Int)
  | addScore (target : Target) (objective : String) (value : Int)
  | operateScore (target : Target) (objective : String) (operator : ScoreOperator) (source : Target)
      (sourceObjective : String)
  | addTag (target : Target) (tag : String)
  | removeTag (target : Target) (tag : String)
  /-- A stand that wears an item of which `customId` selects the model. -/
  | summon (tags : List String) (item : String) (customId : UInt32)
  /-- Moves to the place of the one who runs the program, and from there by blocks. -/
  | teleport (target : Target) (x y z : N)
  /-- Turns the head, by degrees. -/
  | poseHead (target : Target) (x y z : N)
  | call (function : ResourcePath)
  | schedule (function : ResourcePath) (ticks : Nat) (mode : ScheduleMode)
  | kill (target : Target)
  | execute (clauses : List Clause) (run : Directive N)
  deriving DecidableEq, Repr

namespace ScoreRange

def text : ScoreRange → String
  | exactly v => toString v
  | between low high => toString low ++ ".." ++ toString high

end ScoreRange

namespace Selector

def scoresText (scores : List (String × ScoreRange)) : String :=
  if scores = [] then ""
  else ",scores=\x7b"
    ++ String.intercalate "," (scores.map fun (objective, range) => objective ++ "=" ++ range.text)
    ++ "\x7d"

def text (s : Selector) : String :=
  "@e[type=armor_stand" ++ String.join (s.tags.map (",tag=" ++ ·)) ++ scoresText s.scores
    ++ (if s.single then ",limit=1" else "") ++ "]"

end Selector

namespace Target

def tagged (tag : String) : Target :=
  .select { tags := [tag] }

def text : Target → String
  | this => "@s"
  | holder name => name
  | select s => s.text

end Target

def ScoreOperator.text : ScoreOperator → String
  | assign => "="
  | subtract => "-="
  | add => "+="

def ScheduleMode.text : ScheduleMode → String
  | replace => "replace"
  | append => "append"

def Clause.text : Clause → String
  | asEach target => "as " ++ target.text
  | atSelf => "at @s"
  | ifScore objective range => "if score @s " ++ objective ++ " matches " ++ range.text
  | unlessScore objective range => "unless score @s " ++ objective ++ " matches " ++ range.text

namespace Directive

variable {N M : Type}

def under (d : Directive N) (clauses : List Clause) : Directive N :=
  .execute clauses d

/-- The directive inside all clauses. -/
def innermost : Directive N → Directive N
  | execute _ run => run.innermost
  | d => d

/-- The same directive with other pose numbers. -/
def map (f : N → M) : Directive N → Directive M
  | blank => .blank
  | comment text => .comment text
  | addObjective objective => .addObjective objective
  | setScore target objective value => .setScore target objective value
  | addScore target objective value => .addScore target objective value
  | operateScore target objective operator source sourceObjective =>
    .operateScore target objective operator source sourceObjective
  | addTag target tag => .addTag target tag
  | removeTag target tag => .removeTag target tag
  | summon tags item customId => .summon tags item customId
  | teleport target x y z => .teleport target (f x) (f y) (f z)
  | poseHead target x y z => .poseHead target (f x) (f y) (f z)
  | call function => .call function
  | schedule function ticks mode => .schedule function ticks mode
  | kill target => .kill target
  | execute clauses run => .execute clauses (run.map f)

/-- The line of a directive whose numbers are text already. -/
def line : Directive String → String
  | blank => ""
  | comment text => "# " ++ text
  | addObjective objective => "scoreboard objectives add " ++ objective ++ " dummy"
  | setScore target objective value =>
    "scoreboard players set " ++ target.text ++ " " ++ objective ++ " " ++ toString value
  | addScore target objective value =>
    "scoreboard players add " ++ target.text ++ " " ++ objective ++ " " ++ toString value
  | operateScore target objective operator source sourceObjective =>
    "scoreboard players operation " ++ target.text ++ " " ++ objective ++ " " ++ operator.text
      ++ " " ++ source.text ++ " " ++ sourceObjective
  | addTag target tag => "tag " ++ target.text ++ " add " ++ tag
  | removeTag target tag => "tag " ++ target.text ++ " remove " ++ tag
  | summon tags item customId =>
    "summon armor_stand ~ ~ ~ \x7bTags:[" ++ String.intercalate "," tags
      ++ "],Marker:1b,Invisible:1b,NoBasePlate:1b,ArmorItems:[\x7b\x7d,\x7b\x7d,\x7b\x7d,\x7bid:\""
      ++ item ++ "\",Count:1b,tag:\x7bCustomModelData:" ++ toString customId.toNat
      ++ "\x7d\x7d]\x7d"
  | teleport target x y z => "tp " ++ target.text ++ " ~" ++ x ++ " ~" ++ y ++ " ~" ++ z ++ " ~ ~"
  | poseHead target x y z =>
    "data modify entity " ++ target.text ++ " Pose.Head set value [" ++ x ++ "f," ++ y ++ "f," ++ z
      ++ "f]"
  | call function => "function " ++ function.text
  | schedule function ticks mode =>
    "schedule function " ++ function.text ++ " " ++ toString ticks ++ "t " ++ mode.text
  | kill target => "kill " ++ target.text
  | execute clauses run =>
    "execute" ++ String.join (clauses.map fun c => " " ++ c.text) ++ " run " ++ run.line

def text (d : Directive Float) : String :=
  (d.map directiveNumber).line

end Directive

/-- The directives of one file. -/
abbrev Program := List (Directive Float)

/-- The file of a program, a line to each directive. -/
def Program.text (p : Program) : String :=
  String.join (p.map fun d => d.text ++ "\n")

end RigPack
