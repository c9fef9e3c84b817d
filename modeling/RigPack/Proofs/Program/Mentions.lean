import RigPack.Proofs.Program.Words

/-!
The programs that a line speaks of, read from the line alone. Conditions are passed over by the
number of words that they have. The words after them say whether the command calls a program or
schedules it, and the next one names the program.
-/

namespace RigPack

/-- How a command speaks of a program: it calls it, or it leaves it to the scheduler. -/
inductive Mention
  | called (name : String)
  | scheduled (name : String)
  deriving DecidableEq, Repr

def Mention.name : Mention → String
  | called name => name
  | scheduled name => name

/-- What the words of a command say of a program, behind all conditions. -/
def Mention.ofWords? : List String → Option Mention
  | "function"::name::_ => some (called name)
  | "schedule"::"function"::name::_ => some (scheduled name)
  | "execute"::rest => ofWords? rest
  | "as"::_::rest => ofWords? rest
  | "at"::_::rest => ofWords? rest
  | "if"::_::_::_::_::_::rest => ofWords? rest
  | "unless"::_::_::_::_::_::rest => ofWords? rest
  | "run"::rest => ofWords? rest
  | _ => none

/-- What the lines of a text say of programs. -/
def Mention.inText (text : String) : List Mention :=
  (lines text).filterMap fun line => ofWords? (pieces line)

namespace Directive

variable {N M : Type}

/-- The function that a directive calls or schedules, inside all its clauses. -/
def named? (d : Directive N) : Option ResourcePath :=
  match d.innermost with
  | call f => some f
  | schedule f _ _ => some f
  | _ => none

/-- What a directive says of a program, inside all its clauses. -/
def mention? (d : Directive N) : Option Mention :=
  match d.innermost with
  | call f => some (.called f.text)
  | schedule f _ _ => some (.scheduled f.text)
  | _ => none

lemma innermost_map (f : N → M) (d : Directive N) : (d.map f).innermost = d.innermost.map f := by
  induction d with
  | execute clauses run ih => exact ih
  | _ => rfl

lemma named?_map (f : N → M) (d : Directive N) : (d.map f).named? = d.named? := by
  rw [named?,named?,innermost_map]
  cases d.innermost <;> rfl

lemma mention?_map (f : N → M) (d : Directive N) : (d.map f).mention? = d.mention? := by
  rw [mention?,mention?,innermost_map]
  cases d.innermost <;> rfl

/-- A directive that says something of a program names it. -/
lemma exists_named?_of_mention? {d : Directive N} {m : Mention} (h : d.mention? = some m) :
    ∃ f, d.named? = some f ∧ m.name = f.text := by
  induction d with
  | call f | schedule f _ _ =>
    cases h
    exact ⟨f,rfl,rfl⟩
  | execute clauses run ih => exact ih h
  | _ => cases h

lemma mention?_eq_called {d : Directive N} {name : String} (h : d.mention? = some (.called name)) :
    ∃ f, d.innermost = .call f ∧ name = f.text := by
  induction d with
  | call f =>
    cases h
    exact ⟨f,rfl,rfl⟩
  | execute clauses run ih => exact ih h
  | _ => cases h

/-- The function that a directive names stands in its line. -/
lemma exists_line_eq {d : Directive String} {f : ResourcePath} (h : d.named? = some f) :
    ∃ before after, d.line =
      before ++ "function " ++ f.space ++ ":" ++ "/".intercalate f.segments ++ after := by
  induction d with
  | call g =>
    cases h
    refine ⟨"","",?_⟩
    change "function " ++ (f.space ++ ":" ++ "/".intercalate f.segments) = _
    simp only [String.append_assoc,String.empty_append,String.append_empty]
  | schedule g ticks mode =>
    cases h
    refine ⟨"schedule "," " ++ toString ticks ++ "t " ++ mode.text,?_⟩
    change "schedule " ++ "function " ++ (f.space ++ ":" ++ "/".intercalate f.segments) ++ " " ++
      toString ticks ++ "t " ++ mode.text = _
    simp only [String.append_assoc]
  | execute clauses run ih =>
    obtain ⟨before,after,hline⟩ := ih h
    refine ⟨"execute" ++ String.join (clauses.map fun c => " " ++ c.text) ++ " run " ++ before,
      after,?_⟩
    change "execute" ++ String.join (clauses.map fun c => " " ++ c.text) ++ " run " ++ run.line = _
    rw [hline]
    simp only [String.append_assoc]
  | _ => cases h

end Directive

namespace Mention

/-- A condition is passed over. -/
lemma ofWords?_condition (c : Clause) (rest : List String) :
    ofWords? (c.words ++ rest) = ofWords? rest := by
  cases c <;> rfl

lemma ofWords?_conditions (clauses : List Clause) (rest : List String) :
    ofWords? (clauses.flatMap Clause.words ++ rest) = ofWords? rest := by
  induction clauses with
  | nil => rfl
  | cons c clauses ih => rw [List.flatMap_cons,List.append_assoc,ofWords?_condition,ih]

/-- The words of a directive say of programs what the directive does. -/
lemma ofWords?_words (d : Directive String) : ofWords? d.words = d.mention? := by
  induction d with
  | execute clauses run ih =>
    change ofWords? (clauses.flatMap Clause.words ++ "run"::run.words) = run.mention?
    rw [ofWords?_conditions]
    exact ih
  | _ => rfl

example : inText "execute as @s at @s run function a:b/c\nschedule function a:d 1t replace\n" =
    [.called "a:b/c",.scheduled "a:d"] := by decide

end Mention

end RigPack
