import RigPack.Proofs.Program.Words

/-!
The objectives that a line is about, read from the line alone. Those of commands and conditions are
told by their places among the words, and those of a target by the scores that it asks for.
-/

namespace RigPack

open Text

/-- The objectives that the scores of a target are of. -/
def Target.objectives : Target → List String
  | select s => s.scores.map Prod.fst
  | _ => []

def Clause.objectives : Clause → List String
  | asEach target => target.objectives
  | atSelf => []
  | ifScore objective _ => [objective]
  | unlessScore objective _ => [objective]

namespace Directive

variable {N : Type}

/-- The objectives that a directive is about, those of its targets and of its conditions too. -/
def objectives : Directive N → List String
  | blank => []
  | comment _ => []
  | addObjective objective => [objective]
  | setScore target objective _ => objective :: target.objectives
  | addScore target objective _ => objective :: target.objectives
  | operateScore target objective _ source sourceObjective =>
    [objective,sourceObjective] ++ target.objectives ++ source.objectives
  | addTag target _ => target.objectives
  | removeTag target _ => target.objectives
  | summon _ _ _ => []
  | teleport target _ _ _ => target.objectives
  | poseHead target _ _ _ => target.objectives
  | call _ => []
  | schedule _ _ _ => []
  | kill target => target.objectives
  | execute clauses run => clauses.flatMap Clause.objectives ++ run.objectives

end Directive

/-- The objectives of the scores that the text of a target asks for between its braces. -/
def Target.objectivesOfText (text : String) : List String :=
  if text.toList.head? = some '@' then
    match text.toList.dropWhile (· != '\x7b') with
    | [] => []
    | _::rest => ((rest.takeWhile (· != '\x7d')).splitOn ',').map fun score =>
        String.ofList (score.takeWhile (· != '='))
  else []

/-- The objectives that a command is about, by its words. -/
def objectivesOfWords : List String → List String
  | "scoreboard"::"objectives"::"add"::o::_ => [o]
  | "scoreboard"::"players"::"set"::t::o::_ => o::Target.objectivesOfText t
  | "scoreboard"::"players"::"add"::t::o::_ => o::Target.objectivesOfText t
  | "scoreboard"::"players"::"operation"::t::o::_::s::o'::_ =>
    [o,o'] ++ Target.objectivesOfText t ++ Target.objectivesOfText s
  | "tag"::t::_ => Target.objectivesOfText t
  | "tp"::t::_ => Target.objectivesOfText t
  | "data"::"modify"::"entity"::t::_ => Target.objectivesOfText t
  | "kill"::t::_ => Target.objectivesOfText t
  | "execute"::rest => objectivesOfWords rest
  | "as"::t::rest => Target.objectivesOfText t ++ objectivesOfWords rest
  | "at"::_::rest => objectivesOfWords rest
  | "if"::"score"::_::o::_::_::rest => o::objectivesOfWords rest
  | "unless"::"score"::_::o::_::_::rest => o::objectivesOfWords rest
  | "run"::rest => objectivesOfWords rest
  | _ => []

/-- The objectives that the lines of a text are about. -/
def objectivesInText (text : String) : List String :=
  (lines text).flatMap fun line => objectivesOfWords (pieces line)

/-- Joined texts have no characters but their own and the one that joins them. -/
lemma not_mem_intercalate {c d : Char} (hne : c ≠ d) {l : List (List Char)} (h : ∀ s ∈ l, c ∉ s) :
    c ∉ [d].intercalate l := by
  induction l with
  | nil => exact List.not_mem_nil
  | cons s l ih =>
    obtain ⟨hs,hl⟩ := List.forall_mem_cons.mp h
    cases l with
    | nil => rwa [List.intercalate_singleton]
    | cons t l =>
      rw [List.intercalate_cons_cons,List.mem_append,List.mem_append,List.mem_singleton]
      simp [hs,hne,ih hl]

namespace Selector

/-- The text of a score is the objective, then the range behind the only mark of equality. -/
lemma takeWhile_scoreText {p : String × ScoreRange} (h : isName p.1) :
    (scoreText p).toList.takeWhile (· != '=') = p.1.toList := by
  have hname : ∀ c ∈ p.1.toList, (c != '=') = true := by
    intro c hc
    refine bne_iff_ne.mpr ?_
    rintro rfl
    exact absurd ((isName_iff.mp h).2 _ hc) (by decide)
  rw [scoreText,String.toList_append,String.toList_append,List.append_assoc,
    List.takeWhile_append_of_pos hname]
  exact List.append_nil _

/-- Neither a comma nor a brace is in the text of a score. -/
lemma not_mem_scoreText {p : String × ScoreRange} (h : isName p.1) {c : Char}
    (hc : c = ',' ∨ c = '\x7d') : c ∉ (scoreText p).toList := by
  have hwhole {v : Int} : c ∉ (toString v).toList := by
    intro hm
    have := isWholeChar_of_int c hm
    rcases hc with rfl | rfl <;> exact absurd this (by decide)
  have hname : c ∉ p.1.toList := by
    intro hm
    have := (isName_iff.mp h).2 c hm
    rcases hc with rfl | rfl <;> exact absurd this (by decide)
  have hother : c ∉ "=".toList ∧ c ∉ "..".toList := by
    rcases hc with rfl | rfl <;> decide
  obtain ⟨o,range⟩ := p
  cases range <;>
    simp only [scoreText,ScoreRange.text,String.toList_append,List.mem_append,hname,hwhole,hother,
      or_self,not_false_eq_true]

/-- No brace stands before the scores of a selector. -/
lemma brace_not_mem_tags {tags : List String} (h : ∀ t ∈ tags, isName t) :
    '\x7b' ∉ "@e[type=armor_stand".toList ++
      tags.flatMap fun t => ','::"tag=".toList ++ t.toList := by
  rw [List.mem_append,List.mem_flatMap]
  rintro (hm | ⟨t,ht,hm⟩)
  · exact absurd hm (by decide)
  · rcases List.mem_append.mp hm with hm | hm
    · exact absurd hm (by decide)
    · exact absurd ((isName_iff.mp (h t ht)).2 _ hm) (by decide)

/-- The text of a selector with scores, cut at its braces. -/
lemma exists_toList_text_eq {s : Selector} (h : s.Proper) (hne : s.scores ≠ []) :
    ∃ before after, '\x7b' ∉ before ∧ s.text.toList = before ++ '\x7b'::
      ([','].intercalate (s.scores.map fun p => (scoreText p).toList) ++ '\x7d'::after) := by
  refine ⟨("@e[type=armor_stand".toList ++
    s.tags.flatMap fun t => ','::"tag=".toList ++ t.toList) ++ ",scores=".toList,
      (if s.single then ",limit=1" else "").toList ++ "]".toList,?_,?_⟩
  · rw [List.mem_append]
    exact fun hm => hm.elim (brace_not_mem_tags h.1) (by decide)
  · rw [toList_text,ending,toList_scoresText hne]
    simp only [List.append_assoc]
    rfl

lemma objectivesOfText_text {s : Selector} (h : s.Proper) :
    Target.objectivesOfText s.text = s.scores.map Prod.fst := by
  have hhead : s.text.toList.head? = some '@' := by simp [toList_text]
  have hpass {c : Char} {l : List Char} (hl : c ∉ l) : ∀ d ∈ l, (d != c) = true :=
    fun d hd => bne_iff_ne.mpr fun hdc => hl (hdc ▸ hd)
  rw [Target.objectivesOfText,if_pos hhead]
  by_cases hnone : s.scores = []
  · have hending : '\x7b' ∉ s.ending := by
      rw [ending,scoresText,if_pos hnone]
      cases s.single <;> decide
    have hdrop : s.text.toList.dropWhile (· != '\x7b') = [] := by
      rw [toList_text,← List.append_assoc]
      refine List.dropWhile_eq_nil_iff.mpr (hpass fun hm => ?_)
      exact (List.mem_append.mp hm).elim (brace_not_mem_tags h.1) hending
    rw [hdrop,hnone]
    rfl
  · obtain ⟨before,after,hbefore,htext⟩ := exists_toList_text_eq h hnone
    have hdrop : s.text.toList.dropWhile (· != '\x7b') = '\x7b'::
        ([','].intercalate (s.scores.map fun p => (scoreText p).toList) ++ '\x7d'::after) := by
      rw [htext,List.dropWhile_append_of_pos (hpass hbefore)]
      rfl
    have hbrace : '\x7d' ∉ [','].intercalate (s.scores.map fun p => (scoreText p).toList) :=
      not_mem_intercalate (by decide)
        (List.forall_mem_map.mpr fun p hp => not_mem_scoreText (h.2 p hp) (.inr rfl))
    have htake : ([','].intercalate (s.scores.map fun p => (scoreText p).toList) ++
        '\x7d'::after).takeWhile (· != '\x7d') =
          [','].intercalate (s.scores.map fun p => (scoreText p).toList) := by
      rw [List.takeWhile_append_of_pos (hpass hbrace)]
      exact List.append_nil _
    rw [hdrop]
    simp only [htake]
    rw [List.splitOn_intercalate]
    · rw [List.map_map]
      refine List.map_congr_left fun p hp => ?_
      rw [Function.comp_apply,takeWhile_scoreText (h.2 p hp),String.ofList_toList]
    · exact List.forall_mem_map.mpr fun p hp => not_mem_scoreText (h.2 p hp) (.inl rfl)
    · simpa using hnone

end Selector

lemma Target.objectivesOfText_text {t : Target} (h : t.Proper) :
    objectivesOfText t.text = t.objectives := by
  cases t with
  | this => decide
  | holder name =>
    refine if_neg fun hhead => ?_
    exact (head_text h).mp hhead name rfl
  | select s => exact Selector.objectivesOfText_text h

/-- What a condition is about is what its words say. -/
lemma Clause.objectivesOfWords_append {c : Clause} (h : c.Proper) (rest : List String) :
    objectivesOfWords (c.words ++ rest) = c.objectives ++ objectivesOfWords rest := by
  cases c with
  | asEach target => exact congrArg (· ++ _) (Target.objectivesOfText_text h)
  | _ => rfl

lemma Clause.objectivesOfWords_flatMap {clauses : List Clause} (h : ∀ c ∈ clauses, c.Proper)
    (rest : List String) : objectivesOfWords (clauses.flatMap Clause.words ++ rest) =
      clauses.flatMap Clause.objectives ++ objectivesOfWords rest := by
  induction clauses with
  | nil => rfl
  | cons c clauses ih =>
    obtain ⟨hc,hrest⟩ := List.forall_mem_cons.mp h
    rw [List.flatMap_cons,List.append_assoc,objectivesOfWords_append hc,ih hrest,
      List.flatMap_cons,List.append_assoc]

namespace Directive

lemma objectives_map {N M : Type} (f : N → M) (d : Directive N) :
    (d.map f).objectives = d.objectives := by
  induction d with
  | execute clauses run ih => exact congrArg _ ih
  | _ => rfl

/-- A directive is about the objectives that its words say. -/
lemma objectivesOfWords_words {d : Directive String} (h : d.Proper) :
    objectivesOfWords d.words = d.objectives := by
  induction d with
  | setScore target objective value | addScore target objective value =>
    exact congrArg _ (Target.objectivesOfText_text h.1)
  | operateScore target objective operator source sourceObjective =>
    exact congrArg₂ (fun l l' => [objective,sourceObjective] ++ l ++ l')
      (Target.objectivesOfText_text h.1) (Target.objectivesOfText_text h.2.2.1)
  | addTag target tag | removeTag target tag => exact Target.objectivesOfText_text h.1
  | teleport target x y z | poseHead target x y z | kill target =>
    exact Target.objectivesOfText_text h
  | execute clauses run ih =>
    change objectivesOfWords (clauses.flatMap Clause.words ++ "run"::run.words) = _
    rw [Clause.objectivesOfWords_flatMap h.1]
    exact congrArg _ (ih h.2)
  | _ => rfl

end Directive

example : objectivesInText
    "execute as @e[tag=a,scores=\x7bb=3,c=..2\x7d] run scoreboard players set @s d 0\n" =
      ["b","c","d"] := by decide

end RigPack
