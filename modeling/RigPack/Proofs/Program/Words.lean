import RigPack.Proofs.Decimal.Plain
import RigPack.Proofs.Program.Tokens

/-!
Lines, word by word. A line is its words with blanks between them, and since there are no blanks in
its words, it tells them. The first words of a directive or of a condition tell of which kind it is,
and how many words belong to it, except that a comment goes on to the end of the line.
-/

namespace RigPack

open Text

namespace Directive

variable {N : Type}

/-- Names, items and holders are what they should be, and a comment is one line. -/
def Proper : Directive N → Prop
  | blank => True
  | comment text => '\n' ∉ text.toList
  | addObjective objective => isName objective
  | setScore target objective _ => target.Proper ∧ isName objective
  | addScore target objective _ => target.Proper ∧ isName objective
  | operateScore target objective _ source sourceObjective =>
    target.Proper ∧ isName objective ∧ source.Proper ∧ isName sourceObjective
  | addTag target tag => target.Proper ∧ isName tag
  | removeTag target tag => target.Proper ∧ isName tag
  | summon tags item _ => (∀ t ∈ tags, isName t) ∧ isItem item
  | teleport target _ _ _ => target.Proper
  | poseHead target _ _ _ => target.Proper
  | call function => function.Proper
  | schedule function _ _ => function.Proper
  | kill target => target.Proper
  | execute clauses run => (∀ c ∈ clauses, c.Proper) ∧ run.Proper

/-- What is proper can be checked. -/
def decideProper : (d : Directive N) → Decidable d.Proper
  | blank => inferInstanceAs (Decidable True)
  | comment text => inferInstanceAs (Decidable ('\n' ∉ text.toList))
  | addObjective objective => inferInstanceAs (Decidable (isName objective = true))
  | setScore target objective _ =>
    inferInstanceAs (Decidable (target.Proper ∧ isName objective = true))
  | addScore target objective _ =>
    inferInstanceAs (Decidable (target.Proper ∧ isName objective = true))
  | operateScore target objective _ source sourceObjective =>
    inferInstanceAs (Decidable (target.Proper ∧ isName objective = true ∧ source.Proper ∧
      isName sourceObjective = true))
  | addTag target tag => inferInstanceAs (Decidable (target.Proper ∧ isName tag = true))
  | removeTag target tag => inferInstanceAs (Decidable (target.Proper ∧ isName tag = true))
  | summon tags item _ =>
    inferInstanceAs (Decidable ((∀ t ∈ tags, isName t = true) ∧ isItem item = true))
  | teleport target _ _ _ => inferInstanceAs (Decidable target.Proper)
  | poseHead target _ _ _ => inferInstanceAs (Decidable target.Proper)
  | call function => inferInstanceAs (Decidable function.Proper)
  | schedule function _ _ => inferInstanceAs (Decidable function.Proper)
  | kill target => inferInstanceAs (Decidable target.Proper)
  | execute clauses run =>
    have := decideProper run
    inferInstanceAs (Decidable ((∀ c ∈ clauses, c.Proper) ∧ run.Proper))

instance (d : Directive N) : Decidable d.Proper :=
  decideProper d

/-- The numbers by which a directive moves or turns. -/
def numbers : Directive N → List N
  | teleport _ x y z => [x,y,z]
  | poseHead _ x y z => [x,y,z]
  | execute _ run => run.numbers
  | _ => []

end Directive

/-- Words with a blank before each of them. -/
def spaced (l : List String) : String :=
  String.join (l.map fun w => " " ++ w)

lemma spaced_append (l l' : List String) : spaced (l ++ l') = spaced l ++ spaced l' := by
  rw [spaced,List.map_append,String.join_append]
  rfl

lemma spaced_cons (w : String) (l : List String) : spaced (w::l) = " " ++ w ++ spaced l := by
  rw [spaced,List.map_cons,String.join_cons,← spaced]

lemma spaced_nil : spaced [] = "" := String.join_nil

lemma spaced_eq {l : List String} (h : l ≠ []) : spaced l = " " ++ " ".intercalate l := by
  induction l with
  | nil => exact absurd rfl h
  | cons w l ih =>
    rw [spaced_cons]
    cases l with
    | nil => simp [spaced_nil]
    | cons v l =>
      rw [ih (List.cons_ne_nil _ _),String.intercalate_cons_cons]
      simp only [String.append_assoc]

/-- The lines of a text. -/
def lines (text : String) : List String :=
  (text.toList.splitOn '\n').map String.ofList

/-- The pieces of a text between its blanks. -/
def pieces (text : String) : List String :=
  (text.toList.splitOn ' ').map String.ofList

lemma spaced_pieces (text : String) : spaced (pieces text) = " " ++ text := by
  rw [spaced_eq (by simp [pieces]),← String.toList_inj,String.toList_append,String.toList_append,
    String.toList_intercalate,pieces,List.map_map]
  have hback : String.toList ∘ String.ofList = id := funext fun l => String.toList_ofList
  rw [hback,List.map_id]
  exact congrArg _ (List.intercalate_splitOn ' ')

lemma isWord_pieces {text : String} (h : '\n' ∉ text.toList) : ∀ w ∈ pieces text, isWord w := by
  refine List.forall_mem_map.mpr fun w hw => isWord_iff.mpr ?_
  rw [String.toList_ofList]
  exact ⟨fun hm => (mem_splitOn hw _ hm).2 rfl,fun hm => h (mem_splitOn hw _ hm).1⟩

/-- The words of a condition. -/
def Clause.words : Clause → List String
  | asEach target => ["as",target.text]
  | atSelf => ["at","@s"]
  | ifScore objective range => ["if","score","@s",objective,"matches",range.text]
  | unlessScore objective range => ["unless","score","@s",objective,"matches",range.text]

lemma Clause.spaced_words (c : Clause) : spaced c.words = " " ++ c.text := by
  cases c with
  | asEach target =>
    change spaced ["as",target.text] = " " ++ ("as " ++ target.text)
    simp only [spaced_cons,spaced_nil,String.append_empty,← String.append_assoc]
    rfl
  | atSelf => rfl
  | ifScore objective range =>
    change spaced ["if","score","@s",objective,"matches",range.text] =
      " " ++ ("if score @s " ++ objective ++ (" " ++ "matches" ++ " ") ++ range.text)
    simp only [spaced_cons,spaced_nil,String.append_empty,← String.append_assoc]
    rfl
  | unlessScore objective range =>
    change spaced ["unless","score","@s",objective,"matches",range.text] =
      " " ++ ("unless score @s " ++ objective ++ (" " ++ "matches" ++ " ") ++ range.text)
    simp only [spaced_cons,spaced_nil,String.append_empty,← String.append_assoc]
    rfl

namespace Directive

/-- The words of a line. -/
def words : Directive String → List String
  | blank => [""]
  | comment text => "#"::pieces text
  | addObjective objective => ["scoreboard","objectives","add",objective,"dummy"]
  | setScore target objective value =>
    ["scoreboard","players","set",target.text,objective,toString value]
  | addScore target objective value =>
    ["scoreboard","players","add",target.text,objective,toString value]
  | operateScore target objective operator source sourceObjective =>
    ["scoreboard","players","operation",target.text,objective,operator.text,source.text,
      sourceObjective]
  | addTag target tag => ["tag",target.text,"add",tag]
  | removeTag target tag => ["tag",target.text,"remove",tag]
  | summon tags item customId => ["summon","armor_stand","~","~","~",gear tags item customId]
  | teleport target x y z => ["tp",target.text,"~" ++ x,"~" ++ y,"~" ++ z,"~","~"]
  | poseHead target x y z =>
    ["data","modify","entity",target.text,"Pose.Head","set","value",angles x y z]
  | call function => ["function",function.text]
  | schedule function ticks mode =>
    ["schedule","function",function.text,toString ticks ++ "t",mode.text]
  | kill target => ["kill",target.text]
  | execute clauses run => "execute"::clauses.flatMap Clause.words ++ "run"::run.words

lemma spaced_clauses (clauses : List Clause) : spaced (clauses.flatMap Clause.words) =
    String.join (clauses.map fun c => " " ++ c.text) := by
  induction clauses with
  | nil => exact spaced_nil
  | cons c clauses ih =>
    rw [List.flatMap_cons,spaced_append,ih,c.spaced_words,List.map_cons,String.join_cons]

/-- A line is its words with blanks between them. -/
lemma spaced_words (d : Directive String) : spaced d.words = " " ++ d.line := by
  induction d
  case blank => rfl
  case comment text =>
    change spaced ("#"::pieces text) = " " ++ ("# " ++ text)
    rw [spaced_cons,spaced_pieces,← String.append_assoc,← String.append_assoc]
    rfl
  case execute clauses run ih =>
    change spaced ("execute"::clauses.flatMap Clause.words ++ "run"::run.words) = " " ++
      ("execute" ++ String.join (clauses.map fun c => " " ++ c.text) ++ (" " ++ "run" ++ " ") ++
        run.line)
    rw [List.cons_append,spaced_cons,spaced_append,spaced_clauses,spaced_cons,ih]
    simp only [← String.append_assoc]
  case' addObjective objective =>
    change spaced ["scoreboard","objectives","add",objective,"dummy"] =
      " " ++ ("scoreboard objectives add " ++ objective ++ (" " ++ "dummy"))
  case' setScore target objective value =>
    change spaced ["scoreboard","players","set",target.text,objective,toString value] =
      " " ++ ("scoreboard players set " ++ target.text ++ " " ++ objective ++ " " ++ toString value)
  case' addScore target objective value =>
    change spaced ["scoreboard","players","add",target.text,objective,toString value] =
      " " ++ ("scoreboard players add " ++ target.text ++ " " ++ objective ++ " " ++ toString value)
  case' operateScore target objective operator source sourceObjective =>
    change spaced ["scoreboard","players","operation",target.text,objective,operator.text,
      source.text,sourceObjective] = " " ++ ("scoreboard players operation " ++ target.text ++
        " " ++ objective ++ " " ++ operator.text ++ " " ++ source.text ++ " " ++ sourceObjective)
  case' addTag target tag =>
    change spaced ["tag",target.text,"add",tag] =
      " " ++ ("tag " ++ target.text ++ (" " ++ "add" ++ " ") ++ tag)
  case' removeTag target tag =>
    change spaced ["tag",target.text,"remove",tag] =
      " " ++ ("tag " ++ target.text ++ (" " ++ "remove" ++ " ") ++ tag)
  case' summon tags item customId =>
    change spaced ["summon","armor_stand","~","~","~","\x7bTags:[" ++ String.intercalate "," tags ++
      worn ++ item ++ modelled ++ toString customId.toNat ++ "\x7d\x7d]\x7d"] = " " ++
        ("summon armor_stand ~ ~ ~ \x7bTags:[" ++ String.intercalate "," tags ++ worn ++ item ++
          modelled ++ toString customId.toNat ++ "\x7d\x7d]\x7d")
  case' teleport target x y z =>
    change spaced ["tp",target.text,"~" ++ x,"~" ++ y,"~" ++ z,"~","~"] =
      " " ++ ("tp " ++ target.text ++ (" " ++ "~") ++ x ++ (" " ++ "~") ++ y ++ (" " ++ "~") ++ z ++
        (" " ++ "~" ++ " " ++ "~"))
  case' poseHead target x y z =>
    change spaced ["data","modify","entity",target.text,"Pose.Head","set","value",
      "[" ++ x ++ "f," ++ y ++ "f," ++ z ++ "f]"] = " " ++ ("data modify entity " ++ target.text ++
        (" " ++ "Pose.Head" ++ " " ++ "set" ++ " " ++ "value" ++ " " ++ "[") ++ x ++ "f," ++ y ++
          "f," ++ z ++ "f]")
  case' call function =>
    change spaced ["function",function.text] = " " ++ ("function " ++ function.text)
  case' schedule function ticks mode =>
    change spaced ["schedule","function",function.text,toString ticks ++ "t",mode.text] =
      " " ++ ("schedule function " ++ function.text ++ " " ++ toString ticks ++ ("t" ++ " ") ++
        mode.text)
  case' kill target =>
    change spaced ["kill",target.text] = " " ++ ("kill " ++ target.text)
  all_goals
    simp only [spaced_cons,spaced_nil,String.append_empty,← String.append_assoc]
    rfl

end Directive

lemma pieces_inj {text text' : String} (h : pieces text = pieces text') : text = text' := by
  have h := congrArg spaced h
  rw [spaced_pieces,spaced_pieces,← String.toList_inj,String.toList_append,
    String.toList_append] at h
  exact String.toList_inj.mp (List.append_cancel_left h)

lemma ScoreRange.text_inj {range range' : ScoreRange} (h : range.text = range'.text) :
    range = range' :=
  legible.eq trivial trivial (congrArg String.toList h)

lemma ScoreOperator.text_inj {o o' : ScoreOperator} (h : o.text = o'.text) : o = o' := by
  revert h
  cases o <;> cases o' <;> decide

lemma ScheduleMode.text_inj {m m' : ScheduleMode} (h : m.text = m'.text) : m = m' := by
  revert h
  cases m <;> cases m' <;> decide

namespace Clause

/-- A condition can be told from what follows: its first word tells how many words it has. -/
lemma words_append_inj {c c' : Clause} (hc : c.Proper) (hc' : c'.Proper) {r s : List String}
    (h : c.words ++ r = c'.words ++ s) : c = c' ∧ r = s := by
  cases c <;> cases c' <;>
    simp only [words,List.cons_append,List.nil_append,List.cons.injEq,String.reduceEq,false_and,
      true_and] at h
  case asEach.asEach => exact ⟨congrArg asEach (Target.text_inj hc hc' h.1),h.2⟩
  case atSelf.atSelf => exact ⟨rfl,h⟩
  case ifScore.ifScore | unlessScore.unlessScore =>
    obtain ⟨rfl,hrange,hrs⟩ := h
    obtain rfl := ScoreRange.text_inj hrange
    exact ⟨rfl,hrs⟩

/-- No condition begins with the word that ends the conditions. -/
lemma words_append_ne_run (c : Clause) (l r : List String) : c.words ++ l ≠ "run"::r := by
  cases c <;> simp [words]

/-- All conditions up to that word can be told. -/
lemma flatMap_words_inj {l l' : List Clause} (hl : ∀ c ∈ l, c.Proper) (hl' : ∀ c ∈ l', c.Proper)
    {r s : List String} (h : l.flatMap words ++ "run"::r = l'.flatMap words ++ "run"::s) :
    l = l' ∧ r = s := by
  induction l generalizing l' with
  | nil =>
    cases l' with
    | nil => exact ⟨rfl,List.tail_eq_of_cons_eq h⟩
    | cons c' l' =>
      rw [List.flatMap_cons,List.append_assoc] at h
      exact absurd h.symm (words_append_ne_run _ _ _)
  | cons c l ih =>
    cases l' with
    | nil =>
      rw [List.flatMap_cons,List.append_assoc] at h
      exact absurd h (words_append_ne_run _ _ _)
    | cons c' l' =>
      obtain ⟨hc,hrest⟩ := List.forall_mem_cons.mp hl
      obtain ⟨hc',hrest'⟩ := List.forall_mem_cons.mp hl'
      rw [List.flatMap_cons,List.flatMap_cons,List.append_assoc,List.append_assoc] at h
      obtain ⟨hcc,hwords⟩ := words_append_inj hc hc' h
      obtain ⟨hll,hrs⟩ := ih hrest hrest' hwords
      exact ⟨by rw [hcc,hll],hrs⟩

lemma isWord_words {c : Clause} (h : c.Proper) : ∀ w ∈ c.words, isWord w := by
  cases c with
  | asEach target =>
    exact List.forall_mem_cons.mpr ⟨rfl,List.forall_mem_singleton.mpr (Target.isWord_text h)⟩
  | atSelf => decide
  | ifScore objective range | unlessScore objective range =>
    simp only [words,List.forall_mem_cons,isWord_of_isName h,range.isWord_text]
    decide

end Clause

lemma isWord_of_isNumeral {s : String} (h : isNumeral s) : isWord s :=
  isWord_of_all (List.all_eq_true.mp h) rfl rfl

lemma comma_not_mem {s : String} (h : isNumeral s) : ',' ∉ s.toList := by
  intro hm
  exact absurd (List.all_eq_true.mp h _ hm) (by decide)

namespace Directive

/-- A directive is told by its words. -/
lemma words_inj {d e : Directive String} (hd : d.Proper) (he : e.Proper)
    (hdn : ∀ x ∈ d.numbers, isNumeral x) (hen : ∀ x ∈ e.numbers, isNumeral x)
    (h : d.words = e.words) : d = e := by
  have htilde {x y : String} (h : "~" ++ x = "~" ++ y) : x = y := by
    have h := congrArg String.toList h
    rw [String.toList_append,String.toList_append] at h
    exact String.toList_inj.mp (List.append_cancel_left h)
  have hrepr {n m : Nat} (h : toString n ++ "t" = toString m ++ "t") : n = m := by
    have h := congrArg String.toList h
    rw [String.toList_append,String.toList_append] at h
    exact Nat.repr_inj.mp (String.toList_inj.mp (List.append_cancel_right h))
  induction d generalizing e <;> cases e <;>
    simp only [words,List.cons_append,List.cons.injEq,reduceCtorEq,String.reduceEq,false_and,
      and_false,true_and,and_true] at h
  case blank.blank => rfl
  case comment.comment => rw [pieces_inj h]
  case addObjective.addObjective => rw [h]
  case setScore.setScore | addScore.addScore =>
    obtain ⟨htarget,rfl,hvalue⟩ := h
    rw [Target.text_inj hd.1 he.1 htarget,Int.repr_injective hvalue]
  case operateScore.operateScore =>
    obtain ⟨htarget,rfl,hoperator,hsource,rfl⟩ := h
    rw [Target.text_inj hd.1 he.1 htarget,ScoreOperator.text_inj hoperator,
      Target.text_inj hd.2.2.1 he.2.2.1 hsource]
  case addTag.addTag | removeTag.removeTag =>
    obtain ⟨htarget,rfl⟩ := h
    rw [Target.text_inj hd.1 he.1 htarget]
  case summon.summon =>
    obtain ⟨rfl,rfl,rfl⟩ := gear_inj hd.1 he.1 hd.2 he.2 h
    rfl
  case teleport.teleport =>
    obtain ⟨htarget,hx,hy,hz⟩ := h
    rw [Target.text_inj hd he htarget,htilde hx,htilde hy,htilde hz]
  case poseHead.poseHead =>
    obtain ⟨htarget,hangles⟩ := h
    simp only [numbers,List.forall_mem_cons] at hdn hen
    obtain ⟨rfl,rfl,rfl⟩ := angles_inj (comma_not_mem hdn.1) (comma_not_mem hdn.2.1)
      (comma_not_mem hen.1) (comma_not_mem hen.2.1) hangles
    rw [Target.text_inj hd he htarget]
  case call.call => rw [ResourcePath.text_inj hd he h]
  case schedule.schedule =>
    obtain ⟨hfunction,hticks,hmode⟩ := h
    rw [ResourcePath.text_inj hd he hfunction,hrepr hticks,ScheduleMode.text_inj hmode]
  case kill.kill => rw [Target.text_inj hd he h]
  case execute.execute ih _ _ =>
    obtain ⟨rfl,hrun⟩ := Clause.flatMap_words_inj hd.1 he.1 h
    rw [ih hd.2 he.2 hdn hen hrun]

/-- No blank or line break is in a word of a directive. -/
lemma isWord_words {d : Directive String} (hd : d.Proper) (hn : ∀ x ∈ d.numbers, isNumeral x) :
    ∀ w ∈ d.words, isWord w := by
  have hnat (n : Nat) : isWord (toString n) := isWord_of_all isWholeChar_of_nat rfl rfl
  have hint (v : Int) : isWord (toString v) := isWord_of_all isWholeChar_of_int rfl rfl
  have hnumeral {x : String} (hx : isNumeral x) : isWord ("~" ++ x) := by
    rw [isWord_append,isWord_of_isNumeral hx]
    rfl
  induction d with
  | blank => decide
  | comment text => exact List.forall_mem_cons.mpr ⟨rfl,isWord_pieces hd⟩
  | addObjective objective =>
    simp only [words,List.forall_mem_cons,isWord_of_isName hd]
    decide
  | setScore target objective value | addScore target objective value =>
    simp only [words,List.forall_mem_cons,Target.isWord_text hd.1,isWord_of_isName hd.2,hint]
    decide
  | operateScore target objective operator source sourceObjective =>
    obtain ⟨htarget,hobjective,hsource,hsourceObjective⟩ := hd
    simp only [words,List.forall_mem_cons,Target.isWord_text htarget,isWord_of_isName hobjective,
      Target.isWord_text hsource,isWord_of_isName hsourceObjective]
    cases operator <;> decide
  | addTag target tag | removeTag target tag =>
    simp only [words,List.forall_mem_cons,Target.isWord_text hd.1,isWord_of_isName hd.2]
    decide
  | summon tags item customId =>
    simp only [words,List.forall_mem_cons,isWord_gear hd.1 hd.2]
    decide
  | teleport target x y z =>
    simp only [numbers,List.forall_mem_cons] at hn
    simp only [words,List.forall_mem_cons,Target.isWord_text hd,hnumeral hn.1,hnumeral hn.2.1,
      hnumeral hn.2.2.1]
    decide
  | poseHead target x y z =>
    simp only [numbers,List.forall_mem_cons] at hn
    simp only [words,List.forall_mem_cons,Target.isWord_text hd,
      isWord_angles (isWord_of_isNumeral hn.1) (isWord_of_isNumeral hn.2.1)
        (isWord_of_isNumeral hn.2.2.1)]
    decide
  | call function =>
    simp only [words,List.forall_mem_cons,ResourcePath.isWord_text hd]
    decide
  | schedule function ticks mode =>
    simp only [words,List.forall_mem_cons,ResourcePath.isWord_text hd,isWord_append,hnat]
    cases mode <;> decide
  | kill target =>
    simp only [words,List.forall_mem_cons,Target.isWord_text hd]
    decide
  | execute clauses run ih =>
    have hclauses : ∀ w ∈ clauses.flatMap Clause.words, isWord w := by
      intro w hw
      obtain ⟨c,hc,hw⟩ := List.mem_flatMap.mp hw
      exact Clause.isWord_words (hd.1 c hc) w hw
    exact List.forall_mem_append.mpr ⟨List.forall_mem_cons.mpr ⟨rfl,hclauses⟩,
      List.forall_mem_cons.mpr ⟨rfl,ih hd.2 hn⟩⟩

lemma words_ne_nil (d : Directive String) : d.words ≠ [] := by
  cases d <;> exact List.cons_ne_nil _ _

lemma line_eq_intercalate (d : Directive String) : d.line = " ".intercalate d.words := by
  have h := d.spaced_words
  rw [spaced_eq d.words_ne_nil,← String.toList_inj,String.toList_append,String.toList_append] at h
  exact (String.toList_inj.mp (List.append_cancel_left h)).symm

/-- A line breaks nowhere. -/
lemma break_not_mem_line {d : Directive String} (hd : d.Proper)
    (hn : ∀ x ∈ d.numbers, isNumeral x) : '\n' ∉ d.line.toList := by
  intro hm
  have hspaced : '\n' ∈ (spaced d.words).toList := by
    rw [d.spaced_words,String.toList_append]
    exact List.mem_append_right _ hm
  rw [spaced,String.toList_join] at hspaced
  obtain ⟨v,hv,hm⟩ := List.mem_flatMap.mp hspaced
  obtain ⟨w,hw,rfl⟩ := List.mem_map.mp hv
  rw [String.toList_append] at hm
  rcases List.mem_append.mp hm with hm | hm
  · exact absurd hm (by decide)
  · exact (isWord_iff.mp (isWord_words hd hn w hw)).2 hm

/-- A line tells its words. -/
lemma pieces_line {d : Directive String} (hd : d.Proper) (hn : ∀ x ∈ d.numbers, isNumeral x) :
    pieces d.line = d.words := by
  have hsplit : d.line.toList.splitOn ' ' = d.words.map String.toList := by
    rw [d.line_eq_intercalate,String.toList_intercalate]
    refine List.splitOn_intercalate ' ' ?_ (by simpa using d.words_ne_nil)
    exact List.forall_mem_map.mpr fun w hw => (isWord_iff.mp (isWord_words hd hn w hw)).1
  have hback : String.ofList ∘ String.toList = id := funext fun w => String.ofList_toList
  rw [pieces,hsplit,List.map_map,hback,List.map_id]

/-- A directive is told by its line. -/
theorem line_inj {d e : Directive String} (hd : d.Proper) (he : e.Proper)
    (hdn : ∀ x ∈ d.numbers, isNumeral x) (hen : ∀ x ∈ e.numbers, isNumeral x)
    (h : d.line = e.line) : d = e := by
  refine words_inj hd he hdn hen ?_
  rw [← pieces_line hd hdn,h,pieces_line he hen]

end Directive
end RigPack
