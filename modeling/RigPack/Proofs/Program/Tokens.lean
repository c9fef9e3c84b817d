import RigPack.Program.Directive
import RigPack.Proofs.Text.Legible
import RigPack.Text.Blank

/-!
The words of directives that are put together of names: selectors, paths, the gear of a stand, and
angles. In none of them there is a blank, and all that goes into a word can be told from it.
-/

namespace RigPack

open Text

/-- Whether a text is made of characters of names and colons, and is not empty. -/
def isItem (s : String) : Bool :=
  s != "" && s.toList.all fun c => isSegmentChar c || c = ':'

/-- Whether a text may hold scores beside stands: it has no white space and does not look like a
selector. -/
def isHolder (s : String) : Bool :=
  s != "" && s.toList.all (fun c => !isBlank c) && s.toList.head? != some '@'

def ResourcePath.Proper (p : ResourcePath) : Prop :=
  isName p.space ∧ ∀ s ∈ p.segments, isName s

instance (p : ResourcePath) : Decidable p.Proper :=
  inferInstanceAs (Decidable (_ ∧ _))

def Selector.Proper (s : Selector) : Prop :=
  (∀ t ∈ s.tags, isName t) ∧ ∀ p ∈ s.scores, isName p.1

instance (s : Selector) : Decidable s.Proper :=
  inferInstanceAs (Decidable (_ ∧ _))

def Target.Proper : Target → Prop
  | this => True
  | holder name => isHolder name
  | select s => s.Proper

instance : (t : Target) → Decidable t.Proper
  | .this => inferInstanceAs (Decidable True)
  | .holder name => inferInstanceAs (Decidable (isHolder name = true))
  | .select s => inferInstanceAs (Decidable s.Proper)

def Clause.Proper : Clause → Prop
  | asEach target => target.Proper
  | atSelf => True
  | ifScore objective _ => isName objective
  | unlessScore objective _ => isName objective

instance : (c : Clause) → Decidable c.Proper
  | .asEach target => inferInstanceAs (Decidable target.Proper)
  | .atSelf => inferInstanceAs (Decidable True)
  | .ifScore objective _ => inferInstanceAs (Decidable (isName objective = true))
  | .unlessScore objective _ => inferInstanceAs (Decidable (isName objective = true))

/-- Whether there is neither a blank nor a line break in a text. -/
def isWord (s : String) : Bool :=
  s.toList.all fun c => c != ' ' && c != '\n'

lemma isWord_iff {s : String} : isWord s ↔ ' ' ∉ s.toList ∧ '\n' ∉ s.toList := by
  simp only [isWord,List.all_eq_true,Bool.and_eq_true,bne_iff_ne]
  refine ⟨fun h => ⟨fun hm => (h _ hm).1 rfl,fun hm => (h _ hm).2 rfl⟩,fun h c hc => ?_⟩
  exact ⟨fun he => h.1 (he ▸ hc),fun he => h.2 (he ▸ hc)⟩

/-- A text of characters of some kind is a word, if neither the blank nor the line break is of that
kind. -/
lemma isWord_of_all {s : String} {p : Char → Bool} (h : ∀ c ∈ s.toList, p c = true)
    (hblank : p ' ' = false) (hbreak : p '\n' = false) : isWord s := by
  refine isWord_iff.mpr ⟨fun hm => ?_,fun hm => ?_⟩
  · exact absurd (h _ hm) (by simp [hblank])
  · exact absurd (h _ hm) (by simp [hbreak])

lemma isWord_append {s t : String} : isWord (s ++ t) = (isWord s && isWord t) := by
  rw [isWord,String.toList_append,List.all_append]
  rfl

lemma isWord_join {l : List String} (h : ∀ s ∈ l, isWord s) : isWord (String.join l) := by
  induction l with
  | nil => rfl
  | cons s l ih =>
    obtain ⟨hs,hl⟩ := List.forall_mem_cons.mp h
    rw [String.join_cons,isWord_append,hs,ih hl]
    rfl

lemma isWord_intercalate {sep : String} {l : List String} (hsep : isWord sep)
    (h : ∀ s ∈ l, isWord s) : isWord (sep.intercalate l) := by
  induction l with
  | nil => rw [String.intercalate_nil]; rfl
  | cons s l ih =>
    obtain ⟨hs,hl⟩ := List.forall_mem_cons.mp h
    cases l with
    | nil => rwa [String.intercalate_singleton]
    | cons t l =>
      rw [String.intercalate_cons_cons,isWord_append,isWord_append,hs,hsep,ih hl]
      rfl

lemma isWord_of_isName {s : String} (h : isName s) : isWord s :=
  isWord_of_all (isName_iff.mp h).2 rfl rfl

lemma isWord_of_isItem {s : String} (h : isItem s) : isWord s := by
  rw [isItem,Bool.and_eq_true] at h
  exact isWord_of_all (List.all_eq_true.mp h.2) rfl rfl

lemma isWord_of_isHolder {s : String} (h : isHolder s) : isWord s := by
  simp only [isHolder,Bool.and_eq_true] at h
  exact isWord_of_all (List.all_eq_true.mp h.1.2) rfl rfl

namespace ScoreRange

lemma isWord_text (range : ScoreRange) : isWord range.text := by
  have hwhole (v : Int) : isWord (toString v) := isWord_of_all isWholeChar_of_int rfl rfl
  cases range with
  | exactly v => exact hwhole v
  | between low high =>
    rw [text,isWord_append,isWord_append,hwhole,hwhole]
    decide

/-- Scores are told by their text. A pair has two points between its numbers, a score has none. -/
lemma legible : Legible (fun _ => True) fun range : ScoreRange => range.text.toList := by
  have hwhole {r : List Char} (hr : Ends r) : ∀ c ∈ r.head?, isWholeChar c = false := by
    intro c hc
    have := hr c hc
    simp only [isSegmentChar,isWholeChar,Bool.or_eq_false_iff] at this ⊢
    exact ⟨this.1.1.1.2,this.1.2⟩
  have hpoints (r : List Char) : ∀ c ∈ ("..".toList ++ r).head?, isWholeChar c = false := by
    intro c hc
    obtain rfl : '.' = c := by simpa using hc
    rfl
  have hne (v low high : Int) {r s : List Char} (hr : Ends r) :
      (exactly v).text.toList ++ r ≠ (between low high).text.toList ++ s := by
    intro h
    simp only [text,String.toList_append,List.append_assoc] at h
    obtain ⟨_,rfl⟩ := whole_inj (hwhole hr) (hpoints _) h
    exact absurd (hr '.' (by simp)) (by decide)
  intro a b r s _ _ hr hs h
  cases a with
  | exactly v =>
    cases b with
    | exactly w =>
      obtain ⟨rfl,hrs⟩ := whole_inj (hwhole hr) (hwhole hs) h
      exact ⟨rfl,hrs⟩
    | between low high => exact absurd h (hne v low high hr)
  | between low high =>
    cases b with
    | exactly w => exact absurd h.symm (hne w low high hs)
    | between low' high' =>
      simp only [text,String.toList_append,List.append_assoc] at h
      obtain ⟨rfl,hhigh⟩ := whole_inj (hpoints _) (hpoints _) h
      obtain ⟨rfl,hrs⟩ := whole_inj (hwhole hr) (hwhole hs) (List.append_cancel_left hhigh)
      exact ⟨rfl,hrs⟩

end ScoreRange

namespace Selector

/-- The text of one score. -/
def scoreText (p : String × ScoreRange) : String :=
  p.1 ++ "=" ++ p.2.text

lemma legible_score : Legible (fun p => isName p.1) fun p => (scoreText p).toList := by
  have hequals (r : List Char) : Ends ("=".toList ++ r) := ends_cons (by decide)
  rintro ⟨o,range⟩ ⟨o',range'⟩ r s ho ho' hr hs h
  simp only [scoreText,String.toList_append,List.append_assoc] at h
  obtain ⟨rfl,hrest⟩ := legible_name ho ho' (hequals _) (hequals _) h
  obtain ⟨rfl,hrs⟩ := ScoreRange.legible trivial trivial hr hs (List.append_cancel_left hrest)
  exact ⟨rfl,hrs⟩

lemma not_ends_score {p : String × ScoreRange} (h : isName p.1) :
    ¬Ends (scoreText p).toList := by
  intro hends
  refine not_ends_of_isName h fun c hc => hends c ?_
  rw [scoreText,String.toList_append,String.toList_append,List.append_assoc,List.head?_append,hc]
  rfl

/-- What stands in a selector after the tags. -/
def ending (s : Selector) : List Char :=
  (scoresText s.scores).toList ++ ((if s.single then ",limit=1" else "").toList ++ "]".toList)

lemma toList_text (s : Selector) : s.text.toList = "@e[type=armor_stand".toList ++
    ((s.tags.flatMap fun t => ','::"tag=".toList ++ t.toList) ++ s.ending) := by
  have htext : s.text = "@e[type=armor_stand" ++ String.join (s.tags.map (",tag=" ++ ·)) ++
    scoresText s.scores ++ (if s.single then ",limit=1" else "") ++ "]" := rfl
  have hmark (t : String) : (",tag=" ++ t).toList = ','::"tag=".toList ++ t.toList :=
    String.toList_append
  rw [htext,ending]
  simp only [String.toList_append,String.toList_join,List.flatMap_map,hmark,List.append_assoc]

lemma toList_scoresText {scores : List (String × ScoreRange)} (h : scores ≠ []) :
    (scoresText scores).toList = ",scores=\x7b".toList ++
      ([','].intercalate (scores.map fun p => (scoreText p).toList) ++ "\x7d".toList) := by
  have htext : scoresText scores =
      ",scores=\x7b" ++ String.intercalate "," (scores.map scoreText) ++ "\x7d" := if_neg h
  rw [htext]
  simp only [String.toList_append,String.toList_intercalate,List.map_map,List.append_assoc]
  rfl

/-- After the tags there comes no tag. -/
lemma ends_ending (s : Selector) : Ends s.ending ∧ ¬(','::"tag=".toList) <+: s.ending := by
  have hlast (r : List Char) :
      Ends (',' :: 'l' :: r) ∧ ¬(',' :: "tag=".toList) <+: ',' :: 'l' :: r :=
    ⟨ends_cons (by decide),by simp⟩
  unfold ending
  by_cases hscores : s.scores = []
  · have hnone : scoresText s.scores = "" := if_pos hscores
    rw [hnone]
    cases s.single with
    | true => exact hlast _
    | false => exact ⟨ends_cons (by decide),by simp⟩
  · rw [toList_scoresText hscores,List.append_assoc]
    exact ⟨ends_cons (by decide),by simp⟩

lemma ending_inj {s s' : Selector} (hs : ∀ p ∈ s.scores, isName p.1)
    (hs' : ∀ p ∈ s'.scores, isName p.1) (h : s.ending = s'.ending) :
    s.scores = s'.scores ∧ s.single = s'.single := by
  unfold ending at h
  have hsingle {b b' : Bool} (h : (if b then ",limit=1" else "").toList ++ "]".toList =
      (if b' then ",limit=1" else "").toList ++ "]".toList) : b = b' := by
    revert h
    cases b <;> cases b' <;> simp
  have hnone {scores : List (String × ScoreRange)} (hne : scores ≠ []) (b b' : Bool) :
      (scoresText []).toList ++ ((if b then ",limit=1" else "").toList ++ "]".toList) ≠
        (scoresText scores).toList ++ ((if b' then ",limit=1" else "").toList ++ "]".toList) := by
    rw [toList_scoresText hne]
    cases b <;> simp [scoresText]
  by_cases hscores : s.scores = [] <;> by_cases hscores' : s'.scores = []
  · rw [hscores,hscores'] at h ⊢
    exact ⟨rfl,hsingle (List.append_cancel_left h)⟩
  · rw [hscores] at h
    exact absurd h (hnone hscores' _ _)
  · rw [hscores'] at h
    exact absurd h.symm (hnone hscores _ _)
  · rw [toList_scoresText hscores,toList_scoresText hscores'] at h
    simp only [List.append_assoc,List.append_cancel_left_eq] at h
    have hbrace (r : List Char) : Ends ("\x7d".toList ++ r) ∧ ¬[','] <+: "\x7d".toList ++ r :=
      ⟨ends_cons (by decide),by simp⟩
    obtain ⟨heq,hrest⟩ := legible_score.listed (fun _ => not_ends_score) (by decide) hs hs'
      (hbrace _).1 (hbrace _).1 (hbrace _).2 (hbrace _).2 h
    exact ⟨heq,hsingle (List.append_cancel_left hrest)⟩

lemma text_inj {s s' : Selector} (hs : s.Proper) (hs' : s'.Proper) (h : s.text = s'.text) :
    s = s' := by
  have h := congrArg String.toList h
  rw [toList_text,toList_text] at h
  obtain ⟨htags,hending⟩ := legible_name.each (by decide) hs.1 hs'.1 s.ends_ending.1
    s'.ends_ending.1 s.ends_ending.2 s'.ends_ending.2 (List.append_cancel_left h)
  obtain ⟨hscores,hsingle⟩ := ending_inj hs.2 hs'.2 hending
  cases s
  cases s'
  simp only at htags hscores hsingle
  rw [htags,hscores,hsingle]

lemma isWord_text {s : Selector} (h : s.Proper) : isWord s.text := by
  have htags : isWord (String.join (s.tags.map (",tag=" ++ ·))) := by
    refine isWord_join (List.forall_mem_map.mpr fun t ht => ?_)
    rw [isWord_append,isWord_of_isName (h.1 t ht)]
    rfl
  have hscores : isWord (scoresText s.scores) := by
    by_cases hnone : s.scores = []
    · rw [scoresText,if_pos hnone]
      rfl
    · have hlist : isWord (String.intercalate "," (s.scores.map scoreText)) := by
        refine isWord_intercalate rfl (List.forall_mem_map.mpr fun p hp => ?_)
        rw [scoreText,isWord_append,isWord_append,isWord_of_isName (h.2 p hp),p.2.isWord_text]
        rfl
      rw [scoresText,if_neg hnone,isWord_append,isWord_append]
      exact Bool.and_eq_true_iff.mpr ⟨Bool.and_eq_true_iff.mpr ⟨rfl,hlist⟩,rfl⟩
  have htext : s.text = "@e[type=armor_stand" ++ String.join (s.tags.map (",tag=" ++ ·)) ++
    scoresText s.scores ++ (if s.single then ",limit=1" else "") ++ "]" := rfl
  rw [htext]
  simp only [isWord_append,htags,hscores]
  cases s.single <;> rfl

end Selector

namespace Target

/-- The running stand and all selectors begin with the mark that no holder begins with. -/
lemma head_text {t : Target} (h : t.Proper) :
    t.text.toList.head? = some '@' ↔ ∀ name, t ≠ holder name := by
  cases t with
  | this => simp [text]
  | holder name =>
    simp only [Proper,isHolder,Bool.and_eq_true,bne_iff_ne] at h
    simpa [text] using h.2
  | select s => simp [text,Selector.toList_text]

lemma this_ne_select (s : Selector) : this.text ≠ (select s).text := by
  intro h
  have h := congrArg String.toList h
  rw [text,text,Selector.toList_text] at h
  simp at h

lemma text_inj {t u : Target} (ht : t.Proper) (hu : u.Proper) (h : t.text = u.text) : t = u := by
  have hhead := (head_text ht).symm.trans ((congrArg (·.toList.head? = some '@') h).to_iff.trans
    (head_text hu))
  cases t <;> cases u
  case this.this => rfl
  case holder.holder => exact congrArg holder h
  case select.select => rw [Selector.text_inj ht hu h]
  case this.select s => exact absurd h (this_ne_select s)
  case select.this s => exact absurd h.symm (this_ne_select s)
  all_goals simp at hhead

lemma isWord_text {t : Target} (h : t.Proper) : isWord t.text := by
  cases t with
  | this => decide
  | holder name => exact isWord_of_isHolder h
  | select s => exact Selector.isWord_text h

end Target

namespace ResourcePath

lemma text_inj {p q : ResourcePath} (hp : p.Proper) (hq : q.Proper) (h : p.text = q.text) :
    p = q := by
  have hcolon (r : List Char) : Ends (":".toList ++ r) := ends_cons (by decide)
  have h := congrArg String.toList h
  simp only [text,path,String.toList_append,String.toList_intercalate,List.append_assoc] at h
  obtain ⟨hspace,hpath⟩ := legible_name hp.1 hq.1 (hcolon _) (hcolon _) h
  have hpath := congrArg (· ++ []) (List.append_cancel_left hpath)
  obtain ⟨hsegments,_⟩ := legible_name.listed (fun _ => not_ends_of_isName) (by decide) hp.2 hq.2
    ends_nil ends_nil (by simp) (by simp) hpath
  cases p
  cases q
  simp only at hspace hsegments
  rw [hspace,hsegments]

lemma isWord_text {p : ResourcePath} (h : p.Proper) : isWord p.text := by
  rw [text,isWord_append,isWord_append,isWord_of_isName h.1,path,
    isWord_intercalate (by decide) fun s hs => isWord_of_isName (h.2 s hs)]
  decide

end ResourcePath

namespace Directive

/-- What stands between the tags and the item of a summoned stand. -/
def worn : String :=
  "],Marker:1b,Invisible:1b,NoBasePlate:1b,ArmorItems:[\x7b\x7d,\x7b\x7d,\x7b\x7d,\x7bid:\""

/-- What stands between the item and its custom id. -/
def modelled : String :=
  "\",Count:1b,tag:\x7bCustomModelData:"

/-- What a summoned stand is given. -/
def gear (tags : List String) (item : String) (customId : UInt32) : String :=
  "\x7bTags:[" ++ String.intercalate "," tags ++ worn ++ item ++ modelled ++
    toString customId.toNat ++ "\x7d\x7d]\x7d"

lemma gear_inj {tags tags' : List String} {item item' : String} {id id' : UInt32}
    (ht : ∀ t ∈ tags, isName t) (ht' : ∀ t ∈ tags', isName t) (hi : isItem item)
    (hi' : isItem item') (h : gear tags item id = gear tags' item' id') :
    tags = tags' ∧ item = item' ∧ id = id' := by
  have hworn (r : List Char) : Ends (worn.toList ++ r) ∧ ¬[','] <+: worn.toList ++ r :=
    ⟨ends_cons (by decide),by simp [worn]⟩
  have hquote {s : String} (h : isItem s) : '"' ∉ s.toList := by
    intro hm
    rw [isItem,Bool.and_eq_true] at h
    exact absurd (List.all_eq_true.mp h.2 _ hm) (by decide)
  have h := congrArg String.toList h
  simp only [gear,String.toList_append,String.toList_intercalate,List.append_assoc,
    List.append_cancel_left_eq] at h
  obtain ⟨htags,hrest⟩ := legible_name.listed (fun _ => not_ends_of_isName) (by decide) ht ht'
    (hworn _).1 (hworn _).1 (hworn _).2 (hworn _).2 h
  obtain ⟨hitem,hrest⟩ := cut_inj (hquote hi) (hquote hi') (List.append_cancel_left hrest)
  have hid := List.append_cancel_right (@List.append_cancel_left _ modelled.toList.tail _ _ hrest)
  exact ⟨htags,String.toList_inj.mp hitem,
    UInt32.toNat_inj.mp (Nat.repr_inj.mp (String.toList_inj.mp hid))⟩

lemma isWord_gear {tags : List String} {item : String} (ht : ∀ t ∈ tags, isName t)
    (hi : isItem item) (id : UInt32) : isWord (gear tags item id) := by
  have htags : isWord (String.intercalate "," tags) :=
    isWord_intercalate rfl fun t ht' => isWord_of_isName (ht t ht')
  have hid : isWord (toString id.toNat) := isWord_of_all isWholeChar_of_nat rfl rfl
  have hworn : isWord worn := rfl
  have hmodelled : isWord modelled := rfl
  simp only [gear,isWord_append,htags,hid,hworn,hmodelled,isWord_of_isItem hi]
  rfl

/-- Angles about the three axes. -/
def angles (x y z : String) : String :=
  "[" ++ x ++ "f," ++ y ++ "f," ++ z ++ "f]"

/-- Numbers without commas are told by the text of the angles that they give. -/
lemma angles_inj {x y z x' y' z' : String} (hx : ',' ∉ x.toList) (hy : ',' ∉ y.toList)
    (hx' : ',' ∉ x'.toList) (hy' : ',' ∉ y'.toList) (h : angles x y z = angles x' y' z') :
    x = x' ∧ y = y' ∧ z = z' := by
  have hcut {u v : String} {r s : List Char} (hu : ',' ∉ u.toList) (hv : ',' ∉ v.toList)
      (h : u.toList ++ ("f,".toList ++ r) = v.toList ++ ("f,".toList ++ s)) : u = v ∧ r = s := by
    have hcomma {w : String} (hw : ',' ∉ w.toList) : ',' ∉ w.toList ++ ['f'] := by
      simpa using hw
    obtain ⟨huv,hrs⟩ := cut_inj (hcomma hu) (hcomma hv) (r := r) (s := s) (by simpa using h)
    exact ⟨String.toList_inj.mp (List.append_cancel_right huv),hrs⟩
  have h := congrArg String.toList h
  simp only [angles,String.toList_append,List.append_assoc,List.append_cancel_left_eq] at h
  obtain ⟨rfl,hrest⟩ := hcut hx hx' h
  obtain ⟨rfl,hz⟩ := hcut hy hy' hrest
  exact ⟨rfl,rfl,String.toList_inj.mp (List.append_cancel_right hz)⟩

lemma isWord_angles {x y z : String} (hx : isWord x) (hy : isWord y) (hz : isWord z) :
    isWord (angles x y z) := by
  simp only [angles,isWord_append,hx,hy,hz]
  rfl

end Directive

end RigPack
