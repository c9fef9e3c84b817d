import Mathlib.Tactic

/-!
Results of computations that may fail, taken apart step by step, one by one and in lists, and lists
that go together.
-/

namespace RigPack

section Pairs

variable {α β : Type} {R : α → β → Prop} {l : List α} {bs : List β}

/-- In two lists that go together each member of the first has its partner in the second. -/
lemma exists_partner (h : List.Forall₂ R l bs) : ∀ a ∈ l, ∃ b ∈ bs, R a b := by
  induction h with
  | nil => simp
  | @cons a b l bs h _ ih =>
    refine List.forall_mem_cons.mpr ⟨⟨b,List.mem_cons_self,h⟩,fun a' ha' => ?_⟩
    obtain ⟨b',hb',h'⟩ := ih a' ha'
    exact ⟨b',List.mem_cons_of_mem _ hb',h'⟩

lemma exists_partner_left (h : List.Forall₂ R l bs) : ∀ b ∈ bs, ∃ a ∈ l, R a b :=
  exists_partner h.flip

lemma exists_partners (h : ∀ a ∈ l, ∃ b, R a b) : ∃ bs, List.Forall₂ R l bs := by
  induction l with
  | nil => exact ⟨[],.nil⟩
  | cons a l ih =>
    obtain ⟨b,hb⟩ := h a List.mem_cons_self
    obtain ⟨bs,hbs⟩ := ih fun a ha => h a (List.mem_cons_of_mem _ ha)
    exact ⟨b::bs,.cons hb hbs⟩

/-- A list in which a key has one value gives that value. -/
lemma lookup_eq_some [BEq α] [LawfulBEq α] {l : List (α × β)} {a : α} {b : β}
    (h : (a,b) ∈ l) (hu : ∀ c, (a,c) ∈ l → c = b) : l.lookup a = some b := by
  induction l with
  | nil => cases h
  | cons p l ih =>
    obtain ⟨k,v⟩ := p
    by_cases hk : a = k
    · subst hk
      rw [List.lookup_cons_self,hu v List.mem_cons_self]
    · rw [List.lookup_cons,beq_eq_false_iff_ne.mpr hk]
      have hm : (a,b) ∈ l := by
        rcases List.mem_cons.mp h with h | h
        · exact absurd (congrArg Prod.fst h) hk
        · exact h
      exact ih hm fun c hc => hu c (List.mem_cons_of_mem _ hc)

end Pairs

namespace Except

variable {ε α β : Type} {x : Except ε α} {f : α → Except ε β} {e : ε}

lemma ok_of_toOption {a : α} (h : x.toOption = some a) : x = .ok a := by
  cases x with
  | error e => cases h
  | ok b => exact congrArg Except.ok (Option.some.inj h)

lemma ok_bind (a : α) : ((.ok a : Except ε α) >>= f) = f a := rfl

lemma error_bind (e : ε) : ((.error e : Except ε α) >>= f) = .error e := rfl

lemma bind_ok_iff {b : β} : (x >>= f) = .ok b ↔ ∃ a, x = .ok a ∧ f a = .ok b := by
  cases x with
  | error e => exact ⟨nofun,fun ⟨_,h,_⟩ => nomatch h⟩
  | ok a =>
    constructor
    · exact fun h => ⟨a,rfl,h⟩
    · rintro ⟨_,⟨⟩,h⟩
      exact h

lemma bind_ok {b : β} (h : (x >>= f) = .ok b) : ∃ a, x = .ok a ∧ f a = .ok b :=
  bind_ok_iff.mp h

lemma bind_error (h : (x >>= f) = .error e) :
    x = .error e ∨ ∃ a, x = .ok a ∧ f a = .error e := by
  cases x with
  | error d =>
    cases h
    exact .inl rfl
  | ok a => exact .inr ⟨a,rfl,h⟩

/-- What goes on past a check has passed it. -/
lemma check_ok_iff {p : Prop} [Decidable p] {k : Unit → Except ε β} {b : β} :
    (if p then (throw e : Except ε Unit) >>= k else k ()) = .ok b ↔ ¬p ∧ k () = .ok b := by
  by_cases hp : p
  · rw [if_pos hp]
    exact ⟨nofun,fun h => absurd hp h.1⟩
  · rw [if_neg hp]
    exact ⟨fun h => ⟨hp,h⟩,And.right⟩

lemma check_ok {p : Prop} [Decidable p] {k : Unit → Except ε β} {b : β}
    (h : (if p then (throw e : Except ε Unit) >>= k else k ()) = .ok b) : ¬p ∧ k () = .ok b :=
  check_ok_iff.mp h

/-- Checks of a whole list are passed if each of them is. -/
lemma forM_ok_iff {f : α → Except ε Unit} {l : List α} :
    l.forM f = .ok () ↔ ∀ a ∈ l, f a = .ok () := by
  induction l with
  | nil => exact ⟨fun _ => by simp,fun _ => rfl⟩
  | cons a l ih =>
    change (f a >>= fun _ => l.forM f) = .ok () ↔ _
    rw [bind_ok_iff,List.forall_mem_cons,← ih]
    constructor
    · rintro ⟨_,ha,hl⟩
      exact ⟨ha,hl⟩
    · rintro ⟨ha,hl⟩
      exact ⟨(),ha,hl⟩

/-- A list of computations has results if each has one. -/
lemma mapM_ok_iff {l : List α} {bs : List β} :
    l.mapM f = .ok bs ↔ List.Forall₂ (fun a b => f a = .ok b) l bs := by
  induction l generalizing bs with
  | nil =>
    rw [List.mapM_nil,List.forall₂_nil_left_iff]
    exact ⟨fun h => (Except.ok.inj h).symm,fun h => h ▸ rfl⟩
  | cons a l ih =>
    rw [List.mapM_cons,List.forall₂_cons_left_iff]
    constructor
    · intro h
      obtain ⟨b,hb,h⟩ := bind_ok h
      obtain ⟨rest,hrest,h⟩ := bind_ok h
      exact ⟨b,rest,hb,ih.mp hrest,(Except.ok.inj h).symm⟩
    · rintro ⟨b,rest,hb,hrest,rfl⟩
      rw [hb,ih.mpr hrest]
      rfl

lemma exists_mapM_ok {l : List α} (h : ∀ a ∈ l, ∃ b, f a = .ok b) : ∃ bs, l.mapM f = .ok bs :=
  (exists_partners h).imp fun _ => mapM_ok_iff.mpr

end Except
end RigPack
