import Mathlib.Tactic
import RigPack.Proofs.Except

/-!
Runs of actions that keep a state and may fail, taken apart step by step. What an action did to the
state before it failed stays done.
-/

namespace RigPack

abbrev Action (ε σ β : Type) := ExceptT ε (StateM σ) β

namespace Action

variable {ε σ α β : Type} {c c' : σ}

lemma bind_run {x : Action ε σ α} {f : α → Action ε σ β} {a : α} (h : x c = (.ok a,c')) :
    (x >>= f) c = f a c' := by
  change ExceptT.bind x f c = _
  simp only [ExceptT.bind,ExceptT.mk,bind,StateT.bind,h]
  rfl

lemma bind_ok {x : Action ε σ α} {f : α → Action ε σ β} {b : β}
    (h : (x >>= f) c = (.ok b,c')) : ∃ a d, x c = (.ok a,d) ∧ f a d = (.ok b,c') := by
  change ExceptT.bind x f c = _ at h
  simp only [ExceptT.bind,ExceptT.mk,bind,StateT.bind] at h
  generalize hx : x c = y at h
  obtain ⟨y,d⟩ := y
  cases y with
  | error e => cases h
  | ok a => exact ⟨a,d,rfl,h⟩

/-- A last step that only changes the result. -/
lemma map_run {x : Action ε σ α} (f : α → β) (c : σ) :
    (x >>= fun a => pure (f a)) c = ((x c).1.map f,(x c).2) := by
  change ExceptT.bind x _ c = _
  simp only [ExceptT.bind,ExceptT.mk,bind,StateT.bind]
  generalize x c = y
  obtain ⟨_ | _,_⟩ := y <;> rfl

lemma pure_ok {a b : α} (h : (pure a : Action ε σ α) c = (.ok b,c')) : a = b ∧ c = c' := by
  have h : (Except.ok a,c) = ((Except.ok b : Except ε α),c') := h
  simpa using h

/-- What cannot touch the state leaves it as it was. -/
lemma lift_ok {x : Except ε α} {a : α} (h : (liftM x : Action ε σ α) c = (.ok a,c')) :
    x = .ok a ∧ c = c' := by
  have h : (x,c) = ((.ok a : Except ε α),c') := by cases x <;> exact h
  simpa using h

lemma get_ok {d : σ} (h : (get : Action ε σ σ) c = (.ok d,c')) : d = c ∧ c = c' := by
  have h : ((.ok c : Except ε σ),c) = (.ok d,c') := h
  simp only [Prod.mk.injEq,Except.ok.injEq] at h
  exact ⟨h.1.symm,h.2⟩

lemma throw_ok {e : ε} {a : α} (h : (throw e : Action ε σ α) c = (.ok a,c')) : False := by
  have h : ((.error e : Except ε α),c) = (.ok a,c') := h
  simp at h

lemma get_bind {f : σ → Action ε σ β} : (get >>= f) c = f c c := rfl

lemma lift_bind {x : Except ε α} {f : α → Action ε σ β} {a : α} (h : x = .ok a) :
    ((liftM x : Action ε σ α) >>= f) c = f a c := by
  subst h
  rfl

section Failure

variable {e : ε}

/-- What fails in its first step fails. -/
lemma bind_run_error {x : Action ε σ α} {f : α → Action ε σ β} (h : x c = (.error e,c')) :
    (x >>= f) c = (.error e,c') := by
  change ExceptT.bind x f c = _
  simp only [ExceptT.bind,ExceptT.mk,bind,StateT.bind,h]
  rfl

/-- An action in two steps fails in the first or, after it, in the second. -/
lemma bind_error {x : Action ε σ α} {f : α → Action ε σ β} (h : (x >>= f) c = (.error e,c')) :
    x c = (.error e,c') ∨ ∃ a d, x c = (.ok a,d) ∧ f a d = (.error e,c') := by
  change ExceptT.bind x f c = _ at h
  simp only [ExceptT.bind,ExceptT.mk,bind,StateT.bind] at h
  generalize hx : x c = y at h
  obtain ⟨y,d⟩ := y
  cases y with
  | error e' =>
    cases h
    exact .inl rfl
  | ok a => exact .inr ⟨a,d,rfl,h⟩

lemma pure_error {a : α} (h : (pure a : Action ε σ α) c = (.error e,c')) : False := by
  have h : ((.ok a : Except ε α),c) = (.error e,c') := h
  simp at h

lemma lift_error {x : Except ε α} (h : (liftM x : Action ε σ α) c = (.error e,c')) :
    x = .error e := by
  have h : (x,c) = ((.error e : Except ε α),c') := by cases x <;> exact h
  exact congrArg Prod.fst h

lemma lift_bind_error {x : Except ε α} {f : α → Action ε σ β} (h : x = .error e) :
    ((liftM x : Action ε σ α) >>= f) c = (.error e,c) := by
  subst h
  rfl

lemma get_error (h : (get : Action ε σ σ) c = (.error e,c')) : False := by
  have h : ((.ok c : Except ε σ),c) = (.error e,c') := h
  simp at h

lemma throw_error {e' : ε} (h : (throw e' : Action ε σ α) c = (.error e,c')) : e' = e := by
  have h : ((.error e' : Except ε α),c) = (.error e,c') := h
  simpa using congrArg Prod.fst h

end Failure

/-- What holds of all results of an action holds of each of a list of them. -/
lemma mapM_ok {f : α → Action ε σ β} {R : α → β → Prop}
    (hf : ∀ a c b c', f a c = (.ok b,c') → R a b) {l : List α} {bs : List β}
    (h : l.mapM f c = (.ok bs,c')) : List.Forall₂ R l bs := by
  induction l generalizing c c' bs with
  | nil =>
    rw [List.mapM_nil] at h
    obtain ⟨rfl,_⟩ := pure_ok h
    exact .nil
  | cons a l ih =>
    rw [List.mapM_cons] at h
    obtain ⟨b,d,hb,h⟩ := bind_ok h
    obtain ⟨rest,d',hrest,h⟩ := bind_ok h
    obtain ⟨rfl,_⟩ := pure_ok h
    exact .cons (hf _ _ _ _ hb) (ih hrest)

/-- Results that carry over a field of what they come from. -/
lemma mapM_map {γ : Type} {f : α → Action ε σ β} {g : β → γ} {k : α → γ}
    (hf : ∀ a c b c', f a c = (.ok b,c') → g b = k a) {l : List α} {bs : List β}
    (h : l.mapM f c = (.ok bs,c')) : bs.map g = l.map k := by
  have hr := mapM_ok hf h
  clear h
  induction hr with
  | nil => rfl
  | cons h _ ih => rw [List.map_cons,List.map_cons,h,ih]

/-- What comes to an end needs no remedy. -/
lemma tryCatch_run {x : Action ε σ α} {f : ε → Action ε σ α} {a : α} (h : x c = (.ok a,c')) :
    tryCatch x f c = (.ok a,c') := by
  change ExceptT.tryCatch x f c = _
  simp only [ExceptT.tryCatch,ExceptT.mk,bind,StateT.bind,h]
  rfl

lemma tryCatch_run_error {x : Action ε σ α} {f : ε → Action ε σ α} {e : ε}
    (h : x c = (.error e,c')) : tryCatch x f c = f e c' := by
  change ExceptT.tryCatch x f c = _
  simp only [ExceptT.tryCatch,ExceptT.mk,bind,StateT.bind,h]

end Action
end RigPack
