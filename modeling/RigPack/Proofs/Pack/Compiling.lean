import Mathlib.Tactic
import RigPack.Pack.Context
import RigPack.Proofs.Action

/-!
Runs of actions on a context: what a run that comes to an end has gone through, and what a context
keeps through every run. A context only ever takes, also in an action that fails.
-/

namespace RigPack

namespace Context

/-- A later state of a context. Nothing that was taken has been given back. -/
structure Grows (c c' : Context) : Prop where
  options : c'.options = c.options
  nextFrame : c.nextFrame ≤ c'.nextFrame
  nextCustomId : c.nextCustomId.toNat ≤ c'.nextCustomId.toNat
  used : ∀ id ∈ c.usedCustomIds, id ∈ c'.usedCustomIds

lemma Grows.refl (c : Context) : c.Grows c :=
  ⟨rfl,le_rfl,le_rfl,fun _ h => h⟩

lemma Grows.trans {a b c : Context} (h : a.Grows b) (h' : b.Grows c) : a.Grows c :=
  ⟨h'.options.trans h.options,h.nextFrame.trans h'.nextFrame,h.nextCustomId.trans h'.nextCustomId,
    fun id hid => h'.used id (h.used id hid)⟩

end Context

namespace Compiling

export Action (bind_run bind_ok map_run pure_ok lift_ok get_ok throw_ok bind_run_error bind_error
  pure_error lift_error get_error throw_error mapM_ok mapM_map)

variable {α β : Type}

section Taking

variable {x : Compiling α} {f : α → Compiling β}

/-- An action that gives nothing back, whether it comes to an end or fails. -/
def Taking (x : Compiling α) : Prop :=
  ∀ c, Context.Grows c (x c).2

lemma Taking.of_pure (a : α) : Taking (pure a : Compiling α) :=
  fun c => .refl c

lemma Taking.of_lift (x : Except Error α) : Taking (liftM x : Compiling α) := by
  intro c
  cases x <;> exact .refl c

lemma Taking.of_throw (e : Error) : Taking (throw e : Compiling α) :=
  fun c => .refl c

lemma Taking.of_get : Taking (get : Compiling Context) :=
  fun c => .refl c

lemma Taking.bind (hx : Taking x) (hf : ∀ a, Taking (f a)) : Taking (x >>= f) := by
  intro c
  have hc := hx c
  change Context.Grows c (ExceptT.bind x f c).2
  simp only [ExceptT.bind,ExceptT.mk,Bind.bind,StateT.bind]
  generalize x c = y at hc
  obtain ⟨y,d⟩ := y
  cases y with
  | error e => exact hc
  | ok a => exact hc.trans (hf a d)

lemma Taking.check {p : Prop} [Decidable p] {e : Error} {k : Unit → Compiling β}
    (hk : Taking (k ())) : Taking (if p then (throw e : Compiling Unit) >>= k else k ()) := by
  split
  · exact .of_throw e
  · exact hk

lemma Taking.mapM {f : α → Compiling β} (hf : ∀ a, Taking (f a)) (l : List α) :
    Taking (l.mapM f) := by
  induction l with
  | nil => exact .of_pure _
  | cons a l ih =>
    rw [List.mapM_cons]
    exact .bind (hf a) fun b => .bind ih fun bs => .of_pure _

end Taking

end Compiling

end RigPack
