import RigPack.Proofs.Pack.Loading
import RigPack.Proofs.World.Stands

/-! Directives one after another, and calls of loaded programs. A directive that a stand runs about
itself, or about all stands with a tag, is a change of the stands in one piece. -/

namespace RigPack

namespace Directive

variable {N : Type} [Scalar N] {call : ResourcePath → Point N → World N → Option (World N)}
  {p : Point N} {w : World N}

/-- Runs directives one after another. -/
def runAll (call : ResourcePath → Point N → World N → Option (World N)) (l : List (Directive N))
    (p : Point N) (w : World N) : Option (World N) :=
  l.foldlM (fun w d => d.run call p w) w

@[simp] lemma runAll_nil : runAll call [] p w = some w := rfl

lemma runAll_cons (d : Directive N) (l : List (Directive N)) :
    runAll call (d::l) p w = (d.run call p w).bind (runAll call l p) := by
  simp only [runAll,List.foldlM_cons]
  rfl

lemma runAll_append (l m : List (Directive N)) :
    runAll call (l ++ m) p w = (runAll call l p w).bind (runAll call m p) := by
  simp only [runAll,List.foldlM_append]
  rfl

/-- A directive that has a result, before others. -/
lemma runAll_cons_of_run {d : Directive N} {l : List (Directive N)} {v : World N}
    (h : d.run call p w = some v) : runAll call (d::l) p w = runAll call l p v := by
  rw [runAll_cons,h]
  rfl

lemma runAll_append_of_run {l m : List (Directive N)} {v : World N}
    (h : runAll call l p w = some v) : runAll call (l ++ m) p w = runAll call m p v := by
  rw [runAll_append,h]
  rfl

lemma run_addTag_tagged {t u : String} :
    (addTag (.tagged u) t : Directive N).run call p w =
      some (w.changeEvery fun s => if s.alive && s.tags u then s.setTag t true else s) := by
  simp [run,Target.tagged,World.places,World.change_selected,World.admits_tagged]

lemma run_removeTag_tagged {t u : String} :
    (removeTag (.tagged u) t : Directive N).run call p w =
      some (w.changeEvery fun s => if s.alive && s.tags u then s.setTag t false else s) := by
  simp [run,Target.tagged,World.places,World.change_selected,World.admits_tagged]

/-- A condition on the one who runs a directive, under which it runs. -/
lemma run_execute_if {c : Clause} {d : Directive N} {b : Bool}
    (h : c.points w [p] = some (if b then [p] else [])) :
    (execute [c] d).run call p w = if b then d.run call p w else some w := by
  simp only [run,List.foldlM_cons,List.foldlM_nil,h]
  cases b
  · rfl
  · simp

end Directive

namespace World

variable {N : Type} [Scalar N] {programs : Programs N} {w : World N}

/-- The world as a function begins to run in it. -/
def begin (w : World N) (function : ResourcePath) (executor : Option Nat) : World N :=
  { w with calls := w.calls ++ [⟨w.now,function,executor⟩] }

lemma call_succ {depth : Nat} {function : ResourcePath} {l : List (Directive N)} {p : Point N}
    (h : programs function = some l) : call programs (depth+1) function p w =
      Directive.runAll (call programs depth) l p (w.begin function p.executor) := by
  simp only [call,h]
  rfl

end World
end RigPack
