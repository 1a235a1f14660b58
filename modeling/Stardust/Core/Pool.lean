import Mathlib.Data.List.Basic

/-!
# Pools of processes

A pool is a list of process states; a process is named by its position, which never
changes because new processes are appended. Moving one process changes a count of
processes by what the move itself gains and loses.
-/

namespace Stardust.Core

/-- The weight of one process state in a count. -/
def weight {α : Type*} (p : α → Bool) (a : α) : Nat := if p a then 1 else 0

/-- Moving the process at `i` exchanges its weight in every count. -/
theorem countP_set_add_weight {α : Type*} (p : α → Bool) {l : List α} {i : Nat} {old : α}
    (h : l[i]? = some old) (new : α) :
    (l.set i new).countP p + weight p old = l.countP p + weight p new := by
  induction l generalizing i with
  | nil => simp at h
  | cons a l ih =>
    cases i with
    | zero =>
      simp only [List.getElem?_cons_zero, Option.some.injEq] at h
      subst h
      simp only [List.set_cons_zero, List.countP_cons, weight]
      omega
    | succ i =>
      simp only [List.getElem?_cons_succ] at h
      have hi := ih h
      simp only [List.set_cons_succ, List.countP_cons, weight] at hi ⊢
      omega

/-- A new process adds its own weight. -/
theorem countP_concat {α : Type*} (p : α → Bool) (l : List α) (new : α) :
    (l ++ [new]).countP p = l.countP p + weight p new := by
  rw [List.countP_append, List.countP_singleton, weight]

end Stardust.Core
