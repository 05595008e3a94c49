import Mathlib.Algebra.BigOperators.Group.List.Basic
import Mathlib.Data.List.Basic
import Mathlib.Tactic

/-!
Pools of threads, each the list of the operations it has still to do, and what those operations
hold together. A step takes the first operation of one thread and may put others in its place.
-/
namespace HuluLandlord.Pool

variable {ω : Type*} {f : ω → Nat} {threads : List (List ω)} {t : Nat} {op : ω} {ops rest : List ω}

/-- What the operations of all threads hold. -/
def total (f : ω → Nat) (threads : List (List ω)) : Nat := (threads.map fun ops => (ops.map f).sum).sum

@[simp] theorem total_nil (f : ω → Nat) : total f [] = 0 := rfl

@[simp] theorem total_cons (f : ω → Nat) (ops : List ω) (threads : List (List ω)) :
    total f (ops :: threads) = (ops.map f).sum + total f threads := rfl

@[simp] theorem total_append (f : ω → Nat) (front back : List (List ω)) :
    total f (front ++ back) = total f front + total f back := by
  rw [total, List.map_append, List.sum_append]
  rfl

/-- The thread's first operation gives up what it holds to those that take its place. -/
theorem total_set (new : List ω) (here : threads[t]? = some (op :: rest)) :
    total f (threads.set t (new ++ rest)) + f op = total f threads + (new.map f).sum := by
  induction threads generalizing t with
  | nil => cases here
  | cons ops threads ih =>
      cases t with
      | zero =>
          obtain rfl := Option.some.inj here
          rw [List.set_cons_zero, total_cons, total_cons, List.map_append, List.sum_append, List.map_cons,
            List.sum_cons]
          omega
      | succ t =>
          have later := ih (List.getElem?_cons_succ ▸ here)
          rw [List.set_cons_succ, total_cons, total_cons]
          omega

/-- No operation holds more than all of them. -/
theorem le_total (mem : ops ∈ threads) (inside : op ∈ ops) : f op ≤ total f threads := by
  have own : f op ≤ (ops.map f).sum := List.single_le_sum (fun _ _ => Nat.zero_le _) _ (List.mem_map_of_mem inside)
  refine own.trans ?_
  exact List.single_le_sum (fun _ _ => Nat.zero_le _) _ (List.mem_map_of_mem mem)

theorem total_mono {g : ω → Nat} (le : ∀ op, f op ≤ g op) : total f threads ≤ total g threads := by
  induction threads with
  | nil => exact le_rfl
  | cons ops threads ih =>
      rw [total_cons, total_cons]
      refine Nat.add_le_add ?_ ih
      induction ops with
      | nil => exact le_rfl
      | cons op ops ih =>
          rw [List.map_cons, List.map_cons, List.sum_cons, List.sum_cons]
          exact Nat.add_le_add (le op) ih

end HuluLandlord.Pool
