import Mathlib.Algebra.BigOperators.Group.Multiset.Basic
import Mathlib.Algebra.BigOperators.Group.Finset.Basic
import Mathlib.Data.List.Perm.Basic
import Mathlib.Tactic

/-!
List edits that only move elements: exchanging two positions, moving one element
to another position, and any fold of such edits. Each yields a permutation of
the list it started from, whatever positions are drawn. What is dealt out of a list
to several hands is counted over them.
-/
namespace HuluLandlord.Shuffle
variable {α β : Type*}

/-- Exchange two positions; a missing one leaves the list as it is. -/
def swapAt (xs : List α) (i j : Nat) : List α :=
  match xs[i]?, xs[j]? with
  | some a, some b => (xs.set i b).set j a
  | _, _ => xs

/-- Take the element at position `k` out and put it back at position `j`. -/
def moveTo (xs : List α) (k j : Nat) : List α :=
  match xs[k]? with
  | some a => if j < xs.length then (xs.eraseIdx k).insertIdx j a else xs
  | none => xs

/-- Exchange every position with the one drawn for it. -/
def randsort (xs : List α) (draws : List Nat) : List α :=
  ((List.range xs.length).zip draws).foldl (fun xs ij => swapAt xs ij.1 ij.2) xs

theorem swapAt_perm (xs : List α) (i j : Nat) : (swapAt xs i j).Perm xs := by
  simp only [swapAt]
  split
  · rename_i a b hi hj
    obtain ⟨li, rfl⟩ := List.getElem?_eq_some_iff.mp hi
    obtain ⟨lj, rfl⟩ := List.getElem?_eq_some_iff.mp hj
    exact List.set_set_perm li lj
  · exact .refl _

theorem moveTo_perm (xs : List α) (k j : Nat) : (moveTo xs k j).Perm xs := by
  simp only [moveTo]
  split
  · rename_i a ha
    obtain ⟨lk, rfl⟩ := List.getElem?_eq_some_iff.mp ha
    split
    · rename_i inside
      have short : j ≤ (xs.eraseIdx k).length := by
        rw [List.length_eraseIdx_of_lt lk]
        omega
      exact (List.perm_insertIdx _ _ short).trans (List.getElem_cons_eraseIdx_perm lk)
    · exact .refl _
  · exact .refl _

theorem foldl_perm (edit : List α → β → List α) (moves : ∀ xs b, (edit xs b).Perm xs)
    (bs : List β) (xs : List α) : (bs.foldl edit xs).Perm xs := by
  induction bs generalizing xs with
  | nil => exact .refl xs
  | cons b bs ih => exact (ih _).trans (moves xs b)

theorem randsort_perm (xs : List α) (draws : List Nat) : (randsort xs draws).Perm xs :=
  foldl_perm (fun ys (ij : Nat × Nat) => swapAt ys ij.1 ij.2)
    (fun ys ij => swapAt_perm ys ij.1 ij.2) _ xs

/-- How changing one hand changes what all of them hold. -/
theorem sum_update {ι M : Type*} [Fintype ι] [DecidableEq ι] [AddCommMonoid M] (g : α → M)
    (hands : ι → α) (p : ι) (hand : α) :
    (∑ q, g (Function.update hands p hand q)) + g (hands p) = (∑ q, g (hands q)) + g hand := by
  have same : (fun q => g (Function.update hands p hand q)) =
      Function.update (fun q => g (hands q)) p (g hand) := by
    funext q
    exact Function.apply_update (fun _ => g) hands p hand q
  rw [same, Finset.sum_update_of_mem (Finset.mem_univ p),
    ← Finset.add_sum_erase _ (fun q => g (hands q)) (Finset.mem_univ p),
    Finset.sdiff_singleton_eq_erase]
  abel

/-- The elements of some of the classes are no more than all. -/
theorem sum_countP_le [DecidableEq β] (f : α → β) (s : Finset β) (xs : Multiset α) :
    (∑ v ∈ s, xs.countP fun x => f x = v) ≤ xs.card := by
  induction xs using Multiset.induction with
  | empty => simp
  | cons x xs ih =>
      simp only [Multiset.countP_cons, Finset.sum_add_distrib, Finset.sum_ite_eq,
        Multiset.card_cons]
      split
      · omega
      · omega

end HuluLandlord.Shuffle
