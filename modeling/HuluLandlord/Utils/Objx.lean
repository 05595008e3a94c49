import Mathlib.Algebra.BigOperators.Group.List.Basic
import Mathlib.Order.Interval.Finset.Nat
import Mathlib.Tactic

/-!
The choice by weight. A number is drawn up to the sum of the weights and walked down the list;
element `i` owns the numbers after the weights before it, as many as it weighs.
-/
namespace HuluLandlord.Objx

section Chance
variable {α : Type*} (selector : α → Nat)

/-- The sum of the weights, or one where there is none; a caller may give its own. -/
def chanceSum (weightSum : Option Nat) (arr : List α) : Nat :=
  weightSum.getD (if (arr.map selector).sum ≤ 0 then 1 else (arr.map selector).sum)

def chanceIndexFrom : Nat → Nat → List α → Int
  | _, _, [] => -1
  | index, num, value :: arr =>
      if num ≤ selector value then index
      else chanceIndexFrom (index + 1) (num - selector value) arr

/-- `random n` is what `math.random(1, n)` gives. -/
def getChanceIndex (weightSum : Option Nat) (random : Nat → Nat) (arr : List α) : Int :=
  if arr.isEmpty then -1
  else chanceIndexFrom selector 1 (random (chanceSum selector weightSum arr)) arr

def chanceFrom : Nat → List α → Option α
  | _, [] => none
  | num, value :: obj =>
      if num ≤ selector value then some value else chanceFrom (num - selector value) obj

/-- The values of the table are those of `obj`, in the order of `pairs`. -/
def getChance (weightSum : Option Nat) (random : Nat → Nat) (obj : List α) : Option α :=
  if obj.isEmpty then none
  else chanceFrom selector (random (chanceSum selector weightSum obj)) obj

/-- The numbers of element `i`. -/
def owned (arr : List α) (i : Nat) : Finset Nat :=
  Finset.Ioc ((arr.take i).map selector).sum ((arr.take (i + 1)).map selector).sum

variable {selector} {weightSum : Option Nat} {arr obj : List α} {value : α} {num index i r : Nat}

theorem card_owned (within : i < arr.length) :
    (owned selector arr i).card = selector arr[i] := by
  rw [owned, Nat.card_Ioc, List.take_add_one, List.getElem?_eq_getElem within, List.map_append,
    List.sum_append, Nat.add_sub_cancel_left]
  exact List.sum_singleton

theorem weight_owner (within : i < arr.length) (owns : num ∈ owned selector arr i) :
    0 < selector arr[i] := by
  have counted := @card_owned _ selector arr i within
  exact counted ▸ Finset.card_pos.mpr ⟨num, owns⟩

theorem owned_zero : owned selector (value :: arr) 0 = Finset.Ioc 0 (selector value) := by
  simp [owned]

theorem mem_owned_succ : num ∈ owned selector (value :: arr) (i + 1) ↔
    selector value < num ∧ num - selector value ∈ owned selector arr i := by
  simp only [owned, Finset.mem_Ioc, List.take_succ_cons, List.map_cons, List.sum_cons]
  omega

theorem owned_le (mem : num ∈ owned selector arr i) : num ≤ (arr.map selector).sum := by
  rw [owned, Finset.mem_Ioc] at mem
  refine mem.2.trans ?_
  conv_rhs => rw [← List.take_append_drop (i + 1) arr, List.map_append, List.sum_append]
  exact Nat.le_add_right _ _

/-- Every number up to the sum has one owner, whose index and value are found. -/
theorem chance_owner (least : 0 < num) (most : num ≤ (arr.map selector).sum) :
    ∃ i, ∃ within : i < arr.length, num ∈ owned selector arr i ∧
      chanceIndexFrom selector index num arr = (index + i : Nat) ∧
        chanceFrom selector num arr = some arr[i] := by
  induction arr generalizing num index with
  | nil => exact absurd most (not_le.mpr least)
  | cons value arr ih =>
      rw [chanceIndexFrom, chanceFrom]
      split
      · rename_i within
        refine ⟨0, Nat.succ_pos _, ?_, rfl, rfl⟩
        rw [owned_zero, Finset.mem_Ioc]
        exact ⟨least, within⟩
      · rename_i beyond
        rw [List.map_cons, List.sum_cons] at most
        obtain ⟨i, within, owns, found, picked⟩ :=
          @ih (num - selector value) (index + 1) (by omega) (by omega)
        refine ⟨i + 1, Nat.succ_lt_succ within, mem_owned_succ.mpr ⟨not_le.mp beyond, owns⟩, ?_,
          picked⟩
        rw [found]
        congr 1
        omega

theorem owner_unique {j : Nat} (mine : num ∈ owned selector arr i)
    (yours : num ∈ owned selector arr j) : i = j := by
  induction arr generalizing num i j with
  | nil => simp [owned] at mine
  | cons value arr ih =>
      cases i with
      | zero =>
          rw [owned_zero, Finset.mem_Ioc] at mine
          cases j with
          | zero => rfl
          | succ j => exact absurd (mem_owned_succ.mp yours).1 (not_lt.mpr mine.2)
      | succ i =>
          obtain ⟨beyond, mine⟩ := mem_owned_succ.mp mine
          cases j with
          | zero =>
              rw [owned_zero, Finset.mem_Ioc] at yours
              exact absurd beyond (not_lt.mpr yours.2)
          | succ j => rw [ih mine (mem_owned_succ.mp yours).2]

theorem chanceSum_whole (positive : 0 < (arr.map selector).sum)
    (given : ∀ w ∈ weightSum, w = (arr.map selector).sum) :
    chanceSum selector weightSum arr = (arr.map selector).sum := by
  cases weightSum with
  | none => exact if_neg (not_le.mpr positive)
  | some w => exact given w rfl

theorem getChanceIndex_owner (mem : r ∈ Finset.Icc 1 (arr.map selector).sum) :
    ∃ i, ∃ within : i < arr.length, r ∈ owned selector arr i ∧
      getChanceIndex selector weightSum (fun _ => r) arr = (i + 1 : Nat) ∧
        getChance selector weightSum (fun _ => r) arr = some arr[i] := by
  rw [Finset.mem_Icc] at mem
  obtain ⟨i, within, owns, found, picked⟩ := @chance_owner _ selector arr r 1 mem.1 mem.2
  have filled : arr.isEmpty = false := by
    cases arr with
    | nil => cases within
    | cons => rfl
  refine ⟨i, within, owns, ?_, ?_⟩
  · rw [getChanceIndex, filled, if_neg Bool.false_ne_true, found, Nat.add_comm]
  · rw [getChance, filled, if_neg Bool.false_ne_true, picked]

/-- The numbers that select an element are its own. -/
theorem filter_getChanceIndex (i : Nat) :
    ((Finset.Icc 1 (arr.map selector).sum).filter fun r =>
      getChanceIndex selector weightSum (fun _ => r) arr = (i + 1 : Nat)) =
        owned selector arr i := by
  ext r
  rw [Finset.mem_filter]
  constructor
  · rintro ⟨drawn, found⟩
    obtain ⟨j, _, owns, index, _⟩ := @getChanceIndex_owner _ selector weightSum arr r drawn
    have same : j = i := by
      rw [index] at found
      exact Nat.succ.inj (Int.ofNat.inj found)
    exact same ▸ owns
  · intro owns
    have drawn : r ∈ Finset.Icc 1 (arr.map selector).sum :=
      Finset.mem_Icc.mpr ⟨(Nat.zero_le _).trans_lt (Finset.mem_Ioc.mp owns).1, owned_le owns⟩
    obtain ⟨j, _, other, index, _⟩ := @getChanceIndex_owner _ selector weightSum arr r drawn
    exact ⟨drawn, owner_unique other owns ▸ index⟩

theorem getChance_from (mem : r ∈ Finset.Icc 1 (obj.map selector).sum) :
    getChance selector weightSum (fun _ => r) obj = chanceFrom selector r obj := by
  cases obj with
  | nil => rfl
  | cons value obj => rfl

section Values
variable [DecidableEq α]

/-- One after another the elements with a value take as many numbers as they weigh. -/
theorem count_chanceFrom (value : α) :
    (∑ r ∈ Finset.range (obj.map selector).sum,
      if chanceFrom selector (r + 1) obj = some value then 1 else 0) =
        ((obj.filter (· = value)).map selector).sum := by
  induction obj with
  | nil => rfl
  | cons first obj ih =>
      rw [List.map_cons, List.sum_cons, Finset.sum_range_add]
      have own : ∀ r ∈ Finset.range (selector first),
          chanceFrom selector (r + 1) (first :: obj) = some first := fun r mem =>
        if_pos (Finset.mem_range.mp mem)
      have others : ∀ r, chanceFrom selector (selector first + r + 1) (first :: obj) =
          chanceFrom selector (r + 1) obj := by
        intro r
        rw [chanceFrom, if_neg (by omega)]
        congr 1
        omega
      simp only [others, ih]
      by_cases here : first = value
      · rw [List.filter_cons_of_pos (by simpa using here), List.map_cons, List.sum_cons,
          Finset.sum_congr rfl fun r mem => if_pos ((own r mem).trans (congrArg some here))]
        simp
      · rw [List.filter_cons_of_neg (by simpa using here),
          Finset.sum_congr rfl fun r mem =>
            if_neg fun found => here (Option.some.inj ((own r mem).symm.trans found))]
        simp

theorem card_getChance (value : α) :
    ((Finset.Icc 1 (obj.map selector).sum).filter fun r =>
      getChance selector weightSum (fun _ => r) obj = some value).card =
        ((obj.filter (· = value)).map selector).sum := by
  have shifted : Finset.Icc 1 (obj.map selector).sum =
      Finset.Ico (0 + 1) ((obj.map selector).sum + 1) := by
    ext r
    rw [Finset.mem_Icc, Finset.mem_Ico]
    omega
  rw [Finset.filter_congr fun r mem => by rw [getChance_from mem], Finset.card_filter, shifted,
    ← Finset.sum_Ico_add' (fun r => if chanceFrom selector r obj = some value then 1 else 0),
    ← Finset.range_eq_Ico]
  exact count_chanceFrom value

/-- Each element is selected by as many numbers as it weighs, whatever order `pairs` takes. -/
theorem getChance_selects (selector : α → Nat) (arr : List α) (weightSum : Option Nat)
    (positive : 0 < (arr.map selector).sum)
    (given : ∀ w ∈ weightSum, w = (arr.map selector).sum) :
    chanceSum selector weightSum arr = (arr.map selector).sum ∧
    (∀ i, ∀ within : i < arr.length,
      ((Finset.Icc 1 (arr.map selector).sum).filter fun r =>
        getChanceIndex selector weightSum (fun _ => r) arr = (i + 1 : Nat)).card =
          selector arr[i]) ∧
    (∀ r ∈ Finset.Icc 1 (arr.map selector).sum, ∃ i, ∃ within : i < arr.length,
      getChanceIndex selector weightSum (fun _ => r) arr = (i + 1 : Nat) ∧
        0 < selector arr[i]) ∧
    ∀ obj, obj.Perm arr →
      (∀ value, ((Finset.Icc 1 (arr.map selector).sum).filter fun r =>
        getChance selector weightSum (fun _ => r) obj = some value).card =
          ((arr.filter (· = value)).map selector).sum) ∧
      ∀ r ∈ Finset.Icc 1 (arr.map selector).sum, ∃ value ∈ arr,
        getChance selector weightSum (fun _ => r) obj = some value ∧ 0 < selector value := by
  refine ⟨chanceSum_whole positive given, fun i within => ?_, fun r drawn => ?_,
    fun obj perm => ⟨fun value => ?_, fun r drawn => ?_⟩⟩
  · rw [filter_getChanceIndex i, card_owned within]
  · obtain ⟨i, within, owns, index, _⟩ := getChanceIndex_owner drawn
    exact ⟨i, within, index, weight_owner within owns⟩
  · rw [← (perm.map selector).sum_eq, card_getChance value,
      ((perm.filter fun x => x = value).map selector).sum_eq]
  · rw [← (perm.map selector).sum_eq] at drawn
    obtain ⟨i, within, owns, _, picked⟩ := getChanceIndex_owner drawn
    exact ⟨obj[i], perm.mem_iff.mp (List.getElem_mem within), picked, weight_owner within owns⟩

theorem getChance_selects_third :
    getChanceIndex id none (fun _ => 3) [2, 0, 1] = 3 ∧
      ((Finset.Icc 1 3).filter fun r =>
        getChanceIndex id none (fun _ => r) [2, 0, 1] = (1 : Nat)).card = 2 :=
  ⟨rfl, (getChance_selects id [2, 0, 1] none (by decide) nofun).2.1 0 (by decide)⟩

end Values

end Chance

end HuluLandlord.Objx
