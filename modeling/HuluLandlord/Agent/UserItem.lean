import Mathlib.Logic.Function.Basic
import Mathlib.Algebra.BigOperators.Group.List.Basic
import Mathlib.Tactic

/-!
The items of a user as `ma_useritem` keeps them. The three currencies are fields of
the user, every other item has a record once the user has had it. What a removal does
is the same for all of them, so it is written once over `find` and `setNum`. Listeners
of an update change no balance, and records, pushes and the database are left out.
-/
namespace HuluLandlord.Agent

abbrev ItemId := Nat

def itemDiamond : ItemId := 10001
def itemGold : ItemId := 10002
def itemLvExp : ItemId := 10007

/-- `unset` is the table's `-1`. -/
inductive ItemUseType
  | unset | default | use | autoUse | time | useAndTime
  deriving DecidableEq, Repr

/-- One batch of a `useAndTime` item. -/
structure TimedItem where
  num : Int
  endDt : Int
  gId : Nat
  deriving DecidableEq, Repr

structure UserItem where
  num : Int
  endDt : Option Int
  arr : List TimedItem
  deriving DecidableEq, Repr

structure Bag where
  gold : Int
  diamond : Int
  exp : Int
  userItem : ItemId → Option UserItem

/-- An entry `{id, num}` of an item list. -/
structure Entry where
  id : ItemId
  num : Int
  deriving DecidableEq, Repr

/-- The use types of `datax.items`; an id that is not in the table has none. -/
abbrev Items := ItemId → Option ItemUseType

namespace Bag
variable (items : Items) (now : Int)

/-- The balance a removal looks at; an item the user never had has none. -/
def find (b : Bag) (itemId : ItemId) : Option Int :=
  if itemId = itemGold then some b.gold
  else if itemId = itemDiamond then some b.diamond
  else if itemId = itemLvExp then some b.exp
  else (b.userItem itemId).map UserItem.num

def setNum (b : Bag) (itemId : ItemId) (num : Int) : Bag :=
  if itemId = itemGold then { b with gold := num }
  else if itemId = itemDiamond then { b with diamond := num }
  else if itemId = itemLvExp then { b with exp := num }
  else
    { b with
      userItem := Function.update b.userItem itemId
        ((b.userItem itemId).map fun uData => { uData with num := num }) }

/-- `ma_useritem.num`. -/
def num (b : Bag) (itemId : ItemId) : Int := (b.find itemId).getD 0

/-- `_remove`: the bag, the result and `nowNum`. -/
def _remove (b : Bag) (itemId : ItemId) (num : Int) : Bag × Bool × Int :=
  if num < 0 ∧ items itemId = some .time then (b, false, 0)
  else if num = 0 then (b, true, 0)
  else match b.find itemId with
    | some owned =>
        if owned ≥ num then (b.setNum itemId (owned - num), true, owned - num) else (b, false, 0)
    | none => (b, false, 0)

/-- `ma_useritem.remove`. -/
def remove (b : Bag) (itemId : ItemId) (num : Int) : Bag × Bool × Int := b._remove items itemId num

/-- One entry of `has`; a `time` item is only looked up by its end. -/
def hasEntry (b : Bag) (num : Int) (obj : Entry) : Bool :=
  let count := obj.num * num
  if count < 0 then false
  else match items obj.id with
    | none => false
    | some .time =>
        if obj.id = itemGold ∨ obj.id = itemDiamond ∨ obj.id = itemLvExp then 0 ≥ now
        else (b.userItem obj.id).any fun uData => uData.endDt.getD 0 ≥ now
    | some _ => count ≤ b.num obj.id

/-- `ma_useritem.has`. -/
def has (b : Bag) (itemArr : List Entry) (num : Int) : Bool :=
  itemArr.all (b.hasEntry items now (if num ≤ 0 then 1 else num))

/-- The loop of `removeList`; the results of the single removals are not looked at. -/
def removeEach (b : Bag) (itemArr : List Entry) (num : Int) : Bag :=
  itemArr.foldl (fun b obj => (b._remove items obj.id (obj.num * num)).1) b

/-- `ma_useritem.removeList`; no list at all is `none`. -/
def removeList (b : Bag) (itemArr : Option (List Entry)) (num : Int) : Bag × Bool :=
  match itemArr with
  | none => (b, false)
  | some itemArr =>
      if b.has items now itemArr num then (b.removeEach items itemArr num, true) else (b, false)

section Balances
variable {b : Bag} {itemId i : ItemId} {n owned : Int}

theorem find_setNum_self (found : b.find itemId = some owned) :
    (b.setNum itemId n).find itemId = some n := by
  simp only [find, setNum] at found ⊢
  split
  · rfl
  · rename_i gold
    rw [if_neg gold] at found
    split
    · rfl
    · rename_i diamond
      rw [if_neg diamond] at found
      split
      · rfl
      · rename_i exp
        rw [if_neg exp] at found
        obtain ⟨uData, has, _⟩ := Option.map_eq_some_iff.mp found
        simp [has]

theorem find_setNum_ne (other : i ≠ itemId) : (b.setNum itemId n).find i = b.find i := by
  by_cases gold : itemId = itemGold
  · subst gold
    simp [find, setNum, other]
  by_cases diamond : itemId = itemDiamond
  · subst diamond
    simp [find, setNum, other, gold]
  by_cases exp : itemId = itemLvExp
  · subst exp
    simp [find, setNum, other, gold, diamond]
  · simp [find, setNum, other, gold, diamond, exp]

/-- A removal that is covered takes exactly what it is asked for. -/
theorem num_remove (positive : 0 ≤ n) (covered : n ≤ b.num itemId) (i : ItemId) :
    (b._remove items itemId n).1.num i = b.num i - if i = itemId then n else 0 := by
  have notNegative : ¬(n < 0 ∧ items itemId = some .time) := fun both => absurd both.1 (by omega)
  rw [_remove, if_neg notNegative]
  by_cases zero : n = 0
  · simp [zero]
  rw [if_neg zero]
  cases found : b.find itemId with
  | none =>
      simp only [num, found, Option.getD_none] at covered
      omega
  | some owned =>
      have enough : owned ≥ n := by simpa [num, found] using covered
      simp only [enough, if_true]
      by_cases here : i = itemId
      · subst here
        simp [num, find_setNum_self found, found]
      · simp [num, find_setNum_ne here, here]

/-- A removal that succeeds takes what it is asked for. -/
theorem num_removed {b' : Bag} {k : Int} (removed : b.remove items itemId n = (b', true, k))
    (nonneg : 0 ≤ n) (i : ItemId) : b'.num i = b.num i - if i = itemId then n else 0 := by
  have covered : n = 0 ∨ n ≤ b.num itemId := by
    by_contra short
    rw [not_or, not_le] at short
    have notNegative : ¬(n < 0 ∧ items itemId = some .time) := fun both => absurd both.1 (by omega)
    rw [remove, _remove, if_neg notNegative, if_neg short.1] at removed
    simp only [num] at short
    cases found : b.find itemId with
    | none => simp [found] at removed
    | some owned =>
        simp only [found, Option.getD_some] at short removed
        rw [if_neg (by omega)] at removed
        cases removed
  obtain rfl | covered := covered
  · have same : b.remove items itemId 0 = (b, true, 0) := by simp [remove, _remove]
    obtain rfl := congrArg Prod.fst (removed.symm.trans same)
    simp
  · have taken := @num_remove items b itemId n nonneg covered i
    rw [← taken, ← remove, removed]

end Balances

end Bag

/-- The quantities a list names for one id, together. -/
def total (list : List Entry) (id : ItemId) : Int :=
  ((list.filter fun e => e.id = id).map Entry.num).sum

@[simp] theorem total_nil (id : ItemId) : total [] id = 0 := rfl

theorem total_cons (e : Entry) (list : List Entry) (id : ItemId) :
    total (e :: list) id = (if e.id = id then e.num else 0) + total list id := by
  by_cases here : e.id = id
  · simp [total, here]
  · simp [total, here]

theorem total_nonneg {list : List Entry} (nonneg : ∀ e ∈ list, 0 ≤ e.num) (id : ItemId) :
    0 ≤ total list id := by
  induction list with
  | nil => exact le_refl 0
  | cons e list ih =>
      have rest := ih fun e mem => nonneg e (List.mem_cons_of_mem _ mem)
      have head := nonneg e List.mem_cons_self
      rw [total_cons]
      split <;> omega

theorem total_of_not_mem {list : List Entry} {id : ItemId} (absent : ∀ e ∈ list, e.id ≠ id) :
    total list id = 0 := by
  induction list with
  | nil => rfl
  | cons e list ih =>
      rw [total_cons, if_neg (absent e List.mem_cons_self),
        ih fun e mem => absent e (List.mem_cons_of_mem _ mem), add_zero]

theorem le_total {list : List Entry} (nonneg : ∀ e ∈ list, 0 ≤ e.num) {e : Entry}
    (mem : e ∈ list) : e.num ≤ total list e.id := by
  induction list with
  | nil => exact absurd mem List.not_mem_nil
  | cons f list ih =>
      have rest : ∀ e ∈ list, 0 ≤ e.num := fun e mem => nonneg e (List.mem_cons_of_mem _ mem)
      have head := nonneg f List.mem_cons_self
      rw [total_cons]
      obtain rfl | mem := List.mem_cons.mp mem
      · have := total_nonneg rest e.id
        rw [if_pos rfl]
        omega
      · have := ih rest mem
        split <;> omega

/-- A list that passes the check has no negative quantity. -/
theorem Bag.has_nonneg {items : Items} {now : Int} {b : Bag} {list : List Entry}
    (passes : b.has items now list 1 = true) : ∀ e ∈ list, 0 ≤ e.num := by
  intro e mem
  have entry := List.all_eq_true.mp passes e mem
  by_contra negative
  simp [hasEntry, not_le.mp negative] at entry

/-- A list of plain items: listed in the table, not of use type `time`, no quantity
negative. -/
def Plain (items : Items) (list : List Entry) : Prop :=
  ∀ e ∈ list, (∃ type, items e.id = some type ∧ type ≠ .time) ∧ 0 ≤ e.num

/-- All or nothing: the list is removed when the totals are covered. -/
structure RemovesAll (b : Bag) (list : List Entry) (n : Int) (result : Bag × Bool) : Prop where
  succeeds : result.2 = true ↔ ∀ e ∈ list, total list e.id * n ≤ b.num e.id
  removed : result.2 = true → ∀ id, result.1.num id = b.num id - total list id * n
  kept : result.2 = false → ∀ id, result.1.num id = b.num id

/-- Every entry alone is covered, but not all entries of some id together. -/
def Overdrawn (b : Bag) (list : List Entry) (n : Int) : Prop :=
  (∀ e ∈ list, e.num * n ≤ b.num e.id) ∧ ∃ e ∈ list, b.num e.id < total list e.id * n

section RemoveList
variable {items : Items} {now n : Int} {b : Bag} {list : List Entry}

theorem has_plain (positive : 1 ≤ n) (plain : Plain items list) :
    b.has items now list n = true ↔ ∀ e ∈ list, e.num * n ≤ b.num e.id := by
  have given : ¬n ≤ 0 := by omega
  rw [Bag.has, if_neg given, List.all_eq_true]
  refine forall₂_congr fun e mem => ?_
  obtain ⟨⟨type, listed, timeless⟩, nonneg⟩ := plain e mem
  have count : ¬e.num * n < 0 := not_lt.mpr (mul_nonneg nonneg (by omega))
  simp only [Bag.hasEntry, count, if_false, listed]
  cases type with
  | time => exact absurd rfl timeless
  | _ => simp

/-- Covered totals are removed entry by entry. -/
theorem num_removeEach (positive : 1 ≤ n) (amounts : ∀ e ∈ list, 0 ≤ e.num)
    (covered : ∀ e ∈ list, total list e.id * n ≤ b.num e.id) (id : ItemId) :
    (b.removeEach items list n).num id = b.num id - total list id * n := by
  induction list generalizing b with
  | nil => simp [Bag.removeEach]
  | cons e list ih =>
      have rest : ∀ e ∈ list, 0 ≤ e.num := fun e mem => amounts e (List.mem_cons_of_mem _ mem)
      have nonneg : 0 ≤ total list e.id := total_nonneg rest e.id
      have head := amounts e List.mem_cons_self
      have all := covered e List.mem_cons_self
      rw [total_cons, if_pos rfl, add_mul] at all
      have tail : 0 ≤ total list e.id * n := mul_nonneg nonneg (by omega)
      have first := @Bag.num_remove items b e.id (e.num * n) (mul_nonneg head (by omega)) (by omega)
      have step := @ih (b._remove items e.id (e.num * n)).1 rest (by
        intro f mem
        have room := covered f (List.mem_cons_of_mem _ mem)
        rw [total_cons, add_mul] at room
        rw [first]
        by_cases same : e.id = f.id
        · rw [if_pos same] at room
          rw [if_pos same.symm]
          omega
        · rw [if_neg same] at room
          rw [if_neg (Ne.symm same)]
          omega)
      rw [Bag.removeEach, List.foldl_cons, ← Bag.removeEach, step, first, total_cons, add_mul]
      by_cases same : e.id = id
      · rw [if_pos same, if_pos same.symm]
        omega
      · rw [if_neg same, if_neg (Ne.symm same)]
        omega

/-- A list that names no item twice is removed as a whole when it is removed. -/
theorem num_removeList (positive : 1 ≤ n) (plain : Plain items list)
    (single : ∀ e ∈ list, total list e.id = e.num) (paid : (b.removeList items now (some list) n).2 = true)
    (id : ItemId) : (b.removeList items now (some list) n).1.num id = b.num id - total list id * n := by
  simp only [Bag.removeList] at paid ⊢
  split at paid
  · rename_i found
    have alone := (has_plain positive plain).mp found
    have covered : ∀ e ∈ list, total list e.id * n ≤ b.num e.id := fun e mem => single e mem ▸ alone e mem
    rw [if_pos found]
    exact num_removeEach positive (fun e mem => (plain e mem).2) covered id
  · cases paid

/-- The list is removed all or nothing exactly when it is not overdrawn. -/
theorem removeList_iff (b : Bag) (list : List Entry) (now n : Int) (positive : 1 ≤ n)
    (plain : Plain items list) :
    RemovesAll b list n (b.removeList items now (some list) n) ↔ ¬Overdrawn b list n := by
  have nonneg : ∀ e ∈ list, 0 ≤ e.num := fun e mem => (plain e mem).2
  have each : (∀ e ∈ list, total list e.id * n ≤ b.num e.id) →
      ∀ e ∈ list, e.num * n ≤ b.num e.id := fun covered e mem =>
    (mul_le_mul_of_nonneg_right (le_total nonneg mem) (by omega)).trans (covered e mem)
  constructor
  · intro holds overdrawn
    obtain ⟨alone, e, mem, short⟩ := overdrawn
    have done : (b.removeList items now (some list) n).2 = true := by
      simp [Bag.removeList, (has_plain positive plain).mpr alone]
    exact absurd (holds.succeeds.mp done e mem) (not_le.mpr short)
  · intro sound
    by_cases alone : ∀ e ∈ list, e.num * n ≤ b.num e.id
    · have covered : ∀ e ∈ list, total list e.id * n ≤ b.num e.id := by
        intro e mem
        by_contra short
        exact sound ⟨alone, e, mem, not_le.mp short⟩
      have done : b.removeList items now (some list) n = (b.removeEach items list n, true) := by
        simp [Bag.removeList, (has_plain positive plain).mpr alone]
      rw [done]
      exact ⟨⟨fun _ => covered, fun _ => rfl⟩, fun _ => num_removeEach positive nonneg covered, nofun⟩
    · have refused : b.removeList items now (some list) n = (b, false) := by
        simp only [Bag.removeList]
        rw [if_neg fun found => alone ((has_plain positive plain).mp found)]
      rw [refused]
      exact ⟨⟨nofun, fun covered => absurd (each covered) alone⟩, nofun, fun _ _ => rfl⟩

/-- A bag that holds only `num` of one item. -/
def bagOf (itemId : ItemId) (num : Int) : Bag :=
  ⟨0, 0, 0, Function.update (fun _ => none) itemId (some ⟨num, none, []⟩)⟩

theorem removeList_covered :
    1 ≤ (2 : Int) ∧ Plain (fun _ => some .unset) [⟨205004, 1⟩, ⟨205004, 1⟩] ∧
      (RemovesAll (bagOf 205004 5) [⟨205004, 1⟩, ⟨205004, 1⟩] 2
        ((bagOf 205004 5).removeList (fun _ => some .unset) 0
          (some [⟨205004, 1⟩, ⟨205004, 1⟩]) 2) ↔
        ¬Overdrawn (bagOf 205004 5) [⟨205004, 1⟩, ⟨205004, 1⟩] 2) := by
  have plain : Plain (fun _ => some .unset) [⟨205004, 1⟩, ⟨205004, 1⟩] :=
    fun e mem => ⟨⟨.unset, rfl, nofun⟩, by simp at mem; simp [mem]⟩
  exact ⟨by decide, plain, removeList_iff (bagOf 205004 5) _ 0 2 (by decide) plain⟩

/-- Five of an item, and a list that asks for three of it twice. -/
theorem removeList_overdraws :
    ¬ ∀ (items : Items) (b : Bag) (list : List Entry) (now n : Int), 1 ≤ n → Plain items list →
      RemovesAll b list n (b.removeList items now (some list) n) := by
  intro all
  have plain : Plain (fun _ => some .unset) [⟨205004, 3⟩, ⟨205004, 3⟩] :=
    fun e mem => ⟨⟨.unset, rfl, nofun⟩, by simp at mem; simp [mem]⟩
  have holds := all (fun _ => some .unset) (bagOf 205004 5) _ 0 1 (by decide) plain
  have done : ((bagOf 205004 5).removeList (fun _ => some .unset) 0
      (some [⟨205004, 3⟩, ⟨205004, 3⟩]) 1).2 = true := by decide
  exact absurd (holds.succeeds.mp done ⟨205004, 3⟩ (by decide)) (by decide)

end RemoveList

end HuluLandlord.Agent
