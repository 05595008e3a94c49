import HuluLandlord.Agent.UserItem

/-!
The removals that the room services ask of a user's agent. With `isSure` the quantity is
cut to what is owned, so that a charge cannot fail. An entry of a list has the fields `id`
and `num`; the field `itemId` that the loop over the list reads is in none.
-/
namespace HuluLandlord.Agent

/-- The field `itemId` of an entry. -/
def Entry.itemId (_ : Entry) : Option ItemId := none

namespace Bag
variable (items : Items) (now : Int)

/-- `ma_useritem.num` where the id may be missing: nothing is kept under `nil`. -/
def numAt (b : Bag) : Option ItemId → Int
  | some itemId => b.num itemId
  | none => 0

/-- `CMD.UserItemRemove`. -/
def UserItemRemove (b : Bag) (itemId : ItemId) (num : Int) (isSure : Bool) : Bag × Bool × Int :=
  let curNum := b.num itemId
  b.remove items itemId (if isSure ∧ curNum < num then curNum else num)

/-- One turn of the loop of `UserItemRemoveList`: `obj.num` is overwritten. -/
def sureEntry (b : Bag) (num : Int) (obj : Entry) : Entry :=
  let itemNum := obj.num * num
  let curNum := b.numAt obj.itemId
  { obj with num := if curNum < itemNum then curNum else itemNum }

/-- `CMD.UserItemRemoveList`; without a list the loop raises. -/
def UserItemRemoveList (b : Bag) (itemArr : Option (List Entry)) (num : Int) (isSure : Bool) :
    Option (Bag × Bool) :=
  if isSure then itemArr.map fun itemArr =>
    b.removeList items now (some (itemArr.map (b.sureEntry num))) 1
  else some (b.removeList items now itemArr 1)

end Bag

/-- What the command is for: `num` times the list, all or nothing; with `isSure` of each
listed item as much of it as is owned. -/
def RemovesTimes (b : Bag) (list : List Entry) (num : Int) :
    (isSure : Bool) → Option (Bag × Bool) → Prop
  | _, none => False
  | false, some result => RemovesAll b list num result
  | true, some result => ∀ id, result.1.num id =
      b.num id - if ∃ e ∈ list, e.id = id then min (b.num id) (total list id * num) else 0

/-- When the command does that: the list is checked and removed once, whatever `num`, and
with `isSure` nothing is removed. -/
def RemovedOnce (items : Items) (now : Int) (b : Bag) (list : List Entry) (num : Int)
    (isSure : Bool) : Prop :=
  if isSure then ∀ e ∈ list, min (b.num e.id) (total list e.id * num) = 0
  else if b.has items now list 1 then
    (∀ e ∈ list, total list e.id * num ≤ b.num e.id) ∧ (num = 1 ∨ ∀ e ∈ list, e.num = 0)
  else ∃ e ∈ list, b.num e.id < total list e.id * num

section
variable {items : Items} {now num : Int} {b : Bag} {list : List Entry}

/-- The removal of one item cuts the quantity as it should. -/
theorem userItemRemove_sure (nonneg : 0 ≤ num) (itemId : ItemId) (owned : 0 ≤ b.num itemId)
    (i : ItemId) : (b.UserItemRemove items itemId num true).1.num i =
      b.num i - if i = itemId then min (b.num itemId) num else 0 := by
  have cut : (if true = true ∧ b.num itemId < num then b.num itemId else num) =
      min (b.num itemId) num := by
    by_cases short : b.num itemId < num
    · simp [short, short.le]
    · simp [short, not_lt.mp short]
  rw [Bag.UserItemRemove, cut]
  exact Bag.num_remove items (le_min owned nonneg) (min_le_left _ _) i

/-- Of entries without quantity nothing is removed. -/
theorem removeEach_zero (zero : ∀ e ∈ list, e.num = 0) : b.removeEach items list 1 = b := by
  induction list with
  | nil => rfl
  | cons e list ih =>
      have head : (b._remove items e.id (e.num * 1)).1 = b := by
        simp [Bag._remove, zero e List.mem_cons_self]
      rw [Bag.removeEach, List.foldl_cons, head]
      exact ih fun e mem => zero e (List.mem_cons_of_mem _ mem)

theorem sureEntry_num (e : Entry) : (b.sureEntry num e).num ≤ 0 := by
  simp only [Bag.sureEntry, Entry.itemId, Bag.numAt]
  by_cases wanted : 0 < e.num * num
  · simp [wanted]
  · simp [wanted, not_lt.mp wanted]

/-- With `isSure` every entry comes out without quantity or is refused. -/
theorem removeList_sure :
    (b.removeList items now (some (list.map (b.sureEntry num))) 1).1 = b := by
  simp only [Bag.removeList]
  split
  · rename_i passes
    apply removeEach_zero
    intro e mem
    have nonneg := Bag.has_nonneg passes e mem
    obtain ⟨e, _, rfl⟩ := List.mem_map.mp mem
    exact le_antisymm (sureEntry_num e) nonneg
  · rfl

theorem removesTimes_sure :
    RemovesTimes b list num true (b.UserItemRemoveList items now (some list) num true) ↔
      ∀ e ∈ list, min (b.num e.id) (total list e.id * num) = 0 := by
  simp only [Bag.UserItemRemoveList, if_true, Option.map_some, RemovesTimes, removeList_sure]
  constructor
  · intro removes e mem
    have taken := removes e.id
    rw [if_pos ⟨e, mem, rfl⟩] at taken
    omega
  · intro nothing id
    split
    · rename_i listed
      obtain ⟨e, mem, rfl⟩ := listed
      rw [nothing e mem, sub_zero]
    · rw [sub_zero]

/-- Nothing listed more than once over: the totals are what they are multiplied to. -/
theorem total_once (nonneg : ∀ e ∈ list, 0 ≤ e.num) :
    (∀ id, total list id = total list id * num) ↔ num = 1 ∨ ∀ e ∈ list, e.num = 0 := by
  constructor
  · intro same
    by_cases once : num = 1
    · exact .inl once
    · refine .inr fun e mem => ?_
      have empty : total list e.id = 0 := by
        have fixed : total list e.id * (num - 1) = 0 := by
          have := same e.id
          rw [mul_sub, mul_one, ← this, sub_self]
        exact (mul_eq_zero.mp fixed).resolve_right (by omega)
      have bound := le_total nonneg mem
      have := nonneg e mem
      omega
  · rintro (once | zero) id
    · rw [once, mul_one]
    · have empty : total list id = 0 := by
        rw [total, List.sum_eq_zero]
        intro n mem
        obtain ⟨e, found, rfl⟩ := List.mem_map.mp mem
        exact zero e (List.mem_of_mem_filter found)
      rw [empty, zero_mul]

theorem removesTimes_list (positive : 1 ≤ num) :
    RemovesTimes b list num false (b.UserItemRemoveList items now (some list) num false) ↔
      if b.has items now list 1 then
        (∀ e ∈ list, total list e.id * num ≤ b.num e.id) ∧ (num = 1 ∨ ∀ e ∈ list, e.num = 0)
      else ∃ e ∈ list, b.num e.id < total list e.id * num := by
  simp only [Bag.UserItemRemoveList, Bool.false_eq_true, if_false, RemovesTimes, Bag.removeList]
  split
  · rename_i passes
    have nonneg := Bag.has_nonneg passes
    have removed (covered : ∀ e ∈ list, total list e.id * num ≤ b.num e.id) (id : ItemId) :
        (b.removeEach items list 1).num id = b.num id - total list id := by
      have once : ∀ e ∈ list, total list e.id * 1 ≤ b.num e.id := by
        intro e mem
        have more : total list e.id * 1 ≤ total list e.id * num :=
          mul_le_mul_of_nonneg_left positive (total_nonneg nonneg e.id)
        exact more.trans (covered e mem)
      rw [num_removeEach (le_refl 1) nonneg once id, mul_one]
    constructor
    · intro removes
      have covered := removes.succeeds.mp rfl
      refine ⟨covered, (total_once nonneg).mp fun id => ?_⟩
      have times := removes.removed rfl id
      rw [removed covered id] at times
      omega
    · rintro ⟨covered, times⟩
      have same := (total_once nonneg).mpr times
      refine ⟨iff_of_true rfl covered, fun _ id => ?_, by rintro ⟨⟩⟩
      rw [removed covered id, ← same id]
  · constructor
    · intro removes
      by_contra short
      push Not at short
      exact absurd (removes.succeeds.mpr short) (by simp)
    · rintro ⟨e, mem, short⟩
      refine ⟨iff_of_false (by simp) fun covered => ?_, by rintro ⟨⟩, fun _ _ => rfl⟩
      exact absurd (covered e mem) (not_le.mpr short)

/-- The command does what it is for exactly where once the list is `num` times the list,
or nothing was to be removed. -/
theorem userItemRemoveList_iff (items : Items) (now : Int) (b : Bag) (list : List Entry)
    (num : Int) (isSure : Bool) (positive : 1 ≤ num) :
    RemovesTimes b list num isSure (b.UserItemRemoveList items now (some list) num isSure) ↔
      RemovedOnce items now b list num isSure := by
  cases isSure with
  | false => simpa [RemovedOnce] using removesTimes_list positive
  | true => simpa [RemovedOnce] using removesTimes_sure

theorem userItemRemoveList_ticket :
    1 ≤ (1 : Int) ∧
      (RemovesTimes (bagOf 205004 5) [⟨205004, 1⟩] 1 false
          ((bagOf 205004 5).UserItemRemoveList (fun _ => some .default) 0
            (some [⟨205004, 1⟩]) 1 false) ↔
        RemovedOnce (fun _ => some .default) 0 (bagOf 205004 5) [⟨205004, 1⟩] 1 false) :=
  ⟨by decide, userItemRemoveList_iff (fun _ => some .default) 0 (bagOf 205004 5) _ 1 false
    (by decide)⟩

/-- Of five tickets two times one are to go, and one goes; with `isSure` one is to go, and
none does. -/
theorem userItemRemoveList_fails :
    ¬RemovesTimes (bagOf 205004 5) [⟨205004, 1⟩] 2 false
        ((bagOf 205004 5).UserItemRemoveList (fun _ => some .default) 0
          (some [⟨205004, 1⟩]) 2 false) ∧
      ¬RemovesTimes (bagOf 205004 5) [⟨205004, 1⟩] 1 true
        ((bagOf 205004 5).UserItemRemoveList (fun _ => some .default) 0
          (some [⟨205004, 1⟩]) 1 true) := by
  constructor
  · intro removes
    have taken := removes.removed (by decide) 205004
    exact absurd taken (by decide)
  · intro removes
    exact absurd (removes 205004) (by decide)

end

end HuluLandlord.Agent
