import HuluLandlord.Define
import Mathlib.Logic.Function.Basic
import Mathlib.Tactic

/-!
The agent service of one user, as far as a room request reaches it: the counted
items, the shop and the weekly hero skill. All items bought here are plain counted
ones (`use_type = -1`), the shop rows have no first-purchase bonus and no extra
gift, and their price is in diamonds.
-/
namespace HuluLandlord

structure StoreRow where
  show_type : Nat
  need_cumulative_recharge : Int
  costId : ItemID
  price : Nat
  buyLimit : Int
  rewards : List (ItemID × Nat)
  deriving DecidableEq, Repr

/-- The rows of `cfg_store` the room buys from. -/
def store : Nat → Option StoreRow
  | 500005 => some ⟨5, -1, .diamond, 2, -1, [(.gameBottomCardCheck, 1)]⟩
  | 500006 => some ⟨5, -1, .diamond, 1, -1, [(.gameDoubleSuper, 1)]⟩
  | 500007 => some ⟨5, -1, .diamond, 2, -1, [(.gameDoubleMax, 1)]⟩
  | _ => none

/-- The user's data of the hero he plays with; `week_chance` is absent when the
skill has no buff row at the hero's level. -/
structure HeroData where
  skillCount : Nat
  week_chance : Option Int
  deriving DecidableEq, Repr

/-- A record in `userItem` exists once the user has had the item. -/
structure UserAgent where
  pay : Int
  diamond : Nat
  userItem : ItemID → Option Nat
  storeNum : Nat → Option Int
  showDatas : Nat → Option (List Nat)
  hero : Option HeroData

namespace UserAgent

/-- `ma_useritem.num`. -/
def num (agent : UserAgent) (itemId : ItemID) : Nat :=
  if itemId = .diamond then agent.diamond else (agent.userItem itemId).getD 0

/-- `ma_useritem.has` for one counted item. -/
def has (agent : UserAgent) (itemId : ItemID) (count : Nat) : Bool := count ≤ agent.num itemId

def setNum (agent : UserAgent) (itemId : ItemID) (n : Nat) : UserAgent :=
  if itemId = .diamond then { agent with diamond := n }
  else { agent with userItem := Function.update agent.userItem itemId (some n) }

/-- `ma_useritem.remove`; an item the user never had has no record to take from. -/
def remove (agent : UserAgent) (itemId : ItemID) (count : Nat) : UserAgent × Bool :=
  if count = 0 then (agent, true)
  else if (itemId = .diamond ∨ agent.userItem itemId ≠ none) ∧ agent.num itemId ≥ count then
    (agent.setNum itemId (agent.num itemId - count), true)
  else (agent, false)

/-- `ma_useritem.add`. -/
def add (agent : UserAgent) (itemId : ItemID) (count : Nat) : UserAgent :=
  if count = 0 then agent else agent.setNum itemId (agent.num itemId + count)

/-- `ma_userstore.buy`. -/
def buy (agent : UserAgent) (id : Nat) (row : StoreRow) (count : Nat) : UserAgent :=
  let agent := { agent with
    storeNum := Function.update agent.storeNum id (some ((agent.storeNum id).getD 0 + count)) }
  row.rewards.foldl (fun agent item => agent.add item.1 (item.2 * count)) agent

def buyStore (agent : UserAgent) (id : Nat) (count : Nat) : UserAgent × RetVal :=
  if count < 1 ∨ count > 999 then (agent, .fail_2)
  else match store id with
    | none => (agent, .error_3)
    | some row =>
        if agent.pay < row.need_cumulative_recharge then (agent, .notOpen_9)
        else if row.buyLimit > 0 ∧
            (count > row.buyLimit ∨ (agent.storeNum id).any fun bought =>
              bought ≥ row.buyLimit ∨ bought + count > row.buyLimit) then (agent, .noUse_8)
        else if (agent.showDatas row.show_type).any fun arr => id ∉ arr then (agent, .notExists_5)
        else match agent.remove row.costId (row.price * count) with
          | (agent, false) => (agent, .lack_6)
          | (agent, true) => (agent.buy id row count, .succeed_1)

/-- `UserHeroSkillUse`. -/
def heroSkillUse (agent : UserAgent) : UserAgent × Bool :=
  match agent.hero with
  | none => (agent, false)
  | some uData =>
      match uData.week_chance with
      | none => (agent, false)
      | some week_chance =>
          if week_chance ≤ uData.skillCount then (agent, false)
          else ({ agent with hero := some { uData with skillCount := uData.skillCount + 1 } }, true)

variable {agent : UserAgent} {itemId i : ItemID} {n shopId : Nat}

theorem num_setNum (plain : itemId ≠ .diamond) :
    (agent.setNum itemId n).num i = if i = itemId then n else agent.num i := by
  by_cases here : i = itemId
  · simp [num, setNum, plain, here]
  · by_cases diamonds : i = .diamond
    · simp [num, setNum, plain, diamonds, plain.symm]
    · simp [num, setNum, plain, here, diamonds]

theorem diamond_setNum (plain : itemId ≠ .diamond) :
    (agent.setNum itemId n).diamond = agent.diamond := by
  simp [setNum, plain]

theorem hero_setNum : (agent.setNum itemId n).hero = agent.hero := by
  simp only [setNum]
  split <;> rfl

/-- What the check finds can be removed. -/
theorem remove_of_has (plain : itemId ≠ .diamond) (found : agent.has itemId 1 = true) :
    agent.remove itemId 1 = (agent.setNum itemId (agent.num itemId - 1), true) := by
  have enough : 1 ≤ agent.num itemId := of_decide_eq_true found
  have kept : agent.userItem itemId ≠ none := by
    intro none
    simp [num, plain, none] at enough
  simp [remove, plain, kept, enough]

/-- The price taken from the diamonds. -/
theorem remove_diamond {price : Nat} (paid : (agent.remove .diamond price).2 = true) :
    price ≤ agent.diamond ∧
      (agent.remove .diamond price).1 = { agent with diamond := agent.diamond - price } := by
  simp only [remove] at paid ⊢
  split
  · rename_i free
    exact ⟨free ▸ Nat.zero_le _, by rw [free]; rfl⟩
  · rename_i costs
    rw [if_neg costs] at paid
    split
    · rename_i enough
      exact ⟨enough.2, rfl⟩
    · rename_i lacking
      rw [if_neg lacking] at paid
      cases paid

theorem remove_refused (refused : (agent.remove itemId n).2 = false) :
    (agent.remove itemId n).1 = agent := by
  simp only [remove] at refused ⊢
  split
  · rfl
  · rename_i costs
    rw [if_neg costs] at refused
    split
    · rename_i enough
      rw [if_pos enough] at refused
      cases refused
    · rfl

/-- A purchase that fails takes nothing. -/
theorem buyStore_refused (refused : (agent.buyStore shopId n).2 ≠ .succeed_1) :
    (agent.buyStore shopId n).1 = agent := by
  simp only [buyStore] at refused ⊢
  split
  · rfl
  rename_i count
  rw [if_neg count] at refused
  split
  · rfl
  rename_i row found
  simp only [found] at refused
  split
  · rfl
  rename_i open'
  rw [if_neg open'] at refused
  split
  · rfl
  rename_i limit
  rw [if_neg limit] at refused
  split
  · rfl
  rename_i shown
  rw [if_neg shown] at refused
  have kept := @remove_refused agent row.costId (row.price * n)
  generalize agent.remove row.costId (row.price * n) = paid at refused kept ⊢
  obtain ⟨left, ok⟩ := paid
  cases ok with
  | false => exact kept rfl
  | true => exact absurd rfl refused

/-- A purchase that succeeds is the price paid and one item more. -/
theorem buyStore_succeeded {row : StoreRow} (found : store shopId = some row)
    (diamonds : row.costId = .diamond) (single : row.rewards = [(itemId, 1)])
    (ok : (agent.buyStore shopId 1).2 = .succeed_1) :
    row.price ≤ agent.diamond ∧ ∃ storeNum,
      (agent.buyStore shopId 1).1 = add { agent with
        diamond := agent.diamond - row.price, storeNum := storeNum } itemId 1 := by
  simp only [buyStore, found, diamonds, Nat.mul_one] at ok ⊢
  rw [if_neg (by decide)] at ok ⊢
  split
  · rename_i closed
    rw [if_pos closed] at ok
    cases ok
  rename_i open'
  rw [if_neg open'] at ok
  split
  · rename_i limit
    rw [if_pos limit] at ok
    cases ok
  rename_i limit
  rw [if_neg limit] at ok
  split
  · rename_i hidden
    rw [if_pos hidden] at ok
    cases ok
  rename_i shown
  rw [if_neg shown] at ok
  have taken := @remove_diamond agent row.price
  generalize agent.remove .diamond row.price = paid at ok taken ⊢
  obtain ⟨left, done⟩ := paid
  cases done with
  | false => cases ok
  | true =>
      obtain ⟨enough, rfl⟩ := taken rfl
      refine ⟨enough,
        Function.update agent.storeNum shopId (some ((agent.storeNum shopId).getD 0 + 1)), ?_⟩
      simp only [buy, single, List.foldl_cons, List.foldl_nil, Nat.mul_one]
      rfl

/-- One item of the kind is used: his own, or one bought for it with diamonds. -/
structure ItemUsed (itemId : ItemID) (price : Nat) (agent agent' : UserAgent) : Prop where
  item : agent'.num itemId + 1 = agent.num itemId + if agent.has itemId 1 then 0 else 1
  diamond : agent'.diamond + (if agent.has itemId 1 then 0 else price) = agent.diamond
  other : ∀ i, i ≠ itemId → i ≠ .diamond → agent'.num i = agent.num i
  hero : agent'.hero = agent.hero

/-- One use of the hero skill, and nothing else. -/
def SkillUsed (agent agent' : UserAgent) : Prop :=
  ∃ uData, agent.hero = some uData ∧
    agent' = { agent with hero := some { uData with skillCount := uData.skillCount + 1 } }

theorem itemUsed_own (price : Nat) (plain : itemId ≠ .diamond)
    (found : agent.has itemId 1 = true) :
    ItemUsed itemId price agent (agent.setNum itemId (agent.num itemId - 1)) := by
  have enough : 1 ≤ agent.num itemId := of_decide_eq_true found
  refine ⟨?_, ?_, ?_, hero_setNum⟩
  · rw [num_setNum plain, if_pos rfl, if_pos found]
    omega
  · rw [diamond_setNum plain, if_pos found, Nat.add_zero]
  · intro i ne _
    rw [num_setNum plain, if_neg ne]

theorem itemUsed_bought {row : StoreRow} (found : store shopId = some row)
    (diamonds : row.costId = .diamond) (single : row.rewards = [(itemId, 1)])
    (plain : itemId ≠ .diamond) (none' : agent.has itemId 1 = false)
    (ok : (agent.buyStore shopId 1).2 = .succeed_1) :
    (agent.buyStore shopId 1).1.has itemId 1 = true ∧
      ItemUsed itemId row.price agent ((agent.buyStore shopId 1).1.setNum itemId
        ((agent.buyStore shopId 1).1.num itemId - 1)) := by
  obtain ⟨enough, storeNum, bought⟩ := buyStore_succeeded found diamonds single ok
  rw [bought]
  have before : ∀ i, i ≠ .diamond → num { agent with
      diamond := agent.diamond - row.price, storeNum := storeNum } i = agent.num i := by
    intro i notDiamond
    simp [num, notDiamond]
  have after : ∀ i, i ≠ .diamond → (add { agent with
      diamond := agent.diamond - row.price, storeNum := storeNum } itemId 1).num i =
      agent.num i + if i = itemId then 1 else 0 := by
    intro i notDiamond
    simp only [add, Nat.one_ne_zero, if_false]
    rw [num_setNum plain, before itemId plain, before i notDiamond]
    split
    · rename_i here
      rw [here]
    · rfl
  have own := after itemId plain
  rw [if_pos rfl] at own
  refine ⟨decide_eq_true (own ▸ Nat.le_add_left 1 _), ?_, ?_, ?_, ?_⟩
  · rw [num_setNum plain, if_pos rfl, own, none']
    simp
  · rw [diamond_setNum plain, none']
    simp only [add, Nat.one_ne_zero, if_false, diamond_setNum plain, Bool.false_eq_true]
    omega
  · intro i ne notDiamond
    rw [num_setNum plain, if_neg ne, after i notDiamond, if_neg ne, Nat.add_zero]
  · simp only [add, Nat.one_ne_zero, if_false, hero_setNum]

theorem heroSkillUse_refused (refused : agent.heroSkillUse.2 = false) :
    agent.heroSkillUse.1 = agent := by
  simp only [heroSkillUse] at refused ⊢
  split
  · rfl
  · split
    · rfl
    · split
      · rfl
      · simp_all

theorem heroSkillUse_used (used : agent.heroSkillUse.2 = true) :
    SkillUsed agent agent.heroSkillUse.1 := by
  simp only [heroSkillUse] at used ⊢
  split
  · simp_all
  · rename_i uData found
    refine ⟨uData, found, ?_⟩
    split
    · simp_all
    · split
      · simp_all
      · rfl

end UserAgent

end HuluLandlord
