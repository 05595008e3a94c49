import HuluLandlord.Agent.Consume
import HuluLandlord.Agent.TitleLv

/-!
The experience a game brings or costs, and the request that buys a loss back. What a level costs
stands in its row; on a protected level the experience stops at the threshold. The level itself is
computed in `TitleLv`, from the experience of the bag. The streak of a game and what follows from its
rewards are left to their own modules.
-/
namespace HuluLandlord.Agent
open Transition

/-- The other columns of `cfg_title_rewards`. -/
structure TrophyRow where
  add_trophy : List Entry
  les_trophy : List Entry
  is_protect : Nat
  need_protect_num : List Entry
  deriving DecidableEq

/-- The ranks, with thresholds and losses that are not negative. The experience is an item. -/
structure TrophyTable where
  title : TitleTable
  trophy : Nat → TrophyRow
  tables : Tables
  thresholds : ∀ c ∈ title.rows, 0 ≤ c.exp
  losses : ∀ lv, ∀ e ∈ (trophy lv).les_trophy, 0 ≤ e.num
  listed : tables.items itemLvExp = some .unset

/-- What has happened to the experience by games and protections. -/
inductive LvRecord
  | game (lost : Int)
  | protect (given : Int)
  deriving DecidableEq, Repr

/-- `records` is newest first. -/
structure ProtectUser where
  title : TitleUser
  bag : Bag
  lastDeductExp : Int
  records : List LvRecord

/-- The answers are those the services give while levels are computed: in `game`, at the rewards and
at the end. `addRate` is that of `gameExpHandler`, `title` is whatever else changes the rank, and `bag`
what changes the other items. -/
inductive ProtectEvent
  | login
  | game (isWin : Bool) (rewards : List Entry) (addRate now : Int) (before after : List Answers)
  | RoomProtectLv (now : Int) (answers : List Answers)
  | title (e : TitleEvent)
  | bag (b : Bag)

/-- The loop of `gameExpProtectHandler`: the list, and how much was spared. -/
def protectLoop (val : Int) : List Entry → List Entry × Int
  | [] => ([], 0)
  | itemObj :: itemArr =>
      if itemObj.id = itemLvExp then
        if val < itemObj.num then
          let rest := protectLoop (val - val) itemArr
          (⟨itemObj.id, val⟩ :: rest.1, itemObj.num - val + rest.2)
        else
          let rest := protectLoop (val - itemObj.num) itemArr
          (itemObj :: rest.1, rest.2)
      else
        let rest := protectLoop val itemArr
        (itemObj :: rest.1, rest.2)

/-- `gameExpHandler`, with the rate it adds up; a number is rounded up. -/
def gameExpHandler (addRate : Int) (itemArr : List Entry) : List Entry :=
  itemArr.map fun value =>
    if value.id = itemLvExp then ⟨value.id, -(-(value.num * addRate) / 10000)⟩ else value

namespace ProtectUser
variable (cfg : TrophyTable)

def lv (s : ProtectUser) : Nat := s.title.userInfo.lv

def gameExpProtectHandler (s : ProtectUser) (itemArr : List Entry) : List Entry × Int :=
  match cfg.title.row s.lv with
  | none => (itemArr, 0)
  | some sData =>
      if (cfg.trophy s.lv).is_protect = 1 then protectLoop (s.bag.num itemLvExp - sData.exp) itemArr
      else (itemArr, 0)

/-- `computeLv`, as often as there are answers. -/
def computeLv (s : ProtectUser) (answers : List Answers) : ProtectUser :=
  let title := { s.title with userInfo := { s.title.userInfo with exp := s.bag.exp } }
  { s with title := answers.foldl (fun title a => title.computeLv cfg.title a) title }

/-- The rewards of a game, which come before its rank is settled. -/
def rewarded (s : ProtectUser) (rewards : List Entry) (now : Int) (before : List Answers) :
    ProtectUser :=
  let s := { s with bag := s.bag.addList cfg.tables now rewards }
  s.computeLv cfg before

/-- What `gameLvCompute` does to the bag. The result of the removal is not looked at. -/
def gameLvCompute (s : ProtectUser) (isWin : Bool) (addRate now : Int) : ProtectUser :=
  match cfg.title.row s.lv with
  | none => s
  | some _ =>
      if isWin then
        let itemArr := gameExpHandler addRate (cfg.trophy s.lv).add_trophy
        { s with bag := s.bag.addList cfg.tables now itemArr }
      else
        let itemArr := (s.gameExpProtectHandler cfg (cfg.trophy s.lv).les_trophy).1
        { s with bag := (s.bag.removeList cfg.tables.items now (some itemArr) 1).1 }

/-- `RoomGameOver_C`, as far as the rank goes. -/
def game (s : ProtectUser) (isWin : Bool) (rewards : List Entry) (addRate now : Int)
    (before after : List Answers) : ProtectUser :=
  let expOld := s.bag.exp
  let s := ((s.rewarded cfg rewards now before).gameLvCompute cfg isWin addRate now).computeLv cfg after
  let lastDeductExp := if expOld - s.bag.exp > 0 then expOld - s.bag.exp else 0
  { s with lastDeductExp := lastDeductExp, records := .game lastDeductExp :: s.records }

def RoomProtectLv (s : ProtectUser) (now : Int) (answers : List Answers) : ProtectUser × RetVal :=
  if s.lastDeductExp ≤ 0 then (s, .fail_2)
  else
    match cfg.title.row s.lv with
    | none => (s, .error_3)
    | some _ =>
        let paid := s.bag.removeList cfg.tables.items now (some (cfg.trophy s.lv).need_protect_num) 1
        if paid.2 then
          let bag := paid.1.add cfg.tables now ⟨itemLvExp, s.lastDeductExp⟩
          ({ s with
            bag := bag
            lastDeductExp := 0
            records := .protect (bag.exp - paid.1.exp) :: s.records }.computeLv cfg answers, .succeed_1)
        else (s, .lack_6)

def step (s : ProtectUser) : ProtectEvent → Option ProtectUser
  | .login => some { s with lastDeductExp := 0 }
  | .game isWin rewards addRate now before after =>
      some (s.game cfg isWin rewards addRate now before after)
  | .RoomProtectLv now answers => some (s.RoomProtectLv cfg now answers).1
  | .title e =>
      ({ s.title with userInfo := { s.title.userInfo with exp := s.bag.exp } }.step cfg.title e).map
        fun title => { s with title := title, bag := { s.bag with exp := title.userInfo.exp } }
  | .bag b => some { s with bag := { b with exp := s.bag.exp } }

/-- A new user. -/
def start (id : Nat) (bag : Bag) : ProtectUser := ⟨.start id, { bag with exp := 0 }, 0, []⟩

/-- Where the experience stops on a level. -/
def floor (s : ProtectUser) : Int :=
  if (cfg.trophy s.lv).is_protect = 1 then (cfg.title.row s.lv).elim 0 TitleRow.exp else 0

/-- A lost game charges what its level costs, as far as it can. -/
structure LossCharged (s s' : ProtectUser) : Prop where
  nonneg : 0 ≤ s'.bag.exp
  protected_ : (cfg.trophy s.lv).is_protect = 1 → ∀ sData, cfg.title.row s.lv = some sData →
    sData.exp ≤ s.bag.exp → sData.exp ≤ s'.bag.exp
  charged : ∀ sData, cfg.title.row s.lv = some sData → s'.bag.exp = max (min s.bag.exp (s.floor cfg))
    (s.bag.exp - total (cfg.trophy s.lv).les_trophy itemLvExp)

/-- A protection gives back what the last game has taken, for the price of the level. -/
structure ProtectPaid (s s' : ProtectUser) : Prop where
  lost : ∃ lost rest, s.records = .game lost :: rest ∧ 0 < lost ∧
    s'.bag.exp = s.bag.exp - total (cfg.trophy s.lv).need_protect_num itemLvExp + lost ∧
    s'.records = .protect lost :: s.records
  paid : ∀ id, id ≠ itemLvExp → s'.bag.num id =
    s.bag.num id - total (cfg.trophy s.lv).need_protect_num id

/-- Each protection comes right after a game, and gives back what that has taken. -/
def GivenBack : List LvRecord → Prop
  | [] => True
  | .game _ :: records => GivenBack records
  | .protect given :: .game lost :: records => given = lost ∧ 0 < lost ∧ GivenBack records
  | .protect _ :: _ => False

/-- A list passes the check of a removal, and is covered altogether. -/
def CoveredList (s : ProtectUser) (now : Int) (list : List Entry) : Prop :=
  s.bag.has cfg.tables.items now list 1 = true → ∀ e ∈ list, total list e.id ≤ s.bag.num e.id

/-- A loss that is not at its floor yet can be removed, and so can the price of a protection once it
has passed its check. -/
def Regular (s : ProtectUser) : ProtectEvent → Prop
  | .game isWin rewards _ now before _ =>
      let s := s.rewarded cfg rewards now before
      let list := (s.gameExpProtectHandler cfg (cfg.trophy s.lv).les_trophy).1
      isWin = false → s.floor cfg < s.bag.exp →
        s.bag.has cfg.tables.items now list 1 = true ∧ s.CoveredList cfg now list
  | .RoomProtectLv now _ => s.CoveredList cfg now (cfg.trophy s.lv).need_protect_num
  | _ => True

/-- What a step does to the experience. -/
def StepKeeps (s s' : ProtectUser) : ProtectEvent → Prop
  | .game false rewards _ now before _ => (s.rewarded cfg rewards now before).LossCharged cfg s'
  | .RoomProtectLv now answers => (s.RoomProtectLv cfg now answers).2 = .succeed_1 → s.ProtectPaid cfg s'
  | _ => True

end ProtectUser

section Removals
variable {items : Items} {b : Bag} {itemId : ItemId} {n val : Int} {list : List Entry}

theorem Bag.num_exp : b.num itemLvExp = b.exp := rfl

theorem Bag.setNum_exp : (b.setNum itemId n).exp = if itemId = itemLvExp then n else b.exp := by
  rw [Bag.setNum]
  split
  · rename_i gold
    rw [if_neg (gold ▸ by decide)]
  · split
    · rename_i diamond
      rw [if_neg (diamond ▸ by decide)]
    · split
      · rfl
      · rfl

/-- A removal takes its number from the experience, or leaves it. -/
theorem Bag.remove_exp : (b._remove items itemId n).1.exp = b.exp ∨
    itemId = itemLvExp ∧ n ≤ b.exp ∧ (b._remove items itemId n).1.exp = b.exp - n := by
  rw [Bag._remove]
  split
  · exact .inl rfl
  · split
    · exact .inl rfl
    · by_cases exp : itemId = itemLvExp
      · subst exp
        have owned : b.find itemLvExp = some b.exp := rfl
        rw [owned]
        simp only
        split
        · rename_i enough
          exact .inr ⟨trivial, enough, Bag.setNum_exp⟩
        · exact .inl rfl
      · cases b.find itemId with
        | none => exact .inl rfl
        | some owned =>
            simp only
            split
            · exact .inl (Bag.setNum_exp.trans (if_neg exp))
            · exact .inl rfl

/-- Whatever a list takes, it is not more than it names, and no more than there is. -/
theorem Bag.removeEach_exp (nonneg : ∀ e ∈ list, 0 ≤ e.num) (owned : 0 ≤ b.exp) :
    0 ≤ (b.removeEach items list 1).exp ∧ (b.removeEach items list 1).exp ≤ b.exp ∧
      b.exp - total list itemLvExp ≤ (b.removeEach items list 1).exp := by
  induction list generalizing b with
  | nil => exact ⟨owned, le_refl _, (sub_zero _).le⟩
  | cons e list ih =>
      have head := nonneg e List.mem_cons_self
      have rest : ∀ f ∈ list, 0 ≤ f.num := fun f mem => nonneg f (List.mem_cons_of_mem _ mem)
      have step := @Bag.remove_exp items b e.id (e.num * 1)
      rw [Bag.removeEach, List.foldl_cons, ← Bag.removeEach, total_cons]
      generalize (b._remove items e.id (e.num * 1)).1 = b' at step ⊢
      rw [mul_one] at step
      obtain same | ⟨exp, enough, taken⟩ := step
      · have later := @ih b' rest (same.symm ▸ owned)
        split <;> omega
      · have later := @ih b' rest (by omega)
        rw [if_pos exp]
        omega

theorem total_le_num (covered : ∀ e ∈ list, total list e.id ≤ b.num e.id) (owned : 0 ≤ b.num itemId) :
    total list itemId ≤ b.num itemId := by
  by_cases listed : ∃ e ∈ list, e.id = itemId
  · obtain ⟨e, mem, same⟩ := listed
    exact same ▸ covered e mem
  · rw [total_of_not_mem fun e mem same => listed ⟨e, mem, same⟩]
    exact owned

/-- On a protected level a list costs what it names, down to the threshold. -/
theorem protectLoop_total (amounts : ∀ e ∈ list, 0 ≤ e.num)
    (kept : ∀ e ∈ (protectLoop val list).1, 0 ≤ e.num) :
    total (protectLoop val list).1 itemLvExp = min (max val 0) (total list itemLvExp) := by
  induction list generalizing val with
  | nil => exact (min_eq_right (le_max_right _ _)).symm
  | cons e list ih =>
      have head := amounts e List.mem_cons_self
      have rest : ∀ f ∈ list, 0 ≤ f.num := fun f mem => amounts f (List.mem_cons_of_mem _ mem)
      have left := total_nonneg rest itemLvExp
      rw [protectLoop] at kept ⊢
      split at kept
      · rename_i exp
        rw [if_pos exp]
        split at kept
        · rename_i short
          have tail := @ih (val - val) rest fun f mem => kept f (List.mem_cons_of_mem _ mem)
          have first : 0 ≤ val := kept _ List.mem_cons_self
          rw [if_pos short, total_cons, total_cons, if_pos exp, if_pos exp, tail]
          simp only at first ⊢
          omega
        · rename_i enough
          have tail := @ih (val - e.num) rest fun f mem => kept f (List.mem_cons_of_mem _ mem)
          rw [if_neg enough, total_cons, total_cons, if_pos exp, tail]
          omega
      · rename_i other
        have tail := @ih val rest fun f mem => kept f (List.mem_cons_of_mem _ mem)
        rw [if_neg other, total_cons, total_cons, if_neg other, tail]
        omega

end Removals

section Levels
variable {cfg : TrophyTable} {s s' : ProtectUser} {sData : TitleRow} {now addRate : Int}
  {rewards : List Entry} {before after answers : List Answers} {e : ProtectEvent}

namespace ProtectUser

theorem floor_nonneg : 0 ≤ s.floor cfg := by
  rw [floor]
  split
  · cases row : cfg.title.row s.lv with
    | none => exact le_refl 0
    | some sData => exact cfg.thresholds _ (TitleTable.row_some row).1
  · exact le_refl 0

/-- What a lost game charges: the list of its level goes through the protection and is removed. -/
theorem charged_exp (row : cfg.title.row s.lv = some sData) (nonneg : 0 ≤ s.bag.exp)
    (regular : s.floor cfg < s.bag.exp →
      s.bag.has cfg.tables.items now
        (s.gameExpProtectHandler cfg (cfg.trophy s.lv).les_trophy).1 1 = true ∧
      s.CoveredList cfg now (s.gameExpProtectHandler cfg (cfg.trophy s.lv).les_trophy).1) :
    (s.gameLvCompute cfg false addRate now).bag.exp = max (min s.bag.exp (s.floor cfg))
      (s.bag.exp - total (cfg.trophy s.lv).les_trophy itemLvExp) := by
  have amounts := cfg.losses s.lv
  have cost := total_nonneg amounts itemLvExp
  have least := @floor_nonneg cfg s
  -- what the list takes, once it passes the check of the removal
  have taken (checked : s.bag.has cfg.tables.items now
        (s.gameExpProtectHandler cfg (cfg.trophy s.lv).les_trophy).1 1 = true) :
      total (s.gameExpProtectHandler cfg (cfg.trophy s.lv).les_trophy).1 itemLvExp =
        if (cfg.trophy s.lv).is_protect = 1 then
          min (max (s.bag.exp - s.floor cfg) 0) (total (cfg.trophy s.lv).les_trophy itemLvExp)
        else total (cfg.trophy s.lv).les_trophy itemLvExp := by
    have kept := Bag.has_nonneg checked
    rw [gameExpProtectHandler, row] at kept ⊢
    simp only at kept ⊢
    split
    · rename_i protected_
      rw [if_pos protected_] at kept
      rw [floor, if_pos protected_, row]
      exact protectLoop_total amounts kept
    · rfl
  rw [gameLvCompute, row]
  simp only [Bool.false_eq_true, if_false]
  generalize list : (s.gameExpProtectHandler cfg (cfg.trophy s.lv).les_trophy).1 = itemArr at *
  rw [Bag.removeList]
  split
  · rename_i checked
    have kept := Bag.has_nonneg checked
    have most := taken checked
    have bounds := @Bag.removeEach_exp cfg.tables.items s.bag itemArr kept nonneg
    simp only
    by_cases above : s.floor cfg < s.bag.exp
    · have exact_ := @num_removeEach cfg.tables.items 1 s.bag itemArr (le_refl 1) kept
        (fun e mem => by rw [mul_one]; exact (regular above).2 checked e mem) itemLvExp
      rw [Bag.num_exp, Bag.num_exp, mul_one] at exact_
      rw [exact_, most]
      split
      · omega
      · rename_i free
        have zero : s.floor cfg = 0 := by rw [floor, if_neg free]
        have enough : total itemArr itemLvExp ≤ s.bag.exp :=
          total_le_num ((regular above).2 checked) nonneg
        rw [most, if_neg free] at enough
        omega
    · split at most
      · omega
      · rename_i free
        have zero : s.floor cfg = 0 := by rw [floor, if_neg free]
        omega
  · rename_i refused
    by_cases above : s.floor cfg < s.bag.exp
    · exact absurd (regular above).1 refused
    · simp only
      omega

theorem computeLv_bag : (s.computeLv cfg answers).bag = s.bag := rfl

theorem addList_exp {t : Tables} {b : Bag} : b.exp ≤ (b.addList t now rewards).exp := by
  induction rewards generalizing b with
  | nil => exact le_refl _
  | cons e rewards ih =>
      rw [Bag.addList, List.foldl_cons, ← Bag.addList]
      refine le_trans ?_ ih
      rw [Bag.add]
      split
      · exact le_refl _
      · rename_i listed
        rw [not_or, not_le] at listed
        split
        · rw [Bag.setNum_exp]
          split
          · rename_i exp
            rw [exp, Bag.num_exp]
            omega
          · exact le_refl _
        · exact le_refl _

theorem rewarded_exp : s.bag.exp ≤ (s.rewarded cfg rewards now before).bag.exp := addList_exp

theorem loss_charged (nonneg : 0 ≤ s.bag.exp)
    (regular : s.Regular cfg (.game false rewards addRate now before after)) :
    (s.rewarded cfg rewards now before).LossCharged cfg
      (s.game cfg false rewards addRate now before after) := by
  have later : 0 ≤ (s.rewarded cfg rewards now before).bag.exp := nonneg.trans rewarded_exp
  have same : (s.game cfg false rewards addRate now before after).bag =
      ((s.rewarded cfg rewards now before).gameLvCompute cfg false addRate now).bag := rfl
  have charge := fun sData row => @charged_exp cfg (s.rewarded cfg rewards now before) sData now addRate
    row later (regular rfl)
  generalize s.game cfg false rewards addRate now before after = s' at same ⊢
  generalize s.rewarded cfg rewards now before = s at same later charge ⊢
  refine ⟨?_, fun protected_ sData row above => ?_, fun sData row => same ▸ charge sData row⟩
  · rw [same]
    cases row : cfg.title.row s.lv with
    | none =>
        rw [gameLvCompute, row]
        exact later
    | some sData =>
        have least := @floor_nonneg cfg s
        rw [charge sData row]
        omega
  · have stop : s.floor cfg = sData.exp := by
      rw [floor, if_pos protected_, row]
      rfl
    rw [same, charge sData row, stop]
    omega

theorem add_lvExp {b : Bag} {n : Int} (positive : 0 < n) :
    b.add cfg.tables now ⟨itemLvExp, n⟩ = b.setNum itemLvExp (b.exp + n) := by
  have added : ¬(n ≤ 0 ∨ cfg.tables.items itemLvExp = none) := by
    rw [cfg.listed, not_or, not_le]
    exact ⟨positive, nofun⟩
  rw [Bag.add, if_neg added, if_pos (.inr (.inr rfl))]
  rfl

/-- What is kept along a run: the last deduction is the one of the last game, or gone. -/
structure ProtectInv (s : ProtectUser) : Prop where
  nonneg : 0 ≤ s.bag.exp
  given : GivenBack s.records
  last : s.lastDeductExp = 0 ∨
    ∃ records, s.records = .game s.lastDeductExp :: records ∧ 0 < s.lastDeductExp

/-- What a protection that is answered with success has done. -/
theorem protect_succeeds (regular : s.Regular cfg (.RoomProtectLv now answers))
    (done : (s.RoomProtectLv cfg now answers).2 = .succeed_1) :
    ∃ paid : Bag, 0 < s.lastDeductExp ∧ (0 ≤ s.bag.exp → 0 ≤ paid.exp) ∧
      (∀ id, paid.num id = s.bag.num id - total (cfg.trophy s.lv).need_protect_num id) ∧
      (s.RoomProtectLv cfg now answers).1.bag = paid.setNum itemLvExp (paid.exp + s.lastDeductExp) ∧
      (s.RoomProtectLv cfg now answers).1.lastDeductExp = 0 ∧
      (s.RoomProtectLv cfg now answers).1.records = .protect s.lastDeductExp :: s.records := by
  rw [RoomProtectLv] at done ⊢
  split at done
  · cases done
  · rename_i left
    rw [if_neg left]
    have positive : 0 < s.lastDeductExp := not_le.mp left
    cases row : cfg.title.row s.lv with
    | none =>
        rw [row] at done
        cases done
    | some sData =>
        rw [row] at done
        simp only [Bag.removeList] at done ⊢
        split at done
        · rename_i checked
          simp only [checked, if_true, computeLv_bag, add_lvExp positive]
          have kept := Bag.has_nonneg checked
          refine ⟨_, positive, fun nonneg => (Bag.removeEach_exp kept nonneg).1, fun id => ?_, rfl, rfl, ?_⟩
          · have each := @num_removeEach cfg.tables.items 1 s.bag _ (le_refl 1) kept
              (fun e mem => by rw [mul_one]; exact regular checked e mem) id
            rw [mul_one] at each
            exact each
          · rw [Bag.setNum_exp, if_pos rfl, add_sub_cancel_left]
            rfl
        · cases done

theorem protect_paid (inv : s.ProtectInv) (regular : s.Regular cfg (.RoomProtectLv now answers))
    (done : (s.RoomProtectLv cfg now answers).2 = .succeed_1) :
    s.ProtectPaid cfg (s.RoomProtectLv cfg now answers).1 := by
  obtain ⟨paid, positive, _, taken, bag, _, records⟩ := protect_succeeds regular done
  obtain zero | ⟨rest, last, _⟩ := inv.last
  · omega
  · have exp := taken itemLvExp
    rw [Bag.num_exp, Bag.num_exp] at exp
    refine ⟨⟨s.lastDeductExp, rest, last, positive, ?_, records⟩, fun id other => ?_⟩
    · rw [bag, Bag.setNum_exp, if_pos rfl, exp]
    · rw [bag, Bag.num, Bag.find_setNum_ne other, ← Bag.num, taken id]

theorem protect_refused (refused : (s.RoomProtectLv cfg now answers).2 ≠ .succeed_1) :
    (s.RoomProtectLv cfg now answers).1 = s := by
  rw [RoomProtectLv] at refused ⊢
  split
  · rfl
  · rename_i left
    rw [if_neg left] at refused
    split
    · rfl
    · rename_i sData row
      rw [row] at refused
      simp only at refused ⊢
      split
      · rename_i paid
        rw [if_pos paid] at refused
        exact absurd rfl refused
      · rfl

theorem protect_inv (inv : s.ProtectInv) (regular : s.Regular cfg (.RoomProtectLv now answers)) :
    (s.RoomProtectLv cfg now answers).1.ProtectInv := by
  by_cases done : (s.RoomProtectLv cfg now answers).2 = .succeed_1
  · obtain ⟨paid, positive, left, _, bag, none_, records⟩ := protect_succeeds regular done
    obtain zero | ⟨rest, last, _⟩ := inv.last
    · omega
    · have before := left inv.nonneg
      refine ⟨?_, ?_, .inl none_⟩
      · rw [bag, Bag.setNum_exp, if_pos rfl]
        omega
      · rw [records, last]
        exact ⟨rfl, positive, (last ▸ inv.given : GivenBack (.game s.lastDeductExp :: rest))⟩
  · rw [protect_refused done]
    exact inv

theorem gameLvCompute_records {isWin : Bool} :
    (s.gameLvCompute cfg isWin addRate now).records = s.records := by
  rw [gameLvCompute]
  split
  · rfl
  · split
    · rfl
    · rfl

theorem game_records {isWin : Bool} : (s.game cfg isWin rewards addRate now before after).records =
    .game (s.game cfg isWin rewards addRate now before after).lastDeductExp :: s.records :=
  congrArg _ (@gameLvCompute_records cfg (s.rewarded cfg rewards now before) now addRate isWin)

theorem game_inv {isWin : Bool} (inv : s.ProtectInv)
    (regular : s.Regular cfg (.game isWin rewards addRate now before after)) :
    (s.game cfg isWin rewards addRate now before after).ProtectInv := by
  refine ⟨?_, ?_, ?_⟩
  · cases isWin with
    | true =>
        have later : 0 ≤ (s.rewarded cfg rewards now before).bag.exp := inv.nonneg.trans rewarded_exp
        have same : (s.game cfg true rewards addRate now before after).bag =
            ((s.rewarded cfg rewards now before).gameLvCompute cfg true addRate now).bag := rfl
        rw [same, gameLvCompute]
        split
        · exact later
        · exact later.trans addList_exp
    | false => exact (loss_charged inv.nonneg regular).nonneg
  · rw [game_records]
    exact inv.given
  · have deducted : (s.game cfg isWin rewards addRate now before after).lastDeductExp =
        if s.bag.exp - (s.game cfg isWin rewards addRate now before after).bag.exp > 0 then
          s.bag.exp - (s.game cfg isWin rewards addRate now before after).bag.exp else 0 := rfl
    split at deducted
    · rename_i lost
      exact .inr ⟨_, game_records, deducted ▸ lost⟩
    · exact .inl deducted

theorem tianxia_exp {u : LvInfo} {rank : Option Nat} : (u.UpdateTianxiaDiyi rank).exp = u.exp := by
  rw [LvInfo.UpdateTianxiaDiyi]
  split
  · rfl
  · split
    · rfl
    · simp only
      split
      · rfl
      · split
        · rfl
        · rfl

theorem computeLv_exp {title : TitleUser} {a : Answers} :
    (title.computeLv cfg.title a).userInfo.exp = title.userInfo.exp := by
  rw [TitleUser.computeLv]
  split
  · rfl
  · rfl
  · exact tianxia_exp

/-- No change of the rank takes the experience below zero. -/
theorem title_nonneg {title title' : TitleUser} {e : TitleEvent} (nonneg : 0 ≤ title.userInfo.exp)
    (moved : title.step cfg.title e = some title') : 0 ≤ title'.userInfo.exp := by
  cases e with
  | addExp num a =>
      rw [TitleUser.step] at moved
      split at moved
      · cases moved
      · rename_i enough
        obtain rfl := Option.some.inj moved
        rw [computeLv_exp]
        exact not_lt.mp enough
  | computeLv a =>
      obtain rfl := Option.some.inj moved
      rw [computeLv_exp]
      exact nonneg
  | userOnline a =>
      obtain rfl := Option.some.inj moved
      have first : 0 ≤ (if title.userInfo.lv ≤ 0 then
          { title with userInfo := { title.userInfo with lv := 1 } } else title).userInfo.exp := by
        split
        · exact nonneg
        · exact nonneg
      rw [TitleUser.userOnline]
      generalize (if title.userInfo.lv ≤ 0 then
        { title with userInfo := { title.userInfo with lv := 1 } } else title) = title at first
      split
      · simp only
        split
        · rename_i positive
          rw [computeLv_exp]
          exact Int.mul_nonneg positive.le (by decide)
        · exact first
      · exact first
  | checkTitleOver seasonId rankUser a rank =>
      obtain rfl := Option.some.inj moved
      rw [TitleUser.checkTitleOver]
      split
      · rw [tianxia_exp]
        exact nonneg
      · split
        · split
          · exact nonneg
          · simp only [tianxia_exp, computeLv_exp, LvInfo.reset]
            cases row : cfg.title.row _ with
            | none => exact le_refl 0
            | some sData => exact cfg.thresholds _ (TitleTable.row_some row).1
        · rw [tianxia_exp]
          exact nonneg
  | updateUserExp id exp =>
      obtain rfl := Option.some.inj moved
      exact nonneg
  | addSeasonData =>
      obtain rfl := Option.some.inj moved
      exact nonneg

theorem inv_step (inv : s.ProtectInv) (regular : s.Regular cfg e) (moved : s.step cfg e = some s') :
    s'.ProtectInv := by
  cases e with
  | login =>
      obtain rfl := Option.some.inj moved
      exact ⟨inv.nonneg, inv.given, .inl rfl⟩
  | game isWin rewards addRate now before after =>
      obtain rfl := Option.some.inj moved
      exact game_inv inv regular
  | RoomProtectLv now answers =>
      obtain rfl := Option.some.inj moved
      exact protect_inv inv regular
  | title e =>
      obtain ⟨title, done, rfl⟩ := Option.map_eq_some_iff.mp moved
      exact ⟨title_nonneg inv.nonneg done, inv.given, inv.last⟩
  | bag b =>
      obtain rfl := Option.some.inj moved
      exact ⟨inv.nonneg, inv.given, inv.last⟩

theorem keeps_step (inv : s.ProtectInv) (regular : s.Regular cfg e)
    (moved : s.step cfg e = some s') : s.StepKeeps cfg s' e := by
  cases e with
  | game isWin rewards addRate now before after =>
      obtain rfl := Option.some.inj moved
      cases isWin with
      | true => trivial
      | false => exact loss_charged inv.nonneg regular
  | RoomProtectLv now answers =>
      obtain rfl := Option.some.inj moved
      exact protect_paid inv regular
  | login => trivial
  | title e => trivial
  | bag b => trivial

/-- Along a run whose lists can be removed, losses are charged as far as possible down to zero or to
the threshold of a protected level, and a protection gives back, once, what the last game has taken. -/
theorem run_protected {es : List ProtectEvent} {id : Nat} {bag : Bag}
    (run : Run (step cfg) (Regular cfg) (start id bag) es s) :
    0 ≤ s.bag.exp ∧ GivenBack s.records ∧
      ∀ e s', s.Regular cfg e → s.step cfg e = some s' → s.StepKeeps cfg s' e := by
  have first : (start id bag).ProtectInv := ⟨le_refl 0, trivial, .inl rfl⟩
  have inv : s.ProtectInv := run.invariant ProtectInv first
    fun _ _ _ inv regular moved => inv_step inv regular moved
  exact ⟨inv.nonneg, inv.given, fun _ _ regular moved => keeps_step inv regular moved⟩

end ProtectUser

end Levels

namespace ProtectUser

instance decCoveredList {cfg : TrophyTable} {s : ProtectUser} {now : Int} {list : List Entry} :
    Decidable (s.CoveredList cfg now list) :=
  inferInstanceAs (Decidable (_ → ∀ e ∈ list, _))

instance decProtectRegular {cfg : TrophyTable} : ∀ s e, Decidable (Regular cfg s e)
  | _, .login => inferInstanceAs (Decidable True)
  | _, .game .. => inferInstanceAs (Decidable (_ = false → _ < _ → _ = true ∧ CoveredList _ _ _ _))
  | _, .RoomProtectLv _ _ => inferInstanceAs (Decidable (CoveredList _ _ _ _))
  | _, .title _ => inferInstanceAs (Decidable True)
  | _, .bag _ => inferInstanceAs (Decidable True)

/-- Two levels that cost ten, the second protected, and an item to buy a loss back. -/
def trophySample : TrophyTable where
  title := ⟨[⟨1, 0, 1, [], []⟩, ⟨2, 100, 1, [], []⟩], rfl⟩
  trophy := fun lv => ⟨[⟨itemLvExp, 20⟩], [⟨itemLvExp, 10⟩], if lv = 2 then 1 else 0, [⟨125002, 1⟩]⟩
  tables := runeTables
  thresholds := by decide
  losses := fun _ e mem => by
    rw [List.mem_singleton.mp mem]
    decide
  listed := rfl

/-- Five games won and three lost, at 105, at 100 and at 108; the last loss is bought back, once. -/
def trophyEvents : List ProtectEvent :=
  List.replicate 5 (.game true [] 10000 0 [] [⟨false, none⟩]) ++
    [.title (.addExp 5 ⟨false, none⟩), .game false [] 10000 0 [] [⟨false, none⟩],
      .game false [] 10000 0 [] [⟨false, none⟩], .title (.addExp 8 ⟨false, none⟩),
      .game false [] 10000 0 [] [⟨false, none⟩], .RoomProtectLv 0 [⟨false, none⟩],
      .RoomProtectLv 0 [⟨false, none⟩]]

theorem run_protected_games : ∃ s, Run (step trophySample) (Regular trophySample)
      (start 7 (bagOf 125002 3)) trophyEvents s ∧ GivenBack s.records ∧
    s.records.take 4 = [.protect 8, .game 8, .game 0, .game 5] ∧ s.bag.exp = 108 ∧
      s.bag.num 125002 = 2 := by
  have run := @run_of_guarded _ _ (step trophySample) (Regular trophySample) _
    (start 7 (bagOf 125002 3)) trophyEvents _ rfl
  exact ⟨_, run, (run_protected run).2.1, by decide +kernel, by decide +kernel, by decide +kernel⟩

/-- A loss of ten at an experience of five is not charged at all. -/
theorem protected_fails : ¬∀ cfg id bag es s e s', Run (step cfg) anyStep (start id bag) es s →
    s.step cfg e = some s' → s.StepKeeps cfg s' e := by
  intro protected_
  have run := @run_of_exec _ _ (step trophySample) (start 7 (bagOf 125002 3))
    [.title (.addExp 5 ⟨false, none⟩)] _ rfl
  have kept := protected_ _ _ _ _ _ (.game false [] 10000 0 [] []) _ run rfl
  exact absurd (kept.charged ⟨1, 0, 1, [], []⟩ (by decide +kernel)) (by decide +kernel)

end ProtectUser

end HuluLandlord.Agent
