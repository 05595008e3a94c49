import HuluLandlord.Agent.UserItem
import HuluLandlord.Define
import HuluLandlord.Transition

/-!
The client requests that consume items: a rune or a hero's mood raised with items, a
store purchase, the use of an item, and the removals other services ask for. What a
purchase or an opened box hands out is read from the tables; of the tables it is only
kept that nothing hands out the item it is paid with (the free packs, at price 0, are paid
with nothing). A request that raises has the value `none`; what it had written by then
stays.
-/
namespace HuluLandlord.Agent
open Transition

structure Rune where
  sId : Nat
  lv : Nat
  exp : Int
  deriving DecidableEq, Repr

/-- A row of `cfg_rune_level`, with the first entry of `rune_growup_cost`. -/
structure RuneLevel where
  level : Nat
  costId : ItemId
  cost : Int
  diamond_cost : List Entry
  deriving DecidableEq, Repr

structure Hero where
  notLimit : Bool
  moodLv : Nat
  moodExp : Int
  deriving DecidableEq, Repr

structure MoodLevel where
  level : Nat
  need_mood : Int
  deriving DecidableEq, Repr

structure StoreItem where
  show_type : Nat
  need_cumulative_recharge : Int
  costId : ItemId
  price : Nat
  buyLimit : Int
  deriving DecidableEq, Repr

/-- The tables the requests read. `moodItem` is `param[1].num` of the items of type 5;
`rewards` and `opens` are what a purchase and the use of an item hand out, for a roll; an
item without a use function opens to nothing. -/
structure Tables where
  items : Items
  time : ItemId → Int
  runeQuality : Nat → Nat
  convert_exp : Nat → Int
  runeLevels : Nat → List RuneLevel
  mood : List MoodLevel
  moodItem : ItemId → Option Int
  store : Nat → Option StoreItem
  rewards : Nat → Nat → Int → List Entry
  opens : Nat → ItemId → Int → Option (List Entry)
  rewards_fresh : ∀ roll id num row, store id = some row → 0 < row.price →
    ∀ e ∈ rewards roll id num, e.id ≠ row.costId
  opens_fresh : ∀ roll id num list, opens roll id num = some list → ∀ e ∈ list, e.id ≠ id

structure User where
  bag : Bag
  pay : Int
  userrune : Nat → Option Rune
  userhero : Nat → Option Hero
  storeNum : Nat → Option Int
  showDatas : Nat → Option (List Nat)

/-- What a request meets: the clock, and the outcome of the random draws. -/
structure Env where
  now : Int
  roll : Nat
  deriving DecidableEq, Repr

inductive Op
  | remove (itemId : ItemId) (num : Int)
  | removeList (itemArr : Option (List Entry))
  | runeLvUp (id : Nat) (type : Int) (itemNum : Int) (runeArr : Option (List Nat))
  | heroMoodUp (id : Nat) (costArr : List Entry)
  | buyStore (id : Nat) (num : Int)
  | useItem (id : ItemId) (gId : Nat) (num : Int)
  deriving DecidableEq, Repr

namespace Bag

/-- `_add` for an item that is stored. -/
def add (t : Tables) (now : Int) (b : Bag) (e : Entry) : Bag :=
  if e.num ≤ 0 ∨ t.items e.id = none then b
  else if e.id = itemGold ∨ e.id = itemDiamond ∨ e.id = itemLvExp then
    b.setNum e.id (b.num e.id + e.num)
  else
    let uData := (b.userItem e.id).getD ⟨0, none, []⟩
    let uData := match t.items e.id with
      | some .time =>
          { uData with endDt := some (max (uData.endDt.getD 0) now + t.time e.id * e.num) }
      | some .useAndTime =>
          { uData with arr := (uData.arr.filter fun batch => batch.endDt > now) ++
              [⟨e.num, now + t.time e.id, (uData.arr.map TimedItem.gId).foldl max 0 + 1⟩] }
      | _ => { uData with num := uData.num + e.num }
    { b with userItem := Function.update b.userItem e.id (some uData) }

def addList (t : Tables) (now : Int) (b : Bag) (list : List Entry) : Bag :=
  list.foldl (add t now) b

/-- The batches of an item, together. -/
def timed (b : Bag) (itemId : ItemId) : Int :=
  (((b.userItem itemId).elim [] UserItem.arr).map TimedItem.num).sum

/-- What a user owns of an item: counted and in batches. -/
def balance (b : Bag) (itemId : ItemId) : Int := b.num itemId + b.timed itemId

end Bag

namespace User
variable (t : Tables)

def withBag (u : User) (bag : Bag) : User := { u with bag := bag }

/-- The row of the largest cost; of no row at all there is none. -/
def maxData (levels : List RuneLevel) : Option RuneLevel :=
  levels.foldl (fun ret row => match ret with
    | none => some row
    | some best => if row.cost > best.cost then some row else some best) none

/-- The row of a level. -/
def levelRow (levels : List RuneLevel) (level : Nat) : Option RuneLevel :=
  levels.find? fun row => row.level = level

/-- The runes that are fed in until the experience suffices, and their experience. -/
def feedRunes (u : User) : List Nat → Int → List Nat × Int
  | [], _ => ([], 0)
  | runeId :: rest, maxExp =>
      if maxExp ≤ 0 then ([], 0)
      else
        let exp := match u.userrune runeId with
          | some runeData => t.convert_exp runeData.sId + runeData.exp
          | none => 0
        let more := feedRunes u rest (maxExp - exp)
        (runeId :: more.1, exp + more.2)

/-- The loop that raises the level; a missing row raises an error and stops it. -/
def raiseLv (levels : List RuneLevel) (exp : Int) : Nat → Nat → Nat
  | 0, lv => lv
  | n + 1, lv =>
      match levelRow levels lv with
      | none => lv
      | some sData => if exp ≥ sData.cost then raiseLv levels exp n (lv + 1) else lv

def removeRunes (userrune : Nat → Option Rune) (ids : List Nat) : Nat → Option Rune :=
  fun id => if id ∈ ids then none else userrune id

/-- `RuneLvUp` of type 1: the item count is cut to what is missing, from above only. -/
def runeByItems (u : User) (id : Nat) (uData : Rune) (levels : List RuneLevel)
    (top : RuneLevel) (itemNum : Int) (runeArr : List Nat) : User × Option RetVal :=
  match levelRow levels (top.level - 1) with
  | none => (u, none)
  | some before =>
      let maxExp := max (before.cost - uData.exp) 0
      let itemNum := min itemNum maxExp
      if ¬runeArr.Nodup then (u, some .error_3)
      else if ∃ runeId ∈ runeArr, u.userrune runeId = none ∨ runeId = id then (u, some .error_3)
      else
        let fed := feedRunes t u runeArr (maxExp - itemNum)
        match u.bag.remove t.items top.costId itemNum with
        | (_, false, _) => (u, some .lack_6)
        | (bag, true, _) =>
            let exp := uData.exp + (itemNum + fed.2)
            let lv := raiseLv levels exp (top.level - uData.lv) uData.lv
            ({ u with
                bag := bag
                userrune := Function.update (removeRunes u.userrune fed.1) id
                  (some { uData with exp := exp, lv := lv }) }, some .succeed_1)

/-- `RuneLvUp` of type 2: the next level for diamonds. -/
def runeByDiamonds (u : User) (now : Int) (id : Nat) (uData : Rune) (levels : List RuneLevel) :
    User × Option RetVal :=
  match levelRow levels uData.lv with
  | none => (u, none)
  | some sData =>
      match u.bag.removeList t.items now (some sData.diamond_cost) 1 with
      | (_, false) => (u, some .lack_6)
      | (bag, true) =>
          let last := ((levelRow levels (uData.lv - 1)).map RuneLevel.cost).getD 0
          ({ u with
              bag := bag
              userrune := Function.update u.userrune id (some { uData with
                lv := uData.lv + 1, exp := sData.cost + max 0 (uData.exp - last) }) },
            some .succeed_1)

def RuneLvUp (u : User) (now : Int) (id : Nat) (type itemNum : Int) (runeArr : Option (List Nat)) :
    User × Option RetVal :=
  match u.userrune id with
  | none => (u, some .notExists_5)
  | some uData =>
      let levels := t.runeLevels (t.runeQuality uData.sId)
      match maxData levels with
      | none => (u, none)
      | some top =>
          if uData.lv ≥ top.level then (u, some .noUse_8)
          else if type = 1 then
            runeByItems t u id uData levels top itemNum (runeArr.getD [])
          else if type = 2 then runeByDiamonds t u now id uData levels
          else (u, some .error_3)

/-- The items a mood takes: each entry in turn, the last one cut to what is missing. -/
def moodCost : List Entry → Int → Option (List Entry × Int)
  | [], _ => some ([], 0)
  | value :: rest, maxExp =>
      match t.moodItem value.id with
      | none => none
      | some itemExp =>
          let num := ⌈(maxExp : ℚ) / itemExp⌉
          if num < value.num then some ([⟨value.id, num⟩], itemExp * num)
          else (moodCost rest (maxExp - itemExp * value.num)).map fun more =>
            (value :: more.1, itemExp * value.num + more.2)

def raiseMood (mood : List MoodLevel) (exp : Int) : Nat → Nat → Nat
  | 0, lv => lv
  | n + 1, lv =>
      match mood.find? fun row => row.level = lv with
      | none => lv
      | some sData => if exp ≥ sData.need_mood then raiseMood mood exp n (lv + 1) else lv

def HeroMoodUp (u : User) (now : Int) (id : Nat) (costArr : List Entry) : User × Option RetVal :=
  match u.userhero id with
  | none => (u, some .notExists_5)
  | some uData =>
      let top := (t.mood.map MoodLevel.level).foldl max 0
      if uData.notLimit = false then (u, some .fail_2)
      else if uData.moodLv ≥ top then (u, some .noUse_8)
      else match t.mood.find? fun row => row.level = top - 1 with
        | none => (u, none)
        | some before => match moodCost t costArr (max (before.need_mood - uData.moodExp) 0) with
          | none => (u, some .error_3)
          | some (itemArr, upExp) =>
              match u.bag.removeList t.items now (some itemArr) 1 with
              | (_, false) => (u, some .lack_6)
              | (bag, true) =>
                  let exp := uData.moodExp + upExp
                  let lv := raiseMood t.mood exp (top - uData.moodLv) uData.moodLv
                  ({ u with
                      bag := bag
                      userhero := Function.update u.userhero id
                        (some { uData with moodExp := exp, moodLv := lv }) }, some .succeed_1)

/-- `ma_userstore.buyStore` and the purchase it makes. -/
def buyStore (u : User) (env : Env) (id : Nat) (num : Int) : User × Option RetVal :=
  if num < 1 ∨ num > 999 then (u, some .fail_2)
  else match t.store id with
    | none => (u, some .error_3)
    | some sData =>
        if t.items sData.costId = none then (u, some .error_3)
        else if u.pay < sData.need_cumulative_recharge then (u, some .notOpen_9)
        else if sData.buyLimit > 0 ∧ (num > sData.buyLimit ∨ (u.storeNum id).any fun bought =>
            bought ≥ sData.buyLimit ∨ bought + num > sData.buyLimit) then (u, some .noUse_8)
        else if (u.showDatas sData.show_type).any fun arr => id ∉ arr then
          (u, some .notExists_5)
        else match u.bag.remove t.items sData.costId (sData.price * num) with
          | (_, false, _) => (u, some .lack_6)
          | (bag, true, _) =>
              ({ u with
                  bag := bag.addList t env.now (t.rewards env.roll id num)
                  storeNum := Function.update u.storeNum id
                    (some ((u.storeNum id).getD 0 + num)) }, some .succeed_1)

/-- `use` on one batch: the item is opened, then the batch is taken from. -/
def useBatch (bag : Bag) (now : Int) (opened : List Entry) (id : ItemId) (uData : UserItem)
    (batch : TimedItem) (num : Int) : Bag :=
  let bag := bag.addList t now opened
  let left := batch.num - num
  let arr := if left ≤ 0 then uData.arr.erase batch
    else uData.arr.map fun other => if other = batch then { batch with num := left } else other
  { bag with userItem := Function.update bag.userItem id (some { uData with arr := arr }) }

/-- `UseItem`; only items with batches get through. -/
def UseItem (u : User) (env : Env) (id : ItemId) (gId : Nat) (num : Int) : User × Option RetVal :=
  if num ≤ 0 ∨ t.items id = none then (u, some .error_3)
  else match u.bag.userItem id with
    | none => (u, some .lack_6)
    | some uData =>
        if t.items id = some .useAndTime then
          match uData.arr.find? fun batch => batch.gId = gId with
          | none => (u, some .lack_6)
          | some batch =>
              if env.now ≥ batch.endDt then (u, some .noUse_8)
              else match t.opens env.roll id num with
                | none => (u, some .fail_2)
                | some opened =>
                    if batch.num ≥ num then
                      (u.withBag (useBatch t u.bag env.now opened id uData batch num),
                        some .succeed_1)
                    else (u, some .fail_2)
        else if t.items id = some .use ∧ uData.num ≤ 0 then (u, some .lack_6)
        else (u, some .error_3)

def exec (u : User) (op : Op) (env : Env) : User × Option RetVal :=
  match op with
  | .remove itemId num =>
      let (bag, removed, _) := u.bag.remove t.items itemId num
      (u.withBag bag, some (if removed then .succeed_1 else .lack_6))
  | .removeList itemArr =>
      let (bag, removed) := u.bag.removeList t.items env.now itemArr 1
      (u.withBag bag, some (if removed then .succeed_1 else .lack_6))
  | .runeLvUp id type itemNum runeArr => RuneLvUp t u env.now id type itemNum runeArr
  | .heroMoodUp id costArr => HeroMoodUp t u env.now id costArr
  | .buyStore id num => buyStore t u env id num
  | .useItem id gId num => UseItem t u env id gId num

def step (u : User) (e : Op × Env) : Option User := some (exec t u e.1 e.2).1

end User

/-- No balance is negative, counted or in a batch. -/
structure Bag.Nonneg (b : Bag) : Prop where
  counted : ∀ i, 0 ≤ b.num i
  batches : ∀ i uData, b.userItem i = some uData → ∀ batch ∈ uData.arr, 0 ≤ batch.num

/-- The items an operation is paid with. -/
def Op.consumes (t : Tables) (u : User) (op : Op) (i : ItemId) : Prop :=
  match op with
  | .remove itemId _ => itemId = i
  | .removeList itemArr => ∃ e ∈ itemArr.getD [], e.id = i
  | .runeLvUp id _ _ _ => ∃ uData row, u.userrune id = some uData ∧
      row ∈ t.runeLevels (t.runeQuality uData.sId) ∧
      (row.costId = i ∨ ∃ e ∈ row.diamond_cost, e.id = i)
  | .heroMoodUp _ costArr => ∃ e ∈ costArr, e.id = i
  | .buyStore id _ => ∃ row, t.store id = some row ∧ 0 < row.price ∧ row.costId = i
  | .useItem id _ _ => id = i

/-- No quantity that reaches the removal unchecked is negative. -/
def Quantified (t : Tables) (_ : User) (e : Op × Env) : Prop :=
  match e.1 with
  | .remove itemId num => 0 ≤ num ∨ t.items itemId = some .time
  | .runeLvUp _ type itemNum _ => type = 1 → 0 ≤ itemNum
  | _ => True

section Balances
variable {t : Tables} {now n : Int} {b : Bag} {i id : ItemId} {e : Entry}

theorem timed_setNum : (b.setNum id n).timed i = b.timed i := by
  simp only [Bag.timed, Bag.setNum]
  split
  · rfl
  split
  · rfl
  split
  · rfl
  by_cases here : i = id
  · subst here
    cases b.userItem i with
    | none => simp
    | some uData => simp
  · simp [here]

theorem batches_setNum (nonneg : ∀ i uData, b.userItem i = some uData → ∀ batch ∈ uData.arr,
      0 ≤ batch.num) (i : ItemId) (uData : UserItem)
    (found : (b.setNum id n).userItem i = some uData) : ∀ batch ∈ uData.arr, 0 ≤ batch.num := by
  simp only [Bag.setNum] at found
  split at found
  · exact nonneg i uData found
  split at found
  · exact nonneg i uData found
  split at found
  · exact nonneg i uData found
  by_cases here : i = id
  · subst here
    simp only [Function.update_self, Option.map_eq_some_iff] at found
    obtain ⟨before, found, rfl⟩ := found
    exact nonneg i before found
  · simp only [Function.update_of_ne here] at found
    exact nonneg i uData found

/-- A removal keeps every balance non-negative, whatever number it is given. -/
theorem nonneg_remove (nonneg : b.Nonneg) (id : ItemId) (n : Int) :
    (b.remove t.items id n).1.Nonneg := by
  simp only [Bag.remove, Bag._remove]
  split
  · exact nonneg
  split
  · exact nonneg
  cases found : b.find id with
  | none => exact nonneg
  | some owned =>
      simp only
      split
      · rename_i enough
        refine ⟨fun i => ?_, batches_setNum nonneg.batches⟩
        by_cases here : i = id
        · subst here
          rw [Bag.num, Bag.find_setNum_self found, Option.getD_some]
          omega
        · rw [Bag.num, Bag.find_setNum_ne here]
          exact nonneg.counted i
      · exact nonneg

/-- A removal of a non-negative number, or of a `time` item, raises no balance. -/
theorem balance_remove (safe : 0 ≤ n ∨ t.items id = some .time) (i : ItemId) :
    (b.remove t.items id n).1.balance i ≤ b.balance i := by
  simp only [Bag.remove, Bag._remove]
  split
  · exact le_refl _
  rename_i taken
  split
  · exact le_refl _
  have positive : 0 ≤ n := by
    obtain positive | timed := safe
    · exact positive
    · exact not_lt.mp fun negative => taken ⟨negative, timed⟩
  cases found : b.find id with
  | none => exact le_refl _
  | some owned =>
      simp only
      split
      · rw [Bag.balance, Bag.balance, timed_setNum]
        by_cases here : i = id
        · subst here
          have after := @Bag.find_setNum_self b i (owned - n) owned found
          simp only [Bag.num, after, found, Option.getD_some]
          omega
        · have after := @Bag.find_setNum_ne b id i (owned - n) here
          simp only [Bag.num, after]
          omega
      · exact le_refl _

theorem removeEach_safe {list : List Entry} (nonneg : ∀ e ∈ list, 0 ≤ e.num) :
    (b.Nonneg → (b.removeEach t.items list 1).Nonneg) ∧
      ∀ i, (b.removeEach t.items list 1).balance i ≤ b.balance i := by
  induction list generalizing b with
  | nil => exact ⟨id, fun i => le_refl _⟩
  | cons e list ih =>
      have head := nonneg e List.mem_cons_self
      have step := @ih (b._remove t.items e.id (e.num * 1)).1
        fun e mem => nonneg e (List.mem_cons_of_mem _ mem)
      refine ⟨fun start => step.1 (nonneg_remove start e.id _), fun i => ?_⟩
      exact (step.2 i).trans (balance_remove (.inl (by omega)) i)

theorem removeList_safe {list : Option (List Entry)} :
    (b.Nonneg → (b.removeList t.items now list 1).1.Nonneg) ∧
      ∀ i, (b.removeList t.items now list 1).1.balance i ≤ b.balance i := by
  cases list with
  | none => exact ⟨id, fun _ => le_refl _⟩
  | some list =>
      simp only [Bag.removeList]
      split
      · rename_i found
        exact removeEach_safe (Bag.has_nonneg found)
      · exact ⟨id, fun _ => le_refl _⟩

theorem find_record (plain : ¬(id = itemGold ∨ id = itemDiamond ∨ id = itemLvExp)) (b : Bag)
    (record : Option UserItem) (i : ItemId) :
    ({ b with userItem := Function.update b.userItem id record } : Bag).find i =
      if i = id then record.map UserItem.num else b.find i := by
  rw [not_or, not_or] at plain
  by_cases here : i = id
  · subst here
    simp [Bag.find, plain]
  · simp [Bag.find, here]

/-- Adding one item leaves the others as they are. -/
theorem balance_add_ne (other : e.id ≠ i) : (b.add t now e).balance i = b.balance i := by
  simp only [Bag.add]
  split
  · rfl
  split
  · rw [Bag.balance, Bag.balance, timed_setNum, Bag.num, Bag.find_setNum_ne (Ne.symm other)]
    rfl
  · rename_i plain
    have counted := fun record => find_record plain b record i
    simp only [Bag.balance, Bag.num, counted, if_neg (Ne.symm other), Bag.timed,
      Function.update_of_ne (Ne.symm other)]

/-- What adding stores under an id that is no currency. -/
theorem userItem_add_ne (other : e.id ≠ i) : (b.add t now e).userItem i = b.userItem i := by
  simp only [Bag.add]
  split
  · rfl
  split
  · simp only [Bag.setNum]
    split
    · rfl
    split
    · rfl
    split
    · rfl
    · simp only [Function.update_of_ne (Ne.symm other)]
  · simp only [Function.update_of_ne (Ne.symm other)]

theorem nonneg_record {record : UserItem} (nonneg : b.Nonneg) (counted : 0 ≤ record.num)
    (batches : ∀ batch ∈ record.arr, 0 ≤ batch.num)
    (plain : ¬(id = itemGold ∨ id = itemDiamond ∨ id = itemLvExp)) :
    ({ b with userItem := Function.update b.userItem id (some record) } : Bag).Nonneg := by
  refine ⟨fun i => ?_, fun i uData found => ?_⟩
  · rw [Bag.num, find_record plain]
    split
    · exact counted
    · exact nonneg.counted i
  · by_cases here : i = id
    · subst here
      simp only [Function.update_self, Option.some.injEq] at found
      exact found ▸ batches
    · simp only [Function.update_of_ne here] at found
      exact nonneg.batches i uData found

theorem nonneg_add (nonneg : b.Nonneg) : (b.add t now e).Nonneg := by
  simp only [Bag.add]
  split
  · exact nonneg
  rename_i given
  rw [not_or, not_le] at given
  split
  · refine ⟨fun i => ?_, batches_setNum nonneg.batches⟩
    have before := nonneg.counted e.id
    by_cases here : i = e.id
    · subst here
      rename_i currency
      obtain ⟨owned, found⟩ : ∃ owned, b.find e.id = some owned := by
        simp only [Bag.find]
        obtain gold | diamond | exp := currency
        · simp [gold]
        · simp only [diamond]
          exact ⟨_, rfl⟩
        · simp only [exp]
          exact ⟨_, rfl⟩
      rw [Bag.num, Bag.find_setNum_self found, Option.getD_some]
      omega
    · rw [Bag.num, Bag.find_setNum_ne here]
      exact nonneg.counted i
  · rename_i plain
    have counted : 0 ≤ ((b.userItem e.id).getD ⟨0, none, []⟩).num := by
      have before := nonneg.counted e.id
      rw [not_or, not_or] at plain
      simp only [Bag.num, Bag.find, plain, if_false] at before
      cases found : b.userItem e.id with
      | none => exact le_refl _
      | some uData => simpa [found] using before
    have batches : ∀ batch ∈ ((b.userItem e.id).getD ⟨0, none, []⟩).arr, 0 ≤ batch.num := by
      cases found : b.userItem e.id with
      | none => exact fun _ mem => absurd mem List.not_mem_nil
      | some uData => exact nonneg.batches e.id uData found
    refine nonneg_record nonneg ?_ ?_ plain
    · split
      · exact counted
      · exact counted
      · simp only
        omega
    · split
      · exact batches
      · intro batch mem
        obtain mem | mem := List.mem_append.mp mem
        · exact batches batch (List.mem_of_mem_filter mem)
        · obtain rfl := List.mem_singleton.mp mem
          exact given.1.le
      · exact batches

theorem addList_safe {list : List Entry} :
    (b.Nonneg → (b.addList t now list).Nonneg) ∧
      ∀ i, (∀ e ∈ list, e.id ≠ i) → (b.addList t now list).balance i = b.balance i ∧
        (b.addList t now list).userItem i = b.userItem i := by
  induction list generalizing b with
  | nil => exact ⟨id, fun _ _ => ⟨rfl, rfl⟩⟩
  | cons e list ih =>
      have step := @ih (b.add t now e)
      refine ⟨fun nonneg => step.1 (nonneg_add nonneg), fun i others => ?_⟩
      have head := others e List.mem_cons_self
      obtain ⟨balance, record⟩ := step.2 i fun e mem => others e (List.mem_cons_of_mem _ mem)
      exact ⟨balance.trans (balance_add_ne head), record.trans (userItem_add_ne head)⟩

end Balances

/-- A bag after an operation paid with the items of `paid`. -/
structure Bag.Spent (paid : ItemId → Prop) (b after : Bag) : Prop where
  nonneg : after.Nonneg
  falls : ∀ i, paid i → after.balance i ≤ b.balance i

section Spending
variable {t : Tables} {paid : ItemId → Prop} {b : Bag} {now n : Int} {id : ItemId}

theorem Bag.Spent.refl (nonneg : b.Nonneg) : b.Spent paid b := ⟨nonneg, fun i _ => le_refl _⟩

theorem spent_remove (nonneg : b.Nonneg) (safe : 0 ≤ n ∨ t.items id = some .time) :
    b.Spent paid (b.remove t.items id n).1 :=
  ⟨nonneg_remove nonneg id n, fun i _ => balance_remove safe i⟩

theorem spent_removeList {list : Option (List Entry)} (nonneg : b.Nonneg) :
    b.Spent paid (b.removeList t.items now list 1).1 :=
  ⟨removeList_safe.1 nonneg, fun i _ => removeList_safe.2 i⟩

/-- A batch leaves the list whole or with what is left of it. -/
theorem batches_taken {arr : List TimedItem} {batch : TimedItem} (positive : 0 < n)
    (owned : ∀ other ∈ arr, 0 ≤ other.num) :
    let left := batch.num - n
    let taken := if left ≤ 0 then arr.erase batch
      else arr.map fun other => if other = batch then { batch with num := left } else other
    (∀ other ∈ taken, 0 ≤ other.num) ∧
      (taken.map TimedItem.num).sum ≤ (arr.map TimedItem.num).sum := by
  intro left taken
  by_cases whole : left ≤ 0
  · simp only [taken, if_pos whole]
    refine ⟨fun other mem => owned other (List.mem_of_mem_erase mem), ?_⟩
    by_cases mem : batch ∈ arr
    · have parts := ((List.perm_cons_erase mem).map TimedItem.num).sum_eq
      have removed := owned batch mem
      rw [List.map_cons, List.sum_cons] at parts
      omega
    · rw [List.erase_of_not_mem mem]
  · simp only [taken, if_neg whole]
    constructor
    · intro other mem
      obtain ⟨before, member, rfl⟩ := List.mem_map.mp mem
      split
      · exact (not_le.mp whole).le
      · exact owned before member
    · rw [List.map_map]
      refine List.sum_le_sum fun other _ => ?_
      simp only [Function.comp_apply]
      split
      · rename_i same
        rw [same]
        exact sub_le_self _ positive.le
      · exact le_refl _

/-- The batches of an item are no part of what is counted. -/
theorem num_setBatches {uData : UserItem} {arr : List TimedItem}
    (found : b.userItem id = some uData) (i : ItemId) :
    ({ b with userItem := Function.update b.userItem id (some { uData with arr := arr }) } :
      Bag).num i = b.num i := by
  simp only [Bag.num, Bag.find]
  by_cases here : i = id
  · subst here
    simp [found]
  · simp [here]

theorem spent_useBatch {opened : List Entry} {uData : UserItem} {batch : TimedItem}
    (nonneg : b.Nonneg) (found : b.userItem id = some uData) (positive : 0 < n)
    (fresh : ∀ e ∈ opened, e.id ≠ id) :
    b.Spent (fun i => id = i) (User.useBatch t b now opened id uData batch n) := by
  obtain ⟨owned, total⟩ :=
    @batches_taken n uData.arr batch positive (nonneg.batches id uData found)
  have after := (@addList_safe t now b opened).1 nonneg
  obtain ⟨kept, record⟩ := (@addList_safe t now b opened).2 id fresh
  have counted := @num_setBatches (b.addList t now opened) id uData
  simp only [User.useBatch]
  refine ⟨⟨fun i => ?_, fun i stored mem => ?_⟩, fun i here => ?_⟩
  · rw [counted (record.trans found)]
    exact after.counted i
  · by_cases here : i = id
    · subst here
      simp only [Function.update_self, Option.some.injEq] at mem
      exact mem ▸ owned
    · simp only [Function.update_of_ne here] at mem
      exact after.batches i stored mem
  · subst here
    rw [← kept, Bag.balance, counted (record.trans found)]
    simp only [Bag.balance, Bag.timed, Function.update_self, record.trans found, Option.elim_some]
    exact add_le_add_right total _

section Operations
variable {u v : User} {env : Env}

theorem spent_RuneLvUp {type itemNum : Int} {runeArr : Option (List Nat)}
    (nonneg : u.bag.Nonneg) (safe : type = 1 → 0 ≤ itemNum) :
    u.bag.Spent paid (User.RuneLvUp t u now id type itemNum runeArr).1.bag := by
  simp only [User.RuneLvUp]
  split
  · exact .refl nonneg
  split
  · exact .refl nonneg
  rename_i top _
  split
  · exact .refl nonneg
  split
  · rename_i items
    simp only [User.runeByItems]
    split
    · exact .refl nonneg
    rename_i uData _ _ _ _ _ before _
    split
    · exact .refl nonneg
    split
    · exact .refl nonneg
    have cut : 0 ≤ min itemNum (max (before.cost - uData.exp) 0) :=
      le_min (safe items) (le_max_right _ _)
    have spent := @spent_remove t paid u.bag _ top.costId nonneg (.inl cut)
    split
    · exact .refl nonneg
    · rename_i removed
      rw [removed] at spent
      exact spent
  split
  · simp only [User.runeByDiamonds]
    split
    · exact .refl nonneg
    rename_i sData _
    have spent := @spent_removeList t paid u.bag now (some sData.diamond_cost) nonneg
    split
    · exact .refl nonneg
    · rename_i removed
      rw [removed] at spent
      exact spent
  · exact .refl nonneg

theorem spent_HeroMoodUp {costArr : List Entry} (nonneg : u.bag.Nonneg) :
    u.bag.Spent paid (User.HeroMoodUp t u now id costArr).1.bag := by
  simp only [User.HeroMoodUp]
  split
  · exact .refl nonneg
  split
  · exact .refl nonneg
  split
  · exact .refl nonneg
  split
  · exact .refl nonneg
  split
  · exact .refl nonneg
  rename_i itemArr _ _
  have spent := @spent_removeList t paid u.bag now (some itemArr) nonneg
  split
  · exact .refl nonneg
  · rename_i removed
    rw [removed] at spent
    exact spent

theorem spent_buyStore (nonneg : u.bag.Nonneg) :
    u.bag.Spent ((Op.buyStore id n).consumes t u) (User.buyStore t u env id n).1.bag := by
  simp only [User.buyStore]
  split
  · exact .refl nonneg
  rename_i bounded
  split
  · exact .refl nonneg
  rename_i sData row
  split
  · exact .refl nonneg
  split
  · exact .refl nonneg
  split
  · exact .refl nonneg
  split
  · exact .refl nonneg
  have cost : 0 ≤ (sData.price : Int) * n := mul_nonneg (Int.natCast_nonneg _) (by omega)
  have spent := @spent_remove t (fun _ => True) u.bag _ sData.costId nonneg (.inl cost)
  split
  · exact .refl nonneg
  · rename_i bag _ removed
    rw [removed] at spent
    have given := @addList_safe t env.now bag (t.rewards env.roll id n)
    refine ⟨given.1 spent.nonneg, fun i paidWith => ?_⟩
    obtain ⟨sold, sells, priced, rfl⟩ := paidWith
    obtain rfl : sData = sold := Option.some.inj (row.symm.trans sells)
    rw [(given.2 sData.costId (t.rewards_fresh env.roll id n sData row priced)).1]
    exact spent.falls sData.costId trivial

theorem spent_UseItem {gId : Nat} (nonneg : u.bag.Nonneg) :
    u.bag.Spent (fun i => id = i) (User.UseItem t u env id gId n).1.bag := by
  simp only [User.UseItem]
  split
  · exact .refl nonneg
  rename_i bounded
  split
  · exact .refl nonneg
  rename_i uData found
  split
  · split
    · exact .refl nonneg
    split
    · exact .refl nonneg
    split
    · exact .refl nonneg
    rename_i opened opens
    split
    · exact spent_useBatch nonneg found (by omega) (t.opens_fresh env.roll id n opened opens)
    · exact .refl nonneg
  split
  · exact .refl nonneg
  · exact .refl nonneg

theorem spent_exec {op : Op} (nonneg : u.bag.Nonneg) (guard : Quantified t u (op, env)) :
    u.bag.Spent (op.consumes t u) (User.exec t u op env).1.bag := by
  cases op with
  | remove itemId num => exact spent_remove nonneg guard
  | removeList itemArr => exact spent_removeList nonneg
  | runeLvUp id type itemNum runeArr => exact spent_RuneLvUp nonneg guard
  | heroMoodUp id costArr => exact spent_HeroMoodUp nonneg
  | buyStore id num => exact spent_buyStore nonneg
  | useItem id gId num => exact spent_UseItem nonneg

theorem run_nonneg {es : List (Op × Env)} (start : u.bag.Nonneg)
    (run : Run (User.step t) (Quantified t) u es v) : v.bag.Nonneg :=
  run.invariant (fun u => u.bag.Nonneg) start fun u e w nonneg guard moved => by
    obtain rfl := Option.some.inj moved
    exact (spent_exec nonneg guard).nonneg

/-- No operation of a guarded run adds to what it is paid with. -/
theorem run_spent {es : List (Op × Env)} (start : u.bag.Nonneg)
    (run : Run (User.step t) (Quantified t) u es v) :
    v.bag.Nonneg ∧ ∀ op env, Quantified t v (op, env) →
      v.bag.Spent (op.consumes t v) (User.exec t v op env).1.bag := by
  have nonneg := run_nonneg start run
  exact ⟨nonneg, fun op env guard => spent_exec nonneg guard⟩

/-- A rune of the first level, and five of the items that raise it. -/
def runeTables : Tables where
  items := fun _ => some .unset
  time := fun _ => 0
  runeQuality := fun _ => 1
  convert_exp := fun _ => 0
  runeLevels := fun _ => [⟨1, 605001, 10, []⟩, ⟨2, 605001, 20, []⟩]
  mood := []
  moodItem := fun _ => none
  store := fun _ => none
  rewards := fun _ _ _ => []
  opens := fun _ _ _ => none
  rewards_fresh := fun _ _ _ _ _ _ e mem => absurd mem List.not_mem_nil
  opens_fresh := fun _ _ _ _ opened => nomatch opened

def runeUser : User where
  bag := bagOf 605001 5
  pay := 0
  userrune := fun id => if id = 1 then some ⟨1, 1, 0⟩ else none
  userhero := fun _ => none
  storeNum := fun _ => none
  showDatas := fun _ => none

theorem bagOf_nonneg {itemId : ItemId} {num : Int} (owned : 0 ≤ num)
    (plain : ¬(itemId = itemGold ∨ itemId = itemDiamond ∨ itemId = itemLvExp)) :
    (bagOf itemId num).Nonneg := by
  have empty : (⟨0, 0, 0, fun _ => none⟩ : Bag).Nonneg := by
    refine ⟨fun i => ?_, fun i uData found => nomatch found⟩
    simp only [Bag.num, Bag.find]
    split_ifs
    all_goals exact le_refl _
  have batches : ∀ batch ∈ (⟨num, none, []⟩ : UserItem).arr, 0 ≤ batch.num :=
    fun batch mem => absurd mem List.not_mem_nil
  exact @nonneg_record _ _ ⟨num, none, []⟩ empty owned batches plain

/-- Three of the items are fed to the rune. -/
theorem run_spent_rune :
    let fed := (User.exec runeTables runeUser (.runeLvUp 1 1 3 none) ⟨0, 0⟩).1
    runeUser.bag.Nonneg ∧
      Run (User.step runeTables) (Quantified runeTables) runeUser
        [(.runeLvUp 1 1 3 none, ⟨0, 0⟩)] fed ∧
      fed.bag.Nonneg ∧ ∀ op env, Quantified runeTables fed (op, env) →
        fed.bag.Spent (op.consumes runeTables fed) (User.exec runeTables fed op env).1.bag := by
  intro fed
  have start : runeUser.bag.Nonneg := bagOf_nonneg (by decide) (by decide)
  have run : Run (User.step runeTables) (Quantified runeTables) runeUser
      ([] ++ [(.runeLvUp 1 1 3 none, ⟨0, 0⟩)]) fed :=
    .next .refl (fun _ => by decide) rfl
  exact ⟨start, run, run_spent start run⟩

/-- A rune raised with minus five of its items hands out five. -/
theorem runeLvUp_creates :
    ¬ ∀ (t : Tables) (u v : User) (es : List (Op × Env)), u.bag.Nonneg →
      Run (User.step t) anyStep u es v → v.bag.Nonneg ∧ ∀ op env,
        v.bag.Spent (op.consumes t v) (User.exec t v op env).1.bag := by
  intro all
  have start : runeUser.bag.Nonneg := bagOf_nonneg (by decide) (by decide)
  obtain ⟨_, spent⟩ := all runeTables runeUser runeUser [] start .refl
  have falls := (spent (.runeLvUp 1 1 (-5) none) ⟨0, 0⟩).falls 605001
    ⟨⟨1, 1, 0⟩, ⟨1, 605001, 10, []⟩, rfl, List.mem_cons_self, .inl rfl⟩
  exact absurd falls (by decide)

end Operations

end Spending

end HuluLandlord.Agent
