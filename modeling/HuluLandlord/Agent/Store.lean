import HuluLandlord.Agent.Consume

/-!
The store of a user's agent: `datax.store`, which is read and, by the rune bonus, also
written; the purchase counters by limit type; and the purchases themselves. A table of
counters that is not there has no entries. `given` is all that purchases have handed out,
in order, and `sales` are the purchases since the last reset of their limit type. The draws
of the hot sale are any of its ids, and ends of sales are left out.
-/
namespace HuluLandlord.Agent
open Transition

abbrev StoreId := Nat

/-- A row of `cfg_store`; no gift is an empty one. -/
structure StoreData where
  show_type : Nat
  need_cumulative_recharge : Int
  rewards : List Entry
  costId : ItemId
  price : Nat
  isFirstDouble : Nat
  otherGift : List Entry
  buyLimitType : Nat
  buyLimit : Int
  deriving DecidableEq, Repr

/-- A purchase; `byStore` if it went through `buyStore`. -/
structure Sale where
  id : StoreId
  num : Int
  byStore : Bool
  deriving DecidableEq, Repr

structure UserStore where
  store : StoreId → Option StoreData
  datas : Nat → StoreId → Option Int
  showDatas : Nat → Option (List StoreId)
  pay : Int
  bag : Bag
  given : List Entry
  sales : List Sale

/-- What a purchase meets: the clock, and the `PayGold` bonus of the user's runes. -/
structure StoreEnv where
  now : Int
  goldRate : Int
  deriving DecidableEq, Repr

inductive StoreEvent
  | buy (id : StoreId) (num : Int) (env : StoreEnv)
  | buyStore (id : StoreId) (num : Int) (env : StoreEnv)
  | reset (dateType : Nat)
  | resetHotSale (arr : List StoreId)
  deriving DecidableEq, Repr

def showHotSale : Nat := 2

/-- The entries of a list, `num` times. -/
def times (num : Int) (list : List Entry) : List Entry :=
  list.map fun obj => ⟨obj.id, obj.num * num⟩

/-- The first entry that is gold, written to. -/
def setGoldItem (num : Int) : List Entry → List Entry
  | [] => []
  | obj :: list => if obj.id = itemGold then ⟨obj.id, num⟩ :: list else obj :: setGoldItem num list

/-- `arrayx.find` for the gold among the rewards. -/
def goldItem (rewards : List Entry) : Option Entry := rewards.find? fun obj => obj.id = itemGold

namespace UserStore
variable (t : Tables)

def get (s : UserStore) (id : StoreId) : Option Int :=
  (s.store id).bind fun sData => s.datas sData.buyLimitType id

/-- `add` for a row that is there. -/
def add (s : UserStore) (id : StoreId) (sData : StoreData) (num : Int) : UserStore :=
  { s with
    datas := Function.update s.datas sData.buyLimitType
      (Function.update (s.datas sData.buyLimitType) id
        (some ((s.datas sData.buyLimitType id).getD 0 + num))) }

def give (s : UserStore) (now : Int) (list : List Entry) : UserStore :=
  { s with bag := s.bag.addList t now list, given := s.given ++ list }

/-- The bonus is worked out in the reward list of the configuration itself. -/
def runeBonus (s : UserStore) (env : StoreEnv) (id : StoreId) (sData : StoreData) : UserStore :=
  if env.goldRate > 0 then
    match goldItem sData.rewards with
    | none => s
    | some item =>
        let num := item.num * env.goldRate / 10000
        let s := { s with
          store := Function.update s.store id
            (some { sData with rewards := setGoldItem num sData.rewards }) }
        if num > 0 then s.give t env.now [⟨item.id, num⟩] else s
  else s

/-- The rewards, one more time or with the gift. -/
def giveRewards (s : UserStore) (now : Int) (sData : StoreData) (num : Int) (first : Bool) :
    UserStore :=
  let doubleNum : Int := if sData.isFirstDouble = 1 ∧ first then 1 else 0
  let s := s.give t now (times (num + doubleNum) sData.rewards)
  if doubleNum = 0 then s.give t now (times num sData.otherGift) else s

/-- What is bought with money counts as paid. -/
def payFor (s : UserStore) (sData : StoreData) : UserStore :=
  { s with pay := if sData.costId = 0 then s.pay + sData.price * 100 else s.pay }

def buy (s : UserStore) (env : StoreEnv) (id : StoreId) (num : Int) (byStore : Bool) :
    UserStore × Bool :=
  match s.store id with
  | none => (s, false)
  | some sData =>
      if num ≤ 0 then (s, false)
      else
        let first := (s.get id).getD 0 = 0
        let s := { s.add id sData num with sales := ⟨id, num, byStore⟩ :: s.sales }
        let s := s.giveRewards t env.now sData num first
        let s := if id = itemDiamond ∨ sData.costId = 0 then s.runeBonus t env id sData else s
        (s.payFor sData, true)

def buyStore (s : UserStore) (env : StoreEnv) (id : StoreId) (num : Int) : UserStore × RetVal :=
  if num < 1 ∨ num > 999 then (s, .fail_2)
  else match s.store id with
    | none => (s, .error_3)
    | some sData =>
        if t.items sData.costId = none then (s, .error_3)
        else if s.pay < sData.need_cumulative_recharge then (s, .notOpen_9)
        else if sData.buyLimit > 0 ∧ (num > sData.buyLimit ∨ (s.get id).any fun bought =>
            bought ≥ sData.buyLimit ∨ bought + num > sData.buyLimit) then (s, .noUse_8)
        else if (s.showDatas sData.show_type).any fun arr => id ∉ arr then (s, .notExists_5)
        else match s.bag.remove t.items sData.costId (sData.price * num) with
          | (_, false, _) => (s, .lack_6)
          | (bag, true, _) =>
              let (s, bought) := buy t { s with bag := bag } env id num true
              (s, if bought then .succeed_1 else .error_3)

def reset (s : UserStore) (dateType : Nat) : UserStore :=
  { s with
    datas := Function.update s.datas dateType fun _ => none
    sales := s.sales.filter fun sale =>
      (s.store sale.id).map StoreData.buyLimitType ≠ some dateType }

/-- `resetTypeData` of the hot sale; each id that is drawn is one of its rows. -/
def resetHotSale (s : UserStore) (arr : List StoreId) : Option UserStore :=
  if arr.all fun id => (s.store id).any fun sData => sData.show_type = showHotSale then
    let s := { s with showDatas := Function.update s.showDatas showHotSale (some arr) }
    some (arr.foldl (fun s id => (s.store id).elim s fun sData => s.add id sData 0) s)
  else none

def step (s : UserStore) (e : StoreEvent) : Option UserStore :=
  match e with
  | .buy id num env => some (s.buy t env id num false).1
  | .buyStore id num env => some (s.buyStore t env id num).1
  | .reset dateType => some (s.reset dateType)
  | .resetHotSale arr => s.resetHotSale arr

/-- A user who has bought nothing. -/
def start (store : StoreId → Option StoreData) (pay : Int) (bag : Bag) : UserStore :=
  ⟨store, fun _ _ => none, fun _ => none, pay, bag, [], []⟩

end UserStore

/-- The rune bonus applies to the purchase. -/
def Bonus (sData : StoreData) (id : StoreId) (goldRate : Int) : Prop :=
  (id = itemDiamond ∨ sData.costId = 0) ∧ 0 < goldRate

instance (sData : StoreData) (id : StoreId) (goldRate : Int) :
    Decidable (Bonus sData id goldRate) := inferInstanceAs (Decidable (_ ∧ _))

/-- What a purchase hands out by the configuration: the rewards, twice as many as the first
time if so set and else with the gift, and the bonus on the gold among them. -/
def configuredGrant (sData : StoreData) (id : StoreId) (num goldRate : Int) (first : Bool) :
    List Entry :=
  let bonus : List Entry := match goldItem sData.rewards with
    | none => []
    | some item => [⟨item.id, item.num * goldRate / 10000⟩]
  (if sData.isFirstDouble = 1 ∧ first then times (num + 1) sData.rewards
    else times num sData.rewards ++ times num sData.otherGift) ++
  if Bonus sData id goldRate then bonus.filter fun e => 0 < e.num else []

/-- What a purchase leaves. -/
structure Bought (t : Tables) (s s' : UserStore) (env : StoreEnv) (id : StoreId)
    (sData : StoreData) (num : Int) (byStore : Bool) (granted : List Entry) : Prop where
  given : s'.given = s.given ++ granted
  bag : s'.bag = s.bag.addList t env.now granted
  datas : s'.datas = (s.add id sData num).datas
  sales : s'.sales = ⟨id, num, byStore⟩ :: s.sales
  showDatas : s'.showDatas = s.showDatas
  store : s'.store = match goldItem sData.rewards with
    | none => s.store
    | some item =>
        if Bonus sData id env.goldRate then
          Function.update s.store id (some { sData with
            rewards := setGoldItem (item.num * env.goldRate / 10000) sData.rewards })
        else s.store

section Buying
variable {t : Tables} {s : UserStore} {env : StoreEnv} {id : StoreId} {sData : StoreData} {num : Int}
  {byStore : Bool} {list list' : List Entry}

theorem addList_append (b : Bag) (now : Int) :
    b.addList t now (list ++ list') = (b.addList t now list).addList t now list' := by
  simp only [Bag.addList, List.foldl_append]

theorem get_of_row (row : s.store id = some sData) : s.get id = s.datas sData.buyLimitType id := by
  rw [UserStore.get, row, Option.bind_some]

/-- Handing out twice is handing out both lists. -/
theorem give_give (now : Int) : (s.give t now list).give t now list' = s.give t now (list ++ list') := by
  simp only [UserStore.give, addList_append, List.append_assoc]

/-- The rune bonus hands out what is configured, and writes it into the rewards. -/
theorem runeBonus_eq (positive : 0 < env.goldRate) (s : UserStore) :
    s.runeBonus t env id sData = match goldItem sData.rewards with
      | none => s
      | some item =>
          let num := item.num * env.goldRate / 10000
          ({ s with store := Function.update s.store id (some { sData with
              rewards := setGoldItem num sData.rewards }) } : UserStore).give t env.now
            (if 0 < num then [⟨item.id, num⟩] else []) := by
  simp only [UserStore.runeBonus, gt_iff_lt, if_pos positive]
  split
  · rfl
  · split
    · rfl
    · simp [UserStore.give, Bag.addList]

theorem giveRewards_eq (s : UserStore) (now : Int) (first : Bool) :
    s.giveRewards t now sData num first =
      s.give t now (if sData.isFirstDouble = 1 ∧ first then times (num + 1) sData.rewards
        else times num sData.rewards ++ times num sData.otherGift) := by
  by_cases twice : sData.isFirstDouble = 1 ∧ first
  · simp [UserStore.giveRewards, twice]
  · simp [UserStore.giveRewards, twice, give_give]

theorem buy_bought (row : s.store id = some sData) (positive : 1 ≤ num) :
    (s.buy t env id num byStore).2 = true ∧
      Bought t s (s.buy t env id num byStore).1 env id sData num byStore
        (configuredGrant sData id num env.goldRate ((s.get id).getD 0 = 0)) := by
  have asked : ¬num ≤ 0 := by omega
  simp only [UserStore.buy, row, if_neg asked, giveRewards_eq, configuredGrant]
  refine ⟨trivial, ?_⟩
  generalize (if sData.isFirstDouble = 1 ∧ decide ((s.get id).getD 0 = 0) = true then
    times (num + 1) sData.rewards
    else times num sData.rewards ++ times num sData.otherGift) = base
  by_cases bonus : Bonus sData id env.goldRate
  · rw [if_pos bonus.1, runeBonus_eq bonus.2, if_pos bonus]
    cases gold : goldItem sData.rewards with
    | none => exact ⟨by simp [UserStore.payFor, UserStore.give, UserStore.add],
        by simp [UserStore.payFor, UserStore.give, UserStore.add], rfl, rfl, rfl, by rw [gold]; rfl⟩
    | some item =>
        have extra : (if 0 < item.num * env.goldRate / 10000 then
              [(⟨item.id, item.num * env.goldRate / 10000⟩ : Entry)] else []) =
            [(⟨item.id, item.num * env.goldRate / 10000⟩ : Entry)].filter fun e => 0 < e.num := by
          simp [List.filter_cons]
        simp only [extra]
        refine ⟨?_, ?_, rfl, rfl, rfl, ?_⟩
        · simp [UserStore.payFor, UserStore.give, UserStore.add]
        · simp [UserStore.payFor, UserStore.give, UserStore.add, addList_append]
        · simp [gold, bonus, UserStore.payFor, UserStore.give, UserStore.add]
  · have none : (if id = itemDiamond ∨ sData.costId = 0 then
          UserStore.runeBonus t (UserStore.give t { s.add id sData num with
            sales := ⟨id, num, byStore⟩ :: s.sales } env.now base) env id sData
        else UserStore.give t { s.add id sData num with
            sales := ⟨id, num, byStore⟩ :: s.sales } env.now base) =
        UserStore.give t { s.add id sData num with
          sales := ⟨id, num, byStore⟩ :: s.sales } env.now base := by
      split
      · rename_i asked
        have rate : ¬env.goldRate > 0 := fun rate => bonus ⟨asked, rate⟩
        rw [UserStore.runeBonus, if_neg rate]
      · rfl
    rw [none, if_neg bonus, List.append_nil]
    refine ⟨rfl, rfl, rfl, rfl, rfl, ?_⟩
    split
    · rfl
    · rw [if_neg bonus]
      rfl

/-- The reward list stays as it is when the bonus comes to the gold that is in it. -/
theorem setGoldItem_eq {rewards : List Entry} {item : Entry} (gold : goldItem rewards = some item) :
    setGoldItem num rewards = rewards ↔ num = item.num := by
  induction rewards with
  | nil => cases gold
  | cons obj rewards ih =>
      rw [goldItem] at gold ih
      by_cases here : obj.id = itemGold
      · rw [List.find?_cons_of_pos (by simpa using here), Option.some.injEq] at gold
        subst gold
        rw [setGoldItem, if_pos here, List.cons.injEq, and_iff_left rfl]
        exact ⟨fun same => congrArg Entry.num same, fun same => same ▸ rfl⟩
      · rw [List.find?_cons_of_neg (by simpa using here)] at gold
        simp [setGoldItem, here, ih gold]

/-- What `buyStore` comes to: nothing, or a purchase after the price has been taken. -/
theorem buyStore_cases :
    ((s.buyStore t env id num).1 = s ∧ (s.buyStore t env id num).2 ≠ .succeed_1) ∨
      ∃ sData bag k, s.store id = some sData ∧ 1 ≤ num ∧
        (0 < sData.buyLimit → (s.get id).getD 0 + num ≤ sData.buyLimit) ∧
        s.bag.remove t.items sData.costId (sData.price * num) = (bag, true, k) ∧
        s.buyStore t env id num =
          ((UserStore.buy t { s with bag := bag } env id num true).1, .succeed_1) := by
  simp only [UserStore.buyStore]
  split
  · exact .inl ⟨rfl, nofun⟩
  rename_i bounded
  split
  · exact .inl ⟨rfl, nofun⟩
  rename_i sData row
  split
  · exact .inl ⟨rfl, nofun⟩
  split
  · exact .inl ⟨rfl, nofun⟩
  split
  · exact .inl ⟨rfl, nofun⟩
  rename_i within
  split
  · exact .inl ⟨rfl, nofun⟩
  split
  · exact .inl ⟨rfl, nofun⟩
  rename_i bag k removed
  have positive : 1 ≤ num := by omega
  have bought := (@buy_bought t { s with bag := bag } env id sData num true row positive).1
  refine .inr ⟨sData, bag, k, row, positive, fun limited => ?_, removed, by simp only [bought]; rfl⟩
  rw [not_and, not_or] at within
  obtain ⟨single, total⟩ := within limited
  cases counter : s.get id with
  | none => simpa using single
  | some bought =>
      rw [counter, Option.any_some] at total
      simp only [decide_eq_true_eq, not_or] at total
      simpa using total.2

end Buying

/-- The configuration survives the purchase: the bonus does not apply, no gold is among the
rewards, or the bonus comes to that very amount. -/
def KeepsGold (s : UserStore) (id : StoreId) (env : StoreEnv) : Prop :=
  ∀ sData item, s.store id = some sData → goldItem sData.rewards = some item →
    Bonus sData id env.goldRate → item.num * env.goldRate / 10000 = item.num

def KeepsConfig (s : UserStore) (e : StoreEvent) : Prop :=
  match e with
  | .buy id num env => 1 ≤ num → KeepsGold s id env
  | .buyStore id num env => 1 ≤ num → KeepsGold s id env
  | _ => True

/-- The quantities of the sales of an id that are selected, together. -/
def soldIf (which : Sale → Bool) (sales : List Sale) (id : StoreId) : Int :=
  ((sales.filter fun sale => sale.id = id ∧ which sale).map Sale.num).sum

def sold : List Sale → StoreId → Int := soldIf fun _ => true

def soldByStore : List Sale → StoreId → Int := soldIf Sale.byStore

/-- The counters are the sums of the sales, and what went through `buyStore` is within the
limit. -/
structure SalesInv (s : UserStore) : Prop where
  counted : ∀ id sData, s.store id = some sData →
    (s.datas sData.buyLimitType id).getD 0 = sold s.sales id
  positive : ∀ sale ∈ s.sales, 1 ≤ sale.num
  limited : ∀ id sData, s.store id = some sData → 0 < sData.buyLimit →
    soldByStore s.sales id ≤ sData.buyLimit

section Sales
variable {sales : List Sale} {id k : StoreId} {which : Sale → Bool} {sale : Sale}

theorem soldIf_cons : soldIf which (sale :: sales) id =
    (if sale.id = id ∧ which sale then sale.num else 0) + soldIf which sales id := by
  by_cases here : sale.id = id ∧ which sale
  · simp [soldIf, here]
  · simp [soldIf, here]

/-- The part is not more than the whole. -/
theorem soldByStore_le (positive : ∀ sale ∈ sales, 1 ≤ sale.num) :
    soldByStore sales id ≤ sold sales id := by
  induction sales with
  | nil => exact le_rfl
  | cons sale sales ih =>
      obtain ⟨head, rest⟩ := List.forall_mem_cons.mp positive
      have tail := ih rest
      simp only [soldByStore, sold, soldIf_cons] at tail ⊢
      cases sale.byStore with
      | true => simp only [and_true] at *; omega
      | false =>
          simp only [Bool.false_eq_true, and_false, if_false, and_true]
          split <;> omega

theorem soldIf_nonneg (positive : ∀ sale ∈ sales, 1 ≤ sale.num) : 0 ≤ soldIf which sales id := by
  refine List.sum_nonneg fun x mem => ?_
  obtain ⟨sale, listed, rfl⟩ := List.mem_map.mp mem
  have least := positive sale (List.mem_of_mem_filter listed)
  omega

theorem sold_eq_zero (positive : ∀ sale ∈ sales, 1 ≤ sale.num) :
    sold sales id = 0 ↔ ∀ sale ∈ sales, sale.id ≠ id := by
  induction sales with
  | nil => simp [sold, soldIf]
  | cons sale sales ih =>
      obtain ⟨head, rest⟩ := List.forall_mem_cons.mp positive
      have part := @soldIf_nonneg sales id (fun _ => true) rest
      have tail := ih rest
      simp only [sold, soldIf_cons, List.forall_mem_cons, and_true] at tail part ⊢
      by_cases here : sale.id = id
      · rw [if_pos here]
        refine iff_of_false (by omega) fun apart => apart.1 here
      · rw [if_neg here, zero_add, tail, and_iff_right here]

/-- A reset forgets the sales of its limit type and no others. -/
theorem soldIf_filter {keep : Sale → Bool} :
    ((∀ sale, sale.id = id → keep sale = false) →
      soldIf which (sales.filter keep) id = 0) ∧
    ((∀ sale, sale.id = id → keep sale = true) →
      soldIf which (sales.filter keep) id = soldIf which sales id) := by
  constructor
  · intro none
    have bare : (sales.filter keep).filter (fun sale => sale.id = id ∧ which sale) = [] := by
      rw [List.filter_eq_nil_iff]
      intro sale mem here
      rw [decide_eq_true_eq] at here
      cases (none sale here.1).symm.trans (List.mem_filter.mp mem).2
    rw [soldIf, bare]
    rfl
  · intro all
    rw [soldIf, soldIf, List.filter_filter]
    congr 2
    refine List.filter_congr fun sale _ => ?_
    by_cases here : sale.id = id
    · simp [here, all sale here]
    · simp [here]

end Sales

section Runs
variable {t : Tables} {s s' : UserStore} {env : StoreEnv} {id k : StoreId} {sData : StoreData}
  {num : Int} {byStore : Bool} {granted : List Entry} {es : List StoreEvent} {e : StoreEvent}
  {store : StoreId → Option StoreData} {pay : Int} {bag : Bag}

/-- A purchase changes no row but in the amounts of its rewards. -/
theorem Bought.row (bought : Bought t s s' env id sData num byStore granted)
    (row : s.store id = some sData) {row' : StoreData} (found : s'.store k = some row') :
    ∃ old, s.store k = some old ∧ row'.buyLimitType = old.buyLimitType ∧
      row'.buyLimit = old.buyLimit := by
  rw [bought.store] at found
  split at found
  · exact ⟨row', found, rfl, rfl⟩
  split at found
  · by_cases here : k = id
    · subst here
      rw [Function.update_self, Option.some.injEq] at found
      subst found
      exact ⟨sData, row, rfl, rfl⟩
    · rw [Function.update_of_ne here] at found
      exact ⟨row', found, rfl, rfl⟩
  · exact ⟨row', found, rfl, rfl⟩

theorem datas_add (type : Nat) : (s.add id sData num).datas type k =
    if type = sData.buyLimitType ∧ k = id then
      some ((s.datas sData.buyLimitType id).getD 0 + num)
    else s.datas type k := by
  by_cases here : type = sData.buyLimitType
  · subst here
    by_cases there : k = id
    · subst there
      simp [UserStore.add]
    · simp [UserStore.add, there]
  · simp [UserStore.add, here]

/-- A purchase adds its sale to the counter; through `buyStore` it stays in the limit. -/
theorem sales_bought (inv : SalesInv s) (row : s.store id = some sData) (positive : 1 ≤ num)
    (within : byStore = true → 0 < sData.buyLimit →
      (s.datas sData.buyLimitType id).getD 0 + num ≤ sData.buyLimit)
    (bought : Bought t s s' env id sData num byStore granted) : SalesInv s' := by
  have sales : ∀ sale ∈ ⟨id, num, byStore⟩ :: s.sales, 1 ≤ sale.num :=
    List.forall_mem_cons.mpr ⟨positive, inv.positive⟩
  refine ⟨fun k row' found => ?_, bought.sales ▸ sales, fun k row' found limited => ?_⟩
  · obtain ⟨old, before, type, _⟩ := bought.row row found
    rw [bought.datas, bought.sales, datas_add, sold, soldIf_cons, ← sold, type]
    by_cases here : k = id
    · subst here
      obtain rfl := Option.some.inj (row.symm.trans before)
      have counter := inv.counted k sData row
      simp only [and_self, if_true, Option.getD_some, counter]
      omega
    · rw [if_neg fun both => here both.2, if_neg fun both => here both.1.symm, zero_add]
      exact inv.counted k old before
  · obtain ⟨old, before, _, limit⟩ := bought.row row found
    rw [limit] at limited ⊢
    rw [bought.sales, soldByStore, soldIf_cons, ← soldByStore]
    by_cases here : id = k ∧ byStore
    · obtain ⟨rfl, through⟩ := here
      obtain rfl := Option.some.inj (row.symm.trans before)
      have counter := inv.counted id sData row
      have part := @soldByStore_le s.sales id inv.positive
      have room := within through limited
      rw [if_pos ⟨rfl, through⟩]
      show num + soldByStore s.sales id ≤ sData.buyLimit
      omega
    · rw [if_neg here, zero_add]
      exact inv.limited k old before limited

theorem sales_buy (inv : SalesInv s) (within : byStore = true → ∀ sData, s.store id = some sData →
      0 < sData.buyLimit → (s.datas sData.buyLimitType id).getD 0 + num ≤ sData.buyLimit) :
    SalesInv (s.buy t env id num byStore).1 := by
  cases row : s.store id with
  | none => simpa only [UserStore.buy, row] using inv
  | some sData =>
      by_cases positive : 1 ≤ num
      · exact sales_bought inv row positive (fun through => within through sData row)
          (buy_bought row positive).2
      · have none : num ≤ 0 := by omega
        simpa only [UserStore.buy, row, if_pos none] using inv

theorem sales_buyStore (inv : SalesInv s) : SalesInv (s.buyStore t env id num).1 := by
  obtain ⟨same, _⟩ | ⟨sData, bag, k, row, _, within, _, done⟩ := @buyStore_cases t s env id num
  · rw [same]
    exact inv
  · rw [done]
    have inv' : SalesInv { s with bag := bag } := ⟨inv.counted, inv.positive, inv.limited⟩
    refine sales_buy inv' fun _ row' found => ?_
    obtain rfl := Option.some.inj (row.symm.trans found)
    rw [get_of_row row] at within
    exact within

theorem sales_reset (inv : SalesInv s) (dateType : Nat) : SalesInv (s.reset dateType) := by
  have same : ∀ id sData, s.store id = some sData → ∀ which, sData.buyLimitType ≠ dateType →
      soldIf which (s.reset dateType).sales id = soldIf which s.sales id := by
    intro id sData row which other
    refine soldIf_filter.2 fun sale here => ?_
    simp [here, row, other]
  have gone : ∀ id sData, s.store id = some sData → ∀ which, sData.buyLimitType = dateType →
      soldIf which (s.reset dateType).sales id = 0 := by
    intro id sData row which here
    refine soldIf_filter.1 fun sale named => ?_
    simp [named, row, here]
  refine ⟨fun id sData row => ?_, fun sale mem => ?_, fun id sData row limited => ?_⟩
  · by_cases here : sData.buyLimitType = dateType
    · rw [sold, gone id sData row _ here]
      simp [UserStore.reset, here]
    · rw [sold, same id sData row _ here, ← sold, ← inv.counted id sData row]
      simp [UserStore.reset, here]
  · exact inv.positive sale (List.mem_of_mem_filter mem)
  · by_cases here : sData.buyLimitType = dateType
    · rw [soldByStore, gone id sData row _ here]
      exact limited.le
    · rw [soldByStore, same id sData row _ here]
      exact inv.limited id sData row limited

theorem sales_addNone (inv : SalesInv s) (id : StoreId) :
    SalesInv ((s.store id).elim s fun sData => s.add id sData 0) ∧
      ((s.store id).elim s fun sData => s.add id sData 0).store = s.store := by
  cases row : s.store id with
  | none => exact ⟨inv, rfl⟩
  | some sData =>
      refine ⟨⟨fun k row' found => ?_, inv.positive, inv.limited⟩, rfl⟩
      rw [Option.elim_some, datas_add]
      split
      · rename_i here
        obtain ⟨type, rfl⟩ := here
        obtain rfl := Option.some.inj (row.symm.trans found)
        rw [Option.getD_some, add_zero]
        exact inv.counted k sData row
      · exact inv.counted k row' found

/-- A refresh of the hot sale adds nothing to the counters. -/
theorem sales_hotSale (inv : SalesInv s) {arr : List StoreId} (moved : s.resetHotSale arr = some s') :
    SalesInv s' ∧ s'.store = s.store := by
  have loop : ∀ (arr : List StoreId) (s : UserStore), SalesInv s →
      SalesInv (arr.foldl (fun s id => (s.store id).elim s fun sData => s.add id sData 0) s) ∧
        (arr.foldl (fun s id => (s.store id).elim s fun sData => s.add id sData 0) s).store =
          s.store := by
    intro arr
    induction arr with
    | nil => exact fun s inv => ⟨inv, rfl⟩
    | cons id arr ih =>
        intro s inv
        obtain ⟨first, same⟩ := sales_addNone inv id
        obtain ⟨rest, kept⟩ := ih _ first
        exact ⟨rest, kept.trans same⟩
  simp only [UserStore.resetHotSale] at moved
  split at moved
  · obtain rfl := Option.some.inj moved
    exact loop arr _ ⟨inv.counted, inv.positive, inv.limited⟩
  · cases moved

theorem sales_step (inv : SalesInv s) (moved : UserStore.step t s e = some s') : SalesInv s' := by
  cases e with
  | buy id num env =>
      obtain rfl := Option.some.inj moved
      exact sales_buy inv nofun
  | buyStore id num env =>
      obtain rfl := Option.some.inj moved
      exact sales_buyStore inv
  | reset dateType =>
      obtain rfl := Option.some.inj moved
      exact sales_reset inv dateType
  | resetHotSale arr => exact (sales_hotSale inv moved).1

theorem sales_start : SalesInv (UserStore.start store pay bag) :=
  ⟨fun _ _ _ => rfl, fun _ mem => absurd mem List.not_mem_nil, fun _ _ _ limited => limited.le⟩

/-- What a successful `buyStore` takes and hands out. -/
structure Paid (t : Tables) (s s' : UserStore) (env : StoreEnv) (id : StoreId) (num : Int)
    (sData : StoreData) (paid : Bag) (granted : List Entry) : Prop where
  row : s.store id = some sData
  taken : ∀ i, paid.num i = s.bag.num i - if i = sData.costId then sData.price * num else 0
  bag : s'.bag = paid.addList t env.now granted
  given : s'.given = s.given ++ granted
  counter : s'.datas = (s.add id sData num).datas

theorem paid_buyStore (done : (s.buyStore t env id num).2 = .succeed_1) :
    ∃ sData paid granted, Paid t s (s.buyStore t env id num).1 env id num sData paid granted := by
  obtain ⟨_, refused⟩ | ⟨sData, bag, k, row, positive, _, removed, made⟩ :=
    @buyStore_cases t s env id num
  · exact absurd done refused
  · have price : 0 ≤ (sData.price : Int) * num := mul_nonneg (Int.natCast_nonneg _) (by omega)
    have bought := (@buy_bought t { s with bag := bag } env id sData num true row positive).2
    rw [made]
    exact ⟨sData, bag, _, row, Bag.num_removed t.items removed price, bought.bag, bought.given,
      bought.datas⟩

theorem run_sales (run : Run (UserStore.step t) anyStep (UserStore.start store pay bag) es s) :
    SalesInv s :=
  run.invariant SalesInv sales_start fun _ _ _ inv _ moved => sales_step inv moved

/-- In every run what is bought through `buyStore` between two resets is within the limit,
each purchase takes exactly its price, and one that is refused changes nothing. -/
theorem run_limited (run : Run (UserStore.step t) anyStep (UserStore.start store pay bag) es s) :
    (∀ id sData, s.store id = some sData → 0 < sData.buyLimit →
      soldByStore s.sales id ≤ sData.buyLimit) ∧
    (∀ id num env, (s.buyStore t env id num).2 = .succeed_1 →
      ∃ sData paid granted, Paid t s (s.buyStore t env id num).1 env id num sData paid granted) ∧
    ∀ id num env, (s.buyStore t env id num).2 ≠ .succeed_1 → (s.buyStore t env id num).1 = s := by
  refine ⟨(run_sales run).limited, fun id num env => paid_buyStore, fun id num env refused => ?_⟩
  obtain ⟨same, _⟩ | ⟨sData, bag, k, _, _, _, _, made⟩ := @buyStore_cases t s env id num
  · exact same
  · exact absurd (congrArg Prod.snd made) refused

/-- The gold of a bonus purchase stays in the rewards if and only if it is kept. -/
theorem store_kept (row : s.store id = some sData) (positive : 1 ≤ num) :
    (s.buy t env id num byStore).1.store = s.store ↔ KeepsGold s id env := by
  rw [(@buy_bought t s env id sData num byStore row positive).2.store]
  cases gold : goldItem sData.rewards with
  | none =>
      refine iff_of_true rfl fun row' item found item' _ => ?_
      obtain rfl := Option.some.inj (row.symm.trans found)
      cases gold.symm.trans item'
  | some item =>
      simp only
      have kept : KeepsGold s id env ↔ (Bonus sData id env.goldRate →
          item.num * env.goldRate / 10000 = item.num) := by
        constructor
        · exact fun keeps => keeps sData item row gold
        · intro keeps row' item' found gold'
          obtain rfl := Option.some.inj (row.symm.trans found)
          obtain rfl := Option.some.inj (gold.symm.trans gold')
          exact keeps
      rw [kept, ← setGoldItem_eq gold]
      by_cases bonus : Bonus sData id env.goldRate
      · rw [if_pos bonus, Function.update_eq_self_iff, row, Option.some.injEq]
        constructor
        · exact fun same _ => congrArg StoreData.rewards same
        · intro same
          rw [same bonus]
      · rw [if_neg bonus]
        exact iff_of_true rfl fun applies => absurd applies bonus

theorem store_buy (keeps : 1 ≤ num → KeepsGold s id env) :
    (s.buy t env id num byStore).1.store = s.store := by
  cases row : s.store id with
  | none => simp only [UserStore.buy, row]
  | some sData =>
      by_cases positive : 1 ≤ num
      · exact (store_kept row positive).mpr (keeps positive)
      · have none : num ≤ 0 := by omega
        simp only [UserStore.buy, row, if_pos none]

theorem store_step (keeps : KeepsConfig s e) (inv : SalesInv s)
    (moved : UserStore.step t s e = some s') : s'.store = s.store := by
  cases e with
  | buy id num env =>
      obtain rfl := Option.some.inj moved
      exact store_buy keeps
  | buyStore id num env =>
      obtain rfl := Option.some.inj moved
      obtain ⟨same, _⟩ | ⟨sData, bag, k, _, _, _, _, made⟩ := @buyStore_cases t s env id num
      · rw [same]
      · rw [made]
        exact @store_buy t { s with bag := bag } env id num true keeps
  | reset dateType =>
      obtain rfl := Option.some.inj moved
      rfl
  | resetHotSale arr => exact (sales_hotSale inv moved).2

theorem run_store
    (run : Run (UserStore.step t) KeepsConfig (UserStore.start store pay bag) es s) :
    SalesInv s ∧ s.store = store := by
  refine run.invariant (fun s => SalesInv s ∧ s.store = store) ⟨sales_start, rfl⟩ ?_
  intro s e s' inv keeps moved
  exact ⟨sales_step inv.1 moved, (store_step keeps inv.1 moved).trans inv.2⟩

/-- In every run whose purchases keep the configuration, the next purchase of any id hands
out what is configured for it, and keeps the configuration if and only if it keeps the gold. -/
theorem run_granted
    (run : Run (UserStore.step t) KeepsConfig (UserStore.start store pay bag) es s) :
    s.store = store ∧ ∀ id sData num env byStore, store id = some sData → 1 ≤ num →
      (s.buy t env id num byStore).1.given = s.given ++
        configuredGrant sData id num env.goldRate (s.sales.all fun sale => sale.id ≠ id) ∧
      ((s.buy t env id num byStore).1.store = store ↔ KeepsGold s id env) := by
  obtain ⟨inv, same⟩ := run_store run
  refine ⟨same, fun id sData num env byStore configured positive => ?_⟩
  have row : s.store id = some sData := same ▸ configured
  have first : decide ((s.get id).getD 0 = 0) = s.sales.all fun sale => sale.id ≠ id := by
    rw [get_of_row row, inv.counted id sData row, Bool.eq_iff_iff, decide_eq_true_eq,
      sold_eq_zero inv.positive, List.all_eq_true]
    simp only [decide_eq_true_eq]
  have bought := (@buy_bought t s env id sData num byStore row positive).2
  rw [first] at bought
  exact ⟨bought.given, same ▸ store_kept row positive⟩

/-- A pack of gold for money, twice as much the first time. -/
def goldPack : StoreData :=
  ⟨1, -1, [⟨itemGold, 2000000⟩], 0, 1, 1, [⟨itemGold, 50000⟩], 0, -1⟩

/-- A pack paid with diamonds, three of it a day. -/
def diamondPack : StoreData := ⟨1, -1, [⟨205004, 1⟩], itemDiamond, 10, 0, [], 1, 3⟩

def packs : StoreId → Option StoreData := fun id =>
  if id = 300017 then some goldPack else if id = 200001 then some diamondPack else none

/-- The second pack, without a bonus, comes with the gift. -/
theorem run_granted_twice :
    ∃ s, Run (UserStore.step runeTables) KeepsConfig (UserStore.start packs 0 (bagOf 605001 0))
        [.buy 300017 1 ⟨0, 0⟩] s ∧
      s.given = [⟨itemGold, 4000000⟩] ∧
      s.store = packs ∧ ∀ id sData num env byStore, packs id = some sData → 1 ≤ num →
        (s.buy runeTables env id num byStore).1.given = s.given ++
          configuredGrant sData id num env.goldRate (s.sales.all fun sale => sale.id ≠ id) ∧
        ((s.buy runeTables env id num byStore).1.store = packs ↔ KeepsGold s id env) := by
  have run : Run (UserStore.step runeTables) KeepsConfig
      (UserStore.start packs 0 (bagOf 605001 0)) ([] ++ [.buy 300017 1 ⟨0, 0⟩]) _ :=
    .next .refl (fun _ _ _ _ _ bonus => absurd bonus.2 (by decide)) rfl
  exact ⟨_, run, by decide, run_granted run⟩

/-- With a bonus of 30 percent the second pack of two million is one of 600000. -/
theorem granted_fails :
    ¬∀ t store pay bag es s, Run (UserStore.step t) anyStep (UserStore.start store pay bag) es s →
      ∀ id sData num env byStore, store id = some sData → 1 ≤ num →
        (s.buy t env id num byStore).1.given = s.given ++
          configuredGrant sData id num env.goldRate (s.sales.all fun sale => sale.id ≠ id) := by
  intro all
  have run := @run_of_exec _ _ (UserStore.step runeTables)
    (UserStore.start packs 0 (bagOf 605001 0)) [.buy 300017 1 ⟨0, 3000⟩] _ rfl
  have second := all _ _ _ _ _ _ run 300017 goldPack 1 ⟨0, 0⟩ false rfl (by decide)
  exact absurd second (by decide)

/-- Three packs in one purchase, and a fourth is refused. -/
theorem run_limited_day :
    ∃ s, Run (UserStore.step runeTables) anyStep
        (UserStore.start packs 0 (bagOf 605001 0 |>.setNum itemDiamond 35))
        [.buyStore 200001 3 ⟨0, 0⟩] s ∧
      soldByStore s.sales 200001 = 3 ∧
      (∀ id sData, s.store id = some sData → 0 < sData.buyLimit →
        soldByStore s.sales id ≤ sData.buyLimit) ∧
      (s.buyStore runeTables ⟨0, 0⟩ 200001 1).2 = .noUse_8 := by
  have run := @run_of_exec _ _ (UserStore.step runeTables)
    (UserStore.start packs 0 (bagOf 605001 0 |>.setNum itemDiamond 35))
    [.buyStore 200001 3 ⟨0, 0⟩] _ rfl
  exact ⟨_, run, by decide, (run_limited run).1, by decide⟩

end Runs

end HuluLandlord.Agent
