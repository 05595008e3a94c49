import HuluLandlord.Agent.LuckBaoxiang
import HuluLandlord.Utils.Objx

/-!
What a lucky box brings. Each draw picks a box by weight, or at the limit of the luck value the
limited one, and from it by weight an item that holds no hero whom the user owns for good or has
drawn before in the same request. The luck value goes back to zero before the item is picked.
-/
namespace HuluLandlord.Agent

section Chance
variable {α : Type*} (weight : α → Nat)

/-- The loop of `objx.getChance`. -/
def chanceFrom : Nat → List α → Option α
  | _, [] => none
  | num, value :: obj =>
      if num ≤ weight value then some value else chanceFrom (num - weight value) obj

/-- `objx.getChance` over a table in the order of `pairs`; `math.random` gives any number up to the
sum of the weights, or one where there is no weight. -/
def getChance (random : Nat) (obj : List α) : Option α :=
  let weightSum := max 1 (obj.map weight).sum
  chanceFrom weight (random % weightSum + 1) obj

variable {weight} {num random : Nat} {obj : List α} {value : α}

theorem chanceFrom_some (least : 0 < num) (found : chanceFrom weight num obj = some value) :
    value ∈ obj ∧ 0 < weight value := by
  induction obj generalizing num with
  | nil => cases found
  | cons first obj ih =>
      rw [chanceFrom] at found
      split at found
      · rename_i within
        cases found
        exact ⟨List.mem_cons_self, least.trans_le within⟩
      · rename_i beyond
        obtain ⟨mem, positive⟩ := ih (by omega) found
        exact ⟨List.mem_cons_of_mem _ mem, positive⟩

theorem chanceFrom_eq (num : Nat) (obj : List α) :
    chanceFrom weight num obj = Objx.chanceFrom weight num obj := by
  induction obj generalizing num with
  | nil => rfl
  | cons first obj ih => rw [chanceFrom, Objx.chanceFrom, ih]

theorem getChance_some (found : getChance weight random obj = some value) :
    value ∈ obj ∧ 0 < weight value :=
  chanceFrom_some (Nat.succ_pos _) found

/-- Where anything has a weight, something is picked. -/
theorem getChance_isSome (mem : value ∈ obj) (positive : 0 < weight value) :
    ∃ value, getChance weight random obj = some value := by
  have part : weight value ≤ (obj.map weight).sum :=
    List.le_sum_of_mem (List.mem_map.mpr ⟨value, mem, rfl⟩)
  have total := positive.trans_le part
  obtain ⟨i, within, _, _, picked⟩ :=
    @Objx.chance_owner _ weight obj (random % (obj.map weight).sum + 1) 1 (Nat.succ_pos _)
      (Nat.mod_lt random total)
  exact ⟨obj[i], by rw [getChance, max_eq_right total, chanceFrom_eq, picked]⟩

end Chance

/-- A row of `lucky_blind_box`. -/
structure LuckyBlindBox where
  type_id : Nat
  weight : Nat
  deriving DecidableEq, Repr

/-- A row of `lucky_blind_box_items`. -/
structure LuckyBlindBoxItem where
  type_id : Nat
  items_num : List Entry
  weight : Nat
  deriving DecidableEq, Repr

/-- Of a row of `items` the group, and the ids of the list that is its parameter. -/
structure GroupedItem where
  group : String
  param : List Nat
  deriving DecidableEq, Repr

def heroBox : String := "HeroBox"

def type1001 : Nat := 1001

def type1002 : Nat := 1002

/-- The tables of a draw, in the order of `pairs`. A hero box holds one hero, as all in `items` do. -/
structure BlindBoxCfg where
  lucky_blind_box : List LuckyBlindBox
  lucky_blind_box_items : List LuckyBlindBoxItem
  items : ItemId → Option GroupedItem
  add_luck_step : Nat
  luck_to_good_baoxiang_limit : Nat
  hero : ∀ itemId item, items itemId = some item → item.group = heroBox →
    ∃ heroId, 0 < heroId ∧ item.param = [heroId]

/-- What is random in a draw: the numbers for the box and for the item, and the order in which
`pairs` visits the candidates. -/
structure DrawChance where
  box : Nat
  item : Nat
  pairs : List LuckyBlindBoxItem → List LuckyBlindBoxItem
  perm : ∀ arr, (pairs arr).Perm arr

/-- The luck value, the heroes that are not to be drawn, and what has been drawn. -/
structure BlindDraw where
  luckValue : Int
  exists_heros : List Nat
  result : List LuckyBlindBoxItem
  deriving DecidableEq, Repr

def addLuckValue (luckValue upValue : Int) : Int :=
  if luckValue + upValue < 0 then 0 else luckValue + upValue

namespace BlindBoxCfg
variable (cfg : BlindBoxCfg)

def ItemIdToHeroId (itemId : ItemId) : Nat :=
  match cfg.items itemId with
  | some item => if item.group = heroBox then item.param.headD 0 else 0
  | none => 0

/-- The heroes that `HeroBox` adds for an item. -/
def heroes (itemId : ItemId) : List Nat :=
  match cfg.items itemId with
  | some item => if item.group = heroBox then item.param else []
  | none => []

def itemHeroes (data : LuckyBlindBoxItem) : List Nat :=
  data.items_num.flatMap fun item => cfg.heroes item.id

def has_hero_flag (not_exists_arry : List Nat) (data : LuckyBlindBoxItem) : Bool :=
  data.items_num.any fun item_data => not_exists_arry.any fun heroId =>
    cfg.ItemIdToHeroId item_data.id > 0 ∧ cfg.ItemIdToHeroId item_data.id = heroId

def reward_box_array (not_exists_arry : List Nat) (type_id : Nat) : List LuckyBlindBoxItem :=
  cfg.lucky_blind_box_items.filter fun data =>
    data.type_id = type_id ∧ ¬cfg.has_hero_flag not_exists_arry data

/-- The box of a draw by its weight. -/
def randomBox (chance : DrawChance) : Option LuckyBlindBox :=
  getChance LuckyBlindBox.weight chance.box cfg.lucky_blind_box

def limitedBox : Option LuckyBlindBox :=
  cfg.lucky_blind_box.find? fun lucky_blind_box => lucky_blind_box.type_id = type1002

/-- `_GetRandomItem`, with the luck value it leaves. -/
def _GetRandomItem (chance : DrawChance) (luckValue : Int) (not_exists_arry : List Nat) :
    Int × Option LuckyBlindBoxItem :=
  let good := if luckValue ≥ cfg.luck_to_good_baoxiang_limit then cfg.limitedBox else none
  let luckValue := if good.isSome then addLuckValue luckValue (-luckValue) else luckValue
  let rand_reward_box := good.or (cfg.randomBox chance)
  (luckValue, rand_reward_box.bind fun box =>
    getChance LuckyBlindBoxItem.weight chance.item
      (chance.pairs (cfg.reward_box_array not_exists_arry box.type_id)))

/-- A turn of the loop of `GetRandomItem`. -/
def drawOne (chance : DrawChance) (s : BlindDraw) : BlindDraw :=
  match cfg._GetRandomItem chance s.luckValue s.exists_heros with
  | (luckValue, none) => { s with luckValue := luckValue }
  | (luckValue, some rand_item) =>
      { luckValue := if rand_item.type_id = type1001 then addLuckValue luckValue cfg.add_luck_step
          else luckValue
        exists_heros := s.exists_heros ++
          (rand_item.items_num.map fun item_data => cfg.ItemIdToHeroId item_data.id).filter (· > 0)
        result := s.result ++ [rand_item] }

/-- `GetRandomItem`, from the heroes owned for good. -/
def GetRandomItem (chance : Nat → DrawChance) (luckValue : Int) (owned : List Nat) :
    Nat → BlindDraw
  | 0 => ⟨luckValue, owned, []⟩
  | num + 1 => cfg.drawOne (chance num) (GetRandomItem chance luckValue owned num)

end BlindBoxCfg

def LockBXType.rand_num : LockBXType → Nat
  | .type1 => 1
  | .type10 => 10

/-- What a request for a draw leaves: the counters, the diamonds, and what has been drawn. -/
structure LuckTake where
  Data : LuckData
  diamond : Nat
  drawn : BlindDraw
  deriving DecidableEq

/-- `takeLuckBaoxiang` up to the entries that it rewards; they are in the order of the draws. -/
def takeLuckBaoxiang (cfg : LuckCfg) (boxes : BlindBoxCfg) (chance : Nat → DrawChance)
    (data : LuckData) (diamond : Nat) (luckValue : Int) (owned : List Nat) (lucktype : Option Int) :
    Except RetVal LuckTake :=
  match data.cosume cfg diamond lucktype with
  | .error code => .error code
  | .ok (data, type, _, diamond) =>
      .ok ⟨data, diamond, boxes.GetRandomItem chance luckValue owned type.rand_num⟩

namespace BlindBoxCfg

/-- What `num` draws are to bring; after `i` of them the luck value and the entries are those of
`GetRandomItem` for `i`. -/
structure Rewards (cfg : BlindBoxCfg) (chance : Nat → DrawChance) (luckValue : Int)
    (owned : List Nat) (num : Nat) (drawn : BlindDraw) : Prop where
  entries : drawn.result.length = num
  unowned : ∀ data ∈ drawn.result, ∀ heroId ∈ cfg.itemHeroes data, heroId ∉ owned
  distinct : drawn.result.Pairwise fun before data =>
    ∀ heroId ∈ cfg.itemHeroes data, heroId ∉ cfg.itemHeroes before
  luck : 0 ≤ luckValue → luckValue ≤ cfg.luck_to_good_baoxiang_limit + cfg.add_luck_step →
    ∀ i ≤ num, 0 ≤ (cfg.GetRandomItem chance luckValue owned i).luckValue ∧
      (cfg.GetRandomItem chance luckValue owned i).luckValue ≤
        cfg.luck_to_good_baoxiang_limit + cfg.add_luck_step
  limited : ∀ i < num,
    cfg.luck_to_good_baoxiang_limit ≤ (cfg.GetRandomItem chance luckValue owned i).luckValue →
      (cfg.GetRandomItem chance luckValue owned (i + 1)).luckValue = 0 ∧
        ∃ data, data.type_id = type1002 ∧ drawn.result[i]? = some data

/-- A draw finds its box, at the limit a limited one, and in the box an item with a weight, none of
whose heroes is owned or drawn. -/
def Supplied (cfg : BlindBoxCfg) (chance : DrawChance) (s : BlindDraw) : Prop :=
  ∃ box ∈ cfg.lucky_blind_box,
    (if cfg.luck_to_good_baoxiang_limit ≤ s.luckValue then box.type_id = type1002
      else cfg.randomBox chance = some box) ∧
    ∃ data ∈ cfg.lucky_blind_box_items, data.type_id = box.type_id ∧ 0 < data.weight ∧
      ∀ heroId ∈ cfg.itemHeroes data, heroId ∉ s.exists_heros

section Rewards
variable {cfg : BlindBoxCfg} {chance : DrawChance} {s : BlindDraw} {type_id : Nat}

theorem heroes_eq (cfg : BlindBoxCfg) (itemId : ItemId) :
    cfg.heroes itemId = [cfg.ItemIdToHeroId itemId].filter (· > 0) := by
  rw [heroes, ItemIdToHeroId]
  cases row : cfg.items itemId with
  | none => rfl
  | some item =>
      simp only
      split
      · rename_i group
        obtain ⟨heroId, positive, param⟩ := cfg.hero itemId item row group
        rw [param]
        simp [positive]
      · rfl

/-- The heroes that the loop adds to those not to be drawn. -/
theorem added_heroes (data : LuckyBlindBoxItem) :
    (data.items_num.map fun item_data => cfg.ItemIdToHeroId item_data.id).filter (· > 0) =
      cfg.itemHeroes data := by
  rw [itemHeroes]
  induction data.items_num with
  | nil => rfl
  | cons item_data items_num ih =>
      rw [List.map_cons, List.flatMap_cons, ← ih, heroes_eq]
      rw [← List.filter_append]
      rfl

theorem has_hero_flag_iff {not_exists_arry : List Nat} {data : LuckyBlindBoxItem} :
    cfg.has_hero_flag not_exists_arry data = false ↔
      ∀ heroId ∈ cfg.itemHeroes data, heroId ∉ not_exists_arry := by
  rw [← added_heroes]
  simp only [has_hero_flag, List.any_eq_false, List.any_eq_true, decide_eq_true_eq, List.mem_filter,
    List.mem_map]
  constructor
  · rintro free heroId ⟨⟨item_data, mem, rfl⟩, positive⟩ listed
    exact free item_data mem ⟨_, listed, positive, rfl⟩
  · rintro free item_data mem ⟨heroId, listed, positive, rfl⟩
    exact free _ ⟨⟨item_data, mem, rfl⟩, positive⟩ listed

theorem mem_reward_box_array {not_exists_arry : List Nat} {type_id : Nat}
    {data : LuckyBlindBoxItem} : data ∈ cfg.reward_box_array not_exists_arry type_id ↔
      data ∈ cfg.lucky_blind_box_items ∧ data.type_id = type_id ∧
        ∀ heroId ∈ cfg.itemHeroes data, heroId ∉ not_exists_arry := by
  rw [reward_box_array, List.mem_filter, ← has_hero_flag_iff]
  simp

/-- What a draw that brings an item has done. -/
theorem drawOne_some {luckValue : Int} {data : LuckyBlindBoxItem}
    (found : cfg._GetRandomItem chance s.luckValue s.exists_heros = (luckValue, some data)) :
    data ∈ cfg.lucky_blind_box_items ∧ 0 < data.weight ∧
      (∀ heroId ∈ cfg.itemHeroes data, heroId ∉ s.exists_heros) ∧
      ∃ box ∈ cfg.lucky_blind_box, data.type_id = box.type_id ∧
        (s.luckValue < cfg.luck_to_good_baoxiang_limit → cfg.randomBox chance = some box) := by
  obtain ⟨box, picked, item⟩ := Option.bind_eq_some_iff.mp (congrArg Prod.snd found)
  obtain ⟨mem, positive⟩ := getChance_some item
  obtain ⟨listed, type, free⟩ := mem_reward_box_array.mp ((chance.perm _).mem_iff.mp mem)
  refine ⟨listed, positive, free, box, ?_, type, ?_⟩
  · obtain good | ⟨_, random⟩ := Option.or_eq_some_iff.mp picked
    · split at good
      · exact List.mem_of_find?_eq_some good
      · cases good
    · exact (getChance_some random).1
  · intro below
    rw [if_neg (not_le.mpr below), Option.none_or] at picked
    exact picked

theorem addLuckValue_reset (luckValue : Int) : addLuckValue luckValue (-luckValue) = 0 := by
  simp [addLuckValue]

/-- From a box that holds a candidate one is picked. -/
theorem item_found {not_exists_arry : List Nat} {item : LuckyBlindBoxItem}
    (mem : item ∈ cfg.reward_box_array not_exists_arry type_id) (positive : 0 < item.weight) :
    ∃ data ∈ cfg.reward_box_array not_exists_arry type_id,
      getChance LuckyBlindBoxItem.weight chance.item
        (chance.pairs (cfg.reward_box_array not_exists_arry type_id)) = some data := by
  have perm := chance.perm (cfg.reward_box_array not_exists_arry type_id)
  obtain ⟨data, picked⟩ :=
    @getChance_isSome _ LuckyBlindBoxItem.weight chance.item _ item (perm.mem_iff.mpr mem) positive
  exact ⟨data, perm.mem_iff.mp (getChance_some picked).1, picked⟩

/-- At the limit, where there is a limited box. -/
theorem getRandomItem_limited {box : LuckyBlindBox} {luckValue : Int} {not_exists_arry : List Nat}
    (limit : cfg.luck_to_good_baoxiang_limit ≤ luckValue) (mem : box ∈ cfg.lucky_blind_box)
    (type : box.type_id = type1002) :
    cfg._GetRandomItem chance luckValue not_exists_arry =
      (0, getChance LuckyBlindBoxItem.weight chance.item
        (chance.pairs (cfg.reward_box_array not_exists_arry type1002))) := by
  have some_ : cfg.limitedBox.isSome = true := by
    rw [limitedBox, List.find?_isSome]
    exact ⟨box, mem, decide_eq_true type⟩
  obtain ⟨good, found⟩ := Option.isSome_iff_exists.mp some_
  rw [limitedBox] at found
  have same : good.type_id = type1002 := by simpa using List.find?_some found
  rw [← limitedBox] at found
  simp only [_GetRandomItem, ge_iff_le, limit, if_true, found, Option.isSome_some, Option.some_or,
    Option.bind_some, addLuckValue_reset, same]

/-- Below the limit. -/
theorem getRandomItem_below {luckValue : Int} {not_exists_arry : List Nat}
    (below : ¬cfg.luck_to_good_baoxiang_limit ≤ luckValue) :
    cfg._GetRandomItem chance luckValue not_exists_arry =
      (luckValue, (cfg.randomBox chance).bind fun box =>
        getChance LuckyBlindBoxItem.weight chance.item
          (chance.pairs (cfg.reward_box_array not_exists_arry box.type_id))) := by
  simp only [_GetRandomItem, ge_iff_le, below, if_false, Option.isSome_none, Option.none_or,
    Bool.false_eq_true]

/-- A draw that is supplied brings an item, at the limit from the limited box and with the luck
value back at zero. -/
theorem drawOne_supplied (supplied : cfg.Supplied chance s) :
    ∃ data, (∀ heroId ∈ cfg.itemHeroes data, heroId ∉ s.exists_heros) ∧
      (cfg.luck_to_good_baoxiang_limit ≤ s.luckValue → data.type_id = type1002) ∧
      cfg.drawOne chance s =
        { luckValue := if cfg.luck_to_good_baoxiang_limit ≤ s.luckValue then 0
            else if data.type_id = type1001 then addLuckValue s.luckValue cfg.add_luck_step
            else s.luckValue
          exists_heros := s.exists_heros ++ cfg.itemHeroes data
          result := s.result ++ [data] } := by
  obtain ⟨box, mem, picked, item, listed, type, positive, free⟩ := supplied
  have candidate : item ∈ cfg.reward_box_array s.exists_heros box.type_id :=
    mem_reward_box_array.mpr ⟨listed, type, free⟩
  obtain ⟨data, among, found⟩ := @item_found cfg chance _ _ _ candidate positive
  obtain ⟨_, same, others⟩ := mem_reward_box_array.mp among
  by_cases limit : cfg.luck_to_good_baoxiang_limit ≤ s.luckValue
  · rw [if_pos limit] at picked
    refine ⟨data, others, fun _ => same.trans picked, ?_⟩
    have limited : data.type_id ≠ type1001 := by
      rw [same, picked]
      decide
    rw [drawOne, getRandomItem_limited limit mem picked, ← picked, found]
    simp only [limited, if_false, limit, if_true, added_heroes]
  · rw [if_neg limit] at picked
    refine ⟨data, others, fun reached => absurd reached limit, ?_⟩
    rw [drawOne, getRandomItem_below limit, picked, Option.bind_some, found]
    simp only [limit, if_false, added_heroes]

/-- A draw adds one entry at most. -/
theorem drawOne_result : (cfg.drawOne chance s).result = s.result ∨
    ∃ luckValue data,
      cfg._GetRandomItem chance s.luckValue s.exists_heros = (luckValue, some data) ∧
        (cfg.drawOne chance s).result = s.result ++ [data] := by
  rw [drawOne]
  split
  · exact .inl rfl
  · rename_i luckValue data found
    exact .inr ⟨luckValue, data, found, rfl⟩

end Rewards

section Request
variable {cfg : BlindBoxCfg} {chance : Nat → DrawChance} {luckValue : Int} {owned : List Nat}
  {i num : Nat}

/-- Entries stay as they are. -/
theorem result_grows (le : i ≤ num) : (cfg.GetRandomItem chance luckValue owned i).result <+:
    (cfg.GetRandomItem chance luckValue owned num).result := by
  induction num, le using Nat.le_induction with
  | base => exact List.prefix_refl _
  | succ num le ih =>
      apply ih.trans
      rw [GetRandomItem]
      obtain same | ⟨_, data, _, added⟩ := @drawOne_result cfg (chance num)
        (cfg.GetRandomItem chance luckValue owned num)
      · rw [same]
      · rw [added]
        exact List.prefix_append _ _

theorem result_length (le : i ≤ num) :
    (cfg.GetRandomItem chance luckValue owned num).result.length ≤
      (cfg.GetRandomItem chance luckValue owned i).result.length + (num - i) := by
  induction num, le using Nat.le_induction with
  | base => exact Nat.le_add_right _ _
  | succ num le ih =>
      rw [GetRandomItem]
      obtain same | ⟨_, data, _, added⟩ := @drawOne_result cfg (chance num)
        (cfg.GetRandomItem chance luckValue owned num)
      · rw [same]
        omega
      · rw [added, List.length_append, List.length_singleton]
        omega

/-- The entry of a draw, where each before it has brought one. -/
theorem entry_at {data : LuckyBlindBoxItem} (less : i < num)
    (length : (cfg.GetRandomItem chance luckValue owned i).result.length = i)
    (added : (cfg.GetRandomItem chance luckValue owned (i + 1)).result =
      (cfg.GetRandomItem chance luckValue owned i).result ++ [data]) :
    (cfg.GetRandomItem chance luckValue owned num).result[i]? = some data := by
  obtain ⟨rest, whole⟩ := @result_grows cfg chance luckValue owned (i + 1) num less
  rw [← whole, added, List.append_assoc, List.getElem?_append_right length.le, length, Nat.sub_self]
  rfl

/-- After draws that were supplied the heroes not to be drawn are those owned and those of the
entries, of which there is one a draw. -/
theorem draws_supplied
    (supplied : ∀ i < num, cfg.Supplied (chance i) (cfg.GetRandomItem chance luckValue owned i)) :
    (cfg.GetRandomItem chance luckValue owned num).result.length = num ∧
    (cfg.GetRandomItem chance luckValue owned num).exists_heros =
      owned ++ (cfg.GetRandomItem chance luckValue owned num).result.flatMap cfg.itemHeroes ∧
    (∀ data ∈ (cfg.GetRandomItem chance luckValue owned num).result,
      ∀ heroId ∈ cfg.itemHeroes data, heroId ∉ owned) ∧
    (cfg.GetRandomItem chance luckValue owned num).result.Pairwise fun before data =>
      ∀ heroId ∈ cfg.itemHeroes data, heroId ∉ cfg.itemHeroes before := by
  induction num with
  | zero => exact ⟨rfl, (List.append_nil _).symm, by simp [GetRandomItem], List.Pairwise.nil⟩
  | succ num ih =>
      obtain ⟨length, heros, unowned, distinct⟩ := ih fun i less => supplied i (by omega)
      obtain ⟨data, free, _, drawn⟩ := drawOne_supplied (supplied num (Nat.lt_succ_self num))
      rw [GetRandomItem, drawn]
      simp only
      refine ⟨?_, ?_, ?_, ?_⟩
      · rw [List.length_append, length, List.length_singleton]
      · rw [heros, List.append_assoc, List.flatMap_append, List.flatMap_singleton]
      · intro other mem heroId within listed
        obtain mem | mem := List.mem_append.mp mem
        · exact unowned other mem heroId within listed
        · rw [List.mem_singleton.mp mem] at within
          apply free heroId within
          rw [heros]
          exact List.mem_append_left _ listed
      · rw [List.pairwise_append]
        refine ⟨distinct, List.pairwise_singleton _ _, ?_⟩
        intro before mem last same heroId within listed
        rw [List.mem_singleton.mp same] at within
        apply free heroId within
        rw [heros]
        exact List.mem_append_right _ (List.mem_flatMap.mpr ⟨before, mem, listed⟩)

/-- The luck value goes up by a step below the limit, and back to zero from there. -/
theorem luck_supplied (least : 0 ≤ luckValue)
    (most : luckValue ≤ cfg.luck_to_good_baoxiang_limit + cfg.add_luck_step)
    (supplied : ∀ i < num, cfg.Supplied (chance i) (cfg.GetRandomItem chance luckValue owned i)) :
    0 ≤ (cfg.GetRandomItem chance luckValue owned num).luckValue ∧
      (cfg.GetRandomItem chance luckValue owned num).luckValue ≤
        cfg.luck_to_good_baoxiang_limit + cfg.add_luck_step := by
  induction num with
  | zero => exact ⟨least, most⟩
  | succ num ih =>
      obtain ⟨low, high⟩ := ih fun i less => supplied i (by omega)
      obtain ⟨data, _, _, drawn⟩ := drawOne_supplied (supplied num (Nat.lt_succ_self num))
      rw [GetRandomItem, drawn]
      simp only [addLuckValue]
      split
      · omega
      · split
        · split
          · omega
          · omega
        · exact ⟨low, high⟩

/-- A request brings what it is to bring just where each of its draws is supplied. -/
theorem rewards_iff :
    cfg.Rewards chance luckValue owned num (cfg.GetRandomItem chance luckValue owned num) ↔
      ∀ i < num, cfg.Supplied (chance i) (cfg.GetRandomItem chance luckValue owned i) := by
  constructor
  · intro rewards i less
    have counts : ∀ j ≤ num, (cfg.GetRandomItem chance luckValue owned j).result.length = j := by
      intro j le
      have start := @result_length cfg chance luckValue owned 0 j j.zero_le
      have rest := @result_length cfg chance luckValue owned j num le
      rw [rewards.entries] at rest
      simp only [GetRandomItem, List.length_nil] at start
      omega
    have next := counts (i + 1) less
    have here := counts i less.le
    rw [GetRandomItem] at next
    obtain same | ⟨_, data, found, added⟩ := @drawOne_result cfg (chance i)
      (cfg.GetRandomItem chance luckValue owned i)
    · rw [same] at next
      omega
    · obtain ⟨listed, positive, free, box, mem, type, random⟩ := drawOne_some found
      refine ⟨box, mem, ?_, data, listed, type, positive, free⟩
      split
      · rename_i limit
        obtain ⟨_, last, limited, at_⟩ := rewards.limited i less limit
        have entry := @entry_at cfg chance luckValue owned i num data less here added
        rw [at_] at entry
        rw [← type, ← limited, Option.some.inj entry]
      · rename_i below
        exact random (not_le.mp below)
  · intro supplied
    have upto (j : Nat) (le : j ≤ num) : ∀ i < j, cfg.Supplied (chance i)
        (cfg.GetRandomItem chance luckValue owned i) := fun i less => supplied i (less.trans_le le)
    obtain ⟨length, _, unowned, distinct⟩ := draws_supplied supplied
    refine ⟨length, unowned, distinct, fun least most j le => luck_supplied least most (upto j le), ?_⟩
    intro i less limit
    obtain ⟨data, _, limited, drawn⟩ := drawOne_supplied (supplied i less)
    obtain ⟨before, _⟩ := draws_supplied (upto i less.le)
    rw [← GetRandomItem] at drawn
    refine ⟨?_, data, limited limit, entry_at less before (congrArg BlindDraw.result drawn)⟩
    rw [drawn]
    exact if_pos limit

/-- Where each box holds an item with a weight and without heroes, as the boxes in use do, every
request brings what it is to bring. -/
theorem rewards_plain (weighted : ∃ box ∈ cfg.lucky_blind_box, 0 < box.weight)
    (limited : ∃ box ∈ cfg.lucky_blind_box, box.type_id = type1002)
    (plain : ∀ box ∈ cfg.lucky_blind_box, ∃ data ∈ cfg.lucky_blind_box_items,
      data.type_id = box.type_id ∧ 0 < data.weight ∧ cfg.itemHeroes data = []) :
    cfg.Rewards chance luckValue owned num (cfg.GetRandomItem chance luckValue owned num) := by
  rw [rewards_iff]
  intro i _
  have holds (box : LuckyBlindBox) (mem : box ∈ cfg.lucky_blind_box) :
      ∃ data ∈ cfg.lucky_blind_box_items, data.type_id = box.type_id ∧ 0 < data.weight ∧
        ∀ heroId ∈ cfg.itemHeroes data,
          heroId ∉ (cfg.GetRandomItem chance luckValue owned i).exists_heros := by
    obtain ⟨data, listed, type, positive, none_⟩ := plain box mem
    exact ⟨data, listed, type, positive, by simp [none_]⟩
  by_cases limit : cfg.luck_to_good_baoxiang_limit ≤
      (cfg.GetRandomItem chance luckValue owned i).luckValue
  · obtain ⟨box, mem, type⟩ := limited
    exact ⟨box, mem, by rw [if_pos limit]; exact type, holds box mem⟩
  · obtain ⟨first, listed, positive⟩ := weighted
    obtain ⟨box, picked⟩ :=
      @getChance_isSome _ LuckyBlindBox.weight (chance i).box _ first listed positive
    have mem := (getChance_some picked).1
    exact ⟨box, mem, by rw [if_neg limit]; exact picked, holds box mem⟩

end Request
end BlindBoxCfg

section TakeLuckBaoxiang
variable {cfg : LuckCfg} {boxes : BlindBoxCfg} {chance : Nat → DrawChance} {data : LuckData}
  {diamond : Nat} {luckValue : Int} {owned : List Nat} {lucktype : Option Int} {type : LockBXType}
  {take : LuckTake}

theorem takeLuckBaoxiang_drawn (kind : LuckData.luckType lucktype = some type)
    (taken : takeLuckBaoxiang cfg boxes chance data diamond luckValue owned lucktype = .ok take) :
    take.drawn = boxes.GetRandomItem chance luckValue owned type.rand_num := by
  rw [takeLuckBaoxiang] at taken
  split at taken
  · cases taken
  · rename_i paid
    cases taken
    rw [LuckData.cosume] at paid
    split at paid
    · cases paid
    · simp only [kind] at paid
      split at paid
      · cases paid
      · cases paid
        rfl

/-- A request that gets through brings an entry for each draw, none with a hero owned or drawn
before, and at the limit of the luck value the limited box, just where each of its draws is
supplied. -/
theorem takeLuckBaoxiang_iff (kind : LuckData.luckType lucktype = some type)
    (taken : takeLuckBaoxiang cfg boxes chance data diamond luckValue owned lucktype = .ok take) :
    boxes.Rewards chance luckValue owned type.rand_num take.drawn ↔
      ∀ i < type.rand_num,
        boxes.Supplied (chance i) (boxes.GetRandomItem chance luckValue owned i) := by
  rw [takeLuckBaoxiang_drawn kind taken]
  exact BlindBoxCfg.rewards_iff

end TakeLuckBaoxiang

section Samples

/-- Hero 104001 in the limited box, and nothing else. -/
private def heroOnly : BlindBoxCfg where
  lucky_blind_box := [⟨1001, 9700⟩, ⟨1002, 300⟩]
  lucky_blind_box_items := [⟨1001, [⟨605001, 60⟩], 700⟩, ⟨1002, [⟨145001, 1⟩], 200⟩]
  items itemId := if itemId = 145001 then some ⟨heroBox, [104001]⟩ else none
  add_luck_step := 10
  luck_to_good_baoxiang_limit := 300
  hero := by
    intro itemId item row _
    split at row
    · cases row
      exact ⟨104001, by decide, rfl⟩
    · cases row

private def firstChance (_ : Nat) : DrawChance := ⟨0, 0, id, fun arr => List.Perm.refl arr⟩

private def noneFree : LuckData := ⟨0, 0, [], ⟨0, 0, 0, 0⟩, ⟨0, 0, 0, 0⟩, 0⟩

theorem takeLuckBaoxiang_iff_ten :
    ∃ take, takeLuckBaoxiang LuckBox.luckSample heroOnly firstChance noneFree 90 290 [] (some 2) =
      .ok take ∧
    (heroOnly.Rewards firstChance 290 [] 10 take.drawn ↔
      ∀ i < 10, heroOnly.Supplied (firstChance i) (heroOnly.GetRandomItem firstChance 290 [] i)) :=
  ⟨_, rfl, @takeLuckBaoxiang_iff LuckBox.luckSample heroOnly firstChance noneFree 90 290 [] (some 2)
    .type10 _ rfl rfl⟩

/-- At the limit a paid draw brings nothing to the owner of that hero, and the luck is gone. -/
theorem takeLuckBaoxiang_fails :
    (∀ box ∈ heroOnly.lucky_blind_box, ∃ data ∈ heroOnly.lucky_blind_box_items,
      data.type_id = box.type_id ∧ 0 < data.weight) ∧
    ∃ take, takeLuckBaoxiang LuckBox.luckSample heroOnly firstChance noneFree 10 300 [104001]
        (some 1) = .ok take ∧
      take.diamond = 0 ∧ take.drawn = ⟨0, [104001], []⟩ ∧
      ¬heroOnly.Rewards firstChance 300 [104001] 1 take.drawn := by
  refine ⟨by decide, _, rfl, rfl, rfl, ?_⟩
  intro rewards
  exact absurd rewards.entries (by decide)

end Samples
end HuluLandlord.Agent
