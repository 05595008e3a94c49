import HuluLandlord.Agent.UserItem
import HuluLandlord.Transition

/-!
The rewards of a game and their limits. A room limits two of the items by the day, and a hero limits
the rune experience by the week. Both limits become one allowance per item, which the rewards of a
game use up from the first to the last; the counters follow when the game is through. A day is what
lies between two `UserNewDay`, a week between two `UserNewWeek`. What a loser pays is left out.
-/
namespace HuluLandlord.Agent
open Transition

def itemRuneExp : ItemId := 605001
def itemGourdWater : ItemId := 115001

structure RewardLimit where
  id : ItemId
  limit : Int
  deriving DecidableEq

/-- The columns of `cfg_room_cost` a reward is read from. -/
structure RoomCost where
  game_id : Nat
  room_type : Nat
  rewardLimitDay : List RewardLimit
  reward : List Entry
  rewardFail : List Entry
  limits : ∀ l ∈ rewardLimitDay, 0 ≤ l.limit
  rewards : ∀ e ∈ reward, 0 ≤ e.num
  rewardFails : ∀ e ∈ rewardFail, 0 ≤ e.num

/-- `datax.roomGroup` with the global value 101009, what a hero may bring in a week. -/
structure RoomCostTable where
  roomGroup : Nat → Nat → Option RoomCost
  expWeek : Int
  keyed : ∀ gameType roomLevel sData, roomGroup gameType roomLevel = some sData →
    sData.game_id = gameType ∧ sData.room_type = roomLevel
  capped : 0 ≤ expWeek

/-- The bonus types a reward looks at. -/
inductive BonusType
  | gameWinGold | gameRuneExpFixedWin | gameRuneExpFixedLose
  deriving DecidableEq, Repr

structure BonusObj where
  rune : Option (BonusType → Option Int)
  mood : Option (BonusType → Option Int)

structure HeroGet where
  ljexp : Int
  ljexp_week : Int
  deriving DecidableEq, Repr

/-- The three lists of a game: its own rewards, and what the runes and the mood add. -/
structure RewardArrs where
  itemArr : List Entry
  runeAddItemArr : List Entry
  moodAddItemArr : List Entry
  deriving DecidableEq, Repr

def RewardArrs.all (arrs : RewardArrs) : List Entry :=
  arrs.itemArr ++ arrs.runeAddItemArr ++ arrs.moodAddItemArr

/-- A game that was rewarded: what its room and the bonuses name, and what was given. -/
structure GameReward where
  sData : RoomCost
  skin : Nat
  named : RewardArrs
  given : RewardArrs

inductive RewardHappening
  | game (g : GameReward)
  | newDay
  | newWeek

/-- `rewardRecord` holds the counts of the day, by the type of the game, the level of its room and the
item; one that is not there reads as 0. `datas` are the rows of `UserHeroGet`, once they are read.
`history` is newest first. -/
structure RewardUser where
  rewardRecord : Nat → Nat → ItemId → Int
  userhero : List Nat
  datas : Option (Nat → Option HeroGet)
  skin : Option Nat
  bonusObj : BonusObj
  history : List RewardHappening

inductive RewardEvent
  | RoomGameOver_C (gameType roomLevel : Nat) (isWin : Bool) (goldChange : Int)
  | ssw_gameover (gameType roomLevel : Nat) (goldChange : Int)
  | UserHeroAdd (sId : Nat)
  | HeroUse (sId : Nat)
  | bonus (bonusObj : BonusObj)
  | UserNewDay
  | UserNewWeek

inductive LimitFrom
  | unset | room | hero
  deriving DecidableEq, Repr

structure LimitObj where
  limit : Option Int
  limitFrom : LimitFrom
  deriving DecidableEq, Repr

/-- The two tables `gameRewardHandler` fills while it goes over the lists. -/
structure RewardLimits where
  rewardLimitNumObj : ItemId → Option LimitObj
  rewardLimitFrom : ItemId → Option LimitFrom

/-- One entry against the limits; `first` is what an item that comes for the first time may give. -/
def RewardLimits.addItme (first : ItemId → LimitObj) (lims : RewardLimits) (obj : Entry) :
    RewardLimits × Entry :=
  let limitObj := (lims.rewardLimitNumObj obj.id).getD (first obj.id)
  match limitObj.limit with
  | none =>
      (⟨Function.update lims.rewardLimitNumObj obj.id (some limitObj), lims.rewardLimitFrom⟩, obj)
  | some limit =>
      let num := min obj.num limit
      let left := limit - num
      (⟨Function.update lims.rewardLimitNumObj obj.id (some ⟨some left, limitObj.limitFrom⟩),
        if left ≤ 0 then Function.update lims.rewardLimitFrom obj.id (some limitObj.limitFrom)
        else lims.rewardLimitFrom⟩, ⟨obj.id, num⟩)

def RewardLimits.addEach (first : ItemId → LimitObj) :
    RewardLimits → List Entry → RewardLimits × List Entry
  | lims, [] => (lims, [])
  | lims, obj :: itemArr =>
      let one := lims.addItme first obj
      let rest := addEach first one.1 itemArr
      (rest.1, one.2 :: rest.2)

namespace BonusObj

/-- What the runes add to the coins of a game that was won. -/
def runeItems (bonusObj : BonusObj) (isWin : Bool) (itemArr : List Entry) : List Entry :=
  match bonusObj.rune with
  | some rune =>
      let goldRate := (rune .gameWinGold).getD 0
      let goldItemObj := itemArr.find? fun value => value.id = itemGold
      let num := (goldItemObj.map fun item => item.num * goldRate / 10000).getD 0
      if isWin ∧ goldRate > 0 ∧ num > 0 then [⟨itemGold, num⟩] else []
  | none => []

def moodItems (bonusObj : BonusObj) (isWin : Bool) : List Entry :=
  match bonusObj.mood with
  | some mood =>
      let runeExpNum :=
        (mood (if isWin then .gameRuneExpFixedWin else .gameRuneExpFixedLose)).getD 0
      if runeExpNum > 0 then [⟨itemRuneExp, runeExpNum⟩] else []
  | none => []

end BonusObj

def addRewardRecord (gameType roomLevel : Nat) :
    (Nat → Nat → ItemId → Int) → List Entry → Nat → Nat → ItemId → Int
  | record, [] => record
  | record, itemObj :: itemArr =>
      addRewardRecord gameType roomLevel
        (fun g l i =>
          if g = gameType ∧ l = roomLevel ∧ i = itemObj.id then record g l i + itemObj.num
          else record g l i) itemArr

def AddExpBook (id : Nat) (rows : Nat → Option HeroGet) (num : Int) : Nat → Option HeroGet :=
  match rows id with
  | some data => Function.update rows id (some ⟨data.ljexp + num, data.ljexp_week + num⟩)
  | none => rows

/-- What `ma_userheroget` does with the rewards of a game. -/
def addExpBooks (id : Nat) : (Nat → Option HeroGet) → List Entry → Nat → Option HeroGet
  | rows, [] => rows
  | rows, itemObj :: rewardArr =>
      addExpBooks id (if itemObj.id = itemRuneExp then AddExpBook id rows itemObj.num else rows)
        rewardArr

namespace RewardUser
variable (cfg : RoomCostTable)

def getRewardNum (s : RewardUser) (itemId : ItemId) (gameType roomLevel : Nat) : Int :=
  s.rewardRecord gameType roomLevel itemId

/-- Rows that are not there yet are made, one for each hero the user has. -/
def getDatas (s : RewardUser) : Nat → Option HeroGet :=
  s.datas.getD fun id => if id ∈ s.userhero then some ⟨0, 0⟩ else none

def GetLJExpBook_Week (s : RewardUser) (id : Nat) : Int :=
  match s.getDatas id with
  | some data => data.ljexp_week
  | none => 0

/-- The limit by the room. -/
def dayLimit (s : RewardUser) (roomDataCfg : RoomCost) (id : ItemId) : LimitObj :=
  if id = itemRuneExp ∨ id = itemGourdWater then
    match roomDataCfg.rewardLimitDay.find? fun value => value.id = id with
    | some limitObjDay =>
        ⟨some (max (limitObjDay.limit -
          s.getRewardNum id roomDataCfg.game_id roomDataCfg.room_type) 0), .room⟩
    | none => ⟨none, .unset⟩
  else ⟨none, .unset⟩

/-- What an item may give in a game, before anything of it was given. -/
def firstLimit (s : RewardUser) (roomDataCfg : RoomCost) (skin : Nat) (id : ItemId) : LimitObj :=
  let day := s.dayLimit roomDataCfg id
  if id = itemRuneExp then
    let heroLimit := max (cfg.expWeek - s.GetLJExpBook_Week skin) 0
    match day.limit with
    | none => ⟨some heroLimit, .hero⟩
    | some limit => if limit > heroLimit then ⟨some heroLimit, .hero⟩ else day
  else day

/-- The lists as they are given, and what limited them. -/
def gameRewardHandler (s : RewardUser) (roomDataCfg : RoomCost) (skin : Nat) (isWin : Bool)
    (itemArr : List Entry) : RewardArrs × (ItemId → Option LimitFrom) :=
  let first := s.firstLimit cfg roomDataCfg skin
  let base := RewardLimits.addEach first ⟨fun _ => none, fun _ => none⟩ itemArr
  let runeAddItemArr := s.bonusObj.runeItems isWin base.2
  let mood := base.1.addEach first (s.bonusObj.moodItems isWin)
  (⟨base.2, runeAddItemArr, mood.2⟩, mood.1.rewardLimitFrom)

/-- The listeners of `RoomGameReward`. -/
def roomGameReward (s : RewardUser) (gameType roomLevel : Nat) (g : GameReward) : RewardUser :=
  { s with
    rewardRecord := addRewardRecord gameType roomLevel s.rewardRecord g.given.all
    datas := some (addExpBooks g.skin s.getDatas g.given.all)
    history := .game g :: s.history }

def RoomGameOver_C (s : RewardUser) (skin gameType roomLevel : Nat) (isWin : Bool)
    (goldChange : Int) : RewardUser :=
  match cfg.roomGroup gameType roomLevel with
  | none => s
  | some sData =>
      let isWin := isWin || decide (goldChange ≥ 0)
      let rewardArr := if isWin then ⟨itemGold, |goldChange|⟩ :: sData.reward else sData.rewardFail
      s.roomGameReward gameType roomLevel
        ⟨sData, skin,
          ⟨rewardArr, s.bonusObj.runeItems isWin rewardArr, s.bonusObj.moodItems isWin⟩,
          (s.gameRewardHandler cfg sData skin isWin rewardArr).1⟩

/-- The beans of this game change hands while it is played, so the runes have nothing to add to and
their list is not given. -/
def ssw_gameover (s : RewardUser) (skin gameType roomLevel : Nat) (goldChange : Int) :
    RewardUser :=
  match cfg.roomGroup gameType roomLevel with
  | none => s
  | some sData =>
      let isWin := decide (goldChange ≥ 0)
      let rewardArr := if isWin then sData.reward else sData.rewardFail
      s.roomGameReward gameType roomLevel
        ⟨sData, skin, ⟨rewardArr, [], s.bonusObj.moodItems isWin⟩,
          { (s.gameRewardHandler cfg sData skin isWin rewardArr).1 with runeAddItemArr := [] }⟩

def addHero (s : RewardUser) (sId : Nat) : RewardUser :=
  let s := { s with userhero := sId :: s.userhero }
  { s with
    datas :=
      some (if s.getDatas sId = none then Function.update s.getDatas sId (some ⟨0, 0⟩)
        else s.getDatas) }

def newWeek (s : RewardUser) : RewardUser :=
  { s with
    datas := some fun id => (s.getDatas id).map fun data => { data with ljexp_week := 0 }
    history := .newWeek :: s.history }

/-- A room cannot seat a player who has no skin. -/
def step (s : RewardUser) : RewardEvent → Option RewardUser
  | .RoomGameOver_C gameType roomLevel isWin goldChange =>
      s.skin.map fun skin => s.RoomGameOver_C cfg skin gameType roomLevel isWin goldChange
  | .ssw_gameover gameType roomLevel goldChange =>
      s.skin.map fun skin => s.ssw_gameover cfg skin gameType roomLevel goldChange
  | .UserHeroAdd sId => some (s.addHero sId)
  | .HeroUse sId => some (if sId ∈ s.userhero then { s with skin := some sId } else s)
  | .bonus bonusObj => some { s with bonusObj := bonusObj }
  | .UserNewDay =>
      some { s with rewardRecord := fun _ _ _ => 0, history := .newDay :: s.history }
  | .UserNewWeek => some s.newWeek

end RewardUser

/-- What a room gives of an item in a day. -/
def RoomCost.limitDay (sData : RoomCost) (id : ItemId) : Option Int :=
  (sData.rewardLimitDay.find? fun value => value.id = id).map RewardLimit.limit

def Limited (id : ItemId) : Prop := id = itemRuneExp ∨ id = itemGourdWater

instance instDecidableLimited (id : ItemId) : Decidable (Limited id) :=
  inferInstanceAs (Decidable (_ ∨ _))

/-- What the games of a room have given of an item since the day began. -/
def roomDay (gameType roomLevel : Nat) (id : ItemId) : List RewardHappening → Int
  | [] => 0
  | .newDay :: _ => 0
  | .newWeek :: history => roomDay gameType roomLevel id history
  | .game g :: history =>
      (if g.sData.game_id = gameType ∧ g.sData.room_type = roomLevel then total g.given.all id
        else 0) + roomDay gameType roomLevel id history

/-- The rune experience of the games a hero was in since the week began. -/
def heroWeek (skin : Nat) : List RewardHappening → Int
  | [] => 0
  | .newDay :: history => heroWeek skin history
  | .newWeek :: _ => 0
  | .game g :: history =>
      (if g.skin = skin then total g.given.all itemRuneExp else 0) + heroWeek skin history

/-- After `g` one of the limits of an item is used up. -/
def Reached (cfg : RoomCostTable) (g : GameReward) (older : List RewardHappening) (id : ItemId) :
    Prop :=
  (Limited id ∧ ∃ limit, g.sData.limitDay id = some limit ∧
      limit ≤ roomDay g.sData.game_id g.sData.room_type id (.game g :: older)) ∨
    id = itemRuneExp ∧ cfg.expWeek ≤ heroWeek g.skin (.game g :: older)

/-- A game kept to the limits, and withheld nothing that they did not make it withhold. -/
structure Rewarded (cfg : RoomCostTable) (g : GameReward) (older : List RewardHappening) : Prop where
  room : cfg.roomGroup g.sData.game_id g.sData.room_type = some g.sData
  nonneg : ∀ e ∈ g.given.all, 0 ≤ e.num
  day : ∀ id limit, Limited id → g.sData.limitDay id = some limit →
    roomDay g.sData.game_id g.sData.room_type id (.game g :: older) ≤ limit
  week : heroWeek g.skin (.game g :: older) ≤ cfg.expWeek
  left : total g.given.all itemRuneExp ≤ cfg.expWeek - heroWeek g.skin older
  whole : List.Forall₂ (fun named given => given.id = named.id ∧ given.num ≤ named.num ∧
    (given ≠ named → Reached cfg g older named.id)) g.named.all g.given.all

section Limits
variable {first : ItemId → LimitObj} {lims : RewardLimits} {obj : Entry} {id : ItemId}

/-- What may still be given of an item. -/
def RewardLimits.allowance (first : ItemId → LimitObj) (lims : RewardLimits) (id : ItemId) :
    Option Int :=
  ((lims.rewardLimitNumObj id).getD (first id)).limit

/-- No allowance is negative. -/
def RewardLimits.Sound (first : ItemId → LimitObj) (lims : RewardLimits) : Prop :=
  ∀ id a, lims.allowance first id = some a → 0 ≤ a

theorem allowance_other (other : id ≠ obj.id) :
    (lims.addItme first obj).1.allowance first id = lims.allowance first id := by
  simp only [RewardLimits.addItme]
  split
  · simp only [RewardLimits.allowance, Function.update_of_ne other]
  · simp only [RewardLimits.allowance, Function.update_of_ne other]

theorem addItme_free (free : lims.allowance first obj.id = none) :
    (lims.addItme first obj).2 = obj ∧
      (lims.addItme first obj).1.allowance first obj.id = none := by
  have here : ((lims.rewardLimitNumObj obj.id).getD (first obj.id)).limit = none := free
  simp only [RewardLimits.addItme, here]
  refine ⟨trivial, ?_⟩
  simp only [RewardLimits.allowance, Function.update_self, Option.getD_some]
  exact here

theorem addItme_limited {a : Int} (limited : lims.allowance first obj.id = some a) :
    (lims.addItme first obj).2 = ⟨obj.id, min obj.num a⟩ ∧
      (lims.addItme first obj).1.allowance first obj.id = some (a - min obj.num a) := by
  have here : ((lims.rewardLimitNumObj obj.id).getD (first obj.id)).limit = some a := limited
  simp only [RewardLimits.addItme, here]
  refine ⟨trivial, ?_⟩
  simp only [RewardLimits.allowance, Function.update_self, Option.getD_some]

/-- What an entry gives is taken off the allowance of its item. -/
theorem addItme_allowance :
    (lims.addItme first obj).1.allowance first id =
      (lims.allowance first id).map fun a => a - total [(lims.addItme first obj).2] id := by
  by_cases here : id = obj.id
  · subst here
    cases limit : lims.allowance first obj.id with
    | none => exact (addItme_free limit).2
    | some a =>
        obtain ⟨given, left⟩ := addItme_limited limit
        rw [left, given, total_cons, if_pos rfl, total_nil, add_zero]
        rfl
  · have kept : (lims.addItme first obj).2.id ≠ id := by
      cases limit : lims.allowance first obj.id with
      | none => rw [(addItme_free limit).1]; exact Ne.symm here
      | some a => rw [(addItme_limited limit).1]; exact Ne.symm here
    rw [allowance_other here, total_cons, if_neg kept, total_nil, add_zero]
    cases lims.allowance first id with
    | none => rfl
    | some a => simp

theorem addItme_id : (lims.addItme first obj).2.id = obj.id := by
  cases limit : lims.allowance first obj.id with
  | none => rw [(addItme_free limit).1]
  | some a => rw [(addItme_limited limit).1]

/-- An entry is given whole, or the allowance of its item is gone. -/
theorem addItme_given (sound : lims.Sound first) (amount : 0 ≤ obj.num) :
    0 ≤ (lims.addItme first obj).2.num ∧ (lims.addItme first obj).2.num ≤ obj.num ∧
      ((lims.addItme first obj).2 ≠ obj →
        (lims.addItme first obj).1.allowance first obj.id = some 0) := by
  cases limit : lims.allowance first obj.id with
  | none =>
      obtain ⟨given, _⟩ := addItme_free limit
      rw [given]
      exact ⟨amount, le_refl _, fun less => absurd rfl less⟩
  | some a =>
      obtain ⟨given, left⟩ := addItme_limited limit
      have positive := sound _ _ limit
      rw [given, left]
      refine ⟨le_min amount positive, min_le_left _ _, fun less => ?_⟩
      have short : a < obj.num := by
        by_contra enough
        exact less (congrArg (Entry.mk obj.id) (min_eq_left (not_lt.mp enough)))
      rw [min_eq_right short.le, sub_self]

theorem addItme_sound (sound : lims.Sound first) :
    (lims.addItme first obj).1.Sound first := by
  intro id a found
  by_cases here : id = obj.id
  · subst here
    cases limit : lims.allowance first obj.id with
    | none => rw [(addItme_free limit).2] at found; nomatch found
    | some b =>
        rw [(addItme_limited limit).2] at found
        obtain rfl := Option.some.inj found
        exact sub_nonneg.mpr (min_le_right _ _)
  · rw [allowance_other here] at found
    exact sound id a found

theorem total_append (xs ys : List Entry) (id : ItemId) :
    total (xs ++ ys) id = total xs id + total ys id := by
  induction xs with
  | nil => simp
  | cons e xs ih => rw [List.cons_append, total_cons, total_cons, ih, add_assoc]

theorem addEach_allowance (itemArr : List Entry) (lims : RewardLimits) :
    (lims.addEach first itemArr).1.allowance first id =
      (lims.allowance first id).map fun a => a - total (lims.addEach first itemArr).2 id := by
  induction itemArr generalizing lims with
  | nil =>
      cases limit : lims.allowance first id with
      | none => exact limit
      | some a => simpa [RewardLimits.addEach] using limit
  | cons obj itemArr ih =>
      rw [RewardLimits.addEach, ih, addItme_allowance, Option.map_map]
      refine congrFun (congrArg _ (funext fun a => ?_)) _
      rw [total_cons, total_cons, total_nil, add_zero, Function.comp_apply]
      omega

theorem addEach_sound (itemArr : List Entry) (sound : lims.Sound first) :
    (lims.addEach first itemArr).1.Sound first := by
  induction itemArr generalizing lims with
  | nil => exact sound
  | cons obj itemArr ih => exact ih (addItme_sound sound)

/-- An allowance that is gone stays gone. -/
theorem addEach_gone (sound : lims.Sound first) (gone : lims.allowance first id = some 0)
    (itemArr : List Entry) (amounts : ∀ e ∈ itemArr, 0 ≤ e.num) :
    (lims.addEach first itemArr).1.allowance first id = some 0 := by
  induction itemArr generalizing lims with
  | nil => exact gone
  | cons obj itemArr ih =>
      have rest : ∀ e ∈ itemArr, 0 ≤ e.num := fun e mem => amounts e (List.mem_cons_of_mem _ mem)
      refine ih (addItme_sound sound) ?_ rest
      by_cases here : id = obj.id
      · subst here
        rw [(addItme_limited gone).2, min_eq_right (amounts obj List.mem_cons_self), sub_self]
      · rw [allowance_other here, gone]

theorem addEach_given (sound : lims.Sound first) (itemArr : List Entry)
    (amounts : ∀ e ∈ itemArr, 0 ≤ e.num) :
    List.Forall₂ (fun named given => given.id = named.id ∧ 0 ≤ given.num ∧
      given.num ≤ named.num ∧ (given ≠ named →
        (lims.addEach first itemArr).1.allowance first named.id = some 0))
      itemArr (lims.addEach first itemArr).2 := by
  induction itemArr generalizing lims with
  | nil => exact .nil
  | cons obj itemArr ih =>
      have rest : ∀ e ∈ itemArr, 0 ≤ e.num := fun e mem => amounts e (List.mem_cons_of_mem _ mem)
      have after := @addItme_sound first lims obj sound
      obtain ⟨nonneg, below, less⟩ := addItme_given sound (amounts obj List.mem_cons_self)
      exact .cons ⟨addItme_id, nonneg, below, fun part => addEach_gone after (less part) itemArr rest⟩
        (ih after rest)

end Limits

section Records
variable {gameType roomLevel g l : Nat} {i : ItemId} {id : Nat}

theorem addRewardRecord_total (itemArr : List Entry) (record : Nat → Nat → ItemId → Int) :
    addRewardRecord gameType roomLevel record itemArr g l i =
      (if g = gameType ∧ l = roomLevel then total itemArr i else 0) + record g l i := by
  induction itemArr generalizing record with
  | nil => simp [addRewardRecord]
  | cons itemObj itemArr ih =>
      rw [addRewardRecord, ih, total_cons]
      by_cases room : g = gameType ∧ l = roomLevel
      · by_cases item : itemObj.id = i
        · rw [if_pos room, if_pos room, if_pos item, if_pos ⟨room.1, room.2, item.symm⟩]
          omega
        · rw [if_pos room, if_pos room, if_neg item, if_neg fun same => item same.2.2.symm, zero_add]
      · rw [if_neg room, if_neg room, if_neg fun same => room ⟨same.1, same.2.1⟩]

theorem addExpBooks_other {h : Nat} (other : h ≠ id) (rewardArr : List Entry)
    (rows : Nat → Option HeroGet) : addExpBooks id rows rewardArr h = rows h := by
  induction rewardArr generalizing rows with
  | nil => rfl
  | cons itemObj rewardArr ih =>
      rw [addExpBooks, ih]
      split
      · cases found : rows id with
        | none => simp only [AddExpBook, found]
        | some data => simp only [AddExpBook, found, Function.update_of_ne other]
      · rfl

theorem addExpBooks_week (rewardArr : List Entry) {rows : Nat → Option HeroGet} {row : HeroGet}
    (found : rows id = some row) :
    ∃ row', addExpBooks id rows rewardArr id = some row' ∧
      row'.ljexp_week = total rewardArr itemRuneExp + row.ljexp_week := by
  induction rewardArr generalizing rows row with
  | nil => exact ⟨row, found, (zero_add _).symm⟩
  | cons itemObj rewardArr ih =>
      rw [addExpBooks, total_cons]
      by_cases book : itemObj.id = itemRuneExp
      · rw [if_pos book, if_pos book]
        have added : AddExpBook id rows itemObj.num id =
            some ⟨row.ljexp + itemObj.num, row.ljexp_week + itemObj.num⟩ := by
          simp only [AddExpBook, found, Function.update_self]
        obtain ⟨row', found', sum⟩ := ih added
        refine ⟨row', found', ?_⟩
        rw [sum]
        simp only
        omega
      · rw [if_neg book, if_neg book, zero_add]
        exact ih found

end Records

namespace RewardUser
variable {cfg : RoomCostTable} {s t : RewardUser} {sData : RoomCost} {skin : Nat} {id : ItemId}
  {isWin : Bool} {itemArr : List Entry}

/-- What is left to a room for the rest of the day. -/
def dayLeft (s : RewardUser) (sData : RoomCost) (id : ItemId) (limit : Int) : Int :=
  max (limit - s.getRewardNum id sData.game_id sData.room_type) 0

def weekLeft (cfg : RoomCostTable) (s : RewardUser) (skin : Nat) : Int :=
  max (cfg.expWeek - s.GetLJExpBook_Week skin) 0

theorem dayLimit_limit :
    (s.dayLimit sData id).limit =
      if Limited id then (sData.limitDay id).map (s.dayLeft sData id) else none := by
  unfold dayLimit RoomCost.limitDay
  by_cases limited : Limited id
  · have named : id = itemRuneExp ∨ id = itemGourdWater := limited
    rw [if_pos limited, if_pos named]
    cases sData.rewardLimitDay.find? fun value => value.id = id with
    | none => rfl
    | some limitObjDay => rfl
  · have other : ¬(id = itemRuneExp ∨ id = itemGourdWater) := limited
    rw [if_neg limited, if_neg other]

theorem firstLimit_free (other : id ≠ itemRuneExp) :
    (s.firstLimit cfg sData skin id).limit = (s.dayLimit sData id).limit := by
  rw [firstLimit, if_neg other]

theorem firstLimit_book :
    (s.firstLimit cfg sData skin itemRuneExp).limit =
      match (s.dayLimit sData itemRuneExp).limit with
      | none => some (weekLeft cfg s skin)
      | some limit => some (min limit (weekLeft cfg s skin)) := by
  rw [firstLimit, if_pos rfl]
  cases found : (s.dayLimit sData itemRuneExp).limit with
  | none => rfl
  | some limit =>
      simp only
      by_cases above : limit > max (cfg.expWeek - s.GetLJExpBook_Week skin) 0
      · rw [if_pos above, weekLeft, min_eq_right (le_of_lt above)]
      · rw [if_neg above, weekLeft, min_eq_left (not_lt.mp above), found]

/-- The first limit of an item is not above what the room has left for the day. -/
theorem firstLimit_day {limit : Int} (limited : Limited id)
    (listed : sData.limitDay id = some limit) :
    ∃ a, (s.firstLimit cfg sData skin id).limit = some a ∧ a ≤ s.dayLeft sData id limit := by
  have day : (s.dayLimit sData id).limit = some (s.dayLeft sData id limit) := by
    rw [dayLimit_limit, if_pos limited, listed]
    rfl
  by_cases book : id = itemRuneExp
  · subst book
    rw [firstLimit_book, day]
    exact ⟨_, rfl, min_le_left _ _⟩
  · rw [firstLimit_free book, day]
    exact ⟨_, rfl, le_refl _⟩

theorem firstLimit_week :
    ∃ a, (s.firstLimit cfg sData skin itemRuneExp).limit = some a ∧ a ≤ weekLeft cfg s skin := by
  rw [firstLimit_book]
  cases (s.dayLimit sData itemRuneExp).limit with
  | none => exact ⟨_, rfl, le_refl _⟩
  | some limit => exact ⟨_, rfl, min_le_right _ _⟩

/-- A first limit is what the room or the hero has left. -/
theorem firstLimit_source {a : Int} (found : (s.firstLimit cfg sData skin id).limit = some a) :
    (Limited id ∧ ∃ limit, sData.limitDay id = some limit ∧ a = s.dayLeft sData id limit) ∨
      id = itemRuneExp ∧ a = weekLeft cfg s skin := by
  have day : ∀ b, (s.dayLimit sData id).limit = some b →
      Limited id ∧ ∃ limit, sData.limitDay id = some limit ∧ b = s.dayLeft sData id limit := by
    intro b left
    rw [dayLimit_limit] at left
    split at left
    · rename_i limited
      obtain ⟨limit, listed, same⟩ := Option.map_eq_some_iff.mp left
      exact ⟨limited, limit, listed, same.symm⟩
    · cases left
  by_cases book : id = itemRuneExp
  · subst book
    rw [firstLimit_book] at found
    cases left : (s.dayLimit sData itemRuneExp).limit with
    | none =>
        rw [left] at found
        exact .inr ⟨rfl, (Option.some.inj found).symm⟩
    | some b =>
        rw [left] at found
        obtain rfl := Option.some.inj found
        obtain least | least := min_choice b (weekLeft cfg s skin)
        · rw [least]
          exact .inl (day b left)
        · exact .inr ⟨rfl, least⟩
  · rw [firstLimit_free book] at found
    exact .inl (day a found)

theorem firstLimit_nonneg {a : Int} (found : (s.firstLimit cfg sData skin id).limit = some a) :
    0 ≤ a := by
  obtain ⟨_, _, _, rfl⟩ | ⟨_, rfl⟩ := firstLimit_source found
  · exact le_max_right _ _
  · exact le_max_right _ _

/-- The limits before a game gives anything. -/
def noLimits : RewardLimits := ⟨fun _ => none, fun _ => none⟩

theorem noLimits_sound : noLimits.Sound (s.firstLimit cfg sData skin) :=
  fun _ _ found => firstLimit_nonneg found

theorem moodItems_positive {bonusObj : BonusObj} : ∀ e ∈ bonusObj.moodItems isWin, 0 ≤ e.num := by
  intro e mem
  rw [BonusObj.moodItems] at mem
  cases found : bonusObj.mood with
  | none =>
      rw [found] at mem
      cases mem
  | some mood =>
      simp only [found] at mem
      generalize (mood (if isWin then .gameRuneExpFixedWin else .gameRuneExpFixedLose)).getD 0 = num
        at mem
      split at mem
      · rename_i positive
        obtain rfl := List.mem_singleton.mp mem
        exact le_of_lt positive
      · cases mem

theorem runeItems_gold {bonusObj : BonusObj} :
    ∀ e ∈ bonusObj.runeItems isWin itemArr, e.id = itemGold ∧ 0 ≤ e.num := by
  intro e mem
  rw [BonusObj.runeItems] at mem
  cases found : bonusObj.rune with
  | none =>
      rw [found] at mem
      cases mem
  | some rune =>
      simp only [found] at mem
      split at mem
      · rename_i positive
        obtain rfl := List.mem_singleton.mp mem
        exact ⟨rfl, le_of_lt positive.2.2⟩
      · cases mem

/-- Coins have no limit, so the runes find the same coins after the limits as before. -/
theorem find_gold {given : List Entry}
    (kept : List.Forall₂ (fun named given : Entry => given.id = named.id ∧
      (named.id = itemGold → given = named)) itemArr given) :
    (given.find? fun value => value.id = itemGold) =
      itemArr.find? fun value => value.id = itemGold := by
  induction kept with
  | nil => rfl
  | @cons named given _ _ same _ ih =>
      by_cases gold : named.id = itemGold
      · rw [same.2 gold, List.find?_cons_of_pos (by simpa using gold),
          List.find?_cons_of_pos (by simpa using gold)]
      · rw [List.find?_cons_of_neg (by simpa [same.1] using gold),
          List.find?_cons_of_neg (by simpa using gold), ih]

theorem runeItems_find {bonusObj : BonusObj} {given : List Entry}
    (same : (given.find? fun value => value.id = itemGold) =
      itemArr.find? fun value => value.id = itemGold) :
    bonusObj.runeItems isWin given = bonusObj.runeItems isWin itemArr := by
  simp only [BonusObj.runeItems, same]

theorem gold_free : (s.firstLimit cfg sData skin itemGold).limit = none := by
  rw [firstLimit_free (by decide), dayLimit_limit, if_neg (by decide)]

/-- What the handler makes of a list, `used` being what it gave of an item in all. -/
def Given (first : ItemId → LimitObj) (used : ItemId → Int) (named given : Entry) : Prop :=
  given.id = named.id ∧ 0 ≤ given.num ∧ given.num ≤ named.num ∧
    (given ≠ named → (first named.id).limit = some (used named.id))

theorem given_nonneg {first : ItemId → LimitObj} {used : ItemId → Int} {named given : List Entry}
    (each : List.Forall₂ (Given first used) named given) : ∀ e ∈ given, 0 ≤ e.num := by
  induction each with
  | nil => exact fun _ mem => absurd mem List.not_mem_nil
  | cons entry _ ih =>
      intro e mem
      obtain rfl | mem := List.mem_cons.mp mem
      · exact entry.2.1
      · exact ih e mem

variable (cfg s sData skin isWin itemArr) in
/-- What a game gives of an item, the runes apart. -/
def used (id : ItemId) : Int :=
  let arrs := (s.gameRewardHandler cfg sData skin isWin itemArr).1
  total arrs.itemArr id + total arrs.moodAddItemArr id

variable (cfg s sData skin isWin itemArr) in
/-- The limits when a game has given everything. -/
def limitsAfter : RewardLimits :=
  ((noLimits.addEach (s.firstLimit cfg sData skin) itemArr).1.addEach (s.firstLimit cfg sData skin)
    (s.bonusObj.moodItems isWin)).1

theorem limitsAfter_sound :
    (limitsAfter cfg s sData skin isWin itemArr).Sound (s.firstLimit cfg sData skin) :=
  addEach_sound _ (addEach_sound _ noLimits_sound)

theorem limitsAfter_allowance :
    (limitsAfter cfg s sData skin isWin itemArr).allowance (s.firstLimit cfg sData skin) id =
      (s.firstLimit cfg sData skin id).limit.map fun a =>
        a - used cfg s sData skin isWin itemArr id := by
  rw [limitsAfter, addEach_allowance, addEach_allowance, Option.map_map]
  refine congrFun (congrArg _ (funext fun a => ?_)) _
  simp only [Function.comp_apply, used, gameRewardHandler, noLimits]
  omega

theorem handler_within {a : Int} (found : (s.firstLimit cfg sData skin id).limit = some a) :
    used cfg s sData skin isWin itemArr id ≤ a := by
  have left := @limitsAfter_allowance cfg s sData skin id isWin itemArr
  rw [found] at left
  exact sub_nonneg.mp (limitsAfter_sound id _ left)

/-- An item with nothing left was given up to its first limit. -/
theorem used_of_gone (gone : (limitsAfter cfg s sData skin isWin itemArr).allowance
    (s.firstLimit cfg sData skin) id = some 0) :
    (s.firstLimit cfg sData skin id).limit = some (used cfg s sData skin isWin itemArr id) := by
  rw [limitsAfter_allowance] at gone
  obtain ⟨a, found, none_left⟩ := Option.map_eq_some_iff.mp gone
  rw [found, sub_eq_zero.mp none_left]

theorem handler_itemArr (amounts : ∀ e ∈ itemArr, 0 ≤ e.num) :
    List.Forall₂ (Given (s.firstLimit cfg sData skin) (used cfg s sData skin isWin itemArr)) itemArr
      (s.gameRewardHandler cfg sData skin isWin itemArr).1.itemArr := by
  refine (addEach_given noLimits_sound itemArr amounts).imp fun named given entry => ?_
  obtain ⟨same, nonneg, below, less⟩ := entry
  refine ⟨same, nonneg, below, fun part => used_of_gone ?_⟩
  exact addEach_gone (addEach_sound _ noLimits_sound) (less part) _ moodItems_positive

theorem handler_moodAddItemArr :
    List.Forall₂ (Given (s.firstLimit cfg sData skin) (used cfg s sData skin isWin itemArr))
      (s.bonusObj.moodItems isWin)
      (s.gameRewardHandler cfg sData skin isWin itemArr).1.moodAddItemArr := by
  refine (addEach_given (addEach_sound itemArr noLimits_sound) _ moodItems_positive).imp
    fun named given entry => ?_
  obtain ⟨same, nonneg, below, less⟩ := entry
  exact ⟨same, nonneg, below, fun part => used_of_gone (less part)⟩

theorem handler_runeAddItemArr (amounts : ∀ e ∈ itemArr, 0 ≤ e.num) :
    (s.gameRewardHandler cfg sData skin isWin itemArr).1.runeAddItemArr =
      s.bonusObj.runeItems isWin itemArr := by
  refine runeItems_find (find_gold ((@handler_itemArr cfg s sData skin isWin _ amounts).imp
    fun named given entry => ⟨entry.1, fun gold => ?_⟩))
  by_contra part
  have limited := entry.2.2.2 part
  rw [gold, gold_free] at limited
  cases limited

/-- A game the way the handler rewards it. -/
structure Handled (cfg : RoomCostTable) (s : RewardUser) (g : GameReward) : Prop where
  within : ∀ id a, (s.firstLimit cfg g.sData g.skin id).limit = some a → total g.given.all id ≤ a
  each : List.Forall₂ (Given (s.firstLimit cfg g.sData g.skin) (total g.given.all))
    g.named.all g.given.all

/-- The runes add to no item that is limited. -/
theorem handled_of {runes : List Entry} (amounts : ∀ e ∈ itemArr, 0 ≤ e.num)
    (gold : ∀ e ∈ runes, e.id = itemGold ∧ 0 ≤ e.num) :
    Handled cfg s ⟨sData, skin, ⟨itemArr, runes, s.bonusObj.moodItems isWin⟩,
      { (s.gameRewardHandler cfg sData skin isWin itemArr).1 with runeAddItemArr := runes }⟩ := by
  have whole : ∀ id a, (s.firstLimit cfg sData skin id).limit = some a →
      total (RewardArrs.all { (s.gameRewardHandler cfg sData skin isWin itemArr).1 with
        runeAddItemArr := runes }) id = used cfg s sData skin isWin itemArr id := by
    intro id a found
    have other : ∀ e ∈ runes, e.id ≠ id := by
      rintro e mem rfl
      rw [(gold e mem).1, gold_free] at found
      cases found
    rw [RewardArrs.all, total_append, total_append, total_of_not_mem other, add_zero, used]
  refine ⟨fun id a found => ?_, ?_⟩
  · rw [whole id a found]
    exact handler_within found
  · have sums : ∀ {named given : Entry},
        Given (s.firstLimit cfg sData skin) (used cfg s sData skin isWin itemArr) named given →
        Given (s.firstLimit cfg sData skin) (total (RewardArrs.all
          { (s.gameRewardHandler cfg sData skin isWin itemArr).1 with
            runeAddItemArr := runes })) named given := by
      rintro named given ⟨same, nonneg, below, less⟩
      refine ⟨same, nonneg, below, fun part => ?_⟩
      rw [less part, whole named.id _ (less part)]
    have kept : List.Forall₂ (Given (s.firstLimit cfg sData skin)
        (used cfg s sData skin isWin itemArr)) runes runes := by
      apply List.forall₂_same.mpr
      intro e mem
      exact ⟨rfl, (gold e mem).2, le_refl _, fun less => absurd rfl less⟩
    have each := List.rel_append
      (List.rel_append (@handler_itemArr cfg s sData skin isWin itemArr amounts) kept)
      (@handler_moodAddItemArr cfg s sData skin isWin itemArr)
    exact each.imp fun named given => sums

/-- The counters are the sums over the history, and the history kept to the limits. -/
structure Counted (cfg : RoomCostTable) (s : RewardUser) : Prop where
  record : ∀ g l i, s.rewardRecord g l i = roomDay g l i s.history
  owned : ∀ id ∈ s.userhero, ∃ row, s.getDatas id = some row
  seated : ∀ id, s.skin = some id → id ∈ s.userhero
  weeks : ∀ id row, s.getDatas id = some row → row.ljexp_week = heroWeek id s.history
  unplayed : ∀ id, s.getDatas id = none → heroWeek id s.history = 0
  days : ∀ g l sData id limit, cfg.roomGroup g l = some sData → Limited id →
    sData.limitDay id = some limit → roomDay g l id s.history ≤ limit
  heroes : ∀ id, heroWeek id s.history ≤ cfg.expWeek
  lawful : ∀ g older, .game g :: older <:+ s.history → Rewarded cfg g older

variable {g : GameReward}

theorem dayLeft_counted {limit : Int} (inv : Counted cfg s)
    (room : cfg.roomGroup sData.game_id sData.room_type = some sData) (limited : Limited id)
    (listed : sData.limitDay id = some limit) :
    s.dayLeft sData id limit = limit - roomDay sData.game_id sData.room_type id s.history := by
  have kept := inv.days _ _ _ _ _ room limited listed
  rw [dayLeft, getRewardNum, inv.record]
  exact max_eq_left (sub_nonneg.mpr kept)

theorem weekLeft_counted (inv : Counted cfg s) (here : skin ∈ s.userhero) :
    weekLeft cfg s skin = cfg.expWeek - heroWeek skin s.history := by
  obtain ⟨row, found⟩ := inv.owned skin here
  have kept := inv.heroes skin
  simp only [weekLeft, GetLJExpBook_Week, found]
  rw [inv.weeks skin row found]
  exact max_eq_left (sub_nonneg.mpr kept)

theorem roomDay_game (history : List RewardHappening) :
    roomDay g.sData.game_id g.sData.room_type id (.game g :: history) =
      total g.given.all id + roomDay g.sData.game_id g.sData.room_type id history := by
  rw [roomDay, if_pos ⟨rfl, rfl⟩]

theorem heroWeek_game (history : List RewardHappening) :
    heroWeek g.skin (.game g :: history) =
      total g.given.all itemRuneExp + heroWeek g.skin history := by
  rw [heroWeek, if_pos rfl]

theorem rewarded_of_handled (inv : Counted cfg s)
    (room : cfg.roomGroup g.sData.game_id g.sData.room_type = some g.sData)
    (here : g.skin ∈ s.userhero) (handled : Handled cfg s g) : Rewarded cfg g s.history := by
  have left : total g.given.all itemRuneExp ≤ cfg.expWeek - heroWeek g.skin s.history := by
    obtain ⟨a, found, below⟩ := @firstLimit_week cfg s g.sData g.skin
    have within := handled.within _ _ found
    rw [weekLeft_counted inv here] at below
    omega
  refine ⟨room, ?_, ?_, ?_, left, ?_⟩
  · exact given_nonneg handled.each
  · intro id limit limited listed
    obtain ⟨a, found, below⟩ := @firstLimit_day cfg s g.sData g.skin id limit limited listed
    have within := handled.within _ _ found
    rw [dayLeft_counted inv room limited listed] at below
    rw [roomDay_game]
    omega
  · rw [heroWeek_game]
    omega
  · refine handled.each.imp fun named given entry => ?_
    obtain ⟨same, _, below, less⟩ := entry
    refine ⟨same, below, fun part => ?_⟩
    obtain ⟨limited, limit, listed, all⟩ | ⟨book, all⟩ := firstLimit_source (less part)
    · rw [dayLeft_counted inv room limited listed] at all
      refine .inl ⟨limited, limit, listed, ?_⟩
      rw [roomDay_game]
      omega
    · rw [weekLeft_counted inv here, book] at all
      refine .inr ⟨book, ?_⟩
      rw [heroWeek_game]
      omega

theorem getDatas_some {rows : Nat → Option HeroGet} (loaded : s.datas = some rows) :
    s.getDatas = rows := by
  rw [getDatas, loaded]
  rfl

theorem reward_datas (gameType roomLevel : Nat) :
    (s.roomGameReward gameType roomLevel g).getDatas =
      addExpBooks g.skin s.getDatas g.given.all := getDatas_some rfl

/-- The rows after a game: the one of its hero has grown by what the game gave. -/
theorem reward_row {id gameType roomLevel : Nat} {row : HeroGet} (here : g.skin ∈ s.userhero)
    (inv : Counted cfg s)
    (found : (s.roomGameReward gameType roomLevel g).getDatas id = some row) :
    row.ljexp_week = heroWeek id (.game g :: s.history) := by
  rw [reward_datas] at found
  by_cases same : id = g.skin
  · subst same
    obtain ⟨before, row_before⟩ := inv.owned _ here
    obtain ⟨row', found', sum⟩ := addExpBooks_week g.given.all row_before
    obtain rfl := Option.some.inj (found.symm.trans found')
    rw [sum, heroWeek_game, inv.weeks _ _ row_before]
  · rw [addExpBooks_other same] at found
    rw [heroWeek, if_neg (Ne.symm same), zero_add, inv.weeks id row found]

theorem reward_owned {id gameType roomLevel : Nat} (inv : Counted cfg s) (mem : id ∈ s.userhero) :
    ∃ row, (s.roomGameReward gameType roomLevel g).getDatas id = some row := by
  obtain ⟨row, found⟩ := inv.owned id mem
  rw [reward_datas]
  by_cases same : id = g.skin
  · subst same
    obtain ⟨row', found', _⟩ := addExpBooks_week g.given.all found
    exact ⟨row', found'⟩
  · rw [addExpBooks_other same]
    exact ⟨row, found⟩

/-- A game keeps the counters and the limits. -/
theorem counted_reward {gameType roomLevel : Nat} (inv : Counted cfg s)
    (room : cfg.roomGroup gameType roomLevel = some g.sData) (here : g.skin ∈ s.userhero)
    (handled : Handled cfg s g) : Counted cfg (s.roomGameReward gameType roomLevel g) := by
  obtain ⟨rfl, rfl⟩ := cfg.keyed _ _ _ room
  have rewarded := rewarded_of_handled inv room here handled
  refine ⟨fun gt l i => ?_, fun id mem => reward_owned inv mem, inv.seated,
    fun id row found => reward_row here inv found, fun id absent => ?_, ?_, fun id => ?_, ?_⟩
  · simp only [roomGameReward]
    rw [addRewardRecord_total, inv.record, roomDay]
    congr 1
    exact if_congr ⟨fun ⟨x, y⟩ => ⟨x.symm, y.symm⟩, fun ⟨x, y⟩ => ⟨x.symm, y.symm⟩⟩ rfl rfl
  · have other : id ≠ g.skin := by
      rintro rfl
      obtain ⟨row, found⟩ :=
        @reward_owned cfg s g _ g.sData.game_id g.sData.room_type inv here
      rw [found] at absent
      cases absent
    rw [reward_datas, addExpBooks_other other] at absent
    simp only [roomGameReward, heroWeek]
    rw [if_neg (Ne.symm other), zero_add, inv.unplayed id absent]
  · intro gt l sData id limit listed_room limited listed
    simp only [roomGameReward]
    by_cases same : g.sData.game_id = gt ∧ g.sData.room_type = l
    · obtain ⟨rfl, rfl⟩ := same
      obtain rfl := Option.some.inj (room.symm.trans listed_room)
      exact rewarded.day id limit limited listed
    · rw [roomDay, if_neg same, zero_add]
      exact inv.days gt l sData id limit listed_room limited listed
  · simp only [roomGameReward]
    by_cases same : g.skin = id
    · subst same
      exact rewarded.week
    · rw [heroWeek, if_neg same, zero_add]
      exact inv.heroes id
  · intro g' older suffix
    obtain whole | earlier := List.suffix_cons_iff.mp suffix
    · obtain ⟨same, rfl⟩ := List.cons.inj whole
      obtain rfl := RewardHappening.game.inj same
      exact rewarded
    · exact inv.lawful g' older earlier

theorem counted_ddz {gameType roomLevel : Nat} {goldChange : Int} (inv : Counted cfg s)
    (here : skin ∈ s.userhero) :
    Counted cfg (s.RoomGameOver_C cfg skin gameType roomLevel isWin goldChange) := by
  rw [RoomGameOver_C]
  cases room : cfg.roomGroup gameType roomLevel with
  | none => exact inv
  | some sData =>
      simp only
      generalize (isWin || decide (goldChange ≥ 0)) = isWin
      generalize shape : (if isWin then ⟨itemGold, |goldChange|⟩ :: sData.reward
        else sData.rewardFail : List Entry) = rewardArr
      have amounts : ∀ e ∈ rewardArr, 0 ≤ e.num := by
        subst shape
        split
        · intro e mem
          obtain rfl | mem := List.mem_cons.mp mem
          · exact abs_nonneg _
          · exact sData.rewards e mem
        · exact sData.rewardFails
      refine counted_reward inv room here ?_
      have made := @handled_of cfg s sData skin isWin rewardArr _ amounts
        (@runeItems_gold isWin rewardArr s.bonusObj)
      rw [← @handler_runeAddItemArr cfg s sData skin isWin rewardArr amounts] at made ⊢
      exact made

theorem counted_ssw {gameType roomLevel : Nat} {goldChange : Int} (inv : Counted cfg s)
    (here : skin ∈ s.userhero) :
    Counted cfg (s.ssw_gameover cfg skin gameType roomLevel goldChange) := by
  rw [ssw_gameover]
  cases room : cfg.roomGroup gameType roomLevel with
  | none => exact inv
  | some sData =>
      simp only
      generalize decide (goldChange ≥ 0) = isWin
      generalize shape : (if isWin then sData.reward else sData.rewardFail : List Entry) = rewardArr
      have amounts : ∀ e ∈ rewardArr, 0 ≤ e.num := by
        subst shape
        split
        · exact sData.rewards
        · exact sData.rewardFails
      apply counted_reward inv room here
      apply handled_of amounts
      intro e mem
      cases mem

/-- A new hero has a row, and no other row changes. -/
theorem addHero_row {sId id : Nat} :
    (s.addHero sId).getDatas id =
      if id = sId then some ((s.getDatas sId).getD ⟨0, 0⟩) else s.getDatas id := by
  rw [getDatas_some (s := s.addHero sId) rfl]
  cases loaded : s.datas with
  | some rows =>
      have before : s.getDatas = rows := getDatas_some loaded
      have with_hero : RewardUser.getDatas
          { s with userhero := sId :: s.userhero, datas := some rows } = rows := getDatas_some rfl
      rw [with_hero, before]
      by_cases same : id = sId
      · subst same
        rw [if_pos rfl]
        cases found : rows id with
        | none => rw [if_pos rfl, Function.update_self]; rfl
        | some row => rw [if_neg (by simp), found]; rfl
      · rw [if_neg same]
        split
        · rw [Function.update_of_ne same]
        · rfl
  | none =>
      have made : ∀ id, RewardUser.getDatas
          { s with userhero := sId :: s.userhero, datas := none } id =
            if id ∈ sId :: s.userhero then some ⟨0, 0⟩ else none := fun id => rfl
      have before : s.getDatas = fun id => if id ∈ s.userhero then some ⟨0, 0⟩ else none := by
        simp only [getDatas, loaded, Option.getD_none]
      rw [if_neg (by rw [made, if_pos List.mem_cons_self]; simp), made, before]
      by_cases same : id = sId
      · subst same
        rw [if_pos List.mem_cons_self, if_pos rfl]
        simp only
        split
        · rfl
        · rfl
      · rw [if_neg same]
        simp only [List.mem_cons, same, false_or]

theorem counted_hero {sId : Nat} (inv : Counted cfg s) : Counted cfg (s.addHero sId) := by
  refine { inv with owned := ?_, seated := ?_, weeks := ?_, unplayed := ?_ }
  · intro id mem
    rw [addHero_row]
    obtain rfl | mem := List.mem_cons.mp mem
    · exact ⟨_, if_pos rfl⟩
    · split
      · exact ⟨_, rfl⟩
      · exact inv.owned id mem
  · intro id same
    exact List.mem_cons_of_mem _ (inv.seated id same)
  · intro id row found
    rw [addHero_row] at found
    split at found
    · rename_i same
      subst same
      obtain rfl := Option.some.inj found
      cases before : s.getDatas id with
      | none => exact (inv.unplayed id before).symm
      | some row => exact inv.weeks id row before
    · exact inv.weeks id row found
  · intro id absent
    rw [addHero_row] at absent
    split at absent
    · cases absent
    · exact inv.unplayed id absent

theorem counted_week (inv : Counted cfg s) : Counted cfg s.newWeek := by
  have rows : s.newWeek.getDatas =
      fun id => (s.getDatas id).map fun data => { data with ljexp_week := 0 } := getDatas_some rfl
  refine { inv with owned := ?_, weeks := ?_, unplayed := ?_, heroes := ?_, lawful := ?_ }
  · intro id mem
    obtain ⟨row, found⟩ := inv.owned id mem
    exact ⟨{ row with ljexp_week := 0 }, by rw [rows]; simp only [found, Option.map_some]⟩
  · intro id row found
    rw [rows] at found
    obtain ⟨before, _, rfl⟩ := Option.map_eq_some_iff.mp found
    rfl
  · exact fun id _ => rfl
  · exact fun id => cfg.capped
  · intro g older suffix
    obtain whole | earlier := List.suffix_cons_iff.mp suffix
    · cases whole
    · exact inv.lawful g older earlier

theorem counted_step {e : RewardEvent} (inv : Counted cfg s) (moved : s.step cfg e = some t) :
    Counted cfg t := by
  cases e with
  | RoomGameOver_C gameType roomLevel isWin goldChange =>
      obtain ⟨skin, seated, rfl⟩ := Option.map_eq_some_iff.mp moved
      exact counted_ddz inv (inv.seated skin seated)
  | ssw_gameover gameType roomLevel goldChange =>
      obtain ⟨skin, seated, rfl⟩ := Option.map_eq_some_iff.mp moved
      exact counted_ssw inv (inv.seated skin seated)
  | UserHeroAdd sId =>
      obtain rfl := Option.some.inj moved
      exact counted_hero inv
  | HeroUse sId =>
      obtain rfl := Option.some.inj moved
      split
      · rename_i owned
        exact { inv with
          seated := fun id same => Option.some.inj same ▸ owned }
      · exact inv
  | bonus bonusObj =>
      obtain rfl := Option.some.inj moved
      exact { inv with }
  | UserNewDay =>
      obtain rfl := Option.some.inj moved
      refine { inv with
        record := fun _ _ _ => rfl
        days := ?_
        lawful := ?_ }
      · intro gt l sData id limit _ _ listed
        obtain ⟨entry, found, rfl⟩ := Option.map_eq_some_iff.mp listed
        exact sData.limits entry (List.mem_of_find?_eq_some found)
      · intro g older suffix
        obtain whole | earlier := List.suffix_cons_iff.mp suffix
        · cases whole
        · exact inv.lawful g older earlier
  | UserNewWeek =>
      obtain rfl := Option.some.inj moved
      exact counted_week inv

/-- A user before the first game: nothing is counted, and a hero in use is one the user has. -/
structure Fresh (s : RewardUser) : Prop where
  record : ∀ g l i, s.rewardRecord g l i = 0
  history : s.history = []
  owned : ∀ id ∈ s.userhero, ∃ row, s.getDatas id = some row
  weeks : ∀ id row, s.getDatas id = some row → row.ljexp_week = 0
  seated : ∀ id, s.skin = some id → id ∈ s.userhero

theorem Fresh.counted (fresh : Fresh s) : Counted cfg s := by
  refine ⟨?_, fresh.owned, fresh.seated, ?_, ?_, ?_, ?_, ?_⟩
  · intro g l i
    rw [fresh.record, fresh.history, roomDay]
  · intro id row found
    rw [fresh.weeks id row found, fresh.history, heroWeek]
  · intro id _
    rw [fresh.history, heroWeek]
  · intro g l sData id limit _ _ listed
    obtain ⟨entry, found, rfl⟩ := Option.map_eq_some_iff.mp listed
    rw [fresh.history, roomDay]
    exact sData.limits entry (List.mem_of_find?_eq_some found)
  · intro id
    rw [fresh.history, heroWeek]
    exact cfg.capped
  · intro g older suffix
    rw [fresh.history] at suffix
    nomatch List.suffix_nil.mp suffix

theorem run_counted {start : RewardUser} {events : List RewardEvent} (fresh : Fresh start)
    (run : Run (step cfg) anyStep start events s) : Counted cfg s :=
  run.invariant (Counted cfg) fresh.counted fun _ _ _ inv _ moved => counted_step inv moved

/-- Every game of every run keeps to the limits of its room and its hero, and gives all it names as
long as it reaches neither. -/
theorem run_rewarded {start : RewardUser} {events : List RewardEvent} (fresh : Fresh start)
    (run : Run (step cfg) anyStep start events s) {g : GameReward}
    {older : List RewardHappening} (played : .game g :: older <:+ s.history) :
    Rewarded cfg g older :=
  (run_counted fresh run).lawful g older played

/-- A room that gives 10 rune experience a day, 4 for a game that is won and 3 for one that is lost. -/
def smallRoom : RoomCost where
  game_id := 1
  room_type := 1
  rewardLimitDay := [⟨itemRuneExp, 10⟩, ⟨itemGourdWater, 5⟩]
  reward := [⟨itemRuneExp, 4⟩, ⟨itemGourdWater, 1⟩]
  rewardFail := [⟨itemRuneExp, 3⟩]
  limits := by decide
  rewards := by decide
  rewardFails := by decide

def smallRooms : RoomCostTable where
  roomGroup := fun gameType roomLevel =>
    if gameType = 1 ∧ roomLevel = 1 then some smallRoom else none
  expWeek := 100
  keyed := by
    intro gameType roomLevel sData found
    split at found
    · rename_i here
      obtain rfl := Option.some.inj found
      exact ⟨here.1.symm, here.2.symm⟩
    · cases found
  capped := by decide

def newPlayer : RewardUser where
  rewardRecord := fun _ _ _ => 0
  userhero := [7]
  datas := none
  skin := some 7
  bonusObj := ⟨none, some fun | .gameRuneExpFixedWin => some 5 | _ => none⟩
  history := []

theorem newPlayer_fresh : Fresh newPlayer := by
  refine ⟨fun _ _ _ => rfl, rfl, ?_, ?_, ?_⟩
  · intro id mem
    exact ⟨⟨0, 0⟩, if_pos mem⟩
  · intro id row found
    rw [getDatas, newPlayer, Option.getD_none] at found
    split at found
    · obtain rfl := Option.some.inj found
      rfl
    · cases found
  · intro id same
    obtain rfl := Option.some.inj same
    exact List.mem_cons_self

/-- The second game finds one left of the ten, and gives it with its own rewards. -/
theorem small_rewarded :
    ∃ g older s, Run (step smallRooms) anyStep newPlayer
        [.RoomGameOver_C 1 1 true 100, .RoomGameOver_C 1 1 true 50] s ∧
      .game g :: older <:+ s.history ∧
      g.given.all = [⟨itemGold, 50⟩, ⟨itemRuneExp, 1⟩, ⟨itemGourdWater, 1⟩, ⟨itemRuneExp, 0⟩] ∧
      Rewarded smallRooms g older := by
  have run := @run_of_exec _ _ (step smallRooms) newPlayer
    [.RoomGameOver_C 1 1 true 100, .RoomGameOver_C 1 1 true 50] _ rfl
  refine ⟨_, _, _, run, List.suffix_refl _, ?_, ?_⟩
  · decide +kernel
  · exact run_rewarded newPlayer_fresh run (List.suffix_refl _)

end RewardUser
end HuluLandlord.Agent
