import HuluLandlord.UserAgent
import HuluLandlord.Ddz.DealCard
import HuluLandlord.Ddz.GameOver
import HuluLandlord.Ddz.Robot

/-!
The room: its table of players, the multiples, and what the room does when an
action begins and when a player's answer ends one. Everything a room is configured
with is in `Conf`; everything random in one critical section is in `Draws`. A sleep
inside the section leaves the rest of it in `holding`, and a `skynet.timeout` or
`fork`, which runs outside the section, is an entry of `waits`. `sent` is what the
room has broadcast, newest first.
-/
namespace HuluLandlord.Ddz

/-- The keys of `cfg_card_type` besides the bombs. -/
inductive InfoKey
  | kingAll | kingOne | sameValueAll | shunzi | dui | cardVal_J_2_2 | cardVal_3_10_2
  | bottomCardsDefault | showCard | callLandlord | robLandlord | double | doubleSuper
  | doubleMax | spring | springReverse
  deriving DecidableEq, Repr

structure SkillBuff where
  skill_id : Nat
  magnification : Nat
  deriving DecidableEq, Repr

/-- The configuration of one room and its three users. `bombInfo` is partial because
the table has no row for some bomb types. -/
structure Conf where
  room_ratio : Nat
  difen : Int
  capped_num : Int
  multipleInfo : InfoKey → Nat
  bombInfo : BombType → Option Nat
  isUser : Seat → Bool
  isTangBaoEr : Seat → Bool
  hasGameSkill : Seat → Bool
  heroSkillRate : Seat → Nat
  skillBuffCfg : Seat → Option SkillBuff
  ratio_pos : 0 < room_ratio
  multiple_pos : ∀ key, 0 < multipleInfo key
  bomb_pos : ∀ b m, bombInfo b = some m → 0 < m
  bomb_row : ∀ b, b ∈ [BombType.yingzha, .wangzha, .star_4_2, .star_4_3, .star_4_4, .star_4_5] →
    bombInfo b ≠ none
  skill_pos : ∀ p buff, skillBuffCfg p = some buff → buff.skill_id = 1040101 →
    0 < buff.magnification

structure Draws where
  deal : Deal
  skill : Seat → Fin 10000
  first : Seat
  trusteeshipTime : Seat → Fin 9
  roll : ℚ

/-- The first stage counts down to an early answer under trusteeship, the second
counts the player's clock. -/
inductive TimerStage
  | check (trusteeshipTime : Int) | count
  deriving DecidableEq, Repr

/-- A timer made by `setActionState`; `prompt` is shared by the two stages, and
`armed` says that its `skynet.timeout` is pending. -/
structure Timer where
  owner : Seat
  state : PlayerState
  stage : TimerStage
  prompt : Nat
  iteration : Int
  canceled : Bool
  armed : Bool
  deriving DecidableEq, Repr

inductive Wait
  | dealCard | doubleing | doubleMax | ended (winner : Seat)
  deriving DecidableEq, Repr

/-- The rest of a critical section that sleeps. -/
inductive Holding
  | landlordDelay (p : Seat) | landlordWaite (p : Seat)
  | playCardEffect (p : Seat) (type : PlayerAction) | nextTurn
  deriving DecidableEq, Repr

structure LastPlay where
  id : Seat
  playCardObj : PlayCardObj
  isLandlord : Bool
  deriving DecidableEq, Repr

inductive Message
  | roomDealCard (p : Seat) (cards : List Card)
  | roomSkillState (p : Seat)
  | roomPleasePlayerAction (p : Seat) (state : PlayerState) (clock : Int)
      (playCardState : PlayCardState)
  | roomSyncPlayerAction (p : Seat) (type : PlayerAction) (playCardObj : Option PlayCardObj)
  | roomSyncPlayerSkill (p : Seat) (skillId : Nat)
  | roomSyncMultiple (key : MultipleKey) (val : Nat) (p : Seat) (multiple : Seat → Nat)
  | roomLandlordSet (p : Seat) (bottomCards : List Card) (multiple : Nat)
  | roomShowCard (p : Seat) (cards : List Card)
  | roomSetTrusteeship (p : Seat) (isTrusteeship : Bool)
  | roomSyncGold (p : Seat) (gold : Int)
  | roomGameOver (winner : Seat) (datas : Option (Seat → GameOverData))

structure Player where
  state : PlayerState
  cards : List Card
  playedCards : List PlayCardObj
  playCount : Nat
  clock : Int
  lastAction : Option PlayerAction
  actionQueue : List PlayerAction
  playCardCount : Nat
  robotAgent : RobotAgent
  playCardState : PlayCardState
  isShowcard : Bool
  isTrusteeship : Bool
  isLandlord : Bool
  skillState : Bool
  doubleAction : Option PlayerAction
  doubleMultiple : Option Nat
  doubleMaxAction : Option PlayerAction
  doubleMaxMultiple : Option Nat
  bottomCards : List Card
  cancel_timer : Option Nat
  gold : Int
  deriving DecidableEq

structure Room where
  state : RoomState
  players : Seat → Player
  bottomCards : List Card
  dealCardCount : Nat
  actionIndex : Seat
  multiple : MultipleKey → Option Nat
  landlordPlayer : Option Seat
  lastPlayCardObj : Option LastPlay
  agents : Seat → UserAgent
  timers : List Timer
  waits : List Wait
  holding : Option Holding
  sent : List Message

def TIME : PlayerState → Option Int
  | .callLandlord => some 10
  | .robLandlord => some 10
  | .doubleing => some 5
  | .doubleMax => some 8
  | .playing => some 20
  | _ => none

def trusteeshipCheckTime : Int := 2

/-- `self:sortCards()`; no order is fixed between cards of one value. -/
def sortCards (cards : List Card) : List Card := cards.insertionSort fun a b => V a ≥ V b

def multipleKeys : List MultipleKey :=
  [.init, .showCard, .callLandlord, .robLandlord, .bottomCard, .bomb, .spring, .springReverse,
    .skill, .double, .doubleSuper, .doubleMax]

/-- The factor a player's own doublings contribute. -/
def Player.doubled (pl : Player) : Nat := pl.doubleMultiple.getD 1 * pl.doubleMaxMultiple.getD 1

def is_three (cards : List Card) : Bool :=
  valueAt cards 1 = valueAt cards 2 ∧ valueAt cards 2 = valueAt cards 3

def have_dui (cards : List Card) : Bool :=
  valueAt cards 1 = valueAt cards 2 ∨ valueAt cards 2 = valueAt cards 3 ∨
    valueAt cards 1 = valueAt cards 3

def count_over_J (cards : List Card) : Nat := cards.countP fun card => V card ≥ 0xd - 4

def bottomCardKey (bottom_cards : List Card) : InfoKey :=
  let arr := (bottom_cards.map V).insertionSort (· ≤ ·)
  let count := count_over_J bottom_cards
  if getKingCount bottom_cards = 2 then .kingAll
  else if getKingCount bottom_cards = 1 then .kingOne
  else if is_three bottom_cards then .sameValueAll
  else if arr.getD 0 0 + 1 = arr.getD 1 0 ∧ arr.getD 1 0 + 1 = arr.getD 2 0 then .shunzi
  else if have_dui bottom_cards then .dui
  else if count ≥ 2 then .cardVal_J_2_2
  else if count ≤ 0 then .cardVal_3_10_2
  else .bottomCardsDefault

def getBottomCardMultiple (conf : Conf) (bottom_cards : List Card) : Nat :=
  conf.multipleInfo (bottomCardKey bottom_cards)

/-- What the end of a bidding answer leads to. -/
inductive Bid
  | call (p : Seat) | rob (p : Seat) | landlord (p : Seat) | redeal
  deriving DecidableEq, Repr

/-- `actionEnd` in the calling round. -/
def callEnd (lastAction : Seat → Option PlayerAction) (dealCardCount : Nat) (p : Seat) : Bid :=
  if lastAction p = some .callLandlord then
    if lastAction (p + 1) = none then .rob (p + 1) else .landlord p
  else if lastAction (p + 1) = none then .call (p + 1)
  else if dealCardCount ≥ 3 then .landlord (p + 1)
  else .redeal

/-- The inner loop of the robbing round; the next player is the one after the
seat it stops at. -/
def skipDeclined (lastAction : Seat → Option PlayerAction) : Nat → Seat → Seat
  | 0, index => index
  | n + 1, index =>
      if lastAction (index + 1) = some .notCall ∨ lastAction (index + 1) = some .notRob then
        skipDeclined lastAction n (index + 1)
      else index

/-- `actionEnd` in the robbing round, with the seat the loop leaves in `actionIndex`. -/
def robEnd (lastAction : Seat → Option PlayerAction) (actionQueue : List PlayerAction)
    (p : Seat) (actionType : PlayerAction) : Seat × Bid :=
  if lastAction (p + 1) = none then (p, .rob (p + 1))
  else
    let lastLastAction := if 2 ≤ actionQueue.length then
      actionQueue[actionQueue.length - 2]? else none
    if (lastLastAction = some .callLandlord ∨ lastLastAction = some .robLandlord) ∧
        actionType = .robLandlord then (p, .landlord p)
    else
      let index := skipDeclined lastAction 10 p
      let nextPlayer := index + 1
      if nextPlayer = p then (index, .landlord p)
      else
        let arr := (List.finRange 3).filter fun q =>
          lastAction q = some .callLandlord ∨ lastAction q = some .robLandlord
        match arr with
        | [q] => (index, .landlord q)
        | _ => (index, .rob nextPlayer)

namespace Room
variable (conf : Conf)

def modify (r : Room) (p : Seat) (f : Player → Player) : Room :=
  { r with players := Function.update r.players p (f (r.players p)) }

/-- `sendToPlayerAll`. -/
def send (r : Room) (message : Message) : Room := { r with sent := message :: r.sent }

/-- `skynet.timeout` or `skynet.fork` with a sleep: runs later, outside the section. -/
def timeout (r : Room) (w : Wait) : Room := { r with waits := r.waits ++ [w] }

/-- `skynet.sleep`, with what follows it. -/
def sleep (r : Room) (rest : Holding) : Room := { r with holding := some rest }

def setActionPlayerIndex (r : Room) (p : Seat) : Room := { r with actionIndex := p }

def getFarmerArr (r : Room) : List Seat :=
  (List.finRange 3).filter fun p => !(r.players p).isLandlord

def getMultiple (r : Room) (p : Seat) : Nat :=
  let multiple := (multipleKeys.map fun key => (r.multiple key).getD 1).prod
  match r.landlordPlayer with
  | none => multiple
  | some l =>
      let multiple := multiple * (r.players l).doubled
      if (r.players p).isLandlord then
        multiple * (r.getFarmerArr.map fun q => (r.players q).doubled).sum
      else multiple * (r.players p).doubled

/-- The table after a factor; a key that is not in it is skipped. -/
def multiplied (multiple : MultipleKey → Option Nat) (key : MultipleKey) (val : Nat) :
    MultipleKey → Option Nat :=
  match multiple key with
  | some m => Function.update multiple key (some (m * val))
  | none => multiple

def addMultiple (r : Room) (key : MultipleKey) (val : Nat) (p : Seat) : Room :=
  let r := { r with multiple := multiplied r.multiple key val }
  r.send (.roomSyncMultiple key val p r.getMultiple)

def dealCard (r : Room) (d : Draws) : Room :=
  { r with
    dealCardCount := r.dealCardCount + 1
    multiple := Function.update (Function.update (Function.update r.multiple
      .showCard (some 1)) .callLandlord (some 1)) .robLandlord (some 1)
    bottomCards := d.deal.bottomCards
    players := fun p => { r.players p with
      lastAction := none, actionQueue := [], isShowcard := false, bottomCards := [],
      cards := d.deal.cards p } }

/-- `Player:setActionState`. -/
def setActionState (r : Room) (p : Seat) (state : PlayerState) (d : Draws) : Room :=
  match TIME state with
  | some time =>
      let id := r.timers.length
      let r := r.send (.roomPleasePlayerAction p state time (r.players p).playCardState)
      let r := r.modify p fun pl => { pl with
        state := state, clock := time - trusteeshipCheckTime, cancel_timer := some id }
      { r with timers := r.timers ++ [{
          owner := p, state := state, stage := .check (12 + (d.trusteeshipTime p).val),
          prompt := id, iteration := 10 * trusteeshipCheckTime, canceled := false,
          armed := true }] }
  | none =>
      if state = .dealCard then
        (r.send (.roomDealCard p (r.players p).cards)).modify p fun pl => { pl with
          state := state, robotAgent := .init_handcards pl.cards, cards := sortCards pl.cards }
      else r.modify p fun pl => { pl with state := state }

def setActionStateAll (r : Room) (state : PlayerState) (d : Draws) : Room :=
  (List.finRange 3).foldl (fun r p => r.setActionState p state d) r

/-- `cancel_timer()`; before the first prompt it does nothing. -/
def cancelTimer (timers : List Timer) : Option Nat → List Timer
  | none => timers
  | some id => timers.modify id fun t => { t with canceled := true }

def clearClock (r : Room) (p : Seat) : Room :=
  let r := { r with timers := cancelTimer r.timers (r.players p).cancel_timer }
  r.modify p fun pl => { pl with clock := 0 }

def addAction (r : Room) (p : Seat) (action : PlayerAction) : Room :=
  r.modify p fun pl => { pl with
    lastAction := some action, actionQueue := pl.actionQueue ++ [action] }

def actionStopAll (r : Room) (d : Draws) : Room :=
  (List.finRange 3).foldl (fun r p => (r.clearClock p).setActionState p .waiting d) r

/-- One player of the `DealCard` loop: his cards, then the roll for his skill. -/
def dealTo (r : Room) (p : Seat) (d : Draws) : Room :=
  let r := r.setActionState p .dealCard d
  if conf.hasGameSkill p ∧ (d.skill p).val + 1 ≤ conf.heroSkillRate p then
    (r.modify p fun pl => { pl with skillState := true }).send (.roomSkillState p)
  else r

/-- The end of `setLandlord` up to its last sleep. -/
def landlordSet (r : Room) (p : Seat) : Room :=
  let multiple := getBottomCardMultiple conf r.bottomCards
  let r := r.addMultiple .bottomCard multiple p
  let r := r.send (.roomLandlordSet p r.bottomCards multiple)
  r.sleep (.landlordWaite p)

/-- `setLandlord`; with a delay it sleeps before the bottom cards are counted. -/
def setLandlord (r : Room) (p : Seat) (delayed : Bool) : Room :=
  let r := { r with landlordPlayer := some p }
  let r := r.modify p fun pl => { pl with
    isLandlord := true
    cards := sortCards (pl.cards ++ r.bottomCards)
    robotAgent := pl.robotAgent.setLandlord r.bottomCards }
  if delayed then r.sleep (.landlordDelay p) else r.landlordSet conf p

def overData (r : Room) (winner p : Seat) : GameOverData :=
  .start (r.getMultiple p) ((r.players p).isLandlord = (r.players winner).isLandlord)
    (p = winner) (r.players p).isLandlord (r.players p).gold

/-- `gameover`, up to the message with the settlement. -/
def gameover (r : Room) (winner : Seat) : Room :=
  let rewardMax := getRewardMax conf.capped_num fun p => (r.players p).doubleMaxMultiple
  r.send (.roomGameOver winner (Ddz.gameover conf.difen rewardMax (r.overData winner)))

/-- Spring and reverse spring, then the settlement; indexing a missing landlord
raises in the timeout's own coroutine. -/
def actionEnded (r : Room) (p : Seat) : Room :=
  if (r.players p).isLandlord then
    if r.getFarmerArr.all fun q => (r.players q).playCount = 0 then
      (r.addMultiple .spring (conf.multipleInfo .spring) p).gameover conf p
    else r.gameover conf p
  else match r.landlordPlayer with
    | none => r
    | some l =>
        if (r.players l).playCount = 1 then
          (r.addMultiple .springReverse (conf.multipleInfo .springReverse) p).gameover conf p
        else r.gameover conf p

def setPlayCardState (r : Room) (p : Seat) (state : PlayCardState) : Room :=
  r.modify p fun pl => { pl with playCardState := state }

/-- `Play` for the player of the last move, `Normal` for the others. -/
def playCardStateAfter (last : LastPlay) (p : Seat) : PlayCardState :=
  if p = last.id then .play else .normal

/-- The head of `roomObj.action`; without a player the index stays. -/
def enter (r : Room) (state : RoomState) (player : Option Seat) : Room :=
  { r with state := state, actionIndex := player.getD r.actionIndex }

/-- `roomObj.action`. -/
def action (r : Room) (state : RoomState) (player : Option Seat) (d : Draws) : Room :=
  let r := r.enter state player
  let p := r.actionIndex
  match state with
  | .readyOk => r.setActionStateAll .readyOk d
  | .dealCard =>
      let r := (List.finRange 3).foldl (fun r p => r.dealTo conf p d) (r.dealCard d)
      r.timeout .dealCard
  | .callLandlord => r.setActionState p .callLandlord d
  | .robLandlord => r.setActionState p .robLandlord d
  | .doubleing => r.setActionStateAll .doubleing d
  | .doubleMax => r.setActionStateAll .doubleMax d
  | .playing =>
      let state := match r.lastPlayCardObj with
        | none => .first
        | some last => playCardStateAfter last p
      (r.setPlayCardState p state).setActionState p .playing d
  | .ended => r.actionEnded conf p

def getActionPlayerNext (r : Room) : Seat := r.actionIndex + 1

def afterBid (r : Room) (bid : Bid) (d : Draws) : Room :=
  match bid with
  | .call p => r.action conf .callLandlord (some p) d
  | .rob p => r.action conf .robLandlord (some p) d
  | .landlord p => r.setLandlord conf p false
  | .redeal => r.action conf .dealCard none d

def actionEnd (r : Room) (p : Seat) (actionType : PlayerAction) (d : Draws) : Room :=
  let r := r.setActionPlayerIndex p
  let lastAction := fun q => (r.players q).lastAction
  match r.state with
  | .callLandlord =>
      r.afterBid conf (callEnd lastAction r.dealCardCount p) d
  | .robLandlord =>
      let (index, bid) := robEnd lastAction (r.players p).actionQueue p actionType
      (r.setActionPlayerIndex index).afterBid conf bid d
  | .doubleing =>
      if ∀ q, (r.players q).doubleMultiple ≠ none then r.timeout .doubleing else r
  | .doubleMax =>
      if ∀ q, (r.players q).doubleMaxMultiple ≠ none then r.timeout .doubleMax else r
  | .playing =>
      if (r.players p).cards = [] then r.timeout (.ended p) else r.sleep .nextTurn
  | _ => r

end Room

end HuluLandlord.Ddz
