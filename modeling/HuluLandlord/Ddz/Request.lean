import HuluLandlord.Ddz.Room

/-!
The requests a player can make and the automatic answers made for him. A request
gives the room it leaves behind also when it raises: `main.lua` catches the error,
but nothing undoes what has already been written. `Outcome.sleeping` means that the
rest of the request is in `holding`.
-/
namespace HuluLandlord.Ddz

inductive Outcome
  | ret (retVal : Option RetVal) | raised (message : String) | sleeping
  deriving DecidableEq, Repr

/-- `params.playCardObj` as the client sends it; a type the parser does not know is
`none`. -/
structure PlayCardParam where
  type : Option CardType
  weight : Int
  cards : Option (List Card)
  deriving DecidableEq, Repr

/-- The parameters of `PlayCard`; an action of no known code is `none`. -/
structure PlayParams where
  type : Option PlayerAction
  playCardObj : Option PlayCardParam
  deriving DecidableEq, Repr

inductive Request
  | showCard
  | setTrusteeship (isTrusteeship : Bool)
  | callLandlord (type : Option PlayerAction)
  | robLandlord (type : Option PlayerAction)
  | forceRobLandlord
  | double (type : Option PlayerAction)
  | doubleMax (type : Option PlayerAction)
  | playCard (params : PlayParams)
  | bottomCardInfo
  | syncGold (num : Int)
  deriving DecidableEq, Repr

/-- `for i, c in ipairs(self.cards) do if c == x then table.remove(self.cards, i)`:
after a removal the loop skips the card that moved into the gap. -/
def removeInLoop (x : Card) : List Card → List Card
  | [] => []
  | c :: cards =>
      if c = x then match cards with
        | [] => []
        | next :: rest => next :: removeInLoop x rest
      else c :: removeInLoop x cards

/-- The cards of the play taken out one after the other. -/
def removePlayed (hand cards : List Card) : List Card :=
  cards.foldl (fun hand v => removeInLoop (low v) hand) hand

namespace Room
variable (conf : Conf)

def finish (r : Room) (retVal : Option RetVal) : Room × Outcome :=
  (r, if r.holding = none then .ret retVal else .sleeping)

/-- `SyncRoomData` for the gold. -/
def SyncRoomData (r : Room) (p : Seat) (num : Int) : Room × Outcome :=
  ((r.modify p fun pl => { pl with gold := num }).send (.roomSyncGold p num), .ret none)

def ShowCard (r : Room) (p : Seat) : Room × Outcome :=
  if (r.players p).isShowcard then (r, .ret (some .error_3))
  else
    let r := if r.state.code < RoomState.doubleing.code then
      r.addMultiple .showCard (conf.multipleInfo .showCard) p else r
    let r := r.modify p fun pl => { pl with isShowcard := true }
    (r.send (.roomShowCard p (r.players p).cards), .ret none)

/-- The common beginning of every accepted answer: the player waits, his clock is
cleared and the action is recorded. -/
def answer (r : Room) (p : Seat) (type : PlayerAction) : Room :=
  ((r.modify p fun pl => { pl with state := .waiting }).clearClock p).addAction p type

def CallLandlord (r : Room) (p : Seat) (type : Option PlayerAction) (d : Draws) :
    Room × Outcome :=
  if (r.players p).state ≠ .callLandlord then (r, .ret (some .error_3))
  else match type with
    | some .callLandlord =>
        let r := (r.answer p .callLandlord).send (.roomSyncPlayerAction p .callLandlord none)
        let r := r.addMultiple .callLandlord (conf.multipleInfo .callLandlord) p
        (r.actionEnd conf p .callLandlord d).finish none
    | some .notCall =>
        let r := (r.answer p .notCall).send (.roomSyncPlayerAction p .notCall none)
        (r.actionEnd conf p .notCall d).finish none
    | _ => (r, .raised "assertion failed!")

def RobLandlord (r : Room) (p : Seat) (type : Option PlayerAction) (d : Draws) :
    Room × Outcome :=
  if (r.players p).state ≠ .robLandlord then (r, .ret (some .error_3))
  else match type with
    | some .robLandlord =>
        let r := (r.answer p .robLandlord).send (.roomSyncPlayerAction p .robLandlord none)
        let r := r.addMultiple .robLandlord (conf.multipleInfo .robLandlord) p
        (r.actionEnd conf p .robLandlord d).finish none
    | some .notRob =>
        let r := (r.answer p .notRob).send (.roomSyncPlayerAction p .notRob none)
        (r.actionEnd conf p .notRob d).finish none
    | _ => (r, .raised "assertion failed!")

def ForceRobLandlord (r : Room) (p : Seat) (d : Draws) : Room × Outcome :=
  if r.landlordPlayer ≠ none then (r, .ret (some .fail_2))
  else if ¬ (RoomState.callLandlord.code ≤ r.state.code ∧
      r.state.code ≤ RoomState.robLandlord.code) then (r, .ret (some .error_3))
  else if (r.players p).skillState = false then (r, .ret (some .noUse_8))
  else match conf.skillBuffCfg p with
    | none => (r, .raised "attempt to index a nil value (field 'skillBuffCfg')")
    | some buff =>
        if buff.skill_id ≠ 1040101 then (r, .ret (some .noUse_8))
        else
          let r := r.send (.roomSyncPlayerSkill p buff.skill_id)
          let r := r.actionStopAll d
          let r := r.addMultiple .skill buff.magnification p
          (r.setLandlord conf p true).finish (some .succeed_1)

def setAgent (r : Room) (p : Seat) (agent : UserAgent) : Room :=
  { r with agents := Function.update r.agents p agent }

/-- `hasItem`, else `buyStore`; after a purchase the phase is checked at once. A
return value ends the request. -/
def stockUp (r : Room) (p : Seat) (itemId : ItemID) (shopId : Nat) (phase : PlayerState) :
    Room × Option RetVal :=
  if (r.agents p).has itemId 1 then (r, none)
  else match (r.agents p).buyStore shopId 1 with
    | (agent, .succeed_1) =>
        (r.setAgent p agent, if (r.players p).state ≠ phase then some .exists_4 else none)
    | (agent, _) => (r.setAgent p agent, some .empty_7)

/-- `removeItem`. -/
def charge (r : Room) (p : Seat) (itemId : ItemID) : Room × Option RetVal :=
  match (r.agents p).remove itemId 1 with
  | (agent, true) => (r.setAgent p agent, none)
  | (agent, false) => (r.setAgent p agent, some .lack_6)

/-- The factor and the multiple key of a doubling; `NotDouble` is not announced. -/
def doubleInfo : Option PlayerAction → Option (PlayerAction × Nat × Option MultipleKey)
  | some .notDouble => some (.notDouble, 1, none)
  | some .double_2 => some (.double_2, conf.multipleInfo .double, some .double)
  | some .double_4 => some (.double_4, conf.multipleInfo .doubleSuper, some .doubleSuper)
  | _ => none

def doubleMaxInfo : Option PlayerAction → Option (PlayerAction × Nat × Option MultipleKey)
  | some .notDoubleMax => some (.notDoubleMax, 1, none)
  | some .doubleMax => some (.doubleMax, conf.multipleInfo .doubleMax, some .doubleMax)
  | _ => none

def announce (r : Room) (key : Option MultipleKey) (val : Nat) (p : Seat) : Room :=
  match key with
  | some key => r.addMultiple key val p
  | none => r

/-- `Double` from `self.state = Waiting` on. -/
def doubleCommit (r : Room) (p : Seat) (type : PlayerAction) (multiple : Nat)
    (key : Option MultipleKey) (d : Draws) : Room × Outcome :=
  let r := (r.answer p type).modify p fun pl => { pl with
    doubleAction := some type, doubleMultiple := some multiple }
  let r := r.send (.roomSyncPlayerAction p type none)
  ((r.announce key multiple p).actionEnd conf p type d).finish (some .succeed_1)

def doubleMaxCommit (r : Room) (p : Seat) (type : PlayerAction) (multiple : Nat)
    (key : Option MultipleKey) (d : Draws) : Room × Outcome :=
  let r := (r.answer p type).modify p fun pl => { pl with
    doubleMaxAction := some type, doubleMaxMultiple := some multiple }
  let r := r.send (.roomSyncPlayerAction p type none)
  ((r.announce key multiple p).actionEnd conf p type d).finish (some .succeed_1)

/-- The payment of a doubling: the item or its purchase, the phase, the removal.
The phase is checked again even when nothing is to be paid. -/
def payFor (r : Room) (p : Seat) (paying : Bool) (itemId : ItemID) (shopId : Nat)
    (phase : PlayerState) : Room × Option RetVal :=
  match if paying then r.stockUp p itemId shopId phase else (r, none) with
  | (r, some retVal) => (r, some retVal)
  | (r, none) =>
      if (r.players p).state ≠ phase then (r, some .fail_2)
      else if paying then r.charge p itemId
      else (r, none)

def Double (r : Room) (p : Seat) (type : Option PlayerAction) (d : Draws) : Room × Outcome :=
  match doubleInfo conf type with
  | none => (r, .ret (some .error_3))
  | some (type, multiple, key) =>
      match r.payFor p (type = .double_4 ∧ conf.isUser p) .gameDoubleSuper 500006 .doubleing with
      | (r, some retVal) => (r, .ret (some retVal))
      | (r, none) => r.doubleCommit conf p type multiple key d

/-- The hero skill that replaces the card; the flag is `isCost`. -/
def heroSkill (r : Room) (p : Seat) : Room × Bool :=
  if (r.players p).skillState ∧ conf.isTangBaoEr p then
    match (r.agents p).heroSkillUse with
    | (agent, used) => (r.setAgent p agent, !used)
  else (r, true)

def DoubleMax (r : Room) (p : Seat) (type : Option PlayerAction) (d : Draws) : Room × Outcome :=
  match doubleMaxInfo conf type with
  | none => (r, .ret (some .error_3))
  | some (type, multiple, key) =>
      let asks : Bool := type = .doubleMax ∧ conf.isUser p
      let (r, isCost) := if asks then r.heroSkill conf p else (r, true)
      match r.payFor p (isCost ∧ asks) .gameDoubleMax 500007 .doubleMax with
      | (r, some retVal) => (r, .ret (some retVal))
      | (r, none) => r.doubleMaxCommit conf p type multiple key d

def BottomCardInfo (r : Room) (p : Seat) : Room × Outcome :=
  if (r.players p).bottomCards ≠ [] then (r, .ret (some .succeed_1))
  else
    let take (r : Room) : Room × Outcome :=
      (r.modify p fun pl => { pl with bottomCards := r.bottomCards }, .ret (some .succeed_1))
    if conf.isUser p then
      match r.stockUp p .gameBottomCardCheck 500005 (r.players p).state with
      | (r, some retVal) => (r, .ret (some retVal))
      | (r, none) => match r.charge p .gameBottomCardCheck with
          | (r, some retVal) => (r, .ret (some retVal))
          | (r, none) => take r
    else take r

/-- The checks on a list of cards in `PlayCard`, giving the move as it is recorded:
the weight is the parsed one whatever the client claims. -/
def checkPlay (r : Room) (p : Seat) (type : Option CardType) (cards : List Card) :
    Lua PlayCardObj := do
  let cardTypeObjArr ← parseCardType cards
  assertLua (cardTypeObjArr ≠ [])
  match cardTypeObjArr.find? fun value => some value.type = type with
  | none => .error "attempt to index a nil value (local 'cardTypeObj')"
  | some obj =>
      let play : PlayCardObj := ⟨obj.type, obj.weight, cards, obj.subtype⟩
      if (r.players p).playCardState = .normal then
        match r.lastPlayCardObj with
        | none => .error "attempt to index a nil value (field 'lastPlayCardObj')"
        | some last =>
            if !(← compareCardType play last.playCardObj) then .error "card is too small"
      assertLua (cards.all fun card => low card ∈ (r.players p).cards)
      return play

/-- Everything `PlayCard` checks before it writes: how it is refused, or the move
it accepts (`none` for a pass). -/
def playCardCheck (r : Room) (p : Seat) (params : PlayParams) :
    Except Outcome (Option PlayCardObj) :=
  if (r.players p).state ≠ .playing then .error (.ret (some .fail_2))
  else match params.type with
    | some .pass =>
        if (r.players p).playCardState ≠ .normal then .error (.ret (some .error_3)) else .ok none
    | some .playCard =>
        match params.playCardObj with
        | none => .error (.ret (some .error_3))
        | some obj => match obj.cards with
            | none => .error (.ret (some .error_3))
            | some cards => match r.checkPlay p obj.type cards with
                | .error message => .error (.raised message)
                | .ok play => .ok (some play)
    | _ => .error (.ret (some .error_3))

def playType : Option PlayCardObj → PlayerAction
  | none => .pass
  | some _ => .playCard

/-- The bookkeeping of an accepted play: the hand, the record and the last play. -/
def recordPlay (r : Room) (p : Seat) (play : PlayCardObj) : Room :=
  let r := r.modify p fun pl => { pl with
    playedCards := pl.playedCards ++ [play]
    playCount := pl.playCount + 1
    playCardCount := pl.playCardCount + 1
    cards := removePlayed pl.cards play.cards }
  { r with lastPlayCardObj := some ⟨p, play, (r.players p).isLandlord⟩ }

/-- The factor of a bomb; a bomb type with no row raises. -/
def bombMultiple (r : Room) (p : Seat) (play : PlayCardObj) : Except String Room :=
  if play.type = .zhadan then
    match (getBombType play.weight).bind conf.bombInfo with
    | some val => .ok (r.addMultiple .bomb val p)
    | none => .error "attempt to index a nil value"
  else .ok r

/-- `PlayCard` from `self.state = Waiting` on. -/
def playCardCommit (r : Room) (p : Seat) (play : Option PlayCardObj) (d : Draws) :
    Room × Outcome :=
  let r := r.answer p (playType play)
  let mirror := (r.players p).robotAgent.playCard play
  let r := r.modify p fun pl => { pl with robotAgent := mirror.1 }
  if mirror.2 = false then (r, .raised "remove_one_from_handcards failed")
  else
    let r := r.send (.roomSyncPlayerAction p (playType play) play)
    match play with
    | none => (r.actionEnd conf p .pass d).finish none
    | some play =>
        let r := r.recordPlay p play
        match r.bombMultiple conf p play with
        | .error message => (r, .raised message)
        | .ok r => (r.sleep (.playCardEffect p .playCard), .sleeping)

def PlayCard (r : Room) (p : Seat) (params : PlayParams) (d : Draws) : Room × Outcome :=
  match r.playCardCheck p params with
  | .error outcome => (r, outcome)
  | .ok play => r.playCardCommit conf p play d

/-- The parameters `autoPlay` passes on for the robot's decision. -/
def autoParams (decision : Option Move) : PlayParams :=
  match decision with
  | none => ⟨some .pass, none⟩
  | some move => ⟨some .playCard, some ⟨some move.type, move.weight, some move.cards⟩⟩

/-- The robot's decision for player `p`. -/
def autoDecision (r : Room) (p : Seat) (d : Draws) : Lua (Option Move) :=
  let pl := r.players p
  match r.lastPlayCardObj with
  | some last => pl.robotAgent.getPlayCardObj pl.playCardState (last.isLandlord = pl.isLandlord)
      (some last.playCardObj) d.roll
  | none => pl.robotAgent.getPlayCardObj pl.playCardState false none d.roll

def autoPlay (r : Room) (p : Seat) (d : Draws) : Room × Outcome :=
  match r.autoDecision p d with
  | .error message => (r, .raised message)
  | .ok decision => r.PlayCard conf p (autoParams decision) d

def trusteeshipAction (r : Room) (p : Seat) (state : PlayerState) (d : Draws) : Room × Outcome :=
  match state with
  | .callLandlord => r.CallLandlord conf p (some .notCall) d
  | .robLandlord => r.RobLandlord conf p (some .notRob) d
  | .doubleing => r.Double conf p (some .notDouble) d
  | .doubleMax => r.DoubleMax conf p (some .notDoubleMax) d
  | .playing => r.autoPlay conf p d
  | _ => (r, .ret none)

def SetTrusteeship (r : Room) (p : Seat) (isTrusteeship : Bool) (d : Draws) : Room × Outcome :=
  if isTrusteeship = (r.players p).isTrusteeship then (r, .ret none)
  else
    let r := (r.modify p fun pl => { pl with isTrusteeship := isTrusteeship }).send
      (.roomSetTrusteeship p isTrusteeship)
    if isTrusteeship ∧ (r.players p).state ≠ .waiting then
      r.trusteeshipAction conf p (r.players p).state d
    else (r, .ret none)

/-- `playerRequest`. -/
def playerRequest (r : Room) (p : Seat) (request : Request) (d : Draws) : Room × Outcome :=
  match request with
  | .showCard => r.ShowCard conf p
  | .setTrusteeship isTrusteeship => r.SetTrusteeship conf p isTrusteeship d
  | .callLandlord type => r.CallLandlord conf p type d
  | .robLandlord type => r.RobLandlord conf p type d
  | .forceRobLandlord => r.ForceRobLandlord conf p d
  | .double type => r.Double conf p type d
  | .doubleMax type => r.DoubleMax conf p type d
  | .playCard params => r.PlayCard conf p params d
  | .bottomCardInfo => r.BottomCardInfo conf p
  | .syncGold num => r.SyncRoomData p num

end Room

end HuluLandlord.Ddz
