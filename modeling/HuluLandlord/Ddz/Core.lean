import HuluLandlord.Ddz.RoomRun

/-!
The core of a room: the game itself, without clocks, timers, agents and the other
things only a client looks at. Each operation of the room acts on the core as the
same operation without timers does, and the equations below say how. What is
proved about the game is proved of cores, and requests that leave the core alone
need no further argument.
-/
namespace HuluLandlord.Ddz

/-- The messages that belong to the record of the game. -/
def Message.isMove : Message → Bool
  | .roomDealCard .. | .roomPleasePlayerAction .. | .roomSyncPlayerAction ..
  | .roomSyncPlayerSkill .. | .roomSyncMultiple .. | .roomLandlordSet .. | .roomGameOver .. => true
  | .roomSkillState .. | .roomShowCard .. | .roomSetTrusteeship .. | .roomSyncGold .. => false

def Player.core (pl : Player) : Player :=
  { pl with clock := 0, isShowcard := false, isTrusteeship := false, skillState := false,
            bottomCards := [], cancel_timer := none }

namespace Room
variable (conf : Conf)

/-- The record of the game, newest first. -/
def record (r : Room) : List Message := r.sent.filter Message.isMove

def core (r : Room) : Room :=
  { r with players := fun p => (r.players p).core, agents := fun _ => noAgent, timers := [],
           sent := r.record }

theorem core_modify (r : Room) (p : Seat) (f g : Player → Player)
    (same : ∀ pl, (f pl).core = g pl.core) : (r.modify p f).core = r.core.modify p g := by
  simp only [modify, core, record, Room.mk.injEq, true_and, and_true]
  funext q
  by_cases here : q = p
  · subst here
    simp only [Function.update_self, same]
  · simp only [Function.update_of_ne here]

/-- Changes of what is not in the core. -/
theorem core_modify_hidden (r : Room) (p : Seat) (f : Player → Player)
    (same : ∀ pl, (f pl).core = pl.core) : (r.modify p f).core = r.core := by
  rw [core_modify r p f id same]
  simp [modify]

theorem core_send (r : Room) (m : Message) (move : m.isMove = true) :
    (r.send m).core = r.core.send m := by
  simp [send, core, record, move]

theorem core_send_hidden (r : Room) (m : Message) (move : m.isMove = false) :
    (r.send m).core = r.core := by
  simp [send, core, record, move]

@[simp] theorem core_setAgent (r : Room) (p : Seat) (agent : UserAgent) :
    (r.setAgent p agent).core = r.core := rfl

theorem core_timers (r : Room) (timers : List Timer) : { r with timers := timers }.core = r.core :=
  rfl

@[simp] theorem core_setTimer (r : Room) (id : Nat) (f : Timer → Timer) :
    (r.setTimer id f).core = r.core := rfl

@[simp] theorem core_clearClock (r : Room) (p : Seat) : (r.clearClock p).core = r.core := by
  simp only [clearClock]
  rw [core_modify_hidden _ _ (fun pl => { pl with clock := 0 }) fun _ => rfl]
  rfl

theorem core_addMultiple (r : Room) (key : MultipleKey) (val : Nat) (p : Seat) :
    (r.addMultiple key val p).core = r.core.addMultiple key val p := by
  simp only [addMultiple]
  rw [core_send _ _ rfl]
  rfl

end Room

/-- A player whose answer has been accepted. -/
def Player.answered (pl : Player) (type : PlayerAction) : Player :=
  { pl with state := .waiting, lastAction := some type, actionQueue := pl.actionQueue ++ [type] }

def Player.inState (pl : Player) (state : PlayerState) : Player := { pl with state := state }

namespace Room

theorem core_answer (r : Room) (p : Seat) (type : PlayerAction) :
    (r.answer p type).core = r.core.modify p fun pl => pl.answered type := by
  simp only [answer, addAction]
  rw [core_modify _ p _ (fun pl => { pl with
      lastAction := some type, actionQueue := pl.actionQueue ++ [type] }) fun _ => rfl,
    core_clearClock,
    core_modify _ p _ (fun pl => { pl with state := .waiting }) fun _ => rfl]
  simp only [modify, Function.update_self, Function.update_idem, Player.answered]

/-- The prompt of a player, without its timer. -/
def prompt (r : Room) (p : Seat) (state : PlayerState) (time : Int) : Room :=
  (r.send (.roomPleasePlayerAction p state time (r.players p).playCardState)).modify p
    fun pl => pl.inState state

theorem core_setActionState (r : Room) (p : Seat) (state : PlayerState) (time : Int)
    (timed : TIME state = some time) (d : Draws) :
    (r.setActionState p state d).core = r.core.prompt p state time := by
  simp only [setActionState, timed, prompt]
  rw [core_timers, core_modify _ p _ (fun pl => pl.inState state) fun _ => rfl, core_send _ _ rfl]
  rfl

theorem core_setActionState_waiting (r : Room) (p : Seat) (d : Draws) :
    (r.setActionState p .waiting d).core = r.core.modify p fun pl => pl.inState .waiting := by
  show (r.modify p fun pl => { pl with state := .waiting }).core = _
  exact core_modify r p _ _ fun _ => rfl

/-- All three players prompted at once. -/
def promptAll (r : Room) (state : PlayerState) (time : Int) : Room :=
  ((r.prompt 0 state time).prompt 1 state time).prompt 2 state time

def allWaiting (r : Room) : Room :=
  ((r.modify 0 fun pl => pl.inState .waiting).modify 1 fun pl => pl.inState .waiting).modify 2
    fun pl => pl.inState .waiting

theorem finRange_three : List.finRange 3 = [0, 1, 2] := by decide

theorem core_setActionStateAll (r : Room) (state : PlayerState) (time : Int)
    (timed : TIME state = some time) (d : Draws) :
    (r.setActionStateAll state d).core = r.core.promptAll state time := by
  simp only [setActionStateAll, finRange_three, List.foldl_cons, List.foldl_nil,
    core_setActionState _ _ state time timed, promptAll]

theorem core_setActionStateAll_waiting (r : Room) (d : Draws) :
    (r.setActionStateAll .waiting d).core = r.core.allWaiting := by
  simp only [setActionStateAll, finRange_three, List.foldl_cons, List.foldl_nil,
    core_setActionState_waiting, allWaiting]

theorem core_actionStopAll (r : Room) (d : Draws) :
    (r.actionStopAll d).core = r.core.allWaiting := by
  simp only [actionStopAll, finRange_three, List.foldl_cons, List.foldl_nil,
    core_setActionState_waiting, core_clearClock, allWaiting]

/-- The hand a player holds after a deal, and his copy of it. -/
def dealHand (r : Room) (p : Seat) : Room :=
  (r.send (.roomDealCard p (r.players p).cards)).modify p fun pl => { pl with
    state := .dealCard, robotAgent := .init_handcards pl.cards, cards := sortCards pl.cards }

theorem core_dealTo (conf : Conf) (r : Room) (p : Seat) (d : Draws) :
    (r.dealTo conf p d).core = r.core.dealHand p := by
  have dealt : (r.setActionState p .dealCard d).core = r.core.dealHand p := by
    simp only [setActionState, TIME, if_true]
    rw [core_modify _ p _ (fun pl => { pl with
      state := .dealCard, robotAgent := .init_handcards pl.cards, cards := sortCards pl.cards })
      fun _ => rfl, core_send _ _ rfl]
    rfl
  simp only [dealTo]
  split
  · rw [core_send_hidden _ _ rfl,
      core_modify_hidden _ _ (fun pl => { pl with skillState := true }) fun _ => rfl, dealt]
  · exact dealt

@[simp] theorem core_enter (r : Room) (state : RoomState) (player : Option Seat) :
    (r.enter state player).core = r.core.enter state player := rfl

@[simp] theorem core_timeout (r : Room) (w : Wait) : (r.timeout w).core = r.core.timeout w := rfl

@[simp] theorem core_sleep (r : Room) (rest : Holding) :
    (r.sleep rest).core = r.core.sleep rest := rfl

@[simp] theorem core_setActionPlayerIndex (r : Room) (p : Seat) :
    (r.setActionPlayerIndex p).core = r.core.setActionPlayerIndex p := rfl

@[simp] theorem core_dealCard (r : Room) (d : Draws) : (r.dealCard d).core = r.core.dealCard d :=
  rfl

theorem core_setPlayCardState (r : Room) (p : Seat) (state : PlayCardState) :
    (r.setPlayCardState p state).core = r.core.setPlayCardState p state :=
  core_modify r p (fun pl => { pl with playCardState := state }) _ fun _ => rfl

variable (conf : Conf)

/-- `action` on the core. -/
def coreAction (r : Room) (state : RoomState) (player : Option Seat) (d : Draws) : Room :=
  let r := r.enter state player
  let p := r.actionIndex
  match state with
  | .readyOk => r
  | .dealCard => ((((r.dealCard d).dealHand 0).dealHand 1).dealHand 2).timeout .dealCard
  | .callLandlord => r.prompt p .callLandlord 10
  | .robLandlord => r.prompt p .robLandlord 10
  | .doubleing => r.promptAll .doubleing 5
  | .doubleMax => r.promptAll .doubleMax 8
  | .playing =>
      let state := match r.lastPlayCardObj with
        | none => .first
        | some last => playCardStateAfter last p
      (r.setPlayCardState p state).prompt p .playing 20
  | .ended => r.actionEnded conf p

theorem core_gameover (r : Room) (p : Seat) :
    (r.gameover conf p).core = r.core.gameover conf p := by
  simp only [gameover]
  rw [core_send _ _ rfl]
  rfl

theorem core_actionEnded (r : Room) (p : Seat) :
    (r.actionEnded conf p).core = r.core.actionEnded conf p := by
  have farmers : r.core.getFarmerArr = r.getFarmerArr := rfl
  have landlord : r.core.landlordPlayer = r.landlordPlayer := rfl
  have isLandlord : (r.core.players p).isLandlord = (r.players p).isLandlord := rfl
  have counts : ∀ q, (r.core.players q).playCount = (r.players q).playCount := fun _ => rfl
  simp only [actionEnded, farmers, landlord, isLandlord, counts]
  split
  · split
    · rw [core_gameover, core_addMultiple]
    · exact core_gameover conf r p
  · split
    · rfl
    · split
      · rw [core_gameover, core_addMultiple]
      · exact core_gameover conf r p

theorem core_action (r : Room) (state : RoomState) (player : Option Seat) (d : Draws)
    (begun : state ≠ .readyOk) :
    (r.action conf state player d).core = r.core.coreAction conf state player d := by
  cases state with
  | readyOk => exact absurd rfl begun
  | dealCard =>
      simp only [action, coreAction, finRange_three, List.foldl_cons, List.foldl_nil,
        core_timeout, core_dealTo, core_dealCard, core_enter]
  | callLandlord => exact core_setActionState _ _ _ _ rfl d
  | robLandlord => exact core_setActionState _ _ _ _ rfl d
  | doubleing => exact core_setActionStateAll _ _ _ rfl d
  | doubleMax => exact core_setActionStateAll _ _ _ rfl d
  | playing =>
      simp only [action, coreAction]
      rw [core_setActionState _ _ _ 20 rfl d, core_setPlayCardState, core_enter]
      rfl
  | ended => exact core_actionEnded conf _ _

theorem core_landlordSet (r : Room) (p : Seat) :
    (r.landlordSet conf p).core = r.core.landlordSet conf p := by
  simp only [landlordSet, core_sleep]
  rw [core_send _ _ rfl, core_addMultiple]
  rfl

theorem core_setLandlord (r : Room) (p : Seat) (delayed : Bool) :
    (r.setLandlord conf p delayed).core = r.core.setLandlord conf p delayed := by
  have made : ∀ bottomCards : List Card, ({ r with landlordPlayer := some p }.modify p fun pl =>
      { pl with
        isLandlord := true
        cards := sortCards (pl.cards ++ bottomCards)
        robotAgent := pl.robotAgent.setLandlord bottomCards }).core =
      { r.core with landlordPlayer := some p }.modify p fun pl => { pl with
        isLandlord := true
        cards := sortCards (pl.cards ++ bottomCards)
        robotAgent := pl.robotAgent.setLandlord bottomCards } :=
    fun _ => core_modify _ _ _ _ fun _ => rfl
  cases delayed with
  | true => exact congrArg (fun m => m.sleep (.landlordDelay p)) (made r.bottomCards)
  | false =>
      refine (core_landlordSet conf _ p).trans ?_
      exact congrArg (fun m => m.landlordSet conf p) (made r.bottomCards)

/-- `actionEnd` on the core. -/
def coreAfterBid (r : Room) (bid : Bid) (d : Draws) : Room :=
  match bid with
  | .call p => r.coreAction conf .callLandlord (some p) d
  | .rob p => r.coreAction conf .robLandlord (some p) d
  | .landlord p => r.setLandlord conf p false
  | .redeal => r.coreAction conf .dealCard none d

theorem core_afterBid (r : Room) (bid : Bid) (d : Draws) :
    (r.afterBid conf bid d).core = r.core.coreAfterBid conf bid d := by
  cases bid with
  | call p => exact core_action conf r _ _ d (by decide)
  | rob p => exact core_action conf r _ _ d (by decide)
  | landlord p => exact core_setLandlord conf r p false
  | redeal => exact core_action conf r _ _ d (by decide)

def lastActions (r : Room) : Seat → Option PlayerAction := fun q => (r.players q).lastAction

def coreActionEnd (r : Room) (p : Seat) (actionType : PlayerAction) (d : Draws) : Room :=
  let r := r.setActionPlayerIndex p
  match r.state with
  | .callLandlord => r.coreAfterBid conf (callEnd r.lastActions r.dealCardCount p) d
  | .robLandlord =>
      let (index, bid) := robEnd r.lastActions (r.players p).actionQueue p actionType
      (r.setActionPlayerIndex index).coreAfterBid conf bid d
  | .doubleing =>
      if ∀ q, (r.players q).doubleMultiple ≠ none then r.timeout .doubleing else r
  | .doubleMax =>
      if ∀ q, (r.players q).doubleMaxMultiple ≠ none then r.timeout .doubleMax else r
  | .playing =>
      if (r.players p).cards = [] then r.timeout (.ended p) else r.sleep .nextTurn
  | _ => r

theorem core_actionEnd (r : Room) (p : Seat) (actionType : PlayerAction) (d : Draws) :
    (r.actionEnd conf p actionType d).core = r.core.coreActionEnd conf p actionType d := by
  have state : r.core.state = r.state := rfl
  simp only [actionEnd, coreActionEnd, setActionPlayerIndex, state]
  cases r.state with
  | callLandlord => exact core_afterBid conf _ _ d
  | robLandlord => exact core_afterBid conf _ _ d
  | doubleing => exact apply_ite core _ _ _
  | doubleMax => exact apply_ite core _ _ _
  | playing => exact apply_ite core _ _ _
  | _ => rfl

end Room

end HuluLandlord.Ddz
