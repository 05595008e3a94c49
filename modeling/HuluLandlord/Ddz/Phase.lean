import HuluLandlord.Ddz.Act

/-!
The phases of a game. In every reachable room the control fields (the states of the
room and its players, what is pending, who is landlord) are those of one phase, and
each act belongs to the phases it can start from. `Trans` lists these combinations
once; what is proved about a game afterwards goes by cases on it.

`wedged` is the phase after a play that was recorded as answered and then raised:
nobody is prompted and nothing is pending.
-/
namespace HuluLandlord.Ddz
open Transition

structure Control where
  state : RoomState
  pstate : Seat → PlayerState
  waits : List Wait
  holding : Option Holding
  landlordPlayer : Option Seat
  isLandlord : Seat → Bool
  doubleSet : Seat → Bool
  doubleMaxSet : Seat → Bool

def Room.control (r : Room) : Control where
  state := r.state
  pstate := fun q => (r.players q).state
  waits := r.waits
  holding := r.holding
  landlordPlayer := r.landlordPlayer
  isLandlord := fun q => (r.players q).isLandlord
  doubleSet := fun q => (r.players q).doubleMultiple.isSome
  doubleMaxSet := fun q => (r.players q).doubleMaxMultiple.isSome

inductive Phase
  | dealt
  | bidding (rob : Bool) (p : Seat)
  | landlordDelay (rob : Bool) (l : Seat)
  | landlordWaite (rob : Bool) (l : Seat)
  | doubleing (l : Seat) (answered : Seat → Bool)
  | doubleMax (l : Seat) (answered : Seat → Bool)
  | playing (l p : Seat)
  | effect (l p : Seat)
  | nextTurn (l : Seat)
  | out (l w : Seat)
  | ended (l w : Seat)
  | wedged (l : Seat)

def bidRoom (rob : Bool) : RoomState := if rob then .robLandlord else .callLandlord

/-- Only `p` is prompted. -/
def only (p : Seat) (state : PlayerState) : Seat → PlayerState :=
  Function.update (fun _ => .waiting) p state

def nobody : Seat → PlayerState := fun _ => .waiting

def pending (answered : Seat → Bool) (state : PlayerState) : Seat → PlayerState :=
  fun q => if answered q then .waiting else state

def isSeat (l : Seat) : Seat → Bool := fun q => decide (q = l)

def never : Seat → Bool := fun _ => false
def always : Seat → Bool := fun _ => true

def Phase.control : Phase → Control
  | .dealt => ⟨.dealCard, fun _ => .dealCard, [.dealCard], none, none, never, never, never⟩
  | .bidding rob p => ⟨bidRoom rob, only p (bidState rob), [], none, none, never, never, never⟩
  | .landlordDelay rob l =>
      ⟨bidRoom rob, nobody, [], some (.landlordDelay l), some l, isSeat l, never, never⟩
  | .landlordWaite rob l =>
      ⟨bidRoom rob, nobody, [], some (.landlordWaite l), some l, isSeat l, never, never⟩
  | .doubleing l answered =>
      ⟨.doubleing, pending answered .doubleing, if answered = always then [.doubleing] else [],
        none, some l, isSeat l, answered, never⟩
  | .doubleMax l answered =>
      ⟨.doubleMax, pending answered .doubleMax, if answered = always then [.doubleMax] else [],
        none, some l, isSeat l, always, answered⟩
  | .playing l p => ⟨.playing, only p .playing, [], none, some l, isSeat l, always, always⟩
  | .effect l p =>
      ⟨.playing, nobody, [], some (.playCardEffect p .playCard), some l, isSeat l, always, always⟩
  | .nextTurn l => ⟨.playing, nobody, [], some .nextTurn, some l, isSeat l, always, always⟩
  | .out l w => ⟨.playing, nobody, [.ended w], none, some l, isSeat l, always, always⟩
  | .ended l _ => ⟨.ended, nobody, [], none, some l, isSeat l, always, always⟩
  | .wedged l => ⟨.playing, nobody, [], none, some l, isSeat l, always, always⟩

def Bid.phase (rob : Bool) : Bid → Phase
  | .call p => .bidding false p
  | .rob p => .bidding true p
  | .landlord l => .landlordWaite rob l
  | .redeal => .dealt

/-- In every phase the landlord's flag is set, and no other. -/
theorem Phase.isLandlord_eq {ph : Phase} {l : Seat} (set : ph.control.landlordPlayer = some l) :
    ph.control.isLandlord = isSeat l := by
  cases ph with
  | dealt => cases set
  | bidding rob p => cases set
  | _ => exact congrArg isSeat (Option.some.inj set)

namespace Room
variable (conf : Conf)

/-- The core after an accepted bid, before its consequence. -/
def bidden (c : Room) (rob yes : Bool) (p : Seat) : Room :=
  (((c.modify p fun pl => pl.answered (bidAction rob yes)).send
    (.roomSyncPlayerAction p (bidAction rob yes) none)).announce (bidKey rob yes)
      (bidVal conf rob) p).setActionPlayerIndex p

/-- What the bid leads to, and the seat left in `actionIndex`. -/
def bidEnd (c : Room) (rob : Bool) (p : Seat) (type : PlayerAction) : Seat × Bid :=
  if rob then robEnd c.lastActions (c.players p).actionQueue p type
  else (p, callEnd c.lastActions c.dealCardCount p)

end Room

namespace Room

/-- An accepted play is a client's or the robot's. -/
def Plays (c : Room) (e : Event) (d : Draws) (p : Seat) (play : Option PlayCardObj) : Prop :=
  (∃ params, e = .request p (.playCard params) ∧ c.playCardCheck p params = .ok play) ∨
    ∃ decision, c.autoDecision p d = .ok decision ∧
      c.playCardCheck p (autoParams decision) = .ok play

/-- The core after an accepted play of cards, before the factor of a bomb. -/
def recorded (c : Room) (p : Seat) (play : PlayCardObj) : Room :=
  ((c.played p (some play)).send (.roomSyncPlayerAction p .playCard (some play))).recordPlay p play

end Room

inductive Trans (conf : Conf) (e : Event) (d : Draws) (c : Room) : Phase → Phase → Room → Prop
  | gold (ph : Phase) (p : Seat) (num : Int) :
      Trans conf e d c ph ph (c.modify p fun pl => { pl with gold := num })
  | showCard (ph : Phase) (p : Seat) :
      c.state.code < RoomState.doubleing.code →
      Trans conf e d c ph ph (c.addMultiple .showCard (conf.multipleInfo .showCard) p)
  | first : Trans conf e d c .dealt (.bidding false d.first) (c.coreFire conf .dealCard d)
  | bid (rob yes : Bool) (p : Seat) :
      Trans conf e d c (.bidding rob p)
        (((c.bidden conf rob yes p).bidEnd rob p (bidAction rob yes)).2.phase rob)
        (((c.bidden conf rob yes p).setActionPlayerIndex
          ((c.bidden conf rob yes p).bidEnd rob p (bidAction rob yes)).1).coreAfterBid conf
          ((c.bidden conf rob yes p).bidEnd rob p (bidAction rob yes)).2 d)
  | force (rob : Bool) (q p : Seat) (buff : SkillBuff) :
      conf.skillBuffCfg p = some buff → buff.skill_id = 1040101 →
      Trans conf e d c (.bidding rob q) (.landlordDelay rob p) (c.coreForce conf p buff)
  | delayed (rob : Bool) (l : Seat) :
      Trans conf e d c (.landlordDelay rob l) (.landlordWaite rob l)
        (c.coreResume conf (.landlordDelay l) d)
  | set (rob : Bool) (l : Seat) :
      Trans conf e d c (.landlordWaite rob l) (.doubleing l never)
        (c.coreResume conf (.landlordWaite l) d)
  | double (l p : Seat) (answered : Seat → Bool) (t : Option PlayerAction) (type : PlayerAction)
      (multiple : Nat) (key : Option MultipleKey) :
      answered p = false → Room.doubleInfo conf t = some (type, multiple, key) →
      Trans conf e d c (.doubleing l answered) (.doubleing l (Function.update answered p true))
        (c.coreDouble conf p type multiple key d)
  | doubled (l : Seat) :
      Trans conf e d c (.doubleing l always) (.doubleMax l never) (c.coreFire conf .doubleing d)
  | doubleMax (l p : Seat) (answered : Seat → Bool) (t : Option PlayerAction)
      (type : PlayerAction) (multiple : Nat) (key : Option MultipleKey) :
      answered p = false → Room.doubleMaxInfo conf t = some (type, multiple, key) →
      Trans conf e d c (.doubleMax l answered) (.doubleMax l (Function.update answered p true))
        (c.coreDoubleMax conf p type multiple key d)
  | doubledMax (l : Seat) :
      Trans conf e d c (.doubleMax l always) (.playing l l) (c.coreFire conf .doubleMax d)
  | pass (l p : Seat) :
      c.Plays e d p none → (c.players p).cards ≠ [] →
      Trans conf e d c (.playing l p) (.nextTurn l) (c.corePlay conf p none d)
  | passOut (l p : Seat) :
      c.Plays e d p none → (c.players p).cards = [] →
      Trans conf e d c (.playing l p) (.out l p) (c.corePlay conf p none d)
  | play (l p : Seat) (play : PlayCardObj) (m : Room) :
      c.Plays e d p (some play) →
      ((c.players p).robotAgent.playCard (some play)).2 = true →
      (c.recorded p play).bombMultiple conf p play = .ok m →
      Trans conf e d c (.playing l p) (.effect l p) (m.sleep (.playCardEffect p .playCard))
  | mirrorRaised (l p : Seat) (play : PlayCardObj) :
      c.Plays e d p (some play) →
      ((c.players p).robotAgent.playCard (some play)).2 = false →
      Trans conf e d c (.playing l p) (.wedged l) (c.played p (some play))
  | bombRaised (l p : Seat) (play : PlayCardObj) (message : String) :
      c.Plays e d p (some play) →
      ((c.players p).robotAgent.playCard (some play)).2 = true →
      (c.recorded p play).bombMultiple conf p play = .error message →
      Trans conf e d c (.playing l p) (.wedged l) (c.recorded p play)
  | turn (l p : Seat) :
      (c.players p).cards ≠ [] →
      Trans conf e d c (.effect l p) (.nextTurn l)
        (c.coreResume conf (.playCardEffect p .playCard) d)
  | out (l p : Seat) :
      (c.players p).cards = [] →
      Trans conf e d c (.effect l p) (.out l p)
        (c.coreResume conf (.playCardEffect p .playCard) d)
  | next (l : Seat) (last : LastPlay) :
      c.lastPlayCardObj = some last →
      Trans conf e d c (.nextTurn l) (.playing l (c.actionIndex + 1)) (c.coreResume conf .nextTurn d)
  | lost (l : Seat) :
      c.lastPlayCardObj = none →
      Trans conf e d c (.nextTurn l) (.wedged l) (c.coreResume conf .nextTurn d)
  | ended (l w : Seat) :
      Trans conf e d c (.out l w) (.ended l w) (c.coreFire conf (.ended w) d)

section Control
variable {c : Room} {ph : Phase} {p q : Seat}

theorem control_modify (f : Player → Player) (s : PlayerState)
    (state : (f (c.players p)).state = s)
    (isLandlord : (f (c.players p)).isLandlord = (c.players p).isLandlord)
    (double : (f (c.players p)).doubleMultiple = (c.players p).doubleMultiple)
    (doubleMax : (f (c.players p)).doubleMaxMultiple = (c.players p).doubleMaxMultiple) :
    (c.modify p f).control =
      { c.control with pstate := Function.update c.control.pstate p s } := by
  have at' : ∀ q, (c.modify p f).players q = if q = p then f (c.players p) else c.players q :=
    fun q => Function.update_apply c.players p _ q
  simp only [Room.control, Control.mk.injEq, at']
  refine ⟨rfl, ?_, rfl, rfl, rfl, ?_, ?_, ?_⟩
  · funext q
    by_cases here : q = p
    · simp [here, state]
    · simp [here]
  · funext q
    by_cases here : q = p
    · simp [here, isLandlord]
    · simp [here]
  · funext q
    by_cases here : q = p
    · simp [here, double]
    · simp [here]
  · funext q
    by_cases here : q = p
    · simp [here, doubleMax]
    · simp [here]

/-- A modification that no control field sees. -/
theorem control_modify_hidden (f : Player → Player)
    (state : (f (c.players p)).state = (c.players p).state)
    (isLandlord : (f (c.players p)).isLandlord = (c.players p).isLandlord)
    (double : (f (c.players p)).doubleMultiple = (c.players p).doubleMultiple)
    (doubleMax : (f (c.players p)).doubleMaxMultiple = (c.players p).doubleMaxMultiple) :
    (c.modify p f).control = c.control := by
  rw [control_modify f _ state isLandlord double doubleMax]
  simp only [Room.control, Control.mk.injEq, true_and, and_true]
  exact Function.update_eq_self p _

theorem control_prompt (state : PlayerState) (time : Int) :
    (c.prompt p state time).control =
      { c.control with pstate := Function.update c.control.pstate p state } :=
  control_modify (c := c.send _) _ _ rfl rfl rfl rfl

theorem control_waiting :
    (c.modify p fun pl => pl.inState .waiting).control =
      { c.control with pstate := Function.update c.control.pstate p .waiting } :=
  control_modify _ _ rfl rfl rfl rfl

theorem update_all (s : Seat → PlayerState) (t : PlayerState) :
    Function.update (Function.update (Function.update s 0 t) 1 t) 2 t = fun _ => t := by
  funext q
  match q with
  | 0 => rfl
  | 1 => rfl
  | 2 => rfl

theorem control_promptAll (state : PlayerState) (time : Int) :
    (c.promptAll state time).control = { c.control with pstate := fun _ => state } := by
  simp only [Room.promptAll, control_prompt, update_all]

theorem control_allWaiting :
    c.allWaiting.control = { c.control with pstate := nobody } := by
  simp only [Room.allWaiting, control_waiting, update_all]
  rfl

theorem control_dealHand :
    (c.dealHand p).control =
      { c.control with pstate := Function.update c.control.pstate p .dealCard } :=
  control_modify (c := c.send _) _ _ rfl rfl rfl rfl

theorem control_answered (type : PlayerAction) :
    (c.modify p fun pl => pl.answered type).control =
      { c.control with pstate := Function.update c.control.pstate p .waiting } :=
  control_modify _ _ rfl rfl rfl rfl

theorem control_announce (key : Option MultipleKey) (val : Nat) :
    (c.announce key val p).control = c.control := by
  cases key with
  | none => rfl
  | some key => rfl

theorem control_bidden (conf : Conf) (rob yes : Bool) :
    (c.bidden conf rob yes p).control =
      { c.control with pstate := Function.update c.control.pstate p .waiting } := by
  have answered := control_answered (c := c) (p := p) (bidAction rob yes)
  exact (control_announce _ _).trans answered

/-- Setting the landlord changes his flag and what the room waits for. -/
theorem control_landlordMade (bottomCards : List Card) :
    ({ c with landlordPlayer := some p }.modify p fun pl => { pl with
      isLandlord := true
      cards := sortCards (pl.cards ++ bottomCards)
      robotAgent := pl.robotAgent.setLandlord bottomCards }).control =
      { c.control with
        landlordPlayer := some p, isLandlord := Function.update c.control.isLandlord p true } := by
  simp only [Room.control, Room.modify, Control.mk.injEq, true_and]
  refine ⟨?_, ?_, ?_, ?_⟩
  · funext q
    by_cases here : q = p
    · simp [here]
    · simp [here]
  · funext q
    by_cases here : q = p
    · simp [here]
    · simp [here]
  · funext q
    by_cases here : q = p
    · simp [here]
    · simp [here]
  · funext q
    by_cases here : q = p
    · simp [here]
    · simp [here]

theorem control_setLandlord (conf : Conf) (delayed : Bool) :
    (c.setLandlord conf p delayed).control =
      { c.control with
        landlordPlayer := some p
        isLandlord := Function.update c.control.isLandlord p true
        holding := some (if delayed then .landlordDelay p else .landlordWaite p) } := by
  have made := control_landlordMade (c := c) (p := p) c.bottomCards
  cases delayed with
  | true => exact congrArg (fun k : Control => { k with holding := some (.landlordDelay p) }) made
  | false => exact congrArg (fun k : Control => { k with holding := some (.landlordWaite p) }) made

theorem never_update (l : Seat) : Function.update never l true = isSeat l := by
  funext q
  by_cases here : q = l
  · simp [here, isSeat]
  · simp [here, isSeat, never]

theorem only_waiting (s : PlayerState) : Function.update (only p s) p .waiting = nobody := by
  funext q
  by_cases here : q = p
  · simp [here, nobody]
  · simp [here, nobody, only]

theorem control_dealAll (conf : Conf) (d : Draws) :
    (c.coreAction conf .dealCard none d).control =
      { c.control with
        state := RoomState.dealCard
        pstate := fun _ => PlayerState.dealCard
        waits := c.waits ++ [Wait.dealCard] } := by
  have dealt : (((((c.enter .dealCard none).dealCard d).dealHand 0).dealHand 1).dealHand 2).control =
      { c.control with state := RoomState.dealCard, pstate := fun _ => PlayerState.dealCard } := by
    simp only [control_dealHand, update_all]
    rfl
  exact congrArg (fun k : Control => { k with waits := c.waits ++ [Wait.dealCard] }) dealt

theorem control_coreAfterBid (conf : Conf) (d : Draws) (rob : Bool) (bid : Bid)
    (fields : c.control = ⟨bidRoom rob, nobody, [], none, none, never, never, never⟩) :
    (c.coreAfterBid conf bid d).control = (bid.phase rob).control := by
  cases bid with
  | call q =>
      refine (control_prompt (c := c.enter .callLandlord (some q)) .callLandlord 10).trans ?_
      show ({ c.control with
        state := .callLandlord, pstate := Function.update c.control.pstate q .callLandlord } :
          Control) = _
      rw [fields]
      rfl
  | rob q =>
      refine (control_prompt (c := c.enter .robLandlord (some q)) .robLandlord 10).trans ?_
      show ({ c.control with
        state := .robLandlord, pstate := Function.update c.control.pstate q .robLandlord } :
          Control) = _
      rw [fields]
      rfl
  | landlord q =>
      refine (control_setLandlord (c := c) conf false).trans ?_
      rw [fields]
      simp only [never_update]
      rfl
  | redeal =>
      have idle : c.waits = [] := congrArg Control.waits fields
      refine (control_dealAll (c := c) conf d).trans ?_
      rw [fields, idle]
      rfl

/-- A bid ends in the phase its decision names. -/
theorem control_bid (conf : Conf) (d : Draws) (rob yes : Bool) (index : Seat) (bid : Bid)
    (phase : c.control = (Phase.bidding rob p).control) :
    (((c.bidden conf rob yes p).setActionPlayerIndex index).coreAfterBid conf bid d).control =
      (bid.phase rob).control := by
  refine control_coreAfterBid conf d rob bid ?_
  show (c.bidden conf rob yes p).control = _
  rw [control_bidden, phase]
  simp only [Phase.control, only_waiting]

theorem only_eq {s t : PlayerState} (active : t ≠ .waiting) (at' : only q s p = t) :
    q = p ∧ s = t := by
  simp only [only, Function.update_apply] at at'
  split at at'
  · rename_i same
    exact ⟨same.symm, at'⟩
  · exact absurd at'.symm active

theorem pending_eq {s t : PlayerState} {answered : Seat → Bool} (active : t ≠ .waiting)
    (at' : pending answered s p = t) : answered p = false ∧ s = t := by
  simp only [pending] at at'
  split at at'
  · exact absurd at'.symm active
  · rename_i open'
    exact ⟨Bool.eq_false_iff.mpr open', at'⟩

theorem bidState_ne (rob : Bool) : bidState rob ≠ .waiting := by
  cases rob <;> decide

theorem bidState_inj {rob rob' : Bool} (same : bidState rob = bidState rob') : rob = rob' := by
  revert same
  cases rob <;> cases rob' <;> decide

/-- Who is prompted tells the phase. -/
theorem asked_bid (rob : Bool) (asked : ph.control.pstate p = bidState rob) :
    ph = .bidding rob p := by
  cases ph with
  | dealt => cases rob <;> exact PlayerState.noConfusion asked
  | bidding rob' q =>
      obtain ⟨rfl, same⟩ := only_eq (bidState_ne rob) asked
      rw [bidState_inj same]
  | doubleing l answered =>
      have same := (pending_eq (bidState_ne rob) asked).2
      cases rob <;> exact absurd same (by decide)
  | doubleMax l answered =>
      have same := (pending_eq (bidState_ne rob) asked).2
      cases rob <;> exact absurd same (by decide)
  | playing l q =>
      have same := (only_eq (bidState_ne rob) asked).2
      cases rob <;> exact absurd same (by decide)
  | _ => exact absurd asked.symm (bidState_ne rob)

theorem asked_double (asked : ph.control.pstate p = .doubleing) :
    ∃ l answered, ph = .doubleing l answered ∧ answered p = false := by
  cases ph with
  | dealt => exact PlayerState.noConfusion asked
  | bidding rob q =>
      have same := (only_eq (by decide) asked).2
      cases rob <;> exact absurd same (by decide)
  | doubleing l answered => exact ⟨l, answered, rfl, (pending_eq (by decide) asked).1⟩
  | doubleMax l answered => exact absurd (pending_eq (by decide) asked).2 (by decide)
  | playing l q => exact absurd (only_eq (by decide) asked).2 (by decide)
  | _ => exact PlayerState.noConfusion asked

theorem asked_doubleMax (asked : ph.control.pstate p = .doubleMax) :
    ∃ l answered, ph = .doubleMax l answered ∧ answered p = false := by
  cases ph with
  | dealt => exact PlayerState.noConfusion asked
  | bidding rob q =>
      have same := (only_eq (by decide) asked).2
      cases rob <;> exact absurd same (by decide)
  | doubleing l answered => exact absurd (pending_eq (by decide) asked).2 (by decide)
  | doubleMax l answered => exact ⟨l, answered, rfl, (pending_eq (by decide) asked).1⟩
  | playing l q => exact absurd (only_eq (by decide) asked).2 (by decide)
  | _ => exact PlayerState.noConfusion asked

theorem asked_play (asked : ph.control.pstate p = .playing) : ∃ l, ph = .playing l p := by
  cases ph with
  | dealt => exact PlayerState.noConfusion asked
  | bidding rob q =>
      have same := (only_eq (by decide) asked).2
      cases rob <;> exact absurd same (by decide)
  | doubleing l answered => exact absurd (pending_eq (by decide) asked).2 (by decide)
  | doubleMax l answered => exact absurd (pending_eq (by decide) asked).2 (by decide)
  | playing l q => exact ⟨l, congrArg (Phase.playing l) (only_eq (by decide) asked).1⟩
  | _ => exact PlayerState.noConfusion asked

theorem unset_bidding (unset : ph.control.landlordPlayer = none)
    (bidding : ph.control.state = .callLandlord ∨ ph.control.state = .robLandlord) :
    ∃ rob q, ph = .bidding rob q := by
  cases ph with
  | dealt => exact absurd bidding (by decide)
  | bidding rob q => exact ⟨rob, q, rfl⟩
  | _ => exact absurd unset (by simp [Phase.control])

theorem playCardCheck_state {params : PlayParams} {play : Option PlayCardObj}
    (checked : c.playCardCheck p params = .ok play) : (c.players p).state = .playing := by
  by_contra out
  simp [Room.playCardCheck, out] at checked

theorem control_coreForce (conf : Conf) (buff : SkillBuff) (rob : Bool)
    (phase : c.control = (Phase.bidding rob q).control) :
    (c.coreForce conf p buff).control = (Phase.landlordDelay rob p).control := by
  have waiting := control_allWaiting (c := c.send (.roomSyncPlayerSkill p buff.skill_id))
  refine (control_setLandlord _ _).trans ?_
  show ({ (c.send (.roomSyncPlayerSkill p buff.skill_id)).allWaiting.control with
    landlordPlayer := some p
    isLandlord := Function.update (c.send (.roomSyncPlayerSkill p
      buff.skill_id)).allWaiting.control.isLandlord p true
    holding := some (.landlordDelay p) } : Control) = _
  rw [waiting]
  show ({ c.control with
    pstate := nobody
    landlordPlayer := some p
    isLandlord := Function.update c.control.isLandlord p true
    holding := some (.landlordDelay p) } : Control) = _
  rw [phase]
  simp only [Phase.control, never_update]

theorem never_ne_always : never ≠ always := fun same => Bool.noConfusion (congrFun same 0)

theorem pending_update (answered : Seat → Bool) (s : PlayerState) :
    Function.update (pending answered s) p .waiting =
      pending (Function.update answered p true) s := by
  funext q
  by_cases here : q = p
  · simp [here, pending]
  · simp [here, pending]

theorem control_doubled (type : PlayerAction) (multiple : Nat) :
    (c.modify p fun pl => { pl.answered type with
      doubleAction := some type, doubleMultiple := some multiple }).control =
      { c.control with
        pstate := Function.update c.control.pstate p .waiting
        doubleSet := Function.update c.control.doubleSet p true } := by
  simp only [Room.control, Room.modify, Control.mk.injEq, true_and]
  refine ⟨?_, ?_, ?_, ?_⟩ <;>
  · funext q
    by_cases here : q = p
    · simp [here, Player.answered]
    · simp [here]

theorem control_doubledMax (type : PlayerAction) (multiple : Nat) :
    (c.modify p fun pl => { pl.answered type with
      doubleMaxAction := some type, doubleMaxMultiple := some multiple }).control =
      { c.control with
        pstate := Function.update c.control.pstate p .waiting
        doubleMaxSet := Function.update c.control.doubleMaxSet p true } := by
  simp only [Room.control, Room.modify, Control.mk.injEq, true_and]
  refine ⟨?_, ?_, ?_, ?_⟩ <;>
  · funext q
    by_cases here : q = p
    · simp [here, Player.answered]
    · simp [here]

/-- A round of doublings closes when the third player has answered. -/
theorem all_set (field : Player → Option Nat) (answered : Seat → Bool)
    (set : (fun q => (field (c.players q)).isSome) = answered) :
    (∀ q, field (c.players q) ≠ none) ↔ answered = always := by
  rw [← set]
  constructor
  · intro all
    funext q
    exact Option.isSome_iff_ne_none.mpr (all q)
  · intro all q
    exact Option.isSome_iff_ne_none.mp (congrFun all q)

theorem open_ne_always {answered : Seat → Bool} (open' : answered p = false) :
    answered ≠ always := by
  intro all
  rw [all] at open'
  exact Bool.noConfusion open'

section ActionEnd
variable (conf : Conf) (d : Draws) (type : PlayerAction)

theorem coreActionEnd_callLandlord (state : c.state = .callLandlord) :
    c.coreActionEnd conf p type d = (c.setActionPlayerIndex p).coreAfterBid conf
      (callEnd c.lastActions c.dealCardCount p) d := by
  have kept : (c.setActionPlayerIndex p).state = .callLandlord := state
  simp only [Room.coreActionEnd, kept]
  rfl

theorem coreActionEnd_robLandlord (state : c.state = .robLandlord) :
    c.coreActionEnd conf p type d = (c.setActionPlayerIndex
      (robEnd c.lastActions (c.players p).actionQueue p type).1).coreAfterBid conf
      (robEnd c.lastActions (c.players p).actionQueue p type).2 d := by
  have kept : (c.setActionPlayerIndex p).state = .robLandlord := state
  simp only [Room.coreActionEnd, kept]
  rfl

theorem coreActionEnd_doubleing (state : c.state = .doubleing) :
    c.coreActionEnd conf p type d = if ∀ q, (c.players q).doubleMultiple ≠ none then
      (c.setActionPlayerIndex p).timeout .doubleing else c.setActionPlayerIndex p := by
  have kept : (c.setActionPlayerIndex p).state = .doubleing := state
  simp only [Room.coreActionEnd, kept]
  rfl

theorem coreActionEnd_doubleMax (state : c.state = .doubleMax) :
    c.coreActionEnd conf p type d = if ∀ q, (c.players q).doubleMaxMultiple ≠ none then
      (c.setActionPlayerIndex p).timeout .doubleMax else c.setActionPlayerIndex p := by
  have kept : (c.setActionPlayerIndex p).state = .doubleMax := state
  simp only [Room.coreActionEnd, kept]
  rfl

theorem coreActionEnd_playing (state : c.state = .playing) :
    c.coreActionEnd conf p type d = if (c.players p).cards = [] then
      (c.setActionPlayerIndex p).timeout (.ended p)
      else (c.setActionPlayerIndex p).sleep .nextTurn := by
  have kept : (c.setActionPlayerIndex p).state = .playing := state
  simp only [Room.coreActionEnd, kept]
  rfl

end ActionEnd

theorem control_coreDouble (conf : Conf) (d : Draws) (l : Seat) (answered : Seat → Bool)
    (type : PlayerAction) (multiple : Nat) (key : Option MultipleKey)
    (phase : c.control = (Phase.doubleing l answered).control) (open' : answered p = false) :
    (c.coreDouble conf p type multiple key d).control =
      (Phase.doubleing l (Function.update answered p true)).control := by
  have doubled := control_doubled (c := c) (p := p) type multiple
  simp only [Room.coreDouble, Room.coreAnswer]
  generalize c.modify p (fun pl => { pl.answered type with
    doubleAction := some type, doubleMultiple := some multiple }) = n at doubled ⊢
  have announced := control_announce (c := n.send (.roomSyncPlayerAction p type none)) (p := p)
    key multiple
  generalize (n.send (.roomSyncPlayerAction p type none)).announce key multiple p = m
    at announced ⊢
  have fields : m.control = ⟨.doubleing, pending (Function.update answered p true) .doubleing, [],
      none, some l, isSeat l, Function.update answered p true, never⟩ := by
    refine (announced.trans doubled).trans ?_
    rw [phase]
    simp only [Phase.control, pending_update, if_neg (open_ne_always open')]
  have state : m.state = .doubleing := congrArg Control.state fields
  have idle : m.waits = [] := congrArg Control.waits fields
  have closed := all_set (c := m) Player.doubleMultiple _ (congrArg Control.doubleSet fields)
  rw [coreActionEnd_doubleing conf d type state]
  by_cases all : Function.update answered p true = always
  · rw [if_pos (closed.mpr all)]
    refine (congrArg (fun k : Control => { k with waits := m.waits ++ [Wait.doubleing] }) fields).trans ?_
    simp only [Phase.control, idle, List.nil_append, if_pos all]
  · rw [if_neg fun set => all (closed.mp set)]
    refine Eq.trans (b := m.control) rfl (fields.trans ?_)
    simp only [Phase.control, if_neg all]

theorem control_coreDoubleMax (conf : Conf) (d : Draws) (l : Seat) (answered : Seat → Bool)
    (type : PlayerAction) (multiple : Nat) (key : Option MultipleKey)
    (phase : c.control = (Phase.doubleMax l answered).control) (open' : answered p = false) :
    (c.coreDoubleMax conf p type multiple key d).control =
      (Phase.doubleMax l (Function.update answered p true)).control := by
  have doubled := control_doubledMax (c := c) (p := p) type multiple
  simp only [Room.coreDoubleMax, Room.coreAnswer]
  generalize c.modify p (fun pl => { pl.answered type with
    doubleMaxAction := some type, doubleMaxMultiple := some multiple }) = n at doubled ⊢
  have announced := control_announce (c := n.send (.roomSyncPlayerAction p type none)) (p := p)
    key multiple
  generalize (n.send (.roomSyncPlayerAction p type none)).announce key multiple p = m
    at announced ⊢
  have fields : m.control = ⟨.doubleMax, pending (Function.update answered p true) .doubleMax, [],
      none, some l, isSeat l, always, Function.update answered p true⟩ := by
    refine (announced.trans doubled).trans ?_
    rw [phase]
    simp only [Phase.control, pending_update, if_neg (open_ne_always open')]
  have state : m.state = .doubleMax := congrArg Control.state fields
  have idle : m.waits = [] := congrArg Control.waits fields
  have closed := all_set (c := m) Player.doubleMaxMultiple _ (congrArg Control.doubleMaxSet fields)
  rw [coreActionEnd_doubleMax conf d type state]
  by_cases all : Function.update answered p true = always
  · rw [if_pos (closed.mpr all)]
    refine (congrArg (fun k : Control => { k with waits := m.waits ++ [Wait.doubleMax] }) fields).trans ?_
    simp only [Phase.control, idle, List.nil_append, if_pos all]
  · rw [if_neg fun set => all (closed.mp set)]
    refine Eq.trans (b := m.control) rfl (fields.trans ?_)
    simp only [Phase.control, if_neg all]

theorem coreBid_eq (conf : Conf) (d : Draws) (rob yes : Bool) (state : c.state = bidRoom rob) :
    c.coreBid conf p (bidAction rob yes) (bidKey rob yes) (bidVal conf rob) d =
      ((c.bidden conf rob yes p).setActionPlayerIndex
        ((c.bidden conf rob yes p).bidEnd rob p (bidAction rob yes)).1).coreAfterBid conf
        ((c.bidden conf rob yes p).bidEnd rob p (bidAction rob yes)).2 d := by
  simp only [Room.coreBid, Room.coreAnswer, Room.bidden]
  generalize announced : ((c.modify p fun pl => pl.answered (bidAction rob yes)).send
    (.roomSyncPlayerAction p (bidAction rob yes) none)).announce (bidKey rob yes)
      (bidVal conf rob) p = m
  have kept : m.state = bidRoom rob := by
    rw [← announced]
    exact (congrArg Control.state (control_announce _ _)).trans state
  cases rob with
  | false => exact coreActionEnd_callLandlord conf d _ kept
  | true => exact coreActionEnd_robLandlord conf d _ kept

theorem control_played (play : Option PlayCardObj) :
    (c.played p play).control =
      { c.control with pstate := Function.update c.control.pstate p .waiting } :=
  control_modify _ _ rfl rfl rfl rfl

theorem control_recorded (play : PlayCardObj) :
    (c.recorded p play).control =
      { c.control with pstate := Function.update c.control.pstate p .waiting } := by
  have hidden := control_modify_hidden (c := (c.played p (some play)).send
    (.roomSyncPlayerAction p .playCard (some play))) (p := p) (fun pl => { pl with
      playedCards := pl.playedCards ++ [play]
      playCount := pl.playCount + 1
      playCardCount := pl.playCardCount + 1
      cards := removePlayed pl.cards play.cards }) rfl rfl rfl rfl
  have same := control_played (c := c) (p := p) (some play)
  exact hidden.trans same

theorem control_bombMultiple (conf : Conf) (play : PlayCardObj) {m : Room}
    (ok : c.bombMultiple conf p play = .ok m) : m.control = c.control := by
  simp only [Room.bombMultiple] at ok
  split at ok
  · split at ok
    · rw [← Except.ok.inj ok]
      rfl
    · cases ok
  · rw [← Except.ok.inj ok]

/-- The part of `act_trans` about plays, whoever decided them. -/
theorem play_trans (conf : Conf) (e : Event) (d : Draws) (l : Seat) (play : Option PlayCardObj)
    (phase : c.control = (Phase.playing l p).control) (plays : c.Plays e d p play) :
    ∃ ph', Trans conf e d c (.playing l p) ph' (c.corePlay conf p play d) ∧
      (c.corePlay conf p play d).control = ph'.control := by
  have idle : ({ c.control with pstate := Function.update c.control.pstate p .waiting } : Control) =
      (Phase.wedged l).control := by
    rw [phase]
    simp only [Phase.control, only_waiting]
  cases play with
  | none =>
      have state : ((c.played p none).send (.roomSyncPlayerAction p .pass none)).state = .playing :=
        congrArg Control.state phase
      have result : c.corePlay conf p none d = if (c.players p).cards = [] then
          (((c.played p none).send (.roomSyncPlayerAction p .pass none)).setActionPlayerIndex
            p).timeout (.ended p)
          else (((c.played p none).send
            (.roomSyncPlayerAction p .pass none)).setActionPlayerIndex p).sleep .nextTurn := by
        have hand : (((c.played p none).send (.roomSyncPlayerAction p .pass none)).players p).cards
            = (c.players p).cards := by
          simp [Room.played, Room.send, Room.modify, Player.answered]
        rw [← hand]
        exact coreActionEnd_playing conf d .pass state
      have waiting := (control_played (c := c) (p := p) none).trans idle
      by_cases empty : (c.players p).cards = []
      · refine ⟨_, .passOut l p plays empty, ?_⟩
        rw [result, if_pos empty]
        exact congrArg (fun k : Control => { k with waits := c.waits ++ [Wait.ended p] }) waiting |>.trans
          (by
            have none' : c.waits = [] := congrArg Control.waits phase
            rw [none'])
      · refine ⟨_, .pass l p plays empty, ?_⟩
        rw [result, if_neg empty]
        exact congrArg (fun k : Control => { k with holding := some .nextTurn }) waiting
  | some play =>
      have recorded := (control_recorded (c := c) (p := p) play).trans idle
      cases found : ((c.players p).robotAgent.playCard (some play)).2 with
      | false =>
          have result : c.corePlay conf p (some play) d = c.played p (some play) := by
            simp only [Room.corePlay, found, if_true]
          rw [result]
          exact ⟨_, .mirrorRaised l p play plays found, (control_played _).trans idle⟩
      | true =>
          cases bomb : (c.recorded p play).bombMultiple conf p play with
          | error message =>
              have result : c.corePlay conf p (some play) d = c.recorded p play := by
                simp only [Room.recorded] at bomb
                simp only [Room.corePlay, found, Bool.true_eq_false, if_false, Room.playType, bomb]
                rfl
              rw [result]
              exact ⟨_, .bombRaised l p play message plays found bomb, recorded⟩
          | ok m =>
              have result : c.corePlay conf p (some play) d =
                  m.sleep (.playCardEffect p .playCard) := by
                simp only [Room.recorded] at bomb
                simp only [Room.corePlay, found, Bool.true_eq_false, if_false, Room.playType, bomb]
              rw [result]
              refine ⟨_, .play l p play m plays found bomb, ?_⟩
              exact congrArg (fun k : Control =>
                { k with holding := some (.playCardEffect p .playCard) })
                ((control_bombMultiple conf play bomb).trans recorded)

theorem control_coreAction_doubleing (conf : Conf) (d : Draws) :
    (c.coreAction conf .doubleing (some p) d).control =
      { c.control with state := .doubleing, pstate := fun _ => .doubleing } :=
  control_promptAll (c := c.enter .doubleing (some p)) .doubleing 5

theorem control_coreAction_doubleMax (conf : Conf) (d : Draws) :
    (c.coreAction conf .doubleMax none d).control =
      { c.control with state := .doubleMax, pstate := fun _ => .doubleMax } :=
  control_promptAll (c := c.enter .doubleMax none) .doubleMax 8

theorem control_setPlayCardState (state : PlayCardState) :
    (c.setPlayCardState p state).control = c.control :=
  control_modify_hidden _ rfl rfl rfl rfl

theorem control_coreAction_playing (conf : Conf) (d : Draws) :
    (c.coreAction conf .playing (some p) d).control =
      { c.control with
        state := .playing, pstate := Function.update c.control.pstate p .playing } := by
  simp only [Room.coreAction]
  refine (control_prompt _ _).trans ?_
  rw [control_setPlayCardState]
  rfl

theorem control_coreAction_ended (conf : Conf) (d : Draws) :
    (c.coreAction conf .ended (some p) d).control = { c.control with state := .ended } := by
  show ((c.enter .ended (some p)).actionEnded conf p).control = _
  simp only [Room.actionEnded]
  split
  · split <;> rfl
  · split
    · rfl
    · split <;> rfl

theorem coreResume_next (conf : Conf) (d : Draws) {last : LastPlay}
    (found : c.lastPlayCardObj = some last) :
    c.coreResume conf .nextTurn d =
      (({ c with holding := none } : Room).setPlayCardState (c.actionIndex + 1)
        (Room.playCardStateAfter last (c.actionIndex + 1))).coreAction conf .playing
        (some (c.actionIndex + 1)) d := by
  simp only [Room.coreResume, found]
  rfl

theorem coreResume_lost (conf : Conf) (d : Draws) (lost : c.lastPlayCardObj = none) :
    c.coreResume conf .nextTurn d = { c with holding := none } := by
  simp only [Room.coreResume, lost]

theorem coreFire_doubleMax (conf : Conf) (d : Draws) {l : Seat}
    (landlord : c.landlordPlayer = some l) :
    c.coreFire conf .doubleMax d = ({ c with waits := c.waits.erase .doubleMax } : Room).coreAction
      conf .playing (some l) d :=
  congrArg (fun player => Room.coreAction conf { c with waits := c.waits.erase .doubleMax }
    .playing player d) landlord

/-- After the play of the last card the end is due. -/
theorem control_out (conf : Conf) (d : Draws) {l : Seat}
    (phase : c.control = (Phase.effect l p).control) (empty : (c.players p).cards = []) :
    (c.coreResume conf (.playCardEffect p .playCard) d).control = (Phase.out l p).control := by
  have idle : c.waits = [] := congrArg Control.waits phase
  have result : c.coreResume conf (.playCardEffect p .playCard) d = _ :=
    coreActionEnd_playing (c := { c with holding := none }) (p := p) conf d .playCard
      (congrArg Control.state phase)
  rw [result, if_pos empty]
  refine (congrArg (fun k : Control => { k with
    holding := none, waits := c.waits ++ [Wait.ended p] }) phase).trans ?_
  rw [idle]
  rfl

theorem control_over (conf : Conf) (d : Draws) {l w : Seat}
    (phase : c.control = (Phase.out l w).control) :
    (c.coreFire conf (.ended w) d).control = (Phase.ended l w).control := by
  have waits : c.waits = [.ended w] := congrArg Control.waits phase
  show (Room.coreAction conf { c with waits := c.waits.erase (.ended w) } .ended
    (some w) d).control = _
  have fired : ({ c with waits := c.waits.erase (.ended w) } : Room).control =
      { c.control with waits := c.waits.erase (.ended w) } := rfl
  rw [control_coreAction_ended, fired, phase, waits]
  simp only [Phase.control, List.erase_cons_head]

theorem resume_trans (conf : Conf) (e : Event) (d : Draws) (rest : Holding)
    (phase : c.control = ph.control) (held : ph.control.holding = some rest) :
    ∃ ph', Trans conf e d c ph ph' (c.coreResume conf rest d) ∧
      (c.coreResume conf rest d).control = ph'.control := by
  have free : ({ c with holding := none } : Room).control = { c.control with holding := none } := rfl
  cases ph with
  | landlordDelay rob l =>
      obtain rfl := Option.some.inj held
      refine ⟨_, .delayed rob l, ?_⟩
      exact congrArg (fun k : Control => { k with holding := some (.landlordWaite l) }) phase
  | landlordWaite rob l =>
      obtain rfl := Option.some.inj held
      refine ⟨_, .set rob l, ?_⟩
      refine (control_coreAction_doubleing (c := { c with holding := none }) conf d).trans ?_
      rw [free, phase]
      simp only [Phase.control, if_neg never_ne_always]
      rfl
  | effect l p =>
      obtain rfl := Option.some.inj held
      by_cases empty : (c.players p).cards = []
      · exact ⟨_, .out l p empty, control_out conf d phase empty⟩
      · refine ⟨_, .turn l p empty, ?_⟩
        have result : c.coreResume conf (.playCardEffect p .playCard) d = _ :=
          coreActionEnd_playing (c := { c with holding := none }) (p := p) conf d .playCard
            (congrArg Control.state phase)
        rw [result, if_neg empty]
        exact congrArg (fun k : Control => { k with holding := some .nextTurn }) phase
  | nextTurn l =>
      obtain rfl := Option.some.inj held
      cases last : c.lastPlayCardObj with
      | none =>
          refine ⟨_, .lost l last, ?_⟩
          rw [coreResume_lost conf d last, free, phase]
          rfl
      | some play =>
          refine ⟨_, .next l play last, ?_⟩
          rw [coreResume_next conf d last, control_coreAction_playing, control_setPlayCardState,
            free, phase]
          rfl
  | _ => cases held

theorem fire_trans (conf : Conf) (e : Event) (d : Draws) (w : Wait)
    (phase : c.control = ph.control) (due : w ∈ ph.control.waits) :
    ∃ ph', Trans conf e d c ph ph' (c.coreFire conf w d) ∧
      (c.coreFire conf w d).control = ph'.control := by
  have fired : ∀ ws, ({ c with waits := ws } : Room).control = { c.control with waits := ws } :=
    fun _ => rfl
  have waits : c.waits = ph.control.waits := congrArg Control.waits phase
  cases ph with
  | dealt =>
      obtain rfl := List.mem_singleton.mp due
      refine ⟨_, .first, ?_⟩
      refine (control_prompt (c := Room.enter (Room.allWaiting _) .callLandlord (some d.first))
        .callLandlord 10).trans ?_
      show ({ (Room.allWaiting { c with waits := c.waits.erase .dealCard }).control with
        state := .callLandlord
        pstate := Function.update (Room.allWaiting
          { c with waits := c.waits.erase .dealCard }).control.pstate d.first .callLandlord } :
          Control) = _
      rw [control_allWaiting, fired, phase, waits]
      rfl
  | doubleing l answered =>
      have finished : answered = always := by
        by_contra unfinished
        simp [Phase.control, unfinished] at due
      obtain rfl := finished
      obtain rfl := List.mem_singleton.mp due
      refine ⟨_, .doubled l, ?_⟩
      refine (control_coreAction_doubleMax (c := { c with waits := _ }) conf d).trans ?_
      rw [fired, phase, waits]
      simp only [Phase.control, if_neg never_ne_always]
      rfl
  | doubleMax l answered =>
      have finished : answered = always := by
        by_contra unfinished
        simp [Phase.control, unfinished] at due
      obtain rfl := finished
      obtain rfl := List.mem_singleton.mp due
      refine ⟨_, .doubledMax l, ?_⟩
      have landlord : c.landlordPlayer = some l := congrArg Control.landlordPlayer phase
      rw [coreFire_doubleMax conf d landlord, control_coreAction_playing, fired, phase, waits]
      rfl
  | out l w =>
      obtain rfl := List.mem_singleton.mp due
      exact ⟨_, .ended l w, control_over conf d phase⟩
  | _ => cases due

/-- Every act starts from one of the phases that allow it and ends in a phase. -/
theorem act_trans (conf : Conf) (e : Event) (d : Draws) (c c' : Room)
    (phase : c.control = ph.control) (act : Act conf e d c c') :
    ∃ ph', Trans conf e d c ph ph' c' ∧ c'.control = ph'.control := by
  have pstate : ∀ p, (c.players p).state = ph.control.pstate p :=
    fun p => congrFun (congrArg Control.pstate phase) p
  cases act with
  | gold p num =>
      exact ⟨ph, .gold ph p num, (control_modify_hidden _ rfl rfl rfl rfl).trans phase⟩
  | showCard p early => exact ⟨ph, .showCard ph p early, phase⟩
  | bid rob yes p asked =>
      obtain rfl := asked_bid rob ((pstate p).symm.trans asked)
      rw [coreBid_eq conf d rob yes (congrArg Control.state phase)]
      exact ⟨_, .bid rob yes p, control_bid conf d rob yes _ _ phase⟩
  | force p buff unset bidding cfg skill free =>
      obtain ⟨rob, q, rfl⟩ := unset_bidding
        ((congrArg Control.landlordPlayer phase).symm.trans unset)
        ((congrArg Control.state phase) ▸ bidding)
      exact ⟨_, .force rob q p buff cfg skill, control_coreForce conf buff rob phase⟩
  | double p t type multiple key asked info =>
      obtain ⟨l, answered, rfl, open'⟩ := asked_double ((pstate p).symm.trans asked)
      exact ⟨_, .double l p answered t type multiple key open' info,
        control_coreDouble conf d l answered type multiple key phase open'⟩
  | doubleMax p t type multiple key asked info =>
      obtain ⟨l, answered, rfl, open'⟩ := asked_doubleMax ((pstate p).symm.trans asked)
      exact ⟨_, .doubleMax l p answered t type multiple key open' info,
        control_coreDoubleMax conf d l answered type multiple key phase open'⟩
  | play p params play request checked =>
      obtain ⟨l, rfl⟩ := asked_play ((pstate p).symm.trans (playCardCheck_state checked))
      exact play_trans conf e d l play phase (.inl ⟨params, request, checked⟩)
  | auto p decision play decided checked =>
      obtain ⟨l, rfl⟩ := asked_play ((pstate p).symm.trans (playCardCheck_state checked))
      exact play_trans conf e d l play phase (.inr ⟨decision, decided, checked⟩)
  | resume rest held =>
      exact resume_trans conf e d rest phase ((congrArg Control.holding phase).symm.trans held)
  | fire w due => exact fire_trans conf e d w phase ((congrArg Control.waits phase) ▸ due)

/-- A landlord stays landlord. -/
theorem trans_landlord {conf : Conf} {e : Event} {d : Draws} {c' : Room} {ph' : Phase} {l : Seat}
    (set : ph.control.landlordPlayer = some l) (trans : Trans conf e d c ph ph' c') :
    ph'.control.landlordPlayer = some l := by
  cases trans with
  | first => cases set
  | bid rob yes p => cases set
  | force rob q p buff cfg skill => cases set
  | _ => exact set

end Control

namespace Room
variable (conf : Conf)

/-- The core of a room whose players are ready. -/
def ready (gold : Seat → Int) : Room :=
  { new (fun _ => noAgent) gold with
    players := fun p => { Player.new (gold p) with state := .readyOk } }

theorem init_core (agents : Seat → UserAgent) (gold : Seat → Int) (d : Draws) :
    (init conf agents gold d).core = (ready gold).coreAction conf .dealCard none d := by
  have readied : ((new agents gold).action conf .readyOk none d).core = ready gold := by
    simp only [action, setActionStateAll, finRange_three, List.foldl_cons, List.foldl_nil]
    simp only [setActionState, TIME, reduceCtorEq, if_false, modify, core, record, ready]
    rw [Room.mk.injEq]
    refine ⟨rfl, ?_, rfl, rfl, rfl, rfl, rfl, rfl, rfl, rfl, rfl, rfl, rfl⟩
    funext q
    fin_cases q
    · rfl
    · rfl
    · rfl
  rw [init, core_action conf _ _ _ d (by decide), readied]

theorem control_init (agents : Seat → UserAgent) (gold : Seat → Int) (d : Draws) :
    (init conf agents gold d).core.control = Phase.dealt.control := by
  rw [init_core, control_dealAll]
  rfl

variable {conf} {ok : Room → Event × Draws → Prop} {agents : Seat → UserAgent}
  {gold : Seat → Int} {d : Draws} {es : List (Event × Draws)} {r : Room}

/-- Induction over runs. An invariant of a phase and a core holds in every room reached
if the first deal establishes it and every transition keeps it. -/
theorem run_invariant (okCore : Room → Event → Draws → Prop) (Inv : Phase → Room → Prop)
    (guard : ∀ r e d, ok r (e, d) → okCore r.core e d)
    (start : Inv .dealt ((ready gold).coreAction conf .dealCard none d))
    (preserved : ∀ e d c c' ph ph', c.control = ph.control → Inv ph c → okCore c e d →
      Trans conf e d c ph ph' c' → Inv ph' c')
    (run : Run (step conf) ok (init conf agents gold d) es r) :
    ∃ ph : Phase, r.core.control = ph.control ∧ Inv ph r.core := by
  refine Run.invariant (fun r => ∃ ph : Phase, r.core.control = ph.control ∧ Inv ph r.core) ?_ ?_ run
  · exact ⟨.dealt, control_init conf agents gold d, init_core conf agents gold d ▸ start⟩
  · intro r e r' ⟨ph, phase, inv⟩ allowed moved
    obtain same | act := step_moves conf e.1 e.2 r r' moved
    · exact ⟨ph, same ▸ phase, same ▸ inv⟩
    · obtain ⟨ph', trans, phase'⟩ := act_trans conf e.1 e.2 r.core r'.core phase act
      exact ⟨ph', phase', preserved _ _ _ _ _ _ phase inv (guard r e.1 e.2 allowed) trans⟩

/-- Every room reached is in a phase. -/
theorem run_phase (run : Run (step conf) ok (init conf agents gold d) es r) :
    ∃ ph : Phase, r.control = ph.control := by
  obtain ⟨ph, phase, _⟩ := run_invariant (fun _ _ _ => True) (fun _ _ => True)
    (fun _ _ _ _ => trivial) trivial (fun _ _ _ _ _ _ _ _ _ _ => trivial) run
  exact ⟨ph, phase⟩

end Room

end HuluLandlord.Ddz
