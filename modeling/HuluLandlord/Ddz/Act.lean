import HuluLandlord.Ddz.Core

/-!
What an event can do to the core of a room. Every request, timer callback and
continuation either leaves the core as it is or is one of the acts below, whoever
caused it: a bid under trusteeship is the same act as a bid by request.
-/
namespace HuluLandlord.Ddz

namespace Room
variable (conf : Conf)

/-- A bid or a doubling on the core, from the recorded answer on. -/
def coreAnswer (r : Room) (p : Seat) (type : PlayerAction) (key : Option MultipleKey) (val : Nat)
    (d : Draws) : Room :=
  ((r.send (.roomSyncPlayerAction p type none)).announce key val p).coreActionEnd conf p type d

def coreBid (r : Room) (p : Seat) (type : PlayerAction) (key : Option MultipleKey) (val : Nat)
    (d : Draws) : Room :=
  (r.modify p fun pl => pl.answered type).coreAnswer conf p type key val d

def coreDouble (r : Room) (p : Seat) (type : PlayerAction) (multiple : Nat)
    (key : Option MultipleKey) (d : Draws) : Room :=
  (r.modify p fun pl => { pl.answered type with
    doubleAction := some type, doubleMultiple := some multiple }).coreAnswer conf p type key
      multiple d

def coreDoubleMax (r : Room) (p : Seat) (type : PlayerAction) (multiple : Nat)
    (key : Option MultipleKey) (d : Draws) : Room :=
  (r.modify p fun pl => { pl.answered type with
    doubleMaxAction := some type, doubleMaxMultiple := some multiple }).coreAnswer conf p type key
      multiple d

def coreForce (r : Room) (p : Seat) (buff : SkillBuff) : Room :=
  ((r.send (.roomSyncPlayerSkill p buff.skill_id)).allWaiting.addMultiple .skill
    buff.magnification p).setLandlord conf p true

/-- The player's own state and copy of the hand when `PlayCard` starts to write. -/
def played (r : Room) (p : Seat) (play : Option PlayCardObj) : Room :=
  r.modify p fun pl => { pl.answered (playType play) with
    robotAgent := (pl.robotAgent.playCard play).1 }

def corePlay (r : Room) (p : Seat) (play : Option PlayCardObj) (d : Draws) : Room :=
  if ((r.players p).robotAgent.playCard play).2 = false then r.played p play
  else
    let r := (r.played p play).send (.roomSyncPlayerAction p (playType play) play)
    match play with
    | none => r.coreActionEnd conf p .pass d
    | some play =>
        let r := r.recordPlay p play
        match r.bombMultiple conf p play with
        | .error _ => r
        | .ok r => r.sleep (.playCardEffect p .playCard)

def coreResume (r : Room) (rest : Holding) (d : Draws) : Room :=
  let r := { r with holding := none }
  match rest with
  | .landlordDelay p => r.landlordSet conf p
  | .landlordWaite p => r.coreAction conf .doubleing (some p) d
  | .playCardEffect p type => r.coreActionEnd conf p type d
  | .nextTurn =>
      let nextPlayer := r.getActionPlayerNext
      match r.lastPlayCardObj with
      | none => r
      | some last => (r.setPlayCardState nextPlayer (playCardStateAfter last nextPlayer)).coreAction
          conf .playing (some nextPlayer) d

def coreFire (r : Room) (w : Wait) (d : Draws) : Room :=
  let r := { r with waits := r.waits.erase w }
  match w with
  | .dealCard => r.allWaiting.coreAction conf .callLandlord (some d.first) d
  | .doubleing => r.coreAction conf .doubleMax none d
  | .doubleMax => r.coreAction conf .playing r.landlordPlayer d
  | .ended p => r.coreAction conf .ended (some p) d

end Room

/-- A bid in the calling round (`rob = false`) or the robbing round. -/
def bidState (rob : Bool) : PlayerState := if rob then .robLandlord else .callLandlord

def bidAction (rob yes : Bool) : PlayerAction :=
  match rob, yes with
  | false, true => .callLandlord
  | false, false => .notCall
  | true, true => .robLandlord
  | true, false => .notRob

def bidKey (rob yes : Bool) : Option MultipleKey :=
  match rob, yes with
  | false, true => some .callLandlord
  | true, true => some .robLandlord
  | _, false => none

def bidVal (conf : Conf) (rob : Bool) : Nat :=
  if rob then conf.multipleInfo .robLandlord else conf.multipleInfo .callLandlord

inductive Act (conf : Conf) (e : Event) (d : Draws) (c : Room) : Room → Prop
  | gold (p : Seat) (num : Int) : Act conf e d c (c.modify p fun pl => { pl with gold := num })
  | showCard (p : Seat) :
      c.state.code < RoomState.doubleing.code →
      Act conf e d c (c.addMultiple .showCard (conf.multipleInfo .showCard) p)
  | bid (rob yes : Bool) (p : Seat) :
      (c.players p).state = bidState rob →
      Act conf e d c (c.coreBid conf p (bidAction rob yes) (bidKey rob yes) (bidVal conf rob) d)
  | force (p : Seat) (buff : SkillBuff) :
      c.landlordPlayer = none → c.state = .callLandlord ∨ c.state = .robLandlord →
      conf.skillBuffCfg p = some buff → buff.skill_id = 1040101 → c.holding = none →
      Act conf e d c (c.coreForce conf p buff)
  | double (p : Seat) (t : Option PlayerAction) (type : PlayerAction) (multiple : Nat)
      (key : Option MultipleKey) :
      (c.players p).state = .doubleing → Room.doubleInfo conf t = some (type, multiple, key) →
      Act conf e d c (c.coreDouble conf p type multiple key d)
  | doubleMax (p : Seat) (t : Option PlayerAction) (type : PlayerAction) (multiple : Nat)
      (key : Option MultipleKey) :
      (c.players p).state = .doubleMax → Room.doubleMaxInfo conf t = some (type, multiple, key) →
      Act conf e d c (c.coreDoubleMax conf p type multiple key d)
  | play (p : Seat) (params : PlayParams) (play : Option PlayCardObj) :
      e = .request p (.playCard params) → c.playCardCheck p params = .ok play →
      Act conf e d c (c.corePlay conf p play d)
  | auto (p : Seat) (decision : Option Move) (play : Option PlayCardObj) :
      c.autoDecision p d = .ok decision →
      c.playCardCheck p (Room.autoParams decision) = .ok play →
      Act conf e d c (c.corePlay conf p play d)
  | resume (rest : Holding) : c.holding = some rest → Act conf e d c (c.coreResume conf rest d)
  | fire (w : Wait) : w ∈ c.waits → Act conf e d c (c.coreFire conf w d)

/-- The core stays or makes one act. -/
def Moves (conf : Conf) (e : Event) (d : Draws) (r r' : Room) : Prop :=
  r'.core = r.core ∨ Act conf e d r.core r'.core

namespace Room
variable (conf : Conf) (e : Event) (d : Draws)

theorem core_announce (r : Room) (key : Option MultipleKey) (val : Nat) (p : Seat) :
    (r.announce key val p).core = r.core.announce key val p := by
  cases key with
  | none => rfl
  | some key => exact core_addMultiple r key val p

theorem core_answer_end (r c : Room) (p : Seat) (type : PlayerAction) (key : Option MultipleKey)
    (val : Nat) (same : r.core = c) :
    (((r.send (.roomSyncPlayerAction p type none)).announce key val p).actionEnd conf p type d).core
      = c.coreAnswer conf p type key val d := by
  rw [core_actionEnd, core_announce, core_send _ _ rfl, same]
  rfl

theorem CallLandlord_core (r : Room) (p : Seat) (yes : Bool)
    (asked : (r.players p).state = .callLandlord) :
    (r.CallLandlord conf p (some (bidAction false yes)) d).1.core =
      r.core.coreBid conf p (bidAction false yes) (bidKey false yes) (bidVal conf false) d := by
  simp only [CallLandlord, asked, ne_eq, not_true_eq_false, if_false]
  cases yes with
  | true =>
      exact core_answer_end conf d (r.answer p .callLandlord) _ p .callLandlord
        (some .callLandlord) (conf.multipleInfo .callLandlord) (core_answer r p .callLandlord)
  | false =>
      exact core_answer_end conf d (r.answer p .notCall) _ p .notCall none
        (bidVal conf false) (core_answer r p .notCall)

theorem RobLandlord_core (r : Room) (p : Seat) (yes : Bool)
    (asked : (r.players p).state = .robLandlord) :
    (r.RobLandlord conf p (some (bidAction true yes)) d).1.core =
      r.core.coreBid conf p (bidAction true yes) (bidKey true yes) (bidVal conf true) d := by
  simp only [RobLandlord, asked, ne_eq, not_true_eq_false, if_false]
  cases yes with
  | true =>
      exact core_answer_end conf d (r.answer p .robLandlord) _ p .robLandlord
        (some .robLandlord) (conf.multipleInfo .robLandlord) (core_answer r p .robLandlord)
  | false =>
      exact core_answer_end conf d (r.answer p .notRob) _ p .notRob none
        (bidVal conf true) (core_answer r p .notRob)

theorem CallLandlord_moves (r : Room) (p : Seat) (type : Option PlayerAction) :
    Moves conf e d r (r.CallLandlord conf p type d).1 := by
  by_cases asked : (r.players p).state = .callLandlord
  · have bid : ∀ yes, Moves conf e d r (r.CallLandlord conf p (some (bidAction false yes)) d).1 :=
      fun yes => .inr (CallLandlord_core conf d r p yes asked ▸ Act.bid false yes p asked)
    simp only [CallLandlord, asked, ne_eq, not_true_eq_false, if_false] at bid ⊢
    split
    · exact bid true
    · exact bid false
    · exact .inl rfl
  · simp only [CallLandlord, asked, ne_eq, not_false_eq_true, if_true]
    exact .inl rfl

theorem RobLandlord_moves (r : Room) (p : Seat) (type : Option PlayerAction) :
    Moves conf e d r (r.RobLandlord conf p type d).1 := by
  by_cases asked : (r.players p).state = .robLandlord
  · have bid : ∀ yes, Moves conf e d r (r.RobLandlord conf p (some (bidAction true yes)) d).1 :=
      fun yes => .inr (RobLandlord_core conf d r p yes asked ▸ Act.bid true yes p asked)
    simp only [RobLandlord, asked, ne_eq, not_true_eq_false, if_false] at bid ⊢
    split
    · exact bid true
    · exact bid false
    · exact .inl rfl
  · simp only [RobLandlord, asked, ne_eq, not_false_eq_true, if_true]
    exact .inl rfl

theorem bidding_state (state : RoomState)
    (between : RoomState.callLandlord.code ≤ state.code ∧
      state.code ≤ RoomState.robLandlord.code) :
    state = .callLandlord ∨ state = .robLandlord := by
  cases state with
  | callLandlord => exact .inl rfl
  | robLandlord => exact .inr rfl
  | _ => exact absurd between (by decide)

theorem ForceRobLandlord_moves (r : Room) (p : Seat) (free : r.holding = none) :
    Moves conf e d r (r.ForceRobLandlord conf p d).1 := by
  simp only [ForceRobLandlord]
  split
  · exact .inl rfl
  split
  · exact .inl rfl
  split
  · exact .inl rfl
  rename_i unset between _
  rw [not_not] at unset between
  cases cfg : conf.skillBuffCfg p with
  | none => exact .inl rfl
  | some buff =>
      by_cases skill : buff.skill_id = 1040101
      · right
        simp only [skill, ne_eq, not_true_eq_false, if_false, finish]
        rw [core_setLandlord, core_addMultiple, core_actionStopAll, core_send _ _ rfl]
        have act : Act conf e d r.core (r.core.coreForce conf p buff) :=
          .force p buff unset (bidding_state r.state between) cfg skill free
        simpa only [coreForce, skill] using act
      · simp only [skill, ne_eq, not_false_eq_true, if_true]
        exact .inl rfl

theorem stockUp_core (r : Room) (p : Seat) (itemId : ItemID) (shopId : Nat)
    (phase : PlayerState) : (r.stockUp p itemId shopId phase).1.core = r.core := by
  simp only [stockUp]
  split
  · rfl
  · split <;> rfl

theorem charge_core (r : Room) (p : Seat) (itemId : ItemID) :
    (r.charge p itemId).1.core = r.core := by
  simp only [charge]
  split <;> rfl

theorem heroSkill_core (r : Room) (p : Seat) : (r.heroSkill conf p).1.core = r.core := by
  simp only [heroSkill]
  split <;> rfl

theorem state_of_core {r m : Room} (same : m.core = r.core) (p : Seat) :
    (m.players p).state = (r.players p).state := by
  have inCore : (m.core.players p).state = (r.core.players p).state := by rw [same]
  exact inCore

theorem doubleCommit_core (r : Room) (p : Seat) (type : PlayerAction) (multiple : Nat)
    (key : Option MultipleKey) :
    (r.doubleCommit conf p type multiple key d).1.core =
      r.core.coreDouble conf p type multiple key d := by
  refine core_answer_end conf d _ _ p type key multiple ?_
  rw [core_modify _ p _ (fun pl => { pl with
    doubleAction := some type, doubleMultiple := some multiple }) fun _ => rfl, core_answer]
  simp only [modify, Function.update_self, Function.update_idem]

theorem doubleMaxCommit_core (r : Room) (p : Seat) (type : PlayerAction) (multiple : Nat)
    (key : Option MultipleKey) :
    (r.doubleMaxCommit conf p type multiple key d).1.core =
      r.core.coreDoubleMax conf p type multiple key d := by
  refine core_answer_end conf d _ _ p type key multiple ?_
  rw [core_modify _ p _ (fun pl => { pl with
    doubleMaxAction := some type, doubleMaxMultiple := some multiple }) fun _ => rfl, core_answer]
  simp only [modify, Function.update_self, Function.update_idem]

/-- Payments reach the agent only. -/
theorem payFor_core (r : Room) (p : Seat) (paying : Bool) (itemId : ItemID) (shopId : Nat)
    (phase : PlayerState) : (r.payFor p paying itemId shopId phase).1.core = r.core := by
  have first : (if paying then r.stockUp p itemId shopId phase else (r, none)).1.core = r.core := by
    split
    · exact stockUp_core r p itemId shopId phase
    · rfl
  simp only [payFor]
  generalize (if paying then r.stockUp p itemId shopId phase else (r, none)) = stocked at first ⊢
  obtain ⟨m, refused⟩ := stocked
  cases refused with
  | some retVal => exact first
  | none =>
      simp only
      split
      · exact first
      split
      · exact (charge_core m p itemId).trans first
      · exact first

/-- A payment that does not refuse the request has found the player in the phase. -/
theorem payFor_none (r : Room) (p : Seat) (paying : Bool) (itemId : ItemID) (shopId : Nat)
    (phase : PlayerState) (accepted : (r.payFor p paying itemId shopId phase).2 = none) :
    (r.players p).state = phase := by
  have first : (if paying then r.stockUp p itemId shopId phase else (r, none)).1.core = r.core := by
    split
    · exact stockUp_core r p itemId shopId phase
    · rfl
  simp only [payFor] at accepted
  generalize (if paying then r.stockUp p itemId shopId phase else (r, none)) = stocked
    at first accepted
  obtain ⟨m, refused⟩ := stocked
  cases refused with
  | some retVal => exact absurd accepted (by simp)
  | none =>
      rw [← state_of_core first p]
      by_contra out
      simp [out] at accepted

theorem Double_moves (r : Room) (p : Seat) (t : Option PlayerAction) :
    Moves conf e d r (r.Double conf p t d).1 := by
  simp only [Double]
  cases info : doubleInfo conf t with
  | none => exact .inl rfl
  | some found =>
      obtain ⟨type, multiple, key⟩ := found
      simp only
      have same := payFor_core r p (type = .double_4 ∧ conf.isUser p) .gameDoubleSuper 500006
        .doubleing
      have asked := payFor_none r p (type = .double_4 ∧ conf.isUser p) .gameDoubleSuper 500006
        .doubleing
      generalize r.payFor p (type = .double_4 ∧ conf.isUser p) .gameDoubleSuper 500006
        .doubleing = paid at same asked ⊢
      obtain ⟨m, refused⟩ := paid
      cases refused with
      | some retVal => exact .inl same
      | none =>
          right
          rw [doubleCommit_core, same]
          exact .double p t type multiple key (asked rfl) info

theorem DoubleMax_moves (r : Room) (p : Seat) (t : Option PlayerAction) :
    Moves conf e d r (r.DoubleMax conf p t d).1 := by
  simp only [DoubleMax]
  cases info : doubleMaxInfo conf t with
  | none => exact .inl rfl
  | some found =>
      obtain ⟨type, multiple, key⟩ := found
      simp only
      have skilled : (if decide (type = .doubleMax ∧ conf.isUser p) then r.heroSkill conf p
          else (r, true)).1.core = r.core := by
        split
        · exact heroSkill_core conf r p
        · rfl
      generalize (if decide (type = .doubleMax ∧ conf.isUser p) then r.heroSkill conf p
        else (r, true)) = skill at skilled ⊢
      obtain ⟨n, isCost⟩ := skill
      have same := payFor_core n p (isCost ∧ decide (type = .doubleMax ∧ conf.isUser p))
        .gameDoubleMax 500007 .doubleMax
      have asked := payFor_none n p (isCost ∧ decide (type = .doubleMax ∧ conf.isUser p))
        .gameDoubleMax 500007 .doubleMax
      simp only
      generalize n.payFor p (isCost ∧ decide (type = .doubleMax ∧ conf.isUser p)) .gameDoubleMax
        500007 .doubleMax = paid at same asked ⊢
      obtain ⟨m, refused⟩ := paid
      cases refused with
      | some retVal => exact .inl (same.trans skilled)
      | none =>
          right
          rw [doubleMaxCommit_core, same, skilled]
          exact .doubleMax p t type multiple key
            ((state_of_core skilled p).symm.trans (asked rfl)) info

theorem BottomCardInfo_core (r : Room) (p : Seat) : (r.BottomCardInfo conf p).1.core = r.core := by
  have taken : ∀ m : Room, (m.modify p fun pl => { pl with bottomCards := m.bottomCards }).core =
      m.core := fun m => core_modify_hidden m p _ fun _ => rfl
  simp only [BottomCardInfo]
  split
  · rfl
  split
  · have first := stockUp_core r p .gameBottomCardCheck 500005 (r.players p).state
    cases shop : r.stockUp p .gameBottomCardCheck 500005 (r.players p).state with
    | mk r₁ refused =>
        rw [shop] at first
        cases refused with
        | some retVal => exact first
        | none =>
            have second := charge_core r₁ p .gameBottomCardCheck
            simp only
            cases paid : r₁.charge p .gameBottomCardCheck with
            | mk r₂ lacking =>
                rw [paid] at second
                cases lacking with
                | some retVal => exact second.trans first
                | none => exact (taken r₂).trans (second.trans first)
  · exact taken r

theorem ShowCard_moves (r : Room) (p : Seat) : Moves conf e d r (r.ShowCard conf p).1 := by
  simp only [ShowCard]
  split
  · exact .inl rfl
  · rw [Moves, core_send_hidden _ _ rfl,
      core_modify_hidden _ _ (fun pl => { pl with isShowcard := true }) fun _ => rfl]
    split
    · rename_i early
      right
      rw [core_addMultiple]
      exact .showCard p early
    · exact .inl rfl

theorem recordPlay_core (r : Room) (p : Seat) (play : PlayCardObj) :
    (r.recordPlay p play).core = r.core.recordPlay p play := by
  let record (pl : Player) : Player := { pl with
    playedCards := pl.playedCards ++ [play]
    playCount := pl.playCount + 1
    playCardCount := pl.playCardCount + 1
    cards := removePlayed pl.cards play.cards }
  have edited : (r.modify p record).core = r.core.modify p record :=
    core_modify r p record record fun _ => rfl
  have last : ∀ m : Room, { m with
      lastPlayCardObj := some ⟨p, play, (m.players p).isLandlord⟩ }.core = { m.core with
      lastPlayCardObj := some ⟨p, play, (m.core.players p).isLandlord⟩ } := fun _ => rfl
  rw [recordPlay, last, edited]
  rfl

theorem bombMultiple_core (r : Room) (p : Seat) (play : PlayCardObj) :
    r.core.bombMultiple conf p play = (r.bombMultiple conf p play).map core := by
  simp only [bombMultiple]
  split
  · cases (getBombType play.weight).bind conf.bombInfo with
    | none => rfl
    | some val => exact congrArg Except.ok (core_addMultiple r .bomb val p).symm
  · rfl

theorem played_core (r : Room) (p : Seat) (play : Option PlayCardObj) :
    ((r.answer p (playType play)).modify p fun pl => { pl with
      robotAgent := (((r.answer p (playType play)).players p).robotAgent.playCard play).1 }).core =
      r.core.played p play := by
  have agent : ((r.answer p (playType play)).players p).robotAgent = (r.players p).robotAgent := by
    simp only [answer, addAction, clearClock, modify, Function.update_self]
  rw [agent, core_modify _ p _ (fun pl => { pl with
    robotAgent := ((r.players p).robotAgent.playCard play).1 }) fun _ => rfl, core_answer]
  simp only [modify, Function.update_self, Function.update_idem, played]
  rfl

theorem playCardCommit_core (r : Room) (p : Seat) (play : Option PlayCardObj) :
    (r.playCardCommit conf p play d).1.core = r.core.corePlay conf p play d := by
  have agent : ((r.answer p (playType play)).players p).robotAgent = (r.players p).robotAgent := by
    simp only [answer, addAction, clearClock, modify, Function.update_self]
  have same := played_core r p play
  have mirror : (r.core.players p).robotAgent = (r.players p).robotAgent := rfl
  simp only [playCardCommit, corePlay, mirror]
  rw [agent] at same ⊢
  split
  · exact same
  · cases play with
    | none =>
        simp only [finish]
        rw [core_actionEnd, core_send _ _ rfl, same]
    | some play =>
        simp only
        generalize ((r.answer p (playType (some play))).modify p fun pl => { pl with
          robotAgent := ((r.players p).robotAgent.playCard (some play)).1 }) = m at same ⊢
        have recorded : ((m.send (.roomSyncPlayerAction p (playType (some play))
            (some play))).recordPlay p play).core = ((r.core.played p (some play)).send
            (.roomSyncPlayerAction p (playType (some play)) (some play))).recordPlay p play := by
          rw [recordPlay_core, core_send _ _ rfl, same]
        rw [← recorded, bombMultiple_core]
        cases ((m.send (.roomSyncPlayerAction p (playType (some play))
            (some play))).recordPlay p play).bombMultiple conf p play with
        | error message => rfl
        | ok n => rfl

theorem PlayCard_moves (r : Room) (p : Seat) (params : PlayParams)
    (source : ∀ play, r.core.playCardCheck p params = .ok play →
      Act conf e d r.core (r.core.corePlay conf p play d)) :
    Moves conf e d r (r.PlayCard conf p params d).1 := by
  simp only [PlayCard]
  cases checked : r.playCardCheck p params with
  | error outcome => exact .inl rfl
  | ok play =>
      right
      simp only
      rw [playCardCommit_core]
      exact source play checked

theorem autoPlay_moves (r : Room) (p : Seat) : Moves conf e d r (r.autoPlay conf p d).1 := by
  have decided : r.core.autoDecision p d = r.autoDecision p d := rfl
  simp only [autoPlay]
  cases auto : r.autoDecision p d with
  | error message => exact .inl rfl
  | ok decision =>
      exact PlayCard_moves conf e d r p (autoParams decision) fun play checked =>
        .auto p decision play (decided.trans auto) checked

theorem trusteeshipAction_moves (r : Room) (p : Seat) (state : PlayerState) :
    Moves conf e d r (r.trusteeshipAction conf p state d).1 := by
  cases state with
  | callLandlord => exact CallLandlord_moves conf e d r p _
  | robLandlord => exact RobLandlord_moves conf e d r p _
  | doubleing => exact Double_moves conf e d r p _
  | doubleMax => exact DoubleMax_moves conf e d r p _
  | playing => exact autoPlay_moves conf e d r p
  | _ => exact .inl rfl

/-- Moves from a room with the same core. -/
theorem moves_of_core {r m r' : Room} (same : m.core = r.core) (moves : Moves conf e d m r') :
    Moves conf e d r r' := by
  rw [Moves, same] at moves
  exact moves

theorem SetTrusteeship_moves (r : Room) (p : Seat) (isTrusteeship : Bool) :
    Moves conf e d r (r.SetTrusteeship conf p isTrusteeship d).1 := by
  have hidden : ((r.modify p fun pl => { pl with isTrusteeship := isTrusteeship }).send
      (.roomSetTrusteeship p isTrusteeship)).core = r.core := by
    rw [core_send_hidden _ _ rfl]
    exact core_modify_hidden r p _ fun _ => rfl
  simp only [SetTrusteeship]
  split
  · exact .inl rfl
  split
  · exact moves_of_core conf e d hidden (trusteeshipAction_moves conf e d _ p _)
  · exact .inl hidden

theorem playerRequest_moves (r : Room) (p : Seat) (request : Request) (free : r.holding = none) :
    Moves conf (.request p request) d r (r.playerRequest conf p request d).1 := by
  cases request with
  | showCard => exact ShowCard_moves conf _ d r p
  | setTrusteeship isTrusteeship => exact SetTrusteeship_moves conf _ d r p isTrusteeship
  | callLandlord type => exact CallLandlord_moves conf _ d r p type
  | robLandlord type => exact RobLandlord_moves conf _ d r p type
  | forceRobLandlord => exact ForceRobLandlord_moves conf _ d r p free
  | double type => exact Double_moves conf _ d r p type
  | doubleMax type => exact DoubleMax_moves conf _ d r p type
  | playCard params =>
      exact PlayCard_moves conf _ d r p params fun play checked => .play p params play rfl checked
  | bottomCardInfo => exact .inl (BottomCardInfo_core conf r p)
  | syncGold num =>
      right
      show Act conf _ d r.core ((r.modify p fun pl => { pl with gold := num }).send
        (.roomSyncGold p num)).core
      rw [core_send_hidden _ _ rfl,
        core_modify r p _ (fun pl => { pl with gold := num }) fun _ => rfl]
      exact .gold p num

theorem timerFunc_moves (r : Room) (id : Nat) (t : Timer) :
    Moves conf e d r (r.timerFunc conf id t d).1 := by
  simp only [timerFunc]
  split
  · split
    · exact moves_of_core conf e d (core_setTimer r id _) (trusteeshipAction_moves conf e d _ _ _)
    · exact .inl (core_setTimer r id _)
  · exact .inl (core_modify_hidden r _ (fun pl => { pl with clock := pl.clock - 1 }) fun _ => rfl)

theorem timerEnd_moves (r : Room) (t : Timer) : Moves conf e d r (r.timerEnd conf t d).1 := by
  simp only [timerEnd]
  split
  · left
    exact core_modify_hidden { r with timers := _ } t.owner
      (fun pl => { pl with cancel_timer := some r.timers.length }) fun _ => rfl
  · split
    · exact trusteeshipAction_moves conf e d r _ _
    · exact SetTrusteeship_moves conf e d r _ true

theorem resume_core (r : Room) (rest : Holding) :
    (r.resume conf rest d).1.core = r.core.coreResume conf rest d := by
  cases rest with
  | landlordDelay p => exact core_landlordSet conf { r with holding := none } p
  | landlordWaite p => exact core_action conf { r with holding := none } _ _ d (by decide)
  | playCardEffect p type => exact core_actionEnd conf { r with holding := none } p type d
  | nextTurn =>
      simp only [resume, coreResume]
      have last : r.core.lastPlayCardObj = r.lastPlayCardObj := rfl
      rw [last]
      cases r.lastPlayCardObj with
      | none => rfl
      | some last =>
          simp only [finish]
          rw [core_action conf _ _ _ d (by decide), core_setPlayCardState]
          rfl

theorem fire_core (r : Room) (w : Wait) :
    (r.fire conf w d).core = r.core.coreFire conf w d := by
  cases w with
  | dealCard =>
      simp only [fire, coreFire]
      rw [core_action conf _ _ _ d (by decide), core_setActionStateAll_waiting]
      rfl
  | doubleing => exact core_action conf { r with waits := _ } _ _ d (by decide)
  | doubleMax => exact core_action conf { r with waits := _ } _ _ d (by decide)
  | ended p => exact core_action conf { r with waits := _ } _ _ d (by decide)

/-- Every event is an act or leaves the core alone. -/
theorem step_moves (r r' : Room) (moved : r.step conf (e, d) = some r') :
    Moves conf e d r r' := by
  simp only [step, Option.map_eq_some_iff] at moved
  obtain ⟨⟨m, outcome⟩, done, rfl⟩ := moved
  cases e with
  | request p request =>
      simp only [exec, Option.ite_none_right_eq_some, Option.some.injEq] at done
      rw [← congrArg Prod.fst done.2]
      exact playerRequest_moves conf d r p request done.1
  | tick id =>
      simp only [exec, Option.ite_none_right_eq_some, Option.map_eq_some_iff] at done
      obtain ⟨_, t, _, done⟩ := done
      rw [← congrArg Prod.fst done]
      exact timerFunc_moves conf _ d r id t
  | onEnd id =>
      simp only [exec, Option.ite_none_right_eq_some, Option.map_eq_some_iff] at done
      obtain ⟨_, t, _, done⟩ := done
      rw [← congrArg Prod.fst done]
      exact timerEnd_moves conf _ d r t
  | resume =>
      simp only [exec, Option.map_eq_some_iff] at done
      obtain ⟨rest, held, done⟩ := done
      right
      rw [← congrArg Prod.fst done, resume_core]
      exact .resume rest held
  | wait w =>
      simp only [exec, Option.ite_none_right_eq_some, Option.some.injEq] at done
      right
      rw [← congrArg Prod.fst done.2, fire_core]
      exact .fire w done.1
  | agent p agent =>
      simp only [exec, Option.some.injEq] at done
      rw [← congrArg Prod.fst done]
      exact .inl rfl

end Room

end HuluLandlord.Ddz
