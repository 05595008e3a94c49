import HuluLandlord.Ddz.Phase
import HuluLandlord.Table

/-!
What an event does to the clocks of a room: its timers, the timer each player's
`cancel_timer` stops, and whether he is being prompted. An answer clears the clocks of
the players it answers for and then prompts others; in a room that is in a phase
nobody is prompted who still is.
-/
namespace HuluLandlord.Ddz

structure Clocks where
  timers : List Timer
  cancel_timer : Seat → Option Nat
  pstate : Seat → PlayerState

def Room.clocks (r : Room) : Clocks :=
  ⟨r.timers, fun p => (r.players p).cancel_timer, fun p => (r.players p).state⟩

/-- The timer of a new prompt. -/
def Timer.start (p : Seat) (state : PlayerState) (trusteeshipTime : Int) (id : Nat) : Timer where
  owner := p
  state := state
  stage := .check trusteeshipTime
  prompt := id
  iteration := 10 * trusteeshipCheckTime
  canceled := false
  armed := true

namespace Clocks

/-- The clock of a player who waits from now on. -/
def clear (c : Clocks) (p : Seat) : Clocks :=
  ⟨Room.cancelTimer c.timers (c.cancel_timer p), c.cancel_timer,
    Function.update c.pstate p .waiting⟩

def enter (c : Clocks) (p : Seat) (state : PlayerState) : Clocks :=
  ⟨c.timers, c.cancel_timer, Function.update c.pstate p state⟩

def ask (c : Clocks) (p : Seat) (state : PlayerState) (trusteeshipTime : Int) : Clocks :=
  ⟨c.timers ++ [.start p state trusteeshipTime c.timers.length],
    Function.update c.cancel_timer p (some c.timers.length),
    Function.update c.pstate p state⟩

/-- Prompts to players who have none. -/
inductive Prompts (c : Clocks) : Clocks → Prop
  | refl : Prompts c c
  | enter {m : Clocks} (p : Seat) (state : PlayerState) :
      Prompts c m → TIME (m.pstate p) = none → TIME state = none → Prompts c (m.enter p state)
  | ask {m : Clocks} (p : Seat) (state : PlayerState) (trusteeshipTime : Int) :
      Prompts c m → TIME (m.pstate p) = none → TIME state ≠ none →
      Prompts c (m.ask p state trusteeshipTime)

/-- The clocks of some players are cleared, then others are prompted. -/
def Answers (c c' : Clocks) : Prop := ∃ ps : List Seat, Prompts (ps.foldl clear c) c'

theorem Prompts.answers {c c' : Clocks} (prompts : Prompts c c') : Answers c c' := ⟨[], prompts⟩

theorem Answers.refl (c : Clocks) : Answers c c := Prompts.refl.answers

theorem Prompts.trans {c m c' : Clocks} (front : Prompts c m) (back : Prompts m c') :
    Prompts c c' := by
  induction back with
  | refl => exact front
  | enter p state _ idle untimed ih => exact .enter p state ih idle untimed
  | ask p state n _ idle timed ih => exact .ask p state n ih idle timed

/-- Every player enters a state without a clock. -/
theorem enterAll {c : Clocks} {state : PlayerState} (idle : ∀ q, TIME (c.pstate q) = none)
    (untimed : TIME state = none) (ps : List Seat) :
    Prompts c (ps.foldl (fun c p => c.enter p state) c) ∧
      ∀ q, TIME ((ps.foldl (fun c p => c.enter p state) c).pstate q) = none := by
  induction ps generalizing c with
  | nil => exact ⟨.refl, idle⟩
  | cons p ps ih =>
      have next : ∀ q, TIME ((c.enter p state).pstate q) = none := by
        intro q
        show TIME (Function.update c.pstate p state q) = none
        rw [Function.update_apply]
        split
        · exact untimed
        · exact idle q
      exact ⟨.trans (.enter p state .refl (idle p) untimed) (ih next).1, (ih next).2⟩

/-- Different players are asked one after the other. -/
theorem askAll {c : Clocks} {state : PlayerState} (timed : TIME state ≠ none)
    (trusteeshipTime : Seat → Int) (ps : List Seat) (nodup : ps.Nodup)
    (idle : ∀ q ∈ ps, TIME (c.pstate q) = none) :
    Prompts c (ps.foldl (fun c p => c.ask p state (trusteeshipTime p)) c) := by
  induction ps generalizing c with
  | nil => exact .refl
  | cons p ps ih =>
      obtain ⟨fresh, nodup⟩ := List.nodup_cons.mp nodup
      refine .trans (.ask p state _ .refl (idle p List.mem_cons_self) timed) (ih nodup ?_)
      intro q mem
      have other : q ≠ p := fun same => fresh (same ▸ mem)
      show TIME (Function.update c.pstate p state q) = none
      rw [Function.update_of_ne other]
      exact idle q (List.mem_cons_of_mem p mem)

end Clocks

namespace Room
variable {r : Room} {p q : Seat} {d : Draws}

theorem clocks_modify (f : Player → Player)
    (same : (f (r.players p)).cancel_timer = (r.players p).cancel_timer) :
    (r.modify p f).clocks = r.clocks.enter p (f (r.players p)).state := by
  simp only [clocks, modify, Clocks.enter, Clocks.mk.injEq, true_and]
  constructor
  · funext q
    by_cases here : q = p
    · simp [here, same]
    · simp [here]
  · funext q
    by_cases here : q = p
    · simp [here]
    · simp [here]

/-- A modification that no clock sees. -/
theorem clocks_modify_hidden (f : Player → Player)
    (same : (f (r.players p)).cancel_timer = (r.players p).cancel_timer)
    (state : (f (r.players p)).state = (r.players p).state) :
    (r.modify p f).clocks = r.clocks := by
  rw [clocks_modify f same, state]
  simp only [clocks, Clocks.enter, Clocks.mk.injEq, true_and]
  exact Function.update_eq_self p _

theorem clocks_clearClock : (r.clearClock p).clocks =
    ⟨cancelTimer r.timers (r.players p).cancel_timer, r.clocks.cancel_timer, r.clocks.pstate⟩ := by
  rw [clearClock, clocks_modify_hidden (fun pl => { pl with clock := 0 }) rfl rfl]
  rfl

theorem clocks_answer (type : PlayerAction) : (r.answer p type).clocks = r.clocks.clear p := by
  simp only [answer, addAction]
  rw [clocks_modify_hidden (fun pl => { pl with
    lastAction := some type, actionQueue := pl.actionQueue ++ [type] }) rfl rfl, clocks_clearClock]
  have waits := clocks_modify (r := r) (p := p) (fun pl => { pl with state := .waiting }) rfl
  have cancel : ((r.modify p fun pl => { pl with state := .waiting }).players p).cancel_timer =
      (r.players p).cancel_timer := by
    simp [modify]
  rw [cancel, waits]
  rfl

theorem clocks_setActionState_timed (state : PlayerState) (timed : TIME state ≠ none) :
    (r.setActionState p state d).clocks =
      r.clocks.ask p state (12 + (d.trusteeshipTime p).val) := by
  obtain ⟨time, timed⟩ := Option.ne_none_iff_exists'.mp timed
  simp only [setActionState, timed, clocks, modify, send, Clocks.ask, Clocks.mk.injEq]
  refine ⟨rfl, ?_, ?_⟩
  · funext q
    by_cases here : q = p
    · simp [here]
    · simp [here]
  · funext q
    by_cases here : q = p
    · simp [here]
    · simp [here]

theorem clocks_setActionState_untimed (state : PlayerState) (untimed : TIME state = none) :
    (r.setActionState p state d).clocks = r.clocks.enter p state := by
  simp only [setActionState, untimed]
  split
  · exact clocks_modify (r := r.send _) _ rfl
  · exact clocks_modify _ rfl

theorem clocks_setActionStateAll_timed (state : PlayerState) (timed : TIME state ≠ none)
    (idle : ∀ q, TIME (r.players q).state = none) :
    r.clocks.Prompts (r.setActionStateAll state d).clocks := by
  have all : ∀ (ps : List Seat) (r : Room),
      (ps.foldl (fun r p => r.setActionState p state d) r).clocks =
        ps.foldl (fun c p => c.ask p state (12 + (d.trusteeshipTime p).val)) r.clocks := by
    intro ps
    induction ps with
    | nil => exact fun _ => rfl
    | cons p ps ih =>
        intro r
        rw [List.foldl_cons, List.foldl_cons, ih, clocks_setActionState_timed state timed]
  rw [setActionStateAll, all]
  exact Clocks.askAll timed _ _ (List.nodup_finRange 3) fun q _ => idle q

theorem clocks_setActionStateAll_untimed (state : PlayerState) (untimed : TIME state = none) :
    (r.setActionStateAll state d).clocks =
      (List.finRange 3).foldl (fun c p => c.enter p state) r.clocks := by
  have all : ∀ (ps : List Seat) (r : Room),
      (ps.foldl (fun r p => r.setActionState p state d) r).clocks =
        ps.foldl (fun c p => c.enter p state) r.clocks := by
    intro ps
    induction ps with
    | nil => exact fun _ => rfl
    | cons p ps ih =>
        intro r
        rw [List.foldl_cons, List.foldl_cons, ih, clocks_setActionState_untimed state untimed]
  exact all _ r

theorem clocks_actionStopAll : (r.actionStopAll d).clocks =
    (List.finRange 3).foldl Clocks.clear r.clocks := by
  have one : ∀ (p : Seat) (r : Room),
      ((r.clearClock p).setActionState p .waiting d).clocks = r.clocks.clear p := by
    intro p r
    rw [clocks_setActionState_untimed .waiting rfl, clocks_clearClock]
    rfl
  have all : ∀ (ps : List Seat) (r : Room),
      (ps.foldl (fun r p => (r.clearClock p).setActionState p .waiting d) r).clocks =
        ps.foldl Clocks.clear r.clocks := by
    intro ps
    induction ps with
    | nil => exact fun _ => rfl
    | cons p ps ih =>
        intro r
        rw [List.foldl_cons, List.foldl_cons, ih, one]
  exact all _ r

theorem clocks_announce (key : Option MultipleKey) (val : Nat) :
    (r.announce key val p).clocks = r.clocks := by
  cases key with
  | none => rfl
  | some key => rfl

theorem clocks_setPlayCardState (state : PlayCardState) :
    (r.setPlayCardState p state).clocks = r.clocks :=
  clocks_modify_hidden _ rfl rfl

variable (conf : Conf)

theorem clocks_dealTo : (r.dealTo conf p d).clocks = r.clocks.enter p .dealCard := by
  have dealt := clocks_setActionState_untimed (r := r) (p := p) (d := d) .dealCard rfl
  simp only [dealTo]
  split
  · refine Eq.trans ?_ dealt
    exact clocks_modify_hidden (r := r.setActionState p .dealCard d)
      (fun pl => { pl with skillState := true }) rfl rfl
  · exact dealt

theorem clocks_setLandlord (delayed : Bool) :
    (r.setLandlord conf p delayed).clocks = r.clocks := by
  have made : ({ r with landlordPlayer := some p }.modify p fun pl => { pl with
      isLandlord := true
      cards := sortCards (pl.cards ++ r.bottomCards)
      robotAgent := pl.robotAgent.setLandlord r.bottomCards }).clocks = r.clocks :=
    clocks_modify_hidden (r := { r with landlordPlayer := some p }) _ rfl rfl
  cases delayed with
  | true => exact made
  | false => exact made

theorem clocks_actionEnded : (r.actionEnded conf p).clocks = r.clocks := by
  simp only [actionEnded]
  split
  · split
    · rfl
    · rfl
  split
  · rfl
  split
  · rfl
  · rfl

/-- An action begun while nobody is prompted. -/
theorem action_prompts (state : RoomState) (player : Option Seat)
    (idle : ∀ q, TIME (r.players q).state = none) :
    r.clocks.Prompts (r.action conf state player d).clocks := by
  cases state with
  | readyOk =>
      have entered := clocks_setActionStateAll_untimed (r := r.enter .readyOk player) (d := d)
        .readyOk rfl
      exact entered ▸ (Clocks.enterAll (c := r.clocks) idle rfl _).1
  | dealCard =>
      have all : ∀ (ps : List Seat) (r : Room),
          (ps.foldl (fun r p => r.dealTo conf p d) r).clocks =
            ps.foldl (fun c p => c.enter p .dealCard) r.clocks := by
        intro ps
        induction ps with
        | nil => exact fun _ => rfl
        | cons p ps ih =>
            intro r
            rw [List.foldl_cons, List.foldl_cons, ih, clocks_dealTo]
      have entered := all (List.finRange 3) ((r.enter .dealCard player).dealCard d)
      show r.clocks.Prompts ((List.finRange 3).foldl (fun r p => r.dealTo conf p d)
        ((r.enter .dealCard player).dealCard d)).clocks
      rw [entered]
      exact (Clocks.enterAll (c := r.clocks) idle rfl _).1
  | callLandlord =>
      have asked := clocks_setActionState_timed (r := r.enter .callLandlord player)
        (p := (r.enter .callLandlord player).actionIndex) (d := d) .callLandlord (by decide)
      exact asked ▸ .ask _ _ _ .refl (idle _) (by decide)
  | robLandlord =>
      have asked := clocks_setActionState_timed (r := r.enter .robLandlord player)
        (p := (r.enter .robLandlord player).actionIndex) (d := d) .robLandlord (by decide)
      exact asked ▸ .ask _ _ _ .refl (idle _) (by decide)
  | doubleing =>
      exact clocks_setActionStateAll_timed (r := r.enter .doubleing player) _ (by decide) idle
  | doubleMax =>
      exact clocks_setActionStateAll_timed (r := r.enter .doubleMax player) _ (by decide) idle
  | playing =>
      simp only [action]
      rw [clocks_setActionState_timed .playing (by decide), clocks_setPlayCardState]
      exact .ask (m := r.clocks) _ _ _ .refl (idle _) (by decide)
  | ended =>
      have ended := clocks_actionEnded (r := r.enter .ended player)
        (p := (r.enter .ended player).actionIndex) conf
      exact ended ▸ .refl

theorem afterBid_prompts (bid : Bid) (idle : ∀ q, TIME (r.players q).state = none) :
    r.clocks.Prompts (r.afterBid conf bid d).clocks := by
  cases bid with
  | call p => exact action_prompts conf _ _ idle
  | rob p => exact action_prompts conf _ _ idle
  | landlord p => exact clocks_setLandlord conf (r := r) (p := p) false ▸ .refl
  | redeal => exact action_prompts conf _ _ idle

/-- The room is in one of the bidding rounds. -/
def Bidding (r : Room) : Prop := r.state = .callLandlord ∨ r.state = .robLandlord

theorem actionEnd_prompts (type : PlayerAction)
    (idle : r.Bidding → ∀ q, TIME (r.players q).state = none) :
    r.clocks.Prompts (r.actionEnd conf p type d).clocks := by
  have same : ∀ (c : Prop) [Decidable c] (a b : Room), a.clocks = r.clocks →
      b.clocks = r.clocks → r.clocks.Prompts (if c then a else b).clocks := by
    intro c _ a b left right
    split
    · exact left ▸ .refl
    · exact right ▸ .refl
  simp only [actionEnd, setActionPlayerIndex]
  cases state : r.state with
  | callLandlord =>
      exact afterBid_prompts conf (r := { r with state := .callLandlord, actionIndex := p }) _
        (idle (.inl state))
  | robLandlord =>
      exact afterBid_prompts conf (r := { r with state := .robLandlord, actionIndex := _ }) _
        (idle (.inr state))
  | doubleing => exact same _ _ _ rfl rfl
  | doubleMax => exact same _ _ _ rfl rfl
  | playing => exact same _ _ _ rfl rfl
  | _ => exact .refl

/-- A room that is in one of the phases of the game. -/
def Phased (r : Room) : Prop := ∃ ph : Phase, r.control = ph.control

/-- In a bidding round only one player is prompted. -/
theorem Phased.alone (phased : r.Phased) (bidding : r.Bidding)
    (asked : TIME (r.players p).state ≠ none) (other : q ≠ p) :
    TIME (r.players q).state = none := by
  obtain ⟨ph, phase⟩ := phased
  have pstate : ∀ p, (r.players p).state = ph.control.pstate p :=
    fun p => congrFun (congrArg Control.pstate phase) p
  have state : r.state = ph.control.state := congrArg Control.state phase
  rw [pstate] at asked ⊢
  rw [Bidding, state] at bidding
  cases ph with
  | bidding rob l =>
      have here : p = l := by
        by_contra away
        exact asked (by simp [Phase.control, only, Function.update_of_ne away, TIME])
      subst here
      simp [Phase.control, only, Function.update_of_ne other, TIME]
  | landlordDelay rob l => exact rfl
  | landlordWaite rob l => exact rfl
  | _ => exact absurd bidding (by simp [Phase.control])

/-- Nobody is prompted while a section sleeps or a timeout is due. -/
theorem Phased.idle (phased : r.Phased) (busy : r.holding ≠ none ∨ r.waits ≠ []) (q : Seat) :
    TIME (r.players q).state = none := by
  obtain ⟨ph, phase⟩ := phased
  have holding : r.holding = ph.control.holding := congrArg Control.holding phase
  have waits : r.waits = ph.control.waits := congrArg Control.waits phase
  have pstate : (r.players q).state = ph.control.pstate q :=
    congrFun (congrArg Control.pstate phase) q
  rw [holding, waits] at busy
  rw [pstate]
  cases ph with
  | bidding rob p => exact absurd busy (by simp [Phase.control])
  | playing l p => exact absurd busy (by simp [Phase.control])
  | doubleing l answered =>
      have all : answered = always := by
        by_contra some'
        exact absurd busy (by simp [Phase.control, some'])
      rw [all]
      rfl
  | doubleMax l answered =>
      have all : answered = always := by
        by_contra some'
        exact absurd busy (by simp [Phase.control, some'])
      rw [all]
      rfl
  | _ => rfl

/-- An answer that has been recorded in `m`, and what follows from it. -/
theorem answered_end {m : Room} (phased : r.Phased) (asked : TIME (r.players p).state ≠ none)
    (type : PlayerAction) (answered : m.clocks = (r.answer p type).clocks)
    (state : m.state = r.state) : r.clocks.Answers (m.actionEnd conf p type d).clocks := by
  have cleared := answered.trans (clocks_answer type)
  refine ⟨[p], ?_⟩
  show (r.clocks.clear p).Prompts _
  rw [← cleared]
  apply actionEnd_prompts
  intro bidding q
  have pstate : (m.players q).state = Function.update r.clocks.pstate p .waiting q :=
    congrFun (congrArg Clocks.pstate cleared) q
  rw [pstate, Function.update_apply]
  split
  · rfl
  · rename_i other
    refine phased.alone ?_ asked other
    rwa [Bidding, state] at bidding

theorem CallLandlord_answers (phased : r.Phased) (type : Option PlayerAction) :
    r.clocks.Answers (r.CallLandlord conf p type d).1.clocks := by
  simp only [CallLandlord]
  split
  · exact .refl _
  · rename_i asked
    have timed : TIME (r.players p).state ≠ none := by
      rw [not_not.mp asked]
      decide
    split
    · exact answered_end conf phased timed
        (m := ((r.answer p .callLandlord).send _).addMultiple _ _ p) _ rfl rfl
    · exact answered_end conf phased timed (m := (r.answer p .notCall).send _) _ rfl rfl
    · exact .refl _

theorem RobLandlord_answers (phased : r.Phased) (type : Option PlayerAction) :
    r.clocks.Answers (r.RobLandlord conf p type d).1.clocks := by
  simp only [RobLandlord]
  split
  · exact .refl _
  · rename_i asked
    have timed : TIME (r.players p).state ≠ none := by
      rw [not_not.mp asked]
      decide
    split
    · exact answered_end conf phased timed
        (m := ((r.answer p .robLandlord).send _).addMultiple _ _ p) _ rfl rfl
    · exact answered_end conf phased timed (m := (r.answer p .notRob).send _) _ rfl rfl
    · exact .refl _

theorem ForceRobLandlord_answers : r.clocks.Answers (r.ForceRobLandlord conf p d).1.clocks := by
  simp only [ForceRobLandlord]
  split
  · exact .refl _
  split
  · exact .refl _
  split
  · exact .refl _
  split
  · exact .refl _
  split
  · exact .refl _
  · rename_i buff _ _
    refine ⟨List.finRange 3, ?_⟩
    have stopped := clocks_actionStopAll (r := r.send (.roomSyncPlayerSkill p buff.skill_id)) (d := d)
    have landlord := clocks_setLandlord conf (p := p)
      (r := ((r.send (.roomSyncPlayerSkill p buff.skill_id)).actionStopAll d).addMultiple .skill
        buff.magnification p) true
    exact (landlord.trans stopped) ▸ .refl

theorem clocks_stockUp (itemId : ItemID) (shopId : Nat) (phase : PlayerState) :
    (r.stockUp p itemId shopId phase).1.clocks = r.clocks ∧
      (r.stockUp p itemId shopId phase).1.control = r.control := by
  simp only [stockUp]
  split
  · exact ⟨rfl, rfl⟩
  · split
    · exact ⟨rfl, rfl⟩
    · exact ⟨rfl, rfl⟩

theorem clocks_charge (itemId : ItemID) : (r.charge p itemId).1.clocks = r.clocks ∧
    (r.charge p itemId).1.control = r.control := by
  simp only [charge]
  split
  · exact ⟨rfl, rfl⟩
  · exact ⟨rfl, rfl⟩

/-- A payment changes neither the clocks nor the phase. -/
theorem clocks_payFor (paying : Bool) (itemId : ItemID) (shopId : Nat) (phase : PlayerState) :
    (r.payFor p paying itemId shopId phase).1.clocks = r.clocks ∧
      (r.payFor p paying itemId shopId phase).1.control = r.control := by
  have first : (if paying then r.stockUp p itemId shopId phase else (r, none)).1.clocks = r.clocks ∧
      (if paying then r.stockUp p itemId shopId phase else (r, none)).1.control = r.control := by
    split
    · exact clocks_stockUp itemId shopId phase
    · exact ⟨rfl, rfl⟩
  simp only [payFor]
  generalize (if paying then r.stockUp p itemId shopId phase else (r, none)) = stocked at first ⊢
  obtain ⟨m, refused⟩ := stocked
  cases refused with
  | some retVal => exact first
  | none =>
      simp only
      split
      · exact first
      split
      · have charged := clocks_charge (r := m) (p := p) itemId
        exact ⟨charged.1.trans first.1, charged.2.trans first.2⟩
      · exact first

theorem Phased.of_control {m : Room} (phased : r.Phased) (same : m.control = r.control) :
    m.Phased := by
  obtain ⟨ph, phase⟩ := phased
  exact ⟨ph, same.trans phase⟩

theorem doubleCommit_answers (phased : r.Phased) (asked : (r.players p).state = .doubleing)
    (type : PlayerAction) (multiple : Nat) (key : Option MultipleKey) :
    r.clocks.Answers (r.doubleCommit conf p type multiple key d).1.clocks := by
  have timed : TIME (r.players p).state ≠ none := by
    rw [asked]
    decide
  have written : ((r.answer p type).modify p fun pl => { pl with
      doubleAction := some type, doubleMultiple := some multiple }).clocks =
      (r.answer p type).clocks :=
    clocks_modify_hidden _ rfl rfl
  refine answered_end conf phased timed _ ((clocks_announce key multiple).trans written) ?_
  cases key with
  | none => exact rfl
  | some key => exact rfl

theorem doubleMaxCommit_answers (phased : r.Phased) (asked : (r.players p).state = .doubleMax)
    (type : PlayerAction) (multiple : Nat) (key : Option MultipleKey) :
    r.clocks.Answers (r.doubleMaxCommit conf p type multiple key d).1.clocks := by
  have timed : TIME (r.players p).state ≠ none := by
    rw [asked]
    decide
  have written : ((r.answer p type).modify p fun pl => { pl with
      doubleMaxAction := some type, doubleMaxMultiple := some multiple }).clocks =
      (r.answer p type).clocks :=
    clocks_modify_hidden _ rfl rfl
  refine answered_end conf phased timed _ ((clocks_announce key multiple).trans written) ?_
  cases key with
  | none => exact rfl
  | some key => exact rfl

theorem Double_answers (phased : r.Phased) (type : Option PlayerAction) :
    r.clocks.Answers (r.Double conf p type d).1.clocks := by
  simp only [Double]
  split
  · exact .refl _
  · rename_i type multiple key _
    have same := clocks_payFor (r := r) (p := p) (type = .double_4 ∧ conf.isUser p)
      .gameDoubleSuper 500006 .doubleing
    have asked := payFor_none r p (type = .double_4 ∧ conf.isUser p) .gameDoubleSuper 500006
      .doubleing
    generalize r.payFor p (type = .double_4 ∧ conf.isUser p) .gameDoubleSuper 500006
      .doubleing = paid at same asked ⊢
    obtain ⟨m, refused⟩ := paid
    have state : (m.players p).state = (r.players p).state :=
      congrFun (congrArg Clocks.pstate same.1) p
    cases refused with
    | some retVal => exact same.1 ▸ .refl _
    | none =>
        rw [← same.1]
        apply doubleCommit_answers conf (phased.of_control same.2)
        exact state.trans (asked rfl)

theorem clocks_heroSkill : (r.heroSkill conf p).1.clocks = r.clocks ∧
    (r.heroSkill conf p).1.control = r.control := by
  simp only [heroSkill]
  split
  · exact ⟨rfl, rfl⟩
  · exact ⟨rfl, rfl⟩

theorem DoubleMax_answers (phased : r.Phased) (type : Option PlayerAction) :
    r.clocks.Answers (r.DoubleMax conf p type d).1.clocks := by
  simp only [DoubleMax]
  split
  · exact .refl _
  · rename_i type multiple key _
    have skilled : (if decide (type = .doubleMax ∧ conf.isUser p) then r.heroSkill conf p
        else (r, true)).1.clocks = r.clocks ∧ (if decide (type = .doubleMax ∧ conf.isUser p) then
          r.heroSkill conf p else (r, true)).1.control = r.control := by
      split
      · exact clocks_heroSkill conf
      · exact ⟨rfl, rfl⟩
    generalize (if decide (type = .doubleMax ∧ conf.isUser p) then r.heroSkill conf p
      else (r, true)) = skill at skilled ⊢
    obtain ⟨n, isCost⟩ := skill
    have same := clocks_payFor (r := n) (p := p)
      (isCost ∧ decide (type = .doubleMax ∧ conf.isUser p)) .gameDoubleMax 500007 .doubleMax
    have asked := payFor_none n p (isCost ∧ decide (type = .doubleMax ∧ conf.isUser p))
      .gameDoubleMax 500007 .doubleMax
    simp only
    generalize n.payFor p (isCost ∧ decide (type = .doubleMax ∧ conf.isUser p)) .gameDoubleMax
      500007 .doubleMax = paid at same asked ⊢
    obtain ⟨m, refused⟩ := paid
    have clocks : m.clocks = r.clocks := same.1.trans skilled.1
    have state : (m.players p).state = (n.players p).state :=
      congrFun (congrArg Clocks.pstate same.1) p
    cases refused with
    | some retVal => exact clocks ▸ .refl _
    | none =>
        rw [← clocks]
        apply doubleMaxCommit_answers conf (phased.of_control (same.2.trans skilled.2))
        exact state.trans (asked rfl)

theorem clocks_recordPlay (play : PlayCardObj) : (r.recordPlay p play).clocks = r.clocks :=
  clocks_modify_hidden (r := r) (p := p) (fun pl => { pl with
    playedCards := pl.playedCards ++ [play]
    playCount := pl.playCount + 1
    playCardCount := pl.playCardCount + 1
    cards := removePlayed pl.cards play.cards }) rfl rfl

theorem clocks_bombMultiple {play : PlayCardObj} {m : Room}
    (bomb : r.bombMultiple conf p play = .ok m) : m.clocks = r.clocks := by
  simp only [bombMultiple] at bomb
  split at bomb
  · split at bomb
    · cases bomb
      rfl
    · cases bomb
  · cases bomb
    rfl

theorem playCardCommit_answers (phased : r.Phased) (asked : (r.players p).state = .playing)
    (play : Option PlayCardObj) :
    r.clocks.Answers (r.playCardCommit conf p play d).1.clocks := by
  have timed : TIME (r.players p).state ≠ none := by
    rw [asked]
    decide
  have answers : ∀ m : Room, m.clocks = (r.answer p (playType play)).clocks →
      r.clocks.Answers m.clocks := fun m same =>
    ⟨[p], same.trans (clocks_answer (playType play)) ▸ .refl⟩
  simp only [playCardCommit]
  generalize mirror : (((r.answer p (playType play)).players p).robotAgent.playCard play) = mirrored
  have written : ((r.answer p (playType play)).modify p fun pl => { pl with
      robotAgent := mirrored.1 }).clocks = (r.answer p (playType play)).clocks :=
    clocks_modify_hidden _ rfl rfl
  split
  · exact answers _ written
  · cases play with
    | none => exact answered_end conf phased timed (m := Room.send _ _) _ written rfl
    | some play =>
        simp only
        split
        · exact answers _ ((clocks_recordPlay (r := Room.send _ _) play).trans written)
        · rename_i m bomb
          exact answers _ ((clocks_bombMultiple conf bomb).trans
            ((clocks_recordPlay (r := Room.send _ _) play).trans written))

theorem PlayCard_answers (phased : r.Phased) (params : PlayParams) :
    r.clocks.Answers (r.PlayCard conf p params d).1.clocks := by
  simp only [PlayCard]
  cases checked : r.playCardCheck p params with
  | error outcome => exact .refl _
  | ok play => exact playCardCommit_answers conf phased (playCardCheck_state checked) play

theorem trusteeshipAction_answers (phased : r.Phased) (state : PlayerState) :
    r.clocks.Answers (r.trusteeshipAction conf p state d).1.clocks := by
  cases state with
  | callLandlord => exact CallLandlord_answers conf phased _
  | robLandlord => exact RobLandlord_answers conf phased _
  | doubleing => exact Double_answers conf phased _
  | doubleMax => exact DoubleMax_answers conf phased _
  | playing =>
      simp only [trusteeshipAction, autoPlay]
      split
      · exact .refl _
      · exact PlayCard_answers conf phased _
  | _ => exact .refl _

theorem SetTrusteeship_answers (phased : r.Phased) (isTrusteeship : Bool) :
    r.clocks.Answers (r.SetTrusteeship conf p isTrusteeship d).1.clocks := by
  have clocks : ((r.modify p fun pl => { pl with isTrusteeship := isTrusteeship }).send
      (.roomSetTrusteeship p isTrusteeship)).clocks = r.clocks :=
    clocks_modify_hidden (r := r) (fun pl => { pl with isTrusteeship := isTrusteeship }) rfl rfl
  have control : ((r.modify p fun pl => { pl with isTrusteeship := isTrusteeship }).send
      (.roomSetTrusteeship p isTrusteeship)).control = r.control :=
    control_modify_hidden (c := r) (fun pl => { pl with isTrusteeship := isTrusteeship })
      rfl rfl rfl rfl
  simp only [SetTrusteeship]
  split
  · exact .refl _
  split
  · exact clocks ▸ trusteeshipAction_answers conf (phased.of_control control) _
  · exact clocks ▸ .refl _

theorem clocks_BottomCardInfo : (r.BottomCardInfo conf p).1.clocks = r.clocks := by
  have taken : ∀ m : Room, (m.modify p fun pl => { pl with bottomCards := m.bottomCards }).clocks =
      m.clocks := fun m => clocks_modify_hidden (fun pl => { pl with bottomCards := m.bottomCards })
    rfl rfl
  simp only [BottomCardInfo]
  split
  · rfl
  split
  · have first := (clocks_stockUp (r := r) (p := p) .gameBottomCardCheck 500005
      (r.players p).state).1
    generalize r.stockUp p .gameBottomCardCheck 500005 (r.players p).state = shop at first ⊢
    obtain ⟨m, refused⟩ := shop
    cases refused with
    | some retVal => exact first
    | none =>
        have second := (clocks_charge (r := m) (p := p) .gameBottomCardCheck).1
        simp only
        generalize m.charge p .gameBottomCardCheck = paid at second ⊢
        obtain ⟨n, lacking⟩ := paid
        cases lacking with
        | some retVal => exact second.trans first
        | none => exact (taken n).trans (second.trans first)
  · exact taken r

theorem clocks_ShowCard : (r.ShowCard conf p).1.clocks = r.clocks := by
  have shown : ∀ m : Room, (m.modify p fun pl => { pl with isShowcard := true }).clocks = m.clocks :=
    fun m => clocks_modify_hidden (fun pl => { pl with isShowcard := true }) rfl rfl
  have counted : (if r.state.code < RoomState.doubleing.code then
      r.addMultiple .showCard (conf.multipleInfo .showCard) p else r).clocks = r.clocks := by
    split
    · rfl
    · rfl
  simp only [ShowCard]
  split
  · rfl
  · generalize (if r.state.code < RoomState.doubleing.code then
      r.addMultiple .showCard (conf.multipleInfo .showCard) p else r) = m at counted ⊢
    exact (shown m).trans counted

theorem playerRequest_answers (phased : r.Phased) (request : Request) :
    r.clocks.Answers (r.playerRequest conf p request d).1.clocks := by
  cases request with
  | showCard => exact clocks_ShowCard conf (r := r) (p := p) ▸ .refl _
  | setTrusteeship isTrusteeship => exact SetTrusteeship_answers conf phased isTrusteeship
  | callLandlord type => exact CallLandlord_answers conf phased type
  | robLandlord type => exact RobLandlord_answers conf phased type
  | forceRobLandlord => exact ForceRobLandlord_answers conf
  | double type => exact Double_answers conf phased type
  | doubleMax type => exact DoubleMax_answers conf phased type
  | playCard params => exact PlayCard_answers conf phased params
  | bottomCardInfo => exact clocks_BottomCardInfo conf (r := r) (p := p) ▸ .refl _
  | syncGold num =>
      have same : (r.modify p fun pl => { pl with gold := num }).clocks = r.clocks :=
        clocks_modify_hidden (fun pl => { pl with gold := num }) rfl rfl
      exact same ▸ .refl _

/-- The timer's own count of a tick. -/
def ticked (r : Room) (id : Nat) (t : Timer) : Room :=
  match t.stage with
  | .check trusteeshipTime =>
      r.setTimer id fun t => { t with stage := .check (trusteeshipTime - 1) }
  | .count => r

theorem timerFunc_answers (phased : r.Phased) (id : Nat) (t : Timer) :
    (r.ticked id t).clocks.Answers (r.timerFunc conf id t d).1.clocks := by
  cases stage : t.stage with
  | check trusteeshipTime =>
      simp only [timerFunc, ticked, stage]
      split
      · apply trusteeshipAction_answers conf
        exact phased.of_control rfl
      · exact .refl _
  | count =>
      have same : (r.modify t.owner fun pl => { pl with clock := pl.clock - 1 }).clocks =
          r.clocks :=
        clocks_modify_hidden (fun pl => { pl with clock := pl.clock - 1 }) rfl rfl
      simp only [timerFunc, ticked, stage]
      exact same ▸ .refl _

theorem timerEnd_answers (phased : r.Phased) (t : Timer) (last : t.stage = .count) :
    r.clocks.Answers (r.timerEnd conf t d).1.clocks := by
  simp only [timerEnd, last]
  split
  · exact trusteeshipAction_answers conf phased _
  · exact SetTrusteeship_answers conf phased true

theorem resume_prompts (phased : r.Phased) (rest : Holding) (held : r.holding = some rest) :
    r.clocks.Prompts (r.resume conf rest d).1.clocks := by
  have idle := phased.idle (.inl (by rw [held]; exact Option.some_ne_none rest))
  cases rest with
  | landlordDelay p => exact .refl
  | landlordWaite p => exact action_prompts conf (r := { r with holding := none }) _ _ idle
  | playCardEffect p type =>
      exact actionEnd_prompts conf (r := { r with holding := none }) type fun _ => idle
  | nextTurn =>
      simp only [resume]
      split
      · exact .refl
      · rename_i last _
        have set := clocks_setPlayCardState (r := { r with holding := none })
          (p := r.getActionPlayerNext) (playCardStateAfter last r.getActionPlayerNext)
        have same : ({ r with holding := none } : Room).clocks = r.clocks := rfl
        rw [← same, ← set]
        apply action_prompts
        intro q
        have pstate := congrFun (congrArg Clocks.pstate set) q
        exact (congrArg TIME pstate).trans (idle q)

theorem fire_prompts (phased : r.Phased) (w : Wait) (due : w ∈ r.waits) :
    r.clocks.Prompts (r.fire conf w d).clocks := by
  have idle := phased.idle (.inr (List.ne_nil_of_mem due))
  cases w with
  | dealCard =>
      have entered := clocks_setActionStateAll_untimed
        (r := { r with waits := r.waits.erase .dealCard }) (d := d) .waiting rfl
      have all := @Clocks.enterAll r.clocks .waiting idle rfl (List.finRange 3)
      refine .trans all.1 ?_
      show ((List.finRange 3).foldl (fun c p => c.enter p .waiting)
        ({ r with waits := r.waits.erase .dealCard } : Room).clocks).Prompts _
      rw [← entered]
      apply action_prompts
      intro q
      exact (congrArg TIME (congrFun (congrArg Clocks.pstate entered) q)).trans (all.2 q)
  | doubleing =>
      exact action_prompts conf (r := { r with waits := r.waits.erase .doubleing }) _ _ idle
  | doubleMax =>
      exact action_prompts conf (r := { r with waits := r.waits.erase .doubleMax }) _ _ idle
  | ended p =>
      exact action_prompts conf (r := { r with waits := r.waits.erase (.ended p) }) _ _ idle

/-- The phases are kept by every event. -/
theorem Phased.step (phased : r.Phased) {e : Event} {r' : Room} {outcome : Outcome}
    (done : r.exec conf e d = some (r', outcome)) : r'.Phased := by
  obtain ⟨ph, phase⟩ := phased
  have moved : r.step conf (e, d) = some r' := by
    rw [Room.step, done]
    rfl
  obtain same | act := step_moves conf e d r r' moved
  · exact ⟨ph, (congrArg control same).trans phase⟩
  · obtain ⟨ph', _, phase'⟩ := act_trans conf e d r.core r'.core phase act
    exact ⟨ph', phase'⟩

end Room

namespace Clocks

/-- A timer's `cancel_timer` belongs to its owner, and prompts are numbered by timers. -/
structure Tidy (c : Clocks) : Prop where
  owned : ∀ p id, c.cancel_timer p = some id → ∃ t, c.timers[id]? = some t ∧ t.owner = p
  numbered : ∀ t ∈ c.timers, t.prompt < c.timers.length

/-- The timer runs for the prompt its owner has to answer, and he can cancel it. -/
structure Current (c : Clocks) (id : Nat) (t : Timer) : Prop where
  timed : TIME t.state ≠ none
  cancel : c.cancel_timer t.owner = some id
  state : c.pstate t.owner = t.state
  newest : ∀ t' ∈ c.timers, t'.owner = t.owner → t'.prompt ≤ t.prompt

/-- What becomes of the timers that are there. -/
structure Kept (c c' : Clocks) : Prop where
  timer : ∀ (id : Nat) (t : Timer), c.timers[id]? = some t →
    ∃ b : Bool, c'.timers[id]? = some { t with canceled := b } ∧ (t.canceled = true → b = true)
  current : ∀ (id : Nat) (t : Timer), c.timers[id]? = some t → c'.timers[id]? = some t →
    t.canceled = false →
    c.Current id t → c'.Current id t

theorem Kept.refl (c : Clocks) : Kept c c :=
  ⟨fun _ t at' => ⟨t.canceled, at', id⟩, fun _ _ _ _ _ current => current⟩

theorem Kept.trans {c m c' : Clocks} (front : Kept c m) (back : Kept m c') : Kept c c' := by
  constructor
  · intro id t at'
    obtain ⟨b, at', up⟩ := front.timer id t at'
    obtain ⟨b', at', up'⟩ := back.timer id _ at'
    exact ⟨b', at', fun canceled => up' (up canceled)⟩
  · intro id t first last live current
    obtain ⟨b, middle, _⟩ := front.timer id t first
    obtain ⟨b', last', up⟩ := back.timer id _ middle
    have same : { t with canceled := b' } = t := Option.some.inj (last'.symm.trans last)
    have down : b' = false := (congrArg Timer.canceled same).trans live
    have still : b = false := by
      by_contra raised
      rw [Bool.not_eq_false] at raised
      exact absurd (up raised) (by rw [down]; exact Bool.false_ne_true)
    have middle : m.timers[id]? = some t := by
      rw [middle, still, ← live]
    exact back.current id t middle last live (front.current id t first middle live current)

theorem Kept.length_le {c c' : Clocks} (kept : Kept c c') :
    c.timers.length ≤ c'.timers.length := by
  by_contra short
  have inside : c'.timers.length < c.timers.length := Nat.lt_of_not_le short
  obtain ⟨b, at', _⟩ := kept.timer c'.timers.length _ (List.getElem?_eq_getElem inside)
  exact absurd (List.getElem?_eq_some_iff.mp at').1 (Nat.lt_irrefl _)

section
variable {c : Clocks} {p : Seat} {state : PlayerState} {n : Int}

theorem timers_clear (id : Nat) : (c.clear p).timers[id]? = (c.timers[id]?).map fun t =>
    if c.cancel_timer p = some id then { t with canceled := true } else t := by
  simp only [clear]
  cases armed : c.cancel_timer p with
  | none => simp [Room.cancelTimer]
  | some id' => simp [Room.cancelTimer, List.getElem?_modify]

theorem length_clear : (c.clear p).timers.length = c.timers.length := by
  simp only [clear]
  cases c.cancel_timer p with
  | none => rfl
  | some id => exact List.length_modify _ _ _

/-- The timers of a list in which some are cancelled, as before. -/
theorem mem_clear {t : Timer} (mem : t ∈ (c.clear p).timers) :
    ∃ t' ∈ c.timers, t.owner = t'.owner ∧ t.prompt = t'.prompt := by
  obtain ⟨id, at'⟩ := List.mem_iff_getElem?.mp mem
  rw [timers_clear, Option.map_eq_some_iff] at at'
  obtain ⟨t', at', rfl⟩ := at'
  refine ⟨t', List.mem_of_getElem? at', ?_⟩
  split
  · exact ⟨rfl, rfl⟩
  · exact ⟨rfl, rfl⟩

theorem tidy_clear (tidy : c.Tidy) : (c.clear p).Tidy := by
  constructor
  · intro q id armed
    obtain ⟨t, at', owner⟩ := tidy.owned q id armed
    rw [timers_clear, at']
    refine ⟨_, rfl, ?_⟩
    split
    · exact owner
    · exact owner
  · intro t mem
    obtain ⟨t', mem, _, prompt⟩ := mem_clear mem
    rw [length_clear, prompt]
    exact tidy.numbered t' mem

theorem kept_clear (tidy : c.Tidy) : Kept c (c.clear p) := by
  constructor
  · intro id t at'
    rw [timers_clear, at', Option.map_some]
    split
    · exact ⟨true, rfl, fun _ => rfl⟩
    · exact ⟨t.canceled, rfl, fun canceled => canceled⟩
  · intro id t first last live current
    rw [timers_clear, first, Option.map_some, Option.some.injEq] at last
    have other : t.owner ≠ p := by
      intro same
      have armed : c.cancel_timer p = some id := same ▸ current.cancel
      rw [if_pos armed] at last
      have canceled : t.canceled = true := (congrArg Timer.canceled last).symm
      rw [canceled] at live
      cases live
    refine ⟨current.timed, current.cancel, ?_, ?_⟩
    · exact (Function.update_of_ne other _ _).trans current.state
    · intro t' mem owner
      obtain ⟨t'', mem, owner', prompt⟩ := mem_clear mem
      rw [prompt]
      exact current.newest t'' mem (owner'.symm.trans owner)

theorem kept_clears (tidy : c.Tidy) (ps : List Seat) :
    Kept c (ps.foldl clear c) ∧ (ps.foldl clear c).Tidy ∧
      (ps.foldl clear c).timers.length = c.timers.length := by
  induction ps generalizing c with
  | nil => exact ⟨.refl c, tidy, rfl⟩
  | cons p ps ih =>
      obtain ⟨kept, tidy', length⟩ := ih (tidy_clear (p := p) tidy)
      exact ⟨(kept_clear tidy).trans kept, tidy', length.trans length_clear⟩

theorem kept_enter (idle : TIME (c.pstate p) = none) : Kept c (c.enter p state) := by
  refine ⟨fun id t at' => ⟨t.canceled, at', fun canceled => canceled⟩, ?_⟩
  intro id t _ _ _ current
  have other : t.owner ≠ p := by
    intro same
    rw [← same, current.state] at idle
    exact current.timed idle
  exact ⟨current.timed, current.cancel,
    (Function.update_of_ne other _ _).trans current.state, current.newest⟩

theorem tidy_ask (tidy : c.Tidy) : (c.ask p state n).Tidy := by
  constructor
  · intro q id armed
    have armed : Function.update c.cancel_timer p (some c.timers.length) q = some id := armed
    rw [Function.update_apply] at armed
    split at armed
    · rename_i here
      obtain rfl := Option.some.inj armed
      exact ⟨.start p state n c.timers.length, List.getElem?_concat_length, here.symm⟩
    · obtain ⟨t, at', owner⟩ := tidy.owned q id armed
      exact ⟨t, Table.append_found at', owner⟩
  · intro t mem
    show t.prompt < (c.timers ++ [_]).length
    rw [List.length_append, List.length_singleton]
    obtain old | new := List.mem_append.mp mem
    · exact Nat.lt_succ_of_lt (tidy.numbered t old)
    · rw [List.mem_singleton.mp new]
      exact Nat.lt_succ_self _

theorem kept_ask (idle : TIME (c.pstate p) = none) : Kept c (c.ask p state n) := by
  constructor
  · intro id t at'
    exact ⟨t.canceled, Table.append_found at', fun canceled => canceled⟩
  · intro id t _ _ _ current
    have other : t.owner ≠ p := by
      intro same
      rw [← same, current.state] at idle
      exact current.timed idle
    refine ⟨current.timed, (Function.update_of_ne other _ _).trans current.cancel,
      (Function.update_of_ne other _ _).trans current.state, ?_⟩
    intro t' mem owner
    obtain old | new := List.mem_append.mp mem
    · exact current.newest t' old owner
    · rw [List.mem_singleton.mp new] at owner
      exact absurd owner.symm other

/-- The new timer is the current one of the player it asks. -/
theorem current_ask (tidy : c.Tidy) (timed : TIME state ≠ none) :
    (c.ask p state n).Current c.timers.length (.start p state n c.timers.length) := by
  refine ⟨timed, Function.update_self _ _ _, Function.update_self _ _ _, ?_⟩
  intro t mem _
  obtain old | new := List.mem_append.mp mem
  · exact Nat.le_of_lt (tidy.numbered t old)
  · rw [List.mem_singleton.mp new]

end

/-- What an event makes of the clocks: timers are only cancelled, those that are not stay
current, and the new ones are current. -/
structure Evolves (c c' : Clocks) : Prop where
  kept : Kept c c'
  tidy : c'.Tidy
  fresh : ∀ (id : Nat) (t : Timer), c.timers.length ≤ id → c'.timers[id]? = some t →
    t.canceled = false ∧ t.armed = true ∧ c'.Current id t

theorem Evolves.refl {c : Clocks} (tidy : c.Tidy) : Evolves c c :=
  ⟨.refl c, tidy, fun _ _ outside at' =>
    absurd (List.getElem?_eq_some_iff.mp at').1 (Nat.not_lt_of_le outside)⟩

theorem Prompts.evolves {c c' : Clocks} (tidy : c.Tidy) (prompts : Prompts c c') :
    Evolves c c' := by
  induction prompts with
  | refl => exact .refl tidy
  | @enter m p state _ idle untimed ih =>
      have kept : Kept m (m.enter p state) := kept_enter idle
      refine ⟨ih.kept.trans kept, ⟨ih.tidy.owned, ih.tidy.numbered⟩, ?_⟩
      intro id t outside at'
      obtain ⟨live, armed, current⟩ := ih.fresh id t outside at'
      exact ⟨live, armed, kept.current id t at' at' live current⟩
  | @ask m p state n _ idle timed ih =>
      have kept : Kept m (m.ask p state n) := kept_ask idle
      refine ⟨ih.kept.trans kept, tidy_ask ih.tidy, ?_⟩
      intro id t outside at'
      obtain before | ⟨rfl, rfl⟩ := Table.concat_cases at'
      · obtain ⟨live, armed, current⟩ := ih.fresh id t outside before
        exact ⟨live, armed, kept.current id t before at' live current⟩
      · exact ⟨rfl, rfl, current_ask ih.tidy timed⟩

theorem Answers.evolves {c c' : Clocks} (tidy : c.Tidy) (answers : Answers c c') :
    Evolves c c' := by
  obtain ⟨ps, prompts⟩ := answers
  obtain ⟨cleared, tidy', length⟩ := kept_clears tidy ps
  have evolves := prompts.evolves tidy'
  exact ⟨cleared.trans evolves.kept, evolves.tidy, fun id t outside =>
    evolves.fresh id t (length ▸ outside)⟩

end Clocks

end HuluLandlord.Ddz
