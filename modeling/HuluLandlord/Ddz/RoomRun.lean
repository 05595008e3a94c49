import HuluLandlord.Ddz.Request
import HuluLandlord.Transition

/-!
Runs of a room. An event is one critical section, the rest of one that slept, a
`skynet.timeout` that runs outside the section, or a change in a user's agent. A
section starts only while none is held. Timer callbacks may come at any time here;
which of them the timers really deliver is the subject of the queue model.
-/
namespace HuluLandlord.Ddz
open Transition

inductive Event
  | request (p : Seat) (request : Request)
  | tick (id : Nat)
  | onEnd (id : Nat)
  | resume
  | wait (w : Wait)
  | agent (p : Seat) (agent : UserAgent)

def emptyAgent : RobotAgent := ⟨[], ⟨[], [], [], []⟩⟩

/-- The agent of a user who owns nothing. -/
def noAgent : UserAgent := ⟨0, 0, fun _ => none, fun _ => none, fun _ => none, none⟩

def Player.new (gold : Int) : Player where
  state := .waiting
  cards := []
  playedCards := []
  playCount := 0
  clock := 0
  lastAction := none
  actionQueue := []
  playCardCount := 0
  robotAgent := emptyAgent
  playCardState := .default
  isShowcard := false
  isTrusteeship := false
  isLandlord := false
  skillState := false
  doubleAction := none
  doubleMultiple := none
  doubleMaxAction := none
  doubleMaxMultiple := none
  bottomCards := []
  cancel_timer := none
  gold := gold

/-- The table of multiples a room is created with. -/
def startMultiple : MultipleKey → Option Nat
  | .double | .doubleSuper | .doubleMax => none
  | _ => some 1

namespace Room
variable (conf : Conf)

/-- The room object before `init`. -/
def new (agents : Seat → UserAgent) (gold : Seat → Int) : Room where
  state := .readyOk
  players := fun p => .new (gold p)
  bottomCards := []
  dealCardCount := 0
  actionIndex := 0
  multiple := startMultiple
  landlordPlayer := none
  lastPlayCardObj := none
  agents := agents
  timers := []
  waits := []
  holding := none
  sent := []

/-- `roomObj.init`; `roomObj.init = room_ratio` writes a field that is never read and
leaves `roomObj.multiple.init` as it was. -/
def init (agents : Seat → UserAgent) (gold : Seat → Int) (d : Draws) : Room :=
  ((new agents gold).action conf .readyOk none d).action conf .dealCard none d

def setTimer (r : Room) (id : Nat) (f : Timer → Timer) : Room :=
  { r with timers := r.timers.modify id f }

/-- The `func` of a timer. -/
def timerFunc (r : Room) (id : Nat) (t : Timer) (d : Draws) : Room × Outcome :=
  match t.stage with
  | .check trusteeshipTime =>
      let trusteeshipTime := trusteeshipTime - 1
      let r := r.setTimer id fun t => { t with stage := .check trusteeshipTime }
      if trusteeshipTime ≤ 0 ∧ (r.players t.owner).isTrusteeship then
        r.trusteeshipAction conf t.owner t.state d
      else (r, .ret none)
  | .count => (r.modify t.owner fun pl => { pl with clock := pl.clock - 1 }, .ret none)

/-- The `on_end` of a timer: the first stage starts the second, the second answers
for the player. -/
def timerEnd (r : Room) (t : Timer) (d : Draws) : Room × Outcome :=
  match t.stage with
  | .check _ =>
      let id := r.timers.length
      let second : Timer :=
        { t with stage := .count, iteration := (r.players t.owner).clock, canceled := false,
                 armed := true }
      ({ r with timers := r.timers ++ [second] }.modify t.owner fun pl =>
        { pl with cancel_timer := some id }, .ret none)
  | .count =>
      if t.state = .doubleing ∨ t.state = .doubleMax then
        r.trusteeshipAction conf t.owner t.state d
      else r.SetTrusteeship conf t.owner true d

/-- The part of a section after its sleep. -/
def resume (r : Room) (rest : Holding) (d : Draws) : Room × Outcome :=
  let r := { r with holding := none }
  match rest with
  | .landlordDelay p => (r.landlordSet conf p).finish none
  | .landlordWaite p => (r.action conf .doubleing (some p) d).finish none
  | .playCardEffect p type => (r.actionEnd conf p type d).finish none
  | .nextTurn =>
      let nextPlayer := r.getActionPlayerNext
      match r.lastPlayCardObj with
      | none => (r, .raised "attempt to index a nil value (field 'lastPlayCardObj')")
      | some last =>
          let r := r.setPlayCardState nextPlayer (playCardStateAfter last nextPlayer)
          (r.action conf .playing (some nextPlayer) d).finish none

/-- A timeout or fork that runs outside the section. -/
def fire (r : Room) (w : Wait) (d : Draws) : Room :=
  let r := { r with waits := r.waits.erase w }
  match w with
  | .dealCard => (r.setActionStateAll .waiting d).action conf .callLandlord (some d.first) d
  | .doubleing => r.action conf .doubleMax none d
  | .doubleMax => r.action conf .playing r.landlordPlayer d
  | .ended p => r.action conf .ended (some p) d

/-- What an event does and how the section it starts or resumes ends. -/
def exec (r : Room) (event : Event) (d : Draws) : Option (Room × Outcome) :=
  match event with
  | .request p request =>
      if r.holding = none then some (r.playerRequest conf p request d) else none
  | .tick id =>
      if r.holding = none then r.timers[id]?.map fun t => r.timerFunc conf id t d else none
  | .onEnd id =>
      if r.holding = none then r.timers[id]?.map fun t => r.timerEnd conf t d else none
  | .resume => r.holding.map fun rest => r.resume conf rest d
  | .wait w => if w ∈ r.waits then some (r.fire conf w d, .ret none) else none
  | .agent p agent => some (r.setAgent p agent, .ret none)

def step (r : Room) (e : Event × Draws) : Option Room := (r.exec conf e.1 e.2).map Prod.fst

/-- The rooms a run of guarded events reaches. -/
def Reachable (ok : Room → Event × Draws → Prop) (r : Room) : Prop :=
  ∃ agents gold d es, Run (step conf) ok (init conf agents gold d) es r

end Room

/-- A room of three users without skills in which every announced factor is 2. -/
def Conf.plain (room_ratio : Nat) (ratio_pos : 0 < room_ratio) : Conf where
  room_ratio := room_ratio
  difen := 1
  capped_num := 1000
  multipleInfo := fun _ => 2
  bombInfo := fun _ => some 2
  isUser := fun _ => true
  isTangBaoEr := fun _ => false
  hasGameSkill := fun _ => false
  heroSkillRate := fun _ => 0
  skillBuffCfg := fun _ => none
  ratio_pos := ratio_pos
  multiple_pos := fun _ => Nat.two_pos
  bomb_pos := fun _ _ row => Option.some.inj row ▸ Nat.two_pos
  bomb_row := fun _ _ => nofun
  skill_pos := fun _ _ none => nomatch none

/-- Draws that deal `deal` and ask the first player first. -/
def Draws.plain (deal : Deal) : Draws := ⟨deal, fun _ => 0, 0, fun _ => 0, 0⟩

def plainStart (conf : Conf) : Room :=
  Room.init conf (fun _ => noAgent) (fun _ => 1000) (.plain (classic []))

/-- The first player calls and the others decline. -/
def calledRun : List (Event × Draws) :=
  [.wait .dealCard, .request 0 (.callLandlord (some .callLandlord)),
    .request 1 (.robLandlord (some .notRob)), .request 2 (.robLandlord (some .notRob))].map
    fun e => (e, .plain (classic []))

end HuluLandlord.Ddz
