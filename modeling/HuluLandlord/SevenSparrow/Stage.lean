import HuluLandlord.SevenSparrow.Ledger

/-!
Whose move it is in the seven-sparrow room. Between the requests and the tasks a game is
in one of six stages, and no more than one player or one task can take it on. This rests
on the answers to the prompts of a win: the last one to come passes the turn, so it must
not come while a prompt is still asleep or the win is still being paid.
-/
namespace HuluLandlord.SevenSparrow
open Transition

/-- How far the record has come: someone is asked, a win is being charged, the turn is due
to be passed, or the game is over, with the turn passed before or not. -/
inductive Turn
  | asked | settling | due
  | ended (called : Bool)
  deriving DecidableEq, Repr

/-- The order of the messages. -/
def Turn.next : Turn → Message → Option Turn
  | .asked, .please_takecard _ | .asked, .takecard .. | .asked, .please_playcard _ => some .asked
  | .asked, .playcard .. => some .due
  | .asked, .charge .. | .settling, .charge .. => some .settling
  | .settling, .please_recharge .. | .settling, .giveup .. => some .settling
  | .settling, .hu .. => some .due
  | .due, .please_recharge .. | .due, .giveup .. => some .due
  | .due, .next_one_take => some .asked
  | .asked, .gameover _ => some (.ended true)
  | .due, .gameover _ => some (.ended false)
  | t, .exit .. | t, .sync_player_gold .. | t, .add_gold .. => some t
  | _, _ => none

namespace Turn
variable {p : Chair} {c : Checkout}

@[simp] theorem asked_please_takecard :
    asked.next (.please_takecard p) = some asked := rfl

@[simp] theorem asked_takecard {from_pool : Bool} {card : Option Ddz.Card} {flowers : List Ddz.Card} :
    asked.next (.takecard p from_pool card flowers) = some asked := rfl

@[simp] theorem asked_please_playcard :
    asked.next (.please_playcard p) = some asked := rfl

@[simp] theorem asked_playcard {card : Ddz.Card} :
    asked.next (.playcard p card) = some due := rfl

@[simp] theorem asked_charge {goldLost gold : Int} {gameing : Bool} :
    asked.next (.charge c p goldLost gold gameing) = some settling := rfl

@[simp] theorem asked_gameover {datas : Chair → OverData} :
    asked.next (.gameover datas) = some (ended true) := rfl

@[simp] theorem settling_charge {goldLost gold : Int} {gameing : Bool} :
    settling.next (.charge c p goldLost gold gameing) = some settling := rfl

@[simp] theorem settling_please_recharge {goldBrokeLast : Int} :
    settling.next (.please_recharge p goldBrokeLast) = some settling := rfl

@[simp] theorem settling_giveup {g : Bool} :
    settling.next (.giveup p g) = some settling := rfl

@[simp] theorem settling_hu {bills : List Bill} : settling.next (.hu p bills) = some due := rfl

@[simp] theorem due_please_recharge {goldBrokeLast : Int} :
    due.next (.please_recharge p goldBrokeLast) = some due := rfl

@[simp] theorem due_giveup {g : Bool} : due.next (.giveup p g) = some due := rfl

@[simp] theorem due_next_one_take : due.next .next_one_take = some asked := rfl

@[simp] theorem due_gameover {datas : Chair → OverData} :
    due.next (.gameover datas) = some (ended false) := rfl

end Turn

def turn (record : List Message) : Option Turn := record.foldlM Turn.next .asked

theorem turn_concat {record : List Message} {m : Message} :
    turn (record ++ [m]) = (turn record).bind fun t => t.next m := by
  simp [turn, List.foldlM_append]

namespace PlayerState_QQP

def acting (status : PlayerState_QQP) : Bool := status = .takeing ∨ status = .playing

def gameing (status : PlayerState_QQP) : Bool := status ≠ .watching ∧ status ≠ .exited

/-- Neither asked to act nor prompted. -/
def still (status : PlayerState_QQP) : Bool := !status.acting && status ≠ .recharging

end PlayerState_QQP

/-- A task that takes the game on. -/
def Task.isMain : Task → Bool
  | .please_recharge _ | .ssw_giveup _ => false
  | _ => true

/-- The player a forked prompt is for. -/
def Task.prompted : Task → Option Chair
  | .please_recharge p => some p
  | _ => none

/-- What a room shows of whose move it is: `hand` is how many cards a player holds, and
`dry` whether the pool is empty. -/
structure Scene where
  status : Chair → PlayerState_QQP
  hand : Chair → Nat
  dry : Bool
  ended : Bool
  main : List Task
  prompts : List Chair
  last : Option Chair
  turn : Option Turn

def Room.scene (b : Room) : Scene where
  status := fun p => (b.players p).status
  hand := fun p => (b.players p).cards.length
  dry := b.check_over
  ended := b.status = .ended
  main := b.tasks.filter Task.isMain
  prompts := b.tasks.filterMap Task.prompted
  last := b.last_hu_player
  turn := turn b.record

namespace Scene

def setStatus (s : Scene) (p : Chair) (status : PlayerState_QQP) : Scene :=
  { s with status := Function.update s.status p status }

/-- A player is given or has given up a card. -/
def deal (s : Scene) (p : Chair) (num : Nat) : Scene :=
  { s with hand := Function.update s.hand p num }

def radio (s : Scene) (m : Message) : Scene :=
  { s with turn := s.turn.bind fun t => t.next m }

/-- How many have left the game. -/
def out (s : Scene) : Nat := (List.finRange 4).countP fun p => !(s.status p).gameing

def Two (s : Scene) : Prop :=
  ∃ p q, p ≠ q ∧ (s.status p).gameing = true ∧ (s.status q).gameing = true

/-- Everybody holds seven cards, but for one player who holds eight. -/
def Sized (s : Scene) (holder : Option Chair) : Prop :=
  ∀ p, s.hand p = if holder = some p then 8 else 7

/-- One player is asked, and nothing is pending. -/
structure Acts (s : Scene) (p : Chair) : Prop where
  acting : (s.status p).acting = true
  alone : ∀ q, q ≠ p → (s.status q).still = true
  two : s.Two
  main : s.main = []
  prompts : s.prompts = []
  going : s.ended = false
  turn : s.turn = some .asked
  sized : s.Sized (if s.status p = .playing then some p else none)

end Scene

/-- The task takes the game on from a turn. -/
def Task.Resumes (t : Task) (turn : Option Turn) : Prop :=
  match t with
  | .realstart | .please_playcard _ => turn = some .asked
  | .next_one_take _ => turn = some .due
  | _ => False

/-- The player who has taken a card and is about to be asked to play. -/
def Task.holder : Task → Option Chair
  | .please_playcard p => some p
  | _ => none

/-- The settlement a task waits in. -/
def Task.settlement : Task → Option Checkout
  | .charge c _ _ _ | .pay c => some c
  | _ => none

namespace Scene

/-- Nobody is asked, and one task will ask someone. -/
structure Waits (s : Scene) (t : Task) : Prop where
  still : ∀ q, (s.status q).still = true
  two : s.Two
  main : s.main = [t]
  prompts : s.prompts = []
  going : s.ended = false
  resumes : t.Resumes s.turn
  sized : s.Sized t.holder

/-- A win that is being settled or has been: the winner himself is not prompted, and
nobody is asked. -/
structure Won (s : Scene) (w : Chair) : Prop where
  winner : (s.status w).gameing = true
  unprompted : s.status w ≠ .recharging
  idle : ∀ q, (s.status q).acting = false
  others : w ∉ s.prompts
  going : s.ended = false
  sized : s.Sized none

/-- Somebody has been prompted, or will be. -/
def Open (s : Scene) : Prop := s.prompts ≠ [] ∨ ∃ q, s.status q = .recharging

/-- A settlement in progress. -/
structure Settles (s : Scene) (c : Checkout) : Prop where
  won : s.Won c.winner
  rival : ∃ q, q ≠ c.winner ∧ (s.status q).gameing = true
  recharging : c.recharging = true ↔ s.Open

/-- A win has been paid, and the turn waits for the prompted players. -/
structure Recharges (s : Scene) (w : Chair) : Prop where
  won : s.Won w
  last : s.last = some w
  main : s.main = []
  opened : s.Open
  turn : s.turn = some .due

/-- All but one have left, and the game is about to end. -/
structure Leaves (s : Scene) : Prop where
  still : ∀ q, (s.status q).still = true
  main : s.main = [.gameover]
  prompts : s.prompts = []
  going : s.ended = false
  turn : s.turn = some .due
  out : s.out = 3
  sized : s.Sized none

/-- The game is over, after the pool has run dry or all but one have left. -/
structure Over (s : Scene) (called : Bool) : Prop where
  still : ∀ q, (s.status q).still = true
  main : s.main = []
  prompts : s.prompts = []
  ended : s.ended = true
  turn : s.turn = some (.ended called)
  dry : called = true → s.dry = true
  out : called = false → s.out = 3
  sized : s.Sized none

end Scene

inductive Stage (s : Scene) : Prop
  | acts (p : Chair) (acts : s.Acts p)
  | waits (t : Task) (waits : s.Waits t)
  | settles (t : Task) (c : Checkout) (main : s.main = [t]) (of : t.settlement = some c)
      (turn : s.turn = some .settling) (settles : s.Settles c)
  | recharges (w : Chair) (recharges : s.Recharges w)
  | leaves (leaves : s.Leaves)
  | ends (called : Bool) (ends : s.Over called)

section Scenes
variable {conf : Conf} {users : Chair → User} {b b' : Room} {s : Scene} {p q w : Chair}
variable {c : Checkout} {t : Task} {m : Message} {f : Player → Player}

theorem still_idle {u : PlayerState_QQP} (still : u.still = true) :
    u.acting = false := by cases u <;> trivial

theorem still_unprompted {u : PlayerState_QQP} (still : u.still = true) :
    u ≠ .recharging := by
  intro prompted
  rw [prompted] at still
  cases still

theorem still_of_idle {u : PlayerState_QQP} (idle : u.acting = false)
    (unprompted : u ≠ .recharging) : u.still = true := by
  simp [PlayerState_QQP.still, idle, unprompted]

theorem acting_gameing {u : PlayerState_QQP} (acting : u.acting = true) :
    u.gameing = true := by cases u <;> trivial

namespace Scene

theorem setStatus_self {u : PlayerState_QQP} :
    (s.setStatus p u).status p = u := Function.update_self ..

theorem setStatus_ne {u : PlayerState_QQP} (other : q ≠ p) :
    (s.setStatus p u).status q = s.status q := Function.update_of_ne other ..

theorem Two.other (two : s.Two) (p : Chair) : ∃ q, q ≠ p ∧ (s.status q).gameing = true := by
  obtain ⟨q, r, apart, first, second⟩ := two
  by_cases here : q = p
  · exact ⟨r, fun same => apart (here.trans same.symm), second⟩
  · exact ⟨q, here, first⟩

theorem Two.of (gaming : (s.status p).gameing = true)
    (rival : ∃ q, q ≠ p ∧ (s.status q).gameing = true) : s.Two := by
  obtain ⟨q, other, second⟩ := rival
  exact ⟨q, p, other, second, gaming⟩

theorem Two.set {u : PlayerState_QQP} (two : s.Two) (gaming : u.gameing = true) :
    (s.setStatus p u).Two := by
  obtain ⟨q, other, second⟩ := two.other p
  refine ⟨q, p, other, ?_, ?_⟩
  · rwa [setStatus_ne other]
  · rwa [setStatus_self]

theorem still_set {u : PlayerState_QQP} (still : u.still = true)
    (alone : ∀ q, q ≠ p → (s.status q).still = true) (q : Chair) :
    ((s.setStatus p u).status q).still = true := by
  by_cases here : q = p
  · rwa [here, setStatus_self]
  · rw [setStatus_ne here]
    exact alone q here

/-- All but one have left exactly when nobody else is gaming. -/
theorem out_alone (gaming : (s.status w).gameing = true) :
    s.out = 3 ↔ ∀ q, q ≠ w → (s.status q).gameing = false := by
  have count : ∀ (g : Chair → Bool) (w : Chair), g w = true →
      (((List.finRange 4).countP fun p => !g p) = 3 ↔ ∀ q, q ≠ w → g q = false) := by decide
  exact count (fun p => (s.status p).gameing) w gaming

end Scene

theorem scene_modify (kept : ∀ pl, (f pl).status = pl.status)
    (held : ∀ pl, (f pl).cards = pl.cards) : (b.modify p f).scene = b.scene := by
  have status : (fun q => ((b.modify p f).players q).status) = fun q => (b.players q).status := by
    funext q
    by_cases here : q = p
    · subst here
      simp only [Room.modify, Function.update_self]
      exact kept _
    · simp only [Room.modify, Function.update_of_ne here]
  have hand : (fun q => ((b.modify p f).players q).cards.length) =
      fun q => (b.players q).cards.length := by
    funext q
    by_cases here : q = p
    · subst here
      simp only [Room.modify, Function.update_self, held]
    · simp only [Room.modify, Function.update_of_ne here]
  simp only [Room.scene, status, hand]
  rfl

theorem scene_deal {u : PlayerState_QQP} {n : Nat} (set : ∀ pl, (f pl).status = u)
    (held : (f (b.players p)).cards.length = n) :
    (b.modify p f).scene = (b.scene.setStatus p u).deal p n := by
  have status : (fun q => ((b.modify p f).players q).status) =
      Function.update (fun q => (b.players q).status) p u := by
    funext q
    by_cases here : q = p
    · subst here
      simp only [Room.modify, Function.update_self]
      exact set _
    · simp only [Room.modify, Function.update_of_ne here]
  have hand : (fun q => ((b.modify p f).players q).cards.length) =
      Function.update (fun q => (b.players q).cards.length) p n := by
    funext q
    by_cases here : q = p
    · subst here
      simp only [Room.modify, Function.update_self]
      exact held
    · simp only [Room.modify, Function.update_of_ne here]
  simp only [Room.scene, status, hand]
  rfl

theorem scene_status {u : PlayerState_QQP} (set : ∀ pl, (f pl).status = u)
    (held : ∀ pl, (f pl).cards = pl.cards) : (b.modify p f).scene = b.scene.setStatus p u := by
  rw [scene_deal set (congrArg List.length (held _)), Scene.deal]
  exact congrArg (fun hand => { b.scene.setStatus p u with hand := hand })
    (Function.update_eq_self p b.scene.hand)

theorem scene_setStatus {u : PlayerState_QQP} :
    (b.setStatus p u).scene = b.scene.setStatus p u :=
  scene_status (f := fun pl => { pl with status := u }) (fun _ => rfl) fun _ => rfl

theorem scene_radio : (b.radio m).scene = b.scene.radio m := by
  simp only [Room.scene, Room.radio, Scene.radio, turn_concat]
  rfl

theorem scene_tasks {ts : List Task} :
    ({ b with tasks := ts } : Room).scene =
      { b.scene with main := ts.filter Task.isMain, prompts := ts.filterMap Task.prompted } := rfl

theorem scene_later :
    (b.later t).scene =
      { b.scene with
        main := b.scene.main ++ [t].filter Task.isMain
        prompts := b.scene.prompts ++ [t].filterMap Task.prompted } := by
  rw [Room.later, scene_tasks, List.filter_append, List.filterMap_append]
  rfl

theorem main_prompted (main : t.isMain = true) : t.prompted = none := by
  cases t with
  | please_recharge p => cases main
  | _ => rfl

theorem scene_main (main : t.isMain = true) :
    (b.later t).scene = { b.scene with main := b.scene.main ++ [t] } := by
  have none : [t].filterMap Task.prompted = [] := by simpa using main_prompted main
  have only : [t].filter Task.isMain = [t] := by simpa using main
  rw [scene_later, none, only, List.append_nil]

theorem scene_prompt :
    (b.later (.please_recharge p)).scene = { b.scene with prompts := b.scene.prompts ++ [p] } := by
  have none : [Task.please_recharge p].filter Task.isMain = [] := rfl
  rw [scene_later, none, List.append_nil]
  rfl

theorem scene_stale : (b.later (.ssw_giveup p)).scene = b.scene := by
  have none : [Task.ssw_giveup p].filter Task.isMain = [] := rfl
  have unforked : [Task.ssw_giveup p].filterMap Task.prompted = [] := rfl
  rw [scene_later, none, unforked, List.append_nil, List.append_nil]

theorem scene_gameover :
    b.gameover.scene =
      { b.scene.radio (.gameover ({ b with status := .ended } : Room).broken.overDatas) with
        ended := true } := by
  simp only [Room.gameover, scene_radio]
  rfl

theorem scene_please_takecard {is_first : Bool} :
    (b.please_takecard p is_first).scene =
      (b.scene.setStatus p .takeing).radio (.please_takecard p) := by
  rw [Room.please_takecard, scene_radio, scene_status (u := .takeing)]
  · exact fun _ => rfl
  · exact fun _ => rfl

theorem scene_recharge : ∃ goldBrokeLast, (b.please_recharge p).scene =
    (b.scene.setStatus p .recharging).radio (.please_recharge p goldBrokeLast) := by
  refine ⟨|Room.goldChange b.all_bills p| - (b.players p).goldBrokeLast, ?_⟩
  simp only [Room.please_recharge]
  split
  · rw [scene_stale, scene_radio, scene_status (u := .recharging)]
    · exact fun _ => rfl
    · exact fun _ => rfl
  · rw [scene_radio, scene_status (u := .recharging)]
    · exact fun _ => rfl
    · exact fun _ => rfl

theorem split_task {ts : List Task} {i : Nat} (found : ts[i]? = some t) :
    ∃ us vs, ts = us ++ t :: vs ∧ ts.eraseIdx i = us ++ vs := by
  obtain ⟨inside, rfl⟩ := List.getElem?_eq_some_iff.mp found
  refine ⟨ts.take i, ts.drop (i + 1), ?_, List.eraseIdx_eq_take_drop_succ ts i⟩
  rw [← List.drop_eq_getElem_cons inside, List.take_append_drop]

/-- Taking up the only task that takes the game on. -/
theorem scene_drop_main {i : Nat} {u : Task} (found : b.tasks[i]? = some t)
    (main : t.isMain = true) (only : b.scene.main = [u]) :
    t = u ∧ ({ b with tasks := b.tasks.eraseIdx i } : Room).scene = { b.scene with main := [] } := by
  obtain ⟨us, vs, before, after⟩ := split_task found
  have whole : us.filter Task.isMain ++ t :: vs.filter Task.isMain = [u] := by
    rw [← only, Room.scene, before, List.filter_append, List.filter_cons, if_pos main]
  have none : t.prompted = none := main_prompted main
  cases List.append_eq_singleton_iff.mp whole with
  | inr last => cases last.2
  | inl first =>
      obtain ⟨none_before, rest⟩ := first
      obtain ⟨same, none_after⟩ := List.cons.inj rest
      refine ⟨same, ?_⟩
      rw [scene_tasks, after, List.filter_append, none_before, none_after, List.filterMap_append]
      simp only [Room.scene, before, List.filterMap_append, List.filterMap_cons, none]
      rfl

theorem scene_drop_prompt {i : Nat} (found : b.tasks[i]? = some (.please_recharge p)) :
    p ∈ b.scene.prompts ∧ ∃ ps, (∀ q ∈ ps, q ∈ b.scene.prompts) ∧
      ({ b with tasks := b.tasks.eraseIdx i } : Room).scene = { b.scene with prompts := ps } := by
  obtain ⟨us, vs, before, after⟩ := split_task found
  have whole : b.scene.prompts =
      us.filterMap Task.prompted ++ p :: vs.filterMap Task.prompted := by
    rw [Room.scene, before, List.filterMap_append, List.filterMap_cons]
    rfl
  refine ⟨by simp [whole], us.filterMap Task.prompted ++ vs.filterMap Task.prompted,
    fun q mem => ?_, ?_⟩
  · rw [whole]
    simp only [List.mem_append, List.mem_cons] at mem ⊢
    tauto
  · rw [scene_tasks, after, List.filter_append, List.filterMap_append]
    simp only [Room.scene, before, List.filter_append, List.filter_cons, Task.isMain]
    rfl

theorem scene_drop_stale {i : Nat} (found : b.tasks[i]? = some (.ssw_giveup p)) :
    ({ b with tasks := b.tasks.eraseIdx i } : Room).scene = b.scene := by
  obtain ⟨us, vs, before, after⟩ := split_task found
  rw [scene_tasks, after, List.filter_append, List.filterMap_append]
  simp only [Room.scene, before, List.filter_append, List.filterMap_append, List.filter_cons,
    List.filterMap_cons, Task.isMain, Task.prompted]
  rfl

end Scenes

/-- Nobody is asked, and nothing is pending. -/
structure Scene.Calm (s : Scene) : Prop where
  still : ∀ q, (s.status q).still = true
  main : s.main = []
  prompts : s.prompts = []
  going : s.ended = false

/-- The last prompted player may answer: no prompt is asleep and no win is being paid. -/
def Scene.Ready (s : Scene) (p : Chair) : Prop :=
  (∀ q, q ≠ p → s.status q ≠ .recharging) → s.prompts = [] ∧ ∀ t ∈ s.main, t.settlement = none

section Stages
variable {conf : Conf} {users : Chair → User} {b b' : Room} {s : Scene} {p q w : Chair}
variable {c : Checkout} {t : Task} {m : Message} {u : PlayerState_QQP}

namespace Scene

theorem Acts.calm (acts : s.Acts p) (still : u.still = true) :
    (s.setStatus p u).Calm :=
  ⟨still_set still acts.alone, acts.main, acts.prompts, acts.going⟩

theorem Calm.radio (calm : s.Calm) : (s.radio m).Calm :=
  ⟨calm.still, calm.main, calm.prompts, calm.going⟩

/-- Somebody is asked. -/
theorem Calm.acts (calm : s.Calm) (two : s.Two) (turn : s.turn = some .asked)
    (acting : u.acting = true) (sized : s.Sized (if u = .playing then some p else none)) :
    (s.setStatus p u).Acts p where
  acting := by rwa [setStatus_self]
  alone := fun q other => by
    rw [setStatus_ne other]
    exact calm.still q
  two := two.set (acting_gameing acting)
  main := calm.main
  prompts := calm.prompts
  going := calm.going
  turn := turn
  sized := by
    rw [setStatus_self]
    exact sized

theorem Calm.waits (calm : s.Calm) (two : s.Two) (resumes : t.Resumes s.turn)
    (sized : s.Sized t.holder) : Scene.Waits { s with main := s.main ++ [t] } t :=
  ⟨calm.still, two, by rw [calm.main, List.nil_append], calm.prompts, calm.going, resumes, sized⟩

theorem Waits.calm (waits : s.Waits t) : Scene.Calm { s with main := [] } :=
  ⟨waits.still, rfl, waits.prompts, waits.going⟩

theorem Calm.over {datas : Chair → OverData} (calm : s.Calm) (turn : s.turn = some .asked)
    (dry : s.dry = true) (sized : s.Sized none) :
    Scene.Over { s.radio (.gameover datas) with ended := true } true :=
  ⟨calm.still, calm.main, calm.prompts, rfl, by simp [Scene.radio, turn],
    fun _ => dry, nofun, sized⟩

theorem Sized.hand (sized : s.Sized none) (p : Chair) : s.hand p = 7 := sized p

theorem Sized.holding (sized : s.Sized (some p)) : s.hand p = 8 := by
  rw [sized p, if_pos rfl]

theorem Sized.give (sized : s.Sized none) : (s.deal p 8).Sized (some p) := by
  intro q
  by_cases here : q = p
  · simp [Scene.deal, here]
  · simp only [Scene.deal, Function.update_of_ne here]
    rw [if_neg fun same => here (Option.some.inj same).symm]
    exact sized q

theorem Sized.give_up (sized : s.Sized (some p)) : (s.deal p 7).Sized none := by
  intro q
  by_cases here : q = p
  · simp [Scene.deal, here]
  · simp only [Scene.deal, Function.update_of_ne here]
    have seven := sized q
    rwa [if_neg fun same => here (Option.some.inj same).symm] at seven

theorem Acts.seven (acts : s.Acts p) (asked : s.status p = .takeing) : s.Sized none := by
  have sized := acts.sized
  rwa [if_neg (asked ▸ nofun)] at sized

theorem Acts.eight (acts : s.Acts p) (asked : s.status p = .playing) : s.Sized (some p) := by
  have sized := acts.sized
  rwa [if_pos asked] at sized

end Scene

/-- Whoever is asked is the only one. -/
theorem Stage.acting_only (stage : Stage s) (acting : (s.status p).acting = true) :
    s.Acts p := by
  have absurd_still : ∀ {P : Prop}, (s.status p).still = true → P := by
    intro P still
    rw [still_idle still] at acting
    cases acting
  cases stage with
  | acts q acts =>
      by_cases here : p = q
      · rwa [here]
      · exact absurd_still (acts.alone p here)
  | waits t waits => exact absurd_still (waits.still p)
  | settles t c _ _ _ settles => exact absurd acting (by simp [settles.won.idle p])
  | recharges w recharges => exact absurd acting (by simp [recharges.won.idle p])
  | leaves leaves => exact absurd_still (leaves.still p)
  | ends called ends => exact absurd_still (ends.still p)

/-- Prompts are open only while a win is being settled or has not been answered. -/
theorem Stage.opened (stage : Stage s) (opened : s.Open) :
    (∃ t c, s.main = [t] ∧ t.settlement = some c ∧ s.turn = some .settling ∧ s.Settles c) ∨
      ∃ w, s.Recharges w := by
  have closed : ∀ {P : Prop}, (∀ q, s.status q ≠ .recharging) → s.prompts = [] → P := by
    intro P unprompted prompts
    cases opened with
    | inl forked => exact absurd prompts forked
    | inr asked =>
        obtain ⟨q, prompted⟩ := asked
        exact absurd prompted (unprompted q)
  cases stage with
  | acts p acts =>
      refine closed (fun q => ?_) acts.prompts
      by_cases here : q = p
      · intro prompted
        have acting := acts.acting
        rw [← here, prompted] at acting
        cases acting
      · exact still_unprompted (acts.alone q here)
  | waits t waits => exact closed (fun q => still_unprompted (waits.still q)) waits.prompts
  | settles t c main settlement turn settles => exact .inl ⟨t, c, main, settlement, turn, settles⟩
  | recharges w recharges => exact .inr ⟨w, recharges⟩
  | leaves leaves => exact closed (fun q => still_unprompted (leaves.still q)) leaves.prompts
  | ends called ends => exact closed (fun q => still_unprompted (ends.still q)) ends.prompts

theorem Stage.prompted (stage : Stage s) (prompted : s.status p = .recharging) :
    (∃ t c, s.main = [t] ∧ t.settlement = some c ∧ s.turn = some .settling ∧ s.Settles c) ∨
      ∃ w, s.Recharges w := stage.opened (.inr ⟨p, prompted⟩)

theorem Stage.won (stage : Stage s) (prompted : s.status p = .recharging) : ∃ w, s.Won w := by
  cases stage.prompted prompted with
  | inl settling =>
      obtain ⟨t, c, _, _, _, settles⟩ := settling
      exact ⟨c.winner, settles.won⟩
  | inr recharging =>
      obtain ⟨w, recharges⟩ := recharging
      exact ⟨w, recharges.won⟩

theorem next_found (rival : ∃ q, q ≠ w ∧ (b.scene.status q).gameing = true) :
    ∃ q, b.next_game_player w = some q := by
  obtain ⟨q, other, gaming⟩ := rival
  have around : ∀ w q : Chair, q ≠ w → q ∈ [w + 1, w + 2, w + 3] := by decide
  rw [← Option.isSome_iff_exists, Room.next_game_player, List.find?_isSome]
  exact ⟨q, around w q other, gaming⟩

/-- Passing the turn on asks exactly one player, or ends the game. -/
theorem stage_next (calm : b.scene.Calm) (two : b.scene.Two) (due : b.scene.turn = some .due)
    (sized : b.scene.Sized none) : Stage (b.next_one_take (some w)).scene := by
  have called : (b.radio .next_one_take).scene = b.scene.radio .next_one_take := scene_radio
  have asked : (b.scene.radio .next_one_take).turn = some .asked := by
    simp [Scene.radio, due]
  have rival : ∃ q, q ≠ w ∧ (((b.radio .next_one_take).scene).status q).gameing = true :=
    two.other w
  obtain ⟨q, found⟩ := next_found rival
  simp only [Room.next_one_take, Option.bind_some, found]
  split
  · rename_i dry
    refine .ends true ?_
    rw [scene_gameover, called]
    exact calm.radio.over asked dry sized
  · refine .acts q ?_
    rw [scene_please_takecard, called]
    have acts := calm.radio.acts (p := q) (u := .takeing) two asked rfl sized
    exact { acts with turn := by simp [Scene.radio, Scene.setStatus, due] }

theorem scene_takeCard {card : Option Ddz.Card} :
    ∃ d, (b.takeCard card).1.scene = { b.scene with dry := d } := by
  cases card with
  | some card => exact ⟨_, rfl⟩
  | none =>
      simp only [Room.takeCard]
      split
      · exact ⟨_, rfl⟩
      · exact ⟨_, rfl⟩

/-- A game goes on however many cards are left in the pool. -/
theorem Stage.dry {d : Bool} (stage : Stage s) (going : s.ended = false) :
    Stage { s with dry := d } := by
  cases stage with
  | acts p acts => exact .acts p { acts with }
  | waits t waits => exact .waits t { waits with }
  | settles t c main settlement turn settles =>
      exact .settles t c main settlement turn ⟨{ settles.won with }, settles.rival, settles.recharging⟩
  | recharges w recharges => exact .recharges w { recharges with won := { recharges.won with } }
  | leaves leaves => exact .leaves { leaves with }
  | ends called ends =>
      rw [ends.ended] at going
      cases going

theorem stage_take (stage : Stage b.scene) (p : Chair) (from_pool : Bool)
    (card : Option Ddz.Card) : Stage (b.ssw_takecard p from_pool card).1.scene := by
  obtain ⟨d, same⟩ := @scene_takeCard b card
  simp only [Room.ssw_takecard]
  split
  · exact stage
  rename_i asked
  rw [not_not] at asked
  split
  · exact stage
  have acts := stage.acting_only (p := p) (by simp [Room.scene, asked, PlayerState_QQP.acting])
  have kept : Stage (b.takeCard card).1.scene := same ▸ stage.dry acts.going
  split
  · rename_i done
    rwa [done] at kept
  · rename_i done
    rwa [done] at kept
  · rename_i after got flowers done
    rw [done] at same
    obtain ⟨c, rfl⟩ := takeCard_some done
    have seven := acts.seven asked
    have players : (after.players p).cards.length = 7 := by
      have hand : after.scene.hand p = 7 := by
        rw [same]
        exact seven.hand p
      exact hand
    refine .waits (.please_playcard p) ?_
    rw [scene_main rfl, scene_radio, scene_deal (u := .waiting) (n := 8) (fun _ => rfl)
      (by simp [players]), same]
    refine Scene.Calm.waits (Scene.Calm.radio ?_) ?_ ?_ ?_
    · exact { acts.calm (u := .waiting) rfl with }
    · exact acts.two.set rfl
    · simp [Task.Resumes, Scene.radio, Scene.deal, Scene.setStatus, acts.turn]
    · exact seven.give

theorem stage_play (stage : Stage b.scene) (p : Chair) (card : Option Ddz.Card) :
    Stage (b.ssw_playcard p card).scene := by
  simp only [Room.ssw_playcard]
  split
  · exact stage
  split
  · exact stage
  rename_i asked
  rw [not_not] at asked
  split
  · exact stage
  split
  · exact stage
  · rename_i card _ held
    rw [not_not] at held
    have put : ∀ b : Room, (b.on_player_playcard card).scene = b.scene := by
      intro b
      simp only [Room.on_player_playcard]
      split
      · rfl
      · rfl
    have acts := stage.acting_only (p := p) (by simp [Room.scene, asked, PlayerState_QQP.acting])
    have eight := acts.eight asked
    have players : (b.players p).cards.length = 8 := eight.holding
    refine .waits (.next_one_take p) ?_
    rw [scene_main rfl, scene_radio, put, scene_deal (u := .waiting) (n := 7) (fun _ => rfl)
      (by simp [List.length_erase_of_mem held, players])]
    refine Scene.Calm.waits (Scene.Calm.radio ?_) ?_ ?_ ?_
    · exact { acts.calm (u := .waiting) rfl with }
    · exact acts.two.set rfl
    · simp [Task.Resumes, Scene.radio, Scene.deal, Scene.setStatus, acts.turn]
    · exact eight.give_up

theorem Scene.Won.answered (won : s.Won w) (prompted : s.status p = .recharging)
    (still : u.still = true) : ((s.setStatus p u).radio m).Won w := by
  have other : w ≠ p := by
    intro same
    exact won.unprompted (same ▸ prompted)
  refine ⟨?_, ?_, fun q => ?_, won.others, won.going, won.sized⟩
  · exact (setStatus_ne other).symm ▸ won.winner
  · exact (setStatus_ne other).symm ▸ won.unprompted
  · by_cases here : q = p
    · exact here ▸ setStatus_self.symm ▸ still_idle still
    · exact (setStatus_ne here).symm ▸ won.idle q

/-- An answer that leaves another player prompted changes nothing else. -/
theorem stage_answered (stage : Stage s) {g : Bool} (prompted : s.status p = .recharging)
    (still : u.still = true) (other : ∃ q, q ≠ p ∧ s.status q = .recharging) :
    Stage ((s.setStatus p u).radio (.giveup p g)) := by
  obtain ⟨q, apart, open_still⟩ := other
  have opened : ((s.setStatus p u).radio (.giveup p g)).Open :=
    .inr ⟨q, (Scene.setStatus_ne apart).trans open_still⟩
  cases stage.prompted prompted with
  | inl settling =>
      obtain ⟨t, c, main, settlement, turn, settles⟩ := settling
      refine .settles t c main settlement ?_ ⟨settles.won.answered prompted still, ?_, ?_⟩
      · simp [Scene.radio, Scene.setStatus, turn]
      · refine ⟨q, fun same => settles.won.unprompted (same ▸ open_still), ?_⟩
        have kept : (s.setStatus p u).status q = .recharging :=
          (Scene.setStatus_ne apart).trans open_still
        simp only [Scene.radio, kept]
        rfl
      · exact ⟨fun _ => opened, fun _ => settles.recharging.mpr (.inr ⟨q, open_still⟩)⟩
  | inr recharging =>
      obtain ⟨w, recharges⟩ := recharging
      refine .recharges w ⟨recharges.won.answered prompted still, recharges.last,
        recharges.main, opened, ?_⟩
      simp [Scene.radio, Scene.setStatus, recharges.turn]

/-- The last answer comes when the win has been paid, and leaves nobody asked. -/
theorem last_answered (stage : Stage s) {g : Bool} (prompted : s.status p = .recharging)
    (still : u.still = true) (last : ∀ q, q ≠ p → s.status q ≠ .recharging)
    (ready : s.Ready p) : ∃ w, s.last = some w ∧ w ≠ p ∧ (s.status w).gameing = true ∧
      ((s.setStatus p u).radio (.giveup p g)).Calm ∧
      ((s.setStatus p u).radio (.giveup p g)).turn = some .due ∧ s.Sized none := by
  obtain ⟨prompts, main_ready⟩ := ready last
  cases stage.prompted prompted with
  | inl settling =>
      obtain ⟨t, c, main, settlement, _, _⟩ := settling
      have none := main_ready t (by simp [main])
      rw [settlement] at none
      cases none
  | inr recharging =>
      obtain ⟨w, recharges⟩ := recharging
      have won := recharges.won
      refine ⟨w, recharges.last, fun same => won.unprompted (same ▸ prompted), won.winner,
        ⟨fun q => ?_, recharges.main, prompts, won.going⟩, ?_, won.sized⟩
      · by_cases here : q = p
        · exact here ▸ Scene.setStatus_self.symm ▸ still
        · exact (Scene.setStatus_ne here).symm ▸ still_of_idle (won.idle q) (last q here)
      · simp [Scene.radio, Scene.setStatus, recharges.turn]

theorem recharging_none : b.getRechargeingNum = 0 ↔ ∀ q, b.scene.status q ≠ .recharging := by
  simp [Room.getRechargeingNum, List.countP_eq_zero, Room.scene]

theorem out_count : b.count_watching_or_exited = b.scene.out := rfl

theorem scene_giveup {g : Bool} :
    ((b.setStatus p u).radio (.giveup p g)).scene =
      (b.scene.setStatus p u).radio (.giveup p g) := by
  rw [scene_radio, scene_setStatus]

theorem stage_giveup (stage : Stage b.scene) (p : Chair)
    (ready : b.scene.status p = .recharging → b.scene.Ready p) :
    Stage (b.ssw_giveup p).scene := by
  have left := @scene_giveup b p .watching true
  have last_one : ((b.setStatus p .watching).radio (.giveup p true)).last_hu_player =
      b.scene.last := rfl
  simp only [Room.ssw_giveup]
  split
  · exact stage
  rename_i prompted
  rw [not_not] at prompted
  by_cases last : ∀ q, q ≠ p → b.scene.status q ≠ .recharging
  · obtain ⟨w, winner, apart, gaming, calm, due, sized⟩ :=
      last_answered (g := true) (u := .watching) stage prompted rfl last (ready prompted)
    rw [← left] at calm due
    have seven : ((b.setStatus p .watching).radio (.giveup p true)).scene.Sized none :=
      left.symm ▸ sized
    have stays : (b.setStatus p .watching |>.radio (.giveup p true)).scene.status w =
        b.scene.status w := by
      rw [left]
      exact Scene.setStatus_ne apart
    split
    · rename_i out
      refine .leaves ?_
      rw [scene_main rfl]
      exact ⟨calm.still, by rw [calm.main, List.nil_append], calm.prompts, calm.going, due, out,
        seven⟩
    · rename_i out
      have two : ((b.setStatus p .watching).radio (.giveup p true)).scene.Two := by
        rw [out_count, Scene.out_alone (stays ▸ gaming)] at out
        push Not at out
        obtain ⟨q, other, rival⟩ := out
        exact .of (stays ▸ gaming) ⟨q, other, Bool.ne_false_iff.mp rival⟩
      rw [if_pos (recharging_none.mpr fun q => still_unprompted (calm.still q)), last_one, winner]
      exact stage_next calm two due seven
  · push Not at last
    obtain ⟨r, apart, still_open⟩ := last
    have kept : ((b.setStatus p .watching).radio (.giveup p true)).scene.status r =
        .recharging := by
      rw [left]
      exact (Scene.setStatus_ne apart).trans still_open
    have answered := stage_answered (g := true) (u := .watching) stage prompted rfl
      ⟨r, apart, still_open⟩
    rw [← left] at answered
    split
    · rename_i out
      obtain ⟨w, won⟩ := answered.won kept
      have gone := (Scene.out_alone won.winner).mp out r fun same => won.unprompted (same ▸ kept)
      rw [kept] at gone
      cases gone
    · rw [if_neg fun none => recharging_none.mp none r kept]
      exact answered

theorem stage_not_giveup (stage : Stage b.scene) (p : Chair)
    (ready : b.scene.status p = .recharging → b.scene.Ready p) :
    Stage (b.ssw_not_giveup p).scene := by
  have back := @scene_giveup b p .waiting false
  have last_one : ((b.setStatus p .waiting).radio (.giveup p false)).last_hu_player =
      b.scene.last := rfl
  simp only [Room.ssw_not_giveup]
  split
  · exact stage
  rename_i prompted
  rw [not_not] at prompted
  by_cases last : ∀ q, q ≠ p → b.scene.status q ≠ .recharging
  · obtain ⟨w, winner, apart, gaming, calm, due, sized⟩ :=
      last_answered (g := false) (u := .waiting) stage prompted rfl last (ready prompted)
    rw [← back] at calm due
    have seven : ((b.setStatus p .waiting).radio (.giveup p false)).scene.Sized none :=
      back.symm ▸ sized
    have two : ((b.setStatus p .waiting).radio (.giveup p false)).scene.Two := by
      rw [back]
      refine .of (p := w) ?_ ⟨p, apart.symm, ?_⟩
      · exact (Scene.setStatus_ne apart).symm ▸ gaming
      · simp only [Scene.radio, Scene.setStatus_self]
        rfl
    rw [if_pos (recharging_none.mpr fun q => still_unprompted (calm.still q)), last_one, winner]
    exact stage_next calm two due seven
  · push Not at last
    obtain ⟨r, apart, still_open⟩ := last
    have kept : ((b.setStatus p .waiting).radio (.giveup p false)).scene.status r =
        .recharging := by
      rw [back]
      exact (Scene.setStatus_ne apart).trans still_open
    rw [if_neg fun none => recharging_none.mp none r kept, back]
    exact stage_answered stage prompted rfl ⟨r, apart, still_open⟩

theorem radio_neutral (neutral : ∀ t : Turn, t.next m = some t) : s.radio m = s := by
  have same : (fun t : Turn => t.next m) = some := funext neutral
  simp [Scene.radio, same]

/-- Whoever exits has left the game before. -/
theorem Stage.exited (stage : Stage s) (watching : s.status p = .watching) :
    Stage (s.setStatus p .exited) := by
  have like : ∀ {α : Type} (f : PlayerState_QQP → α), f .watching = f .exited →
      ∀ q, f ((s.setStatus p .exited).status q) = f (s.status q) := by
    intro α f same q
    by_cases here : q = p
    · rw [here, Scene.setStatus_self, watching, same]
    · rw [Scene.setStatus_ne here]
  have acting := like PlayerState_QQP.acting rfl
  have gaming := like PlayerState_QQP.gameing rfl
  have still := like PlayerState_QQP.still rfl
  have prompted := like (fun status => decide (status = .recharging)) rfl
  simp only [decide_eq_decide] at prompted
  have two : s.Two → (s.setStatus p .exited).Two := by
    simp only [Scene.Two, gaming]
    exact id
  have out : (s.setStatus p .exited).out = s.out := by simp only [Scene.out, gaming]
  have opened : (s.setStatus p .exited).Open ↔ s.Open := by
    simp only [Scene.Open, prompted]
    rfl
  have won : ∀ {w}, s.Won w → (s.setStatus p .exited).Won w := fun {w} won =>
    ⟨gaming w ▸ won.winner, fun is => won.unprompted ((prompted w).mp is),
      fun q => acting q ▸ won.idle q, won.others, won.going, won.sized⟩
  have playing := like (fun status => decide (status = .playing)) rfl
  simp only [decide_eq_decide] at playing
  cases stage with
  | acts q acts =>
      exact .acts q ⟨acting q ▸ acts.acting, fun r other => still r ▸ acts.alone r other,
        two acts.two, acts.main, acts.prompts, acts.going, acts.turn, by
          simp only [playing q]
          exact acts.sized⟩
  | waits t waits =>
      exact .waits t ⟨fun q => still q ▸ waits.still q, two waits.two, waits.main,
        waits.prompts, waits.going, waits.resumes, waits.sized⟩
  | settles t c main settlement turn settles =>
      obtain ⟨q, other, rival⟩ := settles.rival
      exact .settles t c main settlement turn ⟨won settles.won, ⟨q, other, gaming q ▸ rival⟩,
        settles.recharging.trans opened.symm⟩
  | recharges w recharges =>
      exact .recharges w ⟨won recharges.won, recharges.last, recharges.main,
        opened.mpr recharges.opened, recharges.turn⟩
  | leaves leaves =>
      exact .leaves ⟨fun q => still q ▸ leaves.still q, leaves.main, leaves.prompts,
        leaves.going, leaves.turn, out.trans leaves.out, leaves.sized⟩
  | ends called ends =>
      exact .ends called ⟨fun q => still q ▸ ends.still q, ends.main, ends.prompts,
        ends.ended, ends.turn, ends.dry, fun uncalled => out.trans (ends.out uncalled), ends.sized⟩

theorem stage_exit (stage : Stage b.scene) (p : Chair) : Stage (b.ssw_exit p).scene := by
  have neutral : ∀ overInfo (t : Turn), t.next (.exit p overInfo) = some t := by
    intro overInfo t
    cases t with
    | _ => rfl
  simp only [Room.ssw_exit]
  split
  · exact stage
  rename_i watching
  rw [not_not] at watching
  split
  · rw [scene_setStatus, scene_radio, radio_neutral (neutral _)]
    exact stage.exited watching
  · rw [scene_setStatus, scene_radio, radio_neutral (neutral _)]
    exact Stage.exited (s := b.scene) stage watching

theorem Scene.Won.prompted {ps : List Chair} (won : s.Won w) (other : w ≠ p)
    (fewer : ∀ q ∈ ps, q ∈ s.prompts) :
    ((Scene.setStatus { s with prompts := ps } p .recharging).radio m).Won w := by
  refine ⟨?_, ?_, fun q => ?_, fun mem => won.others (fewer w mem), won.going, won.sized⟩
  · exact (setStatus_ne other).symm ▸ won.winner
  · exact (setStatus_ne other).symm ▸ won.unprompted
  · by_cases here : q = p
    · exact here ▸ setStatus_self.symm ▸ rfl
    · exact (setStatus_ne here).symm ▸ won.idle q

/-- A prompt, when it wakes or is sent once more. -/
theorem stage_prompted {ps : List Chair} {goldBrokeLast : Int} (stage : Stage s)
    (due : p ∈ s.prompts ∨ s.status p = .recharging) (fewer : ∀ q ∈ ps, q ∈ s.prompts) :
    Stage ((Scene.setStatus { s with prompts := ps } p .recharging).radio
      (.please_recharge p goldBrokeLast)) := by
  have before : s.Open := by
    cases due with
    | inl forked => exact .inl (List.ne_nil_of_mem forked)
    | inr prompted => exact .inr ⟨p, prompted⟩
  have after : ((Scene.setStatus { s with prompts := ps } p .recharging).radio
      (.please_recharge p goldBrokeLast)).Open := .inr ⟨p, Scene.setStatus_self⟩
  have other : ∀ {w}, s.Won w → w ≠ p := by
    intro w won same
    cases due with
    | inl forked => exact won.others (same ▸ forked)
    | inr prompted => exact won.unprompted (same ▸ prompted)
  cases stage.opened before with
  | inl settling =>
      obtain ⟨t, c, main, settlement, turn, settles⟩ := settling
      refine .settles t c main settlement ?_
        ⟨settles.won.prompted (other settles.won) fewer, ?_, ?_⟩
      · simp [Scene.radio, Scene.setStatus, turn]
      · refine ⟨p, (other settles.won).symm, ?_⟩
        simp only [Scene.radio, Scene.setStatus_self]
        rfl
      · exact ⟨fun _ => after, fun _ => settles.recharging.mpr before⟩
  | inr recharging =>
      obtain ⟨w, recharges⟩ := recharging
      refine .recharges w ⟨recharges.won.prompted (other recharges.won) fewer, recharges.last,
        recharges.main, after, ?_⟩
      simp [Scene.radio, Scene.setStatus, recharges.turn]

theorem stage_order (stage : Stage b.scene) (p : Chair) : Stage (b.player_order p).scene := by
  simp only [Room.player_order]
  split
  · rename_i order
    obtain ⟨goldBrokeLast, prompt⟩ := @scene_recharge (b.modify p fun pl => { pl with
      delay_map := pl.delay_map ++ [pl.count_bankrupt] }) p
    rw [prompt, scene_modify (f := fun pl => { pl with
      delay_map := pl.delay_map ++ [pl.count_bankrupt] }) (fun _ => rfl) fun _ => rfl]
    exact stage_prompted stage (.inr order.1) fun _ mem => mem
  · exact stage

theorem scene_setGold {gold : Int} : (b.setGold p gold).scene = b.scene :=
  scene_modify (f := fun pl => { pl with gold := gold }) (fun _ => rfl) fun _ => rfl

theorem stage_sync (stage : Stage b.scene) (p : Chair) (num : Nat)
    (ready : 0 < num → b.scene.status p = .recharging → b.scene.Ready p) :
    Stage (b.SyncRoomData p num).scene := by
  have neutral : ∀ t : Turn, t.next (.sync_player_gold p num) = some t := by
    intro t
    cases t with
    | _ => rfl
  have told : ((b.setGold p num).radio (.sync_player_gold p num)).scene = b.scene := by
    rw [scene_radio, scene_setGold, radio_neutral neutral]
  simp only [Room.SyncRoomData]
  split
  · rename_i recharged
    refine stage_not_giveup (told ▸ stage) p fun prompted => ?_
    rw [told] at prompted ⊢
    refine ready ?_ prompted
    have gold : (((b.setGold p num).radio (.sync_player_gold p num)).players p).gold = num := by
      simp [Room.radio, Room.setGold, Room.modify]
    rw [gold] at recharged
    exact Int.natCast_pos.mp recharged.2
  · exact told ▸ stage

theorem add_gold_neutral (p : Chair) (num : Int) (t : Turn) :
    t.next (.add_gold p num) = some t := by
  cases t with
  | _ => rfl

/-- A charge may fork one prompt, and says so. -/
theorem scene_charged (b : Room) (c : Checkout) (q : Chair) (goldLost : Int) :
    ∃ forked : Bool,
      (b.charged c q goldLost).1.scene =
        { b.scene with prompts := b.scene.prompts ++ if forked = true then [q] else [] } ∧
      (b.charged c q goldLost).2.recharging = (c.recharging || forked) ∧
      (b.charged c q goldLost).2.winner = c.winner := by
  have taken : ∀ gold, ((b.radio (.add_gold q (-goldLost))).setGold q gold).scene = b.scene := by
    intro gold
    rw [scene_setGold, scene_radio, radio_neutral (add_gold_neutral q _)]
  have broke : ∀ gold, (((b.radio (.add_gold q (-goldLost))).setGold q gold).modify q fun pl =>
      { pl with count_bankrupt := pl.count_bankrupt + 1 }).scene = b.scene := by
    intro gold
    rw [← taken gold]
    exact scene_modify (fun _ => rfl) fun _ => rfl
  simp only [Room.charged]
  refine ⟨_, ?_, rfl, trivial⟩
  split
  · split
    · rw [scene_prompt, broke]
    · rw [scene_prompt, taken]
  · split
    · rw [broke, List.append_nil]
    · rw [taken, List.append_nil]

theorem Scene.Settles.keep {r : Scene} (settles : s.Settles c) (status : r.status = s.status)
    (prompts : r.prompts = s.prompts) (ended : r.ended = s.ended) (hand : r.hand = s.hand) :
    r.Settles c := by
  have won := settles.won
  refine ⟨⟨?_, ?_, ?_, ?_, ended.trans won.going, ?_⟩, ?_, ?_⟩
  · exact status ▸ won.winner
  · exact status ▸ won.unprompted
  · exact status ▸ won.idle
  · exact prompts ▸ won.others
  · exact fun q => hand ▸ won.sized q
  · exact status ▸ settles.rival
  · rw [Scene.Open, status, prompts]
    exact settles.recharging

theorem Scene.Settles.charged {forked : Bool} {d : Checkout} (settles : s.Settles c)
    (other : q ≠ c.winner) (winner : d.winner = c.winner)
    (recharging : d.recharging = (c.recharging || forked)) :
    Scene.Settles { s with prompts := s.prompts ++ if forked = true then [q] else [] } d := by
  have won := settles.won
  cases forked with
  | false =>
      rw [Bool.or_false] at recharging
      refine ⟨⟨?_, ?_, won.idle, ?_, won.going, won.sized⟩, ?_, ?_⟩
      · exact winner ▸ won.winner
      · exact winner ▸ won.unprompted
      · simpa [winner] using won.others
      · exact winner ▸ settles.rival
      · simpa [recharging, Open] using settles.recharging
  | true =>
      refine ⟨⟨?_, ?_, won.idle, ?_, won.going, won.sized⟩, ?_, ?_⟩
      · exact winner ▸ won.winner
      · exact winner ▸ won.unprompted
      · simp only [winner, if_true, List.mem_append, List.mem_singleton, not_or]
        exact ⟨won.others, other.symm⟩
      · exact winner ▸ settles.rival
      · simp [recharging, Open]

/-- A paid win passes the turn on, or waits for the answers of those it left with nothing. -/
theorem stage_paid (settles : b.scene.Settles c) (main : b.scene.main = [])
    (turn : b.scene.turn = some .settling) : Stage (b.paid c).scene := by
  have won := settles.won
  have given : ∀ gold, ((b.radio (.add_gold c.winner c.goldWin)).setGold c.winner gold).scene =
      b.scene := by
    intro gold
    rw [scene_setGold, scene_radio, radio_neutral (add_gold_neutral _ _)]
  have hu : ∀ (a : Room) (bills : List Bill), a.scene = b.scene → ({ a with
      last_hu_player := some c.winner
      all_bills := a.all_bills ++ bills }.radio (.hu c.winner bills)).scene =
      Scene.radio { b.scene with last := some c.winner } (.hu c.winner bills) := by
    intro a bills same
    rw [scene_radio, ← same]
    rfl
  simp only [Room.paid]
  split
  · rename_i recharging
    refine .recharges c.winner ?_
    rw [hu _ _ (given _)]
    refine ⟨⟨won.winner, won.unprompted, won.idle, won.others, won.going, won.sized⟩, rfl, main,
      settles.recharging.mp recharging, ?_⟩
    simp [Scene.radio, turn]
  · rename_i settled
    rw [settles.recharging, Scene.Open, not_or, not_not, not_exists] at settled
    refine .waits (.next_one_take c.winner) ?_
    rw [scene_main rfl, hu _ _ (given _)]
    refine ⟨fun q => still_of_idle (won.idle q) (settled.2 q), .of won.winner settles.rival,
      ?_, settled.1, won.going, ?_, won.sized⟩
    · simp [Scene.radio, main]
    · simp [Task.Resumes, Scene.radio, turn]

/-- A settlement stays one from each answer of an agent to the next call. -/
theorem stage_checkout {rest : List Chair} (books : Books conf users b c.bills)
    (ok : c.Ok conf users) (settles : b.scene.Settles c) (main : b.scene.main = [])
    (turn : b.scene.turn = some .settling ∨ b.scene.turn = some .asked ∧
      ∃ q ∈ rest, q ≠ c.winner ∧ (b.players q).gameing = true) :
    Stage (b.checkout_and_bills c rest).scene := by
  induction rest generalizing b c with
  | nil =>
      have settling : b.scene.turn = some .settling := by
        cases turn with
        | inl settling => exact settling
        | inr asked =>
            obtain ⟨_, q, mem, _⟩ := asked
            exact absurd mem List.not_mem_nil
      have owned := books.nonneg c.winner
      have won := ok.goldWin
      simp only [Room.checkout_and_bills]
      split
      · omega
      split
      · exact stage_paid settles main settling
      · refine .settles (.pay c) c ?_ rfl ?_ ?_
        · rw [scene_main rfl, main, List.nil_append]
        · rwa [scene_main rfl]
        · rw [scene_main rfl]
          exact settles.keep rfl rfl rfl rfl
  | cons q rest ih =>
      simp only [Room.checkout_and_bills]
      split
      · rename_i gaming
        have lost : 0 ≤ min (b.players q).gold c.winGoldMax :=
          le_min (books.nonneg q) ok.limit_nonneg
        have told := charge_told books ok gaming.1 gaming.2
        have scene := @scene_radio b (.charge c q (min (b.players q).gold c.winGoldMax)
          (b.players q).gold (b.players q).gameing)
        have settling : (b.radio (.charge c q (min (b.players q).gold c.winGoldMax)
            (b.players q).gold (b.players q).gameing)).scene.turn = some .settling := by
          rw [scene]
          cases turn with
          | inl settling => simp [Scene.radio, settling]
          | inr asked => simp [Scene.radio, asked.1]
        have still : (b.radio (.charge c q (min (b.players q).gold c.winGoldMax)
            (b.players q).gold (b.players q).gameing)).scene.Settles c := by
          rw [scene]
          exact settles.keep rfl rfl rfl rfl
        split
        · have charged := charged_ok told ok gaming.1 lost fun _ => min_le_left _ _
          obtain ⟨forked, after, recharging, winner⟩ := scene_charged (b.radio (.charge c q
            (min (b.players q).gold c.winGoldMax) (b.players q).gold
            (b.players q).gameing)) c q (min (b.players q).gold c.winGoldMax)
          refine ih charged.1 charged.2 ?_ ?_ (.inl ?_)
          · rw [after]
            exact still.charged gaming.1 winner recharging
          · rw [after]
            exact main
          · rwa [after]
        · refine .settles (.charge c q (min (b.players q).gold c.winGoldMax) rest) c ?_ rfl ?_ ?_
          · rw [scene_main rfl]
            exact congrArg (· ++ _) main
          · rwa [scene_main rfl]
          · rw [scene_main rfl]
            exact still.keep rfl rfl rfl rfl
      · rename_i skipped
        refine ih books ok settles main ?_
        cases turn with
        | inl settling => exact .inl settling
        | inr asked =>
            obtain ⟨asked, r, mem, gaming⟩ := asked
            refine .inr ⟨asked, r, ?_, gaming⟩
            cases List.mem_cons.mp mem with
            | inl here => exact absurd (here ▸ gaming) skipped
            | inr later => exact later

/-- The answer of a charged agent. -/
theorem stage_charged {goldLost : Int} {rest : List Chair} (books : Books conf users b c.bills)
    (ok : c.Ok conf users) (other : q ≠ c.winner) (lost : 0 ≤ goldLost)
    (covered : (b.players q).robot = true → goldLost ≤ (b.players q).gold)
    (settles : b.scene.Settles c) (main : b.scene.main = [])
    (turn : b.scene.turn = some .settling) :
    Stage ((b.charged c q goldLost).1.checkout_and_bills (b.charged c q goldLost).2 rest).scene := by
  have charged := charged_ok books ok other lost covered
  obtain ⟨forked, after, recharging, winner⟩ := scene_charged b c q goldLost
  refine stage_checkout charged.1 charged.2 ?_ ?_ (.inl ?_)
  · rw [after]
    exact settles.charged other winner recharging
  · rwa [after]
  · rwa [after]

theorem scene_marked : (b.marked p).scene = b.scene := scene_modify (fun _ => rfl) fun _ => rfl

theorem scene_laid (eight : (b.players p).cards.length = 8) :
    (b.laid p).scene = (b.scene.setStatus p .waiting).deal p 7 := by
  have kept : ((b.marked p).players p).cards = (b.players p).cards := by
    simp [Room.marked, Room.modify]
  rw [Room.laid, scene_deal (u := .waiting) (n := 7) (fun _ => rfl) (by simp [kept, eight]),
    scene_marked]

theorem stage_hu (books : Books conf users b []) (stage : Stage b.scene) (p : Chair) :
    Stage (b.ssw_hu conf p).scene := by
  obtain same | same | ⟨c, playing, _, starts, done⟩ := @ssw_hu_cases conf b p
  · rwa [same]
  · rw [same, scene_marked]
    exact stage
  · have before := books.of_same (sameBooks_laid b p)
    have acts := stage.acting_only (p := p) (by simp [Room.scene, playing, PlayerState_QQP.acting])
    have eight := acts.eight playing
    have calm := acts.calm (u := .waiting) rfl
    have laid : (b.laid p).scene = (b.scene.setStatus p .waiting).deal p 7 :=
      scene_laid eight.holding
    obtain ⟨q, other, rival⟩ := acts.two.other p
    have stays : (b.laid p).scene.status q = b.scene.status q := by
      rw [laid]
      exact Scene.setStatus_ne other
    have waits : (b.laid p).scene.status p = .waiting := by
      rw [laid]
      exact Scene.setStatus_self
    have gaming : ((b.laid p).scene.status q).gameing = true := stays ▸ rival
    rw [done]
    refine stage_checkout ?_ (hu_ok before starts) ⟨⟨?_, ?_, ?_, ?_, ?_, ?_⟩, ?_, ?_⟩ ?_
      (.inr ⟨?_, q, List.mem_finRange q, starts.winner ▸ other, gaming⟩)
    · rwa [starts.bills]
    · rw [starts.winner, waits]
      rfl
    · rw [starts.winner, waits]
      nofun
    · rw [laid]
      exact fun r => still_idle (calm.still r)
    · rw [laid]
      exact calm.prompts ▸ List.not_mem_nil
    · rw [laid]
      exact calm.going
    · rw [laid]
      exact eight.give_up
    · exact ⟨q, starts.winner ▸ other, gaming⟩
    · have closed : ¬(b.laid p).scene.Open := by
        rw [laid, Scene.Open, not_or, not_not, not_exists]
        exact ⟨calm.prompts, fun r => still_unprompted (calm.still r)⟩
      rw [starts.recharging]
      exact ⟨nofun, fun opened => absurd opened closed⟩
    · rw [laid]
      exact calm.main
    · rw [laid]
      exact acts.turn

/-- The task that takes the game on is the only one, and the stage says which it is. -/
theorem Stage.taken_up {i : Nat} (stage : Stage b.scene) (found : b.tasks[i]? = some t)
    (main : t.isMain = true) :
    ({ b with tasks := b.tasks.eraseIdx i } : Room).scene = { b.scene with main := [] } ∧
      (b.scene.Waits t ∨
        (∃ c, t.settlement = some c ∧ b.scene.turn = some .settling ∧ b.scene.Settles c) ∨
        t = .gameover ∧ b.scene.Leaves) := by
  have mem : t ∈ b.scene.main := List.mem_filter.mpr ⟨List.mem_of_getElem? found, main⟩
  cases stage with
  | acts p acts =>
      rw [acts.main] at mem
      exact absurd mem List.not_mem_nil
  | waits u waits =>
      obtain ⟨rfl, dropped⟩ := scene_drop_main found main waits.main
      exact ⟨dropped, .inl waits⟩
  | settles u c only settlement turn settles =>
      obtain ⟨rfl, dropped⟩ := scene_drop_main found main only
      exact ⟨dropped, .inr (.inl ⟨c, settlement, turn, settles⟩)⟩
  | recharges w recharges =>
      rw [recharges.main] at mem
      exact absurd mem List.not_mem_nil
  | leaves leaves =>
      obtain ⟨rfl, dropped⟩ := scene_drop_main found main leaves.main
      exact ⟨dropped, .inr (.inr ⟨rfl, leaves⟩)⟩
  | ends called ends =>
      rw [ends.main] at mem
      exact absurd mem List.not_mem_nil

/-- A task that asks somebody leaves nothing behind when it is taken up. -/
theorem Stage.resumed {i : Nat} (stage : Stage b.scene) (found : b.tasks[i]? = some t)
    (main : t.isMain = true) (plain : t.settlement = none) (going : t ≠ .gameover) :
    ({ b with tasks := b.tasks.eraseIdx i } : Room).scene.Calm ∧ b.scene.Two ∧
      t.Resumes b.scene.turn ∧ b.scene.Sized t.holder := by
  obtain ⟨dropped, waits | ⟨c, settlement, _⟩ | ⟨last, _⟩⟩ := stage.taken_up found main
  · exact ⟨dropped ▸ waits.calm, waits.two, waits.resumes, waits.sized⟩
  · rw [plain] at settlement
    cases settlement
  · exact absurd last going

theorem stage_taken (calm : b.scene.Calm) (two : b.scene.Two) (asked : b.scene.turn = some .asked)
    (eight : b.scene.Sized (some p)) : Stage (b.taken p).scene := by
  have players : (b.players p).cards.length = 8 := eight.holding
  rw [Room.taken, if_neg (by simp [players])]
  refine .acts p ?_
  rw [Room.please_playcard, scene_radio, scene_setStatus]
  have acts := calm.acts (p := p) (u := .playing) two asked rfl eight
  exact { acts with turn := by simp [Scene.radio, Scene.setStatus, asked] }

theorem stage_realstart (calm : b.scene.Calm) (two : b.scene.Two)
    (asked : b.scene.turn = some .asked) (sized : b.scene.Sized none) :
    Stage b.realstart.scene := by
  refine .acts b.first_one ?_
  rw [Room.realstart, scene_please_takecard]
  have started : ({ b with status := .takeCard } : Room).scene.Calm :=
    ⟨calm.still, calm.main, calm.prompts, rfl⟩
  have acts := started.acts (p := b.first_one) (u := .takeing) two asked rfl sized
  have same : ({ b with status := .takeCard } : Room).scene.turn = some .asked := asked
  exact { acts with turn := by simp [Scene.radio, Scene.setStatus, same] }

/-- A task that wakes. -/
theorem stage_task {i : Nat} (books : Books conf users b []) (stage : Stage b.scene)
    (found : b.tasks[i]? = some t)
    (ready : ∀ p, t = .ssw_giveup p → b.scene.status p = .recharging → b.scene.Ready p) :
    Stage (({ b with tasks := b.tasks.eraseIdx i } : Room).runTask t).scene := by
  have left := eraseIdx_task found books
  have ok := books.running t (List.mem_of_getElem? found)
  cases t with
  | realstart =>
      obtain ⟨calm, two, turn, sized⟩ := stage.resumed found rfl rfl nofun
      exact stage_realstart calm two turn sized
  | please_playcard p =>
      obtain ⟨calm, two, turn, sized⟩ := stage.resumed found rfl rfl nofun
      exact stage_taken calm two turn sized
  | next_one_take p =>
      obtain ⟨calm, two, turn, sized⟩ := stage.resumed found rfl rfl nofun
      exact stage_next calm two turn sized
  | gameover =>
      obtain ⟨dropped, waits | ⟨c, settlement, _⟩ | ⟨_, leaves⟩⟩ := stage.taken_up found rfl
      · exact absurd waits.resumes id
      · cases settlement
      · refine .ends false ?_
        rw [Room.runTask, scene_gameover, dropped]
        exact ⟨leaves.still, rfl, leaves.prompts, rfl,
          by simp [Scene.radio, leaves.turn], nofun, fun _ => leaves.out, leaves.sized⟩
  | charge c q goldLost rest =>
      obtain ⟨ok, other, lost, user⟩ := ok
      obtain ⟨dropped, waits | ⟨d, settlement, turn, settles⟩ | ⟨last, _⟩⟩ :=
        stage.taken_up found rfl
      · exact absurd waits.resumes id
      · obtain rfl := Option.some.inj settlement
        have settling := settles.keep (r := { b.scene with main := [] }) rfl rfl rfl rfl
        refine stage_charged left ok other lost (fun robot => ?_) (dropped ▸ settling)
          (dropped ▸ rfl) (dropped ▸ turn)
        rw [(left.user q).2, user] at robot
        cases robot
      · cases last
  | pay c =>
      obtain ⟨dropped, waits | ⟨d, settlement, turn, settles⟩ | ⟨last, _⟩⟩ :=
        stage.taken_up found rfl
      · exact absurd waits.resumes id
      · obtain rfl := Option.some.inj settlement
        have settling := settles.keep (r := { b.scene with main := [] }) rfl rfl rfl rfl
        exact stage_paid (dropped ▸ settling) (dropped ▸ rfl) (dropped ▸ turn)
      · cases last
  | please_recharge p =>
      obtain ⟨due, ps, fewer, dropped⟩ := scene_drop_prompt found
      obtain ⟨goldBrokeLast, prompt⟩ :=
        @scene_recharge ({ b with tasks := b.tasks.eraseIdx i } : Room) p
      rw [Room.runTask, prompt, dropped]
      exact stage_prompted stage (.inl due) fewer
  | ssw_giveup p =>
      have dropped := scene_drop_stale found
      refine stage_giveup (dropped ▸ stage) p ?_
      rw [dropped]
      exact ready p rfl

/-- The player whose answer to a prompt an event is, if he has one open. -/
def Event.answers (b : Room) : Event → Option Chair
  | .ssw_giveup p | .ssw_not_giveup p => some p
  | .trusteeship p => if (b.players p).is_trusteeship then none else some p
  | .trusteeshipAction p => if (b.players p).is_trusteeship then some p else none
  | .SyncRoomData p num => if 0 < num then some p else none
  | .resume i => (b.tasks[i]?).bind fun
      | .ssw_giveup p => some p
      | _ => none
  | _ => none

/-- The last prompted player does not answer before all the prompts of the win have been
sent and the win has been paid. -/
def Unhurried (b : Room) (e : Event) : Prop :=
  ∀ p ∈ e.answers b, (b.players p).status = .recharging →
    (∀ q, q ≠ p → (b.players q).status ≠ .recharging) →
      ∀ t ∈ b.tasks, t.isCheckout = false ∧ t.prompted = none

instance (b : Room) (e : Event) : Decidable (Unhurried b e) :=
  inferInstanceAs (Decidable (∀ p ∈ e.answers b, (b.players p).status = .recharging →
    (∀ q, q ≠ p → (b.players q).status ≠ .recharging) →
      ∀ t ∈ b.tasks, t.isCheckout = false ∧ t.prompted = none))

theorem Unhurried.ready {e : Event} (guard : Unhurried b e) (answers : e.answers b = some p)
    (prompted : b.scene.status p = .recharging) : b.scene.Ready p := by
  intro last
  have none := guard p answers prompted last
  refine ⟨?_, fun t mem => ?_⟩
  · rw [Room.scene, List.filterMap_eq_nil_iff]
    exact fun t mem => (none t mem).2
  · have plain := (none t (List.mem_filter.mp mem).1).1
    cases t with
    | charge c q goldLost rest => cases plain
    | pay c => cases plain
    | _ => rfl

theorem stage_trusteeshipAction (books : Books conf users b []) (stage : Stage b.scene)
    (p : Chair) (ready : b.scene.status p = .recharging → b.scene.Ready p) :
    Stage (b.trusteeshipAction conf p).scene := by
  simp only [Room.trusteeshipAction]
  split
  · simp only [Room.auto_take]
    split
    · exact stage_take stage p false _
    · exact stage_take stage p true none
  · simp only [Room.auto_play]
    split
    · exact stage
    · exact stage_hu books stage p
    · exact stage_play stage p _
  · exact stage_giveup stage p ready
  · exact stage

/-- No event but a hurried answer leaves the six stages. -/
theorem stage_step {e : Event} (books : Books conf users b []) (stage : Stage b.scene)
    (guard : Unhurried b e) (moved : b.step conf e = some b') : Stage b'.scene := by
  have ready := fun {p} (answers : e.answers b = some p) => guard.ready answers
  cases step_cases moved with
  | inl resumed =>
      obtain ⟨i, t, rfl, found, rfl⟩ := resumed
      refine stage_task books stage found fun p task => ready ?_
      simp [Event.answers, found, task]
  | inr answered =>
      obtain ⟨_, rfl⟩ := answered
      cases e with
      | ssw_takecard p from_pool card => exact stage_take stage p from_pool card
      | ssw_playcard p card => exact stage_play stage p card
      | ssw_hu p => exact stage_hu books stage p
      | ssw_giveup p => exact stage_giveup stage p (ready rfl)
      | ssw_not_giveup p => exact stage_not_giveup stage p (ready rfl)
      | ssw_exit p => exact stage_exit stage p
      | trusteeship p =>
          simp only [Room.answer, Room.trusteeship]
          split
          · exact stage
          · rename_i manual
            have same : (b.modify p fun pl => { pl with is_trusteeship := true }).scene = b.scene :=
              scene_modify (fun _ => rfl) fun _ => rfl
            have kept := books.of_same (Quiet.refl.setTrusteeship p true).books
            refine stage_trusteeshipAction kept (same ▸ stage) p ?_
            rw [same]
            exact ready (if_neg manual)
      | cancel_trusteeship p =>
          have same : (b.modify p fun pl => { pl with is_trusteeship := false }).scene = b.scene :=
            scene_modify (fun _ => rfl) fun _ => rfl
          exact same ▸ stage
      | trusteeshipAction p =>
          simp only [Room.answer]
          split
          · rename_i automatic
            exact stage_trusteeshipAction books stage p (ready (if_pos automatic))
          · exact stage
      | SyncRoomData p num => exact stage_sync stage p num fun some => ready (if_pos some)
      | player_order p => exact stage_order stage p
      | resume i => exact stage

theorem run_stage {hands : Chair → List Ddz.Card} {cards : List Ddz.Card} {first_one : Chair}
    {es : List Event} (seven : ∀ p, ((hands p).filter fun card => !is_flower card).length = 7)
    (run : Run (Room.step conf) Unhurried (.gamestart users hands cards first_one) es b) :
    Stage b.scene := by
  suffices both : Books conf users b [] ∧ Stage b.scene from both.2
  apply run.invariant fun b => Books conf users b [] ∧ Stage b.scene
  · have start : Run (Room.step conf) Unhurried (.gamestart users hands cards first_one) [] _ :=
      .refl
    refine ⟨run_books start, .waits .realstart ⟨fun _ => rfl, ?_, rfl, rfl, rfl, rfl, seven⟩⟩
    exact ⟨0, 1, by decide, rfl, rfl⟩
  · exact fun _ _ _ both guard moved =>
      ⟨books_step both.1 moved, stage_step both.1 both.2 guard moved⟩

end Stages

end HuluLandlord.SevenSparrow
