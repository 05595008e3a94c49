import HuluLandlord.Ddz.Bidding

/-!
The playing phase. Its moves are read off the record; `Legal` says which series of
moves the rules allow. The room decides by the player of the last non-pass move
whether the next one leads; after at most two passes in a row that player is the one
to move exactly when he leads.
-/
namespace HuluLandlord.Ddz
open Transition

/-- The player to move after `n` moves. -/
def turn (l : Seat) : Nat → Seat
  | 0 => l
  | n + 1 => turn l n + 1

/-- The passes since the last play; moves are listed newest first. -/
def passes (moves : List (Seat × Option PlayCardObj)) : Nat :=
  (moves.takeWhile fun move => move.2.isNone).length

/-- The next move is the first one or follows two passes. -/
def Leading (moves : List (Seat × Option PlayCardObj)) : Prop := moves = [] ∨ 2 ≤ passes moves

def lastPlay (moves : List (Seat × Option PlayCardObj)) : Option (Seat × PlayCardObj) :=
  moves.findSome? fun move => move.2.map fun play => (move.1, play)

def Legal (l : Seat) : List (Seat × Option PlayCardObj) → Prop
  | [] => True
  | (p, move) :: older => Legal l older ∧ p = turn l older.length ∧
      match move with
      | none => ¬Leading older
      | some play => ¬Leading older → ∃ last, lastPlay older = some last ∧
          compareCardType play last.2 = .ok true

/-- The play state of the player to move. -/
def turnState (moves : List (Seat × Option PlayCardObj)) : PlayCardState :=
  if moves = [] then .first else if 2 ≤ passes moves then .play else .normal

section Rules
variable {l : Seat} {moves : List (Seat × Option PlayCardObj)}

/-- A legal series that has begun has a last play, at most two moves ago. -/
theorem legal_last (legal : Legal l moves) (begun : moves ≠ []) :
    ∃ k last, lastPlay moves = some last ∧ moves.length = k + 1 + passes moves ∧
      last.1 = turn l k ∧ passes moves ≤ 2 := by
  induction moves with
  | nil => exact absurd rfl begun
  | cons move older ih =>
      obtain ⟨p, move⟩ := move
      obtain ⟨legal, here, rule⟩ := legal
      cases move with
      | some play =>
          exact ⟨older.length, (p, play), by simp [lastPlay], by simp [passes], here, by
            simp [passes]⟩
      | none =>
          have begun : older ≠ [] := fun empty => rule (.inl empty)
          have few : ¬2 ≤ passes older := fun many => rule (.inr many)
          obtain ⟨k, last, found, length, seat, _⟩ := ih legal begun
          have more : passes ((p, none) :: older) = passes older + 1 := by simp [passes]
          refine ⟨k, last, ?_, ?_, seat, ?_⟩
          · rw [← found]
            simp [lastPlay]
          · rw [more, List.length_cons, length, ← Nat.add_assoc]
          · omega

theorem turn_two_ne (p : Seat) : p + 1 + 1 ≠ p := by decide +revert

theorem turn_three (p : Seat) : p + 1 + 1 + 1 = p := by decide +revert

/-- The rule the room uses: the player of the last play leads again. -/
theorem playCardStateAfter_eq {c : Room} {last : LastPlay} (legal : Legal l moves)
    (found : c.lastPlayCardObj = some last)
    (same : c.lastPlayCardObj.map (fun last => (last.id, last.playCardObj)) = lastPlay moves) :
    Room.playCardStateAfter last (turn l moves.length) = turnState moves := by
  rw [found] at same
  have begun : moves ≠ [] := by
    intro empty
    rw [empty] at same
    cases same
  obtain ⟨k, play, lastly, length, seat, few⟩ := legal_last legal begun
  rw [lastly] at same
  obtain rfl := Option.some.inj same
  simp only at seat
  rw [Room.playCardStateAfter, turnState, if_neg begun, length, seat]
  generalize passes moves = n at few
  match n, few with
  | 0, _ => exact if_neg (Seat.next_ne (turn l k))
  | 1, _ => exact if_neg (turn_two_ne (turn l k))
  | 2, _ => exact if_pos (turn_three (turn l k))

theorem turnState_normal : turnState moves = .normal ↔ ¬Leading moves := by
  rw [turnState, Leading]
  by_cases empty : moves = []
  · simp [empty]
  · by_cases many : 2 ≤ passes moves
    · simp [empty, many]
    · simp [empty, many]

end Rules

section Checks
variable {conf : Conf} {e : Event} {d : Draws} {c : Room} {p : Seat} {params : PlayParams}
  {play : PlayCardObj} {move : Option PlayCardObj}

theorem playCardCheck_pass (checked : c.playCardCheck p params = .ok none) :
    (c.players p).playCardState = .normal := by
  simp only [Room.playCardCheck] at checked
  split at checked
  · cases checked
  split at checked
  · split at checked
    · cases checked
    · rename_i normal
      exact not_not.mp normal
  · split at checked
    · cases checked
    · split at checked
      · cases checked
      · split at checked
        · cases checked
        · cases checked
  · cases checked

/-- What an accepted list of cards has passed. -/
structure Accepted (c : Room) (p : Seat) (play : PlayCardObj) : Prop where
  parsed : ∃ arr, parseCardType play.cards = .ok arr ∧
    (⟨play.type, play.weight, play.subtype⟩ : CardTypeObj) ∈ arr
  owned : ∀ card ∈ play.cards, low card ∈ (c.players p).cards
  bigger : (c.players p).playCardState = .normal →
    ∃ last, c.lastPlayCardObj = some last ∧ compareCardType play last.playCardObj = .ok true

theorem assertLua_ok {holds : Bool} {u : Unit} (ok : assertLua holds = .ok u) : holds = true := by
  cases holds with
  | true => rfl
  | false => cases ok

theorem checkPlay_ok {type : Option CardType} {cards : List Card}
    (ok : c.checkPlay p type cards = .ok play) : play.cards = cards ∧ Accepted c p play := by
  simp only [Room.checkPlay, bind, Except.bind] at ok
  cases parsed : parseCardType cards with
  | error message => cases parsed ▸ ok
  | ok arr =>
      simp only [parsed] at ok
      cases found : arr.find? (fun value => decide (some value.type = type)) with
      | none =>
          simp only [found] at ok
          split at ok <;> exact nomatch ok
      | some obj =>
          simp only [found] at ok
          have mem : obj ∈ arr := List.mem_of_find?_eq_some found
          have owned : ∀ {u : Unit}, assertLua (cards.all fun card =>
              decide (low card ∈ (c.players p).cards)) = .ok u →
              ∀ card ∈ cards, low card ∈ (c.players p).cards := fun ok card inPlay =>
            of_decide_eq_true (List.all_eq_true.mp (assertLua_ok ok) card inPlay)
          split at ok
          · cases ok
          split at ok
          · -- the move has to beat the last play
            split at ok
            · cases ok
            rename_i last lastly
            split at ok
            · cases ok
            rename_i bigger compared
            split at ok
            · cases ok
            rename_i big
            split at ok
            · cases ok
            rename_i all
            obtain rfl := Except.ok.inj ok
            rw [Bool.not_eq_true, Bool.not_eq_false'] at big
            exact ⟨rfl, ⟨arr, parsed, mem⟩, owned all, fun _ => ⟨last, lastly, big ▸ compared⟩⟩
          · rename_i free
            split at ok
            · cases ok
            rename_i all
            obtain rfl := Except.ok.inj ok
            exact ⟨rfl, ⟨arr, parsed, mem⟩, owned all, fun normal => absurd normal free⟩

/-- An accepted move of cards has passed every check. -/
theorem playCardCheck_play (checked : c.playCardCheck p params = .ok (some play)) :
    Accepted c p play := by
  simp only [Room.playCardCheck] at checked
  split at checked
  · cases checked
  split at checked
  · split at checked
    · cases checked
    · cases checked
  · split at checked
    · cases checked
    split at checked
    · cases checked
    split at checked
    · cases checked
    · rename_i ok
      obtain rfl := Option.some.inj (Except.ok.inj checked)
      exact (checkPlay_ok ok).2
  · cases checked

theorem plays_checked (plays : c.Plays e d p move) :
    ∃ params, c.playCardCheck p params = .ok move := by
  obtain ⟨params, _, checked⟩ | ⟨decision, _, checked⟩ := plays
  · exact ⟨params, checked⟩
  · exact ⟨_, checked⟩

/-- A player who leads is not held to the last play. -/
theorem playCardCheck_free (free : (c.players p).playCardState ≠ .normal)
    (last : Option LastPlay) :
    ({ c with lastPlayCardObj := last } : Room).playCardCheck p params =
      c.playCardCheck p params := by
  have check : ∀ type cards, ({ c with lastPlayCardObj := last } : Room).checkPlay p type cards =
      c.checkPlay p type cards := by
    intro type cards
    simp only [Room.checkPlay, free, if_false]
  simp only [Room.playCardCheck, check]

/-- Accepted cards have a factor when they are a bomb. -/
theorem bombMultiple_ok (accepted : Accepted c p play) (room : Room) (message : String) :
    room.bombMultiple conf p play ≠ .error message := by
  intro raised
  simp only [Room.bombMultiple] at raised
  split at raised
  · rename_i bomb
    obtain ⟨arr, parsed, mem⟩ := accepted.parsed
    obtain ⟨b, deck, type⟩ := bomb_parseCardType parsed mem bomb
    have row := conf.bomb_row b deck
    rw [type] at raised
    simp only [Option.bind_some] at raised
    split at raised
    · cases raised
    · rename_i missing
      exact row missing
  · cases raised

end Checks

/-- The moves since the last deal, newest first. -/
def Room.moves (c : Room) : List (Seat × Option PlayCardObj) := movesIn (sinceDeal c.sent)

/-- The moves are legal, and the room knows the last play. -/
structure Board (c : Room) (l : Seat) : Prop where
  legal : Legal l c.moves
  last : c.lastPlayCardObj.map (fun last => (last.id, last.playCardObj)) = lastPlay c.moves

/-- The last move was a play by `w`, and nobody else is out of cards. -/
structure LastBy (c : Room) (l w : Seat) : Prop where
  board : Board c l
  move : ∃ play older, c.moves = (w, some play) :: older
  others : ∀ q, q ≠ w → (c.players q).cards ≠ []

/-- Nothing has been played or settled. -/
def Untouched (c : Room) : Prop :=
  c.moves = [] ∧ c.lastPlayCardObj = none ∧ winnersIn c.sent = []

def TurnInv : Phase → Room → Prop
  | .playing l p, c => Board c l ∧ p = turn l c.moves.length ∧
      (c.players p).playCardState = turnState c.moves ∧ (∀ q, (c.players q).cards ≠ []) ∧
      winnersIn c.sent = []
  | .effect l p, c => LastBy c l p ∧ winnersIn c.sent = []
  | .nextTurn l, c => Board c l ∧ c.moves ≠ [] ∧ c.actionIndex + 1 = turn l c.moves.length ∧
      (∀ q, (c.players q).cards ≠ []) ∧ winnersIn c.sent = []
  | .out l w, c => LastBy c l w ∧ (c.players w).cards = [] ∧ winnersIn c.sent = []
  | .ended l w, c => LastBy c l w ∧ (c.players w).cards = [] ∧ winnersIn c.sent = [w]
  | .wedged l, c => Board c l ∧ (∀ q, (c.players q).cards ≠ []) ∧ winnersIn c.sent = []
  | _, c => Untouched c

section Steps
variable {conf : Conf} {e : Event} {d : Draws} {c c' : Room} {ph ph' : Phase} {p q l w : Seat}

theorem Room.Keeps.moves (keeps : c.Keeps c') : c'.moves = c.moves :=
  movesIn_adds (keeps.adds.mono fun _ silent => silent.1)

theorem Room.Keeps.winners (keeps : c.Keeps c') : winnersIn c'.sent = winnersIn c.sent :=
  filterMap_adds (fun _ silent => silent.2) keeps.adds

theorem Room.Keeps.cards (keeps : c.Keeps c') (q : Seat) :
    (c'.players q).cards = (c.players q).cards := congrArg Prod.fst (keeps.hands q)

theorem Board.keep (board : Board c l) (keeps : c.Keeps c') : Board c' l := by
  refine ⟨?_, ?_⟩
  · rw [keeps.moves]
    exact board.legal
  · rw [keeps.moves, keeps.last]
    exact board.last

theorem LastBy.keep (finished : LastBy c l w) (keeps : c.Keeps c') : LastBy c' l w := by
  refine ⟨finished.board.keep keeps, ?_, ?_⟩
  · rw [keeps.moves]
    exact finished.move
  · intro q other
    rw [keeps.cards]
    exact finished.others q other

/-- The board after a pass. -/
theorem Board.pass (board : Board c l) (seat : p = turn l c.moves.length)
    (bound : ¬Leading c.moves) (moves : c'.moves = (p, none) :: c.moves)
    (last : c'.lastPlayCardObj = c.lastPlayCardObj) : Board c' l := by
  refine ⟨?_, ?_⟩
  · rw [moves]
    exact ⟨board.legal, seat, bound⟩
  · rw [moves, last, board.last]
    simp [lastPlay]

/-- The board after a play that beats the last one or leads. -/
theorem Board.play {play : PlayCardObj} (board : Board c l) (seat : p = turn l c.moves.length)
    (state : (c.players p).playCardState = turnState c.moves) (accepted : Accepted c p play)
    (moves : c'.moves = (p, some play) :: c.moves)
    (last : c'.lastPlayCardObj.map (fun last => (last.id, last.playCardObj)) = some (p, play)) :
    Board c' l := by
  refine ⟨?_, ?_⟩
  · rw [moves]
    refine ⟨board.legal, seat, fun bound => ?_⟩
    obtain ⟨before, found, beaten⟩ := accepted.bigger (state.trans (turnState_normal.mpr bound))
    refine ⟨(before.id, before.playCardObj), ?_, beaten⟩
    rw [← board.last, found]
    rfl
  · rw [moves, last]
    simp [lastPlay]

theorem sent_pass (state : c.state = .playing) :
    (c.corePlay conf p none d).sent = .roomSyncPlayerAction p .pass none :: c.sent :=
  congrArg Prod.fst (table_playing (c := (c.played p none).send
    (.roomSyncPlayerAction p .pass none)) state)

theorem moves_pass (state : c.state = .playing) :
    (c.corePlay conf p none d).moves = (p, none) :: c.moves := by
  rw [Room.moves, sent_pass state, sinceDeal_cons rfl]
  rfl

theorem actionIndex_playing {type : PlayerAction} (state : c.state = .playing) :
    (c.coreActionEnd conf p type d).actionIndex = p := by
  rw [coreActionEnd_playing conf d type state]
  split <;> rfl

theorem moves_recorded (play : PlayCardObj) :
    (c.recorded p play).moves = (p, some play) :: c.moves := by
  have sent : sinceDeal (c.recorded p play).sent =
      .roomSyncPlayerAction p .playCard (some play) :: sinceDeal c.sent := sinceDeal_cons rfl c.sent
  rw [Room.moves, sent]
  rfl

theorem Untouched.keep (untouched : Untouched c) (keeps : c.Keeps c') : Untouched c' :=
  ⟨keeps.moves.trans untouched.1, keeps.last.trans untouched.2.1,
    keeps.winners.trans untouched.2.2⟩

theorem Untouched.deal (untouched : Untouched c) :
    Untouched (c.coreAction conf .dealCard none d) :=
  ⟨rfl, untouched.2.1, untouched.2.2⟩

theorem adds_setLandlord (delayed : Bool) :
    c.Adds Message.isSilent (c.setLandlord conf l delayed) := by
  cases delayed with
  | true => exact .same rfl
  | false => exact adds_landlordSet.start rfl

theorem moves_setLandlord (delayed : Bool) : (c.setLandlord conf l delayed).moves = c.moves :=
  movesIn_adds ((adds_setLandlord delayed).mono fun _ silent => silent.1)

theorem Untouched.setLandlord (untouched : Untouched c) (delayed : Bool) :
    Untouched (c.setLandlord conf l delayed) := by
  refine ⟨(moves_setLandlord delayed).trans untouched.1, ?_,
    (filterMap_adds (fun _ silent => silent.2) (adds_setLandlord delayed)).trans untouched.2.2⟩
  cases delayed <;> exact untouched.2.1

/-- Nothing is played before there is a landlord. -/
theorem untouched_early (unset : ph.control.landlordPlayer = none) (untouched : Untouched c)
    (trans : Trans conf e d c ph ph' c') : Untouched c' := by
  obtain ⟨m, keeps, rfl | rfl | ⟨l, delayed, rfl⟩⟩ := early_keeps unset trans
  · exact untouched.keep keeps
  · exact (untouched.keep keeps).deal
  · exact (untouched.keep keeps).setLandlord delayed

theorem playCardState_prompt (state : PlayerState) (time : Int) (q : Seat) :
    ((c.prompt p state time).players q).playCardState = (c.players q).playCardState :=
  field_modify (c := c.send _) Player.playCardState rfl q

/-- The state `action` gives the player it enters with. -/
def entryState : Option LastPlay → Seat → PlayCardState
  | none, _ => .first
  | some last, p => Room.playCardStateAfter last p

theorem playCardState_coreAction (c : Room) (p : Seat) :
    ((c.coreAction conf .playing (some p) d).players p).playCardState =
      entryState c.lastPlayCardObj p := by
  refine (playCardState_prompt (c := (c.enter .playing (some p)).setPlayCardState p _) .playing
    20 p).trans ?_
  simp only [Room.setPlayCardState, Room.modify, Room.enter, Option.getD_some,
    Function.update_self]
  cases c.lastPlayCardObj <;> rfl

theorem turnInv_playing (phase : c.control = (Phase.playing l p).control)
    (inv : TurnInv (.playing l p) c) (trans : Trans conf e d c (.playing l p) ph' c') :
    TurnInv ph' c' := by
  have state : c.state = .playing := congrArg Control.state phase
  obtain ⟨board, seat, ready, armed, unsettled⟩ := inv
  cases trans with
  | gold ph q num =>
      have keeps : c.Keeps (c.modify q fun pl => { pl with gold := num }) := keeps_gold num
      refine ⟨board.keep keeps, keeps.moves ▸ seat, ?_, fun q => keeps.cards q ▸ armed q,
        keeps.winners.trans unsettled⟩
      rw [keeps.moves]
      exact (field_modify Player.playCardState rfl p).trans ready
  | showCard ph q early =>
      have keeps : c.Keeps (c.addMultiple .showCard (conf.multipleInfo .showCard) q) :=
        keeps_showCard _
      refine ⟨board.keep keeps, keeps.moves ▸ seat, ?_, armed, unsettled⟩
      rw [keeps.moves]
      exact ready
  | pass l p plays cards =>
      obtain ⟨params, checked⟩ := plays_checked plays
      have bound := turnState_normal.mp (ready.symm.trans (playCardCheck_pass checked))
      have moves : (c.corePlay conf p none d).moves = (p, none) :: c.moves := moves_pass state
      refine ⟨board.pass seat bound moves ?_, ?_, ?_, ?_, ?_⟩
      · exact congrArg Prod.fst (stakes_playing (c := (c.played p none).send
          (.roomSyncPlayerAction p .pass none)) state)
      · rw [moves]
        exact List.cons_ne_nil _ _
      · rw [moves, List.length_cons, turn, ← seat]
        exact congrArg (· + 1) (actionIndex_playing (c := (c.played p none).send
          (.roomSyncPlayerAction p .pass none)) state)
      · intro q
        rw [show ((c.corePlay conf p none d).players q).cards = (c.players q).cards from
          congrArg Prod.fst (hand_pass state q)]
        exact armed q
      · rw [sent_pass state]
        exact unsettled
  | passOut l p plays cards => exact absurd cards (armed p)
  | play l p play m plays mirror bomb =>
      obtain ⟨params, checked⟩ := plays_checked plays
      have accepted := playCardCheck_play checked
      have keeps : (c.recorded p play).Keeps m := keeps_bombMultiple bomb
      have recorded : Board (c.recorded p play) l :=
        board.play seat ready accepted (moves_recorded play) rfl
      have finished : LastBy m l p := by
        refine ⟨recorded.keep keeps, ⟨play, c.moves, keeps.moves.trans (moves_recorded play)⟩, ?_⟩
        intro q other
        rw [keeps.cards, hand_recorded_ne play other]
        exact armed q
      exact ⟨⟨⟨finished.board.legal, finished.board.last⟩, finished.move, finished.others⟩,
        keeps.winners.trans unsettled⟩
  | mirrorRaised l p play plays mirror =>
      have cards : ∀ q, ((c.played p (some play)).players q).cards = (c.players q).cards :=
        fun q => field_modify Player.cards rfl q
      exact ⟨⟨board.legal, board.last⟩, fun q => cards q ▸ armed q, unsettled⟩
  | bombRaised l p play message plays mirror bomb =>
      obtain ⟨params, checked⟩ := plays_checked plays
      exact absurd bomb (bombMultiple_ok (playCardCheck_play checked) _ message)

theorem turn_last (finished : LastBy c l w) : w + 1 = turn l c.moves.length := by
  obtain ⟨play, older, moves⟩ := finished.move
  have legal := finished.board.legal
  rw [moves] at legal ⊢
  rw [List.length_cons, turn, legal.2.1]

theorem armed_of_last (finished : LastBy c l w) (cards : (c.players w).cards ≠ []) (q : Seat) :
    (c.players q).cards ≠ [] := by
  by_cases other : q = w
  · exact other ▸ cards
  · exact finished.others q other

theorem armed_doubleMax {answered : Seat → Bool} (hands : HandsInv (.doubleMax l answered) c)
    (q : Seat) : (c.players q).cards ≠ [] := by
  intro empty
  have length := hands q
  rw [empty, List.length_nil] at length
  split at length <;> exact nomatch length

theorem winners_actionEnded (set : c.landlordPlayer ≠ none) :
    winnersIn (c.actionEnded conf w).sent = w :: winnersIn c.sent := by
  simp only [Room.actionEnded]
  split
  · split <;> rfl
  · split
    · rename_i unset
      exact absurd unset set
    · split <;> rfl

theorem turnInv_bid (rob : Bool) (bid : Bid) (untouched : Untouched c) :
    TurnInv (bid.phase rob) c := by
  cases bid <;> exact untouched

theorem last_actionEnded : (c.actionEnded conf w).lastPlayCardObj = c.lastPlayCardObj := by
  simp only [Room.actionEnded]
  split
  · split <;> rfl
  · split
    · rfl
    · split <;> rfl

theorem moves_ended : (c.coreFire conf (.ended w) d).moves = c.moves :=
  movesIn_adds (c := Room.enter { c with waits := c.waits.erase (.ended w) } .ended (some w))
    (adds_actionEnded (fun _ _ _ => ⟨rfl, rfl⟩) fun _ => ⟨rfl, rfl⟩)

/-- The settlement names the player of the last move and leaves the moves alone. -/
theorem ended_wins (set : c.landlordPlayer = some l) (finished : LastBy c l w)
    (cards : (c.players w).cards = []) (unsettled : winnersIn c.sent = []) :
    TurnInv (.ended l w) (c.coreFire conf (.ended w) d) := by
  let m : Room := Room.enter { c with waits := c.waits.erase (.ended w) } .ended (some w)
  have moves : (m.actionEnded conf w).moves = c.moves := moves_ended (d := d)
  have last : (m.actionEnded conf w).lastPlayCardObj = c.lastPlayCardObj :=
    last_actionEnded (c := m)
  have players : (m.actionEnded conf w).players = c.players := players_actionEnded (c := m)
  have winners : winnersIn (m.actionEnded conf w).sent = w :: winnersIn c.sent :=
    winners_actionEnded (c := m) (fun unset => nomatch unset.symm.trans set)
  show TurnInv (.ended l w) (m.actionEnded conf w)
  refine ⟨⟨⟨?_, ?_⟩, ?_, ?_⟩, ?_, ?_⟩
  · rw [moves]
    exact finished.board.legal
  · rw [moves, last]
    exact finished.board.last
  · rw [moves]
    exact finished.move
  · rw [players]
    exact finished.others
  · rw [players]
    exact cards
  · rw [winners, unsettled]

/-- Outside the moves, what keeps the cards keeps the invariant. -/
theorem turnInv_keep (keeps : c.Keeps c') (still : ∀ l p, ph ≠ .playing l p)
    (index : c'.actionIndex = c.actionIndex) (inv : TurnInv ph c) : TurnInv ph c' := by
  have armed : (∀ q, (c.players q).cards ≠ []) → ∀ q, (c'.players q).cards ≠ [] :=
    fun armed q => keeps.cards q ▸ armed q
  cases ph with
  | playing l p => exact absurd rfl (still l p)
  | effect l p => exact ⟨inv.1.keep keeps, keeps.winners.trans inv.2⟩
  | nextTurn l =>
      obtain ⟨board, begun, seat, all, unsettled⟩ := inv
      refine ⟨board.keep keeps, ?_, ?_, armed all, keeps.winners.trans unsettled⟩
      · rw [keeps.moves]
        exact begun
      · rw [keeps.moves, index]
        exact seat
  | out l w =>
      exact ⟨inv.1.keep keeps, (keeps.cards w).trans inv.2.1, keeps.winners.trans inv.2.2⟩
  | ended l w =>
      exact ⟨inv.1.keep keeps, (keeps.cards w).trans inv.2.1, keeps.winners.trans inv.2.2⟩
  | wedged l => exact ⟨inv.1.keep keeps, armed inv.2.1, keeps.winners.trans inv.2.2⟩
  | _ => exact Untouched.keep inv keeps

/-- Every transition keeps the invariant of the moves. -/
theorem turnInv_trans (phase : c.control = ph.control) (hands : HandsInv ph c)
    (inv : TurnInv ph c) (trans : Trans conf e d c ph ph' c') : TurnInv ph' c' := by
  have state : c.state = ph.control.state := congrArg Control.state phase
  have late : ∀ {l}, ph.control.landlordPlayer = some l → (∀ l p, ph ≠ .playing l p) →
      (∀ l w, ph ≠ .out l w) → c.Keeps c' :=
    fun set noMove noEnd => late_keeps phase set noMove noEnd trans
  by_cases moving : ∃ l p, ph = .playing l p
  · obtain ⟨l, p, rfl⟩ := moving
    exact turnInv_playing phase inv trans
  have still : ∀ l p, ph ≠ .playing l p := fun l p here => moving ⟨l, p, here⟩
  cases trans with
  | gold ph p num =>
      exact turnInv_keep (keeps_gold num) still rfl inv
  | showCard ph p early => exact turnInv_keep (keeps_showCard _) still rfl inv
  | first => exact untouched_early rfl inv (Trans.first (e := e))
  | bid rob yes p =>
      exact turnInv_bid rob _ (untouched_early rfl inv (Trans.bid (e := e) rob yes p))
  | force rob q p buff cfg skill =>
      exact untouched_early rfl inv (Trans.force (e := e) (d := d) rob q p buff cfg skill)
  | delayed rob l => exact Untouched.keep inv (late rfl nofun nofun)
  | set rob l => exact Untouched.keep inv (late rfl nofun nofun)
  | double l p answered t type multiple key open' info =>
      exact Untouched.keep inv (late rfl nofun nofun)
  | doubled l => exact Untouched.keep inv (late rfl nofun nofun)
  | doubleMax l p answered t type multiple key open' info =>
      exact Untouched.keep inv (late rfl nofun nofun)
  | doubledMax l =>
      have keeps := late rfl nofun nofun
      obtain ⟨none', unplayed, unsettled⟩ := Untouched.keep inv keeps
      refine ⟨⟨?_, ?_⟩, ?_, ?_, ?_, unsettled⟩
      · rw [none']
        trivial
      · rw [none', unplayed]
        rfl
      · rw [none']
        rfl
      · rw [none', coreFire_doubleMax conf d (congrArg Control.landlordPlayer phase)]
        rw [playCardState_coreAction]
        exact congrArg (entryState · l) inv.2.1
      · intro q
        rw [keeps.cards]
        exact armed_doubleMax hands q
  | turn l p cards =>
      have keeps := late rfl nofun nofun
      obtain ⟨finished, unsettled⟩ := inv
      have finished' := finished.keep keeps
      refine ⟨finished'.board, ?_, ?_, ?_, keeps.winners.trans unsettled⟩
      · obtain ⟨play, older, moves⟩ := finished'.move
        rw [moves]
        exact List.cons_ne_nil _ _
      · rw [← turn_last finished']
        exact congrArg (· + 1) (actionIndex_playing (c := { c with holding := none }) state)
      · exact armed_of_last finished' (by rw [keeps.cards]; exact cards)
  | out l p cards =>
      have keeps := late rfl nofun nofun
      exact ⟨inv.1.keep keeps, (keeps.cards p).trans cards, keeps.winners.trans inv.2⟩
  | next l last found =>
      have keeps := late rfl nofun nofun
      obtain ⟨board, begun, seat, armed, unsettled⟩ := inv
      refine ⟨board.keep keeps, keeps.moves ▸ seat, ?_, fun q => keeps.cards q ▸ armed q,
        keeps.winners.trans unsettled⟩
      rw [keeps.moves, ← playCardStateAfter_eq board.legal found board.last, ← seat,
        coreResume_next conf d found, playCardState_coreAction]
      exact congrArg (entryState · (c.actionIndex + 1)) found
  | lost l found =>
      obtain ⟨board, begun, seat, armed, unsettled⟩ := inv
      obtain ⟨k, last, lastly, rest⟩ := legal_last board.legal begun
      have none' := board.last
      rw [found, lastly] at none'
      cases none'
  | ended l w =>
      obtain ⟨finished, cards, unsettled⟩ := inv
      exact ended_wins (congrArg Control.landlordPlayer phase) finished cards unsettled
  | _ => exact absurd rfl (still _ _)

end Steps

/-- What holds of the moves in a room of a run. -/
structure PlayingHolds (conf : Conf) (r : Room) : Prop where
  one : ∀ p q, (r.players p).state = .playing → (r.players q).state = .playing → p = q
  legal : ∀ l, r.landlordPlayer = some l → Legal l r.moves
  last : r.lastPlayCardObj.map (fun last => (last.id, last.playCardObj)) = lastPlay r.moves
  seat : ∀ l p, r.landlordPlayer = some l → (r.players p).state = .playing →
    p = turn l r.moves.length
  /-- Who leads cannot pass, and the last play does not matter for what he may play. -/
  leads : ∀ p, (r.players p).state = .playing → Leading r.moves →
    (∀ obj d, r.PlayCard conf p ⟨some .pass, obj⟩ d = (r, .ret (some .error_3))) ∧
    ∀ params last, ({ r with lastPlayCardObj := last } : Room).playCardCheck p params =
      r.playCardCheck p params
  /-- Who follows has to beat the last play or pass. -/
  follows : ∀ p, (r.players p).state = .playing → ¬Leading r.moves →
    ∀ params play, r.playCardCheck p params = .ok (some play) →
      ∃ last, r.lastPlayCardObj = some last ∧ compareCardType play last.playCardObj = .ok true
  ended : r.state = .ended → ∃ w, winnersIn r.sent = [w] ∧ (r.players w).cards = []
  unended : r.state ≠ .ended → winnersIn r.sent = []
  /-- An empty hand has ended the game, or nobody moves any more and the game ends. -/
  empty : ∀ w, (r.players w).cards = [] → r.state = .ended ∧ winnersIn r.sent = [w] ∨
    (∀ q, (r.players q).state = .waiting) ∧ ∀ d, ∃ (es : List Event) (r' : Room), es.length ≤ 2 ∧
      Run (Room.step conf) anyStep r (es.map fun e => (e, d)) r' ∧
      r'.state = .ended ∧ winnersIn r'.sent = [w]
  once : r.state = .ended → ∀ e r', r.step conf e = some r' →
    r'.state = .ended ∧ winnersIn r'.sent = winnersIn r.sent

section Result
variable {conf : Conf} {agents : Seat → UserAgent} {gold : Seat → Int} {d : Draws}
  {es : List (Event × Draws)} {r r' : Room} {ph : Phase} {l p w : Seat}

theorem moves_core (r : Room) : r.core.moves = r.moves := by
  refine filterMap_sinceDeal_record _ (fun m hidden => ?_) r.sent
  cases m with
  | roomSyncPlayerAction p type play => cases hidden
  | _ => rfl

theorem winners_core (r : Room) : winnersIn r.core.sent = winnersIn r.sent := by
  refine filterMap_record _ (fun m hidden => ?_) r.sent
  cases m with
  | roomGameOver w datas => cases hidden
  | _ => rfl

/-- The end that is due happens. -/
theorem finish_out (conf : Conf) (d : Draws)
    (phase : r.control = (Phase.out l w).control) (inv : TurnInv (.out l w) r.core) :
    ∃ r', r.step conf (.wait (.ended w), d) = some r' ∧ r'.state = .ended ∧
      winnersIn r'.sent = [w] := by
  have due : Wait.ended w ∈ r.waits := by
    rw [show r.waits = [.ended w] from congrArg Control.waits phase]
    exact List.mem_singleton_self _
  have core := Room.fire_core conf d r (.ended w)
  have control := control_over (c := r.core) conf d phase
  have won : TurnInv (.ended l w) (r.core.coreFire conf (.ended w) d) :=
    turnInv_trans (c := r.core) (e := .resume) phase trivial inv (.ended l w)
  refine ⟨r.fire conf (.ended w) d, ?_, ?_, ?_⟩
  · simp only [Room.step, Room.exec, due, if_true, Option.map_some]
  · exact (congrArg Room.state core).trans (congrArg Control.state control)
  · rw [← winners_core, core]
    exact won.2.2

theorem finish_effect (conf : Conf) (d : Draws)
    (phase : r.control = (Phase.effect l w).control)
    (inv : TurnInv (.effect l w) r.core) (cards : (r.players w).cards = []) :
    ∃ m, r.step conf (.resume, d) = some m ∧ m.control = (Phase.out l w).control ∧
      TurnInv (.out l w) m.core := by
  have held : r.holding = some (.playCardEffect w .playCard) := congrArg Control.holding phase
  have core := Room.resume_core conf d r (.playCardEffect w .playCard)
  have control := control_out (c := r.core) conf d phase cards
  have next : TurnInv (.out l w) (r.core.coreResume conf (.playCardEffect w .playCard) d) :=
    turnInv_trans (c := r.core) (e := .resume) phase trivial inv (.out l w cards)
  refine ⟨(r.resume conf (.playCardEffect w .playCard) d).1, ?_, ?_, ?_⟩
  · simp only [Room.step, Room.exec, held, Option.map_some]
  · exact (congrArg Room.control core).trans control
  · rw [core]
    exact next

theorem turnInv_board {c : Room} (inv : TurnInv ph c) :
    (∀ l, ph.control.landlordPlayer = some l → Legal l c.moves) ∧
      c.lastPlayCardObj.map (fun last => (last.id, last.playCardObj)) = lastPlay c.moves := by
  have early : Untouched c → (∀ l, Legal l c.moves) ∧
      c.lastPlayCardObj.map (fun last => (last.id, last.playCardObj)) = lastPlay c.moves := by
    intro untouched
    rw [untouched.1, untouched.2.1]
    exact ⟨fun _ => trivial, rfl⟩
  have of_board : ∀ {l}, Board c l → (∀ k, some l = some k → Legal k c.moves) ∧
      c.lastPlayCardObj.map (fun last => (last.id, last.playCardObj)) = lastPlay c.moves :=
    fun board => ⟨fun k same => Option.some.inj same ▸ board.legal, board.last⟩
  cases ph with
  | playing l p => exact of_board inv.1
  | effect l p => exact of_board inv.1.board
  | nextTurn l => exact of_board inv.1
  | out l w => exact of_board inv.1.board
  | ended l w => exact of_board inv.1.board
  | wedged l => exact of_board inv.1
  | _ => exact ⟨fun k _ => (early inv).1 k, (early inv).2⟩

theorem turnInv_empty {c : Room} (hands : HandsInv ph c) (inv : TurnInv ph c)
    (empty : (c.players w).cards = []) :
    ∃ l, ph = .effect l w ∨ ph = .out l w ∨ ph = .ended l w := by
  have full : ∀ n, (c.players w).cards.length = n + 1 → False := by
    intro n length
    rw [empty] at length
    cases length
  have dealt : ∀ l, (c.players w).cards.length = (if w = l then 20 else 17) → False := by
    intro l length
    split at length
    · exact full _ length
    · exact full _ length
  cases ph with
  | dealt => exact (full _ (hands.1 w)).elim
  | bidding rob p => exact (full _ (hands.1 w)).elim
  | landlordDelay rob l => exact (dealt l (hands w)).elim
  | landlordWaite rob l => exact (dealt l (hands w)).elim
  | doubleing l answered => exact (dealt l (hands w)).elim
  | doubleMax l answered => exact (dealt l (hands w)).elim
  | playing l p => exact absurd empty (inv.2.2.2.1 w)
  | effect l p =>
      by_cases same : w = p
      · exact ⟨l, .inl (same ▸ rfl)⟩
      · exact absurd empty (inv.1.others w same)
  | nextTurn l => exact absurd empty (inv.2.2.2.1 w)
  | out l p =>
      by_cases same : w = p
      · exact ⟨l, .inr (.inl (same ▸ rfl))⟩
      · exact absurd empty (inv.1.others w same)
  | ended l p =>
      by_cases same : w = p
      · exact ⟨l, .inr (.inr (same ▸ rfl))⟩
      · exact absurd empty (inv.1.others w same)
  | wedged l => exact absurd empty (inv.2.1 w)

theorem turnInv_unended {c : Room} (inv : TurnInv ph c) (unended : ph.control.state ≠ .ended) :
    winnersIn c.sent = [] := by
  cases ph with
  | playing l p => exact inv.2.2.2.2
  | effect l p => exact inv.2
  | nextTurn l => exact inv.2.2.2.2
  | out l w => exact inv.2.2
  | ended l w => exact absurd rfl unended
  | wedged l => exact inv.2.2
  | _ => exact inv.2.2

theorem ended_phase (ended : ph.control.state = .ended) : ∃ l w, ph = .ended l w := by
  cases ph with
  | ended l w => exact ⟨l, w, rfl⟩
  | bidding rob p => exact absurd ended (by cases rob <;> exact nofun)
  | landlordDelay rob l => exact absurd ended (by cases rob <;> exact nofun)
  | landlordWaite rob l => exact absurd ended (by cases rob <;> exact nofun)
  | _ => cases ended

/-- The invariants of the hands and of the moves hold in every room of a run. -/
theorem run_turnInv (run : Run (Room.step conf) anyStep (Room.init conf agents gold d) es r) :
    ∃ ph : Phase, r.control = ph.control ∧ HandsInv ph r.core ∧ TurnInv ph r.core :=
  Room.run_invariant (fun _ _ _ => True) (fun ph c => HandsInv ph c ∧ TurnInv ph c)
    (fun _ _ _ _ => trivial)
    ⟨hands_deal conf d, (Untouched.deal (c := Room.ready gold) ⟨rfl, rfl, rfl⟩)⟩
    (fun _ _ _ _ _ _ phase inv _ trans =>
      ⟨handsInv_trans phase inv.1 trans, turnInv_trans phase inv.1 inv.2 trans⟩) run

/-- Nothing more happens after the end. -/
theorem ended_step (phase : r.control = (Phase.ended l w).control) (e : Event × Draws)
    (moved : r.step conf e = some r') :
    r'.state = .ended ∧ winnersIn r'.sent = winnersIn r.sent := by
  obtain same | act := Room.step_moves conf e.1 e.2 r r' moved
  · refine ⟨(congrArg Room.state same).trans (congrArg Control.state phase), ?_⟩
    rw [← winners_core, same, winners_core]
  · obtain ⟨ph', trans, phase'⟩ := act_trans conf e.1 e.2 r.core r'.core phase act
    have keeps := late_keeps (c := r.core) phase rfl nofun nofun trans
    refine ⟨?_, ?_⟩
    · refine (congrArg Control.state phase').trans ?_
      generalize r'.core = c' at trans
      cases trans with
      | gold ph p num => rfl
      | showCard ph p early => rfl
    · rw [← winners_core, keeps.winners, winners_core]

/-- In every run the moves go round, follow the rules of leading and following, and the
game ends with the first empty hand. -/
theorem playing_holds (run : Run (Room.step conf) anyStep (Room.init conf agents gold d) es r) :
    PlayingHolds conf r := by
  obtain ⟨ph, phase, hands, inv⟩ := run_turnInv run
  have landlord : r.landlordPlayer = ph.control.landlordPlayer :=
    congrArg Control.landlordPlayer phase
  have state : r.state = ph.control.state := congrArg Control.state phase
  have pstate : ∀ p, (r.players p).state = ph.control.pstate p :=
    congrFun (congrArg Control.pstate phase)
  have moves := moves_core r
  obtain ⟨legal, last⟩ := turnInv_board inv
  have asked : ∀ p, (r.players p).state = .playing → ∃ l, ph = .playing l p :=
    fun p here => asked_play ((pstate p).symm.trans here)
  have ready : ∀ p, (r.players p).state = .playing →
      (r.players p).playCardState = turnState r.moves := by
    intro p here
    obtain ⟨l, rfl⟩ := asked p here
    exact moves ▸ inv.2.2.1
  constructor
  · intro p q here there
    obtain ⟨l, rfl⟩ := asked p here
    exact (only_eq (by decide) ((pstate q).symm.trans there)).1
  · intro l set
    exact moves ▸ legal l (landlord.symm.trans set)
  · exact moves ▸ last
  · intro l p set here
    obtain ⟨k, rfl⟩ := asked p here
    obtain rfl := Option.some.inj (landlord.symm.trans set)
    exact moves ▸ inv.2.1
  · intro p here leads
    have free : (r.players p).playCardState ≠ .normal :=
      fun normal => turnState_normal.mp ((ready p here).symm.trans normal) leads
    refine ⟨fun obj d => ?_, fun params last => playCardCheck_free free last⟩
    simp only [Room.PlayCard, Room.playCardCheck, here, ne_eq, not_true_eq_false, if_false, free,
      not_false_eq_true, if_true]
  · intro p here bound params play checked
    exact (playCardCheck_play checked).bigger ((ready p here).trans (turnState_normal.mpr bound))
  · intro ended
    obtain ⟨l, w, rfl⟩ := ended_phase (state.symm.trans ended)
    exact ⟨w, (winners_core r).symm.trans inv.2.2, inv.2.1⟩
  · intro unended
    exact (winners_core r).symm.trans (turnInv_unended inv fun ended => unended (state.trans ended))
  · intro w empty
    obtain ⟨l, rfl | rfl | rfl⟩ := turnInv_empty (c := r.core) hands inv empty
    · refine .inr ⟨pstate, fun d => ?_⟩
      obtain ⟨m, resumed, out, next⟩ := finish_effect conf d phase inv empty
      obtain ⟨r', moved, ended, winners⟩ := finish_out conf d out next
      exact ⟨[.resume, .wait (.ended w)], r', le_refl 2,
        .next (.next .refl trivial resumed) trivial moved, ended, winners⟩
    · refine .inr ⟨pstate, fun d => ?_⟩
      obtain ⟨r', moved, ended, winners⟩ := finish_out conf d phase inv
      exact ⟨[.wait (.ended w)], r', Nat.le_succ 1, .next .refl trivial moved, ended, winners⟩
    · exact .inl ⟨state, (winners_core r).symm.trans inv.2.2⟩
  · intro ended e r' moved
    obtain ⟨l, w, rfl⟩ := ended_phase (state.symm.trans ended)
    exact ended_step phase e moved

end Result

/-- Nobody doubles and the landlord is to move. -/
def playingRun : List (Event × Draws) := calledRun ++ [.resume,
    .request 0 (.double (some .notDouble)), .request 1 (.double (some .notDouble)),
    .request 2 (.double (some .notDouble)), .wait .doubleing,
    .request 0 (.doubleMax (some .notDoubleMax)), .request 1 (.doubleMax (some .notDoubleMax)),
    .request 2 (.doubleMax (some .notDoubleMax)), .wait .doubleMax].map
  fun e => (e, .plain (classic []))

/-- The request to play `cards` as a combination of type `type`. -/
def playRequest (type : CardType) (cards : List Card) : Request :=
  .playCard ⟨some .playCard, some ⟨some type, 0, some cards⟩⟩

theorem playing_holds_led :
    ∃ r, Run (Room.step (.plain 1 Nat.one_pos)) anyStep (plainStart (.plain 1 Nat.one_pos))
        (playingRun ++ [.request 0 (playRequest .dan [0x11]), .resume, .resume].map
          fun e => (e, .plain (classic []))) r ∧
      (r.players 1).state = .playing ∧ PlayingHolds (.plain 1 Nat.one_pos) r := by
  have state : (exec (Room.step (.plain 1 Nat.one_pos)) (plainStart (.plain 1 Nat.one_pos))
      (playingRun ++ [.request 0 (playRequest .dan [0x11]), .resume, .resume].map
        fun e => (e, .plain (classic [])))).map (fun r => (r.players 1).state) =
      some .playing := by decide +kernel
  obtain ⟨r, done, asked⟩ := Option.map_eq_some_iff.mp state
  have run := run_of_exec _ _ r done
  exact ⟨r, run, asked, playing_holds run⟩

end HuluLandlord.Ddz
