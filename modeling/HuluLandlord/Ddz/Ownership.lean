import HuluLandlord.Ddz.AutoPlay
import HuluLandlord.Ddz.Turn

/-!
Who owns which card in the rooms of a run. `PlayCard` looks every card of a list up in
the hand, one by one, so a list that names one card twice passes. The copy of the hand
finds the card only once and raises, after the player has been marked as having
answered. Every other request is refused before anything is written, and as long as no
client sends such a list, every card of the deck stays in one place.
-/
namespace HuluLandlord.Ddz
open Transition

/-- How `PlayCard` says that it refused a request. -/
def Outcome.Fails : Outcome → Prop
  | .ret retVal => retVal ≠ none
  | .raised _ => True
  | .sleeping => False

/-- The list passes all checks of `PlayCard` and names a card twice. -/
def Room.NamesTwice (r : Room) (p : Seat) (params : PlayParams) : Prop :=
  match r.playCardCheck p params with
  | .ok (some play) => ¬(play.cards.map low).Nodup
  | _ => False

instance (r : Room) (p : Seat) (params : PlayParams) : Decidable (r.NamesTwice p params) := by
  unfold Room.NamesTwice
  split <;> infer_instance

/-- Unless the room is stuck, every card is in one place. -/
def OwnInv (ph : Phase) (c : Room) : Prop := (∀ l, ph ≠ .wedged l) → CardsInv c

section Steps
variable {conf : Conf} {e : Event} {d : Draws} {c c' : Room} {ph ph' : Phase} {p q l w : Seat}

/-- With a landlord, what leaves the hands and the plays alone keeps the cards. -/
theorem CardsInv.still (inv : CardsInv c) (hands : ∀ q, (c'.players q).hand = (c.players q).hand)
    (played : playedIn (sinceDeal c'.sent) = playedIn (sinceDeal c.sent))
    (set : c.landlordPlayer ≠ none) (set' : c'.landlordPlayer ≠ none) : CardsInv c' := by
  have cards : ∀ q, (c'.players q).cards = (c.players q).cards :=
    fun q => congrArg Prod.fst (hands q)
  have agents : ∀ q, (c'.players q).robotAgent = (c.players q).robotAgent :=
    fun q => congrArg Prod.snd (hands q)
  refine ⟨?_, ?_⟩
  · rw [← inv.whole, Room.cardsInPlay, Room.cardsInPlay, played, if_neg set, if_neg set']
    simp only [cards]
  · intro q
    obtain ⟨copy, same, perm⟩ := inv.copied q
    exact ⟨copy, (agents q).trans same, cards q ▸ perm⟩

theorem CardsInv.pass (inv : CardsInv c) (state : c.state = .playing)
    (set : c.landlordPlayer ≠ none) : CardsInv (c.corePlay conf p none d) := by
  have moves : movesIn (sinceDeal (c.corePlay conf p none d).sent) =
      (p, none) :: movesIn (sinceDeal c.sent) := moves_pass state
  have landlord : (c.corePlay conf p none d).landlordPlayer = c.landlordPlayer :=
    congrArg Prod.snd (stakes_playing (c := (c.played p none).send
      (.roomSyncPlayerAction p .pass none)) state)
  refine inv.still (fun q => hand_pass state q) ?_ set (landlord ▸ set)
  rw [playedIn, moves]
  rfl

/-- The settlement moves no card. -/
theorem CardsInv.ended (inv : CardsInv c) (set : c.landlordPlayer ≠ none) :
    CardsInv (c.coreFire conf (.ended w) d) := by
  let m : Room := Room.enter { c with waits := c.waits.erase (.ended w) } .ended (some w)
  have players : (m.actionEnded conf w).players = c.players := players_actionEnded (c := m)
  have moves : movesIn (sinceDeal (m.actionEnded conf w).sent) = movesIn (sinceDeal c.sent) :=
    moves_ended (d := d)
  have landlord : (m.actionEnded conf w).landlordPlayer = c.landlordPlayer := by
    simp only [Room.actionEnded]
    split
    · split <;> rfl
    · split
      · rfl
      · split <;> rfl
  show CardsInv (m.actionEnded conf w)
  refine inv.still (fun q => congrArg (fun players => (players q).hand) players) ?_ set
    (landlord ▸ set)
  rw [playedIn, moves]
  rfl

theorem ownInv_playing (phase : c.control = (Phase.playing l p).control) (inv : CardsInv c)
    (trans : Trans conf e d c (.playing l p) ph' c') : OwnInv ph' c' := by
  have state : c.state = .playing := congrArg Control.state phase
  have set : c.landlordPlayer ≠ none := by
    rw [show c.landlordPlayer = some l from congrArg Control.landlordPlayer phase]
    exact Option.some_ne_none l
  intro free
  cases trans with
  | gold ph q num => exact inv.keep (keeps_gold num)
  | showCard ph q early => exact inv.keep (keeps_showCard _)
  | pass l p plays cards => exact inv.pass state set
  | passOut l p plays cards => exact inv.pass state set
  | play l p play m plays mirror bomb =>
      obtain ⟨params, checked⟩ := plays_checked plays
      have recorded := inv.recorded (playCardCheck_play checked).owned mirror set
      have kept := recorded.keep (keeps_bombMultiple bomb)
      exact kept.frame (fun _ => rfl) (.same rfl) Iff.rfl
  | mirrorRaised l p play plays mirror => exact absurd rfl (free l)
  | bombRaised l p play message plays mirror bomb => exact absurd rfl (free l)

theorem ownInv_trans (phase : c.control = ph.control) (inv : OwnInv ph c)
    (trans : Trans conf e d c ph ph' c') : OwnInv ph' c' := by
  by_cases stuck : ∃ l, ph = .wedged l
  · obtain ⟨l, rfl⟩ := stuck
    intro free
    cases trans with
    | gold ph q num => exact absurd rfl (free l)
    | showCard ph q early => exact absurd rfl (free l)
  have owned : CardsInv c := inv fun l here => stuck ⟨l, here⟩
  cases landlord : ph.control.landlordPlayer with
  | none =>
      intro _
      have unset : c.landlordPlayer = none :=
        (congrArg Control.landlordPlayer phase).trans landlord
      obtain ⟨m, keeps, rfl | rfl | ⟨l, delayed, rfl⟩⟩ := early_keeps landlord trans
      · exact owned.keep keeps
      · exact cardsInv_deal conf d (keeps.landlord.mpr unset)
      · exact cardsInv_setLandlord delayed (owned.keep keeps) (keeps.landlord.mpr unset)
  | some l =>
      by_cases moving : ∃ l p, ph = .playing l p
      · obtain ⟨l, p, rfl⟩ := moving
        exact ownInv_playing phase owned trans
      by_cases ending : ∃ l w, ph = .out l w
      · obtain ⟨l, w, rfl⟩ := ending
        have set : c.landlordPlayer ≠ none := by
          rw [show c.landlordPlayer = some l from congrArg Control.landlordPlayer phase]
          exact Option.some_ne_none l
        intro _
        cases trans with
        | gold ph q num => exact owned.keep (keeps_gold num)
        | showCard ph q early => exact owned.keep (keeps_showCard _)
        | ended l w => exact owned.ended set
      · intro _
        exact owned.keep (late_keeps phase landlord (fun l p here => moving ⟨l, p, here⟩)
          (fun l w here => ending ⟨l, w, here⟩) trans)

end Steps

section Refusals
variable {conf : Conf} {agents : Seat → UserAgent} {gold : Seat → Int} {d d' : Draws}
  {es : List (Event × Draws)} {r r' : Room} {p q : Seat} {params : PlayParams}
  {play : PlayCardObj} {outcome : Outcome} {ok : Room → Event × Draws → Prop}

theorem run_ownInv (run : Run (Room.step conf) ok (Room.init conf agents gold d) es r) :
    ∃ ph : Phase, r.control = ph.control ∧ OwnInv ph r.core :=
  Room.run_invariant (fun _ _ _ => True) OwnInv (fun _ _ _ _ => trivial)
    (fun _ => cardsInv_deal (c := Room.ready gold) conf d rfl)
    (fun _ _ _ _ _ _ phase inv _ trans => ownInv_trans phase inv trans) run

/-- Whoever is asked to play owns his cards. -/
theorem run_owned (run : Run (Room.step conf) ok (Room.init conf agents gold d) es r)
    (asked : (r.players p).state = .playing) : CardsInv r.core := by
  obtain ⟨ph, phase, inv⟩ := run_ownInv run
  have pstate : (r.players p).state = ph.control.pstate p :=
    congrFun (congrArg Control.pstate phase) p
  obtain ⟨l, rfl⟩ := asked_play (pstate.symm.trans asked)
  exact inv nofun

theorem answer_robotAgent (type : PlayerAction) :
    ((r.answer p type).players p).robotAgent = (r.players p).robotAgent := by
  simp only [Room.answer, Room.addAction, Room.clearClock, Room.modify, Function.update_self]

/-- A list the copy does not find has already been answered with. -/
theorem commit_lost (lost : ((r.players p).robotAgent.playCard (some play)).2 = false) :
    (r.playCardCommit conf p (some play) d).2 = .raised "remove_one_from_handcards failed" ∧
      ((r.playCardCommit conf p (some play) d).1.players p).state = .waiting := by
  simp only [Room.playCardCommit, answer_robotAgent, lost, if_true, true_and]
  simp only [Room.answer, Room.addAction, Room.clearClock, Room.modify, Function.update_self]

theorem commit_found (accepted : Accepted r p play)
    (found : ((r.players p).robotAgent.playCard (some play)).2 = true) :
    (r.playCardCommit conf p (some play) d).2 = .sleeping := by
  simp only [Room.playCardCommit, answer_robotAgent, found, Bool.true_eq_false, if_false]
  split
  · rename_i message raised
    exact absurd raised (bombMultiple_ok accepted _ message)
  · rfl

theorem finish_succeeds (r : Room) : ¬(r.finish none).2.Fails := by
  by_cases free : r.holding = none
  · simp [Room.finish, free, Outcome.Fails]
  · simp [Room.finish, free, Outcome.Fails]

theorem commit_pass : ¬(r.playCardCommit conf p none d).2.Fails := by
  simp only [Room.playCardCommit, RobotAgent.playCard, Bool.true_eq_false, if_false]
  exact finish_succeeds _

/-- A request that does not succeed leaves the room as it was if and only if it is not an
otherwise acceptable list that names a card twice. -/
theorem playCard_keeps (run : Run (Room.step conf) anyStep (Room.init conf agents gold d) es r)
    (done : r.exec conf (.request p (.playCard params)) d' = some (r', outcome)) :
    (outcome.Fails → r' = r) ↔ ¬r.NamesTwice p params := by
  simp only [Room.exec, Option.ite_none_right_eq_some, Option.some.injEq] at done
  obtain ⟨_, done⟩ := done
  simp only [Room.playerRequest, Room.PlayCard] at done
  cases checked : r.playCardCheck p params with
  | error refused =>
      rw [checked] at done
      obtain ⟨rfl, rfl⟩ := Prod.mk.inj done
      simp only [Room.NamesTwice, checked, not_false_eq_true, iff_true]
      exact fun _ => trivial
  | ok move =>
      rw [checked] at done
      simp only at done
      cases move with
      | none =>
          have passed := @commit_pass conf d' r p
          rw [done] at passed
          simp only [Room.NamesTwice, checked, not_false_eq_true, iff_true]
          exact fun fails => absurd fails passed
      | some play =>
          have accepted := playCardCheck_play checked
          have owned := run_owned run (playCardCheck_state checked)
          have iff := @CardsInv.found_iff r.core p owned play accepted.owned
          simp only [Room.NamesTwice, checked, not_not]
          rw [← iff]
          cases found : ((r.core.players p).robotAgent.playCard (some play)).2 with
          | true =>
              have slept : outcome = .sleeping :=
                (congrArg Prod.snd done).symm.trans (commit_found accepted found)
              simp [slept, Outcome.Fails]
          | false =>
              obtain ⟨raised, waiting⟩ := @commit_lost conf d' r p play found
              rw [done] at raised waiting
              simp only [Bool.false_eq_true, iff_false, Classical.not_imp]
              refine ⟨by rw [show outcome = _ from raised]; trivial, ?_⟩
              rintro rfl
              exact absurd (waiting.symm.trans (playCardCheck_state checked)) (by decide)

end Refusals

/-- A section that a request starts while none is held. -/
theorem exec_playCard {conf : Conf} {r : Room} {p : Seat} {params : PlayParams} {d : Draws}
    (free : r.holding = none) :
    r.exec conf (.request p (.playCard params)) d = some (r.PlayCard conf p params d) := if_pos free

/-- One card named twice as a pair. -/
def twice : PlayParams := ⟨some .playCard, some ⟨some .dui, 0, some [0x11, 0x11]⟩⟩

/-- A single card claimed to be a pair. -/
def misnamed : PlayParams := ⟨some .playCard, some ⟨some .dui, 0, some [0x11]⟩⟩

theorem playCard_keeps_refused :
    ∃ r r' outcome, Run (Room.step (.plain 1 Nat.one_pos)) anyStep
        (plainStart (.plain 1 Nat.one_pos)) playingRun r ∧
      r.exec (.plain 1 Nat.one_pos) (.request 0 (.playCard misnamed)) (.plain (classic [])) =
        some (r', outcome) ∧ outcome.Fails ∧ r' = r := by
  have state : (exec (Room.step (.plain 1 Nat.one_pos)) (plainStart (.plain 1 Nat.one_pos))
      playingRun).map (fun r => (r.holding, (r.PlayCard (.plain 1 Nat.one_pos) 0 misnamed
        (.plain (classic []))).2, decide (r.NamesTwice 0 misnamed))) =
      some (none, .raised "attempt to index a nil value (local 'cardTypeObj')", false) := by
    decide +kernel
  obtain ⟨r, done, result⟩ := Option.map_eq_some_iff.mp state
  simp only [Prod.mk.injEq, decide_eq_false_iff_not] at result
  obtain ⟨free, raised, once⟩ := result
  have run := run_of_exec _ _ r done
  have moved := @exec_playCard (.plain 1 Nat.one_pos) r 0 misnamed (.plain (classic [])) free
  have fails : (r.PlayCard (.plain 1 Nat.one_pos) 0 misnamed (.plain (classic []))).2.Fails := by
    rw [raised]
    trivial
  exact ⟨r, _, _, run, moved, fails, (playCard_keeps run moved).mpr once fails⟩

/-- Nobody is asked and nothing is pending. -/
def Room.Stuck (r : Room) : Prop :=
  (∀ q, (r.players q).state = .waiting) ∧ r.waits = [] ∧ r.holding = none

instance (r : Room) : Decidable r.Stuck := by
  unfold Room.Stuck
  infer_instance

/-- The refused pair is taken for an answer, and the game is over without an end. -/
theorem playCard_keeps_fails :
    ∃ r r' outcome, Run (Room.step (.plain 1 Nat.one_pos)) anyStep
        (plainStart (.plain 1 Nat.one_pos)) playingRun r ∧
      r.exec (.plain 1 Nat.one_pos) (.request 0 (.playCard twice)) (.plain (classic [])) =
        some (r', outcome) ∧
      outcome.Fails ∧ r' ≠ r ∧ (r.players 0).state = .playing ∧ r'.Stuck := by
  have state : (exec (Room.step (.plain 1 Nat.one_pos)) (plainStart (.plain 1 Nat.one_pos))
      playingRun).map (fun r => (r.holding, (r.PlayCard (.plain 1 Nat.one_pos) 0 twice
        (.plain (classic []))).2, (r.players 0).state, decide (r.PlayCard (.plain 1 Nat.one_pos)
        0 twice (.plain (classic []))).1.Stuck)) =
      some (none, .raised "remove_one_from_handcards failed", .playing, true) := by
    decide +kernel
  obtain ⟨r, done, result⟩ := Option.map_eq_some_iff.mp state
  simp only [Prod.mk.injEq, decide_eq_true_eq] at result
  obtain ⟨free, raised, asked, stuck⟩ := result
  have moved := @exec_playCard (.plain 1 Nat.one_pos) r 0 twice (.plain (classic [])) free
  have fails : (r.PlayCard (.plain 1 Nat.one_pos) 0 twice (.plain (classic []))).2.Fails := by
    rw [raised]
    trivial
  have changed : (r.PlayCard (.plain 1 Nat.one_pos) 0 twice (.plain (classic []))).1 ≠ r := by
    intro same
    have waiting := stuck.1 0
    rw [same, asked] at waiting
    cases waiting
  exact ⟨r, _, _, run_of_exec _ _ r done, moved, fails, changed, asked, stuck⟩

/-- No client sends an otherwise acceptable list that names a card twice. -/
def Room.Once (r : Room) : Event × Draws → Prop
  | (.request p (.playCard params), _) => ¬r.NamesTwice p params
  | _ => True

instance (r : Room) (e : Event × Draws) : Decidable (r.Once e) := by
  unfold Room.Once
  split <;> infer_instance

/-- The same of the core, event by event. -/
def Room.CoreOnce (c : Room) (e : Event) : Prop :=
  ∀ p params, e = .request p (.playCard params) → ¬c.NamesTwice p params

section Runs
variable {conf : Conf} {e : Event} {d : Draws} {c c' : Room} {ph ph' : Phase} {p q l w : Seat}
  {play : PlayCardObj}

theorem coreOnce_of_once (r : Room) (e : Event) (d : Draws) (once : r.Once (e, d)) :
    r.core.CoreOnce e := by
  rintro p params rfl
  exact once

/-- The list an accepted play comes from. -/
theorem playCardCheck_cards {params : PlayParams}
    (checked : c.playCardCheck p params = .ok (some play)) :
    ∃ obj, params.playCardObj = some obj ∧ obj.cards = some play.cards := by
  simp only [Room.playCardCheck] at checked
  split at checked
  · cases checked
  split at checked
  · split at checked
    · cases checked
    · cases checked
  · split at checked
    · cases checked
    split at checked
    · cases checked
    split at checked
    · cases checked
    · rename_i obj asked _ cards listed _ _ accepted
      obtain rfl := Option.some.inj (Except.ok.inj checked)
      exact ⟨obj, asked, listed.trans (congrArg some (checkPlay_ok accepted).1.symm)⟩
  · cases checked

/-- The auto-player's own lists name no card twice. -/
theorem autoDecision_once (inv : CardsInv c) {decision : Option Move}
    (decided : c.autoDecision p d = .ok decision)
    (checked : c.playCardCheck p (Room.autoParams decision) = .ok (some play)) :
    (play.cards.map low).Nodup := by
  obtain ⟨obj, asked, listed⟩ := playCardCheck_cards checked
  cases decision with
  | none => cases asked
  | some move =>
      obtain rfl := Option.some.inj asked
      obtain ⟨copy, same, perm⟩ := inv.copied p
      have le : (play.cards : Multiset Card) ≤ copy := by
        rw [← Option.some.inj listed]
        simp only [Room.autoDecision, same] at decided
        split at decided
        · exact getPlayCardObj_le decided
        · exact getPlayCardObj_le decided
      have sub : (play.cards : Multiset Card) ≤ (c.players p).cards :=
        le.trans (Multiset.coe_eq_coe.mpr perm).le
      have masked : play.cards.map low = play.cards :=
        (List.map_congr_left fun card mem => inv.hand_masked p card (Multiset.mem_of_le sub mem)).trans
          (List.map_id' _)
      rw [masked]
      exact Multiset.coe_nodup.mp
        (Multiset.nodup_of_le sub (Multiset.coe_nodup.mpr (inv.hand_nodup p)))

/-- No accepted list is one the copy does not find. -/
theorem plays_found (inv : CardsInv c) (once : c.CoreOnce e) (plays : c.Plays e d p (some play)) :
    ((c.players p).robotAgent.playCard (some play)).2 = true := by
  obtain ⟨params, checked⟩ := plays_checked plays
  refine (inv.found_iff (playCardCheck_play checked).owned).mpr ?_
  obtain ⟨params, request, checked⟩ | ⟨decision, decided, checked⟩ := plays
  · have named := once p params request
    simp only [Room.NamesTwice, checked, not_not] at named
    exact named
  · exact autoDecision_once inv decided checked

/-- A play recorded between two rooms comes exactly out of its player's hand. -/
def Room.Removes (r r' : Room) : Prop :=
  ∀ p play, r'.moves = (p, some play) :: r.moves →
    ((play.cards.map low : List Card) : Multiset Card) ≤ (r.players p).cards ∧
    ((r'.players p).cards : Multiset Card) = (r.players p).cards - (play.cards.map low : List Card) ∧
    ∀ q, q ≠ p → (r'.players q).cards = (r.players q).cards

theorem removes_of_moves (same : c'.moves = c.moves) : c.Removes c' := by
  intro p play moves
  rw [same] at moves
  exact absurd moves.symm (List.cons_ne_self _ _)

theorem removes_recorded (inv : CardsInv c)
    (owned : ∀ card ∈ play.cards, low card ∈ (c.players p).cards)
    (found : ((c.players p).robotAgent.playCard (some play)).2 = true)
    (keeps : (c.recorded p play).Keeps c') : c.Removes c' := by
  intro q other moves
  rw [keeps.moves, moves_recorded] at moves
  obtain ⟨rfl, rfl⟩ : p = q ∧ play = other := by simpa using moves
  have once := (inv.found_iff owned).mp found
  have taken := removePlayed_perm (inv.hand_nodup p) owned once
  have split : ((c.players p).cards : Multiset Card) =
      (removePlayed (c.players p).cards play.cards : List Card) +
        (play.cards.map low : List Card) := by
    rw [Multiset.coe_add]
    exact Multiset.coe_eq_coe.mpr taken.symm
  refine ⟨?_, ?_, ?_⟩
  · rw [split]
    exact Multiset.le_add_left _ _
  · rw [keeps.cards, split, add_tsub_cancel_right]
    exact congrArg (fun hand : List Card × RobotAgent => (hand.1 : Multiset Card))
      (hand_recorded play)
  · intro q other
    rw [keeps.cards, hand_recorded_ne play other]

theorem removes_trans (phase : c.control = ph.control) (inv : CardsInv c)
    (trans : Trans conf e d c ph ph' c') : c.Removes c' := by
  have state : c.state = ph.control.state := congrArg Control.state phase
  cases landlord : ph.control.landlordPlayer with
  | none =>
      obtain ⟨m, keeps, rfl | rfl | ⟨l, delayed, rfl⟩⟩ := early_keeps landlord trans
      · exact removes_of_moves keeps.moves
      · intro p play moves
        cases moves
      · exact removes_of_moves ((moves_setLandlord delayed).trans keeps.moves)
  | some l =>
      by_cases moving : ∃ l p, ph = .playing l p
      · obtain ⟨l, p, rfl⟩ := moving
        cases trans with
        | gold ph q num => exact removes_of_moves (keeps_gold num).moves
        | showCard ph q early => exact removes_of_moves (keeps_showCard _).moves
        | pass l p plays cards =>
            intro q play moves
            rw [moves_pass state] at moves
            simp at moves
        | passOut l p plays cards =>
            intro q play moves
            rw [moves_pass state] at moves
            simp at moves
        | play l p play m plays mirror bomb =>
            obtain ⟨params, checked⟩ := plays_checked plays
            have keeps : (c.recorded p play).Keeps m := keeps_bombMultiple bomb
            exact removes_recorded inv (playCardCheck_play checked).owned mirror
              ⟨keeps.hands, keeps.adds.to rfl, keeps.last, keeps.landlord⟩
        | mirrorRaised l p play plays mirror => exact removes_of_moves rfl
        | bombRaised l p play message plays mirror bomb =>
            obtain ⟨params, checked⟩ := plays_checked plays
            exact absurd bomb (bombMultiple_ok (playCardCheck_play checked) _ message)
      by_cases ending : ∃ l w, ph = .out l w
      · obtain ⟨l, w, rfl⟩ := ending
        cases trans with
        | gold ph q num => exact removes_of_moves (keeps_gold num).moves
        | showCard ph q early => exact removes_of_moves (keeps_showCard _).moves
        | ended l w => exact removes_of_moves moves_ended
      · exact removes_of_moves (late_keeps phase landlord (fun l p here => moving ⟨l, p, here⟩)
          (fun l w here => ending ⟨l, w, here⟩) trans).moves

/-- The invariants of the moves, and every card in one place. -/
structure OnceInv (ph : Phase) (c : Room) : Prop where
  hands : HandsInv ph c
  turn : TurnInv ph c
  cards : CardsInv c
  free : ∀ l, ph ≠ .wedged l

theorem onceInv_trans (phase : c.control = ph.control) (inv : OnceInv ph c)
    (once : c.CoreOnce e) (trans : Trans conf e d c ph ph' c') : OnceInv ph' c' := by
  have free : ∀ l, ph' ≠ .wedged l := by
    intro l stuck
    cases trans with
    | gold ph q num => exact inv.free l stuck
    | showCard ph q early => exact inv.free l stuck
    | bid rob yes p =>
        generalize (Room.bidEnd _ rob p (bidAction rob yes)).2 = bid at stuck
        cases bid <;> cases stuck
    | mirrorRaised l p play plays mirror =>
        rw [plays_found inv.cards once plays] at mirror
        cases mirror
    | bombRaised l p play message plays mirror bomb =>
        obtain ⟨params, checked⟩ := plays_checked plays
        exact bombMultiple_ok (playCardCheck_play checked) _ message bomb
    | lost l found =>
        obtain ⟨board, begun, _⟩ := inv.turn
        obtain ⟨k, last, lastly, _⟩ := legal_last board.legal begun
        have none' := board.last
        rw [found, lastly] at none'
        cases none'
    | _ => cases stuck
  exact ⟨handsInv_trans phase inv.hands trans, turnInv_trans phase inv.hands inv.turn trans,
    ownInv_trans phase (fun _ => inv.cards) trans free, free⟩

end Runs

/-- The deck is whole, and the copies are the hands. -/
structure CardsHold (r : Room) : Prop where
  whole : r.cardsInPlay = create_a_pair_cards
  distinct : r.cardsInPlay.Nodup
  copied : ∀ q, (r.players q).robotAgent.handcards.Perm (r.players q).cards

section Result
variable {conf : Conf} {agents : Seat → UserAgent} {gold : Seat → Int} {d : Draws}
  {es : List (Event × Draws)} {r r' : Room}

theorem run_onceInv (run : Run (Room.step conf) Room.Once (Room.init conf agents gold d) es r) :
    ∃ ph : Phase, r.control = ph.control ∧ OnceInv ph r.core := by
  refine Room.run_invariant (fun c e _ => c.CoreOnce e) OnceInv coreOnce_of_once ?_ ?_ run
  · exact ⟨hands_deal conf d, Untouched.deal (c := Room.ready gold) ⟨rfl, rfl, rfl⟩,
      cardsInv_deal (c := Room.ready gold) conf d rfl, nofun⟩
  · exact fun _ _ _ _ _ _ phase inv once trans => onceInv_trans phase inv once trans

theorem cardsHold_of_core (r : Room) (inv : CardsInv r.core) : CardsHold r := by
  have whole : r.cardsInPlay = create_a_pair_cards := by
    rw [← inv.whole, Room.cardsInPlay, Room.cardsInPlay, playedIn, playedIn,
      show movesIn (sinceDeal r.core.sent) = movesIn (sinceDeal r.sent) from moves_core r]
    rfl
  refine ⟨whole, whole ▸ Multiset.coe_nodup.mpr deck_nodup, ?_⟩
  intro q
  obtain ⟨copy, same, perm⟩ := inv.copied q
  have agent : (r.players q).robotAgent = .init_handcards copy := same
  rw [agent]
  exact perm

/-- As long as no client sends an otherwise acceptable list that names a card twice, no card
appears or is lost, every play comes exactly out of its player's hand, and the copies of
the hands are the hands. -/
theorem run_cards (run : Run (Room.step conf) Room.Once (Room.init conf agents gold d) es r) :
    CardsHold r ∧ ∀ e r', r.step conf e = some r' → r.Removes r' := by
  obtain ⟨ph, phase, inv⟩ := run_onceInv run
  refine ⟨cardsHold_of_core r inv.cards, ?_⟩
  intro e r' moved p play moves
  obtain same | act := Room.step_moves conf e.1 e.2 r r' moved
  · have still : r'.moves = r.moves := by rw [← moves_core, same, moves_core]
    exact removes_of_moves still p play moves
  · obtain ⟨ph', trans, _⟩ := act_trans conf e.1 e.2 r.core r'.core phase act
    exact removes_trans (c := r.core) phase inv.cards trans p play
      (by rw [moves_core, moves_core, moves])

end Result

/-- The landlord plays a card, and the next player leaves the game to the auto-player. -/
def ownedRun : List (Event × Draws) :=
  playingRun ++ [.request 0 (playRequest .dan [0x11]), .resume, .resume,
    .request 1 (.setTrusteeship true), .resume, .resume].map fun e => (e, .plain (classic []))

theorem run_cards_played :
    ∃ r, Run (Room.step (.plain 1 Nat.one_pos)) Room.Once (plainStart (.plain 1 Nat.one_pos))
        ownedRun r ∧ r.moves.length = 2 ∧ CardsHold r := by
  have state : (exec (guarded (Room.step (.plain 1 Nat.one_pos)) Room.Once)
      (plainStart (.plain 1 Nat.one_pos)) ownedRun).map (fun r => r.moves.length) = some 2 := by
    decide +kernel
  obtain ⟨r, done, length⟩ := Option.map_eq_some_iff.mp state
  have run := run_of_guarded _ ownedRun r done
  exact ⟨r, run, length, (run_cards run).1⟩

/-- The copy has given up a card that is still in the hand. -/
theorem run_cards_fails :
    ∃ r, Run (Room.step (.plain 1 Nat.one_pos)) anyStep (plainStart (.plain 1 Nat.one_pos))
        (playingRun ++ [(.request 0 (.playCard twice), .plain (classic []))]) r ∧
      ¬((r.players 0).robotAgent.handcards.Perm (r.players 0).cards) := by
  have state : (exec (Room.step (.plain 1 Nat.one_pos)) (plainStart (.plain 1 Nat.one_pos))
      (playingRun ++ [(.request 0 (.playCard twice), .plain (classic []))])).map
        (fun r => ((r.players 0).robotAgent.handcards.length, (r.players 0).cards.length)) =
      some (19, 20) := by decide +kernel
  obtain ⟨r, done, lengths⟩ := Option.map_eq_some_iff.mp state
  obtain ⟨copy, hand⟩ := Prod.mk.inj lengths
  refine ⟨r, run_of_exec _ _ r done, fun perm => ?_⟩
  have same := perm.length_eq
  rw [copy, hand] at same
  cases same

end HuluLandlord.Ddz
