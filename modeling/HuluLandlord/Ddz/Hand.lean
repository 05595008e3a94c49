import HuluLandlord.Ddz.Record
import Mathlib.Algebra.BigOperators.Fin

/-!
The cards of a room. Every card of the deck is in exactly one place: a hand, a play
since the last deal, or the bottom cards while there is no landlord. The auto-player's
copy of a hand holds the same cards. All of it is kept by every transition but the
one that raises inside the copy, which needs a play that names a card twice.
-/
namespace HuluLandlord.Ddz
open Transition

section Removal

theorem removeInLoop_cons_ne {x c : Card} (ne : c ≠ x) (cards : List Card) :
    removeInLoop x (c :: cards) = c :: removeInLoop x cards := by
  cases cards with
  | nil => simp [removeInLoop, ne]
  | cons next rest => simp [removeInLoop, ne]

theorem removeInLoop_of_not_mem {x : Card} {hand : List Card} (absent : x ∉ hand) :
    removeInLoop x hand = hand := by
  induction hand with
  | nil => rfl
  | cons c cards ih =>
      have ne : c ≠ x := fun same => absent (same ▸ List.mem_cons_self)
      rw [removeInLoop_cons_ne ne, ih fun mem => absent (List.mem_cons_of_mem c mem)]

/-- In a hand without repetition the loop skips nothing it should remove. -/
theorem removeInLoop_eq_erase {x : Card} {hand : List Card} (distinct : hand.Nodup) :
    removeInLoop x hand = hand.erase x := by
  induction hand with
  | nil => rfl
  | cons c cards ih =>
      obtain ⟨absent, distinct⟩ := List.nodup_cons.mp distinct
      by_cases here : c = x
      · subst here
        rw [List.erase_cons_head]
        cases cards with
        | nil => simp [removeInLoop]
        | cons next rest =>
            have absent' : c ∉ rest := fun mem => absent (List.mem_cons_of_mem next mem)
            have skip : removeInLoop c (c :: next :: rest) = next :: removeInLoop c rest := by
              simp [removeInLoop]
            rw [skip]
            exact congrArg (next :: ·) (removeInLoop_of_not_mem absent')
      · rw [removeInLoop_cons_ne here, ih distinct, List.erase_cons_tail (by simp [here])]

/-- A play of distinct cards of the hand is taken out exactly. -/
theorem removePlayed_perm {hand cards : List Card} (distinct : hand.Nodup)
    (owned : ∀ card ∈ cards, low card ∈ hand) (once : (cards.map low).Nodup) :
    (removePlayed hand cards ++ cards.map low).Perm hand := by
  induction cards generalizing hand with
  | nil => simp [removePlayed]
  | cons v cards ih =>
      obtain ⟨absent, once⟩ := List.nodup_cons.mp once
      have mem : low v ∈ hand := owned v List.mem_cons_self
      have rest : ∀ card ∈ cards, low card ∈ hand.erase (low v) := by
        intro card inPlay
        have ne : low card ≠ low v := fun same => absent (same ▸ List.mem_map_of_mem inPlay)
        exact (List.mem_erase_of_ne ne).mpr (owned card (List.mem_cons_of_mem v inPlay))
      have step : removePlayed hand (v :: cards) = removePlayed (hand.erase (low v)) cards := by
        rw [removePlayed, List.foldl_cons, removeInLoop_eq_erase distinct]
        rfl
      rw [step, List.map_cons]
      have back := ih (distinct.erase (low v)) rest once
      exact List.perm_middle.trans ((back.cons (low v)).trans (List.perm_cons_erase mem).symm)

/-- The cards of the deck are what masking leaves. -/
def Masked (cards : List Card) : Prop := ∀ card ∈ cards, low card = card

theorem Masked.erase {cards : List Card} (masked : Masked cards) (x : Card) :
    Masked (cards.erase x) :=
  fun card mem => masked card (List.mem_of_mem_erase mem)

theorem eraseP_low {cards : List Card} (masked : Masked cards) (v : Card) :
    (cards.eraseP fun c => low c = low v) = cards.erase (low v) := by
  induction cards with
  | nil => rfl
  | cons c cards ih =>
      have fixed := masked c List.mem_cons_self
      by_cases here : c = low v
      · rw [List.eraseP_cons_of_pos (by simp [here]), here, List.erase_cons_head]
      · rw [List.eraseP_cons_of_neg (by simp [fixed, here]), List.erase_cons_tail (by simp [here]),
          ih fun card mem => masked card (List.mem_cons_of_mem c mem)]

theorem any_low {cards : List Card} (masked : Masked cards) (v : Card) :
    (cards.any fun c => low c = low v) = decide (low v ∈ cards) := by
  rw [Bool.eq_iff_iff, List.any_eq_true, decide_eq_true_iff]
  constructor
  · intro ⟨c, mem, same⟩
    rw [decide_eq_true_eq, masked c mem] at same
    exact same ▸ mem
  · intro mem
    exact ⟨low v, mem, by simp⟩

/-- When the copy finds every card, it has given up exactly the play. -/
theorem remove_from_handcards_perm {hand cards left : List Card} (masked : Masked hand)
    (found : RobotAgent.remove_from_handcards hand cards = (left, true)) :
    (left ++ cards.map low).Perm hand := by
  induction cards generalizing hand with
  | nil =>
      obtain rfl : hand = left := congrArg Prod.fst found
      simp
  | cons v cards ih =>
      rw [RobotAgent.remove_from_handcards, any_low masked, eraseP_low masked] at found
      by_cases mem : low v ∈ hand
      · rw [if_pos (decide_eq_true mem)] at found
        have back := ih (masked.erase (low v)) found
        rw [List.map_cons]
        exact List.perm_middle.trans ((back.cons (low v)).trans (List.perm_cons_erase mem).symm)
      · rw [if_neg (by simpa using mem)] at found
        cases found

/-- The copy finds every card of a play that names none twice. -/
theorem remove_from_handcards_found {hand cards : List Card} (masked : Masked hand)
    (owned : ∀ card ∈ cards, low card ∈ hand) (once : (cards.map low).Nodup) :
    (RobotAgent.remove_from_handcards hand cards).2 = true := by
  induction cards generalizing hand with
  | nil => rfl
  | cons v cards ih =>
      obtain ⟨absent, once⟩ := List.nodup_cons.mp once
      have mem : low v ∈ hand := owned v List.mem_cons_self
      rw [RobotAgent.remove_from_handcards, any_low masked, eraseP_low masked,
        if_pos (decide_eq_true mem)]
      refine ih (masked.erase (low v)) ?_ once
      intro card inPlay
      have ne : low card ≠ low v := fun same => absent (same ▸ List.mem_map_of_mem inPlay)
      exact (List.mem_erase_of_ne ne).mpr (owned card (List.mem_cons_of_mem v inPlay))

end Removal

theorem deck_masked : ∀ card ∈ create_a_pair_cards, low card = card := by decide

def cardsOf (move : Seat × Option PlayCardObj) : List Card :=
  match move.2 with
  | some play => play.cards.map low
  | none => []

/-- The cards of the plays among some messages, as the deck has them. -/
def playedIn (messages : List Message) : List Card := (movesIn messages).flatMap cardsOf

/-- The hands, the plays since the last deal and, without a landlord, the bottom. -/
def Room.cardsInPlay (c : Room) : Multiset Card :=
  (∑ q, ((c.players q).cards : Multiset Card)) + (playedIn (sinceDeal c.sent) : Multiset Card) +
    if c.landlordPlayer = none then (c.bottomCards : Multiset Card) else 0

/-- The auto-player's copy: the cards of the hand, decomposed. -/
def Player.Copied (pl : Player) : Prop :=
  ∃ cards, pl.robotAgent = .init_handcards cards ∧ cards.Perm pl.cards

structure CardsInv (c : Room) : Prop where
  whole : c.cardsInPlay = create_a_pair_cards
  copied : ∀ q, (c.players q).Copied

/-- What the cards of a player are read from. -/
def Player.hand (pl : Player) : List Card × RobotAgent := (pl.cards, pl.robotAgent)

section Frame
variable {conf : Conf} {e : Event} {d : Draws} {c c' : Room} {ph ph' : Phase} {p q l : Seat}

theorem field_modify {α : Type*} (field : Player → α) {g : Player → Player}
    (same : field (g (c.players p)) = field (c.players p)) (q : Seat) :
    field ((c.modify p g).players q) = field (c.players q) := by
  by_cases here : q = p
  · subst here
    simp only [Room.modify, Function.update_self, same]
  · simp only [Room.modify, Function.update_of_ne here]

theorem hand_prompt (state : PlayerState) (time : Int) (q : Seat) :
    ((c.prompt p state time).players q).hand = (c.players q).hand :=
  field_modify (c := c.send _) Player.hand rfl q

theorem hand_promptAll (state : PlayerState) (time : Int) (q : Seat) :
    ((c.promptAll state time).players q).hand = (c.players q).hand :=
  (hand_prompt _ _ q).trans ((hand_prompt _ _ q).trans (hand_prompt _ _ q))

theorem hand_allWaiting (q : Seat) : (c.allWaiting.players q).hand = (c.players q).hand := by
  match q with
  | 0 => rfl
  | 1 => rfl
  | 2 => rfl

theorem players_coreAnswer {type : PlayerAction} {key : Option MultipleKey} {val : Nat}
    (late : c.state = .doubleing ∨ c.state = .doubleMax) :
    (c.coreAnswer conf p type key val d).players = c.players := by
  have announced : ((c.send (.roomSyncPlayerAction p type none)).announce key val p).players =
      c.players := by cases key <;> rfl
  have state := congrArg Control.state
    (control_announce (c := c.send (.roomSyncPlayerAction p type none)) (p := p) key val)
  simp only [Room.coreAnswer]
  generalize (c.send (.roomSyncPlayerAction p type none)).announce key val p = m
    at announced state ⊢
  cases late with
  | inl doubleing =>
      rw [coreActionEnd_doubleing conf d type (state.trans doubleing)]
      split <;> exact announced
  | inr doubleMax =>
      rw [coreActionEnd_doubleMax conf d type (state.trans doubleMax)]
      split <;> exact announced

theorem players_bidden (rob yes : Bool) :
    (c.bidden conf rob yes p).players =
      (c.modify p fun pl => pl.answered (bidAction rob yes)).players := by
  cases rob <;> cases yes <;> rfl

theorem hand_coreAction_playing (q : Seat) :
    ((c.coreAction conf .playing (some p) d).players q).hand = (c.players q).hand :=
  (hand_prompt (c := (c.enter .playing (some p)).setPlayCardState p _) _ _ q).trans
    (field_modify (c := c.enter .playing (some p)) Player.hand rfl q)

theorem players_actionEnded : (c.actionEnded conf p).players = c.players := by
  simp only [Room.actionEnded]
  split
  · split <;> rfl
  · split
    · rfl
    · split <;> rfl

theorem players_playing {type : PlayerAction} (state : c.state = .playing) :
    (c.coreActionEnd conf p type d).players = c.players := by
  rw [coreActionEnd_playing conf d type state]
  split <;> rfl

theorem hand_pass (state : c.state = .playing) (q : Seat) :
    ((c.corePlay conf p none d).players q).hand = (c.players q).hand := by
  have players : (c.corePlay conf p none d).players = (c.played p none).players :=
    players_playing (c := (c.played p none).send (.roomSyncPlayerAction p .pass none)) state
  rw [players]
  exact field_modify Player.hand rfl q

/-- With a landlord, only a play of cards changes a hand. -/
theorem hand_late (phase : c.control = ph.control) (set : ph.control.landlordPlayer = some l)
    (trans : Trans conf e d c ph ph' c')
    (noPlay : ∀ l p, ph = .playing l p → ph' = .nextTurn l ∨ ph' = .out l p) (q : Seat) :
    (c'.players q).hand = (c.players q).hand := by
  have state : c.state = ph.control.state := congrArg Control.state phase
  cases trans with
  | gold ph p num => exact field_modify Player.hand rfl q
  | showCard ph p early => rfl
  | first => cases set
  | bid rob yes p => cases set
  | force rob q p buff cfg skill => cases set
  | delayed rob l => rfl
  | set rob l => exact hand_promptAll (c := Room.enter _ _ _) _ _ q
  | double l p answered t type multiple key open' info =>
      have players := @players_coreAnswer conf d (c.modify p fun pl => { pl.answered type with
        doubleAction := some type, doubleMultiple := some multiple }) p type key multiple (.inl state)
      exact (congrArg (fun players : Seat → Player => (players q).hand) players).trans
        (field_modify Player.hand rfl q)
  | doubled l => exact hand_promptAll (c := Room.enter _ _ _) _ _ q
  | doubleMax l p answered t type multiple key open' info =>
      have players := @players_coreAnswer conf d (c.modify p fun pl => { pl.answered type with
        doubleMaxAction := some type, doubleMaxMultiple := some multiple }) p type key multiple
        (.inr state)
      exact (congrArg (fun players : Seat → Player => (players q).hand) players).trans
        (field_modify Player.hand rfl q)
  | doubledMax l =>
      rw [coreFire_doubleMax conf d (congrArg Control.landlordPlayer phase)]
      exact hand_coreAction_playing q
  | pass l p plays cards => exact hand_pass state q
  | passOut l p plays cards => exact hand_pass state q
  | play l p play m plays mirror bomb => exact absurd (noPlay l p rfl) (by simp)
  | mirrorRaised l p play plays mirror => exact absurd (noPlay l p rfl) (by simp)
  | bombRaised l p play message plays mirror bomb => exact absurd (noPlay l p rfl) (by simp)
  | turn l p cards =>
      exact congrArg (fun players : Seat → Player => (players q).hand)
        (players_playing (c := { c with holding := none }) state)
  | out l p cards =>
      exact congrArg (fun players : Seat → Player => (players q).hand)
        (players_playing (c := { c with holding := none }) state)
  | next l last found =>
      rw [coreResume_next conf d found]
      exact (hand_coreAction_playing q).trans (field_modify Player.hand rfl q)
  | lost l found =>
      rw [coreResume_lost conf d found]
  | ended l w =>
      exact congrArg (fun players : Seat → Player => (players q).hand) players_actionEnded

/-- Messages that neither move nor deal. -/
def Message.isQuiet (m : Message) : Prop := m.move = none ∧ m.isDeal = false

/-- Messages that neither move, nor deal, nor settle. -/
def Message.isSilent (m : Message) : Prop := m.isQuiet ∧ m.winner = none

theorem isQuiet_of_isStill {m : Message} (still : m.isStill) : m.isQuiet := by
  refine ⟨still.2.1, ?_⟩
  cases m with
  | roomDealCard p cards => exact still.1.elim
  | _ => rfl

theorem movesIn_adds (adds : c.Adds Message.isQuiet c') :
    movesIn (sinceDeal c'.sent) = movesIn (sinceDeal c.sent) :=
  filterMap_sinceDeal_adds (fun _ quiet => quiet) adds

theorem CardsInv.frame (inv : CardsInv c) (hands : ∀ q, (c'.players q).hand = (c.players q).hand)
    (adds : c.Adds Message.isQuiet c')
    (unset : c'.landlordPlayer = none ↔ c.landlordPlayer = none) : CardsInv c' := by
  have cards : ∀ q, (c'.players q).cards = (c.players q).cards :=
    fun q => congrArg Prod.fst (hands q)
  have agents : ∀ q, (c'.players q).robotAgent = (c.players q).robotAgent :=
    fun q => congrArg Prod.snd (hands q)
  refine ⟨?_, ?_⟩
  · rw [← inv.whole]
    simp only [Room.cardsInPlay, playedIn, movesIn_adds adds, cards, adds.bottomCards, unset]
  · intro q
    obtain ⟨copy, same, perm⟩ := inv.copied q
    exact ⟨copy, (agents q).trans same, cards q ▸ perm⟩

theorem sortCards_perm (cards : List Card) : (sortCards cards).Perm cards :=
  List.perm_insertionSort _ cards

/-- A deal puts the whole deck on the table. -/
theorem cardsInv_deal (conf : Conf) (d : Draws) (unset : c.landlordPlayer = none) :
    CardsInv (c.coreAction conf .dealCard none d) := by
  have players : ∀ q, ((c.coreAction conf .dealCard none d).players q).hand =
      (sortCards (d.deal.cards q), .init_handcards (d.deal.cards q)) := by
    intro q
    match q with
    | 0 => rfl
    | 1 => rfl
    | 2 => rfl
  have cards : ∀ q, ((c.coreAction conf .dealCard none d).players q).cards =
      sortCards (d.deal.cards q) := fun q => congrArg Prod.fst (players q)
  have played : playedIn (sinceDeal (c.coreAction conf .dealCard none d).sent) = [] := rfl
  have landlord : (c.coreAction conf .dealCard none d).landlordPlayer = none := unset
  have bottom : (c.coreAction conf .dealCard none d).bottomCards = d.deal.bottomCards := rfl
  refine ⟨?_, ?_⟩
  · rw [Room.cardsInPlay, played, if_pos landlord, bottom, Fin.sum_univ_three, cards, cards, cards,
      Multiset.coe_nil, add_zero]
    have sorted : ∀ q, ((sortCards (d.deal.cards q) : List Card) : Multiset Card) =
        d.deal.cards q := fun q => Multiset.coe_eq_coe.mpr (sortCards_perm _)
    rw [sorted, sorted, sorted, Multiset.coe_add, Multiset.coe_add, Multiset.coe_add]
    exact Multiset.coe_eq_coe.mpr d.deal.isDeck
  · intro q
    exact ⟨d.deal.cards q, congrArg Prod.snd (players q), cards q ▸ (sortCards_perm _).symm⟩

theorem adds_landlordSet : c.Adds Message.isSilent (c.landlordSet conf l) :=
  ((Room.Adds.refl.multiple fun _ _ _ => ⟨⟨rfl, rfl⟩, rfl⟩).send
    (m := .roomLandlordSet l c.bottomCards _) ⟨⟨rfl, rfl⟩, rfl⟩).to rfl

theorem cardsInv_setLandlord (delayed : Bool) (inv : CardsInv c) (unset : c.landlordPlayer = none) :
    CardsInv (c.setLandlord conf l delayed) := by
  let m := { c with landlordPlayer := some l }.modify l fun pl => { pl with
    isLandlord := true
    cards := sortCards (pl.cards ++ c.bottomCards)
    robotAgent := pl.robotAgent.setLandlord c.bottomCards }
  have made : CardsInv m := by
    have cards : (fun q => ((m.players q).cards : Multiset Card)) =
        Function.update (fun q => ((c.players q).cards : Multiset Card)) l
          (sortCards ((c.players l).cards ++ c.bottomCards) : List Card) := by
      funext q
      by_cases here : q = l
      · subst here
        simp [m, Room.modify]
      · simp [m, Room.modify, here]
    have sorted : ((sortCards ((c.players l).cards ++ c.bottomCards) : List Card) : Multiset Card) =
        (c.players l).cards + c.bottomCards := by
      rw [Multiset.coe_add]
      exact Multiset.coe_eq_coe.mpr (sortCards_perm _)
    refine ⟨?_, ?_⟩
    · have sum := Shuffle.sum_update id (fun q => ((c.players q).cards : Multiset Card)) l
        ((c.players l).cards + c.bottomCards)
      simp only [id_eq] at sum
      have whole := inv.whole
      rw [Room.cardsInPlay, if_pos unset] at whole
      have total : (∑ q, ((m.players q).cards : Multiset Card)) =
          (∑ q, ((c.players q).cards : Multiset Card)) + c.bottomCards := by
        rw [cards, sorted]
        rw [← add_left_inj ((c.players l).cards : Multiset Card), sum]
        abel
      rw [Room.cardsInPlay, total, if_neg (by simp [m, Room.modify]), add_zero, ← whole]
      exact add_right_comm _ _ _
    · intro q
      by_cases here : q = l
      · subst here
        obtain ⟨copy, same, perm⟩ := inv.copied q
        refine ⟨copy ++ c.bottomCards, ?_, ?_⟩
        · simp [m, Room.modify, same, RobotAgent.setLandlord, RobotAgent.init_handcards]
        · simp only [m, Room.modify, Function.update_self]
          exact (perm.append_right _).trans (sortCards_perm _).symm
      · simp only [m, Room.modify, Function.update_of_ne here]
        exact inv.copied q
  cases delayed with
  | true => exact made.frame (fun _ => rfl) (.same rfl) Iff.rfl
  | false =>
      exact made.frame (fun _ => rfl) (adds_landlordSet.mono fun _ silent => silent.1) Iff.rfl

theorem CardsInv.hand_le (inv : CardsInv c) (q : Seat) :
    ((c.players q).cards : Multiset Card) ≤ create_a_pair_cards := by
  rw [← inv.whole, Room.cardsInPlay, add_assoc]
  exact (Finset.single_le_sum (f := fun q => ((c.players q).cards : Multiset Card))
    (fun _ _ => Multiset.zero_le _) (Finset.mem_univ q)).trans (Multiset.le_add_right _ _)

theorem CardsInv.hand_nodup (inv : CardsInv c) (q : Seat) : (c.players q).cards.Nodup :=
  Multiset.coe_nodup.mp (Multiset.nodup_of_le (inv.hand_le q) (Multiset.coe_nodup.mpr deck_nodup))

theorem CardsInv.hand_masked (inv : CardsInv c) (q : Seat) : Masked (c.players q).cards :=
  fun card mem => deck_masked card (Multiset.mem_of_le (inv.hand_le q) mem)

/-- The copy of a hand finds a play of the hand if and only if it names no card twice. -/
theorem CardsInv.found_iff (inv : CardsInv c) {play : PlayCardObj}
    (owned : ∀ card ∈ play.cards, low card ∈ (c.players p).cards) :
    ((c.players p).robotAgent.playCard (some play)).2 = true ↔ (play.cards.map low).Nodup := by
  obtain ⟨copy, same, perm⟩ := inv.copied p
  have masked : Masked copy := fun card mem => inv.hand_masked p card (perm.mem_iff.mp mem)
  have result : ((c.players p).robotAgent.playCard (some play)).2 =
      (RobotAgent.remove_from_handcards copy play.cards).2 := by
    rw [same]
    simp only [RobotAgent.playCard, RobotAgent.init_handcards]
    generalize RobotAgent.remove_from_handcards copy play.cards = removed
    obtain ⟨left, found⟩ := removed
    cases found <;> rfl
  rw [result]
  constructor
  · intro found
    have removed := @remove_from_handcards_perm copy play.cards _ masked (Prod.ext rfl found)
    exact List.Nodup.of_append_right (removed.nodup_iff.mpr (perm.nodup_iff.mpr (inv.hand_nodup p)))
  · intro once
    exact remove_from_handcards_found masked (fun card mem => perm.mem_iff.mpr (owned card mem)) once

theorem hand_recorded (play : PlayCardObj) :
    ((c.recorded p play).players p).hand =
      (removePlayed (c.players p).cards play.cards,
        ((c.players p).robotAgent.playCard (some play)).1) := by
  simp [Room.recorded, Room.recordPlay, Room.played, Room.send, Room.modify, Player.hand,
    Player.answered]

theorem hand_recorded_ne (play : PlayCardObj) (ne : q ≠ p) :
    (c.recorded p play).players q = c.players q := by
  simp [Room.recorded, Room.recordPlay, Room.played, Room.send, Room.modify, ne]

theorem playedIn_recorded (play : PlayCardObj) :
    playedIn (sinceDeal (c.recorded p play).sent) =
      play.cards.map low ++ playedIn (sinceDeal c.sent) := by
  have sent : sinceDeal (c.recorded p play).sent =
      .roomSyncPlayerAction p .playCard (some play) :: sinceDeal c.sent := sinceDeal_cons rfl c.sent
  rw [sent]
  rfl

/-- A play that the copy finds moves its cards from the hand to the table. -/
theorem CardsInv.recorded (inv : CardsInv c) {play : PlayCardObj}
    (owned : ∀ card ∈ play.cards, low card ∈ (c.players p).cards)
    (found : ((c.players p).robotAgent.playCard (some play)).2 = true)
    (set : c.landlordPlayer ≠ none) : CardsInv (c.recorded p play) := by
  have once := (inv.found_iff owned).mp found
  have taken := removePlayed_perm (inv.hand_nodup p) owned once
  have hand := hand_recorded (c := c) (p := p) play
  have cards : ((c.recorded p play).players p).cards =
      removePlayed (c.players p).cards play.cards := congrArg Prod.fst hand
  have agent : ((c.recorded p play).players p).robotAgent =
      ((c.players p).robotAgent.playCard (some play)).1 := congrArg Prod.snd hand
  have landlord : (c.recorded p play).landlordPlayer ≠ none := set
  refine ⟨?_, ?_⟩
  · have hands : (fun q => (((c.recorded p play).players q).cards : Multiset Card)) =
        Function.update (fun q => ((c.players q).cards : Multiset Card)) p
          (removePlayed (c.players p).cards play.cards) := by
      funext q
      by_cases here : q = p
      · subst here
        rw [cards, Function.update_self]
      · rw [hand_recorded_ne play here, Function.update_of_ne here]
    have sum := Shuffle.sum_update id (fun q => ((c.players q).cards : Multiset Card)) p
      (removePlayed (c.players p).cards play.cards)
    simp only [id_eq] at sum
    have split : ((c.players p).cards : Multiset Card) =
        (removePlayed (c.players p).cards play.cards : List Card) +
          (play.cards.map low : List Card) := by
      rw [Multiset.coe_add]
      exact Multiset.coe_eq_coe.mpr taken.symm
    have whole := inv.whole
    rw [Room.cardsInPlay, if_neg set, add_zero] at whole
    rw [Room.cardsInPlay, if_neg landlord, add_zero, hands, playedIn_recorded, ← whole,
      ← Multiset.coe_add, ← add_assoc]
    refine congrArg (· + (playedIn (sinceDeal c.sent) : Multiset Card)) ?_
    rw [← add_left_inj ((removePlayed (c.players p).cards play.cards : List Card) : Multiset Card),
      ← sum, split]
    abel
  · intro q
    by_cases here : q = p
    · subst here
      obtain ⟨copy, same, perm⟩ := inv.copied q
      have masked : Masked copy := fun card mem => inv.hand_masked q card (perm.mem_iff.mp mem)
      have found' : (RobotAgent.remove_from_handcards copy play.cards).2 = true :=
        remove_from_handcards_found masked (fun card mem => perm.mem_iff.mpr (owned card mem)) once
      have removed := @remove_from_handcards_perm copy play.cards _ masked (Prod.ext rfl found')
      refine ⟨(RobotAgent.remove_from_handcards copy play.cards).1, ?_, ?_⟩
      · rw [agent, same]
        simp only [RobotAgent.playCard, RobotAgent.init_handcards]
        generalize RobotAgent.remove_from_handcards copy play.cards = result at found' ⊢
        obtain ⟨left, ok⟩ := result
        subst found'
        rfl
      · rw [cards]
        exact (List.perm_append_right_iff _).mp (removed.trans (perm.trans taken.symm))
    · rw [hand_recorded_ne play here]
      exact inv.copied q

end Frame

/-- Between two rooms no card moved. -/
structure Room.Keeps (c c' : Room) : Prop where
  hands : ∀ q, (c'.players q).hand = (c.players q).hand
  adds : c.Adds Message.isSilent c'
  last : c'.lastPlayCardObj = c.lastPlayCardObj
  landlord : c'.landlordPlayer = none ↔ c.landlordPlayer = none

section Keeps
variable {conf : Conf} {e : Event} {d : Draws} {c c' : Room} {ph ph' : Phase} {p q l : Seat}

theorem CardsInv.keep (inv : CardsInv c) (keeps : c.Keeps c') : CardsInv c' :=
  inv.frame keeps.hands (keeps.adds.mono fun _ still => still.1) keeps.landlord

theorem keeps_gold (num : Int) : c.Keeps (c.modify p fun pl => { pl with gold := num }) :=
  ⟨fun q => field_modify Player.hand rfl q, .same rfl, rfl, Iff.rfl⟩

theorem keeps_showCard (val : Nat) : c.Keeps (c.addMultiple .showCard val p) :=
  ⟨fun _ => rfl, Room.Adds.refl.multiple fun _ _ _ => ⟨⟨rfl, rfl⟩, rfl⟩, rfl, Iff.rfl⟩

theorem keeps_bidden (rob yes : Bool) : c.Keeps (c.bidden conf rob yes p) := by
  have silent : (Message.roomSyncPlayerAction p (bidAction rob yes) none).isSilent := by
    cases rob <;> cases yes <;> exact ⟨⟨rfl, rfl⟩, rfl⟩
  have answered : c.Adds Message.isSilent (c.modify p fun pl => pl.answered (bidAction rob yes)) :=
    .same rfl
  have adds : c.Adds Message.isSilent (c.bidden conf rob yes p) :=
    ((answered.send silent).announce fun _ _ _ => ⟨⟨rfl, rfl⟩, rfl⟩).to rfl
  refine ⟨fun q => ?_, adds, ?_, ?_⟩
  · rw [players_bidden]
    exact field_modify Player.hand rfl q
  · cases rob <;> cases yes <;> rfl
  · cases rob <;> cases yes <;> exact Iff.rfl

theorem Room.Keeps.prompt {m : Room} (keeps : c.Keeps m) (state : PlayerState) (time : Int) :
    c.Keeps (m.prompt p state time) :=
  ⟨fun q => (hand_prompt state time q).trans (keeps.hands q),
    (keeps.adds.send (m := .roomPleasePlayerAction p state time _) ⟨⟨rfl, rfl⟩, rfl⟩).to rfl,
    keeps.last, keeps.landlord⟩

/-- Before there is a landlord, cards move only by a deal or by making one. -/
theorem early_keeps (unset : ph.control.landlordPlayer = none)
    (trans : Trans conf e d c ph ph' c') :
    ∃ m, c.Keeps m ∧ (c' = m ∨ c' = m.coreAction conf .dealCard none d ∨
      ∃ l delayed, c' = m.setLandlord conf l delayed) := by
  have still : c.Keeps c := ⟨fun _ => rfl, .refl, rfl, Iff.rfl⟩
  cases trans with
  | gold ph p num => exact ⟨_, keeps_gold num, .inl rfl⟩
  | showCard ph p early => exact ⟨_, keeps_showCard _, .inl rfl⟩
  | first =>
      let m := Room.allWaiting { c with waits := c.waits.erase .dealCard }
      have entered : c.Keeps (m.enter .callLandlord (some d.first)) :=
        ⟨fun q => hand_allWaiting (c := { c with waits := c.waits.erase .dealCard }) q, .same rfl,
          rfl, Iff.rfl⟩
      exact ⟨_, entered.prompt .callLandlord 10, .inl rfl⟩
  | bid rob yes p =>
      generalize (c.bidden conf rob yes p).bidEnd rob p (bidAction rob yes) = answer
      obtain ⟨index, bid⟩ := answer
      have bidden : c.Keeps (c.bidden conf rob yes p) := keeps_bidden rob yes
      have moved : c.Keeps ((c.bidden conf rob yes p).setActionPlayerIndex index) :=
        ⟨bidden.hands, bidden.adds.to rfl, bidden.last, bidden.landlord⟩
      have entered : ∀ state q, c.Keeps (((c.bidden conf rob yes p).setActionPlayerIndex
          index).enter state (some q)) :=
        fun _ _ => ⟨moved.hands, moved.adds.to rfl, moved.last, moved.landlord⟩
      cases bid with
      | call q => exact ⟨_, (entered _ q).prompt .callLandlord 10, .inl rfl⟩
      | rob q => exact ⟨_, (entered _ q).prompt .robLandlord 10, .inl rfl⟩
      | landlord l => exact ⟨_, moved, .inr (.inr ⟨l, false, rfl⟩)⟩
      | redeal => exact ⟨_, moved, .inr (.inl rfl)⟩
  | force rob q p buff cfg skill =>
      let m := (c.send (.roomSyncPlayerSkill p buff.skill_id)).allWaiting
      have announced : c.Adds Message.isSilent m :=
        (Room.Adds.refl.send (m := .roomSyncPlayerSkill p buff.skill_id) ⟨⟨rfl, rfl⟩, rfl⟩).to rfl
      have adds : c.Adds Message.isSilent (m.addMultiple .skill buff.magnification p) :=
        announced.multiple fun _ _ _ => ⟨⟨rfl, rfl⟩, rfl⟩
      have hands : ∀ q, (m.players q).hand = (c.players q).hand :=
        fun q => hand_allWaiting (c := c.send _) q
      exact ⟨m.addMultiple .skill buff.magnification p, ⟨hands, adds, rfl, Iff.rfl⟩,
        .inr (.inr ⟨p, true, rfl⟩)⟩
  | _ => cases unset

/-- What the last play and the landlord are. -/
def Room.stakes (c : Room) : Option LastPlay × Option Seat := (c.lastPlayCardObj, c.landlordPlayer)

theorem stakes_coreAnswer {type : PlayerAction} {key : Option MultipleKey} {val : Nat}
    (late : c.state = .doubleing ∨ c.state = .doubleMax) :
    (c.coreAnswer conf p type key val d).stakes = c.stakes := by
  have announced : ((c.send (.roomSyncPlayerAction p type none)).announce key val p).stakes =
      c.stakes := by cases key <;> rfl
  have state := congrArg Control.state
    (control_announce (c := c.send (.roomSyncPlayerAction p type none)) (p := p) key val)
  simp only [Room.coreAnswer]
  generalize (c.send (.roomSyncPlayerAction p type none)).announce key val p = m
    at announced state ⊢
  cases late with
  | inl doubleing =>
      rw [coreActionEnd_doubleing conf d type (state.trans doubleing)]
      split <;> exact announced
  | inr doubleMax =>
      rw [coreActionEnd_doubleMax conf d type (state.trans doubleMax)]
      split <;> exact announced

theorem stakes_playing {type : PlayerAction} (state : c.state = .playing) :
    (c.coreActionEnd conf p type d).stakes = c.stakes := by
  rw [coreActionEnd_playing conf d type state]
  split <;> rfl

theorem Room.Keeps.of_stakes (hands : ∀ q, (c'.players q).hand = (c.players q).hand)
    (adds : c.Adds Message.isSilent c') (same : c'.stakes = c.stakes) : c.Keeps c' :=
  ⟨hands, adds, congrArg Prod.fst same,
    iff_of_eq (congrArg (fun stakes => stakes.2 = none) same)⟩

/-- With a landlord, only a move and the settlement do more than keep the cards. -/
theorem late_keeps (phase : c.control = ph.control) (set : ph.control.landlordPlayer = some l)
    (noMove : ∀ l p, ph ≠ .playing l p) (noEnd : ∀ l w, ph ≠ .out l w)
    (trans : Trans conf e d c ph ph' c') : c.Keeps c' := by
  have state : c.state = ph.control.state := congrArg Control.state phase
  have hands := hand_late phase set trans fun l p here => absurd here (noMove l p)
  have still : (∀ rob l, ph ≠ .landlordDelay rob l) → c.Adds Message.isSilent c' :=
    fun announced => (adds_still phase set announced noMove (fun l w here =>
      absurd here (noEnd l w)) trans).mono fun m still => ⟨isQuiet_of_isStill still, still.2.2⟩
  have keep : (∀ rob l, ph ≠ .landlordDelay rob l) → c'.stakes = c.stakes → c.Keeps c' :=
    fun announced => .of_stakes hands (still announced)
  cases trans with
  | gold ph p num => exact keeps_gold num
  | showCard ph p early => exact keeps_showCard _
  | first => cases set
  | bid rob yes p => cases set
  | force rob q p buff cfg skill => cases set
  | delayed rob l =>
      exact .of_stakes hands (adds_landlordSet.start rfl) rfl
  | set rob l => exact keep nofun rfl
  | double l p answered t type multiple key open' info =>
      exact keep nofun (stakes_coreAnswer (c := c.modify p _) (.inl state))
  | doubled l => exact keep nofun rfl
  | doubleMax l p answered t type multiple key open' info =>
      exact keep nofun (stakes_coreAnswer (c := c.modify p _) (.inr state))
  | doubledMax l => exact keep nofun rfl
  | turn l p cards => exact keep nofun (stakes_playing (c := { c with holding := none }) state)
  | out l p cards => exact keep nofun (stakes_playing (c := { c with holding := none }) state)
  | next l last found =>
      refine keep nofun ?_
      rw [coreResume_next conf d found]
      rfl
  | lost l found =>
      refine keep nofun ?_
      rw [coreResume_lost conf d found]
      rfl
  | ended l w => exact absurd rfl (noEnd l w)
  | _ => exact absurd rfl (noMove _ _)

/-- The factor of a bomb moves no card. -/
theorem keeps_bombMultiple {play : PlayCardObj} (found : c.bombMultiple conf p play = .ok c') :
    c.Keeps c' := by
  have adds : c.Adds Message.isSilent c' :=
    adds_bombMultiple (fun _ _ _ => ⟨⟨rfl, rfl⟩, rfl⟩) found .refl
  simp only [Room.bombMultiple] at found
  split at found
  · split at found
    · obtain rfl := Except.ok.inj found
      exact .of_stakes (fun _ => rfl) adds rfl
    · cases found
  · obtain rfl := Except.ok.inj found
    exact .of_stakes (fun _ => rfl) adds rfl

end Keeps

end HuluLandlord.Ddz
