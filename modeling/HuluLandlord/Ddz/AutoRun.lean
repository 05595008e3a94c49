import HuluLandlord.Ddz.AutoLegal
import HuluLandlord.Ddz.Ownership

/-!
The auto-player in the rooms of a run. The plays recorded since the deal were recognised, and no hand has more
than twenty cards; so whoever is asked to play can be played for.
-/
namespace HuluLandlord.Ddz
open Transition

/-- The plays since the last deal were recognised. -/
def Room.PlaysRecognised (c : Room) : Prop := ∀ move ∈ c.moves, ∀ play, move.2 = some play → Recognised play

/-- Every hand is one that the decomposition is right about. -/
def Room.HandsFit (c : Room) : Prop := ∀ q, (c.players q).cards.length ≤ 20

section Removal

theorem removeInLoop_length (x : Card) (hand : List Card) : (removeInLoop x hand).length ≤ hand.length := by
  induction hand using removeInLoop.induct x with
  | case1 => exact le_rfl
  | case2 =>
      rw [removeInLoop, if_pos rfl]
      exact Nat.zero_le _
  | case3 next rest ih =>
      rw [removeInLoop, if_pos rfl]
      simp only [List.length_cons]
      omega
  | case4 c cards other ih =>
      rw [removeInLoop_cons_ne other]
      simp only [List.length_cons]
      omega

theorem removePlayed_length (hand cards : List Card) : (removePlayed hand cards).length ≤ hand.length := by
  induction cards generalizing hand with
  | nil => exact le_rfl
  | cons card cards ih => exact (ih _).trans (removeInLoop_length (low card) hand)

end Removal

section Steps
variable {conf : Conf} {e : Event} {d : Draws} {c c' : Room} {ph ph' : Phase} {p q l w : Seat} {play : PlayCardObj}

theorem Accepted.recognised (accepted : Accepted c p play) : Recognised play := by
  obtain ⟨arr, parsed, mem⟩ := accepted.parsed
  exact ⟨arr, parsed, _, mem, rfl, rfl⟩

theorem Room.PlaysRecognised.of_moves (recognised : c.PlaysRecognised) (same : c'.moves = c.moves) :
    c'.PlaysRecognised := by
  rw [Room.PlaysRecognised, same]
  exact recognised

theorem Room.PlaysRecognised.cons {move : Seat × Option PlayCardObj} (recognised : c.PlaysRecognised)
    (moves : c'.moves = move :: c.moves) (new : ∀ play, move.2 = some play → Recognised play) :
    c'.PlaysRecognised := by
  rw [Room.PlaysRecognised, moves]
  intro other mem
  obtain rfl | old := List.mem_cons.mp mem
  · exact new
  · exact recognised other old

theorem recognised_playing (phase : c.control = (Phase.playing l p).control) (recognised : c.PlaysRecognised)
    (trans : Trans conf e d c (.playing l p) ph' c') : c'.PlaysRecognised := by
  have state : c.state = .playing := congrArg Control.state phase
  cases trans with
  | gold ph q num => exact recognised.of_moves (keeps_gold num).moves
  | showCard ph q early => exact recognised.of_moves (keeps_showCard _).moves
  | pass l p plays cards => exact recognised.cons (moves_pass state) fun _ none_ => absurd none_ (Option.not_mem_none _)
  | passOut l p plays cards => exact recognised.cons (moves_pass state) fun _ none_ => absurd none_ (Option.not_mem_none _)
  | play l p play m plays mirror bomb =>
      obtain ⟨params, checked⟩ := plays_checked plays
      have moves : (m.sleep (.playCardEffect p .playCard)).moves = (p, some play) :: c.moves :=
        (keeps_bombMultiple bomb).moves.trans (moves_recorded play)
      exact recognised.cons moves fun _ same => Option.some.inj same ▸ (playCardCheck_play checked).recognised
  | mirrorRaised l p play plays mirror => exact recognised.of_moves rfl
  | bombRaised l p play message plays mirror bomb =>
      obtain ⟨params, checked⟩ := plays_checked plays
      exact recognised.cons (moves_recorded play) fun _ same =>
        Option.some.inj same ▸ (playCardCheck_play checked).recognised

theorem recognised_trans (phase : c.control = ph.control) (recognised : c.PlaysRecognised)
    (trans : Trans conf e d c ph ph' c') : c'.PlaysRecognised := by
  cases landlord : ph.control.landlordPlayer with
  | none =>
      obtain ⟨m, keeps, rfl | rfl | ⟨l, delayed, rfl⟩⟩ := early_keeps landlord trans
      · exact recognised.of_moves keeps.moves
      · exact fun move mem => absurd mem List.not_mem_nil
      · exact recognised.of_moves ((moves_setLandlord delayed).trans keeps.moves)
  | some l =>
      by_cases moving : ∃ l p, ph = .playing l p
      · obtain ⟨l, p, rfl⟩ := moving
        exact recognised_playing phase recognised trans
      by_cases ending : ∃ l w, ph = .out l w
      · obtain ⟨l, w, rfl⟩ := ending
        cases trans with
        | gold ph q num => exact recognised.of_moves (keeps_gold num).moves
        | showCard ph q early => exact recognised.of_moves (keeps_showCard _).moves
        | ended l w => exact recognised.of_moves moves_ended
      · exact recognised.of_moves (late_keeps phase landlord (fun l p here => moving ⟨l, p, here⟩)
          (fun l w here => ending ⟨l, w, here⟩) trans).moves

theorem Room.HandsFit.of_hands (fit : c.HandsFit) (hands : ∀ q, (c'.players q).cards = (c.players q).cards) :
    c'.HandsFit := fun q => hands q ▸ fit q

/-- Before the play the numbers of cards are known. -/
theorem handsFit_early (hands : HandsInv ph c) (early : ph = .dealt ∨ (∃ rob p, ph = .bidding rob p) ∨
    (∃ rob l, ph = .landlordDelay rob l) ∨ ∃ rob l, ph = .landlordWaite rob l) : c.HandsFit := by
  intro q
  obtain rfl | ⟨rob, p, rfl⟩ | ⟨rob, l, rfl⟩ | ⟨rob, l, rfl⟩ := early
  · exact (hands.1 q).trans_le (by decide)
  · exact (hands.1 q).trans_le (by decide)
  · exact (hands q).trans_le (by split <;> decide)
  · exact (hands q).trans_le (by split <;> decide)

theorem handsFit_playing (phase : c.control = (Phase.playing l p).control) (fit : c.HandsFit)
    (trans : Trans conf e d c (.playing l p) ph' c') : c'.HandsFit := by
  have state : c.state = .playing := congrArg Control.state phase
  have passed : (c.corePlay conf p none d).HandsFit :=
    fit.of_hands fun q => congrArg Prod.fst (hand_pass state q)
  have recorded (play : PlayCardObj) : (c.recorded p play).HandsFit := by
    intro q
    by_cases here : q = p
    · subst here
      rw [show ((c.recorded q play).players q).cards = removePlayed (c.players q).cards play.cards from
        congrArg Prod.fst (hand_recorded play)]
      exact (removePlayed_length _ _).trans (fit q)
    · rw [hand_recorded_ne play here]
      exact fit q
  cases trans with
  | gold ph q num => exact fit.of_hands (keeps_gold num).cards
  | showCard ph q early => exact fit.of_hands (keeps_showCard _).cards
  | pass l p plays cards => exact passed
  | passOut l p plays cards => exact passed
  | play l p play m plays mirror bomb => exact (recorded play).of_hands (keeps_bombMultiple bomb).cards
  | mirrorRaised l p play plays mirror =>
      refine fit.of_hands fun q => ?_
      by_cases here : q = p
      · subst here
        simp [Room.played, Room.modify, Player.answered]
      · simp [Room.played, Room.modify, here]
  | bombRaised l p play message plays mirror bomb => exact recorded play

theorem handsFit_trans (phase : c.control = ph.control) (fit : c.HandsFit) (hands : HandsInv ph c)
    (trans : Trans conf e d c ph ph' c') : c'.HandsFit := by
  have hands' := handsInv_trans phase hands trans
  cases landlord : ph.control.landlordPlayer with
  | none =>
      refine handsFit_early hands' ?_
      have unset : ph = .dealt ∨ ∃ rob p, ph = .bidding rob p := by
        cases ph with
        | dealt => exact .inl rfl
        | bidding rob p => exact .inr ⟨rob, p, rfl⟩
        | _ => cases landlord
      cases trans with
      | gold ph q num => exact unset.imp_right .inl
      | showCard ph q early => exact unset.imp_right .inl
      | first => exact .inr (.inl ⟨_, _, rfl⟩)
      | bid rob yes p =>
          cases (Room.bidEnd _ rob p (bidAction rob yes)).2 with
          | call q => exact .inr (.inl ⟨_, _, rfl⟩)
          | rob q => exact .inr (.inl ⟨_, _, rfl⟩)
          | landlord l => exact .inr (.inr (.inr ⟨_, _, rfl⟩))
          | redeal => exact .inl rfl
      | force rob q p buff cfg skill => exact .inr (.inr (.inl ⟨_, _, rfl⟩))
      | _ => cases landlord
  | some l =>
      by_cases moving : ∃ l p, ph = .playing l p
      · obtain ⟨l, p, rfl⟩ := moving
        exact handsFit_playing phase fit trans
      by_cases ending : ∃ l w, ph = .out l w
      · obtain ⟨l, w, rfl⟩ := ending
        cases trans with
        | gold ph q num => exact fit.of_hands (keeps_gold num).cards
        | showCard ph q early => exact fit.of_hands (keeps_showCard _).cards
        | ended l w =>
            exact fit.of_hands fun q => congrArg (fun players => (players q).cards)
              (players_actionEnded (c := Room.enter { c with waits := c.waits.erase (.ended w) } .ended (some w)))
      · exact fit.of_hands (late_keeps phase landlord (fun l p here => moving ⟨l, p, here⟩)
          (fun l w here => ending ⟨l, w, here⟩) trans).cards

end Steps

section Unique
variable {cards : List Card} {obj obj' : CardTypeObj} {arr : List CardTypeObj}

/-- A recogniser gives its own type, and once. -/
def AtMost (found : List CardTypeObj) (type : CardType) : Prop := (found.map CardTypeObj.type).Sublist [type]

theorem atMost_none (type : CardType) : AtMost [] type := List.nil_sublist _

theorem atMost_one (obj : CardTypeObj) : AtMost [obj] obj.type := .refl _

theorem once_isZhaDan {t : Option (List CardTypeObj)} (found : isZhaDan cards = .ok t) :
    AtMost (t.getD []) .zhadan := by
  simp only [isZhaDan] at found
  split_ifs at found
  all_goals
    cases found
    first
      | exact atMost_one _
      | exact atMost_none _

theorem once_isSanDaiYi : AtMost ((isSanDaiYi cards).getD []) .sandaiyi := by
  simp only [isSanDaiYi]
  split_ifs
  · exact atMost_none _
  · cases (valueKeys cards).find? fun v => valueNum cards v = 3 with
    | none => exact atMost_none _
    | some v => exact atMost_one _
  · exact atMost_none _

theorem once_isSanDaiYiDui : AtMost ((isSanDaiYiDui cards).getD []) .sandaiyidui := by
  simp only [isSanDaiYiDui]
  split_ifs
  · exact atMost_none _
  · exact atMost_none _
  · split
    · exact atMost_one _
    · exact atMost_none _
  · exact atMost_none _

theorem once_isSiDaiEr : AtMost ((isSiDaiEr cards).getD []) .sidaier := by
  simp only [isSiDaiEr]
  split_ifs
  · exact atMost_none _
  · exact atMost_none _
  · split
    · split
      · exact atMost_one _
      · exact atMost_none _
    · exact atMost_none _
  · exact atMost_none _

theorem once_isSiDaiLiangDui : AtMost ((isSiDaiLiangDui cards).getD []) .sidailiangdui := by
  simp only [isSiDaiLiangDui]
  split_ifs
  all_goals first
    | exact atMost_none _
    | skip
  split
  · split
    · exact atMost_one _
    · exact atMost_none _
  · exact atMost_none _

theorem once_isShunZi : AtMost ((isShunZi cards).getD []) .shunzi := by
  simp only [isShunZi]
  split
  · exact atMost_none _
  · split
    · exact atMost_none _
    · split
      · exact atMost_none _
      · exact atMost_one _

theorem once_isRepeatRun (limit : Nat) (type : CardType) : AtMost ((isRepeatRun limit type cards).getD []) type := by
  simp only [isRepeatRun]
  split
  · exact atMost_none _
  · split
    · exact atMost_none _
    · split
      · exact atMost_none _
      · exact atMost_one _

theorem once_isFeiJiDaiDan : AtMost ((isFeiJiDaiDan cards).getD []) .feiji_daidan := by
  simp only [isFeiJiDaiDan]
  split
  · exact atMost_none _
  · split
    · exact atMost_none _
    · split
      · exact atMost_none _
      · split
        · exact atMost_one _
        · exact atMost_none _

theorem once_isFeiJiDaiDui : AtMost ((isFeiJiDaiDui cards).getD []) .feiji_daidui := by
  simp only [isFeiJiDaiDui]
  split
  · exact atMost_none _
  · split
    · exact atMost_none _
    · split
      · exact atMost_none _
      · split
        · exact atMost_one _
        · exact atMost_none _

theorem once_isLianZha4xN {t : Option (List CardTypeObj)} (found : isLianZha4xN cards = .ok t) :
    AtMost (t.getD []) .zhadan := by
  simp only [isLianZha4xN] at found
  split at found
  · cases found
    exact atMost_none _
  split at found
  · cases found
    exact atMost_none _
  split at found
  · cases found
    exact atMost_none _
  split at found
  · cases found
    exact atMost_none _
  split at found
  · cases found
    exact atMost_one _
  · cases found

/-- No type is recognised twice. -/
theorem types_nodup (parsed : parseCardType cards = .ok arr) : (arr.map CardTypeObj.type).Nodup := by
  simp only [parseCardType] at parsed
  split at parsed
  · cases parsed
    exact List.nodup_singleton _
  · cases parsed
    simp only [parseCardTypeTwo]
    split_ifs
    · exact List.nodup_singleton _
    · exact List.nodup_singleton _
    · exact List.nodup_nil
  · cases parsed
    simp only [parseCardTypeThree]
    split_ifs
    · exact List.nodup_singleton _
    · exact List.nodup_nil
  · simp only [parseCardTypeFour, bind, Except.bind, pure, Except.pure] at parsed
    split at parsed
    · cases parsed
    · rename_i t found
      cases parsed
      rw [List.map_append]
      have sub := (once_isZhaDan found).append (@once_isSanDaiYi (cardSort cards))
      exact List.Nodup.sublist sub (by decide)
  · simp only [parseCardTypeOther, bind, Except.bind, pure, Except.pure] at parsed
    split at parsed
    · cases parsed
    · rename_i t found
      cases parsed
      simp only [List.map_append]
      have sub := (((((((@once_isSanDaiYiDui (cardSort cards)).append (@once_isSiDaiEr (cardSort cards))).append
        (@once_isSiDaiLiangDui (cardSort cards))).append (@once_isShunZi (cardSort cards))).append
        (@once_isRepeatRun (cardSort cards) 2 .liandui)).append (@once_isRepeatRun (cardSort cards) 3 .feiji_budai)).append
        (@once_isFeiJiDaiDan (cardSort cards))).append (@once_isFeiJiDaiDui (cardSort cards))
      exact List.Nodup.sublist (sub.append (once_isLianZha4xN found)) (by decide)

/-- The type of a play decides its weight. -/
theorem weight_unique (parsed : parseCardType cards = .ok arr) (mem : obj ∈ arr) (mem' : obj' ∈ arr)
    (same : obj.type = obj'.type) : obj = obj' :=
  List.inj_on_of_nodup_map (types_nodup parsed) mem mem' same

end Unique

section Result
variable {conf : Conf} {agents : Seat → UserAgent} {gold : Seat → Int} {d d' : Draws}
  {es : List (Event × Draws)} {r : Room} {p : Seat} {decision : Option Move}

/-- What the decision of the auto-player is read from, in a room of a run. -/
structure Ready (r : Room) (p : Seat) : Prop where
  cards : CardsInv r.core
  fit : (r.players p).cards.length ≤ 20
  armed : (r.players p).cards ≠ []
  last : (r.players p).playCardState = .normal → ∃ last, r.lastPlayCardObj = some last ∧ Recognised last.playCardObj

theorem run_ready (run : Run (Room.step conf) anyStep (Room.init conf agents gold d) es r)
    (asked : (r.players p).state = .playing) : Ready r p := by
  obtain ⟨ph, phase, hands, turn, recognised, fit⟩ :
      ∃ ph : Phase, r.core.control = ph.control ∧ HandsInv ph r.core ∧ TurnInv ph r.core ∧
        r.core.PlaysRecognised ∧ r.core.HandsFit := by
    refine Room.run_invariant (fun _ _ _ => True)
      (fun ph c => HandsInv ph c ∧ TurnInv ph c ∧ c.PlaysRecognised ∧ c.HandsFit) (fun _ _ _ _ => trivial) ?_ ?_ run
    · exact ⟨hands_deal conf d, Untouched.deal (c := Room.ready gold) ⟨rfl, rfl, rfl⟩,
        fun move mem => absurd mem List.not_mem_nil, handsFit_early (hands_deal conf d) (.inl rfl)⟩
    · rintro e d c c' ph ph' phase ⟨hands, turn, recognised, fit⟩ - trans
      exact ⟨handsInv_trans phase hands trans, turnInv_trans phase hands turn trans,
        recognised_trans phase recognised trans, handsFit_trans phase fit hands trans⟩
  have pstate : (r.players p).state = ph.control.pstate p := congrFun (congrArg Control.pstate phase) p
  obtain ⟨l, rfl⟩ := asked_play (pstate.symm.trans asked)
  obtain ⟨board, seat, state, armed, -⟩ := turn
  refine ⟨run_owned run asked, fit p, armed p, fun normal => ?_⟩
  have following : ¬Leading r.core.moves := turnState_normal.mp (state.symm.trans normal)
  obtain ⟨k, last, found, -⟩ := legal_last board.legal fun empty => following (.inl empty)
  obtain ⟨move, mem, play⟩ := List.exists_of_findSome?_eq_some found
  obtain ⟨obj, here, rfl⟩ := Option.map_eq_some_iff.mp play
  have known := board.last
  rw [found] at known
  obtain ⟨last, lastly, same⟩ := Option.map_eq_some_iff.mp known
  obtain ⟨-, rfl⟩ := Prod.mk.inj same
  exact ⟨last, lastly, recognised move mem _ here⟩

/-- A recognised move of the hand passes the checks of `PlayCard`, if it beats the play it has to. -/
theorem checkPlay_move {c : Room} {move : Move} (inv : CardsInv c)
    (own : (move.cards : Multiset Card) ≤ (c.players p).cards) (parses : ParsesAs move.cards move.type move.weight)
    (follows : (c.players p).playCardState = .normal → ∃ last, c.lastPlayCardObj = some last ∧
      Recognised last.playCardObj ∧
        ∀ subtype, beats ⟨move.type, move.weight, move.cards, subtype⟩ last.playCardObj = true) :
    ∃ play, c.checkPlay p (some move.type) move.cards = .ok play := by
  have deck : OfDeck move.cards :=
    ⟨Multiset.coe_nodup.mp (Multiset.nodup_of_le own (Multiset.coe_nodup.mpr (inv.hand_nodup p))),
      fun card mem => Multiset.mem_coe.mp (Multiset.mem_of_le (own.trans (inv.hand_le p)) (Multiset.mem_coe.mpr mem))⟩
  obtain ⟨o, visits⟩ := exists_visits move.cards
  obtain ⟨arr, parsed, obj, mem, type, weight⟩ := parses o visits
  rw [parseCardTypeIn_eq deck visits] at parsed
  have some_ : arr ≠ [] := List.ne_nil_of_mem mem
  have found : arr.find? (fun value => decide (some value.type = some move.type)) = some obj := by
    cases first : arr.find? fun value => decide (some value.type = some move.type) with
    | none => exact absurd (decide_eq_true (congrArg some type)) (List.find?_eq_none.mp first obj mem)
    | some other =>
        have same : other.type = move.type := Option.some.inj (of_decide_eq_true (List.find?_some first :))
        exact congrArg some (weight_unique parsed (List.mem_of_find?_eq_some first) mem (same.trans type.symm))
  have owned : (move.cards.all fun card => decide (low card ∈ (c.players p).cards)) = true := by
    refine List.all_eq_true.mpr fun card mem => decide_eq_true ?_
    have here : card ∈ (c.players p).cards := Multiset.mem_coe.mp (Multiset.mem_of_le own (Multiset.mem_coe.mpr mem))
    rwa [inv.hand_masked p card here]
  have checked {cards : List Card} {arr : List CardTypeObj} {type : CardType} {weight : Nat}
      (parsed : parseCardType cards = .ok arr) (gives : Gives arr type weight) :
      checkCardType cards type weight = .ok true := by
    obtain ⟨obj, mem, rfl, rfl⟩ := gives
    simp only [checkCardType, parsed, bind, Except.bind, pure, Except.pure]
    rw [if_neg (List.ne_nil_of_mem mem)]
    exact congrArg Except.ok (List.any_eq_true.mpr ⟨obj, mem, by simp⟩)
  refine ⟨⟨obj.type, obj.weight, move.cards, obj.subtype⟩, ?_⟩
  simp only [Room.checkPlay, parsed, found, bind, Except.bind, pure, Except.pure, assertLua, decide_eq_true some_, if_true,
    owned]
  split
  · rename_i normal
    obtain ⟨last, lastly, ⟨arr', parsed', gives'⟩, bigger⟩ := follows normal
    have compared : compareCardType ⟨obj.type, obj.weight, move.cards, obj.subtype⟩ last.playCardObj = .ok true := by
      simp only [compareCardType, checked parsed ⟨obj, mem, rfl, rfl⟩, checked parsed' gives', bind, Except.bind, pure,
        Except.pure, assertLua, if_true]
      rw [type, weight]
      exact congrArg Except.ok (bigger obj.subtype)
    simp only [lastly, compared]
    rfl
  · rfl

/-- Whoever is asked to play can be played for: the answer of the auto-player is accepted, and the section it
answers in does not fail, unless it misreads the last play. -/
theorem run_autoPlay (run : Run (Room.step conf) anyStep (Room.init conf agents gold d) es r)
    (asked : (r.players p).state = .playing)
    (read : ∀ last, r.lastPlayCardObj = some last → (r.players p).playCardState = .normal →
      ¬Misreads (r.players p).robotAgent.split last.playCardObj) :
    ¬(r.autoPlay conf p d').2.Fails := by
  obtain ⟨inv, fit, armed, lastly⟩ := run_ready run asked
  obtain ⟨copy, same, perm⟩ := inv.copied p
  have agent : (r.players p).robotAgent = .init_handcards copy := same
  have hand : (copy : Multiset Card) = ((r.core.players p).cards : List Card) := Multiset.coe_eq_coe.mpr perm
  have deck : OfDeck copy :=
    ⟨perm.nodup_iff.mpr (inv.hand_nodup p), fun card mem =>
      Multiset.mem_coe.mp (Multiset.mem_of_le (inv.hand_le p) (Multiset.mem_coe.mpr (perm.mem_iff.mp mem)))⟩
  have few : copy.length ≤ 20 := perm.length_eq.trans_le fit
  have some_ : copy ≠ [] := fun empty => armed (List.nil_perm.mp (empty ▸ perm))
  -- the decision, and that the check accepts it
  have main : ∃ decision play, r.autoDecision p d' = .ok decision ∧
      r.playCardCheck p (Room.autoParams decision) = .ok play := by
    by_cases normal : (r.players p).playCardState = .normal
    · obtain ⟨last, known, recognised⟩ := lastly normal
      obtain ⟨found, decided, legal⟩ := answers_of_read deck few recognised
        (by have := read last known normal; rwa [agent] at this) (last.isLandlord = (r.players p).isLandlord) d'.roll
      have decision : r.autoDecision p d' = .ok found := by
        simp only [Room.autoDecision, known, agent, normal]
        exact decided
      cases found with
      | none =>
          refine ⟨none, none, decision, ?_⟩
          simp [Room.playCardCheck, Room.autoParams, asked, normal]
      | some move =>
          obtain ⟨le, follows⟩ := legal move rfl
          obtain ⟨play, checked⟩ := checkPlay_move (p := p) inv (hand ▸ le) follows.parses
            fun _ => ⟨last, known, recognised, follows.beats⟩
          refine ⟨some move, some play, decision, ?_⟩
          simp [Room.playCardCheck, Room.autoParams, asked, show r.checkPlay p (some move.type) move.cards = _ from checked]
    · obtain ⟨move, played, parses⟩ := get_playedcards_ok deck few some_
      have decision : r.autoDecision p d' = .ok (some move) := by
        have decided (friend : Bool) (last : Option PlayCardObj) :
            (RobotAgent.init_handcards copy).getPlayCardObj (r.players p).playCardState friend last d'.roll =
              .ok (some move) := by
          simp only [RobotAgent.getPlayCardObj, RobotAgent.init_handcards, played]
          split
          · rename_i state
            exact absurd state normal
          · rename_i state
            exact absurd state normal
          · rfl
        simp only [Room.autoDecision, agent, decided]
        split <;> rfl
      have le : (move.cards : Multiset Card) ≤ copy := (get_playedcards_le (split_singles copy) played).trans (split_le copy)
      obtain ⟨play, checked⟩ := checkPlay_move (p := p) inv (hand ▸ le) parses fun state => absurd state normal
      refine ⟨some move, some play, decision, ?_⟩
      simp [Room.playCardCheck, Room.autoParams, asked, show r.checkPlay p (some move.type) move.cards = _ from checked]
  obtain ⟨decision, play, decided, checked⟩ := main
  simp only [Room.autoPlay, decided, Room.PlayCard, checked]
  cases play with
  | none => exact commit_pass
  | some play =>
      have accepted := playCardCheck_play checked
      have once := autoDecision_once (c := r.core) (d := d') inv decided checked
      have found := (@CardsInv.found_iff r.core p inv play accepted.owned).mpr once
      rw [show (r.playCardCommit conf p (some play) d').2 = .sleeping from commit_found accepted found]
      exact id

end Result

/-- The landlord has played a card, and the next player is played for. -/
theorem run_autoPlay_card :
    ∃ r, Run (Room.step (.plain 1 Nat.one_pos)) anyStep (plainStart (.plain 1 Nat.one_pos))
        (playingRun ++ [.request 0 (playRequest .dan [0x11]), .resume, .resume].map
          fun e => (e, .plain (classic []))) r ∧
      (r.players 1).state = .playing ∧
      ¬(r.autoPlay (.plain 1 Nat.one_pos) 1 (.plain (classic []))).2.Fails := by
  have state : (exec (Room.step (.plain 1 Nat.one_pos)) (plainStart (.plain 1 Nat.one_pos))
      (playingRun ++ [.request 0 (playRequest .dan [0x11]), .resume, .resume].map
        fun e => (e, .plain (classic [])))).map
          (fun r => ((r.players 1).state, r.lastPlayCardObj.map fun last => last.playCardObj.type)) =
      some (.playing, some .dan) := by decide +kernel
  obtain ⟨r, done, result⟩ := Option.map_eq_some_iff.mp state
  obtain ⟨asked, dan⟩ := Prod.mk.inj result
  have run := run_of_exec _ _ r done
  refine ⟨r, run, asked, run_autoPlay run asked fun last known _ misreads => ?_⟩
  rw [known] at dan
  exact absurd (misreads.type.symm.trans (Option.some.inj dan)) (by decide)

section Bounded
variable {l : Seat} {moves : List (Seat × Option PlayCardObj)} {conf : Conf} {agents : Seat → UserAgent}
  {gold : Seat → Int} {d : Draws} {es : List (Event × Draws)} {r : Room} {p : Seat}

/-- The plays among the moves. -/
def playedObjs (moves : List (Seat × Option PlayCardObj)) : List PlayCardObj := moves.filterMap Prod.snd

/-- At most two passes follow a play. -/
theorem legal_length (legal : Legal l moves) (begun : moves ≠ []) :
    moves.length + 2 ≤ 3 * (playedObjs moves).length + passes moves := by
  induction moves with
  | nil => exact absurd rfl begun
  | cons move older ih =>
      obtain ⟨p, move⟩ := move
      obtain ⟨before, -, rule⟩ := legal
      cases move with
      | none =>
          have some_ : older ≠ [] := fun empty => rule (.inl empty)
          have prior := ih before some_
          rw [show playedObjs ((p, none) :: older) = playedObjs older from rfl,
            show passes ((p, none) :: older) = passes older + 1 from rfl, List.length_cons]
          omega
      | some play =>
          rw [show playedObjs ((p, some play) :: older) = play :: playedObjs older from rfl,
            show passes ((p, some play) :: older) = 0 from rfl, List.length_cons, List.length_cons]
          by_cases first : older = []
          · subst first
            exact le_rfl
          · have prior := ih before first
            obtain ⟨-, -, -, -, -, most⟩ := legal_last before first
            omega

/-- A play that was recognised has a card. -/
theorem played_length (recognised : ∀ move ∈ moves, ∀ play, move.2 = some play → Recognised play) :
    (playedObjs moves).length ≤ (moves.flatMap cardsOf).length := by
  induction moves with
  | nil => exact le_rfl
  | cons move older ih =>
      obtain ⟨p, move⟩ := move
      have prior := ih fun other mem => recognised other (List.mem_cons_of_mem _ mem)
      rw [List.flatMap_cons, List.length_append]
      cases move with
      | none => exact prior.trans (Nat.le_add_left _ _)
      | some play =>
          obtain ⟨arr, parsed, obj, mem, -⟩ := recognised _ List.mem_cons_self play rfl
          have some_ : play.cards ≠ [] := by
            intro empty
            rw [empty] at parsed
            obtain rfl := Except.ok.inj parsed
            exact absurd mem List.not_mem_nil
          have own : (cardsOf (p, some play)).length = play.cards.length := List.length_map _
          have pos := List.length_pos_of_ne_nil some_
          rw [show playedObjs ((p, some play) :: older) = play :: playedObjs older from rfl, List.length_cons, own]
          omega

/-- A game is over after a bounded number of moves: each play takes a card, and each play is followed by two passes at
most. -/
theorem run_bounded (run : Run (Room.step conf) anyStep (Room.init conf agents gold d) es r)
    (asked : (r.players p).state = .playing) :
    (playedObjs r.moves).length + ∑ q, (r.players q).cards.length ≤ 54 ∧
      r.moves.length ≤ 3 * (playedObjs r.moves).length := by
  obtain ⟨ph, phase, turn, recognised⟩ :
      ∃ ph : Phase, r.core.control = ph.control ∧ TurnInv ph r.core ∧ r.core.PlaysRecognised := by
    refine Room.run_invariant (fun _ _ _ => True)
      (fun ph c => (HandsInv ph c ∧ TurnInv ph c) ∧ c.PlaysRecognised) (fun _ _ _ _ => trivial) ?_ ?_ run |>.imp
        fun ph here => ⟨here.1, here.2.1.2, here.2.2⟩
    · exact ⟨⟨hands_deal conf d, Untouched.deal (c := Room.ready gold) ⟨rfl, rfl, rfl⟩⟩,
        fun move mem => absurd mem List.not_mem_nil⟩
    · rintro e d c c' ph ph' phase ⟨⟨hands, turn⟩, recognised⟩ - trans
      exact ⟨⟨handsInv_trans phase hands trans, turnInv_trans phase hands turn trans⟩,
        recognised_trans phase recognised trans⟩
  have pstate : (r.players p).state = ph.control.pstate p := congrFun (congrArg Control.pstate phase) p
  obtain ⟨l, rfl⟩ := asked_play (pstate.symm.trans asked)
  obtain ⟨board, -⟩ := turn
  have whole := congrArg Multiset.card (run_owned run asked).whole
  rw [← moves_core r]
  constructor
  · have few := played_length recognised
    rw [Room.cardsInPlay, Multiset.card_add, Multiset.card_add, Multiset.card_sum] at whole
    have deck : Multiset.card (create_a_pair_cards : Multiset Card) = 54 := rfl
    have played : Multiset.card (playedIn (sinceDeal r.core.sent) : Multiset Card) =
      (r.core.moves.flatMap cardsOf).length := rfl
    have hands : ∑ q, Multiset.card ((r.core.players q).cards : Multiset Card) =
      ∑ q, (r.players q).cards.length := rfl
    rw [deck, played, hands] at whole
    omega
  · by_cases begun : r.core.moves = []
    · rw [begun]
      exact Nat.zero_le _
    · have most := legal_length board.legal begun
      obtain ⟨-, -, -, -, -, two⟩ := legal_last board.legal begun
      omega

/-- The landlord plays a card of twenty. -/
theorem run_bounded_card :
    ∃ r, Run (Room.step (.plain 1 Nat.one_pos)) anyStep (plainStart (.plain 1 Nat.one_pos))
        (playingRun ++ [.request 0 (playRequest .dan [0x11]), .resume, .resume].map
          fun e => (e, .plain (classic []))) r ∧
      (r.players 1).state = .playing ∧ r.moves.length = 1 ∧
      (playedObjs r.moves).length + ∑ q, (r.players q).cards.length ≤ 54 ∧
        r.moves.length ≤ 3 * (playedObjs r.moves).length := by
  have state : (exec (Room.step (.plain 1 Nat.one_pos)) (plainStart (.plain 1 Nat.one_pos))
      (playingRun ++ [.request 0 (playRequest .dan [0x11]), .resume, .resume].map
        fun e => (e, .plain (classic [])))).map (fun r => ((r.players 1).state, r.moves.length)) =
      some (.playing, 1) := by decide +kernel
  obtain ⟨r, done, result⟩ := Option.map_eq_some_iff.mp state
  obtain ⟨asked, one⟩ := Prod.mk.inj result
  have run := run_of_exec _ _ r done
  exact ⟨r, run, asked, one, run_bounded run asked⟩

end Bounded

end HuluLandlord.Ddz
