import HuluLandlord.SevenSparrow.Place

/-!
From the shuffled deck to the first take. The deal is that of `helper.dealcard` where no cards are made for
one of the players: hands that are configured for new users come out of the deck first, the others are given
what their luck brings. The flowers then leave the hands.
-/
namespace HuluLandlord.SevenSparrow
open Transition Shuffle
open Ddz (Card V C)

/-- A hand configured for a new user, or none. Those of `cfg_init_cards` have seven cards. -/
structure InitCards where
  cards : List Card
  short : cards.length ≤ 7

/-- A configured card that is gone is passed over. -/
def find_and_remove_by_value_array (cards hands : List Card) : List Card × List Card :=
  removeKinds (hands.map fun c card => decide (card = c)) cards

section Deal
variable (cfg : Chair → InitCards) (roomtype : Nat) (players : Chair → Dealee) (shuffle : List Nat)
variable (d : Chair → Draws) (values : Chair → List Nat)

/-- The first round of a configured deal, of one player. -/
def Table.initCfg (t : Table) (p : Chair) : Except Stop Table :=
  if (cfg p).cards = [] then t.init roomtype players d values p
  else
    let (hand, cards) := find_and_remove_by_value_array t.cards (cfg p).cards
    return { t with hands := Function.update t.hands p hand, cards := cards }

def dealcardCfg : Except Stop Table := do
  let t : Table := ⟨fun _ => [], randsort create_two_pair_cards shuffle, fun _ => none⟩
  let t ← (List.finRange 4).foldlM (Table.initCfg cfg roomtype players d values) t
  let t ← (List.finRange 4).foldlM Table.fill t
  let t ← t.not_2 0
  let t ← t.not_2 (t.cards.length - 1)
  (List.finRange 4).foldlM Table.fix_hand t

/-- `helper.dealcard`, with the hands of a new user's first games if there are any. -/
def dealcard (newUserCardCfg : Option (Chair → InitCards)) : Except Stop Table :=
  match newUserCardCfg with
  | some cfg => dealcardCfg cfg roomtype players shuffle d values
  | none => qptimized_for_robot roomtype players shuffle d values

end Deal

/-- The loop of `find_and_remove_flowers` from the card before position `n` to the first: what was found, and
the cards left. -/
def find_and_remove_flowers : Nat → List Card → List Card → List Card × List Card
  | 0, cards, flowers => (flowers, cards)
  | i + 1, cards, flowers =>
      match cards[i]? with
      | some card =>
          if V card = 0xd then find_and_remove_flowers i (cards.eraseIdx i) (flowers ++ [card])
          else find_and_remove_flowers i cards flowers
      | none => find_and_remove_flowers i cards flowers

def Player.move_flowers_from_hand (pl : Player) : Player :=
  let (flowers, cards) := find_and_remove_flowers pl.cards.length pl.cards []
  if flowers.length > 0 then { pl with cards := cards, flowers := pl.flowers ++ flowers }
  else { pl with cards := cards }

section Flowers
variable {cards flowers : List Card}

theorem find_and_remove_flowers_eq (front back flowers : List Card) :
    find_and_remove_flowers front.length (front ++ back) flowers =
      (flowers ++ (front.filter is_flower).reverse, front.filter (fun card => !is_flower card) ++ back) := by
  induction front using List.reverseRecOn generalizing back flowers with
  | nil => simp [find_and_remove_flowers]
  | append_singleton front last ih =>
      have here : (front ++ [last] ++ back)[front.length]? = some last := by simp
      have gone : (front ++ [last] ++ back).eraseIdx front.length = front ++ back := by
        rw [List.append_assoc, List.eraseIdx_append_of_length_le (le_refl _)]
        simp
      rw [List.length_append, List.length_singleton, find_and_remove_flowers, here]
      dsimp only
      split
      · rename_i flower
        have flower : is_flower last = true := decide_eq_true flower
        rw [gone, ih]
        simp [List.filter_append, flower]
      · rename_i plain
        have plain : is_flower last = false := decide_eq_false plain
        rw [List.append_assoc, ih]
        simp [List.filter_append, plain]

/-- The player a game starts with is one without flowers from whose hand they are moved. -/
theorem move_flowers_new (u : User) (hand : List Card) :
    Player.new u hand = ({ Player.new u [] with cards := hand } : Player).move_flowers_from_hand := by
  have loop := find_and_remove_flowers_eq hand [] []
  rw [List.append_nil, List.append_nil, List.nil_append] at loop
  rw [Player.move_flowers_from_hand, loop]
  dsimp only
  split
  · rfl
  · rename_i none_
    have empty : (hand.filter is_flower).reverse = [] := List.eq_nil_of_length_eq_zero (by omega)
    rw [Player.new, empty]
    rfl

end Flowers

section Luck
variable {cards hand rest found left : List Card} {c : Nat} {p : Dealee} {d : Draws} {values : List Nat}

theorem fourOfColor_gives {l : List Card} (four : fourOfColor c l hand = (some found, left))
    (short : hand.length ≤ 3) : (found ++ left).Perm (hand ++ l) ∧ found.length = 4 := by
  induction l generalizing hand left with
  | nil => cases four
  | cons one l ih =>
      simp only [fourOfColor] at four
      split at four
      · split at four
        · rename_i three
          cases four
          rw [List.append_assoc, List.length_append, three]
          exact ⟨.refl _, rfl⟩
        · obtain ⟨perm, length⟩ := ih four (by
            rw [List.length_append, List.length_singleton]
            omega)
          rw [List.append_assoc] at perm
          exact ⟨perm, length⟩
      · cases others : fourOfColor c l hand with
        | mk found' left' =>
            rw [others] at four
            cases four
            obtain ⟨perm, length⟩ := ih others short
            exact ⟨List.perm_middle.trans ((perm.cons one).trans List.perm_middle.symm), length⟩

theorem random_4lian_gives (done : random_4lian cards d values = .ok (hand, rest)) :
    Gives cards hand rest ∧ hand.length ≤ 4 := by
  have kinds (kinds : List (Card → Bool)) (four : kinds.length = 4)
      (done : (removeKinds kinds cards) = (hand, rest)) : Gives cards hand rest ∧ hand.length ≤ 4 := by
    have gives := @removeKinds_gives cards kinds
    have length := @removeKinds_length cards kinds
    rw [done] at gives length
    exact ⟨gives, four ▸ length⟩
  simp only [random_4lian] at done
  split at done
  · simp only [random_4_leopard] at done
    split at done
    · cases done
    · exact kinds _ rfl (Except.ok.inj done)
  · simp only [random_4_shunzi] at done
    split at done
    · cases done
    · exact kinds _ rfl (Except.ok.inj done)

theorem find_either_gives (v w : Nat) :
    Gives cards (find_either cards v w).1.toList (find_either cards v w).2 := by
  have gives := @find_and_remove_gives (hasValue v) cards
  simp only [find_either]
  split
  · rename_i one rest found
    rw [find_and_remove_by_value] at found
    rw [found] at gives
    exact gives
  · rename_i rest found
    rw [find_and_remove_by_value] at found
    rw [found] at gives
    have perm : rest.Perm cards := gives
    exact (@find_and_remove_gives (hasValue w) rest).trans perm

theorem random_one_2_or_king_gives : Gives cards (random_one_2_or_king cards d).1.toList
    (random_one_2_or_king cards d).2 := by
  simp only [random_one_2_or_king]
  split
  · exact find_and_remove_gives
  · exact find_either_gives 0xe 0xf

theorem start_skill_gives {skill_id : Nat} (done : start_skill skill_id cards d = (some hand, rest)) :
    Gives cards hand rest ∧ hand.length ≤ 4 := by
  simp only [start_skill] at done
  split at done
  · have gives := @find_and_remove_gives (hasValue 0xd) cards
    cases done
    exact ⟨gives, (toList_length _).trans (by decide)⟩
  split at done
  · split at done
    · have gives := @find_either_gives cards 0xe 0xf
      cases done
      exact ⟨gives, (toList_length _).trans (by decide)⟩
    · have gives := @find_either_gives cards 0xf 0xe
      cases done
      exact ⟨gives, (toList_length _).trans (by decide)⟩
  · cases four : fourOfColor (random 1 4 d.color) cards.reverse [] with
    | mk found left =>
        rw [four] at done
        cases done
        obtain ⟨perm, length⟩ := fourOfColor_gives four (Nat.zero_le 3)
        have back : (hand ++ left.reverse).Perm (hand ++ left) := (List.reverse_perm left).append_left hand
        exact ⟨(back.trans perm).trans (List.reverse_perm cards), length.le⟩

theorem firstKing_gives {king : Bool} (done : firstKing cards p d = .ok (hand, rest, king)) :
    Gives cards hand rest ∧ hand.length ≤ 1 := by
  simp only [firstKing] at done
  split at done
  · cases done
    exact ⟨.refl _, Nat.zero_le 1⟩
  split at done
  · have gives := @find_and_remove_gives (hasValue (random 0xe 0xf d.king)) cards
    split at done
    · cases done
    · rename_i one left found
      rw [find_one_king, find_and_remove_by_value] at found
      rw [found] at gives
      cases done
      exact ⟨gives, le_refl 1⟩
  · cases done
    exact ⟨.refl _, Nat.zero_le 1⟩

theorem petSkill_gives {king : Bool} {skill : Option Nat} {before cards' : List Card}
    (first : Gives cards before cards') (one : before.length ≤ 1)
    (done : petSkill p d before cards' king = .ok (hand, rest, skill)) :
    Gives cards hand rest ∧ hand.length ≤ 5 := by
  have alone : Gives cards before cards' ∧ before.length ≤ 5 := ⟨first, one.trans (by decide)⟩
  simp only [petSkill] at done
  split at done
  · split at done
    · cases done
      exact alone
    · split at done
      · cases done
      · rename_i more left started
        obtain ⟨gives, four⟩ := start_skill_gives started
        cases done
        refine ⟨?_, ?_⟩
        · rw [Gives, List.append_assoc]
          exact (gives.append_left before).trans first
        · rw [List.length_append]
          omega
  · cases done
    exact alone

/-- Whatever luck brings comes out of the pool. -/
theorem init_hand_gives {roomtype : Nat} {skill : Option Nat}
    (done : init_hand cards p roomtype d values = .ok (hand, rest, skill)) :
    Gives cards hand rest ∧ hand.length ≤ 5 := by
  simp only [init_hand, bind, Except.bind, pure, Except.pure] at done
  split at done
  · split at done
    · split at done
      · cases done
      · rename_i pair four
        cases done
        obtain ⟨gives, length⟩ := random_4lian_gives four
        exact ⟨gives, length.trans (by decide)⟩
    split at done
    · have gives := @random_one_2_or_king_gives cards d
      cases done
      exact ⟨gives, (toList_length _).trans (by decide)⟩
    · cases done
      exact ⟨.refl _, Nat.zero_le 5⟩
  · split at done
    · cases done
    · rename_i first king
      obtain ⟨gives, one⟩ := firstKing_gives king
      exact petSkill_gives gives one done

end Luck

section Rounds
variable {cfg : Chair → InitCards} {roomtype : Nat} {players : Chair → Dealee} {shuffle : List Nat}
variable {d : Chair → Draws} {values : Chair → List Nat} {t t' : Table}

/-- The first round of one player: his hand comes out of the pool, and is no longer than seven cards. -/
theorem initCfg_step {p : Chair} (empty : t.hands p = []) (whole : t.stock = deck)
    (short : ∀ p, (t.hands p).length ≤ 7) (done : t.initCfg cfg roomtype players d values p = .ok t') :
    t'.stock = deck ∧ (∀ p, (t'.hands p).length ≤ 7) ∧ ∀ q, q ≠ p → t'.hands q = t.hands q := by
  have dealt {hand cards : List Card} {skills : Chair → Option Nat} (gives : Gives t.cards hand cards)
      (seven : hand.length ≤ 7) (done : t' = ⟨Function.update t.hands p hand, cards, skills⟩) :
      t'.stock = deck ∧ (∀ p, (t'.hands p).length ≤ 7) ∧ ∀ q, q ≠ p → t'.hands q = t.hands q := by
    subst done
    refine ⟨stock_deal whole ?_, fun q => ?_, fun q other => Function.update_of_ne other _ _⟩
    · rw [empty, Multiset.coe_nil, zero_add, Multiset.coe_add]
      exact Multiset.coe_eq_coe.mpr gives
    · by_cases here : q = p
      · rw [here]
        simpa only [Function.update_self] using seven
      · simpa only [Function.update_of_ne here] using short q
  simp only [Table.initCfg] at done
  split at done
  · simp only [Table.init, bind, Except.bind, pure, Except.pure] at done
    split at done
    · cases done
    · rename_i lucky
      obtain ⟨gives, five⟩ := init_hand_gives lucky
      exact dealt gives (five.trans (by decide)) (Except.ok.inj done).symm
  · have length := @removeKinds_length t.cards ((cfg p).cards.map fun c card => decide (card = c))
    rw [List.length_map] at length
    exact dealt removeKinds_gives (length.trans (cfg p).short) (Except.ok.inj done).symm

theorem initCfg_rounds {ps : List Chair} (fresh : ps.Nodup) (empty : ∀ p ∈ ps, t.hands p = [])
    (whole : t.stock = deck) (short : ∀ p, (t.hands p).length ≤ 7)
    (done : ps.foldlM (Table.initCfg cfg roomtype players d values) t = .ok t') :
    t'.stock = deck ∧ ∀ p, (t'.hands p).length ≤ 7 := by
  induction ps generalizing t with
  | nil =>
      cases done
      exact ⟨whole, short⟩
  | cons p ps ih =>
      rw [List.foldlM_cons] at done
      cases first : t.initCfg cfg roomtype players d values p with
      | error stop =>
          rw [first] at done
          cases done
      | ok next =>
          rw [first] at done
          obtain ⟨whole', short', others⟩ :=
            initCfg_step (empty p List.mem_cons_self) whole short first
          obtain ⟨absent, fresh⟩ := List.nodup_cons.mp fresh
          refine ih fresh (fun q mem => ?_) whole' short' done
          rw [others q fun same => absent (same ▸ mem)]
          exact empty q (List.mem_cons_of_mem p mem)

theorem dealcardCfg_dealt (done : dealcardCfg cfg roomtype players shuffle d values = .ok t) : Dealt t := by
  have start : Table.stock ⟨fun _ => [], randsort create_two_pair_cards shuffle, fun _ => none⟩ = deck := by
    rw [Table.stock, deck, ← Multiset.coe_eq_coe.mpr (randsort_perm create_two_pair_cards shuffle)]
    simp
  simp only [dealcardCfg, bind, Except.bind] at done
  split at done
  · cases done
  · rename_i lucky first
    obtain ⟨whole, short⟩ := initCfg_rounds (List.nodup_finRange 4) (fun _ _ => rfl) start
      (fun _ => Nat.zero_le 7) first
    obtain ⟨full, filled, whole, seven⟩ := fill_rounds whole short
    obtain ⟨front, both, head, last, filled', ends⟩ := not_2_ends whole seven
    obtain ⟨t', fixed, dealt⟩ := fix_rounds filled' ends
    rw [filled] at done
    simp only [head, last] at done
    exact Except.ok.inj (fixed.symm.trans done) ▸ dealt

theorem dealcard_dealt {newUserCardCfg : Option (Chair → InitCards)}
    (done : dealcard roomtype players shuffle d values newUserCardCfg = .ok t) : Dealt t := by
  cases newUserCardCfg with
  | some cfg => exact dealcardCfg_dealt done
  | none =>
      obtain ⟨raised, _⟩ | ⟨drawing, _⟩ | ⟨t', done', dealt, _⟩ :=
        qptimized_for_robot_cases roomtype players shuffle d values
      · cases raised.symm.trans done
      · cases drawing.symm.trans done
      · exact Except.ok.inj (done'.symm.trans done) ▸ dealt

end Rounds

/-- The room after the flowers have left the hands that were dealt. -/
structure Cleared (hands : Chair → List Card) (b : Room) : Prop where
  seven : ∀ p, (b.players p).cards.length = 7
  plain : ∀ p, ∀ card ∈ (b.players p).cards, is_flower card = false
  moved : ∀ p, ∀ card ∈ hands p, is_flower card = true → ∀ q, card ∈ (b.players q).flowers ↔ q = p
  others : ∀ p, ∀ card ∈ (b.players p).flowers, card ∈ hands p ∧ is_flower card = true
  once : deck.Nodup
  whole : (b.pool : Multiset Card) + b.selectional_cards +
    ∑ p, ((b.players p).cards + (b.players p).flowers : Multiset Card) = deck
  revealed : ∃ one, b.selectional_cards = [one] ∧ is_flower one = false
  bottom : ∃ card rest, b.pool = card :: rest ∧ is_flower card = false
  next : ∃ b' card flowers, b.takeCard none = (b', some (true, some card, flowers)) ∧
    is_flower card = false

section Start
variable {hands : Chair → List Card} {cards : List Card} {users : Chair → User} {first_one : Chair} {t : Table}

theorem deck_nodup : deck.Nodup := by
  rw [deck, Multiset.coe_nodup]
  decide +kernel

theorem gamestart_flowers (p : Chair) {card : Card} :
    card ∈ ((Room.gamestart users hands cards first_one).players p).flowers ↔
      card ∈ hands p ∧ is_flower card = true := by
  simp only [Room.gamestart, Player.new, List.mem_reverse, List.mem_filter]

/-- A card of the deck is in one hand only. -/
theorem Dealt.alone (dealt : Dealt t) {p q : Chair} {card : Card} (here : card ∈ t.hands p)
    (there : card ∈ t.hands q) : q = p := by
  by_contra other
  have pair : (t.hands p : Multiset Card) + t.hands q ≤ deck := by
    have both : ∑ p ∈ {p, q}, (t.hands p : Multiset Card) = t.hands p + t.hands q :=
      Finset.sum_pair (Ne.symm other)
    have part : ∑ p ∈ {p, q}, (t.hands p : Multiset Card) ≤ ∑ p, (t.hands p : Multiset Card) :=
      Finset.sum_le_sum_of_subset (Finset.subset_univ _)
    rw [← dealt.whole, Table.stock, ← both]
    exact part.trans (Multiset.le_add_right _ _)
  have apart := (Multiset.nodup_add.mp (Multiset.nodup_of_le pair deck_nodup)).2.2
  exact Multiset.disjoint_left.mp apart (Multiset.mem_coe.mpr here) (Multiset.mem_coe.mpr there)

theorem Dealt.ends_apart (dealt : Dealt t) : ∃ first rest last, t.cards = first :: rest ++ [last] ∧
    is_flower first = false ∧ is_flower last = false := by
  have short : ∀ p, (t.hands p).length ≤ 15 := by
    intro p
    have hand := dealt.hands p
    have part : (t.hands p : Multiset Card) ≤ deck := by
      rw [← dealt.whole, Table.stock]
      exact (Finset.single_le_sum (f := fun p => (t.hands p : Multiset Card))
        (fun _ _ => Multiset.zero_le _) (Finset.mem_univ p)).trans (Multiset.le_add_right _ _)
    have count := Multiset.countP_le_of_le (fun card => is_flower card = true) part
    rw [deck, Multiset.coe_countP, Multiset.coe_countP] at count
    have few : (t.hands p).countP is_flower ≤ create_two_pair_cards.countP is_flower := by
      simpa only [Bool.decide_eq_true] using count
    rw [deck_flowers] at few
    omega
  have long := cards_left dealt.whole short
  cases cards : t.cards using List.reverseRecOn with
  | nil =>
      rw [cards, List.length_nil] at long
      omega
  | append_singleton front last =>
      cases front with
      | nil =>
          rw [cards, List.length_append, List.length_nil, List.length_singleton] at long
          omega
      | cons first rest =>
          refine ⟨first, rest, last, rfl, dealt.ends.head first ?_, dealt.ends.last last ?_⟩
          · rw [cards]
            rfl
          · rw [cards, List.getLast?_concat]
            rfl

theorem gamestart_cleared (dealt : Dealt t) (users : Chair → User) (first_one : Chair) :
    Cleared t.hands (.gamestart users t.hands t.cards first_one) := by
  have keeps : Keeps (.gamestart users t.hands t.cards first_one) := keeps_start dealt first_one
  obtain ⟨first, rest, last, cards, head, tail⟩ := dealt.ends_apart
  have pool : (Room.gamestart users t.hands t.cards first_one).pool = first :: rest := by
    rw [Room.gamestart, cards, List.dropLast_concat]
  refine {
    seven := fun p => ?_, plain := keeps.plain, moved := fun p card mem flower q => ?_,
    others := fun p card => (gamestart_flowers p).mp, once := deck_nodup, whole := ?_,
    revealed := ⟨last, ?_, tail⟩, bottom := ⟨first, rest, pool, head⟩, next := ?_ }
  · have parts := (List.filter_append_perm is_flower (t.hands p)).length_eq
    have hand := dealt.hands p
    rw [List.countP_eq_length_filter] at hand
    rw [List.length_append] at parts
    show ((t.hands p).filter fun card => !is_flower card).length = 7
    omega
  · rw [gamestart_flowers]
    constructor
    · exact fun there => dealt.alone mem there.1
    · rintro rfl
      exact ⟨mem, flower⟩
  · have whole := keeps.whole
    simp only [Room.stock, Player.stock, Room.gamestart, Player.new, Multiset.coe_nil, add_zero] at whole
    exact whole
  · rw [Room.gamestart, cards, List.getLast?_concat]
    rfl
  · obtain ⟨left, card, flowers, done, plain, _⟩ :=
      @takeLoop_plain _ (first :: rest) [] (le_refl _) (List.cons_ne_nil first rest)
        fun card same => Option.some.inj same ▸ head
    have taken : ((Room.gamestart users t.hands t.cards first_one).takeCard none).2 =
        some (true, some card, flowers) := by
      simp only [Room.takeCard, pool, done]
      rfl
    exact ⟨_, card, flowers, Prod.ext rfl taken, plain⟩

/-- Whatever is dealt, with configured hands or without. -/
theorem dealcard_cleared (roomtype : Nat) (players : Chair → Dealee) (shuffle : List Nat)
    (d : Chair → Draws) (values : Chair → List Nat) (newUserCardCfg : Option (Chair → InitCards))
    (users : Chair → User) (first_one : Chair) :
    ∀ t, dealcard roomtype players shuffle d values newUserCardCfg = .ok t →
      Cleared t.hands (.gamestart users t.hands t.cards first_one) :=
  fun _ done => gamestart_cleared (dealcard_dealt done) users first_one

/-- The deck as it lies, but for one exchange: the last flower comes to lie under the card that is revealed. -/
def flowerNext : List Nat := (List.range 108).set 105 106

/-- A flower is dealt to the second player, and another one is the next card of the pool. -/
theorem flowerNext_dealt : ∃ t, dealcard 1 (fun _ => ⟨false, none, false⟩) flowerNext
    (fun _ => ⟨0, 0, 0, 0, fun _ => 0, 0, 0⟩) (fun _ => []) none = .ok t ∧ 0x1d ∈ t.hands 1 ∧
    t.cards.dropLast.getLast? = some 0x9d := by
  have next : ((dealcard 1 (fun _ => ⟨false, none, false⟩) flowerNext
      (fun _ => ⟨0, 0, 0, 0, fun _ => 0, 0, 0⟩) (fun _ => []) none).toOption.map
      fun t => (decide (0x1d ∈ t.hands 1), t.cards.dropLast.getLast?)) = some (true, some 0x9d) := by
    decide +kernel
  obtain ⟨t, done, next⟩ := Option.map_eq_some_iff.mp next
  rw [Prod.mk.injEq] at next
  refine ⟨t, ?_, of_decide_eq_true next.1, next.2⟩
  revert done
  generalize dealcard 1 _ flowerNext _ _ none = dealing
  intro done
  cases dealing with
  | error stop => cases done
  | ok dealt => exact congrArg Except.ok (Option.some.inj done)

theorem dealcard_cleared_flower : ∃ t : Table, 0x1d ∈ t.hands 1 ∧
    Cleared t.hands (.gamestart (fun _ => ⟨100, 100, false⟩) t.hands t.cards 0) := by
  obtain ⟨t, done, flower, _⟩ := flowerNext_dealt
  exact ⟨t, flower, dealcard_cleared _ _ _ _ _ _ _ _ t done⟩

theorem cleared_fails : ¬∀ roomtype players shuffle d values newUserCardCfg users first_one t,
    dealcard roomtype players shuffle d values newUserCardCfg = .ok t →
    ∀ card ∈ (Room.gamestart users t.hands t.cards first_one).pool.getLast?, is_flower card = false := by
  intro all
  obtain ⟨t, done, _, next⟩ := flowerNext_dealt
  have plain := all _ _ _ _ _ _ (fun _ => ⟨100, 100, false⟩) 0 t done 0x9d next
  cases plain

end Start

end HuluLandlord.SevenSparrow
