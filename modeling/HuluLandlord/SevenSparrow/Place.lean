import HuluLandlord.SevenSparrow.Order
import HuluLandlord.SevenSparrow.Dealt

/-!
Where the cards of a seven-sparrow game are. The pool always begins with a card that is no
flower, so a take never ends on one and the exchange of the first card never has to look
for another. A take that names an open card gives that card.
-/
namespace HuluLandlord.SevenSparrow
open Transition Shuffle
open Ddz (Card V C)

/-- The cards of one player. -/
def Player.stock (pl : Player) : Multiset Card :=
  (pl.cards : Multiset Card) + pl.flowers + pl.hu_cards

/-- All the cards of a room. -/
def Room.stock (b : Room) : Multiset Card :=
  (b.pool : Multiset Card) + b.selectional_cards + b.discard_cards + ∑ p, (b.players p).stock

structure Keeps (b : Room) : Prop where
  whole : b.stock = deck
  plain : ∀ p, ∀ card ∈ (b.players p).cards, is_flower card = false
  opened : ∀ card ∈ b.selectional_cards, is_flower card = false
  three : b.selectional_cards.length ≤ 3
  first : ∀ card ∈ b.pool.head?, is_flower card = false

/-- The cards a take may ask for. -/
def Room.Offers (b : Room) (card : Option Card) : Prop := ∀ c ∈ card, c ∈ b.selectional_cards

section Cards
variable {conf : Conf} {users : Chair → User} {b b' : Room} {p q : Chair} {n : Nat}
variable {pool rest flowers : List Card} {card : Option Card} {c : Card} {t : Table}

theorem Player.stock_of_holding {pl pl' : Player} (same : pl'.holding = pl.holding) :
    pl'.stock = pl.stock := by
  simp only [Player.holding, Prod.mk.injEq] at same
  rw [Player.stock, same.1, same.2.1, same.2.2.1, Player.stock]

theorem Keeps.of_same (same : SameCards b b') (keeps : Keeps b) : Keeps b' := by
  have stock : ∀ p, (b'.players p).stock = (b.players p).stock := fun p =>
    Player.stock_of_holding (same.holding p)
  have cards : ∀ p, (b'.players p).cards = (b.players p).cards := fun p =>
    congrArg Prod.fst (same.holding p)
  refine ⟨?_, fun p => cards p ▸ keeps.plain p, ?_, ?_, ?_⟩
  · rw [Room.stock, same.pool, same.selectional_cards, same.discard_cards]
    simp only [stock]
    exact keeps.whole
  · exact same.selectional_cards ▸ keeps.opened
  · exact same.selectional_cards ▸ keeps.three
  · exact same.pool ▸ keeps.first

theorem head_dropLast {last : Card} (front : List Card)
    (first : ∀ card ∈ (front ++ [last]).head?, is_flower card = false) :
    ∀ card ∈ front.head?, is_flower card = false := by
  cases front with
  | nil => exact nofun
  | cons card front => exact first

theorem pool_one_not_2_plain (some_left : pool ≠ [])
    (first : ∀ card ∈ pool.head?, is_flower card = false) :
    pool_one_not_2 pool 0 = some pool := by
  cases pool with
  | nil => exact absurd rfl some_left
  | cons card pool =>
      have plain := first card rfl
      simp [pool_one_not_2, plain]

/-- A pool that begins with no flower gives a card that is none. -/
theorem takeLoop_plain (enough : pool.length ≤ n) (some_left : pool ≠ [])
    (first : ∀ card ∈ pool.head?, is_flower card = false) :
    ∃ rest c new, takeLoop n pool flowers = (rest, some (some c, flowers ++ new)) ∧
      is_flower c = false ∧ (c :: new ++ rest).Perm pool ∧
      ∀ card ∈ rest.head?, is_flower card = false := by
  induction n generalizing pool flowers with
  | zero => exact absurd (List.length_eq_zero_iff.mp (Nat.le_zero.mp enough)) some_left
  | succ n ih =>
      obtain ⟨front, last, rfl⟩ : ∃ front last, pool = front ++ [last] :=
        ⟨_, _, (List.dropLast_append_getLast some_left).symm⟩
      have front_first := head_dropLast front first
      simp only [takeLoop, List.getLast?_concat, List.dropLast_concat]
      cases flower : is_flower last with
      | false =>
          refine ⟨front, last, [], by simp, flower, ?_, front_first⟩
          exact (List.perm_append_singleton last front).symm
      | true =>
          have left : front ≠ [] := by
            rintro rfl
            have plain := first last rfl
            rw [flower] at plain
            cases plain
          rw [List.length_append, List.length_singleton] at enough
          obtain ⟨rest, c, new, done, plain, perm, rest_first⟩ :=
            @ih front (flowers ++ [last]) (by omega) left front_first
          refine ⟨rest, c, last :: new, ?_, plain, ?_, rest_first⟩
          · rw [if_pos rfl, if_neg left, pool_one_not_2_plain left front_first]
            simp only [done, List.append_assoc, List.singleton_append]
          · have tail := perm.cons last
            exact ((List.Perm.swap last c _).trans tail).trans
              (List.perm_append_singleton last front).symm

/-- How a player's cards enter the sum over all players. -/
theorem stock_modify (f : Player → Player) :
    (∑ q, ((b.modify p f).players q).stock) + (b.players p).stock =
      (∑ q, (b.players q).stock) + (f (b.players p)).stock :=
  sum_update Player.stock b.players p (f (b.players p))

/-- What `takeCard` gives comes out of the room, and is no flower. -/
theorem takeCard_gives (keeps : Keeps b) (offers : b.Offers card) :
    (∃ a, b.takeCard card = (a, some (false, none, [])) ∧ Keeps a) ∨
    ∃ a c new, b.takeCard card = (a, some (true, some c, new)) ∧ is_flower c = false ∧
      a.players = b.players ∧ (c :: new : List Card) + a.stock = b.stock ∧
      (∀ card ∈ a.selectional_cards, is_flower card = false) ∧ a.selectional_cards.length ≤ 3 ∧
      ∀ card ∈ a.pool.head?, is_flower card = false := by
  cases card with
  | some c =>
      have mem := offers c rfl
      right
      refine ⟨_, c, [], rfl, keeps.opened c mem, rfl, ?_, fun card mem =>
        keeps.opened card (List.mem_of_mem_erase mem), ?_, keeps.first⟩
      · have moved : ((c :: b.selectional_cards.erase c : List Card) : Multiset Card) =
            b.selectional_cards := Multiset.coe_eq_coe.mpr (List.perm_cons_erase mem).symm
        simp only [Room.stock, ← moved, ← Multiset.singleton_add, ← Multiset.cons_coe,
          Multiset.coe_nil, add_zero]
        abel
      · exact (List.length_erase_le).trans keeps.three
  | none =>
      by_cases dry : b.pool = []
      · left
        refine ⟨{ b with round := b.round + 1 }, ?_, { keeps with }⟩
        simp [Room.takeCard, dry, takeLoop]
      · right
        obtain ⟨rest, c, new, done, plain, perm, first⟩ :=
          @takeLoop_plain b.pool.length b.pool [] (le_refl _) dry keeps.first
        refine ⟨{ b with round := b.round + 1, pool := rest }, c, new, ?_, plain, rfl, ?_,
          keeps.opened, keeps.three, first⟩
        · simp only [Room.takeCard, done, List.nil_append, dry, ne_eq, not_false_eq_true,
            decide_true]
        · have moved : ((c :: new ++ rest : List Card) : Multiset Card) = b.pool :=
            Multiset.coe_eq_coe.mpr perm
          simp only [Room.stock, ← moved, ← Multiset.coe_add]
          abel

theorem Keeps.take (keeps : Keeps b) (offers : b.Offers card) (p : Chair) (from_pool : Bool) :
    Keeps (b.ssw_takecard p from_pool card).1 := by
  simp only [Room.ssw_takecard]
  split
  · exact keeps
  split
  · exact keeps
  obtain ⟨a, done, kept⟩ | ⟨a, c, new, done, plain, players, stock, opened, three, first⟩ :=
    takeCard_gives keeps offers
  · rw [done]
    exact kept
  · rw [done]
    refine ⟨?_, fun q => ?_, opened, three, first⟩
    · have sum := @stock_modify a p fun pl => { pl with
        status := .waiting
        cards := pl.cards ++ [c]
        flowers := pl.flowers ++ new
        round := pl.round + 1
        from_pool := from_pool }
      rw [← keeps.whole, ← stock]
      apply add_right_cancel (b := (a.players p).stock)
      simp only [Room.stock, Room.later, Room.radio, Option.toList_some] at sum ⊢
      rw [add_assoc, sum]
      simp only [Player.stock, ← Multiset.coe_add, ← Multiset.cons_coe, Multiset.coe_nil,
        ← Multiset.singleton_add, add_zero]
      simp only [Room.modify]
      abel
    · by_cases here : q = p
      · subst here
        simp only [Room.later, Room.radio, Room.modify, Function.update_self, players,
          Option.toList_some]
        intro card mem
        cases List.mem_append.mp mem with
        | inl old => exact keeps.plain q card old
        | inr new => rwa [List.mem_singleton.mp new]
      · simp only [Room.later, Room.radio, Room.modify, Function.update_of_ne here, players]
        exact keeps.plain q

/-- A room that changes only in one player's cards. -/
theorem stock_player (f : Player → Player) (gone : Multiset Card)
    (change : (f (b.players p)).stock + gone = (b.players p).stock) :
    (b.modify p f).stock + gone = b.stock := by
  have sum := @stock_modify b p f
  apply add_right_cancel (b := (f (b.players p)).stock)
  have others : ((b.modify p f).pool : Multiset Card) + (b.modify p f).selectional_cards +
      (b.modify p f).discard_cards = b.pool + b.selectional_cards + b.discard_cards := rfl
  rw [Room.stock, others, Room.stock, add_assoc, add_comm gone, change, add_assoc, sum]
  abel

theorem on_player_playcard_keeps (keeps : ∀ p, ∀ card ∈ (b.players p).cards,
      is_flower card = false) (opened : ∀ card ∈ b.selectional_cards, is_flower card = false)
    (three : b.selectional_cards.length ≤ 3)
    (first : ∀ card ∈ b.pool.head?, is_flower card = false) (plain : is_flower c = false)
    (whole : b.stock + {c} = deck) : Keeps (b.on_player_playcard c) := by
  have open_cards : ∀ card ∈ c :: b.selectional_cards, is_flower card = false :=
    List.forall_mem_cons.mpr ⟨plain, opened⟩
  simp only [Room.on_player_playcard]
  split
  · refine ⟨?_, keeps, fun card mem => open_cards card (List.mem_of_mem_take mem), ?_, first⟩
    · have split : (((c :: b.selectional_cards).take 3 : List Card) : Multiset Card) +
          (c :: b.selectional_cards).drop 3 = ({c} : Multiset Card) + b.selectional_cards := by
        rw [Multiset.coe_add, List.take_append_drop]
        rfl
      rw [← whole, Room.stock, Room.stock, ← Multiset.coe_add]
      calc (b.pool : Multiset Card) + ↑((c :: b.selectional_cards).take 3) +
            (↑b.discard_cards + ↑((c :: b.selectional_cards).drop 3)) +
            ∑ p, (b.players p).stock
          = ↑b.pool + (↑((c :: b.selectional_cards).take 3) +
              ↑((c :: b.selectional_cards).drop 3)) + ↑b.discard_cards +
              ∑ p, (b.players p).stock := by abel
        _ = ↑b.pool + ↑b.selectional_cards + ↑b.discard_cards + ∑ p, (b.players p).stock +
              {c} := by
            rw [split]
            abel
    · exact List.length_take_le 3 _
  · rename_i other
    refine ⟨?_, keeps, open_cards, ?_, first⟩
    · rw [← whole, Room.stock, Room.stock, ← Multiset.cons_coe, ← Multiset.singleton_add]
      abel
    · rw [List.length_cons] at other ⊢
      omega

theorem Keeps.play (keeps : Keeps b) (p : Chair) (card : Option Card) :
    Keeps (b.ssw_playcard p card) := by
  simp only [Room.ssw_playcard]
  split
  · exact keeps
  split
  · exact keeps
  split
  · exact keeps
  split
  · exact keeps
  rename_i card _ _ mem
  rw [not_not] at mem
  have piled := @on_player_playcard_keeps (b.modify p fun pl => { pl with
    cards := pl.cards.erase card, status := .waiting }) card (fun q => ?_) keeps.opened keeps.three
    keeps.first (keeps.plain p card mem) ?_
  · exact piled.of_same ((SameCards.refl.radio _).later _)
  · by_cases here : q = p
    · subst here
      simp only [Room.modify, Function.update_self]
      exact fun other kept => keeps.plain q other (List.mem_of_mem_erase kept)
    · simp only [Room.modify, Function.update_of_ne here]
      exact keeps.plain q
  · rw [← keeps.whole]
    refine stock_player _ _ ?_
    have moved : ((card :: (b.players p).cards.erase card : List Card) : Multiset Card) =
        (b.players p).cards := Multiset.coe_eq_coe.mpr (List.perm_cons_erase mem).symm
    simp only [Player.stock, ← moved, ← Multiset.cons_coe, ← Multiset.singleton_add]
    abel

theorem Keeps.modify {f : Player → Player} (keeps : Keeps b) (p : Chair)
    (same : (f (b.players p)).stock = (b.players p).stock)
    (fewer : (f (b.players p)).cards ⊆ (b.players p).cards) : Keeps (b.modify p f) := by
  refine ⟨?_, fun q => ?_, keeps.opened, keeps.three, keeps.first⟩
  · rw [← keeps.whole, ← stock_player f 0 ((add_zero _).trans same), add_zero]
  · by_cases here : q = p
    · subst here
      simp only [Room.modify, Function.update_self]
      exact fun card mem => keeps.plain q card (fewer mem)
    · simp only [Room.modify, Function.update_of_ne here]
      exact keeps.plain q

theorem Keeps.hu (keeps : Keeps b) (p : Chair) : Keeps (b.ssw_hu conf p) := by
  have marked : Keeps (b.marked p) := keeps.modify p rfl (List.Subset.refl _)
  obtain refused | raised | ⟨c, _, _, _, settled⟩ := @ssw_hu_cases conf b p
  · rwa [refused]
  · rwa [raised]
  · rw [settled]
    refine Keeps.of_same SameCards.refl.checkout_and_bills ?_
    refine marked.modify p ?_ (List.dropLast_subset _)
    have moved : (((b.marked p).players p).cards.dropLast : Multiset Card) +
        ((b.marked p).players p).cards.getLast?.toList = ((b.marked p).players p).cards := by
      rw [Multiset.coe_add]
      cases ((b.marked p).players p).cards using List.reverseRecOn with
      | nil => rfl
      | append_singleton front last => simp
    simp only [Player.stock, ← Multiset.coe_add]
    rw [← moved]
    abel

/-- A take that is not refused names an open card, if any. -/
def NamesOpen (b : Room) : Event → Prop
  | .ssw_takecard p _ card => (b.players p).status = .takeing → b.Offers card
  | _ => True

theorem keeps_step {e : Event} (keeps : Keeps b) (named : NamesOpen b e)
    (moved : b.step conf e = some b') : Keeps b' := by
  have others : (∀ p from_pool card, e = .ssw_takecard p from_pool card → b.Offers card) →
      Keeps b' := fun given =>
    step_cards Keeps Room.Offers (fun _ _ same keeps => keeps.of_same same)
      (fun _ _ named c mem => named c mem)
      (fun _ p from_pool _ offers keeps => keeps.take offers p from_pool)
      (fun _ p card keeps => keeps.play p card) (fun _ p keeps => keeps.hu p) given keeps moved
  cases e with
  | ssw_takecard p from_pool card =>
      by_cases asked : (b.players p).status = .takeing
      · refine others fun p' from_pool' card' same => ?_
        obtain ⟨rfl, rfl, rfl⟩ := Event.ssw_takecard.inj same
        exact named asked
      · obtain rfl := Option.some.inj moved
        rwa [Room.answer, Room.ssw_takecard, if_pos asked]
  | _ => exact others (by rintro _ _ _ ⟨⟩)

/-- The player has taken a card and is asked to play, or about to be. -/
def Room.Holds (b : Room) (p : Chair) : Prop :=
  (b.players p).status = .playing ∨ .please_playcard p ∈ b.tasks

instance : Decidable (b.Holds p) :=
  inferInstanceAs (Decidable ((b.players p).status = .playing ∨ .please_playcard p ∈ b.tasks))

/-- The tasks of the scene are those that take the turn on. -/
theorem holds_main : b.Holds p ↔ b.scene.status p = .playing ∨ .please_playcard p ∈ b.scene.main := by
  simp [Room.Holds, Room.scene, Task.isMain]

theorem idle_playing {u : PlayerState_QQP} (idle : u.acting = false) : u ≠ .playing := by
  rintro rfl
  cases idle

/-- Where nobody is asked and no taken card is waited with, nobody holds eight. -/
theorem none_holds (idle : ∀ q, (b.scene.status q).acting = false)
    (main : ∀ t ∈ b.scene.main, t.holder = none) : none = some p ↔ b.Holds p := by
  rw [holds_main]
  constructor
  · exact nofun
  · rintro (playing | pending)
    · exact absurd playing (idle_playing (idle p))
    · cases main _ pending

theorem Stage.holds (stage : Stage b.scene) (p : Chair) :
    (b.players p).cards.length = if b.Holds p then 8 else 7 := by
  have sized : ∃ holder, b.scene.Sized holder ∧ (holder = some p ↔ b.Holds p) := by
    cases stage with
    | acts q acts =>
        refine ⟨_, acts.sized, ?_⟩
        rw [holds_main, acts.main]
        by_cases same : p = q
        · subst same
          split
          · simp [*]
          · simp [*]
        · have idle := idle_playing (still_idle (acts.alone p same))
          split
          · simp [idle, Ne.symm same]
          · simp [idle]
    | waits t waits =>
        refine ⟨_, waits.sized, ?_⟩
        have idle := idle_playing (still_idle (waits.still p))
        rw [holds_main, waits.main]
        cases t with
        | please_playcard q => simp [Task.holder, idle, eq_comm]
        | _ => simp [Task.holder, idle]
    | settles t c main of turn settles =>
        refine ⟨none, settles.won.sized, none_holds settles.won.idle fun t' mem => ?_⟩
        rw [main, List.mem_singleton] at mem
        subst mem
        cases t' with
        | please_playcard q => cases of
        | _ => rfl
    | recharges w recharges =>
        refine ⟨none, recharges.won.sized, none_holds recharges.won.idle fun t mem => ?_⟩
        rw [recharges.main] at mem
        cases mem
    | leaves leaves =>
        refine ⟨none, leaves.sized, none_holds (fun q => still_idle (leaves.still q)) fun t mem => ?_⟩
        rw [leaves.main, List.mem_singleton] at mem
        exact mem ▸ rfl
    | ends called ends =>
        refine ⟨none, ends.sized, none_holds (fun q => still_idle (ends.still q)) fun t mem => ?_⟩
        rw [ends.main] at mem
        cases mem
  obtain ⟨holder, sized, same⟩ := sized
  have hand : (b.players p).cards.length = if holder = some p then 8 else 7 := sized p
  simp only [hand, same]

/-- What holds of the cards in every room of a game. -/
structure Placed (b : Room) : Prop where
  whole : b.stock = deck
  plain : ∀ p, ∀ card ∈ (b.players p).cards, is_flower card = false
  three : b.selectional_cards.length ≤ 3
  hand : ∀ p, (b.players p).cards.length = if b.Holds p then 8 else 7

theorem stock_new (u : User) (hand : List Card) : (Player.new u hand).stock = hand := by
  have parts : (hand.filter (fun card => !is_flower card) ++ (hand.filter is_flower).reverse).Perm
      hand :=
    ((List.reverse_perm _).append_left _).trans
      (List.perm_append_comm.trans (List.filter_append_perm is_flower hand))
  rw [Player.stock, Player.new, Multiset.coe_nil, add_zero, Multiset.coe_add]
  exact Multiset.coe_eq_coe.mpr parts

theorem keeps_start (dealt : Dealt t) (first_one : Chair) :
    Keeps (.gamestart users t.hands t.cards first_one) := by
  have cards : (t.cards.dropLast : Multiset Card) + t.cards.getLast?.toList = t.cards := by
    rw [Multiset.coe_add]
    cases t.cards using List.reverseRecOn with
    | nil => rfl
    | append_singleton front last => simp
  refine ⟨?_, fun p card mem => ?_, fun card mem => ?_, ?_, ?_⟩
  · rw [← dealt.whole, Table.stock, ← cards]
    simp only [Room.stock, Room.gamestart, stock_new, Multiset.coe_nil, add_zero]
    abel
  · simpa using (List.mem_filter.mp mem).2
  · exact dealt.ends.last card (Option.mem_toList.mp mem)
  · exact (toList_length _).trans (by omega)
  · have head := dealt.ends.head
    simp only [Room.gamestart]
    cases found : t.cards using List.reverseRecOn with
    | nil => exact fun card mem => absurd mem (Option.not_mem_none card)
    | append_singleton front last =>
        rw [List.dropLast_concat]
        exact head_dropLast front (found ▸ head)

/-- A game dealt out of the whole deck, in which takes name open cards only and the last
prompted player does not answer too early. -/
theorem run_placed {first_one : Chair} {es : List Event} (dealt : Dealt t)
    (run : Run (Room.step conf) (fun b e => NamesOpen b e ∧ Unhurried b e)
      (.gamestart users t.hands t.cards first_one) es b) : Placed b := by
  have keeps : Keeps b := run.invariant Keeps (keeps_start dealt first_one)
    fun _ _ _ keeps guard moved => keeps_step keeps guard.1 moved
  have seven : ∀ p, ((t.hands p).filter fun card => !is_flower card).length = 7 := by
    intro p
    have parts := (List.filter_append_perm is_flower (t.hands p)).length_eq
    have hand := dealt.hands p
    rw [List.countP_eq_length_filter] at hand
    rw [List.length_append] at parts
    omega
  have stage := run_stage seven (run.mono fun _ _ guard => guard.2)
  exact ⟨keeps.whole, keeps.plain, keeps.three, stage.holds⟩

instance (b : Room) : ∀ e, Decidable (NamesOpen b e)
  | .ssw_takecard p _ card => inferInstanceAs (Decidable ((b.players p).status = .takeing →
      ∀ c ∈ card, c ∈ b.selectional_cards))
  | .ssw_playcard _ _ | .ssw_hu _ | .ssw_giveup _ | .ssw_not_giveup _ | .ssw_exit _
  | .trusteeship _ | .cancel_trusteeship _ | .trusteeshipAction _ | .SyncRoomData _ _
  | .player_order _ | .resume _ => inferInstanceAs (Decidable True)

/-- The deck as it lies: seven cards a player, and one more for a flower among them. -/
def inOrder : Table where
  hands := fun p => match p with
    | 0 => create_two_pair_cards.take 7
    | 1 => (create_two_pair_cards.drop 7).take 8
    | 2 => (create_two_pair_cards.drop 15).take 7
    | 3 => (create_two_pair_cards.drop 22).take 8
  cards := create_two_pair_cards.drop 30
  skills := fun _ => none

theorem inOrder_dealt : Dealt inOrder := by
  refine ⟨?_, by decide, ⟨by decide, by decide⟩⟩
  rw [Table.stock, Fin.sum_univ_four]
  rfl

/-- The first player takes a card, and plays it. -/
theorem run_placed_played :
    ∃ b, Run (Room.step noHu) (fun b e => NamesOpen b e ∧ Unhurried b e)
        (.gamestart (fun _ => ⟨100, 100, true⟩) inOrder.hands inOrder.cards 0)
        [.resume 0, .ssw_takecard 0 true none, .resume 0, .ssw_playcard 0 (some 0xae)] b ∧
      b.selectional_cards = [0xae, 0xaf] ∧ Placed b := by
  obtain ⟨b, run, taken⟩ := run_of_guarded_any (Room.step noHu)
    (fun b e => NamesOpen b e ∧ Unhurried b e)
    (.gamestart (fun _ => ⟨100, 100, true⟩) inOrder.hands inOrder.cards 0)
    [.resume 0, .ssw_takecard 0 true none, .resume 0, .ssw_playcard 0 (some 0xae)]
    (fun b => b.selectional_cards = [0xae, 0xaf]) (by decide)
  exact ⟨b, run, taken, run_placed inOrder_dealt run⟩

/-- A rule under which everything wins. -/
def winAll : Conf := ⟨100, -1, fun _ => 1, 1, fun _ _ => some (.baxingzha, 1)⟩

/-- The second player answers before the third is prompted, and is asked once more while he
plays. -/
def hurryEvents : List Event := [.resume 0, .ssw_takecard 0 true none, .resume 0, .ssw_hu 0,
  .resume 0, .ssw_not_giveup 1, .ssw_takecard 1 true none, .resume 1, .resume 0,
  .ssw_not_giveup 2, .ssw_takecard 1 true none]

/-- A named card that is not open is given all the same, out of nowhere. And where the last
prompted player answers too early, somebody takes twice. -/
theorem placed_fails :
    (¬ ∀ (conf : Conf) (users : Chair → User) (t : Table) (first_one : Chair) (es : List Event)
      (b : Room), Dealt t →
      Run (Room.step conf) Unhurried (.gamestart users t.hands t.cards first_one) es b →
      Placed b) ∧
    ¬ ∀ (conf : Conf) (users : Chair → User) (t : Table) (first_one : Chair) (es : List Event)
      (b : Room), Dealt t →
      Run (Room.step conf) NamesOpen (.gamestart users t.hands t.cards first_one) es b →
      Placed b := by
  constructor
  · intro all
    obtain ⟨b, run, flower⟩ := run_of_guarded_any (Room.step noHu) Unhurried
      (.gamestart (fun _ => ⟨100, 100, true⟩) inOrder.hands inOrder.cards 0)
      [.resume 0, .ssw_takecard 0 false (some 0x1d)] (fun b => 0x1d ∈ (b.players 0).cards)
      (by decide)
    have plain := (all _ _ _ _ _ _ inOrder_dealt run).plain 0 0x1d flower
    cases plain
  · intro all
    obtain ⟨b, run, nine⟩ := run_of_guarded_any (Room.step winAll) NamesOpen
      (.gamestart (poor [1, 2]) inOrder.hands inOrder.cards 0) hurryEvents
      (fun b => (b.players 1).cards.length ≠ if b.Holds 1 then 8 else 7) (by decide)
    exact nine ((all _ _ _ _ _ _ inOrder_dealt run).hand 1)

end Cards

end HuluLandlord.SevenSparrow
