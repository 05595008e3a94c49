import HuluLandlord.SevenSparrow.Quiet

/-!
Where the cards are, and what a take says of the card it gives. Only a take, a play and a
win move a card; everything else the room does leaves them where they are, whatever else
it changes.
-/
namespace HuluLandlord.SevenSparrow
open Transition Shuffle
open Ddz (Card V C)

structure SameCards (b b' : Room) : Prop where
  pool : b'.pool = b.pool
  discard_cards : b'.discard_cards = b.discard_cards
  selectional_cards : b'.selectional_cards = b.selectional_cards
  holding : ∀ p, (b'.players p).holding = (b.players p).holding

namespace SameCards
variable {conf : Conf} {a b b' : Room} {p q : Chair} {f : Player → Player}

theorem refl : SameCards b b := ⟨rfl, rfl, rfl, fun _ => rfl⟩

theorem trans (first : SameCards a b) (second : SameCards b b') : SameCards a b' where
  pool := second.pool.trans first.pool
  discard_cards := second.discard_cards.trans first.discard_cards
  selectional_cards := second.selectional_cards.trans first.selectional_cards
  holding := fun p => (second.holding p).trans (first.holding p)

theorem radio (same : SameCards a b) (m : Message) : SameCards a (b.radio m) :=
  same.trans ⟨rfl, rfl, rfl, fun _ => rfl⟩

theorem later (same : SameCards a b) (t : Task) : SameCards a (b.later t) :=
  same.trans ⟨rfl, rfl, rfl, fun _ => rfl⟩

theorem modify (same : SameCards a b) (p : Chair) (keeps : ∀ pl, (f pl).holding = pl.holding) :
    SameCards a (b.modify p f) := by
  refine same.trans ⟨rfl, rfl, rfl, fun q => ?_⟩
  by_cases here : q = p
  · subst here
    simp only [Room.modify, Function.update_self]
    exact keeps _
  · simp only [Room.modify, Function.update_of_ne here]

theorem setGold (same : SameCards a b) (p : Chair) (gold : Int) :
    SameCards a (b.setGold p gold) := same.modify p fun _ => rfl

theorem quiet (same : SameCards a b) (quiet : Quiet b b') : SameCards a b' :=
  same.trans ⟨quiet.pool, quiet.discard_cards, quiet.selectional_cards, quiet.holding⟩

theorem SyncRoomData (same : SameCards a b) (p : Chair) (num : Nat) :
    SameCards a (b.SyncRoomData p num) := by
  have told := (same.setGold p num).radio (.sync_player_gold p num)
  simp only [Room.SyncRoomData]
  split
  · exact told.quiet (Quiet.refl.ssw_not_giveup p)
  · exact told

theorem charged {c : Checkout} {goldLost : Int} (same : SameCards a b) :
    SameCards a (b.charged c q goldLost).1 := by
  have taken := fun gold => (same.radio (.add_gold q (-goldLost))).setGold q gold
  have broke := fun gold => @modify a _ (fun pl => { pl with
    count_bankrupt := pl.count_bankrupt + 1 }) (taken gold) q fun _ => rfl
  simp only [Room.charged]
  split
  · split
    · exact (broke _).later _
    · exact (taken _).later _
  · split
    · exact broke _
    · exact taken _

theorem paid {c : Checkout} (same : SameCards a b) : SameCards a (b.paid c) := by
  have given := fun gold => (same.radio (.add_gold c.winner c.goldWin)).setGold c.winner gold
  simp only [Room.paid]
  split
  · exact (given _).trans ⟨rfl, rfl, rfl, fun _ => rfl⟩
  · exact (given _).trans ⟨rfl, rfl, rfl, fun _ => rfl⟩

theorem checkout_and_bills {c : Checkout} {rest : List Chair} (same : SameCards a b) :
    SameCards a (b.checkout_and_bills c rest) := by
  induction rest generalizing b c with
  | nil =>
      simp only [Room.checkout_and_bills]
      split
      · exact same
      split
      · exact same.paid
      · exact same.later _
  | cons q rest ih =>
      simp only [Room.checkout_and_bills]
      split
      · have told := same.radio (.charge c q (min (b.players q).gold c.winGoldMax)
          (b.players q).gold (b.players q).gameing)
        split
        · exact ih told.charged
        · exact told.later _
      · exact ih same

theorem runTask (same : SameCards a b) (t : Task) : SameCards a (b.runTask t) := by
  cases t with
  | realstart => exact same.quiet Quiet.refl.realstart
  | please_playcard p => exact same.quiet (Quiet.refl.taken p)
  | next_one_take p => exact same.quiet (Quiet.refl.next_one_take _)
  | charge c q goldLost rest => exact same.charged.checkout_and_bills
  | pay c => exact same.paid
  | please_recharge p => exact same.quiet (Quiet.refl.please_recharge p)
  | ssw_giveup p => exact same.quiet (Quiet.refl.ssw_giveup p)
  | gameover => exact same.quiet Quiet.refl.gameover

end SameCards

section Takes
variable {conf : Conf} {b b' : Room} {p : Chair} {n : Nat} {pool rest flowers found : List Card}
variable {card : Option Card} {c : Card} {from_pool : Bool}

theorem pool_one_not_2_perm (done : pool_one_not_2 pool n = some rest) : rest.Perm pool := by
  simp only [pool_one_not_2] at done
  split at done
  · cases done
  split at done
  · split at done
    · cases done
    · obtain rfl := Option.some.inj done
      exact swapAt_perm _ _ _
  · obtain rfl := Option.some.inj done
    exact .refl _

/-- What the loop draws comes out of the pool: the card and the flowers, or the flowers
alone with the last of them as the card. -/
theorem takeLoop_drawn (done : takeLoop n pool flowers = (rest, some (card, found)))
    (enough : pool.length ≤ n) (some_left : pool ≠ []) :
    ∃ c new, card = some c ∧ found = flowers ++ new ∧
      (is_flower c = false ∧ (c :: new ++ rest).Perm pool ∨
        rest = [] ∧ c ∈ pool ∧ is_flower c = true ∧ new.Perm pool) ∧
      ∀ c ∈ new, is_flower c = true := by
  induction n generalizing pool flowers with
  | zero => exact absurd (List.length_eq_zero_iff.mp (Nat.le_zero.mp enough)) some_left
  | succ n ih =>
      obtain ⟨front, last, rfl⟩ : ∃ front last, pool = front ++ [last] :=
        ⟨_, _, (List.dropLast_append_getLast some_left).symm⟩
      simp only [takeLoop, List.getLast?_concat, List.dropLast_concat] at done
      split at done
      · rename_i flower
        split at done
        · rename_i empty
          simp only [Prod.mk.injEq, Option.some.injEq] at done
          obtain ⟨rfl, rfl, rfl⟩ := done
          subst empty
          refine ⟨last, [last], rfl, rfl, .inr ⟨rfl, by simp, flower, by simp⟩, ?_⟩
          intro c mem
          rwa [List.mem_singleton.mp mem]
        · rename_i left
          cases swapped : pool_one_not_2 front 0 with
          | none =>
              rw [swapped] at done
              cases done
          | some pool =>
              rw [swapped] at done
              have moved := pool_one_not_2_perm swapped
              have length := moved.length_eq
              rw [List.length_append, List.length_singleton] at enough
              obtain ⟨c, new, rfl, rfl, drawn, all⟩ := ih done (by omega) fun empty =>
                left (List.length_eq_zero_iff.mp (by rw [← length, empty, List.length_nil]))
              refine ⟨c, last :: new, rfl, by simp, ?_, ?_⟩
              · cases drawn with
                | inl drawn =>
                    refine .inl ⟨drawn.1, ?_⟩
                    have tail := (drawn.2.trans moved).cons last
                    exact ((List.Perm.swap last c _).trans tail).trans
                      (List.perm_append_singleton last front).symm
                | inr drawn =>
                    obtain ⟨rfl, mem, isFlower, whole⟩ := drawn
                    refine .inr ⟨rfl, List.mem_append_left _ (moved.mem_iff.mp mem), isFlower, ?_⟩
                    exact ((whole.trans moved).cons last).trans
                      (List.perm_append_singleton last front).symm
              · intro c mem
                cases List.mem_cons.mp mem with
                | inl here => rwa [here]
                | inr mem => exact all c mem
      · rename_i plain
        simp only [Prod.mk.injEq, Option.some.injEq] at done
        obtain ⟨rfl, rfl, rfl⟩ := done
        refine ⟨last, [], rfl, (List.append_nil _).symm, .inl ⟨Bool.eq_false_iff.mpr plain, ?_⟩,
          nofun⟩
        exact (List.perm_append_singleton last front).symm

/-- A take that succeeds gives one card. -/
theorem takeCard_some {b a : Room} {card got : Option Card} {found : List Card}
    (done : b.takeCard card = (a, some (true, got, found))) : ∃ c, got = some c := by
  cases card with
  | some card =>
      simp only [Room.takeCard, Prod.mk.injEq, Option.some.injEq] at done
      exact ⟨card, done.2.2.1.symm⟩
  | none =>
      simp only [Room.takeCard] at done
      split at done
      · cases done
      rename_i loop
      simp only [Prod.mk.injEq, Option.some.injEq, decide_eq_true_eq] at done
      obtain ⟨_, left, rfl, _⟩ := done
      obtain ⟨c, _, same, _⟩ := takeLoop_drawn loop (le_refl _) left
      exact ⟨c, same⟩

/-- Keeping the better of two at a time ends with one of them. -/
theorem foldl_better_mem {α : Type*} (better : α → α → Bool) (others : List α) (best : α) :
    others.foldl (fun best other => if better best other then other else best) best ∈
      best :: others := by
  induction others generalizing best with
  | nil => exact List.mem_singleton_self best
  | cons other others ih =>
      rw [List.foldl_cons]
      split
      · exact List.mem_cons_of_mem best (ih other)
      · cases List.mem_cons.mp (ih best) with
        | inl here => exact List.mem_cons.mpr (.inl here)
        | inr later => exact List.mem_cons_of_mem best (List.mem_cons_of_mem other later)

theorem find_hu_card_mem {conf : Conf} (found : b.find_hu_card conf p = some c) :
    c ∈ b.selectional_cards := by
  simp only [Room.find_hu_card] at found
  split at found
  · rename_i joker
    obtain rfl := Option.some.inj found
    exact List.mem_of_find?_eq_some joker
  split at found
  · cases found
  · rename_i first rest listed
    obtain rfl := Option.some.inj found
    have best := foldl_better_mem (fun best other : Card × Nat => decide (best.2 < other.2))
      rest.reverse first
    simp only [decide_eq_true_eq] at best
    have listed_mem : ∀ pair ∈ first :: rest, pair.1 ∈ b.selectional_cards := by
      rw [← listed]
      intro pair mem
      obtain ⟨card, member, hu⟩ := List.mem_filterMap.mp mem
      obtain ⟨found, _, rfl⟩ := Option.map_eq_some_iff.mp hu
      exact member
    apply listed_mem
    simpa using best

/-- An invariant of the cards over one event: only takes, plays and wins matter. `Given`
is what the takes are known to satisfy; an automatic take names an open card. -/
theorem step_cards {conf : Conf} {e : Event} (Inv : Room → Prop)
    (Given : Room → Option Card → Prop)
    (same : ∀ b b', SameCards b b' → Inv b → Inv b')
    (auto : ∀ b card, (∀ c, card = some c → c ∈ b.selectional_cards) → Given b card)
    (take : ∀ b p from_pool card, Given b card → Inv b → Inv (b.ssw_takecard p from_pool card).1)
    (play : ∀ b p card, Inv b → Inv (b.ssw_playcard p card))
    (hu : ∀ b p, Inv b → Inv (b.ssw_hu conf p))
    (given : ∀ p from_pool card, e = .ssw_takecard p from_pool card → Given b card)
    (inv : Inv b) (moved : b.step conf e = some b') : Inv b' := by
  have action : ∀ b p, Inv b → Inv (b.trusteeshipAction conf p) := by
    intro b p inv
    simp only [Room.trusteeshipAction]
    split
    · simp only [Room.auto_take]
      split
      · rename_i card found
        refine take b p false (some card) (auto b _ fun c named => ?_) inv
        rw [← Option.some.inj named]
        exact find_hu_card_mem found
      · exact take b p true none (auto b _ nofun) inv
    · simp only [Room.auto_play]
      split
      · exact inv
      · exact hu b p inv
      · exact play b p _ inv
    · exact same b _ (SameCards.refl.quiet (Quiet.refl.ssw_giveup p)) inv
    · exact inv
  cases step_cases moved with
  | inl resumed =>
      obtain ⟨i, t, _, _, rfl⟩ := resumed
      refine same b _ (SameCards.runTask ?_ t) inv
      exact ⟨rfl, rfl, rfl, fun _ => rfl⟩
  | inr answered =>
      obtain ⟨_, rfl⟩ := answered
      cases e with
      | ssw_takecard p from_pool card => exact take b p from_pool card (given p from_pool card rfl) inv
      | ssw_playcard p card => exact play b p card inv
      | ssw_hu p => exact hu b p inv
      | ssw_giveup p => exact same b _ (SameCards.refl.quiet (Quiet.refl.ssw_giveup p)) inv
      | ssw_not_giveup p => exact same b _ (SameCards.refl.quiet (Quiet.refl.ssw_not_giveup p)) inv
      | ssw_exit p => exact same b _ (SameCards.refl.quiet (Quiet.refl.ssw_exit p)) inv
      | trusteeship p =>
          simp only [Room.answer, Room.trusteeship]
          split
          · exact inv
          · apply action
            exact same b _ (SameCards.refl.quiet (Quiet.refl.setTrusteeship p true)) inv
      | cancel_trusteeship p =>
          exact same b _ (SameCards.refl.quiet (Quiet.refl.setTrusteeship p false)) inv
      | trusteeshipAction p =>
          simp only [Room.answer]
          split
          · exact action b p inv
          · exact inv
      | SyncRoomData p num => exact same b _ (SameCards.refl.SyncRoomData p num) inv
      | player_order p => exact same b _ (SameCards.refl.quiet (Quiet.refl.player_order p)) inv
      | resume i => exact inv

/-- Only the two events of a first round stay with a player. -/
def FixedRounds (b : Room) : Prop :=
  ∀ p, ∀ event ∈ (b.players p).fixed_events, event = .tianHu ∨ event = .diHu

theorem FixedRounds.of_same (same : SameCards b b') (fixed : FixedRounds b) : FixedRounds b' := by
  intro p
  have kept := congrArg (fun hold => hold.2.2.2) (same.holding p)
  simp only [Player.holding] at kept
  rw [kept]
  exact fixed p

theorem FixedRounds.modify {f : Player → Player} (fixed : FixedRounds b) (p : Chair)
    (stay : ∀ event ∈ (f (b.players p)).fixed_events, event = .tianHu ∨ event = .diHu) :
    FixedRounds (b.modify p f) := by
  intro q
  by_cases here : q = p
  · subst here
    simpa only [Room.modify, Function.update_self] using stay
  · simpa only [Room.modify, Function.update_of_ne here] using fixed q

theorem FixedRounds.keep {f : Player → Player} (fixed : FixedRounds b) (p : Chair)
    (kept : ∀ pl, (f pl).fixed_events = pl.fixed_events) : FixedRounds (b.modify p f) :=
  fixed.modify p (by rw [kept]; exact fixed p)

theorem firstEvent_round (b : Room) (p : Chair) :
    ∀ event ∈ firstEvent b p, event = .tianHu ∨ event = .diHu := by
  intro event first
  simp only [firstEvent] at first
  split at first
  · obtain rfl := Option.some.inj first
    split
    · exact .inl rfl
    · exact .inr rfl
  · cases first

theorem fixedRounds_take (fixed : FixedRounds b) (p : Chair) (from_pool : Bool)
    (card : Option Card) : FixedRounds (b.ssw_takecard p from_pool card).1 := by
  have kept : FixedRounds (b.takeCard card).1 := by
    cases card with
    | none =>
        simp only [Room.takeCard]
        split
        · exact fixed
        · exact fixed
    | some card => exact fixed
  simp only [Room.ssw_takecard]
  split
  · exact fixed
  split
  · exact fixed
  split
  · rename_i done
    rwa [done] at kept
  · rename_i done
    rwa [done] at kept
  · rename_i after card flowers done
    rw [done] at kept
    exact kept.keep (f := fun pl => { pl with
      status := .waiting
      cards := pl.cards ++ card.toList
      flowers := pl.flowers ++ flowers
      round := pl.round + 1
      from_pool := from_pool }) p fun _ => rfl

theorem fixedRounds_play (fixed : FixedRounds b) (p : Chair) (card : Option Card) :
    FixedRounds (b.ssw_playcard p card) := by
  simp only [Room.ssw_playcard]
  split
  · exact fixed
  split
  · exact fixed
  split
  · exact fixed
  split
  · exact fixed
  · rename_i card _ _ _
    have played := fixed.keep (f := fun pl => { pl with
      cards := pl.cards.erase card, status := .waiting }) p fun _ => rfl
    simp only [Room.on_player_playcard]
    split
    · exact played
    · exact played

theorem fixedRounds_hu {conf : Conf} (fixed : FixedRounds b) (p : Chair) :
    FixedRounds (b.ssw_hu conf p) := by
  simp only [Room.ssw_hu]
  split
  · exact fixed
  split
  · exact fixed
  · exact fixed
  have first : FixedRounds (b.modify p fun pl => { pl with
      fixed_events := fixEvent pl.fixed_events (firstEvent b p) }) := by
    apply fixed.modify
    intro event mem
    simp only [fixEvent] at mem
    split at mem
    · exact fixed p event mem
    · rename_i first
      split at mem
      · exact fixed p event mem
      · cases List.mem_append.mp mem with
        | inl mem => exact fixed p event mem
        | inr mem => exact firstEvent_round b p event (List.mem_singleton.mp mem ▸ first)
  split
  · exact first
  · refine FixedRounds.of_same SameCards.refl.checkout_and_bills ?_
    exact first.keep p fun _ => rfl

theorem run_fixedRounds {conf : Conf} {ok : Room → Event → Prop} {users : Chair → User}
    {hands : Chair → List Card} {cards : List Card} {first_one : Chair} {es : List Event}
    (run : Run (Room.step conf) ok (.gamestart users hands cards first_one) es b) :
    FixedRounds b := by
  apply run.invariant FixedRounds
  · intro p event mem
    exact absurd mem List.not_mem_nil
  · intro b e b' fixed _ moved
    exact step_cards FixedRounds (fun _ _ => True) (fun _ _ same fixed => fixed.of_same same)
      (fun _ _ _ => trivial) (fun b p from_pool card _ fixed => fixedRounds_take fixed p from_pool card)
      (fun b p card fixed => fixedRounds_play fixed p card) (fun b p fixed => fixedRounds_hu fixed p)
      (fun _ _ _ _ => trivial) fixed moved

/-- The card a push of a take shows to a player. -/
def Message.shown : Message → Chair → Option Card
  | .takecard pid from_pool card _, q => if from_pool = false ∨ q = pid then card else none
  | _, _ => none

/-- What is said and paid of the card a take gave, against where it was taken from. -/
structure Honest (b b' : Room) (p : Chair) (c : Card) (m : Message) : Prop where
  self_drawn : (b'.players p).from_pool = true ↔ b'.pool.count c < b.pool.count c
  shown : ∀ q, q ≠ p →
    (m.shown q = some c ↔ b'.selectional_cards.count c < b.selectional_cards.count c)
  paid : ∀ type events, getHuEventArr b' p type = some events →
    .ziMo ∈ events ∨ .fishmoon ∈ events → b'.pool.count c < b.pool.count c

/-- A take that gave one card and told the truth about it. -/
def TookHonestly (b b' : Room) (p : Chair) : Prop :=
  ∃ c m, (b'.players p).cards = (b.players p).cards ++ [c] ∧ b'.record = b.record ++ [m] ∧
    Honest b b' p c m

/-- Self-draw and the last card of the pool are only counted under `from_pool`. -/
theorem drawn_events {type : CardType} {events : List HuEventType} (fixed : FixedRounds b)
    (done : getHuEventArr b p type = some events) (drawn : .ziMo ∈ events ∨ .fishmoon ∈ events) :
    (b.players p).from_pool = true := by
  by_contra open_card
  rw [Bool.not_eq_true] at open_card
  simp only [getHuEventArr, Option.map_eq_some_iff] at done
  obtain ⟨qingyise, _, rfl⟩ := done
  have absent : ∀ event, event ∈ (firstEvent b p).toList ∨ event ∈ (b.players p).fixed_events →
      event = .tianHu ∨ event = .diHu := by
    intro event mem
    cases mem with
    | inl mem => exact firstEvent_round b p event (Option.mem_toList.mp mem)
    | inr mem => exact fixed p event mem
  have ziMo := absent .ziMo
  have fishmoon := absent .fishmoon
  simp only [open_card] at drawn
  cases drawn with
  | inl drawn =>
      simp only [List.mem_append] at drawn
      split_ifs at drawn
      all_goals simp_all
  | inr drawn =>
      simp only [List.mem_append] at drawn
      split_ifs at drawn
      all_goals simp_all

/-- A take that succeeds, from the answer of `takeCard`. -/
theorem ssw_takecard_done (done : b.ssw_takecard p from_pool card = (b', true)) :
    ¬(from_pool = false ∧ card = none) ∧ ∃ a got found,
      b.takeCard card = (a, some (true, got, found)) ∧
      b' = ((a.modify p fun pl => { pl with
        status := .waiting
        cards := pl.cards ++ got.toList
        flowers := pl.flowers ++ found
        round := pl.round + 1
        from_pool := from_pool }).radio (.takecard p from_pool got found)).later
          (.please_playcard p) := by
  simp only [Room.ssw_takecard] at done
  split at done
  · cases done
  split at done
  · cases done
  rename_i named
  split at done
  · cases done
  · cases done
  · rename_i a got found taken
    exact ⟨named, a, got, found, taken, (Prod.mk.inj done).1.symm⟩

/-- What a take says of its card is true exactly when it does not name a card and claim
the pool, and a card it names is an open one. -/
theorem take_honest_iff {conf : Conf} {users : Chair → User} {hands : Chair → List Card}
    {cards : List Card} {first_one : Chair} {es : List Event}
    (run : Run (Room.step conf) anyStep (.gamestart users hands cards first_one) es b)
    (done : b.ssw_takecard p from_pool card = (b', true)) :
    TookHonestly b b' p ↔ ∀ c, card = some c → from_pool = false ∧ c ∈ b.selectional_cards := by
  have fixed : FixedRounds b' := by
    have kept := fixedRounds_take (run_fixedRounds run) p from_pool card
    rwa [done] at kept
  obtain ⟨named, a, got, found, taken, after⟩ := ssw_takecard_done done
  have flag : (b'.players p).from_pool = from_pool := by
    rw [after]
    simp [Room.later, Room.radio, Room.modify]
  cases card with
  | none =>
      have claimed : from_pool = true := by
        cases from_pool with
        | true => rfl
        | false => exact absurd ⟨rfl, rfl⟩ named
      refine ⟨fun _ c given => absurd given.symm (Option.some_ne_none c), fun _ => ?_⟩
      simp only [Room.takeCard] at taken
      split at taken
      · cases taken
      rename_i pool card flowers loop
      simp only [Prod.mk.injEq, Option.some.injEq, decide_eq_true_eq] at taken
      obtain ⟨rfl, left, rfl, rfl⟩ := taken
      obtain ⟨c, new, rfl, found_eq, drawn, _⟩ := takeLoop_drawn loop (le_refl _) left
      have fewer : b'.pool.count c < b.pool.count c := by
        have pool_after : b'.pool = pool := by
          rw [after]
          rfl
        rw [pool_after]
        cases drawn with
        | inl drawn =>
            rw [← drawn.2.count_eq c, List.count_append, List.count_cons_self]
            omega
        | inr drawn =>
            obtain ⟨rfl, mem, _⟩ := drawn
            simpa using mem
      refine ⟨c, .takecard p from_pool (some c) flowers, ?_, ?_, ?_, ?_, ?_⟩
      · rw [after]
        simp [Room.later, Room.radio, Room.modify]
      · rw [after]
        rfl
      · rw [flag]
        exact ⟨fun _ => fewer, fun _ => claimed⟩
      · intro q other
        have same : b'.selectional_cards = b.selectional_cards := by
          rw [after]
          rfl
        simp [Message.shown, claimed, other, same]
      · exact fun _ _ _ _ => fewer
  | some c =>
      simp only [Room.takeCard, Prod.mk.injEq, Option.some.injEq, true_and] at taken
      obtain ⟨rfl, rfl, rfl⟩ := taken
      have gave : (b'.players p).cards = (b.players p).cards ++ [c] := by
        rw [after]
        simp [Room.later, Room.radio, Room.modify]
      have said : b'.record = b.record ++ [.takecard p from_pool (some c) []] := by
        rw [after]
        rfl
      have pool : b'.pool = b.pool := by
        rw [after]
        rfl
      have opened : b'.selectional_cards = b.selectional_cards.erase c := by
        rw [after]
        rfl
      have picked : b'.selectional_cards.count c < b.selectional_cards.count c ↔
          c ∈ b.selectional_cards := by
        rw [opened, List.count_erase_self, ← List.count_pos_iff]
        omega
      constructor
      · rintro ⟨d, m, hand, record, honest⟩ _ same
        rw [← Option.some.inj same]
        rw [gave, List.append_cancel_left_eq, List.singleton_inj] at hand
        rw [said, List.append_cancel_left_eq, List.singleton_inj] at record
        subst hand record
        have shown := honest.shown (p + 1) p.next_ne
        rw [picked] at shown
        have flagged := honest.self_drawn
        rw [flag, pool] at flagged
        have open_card : from_pool = false := by
          rw [← Bool.not_eq_true]
          exact fun claimed => lt_irrefl _ (flagged.mp claimed)
        exact ⟨open_card, shown.mp (by simp [Message.shown, open_card])⟩
      · intro named
        obtain ⟨rfl, mem⟩ := named c rfl
        refine ⟨c, _, gave, said, ?_, ?_, ?_⟩
        · simp [flag, pool]
        · intro q other
          simpa only [picked, Message.shown, true_or, if_true, true_iff] using mem
        · intro type events arr drawn
          have claimed := drawn_events fixed arr drawn
          rw [flag] at claimed
          cases claimed

/-- A table whose first player is asked to take: two cards in the pool, one open. -/
def firstTake : Room :=
  (Room.gamestart (fun _ => ⟨100, 100, true⟩) (fun _ => []) [0x11, 0x12, 0x13] 0).realstart

def noHu : Conf := ⟨1, -1, fun _ => 1, 2, fun _ _ => none⟩

theorem firstTake_run : Run (Room.step noHu) anyStep
    (.gamestart (fun _ => ⟨100, 100, true⟩) (fun _ => []) [0x11, 0x12, 0x13] 0)
    [.resume 0] { firstTake with tasks := [] } :=
  run_of_exec _ _ _ rfl

theorem take_honest_drawn :
    let b := { firstTake with tasks := [] }
    Run (Room.step noHu) anyStep
        (.gamestart (fun _ => ⟨100, 100, true⟩) (fun _ => []) [0x11, 0x12, 0x13] 0)
        [.resume 0] b ∧
      b.ssw_takecard 0 true none = ((b.ssw_takecard 0 true none).1, true) ∧
      (TookHonestly b (b.ssw_takecard 0 true none).1 0 ↔
        ∀ c, none = some c → true = false ∧ c ∈ b.selectional_cards) :=
  ⟨firstTake_run, rfl, take_honest_iff firstTake_run rfl⟩

/-- The open card is asked for under the claim that it comes from the pool. -/
theorem take_open_claimed :
    ¬ ∀ (conf : Conf) (users : Chair → User) (hands : Chair → List Card) (cards : List Card)
      (first_one : Chair) (es : List Event) (b b' : Room) (p : Chair) (from_pool : Bool)
      (card : Option Card),
      Run (Room.step conf) anyStep (.gamestart users hands cards first_one) es b →
      b.ssw_takecard p from_pool card = (b', true) → TookHonestly b b' p := by
  intro all
  obtain ⟨c, m, hand, _, honest⟩ := all noHu _ _ _ _ _ _ _ 0 true (some 0x13) firstTake_run rfl
  have given : [(0x13 : Card)] = [c] := hand
  obtain rfl := List.singleton_inj.mp given
  exact absurd (honest.self_drawn.mp rfl) (by decide)

end Takes

end HuluLandlord.SevenSparrow
