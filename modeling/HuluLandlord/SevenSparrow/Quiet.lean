import HuluLandlord.SevenSparrow.Action

/-!
What passing the turn on leaves alone. Asking a player, prompting a bankrupt one, his
answer, an exit and the end change statuses and what has been said, but no card, no gold
and no bill. The room a game starts with stands here too.
-/
namespace HuluLandlord.SevenSparrow
open Ddz (Card V C)

/-- What a user brings to the table: his gold after the ticket, the gold he was matched
with, and whether he is a robot. -/
structure User where
  gold : Nat
  goldInit : Nat
  robot : Bool
  deriving DecidableEq, Repr

def Player.new (u : User) (cards : List Card) : Player where
  status := .readyOk
  cards := cards.filter fun card => !is_flower card
  flowers := (cards.filter is_flower).reverse
  hu_cards := []
  round := 0
  is_first := false
  is_trusteeship := false
  from_pool := false
  fixed_events := []
  gold := u.gold
  goldInit := u.goldInit
  goldBrokeLast := 0
  count_bankrupt := 0
  delay_map := []
  robot := u.robot

/-- The room after `gamestart`, asleep before `realstart`. -/
def Room.gamestart (users : Chair → User) (hands : Chair → List Card) (cards : List Card)
    (first_one : Chair) : Room where
  status := .readying
  round := 0
  pool := cards.dropLast
  discard_cards := []
  selectional_cards := cards.getLast?.toList
  players := fun p => .new (users p) (hands p)
  all_bills := []
  first_one := first_one
  last_hu_player := none
  tasks := [.realstart]
  record := []

namespace Player

/-- The cards of a player, and the events that stay with him. -/
def holding (pl : Player) : List Card × List Card × List Card × List HuEventType :=
  (pl.cards, pl.flowers, pl.hu_cards, pl.fixed_events)

def account (pl : Player) : Int × Int × Bool := (pl.gold, pl.goldInit, pl.robot)

end Player

/-- The task of a settlement that waits for an agent. -/
def Task.isCheckout : Task → Bool
  | .charge .. | .pay _ => true
  | _ => false

/-- The entries that speak of gold. -/
def Message.isBook : Message → Bool
  | .hu .. | .sync_player_gold .. | .charge .. | .add_gold .. => true
  | _ => false

theorem nothing_added {α : Type*} {P : α → Prop} (xs : List α) :
    ∃ ys, xs = xs ++ ys ∧ ∀ y ∈ ys, P y :=
  ⟨[], (List.append_nil xs).symm, fun _ mem => absurd mem List.not_mem_nil⟩

structure Quiet (b b' : Room) : Prop where
  pool : b'.pool = b.pool
  discard_cards : b'.discard_cards = b.discard_cards
  selectional_cards : b'.selectional_cards = b.selectional_cards
  all_bills : b'.all_bills = b.all_bills
  holding : ∀ p, (b'.players p).holding = (b.players p).holding
  account : ∀ p, (b'.players p).account = (b.players p).account
  tasks : ∃ ts, b'.tasks = b.tasks ++ ts ∧ ∀ t ∈ ts, t.isCheckout = false
  record : ∃ ms, b'.record = b.record ++ ms ∧ ∀ m ∈ ms, m.isBook = false

namespace Quiet
variable {a b b' : Room} {f : Player → Player}

theorem refl : Quiet b b :=
  ⟨rfl, rfl, rfl, rfl, fun _ => rfl, fun _ => rfl, nothing_added _,
    nothing_added _⟩

theorem trans (first : Quiet a b) (second : Quiet b b') : Quiet a b' where
  pool := second.pool.trans first.pool
  discard_cards := second.discard_cards.trans first.discard_cards
  selectional_cards := second.selectional_cards.trans first.selectional_cards
  all_bills := second.all_bills.trans first.all_bills
  holding := fun p => (second.holding p).trans (first.holding p)
  account := fun p => (second.account p).trans (first.account p)
  tasks := by
    obtain ⟨ts, before, plain⟩ := first.tasks
    obtain ⟨us, after, plain'⟩ := second.tasks
    refine ⟨ts ++ us, by rw [after, before, List.append_assoc], fun t mem => ?_⟩
    cases List.mem_append.mp mem with
    | inl mem => exact plain t mem
    | inr mem => exact plain' t mem
  record := by
    obtain ⟨ms, before, plain⟩ := first.record
    obtain ⟨ns, after, plain'⟩ := second.record
    refine ⟨ms ++ ns, by rw [after, before, List.append_assoc], fun m mem => ?_⟩
    cases List.mem_append.mp mem with
    | inl mem => exact plain m mem
    | inr mem => exact plain' m mem

theorem radio (quiet : Quiet a b) {m : Message} (plain : m.isBook = false) :
    Quiet a (b.radio m) :=
  quiet.trans ⟨rfl, rfl, rfl, rfl, fun _ => rfl, fun _ => rfl,
    nothing_added _, ⟨[m], rfl, fun _ mem => List.mem_singleton.mp mem ▸ plain⟩⟩

theorem later (quiet : Quiet a b) {t : Task} (plain : t.isCheckout = false) :
    Quiet a (b.later t) :=
  quiet.trans ⟨rfl, rfl, rfl, rfl, fun _ => rfl, fun _ => rfl,
    ⟨[t], rfl, fun _ mem => List.mem_singleton.mp mem ▸ plain⟩, nothing_added _⟩

/-- A change of the room's own status, or of what its players were last told. -/
theorem players (quiet : Quiet a b) (status : RoomState_QQP) (f : Chair → Player → Player)
    (holding : ∀ p pl, (f p pl).holding = pl.holding)
    (account : ∀ p pl, (f p pl).account = pl.account) :
    Quiet a { b with status := status, players := fun p => f p (b.players p) } :=
  quiet.trans ⟨rfl, rfl, rfl, rfl, fun p => holding p _, fun p => account p _,
    nothing_added _, nothing_added _⟩

theorem modify (quiet : Quiet a b) (p : Chair) (holding : ∀ pl, (f pl).holding = pl.holding)
    (account : ∀ pl, (f pl).account = pl.account) : Quiet a (b.modify p f) := by
  refine quiet.trans ⟨rfl, rfl, rfl, rfl, fun q => ?_, fun q => ?_,
    nothing_added _, nothing_added _⟩
  · by_cases here : q = p
    · subst here
      simp only [Room.modify, Function.update_self]
      exact holding _
    · simp only [Room.modify, Function.update_of_ne here]
  · by_cases here : q = p
    · subst here
      simp only [Room.modify, Function.update_self]
      exact account _
    · simp only [Room.modify, Function.update_of_ne here]

theorem setStatus (quiet : Quiet a b) (p : Chair) (status : PlayerState_QQP) :
    Quiet a (b.setStatus p status) := quiet.modify p (fun _ => rfl) fun _ => rfl

theorem setTrusteeship (quiet : Quiet a b) (p : Chair) (is_trusteeship : Bool) :
    Quiet a (b.modify p fun pl => { pl with is_trusteeship := is_trusteeship }) :=
  quiet.modify p (fun _ => rfl) fun _ => rfl

theorem broken (quiet : Quiet a b) : Quiet a b.broken :=
  quiet.players b.status (fun p pl => { pl with
    goldBrokeLast := |Room.goldChange b.all_bills p| - pl.goldBrokeLast })
    (fun _ _ => rfl) fun _ _ => rfl

theorem gameover (quiet : Quiet a b) : Quiet a b.gameover := by
  apply Quiet.radio
  · exact quiet.players .ended (fun p pl => { pl with
      goldBrokeLast := |Room.goldChange b.all_bills p| - pl.goldBrokeLast })
      (fun _ _ => rfl) fun _ _ => rfl
  · rfl

theorem please_takecard (quiet : Quiet a b) (p : Chair) (is_first : Bool) :
    Quiet a (b.please_takecard p is_first) := by
  apply Quiet.radio
  · exact quiet.modify p (fun _ => rfl) fun _ => rfl
  · rfl

theorem next_one_take (quiet : Quiet a b) (p : Option Chair) : Quiet a (b.next_one_take p) := by
  have called := @radio a b quiet .next_one_take rfl
  simp only [Room.next_one_take]
  split
  · exact called.gameover
  split
  · exact called
  · exact called.please_takecard _ _

theorem realstart (quiet : Quiet a b) : Quiet a b.realstart := by
  apply Quiet.please_takecard
  exact quiet.players .takeCard (fun _ pl => pl) (fun _ _ => rfl) fun _ _ => rfl

theorem please_recharge (quiet : Quiet a b) (p : Chair) : Quiet a (b.please_recharge p) := by
  have asked : ∀ goldBrokeLast, Quiet a ((b.modify p fun pl => { pl with
      status := .recharging, goldBrokeLast := goldBrokeLast }).radio
        (.please_recharge p goldBrokeLast)) := by
    intro goldBrokeLast
    apply Quiet.radio
    · exact quiet.modify p (fun _ => rfl) fun _ => rfl
    · rfl
  simp only [Room.please_recharge]
  split
  · exact (asked _).later rfl
  · exact asked _

theorem taken (quiet : Quiet a b) (p : Chair) : Quiet a (b.taken p) := by
  simp only [Room.taken]
  split
  · exact quiet.gameover
  · exact (quiet.setStatus p _).radio rfl

theorem ssw_giveup (quiet : Quiet a b) (p : Chair) : Quiet a (b.ssw_giveup p) := by
  have left := (quiet.setStatus p .watching).radio (m := .giveup p true) rfl
  simp only [Room.ssw_giveup]
  split
  · exact quiet
  split
  · exact left.later rfl
  split
  · exact left.next_one_take _
  · exact left

theorem ssw_not_giveup (quiet : Quiet a b) (p : Chair) : Quiet a (b.ssw_not_giveup p) := by
  have back := (quiet.setStatus p .waiting).radio (m := .giveup p false) rfl
  simp only [Room.ssw_not_giveup]
  split
  · exact quiet
  split
  · exact back.next_one_take _
  · exact back

theorem ssw_exit (quiet : Quiet a b) (p : Chair) : Quiet a (b.ssw_exit p) := by
  simp only [Room.ssw_exit]
  split
  · exact quiet
  split
  · exact (quiet.radio rfl).setStatus p _
  · exact (quiet.broken.radio rfl).setStatus p _

theorem player_order (quiet : Quiet a b) (p : Chair) : Quiet a (b.player_order p) := by
  simp only [Room.player_order]
  split
  · apply Quiet.please_recharge
    exact quiet.modify p (fun _ => rfl) fun _ => rfl
  · exact quiet

end Quiet

end HuluLandlord.SevenSparrow
