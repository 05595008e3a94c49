import HuluLandlord.SevenSparrow.Ledger

/-!
The losses a player is told of: by each recharge prompt of his, by the report of his
early exit and by the report of the end. His agent counts each amount as a loss of its
own, so each should be what he lost since the one before. What the room keeps for this,
`goldBrokeLast`, is the amount told last and not the loss at the time, and every report
brings it forward for all the players.
-/
namespace HuluLandlord.SevenSparrow
open Transition
open Room (goldChange)

/-- One amount told, with the net loss since the amount before and the net loss so far. -/
structure Told where
  amount : Int
  since : Int
  total : Int
  deriving DecidableEq, Repr

/-- A player's side of the record: whether he has exited, his net losses, and the amounts
he was told. Nothing reaches him after his exit. -/
structure Tally where
  out : Bool
  since : Int
  total : Int
  told : List Told
  deriving DecidableEq, Repr

namespace Tally

def tell (s : Tally) (amount : Int) : Tally :=
  if s.out then s else { s with told := s.told ++ [⟨amount, s.since, s.total⟩], since := 0 }

def next (p : Chair) (s : Tally) : Message → Tally
  | .add_gold pid num =>
      if pid = p then { s with since := s.since - num, total := s.total - num } else s
  | .please_recharge pid goldBrokeLast => if pid = p then s.tell goldBrokeLast else s
  | .exit pid overInfo =>
      if pid = p then
        { (match overInfo with
            | some datas => s.tell (datas p).goldBrokeLast
            | none => s) with out := true }
      else s
  | .gameover datas => s.tell (datas p).goldBrokeLast
  | _ => s

/-- The amount told last. -/
def lastAmount (s : Tally) : Int := (s.told.getLast?.map Told.amount).getD 0

/-- The net loss at the amount told last. -/
def lastTotal (s : Tally) : Int := (s.told.getLast?.map Told.total).getD 0

/-- What one message can do to a tally, with what it moves. -/
inductive Step (s : Tally) : Int → Tally → Prop
  | same : Step s 0 s
  | lost (n : Int) : Step s n { s with since := s.since - n, total := s.total - n }
  | told (amount : Int) : Step s 0 (s.tell amount)
  | left {n : Int} {t : Tally} : Step s n t → Step s n { t with out := true }

end Tally

def tally (p : Chair) (record : List Message) : Tally :=
  record.foldl (Tally.next p) ⟨false, 0, 0, []⟩

/-- The messages that tell a player of his losses. -/
def Message.announces : Message → Bool
  | .please_recharge .. | .exit .. | .gameover _ => true
  | _ => false

/-- The messages no tally looks at. -/
def Message.isSilent : Message → Bool
  | .please_recharge .. | .exit .. | .gameover _ | .add_gold .. => false
  | _ => true

section Tallies
variable {p : Chair} {record ms : List Message} {m : Message} {s t : Tally} {n : Int}

theorem tally_concat : tally p (record ++ [m]) = (tally p record).next p m := by
  simp [tally]

theorem tell_total (s : Tally) (amount : Int) : (s.tell amount).total = s.total := by
  simp only [Tally.tell]
  split
  · rfl
  · rfl

theorem Tally.Step.total (step : s.Step n t) : t.total = s.total - n := by
  induction step with
  | same => exact (sub_zero _).symm
  | lost n => rfl
  | told amount => rw [tell_total, sub_zero]
  | left _ ih => exact ih

/-- What was lost since the last amount is what the net loss has grown by. -/
theorem Tally.Step.since (step : s.Step n t) (before : s.since = s.total - s.lastTotal) :
    t.since = t.total - t.lastTotal := by
  induction step with
  | same => exact before
  | lost n =>
      simp only [Tally.lastTotal] at before ⊢
      omega
  | told amount =>
      simp only [Tally.tell]
      split
      · exact before
      · simp [Tally.lastTotal]
  | left _ ih => exact ih

theorem tally_silent (silent : ∀ m ∈ ms, m.isSilent = true) (record : List Message) :
    tally p (record ++ ms) = tally p record := by
  induction ms using List.reverseRecOn with
  | nil => simp
  | append_singleton ms m ih =>
      have last := silent m (List.mem_append_right _ (List.mem_singleton_self m))
      rw [← List.append_assoc, tally_concat,
        ih fun m mem => silent m (List.mem_append_left _ mem)]
      cases m with
      | please_recharge pid goldBrokeLast => cases last
      | exit pid overInfo => cases last
      | gameover datas => cases last
      | add_gold pid num => cases last
      | _ => rfl

end Tallies

/-- A step that tells nobody of his losses. -/
structure Mute (b b' : Room) : Prop where
  brokeLast : ∀ p, (b'.players p).goldBrokeLast = (b.players p).goldBrokeLast
  record : ∃ ms, b'.record = b.record ++ ms ∧ ∀ m ∈ ms, m.announces = false

/-- A step that changes neither the books nor what was told. -/
structure Hush (b b' : Room) : Prop where
  all_bills : b'.all_bills = b.all_bills
  openBills : ∀ p, goldChange b'.openBills p = goldChange b.openBills p
  brokeLast : ∀ p, (b'.players p).goldBrokeLast = (b.players p).goldBrokeLast
  record : ∃ ms, b'.record = b.record ++ ms ∧ ∀ m ∈ ms, m.isSilent = true

section Hushed
variable {a b b' : Room} {p : Chair} {f : Player → Player}

namespace Hush

theorem refl : Hush b b := ⟨rfl, fun _ => rfl, fun _ => rfl, nothing_added _⟩

theorem trans (first : Hush a b) (second : Hush b b') : Hush a b' where
  all_bills := second.all_bills.trans first.all_bills
  openBills := fun p => (second.openBills p).trans (first.openBills p)
  brokeLast := fun p => (second.brokeLast p).trans (first.brokeLast p)
  record := by
    obtain ⟨ms, before, silent⟩ := first.record
    obtain ⟨ns, after, silent'⟩ := second.record
    refine ⟨ms ++ ns, by rw [after, before, List.append_assoc], fun m mem => ?_⟩
    exact (List.mem_append.mp mem).elim (silent m) (silent' m)

theorem radio (hush : Hush a b) {m : Message} (silent : m.isSilent = true) :
    Hush a (b.radio m) :=
  hush.trans ⟨rfl, fun _ => rfl, fun _ => rfl,
    ⟨[m], rfl, fun _ mem => List.mem_singleton.mp mem ▸ silent⟩⟩

theorem later (hush : Hush a b) {t : Task} (plain : t.isCheckout = false) :
    Hush a (b.later t) := by
  refine hush.trans ⟨rfl, fun p => ?_, fun _ => rfl, nothing_added _⟩
  have none : t.bills = [] := by simpa using @bills_plain [t] (by simpa using plain)
  simp [Room.openBills, Room.later, none]

theorem modify (hush : Hush a b) (p : Chair)
    (kept : ∀ pl, (f pl).goldBrokeLast = pl.goldBrokeLast) : Hush a (b.modify p f) := by
  refine hush.trans ⟨rfl, fun _ => rfl, fun q => ?_, nothing_added _⟩
  by_cases here : q = p
  · subst here
    simp only [Room.modify, Function.update_self]
    exact kept _
  · simp only [Room.modify, Function.update_of_ne here]

theorem setStatus (hush : Hush a b) (p : Chair) (status : PlayerState_QQP) :
    Hush a (b.setStatus p status) := hush.modify p fun _ => rfl

theorem please_takecard (hush : Hush a b) (p : Chair) (is_first : Bool) :
    Hush a (b.please_takecard p is_first) := by
  apply Hush.radio
  · exact hush.modify p fun _ => rfl
  · rfl

theorem take (p : Chair) (from_pool : Bool) (card : Option Ddz.Card) :
    Hush b (b.ssw_takecard p from_pool card).1 := by
  have kept : Hush b (b.takeCard card).1 := by
    cases card with
    | none =>
        simp only [Room.takeCard]
        split
        · exact ⟨rfl, fun _ => rfl, fun _ => rfl, nothing_added _⟩
        · exact ⟨rfl, fun _ => rfl, fun _ => rfl, nothing_added _⟩
    | some card => exact ⟨rfl, fun _ => rfl, fun _ => rfl, nothing_added _⟩
  simp only [Room.ssw_takecard]
  split
  · exact .refl
  split
  · exact .refl
  split
  · rename_i done
    rwa [done] at kept
  · rename_i done
    rwa [done] at kept
  · rename_i after card flowers done
    rw [done] at kept
    have given := kept.modify (f := fun pl => { pl with
      status := .waiting
      cards := pl.cards ++ card.toList
      flowers := pl.flowers ++ flowers
      round := pl.round + 1
      from_pool := from_pool }) p fun _ => rfl
    exact (given.radio rfl).later rfl

theorem play (p : Chair) (card : Option Ddz.Card) : Hush b (b.ssw_playcard p card) := by
  simp only [Room.ssw_playcard]
  split
  · exact .refl
  split
  · exact .refl
  split
  · exact .refl
  split
  · exact .refl
  · rename_i card _ _ _
    have played := @modify b b (fun pl => { pl with
      cards := pl.cards.erase card, status := .waiting }) .refl p fun _ => rfl
    have put : ∀ b : Room, Hush b (b.on_player_playcard card) := by
      intro b
      simp only [Room.on_player_playcard]
      split
      · exact ⟨rfl, fun _ => rfl, fun _ => rfl, nothing_added _⟩
      · exact ⟨rfl, fun _ => rfl, fun _ => rfl, nothing_added _⟩
    exact ((played.trans (put _)).radio rfl).later rfl

end Hush

/-- What a step that is no settlement and no exit can tell: nothing, the reports of the
end, or one prompt, with nothing said or changed before it that matters to it. -/
inductive Outcome (b b' : Room) : Prop
  | hush (hush : Hush b b')
  | ends (m : Room) (before : Hush b m) (after : Hush m.gameover b')
  | recharge (m : Room) (p : Chair) (before : Hush b m) (after : Hush (m.please_recharge p) b')

namespace Outcome

theorem before (hush : Hush a b) (outcome : Outcome b b') : Outcome a b' := by
  cases outcome with
  | hush after => exact .hush (hush.trans after)
  | ends m before after => exact .ends m (hush.trans before) after
  | recharge m p before after => exact .recharge m p (hush.trans before) after

theorem next_one_take (p : Option Chair) : Outcome b (b.next_one_take p) := by
  have called := @Hush.radio b b .refl .next_one_take rfl
  simp only [Room.next_one_take]
  split
  · exact .ends _ called .refl
  split
  · exact .hush called
  · exact .hush (called.please_takecard _ _)

theorem taken (p : Chair) : Outcome b (b.taken p) := by
  simp only [Room.taken]
  split
  · exact .ends b .refl .refl
  · exact .hush ((Hush.refl.setStatus p _).radio rfl)

theorem ssw_giveup (p : Chair) : Outcome b (b.ssw_giveup p) := by
  have left := (@Hush.refl b).setStatus p .watching |>.radio (m := .giveup p true) rfl
  simp only [Room.ssw_giveup]
  split
  · exact .hush .refl
  split
  · exact .hush (left.later rfl)
  split
  · exact (next_one_take _).before left
  · exact .hush left

theorem ssw_not_giveup (p : Chair) : Outcome b (b.ssw_not_giveup p) := by
  have back := (@Hush.refl b).setStatus p .waiting |>.radio (m := .giveup p false) rfl
  simp only [Room.ssw_not_giveup]
  split
  · exact .hush .refl
  split
  · exact (next_one_take _).before back
  · exact .hush back

theorem SyncRoomData (p : Chair) (num : Nat) : Outcome b (b.SyncRoomData p num) := by
  have told : Hush b ((b.setGold p num).radio (.sync_player_gold p num)) := by
    apply Hush.radio
    · exact Hush.refl.modify p fun _ => rfl
    · rfl
  simp only [Room.SyncRoomData]
  split
  · exact (ssw_not_giveup p).before told
  · exact .hush told

theorem player_order (p : Chair) : Outcome b (b.player_order p) := by
  simp only [Room.player_order]
  split
  · refine .recharge _ p ?_ .refl
    exact Hush.refl.modify p fun _ => rfl
  · exact .hush .refl

end Outcome

namespace Mute

theorem of_hush (hush : Hush a b) : Mute a b := by
  obtain ⟨ms, record, silent⟩ := hush.record
  refine ⟨hush.brokeLast, ms, record, fun m mem => ?_⟩
  have quiet := silent m mem
  cases m with
  | please_recharge pid goldBrokeLast => cases quiet
  | exit pid overInfo => cases quiet
  | gameover datas => cases quiet
  | _ => rfl

theorem trans (first : Mute a b) (second : Mute b b') : Mute a b' where
  brokeLast := fun p => (second.brokeLast p).trans (first.brokeLast p)
  record := by
    obtain ⟨ms, before, plain⟩ := first.record
    obtain ⟨ns, after, plain'⟩ := second.record
    refine ⟨ms ++ ns, by rw [after, before, List.append_assoc], fun m mem => ?_⟩
    exact (List.mem_append.mp mem).elim (plain m) (plain' m)

theorem radio (mute : Mute a b) {m : Message} (plain : m.announces = false) :
    Mute a (b.radio m) :=
  mute.trans ⟨fun _ => rfl, ⟨[m], rfl, fun _ mem => List.mem_singleton.mp mem ▸ plain⟩⟩

theorem later (mute : Mute a b) (t : Task) : Mute a (b.later t) :=
  mute.trans ⟨fun _ => rfl, nothing_added _⟩

theorem modify (mute : Mute a b) (p : Chair)
    (kept : ∀ pl, (f pl).goldBrokeLast = pl.goldBrokeLast) : Mute a (b.modify p f) :=
  mute.trans (of_hush (Hush.refl.modify p kept))

theorem setGold (mute : Mute a b) (p : Chair) (gold : Int) : Mute a (b.setGold p gold) :=
  mute.modify p fun _ => rfl

theorem charged {c : Checkout} {q : Chair} {goldLost : Int} (mute : Mute a b) :
    Mute a (b.charged c q goldLost).1 := by
  have taken := fun gold => (mute.radio (m := .add_gold q (-goldLost)) rfl).setGold q gold
  have broke := fun gold => (taken gold).modify (f := fun pl => { pl with
    count_bankrupt := pl.count_bankrupt + 1 }) q fun _ => rfl
  simp only [Room.charged]
  split
  · split
    · exact (broke _).later _
    · exact (taken _).later _
  · split
    · exact broke _
    · exact taken _

theorem paid {c : Checkout} (mute : Mute a b) : Mute a (b.paid c) := by
  have given := fun gold =>
    (mute.radio (m := .add_gold c.winner c.goldWin) rfl).setGold c.winner gold
  have booked : ∀ {b : Room} {bills : List Bill}, Mute a b → Mute a ({ b with
      last_hu_player := some c.winner
      all_bills := b.all_bills ++ bills }.radio (.hu c.winner bills)) := by
    intro b bills mute
    apply Mute.radio
    · exact mute.trans ⟨fun _ => rfl, nothing_added _⟩
    · rfl
  simp only [Room.paid]
  split
  · exact booked (given _)
  · exact (booked (given _)).later _

theorem checkout_and_bills {c : Checkout} {rest : List Chair} (mute : Mute a b) :
    Mute a (b.checkout_and_bills c rest) := by
  induction rest generalizing b c with
  | nil =>
      simp only [Room.checkout_and_bills]
      split
      · exact mute
      split
      · exact mute.paid
      · exact mute.later _
  | cons q rest ih =>
      simp only [Room.checkout_and_bills]
      split
      · have told := mute.radio (m := .charge c q (min (b.players q).gold c.winGoldMax)
          (b.players q).gold (b.players q).gameing) rfl
        split
        · exact ih told.charged
        · exact told.later _
      · exact ih mute

theorem ssw_hu {conf : Conf} (p : Chair) : Mute b (b.ssw_hu conf p) := by
  have first := (of_hush (@Hush.refl b)).modify (f := fun pl => { pl with
    fixed_events := fixEvent pl.fixed_events (firstEvent b p) }) p fun _ => rfl
  simp only [Room.ssw_hu]
  split
  · exact of_hush .refl
  split
  · exact of_hush .refl
  · exact of_hush .refl
  split
  · exact first
  · apply checkout_and_bills
    exact first.modify p fun _ => rfl

end Mute

end Hushed

/-- A player may be told: no bill of his is still open, he has lost on the whole, and the
amount before the one he was told last found him without a loss. -/
def Fair (b : Room) (p : Chair) : Prop :=
  goldChange b.openBills p = 0 ∧ 0 ≤ (tally p b.record).total ∧
    ∀ a ∈ (tally p b.record).told.getLast?, a.total = a.since

/-- A report at the exit of one player leaves what is kept of the others. -/
def Apart (b : Room) (p : Chair) : Prop :=
  (b.players p).status = .watching → b.status ≠ .ended →
    ∀ q, q ≠ p → (tally q b.record).out = false →
      |goldChange b.all_bills q| = 2 * (b.players q).goldBrokeLast

/-- Whoever a step tells may be told, and an exit report leaves the others. -/
def Fairly (conf : Conf) (b : Room) (e : Event) : Prop :=
  (∀ b' ∈ b.step conf e, ∀ p,
    (tally p b'.record).told ≠ (tally p b.record).told → Fair b p) ∧
  ∀ p, e = .ssw_exit p → Apart b p

instance (b : Room) (p : Chair) : Decidable (Fair b p) :=
  inferInstanceAs (Decidable (_ ∧ _ ∧ ∀ a ∈ (tally p b.record).told.getLast?, a.total = a.since))

instance (b : Room) (p : Chair) : Decidable (Apart b p) :=
  inferInstanceAs (Decidable (_ → _ → ∀ q, q ≠ p → (tally q b.record).out = false →
    |goldChange b.all_bills q| = 2 * (b.players q).goldBrokeLast))

instance (conf : Conf) (b : Room) (e : Event) : Decidable (Fairly conf b e) :=
  inferInstanceAs (Decidable ((∀ b' ∈ b.step conf e, ∀ p,
    (tally p b'.record).told ≠ (tally p b.record).told → Fair b p) ∧
    ∀ p, e = .ssw_exit p → Apart b p))

/-- What is kept of a player is the amount he was told last, and each was right. -/
def Telling (b : Room) : Prop :=
  ∀ p, (∀ a ∈ (tally p b.record).told, a.amount = a.since) ∧
    ((tally p b.record).out = false → (b.players p).goldBrokeLast = (tally p b.record).lastAmount)

section Telling
variable {conf : Conf} {users : Chair → User} {b b' m : Room} {p q : Chair} {e : Event}

theorem Hush.tally (hush : Hush b b') (p : Chair) :
    tally p b'.record = SevenSparrow.tally p b.record := by
  obtain ⟨ms, record, silent⟩ := hush.record
  rw [record, tally_silent silent]

theorem Telling.tell (telling : Telling b) {amount : Int}
    (record : tally p b'.record = (tally p b.record).tell amount)
    (field : (tally p b.record).out = false → (b'.players p).goldBrokeLast = amount)
    (right : (tally p b.record).out = false → amount = (tally p b.record).since) :
    (∀ a ∈ (tally p b'.record).told, a.amount = a.since) ∧
      ((tally p b'.record).out = false →
        (b'.players p).goldBrokeLast = (tally p b'.record).lastAmount) := by
  obtain ⟨before, kept⟩ := telling p
  rw [record, Tally.tell]
  split
  · rename_i out
    exact ⟨before, fun inside => absurd out (by rw [inside]; exact Bool.false_ne_true)⟩
  · rename_i out
    have inside := Bool.eq_false_iff.mpr out
    refine ⟨fun a mem => ?_, fun _ => ?_⟩
    · cases List.mem_append.mp mem with
      | inl mem => exact before a mem
      | inr mem =>
          rw [List.mem_singleton.mp mem]
          exact right inside
    · simp [Tally.lastAmount, field inside]

end Telling

end HuluLandlord.SevenSparrow
