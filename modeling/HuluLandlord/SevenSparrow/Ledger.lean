import HuluLandlord.SevenSparrow.Take

/-!
The books of a room: its bills, the balances they are about, and what the record says of
both. A settlement in progress holds the bills it has made so far, so the books are kept
with the bills of the settlement at hand. Balances follow the bills only while no answer
of an agent is about nothing, or about more than the player has left.
-/
namespace HuluLandlord.SevenSparrow
open Transition
open Room (goldChange)

/-- What an `add_gold` moves for a player. -/
def Message.moves (p : Chair) : Message → Int
  | .add_gold pid num => if pid = p then num else 0
  | _ => 0

def moved (p : Chair) (record : List Message) : Int := (record.map (Message.moves p)).sum

/-- A balance replayed from the record: a notification brings what it is above the
balance. -/
structure Balance where
  gold : Int
  recharged : Int
  deriving DecidableEq, Repr

def Balance.next (p : Chair) (s : Balance) : Message → Balance
  | .add_gold pid num => if pid = p then { s with gold := s.gold + num } else s
  | .sync_player_gold pid gold =>
      if pid = p then ⟨gold, s.recharged + (gold - s.gold)⟩ else s
  | _ => s

def balance (start : Int) (p : Chair) (record : List Message) : Balance :=
  record.foldl (Balance.next p) ⟨start, 0⟩

def Task.bills : Task → List Bill
  | .charge c _ _ _ => c.bills
  | .pay c => c.bills
  | _ => []

/-- The bills of the settlements that wait for an agent. -/
def Room.openBills (b : Room) : List Bill := b.tasks.flatMap Task.bills

section Sums
variable {p : Chair} {bills bills' : List Bill} {record : List Message} {m : Message}

theorem goldChange_append :
    goldChange (bills ++ bills') p = goldChange bills p + goldChange bills' p := by
  simp [goldChange]

theorem goldChange_perm (same : bills.Perm bills') : goldChange bills p = goldChange bills' p :=
  ((same.filter _).map _).sum_eq

theorem goldChange_singleton (bill : Bill) :
    goldChange [bill] p = if bill.id = p then bill.win_gold else 0 := by
  by_cases here : bill.id = p
  · simp [goldChange, here]
  · simp [goldChange, here]

theorem goldChange_open {tasks : List Task} {t : Task} {i : Nat} (found : tasks[i]? = some t) :
    goldChange (tasks.flatMap Task.bills) p =
      goldChange ((tasks.eraseIdx i).flatMap Task.bills) p + goldChange t.bills p := by
  obtain ⟨inside, rfl⟩ := List.getElem?_eq_some_iff.mp found
  have whole := (List.getElem_cons_eraseIdx_perm inside).flatMap_right Task.bills
  rw [← goldChange_perm whole, List.flatMap_cons, goldChange_append, add_comm]

theorem moved_concat : moved p (record ++ [m]) = moved p record + m.moves p := by
  simp [moved]

theorem balance_concat {start : Int} :
    balance start p (record ++ [m]) = (balance start p record).next p m := by
  simp [balance]

/-- The sum law of the replay. -/
theorem balance_gold (start : Int) (p : Chair) (record : List Message) :
    (balance start p record).gold =
      start + (balance start p record).recharged + moved p record := by
  induction record using List.reverseRecOn with
  | nil => simp [balance, moved]
  | append_singleton record m ih =>
      rw [balance_concat, moved_concat]
      cases m with
      | add_gold pid num =>
          simp only [Balance.next, Message.moves]
          split
          · simp only
            omega
          · omega
      | sync_player_gold pid gold =>
          simp only [Balance.next, Message.moves]
          split
          · simp only
            omega
          · omega
      | _ => simpa [Balance.next, Message.moves] using ih

end Sums

/-- A step that leaves the books as they are. -/
structure SameBooks (b b' : Room) : Prop where
  all_bills : b'.all_bills = b.all_bills
  account : ∀ p, (b'.players p).account = (b.players p).account
  tasks : ∃ ts, b'.tasks = b.tasks ++ ts ∧ ∀ t ∈ ts, t.isCheckout = false
  record : ∃ ms, b'.record = b.record ++ ms ∧ ∀ m ∈ ms, m.isBook = false

/-- How a settlement comes by its limit, and what its bills add up to. -/
structure Checkout.Ok (conf : Conf) (users : Chair → User) (c : Checkout) : Prop where
  limit : c.winGoldMax = min
    (min ((conf.difen : Int) * c.multiple)
      (if conf.capped_num < 0 then (conf.difen : Int) * c.multiple else conf.capped_num))
    (max c.goldStart (users c.winner).goldInit)
  limit_nonneg : 0 ≤ c.winGoldMax
  won : (c.bills.map Bill.win_gold).sum = -c.goldWin
  goldWin : 0 ≤ c.goldWin
  losers : ∀ bill ∈ c.bills, bill.id ≠ c.winner ∧ bill.win_gold ≤ 0

def Task.Ok (conf : Conf) (users : Chair → User) : Task → Prop
  | .charge c q goldLost _ =>
      c.Ok conf users ∧ q ≠ c.winner ∧ 0 ≤ goldLost ∧ (users q).robot = false
  | .pay c => c.Ok conf users
  | _ => True

/-- Nobody pays who is out of the game or has won himself, and nobody more than he has or
than the winner may win; and the bills of a win add up to nothing. -/
def Message.Ok (conf : Conf) (users : Chair → User) : Message → Prop
  | .charge c q goldLost gold gameing =>
      q ≠ c.winner ∧ gameing = true ∧ 0 ≤ goldLost ∧ goldLost ≤ gold ∧
        goldLost ≤ (conf.difen : Int) * c.multiple ∧
        (0 ≤ conf.capped_num → goldLost ≤ conf.capped_num) ∧
        goldLost ≤ max c.goldStart (users c.winner).goldInit
  | .hu pid bills =>
      (bills.map Bill.win_gold).sum = 0 ∧ (∀ bill ∈ bills, bill.id ≠ pid → bill.win_gold ≤ 0) ∧
        ∀ bill ∈ bills, bill.id = pid → 0 ≤ bill.win_gold
  | _ => True

/-- The books of a room in every run; `extra` are the bills of a settlement at hand. -/
structure Books (conf : Conf) (users : Chair → User) (b : Room) (extra : List Bill) : Prop where
  user : ∀ p, (b.players p).goldInit = (users p).goldInit ∧
    (b.players p).robot = (users p).robot
  nonneg : ∀ p, 0 ≤ (b.players p).gold
  moved : ∀ p, moved p b.record =
    goldChange b.all_bills p + goldChange b.openBills p + goldChange extra p
  running : ∀ t ∈ b.tasks, t.Ok conf users
  recorded : ∀ m ∈ b.record, m.Ok conf users

section Same
variable {conf : Conf} {users : Chair → User} {a b b' : Room} {p q : Chair}
variable {extra : List Bill} {f : Player → Player}

theorem Quiet.books (quiet : Quiet b b') : SameBooks b b' :=
  ⟨quiet.all_bills, quiet.account, quiet.tasks, quiet.record⟩

theorem SameBooks.refl : SameBooks b b := Quiet.refl.books

theorem SameBooks.trans (first : SameBooks a b) (second : SameBooks b b') : SameBooks a b' where
  all_bills := second.all_bills.trans first.all_bills
  account := fun p => (second.account p).trans (first.account p)
  tasks := by
    obtain ⟨ts, before, plain⟩ := first.tasks
    obtain ⟨us, after, plain'⟩ := second.tasks
    refine ⟨ts ++ us, by rw [after, before, List.append_assoc], fun t mem => ?_⟩
    exact (List.mem_append.mp mem).elim (plain t) (plain' t)
  record := by
    obtain ⟨ms, before, plain⟩ := first.record
    obtain ⟨ns, after, plain'⟩ := second.record
    refine ⟨ms ++ ns, by rw [after, before, List.append_assoc], fun m mem => ?_⟩
    exact (List.mem_append.mp mem).elim (plain m) (plain' m)

theorem SameBooks.modify (p : Chair) (kept : ∀ pl, (f pl).account = pl.account) :
    SameBooks b (b.modify p f) := by
  refine ⟨rfl, fun q => ?_, nothing_added _, nothing_added _⟩
  by_cases here : q = p
  · subst here
    simp only [Room.modify, Function.update_self]
    exact kept _
  · simp only [Room.modify, Function.update_of_ne here]

theorem bills_plain {ts : List Task} (plain : ∀ t ∈ ts, t.isCheckout = false) :
    ts.flatMap Task.bills = [] := by
  rw [List.flatMap_eq_nil_iff]
  intro t mem
  cases t with
  | charge c q goldLost rest => cases plain _ mem
  | pay c => cases plain _ mem
  | _ => rfl

theorem moved_plain {ms : List Message} (plain : ∀ m ∈ ms, m.isBook = false)
    (record : List Message) : moved p (record ++ ms) = moved p record := by
  have none : (ms.map (Message.moves p)).sum = 0 := by
    refine List.sum_eq_zero fun n mem => ?_
    obtain ⟨m, member, rfl⟩ := List.mem_map.mp mem
    cases m with
    | add_gold pid num => cases plain _ member
    | _ => rfl
  rw [moved, List.map_append, List.sum_append, none, add_zero, moved]

theorem balance_plain {ms : List Message} {start : Int} (plain : ∀ m ∈ ms, m.isBook = false)
    (record : List Message) : balance start p (record ++ ms) = balance start p record := by
  induction ms using List.reverseRecOn with
  | nil => rw [List.append_nil]
  | append_singleton ms m ih =>
      have last := plain m (List.mem_append_right _ (List.mem_singleton_self m))
      rw [← List.append_assoc, balance_concat,
        ih fun m mem => plain m (List.mem_append_left _ mem)]
      cases m with
      | add_gold pid num => cases last
      | sync_player_gold pid gold => cases last
      | _ => rfl

theorem Books.of_same (same : SameBooks b b') (books : Books conf users b extra) :
    Books conf users b' extra := by
  obtain ⟨ts, tasks, plainTasks⟩ := same.tasks
  obtain ⟨ms, record, plainRecord⟩ := same.record
  refine ⟨fun p => ?_, fun p => ?_, fun p => ?_, fun t mem => ?_, fun m mem => ?_⟩
  · have kept := same.account p
    simp only [Player.account, Prod.mk.injEq] at kept
    rw [kept.2.1, kept.2.2]
    exact books.user p
  · have gold := congrArg Prod.fst (same.account p)
    simp only [Player.account] at gold
    rw [gold]
    exact books.nonneg p
  · have opened : b'.openBills = b.openBills := by
      rw [Room.openBills, tasks, List.flatMap_append, bills_plain plainTasks, List.append_nil,
        Room.openBills]
    rw [record, moved_plain plainRecord, books.moved p, same.all_bills, opened]
  · rw [tasks] at mem
    cases List.mem_append.mp mem with
    | inl mem => exact books.running t mem
    | inr mem =>
        cases t with
        | charge c q goldLost rest => cases plainTasks _ mem
        | pay c => cases plainTasks _ mem
        | _ => trivial
  · rw [record] at mem
    cases List.mem_append.mp mem with
    | inl mem => exact books.recorded m mem
    | inr mem =>
        cases m with
        | hu pid bills => cases plainRecord _ mem
        | charge c q goldLost gold gameing => cases plainRecord _ mem
        | _ => trivial

theorem sameBooks_take (p : Chair) (from_pool : Bool) (card : Option Ddz.Card) :
    SameBooks b (b.ssw_takecard p from_pool card).1 := by
  have kept : SameBooks b (b.takeCard card).1 := by
    cases card with
    | none =>
        simp only [Room.takeCard]
        split
        · exact ⟨rfl, fun _ => rfl, nothing_added _, nothing_added _⟩
        · exact ⟨rfl, fun _ => rfl, nothing_added _, nothing_added _⟩
    | some card => exact ⟨rfl, fun _ => rfl, nothing_added _, nothing_added _⟩
  simp only [Room.ssw_takecard]
  split
  · exact .refl
  split
  · exact .refl
  split
  · rename_i done
    rwa [done] at kept
  · rename_i done
    rwa [done] at kept
  · rename_i after card flowers done
    rw [done] at kept
    have given := @SameBooks.modify after (fun pl => { pl with
      status := .waiting
      cards := pl.cards ++ card.toList
      flowers := pl.flowers ++ flowers
      round := pl.round + 1
      from_pool := from_pool }) p fun _ => rfl
    exact (kept.trans given).trans ((Quiet.refl.radio rfl).later rfl).books

theorem sameBooks_play (p : Chair) (card : Option Ddz.Card) :
    SameBooks b (b.ssw_playcard p card) := by
  simp only [Room.ssw_playcard]
  split
  · exact .refl
  split
  · exact .refl
  split
  · exact .refl
  split
  · exact .refl
  · rename_i card _ _ _
    have played := @SameBooks.modify b (fun pl => { pl with
      cards := pl.cards.erase card, status := .waiting }) p fun _ => rfl
    have put : ∀ b : Room, SameBooks b (b.on_player_playcard card) := by
      intro b
      simp only [Room.on_player_playcard]
      split
      · exact ⟨rfl, fun _ => rfl, nothing_added _, nothing_added _⟩
      · exact ⟨rfl, fun _ => rfl, nothing_added _, nothing_added _⟩
    exact (played.trans (put _)).trans ((Quiet.refl.radio rfl).later rfl).books

end Same

section Settlement
variable {conf : Conf} {users : Chair → User} {b b' : Room} {p q : Chair} {c : Checkout}
variable {extra : List Bill} {goldLost : Int} {rest : List Chair} {bill : Bill}

/-- One `add_gold`, and its bill. -/
theorem Books.add_gold (books : Books conf users b extra) {gold : Int} (enough : 0 ≤ gold) :
    Books conf users ((b.radio (.add_gold bill.id bill.win_gold)).setGold bill.id gold)
      (extra ++ [bill]) := by
  refine ⟨fun p => ?_, fun p => ?_, fun p => ?_, books.running, fun m mem => ?_⟩
  · by_cases here : p = bill.id
    · subst here
      simp only [Room.setGold, Room.modify, Function.update_self]
      exact books.user _
    · simp only [Room.setGold, Room.modify, Function.update_of_ne here]
      exact books.user p
  · by_cases here : p = bill.id
    · subst here
      simp only [Room.setGold, Room.modify, Function.update_self]
      exact enough
    · simp only [Room.setGold, Room.modify, Function.update_of_ne here]
      exact books.nonneg p
  · have before := books.moved p
    have entry : SevenSparrow.moved p (b.record ++ [.add_gold bill.id bill.win_gold]) =
        SevenSparrow.moved p b.record + if bill.id = p then bill.win_gold else 0 :=
      moved_concat
    rw [goldChange_append, goldChange_singleton]
    simp only [Room.setGold, Room.modify, Room.radio, entry]
    simp only [Room.openBills] at before ⊢
    omega
  · cases List.mem_append.mp mem with
    | inl mem => exact books.recorded m mem
    | inr mem =>
        rw [List.mem_singleton.mp mem]
        trivial

theorem charged_ok (books : Books conf users b c.bills) (ok : c.Ok conf users)
    (other : q ≠ c.winner) (lost : 0 ≤ goldLost)
    (covered : (b.players q).robot = true → goldLost ≤ (b.players q).gold) :
    Books conf users (b.charged c q goldLost).1 (b.charged c q goldLost).2.bills ∧
      (b.charged c q goldLost).2.Ok conf users := by
  have left : 0 ≤ (b.players q).removed goldLost := by
    have owned := books.nonneg q
    simp only [Player.removed]
    split
    · rename_i robot
      have enough := covered robot
      omega
    split
    · exact le_refl 0
    · omega
  have billed := fun bill => @Books.add_gold conf users b c.bills bill books
  constructor
  · have charged := @billed ⟨q, -goldLost, (b.players q).removed goldLost, c.cardType, c.multiple⟩
      _ left
    have broke := charged.of_same (@SameBooks.modify _ (fun pl => { pl with
      count_bankrupt := pl.count_bankrupt + 1 }) q fun _ => rfl)
    have forked := fun {b : Room} {extra : List Bill} (books : Books conf users b extra) =>
      books.of_same (Quiet.refl.later (t := .please_recharge q) rfl).books
    have gold : ((b.radio (.add_gold q (-goldLost))).setGold q
        ((b.players q).removed goldLost)).players q =
        { b.players q with gold := (b.players q).removed goldLost } := by
      simp [Room.setGold, Room.modify, Room.radio]
    have same : ((b.radio (.add_gold q (-goldLost))).players q) = b.players q := rfl
    simp only [Room.charged, same, gold]
    split
    · split
      · exact forked broke
      · exact forked charged
    · split
      · exact broke
      · exact charged
  · have won := ok.won
    refine ⟨ok.limit, ok.limit_nonneg, ?_, ?_, ?_⟩
    · simp only [Room.charged, List.map_append, List.sum_append, won]
      simp
      omega
    · exact add_nonneg ok.goldWin lost
    · intro bill mem
      cases List.mem_append.mp mem with
      | inl mem => exact ok.losers bill mem
      | inr mem =>
          rw [List.mem_singleton.mp mem]
          exact ⟨other, neg_nonpos.mpr lost⟩

theorem paid_ok (books : Books conf users b c.bills) (ok : c.Ok conf users) :
    Books conf users (b.paid c) [] := by
  have right : 0 ≤ (b.players c.winner).added c.goldWin := by
    have owned := books.nonneg c.winner
    have won := ok.goldWin
    simp only [Player.added, Player.removed]
    split
    · omega
    split
    · omega
    split
    · exact le_refl 0
    · omega
  have given := @Books.add_gold conf users b c.bills
    ⟨c.winner, c.goldWin, (b.players c.winner).added c.goldWin, c.cardType, c.multiple⟩ books _
    right
  have gold : ((b.radio (.add_gold c.winner c.goldWin)).setGold c.winner
      ((b.players c.winner).added c.goldWin)).players c.winner =
      { b.players c.winner with gold := (b.players c.winner).added c.goldWin } := by
    simp [Room.setGold, Room.modify, Room.radio]
  have same : ((b.radio (.add_gold c.winner c.goldWin)).players c.winner) =
    b.players c.winner := rfl
  have told : Message.Ok conf users (.hu c.winner (c.bills ++
      [⟨c.winner, c.goldWin, (b.players c.winner).added c.goldWin, c.cardType, c.multiple⟩])) := by
    refine ⟨?_, fun bill mem other => ?_, fun bill mem here => ?_⟩
    · rw [List.map_append, List.sum_append, ok.won]
      simp
    · cases List.mem_append.mp mem with
      | inl mem => exact (ok.losers bill mem).2
      | inr mem => exact absurd (List.mem_singleton.mp mem ▸ rfl) other
    · cases List.mem_append.mp mem with
      | inl mem => exact absurd here (ok.losers bill mem).1
      | inr mem =>
          rw [List.mem_singleton.mp mem]
          exact ok.goldWin
  have booked : ∀ {b : Room} {bills : List Bill}, Books conf users b bills →
      Message.Ok conf users (.hu c.winner bills) →
      Books conf users ({ b with
        last_hu_player := some c.winner
        all_bills := b.all_bills ++ bills }.radio (.hu c.winner bills)) [] := by
    intro b bills books told
    refine ⟨books.user, books.nonneg, fun p => ?_, books.running, fun m mem => ?_⟩
    · have entry : SevenSparrow.moved p (b.record ++ [.hu c.winner bills]) =
          SevenSparrow.moved p b.record + 0 := moved_concat
      have before := books.moved p
      have none : goldChange [] p = 0 := rfl
      simp only [Room.radio, entry, goldChange_append, none]
      simp only [Room.openBills] at before ⊢
      omega
    · cases List.mem_append.mp mem with
      | inl mem => exact books.recorded m mem
      | inr mem => exact List.mem_singleton.mp mem ▸ told
  have done := booked given told
  simp only [Room.paid, same, gold]
  split
  · exact done
  · exact done.of_same (Quiet.refl.later rfl).books

/-- A charge is within every limit when it is made. -/
theorem charge_told (books : Books conf users b extra) (ok : c.Ok conf users)
    (other : q ≠ c.winner) (gaming : (b.players q).gameing = true) :
    Books conf users (b.radio (.charge c q (min (b.players q).gold c.winGoldMax)
      (b.players q).gold (b.players q).gameing)) extra := by
  refine ⟨books.user, books.nonneg, fun p => ?_, books.running, fun m mem => ?_⟩
  · have entry := @moved_concat p b.record (.charge c q
      (min (b.players q).gold c.winGoldMax) (b.players q).gold (b.players q).gameing)
    simp only [Room.radio, entry, Message.moves, add_zero]
    exact books.moved p
  · cases List.mem_append.mp mem with
    | inl mem => exact books.recorded m mem
    | inr mem =>
        rw [List.mem_singleton.mp mem]
        have limit := ok.limit
        have within := min_le_right (b.players q).gold c.winGoldMax
        refine ⟨other, gaming, le_min (books.nonneg q) ok.limit_nonneg, min_le_left _ _, ?_,
          fun capped => ?_, ?_⟩
        · omega
        · rw [if_neg (not_lt.mpr capped)] at limit
          omega
        · omega

/-- The rest of a settlement keeps the books, whoever is left to be charged. -/
theorem checkout_ok (books : Books conf users b c.bills) (ok : c.Ok conf users) :
    Books conf users (b.checkout_and_bills c rest) [] := by
  have waiting : ∀ {b : Room} {t : Task}, Books conf users b t.bills → t.Ok conf users →
      Books conf users (b.later t) [] := by
    intro b t books ok
    refine ⟨books.user, books.nonneg, fun p => ?_, fun u mem => ?_, books.recorded⟩
    · have before := books.moved p
      have none : goldChange [] p = 0 := rfl
      simp only [Room.openBills, Room.later, List.flatMap_append, goldChange_append, none,
        List.flatMap_singleton] at before ⊢
      omega
    · cases List.mem_append.mp mem with
      | inl mem => exact books.running u mem
      | inr mem => exact List.mem_singleton.mp mem ▸ ok
  induction rest generalizing b c with
  | nil =>
      have owned := books.nonneg c.winner
      have won := ok.goldWin
      simp only [Room.checkout_and_bills]
      split
      · omega
      split
      · exact paid_ok books ok
      · exact waiting books ok
  | cons q rest ih =>
      simp only [Room.checkout_and_bills]
      split
      · rename_i gaming
        have owned := books.nonneg q
        have lost : 0 ≤ min (b.players q).gold c.winGoldMax := le_min owned ok.limit_nonneg
        have told := charge_told books ok gaming.1 gaming.2
        split
        · have charged := charged_ok told ok gaming.1 lost fun _ => min_le_left _ _
          exact ih charged.1 charged.2
        · rename_i user
          refine waiting told ⟨ok, gaming.1, lost, ?_⟩
          rw [← (books.user q).2]
          exact Bool.eq_false_iff.mpr user
      · exact ih books ok

end Settlement

section Steps
variable {conf : Conf} {users : Chair → User} {b b' : Room} {e : Event}

/-- An invariant of the books over one event: wins, notifications and answers of agents
matter; any other task that is done leaves no bills behind. -/
theorem step_books (Inv : Room → Prop)
    (same : ∀ b b', SameBooks b b' → Inv b → Inv b')
    (hu : ∀ b p, Inv b → Inv (b.ssw_hu conf p))
    (sync : ∀ b p (num : Nat), Inv b → Inv ((b.setGold p num).radio (.sync_player_gold p num)))
    (drop : ∀ i t, b.tasks[i]? = some t → t.isCheckout = false → Inv b →
      Inv { b with tasks := b.tasks.eraseIdx i })
    (answered : ∀ i t, e = .resume i → b.tasks[i]? = some t → t.isCheckout = true → Inv b →
      Inv (({ b with tasks := b.tasks.eraseIdx i } : Room).runTask t))
    (inv : Inv b) (moved : b.step conf e = some b') : Inv b' := by
  have quiet : ∀ b b', Quiet b b' → Inv b → Inv b' := fun b b' quiet => same b b' quiet.books
  have action : ∀ b p, Inv b → Inv (b.trusteeshipAction conf p) := by
    intro b p inv
    simp only [Room.trusteeshipAction]
    split
    · simp only [Room.auto_take]
      split
      · exact same b _ (sameBooks_take p false _) inv
      · exact same b _ (sameBooks_take p true none) inv
    · simp only [Room.auto_play]
      split
      · exact inv
      · exact hu b p inv
      · exact same b _ (sameBooks_play p _) inv
    · exact quiet b _ (Quiet.refl.ssw_giveup p) inv
    · exact inv
  cases step_cases moved with
  | inl resumed =>
      obtain ⟨i, t, here, found, rfl⟩ := resumed
      by_cases checkout : t.isCheckout = true
      · exact answered i t here found checkout inv
      · have left := drop i t found (Bool.eq_false_iff.mpr checkout) inv
        cases t with
        | realstart => exact quiet _ _ Quiet.refl.realstart left
        | please_playcard p => exact quiet _ _ (Quiet.refl.taken p) left
        | next_one_take p => exact quiet _ _ (Quiet.refl.next_one_take _) left
        | charge c q goldLost rest => exact absurd rfl checkout
        | pay c => exact absurd rfl checkout
        | please_recharge p => exact quiet _ _ (Quiet.refl.please_recharge p) left
        | ssw_giveup p => exact quiet _ _ (Quiet.refl.ssw_giveup p) left
        | gameover => exact quiet _ _ Quiet.refl.gameover left
  | inr answer =>
      obtain ⟨_, rfl⟩ := answer
      cases e with
      | ssw_takecard p from_pool card => exact same b _ (sameBooks_take p from_pool card) inv
      | ssw_playcard p card => exact same b _ (sameBooks_play p card) inv
      | ssw_hu p => exact hu b p inv
      | ssw_giveup p => exact quiet b _ (Quiet.refl.ssw_giveup p) inv
      | ssw_not_giveup p => exact quiet b _ (Quiet.refl.ssw_not_giveup p) inv
      | ssw_exit p => exact quiet b _ (Quiet.refl.ssw_exit p) inv
      | trusteeship p =>
          simp only [Room.answer, Room.trusteeship]
          split
          · exact inv
          · exact action _ p (quiet b _ (Quiet.refl.setTrusteeship p true) inv)
      | cancel_trusteeship p => exact quiet b _ (Quiet.refl.setTrusteeship p false) inv
      | trusteeshipAction p =>
          simp only [Room.answer]
          split
          · exact action b p inv
          · exact inv
      | SyncRoomData p num =>
          have told := sync b p num inv
          simp only [Room.answer, Room.SyncRoomData]
          split
          · exact quiet _ _ (Quiet.refl.ssw_not_giveup p) told
          · exact told
      | player_order p => exact quiet b _ (Quiet.refl.player_order p) inv
      | resume i => exact inv

theorem sameBooks_marked (b : Room) (p : Chair) : SameBooks b (b.marked p) :=
  SameBooks.modify p fun _ => rfl

theorem sameBooks_laid (b : Room) (p : Chair) : SameBooks b (b.laid p) :=
  (sameBooks_marked b p).trans (SameBooks.modify (f := fun pl => { pl with
    cards := pl.cards.dropLast
    hu_cards := pl.hu_cards ++ pl.cards.getLast?.toList
    status := .waiting }) p fun _ => rfl)

/-- A win is paid out under the limit of its moment. -/
theorem hu_ok {a : Room} {c : Checkout} {p : Chair} (books : Books conf users a [])
    (starts : c.Starts conf a p) : c.Ok conf users := by
  have owned := books.nonneg p
  refine ⟨?_, ?_, by rw [starts.bills, starts.goldWin]; rfl, starts.goldWin.ge, ?_⟩
  · rw [starts.limit, starts.winner, starts.goldStart, ← (books.user p).1]
    rfl
  · rw [starts.limit]
    refine le_min (le_min ?_ ?_) (le_max_of_le_left owned)
    · positivity
    · split
      · positivity
      · rename_i capped
        exact not_lt.mp capped
  · intro bill mem
    rw [starts.bills] at mem
    exact absurd mem List.not_mem_nil

theorem books_hu (books : Books conf users b []) (p : Chair) :
    Books conf users (b.ssw_hu conf p) [] := by
  obtain same | same | ⟨c, _, _, starts, done⟩ := @ssw_hu_cases conf b p
  · rwa [same]
  · rw [same]
    exact books.of_same (sameBooks_marked b p)
  · have before := books.of_same (sameBooks_laid b p)
    rw [done]
    refine checkout_ok ?_ (hu_ok before starts)
    rwa [starts.bills]

theorem books_sync (books : Books conf users b []) (p : Chair) (num : Nat) :
    Books conf users ((b.setGold p num).radio (.sync_player_gold p num)) [] := by
  refine ⟨fun q => ?_, fun q => ?_, fun q => ?_, books.running, fun m mem => ?_⟩
  · by_cases here : q = p
    · subst here
      simp only [Room.setGold, Room.modify, Room.radio, Function.update_self]
      exact books.user q
    · simp only [Room.setGold, Room.modify, Room.radio, Function.update_of_ne here]
      exact books.user q
  · by_cases here : q = p
    · subst here
      simp [Room.setGold, Room.modify, Room.radio]
    · simp only [Room.setGold, Room.modify, Room.radio, Function.update_of_ne here]
      exact books.nonneg q
  · have entry := @moved_concat q b.record (.sync_player_gold p num)
    simp only [Room.setGold, Room.modify, Room.radio, entry, Message.moves, add_zero]
    exact books.moved q
  · cases List.mem_append.mp mem with
    | inl mem => exact books.recorded m mem
    | inr mem =>
        rw [List.mem_singleton.mp mem]
        trivial

theorem eraseIdx_task {i : Nat} {t : Task} (found : b.tasks[i]? = some t)
    (books : Books conf users b []) :
    Books conf users { b with tasks := b.tasks.eraseIdx i } t.bills := by
  refine ⟨books.user, books.nonneg, fun p => ?_,
    fun t mem => books.running t (List.mem_of_mem_eraseIdx mem), books.recorded⟩
  have before := books.moved p
  have whole := @goldChange_open p b.tasks t i found
  have none : goldChange [] p = 0 := rfl
  simp only [Room.openBills] at before ⊢
  omega

theorem books_answered {i : Nat} {t : Task} (found : b.tasks[i]? = some t)
    (checkout : t.isCheckout = true) (books : Books conf users b []) :
    Books conf users (({ b with tasks := b.tasks.eraseIdx i } : Room).runTask t) [] := by
  have left := eraseIdx_task found books
  have ok := books.running t (List.mem_of_getElem? found)
  cases t with
  | charge c q goldLost rest =>
      obtain ⟨ok, other, lost, user⟩ := ok
      have charged := charged_ok left ok other lost fun robot => by
        rw [(left.user q).2, user] at robot
        cases robot
      exact checkout_ok charged.1 charged.2
  | pay c => exact paid_ok left ok
  | _ => cases checkout

theorem books_drop {i : Nat} {t : Task} (found : b.tasks[i]? = some t)
    (plain : t.isCheckout = false) (books : Books conf users b []) :
    Books conf users { b with tasks := b.tasks.eraseIdx i } [] := by
  have left := eraseIdx_task found books
  have none : t.bills = [] := by simpa using @bills_plain [t] (by simpa using plain)
  rwa [none] at left

theorem books_step (books : Books conf users b []) (moved : b.step conf e = some b') :
    Books conf users b' [] :=
  step_books (fun b => Books conf users b []) (fun _ _ same books => books.of_same same)
    (fun _ p books => books_hu books p) (fun _ p num books => books_sync books p num)
    (fun _ _ found plain books => books_drop found plain books)
    (fun _ _ _ found checkout books => books_answered found checkout books) books moved

theorem run_books {ok : Room → Event → Prop} {hands : Chair → List Ddz.Card}
    {cards : List Ddz.Card} {first_one : Chair} {es : List Event}
    (run : Run (Room.step conf) ok (.gamestart users hands cards first_one) es b) :
    Books conf users b [] := by
  apply run.invariant fun b => Books conf users b []
  · refine ⟨fun _ => ⟨rfl, rfl⟩, fun p => Int.natCast_nonneg _, fun _ => rfl, fun t mem => ?_,
      fun m mem => absurd mem List.not_mem_nil⟩
    rw [List.mem_singleton.mp mem]
    trivial
  · exact fun b e b' books _ moved => books_step books moved

end Steps

section Balances
variable {conf : Conf} {users : Chair → User} {b b' : Room} {e : Event} {p q : Chair}
variable {c : Checkout} {goldLost : Int} {rest : List Chair}

/-- The balances are what the record makes them. -/
def Balanced (users : Chair → User) (b : Room) : Prop :=
  ∀ p, (b.players p).gold = (balance (users p).gold p b.record).gold

/-- The answer of an agent is about something, unless there is nothing it could be about,
and about no more than the player has left. -/
def Task.Covered (b : Room) : Task → Prop
  | .charge _ q goldLost _ =>
      goldLost ≤ (b.players q).gold ∧ (goldLost = 0 → (b.players q).gold = 0)
  | .pay c => c.goldWin = 0 → (b.players c.winner).gold = 0
  | _ => True

/-- Every agent's answer in a run is covered. -/
def Answered (b : Room) (e : Event) : Prop :=
  ∀ i ∈ e.resumed, ∀ t ∈ b.tasks[i]?, t.Covered b

instance (b : Room) (t : Task) : Decidable (t.Covered b) :=
  match t with
  | .charge _ _ _ _ => inferInstanceAs (Decidable (_ ∧ _))
  | .pay _ => inferInstanceAs (Decidable (_ → _))
  | .realstart | .please_playcard _ | .next_one_take _ | .please_recharge _ | .ssw_giveup _
  | .gameover => .isTrue trivial

instance (b : Room) (e : Event) : Decidable (Answered b e) :=
  inferInstanceAs (Decidable (∀ i ∈ e.resumed, ∀ t ∈ b.tasks[i]?, t.Covered b))

theorem Balanced.of_same (same : SameBooks b b') (balanced : Balanced users b) :
    Balanced users b' := by
  obtain ⟨ms, record, plain⟩ := same.record
  intro p
  have gold := congrArg Prod.fst (same.account p)
  simp only [Player.account] at gold
  rw [gold, record, balance_plain plain]
  exact balanced p

theorem Balanced.add_gold (balanced : Balanced users b) {gold num : Int}
    (exact_change : gold = (b.players q).gold + num) :
    Balanced users ((b.radio (.add_gold q num)).setGold q gold) := by
  intro p
  have entry := @balance_concat p b.record (.add_gold q num) (users p).gold
  simp only [Room.setGold, Room.modify, Room.radio, entry, Balance.next]
  by_cases here : p = q
  · subst here
    simp only [Function.update_self, if_true]
    rw [exact_change, balanced p]
  · simp only [Function.update_of_ne here, if_neg (Ne.symm here)]
    exact balanced p

theorem charged_balanced (balanced : Balanced users b)
    (covered : (b.players q).robot = true ∨
      goldLost ≤ (b.players q).gold ∧ (goldLost = 0 → (b.players q).gold = 0)) :
    Balanced users (b.charged c q goldLost).1 := by
  have left : (b.players q).removed goldLost = (b.players q).gold + -goldLost := by
    simp only [Player.removed]
    cases covered with
    | inl robot =>
        rw [if_pos robot]
        omega
    | inr covered =>
        split
        · omega
        split
        · rename_i nothing
          rw [nothing, covered.2 nothing]
          rfl
        · have enough := covered.1
          omega
  have taken := balanced.add_gold left
  have broke := taken.of_same (@SameBooks.modify _ (fun pl => { pl with
    count_bankrupt := pl.count_bankrupt + 1 }) q fun _ => rfl)
  have forked := fun {b : Room} (balanced : Balanced users b) =>
    balanced.of_same (Quiet.refl.later (t := .please_recharge q) rfl).books
  have gold : ((b.radio (.add_gold q (-goldLost))).setGold q
      ((b.players q).removed goldLost)).players q =
      { b.players q with gold := (b.players q).removed goldLost } := by
    simp [Room.setGold, Room.modify, Room.radio]
  have same : ((b.radio (.add_gold q (-goldLost))).players q) = b.players q := rfl
  simp only [Room.charged, same, gold]
  split
  · split
    · exact forked broke
    · exact forked taken
  · split
    · exact broke
    · exact taken

theorem paid_balanced (balanced : Balanced users b) (won : 0 ≤ c.goldWin)
    (covered : (b.players c.winner).robot = true ∨
      (c.goldWin = 0 → (b.players c.winner).gold = 0)) : Balanced users (b.paid c) := by
  have right : (b.players c.winner).added c.goldWin =
      (b.players c.winner).gold + c.goldWin := by
    simp only [Player.added, Player.removed]
    cases covered with
    | inl robot => rw [if_pos robot]
    | inr covered =>
        split
        · rfl
        split
        · rfl
        split
        · rename_i nothing
          have zero : c.goldWin = 0 := by omega
          rw [zero, covered zero]
          rfl
        · omega
  have given := balanced.add_gold right
  have booked : ∀ {b : Room} {bills : List Bill}, Balanced users b →
      Balanced users ({ b with
        last_hu_player := some c.winner
        all_bills := b.all_bills ++ bills }.radio (.hu c.winner bills)) := by
    intro b bills balanced p
    have entry := @balance_concat p b.record (.hu c.winner bills) (users p).gold
    simp only [Room.radio, entry, Balance.next]
    exact balanced p
  have same : ((b.radio (.add_gold c.winner c.goldWin)).players c.winner) =
    b.players c.winner := rfl
  simp only [Room.paid, same]
  split
  · exact booked given
  · exact (booked given).of_same (Quiet.refl.later rfl).books

/-- Robots are charged and paid at once, so until the next agent is called the balances
follow. -/
theorem checkout_balanced (balanced : Balanced users b) (books : Books conf users b c.bills)
    (ok : c.Ok conf users) : Balanced users (b.checkout_and_bills c rest) := by
  have plain : ∀ {b : Room} (t : Task), Balanced users b → Balanced users (b.later t) :=
    fun _ balanced => balanced
  induction rest generalizing b c with
  | nil =>
      simp only [Room.checkout_and_bills]
      split
      · exact balanced
      split
      · rename_i robot
        exact paid_balanced balanced ok.goldWin (.inl robot)
      · exact plain _ balanced
  | cons q rest ih =>
      simp only [Room.checkout_and_bills]
      split
      · rename_i gaming
        have lost : 0 ≤ min (b.players q).gold c.winGoldMax :=
          le_min (books.nonneg q) ok.limit_nonneg
        have told := charge_told books ok gaming.1 gaming.2
        have followed : Balanced users (b.radio (.charge c q
            (min (b.players q).gold c.winGoldMax) (b.players q).gold
            (b.players q).gameing)) := by
          intro p
          have entry := @balance_concat p b.record (.charge c q
            (min (b.players q).gold c.winGoldMax) (b.players q).gold
            (b.players q).gameing) (users p).gold
          simp only [Room.radio, entry, Balance.next]
          exact balanced p
        split
        · rename_i robot
          have charged := charged_ok told ok gaming.1 lost fun _ => min_le_left _ _
          exact ih (charged_balanced followed (.inl robot)) charged.1 charged.2
        · exact plain _ followed
      · exact ih balanced books ok

theorem balanced_hu (books : Books conf users b []) (balanced : Balanced users b) (p : Chair) :
    Balanced users (b.ssw_hu conf p) := by
  obtain same | same | ⟨c, _, _, starts, done⟩ := @ssw_hu_cases conf b p
  · rwa [same]
  · rw [same]
    exact balanced.of_same (sameBooks_marked b p)
  · have before := books.of_same (sameBooks_laid b p)
    rw [done]
    refine checkout_balanced (balanced.of_same (sameBooks_laid b p)) ?_ (hu_ok before starts)
    rwa [starts.bills]

theorem balanced_sync (balanced : Balanced users b) (p : Chair) (num : Nat) :
    Balanced users ((b.setGold p num).radio (.sync_player_gold p num)) := by
  intro q
  have entry := @balance_concat q b.record (.sync_player_gold p num) (users q).gold
  simp only [Room.setGold, Room.modify, Room.radio, entry, Balance.next]
  by_cases here : q = p
  · subst here
    simp only [Function.update_self, if_true]
  · simp only [Function.update_of_ne here, if_neg (Ne.symm here)]
    exact balanced q

/-- Answers that are covered keep the balances in step with the record. -/
theorem balanced_step (books : Books conf users b []) (balanced : Balanced users b)
    (guard : Answered b e) (moved : b.step conf e = some b') : Balanced users b' := by
  suffices both : Books conf users b' [] ∧ Balanced users b' from both.2
  refine step_books (fun b => Books conf users b [] ∧ Balanced users b)
    (fun _ _ same both => ⟨both.1.of_same same, both.2.of_same same⟩)
    (fun b p both => ⟨books_hu both.1 p, balanced_hu both.1 both.2 p⟩)
    (fun b p num both => ⟨books_sync both.1 p num, balanced_sync both.2 p num⟩)
    (fun i t found plain both => ⟨books_drop found plain both.1, both.2⟩)
    (fun i t here found checkout both => ⟨books_answered found checkout both.1, ?_⟩)
    ⟨books, balanced⟩ moved
  have covered := guard i (by rw [here]; rfl) t found
  have left := eraseIdx_task found both.1
  have ok := both.1.running t (List.mem_of_getElem? found)
  cases t with
  | charge c q goldLost rest =>
      obtain ⟨ok, other, lost, user⟩ := ok
      have charged := charged_ok left ok other lost fun robot => by
        rw [(left.user q).2, user] at robot
        cases robot
      have kept : Balanced users { b with tasks := b.tasks.eraseIdx i } := both.2
      exact checkout_balanced (charged_balanced kept (.inr covered)) charged.1 charged.2
  | pay c =>
      have kept : Balanced users { b with tasks := b.tasks.eraseIdx i } := both.2
      exact paid_balanced kept ok.goldWin (.inr covered)
  | _ => cases checkout

/-- What the books of a room come to: who pays whom and how much, and the law of the
sums. -/
structure Accounts (conf : Conf) (users : Chair → User) (b : Room) : Prop where
  recorded : ∀ m ∈ b.record, m.Ok conf users
  nonneg : ∀ p, 0 ≤ (b.players p).gold
  law : ∀ p, (b.players p).gold = (users p).gold +
    (balance (users p).gold p b.record).recharged +
      (goldChange b.all_bills p + goldChange b.openBills p)

/-- In a run whose answers are all covered the books come out right in every room. -/
theorem run_accounts {hands : Chair → List Ddz.Card} {cards : List Ddz.Card}
    {first_one : Chair} {es : List Event}
    (run : Run (Room.step conf) Answered (.gamestart users hands cards first_one) es b) :
    Accounts conf users b := by
  have books := run_books run
  have balanced : Balanced users b := by
    suffices both : Books conf users b [] ∧ Balanced users b from both.2
    apply run.invariant fun b => Books conf users b [] ∧ Balanced users b
    · have start : Run (Room.step conf) Answered (.gamestart users hands cards first_one) [] _ := .refl
      exact ⟨run_books start, fun _ => rfl⟩
    · exact fun _ e _ both guard moved =>
        ⟨books_step both.1 moved, balanced_step both.1 both.2 guard moved⟩
  refine ⟨books.recorded, books.nonneg, fun p => ?_⟩
  have none : goldChange [] p = 0 := rfl
  have replayed := balance_gold (users p).gold p b.record
  rw [balanced p, replayed, books.moved p, none, add_zero]

/-- A rule that lets eight cards of one value win, as the game's does. -/
def eightConf : Conf where
  difen := 1
  capped_num := -1
  multipleInfo := fun _ => 2
  flower := 2
  check_hu := fun cards one =>
    if cards.all fun card => Ddz.V card = Ddz.V one then some (.baxingzha, 18888) else none

/-- The first player holds seven aces, and the eighth is on top of the pool. -/
def acesStart (users : Chair → User) : Room :=
  .gamestart users (fun p => if p = 0 then [0x11, 0x21, 0x31, 0x41, 0x61, 0x71, 0x81] else [])
    [0x12, 0x91, 0x13] 0

/-- A robot wins from a user and two robots. -/
def robotWins : Chair → User := fun p => ⟨50, 50, p ≠ 1⟩

theorem run_accounts_robot :
    ∃ b, Run (Room.step eightConf) Answered (acesStart robotWins)
        [.resume 0, .ssw_takecard 0 true none, .resume 0, .ssw_hu 0, .resume 0] b ∧
      b.all_bills.length = 4 ∧ Accounts eightConf robotWins b := by
  obtain ⟨b, run, four⟩ := run_of_guarded_any (Room.step eightConf) Answered (acesStart robotWins)
    [.resume 0, .ssw_takecard 0 true none, .resume 0, .ssw_hu 0, .resume 0]
    (fun b => b.all_bills.length = 4) (by decide)
  exact ⟨b, run, four, run_accounts run⟩

/-- A user wins from three robots that have nothing left. -/
def userWins : Chair → User := fun p => if p = 0 then ⟨100, 100, false⟩ else ⟨0, 0, true⟩

/-- He is paid nothing, and his balance is then nothing. -/
theorem paid_nothing :
    ¬ ∀ (conf : Conf) (users : Chair → User) (hands : Chair → List Ddz.Card)
      (cards : List Ddz.Card) (first_one : Chair) (es : List Event) (b : Room),
      Run (Room.step conf) anyStep (.gamestart users hands cards first_one) es b →
      Accounts conf users b := by
  intro all
  obtain ⟨b, run, short⟩ := run_of_exec_any (Room.step eightConf) (acesStart userWins)
    [.resume 0, .ssw_takecard 0 true none, .resume 0, .ssw_hu 0, .resume 3]
    (fun b => (b.players 0).gold ≠ (userWins 0).gold +
      (balance (userWins 0).gold 0 b.record).recharged +
        (goldChange b.all_bills 0 + goldChange b.openBills 0)) (by decide)
  exact short ((all _ _ _ _ _ _ _ run).law 0)

end Balances

end HuluLandlord.SevenSparrow
