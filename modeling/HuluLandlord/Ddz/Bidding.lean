import HuluLandlord.Ddz.Hand

/-!
The bidding. `askTable` says who is asked after each series of answers, counted from
the player who is asked first; what the room decides from the players' last actions
and queues agrees with it. The record of a deal then tells who the landlord must be.
-/
namespace HuluLandlord.Ddz
open Transition

/-- A bid as it is broadcast. -/
def Message.bid : Message → Option (Seat × PlayerAction)
  | .roomSyncPlayerAction p type _ => if isBidAction type then some (p, type) else none
  | _ => none

/-- The player a prompt of the bidding goes to. -/
def Message.asked : Message → Option Seat
  | .roomPleasePlayerAction p state _ _ =>
      if state = .callLandlord ∨ state = .robLandlord then some p else none
  | _ => none

def Message.forced : Message → Option Seat
  | .roomSyncPlayerSkill p _ => some p
  | _ => none

def Message.isBid (m : Message) : Bool := m.bid.isSome

def Message.isLandlordSet : Message → Bool
  | .roomLandlordSet .. => true
  | _ => false

/-- Calling and robbing, as against declining. -/
def isClaim (bid : Seat × PlayerAction) : Bool := bid.2 = .callLandlord ∨ bid.2 = .robLandlord

def bidsIn (messages : List Message) : List (Seat × PlayerAction) := messages.filterMap Message.bid
def askedIn (messages : List Message) : List Seat := messages.filterMap Message.asked
def forcedIn (messages : List Message) : List Seat := messages.filterMap Message.forced

/-- Who the landlord must be after these messages of one deal: the player who forced
it, else the last one to call or rob, else the first one asked. -/
def landlordOf (messages : List Message) : Option Seat :=
  match (forcedIn messages).head?, (bidsIn messages).find? isClaim with
  | some p, _ => some p
  | none, some bid => some bid.1
  | none, none => (askedIn messages).getLast?

/-- Who is asked after the answers of a deal (newest first), and in which round. -/
def askTable : List (List Bool × Bool × Seat) :=
  [([], false, 0), ([false], false, 1), ([false, false], false, 2),
    ([true], true, 1), ([false, true], true, 2), ([true, true], true, 2), ([true, false], true, 2),
    ([true, false, true], true, 0), ([false, true, true], true, 0), ([true, true, true], true, 0),
    ([true, true, false], true, 1), ([false, true, true, true], true, 1)]

/-- The bids of a deal whose first asked player is `f`. -/
def bidLog (f : Seat) : List Bool → List (Seat × PlayerAction)
  | [] => []
  | yes :: h => match askTable.lookup h with
      | some (rob, k) => (f + k, bidAction rob yes) :: bidLog f h
      | none => bidLog f h

def lastOf (log : List (Seat × PlayerAction)) (q : Seat) : Option PlayerAction :=
  (log.find? fun bid => bid.1 = q).map Prod.snd

def queueOf (log : List (Seat × PlayerAction)) (q : Seat) : List PlayerAction :=
  ((log.filter fun bid => bid.1 = q).map Prod.snd).reverse

/-- What follows after the answers of a deal. -/
def bidOutcome (f : Seat) (third : Bool) (h : List Bool) : Bid :=
  match askTable.lookup h with
  | some (false, k) => .call (f + k)
  | some (true, k) => .rob (f + k)
  | none => match (bidLog f h).find? isClaim with
      | some bid => .landlord bid.1
      | none => if third then .landlord f else .redeal

theorem mem_askTable {h : List Bool} {entry : Bool × Seat}
    (found : askTable.lookup h = some entry) : (h, entry) ∈ askTable := by
  obtain ⟨front, back, split, _⟩ := List.lookup_eq_some_iff.mp found
  rw [split]
  exact List.mem_append_right front List.mem_cons_self

/-- The decisions of the room agree with the table. -/
theorem askTable_outcome : ∀ entry ∈ askTable, ∀ (f : Seat) (yes third : Bool),
    (if entry.2.1 then (robEnd (lastOf (bidLog f (yes :: entry.1)))
        (queueOf (bidLog f (yes :: entry.1)) (f + entry.2.2)) (f + entry.2.2)
        (bidAction entry.2.1 yes)).2
      else callEnd (lastOf (bidLog f (yes :: entry.1))) (if third then 3 else 0) (f + entry.2.2)) =
      bidOutcome f third (yes :: entry.1) := by
  decide +kernel

theorem askTable_length : ∀ entry ∈ askTable, entry.1.length ≤ 4 := by decide

/-- A redeal follows three refusals. -/
theorem askTable_redeal : ∀ entry ∈ askTable, ∀ (f : Seat) (yes third : Bool),
    bidOutcome f third (yes :: entry.1) = .redeal → third = false ∧ entry.1.length = 2 := by
  decide +kernel

theorem callEnd_third (lastAction : Seat → Option PlayerAction) (n : Nat) (p : Seat) :
    callEnd lastAction n p =
      callEnd lastAction (if decide (3 ≤ n) then 3 else 0) p := by
  by_cases third : 3 ≤ n
  · simp [callEnd, third]
  · simp [callEnd, third]

/-- The answers of the current deal, in the record and on the players. -/
structure Asked (c : Room) (f : Seat) (h : List Bool) : Prop where
  bids : bidsIn (sinceDeal c.sent) = bidLog f h
  first : (askedIn (sinceDeal c.sent)).getLast? = some f
  forced : forcedIn (sinceDeal c.sent) = []
  lastActions : c.lastActions = lastOf (bidLog f h)
  queues : (fun q => (c.players q).actionQueue) = queueOf (bidLog f h)

/-- A deal nobody has been asked about yet. -/
structure Fresh (c : Room) : Prop where
  bids : bidsIn (sinceDeal c.sent) = []
  asked : askedIn (sinceDeal c.sent) = []
  forced : forcedIn (sinceDeal c.sent) = []
  lastActions : c.lastActions = fun _ => none
  queues : (fun q => (c.players q).actionQueue) = fun _ => []

/-- How often the cards were dealt, how many bids were made, `n` of them since the
last deal, and how often a landlord was announced. -/
structure Tally (c : Room) (n sets : Nat) : Prop where
  one_le : 1 ≤ c.dealCardCount
  le_three : c.dealCardCount ≤ 3
  deals : c.sent.countP Message.isDeal = 3 * c.dealCardCount
  bids : c.sent.countP Message.isBid = 3 * (c.dealCardCount - 1) + n
  sets : c.sent.countP Message.isLandlordSet = sets

/-- The landlord is the one the record names, and nobody having bid it was the third
deal. -/
structure Settled (c : Room) (l : Seat) (sets : Nat) : Prop where
  landlord : landlordOf (sinceDeal c.sent) = some l
  unclaimed : forcedIn (sinceDeal c.sent) = [] → (bidsIn (sinceDeal c.sent)).find? isClaim = none →
    c.dealCardCount = 3
  tally : ∃ n ≤ 5, Tally c n sets

def BidInv : Phase → Room → Prop
  | .dealt, c => Fresh c ∧ Tally c 0 0
  | .bidding rob p, c => ∃ f h k, askTable.lookup h = some (rob, k) ∧ p = f + k ∧ Asked c f h ∧
      Tally c h.length 0
  | .landlordDelay _ l, c => Settled c l 0
  | .landlordWaite _ l, c | .doubleing l _, c | .doubleMax l _, c | .playing l _, c
  | .effect l _, c | .nextTurn l, c | .out l _, c | .ended l _, c | .wedged l, c => Settled c l 1

section Steps
variable {conf : Conf} {e : Event} {d : Draws} {c c' : Room} {p q f : Seat} {h : List Bool}
  {n sets : Nat}

theorem isPlain_blind {m : Message} (plain : m.isPlain) :
    m.bid = none ∧ m.asked = none ∧ m.forced = none ∧ m.isDeal = false ∧
      m.isLandlordSet = false := by
  cases m with
  | roomDealCard p cards => exact plain.elim
  | roomSyncPlayerSkill p id => exact plain.elim
  | roomLandlordSet p cards multiple => exact plain.elim
  | roomPleasePlayerAction p state clock s =>
      refine ⟨rfl, ?_, rfl, rfl, rfl⟩
      simp only [Message.asked, plain.1, plain.2, or_self, if_false]
  | roomSyncPlayerAction p type play =>
      have plain : isBidAction type = false := plain
      refine ⟨?_, rfl, rfl, rfl, rfl⟩
      simp [Message.bid, plain]
  | _ => exact ⟨rfl, rfl, rfl, rfl, rfl⟩

theorem bids_adds (adds : c.Adds Message.isPlain c') :
    bidsIn (sinceDeal c'.sent) = bidsIn (sinceDeal c.sent) :=
  filterMap_sinceDeal_adds (fun _ plain => ⟨(isPlain_blind plain).1,
    (isPlain_blind plain).2.2.2.1⟩) adds

theorem asked_adds (adds : c.Adds Message.isPlain c') :
    askedIn (sinceDeal c'.sent) = askedIn (sinceDeal c.sent) :=
  filterMap_sinceDeal_adds (fun _ plain => ⟨(isPlain_blind plain).2.1,
    (isPlain_blind plain).2.2.2.1⟩) adds

theorem forced_adds (adds : c.Adds Message.isPlain c') :
    forcedIn (sinceDeal c'.sent) = forcedIn (sinceDeal c.sent) :=
  filterMap_sinceDeal_adds (fun _ plain => ⟨(isPlain_blind plain).2.2.1,
    (isPlain_blind plain).2.2.2.1⟩) adds

theorem Tally.adds (tally : Tally c n sets) (adds : c.Adds Message.isPlain c') :
    Tally c' n sets := by
  have count := adds.dealCardCount
  refine ⟨count ▸ tally.one_le, count ▸ tally.le_three, ?_, ?_, ?_⟩
  · rw [count, countP_adds (fun _ plain => (isPlain_blind plain).2.2.2.1) adds]
    exact tally.deals
  · rw [count, countP_adds (fun _ plain => by
      rw [Message.isBid, (isPlain_blind plain).1]; rfl) adds]
    exact tally.bids
  · rw [countP_adds (fun _ plain => (isPlain_blind plain).2.2.2.2) adds]
    exact tally.sets

theorem Settled.adds {l : Seat} (settled : Settled c l sets) (adds : c.Adds Message.isPlain c') :
    Settled c' l sets := by
  obtain ⟨n, le, tally⟩ := settled.tally
  refine ⟨?_, ?_, n, le, tally.adds adds⟩
  · simp only [landlordOf, forced_adds adds, bids_adds adds, asked_adds adds]
    exact settled.landlord
  · rw [forced_adds adds, bids_adds adds, adds.dealCardCount]
    exact settled.unclaimed

theorem Asked.adds (told : Asked c f h) (adds : c.Adds Message.isPlain c')
    (lastActions : c'.lastActions = c.lastActions)
    (queues : ∀ q, (c'.players q).actionQueue = (c.players q).actionQueue) : Asked c' f h := by
  refine ⟨?_, ?_, ?_, lastActions.trans told.lastActions, ?_⟩
  · rw [bids_adds adds, told.bids]
  · rw [asked_adds adds, told.first]
  · rw [forced_adds adds, told.forced]
  · rw [← told.queues]
    exact funext queues

/-- A prompt of the bidding leaves the answers as they are. -/
theorem Asked.prompt (told : Asked c f h) {state : PlayerState} (time : Int)
    (bidding : state = .callLandlord ∨ state = .robLandlord) :
    Asked (c.prompt p state time) f h := by
  have last : (c.prompt p state time).lastActions = c.lastActions :=
    funext fun q => field_modify (c := c.send _) Player.lastAction rfl q
  have queue : (fun q => ((c.prompt p state time).players q).actionQueue) =
      fun q => (c.players q).actionQueue :=
    funext fun q => field_modify (c := c.send _) Player.actionQueue rfl q
  have sent : sinceDeal (c.prompt p state time).sent =
      .roomPleasePlayerAction p state time (c.players p).playCardState :: sinceDeal c.sent :=
    sinceDeal_cons rfl c.sent
  refine ⟨?_, ?_, ?_, last.trans told.lastActions, queue.trans told.queues⟩
  · rw [sent]
    exact told.bids
  · have first : askedIn (.roomPleasePlayerAction p state time (c.players p).playCardState ::
        sinceDeal c.sent) = p :: askedIn (sinceDeal c.sent) := by
      simp [askedIn, Message.asked, bidding]
    rw [sent, first, List.getLast?_cons, told.first]
    rfl
  · rw [sent]
    exact told.forced

theorem Tally.prompt (tally : Tally c n sets) (state : PlayerState) (time : Int) :
    Tally (c.prompt p state time) n sets := by
  have plain : ∀ counted : Message → Bool,
      counted (.roomPleasePlayerAction p state time (c.players p).playCardState) = false →
      (c.prompt p state time).sent.countP counted = c.sent.countP counted := by
    intro counted none'
    show List.countP counted (.roomPleasePlayerAction p state time _ :: c.sent) = _
    rw [List.countP_cons_of_neg (by simp [none'])]
  exact ⟨tally.one_le, tally.le_three, (plain _ rfl).trans tally.deals,
    (plain _ rfl).trans tally.bids, (plain _ rfl).trans tally.sets⟩

theorem Fresh.prompt (fresh : Fresh c) (time : Int) :
    Asked (c.prompt p .callLandlord time) p [] := by
  have last : (c.prompt p .callLandlord time).lastActions = c.lastActions :=
    funext fun q => field_modify (c := c.send _) Player.lastAction rfl q
  have queue : (fun q => ((c.prompt p .callLandlord time).players q).actionQueue) =
      fun q => (c.players q).actionQueue :=
    funext fun q => field_modify (c := c.send _) Player.actionQueue rfl q
  have sent : sinceDeal (c.prompt p .callLandlord time).sent =
      .roomPleasePlayerAction p .callLandlord time (c.players p).playCardState ::
        sinceDeal c.sent := sinceDeal_cons rfl c.sent
  refine ⟨?_, ?_, ?_, last.trans fresh.lastActions, queue.trans fresh.queues⟩
  · rw [sent]
    exact fresh.bids
  · have first : askedIn (.roomPleasePlayerAction p .callLandlord time
        (c.players p).playCardState :: sinceDeal c.sent) = p :: askedIn (sinceDeal c.sent) := rfl
    rw [sent, first, fresh.asked]
    rfl
  · rw [sent]
    exact fresh.forced

/-- An accepted bid, in the record and on the player. -/
theorem Asked.bidden (told : Asked c f h) (rob yes : Bool) (k : Seat)
    (found : askTable.lookup h = some (rob, k)) :
    Asked (c.bidden conf rob yes (f + k)) f (yes :: h) := by
  have isBid : isBidAction (bidAction rob yes) = true := by cases rob <;> cases yes <;> rfl
  have log : bidLog f (yes :: h) = (f + k, bidAction rob yes) :: bidLog f h := by
    simp only [bidLog, found]
  let m := (c.modify (f + k) fun pl => pl.answered (bidAction rob yes)).send
    (.roomSyncPlayerAction (f + k) (bidAction rob yes) none)
  have adds : m.Adds Message.isPlain (c.bidden conf rob yes (f + k)) :=
    (Room.Adds.refl.announce fun _ _ _ => trivial).to rfl
  have players : (c.bidden conf rob yes (f + k)).players = m.players := by
    cases rob <;> cases yes <;> rfl
  have sent : sinceDeal m.sent =
      .roomSyncPlayerAction (f + k) (bidAction rob yes) none :: sinceDeal c.sent :=
    sinceDeal_cons rfl c.sent
  refine Asked.adds (c := m) ⟨?_, ?_, ?_, ?_, ?_⟩ adds (by
      funext q
      exact congrArg (fun players : Seat → Player => (players q).lastAction) players)
    fun q => by rw [players]
  · have first : bidsIn (.roomSyncPlayerAction (f + k) (bidAction rob yes) none ::
        sinceDeal c.sent) = (f + k, bidAction rob yes) :: bidsIn (sinceDeal c.sent) := by
      simp [bidsIn, Message.bid, isBid]
    rw [sent, first, told.bids, log]
  · rw [sent]
    exact told.first
  · rw [sent]
    exact told.forced
  · funext q
    have last := congrFun told.lastActions q
    rw [log]
    by_cases here : q = f + k
    · subst here
      simp [m, Room.lastActions, Room.send, Room.modify, Player.answered, lastOf]
    · simp only [m, Room.lastActions, Room.send, Room.modify, Function.update_of_ne here]
      rw [lastOf, List.find?_cons_of_neg (by simp [Ne.symm here])]
      exact last
  · funext q
    have queue := congrFun told.queues q
    rw [log]
    by_cases here : q = f + k
    · subst here
      simp only [m, Room.send, Room.modify, Function.update_self, Player.answered, queueOf,
        decide_true, List.filter_cons_of_pos, List.map_cons, List.reverse_cons]
      rw [queue]
      rfl
    · simp only [m, Room.send, Room.modify, Function.update_of_ne here, queueOf]
      rw [List.filter_cons_of_neg (by simp [Ne.symm here])]
      exact queue

theorem Tally.bidden (tally : Tally c n 0) (rob yes : Bool) :
    Tally (c.bidden conf rob yes p) (n + 1) 0 := by
  let m := (c.modify p fun pl => pl.answered (bidAction rob yes)).send
    (.roomSyncPlayerAction p (bidAction rob yes) none)
  have adds : m.Adds Message.isPlain (c.bidden conf rob yes p) :=
    (Room.Adds.refl.announce fun _ _ _ => trivial).to rfl
  have isBid : (Message.roomSyncPlayerAction p (bidAction rob yes) none).isBid = true := by
    cases rob <;> cases yes <;> rfl
  refine Tally.adds (c := m) ⟨tally.one_le, tally.le_three, ?_, ?_, ?_⟩ adds
  · show List.countP Message.isDeal (_ :: c.sent) = _
    rw [List.countP_cons_of_neg (by simp [Message.isDeal])]
    exact tally.deals
  · show List.countP Message.isBid (_ :: c.sent) = _
    rw [List.countP_cons_of_pos isBid, tally.bids]
    rfl
  · show List.countP Message.isLandlordSet (_ :: c.sent) = _
    rw [List.countP_cons_of_neg (by simp [Message.isLandlordSet])]
    exact tally.sets

theorem fresh_deal (conf : Conf) (d : Draws) :
    Fresh (c.coreAction conf .dealCard none d) := by
  have hand : ∀ (m : Room) (field : Player → Option PlayerAction × List PlayerAction),
      (∀ pl, field { pl with
        state := .dealCard, robotAgent := .init_handcards pl.cards, cards := sortCards pl.cards } =
        field pl) → ∀ r q, field ((m.dealHand r).players q) = field (m.players q) :=
    fun m field same r q => field_modify (c := m.send _) field (same _) q
  have kept : ∀ q, (((c.coreAction conf .dealCard none d).players q).lastAction,
      ((c.coreAction conf .dealCard none d).players q).actionQueue) = (none, []) := by
    intro q
    show (fun pl : Player => (pl.lastAction, pl.actionQueue))
      (((((((c.enter .dealCard none).dealCard d).dealHand 0).dealHand 1).dealHand 2).timeout
        .dealCard).players q) = _
    refine (hand _ (fun pl => (pl.lastAction, pl.actionQueue)) (fun _ => rfl) 2 q).trans ?_
    refine (hand _ (fun pl => (pl.lastAction, pl.actionQueue)) (fun _ => rfl) 1 q).trans ?_
    exact hand _ (fun pl => (pl.lastAction, pl.actionQueue)) (fun _ => rfl) 0 q
  refine ⟨rfl, rfl, rfl, funext fun q => congrArg Prod.fst (kept q),
    funext fun q => congrArg Prod.snd (kept q)⟩

theorem tally_deal (conf : Conf) (d : Draws) (le : c.dealCardCount ≤ 2)
    (deals : c.sent.countP Message.isDeal = 3 * c.dealCardCount)
    (bids : c.sent.countP Message.isBid = 3 * c.dealCardCount)
    (none' : c.sent.countP Message.isLandlordSet = 0) :
    Tally (c.coreAction conf .dealCard none d) 0 0 := by
  have count : ∀ counted : Message → Bool, (∀ q cards, counted (.roomDealCard q cards) = false) →
      (c.coreAction conf .dealCard none d).sent.countP counted = c.sent.countP counted := by
    intro counted unseen
    show List.countP counted (_ :: _ :: _ :: c.sent) = _
    simp only [List.countP_cons, unseen, Bool.false_eq_true, if_false, Nat.add_zero]
  have counter : (c.coreAction conf .dealCard none d).dealCardCount = c.dealCardCount + 1 := rfl
  refine ⟨?_, ?_, ?_, ?_, ?_⟩
  · rw [counter]
    exact Nat.le_add_left 1 _
  · rw [counter]
    omega
  · show List.countP Message.isDeal (_ :: _ :: _ :: c.sent) = _
    simp only [List.countP_cons, Message.isDeal, if_true, deals, counter]
    omega
  · rw [count _ fun _ _ => rfl, bids, counter]
    omega
  · rw [count _ fun _ _ => rfl, none']

/-- The end of `setLandlord` announces the landlord once. -/
theorem Settled.set {l : Seat} (settled : Settled c l 0) : Settled (c.landlordSet conf p) l 1 := by
  obtain ⟨n, le, tally⟩ := settled.tally
  let m := c.addMultiple .bottomCard (getBottomCardMultiple conf c.bottomCards) p
  have adds : c.Adds Message.isPlain m := Room.Adds.refl.multiple fun _ _ _ => trivial
  have settled' := settled.adds adds
  have tally' := tally.adds adds
  have sent : (c.landlordSet conf p).sent = .roomLandlordSet p c.bottomCards
    (getBottomCardMultiple conf c.bottomCards) :: m.sent := rfl
  have since : sinceDeal (c.landlordSet conf p).sent = .roomLandlordSet p c.bottomCards
      (getBottomCardMultiple conf c.bottomCards) :: sinceDeal m.sent := sinceDeal_cons rfl m.sent
  refine ⟨?_, ?_, n, le, tally'.one_le, tally'.le_three, ?_, ?_, ?_⟩
  · rw [since]
    exact settled'.landlord
  · rw [since]
    exact settled'.unclaimed
  · rw [sent, List.countP_cons_of_neg (by simp [Message.isDeal])]
    exact tally'.deals
  · rw [sent, List.countP_cons_of_neg (by simp [Message.isBid, Message.bid])]
    exact tally'.bids
  · rw [sent, List.countP_cons_of_pos rfl, tally'.sets]

/-- The answers of a deal name its landlord. -/
theorem Asked.settled (told : Asked c f h) (tally : Tally c n 0) (le : n ≤ 5) {l : Seat}
    (decided : ((bidLog f h).find? isClaim).map Prod.fst = some l ∨
      (bidLog f h).find? isClaim = none ∧ l = f ∧ c.dealCardCount = 3) : Settled c l 0 := by
  refine ⟨?_, ?_, n, le, tally⟩
  · simp only [landlordOf, told.forced, told.bids, List.head?_nil]
    obtain claimed | ⟨unclaimed, rfl, _⟩ := decided
    · obtain ⟨bid, found, rfl⟩ := Option.map_eq_some_iff.mp claimed
      rw [found]
    · rw [unclaimed]
      exact told.first
  · intro _ unclaimed
    rw [told.bids] at unclaimed
    obtain claimed | ⟨_, _, third⟩ := decided
    · rw [unclaimed] at claimed
      cases claimed
    · exact third

/-- A forced landlord is the one named by the skill's message. -/
theorem Tally.forced_settled (tally : Tally c n 0) (le : n ≤ 5)
    (buff : SkillBuff) : Settled (c.coreForce conf p buff) p 0 := by
  let m := c.send (.roomSyncPlayerSkill p buff.skill_id)
  have raised : m.Adds Message.isPlain (m.allWaiting.addMultiple .skill buff.magnification p) :=
    Room.Adds.start (c := m.allWaiting) (Room.Adds.refl.multiple fun _ _ _ => trivial) rfl
  have adds : m.Adds Message.isPlain (c.coreForce conf p buff) := raised.to rfl
  have since : sinceDeal m.sent = .roomSyncPlayerSkill p buff.skill_id :: sinceDeal c.sent :=
    sinceDeal_cons rfl c.sent
  have count : ∀ counted : Message → Bool,
      counted (.roomSyncPlayerSkill p buff.skill_id) = false →
      m.sent.countP counted = c.sent.countP counted := by
    intro counted unseen
    show List.countP counted (_ :: c.sent) = _
    rw [List.countP_cons_of_neg (by simp [unseen])]
  refine Settled.adds (c := m) ⟨?_, ?_, n, le, tally.one_le, tally.le_three,
    (count _ rfl).trans tally.deals, (count _ rfl).trans tally.bids,
    (count _ rfl).trans tally.sets⟩ adds
  · rw [since]
    rfl
  · rw [since]
    intro unforced
    cases unforced

/-- What the room decides after a bid is what the table says. -/
theorem Asked.bidEnd {rob yes : Bool} {k : Seat} (told : Asked c f (yes :: h))
    (found : askTable.lookup h = some (rob, k)) :
    (c.bidEnd rob (f + k) (bidAction rob yes)).2 =
      bidOutcome f (decide (3 ≤ c.dealCardCount)) (yes :: h) := by
  have table := askTable_outcome (h, rob, k) (mem_askTable found) f yes
    (decide (3 ≤ c.dealCardCount))
  have queue := congrFun told.queues (f + k)
  rw [← table]
  cases rob with
  | false =>
      simp only [Room.bidEnd, Bool.false_eq_true, if_false]
      rw [callEnd_third, told.lastActions]
  | true =>
      simp only [Room.bidEnd, if_true]
      rw [told.lastActions, queue]

theorem bidInv_landlord {l : Seat} (settled : Settled c l 0) {rob : Bool} :
    BidInv ((Bid.landlord l).phase rob) (c.coreAfterBid conf (.landlord l) d) := by
  let m := { c with landlordPlayer := some l }.modify l fun pl => { pl with
    isLandlord := true
    cards := sortCards (pl.cards ++ c.bottomCards)
    robotAgent := pl.robotAgent.setLandlord c.bottomCards }
  have settled' : Settled m l 0 := settled.adds (.same rfl)
  exact settled'.set

theorem bidInv_bid {rob yes : Bool} {k : Seat} (told : Asked c f (yes :: h))
    (tally : Tally c (h.length + 1) 0) (found : askTable.lookup h = some (rob, k)) (index : Seat) :
    BidInv ((bidOutcome f (decide (3 ≤ c.dealCardCount)) (yes :: h)).phase rob)
      ((c.setActionPlayerIndex index).coreAfterBid conf
        (bidOutcome f (decide (3 ≤ c.dealCardCount)) (yes :: h)) d) := by
  have le := askTable_length (h, rob, k) (mem_askTable found)
  cases next : askTable.lookup (yes :: h) with
  | some entry =>
      obtain ⟨round, j⟩ := entry
      cases round with
      | false =>
          have outcome : bidOutcome f (decide (3 ≤ c.dealCardCount)) (yes :: h) = .call (f + j) := by
            simp only [bidOutcome, next]
          rw [outcome]
          exact ⟨f, yes :: h, j, next, rfl,
            Asked.prompt (c := Room.enter _ .callLandlord (some (f + j))) ⟨told.bids, told.first,
              told.forced, told.lastActions, told.queues⟩ 10 (.inl rfl),
            Tally.prompt (c := Room.enter _ .callLandlord (some (f + j))) ⟨tally.one_le,
              tally.le_three, tally.deals, tally.bids, tally.sets⟩ _ _⟩
      | true =>
          have outcome : bidOutcome f (decide (3 ≤ c.dealCardCount)) (yes :: h) = .rob (f + j) := by
            simp only [bidOutcome, next]
          rw [outcome]
          exact ⟨f, yes :: h, j, next, rfl,
            Asked.prompt (c := Room.enter _ .robLandlord (some (f + j))) ⟨told.bids, told.first,
              told.forced, told.lastActions, told.queues⟩ 10 (.inr rfl),
            Tally.prompt (c := Room.enter _ .robLandlord (some (f + j))) ⟨tally.one_le,
              tally.le_three, tally.deals, tally.bids, tally.sets⟩ _ _⟩
  | none =>
      have kept : Asked (c.setActionPlayerIndex index) f (yes :: h) :=
        ⟨told.bids, told.first, told.forced, told.lastActions, told.queues⟩
      have tally' : Tally (c.setActionPlayerIndex index) (h.length + 1) 0 :=
        ⟨tally.one_le, tally.le_three, tally.deals, tally.bids, tally.sets⟩
      have few : h.length + 1 ≤ 5 := Nat.succ_le_succ le
      cases claim : (bidLog f (yes :: h)).find? isClaim with
      | some bid =>
          have outcome : bidOutcome f (decide (3 ≤ c.dealCardCount)) (yes :: h) =
              .landlord bid.1 := by simp only [bidOutcome, next, claim]
          rw [outcome]
          exact bidInv_landlord (kept.settled tally' few (.inl (by rw [claim]; rfl)))
      | none =>
          by_cases third : 3 ≤ c.dealCardCount
          · have outcome : bidOutcome f (decide (3 ≤ c.dealCardCount)) (yes :: h) =
                .landlord f := by simp only [bidOutcome, next, claim, third, decide_true, if_true]
            rw [outcome]
            exact bidInv_landlord (kept.settled tally' few
              (.inr ⟨claim, rfl, Nat.le_antisymm tally.le_three third⟩))
          · have outcome : bidOutcome f (decide (3 ≤ c.dealCardCount)) (yes :: h) = .redeal := by
              simp only [bidOutcome, next, claim, third, decide_false, Bool.false_eq_true, if_false]
            have redeal := askTable_redeal (h, rob, k) (mem_askTable found) f yes
              (decide (3 ≤ c.dealCardCount)) outcome
            rw [outcome]
            have length : h.length = 2 := redeal.2
            have bids := tally.bids
            have one_le := tally.one_le
            refine ⟨fresh_deal conf d, tally_deal (c := c.setActionPlayerIndex index) conf d ?_
              tally.deals ?_ tally.sets⟩
            · show c.dealCardCount ≤ 2
              omega
            · show c.sent.countP Message.isBid = 3 * c.dealCardCount
              omega

theorem Fresh.adds (fresh : Fresh c) (adds : c.Adds Message.isPlain c')
    (lastActions : c'.lastActions = c.lastActions)
    (queues : ∀ q, (c'.players q).actionQueue = (c.players q).actionQueue) : Fresh c' := by
  refine ⟨?_, ?_, ?_, lastActions.trans fresh.lastActions, (funext queues).trans fresh.queues⟩
  · rw [bids_adds adds, fresh.bids]
  · rw [asked_adds adds, fresh.asked]
  · rw [forced_adds adds, fresh.forced]

/-- Plain messages and changes elsewhere keep the invariant of every phase. -/
theorem bidInv_adds {ph : Phase} (inv : BidInv ph c) (adds : c.Adds Message.isPlain c')
    (lastActions : c'.lastActions = c.lastActions)
    (queues : ∀ q, (c'.players q).actionQueue = (c.players q).actionQueue) : BidInv ph c' := by
  cases ph with
  | dealt => exact ⟨inv.1.adds adds lastActions queues, inv.2.adds adds⟩
  | bidding rob p =>
      obtain ⟨f, h, k, found, here, told, tally⟩ := inv
      exact ⟨f, h, k, found, here, told.adds adds lastActions queues, tally.adds adds⟩
  | _ => exact Settled.adds inv adds

theorem bidInv_start (conf : Conf) (gold : Seat → Int) (d : Draws) :
    BidInv .dealt ((Room.ready gold).coreAction conf .dealCard none d) :=
  ⟨fresh_deal conf d, tally_deal conf d (Nat.zero_le 2) rfl rfl rfl⟩

theorem bidInv_trans {ph ph' : Phase} (phase : c.control = ph.control) (inv : BidInv ph c)
    (trans : Trans conf e d c ph ph' c') : BidInv ph' c' := by
  have late : ∀ l, ph.control.landlordPlayer = some l →
      (∀ rob l, ph ≠ .landlordDelay rob l) → c.Adds Message.isPlain c' :=
    fun l set announced => adds_late phase set announced trans
  cases trans with
  | gold ph p num =>
      exact bidInv_adds inv (.same rfl) (funext fun q => field_modify Player.lastAction rfl q)
        fun q => field_modify Player.actionQueue rfl q
  | showCard ph p early =>
      exact bidInv_adds inv (Room.Adds.refl.multiple fun _ _ _ => trivial) rfl fun _ => rfl
  | first =>
      obtain ⟨fresh, tally⟩ := inv
      let m := Room.enter (Room.allWaiting { c with waits := c.waits.erase .dealCard })
        .callLandlord (some d.first)
      have adds : c.Adds Message.isPlain m := .same rfl
      have kept : ∀ q, ((m.players q).lastAction, (m.players q).actionQueue) =
          ((c.players q).lastAction, (c.players q).actionQueue) := by
        intro q
        match q with
        | 0 => rfl
        | 1 => rfl
        | 2 => rfl
      have fresh' := fresh.adds adds (funext fun q => congrArg Prod.fst (kept q))
        fun q => congrArg Prod.snd (kept q)
      exact ⟨d.first, [], 0, rfl, (add_zero _).symm, fresh'.prompt 10,
        (tally.adds adds).prompt _ _⟩
  | bid rob yes p =>
      obtain ⟨f, h, k, found, rfl, told, tally⟩ := inv
      have told' := @Asked.bidden conf c f h told rob yes k found
      rw [told'.bidEnd found]
      exact bidInv_bid told' (tally.bidden rob yes) found _
  | force rob q p buff cfg skill =>
      obtain ⟨f, h, k, found, here, told, tally⟩ := inv
      exact tally.forced_settled
        ((askTable_length (h, rob, k) (mem_askTable found)).trans (by decide)) buff
  | delayed rob l =>
      have settled : Settled { c with holding := none } l 0 := Settled.adds inv (.same rfl)
      exact settled.set
  | set rob l => exact Settled.adds inv (late l rfl nofun)
  | double l p answered t type multiple key open' info =>
      exact Settled.adds inv (late l rfl nofun)
  | doubled l => exact Settled.adds inv (late l rfl nofun)
  | doubleMax l p answered t type multiple key open' info =>
      exact Settled.adds inv (late l rfl nofun)
  | doubledMax l => exact Settled.adds inv (late l rfl nofun)
  | pass l p plays cards => exact Settled.adds inv (late l rfl nofun)
  | passOut l p plays cards => exact Settled.adds inv (late l rfl nofun)
  | play l p play m plays mirror bomb => exact Settled.adds inv (late l rfl nofun)
  | mirrorRaised l p play plays mirror => exact Settled.adds inv (late l rfl nofun)
  | bombRaised l p play message plays mirror bomb => exact Settled.adds inv (late l rfl nofun)
  | turn l p cards => exact Settled.adds inv (late l rfl nofun)
  | out l p cards => exact Settled.adds inv (late l rfl nofun)
  | next l last found => exact Settled.adds inv (late l rfl nofun)
  | lost l found => exact Settled.adds inv (late l rfl nofun)
  | ended l w => exact Settled.adds inv (late l rfl nofun)

end Steps

/-- The sizes of the hands from a deal to the first play. -/
def HandsInv : Phase → Room → Prop
  | .dealt, c | .bidding _ _, c =>
      (∀ q, (c.players q).cards.length = 17) ∧ c.bottomCards.length = 3
  | .landlordDelay _ l, c | .landlordWaite _ l, c | .doubleing l _, c | .doubleMax l _, c =>
      ∀ q, (c.players q).cards.length = if q = l then 20 else 17
  | _, _ => True

section Hands
variable {conf : Conf} {e : Event} {d : Draws} {c c' : Room} {p q l : Seat}

theorem cards_deal (conf : Conf) (d : Draws) (q : Seat) :
    ((c.coreAction conf .dealCard none d).players q).cards = sortCards (d.deal.cards q) := by
  match q with
  | 0 => rfl
  | 1 => rfl
  | 2 => rfl

theorem length_sortCards (cards : List Card) : (sortCards cards).length = cards.length :=
  List.length_insertionSort _ cards

theorem hands_deal (conf : Conf) (d : Draws) :
    HandsInv .dealt (c.coreAction conf .dealCard none d) := by
  refine ⟨fun q => ?_, d.deal.length_bottom⟩
  rw [cards_deal, length_sortCards, d.deal.length_cards]

theorem cards_setLandlord (delayed : Bool) (q : Seat) :
    ((c.setLandlord conf l delayed).players q).cards =
      if q = l then sortCards ((c.players l).cards ++ c.bottomCards) else (c.players q).cards := by
  have made : (({ c with landlordPlayer := some l }.modify l fun pl => { pl with
      isLandlord := true
      cards := sortCards (pl.cards ++ c.bottomCards)
      robotAgent := pl.robotAgent.setLandlord c.bottomCards }).players q).cards =
      if q = l then sortCards ((c.players l).cards ++ c.bottomCards) else (c.players q).cards := by
    by_cases here : q = l
    · subst here
      simp [Room.modify]
    · simp [Room.modify, here]
  cases delayed with
  | true => exact made
  | false => exact made

theorem hands_setLandlord (delayed : Bool) (hands : ∀ q, (c.players q).cards.length = 17)
    (bottom : c.bottomCards.length = 3) (q : Seat) :
    ((c.setLandlord conf l delayed).players q).cards.length = if q = l then 20 else 17 := by
  rw [cards_setLandlord]
  split
  · rw [length_sortCards, List.length_append, hands, bottom]
  · exact hands q

theorem length_of_hand {pl pl' : Player} (same : pl'.hand = pl.hand) :
    pl'.cards.length = pl.cards.length := congrArg (fun hand => hand.1.length) same

theorem hands_coreAfterBid {rob : Bool} (bid : Bid)
    (hands : (∀ q, (c.players q).cards.length = 17) ∧ c.bottomCards.length = 3) :
    HandsInv (bid.phase rob) (c.coreAfterBid conf bid d) := by
  cases bid with
  | call p =>
      refine ⟨fun q => ?_, hands.2⟩
      exact (length_of_hand (hand_prompt (c := c.enter _ _) _ _ q)).trans (hands.1 q)
  | rob p =>
      refine ⟨fun q => ?_, hands.2⟩
      exact (length_of_hand (hand_prompt (c := c.enter _ _) _ _ q)).trans (hands.1 q)
  | landlord p => exact hands_setLandlord false hands.1 hands.2
  | redeal => exact hands_deal conf d

theorem handsInv_trans {ph ph' : Phase} (phase : c.control = ph.control) (inv : HandsInv ph c)
    (trans : Trans conf e d c ph ph' c') : HandsInv ph' c' := by
  have late : ∀ l, ph.control.landlordPlayer = some l →
      (∀ l p, ph = .playing l p → ph' = .nextTurn l ∨ ph' = .out l p) → ∀ q,
      (c'.players q).cards.length = (c.players q).cards.length :=
    fun l set noPlay q => length_of_hand (hand_late phase set trans noPlay q)
  have keep : ∀ m : Room, (∀ q, (m.players q).hand = (c.players q).hand) →
      m.bottomCards = c.bottomCards → HandsInv ph m := by
    intro m same bottom
    cases ph with
    | dealt => exact ⟨fun q => (length_of_hand (same q)).trans (inv.1 q), bottom ▸ inv.2⟩
    | bidding rob p => exact ⟨fun q => (length_of_hand (same q)).trans (inv.1 q), bottom ▸ inv.2⟩
    | landlordDelay rob l => exact fun q => (length_of_hand (same q)).trans (inv q)
    | landlordWaite rob l => exact fun q => (length_of_hand (same q)).trans (inv q)
    | doubleing l answered => exact fun q => (length_of_hand (same q)).trans (inv q)
    | doubleMax l answered => exact fun q => (length_of_hand (same q)).trans (inv q)
    | _ => trivial
  cases trans with
  | gold ph p num => exact keep _ (fun q => field_modify Player.hand rfl q) rfl
  | showCard ph p early => exact keep _ (fun _ => rfl) rfl
  | first =>
      let m := Room.allWaiting { c with waits := c.waits.erase .dealCard }
      have waiting : ∀ q, (m.players q).hand = (c.players q).hand :=
        fun q => hand_allWaiting (c := { c with waits := c.waits.erase .dealCard }) q
      refine ⟨fun q => ?_, inv.2⟩
      exact (length_of_hand ((hand_prompt (c := m.enter .callLandlord (some d.first)) _ _ q).trans
        (waiting q))).trans (inv.1 q)
  | bid rob yes p =>
      have hands : ∀ q, ((c.bidden conf rob yes p).players q).hand = (c.players q).hand := by
        intro q
        rw [players_bidden]
        exact field_modify Player.hand rfl q
      have bottom : (c.bidden conf rob yes p).bottomCards = c.bottomCards := by
        cases rob <;> cases yes <;> rfl
      exact hands_coreAfterBid (c := Room.setActionPlayerIndex _ _) _
        ⟨fun q => (length_of_hand (hands q)).trans (inv.1 q),
          (congrArg List.length bottom).trans inv.2⟩
  | force rob q p buff cfg skill =>
      exact hands_setLandlord (c := Room.addMultiple _ _ _ _) true
        (fun q => (length_of_hand (hand_allWaiting (c := c.send _) q)).trans (inv.1 q)) inv.2
  | delayed rob l => exact inv
  | set rob l => exact fun q => (late l rfl nofun q).trans (inv q)
  | double l p answered t type multiple key open' info =>
      exact fun q => (late l rfl nofun q).trans (inv q)
  | doubled l => exact fun q => (late l rfl nofun q).trans (inv q)
  | doubleMax l p answered t type multiple key open' info =>
      exact fun q => (late l rfl nofun q).trans (inv q)
  | _ => trivial

end Hands

section Progress
variable {conf : Conf} {d : Draws} {c : Room} {p : Seat}

theorem countP_bid_coreAfterBid (bid : Bid) :
    (c.coreAfterBid conf bid d).sent.countP Message.isBid = c.sent.countP Message.isBid := by
  cases bid with
  | call q => exact List.countP_cons_of_neg (by simp [Message.isBid, Message.bid])
  | rob q => exact List.countP_cons_of_neg (by simp [Message.isBid, Message.bid])
  | landlord q =>
      refine (List.countP_cons_of_neg (by simp [Message.isBid, Message.bid])).trans ?_
      exact List.countP_cons_of_neg (by simp [Message.isBid, Message.bid])
  | redeal =>
      refine (List.countP_cons_of_neg (by simp [Message.isBid, Message.bid])).trans ?_
      refine (List.countP_cons_of_neg (by simp [Message.isBid, Message.bid])).trans ?_
      exact List.countP_cons_of_neg (by simp [Message.isBid, Message.bid])

theorem countP_bid_bidden (rob yes : Bool) :
    (c.bidden conf rob yes p).sent.countP Message.isBid = c.sent.countP Message.isBid + 1 := by
  let m := (c.modify p fun pl => pl.answered (bidAction rob yes)).send
    (.roomSyncPlayerAction p (bidAction rob yes) none)
  have adds : m.Adds Message.isPlain (c.bidden conf rob yes p) :=
    (Room.Adds.refl.announce fun _ _ _ => trivial).to rfl
  rw [countP_adds (fun _ plain => by rw [Message.isBid, (isPlain_blind plain).1]; rfl) adds]
  exact List.countP_cons_of_pos (by cases rob <;> cases yes <;> rfl)

/-- The request by which a prompted player answers. -/
def bidRequest (rob yes : Bool) : Request :=
  if rob then .robLandlord (some (bidAction true yes)) else .callLandlord (some (bidAction false yes))

/-- An answer of the prompted player is accepted, whatever it is. -/
theorem bid_accepted {r : Room} {ph : Phase} (phase : r.control = ph.control) (rob yes : Bool)
    (asked : (r.players p).state = bidState rob) :
    ∃ r', r.step conf (.request p (bidRequest rob yes), d) = some r' ∧
      r'.sent.countP Message.isBid = r.sent.countP Message.isBid + 1 := by
  obtain rfl : ph = .bidding rob p :=
    asked_bid rob ((congrFun (congrArg Control.pstate phase) p).symm.trans asked)
  have free : r.holding = none := congrArg Control.holding phase
  have state : r.core.state = bidRoom rob := congrArg Control.state phase
  refine ⟨(r.playerRequest conf p (bidRequest rob yes) d).1, ?_, ?_⟩
  · simp only [Room.step, Room.exec, free, if_true, Option.map_some]
  · have core : (r.playerRequest conf p (bidRequest rob yes) d).1.core =
        r.core.coreBid conf p (bidAction rob yes) (bidKey rob yes) (bidVal conf rob) d := by
      cases rob with
      | false => exact Room.CallLandlord_core conf d r p yes asked
      | true => exact Room.RobLandlord_core conf d r p yes asked
    rw [coreBid_eq conf d rob yes state] at core
    have hidden : ∀ m : Message, m.isMove = false → m.isBid = false := by
      intro m unseen
      cases m with
      | roomSyncPlayerAction p type play => cases unseen
      | _ => rfl
    have count := congrArg (fun c : Room => c.sent.countP Message.isBid) core
    rw [← countP_record _ hidden, ← countP_record _ hidden r.sent]
    exact count.trans ((countP_bid_coreAfterBid _).trans (countP_bid_bidden rob yes))

/-- The timeout of a deal asks the player drawn first. -/
theorem first_asked {r : Room} (due : Wait.dealCard ∈ r.waits) :
    ∃ r', r.step conf (.wait .dealCard, d) = some r' ∧
      (r'.players d.first).state = .callLandlord := by
  refine ⟨r.fire conf .dealCard d, by simp only [Room.step, Room.exec, due, if_true,
    Option.map_some], ?_⟩
  have core := congrArg (fun c : Room => (c.players d.first).state)
    (Room.fire_core conf d r .dealCard)
  refine Eq.trans core ?_
  simp [Room.coreFire, Room.coreAction, Room.prompt, Room.modify, Room.enter, Player.inState]

end Progress

/-- What holds of the bidding in a room of a run. -/
structure BiddingHolds (conf : Conf) (r : Room) : Prop where
  deals : r.dealCardCount ≤ 3 ∧ r.sent.countP Message.isDeal = 3 * r.dealCardCount
  /-- At most eleven bids are ever made, and each one the prompted player makes is accepted. -/
  bids : r.sent.countP Message.isBid ≤ 11
  accepted : ∀ rob p, (r.players p).state = bidState rob → ∀ yes d, ∃ r',
    r.step conf (.request p (bidRequest rob yes), d) = some r' ∧
      r'.sent.countP Message.isBid = r.sent.countP Message.isBid + 1
  /-- Until there is a landlord, exactly one player is prompted, or the deal's timeout
  that prompts one is running. -/
  prompted : r.landlordPlayer = none →
    (∃! p, (r.players p).state = .callLandlord ∨ (r.players p).state = .robLandlord) ∨
    r.state = .dealCard ∧ ∀ d, ∃ r', r.step conf (.wait .dealCard, d) = some r' ∧
      (r'.players d.first).state = .callLandlord
  /-- `setLandlord` is run through at most once, and has been when the doubling begins. -/
  set_once : r.sent.countP Message.isLandlordSet ≤ 1
  set : RoomState.doubleing.code ≤ r.state.code → r.sent.countP Message.isLandlordSet = 1
  kept : ∀ l e d r', r.landlordPlayer = some l → r.step conf (e, d) = some r' →
    r'.landlordPlayer = some l
  landlord : ∀ l, r.landlordPlayer = some l → landlordOf (sinceDeal r.sent) = some l
  unclaimed : r.landlordPlayer ≠ none → forcedIn (sinceDeal r.sent) = [] →
    (bidsIn (sinceDeal r.sent)).find? isClaim = none → r.dealCardCount = 3
  hands : ∀ l, r.landlordPlayer = some l → r.state.code < RoomState.playing.code →
    ∀ q, (r.players q).cards.length = if q = l then 20 else 17

section Result
variable {conf : Conf} {agents : Seat → UserAgent} {gold : Seat → Int} {d : Draws}
  {es : List (Event × Draws)} {r : Room}

theorem hidden_blind {m : Message} (hidden : m.isMove = false) :
    m.bid = none ∧ m.asked = none ∧ m.forced = none ∧ m.isDeal = false ∧
      m.isLandlordSet = false := by
  cases m with
  | roomSkillState p => exact ⟨rfl, rfl, rfl, rfl, rfl⟩
  | roomShowCard p cards => exact ⟨rfl, rfl, rfl, rfl, rfl⟩
  | roomSetTrusteeship p isTrusteeship => exact ⟨rfl, rfl, rfl, rfl, rfl⟩
  | roomSyncGold p gold => exact ⟨rfl, rfl, rfl, rfl, rfl⟩
  | _ => cases hidden

theorem bidsIn_core : bidsIn (sinceDeal r.core.sent) = bidsIn (sinceDeal r.sent) :=
  filterMap_sinceDeal_record _ (fun _ hidden => (hidden_blind hidden).1) r.sent

theorem forcedIn_core : forcedIn (sinceDeal r.core.sent) = forcedIn (sinceDeal r.sent) :=
  filterMap_sinceDeal_record _ (fun _ hidden => (hidden_blind hidden).2.2.1) r.sent

theorem landlordOf_core : landlordOf (sinceDeal r.core.sent) = landlordOf (sinceDeal r.sent) := by
  have asked : askedIn (sinceDeal r.core.sent) = askedIn (sinceDeal r.sent) :=
    filterMap_sinceDeal_record _ (fun _ hidden => (hidden_blind hidden).2.1) r.sent
  simp only [landlordOf, bidsIn_core, forcedIn_core, asked]

/-- The tally in every phase: at most eleven bids, and one announced landlord from the
doubling on. -/
theorem bidInv_tally {ph : Phase} {c : Room} (inv : BidInv ph c) :
    ∃ n ≤ 5, Tally c n (if ph.control.landlordPlayer = none then 0
      else match ph with
        | .landlordDelay _ _ => 0
        | _ => 1) := by
  cases ph with
  | dealt => exact ⟨0, Nat.zero_le 5, inv.2⟩
  | bidding rob p =>
      obtain ⟨f, h, k, found, here, told, tally⟩ := inv
      exact ⟨h.length, (askTable_length (h, rob, k) (mem_askTable found)).trans (by decide), tally⟩
  | _ => exact Settled.tally inv

theorem bidInv_settled {ph : Phase} {c : Room} {l : Seat} (inv : BidInv ph c)
    (set : ph.control.landlordPlayer = some l) : ∃ sets, Settled c l sets := by
  cases ph with
  | dealt => cases set
  | bidding rob p => cases set
  | _ =>
      obtain rfl := Option.some.inj set
      exact ⟨_, inv⟩

theorem handsInv_hands {ph : Phase} {c : Room} {l : Seat} (inv : HandsInv ph c)
    (set : ph.control.landlordPlayer = some l)
    (early : ph.control.state.code < RoomState.playing.code) (q : Seat) :
    (c.players q).cards.length = if q = l then 20 else 17 := by
  cases ph with
  | dealt => cases set
  | bidding rob p => cases set
  | landlordDelay rob l' => exact Option.some.inj set ▸ inv q
  | landlordWaite rob l' => exact Option.some.inj set ▸ inv q
  | doubleing l' answered => exact Option.some.inj set ▸ inv q
  | doubleMax l' answered => exact Option.some.inj set ▸ inv q
  | _ => exact absurd early (by simp [Phase.control, RoomState.code])

theorem unset_prompts {ph : Phase} (unset : ph.control.landlordPlayer = none) :
    ph = .dealt ∨ ∃ rob p, ph = .bidding rob p := by
  cases ph with
  | dealt => exact .inl rfl
  | bidding rob p => exact .inr ⟨rob, p, rfl⟩
  | _ => cases unset

theorem only_unique (rob : Bool) (p : Seat) :
    ∃! q, only p (bidState rob) q = .callLandlord ∨ only p (bidState rob) q = .robLandlord := by
  refine ⟨p, ?_, ?_⟩
  · cases rob with
    | false => exact .inl (Function.update_self p _ _)
    | true => exact .inr (Function.update_self p _ _)
  · intro q asked
    obtain call | rob := asked
    · exact (only_eq (by decide) call).1.symm
    · exact (only_eq (by decide) rob).1.symm

theorem bidRoom_early (rob : Bool) : ¬RoomState.doubleing.code ≤ (bidRoom rob).code := by
  cases rob <;> decide

/-- In every run the bidding ends with one landlord, who is the one the record of the
deal names. -/
theorem bidding_holds (run : Run (Room.step conf) anyStep (Room.init conf agents gold d) es r) :
    BiddingHolds conf r := by
  obtain ⟨ph, phase, inv, hands⟩ := Room.run_invariant (fun _ _ _ => True)
    (fun ph c => BidInv ph c ∧ HandsInv ph c) (fun _ _ _ _ => trivial)
    ⟨bidInv_start conf gold d, hands_deal conf d⟩
    (fun e d c c' ph ph' phase inv _ trans =>
      ⟨bidInv_trans phase inv.1 trans, handsInv_trans phase inv.2 trans⟩) run
  have landlord : r.landlordPlayer = ph.control.landlordPlayer :=
    congrArg Control.landlordPlayer phase
  have state : r.state = ph.control.state := congrArg Control.state phase
  have pstate : (fun q => (r.players q).state) = ph.control.pstate :=
    congrArg Control.pstate phase
  obtain ⟨n, le, tally⟩ := bidInv_tally inv
  have deals : r.sent.countP Message.isDeal = 3 * r.dealCardCount :=
    (countP_record _ (fun _ hidden => (hidden_blind hidden).2.2.2.1) r.sent).symm.trans tally.deals
  have bids : r.sent.countP Message.isBid = 3 * (r.dealCardCount - 1) + n :=
    (countP_record _ (fun m hidden => by rw [Message.isBid, (hidden_blind hidden).1]; rfl)
      r.sent).symm.trans tally.bids
  have sets := (countP_record _ (fun _ hidden => (hidden_blind hidden).2.2.2.2)
    r.sent).symm.trans tally.sets
  have le_three : r.dealCardCount ≤ 3 := tally.le_three
  constructor
  · exact ⟨le_three, deals⟩
  · rw [bids]
    omega
  · intro rob p asked yes d
    exact bid_accepted (r := r) phase rob yes asked
  · intro unset
    obtain rfl | ⟨rob, p, rfl⟩ := unset_prompts (landlord.symm.trans unset)
    · right
      refine ⟨state, fun d => first_asked ?_⟩
      rw [show r.waits = [.dealCard] from congrArg Control.waits phase]
      exact List.mem_singleton_self _
    · left
      have same : ∀ q, (r.players q).state = only p (bidState rob) q := congrFun pstate
      simp only [same]
      exact only_unique rob p
  · rw [sets]
    split
    · exact Nat.zero_le 1
    · split <;> decide
  · intro begun
    rw [sets]
    rw [state] at begun
    cases ph with
    | dealt => exact absurd begun (by decide)
    | bidding rob p => exact absurd begun (bidRoom_early rob)
    | landlordDelay rob l => exact absurd begun (bidRoom_early rob)
    | _ => rfl
  · intro l e d r' set moved
    obtain same | act := Room.step_moves conf e d r r' moved
    · exact (congrArg Room.landlordPlayer same).trans set
    · obtain ⟨ph', trans, phase'⟩ := act_trans conf e d r.core r'.core phase act
      exact (congrArg Control.landlordPlayer phase').trans
        (trans_landlord (landlord.symm.trans set) trans)
  · intro l set
    obtain ⟨sets, settled⟩ := bidInv_settled inv (landlord.symm.trans set)
    exact landlordOf_core.symm.trans settled.landlord
  · intro set unforced unclaimed
    obtain ⟨l, set⟩ := Option.ne_none_iff_exists'.mp set
    obtain ⟨sets, settled⟩ := bidInv_settled inv (landlord.symm.trans set)
    exact settled.unclaimed (forcedIn_core.trans unforced)
      ((congrArg (List.find? isClaim) bidsIn_core).trans unclaimed)
  · intro l set early
    exact handsInv_hands (c := r.core) hands (landlord.symm.trans set) (state ▸ early)

end Result

theorem bidding_holds_called :
    ∃ r, Run (Room.step (.plain 1 Nat.one_pos)) anyStep (plainStart (.plain 1 Nat.one_pos))
      calledRun r ∧ r.landlordPlayer = some 0 ∧ BiddingHolds (.plain 1 Nat.one_pos) r := by
  have landlord : (exec (Room.step (.plain 1 Nat.one_pos)) (plainStart (.plain 1 Nat.one_pos))
      calledRun).map Room.landlordPlayer = some (some 0) := by decide +kernel
  obtain ⟨r, done, set⟩ := Option.map_eq_some_iff.mp landlord
  have run := run_of_exec _ _ r done
  exact ⟨r, run, set, bidding_holds run⟩

end HuluLandlord.Ddz
