import HuluLandlord.Ddz.Multiple
import HuluLandlord.Ddz.Settlement
import HuluLandlord.Transition

/-!
A game's beans between the room and the three agents. The room settles on balances it was told, each
agent applies its share of the settlement to the balance it has by then, and what an agent gains or
spends on its own reaches the room as a message. How the game is played is left out: it only decides
who wins and by which multiples.
-/
namespace HuluLandlord.Ddz
open Transition

/-- What the play of a game leaves to the settlement. -/
structure Stakes where
  difen : Int
  rewardMax : Int
  landlord : Seat
  winPlayer : Seat
  multiple : Seat → Nat
  difen_pos : 0 < difen
  multiple_pos : ∀ q, 0 < multiple q
  multiple_sum : multiple landlord = multiple (landlord + 1) + multiple (landlord + 2)

/-- `sent` are the balances on the way to the room, oldest first, and `settled` is what the settlement
has added (or removed). -/
structure BeanAgent where
  gold : Nat
  roomAddr : Bool
  sent : List Nat
  settled : Option Int
  deriving DecidableEq

/-- `gold` are the balances the room knows, `datas` the message all agents get. -/
structure BeanTable where
  agents : Seat → BeanAgent
  gold : Seat → Option Nat
  datas : Option (Seat → GameOverData)

inductive BeanEvent
  | RoomUserInfoGet (p : Seat)
  | add (p : Seat) (num : Nat)
  | remove (p : Seat) (num : Nat)
  | SyncRoomData (p : Seat)
  | gameover (stakes : Stakes)
  | RoomGameOver_C (p : Seat)

def seatSum (f : Seat → Int) : Int := f 0 + f 1 + f 2

namespace Stakes
variable (stakes : Stakes)

def isLandlord (q : Seat) : Bool := q = stakes.landlord

/-- The data of the players as the first loop of `gameover` collects them. -/
def datas (gold : Seat → Nat) (q : Seat) : GameOverData :=
  .start (stakes.multiple q) (stakes.isLandlord q = stakes.isLandlord stakes.winPlayer)
    (q = stakes.winPlayer) (stakes.isLandlord q) (gold q)

end Stakes

namespace BeanAgent

/-- The listener of `UserItemUpdate`. -/
def update (a : BeanAgent) (nowNum : Nat) : BeanAgent :=
  { a with gold := nowNum, sent := if a.roomAddr then a.sent ++ [nowNum] else a.sent }

/-- `RoomGameOver_C`: a winner gets the number of the message, a loser pays what he has of it. The
agent has left the room by then, which is told no more. -/
def gameOver (a : BeanAgent) (playerData : GameOverData) : BeanAgent :=
  let isWin := playerData.isWin || decide (playerData.goldChange ≥ 0)
  let goldChange := playerData.goldChange.natAbs
  if isWin then
    { a with roomAddr := false, gold := a.gold + goldChange, settled := some goldChange }
  else
    let goldChange := min goldChange a.gold
    { a with roomAddr := false, gold := a.gold - goldChange, settled := some (-goldChange) }

end BeanAgent

namespace BeanTable

def setAgent (s : BeanTable) (p : Seat) (a : BeanAgent) : BeanTable :=
  { s with agents := Function.update s.agents p a }

def step (s : BeanTable) : BeanEvent → Option BeanTable
  | .RoomUserInfoGet p =>
      if s.gold p = none then
        some { s.setAgent p { s.agents p with roomAddr := true } with
          gold := Function.update s.gold p (some (s.agents p).gold) }
      else none
  | .add p num => some (s.setAgent p ((s.agents p).update ((s.agents p).gold + num)))
  | .remove p num =>
      if num ≤ (s.agents p).gold then
        some (s.setAgent p ((s.agents p).update ((s.agents p).gold - num)))
      else some s
  | .SyncRoomData p =>
      match (s.agents p).sent, s.gold p with
      | num :: sent, some _ =>
          some { s.setAgent p { s.agents p with sent := sent } with
            gold := Function.update s.gold p (some num) }
      | _, _ => none
  | .gameover stakes =>
      if s.datas = none ∧ ∀ q, s.gold q ≠ none then
        (Ddz.gameover stakes.difen stakes.rewardMax
          (stakes.datas fun q => (s.gold q).getD 0)).map fun datas => { s with datas := some datas }
      else none
  | .RoomGameOver_C p =>
      match s.datas, (s.agents p).settled with
      | some datas, none => some (s.setAgent p ((s.agents p).gameOver (datas p)))
      | _, _ => none

/-- The beans the settlement has added to those who gained by it. -/
def added (s : BeanTable) : Int := seatSum fun q => max ((s.agents q).settled.getD 0) 0

def removed (s : BeanTable) : Int := seatSum fun q => max (-(s.agents q).settled.getD 0) 0

/-- A table before its players are seated. -/
def before (gold : Seat → Nat) : BeanTable :=
  ⟨fun q => ⟨gold q, false, [], none⟩, fun _ => none, none⟩

end BeanTable

/-- What the winners get from player `p`: his loss, without the bean the system eats. -/
def due (datas : Seat → GameOverData) (p : Seat) : Int :=
  -(datas p).goldChange + seatSum fun q => (datas q).goldChange

/-- A loser still has what the winners get from him when his agent hears of the settlement. -/
def Covered (s : BeanTable) : BeanEvent → Prop
  | .RoomGameOver_C p => ∀ datas, s.datas = some datas → (datas p).goldChange < 0 →
      due datas p ≤ (s.agents p).gold
  | _ => True

/-- The settlement as the agents see it: one side gains at most what the other side loses, and who has
won does not lose. -/
structure Paid (datas : Seat → GameOverData) (l : Seat) : Prop where
  winner : ∀ q, (datas q).isWin = true → 0 ≤ (datas q).goldChange
  sides : (datas l).goldChange ≤ 0 ∧ 0 ≤ (datas (l + 1)).goldChange ∧
        0 ≤ (datas (l + 2)).goldChange ∧ (seatSum fun q => (datas q).goldChange) ≤ 0 ∨
      0 ≤ (datas l).goldChange ∧ (datas (l + 1)).goldChange ≤ 0 ∧
        (datas (l + 2)).goldChange ≤ 0 ∧ (seatSum fun q => (datas q).goldChange) = 0

theorem Paid.least {datas : Seat → GameOverData} {l : Seat} (paid : Paid datas l) :
    (seatSum fun q => (datas q).goldChange) ≤ 0 := by
  obtain side | side := paid.sides
  · exact side.2.2.2
  · exact le_of_eq side.2.2.2

namespace Stakes
variable (stakes : Stakes) (gold : Seat → Nat)

/-- The game the settlement is given. -/
def game : Game where
  difen := stakes.difen
  rewardMax := stakes.rewardMax
  datas := stakes.datas gold
  landlord := stakes.landlord
  difen_pos := stakes.difen_pos
  isLandlord := fun _ => rfl
  isWin := by
    intro q farmer
    have other : stakes.isLandlord q = false := decide_eq_false farmer
    have own : stakes.isLandlord stakes.landlord = true := decide_eq_true rfl
    simp only [datas, GameOverData.start, other, own]
    cases stakes.isLandlord stakes.winPlayer with
    | true => rfl
    | false => rfl
  gold_nonneg := fun q => Int.natCast_nonneg _
  multiple_pos := stakes.multiple_pos
  multiple_sum := stakes.multiple_sum

end Stakes

theorem gameover_isWin {difen rewardMax : Int} {datas after : Seat → GameOverData}
    (done : gameover difen rewardMax datas = some after) (q : Seat) :
    (after q).isWin = (datas q).isWin := by
  rw [gameover] at done
  split at done
  · cases done
  · rename_i l _
    obtain rfl := Option.some.inj done
    have broke : ∀ data : GameOverData,
        (if data.isWin then data else { data with goldBrokeLast := data.goldChange }).isWin =
          data.isWin := by
      intro data
      split
      · rfl
      · rfl
    refine (broke _).trans ?_
    split
    · rename_i here
      rw [here]
      rfl
    · split
      · rfl
      · rfl

theorem gameover_paid {stakes : Stakes} {gold : Seat → Nat} {datas : Seat → GameOverData}
    (done : gameover stakes.difen stakes.rewardMax (stakes.datas gold) = some datas) :
    Paid datas stakes.landlord := by
  let game := stakes.game gold
  obtain ⟨after, done', _, paid, got⟩ := game.gameover_eq
  obtain rfl : datas = after := Option.some.inj (done.symm.trans done')
  have total : seatSum (fun q => (datas q).goldChange) = _ := game.goldChange_sum datas paid got
  have isWin : ∀ q, (datas q).isWin = (game.datas q).isWin := gameover_isWin done
  obtain ⟨first, second⟩ := Game.landlord_ne game.landlord
  have low := game.floor_limit_nonneg
  have sum := game.roundedSum_nonneg
  have change := game.landlordGoldChange_eq
  have others : ∀ q, q ≠ game.landlord →
      (game.datas q).isWin = !(game.datas game.landlord).isWin := game.isWin
  cases won : (game.datas game.landlord).isWin with
  | true =>
      rw [won] at change total
      simp only [Bool.true_eq_false, false_and, if_false] at change total
      have top : 0 ≤ (datas game.landlord).goldChange := by
        rw [paid, change, won]
        simpa [sign] using sum
      have farmer : ∀ q, q ≠ game.landlord → (datas q).goldChange ≤ 0 := by
        intro q other
        have below := low q
        rw [got q other, others q other, won]
        simpa [sign] using below
      refine ⟨fun q winner => ?_, .inr ⟨top, farmer _ first, farmer _ second, total⟩⟩
      by_cases here : q = game.landlord
      · rw [here]
        exact top
      · rw [isWin, others q here, won] at winner
        cases winner
  | false =>
      rw [won] at change
      have farmer : ∀ q, q ≠ game.landlord → 0 ≤ (datas q).goldChange := by
        intro q other
        have below := low q
        rw [got q other, others q other, won]
        simpa [sign] using below
      have bottom : (datas game.landlord).goldChange ≤ 0 := by
        rw [paid, change, won]
        split
        · simp only [sign, Bool.false_eq_true, if_false]
          omega
        · simp only [sign, Bool.false_eq_true, if_false]
          omega
      have least : seatSum (fun q => (datas q).goldChange) ≤ 0 := by
        rw [total]
        split
        · decide
        · exact le_refl 0
      refine ⟨fun q winner => ?_, .inl ⟨bottom, farmer _ first, farmer _ second, least⟩⟩
      by_cases here : q = game.landlord
      · rw [isWin, here, won] at winner
        cases winner
      · exact farmer q here

/-- The settlement takes from nobody more than the room knows him to have. -/
theorem gameover_affordable {stakes : Stakes} {gold : Seat → Nat} {datas : Seat → GameOverData}
    (done : gameover stakes.difen stakes.rewardMax (stakes.datas gold) = some datas) (q : Seat) :
    -(datas q).goldChange ≤ gold q := by
  let game := stakes.game gold
  obtain ⟨after, done', moved, paid, got⟩ := game.gameover_eq
  obtain rfl : datas = after := Option.some.inj (done.symm.trans done')
  have left := game.gold_after_nonneg datas moved paid got q
  have known : (game.datas q).gold = gold q := rfl
  rw [moved, known] at left
  omega

section Play
variable {conf : Conf} {agents : Seat → UserAgent} {gold : Seat → Int} {d : Draws}
  {es : List (Event × Draws)} {r : Room} {l : Seat}

/-- Whatever has been played, the room settles on stakes of this kind. -/
theorem stakes_of_run (difen_pos : 0 < conf.difen)
    (run : Run (Room.step conf) anyStep (Room.init conf agents gold d) es r)
    (set : r.landlordPlayer = some l) (winner : Seat) :
    ∃ stakes : Stakes, stakes.difen = conf.difen ∧
      stakes.rewardMax = getRewardMax conf.capped_num (fun p => (r.players p).doubleMaxMultiple) ∧
      ∀ known : Seat → Nat, (∀ q, (r.players q).gold = known q) →
        r.overData winner = stakes.datas known := by
  obtain ⟨own, told, doubled, multiple⟩ := run_multiplied run set
  have base := Nat.mul_pos told (doubled l)
  refine ⟨⟨conf.difen, _, l, winner, r.getMultiple, difen_pos, fun p => ?_, ?_⟩, rfl, rfl,
    fun known same => ?_⟩
  · rw [multiple]
    apply Nat.mul_pos base
    split
    · exact Nat.add_pos_left (doubled _) _
    · exact doubled p
  · obtain ⟨first, second⟩ := Game.landlord_ne l
    rw [multiple l, multiple (l + 1), multiple (l + 2), if_pos rfl, if_neg first, if_neg second,
      Nat.mul_add]
  · funext q
    simp only [Room.overData, Stakes.datas, Stakes.isLandlord, own, same]
    congr

end Play

namespace BeanAgent
variable {a : BeanAgent} {data : GameOverData}

theorem gameOver_gain (gain : 0 ≤ data.goldChange) :
    (a.gameOver data).settled = some data.goldChange := by
  have won : (data.isWin || decide (data.goldChange ≥ 0)) = true := by
    rw [decide_eq_true gain, Bool.or_true]
  simp only [gameOver, won, if_true]
  exact congrArg some (Int.natAbs_of_nonneg gain)

theorem gameOver_loss (lost : data.isWin = false) (loss : data.goldChange < 0) :
    (a.gameOver data).settled = some (-min (-data.goldChange) a.gold) := by
  have not_won : (data.isWin || decide (data.goldChange ≥ 0)) = false := by
    rw [lost, decide_eq_false (not_le.mpr loss), Bool.or_false]
  simp only [gameOver, not_won, Bool.false_eq_true, if_false]
  congr 1
  omega

theorem gameOver_left (data : GameOverData) :
    (a.gameOver data).roomAddr = false ∧ (a.gameOver data).sent = a.sent := by
  rw [gameOver]
  simp only
  split
  · exact ⟨rfl, rfl⟩
  · exact ⟨rfl, rfl⟩

end BeanAgent

namespace BeanTable
variable {s t : BeanTable} {e : BeanEvent}

@[simp] theorem settled_update {a : BeanAgent} {n : Nat} : (a.update n).settled = a.settled := rfl

/-- An agent replaced by one whose settlement is the same. -/
theorem settled_setAgent {p : Seat} {a : BeanAgent} (same : a.settled = (s.agents p).settled)
    (q : Seat) : ((s.setAgent p a).agents q).settled = (s.agents q).settled := by
  by_cases here : q = p
  · subst here
    simpa [setAgent] using same
  · simp [setAgent, here]

/-- What a step can do to the settlement. -/
theorem step_settled (moved : s.step e = some t) :
    ((∀ p, e ≠ .RoomGameOver_C p) ∧ t.datas = s.datas ∧
        ∀ p, (t.agents p).settled = (s.agents p).settled) ∨
      (∃ stakes gold datas, e = .gameover stakes ∧ s.datas = none ∧
        Ddz.gameover stakes.difen stakes.rewardMax (stakes.datas gold) = some datas ∧
        t = { s with datas := some datas }) ∨
      ∃ p datas, e = .RoomGameOver_C p ∧ s.datas = some datas ∧ (s.agents p).settled = none ∧
        t = s.setAgent p ((s.agents p).gameOver (datas p)) := by
  cases e with
  | RoomUserInfoGet p =>
      rw [step] at moved
      split at moved
      · obtain rfl := Option.some.inj moved
        exact .inl ⟨by rintro q ⟨⟩, rfl, settled_setAgent rfl⟩
      · cases moved
  | add p num =>
      obtain rfl := Option.some.inj moved
      exact .inl ⟨by rintro q ⟨⟩, rfl, settled_setAgent rfl⟩
  | remove p num =>
      rw [step] at moved
      split at moved
      · obtain rfl := Option.some.inj moved
        exact .inl ⟨by rintro q ⟨⟩, rfl, settled_setAgent rfl⟩
      · obtain rfl := Option.some.inj moved
        exact .inl ⟨by rintro q ⟨⟩, rfl, fun _ => rfl⟩
  | SyncRoomData p =>
      simp only [step] at moved
      split at moved
      · obtain rfl := Option.some.inj moved
        exact .inl ⟨by rintro q ⟨⟩, rfl, settled_setAgent rfl⟩
      · cases moved
  | gameover stakes =>
      rw [step] at moved
      split at moved
      · rename_i ready
        obtain ⟨datas, done, rfl⟩ := Option.map_eq_some_iff.mp moved
        exact .inr (.inl ⟨stakes, _, datas, rfl, ready.1, done, rfl⟩)
      · cases moved
  | RoomGameOver_C p =>
      simp only [step] at moved
      split at moved
      · rename_i datas told waiting
        obtain rfl := Option.some.inj moved
        exact .inr (.inr ⟨p, datas, rfl, told, waiting, rfl⟩)
      · cases moved

/-- Every agent that has heard of the settlement has taken its share of it, a loser perhaps less. -/
structure Settling (s : BeanTable) : Prop where
  playing : s.datas = none → ∀ p, (s.agents p).settled = none
  paid : ∀ datas, s.datas = some datas → ∃ l, Paid datas l
  gains : ∀ datas p c, s.datas = some datas → (s.agents p).settled = some c →
    0 ≤ (datas p).goldChange → c = (datas p).goldChange
  losses : ∀ datas p c, s.datas = some datas → (s.agents p).settled = some c →
    (datas p).goldChange < 0 → (datas p).goldChange ≤ c ∧ c ≤ 0

/-- Every loser so far has paid what the winners get from him. -/
def Full (s : BeanTable) : Prop :=
  ∀ datas p c, s.datas = some datas → (s.agents p).settled = some c →
    (datas p).goldChange < 0 → due datas p ≤ -c

theorem agents_self {p : Seat} {a : BeanAgent} : (s.setAgent p a).agents p = a :=
  Function.update_self _ _ _

theorem agents_other {p q : Seat} {a : BeanAgent} (other : q ≠ p) :
    (s.setAgent p a).agents q = s.agents q := Function.update_of_ne other _ _

theorem not_won {datas : Seat → GameOverData} {l p : Seat} (paid : Paid datas l)
    (loss : (datas p).goldChange < 0) : (datas p).isWin = false := by
  by_contra won
  exact absurd (paid.winner p (by simpa using won)) (not_le.mpr loss)

theorem settling_step (inv : Settling s) (moved : s.step e = some t) : Settling t := by
  obtain ⟨_, told, settled⟩ | ⟨stakes, gold, datas, _, before, done, rfl⟩ |
    ⟨p, datas, _, told, _, rfl⟩ := step_settled moved
  · refine ⟨?_, ?_, ?_, ?_⟩
    · intro none p
      rw [settled]
      exact inv.playing (told ▸ none) p
    · intro datas here
      exact inv.paid datas (told ▸ here)
    · intro datas p c here share
      rw [settled] at share
      exact inv.gains datas p c (told ▸ here) share
    · intro datas p c here share
      rw [settled] at share
      exact inv.losses datas p c (told ▸ here) share
  · have unsettled := inv.playing before
    refine ⟨?_, ?_, ?_, ?_⟩
    · intro none
      cases none
    · intro datas' here
      obtain rfl := Option.some.inj here
      exact ⟨_, gameover_paid done⟩
    · intro datas' p c _ share
      nomatch (unsettled p).symm.trans share
    · intro datas' p c _ share
      nomatch (unsettled p).symm.trans share
  · obtain ⟨l, paid⟩ := inv.paid datas told
    refine ⟨?_, inv.paid, ?_, ?_⟩
    · intro none
      nomatch told.symm.trans none
    · intro datas' q c here share gain
      obtain rfl := Option.some.inj (told.symm.trans here)
      by_cases same : q = p
      · subst same
        rw [agents_self, BeanAgent.gameOver_gain gain] at share
        exact (Option.some.inj share).symm
      · rw [agents_other same] at share
        exact inv.gains datas q c told share gain
    · intro datas' q c here share loss
      obtain rfl := Option.some.inj (told.symm.trans here)
      by_cases same : q = p
      · subst same
        rw [agents_self, BeanAgent.gameOver_loss (not_won paid loss) loss] at share
        obtain rfl := Option.some.inj share
        omega
      · rw [agents_other same] at share
        exact inv.losses datas q c told share loss

theorem full_step (inv : Settling s) (full : Full s) (covered : Covered s e)
    (moved : s.step e = some t) : Full t := by
  obtain ⟨_, told, settled⟩ | ⟨stakes, gold, datas, _, before, _, rfl⟩ |
    ⟨p, datas, rfl, told, _, rfl⟩ := step_settled moved
  · intro datas p c here share
    rw [settled] at share
    exact full datas p c (told ▸ here) share
  · intro datas' p c _ share
    nomatch (inv.playing before p).symm.trans share
  · obtain ⟨l, paid⟩ := inv.paid datas told
    intro datas' q c here share loss
    obtain rfl := Option.some.inj (told.symm.trans here)
    by_cases same : q = p
    · subst same
      have enough := covered datas told loss
      have least := paid.least
      rw [agents_self, BeanAgent.gameOver_loss (not_won paid loss) loss] at share
      obtain rfl := Option.some.inj share
      rw [due] at enough ⊢
      omega
    · rw [agents_other same] at share
      exact full datas q c told share loss

/-- Once a loser has paid too little, that stays so. -/
theorem short_step (moved : s.step e = some t) (short : ¬Full s) : ¬Full t := by
  intro full
  apply short
  intro datas q c told share loss
  obtain ⟨_, same, settled⟩ | ⟨stakes, gold, datas', _, before, _, rfl⟩ |
    ⟨p, datas', rfl, _, waiting, rfl⟩ := step_settled moved
  · exact full datas q c (same.trans told) ((settled q).trans share) loss
  · cases before.symm.trans told
  · by_cases here : q = p
    · subst here
      nomatch waiting.symm.trans share
    · refine full datas q c told ?_ loss
      rw [agents_other here, share]

/-- So only what is spent without the room knowing can leave a loser uncovered. -/
theorem covered_of_known {stakes : Stakes} {gold : Seat → Nat} {datas : Seat → GameOverData}
    {p : Seat} (done : Ddz.gameover stakes.difen stakes.rewardMax (stakes.datas gold) = some datas)
    (told : s.datas = some datas) (kept : gold p ≤ (s.agents p).gold) :
    Covered s (.RoomGameOver_C p) := by
  intro datas' here _
  obtain rfl := Option.some.inj (told.symm.trans here)
  have affordable := gameover_affordable done p
  have least : (seatSum fun q => (datas q).goldChange) ≤ 0 := (gameover_paid done).least
  rw [due]
  omega

theorem short_of_uncovered (inv : Settling s) (moved : s.step e = some t)
    (uncovered : ¬Covered s e) : ¬Full t := by
  obtain ⟨other, _, _⟩ | ⟨stakes, gold, datas, rfl, _, _, _⟩ |
    ⟨p, datas, rfl, told, _, rfl⟩ := step_settled moved
  · cases e with
    | RoomGameOver_C p => exact absurd rfl (other p)
    | _ => exact absurd trivial uncovered
  · exact absurd trivial uncovered
  · obtain ⟨l, paid⟩ := inv.paid datas told
    intro full
    apply uncovered
    intro datas' here loss
    obtain rfl := Option.some.inj (told.symm.trans here)
    have share := BeanAgent.gameOver_loss (a := s.agents p) (not_won paid loss) loss
    have enough := full datas p _ told (by rw [agents_self]; exact share) loss
    omega

theorem seatSum_from (f : Seat → Int) (l : Seat) :
    seatSum f = f l + f (l + 1) + f (l + 2) := Game.seats_sum f l

theorem seats_from (l : Seat) (q : Seat) : q = l ∨ q = l + 1 ∨ q = l + 2 := by
  revert l q
  decide

/-- Who gains gains all he was promised. -/
theorem Settling.gained {datas : Seat → GameOverData} {p : Seat} {c : Int} (inv : Settling s)
    (told : s.datas = some datas) (settled : (s.agents p).settled = some c)
    (gain : 0 ≤ (datas p).goldChange) : max c 0 = (datas p).goldChange ∧ max (-c) 0 = 0 := by
  rw [inv.gains datas p c told settled gain]
  exact ⟨max_eq_left gain, max_eq_right (neg_nonpos.mpr gain)⟩

theorem Settling.lost {datas : Seat → GameOverData} {p : Seat} {c : Int} (inv : Settling s)
    (told : s.datas = some datas) (settled : (s.agents p).settled = some c)
    (loss : (datas p).goldChange ≤ 0) :
    max c 0 = 0 ∧ max (-c) 0 = -c ∧ -c ≤ -(datas p).goldChange := by
  have bounds : (datas p).goldChange ≤ c ∧ c ≤ 0 := by
    obtain loss | none := loss.lt_or_eq
    · exact inv.losses datas p c told settled loss
    · rw [inv.gains datas p c told settled (le_of_eq none.symm), none]
      exact ⟨le_refl 0, le_refl 0⟩
  exact ⟨max_eq_right bounds.2, max_eq_left (neg_nonneg.mpr bounds.2), neg_le_neg bounds.1⟩

/-- What a player pays covers what the winners get from him, also where that is nothing. -/
theorem Full.pays {datas : Seat → GameOverData} {p : Seat} {c : Int} (full : Full s)
    (inv : Settling s) (told : s.datas = some datas) (settled : (s.agents p).settled = some c)
    (loss : (datas p).goldChange ≤ 0) (least : (seatSum fun q => (datas q).goldChange) ≤ 0) :
    due datas p ≤ -c := by
  obtain loss | none := loss.lt_or_eq
  · exact full datas p c told settled loss
  · rw [due, inv.gains datas p c told settled (le_of_eq none.symm), none, neg_zero, zero_add]
    exact least

/-- When all three have settled, the winners have all they were promised, so only what the losers paid
is in question. -/
theorem added_le_iff (inv : Settling s) (done : ∀ p, (s.agents p).settled ≠ none) :
    s.added ≤ s.removed ↔ Full s := by
  have share : ∀ p, ∃ c, (s.agents p).settled = some c := fun p => Option.ne_none_iff_exists'.mp (done p)
  obtain ⟨datas, told⟩ : ∃ datas, s.datas = some datas := by
    cases told : s.datas with
    | none => exact absurd (inv.playing told 0) (done 0)
    | some datas => exact ⟨datas, rfl⟩
  obtain ⟨l, paid⟩ := inv.paid datas told
  obtain ⟨c₀, own⟩ := share l
  obtain ⟨c₁, first⟩ := share (l + 1)
  obtain ⟨c₂, second⟩ := share (l + 2)
  have total := seatSum_from (fun q => (datas q).goldChange) l
  rw [added, removed, seatSum_from _ l, seatSum_from _ l, own, first, second]
  simp only [Option.getD_some]
  obtain ⟨pays, gets, gets', least⟩ | ⟨gets, pays, pays', even⟩ := paid.sides
  · have cost := inv.lost told own pays
    have gain := inv.gained told first gets
    have gain' := inv.gained told second gets'
    rw [cost.1, cost.2.1, gain.1, gain.2, gain'.1, gain'.2]
    constructor
    · intro enough datas' p c here settled loss
      obtain rfl := Option.some.inj (told.symm.trans here)
      rw [due]
      obtain rfl | rfl | rfl := seats_from l p
      · obtain rfl := Option.some.inj (own.symm.trans settled)
        linarith only [enough, total]
      · exact absurd loss (not_lt.mpr gets)
      · exact absurd loss (not_lt.mpr gets')
    · intro full
      have own_full := full.pays inv told own pays least
      rw [due] at own_full
      linarith only [own_full, total]
  · have gain := inv.gained told own gets
    have cost := inv.lost told first pays
    have cost' := inv.lost told second pays'
    rw [gain.1, gain.2, cost.1, cost.2.1, cost'.1, cost'.2.1]
    constructor
    · intro enough datas' p c here settled loss
      obtain rfl := Option.some.inj (told.symm.trans here)
      rw [due]
      obtain rfl | rfl | rfl := seats_from l p
      · exact absurd loss (not_lt.mpr gets)
      · obtain rfl := Option.some.inj (first.symm.trans settled)
        linarith only [enough, total, even, cost'.2.2]
      · obtain rfl := Option.some.inj (second.symm.trans settled)
        linarith only [enough, total, even, cost.2.2]
    · intro full
      have first_full := full.pays inv told first pays (le_of_eq even)
      have second_full := full.pays inv told second pays' (le_of_eq even)
      rw [due] at first_full second_full
      linarith only [first_full, second_full, total, even]

theorem settling_before (gold : Seat → Nat) : Settling (before gold) :=
  ⟨fun _ _ => rfl, by rintro _ ⟨⟩, by rintro _ _ _ ⟨⟩, by rintro _ _ _ ⟨⟩⟩

theorem full_before (gold : Seat → Nat) : Full (before gold) := by rintro _ _ _ ⟨⟩

theorem covered_full {gold : Seat → Nat} {events : List BeanEvent}
    (run : Run step Covered (before gold) events s) : Settling s ∧ Full s :=
  run.invariant (fun s => Settling s ∧ Full s) ⟨settling_before gold, full_before gold⟩
    fun _ _ _ inv covered moved =>
      ⟨settling_step inv.1 moved, full_step inv.1 inv.2 covered moved⟩

/-- A run in which every loser has paid in full has covered steps only. -/
theorem full_covered {gold : Seat → Nat} {events : List BeanEvent}
    (run : Run step anyStep (before gold) events s) :
    Settling s ∧ (Full s → Run step Covered (before gold) events s) := by
  induction run with
  | refl => exact ⟨settling_before gold, fun _ => .refl⟩
  | @next es t u e _ _ moved ih =>
      obtain ⟨inv, steps⟩ := ih
      refine ⟨settling_step inv moved, fun full => ?_⟩
      have earlier : Full t := by
        by_contra short
        exact short_step moved short full
      have covered : Covered t e := by
        by_contra uncovered
        exact short_of_uncovered inv moved uncovered full
      exact .next (steps earlier) covered moved

/-- A game makes no beans if and only if every loser still has what is due when his agent hears of the
settlement. -/
theorem run_beans {gold : Seat → Nat} {events : List BeanEvent}
    (run : Run step anyStep (before gold) events s)
    (done : ∀ p, (s.agents p).settled ≠ none) :
    s.added ≤ s.removed ↔ Run step Covered (before gold) events s := by
  obtain ⟨inv, covered⟩ := full_covered run
  rw [added_le_iff inv done]
  exact ⟨covered, fun run => (covered_full run).2⟩

/-- What the room knows of a seated player lags behind his balance by the messages on the way. -/
structure Synced (s : BeanTable) (p : Seat) : Prop where
  unseated : s.gold p = none → (s.agents p).roomAddr = false ∧ (s.agents p).sent = []
  seated : ∀ known, s.gold p = some known → (s.agents p).roomAddr = true →
    (s.agents p).gold = (s.agents p).sent.getLast?.getD known

theorem synced_update {p q : Seat} {nowNum : Nat} (inv : Synced s q) :
    Synced (s.setAgent p ((s.agents p).update nowNum)) q := by
  by_cases here : q = p
  · subst here
    refine ⟨fun unknown => ?_, fun known told inside => ?_⟩
    · obtain ⟨outside, none⟩ := inv.unseated unknown
      rw [agents_self]
      exact ⟨outside, by rw [BeanAgent.update, outside]; exact none⟩
    · rw [agents_self] at inside ⊢
      have inside : (s.agents q).roomAddr = true := inside
      simp only [BeanAgent.update, inside, if_true, List.getLast?_append, List.getLast?_singleton,
        Option.some_or, Option.getD_some]
  · refine ⟨fun unknown => ?_, fun known told inside => ?_⟩
    · rw [agents_other here]
      exact inv.unseated unknown
    · rw [agents_other here] at inside ⊢
      exact inv.seated known told inside

theorem synced_step {q : Seat} (inv : Synced s q) (moved : s.step e = some t) : Synced t q := by
  cases e with
  | RoomUserInfoGet p =>
      rw [step] at moved
      split at moved
      · rename_i unknown
        obtain rfl := Option.some.inj moved
        by_cases here : q = p
        · subst here
          refine ⟨fun none => ?_, fun known told _ => ?_⟩
          · simp only [Function.update_self] at none
            cases none
          · simp only [Function.update_self] at told
            obtain rfl := Option.some.inj told
            simp only [agents_self, (inv.unseated unknown).2, List.getLast?_nil, Option.getD_none]
        · refine ⟨fun none => ?_, fun known told inside => ?_⟩
          · simp only [Function.update_of_ne here] at none
            simp only [agents_other here]
            exact inv.unseated none
          · simp only [Function.update_of_ne here] at told
            simp only [agents_other here] at inside ⊢
            exact inv.seated known told inside
      · cases moved
  | add p num =>
      obtain rfl := Option.some.inj moved
      exact synced_update inv
  | remove p num =>
      rw [step] at moved
      split at moved
      · obtain rfl := Option.some.inj moved
        exact synced_update inv
      · obtain rfl := Option.some.inj moved
        exact inv
  | SyncRoomData p =>
      simp only [step] at moved
      split at moved
      · rename_i num sent before onWay _
        obtain rfl := Option.some.inj moved
        by_cases here : q = p
        · subst here
          refine ⟨fun none => ?_, fun known told inside => ?_⟩
          · simp only [Function.update_self] at none
            cases none
          · simp only [Function.update_self] at told
            obtain rfl := Option.some.inj told
            simp only [agents_self] at inside ⊢
            have lag := inv.seated _ ‹_› inside
            rw [lag, onWay, List.getLast?_cons]
            rfl
        · refine ⟨fun none => ?_, fun known told inside => ?_⟩
          · simp only [Function.update_of_ne here] at none
            simp only [agents_other here]
            exact inv.unseated none
          · simp only [Function.update_of_ne here] at told
            simp only [agents_other here] at inside ⊢
            exact inv.seated known told inside
      · cases moved
  | gameover stakes =>
      rw [step] at moved
      split at moved
      · obtain ⟨datas, _, rfl⟩ := Option.map_eq_some_iff.mp moved
        exact ⟨inv.unseated, inv.seated⟩
      · cases moved
  | RoomGameOver_C p =>
      simp only [step] at moved
      split at moved
      · obtain rfl := Option.some.inj moved
        by_cases here : q = p
        · subst here
          have left := BeanAgent.gameOver_left (a := s.agents q)
          refine ⟨fun none => ?_, fun known told inside => ?_⟩
          · rw [agents_self, (left _).2]
            exact ⟨(left _).1, (inv.unseated none).2⟩
          · rw [agents_self, (left _).1] at inside
            cases inside
        · refine ⟨fun none => ?_, fun known told inside => ?_⟩
          · rw [agents_other here]
            exact inv.unseated none
          · rw [agents_other here] at inside ⊢
            exact inv.seated known told inside
      · cases moved

theorem run_lagging {gold : Seat → Nat} {events : List BeanEvent}
    (run : Run step anyStep (before gold) events s) (q : Seat) : Synced s q :=
  run.invariant (fun s => Synced s q) ⟨fun _ => ⟨rfl, rfl⟩, by rintro _ ⟨⟩⟩
    fun _ _ _ inv _ moved => synced_step inv moved

/-- A loser who is still in the room when it settles, with none of his messages on the way, and who has
lost nothing since, is covered. -/
theorem run_covered {gold known : Seat → Nat} {events : List BeanEvent} {stakes : Stakes}
    {datas : Seat → GameOverData} {p : Seat} (run : Run step anyStep (before gold) events s)
    (told : s.gold p = some (known p)) (inside : (s.agents p).roomAddr = true)
    (arrived : (s.agents p).sent = [])
    (done : Ddz.gameover stakes.difen stakes.rewardMax (stakes.datas known) = some datas)
    (settled : t.datas = some datas) (kept : (s.agents p).gold ≤ (t.agents p).gold) :
    Covered t (.RoomGameOver_C p) := by
  have lag := (run_lagging run p).seated (known p) told inside
  rw [arrived, List.getLast?_nil, Option.getD_none] at lag
  rw [lag] at kept
  exact covered_of_known done settled kept

/-- A landlord and two farmers with a hundred beans each, who play for ten. -/
def tenBeans : Stakes where
  difen := 10
  rewardMax := -1
  landlord := 0
  winPlayer := 0
  multiple := fun q => if q = 0 then 2 else 1
  difen_pos := by decide
  multiple_pos := by decide
  multiple_sum := by decide

def hundred : Seat → Nat := fun _ => 100

def seatedAll : List BeanEvent := [.RoomUserInfoGet 0, .RoomUserInfoGet 1, .RoomUserInfoGet 2]

def settledAll : List BeanEvent := [.RoomGameOver_C 0, .RoomGameOver_C 1, .RoomGameOver_C 2]

theorem run_beans_ten :
    ∃ s, (s.added = 20 ∧ s.removed = 20) ∧
      Run step Covered (before hundred) (seatedAll ++ [.gameover tenBeans] ++ settledAll) s := by
  have run := @run_of_exec _ _ step (before hundred) (seatedAll ++ [.gameover tenBeans] ++ settledAll)
    _ rfl
  refine ⟨_, ?_, (run_beans run ?_).mp ?_⟩
  · decide +kernel
  · decide +kernel
  · decide +kernel

/-- A farmer spends his beans, and the room settles before it is told. -/
theorem beans_fail :
    ¬ ∀ (gold : Seat → Nat) (events : List BeanEvent) (s : BeanTable),
      Run step anyStep (before gold) events s → (∀ p, (s.agents p).settled ≠ none) →
        s.added ≤ s.removed := by
  intro claim
  have run := @run_of_exec _ _ step (before hundred)
    (seatedAll ++ [.remove 1 100, .gameover tenBeans] ++ settledAll) _ rfl
  exact absurd (claim _ _ _ run (by decide +kernel)) (by decide +kernel)

end BeanTable
end HuluLandlord.Ddz
