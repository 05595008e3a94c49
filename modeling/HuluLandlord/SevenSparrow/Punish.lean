import HuluLandlord.SevenSparrow.GameStart
import HuluLandlord.Utils.Share

/-!
The punishment at the end of a game: whoever could not win with any card pays those who could. The shares
are computed with doubles, one of them rounded up and the others down.
-/
namespace HuluLandlord.SevenSparrow
open Shuffle Share
open Ddz (Card V C)

structure Ting where
  pid : Chair
  type : CardType
  multiple : Nat
  win_gold : Int
  gold : Int
  deriving DecidableEq, Repr

structure PunishmentBill where
  id : Chair
  win_gold : Int
  gold : Int
  type : Option CardType
  tag : String
  deriving DecidableEq, Repr

/-- `qique.max_ting`: a win with the small joker. -/
def Conf.max_ting (conf : Conf) (hand : List Card) : Option (CardType × Nat) := conf.check_hu hand 0x5e

/-- `(t.multiple / all_multiple) * lose_gold`. -/
def share (multiple all_multiple : Nat) (lose_gold : Int) : ℚ :=
  Share.mul (Share.div multiple all_multiple) lose_gold

/-- What one of the others pays, to the players in the order of the list. -/
def receive (luck_index all_multiple : Nat) (lose_gold : Int) (ting : List Ting) : List Ting :=
  ting.mapIdx fun i t => { t with
    win_gold := t.win_gold + part (i + 1 = luck_index) (share t.multiple all_multiple lose_gold) }

namespace Room

def tingOf (conf : Conf) (b : Room) (p : Chair) : Option Ting :=
  (conf.max_ting (b.players p).cards).map fun found =>
    ⟨p, found.1, found.2, 0, (b.players p).gold⟩

def gaming (b : Room) : List Chair := (List.finRange 4).filter fun p => (b.players p).gameing

def get_ting_and_not_ting_players (conf : Conf) (b : Room) : List Ting × List Chair :=
  (b.gaming.filterMap (b.tingOf conf), b.gaming.filter fun p => (b.tingOf conf p).isNone)

def lose_gold (b : Room) (need_gold : Int) (p : Chair) : Int :=
  if need_gold ≤ (b.players p).gold then need_gold else (b.players p).gold

/-- `add_gold` with its assertion. -/
def add_gold (b : Room) (p : Chair) (num : Int) : Option Room :=
  if (b.players p).gold + num < 0 then none else some (b.setGold p ((b.players p).added num))

/-- The bills; `n` is drawn for the player whose shares are rounded up. -/
def bills (conf : Conf) (b : Room) (n : Nat) : List PunishmentBill :=
  let (ting, others) := b.get_ting_and_not_ting_players conf
  let need_gold := (ting.map fun t => (t.multiple * conf.difen : Int)).sum
  let all_multiple := (ting.map Ting.multiple).sum
  if ting.length > 0 ∧ others.length > 0 then
    let luck_index := random 1 ting.length n
    let ting := others.foldl
      (fun ting p => receive luck_index all_multiple (b.lose_gold need_gold p) ting) ting
    others.map (fun p => ⟨p, -b.lose_gold need_gold p,
      (b.players p).gold - b.lose_gold need_gold p, none, ""⟩) ++
    ting.map fun t => ⟨t.pid, t.win_gold, t.gold + t.win_gold, some t.type, ""⟩
  else []

/-- The room after the bills are paid, and the bills; nothing where an assertion fails. -/
def punishment_bills (conf : Conf) (b : Room) (n : Nat) : Option (Room × List PunishmentBill) :=
  ((b.bills conf n).foldlM (fun (b : Room) bill => b.add_gold bill.id bill.win_gold) b).map fun b' =>
    (b', b.bills conf n)

variable (conf : Conf) (b : Room)

def ting : List Ting := (b.get_ting_and_not_ting_players conf).1

def others : List Chair := (b.get_ting_and_not_ting_players conf).2

def all_multiple : Nat := ((b.ting conf).map Ting.multiple).sum

/-- What one of the others pays. -/
def loss (p : Chair) : Int := b.lose_gold ((b.ting conf).map fun t => (t.multiple * conf.difen : Int)).sum p

/-- The exact share of what one of the others pays. -/
def owed (t : Ting) (p : Chair) : ℚ := quota (b.all_multiple conf) (b.loss conf p).toNat t.multiple

/-- The shares computed with doubles round to the same numbers of beans as the exact ones. -/
def SharesExact : Prop := ∀ p ∈ b.others conf, ∀ t ∈ b.ting conf,
  ⌊share t.multiple (b.all_multiple conf) (b.loss conf p)⌋ = ⌊b.owed conf t p⌋ ∧
    ⌈share t.multiple (b.all_multiple conf) (b.loss conf p)⌉ = ⌈b.owed conf t p⌉

/-- A settlement of the punishment without loss. -/
structure Settled (b' : Room) (bills : List PunishmentBill) : Prop where
  zero_sum : (bills.map PunishmentBill.win_gold).sum = 0
  payable : ∀ bill ∈ bills, -bill.win_gold ≤ (b.players bill.id).gold
  gold_nonneg : ∀ p, 0 ≤ (b'.players p).gold
  received : b.others conf ≠ [] → ∀ t ∈ b.ting conf, ∃ bill ∈ bills, bill.id = t.pid ∧
    |(bill.win_gold : ℚ) - ((b.others conf).map (b.owed conf t)).sum| < (b.others conf).length
  balances : ∀ bill ∈ bills, (b'.players bill.id).gold = (b.players bill.id).gold + bill.win_gold ∧
    bill.gold = (b.players bill.id).gold + bill.win_gold
  unbilled : ∀ p, (∀ bill ∈ bills, bill.id ≠ p) → b'.players p = b.players p

/-- The punishment raises nothing and loses nothing. -/
def Punishes (n : Nat) : Prop :=
  ∃ b' bills, b.punishment_bills conf n = some (b', bills) ∧ b.Settled conf b' bills

/-- What every one of the others pays divides without a bean left over, and no user who has something is
charged or paid nothing. -/
structure Divides (n : Nat) : Prop where
  even : ∀ p ∈ b.others conf, Even (random 1 (b.ting conf).length n - 1) (b.all_multiple conf)
    (b.loss conf p).toNat ((b.ting conf).map Ting.multiple)
  charged : ∀ p ∈ b.others conf, (b.players p).robot = false → (b.players p).gold ≠ 0 →
    b.all_multiple conf * conf.difen ≠ 0
  paid : ∀ (i : Nat) (t : Ting), (b.ting conf)[i]? = some t → (b.players t.pid).robot = false → t.gold ≠ 0 →
    ∃ p ∈ b.others conf, 0 < t.multiple * (b.loss conf p).toNat ∧
      (i + 1 = random 1 (b.ting conf).length n ∨
        b.all_multiple conf ≤ t.multiple * (b.loss conf p).toNat)

end Room

section Pay
variable {luck all : Nat} {g : Int} {ts : List Ting}

theorem receive_getElem (i : Nat) : (receive luck all g ts)[i]? = ts[i]?.map fun t =>
    { t with win_gold := t.win_gold + part (i + 1 = luck) (share t.multiple all g) } := by
  simp only [receive, List.getElem?_mapIdx]

/-- All that the players are paid, one after the other. -/
theorem pays_getElem (losses : List Int) (i : Nat) :
    (losses.foldl (fun ting g => receive luck all g ting) ts)[i]? = ts[i]?.map fun t =>
      { t with win_gold := t.win_gold +
          (losses.map fun g => part (i + 1 = luck) (share t.multiple all g)).sum } := by
  induction losses generalizing ts with
  | nil => simp
  | cons g losses ih =>
      rw [List.foldl_cons, ih, receive_getElem, Option.map_map]
      congr 1
      funext t
      simp only [Function.comp_apply, List.map_cons, List.sum_cons, Int.add_assoc]

theorem receive_multiples : (receive luck all g ts).map Ting.multiple = ts.map Ting.multiple := by
  refine List.ext_getElem? fun i => ?_
  rw [List.getElem?_map, receive_getElem, Option.map_map, List.getElem?_map]
  rfl

/-- What one player pays is the sum of what the others get. -/
theorem receive_sum (first : 1 ≤ luck) : ((receive luck all g ts).map Ting.win_gold).sum =
    (ts.map Ting.win_gold).sum +
      (parts (luck - 1) ((ts.map Ting.multiple).map fun multiple => share multiple all g)).sum := by
  have wins : (receive luck all g ts).map Ting.win_gold =
      ts.mapIdx fun i t => t.win_gold + part (i + 1 = luck) (share t.multiple all g) := by
    refine List.ext_getElem? fun i => ?_
    rw [List.getElem?_map, receive_getElem, Option.map_map, List.getElem?_mapIdx]
    rfl
  have shares : parts (luck - 1) ((ts.map Ting.multiple).map fun multiple => share multiple all g) =
      ts.mapIdx fun i t => part (i + 1 = luck) (share t.multiple all g) := by
    refine List.ext_getElem? fun i => ?_
    have here : i = luck - 1 ↔ i + 1 = luck := by omega
    simp only [parts, List.getElem?_mapIdx, List.getElem?_map, Option.map_map, here]
    rfl
  rw [wins, shares, sum_mapIdx_add]

theorem pays_sum (first : 1 ≤ luck) (losses : List Int) :
    ((losses.foldl (fun ting g => receive luck all g ting) ts).map Ting.win_gold).sum =
      (ts.map Ting.win_gold).sum + (losses.map fun g =>
        (parts (luck - 1) ((ts.map Ting.multiple).map fun multiple => share multiple all g)).sum).sum := by
  induction losses generalizing ts with
  | nil => simp
  | cons g losses ih =>
      rw [List.foldl_cons, ih, receive_sum first, receive_multiples, List.map_cons, List.sum_cons, Int.add_assoc]

end Pay

section Gold
variable {b b' : Room} {pl : Player} {num : Int}

theorem added_nonneg (covered : 0 ≤ pl.gold + num) : 0 ≤ pl.added num := by
  simp only [Player.added, Player.removed]
  split
  · exact covered
  split
  · exact covered
  split
  · exact le_refl 0
  · omega

/-- A user who is charged or paid nothing is told that he has nothing. -/
theorem added_eq (covered : 0 ≤ pl.gold + num) :
    pl.added num = pl.gold + num ↔ (pl.robot = false → pl.gold ≠ 0 → num ≠ 0) := by
  simp only [Player.added, Player.removed]
  cases pl.robot with
  | true => simp
  | false =>
      simp only [Bool.false_eq_true, if_false, true_imp_iff, forall_const]
      split
      · omega
      · split
        · omega
        · omega

theorem add_gold_eq {p : Chair} (covered : 0 ≤ (b.players p).gold + num) :
    b.add_gold p num = some (b.setGold p ((b.players p).added num)) := by
  rw [Room.add_gold, if_neg (by omega)]

/-- Bills of different players are paid one by one. -/
theorem foldlM_add_gold {bills : List PunishmentBill} (fresh : (bills.map PunishmentBill.id).Nodup)
    (covered : ∀ bill ∈ bills, 0 ≤ (b.players bill.id).gold + bill.win_gold) :
    ∃ b', bills.foldlM (fun (b : Room) bill => b.add_gold bill.id bill.win_gold) b = some b' ∧
      (∀ bill ∈ bills, (b'.players bill.id).gold = (b.players bill.id).added bill.win_gold) ∧
      ∀ p, (∀ bill ∈ bills, bill.id ≠ p) → b'.players p = b.players p := by
  induction bills generalizing b with
  | nil => exact ⟨b, rfl, fun _ mem => absurd mem List.not_mem_nil, fun _ _ => rfl⟩
  | cons bill bills ih =>
      rw [List.map_cons, List.nodup_cons] at fresh
      have other : ∀ bill' ∈ bills, bill'.id ≠ bill.id := fun bill' mem same =>
        fresh.1 (same ▸ List.mem_map_of_mem mem)
      have kept : ∀ p, p ≠ bill.id →
          (b.setGold bill.id ((b.players bill.id).added bill.win_gold)).players p = b.players p :=
        fun p differ => Function.update_of_ne differ _ _
      have later : ∀ bill' ∈ bills, 0 ≤ ((b.setGold bill.id
          ((b.players bill.id).added bill.win_gold)).players bill'.id).gold + bill'.win_gold := by
        intro bill' mem
        rw [kept _ (other bill' mem)]
        exact covered bill' (List.mem_cons_of_mem bill mem)
      obtain ⟨b', done, paid, unbilled⟩ := ih fresh.2 later
      refine ⟨b', ?_, fun bill' mem => ?_, fun p none_ => ?_⟩
      · rw [List.foldlM_cons, add_gold_eq (covered bill List.mem_cons_self)]
        exact done
      · obtain rfl | mem := List.mem_cons.mp mem
        · rw [unbilled bill'.id other]
          simp [Room.setGold, Room.modify]
        · rw [paid bill' mem, kept _ (other bill' mem)]
      · rw [unbilled p fun bill' mem => none_ bill' (List.mem_cons_of_mem bill mem),
          kept p (Ne.symm (none_ bill List.mem_cons_self))]

end Gold

section Split
variable {conf : Conf} {b : Room} {n : Nat} {p : Chair} {t : Ting}

namespace Room

/-- The position of the player whose shares are rounded up, from one on. -/
def luck_index (conf : Conf) (b : Room) (n : Nat) : Nat := random 1 (b.ting conf).length n

/-- The players who could win, with what they are paid. -/
def winners (conf : Conf) (b : Room) (n : Nat) : List Ting :=
  ((b.others conf).map (b.loss conf)).foldl
    (fun ting g => receive (b.luck_index conf n) (b.all_multiple conf) g ting) (b.ting conf)

/-- What the player at position `i` gets, by the exact shares. -/
def gain (conf : Conf) (b : Room) (n i : Nat) (t : Ting) : Int :=
  ((b.others conf).map fun p => part (i + 1 = b.luck_index conf n) (b.owed conf t p)).sum

end Room

theorem mem_ting : t ∈ b.ting conf ↔ (b.players t.pid).gameing = true ∧ b.tingOf conf t.pid = some t := by
  have own : ∀ p, b.tingOf conf p = some t → t.pid = p := by
    intro p found
    obtain ⟨win, -, rfl⟩ := Option.map_eq_some_iff.mp found
    rfl
  simp only [Room.ting, Room.get_ting_and_not_ting_players, Room.gaming, List.mem_filterMap, List.mem_filter]
  constructor
  · rintro ⟨p, ⟨-, gaming⟩, found⟩
    rw [own p found]
    exact ⟨gaming, found⟩
  · rintro ⟨gaming, found⟩
    exact ⟨t.pid, ⟨List.mem_finRange _, gaming⟩, found⟩

theorem ting_fresh (mem : t ∈ b.ting conf) : t.win_gold = 0 ∧ t.gold = (b.players t.pid).gold := by
  obtain ⟨win, -, same⟩ := Option.map_eq_some_iff.mp (mem_ting.mp mem).2
  exact ⟨(congrArg Ting.win_gold same).symm, (congrArg Ting.gold same).symm⟩

theorem mem_others : p ∈ b.others conf ↔ (b.players p).gameing = true ∧ b.tingOf conf p = none := by
  simp only [Room.others, Room.get_ting_and_not_ting_players, Room.gaming, List.mem_filter,
    Option.isNone_iff_eq_none, List.mem_finRange, true_and]

theorem others_nodup : (b.others conf).Nodup := ((List.nodup_finRange 4).filter _).filter _

theorem ting_nodup : ((b.ting conf).map Ting.pid).Nodup := by
  have own : (b.ting conf).map Ting.pid = b.gaming.filter fun p => (b.tingOf conf p).isSome := by
    simp only [Room.ting, Room.get_ting_and_not_ting_players]
    induction b.gaming with
    | nil => rfl
    | cons p chairs ih =>
        cases found : b.tingOf conf p with
        | none =>
            rw [List.filterMap_cons_none found, ih, List.filter_cons_of_neg (by simp [found])]
        | some t =>
            have here : t.pid = p := by
              obtain ⟨win, -, rfl⟩ := Option.map_eq_some_iff.mp found
              rfl
            rw [List.filterMap_cons_some found, List.filter_cons_of_pos (by simp [found]), List.map_cons, ih, here]
  rw [own]
  exact ((List.nodup_finRange 4).filter _).filter _

theorem need_eq : ((b.ting conf).map fun t => (t.multiple * conf.difen : Int)).sum =
    (b.all_multiple conf * conf.difen : Nat) := by
  rw [Room.all_multiple]
  induction b.ting conf with
  | nil => simp
  | cons t ting ih =>
      simp only [List.map_cons, List.sum_cons, ih]
      push_cast
      rw [Int.add_mul]

theorem loss_range (owned : 0 ≤ (b.players p).gold) :
    0 ≤ b.loss conf p ∧ b.loss conf p ≤ (b.players p).gold := by
  rw [Room.loss, need_eq, Room.lose_gold]
  split
  · rename_i enough
    exact ⟨Int.natCast_nonneg _, enough⟩
  · exact ⟨owned, le_refl _⟩

theorem loss_ne_zero (owned : 0 ≤ (b.players p).gold) :
    b.loss conf p ≠ 0 ↔ (b.players p).gold ≠ 0 ∧ b.all_multiple conf * conf.difen ≠ 0 := by
  rw [Room.loss, need_eq, Room.lose_gold]
  generalize b.all_multiple conf * conf.difen = need
  split
  · omega
  · omega

theorem loss_whole (owned : 0 ≤ (b.players p).gold) :
    0 < b.all_multiple conf ∨ (b.loss conf p).toNat = 0 := by
  obtain none_ | some_ := Nat.eq_zero_or_pos (b.all_multiple conf)
  · right
    have zero : b.loss conf p = 0 := by
      by_contra charged
      have need := ((loss_ne_zero owned).mp charged).2
      rw [none_, Nat.zero_mul] at need
      exact need rfl
    rw [zero]
    rfl
  · exact .inl some_

theorem luck_first (some_ : b.ting conf ≠ []) : 1 ≤ b.luck_index conf n :=
  (random_range (List.length_pos_iff.mpr some_) n).1

theorem winners_getElem (exact_ : b.SharesExact conf) (i : Nat) : (b.winners conf n)[i]? =
    (b.ting conf)[i]?.map fun t => { t with win_gold := b.gain conf n i t } := by
  rw [Room.winners, pays_getElem]
  cases found : (b.ting conf)[i]? with
  | none => rfl
  | some t =>
      have mem := List.mem_of_getElem? found
      have rounded : ((b.others conf).map fun p => part (i + 1 = b.luck_index conf n)
          (share t.multiple (b.all_multiple conf) (b.loss conf p))) =
          (b.others conf).map fun p => part (i + 1 = b.luck_index conf n) (b.owed conf t p) := by
        refine List.map_congr_left fun p other => ?_
        obtain ⟨floors, ceils⟩ := exact_ p other t mem
        exact part_congr floors ceils _
      simp only [Option.map_some, List.map_map, Function.comp_def, rounded, (ting_fresh mem).1, Int.zero_add]
      rfl

/-- All the players who could win are paid together. -/
theorem winners_sum (exact_ : b.SharesExact conf) (some_ : b.ting conf ≠ []) :
    ((b.winners conf n).map Ting.win_gold).sum = ((b.others conf).map fun p =>
      (parts (b.luck_index conf n - 1) (((b.ting conf).map Ting.multiple).map
        (quota (b.all_multiple conf) (b.loss conf p).toNat))).sum).sum := by
  have fresh : ((b.ting conf).map Ting.win_gold).sum = 0 := List.sum_eq_zero fun win mem => by
    obtain ⟨t, here, rfl⟩ := List.mem_map.mp mem
    exact (ting_fresh here).1
  rw [Room.winners, pays_sum (luck_first some_), fresh, Int.zero_add, List.map_map]
  refine congrArg List.sum (List.map_congr_left fun p other => congrArg List.sum ?_)
  refine List.ext_getElem? fun i => ?_
  simp only [parts, List.getElem?_mapIdx, List.getElem?_map, Option.map_map]
  cases found : (b.ting conf)[i]? with
  | none => rfl
  | some t =>
      obtain ⟨floors, ceils⟩ := exact_ p other t (List.mem_of_getElem? found)
      exact congrArg some (part_congr floors ceils _)

theorem bills_eq (ting : b.ting conf ≠ []) (others : b.others conf ≠ []) : b.bills conf n =
    (b.others conf).map (fun p => ⟨p, -b.loss conf p, (b.players p).gold - b.loss conf p, none, ""⟩) ++
      (b.winners conf n).map fun t => ⟨t.pid, t.win_gold, t.gold + t.win_gold, some t.type, ""⟩ := by
  have both : 0 < (b.ting conf).length ∧ 0 < (b.others conf).length :=
    ⟨List.length_pos_iff.mpr ting, List.length_pos_iff.mpr others⟩
  rw [Room.winners, List.foldl_map]
  exact if_pos both

theorem bills_nil (none_ : b.ting conf = [] ∨ b.others conf = []) : b.bills conf n = [] := by
  have neither : ¬(0 < (b.ting conf).length ∧ 0 < (b.others conf).length) := by
    rw [List.length_pos_iff, List.length_pos_iff]
    tauto
  exact if_neg neither

theorem bills_nodup : ((b.bills conf n).map PunishmentBill.id).Nodup := by
  by_cases none_ : b.ting conf = [] ∨ b.others conf = []
  · rw [bills_nil none_]
    exact List.nodup_nil
  · rw [not_or] at none_
    have pids : (b.winners conf n).map Ting.pid = (b.ting conf).map Ting.pid := by
      refine List.ext_getElem? fun i => ?_
      rw [List.getElem?_map, Room.winners, pays_getElem, Option.map_map, List.getElem?_map]
      rfl
    rw [bills_eq none_.1 none_.2, List.map_append, List.map_map, List.map_map]
    simp only [Function.comp_def, List.map_id']
    rw [pids]
    refine others_nodup.append ting_nodup fun p other listed => ?_
    obtain ⟨t, mem, rfl⟩ := List.mem_map.mp listed
    cases (mem_others.mp other).2.symm.trans (mem_ting.mp mem).2

/-- A bill is one of the others' or that of a player who could win. -/
theorem mem_bills (exact_ : b.SharesExact conf) {bill : PunishmentBill} (mem : bill ∈ b.bills conf n) :
    (∃ p ∈ b.others conf, bill = ⟨p, -b.loss conf p, (b.players p).gold - b.loss conf p, none, ""⟩) ∨
    ∃ i t, (b.ting conf)[i]? = some t ∧ bill =
      ⟨t.pid, b.gain conf n i t, t.gold + b.gain conf n i t, some t.type, ""⟩ := by
  by_cases none_ : b.ting conf = [] ∨ b.others conf = []
  · rw [bills_nil none_] at mem
    exact absurd mem List.not_mem_nil
  · rw [not_or] at none_
    rw [bills_eq none_.1 none_.2] at mem
    obtain mem | mem := List.mem_append.mp mem
    · obtain ⟨p, other, rfl⟩ := List.mem_map.mp mem
      exact .inl ⟨p, other, rfl⟩
    · obtain ⟨t', listed, rfl⟩ := List.mem_map.mp mem
      obtain ⟨i, at'⟩ := List.mem_iff_getElem?.mp listed
      rw [winners_getElem exact_] at at'
      obtain ⟨t, found, rfl⟩ := Option.map_eq_some_iff.mp at'
      exact .inr ⟨i, t, found, rfl⟩

theorem owed_nonneg (t : Ting) (p : Chair) : 0 ≤ b.owed conf t p := quota_nonneg _ _ _

theorem gain_nonneg (i : Nat) (t : Ting) : 0 ≤ b.gain conf n i t :=
  List.sum_nonneg fun x mem => by
    obtain ⟨p, -, rfl⟩ := List.mem_map.mp mem
    exact part_nonneg _ (owed_nonneg t p)

theorem winner_billed (exact_ : b.SharesExact conf) (others : b.others conf ≠ []) {i : Nat}
    (found : (b.ting conf)[i]? = some t) :
    ⟨t.pid, b.gain conf n i t, t.gold + b.gain conf n i t, some t.type, ""⟩ ∈ b.bills conf n := by
  have won := @winners_getElem conf b n exact_ i
  rw [found, Option.map_some] at won
  rw [bills_eq (List.ne_nil_of_mem (List.mem_of_getElem? found)) others]
  exact List.mem_append_right _ (List.mem_map.mpr ⟨_, List.mem_of_getElem? won, rfl⟩)

/-- No bill takes more than there is. -/
theorem bills_covered (owned : ∀ p, 0 ≤ (b.players p).gold) (exact_ : b.SharesExact conf)
    {bill : PunishmentBill} (mem : bill ∈ b.bills conf n) : 0 ≤ (b.players bill.id).gold + bill.win_gold := by
  obtain ⟨p, -, rfl⟩ | ⟨i, t, found, rfl⟩ := mem_bills exact_ mem
  · have range := @loss_range conf b p (owned p)
    show 0 ≤ (b.players p).gold + -b.loss conf p
    omega
  · exact Int.add_nonneg (owned t.pid) (gain_nonneg _ t)

theorem bills_gold (exact_ : b.SharesExact conf) {bill : PunishmentBill} (mem : bill ∈ b.bills conf n) :
    bill.gold = (b.players bill.id).gold + bill.win_gold := by
  obtain ⟨p, -, rfl⟩ | ⟨i, t, found, rfl⟩ := mem_bills exact_ mem
  · rfl
  · rw [(ting_fresh (List.mem_of_getElem? found)).2]

/-- The bills make up zero where every payment divides evenly. -/
theorem bills_sum (owned : ∀ p, 0 ≤ (b.players p).gold) (exact_ : b.SharesExact conf)
    (ting : b.ting conf ≠ []) (others : b.others conf ≠ []) :
    ((b.bills conf n).map PunishmentBill.win_gold).sum = 0 ↔ ∀ p ∈ b.others conf,
      Even (b.luck_index conf n - 1) (b.all_multiple conf) (b.loss conf p).toNat
        ((b.ting conf).map Ting.multiple) := by
  have total : ((b.bills conf n).map PunishmentBill.win_gold).sum =
      ((b.others conf).map fun p => (parts (b.luck_index conf n - 1) (((b.ting conf).map Ting.multiple).map
        (quota (b.all_multiple conf) (b.loss conf p).toNat))).sum - b.loss conf p).sum := by
    rw [bills_eq ting others, List.map_append, List.sum_append, List.map_map, List.map_map]
    have winners := @winners_sum conf b n exact_ ting
    simp only [Function.comp_def]
    rw [winners, ← List.sum_map_add]
    refine congrArg List.sum (List.map_congr_left fun p _ => ?_)
    omega
  have payer (p : Chair) : ((b.loss conf p).toNat : Int) = b.loss conf p :=
    Int.toNat_of_nonneg (loss_range (owned p)).1
  rw [total, sum_eq_zero_iff_nonpos fun p _ => ?_]
  · refine forall₂_congr fun p _ => ?_
    have split := @sum_parts_eq (b.loss conf p).toNat ((b.ting conf).map Ting.multiple)
      (loss_whole (owned p)) (b.luck_index conf n - 1)
    rw [payer] at split
    rw [Int.sub_eq_zero]
    exact split
  · have most := @sum_parts_le (b.loss conf p).toNat ((b.ting conf).map Ting.multiple)
      (loss_whole (owned p)) (b.luck_index conf n - 1)
    rw [payer] at most
    exact Int.sub_nonpos_of_le most

theorem bills_received (exact_ : b.SharesExact conf) (others : b.others conf ≠ []) (mem : t ∈ b.ting conf) :
    ∃ bill ∈ b.bills conf n, bill.id = t.pid ∧
      |(bill.win_gold : ℚ) - ((b.others conf).map (b.owed conf t)).sum| < (b.others conf).length := by
  obtain ⟨i, found⟩ := List.mem_iff_getElem?.mp mem
  refine ⟨_, winner_billed exact_ others found, rfl, ?_⟩
  have near := @sum_part_near (i + 1 = b.luck_index conf n) ((b.others conf).map (b.owed conf t))
    (by rwa [ne_eq, List.map_eq_nil_iff])
  rwa [List.map_map, List.length_map] at near

/-- Who is charged or paid nothing, by what the players have. -/
theorem bills_heard (owned : ∀ p, 0 ≤ (b.players p).gold) (exact_ : b.SharesExact conf)
    (ting : b.ting conf ≠ []) (others : b.others conf ≠ []) :
    (∀ bill ∈ b.bills conf n, (b.players bill.id).robot = false → (b.players bill.id).gold ≠ 0 →
      bill.win_gold ≠ 0) ↔
    (∀ p ∈ b.others conf, (b.players p).robot = false → (b.players p).gold ≠ 0 →
      b.all_multiple conf * conf.difen ≠ 0) ∧
    ∀ (i : Nat) (t : Ting), (b.ting conf)[i]? = some t → (b.players t.pid).robot = false → t.gold ≠ 0 →
      ∃ p ∈ b.others conf, 0 < t.multiple * (b.loss conf p).toNat ∧
        (i + 1 = b.luck_index conf n ∨ b.all_multiple conf ≤ t.multiple * (b.loss conf p).toNat) := by
  have gains (i : Nat) (t : Ting) :
      b.gain conf n i t ≠ 0 ↔ ∃ p ∈ b.others conf, 0 < t.multiple * (b.loss conf p).toNat ∧
        (i + 1 = b.luck_index conf n ∨ b.all_multiple conf ≤ t.multiple * (b.loss conf p).toNat) := by
    rw [Room.gain, sum_ne_zero_iff_nonneg fun p _ => part_nonneg _ (owed_nonneg t p)]
    refine exists_congr fun p => and_congr_right fun _ => ?_
    rw [Room.owed, part_pos (loss_whole (owned p)), decide_eq_true_iff]
  constructor
  · intro heard
    refine ⟨fun p other robot gold => ?_, fun i t found robot gold => ?_⟩
    · have listed : (⟨p, -b.loss conf p, (b.players p).gold - b.loss conf p, none, ""⟩ : PunishmentBill) ∈
          b.bills conf n := by
        rw [bills_eq ting others]
        exact List.mem_append_left _ (List.mem_map_of_mem other)
      have charged : -b.loss conf p ≠ 0 := heard _ listed robot gold
      exact ((loss_ne_zero (owned p)).mp (neg_ne_zero.mp charged)).2
    · have mine := (ting_fresh (List.mem_of_getElem? found)).2
      exact (gains i t).mp (heard _ (winner_billed exact_ others found) robot (mine ▸ gold))
  · rintro ⟨charged, won⟩ bill mem robot gold
    obtain ⟨p, other, rfl⟩ | ⟨i, t, found, rfl⟩ := mem_bills exact_ mem
    · exact neg_ne_zero.mpr ((loss_ne_zero (owned p)).mpr ⟨gold, charged p other robot gold⟩)
    · have mine := (ting_fresh (List.mem_of_getElem? found)).2
      exact (gains i t).mpr (won i t found robot (mine ▸ gold))

/-- Where doubles round as the exact shares do, the punishment loses nothing just if every payment divides. -/
theorem punishes_iff (conf : Conf) (b : Room) (owned : ∀ p, 0 ≤ (b.players p).gold)
    (exact_ : b.SharesExact conf) (n : Nat) :
    b.Punishes conf n ↔ (b.ting conf ≠ [] → b.others conf ≠ [] → b.Divides conf n) := by
  obtain ⟨b', done, paid, unbilled⟩ := foldlM_add_gold (@bills_nodup conf b n) fun bill mem =>
    bills_covered owned exact_ mem
  have result : b.punishment_bills conf n = some (b', b.bills conf n) := by
    rw [Room.punishment_bills, done]
    rfl
  constructor
  · rintro ⟨b'', bills, result', settled⟩ ting others
    obtain ⟨rfl, rfl⟩ := Prod.mk.inj (Option.some.inj (result.symm.trans result'))
    have heard := (@bills_heard conf b n owned exact_ ting others).mp fun bill mem robot gold =>
      (added_eq (bills_covered owned exact_ mem)).mp
        ((paid bill mem).symm.trans (settled.balances bill mem).1) robot gold
    exact ⟨(bills_sum owned exact_ ting others).mp settled.zero_sum, heard.1, heard.2⟩
  · intro divides
    refine ⟨b', _, result, ?_, fun bill mem => ?_, fun p => ?_, fun others t mem => ?_, fun bill mem => ?_,
      unbilled⟩
    · by_cases none_ : b.ting conf = [] ∨ b.others conf = []
      · rw [bills_nil none_]
        rfl
      · rw [not_or] at none_
        exact (bills_sum owned exact_ none_.1 none_.2).mpr (divides none_.1 none_.2).even
    · have covered := bills_covered owned exact_ mem
      omega
    · by_cases billed : ∀ bill ∈ b.bills conf n, bill.id ≠ p
      · rw [unbilled p billed]
        exact owned p
      · push Not at billed
        obtain ⟨bill, mem, rfl⟩ := billed
        rw [paid bill mem]
        exact added_nonneg (bills_covered owned exact_ mem)
    · exact bills_received exact_ others mem
    · have ting : b.ting conf ≠ [] := by
        intro none_
        rw [bills_nil (.inl none_)] at mem
        exact List.not_mem_nil mem
      have others : b.others conf ≠ [] := by
        intro none_
        rw [bills_nil (.inr none_)] at mem
        exact List.not_mem_nil mem
      obtain ⟨_, charged, won⟩ := divides ting others
      refine ⟨?_, bills_gold exact_ mem⟩
      rw [paid bill mem, added_eq (bills_covered owned exact_ mem)]
      exact (@bills_heard conf b n owned exact_ ting others).mpr ⟨charged, won⟩ bill mem

end Split

section Examples

/-- Seven cards of one value win with a joker. -/
def sameConf : Conf where
  difen := 100
  capped_num := -1
  multipleInfo := fun _ => 2
  flower := 2
  check_hu := fun hand _ =>
    if hand.all fun card => V card = V (hand.headD 0) then some (.baxingzha, 16888) else none

def sevenOf (v : Int) : List Card := [0x10 + v, 0x20 + v, 0x30 + v, 0x40 + v, 0x60 + v, 0x70 + v, 0x80 + v]

/-- A hand without a pair. -/
def scattered : List Card := [0x12, 0x24, 0x36, 0x48, 0x1a, 0x2c, 0x45]

/-- Users with little gold pay two robots that could win. -/
def twoWinners : Room :=
  .gamestart (fun p => if p ≤ 1 then ⟨50, 50, true⟩ else if p = 2 then ⟨5, 5, false⟩ else ⟨7, 7, false⟩)
    (fun p => if p = 0 then sevenOf 3 else if p = 1 then sevenOf 7 else scattered) [] 0

theorem punishes_two : (twoWinners.bills sameConf 0).map PunishmentBill.win_gold = [-5, -7, 7, 5] ∧
    twoWinners.Punishes sameConf 0 := by
  have exact_ : twoWinners.SharesExact sameConf := by
    unfold Room.SharesExact
    decide +kernel
  have divides : twoWinners.Divides sameConf 0 := by
    refine ⟨by decide +kernel, by decide +kernel, fun i t found user _ => ?_⟩
    have robots : ∀ t ∈ twoWinners.ting sameConf, (twoWinners.players t.pid).robot = true := by decide
    cases user.symm.trans (robots t (List.mem_of_getElem? found))
  exact ⟨by decide +kernel, (punishes_iff sameConf twoWinners (by decide) exact_ 0).mpr fun _ _ => divides⟩

/-- The last player has five beans for three who could win. -/
def threeWinners : Room :=
  .gamestart (fun p => if p = 3 then ⟨5, 5, true⟩ else ⟨50, 50, true⟩)
    (fun p => if p = 0 then sevenOf 3 else if p = 1 then sevenOf 7 else if p = 2 then sevenOf 9 else scattered) [] 0

/-- One bean of the five is lost: the shares are two, one and one. -/
theorem punishes_fails : ¬∀ (conf : Conf) (b : Room) (n : Nat), (∀ p, 0 ≤ (b.players p).gold) →
    b.Punishes conf n := by
  intro all
  obtain ⟨b', bills, done, settled⟩ := all sameConf threeWinners 0 (by decide)
  obtain ⟨_, _, same⟩ := Option.map_eq_some_iff.mp done
  obtain rfl := (Prod.mk.inj same).2
  have lost : ((threeWinners.bills sameConf 0).map PunishmentBill.win_gold).sum = -1 := by decide +kernel
  cases lost.symm.trans settled.zero_sum

end Examples

end HuluLandlord.SevenSparrow
