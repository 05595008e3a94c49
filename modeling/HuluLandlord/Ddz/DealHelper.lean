import HuluLandlord.Ddz.DealCard

/-!
Dealing with what a room may be configured with. A test server gives the lists of some players,
the rest of each hand comes off the deck; a new user gets three hands of his configuration; else
the routine of the game type deals. A card that its player's list names twice is in the hand
twice and off the deck once, so that cards are left over.
-/
namespace HuluLandlord.Ddz
open Shuffle

/-- The names of `GAMETYPE` that have a routine. -/
inductive GAMETYPE
  | noshuffle | classic
  deriving DecidableEq, Repr

structure RoomCardDataCfg where
  idArr : List UserId
  cardDataArr : List (List Card)
  firstId : Option UserId
  deriving DecidableEq, Repr

structure DealPlayer where
  id : UserId
  isUser : Bool
  deriving DecidableEq, Repr

/-- What `helper.dealcard` returns. -/
structure Dealing where
  hands : Seat → Option (List Card)
  bottomCards : List Card
  firstId : Option UserId

/-- Three hands of 17 cards and three bottom cards, together the deck. -/
def Dealing.IsDeal (d : Dealing) : Prop :=
  ∃ cards : Seat → List Card, (∀ p, d.hands p = some (cards p) ∧ (cards p).length = 17) ∧
    d.bottomCards.length = 3 ∧
      (cards 0 ++ cards 1 ++ cards 2 ++ d.bottomCards).Perm create_a_pair_cards

/-- `table.splice(t, 1, index2)` with its assertions: what it takes off the front and what is left. -/
def splice (t : List Card) (index2 : Int) : Option (List Card × List Card) :=
  if t.length > 0 ∧ index2 - 1 < t.length then
    some (t.take index2.toNat, t.drop index2.toNat)
  else none

/-- Each hand is filled up to 17 cards. -/
def fillAll : List (List Card) → List Card → Option (List (List Card) × List Card)
  | [], cards => some ([], cards)
  | value :: arr, cards =>
      (splice cards (17 - value.length)).bind fun (r, cards) =>
        (fillAll arr cards).map fun (hands, cards) => ((value ++ r) :: hands, cards)

def handsOf (hands : List (List Card)) : Seat → Option (List Card) := fun p => hands[p.val]?

/-- `table.splice(cards, 1, 17)` three times. -/
def spliceHands (cards : List Card) : Option Dealing :=
  (fillAll [[], [], []] cards).map fun (hands, cards) => ⟨handsOf hands, cards, none⟩

/-- The random outcomes of the routines: places to swap with, the order that an unstable sort by
value leaves, and the cuts. -/
structure DealDraws where
  swaps : List Nat
  sorted : List Card
  cuts : List (Nat × Nat)

def DealDraws.Valid (draws : DealDraws) : Prop :=
  draws.sorted.Perm create_a_pair_cards ∧ draws.sorted.Pairwise fun a b => V a ≥ V b

def dealcard (draws : DealDraws) : GAMETYPE → Option Dealing
  | .classic => spliceHands (randsort create_a_pair_cards draws.swaps)
  | .noshuffle => spliceHands (draws.cuts.foldl (fun cards ij => cut cards ij.1 ij.2) draws.sorted)

/-- The list a configuration has for a player. -/
def RoomCardDataCfg.cardsOf (cfg : RoomCardDataCfg) (id : UserId) : List Card :=
  match cfg.idArr.findIdx? (· = id) with
  | some idx => cfg.cardDataArr.getD idx []
  | none => []

/-- Of each list the cards that are there, before any of them is removed. -/
def takeAll : List Card → List (List Card) → List (List Card) × List Card
  | cards, [] => ([], cards)
  | cards, cardsCfg :: cfgs =>
      let cardsCfg := cardsCfg.filter (· ∈ cards)
      let rest := takeAll (cardsCfg.foldl List.erase cards) cfgs
      (cardsCfg :: rest.1, rest.2)

def configuredDeal (cfg : RoomCardDataCfg) (playerArr : Seat → DealPlayer) : Option Dealing :=
  let taken := takeAll create_a_pair_cards
    ((List.finRange 3).map fun p => cfg.cardsOf (playerArr p).id)
  (fillAll taken.1 taken.2).map fun (hands, cards) => ⟨handsOf hands, cards, cfg.firstId⟩

/-- The loop of at most ten lists over the players, from place `idx` of the array. -/
def newUserHands : Nat → List (List Card) → Int → List Card → (Int → Option (List Card)) →
    (Int → Option (List Card)) × List Card
  | 0, _, _, cards, arr => (arr, cards)
  | _ + 1, [], _, cards, arr => (arr, cards)
  | turns + 1, cardsCfg :: cardDataArr, idx, cards, arr =>
      let cardsCfg := cardsCfg.filter (· ∈ cards)
      newUserHands turns cardDataArr (if idx + 1 > 3 then 1 else idx + 1)
        (cardsCfg.foldl List.erase cards) (Function.update arr idx (some cardsCfg))

/-- Where the first user stands in the array of players. -/
def userIdx (playerArr : Seat → DealPlayer) : Int :=
  match (List.finRange 3).find? fun p => (playerArr p).isUser with
  | some p => p.val + 1
  | none => -1

def newUserDeal (init_cards : List (List Card)) (playerArr : Seat → DealPlayer) : Dealing :=
  let dealt := newUserHands 10 init_cards (userIdx playerArr) create_a_pair_cards fun _ => none
  ⟨fun p => dealt.1 (p.val + 1), dealt.2, none⟩

section Helper
variable (getRoomCardDataCfg : UserId → GAMETYPE → Option RoomCardDataCfg)

/-- The configuration of the first player who has one. -/
def roomCfg (gametype : GAMETYPE) (playerArr : Seat → DealPlayer) : Option RoomCardDataCfg :=
  (List.finRange 3).findSome? fun p => getRoomCardDataCfg (playerArr p).id gametype

/-- `helper.dealcard`; `none` where it fails. -/
def helper_dealcard (gametype : GAMETYPE) (playerArr : Seat → DealPlayer)
    (newUserCardCfg : Option (List (List Card))) (draws : DealDraws) : Option Dealing :=
  match roomCfg getRoomCardDataCfg gametype playerArr with
  | some cfg =>
      if gametype = .noshuffle then configuredDeal cfg playerArr else dealcard draws gametype
  | none =>
      match newUserCardCfg with
      | some init_cards => some (newUserDeal init_cards playerArr)
      | none => dealcard draws gametype

end Helper

section NoShuffle1

/-- The heaps a player gets, one for each draw, and the heaps left. -/
def drawHeaps (cards : List Card) : List Nat → List Nat → List Card × List Nat
  | [], arr => ([], arr)
  | draw :: draws, arr =>
      let idx := draw % arr.length
      let rest := drawHeaps cards draws (arr.eraseIdx idx)
      ((cards.drop (6 * arr.getD idx 0)).take 6 ++ rest.1, rest.2)

/-- A card of a hand for the bottom. -/
def giveBottom (cardArr : List Card) (draw : Nat) : List Card × List Card :=
  let idx := draw % cardArr.length
  ((cardArr[idx]?).toList, cardArr.eraseIdx idx)

/-- Nine heaps of six cards, three for each player, who gives one card. No game type has this
routine. -/
def noshuffle1 (sorted : List Card) (draws : Seat → Fin 3 → Nat) (bottoms : Seat → Nat) :
    Dealing :=
  let first := drawHeaps sorted ((List.finRange 3).map (draws 0)) (List.range 9)
  let second := drawHeaps sorted ((List.finRange 3).map (draws 1)) first.2
  let third := drawHeaps sorted ((List.finRange 3).map (draws 2)) second.2
  let given : Seat → List Card × List Card
    | 0 => giveBottom first.1 (bottoms 0)
    | 1 => giveBottom second.1 (bottoms 1)
    | 2 => giveBottom third.1 (bottoms 2)
  ⟨fun p => some (given p).2, (given 0).1 ++ (given 1).1 ++ (given 2).1, none⟩

end NoShuffle1

/-- No list names a card twice, apart from cards that are not in the deck or that an earlier list
names. -/
def NoRepeat : List Card → List (List Card) → Prop
  | _, [] => True
  | free, cardsCfg :: cfgs =>
      (cardsCfg.filter (· ∈ free)).Nodup ∧ NoRepeat (free.filter (· ∉ cardsCfg)) cfgs

section Fill
variable {arr cfgs : List (List Card)} {cards : List Card}

theorem fillAll_some (short : ∀ value ∈ arr, value.length ≤ 17)
    (enough : (arr.map fun value => 17 - value.length).sum < cards.length) :
    ∃ hands bottom, fillAll arr cards = some (hands, bottom) ∧ hands.length = arr.length ∧
      (∀ hand ∈ hands, hand.length = 17) ∧
      (hands.flatten ++ bottom).Perm (arr.flatten ++ cards) ∧
      bottom.length + (arr.map fun value => 17 - value.length).sum = cards.length := by
  induction arr generalizing cards with
  | nil => exact ⟨[], cards, rfl, rfl, fun _ mem => absurd mem List.not_mem_nil, .refl _, rfl⟩
  | cons value arr ih =>
      rw [List.map_cons, List.sum_cons] at enough
      have fits := short value List.mem_cons_self
      have taken : splice cards (17 - value.length) =
          some (cards.take (17 - value.length), cards.drop (17 - value.length)) := by
        rw [splice, if_pos (by omega)]
        congr <;> omega
      obtain ⟨hands, bottom, filled, size, full, perm, left⟩ :=
        @ih (cards.drop (17 - value.length)) (fun v mem => short v (List.mem_cons_of_mem _ mem))
          (by rw [List.length_drop]; omega)
      refine ⟨(value ++ cards.take (17 - value.length)) :: hands, bottom, ?_, ?_, ?_, ?_, ?_⟩
      · simp only [fillAll, taken, Option.bind_some, filled, Option.map_some]
      · rw [List.length_cons, List.length_cons, size]
      · refine List.forall_mem_cons.mpr ⟨?_, full⟩
        rw [List.length_append, List.length_take]
        omega
      · rw [List.flatten_cons, List.append_assoc, List.append_assoc, List.flatten_cons,
          List.append_assoc]
        refine List.Perm.append_left value ((perm.append_left _).trans ?_)
        rw [← List.append_assoc]
        refine (List.perm_append_comm.append_right _).trans ?_
        rw [List.append_assoc, List.take_append_drop]
      · rw [List.length_drop] at left
        rw [List.map_cons, List.sum_cons]
        omega

theorem erased_eq (whole : cards.Nodup) (cardsCfg : List Card) :
    (cardsCfg.filter (· ∈ cards)).foldl List.erase cards =
      cards.filter (· ∉ cardsCfg) := by
  rw [← List.diff_eq_foldl, whole.diff_eq_filter]
  refine List.filter_congr fun card mem => ?_
  simp [mem]

/-- A list takes each of its cards off the deck once. -/
theorem taken_length (whole : cards.Nodup) (cardsCfg : List Card) :
    (cardsCfg.filter (· ∈ cards)).dedup.length + (cards.filter (· ∉ cardsCfg)).length =
      cards.length := by
  have same : (cardsCfg.filter (· ∈ cards)).dedup.Perm (cards.filter (· ∈ cardsCfg)) := by
    refine (List.perm_ext_iff_of_nodup (List.nodup_dedup _) (whole.filter _)).mpr fun card => ?_
    simp [and_comm]
  have parts := (List.filter_append_perm (fun card => decide (card ∈ cardsCfg)) cards).length_eq
  rw [List.length_append] at parts
  simp only [same.length_eq, decide_not]
  exact parts

/-- Cards are left over just where a list repeats one. -/
theorem takeAll_length (whole : cards.Nodup) (cfgs : List (List Card)) :
    cards.length ≤ ((takeAll cards cfgs).1.map List.length).sum + (takeAll cards cfgs).2.length ∧
      (cards.length = ((takeAll cards cfgs).1.map List.length).sum +
        (takeAll cards cfgs).2.length ↔ NoRepeat cards cfgs) := by
  induction cfgs generalizing cards with
  | nil => exact ⟨(Nat.zero_add _).ge, iff_of_true (Nat.zero_add _).symm trivial⟩
  | cons cardsCfg cfgs ih =>
      have taken := taken_length whole cardsCfg
      obtain ⟨least, exact_iff⟩ := @ih (cards.filter (· ∉ cardsCfg)) (whole.filter _)
      have most := (List.dedup_sublist (cardsCfg.filter (· ∈ cards))).length_le
      have distinct : (cardsCfg.filter (· ∈ cards)).Nodup ↔
          (cardsCfg.filter (· ∈ cards)).dedup.length = (cardsCfg.filter (· ∈ cards)).length :=
        ⟨fun nodup => by rw [nodup.dedup], fun same => by
          rw [← (List.dedup_sublist _).eq_of_length same]
          exact List.nodup_dedup _⟩
      simp only [takeAll, erased_eq whole, List.map_cons, List.sum_cons, NoRepeat, ← exact_iff,
        distinct]
      omega

theorem takeAll_perm (whole : cards.Nodup) (once : NoRepeat cards cfgs) :
    ((takeAll cards cfgs).1.flatten ++ (takeAll cards cfgs).2).Perm cards := by
  induction cfgs generalizing cards with
  | nil => exact .refl _
  | cons cardsCfg cfgs ih =>
      have rest := ih (whole.filter _) once.2
      simp only [takeAll, erased_eq whole, List.flatten_cons, List.append_assoc]
      refine (List.Perm.append_left _ rest).trans ?_
      have mine : (cardsCfg.filter (· ∈ cards)).Perm (cards.filter (· ∈ cardsCfg)) := by
        refine (List.perm_ext_iff_of_nodup once.1 (whole.filter _)).mpr fun card => ?_
        simp [and_comm]
      refine (mine.append_right _).trans ?_
      simpa only [decide_not] using
        List.filter_append_perm (fun card => decide (card ∈ cardsCfg)) cards

theorem takeAll_short {k : Nat} (short : ∀ cardsCfg ∈ cfgs, cardsCfg.length ≤ k) :
    (∀ value ∈ (takeAll cards cfgs).1, value.length ≤ k) ∧
      (takeAll cards cfgs).1.length = cfgs.length := by
  induction cfgs generalizing cards with
  | nil => exact ⟨fun _ mem => absurd mem List.not_mem_nil, rfl⟩
  | cons cardsCfg cfgs ih =>
      obtain ⟨others, size⟩ := @ih
        ((cardsCfg.filter (· ∈ cards)).foldl List.erase cards)
        fun v mem => short v (List.mem_cons_of_mem _ mem)
      exact ⟨List.forall_mem_cons.mpr ⟨(List.length_filter_le _ _).trans
        (short cardsCfg List.mem_cons_self), others⟩, congrArg Nat.succ size⟩

/-- Of three hands what fills them and what they have is 51 cards. -/
theorem fill_sum {a b c : List Card} (short : ∀ value ∈ [a, b, c], value.length ≤ 17) :
    (([a, b, c].map fun value => 17 - value.length).sum) + ([a, b, c].map List.length).sum =
      51 := by
  have first := short a (by simp)
  have second := short b (by simp)
  have third := short c (by simp)
  simp only [List.map_cons, List.map_nil, List.sum_cons, List.sum_nil]
  omega

theorem three_eq {α : Type*} {xs : List α} (size : xs.length = 3) :
    ∃ a b c, xs = [a, b, c] := by
  match xs, size with
  | [a, b, c], _ => exact ⟨a, b, c, rfl⟩

/-- Filled from values and the rest of the deck, three hands are a deal just where no card is
left over or lost. -/
theorem fill_isDeal {values : List (List Card)} {rest : List Card} (size : values.length = 3)
    (short : ∀ value ∈ values, value.length ≤ 17)
    (least : create_a_pair_cards.length ≤ (values.map List.length).sum + rest.length)
    (firstId : Option UserId) :
    ∃ hands bottom, fillAll values rest = some (hands, bottom) ∧
      ((Dealing.mk (handsOf hands) bottom firstId).IsDeal →
        create_a_pair_cards.length = (values.map List.length).sum + rest.length) ∧
      ((values.flatten ++ rest).Perm create_a_pair_cards →
        (Dealing.mk (handsOf hands) bottom firstId).IsDeal) := by
  obtain ⟨a, b, c, rfl⟩ := three_eq size
  have sum := fill_sum short
  have deck : create_a_pair_cards.length = 54 := rfl
  obtain ⟨hands, bottom, filled, count, full, perm, left⟩ :=
    @fillAll_some [a, b, c] rest short (by omega)
  obtain ⟨x, y, z, rfl⟩ := three_eq count
  refine ⟨[x, y, z], bottom, filled, fun deal => ?_, fun whole => ?_⟩
  · obtain ⟨cards, _, three, _⟩ := deal
    simp only at three
    omega
  · refine ⟨fun | 0 => x | 1 => y | 2 => z, fun p => ?_, ?_, ?_⟩
    · match p with
      | 0 => exact ⟨rfl, full x (by simp)⟩
      | 1 => exact ⟨rfl, full y (by simp)⟩
      | 2 => exact ⟨rfl, full z (by simp)⟩
    · have total := whole.length_eq
      simp only [List.length_append, List.length_flatten] at total
      simp only
      omega
    · have flat : x ++ y ++ z ++ bottom = [x, y, z].flatten ++ bottom := by simp
      exact flat ▸ perm.trans whole

end Fill

section Routines
variable {cards sorted : List Card} {draws : List Nat} {arr : List Nat}

theorem spliceHands_isDeal (whole : cards.Perm create_a_pair_cards) :
    ∃ d, spliceHands cards = some d ∧ d.IsDeal := by
  obtain ⟨hands, bottom, filled, _, deal⟩ := @fill_isDeal [[], [], []] cards rfl
    (by simp) (by simp [whole.length_eq]) none
  refine ⟨_, ?_, deal (by simpa using whole)⟩
  rw [spliceHands, filled]
  rfl

theorem dealcard_isDeal {draws : DealDraws} (valid : draws.Valid) (gametype : GAMETYPE) :
    ∃ d, dealcard draws gametype = some d ∧ d.IsDeal := by
  cases gametype with
  | classic => exact spliceHands_isDeal (randsort_perm _ _)
  | noshuffle =>
      exact spliceHands_isDeal ((foldl_perm (fun ys (ij : Nat × Nat) => cut ys ij.1 ij.2)
        (fun ys ij => cut_perm ys ij.1 ij.2) draws.cuts draws.sorted).trans valid.1)

/-- The cards of the heaps with the numbers of a list. -/
def heaps (cards : List Card) (arr : List Nat) : List Card :=
  arr.flatMap fun k => (cards.drop (6 * k)).take 6

theorem heaps_range (cards : List Card) (n : Nat) :
    heaps cards (List.range n) = cards.take (6 * n) := by
  induction n with
  | zero => rfl
  | succ n ih =>
      rw [heaps, List.range_succ, List.flatMap_append, ← heaps, ih, Nat.mul_succ, List.take_add]
      simp

/-- A player gets whole heaps, and the others keep theirs. -/
theorem drawHeaps_perm (full : ∀ k ∈ arr, 6 * k + 6 ≤ cards.length)
    (enough : draws.length ≤ arr.length) :
    ((drawHeaps cards draws arr).1 ++ heaps cards (drawHeaps cards draws arr).2).Perm
        (heaps cards arr) ∧
      (drawHeaps cards draws arr).1.length = 6 * draws.length ∧
      (drawHeaps cards draws arr).2.length + draws.length = arr.length ∧
      ∀ k ∈ (drawHeaps cards draws arr).2, k ∈ arr := by
  induction draws generalizing arr with
  | nil => exact ⟨.refl _, rfl, rfl, fun _ mem => mem⟩
  | cons draw draws ih =>
      rw [List.length_cons] at enough
      have inside : draw % arr.length < arr.length := Nat.mod_lt _ (by omega)
      have size := List.length_eraseIdx_of_lt inside
      have fewer : ∀ k ∈ arr.eraseIdx (draw % arr.length), k ∈ arr := fun k mem =>
        List.mem_of_mem_eraseIdx mem
      obtain ⟨perm, count, left, sub⟩ := @ih (arr.eraseIdx (draw % arr.length))
        (fun k mem => full k (fewer k mem)) (by omega)
      have here : arr.getD (draw % arr.length) 0 = arr[draw % arr.length] := by
        rw [List.getD_eq_getElem?_getD, List.getElem?_eq_getElem inside, Option.getD_some]
      have heap := full _ (List.getElem_mem inside)
      simp only [drawHeaps, here]
      refine ⟨?_, ?_, ?_, fun k mem => fewer k (sub k mem)⟩
      · rw [List.append_assoc]
        refine (perm.append_left _).trans ?_
        have moved := (List.getElem_cons_eraseIdx_perm inside).flatMap_right fun k =>
          (cards.drop (6 * k)).take 6
        rwa [List.flatMap_cons] at moved
      · rw [List.length_append, count, List.length_take, List.length_drop, List.length_cons]
        omega
      · rw [List.length_cons]
        omega

theorem giveBottom_perm (draw : Nat) (some_left : 0 < cards.length) :
    ((giveBottom cards draw).2 ++ (giveBottom cards draw).1).Perm cards ∧
      (giveBottom cards draw).1.length = 1 ∧
        (giveBottom cards draw).2.length + 1 = cards.length := by
  have inside : draw % cards.length < cards.length := Nat.mod_lt _ some_left
  have size := List.length_eraseIdx_of_lt inside
  simp only [giveBottom, List.getElem?_eq_getElem inside, Option.toList_some]
  refine ⟨?_, rfl, by omega⟩
  exact List.perm_append_comm.trans (List.getElem_cons_eraseIdx_perm inside)

theorem noshuffle1_isDeal (whole : sorted.Perm create_a_pair_cards) (draws : Seat → Fin 3 → Nat)
    (bottoms : Seat → Nat) : (noshuffle1 sorted draws bottoms).IsDeal := by
  have deck : sorted.length = 54 := whole.length_eq
  have nine : ∀ k ∈ List.range 9, 6 * k + 6 ≤ sorted.length := by
    intro k mem
    have below := List.mem_range.mp mem
    omega
  have all := heaps_range sorted 9
  rw [List.take_of_length_le (by omega)] at all
  obtain ⟨perm₀, size₀, left₀, sub₀⟩ :=
    @drawHeaps_perm sorted ((List.finRange 3).map (draws 0)) (List.range 9) nine (by simp)
  set first := drawHeaps sorted ((List.finRange 3).map (draws 0)) (List.range 9) with hfirst
  rw [List.length_map, List.length_finRange] at size₀ left₀
  rw [List.length_range] at left₀
  obtain ⟨perm₁, size₁, left₁, sub₁⟩ :=
    @drawHeaps_perm sorted ((List.finRange 3).map (draws 1)) first.2
      (fun k mem => nine k (sub₀ k mem)) (by rw [List.length_map, List.length_finRange]; omega)
  set second := drawHeaps sorted ((List.finRange 3).map (draws 1)) first.2 with hsecond
  rw [List.length_map, List.length_finRange] at size₁ left₁
  obtain ⟨perm₂, size₂, left₂, _⟩ :=
    @drawHeaps_perm sorted ((List.finRange 3).map (draws 2)) second.2
      (fun k mem => nine k (sub₀ k (sub₁ k mem)))
      (by rw [List.length_map, List.length_finRange]; omega)
  set third := drawHeaps sorted ((List.finRange 3).map (draws 2)) second.2 with hthird
  rw [List.length_map, List.length_finRange] at size₂ left₂
  have none_left : third.2 = [] := List.eq_nil_of_length_eq_zero (by omega)
  obtain ⟨given₀, bottom₀, hand₀⟩ := giveBottom_perm (bottoms 0) (by rw [size₀]; decide)
  obtain ⟨given₁, bottom₁, hand₁⟩ := giveBottom_perm (bottoms 1) (by rw [size₁]; decide)
  obtain ⟨given₂, bottom₂, hand₂⟩ := giveBottom_perm (bottoms 2) (by rw [size₂]; decide)
  refine ⟨fun
    | 0 => (giveBottom first.1 (bottoms 0)).2
    | 1 => (giveBottom second.1 (bottoms 1)).2
    | 2 => (giveBottom third.1 (bottoms 2)).2, fun p => ?_, ?_, ?_⟩
  · match p with
    | 0 =>
        have full : (giveBottom first.1 (bottoms 0)).2.length = 17 := by omega
        exact ⟨rfl, full⟩
    | 1 =>
        have full : (giveBottom second.1 (bottoms 1)).2.length = 17 := by omega
        exact ⟨rfl, full⟩
    | 2 =>
        have full : (giveBottom third.1 (bottoms 2)).2.length = 17 := by omega
        exact ⟨rfl, full⟩
  · simp only [noshuffle1, ← hfirst, ← hsecond, ← hthird, List.length_append]
    omega
  · refine List.Perm.trans (List.perm_iff_count.mpr fun card => ?_) whole
    have dealt₀ := perm₀.count_eq card
    have dealt₁ := perm₁.count_eq card
    have dealt₂ := perm₂.count_eq card
    have back₀ := given₀.count_eq card
    have back₁ := given₁.count_eq card
    have back₂ := given₂.count_eq card
    rw [none_left] at dealt₂
    rw [all] at dealt₀
    simp only [noshuffle1, ← hfirst, ← hsecond, ← hthird, List.count_append, heaps,
      List.flatMap_nil, List.count_nil] at *
    omega

end Routines

section NewUser
variable {playerArr : Seat → DealPlayer} {a b c : List Card}

/-- Three disjoint hands of 17 cards of the deck. -/
structure ThreeHands (a b c : List Card) : Prop where
  length_a : a.length = 17
  length_b : b.length = 17
  length_c : c.length = 17
  distinct : (a ++ b ++ c).Nodup
  listed : ∀ card ∈ a ++ b ++ c, card ∈ create_a_pair_cards

/-- The cards no hand before names. -/
abbrev without (cards hand : List Card) : List Card := cards.filter (· ∉ hand)

theorem ThreeHands.there (hands : ThreeHands a b c) :
    (∀ card ∈ a, card ∈ create_a_pair_cards) ∧
    (∀ card ∈ b, card ∈ without create_a_pair_cards a) ∧
    ∀ card ∈ c, card ∈ without (without create_a_pair_cards a) b := by
  obtain ⟨_, _, _, distinct, listed⟩ := hands
  rw [List.nodup_append, List.nodup_append] at distinct
  obtain ⟨⟨_, _, apart_ab⟩, _, apart⟩ := distinct
  refine ⟨fun card mem => listed card (List.mem_append_left _ (List.mem_append_left _ mem)),
    fun card mem => List.mem_filter.mpr ⟨?_, ?_⟩,
    fun card mem => List.mem_filter.mpr ⟨List.mem_filter.mpr ⟨?_, ?_⟩, ?_⟩⟩
  · exact listed card (List.mem_append_left _ (List.mem_append_right _ mem))
  · exact decide_eq_true fun other => apart_ab card other card mem rfl
  · exact listed card (List.mem_append_right _ mem)
  · exact decide_eq_true fun other => apart card (List.mem_append_left _ other) card mem rfl
  · exact decide_eq_true fun other => apart card (List.mem_append_right _ other) card mem rfl

section There
variable {cards hand : List Card} (whole : cards.Nodup) (there : ∀ card ∈ hand, card ∈ cards)
include whole there

/-- A hand all of whose cards are there is taken as it is. -/
theorem taken_there : hand.filter (· ∈ cards) = hand ∧
    hand.foldl List.erase cards = without cards hand := by
  have kept : hand.filter (· ∈ cards) = hand :=
    List.filter_eq_self.mpr fun card mem => decide_eq_true (there card mem)
  have erased := erased_eq whole hand
  rw [kept] at erased
  exact ⟨kept, erased⟩

theorem takeAll_there (cfgs : List (List Card)) : takeAll cards (hand :: cfgs) =
    (hand :: (takeAll (without cards hand) cfgs).1, (takeAll (without cards hand) cfgs).2) := by
  obtain ⟨kept, erased⟩ := taken_there whole there
  simp only [takeAll, kept, erased]

theorem newUserHands_there (turns : Nat) (lists : List (List Card)) (idx : Int)
    (arr : Int → Option (List Card)) : newUserHands (turns + 1) (hand :: lists) idx cards arr =
      newUserHands turns lists (if idx + 1 > 3 then 1 else idx + 1) (without cards hand)
        (Function.update arr idx (some hand)) := by
  obtain ⟨kept, erased⟩ := taken_there whole there
  simp only [newUserHands, kept, erased]

end There

/-- What three hands leave of the deck. -/
theorem ThreeHands.rest (hands : ThreeHands a b c) :
    (a ++ b ++ c ++ without (without (without create_a_pair_cards a) b) c).Perm
      create_a_pair_cards := by
  obtain ⟨there_a, there_b, there_c⟩ := hands.there
  have whole := deck_nodup
  have distinct := hands.distinct
  rw [List.nodup_append, List.nodup_append] at distinct
  have once : NoRepeat create_a_pair_cards [a, b, c] :=
    ⟨(taken_there whole there_a).1.symm ▸ distinct.1.1,
      (taken_there (whole.filter _) there_b).1.symm ▸ distinct.1.2.1,
      (taken_there ((whole.filter _).filter _) there_c).1.symm ▸ distinct.2.1, trivial⟩
  have perm := takeAll_perm whole once
  rw [takeAll_there whole there_a, takeAll_there (whole.filter _) there_b,
    takeAll_there ((whole.filter _).filter _) there_c] at perm
  simpa [takeAll] using perm

/-- The hands go to three places of the array, from the first user on. -/
def handPlaces (a b c : List Card) (idx : Int) : Int → Option (List Card) :=
  let next : Int → Int := fun idx => if idx + 1 > 3 then 1 else idx + 1
  Function.update (Function.update (Function.update (fun _ => none) idx (some a))
    (next idx) (some b)) (next (next idx)) (some c)

theorem newUserHands_three (hands : ThreeHands a b c) (idx : Int) :
    newUserHands 10 [a, b, c] idx create_a_pair_cards (fun _ => none) =
      (handPlaces a b c idx, without (without (without create_a_pair_cards a) b) c) := by
  obtain ⟨there_a, there_b, there_c⟩ := hands.there
  have whole := deck_nodup
  rw [newUserHands_there whole there_a, newUserHands_there (whole.filter _) there_b,
    newUserHands_there ((whole.filter _).filter _) there_c]
  rfl

/-- Three hands of a deal in any order. -/
theorem ThreeHands.isDeal (hands : ThreeHands a b c) {dealt : Int → Option (List Card)}
    {x y z : List Card} (first : dealt 1 = some x) (second : dealt 2 = some y)
    (third : dealt 3 = some z) (same : [x, y, z].Perm [a, b, c]) :
    (Dealing.mk (fun p => dealt (p.val + 1))
      (without (without (without create_a_pair_cards a) b) c) none).IsDeal := by
  have seventeen : ∀ hand ∈ [x, y, z], hand.length = 17 := by
    intro hand mem
    have listed := same.mem_iff.mp mem
    simp only [List.mem_cons, List.not_mem_nil, or_false] at listed
    obtain rfl | rfl | rfl := listed
    · exact hands.length_a
    · exact hands.length_b
    · exact hands.length_c
  have left := hands.rest.length_eq
  have deck : create_a_pair_cards.length = 54 := rfl
  simp only [List.length_append, hands.length_a, hands.length_b, hands.length_c] at left
  refine ⟨fun | 0 => x | 1 => y | 2 => z, fun p => ?_, ?_, ?_⟩
  · match p with
    | 0 => exact ⟨first, seventeen x (by simp)⟩
    | 1 => exact ⟨second, seventeen y (by simp)⟩
    | 2 => exact ⟨third, seventeen z (by simp)⟩
  · simp only
    omega
  · refine List.Perm.trans (List.Perm.append_right _ ?_) hands.rest
    simpa using same.flatten

theorem newUserDeal_isDeal_iff (hands : ThreeHands a b c) :
    (newUserDeal [a, b, c] playerArr).IsDeal ↔ ∃ p, (playerArr p).isUser = true := by
  rw [newUserDeal, newUserHands_three hands, userIdx]
  cases found : (List.finRange 3).find? fun p => (playerArr p).isUser with
  | none =>
      rw [List.find?_eq_none] at found
      refine iff_of_false ?_ ?_
      · rintro ⟨cards, dealt, _⟩
        have second := (dealt 1).1
        simp [handPlaces] at second
      · rintro ⟨p, user⟩
        exact found p (List.mem_finRange p) user
  | some p =>
      have user : (playerArr p).isUser = true := by simpa using List.find?_some found
      refine iff_of_true ?_ ⟨p, user⟩
      have seats : ∀ p : Seat, p = 0 ∨ p = 1 ∨ p = 2 := by decide
      obtain rfl | rfl | rfl := seats p
      · exact @ThreeHands.isDeal _ _ _ hands (handPlaces a b c 1) a b c rfl rfl rfl (.refl _)
      · exact @ThreeHands.isDeal _ _ _ hands (handPlaces a b c 2) c a b rfl rfl rfl
          (@List.perm_append_comm _ [c] [a, b])
      · exact @ThreeHands.isDeal _ _ _ hands (handPlaces a b c 3) b c a rfl rfl rfl
          (@List.perm_append_comm _ [b, c] [a])

end NewUser

section Helper
variable {getRoomCardDataCfg : UserId → GAMETYPE → Option RoomCardDataCfg}
variable {gametype : GAMETYPE} {playerArr : Seat → DealPlayer}

theorem cardsOf_short {cfg : RoomCardDataCfg} {k : Nat}
    (short : ∀ cards ∈ cfg.cardDataArr, cards.length ≤ k) (id : UserId) :
    (cfg.cardsOf id).length ≤ k := by
  rw [RoomCardDataCfg.cardsOf]
  split
  · rename_i idx _
    rw [List.getD_eq_getElem?_getD]
    cases found : cfg.cardDataArr[idx]? with
    | none => exact Nat.zero_le _
    | some cards => exact short cards (List.mem_of_getElem? found)
  · exact Nat.zero_le _

/-- The lists a configuration has for the players of the room. -/
def RoomCardDataCfg.lists (cfg : RoomCardDataCfg) (playerArr : Seat → DealPlayer) :
    List (List Card) := (List.finRange 3).map fun p => cfg.cardsOf (playerArr p).id

theorem configuredDeal_isDeal_iff {cfg : RoomCardDataCfg}
    (short : ∀ cards ∈ cfg.cardDataArr, cards.length ≤ 17) :
    (∃ d, configuredDeal cfg playerArr = some d ∧ d.IsDeal) ↔
      NoRepeat create_a_pair_cards (cfg.lists playerArr) := by
  have whole := deck_nodup
  obtain ⟨least, exact_iff⟩ := takeAll_length whole (cfg.lists playerArr)
  have all_short : ∀ cards ∈ cfg.lists playerArr, cards.length ≤ 17 := by
    intro cards mem
    obtain ⟨p, _, rfl⟩ := List.mem_map.mp mem
    exact cardsOf_short short _
  obtain ⟨values_short, size⟩ := @takeAll_short _ create_a_pair_cards 17 all_short
  obtain ⟨hands, bottom, filled, only, deal⟩ :=
    fill_isDeal (size.trans (by rw [RoomCardDataCfg.lists]; simp)) values_short least cfg.firstId
  have dealt : configuredDeal cfg playerArr = some ⟨handsOf hands, bottom, cfg.firstId⟩ := by
    rw [configuredDeal, ← RoomCardDataCfg.lists, filled]
    rfl
  rw [dealt, ← exact_iff]
  constructor
  · rintro ⟨d, same, isDeal⟩
    obtain rfl := Option.some.inj same
    exact only isDeal
  · intro none_over
    exact ⟨_, rfl, deal (takeAll_perm whole (exact_iff.mp none_over))⟩

/-- What the inputs must be for a deal: a configured room repeats no card in a list, and a new user's
configuration comes with a user. -/
def DealInputs (getRoomCardDataCfg : UserId → GAMETYPE → Option RoomCardDataCfg)
    (gametype : GAMETYPE) (playerArr : Seat → DealPlayer)
    (newUserCardCfg : Option (List (List Card))) : Prop :=
  match roomCfg getRoomCardDataCfg gametype playerArr with
  | some cfg => gametype = .noshuffle → NoRepeat create_a_pair_cards (cfg.lists playerArr)
  | none => newUserCardCfg.isSome → ∃ p, (playerArr p).isUser = true

/-- The hands and the bottom cards are the deck just where no list repeats a card and a new
user is there. -/
theorem helper_dealcard_isDeal_iff (getRoomCardDataCfg : UserId → GAMETYPE → Option RoomCardDataCfg)
    (gametype : GAMETYPE) (playerArr : Seat → DealPlayer)
    (newUserCardCfg : Option (List (List Card))) (draws : DealDraws) (valid : draws.Valid)
    (short : ∀ id cfg, getRoomCardDataCfg id gametype = some cfg →
      ∀ cards ∈ cfg.cardDataArr, cards.length ≤ 17)
    (three : ∀ init_cards ∈ newUserCardCfg, ∃ a b c, init_cards = [a, b, c] ∧ ThreeHands a b c) :
    ((∃ d, helper_dealcard getRoomCardDataCfg gametype playerArr newUserCardCfg draws = some d ∧
        d.IsDeal) ↔ DealInputs getRoomCardDataCfg gametype playerArr newUserCardCfg) ∧
      ∀ heaps bottoms, (noshuffle1 draws.sorted heaps bottoms).IsDeal := by
  refine ⟨?_, noshuffle1_isDeal valid.1⟩
  simp only [helper_dealcard, DealInputs]
  cases configured : roomCfg getRoomCardDataCfg gametype playerArr with
  | some cfg =>
      obtain ⟨p, _, given⟩ := List.exists_of_findSome?_eq_some configured
      simp only
      split
      · rename_i noshuffle
        rw [configuredDeal_isDeal_iff (short _ cfg given), forall_prop_of_true noshuffle]
      · rename_i other
        exact iff_of_true (dealcard_isDeal valid gametype) fun noshuffle =>
          absurd noshuffle other
  | none =>
      cases newUserCardCfg with
      | none => exact iff_of_true (dealcard_isDeal valid gametype) nofun
      | some init_cards =>
          obtain ⟨a, b, c, rfl, hands⟩ := three init_cards rfl
          have user := @newUserDeal_isDeal_iff playerArr a b c hands
          simp only [Option.some.injEq, exists_eq_left', user, Option.isSome_some, forall_const]

/-- Draws that cut nothing: the deck by falling value. -/
def uncut : DealDraws :=
  ⟨[], create_a_pair_cards.insertionSort fun a b => V a ≥ V b, []⟩

theorem uncut_valid : uncut.Valid := by
  refine ⟨List.perm_insertionSort _ _, ?_⟩
  rw [uncut]
  decide

theorem helper_dealcard_isDeal_uncut : ∃ d,
    helper_dealcard (fun _ _ => none) .noshuffle (fun p => ⟨p, true⟩) none uncut = some d ∧
      d.IsDeal := by
  refine (helper_dealcard_isDeal_iff (fun _ _ => none) .noshuffle (fun p => ⟨p, true⟩) none uncut
    uncut_valid nofun nofun).1.mpr ?_
  intro given
  cases given

/-- A player's list that names a card twice leaves four bottom cards. -/
theorem configured_twice : ¬∃ d,
    helper_dealcard (fun _ _ => some ⟨[0], [[0x11, 0x11]], none⟩) .noshuffle
      (fun p => ⟨p, true⟩) none uncut = some d ∧ d.IsDeal := by
  rintro ⟨d, dealt, cards, _, three, _⟩
  have four : (helper_dealcard (fun _ _ => some ⟨[0], [[0x11, 0x11]], none⟩) .noshuffle
      (fun p => ⟨p, true⟩) none uncut).map (fun d => d.bottomCards.length) = some 4 := by decide
  rw [dealt, Option.map_some, three] at four
  cases four

end Helper

end HuluLandlord.Ddz
