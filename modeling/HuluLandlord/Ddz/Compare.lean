import HuluLandlord.Ddz.RuleBook

/-!
The comparison of two plays, for any order in which `pairs` visits the groups of their cards. A play has the
type and the weight that it names; the order of the bombs is that of what their cards are, not of the weight
that kind and value are packed into.
-/
namespace HuluLandlord.Ddz

def checkCardTypeIn (o : PairsOrder) (cards : List Card) (type : CardType) (weight : Nat) : Lua Bool := do
  let arr ← parseCardTypeIn o cards
  if arr = [] then .error "bad argument #1 to 'for iterator'"
  else return arr.any fun obj => obj.type = type ∧ obj.weight = weight

def compareCardTypeIn (pairs : List Card → PairsOrder) (obj1 obj2 : PlayCardObj) : Lua Bool := do
  assertLua (← checkCardTypeIn (pairs obj1.cards) obj1.cards obj1.type obj1.weight)
  assertLua (← checkCardTypeIn (pairs obj2.cards) obj2.cards obj2.type obj2.weight)
  return beats obj1 obj2

theorem checkCardTypeIn_eq {o : PairsOrder} {cards : List Card} (deck : OfDeck cards) (visits : o.Visits cards)
    (type : CardType) (weight : Nat) : checkCardTypeIn o cards type weight = checkCardType cards type weight := by
  rw [checkCardTypeIn, checkCardType, parseCardTypeIn_eq deck visits]

/-- Between plays of one deck the order of the groups makes no difference. -/
theorem compareCardTypeIn_eq {pairs : List Card → PairsOrder} {obj1 obj2 : PlayCardObj}
    (deck1 : OfDeck obj1.cards) (deck2 : OfDeck obj2.cards) (visits : ∀ cards, (pairs cards).Visits cards) :
    compareCardTypeIn pairs obj1 obj2 = compareCardType obj1 obj2 := by
  rw [compareCardTypeIn, compareCardType, checkCardTypeIn_eq deck1 (visits _), checkCardTypeIn_eq deck2 (visits _)]

/-- Cards that have the type and the weight named with them. -/
structure Play (pairs : List Card → PairsOrder) where
  obj : PlayCardObj
  checked : checkCardTypeIn (pairs obj.cards) obj.cards obj.type obj.weight = .ok true

/-- The kinds of bombs that one deck has. -/
inductive BombKind
  | four | rocket | chain (k : Nat)
  deriving DecidableEq, Repr

/-- A four is less than the rocket, the rocket less than every chain, a chain less than a longer one. -/
def BombKind.rank : BombKind → Nat
  | .four => 0
  | .rocket => 1
  | .chain k => k

structure Bomb where
  kind : BombKind
  value : Nat
  deriving DecidableEq, Repr

/-- By kind, and within a kind by value. -/
def Bomb.Below (a b : Bomb) : Prop :=
  a.kind.rank < b.kind.rank ∨ a.kind.rank = b.kind.rank ∧ a.value < b.value

/-- What bomb the cards are; the value of a chain is its smallest, the rocket has none. -/
def IsBomb (cards : List Card) (bomb : Bomb) : Prop :=
  match bomb.kind with
  | .four => cards.length = 4 ∧ valueNum cards bomb.value = 4
  | .rocket => cards.length = 2 ∧ valueNum cards 0xe = 1 ∧ valueNum cards 0xf = 1 ∧ bomb.value = 0
  | .chain k => 2 ≤ k ∧ k ≤ 5 ∧ IsRun cards 4 k bomb.value

namespace Play
variable {pairs : List Card → PairsOrder}

def Beats (a b : Play pairs) : Prop := compareCardTypeIn pairs a.obj b.obj = .ok true

def IsZhaDan (a : Play pairs) : Prop := a.obj.type = .zhadan

end Play

/-- The order of the game on all plays. -/
structure PlayOrder (pairs : List Card → PairsOrder) : Prop where
  answers : ∀ a b : Play pairs, ∃ answer, compareCardTypeIn pairs a.obj b.obj = .ok answer
  irreflexive : ∀ a : Play pairs, ¬a.Beats a
  asymmetric : ∀ a b : Play pairs, a.Beats b → ¬b.Beats a
  transitive : ∀ a b c : Play pairs, a.Beats b → b.Beats c → a.Beats c
  bomb_first : ∀ a b : Play pairs, a.IsZhaDan → ¬b.IsZhaDan → a.Beats b ∧ ¬b.Beats a
  bomb : ∀ a : Play pairs, a.IsZhaDan → ∃! bomb, IsBomb a.obj.cards bomb
  ranked : ∀ (a b : Play pairs) (bomb bomb' : Bomb), a.IsZhaDan → b.IsZhaDan → IsBomb a.obj.cards bomb →
    IsBomb b.obj.cards bomb' → (a.Beats b ↔ bomb'.Below bomb)
  comparable : ∀ (a b : Play pairs) (bomb bomb' : Bomb), a.IsZhaDan → b.IsZhaDan → IsBomb a.obj.cards bomb →
    IsBomb b.obj.cards bomb' → bomb ≠ bomb' → a.Beats b ∨ b.Beats a
  others : ∀ a b : Play pairs, ¬a.IsZhaDan → ¬b.IsZhaDan → a.Beats b →
    a.obj.type = b.obj.type ∧ a.obj.cards.length = b.obj.cards.length

section Sizes
variable {cards : List Card} {keys : List Nat} {obj : CardTypeObj} {type : CardType} {weight : Nat}

/-- The number of cards of a type whose plays are compared without their length. -/
def size : CardType → Nat
  | .dan => 1 | .dui => 2 | .tuple => 3 | .sandaiyi => 4 | .sandaiyidui => 5 | .sidaier => 6
  | .sidailiangdui => 8
  | _ => 0

theorem type_isSanDaiYiIn (mem : obj ∈ (isSanDaiYiIn keys cards).getD []) :
    obj.type = .sandaiyi ∧ cards.length = 4 := by
  grind [isSanDaiYiIn, CardTypeObj.plain]

theorem type_isSanDaiYiDuiIn (mem : obj ∈ (isSanDaiYiDuiIn keys cards).getD []) :
    obj.type = .sandaiyidui ∧ cards.length = 5 := by
  grind [isSanDaiYiDuiIn, CardTypeObj.plain]

theorem type_isSiDaiErIn (mem : obj ∈ (isSiDaiErIn keys cards).getD []) :
    obj.type = .sidaier ∧ cards.length = 6 := by
  grind [isSiDaiErIn, CardTypeObj.plain]

theorem type_isSiDaiLiangDuiIn (mem : obj ∈ (isSiDaiLiangDuiIn keys cards).getD []) :
    obj.type = .sidailiangdui ∧ cards.length = 8 := by
  grind [isSiDaiLiangDuiIn, CardTypeObj.plain]

theorem type_isFeiJiDaiDanIn (mem : obj ∈ (isFeiJiDaiDanIn keys cards).getD []) :
    obj.type = .feiji_daidan := by
  grind [isFeiJiDaiDanIn, CardTypeObj.plain]

theorem type_isFeiJiDaiDuiIn (mem : obj ∈ (isFeiJiDaiDuiIn keys cards).getD []) :
    obj.type = .feiji_daidui := by
  grind [isFeiJiDaiDuiIn, CardTypeObj.plain]

end Sizes

/-- The first part of a bomb's weight. -/
def BombKind.info : BombKind → Nat
  | .four => BombInfoData .yingzha
  | .rocket => BombInfoData .wangzha
  | .chain k => match star4 k with
      | some b => BombInfoData b
      | none => 0

def Bomb.weight (bomb : Bomb) : Nat := COMB bomb.value bomb.kind.info

/-- What the comparison needs to know of a type that the parser gives. -/
@[mk_iff] structure Typed (cards : List Card) (type : CardType) (weight : Nat) : Prop where
  bomb : type = .zhadan → ∃ bomb, IsBomb cards bomb ∧ weight = bomb.weight
  sized : type ≠ .zhadan → needCheckLength type = false → cards.length = size type

section Typing
variable {cards : List Card} {obj : CardTypeObj} {type : CardType} {weight : Nat} {arr : List CardTypeObj}

theorem typed_size (plain : type ≠ .zhadan) (num : cards.length = size type) : Typed cards type weight :=
  ⟨fun bomb => absurd bomb plain, fun _ _ => num⟩

theorem typed_run (plain : type ≠ .zhadan) (asked : needCheckLength type = true) : Typed cards type weight :=
  ⟨fun bomb => absurd bomb plain, fun _ unasked => absurd asked (ne_true_of_eq_false unasked)⟩

theorem typed_bomb {bomb : Bomb} (made : IsBomb cards bomb) (packed : weight = bomb.weight) :
    Typed cards .zhadan weight :=
  ⟨fun _ => ⟨bomb, made, packed⟩, fun plain => absurd rfl plain⟩

theorem typed_two (sorted : cards.Pairwise cardLe) (two : cards.length = 2)
    (mem : obj ∈ parseCardTypeTwo cards) : Typed cards obj.type obj.weight := by
  simp only [parseCardTypeTwo] at mem
  split at mem
  · rename_i kings
    have first := (valueAt_iff sorted le_rfl (by omega)).mp kings.1
    have second := (valueAt_iff sorted (by omega) (by omega)).mp kings.2
    have next : below cards 0xf = below cards 0xe + valueNum cards 0xe := below_succ cards 0xe
    have inside := below_add_le cards 0xf
    have made : IsBomb cards ⟨.rocket, 0⟩ := ⟨two, by omega, by omega, rfl⟩
    rw [List.mem_singleton.mp mem]
    exact typed_bomb made (by decide)
  · split at mem
    · rw [List.mem_singleton.mp mem]
      exact typed_size CardType.noConfusion two
    · exact absurd mem List.not_mem_nil

theorem typed_four (sorted : cards.Pairwise cardLe) (four : cards.length = 4) {t : Option (List CardTypeObj)}
    (found : isZhaDan cards = .ok t) (mem : obj ∈ t.getD []) : Typed cards obj.type obj.weight := by
  obtain ⟨t', found', gives⟩ := gives_isZhaDan sorted four
  obtain rfl := Except.ok.inj (found'.symm.trans found)
  obtain ⟨type, v, num, weight⟩ := (gives obj.type obj.weight).mp ⟨obj, mem, rfl, rfl⟩
  have made : IsBomb cards ⟨.four, v⟩ := ⟨four, num⟩
  rw [type]
  exact typed_bomb made weight

theorem typed_chain {t : Option (List CardTypeObj)} (found : isLianZha4xN cards = .ok t)
    (mem : obj ∈ t.getD []) : Typed cards obj.type obj.weight := by
  have none' : t = none → False := by
    rintro rfl
    exact List.not_mem_nil mem
  simp only [isLianZha4xN] at found
  split at found
  · exact (none' (Except.ok.inj found).symm).elim
  rename_i shape
  split at found
  · exact (none' (Except.ok.inj found).symm).elim
  split at found
  · exact (none' (Except.ok.inj found).symm).elim
  split at found
  · exact (none' (Except.ok.inj found).symm).elim
  rename_i start run
  split at found
  · rename_i b row
    obtain rfl := Except.ok.inj found
    obtain rfl := List.mem_singleton.mp mem
    have room := star4_some row
    obtain ⟨-, most, each, -⟩ := (firstRun_some (by omega)).mp run
    have made : IsBomb cards ⟨.chain (cards.length / 4), start⟩ :=
      ⟨room.1, room.2, by omega, most, each⟩
    have weight : COMB start (BombInfoData b) = Bomb.weight ⟨.chain (cards.length / 4), start⟩ := by
      simp only [Bomb.weight, BombKind.info, row]
    exact typed_bomb made weight
  · cases found

/-- Sorting changes neither the number of cards nor how often each value is held. -/
theorem isBomb_sort {bomb : Bomb} : IsBomb (cardSort cards) bomb ↔ IsBomb cards bomb := by
  simp only [IsBomb, cardSort_length, valueNum_sort, isRun_sort]

theorem typed_sort : Typed (cardSort cards) type weight ↔ Typed cards type weight := by
  simp only [typed_iff, isBomb_sort, cardSort_length]

theorem typed_parse {o : PairsOrder} (parsed : parseCardTypeIn o cards = .ok arr) (mem : obj ∈ arr) :
    Typed cards obj.type obj.weight := by
  have sorted : (cardSort cards).Pairwise cardLe := List.pairwise_insertionSort cardLe cards
  rw [← typed_sort]
  simp only [parseCardTypeIn] at parsed
  generalize cardSort cards = cards at *
  split at parsed
  · rename_i one
    obtain rfl := Except.ok.inj parsed
    rw [List.mem_singleton.mp mem]
    exact typed_size CardType.noConfusion one
  · rename_i two
    obtain rfl := Except.ok.inj parsed
    exact typed_two sorted two mem
  · rename_i three
    obtain rfl := Except.ok.inj parsed
    simp only [parseCardTypeThree] at mem
    split at mem
    · rw [List.mem_singleton.mp mem]
      exact typed_size CardType.noConfusion three
    · exact absurd mem List.not_mem_nil
  · rename_i four
    simp only [parseCardTypeFourIn, bind, Except.bind, pure, Except.pure] at parsed
    split at parsed
    · cases parsed
    · rename_i t found
      obtain rfl := Except.ok.inj parsed
      obtain mem | mem := List.mem_append.mp mem
      · exact typed_four sorted four found mem
      · obtain ⟨type, num⟩ := type_isSanDaiYiIn mem
        exact typed_size (by rw [type]; decide) (by rw [type]; exact num)
  · simp only [parseCardTypeOtherIn, bind, Except.bind, pure, Except.pure] at parsed
    split at parsed
    · cases parsed
    · rename_i t found
      obtain rfl := Except.ok.inj parsed
      simp only [List.mem_append] at mem
      have sized {type : CardType} (given : obj.type = type ∧ cards.length = size type)
          (plain : type ≠ .zhadan) : Typed cards obj.type obj.weight := by
        obtain ⟨rfl, num⟩ := given
        exact typed_size plain num
      have asked {type : CardType} (given : obj.type = type) (plain : type ≠ .zhadan)
          (asked : needCheckLength type = true) : Typed cards obj.type obj.weight := by
        subst given
        exact typed_run plain asked
      obtain (((((((mem | mem) | mem) | mem) | mem) | mem) | mem) | mem) | mem := mem
      · exact sized (type_isSanDaiYiDuiIn mem) (by decide)
      · exact sized (type_isSiDaiErIn mem) (by decide)
      · exact sized (type_isSiDaiLiangDuiIn mem) (by decide)
      · exact asked (type_isShunZi mem) (by decide) (by decide)
      · exact asked (type_isRepeatRun mem) (by decide) (by decide)
      · exact asked (type_isRepeatRun mem) (by decide) (by decide)
      · exact asked (type_isFeiJiDaiDanIn mem) (by decide) (by decide)
      · exact asked (type_isFeiJiDaiDuiIn mem) (by decide) (by decide)
      · exact typed_chain found mem

theorem typed_check {o : PairsOrder} (checked : checkCardTypeIn o cards type weight = .ok true) :
    Typed cards type weight := by
  simp only [checkCardTypeIn, bind, Except.bind, pure, Except.pure] at checked
  split at checked
  · cases checked
  · rename_i arr parsed
    split at checked
    · cases checked
    · obtain ⟨obj, mem, same⟩ := List.any_eq_true.mp (Except.ok.inj checked)
      obtain ⟨rfl, rfl⟩ := of_decide_eq_true same
      exact typed_parse parsed mem

end Typing

section Bombs
variable {cards cards' : List Card} {bomb bomb' : Bomb}

theorem IsBomb.value_lt (made : IsBomb cards bomb) : bomb.value < 256 := by
  obtain ⟨kind, value⟩ := bomb
  cases kind with
  | four =>
      have num : valueNum cards value = 4 := made.2
      obtain ⟨card, -, rfl⟩ := valueNum_pos.mp (by omega : 0 < valueNum cards value)
      exact (V_lt card).trans (by decide)
  | rocket =>
      have none' : value = 0 := made.2.2.2
      exact none' ▸ (by decide)
  | chain k =>
      have most : value + k ≤ 0xd := made.2.2.most
      show value < 256
      omega

/-- The first part of the weight, by the rank of the kind. -/
theorem IsBomb.info_eq (made : IsBomb cards bomb) : bomb.kind.rank ≤ 5 ∧ bomb.kind.info =
    if bomb.kind.rank < 2 then bomb.kind.rank + 2 else if bomb.kind.rank = 5 then 10
      else 2 * bomb.kind.rank + 1 := by
  obtain ⟨kind, value⟩ := bomb
  cases kind with
  | four => exact ⟨Nat.zero_le _, rfl⟩
  | rocket => exact ⟨Nat.one_le_ofNat, rfl⟩
  | chain k =>
      obtain ⟨two, five, -⟩ : 2 ≤ k ∧ k ≤ 5 ∧ IsRun cards 4 k value := made
      refine ⟨five, ?_⟩
      show (BombKind.chain k).info = if k < 2 then k + 2 else if k = 5 then 10 else 2 * k + 1
      interval_cases k <;> rfl

/-- The kinds have the order of the first parts of their weights. -/
theorem IsBomb.info_lt (made : IsBomb cards bomb) (made' : IsBomb cards' bomb') :
    bomb.kind.info < bomb'.kind.info ↔ bomb.kind.rank < bomb'.kind.rank := by
  obtain ⟨most, info⟩ := made.info_eq
  obtain ⟨most', info'⟩ := made'.info_eq
  rw [info, info']
  split <;> split <;> (try split) <;> (try split) <;> omega

theorem IsBomb.weight_lt (made : IsBomb cards bomb) (made' : IsBomb cards' bomb') :
    bomb.weight < bomb'.weight ↔ bomb.Below bomb' := by
  have small := made.value_lt
  have small' := made'.value_lt
  have up := made.info_lt made'
  have down := made'.info_lt made
  unfold Bomb.weight Bomb.Below COMB
  omega

/-- Chains are longer than one four, so no two kinds share a rank. -/
theorem IsBomb.kind_of_rank (made : IsBomb cards bomb) (made' : IsBomb cards' bomb')
    (same : bomb.kind.rank = bomb'.kind.rank) : bomb.kind = bomb'.kind := by
  obtain ⟨kind, value⟩ := bomb
  obtain ⟨kind', value'⟩ := bomb'
  have chain {cards : List Card} {k value n : Nat} (made : IsBomb cards ⟨.chain k, value⟩)
      (rank : n = k) (less : n < 2) : False := by
    have two : 2 ≤ k := made.1
    omega
  cases kind with
  | four =>
      cases kind' with
      | four => rfl
      | rocket => cases same
      | chain k => exact (chain made' same Nat.zero_lt_two).elim
  | rocket =>
      cases kind' with
      | four => cases same
      | rocket => rfl
      | chain k => exact (chain made' same Nat.one_lt_two).elim
  | chain k =>
      cases kind' with
      | four => exact (chain made same.symm Nat.zero_lt_two).elim
      | rocket => exact (chain made same.symm Nat.one_lt_two).elim
      | chain k' => exact congrArg BombKind.chain same

/-- The cards say of what kind a bomb is. -/
theorem IsBomb.kind_eq (made : IsBomb cards bomb) (made' : IsBomb cards bomb') : bomb.kind = bomb'.kind := by
  obtain ⟨kind, value⟩ := bomb
  obtain ⟨kind', value'⟩ := bomb'
  have length {kind : BombKind} {value : Nat} (made : IsBomb cards ⟨kind, value⟩) : cards.length =
      match kind with
      | .four => 4
      | .rocket => 2
      | .chain k => 4 * k := by
    cases kind with
    | four => exact made.1
    | rocket => exact made.1
    | chain k => exact made.2.2.num
  have num := (length made).symm.trans (length made')
  cases kind with
  | four =>
      cases kind' with
      | four => rfl
      | rocket => cases num
      | chain k =>
          have two : 2 ≤ k := made'.1
          have num : 4 = 4 * k := num
          omega
  | rocket =>
      cases kind' with
      | four => cases num
      | rocket => rfl
      | chain k =>
          have num : 2 = 4 * k := num
          omega
  | chain k =>
      have two : 2 ≤ k := made.1
      cases kind' with
      | four =>
          have num : 4 * k = 4 := num
          omega
      | rocket =>
          have num : 4 * k = 2 := num
          omega
      | chain k' =>
          have num : 4 * k = 4 * k' := num
          exact congrArg BombKind.chain (by omega)

theorem IsBomb.unique (made : IsBomb cards bomb) (made' : IsBomb cards bomb') : bomb = bomb' := by
  have kinds := made.kind_eq made'
  obtain ⟨kind, value⟩ := bomb
  obtain ⟨kind', value'⟩ := bomb'
  obtain rfl : kind = kind' := kinds
  refine congrArg (Bomb.mk kind) ?_
  cases kind with
  | four =>
      by_contra differ
      have both := @valueNum_add_le cards value value' differ
      have num : valueNum cards value = 4 := made.2
      have num' : valueNum cards value' = 4 := made'.2
      have whole : cards.length = 4 := made.1
      omega
  | rocket => exact made.2.2.2.trans made'.2.2.2.symm
  | chain k =>
      have two : 2 ≤ k := made.1
      have run : IsRun cards 4 k value := made.2.2
      have run' : IsRun cards 4 k value' := made'.2.2
      -- the first value of each run is held, so it lies in the other run
      have inside := run.valueNum_eq value'
      have inside' := run'.valueNum_eq value
      rw [run'.valueNum_eq, if_pos (by omega)] at inside
      rw [run.valueNum_eq, if_pos (by omega)] at inside'
      split at inside
      · split at inside'
        · omega
        · cases inside'
      · cases inside

end Bombs

namespace Play
variable {pairs : List Card → PairsOrder} {a b : Play pairs}

theorem compare_eq (a b : Play pairs) : compareCardTypeIn pairs a.obj b.obj = .ok (beats a.obj b.obj) := by
  simp only [compareCardTypeIn, a.checked, b.checked]
  rfl

theorem beats_iff : a.Beats b ↔ beats a.obj b.obj = true := by
  rw [Beats, compare_eq, Except.ok.injEq]

theorem typed (a : Play pairs) : Typed a.obj.cards a.obj.type a.obj.weight := typed_check a.checked

theorem bomb_over (bomb : a.IsZhaDan) (plain : ¬b.IsZhaDan) : a.Beats b := by
  rw [beats_iff, beats, if_pos ⟨bomb, plain⟩]

theorem not_over (plain : ¬a.IsZhaDan) (bomb : b.IsZhaDan) : ¬a.Beats b := by
  rw [beats_iff, beats, if_neg fun both => plain both.1, if_pos ⟨plain, bomb⟩]
  decide

theorem bombs_iff (bomb : a.IsZhaDan) (bomb' : b.IsZhaDan) : a.Beats b ↔ b.obj.weight < a.obj.weight := by
  rw [beats_iff, beats, if_neg fun both => both.2 bomb', if_neg fun both => both.1 bomb,
    if_pos ⟨bomb, bomb'⟩, decide_eq_true_iff]

/-- Two plays that are no bombs: the same type, as many cards, and a larger weight. -/
theorem plain_iff (plain : ¬a.IsZhaDan) (plain' : ¬b.IsZhaDan) : a.Beats b ↔ a.obj.type = b.obj.type ∧
    a.obj.cards.length = b.obj.cards.length ∧ b.obj.weight < a.obj.weight := by
  rw [beats_iff, beats, if_neg fun both => plain both.1, if_neg fun both => plain' both.2,
    if_neg fun both => plain both.1]
  constructor
  · intro holds
    split at holds
    · rename_i related
      refine ⟨related.1, ?_, related.2⟩
      cases asked : needCheckLength a.obj.type with
      | true => simpa [asked] using holds
      | false => rw [a.typed.sized plain asked, b.typed.sized plain' (related.1 ▸ asked), related.1]
    · cases holds
  · rintro ⟨type, num, less⟩
    rw [if_pos ⟨type, less⟩]
    simp [num]

theorem zhadan_of_beats (over' : a.Beats b) (bomb : b.IsZhaDan) : a.IsZhaDan := by
  by_contra plain
  exact not_over plain bomb over'

theorem weight_of_bombs {bomb bomb' : Bomb} (bombA : a.IsZhaDan) (bombB : b.IsZhaDan)
    (made : IsBomb a.obj.cards bomb) (made' : IsBomb b.obj.cards bomb') : a.Beats b ↔ bomb'.Below bomb := by
  have weight {a : Play pairs} {bomb : Bomb} (zhadan : a.IsZhaDan) (made : IsBomb a.obj.cards bomb) :
      a.obj.weight = bomb.weight := by
    obtain ⟨own, made', weight⟩ := a.typed.bomb zhadan
    rw [weight, made'.unique made]
  rw [bombs_iff bombA bombB, weight bombA made, weight bombB made', made'.weight_lt made]

theorem beats_trans {c : Play pairs} (first : a.Beats b) (second : b.Beats c) : a.Beats c := by
  by_cases bombA : a.IsZhaDan
  · by_cases bombC : c.IsZhaDan
    · have bombB := zhadan_of_beats second bombC
      rw [bombs_iff bombA bombB] at first
      rw [bombs_iff bombB bombC] at second
      exact (bombs_iff bombA bombC).mpr (second.trans first)
    · exact bomb_over bombA bombC
  · have plainB : ¬b.IsZhaDan := fun bomb => bombA (zhadan_of_beats first bomb)
    have plainC : ¬c.IsZhaDan := fun bomb => plainB (zhadan_of_beats second bomb)
    obtain ⟨type, num, less⟩ := (plain_iff bombA plainB).mp first
    obtain ⟨type', num', less'⟩ := (plain_iff plainB plainC).mp second
    exact (plain_iff bombA plainC).mpr ⟨type.trans type', num.trans num', less'.trans less⟩

theorem beats_irrefl (a : Play pairs) : ¬a.Beats a := by
  by_cases bomb : a.IsZhaDan
  · rw [bombs_iff bomb bomb]
    exact lt_irrefl _
  · rw [plain_iff bomb bomb]
    exact fun related => lt_irrefl _ related.2.2

end Play

/-- The plays are strictly ordered, the bombs linearly and above all other plays. -/
theorem compare_order (pairs : List Card → PairsOrder) : PlayOrder pairs where
  answers a b := ⟨_, Play.compare_eq a b⟩
  irreflexive := Play.beats_irrefl
  asymmetric a b over' back := Play.beats_irrefl a (Play.beats_trans over' back)
  transitive a b c := Play.beats_trans
  bomb_first a b bomb plain := ⟨Play.bomb_over bomb plain, Play.not_over plain bomb⟩
  bomb a zhadan := by
    obtain ⟨bomb, made, -⟩ := a.typed.bomb zhadan
    exact ⟨bomb, made, fun other made' => made'.unique made⟩
  ranked a b bomb bomb' := Play.weight_of_bombs
  comparable a b bomb bomb' zhadan zhadan' made made' differ := by
    rw [Play.weight_of_bombs zhadan zhadan' made made', Play.weight_of_bombs zhadan' zhadan made' made]
    have kinds : bomb.kind.rank = bomb'.kind.rank → bomb.kind = bomb'.kind := made.kind_of_rank made'
    by_contra neither
    simp only [Bomb.Below, not_or, not_and] at neither
    have same := kinds (by omega)
    have value : bomb.value = bomb'.value := by omega
    obtain ⟨kind, v⟩ := bomb
    obtain ⟨kind', v'⟩ := bomb'
    obtain rfl : kind = kind' := same
    obtain rfl : v = v' := value
    exact differ rfl
  others a b plain plain' over' := by
    obtain ⟨type, num, -⟩ := (Play.plain_iff plain plain').mp over'
    exact ⟨type, num⟩

end HuluLandlord.Ddz
