import HuluLandlord.Ddz.Parse

/-!
The greedy decomposition of a hand used by the auto-player: bombs, planes, runs
of pairs, runs, pairs, singles. `value_cards` is a function from values to the
cards of that value not yet assigned; a cleared entry is the empty list. Entries
the source walks with `pairs` are walked by ascending value. The three searches
for consecutive values share one loop.
-/
namespace HuluLandlord.Ddz

abbrev ValueCards := Nat → List Card

/-- A combination as the auto-player builds it: type, weight and cards. -/
structure Move where
  type : CardType
  weight : Nat
  cards : List Card
  deriving DecidableEq, Repr

/-- Without jokers that stand for other cards (`lepers = {}`). -/
def find_all_zhadan (value_cards : ValueCards) : List Move × ValueCards :=
  (((List.range 16).filter fun v => (value_cards v).length = 4).map fun v =>
      ⟨.zhadan, COMB v (BombInfoData .yingzha), value_cards v⟩,
    fun v => if (value_cards v).length = 4 then [] else value_cards v)

/-- Take `k` cards from each of the `n` values from `j` on, up to the first value
that does not fit. -/
def extend (fits : List Card → Bool) (k : Nat) : ValueCards → Nat → Nat → List Card × ValueCards
  | value_cards, _, 0 => ([], value_cards)
  | value_cards, j, n + 1 =>
      if fits (value_cards j) then
        let more := extend fits k
          (Function.update value_cards j ((value_cards j).drop k)) (j + 1) n
        ((value_cards j).take k ++ more.1, more.2)
      else ([], value_cards)

/-- Wherever `minLen` consecutive values fit, take them and go on up to the ace. -/
def collect (fits : List Card → Bool) (k minLen : Nat) :
    ValueCards → List Nat → List (Nat × List Card) × ValueCards
  | value_cards, [] => ([], value_cards)
  | value_cards, i :: starts =>
      if (List.range minLen).all fun d => fits (value_cards (i + d)) then
        let front := extend fits k value_cards i minLen
        let back := extend fits k front.2 (i + minLen) (0xd - (i + minLen))
        let others := collect fits k minLen back.2 starts
        ((i, front.1 ++ back.1) :: others.1, others.2)
      else collect fits k minLen value_cards starts

def find_all_threeX (value_cards : ValueCards) : List (List Card) × ValueCards :=
  let found := collect (fun c => c.length = 3) 3 1 value_cards (List.range' 1 0xd)
  (found.1.map Prod.snd, found.2)

def find_all_liandui (value_cards : ValueCards) : List Move × ValueCards :=
  let found := collect (fun c => c.length = 2) 2 3 value_cards (List.range' 1 0xa)
  (found.1.map fun (i, cards) => ⟨.liandui, i, cards⟩, found.2)

def find_all_shunzi (value_cards : ValueCards) : List Move × ValueCards :=
  let found := collect (fun c => 0 < c.length) 1 5 value_cards (List.range' 1 0x8)
  (found.1.map fun (i, cards) => ⟨.shunzi, i, cards⟩, found.2)

def find_all_duiX (value_cards : ValueCards) : List (List Card) :=
  ((List.range 16).map value_cards).filter fun cards => cards.length = 2

def firstValue (cards : List Card) : Nat := V (cards.headD 0)

def find_all_danX (value_cards : ValueCards) (kings : List Card) : List (List Card) :=
  ((((List.range 16).map value_cards).filter fun cards => cards.length = 1)
    ++ kings.map fun card => [card]).insertionSort fun a b => firstValue a ≤ firstValue b

structure Split where
  type_list : List Move
  three_list : List (List Card)
  dui_list : List (List Card)
  dan_list : List (List Card)
  deriving DecidableEq, Repr

def split_cards (cards : List Card) : Split :=
  let (kings, cards) := removeKing cards
  let wangzha := if kings.length = 2 then
    [⟨.zhadan, COMB 0 (BombInfoData .wangzha), kings⟩] else []
  let kings := if kings.length = 2 then [] else kings
  let zhadan := find_all_zhadan (valueGroup cards)
  let three := find_all_threeX zhadan.2
  let liandui := find_all_liandui three.2
  let shunzi := find_all_shunzi liandui.2
  { type_list := (wangzha ++ zhadan.1 ++ liandui.1 ++ shunzi.1).insertionSort
      fun a b => a.weight ≤ b.weight
    three_list := three.1
    dui_list := find_all_duiX shunzi.2
    dan_list := find_all_danX shunzi.2 kings }

end HuluLandlord.Ddz
