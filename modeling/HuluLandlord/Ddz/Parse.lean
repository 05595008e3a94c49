import HuluLandlord.Ddz.Card

/-!
Recognition and comparison of card types. Every recogniser receives the cards
sorted by `cardSort` and answers `none` where the source returns nothing. A
raised error is an `Except` error with the source's text. The sources' `cards`
field is only filled on the client and is left out here.
-/
namespace HuluLandlord.Ddz

abbrev Lua := Except String

inductive CardType
  | dan | dui | tuple | sandaiyi | sandaiyidui | shunzi | liandui
  | feiji_budai | feiji_daidan | feiji_daidui | sidaier | sidailiangdui | zhadan
  deriving DecidableEq, Repr

inductive BombType
  | ruanzha | yingzha | wangzha | star_5 | star_4_2 | star_6 | star_4_3 | star_5_2
  | star_4_4 | star_4_5
  deriving DecidableEq, Repr

/-- The subtype only selects an effect; by default it is the type itself. -/
inductive CardSubType
  | ofType (type : CardType) | tongtianshun | bomb (bombType : BombType)
  deriving DecidableEq, Repr

def BombInfoData : BombType → Nat
  | .ruanzha => 1 | .yingzha => 2 | .wangzha => 3 | .star_5 => 4 | .star_4_2 => 5
  | .star_6 => 6 | .star_4_3 => 7 | .star_5_2 => 8 | .star_4_4 => 9 | .star_4_5 => 10

def bombTypes : List BombType :=
  [.ruanzha, .yingzha, .wangzha, .star_5, .star_4_2, .star_6, .star_4_3, .star_5_2,
    .star_4_4, .star_4_5]

/-- `_BombWeightToKey[weight >> 8]`. -/
def getBombType (weight : Nat) : Option BombType :=
  bombTypes.find? fun b => BombInfoData b = weight / 256

structure CardTypeObj where
  type : CardType
  weight : Nat
  subtype : CardSubType
  deriving DecidableEq, Repr

def CardTypeObj.plain (type : CardType) (weight : Nat) : CardTypeObj :=
  ⟨type, weight, .ofType type⟩

def parseCardTypeTwo (cards : List Card) : List CardTypeObj :=
  let v1 := valueAt cards 1
  let v2 := valueAt cards 2
  if v1 = 0xe ∧ v2 = 0xf then
    [⟨.zhadan, COMB 0 (BombInfoData .wangzha), .bomb .wangzha⟩]
  else if v1 = v2 then [.plain .dui v1] else []

def parseCardTypeThree (cards : List Card) : List CardTypeObj :=
  if valueAt cards 1 = valueAt cards cards.length then [.plain .tuple (valueAt cards 1)] else []

def isZhaDan (cards : List Card) : Lua (Option (List CardTypeObj)) :=
  let num := cards.length
  if 4 ≤ num ∧ valueAt cards 1 = valueAt cards num then
    let found (b : BombType) : Option (List CardTypeObj) :=
      some [⟨.zhadan, COMB (valueAt cards 1) (BombInfoData b), .bomb .yingzha⟩]
    if num = 4 then .ok (found .yingzha)
    else if num = 5 then .ok (found .star_5)
    else if num = 6 then .ok (found .star_6)
    else .error "invalid cards num:"
  else .ok none

def isSanDaiYi (cards : List Card) : Option (List CardTypeObj) :=
  if cards.length = 4 then
    if valueAt cards 1 = valueAt cards 4 ∨ valueAt cards 2 ≠ valueAt cards 3 then none
    else some (((valueKeys cards).find? fun v => valueNum cards v = 3).toList.map
      (.plain .sandaiyi))
  else none

def parseCardTypeFour (cards : List Card) : Lua (List CardTypeObj) := do
  let t1 ← isZhaDan cards
  return t1.getD [] ++ (isSanDaiYi cards).getD []

def isSanDaiYiDui (cards : List Card) : Option (List CardTypeObj) :=
  if cards.length = 5 then
    if valueAt cards 1 ≠ valueAt cards 2 then none
    else if getKingCount cards > 0 then none
    else
      let arr2 := (valueKeys cards).find? fun v => valueNum cards v = 2
      let arr3 := (valueKeys cards).find? fun v => valueNum cards v = 3
      match arr2, arr3 with
      | some _, some v => some [.plain .sandaiyidui v]
      | _, _ => some []
  else none

def isSiDaiEr (cards : List Card) : Option (List CardTypeObj) :=
  if cards.length = 6 then
    if valueAt cards 1 = valueAt cards 6 then none
    else if valueAt cards 3 ≠ valueAt cards 4 then none
    else
      -- the loop stops at the first group of four or more; only four is accepted
      match (valueKeys cards).find? fun v => 4 ≤ valueNum cards v with
      | some v => if valueNum cards v = 4 then some [.plain .sidaier v] else some []
      | none => some []
  else none

/-- The group loop of `isSiDaiLiangDui`: the group of four whose first card has
the larger code, the number of such groups and the number of pairs. -/
def siDaiLiangDuiScan (cards : List Card) :
    List Nat → Option Nat → Nat → Nat → Option Nat × Nat × Nat
  | [], arr4, arr4Count, duiCount => (arr4, arr4Count, duiCount)
  | v :: keys, arr4, arr4Count, duiCount =>
      let len := valueNum cards v
      let code (v : Nat) : Card := (valueGroup cards v).headD 0
      if len > 4 then (arr4, arr4Count, duiCount)
      else if len = 2 then siDaiLiangDuiScan cards keys arr4 arr4Count (duiCount + 1)
      else if len = 4 then
        let larger := match arr4 with
          | none => v
          | some w => if code v > code w then v else w
        siDaiLiangDuiScan cards keys (some larger) (arr4Count + 1) duiCount
      else siDaiLiangDuiScan cards keys arr4 arr4Count duiCount

def isSiDaiLiangDui (cards : List Card) : Option (List CardTypeObj) :=
  if cards.length ≠ 8 then none
  else if valueAt cards 1 = valueAt cards 8 then none
  else if valueAt cards 1 ≠ valueAt cards 2 ∧ valueAt cards 7 ≠ valueAt cards 8 then none
  else
    let len := (valueKeys cards).length
    if len < 2 then none
    else if len = 2 ∧ valueAt cards 1 + 1 = valueAt cards 8 ∧ valueAt cards 8 ≠ 0xd then none
    else
      match siDaiLiangDuiScan cards (valueKeys cards) none 0 0 with
      | (some v, arr4Count, duiCount) =>
          if arr4Count = 2 ∨ duiCount = 2 then some [.plain .sidailiangdui v] else some []
      | (none, _, _) => some []

/-- The loop of `isShunZi` over the sorted cards, carrying the values met and the
least, largest and last of them; `none` is an early `return`. -/
def shunZiScan : List Card → List Nat → Option (Nat × Nat × Nat) → Option (Nat × Nat × Nat)
  | [], _, acc => acc
  | card :: rest, dic, acc =>
      let v := V card
      if acc.any (fun (_, _, lastVal) => v ≠ lastVal + 1) then none
      else if v ∈ dic then none
      else if isKing card || is2 card then none
      else shunZiScan rest (v :: dic) (some (match acc with
        | none => (v, v, v)
        | some (minVal, maxVal, _) => (min v minVal, max v maxVal, v)))

def isShunZi (cards : List Card) : Option (List CardTypeObj) :=
  if cards.length < 5 then none
  else match shunZiScan cards [] none with
    | none => none
    | some (minVal, maxVal, _) =>
        if maxVal - minVal ≥ cards.length then none
        else some [⟨.shunzi, valueAt cards 1,
          if maxVal = 0xc then .tongtianshun else .ofType .shunzi⟩]

/-- The loop shared by `isLianDui` and `isFeiJiBuDai`: no king, no 2, no value met
more than `limit` times. -/
def repeatScan (limit : Nat) : List Card → List Nat → Option (Nat × Nat) → Option (Nat × Nat)
  | [], _, acc => acc
  | card :: rest, dic, acc =>
      let v := V card
      if isKing card || is2 card then none
      else if (v :: dic).count v > limit then none
      else repeatScan limit rest (v :: dic) (some (match acc with
        | none => (v, v)
        | some (minVal, maxVal) => (min v minVal, max v maxVal)))

/-- `isLianDui` and `isFeiJiBuDai` differ in the number of cards of one value. -/
def isRepeatRun (limit : Nat) (type : CardType) (cards : List Card) :
    Option (List CardTypeObj) :=
  let num := cards.length
  if num < 6 ∨ num % limit ≠ 0 then none
  else match repeatScan limit cards [] none with
    | none => none
    | some (minVal, maxVal) =>
        if maxVal - minVal ≥ num / limit then none else some [.plain type (valueAt cards 1)]

def isLianDui : List Card → Option (List CardTypeObj) := isRepeatRun 2 .liandui
def isFeiJiBuDai : List Card → Option (List CardTypeObj) := isRepeatRun 3 .feiji_budai

/-- `groupData[maxVal]`: the largest value held at least three times whose lower
neighbour is held too. -/
def feiJiTop (cards : List Card) : Option Nat :=
  (valueKeys cards).foldl (fun maxVal v =>
    if 3 ≤ valueNum cards v ∧ maxVal.all (fun m => m < v) ∧ 1 ≤ v ∧ 0 < valueNum cards (v - 1)
    then some v else maxVal) none

def isFeiJiDaiDan (cards : List Card) : Option (List CardTypeObj) :=
  let num := cards.length
  if num < 8 ∨ num % 4 ≠ 0 then none
  else
    let threeNum := num / 4
    if (valueKeys cards).length < threeNum + 1 then none
    else match feiJiTop cards with
      | none => none
      | some maxVal =>
          if (List.range' 1 (threeNum - 1)).all fun j =>
              j ≤ maxVal ∧ 3 ≤ valueNum cards (maxVal - j) then
            some [.plain .feiji_daidan (maxVal - (threeNum - 1))]
          else none

/-- The loop shared by `isFeiJiDaiDui` and `isLianZha4xN`: the first value held
exactly `k` times decides, and it must start `num` such values in a row. -/
def firstRun (cards : List Card) (k num : Nat) : Option Nat :=
  match (List.range' 1 (0xd - num)).find? fun i => valueNum cards i = k with
  | none => none
  | some i =>
      if (List.range' 1 (num - 1)).all fun j => valueNum cards (i + j) = k then some i else none

def isFeiJiDaiDui (cards : List Card) : Option (List CardTypeObj) :=
  let num := cards.length
  if num < 10 ∨ num % 5 ≠ 0 then none
  else if (valueKeys cards).length < 3 then none
  else match firstRun cards 3 (num / 5) with
    | none => none
    | some weight =>
        if (valueKeys cards).all fun v => valueNum cards v = 3 ∨ valueNum cards v % 2 = 0 then
          some [.plain .feiji_daidui weight]
        else none

/-- `"star_4_" .. zhadanNum`, where the table has such a key. -/
def star4 : Nat → Option BombType
  | 2 => some .star_4_2 | 3 => some .star_4_3 | 4 => some .star_4_4 | 5 => some .star_4_5
  | _ => none

def isLianZha4xN (cards : List Card) : Lua (Option (List CardTypeObj)) :=
  let num := cards.length
  if num < 8 ∨ num % 4 ≠ 0 then .ok none
  else if valueAt cards 1 = valueAt cards num then .ok none
  else if (valueKeys cards).length < 2 then .ok none
  else match firstRun cards 4 (num / 4) with
    | none => .ok none
    | some weight =>
        match star4 (num / 4) with
        | some b => .ok (some [⟨.zhadan, COMB weight (BombInfoData b), .bomb b⟩])
        | none => .error "attempt to index a nil value"

def parseCardTypeOther (cards : List Card) : Lua (List CardTypeObj) := do
  let lianZha ← isLianZha4xN cards
  return (isSanDaiYiDui cards).getD [] ++ (isSiDaiEr cards).getD []
    ++ (isSiDaiLiangDui cards).getD [] ++ (isShunZi cards).getD [] ++ (isLianDui cards).getD []
    ++ (isFeiJiBuDai cards).getD [] ++ (isFeiJiDaiDan cards).getD []
    ++ (isFeiJiDaiDui cards).getD [] ++ lianZha.getD []

/-- All matching types, in the order of the recognisers; the source's `nil` for no
match is the empty list here, which the table never is otherwise. -/
def parseCardType (cards : List Card) : Lua (List CardTypeObj) :=
  let cards := cardSort cards
  match cards.length with
  | 1 => .ok [.plain .dan (valueAt cards 1)]
  | 2 => .ok (parseCardTypeTwo cards)
  | 3 => .ok (parseCardTypeThree cards)
  | 4 => parseCardTypeFour cards
  | _ => parseCardTypeOther cards

/-- A move as it is kept in `lastPlayCardObj` and `playedCards`. -/
structure PlayCardObj where
  type : CardType
  weight : Nat
  cards : List Card
  subtype : CardSubType
  deriving DecidableEq, Repr

def checkCardType (cards : List Card) (type : CardType) (weight : Nat) : Lua Bool := do
  let arr ← parseCardType cards
  if arr = [] then .error "bad argument #1 to 'for iterator'"
  else return arr.any fun obj => obj.type = type ∧ obj.weight = weight

def needCheckLength : CardType → Bool
  | .shunzi | .liandui | .feiji_budai | .feiji_daidan | .feiji_daidui => true
  | _ => false

def assertLua (holds : Bool) : Lua Unit :=
  if holds then .ok () else .error "assertion failed!"

/-- The order on two moves whose types have been checked. -/
def beats (obj1 obj2 : PlayCardObj) : Bool :=
  if obj1.type = .zhadan ∧ obj2.type ≠ .zhadan then true
  else if obj1.type ≠ .zhadan ∧ obj2.type = .zhadan then false
  else if obj1.type = .zhadan ∧ obj2.type = .zhadan then decide (obj1.weight > obj2.weight)
  else if obj1.type = obj2.type ∧ obj1.weight > obj2.weight then
    !(needCheckLength obj1.type && obj1.cards.length ≠ obj2.cards.length)
  else false

def compareCardType (obj1 obj2 : PlayCardObj) : Lua Bool := do
  assertLua (← checkCardType obj1.cards obj1.type obj1.weight)
  assertLua (← checkCardType obj2.cards obj2.type obj2.weight)
  return beats obj1 obj2

section Types
variable {cards : List Card} {obj : CardTypeObj} {arr : List CardTypeObj}

theorem type_isSanDaiYi (mem : obj ∈ (isSanDaiYi cards).getD []) : obj.type = .sandaiyi := by
  grind [isSanDaiYi, CardTypeObj.plain]

theorem type_isSanDaiYiDui (mem : obj ∈ (isSanDaiYiDui cards).getD []) :
    obj.type = .sandaiyidui := by
  grind [isSanDaiYiDui, CardTypeObj.plain]

theorem type_isSiDaiEr (mem : obj ∈ (isSiDaiEr cards).getD []) : obj.type = .sidaier := by
  grind [isSiDaiEr, CardTypeObj.plain]

theorem type_isSiDaiLiangDui (mem : obj ∈ (isSiDaiLiangDui cards).getD []) :
    obj.type = .sidailiangdui := by
  grind [isSiDaiLiangDui, CardTypeObj.plain]

theorem type_isShunZi (mem : obj ∈ (isShunZi cards).getD []) : obj.type = .shunzi := by
  grind [isShunZi, CardTypeObj.plain]

theorem type_isRepeatRun {limit : Nat} {type : CardType}
    (mem : obj ∈ (isRepeatRun limit type cards).getD []) : obj.type = type := by
  grind [isRepeatRun, CardTypeObj.plain]

theorem type_isFeiJiDaiDan (mem : obj ∈ (isFeiJiDaiDan cards).getD []) :
    obj.type = .feiji_daidan := by
  grind [isFeiJiDaiDan, CardTypeObj.plain]

theorem type_isFeiJiDaiDui (mem : obj ∈ (isFeiJiDaiDui cards).getD []) :
    obj.type = .feiji_daidui := by
  grind [isFeiJiDaiDui, CardTypeObj.plain]

/-- The bombs of one deck: four of a kind, both jokers, runs of fours. -/
def deckBombs : List BombType := [.yingzha, .wangzha, .star_4_2, .star_4_3, .star_4_4, .star_4_5]

theorem getBombType_COMB (v : Nat) (b : BombType) (small : v < 256) :
    getBombType (COMB v (BombInfoData b)) = some b := by
  have high : COMB v (BombInfoData b) / 256 = BombInfoData b := by
    unfold COMB
    omega
  rw [getBombType, high]
  cases b <;> rfl

theorem valueAt_lt (cards : List Card) (i : Nat) : valueAt cards i < 256 :=
  (V_lt _).trans (by decide)

theorem bomb_isZhaDan (few : cards.length = 4) {t : Option (List CardTypeObj)}
    (found : isZhaDan cards = .ok t) (mem : obj ∈ t.getD []) :
    getBombType obj.weight = some .yingzha := by
  simp only [isZhaDan, few, if_true] at found
  split at found
  · obtain rfl := Except.ok.inj found
    obtain rfl := List.mem_singleton.mp mem
    exact getBombType_COMB _ _ (valueAt_lt cards 1)
  · obtain rfl := Except.ok.inj found
    exact absurd mem List.not_mem_nil

theorem firstRun_lt {k num v : Nat} (found : firstRun cards k num = some v) : v < 256 := by
  simp only [firstRun] at found
  split at found
  · cases found
  · rename_i i first
    split at found
    · obtain rfl := Option.some.inj found
      have range := List.mem_of_find?_eq_some first
      simp only [List.mem_range'_1] at range
      omega
    · cases found

theorem bomb_isLianZha4xN {t : Option (List CardTypeObj)} (found : isLianZha4xN cards = .ok t)
    (mem : obj ∈ t.getD []) : ∃ b ∈ deckBombs, getBombType obj.weight = some b := by
  have none' : t = none → False := by
    rintro rfl
    exact List.not_mem_nil mem
  simp only [isLianZha4xN] at found
  split at found
  · exact (none' (Except.ok.inj found).symm).elim
  split at found
  · exact (none' (Except.ok.inj found).symm).elim
  split at found
  · exact (none' (Except.ok.inj found).symm).elim
  split at found
  · exact (none' (Except.ok.inj found).symm).elim
  rename_i weight run
  split at found
  · rename_i b row
    obtain rfl := Except.ok.inj found
    obtain rfl := List.mem_singleton.mp mem
    refine ⟨b, ?_, getBombType_COMB _ _ (firstRun_lt run)⟩
    simp only [star4] at row
    split at row
    all_goals first
      | (obtain rfl := Option.some.inj row; decide)
      | exact nomatch row
  · cases found

/-- A bomb that the parser recognises is one of those a deck has. -/
theorem bomb_parseCardType (parsed : parseCardType cards = .ok arr) (mem : obj ∈ arr)
    (bomb : obj.type = .zhadan) : ∃ b ∈ deckBombs, getBombType obj.weight = some b := by
  simp only [parseCardType] at parsed
  split at parsed
  · obtain rfl := Except.ok.inj parsed
    obtain rfl := List.mem_singleton.mp mem
    cases bomb
  · obtain rfl := Except.ok.inj parsed
    simp only [parseCardTypeTwo] at mem
    split at mem
    · obtain rfl := List.mem_singleton.mp mem
      exact ⟨.wangzha, by decide, by decide⟩
    · split at mem
      · obtain rfl := List.mem_singleton.mp mem
        cases bomb
      · exact absurd mem List.not_mem_nil
  · obtain rfl := Except.ok.inj parsed
    simp only [parseCardTypeThree] at mem
    split at mem
    · obtain rfl := List.mem_singleton.mp mem
      cases bomb
    · exact absurd mem List.not_mem_nil
  · rename_i four
    simp only [parseCardTypeFour, bind, Except.bind, pure, Except.pure] at parsed
    split at parsed
    · cases parsed
    · rename_i t found
      obtain rfl := Except.ok.inj parsed
      obtain mem | mem := List.mem_append.mp mem
      · exact ⟨.yingzha, by decide, bomb_isZhaDan four found mem⟩
      · cases bomb.symm.trans (type_isSanDaiYi mem)
  · simp only [parseCardTypeOther, bind, Except.bind, pure, Except.pure] at parsed
    split at parsed
    · cases parsed
    · rename_i t found
      obtain rfl := Except.ok.inj parsed
      simp only [List.mem_append] at mem
      obtain (((((((mem | mem) | mem) | mem) | mem) | mem) | mem) | mem) | mem := mem
      · cases bomb.symm.trans (type_isSanDaiYiDui mem)
      · cases bomb.symm.trans (type_isSiDaiEr mem)
      · cases bomb.symm.trans (type_isSiDaiLiangDui mem)
      · cases bomb.symm.trans (type_isShunZi mem)
      · cases bomb.symm.trans (type_isRepeatRun mem)
      · cases bomb.symm.trans (type_isRepeatRun mem)
      · cases bomb.symm.trans (type_isFeiJiDaiDan mem)
      · cases bomb.symm.trans (type_isFeiJiDaiDui mem)
      · exact bomb_isLianZha4xN found mem

end Types

example : parseCardType [0x5f, 0x5e] =
    .ok [⟨.zhadan, 0x300, .bomb .wangzha⟩] := by decide
example : parseCardType [0x11, 0x24, 0x21, 0x35, 0x31, 0x12, 0x22, 0x32] =
    .ok [.plain .feiji_daidan 1] := by decide

end HuluLandlord.Ddz
