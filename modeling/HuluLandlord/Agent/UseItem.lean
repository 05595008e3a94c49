import HuluLandlord.Agent.UserItem
import HuluLandlord.Define

/-!
The use of an item on request. The use function of the item's group runs under `pcall` and
may raise, return a number or return nothing. It may change the user and, in `σ`, anything
else, but not the record of the item it is called for: no row of the table hands out
itself. A batch is held by reference, here by its `gId`: the first that has it.
-/
namespace HuluLandlord.Agent

inductive UseResult
  | raised
  | returned (ret : Option Int)
  deriving DecidableEq, Repr

/-- The test `ok and ret > 0 and ret <= uData.num`; to compare no number raises. -/
def UseResult.used (owned : Int) : UseResult → Option Bool
  | .raised => some false
  | .returned none => none
  | .returned (some ret) => some (0 < ret ∧ ret ≤ owned)

structure UseFunc (σ : Type) (itemId : ItemId) where
  call : Int → Bag × σ → UseResult × Bag × σ
  own : ∀ num s, (call num s).2.1.userItem itemId = s.1.userItem itemId

/-- `datax.items` and, for the group of each row, `ma_useritem_use`. -/
structure UseTables (σ : Type) where
  items : Items
  useFunc : (itemId : ItemId) → Option (UseFunc σ itemId)

/-- What `use` is handed: nothing, the record of the item or one of its batches. -/
inductive UData
  | nothing
  | record
  | batch (gId : Nat)
  deriving DecidableEq, Repr

def UserItem.findBatch (uData : UserItem) (gId : Nat) : Option TimedItem :=
  uData.arr.find? fun value => value.gId = gId

/-- `num` less in the batch that is held; an empty one is taken out of the array. -/
def drawBatch (gId : Nat) (num : Int) : List TimedItem → List TimedItem
  | [] => []
  | value :: arr =>
      if value.gId = gId then
        if value.num - num ≤ 0 then arr else { value with num := value.num - num } :: arr
      else value :: drawBatch gId num arr

def Bag.drawBatch (b : Bag) (itemId : ItemId) (gId : Nat) (num : Int) : Bag :=
  { b with
    userItem := Function.update b.userItem itemId
      ((b.userItem itemId).map fun mainData =>
        { mainData with arr := Agent.drawBatch gId num mainData.arr }) }

namespace UseTables
variable {σ : Type} (t : UseTables σ) (now : Int)

/-- The protected call and what both kinds of item do after it: a failure is logged, and
`num` are taken all the same. -/
def attempt {itemId : ItemId} (useFunc : UseFunc σ itemId) (s : Bag × σ) (owned num : Int)
    (take : Bag → Bag) : (Bag × σ) × Option Int :=
  if owned ≥ num then
    let after := useFunc.call num s
    match after.1.used owned with
    | none => (after.2, none)
    | some _ => ((take after.2.1, after.2.2), some num)
  else (s, some 0)

/-- `ma_useritem.use` with the number it returns; a raise has none. -/
def use (s : Bag × σ) (itemId : ItemId) (uData : UData) (num : Int) :
    (Bag × σ) × Option Int :=
  match t.items itemId, t.useFunc itemId with
  | some .use, some useFunc =>
      match uData, s.1.userItem itemId with
      | .record, some mainData =>
          attempt useFunc s mainData.num num fun b => (b.remove t.items itemId num).1
      | _, _ => (s, some 0)
  | some .useAndTime, some useFunc =>
      match uData, s.1.userItem itemId with
      | .batch gId, some mainData =>
          match mainData.findBatch gId with
          | some value => attempt useFunc s value.num num fun b => b.drawBatch itemId gId num
          | none => (s, some 0)
      | _, _ => (s, some 0)
  | some .autoUse, some useFunc =>
      let after := useFunc.call num s
      match after.1 with
      | .raised => (after.2, none)
      | .returned ret => (after.2, ret)
  | _, _ => (s, some 0)

/-- The end of the request, `useCount <= 0`. -/
def useCount : (Bag × σ) × Option Int → (Bag × σ) × Option RetVal
  | (s, none) => (s, none)
  | (s, some useCount) => (s, some (if useCount ≤ 0 then .fail_2 else .succeed_1))

/-- `REQUEST_New.UseItem`; a request that raises has no value. -/
def UseItem (s : Bag × σ) (id : ItemId) (gId : Nat) (num : Int) : (Bag × σ) × Option RetVal :=
  if num ≤ 0 then (s, some .error_3)
  else match t.items id, s.1.userItem id with
    | none, _ => (s, some .error_3)
    | some _, none => (s, some .lack_6)
    | some .useAndTime, some uData =>
        match uData.findBatch gId with
        | none => (s, some .lack_6)
        | some value =>
            if now ≥ value.endDt then (s, some .noUse_8)
            else useCount (t.use s id (.batch gId) num)
    -- the test on the type stands in the same condition as the test on the number
    | some type, some uData =>
        if type = .use ∧ uData.num ≤ 0 then (s, some .lack_6) else (s, some .error_3)

/-- The unexpired units a request can draw on: the count of a `use` item, the batch named
of a `useAndTime` item. -/
def owned (b : Bag) (id : ItemId) (gId : Nat) : Int :=
  match t.items id, b.userItem id with
  | some .use, some uData => uData.num
  | some .useAndTime, some uData =>
      match uData.findBatch gId with
      | some value => if now < value.endDt then value.num else 0
      | none => 0
  | _, _ => 0

/-- There is a use function, and the test on its result comes out as `verdict`. -/
def Used (s : Bag × σ) (id : ItemId) (owned num : Int) (verdict : Bool) : Prop :=
  ∃ useFunc, t.useFunc id = some useFunc ∧
    (useFunc.call num s).1.used owned = some verdict

end UseTables

/-- What a user has of an item, counted and in batches. -/
def UserItem.units (uData : UserItem) : Int := uData.num + (uData.arr.map TimedItem.num).sum

/-- `num` units fewer, and no other batch touched. -/
structure DrawnFrom (gId : Nat) (num : Int) (before after : UserItem) : Prop where
  units : after.units = before.units - num
  others : (after.arr.filter fun value => value.gId ≠ gId) =
    before.arr.filter fun value => value.gId ≠ gId

section Batches
variable {gId : Nat} {num : Int} {value : TimedItem}

theorem sum_drawBatch {arr : List TimedItem} (enough : num ≤ value.num)
    (found : arr.find? (fun value => value.gId = gId) = some value) :
    ((drawBatch gId num arr).map TimedItem.num).sum = (arr.map TimedItem.num).sum - num := by
  induction arr with
  | nil => cases found
  | cons first arr ih =>
      by_cases named : first.gId = gId
      · have same : first = value := by simpa [named] using found
        subst same
        simp only [drawBatch, named, if_true]
        split
        · rename_i empty
          have all : first.num = num := by omega
          simp [all]
        · simp only [List.map_cons, List.sum_cons]
          omega
      · have later : arr.find? (fun value => value.gId = gId) = some value := by
          simpa [named] using found
        simp only [drawBatch, named, if_false, List.map_cons, List.sum_cons, ih later]
        omega

theorem others_drawBatch (arr : List TimedItem) :
    ((drawBatch gId num arr).filter fun value => value.gId ≠ gId) =
      arr.filter fun value => value.gId ≠ gId := by
  induction arr with
  | nil => rfl
  | cons first arr ih =>
      by_cases named : first.gId = gId
      · simp only [drawBatch, named, if_true]
        split
        · simp [named]
        · simp [named]
      · simp only [drawBatch, named, if_false]
        simp only [List.filter_cons, named, ih]

theorem drawnFrom_batch {uData : UserItem} (enough : num ≤ value.num)
    (found : uData.findBatch gId = some value) :
    DrawnFrom gId num uData { uData with arr := drawBatch gId num uData.arr } where
  units := by
    have sum := sum_drawBatch enough found
    simp only [UserItem.units, sum]
    omega
  others := others_drawBatch uData.arr

end Batches

namespace UseTables
variable {σ : Type} {t : UseTables σ} {now num : Int} {s : Bag × σ} {id : ItemId} {gId : Nat}

/-- All or nothing: with enough units and an effect that succeeds, the request succeeds and
leaves what one run of the effect leaves, `num` units fewer; else an error, a code or a
raise, and the record as it was. -/
structure Atomic (t : UseTables σ) (now : Int) (s : Bag × σ) (id : ItemId) (gId : Nat)
    (num : Int) (result : (Bag × σ) × Option RetVal) : Prop where
  used : num ≤ t.owned now s.1 id gId → t.Used s id (t.owned now s.1 id gId) num true →
    result.2 = some .succeed_1 ∧
      ∃ useFunc before after, t.useFunc id = some useFunc ∧ s.1.userItem id = some before ∧
        DrawnFrom gId num before after ∧
        result.1 = ({ (useFunc.call num s).2.1 with
          userItem := Function.update (useFunc.call num s).2.1.userItem id (some after) },
          (useFunc.call num s).2.2)
  refused : ¬(num ≤ t.owned now s.1 id gId ∧ t.Used s id (t.owned now s.1 id gId) num true) →
    result.2 ≠ some .succeed_1 ∧ result.1.1.userItem id = s.1.userItem id

/-- A request that leaves the record as it was, and does not succeed, is sound when it was
not to succeed. -/
theorem atomic_refused {result : (Bag × σ) × Option RetVal}
    (refused : result.2 ≠ some .succeed_1)
    (kept : result.1.1.userItem id = s.1.userItem id) :
    t.Atomic now s id gId num result ↔
      ¬(num ≤ t.owned now s.1 id gId ∧ t.Used s id (t.owned now s.1 id gId) num true) := by
  constructor
  · intro atomic both
    exact refused (atomic.used both.1 both.2).1
  · intro bad
    exact ⟨fun enough used => absurd ⟨enough, used⟩ bad, fun _ => ⟨refused, kept⟩⟩

/-- An item of type `use` gets no further than the test on its type. -/
theorem useItem_use (usable : t.items id = some .use) :
    (t.UseItem now s id gId num).1 = s ∧
      (t.UseItem now s id gId num).2 ≠ some .succeed_1 := by
  simp only [UseItem, usable]
  split
  · exact ⟨rfl, by rintro ⟨⟩⟩
  · cases s.1.userItem id with
    | none => exact ⟨rfl, by rintro ⟨⟩⟩
    | some uData =>
        simp only
        split
        · exact ⟨rfl, by rintro ⟨⟩⟩
        · exact ⟨rfl, by rintro ⟨⟩⟩

/-- A batch that is absent, expired or too small is not drawn on. -/
theorem useItem_short (usable : t.items id = some .useAndTime) (positive : 0 < num)
    (short : t.owned now s.1 id gId < num) :
    (t.UseItem now s id gId num).1 = s ∧
      (t.UseItem now s id gId num).2 ≠ some .succeed_1 := by
  have given : ¬num ≤ 0 := not_le.mpr positive
  simp only [UseItem, usable, given, if_false]
  cases record : s.1.userItem id with
  | none => exact ⟨rfl, by rintro ⟨⟩⟩
  | some uData =>
      simp only
      cases found : uData.findBatch gId with
      | none => exact ⟨rfl, by rintro ⟨⟩⟩
      | some value =>
          simp only
          split
          · exact ⟨rfl, by rintro ⟨⟩⟩
          · rename_i fresh
            have few : ¬value.num ≥ num := by
              simpa [owned, usable, record, found, not_le.mp fresh] using short
            cases effect : t.useFunc id with
            | none => simp [use, usable, effect, useCount]
            | some useFunc => simp [use, usable, effect, record, found, attempt, few, useCount]

/-- With enough units in the batch the request is the protected call on it. -/
theorem useItem_batch (usable : t.items id = some .useAndTime) (positive : 0 < num)
    (enough : num ≤ t.owned now s.1 id gId) :
    ∃ uData value, s.1.userItem id = some uData ∧ uData.findBatch gId = some value ∧
      t.owned now s.1 id gId = value.num ∧
      t.UseItem now s id gId num = useCount (t.use s id (.batch gId) num) := by
  have given : ¬num ≤ 0 := not_le.mpr positive
  cases record : s.1.userItem id with
  | none =>
      simp only [owned, usable, record] at enough
      omega
  | some uData =>
      cases found : uData.findBatch gId with
      | none =>
          simp only [owned, usable, record, found] at enough
          omega
      | some value =>
          simp only [owned, usable, record, found] at enough ⊢
          split at enough
          · rename_i fresh
            have open' : ¬now ≥ value.endDt := not_le.mpr fresh
            exact ⟨uData, value, rfl, found, if_pos fresh, by
              simp [UseItem, usable, record, found, given, open']⟩
          · omega

theorem used_iff {useFunc : UseFunc σ id} {owned : Int} {verdict : Bool}
    (effect : t.useFunc id = some useFunc) :
    t.Used s id owned num verdict ↔ (useFunc.call num s).1.used owned = some verdict := by
  simp [Used, effect]

theorem not_used {owned : Int} {verdict : Bool} (effect : t.useFunc id = none) :
    ¬t.Used s id owned num verdict := by
  simp [Used, effect]

/-- The protected call on a batch that is large enough: all or nothing unless the effect
failed, which is not looked at. -/
theorem atomic_batch {uData : UserItem} {value : TimedItem}
    (usable : t.items id = some .useAndTime) (positive : 0 < num)
    (record : s.1.userItem id = some uData) (found : uData.findBatch gId = some value)
    (owns : t.owned now s.1 id gId = value.num) (enough : num ≤ value.num) :
    t.Atomic now s id gId num (useCount (t.use s id (.batch gId) num)) ↔
      ¬t.Used s id value.num num false := by
  cases effect : t.useFunc id with
  | none =>
      have answer : useCount (t.use s id (.batch gId) num) = (s, some .fail_2) := by
        simp [use, usable, effect, useCount]
      have refused : (useCount (t.use s id (.batch gId) num)).2 ≠ some .succeed_1 := by
        rw [answer]
        rintro ⟨⟩
      rw [atomic_refused refused (by rw [answer])]
      exact iff_of_true (fun both => not_used effect both.2) (not_used effect)
  | some useFunc =>
      have call : t.use s id (.batch gId) num =
          attempt useFunc s value.num num fun b => b.drawBatch id gId num := by
        simp only [use, usable, effect, record, found]
      have given : ¬num ≤ 0 := not_le.mpr positive
      rw [call, used_iff effect]
      simp only [attempt, ge_iff_le, enough, if_true]
      cases verdict : (useFunc.call num s).1.used value.num with
      | none =>
          have refused : (none : Option RetVal) ≠ some .succeed_1 := by rintro ⟨⟩
          have atomic := @atomic_refused σ t now num s id gId
            ((useFunc.call num s).2, none) refused (useFunc.own num s)
          simp [useCount, atomic, owns, used_iff effect, verdict]
      | some passed =>
          simp only [useCount, given, if_false]
          cases passed with
          | false =>
              refine iff_of_false (fun atomic => ?_) (by simp)
              have failed : ¬t.Used s id value.num num true := by
                rw [used_iff effect, verdict]
                simp
              exact (atomic.refused fun both => failed (owns ▸ both.2)).1 rfl
          | true =>
              refine iff_of_true ?_ (by simp)
              have passed : t.Used s id value.num num true := (used_iff effect).mpr verdict
              refine ⟨fun _ _ => ⟨rfl, useFunc, uData, _, effect, record,
                drawnFrom_batch enough found, ?_⟩, fun bad => ?_⟩
              · simp [Bag.drawBatch, useFunc.own, record]
              · exact absurd ⟨by omega, owns ▸ passed⟩ bad

/-- A request is atomic unless the user has the units and either the item is of type `use`
and its effect succeeds, or it is of type `useAndTime` and its effect fails. -/
theorem useItem_atomic (t : UseTables σ) (now : Int) (s : Bag × σ) (id : ItemId) (gId : Nat)
    (num : Int) (usable : t.items id = some .use ∨ t.items id = some .useAndTime)
    (positive : 0 < num) :
    t.Atomic now s id gId num (t.UseItem now s id gId num) ↔
      ¬(num ≤ t.owned now s.1 id gId ∧
        t.Used s id (t.owned now s.1 id gId) num (t.items id = some .use)) := by
  obtain usable | usable := usable
  · obtain ⟨kept, refused⟩ := @useItem_use σ t now num s id gId usable
    rw [atomic_refused refused (by rw [kept]), usable]
    simp
  · have type : decide (t.items id = some .use) = false := by simp [usable]
    rw [type]
    by_cases enough : num ≤ t.owned now s.1 id gId
    · obtain ⟨uData, value, record, found, owns, answer⟩ := useItem_batch usable positive enough
      rw [answer, atomic_batch usable positive record found owns (owns ▸ enough), owns]
      simp [owns ▸ enough]
    · obtain ⟨kept, refused⟩ := useItem_short usable positive (not_le.mp enough)
      rw [atomic_refused refused (by rw [kept])]
      simp [enough]

/-- One use type for every item, and an effect that counts its runs in the rest of the
state and ends as it is told. -/
def counting (type : ItemUseType) (result : UseResult) : UseTables Nat where
  items _ := some type
  useFunc _ := some ⟨fun _ s => (result, s.1, s.2 + 1), fun _ _ => rfl⟩

/-- One gift pack in the bag, and a card in two batches of which the first ends at 100. -/
def giftBag : Bag where
  gold := 0
  diamond := 0
  exp := 0
  userItem id :=
    if id = 705000 then some ⟨1, none, []⟩
    else if id = 105001 then some ⟨0, none, [⟨2, 100, 1⟩, ⟨1, 200, 2⟩]⟩
    else none

theorem useItem_atomic_card :
    (counting .useAndTime (.returned (some 1))).items 105001 = some .useAndTime ∧ 0 < (1 : Int) ∧
      ((counting .useAndTime (.returned (some 1))).Atomic 50 (giftBag, 0) 105001 1 1
          ((counting .useAndTime (.returned (some 1))).UseItem 50 (giftBag, 0) 105001 1 1) ↔
        ¬(1 ≤ (counting .useAndTime (.returned (some 1))).owned 50 giftBag 105001 1 ∧
          (counting .useAndTime (.returned (some 1))).Used (giftBag, 0) 105001
            ((counting .useAndTime (.returned (some 1))).owned 50 giftBag 105001 1) 1
            ((counting .useAndTime (.returned (some 1))).items 105001 = some .use))) :=
  ⟨rfl, by decide, useItem_atomic (counting .useAndTime (.returned (some 1))) 50 (giftBag, 0)
    105001 1 1 (.inr rfl) (by decide)⟩

/-- The gift pack cannot be used; of the card a unit is taken although its effect raises. -/
theorem useItem_not_atomic :
    ¬(counting .use (.returned (some 1))).Atomic 50 (giftBag, 0) 705000 0 1
        ((counting .use (.returned (some 1))).UseItem 50 (giftBag, 0) 705000 0 1) ∧
      ¬(counting .useAndTime .raised).Atomic 50 (giftBag, 0) 105001 1 1
        ((counting .useAndTime .raised).UseItem 50 (giftBag, 0) 105001 1 1) := by
  constructor
  · intro atomic
    have done := (atomic.used (by decide) ⟨_, rfl, by decide⟩).1
    exact absurd done (by decide)
  · intro atomic
    have failed : ¬(counting .useAndTime .raised).Used (giftBag, 0) 105001 2 1 true := by
      rintro ⟨useFunc, effect, passed⟩
      cases effect
      cases passed
    exact (atomic.refused fun both => failed both.2).1 (by decide)

end UseTables

end HuluLandlord.Agent
