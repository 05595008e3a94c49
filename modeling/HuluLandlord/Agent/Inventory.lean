import HuluLandlord.Agent.Consume

/-!
The balances a user's agent keeps and the rows they are stored in. A call adds or removes
entries one by one, collects the items it has changed in its `updateData` and writes them
when it is through; what an item opens to, and what listeners of a change do, are further
calls that start and end while it is in progress. Gold and diamonds are written at once, and
so is experience, where it is added. Calls may be taken up in any order.
-/
namespace HuluLandlord.Agent
open Transition

abbrev CallId := Nat

/-- A call in progress: the entries it has still to add or remove, and its `updateData`. -/
structure ItemCall where
  adds : Bool
  rest : List Entry
  updateData : List ItemId
  deriving DecidableEq, Repr

/-- `bag` is what the agent has in memory, `stored` the user's rows. -/
structure Inventory where
  bag : Bag
  stored : Bag
  calls : CallId → Option ItemCall

/-- `useCount` is what the use of an `autoUse` item reports. -/
inductive ItemEvent
  | add (c : CallId) (itemId : ItemId) (num : Int)
  | addList (c : CallId) (itemArr : List Entry) (num : Int)
  | remove (c : CallId) (itemId : ItemId) (num : Int)
  | removeList (c : CallId) (itemArr : Option (List Entry)) (num : Int) (now : Int)
  | next (c : CallId) (now : Int) (useCount : Int)
  | useBatch (itemId : ItemId) (gId : Nat) (num : Int)
  | checkItemExpire
  deriving DecidableEq, Repr

/-- The items that are fields of the user. -/
def isCurrency (itemId : ItemId) : Bool :=
  itemId = itemGold ∨ itemId = itemDiamond ∨ itemId = itemLvExp

/-- `dbx.update` of the item row with the records of `updateData`. -/
def Bag.saveItems (stored bag : Bag) (updateData : List ItemId) : Bag :=
  { stored with
    userItem := fun id => if id ∈ updateData then bag.userItem id else stored.userItem id }

/-- The `UseAndTime` part of `use`, after the item has been opened: the batch is taken from. -/
def Bag.takeBatch (b : Bag) (itemId : ItemId) (gId : Nat) (num : Int) : Bag :=
  { b with
    userItem := Function.update b.userItem itemId ((b.userItem itemId).map fun mainData =>
      { mainData with
        arr := mainData.arr.filterMap fun uData =>
          if uData.gId = gId then
            if uData.num - num ≤ 0 then none else some { uData with num := uData.num - num }
          else some uData }) }

namespace Inventory
variable (t : Tables)

/-- `_add`, and whether the item goes to `updateData`. -/
def _add (s : Inventory) (now : Int) (itemId : ItemId) (num useCount : Int) : Inventory × Bool :=
  if num ≤ 0 ∨ t.items itemId = none then (s, false)
  else if isCurrency itemId then
    ({ s with
      bag := s.bag.add t now ⟨itemId, num⟩
      stored := s.stored.setNum itemId (s.bag.num itemId + num) }, false)
  else
    let addNum := if t.items itemId = some .autoUse then num - useCount else num
    if addNum > 0 then ({ s with bag := s.bag.add t now ⟨itemId, addNum⟩ }, true)
    else (s, false)

/-- `_remove`: what is left of gold and diamonds is written, of experience it is not. -/
def _remove (s : Inventory) (itemId : ItemId) (num : Int) : Inventory × Bool :=
  match s.bag._remove t.items itemId num with
  | (_, false, _) => (s, false)
  | (bag, true, nowNum) =>
      if num = 0 then (s, false)
      else if itemId = itemGold ∨ itemId = itemDiamond then
        ({ s with bag := bag, stored := s.stored.setNum itemId nowNum }, false)
      else ({ s with bag := bag }, ¬isCurrency itemId)

def start (s : Inventory) (c : CallId) (call : ItemCall) : Option Inventory :=
  if (s.calls c).isSome then none
  else some { s with calls := Function.update s.calls c (some call) }

/-- The next entry of a call, or its end. -/
def next (s : Inventory) (c : CallId) (now useCount : Int) : Option Inventory :=
  match s.calls c with
  | none => none
  | some ⟨_, [], updateData⟩ =>
      some { s with
        stored := s.stored.saveItems s.bag updateData
        calls := Function.update s.calls c none }
  | some ⟨adds, obj :: rest, updateData⟩ =>
      let (s, changed) := if adds then s._add t now obj.id obj.num useCount
        else s._remove t obj.id obj.num
      some { s with
        calls := Function.update s.calls c
          (some ⟨adds, rest, if changed then obj.id :: updateData else updateData⟩) }

/-- The expiry looks for a use type in the user's own record, where there is none, so it
finds no item that can expire. -/
def CheckAndUpdateItemExpireList (s : Inventory) : Inventory := s

def step (s : Inventory) (e : ItemEvent) : Option Inventory :=
  match e with
  | .add c itemId num => s.start c ⟨true, [⟨itemId, num⟩], []⟩
  | .addList c itemArr num =>
      s.start c ⟨true, itemArr.map fun obj => ⟨obj.id, obj.num * num⟩, []⟩
  | .remove c itemId num => s.start c ⟨false, [⟨itemId, num⟩], []⟩
  | .removeList c itemArr num now =>
      match itemArr with
      | none => some s
      | some itemArr =>
          if s.bag.has t.items now itemArr num then
            s.start c ⟨false, itemArr.map fun obj => ⟨obj.id, obj.num * num⟩, []⟩
          else some s
  | .next c now useCount => s.next t c now useCount
  | .useBatch itemId gId num =>
      if isCurrency itemId ∨ (s.bag.userItem itemId).isNone then none
      else
        let bag := s.bag.takeBatch itemId gId num
        some { s with bag := bag, stored := s.stored.saveItems bag [itemId] }
  | .checkItemExpire => some s.CheckAndUpdateItemExpireList

/-- What a login reads. -/
def load (b : Bag) : Inventory := ⟨b, b, fun _ => none⟩

end Inventory

/-- What is stored agrees with what is in memory, except for some items. -/
structure SyncedBut (s : Inventory) (differs : ItemId → Prop) : Prop where
  gold : s.stored.gold = s.bag.gold
  diamond : s.stored.diamond = s.bag.diamond
  exp : s.stored.exp = s.bag.exp
  items : ∀ id, s.stored.userItem id = s.bag.userItem id ∨ differs id

/-- A call in progress is going to write the item. -/
def Pending (s : Inventory) (id : ItemId) : Prop :=
  ∃ c call, s.calls c = some call ∧ id ∈ call.updateData

/-- No experience is removed: none is asked for, or it is not there. -/
def KeepsExp (t : Tables) (s : Inventory) (e : ItemEvent) : Prop :=
  match e with
  | .next c _ _ => match s.calls c with
    | some ⟨false, obj :: _, _⟩ => obj.id = itemLvExp →
        obj.num = 0 ∨ s.bag.exp < obj.num ∨ (obj.num < 0 ∧ t.items itemLvExp = some .time)
    | _ => True
  | _ => True

section Sync
variable {t : Tables} {s s' : Inventory} {now useCount num : Int} {itemId id : ItemId} {b : Bag}
  {c : CallId} {e : ItemEvent} {es : List ItemEvent}

theorem add_currency (currency : isCurrency itemId = true) (listed : t.items itemId ≠ none)
    (positive : 0 < num) : b.add t now ⟨itemId, num⟩ = b.setNum itemId (b.num itemId + num) := by
  have given : ¬(num ≤ 0 ∨ t.items itemId = none) := not_or.mpr ⟨not_le.mpr positive, listed⟩
  rw [isCurrency, decide_eq_true_eq] at currency
  simp only [Bag.add, if_neg given, if_pos currency]

/-- An item that is no currency changes in its own record only. -/
theorem add_item (plain : isCurrency itemId = false) :
    ∃ record, b.add t now ⟨itemId, num⟩ =
      { b with userItem := Function.update b.userItem itemId record } := by
  rw [isCurrency, decide_eq_false_iff_not] at plain
  simp only [Bag.add, if_neg plain]
  split
  · exact ⟨b.userItem itemId, by rw [Function.update_eq_self]⟩
  · exact ⟨_, rfl⟩

theorem setNum_item (plain : isCurrency itemId = false) :
    b.setNum itemId num = { b with
      userItem := Function.update b.userItem itemId
        ((b.userItem itemId).map fun uData => { uData with num := num }) } := by
  simp only [isCurrency, decide_eq_false_iff_not, not_or] at plain
  simp only [Bag.setNum, plain, if_false]

section Entries
variable {differs : ItemId → Prop}

theorem SyncedBut.mono {differs' : ItemId → Prop} (inv : SyncedBut s differs)
    (more : ∀ id, differs id → differs' id) : SyncedBut s differs' :=
  ⟨inv.gold, inv.diamond, inv.exp, fun id => (inv.items id).imp_right (more id)⟩

/-- Setting a currency the same on both sides. -/
theorem synced_setNum (inv : SyncedBut s differs) (currency : isCurrency itemId = true) :
    SyncedBut { s with
      bag := s.bag.setNum itemId num
      stored := s.stored.setNum itemId num } differs := by
  rw [isCurrency, decide_eq_true_eq] at currency
  obtain rfl | rfl | rfl := currency
  · exact ⟨rfl, inv.diamond, inv.exp, inv.items⟩
  · exact ⟨inv.gold, rfl, inv.exp, inv.items⟩
  · exact ⟨inv.gold, inv.diamond, rfl, inv.items⟩

/-- A record that changes in memory is one that differs. -/
theorem synced_record (inv : SyncedBut s differs) (record : Option UserItem) :
    SyncedBut { s with
      bag := { s.bag with
        userItem := Function.update s.bag.userItem itemId record } }
      fun id => differs id ∨ id = itemId := by
  refine ⟨inv.gold, inv.diamond, inv.exp, fun id => ?_⟩
  by_cases here : id = itemId
  · exact .inr (.inr here)
  · have same : Function.update s.bag.userItem itemId record id = s.bag.userItem id :=
      Function.update_of_ne here _ _
    exact (inv.items id).imp (fun stored => stored.trans same.symm) .inl

theorem synced_add (inv : SyncedBut s differs) :
    SyncedBut (s._add t now itemId num useCount).1
      fun id => differs id ∨ ((s._add t now itemId num useCount).2 = true ∧ id = itemId) := by
  simp only [Inventory._add]
  split
  · exact inv.mono fun _ => .inl
  rename_i given
  rw [not_or, not_le] at given
  split
  · rename_i currency
    rw [add_currency currency given.2 given.1]
    exact (synced_setNum inv currency).mono fun _ => .inl
  rename_i plain
  rw [Bool.not_eq_true] at plain
  generalize (if t.items itemId = some .autoUse then num - useCount else num) = addNum
  split
  · obtain ⟨record, added⟩ := @add_item t now addNum itemId s.bag plain
    rw [added]
    exact (synced_record inv record).mono fun id => Or.imp_right fun here => ⟨rfl, here⟩
  · exact inv.mono fun _ => .inl

/-- A removal leaves a difference in `updateData`, unless it is one of experience. -/
theorem synced_remove (inv : SyncedBut s differs)
    (keeps : itemId = itemLvExp →
      num = 0 ∨ s.bag.exp < num ∨ (num < 0 ∧ t.items itemLvExp = some .time)) :
    SyncedBut (s._remove t itemId num).1
      fun id => differs id ∨ ((s._remove t itemId num).2 = true ∧ id = itemId) := by
  have kept : SyncedBut s fun id => differs id ∨ (false = true ∧ id = itemId) :=
    inv.mono fun _ => .inl
  rw [Inventory._remove, Bag._remove]
  by_cases timed : num < 0 ∧ t.items itemId = some .time
  · rw [if_pos timed]
    exact kept
  rw [if_neg timed]
  by_cases none : num = 0
  · rw [if_pos none]
    simp only [if_pos none]
    exact kept
  rw [if_neg none]
  cases found : s.bag.find itemId with
  | none => exact kept
  | some owned =>
      by_cases enough : owned ≥ num
      · simp only [if_pos enough, if_neg none]
        split
        · rename_i written
          have currency : isCurrency itemId = true := by
            rw [isCurrency, decide_eq_true_eq]
            exact written.imp_right .inl
          exact (synced_setNum inv currency).mono fun _ => .inl
        · rename_i unwritten
          rw [not_or] at unwritten
          by_cases exp : itemId = itemLvExp
          · subst exp
            have all : owned = s.bag.exp := by
              simpa [Bag.find, itemLvExp, itemGold, itemDiamond] using found.symm
            obtain zero | short | time := keeps rfl
            · exact absurd zero none
            · omega
            · exact absurd time timed
          · have plain : isCurrency itemId = false := by
              simp [isCurrency, unwritten, exp]
            rw [setNum_item plain]
            refine (synced_record inv _).mono fun id => Or.imp_right fun here => ⟨?_, here⟩
            simp [plain]
      · simp only [if_neg enough]
        exact kept

end Entries

section Calls
variable {rest : List Entry} {obj : Entry} {updateData updateData' : List ItemId} {adds : Bool}

/-- A call that goes on keeps what it has collected. -/
theorem pending_next (found : s.calls c = some ⟨adds, obj :: rest, updateData⟩)
    (same : s'.calls = Function.update s.calls c (some ⟨adds, rest, updateData'⟩))
    (more : ∀ i ∈ updateData, i ∈ updateData') (pending : Pending s id) : Pending s' id := by
  obtain ⟨k, call, running, mem⟩ := pending
  by_cases here : k = c
  · subst here
    obtain rfl := Option.some.inj (found.symm.trans running)
    exact ⟨k, _, (congrFun same k).trans (Function.update_self k _ _), more id mem⟩
  · exact ⟨k, call, (congrFun same k).trans ((Function.update_of_ne here _ _).trans running), mem⟩

theorem synced_entry (found : s.calls c = some ⟨adds, obj :: rest, updateData⟩) {m : Inventory}
    {changed : Bool} (done : SyncedBut m fun id => Pending s id ∨ (changed = true ∧ id = obj.id)) :
    SyncedBut { m with
      calls := Function.update s.calls c
        (some ⟨adds, rest, if changed then obj.id :: updateData else updateData⟩) }
      (Pending { m with
        calls := Function.update s.calls c
          (some ⟨adds, rest, if changed then obj.id :: updateData else updateData⟩) }) := by
  refine ⟨done.gold, done.diamond, done.exp, fun id => (done.items id).imp_right ?_⟩
  rintro (pending | ⟨changed, rfl⟩)
  · refine pending_next found rfl (fun i mem => ?_) pending
    split
    · exact List.mem_cons_of_mem _ mem
    · exact mem
  · refine ⟨c, _, Function.update_self c _ _, ?_⟩
    rw [if_pos changed]
    exact List.mem_cons_self

/-- A call that is through has written what it has collected. -/
theorem synced_finish (inv : SyncedBut s (Pending s))
    (found : s.calls c = some ⟨adds, [], updateData⟩) :
    SyncedBut { s with
      stored := s.stored.saveItems s.bag updateData
      calls := Function.update s.calls c none }
      (Pending { s with
        stored := s.stored.saveItems s.bag updateData
        calls := Function.update s.calls c none }) := by
  refine ⟨inv.gold, inv.diamond, inv.exp, fun id => ?_⟩
  by_cases written : id ∈ updateData
  · exact .inl (if_pos written)
  have unwritten : (s.stored.saveItems s.bag updateData).userItem id = s.stored.userItem id :=
    if_neg written
  refine (inv.items id).imp unwritten.trans ?_
  rintro ⟨k, call, running, mem⟩
  have other : k ≠ c := by
    rintro rfl
    obtain rfl := Option.some.inj (found.symm.trans running)
    exact written mem
  exact ⟨k, call, (Function.update_of_ne other _ _).trans running, mem⟩

theorem calls_add : (s._add t now itemId num useCount).1.calls = s.calls := by
  simp only [Inventory._add]
  repeat' split
  all_goals rfl

theorem calls_remove : (s._remove t itemId num).1.calls = s.calls := by
  simp only [Inventory._remove]
  repeat' split
  all_goals rfl

theorem synced_next (inv : SyncedBut s (Pending s)) (keeps : KeepsExp t s (.next c now useCount))
    (moved : s.next t c now useCount = some s') : SyncedBut s' (Pending s') := by
  simp only [Inventory.next] at moved
  split at moved
  · cases moved
  · rename_i found
    obtain rfl := Option.some.inj moved
    exact synced_finish inv found
  · rename_i adds obj rest updateData found
    obtain rfl := Option.some.inj moved
    cases adds with
    | true =>
        simp only [if_true, calls_add]
        exact synced_entry found (synced_add inv)
    | false =>
        simp only [Bool.false_eq_true, if_false, calls_remove]
        simp only [KeepsExp, found] at keeps
        exact synced_entry found (synced_remove inv keeps)

theorem synced_begin {call : ItemCall} (inv : SyncedBut s (Pending s))
    (moved : s.start c call = some s') : SyncedBut s' (Pending s') := by
  simp only [Inventory.start] at moved
  split at moved
  · cases moved
  rename_i fresh
  obtain rfl := Option.some.inj moved
  refine ⟨inv.gold, inv.diamond, inv.exp, fun id => (inv.items id).imp_right ?_⟩
  rintro ⟨k, running, found, mem⟩
  have other : k ≠ c := by
    rintro rfl
    exact fresh (Option.isSome_iff_exists.mpr ⟨running, found⟩)
  exact ⟨k, running, (Function.update_of_ne other _ _).trans found, mem⟩

theorem synced_useBatch (inv : SyncedBut s (Pending s)) (gId : Nat) (num : Int) :
    SyncedBut { s with
      bag := s.bag.takeBatch itemId gId num
      stored := s.stored.saveItems (s.bag.takeBatch itemId gId num) [itemId] } (Pending s) := by
  refine ⟨inv.gold, inv.diamond, inv.exp, fun id => ?_⟩
  by_cases here : id = itemId
  · exact .inl (if_pos (List.mem_singleton.mpr here))
  · have unwritten : (s.stored.saveItems (s.bag.takeBatch itemId gId num) [itemId]).userItem id =
        s.stored.userItem id := if_neg fun mem => here (List.mem_singleton.mp mem)
    have same : (s.bag.takeBatch itemId gId num).userItem id = s.bag.userItem id :=
      Function.update_of_ne here _ _
    exact (inv.items id).imp_left fun stored => unwritten.trans (stored.trans same.symm)

theorem synced_step (inv : SyncedBut s (Pending s)) (keeps : KeepsExp t s e)
    (moved : Inventory.step t s e = some s') : SyncedBut s' (Pending s') := by
  cases e with
  | add c itemId num => exact synced_begin inv moved
  | addList c itemArr num => exact synced_begin inv moved
  | remove c itemId num => exact synced_begin inv moved
  | removeList c itemArr num now =>
      simp only [Inventory.step] at moved
      split at moved
      · obtain rfl := Option.some.inj moved
        exact inv
      split at moved
      · exact synced_begin inv moved
      · obtain rfl := Option.some.inj moved
        exact inv
  | next c now useCount => exact synced_next inv keeps moved
  | useBatch itemId gId num =>
      simp only [Inventory.step] at moved
      split at moved
      · cases moved
      · obtain rfl := Option.some.inj moved
        exact synced_useBatch inv gId num
  | checkItemExpire =>
      obtain rfl := Option.some.inj moved
      exact inv

/-- In every run in which no experience is removed the rows are what is in memory whenever
no call is in progress, and while one is, all but the items it is going to write. -/
theorem run_synced (run : Run (Inventory.step t) (KeepsExp t) (Inventory.load b) es s) :
    SyncedBut s (Pending s) ∧ ((∀ c, s.calls c = none) → s.stored = s.bag) := by
  have inv : SyncedBut s (Pending s) := by
    refine run.invariant (fun s => SyncedBut s (Pending s)) ?_ fun s e s' inv keeps moved =>
      synced_step inv keeps moved
    exact ⟨rfl, rfl, rfl, fun _ => .inl rfl⟩
  refine ⟨inv, fun idle => ?_⟩
  have items : s.stored.userItem = s.bag.userItem := by
    funext id
    refine (inv.items id).resolve_right ?_
    rintro ⟨c, call, running, _⟩
    cases (idle c).symm.trans running
  calc s.stored = ⟨s.stored.gold, s.stored.diamond, s.stored.exp, s.stored.userItem⟩ := rfl
    _ = ⟨s.bag.gold, s.bag.diamond, s.bag.exp, s.bag.userItem⟩ := by
        rw [inv.gold, inv.diamond, inv.exp, items]
    _ = s.bag := rfl

/-- Two items and some gold are added in one call. -/
theorem run_synced_added :
    ∃ s, Run (Inventory.step runeTables) (KeepsExp runeTables) (Inventory.load (bagOf 605001 5))
        [.addList 0 [⟨605001, 2⟩, ⟨itemGold, 100⟩] 1, .next 0 0 0, .next 0 0 0, .next 0 0 0] s ∧
      s.stored.num 605001 = 7 ∧ s.stored.gold = 100 ∧ s.stored.num itemLvExp = s.bag.num itemLvExp ∧
      ((∀ c, s.calls c = none) → s.stored = s.bag) := by
  have run : Run (Inventory.step runeTables) (KeepsExp runeTables)
      (Inventory.load (bagOf 605001 5)) ([] ++ [.addList 0 [⟨605001, 2⟩, ⟨itemGold, 100⟩] 1] ++
        [.next 0 0 0] ++ [.next 0 0 0] ++ [.next 0 0 0]) _ :=
    .next (.next (.next (.next .refl trivial rfl) trivial rfl) trivial rfl) trivial rfl
  exact ⟨_, run, by decide, by decide, by decide, (run_synced run).2⟩

/-- Three of five experience are removed, and the row still says five. -/
theorem synced_fails :
    ¬∀ t b es s, Run (Inventory.step t) anyStep (Inventory.load b) es s →
      (∀ c, s.calls c = none) → s.stored = s.bag := by
  intro all
  have run := @run_of_exec _ _ (Inventory.step runeTables)
    (Inventory.load { bagOf 605001 0 with exp := 5 })
    [.remove 0 itemLvExp 3, .next 0 0 0, .next 0 0 0] _ rfl
  have idle := all _ _ _ _ run fun c => by
    cases c with
    | zero => rfl
    | succ c => rfl
  exact absurd (congrArg Bag.exp idle) (by decide)

end Calls

end Sync

end HuluLandlord.Agent
