import HuluLandlord.Define
import HuluLandlord.Transition
import HuluLandlord.Table

/-!
The runes a user's heroes carry. A rune names the hero that carries it, and the hero lists
the rune in `runeArr` under a position; the position itself is kept by the hero only.
Levels, bonuses and the database are left out. A hero is never taken away.
-/
namespace HuluLandlord.Agent
open Transition Table

abbrev RuneId := Nat
abbrev HeroId := Nat

/-- `uHero` is `none` for the empty string. -/
structure UserRune where
  sId : Nat
  uHero : Option HeroId
  deriving DecidableEq, Repr

/-- `{key = pos, value = id}`. -/
structure RuneSlot where
  key : Int
  value : RuneId
  deriving DecidableEq, Repr

structure UserHero where
  sId : Nat
  runeArr : List RuneSlot
  deriving DecidableEq, Repr

structure RuneState where
  userrune : RuneId → Option UserRune
  userhero : HeroId → Option UserHero

inductive RuneEvent
  | addRune (id : RuneId) (sId : Nat)
  | addHero (id : HeroId) (sId : Nat)
  | equip (id : RuneId) (heroId : HeroId) (pos : Option Int)
  | unequip (id : RuneId)
  | remove (id : RuneId)
  | removeList (idArr : List RuneId)
  deriving DecidableEq, Repr

namespace UserHero

/-- `uHero.runeArr[pos]`. -/
def slot (uHero : UserHero) (pos : Int) : Option RuneId :=
  (uHero.runeArr.find? fun obj => obj.key = pos).map RuneSlot.value

/-- `uHero.runeArr[pos] = {key = pos, value = id}`. -/
def put (uHero : UserHero) (pos : Int) (id : RuneId) : UserHero :=
  { uHero with runeArr := uHero.runeArr.filter (fun obj => obj.key ≠ pos) ++ [⟨pos, id⟩] }

/-- The loop that empties the first slot with a rune. -/
def clear (uHero : UserHero) (id : RuneId) : UserHero :=
  { uHero with runeArr := uHero.runeArr.eraseP fun obj => obj.value = id }

end UserHero

namespace RuneState
variable (carry_rune_num : Nat → Nat)

def setRune (s : RuneState) (id : RuneId) (uData : Option UserRune) : RuneState :=
  { s with userrune := Function.update s.userrune id uData }

/-- A hero who is not there is not touched. -/
def modifyHero (s : RuneState) (heroId : HeroId) (f : UserHero → UserHero) : RuneState :=
  { s with userhero := Function.update s.userhero heroId ((s.userhero heroId).map f) }

def unequip (s : RuneState) (id : RuneId) : RuneState × RetVal :=
  match s.userrune id with
  | none => (s, .notExists_5)
  | some uData =>
      let freed := match uData.uHero with
        | none => s
        | some heroId => s.modifyHero heroId fun uHero => uHero.clear id
      (freed.setRune id (some { uData with uHero := none }), .succeed_1)

/-- The slot's old rune is taken off first, then both sides are written. -/
def equipAt (s : RuneState) (id : RuneId) (uData : UserRune) (heroId : HeroId)
    (uHero : UserHero) (pos : Int) : RuneState :=
  let freed := match uHero.slot pos with
    | none => s
    | some old => (s.unequip old).1
  (freed.setRune id (some { uData with uHero := some heroId })).modifyHero heroId
    fun uHero => uHero.put pos id

/-- `Exists_4` is returned in the place of the flag, so the request answers with nothing;
a missing position raises. -/
def equip (s : RuneState) (id : RuneId) (heroId : HeroId) (pos : Option Int) :
    RuneState × Option RetVal :=
  match s.userrune id with
  | none => (s, some .notExists_5)
  | some uData =>
      if (uData.uHero.bind s.userhero).isSome then (s, none)
      else match s.userhero heroId, pos with
        | none, _ => (s, some .notExists_5)
        | some _, none => (s, none)
        | some uHero, some pos =>
            if pos < 1 ∨ pos > carry_rune_num uHero.sId then (s, some .lack_6)
            else (s.equipAt id uData heroId uHero pos, some .succeed_1)

def _remove (s : RuneState) (id : RuneId) : RuneState × Bool :=
  match s.userrune id with
  | none => (s, false)
  | some _ => ((s.unequip id).1.setRune id none, true)

def remove (s : RuneState) (id : RuneId) : RuneState × Bool := s._remove id

def removeList (s : RuneState) (idArr : List RuneId) : RuneState × Bool :=
  if idArr.any fun id => (s.userrune id).isNone then (s, false)
  else (idArr.foldl (fun s id => (s._remove id).1) s, true)

/-- The id of a rune is new. A hero the user has already is not added again. -/
def step (s : RuneState) (e : RuneEvent) : Option RuneState :=
  match e with
  | .addRune id sId =>
      if (s.userrune id).isSome then none else some (s.setRune id (some ⟨sId, none⟩))
  | .addHero id sId =>
      some { s with
        userhero := Function.update s.userhero id (some ((s.userhero id).getD ⟨sId, []⟩)) }
  | .equip id heroId pos => some (s.equip carry_rune_num id heroId pos).1
  | .unequip id => some (s.unequip id).1
  | .remove id => some (s.remove id).1
  | .removeList idArr => some (s.removeList idArr).1

def empty : RuneState := ⟨fun _ => none, fun _ => none⟩

/-- The hero's slot holds the rune. -/
def Holds (s : RuneState) (heroId : HeroId) (pos : Int) (id : RuneId) : Prop :=
  ∃ uHero, s.userhero heroId = some uHero ∧ uHero.slot pos = some id

/-- The rune's record names the hero. -/
def Records (s : RuneState) (id : RuneId) (heroId : HeroId) : Prop :=
  ∃ uData, s.userrune id = some uData ∧ uData.uHero = some heroId

/-- The hero a rune names, and the position under which that hero lists it. -/
def place (s : RuneState) (id : RuneId) : Option (HeroId × Int) := do
  let uData ← s.userrune id
  let heroId ← uData.uHero
  let uHero ← s.userhero heroId
  let obj ← uHero.runeArr.find? fun obj => obj.value = id
  pure (heroId, obj.key)

end RuneState

/-- What the slots of one hero satisfy by themselves. -/
structure SlotsInv (num : Nat) (runeArr : List RuneSlot) : Prop where
  keys : (runeArr.map RuneSlot.key).Nodup
  values : (runeArr.map RuneSlot.value).Nodup
  carried : ∀ obj ∈ runeArr, 1 ≤ obj.key ∧ obj.key ≤ num

/-- Slots and records point at each other. -/
structure RuneInv (carry_rune_num : Nat → Nat) (s : RuneState) : Prop where
  slots : ∀ h uHero, s.userhero h = some uHero →
    SlotsInv (carry_rune_num uHero.sId) uHero.runeArr
  linked : ∀ h uHero, s.userhero h = some uHero → ∀ obj ∈ uHero.runeArr, s.Records obj.value h
  recorded : ∀ id h, s.Records id h →
    ∃ uHero, s.userhero h = some uHero ∧ ∃ obj ∈ uHero.runeArr, obj.value = id

/-- No slot holds the rune. -/
def RuneState.Free (s : RuneState) (id : RuneId) : Prop :=
  ∀ h uHero, s.userhero h = some uHero → ∀ obj ∈ uHero.runeArr, obj.value ≠ id

section Slots
variable {num : Nat} {runeArr : List RuneSlot} {uHero : UserHero} {pos : Int} {id : RuneId}

theorem slots_sublist {arr : List RuneSlot} (inv : SlotsInv num runeArr)
    (sub : arr.Sublist runeArr) : SlotsInv num arr :=
  ⟨inv.keys.sublist (sub.map _), inv.values.sublist (sub.map _),
    fun obj mem => inv.carried obj (sub.subset mem)⟩

/-- Positions are distinct and in range, so there are no more of them than the range has. -/
theorem slots_length (inv : SlotsInv num runeArr) : runeArr.length ≤ num := by
  have within : (runeArr.map RuneSlot.key).toFinset ⊆ Finset.Icc (1 : Int) num := by
    intro key mem
    obtain ⟨obj, listed, rfl⟩ := List.mem_map.mp (List.mem_toFinset.mp mem)
    exact Finset.mem_Icc.mpr (inv.carried obj listed)
  have count := Finset.card_le_card within
  rw [List.toFinset_card_of_nodup inv.keys, List.length_map, Int.card_Icc] at count
  simpa using count

theorem slot_eq_some (keys : (uHero.runeArr.map RuneSlot.key).Nodup) :
    uHero.slot pos = some id ↔ ⟨pos, id⟩ ∈ uHero.runeArr := by
  rw [UserHero.slot, Option.map_eq_some_iff]
  constructor
  · rintro ⟨obj, found, rfl⟩
    obtain ⟨mem, rfl⟩ := (find_keyed keys).mp found
    exact mem
  · intro mem
    exact ⟨_, (find_keyed keys).mpr ⟨mem, rfl⟩, rfl⟩

/-- The rune is held once, so the loop takes it out for good. -/
theorem mem_clear (values : (uHero.runeArr.map RuneSlot.value).Nodup) {obj : RuneSlot} :
    obj ∈ (uHero.clear id).runeArr ↔ obj ∈ uHero.runeArr ∧ obj.value ≠ id := by
  rw [UserHero.clear]
  dsimp only
  generalize uHero.runeArr = runeArr at values ⊢
  induction runeArr with
  | nil => simp
  | cons first rest ih =>
      rw [List.map_cons, List.nodup_cons] at values
      by_cases here : first.value = id
      · rw [List.eraseP_cons_of_pos (by simpa using here)]
        constructor
        · intro mem
          refine ⟨List.mem_cons_of_mem first mem, fun same => values.1 ?_⟩
          exact here.trans same.symm ▸ List.mem_map_of_mem mem
        · rintro ⟨mem, other⟩
          obtain rfl | mem := List.mem_cons.mp mem
          · exact absurd here other
          · exact mem
      · rw [List.eraseP_cons_of_neg (by simpa using here), List.mem_cons, List.mem_cons,
          ih values.2]
        constructor
        · rintro (rfl | ⟨mem, other⟩)
          · exact ⟨.inl rfl, here⟩
          · exact ⟨.inr mem, other⟩
        · rintro ⟨rfl | mem, other⟩
          · exact .inl rfl
          · exact .inr ⟨mem, other⟩

theorem mem_put {obj : RuneSlot} : obj ∈ (uHero.put pos id).runeArr ↔
    (obj ∈ uHero.runeArr ∧ obj.key ≠ pos) ∨ obj = ⟨pos, id⟩ := by
  simp [UserHero.put]

theorem slots_put (inv : SlotsInv num uHero.runeArr) (carried : 1 ≤ pos ∧ pos ≤ num)
    (free : ∀ obj ∈ uHero.runeArr, obj.value ≠ id) : SlotsInv num (uHero.put pos id).runeArr := by
  have sub : (uHero.runeArr.filter fun obj => obj.key ≠ pos).Sublist uHero.runeArr :=
    List.filter_sublist
  have rest := slots_sublist inv sub
  refine ⟨?_, ?_, fun obj mem => ?_⟩
  · rw [UserHero.put, List.map_append, List.nodup_append]
    refine ⟨rest.keys, List.nodup_singleton _, ?_⟩
    intro key old key' new
    obtain ⟨obj, mem, rfl⟩ := List.mem_map.mp old
    obtain rfl : key' = pos := by simpa using new
    exact of_decide_eq_true (List.mem_filter.mp mem).2
  · rw [UserHero.put, List.map_append, List.nodup_append]
    refine ⟨rest.values, List.nodup_singleton _, ?_⟩
    intro value old value' new
    obtain ⟨obj, mem, rfl⟩ := List.mem_map.mp old
    obtain rfl : value' = id := by simpa using new
    exact free obj (sub.subset mem)
  · obtain ⟨old, _⟩ | rfl := mem_put.mp mem
    · exact inv.carried obj old
    · exact carried

end Slots

section Requests
variable {carry_rune_num : Nat → Nat} {s : RuneState} {id r : RuneId} {h k : HeroId}
  {uData : UserRune} {uHero : UserHero} {pos : Int}

/-- A rune off its hero: its record names none and no slot holds it. -/
def RuneState.freed (s : RuneState) (id : RuneId) : RuneState where
  userrune := Function.update s.userrune id
    ((s.userrune id).map fun uData => { uData with uHero := none })
  userhero := fun h => (s.userhero h).map fun uHero => uHero.clear id

theorem clear_of_free (free : ∀ obj ∈ uHero.runeArr, obj.value ≠ id) : uHero.clear id = uHero := by
  rw [UserHero.clear, List.eraseP_of_forall_not]
  intro obj mem
  simpa using free obj mem

/-- Only the hero that the record names can hold the rune. -/
theorem clear_other (inv : RuneInv carry_rune_num s) (other : ¬s.Records id h)
    (hero : s.userhero h = some uHero) : uHero.clear id = uHero := by
  refine clear_of_free fun obj mem same => other ?_
  exact same ▸ inv.linked h uHero hero obj mem

theorem unequip_eq (inv : RuneInv carry_rune_num s) (id : RuneId) :
    (s.unequip id).1 = s.freed id := by
  have others : ∀ h, ¬s.Records id h → s.userhero h = (s.userhero h).map (·.clear id) := by
    intro h other
    cases hero : s.userhero h with
    | none => rfl
    | some uHero => rw [Option.map_some, clear_other inv other hero]
  cases found : s.userrune id with
  | none =>
      have unnamed : ∀ h, ¬s.Records id h := fun h ⟨_, stored, _⟩ => nomatch found.symm.trans stored
      simp only [RuneState.unequip, RuneState.freed, found, Option.map_none]
      rw [← found, Function.update_eq_self]
      exact congrArg (RuneState.mk s.userrune) (funext fun h => others h (unnamed h))
  | some uData =>
      have named : ∀ h, s.Records id h ↔ uData.uHero = some h := by
        intro h
        constructor
        · rintro ⟨record, stored, names⟩
          exact (Option.some.inj (found.symm.trans stored)) ▸ names
        · exact fun names => ⟨uData, found, names⟩
      simp only [RuneState.unequip, RuneState.freed, found, Option.map_some]
      cases carries : uData.uHero with
      | none =>
          simp only [RuneState.setRune]
          congr 1
          funext h
          refine others h fun record => ?_
          cases carries.symm.trans ((named h).mp record)
      | some heroId =>
          simp only [RuneState.setRune, RuneState.modifyHero]
          congr 1
          funext h
          by_cases here : h = heroId
          · rw [here, Function.update_self]
          · rw [Function.update_of_ne here]
            refine others h fun record => here ?_
            exact Option.some.inj (((named h).mp record).symm.trans carries)

theorem records_freed : (s.freed id).Records r h ↔ r ≠ id ∧ s.Records r h := by
  by_cases here : r = id
  · subst here
    simp [RuneState.Records, RuneState.freed]
  · simp [RuneState.Records, RuneState.freed, here]

theorem free_freed (inv : RuneInv carry_rune_num s) : (s.freed id).Free id := by
  intro h uHero' cleared obj mem
  obtain ⟨uHero, hero, rfl⟩ := Option.map_eq_some_iff.mp cleared
  exact ((mem_clear (inv.slots h uHero hero).values).mp mem).2

theorem free_kept (inv : RuneInv carry_rune_num s) (free : s.Free r) : (s.freed id).Free r := by
  intro h uHero' cleared obj mem
  obtain ⟨uHero, hero, rfl⟩ := Option.map_eq_some_iff.mp cleared
  exact free h uHero hero obj ((mem_clear (inv.slots h uHero hero).values).mp mem).1

theorem inv_freed (inv : RuneInv carry_rune_num s) (id : RuneId) :
    RuneInv carry_rune_num (s.freed id) := by
  refine ⟨fun h uHero' cleared => ?_, fun h uHero' cleared obj mem => ?_, fun r h record => ?_⟩
  · obtain ⟨uHero, hero, rfl⟩ := Option.map_eq_some_iff.mp cleared
    exact slots_sublist (inv.slots h uHero hero) List.eraseP_sublist
  · obtain ⟨uHero, hero, rfl⟩ := Option.map_eq_some_iff.mp cleared
    obtain ⟨before, other⟩ := (mem_clear (inv.slots h uHero hero).values).mp mem
    exact records_freed.mpr ⟨other, inv.linked h uHero hero obj before⟩
  · obtain ⟨other, before⟩ := records_freed.mp record
    obtain ⟨uHero, hero, obj, mem, rfl⟩ := inv.recorded r h before
    refine ⟨uHero.clear id, by simp [RuneState.freed, hero], obj, ?_, rfl⟩
    exact (mem_clear (inv.slots h uHero hero).values).mpr ⟨mem, other⟩

theorem inv_unequip (inv : RuneInv carry_rune_num s) (id : RuneId) :
    RuneInv carry_rune_num (s.unequip id).1 := by
  rw [unequip_eq inv]
  exact inv_freed inv id

/-- The record of a rune in no slot can be deleted, or set up with no hero. -/
theorem inv_setRune (inv : RuneInv carry_rune_num s) (free : s.Free id) {uData : Option UserRune}
    (bare : ∀ record, uData = some record → record.uHero = none) :
    RuneInv carry_rune_num (s.setRune id uData) := by
  refine ⟨inv.slots, fun h uHero hero obj mem => ?_, fun r h record => ?_⟩
  · have other := free h uHero hero obj mem
    obtain ⟨record, found, names⟩ := inv.linked h uHero hero obj mem
    exact ⟨record, by simpa [RuneState.setRune, other] using found, names⟩
  · obtain ⟨record, found, names⟩ := record
    by_cases here : r = id
    · subst here
      simp only [RuneState.setRune, Function.update_self] at found
      cases (bare record found).symm.trans names
    · simp only [RuneState.setRune, Function.update_of_ne here] at found
      exact inv.recorded r h ⟨record, found, names⟩

theorem inv_removeRune (inv : RuneInv carry_rune_num s) (id : RuneId) :
    RuneInv carry_rune_num (s._remove id).1 ∧ (s._remove id).1.Free id := by
  cases found : s.userrune id with
  | none =>
      simp only [RuneState._remove, found]
      refine ⟨inv, fun h uHero hero obj mem same => ?_⟩
      obtain ⟨record, stored, _⟩ := inv.linked h uHero hero obj mem
      subst same
      cases found.symm.trans stored
  | some uData =>
      simp only [RuneState._remove, found, unequip_eq inv]
      have free := @free_freed _ _ id inv
      exact ⟨inv_setRune (inv_freed inv id) free nofun, free⟩

/-- Removing a rune puts no other one into a slot. -/
theorem free_remove (inv : RuneInv carry_rune_num s) (free : s.Free r) :
    (s._remove id).1.Free r := by
  cases found : s.userrune id with
  | none => simpa only [RuneState._remove, found] using free
  | some uData =>
      simp only [RuneState._remove, found, unequip_eq inv]
      exact @free_kept _ _ id r inv free

theorem inv_removeEach (inv : RuneInv carry_rune_num s) (idArr : List RuneId) :
    let s' := idArr.foldl (fun s id => (s._remove id).1) s
    RuneInv carry_rune_num s' ∧ ∀ r, r ∈ idArr ∨ s.Free r → s'.Free r := by
  induction idArr generalizing s with
  | nil => exact ⟨inv, fun r free => free.resolve_left List.not_mem_nil⟩
  | cons id idArr ih =>
      obtain ⟨inv', gone⟩ := inv_removeRune inv id
      obtain ⟨done, free⟩ := ih inv'
      refine ⟨done, fun r removed => free r ?_⟩
      obtain listed | old := removed
      · obtain rfl | later := List.mem_cons.mp listed
        · exact .inr gone
        · exact .inl later
      · exact .inr (free_remove inv old)

/-- A rune in no slot goes to an empty position. -/
theorem inv_put (inv : RuneInv carry_rune_num s) (free : s.Free id)
    (hero : s.userhero h = some uHero) (carried : 1 ≤ pos ∧ pos ≤ carry_rune_num uHero.sId)
    (vacant : ∀ obj ∈ uHero.runeArr, obj.key ≠ pos) :
    RuneInv carry_rune_num ((s.setRune id (some { uData with uHero := some h })).modifyHero h
      fun uHero => uHero.put pos id) := by
  have heroes : ∀ k uHero', Function.update s.userhero h
        ((s.userhero h).map fun uHero => uHero.put pos id) k = some uHero' →
      (k = h ∧ uHero' = uHero.put pos id) ∨ (k ≠ h ∧ s.userhero k = some uHero') := by
    intro k uHero' changed
    rw [hero, Option.map_some] at changed
    exact update_some changed
  refine ⟨fun k uHero' changed => ?_, fun k uHero' changed obj mem => ?_, fun r k record => ?_⟩
  · obtain ⟨rfl, rfl⟩ | ⟨_, before⟩ := heroes k uHero' changed
    · exact slots_put (inv.slots k uHero hero) carried (free k uHero hero)
    · exact inv.slots k uHero' before
  · have old : ∀ k uHero', s.userhero k = some uHero' → ∀ obj ∈ uHero'.runeArr,
        (s.setRune id (some { uData with uHero := some h })).Records obj.value k := by
      intro k uHero' before obj mem
      obtain ⟨record, found, names⟩ := inv.linked k uHero' before obj mem
      have other := free k uHero' before obj mem
      exact ⟨record, by simpa [RuneState.setRune, other] using found, names⟩
    obtain ⟨rfl, rfl⟩ | ⟨_, before⟩ := heroes k uHero' changed
    · obtain ⟨listed, _⟩ | rfl := mem_put.mp mem
      · exact old k uHero hero obj listed
      · refine ⟨{ uData with uHero := some k }, ?_, rfl⟩
        exact Function.update_self id _ s.userrune
    · exact old k uHero' before obj mem
  · obtain ⟨record, found, names⟩ := record
    simp only [RuneState.setRune, RuneState.modifyHero] at found ⊢
    by_cases here : r = id
    · subst here
      rw [Function.update_self, Option.some.injEq] at found
      subst found
      obtain rfl := Option.some.inj names
      exact ⟨uHero.put pos r, by simp [hero], _, mem_put.mpr (.inr rfl), rfl⟩
    · rw [Function.update_of_ne here] at found
      obtain ⟨uHero', before, obj, mem, same⟩ := inv.recorded r k ⟨record, found, names⟩
      by_cases there : k = h
      · subst there
        obtain rfl := Option.some.inj (hero.symm.trans before)
        exact ⟨uHero.put pos id, by simp [hero], obj, mem_put.mpr (.inl ⟨mem, vacant obj mem⟩),
          same⟩
      · exact ⟨uHero', by simp [there, before], obj, mem, same⟩

/-- A rune is equipped only if no hero carries it. -/
theorem free_of_unnamed (inv : RuneInv carry_rune_num s) (found : s.userrune id = some uData)
    (unnamed : (uData.uHero.bind s.userhero).isSome = false) : s.Free id := by
  intro h uHero hero obj mem same
  obtain ⟨record, stored, names⟩ := inv.linked h uHero hero obj mem
  obtain rfl := Option.some.inj (found.symm.trans (same ▸ stored))
  simp [names, hero] at unnamed

theorem inv_equipAt (inv : RuneInv carry_rune_num s) (free : s.Free id)
    (hero : s.userhero h = some uHero) (carried : 1 ≤ pos ∧ pos ≤ carry_rune_num uHero.sId) :
    RuneInv carry_rune_num (s.equipAt id uData h uHero pos) := by
  have keys := (inv.slots h uHero hero).keys
  simp only [RuneState.equipAt]
  cases holds : uHero.slot pos with
  | none =>
      refine inv_put inv free hero carried fun obj mem here => ?_
      have held : uHero.slot pos = some obj.value := (slot_eq_some keys).mpr (here ▸ mem)
      cases holds.symm.trans held
  | some old =>
      have cleared : (s.freed old).userhero h = some (uHero.clear old) := by
        simp [RuneState.freed, hero]
      simp only [unequip_eq inv]
      refine inv_put (inv_freed inv old) (free_kept inv free) cleared carried fun obj mem here => ?_
      obtain ⟨before, other⟩ := (mem_clear (inv.slots h uHero hero).values).mp mem
      have held : uHero.slot pos = some obj.value := (slot_eq_some keys).mpr (here ▸ before)
      exact other (Option.some.inj (held.symm.trans holds))

theorem inv_equip (inv : RuneInv carry_rune_num s) (id : RuneId) (h : HeroId) (pos : Option Int) :
    RuneInv carry_rune_num (s.equip carry_rune_num id h pos).1 := by
  simp only [RuneState.equip]
  split
  · exact inv
  rename_i found
  split
  · exact inv
  rename_i unnamed
  split
  · exact inv
  · exact inv
  rename_i hero
  split
  · exact inv
  rename_i carried
  refine inv_equipAt inv (free_of_unnamed inv found ?_) hero (by omega)
  simpa using unnamed

theorem inv_addHero (inv : RuneInv carry_rune_num s) (id : HeroId) (sId : Nat) :
    RuneInv carry_rune_num { s with
      userhero := Function.update s.userhero id (some ((s.userhero id).getD ⟨sId, []⟩)) } := by
  cases found : s.userhero id with
  | some uHero =>
      rw [Option.getD_some, ← found, Function.update_eq_self]
      exact inv
  | none =>
      have bare : SlotsInv (carry_rune_num sId) [] :=
        ⟨List.nodup_nil, List.nodup_nil, fun _ mem => absurd mem List.not_mem_nil⟩
      refine ⟨fun h uHero hero => ?_, fun h uHero hero obj mem => ?_, fun r h record => ?_⟩
      · obtain ⟨_, rfl⟩ | ⟨_, before⟩ := update_some hero
        · exact bare
        · exact inv.slots h uHero before
      · obtain ⟨_, rfl⟩ | ⟨_, before⟩ := update_some hero
        · exact absurd mem List.not_mem_nil
        · exact inv.linked h uHero before obj mem
      · obtain ⟨uHero, hero, held⟩ := inv.recorded r h record
        have here : h ≠ id := fun same => nomatch (same ▸ hero).symm.trans found
        exact ⟨uHero, (Function.update_of_ne here _ _).trans hero, held⟩

theorem runeInv_step {s' : RuneState} {e : RuneEvent} (inv : RuneInv carry_rune_num s)
    (moved : s.step carry_rune_num e = some s') : RuneInv carry_rune_num s' := by
  cases e with
  | addRune id sId =>
      simp only [RuneState.step] at moved
      split at moved
      · cases moved
      rename_i fresh
      obtain rfl := Option.some.inj moved
      refine inv_setRune inv (fun h uHero hero obj mem same => fresh ?_) fun record made => ?_
      · obtain ⟨record, stored, _⟩ := inv.linked h uHero hero obj mem
        rw [← same, stored, Option.isSome_some]
      · rw [← Option.some.inj made]
  | addHero id sId =>
      obtain rfl := Option.some.inj moved
      exact inv_addHero inv id sId
  | equip id heroId pos =>
      obtain rfl := Option.some.inj moved
      exact inv_equip inv id heroId pos
  | unequip id =>
      obtain rfl := Option.some.inj moved
      exact inv_unequip inv id
  | remove id =>
      obtain rfl := Option.some.inj moved
      exact (inv_removeRune inv id).1
  | removeList idArr =>
      obtain rfl := Option.some.inj moved
      simp only [RuneState.removeList]
      split
      · exact inv
      · exact (inv_removeEach inv idArr).1

end Requests

section Runs
variable {carry_rune_num : Nat → Nat} {s : RuneState} {id : RuneId} {h : HeroId} {pos : Int}
  {es : List RuneEvent}

theorem run_runeInv (run : Run (RuneState.step carry_rune_num) anyStep RuneState.empty es s) :
    RuneInv carry_rune_num s := by
  refine run.invariant (RuneInv carry_rune_num) ?_ fun s e s' inv _ moved => runeInv_step inv moved
  exact ⟨nofun, nofun, fun _ _ record => nomatch record⟩

theorem holds_iff (inv : RuneInv carry_rune_num s) : s.Holds h pos id ↔
    ∃ uHero, s.userhero h = some uHero ∧ (⟨pos, id⟩ : RuneSlot) ∈ uHero.runeArr := by
  refine exists_congr fun uHero => and_congr_right fun hero => ?_
  exact slot_eq_some (inv.slots h uHero hero).keys

theorem not_holds_of_free (free : s.Free id) (inv : RuneInv carry_rune_num s) :
    ¬s.Holds h pos id := by
  intro held
  obtain ⟨uHero, hero, mem⟩ := (holds_iff inv).mp held
  exact free h uHero hero _ mem rfl

/-- The place of a rune is the slot that holds it. -/
theorem place_iff (inv : RuneInv carry_rune_num s) :
    s.place id = some (h, pos) ↔ s.Holds h pos id := by
  rw [holds_iff inv]
  constructor
  · intro placed
    simp only [RuneState.place, Option.bind_eq_bind, Option.bind_eq_some_iff, Option.pure_def,
      Option.some.injEq, Prod.mk.injEq] at placed
    obtain ⟨uData, _, heroId, _, uHero, hero, obj, found, rfl, rfl⟩ := placed
    obtain ⟨mem, rfl⟩ := (find_keyed (inv.slots heroId uHero hero).values).mp found
    exact ⟨uHero, hero, mem⟩
  · rintro ⟨uHero, hero, mem⟩
    obtain ⟨uData, stored, names⟩ := inv.linked h uHero hero _ mem
    have found := (find_keyed (k := id) (inv.slots h uHero hero).values).mpr ⟨mem, rfl⟩
    simp only [RuneState.place, stored, names, hero, found, Option.bind_eq_bind,
      Option.bind_some, Option.pure_def]

theorem records_iff (inv : RuneInv carry_rune_num s) :
    s.Records id h ↔ ∃ pos, s.Holds h pos id := by
  constructor
  · intro record
    obtain ⟨uHero, hero, obj, mem, rfl⟩ := inv.recorded id h record
    exact ⟨obj.key, (holds_iff inv).mpr ⟨uHero, hero, mem⟩⟩
  · rintro ⟨pos, held⟩
    obtain ⟨uHero, hero, mem⟩ := (holds_iff inv).mp held
    exact inv.linked h uHero hero _ mem

/-- In every run runes and slots agree, and a removal leaves no slot behind. -/
theorem run_equipped (run : Run (RuneState.step carry_rune_num) anyStep RuneState.empty es s) :
    (∀ id h, s.Records id h ↔ ∃ pos, s.Holds h pos id) ∧
      (∀ id h pos, s.place id = some (h, pos) ↔ s.Holds h pos id) ∧
      (∀ id h pos h' pos', s.Holds h pos id → s.Holds h' pos' id → h = h' ∧ pos = pos') ∧
      (∀ h uHero, s.userhero h = some uHero →
        uHero.runeArr.length ≤ carry_rune_num uHero.sId) ∧
      (∀ id h pos, ¬(s.remove id).1.Holds h pos id) ∧
      ∀ idArr, (s.removeList idArr).2 = true → ∀ id ∈ idArr, ∀ h pos,
        ¬(s.removeList idArr).1.Holds h pos id := by
  have inv := run_runeInv run
  refine ⟨fun id h => records_iff inv, fun id h pos => place_iff inv, ?_, ?_, ?_, ?_⟩
  · intro id h pos h' pos' held held'
    have same := ((place_iff inv).mpr held).symm.trans ((place_iff inv).mpr held')
    exact Prod.mk.inj (Option.some.inj same)
  · exact fun h uHero hero => slots_length (inv.slots h uHero hero)
  · intro id h pos
    obtain ⟨kept, free⟩ := inv_removeRune inv id
    exact not_holds_of_free free kept
  · intro idArr removed id mem h pos
    simp only [RuneState.removeList] at removed ⊢
    split at removed
    · cases removed
    · rename_i known
      obtain ⟨kept, free⟩ := inv_removeEach inv idArr
      rw [if_neg known]
      exact not_holds_of_free (free id (.inl mem)) kept

/-- A second rune takes the slot of the first one. -/
theorem run_equipped_replaced :
    ∃ s, Run (RuneState.step fun _ => 2) anyStep RuneState.empty
        [.addHero 7 1, .addRune 1 1, .addRune 2 1, .equip 1 7 (some 2), .equip 2 7 (some 2)] s ∧
      s.place 1 = none ∧ s.place 2 = some (7, 2) ∧
      ∀ id h pos, s.place id = some (h, pos) ↔ s.Holds h pos id := by
  have run := @run_of_exec _ _ (RuneState.step fun _ => 2) RuneState.empty
    [.addHero 7 1, .addRune 1 1, .addRune 2 1, .equip 1 7 (some 2), .equip 2 7 (some 2)] _ rfl
  exact ⟨_, run, by decide, by decide, (run_equipped run).2.1⟩

end Runs

end HuluLandlord.Agent
