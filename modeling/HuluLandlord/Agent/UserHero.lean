import HuluLandlord.Define
import HuluLandlord.Transition
import HuluLandlord.Table
import Mathlib.Logic.Function.Basic

/-!
The heroes of a user: those for good, and those for a number of games. They are kept in memory and in the
database, and a change is not always written to both. What the user has chosen is written at once and is kept
once here. The bonuses, the runes and the messages to the client are left out.
-/
namespace HuluLandlord.Agent
open Transition Table

/-- A missing `skillCount` is read as zero. -/
structure UserHeroData where
  sId : Nat
  skillLv : Nat
  moodLv : Int
  moodExp : Int
  notLimit : Bool
  useCount : Int
  skillCount : Nat
  deriving DecidableEq, Repr

/-- `skill_id` is a field of `fashion`, `week_chance` is read from `skillBuff[skillId][skillLv]`, and `mood` gives
the `need_mood` of a level. -/
structure HeroCfg where
  cfg_hero : Nat → Bool
  skill_id : Nat → Option Nat
  skillBuff : Nat → Option (Nat → Option Int)
  mood : Int → Option Int

def TangBaoEr : Nat := 104009

/-- A skill that was granted: which one of the week it is for the hero, and the chances that were read for it. -/
structure SkillUse where
  heroId : Nat
  number : Nat
  week_chance : Int
  deriving DecidableEq, Repr

/-- The heroes in memory and in the database, by their ids, with the order in which `pairs` visits them. The
counts are of what was granted and of the games played, and of the skills used since the week began. -/
structure UserHeroes where
  userhero : Nat → Option UserHeroData
  dataTable : Nat → Option UserHeroData
  keys : List Nat
  heroId : Option Nat
  skin : Option Nat
  heroIdLast : Option Nat
  granted : Nat → Int
  games : Nat → Nat
  weekUses : Nat → Nat
  uses : List SkillUse

/-- `newId` is what `getUid_Time` returns, `pick` is the random choice of a hero, and `moods` are the changes drawn
for the heroes, none where there is nothing to draw from. -/
inductive HeroEvent
  | HeroBoxLimit (id newId skilllv : Nat) (count : Int)
  | cmdAddHero (id newId : Nat) (count : Int)
  | addHero (id : Nat)
  | HeroUse (id : Nat)
  | RoomGameOver (heroId pick : Nat)
  | UserNewWeek (moods : Nat → Option Int)
  | UserHeroSkillUse (heroId : Nat)
  | login (pick : Nat)

namespace UserHeroes

def newHero (sId : Nat) (notLimit : Bool) : UserHeroData := ⟨sId, 1, 1, 0, notLimit, 0, 0⟩

/-- A hero put into memory and written to the database. -/
def put (s : UserHeroes) (id : Nat) (uData : UserHeroData) : UserHeroes :=
  { s with
    userhero := Function.update s.userhero id (some uData)
    dataTable := Function.update s.dataTable id (some uData)
    keys := if id ∈ s.keys then s.keys else s.keys ++ [id] }

def add (cfg : HeroCfg) (s : UserHeroes) (id : Nat) : UserHeroes :=
  if cfg.cfg_hero id then
    match s.userhero id with
    | some _ => s
    | none => s.put id (newHero id true)
  else s

/-- The limited hero that `add_limit` finds, or a new one. -/
def limitId (s : UserHeroes) (id newId : Nat) : Nat :=
  (s.keys.find? fun key => (s.userhero key).any fun value => value.sId = id ∧ value.notLimit = false).getD newId

def add_limit (s : UserHeroes) (id newId : Nat) (dataHandle : UserHeroData → UserHeroData) : UserHeroes :=
  let key := s.limitId id newId
  let uData := dataHandle ((s.userhero key).getD (newHero id false))
  s.put key { uData with notLimit := false }

def use (s : UserHeroes) (id : Nat) : UserHeroes × Option UserHeroData :=
  match s.userhero id with
  | some uData =>
      ({ s with
        skin := some uData.sId
        heroId := some id
        heroIdLast := if uData.notLimit then some id else s.heroIdLast }, some uData)
  | none => (s, none)

def resetUseHero (s : UserHeroes) (pick : Nat) : UserHeroes :=
  match s.heroIdLast with
  | some heroIdLast => (s.use heroIdLast).1
  | none =>
      let arr := s.keys.filter fun key => (s.userhero key).any fun value => value.notLimit || decide (0 < value.useCount)
      match arr[pick % arr.length]? with
      | some id => (s.use id).1
      | none => s

def HeroUse (s : UserHeroes) (id : Nat) : UserHeroes × RetVal :=
  match s.use id with
  | (s, none) => (s, .notExists_5)
  | (s, some _) => (s, .succeed_1)

/-- A game of a limited hero takes one of its uses, in memory only. -/
def RoomGameOver (s : UserHeroes) (heroId pick : Nat) : UserHeroes :=
  match s.userhero heroId with
  | none => s
  | some uData =>
      if uData.notLimit then s
      else
        let played := { s with
          userhero := Function.update s.userhero heroId (some { uData with useCount := uData.useCount - 1 })
          games := Function.update s.games heroId (s.games heroId + 1) }
        if uData.useCount - 1 ≤ 0 then played.resetUseHero pick else played

def setMood (cfg : HeroCfg) (uData : UserHeroData) (value : Int) : UserHeroData :=
  let moodLv := max (uData.moodLv + value) 1
  { uData with
    moodLv
    moodExp := if moodLv = 1 then 0 else (cfg.mood (moodLv - 1)).getD uData.moodExp }

/-- Where a change is drawn, the whole hero is written. -/
def weekResetMood (cfg : HeroCfg) (s : UserHeroes) (moods : Nat → Option Int) : UserHeroes :=
  let changed (id : Nat) : Option UserHeroData := do setMood cfg (← s.userhero id) (← moods id)
  { s with
    userhero := fun id => (changed id).or (s.userhero id)
    dataTable := fun id => (changed id).or (s.dataTable id) }

/-- The skill count of one hero alone starts again, in memory only. -/
def UserNewWeek (cfg : HeroCfg) (s : UserHeroes) (moods : Nat → Option Int) : UserHeroes :=
  let s := s.weekResetMood cfg moods
  { s with
    userhero := fun id => (s.userhero id).map fun value =>
      if value.sId = TangBaoEr then { value with skillCount := 0 } else value
    weekUses := fun _ => 0 }

/-- `none` where the skill has no rows, which is an error. -/
def UserHeroSkillUse (cfg : HeroCfg) (s : UserHeroes) (heroId : Nat) : UserHeroes × Option Bool :=
  match s.userhero heroId with
  | none => (s, some false)
  | some uData =>
      match (cfg.skill_id uData.sId).bind cfg.skillBuff with
      | none => (s, none)
      | some rows =>
          match rows uData.skillLv with
          | none => (s, some false)
          | some week_chance =>
              if week_chance ≤ uData.skillCount then (s, some false)
              else
                let number := s.weekUses heroId + 1
                ({ s with
                  userhero := Function.update s.userhero heroId
                    (some { uData with skillCount := uData.skillCount + 1 })
                  weekUses := Function.update s.weekUses heroId number
                  uses := s.uses ++ [⟨heroId, number, week_chance⟩] }, some true)

/-- `init`, and what is done when the user is online. -/
def login (s : UserHeroes) (pick : Nat) : UserHeroes :=
  let loaded := { s with userhero := s.dataTable }
  if loaded.heroId = none ∨ loaded.skin = none then loaded.resetUseHero pick else loaded

/-- A limited hero is granted; the id of a new one is not in use. -/
def grant (cfg : HeroCfg) (s : UserHeroes) (id newId : Nat) (count : Int)
    (dataHandle : UserHeroData → UserHeroData) : Option UserHeroes :=
  if cfg.cfg_hero id then
    if (s.userhero newId).isSome then none
    else
      let key := s.limitId id newId
      some { s.add_limit id newId dataHandle with granted := Function.update s.granted key (s.granted key + count) }
  else some s

def step (cfg : HeroCfg) (s : UserHeroes) : HeroEvent → Option UserHeroes
  | .HeroBoxLimit id newId skilllv count =>
      s.grant cfg id newId count fun uData => { uData with skillLv := skilllv, useCount := count, skillCount := 0 }
  | .cmdAddHero id newId count => s.grant cfg id newId count fun uData => { uData with useCount := count }
  | .addHero id => some (s.add cfg id)
  | .HeroUse id => some (s.HeroUse id).1
  | .RoomGameOver heroId pick => some (s.RoomGameOver heroId pick)
  | .UserNewWeek moods => some (s.UserNewWeek cfg moods)
  | .UserHeroSkillUse heroId => some (s.UserHeroSkillUse cfg heroId).1
  | .login pick => some (s.login pick)

/-- A user who has no hero yet. -/
def fresh : UserHeroes :=
  ⟨fun _ => none, fun _ => none, [], none, none, none, fun _ => 0, fun _ => 0, fun _ => 0, []⟩

/-- What is promised of the limited heroes and of the skills. -/
structure Bounded (s : UserHeroes) : Prop where
  games : ∀ id h, s.userhero id = some h → h.notLimit = false → s.games id ≤ s.granted id
  spent : ∀ id h, s.userhero id = some h → h.notLimit = false → h.useCount ≤ 0 →
    s.heroId ≠ some id ∧ (s.HeroUse id).2 ≠ .succeed_1
  skills : ∀ use ∈ s.uses, (use.number : Int) ≤ use.week_chance

/-- No game takes a hero's last use and no grant is of none, a grant that starts the skill count again finds no
skill used in the week, and a login finds in the database what was played and used. -/
def Saved (cfg : HeroCfg) (s : UserHeroes) : HeroEvent → Prop
  | .HeroBoxLimit id newId _ count => cfg.cfg_hero id → 1 ≤ count ∧ s.weekUses (s.limitId id newId) = 0
  | .cmdAddHero id _ count => cfg.cfg_hero id → 1 ≤ count
  | .RoomGameOver heroId _ => ∀ h ∈ s.userhero heroId, h.notLimit = false → 2 ≤ h.useCount
  | .login _ => ∀ id ∈ s.keys, ∀ h ∈ s.userhero id, ∀ r ∈ s.dataTable id,
      (h.notLimit = false → r.useCount ≤ h.useCount) ∧ s.weekUses id ≤ r.skillCount
  | _ => True

instance (cfg : HeroCfg) (s : UserHeroes) (e : HeroEvent) : Decidable (Saved cfg s e) := by
  cases e with
  | _ => unfold Saved; infer_instance

/-- The counts of one hero, in memory and in the database; both know the same heroes. -/
def Slot (granted : Int) (games weekUses : Nat) : Option UserHeroData → Option UserHeroData → Prop
  | none, none => granted = 0 ∧ games = 0 ∧ weekUses = 0
  | some h, some r => r.notLimit = h.notLimit ∧ weekUses ≤ h.skillCount ∧
      (h.notLimit = false → 1 ≤ r.useCount ∧ 1 ≤ h.useCount ∧ games + h.useCount ≤ granted)
  | _, _ => False

structure Kept (s : UserHeroes) : Prop where
  slots : ∀ id, Slot (s.granted id) (s.games id) (s.weekUses id) (s.userhero id) (s.dataTable id)
  keyed : ∀ id, (s.userhero id).isSome → id ∈ s.keys
  skills : ∀ use ∈ s.uses, (use.number : Int) ≤ use.week_chance

section Kept
variable {cfg : HeroCfg} {s t : UserHeroes} {id newId heroId pick : Nat} {h r : UserHeroData}

theorem Kept.slot (kept : s.Kept) (found : s.userhero id = some h) : ∃ r, s.dataTable id = some r ∧
    r.notLimit = h.notLimit ∧ s.weekUses id ≤ h.skillCount ∧
      (h.notLimit = false → 1 ≤ r.useCount ∧ 1 ≤ h.useCount ∧ s.games id + h.useCount ≤ s.granted id) := by
  have slot := kept.slots id
  rw [found] at slot
  cases row : s.dataTable id with
  | none =>
      rw [row] at slot
      exact slot.elim
  | some r =>
      rw [row] at slot
      exact ⟨r, rfl, slot⟩

theorem Kept.unknown (kept : s.Kept) (absent : s.userhero id = none) :
    s.dataTable id = none ∧ s.granted id = 0 ∧ s.games id = 0 ∧ s.weekUses id = 0 := by
  have slot := kept.slots id
  rw [absent] at slot
  cases row : s.dataTable id with
  | none =>
      rw [row] at slot
      exact ⟨rfl, slot⟩
  | some r =>
      rw [row] at slot
      exact slot.elim

theorem Kept.bounded (kept : s.Kept) : s.Bounded := by
  refine ⟨fun id h found limited => ?_, fun id h found limited spent => ?_, kept.skills⟩
  · obtain ⟨r, -, -, -, counts⟩ := kept.slot found
    have := counts limited
    omega
  · obtain ⟨r, -, -, -, counts⟩ := kept.slot found
    have := counts limited
    omega

/-- The choice of a hero changes no counts. -/
theorem kept_use (kept : s.Kept) : (s.use id).1.Kept := by
  rw [use]
  split
  · exact ⟨kept.slots, kept.keyed, kept.skills⟩
  · exact kept

theorem kept_resetUseHero (kept : s.Kept) : (s.resetUseHero pick).Kept := by
  simp only [resetUseHero]
  split
  · exact kept_use kept
  · split
    · exact kept_use kept
    · exact kept

theorem HeroUse_fst : (s.HeroUse id).1 = (s.use id).1 := by
  rw [HeroUse]
  split
  · rename_i same
    rw [same]
  · rename_i same
    rw [same]

/-- A step that touches one hero. -/
theorem Kept.one (kept : s.Kept) (id : Nat)
    (others : ∀ k, k ≠ id → t.userhero k = s.userhero k ∧ t.dataTable k = s.dataTable k ∧
      t.granted k = s.granted k ∧ t.games k = s.games k ∧ t.weekUses k = s.weekUses k)
    (slot : Slot (t.granted id) (t.games id) (t.weekUses id) (t.userhero id) (t.dataTable id))
    (keys : id ∈ t.keys ∧ s.keys ⊆ t.keys) (skills : ∀ use ∈ t.uses, (use.number : Int) ≤ use.week_chance) :
    t.Kept := by
  refine ⟨fun k => ?_, fun k held => ?_, skills⟩
  · by_cases here : k = id
    · exact here ▸ slot
    · obtain ⟨mem, row, granted, games, week⟩ := others k here
      rw [mem, row, granted, games, week]
      exact kept.slots k
  · by_cases here : k = id
    · exact here ▸ keys.1
    · rw [(others k here).1] at held
      exact keys.2 (kept.keyed k held)

theorem mem_keys_put (s : UserHeroes) (id : Nat) (uData : UserHeroData) :
    id ∈ (s.put id uData).keys ∧ s.keys ⊆ (s.put id uData).keys := by
  simp only [put]
  split
  · rename_i listed
    exact ⟨listed, List.Subset.refl _⟩
  · exact ⟨by simp, List.subset_append_left _ _⟩

theorem kept_add (kept : s.Kept) : (s.add cfg id).Kept := by
  rw [add]
  split
  · split
    · exact kept
    · rename_i absent
      obtain ⟨-, granted, games, week⟩ := kept.unknown absent
      refine kept.one id (fun k other => ?_) ?_ (mem_keys_put s id _) kept.skills
      · simp [put, other]
      · simp [put, Slot, week, newHero]
  · exact kept

/-- The limited hero that is found is one, and the new one is not known yet. -/
theorem limitId_cases (s : UserHeroes) (id newId : Nat) :
    (∃ h, s.userhero (s.limitId id newId) = some h ∧ h.sId = id ∧ h.notLimit = false) ∨ s.limitId id newId = newId := by
  rw [limitId]
  cases found : s.keys.find? fun key => (s.userhero key).any fun value => value.sId = id ∧ value.notLimit = false with
  | none => exact .inr rfl
  | some key =>
      have passed := List.find?_some found
      obtain ⟨h, here, both⟩ := (Option.any_eq_true _ _).mp passed
      exact .inl ⟨h, here, of_decide_eq_true both⟩

theorem kept_grant {count : Int} {dataHandle : UserHeroData → UserHeroData} (kept : s.Kept)
    (some_ : cfg.cfg_hero id → 1 ≤ count) (counted : ∀ h, (dataHandle h).useCount = count)
    (skills : cfg.cfg_hero id → ∀ h, s.weekUses (s.limitId id newId) ≤ h.skillCount →
      s.weekUses (s.limitId id newId) ≤ (dataHandle h).skillCount)
    (granted : s.grant cfg id newId count dataHandle = some t) : t.Kept := by
  rw [grant] at granted
  split at granted
  · rename_i known
    split at granted
    · cases granted
    rename_i new
    obtain rfl := Option.some.inj granted
    have count_pos := some_ known
    have keys := mem_keys_put s (s.limitId id newId)
    refine kept.one (s.limitId id newId) (fun k other => ?_) ?_ (by simpa only [add_limit] using keys _) kept.skills
    · simp [add_limit, put, other]
    · obtain ⟨h, found, -, limited⟩ | same := limitId_cases s id newId
      · obtain ⟨r, -, -, week, counts⟩ := kept.slot found
        have budget := counts limited
        have week' := skills known h week
        simp only [add_limit, put, Function.update_self, Slot, found, Option.getD_some, counted]
        exact ⟨trivial, week', fun _ => by omega⟩
      · rw [same] at skills ⊢
        have absent : s.userhero newId = none := by simpa using new
        obtain ⟨-, granted, games, week⟩ := kept.unknown absent
        have week' := skills known (newHero id false) (by rw [week]; exact Nat.zero_le _)
        simp only [add_limit, same, put, Function.update_self, Slot, absent, Option.getD_none, counted]
        exact ⟨trivial, week', fun _ => by omega⟩
  · obtain rfl := Option.some.inj granted
    exact kept

theorem kept_RoomGameOver (kept : s.Kept) (more : ∀ h ∈ s.userhero heroId, h.notLimit = false → 2 ≤ h.useCount) :
    (s.RoomGameOver heroId pick).Kept := by
  rw [RoomGameOver]
  split
  · exact kept
  rename_i h found
  split
  · exact kept
  rename_i limited
  rw [Bool.not_eq_true] at limited
  obtain ⟨r, row, same, week, counts⟩ := kept.slot found
  have budget := counts limited
  have left := more h found limited
  have played : Kept { s with
      userhero := Function.update s.userhero heroId (some { h with useCount := h.useCount - 1 })
      games := Function.update s.games heroId (s.games heroId + 1) } := by
    refine kept.one heroId (fun k other => ?_) ?_
      ⟨kept.keyed heroId (Option.isSome_iff_exists.mpr ⟨h, found⟩), List.Subset.refl _⟩ kept.skills
    · simp [other]
    · simp only [Function.update_self, row, Slot]
      push_cast
      exact ⟨same, week, fun _ => by omega⟩
  dsimp only
  split
  · exact kept_resetUseHero played
  · exact played

theorem kept_UserNewWeek {moods : Nat → Option Int} (kept : s.Kept) : (s.UserNewWeek cfg moods).Kept := by
  refine ⟨fun id => ?_, fun id held => kept.keyed id ?_, kept.skills⟩
  · cases found : s.userhero id with
    | none =>
        obtain ⟨row, granted, games, -⟩ := kept.unknown found
        simp [UserNewWeek, weekResetMood, found, row, Slot, granted, games]
    | some h =>
        obtain ⟨r, row, same, week, counts⟩ := kept.slot found
        cases drawn : moods id with
        | none =>
            simp only [UserNewWeek, weekResetMood, found, drawn, row, bind, Option.bind, Option.none_or, Option.map_some, Slot]
            split
            · exact ⟨same, Nat.zero_le _, counts⟩
            · exact ⟨same, Nat.zero_le _, counts⟩
        | some value =>
            simp only [UserNewWeek, weekResetMood, found, drawn, row, bind, Option.bind, Option.some_or, Option.map_some,
              Slot]
            split
            · refine ⟨rfl, Nat.zero_le _, fun limited => ?_⟩
              exact ⟨(counts limited).2.1, (counts limited).2⟩
            · refine ⟨rfl, Nat.zero_le _, fun limited => ?_⟩
              exact ⟨(counts limited).2.1, (counts limited).2⟩
  · cases found : s.userhero id with
    | none => simp [UserNewWeek, weekResetMood, found] at held
    | some h => rfl

theorem kept_UserHeroSkillUse (kept : s.Kept) : (s.UserHeroSkillUse cfg heroId).1.Kept := by
  simp only [UserHeroSkillUse]
  split
  · exact kept
  rename_i h found
  split
  · exact kept
  split
  · exact kept
  split
  · exact kept
  rename_i week_chance chance left
  obtain ⟨r, row, same, week, counts⟩ := kept.slot found
  refine kept.one heroId (fun k other => ?_) ?_
    ⟨kept.keyed heroId (Option.isSome_iff_exists.mpr ⟨h, found⟩), List.Subset.refl _⟩ fun use mem => ?_
  · simp [other]
  · simp only [Function.update_self, row, Slot]
    exact ⟨same, by omega, counts⟩
  · obtain old | rfl := List.mem_append.mp mem |>.imp_right List.mem_singleton.mp
    · exact kept.skills use old
    · dsimp only
      push_cast
      omega

/-- What was written to the database after the last game and the last use can be loaded again. -/
theorem kept_login (kept : s.Kept) (saved : Saved cfg s (.login pick)) : (s.login pick).Kept := by
  have loaded : Kept { s with userhero := s.dataTable } := by
    refine ⟨fun id => ?_, fun id held => kept.keyed id ?_, kept.skills⟩
    · cases found : s.userhero id with
      | none =>
          obtain ⟨row, counts⟩ := kept.unknown found
          simp only [row, Slot, counts, and_self]
      | some h =>
          obtain ⟨r, row, same, week, counts⟩ := kept.slot found
          obtain ⟨uses, skills⟩ := saved id (kept.keyed id (Option.isSome_iff_exists.mpr ⟨h, found⟩)) h found r row
          simp only [row, Slot]
          refine ⟨trivial, skills, fun limited => ?_⟩
          have limited' := same.symm.trans limited
          have := counts limited'
          have := uses limited'
          omega
    · change (s.dataTable id).isSome at held
      cases found : s.userhero id with
      | none =>
          rw [(kept.unknown found).1] at held
          exact held
      | some h => rfl
  simp only [login]
  split
  · exact kept_resetUseHero loaded
  · exact loaded

theorem kept_step {e : HeroEvent} (kept : s.Kept) (saved : Saved cfg s e) (moved : step cfg s e = some t) : t.Kept := by
  cases e with
  | HeroBoxLimit id newId skilllv count =>
      refine kept_grant kept (fun known => (saved known).1) (fun h => rfl) (fun known h week => ?_) moved
      exact (saved known).2.trans_le (Nat.zero_le _)
  | cmdAddHero id newId count =>
      exact @kept_grant cfg s t id newId count (fun uData => { uData with useCount := count }) kept saved
        (fun h => rfl) (fun known h week => week) moved
  | addHero id => exact Option.some.inj moved ▸ kept_add kept
  | HeroUse id =>
      obtain rfl := Option.some.inj moved
      exact HeroUse_fst ▸ kept_use kept
  | RoomGameOver heroId pick => exact Option.some.inj moved ▸ kept_RoomGameOver kept saved
  | UserNewWeek moods => exact Option.some.inj moved ▸ kept_UserNewWeek kept
  | UserHeroSkillUse heroId => exact Option.some.inj moved ▸ kept_UserHeroSkillUse kept
  | login pick => exact Option.some.inj moved ▸ kept_login kept saved

theorem kept_fresh : fresh.Kept :=
  ⟨fun _ => ⟨rfl, rfl, rfl⟩, fun _ held => (by cases held), fun _ mem => absurd mem List.not_mem_nil⟩

/-- Along a run whose steps lose no use, the promises hold in every state. -/
theorem run_heroes {es : List HeroEvent} (run : Run (step cfg) (Saved cfg) fresh es s) : s.Bounded :=
  (run.invariant Kept kept_fresh fun _ _ _ kept saved moved => kept_step kept saved moved).bounded

end Kept

/-- All heroes can be had, and each level of a skill has three chances a week. -/
def threeChances : HeroCfg := ⟨fun _ => true, fun _ => some 1, fun _ => some fun _ => some 3, fun moodLv => some (moodLv * 100)⟩

/-- A game and a skill, the week that writes the hero, a login and another game. -/
theorem run_heroes_week : ∃ s, Run (step threeChances) (Saved threeChances) fresh
    [.addHero 104001, .HeroUse 104001, .HeroBoxLimit 104009 7 1 3, .HeroUse 7, .RoomGameOver 7 0,
      .UserHeroSkillUse 7, .UserNewWeek fun _ => some 1, .login 0, .RoomGameOver 7 0] s ∧
      (s.games 7 = 2 ∧ s.granted 7 = 3) ∧ s.Bounded := by
  obtain ⟨s, run, counts⟩ := run_of_guarded_any (step threeChances) (Saved threeChances) fresh
    [.addHero 104001, .HeroUse 104001, .HeroBoxLimit 104009 7 1 3, .HeroUse 7, .RoomGameOver 7 0,
      .UserHeroSkillUse 7, .UserNewWeek fun _ => some 1, .login 0, .RoomGameOver 7 0]
    (fun s => s.games 7 = 2 ∧ s.granted 7 = 3) (by decide)
  exact ⟨s, run, counts, run_heroes run⟩

/-- One game is granted and two are played, since the login brings the use back. -/
theorem heroes_fail : ¬∀ cfg es s, Run (step cfg) anyStep fresh es s → s.Bounded := by
  intro all
  obtain ⟨s, run, h, found, limited, games, granted⟩ := run_of_exec_any (step threeChances) fresh
    [.addHero 104001, .HeroUse 104001, .cmdAddHero 104009 7 1, .HeroUse 7, .RoomGameOver 7 0, .login 0,
      .HeroUse 7, .RoomGameOver 7 0]
    (fun s => ∃ h ∈ s.userhero 7, h.notLimit = false ∧ s.games 7 = 2 ∧ s.granted 7 = 1) (by decide)
  have most := (all _ _ s run).games 7 h found limited
  omega

end UserHeroes

end HuluLandlord.Agent
