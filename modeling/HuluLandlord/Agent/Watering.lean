import HuluLandlord.Agent.Consume
import HuluLandlord.Table
import Mathlib.Order.Bounds.Basic

/-!
The watering of the user's own gourd vine, and the rewards of its levels. What has been granted
is kept in `lvReward`, in memory and in the row of `UserGourd`, which is written only when something was
handed out. The row is one that carries the current version, so that a login reads it as it is.
-/
namespace HuluLandlord.Agent
open Transition Table

/-- A row of `cfg_gourd_vine`, with the first entry of its `cost`. -/
structure WaterRow where
  level : Nat
  cost : Entry
  level_rewards : List Entry
  vip_level_rewards : List Entry
  deriving DecidableEq, Repr

/-- The rows are those of levels 1, 2 and so on, and the first level costs nothing. `pairs` is
the order in which a loop over the table meets them. `minWater` is the value of 103006. -/
structure WaterTable where
  rows : List WaterRow
  pairs : List WaterRow
  minWater : Int
  tables : Tables
  numbered : rows.map WaterRow.level = List.range' 1 rows.length
  increasing : rows.Pairwise fun a b => a.cost.num < b.cost.num
  first : ∃ row ∈ rows, row.level = 1 ∧ row.cost.num = 0
  traversed : pairs.Perm rows

/-- A record of a level says whether its VIP reward has been granted as well. -/
structure SavedGourd where
  gourdLv : Nat
  gourdExp : Int
  lvReward : Nat → Option Bool

/-- The user, what the database has of it, and a ledger: the water that waterings took from the bag, and
the rows whose rewards were handed out, in person or by mail. -/
structure UserGourd where
  gourdLv : Nat
  gourdExp : Int
  vip : Nat
  lvReward : Nat → Option Bool
  bag : Bag
  mails : List (Nat × List Entry)
  saved : SavedGourd
  drawn : Int
  granted : List WaterRow
  vipGranted : List WaterRow
  mailed : List WaterRow

/-- What a loop over the levels collects: the rows whose lists it appends. -/
structure LvRewards where
  lvReward : Nat → Option Bool
  reward : List WaterRow
  rewardVip : List WaterRow

structure WateringRet where
  gourdLv : Nat
  gourdExp : Int
  oldLv : Nat
  deriving DecidableEq, Repr

inductive GourdStep
  | GourdWatering (num now : Int)
  | AddExp (vip : Nat)
  | reload
  | spend (bag : Bag)

namespace LvRewards

def recordLv (c : LvRewards) (sData : WaterRow) : LvRewards :=
  match c.lvReward sData.level with
  | none =>
      { c with
        lvReward := Function.update c.lvReward sData.level (some false)
        reward := c.reward ++ [sData] }
  | some _ => c

def markVip (vip : Nat) (c : LvRewards) (sData : WaterRow) : LvRewards :=
  if c.lvReward sData.level = some false ∧ vip > 0 then
    { c with
      lvReward := Function.update c.lvReward sData.level (some true)
      rewardVip := c.rewardVip ++ [sData] }
  else c

/-- The body of the loop of `getLvReward`. -/
def collect (gourdLv vip : Nat) (c : LvRewards) (sData : WaterRow) : LvRewards :=
  if sData.level ≤ gourdLv then (c.recordLv sData).markVip vip sData else c

/-- The body of the loop of `VipLvRewardAll`: a level without a record is left out. -/
def collectVip (gourdLv vip : Nat) (c : LvRewards) (sData : WaterRow) : LvRewards :=
  if sData.level ≤ gourdLv then c.markVip vip sData else c

def items (c : LvRewards) : List Entry := c.reward.flatMap WaterRow.level_rewards

def vipItems (c : LvRewards) : List Entry := c.rewardVip.flatMap WaterRow.vip_level_rewards

end LvRewards

namespace UserGourd
variable (cfg : WaterTable)

/-- The record is written when the loop has something to hand out. -/
def save (s : UserGourd) (c : LvRewards) : UserGourd :=
  { s with
    lvReward := c.lvReward
    saved := if c.items ≠ [] ∨ c.vipItems ≠ [] then { s.saved with lvReward := c.lvReward } else s.saved }

def getLvReward (s : UserGourd) (now : Int) : UserGourd :=
  let c := cfg.pairs.foldl (LvRewards.collect s.gourdLv s.vip) ⟨s.lvReward, [], []⟩
  { s.save c with
    bag := (s.bag.addList cfg.tables now c.items).addList cfg.tables now c.vipItems
    granted := s.granted ++ c.reward
    vipGranted := s.vipGranted ++ c.rewardVip }

def VipLvRewardAll (s : UserGourd) : UserGourd :=
  let c := cfg.pairs.foldl (LvRewards.collectVip s.gourdLv s.vip) ⟨s.lvReward, [], []⟩
  { s.save c with
    mails := if c.vipItems ≠ [] then s.mails ++ [(5001, c.vipItems)] else s.mails
    mailed := s.mailed ++ c.rewardVip }

/-- The loop of `GourdWatering` over the levels after the user's. -/
def levelUps (s : UserGourd) (now : Int) : List WaterRow → UserGourd
  | [] => s
  | data :: rest =>
      if s.gourdExp ≥ data.cost.num then
        levelUps ({ s with gourdLv := data.level }.getLvReward cfg now) now rest
      else s

def GourdWatering (s : UserGourd) (num now : Int) : UserGourd × RetVal × Option WateringRet :=
  match cfg.rows[s.gourdLv - 1]? with
  | none => (s, .error_3, none)
  | some sData =>
      if num ≤ 0 then (s, .error_3, none)
      else if cfg.rows[s.gourdLv]? = none then (s, .notExists_5, none)
      else if num < cfg.minWater then (s, .noUse_8, none)
      else
        let removed := s.bag.remove cfg.tables.items sData.cost.id num
        if removed.2.1 then
          let poured :=
            { s with
              bag := removed.1
              drawn := s.drawn + (s.bag.num sData.cost.id - removed.1.num sData.cost.id)
              gourdExp := s.gourdExp + num }
          let t := poured.levelUps cfg now (cfg.rows.drop s.gourdLv)
          ({ t with saved := { t.saved with gourdLv := t.gourdLv, gourdExp := t.gourdExp } }, .succeed_1,
            some ⟨t.gourdLv, t.gourdExp, s.gourdLv⟩)
        else ({ s with bag := removed.1 }, .lack_6, none)

/-- The end of `AddExp`, which has computed the level of the user; the event that the level has risen
goes to `VipLvRewardAll`. -/
def AddExp (s : UserGourd) (vip : Nat) : UserGourd :=
  if s.vip < vip then { s with vip }.VipLvRewardAll cfg else { s with vip }

/-- The next login. -/
def reload (s : UserGourd) : UserGourd :=
  { s with
    gourdLv := s.saved.gourdLv
    gourdExp := s.saved.gourdExp
    lvReward := s.saved.lvReward }

/-- With `spend`, whatever else the user gains and spends. -/
def step (s : UserGourd) : GourdStep → Option UserGourd
  | .GourdWatering num now => some (s.GourdWatering cfg num now).1
  | .AddExp vip => some (s.AddExp cfg vip)
  | .reload => some s.reload
  | .spend bag => some { s with bag }

/-- After the first login of an account. -/
def start (vip : Nat) (bag : Bag) : UserGourd :=
  ⟨1, 0, vip, fun _ => none, bag, [], ⟨1, 0, fun _ => none⟩, 0, [], [], []⟩

end UserGourd

namespace WaterTable
variable (cfg : WaterTable)

/-- The levels whose threshold the value has got to. -/
def reached (gourdExp : Int) : Set Nat :=
  {lv | ∃ row ∈ cfg.rows, row.level = lv ∧ row.cost.num ≤ gourdExp}

/-- No level has a reward for VIP users only. -/
def Paying : Prop := ∀ row ∈ cfg.rows, row.level_rewards = [] → row.vip_level_rewards = []

end WaterTable

/-- How often the VIP reward of a level was handed out, directly or by mail. -/
def UserGourd.vipCount (s : UserGourd) (row : WaterRow) : Nat :=
  s.vipGranted.count row + s.mailed.count row

/-- The value is the water that was poured, the level follows from it, and every level reached has been
paid. A reward that is empty is none. -/
structure Watered (cfg : WaterTable) (s : UserGourd) : Prop where
  exp : s.gourdExp = s.drawn
  level : IsGreatest (cfg.reached s.gourdExp) s.gourdLv
  normal : ∀ row ∈ cfg.rows, row.level ≤ s.gourdLv → row.level_rewards ≠ [] → s.granted.count row = 1
  once : ∀ row ∈ cfg.rows, row.vip_level_rewards ≠ [] → s.vipCount row ≤ 1
  vips : 0 < s.vip → ∀ row ∈ cfg.rows, row.level ≤ s.gourdLv → row.vip_level_rewards ≠ [] →
    s.vipCount row = 1

/-- What the records say is what was handed out. -/
structure Booked (cfg : WaterTable) (lvReward : Nat → Option Bool) (paid vipPaid : WaterRow → Nat) :
    Prop where
  normal : ∀ row ∈ cfg.rows, row.level_rewards ≠ [] →
    paid row = if (lvReward row.level).isSome then 1 else 0
  vip : ∀ row ∈ cfg.rows, row.vip_level_rewards ≠ [] →
    vipPaid row = if lvReward row.level = some true then 1 else 0

/-- Two tables of records say the same of every reward that is one. -/
structure Agree (cfg : WaterTable) (a b : Nat → Option Bool) : Prop where
  normal : ∀ row ∈ cfg.rows, row.level_rewards ≠ [] → (a row.level).isSome = (b row.level).isSome
  vip : ∀ row ∈ cfg.rows, row.vip_level_rewards ≠ [] →
    (a row.level = some true ↔ b row.level = some true)

/-- What a loop keeps: the rows it has collected are those it has recorded since `s`. -/
structure Collected (cfg : WaterTable) (s : UserGourd) (c : LvRewards) : Prop where
  booked : Booked cfg c.lvReward (fun row => s.granted.count row + c.reward.count row)
    (fun row => s.vipCount row + c.rewardVip.count row)
  silent : c.items = [] → c.vipItems = [] → Agree cfg s.lvReward c.lvReward
  le : ∀ row ∈ cfg.rows, row.level_rewards ≠ [] → (c.lvReward row.level).isSome →
    row.level ≤ s.gourdLv

section Loops
variable {cfg : WaterTable} {s : UserGourd} {c : LvRewards} {row row' : WaterRow}
  {f g h : Nat → Option Bool} {vip : Nat}

theorem Agree.refl : Agree cfg f f := ⟨fun _ _ _ => rfl, fun _ _ _ => Iff.rfl⟩

theorem Agree.trans (first : Agree cfg f g) (second : Agree cfg g h) : Agree cfg f h where
  normal row mem some_ := (first.normal row mem some_).trans (second.normal row mem some_)
  vip row mem some_ := (first.vip row mem some_).trans (second.vip row mem some_)

theorem WaterTable.level_inj (mem : row ∈ cfg.rows) (mem' : row' ∈ cfg.rows)
    (same : row.level = row'.level) : row = row' :=
  List.inj_on_of_nodup_map (numbered_nodup cfg.numbered) mem mem' same

theorem WaterTable.update_level (mem : row ∈ cfg.rows) (mem' : row' ∈ cfg.rows) (v : Option Bool) :
    Function.update f row'.level v row.level = if row = row' then v else f row.level := by
  split
  · rename_i same
    rw [same, Function.update_self]
  · rename_i other
    exact Function.update_of_ne (fun same => other (cfg.level_inj mem mem' same)) _ _

theorem count_snoc (rows : List WaterRow) :
    (rows ++ [row']).count row = rows.count row + if row = row' then 1 else 0 := by
  rw [List.count_append]
  by_cases same : row = row'
  · rw [same, List.count_singleton_self, if_pos rfl]
  · rw [List.count_eq_zero_of_not_mem (fun mem => same (List.mem_singleton.mp mem)), if_neg same]

theorem collected_recordLv (kept : Collected cfg s c) (mem : row ∈ cfg.rows)
    (le : row.level ≤ s.gourdLv) : Collected cfg s (c.recordLv row) := by
  rw [LvRewards.recordLv]
  split
  · rename_i absent
    refine ⟨⟨fun row' mem' some_ => ?_, fun row' mem' some_ => ?_⟩, fun none_ vipNone => ?_,
      fun row' mem' some_ held => ?_⟩
    · have before := kept.booked.normal row' mem' some_
      simp only [count_snoc, cfg.update_level mem' mem]
      split
      · rename_i same
        subst same
        rw [absent] at before
        simp only [Option.isSome_none, Bool.false_eq_true, if_false] at before
        simp only [Option.isSome_some, if_true]
        omega
      · exact before
    · have before := kept.booked.vip row' mem' some_
      simp only [cfg.update_level mem' mem]
      split
      · rename_i same
        subst same
        rw [absent] at before
        exact before
      · exact before
    · simp only [LvRewards.items, List.flatMap_append, List.append_eq_nil_iff, List.flatMap_singleton]
        at none_
      refine (kept.silent none_.1 vipNone).trans ⟨fun row' mem' some_ => ?_, fun row' mem' some_ => ?_⟩
      · simp only [cfg.update_level mem' mem]
        rw [if_neg]
        rintro rfl
        exact some_ none_.2
      · simp only [cfg.update_level mem' mem]
        split
        · rename_i same
          rw [same, absent]
          exact ⟨fun no => (nomatch no), fun no => (nomatch no)⟩
        · rfl
    · simp only [cfg.update_level mem' mem] at held
      split at held
      · rename_i same
        exact same ▸ le
      · exact kept.le row' mem' some_ held
  · exact kept

theorem collected_markVip (kept : Collected cfg s c) (mem : row ∈ cfg.rows) :
    Collected cfg s (c.markVip vip row) := by
  rw [LvRewards.markVip]
  split
  · rename_i due
    refine ⟨⟨fun row' mem' some_ => ?_, fun row' mem' some_ => ?_⟩, fun none_ vipNone => ?_,
      fun row' mem' some_ held => ?_⟩
    · have before := kept.booked.normal row' mem' some_
      simp only [cfg.update_level mem' mem]
      split
      · rename_i same
        subst same
        rw [due.1] at before
        exact before
      · exact before
    · have before := kept.booked.vip row' mem' some_
      simp only [count_snoc, cfg.update_level mem' mem]
      split
      · rename_i same
        subst same
        rw [due.1] at before
        simp only [Option.some.injEq, Bool.false_eq_true, if_false] at before
        simp only [if_true]
        omega
      · exact before
    · simp only [LvRewards.vipItems, List.flatMap_append, List.append_eq_nil_iff,
        List.flatMap_singleton] at vipNone
      refine (kept.silent none_ vipNone.1).trans ⟨fun row' mem' some_ => ?_, fun row' mem' some_ => ?_⟩
      · simp only [cfg.update_level mem' mem]
        split
        · rename_i same
          rw [same, due.1]
          rfl
        · rfl
      · simp only [cfg.update_level mem' mem]
        rw [if_neg]
        rintro rfl
        exact some_ vipNone.2
    · simp only [cfg.update_level mem' mem] at held
      split at held
      · rename_i same
        exact kept.le row' mem' some_ (by rw [same, due.1]; rfl)
      · exact kept.le row' mem' some_ held
  · exact kept

theorem collected_collect (kept : Collected cfg s c) (mem : row ∈ cfg.rows) :
    Collected cfg s (c.collect s.gourdLv vip row) := by
  rw [LvRewards.collect]
  split
  · rename_i le
    exact collected_markVip (collected_recordLv kept mem le) mem
  · exact kept

theorem collected_collectVip (kept : Collected cfg s c) (mem : row ∈ cfg.rows) :
    Collected cfg s (c.collectVip s.gourdLv vip row) := by
  rw [LvRewards.collectVip]
  split
  · exact collected_markVip kept mem
  · exact kept

/-- Records are only added to. -/
def Grows (f g : Nat → Option Bool) : Prop :=
  ∀ l, ((f l).isSome → (g l).isSome) ∧ (f l = some true → g l = some true)

theorem grows_recordLv : Grows c.lvReward (c.recordLv row).lvReward := by
  rw [LvRewards.recordLv]
  split
  · rename_i absent
    intro l
    by_cases here : l = row.level
    · rw [here, absent]
      exact ⟨fun no => (nomatch no), fun no => (nomatch no)⟩
    · simp only [Function.update_of_ne here]
      exact ⟨id, id⟩
  · exact fun l => ⟨id, id⟩

theorem grows_markVip : Grows c.lvReward (c.markVip vip row).lvReward := by
  rw [LvRewards.markVip]
  split
  · intro l
    by_cases here : l = row.level
    · rw [here]
      simp only [Function.update_self, Option.isSome_some, implies_true, and_self]
    · simp only [Function.update_of_ne here]
      exact ⟨id, id⟩
  · exact fun l => ⟨id, id⟩

theorem grows_collect {lv : Nat} : Grows c.lvReward (c.collect lv vip row).lvReward := by
  rw [LvRewards.collect]
  split
  · exact fun l => ⟨fun held => (grows_markVip l).1 ((grows_recordLv l).1 held),
      fun held => (grows_markVip l).2 ((grows_recordLv l).2 held)⟩
  · exact fun l => ⟨id, id⟩

/-- Marking adds no record. -/
theorem isSome_markVip {l : Nat} :
    ((c.markVip vip row).lvReward l).isSome = (c.lvReward l).isSome := by
  rw [LvRewards.markVip]
  split
  · rename_i due
    by_cases here : l = row.level
    · simp only [here, Function.update_self, due.1, Option.isSome_some]
    · simp only [Function.update_of_ne here]
  · rfl

theorem isSome_collectVip {lv l : Nat} :
    ((c.collectVip lv vip row).lvReward l).isSome = (c.lvReward l).isSome := by
  rw [LvRewards.collectVip]
  split
  · exact isSome_markVip
  · rfl

theorem reward_collectVip {lv : Nat} : (c.collectVip lv vip row).reward = c.reward := by
  rw [LvRewards.collectVip]
  split
  · rw [LvRewards.markVip]
    split
    · rfl
    · rfl
  · rfl

theorem recordLv_isSome : ((c.recordLv row).lvReward row.level).isSome := by
  rw [LvRewards.recordLv]
  split
  · simp only [Function.update_self, Option.isSome_some]
  · rename_i held
    rw [held]
    rfl

theorem markVip_marks (held : (c.lvReward row.level).isSome) (isVip : 0 < vip) :
    (c.markVip vip row).lvReward row.level = some true := by
  rw [LvRewards.markVip]
  split
  · simp only [Function.update_self]
  · rename_i not
    obtain ⟨marked, record⟩ := Option.isSome_iff_exists.mp held
    cases marked with
    | true => exact record
    | false => exact absurd ⟨record, isVip⟩ not

/-- The level has a record, which is marked for a VIP user. -/
def Settled (lv vip : Nat) (row : WaterRow) (lvReward : Nat → Option Bool) : Prop :=
  row.level ≤ lv → (lvReward row.level).isSome ∧ (0 < vip → lvReward row.level = some true)

/-- If the level has a record, it is marked. -/
def Marked (lv : Nat) (row : WaterRow) (lvReward : Nat → Option Bool) : Prop :=
  row.level ≤ lv → (lvReward row.level).isSome → lvReward row.level = some true

theorem Settled.grows {lv : Nat} (settled : Settled lv vip row f) (grows : Grows f g) :
    Settled lv vip row g :=
  fun le => ⟨(grows row.level).1 (settled le).1, fun isVip => (grows row.level).2 ((settled le).2 isVip)⟩

theorem settled_collect {lv : Nat} :
    Settled lv vip row (c.collect lv vip row).lvReward := by
  intro le
  rw [LvRewards.collect, if_pos le]
  exact ⟨(grows_markVip row.level).1 recordLv_isSome, markVip_marks recordLv_isSome⟩

theorem marked_collectVip {lv : Nat} (isVip : 0 < vip) :
    Marked lv row (c.collectVip lv vip row).lvReward := by
  intro le held
  rw [LvRewards.collectVip, if_pos le] at held ⊢
  rw [isSome_markVip] at held
  exact markVip_marks held isVip

theorem Marked.collectVip {lv : Nat} (marked : Marked lv row c.lvReward) :
    Marked lv row (c.collectVip lv vip row').lvReward := by
  intro le held
  rw [LvRewards.collectVip] at held ⊢
  split at held
  · rw [isSome_markVip] at held
    rw [if_pos (by assumption)]
    exact (grows_markVip row.level).2 (marked le held)
  · rw [if_neg (by assumption)]
    exact marked le held

end Loops

namespace UserGourd

/-- What the rewards rest on: the records tell what was handed out, and the database tells the same. -/
structure RewardInv (cfg : WaterTable) (s : UserGourd) : Prop where
  booked : Booked cfg s.lvReward s.granted.count s.vipCount
  agree : Agree cfg s.saved.lvReward s.lvReward
  le : ∀ row ∈ cfg.rows, row.level_rewards ≠ [] → (s.lvReward row.level).isSome →
    row.level ≤ s.gourdLv
  vips : 0 < s.vip → ∀ row ∈ cfg.rows, row.level_rewards ≠ [] → row.vip_level_rewards ≠ [] →
    (s.lvReward row.level).isSome → s.lvReward row.level = some true

/-- Every level up to the user's has been paid. -/
def Held (cfg : WaterTable) (s : UserGourd) : Prop :=
  ∀ row ∈ cfg.rows, row.level ≤ s.gourdLv → (s.lvReward row.level).isSome

section Rewards
variable {cfg : WaterTable} {s : UserGourd} {c : LvRewards} {now : Int}

theorem collected_start (inv : RewardInv cfg s) : Collected cfg s ⟨s.lvReward, [], []⟩ where
  booked := ⟨inv.booked.normal, inv.booked.vip⟩
  silent _ _ := .refl
  le := inv.le

theorem agree_save (inv : RewardInv cfg s) (collected : Collected cfg s c) :
    Agree cfg (s.save c).saved.lvReward c.lvReward := by
  rw [save]
  dsimp only
  split
  · exact .refl
  · rename_i nothing
    rw [not_or, not_not, not_not] at nothing
    exact inv.agree.trans (collected.silent nothing.1 nothing.2)

/-- A state that takes over what a loop has collected. -/
theorem inv_taken {t : UserGourd} (inv : RewardInv cfg s) (collected : Collected cfg s c)
    (marked : 0 < t.vip → ∀ row ∈ cfg.rows, Marked s.gourdLv row c.lvReward)
    (level : t.gourdLv = s.gourdLv)
    (records : t.lvReward = c.lvReward ∧ t.saved = (s.save c).saved)
    (granted : ∀ row, t.granted.count row = s.granted.count row + c.reward.count row)
    (vips : ∀ row, t.vipCount row = s.vipCount row + c.rewardVip.count row) : RewardInv cfg t where
  booked := by
    refine ⟨fun row mem some_ => ?_, fun row mem some_ => ?_⟩
    · rw [granted, records.1]
      exact collected.booked.normal row mem some_
    · rw [vips, records.1]
      exact collected.booked.vip row mem some_
  agree := by
    rw [records.1, records.2]
    exact agree_save inv collected
  le := by
    rw [records.1, level]
    exact collected.le
  vips := by
    rw [records.1]
    exact fun isVip row mem some_ _ held =>
      marked isVip row mem (collected.le row mem some_ held) held

theorem inv_getLvReward (inv : RewardInv cfg s) :
    RewardInv cfg (s.getLvReward cfg now) ∧ Held cfg (s.getLvReward cfg now) := by
  have collected : Collected cfg s
      (cfg.pairs.foldl (LvRewards.collect s.gourdLv s.vip) ⟨s.lvReward, [], []⟩) :=
    List.foldlRecOn cfg.pairs _ (collected_start inv) fun c kept row mem =>
      collected_collect kept (cfg.traversed.mem_iff.mp mem)
  have settled := @foldl_each _ _ (LvRewards.collect s.gourdLv s.vip)
    (fun row c => Settled s.gourdLv s.vip row c.lvReward) (fun c row => settled_collect)
    (fun c row row' held => held.grows grows_collect) cfg.pairs ⟨s.lvReward, [], []⟩
  refine ⟨inv_taken inv collected (fun isVip row mem le _ => ?_) rfl ⟨rfl, rfl⟩
    (fun row => List.count_append) (fun row => ?_), fun row mem le => ?_⟩
  · exact (settled row (cfg.traversed.mem_iff.mpr mem) le).2 isVip
  · have counted := @List.count_append _ _ row s.vipGranted
      (cfg.pairs.foldl (LvRewards.collect s.gourdLv s.vip) ⟨s.lvReward, [], []⟩).rewardVip
    simp only [vipCount, getLvReward, save, counted]
    omega
  · exact (settled row (cfg.traversed.mem_iff.mpr mem) le).1

theorem isSome_VipLvRewardAll (l : Nat) :
    ((s.VipLvRewardAll cfg).lvReward l).isSome = (s.lvReward l).isSome :=
  List.foldlRecOn (motive := fun c => (LvRewards.lvReward c l).isSome = (s.lvReward l).isSome)
    cfg.pairs _ rfl fun c same row _ => isSome_collectVip.trans same

theorem saved_save :
    (s.save c).saved.gourdLv = s.saved.gourdLv ∧ (s.save c).saved.gourdExp = s.saved.gourdExp := by
  rw [save]
  dsimp only
  split
  · exact ⟨rfl, rfl⟩
  · exact ⟨rfl, rfl⟩

/-- Whatever the level of the user was before. -/
theorem inv_VipLvRewardAll {vip : Nat} (inv : RewardInv cfg s) :
    RewardInv cfg ({ s with vip }.VipLvRewardAll cfg) := by
  have collected : Collected cfg s
      (cfg.pairs.foldl (LvRewards.collectVip s.gourdLv vip) ⟨s.lvReward, [], []⟩) :=
    List.foldlRecOn cfg.pairs _ (collected_start inv) fun c kept row mem =>
      collected_collectVip kept (cfg.traversed.mem_iff.mp mem)
  refine inv_taken inv collected (fun isVip row mem => ?_) rfl ⟨rfl, rfl⟩ (fun row => ?_)
    (fun row => ?_)
  · exact @foldl_each _ _ (LvRewards.collectVip s.gourdLv vip)
      (fun row c => Marked s.gourdLv row c.lvReward) (fun c row => marked_collectVip isVip)
      (fun c row row' marked => marked.collectVip) cfg.pairs ⟨s.lvReward, [], []⟩ row
      (cfg.traversed.mem_iff.mpr mem)
  · have none_ : (cfg.pairs.foldl (LvRewards.collectVip s.gourdLv vip) ⟨s.lvReward, [], []⟩).reward = [] :=
      List.foldlRecOn (motive := fun c => LvRewards.reward c = []) cfg.pairs _ rfl
        fun c none_ row _ => reward_collectVip.trans none_
    rw [none_]
    rfl
  · have counted := @List.count_append _ _ row s.mailed
      (cfg.pairs.foldl (LvRewards.collectVip s.gourdLv vip) ⟨s.lvReward, [], []⟩).rewardVip
    simp only [vipCount, VipLvRewardAll, save, counted]
    omega

end Rewards

/-- The user's level is in step with the value, in memory and in the database. -/
structure LevelInv (cfg : WaterTable) (s : UserGourd) : Prop where
  exp : s.gourdExp = s.drawn
  level : IsGreatest (cfg.reached s.gourdExp) s.gourdLv
  saved : s.saved.gourdLv = s.gourdLv ∧ s.saved.gourdExp = s.gourdExp

structure WaterInv (cfg : WaterTable) (s : UserGourd) : Prop extends LevelInv cfg s, RewardInv cfg s where
  held : 2 ≤ s.gourdLv → ∀ row ∈ cfg.rows, row.level ≤ s.gourdLv → row.level_rewards ≠ [] →
    (s.lvReward row.level).isSome
  fresh : s.gourdLv < 2 → ∀ row ∈ cfg.rows, row.level_rewards ≠ [] → s.lvReward row.level = none

section Levels
variable {cfg : WaterTable} {s t : UserGourd} {now : Int} {row : WaterRow} {v : Int} {lv : Nat}

theorem row_level (row_ : cfg.rows[lv]? = some row) : row.level = lv + 1 :=
  numbered_key cfg.numbered row_

theorem one_le_level (mem : row ∈ cfg.rows) : 1 ≤ row.level :=
  (List.mem_range'_1.mp (cfg.numbered ▸ List.mem_map_of_mem mem)).1

/-- The rows of higher levels cost more. -/
theorem cost_lt {row' : WaterRow} (mem : row ∈ cfg.rows) (mem' : row' ∈ cfg.rows)
    (above : row.level < row'.level) : row.cost.num < row'.cost.num := by
  obtain ⟨i, at_⟩ := List.mem_iff_getElem?.mp mem
  obtain ⟨j, at'⟩ := List.mem_iff_getElem?.mp mem'
  rw [row_level at_, row_level at'] at above
  obtain ⟨short, rfl⟩ := List.getElem?_eq_some_iff.mp at_
  obtain ⟨short', rfl⟩ := List.getElem?_eq_some_iff.mp at'
  exact List.pairwise_iff_getElem.mp cfg.increasing i j short short' (by omega)

/-- The level is the last one when the next row is out of reach. -/
theorem isGreatest_reached (mem : lv ∈ cfg.reached v)
    (next : ∀ data, cfg.rows[lv]? = some data → v < data.cost.num) :
    IsGreatest (cfg.reached v) lv := by
  refine ⟨mem, ?_⟩
  rintro m ⟨row, here, rfl, le⟩
  by_contra above
  rw [not_le] at above
  obtain ⟨i, at_⟩ := List.mem_iff_getElem?.mp here
  have level := row_level at_
  obtain ⟨short, -⟩ := List.getElem?_eq_some_iff.mp at_
  have short' : lv < cfg.rows.length := by omega
  have out := next _ (List.getElem?_eq_getElem short')
  obtain last | more := (show lv ≤ i by omega).eq_or_lt
  · subst last
    obtain ⟨_, rfl⟩ := List.getElem?_eq_some_iff.mp at_
    exact absurd le (not_le.mpr out)
  · have higher := cost_lt (List.getElem_mem short') here
      (by rw [row_level (List.getElem?_eq_getElem short')]; omega)
    omega

/-- What the loop over the levels leaves, however far it gets. -/
theorem levelUps_spec {rest : List WaterRow} (ahead : cfg.rows.drop s.gourdLv = rest)
    (inv : RewardInv cfg s) (mem : s.gourdLv ∈ cfg.reached s.gourdExp)
    (spec : t = s.levelUps cfg now rest) :
    RewardInv cfg t ∧ IsGreatest (cfg.reached s.gourdExp) t.gourdLv ∧
      t.gourdExp = s.gourdExp ∧ t.drawn = s.drawn ∧
      (t = s ∨ s.gourdLv < t.gourdLv ∧ Held cfg t) := by
  induction rest generalizing s with
  | nil =>
      subst spec
      refine ⟨inv, isGreatest_reached mem fun data row => ?_, rfl, rfl, .inl rfl⟩
      rw [List.getElem?_eq_none (List.drop_eq_nil_iff.mp ahead)] at row
      cases row
  | cons data rest ih =>
      have here : cfg.rows[s.gourdLv]? = some data := by
        rw [← List.head?_drop, ahead]
        rfl
      have level := row_level here
      rw [levelUps] at spec
      split at spec
      · rename_i past
        have risen : RewardInv cfg { s with gourdLv := data.level } := by
          refine ⟨inv.booked, inv.agree, fun row mem some_ held => ?_, inv.vips⟩
          exact (inv.le row mem some_ held).trans (by simp only [level]; omega)
        have paid := @inv_getLvReward cfg _ now risen
        have further := @ih ({ s with gourdLv := data.level }.getLvReward cfg now) (by
            change cfg.rows.drop data.level = rest
            rw [level, ← List.tail_drop, ahead]
            rfl) paid.1
          ⟨data, List.mem_of_getElem? here, rfl, past⟩ spec
        refine ⟨further.1, further.2.1, further.2.2.1, further.2.2.2.1, .inr ?_⟩
        obtain same | ⟨higher, held⟩ := further.2.2.2.2
        · rw [same]
          refine ⟨?_, paid.2⟩
          change s.gourdLv < data.level
          omega
        · refine ⟨lt_of_le_of_lt ?_ higher, held⟩
          change s.gourdLv ≤ data.level
          omega
      · rename_i short
        subst spec
        refine ⟨inv, isGreatest_reached mem fun data' row => ?_, rfl, rfl, .inl rfl⟩
        obtain rfl := Option.some.inj (here.symm.trans row)
        exact not_le.mp short

theorem reached_mono {v' : Int} (le : v ≤ v') (mem : lv ∈ cfg.reached v) : lv ∈ cfg.reached v' := by
  obtain ⟨row, here, level, cost⟩ := mem
  exact ⟨row, here, level, cost.trans le⟩

/-- The value after a watering that took water, and what the loop makes of it. -/
theorem inv_poured {bag : Bag} {num taken : Int} (inv : WaterInv cfg s) (positive : 0 < num)
    (exactly : taken = num)
    (spec : t = { s with bag, drawn := s.drawn + taken, gourdExp := s.gourdExp + num }.levelUps cfg now
      (cfg.rows.drop s.gourdLv)) :
    WaterInv cfg { t with saved := { t.saved with gourdLv := t.gourdLv, gourdExp := t.gourdExp } } := by
  have poured : RewardInv cfg
      { s with bag, drawn := s.drawn + taken, gourdExp := s.gourdExp + num } :=
    ⟨inv.booked, inv.agree, inv.le, inv.vips⟩
  have more : s.gourdExp ≤ s.gourdExp + num := by omega
  obtain ⟨rewards, level, exp, drawn, ups⟩ :=
    levelUps_spec rfl poured (reached_mono more inv.level.1) spec
  refine ⟨⟨?_, ?_, rfl, rfl⟩, ⟨rewards.booked, rewards.agree, rewards.le, rewards.vips⟩, ?_, ?_⟩
  · change t.gourdExp = t.drawn
    rw [exp, drawn, exactly, ← inv.exp]
  · exact exp ▸ level
  · intro high row mem le some_
    obtain rfl | ⟨_, held⟩ := ups
    · exact inv.held high row mem le some_
    · exact held row mem le
  · intro low row mem some_
    obtain rfl | ⟨higher, _⟩ := ups
    · exact inv.fresh low row mem some_
    · obtain ⟨row, here, level, _⟩ := inv.level.1
      have counted := one_le_level here
      have low : t.gourdLv < 2 := low
      have higher : s.gourdLv < t.gourdLv := higher
      omega

/-- What else takes from the bag changes nothing of this. -/
theorem WaterInv.spend (inv : WaterInv cfg s) (bag : Bag) : WaterInv cfg { s with bag } :=
  ⟨⟨inv.exp, inv.level, inv.saved⟩, ⟨inv.booked, inv.agree, inv.le, inv.vips⟩, inv.held, inv.fresh⟩

theorem inv_GourdWatering (inv : WaterInv cfg s) {num : Int} :
    WaterInv cfg (s.GourdWatering cfg num now).1 := by
  rw [GourdWatering]
  split
  · exact inv
  · rename_i sData row
    split_ifs with negative last short
    · exact inv
    · exact inv
    · exact inv
    · dsimp only
      split
      · rename_i removed
        refine inv_poured inv (not_le.mp negative) ?_ rfl
        have took := Bag.num_removed cfg.tables.items (Prod.ext rfl (Prod.ext removed rfl))
          (le_of_lt (not_le.mp negative)) sData.cost.id
        rw [took, if_pos rfl]
        omega
      · exact inv.spend _

theorem inv_AddExp (inv : WaterInv cfg s) {vip : Nat} : WaterInv cfg (s.AddExp cfg vip) := by
  rw [AddExp]
  split
  · have rewards := @inv_VipLvRewardAll cfg s vip inv.toRewardInv
    have records (l : Nat) := @isSome_VipLvRewardAll cfg { s with vip } l
    have kept := @saved_save s (cfg.pairs.foldl (LvRewards.collectVip s.gourdLv vip)
      ⟨s.lvReward, [], []⟩)
    refine ⟨⟨inv.exp, inv.level, kept.1.trans inv.saved.1, kept.2.trans inv.saved.2⟩, rewards,
      fun high row mem le some_ => ?_, fun low row mem some_ => ?_⟩
    · rw [records]
      exact inv.held high row mem le some_
    · have none_ := inv.fresh low row mem some_
      have same := records row.level
      rw [none_] at same
      exact Option.not_isSome_iff_eq_none.mp (Bool.not_eq_true _ ▸ same)
  · rename_i same
    refine ⟨⟨inv.exp, inv.level, inv.saved⟩, ⟨inv.booked, inv.agree, inv.le, fun isVip => ?_⟩, inv.held,
      inv.fresh⟩
    exact inv.vips (lt_of_lt_of_le isVip (not_lt.mp same))

/-- A login finds what was in memory, as far as there is something to hand out. -/
theorem inv_reload (inv : WaterInv cfg s) : WaterInv cfg s.reload := by
  have same : s.reload = { s with lvReward := s.saved.lvReward } := by
    rw [reload, inv.saved.1, inv.saved.2]
  have normal := inv.agree.normal
  have vip := inv.agree.vip
  rw [same]
  refine ⟨⟨inv.exp, inv.level, inv.saved⟩, ⟨⟨?_, ?_⟩, .refl, ?_, ?_⟩, ?_, ?_⟩
  · intro row mem some_
    rw [inv.booked.normal row mem some_]
    simp only [normal row mem some_]
  · intro row mem some_
    refine (inv.booked.vip row mem some_).trans ?_
    simp only [vip row mem some_]
  · intro row mem some_ held
    exact inv.le row mem some_ (normal row mem some_ ▸ held)
  · intro isVip row mem some_ vipSome held
    exact (vip row mem vipSome).mpr
      (inv.vips isVip row mem some_ vipSome (normal row mem some_ ▸ held))
  · intro high row mem le some_
    exact normal row mem some_ ▸ inv.held high row mem le some_
  · intro low row mem some_
    have none_ := inv.fresh low row mem some_
    have same := normal row mem some_
    rw [none_] at same
    exact Option.not_isSome_iff_eq_none.mp (Bool.not_eq_true _ ▸ same)

theorem inv_step {e : GourdStep} (inv : WaterInv cfg s) (moved : s.step cfg e = some t) :
    WaterInv cfg t := by
  cases e with
  | GourdWatering num now =>
      obtain rfl := Option.some.inj moved
      exact inv_GourdWatering inv
  | AddExp vip =>
      obtain rfl := Option.some.inj moved
      exact inv_AddExp inv
  | reload =>
      obtain rfl := Option.some.inj moved
      exact inv_reload inv
  | spend bag =>
      obtain rfl := Option.some.inj moved
      exact inv.spend bag

theorem inv_start (cfg : WaterTable) (vip : Nat) (bag : Bag) : WaterInv cfg (start vip bag) := by
  refine ⟨⟨rfl, isGreatest_reached ?_ fun data row => ?_, rfl, rfl⟩,
    ⟨⟨fun _ _ _ => rfl, fun _ _ _ => rfl⟩, .refl, fun _ _ _ held => ?_, fun _ _ _ _ _ held => ?_⟩,
    fun high => ?_, fun _ _ _ _ => rfl⟩
  · obtain ⟨first, here, level, free⟩ := cfg.first
    exact ⟨first, here, level, free.le⟩
  · obtain ⟨first, here, level, free⟩ := cfg.first
    have higher := cost_lt here (List.mem_of_getElem? row) (by rw [level, row_level row]; exact one_lt_two)
    rwa [free] at higher
  · cases held
  · cases held
  · exact absurd high (Nat.not_succ_le_self 1)

/-- The user has got past the first level. -/
theorem second_iff (inv : LevelInv cfg s) : 2 ∈ cfg.reached s.gourdExp ↔ 2 ≤ s.gourdLv := by
  constructor
  · exact fun mem => inv.level.2 mem
  · intro high
    obtain ⟨row, here, level, cost⟩ := inv.level.1
    obtain ⟨i, at_⟩ := List.mem_iff_getElem?.mp here
    have above := row_level at_
    have short := (List.getElem?_eq_some_iff.mp at_).1
    have second := List.getElem?_eq_getElem (show 1 < cfg.rows.length by omega)
    have named := row_level second
    refine ⟨_, List.mem_of_getElem? second, named, ?_⟩
    obtain two | more := high.eq_or_lt
    · rw [cfg.level_inj (List.mem_of_getElem? second) here (by rw [named, level, ← two])]
      exact cost
    · have cheaper := cost_lt (List.mem_of_getElem? second) here (by rw [named, level]; exact more)
      omega

theorem watered_iff (inv : WaterInv cfg s) (paying : cfg.Paying) :
    Watered cfg s ↔ 2 ∈ cfg.reached s.drawn ∨
      ∀ row ∈ cfg.rows, row.level = 1 → row.level_rewards = [] := by
  rw [← inv.exp, second_iff inv.toLevelInv]
  constructor
  · intro watered
    by_contra neither
    obtain ⟨still, owed⟩ := not_or.mp neither
    push Not at owed
    obtain ⟨row, mem, one, some_⟩ := owed
    have low : row.level ≤ s.gourdLv := by
      obtain ⟨own, here, level, -⟩ := inv.level.1
      rw [one, ← level]
      exact one_le_level here
    have counted := watered.normal row mem low some_
    rw [inv.booked.normal row mem some_, inv.fresh (not_le.mp still) row mem some_] at counted
    cases counted
  · intro enough
    have held : ∀ row ∈ cfg.rows, row.level ≤ s.gourdLv → row.level_rewards ≠ [] →
        (s.lvReward row.level).isSome := by
      intro row mem le some_
      obtain high | none_ := enough
      · exact inv.held high row mem le some_
      · by_cases high : 2 ≤ s.gourdLv
        · exact inv.held high row mem le some_
        · have one := one_le_level mem
          exact absurd (none_ row mem (by omega)) some_
    refine ⟨inv.exp, inv.level, fun row mem le some_ => ?_, fun row mem some_ => ?_,
      fun isVip row mem le some_ => ?_⟩
    · rw [inv.booked.normal row mem some_, if_pos (held row mem le some_)]
    · rw [inv.booked.vip row mem some_]
      split
      · exact le_rfl
      · exact zero_le_one
    · have normal : row.level_rewards ≠ [] := fun none_ => some_ (paying row mem none_)
      rw [inv.booked.vip row mem some_, if_pos (inv.vips isVip row mem normal some_
        (held row mem le normal))]

end Levels

section Runs
variable {cfg : WaterTable} {vip : Nat} {bag : Bag} {s : UserGourd} {es : List GourdStep}

/-- The rewards of the first level wait for the second one; apart from that every level reached has been paid
at any time, in a table without a level that has a reward for VIP users only. -/
theorem run_levels (run : Run (step cfg) anyStep (start vip bag) es s) (paying : cfg.Paying) :
    Watered cfg s ↔ 2 ∈ cfg.reached s.drawn ∨
      ∀ row ∈ cfg.rows, row.level = 1 → row.level_rewards = [] :=
  watered_iff (run.invariant (WaterInv cfg) (inv_start cfg vip bag) fun _ _ _ inv _ moved =>
    inv_step inv moved) paying

/-- The first three levels of the table, with the normal reward of the third. -/
def vineRows (third : List Entry) : List WaterRow :=
  [⟨1, ⟨115001, 0⟩, [⟨10002, 10000⟩, ⟨115001, 300⟩], [⟨10002, 5000⟩, ⟨205003, 1⟩]⟩,
    ⟨2, ⟨115001, 300⟩, [⟨10002, 11500⟩, ⟨205001, 2⟩], [⟨10002, 5750⟩, ⟨115003, 1⟩]⟩,
    ⟨3, ⟨115001, 900⟩, third, [⟨10002, 6500⟩, ⟨205003, 2⟩]⟩]

def vineTable (third : List Entry) : WaterTable where
  rows := vineRows third
  pairs := vineRows third
  minWater := 50
  tables := runeTables
  numbered := rfl
  increasing := by simp [vineRows]
  first := ⟨_, List.mem_cons_self, rfl, rfl⟩
  traversed := .refl _

def vineThird : List Entry := [⟨10002, 13000⟩, ⟨205001, 2⟩]

theorem run_levels_risen : ∃ s, Run (step (vineTable vineThird)) anyStep (start 0 (bagOf 115001 350))
    [.GourdWatering 300 0, .AddExp 1, .reload] s ∧ s.gourdLv = 2 ∧ s.mails.length = 1 ∧
    Watered (vineTable vineThird) s := by
  obtain ⟨s, run, level, mail, drawn⟩ := run_of_exec_any (step (vineTable vineThird))
    (start 0 (bagOf 115001 350)) [.GourdWatering 300 0, .AddExp 1, .reload]
    (fun s => s.gourdLv = 2 ∧ s.mails.length = 1 ∧ s.drawn = 300) (by decide)
  have paying : (vineTable vineThird).Paying := by
    unfold WaterTable.Paying
    decide
  refine ⟨s, run, level, mail, (run_levels run paying).mpr (.inl ?_)⟩
  rw [drawn]
  exact ⟨_, List.mem_cons_of_mem _ List.mem_cons_self, rfl, le_rfl⟩

/-- The first level is reached, and nothing has been granted; and a record that had nothing to grant is
lost at the login, so that the mail leaves its level out. -/
theorem levels_fail :
    (¬∀ vip bag es s, Run (step (vineTable vineThird)) anyStep (start vip bag) es s →
      Watered (vineTable vineThird) s) ∧
    ¬∀ vip bag es s, Run (step (vineTable [])) anyStep (start vip bag) es s →
      2 ∈ (vineTable []).reached s.drawn → Watered (vineTable []) s := by
  constructor
  · intro all
    have watered := all 0 (bagOf 115001 0) [] _ .refl
    have counted := watered.normal _ List.mem_cons_self le_rfl (List.cons_ne_nil _ _)
    cases counted
  · intro all
    obtain ⟨s, run, level, vip, drawn, unpaid⟩ := run_of_exec_any (step (vineTable []))
      (start 0 (bagOf 115001 900)) [.GourdWatering 900 0, .reload, .AddExp 1]
      (fun s => s.gourdLv = 3 ∧ s.vip = 1 ∧ s.drawn = 900 ∧
        s.vipCount ⟨3, ⟨115001, 900⟩, [], [⟨10002, 6500⟩, ⟨205003, 2⟩]⟩ = 0) (by decide)
    have second : 2 ∈ (vineTable []).reached s.drawn :=
      ⟨_, List.mem_cons_of_mem _ List.mem_cons_self, rfl, drawn ▸ by decide⟩
    have paid := (all _ _ _ s run second).vips (vip ▸ one_pos)
      ⟨3, ⟨115001, 900⟩, [], [⟨10002, 6500⟩, ⟨205003, 2⟩]⟩
      (List.mem_cons_of_mem _ (List.mem_cons_of_mem _ List.mem_cons_self)) level.ge
      (List.cons_ne_nil _ _)
    exact absurd (unpaid.symm.trans paid) Nat.zero_ne_one

end Runs

end UserGourd

end HuluLandlord.Agent
