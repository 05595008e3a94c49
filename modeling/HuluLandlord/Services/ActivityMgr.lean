import HuluLandlord.Transition
import Mathlib.Data.Finmap

/-!
The activities, whose records are in memory and in a row of the database. A command writes a
configuration to the row. Once a second a tick reads the row, merges the configurations into the records,
counts the rounds that have opened, and writes and announces the records when something has changed.
-/
namespace HuluLandlord.Services
open Transition

/-- The value of a field. Two tables are the same only if they are one object, which what is read from
the database and what is in memory never are. -/
inductive FieldVal
  | scalar (value : String)
  | table (content : String)
  deriving DecidableEq, Repr

def FieldVal.isTable : FieldVal → Bool
  | .scalar _ => false
  | .table _ => true

/-- What a command gives for an activity. `fields` are those that are not named here. -/
structure CfgArgs where
  open_ : Option Bool
  startDt : Option Int
  endDt : Option Int
  openTimes : Option Int
  fields : Finmap fun _ : String => FieldVal

/-- A configuration as it is stored. -/
structure CfgData where
  open_ : Bool
  startDt : Int
  endDt : Int
  openTimes : Option Int
  fields : Finmap fun _ : String => FieldVal
  ordered : startDt ≤ endDt
  deriving DecidableEq

/-- The record of an activity, under its id. -/
structure ActRecord where
  open_ : Option Bool
  startDt : Option Int
  endDt : Option Int
  openTimes : Option Int
  fields : String → Option FieldVal

/-- A row of `cfg_activity`. -/
structure ActivityRow where
  id : Nat
  fields : String → Option FieldVal

structure ActivityTable where
  activity : List ActivityRow
  keys : (activity.map ActivityRow.id).Nodup

abbrev ActDatas := AList fun _ : Nat => ActRecord

/-- The row of the database. -/
structure ActivityDoc where
  actData : ActDatas
  actConfigData : Nat → Option CfgData

/-- A tick as it is observed: the configurations that it read, the activities that are open after it, and
whether it wrote and announced anything. -/
structure ActTick where
  now : Int
  config : Nat → Option CfgData
  opened : Nat → Bool
  wrote : Bool
  published : Bool

/-- The ticks are those there have been, the last one first. -/
structure ActivityMgr where
  doc : Option ActivityDoc
  ActData : Option ActDatas
  ticks : List ActTick

inductive MgrEvent
  | SetCfgData (datas : Option (List (Nat × CfgArgs)))
  | update (now : Int)

namespace ActRecord

def fresh (sData : ActivityRow) : ActRecord := ⟨none, none, none, none, sData.fields⟩

/-- The open flag is set, and it is time. -/
def openAt (actData : ActRecord) (now : Int) : Bool :=
  match actData.startDt, actData.endDt with
  | some startDt, some endDt => actData.open_ = some true ∧ now ≥ startDt ∧ now < endDt
  | _, _ => false

def differs (actData : ActRecord) (cfgData : CfgData) : Bool :=
  actData.open_ ≠ some cfgData.open_ ∨ actData.startDt ≠ some cfgData.startDt ∨
  actData.endDt ≠ some cfgData.endDt ∨ (∃ n ∈ cfgData.openTimes, actData.openTimes ≠ some n) ∨
  ∃ key ∈ cfgData.fields.keys, actData.fields key ≠ cfgData.fields.lookup key ∨
    (cfgData.fields.lookup key).any FieldVal.isTable

def merge (actData : ActRecord) (cfgData : CfgData) : ActRecord where
  open_ := some cfgData.open_
  startDt := some cfgData.startDt
  endDt := some cfgData.endDt
  openTimes := cfgData.openTimes.or actData.openTimes
  fields := fun key => (cfgData.fields.lookup key).or (actData.fields key)

/-- The fields that are still missing. -/
def complete (actData : ActRecord) : ActRecord :=
  if actData.startDt = none ∨ actData.endDt = none then
    { actData with open_ := some (actData.open_.getD false), startDt := some 0, endDt := some 0 }
  else { actData with open_ := some (actData.open_.getD false) }

def incomplete (actData : ActRecord) : Bool :=
  actData.open_ = none ∨ actData.startDt = none ∨ actData.endDt = none

def mergeOpt (actData : ActRecord) (cfgData : Option CfgData) : ActRecord := cfgData.elim actData actData.merge

/-- The body of the loop over the activities: whether the old record and the new one are open is
asked at the same time. -/
def refresh (actData : ActRecord) (cfgData : Option CfgData) (now : Int) : ActRecord × Bool :=
  let actData := { actData with openTimes := some (actData.openTimes.getD 0) }
  let openValOld := actData.openAt now
  let merged := actData.mergeOpt cfgData
  let isUpdate := cfgData.any actData.differs || merged.incomplete
  let actData := merged.complete
  if actData.openAt now ∧ ¬openValOld then
    ({ actData with openTimes := some (actData.openTimes.getD 0 + 1) }, true)
  else (actData, isUpdate)

end ActRecord

namespace ActivityMgr
variable (cfg : ActivityTable)

/-- The checks of a command, on one activity. -/
def checkCfg (key : Nat) (data : CfgArgs) : Except String CfgData :=
  match data.open_ with
  | none => .error "未设置活动开关"
  | some open_ =>
      match data.startDt, data.endDt with
      | some startDt, some endDt =>
          if ordered : startDt ≤ endDt then
            if cfg.activity.any fun sData => sData.id = key then
              .ok ⟨open_, startDt, endDt, data.openTimes, data.fields, ordered⟩
            else .error ("未找到配置为 " ++ toString key ++ " 的活动")
          else .error "活动时间设置错误"
      | _, _ => .error "活动时间设置错误"

/-- All the activities of a command are configured, or none. A row that is not there is not written to. -/
def setCfgData (s : ActivityMgr) (datas : Option (List (Nat × CfgArgs))) :
    ActivityMgr × Bool × Option String :=
  match datas with
  | none => (s, false, some "设置活动出错")
  | some datas =>
      match datas.mapM fun p => (checkCfg cfg p.1 p.2).map fun data => (p.1, data) with
      | .error msg => (s, false, some msg)
      | .ok updateData =>
          ({ s with
            doc := s.doc.map fun doc =>
              { doc with
                actConfigData := updateData.foldl (fun config p => Function.update config p.1 (some p.2))
                  doc.actConfigData } }, true, none)

def visit (config : Nat → Option CfgData) (now : Int) (acc : ActDatas × Bool) (sData : ActivityRow) :
    ActDatas × Bool :=
  let actData := ((acc.1.lookup sData.id).getD (.fresh sData)).refresh (config sData.id) now
  (acc.1.insert sData.id actData.1, acc.2 || (acc.1.lookup sData.id).isNone || actData.2)

/-- The records whose activity is no longer there are dropped. -/
def dropGone (m : ActDatas) : ActDatas :=
  ⟨m.entries.filter fun e => cfg.activity.any fun sData => sData.id = e.1,
    m.nodupKeys.sublist List.filter_sublist⟩

def getData (s : ActivityMgr) : ActivityDoc := s.doc.getD ⟨∅, fun _ => none⟩

/-- The records that a tick starts from: the first one reads them. -/
def loaded (s : ActivityMgr) : ActDatas := s.ActData.getD s.getData.actData

def update (s : ActivityMgr) (now : Int) : ActivityMgr :=
  let doc := s.getData
  let visited := cfg.activity.foldl (visit doc.actConfigData now) (s.loaded, false)
  let kept := dropGone cfg visited.1
  let isUpdate := visited.2 || visited.1.keys.any fun id => ¬cfg.activity.any fun sData => sData.id = id
  { doc := some { doc with
      actData := if isUpdate then kept else doc.actData }
    ActData := some kept
    ticks := ⟨now, doc.actConfigData, fun id => (kept.lookup id).any fun actData => actData.openAt now,
      s.ActData.isNone || isUpdate, isUpdate⟩ :: s.ticks }

def step (s : ActivityMgr) : MgrEvent → Option ActivityMgr
  | .SetCfgData datas => some (s.setCfgData cfg datas).1
  | .update now => if ∀ last ∈ s.ticks.head?, last.now < now then some (s.update cfg now) else none

def start : ActivityMgr := ⟨none, none, []⟩

def openTimes (s : ActivityMgr) (id : Nat) : Int :=
  ((s.ActData.bind fun m => m.lookup id).bind ActRecord.openTimes).getD 0

def config (s : ActivityMgr) (id : Nat) : Option CfgData := s.getData.actConfigData id

def record (s : ActivityMgr) (sData : ActivityRow) : ActRecord :=
  (s.loaded.lookup sData.id).getD (.fresh sData)

end ActivityMgr

def wasOpen (id : Nat) (ticks : List ActTick) : Bool := ticks.head?.any fun last => last.opened id

/-- The ticks at which an activity is open while it was not at the tick before. -/
def rounds (id : Nat) : List ActTick → Int
  | [] => 0
  | tick :: before => rounds id before + if tick.opened id ∧ ¬wasOpen id before then 1 else 0

/-- Neither a configuration nor whether an activity is open has changed since the tick before. -/
def ActTick.Unchanged (cfg : ActivityTable) (tick before : ActTick) : Prop :=
  ∀ sData ∈ cfg.activity, tick.config sData.id = before.config sData.id ∧
    tick.opened sData.id = before.opened sData.id

instance ActTick.decidableUnchanged (cfg : ActivityTable) (tick before : ActTick) :
    Decidable (tick.Unchanged cfg before) := inferInstanceAs (Decidable (∀ _ ∈ _, _))

def CfgData.NoTables (data : CfgData) : Prop :=
  ∀ key ∈ data.fields.keys, (data.fields.lookup key).any FieldVal.isTable = false

instance CfgData.decidableNoTables (data : CfgData) : Decidable data.NoTables :=
  inferInstanceAs (Decidable (∀ _ ∈ _, _))

namespace ActivityMgr
variable (cfg : ActivityTable)

structure RoundsCounted (s : ActivityMgr) : Prop where
  counted : ∀ id, s.openTimes id = rounds id s.ticks
  quiet : s.ticks.IsChain fun tick before => tick.Unchanged cfg before →
    tick.wrote = false ∧ tick.published = false

/-- The configuration does not give another number of rounds, and where the activity is going to be open,
the old record is open now if it was at the last tick. -/
def RowSteady (s : ActivityMgr) (now : Int) (sData : ActivityRow) : Prop :=
  (∀ data ∈ s.config sData.id, ∀ n ∈ data.openTimes, (s.record sData).openTimes.getD 0 = n) ∧
  (((s.record sData).mergeOpt (s.config sData.id)).openAt now = true →
    (s.record sData).openAt now = wasOpen sData.id s.ticks)

instance decidableRowSteady (s : ActivityMgr) (now : Int) (sData : ActivityRow) :
    Decidable (s.RowSteady now sData) :=
  inferInstanceAs (Decidable ((∀ _ ∈ _, ∀ _ ∈ _, _ = _) ∧ (_ = true → _ = _)))

/-- The next tick has nothing new. -/
def Idle (s : ActivityMgr) (now : Int) : Prop :=
  ∃ last ∈ s.ticks.head?, ∀ sData ∈ cfg.activity, s.config sData.id = last.config sData.id ∧
    (s.record sData).openAt now = last.opened sData.id

instance decidableIdle (s : ActivityMgr) (now : Int) : Decidable (s.Idle cfg now) :=
  inferInstanceAs (Decidable (∃ _ ∈ _, _))

/-- Where a tick has nothing new, no configuration has a field that is a table. -/
def Steady (s : ActivityMgr) : MgrEvent → Prop
  | .SetCfgData _ => True
  | .update now => (∀ sData ∈ cfg.activity, s.RowSteady now sData) ∧
      (s.Idle cfg now → ∀ sData ∈ cfg.activity, ∀ data ∈ s.config sData.id, data.NoTables)

instance decidableSteady (s : ActivityMgr) : (e : MgrEvent) → Decidable (s.Steady cfg e)
  | .SetCfgData _ => inferInstanceAs (Decidable True)
  | .update _ => inferInstanceAs (Decidable ((∀ _ ∈ _, s.RowSteady _ _) ∧ (s.Idle cfg _ → _)))

end ActivityMgr

namespace ActRecord
variable {actData : ActRecord} {cfgData : Option CfgData} {data : CfgData} {now : Int}

/-- The record is complete and has what is configured, but for the number of rounds. -/
structure Settled (actData : ActRecord) (cfgData : Option CfgData) : Prop where
  whole : actData.incomplete = false
  open_ : ∀ data ∈ cfgData, actData.open_ = some data.open_
  startDt : ∀ data ∈ cfgData, actData.startDt = some data.startDt
  endDt : ∀ data ∈ cfgData, actData.endDt = some data.endDt
  fields : ∀ data ∈ cfgData, ∀ key ∈ data.fields.keys, actData.fields key = data.fields.lookup key

theorem openAt_congr {a b : ActRecord} (open_ : a.open_ = b.open_) (startDt : a.startDt = b.startDt)
    (endDt : a.endDt = b.endDt) : a.openAt now = b.openAt now := by
  simp only [openAt, open_, startDt, endDt]

theorem openAt_complete : actData.complete.openAt now = actData.openAt now := by
  rw [complete]
  split
  · rename_i missing
    have never : ¬(now ≥ 0 ∧ now < 0) := fun both => absurd both.2 (not_lt.mpr both.1)
    obtain start | ends := missing
    · simp only [openAt, start, never, and_false, decide_false]
    · cases here : actData.startDt with
      | none | some _ => simp only [openAt, here, ends, never, and_false, decide_false]
  · cases here : actData.open_ with
    | none | some _ => simp [openAt, here]

theorem incomplete_complete : actData.complete.incomplete = false := by
  rw [complete]
  split
  · simp [incomplete]
  · rename_i dates
    rw [not_or] at dates
    simp [incomplete, dates.1, dates.2]

theorem complete_merge : (actData.merge data).complete = actData.merge data := rfl

theorem openAt_refresh : (actData.refresh cfgData now).1.openAt now = (actData.mergeOpt cfgData).openAt now := by
  have merged : ({ actData with openTimes := some (actData.openTimes.getD 0) }.mergeOpt cfgData).complete.openAt now =
      (actData.mergeOpt cfgData).openAt now := by
    rw [openAt_complete]
    cases cfgData with
    | none | some _ => rfl
  rw [refresh]
  split
  · exact merged
  · exact merged

/-- A round is counted when the new record is open and the old one is not, at the time of the tick. -/
theorem openTimes_refresh : (actData.refresh cfgData now).1.openTimes =
    some ((cfgData.bind CfgData.openTimes).getD (actData.openTimes.getD 0) +
      if (actData.mergeOpt cfgData).openAt now ∧ ¬actData.openAt now then 1 else 0) := by
  let old : ActRecord := { actData with openTimes := some (actData.openTimes.getD 0) }
  have times : (old.mergeOpt cfgData).complete.openTimes =
      some ((cfgData.bind CfgData.openTimes).getD (actData.openTimes.getD 0)) := by
    cases cfgData with
    | none =>
        rw [mergeOpt, Option.elim_none, complete]
        split
        · rfl
        · rfl
    | some data =>
        rw [mergeOpt, Option.elim_some, complete_merge]
        change data.openTimes.or (some _) = some (data.openTimes.getD _)
        cases data.openTimes with
        | none | some n => rfl
  have same : ((old.mergeOpt cfgData).complete.openAt now = true ∧ ¬old.openAt now = true) ↔
      ((actData.mergeOpt cfgData).openAt now = true ∧ ¬actData.openAt now = true) := by
    rw [openAt_complete]
    cases cfgData with
    | none | some _ => exact Iff.rfl
  rw [refresh]
  by_cases opens : (actData.mergeOpt cfgData).openAt now = true ∧ ¬actData.openAt now = true
  · rw [if_pos (same.mpr opens), if_pos opens, times]
    rfl
  · rw [if_neg (mt same.mp opens), if_neg opens, times, add_zero]

theorem settled_refresh : (actData.refresh cfgData now).1.Settled cfgData := by
  have settled (old : ActRecord) : (old.mergeOpt cfgData).complete.Settled cfgData := by
    cases cfgData with
    | none => exact ⟨incomplete_complete, nofun, nofun, nofun, nofun⟩
    | some data =>
        rw [mergeOpt, Option.elim_some, complete_merge]
        constructor
        · rfl
        · rintro _ ⟨⟩
          rfl
        · rintro _ ⟨⟩
          rfl
        · rintro _ ⟨⟩
          rfl
        · rintro _ ⟨⟩ key mem
          obtain ⟨value, here⟩ := Finmap.mem_iff.mp (Finmap.mem_keys.mp mem)
          change (data.fields.lookup key).or (old.fields key) = data.fields.lookup key
          rw [here, Option.some_or]
  have whole := settled { actData with openTimes := some (actData.openTimes.getD 0) }
  rw [refresh]
  split
  · exact ⟨whole.whole, whole.open_, whole.startDt, whole.endDt, whole.fields⟩
  · exact whole

theorem openAt_settled (settled : actData.Settled cfgData) :
    (actData.mergeOpt cfgData).openAt now = actData.openAt now := by
  cases cfgData with
  | none => rfl
  | some data =>
      exact openAt_congr (settled.open_ data rfl).symm (settled.startDt data rfl).symm
        (settled.endDt data rfl).symm

/-- A tick leaves a record alone that has what is configured. -/
theorem refresh_settled (settled : actData.Settled cfgData) (plain : ∀ data ∈ cfgData, data.NoTables)
    (times : ∀ data ∈ cfgData, ∀ n ∈ data.openTimes, actData.openTimes.getD 0 = n) :
    (actData.refresh cfgData now).2 = false := by
  let old : ActRecord := { actData with openTimes := some (actData.openTimes.getD 0) }
  have still : ¬((old.mergeOpt cfgData).complete.openAt now = true ∧ ¬old.openAt now = true) := by
    have kept : (old.mergeOpt cfgData).openAt now = old.openAt now :=
      openAt_settled ⟨settled.whole, settled.open_, settled.startDt, settled.endDt, settled.fields⟩
    rw [openAt_complete, kept]
    exact fun both => both.2 both.1
  rw [refresh, if_neg still]
  cases cfgData with
  | none => exact settled.whole
  | some data =>
      have same : old.differs data = false := by
        refine decide_eq_false ?_
        rintro (other | other | other | ⟨n, there, other⟩ | ⟨key, mem, other | table⟩)
        · exact other (settled.open_ data rfl)
        · exact other (settled.startDt data rfl)
        · exact other (settled.endDt data rfl)
        · exact other (congrArg some (times data rfl n there))
        · exact other (settled.fields data rfl key mem)
        · exact absurd (table.symm.trans (plain data rfl key mem)) Bool.noConfusion
      exact (Bool.or_false _).trans same

end ActRecord

namespace ActivityMgr
section Visits
variable {config : Nat → Option CfgData} {now : Int} {rows : List ActivityRow} {acc : ActDatas × Bool}
  {sData : ActivityRow} {id : Nat}

theorem lookup_visit_ne (other : id ∉ rows.map ActivityRow.id) :
    (rows.foldl (visit config now) acc).1.lookup id = acc.1.lookup id := by
  induction rows generalizing acc with
  | nil => rfl
  | cons head rows ih =>
      rw [List.map_cons, List.mem_cons, not_or] at other
      rw [List.foldl_cons, ih other.2]
      exact AList.lookup_insert_ne other.1

theorem lookup_visit (keys : (rows.map ActivityRow.id).Nodup) (mem : sData ∈ rows) :
    (rows.foldl (visit config now) acc).1.lookup sData.id =
      some (((acc.1.lookup sData.id).getD (.fresh sData)).refresh (config sData.id) now).1 := by
  induction rows generalizing acc with
  | nil => exact absurd mem List.not_mem_nil
  | cons head rows ih =>
      rw [List.map_cons, List.nodup_cons] at keys
      rw [List.foldl_cons]
      obtain rfl | mem := List.mem_cons.mp mem
      · rw [lookup_visit_ne keys.1]
        exact AList.lookup_insert _
      · have other : sData.id ≠ head.id := fun same => keys.1 (same ▸ List.mem_map_of_mem mem)
        rw [ih keys.2 mem, visit, AList.lookup_insert_ne other]

/-- A loop in which every activity has its record, and no record changes. -/
theorem visit_still (keys : (rows.map ActivityRow.id).Nodup) (before : acc.2 = false)
    (still : ∀ sData ∈ rows, ∃ actData, acc.1.lookup sData.id = some actData ∧
      (actData.refresh (config sData.id) now).2 = false) :
    (rows.foldl (visit config now) acc).2 = false := by
  induction rows generalizing acc with
  | nil => exact before
  | cons head rows ih =>
      rw [List.map_cons, List.nodup_cons] at keys
      rw [List.foldl_cons]
      obtain ⟨actData, found, same⟩ := still head List.mem_cons_self
      apply ih keys.2
      · rw [visit, before, found]
        exact same
      · intro sData mem
        have other : sData.id ≠ head.id := fun same => keys.1 (same ▸ List.mem_map_of_mem mem)
        rw [visit, AList.lookup_insert_ne other]
        exact still sData (List.mem_cons_of_mem head mem)

end Visits

section Ticks
variable {cfg : ActivityTable} {s t : ActivityMgr} {now : Int} {id : Nat} {sData : ActivityRow}

/-- The activities of the records are those of the table. -/
def Known (cfg : ActivityTable) (m : ActDatas) : Prop := ∀ id ∈ m, id ∈ cfg.activity.map ActivityRow.id

theorem any_row : (cfg.activity.any fun sData => sData.id = id) = true ↔ id ∈ cfg.activity.map ActivityRow.id := by
  simp

theorem dropGone_known {m : ActDatas} (known : Known cfg m) : dropGone cfg m = m := by
  apply AList.ext
  exact List.filter_eq_self.mpr fun e mem => any_row.mpr (known e.1 (List.mem_map_of_mem mem))

theorem known_visit {config : Nat → Option CfgData} {acc : ActDatas × Bool} (known : Known cfg acc.1) :
    Known cfg (cfg.activity.foldl (visit config now) acc).1 := by
  intro id mem
  by_contra other
  have missing := AList.lookup_isSome.mpr mem
  rw [lookup_visit_ne other] at missing
  exact other (known id (AList.lookup_isSome.mp missing))

/-- Before the first tick there is nothing, and after each the records have what it read. -/
structure MgrInv (cfg : ActivityTable) (s : ActivityMgr) : Prop where
  fresh : s.ActData = none → s.doc = none ∧ s.ticks = []
  known : ∀ m ∈ s.ActData, Known cfg m
  settled : ∀ m ∈ s.ActData, ∃ last before, s.ticks = last :: before ∧
    ∀ sData ∈ cfg.activity, ∃ actData, m.lookup sData.id = some actData ∧
      actData.Settled (last.config sData.id)

def visitAll (cfg : ActivityTable) (s : ActivityMgr) (now : Int) : ActDatas × Bool :=
  cfg.activity.foldl (visit s.config now) (s.loaded, false)

theorem loaded_known (inv : MgrInv cfg s) : Known cfg s.loaded := by
  cases here : s.ActData with
  | none =>
      intro id mem
      rw [loaded, getData, here, (inv.fresh here).1] at mem
      exact absurd mem (AList.notMem_empty id)
  | some m =>
      rw [loaded, here]
      exact inv.known m here

/-- A tick drops no record. -/
theorem update_eq (now : Int) (inv : MgrInv cfg s) : ∃ doc tick,
    s.update cfg now = ⟨some doc, some (s.visitAll cfg now).1, tick :: s.ticks⟩ ∧ tick.config = s.config ∧
    (∀ id, tick.opened id = ((s.visitAll cfg now).1.lookup id).any fun actData => actData.openAt now) ∧
    tick.wrote = (s.ActData.isNone || (s.visitAll cfg now).2) ∧
    tick.published = (s.visitAll cfg now).2 := by
  have known : Known cfg (s.visitAll cfg now).1 := known_visit (loaded_known inv)
  have none_gone : ((s.visitAll cfg now).1.keys.any fun id =>
      ¬cfg.activity.any fun sData => sData.id = id) = false := by
    refine List.any_eq_false.mpr fun id mem gone => ?_
    exact of_decide_eq_true gone (any_row.mpr (known id mem))
  have visited : cfg.activity.foldl (visit s.getData.actConfigData now) (s.loaded, false) =
      s.visitAll cfg now := rfl
  rw [update, visited]
  rw [dropGone_known known, none_gone, Bool.or_false]
  exact ⟨_, _, rfl, rfl, fun id => rfl, rfl, rfl⟩

theorem lookup_visitAll (mem : sData ∈ cfg.activity) : (s.visitAll cfg now).1.lookup sData.id =
    some ((s.record sData).refresh (s.config sData.id) now).1 := lookup_visit cfg.keys mem

theorem openTimes_record (inv : MgrInv cfg s) : (s.record sData).openTimes.getD 0 = s.openTimes sData.id := by
  rw [record, loaded, openTimes]
  cases here : s.ActData with
  | none =>
      rw [getData, (inv.fresh here).1]
      rfl
  | some m =>
      rw [Option.getD_some, Option.bind_some]
      cases m.lookup sData.id with
      | none | some actData => rfl

theorem inv_update (inv : MgrInv cfg s) : MgrInv cfg (s.update cfg now) := by
  obtain ⟨doc, tick, moved, config, -⟩ := update_eq now inv
  rw [moved]
  refine ⟨nofun, ?_, ?_⟩
  · rintro _ ⟨⟩
    exact known_visit (loaded_known inv)
  · rintro _ ⟨⟩
    refine ⟨tick, s.ticks, rfl, fun sData mem => ⟨_, lookup_visitAll mem, ?_⟩⟩
    rw [config]
    exact ActRecord.settled_refresh

/-- A command leaves the records and the ticks as they are. -/
theorem setCfgData_frame (datas : Option (List (Nat × CfgArgs))) :
    (s.setCfgData cfg datas).1.ActData = s.ActData ∧ (s.setCfgData cfg datas).1.ticks = s.ticks ∧
    (s.doc = none → (s.setCfgData cfg datas).1.doc = none) := by
  cases datas with
  | none => exact ⟨rfl, rfl, fun absent => absent⟩
  | some datas =>
      rw [setCfgData]
      split
      · exact ⟨rfl, rfl, fun absent => absent⟩
      · exact ⟨rfl, rfl, fun absent => Option.map_eq_none_iff.mpr absent⟩

theorem inv_step {e : MgrEvent} (inv : MgrInv cfg s) (moved : s.step cfg e = some t) : MgrInv cfg t := by
  cases e with
  | SetCfgData datas =>
      obtain rfl := Option.some.inj moved
      obtain ⟨records, ticks, absent⟩ := @setCfgData_frame cfg s datas
      constructor
      · rw [records, ticks]
        exact fun none_ => ⟨absent (inv.fresh none_).1, (inv.fresh none_).2⟩
      · rw [records]
        exact inv.known
      · rw [records, ticks]
        exact inv.settled
  | update now =>
      rw [step] at moved
      split at moved
      · exact Option.some.inj moved ▸ inv_update inv
      · cases moved

/-- An activity without a row of the table is never open. -/
theorem counted_update (inv : MgrInv cfg s) (counted : ∀ id, s.openTimes id = rounds id s.ticks)
    (steady : ∀ sData ∈ cfg.activity, s.RowSteady now sData) (id : Nat) :
    (s.update cfg now).openTimes id = rounds id (s.update cfg now).ticks := by
  obtain ⟨doc, tick, moved, -, opened, -⟩ := update_eq now inv
  rw [moved, openTimes, rounds, Option.bind_some, ← counted id, opened id]
  by_cases row : id ∈ cfg.activity.map ActivityRow.id
  · obtain ⟨sData, mem, rfl⟩ := List.mem_map.mp row
    obtain ⟨given, still⟩ := steady sData mem
    have times : ((s.config sData.id).bind CfgData.openTimes).getD ((s.record sData).openTimes.getD 0) =
        s.openTimes sData.id := by
      rw [← openTimes_record inv]
      cases here : (s.config sData.id).bind CfgData.openTimes with
      | none => rfl
      | some n =>
          obtain ⟨data, there, is⟩ := Option.bind_eq_some_iff.mp here
          exact (given data there n is).symm
    rw [lookup_visitAll mem, Option.bind_some, ActRecord.openTimes_refresh, Option.getD_some, times,
      Option.any_some, ActRecord.openAt_refresh]
    congr 1
    refine if_congr (and_congr_right fun opens => ?_) rfl rfl
    rw [still opens]
  · have missing : (s.visitAll cfg now).1.lookup id = none := by
      refine AList.lookup_eq_none.mpr fun mem => row ?_
      exact known_visit (loaded_known inv) id mem
    have before : s.openTimes id = 0 := by
      rw [openTimes]
      cases here : s.ActData with
      | none => rfl
      | some m =>
          have missing : m.lookup id = none :=
            AList.lookup_eq_none.mpr fun mem => row (inv.known m here id mem)
          rw [Option.bind_some, missing]
          rfl
    rw [missing, before, Option.any_none]
    rfl

theorem quiet_update (inv : MgrInv cfg s) (steady : s.Steady cfg (.update now))
    (quiet : s.ticks.IsChain fun tick before => tick.Unchanged cfg before →
      tick.wrote = false ∧ tick.published = false) :
    (s.update cfg now).ticks.IsChain fun tick before => tick.Unchanged cfg before →
      tick.wrote = false ∧ tick.published = false := by
  obtain ⟨doc, tick, moved, config, opened, wrote, published⟩ := update_eq now inv
  rw [moved]
  cases here : s.ActData with
  | none =>
      rw [(inv.fresh here).2]
      exact .singleton _
  | some m =>
      obtain ⟨last, before, ticks, settled⟩ := inv.settled m here
      rw [ticks] at quiet ⊢
      refine List.isChain_cons_cons.mpr ⟨fun same => ?_, quiet⟩
      have records (sData : ActivityRow) (mem : sData ∈ cfg.activity) :
          m.lookup sData.id = some (s.record sData) ∧ (s.record sData).Settled (s.config sData.id) := by
        obtain ⟨actData, found, whole⟩ := settled sData mem
        have loaded : s.record sData = actData := by
          rw [record, loaded, here, Option.getD_some, found, Option.getD_some]
        rw [loaded, ← config, (same sData mem).1]
        exact ⟨found, whole⟩
      have still : s.Idle cfg now := by
        refine ⟨last, by rw [ticks]; rfl, fun sData mem => ⟨config ▸ (same sData mem).1, ?_⟩⟩
        rw [← (same sData mem).2, opened, lookup_visitAll mem, Option.any_some, ActRecord.openAt_refresh,
          ActRecord.openAt_settled (records sData mem).2]
      have nothing : (s.visitAll cfg now).2 = false := by
        refine visit_still cfg.keys rfl fun sData mem => ⟨s.record sData, ?_, ?_⟩
        · rw [loaded, here]
          exact (records sData mem).1
        · exact ActRecord.refresh_settled (records sData mem).2 (steady.2 still sData mem)
            (steady.1 sData mem).1
      rw [wrote, published, here, nothing]
      exact ⟨rfl, rfl⟩

theorem roundsCounted_step {e : MgrEvent} (inv : MgrInv cfg s) (whole : RoundsCounted cfg s)
    (steady : s.Steady cfg e) (moved : s.step cfg e = some t) : RoundsCounted cfg t := by
  cases e with
  | SetCfgData datas =>
      obtain rfl := Option.some.inj moved
      obtain ⟨records, ticks, -⟩ := @setCfgData_frame cfg s datas
      constructor
      · rw [ticks]
        intro id
        rw [openTimes, records]
        exact whole.counted id
      · rw [ticks]
        exact whole.quiet
  | update now =>
      rw [step] at moved
      split at moved
      · obtain rfl := Option.some.inj moved
        exact ⟨counted_update inv whole.counted steady.1, quiet_update inv steady whole.quiet⟩
      · cases moved

/-- In every run whose ticks are steady, the rounds are counted, and a tick that finds nothing new does
nothing. -/
theorem run_rounds {es : List MgrEvent} (run : Run (step cfg) (Steady cfg) start es s) :
    RoundsCounted cfg s := by
  have both : MgrInv cfg s ∧ RoundsCounted cfg s := by
    refine run.invariant (fun s => MgrInv cfg s ∧ RoundsCounted cfg s) ?_ ?_
    · exact ⟨⟨fun _ => ⟨rfl, rfl⟩, nofun, nofun⟩, ⟨fun _ => rfl, .nil⟩⟩
    · exact fun t e u both steady moved =>
        ⟨inv_step both.1 moved, roundsCounted_step both.1 both.2 steady moved⟩
  exact both.2

end Ticks

def cfg_activity : ActivityTable where
  activity := [⟨4001, fun key => if key = "name" then some (.scalar "破产礼包") else none⟩,
    ⟨4003, fun key => if key = "name" then some (.scalar "限时折扣礼包") else none⟩]
  keys := by decide

/-- A command for activity 4001. -/
def openCfg (open_ : Bool) (startDt endDt : Int) : MgrEvent :=
  .SetCfgData (some [(4001, ⟨some open_, some startDt, some endDt, none, .singleton "name" (.scalar "破产礼包")⟩)])

/-- The activity is opened by a command, closed by another, and opened once more. -/
theorem run_rounds_opened : ∃ s, Run (step cfg_activity) (Steady cfg_activity) start
      [.update 1, openCfg true 0 100, .update 2, .update 3, openCfg false 0 100, .update 4,
        openCfg true 0 100, .update 5] s ∧
    (s.openTimes 4001 = 2 ∧ s.ticks.map ActTick.published = [true, true, false, true, true]) ∧
    RoundsCounted cfg_activity s := by
  obtain ⟨s, run, shown⟩ := run_of_guarded_any (step cfg_activity) (Steady cfg_activity) start
    [.update 1, openCfg true 0 100, .update 2, .update 3, openCfg false 0 100, .update 4,
      openCfg true 0 100, .update 5]
    (fun s => s.openTimes 4001 = 2 ∧ s.ticks.map ActTick.published = [true, true, false, true, true])
    (by decide)
  exact ⟨s, run, shown, run_rounds run⟩

/-- The activity is configured before it starts, and opens when the clock reaches its start. -/
theorem rounds_fail : ¬∀ (cfg : ActivityTable) (es : List MgrEvent) (s : ActivityMgr),
    Run (step cfg) anyStep start es s → RoundsCounted cfg s := by
  intro all
  obtain ⟨s, run, stored, opened⟩ := run_of_exec_any (step cfg_activity) start
    [.update 1, openCfg true 10 20, .update 5, .update 15]
    (fun s => s.openTimes 4001 = 0 ∧ rounds 4001 s.ticks = 1) (by decide)
  have same := (all cfg_activity _ s run).counted 4001
  rw [stored, opened] at same
  exact absurd same Int.zero_ne_one

end ActivityMgr

end HuluLandlord.Services
