import HuluLandlord.Define
import HuluLandlord.Transition
import HuluLandlord.Table

/-!
The tasks of a user. The data are kept apart by date type: a counter for each group, a
counter for each group of an activity, and the states. A table is a list of entries in
which the last one written counts. Groups, tasks and activities are numbers here, and what
a reward consists of is left out. `met` and `granted` are what has happened since the last
reset: the tasks whose counter has been seen at its target, the activity's tasks since it
was opened, and the tasks whose reward was given.
-/
namespace HuluLandlord.Agent
open Transition Table

abbrev TaskId := Nat
abbrev TaskGroup := Nat
abbrev DateType := Nat
abbrev ActId := Nat

inductive TaskState
  | default | finish | get
  deriving DecidableEq, Repr

inductive CType
  | task | act
  deriving DecidableEq, Repr

/-- A row of `cfg_task`; the `task_type` of an activity's task is the activity. -/
structure Task where
  id : TaskId
  task_type : ActId
  date_type : DateType
  task_group : TaskGroup
  targets : Int
  parent_task : TaskId
  count_type : CType
  deriving DecidableEq, Repr

structure TaskTable where
  rows : List Task
  distinct : (rows.map Task.id).Nodup

structure TypeData where
  record : List (TaskGroup × Int)
  actRecord : List (ActId × List (TaskGroup × Int))
  state : List (TaskId × TaskState)
  met : List TaskId
  granted : List TaskId
  deriving DecidableEq, Repr

abbrev UserTask := DateType → TypeData

inductive TaskEvent
  | addVal (group : TaskGroup) (num : Int)
  | setVal (group : TaskGroup) (num : Int)
  | resetDateTask (dateType : DateType)
  | actOpen (actId : ActId)
  | getItem (id : TaskId)
  deriving DecidableEq, Repr

namespace TypeData
variable (data : TypeData)

/-- `data.state[id] or TaskState.Default`. -/
def stateOf (id : TaskId) : TaskState := (data.state.lookup id).getD .default

def val (group : TaskGroup) : Int := (data.record.lookup group).getD 0

/-- `actRecord[act_id][group]`. -/
def actVal (actId : ActId) (group : TaskGroup) : Option Int :=
  (data.actRecord.lookup actId).bind (List.lookup group)

/-- The `val` that `get` shows for a task. -/
def counter (sData : Task) : Int :=
  match sData.count_type with
  | .task => data.val sData.task_group
  | .act => (data.actVal sData.task_type sData.task_group).getD 0

end TypeData

namespace TaskTable
variable (cfg : TaskTable)

def find (id : TaskId) : Option Task := cfg.rows.find? fun sData => sData.id = id

/-- `dataGroupObj[group]`, of one date type. -/
def groupArr (group : TaskGroup) (dateType : DateType) : List Task :=
  cfg.rows.filter fun sData => sData.task_group = group ∧ sData.date_type = dateType

/-- The tasks of an activity in one date type. -/
def actArr (actId : ActId) (dateType : DateType) : List Task :=
  cfg.rows.filter fun sData =>
    sData.count_type = .act ∧ sData.task_type = actId ∧ sData.date_type = dateType

/-- `_checkTaskGroupState`: every task of the group by the one number it is called with. -/
def _checkTaskGroupState (data : TypeData) (group : TaskGroup) (dateType : DateType) (num : Int) :
    TypeData :=
  { data with
    state := (cfg.groupArr group dateType).foldl (fun state sData =>
      if (state.lookup sData.id).getD .default = .default ∧ num ≥ sData.targets then
        (sData.id, .finish) :: state
      else state) data.state }

/-- The first activity of the group that keeps a counter for it has it changed; any other
is passed. -/
def countAct (data : TypeData) (group : TaskGroup) (dateType : DateType) (f : Int → Int) :
    TypeData :=
  let counted := (cfg.groupArr group dateType).find? fun sData =>
    sData.count_type = .act ∧ (data.actVal sData.task_type group).isSome
  match counted with
  | none => data
  | some sData =>
      let actRecordTable := (data.actRecord.lookup sData.task_type).getD []
      let num := f ((data.actVal sData.task_type group).getD 0)
      { data with
        actRecord := (sData.task_type, (group, num) :: actRecordTable) :: data.actRecord }

/-- What has been seen of the group's counters. -/
def meet (data : TypeData) (group : TaskGroup) (dateType : DateType) : TypeData :=
  let reached := (cfg.groupArr group dateType).filter fun sData =>
    data.counter sData ≥ sData.targets
  { data with met := reached.map Task.id ++ data.met }

/-- The loop of `addVal` and `setVal` for one date type. -/
def count (data : TypeData) (group : TaskGroup) (dateType : DateType) (f : Int → Int) :
    TypeData :=
  let num := f (data.val group)
  let data := cfg.countAct { data with record := (group, num) :: data.record } group dateType f
  cfg.meet (cfg._checkTaskGroupState data group dateType num) group dateType

/-- `dateTypeArr`. -/
def dateTypeArr : List DateType := cfg.rows.map Task.date_type

def countAll (s : UserTask) (group : TaskGroup) (f : Int → Int) : UserTask := fun dateType =>
  if dateType ∈ cfg.dateTypeArr then cfg.count (s dateType) group dateType f else s dateType

def addVal (s : UserTask) (group : TaskGroup) (num : Int) : UserTask :=
  if num > 0 then cfg.countAll s group (· + num) else s

def setVal (s : UserTask) (group : TaskGroup) (num : Int) : UserTask :=
  cfg.countAll s group fun _ => num

/-- `initActData` for one date type. -/
def initActData (data : TypeData) (actId : ActId) (dateType : DateType) : TypeData :=
  let arr := cfg.actArr actId dateType
  if arr = [] then data
  else { data with
    actRecord := (actId, arr.map fun sData => (sData.task_group, 0)) :: data.actRecord
    state := arr.foldl (fun state sData =>
      if (state.lookup sData.id).isSome then (sData.id, .default) :: state else state) data.state
    met := data.met.filter fun id => id ∉ arr.map Task.id }

def actOpen (s : UserTask) (actId : ActId) : UserTask := fun dateType =>
  cfg.initActData (s dateType) actId dateType

/-- A period ends in any case; the data are cleared if there are any. -/
def resetDateTask (s : UserTask) (dateType : DateType) : UserTask :=
  let data := s dateType
  let cleared : TypeData :=
    if data.record ≠ [] ∨ data.state ≠ [] then ⟨[], [], [], [], []⟩
    else { data with met := [], granted := [] }
  Function.update s dateType cleared

/-- Only a parent that is recorded as not finished holds the reward back. -/
def getItem (s : UserTask) (id : TaskId) : UserTask × RetVal :=
  match cfg.find id with
  | none => (s, .error_3)
  | some sData =>
      let data := s sData.date_type
      if data.state.lookup sData.id ≠ some .finish then (s, .lack_6)
      else if (cfg.find sData.parent_task).any fun parent =>
        data.state.lookup parent.id = some .default then (s, .notOpen_9)
      else
        (Function.update s sData.date_type { data with
          state := (sData.id, .get) :: data.state
          granted := sData.id :: data.granted }, .succeed_1)

def step (s : UserTask) (e : TaskEvent) : Option UserTask :=
  match e with
  | .addVal group num => some (cfg.addVal s group num)
  | .setVal group num => some (cfg.setVal s group num)
  | .resetDateTask dateType => some (resetDateTask s dateType)
  | .actOpen actId => some (cfg.actOpen s actId)
  | .getItem id => some (cfg.getItem s id).1

def empty : UserTask := fun _ => ⟨[], [], [], [], []⟩

end TaskTable

/-- The state of a task, in the data of its own date type. -/
def Task.stateIn (sData : Task) (s : UserTask) : TaskState := (s sData.date_type).stateOf sData.id

/-- The function an event applies to the counters of a group. -/
def TaskEvent.counts (e : TaskEvent) : Option (TaskGroup × (Int → Int)) :=
  match e with
  | .addVal group num => if num > 0 then some (group, (· + num)) else none
  | .setVal group num => some (group, fun _ => num)
  | _ => none

/-- What an activity's counter for a task becomes when it is counted. -/
def TypeData.ownVal (data : TypeData) (sData : Task) (f : Int → Int) : Int :=
  ((data.actVal sData.task_type sData.task_group).map f).getD 0

/-- No other activity keeps a counter for the group that the task's activity counts. -/
def TypeData.Alone (data : TypeData) (cfg : TaskTable) (sData : Task) : Prop :=
  (data.actVal sData.task_type sData.task_group).isSome →
    ∀ x ∈ cfg.groupArr sData.task_group sData.date_type, x.count_type = .act →
      (data.actVal x.task_type sData.task_group).isSome → x.task_type = sData.task_type

section Table
variable {cfg : TaskTable} {data : TypeData} {group : TaskGroup} {d : DateType} {id : TaskId}
  {num : Int} {f : Int → Int} {sData : Task}

theorem find_eq_some : cfg.find id = some sData ↔ sData ∈ cfg.rows ∧ sData.id = id := by
  constructor
  · intro found
    exact ⟨List.mem_of_find?_eq_some found, by simpa using List.find?_some found⟩
  · rintro ⟨mem, rfl⟩
    cases found : cfg.find sData.id with
    | none => exact absurd (List.find?_eq_none.mp found sData mem) (by simp)
    | some other =>
        have same : other.id = sData.id := by simpa using List.find?_some found
        rw [List.inj_on_of_nodup_map cfg.distinct (List.mem_of_find?_eq_some found) mem same]

theorem mem_groupArr :
    sData ∈ cfg.groupArr group d ↔ sData ∈ cfg.rows ∧ sData.task_group = group ∧
      sData.date_type = d := by
  simp [TaskTable.groupArr]

theorem mem_actArr {actId : ActId} :
    sData ∈ cfg.actArr actId d ↔ sData ∈ cfg.rows ∧ sData.count_type = .act ∧
      sData.task_type = actId ∧ sData.date_type = d := by
  simp [TaskTable.actArr]

/-- A loop that writes one state under the ids of the tasks that ask for it. -/
theorem lookup_foldl {arr : List Task} {state : List (TaskId × TaskState)} {new : TaskState}
    (asks : Option TaskState → Task → Bool) :
    (arr.foldl (fun state sData => if asks (state.lookup sData.id) sData then
        (sData.id, new) :: state else state) state).lookup id =
      if ∃ x ∈ arr, x.id = id ∧ asks (state.lookup id) x = true then some new
      else state.lookup id := by
  induction arr generalizing state with
  | nil => simp
  | cons x arr ih =>
      rw [List.foldl_cons, ih]
      by_cases here : x.id = id
      · subst here
        by_cases wants : asks (state.lookup x.id) x = true
        · simp [wants]
        · simp [wants]
      · have other : ¬id = x.id := fun same => here same.symm
        have kept : (if asks (state.lookup x.id) x then (x.id, new) :: state else state).lookup id =
            state.lookup id := by
          split
          · exact lookup_cons_ne other
          · rfl
        simp [kept, here]

theorem lookup_check :
    (cfg._checkTaskGroupState data group d num).state.lookup id =
      if ∃ x ∈ cfg.groupArr group d, x.id = id ∧ data.stateOf id = .default ∧ x.targets ≤ num then
        some .finish
      else data.state.lookup id := by
  have loop := @lookup_foldl id (cfg.groupArr group d) data.state .finish fun old sData =>
    old.getD .default = .default ∧ num ≥ sData.targets
  simp only [decide_eq_true_eq] at loop
  exact loop

/-- A task of the table is the only one with its id. -/
theorem exists_groupArr {P : Task → Prop} (mem : sData ∈ cfg.rows) :
    (∃ x ∈ cfg.groupArr group d, x.id = sData.id ∧ P x) ↔
      sData.task_group = group ∧ sData.date_type = d ∧ P sData := by
  constructor
  · rintro ⟨x, inArr, same, holds⟩
    obtain ⟨inRows, inGroup, inType⟩ := mem_groupArr.mp inArr
    obtain rfl := List.inj_on_of_nodup_map cfg.distinct inRows mem same
    exact ⟨inGroup, inType, holds⟩
  · rintro ⟨inGroup, inType, holds⟩
    exact ⟨sData, mem_groupArr.mpr ⟨mem, inGroup, inType⟩, rfl, holds⟩

@[simp] theorem countAct_record : (cfg.countAct data group d f).record = data.record := by
  simp only [TaskTable.countAct]
  split <;> rfl

@[simp] theorem countAct_state : (cfg.countAct data group d f).state = data.state := by
  simp only [TaskTable.countAct]
  split <;> rfl

/-- Changing an activity's counter leaves the other activities and groups alone. -/
theorem actVal_cons {actId act : ActId} {g : TaskGroup} {table : List (TaskGroup × Int)} :
    ({ data with actRecord := (act, (group, num) :: table) :: data.actRecord } :
      TypeData).actVal actId g =
      if actId = act then if g = group then some num else table.lookup g
      else data.actVal actId g := by
  by_cases here : actId = act
  · subst here
    by_cases there : g = group
    · subst there
      simp [TypeData.actVal]
    · simp [TypeData.actVal, there, lookup_cons_ne there]
  · simp [TypeData.actVal, here, lookup_cons_ne here]

/-- The activity of a task has its own counter changed, if nothing stands before it. -/
theorem actVal_countAct (mem : sData ∈ cfg.rows) (isAct : sData.count_type = .act)
    (alone : data.Alone cfg sData) :
    (cfg.countAct data sData.task_group sData.date_type f).actVal sData.task_type
      sData.task_group = (data.actVal sData.task_type sData.task_group).map f := by
  have inGroup := mem_groupArr.mpr ⟨mem, rfl, rfl⟩
  simp only [TaskTable.countAct]
  cases counted : (cfg.groupArr sData.task_group sData.date_type).find? fun x =>
      x.count_type = .act ∧ (data.actVal x.task_type sData.task_group).isSome with
  | none =>
      have closed := List.find?_eq_none.mp counted sData inGroup
      simp only [isAct, true_and, decide_eq_true_eq, Bool.not_eq_true,
        Option.isSome_eq_false_iff, Option.isNone_iff_eq_none] at closed
      simp only [closed, Option.map_none]
  | some x =>
      have isOpen := List.find?_some counted
      simp only [decide_eq_true_eq] at isOpen
      simp only [actVal_cons]
      by_cases here : sData.task_type = x.task_type
      · rw [← here] at isOpen
        obtain ⟨v, keeps⟩ := Option.isSome_iff_exists.mp isOpen.2
        simp [← here, keeps]
      · have closed : (data.actVal sData.task_type sData.task_group).isSome = false := by
          by_contra opened
          rw [Bool.not_eq_false] at opened
          have inArr := List.mem_of_find?_eq_some counted
          exact here (alone opened x inArr isOpen.1 isOpen.2).symm
        rw [if_neg here]
        simp only [Option.isSome_eq_false_iff, Option.isNone_iff_eq_none] at closed
        rw [closed, Option.map_none]

theorem lookup_count :
    (cfg.count data group d f).state.lookup id =
      if ∃ x ∈ cfg.groupArr group d, x.id = id ∧ data.stateOf id = .default ∧
          x.targets ≤ f (data.val group) then some .finish
      else data.state.lookup id := by
  have checked := @lookup_check cfg
    (cfg.countAct { data with record := (group, f (data.val group)) :: data.record } group d f)
    group d id (f (data.val group))
  simp only [TypeData.stateOf, countAct_state] at checked ⊢
  exact checked

@[simp] theorem count_granted : (cfg.count data group d f).granted = data.granted := by
  simp only [TaskTable.count, TaskTable.meet, TaskTable._checkTaskGroupState, TaskTable.countAct]
  split <;> rfl

/-- The value of a task's counter after its group has been counted. -/
def TypeData.nextVal (data : TypeData) (sData : Task) (f : Int → Int) : Int :=
  match sData.count_type with
  | .task => f (data.val sData.task_group)
  | .act => data.ownVal sData f

theorem met_countAct : (cfg.countAct data group d f).met = data.met := by
  simp only [TaskTable.countAct]
  split <;> rfl

theorem counter_counted (mem : sData ∈ cfg.rows)
    (alone : sData.count_type = .act → data.Alone cfg sData) :
    (cfg._checkTaskGroupState (cfg.countAct { data with
        record := (sData.task_group, f (data.val sData.task_group)) :: data.record }
      sData.task_group sData.date_type f) group d num).counter sData = data.nextVal sData f := by
  cases kind : sData.count_type with
  | task => simp [TypeData.counter, TypeData.nextVal, kind, TypeData.val,
      TaskTable._checkTaskGroupState]
  | act =>
      have counted := @actVal_countAct cfg { data with
        record := (sData.task_group, f (data.val sData.task_group)) :: data.record } f sData
        mem kind (alone kind)
      simp only [TypeData.counter, TypeData.nextVal, kind, TypeData.ownVal]
      exact congrArg (·.getD 0) counted

/-- A task of the group is met when its counter comes to its target. -/
theorem met_count (mem : sData ∈ cfg.rows)
    (alone : sData.count_type = .act → data.Alone cfg sData) :
    sData.id ∈ (cfg.count data group d f).met ↔
      (sData.task_group = group ∧ sData.date_type = d ∧ sData.targets ≤ data.nextVal sData f) ∨
        sData.id ∈ data.met := by
  simp only [TaskTable.count, TaskTable.meet, List.mem_append, List.mem_map, List.mem_filter,
    decide_eq_true_eq, and_assoc]
  refine or_congr ?_ (by simp only [TaskTable._checkTaskGroupState, met_countAct])
  constructor
  · rintro ⟨x, inArr, reached, same⟩
    obtain ⟨inGroup, inType, reached⟩ :=
      (@exists_groupArr cfg group d sData (fun x => TypeData.counter _ x ≥ x.targets) mem).mp
        ⟨x, inArr, same, reached⟩
    subst inGroup inType
    rw [counter_counted mem alone] at reached
    exact ⟨rfl, rfl, reached⟩
  · rintro ⟨rfl, rfl, reached⟩
    refine ⟨sData, mem_groupArr.mpr ⟨mem, rfl, rfl⟩, ?_, rfl⟩
    rw [counter_counted mem alone]
    exact reached

theorem stateOf_of_lookup {state : TaskState} (found : data.state.lookup id = some state) :
    data.stateOf id = state := by
  rw [TypeData.stateOf, found, Option.getD_some]

end Table

/-- What the data of one date type say of the period. -/
structure PeriodInv (cfg : TaskTable) (d : DateType) (data : TypeData) : Prop where
  placed : ∀ id state, data.state.lookup id = some state →
    ∃ sData ∈ cfg.rows, sData.id = id ∧ sData.date_type = d
  reached : ∀ id, data.state.lookup id = some .finish → id ∈ data.met
  taken : ∀ id ∈ data.granted, data.state.lookup id = some .get
  once : data.granted.Nodup

/-- Where a group is counted, no task of an activity becomes finished whose activity's own
counter does not come to the target as well. -/
def OwnReaches (cfg : TaskTable) (data : TypeData) (group : TaskGroup) (d : DateType)
    (f : Int → Int) : Prop :=
  ∀ sData ∈ cfg.groupArr group d, sData.count_type = .act → data.stateOf sData.id = .default →
    sData.targets ≤ f (data.val group) →
    data.Alone cfg sData ∧ sData.targets ≤ data.ownVal sData f

section Period
variable {cfg : TaskTable} {data : TypeData} {group : TaskGroup} {d : DateType} {id : TaskId}
  {f : Int → Int} {sData : Task} {actId : ActId}

theorem period_empty : PeriodInv cfg d ⟨[], [], [], [], []⟩ :=
  ⟨nofun, nofun, fun _ mem => absurd mem List.not_mem_nil, List.nodup_nil⟩

theorem period_count (inv : PeriodInv cfg d data) (own : OwnReaches cfg data group d f) :
    PeriodInv cfg d (cfg.count data group d f) := by
  refine ⟨fun id state found => ?_, fun id found => ?_, fun id mem => ?_, ?_⟩
  · rw [lookup_count] at found
    split at found
    · rename_i finished
      obtain ⟨x, inArr, same, _⟩ := finished
      obtain ⟨mem, _, inType⟩ := mem_groupArr.mp inArr
      exact ⟨x, mem, same, inType⟩
    · exact inv.placed id state found
  · rw [lookup_count] at found
    split at found
    · rename_i finished
      obtain ⟨x, inArr, rfl, fresh, reaches⟩ := finished
      obtain ⟨mem, rfl, rfl⟩ := mem_groupArr.mp inArr
      cases kind : x.count_type with
      | task =>
          refine (met_count mem fun isAct => nomatch kind.symm.trans isAct).mpr (.inl ⟨rfl, rfl, ?_⟩)
          simpa only [TypeData.nextVal, kind] using reaches
      | act =>
          obtain ⟨alone, counted⟩ := own x inArr kind fresh reaches
          refine (met_count mem fun _ => alone).mpr (.inl ⟨rfl, rfl, ?_⟩)
          simpa only [TypeData.nextVal, kind] using counted
    · refine List.mem_append_right _ ?_
      have old := inv.reached id found
      simp only [TaskTable._checkTaskGroupState, met_countAct]
      exact old
  · rw [count_granted] at mem
    have got := inv.taken id mem
    rw [lookup_count, if_neg]
    · exact got
    · rintro ⟨x, _, _, fresh, _⟩
      cases (stateOf_of_lookup got).symm.trans fresh
  · rw [count_granted]
    exact inv.once

theorem lookup_init : (cfg.initActData data actId d).state.lookup id =
    if ∃ x ∈ cfg.actArr actId d, x.id = id ∧ (data.state.lookup id).isSome then some .default
    else data.state.lookup id := by
  rw [TaskTable.initActData]
  split
  · rename_i none
    simp [none]
  · exact lookup_foldl fun old _ => old.isSome

theorem met_init : id ∈ (cfg.initActData data actId d).met ↔
    id ∈ data.met ∧ ∀ x ∈ cfg.actArr actId d, x.id ≠ id := by
  rw [TaskTable.initActData]
  split
  · rename_i none
    simp [none]
  · simp

theorem period_init (inv : PeriodInv cfg d data)
    (untaken : ∀ x ∈ cfg.actArr actId d, x.id ∉ data.granted) :
    PeriodInv cfg d (cfg.initActData data actId d) := by
  have granted : (cfg.initActData data actId d).granted = data.granted := by
    rw [TaskTable.initActData]
    split <;> rfl
  refine ⟨fun id state found => ?_, fun id found => ?_, fun id mem => ?_, granted ▸ inv.once⟩
  · rw [lookup_init] at found
    split at found
    · rename_i reset
      obtain ⟨x, inArr, same, _⟩ := reset
      obtain ⟨mem, _, _, inType⟩ := mem_actArr.mp inArr
      exact ⟨x, mem, same, inType⟩
    · exact inv.placed id state found
  · rw [lookup_init] at found
    split at found
    · cases found
    · rename_i kept
      refine met_init.mpr ⟨inv.reached id found, fun x inArr same => kept ⟨x, inArr, same, ?_⟩⟩
      rw [found, Option.isSome_some]
  · rw [granted] at mem
    rw [lookup_init, if_neg]
    · exact inv.taken id mem
    · rintro ⟨x, inArr, rfl, _⟩
      exact untaken x inArr mem

theorem period_reset :
    PeriodInv cfg d (if data.record ≠ [] ∨ data.state ≠ [] then ⟨[], [], [], [], []⟩
      else { data with met := [], granted := [] }) := by
  split
  · exact period_empty
  · rename_i bare
    rw [not_or, not_not, not_not] at bare
    simp only [bare.2]
    exact ⟨nofun, nofun, fun _ mem => absurd mem List.not_mem_nil, List.nodup_nil⟩

theorem period_get (inv : PeriodInv cfg d data) (mem : sData ∈ cfg.rows)
    (inType : sData.date_type = d) (finished : data.state.lookup sData.id = some .finish) :
    PeriodInv cfg d { data with
      state := (sData.id, .get) :: data.state
      granted := sData.id :: data.granted } := by
  have untaken : sData.id ∉ data.granted := fun taken =>
    nomatch finished.symm.trans (inv.taken sData.id taken)
  refine ⟨fun id state found => ?_, fun id found => ?_, ?_, List.nodup_cons.mpr ⟨untaken, inv.once⟩⟩
  · by_cases here : id = sData.id
    · exact ⟨sData, mem, here.symm, inType⟩
    · rw [lookup_cons_ne here] at found
      exact inv.placed id state found
  · by_cases here : id = sData.id
    · subst here
      rw [List.lookup_cons_self] at found
      cases found
    · rw [lookup_cons_ne here] at found
      exact inv.reached id found
  · refine List.forall_mem_cons.mpr ⟨List.lookup_cons_self, fun id taken => ?_⟩
    have other : id ≠ sData.id := fun same => untaken (same ▸ taken)
    rw [lookup_cons_ne other]
    exact inv.taken id taken

end Period

/-- The condition of an event: where counters are counted, finished tasks of activities have
come to their targets by their activity's counters; no activity is opened again when a
reward of its tasks has been given in the period; and the reward of a finished task that has
a parent task is asked for when a state of the parent is recorded. -/
def Fairly (cfg : TaskTable) (s : UserTask) (e : TaskEvent) : Prop :=
  (∀ group f, e.counts = some (group, f) → ∀ d, OwnReaches cfg (s d) group d f) ∧
    (∀ actId, e = .actOpen actId → ∀ d, ∀ x ∈ cfg.actArr actId d, x.id ∉ (s d).granted) ∧
    ∀ id sData parent, e = .getItem id → cfg.find id = some sData →
      cfg.find sData.parent_task = some parent →
      (s sData.date_type).state.lookup sData.id = some .finish →
      ((s sData.date_type).state.lookup parent.id).isSome

/-- A reward that is given: for the first time in the period, after the counter has come to
the target, and after the parent task. -/
structure FairReward (cfg : TaskTable) (s s' : UserTask) (sData : Task) : Prop where
  first : sData.id ∉ (s sData.date_type).granted
  reached : sData.id ∈ (s sData.date_type).met
  parent : ∀ parent, cfg.find sData.parent_task = some parent →
    parent.stateIn s = .finish ∨ parent.stateIn s = .get
  given : (s' sData.date_type).granted = sData.id :: (s sData.date_type).granted

section Rewards
variable {cfg : TaskTable} {s s' : UserTask} {e : TaskEvent} {id : TaskId} {es : List TaskEvent}

theorem period_countAll (inv : ∀ d, PeriodInv cfg d (s d)) {group : TaskGroup} {f : Int → Int}
    (own : ∀ d, OwnReaches cfg (s d) group d f) (d : DateType) :
    PeriodInv cfg d (cfg.countAll s group f d) := by
  rw [TaskTable.countAll]
  split
  · exact period_count (inv d) (own d)
  · exact inv d

/-- A change of the data of one date type. -/
theorem period_update (inv : ∀ d, PeriodInv cfg d (s d)) {k : DateType} {data : TypeData}
    (changed : PeriodInv cfg k data) (d : DateType) :
    PeriodInv cfg d (Function.update s k data d) := by
  by_cases here : d = k
  · subst here
    rw [Function.update_self]
    exact changed
  · rw [Function.update_of_ne here]
    exact inv d

theorem period_getItem (inv : ∀ d, PeriodInv cfg d (s d)) (d : DateType) :
    PeriodInv cfg d ((cfg.getItem s id).1 d) := by
  simp only [TaskTable.getItem]
  split
  · exact inv d
  rename_i sData found
  split
  · exact inv d
  rename_i finished
  split
  · exact inv d
  rw [not_not] at finished
  have mem := (find_eq_some.mp found).1
  exact period_update inv (period_get (inv sData.date_type) mem rfl finished) d

theorem period_step (inv : ∀ d, PeriodInv cfg d (s d)) (fair : Fairly cfg s e)
    (moved : cfg.step s e = some s') (d : DateType) : PeriodInv cfg d (s' d) := by
  obtain ⟨own, untaken, _⟩ := fair
  cases e with
  | addVal group num =>
      obtain rfl := Option.some.inj moved
      rw [TaskTable.addVal]
      split
      · rename_i positive
        refine period_countAll inv (own group _ ?_) d
        simp only [TaskEvent.counts, if_pos positive]
      · exact inv d
  | setVal group num =>
      obtain rfl := Option.some.inj moved
      exact period_countAll inv (own group _ rfl) d
  | resetDateTask dateType =>
      obtain rfl := Option.some.inj moved
      exact period_update inv period_reset d
  | actOpen actId =>
      obtain rfl := Option.some.inj moved
      exact period_init (inv d) (untaken actId rfl d)
  | getItem id =>
      obtain rfl := Option.some.inj moved
      exact period_getItem inv d

theorem run_period (run : Run cfg.step (Fairly cfg) TaskTable.empty es s) (d : DateType) :
    PeriodInv cfg d (s d) := by
  refine run.invariant (fun s => ∀ d, PeriodInv cfg d (s d)) (fun _ => period_empty) ?_ d
  exact fun s e s' inv fair moved => period_step inv fair moved

theorem fairReward_getItem (inv : ∀ d, PeriodInv cfg d (s d)) (fair : Fairly cfg s (.getItem id))
    (done : cfg.getItem s id = (s', .succeed_1)) :
    ∃ sData, cfg.find id = some sData ∧ FairReward cfg s s' sData := by
  simp only [TaskTable.getItem] at done
  split at done
  · cases done
  rename_i sData found
  split at done
  · cases done
  rename_i finished
  split at done
  · cases done
  rename_i waits
  obtain rfl := congrArg Prod.fst done
  rw [not_not] at finished
  have period := inv sData.date_type
  refine ⟨sData, found, ⟨fun taken => ?_, period.reached sData.id finished, ?_, ?_⟩⟩
  · cases finished.symm.trans (period.taken sData.id taken)
  · intro parent isParent
    obtain ⟨state, recorded⟩ :=
      Option.isSome_iff_exists.mp (fair.2.2 id sData parent rfl found isParent finished)
    obtain ⟨x, mem, same, inType⟩ := period.placed parent.id state recorded
    have inRows := (find_eq_some.mp isParent).1
    obtain rfl := List.inj_on_of_nodup_map cfg.distinct mem inRows same
    have stateIn : x.stateIn s = state := by
      rw [Task.stateIn, inType]
      exact stateOf_of_lookup recorded
    rw [stateIn]
    cases state with
    | default => simp [isParent, recorded] at waits
    | finish => exact .inl rfl
    | get => exact .inr rfl
  · simp

/-- In every run that is fair each reward is given once in a period, after the task's counter
has come to its target and after its parent task. -/
theorem run_fair (run : Run cfg.step (Fairly cfg) TaskTable.empty es s) :
    (∀ d, (s d).granted.Nodup) ∧
      ∀ id s', Fairly cfg s (.getItem id) → cfg.getItem s id = (s', .succeed_1) →
        ∃ sData, cfg.find id = some sData ∧ FairReward cfg s s' sData := by
  have inv := run_period run
  exact ⟨fun d => (inv d).once, fun id s' fair done => fairReward_getItem inv fair done⟩

/-- Two tasks in a row, counted by the games played. -/
def gameTable : TaskTable where
  rows := [⟨10057, 3, 0, 3, 200, 0, .task⟩, ⟨10058, 3, 0, 3, 500, 10057, .task⟩]
  distinct := by decide

/-- After 500 games the reward of the second task can be had. -/
theorem run_fair_games :
    ∃ s, Run gameTable.step (Fairly gameTable) TaskTable.empty [.addVal 3 500] s ∧
      (gameTable.getItem s 10058).2 = .succeed_1 ∧
      (∀ d, (s d).granted.Nodup) ∧
        ∀ id s', Fairly gameTable s (.getItem id) → gameTable.getItem s id = (s', .succeed_1) →
          ∃ sData, gameTable.find id = some sData ∧ FairReward gameTable s s' sData := by
  have fair : Fairly gameTable TaskTable.empty (.addVal 3 500) := by
    refine ⟨fun group f _ d sData inArr isAct => ?_, fun group same => (by cases same),
      fun id sData parent same => (by cases same)⟩
    have mem := (mem_groupArr.mp inArr).1
    simp only [gameTable, List.mem_cons, List.not_mem_nil, or_false] at mem
    obtain rfl | rfl := mem
    all_goals cases isAct
  have run : Run gameTable.step (Fairly gameTable) TaskTable.empty ([] ++ [.addVal 3 500]) _ :=
    .next .refl fair rfl
  exact ⟨_, run, by decide, run_fair run⟩

/-- A daily task and a task of an activity, both counted by the bombs played. -/
def bombTable : TaskTable where
  rows := [⟨10005, 1, 1, 6, 3, 0, .task⟩, ⟨30001, 1001, 1, 6, 2, 0, .act⟩]
  distinct := by decide

/-- Two bombs, while the activity has not been opened, and its reward is given. -/
theorem fair_fails :
    ¬∀ cfg es s, Run (TaskTable.step cfg) anyStep TaskTable.empty es s →
      ∀ id s', cfg.getItem s id = (s', .succeed_1) →
        ∃ sData, cfg.find id = some sData ∧ FairReward cfg s s' sData := by
  intro all
  have run := @run_of_exec _ _ bombTable.step TaskTable.empty [.addVal 6 2] _ rfl
  obtain ⟨sData, found, fair⟩ := all bombTable _ _ run 30001 _ rfl
  obtain rfl := Option.some.inj ((show bombTable.find 30001 = some ⟨30001, 1001, 1, 6, 2, 0, .act⟩
    by decide).symm.trans found)
  exact absurd fair.reached (by decide)

end Rewards

section Activity
variable {cfg : TaskTable} {data : TypeData} {group : TaskGroup} {d : DateType} {id : TaskId}
  {f : Int → Int} {sData : Task} {actId : ActId} {s s' : UserTask} {e : TaskEvent}
  {es : List TaskEvent}

end Activity

end HuluLandlord.Agent
