import HuluLandlord.Services.Vine

/-!
What one place of a vine puts out. The loop is that of a production line: only its last fruit
and the time left in the place decide what is grown next, and when. A line that is running
grows each fruit from the end of the one before, whenever it is looked at; one that stands
idle starts again when it is looked at.
-/
namespace HuluLandlord.Services

/-- The last fruit of a line: its end, its type, and whether the next one grows from its end. -/
structure LastFruit where
  endDt : Int
  type : Nat
  running : Bool
  deriving DecidableEq, Repr

/-- A line, with the time that is left. -/
structure GrowLine where
  timeVal : Int
  last : Option LastFruit
  deriving DecidableEq, Repr

namespace GrowLine
variable (single : Int)

/-- When the next fruit starts to grow, if it does. -/
def startDt (now : Int) (s : GrowLine) : Option Int :=
  match s.last with
  | none => some now
  | some e => if e.endDt > now ∨ e.type ≠ 0 then none
      else some (if e.running then e.endDt else now)

def stop (s : GrowLine) : GrowLine :=
  { s with last := s.last.map fun e => { e with running := false } }

def next (s : GrowLine) (endDt : Int) (type : Nat) : GrowLine :=
  ⟨s.timeVal - single, some ⟨endDt, type, true⟩⟩

/-- The ends and types of the fruits that are grown, and the line after them; the types are
drawn in order. -/
def grow (now : Int) : Nat → (Nat → Nat) → GrowLine → List (Int × Nat) × GrowLine
  | 0, _, s => ([], s)
  | n + 1, draws, s =>
      match s.startDt now with
      | none => ([], s)
      | some startDt =>
          if s.timeVal < single then ([], s.stop)
          else
            let more := grow now n (fun k => draws (k + 1)) (s.next single (startDt + single) (draws 0))
            ((startDt + single, draws 0) :: more.1, more.2)

/-- There is time for a fruit, and it would start when it is looked at. -/
def Idle (now : Int) (s : GrowLine) : Prop :=
  single ≤ s.timeVal ∧ match s.last with
    | none => True
    | some e => e.endDt ≤ now ∧ e.type = 0 ∧ e.running = false

section Grow
variable {single now later : Int} {n m : Nat} {draws : Nat → Nat} {s : GrowLine}

theorem grow_full (full : s.timeVal < single) : (grow single now n draws s).1 = [] := by
  cases n with
  | zero => rfl
  | succ n =>
      simp only [grow]
      cases s.startDt now with
      | none => rfl
      | some start => simp only [full, if_true]

/-- As many turns as there is time for are enough. -/
theorem grow_enough (positive : 0 < single) (first : s.timeVal < n * single)
    (second : s.timeVal < m * single) :
    (grow single now n draws s).1 = (grow single now m draws s).1 := by
  induction n generalizing m draws s with
  | zero =>
      have full : s.timeVal < single := by
        rw [Nat.cast_zero, zero_mul] at first
        exact first.trans positive
      rw [grow_full full, grow_full full]
  | succ n ih =>
      cases m with
      | zero =>
          have full : s.timeVal < single := by
            rw [Nat.cast_zero, zero_mul] at second
            exact second.trans positive
          rw [grow_full full, grow_full full]
      | succ m =>
          simp only [grow]
          cases s.startDt now with
          | none => rfl
          | some start =>
              simp only
              split
              · rfl
              · push_cast [add_mul, one_mul] at first second
                have rest := @ih m (fun k => draws (k + 1))
                  (s.next single (start + single) (draws 0)) (by simp only [next]; omega)
                  (by simp only [next]; omega)
                rw [rest]

/-- The time that is left never grows. -/
theorem grow_timeVal (positive : 0 < single) :
    (grow single now n draws s).2.timeVal ≤ s.timeVal := by
  induction n generalizing draws s with
  | zero => exact le_refl _
  | succ n ih =>
      simp only [grow]
      cases s.startDt now with
      | none => exact le_refl _
      | some start =>
          simp only
          split
          · exact le_refl _
          · apply ih.trans
            simp only [next]
            omega

/-- As many types are drawn as there are turns. -/
theorem grow_congr {draws' : Nat → Nat} (same : ∀ k < n, draws k = draws' k) :
    grow single now n draws s = grow single now n draws' s := by
  induction n generalizing draws draws' s with
  | zero => rfl
  | succ n ih =>
      simp only [grow]
      cases s.startDt now with
      | none => rfl
      | some start =>
          simp only
          have rest := @ih (fun k => draws (k + 1))
            (s.next single (start + single) (draws 0)) (fun k => draws' (k + 1))
            fun k less => same (k + 1) (Nat.succ_lt_succ less)
          rw [rest, same 0 n.succ_pos]

/-- A line that is not idle grows the same whether it is looked at in between or not. -/
theorem grow_twice (positive : 0 < single) (ordered : now ≤ later) (busy : ¬s.Idle single now)
    (first : s.timeVal < n * single)
    (second : (grow single now n draws s).2.timeVal < m * single) :
    (grow single later n draws s).1 = (grow single now n draws s).1 ++
      (grow single later m (fun k => draws ((grow single now n draws s).1.length + k))
        (grow single now n draws s).2).1 := by
  induction n generalizing draws s with
  | zero =>
      have full : s.timeVal < single := by
        rw [Nat.cast_zero, zero_mul] at first
        exact first.trans positive
      simp only [grow]
      rw [grow_full full]
      rfl
  | succ n ih =>
      simp only [grow] at second ⊢
      cases begins : s.startDt now with
      | none =>
          simp only [begins] at second
          have same := @grow_enough single later (n + 1) m draws s positive first second
          simp only [grow] at same
          simp only [List.length_nil, Nat.zero_add, List.nil_append]
          exact same
      | some start =>
          simp only [begins] at second ⊢
          by_cases full : s.timeVal < single
          · have stopped : s.stop.timeVal < single := full
            simp only [full, if_true, List.nil_append]
            rw [grow_full stopped]
            cases s.startDt later with
            | none => rfl
            | some _ => rfl
          · have running : s.startDt later = some start := by
              simp only [startDt] at begins ⊢
              cases last : s.last with
              | none => exact absurd ⟨not_lt.mp full, by simp [last]⟩ busy
              | some e =>
                  simp only [last] at begins ⊢
                  split at begins
                  · cases begins
                  · rename_i ripe
                    rw [not_or, not_lt, not_not] at ripe
                    have goes : e.running = true := by
                      by_contra idle
                      exact busy ⟨not_lt.mp full, by simp [last, ripe, idle]⟩
                    have past : ¬(e.endDt > later ∨ e.type ≠ 0) := by
                      rw [not_or, not_lt, not_not]
                      exact ⟨ripe.1.trans ordered, ripe.2⟩
                    rw [if_neg past]
                    simpa [goes] using begins
            simp only [full, if_false] at second
            simp only [running, full, if_false]
            push_cast [add_mul, one_mul] at first
            have rest := @ih (fun k => draws (k + 1))
              (s.next single (start + single) (draws 0)) (by simp [Idle, next])
              (by simp only [next]; omega) second
            rw [rest, List.cons_append]
            congr 3
            simp only [List.length_cons, Nat.add_right_comm]

end Grow
end GrowLine

namespace GourdData
variable (cfg : VineCfg) (sData : VineRow) (now : Int)

/-- `updateGourdOutput`, with the types that are drawn, and the new ids, in order. -/
def updateGourdOutput (uid draws : Nat → Nat) (isOutputOther : Bool) (u : GourdData)
    (arr : List VineFruit) : GourdData × List VineFruit × Bool :=
  outputLoop cfg sData now (fun n => uid (19 - n)) (fun n => draws (19 - n)) isOutputOther 20 u
    arr false

/-- A fruit that is grown from `startDt`. -/
def newFruit (u : GourdData) (id type : Nat) (startDt : Int) : VineFruit :=
  ⟨id, sData.level, sData.single_output_times, type, startDt + sData.single_output_times,
    addNum sData type (u.getGourdAddRate cfg now).2.1, 0, true, true, false,
    (u.getGourdAddRate cfg now).2.2⟩

/-- A growing fruit with fertiliser. -/
def fertilized (u : GourdData) (e : VineFruit) : VineFruit :=
  { e with
    isUseFertilizer := (u.getGourdAddRate cfg now).2.2
    addNum := addNum sData e.type (u.getGourdAddRate cfg now).2.1 }

/-- The place as a line. -/
def line (arr : List VineFruit) : GrowLine :=
  ⟨timeVal cfg arr,
    arr.getLast?.map fun e => ⟨e.endDt, e.type, e.isTree && !e.isStopOutput⟩⟩

def fruitTimes (arr : List VineFruit) : List (Int × Nat) :=
  arr.map fun f => (f.endDt, f.type)

def usedFertilizer (arr : List VineFruit) : Nat := arr.countP VineFruit.isUseFertilizer

end GourdData

open GourdData in
/-- What the fruits of a place satisfy: the budget, the order, the tree, and the fertiliser. -/
structure GourdPosition (cfg : VineCfg) (u : GourdData) (arr : List VineFruit) : Prop where
  budget : (arr.map VineFruit.tiemVal).sum ≤ cfg.timeMax
  ordered : (arr.map VineFruit.endDt).Pairwise (· ≤ ·)
  onTree : ∀ f ∈ arr.dropLast, f.isTree = false
  fertilizer : 0 ≤ u.fertilizerNum

open GourdData in
/-- What `updateGourdOutput` is for. Where the fruits are `timed` a second call changes nothing,
and a call in between, at a time that is `polled`, none of the fruits. -/
structure Produces (cfg : VineCfg) (sData : VineRow) (isOutputOther : Bool) (u : GourdData)
    (arr : List VineFruit) (timed : Prop) (polled : Int → Prop) : Prop where
  keeps : ∀ now uid draws, GourdPosition cfg
    (updateGourdOutput cfg sData now uid draws isOutputOther u arr).1
    (updateGourdOutput cfg sData now uid draws isOutputOther u arr).2.1
  fertilizer : ∀ now uid draws,
    (updateGourdOutput cfg sData now uid draws isOutputOther u arr).1.fertilizerNum +
        usedFertilizer (updateGourdOutput cfg sData now uid draws isOutputOther u arr).2.1 =
      u.fertilizerNum + usedFertilizer arr
  idempotent : timed → ∀ now uid uid' draws draws',
    updateGourdOutput cfg sData now uid' draws' isOutputOther
        (updateGourdOutput cfg sData now uid draws isOutputOther u arr).1
        (updateGourdOutput cfg sData now uid draws isOutputOther u arr).2.1 =
      ((updateGourdOutput cfg sData now uid draws isOutputOther u arr).1,
        (updateGourdOutput cfg sData now uid draws isOutputOther u arr).2.1, false)
  catchUp : timed → ∀ now later uid uid' draws, now ≤ later → polled now →
    fruitTimes (updateGourdOutput cfg sData later uid'
        (fun k => draws ((updateGourdOutput cfg sData now uid draws isOutputOther u arr).2.1.length -
          arr.length + k)) isOutputOther
        (updateGourdOutput cfg sData now uid draws isOutputOther u arr).1
        (updateGourdOutput cfg sData now uid draws isOutputOther u arr).2.1).2.1 =
      fruitTimes (updateGourdOutput cfg sData later uid draws isOutputOther u arr).2.1

namespace GourdData

section Loop
variable {cfg : VineCfg} {sData : VineRow} {now : Int} {uid chance : Nat → Nat}
  {isOutputOther isDirty : Bool} {u : GourdData} {arr init : List VineFruit} {e : VineFruit}
  {n : Nat}

@[simp] theorem setLast_nil (f : VineFruit → VineFruit) : setLast [] f = [] := rfl

@[simp] theorem setLast_concat (f : VineFruit → VineFruit) :
    setLast (init ++ [e]) f = init ++ [f e] := by
  simp [setLast]

theorem timeVal_concat : timeVal cfg (init ++ [e]) = timeVal cfg init - e.tiemVal := by
  simp only [timeVal, List.map_append, List.map_cons, List.map_nil, List.sum_append, List.sum_cons,
    List.sum_nil]
  omega

@[simp] theorem line_nil : line cfg [] = ⟨timeVal cfg [], none⟩ := rfl

@[simp] theorem line_concat : line cfg (init ++ [e]) =
    ⟨timeVal cfg (init ++ [e]), some ⟨e.endDt, e.type, e.isTree && !e.isStopOutput⟩⟩ := by
  simp [line]

/-- One turn in a place without fruits. -/
theorem outputLoop_nil :
    outputLoop cfg sData now uid chance isOutputOther (n + 1) u [] isDirty =
      if timeVal cfg [] < sData.single_output_times then (u, [], isDirty)
      else outputLoop cfg sData now uid chance isOutputOther n (u.getGourdAddRate cfg now).1
        [newFruit cfg sData now u (uid n) (if isOutputOther then chance n else 0) now] true := rfl

/-- One turn behind a last fruit. -/
theorem outputLoop_concat :
    outputLoop cfg sData now uid chance isOutputOther (n + 1) u (init ++ [e]) isDirty =
      if e.endDt > now then
        if u.fertilizerNum > 0 ∧ ¬e.isUseFertilizer then
          ((u.getGourdAddRate cfg now).1, init ++ [fertilized cfg sData now u e], true)
        else (u, init ++ [e], isDirty)
      else if e.type ≠ 0 then (u, init ++ [e], isDirty)
      else if timeVal cfg (init ++ [e]) < sData.single_output_times then
        (u, init ++ [{ e with isStopOutput := true }], isDirty)
      else outputLoop cfg sData now uid chance isOutputOther n (u.getGourdAddRate cfg now).1
        (init ++ [{ e with isTree := false }] ++
          [newFruit cfg sData now u (uid n) (if isOutputOther then chance n else 0)
            (if e.isTree ∧ ¬e.isStopOutput then e.endDt else now)]) true := by
  simp only [outputLoop, List.getLast?_concat, setLast_concat, newFruit, fertilized]

/-- The types in the order in which the loop draws them. -/
def inOrder (isOutputOther : Bool) (chance : Nat → Nat) (n k : Nat) : Nat :=
  if isOutputOther then chance (n - 1 - k) else 0

theorem inOrder_succ (k : Nat) : inOrder isOutputOther chance (n + 1) (k + 1) =
    inOrder isOutputOther chance n k := by
  simp only [inOrder]
  congr 2
  omega

@[simp] theorem fruitTimes_concat : fruitTimes (init ++ [e]) = fruitTimes init ++ [(e.endDt, e.type)] := by
  simp [fruitTimes]

/-- A new fruit behind the last one, as the line sees it. -/
theorem line_grown {id type : Nat} {startDt : Int} (last : VineFruit → VineFruit)
    (same : ∀ e, (last e).tiemVal = e.tiemVal) :
    line cfg (setLast arr last ++ [newFruit cfg sData now u id type startDt]) =
      (line cfg arr).next sData.single_output_times (startDt + sData.single_output_times) type := by
  obtain rfl | ⟨init, e, rfl⟩ := List.eq_nil_or_concat' arr
  · rw [setLast_nil, line_concat, timeVal_concat]
    rfl
  · rw [setLast_concat, line_concat, timeVal_concat, timeVal_concat, same, line_concat,
      timeVal_concat]
    rfl

/-- The loop is the production line. -/
theorem outputLoop_grow :
    fruitTimes (outputLoop cfg sData now uid chance isOutputOther n u arr isDirty).2.1 =
        fruitTimes arr ++ (GrowLine.grow sData.single_output_times now n
          (inOrder isOutputOther chance n) (line cfg arr)).1 ∧
      line cfg (outputLoop cfg sData now uid chance isOutputOther n u arr isDirty).2.1 =
        (GrowLine.grow sData.single_output_times now n (inOrder isOutputOther chance n)
          (line cfg arr)).2 := by
  induction n generalizing u arr isDirty with
  | zero => exact ⟨(List.append_nil _).symm, rfl⟩
  | succ n ih =>
      have order : (fun k => inOrder isOutputOther chance (n + 1) (k + 1)) =
          inOrder isOutputOther chance n := funext inOrder_succ
      have first : inOrder isOutputOther chance (n + 1) 0 =
          if isOutputOther then chance n else 0 := rfl
      obtain rfl | ⟨init, e, rfl⟩ := List.eq_nil_or_concat' arr
      · rw [outputLoop_nil, GrowLine.grow, order, first]
        simp only [GrowLine.startDt, line_nil]
        by_cases full : timeVal cfg [] < sData.single_output_times
        · simp only [full, if_true]
          exact ⟨rfl, rfl⟩
        · simp only [full, if_false]
          obtain ⟨times, after⟩ := @ih true (u.getGourdAddRate cfg now).1
            [newFruit cfg sData now u (uid n) (if isOutputOther then chance n else 0) now]
          have grown := @line_grown cfg sData now u [] (uid n)
            (if isOutputOther then chance n else 0) now id fun _ => rfl
          rw [setLast_nil, List.nil_append, line_nil] at grown
          rw [grown] at times after
          exact ⟨times, after⟩
      · rw [outputLoop_concat, GrowLine.grow, order, first]
        simp only [GrowLine.startDt, line_concat]
        by_cases growing : e.endDt > now
        · simp only [growing, if_true, true_or]
          split
          · simp [fertilized, timeVal_concat]
          · simp
        by_cases special : e.type ≠ 0
        · simp [growing, special]
        simp only [growing, special, if_false, or_self]
        by_cases full : timeVal cfg (init ++ [e]) < sData.single_output_times
        · simp only [full, if_true]
          simp [GrowLine.stop, timeVal_concat]
        · simp only [full, if_false]
          have start : (if e.isTree = true ∧ ¬e.isStopOutput = true then e.endDt else now) =
              if (e.isTree && !e.isStopOutput) = true then e.endDt else now := by
            simp
          rw [start]
          obtain ⟨times, after⟩ := @ih true (u.getGourdAddRate cfg now).1
            (init ++ [{ e with isTree := false }] ++
              [newFruit cfg sData now u (uid n) (if isOutputOther then chance n else 0)
                (if (e.isTree && !e.isStopOutput) = true then e.endDt else now)])
          have grown := @line_grown cfg sData now u (init ++ [e]) (uid n)
            (if isOutputOther then chance n else 0)
            (if (e.isTree && !e.isStopOutput) = true then e.endDt else now)
            (fun e => { e with isTree := false }) fun _ => rfl
          rw [setLast_concat, @line_concat cfg init e] at grown
          rw [grown] at times after
          refine ⟨?_, after⟩
          rw [times, fruitTimes_concat, fruitTimes_concat, @fruitTimes_concat init e,
            List.append_assoc]
          rfl

/-- A unit of fertiliser is used where there is one. -/
theorem rate_used (cfg : VineCfg) (now : Int) (u : GourdData) :
    (u.getGourdAddRate cfg now).1.fertilizerNum +
        (if (u.getGourdAddRate cfg now).2.2 then 1 else 0) = u.fertilizerNum := by
  simp only [getGourdAddRate]
  by_cases has : u.fertilizerNum > 0
  · simp [has]
  · simp [has]

theorem rate_nonneg (cfg : VineCfg) (now : Int) (nonneg : 0 ≤ u.fertilizerNum) :
    0 ≤ (u.getGourdAddRate cfg now).1.fertilizerNum := by
  simp only [getGourdAddRate, decide_eq_true_eq]
  split
  · omega
  · exact nonneg

theorem usedFertilizer_concat : usedFertilizer (init ++ [e]) =
    usedFertilizer init + if e.isUseFertilizer then 1 else 0 := by
  simp [usedFertilizer, List.countP_append, List.countP_singleton]

/-- The last fruit changed in nothing but its marks. -/
theorem position_last {e' : VineFruit} {u' : GourdData}
    (position : GourdPosition cfg u (init ++ [e])) (times : e'.endDt = e.endDt)
    (time : e'.tiemVal = e.tiemVal) (nonneg : 0 ≤ u'.fertilizerNum) :
    GourdPosition cfg u' (init ++ [e']) where
  budget := by simpa [time] using position.budget
  ordered := by simpa [times] using position.ordered
  onTree := by simpa using position.onTree
  fertilizer := nonneg

/-- A fruit more, with time for it. -/
theorem position_grown {id type : Nat} {startDt : Int} {before : List VineFruit}
    (position : GourdPosition cfg u before) (positive : 0 < sData.single_output_times)
    (room : sData.single_output_times ≤ timeVal cfg before)
    (basket : ∀ f ∈ before, f.isTree = false) (ripe : ∀ f ∈ before, f.endDt ≤ startDt) :
    GourdPosition cfg (u.getGourdAddRate cfg now).1
      (before ++ [newFruit cfg sData now u id type startDt]) where
  budget := by
    rw [timeVal] at room
    simp only [List.map_append, List.map_cons, List.map_nil, List.sum_append, List.sum_cons,
      List.sum_nil, newFruit]
    omega
  ordered := by
    rw [List.map_append, List.pairwise_append]
    refine ⟨position.ordered, List.pairwise_singleton _ _, ?_⟩
    intro endDt mem other last
    obtain ⟨f, found, rfl⟩ := List.mem_map.mp mem
    have bound := ripe f found
    simp only [List.map_cons, List.map_nil, List.mem_singleton, newFruit] at last
    omega
  onTree := by
    rw [List.dropLast_concat]
    exact basket
  fertilizer := rate_nonneg cfg now position.fertilizer

/-- A fruit more behind a last one that is ripe, which is put off the tree. -/
theorem position_next {id type : Nat} (position : GourdPosition cfg u (init ++ [e]))
    (positive : 0 < sData.single_output_times) (growing : ¬e.endDt > now)
    (room : ¬timeVal cfg (init ++ [e]) < sData.single_output_times) :
    GourdPosition cfg (u.getGourdAddRate cfg now).1
      (init ++ [{ e with isTree := false }] ++ [newFruit cfg sData now u id type
        (if e.isTree ∧ ¬e.isStopOutput then e.endDt else now)]) := by
  have last : ∀ f ∈ init, f.endDt ≤ e.endDt := by
    intro f mem
    have ordered := position.ordered
    rw [List.map_append, List.pairwise_append] at ordered
    exact ordered.2.2 f.endDt (List.mem_map.mpr ⟨f, mem, rfl⟩) e.endDt (by simp)
  have basket : ∀ f ∈ init, f.isTree = false := by
    simpa using position.onTree
  have start : e.endDt ≤ if e.isTree ∧ ¬e.isStopOutput then e.endDt else now := by
    split
    · exact le_refl _
    · exact not_lt.mp growing
  have off := @position_last cfg u init e { e with isTree := false } u position rfl rfl
    position.fertilizer
  apply position_grown off positive
  · rw [timeVal_concat] at room ⊢
    exact not_lt.mp room
  · intro f mem
    obtain mem | mem := List.mem_append.mp mem
    · exact basket f mem
    · rw [List.mem_singleton.mp mem]
  · intro f mem
    obtain mem | mem := List.mem_append.mp mem
    · exact (last f mem).trans start
    · rw [List.mem_singleton.mp mem]
      exact start

/-- A fruit more takes a unit of fertiliser where it has it. -/
theorem usedFertilizer_grown {id type : Nat} {startDt : Int} {before : List VineFruit} :
    (u.getGourdAddRate cfg now).1.fertilizerNum +
        usedFertilizer (before ++ [newFruit cfg sData now u id type startDt]) =
      u.fertilizerNum + usedFertilizer before := by
  have used := rate_used cfg now u
  simp only [usedFertilizer_concat, newFruit]
  push_cast
  omega

theorem outputLoop_keeps (positive : 0 < sData.single_output_times)
    (position : GourdPosition cfg u arr) :
    GourdPosition cfg (outputLoop cfg sData now uid chance isOutputOther n u arr isDirty).1
        (outputLoop cfg sData now uid chance isOutputOther n u arr isDirty).2.1 ∧
      (outputLoop cfg sData now uid chance isOutputOther n u arr isDirty).1.fertilizerNum +
          usedFertilizer (outputLoop cfg sData now uid chance isOutputOther n u arr isDirty).2.1 =
        u.fertilizerNum + usedFertilizer arr := by
  induction n generalizing u arr isDirty with
  | zero => exact ⟨position, rfl⟩
  | succ n ih =>
      obtain rfl | ⟨init, e, rfl⟩ := List.eq_nil_or_concat' arr
      · rw [outputLoop_nil]
        split
        · exact ⟨position, rfl⟩
        · rename_i room
          have grown := @position_grown cfg sData now u (uid n)
            (if isOutputOther then chance n else 0) now [] position positive (not_lt.mp room)
            (by simp) (by simp)
          obtain ⟨keeps, count⟩ := @ih true _ _ grown
          exact ⟨keeps, count.trans usedFertilizer_grown⟩
      · rw [outputLoop_concat]
        split
        · split
          · rename_i uses
            refine ⟨position_last position rfl rfl (rate_nonneg cfg now position.fertilizer), ?_⟩
            have flag : e.isUseFertilizer = false := by simpa using uses.2
            have used := rate_used cfg now u
            simp only [usedFertilizer_concat, flag, fertilized]
            push_cast
            omega
          · exact ⟨position, rfl⟩
        · rename_i growing
          split
          · exact ⟨position, rfl⟩
          split
          · refine ⟨position_last position rfl rfl position.fertilizer, ?_⟩
            simp only [usedFertilizer_concat]
          · rename_i room
            obtain ⟨keeps, count⟩ := @ih true _ _ (position_next position positive growing room)
            refine ⟨keeps, count.trans ?_⟩
            rw [usedFertilizer_grown]
            simp only [usedFertilizer_concat]

/-- There is nothing to do in a place: its last fruit is growing, with fertiliser if there is any,
or is special, or the place is marked as full. -/
def Settled (cfg : VineCfg) (sData : VineRow) (now : Int) (u : GourdData)
    (arr : List VineFruit) : Prop :=
  match arr.getLast? with
  | none => timeVal cfg arr < sData.single_output_times
  | some e => if e.endDt > now then ¬(u.fertilizerNum > 0 ∧ ¬e.isUseFertilizer)
      else e.type ≠ 0 ∨ (timeVal cfg arr < sData.single_output_times ∧ e.isStopOutput)

theorem settled_concat : Settled cfg sData now u (init ++ [e]) ↔
    if e.endDt > now then ¬(u.fertilizerNum > 0 ∧ ¬e.isUseFertilizer)
    else e.type ≠ 0 ∨
      (timeVal cfg (init ++ [e]) < sData.single_output_times ∧ e.isStopOutput) := by
  simp only [Settled, List.getLast?_concat]

theorem outputLoop_settled (settled : Settled cfg sData now u arr) :
    outputLoop cfg sData now uid chance isOutputOther n u arr isDirty = (u, arr, isDirty) := by
  cases n with
  | zero => rfl
  | succ n =>
      obtain rfl | ⟨init, e, rfl⟩ := List.eq_nil_or_concat' arr
      · have full : timeVal cfg [] < sData.single_output_times := settled
        rw [outputLoop_nil, if_pos full]
      · rw [settled_concat] at settled
        rw [outputLoop_concat]
        by_cases growing : e.endDt > now
        · rw [if_pos growing] at settled ⊢
          rw [if_neg settled]
        rw [if_neg growing] at settled ⊢
        by_cases special : e.type ≠ 0
        · rw [if_pos special]
        · rw [if_neg special]
          obtain ⟨full, stopped⟩ := settled.resolve_left special
          have same : { e with isStopOutput := true } = e := by
            rw [← stopped]
          rw [if_pos full, same]

/-- Behind a fruit that is growing one turn is enough. -/
theorem settled_growing (growing : e.endDt > now) :
    Settled cfg sData now
      (outputLoop cfg sData now uid chance isOutputOther (n + 1) u (init ++ [e]) isDirty).1
      (outputLoop cfg sData now uid chance isOutputOther (n + 1) u (init ++ [e]) isDirty).2.1 := by
  rw [outputLoop_concat, if_pos growing]
  split
  · rename_i uses
    have flag : (u.getGourdAddRate cfg now).2.2 = true := decide_eq_true uses.1
    rw [settled_concat]
    simp only [fertilized, growing, if_true, flag, not_true_eq_false, and_false, not_false_eq_true]
  · rename_i unused
    rw [settled_concat, if_pos growing]
    exact unused

/-- As many turns as there is time for, and one more, leave nothing to do. -/
theorem settled_outputLoop (room : timeVal cfg (init ++ [e]) < (n + 1) * sData.single_output_times) :
    Settled cfg sData now
      (outputLoop cfg sData now uid chance isOutputOther (n + 1) u (init ++ [e]) isDirty).1
      (outputLoop cfg sData now uid chance isOutputOther (n + 1) u (init ++ [e]) isDirty).2.1 := by
  induction n generalizing u init e isDirty with
  | zero =>
      rw [Nat.cast_zero, zero_add, one_mul] at room
      by_cases growing : e.endDt > now
      · exact settled_growing growing
      rw [outputLoop_concat, if_neg growing]
      split
      · rename_i special
        rw [settled_concat, if_neg growing]
        exact .inl special
      · rw [timeVal_concat] at room
        rw [settled_concat, if_neg growing, timeVal_concat]
        exact .inr ⟨room, rfl⟩
  | succ n ih =>
      by_cases growing : e.endDt > now
      · exact settled_growing growing
      rw [outputLoop_concat, if_neg growing]
      split
      · rename_i special
        rw [settled_concat, if_neg growing]
        exact .inl special
      split
      · rename_i full
        rw [settled_concat, if_neg growing]
        rw [timeVal_concat] at full ⊢
        exact .inr ⟨full, rfl⟩
      · apply ih
        push_cast [add_mul, one_mul] at room ⊢
        rw [timeVal_concat] at room
        rw [timeVal_concat, timeVal_concat]
        simp only [newFruit]
        omega

/-- Where there is a fruit the time that is left is less than there is for a place. -/
theorem timeVal_lt (fits : cfg.timeMax ≤ 20 * sData.single_output_times)
    (times : ∀ f ∈ init ++ [e], 0 < f.tiemVal) :
    timeVal cfg (init ++ [e]) < 20 * sData.single_output_times := by
  have last := times e (by simp)
  have rest : 0 ≤ (init.map VineFruit.tiemVal).sum := by
    apply List.sum_nonneg
    intro n mem
    obtain ⟨f, found, rfl⟩ := List.mem_map.mp mem
    exact (times f (List.mem_append_left _ found)).le
  rw [timeVal_concat, timeVal]
  omega

/-- A whole call leaves nothing to do. -/
theorem settled_updateGourdOutput {draws : Nat → Nat} (positive : 0 < sData.single_output_times)
    (fits : cfg.timeMax ≤ 20 * sData.single_output_times) (times : ∀ f ∈ arr, 0 < f.tiemVal) :
    Settled cfg sData now (updateGourdOutput cfg sData now uid draws isOutputOther u arr).1
      (updateGourdOutput cfg sData now uid draws isOutputOther u arr).2.1 := by
  obtain rfl | ⟨init, e, rfl⟩ := List.eq_nil_or_concat' arr
  · rw [updateGourdOutput, outputLoop_nil]
    split
    · rename_i full
      exact full
    · have later : now + sData.single_output_times > now := by omega
      exact @settled_growing cfg sData now (fun n => uid (19 - n)) (fun n => draws (19 - n))
        isOutputOther true (u.getGourdAddRate cfg now).1 [] _ 18 later
  · exact settled_outputLoop (timeVal_lt fits times)

/-- A whole call is the line grown for twenty turns, with the types in order. -/
theorem updateGourdOutput_grow {draws : Nat → Nat} :
    fruitTimes (updateGourdOutput cfg sData now uid draws isOutputOther u arr).2.1 =
        fruitTimes arr ++ (GrowLine.grow sData.single_output_times now 20
          (fun k => if isOutputOther then draws k else 0) (line cfg arr)).1 ∧
      line cfg (updateGourdOutput cfg sData now uid draws isOutputOther u arr).2.1 =
        (GrowLine.grow sData.single_output_times now 20
          (fun k => if isOutputOther then draws k else 0) (line cfg arr)).2 := by
  have order : ∀ k < 20, inOrder isOutputOther (fun n => draws (19 - n)) 20 k =
      if isOutputOther then draws k else 0 := by
    intro k less
    have back : 19 - (20 - 1 - k) = k := by omega
    simp only [inOrder, back]
  rw [← GrowLine.grow_congr order]
  exact outputLoop_grow

/-- There are turns enough for a line that is not idle. -/
theorem line_busy (positive : 0 < sData.single_output_times)
    (fits : cfg.timeMax ≤ 20 * sData.single_output_times) (times : ∀ f ∈ arr, 0 < f.tiemVal)
    (busy : ¬(line cfg arr).Idle sData.single_output_times now) :
    (line cfg arr).timeVal < 20 * sData.single_output_times := by
  obtain rfl | ⟨init, e, rfl⟩ := List.eq_nil_or_concat' arr
  · by_contra room
    apply busy
    rw [line_nil] at room ⊢
    simp only [not_lt] at room
    exact ⟨by simp only; omega, trivial⟩
  · exact timeVal_lt fits times

/-- Looked at twice, a place that is not idle grows what it grows looked at once. -/
theorem updateGourdOutput_twice {later : Int} {uid' draws : Nat → Nat}
    (positive : 0 < sData.single_output_times)
    (fits : cfg.timeMax ≤ 20 * sData.single_output_times) (times : ∀ f ∈ arr, 0 < f.tiemVal)
    (ordered : now ≤ later) (busy : ¬(line cfg arr).Idle sData.single_output_times now) :
    fruitTimes (updateGourdOutput cfg sData later uid'
        (fun k => draws ((updateGourdOutput cfg sData now uid draws isOutputOther u arr).2.1.length -
          arr.length + k)) isOutputOther
        (updateGourdOutput cfg sData now uid draws isOutputOther u arr).1
        (updateGourdOutput cfg sData now uid draws isOutputOther u arr).2.1).2.1 =
      fruitTimes (updateGourdOutput cfg sData later uid draws isOutputOther u arr).2.1 := by
  obtain ⟨grown, after⟩ :=
    @updateGourdOutput_grow cfg sData now uid isOutputOther u arr draws
  have count : (updateGourdOutput cfg sData now uid draws isOutputOther u arr).2.1.length -
      arr.length = (GrowLine.grow sData.single_output_times now 20
        (fun k => if isOutputOther then draws k else 0) (line cfg arr)).1.length := by
    have lengths := congrArg List.length grown
    simp only [fruitTimes, List.length_append, List.length_map] at lengths
    omega
  have room := line_busy positive fits times busy
  have left : (GrowLine.grow sData.single_output_times now 20
      (fun k => if isOutputOther then draws k else 0) (line cfg arr)).2.timeVal <
        20 * sData.single_output_times :=
    (GrowLine.grow_timeVal positive).trans_lt room
  rw [updateGourdOutput_grow.1, grown, after, count, updateGourdOutput_grow.1, List.append_assoc]
  congr 1
  exact (GrowLine.grow_twice positive ordered busy room left).symm

/-- The fruits of a place: within the time there is for one, in the order of their ends, all but
the last off the tree, and one unit of fertiliser for each that has it; a second call at once
changes nothing, and a call in between changes none of the fruits, unless the place was idle. -/
theorem updateGourdOutput_produces (positive : 0 < sData.single_output_times)
    (fits : cfg.timeMax ≤ 20 * sData.single_output_times) (position : GourdPosition cfg u arr) :
    Produces cfg sData isOutputOther u arr (∀ f ∈ arr, 0 < f.tiemVal)
      fun now => ¬(line cfg arr).Idle sData.single_output_times now where
  keeps _ _ _ := (outputLoop_keeps positive position).1
  fertilizer _ _ _ := (outputLoop_keeps positive position).2
  idempotent times _ _ _ _ _ :=
    outputLoop_settled (settled_updateGourdOutput positive fits times)
  catchUp times _ _ _ _ _ ordered busy :=
    updateGourdOutput_twice positive fits times ordered busy

end Loop

section Place

private theorem gold_some : 0 < 100 := by decide

private def gold : FruitReward := ⟨100, [], gold_some⟩

private def vine : VineRow := ⟨1, 1, 1, fun _ => gold⟩

private def tables (timeMax : Int) : VineCfg :=
  { row := fun _ => some vine, oxygen := fun _ => none, oxygenMax := 0, vipAdd := fun _ => none
    fertilizerRate := 2000, rateMax := 0, ratePick := 0, soilTime := 0, helpRate := 0, helpTime := 0
    numMax := 0, timeMax := timeMax, countMax := 0, dayZero := fun dt => dt }

private def owner : GourdData :=
  { versionsKey1 := none, resetDt := none, vip := none, gourdLv := none, bonusObj := none
    gourdArr := fun _ => [], bePickFruitNumDay := 0, fertilizerNum := 1, loosenSoilLv := 0
    loosenSoilO2Val := 0, loosenSoilO2ValDay := 0, loosenSoilEndDt := 0
    loosenSoilRecord := fun _ => 0, friendHelpArr := [] }

private def fruit (tiemVal : Int) : VineFruit := ⟨1, 1, tiemVal, 0, 5, 0, 0, true, true, false, false⟩

theorem updateGourdOutput_produces_fruit :
    Produces (tables 3) vine true owner [fruit 1] (∀ f ∈ [fruit 1], 0 < f.tiemVal)
      fun now => ¬(line (tables 3) [fruit 1]).Idle 1 now :=
  updateGourdOutput_produces (by decide) (by decide)
    ⟨by decide, by decide, by decide, by decide⟩

/-- A new place that is looked at grows its first fruit from then on; and behind a fruit without a
time the mark that the place is full is left to a second call. -/
theorem updateGourdOutput_fails :
    (GourdPosition (tables 2) owner [] ∧
      ¬Produces (tables 2) vine false owner [] True fun _ => True) ∧
    GourdPosition (tables 20) owner [fruit 0] ∧
      ¬Produces (tables 20) vine false owner [fruit 0] True fun _ => True := by
  refine ⟨⟨⟨by decide, by decide, by decide, by decide⟩, ?_⟩,
    ⟨by decide, by decide, by decide, by decide⟩, ?_⟩
  · intro produces
    have same := produces.catchUp trivial 0 5 id id id (by decide) trivial
    exact absurd same (by decide)
  · intro produces
    have same := produces.idempotent trivial 100 id id id id
    have marks := congrArg (fun result => result.2.1) same
    exact absurd marks (by decide)

end Place
end GourdData

end HuluLandlord.Services
