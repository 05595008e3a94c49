import HuluLandlord.Transition
import HuluLandlord.Wheel
import Mathlib.Data.Nat.Bitwise
import Mathlib.Tactic

/-!
The timer of the framework: a near list for each of the next 256 ticks and four levels of 64 lists.
Times are `uint32_t` and wrap; timeouts are added by any thread while the timer thread hands a list
of events out without the lock.
-/
namespace HuluLandlord.Skynet
open Transition Wheel

def TIME_NEAR_SHIFT : Nat := 8
def TIME_NEAR : Nat := 1 <<< TIME_NEAR_SHIFT
def TIME_LEVEL_SHIFT : Nat := 6
def TIME_LEVEL : Nat := 1 <<< TIME_LEVEL_SHIFT
def TIME_NEAR_MASK : Nat := TIME_NEAR - 1
def TIME_LEVEL_MASK : Nat := TIME_LEVEL - 1

structure TimerEvent where
  handle : Nat
  session : Int
  deriving DecidableEq, Repr

structure TimerNode where
  event : TimerEvent
  expire : Nat
  deriving DecidableEq, Repr

structure Timer where
  near : Nat → List TimerNode
  t : Nat → Nat → List TimerNode
  time : Nat

/-- The loop of `add_node` over the masks, with `left` rounds to go. -/
def levelLoop (time current_time : Nat) : Nat → Nat → Nat → Nat
  | 0, i, _ => i
  | left + 1, i, mask =>
      if time ||| (mask - 1) = current_time ||| (mask - 1) then i
      else levelLoop time current_time left (i + 1) (mask <<< TIME_LEVEL_SHIFT)

namespace Timer

def link_near (T : Timer) (idx : Nat) (node : TimerNode) : Timer :=
  { T with near := Function.update T.near idx (T.near idx ++ [node]) }

def link_t (T : Timer) (i idx : Nat) (node : TimerNode) : Timer :=
  { T with t := Function.update T.t i (Function.update (T.t i) idx (T.t i idx ++ [node])) }

def add_node (T : Timer) (node : TimerNode) : Timer :=
  let time := node.expire
  let current_time := T.time
  if time ||| TIME_NEAR_MASK = current_time ||| TIME_NEAR_MASK then
    T.link_near (time &&& TIME_NEAR_MASK) node
  else
    let i := levelLoop time current_time 3 0 (TIME_NEAR <<< TIME_LEVEL_SHIFT)
    T.link_t i ((time >>> (TIME_NEAR_SHIFT + i * TIME_LEVEL_SHIFT)) &&& TIME_LEVEL_MASK) node

def timer_add (T : Timer) (event : TimerEvent) (time : Nat) : Timer :=
  T.add_node ⟨event, (time + T.time) % 2 ^ 32⟩

def clear_t (T : Timer) (level idx : Nat) : Timer :=
  { T with t := Function.update T.t level (Function.update (T.t level) idx []) }

def move_list (T : Timer) (level idx : Nat) : Timer :=
  (T.t level idx).foldl add_node (T.clear_t level idx)

/-- The loop of `timer_shift`; `left` counts the levels that `t` still has. -/
def shiftLoop (T : Timer) (ct : Nat) : Nat → Nat → Nat → Nat → Timer
  | 0, _, _, _ => T
  | left + 1, mask, time, i =>
      if ct &&& (mask - 1) = 0 then
        let idx := time &&& TIME_LEVEL_MASK
        if idx ≠ 0 then T.move_list i idx
        else shiftLoop T ct left (mask <<< TIME_LEVEL_SHIFT) (time >>> TIME_LEVEL_SHIFT) (i + 1)
      else T

def timer_shift (T : Timer) : Timer :=
  let ct := (T.time + 1) % 2 ^ 32
  let T := { T with time := ct }
  if ct = 0 then T.move_list 3 0
  else shiftLoop T ct 4 TIME_NEAR (ct >>> TIME_NEAR_SHIFT) 0

/-- The list of `timer_execute`, and the timer without it. -/
def near_list (T : Timer) : List TimerNode := T.near (T.time &&& TIME_NEAR_MASK)

def clear_near (T : Timer) : Timer :=
  { T with near := Function.update T.near (T.time &&& TIME_NEAR_MASK) [] }

def timer_create_timer : Timer := ⟨fun _ => [], fun _ _ => [], 0⟩

/-- The list of a place: `near` below, the levels of `t` above. -/
def list (T : Timer) : Nat × Nat → List TimerNode
  | (0, idx) => T.near idx
  | (i + 1, idx) => T.t i idx

end Timer

/-- The bits of the blocks of `near` and of the levels. -/
def blockShift (k : Nat) : Nat := TIME_NEAR_SHIFT + k * TIME_LEVEL_SHIFT

def levelDigit (_ block : Nat) : Nat := block % TIME_LEVEL

/-- The place of a deadline of unbounded time. -/
abbrev timerPlace (due clock : Nat) : Nat × Nat := place blockShift 4 levelDigit due clock

theorem blockShift_mono : Monotone blockShift := fun _ _ le =>
  Nat.add_le_add_left (Nat.mul_le_mul_right _ le) _

theorem blockShift_succ (k : Nat) : blockShift (k + 1) = blockShift k + TIME_LEVEL_SHIFT := by
  rw [blockShift, blockShift, Nat.succ_mul, Nat.add_assoc]

section Bits
variable {a b k due clock : Nat}

/-- The low bits set, two numbers differ as their blocks do. -/
theorem or_mask_eq : (a ||| (2 ^ k - 1) = b ||| (2 ^ k - 1)) ↔ a / 2 ^ k = b / 2 ^ k := by
  constructor
  · intro same
    refine Nat.eq_of_testBit_eq fun i => ?_
    have bit := congrArg (fun n => n.testBit (k + i)) same
    simpa [Nat.testBit_or, Nat.testBit_two_pow_sub_one, Nat.testBit_div_two_pow, Nat.add_comm] using bit
  · intro same
    refine Nat.eq_of_testBit_eq fun i => ?_
    rw [Nat.testBit_or, Nat.testBit_or, Nat.testBit_two_pow_sub_one]
    by_cases low : i < k
    · simp [low]
    · have bit := congrArg (fun n => n.testBit (i - k)) same
      rw [Nat.testBit_div_two_pow, Nat.testBit_div_two_pow, Nat.sub_add_cancel (not_lt.mp low)] at bit
      rw [bit]

/-- Wrapped times that are close lie in one block where the unbounded ones do. -/
theorem wrap_block (small : k ≤ 26) (later : clock ≤ due) (near : due < clock + 2 ^ 31) :
    due % 2 ^ 32 / 2 ^ k = clock % 2 ^ 32 / 2 ^ k ↔ due / 2 ^ k = clock / 2 ^ k := by
  have digits (n : Nat) : n % 2 ^ 32 / 2 ^ k = n / 2 ^ k % 2 ^ (32 - k) := by
    rw [← Nat.mod_mul_right_div_self, ← pow_add, Nat.add_sub_cancel' (by omega)]
  rw [digits, digits]
  refine ⟨fun same => ?_, fun same => by rw [same]⟩
  have lo : clock / 2 ^ k ≤ due / 2 ^ k := Nat.div_le_div_right later
  have room : due ≤ clock + (2 ^ (32 - k) - 1) * 2 ^ k := by
    rw [Nat.sub_mul, ← pow_add, Nat.sub_add_cancel (by omega : k ≤ 32), one_mul]
    have := Nat.pow_le_pow_right (by decide : 0 < 2) (by omega : k ≤ 31)
    omega
  have hi : due / 2 ^ k ≤ (clock + (2 ^ (32 - k) - 1) * 2 ^ k) / 2 ^ k := Nat.div_le_div_right room
  rw [Nat.add_mul_div_right _ _ (Nat.two_pow_pos k)] at hi
  have pos := Nat.two_pow_pos (32 - k)
  have apart := (Nat.modEq_iff_dvd' lo).mp same.symm
  have small : due / 2 ^ k - clock / 2 ^ k < 2 ^ (32 - k) := by omega
  have := Nat.eq_zero_of_dvd_of_lt apart small
  omega

end Bits

section Places
variable {T : Timer} {node : TimerNode} {due clock m : Nat}

/-- The list that `add_node` chooses. -/
def nodePlace (time current_time : Nat) : Nat × Nat :=
  if time ||| TIME_NEAR_MASK = current_time ||| TIME_NEAR_MASK then (0, time &&& TIME_NEAR_MASK)
  else
    let i := levelLoop time current_time 3 0 (TIME_NEAR <<< TIME_LEVEL_SHIFT)
    (i + 1, (time >>> (TIME_NEAR_SHIFT + i * TIME_LEVEL_SHIFT)) &&& TIME_LEVEL_MASK)

theorem list_link_near (T : Timer) (idx : Nat) (node : TimerNode) (p : Nat × Nat) :
    (T.link_near idx node).list p = T.list p ++ if p = (0, idx) then [node] else [] := by
  obtain ⟨level, j⟩ := p
  cases level with
  | zero =>
      by_cases here : j = idx
      · simp [Timer.list, Timer.link_near, here]
      · simp [Timer.list, Timer.link_near, here]
  | succ i => simp [Timer.list, Timer.link_near]

theorem list_link_t (T : Timer) (i idx : Nat) (node : TimerNode) (p : Nat × Nat) :
    (T.link_t i idx node).list p = T.list p ++ if p = (i + 1, idx) then [node] else [] := by
  obtain ⟨level, j⟩ := p
  cases level with
  | zero => simp [Timer.list, Timer.link_t]
  | succ k =>
      by_cases same : k = i
      · subst same
        by_cases here : j = idx
        · simp [Timer.list, Timer.link_t, here]
        · simp [Timer.list, Timer.link_t, here]
      · simp [Timer.list, Timer.link_t, same]

theorem list_clear_t (T : Timer) (i idx : Nat) (p : Nat × Nat) :
    (T.clear_t i idx).list p = if p = (i + 1, idx) then [] else T.list p := by
  obtain ⟨level, j⟩ := p
  cases level with
  | zero => simp [Timer.list, Timer.clear_t]
  | succ k =>
      by_cases same : k = i
      · subst same
        by_cases here : j = idx
        · simp [Timer.list, Timer.clear_t, here]
        · simp [Timer.list, Timer.clear_t, here]
      · simp [Timer.list, Timer.clear_t, same]

theorem list_clear_near (T : Timer) (p : Nat × Nat) :
    T.clear_near.list p = if p = (0, T.time &&& TIME_NEAR_MASK) then [] else T.list p := by
  obtain ⟨level, j⟩ := p
  cases level with
  | zero =>
      by_cases here : j = T.time &&& TIME_NEAR_MASK
      · simp [Timer.list, Timer.clear_near, here]
      · simp [Timer.list, Timer.clear_near, here]
  | succ k => simp [Timer.list, Timer.clear_near]

@[simp] theorem time_add_node (T : Timer) (node : TimerNode) : (T.add_node node).time = T.time := by
  simp only [Timer.add_node]
  split <;> rfl

theorem list_add_node (T : Timer) (node : TimerNode) (p : Nat × Nat) :
    (T.add_node node).list p = T.list p ++ if p = nodePlace node.expire T.time then [node] else [] := by
  simp only [Timer.add_node, nodePlace]
  split
  · exact list_link_near T _ node p
  · exact list_link_t T _ _ node p

theorem fold_add_node (nodes : List TimerNode) (T : Timer) (p : Nat × Nat) :
    (nodes.foldl Timer.add_node T).time = T.time ∧ (nodes.foldl Timer.add_node T).list p =
      T.list p ++ nodes.filter fun node => nodePlace node.expire T.time = p := by
  induction nodes generalizing T with
  | nil => exact ⟨rfl, (List.append_nil _).symm⟩
  | cons node nodes ih =>
      obtain ⟨time, lists⟩ := ih (T.add_node node)
      rw [List.foldl_cons]
      refine ⟨time.trans (time_add_node T node), ?_⟩
      rw [lists, list_add_node, time_add_node, List.append_assoc, List.filter_cons]
      by_cases here : nodePlace node.expire T.time = p
      · rw [if_pos here.symm, if_pos (decide_eq_true here), List.singleton_append]
      · rw [if_neg (Ne.symm here), if_neg (by simpa using here), List.nil_append]

/-- A list of one level is dealt out to the others. -/
theorem list_move_list (T : Timer) (i idx : Nat) (p : Nat × Nat) :
    (T.move_list i idx).list p = (if p = (i + 1, idx) then [] else T.list p) ++
      (T.list (i + 1, idx)).filter fun node => nodePlace node.expire T.time = p := by
  rw [Timer.move_list, (fold_add_node _ _ p).2, list_clear_t]
  rfl

theorem time_move_list (T : Timer) (i idx : Nat) : (T.move_list i idx).time = T.time :=
  (fold_add_node (T.t i idx) (T.clear_t i idx) (0, 0)).1

/-- The loop finds the level of the wheel, one less for the near lists. -/
theorem levelLoop_eq {a c i left : Nat} (rounds : i + left = 3) (apart : i < level blockShift 4 a c) :
    levelLoop a c left i (2 ^ blockShift (i + 1)) + 1 = level blockShift 4 a c := by
  induction left generalizing i with
  | zero =>
      have most := level_le blockShift 4 a c
      rw [levelLoop]
      omega
  | succ left ih =>
      rw [levelLoop]
      have here := @level_le_iff _ 4 a c (i + 1) blockShift_mono (by omega)
      split
      · rename_i same
        have := here.mpr (or_mask_eq.mp same)
        omega
      · rename_i other
        have further : i + 1 < level blockShift 4 a c :=
          not_le.mp fun le => other (or_mask_eq.mpr (here.mp le))
        have doubled : 2 ^ blockShift (i + 1) <<< TIME_LEVEL_SHIFT = 2 ^ blockShift (i + 1 + 1) := by
          rw [Nat.shiftLeft_eq, ← pow_add, ← blockShift_succ]
        rw [doubled]
        exact ih (by omega) further

theorem shift_and (a k : Nat) : (a >>> k) &&& TIME_LEVEL_MASK = a / 2 ^ k % 64 := by
  rw [Nat.shiftRight_eq_div_pow]
  exact Nat.and_two_pow_sub_one_eq_mod _ 6

theorem wrap_digit {n k : Nat} (room : k + 6 ≤ 32) : n % 2 ^ 32 / 2 ^ k % 64 = n / 2 ^ k % 64 := by
  change _ % 2 ^ 6 = _ % 2 ^ 6
  rw [show (32 : Nat) = k + (32 - k) by omega, pow_add, Nat.mod_mul_right_div_self,
    Nat.mod_mod_of_dvd _ (pow_dvd_pow 2 (by omega : 6 ≤ 32 - k))]

theorem blockShift_room {k : Nat} (inside : k < 4) : blockShift k + 6 ≤ 32 := by
  rw [blockShift, TIME_NEAR_SHIFT, TIME_LEVEL_SHIFT]
  omega

/-- The code's place is that of the wheel, also where the times have wrapped. -/
theorem nodePlace_eq (later : clock ≤ due) (near : due < clock + 2 ^ 31) :
    nodePlace (due % 2 ^ 32) (clock % 2 ^ 32) = timerPlace due clock := by
  have levels : level blockShift 4 (due % 2 ^ 32) (clock % 2 ^ 32) = level blockShift 4 due clock := by
    have same (k : Nat) (room : k < 4) :
        (due % 2 ^ 32 / 2 ^ blockShift k = clock % 2 ^ 32 / 2 ^ blockShift k) ↔
          due / 2 ^ blockShift k = clock / 2 ^ blockShift k :=
      wrap_block (by rw [blockShift, TIME_NEAR_SHIFT, TIME_LEVEL_SHIFT]; omega) later near
    rw [level, level]
    congr 1
    refine List.find?_congr fun k mem => decide_eq_decide.mpr (same k (List.mem_range.mp mem))
  have lowest : (due % 2 ^ 32 ||| TIME_NEAR_MASK = clock % 2 ^ 32 ||| TIME_NEAR_MASK) ↔
      level blockShift 4 due clock = 0 := by
    rw [← Nat.le_zero, ← levels, level_le_iff blockShift_mono (by decide)]
    exact or_mask_eq (k := 8)
  rw [nodePlace, timerPlace, place]
  cases levelled : level blockShift 4 due clock with
  | zero =>
      rw [if_pos (lowest.mpr levelled)]
      refine Prod.ext rfl ?_
      change due % 2 ^ 32 &&& (2 ^ 8 - 1) = due % 2 ^ 8
      rw [Nat.and_two_pow_sub_one_eq_mod, Nat.mod_mod_of_dvd _ (by decide)]
  | succ k =>
      have found := @levelLoop_eq (due % 2 ^ 32) (clock % 2 ^ 32) 0 3 rfl (by rw [levels, levelled]; omega)
      rw [levels, levelled] at found
      have top := level_le blockShift 4 due clock
      rw [if_neg fun zero => by rw [lowest.mp zero] at levelled; omega]
      have loop : levelLoop (due % 2 ^ 32) (clock % 2 ^ 32) 3 0 (TIME_NEAR <<< TIME_LEVEL_SHIFT) = k :=
        Nat.succ_injective found
      simp only [loop, shift_and]
      refine Prod.ext rfl ?_
      exact wrap_digit (blockShift_room (by omega))

end Places

section Shift
variable {T : Timer} {clock m : Nat}

theorem and_mask_eq (a k : Nat) : a &&& (2 ^ k - 1) = a % 2 ^ k := Nat.and_two_pow_sub_one_eq_mod a k

/-- The digit of a level is zero just where the block of the next one ends too. -/
theorem digit_eq_zero {a k : Nat} (ends : 2 ^ k ∣ a) : a / 2 ^ k % 64 = 0 ↔ 2 ^ (k + TIME_LEVEL_SHIFT) ∣ a := by
  obtain ⟨b, rfl⟩ := ends
  rw [Nat.mul_div_cancel_left _ (Nat.two_pow_pos k), pow_add, Nat.mul_dvd_mul_iff_left (Nat.two_pow_pos k)]
  exact (Nat.dvd_iff_mod_eq_zero).symm

theorem dvd_wrap {a k : Nat} (room : k ≤ 32) : 2 ^ k ∣ a % 2 ^ 32 ↔ 2 ^ k ∣ a :=
  Nat.dvd_mod_iff (pow_dvd_pow 2 room)

theorem shiftLoop_eq (turns : Turns blockShift 4 clock m) (some_ : (clock + 1) % 2 ^ 32 ≠ 0) {i left : Nat}
    (rounds : i + left = 4) (le : i ≤ m) :
    T.shiftLoop ((clock + 1) % 2 ^ 32) left (2 ^ blockShift i) ((clock + 1) % 2 ^ 32 / 2 ^ blockShift i) i =
      T.move_list m ((clock + 1) % 2 ^ 32 / 2 ^ blockShift m % 64) := by
  have inside := turns.inside
  have room {k : Nat} (small : k < 5) : blockShift k ≤ 32 := by
    rw [blockShift, TIME_NEAR_SHIFT, TIME_LEVEL_SHIFT]
    omega
  induction left generalizing i with
  | zero => omega
  | succ left ih =>
      have ends {k : Nat} (le : k ≤ m) : 2 ^ blockShift k ∣ (clock + 1) % 2 ^ 32 :=
        (dvd_wrap (room (by omega))).mpr ((pow_dvd_pow 2 (blockShift_mono le)).trans turns.ends)
      have idx (a : Nat) : a &&& TIME_LEVEL_MASK = a % 64 := and_mask_eq a 6
      have zero_iff := digit_eq_zero (ends le)
      rw [← blockShift_succ] at zero_iff
      rw [Timer.shiftLoop, if_pos ((and_mask_eq _ _).trans (Nat.mod_eq_zero_of_dvd (ends le))), idx]
      obtain rfl | less := Nat.eq_or_lt_of_le le
      · refine if_pos fun zero => ?_
        have next := zero_iff.mp zero
        by_cases top : i + 1 < 4
        · exact turns.above _ (Nat.lt_succ_self i) top ((dvd_wrap (room (by omega))).mp next)
        · obtain rfl : i = 3 := by omega
          exact some_ (Nat.eq_zero_of_dvd_of_lt next (Nat.mod_lt _ (by decide)))
      · rw [if_neg (not_not.mpr (zero_iff.mpr (ends less))), Nat.shiftLeft_eq, ← pow_add, ← blockShift_succ,
          Nat.shiftRight_eq_div_pow, Nat.div_div_eq_div_mul, ← pow_add, ← blockShift_succ]
        exact ih (by omega) less

theorem timer_shift_still (time : T.time = clock % 2 ^ 32) (still : ¬2 ^ blockShift 0 ∣ clock + 1) :
    T.timer_shift = { T with time := (clock + 1) % 2 ^ 32 } := by
  have next : (T.time + 1) % 2 ^ 32 = (clock + 1) % 2 ^ 32 := by rw [time, Nat.mod_add_mod]
  have low : (clock + 1) % 2 ^ 32 &&& (TIME_NEAR - 1) ≠ 0 := by
    intro zero
    have whole := Nat.dvd_of_mod_eq_zero ((and_mask_eq ((clock + 1) % 2 ^ 32) 8).symm.trans zero)
    exact still ((dvd_wrap (by decide)).mp whole)
  rw [Timer.timer_shift]
  simp only [next]
  rw [if_neg fun zero => by rw [zero] at low; exact low (Nat.zero_and _)]
  exact if_neg low

theorem timer_shift_turns (time : T.time = clock % 2 ^ 32) (turns : Turns blockShift 4 clock m) :
    T.timer_shift = { T with time := (clock + 1) % 2 ^ 32 }.move_list m
      (levelDigit m ((clock + 1) / 2 ^ blockShift m)) := by
  have next : (T.time + 1) % 2 ^ 32 = (clock + 1) % 2 ^ 32 := by rw [time, Nat.mod_add_mod]
  have inside := turns.inside
  have digit : (clock + 1) % 2 ^ 32 / 2 ^ blockShift m % 64 = levelDigit m ((clock + 1) / 2 ^ blockShift m) :=
    wrap_digit (blockShift_room turns.inside)
  rw [Timer.timer_shift]
  simp only [next]
  by_cases wrapped : (clock + 1) % 2 ^ 32 = 0
  · obtain rfl : m = 3 := by
      by_contra other
      refine turns.above 3 (by omega) (by decide) ?_
      exact (pow_dvd_pow 2 (by decide)).trans (Nat.dvd_of_mod_eq_zero wrapped)
    rw [if_pos wrapped, ← digit, wrapped]
    rfl
  · rw [if_neg wrapped, ← digit]
    rw [Nat.shiftRight_eq_div_pow]
    exact @shiftLoop_eq { T with time := (clock + 1) % 2 ^ 32 } clock m turns wrapped 0 4 rfl (Nat.zero_le m)

end Shift

end HuluLandlord.Skynet
