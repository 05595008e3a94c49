import Mathlib.Data.List.Basic
import Mathlib.Data.Nat.Prime.Basic
import Mathlib.Order.Monotone.Basic
import Mathlib.Tactic

/-!
Hierarchical timing wheels over unbounded time. Level `k` tells times apart by the block of
`2 ^ shift k` they lie in; a deadline waits at the first level at which it cannot be told from
the present, in the place given by its digit there. When the clock passes the end of a block,
one place of one level is dealt out again to the levels below.
-/
namespace HuluLandlord.Wheel

variable {shift : Nat → Nat} {n a c d k m : Nat}

/-- The first level at which the two times lie in one block, or `n`. -/
def level (shift : Nat → Nat) (n a c : Nat) : Nat :=
  ((List.range n).find? fun k => a / 2 ^ shift k = c / 2 ^ shift k).getD n

theorem level_le (shift : Nat → Nat) (n a c : Nat) : level shift n a c ≤ n := by
  rw [level]
  cases found : (List.range n).find? fun k => a / 2 ^ shift k = c / 2 ^ shift k with
  | none => exact le_rfl
  | some k => exact (List.mem_range.mp (List.mem_of_find?_eq_some found)).le

theorem same_block_mono (mono : Monotone shift) (le : m ≤ k) (same : a / 2 ^ shift m = c / 2 ^ shift m) :
    a / 2 ^ shift k = c / 2 ^ shift k := by
  have larger : shift k = shift m + (shift k - shift m) := (Nat.add_sub_cancel' (mono le)).symm
  rw [larger, pow_add, ← Nat.div_div_eq_div_mul, ← Nat.div_div_eq_div_mul, same]

/-- Blocks of a level lie in one block of every higher level. -/
theorem level_le_iff (mono : Monotone shift) (room : k < n) :
    level shift n a c ≤ k ↔ a / 2 ^ shift k = c / 2 ^ shift k := by
  rw [level]
  cases found : (List.range n).find? fun k => a / 2 ^ shift k = c / 2 ^ shift k with
  | none =>
      refine iff_of_false (not_le.mpr room) fun same => ?_
      exact List.find?_eq_none.mp found k (List.mem_range.mpr room) (decide_eq_true same)
  | some m =>
      obtain ⟨here, -, before⟩ := List.find?_range_eq_some.mp found
      refine ⟨fun le => same_block_mono mono le (of_decide_eq_true here), fun same => ?_⟩
      by_contra more
      simpa [same] using before k (not_le.mp more)

/-- The block that the clock leaves with the step from `c`. -/
theorem succ_block (c s : Nat) : (c + 1) / 2 ^ s = c / 2 ^ s + if 2 ^ s ∣ c + 1 then 1 else 0 :=
  Nat.succ_div

/-- The step from `c` ends the blocks of the levels up to `m`, and no others. -/
structure Turns (shift : Nat → Nat) (n c m : Nat) : Prop where
  inside : m < n
  ends : 2 ^ shift m ∣ c + 1
  above : ∀ k, m < k → k < n → ¬2 ^ shift k ∣ c + 1

theorem exists_turns (ends : 2 ^ shift 0 ∣ c + 1) (some_ : 0 < n) : ∃ m, Turns shift n c m := by
  refine ⟨Nat.findGreatest (fun k => 2 ^ shift k ∣ c + 1) (n - 1), ?_, ?_, fun k more room => ?_⟩
  · have := Nat.findGreatest_le (P := fun k => 2 ^ shift k ∣ c + 1) (n - 1)
    omega
  · exact Nat.findGreatest_spec (P := fun k => 2 ^ shift k ∣ c + 1) (Nat.zero_le _) ends
  · exact Nat.findGreatest_is_greatest (P := fun k => 2 ^ shift k ∣ c + 1) more (by omega)

/-- A step within a block of the lowest level changes no level. -/
theorem level_still (mono : Monotone shift) (still : ¬2 ^ shift 0 ∣ c + 1) :
    level shift n a (c + 1) = level shift n a c := by
  have same (k : Nat) : (c + 1) / 2 ^ shift k = c / 2 ^ shift k := by
    rw [succ_block, if_neg, add_zero]
    exact fun ends => still ((pow_dvd_pow 2 (mono (Nat.zero_le k))).trans ends)
  simp only [level, same]

section Turns
variable (mono : Monotone shift) (turns : Turns shift n c m)
include mono turns

/-- What lies ahead is not in a block that ends. -/
theorem Turns.level_lt (ahead : c < d) : m < level shift n d c := by
  rw [← not_le, level_le_iff mono turns.inside]
  have later : (c + 1) / 2 ^ shift m ≤ d / 2 ^ shift m := Nat.div_le_div_right ahead
  rw [succ_block, if_pos turns.ends] at later
  omega

theorem Turns.level_drop (reached : d / 2 ^ shift m = (c + 1) / 2 ^ shift m) :
    level shift n d (c + 1) ≤ m :=
  (level_le_iff mono turns.inside).mpr reached

theorem Turns.level_eq (ahead : c < d) (apart : d / 2 ^ shift m ≠ (c + 1) / 2 ^ shift m) :
    level shift n d (c + 1) = level shift n d c := by
  have now := turns.level_lt mono ahead
  have next : m < level shift n d (c + 1) :=
    not_le.mp fun le => apart ((level_le_iff mono turns.inside).mp le)
  -- above `m` the clock stays in its blocks
  have same (k : Nat) (more : m < k) (room : k < n) :
      level shift n d (c + 1) ≤ k ↔ level shift n d c ≤ k := by
    rw [level_le_iff mono room, level_le_iff mono room, succ_block, if_neg (turns.above k more room), add_zero]
  have most := level_le shift n d c
  have most' := level_le shift n d (c + 1)
  refine le_antisymm ?_ ?_
  · obtain last | room := Nat.eq_or_lt_of_le most
    · exact most'.trans last.ge
    · exact (same _ now room).mpr le_rfl
  · obtain last | room := Nat.eq_or_lt_of_le most'
    · exact most.trans last.ge
    · exact (same _ next room).mp le_rfl

theorem Turns.level_top (ahead : c < d) (reached : d / 2 ^ shift m = (c + 1) / 2 ^ shift m) :
    level shift n d c = m + 1 := by
  refine le_antisymm ?_ (turns.level_lt mono ahead)
  obtain last | room := Nat.eq_or_lt_of_le turns.inside
  · exact last ▸ level_le shift n d c
  · rw [level_le_iff mono room, same_block_mono mono (Nat.le_succ m) reached, succ_block,
      if_neg (turns.above _ (Nat.lt_succ_self m) room), add_zero]

end Turns

/-- The place of a deadline: its level and its digit there. -/
def place (shift : Nat → Nat) (n : Nat) (digit : Nat → Nat → Nat) (d c : Nat) : Nat × Nat :=
  match level shift n d c with
  | 0 => (0, d % 2 ^ shift 0)
  | k + 1 => (k + 1, digit k (d / 2 ^ shift k))

theorem place_fst (shift : Nat → Nat) (n : Nat) (digit : Nat → Nat → Nat) (d c : Nat) :
    (place shift n digit d c).1 = level shift n d c := by
  rw [place]
  split <;> simp_all

theorem place_of_level {digit : Nat → Nat → Nat} {c' : Nat} (same : level shift n d c = level shift n d c') :
    place shift n digit d c = place shift n digit d c' := by
  rw [place, place, same]

section Lists
variable {δ : Type*} {due : δ → Nat} {ds : List δ}

/-- Dealing out the place that the clock has reached puts every deadline where it belongs from then
on, those of one place still in their order. -/
theorem Turns.lists (digit : Nat → Nat → Nat) (mono : Monotone shift) (turns : Turns shift n c m) (ahead : ∀ x ∈ ds, c < due x)
    (p : Nat × Nat) :
    (if p = (m + 1, digit m ((c + 1) / 2 ^ shift m)) then []
      else ds.filter fun x => place shift n digit (due x) c = p) ++
      (ds.filter fun x => place shift n digit (due x) c = (m + 1, digit m ((c + 1) / 2 ^ shift m))).filter
        (fun x => place shift n digit (due x) (c + 1) = p) =
    ds.filter fun x => place shift n digit (due x) (c + 1) = p := by
  set q : Nat × Nat := (m + 1, digit m ((c + 1) / 2 ^ shift m)) with hq
  have low (x : δ) (mem : x ∈ ds) : m < (place shift n digit (due x) c).1 := by
    rw [place_fst]
    exact turns.level_lt mono (ahead x mem)
  have stays (x : δ) (mem : x ∈ ds) (other : place shift n digit (due x) c ≠ q) :
      place shift n digit (due x) (c + 1) = place shift n digit (due x) c := by
    refine place_of_level (turns.level_eq mono (ahead x mem) fun reached => other ?_)
    rw [place, turns.level_top mono (ahead x mem) reached, hq, ← reached]
  have drops (x : δ) (mem : x ∈ ds) (here : place shift n digit (due x) c = q) :
      place shift n digit (due x) (c + 1) = q ∨ (place shift n digit (due x) (c + 1)).1 ≤ m := by
    by_cases reached : due x / 2 ^ shift m = (c + 1) / 2 ^ shift m
    · right
      rw [place_fst]
      exact turns.level_drop mono reached
    · left
      exact (place_of_level (turns.level_eq mono (ahead x mem) reached)).trans here
  rw [List.filter_filter]
  by_cases same : p = q
  · rw [if_pos same, List.nil_append]
    refine List.filter_congr fun x mem => ?_
    rw [Bool.and_eq_left_iff_imp, decide_eq_true_eq, decide_eq_true_eq]
    intro there
    by_contra other
    exact other ((stays x mem other).symm.trans (there.trans same))
  rw [if_neg same]
  by_cases below : p.1 ≤ m
  · have none_ : (ds.filter fun x => decide (place shift n digit (due x) c = p)) = [] := by
      refine List.filter_eq_nil_iff.mpr fun x mem here => ?_
      have := low x mem
      rw [of_decide_eq_true here] at this
      omega
    rw [none_, List.nil_append]
    refine List.filter_congr fun x mem => ?_
    rw [Bool.and_eq_left_iff_imp, decide_eq_true_eq, decide_eq_true_eq]
    intro there
    by_contra other
    have := low x mem
    rw [← stays x mem other, there] at this
    omega
  · have none_ : (ds.filter fun x => decide (place shift n digit (due x) (c + 1) = p) &&
        decide (place shift n digit (due x) c = q)) = [] := by
      refine List.filter_eq_nil_iff.mpr fun x mem both => ?_
      obtain ⟨there, here⟩ := Bool.and_eq_true_iff.mp both
      obtain still | less := drops x mem (of_decide_eq_true here)
      · exact same ((of_decide_eq_true there).symm.trans still)
      · exact below (of_decide_eq_true there ▸ less)
    rw [none_, List.append_nil]
    refine List.filter_congr fun x mem => decide_eq_decide.mpr ?_
    by_cases here : place shift n digit (due x) c = q
    · refine iff_of_false (fun there => same (there.symm.trans here)) fun there => ?_
      obtain still | less := drops x mem here
      · exact same (there.symm.trans still)
      · exact below (there ▸ less)
    · rw [stays x mem here]

end Lists

end HuluLandlord.Wheel
