import HuluLandlord.Ddz.Values

/-!
The two planes with wings, against what they are meant to be: a run of triples up to the ace, with as many single
cards or pairs as it has triples.
-/
namespace HuluLandlord.Ddz
open Table

/-- A run of triples, none of them of a 2 or a joker. -/
def IsPlane (cards : List Card) (k start : Nat) : Prop :=
  start + k ≤ 0xd ∧ ∀ j < k, 3 ≤ valueNum cards (start + j)

/-- A plane with single wings, of the largest start. -/
structure DaiDan (cards : List Card) (k weight : Nat) : Prop where
  two : 2 ≤ k
  num : cards.length = 4 * k
  kinds : k + 1 ≤ (valueKeys cards).length
  plane : IsPlane cards k weight
  largest : ∀ start, IsPlane cards k start → start ≤ weight

/-- The recogniser returns a type for the planes with single wings, and their weights. -/
structure DaiDanExact (keys : List Nat) (cards : List Card) : Prop where
  type : (isFeiJiDaiDanIn keys cards).isSome ↔ ∃ k weight, DaiDan cards k weight
  weight : ∀ weight, isFeiJiDaiDanIn keys cards = some [.plain .feiji_daidan weight] ↔ ∃ k, DaiDan cards k weight

/-- A triple with its lower neighbour held. -/
structure IsTop (cards : List Card) (v : Nat) : Prop where
  triple : 3 ≤ valueNum cards v
  above : 1 ≤ v
  next : 0 < valueNum cards (v - 1)

structure IsHighest (cards : List Card) (v : Nat) : Prop extends IsTop cards v where
  highest : ∀ u, IsTop cards u → u ≤ v

/-- No such triple lies above all planes, and where there is no plane, none ends a run that reaches the 2. -/
def NoHigherTriple (cards : List Card) (k : Nat) : Prop :=
  (∀ v, IsTop cards v → ∃ start, IsPlane cards k start ∧ v < start + k) ∨
    ((¬∃ start, IsPlane cards k start) ∧
      ∀ start, IsHighest cards (start + k - 1) → ¬∀ j < k, 3 ≤ valueNum cards (start + j))

section DaiDan
variable {cards : List Card} {keys : List Nat} {k v start weight : Nat} {acc : Option Nat}

theorem mem_keys_of_num (held : 0 < valueNum cards v) : v ∈ valueKeys cards :=
  mem_valueKeys.mpr (valueNum_pos.mp held)

theorem feiJiTopIn_snoc (cards : List Card) (keys : List Nat) (u : Nat) :
    feiJiTopIn cards (keys ++ [u]) =
      if 3 ≤ valueNum cards u ∧ (feiJiTopIn cards keys).all (fun m => m < u) ∧ 1 ≤ u ∧ 0 < valueNum cards (u - 1)
      then some u else feiJiTopIn cards keys := by
  rw [feiJiTopIn, List.foldl_append]
  rfl

/-- What the loop keeps is the highest of those it has passed. -/
theorem feiJiTopIn_spec (cards : List Card) (keys : List Nat) :
    (∀ m ∈ feiJiTopIn cards keys, IsTop cards m) ∧
      ∀ v ∈ keys, IsTop cards v → ∃ m ∈ feiJiTopIn cards keys, v ≤ m := by
  induction keys using List.reverseRecOn with
  | nil => exact ⟨fun m same => (Option.not_mem_none m same).elim, fun v mem => absurd mem List.not_mem_nil⟩
  | append_singleton keys u ih =>
      obtain ⟨sound, covers⟩ := ih
      rw [feiJiTopIn_snoc]
      split
      · rename_i taken
        obtain ⟨triple, least, above, next⟩ := taken
        refine ⟨fun m same => Option.some.inj same ▸ ⟨triple, above, next⟩, fun v mem top => ⟨u, rfl, ?_⟩⟩
        obtain old | rfl := List.mem_append.mp mem |>.imp_right List.mem_singleton.mp
        · obtain ⟨m, kept, le⟩ := covers v old top
          rw [Option.mem_def.mp kept, Option.all_some] at least
          exact le.trans (of_decide_eq_true least).le
        · exact le_rfl
      · rename_i other
        refine ⟨sound, fun v mem top => ?_⟩
        obtain old | rfl := List.mem_append.mp mem |>.imp_right List.mem_singleton.mp
        · exact covers v old top
        · cases kept : feiJiTopIn cards keys with
          | none =>
              rw [kept] at other
              exact absurd ⟨top.triple, rfl, top.above, top.next⟩ other
          | some m =>
              refine ⟨m, rfl, le_of_not_gt fun less => other ⟨top.triple, ?_, top.above, top.next⟩⟩
              rw [kept, Option.all_some]
              exact decide_eq_true less

theorem feiJiTopIn_some (perm : keys.Perm (valueKeys cards)) : feiJiTopIn cards keys = some v ↔ IsHighest cards v := by
  obtain ⟨sound, covers⟩ := feiJiTopIn_spec cards keys
  have listed {u : Nat} (top : IsTop cards u) : u ∈ keys :=
    perm.mem_iff.mpr (mem_keys_of_num (by have := top.triple; omega))
  constructor
  · intro kept
    refine ⟨sound v kept, fun u top => ?_⟩
    obtain ⟨m, same, le⟩ := covers u (listed top) top
    rw [kept] at same
    exact Option.some.inj same ▸ le
  · intro highest
    obtain ⟨m, same, le⟩ := covers v (listed highest.toIsTop) highest.toIsTop
    rw [Option.mem_def.mp same, le_antisymm (highest.highest m (sound m same)) le]

/-- The recogniser takes the run that ends with the highest such triple. -/
theorem isFeiJiDaiDanIn_some (perm : keys.Perm (valueKeys cards)) :
    isFeiJiDaiDanIn keys cards = some [.plain .feiji_daidan weight] ↔
      ∃ k, 2 ≤ k ∧ cards.length = 4 * k ∧ k + 1 ≤ (valueKeys cards).length ∧
        IsHighest cards (weight + k - 1) ∧ ∀ j < k, 3 ≤ valueNum cards (weight + j) := by
  simp only [isFeiJiDaiDanIn, perm.length_eq]
  constructor
  · intro found
    split at found
    · cases found
    split at found
    · cases found
    rename_i shape kinds
    split at found
    · cases found
    rename_i maxVal kept
    split at found
    · rename_i run
      have same : maxVal - (cards.length / 4 - 1) = weight := by simpa [CardTypeObj.plain] using found
      have highest := (feiJiTopIn_some perm).mp kept
      have below : ∀ j, 1 ≤ j → j ≤ cards.length / 4 - 1 → j ≤ maxVal ∧ 3 ≤ valueNum cards (maxVal - j) :=
        fun j least most => of_decide_eq_true (List.all_eq_true.mp run j (List.mem_range'_1.mpr (by omega)))
      have whole := (below (cards.length / 4 - 1) (by omega) le_rfl).1
      have top : weight + cards.length / 4 - 1 = maxVal := by omega
      refine ⟨cards.length / 4, by omega, by omega, by omega, top ▸ highest, fun j less => ?_⟩
      by_cases last : j = cards.length / 4 - 1
      · rw [show weight + j = maxVal by omega]
        exact highest.triple
      · rw [show weight + j = maxVal - (cards.length / 4 - 1 - j) by omega]
        exact (below _ (by omega) (by omega)).2
    · cases found
  · rintro ⟨k, two, num, kinds, highest, run⟩
    have threeNum : cards.length / 4 = k := by omega
    rw [if_neg (by omega), threeNum, if_neg (by omega), (feiJiTopIn_some perm).mpr highest]
    have all : ((List.range' 1 (k - 1)).all fun j =>
        decide (j ≤ weight + k - 1 ∧ 3 ≤ valueNum cards (weight + k - 1 - j))) = true := by
      refine List.all_eq_true.mpr fun j mem => decide_eq_true ?_
      rw [List.mem_range'_1] at mem
      refine ⟨by omega, ?_⟩
      rw [show weight + k - 1 - j = weight + (k - 1 - j) by omega]
      exact run _ (by omega)
    dsimp only
    rw [if_pos all, show weight + k - 1 - (k - 1) = weight by omega]

/-- A recogniser that returns its one type and nothing else. -/
theorem isSome_plain {found : Option (List CardTypeObj)} {type : CardType}
    (shape : ∀ objs, found = some objs → ∃ weight, [.plain type weight] = objs) :
    found.isSome ↔ ∃ weight, found = some [.plain type weight] := by
  constructor
  · intro some_
    obtain ⟨objs, here⟩ := Option.isSome_iff_exists.mp some_
    obtain ⟨weight, rfl⟩ := shape objs here
    exact ⟨weight, here⟩
  · rintro ⟨weight, here⟩
    rw [here]
    rfl

theorem isFeiJiDaiDanIn_isSome : (isFeiJiDaiDanIn keys cards).isSome ↔
    ∃ weight, isFeiJiDaiDanIn keys cards = some [.plain .feiji_daidan weight] := by
  refine isSome_plain fun objs here => ?_
  simp only [isFeiJiDaiDanIn] at here
  split at here
  · cases here
  split at here
  · cases here
  split at here
  · cases here
  split at here
  · exact ⟨_, Option.some.inj here⟩
  · cases here

/-- Of the planes that there are, one starts last. -/
theorem exists_largest (plane : IsPlane cards k start) :
    ∃ weight, IsPlane cards k weight ∧ ∀ start, IsPlane cards k start → start ≤ weight := by
  classical
  refine ⟨Nat.findGreatest (IsPlane cards k) 0xd, ?_, fun start plane => ?_⟩
  · exact Nat.findGreatest_spec (le_trans (Nat.le_add_right _ _) plane.1) plane
  · exact Nat.le_findGreatest (le_trans (Nat.le_add_right _ _) plane.1) plane

/-- The last triple of a plane has its lower neighbour. -/
theorem IsPlane.top (plane : IsPlane cards k start) (two : 2 ≤ k) : IsTop cards (start + k - 1) := by
  refine ⟨?_, by omega, ?_⟩
  · rw [show start + k - 1 = start + (k - 1) by omega]
    exact plane.2 _ (by omega)
  · rw [show start + k - 1 - 1 = start + (k - 2) by omega]
    exact Nat.lt_of_lt_of_le (by decide) (plane.2 _ (by omega))

/-- A hand of the right size is recognised as what it is if and only if no such triple is in the way. -/
theorem daiDan_exact (perm : keys.Perm (valueKeys cards)) :
    DaiDanExact keys cards ↔
      ∀ k, 2 ≤ k → cards.length = 4 * k → k + 1 ≤ (valueKeys cards).length → NoHigherTriple cards k := by
  constructor
  · intro exact_ k two num kinds
    by_cases some_ : ∃ start, IsPlane cards k start
    · obtain ⟨start, plane⟩ := some_
      obtain ⟨weight, plane, largest⟩ := exists_largest plane
      obtain ⟨k', two', num', _, highest, _⟩ :=
        (isFeiJiDaiDanIn_some perm).mp ((exact_.weight weight).mpr ⟨k, two, num, kinds, plane, largest⟩)
      obtain rfl : k' = k := by omega
      refine .inl fun v top => ⟨weight, plane, ?_⟩
      have := highest.highest v top
      omega
    · refine .inr ⟨some_, fun start highest run => ?_⟩
      have found := (isFeiJiDaiDanIn_some perm).mpr ⟨k, two, num, kinds, highest, run⟩
      obtain ⟨k', daiDan⟩ := (exact_.weight start).mp found
      obtain rfl : k' = k := by have := daiDan.num; omega
      exact some_ ⟨start, daiDan.plane⟩
  · intro clear
    have weight : ∀ weight, isFeiJiDaiDanIn keys cards = some [.plain .feiji_daidan weight] ↔
        ∃ k, DaiDan cards k weight := by
      intro weight
      rw [isFeiJiDaiDanIn_some perm]
      constructor
      · rintro ⟨k, two, num, kinds, highest, run⟩
        obtain covers | ⟨-, none_⟩ := clear k two num kinds
        · have below : ∀ start, IsPlane cards k start → start ≤ weight := fun start plane => by
            have := highest.highest _ (plane.top two)
            omega
          obtain ⟨start, plane, inside⟩ := covers _ highest.toIsTop
          obtain rfl : start = weight := le_antisymm (below start plane) (by omega)
          exact ⟨k, two, num, kinds, plane, below⟩
        · exact absurd run (none_ weight highest)
      · rintro ⟨k, two, num, kinds, plane, largest⟩
        refine ⟨k, two, num, kinds, ⟨plane.top two, fun u top => ?_⟩, plane.2⟩
        obtain covers | ⟨none_, -⟩ := clear k two num kinds
        · obtain ⟨start, plane', inside⟩ := covers u top
          have := largest start plane'
          omega
        · exact absurd ⟨weight, plane⟩ none_
    refine ⟨?_, weight⟩
    rw [isFeiJiDaiDanIn_isSome]
    constructor
    · rintro ⟨w, found⟩
      obtain ⟨k, daiDan⟩ := (weight w).mp found
      exact ⟨k, w, daiDan⟩
    · rintro ⟨k, w, daiDan⟩
      exact ⟨w, (weight w).mpr ⟨k, daiDan⟩⟩

end DaiDan

/-- Two triples and two single cards; the groups are visited from the last to the first. -/
theorem daiDan_exact_two :
    DaiDanExact [4, 3, 2, 1] [0x11, 0x21, 0x31, 0x12, 0x22, 0x32, 0x13, 0x14] := by
  refine (daiDan_exact (by decide)).mpr fun k two num kinds => .inl fun v top => ⟨1, ⟨?_, ?_⟩, ?_⟩
  · rw [show k = 2 by simp at num; omega]
    decide
  · rw [show k = 2 by simp at num; omega]
    decide
  · have small : v < 16 := by
      obtain ⟨card, -, rfl⟩ := valueNum_pos.mp (Nat.lt_of_lt_of_le (by decide) top.triple)
      exact V_lt card
    have most : ∀ v < 16, 3 ≤ valueNum [0x11, 0x21, 0x31, 0x12, 0x22, 0x32, 0x13, 0x14] v → v < 3 := by decide
    have := most v small top.triple
    omega

/-- Three aces, three 2s and two single cards are taken for a plane. -/
theorem daiDan_fail : ¬∀ keys cards, keys.Perm (valueKeys cards) → DaiDanExact keys cards := by
  intro all
  have exact_ := all [1, 2, 12, 13] [0x11, 0x12, 0x1c, 0x2c, 0x3c, 0x1d, 0x2d, 0x3d] (by decide)
  obtain ⟨k, daiDan⟩ := (exact_.weight 12).mp (by decide)
  have := daiDan.plane.1
  have := daiDan.two
  omega

/-- The cards are a run of triples up to the ace, from a value on, and as many pairs. -/
structure DaiDui (cards : List Card) (k weight : Nat) : Prop where
  two : 2 ≤ k
  least : 1 ≤ weight
  most : weight + k ≤ 0xd
  split : ∃ pairs : List Nat, pairs.length = k ∧
    (cards.map V).Perm ((List.range' weight k).flatMap (List.replicate 3) ++ pairs.flatMap (List.replicate 2))

structure DaiDuiExact (keys : List Nat) (cards : List Card) : Prop where
  type : (isFeiJiDaiDuiIn keys cards).isSome ↔ ∃ k weight, DaiDui cards k weight
  weight : ∀ weight, isFeiJiDaiDuiIn keys cards = some [.plain .feiji_daidui weight] ↔ ∃ k, DaiDui cards k weight

/-- The first triple starts a run, and the other groups are triples or even. -/
structure StartsRun (cards : List Card) (k weight : Nat) : Prop where
  two : 2 ≤ k
  num : cards.length = 5 * k
  least : 1 ≤ weight
  most : weight + k ≤ 0xd
  run : ∀ j < k, valueNum cards (weight + j) = 3
  first : ∀ v, 1 ≤ v → v < weight → valueNum cards v ≠ 3
  groups : ∀ v, valueNum cards v = 3 ∨ valueNum cards v % 2 = 0

/-- Every triple is one of the run, and no value of a plane is held more than three times. -/
def NoOtherTriple (cards : List Card) : Prop :=
  (∀ k weight, StartsRun cards k weight → ∀ v, valueNum cards v = 3 → weight ≤ v ∧ v < weight + k) ∧
    ∀ k weight, DaiDui cards k weight → ∀ j < k, valueNum cards (weight + j) = 3

section DaiDui
variable {cards : List Card} {keys : List Nat} {k v weight : Nat}

theorem count_flatMap_replicate {n : Nat} (xs : List Nat) (v : Nat) :
    (xs.flatMap (List.replicate n)).count v = n * xs.count v := by
  induction xs with
  | nil => rfl
  | cons x xs ih =>
      rw [List.flatMap_cons, List.count_append, ih, List.count_replicate, List.count_cons]
      by_cases same : x = v
      · simp [same]
        ring
      · simp [same]

theorem length_flatMap_replicate {n : Nat} (xs : List Nat) : (xs.flatMap (List.replicate n)).length = n * xs.length := by
  induction xs with
  | nil => rfl
  | cons x xs ih =>
      rw [List.flatMap_cons, List.length_append, ih, List.length_replicate, List.length_cons]
      ring

/-- A list in which each of some values stands a given number of times. -/
theorem count_flatMap_times {m : Nat → Nat} {xs : List Nat} (fresh : xs.Nodup) (v : Nat) :
    (xs.flatMap fun x => List.replicate (m x) x).count v = if v ∈ xs then m v else 0 := by
  induction xs with
  | nil => rfl
  | cons x xs ih =>
      obtain ⟨new, fresh⟩ := List.nodup_cons.mp fresh
      rw [List.flatMap_cons, List.count_append, ih fresh, List.count_replicate]
      by_cases same : x = v
      · obtain rfl := same
        simp [new]
      · simp [same, Ne.symm same]

/-- What is held of each value. -/
theorem daiDui_iff : DaiDui cards k weight ↔ 2 ≤ k ∧ cards.length = 5 * k ∧ 1 ≤ weight ∧ weight + k ≤ 0xd ∧
    ∀ v, if weight ≤ v ∧ v < weight + k then 3 ≤ valueNum cards v ∧ (valueNum cards v - 3) % 2 = 0
      else valueNum cards v % 2 = 0 := by
  have inRun (v : Nat) : (List.range' weight k).count v = if weight ≤ v ∧ v < weight + k then 1 else 0 := by
    rw [(List.nodup_range' : (List.range' weight k).Nodup).count]
    simp only [List.mem_range'_1]
  constructor
  · rintro ⟨two, least, most, pairs, length, perm⟩
    refine ⟨two, ?_, least, most, fun v => ?_⟩
    · have total := perm.length_eq
      rw [List.length_map, List.length_append, length_flatMap_replicate, length_flatMap_replicate,
        List.length_range', length] at total
      omega
    · have count := perm.count_eq v
      rw [← valueNum_eq, List.count_append, count_flatMap_replicate, count_flatMap_replicate, inRun] at count
      split
      · rename_i here
        rw [if_pos here] at count
        omega
      · rename_i other
        rw [if_neg other] at count
        omega
  · rintro ⟨two, num, least, most, groups⟩
    let rest (v : Nat) : Nat := (valueNum cards v - if weight ≤ v ∧ v < weight + k then 3 else 0) / 2
    have perm : (cards.map V).Perm ((List.range' weight k).flatMap (List.replicate 3) ++
        ((List.range 16).flatMap fun v => List.replicate (rest v) v).flatMap (List.replicate 2)) := by
      refine List.perm_iff_count.mpr fun v => ?_
      rw [← valueNum_eq, List.count_append, count_flatMap_replicate, count_flatMap_replicate, inRun,
        count_flatMap_times List.nodup_range]
      have group := groups v
      by_cases held : v ∈ List.range 16
      · rw [if_pos held]
        simp only [rest]
        split
        · rename_i here
          rw [if_pos here] at group
          omega
        · rename_i other
          rw [if_neg other] at group
          omega
      · have none_ : valueNum cards v = 0 := by
          refine Nat.eq_zero_of_not_pos fun some_ => held ?_
          obtain ⟨card, -, rfl⟩ := valueNum_pos.mp some_
          exact List.mem_range.mpr (V_lt card)
        rw [if_neg held]
        split
        · rename_i here
          rw [if_pos here] at group
          omega
        · omega
    refine ⟨two, least, most, _, ?_, perm⟩
    have total := perm.length_eq
    rw [List.length_map, List.length_append, length_flatMap_replicate, length_flatMap_replicate,
      List.length_range'] at total
    omega

theorem firstRun_some {n : Nat} (one : 1 ≤ k) : firstRun cards n k = some weight ↔
    1 ≤ weight ∧ weight + k ≤ 0xd ∧ (∀ j < k, valueNum cards (weight + j) = n) ∧
      ∀ v, 1 ≤ v → v < weight → valueNum cards v ≠ n := by
  simp only [firstRun]
  constructor
  · intro found
    split at found
    · cases found
    rename_i i first
    split at found
    · rename_i run
      obtain rfl := Option.some.inj found
      obtain ⟨here, inside, before⟩ := List.find?_range'_eq_some.mp first
      rw [List.mem_range'_1] at inside
      refine ⟨inside.1, by omega, fun j less => ?_, fun v least less => ?_⟩
      · by_cases zero : j = 0
        · rw [zero, add_zero]
          exact of_decide_eq_true here
        · exact of_decide_eq_true (List.all_eq_true.mp run j (List.mem_range'_1.mpr (by omega)))
      · simpa using before v least less
    · cases found
  · rintro ⟨least, most, run, before⟩
    have first : (List.range' 1 (0xd - k)).find? (fun i => decide (valueNum cards i = n)) = some weight := by
      refine List.find?_range'_eq_some.mpr ⟨decide_eq_true (run 0 one), List.mem_range'_1.mpr (by omega), ?_⟩
      intro v least less
      simpa using before v least less
    have all : ((List.range' 1 (k - 1)).all fun j => decide (valueNum cards (weight + j) = n)) = true := by
      refine List.all_eq_true.mpr fun j mem => decide_eq_true (run j ?_)
      rw [List.mem_range'_1] at mem
      omega
    rw [first]
    exact if_pos all

theorem all_groups (perm : keys.Perm (valueKeys cards)) :
    (keys.all fun v => valueNum cards v = 3 ∨ valueNum cards v % 2 = 0) = true ↔
      ∀ v, valueNum cards v = 3 ∨ valueNum cards v % 2 = 0 := by
  rw [List.all_eq_true]
  constructor
  · intro all v
    by_cases held : 0 < valueNum cards v
    · exact of_decide_eq_true (all v (perm.mem_iff.mpr (mem_keys_of_num held)))
    · exact .inr (by omega)
  · exact fun all v _ => decide_eq_true (all v)

theorem isFeiJiDaiDuiIn_some (perm : keys.Perm (valueKeys cards)) :
    isFeiJiDaiDuiIn keys cards = some [.plain .feiji_daidui weight] ↔
      ∃ k, StartsRun cards k weight ∧ 3 ≤ (valueKeys cards).length := by
  simp only [isFeiJiDaiDuiIn, perm.length_eq]
  constructor
  · intro found
    split at found
    · cases found
    split at found
    · cases found
    rename_i shape kinds
    split at found
    · cases found
    rename_i w run
    split at found
    · rename_i groups
      have same : w = weight := by simpa [CardTypeObj.plain] using found
      rw [same] at run
      obtain ⟨least, most, run, first⟩ := (firstRun_some (by omega)).mp run
      exact ⟨cards.length / 5, ⟨by omega, by omega, least, most, run, first, (all_groups perm).mp groups⟩, by omega⟩
    · cases found
  · rintro ⟨k, starts, kinds⟩
    have two := starts.two
    have num := starts.num
    have threeNum : cards.length / 5 = k := by omega
    rw [if_neg (by omega), if_neg (by omega), threeNum,
      (firstRun_some (by omega)).mpr ⟨starts.least, starts.most, starts.run, starts.first⟩]
    dsimp only
    rw [if_pos ((all_groups perm).mpr starts.groups)]

theorem isFeiJiDaiDuiIn_isSome : (isFeiJiDaiDuiIn keys cards).isSome ↔
    ∃ weight, isFeiJiDaiDuiIn keys cards = some [.plain .feiji_daidui weight] := by
  refine isSome_plain fun objs here => ?_
  simp only [isFeiJiDaiDuiIn] at here
  split at here
  · cases here
  split at here
  · cases here
  split at here
  · cases here
  split at here
  · exact ⟨_, Option.some.inj here⟩
  · cases here

/-- Values that are held are keys. -/
theorem length_le_keys {values : List Nat} (fresh : values.Nodup) (held : ∀ v ∈ values, 0 < valueNum cards v) :
    values.length ≤ (valueKeys cards).length :=
  (List.subperm_of_subset fresh fun v mem => mem_keys_of_num (held v mem)).length_le

theorem three_keys {u v w : Nat} (held : 0 < valueNum cards u) (held' : 0 < valueNum cards v)
    (held'' : 0 < valueNum cards w) (uv : u ≠ v) (uw : u ≠ w) (vw : v ≠ w) : 3 ≤ (valueKeys cards).length :=
  length_le_keys (by simp [uv, uw, vw] : [u, v, w].Nodup) (by simp [held, held', held''])

/-- The two values a run begins with, and another one. -/
theorem StartsRun.kinds (starts : StartsRun cards k weight) (held : 0 < valueNum cards v)
    (outside : ¬(weight ≤ v ∧ v < weight + k)) : 3 ≤ (valueKeys cards).length := by
  have two := starts.two
  have first := starts.run 0 (by omega)
  have second := starts.run 1 (by omega)
  exact three_keys (by omega) (by omega) held (u := weight + 0) (v := weight + 1) (by omega) (by omega) (by omega)

/-- A plane whose triples are no more than that, and its wings. -/
theorem DaiDui.starts (daiDui : DaiDui cards k weight) (run : ∀ j < k, valueNum cards (weight + j) = 3) :
    StartsRun cards k weight ∧ 3 ≤ (valueKeys cards).length := by
  obtain ⟨two, num, least, most, groups⟩ := daiDui_iff.mp daiDui
  have starts : StartsRun cards k weight := by
    refine ⟨two, num, least, most, run, fun v _ less => ?_, fun v => ?_⟩
    · have group := groups v
      rw [if_neg (by omega)] at group
      omega
    · have group := groups v
      split at group
      · rename_i here
        have three := run (v - weight) (by omega)
        rw [show weight + (v - weight) = v by omega] at three
        exact .inl three
      · exact .inr group
  obtain ⟨pairs, length, perm⟩ := daiDui.split
  obtain ⟨u, pair⟩ := List.exists_mem_of_length_pos (by omega : 0 < pairs.length)
  have count := perm.count_eq u
  rw [← valueNum_eq, List.count_append, count_flatMap_replicate, count_flatMap_replicate] at count
  have some_ := List.count_pos_iff.mpr pair
  refine ⟨starts, starts.kinds (v := u) (by omega) fun here => ?_⟩
  have three := run (u - weight) (by omega)
  rw [show weight + (u - weight) = u by omega] at three
  have inRun := List.count_pos_iff.mpr (List.mem_range'_1.mpr here)
  omega

theorem daiDui_exact (perm : keys.Perm (valueKeys cards)) : DaiDuiExact keys cards ↔ NoOtherTriple cards := by
  constructor
  · intro exact_
    refine ⟨fun k weight starts v three => ?_, fun k weight daiDui => ?_⟩
    · by_contra outside
      have found := (isFeiJiDaiDuiIn_some perm).mpr ⟨k, starts, starts.kinds (by omega) outside⟩
      obtain ⟨k', daiDui⟩ := (exact_.weight weight).mp found
      obtain ⟨-, num, -, -, groups⟩ := daiDui_iff.mp daiDui
      have := starts.num
      obtain rfl : k' = k := by omega
      have group := groups v
      rw [if_neg outside] at group
      omega
    · obtain ⟨k', starts, -⟩ := (isFeiJiDaiDuiIn_some perm).mp ((exact_.weight weight).mpr ⟨k, daiDui⟩)
      have := starts.num
      have := (daiDui_iff.mp daiDui).2.1
      obtain rfl : k' = k := by omega
      exact starts.run
  · rintro ⟨alone, exactly⟩
    have weight : ∀ weight, isFeiJiDaiDuiIn keys cards = some [.plain .feiji_daidui weight] ↔
        ∃ k, DaiDui cards k weight := by
      intro weight
      rw [isFeiJiDaiDuiIn_some perm]
      constructor
      · rintro ⟨k, starts, -⟩
        refine ⟨k, daiDui_iff.mpr ⟨starts.two, starts.num, starts.least, starts.most, fun v => ?_⟩⟩
        split
        · rename_i here
          have three := starts.run (v - weight) (by omega)
          rw [show weight + (v - weight) = v by omega] at three
          omega
        · rename_i outside
          exact (starts.groups v).resolve_left fun three => outside (alone k weight starts v three)
      · rintro ⟨k, daiDui⟩
        exact ⟨k, daiDui.starts (exactly k weight daiDui)⟩
    refine ⟨?_, weight⟩
    rw [isFeiJiDaiDuiIn_isSome]
    constructor
    · rintro ⟨w, found⟩
      obtain ⟨k, daiDui⟩ := (weight w).mp found
      exact ⟨k, w, daiDui⟩
    · rintro ⟨k, w, daiDui⟩
      exact ⟨w, (weight w).mpr ⟨k, daiDui⟩⟩

end DaiDui

/-- Two triples and two pairs. -/
def twoTriplesTwoPairs : List Card := [0x11, 0x21, 0x31, 0x12, 0x22, 0x32, 0x13, 0x23, 0x14, 0x24]

theorem twoTriples_num (v : Nat) : valueNum twoTriplesTwoPairs v ≤ 3 ∧
    (valueNum twoTriplesTwoPairs v = 3 → 1 ≤ v ∧ v < 3) := by
  by_cases small : v < 16
  · have all : ∀ v < 16, valueNum twoTriplesTwoPairs v ≤ 3 ∧
        (valueNum twoTriplesTwoPairs v = 3 → 1 ≤ v ∧ v < 3) := by decide
    exact all v small
  · have none_ : valueNum twoTriplesTwoPairs v = 0 := by
      refine Nat.eq_zero_of_not_pos fun held => small ?_
      obtain ⟨card, -, rfl⟩ := valueNum_pos.mp held
      exact V_lt card
    omega

theorem daiDui_exact_two : DaiDuiExact [1, 2, 3, 4] twoTriplesTwoPairs := by
  refine (daiDui_exact (by decide)).mpr ⟨fun k weight starts v three => ?_, fun k weight daiDui j less => ?_⟩
  · have two := starts.two
    have first := (twoTriples_num _).2 (starts.run 0 (by omega))
    have second := (twoTriples_num _).2 (starts.run 1 (by omega))
    have here := (twoTriples_num v).2 three
    omega
  · obtain ⟨-, -, -, -, groups⟩ := daiDui_iff.mp daiDui
    have group := groups (weight + j)
    rw [if_pos (by omega)] at group
    have most := (twoTriples_num (weight + j)).1
    omega

/-- Of five triples, three make a plane and two its wings. -/
theorem daiDui_fail : ¬∀ keys cards, keys.Perm (valueKeys cards) → DaiDuiExact keys cards := by
  intro all
  have exact_ := all [1, 2, 3, 5, 7] [0x11, 0x21, 0x31, 0x12, 0x22, 0x32, 0x13, 0x23, 0x33,
    0x15, 0x25, 0x35, 0x17, 0x27, 0x37] (by decide)
  obtain ⟨k, daiDui⟩ := (exact_.weight 1).mp (by decide)
  obtain ⟨-, num, -, -, groups⟩ := daiDui_iff.mp daiDui
  have group := groups 5
  obtain rfl : k = 3 := by
    simp only [List.length_cons, List.length_nil] at num
    omega
  revert group
  decide

end HuluLandlord.Ddz
