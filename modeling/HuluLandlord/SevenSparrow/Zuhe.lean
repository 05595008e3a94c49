import HuluLandlord.Shuffle
import Mathlib.Data.List.Sublists
import Mathlib.Data.List.Chain
import Mathlib.Data.List.TakeWhile
import Mathlib.Data.List.FinRange

/-!
The choices of `n` elements out of a table. A vector of flags tells which elements are chosen; the
next vector moves the first one that a zero follows past that zero, and pushes the ones before
it to the front. The vectors come in the order of binary numbers whose first digit is the lowest.
-/
namespace HuluLandlord.SevenSparrow
open Shuffle

section Tool
variable {α : Type*}

/-- The first `n` flags are set. -/
def firstMeta (len n : Nat) : List Bool := (List.range len).map fun i => i < n

def chosen (atable : List α) (m : List Bool) : List α :=
  ((atable.zip m).filter fun entry => entry.2).map Prod.fst

def zero_count (len n : Nat) (m : List Bool) : Nat :=
  ((m.take (len - n)).takeWhile fun flag => !flag).length

/-- Where the first one stands that a zero follows. -/
def swapIdx (len : Nat) (m : List Bool) : Option Nat :=
  (List.range (len - 1)).find? fun j => m[j]? = some true ∧ m[j + 1]? = some false

/-- A turn of the inner loop. -/
def pushOne (m : List Bool) (i : Nat) : List Bool :=
  if m[i]? = some true then swapAt m i (i - 1) else m

/-- The inner loop, from place `k` of the array down to the second. -/
def pushPass (k : Nat) (m : List Bool) : List Bool :=
  (List.range' 1 (k - 1)).reverse.foldl pushOne m

/-- There is no next vector where no one stands before a zero: `idx` is `nil`. -/
def nextMeta (len : Nat) (m : List Bool) : Option (List Bool) :=
  (swapIdx len m).map fun idx => (pushPass idx)^[idx + 1] (swapAt m idx (idx + 1))

/-- The endless loop, for as many turns as there is fuel. -/
def zuheLoop (atable : List α) (n : Nat) :
    Nat → List Bool → List (List α) → Option (List (List α))
  | 0, _, _ => none
  | fuel + 1, m, result =>
      if zero_count atable.length n m = atable.length - n then some result
      else (nextMeta atable.length m).bind fun m =>
        zuheLoop atable n fuel m (result ++ [chosen atable m])

def zuhe (fuel : Nat) (atable : List α) (n : Nat) : Option (List (List α)) :=
  if n > atable.length then some []
  else zuheLoop atable n fuel (firstMeta atable.length n)
    [chosen atable (firstMeta atable.length n)]

end Tool

/-- The vectors of `n` ones, as binary numbers in rising order. -/
def masks : Nat → Nat → List (List Bool)
  | 0, 0 => [[]]
  | 0, _ + 1 => []
  | len + 1, 0 => (masks len 0).map (· ++ [false])
  | len + 1, n + 1 => (masks len (n + 1)).map (· ++ [false]) ++ (masks len n).map (· ++ [true])

abbrev zeros (a : Nat) : List Bool := List.replicate a false

abbrev ones (b : Nat) : List Bool := List.replicate b true

section Push
variable {a b c len n t : Nat} {m m' front rest : List Bool}

theorem swapAt_back (front : List Bool) (x y : Bool) (rest : List Bool) :
    swapAt (front ++ x :: y :: rest) (front.length + 1) front.length =
      front ++ y :: x :: rest := by
  simp [swapAt]

theorem swapAt_ahead (front : List Bool) (x y : Bool) (rest : List Bool) :
    swapAt (front ++ x :: y :: rest) front.length (front.length + 1) =
      front ++ y :: x :: rest := by
  simp [swapAt]

theorem pushPass_succ (k : Nat) (m : List Bool) :
    pushPass (k + 2) m = pushPass (k + 1) (pushOne m (k + 1)) := by
  simp only [pushPass, Nat.add_sub_cancel, Nat.add_one_sub_one]
  rw [List.range'_1_concat, List.reverse_append, List.foldl_append, Nat.add_comm 1 k]
  rfl

/-- A one is carried to the front, past whatever stands before it. -/
theorem pushPass_carry (front rest : List Bool) :
    pushPass (front.length + 1) (front ++ true :: rest) = true :: (front ++ rest) := by
  induction front using List.reverseRecOn generalizing rest with
  | nil => rfl
  | append_singleton front x ih =>
      rw [List.length_append, List.length_singleton, pushPass_succ, List.append_assoc,
        List.singleton_append, pushOne, if_pos (by simp), Nat.add_sub_cancel, swapAt_back, ih,
        List.append_assoc, List.singleton_append]

/-- A zero is passed over. -/
theorem pushPass_zero (front rest : List Bool) (some_left : front ≠ []) :
    pushPass (front.length + 1) (front ++ false :: rest) =
      pushPass front.length (front ++ false :: rest) := by
  obtain ⟨x, front, rfl⟩ := List.exists_cons_of_ne_nil some_left
  rw [List.length_cons, pushPass_succ, pushOne, if_neg (by simp)]

theorem pushPass_zeros (front rest : List Bool) (some_left : front ≠ []) :
    pushPass (front.length + a) (front ++ (zeros a ++ rest)) =
      pushPass front.length (front ++ (zeros a ++ rest)) := by
  induction a generalizing rest with
  | zero => rfl
  | succ a ih =>
      have last : zeros (a + 1) ++ rest = zeros a ++ false :: rest := by
        rw [zeros, List.replicate_succ', List.append_assoc, List.singleton_append]
      have here := pushPass_zero (front ++ zeros a) rest (by simp [some_left])
      rw [List.length_append, List.length_replicate, List.append_assoc] at here
      rw [last, ← Nat.add_assoc, here, ih]

/-- A pass over pushed ones, zeros and ones pushes one more. -/
theorem pushPass_one (t a c : Nat) (rest : List Bool) :
    pushPass (t + a + (c + 1)) (ones t ++ (zeros a ++ (ones (c + 1) ++ rest))) =
      ones (t + 1) ++ (zeros a ++ (ones c ++ rest)) := by
  have carried := pushPass_carry (ones t ++ (zeros a ++ ones c)) rest
  simp only [List.length_append, List.length_replicate, List.append_assoc] at carried
  have last : ones (c + 1) ++ rest = ones c ++ true :: rest := by
    rw [ones, List.replicate_succ', List.append_assoc, List.singleton_append]
  rw [last, ← Nat.add_assoc, Nat.add_assoc t, carried]
  rfl

theorem pushPass_done (t a : Nat) (rest : List Bool) :
    pushPass (t + a) (ones t ++ (zeros a ++ rest)) = ones t ++ (zeros a ++ rest) := by
  cases t with
  | zero =>
      cases a with
      | zero => rfl
      | succ a =>
          have zeros_only := @pushPass_zeros a [false] rest (by simp)
          rw [List.length_singleton, Nat.add_comm 1 a] at zeros_only
          rw [Nat.zero_add]
          exact zeros_only
  | succ t =>
      have carried := pushPass_carry (ones t) (zeros a ++ rest)
      have zeros_over := @pushPass_zeros a (ones (t + 1)) rest (by simp [ones])
      rw [List.length_replicate] at carried zeros_over
      have last : ones (t + 1) ++ (zeros a ++ rest) = ones t ++ true :: (zeros a ++ rest) := by
        rw [ones, List.replicate_succ', List.append_assoc, List.singleton_append]
      rw [zeros_over, last, carried, ← last]
      rfl

/-- Enough passes push all ones. -/
theorem pushPass_all (turns t a c : Nat) (rest : List Bool) (enough : c ≤ turns) :
    (pushPass (t + a + c))^[turns] (ones t ++ (zeros a ++ (ones c ++ rest))) =
      ones (t + c) ++ (zeros a ++ rest) := by
  induction turns generalizing t c with
  | zero =>
      obtain rfl := Nat.le_zero.mp enough
      rfl
  | succ turns ih =>
      rw [Function.iterate_succ_apply]
      cases c with
      | zero =>
          have same := ih t 0 (Nat.zero_le _)
          exact (congrArg _ (pushPass_done t a rest)).trans same
      | succ c =>
          rw [pushPass_one, show t + a + (c + 1) = t + 1 + a + c by omega,
            ih (t + 1) c (by omega), show t + 1 + c = t + (c + 1) by omega]

theorem swapIdx_block (a b : Nat) (rest : List Bool) :
    swapIdx (a + (b + 1) + 1 + rest.length)
      (zeros a ++ (ones (b + 1) ++ false :: rest)) = some (a + b) := by
  rw [swapIdx, List.find?_range_eq_some]
  refine ⟨?_, ?_, fun j before => ?_⟩
  · have place : a + b + 1 - a - (b + 1) = 0 := by omega
    simp [List.getElem?_append, List.getElem?_replicate, place, Nat.add_comm b a,
      show ¬a + b + 1 < a by omega]
  · rw [List.mem_range]
    omega
  · simp only [List.getElem?_append, List.getElem?_replicate, List.length_replicate]
    by_cases zero : j < a
    · simp [zero]
    · simp [show j + 1 - a < b + 1 by omega, show ¬j + 1 < a by omega]

/-- The next vector of zeros, ones and a zero. -/
theorem nextMeta_block (a b : Nat) (rest : List Bool) :
    nextMeta (a + (b + 1) + 1 + rest.length)
      (zeros a ++ (ones (b + 1) ++ false :: rest)) =
        some (ones b ++ (zeros (a + 1) ++ true :: rest)) := by
  have swapped := swapAt_ahead (zeros a ++ ones b) true false rest
  have pushed := pushPass_all (a + b + 1) 0 a b (false :: true :: rest) (by omega)
  simp only [List.length_append, List.length_replicate, List.append_assoc] at swapped
  rw [Nat.zero_add, Nat.zero_add] at pushed
  have last : ones (b + 1) ++ false :: rest = ones b ++ true :: false :: rest := by
    rw [ones, List.replicate_succ', List.append_assoc, List.singleton_append]
  rw [nextMeta, swapIdx_block, Option.map_some, last, swapped]
  refine congrArg some (pushed.trans ?_)
  rw [zeros, zeros, List.replicate_succ', List.append_assoc, List.singleton_append]

/-- A vector has all zeros first, or a block of ones that a zero follows. -/
theorem sorted_or_block (m : List Bool) : (∃ a b, m = zeros a ++ ones b) ∨
    ∃ a b rest, m = zeros a ++ (ones (b + 1) ++ false :: rest) := by
  induction m with
  | nil => exact .inl ⟨0, 0, rfl⟩
  | cons flag m ih =>
      cases flag with
      | false =>
          cases ih with
          | inl sorted =>
              obtain ⟨a, b, rfl⟩ := sorted
              exact .inl ⟨a + 1, b, rfl⟩
          | inr block =>
              obtain ⟨a, b, rest, rfl⟩ := block
              exact .inr ⟨a + 1, b, rest, rfl⟩
      | true =>
          cases ih with
          | inl sorted =>
              obtain ⟨a, b, rfl⟩ := sorted
              cases a with
              | zero => exact .inl ⟨0, b + 1, rfl⟩
              | succ a => exact .inr ⟨0, 0, zeros a ++ ones b, rfl⟩
          | inr block =>
              obtain ⟨a, b, rest, rfl⟩ := block
              cases a with
              | zero => exact .inr ⟨0, b + 1, rest, rfl⟩
              | succ a => exact .inr ⟨0, 0, zeros a ++ (ones (b + 1) ++ false :: rest), rfl⟩

theorem nextMeta_sorted (a b : Nat) : nextMeta len (zeros a ++ ones b) = none := by
  rw [nextMeta, Option.map_eq_none_iff, swapIdx, List.find?_eq_none]
  intro j _
  simp only [List.getElem?_append, List.getElem?_replicate, List.length_replicate]
  by_cases zero : j < a
  · simp [zero]
  · simp [show ¬j + 1 < a by omega]

/-- What stands after the block stays. -/
theorem nextMeta_snoc (flag : Bool) (sized : m.length = len)
    (moves : nextMeta len m = some m') :
    nextMeta (len + 1) (m ++ [flag]) = some (m' ++ [flag]) := by
  cases sorted_or_block m with
  | inl sorted =>
      obtain ⟨a, b, rfl⟩ := sorted
      rw [nextMeta_sorted] at moves
      cases moves
  | inr block =>
      obtain ⟨a, b, rest, rfl⟩ := block
      have before := nextMeta_block a b rest
      have after := nextMeta_block a b (rest ++ [flag])
      have width : a + (b + 1) + 1 + rest.length = len := by
        simp only [List.length_append, List.length_cons, List.length_replicate] at sized
        omega
      rw [width, moves] at before
      obtain rfl := Option.some.inj before
      rw [List.length_append, List.length_singleton, ← Nat.add_assoc, width] at after
      simpa only [List.append_assoc, List.cons_append] using after

theorem zeros_of_short (none_set : m.count true = 0) : m = zeros m.length :=
  List.eq_replicate_of_mem fun flag mem => by
    cases flag with
    | false => rfl
    | true => exact absurd mem (List.count_eq_zero.mp none_set)

theorem ones_of_full (all_set : m.count true = m.length) : m = ones m.length :=
  List.eq_replicate_of_mem fun flag mem => (List.count_eq_length.mp all_set flag mem).symm

/-- Whether all zeros come first is seen at the zeros before the last `n` places. -/
theorem zero_count_iff (sized : m.length = len) (few : m.count true = n) :
    zero_count len n m = len - n ↔ m = zeros (len - n) ++ ones n := by
  have enough : n ≤ len := few ▸ sized ▸ List.count_le_length
  have front : (m.take (len - n)).length = len - n := by
    rw [List.length_take, sized]
    omega
  rw [zero_count]
  constructor
  · intro counted
    have whole := List.IsPrefix.eq_of_length (List.takeWhile_prefix fun flag : Bool => !flag)
      (counted.trans front.symm)
    have none_set : (m.take (len - n)).count true = 0 := by
      rw [List.count_eq_zero, ← whole]
      intro mem
      have unset := List.mem_takeWhile_imp mem
      cases unset
    have parts : (m.take (len - n) ++ m.drop (len - n)).count true =
        (m.take (len - n)).count true + (m.drop (len - n)).count true := List.count_append
    rw [List.take_append_drop, few, none_set, Nat.zero_add] at parts
    have rest : (m.drop (len - n)).length = n := by
      rw [List.length_drop, sized]
      omega
    have lead := zeros_of_short none_set
    have tail := ones_of_full (parts.symm.trans rest.symm)
    rw [front] at lead
    rw [rest] at tail
    rw [← lead, ← tail, List.take_append_drop]
  · intro sorted
    rw [sorted, List.take_left' List.length_replicate, List.takeWhile_replicate]
    simp

end Push

section Masks
variable {len n : Nat} {m : List Bool}

theorem mem_masks : m ∈ masks len n ↔ m.length = len ∧ m.count true = n := by
  induction len generalizing n m with
  | zero =>
      cases n with
      | zero =>
          rw [masks, List.mem_singleton]
          exact ⟨fun none_left => none_left ▸ ⟨rfl, rfl⟩,
            fun sized => List.length_eq_zero_iff.mp sized.1⟩
      | succ n =>
          simp only [masks, List.not_mem_nil, List.length_eq_zero_iff, false_iff]
          rintro ⟨rfl, few⟩
          cases few
  | succ len ih =>
      induction m using List.reverseRecOn with
      | nil => cases n <;> simp [masks]
      | append_singleton m flag _ =>
          cases n with
          | zero => cases flag <;> simp [masks, ih]
          | succ n => cases flag <;> simp [masks, ih]

theorem masks_nodup (len n : Nat) : (masks len n).Nodup := by
  induction len generalizing n with
  | zero =>
      cases n with
      | zero => exact List.nodup_singleton []
      | succ n => exact List.nodup_nil
  | succ len ih =>
      have snoc : ∀ flag, Function.Injective fun m : List Bool => m ++ [flag] := fun flag _ _ =>
        List.append_cancel_right
      cases n with
      | zero => exact (ih 0).map (snoc false)
      | succ n =>
          refine ((ih (n + 1)).map (snoc false)).append ((ih n).map (snoc true)) ?_
          intro m off on
          obtain ⟨m₁, _, rfl⟩ := List.mem_map.mp off
          obtain ⟨m₂, _, same⟩ := List.mem_map.mp on
          cases List.append_inj_right' same rfl

theorem masks_short (short : len < n) : masks len n = [] :=
  List.eq_nil_iff_forall_not_mem.mpr fun m mem => by
    obtain ⟨sized, few⟩ := mem_masks.mp mem
    have most := List.count_le_length (a := true) (l := m)
    omega

theorem masks_first (enough : n ≤ len) :
    (masks len n).head? = some (ones n ++ zeros (len - n)) := by
  induction len generalizing n with
  | zero =>
      obtain rfl := Nat.le_zero.mp enough
      rfl
  | succ len ih =>
      cases n with
      | zero =>
          rw [masks, List.head?_map, ih (Nat.zero_le _), Option.map_some, List.append_assoc,
            ← List.replicate_succ']
          rfl
      | succ n =>
          rw [masks, List.head?_append, List.head?_map, List.head?_map]
          by_cases room : n + 1 ≤ len
          · rw [ih room, Option.map_some, Option.some_or, List.append_assoc,
              ← List.replicate_succ', show len + 1 - (n + 1) = len - (n + 1) + 1 by omega]
          · obtain rfl : n = len := by omega
            rw [masks_short (Nat.lt_succ_self n), ih (le_refl n), Nat.sub_self, Nat.sub_self]
            simp [ones, List.replicate_succ']

theorem masks_last (enough : n ≤ len) :
    (masks len n).getLast? = some (zeros (len - n) ++ ones n) := by
  induction len generalizing n with
  | zero =>
      obtain rfl := Nat.le_zero.mp enough
      rfl
  | succ len ih =>
      cases n with
      | zero =>
          rw [masks, List.getLast?_map, ih (Nat.zero_le _), Option.map_some]
          simp [zeros, List.replicate_succ']
      | succ n =>
          have room := Nat.le_of_succ_le_succ enough
          rw [masks, List.getLast?_append, List.getLast?_map, ih room, Option.map_some,
            Option.some_or, List.append_assoc, ← List.replicate_succ', Nat.add_sub_add_right]

/-- Each vector is the next one of the vector before. -/
theorem masks_chain (len n : Nat) :
    (masks len n).IsChain fun m m' => nextMeta len m = some m' := by
  induction len generalizing n with
  | zero =>
      cases n with
      | zero => exact .singleton []
      | succ n => exact .nil
  | succ len ih =>
      have kept : ∀ flag n, ((masks len n).map (· ++ [flag])).IsChain fun m m' =>
          nextMeta (len + 1) m = some m' := fun flag n =>
        (List.isChain_map _).mpr ((ih n).imp_of_mem_imp fun m m' mem _ moves =>
          nextMeta_snoc flag (mem_masks.mp mem).1 moves)
      cases n with
      | zero => exact kept false 0
      | succ n =>
          refine (kept false (n + 1)).append (kept true n) ?_
          intro m isLast m' isFirst
          rw [List.getLast?_map] at isLast
          rw [List.head?_map] at isFirst
          by_cases room : n + 1 ≤ len
          · rw [masks_last room, Option.map_some, Option.mem_some_iff] at isLast
            rw [masks_first (by omega), Option.map_some, Option.mem_some_iff] at isFirst
            have linked := nextMeta_block (len - (n + 1)) n []
            rw [List.length_nil, show len - (n + 1) + (n + 1) + 1 + 0 = len + 1 by omega,
              show len - (n + 1) + 1 = len - n by omega] at linked
            subst isLast isFirst
            simpa only [List.append_assoc] using linked
          · rw [masks_short (by omega)] at isLast
            cases isLast

/-- Read backwards the vectors are the same ones. -/
theorem masks_reverse (len n : Nat) : ((masks len n).map List.reverse).Perm (masks len n) := by
  refine (List.perm_ext_iff_of_nodup ((masks_nodup len n).map List.reverse_injective)
    (masks_nodup len n)).mpr fun m => ?_
  rw [List.mem_map, mem_masks]
  constructor
  · rintro ⟨m', mem, rfl⟩
    obtain ⟨sized, few⟩ := mem_masks.mp mem
    exact ⟨List.length_reverse.trans sized, List.count_reverse.trans few⟩
  · rintro ⟨sized, few⟩
    exact ⟨m.reverse, mem_masks.mpr ⟨List.length_reverse.trans sized,
      List.count_reverse.trans few⟩, List.reverse_reverse m⟩

end Masks

section Choices
variable {α β : Type*} {n : Nat}

@[simp] theorem chosen_skip (a : α) (atable : List α) (m : List Bool) :
    chosen (a :: atable) (false :: m) = chosen atable m := rfl

@[simp] theorem chosen_take (a : α) (atable : List α) (m : List Bool) :
    chosen (a :: atable) (true :: m) = a :: chosen atable m := rfl

theorem chosen_map (f : α → β) (atable : List α) (m : List Bool) :
    chosen (atable.map f) m = (chosen atable m).map f := by
  induction atable generalizing m with
  | nil => rfl
  | cons a atable ih =>
      cases m with
      | nil => rfl
      | cons flag m =>
          cases flag with
          | false => exact ih m
          | true => exact congrArg (f a :: ·) (ih m)

theorem chosen_reversed (atable : List α) (n : Nat) :
    ((masks atable.length n).map List.reverse).map (chosen atable) = atable.sublistsLen n := by
  induction atable generalizing n with
  | nil =>
      cases n with
      | zero => rfl
      | succ n => rfl
  | cons a atable ih =>
      have snoc : ∀ flag n, (((masks atable.length n).map (· ++ [flag])).map List.reverse).map
          (chosen (a :: atable)) =
            ((masks atable.length n).map List.reverse).map fun m =>
              chosen (a :: atable) (flag :: m) := by
        intro flag n
        simp [Function.comp_def]
      cases n with
      | zero =>
          rw [List.length_cons, masks, snoc, List.sublistsLen_zero, ← List.sublistsLen_zero atable,
            ← ih]
          rfl
      | succ n =>
          rw [List.length_cons, masks, List.map_append, List.map_append, snoc, snoc,
            List.sublistsLen_succ_cons, ← ih, ← ih]
          simp [Function.comp_def]

/-- Over all vectors each sublist of `n` elements is chosen once. -/
theorem chosen_masks (atable : List α) (n : Nat) :
    ((masks atable.length n).map (chosen atable)).Perm (atable.sublistsLen n) := by
  rw [← chosen_reversed]
  exact ((masks_reverse _ n).map _).symm

theorem length_masks (len n : Nat) : (masks len n).length = len.choose n := by
  have counted := (chosen_masks (List.range len) n).length_eq
  rwa [List.length_map, List.length_sublistsLen, List.length_range] at counted

theorem firstMeta_eq {len : Nat} (enough : n ≤ len) :
    firstMeta len n = ones n ++ zeros (len - n) := by
  obtain ⟨rest, rfl⟩ := Nat.exists_eq_add_of_le enough
  rw [firstMeta, List.range_add, List.map_append, Nat.add_sub_cancel_left]
  congr 1
  · refine List.eq_replicate_iff.mpr ⟨by simp, ?_⟩
    intro flag mem
    obtain ⟨i, inside, rfl⟩ := List.mem_map.mp mem
    exact decide_eq_true (List.mem_range.mp inside)
  · refine List.eq_replicate_iff.mpr ⟨by simp, ?_⟩
    intro flag mem
    obtain ⟨i, outside, rfl⟩ := List.mem_map.mp mem
    obtain ⟨j, _, rfl⟩ := List.mem_map.mp outside
    exact decide_eq_false (by omega)

/-- The loop goes through the vectors that follow, up to the last one. -/
theorem zuheLoop_run (atable : List α) {m : List Bool} {rest : List (List Bool)} {fuel : Nat}
    (result : List (List α))
    (linked : (m :: rest).IsChain fun m m' => nextMeta atable.length m = some m')
    (listed : ∀ x ∈ m :: rest, x ∈ masks atable.length n)
    (ends : (m :: rest).getLast? = some (zeros (atable.length - n) ++ ones n))
    (enough : rest.length < fuel) :
    zuheLoop atable n fuel m result = some (result ++ rest.map (chosen atable)) := by
  induction rest generalizing m fuel result with
  | nil =>
      obtain ⟨fuel, rfl⟩ := Nat.exists_eq_add_of_lt enough
      obtain ⟨sized, few⟩ := mem_masks.mp (listed m List.mem_cons_self)
      rw [zuheLoop, if_pos ((zero_count_iff sized few).mpr (Option.some.inj ends)), List.map_nil,
        List.append_nil]
  | cons m' rest ih =>
      obtain ⟨fuel, rfl⟩ := Nat.exists_eq_add_of_lt enough
      obtain ⟨moves, linked⟩ := List.isChain_cons_cons.mp linked
      obtain ⟨sized, few⟩ := mem_masks.mp (listed m List.mem_cons_self)
      have goes_on : zero_count atable.length n m ≠ atable.length - n := by
        intro counted
        rw [(zero_count_iff sized few).mp counted, nextMeta_sorted] at moves
        cases moves
      rw [List.getLast?_cons_cons] at ends
      rw [zuheLoop, if_neg goes_on, moves, Option.bind_some,
        ih _ linked (fun x mem => listed x (List.mem_cons_of_mem _ mem)) ends
          (by rw [List.length_cons]; omega),
        List.append_assoc]
      rfl

/-- Enough turns go through all vectors. -/
theorem zuhe_masks (atable : List α) (enough : n ≤ atable.length) {fuel : Nat}
    (turns : atable.length.choose n ≤ fuel) :
    zuhe fuel atable n = some ((masks atable.length n).map (chosen atable)) := by
  have first := masks_first enough
  rw [← firstMeta_eq enough] at first
  obtain ⟨rest, whole⟩ := List.head?_eq_some_iff.mp first
  have linked := masks_chain atable.length n
  have ends := masks_last enough
  have counted := length_masks atable.length n
  rw [whole] at linked ends counted
  rw [zuhe, if_neg (not_lt.mpr enough), zuheLoop_run atable _ linked
    (fun x mem => whole ▸ mem) ends (by rw [List.length_cons] at counted; omega), whole]
  rfl

/-- Each choice of `n` places, in the order of the table, comes once. -/
theorem zuhe_all (atable : List α) (n : Nat) (enough : n ≤ atable.length) :
    ∃ places : List (List (Fin atable.length)),
      (∀ fuel, atable.length.choose n ≤ fuel →
        zuhe fuel atable n = some (places.map fun p => p.map atable.get)) ∧
      places.Nodup ∧
      (∀ p, p ∈ places ↔ p.Sublist (List.finRange atable.length) ∧ p.length = n) ∧
      places.length = atable.length.choose n := by
  have all := chosen_masks (List.finRange atable.length) n
  rw [List.length_finRange] at all
  refine ⟨(masks atable.length n).map (chosen (List.finRange atable.length)), fun fuel turns => ?_,
    ?_, fun p => ?_, ?_⟩
  · have table : (List.finRange atable.length).map atable.get = atable :=
      List.map_get_finRange atable
    rw [zuhe_masks atable enough turns, List.map_map]
    refine congrArg some (List.map_congr_left fun m _ => ?_)
    rw [Function.comp_apply, ← chosen_map, table]
  · exact all.nodup_iff.mpr (List.nodup_sublistsLen n (List.nodup_finRange _))
  · rw [all.mem_iff, List.mem_sublistsLen]
  · rw [List.length_map, length_masks]

theorem zuhe_all_pairs : zuhe 6 ["a", "b", "a", "c"] 2 =
    some [["a", "b"], ["a", "a"], ["b", "a"], ["a", "c"], ["b", "c"], ["a", "c"]] ∧
      ∃ places : List (List (Fin 4)), places.Nodup ∧ places.length = 6 := by
  refine ⟨by decide, ?_⟩
  obtain ⟨places, _, distinct, _, counted⟩ := zuhe_all ["a", "b", "a", "c"] 2 (by decide)
  exact ⟨places, distinct, counted⟩

end Choices

end HuluLandlord.SevenSparrow
