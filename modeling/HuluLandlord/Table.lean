import Mathlib.Data.List.Nodup
import Mathlib.Logic.Function.Basic
import Mathlib.Tactic

/-!
Tables the way programs keep them: a function from keys to rows, an array of objects that
carry their own key, a list of pairs. Nothing here depends on what the keys or the rows are.
-/
namespace HuluLandlord.Table

theorem update_some {α β : Type*} [DecidableEq α] {f : α → Option β} {a k : α} {v x : β}
    (changed : Function.update f a (some v) k = some x) :
    (k = a ∧ x = v) ∨ (k ≠ a ∧ f k = some x) := by
  by_cases here : k = a
  · subst here
    rw [Function.update_self, Option.some.injEq] at changed
    exact .inl ⟨rfl, changed.symm⟩
  · rw [Function.update_of_ne here] at changed
    exact .inr ⟨here, changed⟩

/-- A row of a table one row of which has been written to. -/
theorem written_cases {κ ν : Type*} [DecidableEq κ] {table : κ → Option ν} {k k' : κ} {v row : ν}
    {f : ν → ν} (current : table k = some v)
    (found : Function.update table k ((table k).map f) k' = some row) :
    (k' = k ∧ row = f v) ∨ (k' ≠ k ∧ table k' = some row) := by
  rw [current] at found
  exact update_some found

/-- Under distinct keys, what is found by a key is the one entry that has it. -/
theorem find_keyed {α κ : Type*} [DecidableEq κ] {key : α → κ} {arr : List α} {k : κ} {x : α}
    (keys : (arr.map key).Nodup) :
    arr.find? (fun y => key y = k) = some x ↔ x ∈ arr ∧ key x = k := by
  constructor
  · intro found
    exact ⟨List.mem_of_find?_eq_some found, by simpa using List.find?_some found⟩
  · rintro ⟨mem, rfl⟩
    cases found : arr.find? fun y => key y = key x with
    | none => exact absurd (List.find?_eq_none.mp found x mem) (by simp)
    | some y =>
        have same : key y = key x := by simpa using List.find?_some found
        rw [List.inj_on_of_nodup_map keys (List.mem_of_find?_eq_some found) mem same]

theorem filter_keyed {α κ : Type*} [DecidableEq κ] {key : α → κ} {arr : List α} {x : α}
    (keys : (arr.map key).Nodup) (mem : x ∈ arr) :
    arr.filter (fun y => key y = key x) = [x] := by
  induction arr with
  | nil => exact absurd mem List.not_mem_nil
  | cons head arr ih =>
      rw [List.map_cons, List.nodup_cons] at keys
      obtain rfl | mem := List.mem_cons.mp mem
      · have others : arr.filter (fun y => key y = key x) = [] := by
          refine List.filter_eq_nil_iff.mpr fun y mem same => keys.1 ?_
          exact decide_eq_true_eq.mp same ▸ List.mem_map_of_mem mem
        simp [others]
      · have other : ¬key head = key x := fun same => keys.1 (same ▸ List.mem_map_of_mem mem)
        simp [other, ih keys.2 mem]

theorem eraseP_keyed {α κ : Type*} [DecidableEq κ] {key : α → κ} {p : α → Bool} {xs : List α} {x : α}
    (keys : (xs.map key).Nodup) (found : xs.find? p = some x) :
    xs.eraseP p = xs.filter fun y => key y ≠ key x := by
  induction xs with
  | nil => cases found
  | cons head xs ih =>
      rw [List.map_cons, List.nodup_cons] at keys
      cases here : p head with
      | true =>
          rw [List.find?_cons_of_pos here] at found
          obtain rfl := Option.some.inj found
          have others : xs.filter (fun y => key y ≠ key head) = xs := by
            refine List.filter_eq_self.mpr fun y mem => decide_eq_true ?_
            exact fun same => keys.1 (same ▸ List.mem_map_of_mem mem)
          rw [List.eraseP_cons_of_pos here, List.filter_cons_of_neg (by simp), others]
      | false =>
          rw [List.find?_cons_of_neg (by simp [here])] at found
          have other : key head ≠ key x := fun same =>
            keys.1 (same ▸ List.mem_map_of_mem (List.mem_of_find?_eq_some found))
          rw [List.eraseP_cons_of_neg (by simp [here]), List.filter_cons_of_pos (by simp [other]),
            ih keys.2 found]

/-- An array in which one object has been replaced has the others under other keys. -/
theorem mem_set_keyed {α κ : Type*} {key : α → κ} {arr : List α} {i : Nat} {x x' y : α}
    (keys : (arr.map key).Nodup) (found : arr[i]? = some x) (mem : y ∈ arr.set i x') :
    y = x' ∨ (y ∈ arr ∧ key y ≠ key x) := by
  induction arr generalizing i with
  | nil => cases found
  | cons head arr ih =>
      rw [List.map_cons, List.nodup_cons] at keys
      cases i with
      | zero =>
          obtain rfl : head = x := by simpa using found
          obtain rfl | mem := List.mem_cons.mp mem
          · exact .inl rfl
          · refine .inr ⟨List.mem_cons_of_mem _ mem, fun same => keys.1 ?_⟩
            exact same ▸ List.mem_map_of_mem mem
      | succ i =>
          have found : arr[i]? = some x := by simpa using found
          obtain rfl | mem := List.mem_cons.mp mem
          · refine .inr ⟨List.mem_cons_self, fun same => keys.1 ?_⟩
            exact same ▸ List.mem_map_of_mem (List.mem_of_getElem? found)
          · obtain new | ⟨mem, other⟩ := ih keys.2 found mem
            · exact .inl new
            · exact .inr ⟨List.mem_cons_of_mem _ mem, other⟩

/-- In a table whose keys are `1`, `2` and so on, a row stands where its key says. -/
theorem numbered_key {α : Type*} {key : α → Nat} {rows : List α} {i : Nat} {x : α}
    (keys : rows.map key = List.range' 1 rows.length) (row : rows[i]? = some x) :
    key x = i + 1 := by
  have named : (rows.map key)[i]? = some (key x) := by
    rw [List.getElem?_map, row]
    rfl
  rw [keys, List.getElem?_range' (List.getElem?_eq_some_iff.mp row).1] at named
  have same := Option.some.inj named
  omega

theorem numbered_nodup {α : Type*} {key : α → Nat} {rows : List α}
    (keys : rows.map key = List.range' 1 rows.length) : (rows.map key).Nodup :=
  keys ▸ List.nodup_range'

theorem mem_numbered {α : Type*} {key : α → Nat} {rows : List α} {x : α}
    (keys : rows.map key = List.range' 1 rows.length) :
    x ∈ rows ↔ rows[key x - 1]? = some x := by
  constructor
  · intro mem
    obtain ⟨i, row⟩ := List.mem_iff_getElem?.mp mem
    have back : key x - 1 = i := by
      have named := numbered_key keys row
      omega
    rw [back]
    exact row
  · exact List.mem_of_getElem?

theorem find_numbered {α : Type*} {key : α → Nat} {rows : List α}
    (keys : rows.map key = List.range' 1 rows.length) (i : Nat) :
    rows.find? (fun x => key x = i + 1) = rows[i]? := by
  cases row : rows[i]? with
  | none =>
      rw [List.find?_eq_none]
      intro x mem
      obtain ⟨j, found⟩ := List.mem_iff_getElem?.mp mem
      have named := numbered_key keys found
      have short := (List.getElem?_eq_some_iff.mp found).1
      have past := List.getElem?_eq_none_iff.mp row
      simp only [decide_eq_true_eq]
      omega
  | some x =>
      exact (find_keyed (numbered_nodup keys)).mpr ⟨List.mem_of_getElem? row, numbered_key keys row⟩

theorem lookup_cons_ne {α : Type*} {k i : Nat} {v : α} {entries : List (Nat × α)} (other : i ≠ k) :
    ((k, v) :: entries).lookup i = entries.lookup i := by
  rw [List.lookup_cons, beq_false_of_ne other]

/-- What is inserted at the end of the front is between the front and the back. -/
theorem insertIdx_append {α : Type*} {front back : List α} {x : α} :
    (front ++ back).insertIdx front.length x = front ++ x :: back := by
  induction front with
  | nil => rfl
  | cons head front ih => exact congrArg (head :: ·) ih

theorem filter_snoc_pos {α : Type*} {p : α → Bool} {xs : List α} {x : α} (holds : p x = true) :
    (xs ++ [x]).filter p = xs.filter p ++ [x] := by
  rw [List.filter_append, List.filter_cons_of_pos holds, List.filter_nil]

theorem filter_snoc_neg {α : Type*} {p : α → Bool} {xs : List α} {x : α} (fails : ¬p x = true) :
    (xs ++ [x]).filter p = xs.filter p := by
  rw [List.filter_append, List.filter_cons_of_neg fails, List.filter_nil, List.append_nil]

theorem nodup_map_snoc {α β : Type*} {f : α → β} {xs : List α} {x : α} :
    ((xs ++ [x]).map f).Nodup ↔ f x ∉ xs.map f ∧ (xs.map f).Nodup := by
  rw [List.map_append, List.map_singleton, ← List.concat_eq_append, List.nodup_concat]

/-- One entry of a sum is exchanged. -/
theorem sum_map_set {α : Type*} {f : α → Int} {l : List α} {i : Nat} {x y : α}
    (found : l[i]? = some x) : ((l.set i y).map f).sum = (l.map f).sum - f x + f y := by
  induction l generalizing i with
  | nil => cases found
  | cons head l ih =>
      cases i with
      | zero =>
          obtain rfl := Option.some.inj found
          simp only [List.set_cons_zero, List.map_cons, List.sum_cons]
          omega
      | succ i =>
          simp only [List.set_cons_succ, List.map_cons, List.sum_cons,
            ih (List.getElem?_cons_succ.symm.trans found)]
          omega

theorem filter_least {α κ : Type*} [LinearOrder κ] {key : α → κ} {xs : List α} {k : κ}
    (sorted : xs.Pairwise fun x y => key x ≤ key y) (least : ∀ x ∈ xs, k ≤ key x) :
    (xs.filter fun x => key x = k) ++ (xs.filter fun x => key x ≠ k) = xs := by
  induction xs with
  | nil => rfl
  | cons head xs ih =>
      obtain ⟨above, sorted⟩ := List.pairwise_cons.mp sorted
      have rest := ih sorted fun x mem => least x (List.mem_cons_of_mem head mem)
      by_cases here : key head = k
      · simpa [here] using rest
      · have past : ∀ x ∈ head :: xs, key x ≠ k := by
          have less : k < key head := lt_of_le_of_ne (least head List.mem_cons_self) (Ne.symm here)
          refine List.forall_mem_cons.mpr ⟨here, fun x mem same => ?_⟩
          exact absurd (same ▸ above x mem) (not_le.mpr less)
        have first : (head :: xs).filter (fun x => key x = k) = [] :=
          List.filter_eq_nil_iff.mpr fun x mem => by simpa using past x mem
        have all : (head :: xs).filter (fun x => key x ≠ k) = head :: xs :=
          List.filter_eq_self.mpr fun x mem => by simpa using past x mem
        rw [first, all, List.nil_append]

/-- The entries of a list in the order of their keys, one key after the other. -/
theorem flatMap_filter_keys {α κ : Type*} [LinearOrder κ] {key : α → κ} {xs : List α} {ks : List κ}
    (sorted : xs.Pairwise fun x y => key x ≤ key y) (rising : ks.Pairwise (· < ·))
    (keys : ∀ x ∈ xs, key x ∈ ks) : ks.flatMap (fun k => xs.filter fun x => key x = k) = xs := by
  induction ks generalizing xs with
  | nil =>
      cases xs with
      | nil => rfl
      | cons x xs => exact absurd (keys x List.mem_cons_self) List.not_mem_nil
  | cons k ks ih =>
      obtain ⟨first, rising⟩ := List.pairwise_cons.mp rising
      have least : ∀ x ∈ xs, k ≤ key x := by
        intro x mem
        obtain here | later := List.mem_cons.mp (keys x mem)
        · exact here.ge
        · exact (first _ later).le
      have later : ks.flatMap (fun k' => xs.filter fun x => key x = k') =
          xs.filter fun x => key x ≠ k := by
        rw [← ih (sorted.filter fun x => decide (key x ≠ k)) rising]
        · refine List.flatMap_congr fun k' mem => ?_
          rw [List.filter_filter]
          refine List.filter_congr fun x _ => ?_
          by_cases here : key x = k'
          · have other : key x ≠ k := here ▸ (first k' mem).ne'
            rw [decide_eq_true here, decide_eq_true other, Bool.true_and]
          · rw [decide_eq_false here, Bool.false_and]
        · intro x mem
          obtain ⟨mem, other⟩ := List.mem_filter.mp mem
          exact (List.mem_cons.mp (keys x mem)).resolve_left (of_decide_eq_true other)
      rw [List.flatMap_cons, later, filter_least sorted least]

/-- A loop over a list does for each entry what its body does, if no later turn undoes it. -/
theorem foldl_each {α β : Type*} {body : β → α → β} {P : α → β → Prop}
    (sets : ∀ b x, P x (body b x)) (keeps : ∀ b x y, P x b → P x (body b y)) (xs : List α) (b : β) :
    ∀ x ∈ xs, P x (xs.foldl body b) := by
  induction xs generalizing b with
  | nil => exact fun x mem => absurd mem List.not_mem_nil
  | cons head xs ih =>
      refine List.forall_mem_cons.mpr ⟨?_, ih _⟩
      rw [List.foldl_cons]
      exact List.foldlRecOn xs body (sets b head) fun b held x _ => keeps b head x held

/-- One entry of a list is exchanged. -/
theorem exists_mem_set {α : Type*} {P : α → Prop} {xs : List α} {i : Nat} {x y : α}
    (found : xs[i]? = some x) :
    ((∃ z ∈ xs.set i y, P z) ∨ P x) ↔ ((∃ z ∈ xs, P z) ∨ P y) := by
  have inside : i < xs.length := (List.getElem?_eq_some_iff.mp found).1
  constructor
  · rintro (⟨z, mem, holds⟩ | holds)
    · obtain old | rfl := List.mem_or_eq_of_mem_set mem
      · exact .inl ⟨z, old, holds⟩
      · exact .inr holds
    · exact .inl ⟨x, List.mem_of_getElem? found, holds⟩
  · rintro (⟨z, mem, holds⟩ | holds)
    · obtain ⟨k, here⟩ := List.mem_iff_getElem?.mp mem
      by_cases same : i = k
      · subst same
        exact .inr (Option.some.inj (found.symm.trans here) ▸ holds)
      · refine .inl ⟨z, List.mem_of_getElem? ((List.getElem?_set_ne same).trans here), holds⟩
    · exact .inl ⟨y, List.mem_set inside y, holds⟩

/-- The entry that alone passes a test stands at one index. -/
theorem exactly_one {α : Type*} {p : α → Bool} {xs : List α} (one : xs.countP p = 1) :
    ∃! k : Nat, (xs[k]?).any p = true := by
  induction xs with
  | nil => cases one
  | cons x xs ih =>
      rw [List.countP_cons] at one
      by_cases passes : p x = true
      · rw [if_pos passes] at one
        have none_ : ∀ y ∈ xs, ¬p y = true := List.countP_eq_zero.mp (by omega)
        refine ⟨0, by simpa using passes, fun k here => ?_⟩
        cases k with
        | zero => rfl
        | succ k =>
            obtain ⟨y, found, test⟩ := (Option.any_eq_true _ _).mp here
            exact absurd test (none_ y (List.mem_of_getElem? found))
      · rw [if_neg passes, add_zero] at one
        obtain ⟨k, here, only⟩ := ih one
        refine ⟨k + 1, here, fun j other => ?_⟩
        cases j with
        | zero => exact absurd (by simpa using other) passes
        | succ j => exact congrArg _ (only j other)

/-- Where one entry alone can pass a test, it is found in any order. -/
theorem find_perm {α : Type*} {p : α → Bool} {xs ys : List α} (perm : xs.Perm ys)
    (alone : ∀ x ∈ xs, ∀ y ∈ xs, p x = true → p y = true → x = y) : xs.find? p = ys.find? p := by
  cases found : ys.find? p with
  | none =>
      refine List.find?_eq_none.mpr fun x mem => ?_
      exact List.find?_eq_none.mp found x (perm.mem_iff.mp mem)
  | some y =>
      have mem : y ∈ xs := perm.mem_iff.mpr (List.mem_of_find?_eq_some found)
      have passes : p y = true := List.find?_some found
      cases other : xs.find? p with
      | none => exact absurd passes (List.find?_eq_none.mp other y mem)
      | some x =>
          have first := List.mem_of_find?_eq_some other
          rw [alone x first y mem (List.find?_some other) passes]

/-- An entry stays where it is when the list grows. -/
theorem append_found {α : Type*} {xs ys : List α} {x : α} {k : Nat} (found : xs[k]? = some x) :
    (xs ++ ys)[k]? = some x :=
  (List.getElem?_append_left (List.getElem?_eq_some_iff.mp found).1).trans found

/-- An entry of a list with one more. -/
theorem concat_cases {α : Type*} {xs : List α} {x y : α} {k : Nat}
    (found : (xs ++ [x])[k]? = some y) : xs[k]? = some y ∨ (k = xs.length ∧ y = x) := by
  obtain before | rfl | after := Nat.lt_trichotomy k xs.length
  · rw [List.getElem?_append_left before] at found
    exact .inl found
  · rw [List.getElem?_concat_length] at found
    exact .inr ⟨rfl, (Option.some.inj found).symm⟩
  · rw [List.getElem?_eq_none] at found
    · cases found
    · rw [List.length_append, List.length_singleton]
      exact after

end HuluLandlord.Table
