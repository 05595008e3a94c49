import Mathlib.Data.List.Basic
import Mathlib.Order.Basic
import Mathlib.Tactic

/-!
Search by halving in a list of keys that only increase. The part still to be searched runs from
`first` up to `stop`; what is missing has a place at which it can be inserted.
-/
namespace HuluLandlord.Bisect

variable {κ : Type*} [LinearOrder κ] {key : Nat → κ} {x : κ} {n : Nat}

/-- The index of the key, or else where it belongs. -/
def search (key : Nat → κ) (x : κ) : Nat → Nat → Nat → Nat ⊕ Nat
  | 0, first, _ => .inr first
  | rounds + 1, first, stop =>
      if first < stop then
        let mid := (first + (stop - 1)) / 2
        if key mid = x then .inl mid
        else if key mid < x then search key x rounds (mid + 1) stop
        else search key x rounds first mid
      else .inr first

/-- What an answer of the search says about the first `n` keys. -/
def Answers (key : Nat → κ) (x : κ) (n : Nat) : Nat ⊕ Nat → Prop
  | .inl i => i < n ∧ key i = x
  | .inr p => p ≤ n ∧ (∀ i < p, key i < x) ∧ ∀ i, p ≤ i → i < n → x < key i

theorem search_answers (sorted : ∀ i j, i < j → j < n → key i < key j) {rounds first stop : Nat}
    (enough : stop ≤ first + rounds) (order : first ≤ stop) (inside : stop ≤ n) (below : ∀ i < first, key i < x)
    (above : ∀ i, stop ≤ i → i < n → x < key i) : Answers key x n (search key x rounds first stop) := by
  induction rounds generalizing first stop with
  | zero =>
      obtain rfl : first = stop := by omega
      exact ⟨inside, below, above⟩
  | succ rounds ih =>
      rw [search]
      split
      · rename_i some_
        dsimp only
        split
        · rename_i found
          exact ⟨by omega, found⟩
        · rename_i differ
          split
          · rename_i less
            refine ih (by omega) (by omega) inside (fun i lt => ?_) above
            obtain before | rfl := Nat.lt_or_eq_of_le (Nat.lt_succ_iff.mp lt)
            · exact (sorted i _ before (by omega)).trans less
            · exact less
          · rename_i more
            have more : x < key ((first + (stop - 1)) / 2) := lt_of_le_of_ne (not_lt.mp more) (Ne.symm differ)
            refine ih (by omega) (by omega) (by omega) below fun i le lt => ?_
            obtain after | same := Nat.lt_or_eq_of_le le
            · exact more.trans (sorted _ i after lt)
            · exact same ▸ more
      · obtain rfl : first = stop := by omega
        exact ⟨inside, below, above⟩

section Table
variable {ν : Type*} {table : List (κ × ν)}

/-- The entries stand in the order of their keys, each key once. -/
def Sorted (table : List (κ × ν)) : Prop := (table.map Prod.fst).Pairwise (· < ·)

variable [Inhabited κ]

def keyAt (table : List (κ × ν)) (i : Nat) : κ := ((table.map Prod.fst)[i]?).getD default

def find (table : List (κ × ν)) (x : κ) : Nat ⊕ Nat := search (keyAt table) x table.length 0 table.length

theorem find_answers (sorted : Sorted table) (x : κ) : Answers (keyAt table) x table.length (find table x) := by
  refine search_answers (fun i j less inside => ?_) (by omega) (Nat.zero_le _) le_rfl
    (fun i less => absurd less (Nat.not_lt_zero i)) fun i le less => absurd less (not_lt.mpr le)
  have inside' : j < (table.map Prod.fst).length := by rwa [List.length_map]
  rw [keyAt, keyAt, List.getElem?_eq_getElem (less.trans inside'), List.getElem?_eq_getElem inside']
  exact List.pairwise_iff_getElem.mp sorted i j (less.trans inside') inside' less

theorem keyAt_eq {i : Nat} (inside : i < table.length) : keyAt table i = (table[i]).1 := by
  rw [keyAt, List.getElem?_map, List.getElem?_eq_getElem inside]
  rfl

/-- A key that is found has the entry at its index, and no other. -/
theorem find_inl (sorted : Sorted table) {i : Nat} (found : find table x = .inl i) :
    ∃ v, table[i]? = some (x, v) ∧ ∀ w, (x, w) ∈ table ↔ w = v := by
  have answer := find_answers sorted x
  rw [found] at answer
  obtain ⟨inside, here⟩ := answer
  rw [keyAt_eq inside] at here
  refine ⟨(table[i]).2, ?_, fun w => ⟨fun mem => ?_, ?_⟩⟩
  · rw [List.getElem?_eq_getElem inside, ← here]
  · obtain ⟨j, within, there⟩ := List.mem_iff_getElem.mp mem
    have keys := List.pairwise_iff_getElem.mp sorted
    obtain less | rfl | more := lt_trichotomy i j
    · have apart := keys i j (by rwa [List.length_map]) (by rwa [List.length_map]) less
      rw [List.getElem_map, List.getElem_map, here, there] at apart
      exact absurd apart (lt_irrefl _)
    · rw [there]
    · have apart := keys j i (by rwa [List.length_map]) (by rwa [List.length_map]) more
      rw [List.getElem_map, List.getElem_map, here, there] at apart
      exact absurd apart (lt_irrefl _)
  · rintro rfl
    exact here ▸ List.getElem_mem inside

theorem find_inr (sorted : Sorted table) {p : Nat} (missing : find table x = .inr p) (w : ν) : (x, w) ∉ table := by
  have answer := find_answers sorted x
  rw [missing] at answer
  obtain ⟨-, below, above⟩ := answer
  intro mem
  obtain ⟨j, within, there⟩ := List.mem_iff_getElem.mp mem
  have here : keyAt table j = x := by rw [keyAt_eq within, there]
  by_cases less : j < p
  · exact absurd (here ▸ below j less) (lt_irrefl _)
  · exact absurd (here ▸ above j (not_lt.mp less) within) (lt_irrefl _)

/-- An entry put where its key belongs keeps the order. -/
theorem sorted_insert (sorted : Sorted table) {p : Nat} (missing : find table x = .inr p) (v : ν) :
    Sorted (table.take p ++ (x, v) :: table.drop p) := by
  have answer := find_answers sorted x
  rw [missing] at answer
  obtain ⟨most, below, above⟩ := answer
  have front : ∀ y ∈ (table.take p).map Prod.fst, y < x := by
    intro y mem
    obtain ⟨e, inside, rfl⟩ := List.mem_map.mp mem
    obtain ⟨i, less, there⟩ := List.mem_take_iff_getElem.mp inside
    have smaller := below i (by omega)
    rw [keyAt_eq (by omega), there] at smaller
    exact smaller
  have back : ∀ y ∈ (table.drop p).map Prod.fst, x < y := by
    intro y mem
    obtain ⟨e, inside, rfl⟩ := List.mem_map.mp mem
    obtain ⟨i, less, there⟩ := List.mem_drop_iff_getElem.mp inside
    have larger := above (p + i) (by omega) (by omega)
    rw [keyAt_eq (by omega), there] at larger
    exact larger
  rw [Sorted, List.map_append, List.map_cons]
  refine List.pairwise_append.mpr ⟨?_, List.pairwise_cons.mpr ⟨back, ?_⟩, fun a mem b mem' => ?_⟩
  · exact sorted.sublist ((List.take_sublist p table).map Prod.fst)
  · exact sorted.sublist ((List.drop_sublist p table).map Prod.fst)
  · obtain rfl | later := List.mem_cons.mp mem'
    · exact front a mem
    · exact (front a mem).trans (back b later)

section Lookup
variable [BEq κ] [LawfulBEq κ]

section Plain
omit [Inhabited κ]

/-- In a sorted table the first entry of a key is its only one. -/
theorem lookup_iff (sorted : Sorted table) (v : ν) : table.lookup x = some v ↔ (x, v) ∈ table := by
  induction table with
  | nil => exact ⟨nofun, nofun⟩
  | cons entry rest ih =>
      obtain ⟨first, later⟩ := List.pairwise_cons.mp sorted
      rw [List.lookup_cons, List.mem_cons]
      by_cases same : x = entry.1
      · subst same
        rw [beq_self_eq_true]
        constructor
        · rintro ⟨⟩
          exact .inl rfl
        · rintro (pair | mem)
          · rw [← pair]
          · exact absurd (first _ (List.mem_map_of_mem mem)) (lt_irrefl _)
      · rw [beq_false_of_ne same]
        dsimp only
        rw [ih later]
        refine ⟨.inr, ?_⟩
        rintro (rfl | mem)
        · exact absurd rfl same
        · exact mem

theorem lookup_filter (sorted : Sorted table) (p : ν → Bool) :
    Sorted (table.filter fun e => p e.2) ∧ (table.filter fun e => p e.2).lookup x = (table.lookup x).filter p := by
  have kept : Sorted (table.filter fun e => p e.2) := sorted.sublist (List.filter_sublist.map Prod.fst)
  refine ⟨kept, Option.ext fun v => ?_⟩
  rw [lookup_iff kept, List.mem_filter, Option.filter_eq_some_iff, lookup_iff sorted]

end Plain

/-- What the halving search answers is what a search from the front answers. -/
theorem lookup_find (sorted : Sorted table) (x : κ) :
    table.lookup x = match find table x with
      | .inl i => (table[i]?).map Prod.snd
      | .inr _ => none := by
  cases found : find table x with
  | inl i =>
      obtain ⟨v, here, only⟩ := find_inl sorted found
      dsimp only
      rw [here]
      exact (lookup_iff sorted v).mpr ((only v).mpr rfl)
  | inr p =>
      refine Option.eq_none_iff_forall_ne_some.mpr fun v there => ?_
      exact find_inr sorted found v ((lookup_iff sorted v).mp there)

theorem lookup_insert [DecidableEq κ] (sorted : Sorted table) {p : Nat} (missing : find table x = .inr p) (v : ν) :
    (fun y => (table.take p ++ (x, v) :: table.drop p).lookup y) =
      Function.update (fun y => table.lookup y) x (some v) := by
  refine funext fun y => Option.ext fun w => ?_
  rw [lookup_iff (sorted_insert sorted missing v), List.mem_append, List.mem_cons]
  have apart : (y, w) ∈ table ↔ (y, w) ∈ table.take p ∨ (y, w) ∈ table.drop p := by
    rw [← List.mem_append, List.take_append_drop]
  by_cases same : y = x
  · subst same
    have absent := find_inr sorted missing w
    rw [apart, not_or] at absent
    rw [Function.update_self, Option.some.injEq]
    constructor
    · rintro (mem | pair | mem)
      · exact absurd mem absent.1
      · exact (Prod.mk.inj pair).2.symm
      · exact absurd mem absent.2
    · rintro rfl
      exact .inr (.inl rfl)
  · rw [Function.update_of_ne same, lookup_iff sorted, apart]
    constructor
    · rintro (mem | pair | mem)
      · exact .inl mem
      · exact absurd (Prod.mk.inj pair).1 same
      · exact .inr mem
    · rintro (mem | mem)
      · exact .inl mem
      · exact .inr (.inr mem)

end Lookup

end Table

end HuluLandlord.Bisect
