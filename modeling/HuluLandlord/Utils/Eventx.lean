import HuluLandlord.Table
import HuluLandlord.Transition
import Mathlib.Data.List.Sort
import Mathlib.Order.Defs.LinearOrder

/-!
The events of the server: callbacks are registered under a key with a priority, removed, and called by
`invoke`. All of this may go on at once: a callback can register, remove and invoke, and while it waits
for an answer other coroutines can. The objects and arrays of the code are numbered here, so that two
places can hold the same one.
-/
namespace HuluLandlord.Utils
open Transition Table

/-- What is registered: `func` is gone once it was removed while callbacks were called. -/
structure FuncInfo (κ φ : Type) where
  priority : κ
  func : Option φ
  deriving DecidableEq, Repr

/-- A registration, by the number of its object. -/
structure Registration (κ φ : Type) where
  id : Nat
  priority : κ
  func : φ
  deriving DecidableEq, Repr

/-- Where an invocation is: in the callback before `pos`, at its end, or stopped by an error of its own. -/
inductive InvokePc
  | call (pos : Nat)
  | done
  | failed
  deriving DecidableEq, Repr

/-- The locals of `invoke`; `funcs` is an array. -/
structure Invocation where
  rootInvoker : Bool
  funcs : Nat
  len : Nat
  pc : InvokePc
  deriving DecidableEq, Repr

/-- The list of one key, the objects and arrays it has made, and the calls that its invocations have
made. The entries of `priorityMap` are those of `keys`. -/
structure FuncList (κ φ : Type) where
  infos : List (FuncInfo κ φ)
  arrays : List (List Nat)
  keys : List κ
  priorityMap : κ → Option (List Nat)
  isDirty : Bool
  funcs : Nat
  containCanceled : Bool
  isInvoking : Bool
  invocations : List Invocation
  calls : List (Nat × Registration κ φ)

/-- A callback returns or fails by `resume`: `invoke` goes on in either case. -/
inductive EventxStep (κ φ : Type)
  | add (priority : κ) (func : φ)
  | remove (priority : κ) (func : φ)
  | invoke
  | resume (invocation : Nat)
  deriving DecidableEq, Repr

/-- What the loop of `invoke` comes to next. -/
inductive Scan (κ φ : Type)
  | calls (pos : Nat) (callback : Registration κ φ)
  | finished
  | nilIndex
  deriving DecidableEq, Repr

variable {κ φ : Type} [LinearOrder κ] [DecidableEq φ]

namespace FuncList

def func (s : FuncList κ φ) (info : Nat) : Option φ := s.infos[info]?.bind FuncInfo.func

def array (s : FuncList κ φ) (funcs : Nat) : List Nat := s.arrays.getD funcs []

def add (s : FuncList κ φ) (priority : κ) (func : φ) : FuncList κ φ :=
  let info := s.infos.length
  let arr := s.priorityMap priority
  { s with
    infos := s.infos ++ [⟨priority, some func⟩], isDirty := true
    keys := if arr.isSome then s.keys else s.keys ++ [priority]
    priorityMap := Function.update s.priorityMap priority (some (arr.getD [] ++ [info])) }

/-- The object is one of this callback under this priority. -/
def isTarget (s : FuncList κ φ) (priority : κ) (func : φ) (info : Nat) : Bool :=
  s.infos[info]?.any fun i => i.func = some func ∧ i.priority = priority

def target (s : FuncList κ φ) (priority : κ) (func : φ) : Option Nat :=
  (s.array s.funcs).find? (s.isTarget priority func)

/-- A priority under which nothing was ever registered is an error, before anything has changed. -/
def remove (s : FuncList κ φ) (priority : κ) (func : φ) : FuncList κ φ :=
  match s.priorityMap priority with
  | none => s
  | some arr =>
      let priorityMap := Function.update s.priorityMap priority
        (some (arr.eraseP fun info => s.func info = some func))
      match s.target priority func with
      | none => { s with priorityMap }
      | some info =>
          if s.isInvoking then
            { s with
              priorityMap, containCanceled := true
              infos := s.infos.modify info fun i => { i with func := none } }
          else
            { s with
              priorityMap
              arrays := s.arrays.modify s.funcs fun arr => arr.eraseP (s.isTarget priority func) }

def sort (s : FuncList κ φ) : FuncList κ φ :=
  let prioritySort := s.keys.insertionSort (· ≤ ·)
  let funcs := prioritySort.flatMap fun priority => (s.priorityMap priority).getD []
  { s with
    arrays := s.arrays ++ [funcs], funcs := s.arrays.length, isDirty := false
    containCanceled := false }

/-- The loop from `pos` on, with `left` callbacks to go. -/
def scan (s : FuncList κ φ) (funcs : List Nat) (pos : Nat) : Nat → Scan κ φ
  | 0 => .finished
  | left + 1 => match funcs[pos]? with
    | none => .nilIndex
    | some info => match s.infos[info]? with
      | some ⟨priority, some func⟩ => .calls (pos + 1) ⟨info, priority, func⟩
      | some ⟨_, none⟩ | none => scan s funcs (pos + 1) left

def setPc (s : FuncList κ φ) (j : Nat) (inv : Invocation) (pc : InvokePc) : FuncList κ φ :=
  { s with invocations := s.invocations.set j { inv with pc } }

/-- What a first invocation does at its end. -/
def rootEnd (s : FuncList κ φ) : FuncList κ φ :=
  let s := { s with isInvoking := false }
  if s.containCanceled then s.sort else s

/-- The invocation goes on until it calls the next callback. -/
def goOn (s : FuncList κ φ) (j : Nat) (inv : Invocation) (pos : Nat) : FuncList κ φ :=
  match s.scan (s.array inv.funcs) pos (inv.len - pos) with
  | .calls pos callback =>
      { s.setPc j inv (.call pos) with calls := s.calls ++ [(j, callback)] }
  | .finished =>
      if inv.rootInvoker then (s.setPc j inv .done).rootEnd else s.setPc j inv .done
  | .nilIndex => s.setPc j inv .failed

def invoke (s : FuncList κ φ) : FuncList κ φ :=
  let rootInvoker := !s.isInvoking
  let s := { s with isInvoking := true }
  let s := if s.isDirty then s.sort else s
  let inv : Invocation := ⟨rootInvoker, s.funcs, (s.array s.funcs).length, .call 0⟩
  { s with invocations := s.invocations ++ [inv] }.goOn s.invocations.length inv 0

def resume (s : FuncList κ φ) (j : Nat) : Option (FuncList κ φ) :=
  s.invocations[j]?.bind fun inv => match inv.pc with
    | .call pos => some (s.goOn j inv pos)
    | .done | .failed => none

def step (s : FuncList κ φ) : EventxStep κ φ → Option (FuncList κ φ)
  | .add priority func => some (s.add priority func)
  | .remove priority func => some (s.remove priority func)
  | .invoke => some s.invoke
  | .resume j => s.resume j

/-- A list of its own for a new key. -/
def ctor : FuncList κ φ :=
  { infos := [], arrays := [[]], keys := [], priorityMap := fun _ => none, isDirty := false, funcs := 0
    containCanceled := false, isInvoking := false, invocations := [], calls := [] }

end FuncList

/-- What events are for: the registrations, by priority and then in the order they were made, and for
each invocation those it still has to call, or `none` at its end. -/
structure Registry (κ φ : Type) where
  next : Nat
  registered : List (Registration κ φ)
  pending : List (Option (List (Registration κ φ)))
  calls : List (Nat × Registration κ φ)

namespace Registry

/-- The invocation calls the next callback that it still has to call. -/
def callNext (t : Registry κ φ) (j : Nat) : List (Registration κ φ) → Registry κ φ
  | [] => { t with pending := t.pending.set j none }
  | r :: rest => { t with pending := t.pending.set j (some rest), calls := t.calls ++ [(j, r)] }

/-- A registration is taken out of what is registered and of what is still to be called. -/
def drop (t : Registry κ φ) (r : Registration κ φ) : Registry κ φ :=
  { t with
    registered := t.registered.filter (·.id ≠ r.id)
    pending := t.pending.map (Option.map (List.filter (·.id ≠ r.id))) }

def step (t : Registry κ φ) : EventxStep κ φ → Option (Registry κ φ)
  | .add priority func => some { t with
      next := t.next + 1
      registered := t.registered.orderedInsert (fun a b => a.priority < b.priority)
        ⟨t.next, priority, func⟩ }
  | .remove priority func =>
      match t.registered.find? fun r => r.priority = priority ∧ r.func = func with
      | some r => some (t.drop r)
      | none => some t
  | .invoke => some ({ t with pending := t.pending ++ [some t.registered] }.callNext
      t.pending.length t.registered)
  | .resume j => t.pending[j]?.bind fun todo => todo.map (t.callNext j)

def start : Registry κ φ := ⟨0, [], [], []⟩

end Registry

/-- The order in which callbacks are called. -/
def Registration.Before (a b : Registration κ φ) : Prop :=
  a.priority < b.priority ∨ (a.priority = b.priority ∧ a.id < b.id)

namespace Registry
variable {t u : Registry κ φ} {j : Nat} {r : Registration κ φ} {rs : List (Registration κ φ)}

def callsOf (t : Registry κ φ) (j : Nat) : List (Registration κ φ) :=
  (t.calls.filter (·.1 = j)).map (·.2)

def todo (t : Registry κ φ) (j : Nat) : List (Registration κ φ) := (t.pending[j]?.join).getD []

/-- What an invocation has called and what it has still to call is in order, and registered. -/
structure Ordered (t : Registry κ φ) : Prop where
  ids : ∀ r ∈ t.registered, r.id < t.next
  distinct : (t.registered.map (·.id)).Nodup
  registered : t.registered.Pairwise Registration.Before
  calls : ∀ j, (t.callsOf j ++ t.todo j).Pairwise Registration.Before
  todo : ∀ j, ∀ r ∈ t.todo j, r ∈ t.registered
  begun : ∀ c ∈ t.calls, c.1 < t.pending.length

theorem insert_before (sorted : rs.Pairwise Registration.Before) (latest : ∀ a ∈ rs, a.id < r.id) :
    (rs.orderedInsert (fun a b => a.priority < b.priority) r).Pairwise Registration.Before := by
  induction rs with
  | nil => exact List.pairwise_singleton _ r
  | cons a rs ih =>
      obtain ⟨first, rest⟩ := List.pairwise_cons.mp sorted
      obtain ⟨older, latest⟩ := List.forall_mem_cons.mp latest
      rw [List.orderedInsert_cons]
      split
      · rename_i higher
        refine List.pairwise_cons.mpr ⟨List.forall_mem_cons.mpr ⟨.inl higher, fun b mem => ?_⟩, sorted⟩
        obtain lower | same := first b mem
        · exact .inl (higher.trans lower)
        · exact .inl (higher.trans_eq same.1)
      · rename_i after
        refine List.pairwise_cons.mpr ⟨fun b mem => ?_, ih rest latest⟩
        obtain rfl | mem := (List.mem_orderedInsert _).mp mem
        · obtain lower | same := lt_or_eq_of_le (not_lt.mp after)
          · exact .inl lower
          · exact .inr ⟨same, older⟩
        · exact first b mem

theorem ordered_drop (ordered : t.Ordered) : (t.drop r).Ordered := by
  have todo_drop : ∀ j, (t.drop r).todo j = (t.todo j).filter (·.id ≠ r.id) := by
    intro j
    simp only [todo, drop, List.getElem?_map]
    cases t.pending[j]? with
    | none => rfl
    | some todo => cases todo <;> rfl
  refine ⟨fun r' mem => ordered.ids r' (List.mem_of_mem_filter mem),
    ordered.distinct.sublist (List.filter_sublist.map _), ordered.registered.filter _,
    fun j => ?_, fun j r' mem => ?_, fun c mem => ?_⟩
  · rw [todo_drop]
    exact (ordered.calls j).sublist (List.Sublist.append_left List.filter_sublist _)
  · rw [todo_drop] at mem
    obtain ⟨mem, other⟩ := List.mem_filter.mp mem
    exact List.mem_filter.mpr ⟨ordered.todo j r' mem, other⟩
  · exact (ordered.begun c mem).trans_eq (List.length_map _).symm

omit [LinearOrder κ] [DecidableEq φ] in
theorem todo_set {todo : Option (List (Registration κ φ))} {k : Nat} (inside : j < t.pending.length) :
    ({ t with pending := t.pending.set j todo } : Registry κ φ).todo k =
      if k = j then todo.getD [] else t.todo k := by
  simp only [Registry.todo, List.getElem?_set]
  by_cases here : j = k
  · subst here
    simp [inside]
  · simp [here, Ne.symm here]

theorem ordered_callNext (ordered : t.Ordered) (pending : t.pending[j]? = some (some rs)) :
    (t.callNext j rs).Ordered := by
  have inside : j < t.pending.length := (List.getElem?_eq_some_iff.mp pending).1
  have here : t.todo j = rs := by simp only [todo, pending, Option.join_some, Option.getD_some]
  cases rs with
  | nil =>
      have todo_next : ∀ k, (t.callNext j []).todo k = t.todo k := by
        intro k
        refine (todo_set inside).trans ?_
        split
        · rename_i same
          rw [same, here]
          rfl
        · rfl
      refine ⟨ordered.ids, ordered.distinct, ordered.registered, fun k => ?_, fun k => ?_, fun c mem => ?_⟩
      · rw [todo_next]
        exact ordered.calls k
      · rw [todo_next]
        exact ordered.todo k
      · exact (ordered.begun c mem).trans_eq List.length_set.symm
  | cons r rest =>
      have todo_next : ∀ k, (t.callNext j (r :: rest)).todo k = if k = j then rest else t.todo k :=
        fun k => todo_set inside
      have calls_next : ∀ k, (t.callNext j (r :: rest)).callsOf k =
          t.callsOf k ++ if k = j then [r] else [] := by
        intro k
        simp only [callsOf, callNext, List.filter_append, List.map_append]
        by_cases same : k = j
        · simp [same]
        · simp [same, Ne.symm same]
      refine ⟨ordered.ids, ordered.distinct, ordered.registered, fun k => ?_, fun k r' mem => ?_, fun c mem => ?_⟩
      · rw [todo_next, calls_next]
        split
        · rename_i same
          rw [List.append_assoc, same, List.singleton_append, ← here]
          exact ordered.calls j
        · rw [List.append_nil]
          exact ordered.calls k
      · rw [todo_next] at mem
        split at mem
        · exact ordered.todo j r' (here ▸ List.mem_cons_of_mem r mem)
        · exact ordered.todo k r' mem
      · refine lt_of_lt_of_eq ?_ List.length_set.symm
        obtain old | new := List.mem_append.mp mem
        · exact ordered.begun c old
        · obtain rfl := List.mem_singleton.mp new
          exact inside

theorem ordered_begin (ordered : t.Ordered) :
    ({ t with pending := t.pending ++ [some t.registered] } : Registry κ φ).Ordered := by
  have todo_begin : ∀ k, ({ t with pending := t.pending ++ [some t.registered] } :
      Registry κ φ).todo k = if k = t.pending.length then t.registered else t.todo k := by
    intro k
    simp only [todo]
    obtain before | rfl | after := lt_trichotomy k t.pending.length
    · rw [List.getElem?_append_left before, if_neg before.ne]
    · rw [List.getElem?_concat_length, if_pos rfl, Option.join_some, Option.getD_some]
    · rw [List.getElem?_eq_none, List.getElem?_eq_none after.le, if_neg after.ne']
      simpa using after
  refine ⟨ordered.ids, ordered.distinct, ordered.registered, fun k => ?_, fun k r mem => ?_, fun c mem => ?_⟩
  · rw [todo_begin]
    split
    · rename_i new
      have none_yet : t.callsOf k = [] := by
        rw [callsOf, List.map_eq_nil_iff, List.filter_eq_nil_iff]
        intro c mem same
        exact absurd (of_decide_eq_true same) (new ▸ (ordered.begun c mem).ne)
      have whole : t.callsOf k ++ t.registered = t.registered := by
        rw [none_yet, List.nil_append]
      exact whole.symm ▸ ordered.registered
    · exact ordered.calls k
  · rw [todo_begin] at mem
    split at mem
    · exact mem
    · exact ordered.todo k r mem
  · exact (ordered.begun c mem).trans_le (List.length_append ▸ Nat.le_add_right _ _)

theorem ordered_step {e : EventxStep κ φ} (ordered : t.Ordered) (moved : t.step e = some u) :
    u.Ordered := by
  cases e with
  | add priority func =>
      obtain rfl := Option.some.inj moved
      refine ⟨fun r mem => ?_, ?_, insert_before ordered.registered ordered.ids, ordered.calls,
        fun j r mem => ?_, ordered.begun⟩
      · obtain rfl | old := (List.mem_orderedInsert _).mp mem
        · exact Nat.lt_succ_self _
        · exact (ordered.ids r old).trans (Nat.lt_succ_self _)
      · rw [((List.perm_orderedInsert _ _ t.registered).map _).nodup_iff, List.map_cons,
          List.nodup_cons, List.mem_map]
        refine ⟨?_, ordered.distinct⟩
        rintro ⟨r, mem, same⟩
        exact absurd same (ordered.ids r mem).ne
      · exact (List.mem_orderedInsert _).mpr (.inr (ordered.todo j r mem))
  | remove priority func =>
      rw [step] at moved
      split at moved
      · obtain rfl := Option.some.inj moved
        exact ordered_drop ordered
      · obtain rfl := Option.some.inj moved
        exact ordered
  | invoke =>
      obtain rfl := Option.some.inj moved
      exact ordered_callNext (ordered_begin ordered) List.getElem?_concat_length
  | resume j =>
      simp only [step, Option.bind_eq_some_iff, Option.map_eq_some_iff] at moved
      obtain ⟨_, pending, rs, rfl, rfl⟩ := moved
      exact ordered_callNext ordered pending

omit [DecidableEq φ] in
theorem ordered_start : (start : Registry κ φ).Ordered :=
  ⟨fun _ mem => absurd mem List.not_mem_nil, .nil, .nil, fun _ => .nil,
    fun _ _ mem => absurd mem List.not_mem_nil, fun _ mem => absurd mem List.not_mem_nil⟩

end Registry

namespace Registry
variable {r : Registration κ φ} {rs : List (Registration κ φ)} {m : Nat} {p : κ}

omit [DecidableEq φ] in
theorem insert_older (late : m ≤ r.id) :
    (rs.orderedInsert (fun a b => a.priority < b.priority) r).filter (·.id < m) =
      rs.filter (·.id < m) := by
  have skipped : ¬r.id < m := not_lt.mpr late
  induction rs with
  | nil => simp [skipped]
  | cons a rs ih =>
      rw [List.orderedInsert_cons]
      split
      · simp [List.filter_cons, skipped]
      · simp only [List.filter_cons, ih]

omit [DecidableEq φ] in
theorem insert_priority (sorted : rs.Pairwise Registration.Before) :
    (rs.orderedInsert (fun a b => a.priority < b.priority) r).filter (·.priority = p) =
      rs.filter (·.priority = p) ++ if r.priority = p then [r] else [] := by
  induction rs with
  | nil => by_cases same : r.priority = p <;> simp [same]
  | cons a rs ih =>
      obtain ⟨first, rest⟩ := List.pairwise_cons.mp sorted
      rw [List.orderedInsert_cons]
      split
      · rename_i higher
        by_cases same : r.priority = p
        · have none_such : (a :: rs).filter (·.priority = p) = [] := by
            refine List.filter_eq_nil_iff.mpr (List.forall_mem_cons.mpr ⟨?_, fun b mem => ?_⟩)
            · simpa using (same ▸ higher).ne'
            · obtain lower | level := first b mem
              · simpa using ((same ▸ higher).trans lower).ne'
              · simpa using ((same ▸ higher).trans_eq level.1).ne'
          rw [List.filter_cons_of_pos (by simpa using same), none_such, if_pos same, List.nil_append]
        · rw [List.filter_cons_of_neg (by simpa using same), if_neg same, List.append_nil]
      · rw [List.filter_cons, List.filter_cons, ih rest]
        split <;> rfl

end Registry

/-- How many callbacks the loop has got past. -/
def Invocation.place (inv : Invocation) : Nat :=
  match inv.pc with
  | .call pos => pos
  | .done | .failed => inv.len

namespace FuncList
variable {s : FuncList κ φ} {t : Registry κ φ} {m j pos : Nat} {inv : Invocation}

def isLive (s : FuncList κ φ) (info : Nat) : Bool := (s.func info).isSome

/-- What the loop of an invocation has still to look at. -/
def left (s : FuncList κ φ) (inv : Invocation) : List Nat :=
  if inv.place < inv.len then (s.array inv.funcs).drop inv.place else []

/-- An invocation is where it should be: what is left of its array is what it has to call, but for
what has been removed. -/
inductive Follows (m : Nat) (s : FuncList κ φ) (inv : Invocation) :
    Option (List (Registration κ φ)) → Prop
  | call {pos : Nat} {todo : List (Registration κ φ)} (pc : inv.pc = .call pos)
      (array : inv.funcs < s.arrays.length)
      (len : inv.place < inv.len → (s.array inv.funcs).length = inv.len)
      (left : (s.left inv).filter s.isLive = todo.map (·.id)) (sorted : ∀ r ∈ todo, r.id < m) :
      Follows m s inv (some todo)
  | done (pc : inv.pc = .done) : Follows m s inv none

/-- The list serves the registrations: its array holds those that were there at the last sorting, which
are the ones before `m`. -/
structure Serves (m : Nat) (s : FuncList κ φ) (t : Registry κ φ) : Prop where
  infos : s.infos.length = t.next
  sorted : m ≤ t.next
  info : ∀ r ∈ t.registered, s.infos[r.id]? = some ⟨r.priority, some r.func⟩
  refs : ∀ a ∈ s.arrays, ∀ info ∈ a, info < s.infos.length
  keys : ∀ r ∈ t.registered, r.priority ∈ s.keys
  distinct : s.keys.Nodup
  priorityMap : ∀ p ∈ s.keys,
    s.priorityMap p = some ((t.registered.filter (·.priority = p)).map (·.id))
  unmapped : ∀ p ∉ s.keys, s.priorityMap p = none
  clean : s.isDirty = false → ∀ r ∈ t.registered, r.id < m
  funcs : s.funcs < s.arrays.length
  live : (s.array s.funcs).filter s.isLive = (t.registered.filter (·.id < m)).map (·.id)
  same : s.invocations.length = t.pending.length
  follows : ∀ (j : Nat) inv, s.invocations[j]? = some inv → ∃ todo, t.pending[j]? = some todo ∧
    Follows m s inv todo
  calls : s.calls = t.calls

omit [LinearOrder κ] [DecidableEq φ] in
theorem mem_left {info : Nat} (mem : info ∈ s.left inv) : info ∈ s.array inv.funcs := by
  rw [left] at mem
  split at mem
  · exact List.mem_of_mem_drop mem
  · exact absurd mem List.not_mem_nil

omit [LinearOrder κ] [DecidableEq φ] in
theorem mem_array {a info : Nat} (mem : info ∈ s.array a) : ∃ arr ∈ s.arrays, info ∈ arr := by
  rw [array, List.getD_eq_getElem?_getD] at mem
  cases found : s.arrays[a]? with
  | none =>
      rw [found] at mem
      exact absurd mem List.not_mem_nil
  | some arr =>
      rw [found] at mem
      exact ⟨arr, List.mem_of_getElem? found, mem⟩

omit [LinearOrder κ] [DecidableEq φ] in
theorem Follows.frame {s' : FuncList κ φ} {todo : Option (List (Registration κ φ))}
    (follows : Follows m s inv todo) (arrays : s'.arrays = s.arrays)
    (live : ∀ a ∈ s.arrays, ∀ info ∈ a, s'.isLive info = s.isLive info) : Follows m s' inv todo := by
  cases follows with
  | done pc => exact .done pc
  | call pc array len left older =>
      have array_same : s'.array = s.array := by
        funext a
        rw [FuncList.array, FuncList.array, arrays]
      refine .call pc (arrays ▸ array) (array_same ▸ len) ?_ older
      have left_same : s'.left inv = s.left inv := by rw [FuncList.left, FuncList.left, array_same]
      rw [left_same, ← left]
      refine List.filter_congr fun info mem => ?_
      obtain ⟨a, here, mem⟩ := mem_array (mem_left mem)
      exact live a here info mem

theorem Serves.isLive {r : Registration κ φ} (serves : Serves m s t) (mem : r ∈ t.registered) :
    s.isLive r.id = true := by
  rw [FuncList.isLive, func, serves.info r mem]
  rfl

omit [DecidableEq φ] in
theorem array_sort {a : Nat} (old : a < s.arrays.length) : s.sort.array a = s.array a := by
  simp only [array, sort, List.getD_eq_getElem?_getD, List.getElem?_append_left old]

theorem array_sorted (serves : Serves m s t) (ordered : t.Ordered) :
    s.sort.array s.sort.funcs = t.registered.map (·.id) := by
  have order : t.registered.Pairwise fun a b => a.priority ≤ b.priority := by
    refine ordered.registered.imp fun before => ?_
    obtain lower | same := before
    · exact lower.le
    · exact same.1.le
  have rising : (s.keys.insertionSort (· ≤ ·)).Pairwise (· < ·) := by
    have distinct := (List.perm_insertionSort (· ≤ ·) s.keys).nodup_iff.mpr serves.distinct
    exact ((List.pairwise_insertionSort (· ≤ ·) s.keys).and distinct).imp fun both =>
      lt_of_le_of_ne both.1 both.2
  have keys : ∀ r ∈ t.registered, r.priority ∈ s.keys.insertionSort (· ≤ ·) :=
    fun r mem => (List.mem_insertionSort _).mpr (serves.keys r mem)
  calc s.sort.array s.sort.funcs
      = (s.keys.insertionSort (· ≤ ·)).flatMap fun p => (s.priorityMap p).getD [] := by
        simp only [array, sort, List.getD_eq_getElem?_getD, List.getElem?_concat_length,
          Option.getD_some]
    _ = (s.keys.insertionSort (· ≤ ·)).flatMap fun p =>
          (t.registered.filter (·.priority = p)).map (·.id) := by
        refine List.flatMap_congr fun p mem => ?_
        rw [serves.priorityMap p ((List.mem_insertionSort _).mp mem), Option.getD_some]
    _ = t.registered.map (·.id) := by
        rw [← List.map_flatMap, flatMap_filter_keys order rising keys]

theorem sort_serves (serves : Serves m s t) (ordered : t.Ordered) : Serves t.next s.sort t := by
  have sorted := array_sorted serves ordered
  have all : t.registered.filter (·.id < t.next) = t.registered :=
    List.filter_eq_self.mpr fun r mem => decide_eq_true (ordered.ids r mem)
  refine ⟨serves.infos, le_rfl, serves.info, fun a mem info here => ?_, serves.keys, serves.distinct,
    serves.priorityMap, serves.unmapped, fun _ => ordered.ids, ?_, ?_, serves.same,
    fun j inv found => ?_, serves.calls⟩
  · obtain old | new := List.mem_append.mp mem
    · exact serves.refs a old info here
    · have ids : a = t.registered.map (·.id) := by
        rw [List.mem_singleton.mp new, ← sorted]
        simp only [array, sort, List.getD_eq_getElem?_getD, List.getElem?_concat_length,
          Option.getD_some]
      rw [ids, List.mem_map] at here
      obtain ⟨r, mem, rfl⟩ := here
      exact (ordered.ids r mem).trans_eq serves.infos.symm
  · exact (Nat.lt_succ_self _).trans_eq (List.length_append ▸ rfl)
  · rw [sorted, all]
    refine List.filter_eq_self.mpr fun info mem => ?_
    obtain ⟨r, registered, rfl⟩ := List.mem_map.mp mem
    exact serves.isLive registered
  · obtain ⟨todo, pending, follows⟩ := serves.follows j inv found
    refine ⟨todo, pending, ?_⟩
    cases follows with
    | call pc array len left older =>
        refine .call pc (array.trans_le (List.length_append ▸ Nat.le_add_right _ _)) ?_ ?_ ?_
        · rw [array_sort array]
          exact len
        · rw [FuncList.left, array_sort array]
          exact left
        · intro r mem
          refine ordered.ids r (ordered.todo j r ?_)
          simpa only [Registry.todo, pending, Option.join_some, Option.getD_some] using mem
    | done pc => exact .done pc

/-- The loop comes to the first callback that is still there, or to the end of the array. -/
inductive Comes (s : FuncList κ φ) (funcs : List Nat) (pos : Nat) : Scan κ φ → Prop
  | finished (gone : (funcs.drop pos).filter s.isLive = []) : Comes s funcs pos .finished
  | calls (pos' : Nat) (r : Registration κ φ)
      (here : s.infos[r.id]? = some ⟨r.priority, some r.func⟩)
      (left : (funcs.drop pos).filter s.isLive = r.id :: (funcs.drop pos').filter s.isLive) :
      Comes s funcs pos (.calls pos' r)

omit [LinearOrder κ] [DecidableEq φ] in
theorem scan_comes {funcs : List Nat} {n : Nat} (len : funcs.length = pos + n) :
    Comes s funcs pos (s.scan funcs pos n) := by
  induction n generalizing pos with
  | zero =>
      refine .finished ?_
      rw [List.drop_eq_nil_of_le (show funcs.length ≤ pos by omega), List.filter_nil]
  | succ n ih =>
      have inside : pos < funcs.length := by omega
      have next : Comes s funcs (pos + 1) (s.scan funcs (pos + 1) n) := ih (by omega)
      have cons := List.drop_eq_getElem_cons inside
      have skip (gone : s.isLive funcs[pos] = false) :
          Comes s funcs pos (s.scan funcs (pos + 1) n) := by
        have same : (funcs.drop pos).filter s.isLive = (funcs.drop (pos + 1)).filter s.isLive := by
          rw [cons, List.filter_cons_of_neg (by simp [gone])]
        generalize s.scan funcs (pos + 1) n = scanned at next ⊢
        cases next with
        | finished gone => exact .finished (same.trans gone)
        | calls pos' r here left => exact .calls pos' r here (same.trans left)
      rw [scan, List.getElem?_eq_getElem inside]
      cases found : s.infos[funcs[pos]]? with
      | none =>
          simp only [found]
          exact skip (by simp [FuncList.isLive, func, found])
      | some info =>
          obtain ⟨priority, _ | func⟩ := info
          · simp only [found]
            exact skip (by simp [FuncList.isLive, FuncList.func, found])
          · simp only [found]
            refine .calls (pos + 1) ⟨funcs[pos], priority, func⟩ found ?_
            rw [cons, List.filter_cons_of_pos (by simp [FuncList.isLive, FuncList.func, found])]

/-- An invocation gets to another place, and the registry with it. -/
theorem setPc_serves {pc : InvokePc} {todo : Option (List (Registration κ φ))}
    (serves : Serves m s t) (found : s.invocations[j]? = some inv)
    (follows : Follows m s { inv with pc } todo) :
    Serves m (s.setPc j inv pc) { t with pending := t.pending.set j todo } := by
  refine ⟨serves.infos, serves.sorted, serves.info, serves.refs, serves.keys, serves.distinct, serves.priorityMap,
    serves.unmapped, serves.clean, serves.funcs, serves.live, ?_, fun k inv' here => ?_, serves.calls⟩
  · rw [setPc, List.length_set, List.length_set, serves.same]
  · have inside : j < t.pending.length := by
      rw [← serves.same]
      exact (List.getElem?_eq_some_iff.mp found).1
    by_cases same : j = k
    · subst same
      rw [setPc, List.getElem?_set_self (serves.same ▸ inside)] at here
      refine ⟨todo, List.getElem?_set_self inside, ?_⟩
      exact Option.some.inj here ▸ follows.frame rfl fun _ _ _ _ => rfl
    · rw [setPc, List.getElem?_set_ne same] at here
      obtain ⟨todo', pending, follows'⟩ := serves.follows k inv' here
      exact ⟨todo', (List.getElem?_set_ne same).trans pending, follows'.frame rfl fun _ _ _ _ => rfl⟩

theorem Serves.todo {rs : List (Registration κ φ)} (serves : Serves m s t) (ordered : t.Ordered)
    (pending : t.pending[j]? = some (some rs)) :
    ∀ r ∈ rs, s.infos[r.id]? = some ⟨r.priority, some r.func⟩ := by
  intro r mem
  refine serves.info r (ordered.todo j r ?_)
  simpa only [Registry.todo, pending, Option.join_some, Option.getD_some] using mem

/-- The loop comes to what the invocation has to call next. -/
theorem scan_serves {rs : List (Registration κ φ)} (pc : inv.pc = .call pos)
    (len : inv.place < inv.len → (s.array inv.funcs).length = inv.len)
    (left : (s.left inv).filter s.isLive = rs.map (·.id))
    (infos : ∀ r ∈ rs, s.infos[r.id]? = some ⟨r.priority, some r.func⟩) :
    (s.scan (s.array inv.funcs) pos (inv.len - pos) = .finished ∧ rs = []) ∨
    ∃ pos' r rest, s.scan (s.array inv.funcs) pos (inv.len - pos) = .calls pos' r ∧
      rs = r :: rest ∧ (s.array inv.funcs).length = inv.len ∧
      (s.left { inv with pc := .call pos' }).filter s.isLive = rest.map (·.id) := by
  have place : inv.place = pos := by rw [Invocation.place, pc]
  rw [FuncList.left, place] at left
  rw [place] at len
  by_cases more : pos < inv.len
  · rw [if_pos more] at left
    have whole : (s.array inv.funcs).length = pos + (inv.len - pos) := by
      have here := len more
      omega
    have comes := scan_comes (s := s) whole
    generalize s.scan (s.array inv.funcs) pos (inv.len - pos) = scanned at comes ⊢
    cases comes with
    | finished gone => exact .inl ⟨rfl, List.map_eq_nil_iff.mp (left.symm.trans gone)⟩
    | calls pos' r here next =>
        obtain ⟨r', rest, rfl, same, others⟩ := List.map_eq_cons_iff.mp (left.symm.trans next)
        have known := infos r' List.mem_cons_self
        have one : r' = r := by
          obtain ⟨id, priority, func⟩ := r
          obtain ⟨id', priority', func'⟩ := r'
          obtain rfl : id' = id := same
          have info := Option.some.inj (known.symm.trans here)
          simp only [FuncInfo.mk.injEq, Option.some.injEq] at info
          rw [info.1, info.2]
        refine .inr ⟨pos', r, rest, rfl, one ▸ rfl, len more, ?_⟩
        rw [FuncList.left]
        split
        · exact others.symm
        · rename_i past
          have short : (s.array inv.funcs).length ≤ pos' := by
            rw [len more]
            exact not_lt.mp past
          rw [others, List.drop_eq_nil_of_le short]
  · rw [if_neg more, List.filter_nil] at left
    refine .inl ⟨?_, List.map_eq_nil_iff.mp left.symm⟩
    rw [Nat.sub_eq_zero_of_le (not_lt.mp more), scan]

/-- An invocation that goes on calls what it has to call next. -/
theorem goOn_serves {rs : List (Registration κ φ)} (serves : Serves m s t) (ordered : t.Ordered)
    (found : s.invocations[j]? = some inv) (pending : t.pending[j]? = some (some rs))
    (pc : inv.pc = .call pos) : ∃ m, Serves m (s.goOn j inv pos) (t.callNext j rs) := by
  obtain ⟨todo, pending', follows⟩ := serves.follows j inv found
  obtain rfl := Option.some.inj (pending.symm.trans pending')
  cases follows with
  | call _ array len left older =>
      obtain ⟨next, rfl⟩ | ⟨pos', r, rest, next, rfl, whole, after⟩ :=
        scan_serves pc len left (serves.todo ordered pending)
      · have ended : Follows m s { inv with pc := .done } (none : Option (List (Registration κ φ))) :=
          .done rfl
        have set := setPc_serves serves found ended
        simp only [goOn, next]
        split
        · have rooted : Serves m { s.setPc j inv .done with isInvoking := false }
              (t.callNext j []) := { set with
                follows := fun k inv' here => (set.follows k inv' here).imp fun _ both =>
                  ⟨both.1, both.2.frame rfl fun _ _ _ _ => rfl⟩ }
          rw [rootEnd]
          split
          · exact ⟨_, sort_serves rooted (Registry.ordered_callNext ordered pending)⟩
          · exact ⟨m, rooted⟩
        · exact ⟨m, set⟩
      · have older' : ∀ r' ∈ rest, r'.id < m := fun r' mem => older r' (List.mem_cons_of_mem r mem)
        have goes : Follows m s { inv with pc := .call pos' } (some rest) :=
          .call rfl array (fun _ => whole) after older'
        have set := setPc_serves serves found goes
        simp only [goOn, next]
        exact ⟨m, { set with
          calls := congrArg (· ++ [(j, r)]) serves.calls
          follows := fun k inv' here => (set.follows k inv' here).imp fun _ both =>
            ⟨both.1, both.2.frame rfl fun _ _ _ _ => rfl⟩ }⟩

theorem invoke_serves (serves : Serves m s t) (ordered : t.Ordered) :
    ∃ m, Serves m s.invoke
      ({ t with pending := t.pending ++ [some t.registered] }.callNext t.pending.length
        t.registered) := by
  have invoking : Serves m { s with isInvoking := true } t :=
    { serves with
      follows := fun k inv here => (serves.follows k inv here).imp fun _ both =>
        ⟨both.1, both.2.frame rfl fun _ _ _ _ => rfl⟩ }
  have sorted : ∃ m, Serves m (if s.isDirty then { s with isInvoking := true }.sort
      else { s with isInvoking := true }) t ∧ ∀ r ∈ t.registered, r.id < m := by
    split
    · exact ⟨_, sort_serves invoking ordered, ordered.ids⟩
    · rename_i clean
      exact ⟨m, invoking, serves.clean (Bool.eq_false_iff.mpr clean)⟩
  obtain ⟨m, serves, all⟩ := sorted
  rw [invoke]
  generalize (if s.isDirty then { s with isInvoking := true }.sort
    else { s with isInvoking := true }) = s' at serves ⊢
  have whole : t.registered.filter (·.id < m) = t.registered :=
    List.filter_eq_self.mpr fun r mem => decide_eq_true (all r mem)
  have begun : Follows m s' ⟨!s.isInvoking, s'.funcs, (s'.array s'.funcs).length, .call 0⟩
      (some t.registered) := by
    refine .call rfl serves.funcs (fun _ => rfl) ?_ all
    have left : s'.left ⟨!s.isInvoking, s'.funcs, (s'.array s'.funcs).length, .call 0⟩ =
        s'.array s'.funcs := by
      simp only [FuncList.left, Invocation.place, List.drop_zero]
      split
      · rfl
      · rename_i empty
        exact (List.length_eq_zero_iff.mp (Nat.eq_zero_of_not_pos empty)).symm
    rw [left, serves.live, whole]
  have started : Serves m
      { s' with
        invocations := s'.invocations ++
          [⟨!s.isInvoking, s'.funcs, (s'.array s'.funcs).length, .call 0⟩] }
      { t with pending := t.pending ++ [some t.registered] } := by
    refine { serves with same := ?_, follows := fun k inv here => ?_ }
    · rw [List.length_append, List.length_append, serves.same]
      rfl
    · obtain old | ⟨rfl, rfl⟩ := concat_cases here
      · obtain ⟨todo, pending, follows⟩ := serves.follows k inv old
        have before : k < t.pending.length := (List.getElem?_eq_some_iff.mp pending).1
        exact ⟨todo, (List.getElem?_append_left before).trans pending,
          follows.frame rfl fun _ _ _ _ => rfl⟩
      · exact ⟨some t.registered, serves.same ▸ List.getElem?_concat_length,
          begun.frame rfl fun _ _ _ _ => rfl⟩
  rw [← serves.same]
  exact goOn_serves started (Registry.ordered_begin ordered) List.getElem?_concat_length
    (serves.same ▸ List.getElem?_concat_length) rfl

theorem Serves.mem_keys {p : κ} (serves : Serves m s t) :
    p ∈ s.keys ↔ (s.priorityMap p).isSome := by
  constructor
  · intro mem
    rw [serves.priorityMap p mem]
    rfl
  · intro mapped
    by_contra absent
    rw [serves.unmapped p absent] at mapped
    cases mapped

theorem Serves.arr {p : κ} (serves : Serves m s t) :
    (s.priorityMap p).getD [] = (t.registered.filter (·.priority = p)).map (·.id) := by
  by_cases mem : p ∈ s.keys
  · rw [serves.priorityMap p mem, Option.getD_some]
  · have none_such : t.registered.filter (·.priority = p) = [] := by
      refine List.filter_eq_nil_iff.mpr fun r registered same => mem ?_
      exact of_decide_eq_true same ▸ serves.keys r registered
    rw [serves.unmapped p mem, none_such]
    rfl

theorem mem_keys_add {p q : κ} {f : φ} (serves : Serves m s t) :
    q ∈ (s.add p f).keys ↔ q = p ∨ q ∈ s.keys := by
  rw [add]
  simp only
  split
  · rename_i known
    refine ⟨.inr, fun either => either.elim (fun same => ?_) id⟩
    exact same ▸ serves.mem_keys.mpr known
  · rw [List.mem_append, List.mem_singleton, or_comm]

theorem add_serves {p : κ} {f : φ} {registered : List (Registration κ φ)} (serves : Serves m s t)
    (ordered : t.Ordered)
    (inserted : t.registered.orderedInsert (fun a b => a.priority < b.priority) ⟨t.next, p, f⟩ =
      registered) : Serves m (s.add p f) { t with next := t.next + 1, registered } := by
  have mem_inserted : ∀ {r}, r ∈ registered ↔ r = ⟨t.next, p, f⟩ ∨ r ∈ t.registered := by
    intro r
    rw [← inserted, List.mem_orderedInsert]
  have old : ∀ a ∈ s.arrays, ∀ info ∈ a, (s.add p f).isLive info = s.isLive info := by
    intro a mem info here
    simp only [FuncList.isLive, func, add, List.getElem?_append_left (serves.refs a mem info here)]
  refine ⟨?_, serves.sorted.trans (Nat.le_succ _), fun r mem => ?_, fun a mem info here => ?_,
    fun r mem => ?_, ?_, fun q mem => ?_, fun q absent => ?_, fun clean => (nomatch clean),
    serves.funcs, ?_, serves.same, fun j inv here => ?_, serves.calls⟩
  · simp only [add, List.length_append, serves.infos, List.length_singleton]
  · obtain rfl | mem := mem_inserted.mp mem
    · simp only [add, ← serves.infos, List.getElem?_concat_length]
    · have before := (ordered.ids r mem).trans_eq serves.infos.symm
      simp only [add, List.getElem?_append_left before, serves.info r mem]
  · refine (serves.refs a mem info here).trans_le ?_
    simp only [add, List.length_append, Nat.le_add_right]
  · rw [mem_keys_add serves]
    obtain rfl | mem := mem_inserted.mp mem
    · exact .inl rfl
    · exact .inr (serves.keys r mem)
  · rw [add]
    simp only
    split
    · exact serves.distinct
    · rename_i new
      refine List.nodup_append_comm.mp (List.nodup_cons.mpr ⟨fun mem => new ?_, serves.distinct⟩)
      exact serves.mem_keys.mp mem
  · rw [← inserted, Registry.insert_priority ordered.registered]
    rw [mem_keys_add serves] at mem
    simp only [add, Function.update_apply, serves.infos, serves.arr]
    by_cases same : q = p
    · subst same
      rw [if_pos rfl, if_pos rfl, List.map_append, List.map_singleton]
    · rw [if_neg same, if_neg (Ne.symm same), List.append_nil]
      exact serves.priorityMap q (mem.resolve_left same)
  · rw [mem_keys_add serves, not_or] at absent
    simp only [add, Function.update_of_ne absent.1]
    exact serves.unmapped q absent.2
  · rw [← inserted, Registry.insert_older serves.sorted, ← serves.live]
    refine List.filter_congr fun info mem => ?_
    obtain ⟨a, here, mem⟩ := mem_array mem
    exact old a here info mem
  · obtain ⟨todo, pending, follows⟩ := serves.follows j inv here
    exact ⟨todo, pending, follows.frame rfl old⟩

theorem isTarget_of {r : Registration κ φ} {p : κ} {f : φ} (serves : Serves m s t)
    (mem : r ∈ t.registered) :
    s.isTarget p f r.id = decide (r.priority = p ∧ r.func = f) := by
  simp only [isTarget, serves.info r mem, Option.any_some, Option.some.injEq]
  exact decide_eq_decide.mpr and_comm

theorem isLive_of_isTarget {p : κ} {f : φ} {info : Nat} (target : s.isTarget p f info = true) :
    s.isLive info = true := by
  obtain ⟨i, found, same⟩ := (Option.any_eq_true _ _).mp target
  simp only [FuncList.isLive, func, found, Option.bind_some, (of_decide_eq_true same).1,
    Option.isSome_some]

/-- The array holds a callback that is looked for if it was there at the last sorting. -/
theorem target_eq {p : κ} {f : φ} (serves : Serves m s t) : s.target p f =
    (t.registered.find? fun r => r.id < m ∧ r.priority = p ∧ r.func = f).map (·.id) := by
  have live : (fun info => decide (s.isLive info = true ∧ s.isTarget p f info = true)) =
      s.isTarget p f := by
    funext info
    cases target : s.isTarget p f info with
    | true => simp [isLive_of_isTarget target]
    | false => simp
  calc s.target p f
      = ((s.array s.funcs).filter s.isLive).find? (s.isTarget p f) := by
        rw [target, List.find?_filter, live]
    _ = ((t.registered.filter (·.id < m)).find? (s.isTarget p f ∘ (·.id))).map (·.id) := by
        rw [serves.live, List.find?_map]
    _ = _ := by
        rw [List.find?_filter]
        refine congrArg (Option.map _) (List.find?_congr fun r mem => ?_)
        simp only [Function.comp_apply, isTarget_of serves mem, decide_eq_true_eq]

omit [DecidableEq φ] in
/-- In an ordered list the first of two that are looked for is found. -/
theorem find_before {rs : List (Registration κ φ)} {q : Registration κ φ → Bool}
    {r r' : Registration κ φ} (sorted : rs.Pairwise Registration.Before) (found : rs.find? q = some r)
    (mem : r' ∈ rs) (looked : q r' = true) : r' = r ∨ r.Before r' := by
  obtain ⟨_, front, back, rfl, skipped⟩ := List.find?_eq_some_iff_append.mp found
  obtain early | here := List.mem_append.mp mem
  · have other := skipped r' early
    rw [looked] at other
    cases other
  · obtain rfl | late := List.mem_cons.mp here
    · exact .inl rfl
    · exact .inr ((List.pairwise_cons.mp (List.pairwise_append.mp sorted).2.1).1 r' late)

omit [DecidableEq φ] in
theorem find_early {q : Registration κ φ → Bool} {rs : List (Registration κ φ)}
    {r : Registration κ φ} (found : rs.find? q = some r) (early : r.id < m) :
    (rs.find? fun r => r.id < m ∧ q r = true) = some r := by
  obtain ⟨looked, front, back, whole, skipped⟩ := List.find?_eq_some_iff_append.mp found
  refine List.find?_eq_some_iff_append.mpr
    ⟨decide_eq_true ⟨early, looked⟩, front, back, whole, fun r' mem => ?_⟩
  have other := skipped r' mem
  rw [Bool.not_eq_true'] at other
  simp [other]

/-- The registration that is removed is in the array or came after the last sorting. -/
theorem target_found {p : κ} {f : φ} {r : Registration κ φ} (serves : Serves m s t)
    (ordered : t.Ordered)
    (found : (t.registered.find? fun r => r.priority = p ∧ r.func = f) = some r) :
    s.target p f = if r.id < m then some r.id else none := by
  rw [target_eq serves]
  have looked : r.priority = p ∧ r.func = f := by simpa using List.find?_some found
  split
  · rename_i early
    have first := find_early found early
    simp only [decide_eq_true_eq] at first
    rw [first]
    rfl
  · rename_i late
    rw [List.find?_eq_none.mpr, Option.map_none]
    intro r' mem both
    obtain ⟨early, same⟩ := of_decide_eq_true both
    obtain rfl | before := find_before ordered.registered found mem (decide_eq_true same)
    · exact late early
    · obtain higher | ⟨_, older⟩ := before
      · rw [looked.1, same.1] at higher
        exact lt_irrefl _ higher
      · exact late (older.trans early)

theorem target_none {p : κ} {f : φ} (serves : Serves m s t)
    (absent : (t.registered.find? fun r => r.priority = p ∧ r.func = f) = none) :
    s.target p f = none := by
  rw [target_eq serves, List.find?_eq_none.mpr, Option.map_none]
  intro r mem both
  refine List.find?_eq_none.mp absent r mem (decide_eq_true ?_)
  exact (of_decide_eq_true both).2

theorem Serves.func {r : Registration κ φ} (serves : Serves m s t) (mem : r ∈ t.registered) :
    s.func r.id = some r.func := by
  rw [FuncList.func, serves.info r mem, Option.bind_some]

theorem eraseP_found {p : κ} {f : φ} {r : Registration κ φ} (serves : Serves m s t)
    (ordered : t.Ordered)
    (found : (t.registered.find? fun r => r.priority = p ∧ r.func = f) = some r) :
    ((s.priorityMap p).getD []).eraseP (fun info => s.func info = some f) =
      ((t.drop r).registered.filter (·.priority = p)).map (·.id) := by
  have first : (t.registered.filter (·.priority = p)).find?
      ((fun info => decide (s.func info = some f)) ∘ (·.id)) = some r := by
    rw [List.find?_filter, ← found]
    refine List.find?_congr fun r' mem => decide_eq_decide.mpr ?_
    simp only [Function.comp_apply, serves.func mem, Option.some.injEq, decide_eq_true_eq]
  have distinct : ((t.registered.filter (·.priority = p)).map (·.id)).Nodup :=
    ordered.distinct.sublist (List.filter_sublist.map _)
  rw [serves.arr, List.eraseP_map, eraseP_keyed distinct first, Registry.drop, List.filter_comm]

theorem eraseP_absent {p : κ} {f : φ} (serves : Serves m s t)
    (absent : (t.registered.find? fun r => r.priority = p ∧ r.func = f) = none) :
    ((s.priorityMap p).getD []).eraseP (fun info => s.func info = some f) =
      (s.priorityMap p).getD [] := by
  refine List.eraseP_of_forall_not fun info mem same => ?_
  rw [serves.arr, List.mem_map] at mem
  obtain ⟨r, here, rfl⟩ := mem
  obtain ⟨here, priority⟩ := List.mem_filter.mp here
  rw [serves.func here] at same
  refine List.find?_eq_none.mp absent r here (decide_eq_true ⟨of_decide_eq_true priority, ?_⟩)
  exact Option.some.inj (of_decide_eq_true same)

/-- A registration is taken out of the list, in whatever way. -/
theorem drop_serves {s' : FuncList κ φ} {p : κ} {f : φ} {r : Registration κ φ} {arr : List Nat}
    (serves : Serves m s t) (ordered : t.Ordered) (mapped : s.priorityMap p = some arr)
    (found : (t.registered.find? fun r => r.priority = p ∧ r.func = f) = some r)
    (length : s'.infos.length = s.infos.length)
    (info : ∀ r' ∈ t.registered, r'.id ≠ r.id → s'.infos[r'.id]? = s.infos[r'.id]?)
    (refs : ∀ a ∈ s'.arrays, ∀ info ∈ a, info < s.infos.length)
    (keys : s'.keys = s.keys)
    (priorityMap : s'.priorityMap = Function.update s.priorityMap p
      (some (arr.eraseP fun info => s.func info = some f)))
    (dirty : s'.isDirty = s.isDirty) (funcs : s'.funcs < s'.arrays.length)
    (live : (s'.array s'.funcs).filter s'.isLive =
      ((s.array s.funcs).filter s.isLive).filter (· ≠ r.id))
    (invocations : s'.invocations = s.invocations)
    (follows : ∀ inv ∈ s.invocations, ∀ todo, Follows m s inv (some todo) →
      Follows m s' inv (some (todo.filter (·.id ≠ r.id))))
    (calls : s'.calls = s.calls) : Serves m s' (t.drop r) := by
  have mem_r : r ∈ t.registered := List.mem_of_find?_eq_some found
  have looked : r.priority = p ∧ r.func = f := by simpa using List.find?_some found
  have kept : ∀ {r'}, r' ∈ (t.drop r).registered ↔ r' ∈ t.registered ∧ r'.id ≠ r.id := by
    intro r'
    simp only [Registry.drop, List.mem_filter, decide_eq_true_eq]
  refine ⟨length.trans serves.infos, serves.sorted, fun r' mem => ?_, length ▸ refs,
    fun r' mem => ?_, keys ▸ serves.distinct, fun q mem => ?_, fun q absent => ?_,
    fun clean r' mem => ?_, funcs, ?_, ?_, fun j inv here => ?_, calls.trans serves.calls⟩
  · obtain ⟨mem, other⟩ := kept.mp mem
    exact (info r' mem other).trans (serves.info r' mem)
  · exact keys ▸ serves.keys r' (kept.mp mem).1
  · have erased := eraseP_found serves ordered found
    rw [mapped, Option.getD_some] at erased
    rw [priorityMap, erased, Function.update_apply]
    split
    · rename_i same
      rw [same]
    · rename_i other
      have same : t.registered.filter (·.priority = q) =
          (t.drop r).registered.filter (·.priority = q) := by
        rw [Registry.drop, List.filter_filter]
        refine List.filter_congr fun r' mem => ?_
        by_cases here : r'.priority = q
        · have apart : r'.id ≠ r.id := fun same => by
            have one := List.inj_on_of_nodup_map ordered.distinct mem mem_r same
            exact other (here.symm.trans ((congrArg _ one).trans looked.1))
          rw [decide_eq_true here, decide_eq_true apart, Bool.and_self]
        · rw [decide_eq_false here, Bool.false_and]
      rw [serves.priorityMap q (keys ▸ mem), same]
  · have other : q ≠ p := fun same => absent (keys ▸ same ▸ looked.1 ▸ serves.keys r mem_r)
    rw [priorityMap, Function.update_of_ne other]
    exact serves.unmapped q (keys ▸ absent)
  · exact serves.clean (dirty ▸ clean) r' (kept.mp mem).1
  · rw [live, serves.live, Registry.drop, List.filter_map, List.filter_comm]
    rfl
  · rw [invocations, serves.same, Registry.drop, List.length_map]
  · rw [invocations] at here
    obtain ⟨todo, pending, follow⟩ := serves.follows j inv here
    cases todo with
    | none =>
        cases follow with
        | done pc => exact ⟨none, by simp [Registry.drop, pending], .done pc⟩
    | some todo =>
        exact ⟨_, by simp [Registry.drop, pending], follows inv (List.mem_of_getElem? here) todo follow⟩

/-- A callback is not taken out of an array which an invocation in progress still goes through, nor
while one has still to come to it, unless it is marked so that it is skipped. -/
def Harmless (s : FuncList κ φ) : EventxStep κ φ → Prop
  | .remove priority func => s.isInvoking = false → ∀ info ∈ s.target priority func,
      ∀ inv ∈ s.invocations, ¬(inv.funcs = s.funcs ∧ inv.place < inv.len) ∧ info ∉ s.left inv
  | .add _ _ | .invoke | .resume _ => True

theorem filter_absent {todo : List (Registration κ φ)} {r : Registration κ φ}
    (absent : ∀ r' ∈ todo, r'.id ≠ r.id) : todo.filter (·.id ≠ r.id) = todo :=
  List.filter_eq_self.mpr fun r' mem => decide_eq_true (absent r' mem)

omit [DecidableEq φ] in
/-- An object is marked, and all that go through an array with it skip it. -/
theorem filter_marked {s' : FuncList κ φ} {info : Nat} {infos : List Nat}
    (marked : s'.infos = s.infos.modify info fun i => { i with func := none }) :
    infos.filter s'.isLive = (infos.filter s.isLive).filter (· ≠ info) := by
  rw [List.filter_filter]
  refine List.filter_congr fun i _ => ?_
  simp only [FuncList.isLive, func, marked, List.getElem?_modify]
  cases s.infos[i]? with
  | none => simp
  | some found =>
      by_cases same : info = i
      · simp [same]
      · simp [same, Ne.symm same]

section Remove
variable {p : κ} {f : φ} {r : Registration κ φ} {arr : List Nat}

omit [LinearOrder κ] [DecidableEq φ] in
theorem array_modify {a : Nat} {g : List Nat → List Nat} (inside : a < s.arrays.length) :
    ({ s with arrays := s.arrays.modify a g } : FuncList κ φ).array a = g (s.array a) := by
  simp only [array, List.getD_eq_getElem?_getD, List.getElem?_modify_eq,
    List.getElem?_eq_getElem inside, Option.map_eq_map, Option.map_some, Option.getD_some]

omit [LinearOrder κ] [DecidableEq φ] in
theorem array_modify_ne {a b : Nat} {g : List Nat → List Nat} (other : a ≠ b) :
    ({ s with arrays := s.arrays.modify a g } : FuncList κ φ).array b = s.array b := by
  simp only [array, List.getD_eq_getElem?_getD, List.getElem?_modify_ne _ _ other]

theorem mem_modify {arrays : List (List Nat)} {a : Nat} {g : List Nat → List Nat} {x : List Nat}
    (part : ∀ arr, g arr ⊆ arr) (mem : x ∈ arrays.modify a g) : ∃ arr ∈ arrays, x ⊆ arr := by
  obtain ⟨i, found⟩ := List.mem_iff_getElem?.mp mem
  rw [List.getElem?_modify] at found
  obtain ⟨arr, here, rfl⟩ := Option.map_eq_some_iff.mp found
  refine ⟨arr, List.mem_of_getElem? here, ?_⟩
  split
  · exact part arr
  · exact fun _ mem => mem

/-- What is taken out of the array is the registration that is removed. -/
theorem erased_live (serves : Serves m s t) (ordered : t.Ordered)
    (found : (t.registered.find? fun r => r.priority = p ∧ r.func = f) = some r) (early : r.id < m) :
    ((s.array s.funcs).eraseP (s.isTarget p f)).filter s.isLive =
      ((s.array s.funcs).filter s.isLive).filter (· ≠ r.id) := by
  have live : (fun info => s.isTarget p f info && s.isLive info) = s.isTarget p f := by
    funext info
    cases target : s.isTarget p f info with
    | true => rw [isLive_of_isTarget target, Bool.and_self]
    | false => rw [Bool.false_and]
  have first : (t.registered.filter (·.id < m)).find? (s.isTarget p f ∘ (·.id)) = some r := by
    rw [List.find?_filter, ← find_early found early]
    refine List.find?_congr fun r' mem => ?_
    simp only [Function.comp_apply, isTarget_of serves mem, decide_eq_true_eq]
  have distinct : ((t.registered.filter (·.id < m)).map (·.id)).Nodup :=
    ordered.distinct.sublist (List.filter_sublist.map _)
  calc ((s.array s.funcs).eraseP (s.isTarget p f)).filter s.isLive
      = ((s.array s.funcs).filter s.isLive).eraseP (s.isTarget p f) := by
        rw [List.eraseP_filter, live]
    _ = ((t.registered.filter (·.id < m)).filter (·.id ≠ r.id)).map (·.id) := by
        rw [serves.live, List.eraseP_map, eraseP_keyed distinct first]
    _ = ((s.array s.funcs).filter s.isLive).filter (· ≠ r.id) := by
        rw [serves.live, List.filter_map]
        rfl

theorem mark_serves (serves : Serves m s t) (ordered : t.Ordered)
    (mapped : s.priorityMap p = some arr)
    (found : (t.registered.find? fun r => r.priority = p ∧ r.func = f) = some r) :
    Serves m
      { s with
        priorityMap := Function.update s.priorityMap p
          (some (arr.eraseP fun info => s.func info = some f))
        containCanceled := true
        infos := s.infos.modify r.id fun i => { i with func := none } } (t.drop r) := by
  refine drop_serves serves ordered mapped found (List.length_modify _ _ _) (fun r' _ other => ?_)
    serves.refs rfl rfl rfl serves.funcs (filter_marked rfl) rfl (fun inv _ todo follow => ?_) rfl
  · exact List.getElem?_modify_ne _ _ (Ne.symm other)
  · cases follow with
    | call pc array len left older =>
        refine .call pc array len ?_ fun r' mem => older r' (List.mem_of_mem_filter mem)
        refine (filter_marked rfl).trans ?_
        exact (congrArg _ left).trans List.filter_map

theorem erase_serves (serves : Serves m s t) (ordered : t.Ordered)
    (mapped : s.priorityMap p = some arr)
    (found : (t.registered.find? fun r => r.priority = p ∧ r.func = f) = some r) (early : r.id < m)
    (apart : ∀ inv ∈ s.invocations, ¬(inv.funcs = s.funcs ∧ inv.place < inv.len) ∧
      r.id ∉ s.left inv) :
    Serves m
      { s with
        priorityMap := Function.update s.priorityMap p
          (some (arr.eraseP fun info => s.func info = some f))
        arrays := s.arrays.modify s.funcs fun arr => arr.eraseP (s.isTarget p f) } (t.drop r) := by
  refine drop_serves serves ordered mapped found rfl (fun _ _ _ => rfl) (fun a mem info here => ?_) rfl
    rfl rfl (serves.funcs.trans_eq (List.length_modify _ _ _).symm) ?_ rfl
    (fun inv mem todo follow => ?_) rfl
  · obtain ⟨a', mem, sub⟩ := mem_modify (fun _ => List.eraseP_subset) mem
    exact serves.refs a' mem info (sub here)
  · refine (congrArg _ (array_modify serves.funcs)).trans ?_
    exact erased_live serves ordered found early
  · obtain ⟨idle, absent⟩ := apart inv mem
    cases follow with
    | call pc array len left older =>
        have others : ∀ r' ∈ todo, r'.id ≠ r.id := by
          intro r' mem same
          have here : r'.id ∈ (s.left inv).filter s.isLive := left ▸ List.mem_map_of_mem mem
          exact absent (same ▸ List.mem_of_mem_filter here)
        have kept (more : inv.place < inv.len) : FuncList.array
            { s with arrays := s.arrays.modify s.funcs fun arr => arr.eraseP (s.isTarget p f) }
            inv.funcs = s.array inv.funcs :=
          array_modify_ne fun same => idle ⟨same.symm, more⟩
        rw [filter_absent others]
        refine .call pc (array.trans_eq (List.length_modify _ _ _).symm) (fun more => ?_) ?_ older
        · exact (congrArg _ (kept more)).trans (len more)
        · rw [← left, FuncList.left, FuncList.left]
          split
          · rename_i more
            exact congrArg (fun arr => (arr.drop inv.place).filter s.isLive) (kept more)
          · rfl

theorem remove_serves (serves : Serves m s t) (ordered : t.Ordered)
    (harmless : Harmless s (.remove p f))
    (found : (t.registered.find? fun r => r.priority = p ∧ r.func = f) = some r) :
    Serves m (s.remove p f) (t.drop r) := by
  have mem_r : r ∈ t.registered := List.mem_of_find?_eq_some found
  have looked : r.priority = p ∧ r.func = f := by simpa using List.find?_some found
  have known : p ∈ s.keys := looked.1 ▸ serves.keys r mem_r
  obtain ⟨arr, mapped⟩ := Option.isSome_iff_exists.mp (serves.mem_keys.mp known)
  have target := target_found serves ordered found
  by_cases early : r.id < m
  · rw [if_pos early] at target
    cases flag : s.isInvoking with
    | true =>
        have marked := mark_serves serves ordered mapped found
        rw [flag] at marked
        simp only [remove, mapped, target, flag, if_true]
        exact marked
    | false =>
        have taken := erase_serves serves ordered mapped found early (harmless flag r.id target)
        rw [flag] at taken
        simp only [remove, mapped, target, flag, Bool.false_eq_true, if_false]
        exact taken
  · rw [if_neg early] at target
    simp only [remove, mapped, target]
    refine drop_serves serves ordered mapped found rfl (fun _ _ _ => rfl) serves.refs rfl rfl rfl
      serves.funcs ?_ rfl (fun inv _ todo follow => ?_) rfl
    · refine (List.filter_eq_self.mpr fun info mem => ?_).symm
      have here : info ∈ (s.array s.funcs).filter s.isLive := mem
      rw [serves.live, List.mem_map] at here
      obtain ⟨r', registered, rfl⟩ := here
      have older := of_decide_eq_true (List.mem_filter.mp registered).2
      exact decide_eq_true fun same => early (same ▸ older)
    · cases follow with
      | call pc array len left older =>
          rw [filter_absent fun r' mem same => early (same ▸ older r' mem)]
          exact .call pc array len left older

theorem remove_absent (serves : Serves m s t)
    (absent : (t.registered.find? fun r => r.priority = p ∧ r.func = f) = none) :
    s.remove p f = s := by
  cases mapped : s.priorityMap p with
  | none => simp only [remove, mapped]
  | some arr =>
      have erased := eraseP_absent serves absent
      rw [mapped, Option.getD_some] at erased
      simp only [remove, mapped, target_none serves absent, erased]
      rw [← mapped, Function.update_eq_self]

end Remove

section Runs
variable {e : EventxStep κ φ} {es : List (EventxStep κ φ)} {u : FuncList κ φ}

/-- The list serves the registrations as they stand. -/
def Served (s : FuncList κ φ) (t : Registry κ φ) : Prop := (∃ m, Serves m s t) ∧ t.Ordered

theorem served_step (served : Served s t) (harmless : Harmless s e) (moved : s.step e = some u) :
    ∃ t', t.step e = some t' ∧ Served u t' := by
  obtain ⟨⟨m, serves⟩, ordered⟩ := served
  cases e with
  | add p f =>
      obtain rfl := Option.some.inj moved
      refine ⟨_, rfl, ⟨m, add_serves serves ordered rfl⟩, ?_⟩
      exact Registry.ordered_step (e := .add p f) ordered rfl
  | remove p f =>
      obtain rfl := Option.some.inj moved
      cases found : t.registered.find? fun r => r.priority = p ∧ r.func = f with
      | none =>
          refine ⟨t, by simp only [Registry.step, found], ⟨m, ?_⟩, ordered⟩
          rw [remove_absent serves found]
          exact serves
      | some r =>
          exact ⟨t.drop r, by simp only [Registry.step, found],
            ⟨m, remove_serves serves ordered harmless found⟩, Registry.ordered_drop ordered⟩
  | invoke =>
      obtain rfl := Option.some.inj moved
      refine ⟨_, rfl, invoke_serves serves ordered, ?_⟩
      exact Registry.ordered_step (e := .invoke) ordered rfl
  | resume j =>
      simp only [step, resume, Option.bind_eq_some_iff] at moved
      obtain ⟨inv, found, moved⟩ := moved
      obtain ⟨todo, pending, follows⟩ := serves.follows j inv found
      cases follows with
      | done pc =>
          rw [pc] at moved
          cases moved
      | @call pos rs pc =>
          rw [pc] at moved
          obtain rfl := Option.some.inj moved
          exact ⟨t.callNext j rs, by simp [Registry.step, pending],
            goOn_serves serves ordered found pending pc, Registry.ordered_callNext ordered pending⟩

theorem served_start : Served (ctor : FuncList κ φ) Registry.start := by
  refine ⟨⟨0, ?_⟩, Registry.ordered_start⟩
  exact ⟨rfl, le_rfl, fun _ mem => absurd mem List.not_mem_nil,
    fun a mem info here => absurd (List.mem_singleton.mp mem ▸ here) List.not_mem_nil,
    fun _ mem => absurd mem List.not_mem_nil, .nil, fun _ mem => absurd mem List.not_mem_nil,
    fun _ _ => rfl, fun _ _ mem => absurd mem List.not_mem_nil, Nat.zero_lt_one, rfl, rfl,
    fun _ _ found => (nomatch found), rfl⟩

theorem run_served (run : Run step Harmless (ctor : FuncList κ φ) es s) :
    ∃ t, Run Registry.step anyStep (Registry.start : Registry κ φ) es t ∧ Served s t := by
  induction run with
  | refl => exact ⟨_, .refl, served_start⟩
  | next _ harmless moved ih =>
      obtain ⟨t, run, served⟩ := ih
      obtain ⟨t', moved', served⟩ := served_step served harmless moved
      exact ⟨t', .next run trivial moved', served⟩

/-- All invocations have called what they have to call, and each is at its end or still calls. -/
structure Agrees (s : FuncList κ φ) (t : Registry κ φ) : Prop where
  calls : s.calls = t.calls
  same : s.invocations.length = t.pending.length
  ended : ∀ (j : Nat) inv, s.invocations[j]? = some inv →
    (inv.pc = .done ∧ t.pending[j]? = some none) ∨
    (∃ pos rs, inv.pc = .call pos ∧ t.pending[j]? = some (some rs))

/-- As long as nothing is taken out of an array which an invocation still needs, every invocation calls
what was registered when it began and has not been removed meanwhile, in order, and gets to its end. -/
theorem run_calls (run : Run step Harmless (ctor : FuncList κ φ) es s) :
    ∃ t, Run Registry.step anyStep (Registry.start : Registry κ φ) es t ∧ Agrees s t ∧
      ∀ j, (t.callsOf j).Pairwise Registration.Before := by
  obtain ⟨t, run, ⟨m, serves⟩, ordered⟩ := run_served run
  refine ⟨t, run, ⟨serves.calls, serves.same, fun j inv found => ?_⟩, fun j => ?_⟩
  · obtain ⟨todo, pending, follows⟩ := serves.follows j inv found
    cases follows with
    | done pc => exact .inl ⟨pc, pending⟩
    | call pc => exact .inr ⟨_, _, pc, pending⟩
  · exact (List.pairwise_append.mp (ordered.calls j)).1

instance decHarmless : ∀ (s : FuncList κ φ) e, Decidable (Harmless s e)
  | s, .remove priority func => inferInstanceAs (Decidable (_ → ∀ info ∈ s.target priority func,
      ∀ inv ∈ s.invocations, ¬(_ ∧ _) ∧ _ ∉ _))
  | _, .add _ _ | _, .invoke | _, .resume _ => .isTrue trivial

/-- One of two callbacks invokes the event again, after it has removed the other and added a third. -/
def nested : List (EventxStep Nat Nat) :=
  [.add 100 1, .add 90 2, .invoke, .add 110 3, .remove 100 1, .invoke, .resume 1, .resume 1, .resume 0]

theorem run_calls_nested : ∃ s : FuncList Nat Nat, Run step Harmless ctor nested s ∧
    (∃ t, Run Registry.step anyStep Registry.start nested t ∧ Agrees s t ∧
      ∀ j, (t.callsOf j).Pairwise Registration.Before) ∧
    s.calls.map (fun c => (c.1, c.2.func)) = [(0, 2), (1, 2), (1, 3)] := by
  obtain ⟨s, run, calls⟩ := run_of_guarded_any step Harmless (ctor : FuncList Nat Nat) nested
    (fun s => s.calls.map (fun c => (c.1, c.2.func)) = [(0, 2), (1, 2), (1, 3)]) (by decide +kernel)
  exact ⟨s, run, run_calls run, calls⟩

/-- The first invocation ends while another is in the first of three callbacks, which is then removed. -/
def overlapping : List (EventxStep Nat Nat) :=
  [.add 100 1, .add 100 2, .add 100 3, .invoke, .invoke, .resume 0, .resume 0, .resume 0,
    .remove 100 1, .resume 1, .resume 1]

/-- The second callback is skipped, and the invocation fails at the end of the shortened array. -/
theorem calls_fail : ¬∀ (es : List (EventxStep Nat Nat)) (s : FuncList Nat Nat),
    Run step anyStep ctor es s → ∃ t, Run Registry.step anyStep Registry.start es t ∧ Agrees s t := by
  intro all
  obtain ⟨s, run, failed⟩ := run_of_exec_any step (ctor : FuncList Nat Nat) overlapping
    (fun s => s.invocations[1]?.map (·.pc) = some .failed) (by decide +kernel)
  obtain ⟨t, _, agrees⟩ := all _ s run
  obtain ⟨inv, found, pc⟩ := Option.map_eq_some_iff.mp failed
  obtain ⟨ended, _⟩ | ⟨_, _, calls, _⟩ := agrees.ended 1 inv found
  · cases pc.symm.trans ended
  · cases pc.symm.trans calls

end Runs

end FuncList

end HuluLandlord.Utils
