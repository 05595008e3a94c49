import HuluLandlord.Transition
import HuluLandlord.Bisect
import Mathlib.Data.Nat.Bitwise
import Mathlib.Tactic

/-!
The handles of the services of a node: a table of contexts that doubles when it is full, and the names
in their order, found by halving. Each operation is one hold of the storage's lock. A slot holds the
handle of its context; a name is the list of its bytes.
-/
namespace HuluLandlord.Skynet
open Transition

def HANDLE_MASK : Nat := 0xffffff
def HANDLE_REMOTE_SHIFT : Nat := 24
def DEFAULT_SLOT_SIZE : Nat := 4
def MAX_SLOT_SIZE : Nat := 0x40000000

structure HandleStorage where
  harbor : Nat
  handle_index : Nat
  slot_size : Nat
  slot : Nat → Option Nat
  name_cap : Nat
  name : List (List Nat × Nat)

namespace HandleStorage

def skynet_handle_init (harbor : Nat) : HandleStorage :=
  ⟨(harbor &&& 0xff) <<< HANDLE_REMOTE_SHIFT, 1, DEFAULT_SLOT_SIZE, fun _ => none, 2, []⟩

/-- The inner loop of `skynet_handle_register`: a handle whose slot is free. -/
def scan (s : HandleStorage) : Nat → Nat → Option Nat
  | 0, _ => none
  | left + 1, handle =>
      let handle := if handle > HANDLE_MASK then 1 else handle
      let hash := handle &&& (s.slot_size - 1)
      if s.slot hash = none then some handle else scan s left (handle + 1)

/-- The contexts of the first slots in the doubled table. The source reads the handle of every slot's
context: a slot without one stops the process, as its assertion does. -/
def rehash (s : HandleStorage) : Nat → Option (Nat → Option Nat)
  | 0 => some fun _ => none
  | i + 1 => do
      let new_slot ← rehash s i
      let handle ← s.slot i
      let hash := handle &&& (s.slot_size * 2 - 1)
      if new_slot hash = none then some (Function.update new_slot hash (some handle)) else none

/-- The outer loop, with at most `left` expansions; `none` is the end of the process. -/
def registerLoop : Nat → HandleStorage → Option (Nat × HandleStorage)
  | left, s =>
      match s.scan s.slot_size s.handle_index with
      | some handle =>
          let hash := handle &&& (s.slot_size - 1)
          let full := handle ||| s.harbor
          some (full, { s with slot := Function.update s.slot hash (some full), handle_index := handle + 1 })
      | none =>
          match left with
          | 0 => none
          | left + 1 =>
              if s.slot_size * 2 - 1 ≤ HANDLE_MASK then
                match s.rehash s.slot_size with
                | some new_slot => registerLoop left { s with slot := new_slot, slot_size := s.slot_size * 2 }
                | none => none
              else none

def skynet_handle_register (s : HandleStorage) : Option (Nat × HandleStorage) :=
  registerLoop HANDLE_REMOTE_SHIFT s

def skynet_handle_retire (s : HandleStorage) (handle : Nat) : Nat × HandleStorage :=
  let hash := handle &&& (s.slot_size - 1)
  if s.slot hash = some handle then
    (1, { s with
      slot := Function.update s.slot hash none
      name := s.name.filter fun n => n.2 ≠ handle })
  else (0, s)

/-- Whether the context is there to be grabbed. -/
def skynet_handle_grab (s : HandleStorage) (handle : Nat) : Bool :=
  let hash := handle &&& (s.slot_size - 1)
  s.slot hash = some handle

def skynet_handle_findname (s : HandleStorage) (name : List Nat) : Nat :=
  match Bisect.find s.name name with
  | .inl mid => ((s.name[mid]?).map Prod.snd).getD 0
  | .inr _ => 0

def _insert_name_before (s : HandleStorage) (name : List Nat) (handle before : Nat) : Option HandleStorage :=
  let inserted := s.name.take before ++ (name, handle) :: s.name.drop before
  if s.name.length ≥ s.name_cap then
    let name_cap := s.name_cap * 2
    if name_cap ≤ MAX_SLOT_SIZE then some { s with name := inserted, name_cap := name_cap } else none
  else some { s with name := inserted }

/-- The flag tells that a name came back. -/
def skynet_handle_namehandle (s : HandleStorage) (handle : Nat) (name : List Nat) :
    Option (Bool × HandleStorage) :=
  match Bisect.find s.name name with
  | .inl _ => some (false, s)
  | .inr begin_ => (s._insert_name_before name handle begin_).map fun t => (true, t)

end HandleStorage

/-- A call with what it returned. -/
inductive HandleCall
  | register (handle : Nat)
  | retire (handle ret : Nat)
  | grab (handle : Nat) (found : Bool)
  | findname (name : List Nat) (handle : Nat)
  | namehandle (handle : Nat) (name : List Nat) (inserted : Bool)

def HandleStorage.step (s : HandleStorage) : HandleCall → Option HandleStorage
  | .register handle =>
      match s.skynet_handle_register with
      | some (h, t) => if h = handle then some t else none
      | none => none
  | .retire handle ret =>
      let answer := s.skynet_handle_retire handle
      if answer.1 = ret then some answer.2 else none
  | .grab handle found => if s.skynet_handle_grab handle = found then some s else none
  | .findname name handle => if s.skynet_handle_findname name = handle then some s else none
  | .namehandle handle name inserted =>
      match s.skynet_handle_namehandle handle name with
      | some (flag, t) => if flag = inserted then some t else none
      | none => none

/-- What the storage is for: the services that are there, and whom a name stands for. -/
structure Directory where
  live : Nat → Bool
  names : List Nat → Option Nat

namespace Directory

def empty : Directory := ⟨fun _ => false, fun _ => none⟩

/-- A handle given out is new to the services there, and belongs to this harbor. -/
def step (harbor : Nat) (d : Directory) : HandleCall → Option Directory
  | .register handle =>
      if d.live handle = false ∧ harbor < handle ∧ handle ≤ harbor + HANDLE_MASK then
        some { d with live := Function.update d.live handle true }
      else none
  | .retire handle ret =>
      if d.live handle then
        if ret = 1 then
          some ⟨Function.update d.live handle false, fun n => (d.names n).filter fun h => h ≠ handle⟩
        else none
      else if ret = 0 then some d else none
  | .grab handle found => if found = d.live handle then some d else none
  | .findname name handle => if handle = (d.names name).getD 0 then some d else none
  | .namehandle handle name inserted =>
      if d.names name = none then
        if inserted then some { d with names := Function.update d.names name (some handle) } else none
      else if inserted then none else some d

end Directory

/-- The handle that the scan tries after `i` others. -/
def tried (handle i : Nat) : Nat := (handle - 1 + i) % HANDLE_MASK + 1

section Tried
variable {handle size i r : Nat}

theorem tried_low (start : 1 ≤ handle) (low : handle + i ≤ HANDLE_MASK) : tried handle i = handle + i := by
  rw [tried, Nat.mod_eq_of_lt (by omega)]
  omega

theorem tried_high (start : 1 ≤ handle) (high : HANDLE_MASK < handle + i) (once : handle + i ≤ 2 * HANDLE_MASK) :
    tried handle i = handle + i - HANDLE_MASK := by
  rw [tried, Nat.mod_eq_sub_mod (by omega), Nat.mod_eq_of_lt (by omega)]
  omega

theorem tried_local : 1 ≤ tried handle i ∧ tried handle i ≤ HANDLE_MASK := by
  have := Nat.mod_lt (handle - 1 + i) (show 0 < HANDLE_MASK by decide)
  rw [tried]
  omega

theorem tried_zero (start : 1 ≤ handle) (most : handle ≤ HANDLE_MASK + 1) :
    tried handle 0 = if handle > HANDLE_MASK then 1 else handle := by
  split
  · rw [tried_high start (by omega) (by rw [HANDLE_MASK] at *; omega)]
    omega
  · rw [tried_low start (by omega)]
    rfl

theorem tried_succ (start : 1 ≤ handle) (most : handle ≤ HANDLE_MASK + 1) :
    tried handle (i + 1) = tried ((if handle > HANDLE_MASK then 1 else handle) + 1) i := by
  split
  · obtain rfl : handle = HANDLE_MASK + 1 := by omega
    rw [tried, tried, show HANDLE_MASK + 1 - 1 + (i + 1) = 1 + 1 - 1 + i + HANDLE_MASK by omega, Nat.add_mod_right]
  · rw [tried, tried, show handle - 1 + (i + 1) = handle + 1 - 1 + i by omega]

/-- The sizes of the table: powers of two that the local part of a handle can index. -/
def Size (size : Nat) : Prop := ∃ k, size = 2 ^ k ∧ 2 ≤ k ∧ k ≤ HANDLE_REMOTE_SHIFT

theorem Size.four_le (power : Size size) : 4 ≤ size := by
  obtain ⟨k, rfl, least, -⟩ := power
  exact Nat.pow_le_pow_right two_pos least

theorem Size.dvd (power : Size size) : size ∣ HANDLE_MASK + 1 := by
  obtain ⟨k, rfl, -, most⟩ := power
  exact pow_dvd_pow 2 most

theorem Size.le (power : Size size) : size ≤ HANDLE_MASK + 1 := Nat.le_of_dvd (Nat.succ_pos _) power.dvd

theorem Size.hash (power : Size size) (h : Nat) : h &&& (size - 1) = h % size := by
  obtain ⟨k, rfl, -, -⟩ := power
  exact Nat.and_two_pow_sub_one_eq_mod h k

theorem Size.twice (power : Size size) (room : size * 2 - 1 ≤ HANDLE_MASK) : Size (size * 2) := by
  obtain ⟨k, rfl, least, most⟩ := power
  refine ⟨k + 1, (pow_succ 2 k).symm, by omega, ?_⟩
  by_contra beyond
  obtain rfl : k = HANDLE_REMOTE_SHIFT := by omega
  exact absurd room (by decide)

theorem Size.mask (power : Size size) (n : Nat) : (HANDLE_MASK + 1 + n) % size = n % size := by
  obtain ⟨c, whole⟩ := power.dvd
  rw [whole, Nat.mul_add_mod]

/-- Every slot but the first is tried. -/
theorem tried_slot (power : Size size) (start : 1 ≤ handle) (most : handle ≤ HANDLE_MASK + 1) (some_ : 1 ≤ r)
    (inside : r < size) : ∃ i < size, tried handle i % size = r := by
  have positive : 0 < size := by omega
  have within := power.le
  -- the steps from the first hash to this slot
  let i := (r + (size - handle % size)) % size
  have few : i < size := Nat.mod_lt _ positive
  have meets : (handle + i) % size = r := by
    rw [Nat.add_mod_mod, ← Nat.mod_add_mod,
      show handle % size + (r + (size - handle % size)) = r + size by
        have := Nat.mod_lt handle positive
        omega,
      Nat.add_mod_right, Nat.mod_eq_of_lt inside]
  by_cases low : handle + i ≤ HANDLE_MASK
  · exact ⟨i, few, by rw [tried_low start low, meets]⟩
  · obtain ⟨n, past⟩ := Nat.exists_eq_add_of_le (show HANDLE_MASK + 1 ≤ handle + i by omega)
    rw [past, power.mask] at meets
    have : n ≠ 0 := by
      rintro rfl
      rw [Nat.zero_mod] at meets
      omega
    refine ⟨i - 1, by omega, ?_⟩
    rw [tried_high start (by omega) (by omega), show handle + (i - 1) - HANDLE_MASK = n by omega, meets]

/-- Whether the first slot is tried: not when the scan passes over the handle 0. -/
def FirstTried (handle size : Nat) : Prop :=
  handle + size - 1 ≤ HANDLE_MASK ∨ handle = HANDLE_MASK + 1 ∧ size ≤ HANDLE_MASK

theorem tried_first (power : Size size) (start : 1 ≤ handle) (most : handle ≤ HANDLE_MASK + 1) :
    (∃ i < size, tried handle i % size = 0) ↔ FirstTried handle size := by
  have least := power.four_le
  have within := power.le
  constructor
  · rintro ⟨i, few, first⟩
    by_contra missed
    rw [FirstTried] at missed
    obtain ⟨c, multiple⟩ := Nat.dvd_of_mod_eq_zero first
    by_cases low : handle + i ≤ HANDLE_MASK
    · rw [tried_low start low] at multiple
      have gap : size ∣ HANDLE_MASK + 1 - (handle + i) := Nat.dvd_sub power.dvd ⟨c, multiple⟩
      have := Nat.eq_zero_of_dvd_of_lt gap (by omega)
      omega
    · by_cases once : handle + i ≤ 2 * HANDLE_MASK
      · rw [tried_high start (by omega) once] at multiple
        have := Nat.eq_zero_of_dvd_of_lt ⟨c, multiple⟩ (by omega)
        omega
      · obtain ⟨rfl, rfl⟩ : handle = HANDLE_MASK + 1 ∧ i = HANDLE_MASK := by omega
        obtain rfl : size = HANDLE_MASK + 1 := by omega
        exact absurd first (by decide)
  · rintro (low | ⟨rfl, small⟩)
    · let i := (size - handle % size) % size
      have few : i < size := Nat.mod_lt _ (by omega)
      refine ⟨i, few, ?_⟩
      have := Nat.mod_lt handle (show 0 < size by omega)
      rw [tried_low start (by omega), Nat.add_mod_mod, ← Nat.mod_add_mod,
        show handle % size + (size - handle % size) = size by omega, Nat.mod_self]
    · refine ⟨size - 1, by omega, ?_⟩
      rw [tried_high start (by omega) (by omega), show HANDLE_MASK + 1 + (size - 1) - HANDLE_MASK = size by omega,
        Nat.mod_self]

end Tried

namespace HandleStorage
variable {s t : HandleStorage} {handle left : Nat}

/-- The scan gives the first handle tried whose slot is free. -/
theorem scan_spec (start : 1 ≤ handle) (most : handle ≤ HANDLE_MASK + 1) (left : Nat) :
    (∃ i < left, s.scan left handle = some (tried handle i) ∧
      s.slot (tried handle i &&& (s.slot_size - 1)) = none) ∨
    s.scan left handle = none ∧ ∀ i < left, s.slot (tried handle i &&& (s.slot_size - 1)) ≠ none := by
  induction left generalizing handle with
  | zero => exact .inr ⟨rfl, fun i less => absurd less (Nat.not_lt_zero i)⟩
  | succ left ih =>
      have here := tried_zero start most
      by_cases free : s.slot (tried handle 0 &&& (s.slot_size - 1)) = none
      · refine .inl ⟨0, Nat.succ_pos left, ?_, free⟩
        rw [scan, ← here]
        exact if_pos free
      · have rest : s.scan (left + 1) handle = s.scan left (tried handle 0 + 1) := by
          rw [scan, ← here]
          exact if_neg free
        have after (i : Nat) : tried handle (i + 1) = tried (tried handle 0 + 1) i := here ▸ tried_succ start most
        obtain ⟨i, less, found, open_⟩ | ⟨missing, busy⟩ := ih (Nat.le_add_left 1 _) (Nat.succ_le_succ tried_local.2)
        · exact .inl ⟨i + 1, Nat.succ_lt_succ less, by rw [rest, found, after], by rw [after]; exact open_⟩
        · refine .inr ⟨rest.trans missing, fun i less => ?_⟩
          cases i with
          | zero => exact free
          | succ i => exact after i ▸ busy i (Nat.lt_of_succ_lt_succ less)

/-- Each context stands in the slot of its handle, and the names in their order. -/
structure Good (s : HandleStorage) : Prop where
  size : Size s.slot_size
  start : 1 ≤ s.handle_index
  most : s.handle_index ≤ HANDLE_MASK + 1
  harbor : HANDLE_MASK + 1 ∣ s.harbor
  slots : ∀ i h, s.slot i = some h →
    i < s.slot_size ∧ h % s.slot_size = i ∧ s.harbor < h ∧ h ≤ s.harbor + HANDLE_MASK
  names : Bisect.Sorted s.name

theorem Good.grab (good : Good s) (h : Nat) : s.skynet_handle_grab h = true ↔ ∃ i, s.slot i = some h := by
  rw [skynet_handle_grab, good.size.hash, decide_eq_true_iff]
  refine ⟨fun here => ⟨_, here⟩, fun ⟨i, here⟩ => ?_⟩
  obtain ⟨-, hash, -⟩ := good.slots i h here
  rw [hash, here]

/-- The harbor stands above the local part of a handle. -/
theorem Good.full (good : Good s) (most : handle ≤ HANDLE_MASK) :
    handle ||| s.harbor = s.harbor + handle ∧ (s.harbor + handle) % s.slot_size = handle % s.slot_size := by
  obtain ⟨n, whole⟩ := good.harbor
  obtain ⟨c, part⟩ := good.size.dvd.trans good.harbor
  have width : HANDLE_MASK + 1 = 2 ^ HANDLE_REMOTE_SHIFT := by decide
  have below : handle < 2 ^ HANDLE_REMOTE_SHIFT := width ▸ Nat.lt_succ_of_le most
  constructor
  · rw [whole, width, Nat.lor_comm]
    exact (Nat.two_pow_add_eq_or_of_lt below n).symm
  · rw [part, Nat.mul_add_mod]

/-- What a registration has done when it returns. -/
structure Registered (s t : HandleStorage) (h : Nat) : Prop where
  good : Good t
  harbor : t.harbor = s.harbor
  name : t.name = s.name
  new : s.skynet_handle_grab h = false
  live : t.skynet_handle_grab = Function.update s.skynet_handle_grab h true
  own : s.harbor < h ∧ h ≤ s.harbor + HANDLE_MASK

/-- The scan has found a handle. -/
theorem Good.placed (good : Good s) (found : s.scan s.slot_size s.handle_index = some handle) (left : Nat) :
    ∃ t, s.registerLoop left = some (s.harbor + handle, t) ∧ Registered s t (s.harbor + handle) := by
  obtain ⟨i, -, found', free⟩ | ⟨missing, -⟩ := scan_spec good.start good.most s.slot_size (s := s)
  swap
  · exact absurd (found.symm.trans missing) nofun
  obtain rfl : handle = tried s.handle_index i := Option.some.inj (found.symm.trans found')
  obtain ⟨low, high⟩ := @tried_local s.handle_index i
  generalize tried s.handle_index i = h at *
  obtain ⟨joined, hash⟩ := good.full high
  rw [good.size.hash] at free
  let t : HandleStorage :=
    { s with slot := Function.update s.slot (h % s.slot_size) (some (s.harbor + h)), handle_index := h + 1 }
  have slots (i k : Nat) : t.slot i = some k ↔ s.slot i = some k ∨ i = h % s.slot_size ∧ k = s.harbor + h := by
    by_cases same : i = h % s.slot_size
    · subst same
      rw [show t.slot _ = _ from Function.update_self .., free]
      constructor
      · rintro ⟨⟩
        exact .inr ⟨rfl, rfl⟩
      · rintro (⟨⟨⟩⟩ | ⟨-, rfl⟩)
        rfl
    · rw [show t.slot i = _ from Function.update_of_ne same ..]
      exact ⟨.inl, fun or => or.resolve_right fun pair => same pair.1⟩
  have good' : Good t := by
    refine ⟨good.size, Nat.le_add_left 1 h, Nat.succ_le_succ high, good.harbor, fun i k here => ?_, good.names⟩
    obtain old | ⟨rfl, rfl⟩ := (slots i k).mp here
    · exact good.slots i k old
    · exact ⟨Nat.mod_lt _ (by have := good.size.four_le; omega), hash, Nat.lt_add_of_pos_right low,
        Nat.add_le_add_left high _⟩
  refine ⟨t, ?_, good', rfl, rfl, ?_, ?_, Nat.lt_add_of_pos_right low, Nat.add_le_add_left high _⟩
  · unfold registerLoop
    rw [found]
    dsimp only
    rw [good.size.hash, joined]
  · rw [← Bool.not_eq_true, good.grab]
    rintro ⟨i, here⟩
    obtain ⟨-, same, -⟩ := good.slots i _ here
    rw [hash] at same
    rw [← same, free] at here
    exact absurd here nofun
  · funext k
    by_cases same : k = s.harbor + h
    · subst same
      rw [Function.update_self, good'.grab]
      exact ⟨_, (slots _ _).mpr (.inr ⟨rfl, rfl⟩)⟩
    · rw [Function.update_of_ne same, Bool.eq_iff_iff, good'.grab, good.grab]
      refine exists_congr fun i => ?_
      rw [slots]
      exact ⟨fun or => or.resolve_right fun pair => same pair.2, .inl⟩

/-- The doubled table holds the contexts of the slots taken over, whenever each of these has one. -/
theorem Good.rehash (good : Good s) {i : Nat} (inside : i ≤ s.slot_size) :
    (∃ j < i, s.slot j = none) ∧ s.rehash i = none ∨
    (∀ j < i, s.slot j ≠ none) ∧ ∃ new_slot, s.rehash i = some new_slot ∧
      ∀ r h, new_slot r = some h ↔ ∃ j < i, s.slot j = some h ∧ h &&& (s.slot_size * 2 - 1) = r := by
  obtain ⟨k, power, -, -⟩ := good.size
  have hash (h : Nat) : h &&& (s.slot_size * 2 - 1) = h % (s.slot_size * 2) := by
    rw [power, ← pow_succ]
    exact Nat.and_two_pow_sub_one_eq_mod h (k + 1)
  induction i with
  | zero =>
      refine .inr ⟨fun j less => absurd less (Nat.not_lt_zero j), _, rfl, fun r h => ⟨nofun, ?_⟩⟩
      rintro ⟨j, less, -⟩
      exact absurd less (Nat.not_lt_zero j)
  | succ i ih =>
      rw [HandleStorage.rehash]
      obtain ⟨⟨j, less, hole⟩, stop⟩ | ⟨busy, new_slot, done, held⟩ := ih (Nat.le_of_succ_le inside)
      · rw [stop]
        exact .inl ⟨⟨j, Nat.lt_succ_of_lt less, hole⟩, rfl⟩
      rw [done, Option.bind_eq_bind, Option.bind_some]
      cases here : s.slot i with
      | none => exact .inl ⟨⟨i, Nat.lt_succ_self i, here⟩, rfl⟩
      | some h =>
          have free : new_slot (h &&& (s.slot_size * 2 - 1)) = none := by
            refine Option.eq_none_iff_forall_ne_some.mpr fun h' there => ?_
            obtain ⟨j, less, slot, same⟩ := (held _ _).mp there
            obtain ⟨-, hash_h, -⟩ := good.slots i h here
            obtain ⟨-, hash_h', -⟩ := good.slots j h' slot
            rw [hash, hash] at same
            have half := congrArg (· % s.slot_size) same
            rw [Nat.mod_mul_right_mod, Nat.mod_mul_right_mod, hash_h, hash_h'] at half
            exact absurd half (Nat.ne_of_lt less)
          rw [Option.bind_eq_bind, Option.bind_some]
          dsimp only
          rw [if_pos free]
          refine .inr ⟨fun j less => ?_, _, rfl, fun r h' => ?_⟩
          · obtain before | rfl := Nat.lt_succ_iff_lt_or_eq.mp less
            · exact busy j before
            · exact here ▸ nofun
          · by_cases same : r = h &&& (s.slot_size * 2 - 1)
            · subst same
              rw [Function.update_self]
              constructor
              · rintro ⟨⟩
                exact ⟨i, Nat.lt_succ_self i, here, rfl⟩
              · rintro ⟨j, less, slot, meets⟩
                obtain before | rfl := Nat.lt_succ_iff_lt_or_eq.mp less
                · rw [(held _ _).mpr ⟨j, before, slot, meets⟩] at free
                  exact absurd free nofun
                · exact here.symm.trans slot
            · rw [Function.update_of_ne same, held]
              refine exists_congr fun j => ⟨fun ⟨less, rest⟩ => ⟨Nat.lt_succ_of_lt less, rest⟩, ?_⟩
              rintro ⟨less, slot, meets⟩
              obtain before | rfl := Nat.lt_succ_iff_lt_or_eq.mp less
              · exact ⟨before, slot, meets⟩
              · obtain rfl : h = h' := Option.some.inj (here.symm.trans slot)
                exact absurd meets.symm same

/-- The table after an expansion. -/
structure Expanded (s t : HandleStorage) : Prop where
  good : Good t
  index : t.handle_index = s.handle_index
  size : t.slot_size = s.slot_size * 2
  harbor : t.harbor = s.harbor
  name : t.name = s.name
  live : t.skynet_handle_grab = s.skynet_handle_grab

theorem Good.expanded (good : Good s) (room : s.slot_size * 2 - 1 ≤ HANDLE_MASK)
    (busy : ∀ i < s.slot_size, s.slot i ≠ none) :
    ∃ new_slot, s.rehash s.slot_size = some new_slot ∧
      Expanded s { s with slot := new_slot, slot_size := s.slot_size * 2 } := by
  have twice := good.size.twice room
  obtain ⟨⟨j, less, hole⟩, -⟩ | ⟨-, new_slot, done, held⟩ := good.rehash (le_refl s.slot_size)
  · exact absurd hole (busy j less)
  refine ⟨new_slot, done, ?_⟩
  let t : HandleStorage := { s with slot := new_slot, slot_size := s.slot_size * 2 }
  have good' : Good t := by
    refine ⟨twice, good.start, good.most, good.harbor, fun r h here => ?_, good.names⟩
    obtain ⟨j, -, slot, rfl⟩ := (held r h).mp here
    rw [show t.slot_size = s.slot_size * 2 from rfl, twice.hash]
    exact ⟨Nat.mod_lt _ (by have := twice.four_le; omega), rfl, (good.slots j h slot).2.2⟩
  refine ⟨good', rfl, rfl, rfl, rfl, funext fun h => ?_⟩
  rw [Bool.eq_iff_iff, good.grab]
  refine (good'.grab h).trans ⟨fun ⟨r, here⟩ => ?_, fun ⟨j, slot⟩ => ?_⟩
  · obtain ⟨j, -, slot, -⟩ := (held r h).mp here
    exact ⟨j, slot⟩
  · exact ⟨_, (held _ h).mpr ⟨j, (good.slots j h slot).1, slot, rfl⟩⟩

/-- Of the two slots that one slot becomes, the context can stand in one only. -/
theorem Expanded.found (good : Good s) (grown : Expanded s t) :
    ∃ handle, t.scan t.slot_size t.handle_index = some handle := by
  obtain ⟨i, -, found, -⟩ | ⟨-, busy⟩ := scan_spec grown.good.start grown.good.most t.slot_size (s := t)
  · exact ⟨_, found⟩
  have least := good.size.four_le
  have held (r : Nat) (some_ : 1 ≤ r) (inside : r < t.slot_size) :
      ∃ h, h % t.slot_size = r ∧ s.slot (r % s.slot_size) = some h := by
    obtain ⟨i, less, meets⟩ := tried_slot grown.good.size grown.good.start grown.good.most some_ inside
    have here := busy i less
    rw [grown.good.size.hash, meets] at here
    obtain ⟨h, slot⟩ := Option.ne_none_iff_exists'.mp here
    obtain ⟨-, hash, -⟩ := grown.good.slots r h slot
    refine ⟨h, hash, ?_⟩
    have live := (grown.good.grab h).mpr ⟨r, slot⟩
    rw [grown.live, good.grab] at live
    obtain ⟨j, before⟩ := live
    obtain ⟨-, hash', -⟩ := good.slots j h before
    rw [← hash, grown.size, Nat.mod_mul_right_mod, hash', before]
  have size := grown.size
  obtain ⟨h, low, slot⟩ := held 1 le_rfl (by omega)
  obtain ⟨h', high, slot'⟩ := held (s.slot_size + 1) (by omega) (by omega)
  rw [Nat.add_mod_left, slot] at slot'
  obtain rfl : h = h' := Option.some.inj slot'
  omega

/-- A registration cannot be served: every slot tried is taken, and the table either has its full size
or has the untried first slot free, which the expansion reads. -/
def Exhausted (s : HandleStorage) : Prop :=
  (∀ i, 1 ≤ i → i < s.slot_size → s.slot i ≠ none) ∧
    (s.slot_size = HANDLE_MASK + 1 ∨ s.slot 0 = none ∧ ¬ FirstTried s.handle_index s.slot_size)

theorem size_full {size : Nat} (power : Size size) : ¬ size * 2 - 1 ≤ HANDLE_MASK ↔ size = HANDLE_MASK + 1 := by
  refine ⟨fun large => ?_, fun full => by rw [full]; decide⟩
  obtain ⟨k, rfl, -, most⟩ := power
  obtain rfl | small := Nat.eq_or_lt_of_le most
  · rfl
  · refine absurd ?_ large
    have : 2 ^ (k + 1) ≤ 2 ^ HANDLE_REMOTE_SHIFT := Nat.pow_le_pow_right two_pos small
    have width : HANDLE_MASK + 1 = 2 ^ HANDLE_REMOTE_SHIFT := by decide
    rw [pow_succ] at this
    omega

/-- A registration is served, in one expansion at most, unless the storage is exhausted. -/
theorem Good.register (good : Good s) :
    (Exhausted s → s.skynet_handle_register = none) ∧
      (¬ Exhausted s → ∃ h t, s.skynet_handle_register = some (h, t) ∧ Registered s t h) := by
  have inside := good.size.le
  have least := good.size.four_le
  obtain ⟨i, less, found, free⟩ | ⟨missing, busy⟩ := scan_spec good.start good.most s.slot_size (s := s)
  · refine ⟨fun ⟨taken, ends⟩ => ?_, fun _ => ?_⟩
    · obtain ⟨low, high⟩ := @tried_local s.handle_index i
      rw [good.size.hash] at free
      have first : tried s.handle_index i % s.slot_size = 0 := by
        by_contra some_
        exact taken _ (Nat.pos_of_ne_zero some_) (Nat.mod_lt _ (by omega)) free
      obtain full | ⟨-, missed⟩ := ends
      · rw [full, Nat.mod_eq_of_lt (by omega)] at first
        omega
      · exact absurd ((tried_first good.size good.start good.most).mp ⟨i, less, first⟩) missed
    · obtain ⟨t, done, reg⟩ := good.placed found HANDLE_REMOTE_SHIFT
      exact ⟨_, t, done, reg⟩
  have taken (r : Nat) (some_ : 1 ≤ r) (within : r < s.slot_size) : s.slot r ≠ none := by
    obtain ⟨i, less, meets⟩ := tried_slot good.size good.start good.most some_ within
    have here := busy i less
    rwa [good.size.hash, meets] at here
  have once : s.skynet_handle_register =
      if s.slot_size * 2 - 1 ≤ HANDLE_MASK then
        match s.rehash s.slot_size with
        | some new_slot =>
            registerLoop (HANDLE_REMOTE_SHIFT - 1) { s with slot := new_slot, slot_size := s.slot_size * 2 }
        | none => none
      else none := by
    rw [skynet_handle_register, show HANDLE_REMOTE_SHIFT = HANDLE_REMOTE_SHIFT - 1 + 1 from rfl, registerLoop,
      missing]
    rfl
  rw [once]
  by_cases room : s.slot_size * 2 - 1 ≤ HANDLE_MASK
  swap
  · rw [if_neg room]
    exact ⟨fun _ => rfl, fun spare => absurd ⟨taken, .inl ((size_full good.size).mp room)⟩ spare⟩
  rw [if_pos room]
  by_cases zero : s.slot 0 = none
  · obtain ⟨-, stop⟩ | ⟨all, -⟩ := good.rehash (le_refl s.slot_size)
    · rw [stop]
      refine ⟨fun _ => rfl, fun spare => absurd ⟨taken, .inr ⟨zero, fun first => ?_⟩⟩ spare⟩
      obtain ⟨i, less, meets⟩ := (tried_first good.size good.start good.most).mpr first
      have here := busy i less
      rw [good.size.hash, meets] at here
      exact here zero
    · exact absurd zero (all 0 (by omega))
  · refine ⟨?_, fun _ => ?_⟩
    · rintro ⟨-, full | ⟨empty, -⟩⟩
      · exact absurd room ((size_full good.size).mpr full)
      · exact absurd empty zero
    · obtain ⟨new_slot, done, grown⟩ := good.expanded room fun i less => by
        obtain rfl | some_ := Nat.eq_zero_or_pos i
        · exact zero
        · exact taken i some_ less
      obtain ⟨handle, found⟩ := grown.found good
      obtain ⟨t, served, reg⟩ := grown.good.placed found (HANDLE_REMOTE_SHIFT - 1)
      rw [done]
      refine ⟨_, t, served, reg.good, reg.harbor, reg.name, ?_, ?_, reg.own⟩
      · exact grown.live ▸ reg.new
      · exact grown.live ▸ reg.live

/-- What the table and the names stand for. -/
def directory (s : HandleStorage) : Directory := ⟨s.skynet_handle_grab, fun n => s.name.lookup n⟩

theorem Good.retire (good : Good s) (h : Nat) (live : s.skynet_handle_grab h = true) :
    Good (s.skynet_handle_retire h).2 ∧ (s.skynet_handle_retire h).1 = 1 ∧
      (s.skynet_handle_retire h).2.harbor = s.harbor ∧
      (s.skynet_handle_retire h).2.directory =
        ⟨Function.update s.directory.live h false, fun n => (s.directory.names n).filter fun k => k ≠ h⟩ := by
  have slot : s.slot (h % s.slot_size) = some h := by
    rwa [skynet_handle_grab, good.size.hash, decide_eq_true_iff] at live
  let t : HandleStorage :=
    { s with
      slot := Function.update s.slot (h % s.slot_size) none
      name := s.name.filter fun n => n.2 ≠ h }
  have retired : s.skynet_handle_retire h = (1, t) := by
    rw [skynet_handle_retire, good.size.hash]
    exact if_pos slot
  have slots (i k : Nat) : t.slot i = some k ↔ s.slot i = some k ∧ k ≠ h := by
    by_cases same : i = h % s.slot_size
    · subst same
      rw [show t.slot _ = none from Function.update_self .., slot]
      exact ⟨nofun, fun ⟨pair, other⟩ => absurd (Option.some.inj pair).symm other⟩
    · rw [show t.slot i = _ from Function.update_of_ne same ..]
      refine ⟨fun here => ⟨here, ?_⟩, And.left⟩
      rintro rfl
      exact same (good.slots i k here).2.1.symm
  have names (n : List Nat) := Bisect.lookup_filter (x := n) good.names fun k => decide (k ≠ h)
  have good' : Good t :=
    ⟨good.size, good.start, good.most, good.harbor, fun i k here => good.slots i k ((slots i k).mp here).1,
      (names []).1⟩
  rw [retired]
  refine ⟨good', rfl, rfl, ?_⟩
  rw [directory, directory, Directory.mk.injEq]
  refine ⟨funext fun k => ?_, funext fun n => (names n).2⟩
  by_cases same : k = h
  · subst same
    rw [Function.update_self, ← Bool.not_eq_true, good'.grab]
    rintro ⟨i, here⟩
    exact ((slots i k).mp here).2 rfl
  · rw [Function.update_of_ne same, Bool.eq_iff_iff, good'.grab, good.grab]
    exact exists_congr fun i => (slots i k).trans (and_iff_left same)

theorem Good.namehandle (good : Good s) {h : Nat} {n : List Nat} {inserted : Bool}
    (answered : s.skynet_handle_namehandle h n = some (inserted, t)) :
    Good t ∧ t.harbor = s.harbor ∧
      Directory.step s.harbor s.directory (.namehandle h n inserted) = some t.directory := by
  have known := Bisect.lookup_find good.names n
  rw [skynet_handle_namehandle] at answered
  cases found : Bisect.find s.name n with
  | inl i =>
      rw [found] at answered known
      obtain ⟨rfl, rfl⟩ : false = inserted ∧ s = t := Prod.mk.inj (Option.some.inj answered)
      obtain ⟨v, here, -⟩ := Bisect.find_inl good.names found
      dsimp only at known
      rw [here] at known
      have taken : s.directory.names n ≠ none := fun missing => absurd (known.symm.trans missing) nofun
      refine ⟨good, rfl, ?_⟩
      rw [Directory.step, if_neg taken]
      rfl
  | inr p =>
      rw [found] at answered known
      obtain ⟨u, put, pair⟩ := Option.map_eq_some_iff.mp answered
      obtain ⟨rfl, rfl⟩ : true = inserted ∧ u = t := Prod.mk.inj pair
      have changed : u = { s with name := s.name.take p ++ (n, h) :: s.name.drop p, name_cap := u.name_cap } := by
        rw [_insert_name_before] at put
        dsimp only at put
        split_ifs at put
        all_goals
          obtain rfl := Option.some.inj put
          rfl
      rw [changed]
      have sorted := Bisect.sorted_insert good.names found h
      refine ⟨⟨good.size, good.start, good.most, good.harbor, good.slots, sorted⟩, rfl, ?_⟩
      rw [Directory.step, if_pos (show s.directory.names n = none from known), if_pos rfl, Option.some.injEq, directory,
        directory, Directory.mk.injEq]
      exact ⟨rfl, (Bisect.lookup_insert good.names found h).symm⟩

theorem Good.step {call : HandleCall} (good : Good s) (moved : s.step call = some t) :
    Good t ∧ t.harbor = s.harbor ∧ Directory.step s.harbor s.directory call = some t.directory := by
  cases call with
  | register handle =>
      rw [HandleStorage.step] at moved
      by_cases spare : Exhausted s
      · rw [good.register.1 spare] at moved
        exact absurd moved nofun
      · obtain ⟨h, u, served, reg⟩ := good.register.2 spare
        rw [served] at moved
        obtain ⟨rfl, rfl⟩ : h = handle ∧ u = t := by simpa using moved
        refine ⟨reg.good, reg.harbor, ?_⟩
        rw [Directory.step, if_pos ⟨reg.new, reg.own⟩, Option.some.injEq, directory, directory, reg.live, reg.name]
  | retire handle ret =>
      rw [HandleStorage.step] at moved
      cases live : s.skynet_handle_grab handle with
      | true =>
          obtain ⟨good', one, harbor, view⟩ := good.retire handle live
          obtain ⟨rfl, rfl⟩ : 1 = ret ∧ (s.skynet_handle_retire handle).2 = t := by simpa [one] using moved
          refine ⟨good', harbor, ?_⟩
          rw [Directory.step, if_pos (show s.directory.live handle = true from live), if_pos rfl, view]
      | false =>
          have kept : s.skynet_handle_retire handle = (0, s) := by
            rw [skynet_handle_grab, decide_eq_false_iff_not] at live
            exact if_neg live
          obtain ⟨rfl, rfl⟩ : 0 = ret ∧ s = t := by simpa [kept] using moved
          refine ⟨good, rfl, ?_⟩
          rw [Directory.step, if_neg (Bool.eq_false_iff.mp (show s.directory.live handle = false from live)), if_pos rfl]
  | grab handle found =>
      rw [HandleStorage.step] at moved
      obtain ⟨rfl, rfl⟩ : s.skynet_handle_grab handle = found ∧ s = t := by simpa using moved
      exact ⟨good, rfl, if_pos rfl⟩
  | findname name handle =>
      rw [HandleStorage.step] at moved
      obtain ⟨rfl, rfl⟩ : s.skynet_handle_findname name = handle ∧ s = t := by simpa using moved
      refine ⟨good, rfl, if_pos ?_⟩
      rw [skynet_handle_findname, show s.directory.names name = _ from Bisect.lookup_find good.names name]
      cases Bisect.find s.name name <;> rfl
  | namehandle handle name inserted =>
      rw [HandleStorage.step] at moved
      cases answered : s.skynet_handle_namehandle handle name with
      | none =>
          rw [answered] at moved
          exact absurd moved nofun
      | some pair =>
          rw [answered] at moved
          obtain ⟨rfl, rfl⟩ : pair.1 = inserted ∧ pair.2 = t := by simpa using moved
          exact good.namehandle answered

theorem good_init (harbor : Nat) : Good (skynet_handle_init harbor) := by
  refine ⟨⟨2, rfl, le_rfl, by decide⟩, le_rfl, Nat.le_add_left 1 _, ?_, nofun, .nil⟩
  exact ⟨harbor &&& 0xff, (Nat.shiftLeft_eq _ _).trans (Nat.mul_comm _ _)⟩

end HandleStorage

/-- Every run of the storage is, answer by answer, a run of the directory; a registration ends the
process exactly when the storage is exhausted. -/
theorem handle_refines (harbor : Nat) {calls : List HandleCall} {s : HandleStorage}
    (run : Run HandleStorage.step anyStep (HandleStorage.skynet_handle_init harbor) calls s) :
    Run (Directory.step ((harbor &&& 0xff) <<< HANDLE_REMOTE_SHIFT)) anyStep Directory.empty calls s.directory ∧
      (s.skynet_handle_register = none ↔ s.Exhausted) := by
  suffices main : s.Good ∧ s.harbor = (harbor &&& 0xff) <<< HANDLE_REMOTE_SHIFT ∧
      Run (Directory.step ((harbor &&& 0xff) <<< HANDLE_REMOTE_SHIFT)) anyStep Directory.empty calls s.directory by
    obtain ⟨good, -, refined⟩ := main
    refine ⟨refined, fun stopped => ?_, good.register.1⟩
    by_contra spare
    obtain ⟨h, t, served, -⟩ := good.register.2 spare
    exact absurd (stopped.symm.trans served) nofun
  induction run with
  | refl =>
      refine ⟨HandleStorage.good_init harbor, rfl, ?_⟩
      rw [show (HandleStorage.skynet_handle_init harbor).directory = Directory.empty from rfl]
      exact .refl
  | next _ _ moved ih =>
      obtain ⟨good, own, refined⟩ := ih
      obtain ⟨good', same, stepped⟩ := good.step moved
      exact ⟨good', same.trans own, .next refined trivial (own ▸ stepped)⟩

/-- A service with a name, found and retired. -/
theorem handle_refines_one : ∃ s, Run HandleStorage.step anyStep (HandleStorage.skynet_handle_init 1)
      [.register 0x1000001, .namehandle 0x1000001 [100, 98] true, .findname [100, 98] 0x1000001,
        .retire 0x1000001 1, .findname [100, 98] 0] s ∧
    s.handle_index = 2 ∧
    Run (Directory.step ((1 &&& 0xff) <<< HANDLE_REMOTE_SHIFT)) anyStep Directory.empty
      [.register 0x1000001, .namehandle 0x1000001 [100, 98] true, .findname [100, 98] 0x1000001,
        .retire 0x1000001 1, .findname [100, 98] 0] s.directory ∧
    (s.skynet_handle_register = none ↔ s.Exhausted) := by
  obtain ⟨s, run, index⟩ := run_of_exec_any HandleStorage.step (HandleStorage.skynet_handle_init 1)
    [.register 0x1000001, .namehandle 0x1000001 [100, 98] true, .findname [100, 98] 0x1000001,
      .retire 0x1000001 1, .findname [100, 98] 0]
    (fun s => s.handle_index = 2) (by decide)
  exact ⟨s, run, index, handle_refines 1 run⟩

end HuluLandlord.Skynet
