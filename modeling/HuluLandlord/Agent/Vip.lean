import HuluLandlord.Agent.UserItem
import HuluLandlord.Define
import HuluLandlord.Transition

/-!
The VIP level of a user: payments raise the experience, the experience the level, and a level
brings its avatar once and an award every day. Numbers are exact here; a price is whole, so what
is paid is a multiple of ten. What is in a reward is handed out elsewhere.
-/
namespace HuluLandlord.Agent
open Transition

/-- A row of `cfg_vip`. -/
structure VipRow where
  vip_level : Nat
  exp : Rat
  vip_avatar : List Entry
  deriving DecidableEq

/-- `cfg_vip`: levels and thresholds rise, and who has paid nothing is of level 0. -/
structure VipTable where
  zone : Int
  rows : List VipRow
  rising : rows.Pairwise fun a b => a.vip_level < b.vip_level ∧ a.exp < b.exp
  free : ∀ row ∈ rows, row.exp ≤ 0 → row.vip_level = 0

structure DayAward where
  viplv : Nat
  taketime : Int
  deriving DecidableEq, Repr

/-- `stored` is the row of `dayaward`. The last three are what has happened: what was paid, the
levels whose avatars were granted, and the daily awards with their times. -/
structure VipUser where
  vipExp : Rat
  vip : Nat
  dayaward : DayAward
  stored : Option DayAward
  payments : List Int
  avatars : List Nat
  dayawards : List DayAward
  deriving DecidableEq

inductive VipEvent
  | login
  | UserOnline
  | UserPay (num : Int)
  | Vip_GetInfo
  | TestVip_AddExp (val : Option Int)
  | Vip_GetDayAward (now : Int)
  | TestVip_BuyItem
  deriving DecidableEq, Repr

namespace VipTable
variable (cfg : VipTable)

/-- The last midnight. -/
def get_refresh_time (now : Int) : Int := now - (now + cfg.zone) % 86400

/-- The loop of `calculate_viplv`. -/
def viplv (exp : Rat) : Nat → List VipRow → Nat
  | lv, [] => lv
  | lv, cfg :: rows => if exp ≥ cfg.exp then viplv exp cfg.vip_level rows else lv

def calculate_viplv (exp : Rat) : Nat := viplv exp 0 cfg.rows

/-- A level has an avatar. -/
def hasAvatar (i : Nat) : Bool :=
  (cfg.rows.find? fun row => row.vip_level = i).any fun vipCfg => vipCfg.vip_avatar ≠ []

end VipTable

namespace VipUser
variable (cfg : VipTable)

def isdebug : Bool := false

def AddExp (s : VipUser) (val : Rat) : VipUser :=
  if val < 0 ∨ val > 100000 then s
  else
    let vipExp := s.vipExp + val
    let vip := cfg.calculate_viplv vipExp
    { s with
      vipExp := vipExp
      vip := vip
      avatars := s.avatars ++ (List.range' (s.vip + 1) (vip - s.vip)).filter cfg.hasAvatar }

def is_taked_dayaward (s : VipUser) (now : Int) : Bool :=
  if s.vip > 0 then
    if s.dayaward.taketime < cfg.get_refresh_time now then false
    else if s.dayaward.viplv < s.vip then false
    else true
  else false

def TestVip_AddExp (s : VipUser) (val : Option Int) : VipUser × RetVal :=
  if isdebug then (s, .fail_2) else (s.AddExp cfg (val.getD 0), .succeed_1)

def Vip_GetDayAward (s : VipUser) (now : Int) : VipUser × RetVal :=
  if s.vip < 1 then (s, .error_3)
  else if s.is_taked_dayaward cfg now then (s, .fail_2)
  else
    let dayaward : DayAward := ⟨s.vip, now⟩
    ({ s with
      dayaward := dayaward
      stored := some dayaward
      dayawards := s.dayawards ++ [dayaward] }, .succeed_1)

/-- `Vip_GetInfo` only reads, and `TestVip_BuyItem` is refused as long as `isdebug` is false. -/
def step (s : VipUser) : VipEvent → Option VipUser
  | .login => some { s with dayaward := s.stored.getD ⟨0, 0⟩ }
  | .UserOnline => some (s.AddExp cfg 0)
  | .UserPay num => some { s.AddExp cfg (num / 10) with payments := s.payments ++ [num] }
  | .Vip_GetInfo => some s
  | .TestVip_AddExp val => some (s.TestVip_AddExp cfg val).1
  | .Vip_GetDayAward now => some (s.Vip_GetDayAward cfg now).1
  | .TestVip_BuyItem => some s

/-- A new user. -/
def start : VipUser := ⟨0, 0, ⟨0, 0⟩, none, [], [], []⟩

end VipUser

/-- The experience is what was paid, the level the highest that is reached, each avatar is
granted once, and a daily award once a day and level. -/
structure VipInStep (cfg : VipTable) (s : VipUser) : Prop where
  paid : s.vipExp = s.payments.sum / 10
  reached : ∀ row ∈ cfg.rows, row.exp ≤ s.vipExp → row.vip_level ≤ s.vip
  level : s.vip = 0 ∨ ∃ row ∈ cfg.rows, row.exp ≤ s.vipExp ∧ row.vip_level = s.vip
  avatars : s.avatars = (List.range' 1 s.vip).filter cfg.hasAvatar
  daily : (s.dayawards.map fun g => (cfg.get_refresh_time g.taketime, g.viplv)).Nodup

/-- A payment is within what is added at once, and no experience is added for a test. -/
def VipUser.Honest : VipEvent → Prop
  | .UserPay num => 0 ≤ num ∧ num ≤ 1000000
  | .TestVip_AddExp val => ¬(0 < val.getD 0 ∧ val.getD 0 ≤ 100000)
  | _ => True

namespace VipTable
variable {cfg : VipTable} {exp exp' : Rat} {rows : List VipRow} {lv : Nat}

/-- The loop ends at the last level that is reached. -/
theorem viplv_spec (rising : rows.Pairwise fun a b => a.vip_level < b.vip_level ∧ a.exp < b.exp)
    (above : ∀ row ∈ rows, lv ≤ row.vip_level) :
    (∀ row ∈ rows, row.exp ≤ exp → row.vip_level ≤ viplv exp lv rows) ∧ lv ≤ viplv exp lv rows ∧
      (viplv exp lv rows = lv ∨ ∃ row ∈ rows, row.exp ≤ exp ∧ row.vip_level = viplv exp lv rows) := by
  induction rows generalizing lv with
  | nil => exact ⟨fun _ mem => (nomatch mem), le_refl _, .inl rfl⟩
  | cons row rows ih =>
      obtain ⟨later, rising⟩ := List.pairwise_cons.mp rising
      rw [viplv]
      split
      · rename_i here
        obtain ⟨highest, higher, found⟩ := ih rising fun other mem => (later other mem).1.le
        refine ⟨fun other mem le => ?_, (above row List.mem_cons_self).trans higher, .inr ?_⟩
        · obtain rfl | mem := List.mem_cons.mp mem
          · exact higher
          · exact highest other mem le
        · obtain same | ⟨other, mem, le, level⟩ := found
          · exact ⟨row, List.mem_cons_self, here, same.symm⟩
          · exact ⟨other, List.mem_cons_of_mem _ mem, le, level⟩
      · rename_i below
        refine ⟨fun other mem le => absurd le ?_, le_refl _, .inl rfl⟩
        obtain rfl | mem := List.mem_cons.mp mem
        · exact below
        · exact fun le => below ((later other mem).2.le.trans le)

theorem calculate_spec :
    (∀ row ∈ cfg.rows, row.exp ≤ exp → row.vip_level ≤ cfg.calculate_viplv exp) ∧
      (cfg.calculate_viplv exp = 0 ∨
        ∃ row ∈ cfg.rows, row.exp ≤ exp ∧ row.vip_level = cfg.calculate_viplv exp) := by
  obtain ⟨highest, _, found⟩ := @viplv_spec exp cfg.rows 0 cfg.rising fun _ _ => Nat.zero_le _
  exact ⟨highest, found⟩

theorem calculate_mono (le : exp ≤ exp') : cfg.calculate_viplv exp ≤ cfg.calculate_viplv exp' := by
  obtain zero | ⟨row, mem, reached, level⟩ := (@calculate_spec cfg exp).2
  · rw [zero]
    exact Nat.zero_le _
  · rw [← level]
    exact calculate_spec.1 row mem (reached.trans le)

theorem refresh_le {t : Int} : cfg.get_refresh_time t ≤ t := by
  rw [get_refresh_time]
  omega

end VipTable

namespace VipUser

/-- What holds of level and awards however the experience was come by: the last daily award is
the highest, and no later than those of its level. -/
structure VipInv (cfg : VipTable) (s : VipUser) : Prop where
  computed : s.vip = cfg.calculate_viplv s.vipExp
  avatars : s.avatars = (List.range' 1 s.vip).filter cfg.hasAvatar
  stored : s.stored.getD ⟨0, 0⟩ = s.dayaward
  below : s.dayaward.viplv ≤ s.vip
  highest : ∀ g ∈ s.dayawards, g.viplv ≤ s.dayaward.viplv ∧
    (g.viplv = s.dayaward.viplv → cfg.get_refresh_time g.taketime ≤ s.dayaward.taketime)
  daily : (s.dayawards.map fun g => (cfg.get_refresh_time g.taketime, g.viplv)).Nodup

section Levels
variable {cfg : VipTable} {s s' : VipUser} {val : Rat} {now : Int} {e : VipEvent}

theorem inv_AddExp (inv : s.VipInv cfg) : (s.AddExp cfg val).VipInv cfg := by
  rw [AddExp]
  split
  · exact inv
  · rename_i within
    have more : s.vipExp ≤ s.vipExp + val := by
      rw [not_or, not_lt] at within
      exact le_add_of_nonneg_right within.1
    have higher : s.vip ≤ cfg.calculate_viplv (s.vipExp + val) :=
      inv.computed.le.trans (VipTable.calculate_mono more)
    refine ⟨rfl, ?_, inv.stored, inv.below.trans higher, inv.highest, inv.daily⟩
    simp only [inv.avatars]
    rw [← List.filter_append, Nat.add_comm, List.range'_append_1, Nat.add_sub_cancel' higher]

/-- An award that is granted is not one of today at this level. -/
theorem inv_Vip_GetDayAward (inv : s.VipInv cfg) : (s.Vip_GetDayAward cfg now).1.VipInv cfg := by
  rw [Vip_GetDayAward]
  split
  · exact inv
  · rename_i some_
    split
    · exact inv
    · rename_i free
      have due : s.dayaward.taketime < cfg.get_refresh_time now ∨ s.dayaward.viplv < s.vip := by
        rw [is_taked_dayaward, if_pos (Nat.pos_of_ne_zero fun zero => some_ (by omega))] at free
        by_contra none_
        rw [not_or] at none_
        exact free (by rw [if_neg none_.1, if_neg none_.2])
      have earlier : ∀ g ∈ s.dayawards, g.viplv = s.vip →
          cfg.get_refresh_time g.taketime < cfg.get_refresh_time now := by
        intro g mem same
        obtain ⟨le, last⟩ := inv.highest g mem
        have level : g.viplv = s.dayaward.viplv := le_antisymm le (same ▸ inv.below)
        have past := last level
        omega
      refine ⟨inv.computed, inv.avatars, rfl, le_refl _, fun g mem => ?_, ?_⟩
      · obtain mem | mem := List.mem_append.mp mem
        · refine ⟨(inv.highest g mem).1.trans inv.below, fun same => ?_⟩
          exact (earlier g mem same).le.trans VipTable.refresh_le
        · rw [List.mem_singleton.mp mem]
          exact ⟨le_refl _, fun _ => VipTable.refresh_le⟩
      · simp only
        rw [List.map_append, List.map_singleton, ← List.concat_eq_append, List.nodup_concat]
        refine ⟨fun mem => ?_, inv.daily⟩
        obtain ⟨g, listed, key⟩ := List.mem_map.mp mem
        obtain ⟨day, level⟩ := Prod.mk.inj key
        exact (earlier g listed level).ne day

theorem AddExp_vipExp : (s.AddExp cfg val).vipExp =
    s.vipExp + if val < 0 ∨ val > 100000 then 0 else val := by
  rw [AddExp]
  split
  · exact (add_zero _).symm
  · rfl

theorem AddExp_payments : (s.AddExp cfg val).payments = s.payments := by
  rw [AddExp]
  split <;> rfl

theorem inv_step (inv : s.VipInv cfg) (moved : s.step cfg e = some s') : s'.VipInv cfg := by
  cases e with
  | login =>
      obtain rfl := Option.some.inj moved
      rw [inv.stored]
      exact inv
  | UserOnline =>
      obtain rfl := Option.some.inj moved
      exact inv_AddExp inv
  | UserPay num =>
      obtain rfl := Option.some.inj moved
      have after := @inv_AddExp cfg s (num / 10) inv
      exact ⟨after.computed, after.avatars, after.stored, after.below, after.highest, after.daily⟩
  | Vip_GetInfo =>
      obtain rfl := Option.some.inj moved
      exact inv
  | TestVip_AddExp val =>
      obtain rfl := Option.some.inj moved
      exact inv_AddExp inv
  | Vip_GetDayAward now =>
      obtain rfl := Option.some.inj moved
      exact inv_Vip_GetDayAward inv
  | TestVip_BuyItem =>
      obtain rfl := Option.some.inj moved
      exact inv

theorem refused_iff {num : Int} :
    ¬((num : Rat) / 10 < 0 ∨ (num : Rat) / 10 > 100000) ↔ 0 ≤ num ∧ num ≤ 1000000 := by
  have most : (100000 : Rat) * 10 = 1000000 := by norm_num
  rw [not_or, not_lt, not_lt, div_le_iff₀ (by norm_num), le_div_iff₀ (by norm_num), zero_mul, most]
  norm_cast

/-- The experience stays what was paid, if and only if a step is honest. -/
theorem paid_step (paid : s.vipExp = s.payments.sum / 10) (moved : s.step cfg e = some s') :
    s'.vipExp = s'.payments.sum / 10 ↔ Honest e := by
  cases e with
  | login =>
      obtain rfl := Option.some.inj moved
      exact iff_of_true paid trivial
  | UserOnline =>
      obtain rfl := Option.some.inj moved
      rw [AddExp_payments, AddExp_vipExp, ite_self, add_zero]
      exact iff_of_true paid trivial
  | UserPay num =>
      obtain rfl := Option.some.inj moved
      simp only [AddExp_vipExp, List.sum_append, List.sum_singleton, Int.cast_add, paid, Honest]
      rw [add_div, add_right_inj, ← refused_iff]
      split
      · rename_i refused
        refine iff_of_false (fun zero => ?_) (not_not.mpr refused)
        rw [← zero] at refused
        norm_num at refused
      · rename_i taken
        exact iff_of_true rfl taken
  | Vip_GetInfo =>
      obtain rfl := Option.some.inj moved
      exact iff_of_true paid trivial
  | TestVip_AddExp val =>
      obtain rfl := Option.some.inj moved
      rw [TestVip_AddExp, isdebug, if_neg Bool.false_ne_true, AddExp_payments, AddExp_vipExp, paid,
        add_eq_left, Honest]
      generalize val.getD 0 = val
      split
      · rename_i refused
        refine iff_of_true rfl fun within => ?_
        norm_cast at refused
        omega
      · rename_i taken
        norm_cast at taken ⊢
        omega
  | Vip_GetDayAward now =>
      obtain rfl := Option.some.inj moved
      refine iff_of_true ?_ trivial
      rw [Vip_GetDayAward]
      split
      · exact paid
      · split <;> exact paid
  | TestVip_BuyItem =>
      obtain rfl := Option.some.inj moved
      exact iff_of_true paid trivial

theorem inStep_of (inv : s.VipInv cfg) (paid : s.vipExp = s.payments.sum / 10) :
    VipInStep cfg s := by
  refine ⟨paid, ?_, ?_, inv.avatars, inv.daily⟩
  · rw [inv.computed]
    exact VipTable.calculate_spec.1
  · rw [inv.computed]
    exact VipTable.calculate_spec.2

theorem inv_start : (start).VipInv cfg := by
  refine ⟨?_, rfl, rfl, le_refl _, fun _ mem => (nomatch mem), List.nodup_nil⟩
  obtain zero | ⟨row, mem, reached, level⟩ := (@VipTable.calculate_spec cfg 0).2
  · exact zero.symm
  · exact (cfg.free row mem reached).symm.trans level

variable {es : List VipEvent}

/-- Along a run the experience is what was paid, with the level and the rewards that go with it, if
and only if all payments are within what is added at once and no experience is added for a test. -/
theorem run_vip (run : Run (step cfg) anyStep start es s) :
    Run (step cfg) (fun _ => Honest) start es s ↔
      ∀ front t, front <+: es → Run (step cfg) anyStep start front t → VipInStep cfg t := by
  have first : VipInStep cfg start := inStep_of inv_start (zero_div _).symm
  refine run.always_iff (VipInStep cfg) first fun front t e u before moved => ?_
  obtain ⟨inv, paid⟩ := before.invariant
    (fun s : VipUser => s.VipInv cfg ∧ s.vipExp = s.payments.sum / 10) ⟨inv_start, first.paid⟩
    fun _ _ _ inv honest moved => ⟨inv_step inv.1 moved, (paid_step inv.2 moved).mpr honest⟩
  rw [← paid_step paid moved]
  exact ⟨VipInStep.paid, inStep_of (inv_step inv moved)⟩

end Levels

/-- The first levels as shipped. -/
def vipSample : VipTable where
  zone := 28800
  rows := [⟨0, 0, []⟩, ⟨1, 60, [⟨242007, 1⟩]⟩, ⟨2, 280, []⟩]
  rising := by decide +kernel
  free := by decide +kernel

def vipEvents : List VipEvent :=
  [.UserPay 600, .Vip_GetDayAward 100000, .Vip_GetDayAward 100100, .login, .Vip_GetDayAward 200000]

/-- A user pays for the first level and takes the award of two days. -/
theorem run_vip_first : ∃ s, Run (step vipSample) anyStep start vipEvents s ∧
    s.vip = 1 ∧ s.avatars = [1] ∧ s.dayawards.length = 2 ∧
    (Run (step vipSample) (fun _ => Honest) start vipEvents s ↔
      ∀ front t, front <+: vipEvents →
        Run (step vipSample) anyStep start front t → VipInStep vipSample t) := by
  have run := @run_of_exec _ _ (step vipSample) start vipEvents _ rfl
  exact ⟨_, run, by decide +kernel, by decide +kernel, by decide +kernel, run_vip run⟩

/-- A user adds experience by himself. -/
theorem vip_fails : ¬∀ cfg es s, Run (step cfg) anyStep start es s → VipInStep cfg s := by
  intro vip
  have run := @run_of_exec _ _ (step vipSample) start [.TestVip_AddExp (some 100000)] _ rfl
  exact absurd (vip _ _ _ run).paid (by decide +kernel)

end VipUser

end HuluLandlord.Agent
