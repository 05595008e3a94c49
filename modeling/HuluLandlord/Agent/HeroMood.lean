import HuluLandlord.Agent.Consume

/-!
The mood of heroes. A new hero begins at the first level, the weekly reset lowers the level
and sets the experience to where that level begins, and items raise both. The reset's draws
are those of its table, which only falls.
-/
namespace HuluLandlord.Agent
open Transition User

/-- The experience at which a mood level begins; the first begins at 0. -/
def moodThreshold (mood : List MoodLevel) (level : Nat) : Int :=
  ((mood.find? fun row => row.level = level - 1).map MoodLevel.need_mood).getD 0

/-- The levels run from 1 without a gap, their thresholds rise, and what raises the mood is
worth something. -/
structure MoodCfg (t : Tables) where
  last : Nat
  nonempty : 1 ≤ last
  distinct : (t.mood.map MoodLevel.level).Nodup
  leveled : ∀ level, (∃ row ∈ t.mood, row.level = level) ↔ 1 ≤ level ∧ level ≤ last
  rises : ∀ level, 1 ≤ level → level < last →
    moodThreshold t.mood level < moodThreshold t.mood (level + 1)
  worth : ∀ i n, t.moodItem i = some n → 0 < n
  draws : List Int
  falls : ∀ value ∈ draws, value ≤ 0

/-- One hero in `weekResetMood`. -/
def Hero.resetMood (mood : List MoodLevel) (hero : Hero) (value : Int) : Hero :=
  let moodLv := (max (hero.moodLv + value) 1).toNat
  { hero with
    moodLv := moodLv
    moodExp := if moodLv = 1 then 0
      else ((mood.find? fun row => row.level = moodLv - 1).map MoodLevel.need_mood).getD
        hero.moodExp }

/-- What changes moods: a hero is given, the week begins and an entry of the table is drawn
for each hero, a hero's mood is raised with whatever the user has by then. -/
inductive MoodEvent
  | add (id : Nat) (notLimit : Bool)
  | week (drawn : Nat → Option Nat)
  | moodUp (u : User) (now : Int) (id : Nat) (costArr : List Entry)

def moodStep (t : Tables) (cfg : MoodCfg t) (userhero : Nat → Option Hero) (e : MoodEvent) :
    Option (Nat → Option Hero) :=
  match e with
  | .add id notLimit =>
      some (if (userhero id).isSome then userhero
        else Function.update userhero id (some ⟨notLimit, 1, 0⟩))
  | .week drawn => some fun id => (userhero id).map fun hero =>
      match (drawn id).bind fun i => cfg.draws[i]? with
      | some value => hero.resetMood t.mood value
      | none => hero
  | .moodUp u now id costArr =>
      some (HeroMoodUp t { u with userhero := userhero } now id costArr).1.userhero

/-- The level is the largest of the table whose threshold the experience has reached. -/
def InMood (t : Tables) (hero : Hero) : Prop :=
  IsGreatest {level | (∃ row ∈ t.mood, row.level = level) ∧
    moodThreshold t.mood level ≤ hero.moodExp} hero.moodLv

/-- The experience an item gives. -/
def moodWorth (t : Tables) (itemId : ItemId) : Int := (t.moodItem itemId).getD 0

/-- What a request asks for when `missing` is missing to the last level: the entries in
order, up to the first of which fewer than listed are enough, cut to that number. -/
def asked (t : Tables) : List Entry → Int → List Entry
  | [], _ => []
  | e :: rest, missing =>
      let enough := ⌈(missing : ℚ) / moodWorth t e.id⌉
      if enough < e.num then [⟨e.id, enough⟩]
      else e :: asked t rest (missing - moodWorth t e.id * e.num)

/-- What the request is for. -/
structure MoodSound (t : Tables) (u : User) (id : Nat) (costArr : List Entry)
    (result : User × Option RetVal) : Prop where
  gained : result.2 = some .succeed_1 → ∃ before after, u.userhero id = some before ∧
    result.1.userhero id = some after ∧ after.moodExp - before.moodExp =
      ∑ i ∈ (costArr.map Entry.id).toFinset,
        (u.bag.num i - result.1.bag.num i) * moodWorth t i
  unlisted : ∀ i, i ∉ costArr.map Entry.id → result.1.bag.num i = u.bag.num i
  kept : result.2 ≠ some .succeed_1 → result.1 = u
  inMood : ∀ after, result.1.userhero id = some after → InMood t after

/-- What a hero lacks to the last level. -/
def MoodCfg.missing {t : Tables} (cfg : MoodCfg t) (hero : Hero) : Int :=
  max (moodThreshold t.mood cfg.last - hero.moodExp) 0

/-- A request that gets through, to the entries `itemArr`. -/
structure Charged {t : Tables} (cfg : MoodCfg t) (u : User) (now : Int) (hero : Hero)
    (itemArr : List Entry) : Prop where
  notLimit : hero.notLimit = true
  raisable : hero.moodLv < cfg.last
  moodItems : ∀ e ∈ itemArr, t.moodItem e.id ≠ none
  passes : u.bag.has t.items now itemArr 1 = true

/-- A request that gets through while an item is asked for, by its entries together, in a
quantity that is not there: `has` looks at each entry alone. -/
def Overcharged {t : Tables} (cfg : MoodCfg t) (u : User) (now : Int) (id : Nat)
    (costArr : List Entry) : Prop :=
  ∃ hero, u.userhero id = some hero ∧
    Charged cfg u now hero (asked t costArr (cfg.missing hero)) ∧
    ∃ e ∈ asked t costArr (cfg.missing hero),
      max 0 (u.bag.num e.id) < total (asked t costArr (cfg.missing hero)) e.id

section Removal
variable {items : Items} {b : Bag} {list : List Entry} {n : Int} {itemId : ItemId}

/-- A removal takes the whole quantity or, where it is not there, nothing. -/
theorem num_removeOne (nonneg : 0 ≤ n) (i : ItemId) :
    (b._remove items itemId n).1.num i =
      b.num i - if i = itemId ∧ n ≤ b.num itemId then n else 0 := by
  by_cases covered : n ≤ b.num itemId
  · simp [Bag.num_remove items nonneg covered, covered]
  · have kept : (b._remove items itemId n).1 = b := by
      have notNegative : ¬(n < 0 ∧ items itemId = some .time) :=
        fun both => absurd both.1 (not_lt.mpr nonneg)
      rw [Bag._remove, if_neg notNegative]
      by_cases zero : n = 0
      · simp [zero]
      rw [if_neg zero]
      cases found : b.find itemId with
      | none => rfl
      | some owned =>
          have short : ¬owned ≥ n := by simpa [Bag.num, found] using covered
          simp only [short, if_false]
    simp [kept, covered]

/-- Entry by entry no more is taken than the total, and the total only where it is there. -/
theorem num_removeEach_le (nonneg : ∀ e ∈ list, 0 ≤ e.num) (id : ItemId) :
    b.num id - (b.removeEach items list 1).num id ≤ total list id ∧
      (b.num id - (b.removeEach items list 1).num id = total list id ↔
        total list id ≤ max 0 (b.num id)) := by
  induction list generalizing b with
  | nil => simp [Bag.removeEach]
  | cons e list ih =>
      have rest : ∀ e ∈ list, 0 ≤ e.num := fun e mem => nonneg e (List.mem_cons_of_mem _ mem)
      have head := nonneg e List.mem_cons_self
      have more := total_nonneg rest id
      have first := @num_removeOne items b (e.num * 1) e.id (by omega) id
      obtain ⟨bound, exact'⟩ := @ih (b._remove items e.id (e.num * 1)).1 rest
      rw [Bag.removeEach, List.foldl_cons, ← Bag.removeEach, total_cons]
      rw [mul_one] at first bound exact' ⊢
      by_cases here : e.id = id
      · subst here
        by_cases covered : e.num ≤ b.num e.id
        · simp only [covered, and_self, if_true] at first
          rw [first] at bound exact'
          simp only [if_true]
          omega
        · simp only [covered, and_false, if_false, sub_zero] at first
          rw [first] at bound exact'
          simp only [if_true]
          omega
      · have other : ¬(id = e.id ∧ e.num ≤ b.num e.id) := fun both => here both.1.symm
        simp only [other, if_false, sub_zero] at first
        rw [first] at bound exact'
        simp only [here, if_false, zero_add]
        exact ⟨bound, exact'⟩

/-- What a list is worth, item by item. -/
theorem sum_total (worth : ItemId → Int) {ids : Finset ItemId} (named : ∀ e ∈ list, e.id ∈ ids) :
    (list.map fun e => worth e.id * e.num).sum = ∑ i ∈ ids, total list i * worth i := by
  induction list with
  | nil => simp
  | cons e list ih =>
      have rest := ih fun e mem => named e (List.mem_cons_of_mem _ mem)
      have head := named e List.mem_cons_self
      simp only [List.map_cons, List.sum_cons, rest, total_cons, add_mul, Finset.sum_add_distrib,
        ite_mul, zero_mul, Finset.sum_ite_eq, head, if_true]
      ring

end Removal

section Asked
variable {t : Tables} {costArr : List Entry} {missing : Int}

theorem asked_listed : ∀ e ∈ asked t costArr missing, e.id ∈ costArr.map Entry.id := by
  induction costArr generalizing missing with
  | nil => simp [asked]
  | cons e rest ih =>
      simp only [asked]
      split
      · simp
      · simp only [List.mem_cons, List.map_cons]
        rintro f (rfl | mem)
        · exact .inl rfl
        · exact .inr (ih f mem)

/-- The loop of the request keeps the entries asked for and adds up what they are worth. -/
theorem moodCost_asked (moodItems : ∀ e ∈ asked t costArr missing, t.moodItem e.id ≠ none) :
    moodCost t costArr missing = some (asked t costArr missing,
      ((asked t costArr missing).map fun e => moodWorth t e.id * e.num).sum) := by
  induction costArr generalizing missing with
  | nil => rfl
  | cons e rest ih =>
      simp only [asked] at moodItems ⊢
      cases found : t.moodItem e.id with
      | none =>
          split at moodItems
          · have first := moodItems _ (List.mem_singleton_self _)
            exact absurd found first
          · exact absurd found (moodItems e List.mem_cons_self)
      | some itemExp =>
          have worth : moodWorth t e.id = itemExp := by simp [moodWorth, found]
          rw [worth] at moodItems ⊢
          simp only [moodCost, found]
          split
          · simp [worth]
          · rename_i all
            rw [if_neg all] at moodItems
            have more := ih fun e mem => moodItems e (List.mem_cons_of_mem _ mem)
            simp [more, worth]

theorem moodCost_none {e : Entry} (mem : e ∈ asked t costArr missing)
    (other : t.moodItem e.id = none) : moodCost t costArr missing = none := by
  induction costArr generalizing missing with
  | nil => simp [asked] at mem
  | cons f rest ih =>
      simp only [asked] at mem
      cases found : t.moodItem f.id with
      | none => simp [moodCost, found]
      | some itemExp =>
          have worth : moodWorth t f.id = itemExp := by simp [moodWorth, found]
          rw [worth] at mem
          simp only [moodCost, found]
          split at mem
          · have same : e.id = f.id := by
              rw [List.mem_singleton.mp mem]
            rw [same, found] at other
            cases other
          · rename_i all
            rw [if_neg all]
            obtain rfl | mem := List.mem_cons.mp mem
            · rw [found] at other
              cases other
            · rw [ih mem, Option.map_none]

end Asked

section Level
variable {t : Tables} {hero : Hero}

theorem moodThreshold_one (cfg : MoodCfg t) : moodThreshold t.mood 1 = 0 := by
  rw [moodThreshold]
  cases found : t.mood.find? fun row => row.level = 1 - 1 with
  | none => rfl
  | some row =>
      have level : row.level = 0 := by simpa using List.find?_some found
      have range := (cfg.leveled 0).mp ⟨row, List.mem_of_find?_eq_some found, level⟩
      omega

/-- The row at which a level ends says where the next one begins. -/
theorem moodRow (cfg : MoodCfg t) {level : Nat} (first : 1 ≤ level) (before : level < cfg.last) :
    ∃ row, t.mood.find? (fun row => row.level = level) = some row ∧
      row.need_mood = moodThreshold t.mood (level + 1) := by
  obtain ⟨row, mem, here⟩ := (cfg.leveled level).mpr ⟨first, before.le⟩
  have some : (t.mood.find? fun row => row.level = level).isSome := by
    rw [List.find?_isSome]
    exact ⟨row, mem, by simpa using here⟩
  obtain ⟨row, found⟩ := Option.isSome_iff_exists.mp some
  exact ⟨row, found, by simp [moodThreshold, found]⟩

theorem moodThreshold_lt (cfg : MoodCfg t) {i j : Nat} (first : 1 ≤ i) (lt : i < j)
    (high : j ≤ cfg.last) : moodThreshold t.mood i < moodThreshold t.mood j := by
  induction j, lt using Nat.le_induction with
  | base => exact cfg.rises i first (by omega)
  | succ j later ih => exact (ih (by omega)).trans (cfg.rises j (by omega) (by omega))

/-- A level is the largest that is reached when the next one is not. -/
theorem inMood_iff (cfg : MoodCfg t) :
    InMood t hero ↔ 1 ≤ hero.moodLv ∧ hero.moodLv ≤ cfg.last ∧
      moodThreshold t.mood hero.moodLv ≤ hero.moodExp ∧
      (hero.moodLv < cfg.last → hero.moodExp < moodThreshold t.mood (hero.moodLv + 1)) := by
  constructor
  · rintro ⟨⟨configured, reached⟩, largest⟩
    obtain ⟨first, high⟩ := (cfg.leveled _).mp configured
    refine ⟨first, high, reached, fun before => ?_⟩
    by_contra next
    have above := largest ⟨(cfg.leveled (hero.moodLv + 1)).mpr (by omega), not_lt.mp next⟩
    omega
  · rintro ⟨first, high, reached, next⟩
    refine ⟨⟨(cfg.leveled _).mpr ⟨first, high⟩, reached⟩, ?_⟩
    rintro level ⟨configured, also⟩
    obtain ⟨_, within⟩ := (cfg.leveled level).mp configured
    by_contra above
    have after : hero.moodLv + 1 ≤ level := by omega
    have under := next (by omega)
    obtain same | later := Nat.eq_or_lt_of_le after
    · rw [same] at under
      omega
    · have more := moodThreshold_lt cfg (by omega) later within
      omega

theorem foldl_max_le (levels : List Nat) (least high : Nat) :
    levels.foldl max least ≤ high ↔ least ≤ high ∧ ∀ level ∈ levels, level ≤ high := by
  induction levels generalizing least with
  | nil => simp
  | cons level levels ih =>
      rw [List.foldl_cons, ih, List.forall_mem_cons, max_le_iff, and_assoc]

theorem top_eq (cfg : MoodCfg t) : (t.mood.map MoodLevel.level).foldl max 0 = cfg.last := by
  apply le_antisymm
  · rw [foldl_max_le]
    refine ⟨Nat.zero_le _, fun level mem => ?_⟩
    obtain ⟨row, found, rfl⟩ := List.mem_map.mp mem
    exact ((cfg.leveled row.level).mp ⟨row, found, rfl⟩).2
  · obtain ⟨row, mem, here⟩ := (cfg.leveled cfg.last).mpr ⟨cfg.nonempty, le_refl _⟩
    have each := ((foldl_max_le (t.mood.map MoodLevel.level) 0 _).mp (le_refl _)).2
    exact each _ (List.mem_map.mpr ⟨row, mem, here⟩)

/-- The loop ends at the largest level that is reached. -/
theorem inMood_raise (cfg : MoodCfg t) (notLimit : Bool) {exp : Int} (n : Nat) {lv : Nat}
    (first : 1 ≤ lv) (all : lv + n = cfg.last) (reached : moodThreshold t.mood lv ≤ exp) :
    InMood t ⟨notLimit, raiseMood t.mood exp n lv, exp⟩ := by
  induction n generalizing lv with
  | zero =>
      have last : lv = cfg.last := by omega
      rw [inMood_iff cfg, raiseMood]
      exact ⟨first, last.le, reached, fun before => absurd last before.ne⟩
  | succ n ih =>
      obtain ⟨row, found, need⟩ := moodRow cfg first (by omega)
      simp only [raiseMood, found, need]
      split
      · rename_i enough
        exact ih (by omega) (by omega) enough
      · rename_i short
        have high : lv ≤ cfg.last := by omega
        rw [inMood_iff cfg]
        exact ⟨first, high, reached, fun _ => not_le.mp short⟩

end Level

section Request
variable {t : Tables} {u : User} {now : Int} {id : Nat} {costArr : List Entry} {hero : Hero}

/-- The hero after a request that gets through. -/
def Hero.raised {t : Tables} (cfg : MoodCfg t) (hero : Hero) (itemArr : List Entry) : Hero :=
  let exp := hero.moodExp + (itemArr.map fun e => moodWorth t e.id * e.num).sum
  { hero with
    moodExp := exp
    moodLv := raiseMood t.mood exp (cfg.last - hero.moodLv) hero.moodLv }

/-- The user after it. -/
def User.raised {t : Tables} (cfg : MoodCfg t) (u : User) (id : Nat) (hero : Hero)
    (itemArr : List Entry) : User :=
  { u with
    bag := u.bag.removeEach t.items itemArr 1
    userhero := Function.update u.userhero id (some (hero.raised cfg itemArr)) }

theorem heroMoodUp_some (cfg : MoodCfg t) (found : u.userhero id = some hero)
    (inMood : InMood t hero) :
    (¬Charged cfg u now hero (asked t costArr (cfg.missing hero)) ∧
      (HeroMoodUp t u now id costArr).1 = u ∧
      (HeroMoodUp t u now id costArr).2 ≠ some .succeed_1) ∨
    (Charged cfg u now hero (asked t costArr (cfg.missing hero)) ∧
      HeroMoodUp t u now id costArr =
        (u.raised cfg id hero (asked t costArr (cfg.missing hero)), some .succeed_1)) := by
  obtain ⟨first, -⟩ := (inMood_iff cfg).mp inMood
  simp only [HeroMoodUp, found, top_eq cfg]
  by_cases limited : hero.notLimit = false
  · refine .inl ⟨fun charged => ?_, ?_⟩
    · rw [charged.notLimit] at limited
      cases limited
    · rw [if_pos limited]
      exact ⟨rfl, by rintro ⟨⟩⟩
  rw [if_neg limited]
  by_cases high : hero.moodLv ≥ cfg.last
  · refine .inl ⟨fun charged => absurd charged.raisable (not_lt.mpr high), ?_⟩
    rw [if_pos high]
    exact ⟨rfl, by rintro ⟨⟩⟩
  rw [if_neg high]
  have raisable := not_le.mp high
  obtain ⟨before, row, need⟩ := @moodRow t cfg (cfg.last - 1) (by omega) (by omega)
  have last : cfg.last - 1 + 1 = cfg.last := by omega
  rw [last] at need
  simp only [row, need]
  rw [← MoodCfg.missing]
  by_cases moodItems : ∀ e ∈ asked t costArr (cfg.missing hero), t.moodItem e.id ≠ none
  · rw [moodCost_asked moodItems]
    simp only [Bag.removeList]
    by_cases passes : u.bag.has t.items now (asked t costArr (cfg.missing hero)) 1 = true
    · refine .inr ⟨⟨by simpa using limited, raisable, moodItems, passes⟩, ?_⟩
      rw [if_pos passes]
      rfl
    · refine .inl ⟨fun charged => passes charged.passes, ?_⟩
      rw [if_neg passes]
      exact ⟨rfl, by rintro ⟨⟩⟩
  · refine .inl ⟨fun charged => moodItems charged.moodItems, ?_⟩
    push Not at moodItems
    obtain ⟨e, mem, other⟩ := moodItems
    rw [moodCost_none mem other]
    exact ⟨rfl, by rintro ⟨⟩⟩

theorem worth_pos (cfg : MoodCfg t) {itemId : ItemId} (moodItem : t.moodItem itemId ≠ none) :
    0 < moodWorth t itemId := by
  obtain ⟨n, found⟩ := Option.ne_none_iff_exists'.mp moodItem
  simpa [moodWorth, found] using cfg.worth itemId n found

theorem inMood_raised (cfg : MoodCfg t) {itemArr : List Entry} (inMood : InMood t hero)
    (charged : Charged cfg u now hero itemArr) : InMood t (hero.raised cfg itemArr) := by
  obtain ⟨first, _, reached, _⟩ := (inMood_iff cfg).mp inMood
  have gain : 0 ≤ (itemArr.map fun e => moodWorth t e.id * e.num).sum := by
    apply List.sum_nonneg
    intro n mem
    obtain ⟨e, found, rfl⟩ := List.mem_map.mp mem
    have worth := worth_pos cfg (charged.moodItems e found)
    have nonneg := Bag.has_nonneg charged.passes e found
    exact mul_nonneg worth.le nonneg
  have raisable := charged.raisable
  exact inMood_raise cfg hero.notLimit _ first (by omega) (by omega)

/-- What a request that gets through is charged in all is what it asks for exactly when all
of that is there. -/
theorem gained_iff (cfg : MoodCfg t) {itemArr : List Entry}
    (charged : Charged cfg u now hero itemArr)
    (listed : ∀ e ∈ itemArr, e.id ∈ costArr.map Entry.id) :
    (hero.raised cfg itemArr).moodExp - hero.moodExp =
        ∑ i ∈ (costArr.map Entry.id).toFinset,
          (u.bag.num i - (u.raised cfg id hero itemArr).bag.num i) * moodWorth t i ↔
      ∀ e ∈ itemArr, total itemArr e.id ≤ max 0 (u.bag.num e.id) := by
  have amounts := Bag.has_nonneg charged.passes
  have each (i : ItemId) := @num_removeEach_le t.items u.bag itemArr amounts i
  have absent : ∀ i, i ∉ itemArr.map Entry.id → total itemArr i = 0 := fun i none =>
    total_of_not_mem fun e mem same => none (List.mem_map.mpr ⟨e, mem, same⟩)
  have sum : (itemArr.map fun e => moodWorth t e.id * e.num).sum =
      ∑ i ∈ (costArr.map Entry.id).toFinset, total itemArr i * moodWorth t i :=
    sum_total (moodWorth t) fun e mem => List.mem_toFinset.mpr (listed e mem)
  have gain : (hero.raised cfg itemArr).moodExp - hero.moodExp =
      ∑ i ∈ (costArr.map Entry.id).toFinset, total itemArr i * moodWorth t i := by
    rw [← sum, Hero.raised]
    exact add_sub_cancel_left _ _
  have bound : ∀ i ∈ (costArr.map Entry.id).toFinset,
      (u.bag.num i - (u.bag.removeEach t.items itemArr 1).num i) * moodWorth t i ≤
        total itemArr i * moodWorth t i := by
    intro i _
    by_cases mem : i ∈ itemArr.map Entry.id
    · obtain ⟨e, found, rfl⟩ := List.mem_map.mp mem
      exact mul_le_mul_of_nonneg_right (each e.id).1
        (worth_pos cfg (charged.moodItems e found)).le
    · have zero := absent i mem
      have all := (each i).2.mpr (by rw [zero]; exact le_max_left _ _)
      rw [all]
  rw [gain, eq_comm]
  have split := Finset.sum_eq_sum_iff_of_le bound
  refine split.trans ⟨fun same e mem => ?_, fun there i _ => ?_⟩
  · have term := same e.id (List.mem_toFinset.mpr (listed e mem))
    have worth := worth_pos cfg (charged.moodItems e mem)
    exact (each e.id).2.mp (mul_right_cancel₀ worth.ne' term)
  · by_cases mem : i ∈ itemArr.map Entry.id
    · obtain ⟨e, found, rfl⟩ := List.mem_map.mp mem
      rw [(each e.id).2.mpr (there e found)]
    · have zero := absent i mem
      rw [(each i).2.mpr (by rw [zero]; exact le_max_left _ _)]

/-- Nothing else is charged. -/
theorem unlisted_raised (cfg : MoodCfg t) {itemArr : List Entry}
    (charged : Charged cfg u now hero itemArr) {i : ItemId} (other : i ∉ itemArr.map Entry.id) :
    (u.raised cfg id hero itemArr).bag.num i = u.bag.num i := by
  have none : total itemArr i = 0 :=
    total_of_not_mem fun e mem same => other (List.mem_map.mpr ⟨e, mem, same⟩)
  have taken := (@num_removeEach_le t.items u.bag itemArr (Bag.has_nonneg charged.passes) i).2.mpr
    (by rw [none]; exact le_max_left _ _)
  rw [none] at taken
  exact (sub_eq_zero.mp taken).symm

/-- Of a hero whose level is right the request is sound unless it is overcharged. -/
theorem moodSound_iff (cfg : MoodCfg t)
    (inMood : ∀ hero, u.userhero id = some hero → InMood t hero) :
    MoodSound t u id costArr (HeroMoodUp t u now id costArr) ↔
      ¬Overcharged cfg u now id costArr := by
  cases found : u.userhero id with
  | none =>
      have refused : HeroMoodUp t u now id costArr = (u, some .notExists_5) := by
        simp only [HeroMoodUp, found]
      rw [refused]
      refine iff_of_true ⟨by rintro ⟨⟩, fun _ _ => rfl, fun _ => rfl, ?_⟩ ?_
      · exact inMood
      · rintro ⟨hero, other, -⟩
        rw [found] at other
        cases other
  | some hero =>
      have level := inMood hero found
      obtain ⟨refused, same, fails⟩ | ⟨charged, done⟩ := @heroMoodUp_some t u now id costArr hero
        cfg found level
      · refine iff_of_true ⟨fun succeeds => absurd succeeds fails, fun _ _ => by rw [same],
          fun _ => same, fun after later => ?_⟩ ?_
        · rw [same] at later
          exact inMood after later
        · rintro ⟨other, here, charged, -⟩
          rw [found] at here
          cases here
          exact refused charged
      · have listed := @asked_listed t costArr (cfg.missing hero)
        have gained := @gained_iff t u now id costArr hero cfg _ charged listed
        rw [done]
        constructor
        · intro sound overcharged
          obtain ⟨other, here, _, e, mem, short⟩ := overcharged
          rw [found] at here
          cases here
          obtain ⟨before, after, here, later, gain⟩ := sound.gained rfl
          rw [found] at here
          cases here
          simp only [User.raised, Function.update_self, Option.some.injEq] at later
          subst later
          exact absurd (gained.mp gain e mem) (not_le.mpr short)
        · intro there
          have all : ∀ e ∈ asked t costArr (cfg.missing hero),
              total (asked t costArr (cfg.missing hero)) e.id ≤ max 0 (u.bag.num e.id) := by
            intro e mem
            by_contra short
            exact there ⟨hero, found, charged, e, mem, not_le.mp short⟩
          refine ⟨fun _ => ⟨hero, hero.raised cfg (asked t costArr (cfg.missing hero)), found,
            by simp [User.raised], gained.mpr all⟩, fun i other => ?_,
            fun fails => absurd rfl fails, fun after later => ?_⟩
          · refine unlisted_raised cfg charged fun mem => other ?_
            obtain ⟨e, asks, rfl⟩ := List.mem_map.mp mem
            exact listed e asks
          · simp only [User.raised, Function.update_self, Option.some.injEq] at later
            subst later
            exact inMood_raised cfg level charged

end Request

section Runs
variable {t : Tables} {hero : Hero} {userhero userhero' : Nat → Option Hero}

theorem inMood_new (cfg : MoodCfg t) (notLimit : Bool) : InMood t ⟨notLimit, 1, 0⟩ := by
  rw [inMood_iff cfg]
  have first := moodThreshold_one cfg
  refine ⟨le_refl 1, cfg.nonempty, first.le, fun before => ?_⟩
  have rises := cfg.rises 1 (le_refl 1) before
  rw [first] at rises
  exact rises

theorem inMood_reset (cfg : MoodCfg t) (inMood : InMood t hero) {value : Int} (falls : value ≤ 0) :
    InMood t (hero.resetMood t.mood value) := by
  obtain ⟨_, high, -⟩ := (inMood_iff cfg).mp inMood
  have least : 1 ≤ (max (hero.moodLv + value) 1).toNat := by omega
  have most : (max (hero.moodLv + value) 1).toNat ≤ cfg.last := by omega
  rw [inMood_iff cfg]
  simp only [Hero.resetMood]
  generalize (max (hero.moodLv + value) 1).toNat = moodLv at least most ⊢
  have begins : moodThreshold t.mood moodLv = if moodLv = 1 then 0
      else ((t.mood.find? fun row => row.level = moodLv - 1).map MoodLevel.need_mood).getD
        hero.moodExp := by
    by_cases first : moodLv = 1
    · rw [if_pos first, first, moodThreshold_one cfg]
    · obtain ⟨row, found, -⟩ := @moodRow t cfg (moodLv - 1) (by omega) (by omega)
      rw [if_neg first, moodThreshold, found]
      rfl
  rw [← begins]
  exact ⟨least, most, le_refl _, fun before => cfg.rises moodLv least before⟩

theorem inMood_step (cfg : MoodCfg t) {e : MoodEvent}
    (all : ∀ id hero, userhero id = some hero → InMood t hero)
    (moved : moodStep t cfg userhero e = some userhero') :
    ∀ id hero, userhero' id = some hero → InMood t hero := by
  cases e with
  | add id notLimit =>
      obtain rfl := Option.some.inj moved
      intro i hero found
      split at found
      · exact all i hero found
      · by_cases here : i = id
        · subst here
          rw [Function.update_self] at found
          exact Option.some.inj found ▸ inMood_new cfg notLimit
        · rw [Function.update_of_ne here] at found
          exact all i hero found
  | week drawn =>
      obtain rfl := Option.some.inj moved
      intro i hero found
      obtain ⟨before, here, rfl⟩ := Option.map_eq_some_iff.mp found
      have inMood := all i before here
      cases draw : (drawn i).bind fun j => cfg.draws[j]? with
      | none => exact inMood
      | some value =>
          obtain ⟨j, _, entry⟩ := Option.bind_eq_some_iff.mp draw
          exact inMood_reset cfg inMood (cfg.falls value (List.mem_of_getElem? entry))
  | moodUp u now id costArr =>
      obtain rfl := Option.some.inj moved
      intro i hero found
      cases owned : userhero id with
      | none =>
          simp only [HeroMoodUp, owned] at found
          exact all i hero found
      | some raised =>
          obtain ⟨_, same, _⟩ | ⟨charged, done⟩ := @heroMoodUp_some t
            { u with userhero := userhero } now id costArr raised cfg owned (all id raised owned)
          · rw [same] at found
            exact all i hero found
          · rw [done] at found
            by_cases here : i = id
            · subst here
              simp only [User.raised, Function.update_self, Option.some.injEq] at found
              subst found
              exact inMood_raised cfg (all i raised owned) charged
            · simp only [User.raised, Function.update_of_ne here] at found
              exact all i hero found

theorem inMood_run (cfg : MoodCfg t) {es : List MoodEvent}
    (run : Run (moodStep t cfg) anyStep (fun _ => none) es userhero) :
    ∀ id hero, userhero id = some hero → InMood t hero :=
  run.invariant (fun s => ∀ id hero, s id = some hero → InMood t hero)
    (fun id hero found => by cases found) fun _ _ _ all _ moved => inMood_step cfg all moved

/-- Whatever has happened to the heroes before, and whatever the user owns: the request is
sound unless it is overcharged. -/
theorem heroMoodUp_sound (t : Tables) (cfg : MoodCfg t) (es : List MoodEvent) (u : User)
    (run : Run (moodStep t cfg) anyStep (fun _ => none) es u.userhero) (now : Int) (id : Nat)
    (costArr : List Entry) :
    MoodSound t u id costArr (HeroMoodUp t u now id costArr) ↔
      ¬Overcharged cfg u now id costArr :=
  moodSound_iff cfg (inMood_run cfg run id)

/-- The levels of `cfg_mood`, and one item that raises the mood by 120. -/
def moodTables : Tables where
  items := fun _ => some .unset
  time := fun _ => 0
  runeQuality := fun _ => 1
  convert_exp := fun _ => 0
  runeLevels := fun _ => []
  mood := [⟨1, 3000⟩, ⟨2, 9000⟩, ⟨3, 19000⟩, ⟨4, 39000⟩, ⟨5, 69000⟩]
  moodItem := fun id => if id = 501001 then some 120 else none
  store := fun _ => none
  rewards := fun _ _ _ => []
  opens := fun _ _ _ => none
  rewards_fresh := runeTables.rewards_fresh
  opens_fresh := runeTables.opens_fresh

def moodCfg : MoodCfg moodTables where
  last := 5
  nonempty := by decide
  distinct := by decide
  leveled level := by
    simp only [moodTables, List.mem_cons, List.not_mem_nil, or_false, exists_eq_or_imp,
      exists_eq_left]
    omega
  rises level first before := by
    interval_cases level
    all_goals decide
  worth i n found := by
    simp only [moodTables] at found
    split at found
    · cases found
      decide
    · cases found
  draws := [-1, -2, -3, -4]
  falls := by decide

/-- A new hero, and five of the item. -/
def moodUser : User where
  bag := bagOf 501001 5
  pay := 0
  userrune := fun _ => none
  userhero := Function.update (fun _ => none) 1 (some ⟨true, 1, 0⟩)
  storeNum := fun _ => none
  showDatas := fun _ => none

theorem moodUser_run :
    Run (moodStep moodTables moodCfg) anyStep (fun _ => none) [.add 1 true] moodUser.userhero :=
  .next .refl trivial rfl

theorem heroMoodUp_sound_item :
    Run (moodStep moodTables moodCfg) anyStep (fun _ => none) [.add 1 true] moodUser.userhero ∧
      (MoodSound moodTables moodUser 1 [⟨501001, 3⟩]
          (HeroMoodUp moodTables moodUser 0 1 [⟨501001, 3⟩]) ↔
        ¬Overcharged moodCfg moodUser 0 1 [⟨501001, 3⟩]) :=
  ⟨moodUser_run, heroMoodUp_sound moodTables moodCfg [.add 1 true] moodUser moodUser_run 0 1 _⟩

/-- Three of the item twice, of five: three are taken, and the mood rises by six. -/
theorem heroMoodUp_overcharges :
    ¬MoodSound moodTables moodUser 1 [⟨501001, 3⟩, ⟨501001, 3⟩]
      (HeroMoodUp moodTables moodUser 0 1 [⟨501001, 3⟩, ⟨501001, 3⟩]) := by
  have missing : moodCfg.missing ⟨true, 1, 0⟩ = 39000 := by decide
  have whole : asked moodTables [⟨501001, 3⟩, ⟨501001, 3⟩] (moodCfg.missing ⟨true, 1, 0⟩) =
      [⟨501001, 3⟩, ⟨501001, 3⟩] := by
    rw [missing]
    norm_num [asked, moodWorth, moodTables]
  have overcharged : Overcharged moodCfg moodUser 0 1 [⟨501001, 3⟩, ⟨501001, 3⟩] := by
    refine ⟨⟨true, 1, 0⟩, rfl, ?_⟩
    rw [whole]
    exact ⟨⟨rfl, by decide, by decide, by decide⟩, ⟨501001, 3⟩, by decide, by decide⟩
  have inMood := inMood_run moodCfg moodUser_run 1
  rw [moodSound_iff moodCfg inMood]
  exact not_not_intro overcharged

end Runs

end HuluLandlord.Agent
