import HuluLandlord.Agent.Consume

/-!
The levels of runes. A rune's experience stays between the thresholds of its level as long
as the table grows the way the level tables do: no step smaller than the one before it.
-/
namespace HuluLandlord.Agent
open Transition User

/-- The experience at which a level ends; before the first level it is 0. -/
def threshold (levels : List RuneLevel) (level : Nat) : Int :=
  ((levelRow levels level).map RuneLevel.cost).getD 0

/-- The levels run from 1 without a gap, their thresholds rise, and no step from one to
the next is smaller than the one before it. -/
structure Growth (levels : List RuneLevel) (last : Nat) : Prop where
  nonempty : 1 ≤ last
  distinct : (levels.map RuneLevel.level).Nodup
  leveled : ∀ level, (∃ row ∈ levels, row.level = level) ↔ 1 ≤ level ∧ level ≤ last
  rises : ∀ level < last, threshold levels level < threshold levels (level + 1)
  steepens : ∀ level, level + 2 ≤ last →
    threshold levels (level + 1) - threshold levels level ≤
      threshold levels (level + 2) - threshold levels (level + 1)

inductive LvEvent
  | addRune (id : Nat) (sId : Nat)
  | exec (op : Op) (env : Env)
  deriving DecidableEq, Repr

/-- A new rune starts at level 1, under an id that no rune has. -/
def lvStep (t : Tables) (u : User) (e : LvEvent) : Option User :=
  match e with
  | .addRune id sId =>
      if (u.userrune id).isSome then none
      else some { u with userrune := Function.update u.userrune id (some ⟨sId, 1, 0⟩) }
  | .exec op env => User.step t u (op, env)

/-- The level table of a rune. -/
def Rune.levels (t : Tables) (rune : Rune) : List RuneLevel :=
  t.runeLevels (t.runeQuality rune.sId)

/-- The experience has reached the level, and not the next one unless there is none. -/
structure Levelled (t : Tables) (rune : Rune) : Prop where
  positive : 1 ≤ rune.lv
  reached : threshold (rune.levels t) (rune.lv - 1) ≤ rune.exp
  below : rune.exp < threshold (rune.levels t) rune.lv ∨
    ∃ top, maxData (rune.levels t) = some top ∧ rune.lv = top.level

/-- What a consumed rune is worth. -/
def worth (t : Tables) (u : User) (runeId : Nat) : Int :=
  ((u.userrune runeId).map fun rune => t.convert_exp rune.sId + rune.exp).getD 0

/-- The experience gained is what was paid: `count` of the items, which are gone, and the
runes `fed`, each of them owned before, named once and gone after. -/
structure FedBy (t : Tables) (u v : User) (id : Nat) (runeArr fed : List Nat) (top : RuneLevel)
    (count : Int) (rune rune' : Rune) : Prop where
  before : u.userrune id = some rune
  after : v.userrune id = some rune'
  row : maxData (rune.levels t) = some top
  nonneg : 0 ≤ count
  paid : ∀ i, v.bag.num i = u.bag.num i - if i = top.costId then count else 0
  named : fed <+: runeArr
  once : fed.Nodup
  owned : ∀ r ∈ fed, r ≠ id ∧ (u.userrune r).isSome
  others : ∀ r, r ≠ id → v.userrune r = if r ∈ fed then none else u.userrune r
  gained : rune'.exp - rune.exp = count + (fed.map (worth t u)).sum

/-- What a step does to the runes that stay, and what a request with materials is paid with. -/
structure Grown (t : Tables) (u v : User) (e : LvEvent) : Prop where
  rises : ∀ id rune rune', u.userrune id = some rune → v.userrune id = some rune' →
    rune.lv ≤ rune'.lv ∧ rune.exp ≤ rune'.exp
  fed : ∀ id itemNum runeArr env, e = .exec (.runeLvUp id 1 itemNum runeArr) env →
    (RuneLvUp t u env.now id 1 itemNum runeArr).2 = some .succeed_1 →
    ∃ fed top count rune rune', FedBy t u v id (runeArr.getD []) fed top count rune rune'

/-- A request with materials does not name a negative number of items. -/
def Counted (_ : User) (e : LvEvent) : Prop :=
  match e with
  | .exec (.runeLvUp _ type itemNum _) _ => type = 1 → 0 ≤ itemNum
  | _ => True

section Thresholds
variable {levels : List RuneLevel} {last i j lv n : Nat} {exp : Int} {row top : RuneLevel}

theorem levelRow_mem (found : levelRow levels lv = some row) : row ∈ levels ∧ row.level = lv := by
  rw [levelRow] at found
  exact ⟨List.mem_of_find?_eq_some found, by simpa using List.find?_some found⟩

/-- With distinct levels a row is the one its level finds. -/
theorem levelRow_of_mem (growth : Growth levels last) (mem : row ∈ levels) :
    levelRow levels row.level = some row := by
  cases found : levelRow levels row.level with
  | none => exact absurd (List.find?_eq_none.mp found row mem) (by simp)
  | some other =>
      obtain ⟨mem', same⟩ := levelRow_mem found
      rw [List.inj_on_of_nodup_map growth.distinct mem' mem same]

theorem levelRow_isSome (growth : Growth levels last) (low : 1 ≤ lv) (high : lv ≤ last) :
    ∃ row, levelRow levels lv = some row ∧ row.cost = threshold levels lv := by
  obtain ⟨row, mem, rfl⟩ := (growth.leveled lv).mpr ⟨low, high⟩
  have found := levelRow_of_mem growth mem
  exact ⟨row, found, by simp [threshold, found]⟩

theorem threshold_zero (growth : Growth levels last) : threshold levels 0 = 0 := by
  cases found : levelRow levels 0 with
  | none => simp [threshold, found]
  | some row =>
      obtain ⟨mem, zero⟩ := levelRow_mem found
      have positive := ((growth.leveled 0).mp ⟨row, mem, zero⟩).1
      omega

theorem threshold_lt (growth : Growth levels last) (lt : i < j) (high : j ≤ last) :
    threshold levels i < threshold levels j := by
  induction j, lt using Nat.le_induction with
  | base => exact growth.rises i high
  | succ j _ ih => exact (ih (by omega)).trans (growth.rises j high)

theorem threshold_nonneg (growth : Growth levels last) (i : Nat) : 0 ≤ threshold levels i := by
  have zero := threshold_zero growth
  by_cases first : i = 0
  · rw [first, zero]
  cases found : levelRow levels i with
  | none => simp [threshold, found]
  | some row =>
      obtain ⟨mem, same⟩ := levelRow_mem found
      have high := ((growth.leveled i).mp ⟨row, mem, same⟩).2
      have above := threshold_lt growth (Nat.pos_of_ne_zero first) high
      omega

/-- The fold keeps the row of the largest cost it has met. -/
theorem fold_max (best : RuneLevel) :
    ∃ top, levels.foldl (fun ret row => match ret with
        | none => some row
        | some best => if row.cost > best.cost then some row else some best) (some best) = some top ∧
      top ∈ best :: levels ∧ ∀ row ∈ best :: levels, row.cost ≤ top.cost := by
  induction levels generalizing best with
  | nil => exact ⟨best, rfl, List.mem_cons_self, by simp⟩
  | cons first levels ih =>
      rw [List.foldl_cons]
      simp only
      by_cases larger : first.cost > best.cost
      · obtain ⟨top, found, mem, most⟩ := ih first
        rw [if_pos larger]
        refine ⟨top, found, List.mem_cons_of_mem best mem, List.forall_mem_cons.mpr ⟨?_, most⟩⟩
        exact larger.le.trans (most first List.mem_cons_self)
      · obtain ⟨top, found, mem, most⟩ := ih best
        have least := most best List.mem_cons_self
        rw [if_neg larger]
        refine ⟨top, found, ?_, List.forall_mem_cons.mpr ⟨least, List.forall_mem_cons.mpr ⟨?_, ?_⟩⟩⟩
        · obtain rfl | mem := List.mem_cons.mp mem
          · exact List.mem_cons_self
          · exact List.mem_cons_of_mem best (List.mem_cons_of_mem first mem)
        · exact (not_lt.mp larger).trans least
        · exact fun row mem => most row (List.mem_cons_of_mem best mem)

theorem maxData_spec (found : maxData levels = some top) :
    top ∈ levels ∧ ∀ row ∈ levels, row.cost ≤ top.cost := by
  cases levels with
  | nil => cases found
  | cons first levels =>
      obtain ⟨best, folded, spec⟩ := @fold_max levels first
      obtain rfl : best = top := Option.some.inj (folded.symm.trans found)
      exact spec

/-- The row of the largest cost is that of the last level. -/
theorem maxData_level (growth : Growth levels last) (found : maxData levels = some top) :
    top.level = last := by
  obtain ⟨mem, most⟩ := maxData_spec found
  obtain ⟨low, high⟩ := (growth.leveled top.level).mp ⟨top, mem, rfl⟩
  obtain ⟨row, there, cost⟩ := levelRow_isSome growth (low.trans high) le_rfl
  have least := most row (levelRow_mem there).1
  have own : top.cost = threshold levels top.level := by
    simp [threshold, levelRow_of_mem growth mem]
  by_contra other
  have less := threshold_lt growth (lt_of_le_of_ne high other) le_rfl
  omega

/-- Where the loop stops: the experience has reached the level, and not the next one
unless the loop has come to its end. -/
theorem raiseLv_spec (growth : Growth levels last) (low : 1 ≤ lv) (high : lv + n ≤ last)
    (reached : threshold levels (lv - 1) ≤ exp) :
    lv ≤ raiseLv levels exp n lv ∧ threshold levels (raiseLv levels exp n lv - 1) ≤ exp ∧
      (exp < threshold levels (raiseLv levels exp n lv) ∨ raiseLv levels exp n lv = lv + n) := by
  induction n generalizing lv with
  | zero => exact ⟨le_rfl, reached, .inr rfl⟩
  | succ n ih =>
      obtain ⟨row, found, cost⟩ := levelRow_isSome growth low (by omega)
      simp only [raiseLv, found]
      by_cases enough : exp ≥ row.cost
      · rw [if_pos enough]
        have next : threshold levels (lv + 1 - 1) ≤ exp := by
          rw [Nat.add_sub_cancel, ← cost]
          exact enough
        obtain ⟨above, reached, stops⟩ := @ih (lv + 1) (by omega) (by omega) next
        refine ⟨by omega, reached, stops.imp_right fun done => by omega⟩
      · rw [if_neg enough]
        exact ⟨le_rfl, reached, .inl (by omega)⟩

end Thresholds

section Feeding
variable {t : Tables} {u : User} {maxExp : Int} {runeArr : List Nat}

theorem feedRunes_cons (runeId : Nat) : feedRunes t u (runeId :: runeArr) maxExp =
    if maxExp ≤ 0 then ([], 0)
    else (runeId :: (feedRunes t u runeArr (maxExp - worth t u runeId)).1,
      worth t u runeId + (feedRunes t u runeArr (maxExp - worth t u runeId)).2) := by
  cases found : u.userrune runeId with
  | none => simp [feedRunes, worth, found]
  | some runeData => simp [feedRunes, worth, found]

/-- The runes that are fed in head the list, and their worth is added up. -/
theorem feedRunes_spec : (feedRunes t u runeArr maxExp).1 <+: runeArr ∧
    (feedRunes t u runeArr maxExp).2 = ((feedRunes t u runeArr maxExp).1.map (worth t u)).sum := by
  induction runeArr generalizing maxExp with
  | nil => exact ⟨List.nil_prefix, rfl⟩
  | cons runeId rest ih =>
      rw [feedRunes_cons]
      by_cases full : maxExp ≤ 0
      · rw [if_pos full]
        exact ⟨List.nil_prefix, rfl⟩
      · rw [if_neg full]
        obtain ⟨heads, total⟩ := @ih (maxExp - worth t u runeId)
        refine ⟨(List.prefix_cons_inj runeId).mpr heads, ?_⟩
        rw [List.map_cons, List.sum_cons, total]

end Feeding

/-- The tables of the runes: every quality has levels, and no rune is converted to less
than nothing. -/
structure Growing (t : Tables) : Prop where
  grows : ∀ sId, ∃ last, Growth (t.runeLevels (t.runeQuality sId)) last
  converts : ∀ sId, 0 ≤ t.convert_exp sId

/-- All runes of a user are levelled. -/
def AllLevelled (t : Tables) (u : User) : Prop :=
  ∀ id rune, u.userrune id = some rune → Levelled t rune

section Requests
variable {t : Tables} {u : User} {id : Nat} {rune : Rune} {top : RuneLevel} {now itemNum : Int}
  {runeArr : List Nat}

theorem exp_nonneg (growing : Growing t) (levelled : Levelled t rune) : 0 ≤ rune.exp := by
  obtain ⟨last, growth⟩ := growing.grows rune.sId
  exact (threshold_nonneg growth (rune.lv - 1)).trans levelled.reached

theorem worth_nonneg (growing : Growing t) (all : AllLevelled t u) (r : Nat) :
    0 ≤ worth t u r := by
  cases found : u.userrune r with
  | none => simp [worth, found]
  | some rune =>
      have converted := growing.converts rune.sId
      have exp := exp_nonneg growing (all r rune found)
      simp only [worth, found, Option.map_some, Option.getD_some]
      omega

theorem worths_nonneg (growing : Growing t) (all : AllLevelled t u) (fed : List Nat) :
    0 ≤ (fed.map (worth t u)).sum := by
  refine List.sum_nonneg fun x mem => ?_
  obtain ⟨r, _, rfl⟩ := List.mem_map.mp mem
  exact worth_nonneg growing all r

/-- A rune that has more experience, raised by the loop. -/
theorem levelled_raised (growing : Growing t) (levelled : Levelled t rune) {gain : Int}
    (gained : 0 ≤ gain) (row : maxData (rune.levels t) = some top) (below : rune.lv < top.level) :
    let lv := raiseLv (rune.levels t) (rune.exp + gain) (top.level - rune.lv) rune.lv
    Levelled t { rune with exp := rune.exp + gain, lv := lv } ∧ rune.lv ≤ lv := by
  obtain ⟨last, growth⟩ := growing.grows rune.sId
  have atLast := maxData_level growth row
  have reached : threshold (rune.levels t) (rune.lv - 1) ≤ rune.exp + gain := by
    have before := levelled.reached
    omega
  obtain ⟨above, reached, stops⟩ :=
    raiseLv_spec (n := top.level - rune.lv) growth levelled.positive (by omega) reached
  refine ⟨⟨levelled.positive.trans above, reached, stops.imp_right fun done => ?_⟩, above⟩
  exact ⟨top, row, done.trans (by omega)⟩

/-- The materials of a request of type 1 are paid, and the rune has what they are worth. -/
theorem runeByItems_fed (growing : Growing t) (all : AllLevelled t u)
    (before : u.userrune id = some rune) (row : maxData (rune.levels t) = some top)
    (below : rune.lv < top.level) (counted : 0 ≤ itemNum)
    (done : (runeByItems t u id rune (rune.levels t) top itemNum runeArr).2 = some .succeed_1) :
    ∃ fed count rune', FedBy t u (runeByItems t u id rune (rune.levels t) top itemNum runeArr).1
        id runeArr fed top count rune rune' ∧
      Levelled t rune' ∧ rune.lv ≤ rune'.lv ∧ rune.exp ≤ rune'.exp := by
  simp only [runeByItems] at done ⊢
  split at done
  · cases done
  rename_i last found
  split at done
  · cases done
  rename_i nodup
  split at done
  · cases done
  rename_i owned
  split at done
  · cases done
  rename_i bag k removed
  simp only [if_neg nodup, if_neg owned]
  generalize fedBy : feedRunes t u runeArr _ = fed at *
  generalize cut : min itemNum (max (last.cost - rune.exp) 0) = count at *
  have nonneg : 0 ≤ count := cut ▸ le_min counted (le_max_right _ _)
  obtain ⟨heads, total⟩ := fedBy ▸ @feedRunes_spec t u _ runeArr
  have gained : 0 ≤ count + fed.2 := by
    have worths := worths_nonneg growing all fed.1
    omega
  obtain ⟨levelled, above⟩ := levelled_raised growing (all id rune before) gained row below
  push Not at owned
  refine ⟨fed.1, count, _, ⟨before, Function.update_self id _ _, row, nonneg,
    Bag.num_removed t.items removed nonneg, heads, ?_, ?_, ?_, ?_⟩, levelled, above, ?_⟩
  · exact (not_not.mp nodup).sublist heads.sublist
  · intro r mem
    obtain ⟨has, other⟩ := owned r (heads.subset mem)
    exact ⟨other, Option.isSome_iff_ne_none.mpr has⟩
  · intro r other
    exact Function.update_of_ne other _ _
  · simp only [← total]
    omega
  · simp only
    omega

/-- The level that diamonds buy: what the rune had above its old level it has above the
new one, and there is room for it. -/
theorem levelled_bought (growing : Growing t) (levelled : Levelled t rune)
    (row : maxData (rune.levels t) = some top) (below : rune.lv < top.level) {sData : RuneLevel}
    (found : levelRow (rune.levels t) rune.lv = some sData) :
    let exp := sData.cost + max 0 (rune.exp - threshold (rune.levels t) (rune.lv - 1))
    Levelled t { rune with lv := rune.lv + 1, exp := exp } ∧ rune.exp ≤ exp := by
  intro exp
  obtain ⟨last, growth⟩ := growing.grows rune.sId
  have atLast := maxData_level growth row
  have cost : threshold (rune.levels t) rune.lv = sData.cost := by simp [threshold, found]
  have kept : 0 ≤ rune.exp - threshold (rune.levels t) (rune.lv - 1) := by
    have reached := levelled.reached
    omega
  have exp_eq : exp = sData.cost + (rune.exp - threshold (rune.levels t) (rune.lv - 1)) := by
    simp only [exp, max_eq_right kept]
  have under : rune.exp < threshold (rune.levels t) rune.lv := by
    obtain under | ⟨top', row', same⟩ := levelled.below
    · exact under
    · obtain rfl := Option.some.inj (row.symm.trans row')
      omega
  refine ⟨⟨Nat.le_add_left 1 rune.lv, ?_, ?_⟩, by omega⟩
  · show threshold (rune.levels t) rune.lv ≤ exp
    omega
  · by_cases next : rune.lv + 1 = top.level
    · exact .inr ⟨top, row, next⟩
    · refine .inl ?_
      have steeper := growth.steepens (rune.lv - 1) (by omega)
      have first : rune.lv - 1 + 1 = rune.lv := Nat.sub_add_cancel levelled.positive
      have second : rune.lv - 1 + 2 = rune.lv + 1 := by omega
      rw [first, second] at steeper
      show exp < threshold (rune.levels t) (rune.lv + 1)
      change threshold (rune.levels t) rune.lv - threshold (rune.levels t) (rune.lv - 1) ≤
        threshold (rune.levels t) (rune.lv + 1) - threshold (rune.levels t) rune.lv at steeper
      omega

theorem runeByDiamonds_bought (growing : Growing t) (levelled : Levelled t rune)
    (row : maxData (rune.levels t) = some top) (below : rune.lv < top.level) :
    (runeByDiamonds t u now id rune (rune.levels t)).1 = u ∨
      ∃ rune', (runeByDiamonds t u now id rune (rune.levels t)).1.userrune =
          Function.update u.userrune id (some rune') ∧
        Levelled t rune' ∧ rune.lv ≤ rune'.lv ∧ rune.exp ≤ rune'.exp := by
  simp only [runeByDiamonds]
  split
  · exact .inl rfl
  rename_i sData found
  split
  · exact .inl rfl
  obtain ⟨bought, rises⟩ := levelled_bought growing levelled row below found
  exact .inr ⟨_, rfl, bought, Nat.le_succ rune.lv, rises⟩

/-- A request of type 1 that does not succeed changes nothing. -/
theorem runeByItems_cases (levels : List RuneLevel) :
    (runeByItems t u id rune levels top itemNum runeArr).1 = u ∨
      (runeByItems t u id rune levels top itemNum runeArr).2 = some .succeed_1 := by
  simp only [runeByItems]
  split
  · exact .inl rfl
  split
  · exact .inl rfl
  split
  · exact .inl rfl
  split
  · exact .inl rfl
  · exact .inr rfl

/-- What happens to the runes when one request is served: none appears, and one that stays
has risen or is as it was. -/
structure Risen (t : Tables) (u v : User) : Prop where
  levelled : AllLevelled t v
  rises : ∀ id rune rune', u.userrune id = some rune → v.userrune id = some rune' →
    rune.lv ≤ rune'.lv ∧ rune.exp ≤ rune'.exp

theorem Risen.same {v : User} (all : AllLevelled t u) (same : v.userrune = u.userrune) :
    Risen t u v := by
  refine ⟨fun id rune found => all id rune (same ▸ found), fun id rune rune' before after => ?_⟩
  obtain rfl := Option.some.inj (before.symm.trans (same ▸ after))
  exact ⟨le_rfl, le_rfl⟩

/-- One rune is replaced by a better one, and others may be gone. -/
theorem Risen.one {v : User} {rune' : Rune} (all : AllLevelled t u)
    (before : u.userrune id = some rune) (after : v.userrune id = some rune')
    (others : ∀ r, r ≠ id → v.userrune r = none ∨ v.userrune r = u.userrune r)
    (levelled : Levelled t rune') (rises : rune.lv ≤ rune'.lv ∧ rune.exp ≤ rune'.exp) :
    Risen t u v := by
  have cases : ∀ r x, v.userrune r = some x → (r = id ∧ x = rune') ∨ u.userrune r = some x := by
    intro r x found
    by_cases here : r = id
    · subst here
      exact .inl ⟨rfl, Option.some.inj (found.symm.trans after)⟩
    · obtain gone | kept := others r here
      · cases gone.symm.trans found
      · exact .inr (kept ▸ found)
  refine ⟨fun r x found => ?_, fun r x y old new => ?_⟩
  · obtain ⟨_, rfl⟩ | old := cases r x found
    · exact levelled
    · exact all r x old
  · obtain ⟨rfl, rfl⟩ | same := cases r y new
    · obtain rfl := Option.some.inj (before.symm.trans old)
      exact rises
    · obtain rfl := Option.some.inj (old.symm.trans same)
      exact ⟨le_rfl, le_rfl⟩

theorem risen_RuneLvUp (growing : Growing t) (all : AllLevelled t u) {type : Int}
    {arr : Option (List Nat)} (counted : type = 1 → 0 ≤ itemNum) :
    Risen t u (RuneLvUp t u now id type itemNum arr).1 := by
  simp only [RuneLvUp]
  split
  · exact .same all rfl
  rename_i rune before
  split
  · exact .same all rfl
  rename_i top row
  split
  · exact .same all rfl
  rename_i notMax
  have below : rune.lv < top.level := not_le.mp notMax
  split
  · rename_i items
    obtain same | done :=
      @runeByItems_cases t u id rune top itemNum (arr.getD []) (rune.levels t)
    · exact .same all (congrArg User.userrune same)
    · obtain ⟨fed, count, rune', fedBy, levelled, rises⟩ :=
        runeByItems_fed growing all before row below (counted items) done
      refine .one all before fedBy.after (fun r other => ?_) levelled rises
      have kept := fedBy.others r other
      by_cases mem : r ∈ fed
      · exact .inl (kept.trans (if_pos mem))
      · exact .inr (kept.trans (if_neg mem))
  split
  · obtain same | ⟨rune', changed, levelled, rises⟩ :=
      @runeByDiamonds_bought t u id rune top now growing (all id rune before) row below
    · exact .same all (congrArg User.userrune same)
    · refine .one all before ?_ (fun r other => .inr ?_) levelled rises
      · exact (congrFun changed id).trans (Function.update_self id _ _)
      · exact (congrFun changed r).trans (Function.update_of_ne other _ _)
  · exact .same all rfl

/-- What a request of type 1 that succeeds is paid with. -/
theorem fed_RuneLvUp (growing : Growing t) (all : AllLevelled t u) {arr : Option (List Nat)}
    (counted : 0 ≤ itemNum) (done : (RuneLvUp t u now id 1 itemNum arr).2 = some .succeed_1) :
    ∃ fed top count rune rune',
      FedBy t u (RuneLvUp t u now id 1 itemNum arr).1 id (arr.getD []) fed top count rune rune' := by
  simp only [RuneLvUp] at done ⊢
  split at done
  · cases done
  rename_i rune before
  split at done
  · cases done
  rename_i top row
  split at done
  · cases done
  rename_i notMax
  rw [if_pos trivial] at done
  obtain ⟨fed, count, rune', fedBy, _⟩ :=
    runeByItems_fed growing all before row (not_le.mp notMax) counted done
  refine ⟨fed, top, count, rune, rune', ?_⟩
  simp only [if_neg notMax, if_true]
  exact fedBy

/-- The requests that raise no rune. -/
theorem userrune_exec {op : Op} {env : Env}
    (other : ∀ id type itemNum arr, op ≠ .runeLvUp id type itemNum arr) :
    (User.exec t u op env).1.userrune = u.userrune := by
  cases op with
  | remove itemId num => rfl
  | removeList itemArr => rfl
  | runeLvUp id type itemNum arr => exact absurd rfl (other id type itemNum arr)
  | heroMoodUp id costArr =>
      simp only [User.exec, User.HeroMoodUp]
      repeat' split
      all_goals rfl
  | buyStore id num =>
      simp only [User.exec, User.buyStore]
      repeat' split
      all_goals rfl
  | useItem id gId num =>
      simp only [User.exec, User.UseItem]
      repeat' split
      all_goals rfl

theorem levelled_new (growing : Growing t) (sId : Nat) : Levelled t ⟨sId, 1, 0⟩ := by
  obtain ⟨last, growth⟩ := growing.grows sId
  have zero := threshold_zero growth
  have first := growth.rises 0 growth.nonempty
  rw [zero] at first
  exact ⟨le_rfl, zero.le, .inl first⟩

theorem risen_step {v : User} {e : LvEvent} (growing : Growing t) (all : AllLevelled t u)
    (counted : Counted u e) (moved : lvStep t u e = some v) : Risen t u v := by
  cases e with
  | addRune id sId =>
      simp only [lvStep] at moved
      split at moved
      · cases moved
      rename_i fresh
      obtain rfl := Option.some.inj moved
      have others : ∀ r x, Function.update u.userrune id (some ⟨sId, 1, 0⟩) r = some x →
          (r = id ∧ x = ⟨sId, 1, 0⟩) ∨ u.userrune r = some x := by
        intro r x found
        by_cases here : r = id
        · subst here
          rw [Function.update_self] at found
          exact .inl ⟨rfl, (Option.some.inj found).symm⟩
        · rw [Function.update_of_ne here] at found
          exact .inr found
      refine ⟨fun r x found => ?_, fun r x y old new => ?_⟩
      · obtain ⟨_, rfl⟩ | old := others r x found
        · exact levelled_new growing sId
        · exact all r x old
      · obtain ⟨rfl, _⟩ | same := others r y new
        · exact absurd (Option.isSome_iff_exists.mpr ⟨x, old⟩) fresh
        · obtain rfl := Option.some.inj (old.symm.trans same)
          exact ⟨le_rfl, le_rfl⟩
  | exec op env =>
      obtain rfl := Option.some.inj moved
      cases op with
      | runeLvUp id type itemNum arr => exact risen_RuneLvUp growing all counted
      | remove itemId num => exact .same all (userrune_exec nofun)
      | removeList itemArr => exact .same all (userrune_exec nofun)
      | heroMoodUp id costArr => exact .same all (userrune_exec nofun)
      | buyStore id num => exact .same all (userrune_exec nofun)
      | useItem id gId num => exact .same all (userrune_exec nofun)

theorem grown_step {v : User} {e : LvEvent} (growing : Growing t) (all : AllLevelled t u)
    (counted : Counted u e) (moved : lvStep t u e = some v) : Grown t u v e := by
  refine ⟨(risen_step growing all counted moved).rises, ?_⟩
  rintro id itemNum runeArr env rfl done
  obtain rfl := Option.some.inj moved
  exact fed_RuneLvUp growing all (counted rfl) done

end Requests

section Runs
variable {t : Tables} {u v : User} {es : List LvEvent}

theorem run_levelled (growing : Growing t) (start : u.userrune = fun _ => none)
    (run : Run (lvStep t) Counted u es v) : AllLevelled t v := by
  refine run.invariant (AllLevelled t) ?_ fun u e v all counted moved => ?_
  · intro id rune found
    rw [start] at found
    cases found
  · exact (risen_step growing all counted moved).levelled

/-- In every run whose requests count their items the runes are levelled, none of them
falls, and what one gains has been paid. -/
theorem run_grown (growing : Growing t) (start : u.userrune = fun _ => none)
    (run : Run (lvStep t) Counted u es v) :
    AllLevelled t v ∧ ∀ e w, Counted v e → lvStep t v e = some w → Grown t v w e := by
  have all := run_levelled growing start run
  exact ⟨all, fun e w counted moved => grown_step growing all counted moved⟩

/-- Three levels, at 10, 30 and 60. -/
def lvRows : List RuneLevel :=
  [⟨1, 605001, 10, [⟨10001, 1⟩]⟩, ⟨2, 605001, 30, [⟨10001, 2⟩]⟩, ⟨3, 605001, 60, []⟩]

theorem lvRows_growth : Growth lvRows 3 := by
  refine ⟨by decide, by decide, fun level => ?_, by decide, fun level high => ?_⟩
  · simp only [lvRows, List.mem_cons, List.not_mem_nil, or_false, exists_eq_or_imp,
      exists_eq_left]
    omega
  · obtain rfl | rfl : level = 0 ∨ level = 1 := by omega
    · decide
    · decide

def lvTables : Tables := { runeTables with runeLevels := fun _ => lvRows }

theorem lvTables_growing : Growing lvTables := ⟨fun _ => ⟨3, lvRows_growth⟩, fun _ => le_rfl⟩

def lvUser : User := { runeUser with userrune := fun _ => none }

/-- A rune fed with five items, and the request that follows. -/
theorem run_grown_fed :
    ∃ v, Run (lvStep lvTables) Counted lvUser
        [.addRune 1 1, .exec (.runeLvUp 1 1 5 none) ⟨0, 0⟩] v ∧
      v.userrune 1 = some ⟨1, 1, 5⟩ ∧ v.bag.num 605001 = 0 ∧
      AllLevelled lvTables v ∧
        ∀ e w, Counted v e → lvStep lvTables v e = some w → Grown lvTables v w e := by
  have run : Run (lvStep lvTables) Counted lvUser
      ([.addRune 1 1] ++ [.exec (.runeLvUp 1 1 5 none) ⟨0, 0⟩]) _ :=
    .next (.next .refl trivial rfl) (fun _ => by decide) rfl
  exact ⟨_, run, by decide, by decide, run_grown lvTables_growing rfl run⟩

/-- A rune that has five loses two of them to minus two items. -/
theorem grown_fails :
    ¬∀ (t : Tables) (u v : User) (es : List LvEvent), Growing t → (u.userrune = fun _ => none) →
      Run (lvStep t) anyStep u es v →
      AllLevelled t v ∧ ∀ e w, lvStep t v e = some w → Grown t v w e := by
  intro all
  have run : Run (lvStep lvTables) anyStep lvUser
      ([.addRune 1 1] ++ [.exec (.runeLvUp 1 1 5 none) ⟨0, 0⟩]) _ :=
    .next (.next .refl trivial rfl) trivial rfl
  obtain ⟨_, grown⟩ := all _ _ _ _ lvTables_growing rfl run
  have falls := (grown (.exec (.runeLvUp 1 1 (-2) none) ⟨0, 0⟩) _ rfl).rises 1 ⟨1, 1, 5⟩ ⟨1, 1, 3⟩
    (by decide) (by decide)
  exact absurd falls.2 (by decide)

end Runs

end HuluLandlord.Agent
