import HuluLandlord.Agent.Txz

/-!
Level and experience of the battle pass. They are kept apart, and moved by two rules: a
gain looks the level up in the table, a purchase shifts the experience by as much as the
thresholds are apart. In a table that starts at zero and whose levels do not come cheaper
as they rise, the two stay in step.
-/
namespace HuluLandlord.Agent
open Transition Table

namespace PassTable

/-- The largest level whose threshold is at most the experience. -/
def IsLevel (cfg : PassTable) (exp : Int) (lv : Nat) : Prop :=
  (∃ c ∈ cfg.rows, c.level = lv ∧ c.ex ≤ exp) ∧ ∀ c ∈ cfg.rows, c.ex ≤ exp → c.level ≤ lv

/-- The thresholds rise, and by no less from level to level. -/
structure Progressive (cfg : PassTable) : Prop where
  increasing : ∀ (i j : Nat) (a b : PassRow), i < j → cfg.rows[i]? = some a →
    cfg.rows[j]? = some b → a.ex < b.ex
  increments : ∀ (i : Nat) (a b c : PassRow), cfg.rows[i]? = some a → cfg.rows[i + 1]? = some b →
    cfg.rows[i + 2]? = some c → b.ex - a.ex ≤ c.ex - b.ex

/-- The first level is there from the beginning. -/
def StartsAtZero (cfg : PassTable) : Prop := ∃ c, cfg.rows[0]? = some c ∧ c.ex = 0

/-- Prices are diamonds, of which there is a number and not a time. -/
structure Priced (cfg : PassTable) (items : Items) : Prop where
  diamonds : ∀ c ∈ cfg.rows, ∀ e ∈ c.diam, e.id = itemDiamond ∧ 0 ≤ e.num
  counted : ∃ type, items itemDiamond = some type ∧ type ≠ .time

/-- The prices of the levels above one, up to another. -/
def price (cfg : PassTable) (lv target : Nat) : Int :=
  total ((cfg.rows.filter fun c => lv < c.level ∧ c.level ≤ target).flatMap PassRow.diam)
    itemDiamond

section Rows
variable {cfg : PassTable} {c : PassRow} {i l : Nat} {lv : Int}

theorem level_of_row (row : cfg.rows[i]? = some c) : c.level = i + 1 := numbered_key cfg.levels row

theorem mem_rows_iff : c ∈ cfg.rows ↔ cfg.rows[c.level - 1]? = some c := mem_numbered cfg.levels

theorem getCfgByLv_some (found : cfg.GetCfgByLv lv = some c) : c ∈ cfg.rows ∧ (c.level : Int) = lv :=
  ⟨List.mem_of_find?_eq_some found, by simpa using List.find?_some found⟩

theorem getCfgByLv_row : cfg.GetCfgByLv (l + 1 : Nat) = cfg.rows[l]? := by
  rw [← find_numbered cfg.levels l, GetCfgByLv]
  simp only [Nat.cast_inj]

theorem nextRows_eq (lv n : Nat) : cfg.nextRows lv n = (cfg.rows.drop lv).take n := by
  induction n generalizing lv with
  | zero => rfl
  | succ n ih =>
      rw [nextRows, getCfgByLv_row]
      cases row : cfg.rows[lv]? with
      | none => rw [List.drop_eq_nil_of_le (List.getElem?_eq_none_iff.mp row), List.take_nil]
      | some c =>
          obtain ⟨short, rfl⟩ := List.getElem?_eq_some_iff.mp row
          rw [List.drop_eq_getElem_cons short, List.take_succ_cons, ih]

/-- The rows of the levels bought are those the price is taken from. -/
theorem nextRows_filter (lv n : Nat) :
    cfg.nextRows lv n = cfg.rows.filter fun c => lv < c.level ∧ c.level ≤ lv + n := by
  have window : ∀ (rows : List PassRow) (k lv : Nat),
      rows.map PassRow.level = List.range' (k + 1) rows.length →
      rows.filter (fun c => lv < c.level ∧ c.level ≤ lv + n) =
        (rows.drop (lv - k)).take (n - (k - lv)) := by
    intro rows
    induction rows with
    | nil => simp
    | cons c rows ih =>
        intro k lv levels
        rw [List.map_cons, List.length_cons, List.range'_succ, List.cons.injEq] at levels
        obtain ⟨level, levels⟩ := levels
        have rest := ih (k + 1) lv levels
        rw [List.filter_cons, level, rest]
        by_cases above : lv ≤ k
        · have nothing : lv - k = 0 := by omega
          have nothing' : lv - (k + 1) = 0 := by omega
          rw [nothing, nothing', List.drop_zero, List.drop_zero]
          by_cases within : k + 1 ≤ lv + n
          · have more : n - (k - lv) = n - (k + 1 - lv) + 1 := by omega
            rw [if_pos (by simp; omega), more, List.take_succ_cons]
          · have none : n - (k - lv) = 0 := by omega
            have none' : n - (k + 1 - lv) = 0 := by omega
            rw [if_neg (by simp; omega), none, none', List.take_zero, List.take_zero]
        · have skip : lv - k = lv - (k + 1) + 1 := by omega
          have same : n - (k - lv) = n - (k + 1 - lv) := by omega
          rw [if_neg (by simp; omega), skip, List.drop_succ_cons, same]
  rw [nextRows_eq, window cfg.rows 0 lv cfg.levels, Nat.sub_zero, Nat.zero_sub, Nat.sub_zero]

/-- A level further up is at least as far from the next one. -/
theorem increments_le (progressive : cfg.Progressive) {j : Nat} {a b c d : PassRow} (le : i ≤ j)
    (rowA : cfg.rows[i]? = some a) (rowB : cfg.rows[i + 1]? = some b)
    (rowC : cfg.rows[j]? = some c) (rowD : cfg.rows[j + 1]? = some d) :
    b.ex - a.ex ≤ d.ex - c.ex := by
  induction le generalizing c d with
  | refl =>
      obtain rfl := Option.some.inj (rowA.symm.trans rowC)
      obtain rfl := Option.some.inj (rowB.symm.trans rowD)
      exact le_refl _
  | @step j le ih =>
      have short := (List.getElem?_eq_some_iff.mp rowC).1
      have before := List.getElem?_eq_getElem (show j < cfg.rows.length by omega)
      exact (ih before rowC).trans (progressive.increments j _ c d before rowC rowD)

end Rows

end PassTable

section Consume
variable {list acc : List Entry} {item : Entry} {id : ItemId}

theorem total_addConsume (keys : (acc.map Entry.id).Nodup) :
    total (addConsume acc item) id = total acc id + if item.id = id then item.num else 0 := by
  rw [addConsume]
  split
  · rename_i named
    induction acc with
    | nil => simp at named
    | cons e acc ih =>
        rw [List.map_cons, List.nodup_cons] at keys
        rw [List.map_cons, total_cons, total_cons]
        by_cases here : e.id = item.id
        · have others : acc.map (fun e => if e.id = item.id then { e with num := e.num + item.num }
              else e) = acc := by
            refine (List.map_congr_left fun f mem => ?_).trans (List.map_id acc)
            refine if_neg fun same : f.id = item.id => keys.1 ?_
            rw [here, ← same]
            exact List.mem_map_of_mem mem
          rw [others, if_pos here]
          by_cases wanted : item.id = id
          · simp only [here, wanted, if_true]
            omega
          · simp only [here, wanted, if_false]
            omega
        · have rest := ih keys.2 (by simpa [here] using named)
          rw [if_neg here, rest]
          omega
  · rw [total, List.filter_append, List.map_append, List.sum_append, ← total, ← total, total_cons,
      total_nil, add_zero]

theorem keys_addConsume (keys : (acc.map Entry.id).Nodup) :
    ((addConsume acc item).map Entry.id).Nodup := by
  rw [addConsume]
  split
  · have same : Entry.id ∘ (fun e : Entry => if e.id = item.id then
        { e with num := e.num + item.num } else e) = Entry.id := by
      funext e
      simp only [Function.comp_apply]
      split <;> rfl
    rw [List.map_map, same]
    exact keys
  · rename_i fresh
    rw [List.map_append]
    refine List.nodup_append.mpr ⟨keys, List.nodup_singleton _, ?_⟩
    rintro _ mem _ last rfl
    obtain ⟨e, mem, same⟩ := List.mem_map.mp mem
    rw [List.map_singleton, List.mem_singleton] at last
    exact fresh (List.any_eq_true.mpr ⟨e, mem, by simp [same, last]⟩)

/-- The cost list has each item once, with what all entries ask for together. -/
theorem consumeList_spec (keys : (acc.map Entry.id).Nodup) :
    ((list.foldl addConsume acc).map Entry.id).Nodup ∧
      total (list.foldl addConsume acc) id = total acc id + total list id := by
  induction list generalizing acc with
  | nil => exact ⟨keys, by simp⟩
  | cons item list ih =>
      obtain ⟨nodup, sum⟩ := @ih (addConsume acc item) (keys_addConsume keys)
      refine ⟨nodup, ?_⟩
      rw [List.foldl_cons, sum, total_addConsume keys, total_cons]
      omega

/-- What holds of all entries and is kept by adding up holds of the cost list. -/
theorem consumeList_all (P : Entry → Prop)
    (adds : ∀ e item : Entry, P e → P item → P { e with num := e.num + item.num })
    (all : ∀ e ∈ list, P e) (start : ∀ e ∈ acc, P e) : ∀ e ∈ list.foldl addConsume acc, P e := by
  induction list generalizing acc with
  | nil => exact start
  | cons item list ih =>
      have here : P item := all item List.mem_cons_self
      refine ih (fun e mem => all e (List.mem_cons_of_mem _ mem)) fun e mem => ?_
      rw [addConsume] at mem
      split at mem
      · obtain ⟨f, old, rfl⟩ := List.mem_map.mp mem
        split
        · exact adds f item (start f old) here
        · exact start f old
      · obtain mem | mem := List.mem_append.mp mem
        · exact start e mem
        · exact List.mem_singleton.mp mem ▸ here

end Consume

/-- A user with the record of one period. -/
structure PassHolder where
  record : PassRecord
  bag : Bag

inductive PassEvent
  | addExp (addValue : Nat)
  | buyLvByDiamond (lv : Int) (now : Int)
  deriving DecidableEq, Repr

namespace PassHolder
variable (cfg : PassTable) (items : Items)

def step (s : PassHolder) (e : PassEvent) : Option PassHolder :=
  match e with
  | .addExp addValue => some { s with record := s.record.addExp cfg addValue }
  | .buyLvByDiamond lv now =>
      match s.record.BuyLvByDiamond cfg items now s.bag lv with
      | (record, bag, _) => some ⟨record, bag⟩

def start (startAt endAt : Int) (bag : Bag) : PassHolder := ⟨.create startAt endAt, bag⟩

/-- The level is the one the experience is worth. -/
def InStep (s : PassHolder) : Prop := cfg.IsLevel s.record.exp s.record.lv

/-- A purchase that succeeds takes the price of the levels it passes, and leaves what the
experience was above the threshold. -/
def FairPurchase (s : PassHolder) : Prop :=
  ∀ (lv now : Int) (r : PassRecord) (bag : Bag),
    s.record.BuyLvByDiamond cfg items now s.bag lv = (r, bag, .succeed_1) →
    ∃ old new, cfg.GetCfgByLv s.record.lv = some old ∧ cfg.GetCfgByLv lv = some new ∧
      s.record.lv < new.level ∧ r.lv = new.level ∧ r.exp - new.ex = s.record.exp - old.ex ∧
      ∀ id, bag.num id = s.bag.num id -
        if id = itemDiamond then cfg.price s.record.lv new.level else 0

end PassHolder

section Levels
variable {cfg : PassTable} {items : Items} {s s' : PassHolder} {r r' : PassRecord}
  {bag bag' : Bag} {e : PassEvent} {es : List PassEvent} {lv now startAt endAt : Int}

/-- What the scan of the table finds. -/
theorem scan_spec (rows : List PassRow) (exp : Int) (oldLv : Nat) :
    let maxlv := rows.foldl (fun maxlv c => if c.ex ≤ exp then
      (if maxlv < c.level then c.level else maxlv) else maxlv) oldLv
    oldLv ≤ maxlv ∧ (∀ c ∈ rows, c.ex ≤ exp → c.level ≤ maxlv) ∧
      (maxlv = oldLv ∨ ∃ c ∈ rows, c.level = maxlv ∧ c.ex ≤ exp) := by
  induction rows generalizing oldLv with
  | nil => exact ⟨le_refl _, nofun, .inl rfl⟩
  | cons c rows ih =>
      simp only [List.foldl_cons]
      by_cases reached : c.ex ≤ exp
      · rw [if_pos reached]
        obtain ⟨le, above, from_⟩ := ih (if oldLv < c.level then c.level else oldLv)
        have both : oldLv ≤ (if oldLv < c.level then c.level else oldLv) ∧
            c.level ≤ (if oldLv < c.level then c.level else oldLv) := by
          split <;> omega
        refine ⟨both.1.trans le, ?_, ?_⟩
        · intro d mem reached'
          obtain rfl | mem := List.mem_cons.mp mem
          · exact both.2.trans le
          · exact above d mem reached'
        · obtain same | ⟨d, mem, level, reached'⟩ := from_
          · rw [same]
            split
            · exact .inr ⟨c, List.mem_cons_self, rfl, reached⟩
            · exact .inl rfl
          · exact .inr ⟨d, List.mem_cons_of_mem _ mem, level, reached'⟩
      · rw [if_neg reached]
        obtain ⟨le, above, from_⟩ := ih oldLv
        refine ⟨le, ?_, ?_⟩
        · intro d mem reached'
          obtain rfl | mem := List.mem_cons.mp mem
          · exact absurd reached' reached
          · exact above d mem reached'
        · obtain same | ⟨d, mem, found⟩ := from_
          · exact .inl same
          · exact .inr ⟨d, List.mem_cons_of_mem _ mem, found⟩

theorem addExp_lv (addValue : Int) :
    (r.addExp cfg addValue).lv = cfg.rows.foldl (fun maxlv c => if c.ex ≤ r.exp + addValue then
      (if maxlv < c.level then c.level else maxlv) else maxlv) r.lv := by
  have le := (scan_spec cfg.rows (r.exp + addValue) r.lv).1
  simp only [PassRecord.addExp]
  split
  · rfl
  · omega

theorem lv_addExp (addValue : Int) : r.lv ≤ (r.addExp cfg addValue).lv := by
  rw [addExp_lv]
  exact (scan_spec cfg.rows (r.exp + addValue) r.lv).1

theorem isLevel_addExp (level : cfg.IsLevel r.exp r.lv) (addValue : Nat) :
    cfg.IsLevel (r.addExp cfg addValue).exp (r.addExp cfg addValue).lv := by
  obtain ⟨_, above, from_⟩ := scan_spec cfg.rows (r.exp + addValue) r.lv
  rw [PassTable.IsLevel, addExp_lv]
  refine ⟨?_, above⟩
  obtain same | found := from_
  · rw [same]
    obtain ⟨c, mem, level, reached⟩ := level.1
    refine ⟨c, mem, level, reached.trans ?_⟩
    exact le_add_of_nonneg_right (Int.natCast_nonneg addValue)
  · exact found

/-- A purchase that succeeds, step by step. -/
theorem buyLv_cases
    (bought : r.BuyLvByDiamond cfg items now bag lv = (r', bag', .succeed_1)) :
    ∃ c, cfg.GetCfgByLv lv = some c ∧ r.lv < c.level ∧
      bag.removeList items now (some (((cfg.nextRows r.lv (c.level - r.lv)).flatMap
        PassRow.diam).foldl addConsume [])) 1 = (bag', true) ∧
      r'.lv = c.level ∧ r'.exp = (match cfg.GetCfgByLv r.lv with
        | some oldCfg => c.ex + r.exp - oldCfg.ex
        | none => c.ex) := by
  rw [PassRecord.BuyLvByDiamond] at bought
  cases found : cfg.GetCfgByLv lv with
  | none => simp [found] at bought
  | some c =>
      have level := (PassTable.getCfgByLv_some found).2
      simp only [found, PassRecord.GetBuyLvConsumeItems] at bought
      by_cases up : lv - r.lv ≤ 0
      · simp [up] at bought
      have range : (lv - r.lv).toNat = c.level - r.lv := by omega
      rw [if_neg up, range] at bought
      generalize listed : ((cfg.nextRows r.lv (c.level - r.lv)).flatMap PassRow.diam).foldl
        addConsume [] = consumeList at bought
      by_cases free : consumeList = []
      · simp [free] at bought
      simp only [free, if_false] at bought
      cases removed : bag.removeList items now (some consumeList) 1 with
      | mk bag₁ paid =>
          cases paid with
          | false => simp [removed] at bought
          | true =>
              simp only [removed, Prod.mk.injEq, and_true] at bought
              obtain ⟨rfl, rfl⟩ := bought
              exact ⟨c, rfl, by omega, listed ▸ removed, rfl, rfl⟩

theorem buyLv_refused (refused : (r.BuyLvByDiamond cfg items now bag lv).2.2 ≠ .succeed_1) :
    (r.BuyLvByDiamond cfg items now bag lv).1 = r := by
  rw [PassRecord.BuyLvByDiamond] at refused ⊢
  cases found : cfg.GetCfgByLv lv with
  | none => rfl
  | some c =>
      simp only [found] at refused ⊢
      cases cost : r.GetBuyLvConsumeItems cfg lv with
      | none => rfl
      | some consumeList =>
          simp only [cost] at refused ⊢
          cases removed : bag.removeList items now (some consumeList) 1 with
          | mk bag₁ paid =>
              cases paid with
              | false => rfl
              | true => simp [removed] at refused

theorem lv_buyLv : r.lv ≤ (r.BuyLvByDiamond cfg items now bag lv).1.lv := by
  by_cases bought : (r.BuyLvByDiamond cfg items now bag lv).2.2 = .succeed_1
  · obtain ⟨c, _, up, _, level, _⟩ := @buyLv_cases cfg items r _ bag _ lv now
      (Prod.ext rfl (Prod.ext rfl bought))
    rw [level]
    exact up.le
  · rw [buyLv_refused bought]

theorem total_keyed {list : List Entry} (keys : (list.map Entry.id).Nodup) {e : Entry}
    (mem : e ∈ list) : total list e.id = e.num := by
  induction list with
  | nil => exact absurd mem List.not_mem_nil
  | cons f list ih =>
      rw [List.map_cons, List.nodup_cons] at keys
      rw [total_cons]
      obtain rfl | mem := List.mem_cons.mp mem
      · have absent : ∀ g ∈ list, g.id ≠ e.id := fun g mem same =>
          keys.1 (same ▸ List.mem_map_of_mem mem)
        rw [if_pos rfl, total_of_not_mem absent, add_zero]
      · have other : f.id ≠ e.id := fun same => keys.1 (same ▸ List.mem_map_of_mem mem)
        rw [if_neg other, ih keys.2 mem, zero_add]

/-- What a purchase takes of the bag. -/
theorem num_buyLv (priced : cfg.Priced items) {lv target : Nat} (up : lv ≤ target)
    (removed : bag.removeList items now (some (((cfg.nextRows lv (target - lv)).flatMap
      PassRow.diam).foldl addConsume [])) 1 = (bag', true)) (id : ItemId) :
    bag'.num id = bag.num id - if id = itemDiamond then cfg.price lv target else 0 := by
  have named := @PassTable.nextRows_filter cfg lv (target - lv)
  rw [Nat.add_sub_cancel' up] at named
  have diamonds : ∀ e ∈ (cfg.nextRows lv (target - lv)).flatMap PassRow.diam,
      e.id = itemDiamond ∧ 0 ≤ e.num := by
    intro e mem
    obtain ⟨c, mem, priceOf⟩ := List.mem_flatMap.mp mem
    rw [named] at mem
    exact priced.diamonds c (List.mem_filter.mp mem).1 e priceOf
  obtain ⟨keys, sum⟩ := @consumeList_spec ((cfg.nextRows lv (target - lv)).flatMap PassRow.diam) []
    id List.nodup_nil
  have prices := @consumeList_all _ [] (fun e => e.id = itemDiamond ∧ 0 ≤ e.num)
    (fun e item old new => ⟨old.1, add_nonneg old.2 new.2⟩) diamonds nofun
  have sums : total ((cfg.nextRows lv (target - lv)).flatMap PassRow.diam) id =
      if id = itemDiamond then cfg.price lv target else 0 := by
    split
    · rename_i here
      rw [here, named, PassTable.price]
    · rename_i other
      exact total_of_not_mem fun e mem same => other (same.symm.trans (diamonds e mem).1)
  rw [total_nil, zero_add, sums] at sum
  generalize ((cfg.nextRows lv (target - lv)).flatMap PassRow.diam).foldl addConsume [] =
    consumeList at removed keys sum prices
  have plain : Plain items consumeList := fun e mem =>
    ⟨(prices e mem).1 ▸ priced.counted, (prices e mem).2⟩
  have taken := num_removeList (le_refl 1) plain (fun e mem => total_keyed keys mem)
    (congrArg Prod.snd removed) id
  rwa [removed, sum, mul_one] at taken

/-- The two thresholds of a purchase, and the level it leads to. -/
theorem buyLv_spec (progressive : cfg.Progressive) (level : cfg.IsLevel r.exp r.lv)
    (bought : r.BuyLvByDiamond cfg items now bag lv = (r', bag', .succeed_1)) :
    ∃ old new, cfg.GetCfgByLv r.lv = some old ∧ cfg.GetCfgByLv lv = some new ∧
      r.lv < new.level ∧ r'.lv = new.level ∧ r'.exp - new.ex = r.exp - old.ex ∧
      old.ex ≤ r.exp ∧ r.exp ≤ r'.exp ∧ cfg.IsLevel r'.exp r'.lv := by
  obtain ⟨new, found, up, _, level', exp'⟩ := buyLv_cases bought
  obtain ⟨⟨old, memOld, here, reached⟩, above⟩ := level
  obtain ⟨memNew, _⟩ := PassTable.getCfgByLv_some found
  have rowNew := PassTable.mem_rows_iff.mp memNew
  obtain ⟨i, rowOld⟩ := List.mem_iff_getElem?.mp memOld
  have levelOld := PassTable.level_of_row rowOld
  have foundOld : cfg.GetCfgByLv r.lv = some old := by
    rw [← here, levelOld, PassTable.getCfgByLv_row]
    exact rowOld
  rw [foundOld] at exp'
  simp only at exp'
  have rise : old.ex < new.ex :=
    progressive.increasing i (new.level - 1) old new (by omega) rowOld rowNew
  refine ⟨old, new, foundOld, found, up, level', by omega, reached, by omega,
    ⟨new, memNew, level'.symm, by omega⟩, ?_⟩
  intro c mem reached'
  rw [level']
  by_contra higher
  -- the level after the old one was not reached, and the one after the new one is no nearer
  have rowC := PassTable.mem_rows_iff.mp mem
  have lengthNew := (List.getElem?_eq_some_iff.mp rowNew).1
  have lengthC := (List.getElem?_eq_some_iff.mp rowC).1
  obtain ⟨b, rowB⟩ : ∃ b, cfg.rows[i + 1]? = some b :=
    ⟨_, List.getElem?_eq_getElem (by omega)⟩
  obtain ⟨d, rowD⟩ : ∃ d, cfg.rows[new.level - 1 + 1]? = some d :=
    ⟨_, List.getElem?_eq_getElem (by omega)⟩
  have further := PassTable.increments_le progressive (show i ≤ new.level - 1 by omega) rowOld rowB
    rowNew rowD
  have unreached : r.exp < b.ex := by
    by_contra got
    have low := above b (List.mem_of_getElem? rowB) (not_lt.mp got)
    have levelB := PassTable.level_of_row rowB
    omega
  have last : d.ex ≤ c.ex := by
    obtain same | less := Nat.eq_or_lt_of_le (show new.level - 1 + 1 ≤ c.level - 1 by omega)
    · have both := rowC
      rw [← same, rowD] at both
      rw [Option.some.inj both]
    · exact (progressive.increasing _ _ _ _ less rowD rowC).le
  omega

theorem inStep_start (progressive : cfg.Progressive) (zero : cfg.StartsAtZero) :
    (PassHolder.start startAt endAt bag).InStep cfg := by
  obtain ⟨first, row, free⟩ := zero
  refine ⟨⟨first, List.mem_of_getElem? row, PassTable.level_of_row row, free.le⟩, ?_⟩
  intro c mem reached
  by_contra higher
  have rises := progressive.increasing 0 (c.level - 1) first c
    (show 0 < c.level - 1 from Nat.sub_pos_of_lt (not_le.mp higher)) row
    (PassTable.mem_rows_iff.mp mem)
  rw [free] at rises
  exact absurd reached (not_le.mpr rises)

theorem inStep_step (progressive : cfg.Progressive) (inStep : s.InStep cfg)
    (moved : s.step cfg items e = some s') :
    s'.InStep cfg ∧ s.record.lv ≤ s'.record.lv ∧ s.record.exp ≤ s'.record.exp := by
  cases e with
  | addExp addValue =>
      obtain rfl := Option.some.inj moved
      exact ⟨isLevel_addExp inStep addValue, lv_addExp addValue,
        le_add_of_nonneg_right (Int.natCast_nonneg addValue)⟩
  | buyLvByDiamond lv now =>
      obtain rfl := Option.some.inj moved
      refine ⟨?_, lv_buyLv, ?_⟩
      · by_cases bought : (s.record.BuyLvByDiamond cfg items now s.bag lv).2.2 = .succeed_1
        · obtain ⟨_, _, _, _, _, _, _, _, _, level⟩ :=
            buyLv_spec progressive inStep (Prod.ext rfl (Prod.ext rfl bought))
          exact level
        · have same := buyLv_refused bought
          show cfg.IsLevel (s.record.BuyLvByDiamond cfg items now s.bag lv).1.exp
            (s.record.BuyLvByDiamond cfg items now s.bag lv).1.lv
          rw [same]
          exact inStep
      · by_cases bought : (s.record.BuyLvByDiamond cfg items now s.bag lv).2.2 = .succeed_1
        · obtain ⟨_, _, _, _, _, _, _, _, exp, _⟩ :=
            buyLv_spec progressive inStep (Prod.ext rfl (Prod.ext rfl bought))
          exact exp
        · exact (congrArg PassRecord.exp (buyLv_refused bought)).ge

theorem fairPurchase (progressive : cfg.Progressive) (priced : cfg.Priced items)
    (inStep : s.InStep cfg) : s.FairPurchase cfg items := by
  intro lv now r bag bought
  obtain ⟨old, new, foundOld, found, up, level, kept, _⟩ := buyLv_spec progressive inStep bought
  obtain ⟨new', found', up', removed, _⟩ := buyLv_cases bought
  obtain rfl := Option.some.inj (found.symm.trans found')
  exact ⟨old, new, foundOld, found, up, level, kept, num_buyLv priced up'.le removed⟩

/-- In a table that starts at zero, rises, and rises by no less from level to level, the level
is always the one the experience is worth. -/
theorem run_inStep (progressive : cfg.Progressive) (zero : cfg.StartsAtZero)
    (priced : cfg.Priced items)
    (run : Run (PassHolder.step cfg items) anyStep (.start startAt endAt bag) es s) :
    s.InStep cfg ∧ s.FairPurchase cfg items ∧
      ∀ e s', s.step cfg items e = some s' →
        s.record.lv ≤ s'.record.lv ∧ s.record.exp ≤ s'.record.exp := by
  have inStep := run.invariant (PassHolder.InStep cfg) (inStep_start progressive zero)
    fun _ _ _ inStep _ moved => (inStep_step progressive inStep moved).1
  exact ⟨inStep, fairPurchase progressive priced inStep, fun e s' moved =>
    (inStep_step progressive inStep moved).2⟩

/-- Three levels at thirty diamonds each. -/
def passRows : List PassRow :=
  [⟨1, 0, [⟨itemDiamond, 2⟩], [⟨145009, 1⟩], [⟨itemDiamond, 30⟩]⟩,
    ⟨2, 1000, [⟨itemGold, 2000000⟩], [⟨501001, 3⟩], [⟨itemDiamond, 30⟩]⟩,
    ⟨3, 2500, [⟨205004, 1⟩], [⟨itemGold, 100000000⟩], [⟨itemDiamond, 30⟩]⟩]

def passTable : PassTable := ⟨passRows, rfl⟩

theorem passTable_progressive : passTable.Progressive := by
  refine ⟨?_, ?_⟩
  · intro i j a b less rowA rowB
    have short : j < 3 := (List.getElem?_eq_some_iff.mp rowB).1
    interval_cases j <;> interval_cases i <;>
      simp_all [passTable, passRows] <;> subst rowA rowB <;> decide
  · intro i a b c rowA rowB rowC
    have short : i + 2 < 3 := (List.getElem?_eq_some_iff.mp rowC).1
    obtain rfl : i = 0 := by omega
    simp only [passTable, passRows, List.getElem?_cons_zero, List.getElem?_cons_succ,
      Option.some.injEq] at rowA rowB rowC
    subst rowA rowB rowC
    decide

theorem passTable_priced : passTable.Priced fun _ => some .unset :=
  ⟨by decide, .unset, rfl, by rintro ⟨⟩⟩

/-- Half a level of experience, kept through the purchase of two levels. -/
theorem run_inStep_buys :
    ∃ s, Run (PassHolder.step passTable fun _ => some .unset) anyStep
        (.start 0 100 ((bagOf 605001 0).setNum itemDiamond 100))
        [.addExp 500, .buyLvByDiamond 3 0] s ∧
      s.record.lv = 3 ∧ s.record.exp = 3000 ∧ s.bag.num itemDiamond = 40 ∧
      s.InStep passTable ∧ s.FairPurchase passTable (fun _ => some .unset) ∧
      ∀ e s', s.step passTable (fun _ => some .unset) e = some s' →
        s.record.lv ≤ s'.record.lv ∧ s.record.exp ≤ s'.record.exp := by
  have run := @run_of_exec _ _ (PassHolder.step passTable fun _ => some .unset)
    (.start 0 100 ((bagOf 605001 0).setNum itemDiamond 100))
    [.addExp 500, .buyLvByDiamond 3 0] _ rfl
  exact ⟨_, run, by decide, by decide, by decide,
    run_inStep passTable_progressive ⟨_, rfl, rfl⟩ passTable_priced run⟩

/-- Where the first threshold is above zero, the record starts at a level that is not reached. -/
theorem run_inStep_fails :
    ¬∀ cfg items startAt endAt bag es s, cfg.Progressive → cfg.Priced items →
      Run (PassHolder.step cfg items) anyStep (.start startAt endAt bag) es s → s.InStep cfg := by
  intro all
  let cfg : PassTable := ⟨[⟨1, 500, [], [], [⟨itemDiamond, 30⟩]⟩], rfl⟩
  have progressive : cfg.Progressive := by
    refine ⟨fun i j a b less _ rowB => ?_, fun i a b c _ _ rowC => ?_⟩
    · have short : j < 1 := (List.getElem?_eq_some_iff.mp rowB).1
      omega
    · have short : i + 2 < 1 := (List.getElem?_eq_some_iff.mp rowC).1
      omega
  have priced : cfg.Priced fun _ => some .unset := ⟨by decide, .unset, rfl, by rintro ⟨⟩⟩
  obtain ⟨⟨c, mem, _, reached⟩, _⟩ := all cfg _ 0 100 (bagOf 605001 0) [] _ progressive priced .refl
  obtain rfl := List.mem_singleton.mp mem
  exact absurd reached (by decide)

end Levels

end HuluLandlord.Agent
