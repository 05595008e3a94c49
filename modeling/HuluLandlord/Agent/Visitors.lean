import HuluLandlord.Table
import HuluLandlord.Transition

/-!
The visitors of a user. The list is a table of Lua under numbers: an entry may be `nil`, and as
long as all `nil`s come last its length is that of the sequence before them. A visit is written
by the agent of the user visited where he is online, else into his row by the visitor's.
-/
namespace HuluLandlord.Agent.Visitors
open Transition

section Model
variable {κ δ : Type*}

/-- `targetInfo`. -/
structure UserBase (κ δ : Type*) where
  id : κ
  data : δ
  deriving DecidableEq, Repr

structure Visitor (κ δ : Type*) where
  NewSign : Nat
  LastAt : Nat
  RefreshAt : Nat
  BaseData : UserBase κ δ
  deriving DecidableEq, Repr

abbrev VList (κ δ : Type*) := List (Option (Visitor κ δ))

def DayLimitSec : Nat := 30 * 24 * 60 * 60

def VisitorNumLimit : Nat := 5

def Visitor.expired (now : Nat) (visitor : Visitor κ δ) : Bool :=
  visitor.LastAt + DayLimitSec < now

/-- `refresh` and `refreshById`. -/
def refresh (now : Nat) (vlist : VList κ δ) : VList κ δ :=
  vlist.map fun visitor => visitor.filter fun visitor => !visitor.expired now

/-- `#VList`: of the lengths Lua may give a table with gaps, the one before the first gap. -/
def GetVisitorLength (vlist : VList κ δ) : Nat := (vlist.takeWhile Option.isSome).length

section Keyed
variable [DecidableEq κ]

/-- Where `GetVisitorById` finds a visitor. -/
def GetVisitorById (vlist : VList κ δ) (id : κ) : Option Nat :=
  vlist.findIdx? fun visitor => visitor.any fun visitor => visitor.BaseData.id = id

/-- The visitor found or put behind the others; every field of it is written. -/
def visit (now : Nat) (targetInfo : UserBase κ δ) (vlist : VList κ δ) : VList κ δ :=
  let index := (GetVisitorById vlist targetInfo.id).getD (GetVisitorLength vlist)
  vlist.take index ++ some ⟨1, now, now, targetInfo⟩ :: vlist.drop (index + 1)

end Keyed

/-- What `table.sort` may leave of the entries up to the length: the sort is not stable. -/
def Sorted (vlist : VList κ δ) (arr : List (Visitor κ δ)) : Prop :=
  (arr.map some).Perm (vlist.take (GetVisitorLength vlist)) ∧
    arr.Pairwise fun a b => a.LastAt ≥ b.LastAt

def sorted (arr : List (Visitor κ δ)) (vlist : VList κ δ) : VList κ δ :=
  arr.map some ++ vlist.drop (GetVisitorLength vlist)

/-- The loop from the limit up to the length clears the entries on its way. -/
def truncate (vlist : VList κ δ) : VList κ δ :=
  if GetVisitorLength vlist > VisitorNumLimit then
    vlist.mapIdx fun i visitor =>
      if VisitorNumLimit ≤ i + 1 ∧ i + 1 ≤ GetVisitorLength vlist then none else visitor
  else vlist

/-- The user's row of `UserVisitorRecord` and the data of his agent, where they are there; when the list
was last refreshed, and who has visited when. -/
structure Visitors (κ δ : Type*) where
  row : Option (VList κ δ)
  Data : Option (VList κ δ)
  refreshed : Nat
  visits : List (κ × Nat)

inductive Event (κ δ : Type*)
  | UpdateVisitor (online : Bool) (now : Nat) (targetInfo : UserBase κ δ)
      (arr : List (Visitor κ δ))
  | GetVisitor (now : Nat)
  | SetVisitorNewSign (now : Nat)
  | logout

/-- A user without a record gets an empty one, and it is saved. -/
def load (s : Visitors κ δ) : VList κ δ := s.Data.getD (s.row.getD [])

def SetNewSignToOld (vlist : VList κ δ) : VList κ δ :=
  vlist.map fun visitor => visitor.map fun visitor => { visitor with NewSign := 0 }

/-- `load`, `refresh` and `save` of the agent, with the change `f` between the last two; what is
unchanged is not saved. -/
def atAgent (s : Visitors κ δ) (now : Nat) (f : VList κ δ → VList κ δ) (SFlag : Bool) :
    Visitors κ δ :=
  let vlist := load s
  let dropped := vlist.any fun visitor => visitor.any fun visitor => visitor.expired now
  { row := if dropped ∨ SFlag then some (f (refresh now vlist))
      else if s.Data.isSome then s.row else some (s.row.getD [])
    Data := some (f (refresh now vlist))
    refreshed := now
    visits := s.visits }

variable [DecidableEq κ]

def written (now : Nat) (targetInfo : UserBase κ δ) (arr : List (Visitor κ δ))
    (vlist : VList κ δ) : VList κ δ :=
  truncate (sorted arr (visit now targetInfo vlist))

/-- A visit is written at the agent of `uid`, or at another where `uid` is not online. -/
def UpdateVisitor (s : Visitors κ δ) (online : Bool) (now : Nat) (targetInfo : UserBase κ δ)
    (arr : List (Visitor κ δ)) : Visitors κ δ :=
  let t := if online then atAgent s now (written now targetInfo arr) true
    else { s with
      row := some (written now targetInfo arr (refresh now (s.row.getD [])))
      refreshed := now }
  { t with visits := s.visits ++ [(targetInfo.id, now)] }

def step (uid : κ) (s : Visitors κ δ) : Event κ δ → Option (Visitors κ δ)
  | .UpdateVisitor online now targetInfo arr =>
      if targetInfo.id = uid then some s else some (UpdateVisitor s online now targetInfo arr)
  | .GetVisitor now => some (atAgent s now id false)
  | .SetVisitorNewSign now =>
      some (atAgent s now SetNewSignToOld ((refresh now (load s)).any Option.isSome))
  | .logout => some { s with Data := none }

/-- Times do not fall, and a row is written from outside only where no agent has the data. -/
def Proper (s : Visitors κ δ) : Event κ δ → Prop
  | .UpdateVisitor online now targetInfo arr =>
      s.refreshed ≤ now ∧ (∀ e ∈ s.visits, e.2 ≤ now) ∧ (online = false → s.Data = none) ∧
        Sorted (visit now targetInfo (refresh now (load s))) arr
  | .GetVisitor now | .SetVisitorNewSign now => s.refreshed ≤ now ∧ ∀ e ∈ s.visits, e.2 ≤ now
  | .logout => True

/-- A new visitor finds fewer than the limit who have not expired. -/
def Room (uid : κ) (s : Visitors κ δ) : Event κ δ → Prop
  | .UpdateVisitor _ now targetInfo _ => targetInfo.id = uid ∨
      (GetVisitorById (refresh now (load s)) targetInfo.id).isSome ∨
        GetVisitorLength (refresh now (load s)) < VisitorNumLimit
  | _ => True

/-- The list is a sequence, with `nil`s behind it at most. -/
def Gapless (vlist : VList κ δ) (vs : List (Visitor κ δ)) : Prop :=
  ∃ k, vlist = vs.map some ++ List.replicate k none

def ids (vs : List (Visitor κ δ)) : List κ := vs.map fun visitor => visitor.BaseData.id

/-- The visitors of the last 30 days. -/
def recents (visits : List (κ × Nat)) (now : Nat) : List κ :=
  ((visits.filter fun e => now ≤ e.2 + DayLimitSec).map Prod.fst).dedup

/-- What the list of visitors is for. -/
structure Lawful (s : Visitors κ δ) (vs : List (Visitor κ δ)) : Prop where
  agree : ∀ vlist, s.Data = some vlist → s.row = some vlist
  gapless : Gapless (load s) vs
  newest_first : vs.Pairwise fun a b => a.LastAt ≥ b.LastAt
  distinct : (ids vs).Nodup
  last_visit : ∀ v ∈ vs, (v.BaseData.id, v.LastAt) ∈ s.visits ∧
    ∀ e ∈ s.visits, e.1 = v.BaseData.id → e.2 ≤ v.LastAt
  unexpired : ∀ v ∈ vs, v.expired s.refreshed = false
  number : vs.length = min VisitorNumLimit (recents s.visits s.refreshed).length
  most_recent : ∀ e ∈ s.visits, e.1 ∉ ids vs → s.refreshed ≤ e.2 + DayLimitSec →
    ∀ v ∈ vs, e.2 ≤ v.LastAt

/-- A row with the visitors of a list, each with his last visit. -/
def stored (vs : List (Visitor κ δ)) : Visitors κ δ where
  row := some (vs.map some)
  Data := none
  refreshed := 0
  visits := vs.map fun v => (v.BaseData.id, v.LastAt)

end Model

section Lists
variable {κ δ : Type*} {vlist : VList κ δ} {vs arr : List (Visitor κ δ)} {now index : Nat}
variable {v : Visitor κ δ}

theorem Gapless.length (gapless : Gapless vlist vs) : GetVisitorLength vlist = vs.length := by
  obtain ⟨k, rfl⟩ := gapless
  have live : ∀ v ∈ vs.map some, Option.isSome v = true := by simp
  rw [GetVisitorLength, List.takeWhile_append_of_pos live]
  cases k with
  | zero => simp
  | succ k => simp [List.replicate_succ]

theorem Gapless.live (gapless : Gapless vlist vs) :
    vlist.take (GetVisitorLength vlist) = vs.map some := by
  rw [gapless.length]
  obtain ⟨k, rfl⟩ := gapless
  exact List.take_left' (List.length_map some)

theorem gapless_nones (nones : ∀ entry ∈ vlist, entry = none) : Gapless vlist [] :=
  ⟨vlist.length, List.eq_replicate_of_mem nones⟩

/-- The list is newest first, so what has expired stands at its end. -/
theorem Gapless.refresh (gapless : Gapless vlist vs)
    (newest_first : vs.Pairwise fun a b => a.LastAt ≥ b.LastAt) :
    Gapless (refresh now vlist) (vs.filter fun v => !v.expired now) := by
  obtain ⟨k, rfl⟩ := gapless
  rw [Visitors.refresh, List.map_append, List.map_replicate]
  induction newest_first with
  | nil => exact ⟨k, rfl⟩
  | @cons v vs older _ ih =>
      by_cases gone : v.expired now
      · have all_gone : ∀ w ∈ vs, w.expired now = true := by
          intro w mem
          have old := older w mem
          rw [Visitor.expired, decide_eq_true_iff] at gone ⊢
          omega
        have none_left : (v :: vs).filter (fun v => !v.expired now) = [] := by
          refine List.filter_eq_nil_iff.mpr fun w mem => ?_
          obtain rfl | mem := List.mem_cons.mp mem
          · simp [gone]
          · simp [all_gone w mem]
        rw [none_left]
        refine gapless_nones fun entry mem => ?_
        obtain live | rest := List.mem_append.mp mem
        · obtain ⟨_, mapped, rfl⟩ := List.mem_map.mp live
          obtain ⟨u, listed, rfl⟩ := List.mem_map.mp mapped
          obtain rfl | listed := List.mem_cons.mp listed
          · simp [Option.filter, gone]
          · simp [Option.filter, all_gone u listed]
        · rw [List.eq_of_mem_replicate rest]
          rfl
      · obtain ⟨m, rest⟩ := ih
        refine ⟨m, ?_⟩
        rw [List.filter_cons_of_pos (by simpa using gone), List.map_cons, List.map_cons,
          List.map_cons, List.cons_append, List.cons_append, rest]
        simp [Option.filter, gone]

theorem Gapless.put (gapless : Gapless vlist vs) (v : Visitor κ δ) (inside : index ≤ vs.length) :
    Gapless (vlist.take index ++ some v :: vlist.drop (index + 1))
      (vs.take index ++ v :: vs.drop (index + 1)) := by
  obtain ⟨k, rfl⟩ := gapless
  have front : (vs.map some ++ List.replicate k none).take index = (vs.take index).map some := by
    rw [List.take_append_of_le_length (by simpa using inside), List.map_take]
  by_cases listed : index < vs.length
  · refine ⟨k, ?_⟩
    rw [front, List.drop_append_of_le_length (by simpa using listed), ← List.map_drop]
    simp
  · refine ⟨k - 1, ?_⟩
    obtain rfl : index = vs.length := by omega
    have back : (vs.map some ++ List.replicate k none).drop (vs.length + 1) =
        List.replicate (k - 1) none := by
      rw [List.drop_append, List.drop_eq_nil_of_le (by simp), List.length_map, List.nil_append,
        Nat.add_sub_cancel_left, List.drop_replicate]
    rw [front, back]
    simp

theorem Gapless.sorted (gapless : Gapless vlist vs) : Gapless (sorted arr vlist) arr := by
  rw [Visitors.sorted, gapless.length]
  obtain ⟨k, rfl⟩ := gapless
  exact ⟨k, by rw [List.drop_left' (List.length_map some)]⟩

theorem Sorted.perm (gapless : Gapless vlist vs) (sort : Sorted vlist arr) : arr.Perm vs := by
  have same := sort.1
  rw [gapless.live] at same
  exact (List.map_perm_map_iff (Option.some_injective _)).mp same

theorem Gapless.truncate_few (gapless : Gapless vlist vs) (few : vs.length ≤ VisitorNumLimit) :
    Gapless (truncate vlist) vs := by
  rwa [truncate, gapless.length, if_neg (not_lt.mpr few)]

/-- One entry too many is cleared: the list is left one short of the limit. -/
theorem Gapless.truncate_many (gapless : Gapless vlist vs) (many : vs.length > VisitorNumLimit) :
    Gapless (truncate vlist) (vs.take (VisitorNumLimit - 1)) := by
  rw [truncate, gapless.length, if_pos many]
  obtain ⟨k, rfl⟩ := gapless
  refine ⟨vs.length - (VisitorNumLimit - 1) + k, List.ext_getElem? fun i => ?_⟩
  simp only [VisitorNumLimit] at many ⊢
  -- an entry is before the limit, cleared, or behind the length
  grind

end Lists

section Updates
variable {κ δ : Type*} [DecidableEq κ] {vlist : VList κ δ} {vs arr : List (Visitor κ δ)}
variable {now : Nat} {targetInfo : UserBase κ δ} {id : κ}

theorem Gapless.find (gapless : Gapless vlist vs) (id : κ) :
    GetVisitorById vlist id = vs.findIdx? fun visitor => visitor.BaseData.id = id := by
  obtain ⟨k, rfl⟩ := gapless
  simp [GetVisitorById, List.findIdx?_append, List.findIdx?_map, Function.comp_def,
    List.findIdx?_replicate]

theorem found_iff : (vs.findIdx? fun visitor => visitor.BaseData.id = id).isSome ↔
    id ∈ ids vs := by
  simp [ids]

/-- A visit replaces the entry of the visitor, or adds one. -/
theorem Gapless.visit (gapless : Gapless vlist vs) (distinct : (ids vs).Nodup) :
    ∃ vs', Gapless (visit now targetInfo vlist) vs' ∧
      vs'.Perm (⟨1, now, now, targetInfo⟩ ::
        vs.filter fun visitor => visitor.BaseData.id ≠ targetInfo.id) := by
  rw [Visitors.visit, gapless.find, gapless.length]
  cases found : vs.findIdx? fun visitor => visitor.BaseData.id = targetInfo.id with
  | none =>
      refine ⟨_, gapless.put _ (le_refl vs.length), ?_⟩
      have others : vs.filter (fun visitor => visitor.BaseData.id ≠ targetInfo.id) = vs := by
        rw [List.findIdx?_eq_none_iff] at found
        exact List.filter_eq_self.mpr fun v mem => by simpa using found v mem
      rw [others, Option.getD_none, List.take_length, List.drop_eq_nil_of_le (Nat.le_succ _)]
      exact List.perm_append_singleton _ _
  | some i =>
      obtain ⟨inside, here, _⟩ := List.findIdx?_eq_some_iff_getElem.mp found
      refine ⟨_, gapless.put _ inside.le, List.perm_middle.trans (.cons _ (.of_eq ?_))⟩
      have present : (vs.find? fun visitor => visitor.BaseData.id = targetInfo.id).isSome :=
        List.find?_isSome.mpr ⟨vs[i], List.getElem_mem inside, here⟩
      obtain ⟨v, first⟩ := Option.isSome_iff_exists.mp present
      have same : v.BaseData.id = targetInfo.id := by simpa using List.find?_some first
      rw [← same] at first found ⊢
      rw [← Table.eraseP_keyed distinct first, List.eraseP_eq_eraseIdx, found, Option.getD_some]
      exact (List.eraseIdx_eq_take_drop_succ vs i).symm

end Updates

section Runs
variable {κ δ : Type*} [DecidableEq κ] {s t : Visitors κ δ} {vs arr : List (Visitor κ δ)}
variable {now : Nat} {targetInfo : UserBase κ δ}

/-- All who have visited in the last 30 days are listed: there has been room for them. -/
structure Full (s : Visitors κ δ) (vs : List (Visitor κ δ)) : Prop where
  agree : ∀ vlist, s.Data = some vlist → s.row = some vlist
  gapless : Gapless (load s) vs
  newest_first : vs.Pairwise fun a b => a.LastAt ≥ b.LastAt
  distinct : (ids vs).Nodup
  last_visit : ∀ v ∈ vs, (v.BaseData.id, v.LastAt) ∈ s.visits ∧
    ∀ e ∈ s.visits, e.1 = v.BaseData.id → e.2 ≤ v.LastAt
  unexpired : ∀ v ∈ vs, v.expired s.refreshed = false
  listed : ∀ e ∈ s.visits, s.refreshed ≤ e.2 + DayLimitSec → e.1 ∈ ids vs
  few : vs.length ≤ VisitorNumLimit

theorem mem_recents {visits : List (κ × Nat)} {id : κ} :
    id ∈ recents visits now ↔ ∃ e ∈ visits, now ≤ e.2 + DayLimitSec ∧ e.1 = id := by
  simp [recents]

theorem unexpired_iff {v : Visitor κ δ} :
    v.expired now = false ↔ now ≤ v.LastAt + DayLimitSec := by
  rw [Visitor.expired, decide_eq_false_iff_not, not_lt]

theorem Full.lawful (full : Full s vs) : Lawful s vs := by
  have same : (ids vs).Perm (recents s.visits s.refreshed) := by
    refine (List.perm_ext_iff_of_nodup full.distinct (List.nodup_dedup _)).mpr fun id => ?_
    rw [← recents, mem_recents]
    constructor
    · intro mem
      obtain ⟨v, listed, rfl⟩ := List.mem_map.mp mem
      exact ⟨_, (full.last_visit v listed).1, unexpired_iff.mp (full.unexpired v listed), rfl⟩
    · rintro ⟨e, visited, recent, rfl⟩
      exact full.listed e visited recent
  have count := same.length_eq
  rw [ids, List.length_map] at count
  exact ⟨full.agree, full.gapless, full.newest_first, full.distinct, full.last_visit,
    full.unexpired, by rw [← count, min_eq_right full.few],
    fun e visited absent recent => absurd (full.listed e visited recent) absent⟩

/-- What a refresh leaves. -/
def fresh (now : Nat) (vs : List (Visitor κ δ)) : List (Visitor κ δ) :=
  vs.filter fun v => !v.expired now

theorem mem_fresh {v : Visitor κ δ} : v ∈ fresh now vs ↔ v ∈ vs ∧ v.expired now = false := by
  rw [fresh, List.mem_filter, Bool.not_eq_true']

theorem ids_sublist {ws : List (Visitor κ δ)} (sub : ws.Sublist vs) (distinct : (ids vs).Nodup) :
    (ids ws).Nodup := distinct.sublist (sub.map _)

/-- Who has visited in the last 30 days is listed after a refresh. -/
theorem Full.fresh_listed (full : Full s vs) (later : s.refreshed ≤ now) {e : κ × Nat}
    (visited : e ∈ s.visits) (recent : now ≤ e.2 + DayLimitSec) : e.1 ∈ ids (fresh now vs) := by
  obtain ⟨v, mem, same⟩ := List.mem_map.mp (full.listed e visited (later.trans recent))
  refine List.mem_map.mpr ⟨v, mem_fresh.mpr ⟨mem, unexpired_iff.mpr ?_⟩, same⟩
  have last := (full.last_visit v mem).2 e visited same.symm
  omega

/-- The refreshed list, where signs may be taken off. -/
theorem Full.refreshed (full : Full s vs) (later : s.refreshed ≤ now)
    {f : Visitor κ δ → Visitor κ δ} (kept : ∀ v, (f v).BaseData = v.BaseData ∧ (f v).LastAt = v.LastAt)
    (agree : ∀ vlist, t.Data = some vlist → t.row = some vlist)
    (gapless : Gapless (load t) ((fresh now vs).map f)) (time : t.refreshed = now)
    (visits : t.visits = s.visits) : Full t ((fresh now vs).map f) := by
  have same_ids : ids ((fresh now vs).map f) = ids (fresh now vs) := by
    simp [ids, kept]
  have whole : (fresh now vs).Sublist vs := List.filter_sublist
  refine ⟨agree, gapless, ?_, ?_, fun w mem => ?_, fun w mem => ?_, fun e visited recent => ?_, ?_⟩
  · rw [List.pairwise_map]
    refine (full.newest_first.sublist whole).imp fun {a b} older => ?_
    rw [(kept a).2, (kept b).2]
    exact older
  · rw [same_ids]
    exact ids_sublist whole full.distinct
  · obtain ⟨v, listed, rfl⟩ := List.mem_map.mp mem
    rw [(kept v).1, (kept v).2, visits]
    exact full.last_visit v (mem_fresh.mp listed).1
  · obtain ⟨v, listed, rfl⟩ := List.mem_map.mp mem
    have live := (mem_fresh.mp listed).2
    rw [time, unexpired_iff, (kept v).2]
    exact unexpired_iff.mp live
  · rw [visits] at visited
    rw [time] at recent
    rw [same_ids]
    exact full.fresh_listed later visited recent
  · rw [List.length_map]
    exact whole.length_le.trans full.few

/-- The list after a visit, before it is cut. -/
structure Visited (now : Nat) (targetInfo : UserBase κ δ) (vs arr : List (Visitor κ δ)) : Prop where
  sorted : arr.Pairwise fun a b => a.LastAt ≥ b.LastAt
  perm : arr.Perm (⟨1, now, now, targetInfo⟩ ::
    (fresh now vs).filter fun visitor => visitor.BaseData.id ≠ targetInfo.id)

theorem Visited.mem (visited : Visited now targetInfo vs arr) {v : Visitor κ δ} : v ∈ arr ↔
    v = ⟨1, now, now, targetInfo⟩ ∨ v ∈ fresh now vs ∧ v.BaseData.id ≠ targetInfo.id := by
  rw [visited.perm.mem_iff, List.mem_cons, List.mem_filter, decide_eq_true_iff]

theorem Visited.distinct (visited : Visited now targetInfo vs arr) (distinct : (ids vs).Nodup) :
    (ids arr).Nodup := by
  refine ((visited.perm.map _).nodup_iff).mpr (List.nodup_cons.mpr ⟨fun mem => ?_, ?_⟩)
  · obtain ⟨v, listed, same⟩ := List.mem_map.mp mem
    exact of_decide_eq_true (List.mem_filter.mp listed).2 same
  · exact ids_sublist (List.filter_sublist.trans List.filter_sublist) distinct

theorem Visited.length (visited : Visited now targetInfo vs arr) (distinct : (ids vs).Nodup) :
    arr.length = if targetInfo.id ∈ ids (fresh now vs) then (fresh now vs).length
      else (fresh now vs).length + 1 := by
  rw [visited.perm.length_eq, List.length_cons]
  split
  · rename_i known
    obtain ⟨v, mem, same⟩ := List.mem_map.mp known
    have parts := (List.filter_append_perm
      (fun visitor => decide (visitor.BaseData.id = v.BaseData.id)) (fresh now vs)).length_eq
    have keys : ((fresh now vs).map fun visitor => visitor.BaseData.id).Nodup :=
      ids_sublist List.filter_sublist distinct
    rw [Table.filter_keyed keys mem, List.length_append, List.length_singleton] at parts
    simp only [← same, ne_eq, decide_not]
    omega
  · rename_i new
    rw [List.filter_eq_self.mpr fun v mem => ?_]
    exact decide_eq_true fun same => new (List.mem_map.mpr ⟨v, mem, same⟩)

/-- Where there is room, the visitor joins those who have visited in the last 30 days. -/
theorem Full.visited (full : Full s vs) (later : s.refreshed ≤ now)
    (latest : ∀ e ∈ s.visits, e.2 ≤ now) (visited : Visited now targetInfo vs arr)
    (few : arr.length ≤ VisitorNumLimit)
    (agree : ∀ vlist, t.Data = some vlist → t.row = some vlist) (gapless : Gapless (load t) arr)
    (time : t.refreshed = now) (visits : t.visits = s.visits ++ [(targetInfo.id, now)]) :
    Full t arr := by
  refine ⟨agree, gapless, visited.sorted, visited.distinct full.distinct, fun v mem => ?_,
    fun v mem => ?_, fun e listed recent => ?_, few⟩
  · rw [visits]
    obtain rfl | old := visited.mem.mp mem
    · refine ⟨by simp, fun e listed _ => ?_⟩
      obtain earlier | last := List.mem_append.mp listed
      · exact latest e earlier
      · rw [List.mem_singleton.mp last]
    · have last := full.last_visit v (mem_fresh.mp old.1).1
      refine ⟨List.mem_append_left _ last.1, fun e listed same => ?_⟩
      obtain earlier | this := List.mem_append.mp listed
      · exact last.2 e earlier same
      · rw [List.mem_singleton.mp this] at same
        exact absurd same.symm old.2
  · rw [time]
    obtain rfl | old := visited.mem.mp mem
    · exact unexpired_iff.mpr (Nat.le_add_right _ _)
    · exact (mem_fresh.mp old.1).2
  · rw [visits] at listed
    rw [time] at recent
    by_cases here : e.1 = targetInfo.id
    · exact List.mem_map.mpr ⟨_, visited.mem.mpr (.inl rfl), here.symm⟩
    · obtain earlier | this := List.mem_append.mp listed
      · obtain ⟨v, mem, same⟩ := List.mem_map.mp (full.fresh_listed later earlier recent)
        exact List.mem_map.mpr ⟨v, visited.mem.mpr (.inr ⟨mem, same ▸ here⟩), same⟩
      · rw [List.mem_singleton.mp this] at here
        exact absurd rfl here

theorem gapless_fresh {vlist : VList κ δ} (gapless : Gapless vlist vs)
    (newest_first : vs.Pairwise fun a b => a.LastAt ≥ b.LastAt) :
    Gapless (refresh now vlist) (fresh now vs) := gapless.refresh newest_first

/-- A sorted list after a visit. -/
theorem Full.sorts (full : Full s vs)
    (sort : Sorted (visit now targetInfo (refresh now (load s))) arr) :
    Visited now targetInfo vs arr ∧
      Gapless (sorted arr (visit now targetInfo (refresh now (load s)))) arr := by
  have keys : (ids (fresh now vs)).Nodup := ids_sublist List.filter_sublist full.distinct
  obtain ⟨vs', gapless, perm⟩ := (gapless_fresh full.gapless full.newest_first).visit keys
  exact ⟨⟨sort.2, (sort.perm gapless).trans perm⟩, gapless.sorted⟩

/-- There is room just when the list after a visit is within the limit. -/
theorem Full.room_iff (full : Full s vs) (visited : Visited now targetInfo vs arr) :
    (GetVisitorById (refresh now (load s)) targetInfo.id).isSome ∨
      GetVisitorLength (refresh now (load s)) < VisitorNumLimit ↔
        arr.length ≤ VisitorNumLimit := by
  have gapless : Gapless (refresh now (load s)) (fresh now vs) :=
    gapless_fresh full.gapless full.newest_first
  rw [gapless.find, gapless.length, found_iff, visited.length full.distinct]
  have most : (fresh now vs).length ≤ vs.length := List.length_filter_le _ _
  have few := full.few
  split
  · rename_i known
    exact iff_of_true (.inl known) (most.trans few)
  · rename_i new
    rw [or_iff_right new]
    omega

/-- A list cut below the limit is not what it is for. -/
theorem Full.cut (full : Full s vs) (visited : Visited now targetInfo vs arr) (many : ¬arr.length ≤ VisitorNumLimit)
    (gapless : Gapless (load t) (arr.take (VisitorNumLimit - 1))) (time : t.refreshed = now)
    (visits : t.visits = s.visits ++ [(targetInfo.id, now)]) : ¬∃ ws, Lawful t ws := by
  rintro ⟨ws, lawful⟩
  have short : ws.length = VisitorNumLimit - 1 := by
    rw [← lawful.gapless.length, gapless.length, List.length_take]
    omega
  have known : ids arr ⊆ recents t.visits t.refreshed := by
    intro id mem
    obtain ⟨v, listed, rfl⟩ := List.mem_map.mp mem
    rw [mem_recents, visits, time]
    obtain rfl | old := visited.mem.mp listed
    · exact ⟨_, List.mem_append_right _ List.mem_cons_self, Nat.le_add_right _ _, rfl⟩
    · obtain ⟨kept, live⟩ := mem_fresh.mp old.1
      exact ⟨_, List.mem_append_left _ (full.last_visit v kept).1, unexpired_iff.mp live, rfl⟩
  have most := (List.subperm_of_subset (visited.distinct full.distinct) known).length_le
  have number := lawful.number
  rw [short, min_eq_left (by rw [ids, List.length_map] at most; omega)] at number
  cases number

theorem refresh_unexpired {vlist : VList κ δ}
    (live : ¬vlist.any (fun visitor => visitor.any fun visitor => visitor.expired now) = true) :
    refresh now vlist = vlist := by
  refine (List.map_congr_left fun entry mem => ?_).trans (List.map_id vlist)
  cases entry with
  | none => rfl
  | some visitor =>
      have kept : visitor.expired now = false := by
        refine Bool.eq_false_iff.mpr fun gone => live (List.any_eq_true.mpr ⟨_, mem, ?_⟩)
        rw [Option.any_some, gone]
      simp [Option.filter, kept]

/-- What is not saved is in the row. -/
theorem atAgent_agree {f : VList κ δ → VList κ δ} {SFlag : Bool}
    (agree : ∀ vlist, s.Data = some vlist → s.row = some vlist)
    (unchanged : SFlag = false → f (refresh now (load s)) = refresh now (load s)) :
    ∀ vlist, (atAgent s now f SFlag).Data = some vlist →
      (atAgent s now f SFlag).row = some vlist := by
  intro vlist cached
  rw [← cached]
  simp only [atAgent]
  split
  · rfl
  · rename_i quiet
    rw [not_or] at quiet
    rw [unchanged (Bool.eq_false_iff.mpr quiet.2), refresh_unexpired quiet.1, load]
    split
    · rename_i loaded
      obtain ⟨d, data⟩ := Option.isSome_iff_exists.mp loaded
      rw [agree d data, data, Option.getD_some]
    · rename_i unloaded
      rw [Option.not_isSome_iff_eq_none] at unloaded
      rw [unloaded, Option.getD_none]

theorem load_atAgent {f : VList κ δ → VList κ δ} {SFlag : Bool} :
    load (atAgent s now f SFlag) = f (refresh now (load s)) := rfl

/-- A request that refreshes the list. -/
theorem Full.getVisitor (full : Full s vs) (later : s.refreshed ≤ now) :
    ∃ ws, Full (atAgent s now id false) ws := by
  refine ⟨_, full.refreshed (f := id) later (fun _ => ⟨rfl, rfl⟩)
    (atAgent_agree full.agree fun _ => rfl) ?_ rfl rfl⟩
  rw [load_atAgent, List.map_id]
  exact gapless_fresh full.gapless full.newest_first

theorem Full.setVisitorNewSign (full : Full s vs) (later : s.refreshed ≤ now) :
    ∃ ws, Full (atAgent s now SetNewSignToOld ((refresh now (load s)).any Option.isSome)) ws := by
  have gapless : Gapless (refresh now (load s)) (fresh now vs) :=
    gapless_fresh full.gapless full.newest_first
  refine ⟨_, full.refreshed (f := fun visitor => { visitor with NewSign := 0 }) later
    (fun _ => ⟨rfl, rfl⟩) (atAgent_agree full.agree fun none_left => ?_) ?_ rfl rfl⟩
  · rw [List.any_eq_false] at none_left
    refine (List.map_congr_left fun entry mem => ?_).trans (List.map_id _)
    cases entry with
    | none => rfl
    | some visitor => exact absurd rfl (none_left _ mem)
  · rw [load_atAgent]
    obtain ⟨k, list⟩ := gapless
    exact ⟨k, by simp [list, SetNewSignToOld, Function.comp_def]⟩

theorem Full.logout (full : Full s vs) : Full { s with Data := none } vs := by
  have same : load { s with Data := none } = load s := by
    rw [load, load]
    cases data : s.Data with
    | none => rfl
    | some vlist =>
        rw [full.agree vlist data]
        rfl
  exact ⟨nofun, same ▸ full.gapless, full.newest_first, full.distinct, full.last_visit,
    full.unexpired, full.listed, full.few⟩

/-- Where a visit is written, the state has its list. -/
theorem UpdateVisitor_load {online : Bool} (offline : online = false → s.Data = none) :
    load (UpdateVisitor s online now targetInfo arr) =
      truncate (sorted arr (visit now targetInfo (refresh now (load s)))) := by
  cases online with
  | true => rfl
  | false =>
      have none_ := offline rfl
      simp [UpdateVisitor, load, none_, written]

theorem UpdateVisitor_agree {online : Bool} (offline : online = false → s.Data = none) :
    ∀ vlist, (UpdateVisitor s online now targetInfo arr).Data = some vlist →
      (UpdateVisitor s online now targetInfo arr).row = some vlist := by
  cases online with
  | true =>
      intro vlist cached
      rw [← cached]
      simp [UpdateVisitor, atAgent]
  | false =>
      intro vlist cached
      have none_ := offline rfl
      simp [UpdateVisitor, none_] at cached

/-- A step keeps the list what it is for if and only if there is room. -/
theorem Full.step {uid : κ} {e : Event κ δ} (full : Full s vs) (proper : Proper s e)
    (moved : step uid s e = some t) :
    (Room uid s e → ∃ ws, Full t ws) ∧ (¬Room uid s e → ¬∃ ws, Lawful t ws) := by
  cases e with
  | UpdateVisitor online now targetInfo arr =>
      obtain ⟨later, latest, offline, sort⟩ := proper
      rw [Visitors.step] at moved
      split at moved
      · rename_i self
        obtain rfl := Option.some.inj moved
        exact ⟨fun _ => ⟨vs, full⟩, fun full_up => absurd (.inl self) full_up⟩
      · rename_i other
        obtain rfl := Option.some.inj moved
        obtain ⟨visited, gapless⟩ := full.sorts sort
        have room : Room uid s (.UpdateVisitor online now targetInfo arr) ↔
            arr.length ≤ VisitorNumLimit := by
          rw [Room, or_iff_right other, full.room_iff visited]
        rw [room]
        have agree := @UpdateVisitor_agree _ _ _ s arr now targetInfo online offline
        have list := @UpdateVisitor_load _ _ _ s arr now targetInfo online offline
        have time : (Visitors.UpdateVisitor s online now targetInfo arr).refreshed = now := by
          cases online <;> rfl
        constructor
        · intro few
          exact ⟨arr, full.visited later latest visited few agree
            (list ▸ gapless.truncate_few few) time rfl⟩
        · intro many
          exact full.cut visited many (list ▸ gapless.truncate_many (not_le.mp many)) time rfl
  | GetVisitor now =>
      obtain rfl := Option.some.inj moved
      exact ⟨fun _ => full.getVisitor proper.1, fun no_room => absurd trivial no_room⟩
  | SetVisitorNewSign now =>
      obtain rfl := Option.some.inj moved
      exact ⟨fun _ => full.setVisitorNewSign proper.1, fun no_room => absurd trivial no_room⟩
  | logout =>
      obtain rfl := Option.some.inj moved
      exact ⟨fun _ => ⟨vs, full.logout⟩, fun no_room => absurd trivial no_room⟩

theorem full_stored (newest_first : vs.Pairwise fun a b => a.LastAt ≥ b.LastAt)
    (distinct : (ids vs).Nodup) (few : vs.length ≤ VisitorNumLimit) : Full (stored vs) vs := by
  refine ⟨nofun, ⟨0, by simp [load, stored]⟩, newest_first, distinct, fun v mem => ⟨?_, ?_⟩,
    fun v _ => unexpired_iff.mpr (Nat.zero_le _), fun e visited _ => ?_, few⟩
  · exact List.mem_map_of_mem mem
  · intro e visited same
    obtain ⟨w, listed, rfl⟩ := List.mem_map.mp visited
    rw [List.inj_on_of_nodup_map distinct listed mem same]
  · obtain ⟨w, listed, rfl⟩ := List.mem_map.mp visited
    exact List.mem_map_of_mem listed

/-- The list is what it is for all along just in the runs whose new visitors find room. -/
theorem run_lawful {uid : κ} {es : List (Event κ δ)}
    (newest_first : vs.Pairwise fun a b => a.LastAt ≥ b.LastAt) (distinct : (ids vs).Nodup)
    (few : vs.length ≤ VisitorNumLimit) (run : Run (step uid) Proper (stored vs) es t) :
    Run (step uid) (fun s e => Proper s e ∧ Room uid s e) (stored vs) es t ↔
      ∀ front u, front <+: es → Run (step uid) Proper (stored vs) front u →
        ∃ ws, Lawful u ws := by
  have start := full_stored newest_first distinct few
  refine Run.always_within (fun u => ∃ ws, Lawful u ws) ⟨vs, start.lawful⟩ ?_ run
  intro front s e u guarded proper moved
  obtain ⟨ws, full⟩ : ∃ ws, Full s ws := guarded.invariant (fun s => ∃ ws, Full s ws) ⟨vs, start⟩
    fun s e u kept guard moved => by
      obtain ⟨ws, full⟩ := kept
      exact (full.step guard.1 moved).1 guard.2
  obtain ⟨kept, lost⟩ := full.step proper moved
  constructor
  · intro lawful
    by_contra no_room
    exact lost no_room lawful
  · intro room
    obtain ⟨ws, full⟩ := kept room
    exact ⟨ws, full.lawful⟩

instance [DecidableEq δ] (vlist : VList κ δ) (arr : List (Visitor κ δ)) :
    Decidable (Sorted vlist arr) :=
  inferInstanceAs (Decidable (_ ∧ _))

instance [DecidableEq δ] (s : Visitors κ δ) (e : Event κ δ) : Decidable (Proper s e) :=
  match e with
  | .UpdateVisitor online now targetInfo arr =>
      inferInstanceAs (Decidable (s.refreshed ≤ now ∧ (∀ e ∈ s.visits, e.2 ≤ now) ∧
        (online = false → s.Data = none) ∧
          Sorted (visit now targetInfo (refresh now (load s))) arr))
  | .GetVisitor now | .SetVisitorNewSign now =>
      inferInstanceAs (Decidable (s.refreshed ≤ now ∧ ∀ e ∈ s.visits, e.2 ≤ now))
  | .logout => inferInstanceAs (Decidable True)

end Runs

/-- The visit of user `i` at time `i`, after those of the users before him. -/
def visitOf (i : Nat) : Event Nat Unit :=
  .UpdateVisitor true i ⟨i, ()⟩
    ((List.range' 1 i).reverse.map fun j => ⟨1, j, j, ⟨j, ()⟩⟩)

theorem run_lawful_first : ∃ t, Run (step 0) Proper (stored []) [visitOf 1] t ∧
    ∃ ws, Lawful t ws := by
  have run : Run (step 0) (fun s e => Proper s e ∧ Room 0 s e) (stored []) [visitOf 1]
      (UpdateVisitor (stored []) true 1 ⟨1, ()⟩ [⟨1, 1, 1, ⟨1, ()⟩⟩]) :=
    .next .refl ⟨by decide, .inr (.inr (by decide))⟩ rfl
  have proper := run.mono fun _ _ guard => guard.1
  exact ⟨_, proper, (run_lawful .nil List.nodup_nil (Nat.zero_le _) proper).mp run _ _
    List.prefix_rfl proper⟩

/-- The sixth visitor leaves four of six. -/
theorem run_cut : ∃ es t, Run (step 0) Proper (stored ([] : List (Visitor Nat Unit))) es t ∧
    ¬∃ ws, Lawful t ws := by
  obtain ⟨t, run, short, visitors⟩ := run_of_guarded_any (step 0) Proper
    (stored ([] : List (Visitor Nat Unit))) ((List.range' 1 6).map visitOf)
    (fun t => GetVisitorLength (load t) = 4 ∧ (recents t.visits t.refreshed).length = 6)
    (by decide)
  refine ⟨_, t, run, ?_⟩
  rintro ⟨ws, lawful⟩
  have number := lawful.number
  rw [visitors, ← lawful.gapless.length, short] at number
  cases number

end HuluLandlord.Agent.Visitors
